import CxkFramework.HttpConnection

/-!
# A body in chunks

Each chunk is a line with its size in hexadecimal digits, its payload and a line end of two bytes.
`recvResponse` starts the parser anew in every read, so a line has to be in the buffer as a whole
when the parser comes to it.
-/

namespace CxkFramework

open Scanner Blocks HttpClientParser

namespace HttpClientParser

/-! ## Digits -/

theorem next_digit {d : UInt8} (h : isDigit 16 d = true) :
    machine.next start d = some (2, [.mark]) ∧ machine.next 2 d = some (2, []) := by
  have hall : ∀ i : Fin 256, isDigit 16 (UInt8.ofNat i) = true →
      machine.next start (UInt8.ofNat i) = some (2, [.mark]) ∧
        machine.next 2 (UInt8.ofNat i) = some (2, []) := by
    set_option maxRecDepth 1000 in decide
  have hd := hall ⟨d.toNat, d.toNat_lt⟩
  simp only [UInt8.ofNat_toNat] at hd
  exact hd h

theorem next_lineEnd : machine.next 2 13 = some (3, [.chunkSize]) ∧
    machine.next 3 10 = some (firstFinal, [.done]) ∧
    machine.next 2 10 = some (firstFinal, [.chunkSize, .done]) := by
  decide

theorem next_start_lineEnd : machine.next start 13 = none ∧ machine.next start 10 = none := by
  decide

/-- How a line may end. -/
def IsLineEnd (eol : List UInt8) : Prop := eol = [13, 10] ∨ eol = [10]

/-- Nothing starts with what a line ends with. -/
theorem refused_lineEnd {eol u v : List UInt8} (heol : IsLineEnd eol) (hv : eol = u ++ v)
    (hne : v ≠ []) :
    ∃ b more, v = b :: more ∧ ∀ later, machine.outcome start (b :: later) = .failed := by
  obtain ⟨hcr, hlf⟩ := next_start_lineEnd
  cases v with
  | nil => exact absurd rfl hne
  | cons b more =>
    have hmem : b ∈ eol := by
      rw [hv]
      exact List.mem_append_right u List.mem_cons_self
    refine ⟨b, more, rfl, fun later => ?_⟩
    have hb : b = 13 ∨ b = 10 := by
      rcases heol with rfl | rfl
      · simpa using hmem
      · exact .inr (by simpa using hmem)
    rcases hb with rfl | rfl
    · rw [Machine.outcome, hcr]
    · rw [Machine.outcome, hlf]

theorem accepts_digits {ds eol : List UInt8} (hds : ∀ d ∈ ds, isDigit 16 d = true)
    (heol : IsLineEnd eol) : machine.accepts 2 (ds ++ eol) = true := by
  obtain ⟨hcr, hlf, hnl⟩ := next_lineEnd
  induction ds with
  | nil =>
    rcases heol with rfl | rfl
    · simp only [List.nil_append, Machine.accepts, hcr, hlf]
      rfl
    · simp only [List.nil_append, Machine.accepts, hnl]
      rfl
  | cons d ds ih =>
    have hrest := ih fun d' hd' => hds d' (List.mem_cons_of_mem d hd')
    simp only [List.cons_append, Machine.accepts, (next_digit (hds d List.mem_cons_self)).2]
    exact hrest

theorem accepts_line {digits eol : List UInt8} (hne : digits ≠ [])
    (hdigits : ∀ d ∈ digits, isDigit 16 d = true) (heol : IsLineEnd eol) :
    machine.accepts start (digits ++ eol) = true := by
  cases digits with
  | nil => exact absurd rfl hne
  | cons d ds =>
    have hrest := accepts_digits (fun d' hd' => hdigits d' (List.mem_cons_of_mem d hd')) heol
    simp only [List.cons_append, Machine.accepts, (next_digit (hdigits d List.mem_cons_self)).1]
    exact hrest

end HttpClientParser

namespace HttpResponseParser

/-- Digits are passed over. -/
theorem exec_digits {buffer ds rest : List UInt8} (hds : ∀ d ∈ ds, isDigit 16 d = true) (p : Nat)
    (parser : HttpResponseParser) : machine.exec (perform buffer) 2 p (ds ++ rest) parser =
      machine.exec (perform buffer) 2 (p + ds.length) rest parser := by
  induction ds generalizing p with
  | nil => rfl
  | cons d ds ih =>
    have hrest := ih (fun d' hd' => hds d' (List.mem_cons_of_mem d hd')) (p + 1)
    simp only [List.cons_append, Machine.exec, (next_digit (hds d List.mem_cons_self)).2,
      performAll, List.any_nil, Bool.false_eq_true, if_false, List.length_cons]
    rw [hrest, Nat.add_right_comm, Nat.add_assoc]

/-- The line in front of a chunk. -/
theorem exec_line {digits eol : List UInt8} (hne : digits ≠ [])
    (hdigits : ∀ d ∈ digits, isDigit 16 d = true) (heol : IsLineEnd eol)
    (parser : HttpResponseParser) :
    machine.exec (perform (digits ++ eol)) start 0 (digits ++ eol) parser =
      .ok (.stopped firstFinal, (digits ++ eol).length,
        ({ parser with mark := 0 } : HttpResponseParser).setChunk
          (toInt (strtol 16 (digits ++ eol)))) := by
  obtain ⟨hcr, hlf, hnl⟩ := next_lineEnd
  cases digits with
  | nil => exact absurd rfl hne
  | cons d ds =>
    have hds := fun d' hd' => hdigits d' (List.mem_cons_of_mem d hd')
    rw [List.cons_append, Machine.exec]
    simp only [(next_digit (hdigits d List.mem_cons_self)).1, performAll, perform]
    rw [if_neg (by decide), exec_digits hds]
    rcases heol with rfl | rfl
    · have hlen : 0 + 1 + ds.length + 1 + 1 = (d :: (ds ++ [13, 10])).length := by
        simp only [List.length_cons, List.length_append, List.length_nil]
        omega
      simp only [Machine.exec, hcr, hlf, performAll, perform, List.drop_zero]
      rw [if_neg (by decide), if_pos (by decide), hlen]
    · have hlen : 0 + 1 + ds.length + 1 = (d :: (ds ++ [10])).length := by
        simp only [List.length_cons, List.length_append, List.length_nil]
        omega
      simp only [Machine.exec, hnl, performAll, perform, List.drop_zero]
      rw [if_pos (by decide), hlen]

end HttpResponseParser

namespace HttpConnection

/-! ## Chunks -/

structure Chunk where
  digits : List UInt8
  eol : List UInt8
  payload : List UInt8
  digits_ne : digits ≠ []
  hex : ∀ d ∈ digits, isDigit 16 d = true
  lineEnd : IsLineEnd eol
  size_eq : ofDigits 16 digits = payload.length
  size_lt : payload.length < 2 ^ 31

namespace Chunk

def line (c : Chunk) : List UInt8 := c.digits ++ c.eol

def wire (c : Chunk) : List UInt8 := c.line ++ (c.payload ++ [13, 10])

theorem length_line (c : Chunk) : c.digits.length < c.line.length := by
  rw [line, List.length_append]
  rcases c.lineEnd with h | h
  · rw [h, List.length_cons]
    omega
  · rw [h, List.length_cons]
    omega

theorem line_ne_nil (c : Chunk) : c.line ≠ [] :=
  List.length_pos_iff.mp (Nat.zero_lt_of_lt c.length_line)

theorem accepts (c : Chunk) : machine.accepts start c.line = true :=
  accepts_line c.digits_ne c.hex c.lineEnd

/-- The size that the parser reads off the line. -/
theorem strtol_line (c : Chunk) : toInt (strtol 16 c.line) = c.payload.length := by
  have hsize := c.size_lt
  have hdigits : ∃ e rest, c.eol = e :: rest ∧ isDigit 16 e = false := by
    rcases c.lineEnd with h | h
    · exact ⟨13, [10], h, rfl⟩
    · exact ⟨10, [], h, rfl⟩
  obtain ⟨e, rest, heol, he⟩ := hdigits
  rw [line, heol, strtol_append he c.hex, c.size_eq, min_eq_left (by omega)]
  exact Stream.toInt_of_lt (by omega) (by omega)

end Chunk

theorem length_le_wire (cs : List Chunk) : cs.length ≤ (cs.flatMap Chunk.wire).length := by
  induction cs with
  | nil => exact le_rfl
  | cons c cs ih =>
    have hline := List.length_pos_iff.mpr c.line_ne_nil
    rw [List.flatMap_cons, List.length_append, Chunk.wire, List.length_append, List.length_cons]
    omega

/-- A parser behind the line of the chunk. -/
structure BehindLine (c : Chunk) (parser parser' : HttpResponseParser) : Prop where
  cs_eq : parser'.cs = firstFinal
  error_eq : parser'.error = parser.error
  data_eq : parser'.data = parser.data
  contentLen_eq : parser'.contentLen = c.payload.length
  chunksDone_iff : parser'.chunksDone = true ↔ c.payload = []

theorem execute_line (c : Chunk) (parser : HttpResponseParser) (behind : List UInt8) :
    ∃ parser', parser.execute (c.line ++ behind) true = .ok (parser', c.line.length) ∧
      BehindLine c parser parser' := by
  have hcs : parser.reinit.cs = start := rfl
  have hlen : c.line.length ≠ 0 := fun h => c.line_ne_nil (List.length_eq_zero_iff.mp h)
  have hline := HttpResponseParser.exec_line c.digits_ne c.hex c.lineEnd
    parser.reinit.resetOffsets
  have hexec : ∃ parser', parser.execute c.line true = .ok (parser', c.line.length) ∧
      BehindLine c parser parser' := by
    refine ⟨{ ({ parser.reinit.resetOffsets with mark := 0 } : HttpResponseParser).setChunk
      (toInt (strtol 16 c.line)) with cs := firstFinal }, ?_, rfl, rfl, rfl, c.strtol_line, ?_⟩
    · simp only [HttpResponseParser.execute, if_true, hcs]
      rw [if_neg hlen]
      simp only [Chunk.line, hline]
      rfl
    · simp only [HttpResponseParser.setChunk, c.strtol_line, decide_eq_true_eq,
        ← List.length_eq_zero_iff]
      omega
  obtain ⟨parser', hok, hbehind⟩ := hexec
  exact ⟨parser', HttpResponseParser.execute_extend c.accepts hok behind, hbehind⟩

/-! ## What is in the buffer -/

/-- The bytes that are left and the stream behind them. -/
abbrev Place := List UInt8 × Stream

/-- The bytes that the parser is given when it comes to the line of a chunk: those that are left, or
the ones of a read. -/
def buffered (bufferSize : Nat) (here : Place) : Place :=
  if here.1.length = 0 then (here.2.read bufferSize).2 else here

/-- The stream behind reads for `left` bytes, at most `bufferSize` in each. -/
def skip (bufferSize : Nat) : Nat → Nat → Stream → Stream
  | 0, _, s => s
  | rounds + 1, left, s =>
    if left = 0 then s
    else
      let (_, got, s) := s.read (min left bufferSize)
      skip bufferSize rounds (left - got.length) s

/-- Behind a chunk, with the bytes `here` behind its line. -/
def behindChunk (bufferSize : Nat) (c : Chunk) (here : Place) : Place :=
  if c.payload.length + 2 ≤ here.1.length then (here.1.drop (c.payload.length + 2), here.2)
  else ([], skip bufferSize (here.2.input.length + 1) (c.payload.length + 2 - here.1.length) here.2)

/-- Behind the line of a chunk. -/
def behindLine (c : Chunk) (here : Place) : Place := (here.1.drop c.line.length, here.2)

/-- The line is there as a whole. If the chunk is too, the bytes behind the line do not fill the
buffer up to its last two; that can only be when the line ends with a bare line feed. -/
structure LineFits (bufferSize : Nat) (c : Chunk) (here : Place) : Prop where
  size_lt : c.payload.length + 2 < 2 ^ 31
  line_le : c.line.length ≤ here.1.length
  moved : c.payload.length + 2 ≤ (behindLine c here).1.length →
    (behindLine c here).1.length + 3 ≤ bufferSize

/-- Every line is found as it has to be. -/
def Arrives (bufferSize : Nat) : List Chunk → Place → Prop
  | [], _ => True
  | c :: cs, here => LineFits bufferSize c (buffered bufferSize here) ∧
    Arrives bufferSize cs (behindChunk bufferSize c (behindLine c (buffered bufferSize here)))

/-- The first line that is not found as it has to be is cut among its digits. -/
def Blurred (bufferSize : Nat) : List Chunk → Place → Prop
  | [], _ => False
  | c :: cs, here => (buffered bufferSize here).1.length < c.digits.length ∨
    LineFits bufferSize c (buffered bufferSize here) ∧
      Blurred bufferSize cs (behindChunk bufferSize c (behindLine c (buffered bufferSize here)))

instance (bufferSize : Nat) (c : Chunk) (here : Place) : Decidable (LineFits bufferSize c here) :=
  decidable_of_iff (c.payload.length + 2 < 2 ^ 31 ∧ c.line.length ≤ here.1.length ∧
    (c.payload.length + 2 ≤ (behindLine c here).1.length →
      (behindLine c here).1.length + 3 ≤ bufferSize))
    ⟨fun h => ⟨h.1, h.2.1, h.2.2⟩, fun h => ⟨h.size_lt, h.line_le, h.moved⟩⟩

instance Arrives.decide (bufferSize : Nat) :
    (cs : List Chunk) → (here : Place) → Decidable (Arrives bufferSize cs here)
  | [], _ => isTrue trivial
  | c :: cs, here =>
    have := Arrives.decide bufferSize cs
      (behindChunk bufferSize c (behindLine c (buffered bufferSize here)))
    inferInstanceAs (Decidable (_ ∧ _))

instance Blurred.decide (bufferSize : Nat) :
    (cs : List Chunk) → (here : Place) → Decidable (Blurred bufferSize cs here)
  | [], _ => isFalse id
  | c :: cs, here =>
    have := Blurred.decide bufferSize cs
      (behindChunk bufferSize c (behindLine c (buffered bufferSize here)))
    inferInstanceAs (Decidable (_ ∨ _ ∧ _))

/-- `bytes` are still to come: some are in the buffer, the others in the stream. -/
structure Pending (bufferSize : Nat) (bytes : List UInt8) (here : Place) : Prop where
  reliable : here.2.Reliable
  bytes_eq : bytes = here.1 ++ here.2.input
  length_le : here.1.length ≤ bufferSize

section Steps

variable {bufferSize : Nat} {here : Place} {bytes : List UInt8}

/-- What the parser is given next. -/
theorem Pending.refill_eq (h : Pending bufferSize bytes here) (hsize : 0 < bufferSize)
    (hne : bytes ≠ []) :
    refill bufferSize true here.2 here.1 =
      (some (buffered bufferSize here).1, (buffered bufferSize here).2) ∧
    Pending bufferSize bytes (buffered bufferSize here) ∧ (buffered bufferSize here).1 ≠ [] := by
  obtain ⟨data, s⟩ := here
  obtain ⟨hs, hbytes, hle⟩ := h
  simp only at hs hbytes hle
  by_cases hnone : data.length = 0
  · have hnil := List.length_eq_zero_iff.mp hnone
    subst hnil
    rw [List.nil_append] at hbytes
    obtain ⟨got, s₁, hread, hrec, hpos, hgot⟩ := Stream.read_reliable hs hsize
      (List.length_pos_iff.mpr (hbytes ▸ hne))
    have hbuf : buffered bufferSize ([], s) = (got, s₁) := by
      simp only [buffered, List.length_nil, if_true, hread]
    rw [hbuf]
    refine ⟨?_, ⟨hrec.reliable hs, hbytes.trans hrec.input_eq, hgot⟩, List.length_pos_iff.mp hpos⟩
    simp only [refill, List.length_nil, Nat.sub_zero, hread]
    rw [if_pos (by decide), if_neg (by omega), List.nil_append]
  · have hbuf : buffered bufferSize (data, s) = (data, s) := if_neg hnone
    rw [hbuf]
    refine ⟨?_, ⟨hs, hbytes, hle⟩, fun h => hnone (List.length_eq_zero_iff.mpr h)⟩
    rw [refill, if_neg (by simp [hnone])]

/-- A line that is there as a whole. -/
theorem recvChunkLine_whole {c : Chunk} {rest : List UInt8} {parser : HttpResponseParser}
    (h : Pending bufferSize (c.wire ++ rest) here) (hbuffer : bufferSize < 2 ^ 31)
    (hsize : 0 < bufferSize) (herror : parser.error = 0)
    (hline : c.line.length ≤ (buffered bufferSize here).1.length) (rounds : Nat) :
    ∃ parser', recvChunkLine bufferSize (rounds + 1) true parser here.2 here.1 =
        .ok (some (parser', (behindLine c (buffered bufferSize here)).1),
          (behindLine c (buffered bufferSize here)).2) ∧
      BehindLine c parser parser' ∧
      Pending bufferSize (c.payload ++ [13, 10] ++ rest) (behindLine c (buffered bufferSize here)) ∧
      (behindLine c (buffered bufferSize here)).1.length + 2 ≤ bufferSize := by
  have hwire : c.wire ++ rest = c.line ++ (c.payload ++ [13, 10] ++ rest) := by
    simp only [Chunk.wire, List.append_assoc]
  have hne : c.wire ++ rest ≠ [] := by
    rw [hwire]
    exact List.append_ne_nil_of_left_ne_nil c.line_ne_nil _
  obtain ⟨hrefill, hpending, _⟩ := h.refill_eq hsize hne
  obtain ⟨behind, hgot, hbehind⟩ := HttpSession.exists_of_append hwire hpending.bytes_eq hline
  obtain ⟨parser', hexec, hfacts⟩ := execute_line c parser behind
  have hplace : behindLine c (buffered bufferSize here) = (behind, (buffered bufferSize here).2) := by
    rw [behindLine, hgot, List.drop_left]
  have hlen := congrArg List.length hgot
  rw [List.length_append] at hlen
  have hle := hpending.length_le
  have hdigits := List.length_pos_iff.mpr c.digits_ne
  have hlonger := c.length_line
  have hfull : ¬(behind.length : Int) = toInt bufferSize := by
    rw [Stream.toInt_of_lt (by omega) (by omega)]
    omega
  have hfine : parser'.hasError = false := by
    simp [HttpResponseParser.hasError, hfacts.error_eq, herror, hfacts.cs_eq, firstFinal]
  have hdone : parser'.isFinished = true := by
    rw [HttpResponseParser.isFinished, hfacts.cs_eq]
    rfl
  refine ⟨parser', ?_, hfacts, ?_, ?_⟩
  · rw [recvChunkLine, hrefill, hplace]
    simp only [hgot, hexec, hfine, hdone, List.drop_left]
    rw [if_neg (by simp), if_neg hfull, if_true]
  · rw [hplace]
    exact ⟨hpending.reliable, hbehind, by simp only; omega⟩
  · rw [hplace]
    simp only
    omega

/-- A line that is cut behind its digits: what the next read brings is a line end, and nothing starts
with one. -/
theorem recvChunkLine_cut {c : Chunk} {rest : List UInt8} {parser : HttpResponseParser}
    (h : Pending bufferSize (c.wire ++ rest) here) (hsize : 0 < bufferSize)
    (hdigits : c.digits.length ≤ (buffered bufferSize here).1.length)
    (hline : (buffered bufferSize here).1.length < c.line.length) (rounds : Nat) :
    Fails (recvChunkLine bufferSize rounds true parser here.2 here.1) := by
  cases rounds with
  | zero => exact fails_none here.2
  | succ rounds =>
    have hwire : c.wire ++ rest = c.digits ++ (c.eol ++ (c.payload ++ [13, 10] ++ rest)) := by
      simp only [Chunk.wire, Chunk.line, List.append_assoc]
    have hne : c.wire ++ rest ≠ [] := by
      rw [hwire]
      exact List.append_ne_nil_of_left_ne_nil c.digits_ne _
    obtain ⟨hrefill, hpending, hgot_ne⟩ := h.refill_eq hsize hne
    generalize buffered bufferSize here = place at hdigits hline hrefill hpending hgot_ne
    obtain ⟨got, s₁⟩ := place
    simp only at hdigits hline hrefill hgot_ne
    -- `u` of the line end is there, `v` is not
    obtain ⟨u, rfl, hrest⟩ := HttpSession.exists_of_append hwire hpending.bytes_eq hdigits
    have hu : u.length < c.eol.length := by
      rw [Chunk.line, List.length_append, List.length_append] at hline
      omega
    obtain ⟨v, hv, hin⟩ := HttpSession.exists_of_append hrest rfl hu.le
    have hv_ne : v ≠ [] := by
      rintro rfl
      rw [hv, List.append_nil] at hu
      omega
    rw [recvChunkLine, hrefill]
    simp only
    cases hexec : parser.execute (c.digits ++ u) true with
    | error e => exact fails_error e
    | ok result =>
      obtain ⟨parser', nparse⟩ := result
      have haccepts : machine.accepts start ((c.digits ++ u) ++ v) = true := by
        rw [List.append_assoc, ← hv]
        exact c.accepts
      obtain ⟨hmore, hn⟩ :=
        HttpResponseParser.not_finished_of_front haccepts hgot_ne hv_ne hexec
      simp only [hmore, hn, List.drop_length]
      split
      · exact fails_none s₁
      · split
        · exact fails_none s₁
        · rw [if_neg (by simp)]
          cases rounds with
          | zero => exact fails_none s₁
          | succ rounds =>
            obtain ⟨b, more, hb, hrefused⟩ := refused_lineEnd c.lineEnd hv hv_ne
            obtain ⟨got, s₂, hread, hrec, hpos, _⟩ := Stream.read_reliable hpending.reliable hsize
              (by rw [hin, hb]; exact Nat.succ_pos _)
            obtain ⟨later, hgot⟩ : ∃ later, got = b :: later := by
              have hfront := hin.symm.trans hrec.input_eq
              cases got with
              | nil => simp at hpos
              | cons b' later =>
                rw [hb, List.cons_append, List.cons_append, List.cons.injEq] at hfront
                exact ⟨later, by rw [hfront.1]⟩
            rw [recvChunkLine]
            simp only [refill, List.length_nil, Nat.sub_zero, hread, List.nil_append]
            rw [if_pos (by decide), if_neg (by omega)]
            simp only
            cases hexec' : parser'.execute got true with
            | error e => exact fails_error e
            | ok result =>
              have hbad := HttpResponseParser.hasError_of_refused (hgot ▸ hrefused later) hexec'
              simp only [hbad, if_true]
              exact fails_none s₂

/-! ## Payloads -/

/-- The reads for the rest of a chunk. -/
theorem recvLeft_reliable (hsize : 0 < bufferSize) (hbuffer : bufferSize < 2 ^ 31) {s : Stream}
    (hs : s.Reliable) {rest : List UInt8} (hin : s.input = bytes ++ rest) (hlt : bytes.length < 2 ^ 31)
    {rounds : Nat} (hrounds : bytes.length < rounds) (body : List UInt8) :
    recvLeft bufferSize rounds bytes.length body s =
      .ok (some (body ++ bytes), skip bufferSize rounds bytes.length s) ∧
    s.Received bytes (skip bufferSize rounds bytes.length s) := by
  induction rounds generalizing s bytes body with
  | zero => omega
  | succ rounds ih =>
    rw [recvLeft, skip]
    by_cases hnone : bytes.length = 0
    · have hnil := List.length_eq_zero_iff.mp hnone
      subst hnil
      rw [if_pos (by simp), if_pos List.length_nil, List.append_nil]
      exact ⟨rfl, Stream.Received.refl s⟩
    · have htoInt : toInt (bufferSize : Int) = bufferSize :=
        Stream.toInt_of_lt (by omega) (by omega)
      have hask : ((if toInt (bufferSize : Int) < (bytes.length : Int) then toInt (bufferSize : Int)
          else (bytes.length : Int)) % 2 ^ 64).toNat = min bytes.length bufferSize := by
        rw [htoInt]
        split <;> omega
      obtain ⟨got, s₁, hread, hrec, hpos, hle⟩ := Stream.read_reliable hs
        (by omega : 0 < min bytes.length bufferSize) (by rw [hin, List.length_append]; omega)
      obtain ⟨hsplit, hin₁⟩ := hrec.front hin (by omega)
      have hlen : (bytes.drop got.length).length = bytes.length - got.length := List.length_drop
      have hleft : toInt ((bytes.length : Int) - (got.length : Int)) =
          ((bytes.drop got.length).length : Int) := by
        rw [Stream.toInt_of_lt (by omega) (by omega)]
        omega
      obtain ⟨hok, hrec₁⟩ := ih (hrec.reliable hs) hin₁ (by omega) (by omega) (body ++ got)
      rw [if_neg (by omega), if_neg hnone]
      simp only [hask, hread]
      rw [if_neg (by omega), if_neg (by omega), hleft, hok, hlen, List.append_assoc, ← hsplit]
      refine ⟨rfl, ?_⟩
      have hall := hrec.trans hrec₁
      rw [← hsplit, hlen] at hall
      exact hall

/-- The payload and the line end behind it. -/
theorem recvChunk_fits {c : Chunk} {rest : List UInt8}
    (h : Pending bufferSize (c.payload ++ [13, 10] ++ rest) here) (hsize : 0 < bufferSize)
    (hbuffer : bufferSize < 2 ^ 31) (hlt : c.payload.length + 2 < 2 ^ 31)
    (hmoved : c.payload.length + 2 ≤ here.1.length → here.1.length + 3 ≤ bufferSize)
    (body : List UInt8) :
    recvChunk bufferSize c.payload.length body here.1 here.2 =
      .ok (some (body ++ c.payload, (behindChunk bufferSize c here).1),
        (behindChunk bufferSize c here).2) ∧
    Pending bufferSize rest (behindChunk bufferSize c here) := by
  obtain ⟨data, s⟩ := here
  obtain ⟨hs, hbytes, hle⟩ := h
  simp only at hs hbytes hle hmoved
  have htwo : toInt ((c.payload.length : Int) + 2) = c.payload.length + 2 :=
    Stream.toInt_of_lt (by omega) (by omega)
  have hend : (c.payload ++ [(13 : UInt8), 10]).length = c.payload.length + 2 := by
    rw [List.length_append]
    rfl
  simp only [recvChunk, htwo]
  by_cases hall : c.payload.length + 2 ≤ data.length
  · obtain ⟨extra, rfl, hrest⟩ := HttpSession.exists_of_append rfl hbytes (by omega)
    have htake : (c.payload ++ [13, 10] ++ extra).take c.payload.length = c.payload := by
      rw [List.append_assoc, List.take_left]
    have hdrop : (c.payload ++ [13, 10] ++ extra).drop (c.payload.length + 2) = extra := by
      rw [← hend, List.drop_left]
    have hroom := hmoved hall
    have hbehind : behindChunk bufferSize c (c.payload ++ [13, 10] ++ extra, s) = (extra, s) := by
      rw [behindChunk, if_pos hall]
      simp only [hdrop]
    rw [hbehind, if_pos (by omega), if_neg (by omega), if_neg (by omega), Int.toNat_natCast, htake,
      hdrop]
    refine ⟨rfl, hs, hrest, ?_⟩
    rw [List.length_append] at hle
    simp only
    omega
  · obtain ⟨bytes, hsplit, hin⟩ := HttpSession.exists_of_append hbytes rfl (by omega)
    have hlen := congrArg List.length hsplit
    rw [hend, List.length_append] at hlen
    have hleft : toInt ((c.payload.length : Int) - data.length + 2) = (bytes.length : Int) := by
      rw [Stream.toInt_of_lt (by omega) (by omega)]
      omega
    have hrounds : bytes.length < s.input.length + 1 := by
      rw [hin, List.length_append]
      omega
    obtain ⟨hok, hrec⟩ := recvLeft_reliable hsize hbuffer hs hin (by omega) hrounds (body ++ data)
    have hbehind : behindChunk bufferSize c (data, s) =
        ([], skip bufferSize (s.input.length + 1) bytes.length s) := by
      rw [behindChunk, if_neg hall]
      simp only
      rw [show c.payload.length + 2 - data.length = bytes.length by omega]
    have hbody : body ++ data ++ bytes = body ++ c.payload ++ [13, 10] := by
      rw [List.append_assoc, ← hsplit, ← List.append_assoc]
    have htwice : (body ++ c.payload ++ [(13 : UInt8), 10]).length = (body ++ c.payload).length + 2 := by
      rw [List.length_append]
      rfl
    rw [hbehind, if_neg (by omega), hleft, hok, hbody]
    simp only
    rw [if_neg (by omega), htwice, Nat.add_sub_cancel, List.take_left]
    refine ⟨rfl, hrec.reliable hs, ?_, Nat.zero_le _⟩
    exact (List.append_cancel_left (hrec.input_eq.symm.trans hin)).symm

/-- A size near the end of `int`, or a full buffer that is moved with two bytes too many. -/
theorem recvChunk_not_fits {c : Chunk} (hroom : here.1.length + 2 ≤ bufferSize)
    (hbuffer : bufferSize < 2 ^ 31)
    (h : ¬(c.payload.length + 2 < 2 ^ 31 ∧
      (c.payload.length + 2 ≤ here.1.length → here.1.length + 3 ≤ bufferSize)))
    (body : List UInt8) :
    recvChunk bufferSize c.payload.length body here.1 here.2 = .error .outside := by
  have hsize := c.size_lt
  rw [recvChunk]
  by_cases hlt : c.payload.length + 2 < 2 ^ 31
  · have htwo : toInt ((c.payload.length : Int) + 2) = c.payload.length + 2 :=
      Stream.toInt_of_lt (by omega) (by omega)
    have hmoved : ¬(c.payload.length + 2 ≤ here.1.length → here.1.length + 3 ≤ bufferSize) :=
      fun hmoved => h ⟨hlt, hmoved⟩
    rw [htwo, if_pos (by omega), if_neg (by omega), if_pos (by omega)]
  · have htwo : toInt ((c.payload.length : Int) + 2) = c.payload.length + 2 - 2 ^ 32 :=
      Stream.toInt_of_ge (by omega) (by omega)
    rw [htwo, if_pos (by omega), if_neg (by omega), if_pos (by omega)]

/-! ## The loop -/

/-- A chunk the line of which is found as it has to be. -/
theorem recvChunks_step {c : Chunk} {rest : List UInt8} {parser : HttpResponseParser}
    (h : Pending bufferSize (c.wire ++ rest) here) (hsize : 0 < bufferSize)
    (hbuffer : bufferSize < 2 ^ 31) (herror : parser.error = 0)
    (hfits : LineFits bufferSize c (buffered bufferSize here)) (rounds : Nat) (body : List UInt8) :
    ∃ parser', BehindLine c parser parser' ∧
      Pending bufferSize rest
        (behindChunk bufferSize c (behindLine c (buffered bufferSize here))) ∧
      recvChunks bufferSize (rounds + 1) parser body here.2 here.1 =
        if parser'.chunksDone then .ok (some (parser', body ++ c.payload),
          (behindChunk bufferSize c (behindLine c (buffered bufferSize here))).2)
        else recvChunks bufferSize rounds parser' (body ++ c.payload)
          (behindChunk bufferSize c (behindLine c (buffered bufferSize here))).2
          (behindChunk bufferSize c (behindLine c (buffered bufferSize here))).1 := by
  obtain ⟨parser', hline, hfacts, hpending, _⟩ :=
    recvChunkLine_whole h hbuffer hsize herror hfits.line_le (here.2.input.length + 1)
  obtain ⟨hchunk, hnext⟩ := recvChunk_fits hpending hsize hbuffer hfits.size_lt hfits.moved body
  refine ⟨parser', hfacts, hnext, ?_⟩
  rw [recvChunks, hline]
  simp only [hfacts.contentLen_eq, hchunk]

/-- A chunk the line of which is not, and is not cut among its digits. -/
theorem recvChunks_stuck {c : Chunk} {rest : List UInt8} {parser : HttpResponseParser}
    (h : Pending bufferSize (c.wire ++ rest) here) (hsize : 0 < bufferSize)
    (hbuffer : bufferSize < 2 ^ 31) (herror : parser.error = 0)
    (hdigits : c.digits.length ≤ (buffered bufferSize here).1.length)
    (hfits : ¬LineFits bufferSize c (buffered bufferSize here)) (rounds : Nat)
    (body : List UInt8) : Fails (recvChunks bufferSize rounds parser body here.2 here.1) := by
  cases rounds with
  | zero => exact fails_none here.2
  | succ rounds =>
    rw [recvChunks]
    by_cases hline : c.line.length ≤ (buffered bufferSize here).1.length
    · obtain ⟨parser', hok, hfacts, hpending, hroom⟩ :=
        recvChunkLine_whole h hbuffer hsize herror hline (here.2.input.length + 1)
      have hbad := recvChunk_not_fits hroom hbuffer
        (fun hall => hfits ⟨hall.1, hline, hall.2⟩) body
      simp only [hok, hfacts.contentLen_eq, hbad]
      exact fails_error .outside
    · have hcut : Fails (recvChunkLine bufferSize (here.2.input.length + 2) true parser here.2
          here.1) :=
        recvChunkLine_cut h hsize hdigits (Nat.lt_of_not_le hline) _
      cases hresult : recvChunkLine bufferSize (here.2.input.length + 2) true parser here.2 here.1 with
      | error e => exact fails_error e
      | ok result =>
        obtain ⟨_ | ⟨parser', data⟩, s⟩ := result
        · exact fails_none s
        · exact absurd hresult (hcut (parser', data) s)

theorem recvChunks_arrives {chunks : List Chunk} {last : Chunk} {rest : List UInt8}
    {parser : HttpResponseParser} (hne : ∀ c ∈ chunks, c.payload ≠ []) (hlast : last.payload = [])
    (h : Pending bufferSize ((chunks ++ [last]).flatMap Chunk.wire ++ rest) here)
    (hsize : 0 < bufferSize) (hbuffer : bufferSize < 2 ^ 31) (herror : parser.error = 0)
    {rounds : Nat} (hrounds : chunks.length < rounds) (body : List UInt8)
    (harrives : Arrives bufferSize (chunks ++ [last]) here) :
    ∃ parser' s', recvChunks bufferSize rounds parser body here.2 here.1 =
      .ok (some (parser', body ++ chunks.flatMap Chunk.payload), s') ∧
      parser'.data = parser.data := by
  induction chunks generalizing here parser rounds body with
  | nil =>
    obtain ⟨rounds, rfl⟩ : ∃ n, rounds = n + 1 := ⟨rounds - 1, by omega⟩
    rw [List.nil_append, List.flatMap_cons, List.flatMap_nil, List.append_nil] at h
    obtain ⟨parser', hfacts, _, hstep⟩ :=
      recvChunks_step h hsize hbuffer herror harrives.1 rounds body
    rw [if_pos (hfacts.chunksDone_iff.mpr hlast), hlast] at hstep
    exact ⟨parser', _, hstep, hfacts.data_eq⟩
  | cons c chunks ih =>
    obtain ⟨rounds, rfl⟩ : ∃ n, rounds = n + 1 := ⟨rounds - 1, by omega⟩
    rw [List.cons_append, List.flatMap_cons, List.append_assoc] at h
    obtain ⟨parser', hfacts, hnext, hstep⟩ :=
      recvChunks_step h hsize hbuffer herror harrives.1 rounds body
    have hmore : ¬parser'.chunksDone = true :=
      fun hdone => hne c List.mem_cons_self (hfacts.chunksDone_iff.mp hdone)
    rw [if_neg hmore] at hstep
    have hrest : chunks.length < rounds := by
      rw [List.length_cons] at hrounds
      omega
    obtain ⟨parser'', s', hok, hdata⟩ := ih (fun c' hc' => hne c' (List.mem_cons_of_mem c hc')) hnext
      (hfacts.error_eq.trans herror) hrest (body ++ c.payload) harrives.2
    refine ⟨parser'', s', ?_, hdata.trans hfacts.data_eq⟩
    rw [hstep, hok, List.flatMap_cons, List.append_assoc]

theorem recvChunks_not_arrives {chunks : List Chunk} {last : Chunk} {rest : List UInt8}
    {parser : HttpResponseParser} (hne : ∀ c ∈ chunks, c.payload ≠ [])
    (h : Pending bufferSize ((chunks ++ [last]).flatMap Chunk.wire ++ rest) here)
    (hsize : 0 < bufferSize) (hbuffer : bufferSize < 2 ^ 31) (herror : parser.error = 0)
    (rounds : Nat) (body : List UInt8) (hblurred : ¬Blurred bufferSize (chunks ++ [last]) here)
    (harrives : ¬Arrives bufferSize (chunks ++ [last]) here) :
    Fails (recvChunks bufferSize rounds parser body here.2 here.1) := by
  induction chunks generalizing here parser rounds body with
  | nil =>
    obtain ⟨hdigits, _⟩ := not_or.mp hblurred
    have hfits : ¬LineFits bufferSize last (buffered bufferSize here) :=
      fun hfits => harrives ⟨hfits, trivial⟩
    rw [List.nil_append, List.flatMap_cons, List.flatMap_nil, List.append_nil] at h
    exact recvChunks_stuck h hsize hbuffer herror (Nat.le_of_not_lt hdigits) hfits rounds body
  | cons c chunks ih =>
    obtain ⟨hdigits, hlater⟩ := not_or.mp hblurred
    rw [List.cons_append, List.flatMap_cons, List.append_assoc] at h
    by_cases hfits : LineFits bufferSize c (buffered bufferSize here)
    · cases rounds with
      | zero => exact fails_none here.2
      | succ rounds =>
        obtain ⟨parser', hfacts, hnext, hstep⟩ :=
          recvChunks_step h hsize hbuffer herror hfits rounds body
        have hmore : ¬parser'.chunksDone = true :=
          fun hdone => hne c List.mem_cons_self (hfacts.chunksDone_iff.mp hdone)
        rw [hstep, if_neg hmore]
        exact ih (fun c' hc' => hne c' (List.mem_cons_of_mem c hc')) hnext
          (hfacts.error_eq.trans herror) rounds (body ++ c.payload)
          (fun hb => hlater ⟨hfits, hb⟩) (fun ha => harrives ⟨hfits, ha⟩)
    · exact recvChunks_stuck h hsize hbuffer herror (Nat.le_of_not_lt hdigits) hfits rounds body

end Steps

/-! ## The response -/

/-- A response with its body in chunks, the head of which comes in the first read with `data` behind
it: exactly when every line arrives as it has to is the body received. Left out is a first cut among
the digits of a line, of which the code takes the rest for the size. -/
theorem recvResponse_chunked_iff {lexicalCast : List UInt8 → Option Nat}
    {gunzip inflate : List UInt8 → List UInt8} {bufferSize error : Nat}
    {header data next : List UInt8} {final : HttpResponseParser} {s s₁ : Stream} {len : Int}
    {chunks : List Chunk} {last : Chunk} (h : Head error header final)
    (hchunked : final.chunked = true) (hcs : final.cs = firstFinal ∨ data ≠ [])
    (hbuffer : bufferSize < 2 ^ 31) (hne : ∀ c ∈ chunks, c.payload ≠ []) (hlast : last.payload = [])
    (hs : s.Reliable) (hin : s.input = header ++ ((chunks ++ [last]).flatMap Chunk.wire ++ next))
    (hread : s.read bufferSize = (len, header ++ data, s₁))
    (hblurred : ¬Blurred bufferSize (chunks ++ [last]) (data, s₁)) :
    (∃ s', recvResponse lexicalCast gunzip inflate bufferSize error s =
      .ok (some (withBody gunzip inflate final.data (chunks.flatMap Chunk.payload)), s')) ↔
      error = 0 ∧ final.cs = firstFinal ∧ Arrives bufferSize (chunks ++ [last]) (data, s₁) := by
  obtain ⟨hlen, hrec, _, hgot⟩ := Stream.received_of_read hs hread
  have hpos : 0 < header.length := List.length_pos_iff.mpr h.ne_nil
  rw [List.length_append] at hlen hgot
  have hpending : Pending bufferSize ((chunks ++ [last]).flatMap Chunk.wire ++ next) (data, s₁) := by
    have hall := hin.symm.trans hrec.input_eq
    rw [List.append_assoc, List.append_cancel_left_eq] at hall
    exact ⟨hrec.reliable hs, hall, by simp only; omega⟩
  have hroom : ¬(data.length : Int) = toInt bufferSize := by
    rw [Stream.toInt_of_lt (by omega) (by omega)]
    omega
  have hloop := h.recvHeader_whole hread (by omega) s.input.length
  by_cases herror : error = 0
  · rw [if_neg (by simp [herror, hroom])] at hloop
    by_cases hfinal : final.cs = firstFinal
    · rw [if_pos hfinal] at hloop
      have hrounds : chunks.length < data.length + s₁.input.length + 1 := by
        have hall := congrArg List.length hpending.bytes_eq
        have hwire := length_le_wire (chunks ++ [last])
        simp only [List.length_append, List.length_singleton] at hall hwire
        omega
      by_cases harrives : Arrives bufferSize (chunks ++ [last]) (data, s₁)
      · obtain ⟨parser', s', hok, hdata⟩ := recvChunks_arrives hne hlast hpending (by omega) hbuffer
          (h.error_eq.trans herror) hrounds [] harrives
        refine iff_of_true ⟨s', ?_⟩ ⟨herror, hfinal, harrives⟩
        rw [recvResponse, hloop]
        simp only [hchunked, if_true, hok, hdata, List.nil_append]
      · have hfails := recvChunks_not_arrives hne hpending (by omega) hbuffer
          (h.error_eq.trans herror) (data.length + s₁.input.length + 1) [] hblurred harrives
        refine iff_of_false ?_ (fun hall => harrives hall.2.2)
        rintro ⟨s', hresult⟩
        rw [recvResponse, hloop] at hresult
        simp only [hchunked, if_true] at hresult
        split at hresult
        · cases hresult
        · cases hresult
        · rename_i parser' body s₂ hok
          exact hfails (parser', body) s₂ hok
    · rw [if_neg hfinal] at hloop
      refine iff_of_false ?_ (fun hall => hfinal hall.2.1)
      have hdata := hcs.resolve_left hfinal
      rintro ⟨s', hresult⟩
      exact recvResponse_of_fails (hloop ▸ recvHeader_unfinished hdata final) _ s' hresult
  · rw [if_pos (.inl herror)] at hloop
    refine iff_of_false ?_ (fun hall => herror hall.1)
    rintro ⟨s', hresult⟩
    exact recvResponse_of_fails (hloop ▸ fails_none s₁) _ s' hresult

/-! ## A chunk of five bytes -/

set_option maxRecDepth 2000 in
def helloChunk : Chunk where
  digits := chars "5"
  eol := chars "\r\n"
  payload := chars "hello"
  digits_ne := by decide
  hex := by decide
  lineEnd := .inl (by decide)
  size_eq := by rfl
  size_lt := by decide

set_option maxRecDepth 2000 in
def lastChunk : Chunk where
  digits := chars "0"
  eol := chars "\r\n"
  payload := []
  digits_ne := by decide
  hex := by decide
  lineEnd := .inl (by rfl)
  size_eq := by rfl
  size_lt := by decide

def chunkedHeader : List UInt8 := chars "HTTP/1.1 200 OK\r\nTransfer-Encoding: chunked\r\n\r\n"

def chunkedParser : HttpResponseParser :=
  { HttpResponseParser.init 0 with
    cs := firstFinal
    mark := 36
    fieldStart := 17
    fieldLen := 17
    chunked := true
    data := { HttpResponse.init with
      reason := chars "OK"
      headers := [(chars "Transfer-Encoding", chars "chunked")] } }

theorem head_chunked : Head 0 chunkedHeader chunkedParser where
  first := by rfl
  accepts := by rfl
  execute_eq := by rfl
  error_eq := rfl

/-- The head and the chunks on a connection with a first read of `first` bytes and others of at most
`others`. -/
def helloInPieces (first others : Int32) : Stream :=
  HttpSession.waiting
    "HTTP/1.1 200 OK\r\nTransfer-Encoding: chunked\r\n\r\n5\r\nhello\r\n0\r\n\r\n"
    fun i => if i = 0 then first else others

theorem helloInPieces_input (first others : Int32) : (helloInPieces first others).input =
    chunkedHeader ++ (([helloChunk] ++ [lastChunk]).flatMap Chunk.wire ++ []) := by
  simp only [helloInPieces, HttpSession.waiting]
  decide

/-- The size comes in a read of its own. -/
theorem recvResponse_line_cut :
    Head 0 chunkedHeader chunkedParser ∧ (helloInPieces 47 1).Reliable ∧
    (helloInPieces 47 1).input =
      chunkedHeader ++ (([helloChunk] ++ [lastChunk]).flatMap Chunk.wire ++ []) ∧
    ((helloInPieces 47 1).read 4096).2.1 = chunkedHeader ∧
    (recvResponse (fun _ => none) id id 4096 0 (helloInPieces 47 1)).toOption.map Prod.fst =
      some none := by
  refine ⟨head_chunked, HttpSession.waiting_reliable _ (by decide) (by decide),
    helloInPieces_input 47 1, by decide, by rfl⟩

/-- The head comes first, then the chunks four bytes at a time. -/
theorem recvResponse_chunked_hello :
    ∃ s', recvResponse (fun _ => none) id id 4096 0 (helloInPieces 47 4) =
      .ok (some (withBody id id chunkedParser.data ([helloChunk].flatMap Chunk.payload)), s') := by
  have hread : (helloInPieces 47 4).read 4096 = (47, chunkedHeader ++ [],
      { helloInPieces 47 4 with
        input := (helloInPieces 47 4).input.drop 47
        reads := 1 }) := by rfl
  have hne : ∀ c ∈ [helloChunk], c.payload ≠ [] := by decide
  exact (recvResponse_chunked_iff head_chunked rfl (.inl rfl) (by decide) hne rfl
    (HttpSession.waiting_reliable _ (by decide) (by decide)) (helloInPieces_input 47 4) hread
    (by decide)).mpr ⟨rfl, rfl, by decide⟩

end HttpConnection

end CxkFramework
