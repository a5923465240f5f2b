import CxkFramework.HttpPieces
import CxkFramework.Stream

/-!
# Receiving a request

`HttpSession::recvRequest`: reads are given to the parser one by one until it has the header, what
it left of the last read starts the body, and the rest of the body is read with its length known.
A request received in several reads is the one received in a single read as long as no read ends
where the parser holds an offset it still needs.
-/

namespace CxkFramework

open Scanner Blocks HttpParser

namespace HttpSession

/-- The loop up to the end of the header: the parser and the bytes behind the header, or `none`
for a null result. `data` is what was left of the reads before. A round that goes on has read a
byte, so one more round than there are bytes is enough. -/
def recvHeader (bufferSize : Nat) : Nat → HttpRequestParser → Stream → List UInt8 →
    Except HttpFault (Option (HttpRequestParser × List UInt8) × Stream)
  | 0, _, s, _ => .ok (none, s)
  | rounds + 1, parser, s, data =>
    let (len, got, s) := s.read (bufferSize - data.length)
    if len ≤ 0 then .ok (none, s.close)
    else
      match parser.execute (data ++ got) with
      | .error e => .error e
      | .ok (parser, nparse) =>
        if parser.hasError then .ok (none, s.close)
        else
          let data := (data ++ got).drop nparse
          if (data.length : Int) = toInt bufferSize then .ok (none, s.close)
          else if parser.isFinished ≠ 0 then .ok (some (parser, data), s)
          else recvHeader bufferSize rounds parser s data

/-- `Connection: keep-alive` lets the connection stay open. -/
def keepAlive (req : HttpRequest) : HttpRequest :=
  if caseFolded (req.getHeader (chars "Connection") []) = caseFolded (chars "keep-alive") then
    { req with close := false }
  else req

/-- The bytes already received that go into a body of `length` bytes. -/
def copied (length : Nat) (data : List UInt8) : List UInt8 :=
  data.take (if data.length ≤ length then data.length else length)

/-- `length -= offset`, which may wrap around. -/
def remaining (length offset : Nat) : Nat := (length + 2 ^ 64 - offset) % 2 ^ 64

/-- What comes behind the header, with `data` of it received. -/
def recvBody (length : Nat) (req : HttpRequest) (data : List UInt8) (s : Stream) :
    Except HttpFault (Option HttpRequest × Stream) :=
  if length = 0 then .ok (some (keepAlive req), s)
  else if 2 ^ 63 ≤ length then .error .lengthError
  else if remaining length data.length = 0 then
    .ok (some (keepAlive { req with
      body := overwrite (List.replicate length 0) 0 (copied length data) }), s)
  else
    match s.readFixSize (remaining length data.length) with
    | (rt, bytes, s) =>
      if rt ≤ 0 then .ok (none, s.close)
      else .ok (some (keepAlive { req with
        body := overwrite (overwrite (List.replicate length 0) 0 (copied length data))
          (copied length data).length bytes }), s)

/-- The request, or `none` for a null result, and the stream afterwards. -/
def recvRequest (lexicalCast : List UInt8 → Option Nat) (bufferSize : Nat) (uriRelaxed : Bool)
    (queryStart : Nat) (s : Stream) : Except HttpFault (Option HttpRequest × Stream) :=
  match recvHeader bufferSize (s.input.length + 1) (.init uriRelaxed queryStart) s [] with
  | .error e => .error e
  | .ok (none, s) => .ok (none, s)
  | .ok (some (parser, data), s) =>
    recvBody (parser.getContentLength lexicalCast) parser.data data s

/-! ## Where the reads end -/

/-- The positions behind the first reads of at most `size` bytes. -/
def readEnds (size : Nat) : Nat → Stream → Nat → List Nat
  | 0, _, _ => []
  | reads + 1, s, p =>
    let (_, got, s) := s.read size
    (p + got.length) :: readEnds size reads s (p + got.length)

theorem le_of_mem_readEnds {size reads : Nat} {s : Stream} {p c : Nat}
    (h : c ∈ readEnds size reads s p) : p ≤ c := by
  induction reads generalizing s p with
  | zero => simp [readEnds] at h
  | succ reads ih =>
    simp only [readEnds, List.mem_cons] at h
    rcases h with rfl | h
    · omega
    · have hle := ih h
      omega

/-- The number of bytes of the body that a header announces. -/
def announced (lexicalCast : List UInt8 → Option Nat) (uriRelaxed : Bool) (queryStart : Nat)
    (header : List UInt8) : Option Nat :=
  match (HttpRequestParser.init uriRelaxed queryStart).execute header with
  | .error _ => none
  | .ok (parser, _) => some (parser.getContentLength lexicalCast)

/-! ## The body -/

/-- The request with its body. -/
def withBody (req : HttpRequest) (body : List UInt8) : HttpRequest :=
  keepAlive (if body = [] then req else { req with body := body })

theorem overwrite_all {xs ys : List UInt8} (h : ys.length = xs.length) : overwrite xs 0 ys = ys := by
  rw [overwrite, List.take_zero, List.nil_append, List.drop_of_length_le (by omega),
    List.append_nil]

/-- The first bytes and then the others fill the body. -/
theorem overwrite_twice {xs ys zs : List UInt8} (h : ys.length + zs.length = xs.length) :
    overwrite (overwrite xs 0 ys) ys.length zs = ys ++ zs := by
  have hlen : (overwrite xs 0 ys).length = xs.length := length_overwrite (by omega)
  have hfront : (overwrite xs 0 ys).take ys.length = ys := by
    rw [overwrite, List.take_zero, List.nil_append, List.take_left]
  rw [overwrite, hfront, List.drop_of_length_le (by omega), List.append_nil]

theorem remaining_of_le {length offset : Nat} (h : offset ≤ length) (hl : length < 2 ^ 64) :
    remaining length offset = length - offset := by
  rw [remaining]
  omega

/-- The announced bytes are there: some came with the header, the others are read. -/
theorem recvBody_complete (req : HttpRequest) {data rest : List UInt8} {s : Stream}
    (hs : s.Reliable) (hin : s.input = rest) (hsize : (data ++ rest).length < 2 ^ 31) :
    ∃ s', recvBody (data ++ rest).length req data s =
      .ok (some (withBody req (data ++ rest)), s') := by
  have hlength : (data ++ rest).length = data.length + rest.length := List.length_append
  have hcopied : copied (data ++ rest).length data = data := by
    rw [copied, if_pos (by omega), List.take_length]
  have hleft : remaining (data ++ rest).length data.length = rest.length := by
    rw [remaining_of_le (by omega) (by omega)]
    omega
  rw [recvBody, hcopied, hleft]
  by_cases hnone : data ++ rest = []
  · exact ⟨s, by rw [if_pos (by rw [hnone]; rfl), withBody, if_pos hnone]⟩
  · have hpos : 0 < (data ++ rest).length := List.length_pos_iff.mpr hnone
    rw [if_neg (by omega), if_neg (by omega)]
    by_cases hrest : rest = []
    · subst hrest
      refine ⟨s, ?_⟩
      rw [if_pos List.length_nil, overwrite_all (by simp), withBody, if_neg hnone,
        List.append_nil]
    · have hsome : 0 < rest.length := List.length_pos_iff.mpr hrest
      obtain ⟨s', hread, _⟩ := Stream.readFixSize_reliable hs (by omega)
        (hin.trans (List.append_nil rest).symm)
      have hrt : toInt (rest.length : Int) = rest.length :=
        Stream.toInt_of_lt (by omega) (by omega)
      refine ⟨s', ?_⟩
      rw [if_neg (by omega), hread, hrt]
      refine (if_neg (by omega)).trans ?_
      rw [overwrite_twice (by simp), withBody, if_neg hnone]

/-! ## The header -/

open HttpRequestParser

section Header

variable {header body : List UInt8} {fresh final : HttpRequestParser} {csEnd bufferSize : Nat}

/-- What the loop has to give back: the parser with the request, and how much of the body came with
the header. A header with an error in it is refused. -/
def Received (final : HttpRequestParser) (body : List UInt8)
    (result : Except HttpFault (Option (HttpRequestParser × List UInt8) × Stream)) : Prop :=
  (final.error ≠ 0 ∧ ∃ s', result = .ok (none, s')) ∨
    (final.error = 0 ∧ ∃ parser data rest s', result = .ok (some (parser, data), s') ∧
      parser.data = final.data ∧ body = data ++ rest ∧ s'.input = rest ∧ s'.Reliable)

/-- The bytes before the end of a header show an error only if the header does. -/
theorem error_final {u v : List UInt8} {cs : Nat} {whole parser : HttpRequestParser}
    (F : Follows header fresh u cs whole parser) (hheader : header = u ++ v)
    (hfinal : (machine fresh.uriRelaxed).exec (perform header) start 0 header fresh =
      .ok (.stopped csEnd, header.length, final)) (h : parser.error ≠ 0) : final.error ≠ 0 := by
  have hrest : (machine fresh.uriRelaxed).exec (perform header) cs u.length v whole =
      .ok (.stopped csEnd, header.length, final) := by
    rw [← Machine.exec_append F.after_eq F.exec_eq, ← hheader]
    exact hfinal
  apply (keeps_exec hrest).1
  rw [F.same.1]
  exact h

/-- A read that has at least the front has it and more. -/
theorem exists_of_append {front rest got later whole : List UInt8} (h₁ : whole = front ++ rest)
    (h₂ : whole = got ++ later) (h : front.length ≤ got.length) :
    ∃ extra, got = front ++ extra ∧ rest = extra ++ later := by
  rcases List.append_eq_append_iff.mp (h₁.symm.trans h₂) with ⟨as, has⟩ | ⟨bs, hfront, hlater⟩
  · exact ⟨as, has⟩
  · have hnil : bs = [] := by
      apply List.length_eq_zero_iff.mp
      rw [hfront, List.length_append] at h
      omega
    subst hnil
    exact ⟨[], by rw [hfront, List.append_nil, List.append_nil], hlater.symm⟩

/-- Reads that end at quiet places or behind the header give the parser the request. -/
theorem recvHeader_quiet (hsize : header.length ≤ bufferSize) (hbuffer : bufferSize < 2 ^ 31)
    (haccepts : (machine fresh.uriRelaxed).accepts start header = true)
    (hfinal : (machine fresh.uriRelaxed).exec (perform header) start 0 header fresh =
      .ok (.stopped csEnd, header.length, final))
    {rounds reads : Nat} {u v : List UInt8} {cs : Nat} {whole parser : HttpRequestParser} {s : Stream}
    (F : Follows header fresh u cs whole parser) (hheader : header = u ++ v) (hv : v ≠ [])
    (hrounds : v.length ≤ rounds) (hreads : v.length ≤ reads) (hs : s.Reliable) (hin : s.input = v ++ body)
    (hl : ∀ r, live (machine fresh.uriRelaxed) uses sets r cs v = true →
      Agree u.length r whole parser.resetOffsets)
    (hquiet : ∀ c ∈ readEnds bufferSize reads s u.length, c < header.length →
      quietAt fresh.uriRelaxed header c = true) :
    Received final body (recvHeader bufferSize rounds parser s []) := by
  induction rounds generalizing reads u v cs whole parser s with
  | zero => exact absurd (List.length_eq_zero_iff.mp (by omega)) hv
  | succ rounds ih =>
    have hvpos : 0 < v.length := List.length_pos_iff.mpr hv
    obtain ⟨reads, rfl⟩ : ∃ more, reads = more + 1 := ⟨reads - 1, by omega⟩
    have hlen : header.length = u.length + v.length := by rw [hheader, List.length_append]
    have htoInt : toInt (bufferSize : Int) = bufferSize :=
      Stream.toInt_of_lt (by omega) (by omega)
    obtain ⟨got, s₁, hread, hrec, hgot, hle⟩ := Stream.read_reliable hs
      (by omega : 0 < bufferSize) (by rw [hin, List.length_append]; omega)
    have hs₁ := hrec.reliable hs
    have hgot_ne : got ≠ [] := List.length_pos_iff.mp hgot
    simp only [readEnds, hread, List.mem_cons] at hquiet
    rw [recvHeader, List.length_nil, Nat.sub_zero, hread]
    simp only [List.nil_append]
    rw [if_neg (by omega)]
    by_cases hinside : got.length < v.length
    · -- the read ends inside the header, at a quiet place
      obtain ⟨hsplit, hin₁⟩ := hrec.front hin (by omega)
      have hrest : v.drop got.length ≠ [] := by
        apply List.length_pos_iff.mp
        rw [List.length_drop]
        omega
      obtain ⟨cs', whole', parser', hexec, hcs', F'⟩ := F.execute_piece (hsplit ▸ hheader)
        (by omega) hgot_ne hrest haccepts (hsplit ▸ hl)
      have hheader' : header = (u ++ got) ++ v.drop got.length := by
        rw [List.append_assoc, ← hsplit, hheader]
      rw [hexec]
      simp only [List.drop_length, List.length_nil]
      by_cases herror : parser'.error = 0
      · have hfine : parser'.hasError = false := by
          simp [hasError, herror, F'.cs_eq, F'.cs_ne]
        have hmore : parser'.isFinished = 0 := by
          rw [isFinished, F'.cs_eq, if_neg F'.cs_ne, if_neg (by omega)]
        simp only [hfine, hmore, htoInt]
        rw [if_neg (by simp), if_neg (by omega), if_neg (by simp)]
        have hend : (u ++ got).length = u.length + got.length := List.length_append
        have hnow : quietAt fresh.uriRelaxed header (u ++ got).length = true := by
          rw [hend]
          exact hquiet _ (.inl rfl) (by omega)
        have hdrop : (v.drop got.length).length = v.length - got.length := List.length_drop
        have hreads' : (v.drop got.length).length ≤ reads := by omega
        apply ih F' hheader' hrest (by omega) hreads' hs₁ hin₁
        · intro r hr
          rw [hheader'] at hnow
          have hdead := not_live_of_quietAt hnow F'.after_eq r
          rw [hdead] at hr
          simp at hr
        · intro c hc
          rw [hend] at hc
          exact hquiet c (.inr hc)
      · have hbad : parser'.hasError = true := by simp [hasError, herror]
        simp only [hbad, if_true]
        exact .inl ⟨error_final F' hheader' hfinal herror, _, rfl⟩
    · -- the read has the end of the header and the start of the body
      obtain ⟨extra, hextra, hbody⟩ := exists_of_append hin hrec.input_eq (by omega)
      obtain ⟨cs', whole', parser', hwhole, hexec, hne, hfinished, hsame⟩ :=
        F.execute_last hheader (by omega) haccepts hl extra
      rw [hfinal] at hwhole
      cases hwhole
      rw [hextra, hexec]
      have hextra_lt : extra.length < bufferSize := by
        rw [hextra, List.length_append] at hle
        omega
      by_cases herror : parser'.error = 0
      · have hfine : parser'.hasError = false := by simp [hasError, herror, hne]
        have hdone : parser'.isFinished = 1 := by
          rw [isFinished, if_neg hne, if_pos hfinished]
        simp only [hfine, hdone, htoInt, List.drop_left]
        rw [if_neg (by simp), if_neg (by omega), if_pos (by simp)]
        refine .inr ⟨hsame.1.trans herror, parser', extra, s₁.input, s₁, rfl, hsame.2.symm, hbody, rfl,
          hs₁⟩
      · have hbad : parser'.hasError = true := by simp [hasError, herror]
        simp only [hbad, if_true]
        exact .inl ⟨by rwa [hsame.1], _, rfl⟩

/-- What a request comes to that is received as it should be. -/
def expected (final : HttpRequestParser) (body : List UInt8) : Option HttpRequest :=
  if final.error = 0 then some (withBody final.data body) else none

theorem recvRequest_quiet {lexicalCast : List UInt8 → Option Nat} {uriRelaxed : Bool}
    {queryStart : Nat} (hsize : header.length ≤ bufferSize) (hbuffer : bufferSize < 2 ^ 31)
    (haccepts : (machine uriRelaxed).accepts start header = true)
    (hfinal : (machine uriRelaxed).exec (perform header) start 0 header
      (init uriRelaxed queryStart) = .ok (.stopped csEnd, header.length, final))
    (hannounced : final.getContentLength lexicalCast = body.length) (hbody : body.length < 2 ^ 31)
    {s : Stream} (hs : s.Reliable) (hin : s.input = header ++ body)
    (hquiet : ∀ c ∈ readEnds bufferSize header.length s 0, c < header.length →
      quietAt uriRelaxed header c = true) :
    ∃ s', recvRequest lexicalCast bufferSize uriRelaxed queryStart s =
      .ok (expected final body, s') := by
  have hheader : header ≠ [] := by
    rintro rfl
    simp [Machine.accepts] at haccepts
  have hlen : s.input.length = header.length + body.length := by rw [hin, List.length_append]
  have hreceived := recvHeader_quiet hsize
    hbuffer haccepts hfinal (follows_init header uriRelaxed queryStart) (List.nil_append _).symm
    hheader (by omega : header.length ≤ s.input.length + 1) le_rfl hs hin
    (fun r _ => agree_init uriRelaxed queryStart r) hquiet
  rw [recvRequest]
  rcases hreceived with ⟨herror, s₁, hloop⟩ | ⟨herror, parser, data, rest, s₁, hloop, hdata, hsplit,
    hrest, hs₁⟩
  · refine ⟨s₁, ?_⟩
    rw [hloop, expected, if_neg herror]
  · have hlength : parser.getContentLength lexicalCast = (data ++ rest).length := by
      rw [← hsplit, ← hannounced, getContentLength, getContentLength, hdata]
    obtain ⟨s₂, hbody'⟩ := recvBody_complete parser.data hs₁ hrest (hsplit ▸ hbody)
    refine ⟨s₂, ?_⟩
    rw [hloop]
    simp only [hlength, hbody']
    rw [expected, if_pos herror, hdata, ← hsplit]

/-- What an accepted header comes to in one execution. -/
theorem exists_final {uriRelaxed : Bool} (queryStart : Nat)
    (hsize : header.length < 2 ^ 63) (haccepts : (machine uriRelaxed).accepts start header = true) :
    ∃ csEnd final parser, (machine uriRelaxed).exec (perform header) start 0 header
        (init uriRelaxed queryStart) = .ok (.stopped csEnd, header.length, final) ∧
      (init uriRelaxed queryStart).execute header = .ok (parser, header.length) ∧
      Same final parser := by
  have F := follows_init header uriRelaxed queryStart
  obtain ⟨csEnd, final, parser, hfinal, hexec, _, _, hsame⟩ := F.execute_last
    (List.nil_append _).symm hsize haccepts (fun r _ => agree_init uriRelaxed queryStart r) []
  rw [List.append_nil] at hexec
  exact ⟨csEnd, final, parser, hfinal, hexec, hsame⟩

/-- A first read of the whole header ends at its end or behind it. -/
theorem readEnds_whole {s : Stream} (hs : s.Reliable) (hsize : header.length ≤ bufferSize)
    (hin : s.input = header ++ body)
    (hwhole : (min bufferSize s.input.length : Int) ≤ (s.readPlan s.reads).toInt)
    {reads c : Nat} (hc : c ∈ readEnds bufferSize reads s 0) : header.length ≤ c := by
  cases reads with
  | zero => simp [readEnds] at hc
  | succ reads =>
    have hlen : s.input.length = header.length + body.length := by rw [hin, List.length_append]
    have hplan := hs.reads_ok s.reads
    have hgot : header.length ≤ (s.read bufferSize).2.1.length := by
      rw [Stream.read, if_neg (by simp [hs.open_]), if_neg (by omega)]
      simp only [List.length_take]
      omega
    have hends : readEnds bufferSize (reads + 1) s 0 = (0 + (s.read bufferSize).2.1.length) ::
      readEnds bufferSize reads (s.read bufferSize).2.2 (0 + (s.read bufferSize).2.1.length) := rfl
    rw [hends, Nat.zero_add, List.mem_cons] at hc
    rcases hc with hc | hc
    · exact hc ▸ hgot
    · exact hgot.trans (le_of_mem_readEnds hc)

end Header

/-- A connection on which `input` waits, read by the plan. -/
def waiting (input : String) (plan : Nat → Int32) : Stream where
  input := chars input
  output := []
  readPlan := plan
  writePlan := plan
  reads := 0
  writes := 0
  closed := false

theorem waiting_reliable (input : String) {first others : Int32} (hfirst : 0 < first.toInt)
    (hothers : 0 < others.toInt) :
    (waiting input fun i => if i = 0 then first else others).Reliable where
  open_ := rfl
  reads_ok i := by
    simp only [waiting]
    split
    · exact hfirst
    · exact hothers
  writes_ok i := by
    simp only [waiting]
    split
    · exact hfirst
    · exact hothers

end HttpSession

end CxkFramework
