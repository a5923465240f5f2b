import CxkFramework.HttpClientParser
import CxkFramework.HttpSession

/-!
# Receiving a response

`HttpConnection::recvResponse`. Every call of the parser starts it anew, also where the head or the
line in front of a chunk goes on in the next read.
-/

namespace CxkFramework

open Scanner Blocks HttpClientParser

namespace HttpClientParser

/-! ## What the table guarantees -/

/-- The bytes behind which a number has ended. -/
def endsNumber (n : Nat) : Bool := n == 10 || n == 13 || n == 32 || n == 59

def readsNumber : Action → Bool
  | .statusCode | .chunkSize | .writeContentLen => true
  | _ => false

def occurs (b : UInt8) (a : Action) : Bool := !readsNumber a || endsNumber b.toNat

def edgeEnds (_ : Nat) (e : Edge Action) : Bool :=
  e.actions.all fun a => !readsNumber a || (e.lo == e.hi && endsNumber e.lo)

theorem table_ends : everyEdge edgeEnds 0 table = true := by rfl

theorem occurs_of_next {q q' : Nat} {b : UInt8} {as : List Action}
    (h : machine.next q b = some (q', as)) : ∀ a ∈ as, occurs b a = true := by
  obtain ⟨e, rfl, rfl, hlo, hhi, hcheck⟩ := next_of_table table_ends h
  intro a ha
  have hedge := List.all_eq_true.mp hcheck a ha
  simp only [Bool.or_eq_true, Bool.and_eq_true, beq_iff_eq] at hedge
  rw [occurs, Bool.or_eq_true]
  rcases hedge with hread | ⟨hone, hend⟩
  · exact .inl hread
  · rw [show b.toNat = e.lo by omega]
    exact .inr hend

theorem not_digit_of_ends {base : Nat} (hbase : base ≤ 16) {b : UInt8}
    (h : endsNumber b.toNat = true) : isDigit base b = false := by
  simp only [endsNumber, Bool.or_eq_true, beq_iff_eq] at h
  have hb : b = 10 ∨ b = 13 ∨ b = 32 ∨ b = 59 := by
    simp only [← UInt8.toNat_inj, UInt8.reduceToNat]
    omega
  have hvalue : digitValue b = 16 := by
    rcases hb with rfl | rfl | rfl | rfl <;> rfl
  rw [isDigit, decide_eq_false_iff_not]
  omega

/-- No transition leads to the error state, only `done` to a final one. -/
def edgeFinal (_ : Nat) (e : Edge Action) : Bool :=
  e.next != 0 && (e.actions.any (· == .done) == decide (firstFinal ≤ e.next))

theorem table_final : everyEdge edgeFinal 0 table = true := by rfl

theorem state_of_next {q q' : Nat} {b : UInt8} {as : List Action}
    (h : machine.next q b = some (q', as)) :
    q' ≠ 0 ∧ (as.any machine.stops = true ↔ firstFinal ≤ q') := by
  obtain ⟨e, rfl, rfl, _, _, hcheck⟩ := next_of_table table_final h
  simp only [edgeFinal, Bool.and_eq_true, bne_iff_ne, beq_iff_eq] at hcheck
  have hstops : e.actions.any machine.stops = decide (firstFinal ≤ e.next) := hcheck.2
  exact ⟨hcheck.1, by rw [hstops, decide_eq_true_eq]⟩

/-- Behind `H` only `T` goes on. -/
def edgeStatusLine (q : Nat) (e : Edge Action) : Bool := q != 8 || (e.lo == 84 && e.hi == 84)

theorem table_statusLine : everyEdge edgeStatusLine 0 table = true := by rfl

theorem next_start_H : machine.next start 72 = some (8, [.mark]) := by rfl

theorem next_start_T : machine.next start 84 = none := by decide

/-- A head that starts with `H` goes on with a byte that none starts with. -/
theorem refused_behind_first {header : List UInt8} (hfirst : header.head? = some 72)
    (haccepts : machine.accepts start header = true) :
    ∃ bs, header = 72 :: 84 :: bs ∧ ∀ more, machine.outcome start (84 :: more) = .failed := by
  obtain ⟨bs, rfl⟩ := List.head?_eq_some_iff.mp hfirst
  obtain ⟨q, as, hnext, hrest⟩ := Machine.accepts_cons haccepts
  rw [next_start_H] at hnext
  cases hnext
  have hrest : machine.accepts 8 bs = true := by
    rcases hrest with ⟨hstop, _⟩ | ⟨_, hrest⟩
    · cases hstop
    · exact hrest
  cases bs with
  | nil => simp [Machine.accepts] at hrest
  | cons b bs =>
    obtain ⟨q, as, hnext, _⟩ := Machine.accepts_cons hrest
    obtain ⟨e, _, _, hlo, hhi, hcheck⟩ := next_of_table table_statusLine hnext
    simp only [edgeStatusLine, bne_self_eq_false, Bool.false_or, Bool.and_eq_true, beq_iff_eq]
      at hcheck
    have hb : b = 84 := UInt8.toNat_inj.mp (by simp only [UInt8.reduceToNat]; omega)
    exact ⟨bs, by rw [hb], fun more => by rw [Machine.outcome, next_start_T]⟩

end HttpClientParser

namespace HttpResponseParser

open HttpRequestParser (len)

/-! ## Bytes behind a head -/

/-- The offsets lie before the position. -/
def Before (p : Nat) (parser : HttpResponseParser) : Prop :=
  parser.mark ≤ p ∧ parser.fieldStart ≤ p

theorem stringAt_extend {text v : List UInt8} {n : Nat} (h : stringAt text n = .ok v)
    (extra : List UInt8) : stringAt (text ++ extra) n = .ok v := by
  rw [stringAt] at h ⊢
  by_cases hlong : 2 ^ 63 ≤ n
  · rw [if_pos hlong] at h
    cases h
  · rw [if_neg hlong] at h ⊢
    by_cases hshort : text.length < n
    · simp [hshort] at h
    · rw [if_neg hshort] at h
      rw [if_neg (by rw [List.length_append]; omega), List.take_append_of_le_length (by omega)]
      exact h

theorem onResponseReason_extend {d d' : HttpResponseParser} {text : List UInt8} {n : Nat}
    (h : d.onResponseReason text n = .ok d') (extra : List UInt8) :
    d.onResponseReason (text ++ extra) n = .ok d' := by
  rw [onResponseReason] at h ⊢
  cases hv : stringAt text n with
  | error e => simp [hv, bind, Except.bind] at h
  | ok v =>
    rw [hv] at h
    rw [stringAt_extend hv]
    exact h

theorem onResponseHttpField_extend {d d' : HttpResponseParser} {field value : List UInt8}
    {flen vlen : Nat} (h : d.onResponseHttpField field flen value vlen = .ok d')
    (extra : List UInt8) :
    d.onResponseHttpField (field ++ extra) flen (value ++ extra) vlen = .ok d' := by
  rw [onResponseHttpField] at h ⊢
  by_cases hnone : flen = 0
  · rw [if_pos hnone] at h ⊢
    exact h
  · rw [if_neg hnone] at h ⊢
    cases hkey : stringAt field flen with
    | error e => simp [hkey, bind, Except.bind] at h
    | ok key =>
      cases hval : stringAt value vlen with
      | error e => simp [hkey, hval, bind, Except.bind] at h
      | ok val =>
        rw [hkey, hval] at h
        rw [stringAt_extend hkey, stringAt_extend hval]
        exact h

/-- The callbacks leave the offsets alone. -/
theorem before_onResponseReason {p n : Nat} {d d' : HttpResponseParser} {text : List UInt8}
    (h : d.onResponseReason text n = .ok d') (hd : d.Before p) : d'.Before p := by
  rw [onResponseReason] at h
  cases hv : stringAt text n with
  | error e => simp [hv, bind, Except.bind] at h
  | ok v =>
    simp only [hv, bind, Except.bind, pure, Except.pure, Except.ok.injEq] at h
    subst h
    exact hd

theorem before_onResponseHttpField {p : Nat} {d d' : HttpResponseParser}
    {field value : List UInt8} {flen vlen : Nat}
    (h : d.onResponseHttpField field flen value vlen = .ok d') (hd : d.Before p) : d'.Before p := by
  rw [onResponseHttpField] at h
  split at h
  · cases h
    exact hd
  · cases hkey : stringAt field flen with
    | error e => simp [hkey, bind, Except.bind] at h
    | ok key =>
      cases hval : stringAt value vlen with
      | error e => simp [hkey, hval, bind, Except.bind] at h
      | ok val =>
        simp only [hkey, hval, bind, Except.bind, pure, Except.pure, Except.ok.injEq] at h
        subst h
        exact hd

theorem perform_extend {header extra : List UInt8} {p : Nat} {b : UInt8} {a : Action}
    {d d' : HttpResponseParser} (hb : header[p]? = some b) (ha : occurs b a = true)
    (hd : d.Before p) (h : perform header p a d = .ok d') :
    perform (header ++ extra) p a d = .ok d' ∧ d'.Before p := by
  have hp : p < header.length := (List.getElem?_eq_some_iff.mp hb).1
  have hmark : (header ++ extra).drop d.mark = header.drop d.mark ++ extra :=
    List.drop_append_of_le_length (hd.1.trans hp.le)
  have hfield : (header ++ extra).drop d.fieldStart = header.drop d.fieldStart ++ extra :=
    List.drop_append_of_le_length (hd.2.trans hp.le)
  have hmem : b ∈ header.drop d.mark := by
    have hget : (header.drop d.mark)[p - d.mark]? = some b := by
      rw [List.getElem?_drop, Nat.add_sub_cancel' hd.1, hb]
    exact List.mem_of_getElem? hget
  have hnumber : ∀ base : Nat, base ≤ 16 → readsNumber a = true →
      strtol base (header.drop d.mark ++ extra) = strtol base (header.drop d.mark) := by
    intro base hbase hread
    have hends : endsNumber b.toNat = true := by simpa [occurs, hread] using ha
    exact strtol_before (not_digit_of_ends hbase hends) hmem extra
  cases a with
  | mark | startValue =>
    cases h
    exact ⟨rfl, le_rfl, hd.2⟩
  | startField =>
    cases h
    exact ⟨rfl, hd.1, le_rfl⟩
  | writeField =>
    rw [perform] at h ⊢
    rw [Except.ok.injEq] at h
    subst h
    exact ⟨rfl, hd.1, hd.2⟩
  | transChunked | writeConnectionClose | done =>
    cases h
    exact ⟨rfl, hd⟩
  | writeContentLen =>
    simp only [perform] at h ⊢
    rw [hmark, hnumber 10 (by omega) rfl]
    cases h
    exact ⟨rfl, hd⟩
  | chunkSize =>
    simp only [perform] at h ⊢
    rw [hmark, hnumber 16 (by omega) rfl]
    cases h
    exact ⟨rfl, hd⟩
  | statusCode =>
    simp only [perform, onResponseStatus] at h ⊢
    rw [hmark, hnumber 10 (by omega) rfl]
    cases h
    exact ⟨rfl, hd⟩
  | writeValue =>
    simp only [perform] at h ⊢
    rw [hmark, hfield]
    exact ⟨onResponseHttpField_extend h extra, before_onResponseHttpField h hd⟩
  | reasonPhrase =>
    rw [perform] at h ⊢
    rw [hmark]
    exact ⟨onResponseReason_extend h extra, before_onResponseReason h hd⟩
  | httpVersion =>
    have hshort : len d.mark p ≤ (header.drop d.mark).length := by
      have hlen := List.length_drop (i := d.mark) (l := header)
      have hle := hd.1
      rw [len]
      omega
    have hsame : ∀ lit, strncmp (header.drop d.mark ++ extra) lit (len d.mark p) =
        strncmp (header.drop d.mark) lit (len d.mark p) := by
      intro lit
      rw [← strncmp_take, List.take_append_of_le_length hshort, strncmp_take]
    simp only [perform, onResponseVersion] at h ⊢
    rw [hmark, hsame, hsame]
    refine ⟨h, ?_⟩
    cases h
    split
    · exact hd
    · split
      · exact hd
      · exact hd

theorem stateOf_stopped_ne {u : List UInt8} {q q' : Nat}
    (h : machine.outcome q u = .stopped q') : q' ≠ 0 ∧ firstFinal ≤ q' := by
  obtain ⟨_, _, _, hnext, hstop⟩ := Machine.next_of_stopped h
  exact ⟨(state_of_next hnext).1, (state_of_next hnext).2.mp hstop⟩

/-- A run on an accepted text is the same when more follows. -/
theorem exec_extend {header : List UInt8} (haccepts : machine.accepts start header = true)
    {d d' : HttpResponseParser} {v : Verdict Nat} {n : Nat} (hd : d.Before 0)
    (h : machine.exec (perform header) start 0 header d = .ok (v, n, d')) (extra : List UInt8) :
    machine.exec (perform (header ++ extra)) start 0 (header ++ extra) d = .ok (v, n, d') := by
  have hnext : ∀ {p : Nat} {d : HttpResponseParser}, d.Before p → d.Before (p + 1) :=
    fun hd => ⟨hd.1.trans (Nat.le_succ _), hd.2.trans (Nat.le_succ _)⟩
  rw [Machine.exec_append_of_accepts haccepts]
  exact Machine.exec_of_actions occurs_of_next perform_extend hnext List.drop_zero hd h

/-- What follows an accepted text changes nothing. -/
theorem execute_extend {parser final : HttpResponseParser} {header : List UInt8}
    (haccepts : machine.accepts start header = true)
    (h : parser.execute header true = .ok (final, header.length)) (extra : List UInt8) :
    parser.execute (header ++ extra) true = .ok (final, header.length) := by
  have hne : header.length ≠ 0 := by
    intro hnil
    rw [List.length_eq_zero_iff.mp hnil] at haccepts
    simp [Machine.accepts] at haccepts
  have hcs : parser.reinit.cs = start := rfl
  simp only [execute, if_true, hcs] at h ⊢
  rw [if_neg hne] at h
  rw [if_neg (by rw [List.length_append]; omega)]
  split at h
  · simp at h
  · rename_i verdict nread d hexec
    rw [exec_extend haccepts ⟨le_rfl, le_rfl⟩ hexec]
    exact h

/-- The state behind an execution, and how many bytes it took. -/
theorem execute_outcome {parser parser' : HttpResponseParser} {buffer : List UInt8} {n : Nat}
    (hne : buffer ≠ []) (h : parser.execute buffer true = .ok (parser', n)) :
    parser'.cs = HttpRequestParser.stateOf (machine.outcome start buffer) ∧
      n = machine.consumed start buffer := by
  have hlen : buffer.length ≠ 0 := fun h => hne (List.length_eq_zero_iff.mp h)
  have hcs : parser.reinit.cs = start := rfl
  simp only [execute, if_true, hcs] at h
  rw [if_neg hlen] at h
  split at h
  · simp at h
  · rename_i verdict nread d hexec
    obtain ⟨hv, hn⟩ := Machine.exec_outcome hexec
    simp only [Except.ok.injEq, Prod.mk.injEq] at h
    exact ⟨by rw [← h.1, hv], by omega⟩

/-- What the machine refuses is an error. -/
theorem hasError_of_refused {parser parser' : HttpResponseParser} {buffer : List UInt8} {n : Nat}
    (hrefused : machine.outcome start buffer = .failed)
    (h : parser.execute buffer true = .ok (parser', n)) : parser'.hasError = true := by
  have hne : buffer ≠ [] := by
    rintro rfl
    cases hrefused
  have hcs := (execute_outcome hne h).1
  rw [hrefused] at hcs
  simp [hasError, hcs, HttpRequestParser.stateOf]

/-- The front of an accepted text is taken whole and does not finish. -/
theorem not_finished_of_front {parser parser' : HttpResponseParser} {u v : List UInt8} {n : Nat}
    (haccepts : machine.accepts start (u ++ v) = true) (hu : u ≠ []) (hv : v ≠ [])
    (h : parser.execute u true = .ok (parser', n)) :
    parser'.isFinished = false ∧ n = u.length := by
  obtain ⟨q, hafter⟩ := Machine.after_of_accepts haccepts hv
  obtain ⟨hout, hcount⟩ := Machine.outcome_of_after hafter
  obtain ⟨hcs, hn⟩ := execute_outcome hu h
  obtain ⟨q₁, b, as, hnext, hstop⟩ := Machine.next_of_after hu hafter
  rw [hout] at hcs
  refine ⟨?_, hn.trans hcount⟩
  rw [isFinished, hcs, beq_eq_false_iff_ne]
  intro heq
  have hlast := (state_of_next hnext).2.mpr (le_of_eq heq.symm)
  rw [hstop] at hlast
  cases hlast

end HttpResponseParser

namespace HttpConnection

open HttpSession (copied remaining)

/-! ## The code -/

/-- The loop up to the end of the head: the parser and the bytes behind the head, or `none` for a
null result. `data` is what was left of the read before: `data + offset` is then given to the parser
with `offset` bytes too many. A round that goes on has read a byte, so one more round than there are
bytes is enough. -/
def recvHeader (bufferSize : Nat) : Nat → HttpResponseParser → Stream → List UInt8 →
    Except ResponseFault (Option (HttpResponseParser × List UInt8) × Stream)
  | 0, _, s, _ => .ok (none, s)
  | rounds + 1, parser, s, data =>
    let (len, got, s) := s.read (bufferSize - data.length)
    if len ≤ 0 then .ok (none, s)
    else if data.length ≠ 0 then .error .outside
    else
      match parser.execute got true with
      | .error e => .error e
      | .ok (parser, nparse) =>
        if parser.hasError then .ok (none, s)
        else
          let data := got.drop nparse
          if (data.length : Int) = toInt bufferSize then .ok (none, s)
          else if parser.isFinished then .ok (some (parser, data), s)
          else recvHeader bufferSize rounds parser s data

/-- The bytes given to the parser next: those that are left, and the ones of a read unless a chunk
begins with some left. -/
def refill (bufferSize : Nat) (begins : Bool) (s : Stream) (data : List UInt8) :
    Option (List UInt8) × Stream :=
  if !begins || data.length = 0 then
    let (rt, got, s) := s.read (bufferSize - data.length)
    if rt ≤ 0 then (none, s.close) else (some (data ++ got), s)
  else (some data, s)

/-- The loop up to the end of the line in front of a chunk. -/
def recvChunkLine (bufferSize : Nat) : Nat → Bool → HttpResponseParser → Stream → List UInt8 →
    Except ResponseFault (Option (HttpResponseParser × List UInt8) × Stream)
  | 0, _, _, s, _ => .ok (none, s)
  | rounds + 1, begins, parser, s, data =>
    match refill bufferSize begins s data with
    | (none, s) => .ok (none, s)
    | (some data, s) =>
      match parser.execute data true with
      | .error e => .error e
      | .ok (parser, nparse) =>
        if parser.hasError then .ok (none, s)
        else
          let data := data.drop nparse
          if (data.length : Int) = toInt bufferSize then .ok (none, s)
          else if parser.isFinished then .ok (some (parser, data), s)
          else recvChunkLine bufferSize rounds false parser s data

/-- The reads for the last `left` bytes of a chunk, each to the start of the buffer. -/
def recvLeft (bufferSize : Nat) : Nat → Int → List UInt8 → Stream →
    Except ResponseFault (Option (List UInt8) × Stream)
  | 0, _, _, s => .ok (none, s)
  | rounds + 1, left, body, s =>
    if left ≤ 0 then .ok (some body, s)
    else
      let size := ((if toInt bufferSize < left then toInt bufferSize else left) % 2 ^ 64).toNat
      if bufferSize + 1 < size then .error .outside
      else
        let (rt, got, s) := s.read size
        if rt ≤ 0 then .ok (none, s)
        else recvLeft bufferSize rounds (toInt (left - rt)) (body ++ got) s

/-- The body with a chunk of `size` bytes added, and the bytes behind the chunk. Bytes that are left
are moved with two more than there are behind the chunk and its line end. -/
def recvChunk (bufferSize : Nat) (size : Int) (body data : List UInt8) (s : Stream) :
    Except ResponseFault (Option (List UInt8 × List UInt8) × Stream) :=
  if toInt (size + 2) ≤ data.length then
    if size < 0 then .error .lengthError
    else if data.length < size ∨ bufferSize + 1 < data.length + 4 then .error .outside
    else .ok (some (body ++ data.take size.toNat, data.drop (size.toNat + 2)), s)
  else
    match recvLeft bufferSize (s.input.length + 1) (toInt (size - data.length + 2)) (body ++ data)
        s with
    | .error e => .error e
    | .ok (none, s) => .ok (none, s)
    | .ok (some body, s) =>
      if body.length < 2 then .error .lengthError
      else .ok (some (body.take (body.length - 2), []), s)

/-- The loop over the chunks. What is left behind the last one is dropped. -/
def recvChunks (bufferSize : Nat) : Nat → HttpResponseParser → List UInt8 → Stream → List UInt8 →
    Except ResponseFault (Option (HttpResponseParser × List UInt8) × Stream)
  | 0, _, _, s, _ => .ok (none, s)
  | rounds + 1, parser, body, s, data =>
    match recvChunkLine bufferSize (s.input.length + 2) true parser s data with
    | .error e => .error e
    | .ok (none, s) => .ok (none, s)
    | .ok (some (parser, data), s) =>
      match recvChunk bufferSize parser.contentLen body data s with
      | .error e => .error e
      | .ok (none, s) => .ok (none, s)
      | .ok (some (body, data), s) =>
        if parser.chunksDone then .ok (some (parser, body), s)
        else recvChunks bufferSize rounds parser body s data

/-- A body of `length` bytes, with `data` of it received. -/
def recvBody (length : Nat) (data : List UInt8) (s : Stream) :
    Except ResponseFault (Option (List UInt8) × Stream) :=
  if length = 0 then .ok (some [], s)
  else if 2 ^ 63 ≤ length then .error .lengthError
  else if remaining length data.length = 0 then
    .ok (some (overwrite (List.replicate length 0) 0 (copied length data)), s)
  else
    match s.readFixSize (remaining length data.length) with
    | (rt, bytes, s) =>
      if rt ≤ 0 then .ok (none, s)
      else .ok (some (overwrite (overwrite (List.replicate length 0) 0 (copied length data))
        (copied length data).length bytes), s)

/-- The response with a body, for what `ZlibStream` makes of a body. -/
def withBody (gunzip inflate : List UInt8 → List UInt8) (rsp : HttpResponse) (body : List UInt8) :
    HttpResponse :=
  if body = [] then rsp
  else
    let contentEncoding := caseFolded (rsp.getHeader (chars "content-encoding") [])
    if contentEncoding = caseFolded (chars "gzip") then { rsp with body := gunzip body }
    else if contentEncoding = caseFolded (chars "deflate") then { rsp with body := inflate body }
    else { rsp with body := body }

/-- The response, or `none` for a null result, and the stream afterwards. -/
def recvResponse (lexicalCast : List UInt8 → Option Nat) (gunzip inflate : List UInt8 → List UInt8)
    (bufferSize error : Nat) (s : Stream) : Except ResponseFault (Option HttpResponse × Stream) :=
  match recvHeader bufferSize (s.input.length + 1) (.init error) s [] with
  | .error e => .error e
  | .ok (none, s) => .ok (none, s)
  | .ok (some (parser, data), s) =>
    if parser.chunked then
      match recvChunks bufferSize (data.length + s.input.length + 1) parser [] s data with
      | .error e => .error e
      | .ok (none, s) => .ok (none, s)
      | .ok (some (parser, body), s) => .ok (some (withBody gunzip inflate parser.data body), s)
    else
      match recvBody (parser.getContentLength lexicalCast) data s with
      | .error e => .error e
      | .ok (none, s) => .ok (none, s)
      | .ok (some body, s) => .ok (some (withBody gunzip inflate parser.data body), s)

/-! ## The head -/

/-- A response head that the machine accepts and of which the parser makes `final` when it comes in
one piece; it sets no error. -/
structure Head (error : Nat) (header : List UInt8) (final : HttpResponseParser) : Prop where
  first : header.head? = some 72
  accepts : machine.accepts start header = true
  execute_eq : (HttpResponseParser.init error).execute header true = .ok (final, header.length)
  error_eq : final.error = error

/-- The loop gives back what the head is made into. -/
def Obtains (final : HttpResponseParser)
    (result : Except ResponseFault (Option (HttpResponseParser × List UInt8) × Stream)) : Prop :=
  ∃ parser data s', result = .ok (some (parser, data), s') ∧ parser.data = final.data

/-- The loop ends without a response. -/
def Fails (result : Except ResponseFault (Option (HttpResponseParser × List UInt8) × Stream)) :
    Prop :=
  ∀ found s', result ≠ .ok (some found, s')

theorem Fails.not_obtains {final : HttpResponseParser}
    {result : Except ResponseFault (Option (HttpResponseParser × List UInt8) × Stream)}
    (h : Fails result) : ¬Obtains final result := by
  rintro ⟨parser, data, s', hresult, _⟩
  exact h (parser, data) s' hresult

theorem fails_none (s : Stream) : Fails (.ok (none, s)) := by
  intro found s' h
  cases h

theorem fails_error (e : ResponseFault) : Fails (.error e) := by
  intro found s' h
  cases h

/-- Bytes are left of a read that did not finish the head: the next one is parsed beyond its end. -/
theorem recvHeader_unfinished {bufferSize rounds : Nat} {s : Stream} {data : List UInt8}
    (hdata : data ≠ []) (parser : HttpResponseParser) :
    Fails (recvHeader bufferSize rounds parser s data) := by
  cases rounds with
  | zero => exact fails_none s
  | succ rounds =>
    rw [recvHeader]
    obtain ⟨len, got, s₁⟩ := s.read (bufferSize - data.length)
    simp only
    split
    · exact fails_none s₁
    · rw [if_pos (fun h => hdata (List.length_eq_zero_iff.mp h))]
      exact fails_error .outside

/-- Without a head there is no response. -/
theorem recvResponse_of_fails {lexicalCast : List UInt8 → Option Nat}
    {gunzip inflate : List UInt8 → List UInt8} {bufferSize error : Nat} {s : Stream}
    (h : Fails (recvHeader bufferSize (s.input.length + 1) (.init error) s []))
    (rsp : HttpResponse) (s' : Stream) :
    recvResponse lexicalCast gunzip inflate bufferSize error s ≠ .ok (some rsp, s') := by
  intro hresult
  rw [recvResponse] at hresult
  split at hresult
  · cases hresult
  · cases hresult
  · rename_i parser data s₂ hheader
    exact h _ _ hheader

section Head

variable {error : Nat} {header : List UInt8} {final : HttpResponseParser} {bufferSize : Nat}

theorem Head.ne_nil (h : Head error header final) : header ≠ [] := by
  intro hnil
  have hfirst := h.first
  rw [hnil] at hfirst
  cases hfirst

/-- The first read brings the head and `extra`. -/
theorem Head.recvHeader_whole (h : Head error header final) {extra : List UInt8} {len : Int}
    {s s₁ : Stream} (hread : s.read bufferSize = (len, header ++ extra, s₁)) (hlen : 0 < len)
    (rounds : Nat) :
    recvHeader bufferSize (rounds + 1) (.init error) s [] =
      if error ≠ 0 ∨ (extra.length : Int) = toInt bufferSize then .ok (none, s₁)
      else if final.cs = firstFinal then .ok (some (final, extra), s₁)
      else recvHeader bufferSize rounds final s₁ extra := by
  have hexec := HttpResponseParser.execute_extend h.accepts h.execute_eq extra
  have hcs : final.cs ≠ 0 := by
    have hstate := (HttpResponseParser.execute_outcome h.ne_nil h.execute_eq).1
    obtain ⟨q, hout⟩ := (Machine.outcome_of_accepts h.accepts).1
    rw [hout] at hstate
    rw [hstate]
    exact (HttpResponseParser.stateOf_stopped_ne hout).1
  rw [recvHeader, List.length_nil, Nat.sub_zero, hread]
  simp only [hexec, List.drop_left]
  rw [if_neg (by omega), if_neg (by simp)]
  by_cases herror : error = 0
  · have hfine : final.hasError = false := by
      simp [HttpResponseParser.hasError, h.error_eq, herror, hcs]
    simp [hfine, herror, HttpResponseParser.isFinished]
  · have hbad : final.hasError = true := by
      simp [HttpResponseParser.hasError, h.error_eq, herror]
    simp [hbad, herror]

/-- A read that the machine refuses from its start on. -/
theorem recvHeader_refused {got : List UInt8} {len : Int} {s s₁ : Stream}
    (hread : s.read bufferSize = (len, got, s₁)) (h : machine.outcome start got = .failed)
    (rounds : Nat) (parser : HttpResponseParser) :
    Fails (recvHeader bufferSize rounds parser s []) := by
  cases rounds with
  | zero => exact fails_none s
  | succ rounds =>
    rw [recvHeader, List.length_nil, Nat.sub_zero, hread]
    simp only
    split
    · exact fails_none s₁
    · rw [if_neg (by simp)]
      cases hexec : parser.execute got true with
      | error e => exact fails_error e
      | ok result =>
        obtain ⟨parser', nparse⟩ := result
        simp only [HttpResponseParser.hasError_of_refused h hexec, if_true]
        exact fails_none s₁

/-- A first read that ends inside the head, and a second one that the machine refuses from its start
on: each call of the parser starts anew. -/
theorem recvHeader_inside {u v got : List UInt8} {len len' : Int} {s s₁ s₂ : Stream}
    (haccepts : machine.accepts start (u ++ v) = true) (hu : u ≠ []) (hv : v ≠ [])
    (hread : s.read bufferSize = (len, u, s₁)) (hread' : s₁.read bufferSize = (len', got, s₂))
    (hrefused : machine.outcome start got = .failed) (rounds : Nat) (parser : HttpResponseParser) :
    Fails (recvHeader bufferSize rounds parser s []) := by
  cases rounds with
  | zero => exact fails_none s
  | succ rounds =>
    rw [recvHeader, List.length_nil, Nat.sub_zero, hread]
    simp only
    split
    · exact fails_none s₁
    · rw [if_neg (by simp)]
      cases hexec : parser.execute u true with
      | error e => exact fails_error e
      | ok result =>
        obtain ⟨parser', nparse⟩ := result
        obtain ⟨hmore, hn⟩ := HttpResponseParser.not_finished_of_front haccepts hu hv hexec
        simp only [hmore, hn, List.drop_length]
        split
        · exact fails_none s₁
        · split
          · exact fails_none s₁
          · rw [if_neg (by simp)]
            exact recvHeader_refused hread' hrefused rounds parser'

/-- When the machine refuses what comes in the second read, the head has to come in the first. -/
theorem recvHeader_obtains_iff (h : Head 0 header final) (hcs : final.cs = firstFinal)
    (hsize : header.length ≤ bufferSize) {rest : List UInt8} {s : Stream} (hs : s.Reliable)
    (hin : s.input = header ++ rest)
    (hrefused : (s.read bufferSize).2.1.length < header.length →
      machine.outcome start ((s.read bufferSize).2.2.read bufferSize).2.1 = .failed) :
    Obtains final (recvHeader bufferSize (s.input.length + 1) (.init 0) s []) ↔
      header.length ≤ (s.read bufferSize).2.1.length ∧
        (((s.read bufferSize).2.1.length - header.length : Nat) : Int) ≠ toInt bufferSize := by
  have hpos : 0 < header.length := List.length_pos_iff.mpr h.ne_nil
  obtain ⟨got, s₁, hread, hrec, hgot, _⟩ := Stream.read_reliable hs (by omega : 0 < bufferSize)
    (by rw [hin, List.length_append]; omega)
  rw [hread] at hrefused ⊢
  simp only at hrefused ⊢
  by_cases hinside : got.length < header.length
  · obtain ⟨hsplit, _⟩ := hrec.front hin (by omega)
    have hrest : header.drop got.length ≠ [] := by
      apply List.length_pos_iff.mp
      rw [List.length_drop]
      omega
    obtain ⟨⟨len', got', s₂⟩, hread'⟩ : ∃ r, s₁.read bufferSize = r := ⟨_, rfl⟩
    rw [hread'] at hrefused
    have hfails := recvHeader_inside (hsplit ▸ h.accepts) (List.length_pos_iff.mp hgot) hrest hread
      hread' (hrefused hinside) (s.input.length + 1) (.init 0)
    refine iff_of_false hfails.not_obtains ?_
    rintro ⟨hle, _⟩
    omega
  · obtain ⟨extra, hextra, _⟩ := HttpSession.exists_of_append hin hrec.input_eq (by omega)
    rw [hextra] at hread
    rw [h.recvHeader_whole hread (by rw [List.length_append]; omega) s.input.length, hextra,
      List.length_append, Nat.add_sub_cancel_left]
    by_cases hfull : (extra.length : Int) = toInt bufferSize
    · rw [if_pos (.inr hfull)]
      refine iff_of_false (fails_none s₁).not_obtains ?_
      rintro ⟨_, hne⟩
      exact hne hfull
    · rw [if_neg (by simp [hfull]), if_pos hcs]
      exact iff_of_true ⟨final, extra, s₁, rfl, rfl⟩ ⟨by omega, hfull⟩

/-- A connection on which `input` waits, one byte of it for the first read. -/
def firstByteAlone (input : List UInt8) : Stream where
  input := input
  output := []
  readPlan i := if i = 0 then 1 else Int32.maxValue
  writePlan _ := Int32.maxValue
  reads := 0
  writes := 0
  closed := false

theorem firstByteAlone_reliable (input : List UInt8) : (firstByteAlone input).Reliable where
  open_ := rfl
  reads_ok i := by
    simp only [firstByteAlone]
    split <;> decide
  writes_ok _ := by
    simp only [firstByteAlone]
    decide

/-- No head is received in every way it can be cut. -/
theorem recvHeader_first_byte (hfirst : header.head? = some 72)
    (haccepts : machine.accepts start header = true) (hsize : header.length ≤ bufferSize)
    (rest : List UInt8) (rounds : Nat) (parser : HttpResponseParser) :
    Fails (recvHeader bufferSize rounds parser (firstByteAlone (header ++ rest)) []) := by
  obtain ⟨bs, rfl, hrefused⟩ := refused_behind_first hfirst haccepts
  have hlen : (72 :: 84 :: bs).length = bs.length + 2 := rfl
  have hs := firstByteAlone_reliable (72 :: 84 :: bs ++ rest)
  obtain ⟨got, s₁, hread, hrec, hgot, _⟩ := Stream.read_reliable hs (by omega : 0 < bufferSize)
    (Nat.succ_pos _)
  have hone : got.length ≤ 1 := by
    have hle := (firstByteAlone (72 :: 84 :: bs ++ rest)).length_read_le bufferSize
    rw [hread] at hle
    exact hle
  have hin : (firstByteAlone (72 :: 84 :: bs ++ rest)).input = [72] ++ (84 :: bs ++ rest) := rfl
  obtain ⟨hsplit, hin₁⟩ := hrec.front hin hone
  have hdrop : [(72 : UInt8)].drop got.length = [] := by
    rw [List.drop_eq_nil_iff, List.length_singleton]
    omega
  rw [hdrop, List.append_nil] at hsplit
  rw [hdrop, List.nil_append] at hin₁
  obtain ⟨got', s₂, hread', hrec', hgot', _⟩ := Stream.read_reliable (hrec.reliable hs)
    (by omega : 0 < bufferSize) (by rw [hin₁]; exact Nat.succ_pos _)
  obtain ⟨more, hmore⟩ : ∃ more, got' = 84 :: more := by
    have hfront := hin₁.symm.trans hrec'.input_eq
    cases got' with
    | nil => simp at hgot'
    | cons b more =>
      simp only [List.cons_append, List.cons.injEq] at hfront
      exact ⟨more, by rw [hfront.1]⟩
  rw [← hsplit] at hread
  exact recvHeader_inside haccepts (List.cons_ne_nil 72 []) (List.cons_ne_nil 84 bs) hread hread'
    (hmore ▸ hrefused more) rounds parser

/-- Every head can be cut so that it is not received. When the machine refuses what comes second, it
is received only if it comes whole in the first read. -/
theorem recvHeader_cuts (hfirst : header.head? = some 72)
    (haccepts : machine.accepts start header = true) (hsize : header.length ≤ bufferSize)
    (rest : List UInt8) :
    (∀ error, ∃ s : Stream, s.Reliable ∧ s.input = header ++ rest ∧
      Fails (recvHeader bufferSize (s.input.length + 1) (.init error) s [])) ∧
    ∀ (final : HttpResponseParser) (s : Stream), Head 0 header final → final.cs = firstFinal →
      s.Reliable → s.input = header ++ rest →
      ((s.read bufferSize).2.1.length < header.length →
        machine.outcome start ((s.read bufferSize).2.2.read bufferSize).2.1 = .failed) →
      (Obtains final (recvHeader bufferSize (s.input.length + 1) (.init 0) s []) ↔
        header.length ≤ (s.read bufferSize).2.1.length ∧
          (((s.read bufferSize).2.1.length - header.length : Nat) : Int) ≠ toInt bufferSize) := by
  constructor
  · intro error
    exact ⟨firstByteAlone (header ++ rest), firstByteAlone_reliable _, rfl,
      recvHeader_first_byte hfirst haccepts hsize rest _ _⟩
  · intro final s h hcs hs hin hrefused
    exact recvHeader_obtains_iff h hcs hsize hs hin hrefused

end Head

/-- What the parser makes of a head without fields. -/
def plainParser : HttpResponseParser :=
  { HttpResponseParser.init 0 with
    cs := firstFinal
    mark := 13
    data := { HttpResponse.init with reason := chars "OK" } }

theorem head_plain : Head 0 (chars "HTTP/1.1 200 OK\r\n\r\n") plainParser where
  first := by rfl
  accepts := by rfl
  execute_eq := by rfl
  error_eq := rfl

/-- Cut behind its first byte. -/
theorem recvHeader_cut_behind_first :
    Head 0 (chars "HTTP/1.1 200 OK\r\n\r\n") plainParser ∧
    (firstByteAlone (chars "HTTP/1.1 200 OK\r\n\r\n")).Reliable ∧
    ¬Obtains plainParser
      (recvHeader 4096 20 (.init 0) (firstByteAlone (chars "HTTP/1.1 200 OK\r\n\r\n")) []) := by
  have hsize : (chars "HTTP/1.1 200 OK\r\n\r\n").length ≤ 4096 := by decide
  have hcut := recvHeader_first_byte head_plain.first head_plain.accepts hsize [] 20 (.init 0)
  rw [List.append_nil] at hcut
  exact ⟨head_plain, firstByteAlone_reliable _, hcut.not_obtains⟩

theorem recvHeader_cuts_plain :
    Obtains plainParser
      (recvHeader 4096 20 (.init 0)
        (HttpSession.waiting "HTTP/1.1 200 OK\r\n\r\n" fun i => if i = 0 then 100 else 100) []) := by
  have hin : (HttpSession.waiting "HTTP/1.1 200 OK\r\n\r\n" fun i =>
      if i = 0 then 100 else 100).input = chars "HTTP/1.1 200 OK\r\n\r\n" ++ [] := rfl
  have hsize : (chars "HTTP/1.1 200 OK\r\n\r\n").length ≤ 4096 := by decide
  have hcuts := (recvHeader_cuts head_plain.first head_plain.accepts hsize []).2 plainParser _
    head_plain rfl (HttpSession.waiting_reliable _ (by decide) (by decide)) hin
  have hwhole := hcuts (by decide)
  exact hwhole.mpr (by decide)

end HttpConnection

end CxkFramework
