import CxkFramework.HttpRequestRoundTrip
import CxkFramework.HttpResponseReads

/-!
# A response that is printed and received

`HttpConnection::recvResponse` on the text of `HttpResponse::toString`, with the head in the first
read.
-/

namespace CxkFramework

open Scanner HttpClientParser

namespace HttpResponse

open HttpRequest (isOther respects_isOther isOther_connection isOther_length)

/-! ## The fields that are printed -/

def connection (close : Bool) : List UInt8 := if close then chars "close" else chars "keep-alive"

/-- The entry that is printed for a body. -/
def lengthOf (body : List UInt8) : List (List UInt8 × List UInt8) :=
  if body = [] then [] else [(chars "content-length", decimal body.length)]

/-- The fields of the map that are printed. -/
def mapped (rsp : HttpResponse) : List (List UInt8 × List UInt8) :=
  rsp.headers.filter fun h => caseFolded h.1 != caseFolded (chars "connection")

/-- The fields in the order they are printed. -/
def printed (rsp : HttpResponse) (close : Bool) : List (List UInt8 × List UInt8) :=
  rsp.mapped ++ (chars "connection", connection close) :: lengthOf rsp.body

/-- What the parser makes of the printed fields. -/
def received (rsp : HttpResponse) (close : Bool) : List (List UInt8 × List UInt8) :=
  OrderedMap.insertAll caseInsensitiveLess (rsp.printed close) []

/-- The headers apart from `connection` and `content-length`. -/
def others (rsp : HttpResponse) : List (List UInt8 × List UInt8) :=
  rsp.headers.filter fun h => isOther h.1

/-- The reason that is printed. -/
def spoken (rsp : HttpResponse) : List UInt8 :=
  if rsp.reason = [] then statusToChars rsp.status else rsp.reason

/-- A response as the map of headers and the grammar allow it. -/
structure Printable (rsp : HttpResponse) : Prop where
  version_eq : rsp.version = 0x11 ∨ rsp.version = 0x10
  status_low : -2 ^ 31 ≤ rsp.status
  status_high : rsp.status < 2 ^ 31
  reason : ∀ b ∈ rsp.reason, b ≠ 10 ∧ b ≠ 13
  field : ∀ h ∈ rsp.mapped, HttpResponseParser.IsLine h.1 h.2
  sorted : OrderedMap.Sorted caseInsensitiveLess rsp.headers

/-- A text in characters that are printed. -/
def isText (text : String) : Bool :=
  !text.toList.isEmpty && text.toList.all fun c => Nat.ble 32 c.toNat && Nat.ble c.toNat 126

theorem isReason_chars {text : String} (h : isText text = true) :
    HttpResponseParser.IsReason (chars text) := by
  rw [isText, Bool.and_eq_true, Bool.not_eq_true', List.isEmpty_eq_false_iff, List.all_eq_true] at h
  constructor
  · exact fun hnil => h.1 (List.map_eq_nil_iff.mp hnil)
  · intro b hb
    obtain ⟨c, hc, rfl⟩ := List.mem_map.mp hb
    have hrange := h.2 c hc
    rw [Bool.and_eq_true, Nat.ble_eq, Nat.ble_eq] at hrange
    have hbyte : (UInt8.ofNat c.toNat).toNat = c.toNat := by
      rw [UInt8.toNat_ofNat', Nat.mod_eq_of_lt (by omega)]
    constructor
    · intro heq
      rw [heq, show (10 : UInt8).toNat = 10 from rfl] at hbyte
      omega
    · intro heq
      rw [heq, show (13 : UInt8).toNat = 13 from rfl] at hbyte
      omega

theorem statusToChars_reason (s : Int) : HttpResponseParser.IsReason (statusToChars s) := by
  have hunknown : isText "<unknown>" = true := by
    rw [isText, String.toList_ofList]
    decide
  have hall : ∀ n ∈ statuses, isText n.2 = true := by
    simp only [statuses, List.forall_mem_cons]
    repeat' apply And.intro
    all_goals first
      | (rw [isText, String.toList_ofList]; decide)
      | exact fun n hn => absurd hn List.not_mem_nil
  rw [statusToChars]
  cases hfind : statuses.find? fun n => n.1 = s with
  | none => exact isReason_chars hunknown
  | some n =>
    exact isReason_chars (hall n (List.mem_of_find?_eq_some hfind))

section Printed

variable {rsp : HttpResponse} {close : Bool}

theorem Printable.spoken (h : rsp.Printable) : HttpResponseParser.IsReason rsp.spoken := by
  rw [HttpResponse.spoken]
  split
  · exact statusToChars_reason rsp.status
  · rename_i hne
    exact ⟨hne, h.reason⟩

/-- A name that the parser does not know is not `content-length`. -/
theorem isLine_length {name value : List UInt8} (h : HttpResponseParser.IsLine name value) :
    caseFolded name ≠ caseFolded (chars "content-length") := by
  have hzero : 0 ∉ name := fun hmem => Bool.false_ne_true (h.name_token 0 hmem)
  have hfolded : caseFolded name = name.map lower := by
    rw [caseFolded, takeWhile_no_zero hzero]
    rfl
  have hlength : caseFolded (chars "content-length") = chars "content-length" := by decide
  intro heq
  have hknown := h.name_other
  rw [← hfolded, heq, hlength] at hknown
  cases hknown

/-- The parser finds the headers of the map. -/
theorem Printable.others_received (h : rsp.Printable) (close : Bool) :
    (rsp.received close).filter (fun e => isOther e.1) = rsp.others := by
  have hnil : OrderedMap.Sorted caseInsensitiveLess ([] : List (List UInt8 × List UInt8)) :=
    List.Pairwise.nil
  have hlast : (lengthOf rsp.body).filter (fun e => isOther e.1) = [] := by
    rw [lengthOf]
    split
    · rfl
    · rw [List.filter_cons, if_neg (by rw [isOther_length]; exact Bool.false_ne_true)]
      rfl
  have hprinted : (rsp.printed close).filter (fun e => isOther e.1) = rsp.others := by
    rw [printed, List.filter_append, List.filter_cons,
      if_neg (by rw [isOther_connection]; exact Bool.false_ne_true), hlast, List.append_nil,
      mapped, List.filter_filter, others]
    congr 1
    funext e
    rw [isOther, Bool.and_right_comm, Bool.and_self]
  rw [received, OrderedMap.filter_insertAll strictWeak_caseInsensitiveLess respects_isOther hnil,
    hprinted]
  exact OrderedMap.insertAll_sorted strictWeak_caseInsensitiveLess (h.sorted.filter _)

theorem find_connection (rsp : HttpResponse) (close : Bool) :
    OrderedMap.find caseInsensitiveLess (chars "Connection") (rsp.received close) =
      some (connection close) := by
  rw [received, printed, OrderedMap.insertAll_append, OrderedMap.insertAll,
    OrderedMap.find_insertAll_other strictWeak_caseInsensitiveLess]
  · exact OrderedMap.find_insert strictWeak_caseInsensitiveLess
      (same_caseInsensitiveLess.mpr HttpRequest.caseFolded_connection.symm)
  · intro e he
    apply not_same_caseInsensitiveLess
    rw [HttpRequest.caseFolded_connection]
    rw [lengthOf] at he
    split at he
    · cases he
    · rw [List.mem_singleton] at he
      rw [he]
      exact HttpRequest.caseFolded_ne

theorem Printable.find_length (h : rsp.Printable) (close : Bool) :
    OrderedMap.find caseInsensitiveLess (chars "Content-Length") (rsp.received close) =
      if rsp.body = [] then none else some (decimal rsp.body.length) := by
  have hother : ∀ e ∈ rsp.mapped ++ [(chars "connection", connection close)],
      OrderedMap.same caseInsensitiveLess e.1 (chars "Content-Length") = false := by
    intro e he
    apply not_same_caseInsensitiveLess
    rw [HttpRequest.caseFolded_length]
    cases List.mem_append.mp he with
    | inl he => exact isLine_length (h.field e he)
    | inr he =>
      rw [List.mem_singleton] at he
      rw [he]
      exact HttpRequest.caseFolded_ne.symm
  have hsplit : rsp.printed close =
      (rsp.mapped ++ [(chars "connection", connection close)]) ++ lengthOf rsp.body := by
    rw [printed, List.append_assoc, List.singleton_append]
  rw [received, hsplit, OrderedMap.insertAll_append, lengthOf]
  by_cases hbody : rsp.body = []
  · rw [if_pos hbody, if_pos hbody, OrderedMap.insertAll,
      OrderedMap.find_insertAll_other strictWeak_caseInsensitiveLess hother]
    rfl
  · rw [if_neg hbody, if_neg hbody, OrderedMap.insertAll, OrderedMap.insertAll]
    exact OrderedMap.find_insert strictWeak_caseInsensitiveLess
      (same_caseInsensitiveLess.mpr HttpRequest.caseFolded_length.symm)

/-- A header that is neither of the two is found as in the map. -/
theorem Printable.find_other (h : rsp.Printable) (close : Bool) {key : List UInt8}
    (hkey : isOther key = true) :
    OrderedMap.find caseInsensitiveLess key (rsp.received close) =
      OrderedMap.find caseInsensitiveLess key rsp.headers := by
  rw [← OrderedMap.find_filter respects_isOther hkey, h.others_received close, others,
    OrderedMap.find_filter respects_isOther hkey]

end Printed

end HttpResponse

/-! ## The head -/

namespace HttpResponseParser

open HttpResponse

section Head

variable {error : Nat} {rsp : HttpResponse} {close : Bool}

theorem setHeader_eq (rsp : HttpResponse) (key val : List UInt8) : rsp.setHeader key val =
    { rsp with headers := OrderedMap.insert caseInsensitiveLess key val rsp.headers } := by
  rw [HttpResponse.setHeader, HttpRequest.insertHeader_eq]

/-- Fields one after the other. -/
theorem reads_fields {fields : List (List UInt8 × List UInt8)} (h : ∀ e ∈ fields, IsLine e.1 e.2) :
    machine.Reads perform (2 ^ 63) 20 (fun _ => Holds error rsp)
      (fields.flatMap fun e => HttpRequest.field e.1 e.2) 20 (fun _ => Holds error
        { rsp with headers := OrderedMap.insertAll caseInsensitiveLess fields rsp.headers }) := by
  induction fields generalizing rsp with
  | nil => exact Machine.Reads.nil
  | cons e fields ih =>
    have hfirst : machine.Reads perform (2 ^ 63) 20 (fun _ => Holds error rsp)
        (HttpRequest.field e.1 e.2) 20 (fun _ => Holds error (rsp.setHeader e.1 e.2)) :=
      reads_field (.inl rfl) (h e List.mem_cons_self)
    have hall := hfirst.append (ih fun e' he' => h e' (List.mem_cons_of_mem e he'))
    rw [setHeader_eq] at hall
    exact hall

/-- The line for a body, if there is one. -/
theorem reads_lengthOf {q : Nat} (hq : Fresh q) (body : List UInt8) :
    ∃ q', Fresh q' ∧ machine.Reads perform (2 ^ 63) q (fun _ => Holds error rsp)
      ((lengthOf body).flatMap fun e => HttpRequest.field e.1 e.2) q' (fun _ => Holds error
        { rsp with headers :=
            OrderedMap.insertAll caseInsensitiveLess (lengthOf body) rsp.headers }) := by
  by_cases hbody : body = []
  · rw [lengthOf, if_pos hbody]
    exact ⟨q, hq, Machine.Reads.nil⟩
  · have hline : machine.Reads perform (2 ^ 63) q (fun _ => Holds error rsp)
        (HttpRequest.field (chars "content-length") (decimal body.length)) 20 (fun _ =>
          Holds error (rsp.setHeader (chars "content-length") (decimal body.length))) :=
      reads_length hq body.length
    rw [setHeader_eq] at hline
    rw [lengthOf, if_neg hbody, List.flatMap_cons, List.flatMap_nil, List.append_nil]
    exact ⟨20, .inl rfl, hline⟩

/-- The head of a response without its last line. -/
def headText (rsp : HttpResponse) (close : Bool) : List UInt8 :=
  ((if rsp.version = 0x11 then chars "HTTP/1.1" else chars "HTTP/1.0") ++ [32])
    ++ (decimal (rsp.status % 2 ^ 32).toNat ++ [32]) ++ (rsp.spoken ++ crlf)
    ++ (rsp.printed close).flatMap fun e => HttpRequest.field e.1 e.2

/-- What the parser makes of the head. -/
def parsed (rsp : HttpResponse) (close : Bool) : HttpResponse where
  status := rsp.status
  version := rsp.version
  body := []
  reason := rsp.spoken
  headers := rsp.received close

theorem reads_headText (h : rsp.Printable) (close : Bool) :
    ∃ q, Fresh q ∧ machine.Reads perform (2 ^ 63) start (fun _ => Holds error .init)
      (headText rsp close) q (fun _ => Holds error (parsed rsp close)) := by
  have hversion : (if rsp.version = 0x11 then chars "HTTP/1.1" else chars "HTTP/1.0") =
        chars "HTTP/1.1" ∧ rsp.version = 0x11 ∨
      (if rsp.version = 0x11 then chars "HTTP/1.1" else chars "HTTP/1.0") =
        chars "HTTP/1.0" ∧ rsp.version = 0x10 := by
    rcases h.version_eq with hv | hv
    · exact .inl ⟨if_pos hv, hv⟩
    · refine .inr ⟨if_neg ?_, hv⟩
      rw [hv]
      decide
  have hline : machine.Reads perform (2 ^ 63) start (fun _ => Holds error .init) _ 20
      (fun _ => Holds error { HttpResponse.init with
        version := rsp.version, status := rsp.status, reason := rsp.spoken }) :=
    ((reads_version hversion).append (reads_status h.status_low h.status_high)).append
      (reads_reason h.spoken)
  have hmapped := hline.append (reads_fields h.field)
  obtain ⟨q, hq, hconnection⟩ := @reads_connection error { HttpResponse.init with
    version := rsp.version, status := rsp.status, reason := rsp.spoken,
    headers := OrderedMap.insertAll caseInsensitiveLess rsp.mapped [] } 20 (.inl rfl) close
  rw [setHeader_eq] at hconnection
  obtain ⟨q', hq', hlength⟩ := @reads_lengthOf error { HttpResponse.init with
    version := rsp.version, status := rsp.status, reason := rsp.spoken,
    headers := OrderedMap.insert caseInsensitiveLess (chars "connection") (connection close)
      (OrderedMap.insertAll caseInsensitiveLess rsp.mapped []) } q hq rsp.body
  have hall := (hmapped.append hconnection).append hlength
  have hheaders : rsp.received close = OrderedMap.insertAll caseInsensitiveLess
      (HttpResponse.lengthOf rsp.body) (OrderedMap.insert caseInsensitiveLess (chars "connection")
        (connection close) (OrderedMap.insertAll caseInsensitiveLess rsp.mapped [])) := by
    rw [received, printed, OrderedMap.insertAll_append, OrderedMap.insertAll]
  refine ⟨q', hq', ?_⟩
  rw [headText, parsed, hheaders, printed, List.flatMap_append, List.flatMap_cons,
    ← List.append_assoc, ← List.append_assoc]
  exact hall

theorem toString_eq (h : rsp.Printable) (close : Bool) :
    rsp.toString close false = headText rsp close ++ crlf ++ rsp.body := by
  have hversion : chars "HTTP/" ++ decimal (rsp.version >>> 4).toNat ++ chars "."
        ++ decimal (rsp.version &&& 0x0F).toNat =
      if rsp.version = 0x11 then chars "HTTP/1.1" else chars "HTTP/1.0" := by
    rcases h.version_eq with hv | hv <;> rw [hv] <;> decide
  have hfields : HttpRequest.fields false rsp.headers
        ++ HttpRequest.field (chars "connection") (connection close)
        ++ (if rsp.body = [] then crlf
          else HttpRequest.field (chars "content-length") (decimal rsp.body.length) ++ crlf
            ++ rsp.body) =
      ((rsp.printed close).flatMap fun e => HttpRequest.field e.1 e.2) ++ crlf ++ rsp.body := by
    rw [printed, List.flatMap_append, List.flatMap_cons, HttpRequest.fields, mapped,
      HttpResponse.lengthOf]
    by_cases hbody : rsp.body = []
    · rw [if_pos hbody, if_pos hbody, hbody]
      simp only [Bool.false_or, List.flatMap_nil, List.append_nil, List.append_assoc]
    · rw [if_neg hbody, if_neg hbody]
      simp only [Bool.false_or, List.flatMap_cons, List.flatMap_nil, List.append_nil,
        List.append_assoc]
  rw [HttpResponse.toString, HttpResponse.dump, hversion, if_neg Bool.false_ne_true,
    List.append_assoc _ (HttpRequest.fields false rsp.headers),
    List.append_assoc _ _ (ite _ _ _)]
  rw [connection] at hfields
  rw [hfields, headText, spoken]
  simp only [List.append_assoc, List.cons_append, List.nil_append]

end Head

end HttpResponseParser

/-! ## The round trip -/

namespace HttpResponse

open HttpResponseParser (headText parsed toString_eq)

/-- What is printed before the body. -/
def head (rsp : HttpResponse) (close : Bool) : List UInt8 :=
  (rsp.toString close false).take ((rsp.toString close false).length - rsp.body.length)

/-- The body behind its own `content-encoding`. -/
def decoded (gunzip inflate : List UInt8 → List UInt8) (rsp : HttpResponse) : List UInt8 :=
  (HttpConnection.withBody gunzip inflate rsp rsp.body).body

/-- The responses agree, but for the headers that `dump` adds and a body that is decoded. -/
structure SameAs (gunzip inflate : List UInt8 → List UInt8) (close : Bool)
    (rsp got : HttpResponse) : Prop where
  status_eq : got.status = rsp.status
  version_eq : got.version = rsp.version
  reason_eq : got.reason = rsp.spoken
  body_eq : got.body = rsp.decoded gunzip inflate
  connection_eq : got.getHeader (chars "Connection") [] = connection close
  others_eq : got.others = rsp.others

section SameAs

variable {gunzip inflate : List UInt8 → List UInt8} {rsp : HttpResponse}

theorem Printable.head_eq (h : rsp.Printable) (close : Bool) :
    rsp.head close = headText rsp close ++ crlf := by
  rw [head, toString_eq h, List.length_append, Nat.add_sub_cancel, List.take_left]

theorem Printable.toString_eq_head (h : rsp.Printable) (close : Bool) :
    rsp.toString close false = rsp.head close ++ rsp.body := by
  rw [h.head_eq, toString_eq h]

theorem isOther_encoding : HttpRequest.isOther (chars "content-encoding") = true := by decide

/-- The parser finds the encoding, and does with the body what the sender's one asks for. -/
theorem Printable.sameAs_withBody (h : rsp.Printable) (close : Bool) :
    rsp.SameAs gunzip inflate close
      (HttpConnection.withBody gunzip inflate (parsed rsp close) rsp.body) := by
  have hencoding : (parsed rsp close).getHeader (chars "content-encoding") [] =
      rsp.getHeader (chars "content-encoding") [] :=
    congrArg (fun found => found.getD []) (h.find_other close isOther_encoding)
  have hconnection : (parsed rsp close).getHeader (chars "Connection") [] = connection close :=
    congrArg (fun found => found.getD []) (find_connection rsp close)
  have hshape : ∃ body, HttpConnection.withBody gunzip inflate (parsed rsp close) rsp.body =
      { parsed rsp close with body := body } ∧ body = rsp.decoded gunzip inflate := by
    rw [decoded, HttpConnection.withBody, HttpConnection.withBody]
    by_cases hbody : rsp.body = []
    · rw [if_pos hbody, if_pos hbody]
      exact ⟨[], rfl, hbody.symm⟩
    · rw [if_neg hbody, if_neg hbody]
      simp only [hencoding]
      split
      · exact ⟨_, rfl, rfl⟩
      · split
        · exact ⟨_, rfl, rfl⟩
        · exact ⟨_, rfl, rfl⟩
  obtain ⟨body, hgot, hbody⟩ := hshape
  rw [hgot]
  exact ⟨rfl, rfl, rfl, hbody, hconnection, h.others_received close⟩

theorem Printable.getContentLength (h : rsp.Printable) {close : Bool}
    {lexicalCast : List UInt8 → Option Nat}
    (hcast : lexicalCast (decimal rsp.body.length) = some rsp.body.length)
    {final : HttpResponseParser} (hdata : final.data = parsed rsp close) :
    final.getContentLength lexicalCast = rsp.body.length := by
  have hfind : (parsed rsp close).findHeader (chars "Content-Length") =
      if rsp.body = [] then none else some (decimal rsp.body.length) := h.find_length close
  rw [HttpResponseParser.getContentLength, getHeaderAs, hdata, hfind]
  by_cases hbody : rsp.body = []
  · rw [if_pos hbody, hbody]
    rfl
  · rw [if_neg hbody]
    simp only [hcast, Option.getD_some]

end SameAs

end HttpResponse

namespace HttpConnection

open HttpResponse

section RoundTrip

variable {lexicalCast : List UInt8 → Option Nat} {gunzip inflate : List UInt8 → List UInt8}
  {bufferSize error : Nat} {rsp : HttpResponse} {close : Bool} {extra body next : List UInt8}
  {s s₁ : Stream} {len : Int}

/-- A body that may be empty. -/
theorem recvBody_fits_iff (hs : s.Reliable) (hsplit : body ++ next = extra ++ s.input)
    (hextra : extra.length < 2 ^ 31) :
    (∃ b s', recvBody body.length extra s = .ok (some b, s') ∧ s'.input = next) ↔
      BodyFits body.length extra.length := by
  by_cases hbody : body = []
  · subst hbody
    have hnone : recvBody ([] : List UInt8).length extra s = .ok (some [], s) := by
      rw [recvBody, if_pos List.length_nil]
    rw [hnone]
    constructor
    · rintro ⟨b, s', hresult, hnext⟩
      cases hresult
      rw [List.nil_append, hnext] at hsplit
      have hnil : extra = [] := by simpa using hsplit.symm
      rw [hnil]
      decide
    · intro hfits
      have hnil : extra = [] := List.length_eq_zero_iff.mp (Nat.le_zero.mp hfits.1)
      rw [hnil] at hsplit
      exact ⟨[], s, rfl, hsplit.symm⟩
  · constructor
    · rintro ⟨b, s', hresult, -⟩
      by_contra hnot
      exact recvBody_not_fits hs hsplit hbody hextra hnot b s' hresult
    · intro hfits
      obtain ⟨s', hresult, hnext⟩ := recvBody_fits hs hsplit hbody hfits
      exact ⟨body, s', hresult, hnext⟩

/-- What comes is the body, if anything does. -/
theorem recvBody_body {b : List UInt8} {s' : Stream} (hs : s.Reliable)
    (hsplit : body ++ next = extra ++ s.input) (hextra : extra.length < 2 ^ 31)
    (h : recvBody body.length extra s = .ok (some b, s')) : b = body := by
  by_cases hbody : body = []
  · subst hbody
    rw [recvBody, if_pos List.length_nil] at h
    cases h
    rfl
  · by_cases hfits : BodyFits body.length extra.length
    · obtain ⟨s₂, hresult, -⟩ := recvBody_fits hs hsplit hbody hfits
      rw [hresult] at h
      cases h
      rfl
    · exact absurd h (recvBody_not_fits hs hsplit hbody hextra hfits b s')

/-- Nothing is sent while a body is received. -/
theorem received_of_recvBody {length : Nat} {b : List UInt8} {s' : Stream} (hs : s.Reliable)
    (h : recvBody length extra s = .ok (some b, s')) : ∃ got, s.Received got s' := by
  rw [recvBody] at h
  split at h
  · cases h
    exact ⟨[], Stream.Received.refl s⟩
  · split at h
    · cases h
    · split at h
      · cases h
        exact ⟨[], Stream.Received.refl s⟩
      · rcases hread : s.readFixSize (HttpSession.remaining length extra.length) with ⟨rt, got, s₂⟩
        rw [hread] at h
        simp only at h
        split at h
        · cases h
        · cases h
          exact ⟨got, Stream.received_of_readFixSize hs hread⟩

/-- With the head in the first read, what is received hangs on the body alone. -/
theorem recvResponse_head_iff (h : rsp.Printable)
    (hcast : lexicalCast (decimal rsp.body.length) = some rsp.body.length) (hs : s.Reliable)
    (hread : s.read bufferSize = (len, rsp.head close ++ extra, s₁)) (got : HttpResponse)
    (s' : Stream) :
    recvResponse lexicalCast gunzip inflate bufferSize error s = .ok (some got, s') ↔
      error = 0 ∧ (extra.length : Int) ≠ toInt bufferSize ∧
        ∃ b, recvBody rsp.body.length extra s₁ = .ok (some b, s') ∧
          got = withBody gunzip inflate (HttpResponseParser.parsed rsp close) b := by
  obtain ⟨hlen, hrec, hmax, _⟩ := Stream.received_of_read hs hread
  rw [List.length_append] at hlen hmax
  obtain ⟨q, hq, hreads⟩ := @HttpResponseParser.reads_headText error rsp h close
  have hfirst : (HttpResponseParser.headText rsp close).head? = some 72 := by
    rw [HttpResponseParser.headText]
    split <;> rfl
  have hheader := h.head_eq close
  obtain ⟨final, hhead, hcs, hchunked, hdata⟩ := HttpResponseParser.head_of_reads hq hreads hfirst
    (by rw [← hheader]; omega)
  rw [← hheader] at hhead
  have hpos : 0 < (rsp.head close).length := List.length_pos_iff.mpr hhead.ne_nil
  have hloop := hhead.recvHeader_whole hread (by omega) s.input.length
  have hannounced := h.getContentLength hcast hdata
  by_cases hstop : error ≠ 0 ∨ (extra.length : Int) = toInt bufferSize
  · rw [if_pos hstop] at hloop
    refine iff_of_false ?_ fun hall => hstop.elim (fun hne => hne hall.1) hall.2.1
    exact recvResponse_of_fails (hloop ▸ fails_none s₁) got s'
  · rw [if_neg hstop, if_pos hcs] at hloop
    obtain ⟨herror, hfull⟩ := not_or.mp hstop
    rw [@recvResponse_of_whole lexicalCast gunzip inflate bufferSize error extra rsp.body final s s₁
      got s' hloop hchunked hannounced, hdata]
    constructor
    · rintro ⟨b, hb, hgot⟩
      exact ⟨not_not.mp herror, hfull, b, hb, hgot⟩
    · rintro ⟨-, -, b, hb, hgot⟩
      exact ⟨b, hb, hgot⟩

/-- The head and the body take their own bytes from the stream. -/
theorem split_read (h : rsp.Printable) (hs : s.Reliable)
    (hin : s.input = rsp.toString close false ++ next)
    (hread : s.read bufferSize = (len, rsp.head close ++ extra, s₁)) :
    rsp.body ++ next = extra ++ s₁.input ∧ s₁.Reliable ∧ extra.length < 2 ^ 31 := by
  obtain ⟨_, hrec, hmax, _⟩ := Stream.received_of_read hs hread
  rw [List.length_append] at hmax
  refine ⟨?_, hrec.reliable hs, by omega⟩
  have hall := hin.symm.trans hrec.input_eq
  rw [h.toString_eq_head, List.append_assoc, List.append_assoc, List.append_cancel_left_eq] at hall
  exact hall

theorem recvResponse_fits (h : rsp.Printable)
    (hcast : lexicalCast (decimal rsp.body.length) = some rsp.body.length) (hs : s.Reliable)
    (hin : s.input = rsp.toString close false ++ next)
    (hread : s.read bufferSize = (len, rsp.head close ++ extra, s₁)) (herror : error = 0)
    (hfull : (extra.length : Int) ≠ toInt bufferSize)
    (hfits : BodyFits rsp.body.length extra.length) :
    ∃ got s', recvResponse lexicalCast gunzip inflate bufferSize error s = .ok (some got, s') ∧
      rsp.SameAs gunzip inflate close got ∧ s.Received (rsp.toString close false) s' := by
  obtain ⟨_, hrec, _, _⟩ := Stream.received_of_read hs hread
  obtain ⟨hsplit, hs₁, hextra⟩ := split_read h hs hin hread
  obtain ⟨b, s', hb, hnext⟩ := (recvBody_fits_iff hs₁ hsplit hextra).mpr hfits
  have hsame := recvBody_body hs₁ hsplit hextra hb
  rw [hsame] at hb
  obtain ⟨got, hgot⟩ := received_of_recvBody hs₁ hb
  have hreceived := hrec.trans hgot
  have htext : rsp.head close ++ extra ++ got = rsp.toString close false := by
    have hall := hin.symm.trans hreceived.input_eq
    rw [hnext, List.append_cancel_right_eq] at hall
    exact hall.symm
  rw [htext] at hreceived
  exact ⟨_, s', (recvResponse_head_iff h hcast hs hread _ s').mpr
    ⟨herror, hfull, rsp.body, hb, rfl⟩, h.sameAs_withBody close, hreceived⟩

end RoundTrip

/-- A response with all its parts, of a status that has no name. -/
def fullResponse : HttpResponse where
  status := -7
  version := 0x10
  body := chars "hi"
  reason := chars "so so"
  headers := [(chars "Connection", chars "x"), (chars "Contents", chars "a: b"), (chars "T", [])]

theorem fullResponse_printable : fullResponse.Printable where
  version_eq := .inr rfl
  status_low := by decide
  status_high := by decide
  reason := List.all_iff_forall_prop.mp (by decide)
  field := by
    have hmapped : fullResponse.mapped = [(chars "Contents", chars "a: b"), (chars "T", [])] := by
      decide
    intro h hmem
    rw [hmapped] at hmem
    rcases List.mem_cons.mp hmem with rfl | hmem
    · refine ⟨by decide, List.all_eq_true.mp (by decide), by decide,
        List.all_iff_forall_prop.mp (by decide), ?_⟩
      have hhead : (chars "a: b").head? = some 97 := by rfl
      intro b hb
      rw [hhead] at hb
      cases hb
      decide
    · rw [List.mem_singleton] at hmem
      subst hmem
      refine ⟨by decide, List.all_eq_true.mp (by decide), by decide,
        List.all_iff_forall_prop.mp (by decide), ?_⟩
      intro b hb
      cases hb
  sorted := by
    rw [OrderedMap.Sorted]
    decide

end HttpConnection

end CxkFramework
