import CxkFramework.HttpTarget
import CxkFramework.OrderedMap

/-!
# A request that is printed and received

`HttpSession::recvRequest` on the text of `HttpRequest::toString`, with the head in the first read.
-/

namespace CxkFramework

open Scanner HttpParser

/-! ## The map of the headers -/

theorem strictWeak_caseInsensitiveLess : OrderedMap.StrictWeak caseInsensitiveLess where
  irrefl a := decide_eq_false (List.lt_irrefl _)
  trans a b c hab hbc := by
    simp only [caseInsensitiveLess, decide_eq_true_eq] at hab hbc ⊢
    exact List.lt_trans hab hbc
  weak a b c hac := by
    simp only [caseInsensitiveLess, decide_eq_true_eq] at hac ⊢
    by_contra hnot
    obtain ⟨hab, hbc⟩ := not_or.mp hnot
    exact List.not_lt.mpr (List.le_trans (List.not_lt.mp hbc) (List.not_lt.mp hab)) hac

theorem same_caseInsensitiveLess {a b : List UInt8} :
    OrderedMap.same caseInsensitiveLess a b = true ↔ caseFolded a = caseFolded b := by
  rw [OrderedMap.same_iff]
  simp only [caseInsensitiveLess, decide_eq_false_iff_not]
  constructor
  · rintro ⟨hab, hba⟩
    exact List.le_antisymm (List.not_lt.mp hba) (List.not_lt.mp hab)
  · intro heq
    rw [heq]
    exact ⟨List.lt_irrefl _, List.lt_irrefl _⟩

theorem not_same_caseInsensitiveLess {a b : List UInt8} (h : caseFolded a ≠ caseFolded b) :
    OrderedMap.same caseInsensitiveLess a b = false :=
  Bool.eq_false_iff.mpr fun hsame => h (same_caseInsensitiveLess.mp hsame)

namespace HttpRequest

theorem insertHeader_eq (key val : List UInt8) (headers : List (List UInt8 × List UInt8)) :
    insertHeader key val headers = OrderedMap.insert caseInsensitiveLess key val headers := by
  induction headers with
  | nil => rfl
  | cons h headers ih =>
    obtain ⟨k, v⟩ := h
    rw [insertHeader, OrderedMap.insert, ih]

/-- Neither `connection` nor `content-length`. -/
def isOther (key : List UInt8) : Bool :=
  caseFolded key != caseFolded (chars "connection") &&
    caseFolded key != caseFolded (chars "content-length")

/-- The headers apart from `connection` and `content-length`. -/
def others (req : HttpRequest) : List (List UInt8 × List UInt8) :=
  req.headers.filter fun h => isOther h.1

theorem respects_isOther : OrderedMap.Respects caseInsensitiveLess isOther := by
  intro a b hsame
  rw [isOther, isOther, same_caseInsensitiveLess.mp hsame]

theorem caseFolded_connection :
    caseFolded (chars "Connection") = caseFolded (chars "connection") := by
  decide

theorem caseFolded_length :
    caseFolded (chars "Content-Length") = caseFolded (chars "content-length") := by
  decide

theorem caseFolded_ne :
    caseFolded (chars "content-length") ≠ caseFolded (chars "connection") := by
  decide

theorem isOther_connection : isOther (chars "connection") = false := by
  rw [isOther, bne_self_eq_false, Bool.false_and]

theorem isOther_length : isOther (chars "content-length") = false := by
  rw [isOther, bne_self_eq_false, Bool.and_false]

/-! ## The fields that are printed -/

def connection (req : HttpRequest) : List UInt8 :=
  if req.close then chars "close" else chars "keep-alive"

/-- The fields in the order they are printed. -/
def printed (req : HttpRequest) : List (List UInt8 × List UInt8) :=
  (chars "connection", req.connection) ::
    (req.headers.filter (fun h => caseFolded h.1 != caseFolded (chars "connection"))
      ++ if req.body = [] then [] else [(chars "content-length", decimal req.body.length)])

/-- What the parser makes of the printed fields. -/
def received (req : HttpRequest) : List (List UInt8 × List UInt8) :=
  OrderedMap.insertAll caseInsensitiveLess req.printed []

/-- A request as the map of headers and the grammar allow it. -/
structure Printable (uriRelaxed : Bool) (req : HttpRequest) : Prop where
  method_ne : req.method ≠ .invalidMethod
  version_eq : req.version = 0x11 ∨ req.version = 0x10
  path : IsPath uriRelaxed req.path
  query : IsQuery uriRelaxed req.query
  fragment : IsFragment uriRelaxed req.fragment
  field : ∀ h ∈ req.headers, IsField h.1 h.2
  sorted : OrderedMap.Sorted caseInsensitiveLess req.headers
  no_length : ∀ h ∈ req.headers, caseFolded h.1 ≠ caseFolded (chars "content-length")

section Printed

variable {uriRelaxed : Bool} {req : HttpRequest}

theorem isContent_decimal {n : Nat} {b : UInt8} (h : b ∈ decimal n) :
    isContent b = true ∧ b ≠ 32 :=
  of_mem_decimal (P := fun b => isContent b = true ∧ b ≠ 32) (by decide) h

theorem isField_length (n : Nat) : IsField (chars "content-length") (decimal n) where
  name_ne := by decide
  name_token := List.all_eq_true.mp (by decide)
  value_content b hb := (isContent_decimal hb).1
  value_start hhead := (isContent_decimal (List.mem_of_mem_head? hhead)).2 rfl

theorem isField_connection (req : HttpRequest) : IsField (chars "connection") req.connection := by
  have hvalue : req.connection = chars "close" ∨ req.connection = chars "keep-alive" := by
    rw [connection]
    cases req.close with
    | true => exact .inl rfl
    | false => exact .inr rfl
  refine ⟨by decide, List.all_eq_true.mp (by decide), ?_, ?_⟩
  · rcases hvalue with h | h <;> rw [h] <;> exact List.all_eq_true.mp (by decide)
  · rcases hvalue with h | h <;> rw [h] <;> decide

theorem Printable.isField (h : Printable uriRelaxed req) : ∀ e ∈ req.printed, IsField e.1 e.2 := by
  intro e he
  rcases List.mem_cons.mp he with rfl | he
  · exact isField_connection req
  · rcases List.mem_append.mp he with he | he
    · exact h.field e (List.mem_of_mem_filter he)
    · split at he
      · cases he
      · rw [List.mem_singleton] at he
        subst he
        exact isField_length req.body.length

/-- The parser finds the headers of the map. -/
theorem Printable.others_received (h : Printable uriRelaxed req) :
    req.received.filter (fun e => isOther e.1) = req.others := by
  have hnil : OrderedMap.Sorted caseInsensitiveLess ([] : List (List UInt8 × List UInt8)) :=
    List.Pairwise.nil
  have hprinted : req.printed.filter (fun e => isOther e.1) = req.others := by
    have hlast : (if req.body = [] then []
        else [(chars "content-length", decimal req.body.length)]).filter
          (fun e : List UInt8 × List UInt8 => isOther e.1) = [] := by
      split
      · rfl
      · rw [List.filter_cons, if_neg (by rw [isOther_length]; exact Bool.false_ne_true)]
        rfl
    rw [printed, List.filter_cons, if_neg (by rw [isOther_connection]; exact Bool.false_ne_true),
      List.filter_append, hlast, List.append_nil,
      List.filter_filter, others]
    congr 1
    funext e
    rw [isOther, Bool.and_assoc, Bool.and_comm, Bool.and_assoc, Bool.and_self, Bool.and_comm]
  rw [received, OrderedMap.filter_insertAll strictWeak_caseInsensitiveLess respects_isOther hnil,
    hprinted]
  exact OrderedMap.insertAll_sorted strictWeak_caseInsensitiveLess (h.sorted.filter _)

theorem find_connection (req : HttpRequest) :
    OrderedMap.find caseInsensitiveLess (chars "Connection") req.received =
      some req.connection := by
  rw [received, printed, OrderedMap.insertAll,
    OrderedMap.find_insertAll_other strictWeak_caseInsensitiveLess]
  · exact OrderedMap.find_insert strictWeak_caseInsensitiveLess
      (same_caseInsensitiveLess.mpr caseFolded_connection.symm)
  · intro e he
    apply not_same_caseInsensitiveLess
    rw [caseFolded_connection]
    rcases List.mem_append.mp he with he | he
    · have hkeep := (List.mem_filter.mp he).2
      exact bne_iff_ne.mp hkeep
    · split at he
      · cases he
      · rw [List.mem_singleton] at he
        rw [he]
        exact caseFolded_ne

theorem find_length (h : Printable uriRelaxed req) :
    OrderedMap.find caseInsensitiveLess (chars "Content-Length") req.received =
      if req.body = [] then none else some (decimal req.body.length) := by
  have hother : ∀ e ∈ (chars "connection", req.connection) ::
      req.headers.filter (fun h => caseFolded h.1 != caseFolded (chars "connection")),
      OrderedMap.same caseInsensitiveLess e.1 (chars "Content-Length") = false := by
    intro e he
    apply not_same_caseInsensitiveLess
    rw [caseFolded_length]
    rcases List.mem_cons.mp he with rfl | he
    · exact caseFolded_ne.symm
    · exact h.no_length e (List.mem_of_mem_filter he)
  rw [received, printed, ← List.cons_append, OrderedMap.insertAll_append]
  by_cases hbody : req.body = []
  · rw [if_pos hbody, if_pos hbody, OrderedMap.insertAll,
      OrderedMap.find_insertAll_other strictWeak_caseInsensitiveLess hother]
    rfl
  · rw [if_neg hbody, if_neg hbody, OrderedMap.insertAll, OrderedMap.insertAll]
    exact OrderedMap.find_insert strictWeak_caseInsensitiveLess
      (same_caseInsensitiveLess.mpr caseFolded_length.symm)

end Printed

end HttpRequest

/-! ## The method -/

theorem HttpMethod.exists_name {m : HttpMethod} (hm : m ≠ .invalidMethod) :
    ∃ n ∈ HttpMethod.names, n.1 = m ∧ m.toChars = chars n.2 := by
  cases hfind : HttpMethod.names.find? fun n => n.1 = m with
  | none =>
    have hsome : (HttpMethod.names.find? fun n => n.1 = m).isSome = true := by
      cases m <;> first | rfl | exact absurd rfl hm
    rw [hfind] at hsome
    cases hsome
  | some n =>
    have hname := List.find?_some hfind
    refine ⟨n, List.mem_of_find?_eq_some hfind, of_decide_eq_true hname, ?_⟩
    rw [HttpMethod.toChars, hfind]

namespace HttpRequestParser

section Head

variable {uriRelaxed : Bool} {req : HttpRequest}

/-- Every method but one is made of capital letters. -/
theorem reads_method_name {m : HttpMethod} (hm : m ≠ .invalidMethod) (hsearch : m ≠ .msearch) :
    Reads uriRelaxed start req (m.toChars ++ [32]) 3 { req with method := m } := by
  have hall : ∀ (r : Bool), ∀ n ∈ HttpMethod.names, n.1 ≠ .msearch →
      (machine r).pass .mark start none (chars n.2) =
          some (173 + (chars n.2).length, some (chars n.2)) ∧
        (machine r).next (173 + (chars n.2).length) 32 = some (3, [.requestMethod]) ∧
        HttpMethod.ofChars (chars n.2 ++ [32]) = n.1 := by
    decide
  obtain ⟨n, hn, rfl, hname⟩ := HttpMethod.exists_name hm
  obtain ⟨hpass, hnext, hchars⟩ := hall uriRelaxed n hn hsearch
  rw [hname]
  exact reads_method hpass hnext hchars hm

/-- Fields one after the other. -/
theorem reads_fields {fields : List (List UInt8 × List UInt8)}
    (h : ∀ e ∈ fields, IsField e.1 e.2) :
    Reads uriRelaxed 13 req (fields.flatMap fun e => HttpRequest.field e.1 e.2) 13
      { req with headers := OrderedMap.insertAll caseInsensitiveLess fields req.headers } := by
  induction fields generalizing req with
  | nil => exact Reads.nil uriRelaxed 13 req
  | cons e fields ih =>
    have hfirst : Reads uriRelaxed 13 req (HttpRequest.field e.1 e.2) 13 (req.setHeader e.1 e.2) :=
      reads_field (h e List.mem_cons_self)
    have hall := hfirst.append (ih fun e' he' => h e' (List.mem_cons_of_mem e he'))
    rw [HttpRequest.setHeader, HttpRequest.insertHeader_eq] at hall
    exact hall

/-- The head of a request without its last line. -/
def headText (req : HttpRequest) : List UInt8 :=
  (req.method.toChars ++ [32])
    ++ (req.path ++ ((if req.query = [] then [] else [63]) ++ req.query)
      ++ ((if req.fragment = [] then [] else [35]) ++ req.fragment) ++ [32])
    ++ ((if req.version = 0x11 then chars "HTTP/1.1" else chars "HTTP/1.0") ++ crlf)
    ++ req.printed.flatMap fun e => HttpRequest.field e.1 e.2

/-- What the parser makes of the head. -/
def parsed (req : HttpRequest) : HttpRequest :=
  { req with
    path := reportedPath req.path
    close := true
    body := []
    headers := req.received }

theorem reads_headText (h : req.Printable uriRelaxed) (hsearch : req.method ≠ .msearch) :
    Reads uriRelaxed start .init (headText req) 13 (parsed req) := by
  have hversion : (if req.version = 0x11 then chars "HTTP/1.1" else chars "HTTP/1.0") =
        chars "HTTP/1.1" ∧ req.version = 0x11 ∨
      (if req.version = 0x11 then chars "HTTP/1.1" else chars "HTTP/1.0") =
        chars "HTTP/1.0" ∧ req.version = 0x10 := by
    rcases h.version_eq with hv | hv
    · exact .inl ⟨if_pos hv, hv⟩
    · refine .inr ⟨if_neg ?_, hv⟩
      rw [hv]
      decide
  have hmethod : Reads uriRelaxed start .init (req.method.toChars ++ [32]) 3
      { HttpRequest.init with method := req.method } := reads_method_name h.method_ne hsearch
  have hline := (hmethod.append (reads_target h.path h.query h.fragment rfl rfl)).append
    (reads_version hversion)
  exact hline.append (reads_fields h.isField)

theorem toString_eq (h : req.Printable uriRelaxed) :
    req.toString false = headText req ++ crlf ++ req.body := by
  have hversion : chars " HTTP/" ++ decimal (req.version >>> 4).toNat ++ chars "."
        ++ decimal (req.version &&& 0x0F).toNat =
      32 :: if req.version = 0x11 then chars "HTTP/1.1" else chars "HTTP/1.0" := by
    rcases h.version_eq with hv | hv <;> rw [hv] <;> decide
  have hfields : HttpRequest.field (chars "connection") req.connection
        ++ HttpRequest.fields false req.headers
        ++ (if req.body = [] then crlf
          else HttpRequest.field (chars "content-length") (decimal req.body.length) ++ crlf
            ++ req.body) =
      (req.printed.flatMap fun e => HttpRequest.field e.1 e.2) ++ crlf ++ req.body := by
    rw [HttpRequest.printed, List.flatMap_cons, List.flatMap_append, HttpRequest.fields]
    by_cases hbody : req.body = []
    · rw [if_pos hbody, if_pos hbody, hbody]
      simp only [Bool.false_or, List.flatMap_nil, List.append_nil, List.append_assoc]
    · rw [if_neg hbody, if_neg hbody]
      simp only [Bool.false_or, List.flatMap_cons, List.flatMap_nil, List.append_nil,
        List.append_assoc]
  rw [HttpRequest.toString, HttpRequest.dump, hversion, if_neg Bool.false_ne_true,
    List.append_assoc _ _ (HttpRequest.fields false req.headers), List.append_assoc _ _ (ite _ _ _)]
  rw [HttpRequest.connection] at hfields
  rw [hfields, headText]
  simp only [List.append_assoc, List.cons_append, List.nil_append]

/-- The empty line behind the fields. -/
theorem head_of_reads {text : List UInt8} (h : Reads uriRelaxed start .init text 13 req)
    (hsize : (text ++ crlf).length < 2 ^ 63) (queryStart : Nat) :
    ∃ final, HttpSession.Head uriRelaxed queryStart (text ++ crlf) final ∧ final.data = req := by
  obtain ⟨d, herror, hdata, hexec⟩ := h [] crlf (init uriRelaxed queryStart) hsize rfl rfl
  rw [List.nil_append, List.nil_append] at hexec
  have hcr : (machine uriRelaxed).next 13 13 = some (18, [.startField]) := by
    cases uriRelaxed <;> rfl
  have hlf : (machine uriRelaxed).next 18 10 = some (348, [.done]) := by
    cases uriRelaxed <;> rfl
  have hend : (machine uriRelaxed).exec (perform (text ++ crlf)) start 0 (text ++ crlf)
      (init uriRelaxed queryStart) =
        .ok (.stopped 348, text.length + 2, setFieldStart text.length d) := by
    have hlast : (machine uriRelaxed).exec (perform (text ++ crlf)) 18 (text.length + 1) [10]
        (setFieldStart text.length d) =
          .ok (.stopped 348, text.length + 2, setFieldStart text.length d) := by
      rw [Machine.exec, hlf]
      rfl
    rw [List.length_nil] at hexec
    rw [hexec, crlf, exec_step hcr rfl rfl]
    exact hlast
  have hlength : (text ++ crlf).length = text.length + 2 := List.length_append
  have hne : text ++ crlf ≠ [] := by
    intro hnil
    rw [hnil] at hlength
    cases hlength
  obtain ⟨hout, hcount⟩ := Machine.exec_outcome hend
  refine ⟨{ setFieldStart text.length d with cs := 348 }, ⟨?_, ?_, herror⟩, hdata⟩
  · exact Machine.accepts_of_outcome hout.symm (by omega)
  · have hcs : (init uriRelaxed queryStart).cs ≠ 0 := Nat.one_ne_zero
    rw [hlength]
    exact execute_of_exec hne hcs hend

/-- A hyphen is in no method of the grammar. -/
theorem execute_msearch (uriRelaxed : Bool) (rest : List UInt8) (queryStart : Nat) :
    ∃ parser n, (init uriRelaxed queryStart).execute (77 :: 45 :: rest) = .ok (parser, n) ∧
      parser.hasError = true := by
  have hfirst : (machine uriRelaxed).next start 77 = some (2, [.mark]) := by
    cases uriRelaxed <;> decide
  have hsecond : (machine uriRelaxed).next 2 45 = none := by
    cases uriRelaxed <;> decide
  have hcs : (init uriRelaxed queryStart).cs ≠ 0 := Nat.one_ne_zero
  have hexec : (machine uriRelaxed).exec (perform (77 :: 45 :: rest)) start 0 (77 :: 45 :: rest)
      (init uriRelaxed queryStart) = .ok (.failed, 1, setMark 0 (init uriRelaxed queryStart)) := by
    rw [exec_step hfirst rfl rfl, Machine.exec, hsecond]
    rfl
  exact ⟨_, _, execute_of_exec (List.cons_ne_nil _ _) hcs hexec, rfl⟩

end Head

end HttpRequestParser

/-! ## The round trip -/

namespace HttpRequest

/-- What is printed before the body. -/
def head (req : HttpRequest) : List UInt8 :=
  (req.toString false).take ((req.toString false).length - req.body.length)

/-- The requests agree, `connection` and `content-length` apart. -/
structure SameAs (req got : HttpRequest) : Prop where
  method_eq : got.method = req.method
  version_eq : got.version = req.version
  path_eq : got.path = req.path
  query_eq : got.query = req.query
  fragment_eq : got.fragment = req.fragment
  body_eq : got.body = req.body
  close_eq : got.close = req.close
  others_eq : got.others = req.others

variable {uriRelaxed : Bool} {req : HttpRequest}

open HttpRequestParser (headText parsed toString_eq)

theorem Printable.head_eq (h : req.Printable uriRelaxed) : req.head = headText req ++ crlf := by
  rw [head, toString_eq h, List.length_append, Nat.add_sub_cancel, List.take_left]

theorem Printable.toString_eq_head (h : req.Printable uriRelaxed) :
    req.toString false = req.head ++ req.body := by
  rw [h.head_eq, toString_eq h]

theorem withBody_parsed (req : HttpRequest) : HttpSession.withBody (parsed req) req.body =
    { parsed req with body := req.body, close := req.close } := by
  have hset : (if req.body = [] then parsed req else { parsed req with body := req.body }) =
      { parsed req with body := req.body } := by
    by_cases hbody : req.body = []
    · rw [if_pos hbody, hbody]
      rfl
    · rw [if_neg hbody]
  have hconnection : ({ parsed req with body := req.body }).getHeader (chars "Connection") [] =
      req.connection := by
    have hfind : ({ parsed req with body := req.body }).findHeader (chars "Connection") =
        some req.connection := find_connection req
    rw [getHeader, hfind, Option.getD_some]
  rw [HttpSession.withBody, hset, HttpSession.keepAlive, hconnection, connection]
  cases hclose : req.close with
  | true => rw [if_pos rfl, if_neg (by decide)]; rfl
  | false => rw [if_neg Bool.false_ne_true, if_pos rfl]

/-- The request that is received differs at most in its path. -/
theorem Printable.sameAs_iff (h : req.Printable uriRelaxed) :
    req.SameAs (HttpSession.withBody (parsed req) req.body) ↔ afterScheme req.path = none := by
  rw [withBody_parsed]
  constructor
  · intro hsame
    exact reportedPath_eq_iff.mp hsame.path_eq
  · intro hscheme
    exact ⟨rfl, rfl, reportedPath_eq_iff.mpr hscheme, rfl, rfl, rfl, rfl, h.others_received⟩

theorem Printable.getContentLength (h : req.Printable uriRelaxed)
    {lexicalCast : List UInt8 → Option Nat}
    (hcast : lexicalCast (decimal req.body.length) = some req.body.length)
    {final : HttpRequestParser} (hdata : final.data = parsed req) :
    final.getContentLength lexicalCast = req.body.length := by
  have hfind : (parsed req).findHeader (chars "Content-Length") =
      if req.body = [] then none else some (decimal req.body.length) := find_length h
  rw [HttpRequestParser.getContentLength, getHeaderAs, hdata, hfind]
  by_cases hbody : req.body = []
  · rw [if_pos hbody, hbody]
    rfl
  · rw [if_neg hbody]
    simp only [hcast, Option.getD_some]

end HttpRequest

namespace HttpSession

open HttpRequest

section RoundTrip

variable {lexicalCast : List UInt8 → Option Nat} {uriRelaxed : Bool}
  {queryStart bufferSize : Nat} {req : HttpRequest} {extra : List UInt8} {s s₁ : Stream} {len : Int}

theorem recvRequest_msearch (h : req.Printable uriRelaxed) (hsearch : req.method = .msearch)
    (hs : s.Reliable) (hread : s.read bufferSize = (len, req.head ++ extra, s₁)) :
    recvRequest lexicalCast bufferSize uriRelaxed queryStart s = .ok (none, s₁.close) := by
  have hname : req.method.toChars = 77 :: 45 :: chars "SEARCH" := by
    rw [hsearch]
    decide
  obtain ⟨rest, hhead⟩ : ∃ rest, req.head ++ extra = 77 :: 45 :: rest := by
    rw [h.head_eq, HttpRequestParser.headText, hname]
    exact ⟨_, rfl⟩
  obtain ⟨parser, n, hexec, herror⟩ :=
    HttpRequestParser.execute_msearch uriRelaxed rest queryStart
  obtain ⟨hlen, _, _, _⟩ := Stream.received_of_read hs hread
  rw [hhead, List.length_cons] at hlen
  rw [recvRequest, recvHeader, List.length_nil, Nat.sub_zero, hread, hhead]
  simp only [List.nil_append, hexec, herror, if_true]
  rw [if_neg (by omega)]

/-- A request that is printed and received with the whole head in the first read comes back as it
was, unless its method is `M-SEARCH`, its path starts with a scheme or its body does not fit. -/
theorem recvRequest_toString_iff (h : req.Printable uriRelaxed)
    (hcast : lexicalCast (decimal req.body.length) = some req.body.length) (hs : s.Reliable)
    (hin : s.input = req.toString false)
    (hread : s.read bufferSize = (len, req.head ++ extra, s₁)) :
    (∃ got s', recvRequest lexicalCast bufferSize uriRelaxed queryStart s = .ok (some got, s') ∧
      req.SameAs got) ↔
    req.method ≠ .msearch ∧ afterScheme req.path = none ∧
      (extra.length : Int) ≠ toInt bufferSize ∧
      (req.body = [] ∨ BodyFits req.body.length extra.length) := by
  by_cases hsearch : req.method = .msearch
  · refine iff_of_false ?_ (fun hall => hall.1 hsearch)
    rintro ⟨got, s', hresult, _⟩
    rw [recvRequest_msearch h hsearch hs hread] at hresult
    cases hresult
  · obtain ⟨_, _, hmax, _⟩ := Stream.received_of_read hs hread
    rw [List.length_append, h.head_eq] at hmax
    obtain ⟨final, hhead, hdata⟩ := HttpRequestParser.head_of_reads
      (HttpRequestParser.reads_headText h hsearch) (by omega) queryStart
    rw [← h.head_eq] at hhead
    have hwhole : s.input = req.head ++ (req.body ++ []) := by
      rw [hin, h.toString_eq_head, List.append_nil]
    have hlength := h.getContentLength hcast hdata
    rcases hhead.recvRequest_body hlength hs hwhole hread with
      ⟨hfull, hfits, s', hresult, _⟩ | ⟨hnot, hnone⟩
    · rw [hdata] at hresult
      rw [hresult]
      constructor
      · rintro ⟨got, _, heq, hsame⟩
        cases heq
        exact ⟨hsearch, h.sameAs_iff.mp hsame, hfull, hfits⟩
      · intro hall
        exact ⟨_, s', rfl, h.sameAs_iff.mpr hall.2.1⟩
    · refine iff_of_false ?_ (fun hall => hnot hall.2.2)
      rintro ⟨got, s', hresult, _⟩
      exact hnone got s' hresult

end RoundTrip

/-! ## Two requests -/

/-- A search for devices, and what is printed of it. -/
def searchRequest : HttpRequest := { HttpRequest.init with method := .msearch }

theorem searchRequest_printable : searchRequest.Printable false where
  method_ne := by decide
  version_eq := .inl rfl
  path := ⟨33, some (chars "/"), [.requestPath, .requestUri], by rfl, by rfl⟩
  query := ⟨29, none, [.startQuery, .queryString, .requestUri], by rfl, by rfl⟩
  fragment := ⟨20, none, [.mark, .fragment], by rfl, by rfl⟩
  field _ h := absurd h List.not_mem_nil
  sorted := List.Pairwise.nil
  no_length := by decide

/-- It is printed and then refused. -/
theorem not_recvRequest_toString_msearch :
    searchRequest.Printable false ∧ castDigit (decimal searchRequest.body.length) = some 0 ∧
    (atOnce (searchRequest.toString false)).Reliable ∧
    ((atOnce (searchRequest.toString false)).read 4096).2.1 = searchRequest.head ++ [] ∧
    ¬∃ got s', recvRequest castDigit 4096 false 0 (atOnce (searchRequest.toString false)) =
      .ok (some got, s') ∧ searchRequest.SameAs got := by
  have hnone : (recvRequest castDigit 4096 false 0
      (atOnce (searchRequest.toString false))).toOption.map Prod.fst = some none := by
    decide
  refine ⟨searchRequest_printable, by decide, atOnce_reliable _, by decide, ?_⟩
  rintro ⟨got, s', hresult, _⟩
  rw [hresult] at hnone
  cases hnone

/-- A request with all its parts. -/
def fullRequest : HttpRequest where
  method := .post
  version := 0x10
  close := false
  path := chars "/a"
  query := chars "b=c"
  fragment := chars "d"
  body := chars "e"
  headers := [(chars "Host", chars "f"), (chars "X-Key", [])]

set_option maxRecDepth 2000 in
theorem fullRequest_printable : fullRequest.Printable false where
  method_ne := by decide
  version_eq := .inr rfl
  path := ⟨26, some (chars "/a"), [.requestPath, .requestUri], by rfl, by rfl⟩
  query := ⟨30, some (chars "b=c"), [.queryString, .requestUri], by rfl, by rfl⟩
  fragment := ⟨21, some (chars "d"), [.fragment], by rfl, by rfl⟩
  field := by
    intro h hmem
    rcases List.mem_cons.mp hmem with rfl | hmem
    · exact ⟨by decide, by decide, by decide, by decide⟩
    · rw [List.mem_singleton] at hmem
      subst hmem
      exact ⟨by decide, by decide, by decide, by decide⟩
  sorted := by
    rw [OrderedMap.Sorted]
    decide
  no_length := by decide

theorem recvRequest_toString_full :
    ∃ got s', recvRequest castDigit 4096 false 0 (atOnce (fullRequest.toString false)) =
      .ok (some got, s') ∧ fullRequest.SameAs got := by
  have hread : (atOnce (fullRequest.toString false)).read 4096 =
      (((fullRequest.toString false).length : Int), fullRequest.head ++ chars "e",
        ((atOnce (fullRequest.toString false)).read 4096).2.2) := by
    rfl
  exact (recvRequest_toString_iff fullRequest_printable (by rfl) (atOnce_reliable _)
    rfl hread).mpr (by decide)

end HttpSession

end CxkFramework
