import CxkFramework.HttpExchange
import CxkFramework.Uri
import CxkFramework.WebSocketServer

/-!
# A WebSocket connection that is created

`WSConnection::Create` from the request on: what it asks for, what `WSSession::handleShake` makes of
the printed request, and what the client makes of the answer.
-/

namespace CxkFramework.WebSocket

open HttpParser Scanner
open WebSocketHandshake (strcasecmp switching answer guid handleShake)

/-! ## The code -/

/-- `random_string`, with `rand` for what `rand()` returns. The size of the array counts the zero
behind the characters. -/
def random_string (rand : Nat → Nat) (len : Nat) : List UInt8 :=
  let CHARS := chars "0123456789abcdefghijklmnopqrstuvwxyzABCDEFGHIJKLMNOPQRSTUVWXYZ" ++ [0]
  (List.range len).map fun i => CHARS.getD (rand i % CHARS.length) 0

/-- What the loop over the headers knows. -/
structure Building where
  req : HttpRequest
  has_host : Bool
  has_conn : Bool

def Building.header (b : Building) (i : List UInt8 × List UInt8) : Building :=
  let b :=
    if strcasecmp i.1 (chars "connection") then { b with has_conn := true }
    else if !b.has_host && strcasecmp i.1 (chars "host") then { b with has_host := !i.2.isEmpty }
    else b
  { b with req := b.req.setHeader i.1 i.2 }

/-- The request of `Create`. -/
def createRequest (uri : Uri) (headers : List (List UInt8 × List UInt8)) (rand : Nat → Nat) :
    HttpRequest :=
  let req := { HttpRequest.init with
    path := uri.getPath, query := uri.query, fragment := uri.fragment, method := .get }
  let b := headers.foldl Building.header { req, has_host := false, has_conn := false }
  let req := if b.has_conn then b.req else b.req.setHeader (chars "connection") (chars "Upgrade")
  let req := req.setHeader (chars "Upgrade") (chars "websocket")
  let req := req.setHeader (chars "Sec-webSocket-Version") (chars "13")
  let req := req.setHeader (chars "Sec-webSocket-Key")
    (Base64.base64encode (random_string rand 16))
  if b.has_host then req else req.setHeader (chars "Host") uri.host

/-! ## What it asks for -/

section Request

variable {uri : Uri} {headers : List (List UInt8 × List UInt8)} {rand : Nat → Nat}

/-- A header for the connection, and a host that is not empty. -/
def hasConn (headers : List (List UInt8 × List UInt8)) : Bool :=
  headers.any fun i => strcasecmp i.1 (chars "connection")

def hasHost (headers : List (List UInt8 × List UInt8)) : Bool :=
  headers.any fun i => strcasecmp i.1 (chars "host") && !i.2.isEmpty

/-- The headers of the caller, and one for the connection. -/
def leading (headers : List (List UInt8 × List UInt8)) : List (List UInt8 × List UInt8) :=
  headers ++ if hasConn headers then [] else [(chars "connection", chars "Upgrade")]

/-- What may come last. -/
def hostOf (uri : Uri) (headers : List (List UInt8 × List UInt8)) :
    List (List UInt8 × List UInt8) :=
  if hasHost headers then [] else [(chars "Host", uri.host)]

def keyOf (rand : Nat → Nat) : List UInt8 := Base64.base64encode (random_string rand 16)

/-- The headers in the order in which they are set. -/
def asked (uri : Uri) (headers : List (List UInt8 × List UInt8)) (rand : Nat → Nat) :
    List (List UInt8 × List UInt8) :=
  leading headers ++ (chars "Upgrade", chars "websocket") ::
    (chars "Sec-webSocket-Version", chars "13") :: (chars "Sec-webSocket-Key", keyOf rand) ::
    hostOf uri headers

theorem strcasecmp_iff {a b : List UInt8} : strcasecmp a b = true ↔ caseFolded a = caseFolded b :=
  beq_iff_eq

theorem foldl_header (b : Building) :
    headers.foldl Building.header b =
      { req := { b.req with
          headers := OrderedMap.insertAll caseInsensitiveLess headers b.req.headers }
        has_host := b.has_host || hasHost headers
        has_conn := b.has_conn || hasConn headers } := by
  induction headers generalizing b with
  | nil => simp only [List.foldl_nil, hasHost, hasConn, List.any_nil, Bool.or_false,
      OrderedMap.insertAll]
  | cons i headers ih =>
    have hnot : strcasecmp i.1 (chars "connection") = true →
        strcasecmp i.1 (chars "host") = false := by
      intro hconn
      rw [Bool.eq_false_iff]
      intro hhost
      rw [strcasecmp_iff] at hconn hhost
      exact absurd (hconn.symm.trans hhost) (by decide)
    have hone : b.header i =
        { req := { b.req with
            headers := OrderedMap.insert caseInsensitiveLess i.1 i.2 b.req.headers }
          has_host := b.has_host || (strcasecmp i.1 (chars "host") && !i.2.isEmpty)
          has_conn := b.has_conn || strcasecmp i.1 (chars "connection") } := by
      rw [Building.header, HttpRequest.setHeader, HttpRequest.insertHeader_eq]
      cases hconn : strcasecmp i.1 (chars "connection") with
      | true => simp [hnot hconn]
      | false =>
        cases hhost : strcasecmp i.1 (chars "host") with
        | true => cases hhas : b.has_host with
          | true => simp [hhas]
          | false => simp
        | false => simp
    rw [List.foldl_cons, hone, ih]
    simp only [OrderedMap.insertAll, hasHost, hasConn, List.any_cons, Bool.or_assoc]

theorem createRequest_eq : createRequest uri headers rand =
    { HttpRequest.init with
      path := uri.getPath, query := uri.query, fragment := uri.fragment, method := .get
      headers := OrderedMap.insertAll caseInsensitiveLess (asked uri headers rand) [] } := by
  rw [createRequest, foldl_header, asked, OrderedMap.insertAll_append, leading,
    OrderedMap.insertAll_append, hostOf, keyOf]
  simp only [Bool.false_or, HttpRequest.setHeader, HttpRequest.insertHeader_eq]
  cases hasConn headers with
  | true =>
    cases hasHost headers with
    | true => rfl
    | false => rfl
  | false =>
    cases hasHost headers with
    | true => rfl
    | false => rfl

theorem same_eq (a b : List UInt8) : OrderedMap.same caseInsensitiveLess a b = strcasecmp a b := by
  rw [Bool.eq_iff_iff, same_caseInsensitiveLess, strcasecmp_iff]

/-- Nothing behind these headers is for the key. -/
theorem other_of_fixed {key : List UInt8} {fixed : List (List UInt8 × List UInt8)}
    (hfixed : ∀ e ∈ fixed, strcasecmp e.1 key = false)
    (hhost : strcasecmp (chars "Host") key = false) :
    ∀ e ∈ fixed ++ hostOf uri headers,
      OrderedMap.same caseInsensitiveLess e.1 key = false := by
  intro e he
  rw [same_eq]
  rcases List.mem_append.mp he with he | he
  · exact hfixed e he
  · rw [hostOf] at he
    split at he
    · cases he
    · rw [List.mem_singleton] at he
      rw [he]
      exact hhost

/-- A header that no later one replaces. -/
theorem findHeader_last {k v key : List UInt8} (pre fixed : List (List UInt8 × List UInt8))
    (hasked : asked uri headers rand = pre ++ (k, v) :: (fixed ++ hostOf uri headers))
    (hkey : strcasecmp k key = true) (hfixed : ∀ e ∈ fixed, strcasecmp e.1 key = false)
    (hhost : strcasecmp (chars "Host") key = false) :
    (createRequest uri headers rand).findHeader key = some v := by
  rw [createRequest_eq, hasked]
  exact OrderedMap.find_insertAll_last strictWeak_caseInsensitiveLess
    ((same_eq k key).trans hkey) (other_of_fixed hfixed hhost)

theorem findHeader_upgrade : (createRequest uri headers rand).findHeader (chars "Upgrade") =
    some (chars "websocket") := by
  refine findHeader_last (leading headers) [(chars "Sec-webSocket-Version", chars "13"),
    (chars "Sec-webSocket-Key", keyOf rand)] rfl (by decide) ?_ (by decide)
  simp only [List.forall_mem_cons]
  exact ⟨by decide, by decide, fun e he => absurd he List.not_mem_nil⟩

theorem findHeader_version :
    (createRequest uri headers rand).findHeader (chars "Sec-webSocket-Version") =
      some (chars "13") := by
  have hasked : asked uri headers rand =
      (leading headers ++ [(chars "Upgrade", chars "websocket")]) ++
        (chars "Sec-webSocket-Version", chars "13") ::
          ([(chars "Sec-webSocket-Key", keyOf rand)] ++ hostOf uri headers) := by
    rw [asked, List.append_assoc]
    rfl
  refine findHeader_last _ _ hasked (by decide) ?_ (by decide)
  simp only [List.forall_mem_cons]
  exact ⟨by decide, fun e he => absurd he List.not_mem_nil⟩

/-- The name is spelled in another way by the server. -/
theorem findHeader_key :
    (createRequest uri headers rand).findHeader (chars "Sec-WebSocket-Key") =
      some (keyOf rand) := by
  have hasked : asked uri headers rand =
      (leading headers ++ [(chars "Upgrade", chars "websocket"),
        (chars "Sec-webSocket-Version", chars "13")]) ++
        (chars "Sec-webSocket-Key", keyOf rand) :: ([] ++ hostOf uri headers) := by
    rw [asked, List.append_assoc]
    rfl
  exact findHeader_last _ [] hasked (by decide) (fun e he => absurd he List.not_mem_nil) (by decide)

/-- The connection that is asked for. -/
def connectionOf (headers : List (List UInt8 × List UInt8)) : List UInt8 :=
  ((headers.reverse.find? fun i => strcasecmp i.1 (chars "connection")).map Prod.snd).getD
    (chars "Upgrade")

theorem findHeader_connection :
    (createRequest uri headers rand).findHeader (chars "Connection") =
      some (connectionOf headers) := by
  have hother := @other_of_fixed uri headers (chars "Connection")
    [(chars "Upgrade", chars "websocket"), (chars "Sec-webSocket-Version", chars "13"),
      (chars "Sec-webSocket-Key", keyOf rand)] (by
        simp only [List.forall_mem_cons]
        exact ⟨by decide, by decide, by decide, fun e he => absurd he List.not_mem_nil⟩) (by decide)
  have hname : ∀ k, OrderedMap.same caseInsensitiveLess k (chars "Connection") =
      strcasecmp k (chars "connection") := by
    intro k
    rw [same_eq, strcasecmp, strcasecmp, HttpRequest.caseFolded_connection]
  have hfind : (createRequest uri headers rand).findHeader (chars "Connection") =
      OrderedMap.find caseInsensitiveLess (chars "Connection")
        (OrderedMap.insertAll caseInsensitiveLess (leading headers) []) := by
    rw [createRequest_eq, asked]
    refine Eq.trans ?_ (OrderedMap.find_insertAll_other strictWeak_caseInsensitiveLess hother)
    rw [← OrderedMap.insertAll_append]
    rfl
  rw [hfind, leading, OrderedMap.insertAll_append, connectionOf]
  cases hconn : hasConn headers with
  | true =>
    obtain ⟨i, hi, hsame⟩ := List.any_eq_true.mp hconn
    rw [if_pos rfl, OrderedMap.insertAll,
      OrderedMap.find_insertAll strictWeak_caseInsensitiveLess]
    simp only [hname]
    cases hlast : headers.reverse.find? fun i => strcasecmp i.1 (chars "connection") with
    | none =>
      have hnone := List.find?_eq_none.mp hlast i (List.mem_reverse.mpr hi)
      exact absurd hsame hnone
    | some e => rfl
  | false =>
    have hnone : (headers.reverse.find? fun i => strcasecmp i.1 (chars "connection")) = none := by
      refine List.find?_eq_none.mpr fun e he hsame => ?_
      rw [hasConn, List.any_eq_false] at hconn
      exact hconn e (List.mem_reverse.mp he) hsame
    rw [if_neg Bool.false_ne_true, hnone, OrderedMap.insertAll, OrderedMap.insertAll]
    exact OrderedMap.find_insert strictWeak_caseInsensitiveLess (by decide)

/-- A value that the parser takes apart again. -/
def IsValue (value : List UInt8) : Prop := IsField (chars "Host") value

/-- What can be sent: the parts of the address and the headers as the grammar allows them, and no
length. -/
structure Sendable (uriRelaxed : Bool) (uri : Uri) (headers : List (List UInt8 × List UInt8)) :
    Prop where
  path : IsPath uriRelaxed uri.getPath
  query : IsQuery uriRelaxed uri.query
  fragment : IsFragment uriRelaxed uri.fragment
  host : IsValue uri.host
  path_eq : afterScheme uri.getPath = none
  field : ∀ h ∈ headers, IsField h.1 h.2
  no_length : ∀ h ∈ headers, caseFolded h.1 ≠ caseFolded (chars "content-length")

theorem keyOf_ne_nil : keyOf rand ≠ [] := by
  have hdecodes := Base64.decodes_base64encode (random_string rand 16)
  intro hnil
  have hlength := congrArg List.length (hdecodes.ne_nil.mpr hnil)
  rw [random_string, List.length_map, List.length_range] at hlength
  cases hlength

theorem isValue_keyOf : IsValue (keyOf rand) := by
  have hletter : ∀ b, Base64.IsBase64 b ∨ b = 61 → isContent b = true ∧ b ≠ 32 := by
    have hall : ∀ i : Fin 256, Base64.IsBase64 (UInt8.ofNat i) ∨ UInt8.ofNat i = 61 →
        isContent (UInt8.ofNat i) = true ∧ UInt8.ofNat i ≠ 32 := by
      set_option maxRecDepth 1000 in decide
    intro b hb
    have hbyte := hall ⟨b.toNat, b.toNat_lt⟩
    simp only [UInt8.ofNat_toNat] at hbyte
    exact hbyte hb
  obtain ⟨-, body, pad, htext, -, hbody⟩ :=
    (Base64.decodes_base64encode (random_string rand 16)).wellFormed
  have hmem : ∀ b ∈ keyOf rand, isContent b = true ∧ b ≠ 32 := by
    intro b hb
    rw [keyOf, htext] at hb
    rcases List.mem_append.mp hb with hb | hb
    · exact hletter b (.inl (hbody b hb))
    · exact hletter b (.inr (List.eq_of_mem_replicate hb))
  refine ⟨by decide, List.all_eq_true.mp (by decide), fun b hb => (hmem b hb).1, ?_⟩
  intro hhead
  exact (hmem 32 (List.mem_of_mem_head? hhead)).2 rfl

/-- A name of a header that is not for a length. -/
def IsName (name : List UInt8) : Prop :=
  IsField name [] ∧ caseFolded name ≠ caseFolded (chars "content-length")

theorem isField_iff {name value : List UInt8} :
    IsField name value ↔ IsField name [] ∧ IsValue value := by
  have hhost : ∀ b ∈ chars "Host", isToken b = true := List.all_eq_true.mp (by decide)
  have hnil : ([] : List UInt8).head? ≠ some 32 := by decide
  constructor
  · intro h
    exact ⟨⟨h.name_ne, h.name_token, fun b hb => absurd hb List.not_mem_nil, hnil⟩,
      ⟨by decide, hhost, h.value_content, h.value_start⟩⟩
  · rintro ⟨hname, hvalue⟩
    exact ⟨hname.name_ne, hname.name_token, hvalue.value_content, hvalue.value_start⟩

theorem isName_chars {text : String} (hne : chars text ≠ [])
    (htoken : (chars text).all isToken = true)
    (hlength : caseFolded (chars text) ≠ caseFolded (chars "content-length")) :
    IsName (chars text) :=
  ⟨⟨hne, List.all_eq_true.mp htoken, fun b hb => absurd hb List.not_mem_nil, by decide⟩, hlength⟩

theorem isValue_chars {text : String} (hcontent : (chars text).all isContent = true)
    (hstart : (chars text).head? ≠ some 32) : IsValue (chars text) :=
  ⟨by decide, List.all_eq_true.mp (by decide), List.all_eq_true.mp hcontent, hstart⟩

theorem asked_names {uriRelaxed : Bool} (h : Sendable uriRelaxed uri headers) :
    ∀ e ∈ asked uri headers rand, IsName e.1 ∧ IsValue e.2 := by
  intro e he
  rw [asked, leading] at he
  rcases List.mem_append.mp he with he | he
  · rcases List.mem_append.mp he with he | he
    · obtain ⟨hname, hvalue⟩ := isField_iff.mp (h.field e he)
      exact ⟨⟨hname, h.no_length e he⟩, hvalue⟩
    · split at he
      · cases he
      · rw [List.mem_singleton] at he
        subst he
        exact ⟨isName_chars (by decide) (by decide) (by decide),
          isValue_chars (by decide) (by decide)⟩
  · rcases List.mem_cons.mp he with rfl | he
    · exact ⟨isName_chars (by decide) (by decide) (by decide),
        isValue_chars (by decide) (by decide)⟩
    · rcases List.mem_cons.mp he with rfl | he
      · exact ⟨isName_chars (by decide) (by decide) (by decide),
          isValue_chars (by decide) (by decide)⟩
      · rcases List.mem_cons.mp he with rfl | he
        · exact ⟨isName_chars (by decide) (by decide) (by decide), isValue_keyOf⟩
        · rw [hostOf] at he
          split at he
          · cases he
          · rw [List.mem_singleton] at he
            subst he
            exact ⟨isName_chars (by decide) (by decide) (by decide), h.host⟩

/-- Whatever the headers, the request can be printed. -/
theorem printable_createRequest {uriRelaxed : Bool} (h : Sendable uriRelaxed uri headers) :
    (createRequest uri headers rand).Printable uriRelaxed := by
  have hall : ∀ e ∈ (createRequest uri headers rand).headers, IsName e.1 ∧ IsValue e.2 := by
    rw [createRequest_eq]
    exact OrderedMap.forall_insertAll (fun e he => absurd he List.not_mem_nil) (asked_names h)
  refine ⟨?_, ?_, ?_, ?_, ?_, fun e he => isField_iff.mpr ⟨(hall e he).1.1, (hall e he).2⟩, ?_,
    fun e he => (hall e he).1.2⟩
  · rw [createRequest_eq]
    intro hmethod
    cases hmethod
  · rw [createRequest_eq]
    exact .inl rfl
  · rw [createRequest_eq]
    exact h.path
  · rw [createRequest_eq]
    exact h.query
  · rw [createRequest_eq]
    exact h.fragment
  · rw [createRequest_eq]
    exact OrderedMap.Sorted.insertAll strictWeak_caseInsensitiveLess .nil _

end Request

/-! ## What the server makes of it -/

section Shake

variable {uri : Uri} {headers : List (List UInt8 × List UInt8)} {rand : Nat → Nat}
  {uriRelaxed : Bool} {req : HttpRequest}

/-- The request line and all headers of the map. -/
def requestText (req : HttpRequest) : List UInt8 :=
  (req.method.toChars ++ [32])
    ++ (req.path ++ ((if req.query = [] then [] else [63]) ++ req.query)
      ++ ((if req.fragment = [] then [] else [35]) ++ req.fragment) ++ [32])
    ++ (chars "HTTP/1.1" ++ crlf)
    ++ req.headers.flatMap fun e => HttpRequest.field e.1 e.2

theorem toString_requestText (hversion : req.version = 0x11) (hbody : req.body = []) :
    req.toString true = requestText req ++ crlf := by
  have htext : chars " HTTP/" ++ decimal (req.version >>> 4).toNat ++ chars "."
      ++ decimal (req.version &&& 0x0F).toNat = 32 :: chars "HTTP/1.1" := by
    rw [hversion]
    decide
  have hall : (req.headers.filter fun h =>
      true || caseFolded h.1 != caseFolded (chars "connection")) = req.headers :=
    List.filter_eq_self.mpr fun e _ => Bool.true_or _
  rw [HttpRequest.toString, HttpRequest.dump, htext, if_pos rfl, if_pos hbody, HttpRequest.fields,
    hall, requestText]
  simp only [List.append_assoc, List.cons_append, List.nil_append]

theorem reads_requestText (h : req.Printable uriRelaxed) (hversion : req.version = 0x11)
    (hmethod : req.method = .get) (hbody : req.body = []) :
    HttpRequestParser.Reads uriRelaxed start .init (requestText req) 13
      { req with path := reportedPath req.path, close := true } := by
  have hname : HttpRequestParser.Reads uriRelaxed start .init (req.method.toChars ++ [32]) 3
      { HttpRequest.init with method := req.method } :=
    HttpRequestParser.reads_method_name h.method_ne (by rw [hmethod]; decide)
  have hline := (hname.append (HttpRequestParser.reads_target h.path h.query h.fragment rfl
    rfl)).append (HttpRequestParser.reads_version (.inl ⟨rfl, rfl⟩))
  have hall := hline.append (HttpRequestParser.reads_fields h.field)
  have hsorted : OrderedMap.insertAll caseInsensitiveLess req.headers [] = req.headers :=
    OrderedMap.insertAll_sorted strictWeak_caseInsensitiveLess h.sorted
  have hreq : ({ req with path := reportedPath req.path, close := true } : HttpRequest) =
      { HttpRequest.init with
        method := req.method, path := reportedPath req.path, query := req.query,
        fragment := req.fragment, version := 0x11
        headers := OrderedMap.insertAll caseInsensitiveLess req.headers [] } := by
    rw [hsorted, ← hversion, HttpRequest.init, ← hbody]
  rw [hreq]
  exact hall

theorem findHeader_length (h : req.Printable uriRelaxed) :
    req.findHeader (chars "Content-Length") = none := by
  have hfind : (req.headers.find? fun e =>
      OrderedMap.same caseInsensitiveLess e.1 (chars "Content-Length")) = none := by
    refine List.find?_eq_none.mpr fun e he hsame => h.no_length e he ?_
    rw [same_caseInsensitiveLess.mp hsame, HttpRequest.caseFolded_length]
  exact congrArg (Option.map Prod.snd) hfind

/-- The request alone in the first read. -/
theorem recvRequest_created (h : Sendable uriRelaxed uri headers) {s s₁ : Stream} {len : Int}
    {lexicalCast : List UInt8 → Option Nat} {bufferSize queryStart : Nat} (hs : s.Reliable)
    (hread : s.read bufferSize = (len, (createRequest uri headers rand).toString true, s₁))
    (hbuffer : bufferSize < 2 ^ 31) :
    HttpSession.recvRequest lexicalCast bufferSize uriRelaxed queryStart s =
      .ok (some (HttpSession.keepAlive (createRequest uri headers rand)), s₁) := by
  have hprintable := @printable_createRequest uri headers rand uriRelaxed h
  have hmade := @createRequest_eq uri headers rand
  have hversion : (createRequest uri headers rand).version = 0x11 := by rw [hmade]; rfl
  have hmethod : (createRequest uri headers rand).method = .get := by rw [hmade]
  have hbody : (createRequest uri headers rand).body = [] := by rw [hmade]; rfl
  have hsame : { createRequest uri headers rand with
      path := reportedPath (createRequest uri headers rand).path, close := true } =
        createRequest uri headers rand := by
    rw [hmade]
    dsimp only
    rw [reportedPath_eq_iff.mpr h.path_eq]
    rfl
  generalize createRequest uri headers rand = req at *
  have hreads := reads_requestText hprintable hversion hmethod hbody
  rw [hsame] at hreads
  rw [toString_requestText hversion hbody] at hread
  obtain ⟨hlen, _, hmax, _⟩ := Stream.received_of_read hs hread
  obtain ⟨final, hhead, hdata⟩ := HttpRequestParser.head_of_reads hreads (by omega) queryStart
  have hlength : final.getContentLength lexicalCast = 0 := by
    rw [HttpRequestParser.getContentLength, HttpRequest.getHeaderAs, hdata,
      findHeader_length hprintable]
  have hpos : 0 < (requestText req ++ crlf).length := by
    rw [List.length_append]
    exact Nat.lt_add_left _ Nat.two_pos
  have hfull : (([] : List UInt8).length : Int) ≠ toInt bufferSize := by
    rw [Stream.toInt_of_lt (by omega) (by omega), List.length_nil]
    omega
  have hall : s.read bufferSize = (len, requestText req ++ crlf ++ [], s₁) := by
    rw [List.append_nil]
    exact hread
  rw [hhead.recvRequest_whole hs hall, if_neg hfull, hlength, HttpSession.recvBody, if_pos rfl,
    hdata]

variable {sha1sum : List UInt8 → List UInt8} {castVersion : List UInt8 → Option Int}

/-- Only the connection of the caller can be refused. -/
theorem answer_created (hcast : castVersion (chars "13") = some 13) {v : List UInt8}
    (hv : Base64.base64decode (sha1sum (keyOf rand ++ guid)) = some v)
    (hheaders : req.headers = (createRequest uri headers rand).headers) :
    answer sha1sum castVersion req =
      if strcasecmp (connectionOf headers) (chars "Upgrade") then some (switching req v)
      else none := by
  have hfind : ∀ key, req.findHeader key = (createRequest uri headers rand).findHeader key := by
    intro key
    rw [HttpRequest.findHeader, HttpRequest.findHeader, hheaders]
  have hwebsocket : strcasecmp (chars "websocket") (chars "websocket") = true := by decide
  rw [answer]
  simp only [HttpRequest.getHeader, WebSocketHandshake.getHeaderAs, hfind, findHeader_upgrade,
    findHeader_connection, findHeader_version, findHeader_key, Option.getD_some, hcast, hv,
    hwebsocket, if_neg keyOf_ne_nil, Option.map_some, Bool.not_true, Bool.false_eq_true, if_false,
    ne_eq, not_true_eq_false]
  cases strcasecmp (connectionOf headers) (chars "Upgrade") with
  | true => rfl
  | false => rfl

theorem keepAlive_created (h : strcasecmp (connectionOf headers) (chars "Upgrade") = true) :
    HttpSession.keepAlive (createRequest uri headers rand) = createRequest uri headers rand := by
  rw [HttpSession.keepAlive, HttpRequest.getHeader, findHeader_connection, Option.getD_some,
    strcasecmp_iff.mp h, if_neg (by decide)]

/-- The handshake with the request of `Create`. -/
theorem handleShake_created (h : Sendable uriRelaxed uri headers) {s s₁ : Stream} {len : Int}
    {castLength : List UInt8 → Option Nat} {bufferSize queryStart rounds : Nat} (hs : s.Reliable)
    (hread : s.read bufferSize = (len, (createRequest uri headers rand).toString true, s₁))
    (hbuffer : bufferSize < 2 ^ 31) (hcast : castVersion (chars "13") = some 13) {v : List UInt8}
    (hv : Base64.base64decode (sha1sum (keyOf rand ++ guid)) = some v)
    (hsize : ((switching (createRequest uri headers rand) v).toString true true).length < 2 ^ 64)
    (hrounds : ((switching (createRequest uri headers rand) v).toString true true).length <
      rounds) :
    ∃ s', handleShake sha1sum castVersion castLength bufferSize uriRelaxed queryStart rounds s =
        (if strcasecmp (connectionOf headers) (chars "Upgrade") then
          some (some (createRequest uri headers rand,
            switching (createRequest uri headers rand) v), s')
        else some (none, s₁)) ∧
      s₁.Sent ((switching (createRequest uri headers rand) v).toString true true) s' := by
  have hrecv := @recvRequest_created uri headers rand uriRelaxed h s s₁ len castLength bufferSize
    queryStart hs hread hbuffer
  obtain ⟨_, hrec, _, _⟩ := Stream.received_of_read hs hread
  have hclose : (createRequest uri headers rand).close = true := by
    rw [createRequest_eq]
    rfl
  obtain ⟨s', hwrite, hsent⟩ := Stream.writeFixSize_reliable (hrec.reliable hs) hsize hrounds
  refine ⟨s', ?_, hsent⟩
  cases hconn : strcasecmp (connectionOf headers) (chars "Upgrade") with
  | true =>
    have hanswer := @answer_created uri headers rand (createRequest uri headers rand) sha1sum
      castVersion hcast v hv rfl
    rw [hconn, if_pos rfl] at hanswer
    rw [keepAlive_created hconn] at hrecv
    simp only [handleShake, hrecv, hanswer, HttpSession.sendResponse, hclose, hwrite, if_true]
  | false =>
    have hheaders : (HttpSession.keepAlive (createRequest uri headers rand)).headers =
        (createRequest uri headers rand).headers := by
      rw [HttpSession.keepAlive]
      split
      · rfl
      · rfl
    have hanswer := @answer_created uri headers rand _ sha1sum castVersion hcast v hv hheaders
    rw [hconn, if_neg Bool.false_ne_true] at hanswer
    simp only [handleShake, hrecv, hanswer, Bool.false_eq_true, if_false]

end Shake

/-! ## What the client makes of the answer -/

section Answer

open HttpResponseParser (IsLine)

variable {error : Nat} {req : HttpRequest} {rsp : HttpResponse} {v : List UInt8}

def acceptName : List UInt8 := chars "Sec-WebSocket-Accept"

/-- The fields of the answer in the order of the map. -/
def answered (v : List UInt8) : List (List UInt8 × List UInt8) :=
  [(chars "Connection", chars "Upgrade"), (acceptName, v), (chars "Upgrade", chars "websocket")]

/-- The status line and all headers of the map. -/
def answerText (v : List UInt8) : List UInt8 :=
  (chars "HTTP/1.1" ++ [32]) ++ (decimal ((101 : Int) % 2 ^ 32).toNat ++ [32])
    ++ (chars "Web Socket Protocol Handshake" ++ crlf)
    ++ (answered v).flatMap fun e => HttpRequest.field e.1 e.2

theorem toString_answerText (hversion : req.version = 0x11) :
    (switching req v).toString true true = answerText v ++ crlf := by
  have htext : chars "HTTP/" ++ decimal ((switching req v).version >>> 4).toNat ++ chars "."
      ++ decimal ((switching req v).version &&& 0x0F).toNat = chars "HTTP/1.1" := by
    have hsame : (switching req v).version = req.version := rfl
    rw [hsame, hversion]
    decide
  have hreason : (switching req v).reason = chars "Web Socket Protocol Handshake" := rfl
  have hbody : (switching req v).body = [] := rfl
  have hall : ((switching req v).headers.filter fun h =>
      true || caseFolded h.1 != caseFolded (chars "connection")) = answered v :=
    List.filter_eq_self.mpr fun e _ => Bool.true_or _
  have hstatus : (switching req v).status = 101 := rfl
  rw [HttpResponse.toString, HttpResponse.dump, htext, if_pos rfl, if_pos hbody,
    HttpRequest.fields, hall, hreason, if_neg (by decide), hstatus, answerText]
  simp only [List.append_assoc, List.cons_append, List.nil_append]

/-- The line for the connection, which the grammar treats on its own. -/
theorem reads_connection_upgrade :
    HttpClientParser.machine.Reads HttpResponseParser.perform (2 ^ 63) 20
      (fun _ => HttpResponseParser.Holds error rsp)
      (HttpRequest.field (chars "Connection") (chars "Upgrade")) 20
      (fun _ => HttpResponseParser.Holds error
        (rsp.setHeader (chars "Connection") (chars "Upgrade"))) := by
  have hname : HttpClientParser.machine.Reads HttpResponseParser.perform (2 ^ 63) 20
      (fun _ => HttpResponseParser.Holds error rsp) (chars "Connection" ++ [58, 32]) 35
      (fun front => HttpResponseParser.Named error rsp (chars "Connection") front) :=
    HttpResponseParser.reads_name (.inl rfl) (by rfl : HttpClientParser.machine.next 20 67 = _)
      (by rfl : HttpClientParser.machine.glide 25 (chars "onnection") = some 34) rfl rfl
  have hne : chars "Connection" ≠ [] := by decide
  have hall := hname.append (HttpResponseParser.reads_value hne
    (by rfl : HttpClientParser.machine.next 35 85 = _)
    (by rfl : HttpClientParser.machine.glide 23 (chars "pgrade") = some 23) rfl (.inl rfl) rfl)
  rw [List.append_assoc] at hall
  exact hall

theorem isLine_upgrade : IsLine (chars "Upgrade") (chars "websocket") where
  name_ne := by decide
  name_token := List.all_eq_true.mp (by decide)
  name_other := by decide
  value_line := List.all_iff_forall_prop.mp (by decide)
  value_start := by
    have hhead : (chars "websocket").head? = some 119 := by rfl
    intro b hb
    rw [hhead] at hb
    cases hb
    decide

theorem reads_answerText (hversion : req.version = 0x11) (hv : IsLine acceptName v) :
    HttpClientParser.machine.Reads HttpResponseParser.perform (2 ^ 63) HttpClientParser.start
      (fun _ => HttpResponseParser.Holds error .init) (answerText v) 20
      (fun _ => HttpResponseParser.Holds error (switching req v)) := by
  have hreason : HttpResponseParser.IsReason (chars "Web Socket Protocol Handshake") :=
    ⟨by decide, List.all_iff_forall_prop.mp (by decide)⟩
  have hline : HttpClientParser.machine.Reads HttpResponseParser.perform (2 ^ 63)
      HttpClientParser.start (fun _ => HttpResponseParser.Holds error .init) _ 20
      (fun _ => HttpResponseParser.Holds error { HttpResponse.init with
        version := 0x11, status := 101, reason := chars "Web Socket Protocol Handshake" }) :=
    ((HttpResponseParser.reads_version (.inl ⟨rfl, rfl⟩)).append
      (HttpResponseParser.reads_status (by decide) (by decide))).append
      (HttpResponseParser.reads_reason hreason)
  have hall := ((hline.append reads_connection_upgrade).append
    (HttpResponseParser.reads_field (.inl rfl) hv)).append
      (HttpResponseParser.reads_field (.inl rfl) isLine_upgrade)
  have hrsp : switching req v = { HttpResponse.init with
      version := 0x11, status := 101, reason := chars "Web Socket Protocol Handshake"
      headers := answered v } := by
    rw [← hversion]
    rfl
  have htext : (answered v).flatMap (fun e => HttpRequest.field e.1 e.2) =
      HttpRequest.field (chars "Connection") (chars "Upgrade") ++
        HttpRequest.field acceptName v ++
          HttpRequest.field (chars "Upgrade") (chars "websocket") := by
    rw [answered, List.flatMap_cons, List.flatMap_cons, List.flatMap_singleton, List.append_assoc]
  rw [hrsp, answerText, htext, ← List.append_assoc, ← List.append_assoc]
  exact hall

/-- The answer alone in the first read. -/
theorem recvResponse_switching (hversion : req.version = 0x11) (hv : IsLine acceptName v)
    {s s₁ : Stream} {len : Int} {lexicalCast : List UInt8 → Option Nat}
    {gunzip inflate : List UInt8 → List UInt8} {bufferSize : Nat} (hs : s.Reliable)
    (hread : s.read bufferSize = (len, (switching req v).toString true true, s₁))
    (hbuffer : bufferSize < 2 ^ 31) :
    HttpConnection.recvResponse lexicalCast gunzip inflate bufferSize 0 s =
      .ok (some (switching req v), s₁) := by
  rw [toString_answerText hversion] at hread
  obtain ⟨hlen, _, hmax, _⟩ := Stream.received_of_read hs hread
  have hfirst : (answerText v).head? = some 72 := rfl
  obtain ⟨final, hhead, hcs, hchunked, hdata⟩ := HttpResponseParser.head_of_reads (.inl rfl)
    (@reads_answerText 0 req v hversion hv) hfirst (by omega)
  have hpos : 0 < (answerText v ++ crlf).length := List.length_pos_iff.mpr hhead.ne_nil
  have hall : s.read bufferSize = (len, answerText v ++ crlf ++ [], s₁) := by
    rw [List.append_nil]
    exact hread
  have hloop := hhead.recvHeader_whole hall (by omega) s.input.length
  have hfull : (([] : List UInt8).length : Int) ≠ toInt bufferSize := by
    rw [Stream.toInt_of_lt (by omega) (by omega), List.length_nil]
    omega
  have hlength : final.getContentLength lexicalCast = ([] : List UInt8).length := by
    have hnone : (switching req v).findHeader (chars "Content-Length") = none := rfl
    rw [HttpResponseParser.getContentLength, HttpResponse.getHeaderAs, hdata, hnone]
    rfl
  rw [if_neg (not_or.mpr ⟨not_not.mpr rfl, hfull⟩), if_pos hcs] at hloop
  refine (HttpConnection.recvResponse_of_whole hloop hchunked hlength).mpr ⟨[], ?_, ?_⟩
  · rw [HttpConnection.recvBody, if_pos List.length_nil]
  · rw [HttpConnection.withBody, if_pos rfl, hdata]

end Answer

/-! ## Both ends -/

/-- The result of `Create` behind the connection, and what its constructor is not reached for. -/
inductive Created where
  | ok (rsp : HttpResponse)
  | notWebsocket (rsp : HttpResponse)
  | sendCloseByPeer
  | sendSocketError
  | timeout
  | thrown
  | stuck
  deriving DecidableEq, Repr

/-- `Create` on a connected socket. What was sent comes to `peer`, and what that sends comes back.
-/
def Create (c : Client) (uri : Uri) (headers : List (List UInt8 × List UInt8)) (rand : Nat → Nat)
    (peer : List UInt8 → List UInt8) (s : Stream) : Created × Stream :=
  let req := createRequest uri headers rand
  match HttpConnection.sendRequest req true (c.rounds (req.toString true)) s with
  | none => (.stuck, s)
  | some (rt, s) =>
    let s := { s with input := s.input ++ peer s.output, output := [] }
    if rt = 0 then (.sendCloseByPeer, s)
    else if rt < 0 then (.sendSocketError, s)
    else
      match HttpConnection.recvResponse c.lexicalCast c.gunzip c.inflate c.bufferSize c.error s with
      | .error _ => (.thrown, s)
      | .ok (none, s) => (.timeout, s)
      | .ok (some rsp, s) => if rsp.status ≠ 101 then (.notWebsocket rsp, s) else (.ok rsp, s)

section Both

open Link (Prompt)
open HttpResponseParser (IsLine)

variable {α : Type*} {env : Surroundings α} {c : Client} {d : ServletDispatch α Empty}
  {uri : Uri} {headers : List (List UInt8 × List UInt8)} {rand : Nat → Nat} {v : List UInt8}
  {client server s s₁ : Stream}

/-- `handleShake` on the server's stream. -/
def Surroundings.shake (env : Surroundings α) (s : Stream) :
    Option (Option (HttpRequest × HttpResponse) × Stream) :=
  handleShake env.sha1sum env.castVersion env.castLength env.bufferSize env.uriRelaxed
    env.queryStart env.rounds s

/-- What the server sends for the bytes that arrive. -/
def Surroundings.peer (env : Surroundings α) (s : Stream) (bytes : List UInt8) : List UInt8 :=
  ((env.shake { s with input := s.input ++ bytes }).map fun result => result.2.output).getD []

/-- The server asks for what the client sends, and the texts fit into the buffers. -/
structure Meets (env : Surroundings α) (c : Client) (uri : Uri)
    (headers : List (List UInt8 × List UInt8)) (rand : Nat → Nat) (v : List UInt8) : Prop where
  sendable : Sendable env.uriRelaxed uri headers
  version_eq : env.castVersion (chars "13") = some 13
  decode_eq : Base64.base64decode (env.sha1sum (keyOf rand ++ guid)) = some v
  line : IsLine acceptName v
  request_fits : ((createRequest uri headers rand).toString true).length ≤ env.bufferSize
  request_size : env.bufferSize < 2 ^ 31
  answer_fits : (answerText v ++ crlf).length ≤ c.bufferSize
  answer_size : c.bufferSize < 2 ^ 31
  error_eq : c.error = 0
  client_rounds : ∀ text, text.length < c.rounds text
  server_rounds : (answerText v ++ crlf).length < env.rounds

theorem version_createRequest : (createRequest uri headers rand).version = 0x11 := by
  rw [createRequest_eq]
  rfl

/-- The handshake with what `Create` sends, alone in the stream. -/
theorem shake_prompt (h : Meets env c uri headers rand v) (hs : Prompt s)
    (hin : s.input = (createRequest uri headers rand).toString true) :
    ∃ s', Prompt s' ∧ s'.input = [] ∧ env.shake s = some
        (if strcasecmp (connectionOf headers) (chars "Upgrade") then
          some (createRequest uri headers rand, switching (createRequest uri headers rand) v)
        else none, s') ∧
      s'.output = s.output ++
        if strcasecmp (connectionOf headers) (chars "Upgrade") then answerText v ++ crlf
        else [] := by
  have hfits := h.answer_fits
  have hsize := h.answer_size
  have htext := @toString_answerText (createRequest uri headers rand) v version_createRequest
  obtain ⟨s₁, hread, hrest⟩ := hs.read_all (by rw [hin]; exact h.request_fits) h.request_size
  obtain ⟨_, hrec, _, _⟩ := Stream.received_of_read hs.reliable hread
  have hs₁ := hs.received hrec
  rw [hin] at hread
  obtain ⟨s', hshake, hsent⟩ := @handleShake_created uri headers rand env.uriRelaxed env.sha1sum
    env.castVersion h.sendable s s₁ _ env.castLength env.bufferSize env.queryStart env.rounds
    hs.reliable hread h.request_size h.version_eq v h.decode_eq (by rw [htext]; omega)
    (by rw [htext]; exact h.server_rounds)
  rw [htext] at hsent
  cases hconn : strcasecmp (connectionOf headers) (chars "Upgrade") with
  | true =>
    rw [hconn, if_pos rfl] at hshake
    refine ⟨s', hs₁.sent hsent, hsent.input_eq.trans hrest, ?_, ?_⟩
    · rw [if_pos rfl]
      exact hshake
    · rw [if_pos rfl, hsent.output_eq, hrec.output_eq]
  | false =>
    rw [hconn, if_neg Bool.false_ne_true] at hshake
    refine ⟨s₁, hs₁, hrest, ?_, ?_⟩
    · rw [if_neg Bool.false_ne_true]
      exact hshake
    · rw [if_neg Bool.false_ne_true, hrec.output_eq, List.append_nil]

/-- Nothing waits at this end. -/
structure Quiet (s : Stream) : Prop where
  prompt : Prompt s
  input_eq : s.input = []
  output_eq : s.output = []

/-- The client has sent its request and waits. -/
theorem create_waits (h : Meets env c uri headers rand v) (hquiet : Quiet client)
    (peer : List UInt8 → List UInt8) :
    ∃ s, Prompt s ∧ s.input = peer ((createRequest uri headers rand).toString true) ∧
      s.output = [] ∧ Create c uri headers rand peer client =
        match HttpConnection.recvResponse c.lexicalCast c.gunzip c.inflate c.bufferSize c.error
          s with
        | .error _ => (.thrown, s)
        | .ok (none, s) => (.timeout, s)
        | .ok (some rsp, s) =>
          if rsp.status ≠ 101 then (.notWebsocket rsp, s) else (.ok rsp, s) := by
  have hfits := h.request_fits
  have hsize := h.request_size
  obtain ⟨sent, hwrite, hsent⟩ := Stream.writeFixSize_reliable hquiet.prompt.reliable (by omega)
    (h.client_rounds ((createRequest uri headers rand).toString true))
  have hpos : 0 < ((createRequest uri headers rand).toString true).length :=
    List.length_pos_iff.mpr (Stream.toString_ne_nil _ true)
  have hrt : 0 < toInt ((createRequest uri headers rand).toString true).length := by
    rw [Stream.toInt_of_lt (by omega) (by omega)]
    omega
  have hout : sent.output = (createRequest uri headers rand).toString true := by
    rw [hsent.output_eq, hquiet.output_eq, List.nil_append]
  refine ⟨{ sent with input := sent.input ++ peer sent.output, output := [] },
    (hquiet.prompt.sent hsent).withBytes _ _, ?_, rfl, ?_⟩
  · dsimp only
    rw [hsent.input_eq, hquiet.input_eq, List.nil_append, hout]
  · rw [Create, HttpConnection.sendRequest, hwrite, Option.map_some]
    dsimp only
    rw [if_neg (by omega), if_neg (by omega)]

end Both

/-! ## A whole session -/

/-- The client sends its messages one after the other. -/
def sendMessages (rounds : Nat) : Stream → List Outgoing → Option (List (List Int) × Stream)
  | s, [] => some ([], s)
  | s, m :: msgs => do
    let (rts, s) ← sendFragments rounds true s m.opcode m.frags
    let (rest, s) ← sendMessages rounds s msgs
    some (rts :: rest, s)

section Session

variable {α : Type*} {env : Surroundings α} {d : ServletDispatch α Empty} {slt : WSServlet}
  {verdict : List Event → HttpRequest → WSFrameMessage → Int} {uri : Uri}
  {headers : List (List UInt8 × List UInt8)} {rand : Nat → Nat} {v : List UInt8}
  {rounds messages : Nat} {msgs : List Outgoing} {client s s₁ : Stream} {len : Int}

theorem sendMessages_ok (hs : client.Reliable) (hc : ∀ m ∈ msgs, ∀ f ∈ m.frags, Countable f.1)
    (hr : ∀ m ∈ msgs, (payload m.frags).length + 8 < rounds) :
    ∃ rts client', sendMessages rounds client msgs = some (rts, client') ∧
      (∀ rt ∈ rts.flatten, 0 < rt) ∧ client.Sent (msgs.flatMap Outgoing.bytes) client' := by
  induction msgs generalizing client with
  | nil =>
    exact ⟨[], client, rfl, fun rt hrt => absurd hrt List.not_mem_nil, Stream.Sent.refl client⟩
  | cons m msgs ih =>
    obtain ⟨rts, client₁, hsend, hpos, hsent⟩ := @sendFragments_ok client rounds true hs m.opcode
      m.frags (hc m List.mem_cons_self) (hr m List.mem_cons_self)
    obtain ⟨rest, client₂, hsend', hpos', hsent'⟩ := @ih client₁ (hsent.reliable hs)
      (fun m hm => hc m (List.mem_cons_of_mem _ hm)) fun m hm => hr m (List.mem_cons_of_mem _ hm)
    refine ⟨rts :: rest, client₂, ?_, ?_, hsent.trans hsent'⟩
    · rw [sendMessages, hsend]
      simp only [Option.bind_eq_bind, Option.bind_some, hsend']
    · intro rt hrt
      rw [List.flatten_cons, List.mem_append] at hrt
      rcases hrt with hrt | hrt
      · exact hpos rt hrt
      · exact hpos' rt hrt

end Session

/-! ## One session -/

/-- The key when `rand()` returns zeros. -/
theorem keyOf_zeros : keyOf (fun _ => 0) = chars "MDAwMDAwMDAwMDAwMDAwMA==" := by
  have hzeros : random_string (fun _ => 0) 16 =
      [48, 48, 48, 48, 48, 48, 48, 48, 48, 48, 48, 48, 48, 48, 48, 48] := by decide
  rw [keyOf, hzeros]
  simp only [Base64.base64encode_three, Base64.base64encode_one]
  decide

def chatUri : Uri := { Uri.init with host := chars "h", path := chars "/chat" }

def chatHeaders : List (List UInt8 × List UInt8) := [(chars "Origin", chars "o")]

/-- The headers of its request in the order of the map. -/
def chatFields : List (List UInt8 × List UInt8) :=
  [(chars "connection", chars "Upgrade"), (chars "Host", chars "h"), (chars "Origin", chars "o"),
    (chars "Sec-webSocket-Key", chars "MDAwMDAwMDAwMDAwMDAwMA=="),
    (chars "Sec-webSocket-Version", chars "13"), (chars "Upgrade", chars "websocket")]

theorem createRequest_chat : createRequest chatUri chatHeaders (fun _ => 0) =
    { HttpRequest.init with path := chars "/chat", method := .get, headers := chatFields } := by
  rw [createRequest_eq, asked, keyOf_zeros]
  decide

/-- Callbacks that are not set. -/
def silent : WSServlet := FunctionWSServlet none none none

theorem silent_polite : Polite silent fun _ _ _ => 0 where
  onConnect _ _ s _ := ⟨[], Stream.Sent.refl s⟩
  handle _ _ _ s _ := ⟨[], Stream.Sent.refl s⟩
  verdict_eq _ _ _ _ := rfl

def chatSurroundings : Surroundings Unit where
  cast _ := some silent
  fnmatch _ _ := true
  sha1sum _ := WebSocketHandshake.digest
  castVersion := WebSocketHandshake.castVersion
  castLength _ := none
  bufferSize := 4096
  uriRelaxed := false
  queryStart := 0
  maxSize := 100
  rounds := 1000

def chatDispatch : ServletDispatch Unit Empty := ⟨∅, [("/*", .of ())], .NotFoundServlet "cxk/1.1"⟩

theorem chat_sendable : Sendable false chatUri chatHeaders where
  path := ⟨_, _, _, by rfl, by rfl⟩
  query := ⟨_, _, _, by rfl, by rfl⟩
  fragment := ⟨_, _, _, by rfl, by rfl⟩
  host := isValue_chars (by decide) (by decide)
  path_eq := by decide
  field := by
    intro h hmem
    rw [chatHeaders, List.mem_singleton] at hmem
    subst hmem
    exact isField_iff.mpr ⟨(isName_chars (by decide) (by decide) (by decide)).1,
      isValue_chars (by decide) (by decide)⟩
  no_length := by
    intro h hmem
    rw [chatHeaders, List.mem_singleton] at hmem
    subst hmem
    decide

/-- The digest is no text of the alphabet. -/
theorem decode_digest : Base64.base64decode WebSocketHandshake.digest = some [] := by
  apply Base64.base64decode_refused
  rintro ⟨-, body, pad, htext, hpad, hbody⟩
  cases body with
  | nil =>
    have hlength := congrArg List.length htext
    rw [List.nil_append, List.length_replicate] at hlength
    have hdigest : WebSocketHandshake.digest.length = 20 := rfl
    omega
  | cons b body =>
    have hfirst : (179 : UInt8) = b := (List.cons.inj htext).1
    exact absurd (hbody b List.mem_cons_self) (hfirst ▸ by decide)

theorem isLine_accept : HttpResponseParser.IsLine acceptName [] where
  name_ne := by decide
  name_token := List.all_eq_true.mp (by decide)
  name_other := by decide
  value_line b hb := absurd hb List.not_mem_nil
  value_start b hb := by cases hb

theorem chat_meets :
    Meets chatSurroundings Link.plainClient chatUri chatHeaders (fun _ => 0) [] where
  sendable := chat_sendable
  version_eq := by decide
  decode_eq := decode_digest
  line := isLine_accept
  request_fits := by
    rw [createRequest_chat]
    set_option maxRecDepth 2000 in decide
  request_size := by decide
  answer_fits := by decide
  answer_size := by decide
  error_eq := rfl
  client_rounds text := Nat.lt_succ_self text.length
  server_rounds := by decide

theorem quiet_atOnce : Quiet (atOnce []) := ⟨⟨atOnce_reliable [], fun _ => rfl⟩, rfl, rfl⟩

/-- A client whose request is on its way. -/
def chatClient : Stream :=
  { atOnce [] with output := (createRequest chatUri chatHeaders fun _ => 0).toString true }

def chatMessages : List Outgoing := [⟨TEXT_FRAME, [(chars "h", 7), (chars "i", 8)]⟩]

end CxkFramework.WebSocket
