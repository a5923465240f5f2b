import CxkFramework.Blocks
import CxkFramework.HttpTable
import Mathlib.Data.Bool.AllAny

/-!
# The HTTP request parser

`http_parser_execute` over the table of `http11_parser.rl`, and the callbacks by which
`HttpRequestParser` makes a request of what it finds. The actions keep offsets into the buffer of
the call: `mark`, `field_start`, `field_len` and `query_start`. A call resets the first three and
none is moved when the buffer is. `body_start`, `content_len`, `xml_sent` and `json_sent` are left
out, since nothing reads what is made of them.
-/

namespace CxkFramework

open Scanner Blocks

/-! ## Strings of C -/

/-- The characters of a literal. -/
def chars (s : String) : List UInt8 := s.toList.map fun c => UInt8.ofNat c.toNat

theorem chars_ofList (l : List Char) :
    chars (String.ofList l) = l.map fun c => UInt8.ofNat c.toNat := by
  rw [chars, String.toList_ofList]

/-- `strncmp(a, b, n) == 0`. -/
def strncmp : List UInt8 → List UInt8 → Nat → Bool
  | _, _, 0 => true
  | a, b, n + 1 => a.headD 0 == b.headD 0 && (a.headD 0 == 0 || strncmp a.tail b.tail n)

/-- What `strcasecmp` compares of a string. -/
def caseFolded (s : List UInt8) : List UInt8 :=
  (s.takeWhile (· != 0)).map fun c => if 65 ≤ c ∧ c ≤ 90 then c + 32 else c

def caseInsensitiveLess (lhs rhs : List UInt8) : Bool := decide (caseFolded lhs < caseFolded rhs)

/-! ## Requests -/

/-- `HTTP_METHOD_MAP`. -/
inductive HttpMethod where
  | delete | get | head | post | put
  | connect | options | trace
  | copy | lock | mkcol | move | propfind | proppatch | search | unlock | bind | rebind | unbind
  | acl
  | report | mkactivity | checkout | merge
  | msearch | notify | subscribe | unsubscribe
  | patch | purge
  | mkcalendar
  | link | unlink
  | source
  | invalidMethod
  deriving DecidableEq, Repr

namespace HttpMethod

def names : List (HttpMethod × String) := [
  (.delete, "DELETE"), (.get, "GET"), (.head, "HEAD"), (.post, "POST"), (.put, "PUT"),
  (.connect, "CONNECT"), (.options, "OPTIONS"), (.trace, "TRACE"), (.copy, "COPY"),
  (.lock, "LOCK"), (.mkcol, "MKCOL"), (.move, "MOVE"), (.propfind, "PROPFIND"),
  (.proppatch, "PROPPATCH"), (.search, "SEARCH"), (.unlock, "UNLOCK"), (.bind, "BIND"),
  (.rebind, "REBIND"), (.unbind, "UNBIND"), (.acl, "ACL"), (.report, "REPORT"),
  (.mkactivity, "MKACTIVITY"), (.checkout, "CHECKOUT"), (.merge, "MERGE"),
  (.msearch, "M-SEARCH"), (.notify, "NOTIFY"), (.subscribe, "SUBSCRIBE"),
  (.unsubscribe, "UNSUBSCRIBE"), (.patch, "PATCH"), (.purge, "PURGE"),
  (.mkcalendar, "MKCALENDAR"), (.link, "LINK"), (.unlink, "UNLINK"), (.source, "SOURCE")]

theorem names_capital : ∀ n ∈ names, ∀ b ∈ chars n.2, b = 45 ∨ 65 ≤ b ∧ b ≤ 90 := by
  simp only [names, List.forall_mem_cons]
  repeat' apply And.intro
  all_goals first
    | (rw [chars_ofList]; exact List.all_iff_forall_prop.mp (by decide))
    | exact nofun

/-- `CharsTohttpMethod`: the first method whose name the characters start with. -/
def ofChars (m : List UInt8) : HttpMethod :=
  match names.find? fun n => strncmp (chars n.2) m n.2.length with
  | some n => n.1
  | none => .invalidMethod

end HttpMethod

structure HttpRequest where
  method : HttpMethod
  version : UInt8
  close : Bool
  path : List UInt8
  query : List UInt8
  fragment : List UInt8
  body : List UInt8
  /-- in the order of the map -/
  headers : List (List UInt8 × List UInt8)
  deriving DecidableEq, Repr

namespace HttpRequest

def init : HttpRequest where
  method := .get
  version := 0x11
  close := true
  path := chars "/"
  query := []
  fragment := []
  body := []
  headers := []

/-- `m[key] = val`: a key that compares equal stays as it was first spelled. -/
def insertHeader (key val : List UInt8) :
    List (List UInt8 × List UInt8) → List (List UInt8 × List UInt8)
  | [] => [(key, val)]
  | (k, v) :: rest =>
    if caseInsensitiveLess key k then (key, val) :: (k, v) :: rest
    else if caseInsensitiveLess k key then (k, v) :: insertHeader key val rest
    else (k, val) :: rest

def setHeader (req : HttpRequest) (key val : List UInt8) : HttpRequest :=
  { req with headers := insertHeader key val req.headers }

def findHeader (req : HttpRequest) (key : List UInt8) : Option (List UInt8) :=
  (req.headers.find? fun h => !caseInsensitiveLess h.1 key && !caseInsensitiveLess key h.1).map
    Prod.snd

def getHeader (req : HttpRequest) (key defaultValue : List UInt8) : List UInt8 :=
  (req.findHeader key).getD defaultValue

/-- `getHeaderAs<uint64_t>`, with `boost::lexical_cast<uint64_t>` for `lexicalCast`. -/
def getHeaderAs (lexicalCast : List UInt8 → Option Nat) (req : HttpRequest) (key : List UInt8)
    (defaultValue : Nat) : Nat :=
  match req.findHeader key with
  | none => defaultValue
  | some val => (lexicalCast val).getD defaultValue

end HttpRequest

/-! ## The parser -/

/-- `std::length_error`. -/
inductive HttpFault where
  | lengthError
  deriving DecidableEq, Repr

/-- `std::string(text, length)`. -/
def makeString (text : List UInt8) (length : Nat) : Except HttpFault (List UInt8) :=
  if 2 ^ 63 ≤ length then .error .lengthError else .ok (text.take length)

/-- `HttpRequestParser` with its `http_parser`. -/
structure HttpRequestParser where
  cs : Nat
  mark : Nat
  fieldStart : Nat
  fieldLen : Nat
  queryStart : Nat
  uriRelaxed : Bool
  error : Nat
  data : HttpRequest
  deriving DecidableEq, Repr

namespace HttpRequestParser

open HttpParser

/-- The constructor sets neither `uri_relaxed` nor `query_start`. -/
def init (uriRelaxed : Bool) (queryStart : Nat) : HttpRequestParser where
  cs := start
  mark := 0
  fieldStart := 0
  fieldLen := 0
  queryStart := queryStart
  uriRelaxed := uriRelaxed
  error := 0
  data := .init

def setError (parser : HttpRequestParser) (v : Nat) : HttpRequestParser := { parser with error := v }

def setData (parser : HttpRequestParser) (req : HttpRequest) : HttpRequestParser :=
  { parser with data := req }

def onRequestMethod (parser : HttpRequestParser) (text : List UInt8) : HttpRequestParser :=
  if HttpMethod.ofChars text = .invalidMethod then parser.setError 1000
  else parser.setData { parser.data with method := HttpMethod.ofChars text }

/-- The callbacks that only keep a text. -/
def onRequestText (set : HttpRequest → List UInt8 → HttpRequest) (parser : HttpRequestParser)
    (text : List UInt8) (length : Nat) : Except HttpFault HttpRequestParser := do
  let v ← makeString text length
  return parser.setData (set parser.data v)

def onRequestFragment : HttpRequestParser → List UInt8 → Nat → Except HttpFault HttpRequestParser :=
  onRequestText fun req v => { req with fragment := v }

def onRequestQuery : HttpRequestParser → List UInt8 → Nat → Except HttpFault HttpRequestParser :=
  onRequestText fun req v => { req with query := v }

def onRequestPath : HttpRequestParser → List UInt8 → Nat → Except HttpFault HttpRequestParser :=
  onRequestText fun req v => { req with path := v }

def onRequestVersion (parser : HttpRequestParser) (text : List UInt8) (length : Nat) :
    HttpRequestParser :=
  if strncmp text (chars "HTTP/1.1") length then
    parser.setData { parser.data with version := 0x11 }
  else if strncmp text (chars "HTTP/1.0") length then
    parser.setData { parser.data with version := 0x10 }
  else parser.setError 1001

/-- A field without a name is dropped. -/
def onRequestHttpField (parser : HttpRequestParser) (field : List UInt8) (flen : Nat)
    (value : List UInt8) (vlen : Nat) : Except HttpFault HttpRequestParser :=
  if flen = 0 then .ok parser
  else do
    let key ← makeString field flen
    let val ← makeString value vlen
    return parser.setData (parser.data.setHeader key val)

/-- `LEN`, a `size_t`. -/
def len (from_ p : Nat) : Nat := (p + 2 ^ 64 - from_) % 2 ^ 64

/-- The actions at position `p` of the buffer. `on_request_uri` and `on_request_header_done` do
nothing. -/
def perform (buffer : List UInt8) (p : Nat) (a : Action) (parser : HttpRequestParser) :
    Except HttpFault HttpRequestParser :=
  match a with
  | .mark | .startValue => .ok { parser with mark := p }
  | .startField => .ok { parser with fieldStart := p }
  | .writeField => .ok { parser with fieldLen := len parser.fieldStart p }
  | .writeValue =>
    parser.onRequestHttpField (buffer.drop parser.fieldStart) parser.fieldLen
      (buffer.drop parser.mark) (len parser.mark p)
  | .requestMethod => .ok (parser.onRequestMethod (buffer.drop parser.mark))
  | .fragment => parser.onRequestFragment (buffer.drop parser.mark) (len parser.mark p)
  | .startQuery => .ok { parser with queryStart := p }
  | .queryString =>
    parser.onRequestQuery (buffer.drop parser.queryStart) (len parser.queryStart p)
  | .httpVersion => .ok (parser.onRequestVersion (buffer.drop parser.mark) (len parser.mark p))
  | .requestPath => parser.onRequestPath (buffer.drop parser.mark) (len parser.mark p)
  | .requestUri | .done | .xml | .json => .ok parser

/-- `cs` behind a run. -/
def stateOf : Verdict Nat → Nat
  | .running cs | .stopped cs => cs
  | .failed => 0

def resetOffsets (parser : HttpRequestParser) : HttpRequestParser :=
  { parser with mark := 0, fieldLen := 0, fieldStart := 0 }

/-- `http_parser_execute` from the start of the buffer. -/
def execute (parser : HttpRequestParser) (buffer : List UInt8) :
    Except HttpFault (HttpRequestParser × Nat) :=
  if buffer.length = 0 then .ok (parser, 0)
  else
    match (machine parser.uriRelaxed).exec (perform buffer) parser.cs 0 buffer
        parser.resetOffsets with
    | .error e => .error e
    | .ok (verdict, nread, parser) =>
      .ok (if parser.cs = 0 then parser else { parser with cs := stateOf verdict }, nread)

def hasError (parser : HttpRequestParser) : Bool := parser.error != 0 || parser.cs == 0

def isFinished (parser : HttpRequestParser) : Int :=
  if parser.cs = 0 then -1 else if firstFinal ≤ parser.cs then 1 else 0

def getContentLength (lexicalCast : List UInt8 → Option Nat) (parser : HttpRequestParser) : Nat :=
  parser.data.getHeaderAs lexicalCast (chars "Content-Length") 0

end HttpRequestParser

end CxkFramework
