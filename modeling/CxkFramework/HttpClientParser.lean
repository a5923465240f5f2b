import CxkFramework.HttpClientTable
import CxkFramework.HttpParser
import CxkFramework.Stream

/-!
# The HTTP response parser

`httpclient_parser_execute` over the table of `httpclient_parser.rl`, and the callbacks by which
`HttpResponseParser` makes a response of what it finds. `status` and `close` of the machine,
`body_start` and `nread` are left out, since nothing reads them.
-/

namespace CxkFramework

open Scanner Blocks

/-! ## Strings of C -/

/-- The value of a digit, 16 for what is none. -/
def digitValue (c : UInt8) : Nat :=
  if 48 ≤ c ∧ c ≤ 57 then c.toNat - 48
  else if 65 ≤ c ∧ c ≤ 70 then c.toNat - 55
  else if 97 ≤ c ∧ c ≤ 102 then c.toNat - 87
  else 16

/-- The number that digits stand for. -/
def ofDigits (base : Nat) (digits : List UInt8) : Nat :=
  digits.foldl (fun n c => n * base + digitValue c) 0

def isDigit (base : Nat) (c : UInt8) : Bool := decide (digitValue c < base)

/-- `strtol` of a text that starts with a digit: the digits up to the first character that is none,
`LONG_MAX` when they are too many. -/
def strtol (base : Nat) (text : List UInt8) : Int :=
  min (ofDigits base (text.takeWhile (isDigit base))) (2 ^ 63 - 1)

theorem takeWhile_before {α : Type*} {p : α → Bool} {c : α} (hc : p c = false) {text : List α}
    (hmem : c ∈ text) (extra : List α) : (text ++ extra).takeWhile p = text.takeWhile p := by
  induction text with
  | nil => simp at hmem
  | cons d text ih =>
    cases hd : p d with
    | false => simp [hd]
    | true =>
      have hrest : c ∈ text := by
        rcases List.mem_cons.mp hmem with rfl | h
        · simp [hc] at hd
        · exact h
      simp only [List.cons_append, List.takeWhile_cons, hd, if_true, ih hrest]

/-- What lies behind a character that is no digit is not read. -/
theorem strtol_before {base : Nat} {c : UInt8} (hc : isDigit base c = false) {text : List UInt8}
    (hmem : c ∈ text) (extra : List UInt8) : strtol base (text ++ extra) = strtol base text := by
  rw [strtol, strtol, takeWhile_before hc hmem]

/-- Digits are read up to what follows them. -/
theorem strtol_append {base : Nat} {c : UInt8} (hc : isDigit base c = false) {digits : List UInt8}
    (hdigits : ∀ d ∈ digits, isDigit base d = true) (rest : List UInt8) :
    strtol base (digits ++ c :: rest) = min (ofDigits base digits : Int) (2 ^ 63 - 1) := by
  rw [strtol, List.takeWhile_append_of_pos hdigits,
    List.takeWhile_cons_of_neg (by rw [hc]; exact Bool.false_ne_true), List.append_nil]

/-! ## Responses -/

/-- `status` is an enumeration that any `int` is cast to. -/
structure HttpResponse where
  status : Int
  version : UInt8
  body : List UInt8
  reason : List UInt8
  /-- in the order of the map -/
  headers : List (List UInt8 × List UInt8)
  deriving DecidableEq, Repr

namespace HttpResponse

def init : HttpResponse where
  status := 200
  version := 0x11
  body := []
  reason := []
  headers := []

def setHeader (rsp : HttpResponse) (key val : List UInt8) : HttpResponse :=
  { rsp with headers := HttpRequest.insertHeader key val rsp.headers }

def findHeader (rsp : HttpResponse) (key : List UInt8) : Option (List UInt8) :=
  (rsp.headers.find? fun h => !caseInsensitiveLess h.1 key && !caseInsensitiveLess key h.1).map
    Prod.snd

def getHeader (rsp : HttpResponse) (key defaultValue : List UInt8) : List UInt8 :=
  (rsp.findHeader key).getD defaultValue

/-- `getHeaderAs<uint64_t>`, with `boost::lexical_cast<uint64_t>` for `lexicalCast`. -/
def getHeaderAs (lexicalCast : List UInt8 → Option Nat) (rsp : HttpResponse) (key : List UInt8)
    (defaultValue : Nat) : Nat :=
  match rsp.findHeader key with
  | none => defaultValue
  | some val => (lexicalCast val).getD defaultValue

end HttpResponse

/-! ## The parser -/

/-- `std::length_error`, or an access outside of the bytes received or of the buffer. -/
inductive ResponseFault where
  | lengthError
  | outside
  deriving DecidableEq, Repr

/-- `std::string(text, length)`. -/
def stringAt (text : List UInt8) (length : Nat) : Except ResponseFault (List UInt8) :=
  if 2 ^ 63 ≤ length then .error .lengthError
  else if text.length < length then .error .outside
  else .ok (text.take length)

/-- `HttpResponseParser` with its `httpclient_parser`. -/
structure HttpResponseParser where
  cs : Nat
  mark : Nat
  fieldStart : Nat
  fieldLen : Nat
  contentLen : Int
  chunked : Bool
  chunksDone : Bool
  error : Nat
  data : HttpResponse
  deriving DecidableEq, Repr

namespace HttpResponseParser

open HttpClientParser

open HttpRequestParser (len stateOf)

/-- `httpclient_parser_init`. -/
def reinit (parser : HttpResponseParser) : HttpResponseParser :=
  { parser with
    cs := start
    mark := 0
    fieldStart := 0
    fieldLen := 0
    contentLen := -1
    chunked := false
    chunksDone := false }

/-- The constructor does not set `m_error`. -/
def init (error : Nat) : HttpResponseParser where
  cs := start
  mark := 0
  fieldStart := 0
  fieldLen := 0
  contentLen := -1
  chunked := false
  chunksDone := false
  error := error
  data := .init

def setError (parser : HttpResponseParser) (v : Nat) : HttpResponseParser :=
  { parser with error := v }

def setData (parser : HttpResponseParser) (rsp : HttpResponse) : HttpResponseParser :=
  { parser with data := rsp }

def onResponseReason (parser : HttpResponseParser) (text : List UInt8) (length : Nat) :
    Except ResponseFault HttpResponseParser := do
  let v ← stringAt text length
  return parser.setData { parser.data with reason := v }

/-- `atoi` is `strtol` made an `int`. -/
def onResponseStatus (parser : HttpResponseParser) (text : List UInt8) : HttpResponseParser :=
  parser.setData { parser.data with status := toInt (strtol 10 text) }

def onResponseVersion (parser : HttpResponseParser) (text : List UInt8) (length : Nat) :
    HttpResponseParser :=
  if strncmp text (chars "HTTP/1.1") length then
    parser.setData { parser.data with version := 0x11 }
  else if strncmp text (chars "HTTP/1.0") length then
    parser.setData { parser.data with version := 0x10 }
  else parser.setError 1001

def onResponseHttpField (parser : HttpResponseParser) (field : List UInt8) (flen : Nat)
    (value : List UInt8) (vlen : Nat) : Except ResponseFault HttpResponseParser :=
  if flen = 0 then .ok (parser.setError 1002)
  else do
    let key ← stringAt field flen
    let val ← stringAt value vlen
    return parser.setData (parser.data.setHeader key val)

/-- `chunk_size`; the callbacks for a chunk do nothing. -/
def setChunk (parser : HttpResponseParser) (size : Int) : HttpResponseParser :=
  { parser with chunked := true, contentLen := size, chunksDone := decide (size ≤ 0) }

/-- The actions at position `p` of the buffer. `on_response_header_done` does nothing. -/
def perform (buffer : List UInt8) (p : Nat) (a : Action) (parser : HttpResponseParser) :
    Except ResponseFault HttpResponseParser :=
  match a with
  | .mark | .startValue => .ok { parser with mark := p }
  | .startField => .ok { parser with fieldStart := p }
  | .writeField => .ok { parser with fieldLen := len parser.fieldStart p }
  | .writeContentLen =>
    .ok { parser with contentLen := toInt (strtol 10 (buffer.drop parser.mark)) }
  | .writeValue =>
    parser.onResponseHttpField (buffer.drop parser.fieldStart) parser.fieldLen
      (buffer.drop parser.mark) (len parser.mark p)
  | .reasonPhrase => parser.onResponseReason (buffer.drop parser.mark) (len parser.mark p)
  | .statusCode => .ok (parser.onResponseStatus (buffer.drop parser.mark))
  | .httpVersion => .ok (parser.onResponseVersion (buffer.drop parser.mark) (len parser.mark p))
  | .chunkSize => .ok (parser.setChunk (toInt (strtol 16 (buffer.drop parser.mark))))
  | .transChunked => .ok { parser with chunked := true }
  | .writeConnectionClose | .done => .ok parser

def resetOffsets (parser : HttpResponseParser) : HttpResponseParser :=
  { parser with mark := 0, fieldLen := 0, fieldStart := 0 }

/-- Without bytes the check of `mark` fails. -/
def execute (parser : HttpResponseParser) (buffer : List UInt8) (chunck : Bool) :
    Except ResponseFault (HttpResponseParser × Nat) :=
  let parser := if chunck then parser.reinit else parser
  if buffer.length = 0 then .ok (parser.resetOffsets, 2 ^ 64 - 1)
  else
    match machine.exec (perform buffer) parser.cs 0 buffer parser.resetOffsets with
    | .error e => .error e
    | .ok (verdict, nread, parser) => .ok ({ parser with cs := stateOf verdict }, nread)

def hasError (parser : HttpResponseParser) : Bool := parser.error != 0 || parser.cs == 0

/-- The final states behind 120 do not count. -/
def isFinished (parser : HttpResponseParser) : Bool := parser.cs == firstFinal

def getContentLength (lexicalCast : List UInt8 → Option Nat) (parser : HttpResponseParser) : Nat :=
  parser.data.getHeaderAs lexicalCast (chars "Content-Length") 0

end HttpResponseParser

end CxkFramework
