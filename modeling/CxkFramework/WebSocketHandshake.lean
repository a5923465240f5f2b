import CxkFramework.Base64
import CxkFramework.HttpResponseText
import CxkFramework.HttpSession

/-!
# The handshake of a WebSocket session

`WSSession::handleShake`, over an arbitrary digest of 20 bytes. The digest is sent through the
decoder of the text code, not through its encoder, so no answer carries it.
-/

namespace CxkFramework.WebSocketHandshake

open Base64

def guid : List UInt8 := chars "258EAFA5-E914-47DA-95CA-C5AB0DC85B11"

/-- `strcasecmp(a, b) == 0`. -/
def strcasecmp (a b : List UInt8) : Bool := caseFolded a == caseFolded b

/-- `getHeaderAs<int>`, with `boost::lexical_cast<int>` for `lexicalCast`. -/
def getHeaderAs (lexicalCast : List UInt8 → Option Int) (req : HttpRequest) (key : List UInt8) :
    Int :=
  match req.findHeader key with
  | none => 0
  | some val => (lexicalCast val).getD 0

variable (sha1sum : List UInt8 → List UInt8) (lexicalCast : List UInt8 → Option Int)

def createResponse (req : HttpRequest) : HttpResponse :=
  { HttpResponse.init with version := req.version }

/-- The response with `v` for its answer. -/
def switching (req : HttpRequest) (v : List UInt8) : HttpResponse :=
  let rsp := { createResponse req with
    status := 101, reason := chars "Web Socket Protocol Handshake" }
  ((rsp.setHeader (chars "Upgrade") (chars "websocket")).setHeader (chars "Connection")
    (chars "Upgrade")).setHeader (chars "Sec-WebSocket-Accept") v

/-- What is made of a request: none for one that is not accepted. -/
def answer (req : HttpRequest) : Option HttpResponse :=
  if !strcasecmp (req.getHeader (chars "Upgrade") []) (chars "websocket") then none
  else if !strcasecmp (req.getHeader (chars "Connection") []) (chars "Upgrade") then none
  else if getHeaderAs lexicalCast req (chars "Sec-webSocket-Version") ≠ 13 then none
  else
    let key := req.getHeader (chars "Sec-WebSocket-Key") []
    if key = [] then none
    else (base64decode (sha1sum (key ++ guid))).map (switching req)

/-- `handleShake`: the accepted request with its response, or none for a null result, and the stream
afterwards. There is nothing when an exception leaves it or the response is never done with. -/
def handleShake (castLength : List UInt8 → Option Nat) (bufferSize : Nat) (uriRelaxed : Bool)
    (queryStart rounds : Nat) (s : Stream) : Option (Option (HttpRequest × HttpResponse) × Stream) :=
  match HttpSession.recvRequest castLength bufferSize uriRelaxed queryStart s with
  | .error _ => none
  | .ok (none, s) => some (none, s)
  | .ok (some req, s) =>
    match answer sha1sum lexicalCast req with
    | none => some (none, s)
    | some rsp =>
      match HttpSession.sendResponse rsp req.close true rounds s with
      | none => none
      | some (_, s) => some (some (req, rsp), s)

/-- What a client checks: the answer is a text for the digest of its key. -/
def Answers (req : HttpRequest) (rsp : HttpResponse) : Prop :=
  base64decode (rsp.getHeader (chars "Sec-WebSocket-Accept") []) =
    some (sha1sum (req.getHeader (chars "Sec-WebSocket-Key") [] ++ guid))

theorem getHeader_switching (req : HttpRequest) (v : List UInt8) :
    (switching req v).getHeader (chars "Sec-WebSocket-Accept") [] = v := rfl

variable {sha1sum : List UInt8 → List UInt8} {lexicalCast : List UInt8 → Option Int}

theorem answer_cases {req : HttpRequest} {rsp : HttpResponse}
    (h : answer sha1sum lexicalCast req = some rsp) :
    ∃ v, base64decode (sha1sum (req.getHeader (chars "Sec-WebSocket-Key") [] ++ guid)) = some v ∧
      rsp = switching req v := by
  rw [answer] at h
  split at h
  · cases h
  · split at h
    · cases h
    · split at h
      · cases h
      · dsimp only at h
        split at h
        · cases h
        · obtain ⟨v, hv, hrsp⟩ := Option.map_eq_some_iff.mp h
          exact ⟨v, hv, hrsp.symm⟩

theorem handleShake_cases {castLength : List UInt8 → Option Nat} {bufferSize : Nat}
    {uriRelaxed : Bool} {queryStart rounds : Nat} {s s' : Stream} {req : HttpRequest}
    {rsp : HttpResponse}
    (h : handleShake sha1sum lexicalCast castLength bufferSize uriRelaxed queryStart rounds s =
      some (some (req, rsp), s')) : answer sha1sum lexicalCast req = some rsp := by
  rw [handleShake] at h
  split at h
  · cases h
  · cases h
  · split at h
    · cases h
    · next hanswer =>
      split at h
      · cases h
      · cases h
        exact hanswer

/-- What the decoder makes of a digest is too short to stand for one. -/
theorem not_answers_switching (hsha1sum : ∀ x, (sha1sum x).length = 20) {req : HttpRequest}
    {v : List UInt8}
    (h : base64decode (sha1sum (req.getHeader (chars "Sec-WebSocket-Key") [] ++ guid)) = some v) :
    ¬Answers sha1sum req (switching req v) := by
  intro hanswers
  rw [Answers, getHeader_switching] at hanswers
  have hdigest := length_base64decode h
  have htext := length_base64decode hanswers
  rw [hsha1sum] at hdigest htext
  omega

/-- No accepted request is answered with a text for the digest of its key, whatever the digest. -/
theorem handleShake_not_answers (hsha1sum : ∀ x, (sha1sum x).length = 20)
    {castLength : List UInt8 → Option Nat} {bufferSize : Nat} {uriRelaxed : Bool}
    {queryStart rounds : Nat} {s s' : Stream} {req : HttpRequest} {rsp : HttpResponse}
    (h : handleShake sha1sum lexicalCast castLength bufferSize uriRelaxed queryStart rounds s =
      some (some (req, rsp), s')) : ¬Answers sha1sum req rsp := by
  obtain ⟨v, hv, hrsp⟩ := answer_cases (handleShake_cases h)
  rw [hrsp]
  exact not_answers_switching hsha1sum hv

/-- A client that asks for the protocol. -/
def upgrade : String :=
  "GET /chat HTTP/1.1\r\nUpgrade: websocket\r\nConnection: Upgrade\r\n" ++
  "Sec-webSocket-Version: 13\r\nSec-webSocket-Key: dGhlIHNhbXBsZSBub25jZQ==\r\n\r\n"

/-- The digest of the key of `upgrade` and the identifier. -/
def digest : List UInt8 :=
  [179, 122, 79, 44, 192, 98, 79, 22, 144, 246, 70, 6, 207, 56, 89, 69, 178, 190, 196, 234]

def castVersion (t : List UInt8) : Option Int := if t = chars "13" then some 13 else none

/-- The request behind `upgrade`. -/
def upgradeRequest : HttpRequest where
  method := .get
  version := 0x11
  close := true
  path := chars "/chat"
  query := []
  fragment := []
  body := []
  headers := [(chars "Connection", chars "Upgrade"),
    (chars "Sec-webSocket-Key", chars "dGhlIHNhbXBsZSBub25jZQ=="),
    (chars "Sec-webSocket-Version", chars "13"), (chars "Upgrade", chars "websocket")]

theorem handleShake_upgrade :
    (handleShake (fun _ => digest) castVersion (fun _ => none) 4096 false 0 1000
      (HttpSession.waiting upgrade fun _ => 1000)).map Prod.fst =
      some (some (upgradeRequest, switching upgradeRequest [])) := by
  decide +kernel

theorem handleShake_not_answers_upgrade :
    ¬Answers (fun _ => digest) upgradeRequest (switching upgradeRequest []) := by
  obtain ⟨⟨result, s'⟩, hrun, rfl⟩ := Option.map_eq_some_iff.mp handleShake_upgrade
  exact handleShake_not_answers (fun _ => rfl) hrun

/-- The digest has bytes outside of the alphabet, and the answer is empty. -/
theorem upgrade_empty_answer :
    (handleShake (fun _ => digest) castVersion (fun _ => none) 4096 false 0 1000
      (HttpSession.waiting upgrade fun _ => 1000)).map Prod.fst =
      some (some (upgradeRequest, switching upgradeRequest [])) ∧
    (switching upgradeRequest []).getHeader (chars "Sec-WebSocket-Accept") [] = [] ∧
    ¬Answers (fun _ => digest) upgradeRequest (switching upgradeRequest []) := by
  refine ⟨handleShake_upgrade, getHeader_switching _ _, ?_⟩
  rw [Answers, getHeader_switching]
  decide +kernel

end CxkFramework.WebSocketHandshake
