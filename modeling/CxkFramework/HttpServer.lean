import CxkFramework.HttpResponseRoundTrip
import CxkFramework.ServletDispatch

/-!
# A connection of the server

`HttpServer::handleClient`: requests are received, given to the servlets and answered until one asks
to close or none can be received. The servlets are the caller's; what they do to the request, the
response and the session comes as a parameter.
-/

namespace CxkFramework

open Scanner

/-- `HttpResponse` with its flags. -/
structure ServerResponse extends HttpResponse where
  close : Bool
  websocket : Bool
  deriving DecidableEq, Repr

namespace ServerResponse

/-- The constructor. -/
def create (version : UInt8) (close : Bool) : ServerResponse :=
  { HttpResponse.init with version, close, websocket := false }

def setHeader (rsp : ServerResponse) (key val : List UInt8) : ServerResponse :=
  { rsp with toHttpResponse := rsp.toHttpResponse.setHeader key val }

def setStatus (rsp : ServerResponse) (v : Int) : ServerResponse := { rsp with status := v }

def setBody (rsp : ServerResponse) (v : List UInt8) : ServerResponse := { rsp with body := v }

def toString (rsp : ServerResponse) : List UInt8 :=
  rsp.toHttpResponse.toString rsp.close rsp.websocket

end ServerResponse

/-! ## The code -/

/-- What a servlet is given. -/
structure Exchange where
  request : HttpRequest
  response : ServerResponse
  session : Stream

/-- `NotFoundServlet::handle`, with the content that the constructor makes of the name. -/
def NotFoundServlet.handle (name : String) (x : Exchange) : Exchange :=
  let content := chars "<html><head><title>404 Not Found"
    ++ chars "</title></head><body><center><h1>404 Not Found</h1></center>"
    ++ (chars "<hr><center>" ++ chars name ++ chars "</center></body></html>")
  let response := x.response.setStatus 404
  let response := response.setHeader (chars "Content-Type") (chars "text/html")
  let response := response.setHeader (chars "server") (chars "cxk/1.16.0")
  { x with response := response.setBody content }

/-- Each byte is a character. -/
def asString (bytes : List UInt8) : String := String.ofList (bytes.map fun b => Char.ofNat b.toNat)

/-- What the server is given: the caller's servlets and callbacks, `fnmatch`, `lexical_cast`, the
configured sizes, what is in `query_start` of the parser for each request, and how many rounds the
loop of `writeFixSize` gets for a text. -/
structure Surroundings (α β : Type*) where
  servlet : α → Exchange → Exchange
  callback : β → Exchange → Exchange
  fnmatch : String → String → Bool
  lexicalCast : List UInt8 → Option Nat
  bufferSize : Nat
  uriRelaxed : Bool
  queryStart : Nat → Nat
  rounds : List UInt8 → Nat

namespace ServletDispatch

variable {α β : Type*}

def handle (env : Surroundings α β) (d : ServletDispatch α β) (x : Exchange) : Exchange :=
  match d.getMatchedServlet env.fnmatch (asString x.request.path) with
  | .of slt => env.servlet slt x
  | .FunctionServlet cb => env.callback cb x
  | .NotFoundServlet name => NotFoundServlet.handle name x

end ServletDispatch

structure HttpServer (α β : Type*) where
  isKeepAlive : Bool
  name : List UInt8
  dispatch : ServletDispatch α β

/-- How a round, or all of them, ended: the connection stays open, it was closed, `recvRequest`
threw what nothing here catches, or the loop of `writeFixSize` has no result. -/
inductive HttpServer.Round where
  | again (s : Stream)
  | closed (s : Stream)
  | thrown (s : Stream)
  | stuck

namespace HttpServer

variable {α β : Type*}

def setName (server : HttpServer α β) (v : String) : HttpServer α β :=
  { server with name := chars v, dispatch := server.dispatch.setDefault (.NotFoundServlet v) }

/-- The exchange of a request, behind the servlet. -/
def exchange (env : Surroundings α β) (server : HttpServer α β) (req : HttpRequest) (s : Stream) :
    Exchange :=
  server.dispatch.handle env {
    request := req
    response := (ServerResponse.create req.version (req.close || !server.isKeepAlive)).setHeader
      (chars "Server") server.name
    session := s }

/-- The body of the loop, for the `n`-th request. -/
def round (env : Surroundings α β) (server : HttpServer α β) (n : Nat) (s : Stream) : Round :=
  match HttpSession.recvRequest env.lexicalCast env.bufferSize env.uriRelaxed (env.queryStart n) s
    with
  | .error _ => .thrown s
  | .ok (none, s) => .closed s.close
  | .ok (some req, s) =>
    let x := server.exchange env req s
    match HttpSession.sendResponse x.response.toHttpResponse x.response.close x.response.websocket
        (env.rounds x.response.toString) x.session with
    | none => .stuck
    | some (_, s) => if !server.isKeepAlive || x.request.close then .closed s.close else .again s

/-- The loop. A round that goes on has read a byte, so one more round than there are bytes is
enough. -/
def handleClient (env : Surroundings α β) (server : HttpServer α β) : Nat → Nat → Stream → Round
  | 0, _, s => .again s
  | rounds + 1, n, s =>
    match server.round env n s with
    | .again s => handleClient env server rounds (n + 1) s
    | .closed s => .closed s
    | .thrown s => .thrown s
    | .stuck => .stuck

end HttpServer

/-! ## What is received -/

namespace HttpSession

/-- What a call of `recvRequest` leaves of the stream: a result has taken bytes, and no result has
closed the stream or left it. -/
structure Takes {γ : Type*} (s : Stream) (result : Option γ) (s' : Stream) : Prop where
  some : result.isSome = true → ∃ got, got ≠ [] ∧ s.Received got s'
  output_eq : s'.output = s.output

variable {γ δ : Type*} {s s₁ s' : Stream} {got : List UInt8}

theorem takes_close (h : s.Received got s₁) : Takes s (none : Option γ) s₁.close :=
  ⟨fun hsome => absurd hsome Bool.false_ne_true, h.output_eq⟩

theorem takes_some (h : s.Received got s₁) (hgot : got ≠ []) (result : γ) :
    Takes s (some result) s₁ :=
  ⟨fun _ => ⟨got, hgot, h⟩, h.output_eq⟩

/-- A call on what another one has left. -/
theorem Takes.after {result : Option γ} (h : Takes s₁ result s') (hrec : s.Received got s₁) :
    Takes s result s' := by
  refine ⟨fun hsome => ?_, h.output_eq.trans hrec.output_eq⟩
  obtain ⟨got', hgot', hrec'⟩ := h.some hsome
  exact ⟨got ++ got', fun hnil => hgot' (List.append_eq_nil_iff.mp hnil).2, hrec.trans hrec'⟩

theorem takes_recvHeader {bufferSize rounds : Nat} {parser : HttpRequestParser} {data : List UInt8}
    {result : Option (HttpRequestParser × List UInt8)} (hs : s.Reliable)
    (h : recvHeader bufferSize rounds parser s data = .ok (result, s')) : Takes s result s' := by
  induction rounds generalizing parser s data with
  | zero =>
    cases h
    exact ⟨fun hsome => absurd hsome Bool.false_ne_true, rfl⟩
  | succ rounds ih =>
    rw [recvHeader] at h
    rcases hread : s.read (bufferSize - data.length) with ⟨len, got, s₁⟩
    obtain ⟨hlen, hrec, -⟩ := Stream.received_of_read hs hread
    rw [hread] at h
    simp only at h
    split at h
    · cases h
      exact takes_close hrec
    · rename_i hpos
      have hgot : got ≠ [] := fun hnil => hpos (by rw [hlen, hnil]; exact le_rfl)
      split at h
      · cases h
      · split at h
        · cases h
          exact takes_close hrec
        · split at h
          · cases h
            exact takes_close hrec
          · split at h
            · cases h
              exact takes_some hrec hgot _
            · exact (ih (hrec.reliable hs) h).after hrec

theorem recvBody_output {length : Nat} {req : HttpRequest} {data : List UInt8}
    {result : Option HttpRequest} (hs : s.Reliable)
    (h : recvBody length req data s = .ok (result, s')) :
    s'.output = s.output ∧ (result.isSome = true → ∃ got, s.Received got s') := by
  rw [recvBody] at h
  split at h
  · cases h
    exact ⟨rfl, fun _ => ⟨[], Stream.Received.refl s⟩⟩
  · split at h
    · cases h
    · split at h
      · cases h
        exact ⟨rfl, fun _ => ⟨[], Stream.Received.refl s⟩⟩
      · rcases hread : s.readFixSize (remaining length data.length) with ⟨rt, bytes, s₁⟩
        have hrec := Stream.received_of_readFixSize hs hread
        rw [hread] at h
        simp only at h
        split at h
        · cases h
          exact ⟨hrec.output_eq, fun hsome => absurd hsome Bool.false_ne_true⟩
        · cases h
          exact ⟨hrec.output_eq, fun _ => ⟨bytes, hrec⟩⟩

theorem takes_recvRequest {lexicalCast : List UInt8 → Option Nat} {bufferSize queryStart : Nat}
    {uriRelaxed : Bool} {result : Option HttpRequest} (hs : s.Reliable)
    (h : recvRequest lexicalCast bufferSize uriRelaxed queryStart s = .ok (result, s')) :
    Takes s result s' := by
  rw [recvRequest] at h
  cases hheader : recvHeader bufferSize (s.input.length + 1) (.init uriRelaxed queryStart) s [] with
  | error e =>
    rw [hheader] at h
    cases h
  | ok found =>
    obtain ⟨found, s₁⟩ := found
    have htakes := takes_recvHeader hs hheader
    rw [hheader] at h
    cases found with
    | none =>
      cases h
      exact ⟨fun hsome => absurd hsome Bool.false_ne_true, htakes.output_eq⟩
    | some found =>
      obtain ⟨got, hgot, hrec⟩ := htakes.some rfl
      obtain ⟨houtput, hsome⟩ := recvBody_output (hrec.reliable hs) h
      refine ⟨fun hresult => ?_, houtput.trans hrec.output_eq⟩
      obtain ⟨got', hrec'⟩ := hsome hresult
      exact ⟨got ++ got', fun hnil => hgot (List.append_eq_nil_iff.mp hnil).1, hrec.trans hrec'⟩

end HttpSession

/-! ## Every connection -/

/-- The servlet makes a response of the request and leaves the session alone. -/
structure Answers (f : Exchange → Exchange) : Prop where
  request_eq : ∀ x, (f x).request = x.request
  session_eq : ∀ x s, f { x with session := s } = { f x with session := s }

/-- All servlets only answer, and a text is written in the rounds there are. -/
structure Surroundings.Plain {α β : Type*} (env : Surroundings α β) : Prop where
  servlet : ∀ slt, Answers (env.servlet slt)
  callback : ∀ cb, Answers (env.callback cb)
  rounds : ∀ text, text.length < env.rounds text

namespace HttpServer

variable {α β : Type*} {env : Surroundings α β} {server : HttpServer α β} {n rounds : Nat}
  {s s₁ s' : Stream} {req : HttpRequest}

theorem answers_handle (h : env.Plain) (d : ServletDispatch α β) : Answers (d.handle env) := by
  constructor
  · intro x
    rw [ServletDispatch.handle]
    split
    · exact (h.servlet _).request_eq x
    · exact (h.callback _).request_eq x
    · rfl
  · intro x s
    rw [ServletDispatch.handle, ServletDispatch.handle]
    dsimp only
    cases d.getMatchedServlet env.fnmatch (asString x.request.path) with
    | of slt => exact (h.servlet slt).session_eq x s
    | FunctionServlet cb => exact (h.callback cb).session_eq x s
    | NotFoundServlet name => rfl

/-- No connection. -/
def noSession : Stream where
  input := []
  output := []
  readPlan _ := 0
  writePlan _ := 0
  reads := 0
  writes := 0
  closed := true

/-- The response to a request. -/
def answer (env : Surroundings α β) (server : HttpServer α β) (req : HttpRequest) :
    ServerResponse :=
  (server.exchange env req noSession).response

/-- The connection is not kept open behind the request. -/
def closes (server : HttpServer α β) (req : HttpRequest) : Bool := !server.isKeepAlive || req.close

theorem exchange_eq (h : env.Plain) (req : HttpRequest) (s : Stream) :
    server.exchange env req s = ⟨req, server.answer env req, s⟩ := by
  have hanswers := answers_handle h server.dispatch
  have hsession := hanswers.session_eq
    ⟨req, (ServerResponse.create req.version (req.close || !server.isKeepAlive)).setHeader
      (chars "Server") server.name, noSession⟩ s
  have hrequest := hanswers.request_eq
    ⟨req, (ServerResponse.create req.version (req.close || !server.isKeepAlive)).setHeader
      (chars "Server") server.name, noSession⟩
  rw [answer, exchange, exchange]
  exact hsession.trans (congrArg (fun req => Exchange.mk req _ s) hrequest)

theorem round_received (h : env.Plain) (hs : s₁.Reliable)
    (hsize : (server.answer env req).toString.length < 2 ^ 64)
    (hrecv : HttpSession.recvRequest env.lexicalCast env.bufferSize env.uriRelaxed
      (env.queryStart n) s = .ok (some req, s₁)) :
    ∃ s₂, s₁.Sent (server.answer env req).toString s₂ ∧
      server.round env n s = if server.closes req then .closed s₂.close else .again s₂ := by
  obtain ⟨s₂, hwrite, hsent⟩ := Stream.writeFixSize_reliable hs hsize (h.rounds _)
  refine ⟨s₂, hsent, ?_⟩
  rw [ServerResponse.toString] at hwrite
  rw [round, hrecv]
  simp only [exchange_eq h, HttpSession.sendResponse, ServerResponse.toString, hwrite]
  rfl

/-- What a connection is for: the requests come one after the other, each is answered before the
next one is received, and the first one that closes is the last. -/
inductive Serves (env : Surroundings α β) (server : HttpServer α β) :
    Nat → Stream → List HttpRequest → Stream → Prop where
  | ended {n : Nat} {s : Stream} (h : ∀ req s', HttpSession.recvRequest env.lexicalCast
      env.bufferSize env.uriRelaxed (env.queryStart n) s ≠ .ok (some req, s')) :
      Serves env server n s [] s
  | last {n : Nat} {s s₁ s₂ : Stream} {req : HttpRequest}
      (hrecv : HttpSession.recvRequest env.lexicalCast env.bufferSize env.uriRelaxed
        (env.queryStart n) s = .ok (some req, s₁))
      (hsent : s₁.Sent (server.answer env req).toString s₂) (hcloses : server.closes req = true) :
      Serves env server n s [req] s₂
  | more {n : Nat} {s s₁ s₂ s' : Stream} {req : HttpRequest} {reqs : List HttpRequest}
      (hrecv : HttpSession.recvRequest env.lexicalCast env.bufferSize env.uriRelaxed
        (env.queryStart n) s = .ok (some req, s₁))
      (hsent : s₁.Sent (server.answer env req).toString s₂) (hopen : server.closes req = false)
      (hrest : Serves env server (n + 1) s₂ reqs s') : Serves env server n s (req :: reqs) s'

/-- The answers, in the order of the requests, are all that is sent. -/
theorem Serves.output_eq {reqs : List HttpRequest} (h : server.Serves env n s reqs s')
    (hs : s.Reliable) :
    s'.output = s.output ++ reqs.flatMap fun req => (server.answer env req).toString := by
  induction h with
  | ended h => rw [List.flatMap_nil, List.append_nil]
  | last hrecv hsent hcloses =>
    have htakes := HttpSession.takes_recvRequest hs hrecv
    rw [hsent.output_eq, htakes.output_eq, List.flatMap_singleton]
  | more hrecv hsent hopen hrest ih =>
    have htakes := HttpSession.takes_recvRequest hs hrecv
    obtain ⟨got, -, hrec⟩ := htakes.some rfl
    rw [ih (hsent.reliable (hrec.reliable hs)), hsent.output_eq, htakes.output_eq,
      List.flatMap_cons, List.append_assoc]

theorem Serves.open_ {reqs : List HttpRequest} (h : server.Serves env n s reqs s') :
    ∀ req ∈ reqs.dropLast, server.closes req = false := by
  induction h with
  | ended h => exact fun req hmem => absurd hmem List.not_mem_nil
  | last hrecv hsent hcloses => exact fun req hmem => absurd hmem List.not_mem_nil
  | more hrecv hsent hopen hrest ih =>
    intro req hmem
    rename_i first reqs
    cases reqs with
    | nil => exact absurd hmem List.not_mem_nil
    | cons second reqs =>
      rw [List.dropLast_cons_of_ne_nil (List.cons_ne_nil second reqs)] at hmem
      cases List.mem_cons.mp hmem with
      | inl heq => exact heq ▸ hopen
      | inr hmem => exact ih req hmem

/-- How a connection is left: closed, or by what `recvRequest` threw. -/
def Leaves (result : Round) (s' : Stream) : Prop :=
  result = .thrown s' ∨ ∃ s₂, result = .closed s₂ ∧ s₂.closed = true ∧ s₂.output = s'.output

/-- A servlet that always makes the same response. -/
def constant (rsp : ServerResponse) (x : Exchange) : Exchange := { x with response := rsp }

def plainSurroundings : Surroundings ServerResponse Empty where
  servlet := constant
  callback cb := cb.elim
  fnmatch _ _ := false
  lexicalCast := castDigit
  bufferSize := 4096
  uriRelaxed := false
  queryStart _ := 0
  rounds text := text.length + 1

theorem plainSurroundings_plain : plainSurroundings.Plain where
  servlet _ := ⟨fun _ => rfl, fun _ _ => rfl⟩
  callback cb := cb.elim
  rounds text := Nat.lt_succ_self text.length

def plainResponse : ServerResponse :=
  { HttpConnection.fullResponse with close := false, websocket := false }

/-- A server with this servlet for every path. -/
def plainServer : HttpServer ServerResponse Empty where
  isKeepAlive := true
  name := chars "x"
  dispatch := ⟨∅, [], .of plainResponse⟩

theorem answer_plain (req : HttpRequest) :
    plainServer.answer plainSurroundings req = plainResponse := rfl

end HttpServer

end CxkFramework
