import CxkFramework.HttpServer
import CxkFramework.WriteFixSize

/-!
# A client and the server

`HttpConnection` at one end of a connection and `HttpServer::handleClient` at the other: the client
sends a request and waits for the response, the server receives it, lets a servlet answer and sends
the answer.
-/

namespace CxkFramework

open Scanner

namespace HttpServer

variable {α β : Type*} {env : Surroundings α β} {server : HttpServer α β} {n rounds : Nat}
  {req : HttpRequest} {reqs : List HttpRequest} {s s₁ s' : Stream}

/-! ## Requests that the server can receive -/

/-- A request that is printed and received as it is, when it comes in good pieces. -/
structure Deliverable (env : Surroundings α β) (req : HttpRequest) : Prop where
  printable : req.Printable env.uriRelaxed
  method_ne : req.method ≠ .msearch
  path_eq : HttpParser.afterScheme req.path = none
  cast_eq : env.lexicalCast (decimal req.body.length) = some req.body.length

/-- What `recvRequest` makes of it. -/
def received (req : HttpRequest) : HttpRequest :=
  HttpSession.withBody (HttpRequestParser.parsed req) req.body

theorem Deliverable.sameAs (h : Deliverable env req) : req.SameAs (received req) :=
  h.printable.sameAs_iff.mpr h.path_eq

theorem closes_received (h : Deliverable env req) :
    server.closes (received req) = server.closes req := by
  rw [closes, closes, h.sameAs.close_eq]

/-- The first read brings the head and no more than the request. -/
def Brings (env : Surroundings α β) (req : HttpRequest) (s : Stream) : Prop :=
  ∃ len extra s₁, s.read env.bufferSize = (len, req.head ++ extra, s₁) ∧
    (extra.length : Int) ≠ toInt env.bufferSize ∧ BodyFits req.body.length extra.length

/-- The request is received, and what is behind it stays in the stream. -/
theorem recvRequest_deliverable (h : Deliverable env req) (hs : s.Reliable) {next : List UInt8}
    (hin : s.input = req.toString false ++ next) (hbrings : Brings env req s) (queryStart : Nat) :
    ∃ s', HttpSession.recvRequest env.lexicalCast env.bufferSize env.uriRelaxed queryStart s =
      .ok (some (received req), s') ∧ s'.input = next := by
  obtain ⟨len, extra, s₁, hread, hfull, hfits⟩ := hbrings
  obtain ⟨_, hrec, hmax, _⟩ := Stream.received_of_read hs hread
  have hheader := h.printable.head_eq
  rw [List.length_append, hheader] at hmax
  obtain ⟨final, hhead, hdata⟩ := HttpRequestParser.head_of_reads
    (HttpRequestParser.reads_headText h.printable h.method_ne) (by omega) queryStart
  rw [← hheader] at hhead
  have hlength := h.printable.getContentLength h.cast_eq hdata
  have hwhole : s.input = req.head ++ (req.body ++ next) := by
    rw [hin, h.printable.toString_eq_head, List.append_assoc]
  by_cases hbody : req.body = []
  · have hnil : extra = [] := by
      have hle := hfits.1
      rw [hbody] at hle
      exact List.length_eq_zero_iff.mp (Nat.le_zero.mp hle)
    have hnext : s₁.input = next := by
      have hall := hwhole.symm.trans hrec.input_eq
      rw [hnil, hbody, List.append_nil, List.nil_append, List.append_cancel_left_eq] at hall
      exact hall.symm
    refine ⟨s₁, ?_, hnext⟩
    rw [hhead.recvRequest_whole hs hread, if_neg hfull, hlength, hbody, HttpSession.recvBody,
      if_pos List.length_nil, hdata, received, HttpSession.withBody, hbody, if_pos rfl]
  · have hframes := (HttpSession.recvRequest_frames_iff hhead hlength hbody hs hwhole hread).mpr
      ⟨hfull, hfits⟩
    rw [hdata] at hframes
    exact hframes

/-- The peer sends nothing more. -/
theorem round_nothing (hs : s.Reliable) (hin : s.input = []) :
    ∃ s', server.round env n s = .closed s' ∧ s'.closed = true ∧ s'.output = s.output ∧
      s'.input = [] := by
  rcases hread : s.read env.bufferSize with ⟨len, got, s₁⟩
  obtain ⟨hlen, hrec, -⟩ := Stream.received_of_read hs hread
  have hsplit := hrec.input_eq
  rw [hin] at hsplit
  obtain ⟨hgot, hrest⟩ := List.append_eq_nil_iff.mp hsplit.symm
  refine ⟨s₁.close.close, ?_, rfl, hrec.output_eq, hrest⟩
  rw [round, HttpSession.recvRequest, HttpSession.recvHeader, List.length_nil, Nat.sub_zero, hread]
  dsimp only
  rw [if_pos (by rw [hlen, hgot]; exact le_rfl)]

/-- The round of one request. -/
theorem round_deliverable (henv : env.Plain) (h : Deliverable env req)
    (hsize : (server.answer env (received req)).toString.length < 2 ^ 64) (hs : s.Reliable)
    {next : List UInt8} (hin : s.input = req.toString false ++ next)
    (hbrings : Brings env req s) :
    ∃ s₂, s₂.Reliable ∧ s₂.input = next ∧
      s₂.output = s.output ++ (server.answer env (received req)).toString ∧
      s₂.readPlan = s.readPlan ∧ s₂.writePlan = s.writePlan ∧
      server.round env n s = if server.closes req then .closed s₂.close else .again s₂ := by
  obtain ⟨s₁, hrecv, hnext⟩ := recvRequest_deliverable h hs hin hbrings (env.queryStart n)
  obtain ⟨got, -, hrec⟩ := (HttpSession.takes_recvRequest hs hrecv).some rfl
  obtain ⟨s₂, hsent, hround⟩ := @round_received α β env server n s s₁ (received req) henv
    (hrec.reliable hs) hsize hrecv
  rw [closes_received h] at hround
  exact ⟨s₂, hsent.reliable (hrec.reliable hs), hsent.input_eq.trans hnext,
    by rw [hsent.output_eq, hrec.output_eq], hsent.readPlan_eq.trans hrec.readPlan_eq,
    hsent.writePlan_eq.trans hrec.writePlan_eq, hround⟩

/-! ## Requests one after the other -/

/-- The requests up to the first one that closes. -/
def served (server : HttpServer α β) : List HttpRequest → List HttpRequest
  | [] => []
  | req :: reqs => if server.closes req then [req] else req :: served server reqs

/-- In each round the first read brings the next request. -/
def InStep (env : Surroundings α β) (server : HttpServer α β) :
    Nat → List HttpRequest → Stream → Prop
  | _, [], _ => True
  | n, req :: reqs, s => Brings env req s ∧
    ∀ s', server.round env n s = .again s' → InStep env server (n + 1) reqs s'

/-- The request with all parts. -/
theorem deliverable_full : Deliverable plainSurroundings HttpSession.fullRequest where
  printable := HttpSession.fullRequest_printable
  method_ne := by decide
  path_eq := by decide
  cast_eq := by rfl

end HttpServer

/-! ## Both ends -/

/-- `HttpResult`: its errors behind the connection, and what its constructor is not reached for. -/
inductive HttpResult where
  | ok (rsp : HttpResponse)
  | sendCloseByPeer
  | sendSocketError
  | timeout
  | thrown
  | stuck
  deriving DecidableEq, Repr

/-- What a client is given: `lexical_cast`, what `ZlibStream` makes of a body, the configured size,
what is in `m_error` of a new parser, and the rounds of `writeFixSize`. -/
structure Client where
  lexicalCast : List UInt8 → Option Nat
  gunzip : List UInt8 → List UInt8
  inflate : List UInt8 → List UInt8
  bufferSize : Nat
  error : Nat
  rounds : List UInt8 → Nat

/-- A connection with both of its ends, and `handleClient` between two rounds of its loop; it is
`left` when the loop has ended. -/
structure Link where
  client : Stream
  server : Stream
  count : Nat
  left : Bool

namespace Link

variable {α β : Type*}

/-- What the client has sent arrives. -/
def up (link : Link) : Link :=
  { link with
    client := { link.client with output := [] }
    server := { link.server with input := link.server.input ++ link.client.output } }

/-- What the server has sent arrives. -/
def down (link : Link) : Link :=
  { link with
    client := { link.client with input := link.client.input ++ link.server.output }
    server := { link.server with output := [] } }

/-- The server's next round. An exception takes the session with it. -/
def serve (env : Surroundings α β) (server : HttpServer α β) (link : Link) : Link :=
  if link.left then link
  else
    match server.round env link.count link.server with
    | .again s => { link with server := s, count := link.count + 1 }
    | .closed s => { link with server := s, left := true }
    | .thrown s => { link with server := s.close, left := true }
    | .stuck => { link with left := true }

/-- `HttpConnection::DoRequest` on a connection, from `sendRequest` on, with a round of the server
between sending and receiving. -/
def doRequest (env : Surroundings α β) (server : HttpServer α β) (c : Client) (req : HttpRequest)
    (link : Link) : HttpResult × Link :=
  match HttpConnection.sendRequest req false (c.rounds (req.toString false)) link.client with
  | none => (.stuck, link)
  | some (ret, s) =>
    let link := (serve env server { link with client := s }.up).down
    if ret = 0 then (.sendCloseByPeer, link)
    else if ret < 0 then (.sendSocketError, link)
    else
      match HttpConnection.recvResponse c.lexicalCast c.gunzip c.inflate c.bufferSize c.error
          link.client with
      | .error _ => (.thrown, link)
      | .ok (none, s) => (.timeout, { link with client := s })
      | .ok (some rsp, s) => (.ok rsp, { link with client := s })

/-- One request after the other. -/
def doRequests (env : Surroundings α β) (server : HttpServer α β) (c : Client) :
    List HttpRequest → Link → List HttpResult × Link
  | [], link => ([], link)
  | req :: reqs, link =>
    let (result, link) := doRequest env server c req link
    let (results, link) := doRequests env server c reqs link
    (result :: results, link)

/-! ## Every request gets its own response -/

/-- A read gets all that waits and fits. -/
structure Prompt (s : Stream) : Prop where
  reliable : s.Reliable
  reads_all : ∀ i, s.readPlan i = Int32.maxValue

/-- Nothing is under way. -/
structure Idle (link : Link) : Prop where
  client : Prompt link.client
  server : link.left = false → Prompt link.server
  client_input : link.client.input = []
  client_output : link.client.output = []
  server_input : link.left = false → link.server.input = []
  server_output : link.server.output = []

/-- A client and a server with buffers of sizes that are positive as an `int`. -/
structure Ready (env : Surroundings α β) (c : Client) : Prop where
  plain : env.Plain
  request_size : env.bufferSize < 2 ^ 31
  response_size : c.bufferSize < 2 ^ 31
  error_eq : c.error = 0
  rounds : ∀ text, text.length < c.rounds text

/-- A request that the server can receive, with an answer that the client can receive. -/
structure Answerable (env : Surroundings α β) (server : HttpServer α β) (c : Client)
    (req : HttpRequest) : Prop where
  deliverable : HttpServer.Deliverable env req
  request_fits : (req.toString false).length ≤ env.bufferSize
  printable : (server.answer env (HttpServer.received req)).Printable
  websocket_eq : (server.answer env (HttpServer.received req)).websocket = false
  response_fits : (server.answer env (HttpServer.received req)).toString.length ≤ c.bufferSize
  cast_eq : c.lexicalCast (decimal (server.answer env (HttpServer.received req)).body.length) =
    some (server.answer env (HttpServer.received req)).body.length

/-- The servlet got the request, and its response came back. -/
def Answered (env : Surroundings α β) (server : HttpServer α β) (c : Client) (req : HttpRequest)
    (rsp : HttpResponse) : Prop :=
  req.SameAs (HttpServer.received req) ∧
    (server.answer env (HttpServer.received req)).SameAs c.gunzip c.inflate
      (server.answer env (HttpServer.received req)).close rsp

section Calls

variable {env : Surroundings α β} {server : HttpServer α β} {c : Client} {req : HttpRequest}
  {reqs : List HttpRequest} {link : Link} {s s' : Stream}

theorem Prompt.read_all (h : Prompt s) {size : Nat} (hsize : s.input.length ≤ size)
    (hmax : size < 2 ^ 31) :
    ∃ s', s.read size = ((s.input.length : Int), s.input, s') ∧ s'.input = [] := by
  have hplan : (s.readPlan s.reads).toInt = 2 ^ 31 - 1 := by
    rw [h.reads_all]
    rfl
  have htake : s.input.take (min size (s.readPlan s.reads).toInt.toNat) = s.input := by
    rw [hplan]
    exact List.take_of_length_le (by omega)
  refine ⟨{ s with reads := s.reads + 1, input := s.input.drop s.input.length }, ?_,
    List.drop_length⟩
  rw [Stream.read, if_neg (by rw [h.reliable.open_]; exact Bool.false_ne_true),
    if_neg (by rw [hplan]; omega)]
  simp only [htake]

theorem Prompt.sent (h : Prompt s) {text : List UInt8} (hsent : s.Sent text s') : Prompt s' :=
  ⟨hsent.reliable h.reliable, fun i => by rw [hsent.readPlan_eq, h.reads_all]⟩

theorem Prompt.received (h : Prompt s) {text : List UInt8} (hrec : s.Received text s') :
    Prompt s' :=
  ⟨hrec.reliable h.reliable, fun i => by rw [hrec.readPlan_eq, h.reads_all]⟩

/-- Bytes that arrive or leave change nothing in how a stream reads. -/
theorem Prompt.withBytes (h : Prompt s) (input output : List UInt8) :
    Prompt { s with input, output } :=
  ⟨⟨h.reliable.open_, h.reliable.reads_ok, h.reliable.writes_ok⟩, h.reads_all⟩

/-- The request is alone in the stream. -/
theorem brings_prompt (hready : Ready env c) (h : Answerable env server c req) (hs : Prompt s)
    (hin : s.input = req.toString false) : HttpServer.Brings env req s := by
  have hprint := h.deliverable.printable.toString_eq_head
  have hfits := h.request_fits
  have hsize := hready.request_size
  obtain ⟨s₁, hread, -⟩ := hs.read_all (by rw [hin]; exact h.request_fits) hready.request_size
  rw [hin, hprint] at hread
  rw [hprint, List.length_append] at hfits
  have hhead : 0 < req.head.length := by
    rw [h.deliverable.printable.head_eq, List.length_append]
    exact Nat.lt_add_left _ Nat.two_pos
  refine ⟨_, req.body, s₁, hread, ?_, le_rfl, by omega, .inl rfl⟩
  rw [Stream.toInt_of_lt (by omega) (by omega)]
  omega

/-- The response is alone in the stream. -/
theorem recvResponse_prompt (hready : Ready env c) (h : Answerable env server c req) (hs : Prompt s)
    (hin : s.input = (server.answer env (HttpServer.received req)).toString) :
    ∃ rsp s', HttpConnection.recvResponse c.lexicalCast c.gunzip c.inflate c.bufferSize c.error s =
        .ok (some rsp, s') ∧
      (server.answer env (HttpServer.received req)).SameAs c.gunzip c.inflate
        (server.answer env (HttpServer.received req)).close rsp ∧ s.Received s.input s' := by
  have hwebsocket := h.websocket_eq
  have hprintable := h.printable
  have hcast := h.cast_eq
  have hfits := h.response_fits
  have hsize := hready.response_size
  generalize server.answer env (HttpServer.received req) = rsp at *
  rw [ServerResponse.toString, hwebsocket] at hin hfits
  rw [hin]
  have hprint := hprintable.toString_eq_head rsp.close
  obtain ⟨s₁, hread, -⟩ := hs.read_all (by rw [hin]; exact hfits) hready.response_size
  rw [hin, hprint] at hread
  rw [hprint, List.length_append] at hfits
  have hhead : 0 < (rsp.head rsp.close).length := by
    rw [hprintable.head_eq, List.length_append]
    exact Nat.lt_add_left _ Nat.two_pos
  refine HttpConnection.recvResponse_fits hprintable hcast hs.reliable
    (hin.trans (List.append_nil _).symm) hread hready.error_eq ?_ ⟨le_rfl, by omega, .inl rfl⟩
  rw [Stream.toInt_of_lt (by omega) (by omega)]
  omega

theorem sendRequest_prompt (hready : Ready env c) (h : Answerable env server c req)
    (hs : Prompt s) :
    ∃ ret s', HttpConnection.sendRequest req false (c.rounds (req.toString false)) s =
      some (ret, s') ∧ 0 < ret ∧ s.Sent (req.toString false) s' := by
  have hfits := h.request_fits
  have hsize := hready.request_size
  obtain ⟨s', hwrite, hsent⟩ := Stream.writeFixSize_reliable hs.reliable (by omega)
    (hready.rounds (req.toString false))
  have hpos : 0 < (req.toString false).length :=
    List.length_pos_iff.mpr (Stream.toString_ne_nil req false)
  refine ⟨_, s', by rw [HttpConnection.sendRequest, hwrite]; rfl, ?_, hsent⟩
  rw [Stream.toInt_of_lt (by omega) (by omega)]
  omega

/-- A request on an open connection: its own answer comes back. -/
theorem doRequest_open (hready : Ready env c) (h : Answerable env server c req) (hidle : Idle link)
    (hopen : link.left = false) :
    ∃ rsp link', doRequest env server c req link = (.ok rsp, link') ∧
      Answered env server c req rsp ∧ Idle link' ∧ link'.left = server.closes req := by
  obtain ⟨ret, client, hsend, hret, hsent⟩ := sendRequest_prompt hready h hidle.client
  have hserver := hidle.server hopen
  have harrived : Prompt { link.server with input := link.server.input ++ client.output } :=
    hserver.withBytes _ link.server.output
  have hin : link.server.input ++ client.output = req.toString false := by
    rw [hidle.server_input hopen, hsent.output_eq, hidle.client_output, List.nil_append,
      List.nil_append]
  have hbrings := brings_prompt hready h harrived hin
  have hfits := h.response_fits
  have hsize := hready.response_size
  obtain ⟨s₂, hs₂, hrest, hout, hreads, -, hround⟩ := @HttpServer.round_deliverable α β env server
    link.count req _ hready.plain h.deliverable (by omega) harrived.reliable []
    (hin.trans (List.append_nil _).symm) hbrings
  have hprompt : Prompt s₂ := ⟨hs₂, fun i => by rw [hreads]; exact hserver.reads_all i⟩
  rw [hidle.server_output, List.nil_append] at hout
  have hwaiting : Prompt { client with input := client.input ++ s₂.output, output := [] } :=
    (hidle.client.sent hsent).withBytes _ _
  have hanswer : client.input ++ s₂.output =
      (server.answer env (HttpServer.received req)).toString := by
    rw [hsent.input_eq, hidle.client_input, hout, List.nil_append]
  obtain ⟨rsp, client', hrecv, hsame, hreceived⟩ := recvResponse_prompt hready h hwaiting hanswer
  have hempty : client'.input = [] := by
    have hall := hreceived.input_eq
    rwa [List.self_eq_append_right] at hall
  have hserve : serve env server { link with client := client }.up =
      { client := { client with output := [] }
        server := if server.closes req then s₂.close else s₂
        count := if server.closes req then link.count else link.count + 1
        left := server.closes req } := by
    rw [serve, up]
    dsimp only
    rw [hopen, if_neg Bool.false_ne_true, hround]
    cases server.closes req with
    | true => rfl
    | false => rfl
  have hresult : doRequest env server c req link = (.ok rsp,
      { client := client'
        server := { (if server.closes req then s₂.close else s₂) with output := [] }
        count := if server.closes req then link.count else link.count + 1
        left := server.closes req }) := by
    have hdown : (if server.closes req then s₂.close else s₂).output = s₂.output := by
      cases server.closes req with
      | true => rfl
      | false => rfl
    rw [doRequest, hsend]
    dsimp only
    rw [hserve, down]
    dsimp only
    rw [hdown, if_neg (by omega), if_neg (by omega), hrecv]
  refine ⟨rsp, _, hresult, ⟨h.deliverable.sameAs, hsame⟩, ?_, rfl⟩
  refine ⟨hwaiting.received hreceived, fun hleft => ?_, hempty, hreceived.output_eq,
    fun hleft => ?_, rfl⟩
  · have hclosed : server.closes req = false := hleft
    simp only [hclosed, Bool.false_eq_true, if_false]
    exact hprompt.withBytes s₂.input []
  · have hclosed : server.closes req = false := hleft
    simp only [hclosed, Bool.false_eq_true, if_false]
    exact hrest

/-- Nothing waits, and nothing is to come. -/
theorem recvResponse_nothing (c : Client) (hs : Prompt s) (hin : s.input = []) :
    ∃ s', HttpConnection.recvResponse c.lexicalCast c.gunzip c.inflate c.bufferSize c.error s =
        .ok (none, s') ∧ s.Received [] s' := by
  rcases hread : s.read c.bufferSize with ⟨len, got, s'⟩
  obtain ⟨hlen, hrec, -⟩ := Stream.received_of_read hs.reliable hread
  have hsplit := hrec.input_eq
  rw [hin] at hsplit
  obtain ⟨hgot, -⟩ := List.append_eq_nil_iff.mp hsplit.symm
  refine ⟨s', ?_, hgot ▸ hrec⟩
  rw [HttpConnection.recvResponse, HttpConnection.recvHeader, List.length_nil, Nat.sub_zero, hread]
  dsimp only
  rw [if_pos (by rw [hlen, hgot]; exact le_rfl)]

/-- A request on a connection that the server has left. -/
theorem doRequest_left (hready : Ready env c) (h : Answerable env server c req) (hidle : Idle link)
    (hleft : link.left = true) :
    ∃ link', doRequest env server c req link = (.timeout, link') ∧ Idle link' ∧
      link'.left = true := by
  obtain ⟨ret, client, hsend, hret, hsent⟩ := sendRequest_prompt hready h hidle.client
  have hserve : serve env server { link with client := client }.up =
      { link with client := client }.up := by
    have hup : ({ link with client := client }.up).left = true := hleft
    rw [serve, hup, if_pos rfl]
  have hwaiting :
      Prompt { client with input := client.input ++ link.server.output, output := [] } :=
    (hidle.client.sent hsent).withBytes _ _
  have hnothing : client.input ++ link.server.output = [] := by
    rw [hsent.input_eq, hidle.client_input, hidle.server_output, List.nil_append]
  generalize hclient : ({ client with input := client.input ++ link.server.output, output := [] } :
    Stream) = waiting at hwaiting
  have hinput : waiting.input = [] := by rw [← hclient]; exact hnothing
  obtain ⟨client', hrecv, hrec⟩ := recvResponse_nothing c hwaiting hinput
  have hrest : client'.input = [] := by
    rw [← hinput, hrec.input_eq, List.nil_append]
  refine ⟨{ link with
    client := client'
    server := { link.server with input := link.server.input ++ client.output, output := [] } },
    ?_, ?_, hleft⟩
  · rw [doRequest, hsend]
    dsimp only
    rw [hserve, up, down]
    dsimp only
    rw [if_neg (by omega), if_neg (by omega), hclient, hrecv]
  · refine ⟨hwaiting.received hrec, fun hopen => ?_, hrest, ?_, fun hopen => ?_, rfl⟩
    · cases hleft.symm.trans hopen
    · rw [hrec.output_eq, ← hclient]
    · cases hleft.symm.trans hopen

end Calls

/-! ## One call -/

def plainClient : Client where
  lexicalCast := castDigit
  gunzip := id
  inflate := id
  bufferSize := 4096
  error := 0
  rounds text := text.length + 1

def quietLink : Link where
  client := atOnce []
  server := atOnce []
  count := 0
  left := false

end Link

end CxkFramework
