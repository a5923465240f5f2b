import CxkFramework.HttpServer
import CxkFramework.WebSocketControl
import CxkFramework.WebSocketHandshake

/-!
# A connection of the WebSocket server

`WSServer::handleClient`: the handshake, the servlet of the path, and then its callbacks. What a
callback does to the session comes as a parameter; it may depend on all that happened before.
-/

namespace CxkFramework.WebSocket

open WebSocketHandshake (handleShake)

/-! ## The code -/

/-- A callback that was called, with what it returned. -/
inductive Event where
  | connected (rt : Int)
  | message (msg : WSFrameMessage) (rt : Int)
  | closed
  deriving DecidableEq, Repr

/-- `WSServlet`. A callback is given the events so far. -/
structure WSServlet where
  onConnect : List Event → HttpRequest → Stream → Int × Stream
  handle : List Event → HttpRequest → WSFrameMessage → Stream → Int × Stream
  onClose : List Event → HttpRequest → Stream → Int × Stream

/-- `FunctionWSServlet`: a callback that is not set returns zero. -/
def FunctionWSServlet
    (cb : Option (List Event → HttpRequest → WSFrameMessage → Stream → Int × Stream))
    (connect_cb close_cb : Option (List Event → HttpRequest → Stream → Int × Stream)) :
    WSServlet where
  onConnect events header s := (connect_cb.map fun f => f events header s).getD (0, s)
  handle events header msg s := (cb.map fun f => f events header msg s).getD (0, s)
  onClose events header s := (close_cb.map fun f => f events header s).getD (0, s)

/-- What the server is given: `dynamic_pointer_cast` of a servlet, `fnmatch`, the digest,
`lexical_cast`, the configured sizes, what is in `query_start` of the parser, and the rounds of the
loops of a stream. -/
structure Surroundings (α : Type*) where
  cast : α → Option WSServlet
  fnmatch : String → String → Bool
  sha1sum : List UInt8 → List UInt8
  castVersion : List UInt8 → Option Int
  castLength : List UInt8 → Option Nat
  bufferSize : Nat
  uriRelaxed : Bool
  queryStart : Nat
  maxSize : UInt32
  rounds : Nat

variable {α : Type*}

/-- The default of a dispatch and its functions are no servlets of this kind. -/
def getWSServlet (env : Surroundings α) (uri : String) (d : ServletDispatch α Empty) :
    Option WSServlet :=
  match d.getMatchedServlet env.fnmatch uri with
  | .of slt => env.cast slt
  | .FunctionServlet _ | .NotFoundServlet _ => none

/-- The loop over the messages; there is nothing when a call does not end within the rounds, or
not at all. -/
def handleMessages (env : Surroundings α) (slt : WSServlet) (header : HttpRequest) :
    Nat → List Event → Stream → Option (List Event × Stream)
  | 0, _, _ => none
  | messages + 1, events, s =>
    match WSRecvMessage env.maxSize env.rounds s false with
    | none => none
    | some (none, s) => some (events, s)
    | some (some msg, s) =>
      let (rt, s) := slt.handle events header msg s
      let events := events ++ [.message msg rt]
      if rt ≠ 0 then some (events, s) else handleMessages env slt header messages events s

/-- The events, and the stream afterwards. -/
def handleClient (env : Surroundings α) (d : ServletDispatch α Empty) (messages : Nat)
    (s : Stream) : Option (List Event × Stream) :=
  match handleShake env.sha1sum env.castVersion env.castLength env.bufferSize env.uriRelaxed
      env.queryStart env.rounds s with
  | none => none
  | some (none, s) => some ([], s.close)
  | some (some (header, _), s) =>
    match getWSServlet env (asString header.path) d with
    | none => some ([], s.close)
    | some slt =>
      let (rt, s) := slt.onConnect [] header s
      if rt ≠ 0 then some ([.connected rt], s.close)
      else
        match handleMessages env slt header messages [.connected rt] s with
        | none => none
        | some (events, s) =>
          let (_, s) := slt.onClose events header s
          some (events ++ [.closed], s.close)

/-! ## The life of a connection -/

/-- Messages that were handled well, and at most one more. -/
inductive Messages : List Event → Prop where
  | nil : Messages []
  | refused (msg : WSFrameMessage) {rt : Int} (h : rt ≠ 0) : Messages [.message msg rt]
  | handled (msg : WSFrameMessage) {events : List Event} (h : Messages events) :
    Messages (.message msg 0 :: events)

/-- No callback at all, a refused connection, or a connection that is closed once, behind its
messages. -/
inductive Life : List Event → Prop where
  | none : Life []
  | refused {rt : Int} (h : rt ≠ 0) : Life [.connected rt]
  | served {events : List Event} (h : Messages events) :
    Life (.connected 0 :: (events ++ [.closed]))

section Life

variable {env : Surroundings α} {d : ServletDispatch α Empty} {slt : WSServlet}
  {header : HttpRequest} {messages : Nat} {events events' : List Event} {s s' : Stream}

theorem handleMessages_life (h : handleMessages env slt header messages events s =
    some (events', s')) : ∃ more, Messages more ∧ events' = events ++ more := by
  induction messages generalizing events s with
  | zero => cases h
  | succ messages ih =>
    rw [handleMessages] at h
    split at h
    · cases h
    · cases h
      exact ⟨[], .nil, (List.append_nil _).symm⟩
    · rename_i msg s₁ _
      simp only at h
      split at h
      · rename_i hrt
        cases h
        exact ⟨_, .refused msg hrt, rfl⟩
      · rename_i hrt
        obtain ⟨more, hmore, rfl⟩ := ih h
        rw [not_not.mp hrt]
        exact ⟨_, .handled msg hmore, by rw [List.append_assoc, List.singleton_append]⟩

end Life

/-- A server without servlets. -/
def bare : Surroundings Empty where
  cast e := e.elim
  fnmatch _ _ := false
  sha1sum _ := []
  castVersion _ := none
  castLength _ := none
  bufferSize := 4096
  uriRelaxed := false
  queryStart := 0
  maxSize := 100
  rounds := 100

section Streams

variable {s s' : Stream} {rounds : Nat}

/-- A `write` closes nothing and keeps the plans. -/
theorem reliable_write (hs : s.Reliable) {buffer : List UInt8} {rt : Int}
    (h : s.write buffer = (rt, s')) : s'.Reliable := by
  have hplan := hs.writes_ok s.writes
  rw [Stream.write, if_neg (by rw [hs.open_]; exact Bool.false_ne_true), if_neg (by omega)] at h
  simp only [Prod.mk.injEq] at h
  obtain ⟨-, rfl⟩ := h
  exact ⟨hs.open_, hs.reads_ok, hs.writes_ok⟩

theorem reliable_writeLoop (hs : s.Reliable) {buffer : List UInt8} {offset left : Nat}
    {stop : Option Int} (h : Stream.writeLoop buffer rounds s offset left = some (stop, s')) :
    s'.Reliable := by
  induction rounds generalizing s offset left with
  | zero => cases h
  | succ rounds ih =>
    rw [Stream.writeLoop] at h
    split at h
    · cases h
      exact hs
    · split at h
      · cases h
      · rcases hwrite : s.write (Blocks.slice buffer offset left) with ⟨rt, s₁⟩
        have hs₁ := reliable_write hs hwrite
        rw [hwrite] at h
        simp only at h
        split at h
        · cases h
          exact hs₁
        · exact ih hs₁ h

theorem reliable_writeFixSize (hs : s.Reliable) {buffer : List UInt8} {rt : Int}
    (h : s.writeFixSize rounds buffer = some (rt, s')) : s'.Reliable := by
  rw [Stream.writeFixSize] at h
  cases hloop : Stream.writeLoop buffer rounds s 0 buffer.length with
  | none =>
    rw [hloop] at h
    cases h
  | some result =>
    obtain ⟨stop, s₁⟩ := result
    have hs₁ := reliable_writeLoop hs hloop
    rw [hloop] at h
    cases stop with
    | none =>
      simp only [Option.bind_eq_bind, Option.bind_some, Option.some.injEq, Prod.mk.injEq] at h
      exact h.2 ▸ hs₁
    | some len =>
      simp only [Option.bind_eq_bind, Option.bind_some, Option.some.injEq, Prod.mk.injEq] at h
      exact h.2 ▸ hs₁

theorem reliable_readFixSize (hs : s.Reliable) {length : Nat} {rt : Int} {bytes : List UInt8}
    (h : s.readFixSize length = (rt, bytes, s')) : s'.Reliable :=
  (Stream.received_of_readFixSize hs h).reliable hs

/-- The streams that a data frame leaves open. -/
def FrameResult.Open : FrameResult → Prop
  | .failed _ | .wild => True
  | .more _ s | .done _ s => s.Reliable

theorem reliable_recvData (hs : s.Reliable) (maxSize : UInt32) (client : Bool) (p : Partial)
    (head : WSFrameHead) : (recvData maxSize client p head s).Open := by
  have hlength : (readLength s head).2.Reliable := by
    rw [readLength]
    split
    · exact reliable_readFixSize hs rfl
    · split
      · exact reliable_readFixSize hs rfl
      · exact hs
  rw [recvData]
  split
  · exact trivial
  · rcases hread : readLength s head with ⟨length, s₁⟩
    rw [hread] at hlength
    cases length with
    | none => exact trivial
    | some length =>
      dsimp only
      split
      · exact trivial
      · have hmask : (readMask s₁ head).2.Reliable := by
          rw [readMask]
          split
          · exact reliable_readFixSize hlength rfl
          · exact hlength
        rcases hread' : readMask s₁ head with ⟨mask, s₂⟩
        rw [hread'] at hmask
        cases mask with
        | none => exact trivial
        | some mask =>
          dsimp only
          rw [recvPayload]
          split
          · exact trivial
          · rcases hbody : s₂.readFixSize length with ⟨rt, bytes, s₃⟩
            have hs₃ := reliable_readFixSize hmask hbody
            dsimp only
            split
            · exact trivial
            · split
              · exact trivial
              · split
                · exact hs₃
                · exact hs₃

/-- A message leaves the stream open. -/
theorem reliable_recvLoop {maxSize : UInt32} {client : Bool} {p : Partial} {msg : WSFrameMessage}
    (hs : s.Reliable) (h : recvLoop maxSize client rounds p s = some (some msg, s')) :
    s'.Reliable := by
  induction rounds generalizing p s with
  | zero => cases h
  | succ rounds ih =>
    rw [recvLoop] at h
    rcases hread : s.readFixSize 2 with ⟨rt, bytes, s₁⟩
    have hs₁ := reliable_readFixSize hs hread
    rw [hread] at h
    simp only at h
    split at h
    · cases h
    · split at h
      · rw [WSPong] at h
        cases hwrite : s₁.writeFixSize (rounds + 1)
            (WSFrameHead.bytes { fin := true, opcode := PONG }) with
        | none =>
          rw [hwrite] at h
          cases h
        | some result =>
          obtain ⟨v, s₂⟩ := result
          have hs₂ := reliable_writeFixSize hs₁ hwrite
          rw [hwrite] at h
          simp only [Option.bind_eq_bind, Option.bind_some] at h
          split at h
          · cases h
          · exact ih hs₂ h
      · split at h
        · exact ih hs₁ h
        · split at h
          · have hopen := reliable_recvData hs₁ maxSize client p (WSFrameHead.ofBytes bytes)
            split at h
            · cases h
            · rename_i hmore
              rw [hmore] at hopen
              exact ih hopen h
            · rename_i hdone
              rw [hdone] at hopen
              cases h
              exact hopen
            · cases h
          · exact ih hs₁ h

end Streams

/-- A message as a client sends it: fragments, each with its mask. -/
structure Outgoing where
  opcode : Nat
  frags : List (List UInt8 × UInt32)
  deriving DecidableEq, Repr

namespace Outgoing

def message (m : Outgoing) : WSFrameMessage := ⟨m.opcode, payload m.frags⟩

def bytes (m : Outgoing) : List UInt8 := wire true m.opcode m.frags

/-- A message that is sent with positive results and that the server takes. -/
structure Fits (maxSize : UInt32) (rounds : Nat) (m : Outgoing) : Prop where
  opcode_eq : m.opcode = TEXT_FRAME ∨ m.opcode = BIN_FRAME
  frags_ne : m.frags ≠ []
  countable : ∀ f ∈ m.frags, Countable f.1
  receivable : Receivable true 0 m.frags
  size_lt : (payload m.frags).length < maxSize.toNat
  rounds_le : m.frags.length ≤ rounds

end Outgoing

/-- Callbacks that do no more with the session than to send, and what `handle` returns. -/
structure Polite (slt : WSServlet) (verdict : List Event → HttpRequest → WSFrameMessage → Int) :
    Prop where
  onConnect : ∀ events header (s : Stream), s.Reliable →
    ∃ bytes, s.Sent bytes (slt.onConnect events header s).2
  handle : ∀ events header msg (s : Stream), s.Reliable →
    ∃ bytes, s.Sent bytes (slt.handle events header msg s).2
  verdict_eq : ∀ events header msg s, (slt.handle events header msg s).1 =
    verdict events header msg

/-- The messages are handled in order up to the first one that is not handled well. -/
def handled (verdict : List Event → HttpRequest → WSFrameMessage → Int) (header : HttpRequest) :
    List Event → List Outgoing → List Event
  | events, [] => events
  | events, m :: msgs =>
    let rt := verdict events header m.message
    let events := events ++ [.message m.message rt]
    if rt ≠ 0 then events else handled verdict header events msgs

section Client

variable {env : Surroundings α} {d : ServletDispatch α Empty} {slt : WSServlet}
  {verdict : List Event → HttpRequest → WSFrameMessage → Int} {header : HttpRequest}
  {messages : Nat} {events : List Event} {msgs : List Outgoing} {m : Outgoing} {s s₁ : Stream}
  {rest : List UInt8}

theorem recvMessage_fits (h : m.Fits env.maxSize env.rounds) (hs : s.Reliable)
    (hin : s.input = m.bytes ++ rest) :
    ∃ s', WSRecvMessage env.maxSize env.rounds s false = some (some m.message, s') ∧
      s'.input = rest ∧ s'.Reliable := by
  have hcode : m.opcode ≤ 2 ∧ m.opcode ≠ CONTINUE := by
    rcases h.opcode_eq with hop | hop <;> rw [hop] <;> decide
  have hkept : keptOpcode {} m.opcode = m.opcode := if_pos ⟨rfl, hcode.2⟩
  obtain ⟨-, s', hrecv, hrest⟩ | ⟨hnot, -⟩ := @recvFragments s env.rounds true hs env.maxSize
    m.opcode m.opcode 0 m.frags rest {} h.frags_ne ⟨rfl, rfl⟩ hcode.1 hkept h.countable
    (by rw [Nat.zero_add]; exact h.size_lt) h.rounds_le hin
  · exact ⟨s', hrecv, hrest, reliable_recvLoop hs hrecv⟩
  · exact absurd h.receivable hnot

/-- The peer sends nothing more. -/
theorem recvMessage_nothing (hs : s.Reliable) (hin : s.input = []) (hrounds : 0 < env.rounds) :
    ∃ s', WSRecvMessage env.maxSize env.rounds s false = some (none, s') := by
  obtain ⟨rounds, hrounds⟩ : ∃ k, env.rounds = k + 1 := ⟨env.rounds - 1, by omega⟩
  rcases hread : s.read 2 with ⟨len, got, s₁⟩
  obtain ⟨hlen, hrec, -⟩ := Stream.received_of_read hs hread
  have hsplit := hrec.input_eq
  rw [hin] at hsplit
  have hgot := (List.append_eq_nil_iff.mp hsplit.symm).1
  have hnone : s.readFixSize 2 = (0, [], s₁) := by
    have hloop : Stream.readLoop 2 s 2 = (some 0, [], s₁) := by
      rw [Stream.readLoop, if_neg (by decide), hread, hlen, hgot]
      rfl
    rw [Stream.readFixSize, if_pos (by decide), hloop]
    rfl
  refine ⟨s₁.close, ?_⟩
  rw [WSRecvMessage, hrounds, recvLoop, hnone]
  exact if_pos le_rfl

theorem handleMessages_client (hslt : Polite slt verdict)
    (h : ∀ m ∈ msgs, m.Fits env.maxSize env.rounds) (hrounds : 0 < env.rounds) (hs : s.Reliable)
    (hin : s.input = msgs.flatMap Outgoing.bytes) (hmessages : msgs.length < messages) :
    ∃ s', handleMessages env slt header messages events s =
      some (handled verdict header events msgs, s') := by
  induction msgs generalizing events s messages with
  | nil =>
    obtain ⟨messages, rfl⟩ : ∃ k, messages = k + 1 := ⟨messages - 1, by omega⟩
    obtain ⟨s', hrecv⟩ := @recvMessage_nothing α env s hs hin hrounds
    refine ⟨s', ?_⟩
    rw [handleMessages, hrecv, handled]
  | cons m msgs ih =>
    rw [List.length_cons] at hmessages
    obtain ⟨messages, rfl⟩ : ∃ k, messages = k + 1 := ⟨messages - 1, by omega⟩
    rw [List.flatMap_cons] at hin
    obtain ⟨s₁, hrecv, hrest, hs₁⟩ := @recvMessage_fits α env m s _ (h m List.mem_cons_self) hs hin
    obtain ⟨bytes, hsent⟩ := hslt.handle events header m.message s₁ hs₁
    have hverdict := hslt.verdict_eq events header m.message s₁
    rcases hhandle : slt.handle events header m.message s₁ with ⟨rt, s₂⟩
    rw [hhandle] at hsent hverdict
    dsimp only at hsent hverdict
    have hstep : handleMessages env slt header (messages + 1) events s =
        if rt ≠ 0 then some (events ++ [.message m.message rt], s₂)
        else handleMessages env slt header messages (events ++ [.message m.message rt]) s₂ := by
      rw [handleMessages, hrecv]
      simp only [hhandle]
    rw [hstep, handled, ← hverdict]
    by_cases hrt : rt ≠ 0
    · exact ⟨s₂, by rw [if_pos hrt, if_pos hrt]⟩
    · obtain ⟨s', hmore⟩ := @ih messages (events ++ [.message m.message rt]) s₂
        (fun m hmem => h m (List.mem_cons_of_mem _ hmem)) (hsent.reliable hs₁)
        (hsent.input_eq.trans hrest) (by omega)
      exact ⟨s', by rw [if_neg hrt, if_neg hrt]; exact hmore⟩

/-- Behind a handshake, a client's messages come to the servlet of the path one by one and in order,
whole and without their masks, until the first one that it refuses. -/
theorem handleClient_messages {rsp : HttpResponse} (hslt : Polite slt verdict)
    (hshake : handleShake env.sha1sum env.castVersion env.castLength env.bufferSize env.uriRelaxed
      env.queryStart env.rounds s = some (some (header, rsp), s₁))
    (hpath : getWSServlet env (asString header.path) d = some slt)
    (hconnect : (slt.onConnect [] header s₁).1 = 0)
    (h : ∀ m ∈ msgs, m.Fits env.maxSize env.rounds) (hrounds : 0 < env.rounds)
    (hs : s₁.Reliable) (hin : s₁.input = msgs.flatMap Outgoing.bytes)
    (hmessages : msgs.length < messages) :
    ∃ s', handleClient env d messages s =
      some (handled verdict header [.connected 0] msgs ++ [.closed], s') ∧ s'.closed = true := by
  obtain ⟨bytes, hsent⟩ := hslt.onConnect [] header s₁ hs
  rcases hcall : slt.onConnect [] header s₁ with ⟨rt, s₂⟩
  rw [hcall] at hsent hconnect
  dsimp only at hsent hconnect
  subst hconnect
  obtain ⟨s₃, hmore⟩ := @handleMessages_client α env slt verdict header messages [.connected 0] msgs
    s₂ hslt h hrounds (hsent.reliable hs) (hsent.input_eq.trans hin) hmessages
  refine ⟨(slt.onClose (handled verdict header [.connected 0] msgs) header s₃).2.close, ?_, rfl⟩
  rw [handleClient, hshake]
  simp only [hpath, hcall, hmore, ne_eq, not_true_eq_false, if_false]

end Client

end CxkFramework.WebSocket
