import CxkFramework.RockStreamTable

/-!
# Two ends of a Rock connection

A stream with any number of callers, the session at its other end, whose handlers run as tasks of
their own and in any order, and the bytes in between, as the messages they are. Nothing in a
response but its number says which request it is for. A break of the connection loses what is on
the way; the stream may connect again.
-/

namespace CxkFramework

open Runs

/-! ## What a step of the stream can do -/

namespace RockStream

/-- The response that a line of work carries. -/
def Stage.response : Stage → Option RockResponse
  | .setResult _ rsp => rsp
  | .setResponse rsp => some rsp
  | _ => none

/-- A response is with a request: in its context, on the way into it, or returned. -/
inductive Holds (s : RockStream) (r : Nat) (rsp : RockResponse) : Prop where
  | ctx (h : (s.ctx r).response = some rsp)
  | stage (j : Nat) (st : Stage) (h : stageOf s r j = some st) (hst : st.response = some rsp)
  | returned (res : Int32) (h : s.phase r = .returned res (some rsp))

/-- The thread of a request is between `addCtx` and its return. -/
def Phase.waits : Phase → Prop
  | .addTimer | .setTimer | .hold => True
  | _ => False

variable {s s' : RockStream} {r : Nat} {rsp : RockResponse}

/-- What is with a request after a change of one context and one job. -/
theorem holds_setJob {s₁ : RockStream} {j : Nat} {x : Job} (h : Holds (s₁.setJob j x) r rsp)
    (hphase : s₁.phase = s.phase) (hjob : s₁.job = s.job)
    (hctx : (s₁.ctx r).response = some rsp → Holds s r rsp)
    (hstage : ∀ st, x.stageOn r = some st → st.response = some rsp → Holds s r rsp) :
    Holds s r rsp := by
  cases h with
  | ctx h => exact hctx h
  | stage j' st h hst =>
    rw [stageOf_setJob] at h
    by_cases heq : j' = j
    · rw [heq, Function.update_self] at h
      exact hstage st h hst
    · rw [Function.update_of_ne heq] at h
      refine .stage j' st ?_ hst
      rw [stageOf, ← hjob]
      exact h
  | returned res h => exact .returned res (hphase ▸ h)

/-- A change of a context that leaves its response alone. -/
theorem response_setCtx {r' : Nat} {c : RockCtx}
    (h : ((s.setCtx r' c).ctx r).response = some rsp)
    (hc : c.response = (s.ctx r').response) : (s.ctx r).response = some rsp := by
  simp only [setCtx] at h
  by_cases heq : r = r'
  · rw [heq, Function.update_self, hc] at h
    exact heq ▸ h
  · rw [Function.update_of_ne heq] at h
    exact h

/-- A line of work brings a response into the context only if it carries it. -/
theorem advance_response {st : Stage} {r' : Nat}
    (h : ((s.advance r st).1.ctx r').response = some rsp) :
    (s.ctx r').response = some rsp ∨ r' = r ∧ st.response = some rsp := by
  cases st with
  | erase => exact .inl h
  | setTimed => exact .inl (response_setCtx h rfl)
  | setResult v o => exact .inl (response_setCtx h rfl)
  | setResponse m =>
    by_cases heq : r' = r
    · rw [heq] at h
      simp only [advance, setCtx, Function.update_self] at h
      exact .inr ⟨heq, h⟩
    · rw [(advance_frame _).ctx_eq r' heq] at h
      exact .inl h
  | doRsp => exact .inl h
  | swap scd =>
    simp only [advance] at h
    split at h
    · exact .inl (response_setCtx h rfl)
    · exact .inl h
  | cancelTimer =>
    simp only [advance] at h
    split at h
    · exact .inl (response_setCtx h rfl)
    · exact .inl h
  | applyTimed =>
    simp only [advance] at h
    split at h
    · exact .inl (response_setCtx h rfl)
    · exact .inl h
  | schedule =>
    simp only [advance] at h
    split at h
    · exact .inl (response_setCtx h rfl)
    · exact .inl h

/-- The next line carries what this one carries. -/
theorem advance_next {st st' : Stage} (h : (s.advance r st).2 = some st')
    (hst : st'.response = some rsp) : st.response = some rsp := by
  cases st with
  | erase => cases h; cases hst
  | setTimed => cases h; cases hst
  | setResult v o =>
    cases o with
    | none => cases h; cases hst
    | some m => cases h; exact hst
  | setResponse m => cases h; cases hst
  | doRsp => cases h; cases hst
  | swap scd =>
    simp only [advance] at h
    split at h
    · split at h
      · cases h; cases hst
      · cases h
    · cases h
  | cancelTimer => cases h; cases hst
  | applyTimed => cases h; cases hst
  | schedule => cases h

/-- What is with a request after a step of its own thread. -/
theorem holds_phase {r' : Nat} {p : Phase} {s₁ : RockStream} (h : Holds (s₁.setPhase r' p) r rsp)
    (hphase : s₁.phase = s.phase) (hjob : s₁.job = s.job)
    (hctx : (s₁.ctx r).response = some rsp → Holds s r rsp)
    (hp : ∀ res, p = .returned res (some rsp) → Holds s r' rsp) : Holds s r rsp := by
  cases h with
  | ctx h => exact hctx h
  | stage j st h hst =>
    refine .stage j st ?_ hst
    rw [stageOf, ← hjob]
    exact h
  | returned res h =>
    simp only [setPhase] at h
    by_cases heq : r = r'
    · rw [heq, Function.update_self] at h
      exact heq ▸ hp res h
    · rw [Function.update_of_ne heq, hphase] at h
      exact .returned res h

theorem request_holds {sn : UInt32} (h : Holds (s.request sn) r rsp) : Holds s r rsp := by
  have hreq := requested s sn
  cases h with
  | ctx h =>
    by_cases heq : r = s.requests
    · rw [heq, hreq.ctx_self] at h
      cases h
    · exact .ctx (hreq.ctx_eq r heq ▸ h)
  | stage j st h hst => exact .stage j st (hreq.stage_eq r ▸ h) hst
  | returned res h =>
    by_cases heq : r = s.requests
    · rw [heq] at h
      cases hreq.phase_self with
      | inl hadd => cases hadd.symm.trans h
      | inr hreturned => cases hreturned.symm.trans h
    · exact .returned res (hreq.phase_eq r heq ▸ h)

/-- A line of work on a context. -/
theorem work_holds {j : Nat} (h : s.work j = .ok s') (hholds : Holds s' r rsp) :
    Holds s r rsp := by
  rw [work] at h
  split at h
  · cases h
  · cases h
    refine holds_setJob hholds rfl rfl (fun h => .ctx h) fun st hst hrsp => ?_
    rw [Job.stageOn] at hst
    split at hst
    · cases hst
      cases hrsp
    · cases hst
  · rename_i r₁ st rest hjob
    cases h
    have hj : stageOf s r₁ j = some st := by rw [stageOf, hjob, Job.stageOn, if_pos rfl]
    refine holds_setJob hholds (advance_frame st).phase_eq (advance_frame st).job_eq
      (fun hctx => ?_) fun st' hst' hrsp => ?_
    · cases advance_response hctx with
      | inl hold => exact .ctx hold
      | inr hcarried => exact .stage j st (hcarried.1 ▸ hj) hcarried.2
    · cases hnext : (s.advance r₁ st).2 with
      | none =>
        rw [hnext] at hst'
        cases hst'
      | some st₁ =>
        rw [hnext, nextJob, Job.stageOn] at hst'
        split at hst'
        · rename_i heq
          cases hst'
          exact heq ▸ .stage j st hj (advance_next hnext hrsp)
        · cases hst'
  · cases h

/-- A response comes to a request only when `doRecv` finds the request under its number. -/
theorem step_holds {op : Op} (h : Step s op s') (hholds : Holds s' r rsp) :
    Holds s r rsp ∨
      ∃ j, op = .doRecv j (some (.response rsp)) ∧ s.ctxs.lookup rsp.sn = some r := by
  cases op with
  | request sn =>
    cases h
    exact .inl (request_holds hholds)
  | addCtx r' =>
    rw [Step, step, addCtx] at h
    split at h
    · cases h
      exact .inl (holds_phase hholds rfl rfl (fun h => .ctx h) fun res heq => by cases heq)
    · cases h
  | addTimer r' =>
    rw [Step, step, addTimer] at h
    split at h
    · cases h
      exact .inl (holds_phase hholds rfl rfl (fun h => .ctx (response_setCtx h rfl))
        fun res heq => by cases heq)
    · cases h
  | setTimer r' =>
    rw [Step, step, setTimer] at h
    split at h
    · cases h
      exact .inl (holds_phase hholds rfl rfl (fun h => .ctx (response_setCtx h rfl))
        fun res heq => by cases heq)
    · cases h
  | resume r' =>
    rw [Step, step, resume] at h
    split at h
    · split at h
      · cases h
      · cases h
        refine .inl (holds_phase hholds rfl rfl (fun h => .ctx h) fun res heq => ?_)
        simp only [Phase.returned.injEq] at heq
        exact .ctx heq.2
    · cases h
  | expire j r' =>
    rw [Step, step, expire] at h
    split at h
    · split at h
      · cases h
        refine .inl (holds_setJob hholds rfl rfl (fun h => .ctx (response_setCtx h rfl))
          fun st hst hrsp => ?_)
        rw [Job.stageOn] at hst
        split at hst
        · cases hst
          cases hrsp
        · cases hst
      · cases h
    · cases h
  | innerClose j =>
    rw [Step, step, innerClose] at h
    split at h
    · cases h
      exact .inl (holds_setJob hholds rfl rfl (fun h => .ctx h) fun st hst => by cases hst)
    · cases h
  | swapCtxs j order =>
    rw [Step, step, swapCtxs] at h
    split at h
    · split at h
      · cases h
        exact .inl (holds_setJob hholds rfl rfl (fun h => .ctx h) fun st hst => by cases hst)
      · cases h
    · cases h
  | doRecv j msg =>
    rw [Step, step, doRecv.eq_def] at h
    split at h
    · split at h
      · cases h
        exact .inl (holds_setJob hholds rfl rfl (fun h => .ctx h) fun st hst => by cases hst)
      · rename_i m
        split at h
        · cases h
        · rename_i r₁ hlookup
          cases h
          by_cases hnew : r = r₁ ∧ rsp = m
          · obtain ⟨rfl, rfl⟩ := hnew
            exact .inr ⟨j, rfl, hlookup⟩
          · refine .inl (holds_setJob hholds rfl rfl (fun h => .ctx (response_setCtx h rfl))
              fun st hst hrsp => ?_)
            rw [Job.stageOn] at hst
            split at hst
            · rename_i heq
              cases hst
              exact absurd ⟨heq.symm, (Option.some.inj hrsp).symm⟩ hnew
            · cases hst
      · cases h
        exact .inl hholds
      · cases h
        exact .inl hholds
    · cases h
  | work j => exact .inl (work_holds h hholds)
  | reconnect =>
    cases h
    cases hholds with
    | ctx h => exact .inl (.ctx h)
    | stage j st h hst => exact .inl (.stage j st h hst)
    | returned res h => exact .inl (.returned res h)

/-- How the numbers, the table and the places of the callers change. -/
structure Moves (s : RockStream) (op : Op) (s' : RockStream) : Prop where
  requests_eq : (∃ sn, op = .request sn) ∨ s'.requests = s.requests
  sn_eq : ∀ r < s.requests, (s'.ctx r).sn = (s.ctx r).sn
  table : ∀ e ∈ s'.ctxs,
    e ∈ s.ctxs ∨ op = .addCtx e.2 ∧ e.1 = (s.ctx e.2).sn ∧ s.phase e.2 = .addCtx
  waits : ∀ r, (s'.phase r).waits → (s.phase r).waits ∨ op = .addCtx r ∧ s.phase r = .addCtx
  begun : ∀ r, s'.phase r ≠ .none →
    s.phase r ≠ .none ∨ r = s.requests ∧ s'.requests = s.requests + 1
  connected : s'.connected = false →
    s.connected = false ∨ ∃ j, op = .innerClose j ∨ op = .doRecv j none

/-- A step of no thread of a request. -/
theorem moves_of_same {op : Op} (hrequests : s'.requests = s.requests)
    (hphase : s'.phase = s.phase) (hsn : ∀ r, (s'.ctx r).sn = (s.ctx r).sn)
    (htable : ∀ e ∈ s'.ctxs, e ∈ s.ctxs)
    (hconnected : s'.connected = false →
      s.connected = false ∨ ∃ j, op = .innerClose j ∨ op = .doRecv j none) : Moves s op s' where
  requests_eq := .inr hrequests
  sn_eq r _ := hsn r
  table e he := .inl (htable e he)
  waits _ h := .inl (hphase ▸ h)
  begun _ h := .inl (hphase ▸ h)
  connected := hconnected

/-- A step of the thread of a request behind `addCtx`. -/
theorem moves_setPhase {op : Op} {r' : Nat} {p : Phase} {s₁ : RockStream}
    (hrequests : s₁.requests = s.requests) (hphase : s₁.phase = s.phase)
    (hsn : ∀ r, (s₁.ctx r).sn = (s.ctx r).sn) (htable : s₁.ctxs = s.ctxs)
    (hconnected : s₁.connected = s.connected) (hp : (s.phase r').waits) :
    Moves s op (s₁.setPhase r' p) where
  requests_eq := .inr hrequests
  sn_eq r _ := hsn r
  table e he := .inl (htable ▸ he)
  waits r h := by
    by_cases heq : r = r'
    · exact .inl (heq ▸ hp)
    · simp only [setPhase, Function.update_of_ne heq, hphase] at h
      exact .inl h
  begun r h := by
    by_cases heq : r = r'
    · refine .inl fun hnone => ?_
      rw [heq] at hnone
      rw [hnone] at hp
      exact hp
    · simp only [setPhase, Function.update_of_ne heq, hphase] at h
      exact .inl h
  connected h := .inl (hconnected ▸ h)

theorem sn_setCtx {r' : Nat} {c : RockCtx} (hc : c.sn = (s.ctx r').sn) (r : Nat) :
    ((s.setCtx r' c).ctx r).sn = (s.ctx r).sn := by
  simp only [setCtx]
  by_cases heq : r = r'
  · rw [heq, Function.update_self, hc]
  · rw [Function.update_of_ne heq]

theorem advance_sn (st : Stage) (r r' : Nat) : ((s.advance r st).1.ctx r').sn = (s.ctx r').sn := by
  by_cases heq : r' = r
  · rw [heq]
    exact (advance_frame st).sn_eq
  · rw [(advance_frame st).ctx_eq r' heq]

theorem advance_connected (st : Stage) (r : Nat) : (s.advance r st).1.connected = s.connected := by
  have hsplit : ∀ (b : Prop) [Decidable b] (s₁ s₂ : RockStream), s₁.connected = s.connected →
      s₂.connected = s.connected → (if b then s₁ else s₂).connected = s.connected := by
    intro b _ s₁ s₂ h₁ h₂
    split
    · exact h₁
    · exact h₂
  cases st with
  | erase => rfl
  | setTimed => rfl
  | setResult v rsp => rfl
  | setResponse rsp => rfl
  | doRsp => rfl
  | swap scd =>
    rw [advance]
    split
    · rfl
    · rfl
  | cancelTimer => exact hsplit _ _ _ rfl rfl
  | applyTimed => exact hsplit _ _ _ rfl rfl
  | schedule => exact hsplit _ _ _ rfl rfl

theorem step_moves {op : Op} (h : Step s op s') : Moves s op s' := by
  cases op with
  | request sn =>
    cases h
    have hreq := requested s sn
    refine ⟨.inl ⟨sn, rfl⟩, fun r hr => ?_, fun e he => .inl (hreq.ctxs_eq ▸ he),
      fun r hr => .inl ?_, fun r hr => ?_, fun hconn => .inl ?_⟩
    · rw [hreq.ctx_eq r (Nat.ne_of_lt hr)]
    · by_cases heq : r = s.requests
      · subst heq
        cases hreq.phase_self with
        | inl hadd =>
          rw [hadd] at hr
          exact absurd hr id
        | inr hreturned =>
          rw [hreturned] at hr
          exact absurd hr id
      · exact hreq.phase_eq r heq ▸ hr
    · by_cases heq : r = s.requests
      · exact .inr ⟨heq, hreq.requests_eq⟩
      · exact .inl (hreq.phase_eq r heq ▸ hr)
    · rw [request] at hconn
      split at hconn
      · exact hconn
      · exact hconn
  | addCtx r' =>
    rw [Step, step, addCtx] at h
    split at h
    · rename_i hp
      cases h
      refine ⟨.inr rfl, fun _ _ => rfl, fun e he => ?_, fun r hr => ?_, fun r hr => .inl ?_, .inl⟩
      · dsimp only [setPhase] at he
        split at he
        · exact .inl he
        · cases List.mem_cons.mp he with
          | inl heq =>
            rw [heq]
            exact .inr ⟨rfl, rfl, hp⟩
          | inr hmem => exact .inl hmem
      · by_cases heq : r = r'
        · subst heq
          exact .inr ⟨rfl, hp⟩
        · simp only [setPhase, Function.update_of_ne heq] at hr
          exact .inl hr
      · by_cases heq : r = r'
        · rw [heq, hp]
          exact fun hnone => by cases hnone
        · simp only [setPhase, Function.update_of_ne heq] at hr
          exact hr
    · cases h
  | addTimer r' =>
    rw [Step, step, addTimer] at h
    split at h
    · rename_i hp
      cases h
      exact moves_setPhase rfl rfl (sn_setCtx rfl) rfl rfl (by rw [hp]; trivial)
    · cases h
  | setTimer r' =>
    rw [Step, step, setTimer] at h
    split at h
    · rename_i hp
      cases h
      exact moves_setPhase rfl rfl (sn_setCtx rfl) rfl rfl (by rw [hp]; trivial)
    · cases h
  | resume r' =>
    rw [Step, step, resume] at h
    split at h
    · rename_i hp
      split at h
      · cases h
      · cases h
        exact moves_setPhase rfl rfl (fun _ => rfl) rfl rfl (by rw [hp]; trivial)
    · cases h
  | expire j r' =>
    rw [Step, step, expire] at h
    split at h
    · split at h
      · cases h
        exact moves_of_same rfl rfl (sn_setCtx rfl) (fun _ he => he) .inl
      · cases h
    · cases h
  | innerClose j =>
    rw [Step, step, innerClose] at h
    split at h
    · cases h
      exact moves_of_same rfl rfl (fun _ => rfl) (fun _ he => he) fun _ => .inr ⟨j, .inl rfl⟩
    · cases h
  | swapCtxs j order =>
    rw [Step, step, swapCtxs] at h
    split at h
    · split at h
      · cases h
        exact moves_of_same rfl rfl (fun _ => rfl) (fun _ he => absurd he List.not_mem_nil) .inl
      · cases h
    · cases h
  | doRecv j msg =>
    rw [Step, step, doRecv.eq_def] at h
    split at h
    · split at h
      · cases h
        exact moves_of_same rfl rfl (fun _ => rfl) (fun _ he => he) fun _ => .inr ⟨j, .inr rfl⟩
      · split at h
        · cases h
        · cases h
          exact moves_of_same rfl rfl (sn_setCtx rfl) (fun _ he => List.mem_of_mem_filter he) .inl
      · cases h
        exact moves_of_same rfl rfl (fun _ => rfl) (fun _ he => he) .inl
      · cases h
        exact moves_of_same rfl rfl (fun _ => rfl) (fun _ he => he) .inl
    · cases h
  | work j =>
    rw [Step, step, work] at h
    split at h
    · cases h
    · cases h
      exact moves_of_same rfl rfl (fun _ => rfl) (fun _ he => he) .inl
    · cases h
      exact moves_of_same (advance_frame _).requests_eq (advance_frame _).phase_eq (advance_sn _ _)
        (advance_frame _).ctxs_of fun h => .inl (advance_connected _ _ ▸ h)
    · cases h
  | reconnect =>
    cases h
    exact moves_of_same rfl rfl (fun _ => rfl) (fun _ he => he) fun h => by cases h

end RockStream

/-! ## Both ends -/

namespace RockLink

open RockStream

/-- What a handler puts into the response. -/
structure Reply where
  result : UInt32
  resultStr : List UInt8
  body : List UInt8
  deriving DecidableEq, Repr

/-- `createResponse`, and what the handler adds. -/
def createResponse (req : RockRequest) (reply : Reply) : RockResponse where
  sn := req.sn
  cmd := req.cmd
  result := reply.result
  resultStr := reply.resultStr
  body := reply.body

inductive Op where
  | request (req : RockRequest)
  /-- what the stream does without the other end -/
  | stream (op : RockStream.Op)
  /-- `enqueue(ctx)` in `request` -/
  | enqueue (r : Nat)
  | resume (r : Nat)
  /-- `doRecv` of the next response -/
  | recv (j : Nat)
  /-- `doRecv` when `parseFrom` fails -/
  | recvNone (j : Nat)
  | innerClose (j : Nat)
  /-- `m_queue.clear()` behind a close -/
  | clear
  | reconnect
  /-- `doRecv` of the session: a task for the handler -/
  | deliver
  /-- the task at this place: `handleRequest` -/
  | handle (i : Nat) (reply : Reply)
  /-- `innerClose` of the session, with so many of its responses sent -/
  | sessionClose (sent : Nat)
  deriving DecidableEq, Repr

/-- The steps that need nothing of the other end. -/
def alone : RockStream.Op → Bool
  | .addCtx _ | .addTimer _ | .setTimer _ | .expire _ _ | .swapCtxs _ _ | .work _ => true
  | .doRecv _ (some (.request _)) | .doRecv _ (some (.notify _)) => true
  | _ => false

end RockLink

open RockStream RockLink

/-- Messages are told by the request that they belong to; nothing on either end reads it. -/
structure RockLink where
  client : RockStream
  req : Nat → RockRequest
  /-- the requests that were given to `enqueue` -/
  sent : List Nat
  /-- in the queue or on the way to the session -/
  toSession : List Nat
  /-- the session is connected -/
  open_ : Bool
  /-- how many connections there were before -/
  epoch : Nat
  /-- the tasks of the handlers, each with the connection of its request -/
  jobs : List (Nat × Nat)
  /-- in the queue of the session or on the way back -/
  back : List (Nat × RockResponse)
  /-- what the handlers answered -/
  answers : List (Nat × RockResponse)
  received : List (Nat × RockResponse)
  /-- requests that no session will see -/
  lost : List Nat
  /-- responses that the stream will not see -/
  dropped : List (Nat × RockResponse)

namespace RockLink

def init : RockLink where
  client := .init
  req _ := {}
  sent := []
  toSession := []
  open_ := true
  epoch := 0
  jobs := []
  back := []
  answers := []
  received := []
  lost := []
  dropped := []

/-- The connection is over for the stream. -/
def cut (s : RockLink) (client : RockStream) : RockLink :=
  { s with
    client := client
    toSession := []
    lost := s.lost ++ s.toSession
    open_ := false
    epoch := s.epoch + 1
    back := []
    dropped := s.dropped ++ s.back }

def enqueue (s : RockLink) (r : Nat) : Except Halt RockLink :=
  if s.client.phase r = .hold ∧ r ∉ s.sent then
    .ok { s with sent := s.sent ++ [r], toSession := s.toSession ++ [r] }
  else .error .disabled

def recv (s : RockLink) (j : Nat) : Except Halt RockLink :=
  match s.back with
  | [] => .error .disabled
  | (r, rsp) :: back => do
    let client ← s.client.doRecv j (some (.response rsp))
    return { s with client := client, back := back, received := s.received ++ [(r, rsp)] }

def deliver (s : RockLink) : Except Halt RockLink :=
  match s.toSession with
  | [] => .error .disabled
  | r :: rest =>
    if s.open_ then .ok { s with toSession := rest, jobs := s.jobs ++ [(s.epoch, r)] }
    else .error .disabled

/-- `handleRequest`; `sendMessage` puts the response into the queue of a connected session. -/
def handle (s : RockLink) (i : Nat) (reply : Reply) : Except Halt RockLink :=
  match s.jobs[i]? with
  | none => .error .disabled
  | some (e, r) =>
    let answer := (r, createResponse (s.req r) reply)
    let s := { s with jobs := s.jobs.eraseIdx i, answers := s.answers ++ [answer] }
    if s.open_ ∧ e = s.epoch then .ok { s with back := s.back ++ [answer] }
    else .ok { s with dropped := s.dropped ++ [answer] }

/-- A handler returned false, or the session could not read. -/
def sessionClose (s : RockLink) (sent : Nat) : RockLink :=
  { s with
    open_ := false
    toSession := []
    lost := s.lost ++ s.toSession
    back := s.back.take sent
    dropped := s.dropped ++ s.back.drop sent }

def step (s : RockLink) : Op → Except Halt RockLink
  | .request req =>
    .ok { s with
      client := s.client.request req.sn
      req := Function.update s.req s.client.requests req }
  | .stream op => do
    if alone op then
      let client ← s.client.step op
      return { s with client := client }
    else .error .disabled
  | .enqueue r => s.enqueue r
  | .resume r => do
    if r ∈ s.sent then
      let client ← s.client.resume r
      return { s with client := client }
    else .error .disabled
  | .recv j => s.recv j
  | .recvNone j => do
    let client ← s.client.doRecv j none
    return s.cut client
  | .innerClose j => do
    let client ← s.client.innerClose j
    return s.cut client
  | .clear =>
    if s.client.connected then .error .disabled
    else .ok { s with toSession := [], lost := s.lost ++ s.toSession }
  | .reconnect =>
    if s.client.connected then .error .disabled
    else .ok { s with client := { s.client with connected := true }, open_ := true }
  | .deliver => s.deliver
  | .handle i reply => s.handle i reply
  | .sessionClose sent => if s.open_ then .ok (s.sessionClose sent) else .error .disabled

def Step (s : RockLink) (op : Op) (s' : RockLink) : Prop := s.step op = .ok s'

/-! ## What holds of every run -/

/-- Something is left of a request: its caller has not come to `enqueue`, its entry, or a message
of it in this connection. -/
inductive Alive (s : RockLink) (r : Nat) : Prop where
  | inTable (h : InTable s.client r)
  | unsent (h : (s.client.phase r).waits) (hsent : r ∉ s.sent)
  | toSession (h : r ∈ s.toSession)
  | job (h : (s.epoch, r) ∈ s.jobs) (hopen : s.open_ = true)
  | back (rsp : RockResponse) (h : (r, rsp) ∈ s.back)

/-- A request is added when nothing is left of others with its number. -/
def Renewed (s : RockLink) : Op → Prop
  | .stream (.addCtx r) => ∀ r', r' ≠ r → (s.req r').sn = (s.req r).sn → ¬Alive s r'
  | _ => True

/-- No request is lost, handled twice or answered with the response to another. -/
structure Answered (s : RockLink) : Prop where
  /-- a caller gets what a handler made of its own request -/
  own : ∀ r res rsp, s.client.phase r = .returned res (some rsp) → (r, rsp) ∈ s.answers
  made : ∀ r rsp, (r, rsp) ∈ s.answers → ∃ reply, rsp = createResponse (s.req r) reply
  /-- each request goes one way -/
  sent_nodup : s.sent.Nodup
  sent_perm : s.sent.Perm
    (s.toSession ++ s.jobs.map Prod.snd ++ s.answers.map Prod.fst ++ s.lost)
  answers_perm : s.answers.Perm (s.received ++ s.back ++ s.dropped)
  /-- and none is lost while the connection stands -/
  kept : s.epoch = 0 → s.open_ = true → s.lost = [] ∧ s.dropped = []

/-- Between two connections. -/
structure Parted (s : RockLink) : Prop where
  epoch_pos : 0 < s.epoch
  closed : s.open_ = false
  jobs_lt : ∀ e ∈ s.jobs, e.1 < s.epoch

structure Inv (s : RockLink) : Prop extends Answered s where
  table : ∀ e ∈ s.client.ctxs, e.2 < s.client.requests ∧ e.1 = (s.req e.2).sn
  begun : ∀ r, s.client.phase r ≠ .none → r < s.client.requests
  sn_eq : ∀ r < s.client.requests, (s.client.ctx r).sn = (s.req r).sn
  sent_lt : ∀ r ∈ s.sent, r < s.client.requests
  holds : ∀ r rsp, Holds s.client r rsp → (r, rsp) ∈ s.answers
  unique : ∀ r r', Alive s r → Alive s r' → (s.req r).sn = (s.req r').sn → r = r'
  jobs_epoch : ∀ e ∈ s.jobs, e.1 ≤ s.epoch
  parted : s.client.connected = false → Parted s

section Steps

variable {s s' : RockLink} {r : Nat} {rsp : RockResponse}

theorem Inv.sent_of_answers (h : Inv s) (hr : (r, rsp) ∈ s.answers) : r ∈ s.sent := by
  refine h.sent_perm.mem_iff.mpr ?_
  have hmem : r ∈ s.answers.map Prod.fst := List.mem_map_of_mem hr
  simp only [List.mem_append]
  exact .inl (.inr hmem)

theorem Inv.answers_of_back (h : Inv s) (hr : (r, rsp) ∈ s.back) : (r, rsp) ∈ s.answers := by
  refine h.answers_perm.mem_iff.mpr ?_
  simp only [List.mem_append]
  exact .inl (.inr hr)

theorem Inv.sent_of_jobs (h : Inv s) {e : Nat} (hr : (e, r) ∈ s.jobs) : r ∈ s.sent := by
  refine h.sent_perm.mem_iff.mpr ?_
  have hmem : r ∈ s.jobs.map Prod.snd := List.mem_map_of_mem hr
  simp only [List.mem_append]
  exact .inl (.inl (.inr hmem))

theorem Inv.sent_of_toSession (h : Inv s) (hr : r ∈ s.toSession) : r ∈ s.sent := by
  refine h.sent_perm.mem_iff.mpr ?_
  simp only [List.mem_append]
  exact .inl (.inl (.inl hr))

theorem Inv.lt_of_alive (h : Inv s) (hr : Alive s r) : r < s.client.requests := by
  cases hr with
  | inTable hr =>
    obtain ⟨sn, he⟩ := hr
    exact (h.table _ he).1
  | unsent hr hsent =>
    refine h.begun r fun hnone => ?_
    rw [hnone] at hr
    exact hr
  | toSession hr => exact h.sent_lt r (h.sent_of_toSession hr)
  | job hr hopen => exact h.sent_lt r (h.sent_of_jobs hr)
  | back rsp hr => exact h.sent_lt r (h.sent_of_answers (h.answers_of_back hr))

/-- A step of the stream with no new request. -/
theorem Inv.client (h : Inv s) {op : RockStream.Op} {c : RockStream}
    (hstep : RockStream.Step s.client op c) (hrequest : ∀ sn, op ≠ .request sn)
    (hrecv : ∀ j rsp, op = .doRecv j (some (.response rsp)) →
      ∀ r, s.client.ctxs.lookup rsp.sn = some r → (r, rsp) ∈ s.answers)
    (hclose : ∀ j, op = .innerClose j ∨ op = .doRecv j none → Parted s)
    (hadd : ∀ r, op = .addCtx r → ∀ r', r' ≠ r → (s.req r').sn = (s.req r).sn → ¬Alive s r') :
    Inv { s with client := c } := by
  have hm := step_moves hstep
  have hrequests : c.requests = s.client.requests :=
    hm.requests_eq.resolve_left fun hsn => hrequest hsn.choose hsn.choose_spec
  have hholds : ∀ r rsp, Holds c r rsp → (r, rsp) ∈ s.answers := by
    intro r rsp hr
    cases step_holds hstep hr with
    | inl hold => exact h.holds r rsp hold
    | inr hnew =>
      obtain ⟨j, heq, hlookup⟩ := hnew
      exact hrecv j rsp heq r hlookup
  have hphase : ∀ r, s.client.phase r = .addCtx → r < s.client.requests := by
    intro r hr
    refine h.begun r fun hnone => ?_
    cases hr.symm.trans hnone
  have halive : ∀ r, Alive { s with client := c } r →
      Alive s r ∨ op = .addCtx r := by
    intro r hr
    cases hr with
    | inTable hr =>
      obtain ⟨sn, he⟩ := hr
      cases hm.table _ he with
      | inl hold => exact .inl (.inTable ⟨sn, hold⟩)
      | inr hnew => exact .inr hnew.1
    | unsent hr hsent =>
      cases hm.waits r hr with
      | inl hold => exact .inl (.unsent hold hsent)
      | inr hnew => exact .inr hnew.1
    | toSession hr => exact .inl (.toSession hr)
    | job hr hopen => exact .inl (.job hr hopen)
    | back rsp hr => exact .inl (.back rsp hr)
  refine ⟨⟨fun r res rsp hr => hholds r rsp (.returned res hr), h.made, h.sent_nodup, h.sent_perm,
    h.answers_perm, h.kept⟩, fun e he => ?_, fun r hr => ?_, fun r hr => ?_, fun r hr => ?_, hholds,
    fun r r' hr hr' hsn => ?_, h.jobs_epoch, fun hconn => ?_⟩
  · dsimp only at he ⊢
    rw [hrequests]
    rcases hm.table e he with hold | ⟨-, hsn, hp⟩
    · exact h.table e hold
    · have hlt := hphase _ hp
      exact ⟨hlt, hsn.trans (h.sn_eq _ hlt)⟩
  · dsimp only at hr ⊢
    rw [hrequests]
    cases hm.begun r hr with
    | inl hold => exact h.begun r hold
    | inr hnew =>
      rw [hrequests] at hnew
      omega
  · dsimp only at hr ⊢
    rw [hrequests] at hr
    rw [hm.sn_eq r hr]
    exact h.sn_eq r hr
  · dsimp only at hr ⊢
    rw [hrequests]
    exact h.sent_lt r hr
  · rcases halive r hr with hold | hnew
    · rcases halive r' hr' with hold' | hnew'
      · exact h.unique r r' hold hold' hsn
      · by_contra hne
        exact hadd r' hnew' r hne hsn hold
    · rcases halive r' hr' with hold' | hnew'
      · by_contra hne
        exact hadd r hnew r' (Ne.symm hne) hsn.symm hold'
      · cases hnew.symm.trans hnew'
        rfl
  · have hparted : Parted s := by
      cases hm.connected hconn with
      | inl hold => exact h.parted hold
      | inr hnew =>
        obtain ⟨j, hj⟩ := hnew
        exact hclose j hj
    exact ⟨hparted.epoch_pos, hparted.closed, hparted.jobs_lt⟩

theorem Inv.request (h : Inv s) (req : RockRequest) :
    Inv { s with
      client := s.client.request req.sn
      req := Function.update s.req s.client.requests req } := by
  have hreq := requested s.client req.sn
  have hm := step_moves (show RockStream.Step s.client (.request req.sn) _ from rfl)
  have hold : ∀ r < s.client.requests,
      Function.update s.req s.client.requests req r = s.req r := fun r hr =>
    Function.update_of_ne (Nat.ne_of_lt hr) _ _
  have hholds : ∀ r rsp, Holds (s.client.request req.sn) r rsp → (r, rsp) ∈ s.answers :=
    fun r rsp hr => h.holds r rsp (request_holds hr)
  have halive : ∀ r, Alive { s with
      client := s.client.request req.sn
      req := Function.update s.req s.client.requests req } r → Alive s r := by
    intro r hr
    cases hr with
    | inTable hr => exact .inTable (hreq.inTable hr)
    | unsent hr hsent =>
      cases hm.waits r hr with
      | inl hold => exact .unsent hold hsent
      | inr hnew => cases hnew.1
    | toSession hr => exact .toSession hr
    | job hr hopen => exact .job hr hopen
    | back rsp hr => exact .back rsp hr
  refine ⟨⟨fun r res rsp hr => hholds r rsp (.returned res hr), fun r rsp hr => ?_, h.sent_nodup,
    h.sent_perm, h.answers_perm, h.kept⟩, fun e he => ?_, fun r hr => ?_, fun r hr => ?_,
    fun r hr => ?_, hholds, fun r r' hr hr' hsn => ?_, h.jobs_epoch, fun hconn => ?_⟩
  · obtain ⟨reply, hreply⟩ := h.made r rsp hr
    refine ⟨reply, ?_⟩
    dsimp only
    rw [hold r (h.sent_lt r (h.sent_of_answers hr))]
    exact hreply
  · dsimp only at he ⊢
    rw [hreq.ctxs_eq] at he
    obtain ⟨hlt, hsn⟩ := h.table e he
    rw [hreq.requests_eq, hold _ hlt]
    exact ⟨Nat.lt_succ_of_lt hlt, hsn⟩
  · dsimp only at hr ⊢
    rw [hreq.requests_eq]
    cases hm.begun r hr with
    | inl hold => exact Nat.lt_succ_of_lt (h.begun r hold)
    | inr hnew => omega
  · dsimp only at hr ⊢
    by_cases heq : r = s.client.requests
    · rw [heq, hreq.ctx_self, Function.update_self]
    · have hlt : r < s.client.requests := by
        rw [hreq.requests_eq] at hr
        omega
      rw [hm.sn_eq r hlt, hold r hlt]
      exact h.sn_eq r hlt
  · dsimp only at hr ⊢
    rw [hreq.requests_eq]
    exact Nat.lt_succ_of_lt (h.sent_lt r hr)
  · dsimp only at hsn
    rw [hold r (h.lt_of_alive (halive r hr)), hold r' (h.lt_of_alive (halive r' hr'))] at hsn
    exact h.unique r r' (halive r hr) (halive r' hr') hsn
  · cases hm.connected hconn with
    | inl hold =>
      have hparted := h.parted hold
      exact ⟨hparted.epoch_pos, hparted.closed, hparted.jobs_lt⟩
    | inr hnew =>
      obtain ⟨j, hj⟩ := hnew
      cases hj with
      | inl heq => cases heq
      | inr heq => cases heq

/-- What is alive in a state that differs only in where the messages are. -/
theorem Inv.moved (h : Inv s) (hclient : s'.client = s.client) (hreq : s'.req = s.req)
    (hsent : ∀ r ∈ s'.sent, r ∈ s.sent ∨ (s.client.phase r).waits)
    (hanswers : ∀ e ∈ s.answers, e ∈ s'.answers) (hall : Answered s')
    (halive : ∀ r, Alive s' r → Alive s r) (hjobs : ∀ e ∈ s'.jobs, e.1 ≤ s'.epoch)
    (hparted : s.client.connected = false → Parted s → Parted s') : Inv s' := by
  refine ⟨hall, ?_, ?_, ?_, fun r hr => ?_, ?_, fun r r' hr hr' hsn => ?_, hjobs, fun hconn => ?_⟩
  · rw [hclient, hreq]
    exact h.table
  · rw [hclient]
    exact h.begun
  · rw [hclient, hreq]
    exact h.sn_eq
  · rw [hclient]
    cases hsent r hr with
    | inl hold => exact h.sent_lt r hold
    | inr hwaits =>
      refine h.begun r fun hnone => ?_
      rw [hnone] at hwaits
      exact hwaits
  · rw [hclient]
    exact fun r rsp hr => hanswers _ (h.holds r rsp hr)
  · rw [hreq] at hsn
    exact h.unique r r' (halive r hr) (halive r' hr') hsn
  · rw [hclient] at hconn
    exact hparted hconn (h.parted hconn)

theorem Inv.enqueue (h : Inv s) (he : s.enqueue r = .ok s') : Inv s' := by
  rw [RockLink.enqueue] at he
  split at he
  · rename_i hr
    obtain ⟨hphase, hsent⟩ := hr
    have hwaits : (s.client.phase r).waits := by
      rw [hphase]
      trivial
    cases he
    refine h.moved rfl rfl (fun r' hr' => ?_) (fun _ he => he)
      ⟨h.own, h.made, ?_, ?_, h.answers_perm, h.kept⟩ (fun r' hr' => ?_) h.jobs_epoch
      fun _ hp => ⟨hp.epoch_pos, hp.closed, hp.jobs_lt⟩
    · cases List.mem_append.mp hr' with
      | inl hold => exact .inl hold
      | inr hnew => exact .inr (List.mem_singleton.mp hnew ▸ hwaits)
    · exact h.sent_nodup.append (List.nodup_singleton r) fun r' hr' heq =>
        hsent (List.mem_singleton.mp heq ▸ hr')
    · refine List.perm_iff_count.mpr fun r' => ?_
      have hcount := h.sent_perm.count_eq r'
      simp only [List.count_append] at hcount ⊢
      omega
    · cases hr' with
      | inTable hr' => exact .inTable hr'
      | unsent hr' hsent' => exact .unsent hr' fun hmem => hsent' (List.mem_append_left _ hmem)
      | toSession hr' =>
        cases List.mem_append.mp hr' with
        | inl hold => exact .toSession hold
        | inr hnew => exact List.mem_singleton.mp hnew ▸ .unsent hwaits hsent
      | job hr' hopen => exact .job hr' hopen
      | back rsp hr' => exact .back rsp hr'
  · cases he

theorem Inv.deliver (h : Inv s) (hd : s.deliver = .ok s') : Inv s' := by
  rw [RockLink.deliver] at hd
  split at hd
  · cases hd
  · rename_i r rest hhead
    split at hd
    · rename_i hopen
      cases hd
      refine h.moved rfl rfl (fun _ hr' => .inl hr') (fun _ he => he)
        ⟨h.own, h.made, h.sent_nodup, ?_, h.answers_perm, h.kept⟩ (fun r' hr' => ?_)
        (fun e he => ?_) fun _ hp => absurd (hopen.symm.trans hp.closed) Bool.noConfusion
      · refine List.perm_iff_count.mpr fun r' => ?_
        have hcount := h.sent_perm.count_eq r'
        rw [hhead] at hcount
        simp only [List.count_append, List.map_append, List.map_singleton, List.count_cons,
          List.count_nil] at hcount ⊢
        omega
      · have hfirst : r ∈ s.toSession := hhead ▸ List.mem_cons_self
        cases hr' with
        | inTable hr' => exact .inTable hr'
        | unsent hr' hsent' => exact .unsent hr' hsent'
        | toSession hr' => exact .toSession (hhead ▸ List.mem_cons_of_mem _ hr')
        | job hr' hopen' =>
          cases List.mem_append.mp hr' with
          | inl hold => exact .job hold hopen
          | inr hnew =>
            cases List.mem_singleton.mp hnew
            exact .toSession hfirst
        | back rsp hr' => exact .back rsp hr'
      · cases List.mem_append.mp he with
        | inl hold => exact h.jobs_epoch e hold
        | inr hnew => exact (congrArg Prod.fst (List.mem_singleton.mp hnew)).le
    · cases hd

theorem Inv.handle (h : Inv s) {i : Nat} {reply : Reply} (hh : s.handle i reply = .ok s') :
    Inv s' := by
  rw [RockLink.handle] at hh
  cases hjob : s.jobs[i]? with
  | none =>
    rw [hjob] at hh
    cases hh
  | some job =>
    obtain ⟨e, r⟩ := job
    rw [hjob] at hh
    dsimp only at hh
    obtain ⟨hi, hget⟩ := List.getElem?_eq_some_iff.mp hjob
    have hperm := List.getElem_cons_eraseIdx_perm hi
    rw [hget] at hperm
    have hmem : (e, r) ∈ s.jobs := hget ▸ List.getElem_mem hi
    have hsent : ∀ r', (s.toSession ++ (s.jobs.eraseIdx i).map Prod.snd ++
        (s.answers ++ [(r, createResponse (s.req r) reply)]).map Prod.fst ++ s.lost).count r' =
        s.sent.count r' := by
      intro r'
      have hcount := h.sent_perm.count_eq r'
      have hjobs := (hperm.map Prod.snd).count_eq r'
      simp only [List.count_append, List.map_append, List.map_cons, List.map_nil, List.count_cons,
        List.count_nil] at hcount hjobs ⊢
      omega
    have hmade : ∀ r' rsp, (r', rsp) ∈ s.answers ++ [(r, createResponse (s.req r) reply)] →
        ∃ reply, rsp = createResponse (s.req r') reply := by
      intro r' rsp hr'
      cases List.mem_append.mp hr' with
      | inl hold => exact h.made r' rsp hold
      | inr hnew =>
        cases List.mem_singleton.mp hnew
        exact ⟨reply, rfl⟩
    have hjobs : ∀ e ∈ s.jobs.eraseIdx i, e ∈ s.jobs := fun e he => List.mem_of_mem_eraseIdx he
    split at hh
    · rename_i hopen
      cases hh
      refine h.moved rfl rfl (fun _ hr' => .inl hr') (fun _ he => List.mem_append_left _ he)
        ⟨fun r res rsp hr => List.mem_append_left _ (h.own r res rsp hr), hmade, h.sent_nodup,
          List.perm_iff_count.mpr fun r' => (hsent r').symm, ?_, h.kept⟩ (fun r' hr' => ?_)
        (fun e he => h.jobs_epoch e (hjobs e he))
        fun _ hp => ⟨hp.epoch_pos, hp.closed, fun e he => hp.jobs_lt e (hjobs e he)⟩
      · refine List.perm_iff_count.mpr fun a => ?_
        have hcount := h.answers_perm.count_eq a
        simp only [List.count_append] at hcount ⊢
        omega
      · cases hr' with
        | inTable hr' => exact .inTable hr'
        | unsent hr' hsent' => exact .unsent hr' hsent'
        | toSession hr' => exact .toSession hr'
        | job hr' hopen' => exact .job (hjobs _ hr') hopen'
        | back rsp hr' =>
          cases List.mem_append.mp hr' with
          | inl hold => exact .back rsp hold
          | inr hnew =>
            cases List.mem_singleton.mp hnew
            exact .job (hopen.2 ▸ hmem) hopen.1
    · rename_i hopen
      cases hh
      refine h.moved rfl rfl (fun _ hr' => .inl hr') (fun _ he => List.mem_append_left _ he)
        ⟨fun r res rsp hr => List.mem_append_left _ (h.own r res rsp hr), hmade, h.sent_nodup,
          List.perm_iff_count.mpr fun r' => (hsent r').symm, ?_, fun hepoch hopen' => ?_⟩
        (fun r' hr' => ?_) (fun e he => h.jobs_epoch e (hjobs e he))
        fun _ hp => ⟨hp.epoch_pos, hp.closed, fun e he => hp.jobs_lt e (hjobs e he)⟩
      · refine List.perm_iff_count.mpr fun a => ?_
        have hcount := h.answers_perm.count_eq a
        simp only [List.count_append] at hcount ⊢
        omega
      · -- in the first connection every task is of it
        have hle := h.jobs_epoch _ hmem
        have hzero : s.epoch = 0 := hepoch
        exact absurd ⟨hopen', by omega⟩ hopen
      · cases hr' with
        | inTable hr' => exact .inTable hr'
        | unsent hr' hsent' => exact .unsent hr' hsent'
        | toSession hr' => exact .toSession hr'
        | job hr' hopen' => exact .job (hjobs _ hr') hopen'
        | back rsp hr' => exact .back rsp hr'

theorem Inv.parted_cut (h : Inv s) (c : RockStream) : Parted (s.cut c) :=
  ⟨Nat.succ_pos _, rfl, fun e he => Nat.lt_succ_of_le (h.jobs_epoch e he)⟩

theorem Inv.cut (h : Inv s) : Inv (s.cut s.client) := by
  refine h.moved rfl rfl (fun _ hr' => .inl hr') (fun _ he => he)
    ⟨h.own, h.made, h.sent_nodup, ?_, ?_, fun hepoch => ?_⟩ (fun r' hr' => ?_)
    (fun e he => ?_) fun _ _ => h.parted_cut s.client
  · refine List.perm_iff_count.mpr fun r' => ?_
    have hcount := h.sent_perm.count_eq r'
    simp only [RockLink.cut, List.count_append, List.count_nil] at hcount ⊢
    omega
  · refine List.perm_iff_count.mpr fun a => ?_
    have hcount := h.answers_perm.count_eq a
    simp only [RockLink.cut, List.count_append, List.count_nil] at hcount ⊢
    omega
  · exact absurd hepoch (Nat.succ_ne_zero _)
  · cases hr' with
    | inTable hr' => exact .inTable hr'
    | unsent hr' hsent' => exact .unsent hr' hsent'
    | toSession hr' => exact absurd hr' List.not_mem_nil
    | job hr' hopen => cases hopen
    | back rsp hr' => exact absurd hr' List.not_mem_nil
  · exact Nat.le_succ_of_le (h.jobs_epoch e he)

theorem Inv.clear (h : Inv s) (hconn : s.client.connected = false) :
    Inv { s with toSession := [], lost := s.lost ++ s.toSession } := by
  refine h.moved rfl rfl (fun _ hr' => .inl hr') (fun _ he => he)
    ⟨h.own, h.made, h.sent_nodup, ?_, h.answers_perm, fun hepoch => ?_⟩ (fun r' hr' => ?_)
    h.jobs_epoch fun _ hp => ⟨hp.epoch_pos, hp.closed, hp.jobs_lt⟩
  · refine List.perm_iff_count.mpr fun r' => ?_
    have hcount := h.sent_perm.count_eq r'
    simp only [List.count_append, List.count_nil] at hcount ⊢
    omega
  · have hpos := (h.parted hconn).epoch_pos
    have hzero : s.epoch = 0 := hepoch
    omega
  · cases hr' with
    | inTable hr' => exact .inTable hr'
    | unsent hr' hsent' => exact .unsent hr' hsent'
    | toSession hr' => exact absurd hr' List.not_mem_nil
    | job hr' hopen => exact .job hr' hopen
    | back rsp hr' => exact .back rsp hr'

theorem Inv.sessionClose (h : Inv s) (sent : Nat) : Inv (s.sessionClose sent) := by
  refine h.moved rfl rfl (fun _ hr' => .inl hr') (fun _ he => he)
    ⟨h.own, h.made, h.sent_nodup, ?_, ?_, fun _ hopen => ?_⟩ (fun r' hr' => ?_)
    h.jobs_epoch fun _ hp => ⟨hp.epoch_pos, rfl, hp.jobs_lt⟩
  · refine List.perm_iff_count.mpr fun r' => ?_
    have hcount := h.sent_perm.count_eq r'
    simp only [RockLink.sessionClose, List.count_append, List.count_nil] at hcount ⊢
    omega
  · refine List.perm_iff_count.mpr fun a => ?_
    have hcount := h.answers_perm.count_eq a
    have hsplit : (s.back.take sent).count a + (s.back.drop sent).count a = s.back.count a := by
      rw [← List.count_append, List.take_append_drop]
    simp only [RockLink.sessionClose, List.count_append] at hcount ⊢
    omega
  · cases hopen
  · cases hr' with
    | inTable hr' => exact .inTable hr'
    | unsent hr' hsent' => exact .unsent hr' hsent'
    | toSession hr' => exact absurd hr' List.not_mem_nil
    | job hr' hopen => cases hopen
    | back rsp hr' => exact .back rsp (List.mem_of_mem_take hr')

theorem Inv.reconnect (h : Inv s) (hconn : s.client.connected = false) :
    Inv { s with client := { s.client with connected := true }, open_ := true } := by
  have hp := h.parted hconn
  have hclient := h.client (show RockStream.Step s.client .reconnect _ from rfl)
    (fun _ heq => by cases heq) (fun _ _ heq => by cases heq)
    (fun j heq => by rcases heq with heq | heq <;> cases heq) (fun _ heq => by cases heq)
  refine hclient.moved rfl rfl (fun _ hr' => .inl hr') (fun _ he => he)
    ⟨hclient.own, h.made, h.sent_nodup, h.sent_perm, h.answers_perm, fun hepoch => ?_⟩
    (fun r' hr' => ?_) h.jobs_epoch fun hconn => by cases hconn
  · have hpos := hp.epoch_pos
    have hzero : s.epoch = 0 := hepoch
    omega
  · cases hr' with
    | inTable hr' => exact .inTable hr'
    | unsent hr' hsent' => exact .unsent hr' hsent'
    | toSession hr' => exact .toSession hr'
    | job hr' hopen => exact absurd (hp.jobs_lt _ hr') (Nat.lt_irrefl _)
    | back rsp hr' => exact .back rsp hr'

/-- The response that comes next is for the request that is found under its number. -/
theorem Inv.next_own (h : Inv s) {back : List (Nat × RockResponse)}
    (hback : s.back = (r, rsp) :: back) {r' : Nat}
    (hlookup : s.client.ctxs.lookup rsp.sn = some r') : (r', rsp) ∈ s.answers := by
  have hmem : (r, rsp) ∈ s.back := hback ▸ List.mem_cons_self
  have hentry := mem_of_lookup hlookup
  obtain ⟨reply, hreply⟩ := h.made r rsp (h.answers_of_back hmem)
  have hsn : (s.req r).sn = (s.req r').sn := by
    rw [← (h.table _ hentry).2, hreply]
    rfl
  rw [← h.unique r r' (.back rsp hmem) (.inTable ⟨_, hentry⟩) hsn]
  exact h.answers_of_back hmem

theorem Inv.recv (h : Inv s) {j : Nat} (hr : s.recv j = .ok s') : Inv s' := by
  rw [RockLink.recv] at hr
  cases hback : s.back with
  | nil =>
    rw [hback] at hr
    cases hr
  | cons first back =>
    obtain ⟨r, rsp⟩ := first
    rw [hback] at hr
    dsimp only at hr
    cases hc : s.client.doRecv j (some (.response rsp)) with
    | error e =>
      rw [hc] at hr
      cases hr
    | ok c =>
      rw [hc] at hr
      cases hr
      have hclient := h.client (show RockStream.Step s.client (.doRecv j (some (.response rsp))) c
          from hc) (fun _ heq => by cases heq) (fun j' rsp' heq r' hlookup => by
            cases heq
            exact h.next_own hback hlookup)
        (fun j heq => by rcases heq with heq | heq <;> cases heq) (fun _ heq => by cases heq)
      refine hclient.moved rfl rfl (fun _ hr' => .inl hr') (fun _ he => he)
        ⟨hclient.own, h.made, h.sent_nodup, h.sent_perm, ?_, h.kept⟩ (fun r' hr' => ?_)
        h.jobs_epoch fun _ hp => ⟨hp.epoch_pos, hp.closed, hp.jobs_lt⟩
      · refine List.perm_iff_count.mpr fun a => ?_
        have hcount := h.answers_perm.count_eq a
        rw [hback] at hcount
        simp only [List.count_append, List.count_cons, List.count_nil] at hcount ⊢
        omega
      · cases hr' with
        | inTable hr' => exact .inTable hr'
        | unsent hr' hsent' => exact .unsent hr' hsent'
        | toSession hr' => exact .toSession hr'
        | job hr' hopen => exact .job hr' hopen
        | back rsp' hr' => exact .back rsp' (hback ▸ List.mem_cons_of_mem _ hr')

theorem Inv.stream (h : Inv s) {op : RockStream.Op} (hok : Renewed s (.stream op))
    {c : RockStream} (halone : alone op = true) (hc : RockStream.Step s.client op c) :
    Inv { s with client := c } := by
  refine h.client hc (fun sn heq => ?_) (fun j rsp heq => ?_) (fun j heq => ?_) fun r heq => ?_
  · rw [heq] at halone
    cases halone
  · rw [heq] at halone
    cases halone
  · rcases heq with heq | heq
    · rw [heq] at halone
      cases halone
    · rw [heq] at halone
      cases halone
  · subst heq
    exact hok

theorem Inv.close (h : Inv s) {op : RockStream.Op} {c : RockStream} {j : Nat}
    (hop : op = .innerClose j ∨ op = .doRecv j none) (hc : RockStream.Step s.client op c) :
    Inv (s.cut c) := by
  refine h.cut.client hc (fun sn heq => ?_) (fun j' rsp heq => ?_)
    (fun _ _ => h.parted_cut s.client) fun r heq => ?_
  · rcases hop with hop | hop <;> cases hop.symm.trans heq
  · rcases hop with hop | hop <;> cases hop.symm.trans heq
  · rcases hop with hop | hop <;> cases hop.symm.trans heq

theorem step_inv {op : Op} (h : Inv s) (hok : Renewed s op) (hs : Step s op s') : Inv s' := by
  cases op with
  | request req =>
    cases hs
    exact h.request req
  | stream op =>
    rw [Step, step] at hs
    split at hs
    · rename_i halone
      cases hc : s.client.step op with
      | error e =>
        rw [hc] at hs
        cases hs
      | ok c =>
        rw [hc] at hs
        cases hs
        exact h.stream hok halone hc
    · cases hs
  | enqueue r => exact h.enqueue hs
  | resume r =>
    rw [Step, step] at hs
    split at hs
    · cases hc : s.client.resume r with
      | error e =>
        rw [hc] at hs
        cases hs
      | ok c =>
        rw [hc] at hs
        cases hs
        exact h.client (show RockStream.Step s.client (.resume r) c from hc)
          (fun _ heq => by cases heq) (fun _ _ heq => by cases heq)
          (fun j heq => by rcases heq with heq | heq <;> cases heq) fun _ heq => by cases heq
    · cases hs
  | recv j => exact h.recv hs
  | recvNone j =>
    rw [Step, step] at hs
    cases hc : s.client.doRecv j none with
    | error e =>
      rw [hc] at hs
      cases hs
    | ok c =>
      rw [hc] at hs
      cases hs
      exact h.close (.inr rfl) (show RockStream.Step s.client (.doRecv j none) c from hc)
  | innerClose j =>
    rw [Step, step] at hs
    cases hc : s.client.innerClose j with
    | error e =>
      rw [hc] at hs
      cases hs
    | ok c =>
      rw [hc] at hs
      cases hs
      exact h.close (.inl rfl) (show RockStream.Step s.client (.innerClose j) c from hc)
  | clear =>
    rw [Step, step] at hs
    cases hconn : s.client.connected with
    | true =>
      rw [hconn] at hs
      cases hs
    | false =>
      rw [hconn] at hs
      cases hs
      exact h.clear hconn
  | reconnect =>
    rw [Step, step] at hs
    cases hconn : s.client.connected with
    | true =>
      rw [hconn] at hs
      cases hs
    | false =>
      rw [hconn] at hs
      cases hs
      exact h.reconnect hconn
  | deliver => exact h.deliver hs
  | handle i reply => exact h.handle hs
  | sessionClose sent =>
    rw [Step, step] at hs
    split at hs
    · cases hs
      exact h.sessionClose sent
    · cases hs

end Steps

theorem inv_init : Inv init where
  own _ _ _ hr := by cases hr
  made _ _ hr := absurd hr List.not_mem_nil
  sent_nodup := List.nodup_nil
  sent_perm := List.Perm.nil
  answers_perm := List.Perm.nil
  kept _ _ := ⟨rfl, rfl⟩
  table _ he := absurd he List.not_mem_nil
  begun _ hr := absurd rfl hr
  sn_eq _ hr := absurd hr (Nat.not_lt_zero _)
  sent_lt _ hr := absurd hr List.not_mem_nil
  holds _ _ hr := by
    cases hr with
    | ctx hr => cases hr
    | stage j st hr hst => cases hr
    | returned res hr => cases hr
  unique _ _ hr := by
    cases hr with
    | inTable hr =>
      obtain ⟨sn, he⟩ := hr
      cases he
    | unsent hr hsent => exact absurd hr id
    | toSession hr => cases hr
    | job hr hopen => cases hr
    | back rsp hr => cases hr
  jobs_epoch _ he := absurd he List.not_mem_nil
  parted hconn := by cases hconn

/-- In every run of the two ends, with breaks of the connection, and with handlers that run in any
order, in which a number is used again only when nothing is left of its last request, every caller
gets what was answered to its own request, no request is handled twice, and while the connection
stands none is lost. -/
theorem run_answered {t : List (Op × RockLink)} (run : Run Step init t)
    (hok : Meets Renewed init t) : Always Answered init t :=
  (always_of_meets (fun _ _ _ h hok hs => step_inv h hok hs) run inv_init hok).mono
    fun _ h => h.toAnswered

/-- A caller, up to its wait. -/
def caller (req : RockRequest) (r : Nat) : List Op :=
  [.request req, .stream (.addCtx r), .stream (.addTimer r), .stream (.setTimer r), .enqueue r]

/-- A response comes and its caller goes on. -/
def called (r : Nat) : List Op :=
  .recv 0 :: List.replicate 7 (.stream (.work 0)) ++ [.resume r]

/-- The second request is answered first. -/
def crossed : List Op :=
  caller { sn := 7, body := [1] } 0 ++ caller { sn := 8, body := [2] } 1 ++
    [.deliver, .deliver, .handle 1 ⟨0, [], [20]⟩, .handle 0 ⟨0, [], [10]⟩] ++ called 1 ++ called 0

theorem run_answered_crossed : ∃ t, trace step init crossed = .ok t ∧
    (last init t).answers = (last init t).received ∧ Always Answered init t := by
  refine ⟨_, rfl, rfl, run_answered (run_of_trace crossed rfl) ?_⟩
  refine ⟨trivial, fun r' hne hsn => ?_, trivial, trivial, trivial, trivial, fun r' hne hsn => ?_,
    trivial, trivial, trivial, trivial, trivial, trivial, trivial, trivial, trivial, trivial,
    trivial, trivial, trivial, trivial, trivial, trivial, trivial, trivial, trivial, trivial,
    trivial, trivial, trivial, trivial, trivial, trivial⟩
  · change (Function.update init.req 0 { sn := 7, body := [1] } r').sn = 7 at hsn
    rw [Function.update_of_ne hne] at hsn
    change (0 : UInt32) = 7 at hsn
    exact absurd hsn (by decide)
  · change (Function.update (Function.update init.req 0 { sn := 7, body := [1] }) 1
      { sn := 8, body := [2] } r').sn = 8 at hsn
    rw [Function.update_of_ne hne] at hsn
    by_cases hzero : r' = 0
    · rw [hzero, Function.update_self] at hsn
      exact absurd hsn (by decide)
    · rw [Function.update_of_ne hzero] at hsn
      change (0 : UInt32) = 8 at hsn
      exact absurd hsn (by decide)

/-- A request times out, and its number is used again before the response has come. -/
def reused : List Op :=
  caller { sn := 7, body := [1] } 0 ++ [.deliver, .handle 0 ⟨0, [], [10]⟩] ++
    .stream (.expire 1 0) :: List.replicate 7 (.stream (.work 1)) ++ [.resume 0] ++
    caller { sn := 7, body := [2] } 1 ++ called 1

/-- Then the second caller gets what was answered to the first. -/
theorem run_reused_breaks_answered : ∃ t, Run Step init t ∧ ¬Always Answered init t := by
  refine ⟨_, run_of_trace reused rfl, fun h => ?_⟩
  have hmem := h.last.own 1 0 { sn := 7, result := 0, resultStr := [], body := [10] } rfl
  have hfirst : ∀ e ∈ [(0, createResponse { sn := 7, body := [1] } ⟨0, [], [10]⟩)], e.1 = 0 :=
    List.forall_mem_singleton.mpr rfl
  exact absurd (hfirst _ hmem) (by decide)

end RockLink

end CxkFramework
