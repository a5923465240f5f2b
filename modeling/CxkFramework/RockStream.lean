import CxkFramework.RockMessage
import CxkFramework.Runs

/-!
# Requests over a Rock stream

`RockStream::request` and what completes a request: the response that `doRecv` takes for it,
its timer and `innerClose`. All of them run on threads of their own, so each access to the
table `m_ctxs` and to a field of a context is one step; the thread of a request itself is
told apart from the ones that complete requests. The fiber of a context is written only by
the thread that got its scheduler, so it is read together with the exchange. Sending,
callbacks and logging are left out.
-/

namespace CxkFramework.RockStream

/-- `AsyncSocketStream::Error`. -/
def TIMEOUT : Int32 := -1
def IO_ERROR : Int32 := -2
def NOT_CONNECT : Int32 := -3

/-- `RockCtx`. A pointer is told by whether it is null. -/
structure RockCtx where
  sn : UInt32
  result : UInt32 := 0
  timed : Bool := false
  scheduler : Bool := true
  fiber : Bool := true
  timer : Bool := false
  response : Option RockResponse := none
  /-- the timer waits in its manager -/
  pending : Bool := false
  /-- how often the fiber was scheduled -/
  scheduled : Nat := 0
  /-- the response that was taken for the request before it was completed -/
  taken : Option RockResponse := none
  deriving DecidableEq, Repr

/-- What a thread does next with a context: the lines of `onTimeOut`, `doRecv`, `innerClose`
and `doRsp`. -/
inductive Stage where
  /-- `m_ctxs.erase(ctx->sn)` -/
  | erase
  /-- `ctx->timed = true` -/
  | setTimed
  /-- `ctx->result = v`, before `ctx->response = rsp` in `doRecv` -/
  | setResult (v : UInt32) (rsp : Option RockResponse)
  | setResponse (rsp : RockResponse)
  /-- `Scheduler* scd = scheduler` -/
  | doRsp
  /-- the exchange, with what was read -/
  | swap (scd : Bool)
  | cancelTimer
  /-- `if(timed) result = TIMEOUT` -/
  | applyTimed
  | schedule
  deriving DecidableEq, Repr

/-- Where a thread is. `rest` are the contexts `innerClose` has still to go through; a thread
with nothing left is at `loop []`. -/
inductive Job where
  | loop (rest : List Nat)
  | on (r : Nat) (stage : Stage) (rest : List Nat)
  /-- `innerClose`, before it takes the table -/
  | closing
  deriving DecidableEq, Repr

/-- Where the thread of a request is. -/
inductive Phase where
  | none
  | addCtx
  | addTimer
  | setTimer
  | hold
  | returned (result : Int32) (response : Option RockResponse)
  deriving DecidableEq, Repr

/-- Why a step has no result. -/
inductive Halt where
  /-- a member of a null context is written -/
  | nullContext
  /-- the thread is elsewhere -/
  | disabled
  deriving DecidableEq, Repr

end CxkFramework.RockStream

namespace CxkFramework

open RockStream

/-- Requests are numbered in the order of their calls. -/
structure RockStream where
  connected : Bool
  ctxs : List (UInt32 × Nat)
  ctx : Nat → RockCtx
  phase : Nat → Phase
  requests : Nat
  job : Nat → Job

namespace RockStream

def init : RockStream where
  connected := true
  ctxs := []
  ctx _ := { sn := 0 }
  phase _ := .none
  requests := 0
  job _ := .loop []

def setCtx (s : RockStream) (r : Nat) (c : RockCtx) : RockStream :=
  { s with ctx := Function.update s.ctx r c }

def setPhase (s : RockStream) (r : Nat) (p : Phase) : RockStream :=
  { s with phase := Function.update s.phase r p }

def setJob (s : RockStream) (j : Nat) (x : Job) : RockStream :=
  { s with job := Function.update s.job j x }

/-- The entries of the table for other numbers than `sn`. -/
def without (s : RockStream) (sn : UInt32) : List (UInt32 × Nat) :=
  s.ctxs.filter (fun e => e.1 ≠ sn)

/-! ## The thread of a request -/

/-- `request`, up to the new context. -/
def request (s : RockStream) (sn : UInt32) : RockStream :=
  let r := s.requests
  let s := { s with requests := r + 1 }.setCtx r { sn := sn }
  if s.connected then s.setPhase r .addCtx
  else s.setPhase r (.returned NOT_CONNECT none)

/-- `unordered_map::insert` does not replace an entry. -/
def addCtx (s : RockStream) (r : Nat) : Except Halt RockStream :=
  match s.phase r with
  | .addCtx =>
    let sn := (s.ctx r).sn
    let ctxs := if (s.ctxs.lookup sn).isSome then s.ctxs else (sn, r) :: s.ctxs
    .ok ({ s with ctxs := ctxs }.setPhase r .addTimer)
  | _ => .error .disabled

def addTimer (s : RockStream) (r : Nat) : Except Halt RockStream :=
  match s.phase r with
  | .addTimer => .ok ((s.setCtx r { s.ctx r with pending := true }).setPhase r .setTimer)
  | _ => .error .disabled

/-- `ctx->timer = ...`, and on to `YieldToHold`. -/
def setTimer (s : RockStream) (r : Nat) : Except Halt RockStream :=
  match s.phase r with
  | .setTimer => .ok ((s.setCtx r { s.ctx r with timer := true }).setPhase r .hold)
  | _ => .error .disabled

/-- The fiber was scheduled: `YieldToHold` returns. -/
def resume (s : RockStream) (r : Nat) : Except Halt RockStream :=
  match s.phase r with
  | .hold =>
    if (s.ctx r).scheduled = 0 then .error .disabled
    else .ok (s.setPhase r (.returned (s.ctx r).result.toInt32 (s.ctx r).response))
  | _ => .error .disabled

/-! ## The threads that complete requests -/

/-- The timer is due: `onTimeOut` is called. -/
def expire (s : RockStream) (j r : Nat) : Except Halt RockStream :=
  match s.job j with
  | .loop [] =>
    if (s.ctx r).pending then
      .ok ((s.setCtx r { s.ctx r with pending := false }).setJob j (.on r .erase []))
    else .error .disabled
  | _ => .error .disabled

/-- `innerClose`, up to the table. -/
def innerClose (s : RockStream) (j : Nat) : Except Halt RockStream :=
  match s.job j with
  | .loop [] => .ok ({ s with connected := false }.setJob j .closing)
  | _ => .error .disabled

/-- `ctxs.swap(m_ctxs)`; the order in which the contexts are gone through is that of a hash
table. -/
def swapCtxs (s : RockStream) (j : Nat) (order : List (UInt32 × Nat)) : Except Halt RockStream :=
  match s.job j with
  | .closing =>
    if order.isPerm s.ctxs then .ok ({ s with ctxs := [] }.setJob j (.loop (order.map Prod.snd)))
    else .error .disabled
  | _ => .error .disabled

/-- `doRecv` after `parseFrom`: the response is taken for a request, or the stream closed. -/
def doRecv (s : RockStream) (j : Nat) (msg : Option RockMessage) : Except Halt RockStream :=
  match s.job j with
  | .loop [] =>
    match msg with
    | none => .ok ({ s with connected := false }.setJob j .closing)
    | some (.response rsp) =>
      match s.ctxs.lookup rsp.sn with
      | none => .error .nullContext
      | some r =>
        let c := s.ctx r
        let taken := if c.scheduled = 0 then some rsp else c.taken
        .ok (({ s with ctxs := s.without rsp.sn }.setCtx r { c with taken := taken }).setJob j
          (.on r (.setResult rsp.result (some rsp)) []))
    | some (.request _) => .ok s
    | some (.notify _) => .ok s
  | _ => .error .disabled

/-- What follows the write of the result: the response in `doRecv`, `doRsp` in `innerClose`. -/
def afterResult : Option RockResponse → Stage
  | some rsp => .setResponse rsp
  | none => .doRsp

/-- One line of work on the context of `r`: the stream and what comes next. -/
def advance (s : RockStream) (r : Nat) (stage : Stage) : RockStream × Option Stage :=
  let c := s.ctx r
  match stage with
  | .erase => ({ s with ctxs := s.without c.sn }, some .setTimed)
  | .setTimed => (s.setCtx r { c with timed := true }, some .doRsp)
  | .setResult v rsp => (s.setCtx r { c with result := v }, some (afterResult rsp))
  | .setResponse rsp => (s.setCtx r { c with response := some rsp }, some .doRsp)
  | .doRsp => (s, some (.swap c.scheduler))
  | .swap scd =>
    if c.scheduler = scd then
      (s.setCtx r { c with scheduler := false }, if scd && c.fiber then some .cancelTimer else none)
    else (s, none)
  | .cancelTimer =>
    (if c.timer then s.setCtx r { c with timer := false, pending := false } else s, some .applyTimed)
  | .applyTimed =>
    (if c.timed then s.setCtx r { c with result := TIMEOUT.toUInt32 } else s, some .schedule)
  | .schedule =>
    (if c.fiber then s.setCtx r { c with fiber := false, scheduled := c.scheduled + 1 } else s, none)

/-- On with the same context, or back to the loop of `innerClose`. -/
def nextJob (r : Nat) (rest : List Nat) : Option Stage → Job
  | some stage => .on r stage rest
  | none => .loop rest

/-- A thread goes on. -/
def work (s : RockStream) (j : Nat) : Except Halt RockStream :=
  match s.job j with
  | .loop [] => .error .disabled
  | .loop (r :: rest) => .ok (s.setJob j (.on r (.setResult IO_ERROR.toUInt32 none) rest))
  | .on r stage rest =>
    .ok ((s.advance r stage).1.setJob j (nextJob r rest (s.advance r stage).2))
  | .closing => .error .disabled

inductive Op where
  | request (sn : UInt32)
  | addCtx (r : Nat)
  | addTimer (r : Nat)
  | setTimer (r : Nat)
  | resume (r : Nat)
  | expire (j r : Nat)
  | innerClose (j : Nat)
  | swapCtxs (j : Nat) (order : List (UInt32 × Nat))
  | doRecv (j : Nat) (msg : Option RockMessage)
  | work (j : Nat)
  | reconnect
  deriving DecidableEq, Repr

def step (s : RockStream) : Op → Except Halt RockStream
  | .request sn => .ok (s.request sn)
  | .addCtx r => s.addCtx r
  | .addTimer r => s.addTimer r
  | .setTimer r => s.setTimer r
  | .resume r => s.resume r
  | .expire j r => s.expire j r
  | .innerClose j => s.innerClose j
  | .swapCtxs j order => s.swapCtxs j order
  | .doRecv j msg => s.doRecv j msg
  | .work j => s.work j
  | .reconnect => .ok { s with connected := true }

def Step (s : RockStream) (op : Op) (s' : RockStream) : Prop := s.step op = .ok s'

end RockStream

end CxkFramework
