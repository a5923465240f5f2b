import CxkFramework.Runs

/-!
# The scheduler

The queue `m_fibers`, the state words of the fibers and where each worker thread is in
`Scheduler::run`. Everything another thread can see in between is a step of its own: taking a
task under the lock, choosing what to do with it, `swapIn`, the write of the state word before
`swapOut`, the return to the loop, the counter, the fix-up of the state word and the
`schedule` of a fiber that is ready again. `schedule` may be called at any time by anyone.
Threads are of any type and so of any number; logging and `tickle` are left out.
-/

namespace CxkFramework.Scheduler

inductive FiberState where
  | INIT
  | HOLD
  | EXEC
  | TERM
  | READY
  | EXCEPT
  deriving DecidableEq, Repr

/-- `run` makes an idle fiber for its thread; all others are numbered as they are made. -/
inductive Fiber (τ : Type) where
  | idle (t : τ)
  | made (id : Nat)
  deriving DecidableEq, Repr

/-- An entry of the queue; `thread` is `none` for `-1`. -/
structure FiberAndThread (τ : Type) where
  fiber : Option (Fiber τ) := none
  cb : Option Nat := none
  thread : Option τ := none
  deriving DecidableEq, Repr

/-- The branch of `run` a fiber is run in. -/
inductive Branch where
  | fiber
  | cb
  | idle
  deriving DecidableEq, Repr

/-- Where a thread is in `run`. -/
inductive Place (τ : Type) where
  | top
  /-- a task was taken -/
  | taken (ft : FiberAndThread τ)
  /-- nothing to take was found -/
  | nothing
  /-- before `swapIn` -/
  | entering (f : Fiber τ) (branch : Branch)
  /-- `swapIn` called, the fiber runs -/
  | inside (f : Fiber τ) (branch : Branch)
  /-- the fiber wrote its state word and has not completed `swapOut` -/
  | leaving (f : Fiber τ) (branch : Branch)
  /-- `swapIn` returned -/
  | returned (f : Fiber τ) (branch : Branch)
  /-- the counter is decremented -/
  | fixing (f : Fiber τ) (branch : Branch)
  /-- the fiber was found to be `READY` -/
  | requeuing (f : Fiber τ) (branch : Branch)
  /-- the loop was left -/
  | exited
  deriving DecidableEq, Repr

end CxkFramework.Scheduler

namespace CxkFramework

open Scheduler

structure Scheduler (τ : Type) where
  fibers : List (FiberAndThread τ)
  state : Fiber τ → FiberState
  /-- `s_fiber_id` -/
  fiberId : Nat
  cbFiber : τ → Option (Fiber τ)
  place : τ → Place τ
  activeThreadCount : Int
  idelThreadCount : Int

namespace Scheduler

/-- Why a step has no result. -/
inductive Halt where
  | assertion
  /-- the thread is elsewhere, or the fiber does not exist -/
  | disabled
  deriving DecidableEq, Repr

variable {τ : Type} [DecidableEq τ]

def init : Scheduler τ where
  fibers := []
  state _ := .INIT
  fiberId := 0
  cbFiber _ := none
  place _ := .top
  activeThreadCount := 0
  idelThreadCount := 0

def moveTo (s : Scheduler τ) (t : τ) (p : Place τ) : Scheduler τ :=
  { s with place := Function.update s.place t p }

def setState (s : Scheduler τ) (f : Fiber τ) (x : FiberState) : Scheduler τ :=
  { s with state := Function.update s.state f x }

def setCbFiber (s : Scheduler τ) (t : τ) (f : Option (Fiber τ)) : Scheduler τ :=
  { s with cbFiber := Function.update s.cbFiber t f }

theorem moveTo_place (s : Scheduler τ) (t : τ) (p : Place τ) :
    (s.moveTo t p).place = Function.update s.place t p := rfl

theorem setCbFiber_cbFiber (s : Scheduler τ) (t : τ) (f : Option (Fiber τ)) :
    (s.setCbFiber t f).cbFiber = Function.update s.cbFiber t f := rfl

/-- `TERM` or `EXCEPT`. -/
def finished (x : FiberState) : Bool := x = .TERM || x = .EXCEPT

/-- The fibers there are. -/
def known (s : Scheduler τ) : Fiber τ → Bool
  | .idle _ => true
  | .made id => id < s.fiberId

/-- `scheduleNoLock`: a task of nothing is not put into the queue. -/
def scheduleNoLock (s : Scheduler τ) (ft : FiberAndThread τ) : Scheduler τ :=
  if ft.fiber.isSome || ft.cb.isSome then { s with fibers := s.fibers ++ [ft] } else s

def schedule (s : Scheduler τ) (ft : FiberAndThread τ) : Except Halt (Scheduler τ) :=
  if ft.fiber.all s.known then .ok (s.scheduleNoLock ft) else .error .disabled

/-- The entries a thread does not pass over. -/
def eligible (s : Scheduler τ) (t : τ) (ft : FiberAndThread τ) : Bool :=
  (ft.thread = none || ft.thread = some t) && ft.fiber.all (fun f => s.state f ≠ .EXEC)

/-- The search of the queue, under the lock. -/
def take (s : Scheduler τ) (t : τ) : Except Halt (Scheduler τ) :=
  match s.place t with
  | .top =>
    match s.fibers.find? (s.eligible t) with
    | some ft =>
      .ok ({ s with
        fibers := s.fibers.eraseP (s.eligible t)
        activeThreadCount := s.activeThreadCount + 1 }.moveTo t (.taken ft))
    | none => .ok (s.moveTo t .nothing)
  | _ => .error .disabled

/-- `Fiber::reset`, with the callback left out. -/
def reset (s : Scheduler τ) (f : Fiber τ) : Except Halt (Scheduler τ) :=
  if finished (s.state f) || s.state f = .INIT then .ok (s.setState f .INIT) else .error .assertion

/-- The callback fiber of the thread is used again, or a new one made. -/
def prepareCb (s : Scheduler τ) (t : τ) : Except Halt (Scheduler τ) :=
  match s.cbFiber t with
  | some f => do
    let s ← s.reset f
    .ok (s.moveTo t (.entering f .cb))
  | none =>
    let f := Fiber.made s.fiberId
    .ok (({ s with fiberId := s.fiberId + 1 }.setCbFiber t (some f)).moveTo t (.entering f .cb))

/-- What `run` does with what it took, or with nothing. -/
def branch (s : Scheduler τ) (t : τ) : Except Halt (Scheduler τ) :=
  match s.place t with
  | .taken ft =>
    match ft.fiber.filter (fun f => !finished (s.state f)), ft.cb with
    | some f, _ => .ok (s.moveTo t (.entering f .fiber))
    | none, some _ => s.prepareCb t
    | none, none =>
      .ok ({ s with activeThreadCount := s.activeThreadCount - 1 }.moveTo t .top)
  | .nothing =>
    if s.state (.idle t) = .TERM then .ok (s.moveTo t .exited)
    else
      .ok ({ s with idelThreadCount := s.idelThreadCount + 1 }.moveTo t (.entering (.idle t) .idle))
  | _ => .error .disabled

def swapIn (s : Scheduler τ) (t : τ) : Except Halt (Scheduler τ) :=
  match s.place t with
  | .entering f b =>
    if s.state f = .EXEC then .error .assertion
    else .ok ((s.setState f .EXEC).moveTo t (.inside f b))
  | _ => .error .disabled

/-- The write of the state word: `HOLD` and `READY` in `YieldToHold` and `YieldToReady`,
`TERM` and `EXCEPT` at the end of `MainFunc`. -/
def yield (s : Scheduler τ) (t : τ) (x : FiberState) : Except Halt (Scheduler τ) :=
  match s.place t with
  | .inside f b =>
    if x = .INIT ∨ x = .EXEC then .error .disabled
    else .ok ((s.setState f x).moveTo t (.leaving f b))
  | _ => .error .disabled

/-- `swapOut` completes; the idle loop of `IOManager` calls it without a write of the state
word. -/
def swapOut (s : Scheduler τ) (t : τ) : Except Halt (Scheduler τ) :=
  match s.place t with
  | .inside f .idle => .ok (s.moveTo t (.returned f .idle))
  | .leaving f b => .ok (s.moveTo t (.returned f b))
  | _ => .error .disabled

/-- `--m_activeThreadCount` or `--m_idelThreadCount`. -/
def decrement (s : Scheduler τ) (t : τ) : Except Halt (Scheduler τ) :=
  match s.place t with
  | .returned f .idle =>
    .ok ({ s with idelThreadCount := s.idelThreadCount - 1 }.moveTo t (.fixing f .idle))
  | .returned f b =>
    .ok ({ s with activeThreadCount := s.activeThreadCount - 1 }.moveTo t (.fixing f b))
  | _ => .error .disabled

/-- What `run` makes of the state word after `swapIn`. -/
def fixUp (s : Scheduler τ) (t : τ) : Except Halt (Scheduler τ) :=
  match s.place t with
  | .fixing f .fiber =>
    if s.state f = .READY then .ok (s.moveTo t (.requeuing f .fiber))
    else if finished (s.state f) then .ok (s.moveTo t .top)
    else .ok ((s.setState f .HOLD).moveTo t .top)
  | .fixing f .cb =>
    if s.state f = .READY then .ok (s.moveTo t (.requeuing f .cb))
    else if finished (s.state f) then .ok ((s.setState f .INIT).moveTo t .top)
    else .ok (((s.setState f .HOLD).setCbFiber t none).moveTo t .top)
  | .fixing f .idle =>
    if finished (s.state f) then .ok (s.moveTo t .top)
    else .ok ((s.setState f .HOLD).moveTo t .top)
  | _ => .error .disabled

/-- The thread lets go of a fiber that is ready again. -/
def letGo (s : Scheduler τ) (t : τ) : Branch → Scheduler τ
  | .cb => (s.setCbFiber t none).moveTo t .top
  | _ => s.moveTo t .top

/-- `schedule(ft.fiber)` or `schedule(cb_fiber)` for a fiber that is ready again. -/
def requeue (s : Scheduler τ) (t : τ) : Except Halt (Scheduler τ) :=
  match s.place t with
  | .requeuing f b => .ok ((s.letGo t b).scheduleNoLock { fiber := some f })
  | _ => .error .disabled

inductive Op (τ : Type) where
  /-- anyone makes a fiber -/
  | newFiber
  /-- anyone calls `schedule` -/
  | schedule (ft : FiberAndThread τ)
  | take (t : τ)
  | branch (t : τ)
  | swapIn (t : τ)
  | yield (t : τ) (x : FiberState)
  | swapOut (t : τ)
  | decrement (t : τ)
  | fixUp (t : τ)
  | requeue (t : τ)
  deriving DecidableEq, Repr

def step (s : Scheduler τ) : Op τ → Except Halt (Scheduler τ)
  | .newFiber => .ok { s with fiberId := s.fiberId + 1 }
  | .schedule ft => s.schedule ft
  | .take t => s.take t
  | .branch t => s.branch t
  | .swapIn t => s.swapIn t
  | .yield t x => s.yield t x
  | .swapOut t => s.swapOut t
  | .decrement t => s.decrement t
  | .fixUp t => s.fixUp t
  | .requeue t => s.requeue t

def Step (s : Scheduler τ) (op : Op τ) (s' : Scheduler τ) : Prop := s.step op = .ok s'

end Scheduler

end CxkFramework
