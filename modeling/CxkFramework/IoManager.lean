import CxkFramework.Runs

/-!
# The event table of the IO manager

`addEvent`, `delEvent`, `cancelEvent`, `cancelAll` and the loop of `idel` over the records of
an `epoll_wait`. An operation is one step, since each holds the lock of its context; in the
loop that is true of each record. `epoll` keeps one mask for each file descriptor, and every
call of `epoll_ctl` may fail. A context is found by its index, which is also its `fd`; the
counter is an `Int`. Timers, callbacks that have expired and logging are left out.
-/

namespace CxkFramework.IOManager

/-- A set of `IOManager::Event` bits. -/
structure Event where
  read : Bool
  write : Bool
  deriving DecidableEq, Repr

namespace Event

def NONE : Event := ⟨false, false⟩
def READ : Event := ⟨true, false⟩
def WRITE : Event := ⟨false, true⟩

instance : Inter Event := ⟨fun a b => ⟨a.read && b.read, a.write && b.write⟩⟩
instance : Union Event := ⟨fun a b => ⟨a.read || b.read, a.write || b.write⟩⟩
instance : SDiff Event := ⟨fun a b => ⟨a.read && !b.read, a.write && !b.write⟩⟩

/-- How many bits are set. -/
def bits (e : Event) : Nat := e.read.toNat + e.write.toNat

end Event

/-- `IOManager::FdContext::EventContext`; schedulers, fibers and callbacks are numbered. -/
structure EventContext where
  scheduler : Option Nat := none
  fiber : Option Nat := none
  cb : Option Nat := none
  deriving DecidableEq, Repr

structure FdContext where
  read : EventContext := {}
  write : EventContext := {}
  events : Event := Event.NONE
  deriving DecidableEq, Repr

/-- What ends the process. -/
inductive Crash where
  | assertion
  | outOfRange
  | nullScheduler
  deriving DecidableEq, Repr

inductive Task where
  | fiber (id : Nat)
  | cb (id : Nat)
  deriving DecidableEq, Repr

namespace FdContext

def getcontext (c : FdContext) (event : Event) : Except Crash EventContext :=
  if event = Event.READ then .ok c.read
  else if event = Event.WRITE then .ok c.write
  else .error .assertion

/-- Write to the reference that `getcontext` returns. -/
def setcontext (c : FdContext) (event : Event) (ctx : EventContext) : FdContext :=
  if event = Event.READ then { c with read := ctx } else { c with write := ctx }

/-- `schedule(&ctx.cb)` or `schedule(&ctx.fiber)`: what is put into the queue is taken out of
the context. -/
def take (ctx : EventContext) : Option Task × EventContext :=
  match ctx.cb with
  | some cb => (some (.cb cb), { ctx with cb := none })
  | none => (ctx.fiber.map .fiber, { ctx with fiber := none })

/-- Returns the context and what was scheduled, with its scheduler. -/
def triggerEvent (c : FdContext) (event : Event) : Except Crash (FdContext × List (Nat × Task)) := do
  if c.events ∩ event = Event.NONE then .error .assertion
  else
    let ctx ← c.getcontext event
    match ctx.scheduler with
    | none => .error .nullScheduler
    | some scheduler =>
      let (task, ctx) := take ctx
      .ok ({ c with events := c.events \ event }.setcontext event { ctx with scheduler := none },
        task.toList.map (fun task => (scheduler, task)))

end FdContext

/-- `epoll_event::data`. -/
inductive EpollData where
  | tickle
  | ptr (fd : Nat)
  deriving DecidableEq, Repr

structure EpollEvent where
  data : EpollData
  in_ : Bool := false
  out : Bool := false
  err : Bool := false
  hup : Bool := false
  deriving DecidableEq, Repr

inductive EpollOp where
  | ADD
  | MOD
  | DEL
  deriving DecidableEq, Repr

/-- `epoll_ctl`; `none` is a result other than zero. -/
def epollCtl (epoll : Nat → Option Event) (fails : Bool) (op : EpollOp) (fd : Nat) (events : Event) :
    Option (Nat → Option Event) :=
  if fails then none
  else
    match op, epoll fd with
    | .ADD, none => some (Function.update epoll fd (some events))
    | .MOD, some _ => some (Function.update epoll fd (some events))
    | .DEL, some _ => some (Function.update epoll fd none)
    | _, _ => none

end CxkFramework.IOManager

namespace CxkFramework

open IOManager

structure IOManager where
  fdContexts : List FdContext
  appendingEventCount : Int
  /-- the read end of the wake-up pipe -/
  tickleFd : Nat
  epoll : Nat → Option Event
  /-- what was scheduled so far -/
  scheduled : List (Nat × Task)

namespace IOManager

/-- The constructor, before the threads start. -/
def init (tickleFd : Nat) : IOManager where
  fdContexts := List.replicate 32 {}
  appendingEventCount := 0
  tickleFd := tickleFd
  epoll := Function.update (fun _ => none) tickleFd (some Event.READ)
  scheduled := []

def contextResize (s : IOManager) (size : Nat) : IOManager :=
  { s with
    fdContexts := s.fdContexts.take size ++ List.replicate (size - s.fdContexts.length) {} }

/-- The thread that calls `addEvent`: `Scheduler::GetThis()`, `Fiber::GetThis()` and whether
the state of that fiber is `EXEC`. -/
structure Caller where
  scheduler : Option Nat
  fiber : Nat
  executing : Bool
  deriving DecidableEq, Repr

/-- The context `addEvent` leaves behind. -/
def armed (ctx : EventContext) (cb : Option Nat) (caller : Caller) : Except Crash EventContext :=
  if ctx.scheduler ≠ none ∨ ctx.cb ≠ none ∨ ctx.fiber ≠ none then .error .assertion
  else
    match cb with
    | some cb => .ok { ctx with scheduler := caller.scheduler, cb := some cb }
    | none =>
      if caller.executing then .ok { ctx with scheduler := caller.scheduler, fiber := some caller.fiber }
      else .error .assertion

def addEvent (s : IOManager) (fd : Nat) (events : Event) (cb : Option Nat) (caller : Caller)
    (fails : Bool) : Except Crash (Int × IOManager) :=
  let s := if s.fdContexts.length > fd then s else s.contextResize (fd * 3 / 2)
  match s.fdContexts[fd]? with
  | none => .error .outOfRange
  | some c =>
    if c.events ∩ events ≠ Event.NONE then .error .assertion
    else
      let op := if c.events = Event.NONE then EpollOp.ADD else EpollOp.MOD
      match epollCtl s.epoll fails op fd (c.events ∪ events) with
      | none => .ok (-1, s)
      | some epoll => do
        let ctx ← c.getcontext events
        let ctx ← armed ctx cb caller
        let c := { c with events := c.events ∪ events }.setcontext events ctx
        .ok (0, { s with
          epoll := epoll
          appendingEventCount := s.appendingEventCount + 1
          fdContexts := s.fdContexts.set fd c })

/-- The common beginning of `delEvent` and `cancelEvent`: take the events out of `epoll`.
`none` when the call returns false. -/
def release (s : IOManager) (fd : Nat) (events : Event) (fails : Bool) :
    Option (FdContext × (Nat → Option Event)) :=
  match s.fdContexts[fd]? with
  | none => none
  | some c =>
    if c.events ∩ events = Event.NONE then none
    else
      let newEvents := c.events \ events
      let op := if newEvents = Event.NONE then EpollOp.DEL else EpollOp.MOD
      (epollCtl s.epoll fails op fd newEvents).map (fun epoll => (c, epoll))

def delEvent (s : IOManager) (fd : Nat) (events : Event) (fails : Bool) :
    Except Crash (Bool × IOManager) :=
  match s.release fd events fails with
  | none => .ok (false, s)
  | some (c, epoll) => do
    let _ ← c.getcontext events
    let c := { c with events := c.events \ events }.setcontext events {}
    .ok (true, { s with
      epoll := epoll
      appendingEventCount := s.appendingEventCount - 1
      fdContexts := s.fdContexts.set fd c })

def cancelEvent (s : IOManager) (fd : Nat) (events : Event) (fails : Bool) :
    Except Crash (Bool × IOManager) :=
  match s.release fd events fails with
  | none => .ok (false, s)
  | some (c, epoll) => do
    let (c, tasks) ← c.triggerEvent events
    .ok (true, { s with
      epoll := epoll
      appendingEventCount := s.appendingEventCount - 1
      fdContexts := s.fdContexts.set fd c
      scheduled := s.scheduled ++ tasks })

/-- `if(fd_ctx->events & event) { fd_ctx->triggerEvent(event); --m_appendingEventCount; }` -/
def triggerIfSet (s : IOManager) (c : FdContext) (event : Event) :
    Except Crash (FdContext × IOManager) := do
  if c.events ∩ event = Event.NONE then .ok (c, s)
  else
    let (c, tasks) ← c.triggerEvent event
    .ok (c, { s with
      appendingEventCount := s.appendingEventCount - 1
      scheduled := s.scheduled ++ tasks })

/-- Trigger what is in `events`, the reading side first. -/
def triggerAll (s : IOManager) (c : FdContext) : Except Crash (FdContext × IOManager) := do
  let (c, s) ← s.triggerIfSet c Event.READ
  s.triggerIfSet c Event.WRITE

def cancelAll (s : IOManager) (fd : Nat) (fails : Bool) : Except Crash (Bool × IOManager) :=
  match s.fdContexts[fd]? with
  | none => .ok (false, s)
  | some c =>
    if c.events = Event.NONE then .ok (false, s)
    else
      match epollCtl s.epoll fails .DEL fd Event.NONE with
      | none => .ok (false, s)
      | some epoll => do
        let (c, s) ← { s with epoll := epoll }.triggerAll c
        if c.events ≠ Event.NONE then .error .assertion
        else .ok (true, { s with fdContexts := s.fdContexts.set fd c })

/-! ## The idle loop -/

/-- `events->events |= EPOLLIN | EPOLLOUT`: `events` is the array, so the record changed is
its first one. -/
def markFirst : List EpollEvent → List EpollEvent
  | [] => []
  | e :: es => { e with in_ := true, out := true } :: es

/-- The array after an error or hang-up of the record at `i` was looked at. -/
def afterError (events : List EpollEvent) (i : Nat) : List EpollEvent :=
  match events[i]? with
  | some e => if e.err || e.hup then markFirst events else events
  | none => events

/-- `real_events` of the record at `i`. -/
def realEvents (events : List EpollEvent) (i : Nat) : Event :=
  match (afterError events i)[i]? with
  | some e => ⟨e.in_, e.out⟩
  | none => Event.NONE

/-- The body of the loop for the record at `i`: the array and the manager afterwards. -/
def dispatchRecord (s : IOManager) (events : List EpollEvent) (i : Nat) (fails : Bool) :
    Except Crash (List EpollEvent × IOManager) :=
  match events[i]? with
  | none => .error .outOfRange
  | some e =>
    match e.data with
    | .tickle => .ok (events, s)
    | .ptr fd =>
      match s.fdContexts[fd]? with
      | none => .error .outOfRange
      | some c =>
        let real := realEvents events i
        let events := afterError events i
        if c.events ∩ real = Event.NONE then .ok (events, s)
        else
          let left := c.events \ real
          let op := if left = Event.NONE then EpollOp.DEL else EpollOp.MOD
          let events := events.set i { data := e.data, in_ := left.read, out := left.write }
          match epollCtl s.epoll fails op fd left with
          | none => .ok (events, s)
          | some epoll => do
            let (c, s) ← { s with epoll := epoll }.triggerAll c
            .ok (events, { s with fdContexts := s.fdContexts.set fd c })

/-- The loop over the `rt` records of an `epoll_wait`, from the one at `i` on; `fails` says
which calls of `epoll_ctl` fail. -/
def dispatch (s : IOManager) (events : List EpollEvent) (fails : Nat → Bool) :
    Nat → Nat → Except Crash IOManager
  | _, 0 => .ok s
  | i, left + 1 => do
    let (events, s) ← s.dispatchRecord events i (fails i)
    dispatch s events fails (i + 1) left

/-! ## Runs -/

inductive Op where
  | addEvent (fd : Nat) (events : Event) (cb : Option Nat) (caller : Caller) (fails : Bool)
  | delEvent (fd : Nat) (events : Event) (fails : Bool)
  | cancelEvent (fd : Nat) (events : Event) (fails : Bool)
  | cancelAll (fd : Nat) (fails : Bool)
  /-- the idle loop comes to the record at `i` of its array -/
  | ready (events : List EpollEvent) (i : Nat) (fails : Bool)

def step (s : IOManager) : Op → Except Crash IOManager
  | .addEvent fd events cb caller fails => (s.addEvent fd events cb caller fails).map Prod.snd
  | .delEvent fd events fails => (s.delEvent fd events fails).map Prod.snd
  | .cancelEvent fd events fails => (s.cancelEvent fd events fails).map Prod.snd
  | .cancelAll fd fails => (s.cancelAll fd fails).map Prod.snd
  | .ready events i fails => (s.dispatchRecord events i fails).map Prod.snd

/-- `s` can come to `s'` by an operation. -/
def Step (s : IOManager) (op : Op) (s' : IOManager) : Prop := s.step op = .ok s'

end IOManager

end CxkFramework
