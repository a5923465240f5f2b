import CxkFramework.OrderedSet
import CxkFramework.Runs

/-!
# Timers

`Timer` and `TimerManager`. A timer is told by its address; `live` says at which addresses one
exists, since an address is used again when the last pointer to its timer is gone. Every value
of the clock is an argument, so it may jump at will. `m_timers` is a `std::set` whose order is
that of the `m_next` of its elements, so to change it for an element, to erase the end iterator
and to look at the first element of an empty set have no result. Each operation holds the lock
for all it does and is one step; a callback is told by a number.
-/

namespace CxkFramework

open OrderedSet

structure Timer where
  recurring : Bool := false
  ms : UInt64 := 0
  next : UInt64 := 0
  cb : Option Nat := none
  deriving DecidableEq, Repr

namespace Timer

/-- `m_cb = nullptr`. -/
def clearCb (t : Timer) : Timer := { t with cb := none }

def setNext (t : Timer) (next : UInt64) : Timer := { t with next := next }

def setMs (t : Timer) (ms : UInt64) : Timer := { t with ms := ms }

end Timer

structure TimerManager where
  live : Nat → Bool
  timer : Nat → Timer
  timers : List Nat
  tickled : Bool
  previousTime : UInt64
  /-- how often `onTimerInsertedAtFront` was called -/
  notifications : Nat

namespace TimerManager

/-- Why an operation has no result. -/
inductive Fault where
  | eraseEnd
  | keyInSet
  | emptyBegin
  /-- there is no such timer, or there is one already -/
  | disabled
  deriving DecidableEq, Repr

/-- `Timer::Comparetor` on `m_next` and the address. No pointer in the set is null. -/
def Comparetor (lhs rhs : UInt64 × Nat) : Bool :=
  if lhs.1 < rhs.1 then true
  else if rhs.1 < lhs.1 then false
  else lhs.2 < rhs.2

def key (s : TimerManager) (a : Nat) : UInt64 × Nat := ((s.timer a).next, a)

def less (s : TimerManager) (a b : Nat) : Bool := Comparetor (s.key a) (s.key b)

/-- The constructor, at the time `now`. -/
def init (now : UInt64) : TimerManager where
  live _ := false
  timer _ := {}
  timers := []
  tickled := false
  previousTime := now
  notifications := 0

def setTimer (s : TimerManager) (a : Nat) (t : Timer) : TimerManager :=
  { s with timer := Function.update s.timer a t }

def setTimers (s : TimerManager) (timers : List Nat) : TimerManager := { s with timers := timers }

/-- `timer->m_next = next`. -/
def setNext (s : TimerManager) (a : Nat) (next : UInt64) : Except Fault TimerManager :=
  if a ∈ s.timers then .error .keyInSet
  else .ok (s.setTimer a ((s.timer a).setNext next))

/-- `m_timers.find` for a timer. -/
def find (s : TimerManager) (a : Nat) : Option Nat := OrderedSet.find s.less a s.timers

def erase (s : TimerManager) : Option Nat → Except Fault TimerManager
  | some b => .ok (s.setTimers (s.timers.erase b))
  | none => .error .eraseEnd

def insert (s : TimerManager) (a : Nat) : TimerManager :=
  s.setTimers (OrderedSet.insert s.less a s.timers)

/-- `addTimer(val, lock)`. -/
def addTimerLocked (s : TimerManager) (a : Nat) : TimerManager :=
  let s := s.insert a
  let atFront := s.timers.head? = some a && !s.tickled
  if atFront then { s with tickled := true, notifications := s.notifications + 1 } else s

/-- `addTimer`, with the address of the new timer. -/
def addTimer (s : TimerManager) (a : Nat) (ms : UInt64) (cb : Option Nat) (recurring : Bool)
    (now : UInt64) : Except Fault TimerManager :=
  if s.live a then .error .disabled
  else
    let timer := { recurring := recurring, ms := ms, next := now + ms, cb := cb }
    .ok (({ s with live := Function.update s.live a true }.setTimer a timer).addTimerLocked a)

def cancel (s : TimerManager) (a : Nat) : Except Fault (Bool × TimerManager) :=
  if !s.live a then .error .disabled
  else if (s.timer a).cb.isSome then do
    let s := s.setTimer a (s.timer a).clearCb
    let s ← s.erase (s.find a)
    .ok (true, s)
  else .ok (false, s)

def refresh (s : TimerManager) (a : Nat) (now : UInt64) : Except Fault (Bool × TimerManager) :=
  if !s.live a then .error .disabled
  else if (s.timer a).cb.isNone then .ok (false, s)
  else
    match s.find a with
    | none => .ok (false, s)
    | some it => do
      let s ← s.erase (some it)
      let s ← s.setNext a (now + (s.timer a).ms)
      .ok (true, s.insert a)

def reset (s : TimerManager) (a : Nat) (ms : UInt64) (fromNow : Bool) (now : UInt64) :
    Except Fault (Bool × TimerManager) :=
  if !s.live a then .error .disabled
  else if ms = (s.timer a).ms && !fromNow then .ok (true, s)
  else if (s.timer a).cb.isNone then .ok (false, s)
  else
    match s.find a with
    | none => .ok (false, s)
    | some it => do
      let s ← s.erase (some it)
      let start := if fromNow then now else (s.timer a).next - (s.timer a).ms
      let s := s.setTimer a ((s.timer a).setMs ms)
      let s ← s.setNext a (start + ms)
      .ok (true, s.addTimerLocked a)

def hasTimer (s : TimerManager) : Bool := !s.timers.isEmpty

def getNextTimer (s : TimerManager) (now : UInt64) : UInt64 × TimerManager :=
  let s := { s with tickled := false }
  match s.timers with
  | [] => (0xffffffffffffffff, s)
  | a :: _ =>
    if now ≥ (s.timer a).next then (0, s) else ((s.timer a).next - now, s)

def detectClockRollover (s : TimerManager) (now : UInt64) : Bool × TimerManager :=
  (now < s.previousTime && now < s.previousTime - 60 * 60 * 1000, { s with previousTime := now })

/-- The part of `m_timers` from `it` on: what has not expired. `probe` is the address of
`now_timer`. -/
def unexpired (s : TimerManager) (now : UInt64) (probe : Nat) (rollover : Bool) : List Nat :=
  let it := if rollover then [] else s.timers.dropWhile (fun a => Comparetor (s.key a) (now, probe))
  it.dropWhile (fun a => (s.timer a).next = now)

/-- The body of the loop over `expired`. -/
def expireOne (now : UInt64) (acc : List (Option Nat) × TimerManager) (a : Nat) :
    Except Fault (List (Option Nat) × TimerManager) := do
  let (cbs, s) := acc
  let cbs := cbs ++ [(s.timer a).cb]
  if (s.timer a).recurring then
    let s ← s.setNext a (now + (s.timer a).ms)
    .ok (cbs, s.insert a)
  else .ok (cbs, s.setTimer a (s.timer a).clearCb)

/-- Take the expired timers out of the set and go through them. -/
def expire (s : TimerManager) (now : UInt64) (probe : Nat) (rollover : Bool) :
    Except Fault (List (Option Nat) × TimerManager) :=
  let rest := s.unexpired now probe rollover
  let expired := s.timers.take (s.timers.length - rest.length)
  expired.foldlM (expireOne now) ([], s.setTimers rest)

def listExpiredCb (s : TimerManager) (now : UInt64) (probe : Nat) :
    Except Fault (List (Option Nat) × TimerManager) :=
  if !s.hasTimer then .ok ([], s)
  else
    let rollover := (s.detectClockRollover now).1
    let s := (s.detectClockRollover now).2
    match s.timers with
    | [] => .error .emptyBegin
    | a :: _ =>
      if !rollover && (s.timer a).next > now then .ok ([], s)
      else if s.live probe then .error .disabled
      else s.expire now probe rollover

/-- The last pointer to a timer is gone. -/
def destroy (s : TimerManager) (a : Nat) : Except Fault TimerManager :=
  if s.live a && a ∉ s.timers then .ok { s with live := Function.update s.live a false }
  else .error .disabled

/-- Callers pass a callback that is not null. -/
inductive Op where
  | addTimer (a : Nat) (ms : UInt64) (cb : Nat) (recurring : Bool) (now : UInt64)
  | cancel (a : Nat)
  | refresh (a : Nat) (now : UInt64)
  | reset (a : Nat) (ms : UInt64) (fromNow : Bool) (now : UInt64)
  | getNextTimer (now : UInt64)
  | listExpiredCb (now : UInt64) (probe : Nat)
  | destroy (a : Nat)
  deriving DecidableEq, Repr

def step (s : TimerManager) : Op → Except Fault TimerManager
  | .addTimer a ms cb recurring now => s.addTimer a ms (some cb) recurring now
  | .cancel a => (s.cancel a).map Prod.snd
  | .refresh a now => (s.refresh a now).map Prod.snd
  | .reset a ms fromNow now => (s.reset a ms fromNow now).map Prod.snd
  | .getNextTimer now => .ok (s.getNextTimer now).2
  | .listExpiredCb now probe => (s.listExpiredCb now probe).map Prod.snd
  | .destroy a => s.destroy a

def Step (s : TimerManager) (op : Op) (s' : TimerManager) : Prop := s.step op = .ok s'

end TimerManager

end CxkFramework
