import CxkFramework.IoManager

/-!
# The hooked calls

`do_io` and `connect_with_timeout` for one call, with everything that other threads may do in
between: the callbacks of the condition timers of the call and any other operation of the
manager. The two functions differ in the error that makes them wait and in what they do
afterwards. A retry of `do_io` arms a new timer, and all of them share one `timer_info`.
A fiber that has yielded goes on when an entry of the scheduler's queue is left for it.
Calls that do not come to wait (no hook, no socket, not blocking) are left out.
-/

namespace CxkFramework.Hook

open IOManager

def EINTR : Int := 4
def EAGAIN : Int := 11
def ETIMEDOUT : Int := 110
def EINPROGRESS : Int := 115

/-- What does not change during a call. -/
structure Call where
  /-- `connect_with_timeout`, and not `do_io` -/
  connects : Bool
  fd : Nat
  event : Event
  caller : Caller
  /-- whether the timeout is another one than `(uint64_t)-1` -/
  timed : Bool
  deriving DecidableEq, Repr

/-- Where a condition timer of the call and its callback are. -/
inductive Alarm where
  /-- in the timer set -/
  | armed
  /-- its callback was taken out by `listExpiredCb` -/
  | expired
  /-- `OnTimer` and the callback have locked `winfo` -/
  | entered
  /-- `t->cancelled` was 0 -/
  | tested
  /-- `t->cancelled` is written, `cancelEvent` comes next -/
  | cancelling
  /-- the timer was cancelled, or its callback has returned -/
  | finished
  deriving DecidableEq, Repr

/-- What the fiber does next; `timer` is the number of the timer of this round. -/
inductive Place where
  /-- `retry:` -/
  | trying
  | arming
  | adding (timer : Option Nat)
  | yielding (timer : Option Nat)
  | suspended (timer : Option Nat)
  | resumed (timer : Option Nat)
  | checking
  /-- `addEvent` has failed -/
  | failed (timer : Option Nat)
  /-- the `getsockopt` of `connect_with_timeout` -/
  | asking
  /-- with the `errno` that the function wrote itself -/
  | returned (n : Int) (errno : Option Int)
  deriving DecidableEq, Repr

end Hook

open IOManager Hook

structure Hook where
  iom : IOManager
  place : Place
  /-- `tinfo->cancelled` -/
  cancelled : Int
  timers : List Alarm
  /-- how many entries of the queue the fiber has used -/
  resumes : Nat

namespace Hook

/-- Why a step has no result. -/
inductive Halt where
  | crash (c : Crash)
  /-- the fiber or the timer is elsewhere -/
  | disabled
  deriving DecidableEq, Repr

variable (call : Call)

/-- The entries that the queue ever had for the fiber. -/
def entries (iom : IOManager) : Nat :=
  (iom.scheduled.filter fun e => e.2 = .fiber call.caller.fiber).length

/-- `tinfo` is made; the manager may be in any state, with no entry left for the fiber. -/
def init (iom : IOManager) : Hook where
  iom := iom
  place := .trying
  cancelled := 0
  timers := []
  resumes := entries call iom

def setIom (s : Hook) (iom : IOManager) : Hook := { s with iom := iom }
def goto (s : Hook) (place : Place) : Hook := { s with place := place }
def setTimer (s : Hook) (i : Nat) (a : Alarm) : Hook := { s with timers := s.timers.set i a }

/-- The outcome of the system call: `n` and `errno`. -/
def attempt (n errno : Int) : Place :=
  if call.connects then
    if n = -1 ∧ errno = EINPROGRESS then .arming else .returned n none
  else if n = -1 ∧ errno = EINTR then .trying
  else if n = -1 ∧ errno = EAGAIN then .arming
  else .returned n none

def addConditionTimer (s : Hook) : Hook :=
  if call.timed then { s with place := .adding (some s.timers.length), timers := s.timers ++ [.armed] }
  else s.goto (.adding none)

/-- `if(timer) timer->cancel();`: a timer whose callback was taken out is past cancelling. -/
def cancelTimer (s : Hook) (timer : Option Nat) : Hook :=
  match timer with
  | none => s
  | some i => if s.timers[i]? = some .armed then s.setTimer i .finished else s

/-- `tinfo` lives as long as the call or a callback that has locked it. -/
def alive (s : Hook) : Bool :=
  (match s.place with
    | .returned _ _ => false
    | _ => true) ||
  s.timers.any fun a => a = .entered ∨ a = .tested ∨ a = .cancelling

/-- An entry is left for the fiber. -/
def scheduled (s : Hook) : Bool := decide (s.resumes < entries call s.iom)

inductive Op where
  | attempt (n errno : Int)
  | addConditionTimer
  | addEvent (fails : Bool)
  | yieldToHold
  | resume
  | cancelTimer
  /-- `if(tinfo->cancelled)` -/
  | check
  | getsockopt (rt error : Int)
  /-- `listExpiredCb` comes to the timer -/
  | expire (i : Nat)
  | lock (i : Nat)
  /-- `if(!t || t->cancelled)` -/
  | test (i : Nat)
  /-- `t->cancelled = ETIMEDOUT` -/
  | write (i : Nat)
  | cancelEvent (i : Nat) (fails : Bool)
  /-- an operation of the manager outside of the call -/
  | other (op : IOManager.Op)

/-- Nobody else registers events for the fiber of the call. -/
def foreign : IOManager.Op → Bool
  | .addEvent _ _ none caller _ => caller.fiber ≠ call.caller.fiber
  | _ => true

def step (s : Hook) : Op → Except Halt Hook
  | .attempt n errno =>
    match s.place with
    | .trying => .ok (s.goto (attempt call n errno))
    | _ => .error .disabled
  | .addConditionTimer =>
    match s.place with
    | .arming => .ok (s.addConditionTimer call)
    | _ => .error .disabled
  | .addEvent fails =>
    match s.place with
    | .adding timer =>
      match s.iom.addEvent call.fd call.event none call.caller fails with
      | .ok (rt, iom) =>
        .ok ((s.setIom iom).goto (if rt = 0 then .yielding timer else .failed timer))
      | .error c => .error (.crash c)
    | _ => .error .disabled
  | .yieldToHold =>
    match s.place with
    | .yielding timer => .ok (s.goto (.suspended timer))
    | _ => .error .disabled
  | .resume =>
    match s.place with
    | .suspended timer =>
      if s.scheduled call then .ok { s with place := .resumed timer, resumes := s.resumes + 1 }
      else .error .disabled
    | _ => .error .disabled
  | .cancelTimer =>
    match s.place with
    | .resumed timer => .ok ((s.cancelTimer timer).goto .checking)
    | .failed timer =>
      .ok ((s.cancelTimer timer).goto (if call.connects then .asking else .returned (-1) none))
    | _ => .error .disabled
  | .check =>
    match s.place with
    | .checking =>
      if s.cancelled ≠ 0 then .ok (s.goto (.returned (-1) (some s.cancelled)))
      else .ok (s.goto (if call.connects then .asking else .trying))
    | _ => .error .disabled
  | .getsockopt rt error =>
    match s.place with
    | .asking =>
      .ok (s.goto (if rt = -1 then .returned (-1) none else if error = 0 then .returned 0 none
        else .returned (-1) (some error)))
    | _ => .error .disabled
  | .expire i =>
    if s.timers[i]? = some .armed then .ok (s.setTimer i .expired) else .error .disabled
  | .lock i =>
    if s.timers[i]? = some .expired then
      .ok (s.setTimer i (if s.alive then .entered else .finished))
    else .error .disabled
  | .test i =>
    if s.timers[i]? = some .entered then
      .ok (s.setTimer i (if s.cancelled ≠ 0 then .finished else .tested))
    else .error .disabled
  | .write i =>
    if s.timers[i]? = some .tested then
      .ok { s with timers := s.timers.set i .cancelling, cancelled := ETIMEDOUT }
    else .error .disabled
  | .cancelEvent i fails =>
    if s.timers[i]? = some .cancelling then
      match s.iom.cancelEvent call.fd call.event fails with
      | .ok (_, iom) => .ok ((s.setIom iom).setTimer i .finished)
      | .error c => .error (.crash c)
    else .error .disabled
  | .other op =>
    if foreign call op then
      match s.iom.step op with
      | .ok iom => .ok (s.setIom iom)
      | .error c => .error (.crash c)
    else .error .disabled

def Step (s : Hook) (op : Op) (s' : Hook) : Prop := s.step call op = .ok s'

end Hook

end CxkFramework
