/-!
# The fiber semaphore

`FiberSemaphore` with its lock held: `wait` and `notify` are one step each, the `YieldToHold` of
a fiber that has to wait comes after it. A waiter is anything that tells the fibers apart.
-/

namespace CxkFramework

structure FiberSemaphore (ω : Type) where
  concurrency : Nat
  waiters : List ω
  deriving DecidableEq, Repr

namespace FiberSemaphore

variable {ω : Type}

/-- Whether the caller goes on; otherwise it is among the waiters and yields. -/
def wait (s : FiberSemaphore ω) (w : ω) : Bool × FiberSemaphore ω :=
  if 0 < s.concurrency then (true, { s with concurrency := s.concurrency - 1 })
  else (false, { s with waiters := s.waiters ++ [w] })

/-- The waiter that is scheduled, if there is one. -/
def notify (s : FiberSemaphore ω) : Option ω × FiberSemaphore ω :=
  match s.waiters with
  | w :: rest => (some w, { s with waiters := rest })
  | [] => (none, { s with concurrency := s.concurrency + 1 })

theorem wait_of_pos {s : FiberSemaphore ω} {w : ω} (h : 0 < s.concurrency) :
    s.wait w = (true, { s with concurrency := s.concurrency - 1 }) := if_pos h

theorem wait_of_zero {s : FiberSemaphore ω} {w : ω} (h : s.concurrency = 0) :
    s.wait w = (false, { s with waiters := s.waiters ++ [w] }) := by
  rw [wait, if_neg (by omega)]

theorem notify_nil {s : FiberSemaphore ω} (h : s.waiters = []) :
    s.notify = (none, { s with concurrency := s.concurrency + 1 }) := by
  rw [notify, h]

theorem notify_cons {s : FiberSemaphore ω} {w : ω} {rest : List ω} (h : s.waiters = w :: rest) :
    s.notify = (some w, { s with waiters := rest }) := by
  rw [notify, h]

end FiberSemaphore

end CxkFramework
