import CxkFramework.Stream
import CxkFramework.Timer
import Mathlib.Tactic

/-!
# How long the idle loop sleeps

The delay to the next timer has 64 bits, `epoll_wait` takes an `int`, and a negative one lets it
wait for ever. The delay is compared as an `int` and kept as what it is when it is not above the
limit, so it is the lowest 32 bits of it that decide, in the first call and in every further one.
-/

namespace CxkFramework.IOManager

def MAX_TIMEOUT : Nat := 3000

/-- `~0ull`: there is no timer. -/
def NO_TIMER : UInt64 := 0xffffffffffffffff

/-- `stopping(timeout)`, with what `Scheduler::stopping` says; the timeout is the second result. -/
def stopping (timers : TimerManager) (now : UInt64) (appendingEventCount : Int) (stopped : Bool) :
    Bool × UInt64 :=
  let timeout := (timers.getNextTimer now).1
  (timeout = NO_TIMER && appendingEventCount = 0 && stopped, timeout)

/-- What a call of `epoll_wait` comes back with. -/
inductive WaitResult where
  | ready (records : Nat)
  /-- `EINTR` -/
  | interrupted
  | failed
  deriving DecidableEq, Repr

/-- The new value of `next_timeout`. -/
def capped (next : UInt64) : UInt64 :=
  if next ≠ NO_TIMER then
    if toInt next.toNat > MAX_TIMEOUT then UInt64.ofNat MAX_TIMEOUT else next
  else UInt64.ofNat MAX_TIMEOUT

/-- The timeouts `epoll_wait` is called with, one for each result it comes back with, until it is
not interrupted. -/
def waits (next : UInt64) : List WaitResult → List Int
  | [] => []
  | rt :: rts =>
    let next := capped next
    let timeout := toInt next.toNat
    if rt = .interrupted then timeout :: waits next rts else [timeout]

/-- The beginning of a round of `idel`, up to the last call of `epoll_wait`. -/
def idelWaits (timers : TimerManager) (now : UInt64) (appendingEventCount : Int) (stopped : Bool)
    (rts : List WaitResult) : List Int :=
  let (stop, next) := stopping timers now appendingEventCount stopped
  if stop then [] else waits next rts

/-- A timeout that ends in time. -/
def InTime (next : UInt64) (timeout : Int) : Prop :=
  0 ≤ timeout ∧ timeout ≤ MAX_TIMEOUT ∧ timeout ≤ next.toNat

instance (next : UInt64) (timeout : Int) : Decidable (InTime next timeout) :=
  inferInstanceAs (Decidable (_ ∧ _ ∧ _))

/-- There is no timer, or the lowest 32 bits of the delay are not negative as an `int`. -/
def NotNegative (next : UInt64) : Prop := next = NO_TIMER ∨ next.toNat % 2 ^ 32 < 2 ^ 31

instance (next : UInt64) : Decidable (NotNegative next) := inferInstanceAs (Decidable (_ ∨ _))

section

variable {next : UInt64}

theorem toInt_natCast (n : Nat) :
    toInt n = if n % 2 ^ 32 < 2 ^ 31 then (n % 2 ^ 32 : Int) else n % 2 ^ 32 - 2 ^ 32 := by
  rw [toInt, Int.bmod_def]
  split <;> split <;> omega

@[simp] theorem capped_noTimer : capped NO_TIMER = 3000 := by decide
@[simp] theorem capped_3000 : capped 3000 = 3000 := by decide

theorem capped_of_le (hne : next ≠ NO_TIMER) (hle : toInt next.toNat ≤ 3000) :
    capped next = next := by
  rw [capped, if_pos hne, if_neg]
  simpa [MAX_TIMEOUT] using hle

theorem capped_of_gt (hgt : 3000 < toInt next.toNat) : capped next = 3000 := by
  rw [capped]
  split
  · exact if_pos (by simpa [MAX_TIMEOUT] using hgt)
  · rfl

/-- A further round changes nothing. -/
theorem capped_capped (next : UInt64) : capped (capped next) = capped next := by
  by_cases hne : next = NO_TIMER
  · simp [hne]
  · by_cases hle : toInt next.toNat ≤ 3000
    · rw [capped_of_le hne hle, capped_of_le hne hle]
    · simp [capped_of_gt (not_le.mp hle)]

theorem inTime_capped_iff : InTime next (toInt (capped next).toNat) ↔ NotNegative next := by
  by_cases hne : next = NO_TIMER
  · rw [hne]
    decide
  · have hlow := toInt_natCast next.toNat
    by_cases hle : toInt next.toNat ≤ 3000
    · rw [capped_of_le hne hle]
      simp only [InTime, NotNegative, hne, false_or, MAX_TIMEOUT]
      split at hlow <;> omega
    · rw [capped_of_gt (not_le.mp hle)]
      have h3000 : toInt (3000 : UInt64).toNat = 3000 := by decide
      simp only [InTime, NotNegative, hne, false_or, MAX_TIMEOUT, h3000]
      split at hlow <;> omega

/-- Every call gets the timeout of the first one. -/
theorem eq_of_mem_waits {rts : List WaitResult} {timeout : Int} (h : timeout ∈ waits next rts) :
    timeout = toInt (capped next).toNat := by
  induction rts generalizing next with
  | nil => simp [waits] at h
  | cons rt rts ih =>
    rw [waits] at h
    split at h
    · cases List.mem_cons.mp h with
      | inl h => exact h
      | inr h => rw [ih h, capped_capped]
    · simpa using h

theorem head_mem_waits (rt : WaitResult) (rts : List WaitResult) :
    toInt (capped next).toNat ∈ waits next (rt :: rts) := by
  rw [waits]
  split <;> simp

theorem waits_inTime_iff (next : UInt64) (rt : WaitResult) (rts : List WaitResult) :
    (∀ timeout ∈ waits next (rt :: rts), InTime next timeout) ↔ NotNegative next := by
  rw [← inTime_capped_iff]
  constructor
  · intro h
    exact h _ (head_mem_waits rt rts)
  · intro h timeout hmem
    rwa [eq_of_mem_waits hmem]

end

/-- Whatever the timers are, the first call of `epoll_wait` and those after it sleep for as long as
they should exactly when the delay to the next timer does not turn negative. -/
theorem idelWaits_inTime_iff (timers : TimerManager) (now : UInt64) (appendingEventCount : Int)
    (stopped : Bool) (rt : WaitResult) (rts : List WaitResult) :
    (∀ timeout ∈ idelWaits timers now appendingEventCount stopped (rt :: rts),
        InTime (stopping timers now appendingEventCount stopped).2 timeout) ↔
      NotNegative (stopping timers now appendingEventCount stopped).2 := by
  rw [idelWaits]
  simp only
  split
  · next hstop =>
    have hnone : (stopping timers now appendingEventCount stopped).2 = NO_TIMER := by
      simp only [stopping, Bool.and_eq_true, decide_eq_true_eq] at hstop
      exact hstop.1.1
    rw [hnone]
    simp [NotNegative]
  · exact waits_inTime_iff _ rt rts

/-- A timer of `2^31` milliseconds makes the loop wait until something else happens. -/
theorem idelWaits_long_timer : ∃ timers,
    (TimerManager.init 0).addTimer 0 2147483648 (some 1) false 0 = .ok timers ∧
      stopping timers 0 0 false = (false, 2147483648) ∧
      idelWaits timers 0 0 false [.interrupted, .ready 0] = [-2147483648, -2147483648] ∧
      ¬ InTime 2147483648 (-2147483648) :=
  ⟨_, rfl, by decide, by decide, by decide⟩

end CxkFramework.IOManager
