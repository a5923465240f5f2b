import CxkFramework.TimerSet

/-!
# Hooked sleeps

`sleep`, `usleep` and `nanosleep` arm a timer in milliseconds and yield. The three conversions are
done in `unsigned int`, by a division that cuts off, and in `int64_t` stored in an `int`.
-/

namespace CxkFramework.HookSleep

/-- `struct timespec`. -/
structure Timespec where
  tv_sec : Int64
  tv_nsec : Int64
  deriving DecidableEq, Repr

inductive Pointer where
  | req
  | rem
  deriving DecidableEq, Repr

inductive Outcome where
  /-- the function of the system is called -/
  | original
  /-- the timer is armed, the fiber yields and the call returns 0 -/
  | armed (timer : Timer)
  /-- a null pointer is followed -/
  | nullPointer
  deriving DecidableEq, Repr

/-- How a call goes on, and the pointers it reads through. -/
structure Result where
  outcome : Outcome
  reads : List Pointer
  deriving DecidableEq, Repr

/-- `iom->addTimer(ms, ..)` with the callback that schedules the fiber. -/
def arm (now : UInt64) (cb : Nat) (ms : UInt64) : Timer :=
  { recurring := false, ms := ms, next := now + ms, cb := some cb }

def sleep (hookEnable : Bool) (now : UInt64) (cb : Nat) (seconds : UInt32) : Result :=
  if !hookEnable then { outcome := .original, reads := [] }
  else { outcome := .armed (arm now cb (seconds * 1000).toUInt64), reads := [] }

def usleep (hookEnable : Bool) (now : UInt64) (cb : Nat) (usec : UInt32) : Result :=
  if !hookEnable then { outcome := .original, reads := [] }
  else { outcome := .armed (arm now cb (usec / 1000).toUInt64), reads := [] }

/-- The nanoseconds are taken from `rem`, where those of `req` are meant. -/
def nanosleep (hookEnable : Bool) (now : UInt64) (cb : Nat) (req : Timespec) (rem : Option Timespec) :
    Result :=
  if !hookEnable then { outcome := .original, reads := [] }
  else
    match rem with
    | none => { outcome := .nullPointer, reads := [.req, .rem] }
    | some rem =>
      let timeoutMs : Int32 := (req.tv_sec * 1000 + rem.tv_nsec / 1000 / 1000).toInt32
      { outcome := .armed (arm now cb timeoutMs.toInt64.toUInt64), reads := [.req, .rem] }

/-- The timer is the one that `addTimer` puts into the set. -/
theorem addTimer_arm {s s' : TimerManager} {a cb : Nat} {ms now : UInt64}
    (h : s.addTimer a ms (some cb) false now = .ok s') : s'.timer a = arm now cb ms := by
  rw [TimerManager.addTimer] at h
  split at h
  · cases h
  · cases h
    rw [TimerManager.addTimerLocked_eq, TimerManager.notice_timer, TimerManager.insert,
      TimerManager.setTimers_timer, TimerManager.setTimer_self, arm]

/-! ## Delays -/

/-- At least the nanoseconds asked for, and less than a millisecond more. -/
def Covers (delay : UInt64) (ns : Nat) : Prop :=
  ns ≤ delay.toNat * 10 ^ 6 ∧ delay.toNat * 10 ^ 6 < ns + 10 ^ 6

instance (delay : UInt64) (ns : Nat) : Decidable (Covers delay ns) :=
  inferInstanceAs (Decidable (_ ∧ _))

/-- The timer has a right delay. -/
def Delays (r : Result) (ns : Nat) : Prop := ∃ timer, r.outcome = .armed timer ∧ Covers timer.ms ns

/-- What a sleep of so many nanoseconds should do. -/
structure Sleeps (r : Result) (ns : Nat) : Prop where
  delays : Delays r ns
  unread : Pointer.rem ∉ r.reads

/-- A time that `nanosleep` accepts, in seconds below `2 ^ 53`. -/
structure Timespec.Valid (req : Timespec) : Prop where
  sec_nonneg : 0 ≤ req.tv_sec.toInt
  sec_lt : req.tv_sec.toInt < 2 ^ 53
  nsec_nonneg : 0 ≤ req.tv_nsec.toInt
  nsec_lt : req.tv_nsec.toInt < 10 ^ 9

def Timespec.ns (req : Timespec) : Nat := (req.tv_sec.toInt * 10 ^ 9 + req.tv_nsec.toInt).toNat

variable {now : UInt64} {cb : Nat}

theorem delays_armed {ms : UInt64} {reads : List Pointer} {ns : Nat} :
    Delays { outcome := .armed (arm now cb ms), reads } ns ↔ Covers ms ns := by
  constructor
  · rintro ⟨timer, h, hc⟩
    cases h
    exact hc
  · intro hc
    exact ⟨_, rfl, hc⟩

theorem sleep_sleeps_iff (seconds : UInt32) :
    Sleeps (sleep true now cb seconds) (seconds.toNat * 10 ^ 9) ↔ seconds.toNat ≤ 4294967 := by
  have hms : (seconds * 1000).toUInt64.toNat = seconds.toNat * 1000 % 2 ^ 32 := by
    rw [UInt32.toNat_toUInt64, UInt32.toNat_mul]
    rfl
  have hlt := seconds.toNat_lt
  have hcovers : Covers (seconds * 1000).toUInt64 (seconds.toNat * 10 ^ 9) ↔
      seconds.toNat ≤ 4294967 := by
    rw [Covers, hms]
    omega
  constructor
  · intro h
    exact hcovers.mp (delays_armed.mp h.delays)
  · intro h
    exact ⟨delays_armed.mpr (hcovers.mpr h), List.not_mem_nil⟩

theorem usleep_sleeps_iff (usec : UInt32) :
    Sleeps (usleep true now cb usec) (usec.toNat * 10 ^ 3) ↔ 1000 ∣ usec.toNat := by
  have hms : (usec / 1000).toUInt64.toNat = usec.toNat / 1000 := by
    rw [UInt32.toNat_toUInt64, UInt32.toNat_div]
    rfl
  have hcovers : Covers (usec / 1000).toUInt64 (usec.toNat * 10 ^ 3) ↔ 1000 ∣ usec.toNat := by
    rw [Covers, hms]
    omega
  constructor
  · intro h
    exact hcovers.mp (delays_armed.mp h.delays)
  · intro h
    exact ⟨delays_armed.mpr (hcovers.mpr h), List.not_mem_nil⟩

/-- What the division leaves of an `int64_t`. -/
theorem toInt_div_thousand (n : Int64) : (n / 1000).toInt = n.toInt.tdiv 1000 ∧
    n.toInt < 1000 * (n / 1000).toInt + 1000 ∧ 1000 * (n / 1000).toInt < n.toInt + 1000 := by
  have heq : (n / 1000).toInt = n.toInt.tdiv 1000 := Int64.toInt_div_of_ne_right n 1000 (by decide)
  have hlow := Int.lt_tmod_of_pos n.toInt (show (0 : Int) < 1000 by decide)
  have hhigh := Int.tmod_lt_of_pos n.toInt (show (0 : Int) < 1000 by decide)
  have hparts := Int.mul_tdiv_add_tmod n.toInt 1000
  rw [heq]
  omega

theorem toNat_toUInt64 (n : Int64) : (n.toUInt64.toNat : Int) = n.toInt % 2 ^ 64 := by
  have hlt := n.toUInt64.toNat_lt
  have hint : n.toInt = (n.toUInt64.toNat : Int).bmod (2 ^ 64) := BitVec.toInt_eq_toNat_bmod n.toBitVec
  rw [hint, Int.bmod_def]
  split <;> omega

variable {req rem : Timespec}

/-- The sum stays inside of an `int64_t`. -/
theorem toInt_timeout (hv : req.Valid) : (req.tv_sec * 1000 + rem.tv_nsec / 1000 / 1000).toInt =
    req.tv_sec.toInt * 1000 + (rem.tv_nsec / 1000 / 1000).toInt := by
  obtain ⟨h0, hsec, -, -⟩ := hv
  have hlow := rem.tv_nsec.le_toInt
  have hhigh := rem.tv_nsec.toInt_lt
  obtain ⟨-, h₁, h₂⟩ := toInt_div_thousand rem.tv_nsec
  obtain ⟨-, h₃, h₄⟩ := toInt_div_thousand (rem.tv_nsec / 1000)
  have hmul : (req.tv_sec * 1000).toInt = req.tv_sec.toInt * 1000 := by
    rw [Int64.toInt_mul]
    apply Int.bmod_eq_of_le
    · change -(2 ^ 64 / 2 : Int) ≤ req.tv_sec.toInt * 1000
      omega
    · change req.tv_sec.toInt * 1000 < (2 ^ 64 + 1) / 2
      omega
  rw [Int64.toInt_add, hmul]
  apply Int.bmod_eq_of_le <;> omega

/-- The milliseconds of a time, a started one counted as a whole one. -/
def Timespec.ceilMs (t : Timespec) : Int := t.tv_sec.toInt * 1000 + (t.tv_nsec.toInt + 999999) / 10 ^ 6

/-- Where there is a `rem`, the delay is right if and only if it fits into an `int` and the field of
`rem` happens to hold what the one of `req` says. -/
theorem nanosleep_delays_iff (hv : req.Valid) :
    Delays (nanosleep true now cb req (some rem)) req.ns ↔
      req.ceilMs < 2 ^ 31 ∧ (2 : Int) ^ 32 ∣
        (rem.tv_nsec / 1000 / 1000).toInt - (req.tv_nsec.toInt + 999999) / 10 ^ 6 := by
  have hdelay := toNat_toUInt64
    (req.tv_sec * 1000 + rem.tv_nsec / 1000 / 1000).toInt32.toInt64
  rw [Int32.toInt_toInt64, Int64.toInt_toInt32, toInt_timeout hv, Int.bmod_def] at hdelay
  obtain ⟨h0, hsec, hn0, hnsec⟩ := hv
  have hcovers : Covers (req.tv_sec * 1000 + rem.tv_nsec / 1000 / 1000).toInt32.toInt64.toUInt64
      req.ns ↔ req.ceilMs < 2 ^ 31 ∧ (2 : Int) ^ 32 ∣
        (rem.tv_nsec / 1000 / 1000).toInt - (req.tv_nsec.toInt + 999999) / 10 ^ 6 := by
    rw [Covers, Timespec.ns, Timespec.ceilMs]
    split at hdelay <;> omega
  exact delays_armed.trans hcovers

/-- `sleep` is right up to 4294967 seconds and `usleep` for whole milliseconds. `nanosleep` never is,
since it reads through `rem`; its delay is right only where there is a `rem` that says the same. -/
theorem hooked_sleeps_iff (now : UInt64) (cb : Nat) :
    (∀ seconds : UInt32, Sleeps (sleep true now cb seconds) (seconds.toNat * 10 ^ 9) ↔
      seconds.toNat ≤ 4294967) ∧
    (∀ usec : UInt32, Sleeps (usleep true now cb usec) (usec.toNat * 10 ^ 3) ↔
      1000 ∣ usec.toNat) ∧
    ∀ (req : Timespec) (rem : Option Timespec), req.Valid →
      ¬Sleeps (nanosleep true now cb req rem) req.ns ∧
      (Delays (nanosleep true now cb req rem) req.ns ↔
        ∃ r, rem = some r ∧ req.ceilMs < 2 ^ 31 ∧ (2 : Int) ^ 32 ∣
          (r.tv_nsec / 1000 / 1000).toInt - (req.tv_nsec.toInt + 999999) / 10 ^ 6) := by
  refine ⟨sleep_sleeps_iff, usleep_sleeps_iff, fun req rem hv => ?_⟩
  cases rem with
  | none =>
    have hnull : ¬Delays (nanosleep true now cb req none) req.ns := by
      rintro ⟨timer, h, -⟩
      cases h
    constructor
    · exact fun h => hnull h.delays
    · refine iff_of_false hnull ?_
      rintro ⟨r, h, -⟩
      cases h
  | some r =>
    constructor
    · intro h
      exact h.unread (List.mem_cons_of_mem _ (List.mem_singleton_self _))
    · rw [nanosleep_delays_iff hv]
      constructor
      · exact fun h => ⟨r, rfl, h⟩
      · rintro ⟨_, ⟨⟩, h⟩
        exact h

/-- One second and a half: the delay is 1500 when `rem` has the same nanoseconds. -/
theorem hooked_sleeps_same : Delays (nanosleep true 0 0 ⟨1, 500000000⟩ (some ⟨0, 500000000⟩))
    (Timespec.ns ⟨1, 500000000⟩) := by
  have hv : Timespec.Valid ⟨1, 500000000⟩ := ⟨by decide, by decide, by decide, by decide⟩
  exact ((hooked_sleeps_iff 0 0).2.2 _ _ hv).2.mpr ⟨_, rfl, by decide, by decide⟩

/-- 704 milliseconds for 4294968 seconds, none for a microsecond, and a null `rem`. -/
theorem sleeps_cut_short :
    (sleep true 0 0 4294968).outcome = .armed (arm 0 0 704) ∧ ¬Covers 704 (4294968 * 10 ^ 9) ∧
      (usleep true 0 0 1).outcome = .armed (arm 0 0 0) ∧ ¬Covers 0 (10 ^ 3) ∧
      (nanosleep true 0 0 ⟨1, 0⟩ none).outcome = .nullPointer := by
  decide

end CxkFramework.HookSleep
