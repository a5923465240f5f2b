import CxkFramework.SocketTimeout
import CxkFramework.TimerControl

/-!
# Deadlines

`m_next` is a sum of 64 bits. A timer whose time of arming and period have a sum that fits is
never handed over before its time; one whose sum wraps around is handed over at once. Negative
timeouts of sockets are such periods.
-/

namespace CxkFramework.TimerManager.Dated

open Runs Threads

/-- The deadline over the integers. -/
def due (y : Dated) (a : Nat) : Nat := (y.armedAt a).toNat + (y.manager.timer a).ms.toNat

/-- What is handed over is due. -/
def NotEarly (y : Dated) : Act → Dated → Prop
  | .finish now probe, _ => ∀ a ∈ y.threads.delivered (.finish now probe), y.due a ≤ now.toNat
  | _, _ => True

/-- Where a timer is armed its deadline has 64 bits, and no reading counts as a rollover. -/
def Fits (y : Dated) : Act → Prop
  | .addTimer _ ms _ _ now => now.toNat + ms.toNat < 2 ^ 64
  | .refresh a now =>
    Pending y.manager a → now.toNat + (y.manager.timer a).ms.toNat < 2 ^ 64
  | .resetLocked a ms fromNow now =>
    Pending y.manager a → (if fromNow then now else y.armedAt a).toNat + ms.toNat < 2 ^ 64
  | .finish now _ =>
    (y.manager.detectClockRollover now).1 = false ∧
      ∀ a ∈ y.manager.timers, (y.manager.timer a).next ≤ now →
        (y.manager.timer a).recurring = true → now.toNat + (y.manager.timer a).ms.toNat < 2 ^ 64
  | _ => True

instance (y : Dated) : (act : Act) → Decidable (y.Fits act)
  | .addTimer _ _ _ _ _ => inferInstanceAs (Decidable (_ < _))
  | .refresh _ _ => inferInstanceAs (Decidable (_ → _))
  | .resetLocked _ _ _ _ => inferInstanceAs (Decidable (_ → _))
  | .finish _ _ => inferInstanceAs (Decidable (_ ∧ ∀ a ∈ y.manager.timers, _))
  | .cancel _ => isTrue trivial
  | .peek _ _ _ => isTrue trivial
  | .getNextTimer _ => isTrue trivial
  | .check _ => isTrue trivial
  | .destroy _ => isTrue trivial

/-- Every deadline in the set has 64 bits. -/
structure Timely (y : Dated) : Prop where
  onTime : OnTime y
  due_lt : ∀ a ∈ y.manager.timers, y.due a < 2 ^ 64

section

variable {y y' : Dated} {act : Act} {a : Nat}

theorem arms_lt {g : Arming} (hfits : Fits y act) (harms : y.threads.arms a act = some g) :
    (g.start.getD (y.armedAt a)).toNat + g.ms.toNat < 2 ^ 64 := by
  cases act with
  | addTimer b ms cb recurring now =>
    rw [arms] at harms
    split at harms
    · cases harms
      exact hfits
    · cases harms
  | refresh b now =>
    rw [arms] at harms
    split at harms
    · next hb =>
      cases harms
      obtain ⟨rfl, hpend⟩ := hb
      exact hfits hpend
    · cases harms
  | resetLocked b ms fromNow now =>
    rw [arms] at harms
    split at harms
    · next hb =>
      cases harms
      obtain ⟨rfl, hpend⟩ := hb
      have hlt := hfits hpend
      cases fromNow <;> exact hlt
    · cases harms
  | finish now probe =>
    rw [arms] at harms
    split at harms
    · next hd =>
      cases harms
      obtain ⟨hmem, hr⟩ := hd
      rw [delivered, mem_dueTimers] at hmem
      obtain ⟨hroll, hlt⟩ := hfits
      have hdue := hmem.2.resolve_left (by rw [manager] at hroll; simp [hroll])
      exact hlt a hmem.1 hdue hr
    · cases harms
  | _ => cases harms

theorem OnTime.next_toNat (hy : OnTime y) (ha : a ∈ y.manager.timers) :
    (y.manager.timer a).next.toNat = y.due a % 2 ^ 64 := by
  rw [hy.next_eq a ha, UInt64.toNat_add]
  rfl

theorem timely_init (now : UInt64) : Timely (init now) where
  onTime := onTime_init now
  due_lt a ha := by cases ha

theorem step_timely (hy : Timely y) (hfits : Fits y act) (h : Step y act y') : Timely y' := by
  refine ⟨step_onTime hy.onTime h, fun a ha => ?_⟩
  obtain ⟨hmem, htimer, harmed⟩ | ⟨g, harms, harmed, hms, -⟩ := step_armed hy.onTime h ha
  · rw [due, htimer, harmed]
    exact hy.due_lt a hmem
  · rw [due, harmed, hms]
    exact arms_lt hfits harms

theorem step_notEarly (hy : Timely y) (hfits : Fits y act) : NotEarly y act y' := by
  cases act with
  | finish now probe =>
    intro a ha
    rw [delivered, mem_dueTimers] at ha
    have hdue := ha.2.resolve_left (by have hroll := hfits.1; rw [manager] at hroll; simp [hroll])
    have hnext := hy.onTime.next_toNat ha.1
    rw [Nat.mod_eq_of_lt (hy.due_lt a ha.1)] at hnext
    rw [← hnext]
    exact UInt64.le_iff_toNat_le.mp hdue
  | _ => trivial

/-- A deadline that wraps around has passed at every later reading, although its time never
comes. -/
theorem early_of_wraps (hy : OnTime y) (ha : a ∈ y.manager.timers) (hwraps : 2 ^ 64 ≤ y.due a)
    {now : UInt64} (hnow : y.armedAt a ≤ now) (probe : Nat) :
    a ∈ y.threads.delivered (.finish now probe) ∧ now.toNat < y.due a := by
  have hnext := hy.next_toNat ha
  have hms := (y.manager.timer a).ms.toNat_lt
  have hstart := (y.armedAt a).toNat_lt
  have hle := UInt64.le_iff_toNat_le.mp hnow
  have hreading := now.toNat_lt
  rw [due] at hnext hwraps ⊢
  refine ⟨mem_dueTimers.mpr ⟨ha, .inr ?_⟩, by omega⟩
  apply UInt64.le_iff_toNat_le.mpr
  change (y.manager.timer a).next.toNat ≤ now.toNat
  omega

/-- Only a reading older than the last one used can count as a rollover. -/
theorem rollover_of_le {s : TimerManager} {now : UInt64} (h : s.previousTime ≤ now) :
    (s.detectClockRollover now).1 = false := by
  have hlt : ¬now < s.previousTime := UInt64.not_lt.mpr h
  simp [detectClockRollover, hlt]

/-- A socket's timeout can be armed at a time unless it is negative and the time is past it. -/
theorem timeout_fits_iff {timeout : Int64} (h : FitsInt timeout) {now : UInt64}
    (hnow : now.toNat < 2 ^ 63) :
    now.toNat + (TimeVal.ofTimeout timeout).ms.toNat < 2 ^ 64 ↔
      0 ≤ timeout.toInt ∨ now.toNat + timeout.toInt < 0 := by
  have hms := toNat_ms_ofTimeout h
  have hlt := timeout.toInt_lt
  split at hms
  · omega
  · omega

end

/-- In a run whose timers are armed for deadlines of 64 bits no callback is handed over before its
time. -/
theorem run_notEarly (now : UInt64) (t : List (Act × Dated)) (run : Run Step (init now) t)
    (hfits : Meets Fits (init now) t) : Every NotEarly (init now) t :=
  every_of_meets (fun _ _ _ hy hfits h => step_timely hy hfits h)
    (fun _ _ _ hy hfits _ => step_notEarly hy hfits) run (timely_init now) hfits

/-- A timeout of five seconds and a recurring timer. -/
theorem run_notEarly_timeout : ∃ t, trace act (init 1700000000000)
      [.addTimer 0 (TimeVal.ofTimeout 5000).ms (some 1) false 1700000000000,
        .addTimer 1 3000 (some 2) true 1700000000000, .check 1700000003000,
        .finish 1700000003000 2, .resetLocked 1 4000 false 1700000003500, .check 1700000005000,
        .finish 1700000005000 2] = .ok t ∧ Every NotEarly (init 1700000000000) t := by
  refine ⟨_, rfl, run_notEarly 1700000000000 _ (run_of_trace
    [.addTimer 0 (TimeVal.ofTimeout 5000).ms (some 1) false 1700000000000,
      .addTimer 1 3000 (some 2) true 1700000000000, .check 1700000003000,
      .finish 1700000003000 2, .resetLocked 1 4000 false 1700000003500, .check 1700000005000,
      .finish 1700000005000 2] rfl) ?_⟩
  decide

/-- `setRecvTimeout(-5000)`, and a read that has to wait. -/
theorem negative_timeout_early : ∃ t, trace act (init 1700000000000)
      [.addTimer 0 (TimeVal.ofTimeout (-5000)).ms (some 1) false 1700000000000,
        .check 1700000000000, .finish 1700000000000 1] = .ok t ∧
    ¬Every NotEarly (init 1700000000000) t := by
  refine ⟨_, rfl, ?_⟩
  rintro ⟨-, -, hearly, -⟩
  exact absurd (hearly 0 (by decide)) (by decide)

end CxkFramework.TimerManager.Dated
