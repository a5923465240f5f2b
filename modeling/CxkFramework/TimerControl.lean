import CxkFramework.TimerThreads

/-!
# What the control calls answer

Beside every run of the threads goes, for every timer, the time from which it was armed last.
It is no part of the program, which has `m_next` alone; in the set the two differ by the period,
so `reset` finds it again by subtraction.
-/

namespace CxkFramework.TimerManager

open Runs Threads

/-- The threads, and for every timer the time from which it was armed last. -/
structure Dated where
  threads : Threads
  armedAt : Nat → UInt64

namespace Dated

def manager (y : Dated) : TimerManager := y.threads.manager

def init (now : UInt64) : Dated := ⟨Threads.init now, fun _ => now⟩

/-- The times after a step. -/
def rearmedAt (y : Dated) (act : Act) (a : Nat) : UInt64 :=
  ((y.threads.arms a act).bind Arming.start).getD (y.armedAt a)

def act (y : Dated) (act : Act) : Except Fault Dated :=
  (y.threads.act act).map (fun x => ⟨x, y.rearmedAt act⟩)

def Step (y : Dated) (act : Act) (y' : Dated) : Prop := y.act act = .ok y'

/-- The set is in order and every deadline in it is the time of arming plus the period. -/
structure OnTime (y : Dated) : Prop where
  ordered : Ordered y.manager
  next_eq : ∀ a ∈ y.manager.timers,
    (y.manager.timer a).next = y.armedAt a + (y.manager.timer a).ms

/-- The timer waits for the given time plus the given period. -/
structure ArmedFor (y : Dated) (a : Nat) (ms start : UInt64) : Prop where
  pending : Pending y.manager a
  ms_eq : (y.manager.timer a).ms = ms
  next_eq : (y.manager.timer a).next = start + ms

section

variable {y y' : Dated} {act : Act} {a : Nat}

theorem step_iff : Step y act y' ↔ y.threads.Step act y'.threads ∧
    y'.armedAt = y.rearmedAt act := by
  constructor
  · intro h
    obtain ⟨x, hok, rfl⟩ := map_eq_ok.mp h
    exact ⟨hok, rfl⟩
  · rintro ⟨hstep, harmed⟩
    apply map_eq_ok.mpr
    exact ⟨y'.threads, hstep, by rw [← harmed]⟩

/-- The dates do not hold anything up. -/
theorem exists_dated {x : Threads} {t : List (Act × Threads)} (run : Run Threads.Step x t)
    (y : Dated) (hy : y.threads = x) :
    ∃ u, Run Step y u ∧ u.map (fun p => (p.1, p.2.threads)) = t := by
  induction run generalizing y with
  | nil => exact ⟨[], .nil y, rfl⟩
  | @cons x x' act t h _ ih =>
    obtain ⟨u, hrun, hmap⟩ := ih ⟨x', y.rearmedAt act⟩ rfl
    refine ⟨(act, _) :: u, .cons (step_iff.mpr ⟨hy ▸ h, rfl⟩) hrun, ?_⟩
    rw [List.map_cons, hmap]

theorem OnTime.sub_ms (hy : OnTime y) (ha : a ∈ y.manager.timers) :
    (y.manager.timer a).next - (y.manager.timer a).ms = y.armedAt a := by
  rw [hy.next_eq a ha, UInt64.add_sub_cancel]

theorem onTime_init (now : UInt64) : OnTime (init now) where
  ordered := ordered_init now
  next_eq a ha := by cases ha

theorem rearmedAt_of_arms {g : Arming} (harms : y.threads.arms a act = some g) :
    y.rearmedAt act a = g.start.getD (y.armedAt a) := by
  rw [rearmedAt, harms]
  rfl

/-- What stands in the set after a step stood there before, or was armed by it. -/
theorem step_armed (hy : OnTime y) (h : Step y act y') (ha : a ∈ y'.manager.timers) :
    (a ∈ y.manager.timers ∧ y'.manager.timer a = y.manager.timer a ∧ y'.armedAt a = y.armedAt a) ∨
      ∃ g, y.threads.arms a act = some g ∧ y'.armedAt a = g.start.getD (y.armedAt a) ∧
        (y'.manager.timer a).ms = g.ms ∧ (y'.manager.timer a).next = y'.armedAt a + g.ms := by
  obtain ⟨hstep, harmed⟩ := step_iff.mp h
  rw [harmed]
  cases act_touch hy.ordered hstep a with
  | kept _ harms htimer hmem => exact .inl ⟨hmem.mp ha, htimer, by rw [rearmedAt, harms]; rfl⟩
  | @added ms cb recurring now _ htimer =>
    have harms : y.threads.arms a (.addTimer a ms cb recurring now) = some ⟨some now, ms⟩ :=
      if_pos rfl
    refine .inr ⟨_, harms, rearmedAt_of_arms harms, ?_, ?_⟩
    · rw [manager, htimer]
    · rw [manager, htimer, rearmedAt_of_arms harms]
      rfl
  | cancelled _ hout => exact absurd ha hout
  | @refreshed now hp _ htimer =>
    have harms : y.threads.arms a (.refresh a now) = some ⟨some now, (y.manager.timer a).ms⟩ :=
      if_pos ⟨rfl, hp⟩
    refine .inr ⟨_, harms, rearmedAt_of_arms harms, ?_, ?_⟩
    · rw [manager, htimer]
      rfl
    · rw [manager, htimer, rearmedAt_of_arms harms]
      rfl
  | @retimed ms fromNow now hp _ htimer =>
    have harms : y.threads.arms a (.resetLocked a ms fromNow now) =
        some ⟨if fromNow then some now else none, ms⟩ := if_pos ⟨rfl, hp⟩
    refine .inr ⟨_, harms, rearmedAt_of_arms harms, ?_, ?_⟩
    · rw [manager, htimer]
      rfl
    · -- what `m_next - m_ms` gives back is the time of the last arming
      have hback := hy.sub_ms hp.1
      rw [manager] at hback
      rw [manager, htimer, rearmedAt_of_arms harms, TimerManager.retimed, Timer.setNext, hback]
      cases fromNow <;> rfl
  | @rearmed now probe hd hr _ htimer =>
    have harms : y.threads.arms a (.finish now probe) =
        some ⟨some now, (y.manager.timer a).ms⟩ := if_pos ⟨hd, hr⟩
    refine .inr ⟨_, harms, rearmedAt_of_arms harms, ?_, ?_⟩
    · rw [manager, htimer]
      rfl
    · rw [manager, htimer, rearmedAt_of_arms harms]
      rfl
  | spent _ _ hout => exact absurd ha hout

theorem step_onTime (hy : OnTime y) (h : Step y act y') : OnTime y' := by
  refine ⟨act_ordered hy.ordered (step_iff.mp h).1, fun a ha => ?_⟩
  obtain ⟨hmem, htimer, harmed⟩ | ⟨g, -, -, hms, hnext⟩ := step_armed hy h ha
  · rw [htimer, harmed]
    exact hy.next_eq a hmem
  · rw [hnext, hms]

end

/-! ## The answers -/

/-- The timer a call is about, and what the call answers in this step. -/
def answer (y : Dated) : Act → Option (Nat × Bool)
  | .cancel a => (y.manager.cancel a).toOption.map (fun r => (a, r.1))
  | .refresh a now => (y.manager.refresh a now).toOption.map (fun r => (a, r.1))
  | .peek a ms fromNow =>
    if ms = (y.manager.timer a).ms ∧ fromNow = false then some (a, true) else none
  | .resetLocked a ms fromNow now =>
    (y.manager.resetLocked a ms fromNow now).toOption.map (fun r => (a, r.1))
  | _ => none

/-- What `true` promises about the timer. -/
def Promise (y y' : Dated) (a : Nat) : Act → Prop
  | .cancel _ => ∀ t, Run Threads.Step y'.threads t → (∀ p ∈ t, ¬Adds a p.1) →
      a ∉ y'.threads.deliveries t
  | .refresh _ now => ArmedFor y' a (y.manager.timer a).ms now
  | .peek _ ms _ => ArmedFor y' a ms (y.armedAt a)
  | .resetLocked _ ms fromNow now => ArmedFor y' a ms (if fromNow then now else y.armedAt a)
  | _ => True

/-- A call says whether the timer was pending; `false` leaves everything as it was, and `true`
keeps its promise. -/
def Truthful (y : Dated) (act : Act) (y' : Dated) : Prop :=
  ∀ a r, y.answer act = some (a, r) →
    (r = true ↔ Pending y.manager a) ∧ (r = false → y' = y) ∧ (r = true → Promise y y' a act)

/-- `reset` with the period the timer has, and not from now, is called on pending timers only. -/
def PeeksPending (y : Dated) : Act → Prop
  | .peek a ms fromNow =>
    ms = (y.manager.timer a).ms → fromNow = false → Pending y.manager a
  | _ => True

instance (y : Dated) : (act : Act) → Decidable (y.PeeksPending act)
  | .peek _ _ _ => inferInstanceAs (Decidable (_ → _ → _))
  | .addTimer _ _ _ _ _ => isTrue trivial
  | .cancel _ => isTrue trivial
  | .refresh _ _ => isTrue trivial
  | .resetLocked _ _ _ _ => isTrue trivial
  | .getNextTimer _ => isTrue trivial
  | .check _ => isTrue trivial
  | .finish _ _ => isTrue trivial
  | .destroy _ => isTrue trivial

section

variable {y y' : Dated} {a : Nat}

theorem eq_of_same {act : Act} (h : Step y act y') (hx : y'.threads = y.threads)
    (harms : ∀ b, y.threads.arms b act = none) : y' = y := by
  obtain ⟨-, harmed⟩ := step_iff.mp h
  have hsame : y'.armedAt = y.armedAt := by
    rw [harmed]
    funext b
    rw [rearmedAt, harms]
    rfl
  cases y
  cases y'
  cases hx
  cases hsame
  rfl

/-- A timer that is put into the set with a callback waits for its deadline there. -/
theorem armedFor_of_placed {s : TimerManager} {t : Timer} (start : UInt64)
    (hp : Placed s y'.manager a t) (hcb : t.cb.isSome = true) (hnext : t.next = start + t.ms) :
    ArmedFor y' a t.ms start where
  pending := ⟨(hp.mem_iff a).mpr (.inl rfl), by rw [hp.timer_self, hcb]⟩
  ms_eq := by rw [hp.timer_self]
  next_eq := by rw [hp.timer_self, hnext]

theorem truthful_cancel (hy : OnTime y) (h : Step y (.cancel a) y') :
    Truthful y (.cancel a) y' := by
  obtain ⟨⟨r, s'⟩, hok, hx⟩ := map_eq_ok.mp (step_iff.mp h).1
  have hy' := step_onTime hy h
  intro b r' hanswer
  rw [answer, manager, hok] at hanswer
  cases hanswer
  obtain ⟨-, ⟨rfl, hpend, hr⟩ | ⟨rfl, hpend, hsame⟩⟩ := cancel_spec hy.ordered hok
  · refine ⟨iff_of_true rfl hpend, by simp, fun _ t run hadd => ?_⟩
    apply deliveries_gone run hy'.ordered hadd
    rw [← hx]
    exact ⟨fun hmem => ((hr.mem_iff a).mp hmem).1 rfl, by rw [hr.timer_self]; rfl⟩
  · refine ⟨iff_of_false (by simp) hpend, fun _ => ?_, by simp⟩
    apply eq_of_same h
    · rw [← hx, hsame]
      rfl
    · exact fun _ => rfl

theorem truthful_refresh {now : UInt64} (hy : OnTime y) (h : Step y (.refresh a now) y') :
    Truthful y (.refresh a now) y' := by
  obtain ⟨⟨r, s'⟩, hok, hx⟩ := map_eq_ok.mp (step_iff.mp h).1
  have hy' := step_onTime hy h
  intro b r' hanswer
  rw [answer, manager, hok] at hanswer
  cases hanswer
  obtain ⟨-, ⟨rfl, hpend, hp⟩ | ⟨rfl, hpend, hsame⟩⟩ := refresh_spec hy.ordered hok
  · refine ⟨iff_of_true rfl hpend, by simp, fun _ => ?_⟩
    rw [show s' = y'.manager by rw [manager, ← hx]] at hp
    have hset := armedFor_of_placed now hp hpend.2 rfl
    exact hset
  · refine ⟨iff_of_false (by simp) hpend, fun _ => ?_, by simp⟩
    apply eq_of_same h
    · rw [← hx, hsame]
      rfl
    · refine fun b => if_neg ?_
      rintro ⟨hb, hp⟩
      exact hpend (hb ▸ hp)

theorem truthful_resetLocked {ms now : UInt64} {fromNow : Bool} (hy : OnTime y)
    (h : Step y (.resetLocked a ms fromNow now) y') :
    Truthful y (.resetLocked a ms fromNow now) y' := by
  obtain ⟨⟨r, s'⟩, hok, hx⟩ := map_eq_ok.mp (step_iff.mp h).1
  intro b r' hanswer
  rw [answer, manager, hok] at hanswer
  cases hanswer
  obtain ⟨-, ⟨rfl, hpend, hp⟩ | ⟨rfl, hpend, hsame⟩⟩ := resetLocked_spec hy.ordered hok
  · refine ⟨iff_of_true rfl hpend, by simp, fun _ => ?_⟩
    rw [show s' = y'.manager by rw [manager, ← hx]] at hp
    apply armedFor_of_placed _ hp hpend.2
    rw [retimed, Timer.setNext, hy.sub_ms hpend.1]
    rfl
  · refine ⟨iff_of_false (by simp) hpend, fun _ => ?_, by simp⟩
    apply eq_of_same h
    · rw [← hx, hsame]
      rfl
    · refine fun b => if_neg ?_
      rintro ⟨hb, hp⟩
      exact hpend (hb ▸ hp)

/-- The early exit answers `true` without a look at the callback. -/
theorem truthful_peek {ms : UInt64} {fromNow : Bool} (hy : OnTime y)
    (h : Step y (.peek a ms fromNow) y') :
    Truthful y (.peek a ms fromNow) y' ↔ PeeksPending y (.peek a ms fromNow) := by
  obtain ⟨hstep, harmed⟩ := step_iff.mp h
  rw [Threads.Step, Threads.act] at hstep
  split at hstep
  · obtain rfl := eq_of_same h (Except.ok.inj hstep).symm fun _ => rfl
    constructor
    · intro htrue hms hfrom
      exact (htrue a true (if_pos ⟨hms, hfrom⟩)).1.mp rfl
    · intro hpend b r hanswer
      rw [answer] at hanswer
      split at hanswer
      · next hsame =>
        cases hanswer
        have hp := hpend hsame.1 hsame.2
        refine ⟨iff_of_true rfl hp, by simp, fun _ => ⟨hp, hsame.1.symm, ?_⟩⟩
        rw [hsame.1]
        exact hy.next_eq a hp.1
      · cases hanswer
  · cases hstep

theorem step_truthful {act : Act} (hy : OnTime y) (h : Step y act y') :
    Truthful y act y' ↔ PeeksPending y act := by
  cases act with
  | cancel a => exact iff_of_true (truthful_cancel hy h) trivial
  | refresh a now => exact iff_of_true (truthful_refresh hy h) trivial
  | peek a ms fromNow => exact truthful_peek hy h
  | resetLocked a ms fromNow now => exact iff_of_true (truthful_resetLocked hy h) trivial
  | _ =>
    refine iff_of_true (fun a r hanswer => ?_) trivial
    cases hanswer

end

/-- Along a run every call answers truthfully, exactly when no `reset` to the period the timer
has comes, without `from_now`, to a timer that is not pending. -/
theorem run_truthful_iff (now : UInt64) (t : List (Act × Dated)) (run : Run Step (init now) t) :
    Every Truthful (init now) t ↔ Meets PeeksPending (init now) t :=
  every_iff_meets OnTime Truthful PeeksPending (fun _ _ _ hy h => step_onTime hy h)
    (fun _ _ _ hy h => step_truthful hy h) run (onTime_init now)

/-- A timer is moved by `reset` from its arming, re-armed by its expiry and cancelled. -/
theorem run_truthful_recurring : ∃ t, trace act (init 1000) [.addTimer 0 100 (some 1) true 1000,
      .peek 0 100 false, .resetLocked 0 40 false 1030, .check 1040, .finish 1040 1, .refresh 0 1050,
      .resetLocked 0 60 true 1055, .cancel 0, .cancel 0, .refresh 0 1060] = .ok t ∧
    Every Truthful (init 1000) t := by
  refine ⟨_, rfl, (run_truthful_iff 1000 _ (run_of_trace [.addTimer 0 100 (some 1) true 1000,
    .peek 0 100 false, .resetLocked 0 40 false 1030, .check 1040, .finish 1040 1, .refresh 0 1050,
    .resetLocked 0 60 true 1055, .cancel 0, .cancel 0, .refresh 0 1060] rfl)).mpr ?_⟩
  decide

/-- A cancelled timer is reset, and the answer is that it runs. -/
theorem reset_cancelled : ¬∀ (now : UInt64) (t : List (Act × Dated)), Run Step (init now) t →
    Every Truthful (init now) t := by
  intro h
  have hrun := run_of_trace (f := act) (s := init 1000) [.addTimer 0 100 (some 1) false 1000,
    .cancel 0, .peek 0 100 false] rfl
  obtain ⟨-, -, htrue, -⟩ := h 1000 _ hrun
  have hpend := (htrue 0 true rfl).1.mp rfl
  exact absurd hpend.1 (by decide)

end Dated

end CxkFramework.TimerManager
