import CxkFramework.TimerThreads

/-!
# The first element of an empty set

`listExpiredCb` sees under the read lock that there is a timer and looks at the first one under
the write lock, without a second check. The timer is gone when, in between, another thread
cancels the last one or hands over all there are. Only a reading that counts as a rollover
passes over the first element.
-/

namespace CxkFramework.TimerManager

open OrderedSet Runs

section Empty

variable {s s' : TimerManager} {now : UInt64}

/-- The rollover is a matter of the last reading. -/
theorem rollover_congr (h : s'.previousTime = s.previousTime) (now : UInt64) :
    (s'.detectClockRollover now).1 = (s.detectClockRollover now).1 := by
  rw [detectClockRollover, detectClockRollover, h]

theorem expireLocked_emptyBegin (hs : Sorted s.less s.timers) {probe : Nat} :
    s.expireLocked now probe = .error .emptyBegin ↔
      s.timers = [] ∧ (s.detectClockRollover now).1 = false := by
  constructor
  · intro h
    obtain ⟨hnil, hroll, -⟩ | ⟨-, hbad⟩ | ⟨s₁, hok, -⟩ := expireLocked_cases hs now probe
    · exact ⟨hnil, hroll⟩
    · rw [hbad] at h
      cases h
    · rw [hok] at h
      cases h
  · rintro ⟨hnil, hroll⟩
    have hnil' : (s.detectClockRollover now).2.timers = [] := hnil
    rw [expireLocked]
    simp [hroll, hnil']

/-- Expiry empties the set when all are handed over and none comes back. -/
theorem Fired.empty_iff {es : List Nat} (hes : ∀ a ∈ es, a ∈ s.timers) (h : Fired now es s s') :
    s'.timers = [] ↔ ∀ a ∈ s.timers, a ∈ es ∧ (s.timer a).recurring = false := by
  constructor
  · intro hnil a ha
    have hout : a ∉ s'.timers := by simp [hnil]
    have hmem : a ∈ es := by
      by_contra hne
      exact hout ((h.untouched a hne).2.mpr ha)
    refine ⟨hmem, ?_⟩
    by_contra hr
    exact hout (h.rearmed a hmem ((Bool.not_eq_false _).mp hr)).1
  · intro hall
    apply List.eq_nil_iff_forall_not_mem.mpr
    intro a ha
    by_cases hmem : a ∈ es
    · exact (h.spent a hmem (hall a (hes a hmem)).2).1 ha
    · exact hmem (hall a ((h.untouched a hmem).2.mp ha)).1

end Empty

namespace Threads

/-- No thread that waits for the write lock can meet an empty set. -/
def NoEmptyBegin (x : Threads) : Prop :=
  ∀ now probe, x.act (.finish now probe) ≠ .error .emptyBegin

/-- The step takes the last timer out of the set, or leaves it empty. -/
def Drains (x : Threads) : Act → Prop
  | .cancel a => x.manager.timers = [a] ∧ (x.manager.timer a).cb.isSome = true
  | .finish now _ => ∀ a ∈ x.manager.timers, ((x.manager.detectClockRollover now).1 = true ∨
      (x.manager.timer a).next ≤ now) ∧ (x.manager.timer a).recurring = false
  | _ => False

/-- The readings of the threads that wait on. -/
def others (x : Threads) : Act → List UInt64
  | .finish now _ => x.waiting.erase now
  | _ => x.waiting

/-- The reading the next rollover is judged by. -/
def previous (x : Threads) : Act → TimerManager
  | .finish now _ => (x.manager.detectClockRollover now).2
  | _ => x.manager

/-- No thread is left waiting at an empty set, unless its reading counts as a rollover. -/
def LeavesTimer (x : Threads) (act : Act) : Prop :=
  x.Drains act → ∀ now ∈ x.others act, ((x.previous act).detectClockRollover now).1 = true

instance (x : Threads) : (act : Act) → Decidable (x.Drains act)
  | .cancel _ => inferInstanceAs (Decidable (_ ∧ _))
  | .finish _ _ => inferInstanceAs (Decidable (∀ a ∈ x.manager.timers, _))
  | .addTimer _ _ _ _ _ => isFalse id
  | .refresh _ _ => isFalse id
  | .peek _ _ _ => isFalse id
  | .resetLocked _ _ _ _ => isFalse id
  | .getNextTimer _ => isFalse id
  | .check _ => isFalse id
  | .destroy _ => isFalse id

-- by the list, since all readings there are can be gone through as well
instance (x : Threads) (act : Act) : Decidable (x.LeavesTimer act) :=
  have : Decidable (∀ now ∈ x.others act,
      ((x.previous act).detectClockRollover now).1 = true) := List.decidableBAll _ _
  inferInstanceAs (Decidable (x.Drains act → _))

section

variable {x x' : Threads} {act : Act}

theorem noEmptyBegin_iff (hx : Ordered x.manager) : NoEmptyBegin x ↔
    (x.manager.timers = [] → ∀ now ∈ x.waiting, (x.manager.detectClockRollover now).1 = true) := by
  constructor
  · intro h hnil now hnow
    by_contra hroll
    apply h now 0
    rw [Threads.act, if_pos hnow,
      (expireLocked_emptyBegin hx.sorted).mpr ⟨hnil, (Bool.not_eq_true _).mp hroll⟩]
    rfl
  · intro h now probe hbad
    rw [Threads.act] at hbad
    split at hbad
    · next hnow =>
      obtain ⟨hnil, hroll⟩ := (expireLocked_emptyBegin hx.sorted).mp (map_eq_error.mp hbad)
      rw [h hnil now hnow] at hroll
      cases hroll
    · cases hbad

/-- With a timer in the set no thread is in danger. -/
theorem noEmptyBegin_of_mem (hx : Ordered x.manager) {a : Nat} (ha : a ∈ x.manager.timers) :
    NoEmptyBegin x := by
  rw [noEmptyBegin_iff hx]
  intro hnil
  rw [hnil] at ha
  cases ha

/-- A step that empties nothing keeps whatever safety there is. -/
theorem noEmptyBegin_same (hx : Ordered x.manager) (hx' : Ordered x'.manager)
    (hp : NoEmptyBegin x) (htimers : x'.manager.timers = x.manager.timers)
    (hwaiting : x'.waiting = x.waiting)
    (hprevious : x'.manager.previousTime = x.manager.previousTime) : NoEmptyBegin x' := by
  rw [noEmptyBegin_iff hx] at hp
  rw [noEmptyBegin_iff hx', htimers, hwaiting]
  intro hnil now hnow
  rw [rollover_congr hprevious]
  exact hp hnil now hnow

/-- One step: the danger begins exactly where the condition fails. -/
theorem act_noEmptyBegin (hx : Ordered x.manager) (hp : NoEmptyBegin x) (h : Step x act x') :
    NoEmptyBegin x' ↔ LeavesTimer x act := by
  have hx' := act_ordered hx h
  cases act with
  | addTimer a ms cb recurring now =>
    obtain ⟨s', hok, rfl⟩ := map_eq_ok.mp h
    obtain ⟨-, hplaced⟩ := addTimer_spec hx hok
    exact iff_of_true (noEmptyBegin_of_mem hx' ((hplaced.mem_iff a).mpr (.inl rfl))) False.elim
  | cancel a =>
    obtain ⟨⟨r, s'⟩, hok, rfl⟩ := map_eq_ok.mp h
    obtain ⟨-, ⟨-, hpend, hr⟩ | ⟨-, hpend, rfl⟩⟩ := cancel_spec hx hok
    · have hempty : s'.timers = [] ↔ x.manager.timers = [a] := by
        rw [hr.timers_eq, List.erase_eq_nil_iff, or_iff_right (List.ne_nil_of_mem hpend.1)]
      rw [noEmptyBegin_iff hx', LeavesTimer, Drains]
      simp only [hempty, hpend.2, and_true, others, previous, rollover_congr hr.previousTime_eq]
    · refine iff_of_true hp ?_
      rintro ⟨hone, hcb⟩
      exact absurd ⟨List.mem_of_mem_head? (by simp [hone]), hcb⟩ hpend
  | refresh a now =>
    obtain ⟨⟨r, s'⟩, hok, rfl⟩ := map_eq_ok.mp h
    obtain ⟨-, ⟨-, -, hplaced⟩ | ⟨-, -, rfl⟩⟩ := refresh_spec hx hok
    · exact iff_of_true (noEmptyBegin_of_mem hx' ((hplaced.mem_iff a).mpr (.inl rfl))) False.elim
    · exact iff_of_true hp False.elim
  | peek a ms fromNow =>
    rw [Step, Threads.act] at h
    split at h
    · cases h
      exact iff_of_true hp False.elim
    · cases h
  | resetLocked a ms fromNow now =>
    obtain ⟨⟨r, s'⟩, hok, rfl⟩ := map_eq_ok.mp h
    obtain ⟨-, ⟨-, -, hplaced⟩ | ⟨-, -, rfl⟩⟩ := resetLocked_spec hx hok
    · exact iff_of_true (noEmptyBegin_of_mem hx' ((hplaced.mem_iff a).mpr (.inl rfl))) False.elim
    · exact iff_of_true hp False.elim
  | getNextTimer now =>
    cases h
    obtain ⟨htimers, -, hprevious, -⟩ := getNextTimer_spec x.manager now
    exact iff_of_true (noEmptyBegin_same hx hx' hp htimers rfl hprevious) False.elim
  | check now =>
    refine iff_of_true ?_ False.elim
    cases h
    cases htimers : x.manager.timers with
    | nil => simpa [hasTimer, htimers] using hp
    | cons a rest =>
      apply noEmptyBegin_of_mem (a := a) hx'
      simp [hasTimer, htimers]
  | finish now probe =>
    rw [Step, Threads.act] at h
    split at h
    · obtain ⟨⟨cbs, s'⟩, hok, rfl⟩ := map_eq_ok.mp h
      obtain ⟨-, hf, hprevious⟩ := expireLocked_spec hx.sorted hok
      have hes : ∀ a ∈ x.delivered (.finish now probe), a ∈ x.manager.timers := fun a ha =>
        delivered_subset x _ ha
      rw [noEmptyBegin_iff hx', LeavesTimer, Drains, hf.empty_iff hes]
      have hroll := rollover_congr (s := (x.manager.detectClockRollover now).2) hprevious
      simp only [hroll, others, previous]
      apply imp_congr_left
      apply forall₂_congr
      intro a ha
      rw [delivered, mem_dueTimers]
      simp [ha]
    · cases h
  | destroy a =>
    obtain ⟨s', hok, rfl⟩ := map_eq_ok.mp h
    obtain ⟨-, htimers, -, hprevious, -⟩ := destroy_spec hok
    exact iff_of_true (noEmptyBegin_same hx hx' hp htimers rfl hprevious) False.elim

end

/-- In a run no thread is ever about to look at the first element of an empty set, exactly when
no step takes the last timer out while another thread is between the two locks. -/
theorem finish_begins_iff (now : UInt64) (t : List (Act × Threads)) (run : Run Step (init now) t) :
    Always NoEmptyBegin (init now) t ↔ Meets LeavesTimer (init now) t := by
  have hinit : NoEmptyBegin (init now) := by
    rw [noEmptyBegin_iff (ordered_init now)]
    intro _ r hr
    cases hr
  exact always_iff_meets (fun x => Ordered x.manager) NoEmptyBegin LeavesTimer
    (fun _ _ _ hx _ h => act_ordered hx h) (fun _ _ _ hx hp h => act_noEmptyBegin hx hp h) run
    (ordered_init now) hinit

/-- Two threads see two timers. One of them hands both over; the recurring one comes back, and
the other thread finds it. -/
theorem finish_begins_recurring : ∃ t, trace act (init 1000) [.addTimer 0 10 (some 1) false 1000,
      .addTimer 1 20 (some 2) true 1000, .check 1030, .check 1040, .cancel 0, .finish 1040 2,
      .finish 1030 2, .cancel 1] = .ok t ∧ Always NoEmptyBegin (init 1000) t := by
  refine ⟨_, rfl, (finish_begins_iff 1000 _ (run_of_trace [.addTimer 0 10 (some 1) false 1000,
    .addTimer 1 20 (some 2) true 1000, .check 1030, .check 1040, .cancel 0, .finish 1040 2,
    .finish 1030 2, .cancel 1] rfl)).mpr ?_⟩
  decide

/-- The last timer is cancelled between the check and the lock. -/
theorem cancel_empties : ¬∀ (now : UInt64) (t : List (Act × Threads)),
    Run Step (init now) t → Always NoEmptyBegin (init now) t := by
  intro h
  have hrun := run_of_trace (f := act) (s := init 1000) [.addTimer 0 10 (some 1) false 1000,
    .check 1005, .cancel 0] rfl
  exact (h 1000 _ hrun).last 1005 1 rfl

end Threads

end CxkFramework.TimerManager
