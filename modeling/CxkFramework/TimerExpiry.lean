import CxkFramework.TimerSet

/-!
# Which timers expire

`listExpiredCb` in its two halves: the check under the read lock and all that follows under the
write lock. The second half takes out exactly the timers that are due, in the order of the
set, although it finds their end with a probe whose address breaks ties and with a loop over
those due at this very time.
-/

namespace CxkFramework.TimerManager

open OrderedSet Runs

/-- `listExpiredCb` once it has the write lock. After a rollover the set is not looked at before
its iterators are used. -/
def expireLocked (s : TimerManager) (now : UInt64) (probe : Nat) :
    Except Fault (List (Option Nat) × TimerManager) :=
  let rollover := (s.detectClockRollover now).1
  let s := (s.detectClockRollover now).2
  if rollover then
    if s.live probe then .error .disabled else s.expire now probe rollover
  else
    match s.timers with
    | [] => .error .emptyBegin
    | a :: _ =>
      if (s.timer a).next > now then .ok ([], s)
      else if s.live probe then .error .disabled
      else s.expire now probe rollover

/-- When nothing comes between them, the halves are `listExpiredCb`. -/
theorem listExpiredCb_eq (s : TimerManager) (now : UInt64) (probe : Nat) :
    s.listExpiredCb now probe = if !s.hasTimer then .ok ([], s) else s.expireLocked now probe := by
  rw [listExpiredCb, expireLocked]
  split
  · rfl
  · next hhas =>
    dsimp only
    cases htimers : s.timers with
    | nil => simp [hasTimer, htimers] at hhas
    | cons a rest =>
      have htimers' : (s.detectClockRollover now).2.timers = a :: rest := htimers
      simp only [htimers']
      cases (s.detectClockRollover now).1 <;> simp

/-! ## Timers that are due -/

/-- What should expire: the timers whose time has come, or all after a rollover. -/
def dueTimers (s : TimerManager) (now : UInt64) (rollover : Bool) : List Nat :=
  if rollover then s.timers else s.timers.filter (fun a => (s.timer a).next ≤ now)

theorem mem_dueTimers {s : TimerManager} {now : UInt64} {rollover : Bool} {a : Nat} :
    a ∈ s.dueTimers now rollover ↔
      a ∈ s.timers ∧ (rollover = true ∨ (s.timer a).next ≤ now) := by
  cases rollover <;> simp [dueTimers]

theorem dueTimers_sublist (s : TimerManager) (now : UInt64) (rollover : Bool) :
    (s.dueTimers now rollover).Sublist s.timers := by
  rw [dueTimers]
  split
  · exact List.Sublist.refl _
  · exact List.filter_sublist

section Due

variable {s : TimerManager} {now : UInt64}

/-- The walk to the end of what has expired stops where the first timer is not due. -/
theorem unexpired_eq (hs : Sorted s.less s.timers) (probe : Nat) :
    s.unexpired now probe false = s.timers.filter (fun a => !decide ((s.timer a).next ≤ now)) := by
  have hbefore : s.timers.Pairwise (fun a b => Comparetor (s.key b) (now, probe) = true →
      Comparetor (s.key a) (now, probe) = true) := by
    refine List.Pairwise.imp ?_ hs
    intro a b hab hb
    rw [less_iff] at hab
    rw [comparetor_iff] at hb ⊢
    simp only [key] at hb ⊢
    omega
  rw [unexpired]
  simp only [Bool.false_eq_true, if_false]
  rw [dropWhile_eq_filter hbefore, dropWhile_eq_filter, List.filter_filter]
  · apply List.filter_congr
    intro a _
    rw [Bool.eq_iff_iff]
    simp only [Bool.and_eq_true, Bool.not_eq_eq_eq_not, Bool.not_true, ← Bool.not_eq_true,
      decide_eq_true_eq, UInt64.le_iff_toNat_le, ← UInt64.toNat_inj, comparetor_iff, key]
    omega
  · -- behind the lower bound nothing is due before `now`
    have hsub := List.Pairwise.filter (fun a => !Comparetor (s.key a) (now, probe)) hs
    refine List.Pairwise.imp_of_mem ?_ hsub
    intro a b ha _ hab hb
    have hge := (List.mem_filter.mp ha).2
    rw [less_iff] at hab
    simp only [Bool.not_eq_true', ← Bool.not_eq_true, comparetor_iff, key] at hge
    simp only [decide_eq_true_eq, ← UInt64.toNat_inj] at hb ⊢
    omega

theorem expiredOf_eq (hs : Sorted s.less s.timers) (probe : Nat) (rollover : Bool) :
    s.expiredOf now probe rollover = s.dueTimers now rollover := by
  have happend := s.expiredOf_append now probe rollover
  cases rollover with
  | true =>
    rw [unexpired] at happend
    simpa [dueTimers] using happend
  | false =>
    have hfront : s.timers.Pairwise (fun a b => decide ((s.timer b).next ≤ now) = true →
        decide ((s.timer a).next ≤ now) = true) := by
      refine List.Pairwise.imp ?_ hs
      intro a b hab hb
      rw [less_iff] at hab
      simp only [decide_eq_true_eq, UInt64.le_iff_toNat_le] at hb ⊢
      omega
    rw [unexpired_eq hs, ← dropWhile_eq_filter hfront] at happend
    have hsplit := happend.trans
      (List.takeWhile_append_dropWhile (p := fun a => decide ((s.timer a).next ≤ now))).symm
    rw [List.append_cancel_right hsplit, takeWhile_eq_filter hfront]
    rfl

/-- Nothing is due while the first timer is not. -/
theorem dueTimers_of_head {a : Nat} {rest : List Nat} (hs : Sorted s.less s.timers)
    (ht : s.timers = a :: rest) (h : (s.timer a).next > now) : s.dueTimers now false = [] := by
  rw [ht] at hs
  obtain ⟨hfirst, -⟩ := List.pairwise_cons.mp hs
  rw [dueTimers, if_neg (by simp), ht]
  apply List.filter_eq_nil_iff.mpr
  intro b hb
  have hlt := UInt64.lt_iff_toNat_lt.mp h
  have hle : (s.timer a).next.toNat ≤ (s.timer b).next.toNat := by
    rcases List.mem_cons.mp hb with rfl | hmem
    · exact le_rfl
    · have := (s.less_iff a b).mp (hfirst b hmem)
      omega
  simp only [decide_eq_true_eq, UInt64.le_iff_toNat_le]
  omega

end Due

/-! ## What expiry leaves -/

/-- The order is that of the timers alone. -/
theorem less_congr {s s' : TimerManager} (h : s'.timer = s.timer) : s'.less = s.less := by
  funext a b
  rw [less, key, key, h, less, key, key]

/-- The timers in `es` were handed over: the others are as they were, the recurring ones are
armed again and the rest have had their only turn. -/
structure Fired (now : UInt64) (es : List Nat) (s s' : TimerManager) : Prop where
  untouched : ∀ a, a ∉ es → s'.timer a = s.timer a ∧ (a ∈ s'.timers ↔ a ∈ s.timers)
  rearmed : ∀ a ∈ es, (s.timer a).recurring = true →
    a ∈ s'.timers ∧ s'.timer a = { s.timer a with next := now + (s.timer a).ms }
  spent : ∀ a ∈ es, (s.timer a).recurring = false →
    a ∉ s'.timers ∧ s'.timer a = { s.timer a with cb := none }
  sorted : Sorted s'.less s'.timers
  live_eq : s'.live = s.live

theorem fired_nil {s s' : TimerManager} {now : UInt64} (hs : Sorted s.less s.timers)
    (htimers : s'.timers = s.timers) (htimer : s'.timer = s.timer) (hlive : s'.live = s.live) :
    Fired now [] s s' where
  untouched a _ := ⟨congrFun htimer a, by rw [htimers]⟩
  rearmed a ha := by cases ha
  spent a ha := by cases ha
  sorted := by
    rw [less_congr htimer, htimers]
    exact hs
  live_eq := hlive

theorem Expired.fired {s s' : TimerManager} {now : UInt64} {es rest : List Nat}
    (hnodup : s.timers.Nodup) (happend : es ++ rest = s.timers)
    (h : Expired now es ((s.detectClockRollover now).2.setTimers rest) s') : Fired now es s s' where
  untouched a ha := by
    refine ⟨h.timer_other a ha, ?_⟩
    rw [h.mem_iff, ← happend, List.mem_append, setTimers_timers]
    simp [ha]
  rearmed a ha hr := by
    refine ⟨(h.mem_iff a).mpr (.inr ⟨ha, hr⟩), ?_⟩
    rw [h.timer_eq a ha]
    exact if_pos hr
  spent a ha hr := by
    have hrest : a ∉ rest := fun h' => (List.nodup_append.mp (happend ▸ hnodup)).2.2 a ha a h' rfl
    have hr' : ¬(((s.detectClockRollover now).2.setTimers rest).timer a).recurring = true := by
      rw [Bool.not_eq_true]
      exact hr
    constructor
    · rw [h.mem_iff]
      rintro (hmem | ⟨-, hmem⟩)
      · exact hrest hmem
      · exact hr' hmem
    · rw [h.timer_eq a ha]
      exact if_neg hr'
  sorted := h.sorted
  live_eq := h.live_eq

/-- The second half: it finds no first timer, or its probe has no address of its own, or it hands
over what is due. -/
theorem expireLocked_cases {s : TimerManager} (hs : Sorted s.less s.timers) (now : UInt64)
    (probe : Nat) :
    (s.timers = [] ∧ (s.detectClockRollover now).1 = false ∧
      s.expireLocked now probe = .error .emptyBegin) ∨
    (s.live probe = true ∧ s.expireLocked now probe = .error .disabled) ∨
    ∃ s', s.expireLocked now probe =
        .ok ((s.dueTimers now (s.detectClockRollover now).1).map (fun a => (s.timer a).cb), s') ∧
      Fired now (s.dueTimers now (s.detectClockRollover now).1) s s' ∧ s'.previousTime = now := by
  have hs' : Sorted (s.detectClockRollover now).2.less (s.detectClockRollover now).2.timers := hs
  have hnodup := hs.nodup (less_strictTotal s)
  have happend := (s.detectClockRollover now).2.expiredOf_append now probe
    (s.detectClockRollover now).1
  obtain ⟨s', hrun, hexp⟩ := expire_sorted now hs' probe (s.detectClockRollover now).1
  have hprevious : s'.previousTime = now := hexp.previousTime_eq
  have hfired := hexp.fired hnodup happend
  rw [expiredOf_eq hs'] at hrun hfired
  have hlive : (s.detectClockRollover now).2.live probe = s.live probe := rfl
  rw [expireLocked]
  simp only [hlive]
  cases hroll : (s.detectClockRollover now).1 with
  | true =>
    rw [hroll] at hrun hfired
    cases hp : s.live probe with
    | true => exact .inr (.inl ⟨rfl, rfl⟩)
    | false => exact .inr (.inr ⟨s', hrun, hfired, hprevious⟩)
  | false =>
    rw [hroll] at hrun hfired
    cases htimers : s.timers with
    | nil =>
      have htimers' : (s.detectClockRollover now).2.timers = [] := htimers
      refine .inl ⟨rfl, rfl, ?_⟩
      simp [htimers']
    | cons a rest =>
      have htimers' : (s.detectClockRollover now).2.timers = a :: rest := htimers
      simp only [htimers', Bool.false_eq_true, if_false]
      split
      · next hlater =>
        rw [dueTimers_of_head hs htimers hlater]
        exact .inr (.inr ⟨_, rfl, fired_nil hs rfl rfl rfl, rfl⟩)
      · cases hp : s.live probe with
        | true => exact .inr (.inl ⟨rfl, rfl⟩)
        | false => exact .inr (.inr ⟨s', hrun, hfired, hprevious⟩)

/-- The whole of it: on an empty set there is nothing to do. -/
theorem listExpiredCb_fired {s : TimerManager} (hs : Sorted s.less s.timers) (now : UInt64)
    {probe : Nat} (hp : s.live probe = false) :
    ∃ s', s.listExpiredCb now probe =
        .ok ((s.dueTimers now (s.detectClockRollover now).1).map (fun a => (s.timer a).cb), s') ∧
      Fired now (s.dueTimers now (s.detectClockRollover now).1) s s' := by
  rw [listExpiredCb_eq]
  cases htimers : s.timers with
  | nil =>
    have hdue : s.dueTimers now (s.detectClockRollover now).1 = [] :=
      List.sublist_nil.mp (htimers ▸ s.dueTimers_sublist now _)
    refine ⟨s, ?_, ?_⟩
    · simp [hasTimer, htimers, hdue]
    · rw [hdue]
      exact fired_nil hs rfl rfl rfl
  | cons a rest =>
    obtain ⟨hnil, -⟩ | ⟨hlive, -⟩ | ⟨s', hok, hfired, -⟩ := expireLocked_cases hs now probe
    · rw [htimers] at hnil
      cases hnil
    · rw [hp] at hlive
      cases hlive
    · refine ⟨s', ?_, hfired⟩
      rw [hok]
      simp [hasTimer, htimers]

end CxkFramework.TimerManager
