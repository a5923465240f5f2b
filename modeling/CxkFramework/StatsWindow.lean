import CxkFramework.LoadBalance
import Mathlib.Algebra.BigOperators.Group.Finset.Basic
import Mathlib.Data.Rat.Defs
import Mathlib.Tactic

/-!
# The window of the statistics

`HolderStatsSet` has a slot for each of the last seconds, the second modulo their number, and
clears on the way to a new second what lies between. Its loop stops behind the new second, but
no number of 32 bits lies behind the last of them: there it goes on and clears from zero. What a
second holds is right apart from that. `getWeight` walks on from the slot of the present second,
to the oldest one first, and so gives each age the factor of another.
-/

namespace CxkFramework.HolderStatsSet

/-- The constructor. -/
def new (size : UInt32) (hsize : size ≠ 0) : HolderStatsSet where
  lastUpdateTime := 0
  stats := List.replicate size.toNat .init
  stats_ne := by
    intro hnil
    rw [List.replicate_eq_nil_iff] at hnil
    exact hsize (UInt32.toNat_inj.mp hnil)

/-- The rate of the slot in round `i`. -/
def rate (i : Nat) : ℚ := 1 - i / 10

/-- `getWeight`, the weight of one slot being any function of it and of the rate. -/
def getWeight (weight : HolderStats → ℚ → ℚ) (set : HolderStatsSet) (now : UInt32) : ℚ :=
  let stats := (set.init now).stats
  ((List.range stats.length).map fun i =>
    weight (stats.getD ((now.toNat + i) % stats.length) .init) (rate i)).sum

/-! ## What should be in the slots -/

/-- A call of `get` and what was done with the slot it returned. -/
structure Update where
  now : UInt32
  change : HolderStats → HolderStats

/-- The set after these calls, the latest one first. -/
def after (set : HolderStatsSet) : List Update → HolderStatsSet
  | [] => set
  | u :: past =>
    let (set, slot) := (set.after past).get u.now
    set.modify slot u.change

/-- The calls were made with times that never decrease. -/
def Ordered (past : List Update) : Prop := past.Pairwise (fun u v => v.now ≤ u.now)

/-- What was recorded in a second. -/
def recorded : List Update → Nat → HolderStats
  | [], _ => .init
  | u :: past, t => if u.now.toNat = t then u.change (recorded past t) else recorded past t

/-- What was recorded so many seconds ago. -/
def ago (past : List Update) (now a : Nat) : HolderStats :=
  if a ≤ now then recorded past (now - a) else .init

/-- The slots hold what was recorded in the last seconds, and what was recorded `a` seconds ago has
the rate for `a`. -/
structure Windowed (set : HolderStatsSet) (past : List Update) (now : UInt32) : Prop where
  slots : ∀ t ≤ now.toNat, now.toNat < t + set.stats.length →
    (set.init now).stats[t % set.stats.length]? = some (recorded past t)
  weights : ∀ weight, set.getWeight weight now =
    ((List.range set.stats.length).map fun a => weight (ago past now.toNat a) (rate a)).sum

/-! ## When it is -/

/-- The last second there is. -/
def LAST_SECOND : Nat := 2 ^ 32 - 1

/-- The time of the latest call that was not in the last second. -/
def lastBefore : List Update → Nat
  | [] => 0
  | u :: past => if u.now.toNat = LAST_SECOND then lastBefore past else u.now.toNat

/-- The slot is cleared although the window still has a second of it from before. -/
def Spoilt (n : Nat) (past : List Update) (k age : Nat) : Prop :=
  LAST_SECOND - lastBefore past ≤ age ∧ k + (LAST_SECOND - lastBefore past) < n

/-- In the last second, nothing was recorded in the slots that are cleared by mistake. -/
def NothingSpoilt (n : Nat) (past : List Update) (now : UInt32) : Prop :=
  now.toNat = LAST_SECOND → ∀ t ≤ LAST_SECOND, LAST_SECOND < t + n →
    Spoilt n past (t % n) (LAST_SECOND - t) → recorded past t = .init

/-- What was recorded `a` seconds ago is what was recorded `n - a` seconds ago. -/
def Symmetric (n : Nat) (past : List Update) (now : UInt32) : Prop :=
  ∀ a, 0 < a → a < n → ago past now.toNat a = ago past now.toNat (n - a)

/-! ## The ring -/

/-- The age of the latest second that has slot `k`. -/
def age (n now k : Nat) : Nat := (now + n - k) % n

section Ring

variable {n now k : Nat}

theorem age_lt (hn : 0 < n) : age n now k < n := Nat.mod_lt _ hn

/-- A second of the slot is a whole number of rounds from the latest one. -/
theorem age_of_mod {t : Nat} (ht : t ≤ now) (hk : t % n = k) : age n now k = (now - t) % n := by
  have hdiv := Nat.div_add_mod t n
  have hrounds : now + n - k = now - t + n * (t / n + 1) := by
    rw [Nat.mul_add]
    omega
  rw [age, hrounds, Nat.add_mul_mod_self_left]

/-- The latest second of the slot. -/
theorem sub_age_mod (hk : k < n) (ha : age n now k ≤ now) : (now - age n now k) % n = k := by
  have hdiv := Nat.div_add_mod (now + n - k) n
  rw [← age] at hdiv
  cases hm : (now + n - k) / n with
  | zero =>
    rw [hm] at hdiv
    omega
  | succ m =>
    rw [hm, Nat.mul_succ] at hdiv
    rw [show now - age n now k = k + n * m by omega, Nat.add_mul_mod_self_left, Nat.mod_eq_of_lt hk]

/-- The age of a slot that was not passed since. -/
theorem age_sub {t : Nat} (ht : t ≤ now) (hk : k < n) (ha : now - t ≤ age n now k) :
    age n t k = age n now k - (now - t) := by
  have hdiv := Nat.div_add_mod (now + n - k) n
  have hlt := @age_lt n now k (Nat.zero_lt_of_lt hk)
  rw [← age] at hdiv
  rw [age, show t + n - k = age n now k - (now - t) + n * ((now + n - k) / n) by omega,
    Nat.add_mul_mod_self_left]
  exact Nat.mod_eq_of_lt (by omega)

theorem age_eq_zero_iff (hk : k < n) : age n now k = 0 ↔ now % n = k := by
  constructor
  · intro hzero
    have hmod := @sub_age_mod n now k hk (by omega)
    rwa [hzero] at hmod
  · intro hmod
    rw [age_of_mod le_rfl hmod, Nat.sub_self, Nat.zero_mod]

/-- The slot is passed between two seconds exactly when its latest second lies there. -/
theorem passed_iff {t : Nat} (ht : t ≤ now) (hk : k < n) :
    (∃ s, t < s ∧ s ≤ now ∧ s ≤ t + n ∧ s % n = k) ↔ age n now k < now - t := by
  constructor
  · rintro ⟨s, hts, hs, -, hmod⟩
    rw [age_of_mod hs hmod]
    exact lt_of_le_of_lt (Nat.mod_le _ _) (by omega)
  · intro hage
    have hmod := sub_age_mod hk (show age n now k ≤ now by omega)
    -- the first second behind `t` that has the slot
    have hround := Nat.mod_lt (now - age n now k - (t + 1)) (Nat.zero_lt_of_lt hk)
    have hle := Nat.mod_le (now - age n now k - (t + 1)) n
    refine ⟨t + 1 + (now - age n now k - (t + 1)) % n, by omega, by omega, by omega, ?_⟩
    rw [Nat.add_mod_mod, Nat.add_sub_of_le (by omega), hmod]

end Ring

/-! ## What `init` clears -/

/-- The seconds the loop of `init` comes to. -/
def cleared (now : UInt32) : Nat → UInt32 → List Nat
  | 0, _ => []
  | i + 1, t => if t ≤ now then t.toNat :: cleared now i (t + 1) else []

section Init

variable {now t : UInt32} {i k : Nat} {stats : List HolderStats}

theorem getElem?_clearLoop (hk : k < stats.length) :
    (clearLoop now i t stats)[k]? =
      if ∃ s ∈ cleared now i t, s % stats.length = k then some .init else stats[k]? := by
  induction i generalizing t stats with
  | zero => simp [clearLoop, cleared]
  | succ i ih =>
    rw [clearLoop, cleared]
    split
    · have hlength : (stats.modify (t.toNat % stats.length) .clear).length = stats.length := by simp
      rw [ih (by rwa [hlength]), hlength, List.getElem?_modify, List.getElem?_eq_getElem hk,
        Option.map_eq_map, Option.map_some]
      by_cases hlater : ∃ s ∈ cleared now i (t + 1), s % stats.length = k
      · rw [if_pos hlater, if_pos]
        obtain ⟨s, hs, hmod⟩ := hlater
        exact ⟨s, List.mem_cons_of_mem _ hs, hmod⟩
      · rw [if_neg hlater]
        by_cases hnow : t.toNat % stats.length = k
        · rw [if_pos hnow, if_pos ⟨t.toNat, List.mem_cons_self, hnow⟩]
          rfl
        · rw [if_neg hnow, if_neg]
          rintro ⟨s, hs, hmod⟩
          cases List.mem_cons.mp hs with
          | inl heq => exact hnow (heq ▸ hmod)
          | inr hmem => exact hlater ⟨s, hmem, hmod⟩
    · simp

/-- Up to the new second, and on from zero behind the last one. -/
theorem mem_cleared_iff (hi : i ≤ 2 ^ 32) (s : Nat) :
    s ∈ cleared now i t ↔ t.toNat ≤ s ∧ s ≤ now.toNat ∧ s < t.toNat + i ∨
      now.toNat = LAST_SECOND ∧ s + 2 ^ 32 < t.toNat + i := by
  have hnow := now.toNat_lt
  have ht := t.toNat_lt
  rw [LAST_SECOND]
  induction i generalizing t with
  | zero =>
    simp only [cleared, List.not_mem_nil, false_iff]
    omega
  | succ i ih =>
    rw [cleared]
    split
    · next hle =>
      rw [UInt32.le_iff_toNat_le] at hle
      have hnext : (t + 1).toNat = (t.toNat + 1) % 2 ^ 32 := UInt32.toNat_add t 1
      have hlt := (t + 1).toNat_lt
      have hrest := ih (show i ≤ 2 ^ 32 by omega) hlt
      rw [hnext] at hrest
      rw [List.mem_cons]
      exact (or_congr_right hrest).trans (by omega)
    · next hgt =>
      rw [UInt32.le_iff_toNat_le] at hgt
      simp only [List.not_mem_nil, false_iff]
      omega

/-- The slots that are cleared on the way to a new second. -/
theorem exists_cleared_iff {n : Nat} {now t : UInt32} (hn : n < 2 ^ 32) (ht : t < now) (hk : k < n) :
    (∃ s ∈ cleared now n (t + 1), s % n = k) ↔
      age n now.toNat k < now.toNat - t.toNat ∨
        now.toNat = LAST_SECOND ∧ k + (now.toNat - t.toNat) < n := by
  have hlt := UInt32.lt_iff_toNat_lt.mp ht
  have hbound := now.toNat_lt
  have hnext : (t + 1).toNat = t.toNat + 1 := by
    rw [UInt32.toNat_add, UInt32.toNat_one, Nat.mod_eq_of_lt (by omega)]
  rw [← passed_iff hlt.le hk]
  constructor
  · rintro ⟨s, hs, hmod⟩
    rw [mem_cleared_iff hn.le, hnext] at hs
    rcases hs with ⟨hts, hs, hsn⟩ | ⟨hlast, hs⟩
    · exact .inl ⟨s, hts, hs, by omega, hmod⟩
    · rw [Nat.mod_eq_of_lt (by omega)] at hmod
      exact .inr ⟨hlast, by rw [LAST_SECOND] at hlast; omega⟩
  · rintro (⟨s, hts, hs, hsn, hmod⟩ | ⟨hlast, hsum⟩)
    · refine ⟨s, ?_, hmod⟩
      rw [mem_cleared_iff hn.le, hnext]
      exact .inl (by omega)
    · refine ⟨k, ?_, Nat.mod_eq_of_lt hk⟩
      rw [mem_cleared_iff hn.le, hnext]
      exact .inr ⟨hlast, by rw [LAST_SECOND] at hlast; omega⟩

end Init

@[simp] theorem length_modify (set : HolderStatsSet) (slot : Nat) (f : HolderStats → HolderStats) :
    (set.modify slot f).stats.length = set.stats.length := by
  simp [modify]

/-! ## What the slots hold -/

section Held

instance (n : Nat) (past : List Update) (k age : Nat) : Decidable (Spoilt n past k age) :=
  inferInstanceAs (Decidable (_ ∧ _))

/-- What `init` leaves in a slot. -/
def held (n : Nat) (past : List Update) (now k : Nat) : HolderStats :=
  if now = LAST_SECOND ∧ Spoilt n past k (age n now k) then .init else ago past now (age n now k)

variable {n now k t : Nat} {past : List Update}

/-- A later second: slots are cleared, and nothing else changes. -/
theorem held_later (ht : t < now) (hk : k < n) (hbefore : lastBefore past = t)
    (hnone : ∀ s, t < s → recorded past s = .init) :
    held n past now k =
      if age n now k < now - t ∨ now = LAST_SECOND ∧ k + (now - t) < n then .init
      else ago past t (age n t k) := by
  simp only [held, Spoilt, hbefore]
  by_cases hpassed : age n now k < now - t
  · have hlater := hnone (now - age n now k) (by omega)
    rw [if_pos (Or.inl hpassed), ago, hlater, ite_self, ite_self]
  · by_cases hspoilt : now = LAST_SECOND ∧ k + (now - t) < n
    · rw [if_pos (Or.inr hspoilt)]
      obtain ⟨rfl, hsum⟩ := hspoilt
      exact if_pos ⟨rfl, by omega, hsum⟩
    · have hage := age_sub ht.le hk (not_lt.mp hpassed)
      rw [if_neg (not_or.mpr ⟨hpassed, hspoilt⟩), if_neg, ago, ago, hage]
      · split <;> split <;> first | rfl | omega | (congr 1; omega)
      · rintro ⟨rfl, -, hsum⟩
        exact hspoilt ⟨rfl, hsum⟩

theorem lastBefore_lt (past : List Update) : lastBefore past < LAST_SECOND := by
  induction past with
  | nil => decide
  | cons u past ih =>
    have hlt := u.now.toNat_lt
    rw [lastBefore]
    split
    · exact ih
    · next hne =>
      rw [LAST_SECOND] at hne ⊢
      omega

/-- The slot of the present second. -/
theorem held_young (hage : age n now k = 0) : held n past now k = recorded past now := by
  have hbefore := lastBefore_lt past
  rw [held, if_neg, hage, ago, if_pos (Nat.zero_le _), Nat.sub_zero]
  rintro ⟨-, hle, -⟩
  omega

/-- A call changes no other slot than its own. -/
theorem held_cons {u : Update} (hage : age n u.now.toNat k ≠ 0) :
    held n (u :: past) u.now.toNat k = held n past u.now.toNat k := by
  have hago : ago (u :: past) u.now.toNat (age n u.now.toNat k) =
      ago past u.now.toNat (age n u.now.toNat k) := by
    rw [ago, ago]
    split
    · rw [recorded, if_neg (by omega)]
    · rfl
  refine if_congr (and_congr_right fun hlast => ?_) rfl hago
  rw [Spoilt, Spoilt, lastBefore, if_pos hlast]

end Held

/-- The set after these calls, brought to a time. -/
structure Holds (set : HolderStatsSet) (n : Nat) (past : List Update) (now : UInt32) : Prop where
  lastUpdateTime_eq : set.lastUpdateTime = now
  length_eq : set.stats.length = n
  slot_eq : ∀ k < n, set.stats[k]? = some (held n past now.toNat k)

/-- The time of the latest call. -/
def lastTime : List Update → UInt32
  | [] => 0
  | u :: _ => u.now

section Holds

variable {set : HolderStatsSet} {n : Nat} {past : List Update} {t now : UInt32} {u : Update}

theorem recorded_of_lt {s : Nat} (h : ∀ u ∈ past, u.now.toNat < s) : recorded past s = .init := by
  induction past with
  | nil => rfl
  | cons u past ih =>
    rw [recorded, if_neg (h u List.mem_cons_self).ne]
    exact ih fun v hv => h v (List.mem_cons_of_mem _ hv)

theorem Holds.init (h : Holds set n past t) (hn : n < 2 ^ 32) (ht : t ≤ now)
    (hbefore : t.toNat ≠ LAST_SECOND → lastBefore past = t.toNat)
    (hnone : ∀ s, t.toNat < s → recorded past s = .init) : Holds (set.init now) n past now := by
  obtain ⟨hlast, hlength, hslot⟩ := h
  have hle := UInt32.le_iff_toNat_le.mp ht
  rw [HolderStatsSet.init]
  split
  · next hlt =>
    rw [hlast] at hlt
    have hnat := UInt32.lt_iff_toNat_lt.mp hlt
    have hbound := now.toNat_lt
    have hne : t.toNat ≠ LAST_SECOND := by
      rw [LAST_SECOND]
      omega
    refine ⟨rfl, ?_, ?_⟩
    · rw [← hlength]
      exact length_clearLoop _ _ _ _
    · intro k hk
      have hkeep : held n past t.toNat k = ago past t.toNat (age n t.toNat k) :=
        if_neg fun hspoilt => hne hspoilt.1
      simp only [hlast, hlength]
      rw [getElem?_clearLoop (by rwa [hlength]), hlength, hslot k hk, hkeep,
        held_later hnat hk (hbefore hne) hnone, ← apply_ite some]
      simp only [exists_cleared_iff hn hlt hk]
  · next hnot =>
    have heq : t = now := UInt32.le_antisymm ht (by rwa [hlast, UInt32.not_lt] at hnot)
    subst heq
    exact ⟨hlast, hlength, hslot⟩

theorem Holds.modify (h : Holds set n past u.now) :
    Holds (set.modify (u.now.toNat % n) u.change) n (u :: past) u.now := by
  obtain ⟨hlast, hlength, hslot⟩ := h
  refine ⟨hlast, by rw [length_modify, hlength], ?_⟩
  intro k hk
  simp only [HolderStatsSet.modify, List.getElem?_modify, hslot k hk, Option.map_eq_map,
    Option.map_some, Option.some.injEq]
  split
  · next hmod =>
    have hage := (age_eq_zero_iff hk).mpr hmod
    rw [held_young hage, held_young hage, recorded, if_pos rfl]
  · next hmod =>
    have hage : age n u.now.toNat k ≠ 0 := fun hzero => hmod ((age_eq_zero_iff hk).mp hzero)
    exact (held_cons hage).symm

theorem holds_new (size : UInt32) (hsize : size ≠ 0) : Holds (new size hsize) size.toNat [] 0 where
  lastUpdateTime_eq := rfl
  length_eq := List.length_replicate
  slot_eq k hk := by
    have hheld : held size.toNat [] (0 : UInt32).toNat k = .init := by simp [held, ago, recorded]
    rw [hheld, new, List.getElem?_replicate, if_pos hk]

theorem Ordered.le_lastTime (h : Ordered past) : ∀ u ∈ past, u.now ≤ lastTime past := by
  cases past with
  | nil => simp
  | cons v past =>
    intro u hu
    cases List.mem_cons.mp hu with
    | inl heq => exact heq ▸ UInt32.le_refl _
    | inr hmem => exact (List.pairwise_cons.mp h).1 u hmem

/-- Brought to a time that is not before that of the latest call. -/
theorem Holds.init_of_ordered (h : Holds set n past (lastTime past)) (hn : n < 2 ^ 32)
    (hordered : Ordered past) (ht : lastTime past ≤ now) : Holds (set.init now) n past now := by
  refine h.init hn ht ?_ ?_
  · cases past with
    | nil => exact fun _ => rfl
    | cons u past =>
      intro hne
      rw [lastTime] at hne ⊢
      rw [lastBefore, if_neg hne]
  · intro s hs
    apply recorded_of_lt
    intro u hu
    have hle := UInt32.le_iff_toNat_le.mp (hordered.le_lastTime u hu)
    omega

theorem holds_after (size : UInt32) (hsize : size ≠ 0) (hordered : Ordered past) :
    Holds ((new size hsize).after past) size.toNat past (lastTime past) := by
  induction past with
  | nil => exact holds_new size hsize
  | cons u past ih =>
    obtain ⟨hfirst, hrest⟩ := List.pairwise_cons.mp hordered
    have hlast : lastTime past ≤ u.now := by
      cases past with
      | nil => exact UInt32.le_iff_toNat_le.mpr (Nat.zero_le _)
      | cons v past => exact hfirst v List.mem_cons_self
    have hinit := (ih hrest).init_of_ordered size.toNat_lt hrest hlast
    rw [after, get, (ih hrest).length_eq]
    exact hinit.modify

end Holds

/-! ## The two halves -/

section Window

variable {set : HolderStatsSet} {n : Nat} {past : List Update} {now : UInt32}

/-- The slots are right except for what is cleared by mistake. -/
theorem slots_iff (h : Holds (set.init now) n past now) (hn : 0 < n) :
    (∀ t ≤ now.toNat, now.toNat < t + n → (set.init now).stats[t % n]? = some (recorded past t)) ↔
      NothingSpoilt n past now := by
  have hslot : ∀ t ≤ now.toNat, now.toNat < t + n →
      ((set.init now).stats[t % n]? = some (recorded past t) ↔
        (now.toNat = LAST_SECOND → Spoilt n past (t % n) (now.toNat - t) → recorded past t = .init)) := by
    intro t ht hwindow
    have hage : age n now.toNat (t % n) = now.toNat - t := by
      rw [age_of_mod ht rfl, Nat.mod_eq_of_lt (by omega)]
    rw [h.slot_eq _ (Nat.mod_lt t hn), held, hage, ago, if_pos (Nat.sub_le _ _), Nat.sub_sub_self ht,
      Option.some.injEq]
    by_cases hspoilt : now.toNat = LAST_SECOND ∧ Spoilt n past (t % n) (now.toNat - t)
    · rw [if_pos hspoilt]
      exact ⟨fun heq _ _ => heq.symm, fun himp => (himp hspoilt.1 hspoilt.2).symm⟩
    · rw [if_neg hspoilt]
      exact iff_of_true rfl fun hlast hbad => absurd ⟨hlast, hbad⟩ hspoilt
  constructor
  · intro hall hlast t ht hwindow
    rw [← hlast] at ht hwindow ⊢
    exact (hslot t ht hwindow).mp (hall t ht hwindow) hlast
  · intro hnothing t ht hwindow
    refine (hslot t ht hwindow).mpr fun hlast => ?_
    rw [hlast] at ht hwindow ⊢
    exact hnothing hlast t ht hwindow

/-- When nothing was lost each slot has what was recorded at its age. -/
theorem NothingSpoilt.held_eq (h : NothingSpoilt n past now) {k : Nat} (hk : k < n) :
    held n past now.toNat k = ago past now.toNat (age n now.toNat k) := by
  rw [held]
  split
  · next hspoilt =>
    rw [ago]
    split
    · next hage =>
      have hlt := @age_lt n now.toNat k (Nat.zero_lt_of_lt hk)
      have hmod := sub_age_mod hk hage
      refine (h hspoilt.1 _ (by omega) (by omega) ?_).symm
      rw [hmod, ← hspoilt.1, Nat.sub_sub_self hage]
      exact hspoilt.2
    · rfl
  · rfl

/-- The slot that `getWeight` comes to in round `i`. -/
theorem age_round {i : Nat} (hi : i < n) : age n now.toNat ((now.toNat + i) % n) = (n - i) % n := by
  have hdiv := Nat.div_add_mod (now.toNat + i) n
  have hlt := Nat.mod_lt (now.toNat + i) (Nat.zero_lt_of_lt hi)
  rw [age, show now.toNat + n - (now.toNat + i) % n = n - i + n * ((now.toNat + i) / n) by omega,
    Nat.add_mul_mod_self_left]

theorem getWeight_eq (h : Holds (set.init now) n past now) (hnothing : NothingSpoilt n past now)
    (weight : HolderStats → ℚ → ℚ) : set.getWeight weight now =
      ((List.range n).map fun i => weight (ago past now.toNat ((n - i) % n)) (rate i)).sum := by
  simp only [getWeight, h.length_eq]
  congr 1
  apply List.map_congr_left
  intro i hi
  have hlt := List.mem_range.mp hi
  have hk := Nat.mod_lt (now.toNat + i) (Nat.zero_lt_of_lt hlt)
  rw [List.getD_eq_getElem?_getD, h.slot_eq _ hk, Option.getD_some, hnothing.held_eq hk, age_round hlt]

theorem rate_injective : Function.Injective rate := by
  intro i j h
  have heq : (i : ℚ) = j := by
    simp only [rate] at h
    linarith
  exact Nat.cast_injective heq

/-- The weight that counts one term. -/
theorem sum_single {f : Nat → ℚ} {a : Nat} (ha : a < n) (hf : ∀ i, i ≠ a → f i = 0) :
    ((List.range n).map f).sum = f a := by
  have hsum : ((List.range n).map f).sum = ∑ i ∈ Finset.range n, f i := rfl
  rw [hsum]
  exact Finset.sum_eq_single a (fun i _ hi => hf i hi) fun hout => absurd (Finset.mem_range.mpr ha) hout

/-- The rates fit the ages exactly when the statistics are the same both ways round. -/
theorem weights_iff (stats : Nat → HolderStats) :
    (∀ weight : HolderStats → ℚ → ℚ,
      ((List.range n).map fun i => weight (stats ((n - i) % n)) (rate i)).sum =
        ((List.range n).map fun i => weight (stats i) (rate i)).sum) ↔
      ∀ a, 0 < a → a < n → stats a = stats (n - a) := by
  constructor
  · intro hall a hpos hlt
    have hother : ∀ (s : Nat → HolderStats) i, i ≠ a →
        (if s i = stats a ∧ rate i = rate a then (1 : ℚ) else 0) = 0 :=
      fun s i hi => if_neg fun h => hi (rate_injective h.2)
    have hsum := hall fun s r => if s = stats a ∧ r = rate a then 1 else 0
    have hright : (if stats a = stats a ∧ rate a = rate a then (1 : ℚ) else 0) = 1 := if_pos ⟨rfl, rfl⟩
    rw [sum_single hlt (hother fun i => stats ((n - i) % n)), sum_single hlt (hother stats), hright,
      Nat.mod_eq_of_lt (show n - a < n by omega)] at hsum
    by_contra hne
    rw [if_neg fun h => hne h.1.symm] at hsum
    exact zero_ne_one hsum
  · intro hsymmetric weight
    congr 1
    apply List.map_congr_left
    intro i hi
    have hlt := List.mem_range.mp hi
    cases i with
    | zero => rw [Nat.sub_zero, Nat.mod_self]
    | succ i => rw [Nat.mod_eq_of_lt (by omega), ← hsymmetric (i + 1) (Nat.succ_pos i) hlt]

end Window

/-- For any calls in order: the slots hold the last seconds and each age has its rate exactly when
nothing is cleared by mistake and the statistics are the same from either end. -/
theorem windowed_iff (size : UInt32) (hsize : size ≠ 0) {past : List Update} (hordered : Ordered past)
    {now : UInt32} (hnow : ∀ u ∈ past, u.now ≤ now) :
    Windowed ((new size hsize).after past) past now ↔
      NothingSpoilt size.toNat past now ∧ Symmetric size.toNat past now := by
  have hpos : 0 < size.toNat := Nat.pos_of_ne_zero fun hzero => hsize (UInt32.toNat_inj.mp hzero)
  have hafter := holds_after size hsize hordered
  have hlast : lastTime past ≤ now := by
    cases past with
    | nil => exact UInt32.le_iff_toNat_le.mpr (Nat.zero_le _)
    | cons u past => exact hnow u List.mem_cons_self
  have hinit := hafter.init_of_ordered size.toNat_lt hordered hlast
  have hslots := slots_iff hinit hpos
  have hlength := hafter.length_eq
  rw [← hlength] at hslots
  constructor
  · intro h
    have hnothing := hslots.mp h.slots
    rw [hlength] at hnothing
    refine ⟨hnothing, (weights_iff (ago past now.toNat)).mp fun weight => ?_⟩
    rw [← getWeight_eq hinit hnothing, h.weights weight, hlength]
  · rintro ⟨hnothing, hsymmetric⟩
    refine ⟨hslots.mpr (by rwa [hlength]), fun weight => ?_⟩
    rw [getWeight_eq hinit hnothing, hlength]
    exact (weights_iff (ago past now.toNat)).mpr hsymmetric weight

/-- Two slots, over the last two seconds and one in which nothing was counted. -/
theorem windowed_two : Windowed
    ((new 2 (by decide)).after [⟨11, (·.incTotal 2)⟩, ⟨10, (·.incTotal 1)⟩])
    [⟨11, (·.incTotal 2)⟩, ⟨10, (·.incTotal 1)⟩] 12 := by
  refine (windowed_iff 2 (by decide) ?_ ?_).mpr ⟨?_, ?_⟩
  · simp [Ordered]
  · simp
  · intro hlast
    exact absurd hlast (by decide)
  · intro a hpos hlt
    have hone : a = 1 := by
      have h2 : a < 2 := hlt
      omega
    rw [hone]
    rfl

/-- Three slots: what was counted a second ago has the factor for two. -/
theorem not_windowed_three : ¬Windowed ((new 3 (by decide)).after [⟨10, (·.incTotal 1)⟩])
    [⟨10, (·.incTotal 1)⟩] 11 := by
  intro h
  have hweights := h.weights fun stats r => stats.total.toNat * r
  exact absurd hweights (by decide +kernel)

end CxkFramework.HolderStatsSet
