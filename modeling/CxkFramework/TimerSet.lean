import CxkFramework.Timer
import Mathlib.Tactic

/-!
# The set of timers stays in order

Every operation takes a timer out of the set before it changes `m_next` and puts it back
afterwards, and a timer loses its callback exactly when it leaves the set for good. So the set is
sorted in every state, whatever the clock does, and no operation meets an iterator it does not
expect.
-/

namespace CxkFramework.TimerManager

open OrderedSet Runs

/-! ## The order -/

theorem comparetor_iff (x y : UInt64 × Nat) :
    Comparetor x y = true ↔ x.1.toNat < y.1.toNat ∨ (x.1.toNat = y.1.toNat ∧ x.2 < y.2) := by
  rw [Comparetor]
  simp only [UInt64.lt_iff_toNat_lt]
  split
  · next hlt => exact iff_of_true rfl (.inl hlt)
  · split
    · simp only [Bool.false_eq_true, false_iff]
      omega
    · simp only [decide_eq_true_eq]
      omega

theorem less_iff (s : TimerManager) (a b : Nat) : s.less a b = true ↔
    (s.timer a).next.toNat < (s.timer b).next.toNat ∨
      ((s.timer a).next.toNat = (s.timer b).next.toNat ∧ a < b) :=
  comparetor_iff (s.key a) (s.key b)

theorem less_strictTotal (s : TimerManager) : StrictTotal s.less where
  irrefl a := by
    rw [← Bool.not_eq_true, less_iff]
    omega
  trans a b c := by
    simp only [less_iff]
    omega
  total a b := by
    simp only [less_iff]
    omega

@[simp] theorem setTimers_timers (s : TimerManager) (l : List Nat) : (s.setTimers l).timers = l := rfl

@[simp] theorem setTimers_timer (s : TimerManager) (l : List Nat) : (s.setTimers l).timer = s.timer :=
  rfl

@[simp] theorem setTimers_live (s : TimerManager) (l : List Nat) : (s.setTimers l).live = s.live := rfl

theorem setTimer_timers (s : TimerManager) (a : Nat) (t : Timer) :
    (s.setTimer a t).timers = s.timers := rfl

theorem setTimer_self (s : TimerManager) (a : Nat) (t : Timer) : (s.setTimer a t).timer a = t := by
  simp only [setTimer, Function.update_self]

theorem setTimer_of_ne (s : TimerManager) {a b : Nat} (t : Timer) (h : b ≠ a) :
    (s.setTimer a t).timer b = s.timer b := by
  simp only [setTimer, Function.update_of_ne h]

/-- A timer that is not in the set may change at will. -/
theorem sorted_setTimer {s : TimerManager} {a : Nat} (t : Timer) (ha : a ∉ s.timers)
    (hs : Sorted s.less s.timers) : Sorted (s.setTimer a t).less s.timers := by
  refine hs.congr (fun b hb c hc => ?_)
  have hba : b ≠ a := fun h => ha (h ▸ hb)
  have hca : c ≠ a := fun h => ha (h ▸ hc)
  rw [less, key, key, setTimer_of_ne s t hba, setTimer_of_ne s t hca, less, key, key]

/-- One in the set may change in everything but `m_next`. -/
theorem less_setTimer {s : TimerManager} {a : Nat} {t : Timer} (h : t.next = (s.timer a).next) :
    (s.setTimer a t).less = s.less := by
  have hnext : ∀ b, ((s.setTimer a t).timer b).next = (s.timer b).next := by
    intro b
    by_cases hb : b = a
    · rw [hb, setTimer_self, h]
    · rw [setTimer_of_ne s t hb]
  funext b c
  rw [less, key, key, hnext, hnext, less, key, key]

/-! ## The invariant -/

/-- The set is in order, and a timer has a callback exactly when it is in it. -/
structure SetInv (s : TimerManager) : Prop where
  sorted : Sorted s.less s.timers
  nodup : s.timers.Nodup
  live : ∀ a ∈ s.timers, s.live a = true
  armed : ∀ a, s.live a = true → ((s.timer a).cb.isSome = true ↔ a ∈ s.timers)

/-- Change a timer that is not in the set and put it in. -/
def put (s : TimerManager) (a : Nat) (t : Timer) : TimerManager := (s.setTimer a t).insert a

/-- Take a timer out of the set. -/
def without (s : TimerManager) (a : Nat) : TimerManager := s.setTimers (s.timers.erase a)

section Put

variable {s : TimerManager} {a b : Nat} {t : Timer}

theorem mem_put (hs : Sorted s.less s.timers) (ha : a ∉ s.timers) :
    b ∈ (s.put a t).timers ↔ b = a ∨ b ∈ s.timers :=
  mem_insert (less_strictTotal _) (sorted_setTimer t ha hs)

theorem sorted_put (hs : Sorted s.less s.timers) (ha : a ∉ s.timers) :
    Sorted (s.put a t).less (s.put a t).timers :=
  Sorted.insert (less_strictTotal (s.setTimer a t)) (sorted_setTimer t ha hs)

theorem put_self : (s.put a t).timer a = t := setTimer_self s a t

theorem put_of_ne (h : b ≠ a) : (s.put a t).timer b = s.timer b := setTimer_of_ne s t h

theorem mem_without (hs : s.timers.Nodup) : b ∈ (s.without a).timers ↔ b ≠ a ∧ b ∈ s.timers :=
  hs.mem_erase_iff

theorem not_mem_without (hs : s.timers.Nodup) : a ∉ (s.without a).timers := fun h =>
  ((mem_without hs).mp h).1 rfl

theorem sorted_without (hs : Sorted s.less s.timers) :
    Sorted (s.without a).less (s.without a).timers := hs.erase

end Put

/-- The notice of `addTimer(val, lock)` changes nothing else. -/
def notice (s : TimerManager) (a : Nat) : TimerManager :=
  if s.timers.head? = some a && !s.tickled then
    { s with tickled := true, notifications := s.notifications + 1 }
  else s

theorem addTimerLocked_eq (s : TimerManager) (a : Nat) : s.addTimerLocked a = (s.insert a).notice a :=
  rfl

theorem notice_timers (s : TimerManager) (a : Nat) : (s.notice a).timers = s.timers := by
  rw [notice]
  split <;> rfl

theorem notice_timer (s : TimerManager) (a : Nat) : (s.notice a).timer = s.timer := by
  rw [notice]
  split <;> rfl

theorem notice_live (s : TimerManager) (a : Nat) : (s.notice a).live = s.live := by
  rw [notice]
  split <;> rfl

theorem SetInv.notice {s : TimerManager} (hs : SetInv s) (a : Nat) : SetInv (s.notice a) := by
  rw [TimerManager.notice]
  split
  · exact ⟨hs.sorted, hs.nodup, hs.live, hs.armed⟩
  · exact hs

theorem SetInv.of_notice {s : TimerManager} {a : Nat} (hs : SetInv (s.notice a)) : SetInv s := by
  rw [TimerManager.notice] at hs
  split at hs
  · exact ⟨hs.sorted, hs.nodup, hs.live, hs.armed⟩
  · exact hs

/-! ## The operations -/

section Operations

variable {s : TimerManager} {a : Nat}

theorem find_mem (hs : Sorted s.less s.timers) (ha : a ∈ s.timers) : s.find a = some a :=
  find_of_mem (less_strictTotal s) hs ha

theorem cancel_mem (hs : Sorted s.less s.timers) (ha : a ∈ s.timers) (hlive : s.live a = true)
    (hcb : (s.timer a).cb.isSome = true) :
    s.cancel a = .ok (true, (s.setTimer a (s.timer a).clearCb).without a) := by
  have hfind : (s.setTimer a (s.timer a).clearCb).find a = some a := by
    rw [find, less_setTimer (t := (s.timer a).clearCb) rfl]
    exact find_mem hs ha
  rw [cancel, if_neg (by simp [hlive]), if_pos hcb]
  change ((s.setTimer a (s.timer a).clearCb).erase
    ((s.setTimer a (s.timer a).clearCb).find a) >>= _) = _
  rw [hfind]
  rfl

theorem cancel_eq (hs : SetInv s) (hlive : s.live a = true) (hcb : (s.timer a).cb.isSome = true) :
    s.cancel a = .ok (true, (s.setTimer a (s.timer a).clearCb).without a) :=
  cancel_mem hs.sorted ((hs.armed a hlive).mp hcb) hlive hcb

theorem setNext_without (hs : s.timers.Nodup) (next : UInt64) :
    (s.without a).setNext a next =
      .ok ((s.without a).setTimer a ((s.timer a).setNext next)) := by
  rw [setNext, if_neg (not_mem_without hs)]
  rfl

theorem refresh_mem (hs : Sorted s.less s.timers) (ha : a ∈ s.timers) (hlive : s.live a = true)
    (hcb : (s.timer a).cb.isSome = true) (now : UInt64) : s.refresh a now = .ok (true,
      (s.without a).put a ((s.timer a).setNext (now + (s.timer a).ms))) := by
  rw [refresh, if_neg (by simp [hlive]), if_neg (by simp [Option.isSome_iff_ne_none.mp hcb]),
    find_mem hs ha]
  change ((s.without a).setNext a _ >>= _) = _
  rw [setNext_without (hs.nodup (less_strictTotal s))]
  rfl

theorem refresh_eq (hs : SetInv s) (hlive : s.live a = true) (hcb : (s.timer a).cb.isSome = true)
    (now : UInt64) : s.refresh a now = .ok (true,
      (s.without a).put a ((s.timer a).setNext (now + (s.timer a).ms))) :=
  refresh_mem hs.sorted ((hs.armed a hlive).mp hcb) hlive hcb now

/-- `reset` once it has the write lock. -/
def resetLocked (s : TimerManager) (a : Nat) (ms : UInt64) (fromNow : Bool) (now : UInt64) :
    Except Fault (Bool × TimerManager) :=
  if !s.live a then .error .disabled
  else if (s.timer a).cb.isNone then .ok (false, s)
  else
    match s.find a with
    | none => .ok (false, s)
    | some it => do
      let s ← s.erase (some it)
      let start := if fromNow then now else (s.timer a).next - (s.timer a).ms
      let s := s.setTimer a ((s.timer a).setMs ms)
      let s ← s.setNext a (start + ms)
      .ok (true, s.addTimerLocked a)

/-- Before it takes the lock `reset` looks at the period, and at nothing else. -/
theorem reset_halves (s : TimerManager) (a : Nat) (ms : UInt64) (fromNow : Bool) (now : UInt64) :
    s.reset a ms fromNow now =
      if s.live a ∧ ms = (s.timer a).ms ∧ fromNow = false then .ok (true, s)
      else s.resetLocked a ms fromNow now := by
  rw [reset, resetLocked]
  cases s.live a with
  | false => rfl
  | true =>
    by_cases hsame : ms = (s.timer a).ms ∧ fromNow = false
    · rw [if_neg (by simp), if_pos (by simpa using hsame), if_pos ⟨rfl, hsame⟩]
    · have hlocked : ¬(true = true ∧ ms = (s.timer a).ms ∧ fromNow = false) := fun h => hsame h.2
      have hperiod : ¬(ms = (s.timer a).ms && !fromNow) = true := by simpa using hsame
      exact (if_neg hperiod).trans (if_neg hlocked).symm

/-- The timer `reset` puts back. -/
def retimed (t : Timer) (ms : UInt64) (fromNow : Bool) (now : UInt64) : Timer :=
  (t.setMs ms).setNext ((if fromNow then now else t.next - t.ms) + ms)

theorem resetLocked_mem (hs : Sorted s.less s.timers) (ha : a ∈ s.timers) (hlive : s.live a = true)
    (hcb : (s.timer a).cb.isSome = true) (ms : UInt64) (fromNow : Bool) (now : UInt64) :
    s.resetLocked a ms fromNow now = .ok (true,
      ((s.without a).put a (retimed (s.timer a) ms fromNow now)).notice a) := by
  have hnodup := hs.nodup (less_strictTotal s)
  rw [resetLocked, if_neg (by simp [hlive]), if_neg (by simp [Option.isSome_iff_ne_none.mp hcb]),
    find_mem hs ha]
  have hset : ((s.without a).setTimer a ((s.timer a).setMs ms)).setNext a
      ((if fromNow then now else (s.timer a).next - (s.timer a).ms) + ms) =
      .ok ((s.without a).setTimer a (retimed (s.timer a) ms fromNow now)) := by
    rw [setNext, setTimer_timers, if_neg (not_mem_without hnodup), setTimer_self]
    simp only [setTimer, Function.update_idem, retimed]
  change (((s.without a).setTimer a ((s.timer a).setMs ms)).setNext a
    ((if fromNow then now else (s.timer a).next - (s.timer a).ms) + ms) >>= _) = _
  rw [hset]
  rfl

theorem reset_eq (hs : SetInv s) (hlive : s.live a = true) (hcb : (s.timer a).cb.isSome = true)
    {ms : UInt64} {fromNow : Bool} {now : UInt64} (hne : ¬(ms = (s.timer a).ms ∧ fromNow = false)) :
    s.reset a ms fromNow now = .ok (true,
      ((s.without a).put a (retimed (s.timer a) ms fromNow now)).notice a) := by
  rw [reset_halves, if_neg fun h => hne h.2]
  exact resetLocked_mem hs.sorted ((hs.armed a hlive).mp hcb) hlive hcb ms fromNow now

end Operations

/-! ## Expired timers -/

/-- What a timer becomes when it has expired. -/
def expiredTimer (now : UInt64) (t : Timer) : Timer :=
  if t.recurring then t.setNext (now + t.ms) else t.clearCb

/-- The timers in `es`, none of them in the set, are gone through. -/
structure Expired (now : UInt64) (es : List Nat) (s s' : TimerManager) : Prop where
  sorted : Sorted s'.less s'.timers
  mem_iff : ∀ b, b ∈ s'.timers ↔ b ∈ s.timers ∨ (b ∈ es ∧ (s.timer b).recurring = true)
  timer_eq : ∀ b ∈ es, s'.timer b = expiredTimer now (s.timer b)
  timer_other : ∀ b, b ∉ es → s'.timer b = s.timer b
  live_eq : s'.live = s.live
  tickled_eq : s'.tickled = s.tickled
  previousTime_eq : s'.previousTime = s.previousTime
  notifications_eq : s'.notifications = s.notifications

section Expire

variable {s : TimerManager} {now : UInt64}

/-- One round of the loop. -/
theorem expireOne_eq (now : UInt64) {a : Nat} (ha : a ∉ s.timers) (cbs : List (Option Nat)) :
    expireOne now (cbs, s) a = .ok (cbs ++ [(s.timer a).cb],
      if (s.timer a).recurring then s.put a (expiredTimer now (s.timer a))
      else s.setTimer a (expiredTimer now (s.timer a))) := by
  by_cases hr : (s.timer a).recurring = true
  · simp only [expireOne, hr, if_true, setNext, ha, if_false, expiredTimer]
    rfl
  · simp only [expireOne, hr, Bool.false_eq_true, if_false, expiredTimer]

/-- The state after one round is again one with the other timers outside of the set. -/
theorem expireOne_expired (now : UInt64) {a : Nat} (hs : Sorted s.less s.timers)
    (ha : a ∉ s.timers) :
    Expired now [a] s (if (s.timer a).recurring then s.put a (expiredTimer now (s.timer a))
      else s.setTimer a (expiredTimer now (s.timer a))) := by
  split
  · next hr =>
    refine ⟨sorted_put hs ha, fun b => ?_, fun b hb => ?_, fun b hb => ?_, rfl, rfl, rfl, rfl⟩
    · rw [mem_put hs ha, List.mem_singleton]
      constructor
      · rintro (rfl | hb)
        · exact .inr ⟨rfl, hr⟩
        · exact .inl hb
      · rintro (hb | ⟨rfl, -⟩)
        · exact .inr hb
        · exact .inl rfl
    · rw [List.mem_singleton.mp hb, put_self]
    · exact put_of_ne (fun h => hb (List.mem_singleton.mpr h))
  · next hr =>
    refine ⟨sorted_setTimer _ ha hs, fun b => ?_, fun b hb => ?_, fun b hb => ?_, rfl, rfl, rfl, rfl⟩
    · rw [setTimer_timers, List.mem_singleton]
      constructor
      · exact .inl
      · rintro (hb | ⟨rfl, hb⟩)
        · exact hb
        · exact absurd hb hr
    · rw [List.mem_singleton.mp hb, setTimer_self]
    · exact setTimer_of_ne s _ (fun h => hb (List.mem_singleton.mpr h))

theorem Expired.trans {a : Nat} {es : List Nat} {s₁ s₂ : TimerManager} (ha : a ∉ es)
    (h₁ : Expired now [a] s s₁) (h₂ : Expired now es s₁ s₂) : Expired now (a :: es) s s₂ where
  sorted := h₂.sorted
  mem_iff b := by
    rw [h₂.mem_iff, h₁.mem_iff, List.mem_singleton, List.mem_cons]
    by_cases hb : b = a
    · subst hb
      tauto
    · rw [h₁.timer_other b (by simpa using hb)]
      tauto
  timer_eq b hb := by
    rcases List.mem_cons.mp hb with rfl | hmem
    · rw [h₂.timer_other b ha, h₁.timer_eq b List.mem_cons_self]
    · have hne : b ∉ [a] := fun h => ha (List.mem_singleton.mp h ▸ hmem)
      rw [h₂.timer_eq b hmem, h₁.timer_other b hne]
  timer_other b hb := by
    rw [List.mem_cons, not_or] at hb
    rw [h₂.timer_other b hb.2, h₁.timer_other b (by simpa using hb.1)]
  live_eq := h₂.live_eq.trans h₁.live_eq
  tickled_eq := h₂.tickled_eq.trans h₁.tickled_eq
  previousTime_eq := h₂.previousTime_eq.trans h₁.previousTime_eq
  notifications_eq := h₂.notifications_eq.trans h₁.notifications_eq

/-- The whole loop. The callbacks are handed over in the order of the timers. -/
theorem foldlM_expireOne (now : UInt64) {es : List Nat} (hs : Sorted s.less s.timers) (hnodup : es.Nodup)
    (hout : ∀ a ∈ es, a ∉ s.timers) (cbs : List (Option Nat)) :
    ∃ s', es.foldlM (expireOne now) (cbs, s) = .ok (cbs ++ es.map (fun a => (s.timer a).cb), s') ∧
      Expired now es s s' := by
  induction es generalizing s cbs with
  | nil =>
    refine ⟨s, by simp, hs, fun b => by simp, ?_, fun _ _ => rfl, rfl, rfl, rfl, rfl⟩
    intro b hb
    cases hb
  | cons a es ih =>
    obtain ⟨ha, hes⟩ := List.nodup_cons.mp hnodup
    have hfirst := expireOne_expired now hs (hout a List.mem_cons_self)
    have hone := expireOne_eq now (hout a List.mem_cons_self) cbs
    generalize (if (s.timer a).recurring then s.put a (expiredTimer now (s.timer a))
      else s.setTimer a (expiredTimer now (s.timer a))) = s₁ at hfirst hone
    have hout₁ : ∀ b ∈ es, b ∉ s₁.timers := by
      intro b hb hmem
      rcases (hfirst.mem_iff b).mp hmem with h | ⟨h, -⟩
      · exact hout b (List.mem_cons_of_mem a hb) h
      · exact ha (List.mem_singleton.mp h ▸ hb)
    obtain ⟨s', hrun, hexp⟩ := ih hfirst.sorted hes hout₁ (cbs ++ [(s.timer a).cb])
    refine ⟨s', ?_, hfirst.trans ha hexp⟩
    have hcbs : es.map (fun b => (s₁.timer b).cb) = es.map (fun b => (s.timer b).cb) := by
      refine List.map_congr_left (fun b hb => ?_)
      rw [hfirst.timer_other b (fun h => ha (List.mem_singleton.mp h ▸ hb))]
    rw [List.foldlM_cons, hone, ok_bind, hrun, hcbs, List.map_cons, List.append_assoc]
    rfl

/-- The timers `listExpiredCb` takes out, at the front of the set. -/
def expiredOf (s : TimerManager) (now : UInt64) (probe : Nat) (rollover : Bool) : List Nat :=
  s.timers.take (s.timers.length - (s.unexpired now probe rollover).length)

theorem expiredOf_append (s : TimerManager) (now : UInt64) (probe : Nat) (rollover : Bool) :
    s.expiredOf now probe rollover ++ s.unexpired now probe rollover = s.timers := by
  have hsuffix : s.unexpired now probe rollover <:+ s.timers := by
    rw [unexpired]
    split
    · exact List.nil_suffix
    · exact (List.dropWhile_suffix _).trans (List.dropWhile_suffix _)
  obtain ⟨front, hfront⟩ := hsuffix
  have hlen := congrArg List.length hfront
  rw [List.length_append] at hlen
  rw [expiredOf, show s.timers.length - (s.unexpired now probe rollover).length = front.length by omega]
  conv_lhs => rw [← hfront]
  conv_rhs => rw [← hfront]
  rw [List.take_left]

theorem expire_sorted (now : UInt64) (hsorted : Sorted s.less s.timers) (probe : Nat)
    (rollover : Bool) : ∃ s', s.expire now probe rollover =
        .ok ((s.expiredOf now probe rollover).map (fun a => (s.timer a).cb), s') ∧
      Expired now (s.expiredOf now probe rollover)
        (s.setTimers (s.unexpired now probe rollover)) s' := by
  have happend := s.expiredOf_append now probe rollover
  have hnodup := hsorted.nodup (less_strictTotal s)
  rw [Sorted, ← happend] at hsorted
  rw [← happend] at hnodup
  obtain ⟨hn₁, -, hdisj⟩ := List.nodup_append.mp hnodup
  obtain ⟨s', hrun, hexp⟩ := foldlM_expireOne
    (s := s.setTimers (s.unexpired now probe rollover)) now (List.pairwise_append.mp hsorted).2.1 hn₁
    (fun a ha ha' => hdisj a ha a ha' rfl) []
  exact ⟨s', hrun, hexp⟩

/-- `listExpiredCb` on a set that is in order. -/
theorem expire_expired (now : UInt64) (hs : SetInv s) (probe : Nat) (rollover : Bool) :
    ∃ s', s.expire now probe rollover =
        .ok ((s.expiredOf now probe rollover).map (fun a => (s.timer a).cb), s') ∧
      Expired now (s.expiredOf now probe rollover)
        (s.setTimers (s.unexpired now probe rollover)) s' :=
  expire_sorted now hs.sorted probe rollover

end Expire

/-! ## The invariant is kept -/

section Keep

variable {s s' : TimerManager}

theorem setInv_init (now : UInt64) : SetInv (init now) where
  sorted := List.Pairwise.nil
  nodup := List.nodup_nil
  live a ha := by cases ha
  armed a ha := by cases ha

/-- A timer outside of the set is changed, keeps or gets its callback, and is put in. -/
theorem SetInv.put {a : Nat} {t : Timer} (hsorted : Sorted s.less s.timers) (ha : a ∉ s.timers)
    (hcb : t.cb.isSome = true) (hlive : ∀ b, b = a ∨ b ∈ s.timers → s.live b = true)
    (harmed : ∀ b, b ≠ a → s.live b = true → ((s.timer b).cb.isSome = true ↔ b ∈ s.timers)) :
    SetInv (s.put a t) where
  sorted := sorted_put hsorted ha
  nodup := (sorted_put hsorted ha).nodup (less_strictTotal _)
  live b hb := hlive b ((mem_put hsorted ha).mp hb)
  armed b hb := by
    rw [mem_put hsorted ha]
    by_cases hba : b = a
    · simp [hba, put_self, hcb]
    · rw [put_of_ne hba, harmed b hba hb]
      simp [hba]

/-- A timer that is in the set is put back changed. -/
theorem SetInv.replace {a : Nat} {t : Timer} (hs : SetInv s) (ha : a ∈ s.timers)
    (hcb : t.cb.isSome = true) : SetInv ((s.without a).put a t) := by
  apply SetInv.put (sorted_without hs.sorted) (not_mem_without hs.nodup) hcb
  · rintro b (rfl | hb)
    · exact hs.live b ha
    · exact hs.live b ((mem_without hs.nodup).mp hb).2
  · intro b hba hb
    rw [mem_without hs.nodup]
    exact (hs.armed b hb).trans ⟨fun h => ⟨hba, h⟩, And.right⟩

theorem addTimer_setInv (hs : SetInv s) {a : Nat} {ms : UInt64} {cb : Nat} {recurring : Bool}
    {now : UInt64} (h : s.addTimer a ms (some cb) recurring now = .ok s') : SetInv s' := by
  rw [addTimer] at h
  split at h
  · cases h
  · next hdead =>
    cases h
    have ha : a ∉ s.timers := fun hmem => hdead (hs.live a hmem)
    rw [addTimerLocked_eq]
    refine SetInv.notice (SetInv.put (s := { s with live := Function.update s.live a true })
      hs.sorted ha rfl ?_ ?_) a
    · intro b hb
      by_cases hba : b = a
      · simp [hba]
      · simpa [hba] using hs.live b (hb.resolve_left hba)
    · intro b hba hb
      have hlive : s.live b = true := by simpa [hba] using hb
      exact hs.armed b hlive

theorem cancel_setInv (hs : SetInv s) {a : Nat} {r : Bool} (h : s.cancel a = .ok (r, s')) :
    SetInv s' := by
  cases hlive : s.live a with
  | false =>
    rw [cancel, hlive] at h
    cases h
  | true =>
    by_cases hcb : (s.timer a).cb.isSome = true
    · rw [cancel_eq hs hlive hcb] at h
      cases h
      have hless : (s.setTimer a (s.timer a).clearCb).less = s.less := less_setTimer rfl
      have hsorted : Sorted (s.setTimer a (s.timer a).clearCb).less s.timers := hless ▸ hs.sorted
      refine ⟨sorted_without hsorted, hs.nodup.erase a, fun b hb => ?_, fun b hb => ?_⟩
      · exact hs.live b ((mem_without hs.nodup).mp hb).2
      · refine Iff.trans ?_ (mem_without hs.nodup).symm
        by_cases hba : b = a
        · subst hba
          simp [without, setTimers, setTimer_self, Timer.clearCb]
        · simp only [without, setTimers, setTimer_of_ne s _ hba]
          rw [hs.armed b hb]
          simp [hba]
    · rw [cancel, hlive, if_neg (by simp), if_neg hcb] at h
      cases h
      exact hs

theorem refresh_setInv (hs : SetInv s) {a : Nat} {now : UInt64} {r : Bool}
    (h : s.refresh a now = .ok (r, s')) : SetInv s' := by
  cases hlive : s.live a with
  | false =>
    rw [refresh, hlive] at h
    cases h
  | true =>
    by_cases hcb : (s.timer a).cb.isSome = true
    · rw [refresh_eq hs hlive hcb] at h
      cases h
      exact hs.replace ((hs.armed a hlive).mp hcb) hcb
    · rw [refresh, hlive, if_neg (by simp), if_pos (by simpa using hcb)] at h
      cases h
      exact hs

theorem reset_setInv (hs : SetInv s) {a : Nat} {ms : UInt64} {fromNow : Bool} {now : UInt64}
    {r : Bool} (h : s.reset a ms fromNow now = .ok (r, s')) : SetInv s' := by
  cases hlive : s.live a with
  | false =>
    rw [reset, hlive] at h
    cases h
  | true =>
    by_cases hsame : ms = (s.timer a).ms ∧ fromNow = false
    · rw [reset, hlive, if_neg (by simp), if_pos (by simpa using hsame)] at h
      cases h
      exact hs
    · by_cases hcb : (s.timer a).cb.isSome = true
      · rw [reset_eq hs hlive hcb hsame] at h
        cases h
        have hcb' : (retimed (s.timer a) ms fromNow now).cb.isSome = true := hcb
        exact (hs.replace ((hs.armed a hlive).mp hcb) hcb').notice a
      · rw [reset, hlive, if_neg (by simp), if_neg (by simpa using hsame),
          if_pos (by simpa using hcb)] at h
        cases h
        exact hs

/-- Of the expired timers the recurring ones stay, and the others lose their callbacks. -/
theorem Expired.setInv {now : UInt64} {es rest : List Nat} (hs : SetInv s)
    (happend : es ++ rest = s.timers) (h : Expired now es (s.setTimers rest) s') :
    SetInv s' where
  sorted := h.sorted
  nodup := h.sorted.nodup (less_strictTotal _)
  live b hb := by
    rw [h.live_eq]
    apply hs.live b
    rw [← happend, List.mem_append]
    rcases (h.mem_iff b).mp hb with hmem | ⟨hmem, -⟩
    · exact .inr hmem
    · exact .inl hmem
  armed b hb := by
    rw [h.live_eq] at hb
    have harmed := hs.armed b hb
    rw [h.mem_iff, setTimers_timers, setTimers_timer]
    rw [← happend, List.mem_append] at harmed
    by_cases hmem : b ∈ es
    · have hrest : b ∉ rest := fun h' =>
        (List.nodup_append.mp (happend ▸ hs.nodup)).2.2 b hmem b h' rfl
      rw [h.timer_eq b hmem, setTimers_timer, expiredTimer]
      have hcb := harmed.mpr (.inl hmem)
      by_cases hr : (s.timer b).recurring = true
      · simp [Timer.setNext, hcb, hmem, hr]
      · simp [Timer.clearCb, hrest, hr]
    · rw [h.timer_other b hmem, setTimers_timer, harmed]
      simp [hmem]

theorem SetInv.detectClockRollover (hs : SetInv s) (now : UInt64) :
    SetInv (s.detectClockRollover now).2 := ⟨hs.sorted, hs.nodup, hs.live, hs.armed⟩

/-- `listExpiredCb` does nothing but note the time, or goes through what has expired. -/
theorem listExpiredCb_cases (hs : SetInv s) {now : UInt64} {probe : Nat}
    {r : List (Option Nat) × TimerManager} (h : s.listExpiredCb now probe = .ok r) :
    (s.timers = [] ∧ r.2 = s) ∨ r.2 = (s.detectClockRollover now).2 ∨
      Expired now ((s.detectClockRollover now).2.expiredOf now probe (s.detectClockRollover now).1)
        ((s.detectClockRollover now).2.setTimers
          ((s.detectClockRollover now).2.unexpired now probe (s.detectClockRollover now).1)) r.2 := by
  rw [listExpiredCb] at h
  split at h
  · next hempty =>
    cases h
    exact .inl ⟨by simpa [hasTimer] using hempty, rfl⟩
  · dsimp only at h
    split at h
    · cases h
    · split at h
      · cases h
        exact .inr (.inl rfl)
      · split at h
        · cases h
        · obtain ⟨s', hrun, hexp⟩ := expire_expired now (hs.detectClockRollover now) probe
            (s.detectClockRollover now).1
          rw [hrun] at h
          cases h
          exact .inr (.inr hexp)

theorem listExpiredCb_setInv (hs : SetInv s) {now : UInt64} {probe : Nat}
    {r : List (Option Nat) × TimerManager} (h : s.listExpiredCb now probe = .ok r) : SetInv r.2 := by
  rcases listExpiredCb_cases hs h with ⟨-, heq⟩ | heq | hexp
  · exact heq ▸ hs
  · exact heq ▸ hs.detectClockRollover now
  · exact hexp.setInv (hs.detectClockRollover now) (expiredOf_append _ _ _ _)

theorem getNextTimer_snd (s : TimerManager) (now : UInt64) :
    (s.getNextTimer now).2 = { s with tickled := false } := by
  rw [getNextTimer]
  dsimp only
  split
  · rfl
  · split <;> rfl

theorem getNextTimer_setInv (hs : SetInv s) (now : UInt64) : SetInv (s.getNextTimer now).2 := by
  rw [getNextTimer_snd]
  exact ⟨hs.sorted, hs.nodup, hs.live, hs.armed⟩

theorem destroy_setInv (hs : SetInv s) {a : Nat} (h : s.destroy a = .ok s') : SetInv s' := by
  rw [destroy] at h
  split at h
  · next hout =>
    cases h
    rw [Bool.and_eq_true, decide_eq_true_eq] at hout
    refine ⟨hs.sorted, hs.nodup, fun b hb => ?_, fun b hb => ?_⟩
    · have hba : b ≠ a := fun heq => hout.2 (heq ▸ hb)
      simpa [hba] using hs.live b hb
    · by_cases hba : b = a
      · simp [hba] at hb
      · exact hs.armed b (by simpa [hba] using hb)
  · cases h

end Keep

theorem step_setInv {s s' : TimerManager} {op : Op} (hs : SetInv s) (h : Step s op s') :
    SetInv s' := by
  cases op with
  | addTimer a ms cb recurring now => exact addTimer_setInv hs h
  | cancel a =>
    obtain ⟨⟨r, s₁⟩, hok, rfl⟩ := map_eq_ok.mp h
    exact cancel_setInv hs hok
  | refresh a now =>
    obtain ⟨⟨r, s₁⟩, hok, rfl⟩ := map_eq_ok.mp h
    exact refresh_setInv hs hok
  | reset a ms fromNow now =>
    obtain ⟨⟨r, s₁⟩, hok, rfl⟩ := map_eq_ok.mp h
    exact reset_setInv hs hok
  | getNextTimer now =>
    cases h
    exact getNextTimer_setInv hs now
  | listExpiredCb now probe =>
    obtain ⟨r, hok, rfl⟩ := map_eq_ok.mp h
    exact listExpiredCb_setInv hs hok
  | destroy a => exact destroy_setInv hs h

/-- No operation fails but for want of its timer: what is looked for in the set is there, and
no `m_next` is changed inside of it. -/
def Faultless (s : TimerManager) : Prop := ∀ op f, s.step op = .error f → f = .disabled

theorem listExpiredCb_faultless {s : TimerManager} (hs : SetInv s) {now : UInt64} {probe : Nat}
    {f : Fault} (h : s.listExpiredCb now probe = .error f) : f = .disabled := by
  rw [listExpiredCb] at h
  split at h
  · cases h
  · next hhas =>
    dsimp only at h
    split at h
    · next hnil =>
      have hempty : s.timers = [] := hnil
      exact absurd hempty (by simpa [hasTimer] using hhas)
    · split at h
      · cases h
      · split at h
        · cases h
          rfl
        · obtain ⟨s', hrun, -⟩ := expire_expired now (hs.detectClockRollover now) probe
            (s.detectClockRollover now).1
          rw [hrun] at h
          cases h

theorem SetInv.faultless {s : TimerManager} (hs : SetInv s) : Faultless s := by
  intro op f h
  cases op with
  | addTimer a ms cb recurring now =>
    rw [step, addTimer] at h
    split at h
    · cases h
      rfl
    · cases h
  | cancel a =>
    have hfail := map_eq_error.mp h
    rw [cancel] at hfail
    split at hfail
    · cases hfail
      rfl
    · next hlive =>
      split at hfail
      · next hcb =>
        have hok := cancel_eq hs (by simpa using hlive) hcb
        rw [cancel, if_neg hlive, if_pos hcb] at hok
        rw [hok] at hfail
        cases hfail
      · cases hfail
  | refresh a now =>
    have hfail := map_eq_error.mp h
    by_cases hlive : s.live a = true
    · by_cases hcb : (s.timer a).cb.isSome = true
      · rw [refresh_eq hs hlive hcb] at hfail
        cases hfail
      · rw [refresh, if_neg (by simp [hlive]), if_pos (by simpa using hcb)] at hfail
        cases hfail
    · rw [refresh, if_pos (by simpa using hlive)] at hfail
      cases hfail
      rfl
  | reset a ms fromNow now =>
    have hfail := map_eq_error.mp h
    by_cases hlive : s.live a = true
    · by_cases hsame : ms = (s.timer a).ms ∧ fromNow = false
      · rw [reset, if_neg (by simp [hlive]), if_pos (by simpa using hsame)] at hfail
        cases hfail
      · by_cases hcb : (s.timer a).cb.isSome = true
        · rw [reset_eq hs hlive hcb hsame] at hfail
          cases hfail
        · rw [reset, if_neg (by simp [hlive]), if_neg (by simpa using hsame),
            if_pos (by simpa using hcb)] at hfail
          cases hfail
    · rw [reset, if_pos (by simpa using hlive)] at hfail
      cases hfail
      rfl
  | getNextTimer now => cases h
  | listExpiredCb now probe => exact listExpiredCb_faultless hs (map_eq_error.mp h)
  | destroy a =>
    rw [step, destroy] at h
    split at h
    · cases h
    · cases h
      rfl

/-- In every run the set is in order, whatever the clock does. -/
theorem run_setInv (now : UInt64) (t : List (Op × TimerManager)) (run : Run Step (init now) t) :
    Always (fun s => SetInv s ∧ Faultless s) (init now) t :=
  (always_of_step (fun _ _ _ hs h => step_setInv hs h) run (setInv_init now)).mono
    (fun _ hs => ⟨hs, hs.faultless⟩)

/-- The clock goes back by more than an hour and everything expires. -/
theorem run_setInv_rollover : ∃ t, trace step (init 9000000) [.addTimer 0 500 1 true 9000000,
      .addTimer 1 200 2 false 9000000, .refresh 1 9000400, .reset 0 100 false 9000400,
      .listExpiredCb 1000000 2, .cancel 0] = .ok t ∧
    Always (fun s => SetInv s ∧ Faultless s) (init 9000000) t :=
  ⟨_, rfl, run_setInv 9000000 _ (run_of_trace [.addTimer 0 500 1 true 9000000,
    .addTimer 1 200 2 false 9000000, .refresh 1 9000400, .reset 0 100 false 9000400,
    .listExpiredCb 1000000 2, .cancel 0] rfl)⟩

end CxkFramework.TimerManager
