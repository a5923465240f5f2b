import CxkFramework.TimerSet
import Mathlib.Data.ENat.Basic

/-!
# No wake-up is lost

`getNextTimer` tells a thread how long it may sleep. A timer that comes to stand before the
one it saw is announced by `onTimerInsertedAtFront`, and `m_tickled` keeps later ones quiet until
the thread has looked again. `refresh` and the recurring timers of `listExpiredCb` announce
nothing: they only ever move a timer later, as `m_next` is `m_ms` after some time in the past.
-/

namespace CxkFramework.TimerManager

open OrderedSet Runs

/-- What the last `getNextTimer` saw, how many announcements there were before it, and the
time. -/
structure Watch where
  clock : UInt64
  seen : ℕ∞
  notifications : Nat

def due (s : TimerManager) (a : Nat) : ℕ∞ := (s.timer a).next.toNat

/-- The time the first timer is due. -/
def earliest (s : TimerManager) : ℕ∞ :=
  match s.timers with
  | [] => ⊤
  | a :: _ => s.due a

namespace Watch

/-- `getNextTimer` was never called. -/
def init (now : UInt64) : Watch := ⟨now, ⊤, 0⟩

def after (w : Watch) (s : TimerManager) : Op → Watch
  | .getNextTimer now => ⟨now, s.earliest, s.notifications⟩
  | .addTimer _ _ _ _ now | .refresh _ now | .reset _ _ _ now | .listExpiredCb now _ =>
    { w with clock := now }
  | .cancel _ | .destroy _ => w

end Watch

/-- A step of the manager, watched. -/
def watchedStep (x : TimerManager × Watch) (op : Op) : Except Fault (TimerManager × Watch) :=
  (x.1.step op).map (fun s => (s, x.2.after x.1 op))

def WatchedStep (x : TimerManager × Watch) (op : Op) (y : TimerManager × Watch) : Prop :=
  watchedStep x op = .ok y

/-- `now + ms` is less than `2 ^ 64`. -/
def NoWrap (now ms : UInt64) : Prop := now.toNat + ms.toNat < 2 ^ 64

instance (now ms : UInt64) : Decidable (NoWrap now ms) := inferInstanceAs (Decidable (_ < _))

/-- The clock does not go back, and no time that is computed from it wraps. -/
def Steady (x : TimerManager × Watch) : Op → Prop
  | .addTimer _ ms _ _ now => x.2.clock ≤ now ∧ NoWrap now ms
  | .refresh a now => x.2.clock ≤ now ∧ NoWrap now (x.1.timer a).ms
  | .reset _ ms _ now => x.2.clock ≤ now ∧ NoWrap now ms
  | .getNextTimer now => x.2.clock ≤ now
  | .listExpiredCb now _ => x.2.clock ≤ now ∧ ∀ a ∈ x.1.timers, NoWrap now (x.1.timer a).ms
  | .cancel _ | .destroy _ => True

instance (x : TimerManager × Watch) : ∀ op, Decidable (Steady x op)
  | .addTimer _ ms _ _ now => inferInstanceAs (Decidable (x.2.clock ≤ now ∧ NoWrap now ms))
  | .refresh a now => inferInstanceAs (Decidable (x.2.clock ≤ now ∧ NoWrap now (x.1.timer a).ms))
  | .reset _ ms _ now => inferInstanceAs (Decidable (x.2.clock ≤ now ∧ NoWrap now ms))
  | .getNextTimer now => inferInstanceAs (Decidable (x.2.clock ≤ now))
  | .listExpiredCb now _ => inferInstanceAs
      (Decidable (x.2.clock ≤ now ∧ ∀ a ∈ x.1.timers, NoWrap now (x.1.timer a).ms))
  | .cancel _ | .destroy _ => isTrue trivial

/-- Somebody was told since the last `getNextTimer`, or no timer is due before the one it
saw. -/
def NoLostWakeUp (x : TimerManager × Watch) : Prop :=
  (x.1.tickled = true ∧ x.2.notifications < x.1.notifications) ∨
    ∀ a ∈ x.1.timers, x.2.seen ≤ x.1.due a

/-! ## The invariant -/

/-- `m_next` is `m_ms` after a time that is past. -/
structure Begun (clock : UInt64) (t : Timer) : Prop where
  ms_le : t.ms.toNat ≤ t.next.toNat
  le_clock : t.next.toNat ≤ clock.toNat + t.ms.toNat

structure WakeInv (s : TimerManager) (w : Watch) : Prop where
  set : SetInv s
  begun : ∀ a ∈ s.timers, Begun w.clock (s.timer a)
  previousTime_le : s.previousTime.toNat ≤ w.clock.toNat
  notifications_le : w.notifications ≤ s.notifications
  told : s.tickled = true → w.notifications < s.notifications
  late : s.tickled = false → ∀ a ∈ s.timers, w.seen ≤ s.due a

theorem WakeInv.noLostWakeUp {s : TimerManager} {w : Watch} (h : WakeInv s w) :
    NoLostWakeUp (s, w) := by
  cases htick : s.tickled with
  | true => exact .inl ⟨htick, h.told htick⟩
  | false => exact .inr (h.late htick)

theorem wakeInv_init (now : UInt64) : WakeInv (init now) (Watch.init now) where
  set := setInv_init now
  begun a ha := by cases ha
  previousTime_le := le_rfl
  notifications_le := le_rfl
  told h := by cases h
  late _ a ha := by cases ha

section Time

variable {clock now ms : UInt64} {t : Timer}

theorem add_toNat (h : NoWrap now ms) : (now + ms).toNat = now.toNat + ms.toNat := by
  rw [UInt64.toNat_add]
  exact Nat.mod_eq_of_lt h

theorem Begun.mono (h : Begun clock t) (hle : clock ≤ now) : Begun now t := by
  have hle := UInt64.le_iff_toNat_le.mp hle
  exact ⟨h.ms_le, by have := h.le_clock; omega⟩

/-- A timer that starts now. -/
theorem begun_now (h : NoWrap now t.ms) : Begun now (t.setNext (now + t.ms)) := by
  refine ⟨?_, ?_⟩
  · change t.ms.toNat ≤ (now + t.ms).toNat
    rw [add_toNat h]
    omega
  · change (now + t.ms).toNat ≤ now.toNat + t.ms.toNat
    rw [add_toNat h]

/-- To start again now is to move on. -/
theorem Begun.le_now (h : Begun clock t) (hle : clock ≤ now) (hwrap : NoWrap now t.ms) :
    t.next.toNat ≤ (now + t.ms).toNat := by
  have hle := UInt64.le_iff_toNat_le.mp hle
  have hclock := h.le_clock
  rw [add_toNat hwrap]
  omega

/-- `reset` counts from now or from the time the timer was started. -/
theorem Begun.retimed (h : Begun clock t) (hle : clock ≤ now) (hwrap : NoWrap now ms)
    (fromNow : Bool) : Begun now (retimed t ms fromNow now) := by
  have hle := UInt64.le_iff_toNat_le.mp hle
  have hstart : (if fromNow then now else t.next - t.ms).toNat ≤ now.toNat := by
    split
    · exact le_rfl
    · rw [UInt64.toNat_sub_of_le _ _ (UInt64.le_iff_toNat_le.mpr h.ms_le)]
      have hclock := h.le_clock
      omega
  have hwrap' : NoWrap (if fromNow then now else t.next - t.ms) ms := by
    rw [NoWrap] at hwrap ⊢
    omega
  refine ⟨?_, ?_⟩
  · change ms.toNat ≤ ((if fromNow then now else t.next - t.ms) + ms).toNat
    rw [add_toNat hwrap']
    omega
  · change ((if fromNow then now else t.next - t.ms) + ms).toNat ≤ now.toNat + ms.toNat
    rw [add_toNat hwrap']
    omega

end Time

/-! ## The steps -/

section Steps

variable {s s' : TimerManager} {w : Watch} {a : Nat} {now : UInt64}

theorem head_le {b : Nat} (hs : Sorted s.less s.timers) (hhead : s.timers.head? = some b)
    (ha : a ∈ s.timers) : s.due b ≤ s.due a := by
  cases hl : s.timers with
  | nil =>
    rw [hl] at ha
    cases ha
  | cons c l =>
    rw [hl] at hhead ha hs
    cases hhead
    rcases List.mem_cons.mp ha with rfl | hmem
    · exact le_rfl
    · have hless := (less_iff s b a).mp ((List.pairwise_cons.mp hs).1 a hmem)
      exact Nat.cast_le.mpr (by omega)

/-- The others stand as they were when a timer is put into the set. -/
structure Others (s s₀ : TimerManager) (a : Nat) : Prop where
  sorted : Sorted s₀.less s₀.timers
  not_mem : a ∉ s₀.timers
  mem : ∀ b ∈ s₀.timers, b ∈ s.timers
  timer_eq : s₀.timer = s.timer
  tickled_eq : s₀.tickled = s.tickled
  previousTime_eq : s₀.previousTime = s.previousTime
  notifications_eq : s₀.notifications = s.notifications

theorem others_without (hs : SetInv s) : Others s (s.without a) a :=
  ⟨sorted_without hs.sorted, not_mem_without hs.nodup, fun _ hb => ((mem_without hs.nodup).mp hb).2,
    rfl, rfl, rfl, rfl⟩

/-- What is true of the others after a timer was put in. -/
theorem Others.forall_put {s₀ : TimerManager} (ho : Others s s₀ a) {t : Timer} {P : Timer → Prop}
    (ht : P t) (hs : ∀ b ∈ s.timers, P (s.timer b)) :
    ∀ b ∈ (s₀.put a t).timers, P ((s₀.put a t).timer b) := by
  intro b hb
  by_cases hba : b = a
  · subst hba
    rwa [put_self]
  · rcases (mem_put ho.sorted ho.not_mem).mp hb with heq | hmem
    · exact absurd heq hba
    · rw [put_of_ne hba, ho.timer_eq]
      exact hs b (ho.mem b hmem)

/-- A timer is put in no earlier than what was seen. -/
theorem WakeInv.put {s₀ : TimerManager} (h : WakeInv s w) (ho : Others s s₀ a) {t : Timer}
    (hset : SetInv (s₀.put a t)) (hle : w.clock ≤ now) (ht : Begun now t)
    (hlate : s.tickled = false → w.seen ≤ (t.next.toNat : ℕ∞)) :
    WakeInv (s₀.put a t) { w with clock := now } where
  set := hset
  begun := ho.forall_put ht (fun b hb => (h.begun b hb).mono hle)
  previousTime_le := by
    have hprev := h.previousTime_le
    have hle := UInt64.le_iff_toNat_le.mp hle
    change s₀.previousTime.toNat ≤ now.toNat
    rw [ho.previousTime_eq]
    omega
  notifications_le := le_of_le_of_eq h.notifications_le ho.notifications_eq.symm
  told htick := lt_of_lt_of_eq (h.told (ho.tickled_eq ▸ htick)) ho.notifications_eq.symm
  late htick := by
    have htick : s.tickled = false := ho.tickled_eq ▸ htick
    exact ho.forall_put (P := fun t => w.seen ≤ (t.next.toNat : ℕ∞)) (hlate htick) (h.late htick)

/-- A timer is put in anywhere, and announced when it is the first. -/
theorem WakeInv.notice {s₀ : TimerManager} (h : WakeInv s w) (ho : Others s s₀ a) {t : Timer}
    (hset : SetInv (s₀.put a t)) (hle : w.clock ≤ now) (ht : Begun now t) :
    WakeInv ((s₀.put a t).notice a) { w with clock := now } := by
  by_cases hfront : (s₀.put a t).timers.head? = some a ∧ (s₀.put a t).tickled = false
  · have hcond : ((s₀.put a t).timers.head? = some a && !(s₀.put a t).tickled) = true := by
      simp [hfront.1, hfront.2]
    have hnote := hset.notice a
    rw [TimerManager.notice, if_pos hcond] at hnote ⊢
    have hcount := h.notifications_le
    have hsame : (s₀.put a t).notifications = s.notifications := ho.notifications_eq
    refine ⟨hnote, ho.forall_put ht (fun b hb => (h.begun b hb).mono hle), ?_, ?_, ?_, ?_⟩
    · have hprev := h.previousTime_le
      have hle := UInt64.le_iff_toNat_le.mp hle
      change s₀.previousTime.toNat ≤ now.toNat
      rw [ho.previousTime_eq]
      omega
    · change w.notifications ≤ (s₀.put a t).notifications + 1
      omega
    · intro _
      change w.notifications < (s₀.put a t).notifications + 1
      omega
    · intro htick
      cases htick
  · have hcond : ¬((s₀.put a t).timers.head? = some a && !(s₀.put a t).tickled) = true := by
      simpa using hfront
    rw [TimerManager.notice, if_neg hcond]
    refine h.put ho hset hle ht (fun htick => ?_)
    -- some other timer stands before it
    have hmem : a ∈ (s₀.put a t).timers := (mem_put ho.sorted ho.not_mem).mpr (.inl rfl)
    obtain ⟨b, hb⟩ : ∃ b, (s₀.put a t).timers.head? = some b := by
      cases hl : (s₀.put a t).timers with
      | nil =>
        rw [hl] at hmem
        cases hmem
      | cons b l => exact ⟨b, rfl⟩
    have htick₀ : (s₀.put a t).tickled = false := ho.tickled_eq.trans htick
    have hba : b ≠ a := fun heq => hfront ⟨heq ▸ hb, htick₀⟩
    have hbmem : b ∈ s₀.timers := by
      have hb' := List.mem_of_mem_head? hb
      exact ((mem_put ho.sorted ho.not_mem).mp hb').resolve_left hba
    have hle' := head_le hset.sorted hb hmem
    rw [due, due, put_self, put_of_ne hba, ho.timer_eq] at hle'
    exact (h.late htick b (ho.mem b hbmem)).trans hle'

/-- Time goes on, and some timers leave the set. -/
theorem WakeInv.fewer (h : WakeInv s w) {w' : Watch} (hset : SetInv s') (hle : w.clock ≤ w'.clock)
    (hseen : w'.seen = w.seen) (hcount : w'.notifications = w.notifications)
    (hmem : ∀ b ∈ s'.timers, b ∈ s.timers ∧ s'.timer b = s.timer b)
    (hprev : s'.previousTime.toNat ≤ w'.clock.toNat) (htick : s'.tickled = s.tickled)
    (hnotes : s'.notifications = s.notifications) : WakeInv s' w' where
  set := hset
  begun b hb := by
    obtain ⟨hb', heq⟩ := hmem b hb
    exact heq ▸ (h.begun b hb').mono hle
  previousTime_le := hprev
  notifications_le := hcount ▸ hnotes ▸ h.notifications_le
  told ht := hcount ▸ hnotes ▸ h.told (htick ▸ ht)
  late ht b hb := by
    obtain ⟨hb', heq⟩ := hmem b hb
    rw [due, heq, hseen]
    exact h.late (htick ▸ ht) b hb'

theorem WakeInv.clock (h : WakeInv s w) (hle : w.clock ≤ now) : WakeInv s { w with clock := now } := by
  refine h.fewer h.set hle rfl rfl (fun b hb => ⟨hb, rfl⟩) ?_ rfl rfl
  have hprev := h.previousTime_le
  have hle := UInt64.le_iff_toNat_le.mp hle
  change s.previousTime.toNat ≤ now.toNat
  omega

theorem addTimer_wakeInv (h : WakeInv s w) {ms : UInt64} {cb : Nat} {recurring : Bool}
    (hle : w.clock ≤ now) (hwrap : NoWrap now ms)
    (hok : s.addTimer a ms (some cb) recurring now = .ok s') :
    WakeInv s' { w with clock := now } := by
  have hset := addTimer_setInv h.set hok
  rw [addTimer] at hok
  split at hok
  · cases hok
  · next hdead =>
    cases hok
    have ha : a ∉ s.timers := fun hmem => hdead (h.set.live a hmem)
    have ho : Others s { s with live := Function.update s.live a true } a :=
      ⟨h.set.sorted, ha, fun _ hb => hb, rfl, rfl, rfl, rfl⟩
    rw [addTimerLocked_eq] at hset ⊢
    refine h.notice ho (hset.of_notice) hle ?_
    exact begun_now (t := ⟨recurring, ms, now + ms, some cb⟩) hwrap

theorem cancel_wakeInv (h : WakeInv s w) {r : Bool} (hok : s.cancel a = .ok (r, s')) :
    WakeInv s' w := by
  have hset := cancel_setInv h.set hok
  cases hlive : s.live a with
  | false =>
    rw [cancel, hlive] at hok
    cases hok
  | true =>
    by_cases hcb : (s.timer a).cb.isSome = true
    · rw [cancel_eq h.set hlive hcb] at hok
      cases hok
      refine h.fewer hset UInt64.le_rfl rfl rfl (fun b hb => ?_) h.previousTime_le rfl rfl
      obtain ⟨hba, hmem⟩ := (mem_without (s := s.setTimer a (s.timer a).clearCb) h.set.nodup).mp hb
      exact ⟨hmem, setTimer_of_ne s _ hba⟩
    · rw [cancel, hlive, if_neg (by simp), if_neg hcb] at hok
      cases hok
      exact h

theorem destroy_wakeInv (h : WakeInv s w) (hok : s.destroy a = .ok s') : WakeInv s' w := by
  have hset := destroy_setInv h.set hok
  rw [destroy] at hok
  split at hok
  · cases hok
    exact h.fewer hset UInt64.le_rfl rfl rfl (fun b hb => ⟨hb, rfl⟩) h.previousTime_le rfl rfl
  · cases hok

theorem refresh_wakeInv (h : WakeInv s w) {r : Bool} (hle : w.clock ≤ now)
    (hwrap : NoWrap now (s.timer a).ms) (hok : s.refresh a now = .ok (r, s')) :
    WakeInv s' { w with clock := now } := by
  have hset := refresh_setInv h.set hok
  cases hlive : s.live a with
  | false =>
    rw [refresh, hlive] at hok
    cases hok
  | true =>
    by_cases hcb : (s.timer a).cb.isSome = true
    · rw [refresh_eq h.set hlive hcb] at hok
      cases hok
      have hmem := (h.set.armed a hlive).mp hcb
      refine h.put (others_without h.set) hset hle (begun_now hwrap) (fun htick => ?_)
      exact (h.late htick a hmem).trans (Nat.cast_le.mpr ((h.begun a hmem).le_now hle hwrap))
    · rw [refresh, hlive, if_neg (by simp), if_pos (by simpa using hcb)] at hok
      cases hok
      exact h.clock hle

theorem reset_wakeInv (h : WakeInv s w) {ms : UInt64} {fromNow : Bool} {r : Bool}
    (hle : w.clock ≤ now) (hwrap : NoWrap now ms) (hok : s.reset a ms fromNow now = .ok (r, s')) :
    WakeInv s' { w with clock := now } := by
  have hset := reset_setInv h.set hok
  cases hlive : s.live a with
  | false =>
    rw [reset, hlive] at hok
    cases hok
  | true =>
    by_cases hsame : ms = (s.timer a).ms ∧ fromNow = false
    · rw [reset, hlive, if_neg (by simp), if_pos (by simpa using hsame)] at hok
      cases hok
      exact h.clock hle
    · by_cases hcb : (s.timer a).cb.isSome = true
      · rw [reset_eq h.set hlive hcb hsame] at hok
        cases hok
        have hmem := (h.set.armed a hlive).mp hcb
        exact h.notice (others_without h.set) hset.of_notice hle
          ((h.begun a hmem).retimed hle hwrap fromNow)
      · rw [reset, hlive, if_neg (by simp), if_neg (by simpa using hsame),
          if_pos (by simpa using hcb)] at hok
        cases hok
        exact h.clock hle

theorem getNextTimer_wakeInv (h : WakeInv s w) (hle : w.clock ≤ now) :
    WakeInv (s.getNextTimer now).2 ⟨now, s.earliest, s.notifications⟩ := by
  have hset := getNextTimer_setInv h.set now
  rw [getNextTimer_snd] at hset ⊢
  refine ⟨hset, fun b hb => (h.begun b hb).mono hle, ?_, le_rfl, fun ht => (by cases ht), ?_⟩
  · have hprev := h.previousTime_le
    have hle := UInt64.le_iff_toNat_le.mp hle
    change s.previousTime.toNat ≤ now.toNat
    omega
  · intro _ b hb
    change s.earliest ≤ s.due b
    have hb : b ∈ s.timers := hb
    rw [earliest]
    split
    · next hnil =>
      rw [hnil] at hb
      cases hb
    · next c l hl => exact head_le h.set.sorted (by rw [hl]; rfl) hb

theorem listExpiredCb_wakeInv (h : WakeInv s w) {probe : Nat} {r : List (Option Nat) × TimerManager}
    (hle : w.clock ≤ now) (hwrap : ∀ a ∈ s.timers, NoWrap now (s.timer a).ms)
    (hok : s.listExpiredCb now probe = .ok r) : WakeInv r.2 { w with clock := now } := by
  have hset := listExpiredCb_setInv h.set hok
  rcases listExpiredCb_cases h.set hok with ⟨-, heq⟩ | heq | hexp
  · exact heq ▸ h.clock hle
  · rw [heq] at hset ⊢
    exact h.fewer hset hle rfl rfl (fun b hb => ⟨hb, rfl⟩) le_rfl rfl rfl
  · have happend : _ = s.timers := (s.detectClockRollover now).2.expiredOf_append now probe
      (s.detectClockRollover now).1
    generalize (s.detectClockRollover now).2.expiredOf _ _ _ = es at hexp happend
    generalize (s.detectClockRollover now).2.unexpired _ _ _ = rest at hexp happend
    have hin : ∀ b, b ∈ es → b ∈ s.timers := by
      intro b hb
      have hmem := List.mem_append_left rest hb
      rwa [happend] at hmem
    have hother : ∀ b ∈ r.2.timers, b ∉ es → b ∈ s.timers ∧ r.2.timer b = s.timer b := by
      intro b hb hnot
      refine ⟨?_, hexp.timer_other b hnot⟩
      rcases (hexp.mem_iff b).mp hb with hmem | ⟨hmem, -⟩
      · have hmem : b ∈ es ++ rest := List.mem_append_right es hmem
        rwa [happend] at hmem
      · exact absurd hmem hnot
    have hagain : ∀ b ∈ r.2.timers, b ∈ es →
        r.2.timer b = (s.timer b).setNext (now + (s.timer b).ms) := by
      intro b hb hmem
      rw [hexp.timer_eq b hmem, expiredTimer]
      rcases (hexp.mem_iff b).mp hb with hrest | ⟨-, hr⟩
      · exact absurd rfl ((List.nodup_append.mp (happend ▸ h.set.nodup)).2.2 b hmem b hrest)
      · rw [if_pos hr]
        rfl
    refine ⟨hset, fun b hb => ?_, hexp.previousTime_eq ▸ le_rfl, hexp.notifications_eq ▸
      h.notifications_le, fun ht => ?_, fun ht b hb => ?_⟩
    · by_cases hmem : b ∈ es
      · rw [hagain b hb hmem]
        exact begun_now (hwrap b (hin b hmem))
      · obtain ⟨hb', heq⟩ := hother b hb hmem
        exact heq ▸ (h.begun b hb').mono hle
    · exact hexp.notifications_eq ▸ h.told (hexp.tickled_eq ▸ ht)
    · have ht : s.tickled = false := hexp.tickled_eq ▸ ht
      rw [due]
      by_cases hmem : b ∈ es
      · rw [hagain b hb hmem]
        have hb' := hin b hmem
        exact (h.late ht b hb').trans (Nat.cast_le.mpr ((h.begun b hb').le_now hle (hwrap b hb')))
      · obtain ⟨hb', heq⟩ := hother b hb hmem
        rw [heq]
        exact h.late ht b hb'

end Steps

theorem step_wakeInv {x y : TimerManager × Watch} {op : Op} (h : WakeInv x.1 x.2)
    (hok : Steady x op) (hstep : WatchedStep x op y) : WakeInv y.1 y.2 := by
  obtain ⟨s, w⟩ := x
  rw [WatchedStep, watchedStep, map_eq_ok] at hstep
  obtain ⟨s', hstep, rfl⟩ := hstep
  cases op with
  | addTimer a ms cb recurring now => exact addTimer_wakeInv h hok.1 hok.2 hstep
  | cancel a =>
    obtain ⟨⟨r, s₁⟩, hrun, rfl⟩ := map_eq_ok.mp hstep
    exact cancel_wakeInv h hrun
  | refresh a now =>
    obtain ⟨⟨r, s₁⟩, hrun, rfl⟩ := map_eq_ok.mp hstep
    exact refresh_wakeInv h hok.1 hok.2 hrun
  | reset a ms fromNow now =>
    obtain ⟨⟨r, s₁⟩, hrun, rfl⟩ := map_eq_ok.mp hstep
    exact reset_wakeInv h hok.1 hok.2 hrun
  | getNextTimer now =>
    cases hstep
    exact getNextTimer_wakeInv h hok
  | listExpiredCb now probe =>
    obtain ⟨r, hrun, rfl⟩ := map_eq_ok.mp hstep
    exact listExpiredCb_wakeInv h hok.1 hok.2 hrun
  | destroy a => exact destroy_wakeInv h hstep

/-- In every run with a steady clock no wake-up is lost. -/
theorem run_noLostWakeUp (now : UInt64) (t : List (Op × TimerManager × Watch))
    (run : Run WatchedStep (init now, Watch.init now) t)
    (hok : Meets Steady (init now, Watch.init now) t) :
    Always NoLostWakeUp (init now, Watch.init now) t :=
  (always_of_meets (I := fun x => WakeInv x.1 x.2) (fun _ _ _ h hok hstep => step_wakeInv h hok hstep)
    run (wakeInv_init now) hok).mono (fun _ h => h.noLostWakeUp)

/-- A thread sleeps, an earlier timer is announced, and a recurring one comes again. -/
theorem run_noLostWakeUp_recurring : ∃ t, trace watchedStep (init 1000, Watch.init 1000)
      [.addTimer 0 500 1 true 1000, .getNextTimer 1001, .addTimer 1 200 2 false 1100,
        .reset 0 100 false 1150, .refresh 0 1160, .listExpiredCb 1400 2] = .ok t ∧
    Always NoLostWakeUp (init 1000, Watch.init 1000) t := by
  refine ⟨_, rfl, run_noLostWakeUp 1000 _ (run_of_trace
    [.addTimer 0 500 1 true 1000, .getNextTimer 1001, .addTimer 1 200 2 false 1100,
      .reset 0 100 false 1150, .refresh 0 1160, .listExpiredCb 1400 2] rfl) ?_⟩
  decide

end CxkFramework.TimerManager
