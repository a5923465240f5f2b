import CxkFramework.TimerExpiry

/-!
# Timers under several threads

The operations as steps that any thread may take at any time. `listExpiredCb` is two of them,
and between the check and the write lock a thread waits with the clock reading it came with.
What an operation does to the timers is said once here, whether or not their callbacks are
null: `Placed` for the one that puts a timer into the set, `Removed` for `cancel`.
-/

namespace CxkFramework.TimerManager

open OrderedSet Runs

/-- The set is in order and a timer that has a callback is in it. -/
structure Ordered (s : TimerManager) : Prop where
  sorted : Sorted s.less s.timers
  live : ∀ a ∈ s.timers, s.live a = true
  armed : ∀ a, s.live a = true → (s.timer a).cb.isSome = true → a ∈ s.timers

theorem SetInv.ordered {s : TimerManager} (hs : SetInv s) : Ordered s :=
  ⟨hs.sorted, hs.live, fun a hlive => (hs.armed a hlive).mp⟩

theorem ordered_init (now : UInt64) : Ordered (init now) := (setInv_init now).ordered

/-- In the set and with a callback. -/
def Pending (s : TimerManager) (a : Nat) : Prop := a ∈ s.timers ∧ (s.timer a).cb.isSome = true

instance (s : TimerManager) (a : Nat) : Decidable (Pending s a) :=
  inferInstanceAs (Decidable (_ ∧ _))

/-! ## What each operation does -/

/-- The timer at one address is set and is in the set. -/
structure Placed (s s' : TimerManager) (a : Nat) (t : Timer) : Prop where
  sorted : Sorted s'.less s'.timers
  mem_iff : ∀ b, b ∈ s'.timers ↔ b = a ∨ b ∈ s.timers
  timer_self : s'.timer a = t
  timer_other : ∀ b, b ≠ a → s'.timer b = s.timer b
  live_self : s'.live a = true
  live_other : ∀ b, b ≠ a → s'.live b = s.live b

/-- The timer at one address lost its callback and its place. -/
structure Removed (s s' : TimerManager) (a : Nat) : Prop where
  sorted : Sorted s'.less s'.timers
  timers_eq : s'.timers = s.timers.erase a
  mem_iff : ∀ b, b ∈ s'.timers ↔ b ≠ a ∧ b ∈ s.timers
  timer_self : s'.timer a = (s.timer a).clearCb
  timer_other : ∀ b, b ≠ a → s'.timer b = s.timer b
  live_eq : s'.live = s.live
  previousTime_eq : s'.previousTime = s.previousTime

section Spec

variable {s s' : TimerManager} {a : Nat} {t : Timer} {now : UInt64}

theorem less_notice (s : TimerManager) (a : Nat) : (s.notice a).less = s.less :=
  less_congr (notice_timer s a)

theorem Placed.notice (h : Placed s s' a t) (b : Nat) : Placed s (s'.notice b) a t where
  sorted := by
    rw [less_notice, notice_timers]
    exact h.sorted
  mem_iff c := by rw [notice_timers, h.mem_iff]
  timer_self := by rw [notice_timer, h.timer_self]
  timer_other c hc := by rw [notice_timer, h.timer_other c hc]
  live_self := by rw [notice_live, h.live_self]
  live_other c hc := by rw [notice_live, h.live_other c hc]

/-- Taken out, changed and put back. -/
theorem placed_replace (hs : Sorted s.less s.timers) (ha : a ∈ s.timers) (hlive : s.live a = true) :
    Placed s ((s.without a).put a t) a t := by
  have hnodup := hs.nodup (less_strictTotal s)
  have hout := not_mem_without (a := a) hnodup
  refine ⟨sorted_put (sorted_without hs) hout, fun b => ?_, put_self, fun b hb => put_of_ne hb,
    hlive, fun _ _ => rfl⟩
  rw [mem_put (sorted_without hs) hout, mem_without hnodup]
  by_cases hb : b = a
  · simp [hb, ha]
  · simp [hb]

theorem addTimer_spec (hs : Ordered s) {ms : UInt64} {cb : Option Nat} {recurring : Bool}
    (h : s.addTimer a ms cb recurring now = .ok s') :
    s.live a = false ∧ Placed s s' a { recurring, ms, next := now + ms, cb } := by
  rw [addTimer] at h
  split at h
  · cases h
  · next hdead =>
    cases h
    have hout : a ∉ s.timers := fun hmem => hdead (hs.live a hmem)
    have hput : Placed s (({ s with live := Function.update s.live a true } : TimerManager).put a
        { recurring, ms, next := now + ms, cb }) a { recurring, ms, next := now + ms, cb } := by
      refine ⟨sorted_put (s := { s with live := Function.update s.live a true }) hs.sorted hout,
        fun b => mem_put (s := { s with live := Function.update s.live a true }) hs.sorted hout,
        put_self, fun b hb => put_of_ne hb, ?_, fun b hb => ?_⟩
      · exact Function.update_self a true s.live
      · exact Function.update_of_ne hb true s.live
    rw [addTimerLocked_eq]
    exact ⟨by simpa using hdead, hput.notice a⟩

theorem cancel_spec (hs : Ordered s) {r : Bool} (h : s.cancel a = .ok (r, s')) :
    s.live a = true ∧ ((r = true ∧ Pending s a ∧ Removed s s' a) ∨
      (r = false ∧ ¬Pending s a ∧ s' = s)) := by
  cases hlive : s.live a with
  | false =>
    rw [cancel, hlive] at h
    cases h
  | true =>
    refine ⟨rfl, ?_⟩
    by_cases hcb : (s.timer a).cb.isSome = true
    · have ha := hs.armed a hlive hcb
      rw [cancel_mem hs.sorted ha hlive hcb] at h
      cases h
      have hless : (s.setTimer a (s.timer a).clearCb).less = s.less := less_setTimer rfl
      refine .inl ⟨rfl, ⟨ha, hcb⟩, ⟨sorted_without (hless ▸ hs.sorted), rfl, fun b => ?_,
        setTimer_self s a _, fun b hb => setTimer_of_ne s _ hb, rfl, rfl⟩⟩
      exact mem_without (hs.sorted.nodup (less_strictTotal s))
    · rw [cancel, hlive, if_neg (by simp), if_neg hcb] at h
      cases h
      exact .inr ⟨rfl, fun hp => hcb hp.2, rfl⟩

theorem refresh_spec (hs : Ordered s) {r : Bool} (h : s.refresh a now = .ok (r, s')) :
    s.live a = true ∧
      ((r = true ∧ Pending s a ∧ Placed s s' a ((s.timer a).setNext (now + (s.timer a).ms))) ∨
        (r = false ∧ ¬Pending s a ∧ s' = s)) := by
  cases hlive : s.live a with
  | false =>
    rw [refresh, hlive] at h
    cases h
  | true =>
    refine ⟨rfl, ?_⟩
    by_cases hcb : (s.timer a).cb.isSome = true
    · have ha := hs.armed a hlive hcb
      rw [refresh_mem hs.sorted ha hlive hcb] at h
      cases h
      exact .inl ⟨rfl, ⟨ha, hcb⟩, placed_replace hs.sorted ha hlive⟩
    · rw [refresh, hlive, if_neg (by simp), if_pos (by simpa using hcb)] at h
      cases h
      exact .inr ⟨rfl, fun hp => hcb hp.2, rfl⟩

theorem resetLocked_spec (hs : Ordered s) {ms : UInt64} {fromNow r : Bool}
    (h : s.resetLocked a ms fromNow now = .ok (r, s')) :
    s.live a = true ∧
      ((r = true ∧ Pending s a ∧ Placed s s' a (retimed (s.timer a) ms fromNow now)) ∨
        (r = false ∧ ¬Pending s a ∧ s' = s)) := by
  cases hlive : s.live a with
  | false =>
    rw [resetLocked, hlive] at h
    cases h
  | true =>
    refine ⟨rfl, ?_⟩
    by_cases hcb : (s.timer a).cb.isSome = true
    · have ha := hs.armed a hlive hcb
      rw [resetLocked_mem hs.sorted ha hlive hcb] at h
      cases h
      exact .inl ⟨rfl, ⟨ha, hcb⟩, (placed_replace hs.sorted ha hlive).notice a⟩
    · rw [resetLocked, hlive, if_neg (by simp), if_pos (by simpa using hcb)] at h
      cases h
      exact .inr ⟨rfl, fun hp => hcb hp.2, rfl⟩

theorem destroy_spec (h : s.destroy a = .ok s') :
    a ∉ s.timers ∧ s'.timers = s.timers ∧ s'.timer = s.timer ∧
      s'.previousTime = s.previousTime ∧ s'.live a = false ∧
      ∀ b, b ≠ a → s'.live b = s.live b := by
  rw [destroy] at h
  split at h
  · next hout =>
    cases h
    rw [Bool.and_eq_true, decide_eq_true_eq] at hout
    exact ⟨hout.2, rfl, rfl, rfl, Function.update_self a false s.live,
      fun b hb => Function.update_of_ne hb false s.live⟩
  · cases h

/-- The write-locked half that returns has handed over what is due. -/
theorem expireLocked_spec (hs : Sorted s.less s.timers) {probe : Nat} {cbs : List (Option Nat)}
    (h : s.expireLocked now probe = .ok (cbs, s')) :
    cbs = (s.dueTimers now (s.detectClockRollover now).1).map (fun b => (s.timer b).cb) ∧
      Fired now (s.dueTimers now (s.detectClockRollover now).1) s s' ∧ s'.previousTime = now := by
  obtain ⟨-, -, hbad⟩ | ⟨-, hbad⟩ | ⟨s₁, hok, hfired⟩ := expireLocked_cases hs now probe
  · rw [hbad] at h
    cases h
  · rw [hbad] at h
    cases h
  · rw [hok] at h
    cases h
    exact ⟨rfl, hfired⟩

theorem getNextTimer_spec (s : TimerManager) (now : UInt64) :
    (s.getNextTimer now).2.timers = s.timers ∧ (s.getNextTimer now).2.timer = s.timer ∧
      (s.getNextTimer now).2.previousTime = s.previousTime ∧
      (s.getNextTimer now).2.live = s.live := by
  rw [getNextTimer_snd]
  exact ⟨rfl, rfl, rfl, rfl⟩

/-! ## The order is kept -/

theorem Placed.ordered (hs : Ordered s) (h : Placed s s' a t) : Ordered s' where
  sorted := h.sorted
  live b hb := by
    by_cases hba : b = a
    · rw [hba, h.live_self]
    · rw [h.live_other b hba]
      exact hs.live b (((h.mem_iff b).mp hb).resolve_left hba)
  armed b hlive hcb := by
    rw [h.mem_iff]
    by_cases hba : b = a
    · exact .inl hba
    · rw [h.live_other b hba] at hlive
      rw [h.timer_other b hba] at hcb
      exact .inr (hs.armed b hlive hcb)

theorem Removed.ordered (hs : Ordered s) (h : Removed s s' a) : Ordered s' where
  sorted := h.sorted
  live b hb := by
    rw [h.live_eq]
    exact hs.live b ((h.mem_iff b).mp hb).2
  armed b hlive hcb := by
    rw [h.live_eq] at hlive
    have hba : b ≠ a := by
      rintro rfl
      rw [h.timer_self] at hcb
      cases hcb
    rw [h.timer_other b hba] at hcb
    exact (h.mem_iff b).mpr ⟨hba, hs.armed b hlive hcb⟩

theorem Fired.ordered {es : List Nat} (hs : Ordered s) (hes : ∀ b ∈ es, b ∈ s.timers)
    (h : Fired now es s s') : Ordered s' where
  sorted := h.sorted
  live b hb := by
    rw [h.live_eq]
    by_cases hmem : b ∈ es
    · exact hs.live b (hes b hmem)
    · exact hs.live b ((h.untouched b hmem).2.mp hb)
  armed b hlive hcb := by
    rw [h.live_eq] at hlive
    by_cases hmem : b ∈ es
    · cases hr : (s.timer b).recurring with
      | true => exact (h.rearmed b hmem hr).1
      | false =>
        rw [(h.spent b hmem hr).2] at hcb
        cases hcb
    · obtain ⟨htimer, hset⟩ := h.untouched b hmem
      rw [htimer] at hcb
      exact hset.mpr (hs.armed b hlive hcb)

theorem Ordered.of_same (hs : Ordered s) (htimers : s'.timers = s.timers)
    (htimer : s'.timer = s.timer) (hlive : ∀ b ∈ s.timers, s'.live b = true)
    (harmed : ∀ b, s'.live b = true → s.live b = true) : Ordered s' where
  sorted := by
    rw [less_congr htimer, htimers]
    exact hs.sorted
  live b hb := hlive b (htimers ▸ hb)
  armed b hb hcb := by
    rw [htimers]
    exact hs.armed b (harmed b hb) (htimer ▸ hcb)

theorem Ordered.destroy (hs : Ordered s) (h : s.destroy a = .ok s') : Ordered s' := by
  obtain ⟨hout, htimers, htimer, -, hself, hother⟩ := destroy_spec h
  refine hs.of_same htimers htimer (fun b hb => ?_) (fun b hb => ?_)
  · rw [hother b fun hba => hout (hba ▸ hb)]
    exact hs.live b hb
  · by_cases hba : b = a
    · rw [hba, hself] at hb
      cases hb
    · rwa [hother b hba] at hb

end Spec

/-! ## Steps of the threads -/

/-- The manager, and the clock readings of the threads that have seen a timer and wait for the
write lock. -/
structure Threads where
  manager : TimerManager
  waiting : List UInt64

/-- `check` and `finish` are the two halves of `listExpiredCb`, `peek` and `resetLocked` those of
`reset`. -/
inductive Act where
  | addTimer (a : Nat) (ms : UInt64) (cb : Option Nat) (recurring : Bool) (now : UInt64)
  | cancel (a : Nat)
  | refresh (a : Nat) (now : UInt64)
  | peek (a : Nat) (ms : UInt64) (fromNow : Bool)
  | resetLocked (a : Nat) (ms : UInt64) (fromNow : Bool) (now : UInt64)
  | getNextTimer (now : UInt64)
  | check (now : UInt64)
  | finish (now : UInt64) (probe : Nat)
  | destroy (a : Nat)
  deriving DecidableEq, Repr

namespace Threads

def init (now : UInt64) : Threads := ⟨TimerManager.init now, []⟩

def act (x : Threads) : Act → Except Fault Threads
  | .addTimer a ms cb recurring now =>
    (x.manager.addTimer a ms cb recurring now).map (fun s => ⟨s, x.waiting⟩)
  | .cancel a => (x.manager.cancel a).map (fun r => ⟨r.2, x.waiting⟩)
  | .refresh a now => (x.manager.refresh a now).map (fun r => ⟨r.2, x.waiting⟩)
  | .peek a _ _ => if x.manager.live a then .ok x else .error .disabled
  | .resetLocked a ms fromNow now =>
    (x.manager.resetLocked a ms fromNow now).map (fun r => ⟨r.2, x.waiting⟩)
  | .getNextTimer now => .ok ⟨(x.manager.getNextTimer now).2, x.waiting⟩
  | .check now => .ok (if x.manager.hasTimer then ⟨x.manager, now :: x.waiting⟩ else x)
  | .finish now probe =>
    if now ∈ x.waiting then
      (x.manager.expireLocked now probe).map (fun r => ⟨r.2, x.waiting.erase now⟩)
    else .error .disabled
  | .destroy a => (x.manager.destroy a).map (fun s => ⟨s, x.waiting⟩)

def Step (x : Threads) (act : Act) (x' : Threads) : Prop := x.act act = .ok x'

/-- The timers whose callbacks a step hands over. -/
def delivered (x : Threads) : Act → List Nat
  | .finish now _ => x.manager.dueTimers now (x.manager.detectClockRollover now).1
  | _ => []

/-- All that a run hands over. -/
def deliveries : Threads → List (Act × Threads) → List Nat
  | _, [] => []
  | x, (act, x') :: t => x.delivered act ++ x'.deliveries t

/-- A timer is set to a period, from the given time or from the one it was armed at before. -/
structure Arming where
  start : Option UInt64
  ms : UInt64

/-- How a step arms the timer at one address, if it does. -/
def arms (x : Threads) (a : Nat) : Act → Option Arming
  | .addTimer b ms _ _ now => if b = a then some ⟨some now, ms⟩ else none
  | .refresh b now =>
    if b = a ∧ Pending x.manager a then some ⟨some now, (x.manager.timer a).ms⟩ else none
  | .resetLocked b ms fromNow now =>
    if b = a ∧ Pending x.manager a then some ⟨if fromNow then some now else none, ms⟩ else none
  | .finish now probe =>
    if a ∈ x.delivered (.finish now probe) ∧ (x.manager.timer a).recurring then
      some ⟨some now, (x.manager.timer a).ms⟩
    else none
  | _ => none

/-- The ways a step can treat the timer at one address. -/
inductive Touch (x : Threads) (a : Nat) (x' : Threads) : Act → Prop where
  | kept {act : Act} : a ∉ x.delivered act → x.arms a act = none →
      x'.manager.timer a = x.manager.timer a →
      (a ∈ x'.manager.timers ↔ a ∈ x.manager.timers) → Touch x a x' act
  | added {ms : UInt64} {cb : Option Nat} {recurring : Bool} {now : UInt64} :
      a ∈ x'.manager.timers → x'.manager.timer a = { recurring, ms, next := now + ms, cb } →
      Touch x a x' (.addTimer a ms cb recurring now)
  | cancelled : Pending x.manager a → a ∉ x'.manager.timers →
      x'.manager.timer a = (x.manager.timer a).clearCb → Touch x a x' (.cancel a)
  | refreshed {now : UInt64} : Pending x.manager a → a ∈ x'.manager.timers →
      x'.manager.timer a = (x.manager.timer a).setNext (now + (x.manager.timer a).ms) →
      Touch x a x' (.refresh a now)
  | retimed {ms : UInt64} {fromNow : Bool} {now : UInt64} : Pending x.manager a →
      a ∈ x'.manager.timers →
      x'.manager.timer a = TimerManager.retimed (x.manager.timer a) ms fromNow now →
      Touch x a x' (.resetLocked a ms fromNow now)
  | rearmed {now : UInt64} {probe : Nat} : a ∈ x.delivered (.finish now probe) →
      (x.manager.timer a).recurring = true → a ∈ x'.manager.timers →
      x'.manager.timer a = { x.manager.timer a with next := now + (x.manager.timer a).ms } →
      Touch x a x' (.finish now probe)
  | spent {now : UInt64} {probe : Nat} : a ∈ x.delivered (.finish now probe) →
      (x.manager.timer a).recurring = false → a ∉ x'.manager.timers →
      x'.manager.timer a = { x.manager.timer a with cb := none } →
      Touch x a x' (.finish now probe)

section

variable {x x' : Threads} {act : Act} {a : Nat}

/-- Steps on other timers, and those that change none. -/
theorem Touch.other (hd : x.delivered act = []) (harms : x.arms a act = none)
    (htimer : x'.manager.timer a = x.manager.timer a)
    (hmem : a ∈ x'.manager.timers ↔ a ∈ x.manager.timers) : Touch x a x' act :=
  .kept (by simp [hd]) harms htimer hmem

theorem act_touch (hx : Ordered x.manager) (h : Step x act x') (a : Nat) : Touch x a x' act := by
  cases act with
  | addTimer b ms cb recurring now =>
    obtain ⟨s', hok, rfl⟩ := map_eq_ok.mp h
    obtain ⟨-, hp⟩ := addTimer_spec hx hok
    by_cases hba : b = a
    · subst hba
      exact .added ((hp.mem_iff b).mpr (.inl rfl)) hp.timer_self
    · have hab := Ne.symm hba
      exact .other rfl (if_neg hba) (hp.timer_other a hab) (by simp [hp.mem_iff, hab])
  | cancel b =>
    obtain ⟨⟨r, s'⟩, hok, rfl⟩ := map_eq_ok.mp h
    obtain ⟨-, ⟨-, hpend, hr⟩ | ⟨-, -, rfl⟩⟩ := cancel_spec hx hok
    · by_cases hba : b = a
      · subst hba
        exact .cancelled hpend (fun hmem => ((hr.mem_iff b).mp hmem).1 rfl) hr.timer_self
      · have hab := Ne.symm hba
        exact .other rfl rfl (hr.timer_other a hab) (by simp [hr.mem_iff, hab])
    · exact .other rfl rfl rfl Iff.rfl
  | refresh b now =>
    obtain ⟨⟨r, s'⟩, hok, rfl⟩ := map_eq_ok.mp h
    obtain ⟨-, ⟨-, hpend, hp⟩ | ⟨-, hpend, rfl⟩⟩ := refresh_spec hx hok
    · by_cases hba : b = a
      · subst hba
        exact .refreshed hpend ((hp.mem_iff b).mpr (.inl rfl)) hp.timer_self
      · have hab := Ne.symm hba
        exact .other rfl (if_neg (hba ∘ And.left)) (hp.timer_other a hab)
          (by simp [hp.mem_iff, hab])
    · exact .other rfl (if_neg fun ⟨hb, hp⟩ => hpend (hb ▸ hp)) rfl Iff.rfl
  | peek b ms fromNow =>
    rw [Step, Threads.act] at h
    split at h
    · cases h
      exact .other rfl rfl rfl Iff.rfl
    · cases h
  | resetLocked b ms fromNow now =>
    obtain ⟨⟨r, s'⟩, hok, rfl⟩ := map_eq_ok.mp h
    obtain ⟨-, ⟨-, hpend, hp⟩ | ⟨-, hpend, rfl⟩⟩ := resetLocked_spec hx hok
    · by_cases hba : b = a
      · subst hba
        exact .retimed hpend ((hp.mem_iff b).mpr (.inl rfl)) hp.timer_self
      · have hab := Ne.symm hba
        exact .other rfl (if_neg (hba ∘ And.left)) (hp.timer_other a hab)
          (by simp [hp.mem_iff, hab])
    · exact .other rfl (if_neg fun ⟨hb, hp⟩ => hpend (hb ▸ hp)) rfl Iff.rfl
  | getNextTimer now =>
    cases h
    obtain ⟨htimers, htimer, -⟩ := getNextTimer_spec x.manager now
    exact .other rfl rfl (congrFun htimer a) (by simp [htimers])
  | check now =>
    cases h
    apply Touch.other rfl rfl
    · split <;> rfl
    · split <;> rfl
  | finish now probe =>
    rw [Step, Threads.act] at h
    split at h
    · obtain ⟨⟨cbs, s'⟩, hok, rfl⟩ := map_eq_ok.mp h
      obtain ⟨-, hf, -⟩ := expireLocked_spec hx.sorted hok
      by_cases hmem : a ∈ x.delivered (.finish now probe)
      · cases hr : (x.manager.timer a).recurring with
        | true => exact .rearmed hmem hr (hf.rearmed a hmem hr).1 (hf.rearmed a hmem hr).2
        | false => exact .spent hmem hr (hf.spent a hmem hr).1 (hf.spent a hmem hr).2
      · exact .kept hmem (if_neg fun h => hmem h.1) (hf.untouched a hmem).1
          (hf.untouched a hmem).2
    · cases h
  | destroy b =>
    obtain ⟨s', hok, rfl⟩ := map_eq_ok.mp h
    obtain ⟨-, htimers, htimer, -⟩ := destroy_spec hok
    exact .other rfl rfl (congrFun htimer a) (by simp [htimers])

theorem delivered_subset (x : Threads) (act : Act) : x.delivered act ⊆ x.manager.timers := by
  cases act with
  | finish now probe => exact (x.manager.dueTimers_sublist now _).subset
  | _ => exact List.nil_subset _

theorem delivered_nodup (hx : Ordered x.manager) (act : Act) : (x.delivered act).Nodup := by
  cases act with
  | finish now probe =>
    exact (hx.sorted.nodup (less_strictTotal _)).sublist (x.manager.dueTimers_sublist now _)
  | _ => exact List.nodup_nil

theorem act_ordered (hx : Ordered x.manager) (h : Step x act x') : Ordered x'.manager := by
  cases act with
  | addTimer b ms cb recurring now =>
    obtain ⟨s', hok, rfl⟩ := map_eq_ok.mp h
    exact (addTimer_spec hx hok).2.ordered hx
  | cancel b =>
    obtain ⟨⟨r, s'⟩, hok, rfl⟩ := map_eq_ok.mp h
    obtain ⟨-, ⟨-, -, hr⟩ | ⟨-, -, rfl⟩⟩ := cancel_spec hx hok
    · exact hr.ordered hx
    · exact hx
  | refresh b now =>
    obtain ⟨⟨r, s'⟩, hok, rfl⟩ := map_eq_ok.mp h
    obtain ⟨-, ⟨-, -, hp⟩ | ⟨-, -, rfl⟩⟩ := refresh_spec hx hok
    · exact hp.ordered hx
    · exact hx
  | peek b ms fromNow =>
    rw [Step, Threads.act] at h
    split at h
    · cases h
      exact hx
    · cases h
  | resetLocked b ms fromNow now =>
    obtain ⟨⟨r, s'⟩, hok, rfl⟩ := map_eq_ok.mp h
    obtain ⟨-, ⟨-, -, hp⟩ | ⟨-, -, rfl⟩⟩ := resetLocked_spec hx hok
    · exact hp.ordered hx
    · exact hx
  | getNextTimer now =>
    cases h
    obtain ⟨htimers, htimer, -, hlive⟩ := getNextTimer_spec x.manager now
    exact hx.of_same htimers htimer (fun b hb => by simp [hlive, hx.live b hb])
      (fun b hb => by simpa [hlive] using hb)
  | check now =>
    cases h
    split
    · exact hx
    · exact hx
  | finish now probe =>
    rw [Step, Threads.act] at h
    split at h
    · obtain ⟨⟨cbs, s'⟩, hok, rfl⟩ := map_eq_ok.mp h
      obtain ⟨-, hf, -⟩ := expireLocked_spec hx.sorted hok
      exact hf.ordered hx fun b hb => delivered_subset x (.finish now probe) hb
    · cases h
  | destroy b =>
    obtain ⟨s', hok, rfl⟩ := map_eq_ok.mp h
    exact hx.destroy hok

theorem run_ordered {t : List (Act × Threads)} (run : Run Step x t) (hx : Ordered x.manager) :
    Always (fun x => Ordered x.manager) x t :=
  always_of_step (fun _ _ _ hx h => act_ordered hx h) run hx

end

/-! ## A callback is handed over once -/

/-- A new timer is made at the address. -/
def Adds (a : Nat) : Act → Prop
  | .addTimer b _ _ _ _ => b = a
  | _ => False

/-- Out of the set and without a callback: nothing but a new timer can stand there again. -/
def Gone (s : TimerManager) (a : Nat) : Prop := a ∉ s.timers ∧ (s.timer a).cb = none

section Once

variable {x x' : Threads} {act : Act} {a : Nat} {t : List (Act × Threads)}

theorem act_gone (hx : Ordered x.manager) (h : Step x act x') (hadd : ¬Adds a act)
    (hg : Gone x.manager a) : Gone x'.manager a := by
  cases act_touch hx h a with
  | kept _ _ htimer hmem => exact ⟨fun h' => hg.1 (hmem.mp h'), by rw [htimer, hg.2]⟩
  | added => exact absurd rfl hadd
  | cancelled hp => exact absurd hp.1 hg.1
  | refreshed hp => exact absurd hp.1 hg.1
  | retimed hp => exact absurd hp.1 hg.1
  | rearmed hd => exact absurd (delivered_subset _ _ hd) hg.1
  | spent hd => exact absurd (delivered_subset _ _ hd) hg.1

/-- Whether a timer comes back is decided when it is made. -/
theorem act_recurring (hx : Ordered x.manager) (h : Step x act x') (hadd : ¬Adds a act) :
    (x'.manager.timer a).recurring = (x.manager.timer a).recurring := by
  cases act_touch hx h a with
  | kept _ _ htimer => rw [htimer]
  | added => exact absurd rfl hadd
  | cancelled _ _ htimer => rw [htimer]; rfl
  | refreshed _ _ htimer => rw [htimer]; rfl
  | retimed _ _ htimer => rw [htimer]; rfl
  | rearmed _ _ _ htimer => rw [htimer]
  | spent _ _ _ htimer => rw [htimer]

/-- A one-shot timer that is handed over is gone. -/
theorem act_delivered (hx : Ordered x.manager) (h : Step x act x') (hadd : ¬Adds a act)
    (hr : (x.manager.timer a).recurring = false) (hd : a ∈ x.delivered act) :
    Gone x'.manager a := by
  cases act_touch hx h a with
  | kept hout => exact absurd hd hout
  | added => exact absurd rfl hadd
  | cancelled => cases hd
  | refreshed => cases hd
  | retimed => cases hd
  | rearmed _ hr' =>
    rw [hr] at hr'
    cases hr'
  | spent _ _ hout htimer => exact ⟨hout, by rw [htimer]⟩

theorem deliveries_gone (run : Run Step x t) (hx : Ordered x.manager)
    (hadd : ∀ p ∈ t, ¬Adds a p.1) (hg : Gone x.manager a) : a ∉ x.deliveries t := by
  induction run with
  | nil => simp [deliveries]
  | cons h _ ih =>
    obtain ⟨hfirst, hrest⟩ := List.forall_mem_cons.mp hadd
    rw [deliveries, List.mem_append, not_or]
    exact ⟨fun hd => hg.1 (delivered_subset _ _ hd),
      ih (act_ordered hx h) hrest (act_gone hx h hfirst hg)⟩

theorem deliveries_once (run : Run Step x t) (hx : Ordered x.manager)
    (hadd : ∀ p ∈ t, ¬Adds a p.1) (hr : (x.manager.timer a).recurring = false) :
    (x.deliveries t).count a ≤ 1 := by
  induction run with
  | nil => simp [deliveries]
  | @cons x x' act t h run ih =>
    obtain ⟨hfirst, hrest⟩ := List.forall_mem_cons.mp hadd
    rw [deliveries, List.count_append]
    by_cases hd : a ∈ x.delivered act
    · have hone := List.nodup_iff_count_le_one.mp (delivered_nodup hx act) a
      have hnone := List.count_eq_zero_of_not_mem
        (deliveries_gone run (act_ordered hx h) hrest (act_delivered hx h hfirst hr hd))
      omega
    · have hnone := List.count_eq_zero_of_not_mem hd
      have hlater := ih (act_ordered hx h) hrest ((act_recurring hx h hfirst).trans hr)
      omega

end Once

/-- `listExpiredCb` hands over what is due, in order, and leaves the rest alone; and along any
run of the operations a one-shot timer is handed over once. -/
theorem listExpiredCb_exact :
    (∀ s : TimerManager, Ordered s → ∀ (now : UInt64) (probe : Nat), s.live probe = false →
      ∃ s', s.listExpiredCb now probe =
          .ok ((s.dueTimers now (s.detectClockRollover now).1).map (fun a => (s.timer a).cb), s') ∧
        Sorted s.less (s.dueTimers now (s.detectClockRollover now).1) ∧
        Fired now (s.dueTimers now (s.detectClockRollover now).1) s s') ∧
    (∀ (x : Threads) (t : List (Act × Threads)) (a : Nat), Ordered x.manager → Run Step x t →
      (∀ p ∈ t, ¬Adds a p.1) → (x.manager.timer a).recurring = false →
      (x.deliveries t).count a ≤ 1) := by
  constructor
  · intro s hs now probe hp
    obtain ⟨s', hok, hfired⟩ := listExpiredCb_fired hs.sorted now hp
    exact ⟨s', hok, List.Pairwise.sublist (s.dueTimers_sublist now _) hs.sorted, hfired⟩
  · intro x t a hx run hadd hr
    exact deliveries_once run hx hadd hr

/-- Two timers that are due together go by their addresses. -/
theorem listExpiredCb_exact_tie :
    ∃ t, trace act (init 1000) [.addTimer 1 500 (some 7) false 1000,
        .addTimer 0 500 (some 8) true 1000] = .ok t ∧
      (∃ s', (last (init 1000) t).manager.listExpiredCb 1500 2 = .ok ([some 8, some 7], s')) ∧
      ∃ u, trace act (last (init 1000) t) [.check 1500, .finish 1500 2, .check 2000,
          .finish 2000 2] = .ok u ∧ (deliveries (last (init 1000) t) u).count 1 ≤ 1 := by
  have hrun := run_of_trace (f := act) (s := init 1000) [.addTimer 1 500 (some 7) false 1000,
    .addTimer 0 500 (some 8) true 1000] rfl
  have hx := (run_ordered hrun (ordered_init 1000)).last
  refine ⟨_, rfl, ?_, _, rfl, ?_⟩
  · obtain ⟨s', hok, -⟩ := listExpiredCb_exact.1 _ hx 1500 2 rfl
    exact ⟨s', hok⟩
  · apply listExpiredCb_exact.2 _ _ 1 hx
    · exact run_of_trace [.check 1500, .finish 1500 2, .check 2000, .finish 2000 2] rfl
    · simp [Adds]
    · rfl

end Threads

end CxkFramework.TimerManager
