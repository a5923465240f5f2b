import CxkFramework.SchedulerTasks
import Mathlib.Data.List.TakeWhile

/-!
# How the scheduler wakes its threads

`IOManager::tickle` writes a byte into a pipe when some thread is idle, and the byte lets one
`epoll_wait` return. `schedule` calls it when the queue was empty, and `run` when it leaves entries
for others. A thread that has found nothing and has not counted itself idle yet is not seen.
-/

namespace CxkFramework

open Scheduler

/-- What is left of a call of `tickle`. -/
inductive Due where
  | nothing
  | check
  | write
  deriving DecidableEq, Repr

/-- The scheduler of an `IOManager` with its pipe. The callers of `schedule` are not told apart; a
thread that calls `tickle` in `run` does nothing else before that has returned. -/
structure WorkerPool (τ : Type) where
  scheduler : Scheduler τ
  /-- calls of `tickle` that have not looked at the idle threads -/
  checks : Nat
  /-- calls of `tickle` that are about to write -/
  writes : Nat
  due : τ → Due
  /-- a byte was written, and no `epoll_wait` has reported it -/
  signal : Bool

namespace WorkerPool

variable {τ : Type} [DecidableEq τ]

def init : WorkerPool τ where
  scheduler := Scheduler.init
  checks := 0
  writes := 0
  due _ := .nothing
  signal := false

/-- `tickle_me` behind the search of the queue: an entry for another thread was passed over, or
there are entries behind the one that was taken. -/
def tickle_me (s : Scheduler τ) (t : τ) : Bool :=
  let passed := s.fibers.takeWhile fun ft => !s.eligible t ft
  passed.any (fun ft => ft.thread ≠ none && ft.thread ≠ some t) ||
    !(s.fibers.drop (passed.length + 1)).isEmpty

/-- `need_tickle` of a call from outside. -/
def need_tickle (s : Scheduler τ) : Call τ → Bool
  | .op (.schedule _) => s.fibers.isEmpty
  | .scheduleAll fcs => s.fibers.isEmpty && !fcs.isEmpty
  | .op _ => false

def isIdle : Fiber τ → Bool
  | .idle _ => true
  | .made _ => false

/-- The thread whose step it is. -/
def thread : Call τ → Option τ
  | .op (.take t) | .op (.branch t) | .op (.swapIn t) | .op (.yield t _) | .op (.swapOut t)
  | .op (.decrement t) | .op (.fixUp t) | .op (.requeue t) => some t
  | .op .newFiber | .op (.schedule _) | .scheduleAll _ => none

/-- The idle fibers are known to nobody outside of `run`. -/
def plain : Call τ → Bool
  | .op (.schedule ft) => !ft.fiber.any isIdle
  | .scheduleAll fcs => fcs.all fun ft => !ft.fiber.any isIdle
  | .op _ => true

/-- What the thread has to do before it goes on. -/
def dueAfter (p : WorkerPool τ) : Call τ → τ → Due
  | .op (.take t) =>
    Function.update p.due t (if tickle_me p.scheduler t then .check else .nothing)
  | .op (.requeue t) =>
    Function.update p.due t (if p.scheduler.fibers.isEmpty then .check else .nothing)
  | _ => p.due

/-- A step of the scheduler. -/
def call (p : WorkerPool τ) (c : Call τ) : Except Halt (WorkerPool τ) :=
  if plain c && (thread c).all fun t => p.due t = .nothing then
    (p.scheduler.stepCall c).map fun s =>
      { p with
        scheduler := s
        checks := p.checks + (need_tickle p.scheduler c).toNat
        due := p.dueAfter c }
  else .error .disabled

def hasIdelThreads (p : WorkerPool τ) : Bool := 0 < p.scheduler.idelThreadCount

/-- `hasIdelThreads` in a call of `tickle`, by a thread in `run` or from outside. -/
def check (p : WorkerPool τ) : Option τ → Except Halt (WorkerPool τ)
  | none =>
    if p.checks = 0 then .error .disabled
    else .ok { p with
      checks := p.checks - 1
      writes := p.writes + p.hasIdelThreads.toNat }
  | some t =>
    if p.due t ≠ .check then .error .disabled
    else .ok { p with
      due := Function.update p.due t (if p.hasIdelThreads then .write else .nothing) }

/-- `write` in a call of `tickle`. -/
def write (p : WorkerPool τ) : Option τ → Except Halt (WorkerPool τ)
  | none =>
    if p.writes = 0 then .error .disabled
    else .ok { p with writes := p.writes - 1, signal := true }
  | some t =>
    if p.due t ≠ .write then .error .disabled
    else .ok { p with due := Function.update p.due t .nothing, signal := true }

/-- `epoll_wait` reports the pipe to an idle thread, which empties it and leaves its fiber. Without
a report that is a `swapOut`. -/
def wake (p : WorkerPool τ) (t : τ) : Except Halt (WorkerPool τ) :=
  match p.scheduler.place t with
  | .inside _ .idle =>
    if p.signal then (p.scheduler.swapOut t).map fun s => { p with scheduler := s, signal := false }
    else .error .disabled
  | _ => .error .disabled

inductive Act (τ : Type) where
  | call (c : Call τ)
  /-- `stop`, or a timer in front of all others -/
  | tickle
  | check (who : Option τ)
  | write (who : Option τ)
  | wake (t : τ)
  deriving DecidableEq, Repr

def step (p : WorkerPool τ) : Act τ → Except Halt (WorkerPool τ)
  | .call c => p.call c
  | .tickle => .ok { p with checks := p.checks + 1 }
  | .check who => p.check who
  | .write who => p.write who
  | .wake t => p.wake t

def Step (p : WorkerPool τ) (a : Act τ) (p' : WorkerPool τ) : Prop := p.step a = .ok p'

/-! ## Who is counted -/

/-- The thread is counted as idle. -/
def counted : Place τ → Bool
  | .entering _ b | .inside _ b | .leaving _ b | .returned _ b => b = .idle
  | .top | .taken _ | .nothing | .fixing _ _ | .requeuing _ _ | .exited => false

/-- The thread will search the queue before it waits. -/
def awake : Place τ → Bool
  | .nothing | .exited => false
  | .entering _ b | .inside _ b => b ≠ .idle
  | .top | .taken _ | .leaving _ _ | .returned _ _ | .fixing _ _ | .requeuing _ _ => true

section Count

variable [Fintype τ] {s s' : Scheduler τ} {t : τ}

def idlers (s : Scheduler τ) : Nat := (Finset.univ.filter fun t => counted (s.place t) = true).card

/-- One thread moves. -/
theorem idlers_update {p : Place τ} (h : s'.place = Function.update s.place t p) :
    idlers s' + (counted (s.place t)).toNat = idlers s + (counted p).toNat := by
  have hsum : ∀ s : Scheduler τ, idlers s = ∑ u, (counted (s.place u)).toNat := by
    intro s
    rw [idlers, Finset.card_filter]
    refine Finset.sum_congr rfl (fun u _ => ?_)
    cases counted (s.place u) <;> rfl
  have hfun : (fun u => (counted (s'.place u)).toNat) =
      Function.update (fun u => (counted (s.place u)).toNat) t (counted p).toNat := by
    funext u
    rw [h]
    by_cases hu : u = t
    · rw [hu, Function.update_self, Function.update_self]
    · rw [Function.update_of_ne hu, Function.update_of_ne hu]
  have hafter := Finset.sum_update_of_mem (Finset.mem_univ t)
    (fun u => (counted (s.place u)).toNat) (counted p).toNat
  have hbefore := Finset.sum_update_of_mem (Finset.mem_univ t)
    (fun u => (counted (s.place u)).toNat) (counted (s.place t)).toNat
  rw [Function.update_eq_self t (fun u => (counted (s.place u)).toNat)] at hbefore
  rw [hsum, hsum, hfun, hafter, hbefore]
  omega

/-- The counter is right. -/
def Counts (s : Scheduler τ) : Prop := s.idelThreadCount = idlers s

omit [DecidableEq τ] in
theorem Counts.congr (hs : Counts s) (hplace : s'.place = s.place)
    (hcount : s'.idelThreadCount = s.idelThreadCount) : Counts s' := by
  rw [Counts, hcount, idlers, hplace]
  exact hs

/-- A thread moves, and the counter with it. -/
theorem Counts.moveTo {s₁ : Scheduler τ} {p q : Place τ} (hs : Counts s)
    (hplace : s₁.place = s.place) (hq : s.place t = q)
    (hcount : s₁.idelThreadCount + (counted q).toNat = s.idelThreadCount + (counted p).toNat) :
    Counts (s₁.moveTo t p) := by
  have hmoved := @idlers_update τ _ _ s (s₁.moveTo t p) t p (by rw [moveTo_place, hplace])
  rw [hq] at hmoved
  have hsame : (s₁.moveTo t p).idelThreadCount = s₁.idelThreadCount := rfl
  rw [Counts] at hs ⊢
  rw [hsame]
  omega

theorem move_counts {op : Op τ} (hs : Counts s) (h : Move s op s') : Counts s' := by
  cases h with
  | newFiber => exact hs.congr rfl rfl
  | schedule ft _ =>
    refine hs.congr (scheduleNoLock_place s ft) ?_
    rw [scheduleNoLock]
    split <;> rfl
  | take t ft as bs hp => exact hs.moveTo rfl hp rfl
  | takeNothing t hp => exact hs.moveTo rfl hp rfl
  | enter t ft f hp => exact hs.moveTo rfl hp rfl
  | reuseCb t ft f hp => exact hs.moveTo rfl hp rfl
  | makeCb t ft hp => exact hs.moveTo rfl hp rfl
  | drop t ft hp => exact hs.moveTo rfl hp rfl
  | exit t hp => exact hs.moveTo rfl hp rfl
  | enterIdle t hp =>
    refine hs.moveTo rfl hp ?_
    simp [counted]
  | swapIn t f b hp => exact hs.moveTo rfl hp rfl
  | yield t f b x hp => exact hs.moveTo rfl hp rfl
  | swapOut t f b hp =>
    rcases hp with hp | ⟨hp, -⟩
    · exact hs.moveTo rfl hp rfl
    · exact hs.moveTo rfl hp rfl
  | decrementIdle t f hp =>
    refine hs.moveTo rfl hp ?_
    simp [counted]
  | decrement t f b hp hb =>
    refine hs.moveTo rfl hp ?_
    simp [counted, hb]
  | ready t f b hp => exact hs.moveTo rfl hp rfl
  | ended t f b hp => exact hs.moveTo rfl hp rfl
  | endedCb t f hp => exact hs.moveTo rfl hp rfl
  | hold t f b hp => exact hs.moveTo rfl hp rfl
  | holdCb t f hp => exact hs.moveTo rfl hp rfl
  | requeue t f b hp =>
    have hgo : Counts (s.letGo t b) := by
      cases b with
      | cb => exact hs.moveTo rfl hp rfl
      | fiber => exact hs.moveTo rfl hp rfl
      | idle => exact hs.moveTo rfl hp rfl
    refine hgo.congr (scheduleNoLock_place _ _) ?_
    rw [scheduleNoLock]
    split <;> rfl

omit [DecidableEq τ] in
/-- No thread is counted when the counter is zero. -/
theorem not_counted (hs : Counts s) (h : ¬0 < s.idelThreadCount) (t : τ) :
    counted (s.place t) = false := by
  rw [Counts] at hs
  rw [Bool.eq_false_iff]
  intro hcounted
  have hpos : 0 < idlers s :=
    Finset.card_pos.mpr ⟨t, Finset.mem_filter.mpr ⟨Finset.mem_univ t, hcounted⟩⟩
  omega

end Count

/-! ## Who runs a fiber -/

/-- A fiber that is no idle fiber. -/
def IsTask (f : Fiber τ) : Prop := isIdle f = false

/-- Idle fibers are run in their own branch, and tasks in the others. -/
def Sound : Place τ → Prop
  | .taken ft => ∀ f, ft.fiber = some f → IsTask f
  | .entering f b | .inside f b | .leaving f b | .returned f b | .fixing f b =>
    isIdle f = decide (b = .idle)
  | .requeuing f _ => IsTask f
  | .top | .nothing | .exited => True

/-- The fiber that the thread runs. -/
def inside : Place τ → Option (Fiber τ)
  | .inside f _ => some f
  | .top | .taken _ | .nothing | .entering _ _ | .leaving _ _ | .returned _ _ | .fixing _ _
  | .requeuing _ _ | .exited => none

structure Tasks (s : Scheduler τ) : Prop where
  queued : ∀ ft ∈ s.fibers, ∀ f, ft.fiber = some f → IsTask f
  cb : ∀ t f, s.cbFiber t = some f → IsTask f
  placed : ∀ t, Sound (s.place t)
  exec : ∀ f, IsTask f → s.state f = .EXEC → ∃ t, inside (s.place t) = some f

section Tasks

variable {s s' s₁ : Scheduler τ} {t : τ} {p q : Place τ} {f : Fiber τ}

omit [DecidableEq τ] in
theorem tasks_init : Tasks (Scheduler.init : Scheduler τ) where
  queued ft hft := absurd hft List.not_mem_nil
  cb t f hf := by cases hf
  placed t := trivial
  exec f _ hf := by cases hf

/-- A thread moves. A fiber that is run is the one it runs now, or one that it did not run. -/
theorem Tasks.moveTo (hs : Tasks s) (hfibers : ∀ ft ∈ s₁.fibers, ft ∈ s.fibers)
    (hcb : ∀ u f, s₁.cbFiber u = some f → s.cbFiber u = some f ∨ IsTask f)
    (hplace : s₁.place = s.place) (hp : Sound p)
    (hexec : ∀ f, IsTask f → s₁.state f = .EXEC →
      inside p = some f ∨ s.state f = .EXEC ∧ inside (s.place t) ≠ some f) :
    Tasks (s₁.moveTo t p) where
  queued ft hft := hs.queued ft (hfibers ft hft)
  cb u f hf := (hcb u f hf).elim (hs.cb u f) id
  placed u := by
    rw [moveTo_place]
    by_cases hu : u = t
    · rw [hu, Function.update_self]
      exact hp
    · rw [Function.update_of_ne hu, hplace]
      exact hs.placed u
  exec f hf hstate := by
    rw [moveTo_place]
    rcases hexec f hf hstate with hself | ⟨hold, hother⟩
    · exact ⟨t, by rw [Function.update_self, hself]⟩
    · obtain ⟨u, hu⟩ := hs.exec f hf hold
      have hne : u ≠ t := by
        rintro rfl
        exact hother hu
      exact ⟨u, by rw [Function.update_of_ne hne, hplace, hu]⟩

/-- No state word is written, and no task was run. -/
theorem Tasks.moveTo_same (hs : Tasks s) (hfibers : ∀ ft ∈ s₁.fibers, ft ∈ s.fibers)
    (hcb : ∀ u f, s₁.cbFiber u = some f → s.cbFiber u = some f) (hplace : s₁.place = s.place)
    (hstate : s₁.state = s.state) (hq : s.place t = q)
    (hinside : ∀ f, inside q = some f → ¬IsTask f) (hp : Sound p) : Tasks (s₁.moveTo t p) := by
  refine hs.moveTo hfibers (fun u f hf => .inl (hcb u f hf)) hplace hp
    fun f hf hexec => .inr ⟨hstate ▸ hexec, ?_⟩
  rw [hq]
  exact fun hrun => hinside f hrun hf

/-- The thread was in no fiber. -/
theorem Tasks.moveTo_out (hs : Tasks s) (hfibers : ∀ ft ∈ s₁.fibers, ft ∈ s.fibers)
    (hcb : s₁.cbFiber = s.cbFiber) (hplace : s₁.place = s.place) (hstate : s₁.state = s.state)
    (hq : s.place t = q) (hinside : inside q = none) (hp : Sound p) : Tasks (s₁.moveTo t p) := by
  refine hs.moveTo_same hfibers (fun u f hf => hcb ▸ hf) hplace hstate hq (fun f hf => ?_) hp
  rw [hinside] at hf
  cases hf

/-- The state word of a fiber is written, and if the thread ran a fiber, it was this one. -/
theorem Tasks.moveTo_setState {x : FiberState} (hs : Tasks s) (hx : x ≠ .EXEC)
    (hq : s.place t = q) (hinside : ∀ g, inside q = some g → g = f) (hp : Sound p) :
    Tasks ((s.setState f x).moveTo t p) := by
  refine hs.moveTo (fun ft hft => hft) (fun u g hg => .inl hg) rfl hp fun g _ hexec => .inr ?_
  by_cases hgf : g = f
  · rw [setState, hgf] at hexec
    simp only [Function.update_self] at hexec
    exact absurd hexec hx
  · rw [setState] at hexec
    simp only [Function.update_of_ne hgf] at hexec
    rw [hq]
    exact ⟨hexec, fun hrun => hgf (hinside g hrun)⟩

/-- The callback fiber of the thread is let go of. -/
theorem Tasks.forget (hs : Tasks s) (t : τ) : Tasks (s.setCbFiber t none) where
  queued := hs.queued
  cb u f hf := by
    rw [setCbFiber_cbFiber] at hf
    by_cases hu : u = t
    · rw [hu, Function.update_self] at hf
      cases hf
    · rw [Function.update_of_ne hu] at hf
      exact hs.cb u f hf
  placed := hs.placed
  exec := hs.exec

omit [DecidableEq τ] in
/-- A task is put into the queue. -/
theorem Tasks.scheduleNoLock (hs : Tasks s) {ft : FiberAndThread τ}
    (hft : ∀ f, ft.fiber = some f → IsTask f) : Tasks (s.scheduleNoLock ft) where
  queued ft' hft' := by
    rw [scheduleNoLock_fibers] at hft'
    split at hft'
    · rcases List.mem_append.mp hft' with hmem | hmem
      · exact hs.queued ft' hmem
      · rw [List.mem_singleton.mp hmem]
        exact hft
    · exact hs.queued ft' hft'
  cb t f hf := hs.cb t f (by rwa [scheduleNoLock_cbFiber] at hf)
  placed t := by
    rw [scheduleNoLock_place]
    exact hs.placed t
  exec f hf hexec := by
    rw [scheduleNoLock_state] at hexec
    rw [scheduleNoLock_place]
    exact hs.exec f hf hexec

theorem move_tasks {op : Op τ} (hs : Tasks s) (hplain : plain (.op op) = true)
    (hyield : ∀ t, op ≠ .yield t .EXEC) (h : Move s op s') : Tasks s' := by
  have hall : ∀ ft ∈ s.fibers, ft ∈ s.fibers := fun ft hft => hft
  have hplaced : ∀ t p, s.place t = p → Sound p := fun t p hp => hp ▸ hs.placed t
  cases h with
  | newFiber => exact ⟨hs.queued, hs.cb, hs.placed, hs.exec⟩
  | schedule ft _ =>
    refine hs.scheduleNoLock fun f hf => ?_
    rw [plain, hf, Option.any_some, Bool.not_eq_true'] at hplain
    exact hplain
  | take t ft as bs hp _ hfibers _ =>
    have hmem : ∀ x ∈ as ++ bs, x ∈ s.fibers := by
      intro x hx
      rw [hfibers]
      rcases List.mem_append.mp hx with hx | hx
      · exact List.mem_append_left _ hx
      · exact List.mem_append_right _ (List.mem_cons_of_mem _ hx)
    have hft : ft ∈ s.fibers := by
      rw [hfibers]
      exact List.mem_append_right _ List.mem_cons_self
    exact hs.moveTo_out hmem rfl rfl rfl hp rfl (hs.queued ft hft)
  | takeNothing t hp _ => exact hs.moveTo_out hall rfl rfl rfl hp rfl trivial
  | enter t ft f hp hfiber _ =>
    exact hs.moveTo_out hall rfl rfl rfl hp rfl (hplaced t _ hp f hfiber)
  | reuseCb t ft f hp _ hcb =>
    exact hs.moveTo_setState (by decide) hp (fun g hg => by cases hg) (hs.cb t f hcb)
  | makeCb t ft hp _ =>
    refine hs.moveTo hall (fun u f hf => ?_) rfl rfl fun f hf hexec => .inr ⟨hexec, ?_⟩
    · rw [setCbFiber_cbFiber] at hf
      by_cases hu : u = t
      · rw [hu, Function.update_self] at hf
        cases hf
        exact .inr rfl
      · rw [Function.update_of_ne hu] at hf
        exact .inl hf
    · rw [hp]
      exact fun hrun => by cases hrun
  | drop t ft hp _ => exact hs.moveTo_out hall rfl rfl rfl hp rfl trivial
  | exit t hp => exact hs.moveTo_out hall rfl rfl rfl hp rfl trivial
  | enterIdle t hp => exact hs.moveTo_out hall rfl rfl rfl hp rfl rfl
  | swapIn t f b hp =>
    have hsound : isIdle f = decide (b = .idle) := hplaced t _ hp
    refine hs.moveTo hall (fun u g hg => .inl hg) rfl hsound fun g _ hexec => ?_
    by_cases hgf : g = f
    · exact .inl (by rw [inside, hgf])
    · rw [setState] at hexec
      simp only [Function.update_of_ne hgf] at hexec
      refine .inr ⟨hexec, ?_⟩
      rw [hp]
      exact fun hrun => by cases hrun
  | yield t f b x hp =>
    have hsound : isIdle f = decide (b = .idle) := hplaced t _ hp
    refine hs.moveTo_setState (fun hx => hyield t (by rw [hx])) hp (fun g hg => ?_) hsound
    exact (Option.some.inj hg).symm
  | swapOut t f b hp =>
    rcases hp with hp | ⟨hp, rfl⟩
    · have hsound : isIdle f = decide (b = .idle) := hplaced t _ hp
      exact hs.moveTo_out hall rfl rfl rfl hp rfl hsound
    · have hsound : isIdle f = decide (Branch.idle = .idle) := hplaced t _ hp
      refine hs.moveTo_same hall (fun _ _ hf => hf) rfl rfl hp (fun g hg htask => ?_) hsound
      rw [← Option.some.inj hg, IsTask, hsound] at htask
      cases htask
  | decrementIdle t f hp =>
    have hsound : isIdle f = decide (Branch.idle = .idle) := hplaced t _ hp
    exact hs.moveTo_out hall rfl rfl rfl hp rfl hsound
  | decrement t f b hp _ =>
    have hsound : isIdle f = decide (b = .idle) := hplaced t _ hp
    exact hs.moveTo_out hall rfl rfl rfl hp rfl hsound
  | ready t f b hp hb _ =>
    have hsound : isIdle f = decide (b = .idle) := hplaced t _ hp
    have htask : IsTask f := hsound.trans (decide_eq_false hb)
    exact hs.moveTo_out hall rfl rfl rfl hp rfl htask
  | ended t f b hp _ _ => exact hs.moveTo_out hall rfl rfl rfl hp rfl trivial
  | endedCb t f hp _ =>
    exact hs.moveTo_setState (by decide) hp (fun g hg => by cases hg) trivial
  | hold t f b hp _ _ =>
    exact hs.moveTo_setState (by decide) hp (fun g hg => by cases hg) trivial
  | holdCb t f hp _ =>
    have hheld : Tasks ((s.setState f .HOLD).moveTo t .top) :=
      hs.moveTo_setState (by decide) hp (fun g hg => by cases hg) trivial
    exact hheld.forget t
  | requeue t f b hp =>
    have htask : IsTask f := hplaced t _ hp
    have hgo : Tasks (s.letGo t b) := by
      cases b with
      | cb => exact (hs.forget t).moveTo_out hall rfl rfl rfl hp rfl trivial
      | fiber => exact hs.moveTo_out hall rfl rfl rfl hp rfl trivial
      | idle => exact hs.moveTo_out hall rfl rfl rfl hp rfl trivial
    exact hgo.scheduleNoLock fun g hg => Option.some.inj hg ▸ htask

end Tasks

/-! ## Whether the queue is seen -/

/-- Some entry is not run by a thread right now. -/
def Runnable (s : Scheduler τ) : Prop :=
  ∃ ft ∈ s.fibers, ∀ f, ft.fiber = some f → s.state f ≠ .EXEC

/-- Some thread will search the queue, or a thread that waits will be woken; or no thread is left.
-/
def Seen (p : WorkerPool τ) : Prop :=
  p.signal = true ∨ 0 < p.checks ∨ 0 < p.writes ∨ (∃ t, p.due t ≠ .nothing) ∨
    (∃ t, awake (p.scheduler.place t) = true) ∨ ∀ t, p.scheduler.place t = .exited

def Covered (p : WorkerPool τ) : Prop := Runnable p.scheduler → Seen p

/-- When there is something to run, `tickle` looks at the idle threads while one is counted, or
while one is awake, or while none is between its search and the counter. -/
def InTime (p : WorkerPool τ) : Act τ → Prop
  | .check _ => Runnable p.scheduler → 0 < p.scheduler.idelThreadCount ∨
    (∃ t, awake (p.scheduler.place t) = true) ∨ ∀ t, p.scheduler.place t ≠ .nothing
  | _ => True

section Seen

variable {p p' : WorkerPool τ} {s s' : Scheduler τ} {t : τ}

omit [DecidableEq τ] in
theorem seen_of_awake (h : awake (p.scheduler.place t) = true) : Seen p :=
  .inr (.inr (.inr (.inr (.inl ⟨t, h⟩))))

omit [DecidableEq τ] in
theorem seen_of_due (h : p.due t ≠ .nothing) : Seen p := .inr (.inr (.inr (.inl ⟨t, h⟩)))

omit [DecidableEq τ] in
/-- Calls of `tickle` may come, and the places are the same. -/
theorem Seen.mono (h : Seen p) (hsignal : p'.signal = p.signal) (hchecks : p.checks ≤ p'.checks)
    (hwrites : p.writes ≤ p'.writes) (hdue : p'.due = p.due)
    (hplace : p'.scheduler.place = p.scheduler.place) : Seen p' := by
  rw [Seen, hsignal, hdue, hplace]
  rcases h with h | h | h | h | h
  · exact .inl h
  · exact .inr (.inl (by omega))
  · exact .inr (.inr (.inl (by omega)))
  · exact .inr (.inr (.inr (.inl h)))
  · exact .inr (.inr (.inr (.inr h)))

/-- A thread moves that was not awake and has not left. -/
theorem Seen.moveTo {q : Place τ} (h : Seen p) (hsignal : p'.signal = p.signal)
    (hchecks : p.checks ≤ p'.checks) (hwrites : p'.writes = p.writes) (hdue : p'.due = p.due)
    (hplace : p'.scheduler.place = Function.update p.scheduler.place t q)
    (hasleep : awake (p.scheduler.place t) = false) (hstays : p.scheduler.place t ≠ .exited) :
    Seen p' := by
  rcases h with h | h | h | h | ⟨u, hu⟩ | h
  · exact .inl (hsignal ▸ h)
  · exact .inr (.inl (by omega))
  · exact .inr (.inr (.inl (by omega)))
  · exact .inr (.inr (.inr (.inl (hdue ▸ h))))
  · refine @seen_of_awake τ p' u ?_
    have hne : u ≠ t := by
      rintro rfl
      rw [hasleep] at hu
      cases hu
    rw [hplace, Function.update_of_ne hne]
    exact hu
  · exact absurd (h t) hstays

omit [DecidableEq τ] in
/-- Where all entries are run, the threads that run them are awake. -/
theorem awake_of_not_runnable (hs : Tasks s) (hne : s.fibers ≠ []) (h : ¬Runnable s) :
    ∃ t, awake (s.place t) = true := by
  obtain ⟨ft, hft⟩ := List.exists_mem_of_ne_nil _ hne
  rw [Runnable] at h
  push Not at h
  obtain ⟨f, hf, hexec⟩ := h ft hft
  have htask := hs.queued ft hft f hf
  obtain ⟨t, ht⟩ := hs.exec f htask hexec
  refine ⟨t, ?_⟩
  have hsound := hs.placed t
  cases hplace : s.place t with
  | inside g b =>
    rw [hplace] at ht hsound
    have hgf : g = f := Option.some.inj ht
    have hb : decide (b = .idle) = false := hsound.symm.trans (hgf ▸ htask)
    rw [awake, decide_eq_true_eq]
    exact of_decide_eq_false hb
  | _ =>
    rw [hplace] at ht
    cases ht

omit [DecidableEq τ] in
/-- Something more is put into the queue. -/
theorem covered_push (hs : Tasks p.scheduler) (hc : Covered p) (hsignal : p'.signal = p.signal)
    (hchecks : p'.checks = p.checks + p.scheduler.fibers.isEmpty.toNat)
    (hwrites : p'.writes = p.writes) (hdue : p'.due = p.due)
    (hplace : p'.scheduler.place = p.scheduler.place) : Covered p' := by
  intro _
  by_cases hempty : p.scheduler.fibers = []
  · refine .inr (.inl ?_)
    rw [hchecks, hempty]
    exact Nat.succ_pos _
  · by_cases hrun : Runnable p.scheduler
    · exact (hc hrun).mono hsignal (by omega) (by omega) hdue hplace
    · obtain ⟨t, ht⟩ := awake_of_not_runnable hs hempty hrun
      exact @seen_of_awake τ p' t (by rw [hplace]; exact ht)

/-- A thread that finds nothing, although there is something, was not the one it is for. -/
theorem tickle_me_of_passed (hpassed : ∀ x ∈ s.fibers, s.eligible t x = false)
    (hrun : Runnable s) : tickle_me s t = true := by
  obtain ⟨ft, hft, hstate⟩ := hrun
  have hall : s.fibers.takeWhile (fun ft => !s.eligible t ft) = s.fibers := by
    rw [List.takeWhile_eq_self_iff]
    intro x hx
    rw [hpassed x hx]
    rfl
  have hfree : (ft.fiber.all fun f => decide (s.state f ≠ .EXEC)) = true := by
    rw [Option.all_eq_true]
    intro f hf
    exact decide_eq_true (hstate f hf)
  have hpin := hpassed ft hft
  rw [eligible, hfree, Bool.and_true, Bool.or_eq_false_iff] at hpin
  rw [tickle_me, hall]
  refine Bool.or_eq_true_iff.mpr (.inl (List.any_eq_true.mpr ⟨ft, hft, ?_⟩))
  have hnone : ft.thread ≠ none := of_decide_eq_false hpin.1
  have hother : ft.thread ≠ some t := of_decide_eq_false hpin.2
  rw [Bool.and_eq_true]
  exact ⟨decide_eq_true hnone, decide_eq_true hother⟩

/-- A step of the scheduler by which no thread falls asleep, or all that is left is for others. -/
theorem covered_op {op : Op τ} (hs : Tasks p.scheduler) (hc : Covered p)
    (h : Move p.scheduler op s') : Covered { p with
      scheduler := s'
      checks := p.checks + (need_tickle p.scheduler (.op op)).toNat
      due := p.dueAfter (.op op) } := by
  have hmoved : ∀ (t : τ) (s₁ : Scheduler τ) (q : Place τ) (p' : WorkerPool τ),
      p'.scheduler = s₁.moveTo t q → awake q = true → Covered p' := by
    intro t s₁ q p' hp' hq _
    refine @seen_of_awake τ p' t ?_
    rw [hp', moveTo_place, Function.update_self]
    exact hq
  cases h with
  | newFiber => exact fun hrun => (hc hrun).mono rfl (Nat.le_add_right _ _) le_rfl rfl rfl
  | schedule ft _ =>
    exact covered_push hs hc rfl rfl rfl rfl (scheduleNoLock_place p.scheduler ft)
  | take t ft as bs => exact hmoved t _ _ _ rfl rfl
  | takeNothing t hp hpassed =>
    intro hrun
    refine @seen_of_due τ _ t ?_
    have hme := tickle_me_of_passed hpassed hrun
    change Function.update p.due t (if tickle_me p.scheduler t then .check else .nothing) t ≠ _
    rw [Function.update_self, hme, if_pos rfl]
    exact fun heq => by cases heq
  | enter t ft f => exact hmoved t _ _ _ rfl rfl
  | reuseCb t ft f => exact hmoved t _ _ _ rfl rfl
  | makeCb t ft => exact hmoved t _ _ _ rfl rfl
  | drop t ft => exact hmoved t _ _ _ rfl rfl
  | exit t hp =>
    intro hrun
    exact (hc hrun).moveTo rfl (Nat.le_add_right _ _) rfl rfl (moveTo_place _ _ _)
      (by rw [hp]; rfl) (by rw [hp]; exact fun heq => by cases heq)
  | enterIdle t hp =>
    intro hrun
    exact (hc hrun).moveTo rfl (Nat.le_add_right _ _) rfl rfl (moveTo_place _ _ _)
      (by rw [hp]; rfl) (by rw [hp]; exact fun heq => by cases heq)
  | swapIn t f b hp =>
    cases hb : decide (b ≠ .idle) with
    | true => exact hmoved t _ _ _ rfl hb
    | false =>
      rintro ⟨ft, hft, hstate⟩
      have hrun : Runnable p.scheduler := by
        refine ⟨ft, hft, fun g hg hexec => hstate g hg ?_⟩
        change ((p.scheduler.setState f .EXEC).moveTo t (.inside f b)).state g = .EXEC
        by_cases hgf : g = f
        · rw [hgf]
          exact Function.update_self _ _ _
        · exact (Function.update_of_ne hgf _ _).trans hexec
      exact (hc hrun).moveTo rfl (Nat.le_add_right _ _) rfl rfl (moveTo_place _ _ _)
        (by rw [hp]; exact hb) (by rw [hp]; exact fun heq => by cases heq)
  | yield t f b x => exact hmoved t _ _ _ rfl rfl
  | swapOut t f b => exact hmoved t _ _ _ rfl rfl
  | decrementIdle t f => exact hmoved t _ _ _ rfl rfl
  | decrement t f b => exact hmoved t _ _ _ rfl rfl
  | ready t f b => exact hmoved t _ _ _ rfl rfl
  | ended t f b => exact hmoved t _ _ _ rfl rfl
  | endedCb t f => exact hmoved t _ _ _ rfl rfl
  | hold t f b => exact hmoved t _ _ _ rfl rfl
  | holdCb t f => exact hmoved t _ _ _ rfl rfl
  | requeue t f b =>
    intro _
    refine @seen_of_awake τ _ t ?_
    change awake (((p.scheduler.letGo t b).scheduleNoLock { fiber := some f }).place t) = true
    rw [scheduleNoLock_place]
    cases b with
    | _ =>
      change awake (Function.update p.scheduler.place t .top t) = true
      rw [Function.update_self]
      rfl

end Seen

/-! ## The steps -/

section Steps

open Runs

variable [Fintype τ] {p p' : WorkerPool τ} {s s' : Scheduler τ} {a : Act τ}

/-- What every step keeps. -/
structure Kept (p : WorkerPool τ) : Prop where
  counts : Counts p.scheduler
  tasks : Tasks p.scheduler

omit [DecidableEq τ] in
theorem kept_scheduleNoLock (hcounts : Counts s) (htasks : Tasks s) {ft : FiberAndThread τ}
    (hft : ∀ f, ft.fiber = some f → IsTask f) :
    Counts (s.scheduleNoLock ft) ∧ Tasks (s.scheduleNoLock ft) := by
  refine ⟨hcounts.congr (scheduleNoLock_place s ft) ?_, htasks.scheduleNoLock hft⟩
  rw [scheduleNoLock]
  split <;> rfl

omit [DecidableEq τ] in
theorem kept_scheduleAll (fcs : List (FiberAndThread τ)) (hcounts : Counts s) (htasks : Tasks s)
    (hplain : ∀ ft ∈ fcs, ∀ f, ft.fiber = some f → IsTask f) :
    Counts (fcs.foldl (fun s ft => s.scheduleNoLock { ft with thread := none }) s) ∧
      Tasks (fcs.foldl (fun s ft => s.scheduleNoLock { ft with thread := none }) s) := by
  induction fcs generalizing s with
  | nil => exact ⟨hcounts, htasks⟩
  | cons ft fcs ih =>
    obtain ⟨hcounts', htasks'⟩ := @kept_scheduleNoLock τ _ s hcounts htasks
      { ft with thread := none } (hplain ft List.mem_cons_self)
    exact ih hcounts' htasks' fun ft' hft' => hplain ft' (List.mem_cons_of_mem ft hft')

theorem kept_op {op : Op τ} (hk : Kept p) (hplain : plain (.op op) = true)
    (h : p.scheduler.step op = .ok s') : Counts s' ∧ Tasks s' := by
  have hmove := move_of_step h
  refine ⟨move_counts hk.counts hmove, move_tasks hk.tasks hplain ?_ hmove⟩
  rintro t rfl
  change p.scheduler.yield t .EXEC = .ok s' at h
  rw [Scheduler.yield] at h
  split at h
  · rw [if_pos (.inr rfl)] at h
    cases h
  · cases h

theorem call_covered {c : Call τ} (hk : Kept p) (hc : Covered p) (h : p.call c = .ok p') :
    Kept p' ∧ Covered p' := by
  rw [WorkerPool.call] at h
  split at h
  · next hguard =>
    obtain ⟨s', hstep, rfl⟩ := map_eq_ok.mp h
    have hplain := (Bool.and_eq_true _ _ ▸ hguard).1
    cases c with
    | op op =>
      obtain ⟨hcounts, htasks⟩ := kept_op hk hplain hstep
      exact ⟨⟨hcounts, htasks⟩, covered_op hk.tasks hc (move_of_step hstep)⟩
    | scheduleAll fcs =>
      change p.scheduler.scheduleAll fcs = .ok s' at hstep
      rw [scheduleAll] at hstep
      split at hstep
      · cases hstep
        have htask : ∀ ft ∈ fcs, ∀ f, ft.fiber = some f → IsTask f := by
          intro ft hft f hf
          have hone := List.all_eq_true.mp hplain ft hft
          rw [hf, Option.any_some, Bool.not_eq_true'] at hone
          exact hone
        obtain ⟨hcounts, htasks⟩ := kept_scheduleAll fcs hk.counts hk.tasks htask
        refine ⟨⟨hcounts, htasks⟩, ?_⟩
        cases fcs with
        | nil => exact fun hrun => (hc hrun).mono rfl (Nat.le_add_right _ _) le_rfl rfl rfl
        | cons ft fcs =>
          refine covered_push hk.tasks hc rfl ?_ rfl rfl (foldl_scheduleNoLock_place _ _)
          rw [need_tickle, List.isEmpty_cons, Bool.not_false, Bool.and_true]
      · cases hstep
  · cases h

/-- The places and the queue are left alone, and the call goes on or the counter was zero. -/
theorem check_covered {who : Option τ} (hk : Kept p) (hok : InTime p (.check who))
    (h : p.check who = .ok p') : Kept p' ∧ Covered p' := by
  have hall : p'.scheduler = p.scheduler ∧
      (0 < p.scheduler.idelThreadCount → 0 < p'.writes ∨ ∃ t, p'.due t ≠ .nothing) := by
    cases who with
    | none =>
      rw [check] at h
      split at h
      · cases h
      · cases h
        refine ⟨rfl, fun hpos => .inl ?_⟩
        rw [hasIdelThreads, decide_eq_true hpos]
        exact Nat.succ_pos _
    | some t =>
      rw [check] at h
      split at h
      · cases h
      · cases h
        refine ⟨rfl, fun hpos => .inr ⟨t, ?_⟩⟩
        change Function.update p.due t (if p.hasIdelThreads then .write else .nothing) t ≠ _
        rw [hasIdelThreads, decide_eq_true hpos, Function.update_self, if_pos rfl]
        exact fun heq => by cases heq
  obtain ⟨hsame, hgoes⟩ := hall
  refine ⟨⟨hsame ▸ hk.counts, hsame ▸ hk.tasks⟩, fun hrun => ?_⟩
  by_cases hpos : 0 < p.scheduler.idelThreadCount
  · rcases hgoes hpos with hwrites | ⟨t, ht⟩
    · exact .inr (.inr (.inl hwrites))
    · exact seen_of_due ht
  · rcases hok (hsame ▸ hrun) with hcount | ⟨t, ht⟩ | hnone
    · exact absurd hcount hpos
    · exact @seen_of_awake τ p' t (hsame ▸ ht)
    · by_cases hawake : ∃ t, awake (p.scheduler.place t) = true
      · obtain ⟨t, ht⟩ := hawake
        exact @seen_of_awake τ p' t (hsame ▸ ht)
      · refine .inr (.inr (.inr (.inr (.inr fun t => ?_))))
        have hcounted := not_counted hk.counts hpos t
        have hasleep : ¬awake (p.scheduler.place t) = true := fun ht => hawake ⟨t, ht⟩
        have hhere := hnone t
        rw [hsame]
        cases hplace : p.scheduler.place t with
        | exited => rfl
        | nothing => exact absurd hplace hhere
        | entering f b | inside f b =>
          rw [hplace] at hcounted hasleep
          rw [counted, decide_eq_false_iff_not] at hcounted
          exact absurd (decide_eq_true hcounted) hasleep
        | top | taken ft | leaving f b | returned f b | fixing f b | requeuing f b =>
          rw [hplace] at hasleep
          exact absurd rfl hasleep

theorem write_covered {who : Option τ} (hk : Kept p) (h : p.write who = .ok p') :
    Kept p' ∧ Covered p' := by
  cases who with
  | none =>
    rw [write] at h
    split at h
    · cases h
    · cases h
      exact ⟨⟨hk.counts, hk.tasks⟩, fun _ => .inl rfl⟩
  | some t =>
    rw [write] at h
    split at h
    · cases h
    · cases h
      exact ⟨⟨hk.counts, hk.tasks⟩, fun _ => .inl rfl⟩

theorem wake_covered {t : τ} (hk : Kept p) (h : p.wake t = .ok p') : Kept p' ∧ Covered p' := by
  rw [wake] at h
  split at h
  · next hplace =>
    split at h
    · obtain ⟨s', hstep, rfl⟩ := map_eq_ok.mp h
      obtain ⟨hcounts, htasks⟩ := @kept_op τ _ _ p s' (.swapOut t) hk rfl hstep
      refine ⟨⟨hcounts, htasks⟩, fun _ => @seen_of_awake τ _ t ?_⟩
      rw [Scheduler.swapOut, hplace] at hstep
      cases hstep
      change awake (Function.update p.scheduler.place t _ t) = true
      rw [Function.update_self]
      rfl
    · cases h
  · cases h

theorem step_covered (hk : Kept p) (hc : Covered p) (hok : InTime p a) (h : Step p a p') :
    Kept p' ∧ Covered p' := by
  cases a with
  | call c => exact call_covered hk hc h
  | tickle =>
    cases h
    exact ⟨⟨hk.counts, hk.tasks⟩, fun hrun => (hc hrun).mono rfl (Nat.le_add_right _ _) le_rfl rfl
      rfl⟩
  | check who => exact check_covered hk hok h
  | write who => exact write_covered hk h
  | wake t => exact wake_covered hk h

omit [DecidableEq τ] in
theorem kept_init : Kept (init : WorkerPool τ) where
  counts := by
    have hnone : (Finset.univ.filter fun t : τ => counted (Place.top : Place τ) = true) = ∅ :=
      Finset.filter_eq_empty_iff.mpr fun t _ ht => Bool.false_ne_true ht
    rw [Counts, idlers]
    exact congrArg (fun n : Nat => (n : Int)) (congrArg Finset.card hnone).symm
  tasks := tasks_init

/-- One thread waits, a callback is scheduled, and the thread is woken. -/
def woken : List (Act Unit) :=
  [.call (.op (.take ())), .call (.op (.branch ())), .call (.op (.swapIn ())),
    .call (.op (.schedule { cb := some 0 })), .check none, .write none, .wake ()]

end Steps

/-! ## A wake-up that is lost -/

/-- Something is in the queue, all threads wait or are about to, and nothing will wake them. -/
structure Stuck (p : WorkerPool τ) : Prop where
  fibers_ne : p.scheduler.fibers ≠ []
  asleep : ∀ t, awake (p.scheduler.place t) = false
  checks_eq : p.checks = 0
  writes_eq : p.writes = 0
  due_eq : ∀ t, p.due t = .nothing
  signal_eq : p.signal = false

/-- No `epoll_wait` returns without a byte from the pipe, and nobody but `schedule` and `run` calls
`tickle`. -/
def Unprompted : Act τ → Prop
  | .tickle | .call (.op (.yield _ _)) | .call (.op (.swapOut _)) => False
  | _ => True

section Stuck

open Runs

variable {p p' : WorkerPool τ} {s s' : Scheduler τ} {a : Act τ}

/-- Nobody looks at the queue, and who puts more into it finds it not empty. -/
theorem move_stuck {op : Op τ} (hs : Stuck p) (ha : Unprompted (.call (.op op)))
    (h : Move p.scheduler op s') :
    (∀ t, awake (s'.place t) = false) ∧ p.scheduler.fibers <+: s'.fibers ∧
      p.dueAfter (.op op) = p.due := by
  have hnot : ∀ {t : τ} {q : Place τ}, p.scheduler.place t = q → awake q = false :=
    fun hq => hq ▸ hs.asleep _
  have hmoved : ∀ (t : τ) (s₁ : Scheduler τ) (q : Place τ), s₁.place = p.scheduler.place →
      awake q = false → ∀ u, awake ((s₁.moveTo t q).place u) = false := by
    intro t s₁ q hplace hq u
    rw [moveTo_place, hplace]
    by_cases hu : u = t
    · rw [hu, Function.update_self]
      exact hq
    · rw [Function.update_of_ne hu]
      exact hs.asleep u
  have hclash : ∀ {b : Bool}, b = true → b = false → False := by
    intro b htrue hfalse
    exact Bool.false_ne_true (hfalse.symm.trans htrue)
  cases h with
  | newFiber => exact ⟨hs.asleep, List.prefix_rfl, rfl⟩
  | schedule ft _ =>
    refine ⟨fun t => by rw [scheduleNoLock_place]; exact hs.asleep t, ?_, rfl⟩
    rw [scheduleNoLock_fibers]
    split
    · exact List.prefix_append _ _
    · exact List.prefix_rfl
  | take t ft as bs hp => exact (hclash rfl (hnot hp)).elim
  | takeNothing t hp => exact (hclash rfl (hnot hp)).elim
  | enter t ft f hp => exact (hclash rfl (hnot hp)).elim
  | reuseCb t ft f hp => exact (hclash rfl (hnot hp)).elim
  | makeCb t ft hp => exact (hclash rfl (hnot hp)).elim
  | drop t ft hp => exact (hclash rfl (hnot hp)).elim
  | exit t hp => exact ⟨hmoved t _ _ rfl rfl, List.prefix_rfl, rfl⟩
  | enterIdle t hp => exact ⟨hmoved t _ _ rfl rfl, List.prefix_rfl, rfl⟩
  | swapIn t f b hp =>
    have hb : awake (.entering f b) = false := hnot hp
    exact ⟨hmoved t _ _ rfl hb, List.prefix_rfl, rfl⟩
  | yield t f b x hp => exact ha.elim
  | swapOut t f b hp => exact ha.elim
  | decrementIdle t f hp => exact (hclash rfl (hnot hp)).elim
  | decrement t f b hp => exact (hclash rfl (hnot hp)).elim
  | ready t f b hp => exact (hclash rfl (hnot hp)).elim
  | ended t f b hp => exact (hclash rfl (hnot hp)).elim
  | endedCb t f hp => exact (hclash rfl (hnot hp)).elim
  | hold t f b hp => exact (hclash rfl (hnot hp)).elim
  | holdCb t f hp => exact (hclash rfl (hnot hp)).elim
  | requeue t f b hp => exact (hclash rfl (hnot hp)).elim

omit [DecidableEq τ] in
theorem foldl_scheduleNoLock_fibers (fcs : List (FiberAndThread τ)) (s : Scheduler τ) :
    s.fibers <+:
      (fcs.foldl (fun s ft => s.scheduleNoLock { ft with thread := none }) s).fibers := by
  induction fcs generalizing s with
  | nil => exact List.prefix_rfl
  | cons ft fcs ih =>
    have hone : s.fibers <+: (s.scheduleNoLock { ft with thread := none }).fibers := by
      rw [scheduleNoLock_fibers]
      split
      · exact List.prefix_append _ _
      · exact List.prefix_rfl
    exact hone.trans (ih _)

theorem call_stuck {c : Call τ} (hs : Stuck p) (ha : Unprompted (.call c))
    (h : p.call c = .ok p') : Stuck p' ∧ p.scheduler.fibers <+: p'.scheduler.fibers := by
  have hneed : need_tickle p.scheduler c = false := by
    have hempty : p.scheduler.fibers.isEmpty = false := List.isEmpty_eq_false_iff.mpr hs.fibers_ne
    cases c with
    | op op =>
      cases op with
      | schedule ft => exact hempty
      | _ => rfl
    | scheduleAll fcs => rw [need_tickle, hempty, Bool.false_and]
  have hall : ∀ s', (∀ t, awake (s'.place t) = false) → p.scheduler.fibers <+: s'.fibers →
      p.dueAfter c = p.due → Stuck { p with
        scheduler := s'
        checks := p.checks + (need_tickle p.scheduler c).toNat
        due := p.dueAfter c } := by
    intro s' hasleep hprefix hdue
    refine ⟨fun hnil => hs.fibers_ne ?_, hasleep, ?_, hs.writes_eq, ?_, hs.signal_eq⟩
    · exact List.prefix_nil.mp (hnil ▸ hprefix)
    · rw [hneed, hs.checks_eq]
      rfl
    · rw [hdue]
      exact hs.due_eq
  rw [WorkerPool.call] at h
  split at h
  · obtain ⟨s', hstep, rfl⟩ := map_eq_ok.mp h
    cases c with
    | op op =>
      obtain ⟨hasleep, hprefix, hdue⟩ := move_stuck hs ha (move_of_step hstep)
      exact ⟨hall s' hasleep hprefix hdue, hprefix⟩
    | scheduleAll fcs =>
      change p.scheduler.scheduleAll fcs = .ok s' at hstep
      rw [scheduleAll] at hstep
      split at hstep
      · cases hstep
        have hprefix := foldl_scheduleNoLock_fibers fcs p.scheduler
        refine ⟨hall _ (fun t => ?_) hprefix rfl, hprefix⟩
        rw [foldl_scheduleNoLock_place]
        exact hs.asleep t
      · cases hstep
  · cases h

theorem step_stuck (hs : Stuck p) (ha : Unprompted a) (h : Step p a p') :
    Stuck p' ∧ p.scheduler.fibers <+: p'.scheduler.fibers := by
  cases a with
  | call c => exact call_stuck hs ha h
  | tickle => exact ha.elim
  | check who =>
    cases who with
    | none =>
      have hnone : p.check none = .error .disabled := if_pos hs.checks_eq
      cases hnone.symm.trans h
    | some t =>
      have hnone : p.check (some t) = .error .disabled :=
        if_pos (by rw [hs.due_eq t]; exact fun heq => by cases heq)
      cases hnone.symm.trans h
  | write who =>
    cases who with
    | none =>
      have hnone : p.write none = .error .disabled := if_pos hs.writes_eq
      cases hnone.symm.trans h
    | some t =>
      have hnone : p.write (some t) = .error .disabled :=
        if_pos (by rw [hs.due_eq t]; exact fun heq => by cases heq)
      cases hnone.symm.trans h
  | wake t =>
    change p.wake t = .ok p' at h
    rw [wake] at h
    split at h
    · rw [hs.signal_eq, if_neg Bool.false_ne_true] at h
      cases h
    · cases h

/-- A wake-up that is lost stays lost: however much more is scheduled, no thread takes anything
until an `epoll_wait` returns for another reason or somebody else calls `tickle`. -/
theorem run_stuck {t : List (Act τ × WorkerPool τ)} (run : Run Step p t) (hs : Stuck p)
    (ha : Meets (fun _ a => Unprompted a) p t) :
    Always (fun p' => Stuck p' ∧ p.scheduler.fibers <+: p'.scheduler.fibers) p t := by
  refine always_of_meets ?_ run ⟨hs, List.prefix_rfl⟩ ha
  rintro q a q' ⟨hq, hprefix⟩ ha hstep
  obtain ⟨hq', hmore⟩ := step_stuck hq ha hstep
  exact ⟨hq', hprefix.trans hmore⟩

/-- A callback is scheduled while the only thread is between its search and the counter. -/
def lost : List (Act Unit) :=
  [.call (.op (.take ())), .call (.op (.schedule { cb := some 0 })), .check none,
    .call (.op (.branch ())), .call (.op (.swapIn ()))]

/-- More is scheduled after that. -/
def later : List (Act Unit) :=
  [.call (.op (.schedule { cb := some 1 })),
    .call (.scheduleAll [{ cb := some 2 }, { cb := some 3 }])]

theorem run_stuck_lost : ∃ t more, trace step init lost = .ok t ∧ Stuck (last init t) ∧
    trace step (last init t) later = .ok more ∧
    Always (fun p' => Stuck p' ∧ (last init t).scheduler.fibers <+: p'.scheduler.fibers)
      (last init t) more := by
  have hstuck : ∀ t, trace step (init : WorkerPool Unit) lost = .ok t → Stuck (last init t) := by
    intro t ht
    cases ht
    exact ⟨fun hnil => (by cases hnil), fun _ => rfl, rfl, rfl, fun _ => rfl, rfl⟩
  refine ⟨_, _, rfl, hstuck _ rfl, rfl, run_stuck (run_of_trace later rfl) (hstuck _ rfl) ?_⟩
  exact ⟨trivial, trivial, trivial⟩

end Stuck

end WorkerPool

end CxkFramework
