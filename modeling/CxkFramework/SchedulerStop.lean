import CxkFramework.SchedulerTasks

/-!
# When the scheduler stops

`stopping` looks at the queue and at the counter of active threads. A thread whose fiber is
`READY` again has left the counter before it puts the fiber back, and in between `stopping`
sees neither. That is the only way in which it errs.
-/

namespace CxkFramework.Scheduler

open Runs

variable {τ : Type} [DecidableEq τ]

/-- `Scheduler::stopping`, with `m_stopping` and `m_autoStop`. -/
def stopping (s : Scheduler τ) (stopping autoStop : Bool) : Bool :=
  stopping && autoStop && s.fibers.isEmpty && s.activeThreadCount = 0

/-- The thread has let go of the counter and will put its fiber back. -/
def PutsBack (s : Scheduler τ) (t : τ) : Prop :=
  ∃ f b, (s.place t = .fixing f b ∧ b ≠ .idle ∧ s.state f = .READY) ∨ s.place t = .requeuing f b

/-- There is nothing to do: the queue is empty, no thread has a task or puts one back, and no
fiber is `READY` but perhaps the idle fiber of a thread. -/
structure Quiescent (s : Scheduler τ) : Prop where
  fibers_eq : s.fibers = []
  not_busy : ∀ t, (s.place t).busy = false
  not_putsBack : ∀ t, ¬PutsBack s t
  not_ready : ∀ id, s.state (.made id) ≠ .READY

/-! ## Where a fiber that is `READY` is -/

/-- The thread has the fiber and is not in it. -/
def Place.keeps (f : Fiber τ) : Place τ → Prop
  | .taken ft => ft.fiber = some f
  | .entering g _ | .leaving g _ | .returned g _ | .fixing g _ | .requeuing g _ => g = f
  | .top | .nothing | .inside _ _ | .exited => False

/-- The fiber a thread runs because it has nothing else to run. -/
def Place.idles : Place τ → Option (Fiber τ)
  | .entering f b | .inside f b | .leaving f b | .returned f b | .fixing f b | .requeuing f b =>
    if b = .idle then some f else none
  | .top | .taken _ | .nothing | .exited => none

structure ReadyInv (s : Scheduler τ) : Prop where
  found : ∀ f, s.state f = .READY →
    (∃ ft ∈ s.fibers, ft.fiber = some f) ∨ ∃ t, (s.place t).keeps f
  idle : ∀ t f, (s.place t).idles = some f → f = .idle t

section Steps

variable {s s' : Scheduler τ} {t : τ}

omit [DecidableEq τ] in
theorem readyInv_init : ReadyInv (init : Scheduler τ) where
  found f hf := by cases hf
  idle t f hf := by cases hf

/-- A thread moves. What becomes `READY` it keeps, and what it lets go of is not `READY`. -/
theorem ReadyInv.moveTo {s₁ : Scheduler τ} {p : Place τ} (hs : ReadyInv s)
    (hfibers : ∀ ft ∈ s.fibers, ft ∈ s₁.fibers ∨ ∀ f, ft.fiber = some f → p.keeps f)
    (hplace : s₁.place = s.place)
    (hnew : ∀ f, s₁.state f = .READY → s.state f = .READY ∨ p.keeps f)
    (hkeeps : ∀ f, s₁.state f = .READY → (s.place t).keeps f → p.keeps f)
    (hidle : ∀ f, p.idles = some f → f = .idle t) : ReadyInv (s₁.moveTo t p) where
  found f hf := by
    have hself : (s₁.moveTo t p).place t = p := by rw [moveTo_place, Function.update_self]
    have hkept : p.keeps f → ∃ t', ((s₁.moveTo t p).place t').keeps f := by
      intro hkeep
      exact ⟨t, by rw [hself]; exact hkeep⟩
    rcases hnew f hf with hready | hkeep
    · rcases hs.found f hready with ⟨ft, hft, hfiber⟩ | ⟨u, hu⟩
      · rcases hfibers ft hft with hmem | hkeep
        · exact .inl ⟨ft, hmem, hfiber⟩
        · exact .inr (hkept (hkeep f hfiber))
      · by_cases hut : u = t
        · exact .inr (hkept (hkeeps f hf (hut ▸ hu)))
        · refine .inr ⟨u, ?_⟩
          rwa [moveTo_place, Function.update_of_ne hut, hplace]
    · exact .inr (hkept hkeep)
  idle u f hf := by
    by_cases hut : u = t
    · subst hut
      rw [moveTo_place, Function.update_self] at hf
      exact hidle f hf
    · rw [moveTo_place, Function.update_of_ne hut, hplace] at hf
      exact hs.idle u f hf

/-- Neither the queue nor a state word changes. -/
theorem ReadyInv.moveTo_same {s₁ : Scheduler τ} {p : Place τ} (hs : ReadyInv s)
    (hfibers : s₁.fibers = s.fibers) (hplace : s₁.place = s.place) (hstate : s₁.state = s.state)
    (hkeeps : ∀ f, s.state f = .READY → (s.place t).keeps f → p.keeps f)
    (hidle : ∀ f, p.idles = some f → f = .idle t) : ReadyInv (s₁.moveTo t p) := by
  refine hs.moveTo (fun ft hft => .inl (hfibers ▸ hft)) hplace (fun f hf => ?_) (fun f hf => ?_) hidle
  · exact .inl (hstate ▸ hf)
  · exact hkeeps f (hstate ▸ hf)

/-- The thread goes on with the same fiber. -/
theorem ReadyInv.moveTo_on {s₁ : Scheduler τ} {p q : Place τ} (hs : ReadyInv s) (hq : s.place t = q)
    (hfibers : s₁.fibers = s.fibers) (hplace : s₁.place = s.place) (hstate : s₁.state = s.state)
    (hkeeps : ∀ f, q.keeps f → p.keeps f) (hidle : ∀ f, p.idles = some f → q.idles = some f) :
    ReadyInv (s₁.moveTo t p) :=
  hs.moveTo_same hfibers hplace hstate (fun f _ hk => hkeeps f (hq ▸ hk))
    (fun f hf => hs.idle t f (hq.symm ▸ hidle f hf))

/-- The state word of one fiber is written, with something else than `READY`. -/
theorem ReadyInv.moveTo_setState {s₁ : Scheduler τ} {p : Place τ} {f : Fiber τ} {x : FiberState}
    (hs : ReadyInv s) (hx : x ≠ .READY) (hfibers : s₁.fibers = s.fibers)
    (hplace : s₁.place = s.place) (hstate : s₁.state = (s.setState f x).state)
    (hkeeps : ∀ g, g ≠ f → s.state g = .READY → (s.place t).keeps g → p.keeps g)
    (hidle : ∀ g, p.idles = some g → g = .idle t) : ReadyInv (s₁.moveTo t p) := by
  have hother : ∀ g, s₁.state g = .READY → g ≠ f ∧ s.state g = .READY := by
    intro g hg
    rw [hstate, setState] at hg
    by_cases hgf : g = f
    · simp only [hgf, Function.update_self] at hg
      exact absurd hg hx
    · simp only [Function.update_of_ne hgf] at hg
      exact ⟨hgf, hg⟩
  refine hs.moveTo (fun ft hft => .inl (hfibers ▸ hft)) hplace (fun g hg => .inl (hother g hg).2)
    (fun g hg => ?_) hidle
  exact hkeeps g (hother g hg).1 (hother g hg).2

omit [DecidableEq τ] in
theorem ne_ready_of_finished {f : Fiber τ} (h : finished (s.state f) = true) :
    s.state f ≠ .READY := by
  intro heq
  rw [heq] at h
  cases h

omit [DecidableEq τ] in
/-- A fiber is put into the queue. -/
theorem ReadyInv.scheduleNoLock (hs : ReadyInv s) (ft : FiberAndThread τ) :
    ReadyInv (s.scheduleNoLock ft) where
  found f hf := by
    rw [scheduleNoLock_state] at hf
    rw [scheduleNoLock_fibers, scheduleNoLock_place]
    rcases hs.found f hf with ⟨ft', hft', hfiber⟩ | hkeep
    · refine .inl ⟨ft', ?_, hfiber⟩
      split
      · exact List.mem_append_left _ hft'
      · exact hft'
    · exact .inr hkeep
  idle t f hf := by
    rw [scheduleNoLock_place] at hf
    exact hs.idle t f hf

/-- A thread puts back the fiber it keeps. -/
theorem ReadyInv.requeue {f : Fiber τ} {b : Branch} (hs : ReadyInv s)
    (hp : s.place t = .requeuing f b) :
    ReadyInv ((s.letGo t b).scheduleNoLock { fiber := some f }) := by
  have hgo : (s.letGo t b).fibers = s.fibers ∧ (s.letGo t b).state = s.state ∧
      (s.letGo t b).place = Function.update s.place t .top := by
    cases b with
    | cb => exact ⟨rfl, rfl, rfl⟩
    | fiber => exact ⟨rfl, rfl, rfl⟩
    | idle => exact ⟨rfl, rfl, rfl⟩
  obtain ⟨hfibers, hstate, hplace⟩ := hgo
  refine ⟨fun g hg => ?_, fun u g hg => ?_⟩
  · rw [scheduleNoLock_state, hstate] at hg
    rw [scheduleNoLock_fibers, scheduleNoLock_place, hfibers, hplace]
    by_cases hgf : g = f
    · exact .inl ⟨{ fiber := some f }, List.mem_append_right _ List.mem_cons_self, by rw [hgf]⟩
    · rcases hs.found g hg with ⟨ft, hft, hfiber⟩ | ⟨u, hu⟩
      · exact .inl ⟨ft, List.mem_append_left _ hft, hfiber⟩
      · have hut : u ≠ t := by
          rintro rfl
          rw [hp] at hu
          exact hgf hu.symm
        exact .inr ⟨u, by rwa [Function.update_of_ne hut]⟩
  · rw [scheduleNoLock_place, hplace] at hg
    by_cases hut : u = t
    · rw [hut, Function.update_self] at hg
      cases hg
    · rw [Function.update_of_ne hut] at hg
      exact hs.idle u g hg

theorem move_readyInv {op : Op τ} (hs : ReadyInv s) (h : Move s op s') : ReadyInv s' := by
  cases h with
  | newFiber => exact ⟨hs.found, hs.idle⟩
  | schedule ft _ => exact hs.scheduleNoLock ft
  | take t ft as bs hp _ hfibers _ =>
    refine hs.moveTo (fun ft' hft' => ?_) rfl (fun f hf => .inl hf) (fun f _ hk => ?_) (fun _ => nofun)
    · rw [hfibers] at hft'
      rcases List.mem_append.mp hft' with hmem | hmem
      · exact .inl (List.mem_append_left _ hmem)
      · rcases List.mem_cons.mp hmem with rfl | hmem
        · exact .inr (fun f hf => hf)
        · exact .inl (List.mem_append_right _ hmem)
    · rw [hp] at hk
      exact hk.elim
  | takeNothing t hp _ =>
    refine hs.moveTo_same rfl rfl rfl (fun f _ hk => ?_) (fun _ => nofun)
    rw [hp] at hk
    exact hk
  | enter t ft f hp hfiber _ =>
    refine hs.moveTo_same rfl rfl rfl (fun g _ hk => ?_) (fun _ => nofun)
    rw [hp] at hk
    exact Option.some.inj (hfiber.symm.trans hk)
  | reuseCb t ft f hp hended _ =>
    refine hs.moveTo_setState (by decide) rfl rfl rfl (fun g _ hg hk => ?_) (fun _ => nofun)
    rw [hp] at hk
    exact absurd hg (ne_ready_of_finished (hended g hk))
  | makeCb t ft hp hended =>
    refine hs.moveTo_same rfl rfl rfl (fun g hg hk => ?_) (fun _ => nofun)
    rw [hp] at hk
    exact absurd hg (ne_ready_of_finished (hended g hk))
  | drop t ft hp hended =>
    refine hs.moveTo_same rfl rfl rfl (fun g hg hk => ?_) (fun _ => nofun)
    rw [hp] at hk
    exact absurd hg (ne_ready_of_finished (hended g hk))
  | exit t hp =>
    refine hs.moveTo_same rfl rfl rfl (fun g _ hk => ?_) (fun _ => nofun)
    rw [hp] at hk
    exact hk
  | enterIdle t hp =>
    refine hs.moveTo_same rfl rfl rfl (fun g _ hk => ?_) (fun g hg => ?_)
    · rw [hp] at hk
      exact hk.elim
    · cases hg
      rfl
  | swapIn t f b hp =>
    refine hs.moveTo_setState (by decide) rfl rfl rfl (fun g hgf _ hk => ?_) (fun g hg => ?_)
    · rw [hp] at hk
      exact absurd hk.symm hgf
    · refine hs.idle t g ?_
      rw [hp]
      exact hg
  | yield t f b x hp =>
    refine hs.moveTo (fun ft hft => .inl hft) rfl (fun g hg => ?_) (fun g _ hk => ?_) (fun g hg => ?_)
    · by_cases hgf : g = f
      · exact .inr hgf.symm
      · simp only [setState, Function.update_of_ne hgf] at hg
        exact .inl hg
    · rw [hp] at hk
      exact hk.elim
    · refine hs.idle t g ?_
      rw [hp]
      exact hg
  | swapOut t f b hp =>
    rcases hp with hp | ⟨hp, -⟩
    · exact hs.moveTo_on hp rfl rfl rfl (fun _ h => h) (fun _ h => h)
    · exact hs.moveTo_on hp rfl rfl rfl (fun _ h => h.elim) (fun _ h => h)
  | decrementIdle t f hp => exact hs.moveTo_on hp rfl rfl rfl (fun _ h => h) (fun _ h => h)
  | decrement t f b hp _ => exact hs.moveTo_on hp rfl rfl rfl (fun _ h => h) (fun _ h => h)
  | ready t f b hp _ _ => exact hs.moveTo_on hp rfl rfl rfl (fun _ h => h) (fun _ h => h)
  | ended t f b hp _ hended =>
    refine hs.moveTo_same rfl rfl rfl (fun g hg hk => ?_) (fun _ => nofun)
    rw [hp] at hk
    have hk : f = g := hk
    exact absurd (hk ▸ hg) (ne_ready_of_finished hended)
  | endedCb t f hp _ =>
    refine hs.moveTo_setState (by decide) rfl rfl rfl (fun g hgf _ hk => ?_) (fun _ => nofun)
    rw [hp] at hk
    exact absurd hk.symm hgf
  | hold t f b hp _ _ =>
    refine hs.moveTo_setState (by decide) rfl rfl rfl (fun g hgf _ hk => ?_) (fun _ => nofun)
    rw [hp] at hk
    exact absurd hk.symm hgf
  | holdCb t f hp _ =>
    refine hs.moveTo_setState (by decide) rfl rfl rfl (fun g hgf _ hk => ?_) (fun _ => nofun)
    rw [hp] at hk
    exact absurd hk.symm hgf
  | requeue t f b hp => exact hs.requeue hp

end Steps

omit [DecidableEq τ] in
/-- When `stopping` says so there is nothing to do, unless a thread is about to put a fiber
back. -/
theorem quiescent_iff [Fintype τ] {s : Scheduler τ} {l : Ledger τ} (hready : ReadyInv s)
    (hcount : Conserved (s, l)) {stop auto : Bool} (h : s.stopping stop auto = true) :
    Quiescent s ↔ ∀ t, ¬PutsBack s t := by
  simp only [stopping, Bool.and_eq_true, List.isEmpty_iff, decide_eq_true_eq] at h
  obtain ⟨⟨-, hempty⟩, hzero⟩ := h
  have hnone : ∀ t, (s.place t).busy = false := by
    intro t
    have hcard : busyThreads s = 0 := by
      have heq := hcount.count_eq
      change s.activeThreadCount = busyThreads s at heq
      omega
    have hfilter := Finset.card_eq_zero.mp hcard
    simpa using Finset.filter_eq_empty_iff.mp hfilter (Finset.mem_univ t)
  refine ⟨Quiescent.not_putsBack, fun hput => ⟨hempty, hnone, hput, fun id hid => ?_⟩⟩
  rcases hready.found (.made id) hid with ⟨ft, hft, -⟩ | ⟨t, ht⟩
  · rw [hempty] at hft
    cases hft
  · -- a thread keeps it, and not in its idle branch
    have hbusy := hnone t
    have hidle := hready.idle t (.made id)
    cases hp : s.place t with
    | top | nothing | inside | exited =>
      rw [hp] at ht
      exact ht
    | taken ft =>
      rw [hp] at hbusy
      cases hbusy
    | entering g b | leaving g b | returned g b =>
      rw [hp] at ht hbusy hidle
      have hb : b = .idle := by simpa [Place.busy] using hbusy
      have hg : g = .made id := ht
      cases hidle (by rw [hb, hg]; rfl)
    | fixing g b =>
      rw [hp] at ht hidle
      have hg : g = .made id := ht
      by_cases hb : b = .idle
      · cases hidle (by rw [hb, hg]; rfl)
      · exact hput t ⟨g, b, .inl ⟨hp, hb, hg ▸ hid⟩⟩
    | requeuing g b => exact hput t ⟨g, b, .inr hp⟩

/-- In every run, whenever `stopping` returns true: there is nothing left to do exactly when no
thread is between the decrement of the counter and the `schedule` of a fiber that is `READY`. -/
theorem run_stopping [Fintype τ] (t : List (Op τ × Scheduler τ))
    (run : Run Step (init : Scheduler τ) t) :
    Always (fun s => ∀ stop auto, s.stopping stop auto = true →
      (Quiescent s ↔ ∀ u, ¬PutsBack s u)) init t := by
  refine (always_of_step (I := fun s => ReadyInv s ∧ ∃ l, Conserved (s, l)) ?_ run
    ⟨readyInv_init, _, conserved_init⟩).mono ?_
  · rintro s op s' ⟨hready, l, hcount⟩ hstep
    have hledger : LedgerStep (s, l) (.op op) (s', l.after s (.op op)) :=
      map_eq_ok.mpr ⟨s', hstep, rfl⟩
    exact ⟨move_readyInv hready (move_of_step hstep), _, (step_conserved hcount hledger).1⟩
  · rintro s ⟨hready, l, hcount⟩ stop auto hstop
    exact quiescent_iff hready hcount hstop

/-- A fiber ends on a thread and is not put back. -/
theorem run_stopping_term : ∃ t, trace step (init : Scheduler Bool) [.newFiber,
      .schedule { fiber := some (.made 0) }, .take true, .branch true, .swapIn true,
      .yield true .TERM, .swapOut true, .decrement true] = .ok t ∧
    Always (fun s => ∀ stop auto, s.stopping stop auto = true →
      (Quiescent s ↔ ∀ u, ¬PutsBack s u)) init t :=
  ⟨_, rfl, run_stopping _ (run_of_trace [.newFiber,
    .schedule { fiber := some (.made 0) }, .take true, .branch true, .swapIn true,
    .yield true .TERM, .swapOut true, .decrement true] rfl)⟩

/-- A fiber yields and is `READY`; its thread has left the counter and not put it back. -/
theorem run_ready_breaks_stopping : ∃ t, Run Step (init : Scheduler Bool) t ∧
    ¬Always (fun s => ∀ stop auto, s.stopping stop auto = true → Quiescent s) init t := by
  refine ⟨_, run_of_trace [.newFiber, .schedule { fiber := some (.made 0) }, .take true, .branch true,
    .swapIn true, .yield true .READY, .swapOut true, .decrement true] rfl, fun h => ?_⟩
  have hlast := h.2 _ (List.mem_of_getElem? (show _[7]? = some _ from rfl))
  exact (hlast true true rfl).not_ready 0 rfl

end CxkFramework.Scheduler
