import CxkFramework.Scheduler
import Mathlib.Tactic

/-!
# The steps of the scheduler

What each step needs and what it leaves behind, with one case for every way through `run`.
Invariants of the scheduler are proved by cases on these and need not look into the loop.
-/

namespace CxkFramework.Scheduler

variable {τ : Type} [DecidableEq τ]

omit [DecidableEq τ] in
theorem scheduleNoLock_fibers (s : Scheduler τ) (ft : FiberAndThread τ) :
    (s.scheduleNoLock ft).fibers =
      if ft.fiber.isSome || ft.cb.isSome then s.fibers ++ [ft] else s.fibers := by
  rw [scheduleNoLock]
  split <;> rfl

omit [DecidableEq τ] in
theorem scheduleNoLock_place (s : Scheduler τ) (ft : FiberAndThread τ) :
    (s.scheduleNoLock ft).place = s.place := by
  rw [scheduleNoLock]
  split <;> rfl

omit [DecidableEq τ] in
theorem scheduleNoLock_count (s : Scheduler τ) (ft : FiberAndThread τ) :
    (s.scheduleNoLock ft).activeThreadCount = s.activeThreadCount := by
  rw [scheduleNoLock]
  split <;> rfl

omit [DecidableEq τ] in
theorem scheduleNoLock_state (s : Scheduler τ) (ft : FiberAndThread τ) :
    (s.scheduleNoLock ft).state = s.state := by
  rw [scheduleNoLock]
  split <;> rfl

omit [DecidableEq τ] in
theorem scheduleNoLock_cbFiber (s : Scheduler τ) (ft : FiberAndThread τ) :
    (s.scheduleNoLock ft).cbFiber = s.cbFiber := by
  rw [scheduleNoLock]
  split <;> rfl

omit [DecidableEq τ] in
theorem scheduleNoLock_fiberId (s : Scheduler τ) (ft : FiberAndThread τ) :
    (s.scheduleNoLock ft).fiberId = s.fiberId := by
  rw [scheduleNoLock]
  split <;> rfl

/-- An entry is for any thread or for the one that takes it. -/
theorem eligible_pin {s : Scheduler τ} {t : τ} {ft : FiberAndThread τ} (h : s.eligible t ft = true) :
    ft.thread = none ∨ ft.thread = some t := by
  simp only [eligible, Bool.and_eq_true, Bool.or_eq_true, decide_eq_true_eq] at h
  exact h.1

inductive Move (s : Scheduler τ) : Op τ → Scheduler τ → Prop where
  | newFiber : Move s .newFiber { s with fiberId := s.fiberId + 1 }
  | schedule (ft : FiberAndThread τ) (known : ∀ f, ft.fiber = some f → s.known f = true) :
      Move s (.schedule ft) (s.scheduleNoLock ft)
  | take (t : τ) (ft : FiberAndThread τ) (as bs : List (FiberAndThread τ))
      (place_eq : s.place t = .top) (eligible : s.eligible t ft = true)
      (fibers_eq : s.fibers = as ++ ft :: bs) (passed : ∀ x ∈ as, s.eligible t x = false) :
      Move s (.take t) ({ s with
        fibers := as ++ bs
        activeThreadCount := s.activeThreadCount + 1 }.moveTo t (.taken ft))
  | takeNothing (t : τ) (place_eq : s.place t = .top)
      (passed : ∀ x ∈ s.fibers, s.eligible t x = false) :
      Move s (.take t) (s.moveTo t .nothing)
  | enter (t : τ) (ft : FiberAndThread τ) (f : Fiber τ) (place_eq : s.place t = .taken ft)
      (fiber_eq : ft.fiber = some f) (running : finished (s.state f) = false) :
      Move s (.branch t) (s.moveTo t (.entering f .fiber))
  | reuseCb (t : τ) (ft : FiberAndThread τ) (f : Fiber τ) (place_eq : s.place t = .taken ft)
      (ended : ∀ g, ft.fiber = some g → finished (s.state g) = true)
      (cbFiber_eq : s.cbFiber t = some f) :
      Move s (.branch t) ((s.setState f .INIT).moveTo t (.entering f .cb))
  | makeCb (t : τ) (ft : FiberAndThread τ) (place_eq : s.place t = .taken ft)
      (ended : ∀ g, ft.fiber = some g → finished (s.state g) = true) :
      Move s (.branch t) (({ s with fiberId := s.fiberId + 1 }.setCbFiber t
        (some (.made s.fiberId))).moveTo t (.entering (.made s.fiberId) .cb))
  | drop (t : τ) (ft : FiberAndThread τ) (place_eq : s.place t = .taken ft)
      (ended : ∀ g, ft.fiber = some g → finished (s.state g) = true) :
      Move s (.branch t) ({ s with
        activeThreadCount := s.activeThreadCount - 1 }.moveTo t .top)
  | exit (t : τ) (place_eq : s.place t = .nothing) : Move s (.branch t) (s.moveTo t .exited)
  | enterIdle (t : τ) (place_eq : s.place t = .nothing) :
      Move s (.branch t) ({ s with
        idelThreadCount := s.idelThreadCount + 1 }.moveTo t (.entering (.idle t) .idle))
  | swapIn (t : τ) (f : Fiber τ) (b : Branch) (place_eq : s.place t = .entering f b) :
      Move s (.swapIn t) ((s.setState f .EXEC).moveTo t (.inside f b))
  | yield (t : τ) (f : Fiber τ) (b : Branch) (x : FiberState) (place_eq : s.place t = .inside f b) :
      Move s (.yield t x) ((s.setState f x).moveTo t (.leaving f b))
  | swapOut (t : τ) (f : Fiber τ) (b : Branch)
      (place_eq : s.place t = .leaving f b ∨ (s.place t = .inside f b ∧ b = .idle)) :
      Move s (.swapOut t) (s.moveTo t (.returned f b))
  | decrementIdle (t : τ) (f : Fiber τ) (place_eq : s.place t = .returned f .idle) :
      Move s (.decrement t) ({ s with
        idelThreadCount := s.idelThreadCount - 1 }.moveTo t (.fixing f .idle))
  | decrement (t : τ) (f : Fiber τ) (b : Branch) (place_eq : s.place t = .returned f b)
      (task : b ≠ .idle) :
      Move s (.decrement t) ({ s with
        activeThreadCount := s.activeThreadCount - 1 }.moveTo t (.fixing f b))
  | ready (t : τ) (f : Fiber τ) (b : Branch) (place_eq : s.place t = .fixing f b) (task : b ≠ .idle)
      (state_eq : s.state f = .READY) : Move s (.fixUp t) (s.moveTo t (.requeuing f b))
  | ended (t : τ) (f : Fiber τ) (b : Branch) (place_eq : s.place t = .fixing f b) (not_cb : b ≠ .cb)
      (ended : finished (s.state f) = true) : Move s (.fixUp t) (s.moveTo t .top)
  | endedCb (t : τ) (f : Fiber τ) (place_eq : s.place t = .fixing f .cb)
      (ended : finished (s.state f) = true) :
      Move s (.fixUp t) ((s.setState f .INIT).moveTo t .top)
  | hold (t : τ) (f : Fiber τ) (b : Branch) (place_eq : s.place t = .fixing f b) (not_cb : b ≠ .cb)
      (running : finished (s.state f) = false) :
      Move s (.fixUp t) ((s.setState f .HOLD).moveTo t .top)
  | holdCb (t : τ) (f : Fiber τ) (place_eq : s.place t = .fixing f .cb)
      (running : finished (s.state f) = false) :
      Move s (.fixUp t) (((s.setState f .HOLD).setCbFiber t none).moveTo t .top)
  | requeue (t : τ) (f : Fiber τ) (b : Branch) (place_eq : s.place t = .requeuing f b) :
      Move s (.requeue t) ((s.letGo t b).scheduleNoLock { fiber := some f })

section Steps

open Runs

variable {s s' : Scheduler τ} {t : τ}

theorem schedule_move {ft : FiberAndThread τ} (h : s.schedule ft = .ok s') :
    Move s (.schedule ft) s' := by
  rw [schedule] at h
  split at h
  · next hknown =>
    cases h
    refine .schedule ft (fun f hf => ?_)
    rw [hf] at hknown
    exact hknown
  · cases h

theorem take_move (h : s.take t = .ok s') : Move s (.take t) s' := by
  rw [take] at h
  split at h
  · next hp =>
    split at h
    · next ft hfind =>
      cases h
      obtain ⟨hel, as, bs, hfibers, has⟩ := List.find?_eq_some_iff_append.mp hfind
      have herase : s.fibers.eraseP (s.eligible t) = as ++ bs := by
        rw [hfibers, List.eraseP_append_right _ (by simpa using has), List.eraseP_cons_of_pos hel]
      rw [herase]
      exact .take t ft as bs hp hel hfibers (fun x hx => by simpa using has x hx)
    · next hfind =>
      cases h
      exact .takeNothing t hp (fun x hx => by simpa using List.find?_eq_none.mp hfind x hx)
  · cases h

theorem prepareCb_move {ft : FiberAndThread τ} (hp : s.place t = .taken ft)
    (hended : ∀ g, ft.fiber = some g → finished (s.state g) = true)
    (h : s.prepareCb t = .ok s') : Move s (.branch t) s' := by
  rw [prepareCb] at h
  split at h
  · next f hcb =>
    obtain ⟨s₁, hreset, h⟩ := bind_eq_ok.mp h
    cases h
    rw [reset] at hreset
    split at hreset
    · cases hreset
      exact .reuseCb t ft f hp hended hcb
    · cases hreset
  · cases h
    exact .makeCb t ft hp hended

theorem branch_move (h : s.branch t = .ok s') : Move s (.branch t) s' := by
  rw [branch] at h
  split at h
  · next ft hp =>
    have hended : ft.fiber.filter (fun f => !finished (s.state f)) = none →
        ∀ g, ft.fiber = some g → finished (s.state g) = true := by
      intro hnone g hg
      rw [hg, Option.filter_some] at hnone
      simpa using hnone
    split at h
    · next hf =>
      cases h
      obtain ⟨hfiber, hrunning⟩ := Option.filter_eq_some_iff.mp hf
      exact .enter t ft _ hp hfiber (by simpa using hrunning)
    · next hnone _ => exact prepareCb_move hp (hended hnone) h
    · next hnone _ =>
      cases h
      exact .drop t ft hp (hended hnone)
  · next hp =>
    split at h
    · cases h
      exact .exit t hp
    · cases h
      exact .enterIdle t hp
  · cases h

theorem swapIn_move (h : s.swapIn t = .ok s') : Move s (.swapIn t) s' := by
  rw [Scheduler.swapIn] at h
  split at h
  · next f b hp =>
    split at h
    · cases h
    · cases h
      exact .swapIn t f b hp
  · cases h

theorem yield_move {x : FiberState} (h : s.yield t x = .ok s') : Move s (.yield t x) s' := by
  rw [Scheduler.yield] at h
  split at h
  · next f b hp =>
    split at h
    · cases h
    · cases h
      exact .yield t f b x hp
  · cases h

theorem swapOut_move (h : s.swapOut t = .ok s') : Move s (.swapOut t) s' := by
  rw [Scheduler.swapOut] at h
  split at h
  · next f hp =>
    cases h
    exact .swapOut t f .idle (.inr ⟨hp, rfl⟩)
  · next f b hp =>
    cases h
    exact .swapOut t f b (.inl hp)
  · cases h

theorem decrement_move (h : s.decrement t = .ok s') : Move s (.decrement t) s' := by
  rw [Scheduler.decrement] at h
  split at h
  · next f hp =>
    cases h
    exact .decrementIdle t f hp
  · next f b hb hp =>
    cases h
    exact .decrement t f b hp hb
  · cases h

theorem fixUp_move (h : s.fixUp t = .ok s') : Move s (.fixUp t) s' := by
  rw [fixUp] at h
  split at h
  · next f hp =>
    split at h
    · next hready =>
      cases h
      exact .ready t f .fiber hp (by decide) hready
    · split at h
      · next hended =>
        cases h
        exact .ended t f .fiber hp (by decide) hended
      · next hrunning =>
        cases h
        exact .hold t f .fiber hp (by decide) (by simpa using hrunning)
  · next f hp =>
    split at h
    · next hready =>
      cases h
      exact .ready t f .cb hp (by decide) hready
    · split at h
      · next hended =>
        cases h
        exact .endedCb t f hp hended
      · next hrunning =>
        cases h
        exact .holdCb t f hp (by simpa using hrunning)
  · next f hp =>
    split at h
    · next hended =>
      cases h
      exact .ended t f .idle hp (by decide) hended
    · next hrunning =>
      cases h
      exact .hold t f .idle hp (by decide) (by simpa using hrunning)
  · cases h

theorem requeue_move (h : s.requeue t = .ok s') : Move s (.requeue t) s' := by
  rw [Scheduler.requeue] at h
  split at h
  · next f b hp =>
    cases h
    exact .requeue t f b hp
  · cases h

theorem move_of_step {op : Op τ} (h : Step s op s') : Move s op s' := by
  cases op with
  | newFiber =>
    cases h
    exact .newFiber
  | schedule ft => exact schedule_move h
  | take t => exact take_move h
  | branch t => exact branch_move h
  | swapIn t => exact swapIn_move h
  | yield t x => exact yield_move h
  | swapOut t => exact swapOut_move h
  | decrement t => exact decrement_move h
  | fixUp t => exact fixUp_move h
  | requeue t => exact requeue_move h

end Steps

end CxkFramework.Scheduler
