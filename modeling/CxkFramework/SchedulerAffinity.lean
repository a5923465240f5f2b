import CxkFramework.SchedulerSteps

/-!
# The thread a fiber is scheduled for

The thread stands in the entry of the queue and not in the fiber, and when `run` puts back a
fiber that is `READY` it makes an entry for any thread. A fiber that was scheduled for one thread
stays there as long as the loop does not put it back, and as long as no other thread has it as
its callback fiber and finds it ended.
-/

namespace CxkFramework.Scheduler

open Runs

variable {τ : Type} [DecidableEq τ]

/-- The thread is going to enter the fiber. -/
def Place.awaits (f : Fiber τ) : Place τ → Prop
  | .taken ft => ft.fiber = some f
  | .entering g _ => g = f
  | .top | .nothing | .inside _ _ | .leaving _ _ | .returned _ _ | .fixing _ _ | .requeuing _ _
  | .exited => False

/-- The thread has entered the fiber as its callback fiber and not yet looked at its state. -/
def Place.within (f : Fiber τ) : Place τ → Prop
  | .inside g b | .leaving g b | .returned g b | .fixing g b | .requeuing g b => g = f ∧ b = .cb
  | .top | .taken _ | .nothing | .entering _ _ | .exited => False

/-- Nobody but thread `t` is going to enter the fiber. A callback fiber may still be on its way
out of another thread. -/
structure OnlyFor (s : Scheduler τ) (f : Fiber τ) (t : τ) : Prop where
  queued : ∀ ft ∈ s.fibers, ft.fiber = some f → ft.thread = some t
  held : ∀ u, (s.place u).awaits f → u = t
  cb : ∀ u, s.cbFiber u = some f → u = t ∨ (s.place u).within f

/-- The step is no call of `schedule` for the fiber. -/
def leavesAlone (f : Fiber τ) : Op τ → Bool
  | .schedule ft => ft.fiber ≠ some f
  | _ => true

/-- Nobody schedules the fiber, the loop does not put it back, and no other thread finds its
callback fiber ended. -/
def Undisturbed (f : Fiber τ) (t : τ) (s : Scheduler τ) : Op τ → Prop
  | .schedule ft => ft.fiber ≠ some f
  | .requeue u => ∀ b, s.place u ≠ .requeuing f b
  | .fixUp u => u ≠ t → s.place u = .fixing f .cb → finished (s.state f) = false
  | _ => True

/-- If the step enters the fiber, it is on thread `t`. -/
def EntersOn (f : Fiber τ) (t : τ) (s : Scheduler τ) (op : Op τ) (_ : Scheduler τ) : Prop :=
  ∀ u b, op = .swapIn u → s.place u = .entering f b → u = t

/-- The invariant; the fiber is one that was made. -/
structure Affine (s : Scheduler τ) (id : Nat) (t : τ) : Prop extends OnlyFor s (.made id) t where
  known : id < s.fiberId

section Steps

variable {s s' : Scheduler τ} {f : Fiber τ} {id : Nat} {t : τ}

/-- A thread moves. -/
theorem OnlyFor.moveTo {s₁ : Scheduler τ} {u : τ} {p : Place τ} (hs : OnlyFor s f t)
    (hfibers : ∀ ft ∈ s₁.fibers, ft ∈ s.fibers) (hplace : s₁.place = s.place)
    (hcb : ∀ v, v ≠ u → s₁.cbFiber v = s.cbFiber v) (hawaits : p.awaits f → u = t)
    (hwithin : s₁.cbFiber u = some f → u = t ∨ p.within f) : OnlyFor (s₁.moveTo u p) f t where
  queued ft hft := hs.queued ft (hfibers ft hft)
  held v hv := by
    by_cases hvu : v = u
    · rw [hvu, moveTo_place, Function.update_self] at hv
      exact hvu.trans (hawaits hv)
    · rw [moveTo_place, Function.update_of_ne hvu, hplace] at hv
      exact hs.held v hv
  cb v hv := by
    have hv : s₁.cbFiber v = some f := hv
    by_cases hvu : v = u
    · subst hvu
      rw [moveTo_place, Function.update_self]
      exact hwithin hv
    · rw [moveTo_place, Function.update_of_ne hvu, hplace]
      exact hs.cb v (hcb v hvu ▸ hv)

/-- A thread moves on from a place where it has no callback fiber of others. -/
theorem OnlyFor.moveTo_same {s₁ : Scheduler τ} {u : τ} {p q : Place τ} (hs : OnlyFor s f t)
    (hq : s.place u = q) (hfibers : s₁.fibers = s.fibers) (hplace : s₁.place = s.place)
    (hcb : s₁.cbFiber = s.cbFiber) (hawaits : p.awaits f → u = t)
    (hwithin : q.within f → u = t ∨ p.within f) : OnlyFor (s₁.moveTo u p) f t := by
  refine hs.moveTo (fun ft hft => hfibers ▸ hft) hplace (fun v _ => by rw [hcb]) hawaits ?_
  intro hu
  rw [hcb] at hu
  rcases hs.cb u hu with heq | hin
  · exact .inl heq
  · exact hwithin (hq ▸ hin)

omit [DecidableEq τ] in
theorem OnlyFor.scheduleNoLock (hs : OnlyFor s f t) {ft : FiberAndThread τ}
    (hft : ft.fiber = some f → ft.thread = some t) : OnlyFor (s.scheduleNoLock ft) f t := by
  refine ⟨fun ft' hft' hf => ?_, fun u hu => ?_, fun u hu => ?_⟩
  · rw [scheduleNoLock_fibers] at hft'
    split at hft'
    · rcases List.mem_append.mp hft' with hmem | hmem
      · exact hs.queued ft' hmem hf
      · rw [List.mem_singleton.mp hmem] at hf ⊢
        exact hft hf
    · exact hs.queued ft' hft' hf
  · rw [scheduleNoLock_place] at hu
    exact hs.held u hu
  · rw [scheduleNoLock_place]
    rw [scheduleNoLock_cbFiber] at hu
    exact hs.cb u hu

/-- A thread that lets go of another fiber. -/
theorem OnlyFor.letGo {u : τ} {g : Fiber τ} {b : Branch} (hs : OnlyFor s f t)
    (hp : s.place u = .requeuing g b) : OnlyFor (s.letGo u b) f t := by
  cases b with
  | cb =>
    refine hs.moveTo (fun ft hft => hft) rfl (fun v hv => ?_) (fun h => h.elim) (fun hu => ?_)
    · rw [setCbFiber_cbFiber, Function.update_of_ne hv]
    · rw [setCbFiber_cbFiber, Function.update_self] at hu
      cases hu
  | fiber => exact hs.moveTo_same hp rfl rfl rfl (fun h => h.elim) (fun h => nomatch h.2)
  | idle => exact hs.moveTo_same hp rfl rfl rfl (fun h => h.elim) (fun h => nomatch h.2)

theorem Move.fiberId_le {op : Op τ} (h : Move s op s') : s.fiberId ≤ s'.fiberId := by
  cases h with
  | newFiber => exact Nat.le_succ _
  | makeCb => exact Nat.le_succ _
  | schedule ft => rw [scheduleNoLock_fiberId]
  | requeue t f b =>
    rw [scheduleNoLock_fiberId]
    cases b <;> exact le_rfl
  | _ => exact le_rfl

theorem move_affine {op : Op τ} (hs : Affine s id t) (hok : Undisturbed (.made id) t s op)
    (h : Move s op s') : Affine s' id t := by
  refine ⟨?_, lt_of_lt_of_le hs.known h.fiberId_le⟩
  have ho := hs.toOnlyFor
  cases h with
  | newFiber => exact ⟨ho.queued, ho.held, ho.cb⟩
  | schedule ft _ => exact ho.scheduleNoLock (fun h => absurd h hok)
  | take u ft as bs hp hel hfibers _ =>
    have hmem : ft ∈ s.fibers := by
      rw [hfibers]
      exact List.mem_append_right _ List.mem_cons_self
    refine ho.moveTo (fun ft' hft' => ?_) rfl (fun _ _ => rfl) (fun hf => ?_) (fun hu => ?_)
    · rw [hfibers]
      rcases List.mem_append.mp hft' with h | h
      · exact List.mem_append_left _ h
      · exact List.mem_append_right _ (List.mem_cons_of_mem _ h)
    · have hpin := eligible_pin hel
      rw [ho.queued ft hmem hf] at hpin
      exact (Option.some.inj (hpin.resolve_left nofun)).symm
    · rcases ho.cb u hu with heq | hin
      · exact .inl heq
      · rw [hp] at hin
        exact hin.elim
  | takeNothing u hp _ => exact ho.moveTo_same hp rfl rfl rfl (fun h => h.elim) (fun h => h.elim)
  | enter u ft g hp hfiber _ =>
    refine ho.moveTo_same hp rfl rfl rfl (fun hg => ?_) (fun h => h.elim)
    refine ho.held u ?_
    rw [hp]
    exact hfiber.trans (congrArg some hg)
  | reuseCb u ft g hp _ hcb =>
    refine ho.moveTo_same hp rfl rfl rfl (fun hg => ?_) (fun h => h.elim)
    have hg : g = .made id := hg
    rcases ho.cb u (hg ▸ hcb) with heq | hin
    · exact heq
    · rw [hp] at hin
      exact hin.elim
  | makeCb u ft hp _ =>
    have hne : (Fiber.made s.fiberId : Fiber τ) = .made id → u = t := by
      intro hg
      have hlt := hs.known
      have heq := Fiber.made.inj hg
      omega
    refine ho.moveTo (fun ft hft => hft) rfl (fun v hv => ?_) hne (fun hu => ?_)
    · rw [setCbFiber_cbFiber, Function.update_of_ne hv]
    · rw [setCbFiber_cbFiber, Function.update_self] at hu
      exact .inl (hne (Option.some.inj hu))
  | drop u ft hp _ => exact ho.moveTo_same hp rfl rfl rfl (fun h => h.elim) (fun h => h.elim)
  | exit u hp => exact ho.moveTo_same hp rfl rfl rfl (fun h => h.elim) (fun h => h.elim)
  | enterIdle u hp => exact ho.moveTo_same hp rfl rfl rfl (fun h => nomatch h) (fun h => h.elim)
  | swapIn u g b hp => exact ho.moveTo_same hp rfl rfl rfl (fun h => h.elim) (fun h => h.elim)
  | yield u g b x hp => exact ho.moveTo_same hp rfl rfl rfl (fun h => h.elim) .inr
  | swapOut u g b hp =>
    rcases hp with hp | ⟨hp, -⟩
    · exact ho.moveTo_same hp rfl rfl rfl (fun h => h.elim) .inr
    · exact ho.moveTo_same hp rfl rfl rfl (fun h => h.elim) .inr
  | decrementIdle u g hp => exact ho.moveTo_same hp rfl rfl rfl (fun h => h.elim) .inr
  | decrement u g b hp _ => exact ho.moveTo_same hp rfl rfl rfl (fun h => h.elim) .inr
  | ready u g b hp _ _ => exact ho.moveTo_same hp rfl rfl rfl (fun h => h.elim) .inr
  | ended u g b hp hb _ =>
    exact ho.moveTo_same hp rfl rfl rfl (fun h => h.elim) (fun h => absurd h.2 hb)
  | endedCb u g hp hended =>
    refine ho.moveTo_same hp rfl rfl rfl (fun h => h.elim) (fun h => ?_)
    -- another thread would use the fiber for its next callback
    by_contra hut
    have hg : g = .made id := h.1
    have hrun := hok (fun heq => hut (.inl heq)) (hg ▸ hp)
    rw [← hg, hended] at hrun
    cases hrun
  | hold u g b hp hb _ =>
    exact ho.moveTo_same hp rfl rfl rfl (fun h => h.elim) (fun h => absurd h.2 hb)
  | holdCb u g hp _ =>
    refine ho.moveTo (fun ft hft => hft) rfl (fun v hv => ?_) (fun h => h.elim) (fun hu => ?_)
    · rw [setCbFiber_cbFiber, Function.update_of_ne hv]
      rfl
    · rw [setCbFiber_cbFiber, Function.update_self] at hu
      cases hu
  | requeue u g b hp =>
    refine (ho.letGo hp).scheduleNoLock (fun hg => ?_)
    have hg : g = .made id := Option.some.inj hg
    exact absurd hp (hg ▸ hok b)

end Steps

/-- A fiber that is scheduled for a thread is entered on no other one, as long as the loop does
not put it back. -/
theorem run_entersOn (s : Scheduler τ) (id : Nat) (t : τ) (hs : OnlyFor s (.made id) t)
    (s₁ : Scheduler τ) (r : List (Op τ × Scheduler τ))
    (run : Run Step s ((.schedule { fiber := some (.made id), thread := some t }, s₁) :: r))
    (hok : Meets (Undisturbed (.made id) t) s₁ r) : Every (EntersOn (.made id) t) s₁ r := by
  cases run with
  | cons hstep run =>
    have haffine : Affine s₁ id t := by
      cases move_of_step hstep with
      | schedule ft hknown =>
        refine ⟨hs.scheduleNoLock (fun _ => rfl), ?_⟩
        rw [scheduleNoLock_fiberId]
        simpa [known] using hknown _ rfl
    refine every_of_meets (I := fun s => Affine s id t) (fun _ _ _ hs hok h =>
      move_affine hs hok (move_of_step h)) (fun s op s' hs _ _ u b _ hp => ?_) run haffine hok
    exact hs.held u (by rw [hp]; rfl)

/-- The fiber holds on its thread, and the other thread finds nothing. -/
theorem run_entersOn_hold : ∃ s s₁ r, trace step (init : Scheduler Bool) [.newFiber,
      .schedule { fiber := some (.made 0), thread := some true }, .take false, .take true,
      .branch true, .swapIn true, .yield true .HOLD, .swapOut true, .decrement true, .fixUp true] =
        .ok ((.newFiber, s) ::
          (.schedule { fiber := some (.made 0), thread := some true }, s₁) :: r) ∧
    Every (EntersOn (.made 0) true) s₁ r := by
  refine ⟨{ init with fiberId := 1 }, _, _, rfl, run_entersOn { init with fiberId := 1 } 0 true ?_ _ _
    (run_of_trace [.schedule { fiber := some (.made 0), thread := some true }, .take false,
      .take true, .branch true, .swapIn true, .yield true .HOLD, .swapOut true, .decrement true,
      .fixUp true] rfl) ?_⟩
  · exact ⟨fun _ h => (by cases h), fun _ h => h.elim, fun _ h => (by cases h)⟩
  · exact ⟨trivial, trivial, trivial, trivial, trivial, trivial, trivial, fun _ h => (by cases h),
      trivial⟩

/-- The fiber yields, is put back for any thread and entered on the other one. -/
theorem run_ready_breaks_affinity : ∃ s s₁ r, Run Step (init : Scheduler Bool)
      ((.newFiber, s) :: (.schedule { fiber := some (.made 0), thread := some true }, s₁) :: r) ∧
    r.all (fun p => leavesAlone (.made 0) p.1) = true ∧
    ¬Every (EntersOn (.made 0) true) s₁ r := by
  refine ⟨_, _, _, run_of_trace [.newFiber,
    .schedule { fiber := some (.made 0), thread := some true }, .take true, .branch true,
    .swapIn true, .yield true .READY, .swapOut true, .decrement true, .fixUp true, .requeue true,
    .take false, .branch false, .swapIn false] rfl, rfl, ?_⟩
  rintro ⟨-, -, -, -, -, -, -, -, -, -, h, -⟩
  cases h false .fiber rfl rfl

end CxkFramework.Scheduler
