import CxkFramework.Scheduler
import Mathlib.Tactic

/-!
# A fiber runs on one thread

The state word does not keep a fiber to one thread: it is written before `swapOut`, and again
in the fix-up, when another thread may have taken the fiber already. What does is that
nobody calls `schedule` for a fiber that is in the queue or in the hands of a thread, unless
everything is pinned to one thread. Then at any time all claims to a fiber, by entries of the
queue and by threads that hold it, are of one thread, or there is a single entry.
-/

namespace CxkFramework.Scheduler

open Runs

variable {τ : Type} [DecidableEq τ]

/-- The fiber a thread has in its hands at a place of the loop. -/
def Place.fiber : Place τ → Option (Fiber τ)
  | .top | .nothing | .exited => none
  | .taken ft => ft.fiber
  | .entering f _ | .inside f _ | .leaving f _ | .returned f _ | .fixing f _ | .requeuing f _ => some f

/-- The thread has the fiber in its hands, or keeps it as its idle or callback fiber. -/
def Holds (s : Scheduler τ) (t : τ) (f : Fiber τ) : Prop :=
  f = .idle t ∨ s.cbFiber t = some f ∨ (s.place t).fiber = some f

instance (s : Scheduler τ) (t : τ) (f : Fiber τ) : Decidable (Holds s t f) :=
  inferInstanceAs (Decidable (_ ∨ _ ∨ _))

/-- The entries of the queue for a fiber. -/
def entries (s : Scheduler τ) (f : Fiber τ) : List (FiberAndThread τ) :=
  s.fibers.filter (fun ft => ft.fiber = some f)

/-- Between `swapIn` and the completion of `swapOut`. -/
def Runs (s : Scheduler τ) (t : τ) (f : Fiber τ) : Prop :=
  ∃ b, s.place t = .inside f b ∨ s.place t = .leaving f b

/-- No fiber runs on two threads. -/
def Exclusive (s : Scheduler τ) : Prop :=
  ∀ f t₁ t₂, Runs s t₁ f → Runs s t₂ f → t₁ = t₂

/-- Nothing in the queue and no thread has a claim to the fiber. -/
def Free (s : Scheduler τ) (f : Fiber τ) : Prop := entries s f = [] ∧ ∀ t, ¬Holds s t f

/-- All claims to the fiber are of one thread. -/
def Pinned (s : Scheduler τ) (f : Fiber τ) (t : τ) : Prop :=
  (∀ ft ∈ entries s f, ft.thread = some t) ∧ ∀ t', Holds s t' f → t' = t

/-- The fiber may be scheduled: it is free, or the entry is pinned to the thread that has all
claims to it. -/
def Schedulable (s : Scheduler τ) (f : Fiber τ) (thread : Option τ) : Prop :=
  Free s f ∨ ∃ t, thread = some t ∧ Pinned s f t

/-- Every call of `schedule`, that of the loop itself included, is for a fiber that may be
scheduled; the loop lets go of its fiber first. -/
def Disciplined (s : Scheduler τ) : Op τ → Prop
  | .schedule ft => ∀ f, ft.fiber = some f → Schedulable s f ft.thread
  | .requeue t => ∀ f b, s.place t = .requeuing f b → Free (s.letGo t b) f
  | _ => True

/-- The claims to a fiber are of one thread, or there is at most one entry and no holder. -/
def Claimed (s : Scheduler τ) (f : Fiber τ) : Prop :=
  (∃ t, Pinned s f t) ∨ ((entries s f).length ≤ 1 ∧ ∀ t, ¬Holds s t f)

structure Inv (s : Scheduler τ) : Prop where
  claimed : ∀ f, Claimed s f
  queued_known : ∀ ft ∈ s.fibers, ∀ f, ft.fiber = some f → s.known f = true
  held_known : ∀ t f, Holds s t f → s.known f = true

omit [DecidableEq τ] in
theorem holds_of_runs {s : Scheduler τ} {t : τ} {f : Fiber τ} (h : Runs s t f) : Holds s t f := by
  obtain ⟨b, h | h⟩ := h
  · exact .inr (.inr (by rw [h]; rfl))
  · exact .inr (.inr (by rw [h]; rfl))

/-- The invariant is stronger than what it is for. -/
theorem Inv.exclusive {s : Scheduler τ} (h : Inv s) : Exclusive s := by
  intro f t₁ t₂ h₁ h₂
  rcases h.claimed f with ⟨t, -, hold⟩ | ⟨-, hold⟩
  · rw [hold t₁ (holds_of_runs h₁), hold t₂ (holds_of_runs h₂)]
  · exact absurd (holds_of_runs h₁) (hold t₁)

/-! ## What a step does to the claims -/

section Steps

variable {s s' : Scheduler τ}

/-- The claims depend on the entries and on who holds the fiber. -/
theorem Claimed.congr {f : Fiber τ} (h : Claimed s f) (hentries : entries s' f = entries s f)
    (hold : ∀ t, Holds s' t f → Holds s t f) : Claimed s' f := by
  rcases h with ⟨t, hpin, ht⟩ | ⟨hone, ht⟩
  · exact .inl ⟨t, hentries ▸ hpin, fun t' ht' => ht t' (hold t' ht')⟩
  · exact .inr ⟨hentries ▸ hone, fun t' ht' => ht t' (hold t' ht')⟩

/-- Nobody gets a new claim. -/
structure Quiet (s s' : Scheduler τ) : Prop where
  fibers_eq : s'.fibers = s.fibers
  known_of : ∀ f, s.known f = true → s'.known f = true
  holds_of : ∀ t f, Holds s' t f → Holds s t f

theorem Quiet.inv (h : Quiet s s') (hs : Inv s) : Inv s' where
  claimed f := by
    have hentries : entries s' f = entries s f := by rw [entries, h.fibers_eq, entries]
    exact (hs.claimed f).congr hentries (fun t ht => h.holds_of t f ht)
  queued_known ft hft f hf := h.known_of f (hs.queued_known ft (h.fibers_eq ▸ hft) f hf)
  held_known t f ht := h.known_of f (hs.held_known t f (h.holds_of t f ht))

/-- A thread moves on with a fiber it holds, or lets go of it. -/
theorem quiet_moveTo {s₁ : Scheduler τ} (t : τ) (p : Place τ) (hfibers : s₁.fibers = s.fibers)
    (hid : s₁.fiberId = s.fiberId) (hplace : s₁.place = s.place)
    (hcb : ∀ t' f, s₁.cbFiber t' = some f → s.cbFiber t' = some f)
    (hheld : ∀ f, p.fiber = some f → Holds s t f) : Quiet s (s₁.moveTo t p) where
  fibers_eq := hfibers
  known_of f hf := by
    cases f with
    | idle t => rfl
    | made id => simpa [known, moveTo, hid] using hf
  holds_of t' f h := by
    rcases h with h | h | h
    · exact .inl h
    · exact .inr (.inl (hcb t' f h))
    · by_cases heq : t' = t
      · subst heq
        rw [moveTo_place, Function.update_self] at h
        exact hheld f h
      · rw [moveTo_place, Function.update_of_ne heq, hplace] at h
        exact .inr (.inr h)

/-- The same when only the place, the state words and the counters change. -/
theorem quiet_moveTo_same {s₁ : Scheduler τ} {t : τ} {p : Place τ} (hfibers : s₁.fibers = s.fibers)
    (hid : s₁.fiberId = s.fiberId) (hplace : s₁.place = s.place) (hcb : s₁.cbFiber = s.cbFiber)
    (hheld : p.fiber = none ∨ p.fiber = (s.place t).fiber) : Quiet s (s₁.moveTo t p) := by
  apply quiet_moveTo t p hfibers hid hplace
  · intro t' f h
    rwa [hcb] at h
  · intro f hf
    rcases hheld with hnone | hsame
    · rw [hnone] at hf
      cases hf
    · exact .inr (.inr (hsame.symm.trans hf))

theorem setCbFiber_none_of {t t' : τ} {f : Fiber τ} (h : (s.setCbFiber t none).cbFiber t' = some f) :
    s.cbFiber t' = some f := by
  by_cases heq : t' = t
  · subst heq
    rw [setCbFiber_cbFiber, Function.update_self] at h
    cases h
  · rwa [setCbFiber_cbFiber, Function.update_of_ne heq] at h

omit [DecidableEq τ] in
theorem newFiber_quiet : Quiet s { s with fiberId := s.fiberId + 1 } where
  fibers_eq := rfl
  known_of f hf := by
    cases f with
    | idle t => rfl
    | made id =>
      simp only [known, decide_eq_true_eq] at hf ⊢
      omega
  holds_of _ _ h := h

theorem swapIn_quiet {t : τ} (h : s.swapIn t = .ok s') : Quiet s s' := by
  rw [swapIn] at h
  split at h
  · next f b hp =>
    split at h
    · cases h
    · cases h
      exact quiet_moveTo_same rfl rfl rfl rfl (.inr (by rw [hp]; rfl))
  · cases h

theorem yield_quiet {t : τ} {x : FiberState} (h : s.yield t x = .ok s') : Quiet s s' := by
  rw [yield] at h
  split at h
  · next f b hp =>
    split at h
    · cases h
    · cases h
      exact quiet_moveTo_same rfl rfl rfl rfl (.inr (by rw [hp]; rfl))
  · cases h

theorem swapOut_quiet {t : τ} (h : s.swapOut t = .ok s') : Quiet s s' := by
  rw [swapOut] at h
  split at h
  · next f hp =>
    cases h
    exact quiet_moveTo_same rfl rfl rfl rfl (.inr (by rw [hp]; rfl))
  · next f b hp =>
    cases h
    exact quiet_moveTo_same rfl rfl rfl rfl (.inr (by rw [hp]; rfl))
  · cases h

theorem decrement_quiet {t : τ} (h : s.decrement t = .ok s') : Quiet s s' := by
  rw [decrement] at h
  split at h
  · next f hp =>
    cases h
    exact quiet_moveTo_same rfl rfl rfl rfl (.inr (by rw [hp]; rfl))
  · next f b _ hp =>
    cases h
    exact quiet_moveTo_same rfl rfl rfl rfl (.inr (by rw [hp]; rfl))
  · cases h

theorem fixUp_quiet {t : τ} (h : s.fixUp t = .ok s') : Quiet s s' := by
  rw [fixUp] at h
  split at h
  · next f hp =>
    split at h
    · cases h
      exact quiet_moveTo_same rfl rfl rfl rfl (.inr (by rw [hp]; rfl))
    · split at h
      · cases h
        exact quiet_moveTo_same rfl rfl rfl rfl (.inl rfl)
      · cases h
        exact quiet_moveTo_same rfl rfl rfl rfl (.inl rfl)
  · next f hp =>
    split at h
    · cases h
      exact quiet_moveTo_same rfl rfl rfl rfl (.inr (by rw [hp]; rfl))
    · split at h
      · cases h
        exact quiet_moveTo_same rfl rfl rfl rfl (.inl rfl)
      · cases h
        exact quiet_moveTo t .top rfl rfl rfl (fun _ _ h => setCbFiber_none_of h) (fun _ h => nomatch h)
  · next f hp =>
    split at h
    · cases h
      exact quiet_moveTo_same rfl rfl rfl rfl (.inl rfl)
    · cases h
      exact quiet_moveTo_same rfl rfl rfl rfl (.inl rfl)
  · cases h

/-! ## Steps that change claims -/

/-- A callback fiber that is made is nobody else's. -/
theorem prepareCb_inv {t : τ} (hs : Inv s) (h : s.prepareCb t = .ok s') : Inv s' := by
  rw [prepareCb] at h
  split at h
  · next f hcb =>
    obtain ⟨s₁, hreset, h⟩ := bind_eq_ok.mp h
    cases h
    rw [reset] at hreset
    split at hreset
    · cases hreset
      have hheld : ∀ g, (Place.entering f Branch.cb).fiber = some g → Holds s t g := by
        intro g hg
        cases hg
        exact .inr (.inl hcb)
      have hquiet : Quiet s ((s.setState f .INIT).moveTo t (.entering f .cb)) :=
        quiet_moveTo t _ rfl rfl rfl (fun _ _ h => h) hheld
      exact hquiet.inv hs
    · cases hreset
  · cases h
    have hfresh : s.known (.made s.fiberId) = false := by simp [known]
    have hstep : ∀ t' f, Holds ((({ s with fiberId := s.fiberId + 1 }.setCbFiber t
        (some (.made s.fiberId))).moveTo t (.entering (.made s.fiberId) .cb)) : Scheduler τ) t' f →
        Holds s t' f ∨ (t' = t ∧ f = .made s.fiberId) := by
      rintro t' f (h | h | h)
      · exact .inl (.inl h)
      · by_cases heq : t' = t
        · subst heq
          simp only [moveTo, setCbFiber, Function.update_self, Option.some.injEq] at h
          exact .inr ⟨rfl, h.symm⟩
        · simp only [moveTo, setCbFiber, Function.update_of_ne heq] at h
          exact .inl (.inr (.inl h))
      · by_cases heq : t' = t
        · subst heq
          simp only [moveTo, Function.update_self, Place.fiber, Option.some.injEq] at h
          exact .inr ⟨rfl, h.symm⟩
        · simp only [moveTo, Function.update_of_ne heq] at h
          exact .inl (.inr (.inr h))
    refine ⟨fun f => ?_, fun ft hft f hf => ?_, fun t' f ht' => ?_⟩
    · by_cases hf : f = .made s.fiberId
      · subst hf
        -- nothing is known of the fiber before
        refine .inl ⟨t, fun ft hft => ?_, fun t' ht' => ?_⟩
        · obtain ⟨hmem, hfiber⟩ := List.mem_filter.mp hft
          have := hs.queued_known ft hmem _ (of_decide_eq_true hfiber)
          rw [hfresh] at this
          cases this
        · rcases hstep t' _ ht' with hold | ⟨heq, -⟩
          · have := hs.held_known t' _ hold
            rw [hfresh] at this
            cases this
          · exact heq
      · refine (hs.claimed f).congr rfl fun t' ht' => ?_
        rcases hstep t' f ht' with hold | ⟨-, heq⟩
        · exact hold
        · exact absurd heq hf
    · exact newFiber_quiet.known_of f (hs.queued_known ft hft f hf)
    · rcases hstep t' f ht' with hold | ⟨-, rfl⟩
      · exact newFiber_quiet.known_of f (hs.held_known t' f hold)
      · simp [known, moveTo, setCbFiber]

/-- A branch keeps the claims as they are, or makes a callback fiber. -/
theorem branch_quiet {t : τ} (h : s.branch t = .ok s') : Quiet s s' ∨ s.prepareCb t = .ok s' := by
  rw [branch] at h
  split at h
  · next ft hp =>
    split at h
    · next f _ hf =>
      cases h
      obtain ⟨hfiber, -⟩ := Option.filter_eq_some_iff.mp hf
      refine .inl (quiet_moveTo_same rfl rfl rfl rfl (.inr ?_))
      rw [hp]
      exact hfiber.symm
    · exact .inr h
    · cases h
      exact .inl (quiet_moveTo_same rfl rfl rfl rfl (.inl rfl))
  · split at h
    · cases h
      exact .inl (quiet_moveTo_same rfl rfl rfl rfl (.inl rfl))
    · cases h
      refine .inl (quiet_moveTo t _ rfl rfl rfl (fun _ _ h => h) ?_)
      intro f hf
      cases hf
      exact .inl rfl
  · cases h

theorem branch_inv {t : τ} (hs : Inv s) (h : s.branch t = .ok s') : Inv s' := by
  rcases branch_quiet h with hquiet | hcb
  · exact hquiet.inv hs
  · exact prepareCb_inv hs hcb

theorem eligible_thread {t u : τ} {ft : FiberAndThread τ} (h : s.eligible t ft = true)
    (hthread : ft.thread = some u) : u = t := by
  simp only [eligible, hthread, Bool.and_eq_true, Bool.or_eq_true, decide_eq_true_eq] at h
  simpa using h.1

/-- An entry is taken out: the claim goes to the thread. -/
theorem taken_inv {t : τ} {ft : FiberAndThread τ} {as bs : List (FiberAndThread τ)} (hs : Inv s)
    (hp : s.place t = .top) (hel : s.eligible t ft = true) (hfibers : s.fibers = as ++ ft :: bs)
    (hfibers' : s'.fibers = as ++ bs) (hid : s'.fiberId = s.fiberId) (hcb : s'.cbFiber = s.cbFiber)
    (hplace : s'.place = Function.update s.place t (.taken ft)) : Inv s' := by
  have hold : ∀ t' f, Holds s' t' f → Holds s t' f ∨ (t' = t ∧ ft.fiber = some f) := by
    rintro t' f (h | h | h)
    · exact .inl (.inl h)
    · exact .inl (.inr (.inl (hcb ▸ h)))
    · by_cases heq : t' = t
      · subst heq
        rw [hplace, Function.update_self] at h
        exact .inr ⟨rfl, h⟩
      · rw [hplace, Function.update_of_ne heq] at h
        exact .inl (.inr (.inr h))
  have hknown : ∀ f, s'.known f = s.known f := by
    intro f
    cases f with
    | idle t => rfl
    | made id => rw [known, known, hid]
  have hmem : ft ∈ s.fibers := by rw [hfibers]; simp
  have hsub : ∀ x ∈ s'.fibers, x ∈ s.fibers := by
    intro x hx
    rw [hfibers'] at hx
    rw [hfibers]
    rcases List.mem_append.mp hx with hx | hx
    · exact List.mem_append_left _ hx
    · exact List.mem_append_right _ (List.mem_cons_of_mem _ hx)
  refine ⟨fun f => ?_, fun x hx f hf => ?_, fun t' f ht' => ?_⟩
  · by_cases hf : ft.fiber = some f
    · have hin : ft ∈ entries s f := List.mem_filter.mpr ⟨hmem, by simpa using hf⟩
      rcases hs.claimed f with ⟨u, hpin, hu⟩ | ⟨hone, hu⟩
      · have hut : u = t := eligible_thread hel (hpin ft hin)
        refine .inl ⟨t, fun x hx => ?_, fun t' ht' => ?_⟩
        · obtain ⟨hx, hxf⟩ := List.mem_filter.mp hx
          exact hut ▸ hpin x (List.mem_filter.mpr ⟨hsub x hx, hxf⟩)
        · rcases hold t' f ht' with h | ⟨h, -⟩
          · exact (hu t' h).trans hut
          · exact h
      · refine .inl ⟨t, ?_, fun t' ht' => ?_⟩
        · have hempty : entries s' f = [] := by
            rw [entries, hfibers, List.filter_append, List.filter_cons_of_pos (by simpa using hf),
              List.length_append, List.length_cons] at hone
            rw [entries, hfibers', List.filter_append, ← List.length_eq_zero_iff,
              List.length_append]
            omega
          rw [hempty]
          simp
        · rcases hold t' f ht' with h | ⟨h, -⟩
          · exact absurd h (hu t')
          · exact h
    · refine (hs.claimed f).congr ?_ (fun t' ht' => ?_)
      · rw [entries, entries, hfibers, hfibers', List.filter_append, List.filter_append,
          List.filter_cons_of_neg (by simpa using hf)]
      · rcases hold t' f ht' with h | ⟨-, h⟩
        · exact h
        · exact absurd h hf
  · rw [hknown]
    exact hs.queued_known x (hsub x hx) f hf
  · rw [hknown]
    rcases hold t' f ht' with h | ⟨-, h⟩
    · exact hs.held_known t' f h
    · exact hs.queued_known ft hmem f h

theorem take_inv {t : τ} (hs : Inv s) (h : s.take t = .ok s') : Inv s' := by
  rw [take] at h
  split at h
  · next hp =>
    split at h
    · next ft hfind =>
      cases h
      obtain ⟨hel, as, bs, hfibers, has⟩ := List.find?_eq_some_iff_append.mp hfind
      have herase : s.fibers.eraseP (s.eligible t) = as ++ bs := by
        rw [hfibers, List.eraseP_append_right _ (by simpa using has), List.eraseP_cons_of_pos hel]
      exact taken_inv hs hp hel hfibers herase rfl rfl rfl
    · cases h
      have hquiet : Quiet s (s.moveTo t .nothing) := quiet_moveTo_same rfl rfl rfl rfl (.inl rfl)
      exact hquiet.inv hs
  · cases h

/-- A new entry for a fiber that may be scheduled. -/
theorem scheduleNoLock_inv {ft : FiberAndThread τ} (hs : Inv s)
    (hknown : ∀ f, ft.fiber = some f → s.known f = true)
    (hok : ∀ f, ft.fiber = some f → Schedulable s f ft.thread) : Inv (s.scheduleNoLock ft) := by
  rw [scheduleNoLock]
  split
  · refine ⟨fun f => ?_, fun ft' hft' f hf => ?_, fun t f ht => hs.held_known t f ht⟩
    · by_cases hf : ft.fiber = some f
      · have hentries : entries { s with fibers := s.fibers ++ [ft] } f = entries s f ++ [ft] := by
          simp [entries, hf]
        rcases hok f hf with ⟨hnone, hold⟩ | ⟨t, hthread, hpin, hold⟩
        · exact .inr ⟨by rw [hentries, hnone]; exact le_rfl, hold⟩
        · refine .inl ⟨t, ?_, hold⟩
          intro ft' hft'
          rw [hentries] at hft'
          rcases List.mem_append.mp hft' with hmem | hmem
          · exact hpin ft' hmem
          · rwa [List.mem_singleton.mp hmem]
      · have hentries : entries { s with fibers := s.fibers ++ [ft] } f = entries s f := by
          simp [entries, hf]
        exact (hs.claimed f).congr hentries (fun _ h => h)
    · rcases List.mem_append.mp hft' with hmem | hmem
      · exact hs.queued_known ft' hmem f hf
      · rw [List.mem_singleton.mp hmem] at hf
        exact hknown f hf
  · exact hs

theorem letGo_quiet (t : τ) (b : Branch) : Quiet s (s.letGo t b) := by
  cases b with
  | fiber => exact quiet_moveTo_same rfl rfl rfl rfl (.inl rfl)
  | cb =>
    exact quiet_moveTo t .top rfl rfl rfl (fun _ _ h => setCbFiber_none_of h) (fun _ h => nomatch h)
  | idle => exact quiet_moveTo_same rfl rfl rfl rfl (.inl rfl)

/-- The loop puts its fiber back into the queue. -/
theorem requeue_inv {t : τ} (hs : Inv s) (hok : Disciplined s (.requeue t))
    (h : s.requeue t = .ok s') : Inv s' := by
  rw [requeue] at h
  split at h
  · next f b hp =>
    cases h
    have hquiet := @letGo_quiet τ _ s t b
    have hheld : Holds s t f := .inr (.inr (by rw [hp]; rfl))
    apply scheduleNoLock_inv (hquiet.inv hs)
    · rintro g hg
      cases hg
      exact hquiet.known_of f (hs.held_known t f hheld)
    · rintro g hg
      cases hg
      exact .inl (hok f b hp)
  · cases h

theorem schedule_inv {ft : FiberAndThread τ} (hs : Inv s) (hok : Disciplined s (.schedule ft))
    (h : s.schedule ft = .ok s') : Inv s' := by
  rw [schedule] at h
  split at h
  · next hall =>
    cases h
    apply scheduleNoLock_inv hs
    · intro f hf
      simpa [hf] using hall
    · exact hok
  · cases h

theorem step_inv {op : Op τ} (hs : Inv s) (hok : Disciplined s op) (h : Step s op s') : Inv s' := by
  cases op with
  | newFiber =>
    cases h
    exact newFiber_quiet.inv hs
  | schedule ft => exact schedule_inv hs hok h
  | take t => exact take_inv hs h
  | branch t => exact branch_inv hs h
  | swapIn t => exact (swapIn_quiet h).inv hs
  | yield t x => exact (yield_quiet h).inv hs
  | swapOut t => exact (swapOut_quiet h).inv hs
  | decrement t => exact (decrement_quiet h).inv hs
  | fixUp t => exact (fixUp_quiet h).inv hs
  | requeue t => exact requeue_inv hs hok h

end Steps

/-! ## Runs -/

theorem inv_init : Inv (init : Scheduler τ) where
  claimed f := by
    have hold : ∀ t, Holds (init : Scheduler τ) t f → f = .idle t := by
      rintro t (h | h | h)
      · exact h
      · cases h
      · cases h
    cases f with
    | idle u =>
      refine .inl ⟨u, by simp [entries, init], fun t ht => ?_⟩
      cases hold t ht
      rfl
    | made id => exact .inr ⟨Nat.zero_le 1, fun t ht => nomatch hold t ht⟩
  queued_known ft hft := by cases hft
  held_known t f h := by
    rcases h with rfl | h | h
    · rfl
    · cases h
    · cases h

/-- In every run in which `schedule` is called with discipline no fiber ever runs on two
threads. -/
theorem run_exclusive (t : List (Op τ × Scheduler τ)) (run : Run Step init t)
    (hok : Meets Disciplined init t) : Always Exclusive init t :=
  (always_of_meets (fun _ _ _ hs hok h => step_inv hs hok h) run inv_init hok).mono
    (fun _ h => h.exclusive)

/-- What thread `t` does to run a task for a while. -/
def turn {τ : Type} (t : τ) (x : FiberState) : List (Op τ) :=
  [.take t, .branch t, .swapIn t, .yield t x, .swapOut t, .decrement t, .fixUp t]

/-- A fiber holds on one thread, is scheduled again and is ready on another one. -/
theorem run_exclusive_two_turns : ∃ t,
    trace step (init : Scheduler Bool) (.newFiber :: .schedule { fiber := some (.made 0) } ::
      turn false .HOLD ++ .schedule { fiber := some (.made 0) } :: turn true .READY ++
      [.requeue true]) = .ok t ∧ Always Exclusive init t := by
  refine ⟨_, rfl, run_exclusive _ (run_of_trace (.newFiber :: .schedule { fiber := some (.made 0) } ::
    turn false .HOLD ++ .schedule { fiber := some (.made 0) } :: turn true .READY ++
    [.requeue true]) rfl) ?_⟩
  refine ⟨trivial, fun f hf => ?_, trivial, trivial, trivial, trivial, trivial, trivial, trivial,
    fun f hf => ?_, trivial, trivial, trivial, trivial, trivial, trivial, trivial,
    fun f b hp => ?_, trivial⟩
  · cases hf
    exact .inl ⟨rfl, by decide⟩
  · cases hf
    exact .inl ⟨rfl, by decide⟩
  · cases hp
    exact ⟨rfl, by decide⟩

/-- The fiber is scheduled while it runs, writes `HOLD` and is taken by the other thread
before it has swapped out. -/
theorem run_schedule_breaks_exclusive : ∃ t,
    Run Step (init : Scheduler Bool) t ∧ ¬Always Exclusive init t := by
  refine ⟨_, run_of_trace [.newFiber, .schedule { fiber := some (.made 0) }, .take false,
    .branch false, .swapIn false, .schedule { fiber := some (.made 0) }, .yield false .HOLD,
    .take true, .branch true, .swapIn true] rfl, fun h => ?_⟩
  have hlast := h.2 _ (List.mem_of_getElem? (show _[9]? = some _ from rfl))
  have heq := hlast (.made 0) false true ⟨.fiber, .inr rfl⟩ ⟨.fiber, .inl rfl⟩
  cases heq

end CxkFramework.Scheduler
