import CxkFramework.SchedulerSteps

/-!
# The scheduler loses no task

Every entry of the queue is given a number when it is put in, and a ledger notes which thread
takes it out. Whatever the threads do, each number is in the queue or was taken once, by a
thread the entry is meant for, and of the entries a thread may take it takes the first. The
counter of active threads is the number of threads that are between taking a task and being
done with it.
-/

namespace CxkFramework.Scheduler

open Runs

variable {τ : Type} [DecidableEq τ]

/-! ## The ledger -/

/-- `schedule(begin, end)` takes the lock once for all; what it puts in is for any thread. -/
def scheduleAll (s : Scheduler τ) (fcs : List (FiberAndThread τ)) : Except Halt (Scheduler τ) :=
  if fcs.all (fun ft => ft.fiber.all s.known) then
    .ok (fcs.foldl (fun s ft => s.scheduleNoLock { ft with thread := none }) s)
  else .error .disabled

inductive Call (τ : Type) where
  | op (op : Op τ)
  | scheduleAll (fcs : List (FiberAndThread τ))
  deriving DecidableEq, Repr

def stepCall (s : Scheduler τ) : Call τ → Except Halt (Scheduler τ)
  | .op op => s.step op
  | .scheduleAll fcs => s.scheduleAll fcs

/-- The entries of the queue with the numbers they were given, how many numbers were given,
and who took which entry. -/
structure Ledger (τ : Type) where
  queue : List (Nat × FiberAndThread τ)
  pushes : Nat
  taken : List (Nat × τ × FiberAndThread τ)

namespace Ledger

def init : Ledger τ := ⟨[], 0, []⟩

/-- A task that is not empty gets the next number. -/
def push (l : Ledger τ) (ft : FiberAndThread τ) : Ledger τ :=
  if ft.fiber.isSome || ft.cb.isSome then
    { l with queue := l.queue ++ [(l.pushes, ft)], pushes := l.pushes + 1 }
  else l

/-- The first entry for which `p` holds goes to the thread. -/
def take (l : Ledger τ) (t : τ) (p : FiberAndThread τ → Bool) : Ledger τ :=
  match l.queue.find? (fun e => p e.2) with
  | some e => { l with
      queue := l.queue.eraseP (fun e => p e.2)
      taken := l.taken ++ [(e.1, t, e.2)] }
  | none => l

def after (l : Ledger τ) (s : Scheduler τ) : Call τ → Ledger τ
  | .op (.schedule ft) => l.push ft
  | .op (.take t) => l.take t (s.eligible t)
  | .op (.requeue t) =>
    match s.place t with
    | .requeuing f _ => l.push { fiber := some f }
    | _ => l
  | .op _ => l
  | .scheduleAll fcs => fcs.foldl (fun l ft => l.push { ft with thread := none }) l

end Ledger

/-- A step of the scheduler, entered into the ledger. -/
def ledgerStep (x : Scheduler τ × Ledger τ) (c : Call τ) : Except Halt (Scheduler τ × Ledger τ) :=
  (x.1.stepCall c).map (fun s => (s, x.2.after x.1 c))

def LedgerStep (x : Scheduler τ × Ledger τ) (c : Call τ) (y : Scheduler τ × Ledger τ) : Prop :=
  ledgerStep x c = .ok y

/-! ## What is conserved -/

/-- The ledger and the queue agree, each number stands in one place, and nobody took what was
not meant for him. -/
structure Ledger.Tracks (l : Ledger τ) (fibers : List (FiberAndThread τ)) : Prop where
  queue_eq : l.queue.map Prod.snd = fibers
  increasing : l.queue.Pairwise (fun a b => a.1 < b.1)
  once : (l.queue.map Prod.fst ++ l.taken.map Prod.fst).Perm (List.range l.pushes)
  pinned : ∀ e ∈ l.taken, e.2.2.thread = none ∨ e.2.2.thread = some e.2.1

/-- The thread has taken a task and is not done with it. -/
def Place.busy : Place τ → Bool
  | .taken _ => true
  | .entering _ b | .inside _ b | .leaving _ b | .returned _ b => b ≠ .idle
  | .top | .nothing | .fixing _ _ | .requeuing _ _ | .exited => false

def busyThreads [Fintype τ] (s : Scheduler τ) : Nat :=
  (Finset.univ.filter (fun t => (s.place t).busy = true)).card

structure Conserved [Fintype τ] (x : Scheduler τ × Ledger τ) : Prop where
  tracks : x.2.Tracks x.1.fibers
  count_eq : x.1.activeThreadCount = busyThreads x.1

/-- A search of the queue takes the entry with the least number the thread may take, or there
is none; and nothing is taken otherwise. -/
def TakesFirst (x : Scheduler τ × Ledger τ) : Call τ → Scheduler τ × Ledger τ → Prop
  | .op (.take t), y =>
    (∃ e ∈ x.2.queue, x.1.eligible t e.2 = true ∧
      (∀ e' ∈ x.2.queue, x.1.eligible t e'.2 = true → e.1 ≤ e'.1) ∧
      y.1.place t = .taken e.2 ∧ y.2.taken = x.2.taken ++ [(e.1, t, e.2)]) ∨
    ((∀ e ∈ x.2.queue, x.1.eligible t e.2 = false) ∧ y.1.place t = .nothing ∧
      y.2.taken = x.2.taken)
  | _, y => y.2.taken = x.2.taken ∧ ∀ t ft, y.1.place t = .taken ft → x.1.place t = .taken ft

/-! ## The queue -/

section Queue

omit [DecidableEq τ]

variable {l : Ledger τ} {fibers : List (FiberAndThread τ)}

theorem tracks_init : (Ledger.init : Ledger τ).Tracks [] :=
  ⟨rfl, List.Pairwise.nil, List.Perm.refl [], fun _ h => nomatch h⟩

/-- The numbers in the queue were given. -/
theorem Ledger.Tracks.lt_pushes (h : l.Tracks fibers) {e : Nat × FiberAndThread τ}
    (he : e ∈ l.queue) : e.1 < l.pushes := by
  have hmem : e.1 ∈ l.queue.map Prod.fst ++ l.taken.map Prod.fst :=
    List.mem_append_left _ (List.mem_map_of_mem he)
  exact List.mem_range.mp (h.once.mem_iff.mp hmem)

theorem Ledger.Tracks.push (h : l.Tracks fibers) (ft : FiberAndThread τ) :
    (l.push ft).Tracks (if ft.fiber.isSome || ft.cb.isSome then fibers ++ [ft] else fibers) := by
  rw [Ledger.push]
  split
  · refine ⟨by simp [h.queue_eq], ?_, ?_, h.pinned⟩
    · refine List.pairwise_append.mpr ⟨h.increasing, List.pairwise_singleton _ _, ?_⟩
      intro a ha b hb
      rw [List.mem_singleton.mp hb]
      exact h.lt_pushes ha
    · rw [List.range_succ, List.map_append, List.append_assoc]
      refine List.Perm.trans ?_ (h.once.append_right [l.pushes])
      rw [List.append_assoc]
      exact List.Perm.append_left _ List.perm_append_comm
  · exact h

/-- An entry leaves the queue for a thread it is meant for. -/
theorem Ledger.Tracks.take (h : l.Tracks fibers) {t : τ} {p : FiberAndThread τ → Bool}
    {ft : FiberAndThread τ} {as bs : List (FiberAndThread τ)} (hfibers : fibers = as ++ ft :: bs)
    (hp : p ft = true) (hpassed : ∀ x ∈ as, p x = false)
    (hpin : ft.thread = none ∨ ft.thread = some t) :
    (l.take t p).Tracks (as ++ bs) ∧ ∃ n, (n, ft) ∈ l.queue ∧
      (∀ e ∈ l.queue, p e.2 = true → n ≤ e.1) ∧ (l.take t p).taken = l.taken ++ [(n, t, ft)] := by
  obtain ⟨qa, rest, hqueue, hqa, hrest⟩ := List.map_eq_append_iff.mp (h.queue_eq.trans hfibers)
  obtain ⟨e, qb, rfl, rfl, rfl⟩ := List.map_eq_cons_iff.mp hrest
  have hskip : ∀ x ∈ qa, ¬p x.2 = true := by
    intro x hx
    rw [hpassed x.2 (hqa ▸ List.mem_map_of_mem hx)]
    exact Bool.false_ne_true
  have hfind : l.queue.find? (fun e => p e.2) = some e := by
    rw [hqueue, List.find?_append, List.find?_eq_none.mpr hskip, Option.none_or,
      List.find?_cons_of_pos (p := fun e : Nat × FiberAndThread τ => p e.2) hp]
  have herase : l.queue.eraseP (fun e => p e.2) = qa ++ qb := by
    rw [hqueue, List.eraseP_append_right _ hskip,
      List.eraseP_cons_of_pos (p := fun e : Nat × FiberAndThread τ => p e.2) hp]
  have htake : l.take t p = { l with
      queue := qa ++ qb
      taken := l.taken ++ [(e.1, t, e.2)] } := by
    rw [Ledger.take, hfind, herase]
  have hincr := h.increasing
  have honce := h.once
  rw [hqueue] at hincr honce
  refine ⟨?_, e.1, by rw [hqueue]; simp, ?_, by rw [htake]⟩
  · rw [htake]
    refine ⟨by simp [hqa], hincr.sublist (by simp), List.Perm.trans ?_ honce, ?_⟩
    · simp only [List.map_append, List.map_cons, List.map_nil, List.append_assoc]
      refine List.Perm.append_left _ ?_
      rw [List.cons_append, ← List.append_assoc]
      exact List.perm_append_singleton e.1 _
    · intro x hx
      rcases List.mem_append.mp hx with hx | hx
      · exact h.pinned x hx
      · rw [List.mem_singleton.mp hx]
        exact hpin
  · intro x hx hpx
    rw [hqueue] at hx
    rcases List.mem_append.mp hx with hx | hx
    · exact absurd hpx (hskip x hx)
    · rcases List.mem_cons.mp hx with rfl | hx
      · exact le_rfl
      · exact le_of_lt ((List.pairwise_cons.mp (List.pairwise_append.mp hincr).2.1).1 x hx)

theorem Ledger.take_of_none {t : τ} {p : FiberAndThread τ → Bool} (h : l.Tracks fibers)
    (hpassed : ∀ x ∈ fibers, p x = false) :
    l.take t p = l ∧ ∀ e ∈ l.queue, p e.2 = false := by
  have hskip : ∀ e ∈ l.queue, p e.2 = false := fun e he =>
    hpassed e.2 (h.queue_eq ▸ List.mem_map_of_mem he)
  refine ⟨?_, hskip⟩
  rw [Ledger.take, List.find?_eq_none.mpr (fun e he => by simp [hskip e he])]

end Queue

/-! ## The counter -/

section Count

variable {s s' : Scheduler τ} {t : τ}

/-- One thread moves. -/
theorem busyThreads_update [Fintype τ] {p : Place τ} (h : s'.place = Function.update s.place t p) :
    busyThreads s' + (s.place t).busy.toNat = busyThreads s + p.busy.toNat := by
  have hsum : ∀ s : Scheduler τ, busyThreads s = ∑ u, (s.place u).busy.toNat := by
    intro s
    rw [busyThreads, Finset.card_filter]
    refine Finset.sum_congr rfl (fun u _ => ?_)
    cases (s.place u).busy <;> rfl
  have hfun : (fun u => (s'.place u).busy.toNat) =
      Function.update (fun u => (s.place u).busy.toNat) t p.busy.toNat := by
    funext u
    rw [h]
    by_cases hu : u = t
    · rw [hu, Function.update_self, Function.update_self]
    · rw [Function.update_of_ne hu, Function.update_of_ne hu]
  have hafter := Finset.sum_update_of_mem (Finset.mem_univ t) (fun u => (s.place u).busy.toNat)
    p.busy.toNat
  have hbefore := Finset.sum_update_of_mem (Finset.mem_univ t) (fun u => (s.place u).busy.toNat)
    (s.place t).busy.toNat
  rw [Function.update_eq_self t (fun u => (s.place u).busy.toNat)] at hbefore
  rw [hsum, hsum, hfun, hafter, hbefore]
  omega

/-- The thread moves, the counter goes with it, and nobody else is concerned. -/
structure Turn (s : Scheduler τ) (t : τ) (p : Place τ) (s' : Scheduler τ) : Prop where
  place_eq : s'.place = Function.update s.place t p
  count_eq : s'.activeThreadCount + (s.place t).busy.toNat = s.activeThreadCount + p.busy.toNat

theorem Turn.count [Fintype τ] {p : Place τ} (h : Turn s t p s')
    (hs : s.activeThreadCount = busyThreads s) : s'.activeThreadCount = busyThreads s' := by
  have hcount := h.count_eq
  have hbusy := busyThreads_update h.place_eq
  omega

/-- A step of a thread that leaves the queue alone. -/
theorem turn_moveTo {s₁ : Scheduler τ} {p q : Place τ} (hplace : s₁.place = s.place)
    (hq : s.place t = q)
    (hcount : s₁.activeThreadCount + q.busy.toNat = s.activeThreadCount + p.busy.toNat) :
    Turn s t p (s₁.moveTo t p) := ⟨by rw [moveTo_place, hplace], hq ▸ hcount⟩

/-- A step that is no business of the ledger. -/
def Unlisted (s s' : Scheduler τ) : Prop :=
  s'.fibers = s.fibers ∧ ((s'.place = s.place ∧ s'.activeThreadCount = s.activeThreadCount) ∨
    ∃ t p, Turn s t p s' ∧ ∀ ft, p ≠ .taken ft)

theorem unlisted_moveTo {s₁ : Scheduler τ} {p q : Place τ} (hfibers : s₁.fibers = s.fibers)
    (hplace : s₁.place = s.place) (hq : s.place t = q)
    (hcount : s₁.activeThreadCount + q.busy.toNat = s.activeThreadCount + p.busy.toNat)
    (hp : ∀ ft, p ≠ .taken ft) : Unlisted s (s₁.moveTo t p) :=
  ⟨hfibers, .inr ⟨t, p, turn_moveTo hplace hq hcount, hp⟩⟩

theorem move_unlisted {op : Op τ} (h : Move s op s') (hsched : ∀ ft, op ≠ .schedule ft)
    (htake : ∀ t, op ≠ .take t) (hreq : ∀ t, op ≠ .requeue t) : Unlisted s s' := by
  cases h with
  | newFiber => exact ⟨rfl, .inl ⟨rfl, rfl⟩⟩
  | schedule ft _ => exact absurd rfl (hsched ft)
  | take t => exact absurd rfl (htake t)
  | takeNothing t => exact absurd rfl (htake t)
  | requeue t => exact absurd rfl (hreq t)
  | enter t ft f hp => exact unlisted_moveTo rfl rfl hp rfl (fun _ => nofun)
  | reuseCb t ft f hp => exact unlisted_moveTo rfl rfl hp rfl (fun _ => nofun)
  | makeCb t ft hp => exact unlisted_moveTo rfl rfl hp rfl (fun _ => nofun)
  | drop t ft hp =>
    exact unlisted_moveTo rfl rfl hp (by simp [Place.busy]) (fun _ => nofun)
  | exit t hp => exact unlisted_moveTo rfl rfl hp rfl (fun _ => nofun)
  | enterIdle t hp => exact unlisted_moveTo rfl rfl hp rfl (fun _ => nofun)
  | swapIn t f b hp => exact unlisted_moveTo rfl rfl hp rfl (fun _ => nofun)
  | yield t f b x hp => exact unlisted_moveTo rfl rfl hp rfl (fun _ => nofun)
  | swapOut t f b hp =>
    rcases hp with hp | ⟨hp, -⟩
    · exact unlisted_moveTo rfl rfl hp rfl (fun _ => nofun)
    · exact unlisted_moveTo rfl rfl hp rfl (fun _ => nofun)
  | decrementIdle t f hp => exact unlisted_moveTo rfl rfl hp rfl (fun _ => nofun)
  | decrement t f b hp hb =>
    exact unlisted_moveTo rfl rfl hp (by simp [Place.busy, hb]) (fun _ => nofun)
  | ready t f b hp => exact unlisted_moveTo rfl rfl hp rfl (fun _ => nofun)
  | ended t f b hp => exact unlisted_moveTo rfl rfl hp rfl (fun _ => nofun)
  | endedCb t f hp => exact unlisted_moveTo rfl rfl hp rfl (fun _ => nofun)
  | hold t f b hp => exact unlisted_moveTo rfl rfl hp rfl (fun _ => nofun)
  | holdCb t f hp => exact unlisted_moveTo rfl rfl hp rfl (fun _ => nofun)

/-- A thread does not come to hold a task. -/
theorem Turn.taken_of {p : Place τ} (h : Turn s t p s') (hp : ∀ ft, p ≠ .taken ft) {u : τ}
    {ft : FiberAndThread τ} (hu : s'.place u = .taken ft) : s.place u = .taken ft := by
  rw [h.place_eq] at hu
  by_cases heq : u = t
  · rw [heq, Function.update_self] at hu
    exact absurd hu (hp ft)
  · rwa [Function.update_of_ne heq] at hu

end Count

/-! ## The steps -/

section Steps

variable [Fintype τ] {s s' : Scheduler τ} {l : Ledger τ}

omit [DecidableEq τ] in
theorem conserved_init : Conserved ((init : Scheduler τ), Ledger.init) where
  tracks := tracks_init
  count_eq := by simp [busyThreads, init, Place.busy]

theorem Unlisted.conserved (h : Unlisted s s') (hs : Conserved (s, l)) : Conserved (s', l) := by
  obtain ⟨hfibers, ⟨hplace, hcount⟩ | ⟨t, p, hturn, -⟩⟩ := h
  · refine ⟨hfibers ▸ hs.tracks, ?_⟩
    change s'.activeThreadCount = busyThreads s'
    rw [hcount, busyThreads, hplace]
    exact hs.count_eq
  · exact ⟨hfibers ▸ hs.tracks, hturn.count hs.count_eq⟩

omit [Fintype τ] in
theorem Unlisted.taken_of (h : Unlisted s s') {t : τ} {ft : FiberAndThread τ}
    (ht : s'.place t = .taken ft) : s.place t = .taken ft := by
  obtain ⟨-, ⟨hplace, -⟩ | ⟨u, p, hturn, hp⟩⟩ := h
  · rwa [hplace] at ht
  · exact hturn.taken_of hp ht

omit [DecidableEq τ] in
theorem Conserved.push (hs : Conserved (s, l)) (ft : FiberAndThread τ) :
    Conserved (s.scheduleNoLock ft, l.push ft) := by
  refine ⟨?_, ?_⟩
  · rw [scheduleNoLock_fibers]
    exact hs.tracks.push ft
  · change (s.scheduleNoLock ft).activeThreadCount = busyThreads (s.scheduleNoLock ft)
    rw [scheduleNoLock_count, busyThreads, scheduleNoLock_place]
    exact hs.count_eq

omit [DecidableEq τ] in
theorem Conserved.pushAll (hs : Conserved (s, l)) (fcs : List (FiberAndThread τ)) :
    Conserved (fcs.foldl (fun s ft => s.scheduleNoLock { ft with thread := none }) s,
      fcs.foldl (fun l ft => l.push { ft with thread := none }) l) := by
  induction fcs generalizing s l with
  | nil => exact hs
  | cons ft fcs ih => exact ih (hs.push { ft with thread := none })

omit [DecidableEq τ] [Fintype τ] in
theorem foldl_scheduleNoLock_place (fcs : List (FiberAndThread τ)) (s : Scheduler τ) :
    (fcs.foldl (fun s ft => s.scheduleNoLock { ft with thread := none }) s).place = s.place := by
  induction fcs generalizing s with
  | nil => rfl
  | cons ft fcs ih => rw [List.foldl_cons, ih, scheduleNoLock_place]

omit [DecidableEq τ] [Fintype τ] in
theorem push_taken (l : Ledger τ) (ft : FiberAndThread τ) : (l.push ft).taken = l.taken := by
  rw [Ledger.push]
  split <;> rfl

omit [DecidableEq τ] [Fintype τ] in
theorem foldl_push_taken (fcs : List (FiberAndThread τ)) (l : Ledger τ) :
    (fcs.foldl (fun l ft => l.push { ft with thread := none }) l).taken = l.taken := by
  induction fcs generalizing l with
  | nil => rfl
  | cons ft fcs ih => rw [List.foldl_cons, ih, push_taken]

omit [Fintype τ] in
theorem letGo_unlisted {t : τ} {f : Fiber τ} {b : Branch} (hp : s.place t = .requeuing f b) :
    Unlisted s (s.letGo t b) := by
  cases b with
  | cb => exact unlisted_moveTo rfl rfl hp rfl (fun _ => nofun)
  | fiber => exact unlisted_moveTo rfl rfl hp rfl (fun _ => nofun)
  | idle => exact unlisted_moveTo rfl rfl hp rfl (fun _ => nofun)

/-- A search of the queue. -/
theorem take_conserved {t : τ} (hs : Conserved (s, l)) (h : Move s (.take t) s') :
    Conserved (s', l.take t (s.eligible t)) ∧
      TakesFirst (s, l) (.op (.take t)) (s', l.take t (s.eligible t)) := by
  cases h with
  | take _ ft as bs hp hel hfibers hpassed =>
    obtain ⟨htracks, n, hmem, hmin, htaken⟩ := hs.tracks.take hfibers hel hpassed (eligible_pin hel)
    have hturn : Turn s t (.taken ft) ({ s with
        fibers := as ++ bs
        activeThreadCount := s.activeThreadCount + 1 }.moveTo t (.taken ft)) :=
      turn_moveTo rfl hp (by simp [Place.busy])
    refine ⟨⟨htracks, hturn.count hs.count_eq⟩, .inl ⟨(n, ft), hmem, hel, hmin, ?_, htaken⟩⟩
    change ({ s with
      fibers := as ++ bs
      activeThreadCount := s.activeThreadCount + 1 }.moveTo t (.taken ft)).place t = _
    rw [moveTo_place, Function.update_self]
  | takeNothing _ hp hpassed =>
    obtain ⟨hsame, hnone⟩ := Ledger.take_of_none (t := t) hs.tracks hpassed
    have hmove : Unlisted s (s.moveTo t .nothing) :=
      unlisted_moveTo rfl rfl hp rfl (fun _ => nofun)
    rw [hsame]
    refine ⟨hmove.conserved hs, .inr ⟨hnone, ?_, rfl⟩⟩
    change (s.moveTo t .nothing).place t = _
    rw [moveTo_place, Function.update_self]

theorem requeue_conserved {t : τ} (hs : Conserved (s, l)) (h : Move s (.requeue t) s') :
    Conserved (s', l.after s (.op (.requeue t))) ∧
      TakesFirst (s, l) (.op (.requeue t)) (s', l.after s (.op (.requeue t))) := by
  cases h with
  | requeue _ f b hp =>
    have hgo := letGo_unlisted hp
    have hafter : l.after s (.op (.requeue t)) = l.push { fiber := some f } := by
      rw [Ledger.after, hp]
    rw [hafter]
    refine ⟨(hgo.conserved hs).push _, push_taken l _, fun u ft hu => ?_⟩
    change ((s.letGo t b).scheduleNoLock { fiber := some f }).place u = _ at hu
    rw [scheduleNoLock_place] at hu
    exact hgo.taken_of hu

theorem step_conserved {x y : Scheduler τ × Ledger τ} {c : Call τ} (hs : Conserved x)
    (h : LedgerStep x c y) : Conserved y ∧ TakesFirst x c y := by
  obtain ⟨s, l⟩ := x
  rw [LedgerStep, ledgerStep, map_eq_ok] at h
  obtain ⟨s', hstep, rfl⟩ := h
  cases c with
  | scheduleAll fcs =>
    change s.scheduleAll fcs = .ok s' at hstep
    rw [scheduleAll] at hstep
    split at hstep
    · cases hstep
      refine ⟨hs.pushAll fcs, foldl_push_taken fcs l, fun t ft ht => ?_⟩
      change (fcs.foldl _ s).place t = _ at ht
      rwa [foldl_scheduleNoLock_place] at ht
    · cases hstep
  | op op =>
    have hmove := move_of_step hstep
    have hother : (∀ ft, op ≠ .schedule ft) → (∀ t, op ≠ .take t) → (∀ t, op ≠ .requeue t) →
        Conserved (s', l) ∧ l.taken = l.taken ∧
          ∀ t ft, s'.place t = .taken ft → s.place t = .taken ft := by
      intro hsched htake hreq
      have hun := move_unlisted hmove hsched htake hreq
      exact ⟨hun.conserved hs, rfl, fun _ _ ht => hun.taken_of ht⟩
    cases op with
    | schedule ft =>
      cases hmove
      refine ⟨hs.push ft, push_taken l ft, fun t ft' ht => ?_⟩
      change (s.scheduleNoLock ft).place t = _ at ht
      rwa [scheduleNoLock_place] at ht
    | take t => exact take_conserved hs hmove
    | requeue t => exact requeue_conserved hs hmove
    | newFiber => exact hother (fun _ => nofun) (fun _ => nofun) (fun _ => nofun)
    | branch t => exact hother (fun _ => nofun) (fun _ => nofun) (fun _ => nofun)
    | swapIn t => exact hother (fun _ => nofun) (fun _ => nofun) (fun _ => nofun)
    | yield t x => exact hother (fun _ => nofun) (fun _ => nofun) (fun _ => nofun)
    | swapOut t => exact hother (fun _ => nofun) (fun _ => nofun) (fun _ => nofun)
    | decrement t => exact hother (fun _ => nofun) (fun _ => nofun) (fun _ => nofun)
    | fixUp t => exact hother (fun _ => nofun) (fun _ => nofun) (fun _ => nofun)

end Steps

/-- In every run no task is lost or taken twice, the first in line is taken first, and the
counter counts the threads with a task. -/
theorem run_conserved [Fintype τ] (t : List (Call τ × Scheduler τ × Ledger τ))
    (run : Run LedgerStep ((init : Scheduler τ), Ledger.init) t) :
    Always Conserved (init, Ledger.init) t ∧ Every TakesFirst (init, Ledger.init) t :=
  ⟨always_of_step (I := Conserved) (fun _ _ _ hs h => (step_conserved hs h).1) run conserved_init,
    every_of_step (I := Conserved) (Q := TakesFirst) (fun _ _ _ hs h => (step_conserved hs h).1)
      (fun _ _ _ hs h => (step_conserved hs h).2) run conserved_init⟩

/-- A thread passes over what is pinned to the other one. -/
theorem run_conserved_pinned : ∃ t,
    trace ledgerStep ((init : Scheduler Bool), Ledger.init) [.op .newFiber,
      .op (.schedule { fiber := some (.made 0), thread := some true }),
      .scheduleAll [{ cb := some 7 }, {}], .op (.take false), .op (.branch false),
      .op (.swapIn false), .op (.take true)] = .ok t ∧
    (Always Conserved (init, Ledger.init) t ∧ Every TakesFirst (init, Ledger.init) t) :=
  ⟨_, rfl, run_conserved _ (run_of_trace [.op .newFiber,
    .op (.schedule { fiber := some (.made 0), thread := some true }),
    .scheduleAll [{ cb := some 7 }, {}], .op (.take false), .op (.branch false),
    .op (.swapIn false), .op (.take true)] rfl)⟩

end CxkFramework.Scheduler
