import CxkFramework.FiberSemaphore
import CxkFramework.Runs
import Mathlib.Data.List.Nodup

/-!
# Where the permits of a semaphore go

`FiberSemaphore` with its counter as the `size_t` it is, over every interleaving of its sections. What
was given in and what was handed out is counted beside it, and a fiber that has to wait yields in a
step of its own, so `notify` can schedule it before.
-/

namespace CxkFramework.SemaphorePermits

open Runs

structure Semaphore (ω : Type) where
  concurrency : UInt64
  waiters : List ω
  deriving DecidableEq, Repr

namespace Semaphore

variable {ω : Type}

def tryWait (s : Semaphore ω) : Bool × Semaphore ω :=
  if s.concurrency > 0 then (true, { s with concurrency := s.concurrency - 1 }) else (false, s)

/-- Whether the caller goes on; otherwise it is among the waiters and yields. -/
def wait (s : Semaphore ω) (w : ω) : Bool × Semaphore ω :=
  if s.concurrency > 0 then (true, { s with concurrency := s.concurrency - 1 })
  else (false, { s with waiters := s.waiters ++ [w] })

/-- The waiter that is scheduled, if there is one. -/
def notify (s : Semaphore ω) : Option ω × Semaphore ω :=
  match s.waiters with
  | w :: rest => (some w, { s with waiters := rest })
  | [] => (none, { s with concurrency := s.concurrency + 1 })

/-- The counter as a number. -/
def count (s : Semaphore ω) : FiberSemaphore ω := ⟨s.concurrency.toNat, s.waiters⟩

theorem toNat_pos_iff (n : UInt64) : n > 0 ↔ 0 < n.toNat := by
  rw [gt_iff_lt, UInt64.lt_iff_toNat_lt, UInt64.toNat_zero]

theorem toNat_sub_one {n : UInt64} (h : n > 0) : (n - 1).toNat = n.toNat - 1 := by
  have hpos := (toNat_pos_iff n).mp h
  apply UInt64.toNat_sub_of_le
  rw [UInt64.le_iff_toNat_le, UInt64.toNat_one]
  exact hpos

theorem toNat_add_one (n : UInt64) : (n + 1).toNat = (n.toNat + 1) % 2 ^ 64 := by
  rw [UInt64.toNat_add, UInt64.toNat_one]

theorem count_wait (s : Semaphore ω) (w : ω) :
    ((s.wait w).1, (s.wait w).2.count) = s.count.wait w := by
  by_cases h : s.concurrency > 0
  · have hpos := (toNat_pos_iff _).mp h
    rw [wait, if_pos h, FiberSemaphore.wait_of_pos hpos]
    simp only [count, toNat_sub_one h]
  · have hzero : s.count.concurrency = 0 := Nat.eq_zero_of_not_pos ((toNat_pos_iff _).not.mp h)
    rw [wait, if_neg h, FiberSemaphore.wait_of_zero hzero]
    rfl

/-- As long as the counter does not start again from zero. -/
theorem count_notify (s : Semaphore ω) (h : s.concurrency.toNat + 1 < 2 ^ 64) :
    (s.notify.1, s.notify.2.count) = s.count.notify := by
  cases hw : s.waiters with
  | nil =>
    rw [FiberSemaphore.notify_nil hw, notify, hw]
    simp only [count, toNat_add_one, Nat.mod_eq_of_lt h, hw]
  | cons w rest =>
    rw [FiberSemaphore.notify_cons hw, notify, hw]
    rfl

end Semaphore

/-- A fiber in `wait` has left the section before it yields. -/
inductive Phase where
  | running
  | leaving
  | held
  deriving DecidableEq, Repr

/-- The semaphore, what was counted so far, the fibers that came to wait and those that were
scheduled, in their order, and the scheduled ones that do not run yet. -/
structure State (ω : Type) where
  semaphore : Semaphore ω
  notifies : Nat
  returns : Nat
  enqueued : List ω
  scheduled : List ω
  ready : List ω
  phase : ω → Phase

/-- Immediate returns of `wait` and `tryWait`, and waiters that `notify` scheduled. -/
def State.granted {ω : Type} (s : State ω) : Nat := s.returns + s.scheduled.length

/-- Each section under the lock, the yield of `wait`, and the scheduler resuming a fiber. -/
inductive Act (ω : Type) where
  | wait (f : ω)
  | tryWait (f : ω)
  | notify
  | yield (f : ω)
  | resume (f : ω)
  deriving DecidableEq, Repr

variable {ω : Type} [DecidableEq ω]

/-- A fiber calls while it runs; the scheduler resumes a fiber that has yielded. -/
def step (s : State ω) : Act ω → Option (State ω)
  | .wait f =>
    if s.phase f = .running then
      match s.semaphore.wait f with
      | (true, semaphore) => some { s with semaphore, returns := s.returns + 1 }
      | (false, semaphore) => some { s with
          semaphore
          enqueued := s.enqueued ++ [f]
          phase := Function.update s.phase f .leaving }
    else none
  | .tryWait f =>
    if s.phase f = .running then
      match s.semaphore.tryWait with
      | (true, semaphore) => some { s with semaphore, returns := s.returns + 1 }
      | (false, semaphore) => some { s with semaphore }
    else none
  | .notify =>
    match s.semaphore.notify with
    | (some f, semaphore) => some { s with
        semaphore
        notifies := s.notifies + 1
        scheduled := s.scheduled ++ [f]
        ready := s.ready ++ [f] }
    | (none, semaphore) => some { s with semaphore, notifies := s.notifies + 1 }
  | .yield f =>
    if s.phase f = .leaving then some { s with phase := Function.update s.phase f .held } else none
  | .resume f =>
    if s.phase f = .held ∧ f ∈ s.ready then some { s with
      ready := s.ready.erase f
      phase := Function.update s.phase f .running }
    else none

def Step (s : State ω) (a : Act ω) (s' : State ω) : Prop := step s a = some s'

/-- A new semaphore, with all fibers running. -/
def start (initial : UInt64) : State ω where
  semaphore := { concurrency := initial, waiters := [] }
  notifies := 0
  returns := 0
  enqueued := []
  scheduled := []
  ready := []
  phase _ := .running

/-- Everything a step can do. -/
inductive Moves (s : State ω) : Act ω → State ω → Prop
  | grant {f : ω} {a : Act ω} : a = .wait f ∨ a = .tryWait f → s.semaphore.concurrency > 0 →
      Moves s a { s with
        semaphore := { s.semaphore with concurrency := s.semaphore.concurrency - 1 }
        returns := s.returns + 1 }
  | enqueue {f : ω} : s.phase f = .running → s.semaphore.concurrency = 0 → Moves s (.wait f) { s with
      semaphore := { s.semaphore with waiters := s.semaphore.waiters ++ [f] }
      enqueued := s.enqueued ++ [f]
      phase := Function.update s.phase f .leaving }
  | refuse {f : ω} : s.semaphore.concurrency = 0 → Moves s (.tryWait f) s
  | schedule {f : ω} {rest : List ω} : s.semaphore.waiters = f :: rest → Moves s .notify { s with
      semaphore := { s.semaphore with waiters := rest }
      notifies := s.notifies + 1
      scheduled := s.scheduled ++ [f]
      ready := s.ready ++ [f] }
  | release : s.semaphore.waiters = [] → Moves s .notify { s with
      semaphore := { s.semaphore with concurrency := s.semaphore.concurrency + 1 }
      notifies := s.notifies + 1 }
  | yield {f : ω} : s.phase f = .leaving →
      Moves s (.yield f) { s with phase := Function.update s.phase f .held }
  | resume {f : ω} : s.phase f = .held → f ∈ s.ready → Moves s (.resume f) { s with
      ready := s.ready.erase f
      phase := Function.update s.phase f .running }

theorem concurrency_eq_zero {n : UInt64} (h : ¬n > 0) : n = 0 := by
  apply UInt64.toNat_inj.mp
  have := (Semaphore.toNat_pos_iff n).not.mp h
  rw [UInt64.toNat_zero]
  omega

theorem moves_of_step {s s' : State ω} {a : Act ω} (h : Step s a s') : Moves s a s' := by
  cases a with
  | wait f =>
    rw [Step, step] at h
    split at h
    · next hphase =>
      rw [Semaphore.wait] at h
      by_cases hpos : s.semaphore.concurrency > 0
      · simp only [hpos, if_true] at h
        cases h
        exact .grant (.inl rfl) hpos
      · simp only [hpos, if_false] at h
        cases h
        exact .enqueue hphase (concurrency_eq_zero hpos)
    · cases h
  | tryWait f =>
    rw [Step, step] at h
    split at h
    · rw [Semaphore.tryWait] at h
      by_cases hpos : s.semaphore.concurrency > 0
      · simp only [hpos, if_true] at h
        cases h
        exact .grant (.inr rfl) hpos
      · simp only [hpos, if_false] at h
        cases h
        exact .refuse (concurrency_eq_zero hpos)
    · cases h
  | notify =>
    rw [Step, step, Semaphore.notify] at h
    cases hw : s.semaphore.waiters with
    | nil =>
      simp only [hw] at h
      cases h
      exact hw ▸ .release hw
    | cons f rest =>
      simp only [hw] at h
      cases h
      exact .schedule hw
  | yield f =>
    rw [Step, step] at h
    split at h
    · next hphase =>
      cases h
      exact .yield hphase
    · cases h
  | resume f =>
    rw [Step, step] at h
    split at h
    · next hready =>
      cases h
      exact .resume hready.1 hready.2
    · cases h

/-! ## The invariants -/

/-- The balance in `size_t` arithmetic, in which the counter is kept. -/
def Balanced (initial : UInt64) (s : State ω) : Prop :=
  initial + UInt64.ofNat s.notifies = s.semaphore.concurrency + UInt64.ofNat s.granted

/-- The balance in numbers. -/
def Exact (initial : UInt64) (s : State ω) : Prop :=
  initial.toNat + s.notifies = s.semaphore.concurrency.toNat + s.granted

/-- A fiber in `wait` is waiting or scheduled, and only once. -/
structure Blocked (s : State ω) : Prop where
  nodup : (s.semaphore.waiters ++ s.ready).Nodup
  mem_iff : ∀ f, f ∈ s.semaphore.waiters ++ s.ready ↔ s.phase f ≠ .running

structure Inv (initial : UInt64) (s : State ω) : Prop where
  balanced : Balanced initial s
  idle : s.semaphore.waiters ≠ [] → s.semaphore.concurrency = 0
  fifo : s.enqueued = s.scheduled ++ s.semaphore.waiters
  blocked : Blocked s

variable {s s' : State ω} {a : Act ω} {initial : UInt64}

theorem ofNat_succ (n : Nat) : UInt64.ofNat (n + 1) = UInt64.ofNat n + 1 := by
  rw [UInt64.ofNat_add]
  rfl

theorem balanced_step (hb : Balanced initial s) (h : Moves s a s') : Balanced initial s' := by
  rw [Balanced, State.granted] at hb ⊢
  cases h with
  | grant _ _ =>
    simp only [Nat.add_right_comm s.returns 1, ofNat_succ, hb]
    grind
  | enqueue _ _ => exact hb
  | refuse _ => exact hb
  | schedule _ =>
    simp only [List.length_append, List.length_singleton, ← Nat.add_assoc, ofNat_succ]
    grind
  | release _ =>
    simp only [ofNat_succ]
    grind
  | yield _ => exact hb
  | resume _ _ => exact hb

theorem idle_step (hi : s.semaphore.waiters ≠ [] → s.semaphore.concurrency = 0)
    (h : Moves s a s') : s'.semaphore.waiters ≠ [] → s'.semaphore.concurrency = 0 := by
  cases h with
  | grant _ hpos =>
    intro hne
    rw [hi hne] at hpos
    exact absurd hpos (by decide)
  | enqueue _ hzero => exact fun _ => hzero
  | refuse _ => exact hi
  | schedule hw => exact fun _ => hi (by rw [hw]; exact List.cons_ne_nil _ _)
  | release hw => exact fun hne => absurd hw hne
  | yield _ => exact hi
  | resume _ _ => exact hi

theorem fifo_step (hf : s.enqueued = s.scheduled ++ s.semaphore.waiters) (h : Moves s a s') :
    s'.enqueued = s'.scheduled ++ s'.semaphore.waiters := by
  cases h with
  | grant _ _ => exact hf
  | enqueue _ _ => simp only [hf, List.append_assoc]
  | refuse _ => exact hf
  | schedule hw => simp only [hf, hw, List.append_assoc, List.singleton_append]
  | release _ => exact hf
  | yield _ => exact hf
  | resume _ _ => exact hf

theorem blocked_step (hb : Blocked s) (h : Moves s a s') : Blocked s' := by
  obtain ⟨hnodup, hmem⟩ := hb
  cases h with
  | grant _ _ => exact ⟨hnodup, hmem⟩
  | @enqueue f hphase _ =>
    have hout : f ∉ s.semaphore.waiters ++ s.ready := fun hin => (hmem f).mp hin hphase
    have hperm : (s.semaphore.waiters ++ [f] ++ s.ready).Perm
        (f :: (s.semaphore.waiters ++ s.ready)) := by
      rw [List.append_assoc]
      exact List.perm_middle
    constructor
    · exact hperm.nodup_iff.mpr (List.nodup_cons.mpr ⟨hout, hnodup⟩)
    · intro g
      rw [hperm.mem_iff, List.mem_cons, hmem]
      by_cases hg : g = f
      · subst hg
        simp
      · simp [hg]
  | refuse _ => exact ⟨hnodup, hmem⟩
  | @schedule f rest hw =>
    have hperm : (rest ++ (s.ready ++ [f])).Perm (s.semaphore.waiters ++ s.ready) := by
      rw [hw, ← List.append_assoc]
      exact List.perm_append_singleton _ _
    exact ⟨hperm.nodup_iff.mpr hnodup, fun g => hperm.mem_iff.trans (hmem g)⟩
  | release _ => exact ⟨hnodup, hmem⟩
  | @yield f hphase =>
    refine ⟨hnodup, fun g => (hmem g).trans ?_⟩
    by_cases hg : g = f
    · subst hg
      simp [hphase]
    · simp [hg]
  | @resume f hphase hready =>
    have hperm : (s.semaphore.waiters ++ s.ready).Perm
        (f :: (s.semaphore.waiters ++ s.ready.erase f)) :=
      ((List.perm_cons_erase hready).append_left _).trans List.perm_middle
    have hcons := hperm.nodup_iff.mp hnodup
    constructor
    · exact (List.nodup_cons.mp hcons).2
    · intro g
      by_cases hg : g = f
      · subst hg
        simpa using (List.nodup_cons.mp hcons).1
      · have hsame := hmem g
        rw [hperm.mem_iff, List.mem_cons] at hsame
        simpa [hg] using hsame

theorem inv_step (hi : Inv initial s) (h : Step s a s') : Inv initial s' := by
  have hmoves := moves_of_step h
  exact ⟨balanced_step hi.balanced hmoves, idle_step hi.idle hmoves, fifo_step hi.fifo hmoves,
    blocked_step hi.blocked hmoves⟩

omit [DecidableEq ω] in
theorem inv_start (initial : UInt64) : Inv initial (start initial : State ω) where
  balanced := rfl
  idle h := absurd rfl h
  fifo := rfl
  blocked := ⟨List.nodup_nil, fun f => by simp [start]⟩

/-- A `notify` finds the waiter at the front and schedules it, or finds none and adds a permit; no
other step schedules a fiber. -/
def Wakes (s : State ω) (a : Act ω) (s' : State ω) : Prop :=
  (a = .notify ∧ ∃ f rest, s.semaphore.waiters = f :: rest ∧ s'.semaphore.waiters = rest ∧
    s'.scheduled = s.scheduled ++ [f] ∧ s'.ready = s.ready ++ [f]) ∨
  (a = .notify ∧ s.semaphore.waiters = [] ∧
    s'.semaphore.concurrency = s.semaphore.concurrency + 1 ∧ s'.scheduled = s.scheduled) ∨
  (a ≠ .notify ∧ s'.scheduled = s.scheduled)

theorem wakes_of_moves (h : Moves s a s') : Wakes s a s' := by
  cases h with
  | grant ha _ =>
    right
    right
    rcases ha with rfl | rfl <;> exact ⟨nofun, rfl⟩
  | enqueue _ _ => exact .inr (.inr ⟨nofun, rfl⟩)
  | refuse _ => exact .inr (.inr ⟨nofun, rfl⟩)
  | schedule hw => exact .inl ⟨rfl, _, _, hw, rfl, rfl, rfl⟩
  | release hw => exact .inr (.inl ⟨rfl, hw, rfl, rfl⟩)
  | yield _ => exact .inr (.inr ⟨nofun, rfl⟩)
  | resume _ _ => exact .inr (.inr ⟨nofun, rfl⟩)

/-- The counter does not start again from zero. -/
def Counts (s : State ω) (a : Act ω) : Prop :=
  a = .notify → s.semaphore.waiters = [] → s.semaphore.concurrency.toNat + 1 < 2 ^ 64

theorem exact_step (he : Exact initial s) (h : Moves s a s') : Exact initial s' ↔ Counts s a := by
  rw [Exact, State.granted] at he ⊢
  have hlt := s.semaphore.concurrency.toNat_lt
  cases h with
  | @grant f a ha hpos =>
    have hgt := (Semaphore.toNat_pos_iff _).mp hpos
    refine iff_of_true ?_ ?_
    · simp only [Semaphore.toNat_sub_one hpos]
      omega
    · rintro rfl
      simp at ha
  | enqueue _ _ => exact iff_of_true he nofun
  | refuse _ => exact iff_of_true he nofun
  | @schedule f rest hw =>
    refine iff_of_true ?_ ?_
    · simp only [List.length_append, List.length_singleton]
      omega
    · intro _ hnil
      rw [hw] at hnil
      cases hnil
  | release hw =>
    simp only [Counts, hw, Semaphore.toNat_add_one, forall_const]
    omega
  | yield _ => exact iff_of_true he nofun
  | resume _ _ => exact iff_of_true he nofun

/-- The permits are conserved in every interleaving, as the `size_t` they are counted in, and as
numbers if and only if the counter never starts again from zero. -/
theorem permits_conserved {t : List (Act ω × State ω)} (run : Run Step (start initial) t) :
    Always (Inv initial) (start initial) t ∧ Every Wakes (start initial) t ∧
      (Always (Exact initial) (start initial) t ↔ Meets Counts (start initial) t) := by
  constructor
  · exact always_of_step (fun _ _ _ hi h => inv_step hi h) run (inv_start initial)
  constructor
  · exact every_of_step (fun _ _ _ _ _ => trivial) (fun _ _ _ _ h => wakes_of_moves (moves_of_step h))
      run trivial
  · exact always_iff_meets (fun _ => True) _ Counts (fun _ _ _ _ _ _ => trivial)
      (fun _ _ _ _ he h => exact_step he (moves_of_step h)) run trivial (by simp [Exact, start, State.granted])

/-- The run that some steps make, as far as they can be taken. -/
def play (s : State ω) : List (Act ω) → List (Act ω × State ω)
  | [] => []
  | a :: acts =>
    match step s a with
    | none => []
    | some s' => (a, s') :: play s' acts

theorem run_play (s : State ω) (acts : List (Act ω)) : Run Step s (play s acts) := by
  induction acts generalizing s with
  | nil => exact .nil s
  | cons a acts ih =>
    rw [play]
    cases h : step s a with
    | none => exact .nil s
    | some s' => exact .cons h (ih s')

/-- Fiber 1 is scheduled before it has yielded. -/
def early : List (Act Nat) := [.wait 0, .wait 1, .notify, .yield 1, .resume 1]

theorem permits_conserved_early : Inv 1 (last (start 1) (play (start 1) early)) ∧
    (play (start 1) early).length = 5 ∧ (last (start 1) (play (start 1) early)).scheduled = [1] := by
  have run := run_play (start 1) early
  exact ⟨(permits_conserved run).1.last, rfl, rfl⟩

/-- The greatest count and one `notify` more: the counter is zero, and no permit was handed out. -/
theorem permit_lost :
    (last (start 0xFFFFFFFFFFFFFFFF) (play (start 0xFFFFFFFFFFFFFFFF)
      [(.notify : Act Nat)])).semaphore.concurrency = 0 ∧
    ¬Exact 0xFFFFFFFFFFFFFFFF (last (start 0xFFFFFFFFFFFFFFFF) (play (start 0xFFFFFFFFFFFFFFFF)
      [(.notify : Act Nat)])) := by
  constructor
  · rfl
  · intro h
    have hsum : (0xFFFFFFFFFFFFFFFF : UInt64).toNat + 1 = 0 := h
    cases hsum

end CxkFramework.SemaphorePermits
