import CxkFramework.FiberSemaphore
import CxkFramework.Runs

/-!
# A group of workers

`WorkerGroup`: callers of `schedule` take a permit of the semaphore before their task goes to the
scheduler, `doWork` gives it back, and `waitAll` takes as many permits as the batch has. A fiber
that has to wait is resumed by the `notify` that takes it off the list.
-/

namespace CxkFramework

/-- A fiber in `schedule` or `waitAll`. -/
inductive WorkerGroup.Caller where
  /-- in `schedule`, among the waiters -/
  | waiting
  /-- behind the `wait` of `schedule` -/
  | granted
  /-- its task has gone to the scheduler -/
  | scheduled
  /-- in the loop of `waitAll`, behind `i` waits -/
  | draining (i : Nat)
  | drainWaiting (i : Nat)
  /-- back from `waitAll` -/
  | drained (i : Nat)
  deriving DecidableEq, Repr

/-- `WorkerGroup` with its callers and its tasks, `true` for those that have finished. A caller is
known by its place in the list. -/
structure WorkerGroup where
  batchSize : Nat
  finish : Bool
  sem : FiberSemaphore Nat
  callers : List WorkerGroup.Caller
  tasks : List Bool
  deriving DecidableEq, Repr

namespace WorkerGroup

/-- The constructor does not mention `m_sem`, so it has the count that `FiberSemaphore` has by
default. -/
def create (batchSize : Nat) : WorkerGroup where
  batchSize := batchSize
  finish := false
  sem := { concurrency := 0, waiters := [] }
  callers := []
  tasks := []

inductive Label where
  | schedule
  /-- a caller of `schedule` goes on behind its `wait` -/
  | push (i : Nat)
  /-- a task returns and its `doWork` notifies -/
  | doWork (k : Nat)
  | waitAll
  /-- the next round of the loop of `waitAll` -/
  | drain (i : Nat)
  deriving DecidableEq, Repr

/-- The caller is resumed. -/
def resumed : Caller → Caller
  | .waiting => .granted
  | .drainWaiting i => .draining (i + 1)
  | c => c

def step (s : WorkerGroup) : Label → Option WorkerGroup
  | .schedule =>
    match s.sem.wait s.callers.length with
    | (true, sem) => some { s with sem := sem, callers := s.callers ++ [.granted] }
    | (false, sem) => some { s with sem := sem, callers := s.callers ++ [.waiting] }
  | .push i =>
    match s.callers[i]? with
    | some .granted =>
      some { s with callers := s.callers.set i .scheduled, tasks := s.tasks ++ [false] }
    | _ => none
  | .doWork k =>
    match s.tasks[k]? with
    | some false =>
      match s.sem.notify with
      | (some w, sem) =>
        some { s with
          sem := sem
          tasks := s.tasks.set k true
          callers := s.callers.modify w resumed }
      | (none, sem) => some { s with sem := sem, tasks := s.tasks.set k true }
    | _ => none
  | .waitAll =>
    if s.finish then some { s with callers := s.callers ++ [.drained 0] }
    else some { s with finish := true, callers := s.callers ++ [.draining 0] }
  | .drain i =>
    match s.callers[i]? with
    | some (.draining n) =>
      if n < s.batchSize then
        match s.sem.wait i with
        | (true, sem) => some { s with sem := sem, callers := s.callers.set i (.draining (n + 1)) }
        | (false, sem) =>
          some { s with sem := sem, callers := s.callers.set i (.drainWaiting n) }
      else some { s with callers := s.callers.set i (.drained n) }
    | _ => none

/-! ## Permits -/

/-- The permits that a caller holds. -/
def Caller.permits : Caller → Nat
  | .granted => 1
  | .draining i => i
  | .drainWaiting i => i
  | .drained i => i
  | _ => 0

def Caller.isWaiting : Caller → Bool
  | .waiting => true
  | .drainWaiting _ => true
  | _ => false

/-- The tasks that took a permit and have not given it back: those of callers behind their `wait`
and those in the hands of the scheduler. -/
def outstanding (s : WorkerGroup) : Nat := s.callers.count .granted + s.tasks.count false

/-- The permits at all places. -/
def permits (s : WorkerGroup) : Nat :=
  s.sem.concurrency + (s.callers.map Caller.permits).sum + s.tasks.count false

/-- The waiters are callers that wait, each once. -/
structure Queued (s : WorkerGroup) : Prop where
  nodup : s.sem.waiters.Nodup
  waiting : ∀ w ∈ s.sem.waiters, ∃ c, s.callers[w]? = some c ∧ c.isWaiting = true

section Permits

variable {s s' : WorkerGroup} {i w n : Nat} {c c' : Caller}

theorem permits_resumed (h : c.isWaiting = true) : (resumed c).permits = c.permits + 1 := by
  cases c with
  | waiting => rfl
  | drainWaiting i => rfl
  | granted => cases h
  | scheduled => cases h
  | draining i => cases h
  | drained i => cases h

theorem Queued.not_mem (hq : s.Queued) (hc : s.callers[i]? = some c) (hw : c.isWaiting = false) :
    i ∉ s.sem.waiters := by
  intro hmem
  obtain ⟨d, hd, hwait⟩ := hq.waiting i hmem
  rw [hc] at hd
  cases hd
  rw [hw] at hwait
  cases hwait

/-- Callers that come keep the queue. -/
theorem Queued.getElem?_append (hq : s.Queued) (h : w ∈ s.sem.waiters) (new : List Caller) :
    ∃ d, (s.callers ++ new)[w]? = some d ∧ d.isWaiting = true := by
  obtain ⟨d, hd, hwait⟩ := hq.waiting w h
  have hlt := (List.getElem?_eq_some_iff.mp hd).1
  exact ⟨d, by rw [List.getElem?_append_left hlt, hd], hwait⟩

/-- A caller that does not wait may go on. -/
theorem Queued.getElem?_set (hq : s.Queued) (h : w ∈ s.sem.waiters) (hi : i ≠ w) :
    ∃ d, (s.callers.set i c')[w]? = some d ∧ d.isWaiting = true := by
  obtain ⟨d, hd, hwait⟩ := hq.waiting w h
  exact ⟨d, by rw [List.getElem?_set_ne hi, hd], hwait⟩

theorem count_finished {tasks : List Bool} {k : Nat} (h : tasks[k]? = some false) :
    (tasks.set k true).count false + 1 = tasks.count false := by
  obtain ⟨hk, hget⟩ := List.getElem?_eq_some_iff.mp h
  have hpos : 0 < tasks.count false := by
    apply List.count_pos_iff.mpr
    rw [← hget]
    exact List.getElem_mem hk
  rw [List.count_set hk, hget]
  simp only [BEq.rfl, if_true, Bool.true_beq, Bool.false_eq_true, if_false]
  omega

/-- What a step keeps. -/
structure Kept (s s' : WorkerGroup) : Prop where
  queued : s'.Queued
  permits_eq : s'.permits = s.permits
  batchSize_eq : s'.batchSize = s.batchSize

theorem kept_schedule (hq : s.Queued) (hs : step s .schedule = some s') : Kept s s' := by
  by_cases hpos : 0 < s.sem.concurrency
  · rw [step, FiberSemaphore.wait_of_pos hpos] at hs
    cases hs
    refine ⟨⟨hq.nodup, fun w hw => hq.getElem?_append hw _⟩, ?_, rfl⟩
    simp only [permits, List.map_append, List.sum_append, List.map_cons, List.map_nil,
      List.sum_cons, List.sum_nil, Caller.permits]
    omega
  · have hzero : s.sem.concurrency = 0 := Nat.eq_zero_of_not_pos hpos
    rw [step, FiberSemaphore.wait_of_zero hzero] at hs
    cases hs
    have hnew : s.callers.length ∉ s.sem.waiters := by
      intro hmem
      obtain ⟨d, hd, -⟩ := hq.waiting _ hmem
      simp at hd
    refine ⟨⟨?_, ?_⟩, by simp [permits, Caller.permits], rfl⟩
    · simpa [List.nodup_append] using ⟨hq.nodup, fun w hw h => hnew (h ▸ hw)⟩
    · intro w hw
      rw [List.mem_append, List.mem_singleton] at hw
      cases hw with
      | inl hw => exact hq.getElem?_append hw _
      | inr hw => exact ⟨.waiting, by simp [hw], rfl⟩

theorem kept_push (hq : s.Queued) (hs : step s (.push i) = some s') : Kept s s' := by
  rw [step] at hs
  split at hs
  · rename_i hc
    cases hs
    have hi := hq.not_mem hc rfl
    refine ⟨⟨hq.nodup, fun w hw => hq.getElem?_set hw fun h => hi (h ▸ hw)⟩, ?_, rfl⟩
    have hsum := Runs.sum_map_set Caller.permits s.callers i .granted .scheduled hc
    simp only [permits, List.count_append, List.count_singleton_self, Caller.permits] at hsum ⊢
    omega
  · cases hs

theorem kept_doWork {k : Nat} (hq : s.Queued) (hs : step s (.doWork k) = some s') :
    Kept s s' := by
  rw [step] at hs
  split at hs
  · rename_i hk
    have hcount := count_finished hk
    cases hwaiters : s.sem.waiters with
    | nil =>
      rw [FiberSemaphore.notify_nil hwaiters] at hs
      cases hs
      refine ⟨⟨hq.nodup, hq.waiting⟩, ?_, rfl⟩
      simp only [permits]
      omega
    | cons w rest =>
      rw [FiberSemaphore.notify_cons hwaiters] at hs
      cases hs
      have hnodup := hq.nodup
      rw [hwaiters, List.nodup_cons] at hnodup
      obtain ⟨c, hc, hwait⟩ := hq.waiting w (by simp [hwaiters])
      have hmodify : s.callers.modify w resumed = s.callers.set w (resumed c) := by
        rw [List.modify_eq_set_getElem?, hc]
        rfl
      refine ⟨⟨hnodup.2, fun v hv => ?_⟩, ?_, rfl⟩
      · rw [hmodify]
        exact hq.getElem?_set (by simp [hwaiters, hv]) fun h => hnodup.1 (h ▸ hv)
      · have hsum := Runs.sum_map_set Caller.permits s.callers w c (resumed c) hc
        rw [permits_resumed hwait] at hsum
        simp only [permits, hmodify]
        omega
  · cases hs

theorem kept_waitAll (hq : s.Queued) (hs : step s .waitAll = some s') : Kept s s' := by
  rw [step] at hs
  split at hs <;> cases hs
  · exact ⟨⟨hq.nodup, fun w hw => hq.getElem?_append hw _⟩, by simp [permits, Caller.permits], rfl⟩
  · exact ⟨⟨hq.nodup, fun w hw => hq.getElem?_append hw _⟩, by simp [permits, Caller.permits], rfl⟩

theorem kept_drain (hq : s.Queued) (hs : step s (.drain i) = some s') : Kept s s' := by
  rw [step] at hs
  split at hs
  · rename_i n hc
    have hi := hq.not_mem hc rfl
    have hother : ∀ c' : Caller, ∀ w ∈ s.sem.waiters,
        ∃ d, (s.callers.set i c')[w]? = some d ∧ d.isWaiting = true :=
      fun c' w hw => hq.getElem?_set hw fun h => hi (h ▸ hw)
    have hsum := fun c' => Runs.sum_map_set Caller.permits s.callers i (.draining n) c' hc
    split at hs
    · by_cases hpos : 0 < s.sem.concurrency
      · rw [FiberSemaphore.wait_of_pos hpos] at hs
        cases hs
        refine ⟨⟨hq.nodup, hother _⟩, ?_, rfl⟩
        have hnext := hsum (.draining (n + 1))
        simp only [permits, Caller.permits] at hnext ⊢
        omega
      · have hzero : s.sem.concurrency = 0 := Nat.eq_zero_of_not_pos hpos
        rw [FiberSemaphore.wait_of_zero hzero] at hs
        cases hs
        refine ⟨⟨?_, ?_⟩, ?_, rfl⟩
        · simpa [List.nodup_append] using ⟨hq.nodup, fun w hw h => hi (h ▸ hw)⟩
        · intro w hw
          rw [List.mem_append, List.mem_singleton] at hw
          cases hw with
          | inl hw => exact hother _ w hw
          | inr hw =>
            obtain ⟨hlt, -⟩ := List.getElem?_eq_some_iff.mp hc
            exact ⟨.drainWaiting n, by simp [hw, hlt], rfl⟩
        · have hnext := hsum (.drainWaiting n)
          simp only [permits, Caller.permits] at hnext ⊢
          omega
    · cases hs
      refine ⟨⟨hq.nodup, hother _⟩, ?_, rfl⟩
      have hnext := hsum (.drained n)
      simp only [permits, Caller.permits] at hnext ⊢
      omega
  · cases hs

/-- Permits are handed on, never made or lost. -/
theorem kept_step {a : Label} (hq : s.Queued) (hs : step s a = some s') : Kept s s' := by
  cases a with
  | schedule => exact kept_schedule hq hs
  | push i => exact kept_push hq hs
  | doWork k => exact kept_doWork hq hs
  | waitAll => exact kept_waitAll hq hs
  | drain i => exact kept_drain hq hs

end Permits

/-! ## What the group starts with -/

section Start

open Runs

/-- The group with the permits that `count` says. -/
def withCount (batchSize count : Nat) : WorkerGroup :=
  { create batchSize with sem := { concurrency := count, waiters := [] } }

variable {b count : Nat} {t : List (Label × WorkerGroup)}

theorem outstanding_le_permits (s : WorkerGroup) : s.sem.concurrency + s.outstanding ≤ s.permits := by
  have hgranted : s.callers.count .granted ≤ (s.callers.map Caller.permits).sum := by
    induction s.callers with
    | nil => exact Nat.le_refl 0
    | cons c l ih =>
      rw [List.count_cons, List.map_cons, List.sum_cons]
      cases c <;> simp [Caller.permits] <;> omega
  rw [outstanding, permits]
  omega

/-- In every run the permits stay those that the group started with. -/
theorem run_permits (run : Run (fun s a s' => step s a = some s') (withCount b count) t) :
    Always (fun s => s.permits = count ∧ s.batchSize = b) (withCount b count) t := by
  have h := always_of_step
    (I := fun s => s.Queued ∧ s.permits = count ∧ s.batchSize = b) ?_ run ?_
  · exact h.mono fun s hs => hs.2
  · rintro s a s' ⟨hq, hpermits, hb⟩ hs
    have hkept := kept_step hq hs
    exact ⟨hkept.queued, hkept.permits_eq.trans hpermits, hkept.batchSize_eq.trans hb⟩
  · exact ⟨⟨List.nodup_nil, by simp [withCount]⟩, rfl, rfl⟩

/-- A caller that holds no permit does not go on to the scheduler. -/
theorem tasks_step {s s' : WorkerGroup} {a : Label} (hp : s.permits = 0) (ht : s.tasks = [])
    (hs : step s a = some s') : s'.tasks = [] := by
  have hgranted : s.callers.count .granted = 0 := by
    have hle := outstanding_le_permits s
    rw [outstanding] at hle
    omega
  cases a with
  | schedule =>
    rw [step] at hs
    split at hs <;> cases hs <;> exact ht
  | push i =>
    rw [step] at hs
    split at hs
    · rename_i hc
      exact absurd (List.mem_of_getElem? hc) (List.count_eq_zero.mp hgranted)
    · cases hs
  | doWork k => simp [step, ht] at hs
  | waitAll =>
    rw [step] at hs
    split at hs <;> cases hs <;> exact ht
  | drain i =>
    rw [step] at hs
    split at hs
    · split at hs
      · split at hs <;> cases hs <;> exact ht
      · cases hs
        exact ht
    · cases hs

/-- With the count that the constructor leaves in `m_sem`, the permits are never those of the batch,
and every caller of `schedule` waits for good. -/
theorem run_not_bounded (hb : 0 < b)
    (run : Run (fun s a s' => step s a = some s') (create b) t) :
    Always (fun s => s.sem.concurrency + s.outstanding ≠ s.batchSize ∧ s.tasks = [] ∧
      .granted ∉ s.callers) (create b) t := by
  have h := always_of_step
    (I := fun s => s.Queued ∧ s.permits = 0 ∧ s.batchSize = b ∧ s.tasks = []) ?_ run ?_
  · apply h.mono
    rintro s ⟨-, hpermits, hbatch, htasks⟩
    have hle := outstanding_le_permits s
    rw [outstanding] at hle ⊢
    exact ⟨by omega, htasks, List.count_eq_zero.mp (by omega)⟩
  · rintro s a s' ⟨hq, hpermits, hbatch, htasks⟩ hs
    have hkept := kept_step hq hs
    exact ⟨hkept.queued, hkept.permits_eq.trans hpermits, hkept.batchSize_eq.trans hbatch,
      tasks_step hpermits htasks hs⟩
  · exact ⟨⟨List.nodup_nil, by simp [create]⟩, rfl, rfl, rfl⟩

/-- A batch of one, no task, and the first call of `schedule` waits. -/
theorem run_first_schedule_waits :
    ∃ t, Run (fun s a s' => step s a = some s') (create 1) t ∧
      (Runs.last (create 1) t).callers = [.waiting] ∧
      ¬Always (fun s => s.sem.concurrency + s.outstanding = s.batchSize) (create 1) t := by
  refine ⟨_, .cons (a := .schedule) rfl (.nil _), rfl, ?_⟩
  intro h
  have hlast := h.last
  revert hlast
  decide

/-- Two callers and a `waitAll` on a batch of two. -/
theorem run_not_bounded_two :
    ∃ t, Run (fun s a s' => step s a = some s') (create 2) t ∧
      (Runs.last (create 2) t).callers = [.waiting, .drainWaiting 0, .waiting] ∧
      Always (fun s => s.sem.concurrency + s.outstanding ≠ s.batchSize ∧ s.tasks = [] ∧
        .granted ∉ s.callers) (create 2) t := by
  have run : Run (fun s a s' => step s a = some s') (create 2) _ :=
    .cons (a := .schedule) rfl (.cons (a := .waitAll) rfl (.cons (a := .drain 1) rfl
      (.cons (a := .schedule) rfl (.nil _))))
  exact ⟨_, run, rfl, run_not_bounded (by decide) run⟩

end Start

end WorkerGroup

end CxkFramework
