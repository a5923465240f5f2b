import CxkFramework.FiberSemaphore
import CxkFramework.Runs
import Mathlib.Tactic

/-!
# The send queue of an asynchronous stream

`AsyncSocketStream::enqueue` by any number of threads against the loop of `doWrite`, on a stream
that stays connected. `enqueue` tests and pushes with `m_mutex`, `doWrite` swaps with
`m_queueMutex`, so a swap may come between the test and the push. Then the thread that found
the queue not empty pushes into an empty one and tells nobody. Without such swaps a writer
that is blocked with something in the queue is about to be told; and in all runs the contexts are
sent once and in the order of their pushes.
-/

namespace CxkFramework

namespace SendQueue

/-- Where a thread is in `enqueue`. -/
inductive Place (κ : Type) where
  | out
  /-- it has `m_mutex` and knows whether the queue was empty -/
  | tested (ctx : κ) (empty : Bool)
  /-- past `lock.unlock()`, with `m_sem.notify()` next -/
  | notifying
  deriving DecidableEq, Repr

/-- Where `doWrite` is. -/
inductive Writer (κ : Type) where
  | waiting
  /-- in the `YieldToHold` of `m_sem.wait()` -/
  | blocked
  /-- past `m_sem.wait()` -/
  | taking
  | sending (ctxs : List κ)
  deriving DecidableEq, Repr

end SendQueue

open SendQueue

structure SendQueue (τ κ : Type) where
  queue : List κ
  sem : FiberSemaphore Unit
  /-- who has `m_mutex` -/
  mutex : Option τ
  place : τ → Place κ
  writer : Writer κ
  /-- what was pushed so far -/
  pushed : List κ
  /-- what was given to `doSend` so far -/
  sent : List κ

namespace SendQueue

open Runs

variable {τ κ : Type} [DecidableEq τ]

/-- A new stream; the semaphore may have something left of an earlier connection. -/
def init (concurrency : Nat) : SendQueue τ κ where
  queue := []
  sem := ⟨concurrency, []⟩
  mutex := none
  place _ := .out
  writer := .waiting
  pushed := []
  sent := []

/-- The fiber of `doWrite` was scheduled. -/
def Writer.wake : Writer κ → Writer κ
  | .blocked => .taking
  | w => w

/-- What `doWrite` has taken out and not sent yet. -/
def Writer.taken : Writer κ → List κ
  | .sending ctxs => ctxs
  | _ => []

inductive Op (τ κ : Type) where
  | test (t : τ) (ctx : κ)
  | push (t : τ)
  | notify (t : τ)
  | wait
  | swap
  /-- `doSend` returns true, or the loop over the contexts ends -/
  | send
  deriving DecidableEq, Repr

/-- Why a step has no result. -/
inductive Halt where
  /-- the thread or the writer is elsewhere -/
  | disabled
  deriving DecidableEq, Repr

def step (s : SendQueue τ κ) : Op τ κ → Except Halt (SendQueue τ κ)
  | .test t ctx =>
    match s.place t, s.mutex with
    | .out, none =>
      .ok { s with
        place := Function.update s.place t (.tested ctx s.queue.isEmpty)
        mutex := some t }
    | _, _ => .error .disabled
  | .push t =>
    match s.place t with
    | .tested ctx empty =>
      .ok { s with
        place := Function.update s.place t (if empty then .notifying else .out)
        queue := s.queue ++ [ctx]
        pushed := s.pushed ++ [ctx]
        mutex := none }
    | _ => .error .disabled
  | .notify t =>
    match s.place t with
    | .notifying =>
      .ok { s with
        place := Function.update s.place t .out
        sem := s.sem.notify.2
        writer := if s.sem.notify.1.isSome then s.writer.wake else s.writer }
    | _ => .error .disabled
  | .wait =>
    match s.writer with
    | .waiting =>
      .ok { s with
        sem := (s.sem.wait ()).2
        writer := if (s.sem.wait ()).1 then .taking else .blocked }
    | _ => .error .disabled
  | .swap =>
    match s.writer with
    | .taking => .ok { s with queue := [], writer := .sending s.queue }
    | _ => .error .disabled
  | .send =>
    match s.writer with
    | .sending (ctx :: rest) => .ok { s with writer := .sending rest, sent := s.sent ++ [ctx] }
    | .sending [] => .ok { s with writer := .waiting }
    | _ => .error .disabled

def Step (s : SendQueue τ κ) (op : Op τ κ) (s' : SendQueue τ κ) : Prop := s.step op = .ok s'

/-! ## What is not stranded -/

/-- A writer that is blocked with something in the queue can go on or is about to be told. -/
def Told (s : SendQueue τ κ) : Prop :=
  s.writer = .blocked → s.queue ≠ [] → 0 < s.sem.concurrency ∨ ∃ t, s.place t = .notifying

/-- Every push is sent once at most, in the order of the pushes. -/
def InOrder (s : SendQueue τ κ) : Prop := s.sent ++ s.writer.taken ++ s.queue = s.pushed

/-- No swap comes between a test that finds the queue not empty and the push that follows. -/
def Undisturbed (s : SendQueue τ κ) : Op τ κ → Prop
  | .swap => ∀ t ctx, s.place t ≠ .tested ctx false
  | _ => True

/-- Somebody is on the way to the contexts in the queue. -/
def Awake (s : SendQueue τ κ) : Prop :=
  s.writer = .taking ∨ 0 < s.sem.concurrency ∨ ∃ t, s.place t = .notifying

structure Inv (s : SendQueue τ κ) : Prop where
  /-- only the writer waits, and only when there is nothing to have -/
  waiters : s.sem.waiters = [] ∨ s.sem.waiters = [()] ∧ s.writer = .blocked
  awake : s.queue ≠ [] → Awake s
  tested : ∀ t ctx, s.place t = .tested ctx false → s.queue ≠ []

section Steps

variable {s s' : SendQueue τ κ} {op : Op τ κ}

theorem inOrder_step (hs : InOrder s) (h : Step s op s') : InOrder s' := by
  rw [InOrder] at hs
  cases op with
  | test t ctx =>
    rw [Step, step] at h
    split at h
    · cases h
      exact hs
    · cases h
  | push t =>
    rw [Step, step] at h
    split at h
    · next ctx empty _ =>
      cases h
      change s.sent ++ s.writer.taken ++ (s.queue ++ [ctx]) = s.pushed ++ [ctx]
      rw [← List.append_assoc, hs]
    · cases h
  | notify t =>
    rw [Step, step] at h
    split at h
    · cases h
      have hwake : s.writer.wake.taken = s.writer.taken := by cases s.writer <;> rfl
      rw [InOrder]
      dsimp only
      split
      · rw [hwake, hs]
      · exact hs
    · cases h
  | wait =>
    rw [Step, step] at h
    split at h
    · next hw =>
      cases h
      rw [hw] at hs
      rw [InOrder]
      dsimp only
      split
      · exact hs
      · exact hs
    · cases h
  | swap =>
    rw [Step, step] at h
    split at h
    · next hw =>
      cases h
      rw [hw] at hs
      simpa [InOrder, Writer.taken] using hs
    · cases h
  | send =>
    rw [Step, step] at h
    split at h
    · next ctx rest hw =>
      cases h
      rw [hw] at hs
      simpa [InOrder, Writer.taken] using hs
    · next hw =>
      cases h
      rw [hw] at hs
      exact hs
    · cases h

omit [DecidableEq τ] in
theorem Inv.told (hs : Inv s) : Told s := by
  intro hblocked hqueue
  rcases hs.awake hqueue with htaking | hsome
  · rw [hblocked] at htaking
    cases htaking
  · exact hsome

omit [DecidableEq τ] in
theorem Inv.waiters_nil (hs : Inv s) (hw : s.writer ≠ .blocked) : s.sem.waiters = [] := by
  rcases hs.waiters with hnil | ⟨-, hblocked⟩
  · exact hnil
  · exact absurd hblocked hw

omit [DecidableEq τ] in
theorem inv_init (concurrency : Nat) : Inv (init concurrency : SendQueue τ κ) where
  waiters := .inl rfl
  awake h := absurd rfl h
  tested _ _ h := nomatch h

/-- A thread that knows a queue not to be empty leaves the others as they are. -/
theorem inv_test {t : τ} {ctx : κ} (hs : Inv s) (h : Step s (.test t ctx) s') : Inv s' := by
  rw [Step, step] at h
  split at h
  · next hout _ =>
    cases h
    refine ⟨hs.waiters, fun hqueue => ?_, fun u ctx' hu => ?_⟩
    · rcases hs.awake hqueue with htaking | hcount | ⟨u, hu⟩
      · exact .inl htaking
      · exact .inr (.inl hcount)
      · have hne : u ≠ t := by
          rintro rfl
          rw [hout] at hu
          cases hu
        exact .inr (.inr ⟨u, (Function.update_of_ne hne _ _).trans hu⟩)
    · by_cases hut : u = t
      · subst hut
        simp only [Function.update_self, Place.tested.injEq] at hu
        exact List.isEmpty_eq_false_iff.mp hu.2
      · simp only [Function.update_of_ne hut] at hu
        exact hs.tested u ctx' hu
  · cases h

theorem inv_push {t : τ} (hs : Inv s) (h : Step s (.push t) s') : Inv s' := by
  rw [Step, step] at h
  split at h
  · next ctx empty htested =>
    cases h
    refine ⟨hs.waiters, fun _ => ?_, fun _ _ _ => by simp⟩
    cases empty with
    | true => exact .inr (.inr ⟨t, Function.update_self ..⟩)
    | false =>
      -- the queue was not empty before, so that somebody was on the way already
      rcases hs.awake (hs.tested t ctx htested) with htaking | hcount | ⟨u, hu⟩
      · exact .inl htaking
      · exact .inr (.inl hcount)
      · have hne : u ≠ t := by
          rintro rfl
          rw [htested] at hu
          cases hu
        exact .inr (.inr ⟨u, (Function.update_of_ne hne _ _).trans hu⟩)
  · cases h

theorem inv_notify {t : τ} (hs : Inv s) (h : Step s (.notify t) s') : Inv s' := by
  rw [Step, step] at h
  split at h
  · cases h
    have htested : ∀ u ctx, Function.update s.place t Place.out u = .tested ctx false →
        s.queue ≠ [] := by
      intro u ctx hu
      by_cases hut : u = t
      · subst hut
        rw [Function.update_self] at hu
        cases hu
      · rw [Function.update_of_ne hut] at hu
        exact hs.tested u ctx hu
    rcases hs.waiters with hnil | ⟨hcons, hblocked⟩
    · rw [FiberSemaphore.notify_nil hnil]
      exact ⟨.inl hnil, fun _ => .inr (.inl (Nat.succ_pos _)), htested⟩
    · rw [FiberSemaphore.notify_cons hcons, hblocked]
      exact ⟨.inl rfl, fun _ => .inl rfl, htested⟩
  · cases h

theorem inv_wait (hs : Inv s) (h : Step s .wait s') : Inv s' := by
  rw [Step, step] at h
  split at h
  · next hw =>
    cases h
    have hnil : s.sem.waiters = [] := hs.waiters_nil (by rw [hw]; exact nofun)
    rcases Nat.eq_zero_or_pos s.sem.concurrency with hzero | hpos
    · rw [FiberSemaphore.wait_of_zero hzero]
      refine ⟨.inr ⟨by rw [hnil]; rfl, rfl⟩, fun hqueue => ?_, hs.tested⟩
      rcases hs.awake hqueue with htaking | hcount | hsome
      · rw [hw] at htaking
        cases htaking
      · exact absurd hcount (by omega)
      · exact .inr (.inr hsome)
    · rw [FiberSemaphore.wait_of_pos hpos]
      exact ⟨.inl hnil, fun _ => .inl rfl, hs.tested⟩
  · cases h

theorem inv_swap (hs : Inv s) (hok : Undisturbed s .swap) (h : Step s .swap s') : Inv s' := by
  rw [Step, step] at h
  split at h
  · next hw =>
    cases h
    exact ⟨.inl (hs.waiters_nil (by rw [hw]; exact nofun)), fun hqueue => absurd rfl hqueue,
      fun t ctx ht => absurd ht (hok t ctx)⟩
  · cases h

theorem inv_send (hs : Inv s) (h : Step s .send s') : Inv s' := by
  have hgone : ∀ ctxs, s.writer = .sending ctxs → s.sem.waiters = [] ∧ (s.queue ≠ [] →
      0 < s.sem.concurrency ∨ ∃ t, s.place t = .notifying) := by
    intro ctxs hw
    refine ⟨hs.waiters_nil (by rw [hw]; exact nofun), fun hqueue => ?_⟩
    rcases hs.awake hqueue with htaking | hsome
    · rw [hw] at htaking
      cases htaking
    · exact hsome
  rw [Step, step] at h
  split at h
  · next ctx rest hw =>
    cases h
    obtain ⟨hnil, hawake⟩ := hgone _ hw
    exact ⟨.inl hnil, fun hqueue => .inr (hawake hqueue), hs.tested⟩
  · next hw =>
    cases h
    obtain ⟨hnil, hawake⟩ := hgone _ hw
    exact ⟨.inl hnil, fun hqueue => .inr (hawake hqueue), hs.tested⟩
  · cases h

theorem step_inv (hs : Inv s) (hok : Undisturbed s op) (h : Step s op s') : Inv s' := by
  cases op with
  | test t ctx => exact inv_test hs h
  | push t => exact inv_push hs h
  | notify t => exact inv_notify hs h
  | wait => exact inv_wait hs h
  | swap => exact inv_swap hs hok h
  | send => exact inv_send hs h

end Steps

/-- The order is kept in every run. -/
theorem run_inOrder (concurrency : Nat) (t : List (Op τ κ × SendQueue τ κ))
    (run : Run Step (init concurrency) t) : Always InOrder (init concurrency) t :=
  always_of_step (fun _ _ _ hs h => inOrder_step hs h) run rfl

/-- In every run in which no swap comes between a test and its push, no context is left in the
queue of a blocked writer; and the contexts are sent once at most and in order. -/
theorem run_told (concurrency : Nat) (t : List (Op τ κ × SendQueue τ κ))
    (run : Run Step (init concurrency) t) (hok : Meets Undisturbed (init concurrency) t) :
    Always (fun s => Told s ∧ InOrder s) (init concurrency) t := by
  have htold := always_of_meets (I := Inv) (fun _ _ _ hs hok h => step_inv hs hok h) run
    (inv_init concurrency) hok
  have horder := run_inOrder concurrency t run
  exact ⟨⟨htold.1.told, horder.1⟩, fun p hp => ⟨(htold.2 p hp).told, horder.2 p hp⟩⟩

/-- Two threads push while the writer sleeps, and are sent together. -/
theorem run_told_two_threads : ∃ t, Run Step (init 0 : SendQueue Bool Nat) t ∧
    (last (init 0) t).sent = [1, 2] ∧ Always (fun s => Told s ∧ InOrder s) (init 0) t := by
  have run := run_of_trace (f := step) (s := (init 0 : SendQueue Bool Nat))
    [.wait, .test false 1, .push false, .test true 2, .push true, .notify false, .swap, .send,
      .send, .send, .wait] rfl
  refine ⟨_, run, rfl, run_told 0 _ run ?_⟩
  refine ⟨trivial, trivial, trivial, trivial, trivial, trivial, fun t ctx => ?_, trivial, trivial,
    trivial, trivial, trivial⟩
  cases t <;> exact nofun

/-- The second thread finds the queue not empty, the writer swaps, and the push that follows is
told to nobody. -/
theorem run_swap_breaks_told : ∃ t, Run Step (init 0 : SendQueue Bool Nat) t ∧
    ¬Always Told (init 0) t := by
  have run := run_of_trace (f := step) (s := (init 0 : SendQueue Bool Nat))
    [.test false 1, .push false, .notify false, .wait, .test true 2, .swap, .push true, .send, .send,
      .wait] rfl
  refine ⟨_, run, fun h => ?_⟩
  have hlast := h.last rfl nofun
  rcases hlast with hcount | ⟨t, ht⟩
  · exact absurd hcount (by decide)
  · cases t <;> cases ht

end SendQueue

end CxkFramework
