import CxkFramework.SchedulerSteps
import CxkFramework.FiberSemaphore
import CxkFramework.IoManager

/-!
# Who keeps a fiber alive

The scheduler with everything that has a shared pointer to a fiber: the queue, the threads, the
waiters of the semaphores, the events of the IO manager, variables of the program, and the fiber
itself, since `MainFunc` has `cur` on the stack until the callback has ended. The callback of a
timer that has expired comes into the queue like any other.
-/

namespace CxkFramework

open Scheduler Runs

/-- What is on the stack of a fiber. -/
inductive FiberLifetime.Stack where
  /-- `MainFunc` has not started since the constructor or the last `reset` -/
  | fresh
  /-- the callback runs or is suspended -/
  | running
  /-- the callback has ended, `cur` is still there -/
  | ended
  /-- behind `cur.reset()` -/
  | left
  deriving DecidableEq, Repr

structure FiberLifetime (τ : Type) where
  sched : Scheduler τ
  stack : Fiber τ → FiberLifetime.Stack
  /-- shared pointers in variables of the program -/
  ptrs : List (Fiber τ)
  sems : List (FiberSemaphore (Fiber τ))
  io : IOManager

namespace FiberLifetime

variable {τ : Type} [DecidableEq τ]

/-- Any number of semaphores with any counts. -/
def init (counts : List Nat) (tickleFd : Nat) : FiberLifetime τ where
  sched := Scheduler.init
  stack _ := .fresh
  ptrs := []
  sems := counts.map fun n => ⟨n, []⟩
  io := .init tickleFd

def setStack (s : FiberLifetime τ) (f : Fiber τ) (x : Stack) : FiberLifetime τ :=
  { s with stack := Function.update s.stack f x }

/-- A step of the scheduler. -/
def lift (s : FiberLifetime τ) (r : Except Halt (Scheduler τ)) : Except Halt (FiberLifetime τ) :=
  match r with
  | .ok sched => .ok { s with sched := sched }
  | .error h => .error h

/-- `schedule`. -/
def push (s : FiberLifetime τ) (ft : FiberAndThread τ) : Except Halt (FiberLifetime τ) :=
  s.lift (s.sched.schedule ft)

/-- What the IO manager has scheduled comes into the queue. -/
def pushTasks : List IOManager.Task → FiberLifetime τ → Except Halt (FiberLifetime τ)
  | [], s => .ok s
  | .fiber id :: tasks, s => do
    let s ← s.push { fiber := some (.made id) }
    pushTasks tasks s
  | .cb cb :: tasks, s => do
    let s ← s.push { cb := some cb }
    pushTasks tasks s

def events (s : FiberLifetime τ) (op : IOManager.Op) : Except Halt (FiberLifetime τ) :=
  match s.io.step op with
  | .error _ => .error .assertion
  | .ok io =>
    pushTasks ((io.scheduled.drop s.io.scheduled.length).map (·.2)) { s with io := io }

inductive Op (τ : Type) where
  /-- `Fiber::ptr f(new Fiber(..))` -/
  | newFiber
  /-- `Fiber::GetThis()` into a variable, by the fiber that runs on the thread -/
  | getThis (t : τ)
  | drop (i : Nat)
  | schedule (i : Nat) (thread : Option τ)
  | scheduleCb (cb : Nat) (thread : Option τ)
  /-- `FiberSemaphore::wait` up to its `YieldToHold`, by the fiber that runs on the thread -/
  | wait (t : τ) (i : Nat)
  | notify (i : Nat)
  | addEvent (t : τ) (fd : Nat) (events : IOManager.Event) (cb : Option Nat) (fails : Bool)
  | delEvent (fd : Nat) (events : IOManager.Event) (fails : Bool)
  | cancelEvent (fd : Nat) (events : IOManager.Event) (fails : Bool)
  | cancelAll (fd : Nat) (fails : Bool)
  /-- the idle loop comes to a record of `epoll_wait` -/
  | ready (events : List IOManager.EpollEvent) (i : Nat) (fails : Bool)
  | take (t : τ)
  | branch (t : τ)
  | swapIn (t : τ)
  | yield (t : τ) (x : FiberState)
  /-- `cur.reset()` in `MainFunc` -/
  | release (t : τ)
  | swapOut (t : τ)
  | decrement (t : τ)
  | fixUp (t : τ)
  | requeue (t : τ)

/-- `run` decides what to do; a callback fiber that is used again is reset. -/
def branch (s : FiberLifetime τ) (t : τ) : Except Halt (FiberLifetime τ) :=
  match s.sched.branch t with
  | .error h => .error h
  | .ok sched =>
    match sched.place t with
    | .entering f .cb => .ok ({ s with sched := sched }.setStack f .fresh)
    | _ => .ok { s with sched := sched }

/-- `swapIn` starts `MainFunc`, or goes on behind the `swapOut`; `MainFunc` must not return. -/
def swapIn (s : FiberLifetime τ) (t : τ) : Except Halt (FiberLifetime τ) :=
  match s.sched.place t with
  | .entering f _ =>
    match s.stack f with
    | .fresh => (s.setStack f .running).lift (s.sched.swapIn t)
    | .running => s.lift (s.sched.swapIn t)
    | _ => .error .assertion
  | _ => .error .disabled

def yield (s : FiberLifetime τ) (t : τ) (x : FiberState) : Except Halt (FiberLifetime τ) :=
  match s.sched.place t with
  | .inside f _ =>
    if finished x then (s.setStack f .ended).lift (s.sched.yield t x)
    else s.lift (s.sched.yield t x)
  | _ => .error .disabled

def release (s : FiberLifetime τ) (t : τ) : Except Halt (FiberLifetime τ) :=
  match s.sched.place t with
  | .leaving f _ => if s.stack f = .ended then .ok (s.setStack f .left) else .error .disabled
  | _ => .error .disabled

def swapOut (s : FiberLifetime τ) (t : τ) : Except Halt (FiberLifetime τ) :=
  match s.sched.place t with
  | .leaving f _ => if s.stack f = .ended then .error .disabled else s.lift (s.sched.swapOut t)
  | _ => s.lift (s.sched.swapOut t)

/-- The fix-up of the state word; a callback fiber that has ended is reset. -/
def fixUp (s : FiberLifetime τ) (t : τ) : Except Halt (FiberLifetime τ) :=
  match s.sched.place t with
  | .fixing f .cb =>
    if finished (s.sched.state f) then (s.setStack f .fresh).lift (s.sched.fixUp t)
    else s.lift (s.sched.fixUp t)
  | _ => s.lift (s.sched.fixUp t)

def step (s : FiberLifetime τ) : Op τ → Except Halt (FiberLifetime τ)
  | .newFiber =>
    .ok { s with
      sched := { s.sched with fiberId := s.sched.fiberId + 1 }
      ptrs := s.ptrs ++ [.made s.sched.fiberId] }
  | .getThis t =>
    match s.sched.place t with
    | .inside f _ => .ok { s with ptrs := s.ptrs ++ [f] }
    | _ => .error .disabled
  | .drop i =>
    if i < s.ptrs.length then .ok { s with ptrs := s.ptrs.eraseIdx i } else .error .disabled
  | .schedule i thread =>
    match s.ptrs[i]? with
    | some f => s.push { fiber := some f, thread := thread }
    | none => .error .disabled
  | .scheduleCb cb thread => s.push { cb := some cb, thread := thread }
  | .wait t i =>
    match s.sched.place t, s.sems[i]? with
    | .inside f _, some sem => .ok { s with sems := s.sems.set i (sem.wait f).2 }
    | _, _ => .error .disabled
  | .notify i =>
    match s.sems[i]? with
    | some sem =>
      match sem.notify with
      | (some f, sem) => { s with sems := s.sems.set i sem }.push { fiber := some f }
      | (none, sem) => .ok { s with sems := s.sems.set i sem }
    | none => .error .disabled
  | .addEvent t fd events cb fails =>
    match s.sched.place t with
    | .inside (.made id) _ =>
      s.events (.addEvent fd events cb ⟨some 0, id, s.sched.state (.made id) = .EXEC⟩ fails)
    | _ => .error .disabled
  | .delEvent fd events fails => s.events (.delEvent fd events fails)
  | .cancelEvent fd events fails => s.events (.cancelEvent fd events fails)
  | .cancelAll fd fails => s.events (.cancelAll fd fails)
  | .ready events i fails => s.events (.ready events i fails)
  | .take t => s.lift (s.sched.take t)
  | .branch t => s.branch t
  | .swapIn t => s.swapIn t
  | .yield t x => s.yield t x
  | .release t => s.release t
  | .swapOut t => s.swapOut t
  | .decrement t => s.lift (s.sched.decrement t)
  | .fixUp t => s.fixUp t
  | .requeue t => s.lift (s.sched.requeue t)

/-- The fiber a thread has in its hands from `entering` on. -/
def hand : Place τ → Option (Fiber τ × Branch)
  | .entering f b | .inside f b | .leaving f b | .returned f b | .fixing f b | .requeuing f b =>
    some (f, b)
  | _ => none

/-- What the local variables of `run` point to. -/
def Keeps (s : Scheduler τ) (t : τ) (f : Fiber τ) : Prop :=
  s.place t ≠ .exited ∧
    (f = .idle t ∨ s.cbFiber t = some f ∨ (∃ b, hand (s.place t) = some (f, b)) ∨
      ∃ ft, s.place t = .taken ft ∧ ft.fiber = some f)

/-- There is a shared pointer to the fiber. -/
def Owned (s : FiberLifetime τ) (f : Fiber τ) : Prop :=
  s.stack f = .running ∨ s.stack f = .ended ∨ (∃ t, Keeps s.sched t f) ∨
    (∃ ft ∈ s.sched.fibers, ft.fiber = some f) ∨ f ∈ s.ptrs ∨ (∃ sem ∈ s.sems, f ∈ sem.waiters) ∨
    ∃ c ∈ s.io.fdContexts, ∃ id, f = .made id ∧ (c.read.fiber = some id ∨ c.write.fiber = some id)

/-- The assertion of `~Fiber` and `reset`. -/
def Settled (x : FiberState) : Prop := x = .TERM ∨ x = .INIT ∨ x = .EXCEPT

/-- A fiber that nobody has a pointer to may be destroyed, and what `run` resets may be reset. -/
structure Sound (s : FiberLifetime τ) : Prop where
  destroyed : ∀ f, ¬Owned s f → Settled (s.sched.state f)
  reset : ∀ t, s.sched.branch t ≠ .error .assertion

/-- A thread enters a fiber that it took from the queue only when no thread has it in its hands or
keeps it for its callbacks. -/
def Alone (s : FiberLifetime τ) : Op τ → Prop
  | .branch t => ∀ ft f, s.sched.place t = .taken ft → ft.fiber = some f →
      finished (s.sched.state f) = false →
      (∃ id, f = .made id) ∧ (∀ t', s.sched.cbFiber t' ≠ some f) ∧
        ∀ t' b, hand (s.sched.place t') ≠ some (f, b)
  | _ => True

/-! ## The invariant -/

/-- The state word agrees with the stack. -/
def Word : Stack → FiberState → Prop
  | .fresh, x => x = .INIT
  | .running, x => x = .HOLD ∨ x = .READY ∨ x = .EXEC
  | .ended, x => finished x = true
  | .left, x => finished x = true

/-- The state word where a thread has the fiber in its hands. -/
def At (state : Fiber τ → FiberState) : Place τ → Prop
  | .inside f _ => state f = .EXEC
  | .leaving f _ => state f ≠ .INIT
  | .returned f _ => state f ≠ .INIT
  | .fixing f _ => state f ≠ .INIT
  | _ => True

/-- Why a thread may have the fiber in its hands. -/
def Right (s : Scheduler τ) (t : τ) (f : Fiber τ) : Branch → Prop
  | .fiber => (∃ id < s.fiberId, f = .made id) ∧ ∀ t', s.cbFiber t' ≠ some f
  | .cb => s.cbFiber t = some f
  | .idle => f = .idle t

structure Inv (s : FiberLifetime τ) : Prop where
  fresh : ∀ id, s.sched.fiberId ≤ id →
    s.sched.state (.made id) = .INIT ∧ s.stack (.made id) = .fresh
  queued : ∀ ft ∈ s.sched.fibers, ∀ f, ft.fiber = some f → s.sched.known f = true
  taken : ∀ t ft, s.sched.place t = .taken ft → ∀ f, ft.fiber = some f → s.sched.known f = true
  word : ∀ f, Word (s.stack f) (s.sched.state f)
  at_place : ∀ t, At s.sched.state (s.sched.place t)
  right : ∀ t f b, hand (s.sched.place t) = some (f, b) → Right s.sched t f b
  alone : ∀ t t' f b b', hand (s.sched.place t) = some (f, b) →
    hand (s.sched.place t') = some (f, b') → t = t'
  cb_made : ∀ t f, s.sched.cbFiber t = some f → ∃ id < s.sched.fiberId, f = .made id
  cb_alone : ∀ t t' f, s.sched.cbFiber t = some f → s.sched.cbFiber t' = some f → t = t'
  /-- a callback fiber that a thread keeps may be reset -/
  kept : ∀ t f, s.sched.cbFiber t = some f → (∀ b, hand (s.sched.place t) ≠ some (f, b)) →
    s.sched.state f = .INIT

/-- No other thread has anything to do with the fiber. -/
structure Mine (s : Scheduler τ) (t : τ) (f : Fiber τ) : Prop where
  hand : ∀ t', t' ≠ t → ∀ b, hand (s.place t') ≠ some (f, b)
  cb : ∀ t', t' ≠ t → s.cbFiber t' ≠ some f
  known : s.known f = true

section Inv

variable {s s' : FiberLifetime τ} {t : τ} {f : Fiber τ} {b : Branch} {p : Place τ}

theorem Inv.sound (h : Inv s) : Sound s where
  destroyed f hf := by
    have hword := h.word f
    have hrunning : s.stack f ≠ .running := fun hrun => hf (.inl hrun)
    rw [Settled]
    revert hword hrunning
    cases s.stack f <;> cases s.sched.state f <;> simp [Word, finished]
  reset t herror := by
    have hreset : ∀ ft, s.sched.place t = .taken ft → s.sched.prepareCb t ≠ .error .assertion := by
      intro ft hp herror
      rw [prepareCb] at herror
      split at herror
      · rename_i f hcb
        have hinit : s.sched.state f = .INIT := h.kept t f hcb (by simp [hp, FiberLifetime.hand])
        simp [Scheduler.reset, hinit] at herror
      · cases herror
    rw [Scheduler.branch] at herror
    split at herror
    · rename_i ft hp
      split at herror
      · cases herror
      · exact hreset ft hp herror
      · cases herror
    · split at herror <;> cases herror
    · cases herror

omit [DecidableEq τ] in
theorem Inv.mine_idle (h : Inv s) (t : τ) : Mine s.sched t (.idle t) where
  hand t' ht' b hb := by
    have hright := h.right t' _ b hb
    cases b with
    | fiber =>
      obtain ⟨⟨id, -, hid⟩, -⟩ := hright
      cases hid
    | cb =>
      obtain ⟨id, -, hid⟩ := h.cb_made _ _ hright
      cases hid
    | idle =>
      cases hright
      exact ht' rfl
  cb t' _ hcb := by
    obtain ⟨id, -, hid⟩ := h.cb_made _ _ hcb
    cases hid
  known := rfl

omit [DecidableEq τ] in
theorem Inv.mine_cb (h : Inv s) (hcb : s.sched.cbFiber t = some f) : Mine s.sched t f where
  hand t' ht' b hb := by
    have hright := h.right t' _ b hb
    cases b with
    | fiber => exact hright.2 t hcb
    | cb => exact ht' (h.cb_alone _ _ _ hright hcb)
    | idle =>
      obtain ⟨id, -, hid⟩ := h.cb_made _ _ hcb
      rw [hright] at hid
      cases hid
  cb t' ht' hcb' := ht' (h.cb_alone _ _ _ hcb' hcb)
  known := by
    obtain ⟨id, hlt, rfl⟩ := h.cb_made _ _ hcb
    exact decide_eq_true hlt

omit [DecidableEq τ] in
theorem Inv.mine_hand (h : Inv s) (hb : FiberLifetime.hand (s.sched.place t) = some (f, b)) :
    Mine s.sched t f := by
  have hright := h.right t _ b hb
  cases b with
  | fiber =>
    obtain ⟨⟨id, hlt, rfl⟩, hcb⟩ := hright
    exact ⟨fun t' ht' b' hb' => ht' (h.alone _ _ _ _ _ hb' hb), fun t' _ => hcb t',
      decide_eq_true hlt⟩
  | cb => exact h.mine_cb hright
  | idle =>
    rw [show f = .idle t from hright]
    exact h.mine_idle t

omit [DecidableEq τ] in
theorem known_mono {r r' : Scheduler τ} (hid : r.fiberId ≤ r'.fiberId) (h : r.known f = true) :
    r'.known f = true := by
  cases f with
  | idle t => rfl
  | made id =>
    simp only [known, decide_eq_true_eq] at h ⊢
    omega

omit [DecidableEq τ] in
theorem At.congr {state state' : Fiber τ → FiberState} (h : At state p)
    (hsame : ∀ g b, FiberLifetime.hand p = some (g, b) → state' g = state g) : At state' p := by
  cases p with
  | inside g b | leaving g b | returned g b | fixing g b =>
    simp only [At] at h ⊢
    rw [hsame g b rfl]
    exact h
  | _ => trivial

/-- A thread goes on to another place, and only a fiber of its own changes. -/
theorem Inv.goes (h : Inv s) (hmine : Mine s.sched t f)
    (hplace : s'.sched.place = Function.update s.sched.place t p)
    (hid : s'.sched.fiberId = s.sched.fiberId)
    (hcb_other : ∀ t', t' ≠ t → s'.sched.cbFiber t' = s.sched.cbFiber t')
    (hcb : ∀ g, s'.sched.cbFiber t = some g → s.sched.cbFiber t = some g ∨
      g = f ∧ ∃ id < s.sched.fiberId, f = .made id)
    (hqueued : ∀ ft ∈ s'.sched.fibers, ∀ g, ft.fiber = some g → s.sched.known g = true)
    (htaken : ∀ ft, p = .taken ft → ∀ g, ft.fiber = some g → s.sched.known g = true)
    (hstate : ∀ g, g ≠ f → s'.sched.state g = s.sched.state g)
    (hstack : ∀ g, g ≠ f → s'.stack g = s.stack g)
    (hword : Word (s'.stack f) (s'.sched.state f)) (hat : At s'.sched.state p)
    (hright : ∀ g b, FiberLifetime.hand p = some (g, b) →
      Right s'.sched t g b ∧
        ∀ t', t' ≠ t → ∀ b', FiberLifetime.hand (s.sched.place t') ≠ some (g, b'))
    (hkept : ∀ g, s'.sched.cbFiber t = some g → (∀ b, FiberLifetime.hand p ≠ some (g, b)) →
      s'.sched.state g = .INIT) : Inv s' := by
  have hself : s'.sched.place t = p := by rw [hplace, Function.update_self]
  have hother : ∀ t', t' ≠ t → s'.sched.place t' = s.sched.place t' := fun t' ht' => by
    rw [hplace, Function.update_of_ne ht']
  have hknown : ∀ g, s'.sched.known g = s.sched.known g := by
    intro g
    cases g with
    | idle t => rfl
    | made id => simp [known, hid]
  have hcb_of : ∀ t' g, s'.sched.cbFiber t' = some g → s.sched.cbFiber t' = some g ∨
      t' = t ∧ g = f ∧ ∃ id < s.sched.fiberId, f = .made id := by
    intro t' g hg
    by_cases ht' : t' = t
    · subst ht'
      cases hcb g hg with
      | inl hold => exact .inl hold
      | inr hnew => exact .inr ⟨rfl, hnew⟩
    · rw [hcb_other t' ht'] at hg
      exact .inl hg
  -- what the other threads have in their hands does not change
  have hstate_other : ∀ t', t' ≠ t → ∀ g b', FiberLifetime.hand (s.sched.place t') = some (g, b') →
      s'.sched.state g = s.sched.state g := by
    intro t' ht' g b' hb'
    apply hstate
    rintro rfl
    exact hmine.hand t' ht' b' hb'
  constructor
  case fresh =>
    intro id hle
    rw [hid] at hle
    have hne : Fiber.made id ≠ f := by
      rintro rfl
      have hlt := hmine.known
      simp only [known, decide_eq_true_eq] at hlt
      omega
    rw [hstate _ hne, hstack _ hne]
    exact h.fresh id hle
  case queued =>
    intro ft hft g hg
    rw [hknown]
    exact hqueued ft hft g hg
  case taken =>
    intro t' ft hp g hg
    rw [hknown]
    by_cases ht' : t' = t
    · subst ht'
      rw [hself] at hp
      exact htaken ft hp g hg
    · rw [hother t' ht'] at hp
      exact h.taken t' ft hp g hg
  case word =>
    intro g
    by_cases hg : g = f
    · rw [hg]
      exact hword
    · rw [hstate g hg, hstack g hg]
      exact h.word g
  case at_place =>
    intro t'
    by_cases ht' : t' = t
    · subst ht'
      rw [hself]
      exact hat
    · rw [hother t' ht']
      exact (h.at_place t').congr (hstate_other t' ht')
  case right =>
    intro t' g b' hb'
    by_cases ht' : t' = t
    · subst ht'
      rw [hself] at hb'
      exact (hright g b' hb').1
    · rw [hother t' ht'] at hb'
      have hold := h.right t' g b' hb'
      cases b' with
      | fiber =>
        obtain ⟨⟨id, hlt, rfl⟩, hnone⟩ := hold
        refine ⟨⟨id, by rw [hid]; exact hlt, rfl⟩, ?_⟩
        intro t'' ht''
        cases hcb_of t'' _ ht'' with
        | inl hcb' => exact hnone t'' hcb'
        | inr hnew =>
          obtain ⟨-, rfl, -⟩ := hnew
          exact hmine.hand t' ht' _ hb'
      | cb => exact (hcb_other t' ht').trans hold
      | idle => exact hold
  case alone =>
    intro t₁ t₂ g b₁ b₂ h₁ h₂
    by_cases ht₁ : t₁ = t
    · by_cases ht₂ : t₂ = t
      · rw [ht₁, ht₂]
      · rw [ht₁, hself] at h₁
        rw [hother t₂ ht₂] at h₂
        exact absurd h₂ ((hright g b₁ h₁).2 t₂ ht₂ b₂)
    · rw [hother t₁ ht₁] at h₁
      by_cases ht₂ : t₂ = t
      · rw [ht₂, hself] at h₂
        exact absurd h₁ ((hright g b₂ h₂).2 t₁ ht₁ b₁)
      · rw [hother t₂ ht₂] at h₂
        exact h.alone _ _ _ _ _ h₁ h₂
  case cb_made =>
    intro t' g hg
    rw [hid]
    cases hcb_of t' g hg with
    | inl hcb' => exact h.cb_made t' g hcb'
    | inr hnew =>
      obtain ⟨-, rfl, hmade⟩ := hnew
      exact hmade
  case cb_alone =>
    intro t₁ t₂ g h₁ h₂
    cases hcb_of t₁ g h₁ with
    | inl hcb₁ =>
      cases hcb_of t₂ g h₂ with
      | inl hcb₂ => exact h.cb_alone _ _ _ hcb₁ hcb₂
      | inr hnew =>
        obtain ⟨rfl, rfl, -⟩ := hnew
        exact Classical.byContradiction fun hne => hmine.cb t₁ hne hcb₁
    | inr hnew =>
      obtain ⟨rfl, rfl, -⟩ := hnew
      by_cases ht₂ : t₂ = t₁
      · exact ht₂.symm
      · rw [hcb_other t₂ ht₂] at h₂
        exact absurd h₂ (hmine.cb t₂ ht₂)
  case kept =>
    intro t' g hg hfree
    by_cases ht' : t' = t
    · subst ht'
      rw [hself] at hfree
      exact hkept g hg hfree
    · rw [hother t' ht'] at hfree
      rw [hcb_other t' ht'] at hg
      have hne : g ≠ f := by
        rintro rfl
        exact hmine.cb t' ht' hg
      rw [hstate g hne]
      exact h.kept t' g hg hfree

end Inv

/-! ## The steps -/

section Steps

variable {s s' : FiberLifetime τ} {t : τ} {f : Fiber τ} {ft : FiberAndThread τ}

omit [DecidableEq τ] in
theorem lift_eq_ok {r : Except Halt (Scheduler τ)} (h : s.lift r = .ok s') :
    ∃ sched, r = .ok sched ∧ s' = { s with sched := sched } := by
  cases r with
  | error e => cases h
  | ok sched =>
    cases h
    exact ⟨sched, rfl, rfl⟩

omit [DecidableEq τ] in
/-- The other holders of pointers do not matter. -/
theorem Inv.congr (h : Inv s) (hsched : s'.sched = s.sched) (hstack : s'.stack = s.stack) :
    Inv s' := by
  obtain ⟨sched, stack, ptrs, sems, io⟩ := s'
  cases hsched
  cases hstack
  exact ⟨h.fresh, h.queued, h.taken, h.word, h.at_place, h.right, h.alone, h.cb_made, h.cb_alone,
    h.kept⟩

omit [DecidableEq τ] in
theorem Right.mono {r r' : Scheduler τ} {b : Branch} (hid : r.fiberId ≤ r'.fiberId)
    (hcb : r'.cbFiber = r.cbFiber) (h : Right r t f b) : Right r' t f b := by
  cases b with
  | fiber =>
    obtain ⟨⟨id, hlt, hf⟩, hnone⟩ := h
    rw [← hcb] at hnone
    exact ⟨⟨id, by omega, hf⟩, hnone⟩
  | cb => exact (congrFun hcb t).trans h
  | idle => exact h

omit [DecidableEq τ] in
/-- There may be more fibers and more in the queue. -/
theorem Inv.grows (h : Inv s) (hstack : s'.stack = s.stack)
    (hplace : s'.sched.place = s.sched.place) (hstate : s'.sched.state = s.sched.state)
    (hcb : s'.sched.cbFiber = s.sched.cbFiber)
    (hid : s.sched.fiberId ≤ s'.sched.fiberId)
    (hqueued : ∀ ft ∈ s'.sched.fibers, ∀ g, ft.fiber = some g → s'.sched.known g = true) :
    Inv s' := by
  constructor
  case fresh =>
    intro id hle
    rw [hstate, hstack]
    exact h.fresh id (by omega)
  case queued => exact hqueued
  case taken =>
    intro t ft hp g hg
    rw [hplace] at hp
    exact known_mono hid (h.taken t ft hp g hg)
  case word =>
    rw [hstate, hstack]
    exact h.word
  case at_place =>
    rw [hstate, hplace]
    exact h.at_place
  case right =>
    intro t g b hb
    rw [hplace] at hb
    exact (h.right t g b hb).mono hid hcb
  case alone =>
    rw [hplace]
    exact h.alone
  case cb_made =>
    intro t g hg
    rw [hcb] at hg
    obtain ⟨id, hlt, hf⟩ := h.cb_made t g hg
    exact ⟨id, by omega, hf⟩
  case cb_alone =>
    rw [hcb]
    exact h.cb_alone
  case kept =>
    rw [hstate, hplace, hcb]
    exact h.kept

omit [DecidableEq τ] in
theorem Inv.scheduleNoLock (h : Inv s) (hknown : ft.fiber.all s.sched.known = true) :
    Inv { s with sched := s.sched.scheduleNoLock ft } := by
  refine h.grows rfl (scheduleNoLock_place ..) (scheduleNoLock_state ..)
    (scheduleNoLock_cbFiber ..) (scheduleNoLock_fiberId ..).ge ?_
  intro ft' hft' g hg
  apply known_mono (scheduleNoLock_fiberId ..).ge
  simp only [scheduleNoLock_fibers] at hft'
  split at hft'
  · cases List.mem_append.mp hft' with
    | inl hold => exact h.queued ft' hold g hg
    | inr hnew =>
      rw [List.mem_singleton.mp hnew] at hg
      rw [hg] at hknown
      exact hknown
  · exact h.queued ft' hft' g hg

omit [DecidableEq τ] in
theorem Inv.push (h : Inv s) (hpush : s.push ft = .ok s') : Inv s' := by
  obtain ⟨sched, hschedule, rfl⟩ := lift_eq_ok hpush
  rw [Scheduler.schedule] at hschedule
  split at hschedule
  · next hknown =>
    cases hschedule
    exact h.scheduleNoLock hknown
  · cases hschedule

omit [DecidableEq τ] in
theorem Inv.pushTasks (tasks : List IOManager.Task) (h : Inv s)
    (hpush : FiberLifetime.pushTasks tasks s = .ok s') : Inv s' := by
  induction tasks generalizing s with
  | nil =>
    cases hpush
    exact h
  | cons task tasks ih =>
    cases task with
    | fiber id =>
      obtain ⟨s₁, hfirst, hrest⟩ := bind_eq_ok.mp hpush
      exact ih (h.push hfirst) hrest
    | cb cb =>
      obtain ⟨s₁, hfirst, hrest⟩ := bind_eq_ok.mp hpush
      exact ih (h.push hfirst) hrest

omit [DecidableEq τ] in
theorem Inv.events {op : IOManager.Op} (h : Inv s) (hevents : s.events op = .ok s') : Inv s' := by
  rw [FiberLifetime.events] at hevents
  split at hevents
  · cases hevents
  · next io _ =>
    have hio : Inv { s with io := io } := h.congr rfl rfl
    exact hio.pushTasks _ hevents

/-- The thread has nothing in its hands, before and after. -/
theorem Inv.walks {p : Place τ} (h : Inv s) (hold : hand (s.sched.place t) = none)
    (hp : hand p = none) (hplace : s'.sched.place = Function.update s.sched.place t p)
    (hid : s'.sched.fiberId = s.sched.fiberId) (hcb : s'.sched.cbFiber = s.sched.cbFiber)
    (hstate : s'.sched.state = s.sched.state) (hstack : s'.stack = s.stack)
    (hqueued : ∀ ft ∈ s'.sched.fibers, ft ∈ s.sched.fibers)
    (htaken : ∀ ft, p = .taken ft → ft ∈ s.sched.fibers) : Inv s' := by
  apply h.goes (h.mine_idle t) hplace hid
  case hcb_other => simp [hcb]
  case hcb =>
    intro g hg
    rw [hcb] at hg
    exact .inl hg
  case hqueued => exact fun ft hft => h.queued ft (hqueued ft hft)
  case htaken => exact fun ft hft => h.queued ft (htaken ft hft)
  case hstate => simp [hstate]
  case hstack => simp [hstack]
  case hword =>
    rw [hstate, hstack]
    exact h.word _
  case hat => cases p <;> trivial
  case hright => simp [hp]
  case hkept =>
    intro g hg _
    rw [hcb] at hg
    rw [hstate]
    exact h.kept t g hg (by simp [hold])

/-- The thread has the same fiber in its hands, before and after. -/
theorem Inv.holds {b : Branch} {p : Place τ} (h : Inv s)
    (hold : hand (s.sched.place t) = some (f, b)) (hp : hand p = some (f, b))
    (hplace : s'.sched.place = Function.update s.sched.place t p)
    (hid : s'.sched.fiberId = s.sched.fiberId) (hcb : s'.sched.cbFiber = s.sched.cbFiber)
    (hfibers : s'.sched.fibers = s.sched.fibers)
    (hstate : ∀ g, g ≠ f → s'.sched.state g = s.sched.state g)
    (hstack : ∀ g, g ≠ f → s'.stack g = s.stack g)
    (hword : Word (s'.stack f) (s'.sched.state f)) (hat : At s'.sched.state p) : Inv s' := by
  apply h.goes (h.mine_hand hold) hplace hid
  case hcb_other => simp [hcb]
  case hcb =>
    intro g hg
    rw [hcb] at hg
    exact .inl hg
  case hqueued =>
    rw [hfibers]
    exact h.queued
  case htaken =>
    rintro ft rfl
    cases hp
  case hstate => exact hstate
  case hstack => exact hstack
  case hword => exact hword
  case hat => exact hat
  case hright =>
    intro g b' hb'
    rw [hp] at hb'
    cases hb'
    exact ⟨(h.right t f b hold).mono hid.ge hcb, (h.mine_hand hold).hand⟩
  case hkept =>
    intro g hg hfree
    rw [hcb] at hg
    have hne : g ≠ f := by
      rintro rfl
      exact hfree b hp
    rw [hstate g hne]
    apply h.kept t g hg
    intro b' hb'
    rw [hold] at hb'
    cases hb'
    exact hne rfl

/-- The thread puts down what it has in its hands and goes to the top of the loop. -/
theorem Inv.puts {b : Branch} (h : Inv s) (hold : hand (s.sched.place t) = some (f, b))
    (hplace : s'.sched.place = Function.update s.sched.place t .top)
    (hid : s'.sched.fiberId = s.sched.fiberId)
    (hcb_other : ∀ t', t' ≠ t → s'.sched.cbFiber t' = s.sched.cbFiber t')
    (hcb : ∀ g, s'.sched.cbFiber t = some g → s.sched.cbFiber t = some g)
    (hfibers : s'.sched.fibers = s.sched.fibers)
    (hstate : ∀ g, g ≠ f → s'.sched.state g = s.sched.state g)
    (hstack : ∀ g, g ≠ f → s'.stack g = s.stack g)
    (hword : Word (s'.stack f) (s'.sched.state f))
    (hkept : s'.sched.cbFiber t = some f → s'.sched.state f = .INIT) : Inv s' := by
  apply h.goes (h.mine_hand hold) hplace hid hcb_other
  case hcb => exact fun g hg => .inl (hcb g hg)
  case hqueued =>
    rw [hfibers]
    exact h.queued
  case htaken => simp
  case hstate => exact hstate
  case hstack => exact hstack
  case hword => exact hword
  case hat => trivial
  case hright => simp [hand]
  case hkept =>
    intro g hg _
    by_cases hne : g = f
    · subst hne
      exact hkept hg
    · rw [hstate g hne]
      apply h.kept t g (hcb g hg)
      intro b' hb'
      rw [hold] at hb'
      cases hb'
      exact hne rfl

theorem Inv.take (h : Inv s) (hstep : s.lift (s.sched.take t) = .ok s') : Inv s' := by
  obtain ⟨sched, htake, rfl⟩ := lift_eq_ok hstep
  cases take_move htake with
  | take t ft as bs hp heligible hfibers _ =>
    refine h.walks (t := t) (by simp [hp, hand]) (p := .taken ft) rfl rfl rfl rfl rfl rfl ?_ ?_
    · intro ft' hft'
      rw [hfibers]
      simp only [moveTo, List.mem_append, List.mem_cons] at hft' ⊢
      exact hft'.imp id .inr
    · rintro _ ⟨⟩
      simp [hfibers]
  | takeNothing t hp _ =>
    exact h.walks (t := t) (by simp [hp, hand]) (p := .nothing) rfl rfl rfl rfl rfl rfl
      (fun _ hft => hft) (fun _ hft => by cases hft)

theorem Inv.decrement (h : Inv s) (hstep : s.lift (s.sched.decrement t) = .ok s') : Inv s' := by
  obtain ⟨sched, hdecrement, rfl⟩ := lift_eq_ok hstep
  have hat := h.at_place t
  cases decrement_move hdecrement with
  | decrementIdle t f hp =>
    rw [hp] at hat
    exact h.holds (by rw [hp]; rfl) (p := .fixing f .idle) rfl rfl rfl rfl rfl (fun _ _ => rfl)
      (fun _ _ => rfl) (h.word f) hat
  | decrement t f b hp _ =>
    rw [hp] at hat
    exact h.holds (by rw [hp]; rfl) (p := .fixing f b) rfl rfl rfl rfl rfl (fun _ _ => rfl)
      (fun _ _ => rfl) (h.word f) hat

omit [DecidableEq τ] in
/-- A fiber from the queue that nobody has anything to do with. -/
theorem Inv.mine_taken (h : Inv s) (halone : Alone s (.branch t)) (hp : s.sched.place t = .taken ft)
    (hf : ft.fiber = some f) (hrunning : finished (s.sched.state f) = false) :
    Mine s.sched t f := by
  obtain ⟨-, hcb, hhand⟩ := halone ft f hp hf hrunning
  exact ⟨fun t' _ => hhand t', fun t' _ => hcb t', h.taken t ft hp f hf⟩

theorem Inv.enter (h : Inv s) (halone : Alone s (.branch t)) (hp : s.sched.place t = .taken ft)
    (hf : ft.fiber = some f) (hrunning : finished (s.sched.state f) = false) :
    Inv { s with sched := s.sched.moveTo t (.entering f .fiber) } := by
  have hmine := h.mine_taken halone hp hf hrunning
  obtain ⟨⟨id, rfl⟩, hcb, -⟩ := halone ft f hp hf hrunning
  refine h.goes hmine rfl rfl (fun _ _ => rfl) (fun _ hg => .inl hg) h.queued
    (fun _ hft => by cases hft) (fun _ _ => rfl) (fun _ _ => rfl) (h.word _) trivial ?_ ?_
  · rintro g b ⟨⟩
    exact ⟨⟨⟨id, of_decide_eq_true hmine.known, rfl⟩, hcb⟩, hmine.hand⟩
  · intro g hg _
    exact h.kept t g hg (by simp [hp, hand])

theorem Inv.reuseCb (h : Inv s) (hcb : s.sched.cbFiber t = some f) :
    Inv ({ s with
      sched := (s.sched.setState f .INIT).moveTo t (.entering f .cb) }.setStack f .fresh) := by
  have hmine := h.mine_cb hcb
  refine h.goes hmine rfl rfl (fun _ _ => rfl) (fun _ hg => .inl hg) h.queued
    (fun _ hft => by cases hft) (fun g hg => ?_) (fun g hg => ?_) ?_ trivial ?_ ?_
  · exact Function.update_of_ne hg ..
  · exact Function.update_of_ne hg ..
  · simp [setStack, moveTo, setState, Word]
  · rintro g b ⟨⟩
    exact ⟨hcb, hmine.hand⟩
  · intro g hg hfree
    rw [show s.sched.cbFiber t = some g from hg] at hcb
    cases hcb
    exact absurd rfl (hfree .cb)

omit [DecidableEq τ] in
theorem Inv.newFiber (h : Inv s) :
    Inv { s with sched := { s.sched with fiberId := s.sched.fiberId + 1 } } :=
  h.grows rfl rfl rfl rfl (Nat.le_succ _) fun ft hft g hg =>
    known_mono (Nat.le_succ _) (h.queued ft hft g hg)

omit [DecidableEq τ] in
/-- A fiber that is made now. -/
theorem Inv.mine_new (h : Inv s) :
    Mine { s.sched with fiberId := s.sched.fiberId + 1 } t (.made s.sched.fiberId) where
  hand t' _ b hb := by
    have hright := h.right t' _ b hb
    cases b with
    | fiber =>
      obtain ⟨⟨id, hlt, hid⟩, -⟩ := hright
      cases hid
      exact Nat.lt_irrefl _ hlt
    | cb =>
      obtain ⟨id, hlt, hid⟩ := h.cb_made _ _ hright
      cases hid
      exact Nat.lt_irrefl _ hlt
    | idle => cases hright
  cb t' _ hcb := by
    obtain ⟨id, hlt, hid⟩ := h.cb_made _ _ hcb
    cases hid
    exact Nat.lt_irrefl _ hlt
  known := decide_eq_true (Nat.lt_succ_self _)

theorem Inv.makeCb (h : Inv s) :
    Inv ({ s with
      sched := ({ s.sched with fiberId := s.sched.fiberId + 1 }.setCbFiber t
        (some (.made s.sched.fiberId))).moveTo t (.entering (.made s.sched.fiberId) .cb) }.setStack
          (.made s.sched.fiberId) .fresh) := by
  have hmine := h.mine_new (t := t)
  refine h.newFiber.goes hmine rfl rfl (fun t' ht' => ?_) ?_ h.newFiber.queued
    (fun _ hft => by cases hft) (fun _ _ => rfl) (fun g hg => ?_) ?_ trivial ?_ ?_
  · exact Function.update_of_ne ht' ..
  · intro g hg
    simp only [setStack, moveTo, setCbFiber, Function.update_self, Option.some.injEq] at hg
    exact .inr ⟨hg.symm, _, Nat.lt_succ_self _, rfl⟩
  · exact Function.update_of_ne hg ..
  · simp [setStack, moveTo, setCbFiber, Word, (h.fresh _ (Nat.le_refl _)).1]
  · rintro g b ⟨⟩
    exact ⟨by simp [Right, setStack, moveTo, setCbFiber], hmine.hand⟩
  · intro g hg hfree
    simp only [setStack, moveTo, setCbFiber, Function.update_self, Option.some.injEq] at hg
    subst hg
    exact absurd rfl (hfree .cb)

theorem Inv.enterIdle (h : Inv s) (hp : s.sched.place t = .nothing) :
    Inv { s with
      sched := { s.sched with
        idelThreadCount := s.sched.idelThreadCount + 1 }.moveTo t (.entering (.idle t) .idle) } := by
  have hmine := h.mine_idle t
  refine h.goes hmine rfl rfl (fun _ _ => rfl) (fun _ hg => .inl hg) h.queued
    (fun _ hft => by cases hft) (fun _ _ => rfl) (fun _ _ => rfl) (h.word _) trivial ?_ ?_
  · rintro g b ⟨⟩
    exact ⟨rfl, hmine.hand⟩
  · intro g hg _
    exact h.kept t g hg (by simp [hp, hand])

theorem Inv.branch (h : Inv s) (halone : Alone s (.branch t)) (hstep : s.branch t = .ok s') :
    Inv s' := by
  rw [FiberLifetime.branch] at hstep
  split at hstep
  · cases hstep
  · next sched hbranch =>
    cases branch_move hbranch with
    | enter t ft f hp hf hrunning =>
      simp only [moveTo, Function.update_self] at hstep
      cases hstep
      exact h.enter halone hp hf hrunning
    | reuseCb t ft f _ _ hcb =>
      simp only [moveTo, Function.update_self] at hstep
      cases hstep
      exact h.reuseCb hcb
    | makeCb t ft _ _ =>
      simp only [moveTo, Function.update_self] at hstep
      cases hstep
      exact h.makeCb
    | drop t ft hp _ =>
      simp only [moveTo, Function.update_self] at hstep
      cases hstep
      exact h.walks (t := t) (by simp [hp, hand]) (p := .top) rfl rfl rfl rfl rfl rfl
        (fun _ hft => hft) (fun _ hft => by cases hft)
    | exit t hp =>
      simp only [moveTo, Function.update_self] at hstep
      cases hstep
      exact h.walks (t := t) (by simp [hp, hand]) (p := .exited) rfl rfl rfl rfl rfl rfl
        (fun _ hft => hft) (fun _ hft => by cases hft)
    | enterIdle t hp =>
      simp only [moveTo, Function.update_self] at hstep
      cases hstep
      exact h.enterIdle hp

/-- A fiber that is entered runs on. -/
theorem Inv.enters {b : Branch} {stack : Fiber τ → Stack} (h : Inv s)
    (hp : s.sched.place t = .entering f b) (hother : ∀ g, g ≠ f → stack g = s.stack g)
    (hstack : stack f = .running) :
    Inv { s with sched := (s.sched.setState f .EXEC).moveTo t (.inside f b), stack := stack } := by
  refine h.holds (t := t) (f := f) (b := b) (by rw [hp]; rfl) (p := .inside f b) rfl rfl rfl rfl rfl
    (fun g hg => ?_) hother ?_ ?_
  · exact Function.update_of_ne hg ..
  · simp [hstack, moveTo, setState, Word]
  · simp [At, moveTo, setState]

theorem Inv.swapIn (h : Inv s) (hstep : s.swapIn t = .ok s') : Inv s' := by
  rw [FiberLifetime.swapIn] at hstep
  split at hstep
  · next f b hp =>
    split at hstep
    · next hfresh =>
      obtain ⟨sched, hswapIn, rfl⟩ := lift_eq_ok hstep
      cases swapIn_move hswapIn with
      | swapIn t f' b' hp' =>
        cases hp.symm.trans hp'
        exact h.enters hp (fun g hg => Function.update_of_ne hg ..) (Function.update_self ..)
    · next hrunning =>
      obtain ⟨sched, hswapIn, rfl⟩ := lift_eq_ok hstep
      cases swapIn_move hswapIn with
      | swapIn t f' b' hp' =>
        cases hp.symm.trans hp'
        exact h.enters hp (fun _ _ => rfl) hrunning
    · cases hstep
  · cases hstep

omit [DecidableEq τ] in
/-- The callback of a fiber that runs has not ended. -/
theorem Inv.running_of_inside {b : Branch} (h : Inv s) (hp : s.sched.place t = .inside f b) :
    s.stack f = .running := by
  have hat := h.at_place t
  rw [hp] at hat
  have hword := h.word f
  rw [show s.sched.state f = .EXEC from hat] at hword
  revert hword
  cases s.stack f <;> simp [Word, finished]

theorem Inv.yield {x : FiberState} (h : Inv s) (hstep : s.yield t x = .ok s') : Inv s' := by
  rw [FiberLifetime.yield] at hstep
  split at hstep
  · next f b hp =>
    have hrun := h.running_of_inside hp
    have hyield : ∀ sched, s.sched.yield t x = .ok sched →
        x ≠ .INIT ∧ x ≠ .EXEC ∧ sched = (s.sched.setState f x).moveTo t (.leaving f b) := by
      intro sched hsched
      simp only [Scheduler.yield, hp] at hsched
      split at hsched
      · cases hsched
      · next hx =>
        cases hsched
        exact ⟨fun h => hx (.inl h), fun h => hx (.inr h), rfl⟩
    split at hstep
    · next hended =>
      obtain ⟨sched, hsched, rfl⟩ := lift_eq_ok hstep
      obtain ⟨hinit, -, rfl⟩ := hyield sched hsched
      refine h.holds (t := t) (f := f) (b := b) (by rw [hp]; rfl) (p := .leaving f b) rfl rfl rfl
        rfl rfl (fun g hg => Function.update_of_ne hg ..) (fun g hg => Function.update_of_ne hg ..)
        ?_ ?_
      · simp [setStack, moveTo, setState, Word, hended]
      · simp [At, moveTo, setState, hinit]
    · next hended =>
      obtain ⟨sched, hsched, rfl⟩ := lift_eq_ok hstep
      obtain ⟨hinit, hexec, rfl⟩ := hyield sched hsched
      refine h.holds (t := t) (f := f) (b := b) (by rw [hp]; rfl) (p := .leaving f b) rfl rfl rfl
        rfl rfl (fun g hg => Function.update_of_ne hg ..) (fun _ _ => rfl) ?_ ?_
      · revert hinit hexec hended
        cases x <;> simp [moveTo, setState, Word, hrun, finished]
      · simp [At, moveTo, setState, hinit]
  · cases hstep

theorem Inv.release (h : Inv s) (hstep : s.release t = .ok s') : Inv s' := by
  rw [FiberLifetime.release] at hstep
  split at hstep
  · next f b hp =>
    split at hstep
    · next hended =>
      cases hstep
      have hword := h.word f
      rw [hended] at hword
      have hb : hand (s.sched.place t) = some (f, b) := by rw [hp]; rfl
      refine h.holds hb hb (Function.update_eq_self ..).symm rfl rfl rfl (fun _ _ => rfl)
        (fun g hg => Function.update_of_ne hg ..) ?_ (h.at_place t)
      simpa [setStack, Word] using hword
    · cases hstep
  · cases hstep

theorem Inv.swaps (h : Inv s) (hstep : s.lift (s.sched.swapOut t) = .ok s') : Inv s' := by
  obtain ⟨sched, hswapOut, rfl⟩ := lift_eq_ok hstep
  have hat := h.at_place t
  cases swapOut_move hswapOut with
  | swapOut t f b hp =>
    have hb : hand (s.sched.place t) = some (f, b) := by
      cases hp with
      | inl hp => rw [hp]; rfl
      | inr hp => rw [hp.1]; rfl
    refine h.holds hb (p := .returned f b) rfl rfl rfl rfl rfl (fun _ _ => rfl) (fun _ _ => rfl)
      (h.word f) ?_
    cases hp with
    | inl hp =>
      rw [hp] at hat
      exact hat
    | inr hp =>
      rw [hp.1] at hat
      simp [At, moveTo, show s.sched.state f = .EXEC from hat]

theorem Inv.swapOut (h : Inv s) (hstep : s.swapOut t = .ok s') : Inv s' := by
  rw [FiberLifetime.swapOut] at hstep
  split at hstep
  · split at hstep
    · cases hstep
    · exact h.swaps hstep
  · exact h.swaps hstep

omit [DecidableEq τ] in
/-- A thread that runs no callback does not keep the fiber for its callbacks. -/
theorem Inv.cb_ne {b : Branch} (h : Inv s) (hb : hand (s.sched.place t) = some (f, b))
    (hne : b ≠ .cb) : s.sched.cbFiber t ≠ some f := by
  have hright := h.right t f b hb
  intro hcb
  cases b with
  | fiber => exact hright.2 t hcb
  | cb => exact hne rfl
  | idle =>
    obtain ⟨id, -, hid⟩ := h.cb_made _ _ hcb
    rw [hright] at hid
    cases hid

omit [DecidableEq τ] in
/-- A fiber that has not ended where the fix-up looks at it is suspended. -/
theorem Inv.running_of_fixing {b : Branch} (h : Inv s) (hp : s.sched.place t = .fixing f b)
    (hrunning : finished (s.sched.state f) = false) : s.stack f = .running := by
  have hat := h.at_place t
  rw [hp] at hat
  have hinit : s.sched.state f ≠ .INIT := hat
  have hword := h.word f
  cases hstack : s.stack f with
  | running => rfl
  | fresh =>
    rw [hstack] at hword
    exact absurd hword hinit
  | ended =>
    rw [hstack, Word, hrunning] at hword
    cases hword
  | left =>
    rw [hstack, Word, hrunning] at hword
    cases hword

theorem Inv.fixes (h : Inv s) (hstep : s.lift (s.sched.fixUp t) = .ok s')
    (hcb : ∀ f, s.sched.place t = .fixing f .cb → finished (s.sched.state f) = false) :
    Inv s' := by
  obtain ⟨sched, hfixUp, rfl⟩ := lift_eq_ok hstep
  cases fixUp_move hfixUp with
  | ready t f b hp _ _ =>
    exact h.holds (t := t) (f := f) (b := b) (by rw [hp]; rfl) (p := .requeuing f b) rfl rfl rfl
      rfl rfl (fun _ _ => rfl) (fun _ _ => rfl) (h.word f) trivial
  | ended t f b hp hne _ =>
    have hb : hand (s.sched.place t) = some (f, b) := by rw [hp]; rfl
    exact h.puts hb rfl rfl (fun _ _ => rfl) (fun _ hg => hg) rfl (fun _ _ => rfl) (fun _ _ => rfl)
      (h.word f) fun hkept => absurd hkept (h.cb_ne hb hne)
  | endedCb t f hp hended =>
    rw [hcb f hp] at hended
    cases hended
  | hold t f b hp hne hrunning =>
    have hb : hand (s.sched.place t) = some (f, b) := by rw [hp]; rfl
    refine h.puts hb rfl rfl (fun _ _ => rfl) (fun _ hg => hg) rfl
      (fun g hg => Function.update_of_ne hg ..) (fun _ _ => rfl) ?_
      fun hkept => absurd hkept (h.cb_ne hb hne)
    simp [h.running_of_fixing hp hrunning, moveTo, setState, Word]
  | holdCb t f hp hrunning =>
    refine h.puts (t := t) (f := f) (b := .cb) (by rw [hp]; rfl) rfl rfl
      (fun t' ht' => Function.update_of_ne ht' ..) ?_ rfl
      (fun g hg => Function.update_of_ne hg ..) (fun _ _ => rfl) ?_ ?_
    · simp [moveTo, setCbFiber]
    · simp [h.running_of_fixing hp hrunning, moveTo, setState, setCbFiber, Word]
    · simp [moveTo, setCbFiber]

theorem Inv.fixUp (h : Inv s) (hstep : s.fixUp t = .ok s') : Inv s' := by
  rw [FiberLifetime.fixUp] at hstep
  split at hstep
  · next f hp =>
    split at hstep
    · next hended =>
      obtain ⟨sched, hfixUp, rfl⟩ := lift_eq_ok hstep
      have hready : s.sched.state f ≠ .READY := by
        intro hready
        rw [hready] at hended
        cases hended
      simp only [Scheduler.fixUp, hp, if_neg hready, if_pos hended] at hfixUp
      cases hfixUp
      refine h.puts (t := t) (f := f) (b := .cb) (by rw [hp]; rfl) rfl rfl (fun _ _ => rfl)
        (fun _ hg => hg) rfl (fun g hg => Function.update_of_ne hg ..)
        (fun g hg => Function.update_of_ne hg ..) ?_ ?_
      · simp [setStack, moveTo, setState, Word]
      · simp [moveTo, setState]
    · next hended =>
      apply h.fixes hstep
      intro f' hp'
      cases hp.symm.trans hp'
      simpa using hended
  · next hne => exact h.fixes hstep fun f hp => absurd hp (hne f)

/-- The thread lets go of what it has in its hands. -/
theorem Inv.letGo {b : Branch} (h : Inv s) (hp : s.sched.place t = .requeuing f b) :
    Inv { s with sched := s.sched.letGo t b } := by
  have hb : hand (s.sched.place t) = some (f, b) := by rw [hp]; rfl
  cases b with
  | fiber =>
    exact h.puts hb rfl rfl (fun _ _ => rfl) (fun _ hg => hg) rfl (fun _ _ => rfl) (fun _ _ => rfl)
      (h.word f) fun hkept => absurd hkept (h.cb_ne hb (by decide))
  | cb =>
    refine h.puts hb rfl rfl (fun t' ht' => Function.update_of_ne ht' ..) ?_ rfl (fun _ _ => rfl)
      (fun _ _ => rfl) (h.word f) ?_
    · simp [Scheduler.letGo, moveTo, setCbFiber]
    · simp [Scheduler.letGo, moveTo, setCbFiber]
  | idle =>
    exact h.puts hb rfl rfl (fun _ _ => rfl) (fun _ hg => hg) rfl (fun _ _ => rfl) (fun _ _ => rfl)
      (h.word f) fun hkept => absurd hkept (h.cb_ne hb (by decide))

theorem letGo_fiberId (r : Scheduler τ) (t : τ) (b : Branch) :
    (r.letGo t b).fiberId = r.fiberId := by cases b <;> rfl

theorem Inv.requeue (h : Inv s) (hstep : s.lift (s.sched.requeue t) = .ok s') : Inv s' := by
  obtain ⟨sched, hrequeue, rfl⟩ := lift_eq_ok hstep
  cases requeue_move hrequeue with
  | requeue t f b hp =>
    have hknown := (h.mine_hand (t := t) (f := f) (b := b) (by rw [hp]; rfl)).known
    exact (h.letGo hp).scheduleNoLock (known_mono (letGo_fiberId ..).ge hknown)

theorem inv_step {op : Op τ} (h : Inv s) (halone : Alone s op) (hstep : s.step op = .ok s') :
    Inv s' := by
  cases op with
  | newFiber =>
    cases hstep
    exact h.newFiber.congr rfl rfl
  | getThis t =>
    rw [step] at hstep
    split at hstep
    · cases hstep
      exact h.congr rfl rfl
    · cases hstep
  | drop i =>
    rw [step] at hstep
    split at hstep
    · cases hstep
      exact h.congr rfl rfl
    · cases hstep
  | schedule i thread =>
    rw [step] at hstep
    split at hstep
    · exact h.push hstep
    · cases hstep
  | scheduleCb cb thread => exact h.push hstep
  | wait t i =>
    rw [step] at hstep
    split at hstep
    · cases hstep
      exact h.congr rfl rfl
    · cases hstep
  | notify i =>
    rw [step] at hstep
    split at hstep
    · split at hstep
      · next f sem' _ =>
        have hsems : Inv { s with sems := s.sems.set i sem' } := h.congr rfl rfl
        exact hsems.push hstep
      · cases hstep
        exact h.congr rfl rfl
    · cases hstep
  | addEvent t fd events cb fails =>
    rw [step] at hstep
    split at hstep
    · exact h.events hstep
    · cases hstep
  | delEvent fd events fails => exact h.events hstep
  | cancelEvent fd events fails => exact h.events hstep
  | cancelAll fd fails => exact h.events hstep
  | ready events i fails => exact h.events hstep
  | take t => exact h.take hstep
  | branch t => exact h.branch halone hstep
  | swapIn t => exact h.swapIn hstep
  | yield t x => exact h.yield hstep
  | release t => exact h.release hstep
  | swapOut t => exact h.swapOut hstep
  | decrement t => exact h.decrement hstep
  | fixUp t => exact h.fixUp hstep
  | requeue t => exact h.requeue hstep

omit [DecidableEq τ] in
theorem inv_init (counts : List Nat) (tickleFd : Nat) :
    Inv (init counts tickleFd : FiberLifetime τ) where
  fresh _ _ := ⟨rfl, rfl⟩
  queued _ hft := nomatch hft
  taken _ _ hp := nomatch hp
  word _ := rfl
  at_place _ := trivial
  right _ _ _ hb := nomatch hb
  alone _ _ _ _ _ hb := nomatch hb
  cb_made _ _ hcb := nomatch hcb
  cb_alone _ _ _ hcb := nomatch hcb
  kept _ _ hcb := nomatch hcb

def Step (s : FiberLifetime τ) (op : Op τ) (s' : FiberLifetime τ) : Prop := s.step op = .ok s'

/-- As long as every fiber is entered only by a thread that has it for itself, no fiber is destroyed
or reset that is not finished. -/
theorem destroyed_finished {counts : List Nat} {tickleFd : Nat}
    {run : List (Op τ × FiberLifetime τ)} (hrun : Run Step (init counts tickleFd) run)
    (halone : Meets Alone (init counts tickleFd) run) : Always Sound (init counts tickleFd) run :=
  (always_of_meets (fun _ _ _ h hok hstep => inv_step h hok hstep) hrun (inv_init counts tickleFd)
    halone).mono fun _ h => h.sound

/-- One thread suspends a callback that waits for a semaphore, the other one runs it to its end. -/
theorem destroyed_finished_two_threads : ∃ run : List (Op Bool × FiberLifetime Bool),
    Run Step (init [0] 3) run ∧ (last (init [0] 3) run).sched.place true = .top ∧
      Always Sound (init [0] 3) run := by
  have hrun := run_of_trace (f := step) (s := (init [0] 3 : FiberLifetime Bool))
    [.scheduleCb 7 none, .take false, .branch false, .swapIn false,
      .addEvent false 5 IOManager.Event.READ none false, .delEvent 5 IOManager.Event.READ false,
      .wait false 0, .yield false .HOLD, .swapOut false, .decrement false, .fixUp false, .notify 0,
      .take true, .branch true, .swapIn true, .yield true .TERM, .release true, .swapOut true,
      .decrement true, .fixUp true] rfl
  refine ⟨_, hrun, rfl, destroyed_finished hrun ⟨trivial, trivial, ?_, trivial, trivial, trivial,
    trivial, trivial, trivial, trivial, trivial, trivial, trivial, ?_, trivial, trivial, trivial,
    trivial, trivial, trivial, trivial⟩⟩
  · rintro ft f ⟨⟩ ⟨⟩
  · rintro ft f ⟨⟩ ⟨⟩ -
    refine ⟨⟨0, rfl⟩, fun t' => ?_, fun t' b => ?_⟩
    · cases t' <;> nofun
    · cases t' <;> nofun

/-- A callback waits for a semaphore and is run to its end by another thread before the first one is
back in its loop: the first one resets it, the other one writes `HOLD` into it. -/
theorem reset_suspended_callback : ∃ run : List (Op Bool × FiberLifetime Bool),
    Run Step (init [0] 3) run ∧ ¬Always Sound (init [0] 3) run := by
  refine ⟨_, run_of_trace (f := step) (s := (init [0] 3 : FiberLifetime Bool))
    [.scheduleCb 7 none, .take false, .branch false, .swapIn false, .wait false 0,
      .yield false .HOLD, .swapOut false, .notify 0, .take true, .branch true, .swapIn true,
      .yield true .TERM, .release true, .swapOut true, .decrement true, .decrement false,
      .fixUp false, .fixUp true, .scheduleCb 8 none, .take false] rfl, ?_⟩
  intro h
  exact h.last.reset false rfl

end Steps

end FiberLifetime

end CxkFramework
