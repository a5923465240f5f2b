import CxkFramework.IoManager
import CxkFramework.Stream
import Mathlib.Tactic

/-!
# The growth of the event table

`addEvent` as several threads run it at once. The size of `m_fdContexts` is looked at under the
read lock, the table is resized under the write lock, and the event registered under the lock of
its context, each in a step of its own. A thread that waits for the write lock grows the table
for its own file descriptor without a look at what others have made of it, and `resize` to
less than there is cuts contexts off. Contexts are numbered as they are made and are never freed.
-/

namespace CxkFramework.IOManager

open Runs

/-- Where a thread is in `addEvent`. -/
inductive Place where
  | out
  /-- the table was too small -/
  | growing (fd : Nat)
  | holding (fd ctx : Nat)
  deriving DecidableEq, Repr

structure Contexts (τ : Type) where
  fdContexts : List Nat
  context : Nat → FdContext
  made : Nat
  epoll : Nat → Option Event
  appendingEventCount : Int
  place : τ → Place
  /-- the file descriptors events were registered for, with their contexts at that time -/
  registered : List (Nat × Nat)

namespace Contexts

/-- Why a step has no result. -/
inductive Halt where
  | crash (c : Crash)
  /-- the thread is elsewhere -/
  | disabled
  deriving DecidableEq, Repr

variable {τ : Type} [DecidableEq τ]

/-- After the constructor. -/
def init (tickleFd : Nat) : Contexts τ where
  fdContexts := List.range 32
  context _ := {}
  made := 32
  epoll := Function.update (fun _ => none) tickleFd (some Event.READ)
  appendingEventCount := 0
  place _ := .out
  registered := []

/-- `(int)m_fdContexts.size()`. -/
def size (s : Contexts τ) : Int := toInt s.fdContexts.length

def moveTo (s : Contexts τ) (t : τ) (p : Place) : Contexts τ :=
  { s with place := Function.update s.place t p }

def contextResize (s : Contexts τ) (size : Nat) : Contexts τ :=
  let new := size - s.fdContexts.length
  { s with
    fdContexts := s.fdContexts.take size ++ (List.range new).map (s.made + ·)
    made := s.made + new }

/-- What `delEvent`, `cancelEvent` and `cancelAll` find. -/
def find (s : Contexts τ) (fd : Nat) : Option Nat :=
  if s.size ≤ fd then none else s.fdContexts[fd]?

/-- `addEvent` with the lock of the context. -/
def register (s : Contexts τ) (fd ctx : Nat) (events : Event) (cb : Option Nat) (caller : Caller)
    (fails : Bool) : Except Crash (Int × Contexts τ) :=
  let c := s.context ctx
  if c.events ∩ events ≠ Event.NONE then .error .assertion
  else
    let op := if c.events = Event.NONE then EpollOp.ADD else EpollOp.MOD
    match epollCtl s.epoll fails op fd (c.events ∪ events) with
    | none => .ok (-1, s)
    | some epoll => do
      let e ← c.getcontext events
      let e ← armed e cb caller
      let c := { c with events := c.events ∪ events }.setcontext events e
      .ok (0, { s with
        epoll := epoll
        appendingEventCount := s.appendingEventCount + 1
        context := Function.update s.context ctx c
        registered := (fd, ctx) :: s.registered })

inductive Op (τ : Type) where
  /-- the size is looked at, under the read lock -/
  | check (t : τ) (fd : Nat)
  /-- `contextResize(fd * 1.5)`, under the write lock -/
  | grow (t : τ)
  | register (t : τ) (events : Event) (cb : Option Nat) (caller : Caller) (fails : Bool)
  deriving DecidableEq, Repr

def step (s : Contexts τ) : Op τ → Except Halt (Contexts τ)
  | .check t fd =>
    match s.place t with
    | .out =>
      if s.size > fd then
        match s.fdContexts[fd]? with
        | some ctx => .ok (s.moveTo t (.holding fd ctx))
        | none => .error (.crash .outOfRange)
      else .ok (s.moveTo t (.growing fd))
    | _ => .error .disabled
  | .grow t =>
    match s.place t with
    | .growing fd =>
      match (s.contextResize (fd * 3 / 2)).fdContexts[fd]? with
      | some ctx => .ok ((s.contextResize (fd * 3 / 2)).moveTo t (.holding fd ctx))
      | none => .error (.crash .outOfRange)
    | _ => .error .disabled
  | .register t events cb caller fails =>
    match s.place t with
    | .holding fd ctx =>
      match s.register fd ctx events cb caller fails with
      | .ok (_, s) => .ok (s.moveTo t .out)
      | .error c => .error (.crash c)
    | _ => .error .disabled

def Step (s : Contexts τ) (op : Op τ) (s' : Contexts τ) : Prop := s.step op = .ok s'

/-- The table does not shrink, its contexts stay, and those of registered events are found. -/
def Kept (s : Contexts τ) (_ : Op τ) (s' : Contexts τ) : Prop :=
  s.fdContexts.length ≤ s'.fdContexts.length ∧
    (∀ fd < s.fdContexts.length, s'.fdContexts[fd]? = s.fdContexts[fd]?) ∧
    ∀ e ∈ s'.registered, s'.find e.1 = some e.2

/-- A thread that grows the table asks for no less than there is, and for a size that is an
`int`. -/
def Roomy (s : Contexts τ) : Op τ → Prop
  | .grow t => ∀ fd, s.place t = .growing fd →
      s.fdContexts.length ≤ fd * 3 / 2 ∧ fd * 3 / 2 < 2 ^ 31
  | _ => True

/-- Every context that was given out stands in the table. -/
structure Inv (s : Contexts τ) : Prop where
  length_lt : s.fdContexts.length < 2 ^ 31
  held : ∀ t fd ctx, s.place t = .holding fd ctx → s.fdContexts[fd]? = some ctx
  registered : ∀ e ∈ s.registered, s.fdContexts[e.1]? = some e.2

section Steps

variable {s s' : Contexts τ}

omit [DecidableEq τ] in
theorem contextResize_fdContexts (s : Contexts τ) (n : Nat) :
    (s.contextResize n).fdContexts = s.fdContexts.take n ++
      (List.range (n - s.fdContexts.length)).map (s.made + ·) := rfl

omit [DecidableEq τ] in
theorem contextResize_length (s : Contexts τ) (n : Nat) :
    (s.contextResize n).fdContexts.length = n := by
  rw [contextResize_fdContexts, List.length_append, List.length_take, List.length_map,
    List.length_range]
  omega

omit [DecidableEq τ] in
/-- A table that grows keeps its contexts. -/
theorem contextResize_getElem? {n fd : Nat} (hn : s.fdContexts.length ≤ n)
    (hfd : fd < s.fdContexts.length) : (s.contextResize n).fdContexts[fd]? = s.fdContexts[fd]? := by
  rw [contextResize_fdContexts, List.take_of_length_le hn, List.getElem?_append_left hfd]

omit [DecidableEq τ] in
theorem Inv.find_registered (hs : Inv s) : ∀ e ∈ s.registered, s.find e.1 = some e.2 := by
  intro e he
  have hmem := hs.registered e he
  have hlt := (List.getElem?_eq_some_iff.mp hmem).1
  have hlen := hs.length_lt
  have hsize : s.size = s.fdContexts.length := Stream.toInt_of_lt (by omega) (by omega)
  rw [find, if_neg (by omega), hmem]

theorem moveTo_holding {t u : τ} {p : Place} {fd ctx : Nat}
    (h : (s.moveTo t p).place u = .holding fd ctx) :
    (u = t ∧ p = .holding fd ctx) ∨ s.place u = .holding fd ctx := by
  rw [moveTo] at h
  by_cases hu : u = t
  · subst hu
    simp only [Function.update_self] at h
    exact .inl ⟨rfl, h⟩
  · simp only [Function.update_of_ne hu] at h
    exact .inr h

omit [DecidableEq τ] in
theorem inv_init (tickleFd : Nat) : Inv (init tickleFd : Contexts τ) where
  length_lt := by simp [init]
  held t fd ctx h := by cases h
  registered e he := by cases he

theorem check_inv (hs : Inv s) {t : τ} {fd : Nat} (h : Step s (.check t fd) s') :
    Inv s' ∧ s'.fdContexts = s.fdContexts := by
  rw [Step, step] at h
  split at h
  · split at h
    · split at h
      · next ctx hctx =>
        cases h
        refine ⟨⟨hs.length_lt, fun u fd' ctx' hu => ?_, hs.registered⟩, rfl⟩
        rcases moveTo_holding hu with ⟨-, hp⟩ | hu
        · cases hp
          exact hctx
        · exact hs.held u fd' ctx' hu
      · cases h
    · cases h
      refine ⟨⟨hs.length_lt, fun u fd' ctx' hu => ?_, hs.registered⟩, rfl⟩
      rcases moveTo_holding hu with ⟨-, hp⟩ | hu
      · cases hp
      · exact hs.held u fd' ctx' hu
  · cases h

/-- The table grows for one thread; the contexts of the others stand where they stood. -/
theorem grow_inv (hs : Inv s) {t : τ} (hok : Roomy s (.grow t)) (h : Step s (.grow t) s') :
    Inv s' ∧ s.fdContexts.length ≤ s'.fdContexts.length ∧
      ∀ fd < s.fdContexts.length, s'.fdContexts[fd]? = s.fdContexts[fd]? := by
  rw [Step, step] at h
  split at h
  · next fd hp =>
    obtain ⟨hle, hlt⟩ := hok fd hp
    split at h
    · next ctx hctx =>
      cases h
      have hkeep : ∀ i c : Nat, s.fdContexts[i]? = some c →
          (s.contextResize (fd * 3 / 2)).fdContexts[i]? = some c := by
        intro i c hi
        rw [contextResize_getElem? hle (List.getElem?_eq_some_iff.mp hi).1, hi]
      refine ⟨⟨?_, fun u fd' ctx' hu => ?_, fun e he => hkeep e.1 e.2 (hs.registered e he)⟩, ?_, ?_⟩
      · change (s.contextResize (fd * 3 / 2)).fdContexts.length < 2 ^ 31
        rwa [contextResize_length]
      · rcases moveTo_holding hu with ⟨-, hp⟩ | hu
        · cases hp
          exact hctx
        · exact hkeep fd' ctx' (hs.held u fd' ctx' hu)
      · change s.fdContexts.length ≤ (s.contextResize (fd * 3 / 2)).fdContexts.length
        rwa [contextResize_length]
      · exact fun i hi => contextResize_getElem? hle hi
    · cases h
  · cases h

omit [DecidableEq τ] in
/-- The table itself is not changed by `register`. -/
theorem register_cases {fd ctx : Nat} {events : Event} {cb : Option Nat} {caller : Caller}
    {fails : Bool} {r : Int} (h : s.register fd ctx events cb caller fails = .ok (r, s')) :
    s'.fdContexts = s.fdContexts ∧ s'.place = s.place ∧
      (s'.registered = s.registered ∨ s'.registered = (fd, ctx) :: s.registered) := by
  rw [register] at h
  dsimp only at h
  split at h
  · cases h
  · split at h
    · cases h
      exact ⟨rfl, rfl, .inl rfl⟩
    · obtain ⟨e, -, h⟩ := bind_eq_ok.mp h
      obtain ⟨e', -, h⟩ := bind_eq_ok.mp h
      cases h
      exact ⟨rfl, rfl, .inr rfl⟩

theorem register_inv (hs : Inv s) {t : τ} {events : Event} {cb : Option Nat} {caller : Caller}
    {fails : Bool} (h : Step s (.register t events cb caller fails) s') :
    Inv s' ∧ s'.fdContexts = s.fdContexts := by
  rw [Step, step] at h
  split at h
  · next fd ctx hp =>
    split at h
    · next r s₁ hreg =>
      cases h
      obtain ⟨htable, hplace, hregistered⟩ := register_cases hreg
      have hctx := hs.held t fd ctx hp
      refine ⟨⟨htable ▸ hs.length_lt, fun u fd' ctx' hu => ?_, fun e he => ?_⟩, htable⟩
      · change s₁.fdContexts[fd']? = some ctx'
        rw [htable]
        rcases moveTo_holding hu with ⟨-, hp⟩ | hu
        · cases hp
        · exact hs.held u fd' ctx' (hplace ▸ hu)
      · change s₁.fdContexts[e.1]? = some e.2
        rw [htable]
        rcases hregistered with heq | heq
        · exact hs.registered e (heq ▸ he)
        · have he : e ∈ s₁.registered := he
          rw [heq] at he
          rcases List.mem_cons.mp he with rfl | hmem
          · exact hctx
          · exact hs.registered e hmem
    · cases h
  · cases h

theorem step_kept {op : Op τ} (hs : Inv s) (hok : Roomy s op) (h : Step s op s') :
    Inv s' ∧ Kept s op s' := by
  have hsame : Inv s' ∧ s'.fdContexts = s.fdContexts → Inv s' ∧ Kept s op s' := by
    rintro ⟨hinv, heq⟩
    exact ⟨hinv, heq ▸ le_rfl, fun _ _ => by rw [heq], hinv.find_registered⟩
  cases op with
  | check t fd => exact hsame (check_inv hs h)
  | grow t =>
    obtain ⟨hinv, hle, hkeep⟩ := grow_inv hs hok h
    exact ⟨hinv, hle, hkeep, hinv.find_registered⟩
  | register t events cb caller fails => exact hsame (register_inv hs h)

end Steps

/-- In every run in which no thread grows the table to less than there is, it never shrinks and
a context that an event was registered with is found ever after. -/
theorem run_kept (tickleFd : Nat) (t : List (Op τ × Contexts τ))
    (run : Run Step (init tickleFd) t) (hok : Meets Roomy (init tickleFd) t) :
    Every Kept (init tickleFd) t :=
  every_of_meets (I := Inv) (Q := Kept) (fun _ _ _ hs hok h => (step_kept hs hok h).1)
    (fun _ _ _ hs hok h => (step_kept hs hok h).2) run (inv_init tickleFd) hok

/-- The thread that waits for the write lock first grows for the smaller descriptor. -/
theorem run_kept_two_threads : ∃ t, trace step (init 3 : Contexts Bool) [.check false 33, .check true 60,
      .grow false, .grow true, .register true Event.READ (some 1) ⟨some 0, 0, true⟩ false,
      .register false Event.WRITE none ⟨some 0, 0, true⟩ false] = .ok t ∧
    Every Kept (init 3) t := by
  refine ⟨_, rfl, run_kept 3 _ (run_of_trace [.check false 33, .check true 60,
    .grow false, .grow true, .register true Event.READ (some 1) ⟨some 0, 0, true⟩ false,
    .register false Event.WRITE none ⟨some 0, 0, true⟩ false] rfl) ?_⟩
  refine ⟨trivial, trivial, fun fd hp => ?_, fun fd hp => ?_, trivial, trivial, trivial⟩
  · cases hp
    exact ⟨by decide, by decide⟩
  · cases hp
    exact ⟨by decide, by decide⟩

/-- The thread with the smaller descriptor comes last and cuts off the context of the other. -/
theorem run_grow_breaks_kept : ∃ t, Run Step (init 3 : Contexts Bool) t ∧ ¬Every Kept (init 3) t := by
  refine ⟨_, run_of_trace [.check false 33, .check true 60, .grow true,
    .register true Event.READ (some 1) ⟨some 0, 0, true⟩ false, .grow false] rfl, ?_⟩
  rintro ⟨-, -, -, -, ⟨hle, -⟩, -⟩
  revert hle
  decide

/-! ## One thread alone -/

section Alone

variable {s : Contexts τ}

/-- The manager as a single thread sees it. -/
def view (s : Contexts τ) (tickleFd : Nat) : IOManager where
  fdContexts := s.fdContexts.map s.context
  appendingEventCount := s.appendingEventCount
  tickleFd := tickleFd
  epoll := s.epoll
  scheduled := []

/-- The table after the size was looked at and, if need be, changed. -/
def grown (s : Contexts τ) (fd : Nat) : Contexts τ :=
  if s.size > fd then s else s.contextResize (fd * 3 / 2)

/-- `addEvent` once the table is large enough. -/
def registerAt (s : Contexts τ) (fd : Nat) (events : Event) (cb : Option Nat) (caller : Caller)
    (fails : Bool) : Except Crash (Int × Contexts τ) :=
  match s.fdContexts[fd]? with
  | none => .error .outOfRange
  | some ctx => s.register fd ctx events cb caller fails

/-- The steps of `addEvent` with no other thread in between. -/
def addEvent (s : Contexts τ) (fd : Nat) (events : Event) (cb : Option Nat) (caller : Caller)
    (fails : Bool) : Except Crash (Int × Contexts τ) :=
  (s.grown fd).registerAt fd events cb caller fails

/-- No context stands in the table twice, and those that were not made yet are empty. -/
structure Distinct (s : Contexts τ) : Prop where
  nodup : s.fdContexts.Nodup
  lt_made : ∀ ctx ∈ s.fdContexts, ctx < s.made
  unused : ∀ ctx, s.made ≤ ctx → s.context ctx = {}

omit [DecidableEq τ] in
theorem distinct_init (tickleFd : Nat) : Distinct (init tickleFd : Contexts τ) where
  nodup := List.nodup_range
  lt_made _ h := List.mem_range.mp h
  unused _ _ := rfl

omit [DecidableEq τ] in
theorem Distinct.contextResize (hs : Distinct s) (n : Nat) : Distinct (s.contextResize n) where
  nodup := by
    rw [contextResize_fdContexts]
    refine List.nodup_append.mpr ⟨hs.nodup.sublist (List.take_sublist _ _), ?_, ?_⟩
    · exact List.nodup_range.map (fun _ _ h => Nat.add_left_cancel h)
    · intro a ha b hb
      obtain ⟨i, -, rfl⟩ := List.mem_map.mp hb
      have hlt := hs.lt_made a (List.mem_of_mem_take ha)
      omega
  lt_made ctx h := by
    change ctx < s.made + (n - s.fdContexts.length)
    rw [contextResize_fdContexts] at h
    rcases List.mem_append.mp h with h | h
    · have hlt := hs.lt_made ctx (List.mem_of_mem_take h)
      omega
    · obtain ⟨i, hi, rfl⟩ := List.mem_map.mp h
      have hlt := List.mem_range.mp hi
      omega
  unused ctx h := by
    change s.made + (n - s.fdContexts.length) ≤ ctx at h
    exact hs.unused ctx (by omega)

omit [DecidableEq τ] in
theorem view_contextResize (hs : Distinct s) (tickleFd n : Nat) :
    (s.contextResize n).view tickleFd = (s.view tickleFd).contextResize n := by
  have hnew : (List.range (n - s.fdContexts.length)).map (s.context ∘ (s.made + ·)) =
      List.replicate (n - s.fdContexts.length) {} := by
    refine List.eq_replicate_iff.mpr ⟨by simp, fun c hc => ?_⟩
    obtain ⟨i, -, rfl⟩ := List.mem_map.mp hc
    exact hs.unused _ (Nat.le_add_right _ _)
  simp only [view, contextResize_fdContexts, IOManager.contextResize, List.map_append, List.map_take,
    List.map_map, List.length_map]
  exact congrArg (fun l => ({ fdContexts := _ ++ l, .. } : IOManager)) hnew

/-- A write through the pointer at `fd` is a write to the table at `fd`. -/
theorem map_update_context {l : List Nat} (hl : l.Nodup) {fd ctx : Nat} (hfd : l[fd]? = some ctx)
    (f : Nat → FdContext) (c : FdContext) :
    l.map (Function.update f ctx c) = (l.map f).set fd c := by
  refine List.ext_getElem? (fun i => ?_)
  rw [List.getElem?_map, List.getElem?_set, List.getElem?_map, List.length_map]
  obtain ⟨hlt, heq⟩ := List.getElem?_eq_some_iff.mp hfd
  by_cases hi : fd = i
  · subst hi
    rw [if_pos rfl, if_pos hlt, hfd, Option.map_some, Function.update_self]
  · rw [if_neg hi]
    cases hc : l[i]? with
    | none => rfl
    | some ctx' =>
      have hne : ctx' ≠ ctx := by
        rintro rfl
        obtain ⟨hlt', heq'⟩ := List.getElem?_eq_some_iff.mp hc
        exact hi ((List.Nodup.getElem_inj_iff hl).mp (heq.trans heq'.symm))
      rw [Option.map_some, Option.map_some, Function.update_of_ne hne]

omit [DecidableEq τ] in
theorem grown_view (hs : Distinct s) (hlen : s.fdContexts.length < 2 ^ 31) (tickleFd fd : Nat) :
    (s.grown fd).view tickleFd =
      (if (s.view tickleFd).fdContexts.length > fd then s.view tickleFd
        else (s.view tickleFd).contextResize (fd * 3 / 2)) ∧ Distinct (s.grown fd) := by
  have hsize : s.size = s.fdContexts.length := Stream.toInt_of_lt (by omega) (by omega)
  have hlength : (s.view tickleFd).fdContexts.length = s.fdContexts.length := by
    simp only [view, List.length_map]
  rw [hlength, grown]
  by_cases hfd : s.fdContexts.length > fd
  · rw [if_pos (by omega), if_pos hfd]
    exact ⟨rfl, hs⟩
  · rw [if_neg (by omega), if_neg hfd]
    exact ⟨view_contextResize hs tickleFd _, hs.contextResize _⟩

/-- `addEvent` of the table model once the table is large enough. -/
def tableRegister (s : IOManager) (fd : Nat) (events : Event) (cb : Option Nat) (caller : Caller)
    (fails : Bool) : Except Crash (Int × IOManager) :=
  match s.fdContexts[fd]? with
  | none => .error .outOfRange
  | some c =>
    if c.events ∩ events ≠ Event.NONE then .error .assertion
    else
      match epollCtl s.epoll fails (if c.events = Event.NONE then .ADD else .MOD) fd
          (c.events ∪ events) with
      | none => .ok (-1, s)
      | some epoll => do
        let ctx ← c.getcontext events
        let ctx ← armed ctx cb caller
        .ok (0, { s with
          epoll := epoll
          appendingEventCount := s.appendingEventCount + 1
          fdContexts := s.fdContexts.set fd
            ({ c with events := c.events ∪ events }.setcontext events ctx) })

theorem addEvent_eq_tableRegister (s : IOManager) (fd : Nat) (events : Event) (cb : Option Nat)
    (caller : Caller) (fails : Bool) :
    s.addEvent fd events cb caller fails =
      tableRegister (if s.fdContexts.length > fd then s else s.contextResize (fd * 3 / 2))
        fd events cb caller fails := rfl

omit [DecidableEq τ] in
theorem view_registerAt (hs : Distinct s) (tickleFd fd : Nat)
    (events : Event) (cb : Option Nat) (caller : Caller) (fails : Bool) :
    (s.registerAt fd events cb caller fails).map (fun p => (p.1, p.2.view tickleFd)) =
      tableRegister (s.view tickleFd) fd events cb caller fails := by
  have hget : (s.view tickleFd).fdContexts[fd]? = s.fdContexts[fd]?.map s.context := by
    simp only [view, List.getElem?_map]
  rw [registerAt, tableRegister, hget]
  cases hctx : s.fdContexts[fd]? with
  | none => rfl
  | some ctx =>
    dsimp only [Option.map_some, register]
    by_cases hbits : (s.context ctx).events ∩ events ≠ Event.NONE
    · rw [if_pos hbits, if_pos hbits]
      rfl
    · rw [if_neg hbits, if_neg hbits]
      have hepoll : (s.view tickleFd).epoll = s.epoll := rfl
      rw [hepoll]
      cases epollCtl s.epoll fails _ fd _ with
      | none => rfl
      | some epoll =>
        dsimp only
        cases (s.context ctx).getcontext events with
        | error e => rfl
        | ok e =>
          simp only [ok_bind]
          cases armed e cb caller with
          | error e => rfl
          | ok e' =>
            simp only [ok_bind, Except.map, view]
            rw [map_update_context hs.nodup hctx]

omit [DecidableEq τ] in
/-- Without other threads the steps together are the one step of the table model. -/
theorem view_addEvent (hs : Distinct s) (hlen : s.fdContexts.length < 2 ^ 31) (tickleFd fd : Nat)
    (events : Event) (cb : Option Nat) (caller : Caller) (fails : Bool) :
    (s.addEvent fd events cb caller fails).map (fun p => (p.1, p.2.view tickleFd)) =
      (s.view tickleFd).addEvent fd events cb caller fails := by
  obtain ⟨hgrown, hdistinct⟩ := grown_view hs hlen tickleFd fd
  rw [addEvent_eq_tableRegister, ← hgrown]
  exact view_registerAt hdistinct tickleFd fd events cb caller fails

/-- Where the threads are does not matter to `register`. -/
theorem register_moveTo (s : Contexts τ) (t : τ) (p : Place) (fd ctx : Nat) (events : Event)
    (cb : Option Nat) (caller : Caller) (fails : Bool) :
    (s.moveTo t p).register fd ctx events cb caller fails =
      (s.register fd ctx events cb caller fails).map fun r => (r.1, r.2.moveTo t p) := by
  dsimp only [register, moveTo]
  by_cases hbits : (s.context ctx).events ∩ events ≠ Event.NONE
  · rw [if_pos hbits, if_pos hbits]
    rfl
  · rw [if_neg hbits, if_neg hbits]
    cases epollCtl s.epoll fails _ fd _ with
    | none => rfl
    | some epoll =>
      dsimp only
      cases (s.context ctx).getcontext events with
      | error e => rfl
      | ok e =>
        simp only [ok_bind]
        cases armed e cb caller with
        | error e => rfl
        | ok e' => rfl

theorem moveTo_moveTo_out {t : τ} {p : Place} (ht : s.place t = .out) :
    (s.moveTo t p).moveTo t .out = s := by
  rw [moveTo, moveTo, Function.update_idem, ← ht, Function.update_eq_self]

/-- A thread that holds a context registers its event and is back where it was. -/
theorem step_register_alone {s' : Contexts τ} {t : τ} {fd ctx : Nat} {events : Event}
    {cb : Option Nat} {caller : Caller} {fails : Bool} {r : Int} (ht : s.place t = .out)
    (h : s.register fd ctx events cb caller fails = .ok (r, s')) :
    Step (s.moveTo t (.holding fd ctx)) (.register t events cb caller fails) s' := by
  have hplace : (s.moveTo t (.holding fd ctx)).place t = .holding fd ctx := by
    simp only [moveTo, Function.update_self]
  have hs' : s'.place t = .out := by rw [(register_cases h).2.1, ht]
  rw [Step, step, hplace]
  dsimp only
  rw [register_moveTo, h]
  dsimp only [Except.map]
  rw [moveTo_moveTo_out hs']

theorem step_check_holding {t : τ} {fd ctx : Nat} (ht : s.place t = .out) (hfd : s.size > fd)
    (hctx : s.fdContexts[fd]? = some ctx) :
    Step s (.check t fd) (s.moveTo t (.holding fd ctx)) := by
  rw [Step, step, ht]
  dsimp only
  rw [if_pos hfd, hctx]

theorem step_check_growing {t : τ} {fd : Nat} (ht : s.place t = .out) (hfd : ¬s.size > fd) :
    Step s (.check t fd) (s.moveTo t (.growing fd)) := by
  rw [Step, step, ht]
  dsimp only
  rw [if_neg hfd]

theorem step_grow_holding {t : τ} {fd ctx : Nat}
    (hctx : (s.contextResize (fd * 3 / 2)).fdContexts[fd]? = some ctx) :
    Step (s.moveTo t (.growing fd)) (.grow t)
      ((s.contextResize (fd * 3 / 2)).moveTo t (.holding fd ctx)) := by
  have hplace : (s.moveTo t (.growing fd)).place t = .growing fd := by
    simp only [moveTo, Function.update_self]
  have hresize : (s.moveTo t (.growing fd)).contextResize (fd * 3 / 2) =
      (s.contextResize (fd * 3 / 2)).moveTo t (.growing fd) := rfl
  have hmove : ((s.contextResize (fd * 3 / 2)).moveTo t (.growing fd)).moveTo t (.holding fd ctx) =
      (s.contextResize (fd * 3 / 2)).moveTo t (.holding fd ctx) := by
    simp only [moveTo, Function.update_idem]
  have hctx' : ((s.contextResize (fd * 3 / 2)).moveTo t (.growing fd)).fdContexts[fd]? =
      some ctx := hctx
  rw [Step, step, hplace]
  dsimp only
  rw [hresize, hctx', ← hmove]

/-- What `addEvent` does alone is done by its steps. -/
theorem run_addEvent {s' : Contexts τ} {t : τ} {fd : Nat} {events : Event} {cb : Option Nat}
    {caller : Caller} {fails : Bool} {r : Int} (ht : s.place t = .out)
    (h : s.addEvent fd events cb caller fails = .ok (r, s')) :
    ∃ run, Run Step s run ∧ last s run = s' := by
  rw [addEvent, registerAt] at h
  split at h
  · cases h
  · next ctx hctx =>
    by_cases hfd : s.size > fd
    · rw [grown, if_pos hfd] at h hctx
      exact ⟨_, .cons (step_check_holding ht hfd hctx)
        (.cons (step_register_alone ht h) (.nil s')), rfl⟩
    · rw [grown, if_neg hfd] at h hctx
      have ht' : (s.contextResize (fd * 3 / 2)).place t = .out := ht
      exact ⟨_, .cons (step_check_growing ht hfd) (.cons (step_grow_holding hctx)
        (.cons (step_register_alone ht' h) (.nil s'))), rfl⟩

end Alone

end Contexts

end CxkFramework.IOManager
