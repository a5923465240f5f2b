import CxkFramework.Runs
import Mathlib.Data.List.AList

/-!
# The registry of modules

`ModuleManager`: modules under their ids and, for each type, under their ids again. Each section that
holds the lock is a step, and so is each call of `onUnload`, which is made without it.
-/

namespace CxkFramework

/-- A module object, with what never changes in it. -/
structure Module where
  address : Nat
  id : String
  type : UInt32
  deriving DecidableEq, Repr

namespace ModuleManager

open Runs

/-- What a call still has to do. -/
inductive Section where
  | del (name : String)
  /-- behind the lock of `del` -/
  | onUnload (m : Module)
  | insert (m : Module)
  /-- the copy that `delAll` makes -/
  | copy
  deriving DecidableEq, Repr

/-- `m_modules` and `m_type2Modules`, what the calls under way still have to do, the modules that
came into the registry, in order, and those whose `onUnload` was called. -/
structure State where
  modules : AList fun _ : String => Module
  type2Modules : AList fun _ : UInt32 => AList fun _ : String => Module
  calls : List (List Section)
  registered : List Module
  unloaded : List Module

def create : State := ⟨∅, ∅, [], [], []⟩

namespace State

/-- `get`. -/
def get (s : State) (name : String) : Option Module := s.modules.lookup name

/-- `m_type2Modules[type]`, which is empty for a new type. -/
def ofType (s : State) (type : UInt32) : AList fun _ : String => Module :=
  (s.type2Modules.lookup type).getD ∅

/-- `listByType`. -/
def listByType (s : State) (type : UInt32) : List Module :=
  match s.type2Modules.lookup type with
  | none => []
  | some ms => ms.entries.map (·.2)

/-- What `del` does to the maps. -/
def erase (s : State) (m : Module) : State :=
  let ms := (s.ofType m.type).erase m.id
  { s with
    modules := s.modules.erase m.id
    type2Modules :=
      if ms.entries.isEmpty then s.type2Modules.erase m.type
      else s.type2Modules.insert m.type ms }

/-- What `add` does to the maps behind its `del`. -/
def insert (s : State) (m : Module) : State :=
  { s with
    modules := s.modules.insert m.id m
    type2Modules := s.type2Modules.insert m.type ((s.ofType m.type).insert m.id m)
    registered := if s.get m.id = some m then s.registered else s.registered ++ [m] }

/-- Call `i` has `todo` left. -/
def goes (s : State) (i : Nat) (todo : List Section) : State :=
  { s with calls := s.calls.set i todo }

end State

inductive Label where
  | add (m : Module)
  | del (name : String)
  | delAll
  /-- the next section of a call -/
  | next (i : Nat)
  /-- `delAll` copies the map, whose ids come in some order -/
  | copy (i : Nat) (names : List String)
  deriving DecidableEq, Repr

/-- A section of call `i`, with `todo` behind it. -/
def enter (s : State) (i : Nat) (todo : List Section) : Section → Option State
  | .del name =>
    match s.get name with
    | none => some (s.goes i todo)
    | some m => some ((s.erase m).goes i (.onUnload m :: todo))
  | .onUnload m => some { s.goes i todo with unloaded := s.unloaded ++ [m] }
  | .insert m => some ((s.insert m).goes i todo)
  | .copy => none

def step (s : State) : Label → Option State
  | .add m => some { s with calls := s.calls ++ [[.del m.id, .insert m]] }
  | .del name => some { s with calls := s.calls ++ [[.del name]] }
  | .delAll => some { s with calls := s.calls ++ [[.copy]] }
  | .next i =>
    match s.calls[i]? with
    | some (a :: todo) => enter s i todo a
    | _ => none
  | .copy i names =>
    match s.calls[i]? with
    | some (.copy :: todo) =>
      if names.Perm s.modules.keys then some (s.goes i (names.map .del ++ todo)) else none
    | _ => none

/-- Where a module is in the map of its type. -/
def State.typed (s : State) (type : UInt32) (id : String) : Option Module :=
  (s.ofType type).lookup id

/-- The calls of `onUnload` that are still to come. -/
def State.pending (s : State) (m : Module) : Nat := (s.calls.map (·.count (.onUnload m))).sum

/-- The two maps agree, and whatever left the registry is unloaded once. -/
structure Agrees (s : State) : Prop where
  same : ∀ m : Module, s.get m.id = some m ↔ s.typed m.type m.id = some m
  one_type : ∀ type type' id, (s.typed type id).isSome → (s.typed type' id).isSome → type = type'
  nonempty : ∀ type ms, s.type2Modules.lookup type = some ms → ms.entries ≠ []
  unloaded : ∀ m : Module, s.get m.id ≠ some m →
    s.unloaded.count m + s.pending m = s.registered.count m

/-- When a module is inserted, no other module is under its id. -/
def Free (s : State) : Label → Prop
  | .next i => ∀ m todo, s.calls[i]? = some (.insert m :: todo) →
      s.get m.id = none ∨ s.get m.id = some m
  | _ => True

/-! ## The maps -/

section Maps

variable {s : State} {m : Module}

@[simp] theorem get_goes (s : State) (i : Nat) (todo : List Section) (id : String) :
    (s.goes i todo).get id = s.get id := rfl

@[simp] theorem typed_goes (s : State) (i : Nat) (todo : List Section) (type : UInt32)
    (id : String) : (s.goes i todo).typed type id = s.typed type id := rfl

theorem get_erase (s : State) (m : Module) (id : String) :
    (s.erase m).get id = if id = m.id then none else s.get id := by
  split
  · rename_i h
    rw [h]
    exact AList.lookup_erase _ _
  · rename_i h
    exact AList.lookup_erase_ne h

theorem get_insert (s : State) (m : Module) (id : String) :
    (s.insert m).get id = if id = m.id then some m else s.get id := by
  split
  · rename_i h
    rw [h]
    exact AList.lookup_insert _
  · rename_i h
    exact AList.lookup_insert_ne h

/-- The map of a type without the module. -/
theorem ofType_erase (s : State) (m : Module) (type : UInt32) :
    (s.erase m).ofType type =
      if type = m.type then (s.ofType m.type).erase m.id else s.ofType type := by
  rw [State.ofType, State.erase]
  by_cases hempty : ((s.ofType m.type).erase m.id).entries.isEmpty
  · simp only [hempty, if_true]
    split
    · rename_i h
      rw [h, AList.lookup_erase]
      exact (AList.ext (List.isEmpty_iff.mp hempty)).symm
    · rename_i h
      rw [AList.lookup_erase_ne h]
      rfl
  · simp only [hempty, Bool.false_eq_true, if_false]
    split
    · rename_i h
      rw [h, AList.lookup_insert]
      rfl
    · rename_i h
      rw [AList.lookup_insert_ne h]
      rfl

theorem typed_erase (s : State) (m : Module) (type : UInt32) (id : String) :
    (s.erase m).typed type id = if type = m.type ∧ id = m.id then none else s.typed type id := by
  rw [State.typed, ofType_erase]
  by_cases htype : type = m.type
  · rw [if_pos htype]
    by_cases hid : id = m.id
    · rw [hid, AList.lookup_erase, if_pos ⟨htype, rfl⟩]
    · rw [AList.lookup_erase_ne hid, if_neg fun h => hid h.2, htype]
      rfl
  · rw [if_neg htype, if_neg fun h => htype h.1]
    rfl

theorem typed_insert (s : State) (m : Module) (type : UInt32) (id : String) :
    (s.insert m).typed type id =
      if type = m.type ∧ id = m.id then some m else s.typed type id := by
  rw [State.typed, State.ofType, State.insert]
  by_cases htype : type = m.type
  · rw [htype, AList.lookup_insert, Option.getD_some]
    by_cases hid : id = m.id
    · rw [hid, AList.lookup_insert, if_pos ⟨rfl, rfl⟩]
    · rw [AList.lookup_insert_ne hid, if_neg fun h => hid h.2]
      rfl
  · rw [AList.lookup_insert_ne htype, if_neg fun h => htype h.1]
    rfl

theorem nonempty_erase (h : ∀ type ms, s.type2Modules.lookup type = some ms → ms.entries ≠ [])
    {type : UInt32} {ms : AList fun _ : String => Module}
    (hms : (s.erase m).type2Modules.lookup type = some ms) : ms.entries ≠ [] := by
  rw [State.erase] at hms
  by_cases hempty : ((s.ofType m.type).erase m.id).entries.isEmpty
  · simp only [hempty, if_true] at hms
    by_cases htype : type = m.type
    · rw [htype, AList.lookup_erase] at hms
      cases hms
    · rw [AList.lookup_erase_ne htype] at hms
      exact h type ms hms
  · simp only [hempty, Bool.false_eq_true, if_false] at hms
    by_cases htype : type = m.type
    · rw [htype, AList.lookup_insert] at hms
      cases hms
      exact fun hnil => hempty (List.isEmpty_iff.mpr hnil)
    · rw [AList.lookup_insert_ne htype] at hms
      exact h type ms hms

theorem nonempty_insert (h : ∀ type ms, s.type2Modules.lookup type = some ms → ms.entries ≠ [])
    {type : UInt32} {ms : AList fun _ : String => Module}
    (hms : (s.insert m).type2Modules.lookup type = some ms) : ms.entries ≠ [] := by
  rw [State.insert] at hms
  by_cases htype : type = m.type
  · rw [htype, AList.lookup_insert] at hms
    cases hms
    simp
  · rw [AList.lookup_insert_ne htype] at hms
    exact h type ms hms

end Maps

/-! ## The invariant -/

structure Inv (s : State) : Prop where
  same : ∀ m : Module, s.get m.id = some m ↔ s.typed m.type m.id = some m
  own_id : ∀ id m, s.get id = some m → m.id = id
  own_type : ∀ type id m, s.typed type id = some m → m.type = type ∧ m.id = id
  nonempty : ∀ type ms, s.type2Modules.lookup type = some ms → ms.entries ≠ []
  /-- a module is registered, about to be unloaded, or unloaded, once for each time it came -/
  counted : ∀ m : Module, s.unloaded.count m + s.pending m +
    (if s.get m.id = some m then 1 else 0) = s.registered.count m

section Inv

variable {s s' : State} {i : Nat} {m x : Module} {todo : List Section}

theorem Inv.agrees (h : Inv s) : Agrees s where
  same := h.same
  one_type type type' id htype htype' := by
    obtain ⟨m, hm⟩ := Option.isSome_iff_exists.mp htype
    obtain ⟨m', hm'⟩ := Option.isSome_iff_exists.mp htype'
    obtain ⟨rfl, rfl⟩ := h.own_type _ _ _ hm
    obtain ⟨rfl, hid⟩ := h.own_type _ _ _ hm'
    have hget := (h.same m).mpr hm
    have hget' := (h.same m').mpr (by rw [hid]; exact hm')
    rw [hid, hget] at hget'
    cases hget'
    rfl
  nonempty := h.nonempty
  unloaded m hm := by
    have hcounted := h.counted m
    rwa [if_neg hm, Nat.add_zero] at hcounted

/-- `listByType` lists the modules of the type that `get` finds. -/
theorem Inv.mem_listByType (h : Inv s) {type : UInt32} :
    m ∈ s.listByType type ↔ s.get m.id = some m ∧ m.type = type := by
  have hlist : m ∈ s.listByType type ↔ ∃ id, s.typed type id = some m := by
    rw [State.listByType]
    cases hms : s.type2Modules.lookup type with
    | none => simp [State.typed, State.ofType, hms]
    | some ms =>
      simp only [State.typed, State.ofType, hms, Option.getD_some, List.mem_map]
      constructor
      · rintro ⟨e, he, rfl⟩
        exact ⟨e.1, AList.mem_lookup_iff.mpr he⟩
      · rintro ⟨id, hid⟩
        exact ⟨⟨id, m⟩, AList.mem_lookup_iff.mp hid, rfl⟩
  rw [hlist]
  constructor
  · rintro ⟨id, hid⟩
    obtain ⟨rfl, rfl⟩ := h.own_type _ _ _ hid
    exact ⟨(h.same m).mpr hid, rfl⟩
  · rintro ⟨hget, rfl⟩
    exact ⟨m.id, (h.same m).mp hget⟩

theorem pending_goes {c : List Section} (hc : s.calls[i]? = some c) (todo : List Section)
    (x : Module) :
    (s.goes i todo).pending x + c.count (.onUnload x) = s.pending x + todo.count (.onUnload x) :=
  Runs.sum_map_set _ _ _ _ _ hc

/-- Only the calls change, and none of them comes to or from an `onUnload`. -/
theorem Inv.calls (h : Inv s) {cs : List (List Section)}
    (hcs : ∀ x, (cs.map (·.count (.onUnload x))).sum = s.pending x) :
    Inv { s with calls := cs } where
  same := h.same
  own_id := h.own_id
  own_type := h.own_type
  nonempty := h.nonempty
  counted x := by
    have hcounted := h.counted x
    rw [← hcs x] at hcounted
    exact hcounted

theorem Inv.call (h : Inv s) {c : List Section} (hc : ∀ x, c.count (.onUnload x) = 0) :
    Inv { s with calls := s.calls ++ [c] } := by
  apply h.calls
  intro x
  simp [State.pending, hc x]

theorem Inv.goes (h : Inv s) {c : List Section} (hc : s.calls[i]? = some c)
    (hcount : ∀ x, todo.count (.onUnload x) = c.count (.onUnload x)) : Inv (s.goes i todo) := by
  apply h.calls
  intro x
  have hpending := pending_goes hc todo x
  rw [hcount x] at hpending
  exact Nat.add_right_cancel hpending

/-- The section of `del` that finds a module. -/
theorem Inv.erase (h : Inv s) {name : String} (hc : s.calls[i]? = some (.del name :: todo))
    (hm : s.get name = some m) : Inv ((s.erase m).goes i (.onUnload m :: todo)) := by
  have hname : m.id = name := h.own_id _ _ hm
  constructor
  case same =>
    intro x
    rw [get_goes, typed_goes, get_erase, typed_erase]
    by_cases hid : x.id = m.id
    · have hfound : s.typed x.type x.id = some x → x = m := by
        intro hx
        have hget := (h.same x).mpr hx
        rw [hid, hname, hm] at hget
        cases hget
        rfl
      rw [if_pos hid]
      constructor
      · intro hnone
        cases hnone
      · intro hx
        split at hx
        · cases hx
        · rename_i hne
          have heq := hfound hx
          exact absurd ⟨congrArg Module.type heq, hid⟩ hne
    · rw [if_neg hid, if_neg fun h => hid h.2]
      exact h.same x
  case own_id =>
    intro id x hx
    rw [get_goes, get_erase] at hx
    split at hx
    · cases hx
    · exact h.own_id id x hx
  case own_type =>
    intro type id x hx
    rw [typed_goes, typed_erase] at hx
    split at hx
    · cases hx
    · exact h.own_type type id x hx
  case nonempty => exact fun type ms hms => nonempty_erase h.nonempty hms
  case counted =>
    intro x
    have hcounted := h.counted x
    have hpending := pending_goes (s := s.erase m) hc (.onUnload m :: todo) x
    have hsame : (s.erase m).pending x = s.pending x := rfl
    rw [get_goes, get_erase]
    have hgoal : s.unloaded.count x + ((s.erase m).goes i (.onUnload m :: todo)).pending x +
        (if (if x.id = m.id then none else s.get x.id) = some x then 1 else 0) =
        s.registered.count x := by
      by_cases hx : m = x
      · subst hx
        have hget : s.get m.id = some m := by rw [hname, hm]
        rw [if_pos hget] at hcounted
        rw [if_pos rfl, if_neg (by simp)]
        simp at hpending
        omega
      · have hcount : (Section.onUnload m :: todo).count (.onUnload x) =
            (Section.del name :: todo).count (.onUnload x) := by simp [hx]
        have hget : (if x.id = m.id then none else s.get x.id) = some x ↔ s.get x.id = some x := by
          split
          · rename_i hid
            rw [hid, hname, hm]
            simp [hx]
          · exact Iff.rfl
        simp only [hget]
        omega
    exact hgoal

/-- The section of `add` that finds the id free. -/
theorem Inv.insert (h : Inv s) (hc : s.calls[i]? = some (.insert m :: todo))
    (hfree : s.get m.id = none ∨ s.get m.id = some m) : Inv ((s.insert m).goes i todo) := by
  have hother : ∀ x : Module, x ≠ m → x.id = m.id → s.get x.id ≠ some x := by
    intro x hx hid hget
    rw [hid] at hget
    cases hfree with
    | inl hnone =>
      rw [hnone] at hget
      cases hget
    | inr hsome =>
      rw [hsome] at hget
      cases hget
      exact hx rfl
  constructor
  case same =>
    intro x
    rw [get_goes, typed_goes, get_insert, typed_insert]
    by_cases hid : x.id = m.id
    · rw [if_pos hid]
      by_cases htype : x.type = m.type
      · rw [if_pos ⟨htype, hid⟩]
      · have hx : x ≠ m := fun hx => htype (congrArg Module.type hx)
        rw [if_neg fun h => htype h.1, ← h.same x]
        exact ⟨fun hm => absurd (Option.some.inj hm).symm hx, fun hget => absurd hget (hother x hx hid)⟩
    · rw [if_neg hid, if_neg fun h => hid h.2]
      exact h.same x
  case own_id =>
    intro id x hx
    rw [get_goes, get_insert] at hx
    split at hx
    · rename_i hid
      cases hx
      exact hid.symm
    · exact h.own_id id x hx
  case own_type =>
    intro type id x hx
    rw [typed_goes, typed_insert] at hx
    split at hx
    · rename_i heq
      cases hx
      exact ⟨heq.1.symm, heq.2.symm⟩
    · exact h.own_type type id x hx
  case nonempty => exact fun type ms hms => nonempty_insert h.nonempty hms
  case counted =>
    intro x
    have hcounted := h.counted x
    have hpending := pending_goes (s := s.insert m) hc todo x
    have hsame : (s.insert m).pending x = s.pending x := rfl
    have hskip : (Section.insert m :: todo).count (.onUnload x) = todo.count (.onUnload x) := by
      simp
    rw [get_goes, get_insert]
    have hgoal : s.unloaded.count x + ((s.insert m).goes i todo).pending x +
        (if (if x.id = m.id then some m else s.get x.id) = some x then 1 else 0) =
        (if s.get m.id = some m then s.registered else s.registered ++ [m]).count x := by
      by_cases hx : x = m
      · subst hx
        rw [if_pos rfl, if_pos rfl]
        by_cases hget : s.get x.id = some x
        · rw [if_pos hget] at hcounted ⊢
          omega
        · rw [if_neg hget] at hcounted ⊢
          rw [List.count_append, List.count_singleton_self]
          omega
      · have hget : (if x.id = m.id then some m else s.get x.id) = some x ↔
            s.get x.id = some x := by
          split
          · rename_i hid
            exact ⟨fun hm => absurd (Option.some.inj hm).symm hx,
              fun hget => absurd hget (hother x hx hid)⟩
          · exact Iff.rfl
        have hregistered : (if s.get m.id = some m then s.registered
            else s.registered ++ [m]).count x = s.registered.count x := by
          split
          · rfl
          · simp [Ne.symm hx]
        rw [hregistered]
        simp only [hget]
        omega
    exact hgoal

/-- The call of `onUnload`. -/
theorem Inv.onUnload (h : Inv s) (hc : s.calls[i]? = some (.onUnload m :: todo)) :
    Inv { s.goes i todo with unloaded := s.unloaded ++ [m] } where
  same := h.same
  own_id := h.own_id
  own_type := h.own_type
  nonempty := h.nonempty
  counted x := by
    have hcounted := h.counted x
    have hpending := pending_goes hc todo x
    have hgoal : (s.unloaded ++ [m]).count x + (s.goes i todo).pending x +
        (if s.get x.id = some x then 1 else 0) = s.registered.count x := by
      rw [List.count_append, List.count_singleton]
      rw [List.count_cons] at hpending
      by_cases hx : m = x
      · subst hx
        simp only [BEq.rfl, if_true] at hpending ⊢
        omega
      · have hne : (Section.onUnload m == .onUnload x) = false := by simp [hx]
        have hne' : (m == x) = false := by simp [hx]
        simp only [hne, hne', Bool.false_eq_true, if_false] at hpending ⊢
        omega
    exact hgoal

theorem Inv.enter (h : Inv s) {a : Section} (hc : s.calls[i]? = some (a :: todo))
    (hfree : ∀ m, a = .insert m → s.get m.id = none ∨ s.get m.id = some m)
    (hs : enter s i todo a = some s') : Inv s' := by
  cases a with
  | del name =>
    rw [ModuleManager.enter] at hs
    split at hs
    · cases hs
      exact h.goes hc (by simp)
    · rename_i m hm
      cases hs
      exact h.erase hc hm
  | onUnload m =>
    cases hs
    exact h.onUnload hc
  | insert m =>
    cases hs
    exact h.insert hc (hfree m rfl)
  | copy => cases hs

theorem inv_step {a : Label} (h : Inv s) (ha : Free s a) (hs : step s a = some s') : Inv s' := by
  cases a with
  | add m =>
    cases hs
    exact h.call (by simp)
  | del name =>
    cases hs
    exact h.call (by simp)
  | delAll =>
    cases hs
    exact h.call (by simp)
  | next i =>
    rw [step] at hs
    split at hs
    · rename_i a todo hc
      refine h.enter hc ?_ hs
      rintro m rfl
      exact ha m todo hc
    · cases hs
  | copy i names =>
    rw [step] at hs
    split at hs
    · rename_i todo hc
      split at hs
      · cases hs
        refine h.goes hc ?_
        intro x
        have hdel : (names.map Section.del).count (.onUnload x) = 0 := by
          rw [List.count_eq_zero, List.mem_map]
          rintro ⟨name, -, hname⟩
          cases hname
        rw [List.count_append, hdel, Nat.zero_add]
        simp
      · cases hs
    · cases hs

/-- A module is put over another one: that one is never unloaded. -/
theorem not_agrees_step {a : Label} (h : Inv s) (ha : ¬Free s a) (hs : step s a = some s') :
    ¬Agrees s' := by
  cases a with
  | next i =>
    simp only [Free, not_forall, not_or] at ha
    obtain ⟨m, todo, hc, hsome, hne⟩ := ha
    obtain ⟨old, hold⟩ := Option.ne_none_iff_exists'.mp hsome
    have hid : old.id = m.id := h.own_id _ _ hold
    have hdiff : m ≠ old := by
      rintro rfl
      exact hne hold
    rw [step, hc] at hs
    cases hs
    intro hagrees
    have hcounted := h.counted old
    rw [hid, if_pos hold] at hcounted
    have hget : ((s.insert m).goes i todo).get old.id ≠ some old := by
      rw [get_goes, get_insert, if_pos hid]
      exact fun heq => hdiff (Option.some.inj heq)
    have hunloaded := hagrees.unloaded old hget
    have hpending := pending_goes (s := s.insert m) hc todo old
    have hsame : (s.insert m).pending old = s.pending old := rfl
    have hskip : (Section.insert m :: todo).count (.onUnload old) =
        todo.count (.onUnload old) := by simp
    have hregistered : ((s.insert m).goes i todo).registered = s.registered ++ [m] := if_neg hne
    rw [hregistered, List.count_append, List.count_singleton] at hunloaded
    have hbeq : (m == old) = false := by simp [hdiff]
    rw [hbeq] at hunloaded
    have hlog : ((s.insert m).goes i todo).unloaded = s.unloaded := rfl
    rw [hlog] at hunloaded
    simp only [Bool.false_eq_true, if_false] at hunloaded
    omega
  | add m => exact absurd trivial ha
  | del name => exact absurd trivial ha
  | delAll => exact absurd trivial ha
  | copy i names => exact absurd trivial ha

theorem inv_create : Inv create where
  same m := by simp [State.get, State.typed, State.ofType, create]
  own_id id m h := by simp [State.get, create] at h
  own_type type id m h := by simp [State.typed, State.ofType, create] at h
  nonempty type ms h := by simp [create] at h
  counted m := by simp [State.get, State.pending, create]

/-- The registry is in order exactly as long as no module is put over another. -/
theorem run_agrees_iff {t : List (Label × State)}
    (run : Run (fun s a s' => step s a = some s') create t) :
    Always Agrees create t ↔ Meets Free create t := by
  refine always_iff_meets_of_inv Inv (fun _ h => h.agrees) ?_ ?_ run inv_create
  · intro s a s' h ha hs
    exact inv_step h ha hs
  · intro s a s' h ha hs
    exact not_agrees_step h ha hs

end Inv

def first : Module := ⟨0, "m/1", 0⟩

/-- The same id, another type. -/
def second : Module := ⟨1, "m/1", 1⟩

/-- Two calls of `add` come to their second sections together; one module stays in the map of its
type, and its `onUnload` is never called. -/
theorem run_two_adds_breaks_agrees :
    ∃ t, Run (fun s a s' => step s a = some s') create t ∧
      (Runs.last create t).get "m/1" = some second ∧
      (Runs.last create t).typed 0 "m/1" = some first ∧
      (Runs.last create t).unloaded = [] ∧ ¬Always Agrees create t := by
  refine ⟨_, .cons (a := .add first) rfl (.cons (a := .add second) rfl
    (.cons (a := .next 0) rfl (.cons (a := .next 1) rfl (.cons (a := .next 0) rfl
      (.cons (a := .next 1) rfl (.nil _)))))), rfl, rfl, rfl, ?_⟩
  intro h
  have hsame := (h.last.same first).mpr rfl
  cases hsame

/-- One after the other, then `delAll`. -/
theorem run_agrees_after_delAll :
    ∃ t, Run (fun s a s' => step s a = some s') create t ∧
      (Runs.last create t).unloaded = [first, second] ∧
      (Runs.last create t).get "m/1" = none ∧ Always Agrees create t := by
  have run : Run (fun s a s' => step s a = some s') create _ :=
    .cons (a := .add first) rfl (.cons (a := .next 0) rfl (.cons (a := .next 0) rfl
      (.cons (a := .add second) rfl (.cons (a := .next 1) rfl (.cons (a := .next 1) rfl
        (.cons (a := .next 1) rfl (.cons (a := .delAll) rfl
          (.cons (a := .copy 2 ["m/1"]) rfl (.cons (a := .next 2) rfl
            (.cons (a := .next 2) rfl (.nil _)))))))))))
  refine ⟨_, run, rfl, rfl, (run_agrees_iff run).mpr ?_⟩
  refine ⟨trivial, ?_, ?_, trivial, ?_, ?_, ?_, trivial, trivial, ?_, ?_, trivial⟩
  all_goals
    intro m todo hc
    cases hc
  all_goals exact .inl rfl

end ModuleManager

end CxkFramework
