import CxkFramework.Runs
import CxkFramework.Stream
import Mathlib.Data.List.Basic

/-!
# The pool of MySQL connections

`MySQLManager::get`, `freeMySQL` and `checkConnection`. A connection that `get` takes out of its
list and can neither ping nor connect again is given to nobody: it is not returned, not put back
and not deleted. All other ways through the pool keep each connection in one place.
-/

namespace CxkFramework

/-- A connection; `hasMySQL` is whether `m_mysql` is set. -/
structure MySQL where
  hasMySQL : Bool := false
  hasError : Bool := false
  lastUsedTime : Nat := 0
  deriving DecidableEq, Repr

namespace MySQLManager

/-- Where a call of `get` is. -/
inductive Call (ν : Type) where
  /-- it has taken a connection out of the list and let the lock go -/
  | taken (name : ν) (rt : Nat)
  /-- the list was empty and the parameters were found -/
  | connecting (name : ν)
  | returned
  deriving DecidableEq, Repr

end MySQLManager

open MySQLManager

structure MySQLManager (ν : Type) where
  maxConn : Nat
  conns : List (ν × List Nat)
  /-- the objects that were ever made, by number -/
  mysql : Nat → MySQL
  made : Nat
  /-- what callers have, with the name the deleter is bound to -/
  held : List (ν × Nat)
  deleted : List Nat
  calls : List (Call ν)

namespace MySQLManager

open Runs

variable {ν : Type}

def init (maxConn : Nat) : MySQLManager ν where
  maxConn := maxConn
  conns := []
  mysql _ := {}
  made := 0
  held := []
  deleted := []
  calls := []

/-- `m_conns[name]`. -/
def find [DecidableEq ν] (name : ν) : List (ν × List Nat) → List Nat
  | [] => []
  | (n, l) :: rest => if n = name then l else find name rest

def assign [DecidableEq ν] (name : ν) (l : List Nat) : List (ν × List Nat) → List (ν × List Nat)
  | [] => [(name, l)]
  | (n, l') :: rest => if n = name then (n, l) :: rest else (n, l') :: assign name l rest

/-- The difference of two times in `uint64_t`. -/
def elapsed (now last : Nat) : Nat := (now + 2 ^ 64 - last) % 2 ^ 64

/-- `MySQL::isNeedCheck`. -/
def isNeedCheck (m : MySQL) (now : Nat) : Bool := !(elapsed now m.lastUsedTime < 5 && !m.hasError)

inductive Op (ν : Type) where
  /-- the part of `get` with the lock; `found` is whether there are parameters for the name -/
  | get (name : ν) (found : Bool)
  /-- the checks of a connection that was taken out, with what `ping` and `connect` would return -/
  | check (i now : Nat) (ping connect : Bool)
  /-- `new MySQL` and its `connect` -/
  | create (i now : Nat) (connect : Bool)
  /-- a caller uses its connection, and may find an error -/
  | use (rt : Nat) (hasError : Bool)
  | freeMySQL (name : ν) (m : Nat)
  | checkConnection (now : Nat) (sec : Int)
  deriving DecidableEq, Repr

/-- Why a step has no result. -/
inductive Halt where
  | disabled
  deriving DecidableEq, Repr

def setCall (s : MySQLManager ν) (i : Nat) (c : Call ν) : MySQLManager ν :=
  { s with calls := s.calls.set i c }

/-- `get` returns the connection. -/
def handOut (s : MySQLManager ν) (i : Nat) (name : ν) (rt : Nat) (m : MySQL) : MySQLManager ν :=
  { s with
    mysql := Function.update s.mysql rt m
    held := (name, rt) :: s.held
    calls := s.calls.set i .returned }

/-- The test of `checkConnection`. -/
def isOld (s : MySQLManager ν) (now : Nat) (sec : Int) (m : Nat) : Bool :=
  toInt (elapsed now (s.mysql m).lastUsedTime) ≥ sec

def pooled (s : MySQLManager ν) : List Nat := (s.conns.map Prod.snd).flatten

def step [DecidableEq ν] (s : MySQLManager ν) : Op ν → Except Halt (MySQLManager ν)
  | .get name found =>
    match find name s.conns with
    | rt :: rest =>
      .ok { s with conns := assign name rest s.conns, calls := s.calls ++ [.taken name rt] }
    | [] => .ok { s with calls := s.calls ++ [if found then .connecting name else .returned] }
  | .check i now ping connect =>
    match s.calls[i]? with
    | some (.taken name rt) =>
      let m := s.mysql rt
      if !isNeedCheck m now then .ok (s.handOut i name rt { m with lastUsedTime := now })
      else if m.hasMySQL && ping then
        .ok (s.handOut i name rt { m with hasError := false, lastUsedTime := now })
      else if connect then
        .ok (s.handOut i name rt { hasMySQL := true, hasError := false, lastUsedTime := now })
      else
        .ok { s.setCall i .returned with
          mysql := Function.update s.mysql rt { m with hasError := true } }
    | _ => .error .disabled
  | .create i now connect =>
    match s.calls[i]? with
    | some (.connecting name) =>
      if connect then
        .ok { s.handOut i name s.made { hasMySQL := true, lastUsedTime := now } with
          made := s.made + 1 }
      else
        .ok { s.setCall i .returned with
          mysql := Function.update s.mysql s.made { hasError := true }
          made := s.made + 1
          deleted := s.made :: s.deleted }
    | _ => .error .disabled
  | .use rt hasError =>
    .ok { s with mysql := Function.update s.mysql rt { s.mysql rt with hasError } }
  | .freeMySQL name m =>
    if (name, m) ∈ s.held then
      if (s.mysql m).hasMySQL ∧ (find name s.conns).length < s.maxConn then
        .ok { s with
          conns := assign name (find name s.conns ++ [m]) s.conns
          held := s.held.erase (name, m) }
      else .ok { s with held := s.held.erase (name, m), deleted := m :: s.deleted }
    else .error .disabled
  | .checkConnection now sec =>
    .ok { s with
      conns := s.conns.map fun e => (e.1, e.2.filter fun m => !s.isOld now sec m)
      deleted := s.pooled.filter (s.isOld now sec) ++ s.deleted }

def Step [DecidableEq ν] (s : MySQLManager ν) (op : Op ν) (s' : MySQLManager ν) : Prop := s.step op = .ok s'

/-! ## Places -/

/-- The connection in the hands of a call. -/
def Call.owns : Call ν → List Nat
  | .taken _ rt => [rt]
  | .connecting _ | .returned => []

/-- How often an object is in the lists, with callers, deleted, or in the hands of a call. -/
def places (s : MySQLManager ν) (m : Nat) : Nat :=
  s.pooled.count m + (s.held.map Prod.snd).count m + s.deleted.count m +
    (s.calls.map fun c => c.owns.count m).sum

/-- Every object that was made is in one place; nothing is in the hands of a call when none is
under way. -/
def Conserved (s : MySQLManager ν) : Prop := ∀ m < s.made, s.places m = 1

def Bounded (s : MySQLManager ν) : Prop := ∀ e ∈ s.conns, e.2.length ≤ s.maxConn

/-- No call of `get` is under way. -/
def Quiet (s : MySQLManager ν) : Prop := ∀ c ∈ s.calls, c = .returned

instance [DecidableEq ν] (s : MySQLManager ν) : Decidable (Quiet s) :=
  inferInstanceAs (Decidable (∀ c ∈ s.calls, c = .returned))

/-- Every object that was made is in one list once, or with a caller, or deleted. -/
def Placed (s : MySQLManager ν) : Prop :=
  ∀ m < s.made, s.pooled.count m + (s.held.map Prod.snd).count m + s.deleted.count m = 1

/-- A connection that was taken out needs no check, or can ping, or can connect again. -/
def Recovers (s : MySQLManager ν) : Op ν → Prop
  | .check i now ping connect =>
    ∀ name rt, s.calls[i]? = some (.taken name rt) →
      isNeedCheck (s.mysql rt) now = false ∨ ((s.mysql rt).hasMySQL = true ∧ ping = true) ∨
        connect = true
  | _ => True

/-- Nothing is anywhere before it is made. -/
def Fresh (s : MySQLManager ν) : Prop := ∀ m, s.made ≤ m → s.places m = 0

section Lists

variable [DecidableEq ν]

theorem count_assign (name : ν) (l : List Nat) (conns : List (ν × List Nat)) (m : Nat) :
    ((assign name l conns).map Prod.snd).flatten.count m + (find name conns).count m =
      (conns.map Prod.snd).flatten.count m + l.count m := by
  induction conns with
  | nil => simp [assign, find]
  | cons e conns ih =>
    obtain ⟨n, l'⟩ := e
    rw [assign, find]
    split
    · simp only [List.map_cons, List.flatten_cons, List.count_append]
      omega
    · simp only [List.map_cons, List.flatten_cons, List.count_append]
      omega

theorem mem_assign {name : ν} {l : List Nat} {conns : List (ν × List Nat)} {e : ν × List Nat}
    (h : e ∈ assign name l conns) : e ∈ conns ∨ e.2 = l := by
  induction conns with
  | nil =>
    rw [List.mem_singleton.mp h]
    exact .inr rfl
  | cons e' conns ih =>
    obtain ⟨n, l'⟩ := e'
    rw [assign] at h
    split at h
    · rcases List.mem_cons.mp h with rfl | h
      · exact .inr rfl
      · exact .inl (List.mem_cons_of_mem _ h)
    · rcases List.mem_cons.mp h with rfl | h
      · exact .inl List.mem_cons_self
      · exact (ih h).imp_left (List.mem_cons_of_mem _)

theorem find_length_le {name : ν} {n : Nat} {conns : List (ν × List Nat)}
    (h : ∀ e ∈ conns, e.2.length ≤ n) : (find name conns).length ≤ n := by
  induction conns with
  | nil => exact Nat.zero_le n
  | cons e conns ih =>
    obtain ⟨name', l⟩ := e
    rw [find]
    split
    · exact h _ List.mem_cons_self
    · exact ih fun e he => h e (List.mem_cons_of_mem _ he)

end Lists

/-- What a filter keeps and what it throws out. -/
theorem count_filter_split (p : Nat → Bool) (l : List Nat) (m : Nat) :
    (l.filter p).count m + (l.filter fun m => !p m).count m = l.count m := by
  rw [← List.count_append]
  exact (List.filter_append_perm p l).count_eq m

section Keep

variable {s s' : MySQLManager ν}

/-- Every step but the one that loses a connection keeps each in its place; a new one comes
first to the call that makes it. -/
structure Keeps (s s' : MySQLManager ν) : Prop where
  made_le : s.made ≤ s'.made
  old : ∀ m < s.made, s'.places m = s.places m
  new : ∀ m, s.made ≤ m → m < s'.made → s'.places m = s.places m + 1
  later : ∀ m, s'.made ≤ m → s'.places m = s.places m

theorem Conserved.placed (h : Conserved s) (hq : Quiet s) : Placed s := by
  intro m hm
  have hnone : (s.calls.map fun c => c.owns.count m).sum = 0 := by
    rw [List.sum_eq_zero_iff_forall_eq_nat]
    intro n hn
    obtain ⟨c, hc, rfl⟩ := List.mem_map.mp hn
    rw [hq c hc]
    rfl
  have hone := h m hm
  rw [places] at hone
  omega

theorem Keeps.of_places (hmade : s'.made = s.made) (h : ∀ m, s'.places m = s.places m) : Keeps s s' where
  made_le := hmade.ge
  old m _ := h m
  new _ hle hlt := absurd (hmade ▸ hlt) (Nat.not_lt_of_le hle)
  later m _ := h m

theorem Keeps.fresh (hk : Keeps s s') (h : Fresh s) : Fresh s' := by
  intro m hm
  rw [hk.later m hm]
  exact h m (hk.made_le.trans hm)

theorem Keeps.conserved (hk : Keeps s s') (h : Fresh s) (hc : Conserved s) : Conserved s' := by
  intro m hm
  by_cases hold : m < s.made
  · rw [hk.old m hold, hc m hold]
  · have hle : s.made ≤ m := Nat.le_of_not_lt hold
    rw [hk.new m hle hm, h m hle]

theorem places_handOut {i rt : Nat} {name : ν} (hi : s.calls[i]? = some (.taken name rt))
    (x : MySQL) (m : Nat) :
    (s.handOut i name rt x).places m = s.places m := by
  have hsum := sum_map_set (fun c => c.owns.count m) s.calls i _ .returned hi
  have hold : (Call.taken name rt).owns.count m = [rt].count m := rfl
  have hnew : (Call.returned : Call ν).owns.count m = 0 := rfl
  have hcons : ((name, rt) :: s.held).map Prod.snd = [rt] ++ s.held.map Prod.snd := rfl
  rw [places, places, handOut]
  simp only [pooled, hcons, List.count_append]
  omega

variable [DecidableEq ν]

theorem keeps_get {name : ν} {found : Bool} (hs : Step s (.get name found) s') : Keeps s s' := by
  rw [Step, step] at hs
  split at hs
  · rename_i rt rest hfind
    cases hs
    refine .of_places rfl fun m => ?_
    have hcount := count_assign name rest s.conns m
    rw [hfind, ← List.singleton_append, List.count_append] at hcount
    simp only [places, pooled, List.map_append, List.sum_append, List.map_cons, List.map_nil,
      List.sum_cons, List.sum_nil, Call.owns]
    omega
  · cases hs
    refine .of_places rfl fun m => ?_
    have howns : (if found then Call.connecting name else .returned).owns = [] := by
      cases found <;> rfl
    simp only [places, pooled, List.map_append, List.sum_append, List.map_cons, List.map_nil,
      List.sum_cons, List.sum_nil, howns, List.count_nil]
    omega

/-- The four exits of a `get` that found a connection. -/
theorem check_cases {i now : Nat} {ping connect : Bool} (hs : Step s (.check i now ping connect) s') :
    ∃ name rt, s.calls[i]? = some (.taken name rt) ∧
      (Recovers s (.check i now ping connect) ∧ (∃ x, s' = s.handOut i name rt x) ∨
        ¬Recovers s (.check i now ping connect) ∧ s'.made = s.made ∧ s'.conns = s.conns ∧
          s'.maxConn = s.maxConn ∧ ∀ m, s'.places m + [rt].count m = s.places m) := by
  rw [Step, step] at hs
  split at hs
  · rename_i name rt hi
    refine ⟨name, rt, hi, ?_⟩
    have hrecovers : Recovers s (.check i now ping connect) ↔
        isNeedCheck (s.mysql rt) now = false ∨ ((s.mysql rt).hasMySQL = true ∧ ping = true) ∨
          connect = true := by
      rw [Recovers]
      constructor
      · intro h
        exact h name rt hi
      · intro h name' rt' hi'
        obtain ⟨rfl, rfl⟩ : name = name' ∧ rt = rt' := by simpa [hi] using hi'
        exact h
    rw [hrecovers]
    simp only at hs
    split at hs
    · rename_i hneed
      cases hs
      exact .inl ⟨.inl (by simpa using hneed), _, rfl⟩
    · rename_i hneed
      split at hs
      · rename_i hping
        cases hs
        exact .inl ⟨.inr (.inl (by simpa using hping)), _, rfl⟩
      · rename_i hping
        split at hs
        · rename_i hconnect
          cases hs
          exact .inl ⟨.inr (.inr hconnect), _, rfl⟩
        · rename_i hconnect
          cases hs
          refine .inr ⟨?_, rfl, rfl, rfl, ?_⟩
          · rintro (h | h | h)
            · simp [h] at hneed
            · simp [h] at hping
            · exact hconnect h
          · intro m
            have hsum := sum_map_set (fun c => c.owns.count m) s.calls i _ .returned hi
            have hold : (Call.taken name rt).owns.count m = [rt].count m := rfl
            have hnew : (Call.returned : Call ν).owns.count m = 0 := rfl
            rw [places, places]
            simp only [pooled, setCall]
            omega
  · cases hs

theorem keeps_create {i now : Nat} {connect : Bool} (hs : Step s (.create i now connect) s') :
    Keeps s s' := by
  rw [Step, step] at hs
  split at hs
  · rename_i name hi
    have hplaces : s'.made = s.made + 1 ∧ ∀ m, s'.places m = s.places m + [s.made].count m := by
      split at hs
      · cases hs
        refine ⟨rfl, fun m => ?_⟩
        have hsum := sum_map_set (fun c => c.owns.count m) s.calls i _ .returned hi
        have hold : (Call.connecting name).owns.count m = 0 := rfl
        have hnew : (Call.returned : Call ν).owns.count m = 0 := rfl
        have hcons : ((name, s.made) :: s.held).map Prod.snd = [s.made] ++ s.held.map Prod.snd := rfl
        rw [places, places]
        simp only [pooled, handOut, hcons, List.count_append]
        omega
      · cases hs
        refine ⟨rfl, fun m => ?_⟩
        have hsum := sum_map_set (fun c => c.owns.count m) s.calls i _ .returned hi
        have hold : (Call.connecting name).owns.count m = 0 := rfl
        have hnew : (Call.returned : Call ν).owns.count m = 0 := rfl
        have hcons : s.made :: s.deleted = [s.made] ++ s.deleted := rfl
        rw [places, places]
        simp only [pooled, setCall, hcons, List.count_append]
        omega
    obtain ⟨hmade, hplaces⟩ := hplaces
    have hother : ∀ m, m ≠ s.made → s'.places m = s.places m := by
      intro m hne
      rw [hplaces, List.count_singleton, if_neg (by simpa using hne.symm), Nat.add_zero]
    refine ⟨by omega, fun m hm => hother m (by omega), ?_, fun m hm => hother m (by omega)⟩
    intro m hle hlt
    obtain rfl : m = s.made := by omega
    rw [hplaces, List.count_singleton, if_pos (by simp)]
  · cases hs

theorem keeps_freeMySQL {name : ν} {m : Nat} (hs : Step s (.freeMySQL name m) s') : Keeps s s' := by
  rw [Step, step] at hs
  split at hs
  · rename_i hheld
    have hcounts : ∀ m', ((s.held.erase (name, m)).map Prod.snd).count m' + [m].count m' =
        (s.held.map Prod.snd).count m' := by
      intro m'
      rw [((List.perm_cons_erase hheld).map Prod.snd).count_eq, ← List.count_append]
      exact List.perm_append_comm.count_eq m'
    split at hs
    · cases hs
      refine .of_places rfl fun m' => ?_
      have hcount := count_assign name (find name s.conns ++ [m]) s.conns m'
      have hm := hcounts m'
      rw [List.count_append] at hcount
      simp only [places, pooled]
      omega
    · cases hs
      refine .of_places rfl fun m' => ?_
      have hm := hcounts m'
      have hcons : m :: s.deleted = [m] ++ s.deleted := rfl
      simp only [places, pooled, hcons, List.count_append]
      omega
  · cases hs

theorem keeps_checkConnection {now : Nat} {sec : Int} (hs : Step s (.checkConnection now sec) s') :
    Keeps s s' := by
  cases hs
  refine .of_places rfl fun m => ?_
  have hsplit := count_filter_split (s.isOld now sec) s.pooled m
  have hkept : ((s.conns.map fun e => (e.1, e.2.filter fun m => !s.isOld now sec m)).map
      Prod.snd).flatten = s.pooled.filter fun m => !s.isOld now sec m := by
    rw [pooled, List.filter_flatten, List.map_map, List.map_map]
    rfl
  rw [places, places, pooled, hkept]
  simp only [List.count_append]
  omega

/-- A step either keeps every object in its place, or is a `get` that gives up on one. -/
theorem step_cases {op : Op ν} (hs : Step s op s') :
    Recovers s op ∧ Keeps s s' ∨
      ¬Recovers s op ∧ s'.made = s.made ∧ ∃ rt, ∀ m, s'.places m + [rt].count m = s.places m := by
  cases op with
  | get name found => exact .inl ⟨trivial, keeps_get hs⟩
  | create i now connect => exact .inl ⟨trivial, keeps_create hs⟩
  | freeMySQL name m => exact .inl ⟨trivial, keeps_freeMySQL hs⟩
  | checkConnection now sec => exact .inl ⟨trivial, keeps_checkConnection hs⟩
  | use rt hasError =>
    cases hs
    exact .inl ⟨trivial, .of_places rfl fun _ => rfl⟩
  | check i now ping connect =>
    obtain ⟨name, rt, hi, ⟨hrec, x, rfl⟩ | ⟨hrec, hmade, -, -, hplaces⟩⟩ := check_cases hs
    · exact .inl ⟨hrec, .of_places rfl (places_handOut hi x)⟩
    · exact .inr ⟨hrec, hmade, rt, hplaces⟩

theorem fresh_step {op : Op ν} (hf : Fresh s) (hs : Step s op s') : Fresh s' := by
  rcases step_cases hs with ⟨-, hk⟩ | ⟨-, hmade, rt, hplaces⟩
  · exact hk.fresh hf
  · intro m hm
    have hle := hf m (hmade ▸ hm)
    have heq := hplaces m
    omega

/-- An object that is lost is nowhere, though it was made. -/
theorem conserved_step {op : Op ν} (hf : Fresh s) (hc : Conserved s) (hs : Step s op s') :
    Conserved s' ↔ Recovers s op := by
  rcases step_cases hs with ⟨hrec, hk⟩ | ⟨hrec, hmade, rt, hplaces⟩
  · exact iff_of_true (hk.conserved hf hc) hrec
  · refine iff_of_false (fun hc' => ?_) hrec
    have heq := hplaces rt
    rw [List.count_singleton, if_pos (by simp)] at heq
    have hlt : rt < s.made := by
      by_contra hge
      have hzero := hf rt (Nat.le_of_not_lt hge)
      omega
    have hone := hc rt hlt
    have hone' := hc' rt (hmade ▸ hlt)
    omega

theorem bounded_step {op : Op ν} (hb : Bounded s) (hs : Step s op s') : Bounded s' := by
  cases op with
  | get name found =>
    rw [Step, step] at hs
    split at hs
    · rename_i rt rest hfind
      cases hs
      intro e he
      have hle := @find_length_le _ _ name _ _ hb
      rw [hfind, List.length_cons] at hle
      rcases mem_assign he with he | he
      · exact hb e he
      · rw [he]
        exact Nat.le_of_succ_le hle
    · cases hs
      exact hb
  | check i now ping connect =>
    obtain ⟨name, rt, hi, ⟨-, x, rfl⟩ | ⟨-, -, hconns, hmax, -⟩⟩ := check_cases hs
    · exact hb
    · rw [Bounded, hconns, hmax]
      exact hb
  | create i now connect =>
    rw [Step, step] at hs
    split at hs
    · split at hs
      · cases hs
        exact hb
      · cases hs
        exact hb
    · cases hs
  | use rt hasError =>
    cases hs
    exact hb
  | freeMySQL name m =>
    rw [Step, step] at hs
    split at hs
    · split at hs
      · rename_i hroom
        cases hs
        intro e he
        rcases mem_assign he with he | he
        · exact hb e he
        · rw [he, List.length_append, List.length_singleton]
          exact hroom.2
      · cases hs
        exact hb
    · cases hs
  | checkConnection now sec =>
    cases hs
    intro e he
    obtain ⟨e', he', rfl⟩ := List.mem_map.mp he
    exact (List.length_filter_le _ _).trans (hb e' he')

/-- Over a whole run every object stays in one place exactly when each connection that `get` takes
out recovers. When no `get` is under way, that place is a list, a caller, or the deleted ones; and
no list ever has more than `m_maxConn` connections. -/
theorem run_conserved_iff {maxConn : Nat} {t : List (Op ν × MySQLManager ν)}
    (run : Run Step (init maxConn) t) :
    (Always Conserved (init maxConn) t ↔ Meets Recovers (init maxConn) t) ∧
      Always (fun s => (Conserved s → Quiet s → Placed s) ∧ Bounded s) (init maxConn) t := by
  refine ⟨?_, ?_⟩
  · have hfresh : Fresh (init maxConn : MySQLManager ν) := fun _ _ => rfl
    exact always_iff_meets Fresh Conserved Recovers (fun _ _ _ hf _ hs => fresh_step hf hs)
      (fun _ _ _ hf hc hs => conserved_step hf hc hs) run hfresh nofun
  · have hbounded : Always Bounded (init maxConn) t :=
      always_of_step (fun _ _ _ hb hs => bounded_step hb hs) run nofun
    exact hbounded.mono fun s hb => ⟨fun hc hq => hc.placed hq, hb⟩

end Keep

/-- A connection is put back, pings, is put back again and deleted as too old. -/
theorem run_conserved_pinged : ∃ t, Run Step (init 10 : MySQLManager Nat) t ∧
    (last (init 10) t).deleted = [0] ∧ Always Conserved (init 10) t ∧
    Always (fun s => (Conserved s → Quiet s → Placed s) ∧ Bounded s) (init 10) t := by
  have run := run_of_trace (f := step) (s := (init 10 : MySQLManager Nat))
    [.get 3 true, .create 0 100 true, .freeMySQL 3 0, .get 3 true, .check 1 200 true false,
      .use 0 true, .freeMySQL 3 0, .checkConnection 290 30] rfl
  refine ⟨_, run, by decide, (run_conserved_iff run).1.mpr ?_, (run_conserved_iff run).2⟩
  refine ⟨trivial, trivial, trivial, trivial, fun name rt hi => ?_, trivial, trivial, trivial, trivial⟩
  cases hi
  exact .inr (.inl ⟨rfl, rfl⟩)

/-- A connection that was put back can neither ping nor connect: it is nowhere. -/
theorem run_lost_breaks_placed : ∃ t, Run Step (init 10 : MySQLManager Nat) t ∧
    ¬Always (fun s => Quiet s → Placed s) (init 10) t := by
  have run := run_of_trace (f := step) (s := (init 10 : MySQLManager Nat))
    [.get 3 true, .create 0 100 true, .freeMySQL 3 0, .get 3 true, .check 1 200 false false] rfl
  refine ⟨_, run, fun h => ?_⟩
  have hquiet := h.last (by decide) 0 (by decide)
  exact absurd hquiet (by decide)

end MySQLManager

end CxkFramework
