import CxkFramework.FdCtx
import CxkFramework.Stream
import Mathlib.Data.List.GetD

/-!
# The contexts of the file descriptors

`FdManager`: `get` looks under the read lock and creates under the write lock, each a step of its
own. A context is known by its place in the heap.
-/

namespace CxkFramework

/-- How far a call of `get` is. -/
inductive FdManager.Stage where
  | started
  /-- behind `lock.unlock()` -/
  | missed
  /-- what it returned, and how many `del` of the descriptor had completed then -/
  | returned (ctx : Option Nat) (dels : Nat)
  deriving DecidableEq, Repr

structure FdManager.Call where
  fd : Nat
  autoCreate : Bool
  /-- how many `del` of the descriptor had completed when the call began -/
  since : Nat
  stage : FdManager.Stage
  deriving DecidableEq, Repr

/-- `m_datas`, the contexts made so far, the calls of `get`, and the descriptors whose `del` has
completed. -/
structure FdManager where
  datas : List (Option Nat)
  heap : List FdCtx
  calls : List FdManager.Call
  deleted : List Nat
  deriving DecidableEq, Repr

namespace FdManager

open Runs

def create : FdManager := ⟨List.replicate 64 none, [], [], []⟩

def dels (s : FdManager) (fd : Nat) : Nat := s.deleted.count fd

/-- `std::vector::resize`. -/
def resize (datas : List (Option Nat)) (n : Nat) : List (Option Nat) :=
  datas.take n ++ List.replicate (n - datas.length) none

/-- The first part of `get`, under the read lock: what it returns, if it returns there. -/
def lookup (s : FdManager) (fd : Nat) (autoCreate : Bool) : Option (Option Nat) :=
  if toInt s.datas.length ≤ fd then
    if autoCreate = false then some none else none
  else if (s.datas.getD fd none).isSome || !autoCreate then some (s.datas.getD fd none)
  else none

/-- `m_datas` before the new context is stored. -/
def grown (s : FdManager) (fd : Nat) : List (Option Nat) :=
  if toInt s.datas.length ≤ fd then resize s.datas (fd * 3 / 2) else s.datas

/-- The second part of `get`, under the write lock. -/
def insert (s : FdManager) (fd : Nat) (ctx : FdCtx) : Option (FdManager × Nat) :=
  if fd < (s.grown fd).length then
    some ({ s with
      datas := (s.grown fd).set fd (some s.heap.length)
      heap := s.heap ++ [ctx] }, s.heap.length)
  else none

def del (s : FdManager) (fd : Nat) : FdManager :=
  if toInt s.datas.length ≤ fd then { s with deleted := fd :: s.deleted }
  else { s with datas := s.datas.set fd none, deleted := fd :: s.deleted }

inductive Label where
  | get (fd : Nat) (autoCreate : Bool)
  | lookup (i : Nat)
  /-- `ctx` is what the constructor of `FdCtx` made of the descriptor. -/
  | insert (i : Nat) (ctx : FdCtx)
  | del (fd : Nat)
  | setTimeOut (i : Nat) (type : SockOpt) (v : UInt64)
  | setUserNoblock (i : Nat) (v : Bool)
  deriving DecidableEq, Repr

/-- Call `i` goes on to `stage`. -/
def goes (s : FdManager) (i : Nat) (c : Call) (stage : Stage) : FdManager :=
  { s with calls := s.calls.set i { c with stage := stage } }

/-- The caller of call `i` changes the context it has. -/
def update (s : FdManager) (i : Nat) (f : FdCtx → FdCtx) : Option FdManager :=
  match s.calls[i]? with
  | some ⟨_, _, _, .returned (some id) _⟩ => some { s with heap := s.heap.modify id f }
  | _ => none

def step (s : FdManager) : Label → Option FdManager
  | .get fd autoCreate =>
    if fd < 2147483648 then
      some { s with calls := s.calls ++ [⟨fd, autoCreate, s.dels fd, .started⟩] }
    else none
  | .lookup i =>
    match s.calls[i]? with
    | some c =>
      if c.stage = .started then
        match s.lookup c.fd c.autoCreate with
        | some ctx => some (s.goes i c (.returned ctx (s.dels c.fd)))
        | none => some (s.goes i c .missed)
      else none
    | none => none
  | .insert i ctx =>
    match s.calls[i]? with
    | some c =>
      if c.stage = .missed then
        match s.insert c.fd ctx with
        | some (s', id) => some (s'.goes i c (.returned (some id) (s.dels c.fd)))
        | none => none
      else none
    | none => none
  | .del fd => some (s.del fd)
  | .setTimeOut i type v => s.update i (.setTimeOut type v)
  | .setUserNoblock i v => s.update i (.setUserNoblock v)

/-- Calls of `get(fd, true)` with no `del(fd)` between their starts and ends return one context, and
a context that a caller has is what `get` finds until the next `del(fd)`. -/
structure OneContext (s : FdManager) : Prop where
  same : ∀ c ∈ s.calls, ∀ d ∈ s.calls, c.fd = d.fd → c.autoCreate = true → d.autoCreate = true →
    ∀ r q, c.stage = .returned r c.since → d.stage = .returned q c.since → d.since = c.since →
      r = q
  stored : ∀ c ∈ s.calls, ∀ id, c.stage = .returned (some id) (s.dels c.fd) →
    ∀ autoCreate, s.lookup c.fd autoCreate = some (some id)

/-- A context is only made where there is none, and `m_datas` stays below 2³¹ entries. -/
def Vacant (s : FdManager) : Label → Prop
  | .insert i _ => ∀ c, s.calls[i]? = some c → s.datas.getD c.fd none = none ∧
      (c.fd < s.datas.length ∨ c.fd * 3 / 2 < 2147483648)
  | _ => True

/-! ## Slots -/

section Slots

variable {s : FdManager} {fd fd' : Nat}

/-- What is stored for the descriptor. -/
def slot (s : FdManager) (fd : Nat) : Option Nat := s.datas.getD fd none

theorem slot_lt {id : Nat} (h : s.slot fd = some id) : fd < s.datas.length := by
  by_contra hge
  rw [slot, List.getD_eq_default _ _ (Nat.le_of_not_lt hge)] at h
  cases h

theorem toInt_length (h : s.datas.length < 2147483648) :
    toInt s.datas.length = s.datas.length := Stream.toInt_of_lt (by omega) (by omega)

/-- While the size is an `int`, `get` finds what is stored. -/
theorem lookup_eq (h : s.datas.length < 2147483648) (fd : Nat) (autoCreate : Bool) :
    s.lookup fd autoCreate =
      if (s.slot fd).isSome || !autoCreate then some (s.slot fd) else none := by
  rw [lookup, toInt_length h]
  by_cases hfd : (s.datas.length : Int) ≤ fd
  · have hslot : s.slot fd = none := List.getD_eq_default _ _ (by omega)
    rw [if_pos hfd, hslot]
    cases autoCreate <;> rfl
  · rw [if_neg hfd]
    rfl

theorem lookup_eq_some {id : Nat} {autoCreate : Bool} (h : s.datas.length < 2147483648) :
    s.lookup fd autoCreate = some (some id) ↔ s.slot fd = some id := by
  rw [lookup_eq h]
  cases s.slot fd <;> simp

theorem getD_resize (datas : List (Option Nat)) (n fd : Nat) (h : datas.length ≤ n) :
    (resize datas n).getD fd none = datas.getD fd none := by
  rw [resize, List.take_of_length_le h]
  simp only [List.getD_eq_getElem?_getD, List.getElem?_append]
  split
  · rfl
  · rename_i hge
    rw [List.getElem?_eq_none (Nat.le_of_not_lt hge), List.getElem?_replicate]
    split <;> rfl

theorem length_resize (datas : List (Option Nat)) (n : Nat) (h : datas.length ≤ n) :
    (resize datas n).length = n := by
  rw [resize, List.take_of_length_le h, List.length_append, List.length_replicate]
  omega

/-- The table never shrinks while its size is an `int`. -/
theorem grown_spec (h : s.datas.length < 2147483648) (hmin : 64 ≤ s.datas.length) (fd : Nat) :
    (∀ fd', (s.grown fd).getD fd' none = s.slot fd') ∧ fd < (s.grown fd).length ∧
      (s.grown fd).length = if fd < s.datas.length then s.datas.length else fd * 3 / 2 := by
  rw [grown, toInt_length h]
  by_cases hfd : (s.datas.length : Int) ≤ fd
  · have hle : s.datas.length ≤ fd * 3 / 2 := by omega
    rw [if_pos hfd, if_neg (by omega), length_resize _ _ hle]
    exact ⟨fun fd' => getD_resize _ _ _ hle, by omega, rfl⟩
  · rw [if_neg hfd, if_pos (by omega)]
    exact ⟨fun fd' => rfl, by omega, rfl⟩

theorem getD_set (datas : List (Option Nat)) (v : Option Nat) (h : fd < datas.length) :
    (datas.set fd v).getD fd' none = if fd = fd' then v else datas.getD fd' none := by
  simp only [List.getD_eq_getElem?_getD, List.getElem?_set, h, if_true]
  split <;> rfl

end Slots

/-! ## The invariant -/

structure Inv (s : FdManager) : Prop where
  size_ge : 64 ≤ s.datas.length
  size_lt : s.datas.length < 2147483648
  fd_lt : ∀ c ∈ s.calls, c.fd < 2147483648
  /-- a context in the table has been made -/
  fresh : ∀ fd id, s.slot fd = some id → id < s.heap.length
  /-- and a caller has it -/
  owned : ∀ fd id, s.slot fd = some id →
    ∃ c ∈ s.calls, c.fd = fd ∧ c.stage = .returned (some id) (s.dels fd)
  past : ∀ c ∈ s.calls, ∀ r n, c.stage = .returned r n → n ≤ s.dels c.fd
  found : ∀ c ∈ s.calls, ∀ id, c.stage = .returned (some id) (s.dels c.fd) →
    s.slot c.fd = some id
  made : ∀ c ∈ s.calls, c.autoCreate = true → ∀ n, c.stage ≠ .returned none n
  agree : ∀ c ∈ s.calls, ∀ d ∈ s.calls, c.fd = d.fd → ∀ n r q,
    c.stage = .returned (some r) n → d.stage = .returned (some q) n → r = q

section Inv

variable {s s' : FdManager} {i : Nat} {c : Call} {stage : Stage}

theorem Inv.oneContext (h : Inv s) : OneContext s where
  same c hc d hd hfd hauto hauto' r q hr hq hsince := by
    cases r with
    | none => exact absurd hr (h.made c hc hauto _)
    | some r =>
      cases q with
      | none => exact absurd hq (h.made d hd hauto' _)
      | some q => rw [h.agree c hc d hd hfd _ _ _ hr hq]
  stored c hc id hid autoCreate := (lookup_eq_some h.size_lt).mpr (h.found c hc id hid)

/-- A call that has not returned goes on; if it returns, then with what is stored. -/
theorem Inv.goes (h : Inv s) (hc : s.calls[i]? = some c) (hold : ∀ r n, c.stage ≠ .returned r n)
    (hnew : ∀ r n, stage = .returned r n →
      n = s.dels c.fd ∧ r = s.slot c.fd ∧ (c.autoCreate = true → r ≠ none)) :
    Inv (s.goes i c stage) := by
  have hmem : c ∈ s.calls := List.mem_of_getElem? hc
  have hcases : ∀ d ∈ (s.goes i c stage).calls, d ∈ s.calls ∨ d = { c with stage := stage } :=
    fun d hd => List.mem_or_eq_of_mem_set hd
  constructor
  case size_ge => exact h.size_ge
  case size_lt => exact h.size_lt
  case fresh => exact h.fresh
  case fd_lt =>
    intro d hd
    cases hcases d hd with
    | inl hd => exact h.fd_lt d hd
    | inr hd => rw [hd]; exact h.fd_lt c hmem
  case owned =>
    intro fd id hslot
    obtain ⟨d, hd, hfd, hstage⟩ := h.owned fd id hslot
    refine ⟨d, ?_, hfd, hstage⟩
    obtain ⟨j, hj⟩ := List.mem_iff_getElem?.mp hd
    have hij : i ≠ j := by
      rintro rfl
      rw [hc] at hj
      cases hj
      exact hold _ _ hstage
    apply List.mem_iff_getElem?.mpr
    exact ⟨j, by rw [FdManager.goes, List.getElem?_set_ne hij, hj]⟩
  case past =>
    intro d hd r n hstage
    cases hcases d hd with
    | inl hd => exact h.past d hd r n hstage
    | inr hd =>
      subst hd
      exact (hnew r n hstage).1.le
  case found =>
    intro d hd id hstage
    cases hcases d hd with
    | inl hd => exact h.found d hd id hstage
    | inr hd =>
      subst hd
      exact (hnew _ _ hstage).2.1.symm
  case made =>
    intro d hd hauto n hstage
    cases hcases d hd with
    | inl hd => exact h.made d hd hauto n hstage
    | inr hd =>
      subst hd
      exact (hnew _ _ hstage).2.2 hauto rfl
  case agree =>
    intro d hd e he hfd n r q hr hq
    cases hcases d hd with
    | inl hd =>
      cases hcases e he with
      | inl he => exact h.agree d hd e he hfd n r q hr hq
      | inr he =>
        subst he
        obtain ⟨rfl, hslot, -⟩ := hnew _ _ hq
        have hfound := h.found d hd r (by rw [hr, hfd])
        rw [hfd, ← hslot] at hfound
        exact (Option.some.inj hfound).symm
    | inr hd =>
      subst hd
      obtain ⟨rfl, hslot, -⟩ := hnew _ _ hr
      cases hcases e he with
      | inl he =>
        have hfound := h.found e he q (by rw [hq, ← hfd])
        rw [← hfd, ← hslot] at hfound
        exact Option.some.inj hfound
      | inr he =>
        subst he
        rw [hr] at hq
        cases hq
        rfl

theorem Inv.get (h : Inv s) {fd : Nat} {autoCreate : Bool} (hfd : fd < 2147483648) :
    Inv { s with calls := s.calls ++ [⟨fd, autoCreate, s.dels fd, .started⟩] } := by
  have hcases : ∀ d ∈ s.calls ++ [⟨fd, autoCreate, s.dels fd, .started⟩],
      d ∈ s.calls ∨ d = ⟨fd, autoCreate, s.dels fd, .started⟩ := by
    intro d hd
    rwa [List.mem_append, List.mem_singleton] at hd
  have hold : ∀ d ∈ s.calls ++ [⟨fd, autoCreate, s.dels fd, .started⟩], ∀ r n,
      d.stage = .returned r n → d ∈ s.calls := by
    intro d hd r n hstage
    cases hcases d hd with
    | inl hd => exact hd
    | inr hd =>
      rw [hd] at hstage
      cases hstage
  constructor
  case size_ge => exact h.size_ge
  case size_lt => exact h.size_lt
  case fresh => exact h.fresh
  case fd_lt =>
    intro d hd
    cases hcases d hd with
    | inl hd => exact h.fd_lt d hd
    | inr hd => rw [hd]; exact hfd
  case owned =>
    intro fd id hslot
    obtain ⟨d, hd, hrest⟩ := h.owned fd id hslot
    exact ⟨d, List.mem_append_left _ hd, hrest⟩
  case past => exact fun d hd r n hs => h.past d (hold d hd r n hs) r n hs
  case found => exact fun d hd id hs => h.found d (hold d hd _ _ hs) id hs
  case made => exact fun d hd ha n hs => h.made d (hold d hd _ _ hs) ha n hs
  case agree =>
    exact fun d hd e he hfd n r q hr hq =>
      h.agree d (hold d hd _ _ hr) e (hold e he _ _ hq) hfd n r q hr hq

theorem dels_del (s : FdManager) (fd fd' : Nat) :
    (s.del fd).dels fd' = s.dels fd' + if fd = fd' then 1 else 0 := by
  have hcount : (fd :: s.deleted).count fd' = s.deleted.count fd' + if fd = fd' then 1 else 0 := by
    rw [List.count_cons]
    simp only [beq_iff_eq]
  rw [del]
  split <;> exact hcount

theorem Inv.slot_del (h : Inv s) (fd fd' : Nat) :
    (s.del fd).slot fd' = if fd = fd' then none else s.slot fd' := by
  rw [del, toInt_length h.size_lt]
  by_cases hfd : (s.datas.length : Int) ≤ fd
  · rw [if_pos hfd]
    split
    · rename_i heq
      have hle : s.datas.length ≤ fd' := by omega
      exact List.getD_eq_default _ _ hle
    · rfl
  · rw [if_neg hfd]
    exact getD_set _ _ (by omega)

theorem length_del (s : FdManager) (fd : Nat) :
    (s.del fd).datas.length = s.datas.length ∧ (s.del fd).heap = s.heap ∧
      (s.del fd).calls = s.calls := by
  rw [del]
  split <;> simp

theorem Inv.del (h : Inv s) (fd : Nat) : Inv (s.del fd) := by
  obtain ⟨hlength, hheap, hcalls⟩ := length_del s fd
  constructor
  case size_ge => rw [hlength]; exact h.size_ge
  case size_lt => rw [hlength]; exact h.size_lt
  case fd_lt => rw [hcalls]; exact h.fd_lt
  case fresh =>
    intro fd' id hslot
    rw [h.slot_del] at hslot
    split at hslot
    · cases hslot
    · rw [hheap]
      exact h.fresh fd' id hslot
  case owned =>
    intro fd' id hslot
    rw [h.slot_del] at hslot
    split at hslot
    · cases hslot
    · rename_i hne
      rw [hcalls, dels_del, if_neg hne, Nat.add_zero]
      exact h.owned fd' id hslot
  case past =>
    rw [hcalls]
    intro d hd r n hstage
    have hle := h.past d hd r n hstage
    rw [dels_del]
    omega
  case found =>
    rw [hcalls]
    intro d hd id hstage
    rw [dels_del] at hstage
    rw [h.slot_del]
    split
    · rename_i heq
      rw [if_pos heq] at hstage
      have hle := h.past d hd _ _ hstage
      omega
    · rename_i hne
      rw [if_neg hne, Nat.add_zero] at hstage
      exact h.found d hd id hstage
  case made => rw [hcalls]; exact h.made
  case agree => rw [hcalls]; exact h.agree

/-- What the contexts hold is no part of the invariant. -/
theorem Inv.modify (h : Inv s) (id : Nat) (f : FdCtx → FdCtx) :
    Inv { s with heap := s.heap.modify id f } where
  size_ge := h.size_ge
  size_lt := h.size_lt
  fd_lt := h.fd_lt
  fresh fd id' hslot := by
    rw [List.length_modify]
    exact h.fresh fd id' hslot
  owned := h.owned
  past := h.past
  found := h.found
  made := h.made
  agree := h.agree

theorem Inv.update (h : Inv s) {f : FdCtx → FdCtx} (hs : s.update i f = some s') : Inv s' := by
  rw [FdManager.update] at hs
  split at hs
  · cases hs
    exact h.modify _ f
  · cases hs

/-! ## New contexts -/

/-- The table with the new context. -/
theorem Inv.insert_eq (h : Inv s) (fd : Nat) (ctx : FdCtx) :
    ∃ s', s.insert fd ctx = some (s', s.heap.length) ∧ s'.calls = s.calls ∧
      s'.deleted = s.deleted ∧ s'.heap = s.heap ++ [ctx] ∧
      (∀ fd', s'.slot fd' = if fd = fd' then some s.heap.length else s.slot fd') ∧
      s'.datas.length = if fd < s.datas.length then s.datas.length else fd * 3 / 2 := by
  obtain ⟨hgrown, hlt, hlength⟩ := grown_spec h.size_lt h.size_ge fd
  refine ⟨_, if_pos hlt, rfl, rfl, rfl, ?_, ?_⟩
  · intro fd'
    rw [slot, getD_set _ _ hlt, hgrown]
  · rw [List.length_set, hlength]

/-- A call that makes a context where there is none. -/
theorem Inv.insert (h : Inv s) {ctx : FdCtx} {id : Nat} (hc : s.calls[i]? = some c)
    (hmissed : c.stage = .missed) (hvacant : s.slot c.fd = none)
    (hsize : c.fd < s.datas.length ∨ c.fd * 3 / 2 < 2147483648)
    (hs : s.insert c.fd ctx = some (s', id)) :
    Inv (s'.goes i c (.returned (some id) (s.dels c.fd))) := by
  obtain ⟨_, hinsert, hcalls, hdeleted, hheap, hslot, hlength⟩ := h.insert_eq c.fd ctx
  rw [hs] at hinsert
  cases hinsert
  have hmem : c ∈ s.calls := List.mem_of_getElem? hc
  obtain ⟨hi, -⟩ := List.getElem?_eq_some_iff.mp hc
  have hdels : ∀ fd, s'.dels fd = s.dels fd := fun fd => by rw [dels, hdeleted, dels]
  -- nobody has a context of this descriptor
  have hnone : ∀ d ∈ s.calls, d.fd = c.fd → ∀ id, d.stage ≠ .returned (some id) (s.dels c.fd) := by
    intro d hd hfd id hstage
    have hfound := h.found d hd id (by rw [hfd, hstage])
    rw [hfd, hvacant] at hfound
    cases hfound
  have hcases : ∀ d ∈ (s'.goes i c (.returned (some s.heap.length) (s.dels c.fd))).calls,
      d ∈ s.calls ∨ d = { c with stage := .returned (some s.heap.length) (s.dels c.fd) } := by
    intro d hd
    rw [FdManager.goes, hcalls] at hd
    exact List.mem_or_eq_of_mem_set hd
  constructor
  case size_ge =>
    have hge := h.size_ge
    rw [FdManager.goes, hlength]
    split <;> omega
  case size_lt =>
    have hlt := h.size_lt
    rw [FdManager.goes, hlength]
    split <;> omega
  case fd_lt =>
    intro d hd
    cases hcases d hd with
    | inl hd => exact h.fd_lt d hd
    | inr hd => rw [hd]; exact h.fd_lt c hmem
  case fresh =>
    intro fd id hid
    have hid : s'.slot fd = some id := hid
    rw [hslot] at hid
    rw [FdManager.goes, hheap, List.length_append, List.length_singleton]
    split at hid
    · cases hid
      omega
    · have hlt := h.fresh fd id hid
      omega
  case owned =>
    intro fd id hid
    have hid : s'.slot fd = some id := hid
    rw [hslot] at hid
    have hgoes : ∀ j : Nat, (s'.goes i c (.returned (some s.heap.length) (s.dels c.fd))).calls[j]? =
        if i = j then some { c with stage := .returned (some s.heap.length) (s.dels c.fd) }
        else s.calls[j]? := by
      intro j
      rw [FdManager.goes, hcalls, List.getElem?_set]
      simp [hi]
    split at hid
    · rename_i heq
      cases hid
      refine ⟨{ c with stage := .returned (some s.heap.length) (s.dels c.fd) }, ?_, heq, ?_⟩
      · apply List.mem_of_getElem? (i := i)
        rw [hgoes, if_pos rfl]
      · rw [heq]
        exact congrArg _ (hdels fd).symm
    · obtain ⟨d, hd, hfd, hstage⟩ := h.owned fd id hid
      obtain ⟨j, hj⟩ := List.mem_iff_getElem?.mp hd
      have hij : i ≠ j := by
        rintro rfl
        rw [hc] at hj
        cases hj
        rw [hmissed] at hstage
        cases hstage
      refine ⟨d, ?_, hfd, hstage.trans (congrArg _ (hdels fd).symm)⟩
      apply List.mem_of_getElem? (i := j)
      rw [hgoes, if_neg hij, hj]
  case past =>
    intro d hd r n hstage
    have hle : n ≤ s.dels d.fd := by
      cases hcases d hd with
      | inl hd => exact h.past d hd r n hstage
      | inr hd =>
        rw [hd] at hstage
        cases hstage
        rw [hd]
    exact hle.trans (hdels d.fd).ge
  case found =>
    intro d hd id hstage
    have hstage : d.stage = .returned (some id) (s.dels d.fd) :=
      hstage.trans (congrArg _ (hdels d.fd))
    have hgoal : s'.slot d.fd = some id := by
      rw [hslot]
      cases hcases d hd with
      | inl hd =>
        rw [if_neg fun heq => hnone d hd heq.symm id (by rw [hstage, heq])]
        exact h.found d hd id hstage
      | inr hd =>
        rw [hd] at hstage
        cases hstage
        rw [hd, if_pos rfl]
    exact hgoal
  case made =>
    intro d hd hauto n hstage
    cases hcases d hd with
    | inl hd => exact h.made d hd hauto n hstage
    | inr hd =>
      rw [hd] at hstage
      cases hstage
  case agree =>
    intro d hd e he hfd n r q hr hq
    cases hcases d hd with
    | inl hd =>
      cases hcases e he with
      | inl he => exact h.agree d hd e he hfd n r q hr hq
      | inr he =>
        rw [he] at hq hfd
        cases hq
        exact absurd hr (hnone d hd hfd r)
    | inr hd =>
      rw [hd] at hr hfd
      cases hr
      cases hcases e he with
      | inl he => exact absurd hq (hnone e he hfd.symm q)
      | inr he =>
        rw [he] at hq
        cases hq
        rfl

/-- A context is made where there is one: a caller loses it. -/
theorem Inv.not_oneContext_insert (h : Inv s) {ctx : FdCtx} {id : Nat} (hc : s.calls[i]? = some c)
    (hmissed : c.stage = .missed)
    (hbad : ¬(s.slot c.fd = none ∧ (c.fd < s.datas.length ∨ c.fd * 3 / 2 < 2147483648)))
    (hs : s.insert c.fd ctx = some (s', id)) :
    ¬OneContext (s'.goes i c (.returned (some id) (s.dels c.fd))) := by
  obtain ⟨_, hinsert, hcalls, hdeleted, hheap, hslot, hlength⟩ := h.insert_eq c.fd ctx
  rw [hs] at hinsert
  cases hinsert
  intro hone
  obtain ⟨hi, -⟩ := List.getElem?_eq_some_iff.mp hc
  have hnew : s'.lookup c.fd false = some (some s.heap.length) := by
    apply hone.stored { c with stage := .returned (some s.heap.length) (s.dels c.fd) }
    · apply List.mem_of_getElem? (i := i)
      simp [FdManager.goes, hcalls, hi]
    · exact congrArg _ (congrArg (List.count c.fd) hdeleted.symm)
  cases hfound : s.slot c.fd with
  | some r =>
    -- the caller that has the old context
    obtain ⟨d, hd, hfd, hstage⟩ := h.owned c.fd r hfound
    have hold : s'.lookup d.fd false = some (some r) := by
      apply hone.stored d
      · obtain ⟨j, hj⟩ := List.mem_iff_getElem?.mp hd
        have hij : i ≠ j := by
          rintro rfl
          rw [hc] at hj
          cases hj
          rw [hmissed] at hstage
          cases hstage
        apply List.mem_of_getElem? (i := j)
        rw [FdManager.goes, hcalls, List.getElem?_set_ne hij, hj]
      · rw [hstage, ← hfd]
        exact congrArg _ (congrArg (List.count d.fd) hdeleted.symm)
    rw [hfd, hnew] at hold
    cases hold
    exact absurd (h.fresh _ _ hfound) (lt_irrefl _)
  | none =>
    have hlarge : ¬(c.fd < s.datas.length ∨ c.fd * 3 / 2 < 2147483648) := fun hsize =>
      hbad ⟨hfound, hsize⟩
    have hfd := h.fd_lt c (List.mem_of_getElem? hc)
    rw [if_neg (by omega)] at hlength
    have hint : toInt s'.datas.length = s'.datas.length - 2 ^ 32 :=
      Stream.toInt_of_ge (by omega) (by omega)
    rw [lookup, if_pos (by omega)] at hnew
    cases hnew

theorem slot_create (fd : Nat) : create.slot fd = none := by
  rw [slot, create, List.getD_eq_getElem?_getD, List.getElem?_replicate]
  split <;> rfl

theorem inv_create : Inv create where
  size_ge := le_of_eq rfl
  size_lt := by simp [create]
  fd_lt := by simp [create]
  fresh fd id h := by simp [slot_create] at h
  owned fd id h := by simp [slot_create] at h
  past := by simp [create]
  found := by simp [create]
  made := by simp [create]
  agree := by simp [create]

theorem Inv.lookup (h : Inv s) (hs : step s (.lookup i) = some s') : Inv s' := by
  rw [step] at hs
  split at hs
  · rename_i c hc
    split at hs
    · rename_i hstarted
      have hlookup := lookup_eq h.size_lt c.fd c.autoCreate
      split at hs <;> cases hs
      · rename_i r hr
        rw [hr] at hlookup
        split at hlookup
        · rename_i hfound
          cases hlookup
          refine h.goes hc (by simp [hstarted]) ?_
          rintro r n hstage
          cases hstage
          refine ⟨rfl, rfl, ?_⟩
          intro hauto hnone
          simp [hauto, hnone] at hfound
        · cases hlookup
      · exact h.goes hc (by simp [hstarted]) (by simp)
    · cases hs
  · cases hs

/-- The step of `get` that makes a context, taken apart. -/
theorem step_insert {ctx : FdCtx} (hs : step s (.insert i ctx) = some s') :
    ∃ c s'' id, s.calls[i]? = some c ∧ c.stage = .missed ∧ s.insert c.fd ctx = some (s'', id) ∧
      s' = s''.goes i c (.returned (some id) (s.dels c.fd)) := by
  rw [step] at hs
  split at hs
  · rename_i c hc
    split at hs
    · rename_i hmissed
      split at hs
      · rename_i s'' id hinsert
        cases hs
        exact ⟨c, s'', id, hc, hmissed, hinsert, rfl⟩
      · cases hs
    · cases hs
  · cases hs

theorem inv_step {a : Label} (h : Inv s) (ha : Vacant s a) (hs : step s a = some s') : Inv s' := by
  cases a with
  | get fd autoCreate =>
    rw [step] at hs
    split at hs
    · rename_i hfd
      cases hs
      exact h.get hfd
    · cases hs
  | lookup i => exact h.lookup hs
  | insert i ctx =>
    obtain ⟨c, s'', id, hc, hmissed, hinsert, rfl⟩ := step_insert hs
    obtain ⟨hvacant, hsize⟩ := ha c hc
    exact h.insert hc hmissed hvacant hsize hinsert
  | del fd =>
    rw [step, Option.some.injEq] at hs
    rw [← hs]
    exact h.del fd
  | setTimeOut i type v => exact h.update hs
  | setUserNoblock i v => exact h.update hs

theorem not_oneContext_step {a : Label} (h : Inv s) (ha : ¬Vacant s a)
    (hs : step s a = some s') : ¬OneContext s' := by
  cases a with
  | insert i ctx =>
    obtain ⟨c, s'', id, hc, hmissed, hinsert, rfl⟩ := step_insert hs
    refine h.not_oneContext_insert hc hmissed ?_ hinsert
    rintro ⟨hvacant, hsize⟩
    apply ha
    intro d hd
    rw [hc] at hd
    cases hd
    exact ⟨hvacant, hsize⟩
  | get fd autoCreate => exact absurd trivial ha
  | lookup i => exact absurd trivial ha
  | del fd => exact absurd trivial ha
  | setTimeOut i type v => exact absurd trivial ha
  | setUserNoblock i v => exact absurd trivial ha

/-- There is one context for each descriptor exactly as long as no call makes a second. -/
theorem run_oneContext_iff {t : List (Label × FdManager)}
    (run : Run (fun s a s' => step s a = some s') create t) :
    Always OneContext create t ↔ Meets Vacant create t := by
  refine always_iff_meets_of_inv Inv (fun _ h => h.oneContext) ?_ ?_ run inv_create
  · intro s a s' h ha hs
    exact inv_step h ha hs
  · intro s a s' h ha hs
    exact not_oneContext_step h ha hs

end Inv

/-- A context just made. -/
def plain : FdCtx := ⟨true, true, true, false, false, -1, -1⟩

/-- Two calls of `get(fd, true)` on a table that was created with `n` entries. -/
def racing (fd n : Nat) (slot : Option Nat) (heap : List FdCtx) (c d : Stage) : FdManager :=
  ⟨(List.replicate n none).set fd slot, heap, [⟨fd, true, 0, c⟩, ⟨fd, true, 0, d⟩], []⟩

/-- Two threads miss together; the timeout that the first one sets is not seen. -/
theorem run_two_misses_breaks_oneContext :
    ∃ t, Run (fun s a s' => step s a = some s') create t ∧
      Runs.last create t = racing 5 64 (some 1) [plain.setTimeOut .SO_RCVTIMEO 7, plain]
        (.returned (some 0) 0) (.returned (some 1) 0) ∧
      ¬Always OneContext create t := by
  have run : Run (fun s a s' => step s a = some s') create _ :=
    .cons (a := .get 5 true) rfl (.cons (a := .get 5 true) rfl
      (.cons (a := .lookup 0) (by decide : _ = some (racing 5 64 none [] .missed .started))
      (.cons (a := .lookup 1) (by decide : _ = some (racing 5 64 none [] .missed .missed))
      (.cons (a := .insert 0 plain)
        (by decide : _ = some (racing 5 64 (some 0) [plain] (.returned (some 0) 0) .missed))
      (.cons (a := .setTimeOut 0 .SO_RCVTIMEO 7) rfl
      (.cons (a := .insert 1 plain)
        (by decide : _ = some (racing 5 64 (some 1) [plain.setTimeOut .SO_RCVTIMEO 7, plain]
          (.returned (some 0) 0) (.returned (some 1) 0))) (.nil _)))))))
  refine ⟨_, run, rfl, ?_⟩
  intro h
  have hsame := h.last.same _ (.head _) _ (.tail _ (.head _)) rfl rfl rfl _ _ rfl rfl rfl
  cases hsame

/-- One makes the context of a descriptor behind the end of the table, the other finds it. -/
theorem run_oneContext_found :
    ∃ t, Run (fun s a s' => step s a = some s') create t ∧
      Runs.last create t = racing 70 105 (some 0) [plain]
        (.returned (some 0) 0) (.returned (some 0) 0) ∧
      Always OneContext create t := by
  have run : Run (fun s a s' => step s a = some s') create _ :=
    .cons (a := .get 70 true) rfl (.cons (a := .get 70 true) rfl
      (.cons (a := .lookup 0) (by decide : _ = some (racing 70 64 none [] .missed .started))
      (.cons (a := .insert 0 plain)
        (by decide : _ = some (racing 70 105 (some 0) [plain] (.returned (some 0) 0) .started))
      (.cons (a := .lookup 1)
        (by decide : _ = some (racing 70 105 (some 0) [plain]
          (.returned (some 0) 0) (.returned (some 0) 0))) (.nil _)))))
  refine ⟨_, run, rfl, (run_oneContext_iff run).mpr ?_⟩
  refine ⟨trivial, trivial, trivial, ?_, trivial, trivial⟩
  intro c hc
  cases hc
  exact ⟨rfl, .inr (by decide)⟩

end FdManager

end CxkFramework
