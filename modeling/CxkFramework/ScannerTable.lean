import CxkFramework.Scanner

/-!
# Machines given by a table

The states of a machine are the numbers of the rows of a table. A row is a list of edges, each for
a range of bytes; the first edge that has the byte is taken, and a byte that no edge has is an
error.
-/

namespace CxkFramework.Scanner

/-- A transition for the bytes from `lo` to `hi`. -/
structure Edge (A : Type*) where
  lo : Nat
  hi : Nat
  next : Nat
  actions : List A
  deriving DecidableEq, Repr

namespace Edge

variable {A : Type*}

def has (e : Edge A) (b : UInt8) : Bool := e.lo ≤ b.toNat && b.toNat ≤ e.hi

end Edge

section Table

variable {A : Type*}

/-- The machine of a table. -/
def ofTable (table : List (List (Edge A))) (stops : A → Bool) : Machine Nat A where
  next q b := ((table.getD q []).find? fun e => e.has b).map fun e => (e.next, e.actions)
  stops := stops

/-- A check of every edge of rows for the states from `q` on. -/
def everyEdge (check : Nat → Edge A → Bool) : Nat → List (List (Edge A)) → Bool
  | _, [] => true
  | q, row :: rows => row.all (check q) && everyEdge check (q + 1) rows

theorem of_everyEdge {check : Nat → Edge A → Bool} {q : Nat} {rows : List (List (Edge A))}
    (h : everyEdge check q rows = true) {i : Nat} {e : Edge A} (he : e ∈ rows.getD i []) :
    check (q + i) e = true := by
  induction rows generalizing q i with
  | nil => simp at he
  | cons row rows ih =>
    simp only [everyEdge, Bool.and_eq_true] at h
    cases i with
    | zero => exact List.all_eq_true.mp h.1 e (by simpa using he)
    | succ i =>
      have hrest := @ih (q + 1) h.2 i (by simpa using he)
      rwa [Nat.add_assoc, Nat.add_comm 1 i] at hrest

/-- What holds of every edge of the table holds of every transition. -/
theorem next_of_table {table : List (List (Edge A))} {stops : A → Bool}
    {check : Nat → Edge A → Bool} (h : everyEdge check 0 table = true) {q q' : Nat} {b : UInt8}
    {as : List A} (hnext : (ofTable table stops).next q b = some (q', as)) :
    ∃ e : Edge A, e.next = q' ∧ e.actions = as ∧ e.lo ≤ b.toNat ∧ b.toNat ≤ e.hi ∧
      check q e = true := by
  obtain ⟨e, hfind, he⟩ := Option.map_eq_some_iff.mp hnext
  have hmem := List.mem_of_find?_eq_some hfind
  have hrange := List.find?_some hfind
  simp only [Edge.has, Bool.and_eq_true, decide_eq_true_eq] at hrange
  simp only [Prod.mk.injEq] at he
  have hcheck := of_everyEdge h hmem
  rw [Nat.zero_add] at hcheck
  exact ⟨e, he.1, he.2, hrange.1, hrange.2, hcheck⟩

end Table

/-! ## Large tables -/

section Blocks

variable {A : Type*}

/-- The machine of a table whose rows come in blocks of one size, so that a row is found fast. -/
def ofBlocks (size : Nat) (blocks : List (List (List (Edge A)))) (stops : A → Bool) :
    Machine Nat A where
  next q b := (((blocks.getD (q / size) []).getD (q % size) []).find? fun e => e.has b).map
    fun e => (e.next, e.actions)
  stops := stops

/-- A check of every edge of the blocks, state by state. -/
def everyEdgeOf (check : Nat → Edge A → Bool) (size : Nat)
    (blocks : List (List (List (Edge A)))) : Bool :=
  (List.range (size * blocks.length)).all fun q =>
    ((blocks.getD (q / size) []).getD (q % size) []).all (check q)

theorem of_everyEdgeOf {check : Nat → Edge A → Bool} {size : Nat}
    {blocks : List (List (List (Edge A)))} (hsize : 0 < size)
    (h : everyEdgeOf check size blocks = true) {q : Nat} {e : Edge A}
    (he : e ∈ (blocks.getD (q / size) []).getD (q % size) []) : check q e = true := by
  have hblock : q / size < blocks.length := by
    by_contra hge
    simp [List.getD, List.getElem?_eq_none (Nat.le_of_not_lt hge)] at he
  have hq : q < size * blocks.length := by
    rw [Nat.mul_comm]
    exact (Nat.div_lt_iff_lt_mul hsize).mp hblock
  exact List.all_eq_true.mp (List.all_eq_true.mp h q (List.mem_range.mpr hq)) e he

/-- What holds of every edge of the blocks holds of every transition. -/
theorem next_of_blocks {size : Nat} {blocks : List (List (List (Edge A)))} {stops : A → Bool}
    {check : Nat → Edge A → Bool} (hsize : 0 < size) (h : everyEdgeOf check size blocks = true)
    {q q' : Nat} {b : UInt8} {as : List A}
    (hnext : (ofBlocks size blocks stops).next q b = some (q', as)) :
    ∃ e : Edge A, e.next = q' ∧ e.actions = as ∧ e.lo ≤ b.toNat ∧ b.toNat ≤ e.hi ∧
      check q e = true := by
  obtain ⟨e, hfind, he⟩ := Option.map_eq_some_iff.mp hnext
  have hmem := List.mem_of_find?_eq_some hfind
  have hrange := List.find?_some hfind
  simp only [Edge.has, Bool.and_eq_true, decide_eq_true_eq] at hrange
  simp only [Prod.mk.injEq] at he
  exact ⟨e, he.1, he.2, hrange.1, hrange.2, of_everyEdgeOf hsize h hmem⟩

end Blocks

end CxkFramework.Scanner
