import Mathlib.Data.List.Basic

/-!
# Sets kept in order

A set under a strict order `less`, as the list of its elements from the first to the last. Two
elements are the same to it when neither is less than the other, and `find`, `insert` and
`lowerBound` look at nothing but `less`. The lemmas are for orders in which that means equality.
-/

namespace CxkFramework.OrderedSet

variable {α : Type*}

/-- The part of the set that starts at the first element not less than `x`. -/
def lowerBound (less : α → α → Bool) (x : α) (l : List α) : List α := l.dropWhile (less · x)

/-- The element that is the same as `x`. -/
def find (less : α → α → Bool) (x : α) (l : List α) : Option α :=
  match lowerBound less x l with
  | b :: _ => if less x b then none else some b
  | [] => none

/-- An element that is in the set is not replaced. -/
def insert (less : α → α → Bool) (x : α) : List α → List α
  | [] => [x]
  | b :: l => if less b x then b :: insert less x l else if less x b then x :: b :: l else b :: l

def Sorted (less : α → α → Bool) (l : List α) : Prop := l.Pairwise (fun a b => less a b = true)

/-- The order tells all elements apart. -/
structure StrictTotal (less : α → α → Bool) : Prop where
  irrefl : ∀ a, less a a = false
  trans : ∀ a b c, less a b = true → less b c = true → less a c = true
  total : ∀ a b, less a b = true ∨ a = b ∨ less b a = true

section Order

variable {less : α → α → Bool} {l : List α} {x y : α}

/-- Not less means the other way round, or the same. -/
theorem StrictTotal.of_not_less (h : StrictTotal less) (hxy : less x y = false) :
    x = y ∨ less y x = true := by
  rcases h.total x y with hlt | heq
  · rw [hxy] at hlt
    cases hlt
  · exact heq

theorem Sorted.nodup (h : StrictTotal less) (hl : Sorted less l) : l.Nodup := by
  refine List.Pairwise.imp ?_ hl
  rintro a b hab rfl
  rw [h.irrefl] at hab
  cases hab

/-- The order may change outside of the set. -/
theorem Sorted.congr {less' : α → α → Bool} (hl : Sorted less l)
    (heq : ∀ a ∈ l, ∀ b ∈ l, less' a b = less a b) : Sorted less' l := by
  refine List.Pairwise.imp_of_mem ?_ hl
  intro a b ha hb hab
  rw [heq a ha b hb, hab]

theorem Sorted.erase [DecidableEq α] (hl : Sorted less l) : Sorted less (l.erase x) :=
  List.Pairwise.sublist List.erase_sublist hl

theorem mem_insert_of_not_mem (h : StrictTotal less) (hx : x ∉ l) :
    y ∈ insert less x l ↔ y = x ∨ y ∈ l := by
  induction l with
  | nil => simp [insert]
  | cons b l ih =>
    obtain ⟨hxb, hxl⟩ := List.ne_and_not_mem_of_not_mem_cons hx
    rw [insert]
    split
    · rw [List.mem_cons, ih hxl, List.mem_cons]
      tauto
    · next hbx =>
      have hlt : less x b = true := by
        rcases h.of_not_less (Bool.not_eq_true _ ▸ hbx) with heq | hlt
        · exact absurd heq.symm hxb
        · exact hlt
      rw [if_pos hlt, List.mem_cons]

theorem mem_insert_of_mem (h : StrictTotal less) (hl : Sorted less l) (hx : x ∈ l) :
    insert less x l = l := by
  induction l with
  | nil => cases hx
  | cons b l ih =>
    rw [insert]
    obtain ⟨hb, htail⟩ := List.pairwise_cons.mp hl
    rcases List.mem_cons.mp hx with rfl | hmem
    · rw [if_neg (by simp [h.irrefl]), if_neg (by simp [h.irrefl])]
    · rw [if_pos (hb x hmem), ih htail hmem]

/-- The elements of the set and the new one. -/
theorem mem_insert [DecidableEq α] (h : StrictTotal less) (hl : Sorted less l) :
    y ∈ insert less x l ↔ y = x ∨ y ∈ l := by
  by_cases hx : x ∈ l
  · rw [mem_insert_of_mem h hl hx]
    constructor
    · exact .inr
    · rintro (rfl | hy)
      · exact hx
      · exact hy
  · exact mem_insert_of_not_mem h hx

theorem Sorted.insert [DecidableEq α] (h : StrictTotal less) (hl : Sorted less l) :
    Sorted less (insert less x l) := by
  induction l with
  | nil => simp [OrderedSet.insert, Sorted]
  | cons b l ih =>
    obtain ⟨hb, htail⟩ := List.pairwise_cons.mp hl
    rw [OrderedSet.insert]
    split
    · next hbx =>
      refine List.pairwise_cons.mpr ⟨fun y hy => ?_, ih htail⟩
      rcases (mem_insert h htail).mp hy with rfl | hmem
      · exact hbx
      · exact hb y hmem
    · split
      · next hxb =>
        refine List.pairwise_cons.mpr ⟨fun y hy => ?_, hl⟩
        rcases List.mem_cons.mp hy with rfl | hmem
        · exact hxb
        · exact h.trans x b y hxb (hb y hmem)
      · exact hl

/-- Nothing but the new element comes in. -/
theorem eq_or_mem_of_mem_insert (hy : y ∈ insert less x l) : y = x ∨ y ∈ l := by
  induction l with
  | nil => simpa [insert] using hy
  | cons b l ih =>
    rw [insert] at hy
    split at hy
    · obtain rfl | hy := List.mem_cons.mp hy
      · exact .inr (.head _)
      · obtain rfl | hy := ih hy
        · exact .inl rfl
        · exact .inr (.tail _ hy)
    · split at hy
      · exact List.mem_cons.mp hy
      · exact .inr hy

/-- An order that does not tell all elements apart is kept as well. -/
theorem Sorted.insert_of_trans
    (htrans : ∀ a b c, less a b = true → less b c = true → less a c = true)
    (hl : Sorted less l) : Sorted less (OrderedSet.insert less x l) := by
  induction l with
  | nil => exact List.pairwise_singleton _ _
  | cons b l ih =>
    obtain ⟨hfirst, hrest⟩ := List.pairwise_cons.mp hl
    rw [OrderedSet.insert]
    split
    · rename_i hbx
      apply List.Pairwise.cons
      · intro y hy
        obtain rfl | hy := eq_or_mem_of_mem_insert hy
        · exact hbx
        · exact hfirst y hy
      · exact ih hrest
    · split
      · rename_i hxb
        apply List.Pairwise.cons
        · intro y hy
          obtain rfl | hy := List.mem_cons.mp hy
          · exact hxb
          · exact htrans x b y hxb (hfirst y hy)
        · exact hl
      · exact hl

theorem insert_last (h : ∀ b ∈ l, less b x = true) : insert less x l = l ++ [x] := by
  induction l with
  | nil => rfl
  | cons b l ih =>
    rw [insert, if_pos (h b (.head _)), ih fun c hc => h c (.tail _ hc), List.cons_append]

theorem find_of_mem (h : StrictTotal less) (hl : Sorted less l) (hx : x ∈ l) :
    find less x l = some x := by
  induction l with
  | nil => cases hx
  | cons b l ih =>
    obtain ⟨hb, htail⟩ := List.pairwise_cons.mp hl
    rw [find, lowerBound, List.dropWhile_cons]
    rcases List.mem_cons.mp hx with rfl | hmem
    · rw [if_neg (by simp [h.irrefl])]
      simp only [h.irrefl, Bool.false_eq_true, if_false]
    · rw [if_pos (hb x hmem)]
      exact ih htail hmem

theorem mem_of_find (h : StrictTotal less) (hf : find less x l = some y) : y = x ∧ x ∈ l := by
  rw [find] at hf
  split at hf
  · next b rest hrest =>
    split at hf
    · cases hf
    · next hxb =>
      cases hf
      have hmem : y ∈ l := (List.dropWhile_sublist _).subset (hrest ▸ List.mem_cons_self)
      have hyx : less y x = false := by
        have hhead := List.head?_dropWhile_not (less · x) l
        rw [show List.dropWhile (less · x) l = y :: rest from hrest] at hhead
        simpa using hhead
      rcases h.of_not_less hyx with heq | hlt
      · exact ⟨heq, heq ▸ hmem⟩
      · exact absurd hlt hxb
  · cases hf

end Order

/-! ## Properties of a front part -/

section Front

variable {l : List α} {p : α → Bool}

/-- What is inherited by everything before it holds of a front part, and of nothing else. -/
theorem takeWhile_eq_filter (h : l.Pairwise (fun a b => p b = true → p a = true)) :
    l.takeWhile p = l.filter p := by
  induction l with
  | nil => rfl
  | cons b l ih =>
    obtain ⟨hb, htail⟩ := List.pairwise_cons.mp h
    by_cases hp : p b = true
    · rw [List.takeWhile_cons_of_pos hp, List.filter_cons_of_pos hp, ih htail]
    · have hnone : l.filter p = [] := List.filter_eq_nil_iff.mpr fun y hy hpy => hp (hb y hy hpy)
      rw [List.takeWhile_cons_of_neg hp, List.filter_cons_of_neg hp, hnone]

theorem dropWhile_eq_filter (h : l.Pairwise (fun a b => p b = true → p a = true)) :
    l.dropWhile p = l.filter (fun a => !p a) := by
  induction l with
  | nil => rfl
  | cons b l ih =>
    obtain ⟨hb, htail⟩ := List.pairwise_cons.mp h
    by_cases hp : p b = true
    · rw [List.dropWhile_cons_of_pos hp, List.filter_cons_of_neg (by simp [hp]), ih htail]
    · have hall : l.filter (fun a => !p a) = l := by
        apply List.filter_eq_self.mpr
        intro y hy
        simpa using fun hpy => hp (hb y hy hpy)
      rw [List.dropWhile_cons_of_neg hp, List.filter_cons_of_pos (by simp [hp]), hall]

end Front

end CxkFramework.OrderedSet
