import Mathlib.Tactic

/-!
# Searching, cutting and substituting

A search for the first suffix with some property, cuts at the elements with some property, and the
substitution of the leftmost occurrences of a list.
-/

namespace CxkFramework.Substrings

variable {α : Type*}

/-! ## Search -/

/-- The position of the first suffix with the property. -/
def search (P : List α → Bool) : List α → Option Nat
  | [] => if P [] then some 0 else none
  | c :: s => if P (c :: s) then some 0 else (search P s).map (· + 1)

theorem search_some {P : List α → Bool} {s : List α} {k : Nat} (h : search P s = some k) :
    k ≤ s.length ∧ P (s.drop k) = true ∧ ∀ j < k, P (s.drop j) = false := by
  induction s generalizing k with
  | nil =>
    rw [search] at h
    split at h
    · next hP =>
      cases h
      simp [hP]
    · cases h
  | cons c s ih =>
    rw [search] at h
    split at h
    · next hP =>
      cases h
      simp [hP]
    · next hP =>
      obtain ⟨j, hj, rfl⟩ := Option.map_eq_some_iff.mp h
      obtain ⟨hlength, hfound, hbefore⟩ := ih hj
      refine ⟨by simpa using hlength, by simpa using hfound, ?_⟩
      intro i hi
      cases i with
      | zero => simpa using hP
      | succ i => simpa using hbefore i (by omega)

theorem search_none {P : List α → Bool} {s : List α} (h : search P s = none) :
    ∀ k ≤ s.length, P (s.drop k) = false := by
  induction s with
  | nil =>
    intro k hk
    have hzero : k = 0 := by simpa using hk
    rw [search] at h
    split at h
    · cases h
    · next hP => simpa [hzero] using hP
  | cons c s ih =>
    intro k hk
    rw [search] at h
    split at h
    · cases h
    · next hP =>
      cases k with
      | zero => simpa using hP
      | succ k =>
        have hk' : k ≤ s.length := by simpa using hk
        simpa using ih (Option.map_eq_none_iff.mp h) k hk'

/-- What is in front of the first `c` is determined. -/
theorem cut_unique {c : α} {a a' s s' : List α} (ha : c ∉ a) (ha' : c ∉ a')
    (hs : ∀ d ∈ s.head?, d = c) (hs' : ∀ d ∈ s'.head?, d = c) (h : a ++ s = a' ++ s') :
    a = a' ∧ s = s' := by
  induction a generalizing a' with
  | nil =>
    cases a' with
    | nil => exact ⟨rfl, h⟩
    | cons d a' =>
      rw [List.nil_append] at h
      have hd := hs d (by rw [h]; rfl)
      simp [hd] at ha'
  | cons d a ih =>
    cases a' with
    | nil =>
      rw [List.nil_append] at h
      have hd := hs' d (by rw [← h]; rfl)
      simp [hd] at ha
    | cons d' a' =>
      obtain ⟨rfl, hrest⟩ := List.cons.inj h
      simp only [List.mem_cons, not_or] at ha ha'
      obtain ⟨rfl, rfl⟩ := ih ha.2 ha'.2 hrest
      exact ⟨rfl, rfl⟩

/-! ## Cuts -/

/-- `pieces` are `s` cut at its first elements with the property, `n` of them at most. -/
inductive Cut (p : α → Bool) : Nat → List (List α) → List α → Prop
  | free {n : Nat} {s : List α} : (∀ c ∈ s, p c = false) → Cut p n [s] s
  | limit {s : List α} : Cut p 0 [s] s
  | cut {n : Nat} {piece s : List α} {d : α} {pieces : List (List α)} :
      (∀ c ∈ piece, p c = false) → p d = true → Cut p n pieces s →
      Cut p (n + 1) (piece :: pieces) (piece ++ d :: s)

/-- The pieces with the elements that were found between them. -/
inductive Interleaved (p : α → Bool) : List (List α) → List α → Prop
  | last {s : List α} : Interleaved p [s] s
  | cons {piece s : List α} {d : α} {pieces : List (List α)} :
      p d = true → Interleaved p pieces s → Interleaved p (piece :: pieces) (piece ++ d :: s)

variable {p : α → Bool} {n : Nat} {pieces : List (List α)} {s : List α}

theorem Cut.ne_nil (h : Cut p n pieces s) : pieces ≠ [] := by
  cases h <;> simp

theorem Cut.interleaved (h : Cut p n pieces s) : Interleaved p pieces s := by
  induction h with
  | free => exact .last
  | limit => exact .last
  | cut _ hd _ ih => exact .cons hd ih

theorem Cut.length_le (h : Cut p n pieces s) : pieces.length ≤ n + 1 := by
  induction h with
  | free => simp
  | limit => simp
  | cut _ _ _ ih => simpa using ih

theorem Cut.dropLast_free (h : Cut p n pieces s) :
    ∀ piece ∈ pieces.dropLast, ∀ c ∈ piece, p c = false := by
  induction h with
  | free => simp
  | limit => simp
  | cut hfree _ hrest ih =>
    rw [List.dropLast_cons_of_ne_nil hrest.ne_nil]
    simp only [List.mem_cons, forall_eq_or_imp]
    exact ⟨hfree, ih⟩

/-- As long as there are cuts left, the last piece is free as well. -/
theorem Cut.free_of_lt (h : Cut p n pieces s) (hlt : pieces.length < n + 1) :
    ∀ piece ∈ pieces, ∀ c ∈ piece, p c = false := by
  induction h with
  | free hfree => simpa using hfree
  | limit => simp at hlt
  | cut hfree _ _ ih =>
    simp only [List.mem_cons, forall_eq_or_imp]
    exact ⟨hfree, ih (by simpa using hlt)⟩

theorem Cut.two_le (h : Cut p (n + 1) pieces s) {c : α} (hc : c ∈ s) (hp : p c = true) :
    2 ≤ pieces.length := by
  cases h with
  | free hfree =>
    rw [hfree c hc] at hp
    cases hp
  | cut _ _ hrest =>
    have hpos := List.length_pos_iff.mpr hrest.ne_nil
    simp only [List.length_cons]
    omega

theorem Cut.eq_single (h : Cut p n pieces s) (hfree : ∀ c ∈ s, p c = false) : pieces = [s] := by
  cases h with
  | free => rfl
  | limit => rfl
  | cut _ hd =>
    rw [hfree _ (by simp)] at hd
    cases hd

/-- The pieces of a list cut at one element are joined by it. -/
theorem Interleaved.intercalate [DecidableEq α] {d : α}
    (h : Interleaved (· == d) pieces s) : [d].intercalate pieces = s := by
  induction h with
  | last => simp
  | @cons piece s e pieces he hrest ih =>
    have hne : pieces ≠ [] := by cases hrest <;> simp
    have hed : e = d := by simpa using he
    rw [List.intercalate_cons_of_ne_nil hne, ih, hed]
    simp

/-! ## Substitution -/

/-- `t` is `s` with the leftmost occurrences of `x` that do not overlap replaced by `y`; what was
put in is not looked at again. -/
inductive Substituted (x y : List α) : List α → List α → Prop
  | free {s : List α} : ¬x <:+: s → Substituted x y s s
  | occurs {front s t : List α} : (∀ j < front.length, ¬x <+: (front ++ x ++ s).drop j) →
      Substituted x y s t → Substituted x y (front ++ x ++ s) (front ++ y ++ t)

variable {x y t : List α}

/-- The leftmost occurrence is at one place. -/
theorem front_unique {front front' s s' : List α} (h : front ++ x ++ s = front' ++ x ++ s')
    (hfirst : ∀ j < front.length, ¬x <+: (front ++ x ++ s).drop j)
    (hfirst' : ∀ j < front'.length, ¬x <+: (front' ++ x ++ s').drop j) :
    front = front' ∧ s = s' := by
  have hoccurs (u v : List α) : x <+: (u ++ x ++ v).drop u.length := by
    rw [List.append_assoc, List.drop_left]
    exact List.prefix_append x v
  have hlength : front.length = front'.length := by
    rcases Nat.lt_trichotomy front.length front'.length with hlt | heq | hgt
    · exact absurd (h ▸ hoccurs front s) (hfirst' _ hlt)
    · exact heq
    · exact absurd (h ▸ hoccurs front' s') (hfirst _ hgt)
  rw [List.append_assoc, List.append_assoc] at h
  obtain ⟨hfront, hrest⟩ := List.append_inj h hlength
  exact ⟨hfront, List.append_cancel_left hrest⟩

theorem Substituted.unique (h : Substituted x y s t) {t' : List α} (h' : Substituted x y s t') :
    t' = t := by
  induction h generalizing t' with
  | @free s hfree =>
    cases h' with
    | free => rfl
    | @occurs front s t' => exact absurd ⟨front, s, rfl⟩ hfree
  | @occurs front s t hfirst _ ih =>
    generalize hwhole : front ++ x ++ s = whole at h'
    cases h' with
    | free hfree => exact absurd ⟨front, s, hwhole⟩ hfree
    | occurs hfirst' hrest' =>
      obtain ⟨rfl, rfl⟩ := front_unique hwhole hfirst hfirst'
      rw [ih hrest']

end CxkFramework.Substrings
