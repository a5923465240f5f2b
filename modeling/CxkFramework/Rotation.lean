import Mathlib.Data.List.Basic
import Mathlib.Tactic

/-!
# Rotations by a counter that overflows

A search over `n` places looks at `n` consecutive values of a counter, each modulo `n`. A counter
with `M` values starts again at zero, and unless `n` divides `M` the places before that and those
after it do not fit together: some are looked at twice and others not at all.
-/

namespace CxkFramework.Rotation

/-- The place the search looks at in round `i`. -/
def place (M n start i : Nat) : Nat := (start + i) % M % n

/-- The first hit of the search. -/
def search {α : Type*} (M n start : Nat) (hit : Nat → Option α) : Option α :=
  (List.range n).findSome? fun i => hit (place M n start i)

/-- The result of a search of a list: something that passes the test, or nothing if nothing does. -/
def Finds {α : Type*} (test : α → Bool) (l : List α) : Option α → Prop
  | some a => a ∈ l ∧ test a = true
  | none => ∀ a ∈ l, test a = false

/-- The search comes to the place, which is reached after the overflow or before it. -/
def Reaches (M n start p : Nat) : Prop :=
  p + (M - start) < n ∨ (p + n - start % n) % n < M - start

instance (M n start p : Nat) : Decidable (Reaches M n start p) := inferInstanceAs (Decidable (_ ∨ _))

variable {M n start p : Nat}

/-- How far it is from one place to another, going round. -/
theorem distance_lt (hn : 0 < n) : (p + n - start % n) % n < n := Nat.mod_lt _ hn

theorem add_distance (hp : p < n) : (start + (p + n - start % n) % n) % n = p := by
  have hlt := Nat.mod_lt start (Nat.zero_lt_of_lt hp)
  have hshift : (start + (p + n - start % n)) % n = (start % n + (p + n - start % n)) % n :=
    (Nat.mod_add_mod start n _).symm
  rw [Nat.add_mod_mod, hshift, Nat.add_sub_of_le (by omega), Nat.add_mod_right, Nat.mod_eq_of_lt hp]

theorem distance_add {d : Nat} (hd : d < n) : ((start + d) % n + n - start % n) % n = d := by
  have hlt := Nat.mod_lt start (Nat.zero_lt_of_lt hd)
  have hsplit : (start + d) % n = (start % n + d) % n := (Nat.mod_add_mod start n d).symm
  rw [hsplit]
  rcases Nat.lt_or_ge (start % n + d) n with h | h
  · rw [Nat.mod_eq_of_lt h, show start % n + d + n - start % n = d + n by omega, Nat.add_mod_right,
      Nat.mod_eq_of_lt hd]
  · have hround : (start % n + d - n) % n = start % n + d - n := Nat.mod_eq_of_lt (by omega)
    rw [Nat.mod_eq_sub_mod h, hround, show start % n + d - n + n - start % n = d by omega,
      Nat.mod_eq_of_lt hd]

theorem place_before {i : Nat} (hi : start + i < M) : place M n start i = (start + i) % n := by
  rw [place, Nat.mod_eq_of_lt hi]

theorem place_after {i : Nat} (hi : i < n) (hn : n ≤ M) (hle : M ≤ start + i) (hs : start < M) :
    place M n start i = start + i - M := by
  have hcounter : (start + i - M) % M = start + i - M := Nat.mod_eq_of_lt (by omega)
  have hplace : (start + i - M) % n = start + i - M := Nat.mod_eq_of_lt (by omega)
  rw [place, Nat.mod_eq_sub_mod hle, hcounter, hplace]

/-- What the search looks at. -/
theorem exists_place_iff (hs : start < M) (hn : n ≤ M) (hp : p < n) :
    (∃ i < n, place M n start i = p) ↔ Reaches M n start p := by
  constructor
  · rintro ⟨i, hi, rfl⟩
    by_cases hbefore : start + i < M
    · right
      rw [place_before hbefore, distance_add hi]
      omega
    · left
      rw [place_after hi hn (by omega) hs]
      omega
  · rintro (hafter | hbefore)
    · refine ⟨p + (M - start), hafter, ?_⟩
      rw [place_after hafter hn (by omega) hs]
      omega
    · have hround := @distance_lt n start p (Nat.zero_lt_of_lt hp)
      refine ⟨_, hround, ?_⟩
      rw [place_before (by omega), add_distance hp]

/-- Without an overflow the search comes everywhere. -/
theorem reaches_of_le (hle : start + n ≤ M) (hp : p < n) : Reaches M n start p := by
  right
  have hround := @distance_lt n start p (Nat.zero_lt_of_lt hp)
  omega

/-- So it does when the number of places divides that of the counter's values. -/
theorem reaches_of_dvd (hdvd : n ∣ M) (hs : start < M) (hn : n ≤ M) (hp : p < n) :
    Reaches M n start p := by
  rw [← exists_place_iff hs hn hp]
  have hround := @distance_lt n start p (Nat.zero_lt_of_lt hp)
  refine ⟨_, hround, ?_⟩
  rw [place, Nat.mod_mod_of_dvd _ hdvd, add_distance hp]

section Search

variable {α : Type*} {hit : Nat → Option α}

theorem search_eq_none_iff (hs : start < M) (hn : n ≤ M) :
    search M n start hit = none ↔ ∀ p < n, Reaches M n start p → hit p = none := by
  simp only [search, List.findSome?_eq_none_iff, List.mem_range]
  constructor
  · intro hall p hp hreaches
    obtain ⟨i, hi, rfl⟩ := (exists_place_iff hs hn hp).mpr hreaches
    exact hall i hi
  · intro hall i hi
    have hp : place M n start i < n := Nat.mod_lt _ (Nat.zero_lt_of_lt hi)
    exact hall _ hp ((exists_place_iff hs hn hp).mp ⟨i, hi, rfl⟩)

theorem search_eq_some {a : α} (h : search M n start hit = some a) : ∃ p, hit p = some a := by
  obtain ⟨i, -, hi⟩ := List.exists_of_findSome?_eq_some h
  exact ⟨_, hi⟩

/-- A search of a list finds what it should exactly when it comes to something that passes the test,
or when nothing does. -/
theorem search_finds_iff {l : List α} {test : α → Bool} (hs : start < M) (hn : n ≤ M) :
    Finds test l (search M n start fun p => l[p]?.filter test) ↔
      (∀ a ∈ l, test a = false) ∨
        ∃ p < n, ∃ a, l[p]? = some a ∧ test a = true ∧ Reaches M n start p := by
  have hnone : search M n start (fun p => l[p]?.filter test) = none ↔
      ∀ p < n, Reaches M n start p → ∀ a, l[p]? = some a → test a = false := by
    rw [search_eq_none_iff hs hn]
    simp only [Option.filter_eq_none_iff, Bool.not_eq_true]
  cases hsearch : search M n start fun p => l[p]?.filter test with
  | some a =>
    obtain ⟨p, hp⟩ := search_eq_some hsearch
    obtain ⟨hget, htest⟩ := Option.filter_eq_some_iff.mp hp
    refine iff_of_true ⟨List.mem_of_getElem? hget, htest⟩ (.inr ?_)
    by_contra hno
    have hmiss := hnone.mpr fun p hp hreaches a hget => by
      by_contra htest
      exact hno ⟨p, hp, a, hget, by simpa using htest, hreaches⟩
    cases hsearch.symm.trans hmiss
  | none =>
    constructor
    · exact .inl
    · rintro (hall | ⟨p, hp, a, hget, htest, hreaches⟩)
      · exact hall
      · have hfalse := hnone.mp hsearch p hp hreaches a hget
        exact absurd (htest.symm.trans hfalse) (by decide)

end Search

end CxkFramework.Rotation
