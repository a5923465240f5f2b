import Mathlib.Data.List.Basic
import Mathlib.Tactic.Ring

/-!
# Sequences kept in equal blocks

Slices and in-place updates of a sequence, and how they look when the sequence is cut
into blocks of one size.
-/

namespace CxkFramework.Blocks

variable {α : Type*}

/-- The `n` elements from position `p` on. -/
def slice (xs : List α) (p n : Nat) : List α := (xs.drop p).take n

/-- `xs` with `ys` written over it from position `p` on. -/
def overwrite (xs : List α) (p : Nat) (ys : List α) : List α :=
  xs.take p ++ ys ++ xs.drop (p + ys.length)

theorem length_slice {xs : List α} {p n : Nat} (h : p + n ≤ xs.length) :
    (slice xs p n).length = n := by
  simp only [slice, List.length_take, List.length_drop]
  omega

theorem getElem?_slice {xs : List α} {p n j : Nat} (h : j < n) :
    (slice xs p n)[j]? = xs[p + j]? := by
  rw [slice, List.getElem?_take_of_lt h, List.getElem?_drop]

theorem slice_add (xs : List α) (p m n : Nat) :
    slice xs p (m + n) = slice xs p m ++ slice xs (p + m) n := by
  rw [slice, slice, slice, List.take_add, List.drop_drop]

theorem slice_append_left {xs ys : List α} {p n : Nat} (h : p + n ≤ xs.length) :
    slice (xs ++ ys) p n = slice xs p n := by
  rw [slice, slice, List.drop_append_of_le_length (by omega),
    List.take_append_of_le_length (by rw [List.length_drop]; omega)]

theorem slice_append_right {xs ys : List α} {p n : Nat} (h : xs.length ≤ p) :
    slice (xs ++ ys) p n = slice ys (p - xs.length) n := by
  rw [slice, slice, List.drop_append, List.drop_of_length_le h, List.nil_append]

theorem slice_middle (xs ys zs : List α) : slice (xs ++ (ys ++ zs)) xs.length ys.length = ys := by
  rw [slice, List.drop_left, List.take_left]

/-- A sequence is known from its length and its elements. -/
theorem eq_slice_of_getElem? {xs ys : List α} {p n : Nat} (hx : xs.length = n)
    (hp : p + n ≤ ys.length) (h : ∀ j < n, xs[j]? = ys[p + j]?) : xs = slice ys p n := by
  apply List.ext_getElem?
  intro j
  rcases Nat.lt_or_ge j n with hj | hj
  · rw [h j hj, getElem?_slice hj]
  · rw [List.getElem?_eq_none (by omega), List.getElem?_eq_none (by rw [length_slice hp]; omega)]

theorem length_overwrite {xs ys : List α} {p : Nat} (h : p + ys.length ≤ xs.length) :
    (overwrite xs p ys).length = xs.length := by
  simp only [overwrite, List.length_append, List.length_take, List.length_drop]
  omega

theorem overwrite_append_left {xs ys zs : List α} {p : Nat} (h : p + zs.length ≤ xs.length) :
    overwrite (xs ++ ys) p zs = overwrite xs p zs ++ ys := by
  rw [overwrite, overwrite, List.take_append_of_le_length (by omega),
    List.drop_append_of_le_length h, List.append_assoc, List.append_assoc, List.append_assoc]

/-- An update that runs over the end of the first part goes on at the start of the second. -/
theorem overwrite_append_split {xs ys zs : List α} {p c : Nat} (hp : p + c = xs.length)
    (hc : c ≤ zs.length) :
    overwrite (xs ++ ys) p zs = overwrite xs p (zs.take c) ++ overwrite ys 0 (zs.drop c) := by
  have hlen : (zs.take c).length = c := by simp [hc]
  have hd : xs.drop (p + (zs.take c).length) = [] := List.drop_of_length_le (by omega)
  have hd' : (xs ++ ys).drop (p + zs.length) = ys.drop (zs.length - c) := by
    rw [List.drop_append, List.drop_of_length_le (by omega), List.nil_append]
    congr 1
    omega
  rw [overwrite, overwrite, overwrite, List.take_append_of_le_length (by omega), hd, hd',
    List.take_zero, List.nil_append, List.append_nil, Nat.zero_add, List.length_drop]
  rw [List.append_assoc, List.append_assoc, ← List.append_assoc (zs.take c),
    List.take_append_drop]

theorem overwrite_append_right {xs ys zs : List α} {p : Nat} :
    overwrite (xs ++ ys) (xs.length + p) zs = xs ++ overwrite ys p zs := by
  have hd : (xs ++ ys).drop (xs.length + p + zs.length) = ys.drop (p + zs.length) := by
    rw [Nat.add_assoc, List.drop_append, List.drop_of_length_le (by omega), List.nil_append]
    congr 1
    omega
  rw [overwrite, overwrite, hd, List.take_append, List.take_of_length_le (by omega),
    Nat.add_sub_cancel_left]
  simp [List.append_assoc]

/-! ## Equal blocks -/

/-- All blocks have size `b`. -/
def Uniform (b : Nat) (ns : List (List α)) : Prop := ∀ n ∈ ns, n.length = b

@[simp] theorem uniform_nil (b : Nat) : Uniform b ([] : List (List α)) := by simp [Uniform]

@[simp] theorem uniform_cons {b : Nat} {n : List α} {ns : List (List α)} :
    Uniform b (n :: ns) ↔ n.length = b ∧ Uniform b ns := by simp [Uniform]

@[simp] theorem uniform_append {b : Nat} {ms ns : List (List α)} :
    Uniform b (ms ++ ns) ↔ Uniform b ms ∧ Uniform b ns := by
  simp only [Uniform, List.mem_append]
  constructor
  · intro h
    exact ⟨fun n hn => h n (.inl hn), fun n hn => h n (.inr hn)⟩
  · rintro ⟨h₁, h₂⟩ n (hn | hn)
    · exact h₁ n hn
    · exact h₂ n hn

theorem Uniform.take {b : Nat} {ns : List (List α)} (h : Uniform b ns) (k : Nat) :
    Uniform b (ns.take k) := fun n hn => h n (List.mem_of_mem_take hn)

theorem Uniform.drop {b : Nat} {ns : List (List α)} (h : Uniform b ns) (k : Nat) :
    Uniform b (ns.drop k) := fun n hn => h n (List.mem_of_mem_drop hn)

theorem length_flatten_uniform {b : Nat} {ns : List (List α)} (h : Uniform b ns) :
    ns.flatten.length = b * ns.length := by
  induction ns with
  | nil => rfl
  | cons n ns ih =>
    rw [uniform_cons] at h
    rw [List.flatten_cons, List.length_append, h.1, ih h.2, List.length_cons]
    ring

/-- Block number `k` starts at position `b * k`. -/
theorem flatten_drop_uniform {b : Nat} {ns : List (List α)} (h : Uniform b ns) (k : Nat) :
    (ns.drop k).flatten = ns.flatten.drop (b * k) := by
  induction k generalizing ns with
  | zero => simp
  | succ k ih =>
    cases ns with
    | nil => simp
    | cons n ns =>
      rw [uniform_cons] at h
      rw [List.drop_succ_cons, ih h.2, List.flatten_cons, Nat.mul_succ, Nat.add_comm,
        ← List.drop_drop, List.drop_append_of_le_length h.1.ge, ← h.1, List.drop_length,
        List.nil_append]

/-- A sequence cut into blocks, the last of which may be shorter. -/
def cut (b : Nat) (xs : List α) : List (List α) :=
  (List.range ((xs.length + b - 1) / b)).map (fun i => slice xs (b * i) b)

theorem cut_within {b : Nat} {xs : List α} (h0 : 0 < xs.length) (h : xs.length ≤ b) :
    cut b xs = [xs] := by
  have hone : (xs.length + b - 1) / b = 1 := by
    rw [Nat.div_eq_iff (by omega)]
    omega
  simp only [cut, hone, List.range_one, List.map_cons, List.map_nil, Nat.mul_zero]
  rw [slice, List.drop_zero, List.take_of_length_le h]

theorem cut_append {b : Nat} {xs ys : List α} (hx : xs.length = b) (hy : 0 < ys.length) (hb : 0 < b) :
    cut b (xs ++ ys) = xs :: cut b ys := by
  have hcount : ((xs ++ ys).length + b - 1) / b = (ys.length + b - 1) / b + 1 := by
    rw [← Nat.add_div_right _ hb, List.length_append]
    congr 1
    omega
  rw [cut, hcount, List.range_succ_eq_map, List.map_cons, List.map_map, cut]
  congr 1
  · rw [slice_append_left (by omega), slice, Nat.mul_zero, List.drop_zero,
      List.take_of_length_le hx.le]
  · apply List.map_congr_left
    intro i _
    simp only [Function.comp_apply, Nat.succ_eq_add_one]
    rw [slice_append_right (by rw [hx]; exact Nat.le_mul_of_pos_right b (by omega)), hx,
      Nat.mul_succ, Nat.add_sub_cancel]

theorem flatten_cut {b : Nat} (hb : 0 < b) (xs : List α) : (cut b xs).flatten = xs := by
  induction h : xs.length using Nat.strong_induction_on generalizing xs with
  | _ n ih =>
    rcases Nat.eq_zero_or_pos xs.length with h0 | h0
    · have hnone : (xs.length + b - 1) / b = 0 := Nat.div_eq_of_lt (by omega)
      rw [cut, hnone, List.length_eq_zero_iff.mp h0]
      rfl
    · rcases Nat.lt_or_ge b xs.length with hlt | hge
      · have htake : (xs.take b).length = b := by rw [List.length_take]; omega
        have hdrop : (xs.drop b).length = xs.length - b := List.length_drop
        have hcut := cut_append htake (show 0 < (xs.drop b).length by omega) hb
        rw [List.take_append_drop] at hcut
        rw [hcut, List.flatten_cons, ih (xs.drop b).length (by omega) _ rfl, List.take_append_drop]
      · rw [cut_within h0 hge, List.flatten_singleton]

end CxkFramework.Blocks
