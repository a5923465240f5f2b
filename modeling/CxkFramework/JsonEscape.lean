import Mathlib.Data.List.Basic

/-!
# Escaped strings

`JsonUtil::NeedEscape` and `JsonUtil::Escape`. The string that `Escape` appends to has been resized
to the size of the result before.
-/

namespace CxkFramework.JsonEscape

/-! ## The three switches -/

/-- A case of the switch in `NeedEscape`: form feed, tab, carriage return, newline, backspace, the
double quote and the backslash. -/
def needs : UInt8 → Bool
  | 12 | 9 | 13 | 10 | 8 | 34 | 92 => true
  | _ => false

def needEscape (v : List UInt8) : Bool := v.any needs

/-- What a character adds to `size`. -/
def width : UInt8 → Nat
  | 12 | 9 | 13 | 10 | 8 | 34 | 92 => 2
  | _ => 1

/-- What is appended for a character. -/
def emit : UInt8 → List UInt8
  | 12 => [92, 102]
  | 9 => [92, 116]
  | 13 => [92, 114]
  | 10 => [92, 110]
  | 8 => [92, 98]
  | 34 => [92, 34]
  | 92 => [92, 92]
  | c => [c]

def size (v : List UInt8) : Nat := v.foldl (fun size c => size + width c) 0

def escape (v : List UInt8) : List UInt8 :=
  if size v = v.length then v
  -- `rt.resize(size)`
  else List.replicate (size v) 0 ++ v.flatMap emit

/-! ## What it is for -/

/-- The character that a backslash and a letter stand for. -/
def meaning : UInt8 → Option UInt8
  | 102 => some 12
  | 116 => some 9
  | 114 => some 13
  | 110 => some 10
  | 98 => some 8
  | 34 => some 34
  | 92 => some 92
  | _ => none

/-- The escapes are undone from left to right. -/
def unescape : List UInt8 → List UInt8
  | 92 :: d :: s =>
    match meaning d with
    | some c => c :: unescape s
    | none => 92 :: unescape (d :: s)
  | c :: s => c :: unescape s
  | [] => []

/-- Whether a double quote comes that is not behind the backslash of an escape. -/
def quoted : List UInt8 → Bool
  | 92 :: _ :: s => quoted s
  | c :: s => c == 34 || quoted s
  | [] => false

/-- Nothing but the double quote and the backslash is left of the seven characters. -/
structure Reversible (v e : List UInt8) : Prop where
  back : unescape e = v
  no_control : ∀ c ∈ e, c ∉ ([12, 9, 13, 10, 8] : List UInt8)
  no_quote : quoted e = false
  length_eq : e.length = v.length + v.countP needs
  differs : e ≠ v ↔ needEscape v = true

/-- The three switches list the same characters. -/
theorem switches_agree (c : UInt8) :
    (needs c = true ∧ width c = 2 ∧
        ∃ d, emit c = [92, d] ∧ meaning d = some c ∧ d ∉ ([12, 9, 13, 10, 8] : List UInt8)) ∨
      (needs c = false ∧ width c = 1 ∧ emit c = [c] ∧ c ≠ 92 ∧ c ≠ 34 ∧
        c ∉ ([12, 9, 13, 10, 8] : List UInt8)) := by
  have hall : ∀ i : Fin 256,
      (needs (UInt8.ofNat i) = true ∧ width (UInt8.ofNat i) = 2 ∧
        emit (UInt8.ofNat i) = [92, (emit (UInt8.ofNat i)).getD 1 0] ∧
        meaning ((emit (UInt8.ofNat i)).getD 1 0) = some (UInt8.ofNat i) ∧
        (emit (UInt8.ofNat i)).getD 1 0 ∉ ([12, 9, 13, 10, 8] : List UInt8)) ∨
      (needs (UInt8.ofNat i) = false ∧ width (UInt8.ofNat i) = 1 ∧
        emit (UInt8.ofNat i) = [UInt8.ofNat i] ∧ UInt8.ofNat i ≠ 92 ∧ UInt8.ofNat i ≠ 34 ∧
        UInt8.ofNat i ∉ ([12, 9, 13, 10, 8] : List UInt8)) := by
    set_option maxRecDepth 1000 in decide
  have hc := hall ⟨c.toNat, c.toNat_lt⟩
  simp only [UInt8.ofNat_toNat] at hc
  cases hc with
  | inl h => exact .inl ⟨h.1, h.2.1, _, h.2.2⟩
  | inr h => exact .inr h

theorem unescape_cons {c : UInt8} (h : c ≠ 92) (s : List UInt8) :
    unescape (c :: s) = c :: unescape s := by
  cases s <;> simp [unescape, h]

theorem quoted_cons {c : UInt8} (h : c ≠ 92) (s : List UInt8) :
    quoted (c :: s) = (c == 34 || quoted s) := by
  cases s <;> simp [quoted, h]

theorem size_eq (v : List UInt8) : size v = v.length + v.countP needs := by
  have hfold (n : Nat) :
      v.foldl (fun size c => size + width c) n = n + v.length + v.countP needs := by
    induction v generalizing n with
    | nil => rfl
    | cons c v ih =>
      rw [List.foldl_cons, ih, List.length_cons, List.countP_cons]
      obtain ⟨hneeds, hwidth, -⟩ | ⟨hneeds, hwidth, -⟩ := switches_agree c
      · rw [hneeds, hwidth, if_pos rfl]
        omega
      · rw [hneeds, hwidth, if_neg Bool.false_ne_true]
        omega
  rw [size, hfold, Nat.zero_add]

theorem needEscape_iff (v : List UInt8) : needEscape v = true ↔ 0 < v.countP needs := by
  rw [needEscape, List.any_eq_true, List.countP_pos_iff]

/-! ## The text behind the resized string -/

theorem unescape_emit (v : List UInt8) : unescape (v.flatMap emit) = v := by
  induction v with
  | nil => rfl
  | cons c v ih =>
    obtain ⟨-, -, d, hemit, hmeaning, -⟩ | ⟨-, -, hemit, hc, -⟩ := switches_agree c
    · simp [hemit, unescape, hmeaning, ih]
    · rw [List.flatMap_cons, hemit, List.singleton_append, unescape_cons hc, ih]

theorem emit_no_control (v : List UInt8) :
    ∀ c ∈ v.flatMap emit, c ∉ ([12, 9, 13, 10, 8] : List UInt8) := by
  intro c hc
  obtain ⟨a, -, ha⟩ := List.mem_flatMap.mp hc
  obtain ⟨-, -, d, hemit, -, hd⟩ | ⟨-, -, hemit, -, -, hraw⟩ := switches_agree a
  · rw [hemit, List.mem_pair] at ha
    obtain rfl | rfl := ha
    · decide
    · exact hd
  · rw [hemit, List.mem_singleton] at ha
    rw [ha]
    exact hraw

theorem emit_no_quote (v : List UInt8) : quoted (v.flatMap emit) = false := by
  induction v with
  | nil => rfl
  | cons c v ih =>
    obtain ⟨-, -, d, hemit, -⟩ | ⟨-, -, hemit, hc, hquote, -⟩ := switches_agree c
    · simp [hemit, quoted, ih]
    · rw [List.flatMap_cons, hemit, List.singleton_append, quoted_cons hc, ih]
      simp [hquote]

theorem length_emit (v : List UInt8) :
    (v.flatMap emit).length = v.length + v.countP needs := by
  induction v with
  | nil => rfl
  | cons c v ih =>
    rw [List.flatMap_cons, List.length_append, ih, List.length_cons, List.countP_cons]
    obtain ⟨hneeds, -, d, hemit, -⟩ | ⟨hneeds, -, hemit, -⟩ := switches_agree c
    · simp [hneeds, hemit]
      omega
    · simp [hneeds, hemit]
      omega

/-- A string with none of the seven characters is its own text. -/
theorem emit_eq_self {v : List UInt8} (h : needEscape v = false) : v.flatMap emit = v := by
  rw [needEscape, List.any_eq_false] at h
  induction v with
  | nil => rfl
  | cons c v ih =>
    have hrest := ih fun c' hc' => h c' (List.mem_cons_of_mem c hc')
    have hc := h c List.mem_cons_self
    obtain ⟨hneeds, -⟩ | ⟨-, -, hemit, -⟩ := switches_agree c
    · exact absurd hneeds hc
    · rw [List.flatMap_cons, hemit, hrest, List.singleton_append]

theorem reversible_emit (v : List UInt8) : Reversible v (v.flatMap emit) where
  back := unescape_emit v
  no_control := emit_no_control v
  no_quote := emit_no_quote v
  length_eq := length_emit v
  differs := by
    constructor
    · intro hne
      by_contra hno
      exact hne (emit_eq_self (Bool.eq_false_iff.mpr hno))
    · intro hneed heq
      have hlength := length_emit v
      rw [heq] at hlength
      have hpos := (needEscape_iff v).mp hneed
      omega

theorem escape_plain {v : List UInt8} (h : needEscape v = false) : escape v = v := by
  have hcount : ¬0 < v.countP needs := (needEscape_iff v).not.mp (Bool.eq_false_iff.mp h)
  rw [escape, if_pos (by rw [size_eq]; omega)]

theorem escape_needed {v : List UInt8} (h : needEscape v = true) :
    escape v = List.replicate (size v) 0 ++ v.flatMap emit := by
  have hpos := (needEscape_iff v).mp h
  rw [escape, if_neg (by rw [size_eq]; omega)]

/-- The result is reversible if and only if nothing is to be escaped. Else the right text stands
behind as many zeros. -/
theorem escape_reversible_iff (v : List UInt8) :
    (Reversible v (escape v) ↔ needEscape v = false) ∧
      (needEscape v = true →
        ∃ e, Reversible v e ∧ escape v = List.replicate e.length 0 ++ e) := by
  constructor
  · constructor
    · intro h
      by_contra hno
      have hneed := Bool.not_eq_false _ ▸ hno
      have hlength := h.length_eq
      rw [escape_needed hneed, List.length_append, List.length_replicate, length_emit,
        size_eq] at hlength
      have hpos := (needEscape_iff v).mp hneed
      omega
    · intro hnone
      have hrev := reversible_emit v
      rw [emit_eq_self hnone] at hrev
      rwa [escape_plain hnone]
  · intro hneed
    exact ⟨v.flatMap emit, reversible_emit v, by rw [length_emit, ← size_eq, escape_needed hneed]⟩

/-- A double quote. -/
theorem escape_quote : escape [34] = [0, 0, 92, 34] ∧ ¬Reversible [34] (escape [34]) := by
  refine ⟨rfl, fun h => ?_⟩
  have hlength := h.length_eq
  revert hlength
  decide

theorem escape_reversible_iff_quote :
    ¬Reversible [34] (escape [34]) ∧
      ∃ e, Reversible [34] e ∧ escape [34] = List.replicate e.length 0 ++ e := by
  obtain ⟨hiff, htext⟩ := escape_reversible_iff [34]
  exact ⟨hiff.not.mpr (by decide), htext (by decide)⟩

end CxkFramework.JsonEscape
