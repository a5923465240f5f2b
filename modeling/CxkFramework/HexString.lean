import Mathlib.Tactic

/-!
# Hexadecimal strings

`hexstring_from_data` and `data_from_hexstring` of the hash utilities. The loop back takes two
characters in a round, each through a table of its own; the tables are the same.
-/

namespace CxkFramework

/-- `std::invalid_argument`. -/
structure InvalidArgument where
  what : String
  deriving DecidableEq, Repr

namespace HexString

/-- `(c > 9) ? c + 'a' - 10 : c + '0'`. -/
def digit (c : UInt8) : UInt8 := if c > 9 then c + 97 - 10 else c + 48

/-- One of the tables: what a digit stands for. -/
def value (c : UInt8) : Option UInt8 :=
  if 97 ≤ c ∧ c ≤ 102 then some (c - 97 + 10)
  else if 65 ≤ c ∧ c ≤ 70 then some (c - 65 + 10)
  else if 48 ≤ c ∧ c ≤ 57 then some (c - 48)
  else none

def hexstringFromData : List UInt8 → List UInt8
  | [] => []
  | b :: data => digit ((b >>> 4) &&& 0xf) :: digit (b &&& 0xf) :: hexstringFromData data

def oddLength : InvalidArgument := ⟨"data_from_hexstring length % 2 != 0"⟩

def invalidHexstring : InvalidArgument := ⟨"data_from_hexstring invalid hexstring"⟩

/-- The loop over the string. Behind an odd number of characters, which does not come here, there
is the end of the string, and that is no digit. -/
def decodeLoop : List UInt8 → Except InvalidArgument (List UInt8)
  | [] => .ok []
  | [_] => .error invalidHexstring
  | high :: low :: hexstring =>
    match value high with
    | none => .error invalidHexstring
    | some h =>
      match value low with
      | none => .error invalidHexstring
      | some l =>
        match decodeLoop hexstring with
        | .error e => .error e
        | .ok buf => .ok ((h <<< 4 ||| l) :: buf)

def dataFromHexstring (hexstring : List UInt8) : Except InvalidArgument (List UInt8) :=
  if hexstring.length % 2 ≠ 0 then .error oddLength
  else if hexstring.length = 0 then .ok []
  else decodeLoop hexstring

/-! ## Digits -/

/-- A hexadecimal digit. -/
def IsHexDigit (c : UInt8) : Prop := 48 ≤ c ∧ c ≤ 57 ∨ 65 ≤ c ∧ c ≤ 70 ∨ 97 ≤ c ∧ c ≤ 102

instance (c : UInt8) : Decidable (IsHexDigit c) := inferInstanceAs (Decidable (_ ∨ _))

def toLower (c : UInt8) : UInt8 := if 65 ≤ c ∧ c ≤ 90 then c + 32 else c

/-- The digits of a byte come back. -/
theorem value_digits (b : UInt8) : ∃ h l, value (digit ((b >>> 4) &&& 0xf)) = some h ∧
    value (digit (b &&& 0xf)) = some l ∧ h <<< 4 ||| l = b := by
  have hall : ∀ i : Fin 256,
      (value (digit ((UInt8.ofNat i >>> 4) &&& 0xf))).isSome = true ∧
        (value (digit (UInt8.ofNat i &&& 0xf))).isSome = true ∧
        (value (digit ((UInt8.ofNat i >>> 4) &&& 0xf))).getD 0 <<< 4 |||
          (value (digit (UInt8.ofNat i &&& 0xf))).getD 0 = UInt8.ofNat i := by
    decide +kernel
  obtain ⟨hhigh, hlow, hboth⟩ := hall ⟨b.toNat, b.toNat_lt⟩
  simp only [UInt8.ofNat_toNat] at hhigh hlow hboth
  obtain ⟨h, hh⟩ := Option.isSome_iff_exists.mp hhigh
  obtain ⟨l, hl⟩ := Option.isSome_iff_exists.mp hlow
  rw [hh, hl] at hboth
  exact ⟨h, l, hh, hl, hboth⟩

/-- A digit is told by its value, but for its case. -/
theorem digit_value (c : UInt8) :
    (value c = none ↔ ¬IsHexDigit c) ∧ ∀ v ∈ value c, v < 16 ∧ digit v = toLower c := by
  have hall : ∀ i : Fin 256, (value (UInt8.ofNat i) = none ↔ ¬IsHexDigit (UInt8.ofNat i)) ∧
      (value (UInt8.ofNat i)).all
        (fun v => decide (v < 16 ∧ digit v = toLower (UInt8.ofNat i))) = true := by
    set_option maxRecDepth 1000 in decide
  simpa only [UInt8.ofNat_toNat, Option.all_eq_true, decide_eq_true_eq, Option.mem_def] using
    hall ⟨c.toNat, c.toNat_lt⟩

/-- Two of them make a byte. -/
theorem split_byte {h l : UInt8} (hh : h < 16) (hl : l < 16) :
    ((h <<< 4 ||| l) >>> 4) &&& 0xf = h ∧ (h <<< 4 ||| l) &&& 0xf = l := by
  have hall : ∀ i j : Fin 16,
      ((UInt8.ofNat i <<< 4 ||| UInt8.ofNat j) >>> 4) &&& 0xf = UInt8.ofNat i ∧
        (UInt8.ofNat i <<< 4 ||| UInt8.ofNat j) &&& 0xf = UInt8.ofNat j := by
    decide
  have hboth := hall ⟨h.toNat, UInt8.lt_iff_toNat_lt.mp hh⟩ ⟨l.toNat, UInt8.lt_iff_toNat_lt.mp hl⟩
  simpa only [UInt8.ofNat_toNat] using hboth

/-! ## Strings -/

theorem length_hexstringFromData (x : List UInt8) : (hexstringFromData x).length = 2 * x.length := by
  induction x with
  | nil => rfl
  | cons b x ih =>
    simp only [hexstringFromData, List.length_cons, ih]
    omega

theorem decodeLoop_hexstring (x : List UInt8) : decodeLoop (hexstringFromData x) = .ok x := by
  induction x with
  | nil => rfl
  | cons b x ih =>
    obtain ⟨h, l, hh, hl, hb⟩ := value_digits b
    simp [hexstringFromData, decodeLoop, hh, hl, ih, hb]

theorem dataFromHexstring_hexstring (x : List UInt8) :
    dataFromHexstring (hexstringFromData x) = .ok x := by
  have hlength := length_hexstringFromData x
  rw [dataFromHexstring, if_neg (by omega)]
  split
  · next hzero =>
    have hnil : x = [] := List.length_eq_zero_iff.mp (by omega)
    rw [hnil]
  · exact decodeLoop_hexstring x

/-- What the loop does with any string of even length. -/
theorem decodeLoop_even (s : List UInt8) (heven : s.length % 2 = 0) :
    (∃ e, decodeLoop s = .error e) ∧ (∃ c ∈ s, ¬IsHexDigit c) ∨
      ∃ x, decodeLoop s = .ok x ∧ (∀ c ∈ s, IsHexDigit c) ∧ hexstringFromData x = s.map toLower := by
  induction s using decodeLoop.induct with
  | case1 => exact .inr ⟨[], rfl, by simp, rfl⟩
  | case2 c => simp at heven
  | case3 high low s hhigh =>
    exact .inl ⟨⟨_, by rw [decodeLoop, hhigh]⟩, high, by simp, (digit_value high).1.mp hhigh⟩
  | case4 high low s h hhigh hlow =>
    exact .inl ⟨⟨_, by rw [decodeLoop, hhigh, hlow]⟩, low, by simp, (digit_value low).1.mp hlow⟩
  | case5 high low s h hhigh l hlow e he ih =>
    apply Or.inl
    obtain ⟨-, c, hc, hno⟩ | ⟨x, hx, -⟩ := ih (by simp at heven; omega)
    · exact ⟨⟨e, by simp [decodeLoop, hhigh, hlow, he]⟩, c, by simp [hc], hno⟩
    · rw [he] at hx
      cases hx
  | case6 high low s h hhigh l hlow x hx ih =>
    apply Or.inr
    obtain ⟨⟨e, he⟩, -⟩ | ⟨x', hx', hdigits, hlower⟩ := ih (by simp at heven; omega)
    · rw [hx] at he
      cases he
    · cases hx.symm.trans hx'
      obtain ⟨hh, hdh⟩ := (digit_value high).2 h hhigh
      obtain ⟨hl, hdl⟩ := (digit_value low).2 l hlow
      have hhex (c : UInt8) (v : UInt8) (hv : value c = some v) : IsHexDigit c := by
        by_contra hno
        rw [(digit_value c).1.mpr hno] at hv
        cases hv
      refine ⟨(h <<< 4 ||| l) :: x, by simp [decodeLoop, hhigh, hlow, hx], ?_, ?_⟩
      · simp only [List.mem_cons, forall_eq_or_imp]
        exact ⟨hhex high h hhigh, hhex low l hlow, hdigits⟩
      · simp only [hexstringFromData, List.map_cons, split_byte hh hl, hdh, hdl, hlower]

/-- The two directions against each other: data come back through their string; a string is refused
for its length or for a character, and any other comes back with its letters in lower case. -/
theorem hexstring_codec (x s : List UInt8) :
    dataFromHexstring (hexstringFromData x) = .ok x ∧
      (hexstringFromData x).length = 2 * x.length ∧
      ((∃ e, dataFromHexstring s = .error e) ↔ s.length % 2 = 1 ∨ ∃ c ∈ s, ¬IsHexDigit c) ∧
      ∀ data, dataFromHexstring s = .ok data → hexstringFromData data = s.map toLower := by
  refine ⟨dataFromHexstring_hexstring x, length_hexstringFromData x, ?_⟩
  by_cases hodd : s.length % 2 = 0
  · have hloop : dataFromHexstring s = decodeLoop s := by
      rw [dataFromHexstring, if_neg (by omega)]
      split
      · next hzero =>
        rw [List.length_eq_zero_iff.mp hzero]
        rfl
      · rfl
    rw [hloop]
    obtain ⟨⟨e, he⟩, hno⟩ | ⟨y, hy, hdigits, hlower⟩ := decodeLoop_even s hodd
    · exact ⟨⟨fun _ => .inr hno, fun _ => ⟨e, he⟩⟩, fun data hdata => by rw [he] at hdata; cases hdata⟩
    · constructor
      · constructor
        · rintro ⟨e, he⟩
          rw [hy] at he
          cases he
        · rintro (hlength | ⟨c, hc, hno⟩)
          · omega
          · exact absurd (hdigits c hc) hno
      · intro data hdata
        rw [hy] at hdata
        cases hdata
        exact hlower
  · have herror : dataFromHexstring s = .error oddLength := by rw [dataFromHexstring, if_pos hodd]
    rw [herror]
    exact ⟨⟨fun _ => .inl (by omega), fun _ => ⟨_, rfl⟩⟩, fun data hdata => by cases hdata⟩

end HexString

end CxkFramework
