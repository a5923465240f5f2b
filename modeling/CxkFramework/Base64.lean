import Mathlib.Tactic

/-!
# Base64

`base64encode` and `base64decode` of the hash utilities. The decoder writes through a bare pointer
into a string sized beforehand; here a write outside of it has no result.
-/

namespace CxkFramework.Base64

/-! ## The two functions -/

/-- What a character of the alphabet stands for. -/
def value (c : UInt8) : Option Nat :=
  if 65 ≤ c ∧ c ≤ 90 then some (c.toNat - 65)
  else if 97 ≤ c ∧ c ≤ 122 then some (c.toNat - 97 + 26)
  else if 48 ≤ c ∧ c ≤ 57 then some (c.toNat - 48 + 52)
  else if c = 43 then some 62
  else if c = 47 then some 63
  else none

/-- `i`, `padding` and `packed` behind the inner loop, and what lies from `ptr` on. -/
structure Group where
  count : Nat
  padding : Nat
  packed : Nat
  rest : List UInt8
  deriving Repr

/-- The inner loop of the decoder: none where it returns the empty string. -/
def fill : Nat → Nat → Nat → List UInt8 → Option Group
  | i, padding, packed, [] => some ⟨i, padding, packed, []⟩
  | i, padding, packed, c :: rest =>
    if i < 4 then
      if c = 61 then fill (i + 1) (padding + 1) (packed <<< 6) rest
      else if padding > 0 then none
      else
        match value c with
        | none => none
        | some val => fill (i + 1) padding (packed <<< 6 ||| val) rest
    else some ⟨i, padding, packed, c :: rest⟩

/-- `*writeBuf++ = b`, into a buffer of this size. -/
def put (size : Nat) (written : List UInt8) (b : UInt8) : Option (List UInt8) :=
  if written.length < size then some (written ++ [b]) else none

def writeGroup (size : Nat) (written : List UInt8) (g : Group) : Option (List UInt8) := do
  let written ← put size written (UInt8.ofNat (g.packed >>> 16 &&& 0xff))
  let written ← if g.padding ≠ 2 then put size written (UInt8.ofNat (g.packed >>> 8 &&& 0xff))
    else some written
  if g.padding = 0 then put size written (UInt8.ofNat (g.packed &&& 0xff)) else some written

theorem fill_length {i padding packed : Nat} {s : List UInt8} {g : Group}
    (h : fill i padding packed s = some g) : g.count + g.rest.length = i + s.length := by
  induction s generalizing i padding packed with
  | nil =>
    cases h
    rfl
  | cons c s ih =>
    rw [fill] at h
    split at h
    · split at h
      · have hrest := ih h
        simp only [List.length_cons]
        omega
      · split at h
        · cases h
        · split at h
          · cases h
          · have hrest := ih h
            simp only [List.length_cons]
            omega
    · cases h
      rfl

/-- The loop of `base64decode`: none when it writes outside of the buffer. -/
def decodeLoop (size : Nat) (written s : List UInt8) : Option (List UInt8) :=
  match s with
  | [] => some written
  | c :: s =>
    match _hfill : fill 0 0 0 (c :: s) with
    | none => some []
    | some g =>
      if _hcount : g.count ≠ 4 then some []
      else if g.padding > 0 ∧ g.rest ≠ [] then some []
      else if g.padding > 2 then some []
      else
        match writeGroup size written g with
        | none => none
        | some written => decodeLoop size written g.rest
termination_by s.length
decreasing_by
  have hlength := fill_length _hfill
  simp only [List.length_cons] at hlength ⊢
  omega

def base64decode (src : List UInt8) : Option (List UInt8) :=
  decodeLoop (src.length * 3 / 4) [] src

/-- The table of the encoder. -/
def letter (v : Nat) : UInt8 :=
  ("ABCDEFGHIJKLMNOPQRSTUVWXYZabcdefghijklmnopqrstuvwxyz0123456789+/".toList.map fun c =>
    UInt8.ofNat c.toNat).getD v 0

/-- The inner loop of the encoder: `i`, `packed` and the bytes that are left. -/
def gather : Nat → Nat → List UInt8 → Nat × Nat × List UInt8
  | i, packed, [] => (i, packed, [])
  | i, packed, b :: rest =>
    if i < 3 then gather (i + 1) (packed <<< 8 ||| b.toNat) rest else (i, packed, b :: rest)

theorem gather_length (i packed : Nat) (s : List UInt8) :
    (gather i packed s).2.2.length ≤ s.length := by
  induction s generalizing i packed with
  | nil => rfl
  | cons b s ih =>
    rw [gather]
    split
    · have hrest := ih (i + 1) (packed <<< 8 ||| b.toNat)
      simp only [List.length_cons]
      omega
    · rfl

/-- The characters of a group: `packed` is moved up by a byte for each one that is missing. -/
def writeLetters (i packed : Nat) : List UInt8 :=
  let padding := if i = 2 then 1 else if i = 1 then 2 else 0
  let packed := packed <<< (8 * (3 - i))
  [letter (packed >>> 18), letter (packed >>> 12 &&& 0x3f)] ++
    (if padding ≠ 2 then [letter (packed >>> 6 &&& 0x3f)] else []) ++
    (if padding = 0 then [letter (packed &&& 0x3f)] else []) ++ List.replicate padding 61

def base64encode (data : List UInt8) : List UInt8 :=
  match data with
  | [] => []
  | b :: data =>
    writeLetters (gather 0 0 (b :: data)).1 (gather 0 0 (b :: data)).2.1 ++
      base64encode (gather 0 0 (b :: data)).2.2
termination_by data.length
decreasing_by
  have hrest := gather_length 1 b.toNat data
  simp [gather]
  omega

/-! ## Characters and sextets -/

/-- The alphabet of the code. -/
def IsBase64 (c : UInt8) : Prop := value c ≠ none

instance (c : UInt8) : Decidable (IsBase64 c) := inferInstanceAs (Decidable (_ ≠ _))

theorem value_letter {v : Nat} (hv : v < 64) : value (letter v) = some v ∧ letter v ≠ 61 := by
  have hall : ∀ i : Fin 64, value (letter i) = some i.val ∧ letter i ≠ 61 := by
    set_option maxRecDepth 1000 in decide
  exact hall ⟨v, hv⟩

theorem letter_value {c : UInt8} {v : Nat} (h : value c = some v) : v < 64 ∧ letter v = c := by
  have hall : ∀ i : Fin 256, ∀ v ∈ value (UInt8.ofNat i), v < 64 ∧ letter v = UInt8.ofNat i := by
    set_option maxRecDepth 1000 in decide
  have hc := hall ⟨c.toNat, c.toNat_lt⟩
  simp only [UInt8.ofNat_toNat] at hc
  exact hc v h

theorem value_pad : value 61 = none := by decide

theorem or_sextet (packed : Nat) {v : Nat} (hv : v < 64) : packed <<< 6 ||| v = packed * 64 + v := by
  rw [← Nat.shiftLeft_add_eq_or_of_lt hv, Nat.shiftLeft_eq]

theorem or_byte (packed : Nat) (b : UInt8) : packed <<< 8 ||| b.toNat = packed * 256 + b.toNat := by
  rw [← Nat.shiftLeft_add_eq_or_of_lt b.toNat_lt, Nat.shiftLeft_eq]

theorem and_byte (n : Nat) : n &&& 0xff = n % 256 := Nat.and_two_pow_sub_one_eq_mod n 8

theorem and_sextet (n : Nat) : n &&& 0x3f = n % 64 := Nat.and_two_pow_sub_one_eq_mod n 6

/-! ## Groups -/

/-- The bytes of a group. -/
def bytes (packed : Nat) : List UInt8 :=
  [UInt8.ofNat (packed / 65536), UInt8.ofNat (packed / 256), UInt8.ofNat packed]

/-- The value of four sextets. -/
def packed (v₁ v₂ v₃ v₄ : Nat) : Nat := ((v₁ * 64 + v₂) * 64 + v₃) * 64 + v₄

/-- What a text stands for, group by group; only the last one may be padded. -/
inductive Decodes : List UInt8 → List UInt8 → Prop
  | nil : Decodes [] []
  | full {c₁ c₂ c₃ c₄ : UInt8} {v₁ v₂ v₃ v₄ : Nat} {s data : List UInt8} :
      value c₁ = some v₁ → value c₂ = some v₂ → value c₃ = some v₃ → value c₄ = some v₄ →
      Decodes s data →
      Decodes (c₁ :: c₂ :: c₃ :: c₄ :: s) (bytes (packed v₁ v₂ v₃ v₄) ++ data)
  | one {c₁ c₂ c₃ : UInt8} {v₁ v₂ v₃ : Nat} :
      value c₁ = some v₁ → value c₂ = some v₂ → value c₃ = some v₃ →
      Decodes [c₁, c₂, c₃, 61] ((bytes (packed v₁ v₂ v₃ 0)).take 2)
  | two {c₁ c₂ : UInt8} {v₁ v₂ : Nat} :
      value c₁ = some v₁ → value c₂ = some v₂ →
      Decodes [c₁, c₂, 61, 61] ((bytes (packed v₁ v₂ 0 0)).take 1)

/-- What one round of the inner loop does. -/
theorem fill_cases {i padding k : Nat} {c : UInt8} {s : List UInt8} {g : Group} (hi : i < 4)
    (h : fill i padding k (c :: s) = some g) :
    c = 61 ∧ fill (i + 1) (padding + 1) (k * 64) s = some g ∨
      padding = 0 ∧ ∃ v, value c = some v ∧ fill (i + 1) 0 (k * 64 + v) s = some g := by
  rw [fill, if_pos hi] at h
  split at h
  · next hc =>
    rw [Nat.shiftLeft_eq] at h
    exact .inl ⟨hc, h⟩
  · split at h
    · cases h
    · next hpadding =>
      have hzero : padding = 0 := by omega
      subst hzero
      split at h
      · cases h
      · next v hv =>
        rw [or_sextet k (letter_value hv).1] at h
        exact .inr ⟨rfl, v, hv, h⟩

theorem fill_pad {i padding k : Nat} {s : List UInt8} (hi : i < 4) :
    fill i padding k (61 :: s) = fill (i + 1) (padding + 1) (k * 64) s := by
  rw [fill, if_pos hi, if_pos rfl, Nat.shiftLeft_eq]

theorem fill_value {i k v : Nat} {c : UInt8} {s : List UInt8} (hi : i < 4) (h : value c = some v) :
    fill i 0 k (c :: s) = fill (i + 1) 0 (k * 64 + v) s := by
  have hc : c ≠ 61 := by
    rintro rfl
    rw [value_pad] at h
    cases h
  rw [fill, if_pos hi, if_neg hc, if_neg (by omega), h]
  simp only [or_sextet k (letter_value h).1]

theorem fill_end (padding k : Nat) (s : List UInt8) :
    fill 4 padding k s = some ⟨4, padding, k, s⟩ := by
  cases s <;> simp [fill]

/-- Behind a padding character the loop takes nothing else. -/
theorem fill_padded {i padding k : Nat} {s : List UInt8} {g : Group} (hi : i ≤ 4)
    (hpadding : 0 < padding) (h : fill i padding k s = some g) (hcount : g.count = 4) :
    s = List.replicate (4 - i) 61 ++ g.rest ∧ g.padding = padding + (4 - i) := by
  induction s generalizing i padding k with
  | nil =>
    cases h
    simp at hcount
    simp [hcount]
  | cons c s ih =>
    by_cases hlt : i < 4
    · obtain ⟨hc, hnext⟩ | ⟨hzero, -⟩ := fill_cases hlt h
      · obtain ⟨hs, hg⟩ := ih hlt (by omega) hnext
        have hsub : 4 - i = 4 - (i + 1) + 1 := by omega
        rw [hc, hsub, List.replicate_succ, List.cons_append, ← hs]
        exact ⟨rfl, by omega⟩
      · omega
    · have hfour : i = 4 := by omega
      subst hfour
      rw [fill_end] at h
      cases h
      simp

/-- The groups the inner loop fills. -/
theorem fill_four {s : List UInt8} {g : Group} (h : fill 0 0 0 s = some g) (hcount : g.count = 4)
    (hpadding : g.padding ≤ 2) :
    ∃ c₁ c₂ c₃ c₄ v₁ v₂, s = c₁ :: c₂ :: c₃ :: c₄ :: g.rest ∧ value c₁ = some v₁ ∧
      value c₂ = some v₂ ∧
      ((∃ v₃ v₄, value c₃ = some v₃ ∧ value c₄ = some v₄ ∧ g.padding = 0) ∨
        (∃ v₃, value c₃ = some v₃ ∧ c₄ = 61 ∧ g.padding = 1) ∨
        c₃ = 61 ∧ c₄ = 61 ∧ g.padding = 2) := by
  have hlength := fill_length h
  match s, hlength with
  | [], hlength => simp at hlength; omega
  | [_], hlength => simp at hlength; omega
  | [_, _], hlength => simp at hlength; omega
  | [_, _, _], hlength => simp at hlength; omega
  | c₁ :: c₂ :: c₃ :: c₄ :: rest, _ =>
    obtain ⟨-, hpad⟩ | ⟨-, v₁, h₁, h⟩ := fill_cases (by omega) h
    · have hthree := (fill_padded (by omega) (by omega) hpad hcount).2
      omega
    obtain ⟨-, hpad⟩ | ⟨-, v₂, h₂, h⟩ := fill_cases (by omega) h
    · have htwo := (fill_padded (by omega) (by omega) hpad hcount).2
      omega
    obtain ⟨h₃, hpad⟩ | ⟨-, v₃, h₃, h⟩ := fill_cases (by omega) h
    · obtain ⟨hrest, hp⟩ := fill_padded (by omega) (by omega) hpad hcount
      simp at hrest
      exact ⟨c₁, c₂, c₃, c₄, v₁, v₂, by rw [hrest.2], h₁, h₂, .inr (.inr ⟨h₃, hrest.1, by omega⟩)⟩
    obtain ⟨h₄, hpad⟩ | ⟨-, v₄, h₄, h⟩ := fill_cases (by omega) h
    · rw [fill_end] at hpad
      cases hpad
      exact ⟨c₁, c₂, c₃, c₄, v₁, v₂, rfl, h₁, h₂, .inr (.inl ⟨v₃, h₃, h₄, rfl⟩)⟩
    · rw [fill_end] at h
      cases h
      exact ⟨c₁, c₂, c₃, c₄, v₁, v₂, rfl, h₁, h₂, .inl ⟨v₃, v₄, h₃, h₄, rfl⟩⟩

/-! ## The decoder -/

theorem decodeLoop_four {size : Nat} {written s : List UInt8} {g : Group} (hne : s ≠ [])
    (hfill : fill 0 0 0 s = some g) (hcount : g.count = 4)
    (hpadding : g.padding = 0 ∨ g.padding ≤ 2 ∧ g.rest = []) :
    decodeLoop size written s =
      match writeGroup size written g with
      | none => none
      | some written => decodeLoop size written g.rest := by
  cases s with
  | nil => exact absurd rfl hne
  | cons c s =>
    rw [decodeLoop]
    split
    · next h =>
      rw [hfill] at h
      cases h
    · next g' h =>
      rw [hfill] at h
      cases h
      rw [dif_neg (by omega), if_neg (by grind), if_neg (by omega)]

theorem writeGroup_bytes {size : Nat} {written : List UInt8} {g : Group}
    (hpadding : g.padding ≤ 2) (hsize : written.length + 3 - g.padding ≤ size) :
    writeGroup size written g = some (written ++ (bytes g.packed).take (3 - g.padding)) := by
  have hbyte (n k : Nat) : UInt8.ofNat (n >>> k &&& 0xff) = UInt8.ofNat (n / 2 ^ k) := by
    rw [and_byte, Nat.shiftRight_eq_div_pow]
    exact UInt8.ofNat_mod_size
  have hlow : UInt8.ofNat (g.packed &&& 0xff) = UInt8.ofNat g.packed := by
    rw [and_byte]
    exact UInt8.ofNat_mod_size
  rw [writeGroup, hbyte, hbyte, hlow]
  interval_cases hp : g.padding
  · simp [put, bytes, show written.length < size by omega, show written.length + 1 < size by omega,
      show written.length + 1 + 1 < size by omega]
  · simp [put, bytes, show written.length < size by omega, show written.length + 1 < size by omega]
  · simp [put, bytes, show written.length < size by omega]

theorem decodeLoop_nil (size : Nat) (written : List UInt8) :
    decodeLoop size written [] = some written := by
  rw [decodeLoop]

/-- A text that stands for something is decoded, and every byte finds its place. -/
theorem decodeLoop_decodes {s data : List UInt8} (h : Decodes s data) :
    ∀ {size : Nat} {written : List UInt8}, written.length + s.length * 3 / 4 ≤ size →
      decodeLoop size written s = some (written ++ data) := by
  induction h with
  | nil =>
    intro size written hsize
    rw [decodeLoop_nil, List.append_nil]
  | @full c₁ c₂ c₃ c₄ v₁ v₂ v₃ v₄ s data h₁ h₂ h₃ h₄ _ ih =>
    intro size written hsize
    simp only [List.length_cons] at hsize
    have hfill : fill 0 0 0 (c₁ :: c₂ :: c₃ :: c₄ :: s) = some ⟨4, 0, packed v₁ v₂ v₃ v₄, s⟩ := by
      rw [fill_value (by omega) h₁, fill_value (by omega) h₂, fill_value (by omega) h₃,
        fill_value (by omega) h₄, fill_end, packed, Nat.zero_mul, Nat.zero_add]
    rw [decodeLoop_four (by simp) hfill rfl (.inl rfl), writeGroup_bytes (by simp) (by simp; omega)]
    have hnext := @ih size (written ++ bytes (packed v₁ v₂ v₃ v₄)) (by simp [bytes]; omega)
    simp only [List.append_assoc] at hnext
    exact hnext
  | @one c₁ c₂ c₃ v₁ v₂ v₃ h₁ h₂ h₃ =>
    intro size written hsize
    simp at hsize
    have hfill : fill 0 0 0 [c₁, c₂, c₃, 61] = some ⟨4, 1, packed v₁ v₂ v₃ 0, []⟩ := by
      rw [fill_value (by omega) h₁, fill_value (by omega) h₂, fill_value (by omega) h₃,
        fill_pad (by omega), fill_end]
      simp [packed]
    rw [decodeLoop_four (by simp) hfill rfl (.inr ⟨by simp, rfl⟩),
      writeGroup_bytes (by simp) (by simp; omega)]
    exact decodeLoop_nil _ _
  | @two c₁ c₂ v₁ v₂ h₁ h₂ =>
    intro size written hsize
    simp at hsize
    have hfill : fill 0 0 0 [c₁, c₂, 61, 61] = some ⟨4, 2, packed v₁ v₂ 0 0, []⟩ := by
      rw [fill_value (by omega) h₁, fill_value (by omega) h₂, fill_pad (by omega),
        fill_pad (by omega), fill_end]
      simp [packed]
    rw [decodeLoop_four (by simp) hfill rfl (.inr ⟨by simp, rfl⟩),
      writeGroup_bytes (by simp) (by simp; omega)]
    exact decodeLoop_nil _ _

/-- Any other text is answered with the empty string; what was written until then is inside of the
buffer as well. -/
theorem decodeLoop_refused (size : Nat) (written s : List UInt8)
    (hsize : written.length + s.length * 3 / 4 ≤ size) (h : ¬∃ data, Decodes s data) :
    decodeLoop size written s = some [] := by
  induction hn : s.length using Nat.strong_induction_on generalizing written s with
  | _ n ih =>
  rw [decodeLoop.eq_def]
  cases s with
  | nil => exact absurd ⟨[], .nil⟩ h
  | cons c s =>
    dsimp only
    split
    · rfl
    · next g hfill =>
      split
      · rfl
      · next hcount =>
        have hfour : g.count = 4 := by omega
        split
        · rfl
        · next hrest =>
          split
          · rfl
          · next hpadding =>
            obtain ⟨c₁, c₂, c₃, c₄, v₁, v₂, hs, h₁, h₂, hgroup⟩ :=
              fill_four hfill hfour (by omega)
            rw [hs] at h hsize
            simp only [List.length_cons] at hsize
            obtain ⟨v₃, v₄, h₃, h₄, hp⟩ | ⟨v₃, h₃, h₄, hp⟩ | ⟨h₃, h₄, hp⟩ := hgroup
            · rw [writeGroup_bytes (by omega) (by omega), hp]
              apply ih g.rest.length ?_ _ _ ?_ ?_ rfl
              · rw [← hn, hs]
                simp only [List.length_cons]
                omega
              · simp [bytes]
                omega
              · rintro ⟨data, hdata⟩
                exact h ⟨_, .full h₁ h₂ h₃ h₄ hdata⟩
            · have hnil : g.rest = [] := by grind
              rw [hnil, h₄] at h
              exact absurd ⟨_, .one h₁ h₂ h₃⟩ h
            · have hnil : g.rest = [] := by grind
              rw [hnil, h₃, h₄] at h
              exact absurd ⟨_, .two h₁ h₂⟩ h

/-! ## Well-formed texts -/

/-- Whole groups of the alphabet, but for at most two padding characters at the end. -/
def WellFormed (s : List UInt8) : Prop :=
  s.length % 4 = 0 ∧
    ∃ body pad, s = body ++ List.replicate pad 61 ∧ pad ≤ 2 ∧ ∀ c ∈ body, IsBase64 c

theorem Decodes.wellFormed {s data : List UInt8} (h : Decodes s data) : WellFormed s := by
  induction h with
  | nil => exact ⟨rfl, [], 0, rfl, by omega, by simp⟩
  | @full c₁ c₂ c₃ c₄ v₁ v₂ v₃ v₄ s data h₁ h₂ h₃ h₄ _ ih =>
    obtain ⟨hlength, body, pad, hs, hpad, hbody⟩ := ih
    refine ⟨by simp only [List.length_cons]; omega, c₁ :: c₂ :: c₃ :: c₄ :: body, pad,
      by rw [hs]; rfl, hpad, ?_⟩
    simp [IsBase64, h₁, h₂, h₃, h₄]
    exact hbody
  | @one c₁ c₂ c₃ v₁ v₂ v₃ h₁ h₂ h₃ =>
    exact ⟨by simp, [c₁, c₂, c₃], 1, rfl, by omega, by simp [IsBase64, h₁, h₂, h₃]⟩
  | @two c₁ c₂ v₁ v₂ h₁ h₂ =>
    exact ⟨by simp, [c₁, c₂], 2, rfl, by omega, by simp [IsBase64, h₁, h₂]⟩

theorem IsBase64.value {c : UInt8} (h : IsBase64 c) : ∃ v, value c = some v :=
  Option.ne_none_iff_exists'.mp h

/-- By groups of the body. -/
theorem decodes_of_body {pad : Nat} (hpad : pad ≤ 2) : (body : List UInt8) →
    (body.length + pad) % 4 = 0 → (∀ c ∈ body, IsBase64 c) →
      ∃ data, Decodes (body ++ List.replicate pad 61) data
  | [], hlength, _ => by
    have hzero : pad = 0 := by simp at hlength; omega
    rw [hzero]
    exact ⟨_, .nil⟩
  | [_], hlength, _ => by simp at hlength; omega
  | [c₁, c₂], hlength, hbody => by
    have htwo : pad = 2 := by simp at hlength; omega
    obtain ⟨v₁, h₁⟩ := (hbody c₁ (by simp)).value
    obtain ⟨v₂, h₂⟩ := (hbody c₂ (by simp)).value
    rw [htwo]
    exact ⟨_, .two h₁ h₂⟩
  | [c₁, c₂, c₃], hlength, hbody => by
    have hone : pad = 1 := by simp at hlength; omega
    obtain ⟨v₁, h₁⟩ := (hbody c₁ (by simp)).value
    obtain ⟨v₂, h₂⟩ := (hbody c₂ (by simp)).value
    obtain ⟨v₃, h₃⟩ := (hbody c₃ (by simp)).value
    rw [hone]
    exact ⟨_, .one h₁ h₂ h₃⟩
  | c₁ :: c₂ :: c₃ :: c₄ :: body, hlength, hbody => by
    obtain ⟨v₁, h₁⟩ := (hbody c₁ (by simp)).value
    obtain ⟨v₂, h₂⟩ := (hbody c₂ (by simp)).value
    obtain ⟨v₃, h₃⟩ := (hbody c₃ (by simp)).value
    obtain ⟨v₄, h₄⟩ := (hbody c₄ (by simp)).value
    obtain ⟨data, hdata⟩ := decodes_of_body hpad body (by simp at hlength; omega)
      fun c hc => hbody c (by simp [hc])
    exact ⟨_, .full h₁ h₂ h₃ h₄ hdata⟩

theorem decodes_iff (s : List UInt8) : (∃ data, Decodes s data) ↔ WellFormed s := by
  constructor
  · rintro ⟨data, hdata⟩
    exact hdata.wellFormed
  · rintro ⟨hlength, body, pad, rfl, hpad, hbody⟩
    exact decodes_of_body hpad body (by simpa using hlength) hbody

theorem Decodes.ne_nil {s data : List UInt8} (h : Decodes s data) : data = [] ↔ s = [] := by
  cases h with
  | nil => simp
  | full => simp [bytes]
  | one => simp [bytes]
  | two => simp [bytes]

/-! ## The encoder -/

/-- The sextets of a group in the alphabet. -/
def letters (n : Nat) : List UInt8 :=
  [letter (n / 262144), letter (n / 4096 % 64), letter (n / 64 % 64), letter (n % 64)]

/-- The value of three bytes. -/
def packedBytes (a b c : UInt8) : Nat := (a.toNat * 256 + b.toNat) * 256 + c.toNat

theorem writeLetters_eq (n : Nat) :
    writeLetters 3 n = letters n ∧ writeLetters 2 n = (letters (n * 256)).take 3 ++ [61] ∧
      writeLetters 1 n = (letters (n * 65536)).take 2 ++ [61, 61] := by
  simp [writeLetters, letters, and_sextet, Nat.shiftRight_eq_div_pow, Nat.shiftLeft_eq]

theorem gather_end (n : Nat) (s : List UInt8) : gather 3 n s = (3, n, s) := by
  cases s <;> simp [gather]

theorem base64encode_three (a b c : UInt8) (data : List UInt8) :
    base64encode (a :: b :: c :: data) = letters (packedBytes a b c) ++ base64encode data := by
  rw [base64encode]
  simp [gather, or_byte, gather_end, (writeLetters_eq _).1, packedBytes]

theorem base64encode_two (a b : UInt8) :
    base64encode [a, b] = (letters (packedBytes a b 0)).take 3 ++ [61] := by
  rw [base64encode]
  simp [gather, or_byte, (writeLetters_eq _).2.1, packedBytes, base64encode]

theorem base64encode_one (a : UInt8) :
    base64encode [a] = (letters (packedBytes a 0 0)).take 2 ++ [61, 61] := by
  rw [base64encode]
  simp [gather, (writeLetters_eq _).2.2, packedBytes, base64encode, Nat.mul_assoc]

theorem packed_sextets (n : Nat) :
    packed (n / 262144) (n / 4096 % 64) (n / 64 % 64) (n % 64) = n := by
  rw [packed]
  omega

theorem bytes_packedBytes (a b c : UInt8) : bytes (packedBytes a b c) = [a, b, c] := by
  have ha := a.toNat_lt
  have hb := b.toNat_lt
  have hc := c.toNat_lt
  simp only [bytes, packedBytes, List.cons.injEq, and_true, ← UInt8.toNat_inj, UInt8.toNat_ofNat']
  omega

theorem packedBytes_lt (a b c : UInt8) : packedBytes a b c / 262144 < 64 := by
  have ha := a.toNat_lt
  have hb := b.toNat_lt
  have hc := c.toNat_lt
  rw [packedBytes]
  omega

/-- The text of the encoder stands for the bytes it is made from. -/
theorem decodes_base64encode : (x : List UInt8) → Decodes (base64encode x) x
  | [] => by
    rw [base64encode]
    exact .nil
  | [a] => by
    have h := Decodes.two (value_letter (packedBytes_lt a 0 0)).1
      (value_letter (Nat.mod_lt (packedBytes a 0 0 / 4096) (by omega))).1
    have hzero : packedBytes a 0 0 / 64 % 64 = 0 ∧ packedBytes a 0 0 % 64 = 0 := by
      simp only [packedBytes, UInt8.toNat_zero]
      omega
    have hpacked := packed_sextets (packedBytes a 0 0)
    rw [hzero.1, hzero.2] at hpacked
    rw [hpacked, bytes_packedBytes] at h
    rw [base64encode_one]
    exact h
  | [a, b] => by
    have h := Decodes.one (value_letter (packedBytes_lt a b 0)).1
      (value_letter (Nat.mod_lt (packedBytes a b 0 / 4096) (by omega))).1
      (value_letter (Nat.mod_lt (packedBytes a b 0 / 64) (by omega))).1
    have hzero : packedBytes a b 0 % 64 = 0 := by
      simp only [packedBytes, UInt8.toNat_zero]
      omega
    have hpacked := packed_sextets (packedBytes a b 0)
    rw [hzero] at hpacked
    rw [hpacked, bytes_packedBytes] at h
    rw [base64encode_two]
    exact h
  | a :: b :: c :: x => by
    have h := Decodes.full (value_letter (packedBytes_lt a b c)).1
      (value_letter (Nat.mod_lt (packedBytes a b c / 4096) (by omega))).1
      (value_letter (Nat.mod_lt (packedBytes a b c / 64) (by omega))).1
      (value_letter (Nat.mod_lt (packedBytes a b c) (by omega))).1 (decodes_base64encode x)
    rw [packed_sextets, bytes_packedBytes] at h
    rw [base64encode_three]
    exact h

/-- The bits of the last character that no byte takes are zero. -/
def TrailingZero (s : List UInt8) : Prop :=
  ∀ body c pad, s = body ++ c :: List.replicate pad 61 → ∀ v ∈ value c, v % 4 ^ pad = 0

/-- The bytes of four sextets are the letters they came from. -/
theorem letters_packed {c₁ c₂ c₃ c₄ : UInt8} {v₁ v₂ v₃ v₄ : Nat} (h₁ : value c₁ = some v₁)
    (h₂ : value c₂ = some v₂) (h₃ : value c₃ = some v₃) (h₄ : value c₄ = some v₄) :
    letters (packed v₁ v₂ v₃ v₄) = [c₁, c₂, c₃, c₄] := by
  obtain ⟨hv₁, rfl⟩ := letter_value h₁
  obtain ⟨hv₂, rfl⟩ := letter_value h₂
  obtain ⟨hv₃, rfl⟩ := letter_value h₃
  obtain ⟨hv₄, rfl⟩ := letter_value h₄
  have hone : packed v₁ v₂ v₃ v₄ / 262144 = v₁ := by rw [packed]; omega
  have htwo : packed v₁ v₂ v₃ v₄ / 4096 % 64 = v₂ := by rw [packed]; omega
  have hthree : packed v₁ v₂ v₃ v₄ / 64 % 64 = v₃ := by rw [packed]; omega
  have hfour : packed v₁ v₂ v₃ v₄ % 64 = v₄ := by rw [packed]; omega
  rw [letters, hone, htwo, hthree, hfour]

theorem packedBytes_bytes {n : Nat} (hn : n < 16777216) :
    packedBytes (UInt8.ofNat (n / 65536)) (UInt8.ofNat (n / 256)) (UInt8.ofNat n) = n := by
  simp only [packedBytes, UInt8.toNat_ofNat']
  omega

/-- Encoding what a text stands for gives the text again. -/
theorem Decodes.base64encode {s data : List UInt8} (h : Decodes s data) (hzero : TrailingZero s) :
    base64encode data = s := by
  have hlow : value 65 = some 0 := by decide
  induction h with
  | nil => rw [Base64.base64encode]
  | @full c₁ c₂ c₃ c₄ v₁ v₂ v₃ v₄ s data h₁ h₂ h₃ h₄ _ ih =>
    have hv₁ := (letter_value h₁).1
    have hv₂ := (letter_value h₂).1
    have hv₃ := (letter_value h₃).1
    have hv₄ := (letter_value h₄).1
    have htail : TrailingZero s := by
      intro body c pad hs
      exact hzero (c₁ :: c₂ :: c₃ :: c₄ :: body) c pad (by rw [hs]; rfl)
    simp only [bytes, List.cons_append, List.nil_append]
    rw [base64encode_three, packedBytes_bytes (by rw [packed]; omega), letters_packed h₁ h₂ h₃ h₄,
      ih htail]
    rfl
  | @one c₁ c₂ c₃ v₁ v₂ v₃ h₁ h₂ h₃ =>
    have hv₁ := (letter_value h₁).1
    have hv₂ := (letter_value h₂).1
    have hv₃ := (letter_value h₃).1
    have hbits := hzero [c₁, c₂] c₃ 1 rfl v₃ h₃
    have hbyte : UInt8.ofNat (packed v₁ v₂ v₃ 0) = 0 := by
      rw [← UInt8.toNat_inj, UInt8.toNat_ofNat', packed]
      simp
      omega
    have hpacked := @packedBytes_bytes (packed v₁ v₂ v₃ 0) (by rw [packed]; omega)
    rw [hbyte] at hpacked
    simp only [bytes, List.take_succ_cons, List.take_zero]
    rw [base64encode_two, hpacked, letters_packed h₁ h₂ h₃ hlow]
    rfl
  | @two c₁ c₂ v₁ v₂ h₁ h₂ =>
    have hv₁ := (letter_value h₁).1
    have hv₂ := (letter_value h₂).1
    have hbits := hzero [c₁] c₂ 2 rfl v₂ h₂
    have hbyte : UInt8.ofNat (packed v₁ v₂ 0 0) = 0 ∧ UInt8.ofNat (packed v₁ v₂ 0 0 / 256) = 0 := by
      simp only [← UInt8.toNat_inj, UInt8.toNat_ofNat', packed]
      simp
      omega
    have hpacked := @packedBytes_bytes (packed v₁ v₂ 0 0) (by rw [packed]; omega)
    rw [hbyte.1, hbyte.2] at hpacked
    simp only [bytes, List.take_succ_cons, List.take_zero]
    rw [base64encode_one, hpacked, letters_packed h₁ h₂ hlow hlow]
    rfl

/-! ## The codec -/

theorem base64decode_decodes {s data : List UInt8} (h : Decodes s data) :
    base64decode s = some data := by
  rw [base64decode, decodeLoop_decodes h (by simp), List.nil_append]

theorem base64decode_refused {s : List UInt8} (h : ¬WellFormed s) : base64decode s = some [] := by
  rw [base64decode, decodeLoop_refused _ _ _ (by simp)]
  rwa [decodes_iff]

theorem Decodes.length_le {s data : List UInt8} (h : Decodes s data) :
    data.length * 4 ≤ s.length * 3 := by
  induction h with
  | nil => simp
  | full _ _ _ _ _ ih =>
    simp [bytes]
    omega
  | one => simp [bytes]
  | two => simp [bytes]

theorem length_base64decode {s data : List UInt8} (h : base64decode s = some data) :
    data.length * 4 ≤ s.length * 3 := by
  by_cases hs : WellFormed s
  · obtain ⟨data', hdata⟩ := (decodes_iff s).mpr hs
    cases (base64decode_decodes hdata).symm.trans h
    exact hdata.length_le
  · cases (base64decode_refused hs).symm.trans h
    simp

/-- No text makes the decoder write outside of its buffer. It answers the well-formed ones, and
these only, with bytes; what the encoder made comes back, and so does a well-formed text whose spare
bits are zero. -/
theorem base64_codec (x s : List UInt8) :
    base64decode (base64encode x) = some x ∧
      (∃ data, base64decode s = some data ∧ (data ≠ [] ↔ s ≠ [] ∧ WellFormed s) ∧
        (WellFormed s → TrailingZero s → base64encode data = s)) := by
  constructor
  · exact base64decode_decodes (decodes_base64encode x)
  · by_cases hs : WellFormed s
    · obtain ⟨data, hdata⟩ := (decodes_iff s).mpr hs
      refine ⟨data, base64decode_decodes hdata, ?_, fun _ => hdata.base64encode⟩
      rw [Ne, hdata.ne_nil]
      exact ⟨fun hne => ⟨hne, hs⟩, And.left⟩
    · exact ⟨[], base64decode_refused hs, by simp [hs], fun h => absurd h hs⟩

end CxkFramework.Base64
