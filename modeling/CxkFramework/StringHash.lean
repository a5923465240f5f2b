import CxkFramework.Blocks
import CxkFramework.Words

/-!
# Hashes of strings

`murmur3_hash`, `murmur3_hash64` and `quick_hash`, each of them for a string up to its zero and for a
buffer with its size. The one of a buffer does not move on in `quick_hash`.
-/

namespace CxkFramework.StringHash

open Words Blocks

/-! ## The hashes -/

def rotl (x r : UInt32) : UInt32 := (x <<< r) ||| (x >>> (32 - r))

def fmix32 (h : UInt32) : UInt32 :=
  let h := (h ^^^ (h >>> 16)) * 0x85ebca6b
  let h := (h ^^^ (h >>> 13)) * 0xc2b2ae35
  h ^^^ (h >>> 16)

/-- What both loops do to a word before it goes into the hash. -/
def scramble (s : UInt32) : UInt32 := rotl (s * 0xcc9e2d51) 15 * 0x1b873593

/-- `ptr[i]`; none outside of what can be read. -/
def wordAt (mem : List UInt8) (i : Nat) : Option UInt32 :=
  if 4 * i + 4 ≤ mem.length then some (.ofNat (leValue (slice mem (4 * i) 4))) else none

def blocks (mem : List UInt8) (seed : UInt32) : Nat → Option UInt32
  | 0 => some seed
  | i + 1 => do
    let h ← blocks mem seed i
    let s ← wordAt mem i
    some (rotl (h ^^^ scramble s) 13 * 5 + 0xe6546b64)

def byteAt (mem : List UInt8) (p : Int) : Option UInt8 := if p < 0 then none else mem[p.toNat]?

/-- What the `switch` puts into `s`: the bytes from `tail` on, for as many cases as it falls through. -/
def tailWord (mem : List UInt8) (tail : Int) : Nat → Option UInt32
  | 0 => some 0
  | i + 1 => do
    let s ← tailWord mem tail i
    let b ← byteAt mem (tail + i)
    some (s ||| b.toUInt32 <<< UInt32.ofNat (8 * i))

/-- The body that both overloads of `murmur3_hash` have. -/
def murmur3 (mem : List UInt8) (len : Int32) (seed : UInt32) : Option UInt32 := do
  let blk := len / 4
  let h ← blocks mem seed blk.toInt.toNat
  let residue := (len.toUInt32 &&& 3).toNat
  let s ← tailWord mem (blk.toInt * 4) residue
  let h := if residue = 0 then h else h ^^^ scramble s
  some (fmix32 (h ^^^ len.toUInt32))

def strlen (mem : List UInt8) : Nat := (mem.takeWhile (· != 0)).length

/-- `murmur3_hash(data, size, seed)`; a null pointer is none. -/
def murmur3HashSized (data : Option (List UInt8)) (size seed : UInt32) : Option UInt32 :=
  match data with
  | none => some 0
  | some mem => murmur3 mem size.toInt32 seed

/-- `murmur3_hash(str, seed)` -/
def murmur3Hash (str : Option (List UInt8)) (seed : UInt32) : Option UInt32 :=
  match str with
  | none => some 0
  | some mem => murmur3 mem (Int32.ofNat (strlen mem)) seed

def joined (high low : UInt32) : UInt64 := high.toUInt64 <<< 32 ||| low.toUInt64

def murmur3Hash64Sized (str : Option (List UInt8)) (size seed seed2 : UInt32) : Option UInt64 := do
  let high ← murmur3HashSized str size seed
  let low ← murmur3HashSized str size seed2
  some (joined high low)

def murmur3Hash64 (str : Option (List UInt8)) (seed seed2 : UInt32) : Option UInt64 := do
  let high ← murmur3Hash str seed
  let low ← murmur3Hash str seed2
  some (joined high low)

/-- The value of a `char`. -/
def charValue (c : UInt8) : Int := c.toInt8.toInt

def quickStep (h : UInt32) (c : UInt8) : UInt32 := 31 * h + UInt32.ofInt (charValue c)

/-- `quick_hash(str)` -/
def quickHash (mem : List UInt8) : UInt32 := (mem.takeWhile (· != 0)).foldl quickStep 0

/-- `quick_hash(tmp, size)`: `str` stays where it is. -/
def quickHashSized (mem : List UInt8) (size : UInt32) : Option UInt32 :=
  (List.range size.toNat).foldlM (fun h _ => mem[0]?.map (quickStep h)) 0

/-! ## `murmur3_hash` -/

section Murmur

variable {mem : List UInt8}

theorem blocks_some {n : Nat} (h : 4 * n ≤ mem.length) (seed : UInt32) :
    ∃ v, blocks mem seed n = some v := by
  induction n with
  | zero => exact ⟨seed, rfl⟩
  | succ n ih =>
    obtain ⟨v, hv⟩ := ih (by omega)
    simp [blocks, hv, wordAt, show 4 * n + 4 ≤ mem.length by omega]

theorem tailWord_some {p n : Nat} (h : p + n ≤ mem.length) :
    ∃ v, tailWord mem p n = some v := by
  induction n with
  | zero => exact ⟨0, rfl⟩
  | succ n ih =>
    obtain ⟨v, hv⟩ := ih (by omega)
    have hbyte : byteAt mem ((p : Int) + n) = mem[p + n]? := by
      rw [byteAt, if_neg (by omega)]
      congr 1
    simp [tailWord, hv, hbyte, List.getElem?_eq_getElem (show p + n < mem.length by omega)]

/-- Nothing outside of the text is read. -/
theorem murmur3_some {n : Nat} (hn : n < 2 ^ 31) (h : n ≤ mem.length) (seed : UInt32) :
    ∃ v, murmur3 mem (Int32.ofNat n) seed = some v := by
  have hblk : (Int32.ofNat n / 4).toInt = ((n / 4 : Nat) : Int) := by
    rw [Int32.toInt_div_of_ne_right _ _ (by decide), Int32.toInt_ofNat_of_lt hn]
    rfl
  have hresidue : ((Int32.ofNat n).toUInt32 &&& 3).toNat = n % 4 := by
    have hbits : (Int32.ofNat n).toUInt32 = UInt32.ofNat n := rfl
    rw [hbits, UInt32.toNat_and, UInt32.toNat_ofNat', Nat.mod_eq_of_lt (by omega)]
    exact Nat.and_two_pow_sub_one_eq_mod n 2
  obtain ⟨v, hv⟩ := blocks_some (show 4 * (n / 4) ≤ mem.length by omega) seed
  obtain ⟨w, hw⟩ := tailWord_some (show n / 4 * 4 + n % 4 ≤ mem.length by omega)
  have htail : ((n / 4 : Nat) : Int) * 4 = ((n / 4 * 4 : Nat) : Int) := by
    rw [Nat.cast_mul]
    rfl
  simp only [murmur3, hblk, hresidue, Int.toNat_natCast, hv, htail, hw, Option.bind_eq_bind,
    Option.bind_some]
  exact ⟨_, rfl⟩

end Murmur

/-! ## `quick_hash` -/

/-- The value of a polynomial at 31, the first coefficient being that of the highest power. -/
def polynomial (cs : List Int) : Int := cs.foldl (fun h c => 31 * h + c) 0

theorem ofInt_eq_iff {a b : Int} : UInt32.ofInt a = UInt32.ofInt b ↔ (a - b) % 2 ^ 32 = 0 := by
  have ha := Int.emod_nonneg a (show (2 : Int) ^ 32 ≠ 0 by decide)
  have hb := Int.emod_nonneg b (show (2 : Int) ^ 32 ≠ 0 by decide)
  have halt := Int.emod_lt_of_pos a (show (0 : Int) < 2 ^ 32 by decide)
  have hblt := Int.emod_lt_of_pos b (show (0 : Int) < 2 ^ 32 by decide)
  rw [← UInt32.toNat_inj, UInt32.ofInt, UInt32.ofInt, UInt32.toNat_ofNat', UInt32.toNat_ofNat']
  omega

theorem foldl_quickStep (s : List UInt8) (h : Int) :
    s.foldl quickStep (UInt32.ofInt h) =
      UInt32.ofInt ((s.map charValue).foldl (fun h c => 31 * h + c) h) := by
  induction s generalizing h with
  | nil => rfl
  | cons c s ih =>
    have hstep : quickStep (UInt32.ofInt h) c = UInt32.ofInt (31 * h + charValue c) := by
      rw [quickStep, UInt32.ofInt_add, UInt32.ofInt_mul]
      rfl
    rw [List.foldl_cons, hstep, ih, List.map_cons, List.foldl_cons]

theorem foldlM_first {mem : List UInt8} {c : UInt8} (h : mem[0]? = some c) (n : Nat) :
    (List.range n).foldlM (fun h _ => mem[0]?.map (quickStep h)) 0 =
      some ((List.replicate n c).foldl quickStep 0) := by
  induction n with
  | zero => rfl
  | succ n ih =>
    simp only [List.range_succ, List.replicate_succ', List.foldlM_append, List.foldl_append, ih]
    simp [h]

theorem polynomial_sub (f g : UInt8 → Int) (s : List UInt8) :
    polynomial (s.map f) - polynomial (s.map g) = polynomial (s.map fun c => f c - g c) := by
  have hall (a b : Int) : (s.map f).foldl (fun h c => 31 * h + c) a -
      (s.map g).foldl (fun h c => 31 * h + c) b =
      (s.map fun c => f c - g c).foldl (fun h c => 31 * h + c) (a - b) := by
    induction s generalizing a b with
    | nil => rfl
    | cons c s ih =>
      simp only [List.map_cons, List.foldl_cons]
      rw [ih]
      congr 1
      ring
  exact hall 0 0

/-- How far the bytes are from the first one, as a polynomial. -/
def spread (s : List UInt8) : Int :=
  polynomial (s.map fun c => charValue c - charValue (s.headD 0))

theorem spread_same (c : UInt8) (n : Nat) : spread (List.replicate n c) = 0 := by
  have hzero : polynomial (List.replicate n 0) = 0 := by
    rw [polynomial]
    induction n with
    | zero => rfl
    | succ n ih => simpa [List.replicate_succ] using ih
  cases n with
  | zero => rfl
  | succ n =>
    have hfirst : (List.replicate (n + 1) c).headD 0 = c := rfl
    rw [spread, List.map_replicate, hfirst, Int.sub_self]
    exact hzero

section Quick

variable {s : List UInt8} (rest : List UInt8)

theorem takeWhile_terminated (hs : 0 ∉ s) : (s ++ 0 :: rest).takeWhile (· != 0) = s := by
  rw [List.takeWhile_append_of_pos]
  · simp
  · intro c hc
    rw [bne_iff_ne]
    rintro rfl
    exact hs hc

theorem strlen_terminated (hs : 0 ∉ s) : strlen (s ++ 0 :: rest) = s.length := by
  rw [strlen, takeWhile_terminated rest hs]

theorem quickHash_terminated (hs : 0 ∉ s) :
    quickHash (s ++ 0 :: rest) = UInt32.ofInt (polynomial (s.map charValue)) := by
  rw [quickHash, takeWhile_terminated rest hs]
  exact foldl_quickStep s 0

theorem quickHashSized_terminated (hlen : s.length < 2 ^ 32) :
    quickHashSized (s ++ 0 :: rest) (UInt32.ofNat s.length) =
      some (UInt32.ofInt (polynomial (s.map fun _ => charValue (s.headD 0)))) := by
  have hfirst : (s ++ 0 :: rest)[0]? = some (s.headD 0) := by
    cases s <;> rfl
  rw [quickHashSized, foldlM_first hfirst, UInt32.toNat_ofNat', Nat.mod_eq_of_lt hlen]
  have hfold := foldl_quickStep (List.replicate s.length (s.headD 0)) 0
  rw [List.map_replicate] at hfold
  rw [List.map_const']
  exact congrArg some hfold

theorem quickHash_agrees_iff (hs : 0 ∉ s) (hlen : s.length < 2 ^ 32) :
    some (quickHash (s ++ 0 :: rest)) =
        quickHashSized (s ++ 0 :: rest) (UInt32.ofNat s.length) ↔ spread s % 2 ^ 32 = 0 := by
  rw [quickHash_terminated rest hs, quickHashSized_terminated rest hlen, Option.some_inj,
    ofInt_eq_iff, polynomial_sub]
  rfl

end Quick

/-- The overloads of `quick_hash` agree if and only if the bytes are spread by a multiple of `2 ^ 32`;
those of the other two hashes always do. -/
theorem overloads_agree_iff {s : List UInt8} (hs : 0 ∉ s) (hlen : s.length < 2 ^ 31)
    (rest : List UInt8) (seed seed2 : UInt32) :
    (some (quickHash (s ++ 0 :: rest)) =
        quickHashSized (s ++ 0 :: rest) (UInt32.ofNat s.length) ↔ spread s % 2 ^ 32 = 0) ∧
      (∃ v, murmur3Hash (some (s ++ 0 :: rest)) seed = some v ∧
        murmur3HashSized (some (s ++ 0 :: rest)) (UInt32.ofNat s.length) seed = some v) ∧
      ∃ v, murmur3Hash64 (some (s ++ 0 :: rest)) seed seed2 = some v ∧
        murmur3Hash64Sized (some (s ++ 0 :: rest)) (UInt32.ofNat s.length) seed seed2 = some v := by
  have hle : s.length ≤ (s ++ 0 :: rest).length := by simp
  have hstring (seed : UInt32) : murmur3Hash (some (s ++ 0 :: rest)) seed =
      murmur3 (s ++ 0 :: rest) (Int32.ofNat s.length) seed := by
    rw [murmur3Hash, strlen_terminated rest hs]
  have hsized (seed : UInt32) :
      murmur3HashSized (some (s ++ 0 :: rest)) (UInt32.ofNat s.length) seed =
        murmur3 (s ++ 0 :: rest) (Int32.ofNat s.length) seed := rfl
  obtain ⟨v, hv⟩ := murmur3_some hlen hle seed
  obtain ⟨w, hw⟩ := murmur3_some hlen hle seed2
  refine ⟨quickHash_agrees_iff rest hs (by omega), ⟨v, ?_, ?_⟩, joined v w, ?_, ?_⟩
  · rw [hstring, hv]
  · rw [hsized, hv]
  · simp only [murmur3Hash64, hstring, hv, hw, Option.bind_eq_bind, Option.bind_some]
  · simp only [murmur3Hash64Sized, hsized, hv, hw, Option.bind_eq_bind, Option.bind_some]

/-- `"ab"`: `31 * 97 + 98` and `31 * 97 + 97`. -/
theorem quickHash_differs :
    quickHash [97, 98, 0] = 3105 ∧ quickHashSized [97, 98, 0] 2 = some 3104 := by
  decide

theorem overloads_agree_iff_ab :
    (some (quickHash [97, 98, 0]) = quickHashSized [97, 98, 0] 2 ↔
        spread [97, 98] % 2 ^ 32 = 0) ∧
      (∃ v, murmur3Hash (some [97, 98, 0]) 1 = some v ∧
        murmur3HashSized (some [97, 98, 0]) 2 1 = some v) ∧
      ∃ v, murmur3Hash64 (some [97, 98, 0]) 1 2 = some v ∧
        murmur3Hash64Sized (some [97, 98, 0]) 2 1 2 = some v := by
  have hs : (0 : UInt8) ∉ ([97, 98] : List UInt8) := by decide
  have hlen : ([97, 98] : List UInt8).length < 2 ^ 31 := by decide
  exact overloads_agree_iff hs hlen [] 1 2

end CxkFramework.StringHash
