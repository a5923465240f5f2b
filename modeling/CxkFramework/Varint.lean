import CxkFramework.ByteArrayRoundTrip
import Mathlib.Algebra.Order.Floor.Div
import Mathlib.Data.Nat.Size

/-!
# Varints and zigzag, without the array

The two halves of the variable length encoding meet over a plain sequence of bytes, whatever follows
in it. The zigzag maps are two-sided inverses, the least value included.
-/

namespace CxkFramework.Words

/-- `groups` with no end to the temporary. -/
def varint (v : Nat) : List UInt8 :=
  if _ : 0x80 ≤ v then UInt8.ofNat ((v &&& 0x7F) ||| 0x80) :: varint (v >>> 7)
  else [UInt8.ofNat v]
termination_by v
decreasing_by
  rw [Nat.shiftRight_eq_div_pow]
  omega

theorem varint_small {v : Nat} (h : v < 128) : varint v = [UInt8.ofNat v] := by
  rw [varint, dif_neg (by omega)]

theorem varint_large {v : Nat} (h : 128 ≤ v) :
    varint v = UInt8.ofNat (v % 128 + 128) :: varint (v / 128) := by
  rw [varint, dif_pos h, payload_or, Nat.shiftRight_eq_div_pow]

theorem two_pow_groups (k : Nat) : 2 ^ (7 * (k + 1)) = 128 * 2 ^ (7 * k) := by
  rw [Nat.mul_succ, Nat.pow_add, Nat.mul_comm]

/-- A temporary of `k + 1` bytes is enough if and only if there are that many groups of bits. -/
theorem length_varint_le_iff (k v : Nat) : (varint v).length ≤ k + 1 ↔ v < 2 ^ (7 * (k + 1)) := by
  induction k generalizing v with
  | zero =>
    by_cases h : v < 128
    · rw [varint_small h]
      simpa using h
    · have hrest : 0 < (varint (v / 128)).length := by
        rw [varint]
        split <;> simp
      rw [varint_large (by omega), List.length_cons]
      omega
  | succ k ih =>
    have hpow := two_pow_groups (k + 1)
    have hpos := Nat.two_pow_pos (7 * (k + 1))
    by_cases h : v < 128
    · rw [varint_small h, List.length_singleton]
      omega
    · rw [varint_large (by omega), List.length_cons, Nat.add_le_add_iff_right, ih, hpow]
      omega

theorem length_varint (v : Nat) : (varint v).length = max 1 (v.size ⌈/⌉ 7) := by
  have hpos : 0 < (varint v).length := by
    rw [varint]
    split <;> simp
  apply eq_of_forall_ge_iff
  intro k
  cases k with
  | zero => simp only [Nat.le_zero, max_le_iff]; omega
  | succ k =>
    rw [length_varint_le_iff, ← Nat.size_le, max_le_iff,
      ceilDiv_le_iff_le_mul (show 0 < 7 by decide)]
    omega

theorem groups_eq_varint (k : Nat) {v : Nat} (h : v < 2 ^ (7 * (k + 1))) :
    groups (k + 1) v = varint v := by
  induction k generalizing v with
  | zero => rw [groups_small 0 v h, varint_small h]
  | succ k ih =>
    by_cases hv : v < 128
    · rw [groups_small _ v hv, varint_small hv]
    · have hpow := two_pow_groups (k + 1)
      rw [groups_large _ v (by omega), varint_large (by omega), ih (by omega)]

/-- The next byte of an ideal sequence. -/
def uncons : List UInt8 → Except Unit (UInt8 × List UInt8)
  | [] => .error ()
  | b :: bs => .ok (b, bs)

theorem feeds_uncons (bs rest : List UInt8) : Feeds uncons (bs ++ rest) bs rest := by
  induction bs with
  | nil => exact .nil rest
  | cons b bs ih => exact .cons rfl ih

/-- Reading from a sequence that starts with a varint takes just this varint. -/
theorem ungroup_varint {w k v : Nat} (hv : v < 2 ^ w) (hfit : w ≤ 7 * (k + 1)) (rest : List UInt8) :
    ungroup uncons w (k + 1) 0 0 (varint v ++ rest) = .ok (v, rest) := by
  have hlt : v < 2 ^ (7 * (k + 1)) := hv.trans_le (Nat.pow_le_pow_right (by decide) hfit)
  have hfeeds : Feeds uncons (varint v ++ rest) (groups (k + 1) (v / 2 ^ 0)) rest := by
    rw [Nat.pow_zero, Nat.div_one, groups_eq_varint k hlt]
    exact feeds_uncons (varint v) rest
  have hread := ungroup_groups hv (k + 1) 0 (by omega) hfeeds
  rwa [Nat.pow_zero, Nat.mod_one] at hread

/-! ## Zigzag the other way round -/

theorem zigzag_unzigzag {w : Nat} (v : BitVec w) : zigzag (unzigzag v) = v := by
  have : Finite (BitVec w) := Finite.of_injective BitVec.toFin fun _ _ h => BitVec.eq_of_toFin_eq h
  have hinj : Function.Injective (zigzag (w := w)) := Function.LeftInverse.injective unzigzag_zigzag
  obtain ⟨u, rfl⟩ := Finite.injective_iff_surjective.mp hinj v
  rw [unzigzag_zigzag]

end CxkFramework.Words

namespace CxkFramework.ByteArray

open Words

/-- `readUint32` with `readFuint8` taking the bytes of a sequence. -/
def uint32From (bs : List UInt8) : Except Unit (UInt32 × List UInt8) := do
  let (v, bs) ← ungroup uncons 32 5 0 0 bs
  .ok (UInt32.ofNat v, bs)

/-- `readUint64` with `readFuint8` taking the bytes of a sequence. -/
def uint64From (bs : List UInt8) : Except Unit (UInt64 × List UInt8) := do
  let (v, bs) ← ungroup uncons 64 10 0 0 bs
  .ok (UInt64.ofNat v, bs)

/-- A value whose number is `word` goes out as the varint of it, which stays inside a temporary of
`room` bytes and is taken back from the front of any sequence. -/
structure Exact {α : Type} (put : ByteArray → α → Except Fault ByteArray)
    (take : List UInt8 → Except Unit (α × List UInt8)) (room word : Nat) (v : α) : Prop where
  written : ∀ ba : ByteArray, put ba v = ba.write (varint word)
  length_eq : (varint word).length = max 1 (word.size ⌈/⌉ 7)
  length_le : (varint word).length ≤ room
  taken : ∀ rest, take (varint word ++ rest) = .ok (v, rest)

theorem exact_uint32 (v : UInt32) : Exact writeUint32 uint32From 5 v.toNat v := by
  have hv := v.toNat_lt
  have hroom : v.toNat < 2 ^ (7 * (4 + 1)) := hv.trans (by decide)
  constructor
  · intro ba
    rw [writeUint32, groups_eq_varint 4 hroom]
  · exact length_varint v.toNat
  · exact (length_varint_le_iff 4 v.toNat).mpr hroom
  · intro rest
    simp only [uint32From, ungroup_varint hv (k := 4) (by decide), bind, Except.bind,
      UInt32.ofNat_toNat]

theorem exact_uint64 (v : UInt64) : Exact writeUint64 uint64From 10 v.toNat v := by
  have hv := v.toNat_lt
  have hroom : v.toNat < 2 ^ (7 * (9 + 1)) := hv.trans (by decide)
  constructor
  · intro ba
    rw [writeUint64, groups_eq_varint 9 hroom]
  · exact length_varint v.toNat
  · exact (length_varint_le_iff 9 v.toNat).mpr hroom
  · intro rest
    simp only [uint64From, ungroup_varint hv (k := 9) (by decide), bind, Except.bind,
      UInt64.ofNat_toNat]

theorem encodeZigzag32_decodeZigzag32 (v : UInt32) : encodeZigzag32 (decodeZigzag32 v) = v := by
  apply UInt32.toBitVec_inj.mp
  have h := zigzag_unzigzag v.toBitVec
  rw [toBitVec_encodeZigzag32]
  simpa [decodeZigzag32, unzigzag] using h

theorem encodeZigzag64_decodeZigzag64 (v : UInt64) : encodeZigzag64 (decodeZigzag64 v) = v := by
  apply UInt64.toBitVec_inj.mp
  have h := zigzag_unzigzag v.toBitVec
  rw [toBitVec_encodeZigzag64]
  simpa [decodeZigzag64, unzigzag] using h

/-- Every word comes back from its varint and every number from its zigzag. -/
theorem varint_zigzag :
    (∀ v : UInt32, Exact writeUint32 uint32From 5 v.toNat v) ∧
      (∀ v : UInt64, Exact writeUint64 uint64From 10 v.toNat v) ∧
      (∀ v : Int32, decodeZigzag32 (encodeZigzag32 v) = v) ∧
      (∀ v : Int64, decodeZigzag64 (encodeZigzag64 v) = v) ∧
      Function.Bijective encodeZigzag32 ∧ Function.Bijective encodeZigzag64 := by
  have h32 : Function.Bijective encodeZigzag32 := Function.bijective_iff_has_inverse.mpr
    ⟨decodeZigzag32, decodeZigzag32_encodeZigzag32, encodeZigzag32_decodeZigzag32⟩
  have h64 : Function.Bijective encodeZigzag64 := Function.bijective_iff_has_inverse.mpr
    ⟨decodeZigzag64, decodeZigzag64_encodeZigzag64, encodeZigzag64_decodeZigzag64⟩
  exact ⟨exact_uint32, exact_uint64, decodeZigzag32_encodeZigzag32, decodeZigzag64_encodeZigzag64,
    h32, h64⟩

example : varint 300 = [0xAC, 0x02] := by simp [varint]

end CxkFramework.ByteArray
