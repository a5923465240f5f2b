import Mathlib.Data.Nat.Bitwise
import Mathlib.Data.List.Basic
import Mathlib.Tactic.Ring

/-!
# Machine words as byte sequences

The memory image of a word on a little-endian host, the byte swap that turns it into
the other order, base-128 groups with a continuation bit, and the zigzag map of two's
complement words. Everything is stated for words of any width.
-/

namespace CxkFramework.Words

/-- The `n` bytes of a word in memory, least significant byte first. -/
def leBytes : Nat → Nat → List UInt8
  | 0, _ => []
  | n + 1, v => UInt8.ofNat v :: leBytes n (v / 256)

/-- The word whose memory image is the given byte sequence. -/
def leValue : List UInt8 → Nat
  | [] => 0
  | b :: bs => b.toNat + 256 * leValue bs

@[simp] theorem length_leBytes (n v : Nat) : (leBytes n v).length = n := by
  induction n generalizing v with
  | zero => rfl
  | succ n ih => simp [leBytes, ih]

@[simp] theorem leValue_leBytes (n v : Nat) : leValue (leBytes n v) = v % 256 ^ n := by
  induction n generalizing v with
  | zero => simp [leBytes, leValue, Nat.mod_one]
  | succ n ih =>
    simp only [leBytes, leValue, ih, UInt8.toNat_ofNat', Nat.reducePow]
    rw [Nat.pow_succ', Nat.mod_mul]

theorem leValue_lt (bs : List UInt8) : leValue bs < 256 ^ bs.length := by
  induction bs with
  | nil => simp [leValue]
  | cons b bs ih =>
    have hb : b.toNat < 256 := b.toNat_lt
    simp only [leValue, List.length_cons, Nat.pow_succ]
    omega

@[simp] theorem leBytes_leValue (bs : List UInt8) : leBytes bs.length (leValue bs) = bs := by
  induction bs with
  | nil => rfl
  | cons b bs ih =>
    have hb : b.toNat < 256 := b.toNat_lt
    have hd : (b.toNat + 256 * leValue bs) / 256 = leValue bs := by omega
    have hm : UInt8.ofNat (b.toNat + 256 * leValue bs) = b := by
      apply UInt8.toNat_inj.mp
      rw [UInt8.toNat_ofNat']
      omega
    simp only [List.length_cons, leBytes, leValue, hd, hm, ih]

/-- The word with its `n` bytes in the opposite order. -/
def byteswap (n v : Nat) : Nat := leValue (leBytes n v).reverse

@[simp] theorem leBytes_byteswap (n v : Nat) :
    leBytes n (byteswap n v) = (leBytes n v).reverse := by
  have h := leBytes_leValue (leBytes n v).reverse
  rwa [List.length_reverse, length_leBytes] at h

theorem byteswap_lt (n v : Nat) : byteswap n v < 256 ^ n := by
  have h := leValue_lt (leBytes n v).reverse
  rwa [List.length_reverse, length_leBytes] at h

theorem byteswap_byteswap (n v : Nat) : byteswap n (byteswap n v) = v % 256 ^ n := by
  rw [byteswap, leBytes_byteswap, List.reverse_reverse, leValue_leBytes]

/-! ## Base-128 groups -/

/-- Seven payload bits a byte, the top bit set on every byte but the last. The first
argument bounds the number of bytes, as a temporary of that size would. -/
def groups : Nat → Nat → List UInt8
  | 0, _ => []
  | k + 1, v =>
    if 0x80 ≤ v then UInt8.ofNat ((v &&& 0x7F) ||| 0x80) :: groups k (v >>> 7)
    else [UInt8.ofNat v]

theorem payload_and (v : Nat) : v &&& 0x7F = v % 128 :=
  Nat.and_two_pow_sub_one_eq_mod v 7

theorem payload_or (v : Nat) : (v &&& 0x7F) ||| 0x80 = v % 128 + 128 := by
  have h := Nat.two_pow_add_eq_or_of_lt (i := 7) (b := v % 128) (by omega) 1
  rw [payload_and, Nat.or_comm, Nat.add_comm]
  exact h.symm

theorem groups_small (k v : Nat) (h : v < 128) : groups (k + 1) v = [UInt8.ofNat v] := by
  rw [groups, if_neg (by omega)]

theorem groups_large (k v : Nat) (h : 128 ≤ v) :
    groups (k + 1) v = UInt8.ofNat (v % 128 + 128) :: groups k (v / 128) := by
  rw [groups, if_pos h, payload_or, Nat.shiftRight_eq_div_pow]

theorem length_groups_le (k v : Nat) : (groups k v).length ≤ k := by
  induction k generalizing v with
  | zero => simp [groups]
  | succ k ih =>
    rw [groups]
    split
    · simpa using ih (v >>> 7)
    · simp

section Source

variable {σ ε : Type*} (next : σ → Except ε (UInt8 × σ))

/-- `Feeds next s bs s'`: reading byte by byte from `s` gives `bs` and leaves `s'`. -/
inductive Feeds : σ → List UInt8 → σ → Prop where
  | nil (s : σ) : Feeds s [] s
  | cons {s s₁ s' : σ} {b : UInt8} {bs : List UInt8} :
      next s = .ok (b, s₁) → Feeds s₁ bs s' → Feeds s (b :: bs) s'

/-- Collect groups from a byte source into a `w`-bit word: at most the given number of
rounds, the shift starting at `i`. -/
def ungroup (w : Nat) : Nat → Nat → Nat → σ → Except ε (Nat × σ)
  | 0, _, result, s => .ok (result, s)
  | k + 1, i, result, s =>
    match next s with
    | .error e => .error e
    | .ok (b, s') =>
      if b.toNat < 0x80 then .ok (result ||| (b.toNat <<< i) % 2 ^ w, s')
      else ungroup w k (i + 7) (result ||| ((b.toNat &&& 0x7F) <<< i) % 2 ^ w) s'

/-- One more group in an accumulator that holds the groups below it. -/
theorem or_group (V w i : Nat) (hV : V < 2 ^ w) :
    V % 2 ^ i ||| ((V / 2 ^ i % 128) <<< i) % 2 ^ w = V % 2 ^ (i + 7) := by
  have hpos : 0 < 2 ^ i := Nat.two_pow_pos i
  have hsplit : V % 2 ^ (i + 7) = V % 2 ^ i + 2 ^ i * (V / 2 ^ i % 128) := by
    rw [Nat.pow_add, Nat.mod_mul]
  have hle : 2 ^ i * (V / 2 ^ i % 128) ≤ V := by
    have := Nat.mod_le V (2 ^ (i + 7))
    omega
  have hor := Nat.two_pow_add_eq_or_of_lt (Nat.mod_lt V hpos) (V / 2 ^ i % 128)
  rw [Nat.shiftLeft_eq, Nat.mul_comm _ (2 ^ i), Nat.mod_eq_of_lt (hle.trans_lt hV), hsplit,
    Nat.or_comm, ← hor, Nat.add_comm]

variable {next}

/-- Reading back what `groups` wrote, whatever follows it. -/
theorem ungroup_groups {w V : Nat} (hV : V < 2 ^ w) (k i : Nat) (hfit : w ≤ i + 7 * k)
    {s s' : σ} (hf : Feeds next s (groups k (V / 2 ^ i)) s') :
    ungroup next w k i (V % 2 ^ i) s = .ok (V, s') := by
  induction k generalizing i s with
  | zero =>
    cases hf
    have hle : 2 ^ w ≤ 2 ^ i := Nat.pow_le_pow_right (by omega) (by omega)
    rw [ungroup, Nat.mod_eq_of_lt (by omega)]
  | succ k ih =>
    by_cases hsmall : V / 2 ^ i < 128
    · rw [groups_small k _ hsmall] at hf
      cases hf with
      | cons hn hrest =>
      cases hrest
      have hb : (UInt8.ofNat (V / 2 ^ i)).toNat = V / 2 ^ i := by
        rw [UInt8.toNat_ofNat', Nat.mod_eq_of_lt (hsmall.trans (by decide))]
      have hlast : V % 2 ^ (i + 7) = V := by
        apply Nat.mod_eq_of_lt
        rw [Nat.pow_add]
        exact (Nat.div_lt_iff_lt_mul (Nat.two_pow_pos i)).mp hsmall |>.trans_eq (Nat.mul_comm _ _)
      have hacc := or_group V w i hV
      rw [Nat.mod_eq_of_lt hsmall, hlast] at hacc
      simp only [ungroup, hn, hb, if_pos hsmall, hacc]
    · rw [groups_large k _ (by omega)] at hf
      cases hf with
      | cons hn hrest =>
      have hb : (UInt8.ofNat (V / 2 ^ i % 128 + 128)).toNat = V / 2 ^ i % 128 + 128 := by
        rw [UInt8.toNat_ofNat']
        omega
      have hpay : (V / 2 ^ i % 128 + 128) &&& 0x7F = V / 2 ^ i % 128 := by
        rw [payload_and]
        omega
      have hdiv : V / 2 ^ i / 128 = V / 2 ^ (i + 7) := by
        rw [Nat.div_div_eq_div_mul, Nat.pow_add]
      rw [hdiv] at hrest
      have h := ih (i + 7) (by omega) hrest
      simp only [ungroup, hn, hb, hpay, or_group V w i hV]
      rw [if_neg (by omega)]
      exact h

/-- What every single read keeps, collecting groups keeps. -/
theorem ungroup_keeps {I : σ → Prop} (keep : ∀ s b s', I s → next s = .ok (b, s') → I s')
    {w k i result x : Nat} {s s' : σ} (hs : I s)
    (h : ungroup next w k i result s = .ok (x, s')) : I s' := by
  induction k generalizing i result s with
  | zero =>
    cases h
    exact hs
  | succ k ih =>
    rw [ungroup] at h
    split at h
    · cases h
    · next b s₁ hn =>
      have hs₁ := keep _ _ _ hs hn
      split at h
      · cases h
        exact hs₁
      · exact ih hs₁ h

end Source

/-! ## Zigzag -/

/-- Fold the sign of a two's complement word into its lowest bit. -/
def zigzag {w : Nat} (v : BitVec w) : BitVec w := if v.msb then -v * 2#w - 1#w else v * 2#w

/-- Undo `zigzag`: drop the low bit and flip everything when it was set. -/
def unzigzag {w : Nat} (v : BitVec w) : BitVec w := (v >>> 1) ^^^ -(v &&& 1#w)

theorem unzigzag_even {w : Nat} {v u : BitVec w} (h : v.toNat = 2 * u.toNat) :
    unzigzag v = u := by
  have hlow : v &&& 1#w = 0#w := by
    apply BitVec.eq_of_toNat_eq
    rcases Nat.eq_zero_or_pos w with rfl | hw
    · simp
    · rw [BitVec.toNat_and, BitVec.toNat_ofNat, Nat.mod_eq_of_lt (Nat.one_lt_two_pow hw.ne'),
        Nat.and_one_is_mod, h]
      simp
  apply BitVec.eq_of_toNat_eq
  rw [unzigzag, hlow]
  simp [Nat.shiftRight_eq_div_pow, h]

theorem unzigzag_odd {w : Nat} {v u : BitVec w} (h : v.toNat + 2 * u.toNat + 1 = 2 * 2 ^ w) :
    unzigzag v = u := by
  have hv := v.isLt
  have hu := u.isLt
  have hw : 0 < w := by
    rcases Nat.eq_zero_or_pos w with rfl | hw
    · simp only [Nat.pow_zero] at hv hu h
      omega
    · exact hw
  have hlow : v &&& 1#w = 1#w := by
    apply BitVec.eq_of_toNat_eq
    rw [BitVec.toNat_and, BitVec.toNat_ofNat, Nat.mod_eq_of_lt (Nat.one_lt_two_pow hw.ne'),
      Nat.and_one_is_mod]
    omega
  apply BitVec.eq_of_toNat_eq
  rw [unzigzag, hlow, BitVec.neg_one_eq_allOnes, BitVec.xor_allOnes, BitVec.toNat_not,
    BitVec.toNat_ushiftRight, Nat.shiftRight_eq_div_pow]
  omega

theorem toNat_zigzag_nonneg {w : Nat} {v : BitVec w} (h : v.msb = false) :
    (zigzag v).toNat = 2 * v.toNat := by
  have hv := BitVec.msb_eq_false_iff_two_mul_lt.mp h
  rw [zigzag, h, if_neg (by decide), BitVec.mul_two, BitVec.toNat_add, Nat.mod_eq_of_lt (by omega)]
  omega

theorem toNat_zigzag_neg {w : Nat} {v : BitVec w} (h : v.msb = true) :
    (zigzag v).toNat + 2 * v.toNat + 1 = 2 * 2 ^ w := by
  have hge := BitVec.msb_eq_true_iff_two_mul_ge.mp h
  have hlt := v.isLt
  have hw : 1 < 2 ^ w := by
    rcases Nat.eq_zero_or_pos w with rfl | hw
    · simp only [Nat.pow_zero] at hge hlt
      omega
    · exact Nat.one_lt_two_pow hw.ne'
  have hneg : (-v).toNat = 2 ^ w - v.toNat := by
    rw [BitVec.toNat_neg, Nat.mod_eq_of_lt (by omega)]
  rw [zigzag, h, if_pos rfl, BitVec.mul_two, BitVec.toNat_sub, BitVec.toNat_add, hneg,
    BitVec.toNat_ofNat, Nat.mod_eq_of_lt hw]
  rcases Nat.lt_or_ge (2 ^ w - v.toNat + (2 ^ w - v.toNat)) (2 ^ w) with hs | hs
  · rw [Nat.mod_eq_of_lt hs, Nat.mod_eq_sub_mod (by omega), Nat.mod_eq_of_lt (by omega)]
    omega
  · -- only the least value doubles to exactly the modulus
    have he : 2 ^ w - v.toNat + (2 ^ w - v.toNat) = 2 ^ w := by omega
    rw [he, Nat.mod_self, Nat.mod_eq_of_lt (by omega)]
    omega

/-- The least word included, where negation wraps around. -/
theorem unzigzag_zigzag {w : Nat} (v : BitVec w) : unzigzag (zigzag v) = v := by
  cases h : v.msb with
  | false => exact unzigzag_even (toNat_zigzag_nonneg h)
  | true => exact unzigzag_odd (toNat_zigzag_neg h)

end CxkFramework.Words
