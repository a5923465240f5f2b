import Mathlib.Data.Vector.Basic
import Mathlib.Data.Nat.Bitwise
import Mathlib.Tactic.IntervalCases

/-!
# Network arithmetic

`subnetMask`, `netWorkAddress` and `broadcastAddress` of `IPv4Address` and `IPv6Address`. An address
is read as its bits from the leading one on.
-/

namespace CxkFramework.IpNetwork

/-- On a 32-bit `int`, which wraps; nothing when it is shifted by its full width or more. -/
def createMask (w bits : Nat) : Option (BitVec w) :=
  if bits ≤ w ∧ w - bits < 32 then some (((1#32 <<< (w - bits)) - 1#32).setWidth w) else none

structure IPv4Address where
  /-- in network order -/
  s_addr : BitVec 32
  sin_port : BitVec 16
  deriving DecidableEq, Repr

structure IPv6Address where
  s6_addr : Vector (BitVec 8) 16
  sin6_port : BitVec 16
  deriving DecidableEq, Repr

namespace IPv4Address

/-- On a little-endian host. -/
def byteswapOnLittleEndian (t : BitVec 32) : BitVec 32 :=
  t.extractLsb' 0 8 ++ t.extractLsb' 8 8 ++ t.extractLsb' 16 8 ++ t.extractLsb' 24 8

/-- A null pointer for a prefix that is too long. -/
def broadcastAddress (addr : IPv4Address) (prefix_len : Nat) : Option (Option IPv4Address) :=
  if prefix_len > 32 then some none
  else
    (createMask 32 prefix_len).map fun mask =>
      some { addr with s_addr := addr.s_addr ||| byteswapOnLittleEndian mask }

def netWorkAddress (addr : IPv4Address) (prefix_len : Nat) : Option (Option IPv4Address) :=
  if prefix_len > 32 then some none
  else
    (createMask 32 prefix_len).map fun mask =>
      some { addr with s_addr := addr.s_addr &&& byteswapOnLittleEndian mask }

def subnetMask (_ : IPv4Address) (prefix_len : Nat) : Option (Option IPv4Address) :=
  (createMask 32 prefix_len).map fun mask =>
    some { s_addr := ~~~byteswapOnLittleEndian mask, sin_port := 0 }

/-- The bits of the address, the leading one first; `ntohl` is the swap. -/
def bit (addr : IPv4Address) (i : Nat) : Bool := (byteswapOnLittleEndian addr.s_addr).getMsbD i

end IPv4Address

namespace IPv6Address

/-- Nothing when a byte behind the address is written. -/
def broadcastAddress (addr : IPv6Address) (prefix_len : Nat) : Option IPv6Address :=
  if h : prefix_len / 8 < 16 then
    (createMask 8 (prefix_len % 8)).map fun mask =>
      let s6_addr := addr.s6_addr.set (prefix_len / 8) (addr.s6_addr[prefix_len / 8] ||| mask)
      { addr with s6_addr := s6_addr.mapIdx fun i b => if prefix_len / 8 + 1 ≤ i then 0xFF else b }
  else none

def netWorkAddress (addr : IPv6Address) (prefix_len : Nat) : Option IPv6Address :=
  if h : prefix_len / 8 < 16 then
    (createMask 8 (prefix_len % 8)).map fun mask =>
      { addr with
        s6_addr := addr.s6_addr.set (prefix_len / 8) (addr.s6_addr[prefix_len / 8] &&& mask) }
  else none

def subnetMask (_ : IPv6Address) (prefix_len : Nat) : Option IPv6Address :=
  if h : prefix_len / 8 < 16 then
    (createMask 8 (prefix_len % 8)).map fun mask =>
      let s6_addr := (Vector.replicate 16 0).set (prefix_len / 8) (~~~mask)
      { s6_addr := s6_addr.mapIdx fun i b => if i < prefix_len / 8 then 0xFF else b
        sin6_port := 0 }
  else none

def bit (addr : IPv6Address) (i : Nat) : Bool :=
  if h : i / 8 < 16 then addr.s6_addr[i / 8].getMsbD (i % 8) else false

end IPv6Address

/-! ## Masks -/

theorem createMask_eq_none {w bits : Nat} :
    createMask w bits = none ↔ ¬(bits ≤ w ∧ w - bits < 32) := by
  rw [createMask]
  split
  · simp only [reduceCtorEq, false_iff, not_not]
    assumption
  · simp only [true_iff]
    assumption

/-- All bits behind the first `bits`. -/
theorem createMask_bit {w bits : Nat} {mask : BitVec w}
    (h : createMask w bits = some mask) {i : Nat} (hi : i < w) :
    mask.getMsbD i = !decide (i < bits) := by
  rw [createMask] at h
  split at h
  · rename_i hbits
    obtain ⟨hle, hlt⟩ := hbits
    cases h
    have hpow : 2 ^ (w - bits) < 2 ^ 32 := Nat.pow_lt_pow_right (by decide) hlt
    have hpos : 0 < 2 ^ (w - bits) := Nat.two_pow_pos _
    have hvalue : ((1#32 <<< (w - bits)) - 1#32).toNat = 2 ^ (w - bits) - 1 := by
      simp [BitVec.toNat_sub, BitVec.toNat_shiftLeft, Nat.shiftLeft_eq]
      omega
    rw [BitVec.getMsbD_eq_getLsbD, BitVec.getLsbD_setWidth, BitVec.getLsbD, hvalue,
      Nat.testBit_two_pow_sub_one]
    rw [Bool.eq_iff_iff]
    simp [hi]
    omega
  · cases h

/-! ## What the results should be

Of an address with the bits `bit`, in `w` bits. -/

section Results

variable (w n : Nat) (bit bit' : Nat → Bool)

/-- Exactly the leading bits are set. -/
def IsMask : Prop := ∀ i < w, bit' i = decide (i < n)

def IsNetwork : Prop := ∀ i < w, bit' i = (bit i && decide (i < n))

def IsBroadcast : Prop := ∀ i < w, bit' i = (bit i || !decide (i < n))

end Results

namespace IPv4Address

variable {addr r : IPv4Address} {n : Nat}

/-- The byte a bit is in changes its place. -/
theorem getLsbD_byteswapOnLittleEndian (t : BitVec 32) {i : Nat} (hi : i < 32) :
    (byteswapOnLittleEndian t).getLsbD i = t.getLsbD (24 - 8 * (i / 8) + i % 8) := by
  rw [byteswapOnLittleEndian]
  simp only [BitVec.getLsbD_append, BitVec.getLsbD_extractLsb']
  split_ifs <;> rw [decide_eq_true (by omega), Bool.true_and] <;> congr 1 <;> omega

@[simp] theorem byteswap_byteswap (t : BitVec 32) :
    byteswapOnLittleEndian (byteswapOnLittleEndian t) = t := by
  apply BitVec.eq_of_getLsbD_eq
  intro i hi
  rw [getLsbD_byteswapOnLittleEndian _ hi, getLsbD_byteswapOnLittleEndian _ (by omega)]
  congr 1
  omega

theorem byteswap_or (t t' : BitVec 32) :
    byteswapOnLittleEndian (t ||| t') = byteswapOnLittleEndian t ||| byteswapOnLittleEndian t' := by
  apply BitVec.eq_of_getLsbD_eq
  intro i hi
  simp only [BitVec.getLsbD_or, getLsbD_byteswapOnLittleEndian _ hi]

theorem byteswap_and (t t' : BitVec 32) :
    byteswapOnLittleEndian (t &&& t') = byteswapOnLittleEndian t &&& byteswapOnLittleEndian t' := by
  apply BitVec.eq_of_getLsbD_eq
  intro i hi
  simp only [BitVec.getLsbD_and, getLsbD_byteswapOnLittleEndian _ hi]

theorem byteswap_not (t : BitVec 32) :
    byteswapOnLittleEndian (~~~t) = ~~~byteswapOnLittleEndian t := by
  apply BitVec.eq_of_getLsbD_eq
  intro i hi
  rw [BitVec.getLsbD_not, getLsbD_byteswapOnLittleEndian _ hi, getLsbD_byteswapOnLittleEndian _ hi,
    BitVec.getLsbD_not, decide_eq_true hi, decide_eq_true (by omega)]

theorem createMask_zero : createMask 32 0 = none := by decide

theorem exists_mask (hn : n ≤ 32) (hpos : n ≠ 0) : ∃ mask, createMask 32 n = some mask := by
  rw [← Option.ne_none_iff_exists', ne_eq, createMask_eq_none]
  omega

theorem subnetMask_iff (hn : n ≤ 32) :
    (∃ r, subnetMask addr n = some (some r) ∧ IsMask 32 n r.bit) ↔ n ≠ 0 := by
  constructor
  · rintro ⟨r, hr, -⟩ rfl
    simp [subnetMask, createMask_zero] at hr
  · intro hpos
    obtain ⟨mask, hmask⟩ := exists_mask hn hpos
    refine ⟨⟨~~~byteswapOnLittleEndian mask, 0⟩, by simp [subnetMask, hmask], ?_⟩
    intro i hi
    rw [bit, byteswap_not, byteswap_byteswap, BitVec.getMsbD_not,
      createMask_bit hmask hi]
    simp [hi]

theorem broadcastAddress_iff (hn : n ≤ 32) :
    (∃ r, broadcastAddress addr n = some (some r) ∧ IsBroadcast 32 n addr.bit r.bit) ↔ n ≠ 0 := by
  have hle : ¬n > 32 := by omega
  constructor
  · rintro ⟨r, hr, -⟩ rfl
    simp [broadcastAddress, createMask_zero] at hr
  · intro hpos
    obtain ⟨mask, hmask⟩ := exists_mask hn hpos
    refine ⟨{ addr with s_addr := addr.s_addr ||| byteswapOnLittleEndian mask },
      by simp [broadcastAddress, hmask, hle], ?_⟩
    intro i hi
    rw [bit, byteswap_or, byteswap_byteswap, BitVec.getMsbD_or,
      createMask_bit hmask hi]
    simp [bit]

/-- The bits behind the prefix stay, those of the prefix go. -/
theorem netWorkAddress_iff (hn : n ≤ 32) :
    (∃ r, netWorkAddress addr n = some (some r) ∧ IsNetwork 32 n addr.bit r.bit) ↔
      n ≠ 0 ∧ ∀ i < 32, addr.bit i = false := by
  have hle : ¬n > 32 := by omega
  by_cases hpos : n = 0
  · subst hpos
    simp [netWorkAddress, createMask_zero]
  · obtain ⟨mask, hmask⟩ := exists_mask hn hpos
    have hnet : netWorkAddress addr n =
        some (some { addr with s_addr := addr.s_addr &&& byteswapOnLittleEndian mask }) := by
      simp [netWorkAddress, hmask, hle]
    have hbit : ∀ i < 32, bit { addr with s_addr := addr.s_addr &&& byteswapOnLittleEndian mask } i =
        (addr.bit i && !decide (i < n)) := by
      intro i hi
      rw [bit, byteswap_and, byteswap_byteswap, BitVec.getMsbD_and,
        createMask_bit hmask hi]
      simp [bit]
    constructor
    · rintro ⟨r, hr, hnetwork⟩
      rw [hnet] at hr
      cases hr
      constructor
      · exact hpos
      · intro i hi
        have hsame := (hbit i hi).symm.trans (hnetwork i hi)
        by_cases hin : i < n
        · simpa [hin] using hsame.symm
        · simpa [hin] using hsame
    · rintro ⟨-, hzero⟩
      refine ⟨_, hnet, ?_⟩
      intro i hi
      rw [hbit i hi, hzero i hi]
      simp

end IPv4Address

namespace IPv6Address

variable {addr r : IPv6Address} {n : Nat}

theorem exists_mask (n : Nat) : ∃ mask, createMask 8 (n % 8) = some mask := by
  rw [← Option.ne_none_iff_exists', ne_eq, createMask_eq_none]
  omega

theorem bit_at {k j : Nat} (hk : k < 16) (hj : j < 8) :
    addr.bit (8 * k + j) = addr.s6_addr[k].getMsbD j := by
  have hbyte : (8 * k + j) / 8 = k := by omega
  have hbit : (8 * k + j) % 8 = j := by omega
  simp only [bit, hbyte, hbit, dif_pos hk]

theorem forall_bits {P : Nat → Prop} :
    (∀ i < 128, P i) ↔ ∀ k < 16, ∀ j < 8, P (8 * k + j) := by
  constructor
  · intro h k hk j hj
    exact h _ (by omega)
  · intro h i hi
    have hi' := h (i / 8) (by omega) (i % 8) (by omega)
    rwa [Nat.div_add_mod] at hi'

theorem getMsbD_ones {j : Nat} (hj : j < 8) : (0xFF#8).getMsbD j = true := by
  interval_cases j <;> rfl

theorem subnetMask_iff (hn : n ≤ 128) :
    (∃ r, subnetMask addr n = some r ∧ IsMask 128 n r.bit) ↔ n < 128 := by
  constructor
  · rintro ⟨r, hr, -⟩
    rw [subnetMask] at hr
    split at hr
    · omega
    · cases hr
  · intro hlt
    obtain ⟨mask, hmask⟩ := exists_mask n
    have hin : n / 8 < 16 := by omega
    refine ⟨_, by rw [subnetMask, dif_pos hin, hmask]; rfl, ?_⟩
    rw [IsMask, forall_bits]
    intro k hk j hj
    have hbit := createMask_bit hmask hj
    rw [bit_at hk hj]
    simp only [Vector.getElem_mapIdx, Vector.getElem_set, Vector.getElem_replicate]
    obtain hless | hsame | hmore := Nat.lt_trichotomy k (n / 8)
    · have hi : 8 * k + j < n := by omega
      simp [hless, hi, getMsbD_ones hj]
    · subst hsame
      have hiff : 8 * (n / 8) + j < n ↔ j < n % 8 := by omega
      simp [hbit, hj, hiff]
    · have hi : ¬8 * k + j < n := by omega
      have hless : ¬k < n / 8 := by omega
      have hne : ¬n / 8 = k := by omega
      simp [hless, hne, hi]

theorem broadcastAddress_iff (hn : n ≤ 128) :
    (∃ r, broadcastAddress addr n = some r ∧ IsBroadcast 128 n addr.bit r.bit) ↔ n < 128 := by
  constructor
  · rintro ⟨r, hr, -⟩
    rw [broadcastAddress] at hr
    split at hr
    · omega
    · cases hr
  · intro hlt
    obtain ⟨mask, hmask⟩ := exists_mask n
    have hin : n / 8 < 16 := by omega
    refine ⟨_, by rw [broadcastAddress, dif_pos hin, hmask]; rfl, ?_⟩
    rw [IsBroadcast, forall_bits]
    intro k hk j hj
    have hbit := createMask_bit hmask hj
    rw [bit_at hk hj, bit_at hk hj]
    simp only [Vector.getElem_mapIdx, Vector.getElem_set]
    obtain hless | hsame | hmore := Nat.lt_trichotomy k (n / 8)
    · have hi : 8 * k + j < n := by omega
      have hnext : ¬n / 8 + 1 ≤ k := by omega
      have hne : ¬n / 8 = k := by omega
      simp [hnext, hne, hi]
    · subst hsame
      have hiff : 8 * (n / 8) + j < n ↔ j < n % 8 := by omega
      simp [hbit, hiff]
    · have hi : ¬8 * k + j < n := by omega
      have hnext : n / 8 + 1 ≤ k := hmore
      simp [hnext, hi, getMsbD_ones hj]

/-- The byte in which the prefix ends keeps the bits behind it, and the bytes after it all. -/
theorem netWorkAddress_iff (hn : n ≤ 128) :
    (∃ r, netWorkAddress addr n = some r ∧ IsNetwork 128 n addr.bit r.bit) ↔
      n < 128 ∧ ∀ i < 128, n / 8 ≤ i / 8 → addr.bit i = false := by
  by_cases hlt : n < 128
  · obtain ⟨mask, hmask⟩ := exists_mask n
    have hin : n / 8 < 16 := by omega
    have hnet : netWorkAddress addr n = some { addr with
        s6_addr := addr.s6_addr.set (n / 8) (addr.s6_addr[n / 8] &&& mask) } := by
      rw [netWorkAddress, dif_pos hin, hmask]
      rfl
    have hbits : ∀ k < 16, ∀ j < 8,
        bit { addr with s6_addr := addr.s6_addr.set (n / 8) (addr.s6_addr[n / 8] &&& mask) }
            (8 * k + j) =
          (addr.bit (8 * k + j) && (k ≠ n / 8 || !decide (8 * k + j < n))) := by
      intro k hk j hj
      have hbit := createMask_bit hmask hj
      rw [bit_at hk hj, bit_at hk hj]
      simp only [Vector.getElem_set]
      by_cases hsame : n / 8 = k
      · subst hsame
        have hiff : 8 * (n / 8) + j < n ↔ j < n % 8 := by omega
        simp [hbit, hiff]
      · simp [hsame, Ne.symm hsame]
    constructor
    · rintro ⟨r, hr, hnetwork⟩
      rw [hnet] at hr
      cases hr
      rw [IsNetwork, forall_bits] at hnetwork
      refine ⟨hlt, forall_bits.mpr ?_⟩
      intro k hk j hj hle
      have hle' : n / 8 ≤ k := by omega
      have hsame := (hbits k hk j hj).symm.trans (hnetwork k hk j hj)
      by_cases hi : 8 * k + j < n
      · have hk' : k = n / 8 := by omega
        subst hk'
        simpa [hi] using hsame.symm
      · simpa [hi] using hsame
    · rintro ⟨-, hzero⟩
      refine ⟨_, hnet, ?_⟩
      rw [IsNetwork, forall_bits]
      intro k hk j hj
      rw [hbits k hk j hj]
      by_cases hle : n / 8 ≤ k
      · have hbit := hzero (8 * k + j) (by omega) (by omega)
        rw [hbit, Bool.false_and, Bool.false_and]
      · have hi : 8 * k + j < n := by omega
        have hne : k ≠ n / 8 := by omega
        simp [hi, hne]
  · constructor
    · rintro ⟨r, hr, -⟩
      rw [netWorkAddress] at hr
      split at hr
      · omega
      · cases hr
    · rintro ⟨h, -⟩
      exact absurd h hlt

end IPv6Address

/-- Where the three functions give what they should: the masks fail for the full width only, the
network address keeps the wrong part. -/
theorem network_arithmetic_iff (addr : IPv4Address) (addr6 : IPv6Address) {n m : Nat}
    (hn : n ≤ 32) (hm : m ≤ 128) :
    (((∃ r, addr.subnetMask n = some (some r) ∧ IsMask 32 n r.bit) ↔ n ≠ 0) ∧
      ((∃ r, addr.broadcastAddress n = some (some r) ∧ IsBroadcast 32 n addr.bit r.bit) ↔ n ≠ 0) ∧
      ((∃ r, addr.netWorkAddress n = some (some r) ∧ IsNetwork 32 n addr.bit r.bit) ↔
        n ≠ 0 ∧ ∀ i < 32, addr.bit i = false)) ∧
    ((∃ r, addr6.subnetMask m = some r ∧ IsMask 128 m r.bit) ↔ m < 128) ∧
    ((∃ r, addr6.broadcastAddress m = some r ∧ IsBroadcast 128 m addr6.bit r.bit) ↔ m < 128) ∧
    ((∃ r, addr6.netWorkAddress m = some r ∧ IsNetwork 128 m addr6.bit r.bit) ↔
      m < 128 ∧ ∀ i < 128, m / 8 ≤ i / 8 → addr6.bit i = false) :=
  ⟨⟨IPv4Address.subnetMask_iff hn, IPv4Address.broadcastAddress_iff hn,
    IPv4Address.netWorkAddress_iff hn⟩, IPv6Address.subnetMask_iff hm,
    IPv6Address.broadcastAddress_iff hm, IPv6Address.netWorkAddress_iff hm⟩

/-- The mask of 192.168.1.10/24. -/
theorem network_arithmetic_iff_24 :
    ∃ r, IPv4Address.subnetMask ⟨0x0A01A8C0#32, 80#16⟩ 24 = some (some r) ∧ IsMask 32 24 r.bit :=
  (network_arithmetic_iff ⟨0x0A01A8C0#32, 80#16⟩ ⟨Vector.replicate 16 0, 0#16⟩ (n := 24) (m := 64)
    (by decide) (by decide)).1.1.mpr (by decide)

/-- The network of 192.168.1.10/24 comes out as 0.0.0.10. -/
theorem network_keeps_host :
    IPv4Address.netWorkAddress ⟨0x0A01A8C0#32, 80#16⟩ 24 =
        some (some ⟨0x0A000000#32, 80#16⟩) ∧
      ¬IsNetwork 32 24 (IPv4Address.bit ⟨0x0A01A8C0#32, 80#16⟩)
        (IPv4Address.bit ⟨0x0A000000#32, 80#16⟩) := by
  constructor
  · decide
  · intro h
    have hfirst := h 0 (by decide)
    revert hfirst
    decide

end CxkFramework.IpNetwork
