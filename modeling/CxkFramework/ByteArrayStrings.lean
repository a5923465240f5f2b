import CxkFramework.ByteArrayAtomic

/-!
# The string forms

What the string operations do with a length and a body depends on the array through `write`,
`read` and the byte order only. They are stated once over any medium with these three; the
byte array is one, and an ideal sequence that never fails to take a byte is another.
-/

namespace CxkFramework

open Words Blocks Runs CxkFramework.ByteArray

/-- What the typed operations need. -/
structure Medium (σ : Type) where
  endian : σ → Endian
  write : σ → List UInt8 → Except Fault σ
  read : σ → Nat → Except Fault (List UInt8 × σ)

namespace Medium

section

variable {σ : Type} (m : Medium σ)

/-- `writeFuint16_t`, `writeFuint32_t` and `writeFuint64_t`, by their width. -/
def writeWord (n : Nat) (s : σ) (value : Nat) : Except Fault σ :=
  m.write s (swapBytes (m.endian s) n value)

def readWord (n : Nat) (s : σ) : Except Fault (Nat × σ) := do
  let (bytes, s') ← m.read s n
  .ok (unswap (m.endian s) n bytes, s')

/-- The length is converted to the type of its field. -/
def writeString (n : Nat) (s : σ) (str : List UInt8) : Except Fault σ := do
  let s ← m.writeWord n s (str.length % 256 ^ n)
  m.write s str

def readString (n : Nat) (s : σ) : Except Fault (List UInt8 × σ) := do
  let (len, s) ← m.readWord n s
  m.read s len

def writeStringF16 (s : σ) (str : List UInt8) := m.writeString 2 s str
def writeStringF32 (s : σ) (str : List UInt8) := m.writeString 4 s str
def writeStringF64 (s : σ) (str : List UInt8) := m.writeString 8 s str
def writeStringVint (s : σ) (str : List UInt8) := m.writeString 8 s str
def writeStringWithoutLength (s : σ) (str : List UInt8) := m.writeString 8 s str

def readStringF16 (s : σ) := m.readString 2 s
def readStringF32 (s : σ) := m.readString 4 s
def readStringF64 (s : σ) := m.readString 8 s
def readStringVint (s : σ) := m.readString 8 s

end

/-! ## The byte array -/

def byteArray : Medium ByteArray := ⟨ByteArray.endian, ByteArray.write, ByteArray.read⟩

theorem writeString_byteArray (ba : ByteArray) (str : List UInt8) :
    ba.writeStringF16 str = byteArray.writeStringF16 ba str ∧
    ba.writeStringF32 str = byteArray.writeStringF32 ba str ∧
    ba.writeStringF64 str = byteArray.writeStringF64 ba str ∧
    ba.writeStringVint str = byteArray.writeStringVint ba str ∧
    ba.writeStringWithoutLength str = byteArray.writeStringWithoutLength ba str := by
  refine ⟨?_, ?_, ?_, ?_, ?_⟩ <;> rfl

theorem readString_eq (ba : ByteArray) (n : Nat) :
    (do
      let (bytes, ba') ← ba.read n
      ba'.read (unswap ba.endian n bytes % 256 ^ n)) = byteArray.readString n ba := by
  simp only [readString, readWord, byteArray]
  cases hread : ba.read n with
  | error e => rfl
  | ok r =>
    have hlt := unswap_read_lt (show ba.read n = .ok (r.1, r.2) from hread) ba.endian
    simp only [ok_bind, Nat.mod_eq_of_lt hlt]

theorem readString_byteArray (ba : ByteArray) :
    ba.readStringF16 = byteArray.readStringF16 ba ∧
    ba.readStringF32 = byteArray.readStringF32 ba ∧
    ba.readStringF64 = byteArray.readStringF64 ba ∧
    ba.readStringVint = byteArray.readStringVint ba := by
  simp only [Medium.readStringF16, Medium.readStringF32, Medium.readStringF64,
    Medium.readStringVint, ← readString_eq]
  simp only [ByteArray.readStringF16, ByteArray.readStringF32, ByteArray.readStringF64,
    ByteArray.readStringVint, readFuint16, readFuint32, readFuint64, readFixed, unswap]
  refine ⟨?_, ?_, ?_, ?_⟩ <;> cases ba.read _ <;> rfl

end Medium

/-- A sequence that takes every byte at its end and gives them back from its front. -/
structure Sequence where
  endian : Endian
  bytes : List UInt8
  deriving DecidableEq

namespace Medium

def ideal : Medium Sequence where
  endian := Sequence.endian
  write s buf := .ok { s with bytes := s.bytes ++ buf }
  read s n :=
    if n > s.bytes.length then .error (.outOfRange "not enough len")
    else .ok (s.bytes.take n, { s with bytes := s.bytes.drop n })

theorem ideal_writeString (n : Nat) (e : Endian) (before str : List UInt8) :
    ideal.writeString n ⟨e, before⟩ str =
      .ok ⟨e, before ++ (swapBytes e n str.length ++ str)⟩ := by
  rw [writeString, writeWord, swapBytes_mod]
  simp only [ideal, ok_bind, List.append_assoc]

theorem ideal_read_front (e : Endian) (front rest : List UInt8) :
    ideal.read ⟨e, front ++ rest⟩ front.length = .ok (front, ⟨e, rest⟩) := by
  have hlen : ¬front.length > (front ++ rest).length := by
    rw [List.length_append]
    omega
  simp only [ideal, if_neg hlen, List.take_left, List.drop_left]

/-- Any length that fits its field comes back with its string. -/
theorem ideal_readString {n : Nat} {str : List UInt8} (h : str.length < 256 ^ n) (e : Endian)
    (suffix : List UInt8) :
    ideal.readString n ⟨e, swapBytes e n str.length ++ (str ++ suffix)⟩ =
      .ok (str, ⟨e, suffix⟩) := by
  have hword := ideal_read_front e (swapBytes e n str.length) (str ++ suffix)
  rw [length_swapBytes] at hword
  rw [readString, readWord, hword]
  simp only [ok_bind, show ideal.endian ⟨e, swapBytes e n str.length ++ (str ++ suffix)⟩ = e from rfl,
    unswap_swapBytes, Nat.mod_eq_of_lt h]
  exact ideal_read_front e str suffix

end Medium

/-! ## The contracts of the header -/

/-- The string operations. -/
inductive StringForm where
  | f16 | f32 | f64 | vint | withoutLength
  deriving DecidableEq, Repr

namespace StringForm

def write {σ : Type} (m : Medium σ) : StringForm → σ → List UInt8 → Except Fault σ
  | .f16 => m.writeStringF16
  | .f32 => m.writeStringF32
  | .f64 => m.writeStringF64
  | .vint => m.writeStringVint
  | .withoutLength => m.writeStringWithoutLength

/-- There is no read for a string without its length. -/
def read {σ : Type} (m : Medium σ) : StringForm → Option (σ → Except Fault (List UInt8 × σ))
  | .f16 => some m.readStringF16
  | .f32 => some m.readStringF32
  | .f64 => some m.readStringF64
  | .vint => some m.readStringVint
  | .withoutLength => none

/-- A varint with as many groups as the number has. -/
def varint (v : Nat) : List UInt8 := groups (v + 1) v

/-- What stands in front of the body, by the header: a length of fixed width in the byte
order of the array, a varint, or nothing. -/
def IsHead (form : StringForm) (e : Endian) (len : Nat) (head : List UInt8) : Prop :=
  match form with
  | .f16 => head.length = 2 ∧ unswap e 2 head = len
  | .f32 => head.length = 4 ∧ unswap e 4 head = len
  | .f64 => head.length = 8 ∧ unswap e 8 head = len
  | .vint => head = varint len
  | .withoutLength => head = []

/-- The write appends this head and the string, and the read that matches it takes exactly
these bytes off again. -/
def KeepsContract (form : StringForm) (e : Endian) (str : List UInt8) : Prop :=
  ∃ head, form.IsHead e str.length head ∧
    (∀ before, form.write .ideal ⟨e, before⟩ str = .ok ⟨e, before ++ (head ++ str)⟩) ∧
    ∀ readString ∈ form.read .ideal, ∀ suffix,
      readString ⟨e, head ++ (str ++ suffix)⟩ = .ok (str, ⟨e, suffix⟩)

/-- The strings for which the code does so. -/
def Keeps (form : StringForm) (str : List UInt8) : Prop :=
  match form with
  | .f16 => str.length < 2 ^ 16
  | .f32 => str.length < 2 ^ 32
  | .f64 => str.length < 2 ^ 64
  | .vint => False
  | .withoutLength => False

/-! ## Where a varint differs from a word -/

theorem lt_of_length_groups {k v : Nat} (h : v < k) : v < 128 ^ (groups k v).length := by
  induction k generalizing v with
  | zero => omega
  | succ k ih =>
    by_cases hs : v < 128
    · rw [groups_small k v hs]
      simpa using hs
    · have hrest := ih (v := v / 128) (by omega)
      rw [groups_large k v (by omega), List.length_cons, Nat.pow_succ]
      omega

/-- Every byte of a varint says that another one follows or is the number's leading one. -/
theorem zero_not_mem_groups {k v : Nat} (h : 0 < v) : (0 : UInt8) ∉ groups k v := by
  induction k generalizing v with
  | zero => simp [groups]
  | succ k ih =>
    have hne : ∀ x : Nat, 0 < x → x < 256 → (0 : UInt8) ≠ UInt8.ofNat x := by
      intro x hpos hlt heq
      have := congrArg UInt8.toNat heq
      rw [UInt8.toNat_ofNat', Nat.mod_eq_of_lt hlt] at this
      exact absurd this hpos.ne
    by_cases hs : v < 128
    · rw [groups_small k v hs]
      simpa using hne v h (by omega)
    · rw [groups_large k v (by omega), List.mem_cons, not_or]
      exact ⟨hne _ (by omega) (by omega), ih (by omega)⟩

/-- A word with a byte to spare has a zero byte. -/
theorem zero_mem_leBytes {n v : Nat} (h : v < 256 ^ n) : (0 : UInt8) ∈ leBytes (n + 1) v := by
  induction n generalizing v with
  | zero =>
    obtain rfl : v = 0 := by simpa using h
    simp [leBytes]
  | succ n ih =>
    rw [leBytes, List.mem_cons]
    rw [Nat.pow_succ] at h
    exact .inr (ih (by omega))

theorem mem_swapBytes {e : Endian} {n v : Nat} {b : UInt8} (h : b ∈ leBytes n v) :
    b ∈ swapBytes e n v := by
  rw [swapBytes]
  split
  · rw [leBytes_byteswap, List.mem_reverse]
    exact h
  · exact h

/-- The word of eight bytes never is the varint of its number. -/
theorem swapBytes_ne_varint (e : Endian) (v : Nat) : swapBytes e 8 v ≠ varint v := by
  intro h
  have hlen : (varint v).length = 8 := by rw [← h, length_swapBytes]
  have hlt : v < 128 ^ (varint v).length := lt_of_length_groups (Nat.lt_succ_self v)
  rw [hlen] at hlt
  have hzero : (0 : UInt8) ∈ varint v := by
    rw [← h]
    exact mem_swapBytes (zero_mem_leBytes (n := 7) (by omega))
  rcases Nat.eq_zero_or_pos v with rfl | hpos
  · rw [varint, groups_small 0 0 (by decide)] at hlen
    cases hlen
  · exact zero_not_mem_groups hpos hzero

/-! ## Which strings keep the contract -/

/-- What is appended is the word of the length and the string, so only that word can stand in
front of it. -/
theorem head_eq {n : Nat} {e : Endian} {str head : List UInt8}
    (h : ∀ before, Medium.ideal.writeString n ⟨e, before⟩ str = .ok ⟨e, before ++ (head ++ str)⟩) :
    head = swapBytes e n str.length := by
  have h₀ := h []
  rw [Medium.ideal_writeString] at h₀
  have hbytes := congrArg Sequence.bytes (Except.ok.inj h₀)
  exact (List.append_cancel_right hbytes).symm

/-- The forms with a word of fixed width in front. -/
theorem word_contract_iff (n : Nat) (e : Endian) (str : List UInt8) :
    (∃ head : List UInt8, (head.length = n ∧ unswap e n head = str.length) ∧
      (∀ before, Medium.ideal.writeString n ⟨e, before⟩ str =
        .ok ⟨e, before ++ (head ++ str)⟩) ∧
      ∀ suffix, Medium.ideal.readString n ⟨e, head ++ (str ++ suffix)⟩ = .ok (str, ⟨e, suffix⟩)) ↔
      str.length < 256 ^ n := by
  constructor
  · rintro ⟨head, ⟨hlen, hval⟩, -⟩
    rw [← hval]
    exact unswap_lt e hlen
  · intro h
    refine ⟨swapBytes e n str.length, ⟨length_swapBytes e n _, ?_⟩, ?_, ?_⟩
    · rw [unswap_swapBytes, Nat.mod_eq_of_lt h]
    · intro before
      exact Medium.ideal_writeString n e before str
    · intro suffix
      exact Medium.ideal_readString h e suffix

/-- Two, four and eight bytes of length hold what fits them; the varint and the bare string
are never written. -/
theorem keepsContract_iff (form : StringForm) (e : Endian) (str : List UInt8) :
    form.KeepsContract e str ↔ form.Keeps str := by
  cases form with
  | f16 =>
    simpa [KeepsContract, IsHead, Keeps, read, write, Medium.writeStringF16,
      Medium.readStringF16] using word_contract_iff 2 e str
  | f32 =>
    simpa [KeepsContract, IsHead, Keeps, read, write, Medium.writeStringF32,
      Medium.readStringF32] using word_contract_iff 4 e str
  | f64 =>
    simpa [KeepsContract, IsHead, Keeps, read, write, Medium.writeStringF64,
      Medium.readStringF64] using word_contract_iff 8 e str
  | vint =>
    refine iff_of_false ?_ id
    rintro ⟨head, hhead, hwrite, -⟩
    exact swapBytes_ne_varint e str.length ((head_eq hwrite).symm.trans hhead)
  | withoutLength =>
    refine iff_of_false ?_ id
    rintro ⟨head, hhead, hwrite, -⟩
    have hlen := congrArg List.length ((head_eq hwrite).symm.trans hhead)
    rw [length_swapBytes] at hlen
    cases hlen

/-- The empty string: its length takes eight bytes where a varint takes one, and eight bytes
are written where only the string should be. -/
theorem vint_writes_word :
    StringForm.vint.write .ideal ⟨.big, []⟩ [] = .ok ⟨.big, [0, 0, 0, 0, 0, 0, 0, 0]⟩ ∧
    varint 0 = [0] ∧ ¬StringForm.vint.KeepsContract .big [] ∧
    StringForm.withoutLength.write .ideal ⟨.big, []⟩ [] =
      .ok ⟨.big, [0, 0, 0, 0, 0, 0, 0, 0]⟩ ∧ ¬StringForm.withoutLength.KeepsContract .big [] := by
  have hword : StringForm.vint.write .ideal ⟨.big, []⟩ [] =
      .ok ⟨.big, [0, 0, 0, 0, 0, 0, 0, 0]⟩ := by decide
  refine ⟨hword, rfl, ?_, hword, ?_⟩ <;> rintro ⟨head, rfl, hwrite, -⟩
  · exact absurd (hwrite []) (by decide)
  · exact absurd (hwrite []) (by decide)

end StringForm

end CxkFramework
