import CxkFramework.ByteArrayCodec

/-!
# Round trips through the byte array

What a list of typed writes stores is read back by the matching typed reads exactly when
every single `write` and `read` underneath meets its condition on position and length, and
every length prefix holds its length.
-/

namespace CxkFramework.ByteArray

open Words Blocks Runs

/-! ## The three families -/

/-- How a kind is laid out: `word n` is one chunk of `n` bytes, `groups w rounds` is written
as one chunk and read byte by byte, `string n` is a length of `n` bytes and a body. -/
inductive Shape where
  | word (n : Nat)
  | groups (w rounds : Nat)
  | string (n : Nat)
  deriving DecidableEq, Repr

def Kind.shape : Kind → Shape
  | .fint8 | .fuint8 => .word 1
  | .fint16 | .fuint16 => .word 2
  | .fint32 | .fuint32 => .word 4
  | .fint64 | .fuint64 => .word 8
  | .int32 | .uint32 => .groups 32 5
  | .int64 | .uint64 => .groups 64 10
  | .stringF32 => .string 4
  | .stringF64 | .stringVint => .string 8

/-- The number a value is written as. -/
def Value.word : Value → Nat
  | .fint8 v => v.toUInt8.toNat | .fuint8 v => v.toNat
  | .fint16 v => v.toUInt16.toNat | .fuint16 v => v.toNat
  | .fint32 v => v.toUInt32.toNat | .fuint32 v => v.toNat
  | .fint64 v => v.toUInt64.toNat | .fuint64 v => v.toNat
  | .int32 v => (encodeZigzag32 v).toNat | .uint32 v => v.toNat
  | .int64 v => (encodeZigzag64 v).toNat | .uint64 v => v.toNat
  | .stringF32 s | .stringF64 s | .stringVint s => s.length

/-- The body of a string, empty for a number. -/
def Value.str : Value → List UInt8
  | .stringF32 s | .stringF64 s | .stringVint s => s
  | _ => []

/-- The value of a kind with the given number and body. -/
def Kind.toValue : Kind → Nat → List UInt8 → Value
  | .fint8, x, _ => .fint8 (UInt8.ofNat x).toInt8
  | .fuint8, x, _ => .fuint8 (UInt8.ofNat x)
  | .fint16, x, _ => .fint16 (UInt16.ofNat x).toInt16
  | .fuint16, x, _ => .fuint16 (UInt16.ofNat x)
  | .fint32, x, _ => .fint32 (UInt32.ofNat x).toInt32
  | .fuint32, x, _ => .fuint32 (UInt32.ofNat x)
  | .fint64, x, _ => .fint64 (UInt64.ofNat x).toInt64
  | .fuint64, x, _ => .fuint64 (UInt64.ofNat x)
  | .int32, x, _ => .int32 (decodeZigzag32 (UInt32.ofNat x))
  | .uint32, x, _ => .uint32 (UInt32.ofNat x)
  | .int64, x, _ => .int64 (decodeZigzag64 (UInt64.ofNat x))
  | .uint64, x, _ => .uint64 (UInt64.ofNat x)
  | .stringF32, _, s => .stringF32 s
  | .stringF64, _, s => .stringF64 s
  | .stringVint, _, s => .stringVint s

/-- The bytes of a word in the byte order of the array. -/
def swapBytes (endian : Endian) (n value : Nat) : List UInt8 :=
  leBytes n (if endian ≠ byteOrder then byteswap n value else value)

@[simp] theorem length_swapBytes (endian : Endian) (n value : Nat) :
    (swapBytes endian n value).length = n := length_leBytes _ _

/-- The word that `readFixed` makes of its bytes. -/
def unswap (endian : Endian) (n : Nat) (bytes : List UInt8) : Nat :=
  if endian = byteOrder then leValue bytes else byteswap n (leValue bytes)

theorem unswap_swapBytes (endian : Endian) (n value : Nat) :
    unswap endian n (swapBytes endian n value) = value % 256 ^ n := by
  rw [unswap, swapBytes]
  by_cases h : endian = byteOrder
  · rw [if_pos h, if_neg (not_not.mpr h), leValue_leBytes]
  · rw [if_neg h, if_pos h, leValue_leBytes, Nat.mod_eq_of_lt (byteswap_lt n value),
      byteswap_byteswap]

theorem swapBytes_unswap (endian : Endian) (bytes : List UInt8) :
    swapBytes endian bytes.length (unswap endian bytes.length bytes) = bytes := by
  have hlt := leValue_lt bytes
  rw [unswap, swapBytes]
  by_cases h : endian = byteOrder
  · rw [if_pos h, if_neg (not_not.mpr h), leBytes_leValue]
  · rw [if_neg h, if_pos h, byteswap_byteswap, Nat.mod_eq_of_lt hlt, leBytes_leValue]

theorem unswap_lt (endian : Endian) {n : Nat} {bytes : List UInt8} (h : bytes.length = n) :
    unswap endian n bytes < 256 ^ n := by
  subst h
  rw [unswap]
  split
  · exact leValue_lt bytes
  · exact byteswap_lt _ _

/-- A single byte is the same in both orders. -/
theorem byteswap_one (v : Nat) : byteswap 1 v = v % 256 := by
  have h := leValue_leBytes 1 v
  rwa [Nat.pow_one] at h

theorem swapBytes_one (endian : Endian) {value : Nat} (h : value < 256) :
    swapBytes endian 1 value = leBytes 1 value := by
  rw [swapBytes, byteswap_one, Nat.mod_eq_of_lt h, ite_self]

/-! ## Zigzag -/

theorem toBitVec_encodeZigzag32 (v : Int32) : (encodeZigzag32 v).toBitVec = zigzag v.toBitVec := by
  have hneg : v < 0 ↔ v.toBitVec.msb = true := by
    rw [Int32.lt_iff_toBitVec_slt, BitVec.msb_eq_toInt, BitVec.slt]
    simp
  rw [encodeZigzag32, zigzag]
  by_cases h : v < 0
  · rw [if_pos h, if_pos (hneg.mp h)]
    simp
  · rw [if_neg h, if_neg (hneg.not.mp h)]
    simp

theorem toBitVec_encodeZigzag64 (v : Int64) : (encodeZigzag64 v).toBitVec = zigzag v.toBitVec := by
  have hneg : v < 0 ↔ v.toBitVec.msb = true := by
    rw [Int64.lt_iff_toBitVec_slt, BitVec.msb_eq_toInt, BitVec.slt]
    simp
  rw [encodeZigzag64, zigzag]
  by_cases h : v < 0
  · rw [if_pos h, if_pos (hneg.mp h)]
    simp
  · rw [if_neg h, if_neg (hneg.not.mp h)]
    simp

theorem decodeZigzag32_encodeZigzag32 (v : Int32) : decodeZigzag32 (encodeZigzag32 v) = v := by
  apply Int32.toBitVec_inj.mp
  have h := unzigzag_zigzag v.toBitVec
  rw [← toBitVec_encodeZigzag32, unzigzag] at h
  simpa [decodeZigzag32] using h

theorem decodeZigzag64_encodeZigzag64 (v : Int64) : decodeZigzag64 (encodeZigzag64 v) = v := by
  apply Int64.toBitVec_inj.mp
  have h := unzigzag_zigzag v.toBitVec
  rw [← toBitVec_encodeZigzag64, unzigzag] at h
  simpa [decodeZigzag64] using h

/-! ## Values and their numbers -/

theorem toValue_word (v : Value) : v.kind.toValue v.word v.str = v := by
  cases v <;> simp [Value.kind, Kind.toValue, Value.word, Value.str, decodeZigzag32_encodeZigzag32,
    decodeZigzag64_encodeZigzag64]

theorem word_lt_of_word {v : Value} {n : Nat} (h : v.kind.shape = .word n) : v.word < 256 ^ n := by
  cases v <;> cases h <;> first
    | exact UInt8.toNat_lt _ | exact UInt16.toNat_lt _ | exact UInt32.toNat_lt _
    | exact UInt64.toNat_lt _

theorem word_lt_of_groups {v : Value} {w rounds : Nat} (h : v.kind.shape = .groups w rounds) :
    v.word < 2 ^ w ∧ w ≤ 7 * rounds := by
  cases v <;> cases h <;> first
    | exact ⟨UInt32.toNat_lt _, by decide⟩ | exact ⟨UInt64.toNat_lt _, by decide⟩

/-- Different words are different values. -/
theorem word_toValue {k : Kind} {n x : Nat} (h : k.shape = .word n) (hx : x < 256 ^ n)
    (s : List UInt8) : (k.toValue x s).word = x := by
  cases k <;> cases h <;> simp [Kind.toValue, Value.word] <;> omega

theorem str_toValue {k : Kind} {n : Nat} (h : k.shape = .string n) (x : Nat) (s : List UInt8) :
    (k.toValue x s).str = s := by
  cases k <;> cases h <;> rfl

theorem toValue_string {k : Kind} {n : Nat} (h : k.shape = .string n) (x y : Nat) (s : List UInt8) :
    k.toValue x s = k.toValue y s := by
  cases k <;> cases h <;> rfl

theorem toValue_number {k : Kind} (h : ∀ n, k.shape ≠ .string n) (x : Nat) (s t : List UInt8) :
    k.toValue x s = k.toValue x t := by
  cases k <;> first | rfl | exact absurd rfl (h _)

theorem word_of_string {v : Value} {n : Nat} (h : v.kind.shape = .string n) :
    v.word = v.str.length := by
  cases v <;> cases h <;> rfl

/-! ## The operations as chunks -/

/-- The chunks a typed write passes to `write`. -/
def Value.chunks (endian : Endian) (v : Value) : List (List UInt8) :=
  match v.kind.shape with
  | .word n => [swapBytes endian n v.word]
  | .groups _ rounds => [groups rounds v.word]
  | .string n => [swapBytes endian n v.word, v.str]

/-- The chunks the matching typed read asks `read` for. -/
def Value.readChunks (endian : Endian) (v : Value) : List (List UInt8) :=
  match v.kind.shape with
  | .word n => [swapBytes endian n v.word]
  | .groups _ rounds => (groups rounds v.word).map (fun b => [b])
  | .string n => [swapBytes endian n v.word, v.str]

/-- The length prefix of a string can hold its length. -/
def Value.Short (v : Value) : Prop :=
  match v.kind.shape with
  | .string n => v.str.length < 256 ^ n
  | _ => True

instance (v : Value) : Decidable v.Short :=
  match h : v.kind.shape with
  | .word _ => .isTrue (by rw [Value.Short, h]; trivial)
  | .groups _ _ => .isTrue (by rw [Value.Short, h]; trivial)
  | .string n => decidable_of_iff (v.str.length < 256 ^ n) (by rw [Value.Short, h])

theorem flatten_readChunks (endian : Endian) (v : Value) :
    (v.readChunks endian).flatten = (v.chunks endian).flatten := by
  rw [Value.readChunks, Value.chunks]
  cases v.kind.shape with
  | word n => rfl
  | groups w rounds => simp [← List.flatMap_def]
  | string n => rfl

theorem leBytes_mod (n v : Nat) : leBytes n (v % 256 ^ n) = leBytes n v := by
  have h := leBytes_leValue (leBytes n v)
  rwa [leValue_leBytes, length_leBytes] at h

theorem swapBytes_mod (endian : Endian) (n v : Nat) :
    swapBytes endian n (v % 256 ^ n) = swapBytes endian n v := by
  rw [swapBytes, swapBytes, byteswap, leBytes_mod, ← byteswap]
  split
  · rfl
  · exact leBytes_mod n v

theorem writeChunks_singleton (ba : ByteArray) (chunk : List UInt8) :
    ba.writeChunks [chunk] = ba.write chunk := by
  rw [writeChunks]
  cases ba.write chunk <;> rfl

theorem writeFixed_eq (ba : ByteArray) (n value : Nat) :
    ba.writeFixed n value = ba.write (swapBytes ba.endian n value) := rfl

theorem writeValue_eq (ba : ByteArray) (v : Value) :
    ba.writeValue v = ba.writeChunks (v.chunks ba.endian) := by
  have hstring : ∀ (n len : Nat) (s : List UInt8),
      (do let ba ← ba.writeFixed n (len % 256 ^ n); ba.write s) =
        ba.writeChunks [swapBytes ba.endian n len, s] := by
    intro n len s
    rw [writeFixed_eq, swapBytes_mod, writeChunks]
    congr 1
    funext ba'
    rw [writeChunks_singleton]
  cases v with
  | fint8 v =>
    simp only [writeValue, writeFint8, Value.chunks, Value.kind, Kind.shape, writeChunks_singleton,
      Value.word]
    rw [swapBytes_one _ (UInt8.toNat_lt _)]
  | fuint8 v =>
    simp only [writeValue, writeFuint8, Value.chunks, Value.kind, Kind.shape, writeChunks_singleton,
      Value.word]
    rw [swapBytes_one _ (UInt8.toNat_lt _)]
  | stringF32 s =>
    have h := hstring 4 s.length s
    simpa [writeValue, writeStringF32, writeFuint32, Value.chunks, Value.kind, Kind.shape, Value.word,
      Value.str] using h
  | stringF64 s =>
    have h := hstring 8 s.length s
    simpa [writeValue, writeStringF64, writeFuint64, Value.chunks, Value.kind, Kind.shape, Value.word,
      Value.str] using h
  | stringVint s =>
    have h := hstring 8 s.length s
    simpa [writeValue, writeStringVint, writeFuint64, Value.chunks, Value.kind, Kind.shape, Value.word,
      Value.str] using h
  | _ =>
    simp only [writeValue, Value.chunks, Value.kind, Kind.shape, writeChunks_singleton]
    rfl

/-- The typed reads of the first family. -/
theorem readValue_word {k : Kind} {n : Nat} (h : k.shape = .word n) (ba : ByteArray) :
    ba.readValue k = (do
      let (bytes, ba') ← ba.read n
      .ok (k.toValue (unswap ba.endian n bytes) [], ba')) := by
  have hone : ∀ bytes, UInt8.ofNat (unswap ba.endian 1 bytes) = UInt8.ofNat (leValue bytes) := by
    intro bytes
    rw [unswap, byteswap_one]
    split
    · rfl
    · apply UInt8.toNat_inj.mp
      simp
  cases k <;> cases h <;>
    simp only [readValue, tag, readFint8, readFuint8, readFint16, readFuint16, readFint32,
      readFuint32, readFint64, readFuint64, readFixed, Kind.toValue, hone]
  all_goals cases ba.read _ <;> rfl

theorem readValue_groups {k : Kind} {w rounds : Nat} (h : k.shape = .groups w rounds)
    (ba : ByteArray) : ba.readValue k = (do
      let (x, ba') ← ba.readGroups w rounds
      .ok (k.toValue x [], ba')) := by
  cases k <;> cases h <;>
    simp only [readValue, tag, readInt32, readUint32, readInt64, readUint64, Kind.toValue]
  all_goals cases ba.readGroups _ _ <;> rfl

theorem readValue_string {k : Kind} {n : Nat} (h : k.shape = .string n) (ba : ByteArray) :
    ba.readValue k = (do
      let (head, ba₁) ← ba.read n
      let (body, ba') ← ba₁.read (unswap ba.endian n head % 256 ^ n)
      .ok (k.toValue 0 body, ba')) := by
  cases k <;> cases h <;>
    simp only [readValue, tag, readStringF32, readStringF64, readStringVint, readFuint32,
      readFuint64, readFixed, Kind.toValue, unswap]
  all_goals cases ba.read _ <;> simp

/-! ## One value -/

section Value

variable {garbage : Nat → UInt8} {base : Nat} {endian : Endian} {pre post : List UInt8}
  {ba ba' : ByteArray} {v : Value}

/-- A chunk whose place in the data is known. -/
theorem Synced.read_chunk {chunk : List UInt8}
    (h : Synced garbage base endian (pre ++ (chunk ++ post)) pre.length ba)
    (hk : ChunkReads garbage base (pre ++ (chunk ++ post)) pre.length chunk.length) :
    ∃ ba', ba.read chunk.length = .ok (chunk, ba') ∧
      Synced garbage base endian (pre ++ (chunk ++ post)) (pre.length + chunk.length) ba' := by
  have hle : pre.length + chunk.length ≤ (pre ++ (chunk ++ post)).length := by
    simp only [List.length_append]
    omega
  obtain ⟨ba', hok, h'⟩ := h.read_ok hle hk
  rw [slice_middle] at hok
  exact ⟨ba', hok, h'⟩

/-- Move a chunk from what is to come to what was read. -/
theorem Synced.shift {chunk : List UInt8}
    (h : Synced garbage base endian (pre ++ (chunk ++ post)) (pre.length + chunk.length) ba) :
    Synced garbage base endian ((pre ++ chunk) ++ post) (pre ++ chunk).length ba := by
  rwa [List.append_assoc, List.length_append]

/-- Byte by byte nothing can go wrong. -/
theorem Synced.feeds {bytes : List UInt8}
    (h : Synced garbage base endian (pre ++ (bytes ++ post)) pre.length ba) :
    ∃ ba', Feeds readFuint8 ba bytes ba' ∧
      Synced garbage base endian (pre ++ (bytes ++ post)) (pre.length + bytes.length) ba' := by
  induction bytes generalizing pre ba with
  | nil => exact ⟨ba, .nil ba, h⟩
  | cons b bytes ih =>
    have hb : Synced garbage base endian (pre ++ ([b] ++ (bytes ++ post))) pre.length ba := h
    obtain ⟨ba₁, hok, h₁⟩ := hb.read_chunk (chunkReads_one _ h.base_pos _ _)
    have hbyte : ba.readFuint8 = .ok (b, ba₁) := by
      rw [readFuint8, show (1 : Nat) = [b].length from rfl, hok]
      simp [leValue]
    obtain ⟨ba', hfeeds, h'⟩ := ih h₁.shift
    refine ⟨ba', .cons hbyte hfeeds, ?_⟩
    rw [List.append_assoc] at h'
    simpa [Nat.add_assoc, Nat.add_comm 1] using h'

theorem Synced.readGroups_ok {bytes : List UInt8} {w rounds x : Nat} (hx : x < 2 ^ w)
    (hw : w ≤ 7 * rounds) (hbytes : bytes = groups rounds x)
    (h : Synced garbage base endian (pre ++ (bytes ++ post)) pre.length ba) :
    ∃ ba', ba.readGroups w rounds = .ok (x, ba') ∧
      Synced garbage base endian (pre ++ (bytes ++ post)) (pre.length + bytes.length) ba' := by
  obtain ⟨ba', hfeeds, h'⟩ := h.feeds
  refine ⟨ba', ?_, h'⟩
  rw [hbytes] at hfeeds
  have hgroups := ungroup_groups hx rounds 0 (by omega)
    (show Feeds readFuint8 ba (groups rounds (x / 2 ^ 0)) ba' by simpa using hfeeds)
  simpa [readGroups, Nat.mod_one] using hgroups

theorem Synced.readValue_ok
    (h : Synced garbage base endian (pre ++ ((v.chunks endian).flatten ++ post)) pre.length ba)
    (hshort : v.Short)
    (hk : ChunksRead garbage base (pre ++ ((v.chunks endian).flatten ++ post)) pre.length
      (v.readChunks endian)) :
    ∃ ba', ba.readValue v.kind = .ok (v, ba') ∧
      Synced garbage base endian (pre ++ ((v.chunks endian).flatten ++ post))
        (pre.length + (v.chunks endian).flatten.length) ba' := by
  have hv := toValue_word v
  cases hs : v.kind.shape with
  | word n =>
    have hchunks : v.chunks endian = [swapBytes endian n v.word] := by rw [Value.chunks, hs]
    have hread : v.readChunks endian = [swapBytes endian n v.word] := by rw [Value.readChunks, hs]
    rw [hchunks, List.flatten_singleton] at h hk ⊢
    rw [hread] at hk
    obtain ⟨ba', hok, h'⟩ := h.read_chunk hk.1
    rw [length_swapBytes] at hok
    refine ⟨ba', ?_, h'⟩
    rw [readValue_word hs, hok, ok_bind, h.endian_eq]
    simp only [unswap_swapBytes, Nat.mod_eq_of_lt (word_lt_of_word hs)]
    rw [toValue_number (k := v.kind) (by simp [hs]) _ [] v.str, hv]
  | groups w rounds =>
    have hchunks : v.chunks endian = [groups rounds v.word] := by rw [Value.chunks, hs]
    rw [hchunks, List.flatten_singleton] at h ⊢
    obtain ⟨hlt, hw⟩ := word_lt_of_groups hs
    obtain ⟨ba', hok, h'⟩ := h.readGroups_ok hlt hw rfl
    refine ⟨ba', ?_, h'⟩
    rw [readValue_groups hs, hok, ok_bind]
    simp only [toValue_number (k := v.kind) (by simp [hs]) _ [] v.str, hv]
  | string n =>
    have hchunks : v.chunks endian = [swapBytes endian n v.word, v.str] := by
      rw [Value.chunks, hs]
    have hread : v.readChunks endian = [swapBytes endian n v.word, v.str] := by
      rw [Value.readChunks, hs]
    have hword := word_of_string hs
    rw [Value.Short, hs] at hshort
    rw [hchunks, List.flatten_cons, List.flatten_singleton, List.append_assoc] at h hk ⊢
    rw [hread] at hk
    obtain ⟨hk₁, hk₂, -⟩ := hk
    obtain ⟨ba₁, hok₁, h₁⟩ := h.read_chunk hk₁
    rw [← List.append_assoc, ← List.length_append] at hk₂
    obtain ⟨ba', hok₂, h₂⟩ := h₁.shift.read_chunk hk₂
    rw [length_swapBytes] at hok₁
    refine ⟨ba', ?_, ?_⟩
    · rw [readValue_string hs, hok₁, ok_bind, h.endian_eq]
      simp only [unswap_swapBytes, hword, Nat.mod_eq_of_lt hshort, hok₂, ok_bind]
      rw [toValue_string hs 0 v.word, hv]
    · rw [List.append_assoc] at h₂
      simpa [Nat.add_assoc] using h₂

/-- Typed reads never make good for a cursor that is ahead. -/
theorem Ahead.readValue {total : Nat} {k : Kind} (h : Ahead total ba)
    (hok : ba.readValue k = .ok (v, ba')) : Ahead total ba' := by
  cases hs : k.shape with
  | word n =>
    rw [readValue_word hs] at hok
    obtain ⟨⟨bytes, ba₁⟩, hread, hok⟩ := bind_eq_ok.mp hok
    cases hok
    exact h.read hread
  | groups w rounds =>
    rw [readValue_groups hs] at hok
    obtain ⟨⟨x, ba₁⟩, hread, hok⟩ := bind_eq_ok.mp hok
    cases hok
    refine ungroup_keeps (I := Ahead total) (fun s b s' hs hbyte => ?_) h hread
    obtain ⟨⟨bytes, ba₂⟩, hread', hbyte⟩ := bind_eq_ok.mp hbyte
    cases hbyte
    exact hs.read hread'
  | string n =>
    rw [readValue_string hs] at hok
    obtain ⟨⟨head, ba₁⟩, hread₁, hok⟩ := bind_eq_ok.mp hok
    obtain ⟨⟨body, ba₂⟩, hread₂, hok⟩ := bind_eq_ok.mp hok
    cases hok
    exact (h.read hread₁).read hread₂

theorem Synced.chunk_or_ahead {chunk : List UInt8}
    (h : Synced garbage base endian (pre ++ (chunk ++ post)) pre.length ba)
    (hf : ChunkFits base pre.length chunk.length)
    (hok : ba.read chunk.length = .ok (chunk, ba')) :
    (ChunkReads garbage base (pre ++ (chunk ++ post)) pre.length chunk.length ∧
      Synced garbage base endian (pre ++ (chunk ++ post)) (pre.length + chunk.length) ba') ∨
    Ahead (pre ++ (chunk ++ post)).length ba' := by
  have hle : pre.length + chunk.length ≤ (pre ++ (chunk ++ post)).length := by
    simp only [List.length_append]
    omega
  rcases h.chunkReads_or_ahead hle hf (by rw [slice_middle]; exact hok) with hk | ha
  · obtain ⟨ba₁, hok₁, h₁⟩ := h.read_chunk hk
    rw [hok] at hok₁
    cases hok₁
    exact .inl ⟨hk, h₁⟩
  · exact .inr ha

theorem chunksRead_bytes (stream : List UInt8) (hb : 0 < base) (p : Nat) (bytes : List UInt8) :
    ChunksRead garbage base stream p (bytes.map (fun b => [b])) := by
  induction bytes generalizing p with
  | nil => trivial
  | cons b bytes ih => exact ⟨chunkReads_one garbage hb stream p, ih (p + 1)⟩

/-- The converse of `Synced.readValue_ok`. -/
theorem Synced.value_or_ahead
    (h : Synced garbage base endian (pre ++ ((v.chunks endian).flatten ++ post)) pre.length ba)
    (hf : ChunksFit base pre.length (v.chunks endian))
    (hok : ba.readValue v.kind = .ok (v, ba')) :
    (v.Short ∧ ChunksRead garbage base (pre ++ ((v.chunks endian).flatten ++ post)) pre.length
      (v.readChunks endian)) ∨
    Ahead (pre ++ ((v.chunks endian).flatten ++ post)).length ba' := by
  cases hs : v.kind.shape with
  | word n =>
    have hchunks : v.chunks endian = [swapBytes endian n v.word] := by rw [Value.chunks, hs]
    have hread : v.readChunks endian = [swapBytes endian n v.word] := by rw [Value.readChunks, hs]
    have hshort : v.Short := by rw [Value.Short, hs]; trivial
    rw [hchunks, List.flatten_singleton] at h ⊢
    rw [hchunks] at hf
    rw [hread]
    rw [readValue_word hs] at hok
    obtain ⟨⟨bytes, ba₁⟩, hraw, hok⟩ := bind_eq_ok.mp hok
    simp only [Except.ok.injEq, Prod.mk.injEq] at hok
    obtain ⟨hv, rfl⟩ := hok
    have hlen := (read_inv h.shaped h.cur_eq hraw).2.2.2.1.length_eq
    -- only the bytes that were written decode to the value that was written
    have hword := congrArg Value.word hv
    rw [word_toValue hs (unswap_lt _ hlen), h.endian_eq] at hword
    have hbytes : bytes = swapBytes endian n v.word := by
      rw [← hword, ← hlen, swapBytes_unswap]
    rw [hbytes] at hraw
    rcases h.chunk_or_ahead hf.1 (by rwa [length_swapBytes]) with ⟨hk, -⟩ | ha
    · exact .inl ⟨hshort, hk, trivial⟩
    · exact .inr ha
  | groups w rounds =>
    have hread : v.readChunks endian = (groups rounds v.word).map (fun b => [b]) := by
      rw [Value.readChunks, hs]
    have hshort : v.Short := by rw [Value.Short, hs]; trivial
    left
    rw [hread]
    exact ⟨hshort, chunksRead_bytes _ h.base_pos _ _⟩
  | string n =>
    have hchunks : v.chunks endian = [swapBytes endian n v.word, v.str] := by
      rw [Value.chunks, hs]
    have hread : v.readChunks endian = [swapBytes endian n v.word, v.str] := by
      rw [Value.readChunks, hs]
    have hword := word_of_string hs
    rw [hchunks, List.flatten_cons, List.flatten_singleton, List.append_assoc] at h ⊢
    rw [hchunks] at hf
    obtain ⟨hf₁, hf₂, -⟩ := hf
    rw [hread]
    rw [readValue_string hs] at hok
    obtain ⟨⟨head, ba₁⟩, hraw₁, hok⟩ := bind_eq_ok.mp hok
    obtain ⟨⟨body, ba₂⟩, hraw₂, hok⟩ := bind_eq_ok.mp hok
    simp only [Except.ok.injEq, Prod.mk.injEq] at hok
    obtain ⟨hv, rfl⟩ := hok
    obtain ⟨-, -, -, hw₁, hba₁⟩ := read_inv h.shaped h.cur_eq hraw₁
    have hlen := hw₁.length_eq
    have hbody : body = v.str := by rw [← hv, str_toValue hs]
    -- the length that was read is the length of the string, so the prefix could hold it
    have hcount : unswap ba.endian n head % 256 ^ n = v.str.length := by
      rw [← hbody]
      exact (read_inv (hba₁ ▸ shaped_advanced h.shaped _ _ _) (by rw [hba₁]; rfl)
        hraw₂).2.2.2.1.length_eq.symm
    have hshort : v.Short := by
      rw [Value.Short, hs]
      exact hcount ▸ Nat.mod_lt _ (Nat.pow_pos (by decide))
    have hhead : head = swapBytes endian n v.word := by
      rw [hword, ← hcount, h.endian_eq, Nat.mod_eq_of_lt (unswap_lt _ hlen), ← hlen,
        swapBytes_unswap]
    rw [hhead] at hraw₁
    rw [hcount, hbody] at hraw₂
    rcases h.chunk_or_ahead hf₁ (by rwa [length_swapBytes]) with ⟨hk₁, h₁⟩ | ha
    · rw [← List.length_append] at hf₂
      rcases h₁.shift.chunk_or_ahead hf₂ hraw₂ with ⟨hk₂, -⟩ | ha
      · rw [List.append_assoc, List.length_append] at hk₂
        exact .inl ⟨hshort, hk₁, hk₂, trivial⟩
      · rw [List.append_assoc] at ha
        exact .inr ha
    · exact .inr (ha.read hraw₂)

end Value

/-! ## Lists of values -/

/-- All the chunks a list of typed writes passes to `write`. -/
def writeChunksOf (endian : Endian) (vs : List Value) : List (List UInt8) :=
  vs.flatMap (Value.chunks endian)

/-- All the chunks the matching reads ask `read` for. -/
def readChunksOf (endian : Endian) (vs : List Value) : List (List UInt8) :=
  vs.flatMap (Value.readChunks endian)

/-- The bytes a list of values is stored as. -/
def encode (endian : Endian) (vs : List Value) : List UInt8 := (writeChunksOf endian vs).flatten

@[simp] theorem encode_nil (endian : Endian) : encode endian [] = [] := rfl

@[simp] theorem encode_cons (endian : Endian) (v : Value) (vs : List Value) :
    encode endian (v :: vs) = (v.chunks endian).flatten ++ encode endian vs := by
  simp [encode, writeChunksOf]

theorem encode_append (endian : Endian) (vs us : List Value) :
    encode endian (vs ++ us) = encode endian vs ++ encode endian us := by
  simp [encode, writeChunksOf]

theorem flatten_readChunksOf (endian : Endian) (vs : List Value) :
    (readChunksOf endian vs).flatten = encode endian vs := by
  induction vs with
  | nil => rfl
  | cons v vs ih =>
    rw [readChunksOf, List.flatMap_cons, List.flatten_append, flatten_readChunks, ← readChunksOf, ih,
      encode_cons]

theorem writeChunks_append (ba : ByteArray) (cs ds : List (List UInt8)) :
    ba.writeChunks (cs ++ ds) = (do let ba ← ba.writeChunks cs; ba.writeChunks ds) := by
  induction cs generalizing ba with
  | nil => rfl
  | cons c cs ih =>
    rw [List.cons_append, writeChunks, writeChunks]
    cases ba.write c with
    | error e => rfl
    | ok ba' => exact ih ba'

section Lists

variable {garbage : Nat → UInt8} {base : Nat} {endian : Endian} {pre : List UInt8}
  {ba ba' : ByteArray}

theorem Filled.writeValue_eq {stream : List UInt8} (h : Filled garbage base endian stream ba)
    (v : Value) : ba.writeValue v = ba.writeChunks (v.chunks endian) := by
  rw [ByteArray.writeValue_eq, h.endian_eq]

theorem Filled.writeAll_eq {stream : List UInt8} (h : Filled garbage base endian stream ba)
    (vs : List Value) : ba.writeAll vs = ba.writeChunks (writeChunksOf endian vs) := by
  induction vs generalizing ba stream with
  | nil => rfl
  | cons v vs ih =>
    rw [writeAll, writeChunksOf, List.flatMap_cons, writeChunks_append, h.writeValue_eq]
    cases hok : ba.writeChunks (v.chunks endian) with
    | error e => rfl
    | ok ba₁ =>
      obtain ⟨ba₂, hok₂, h₂⟩ := h.writeChunks_ok (h.chunksFit_of_ok hok)
      rw [hok] at hok₂
      cases hok₂
      exact ih h₂

/-- The values at the front of what is still to come. -/
theorem Synced.readAll_front {vs : List Value} {post : List UInt8}
    (h : Synced garbage base endian (pre ++ (encode endian vs ++ post)) pre.length ba)
    (hshort : ∀ v ∈ vs, v.Short)
    (hk : ChunksRead garbage base (pre ++ (encode endian vs ++ post)) pre.length
      (readChunksOf endian vs)) :
    ∃ ba', ba.readAll (vs.map Value.kind) = .ok (vs, ba') ∧
      Synced garbage base endian ((pre ++ encode endian vs) ++ post)
        (pre ++ encode endian vs).length ba' := by
  induction vs generalizing pre ba with
  | nil => exact ⟨ba, rfl, by simpa using h⟩
  | cons v vs ih =>
    rw [encode_cons, List.append_assoc] at h hk
    rw [encode_cons]
    rw [readChunksOf, List.flatMap_cons, chunksRead_append, flatten_readChunks] at hk
    obtain ⟨ba₁, hok₁, h₁⟩ := h.readValue_ok (hshort v (List.mem_cons_self)) hk.1
    obtain ⟨ba', hok, h'⟩ := ih h₁.shift (fun u hu => hshort u (List.mem_cons_of_mem v hu))
      (by rw [List.append_assoc, List.length_append]; exact hk.2)
    rw [List.append_assoc pre] at h'
    refine ⟨ba', ?_, h'⟩
    rw [List.map_cons, readAll, hok₁, ok_bind]
    simp only [hok, ok_bind]

theorem Synced.readAll_ok {vs : List Value}
    (h : Synced garbage base endian (pre ++ encode endian vs) pre.length ba)
    (hshort : ∀ v ∈ vs, v.Short)
    (hk : ChunksRead garbage base (pre ++ encode endian vs) pre.length (readChunksOf endian vs)) :
    ∃ ba', ba.readAll (vs.map Value.kind) = .ok (vs, ba') ∧
      Synced garbage base endian (pre ++ encode endian vs)
        (pre ++ encode endian vs).length ba' := by
  rw [← List.append_nil (encode endian vs)] at h hk
  have hfront := h.readAll_front hshort hk
  rwa [List.append_nil] at hfront

theorem Ahead.readAll {total : Nat} {ks : List Kind} {vs : List Value} (h : Ahead total ba)
    (hok : ba.readAll ks = .ok (vs, ba')) : Ahead total ba' := by
  induction ks generalizing ba vs with
  | nil =>
    cases hok
    exact h
  | cons k ks ih =>
    obtain ⟨⟨v, ba₁⟩, hok₁, hok⟩ := bind_eq_ok.mp hok
    obtain ⟨⟨vs', ba₂⟩, hok₂, hok⟩ := bind_eq_ok.mp hok
    cases hok
    exact ih (h.readValue hok₁) hok₂

/-- The converse of `Synced.readAll_ok`. -/
theorem Synced.chunksRead_of_ok {vs : List Value}
    (h : Synced garbage base endian (pre ++ encode endian vs) pre.length ba)
    (hf : ChunksFit base pre.length (writeChunksOf endian vs))
    (hok : ba.readAll (vs.map Value.kind) = .ok (vs, ba')) (hend : ba'.getReadSize = 0) :
    (∀ v ∈ vs, v.Short) ∧
      ChunksRead garbage base (pre ++ encode endian vs) pre.length (readChunksOf endian vs) := by
  induction vs generalizing pre ba with
  | nil => exact ⟨fun v hv => absurd hv (List.not_mem_nil), trivial⟩
  | cons v vs ih =>
    rw [encode_cons] at h ⊢
    rw [writeChunksOf, List.flatMap_cons, chunksFit_append] at hf
    rw [List.map_cons, readAll] at hok
    obtain ⟨⟨u, ba₁⟩, hok₁, hok⟩ := bind_eq_ok.mp hok
    obtain ⟨⟨us, ba₂⟩, hok₂, hok⟩ := bind_eq_ok.mp hok
    simp only [Except.ok.injEq, Prod.mk.injEq, List.cons.injEq] at hok
    obtain ⟨⟨rfl, rfl⟩, rfl⟩ := hok
    rcases h.value_or_ahead hf.1 hok₁ with ⟨hshort, hk⟩ | ha
    · obtain ⟨ba₃, hok₃, h₃⟩ := h.readValue_ok hshort hk
      rw [hok₁] at hok₃
      cases hok₃
      obtain ⟨hshorts, hks⟩ := ih h₃.shift (by rw [List.length_append]; exact hf.2) hok₂
      rw [List.append_assoc, List.length_append] at hks
      refine ⟨fun w hw => ?_, ?_⟩
      · rcases List.mem_cons.mp hw with rfl | hw
        · exact hshort
        · exact hshorts w hw
      · rw [readChunksOf, List.flatMap_cons, chunksRead_append, flatten_readChunks]
        exact ⟨hk, hks⟩
    · exact absurd hend (ha.readAll hok₂).unfinished

theorem readAll_append (ba : ByteArray) (ks ls : List Kind) :
    ba.readAll (ks ++ ls) = (do
      let (vs, ba) ← ba.readAll ks
      let (us, ba) ← ba.readAll ls
      .ok (vs ++ us, ba)) := by
  induction ks generalizing ba with
  | nil =>
    simp only [List.nil_append, readAll, ok_bind]
    cases ba.readAll ls <;> rfl
  | cons k ks ih =>
    simp only [List.cons_append, readAll]
    cases ba.readValue k with
    | error e => rfl
    | ok r =>
      simp only [ok_bind, ih]
      cases r.2.readAll ks with
      | error e => rfl
      | ok q =>
        simp only [ok_bind]
        cases q.2.readAll ls <;> rfl

/-- The cursor is at a node or behind the last one, and the data has the given length. -/
structure Walking (total : Nat) (ba : ByteArray) : Prop where
  shaped : Shaped ba
  cur_eq : ∃ i, ba.cur = ba.nodePtr i
  size_eq : ba.size = total

theorem Walking.read {total n : Nat} {bytes : List UInt8} (h : Walking total ba)
    (hok : ba.read n = .ok (bytes, ba')) :
    Walking total ba' ∧ bytes.length = n ∧ ba'.position = ba.position + n := by
  obtain ⟨i, hcur⟩ := h.cur_eq
  obtain ⟨-, -, -, hw, rfl⟩ := read_inv h.shaped hcur hok
  exact ⟨⟨shaped_advanced h.shaped _ _ _, ⟨_, rfl⟩, h.size_eq⟩, hw.length_eq, rfl⟩

/-- A string moves the position by its own length, wherever its bytes are taken from. -/
theorem Walking.readString {total n : Nat} {v : Value} (h : Walking total ba)
    (hs : v.kind.shape = .string n) (hok : ba.readValue v.kind = .ok (v, ba')) :
    Walking total ba' ∧ ba'.position = ba.position + (n + v.str.length) := by
  rw [readValue_string hs] at hok
  obtain ⟨⟨head, ba₁⟩, hraw₁, hok⟩ := bind_eq_ok.mp hok
  obtain ⟨⟨body, ba₂⟩, hraw₂, hok⟩ := bind_eq_ok.mp hok
  simp only [Except.ok.injEq, Prod.mk.injEq] at hok
  obtain ⟨hv, rfl⟩ := hok
  have hbody : body = v.str := by rw [← hv, str_toValue hs]
  obtain ⟨h₁, -, hpos₁⟩ := h.read hraw₁
  obtain ⟨h₂, hlen, hpos₂⟩ := h₁.read hraw₂
  refine ⟨h₂, ?_⟩
  rw [hpos₂, hpos₁, ← hlen, hbody, Nat.add_assoc]

theorem Walking.readStrings (e : Endian) {total : Nat} {vs : List Value} (h : Walking total ba)
    (hs : ∀ v ∈ vs, ∃ n, v.kind.shape = .string n)
    (hok : ba.readAll (vs.map Value.kind) = .ok (vs, ba')) :
    Walking total ba' ∧ ba'.position = ba.position + (encode e vs).length := by
  induction vs generalizing ba with
  | nil =>
    cases hok
    exact ⟨h, rfl⟩
  | cons v vs ih =>
    rw [List.map_cons, readAll] at hok
    obtain ⟨⟨u, ba₁⟩, hok₁, hok⟩ := bind_eq_ok.mp hok
    obtain ⟨⟨us, ba₂⟩, hok₂, hok⟩ := bind_eq_ok.mp hok
    simp only [Except.ok.injEq, Prod.mk.injEq, List.cons.injEq] at hok
    obtain ⟨⟨rfl, rfl⟩, rfl⟩ := hok
    obtain ⟨n, hn⟩ := hs u List.mem_cons_self
    obtain ⟨h₁, hpos₁⟩ := h.readString hn hok₁
    obtain ⟨h₂, hpos₂⟩ := ih h₁ (fun w hw => hs w (List.mem_cons_of_mem u hw)) hok₂
    have hlen : (u.chunks e).flatten.length = n + u.str.length := by
      simp [Value.chunks, hn]
    refine ⟨h₂, ?_⟩
    rw [hpos₂, hpos₁, encode_cons, List.length_append, hlen, Nat.add_assoc]

/-- `Synced.chunksRead_of_ok` for values of which the first ones are known to read back and
the others are strings: there the end is reached in any case. -/
theorem Synced.chunksRead_of_strings {vs us : List Value}
    (h : Synced garbage base endian (pre ++ (encode endian vs ++ encode endian us)) pre.length ba)
    (hf : ChunksFit base pre.length (writeChunksOf endian (vs ++ us)))
    (hshort : ∀ v ∈ vs, v.Short)
    (hk : ChunksRead garbage base (pre ++ (encode endian vs ++ encode endian us)) pre.length
      (readChunksOf endian vs))
    (hs : ∀ u ∈ us, ∃ n, u.kind.shape = .string n)
    (hok : ba.readAll ((vs ++ us).map Value.kind) = .ok (vs ++ us, ba')) :
    ChunksRead garbage base (pre ++ (encode endian vs ++ encode endian us)) pre.length
      (readChunksOf endian (vs ++ us)) := by
  obtain ⟨ba₁, hok₁, h₁⟩ := h.readAll_front hshort hk
  rw [List.map_append, readAll_append, hok₁, ok_bind] at hok
  obtain ⟨⟨us', ba₂⟩, hok₂, hok⟩ := bind_eq_ok.mp hok
  simp only [Except.ok.injEq, Prod.mk.injEq, List.append_cancel_left_eq] at hok
  obtain ⟨rfl, rfl⟩ := hok
  have hwalk : Walking ((pre ++ encode endian vs) ++ encode endian us').length ba₁ :=
    ⟨h₁.shaped, ⟨_, h₁.cur_eq⟩, h₁.size_eq⟩
  obtain ⟨h₂, hpos⟩ := hwalk.readStrings endian hs hok₂
  have hend : ba₂.getReadSize = 0 := by
    rw [getReadSize, h₂.size_eq, hpos, h₁.position_eq, List.length_append, Nat.sub_self]
  rw [writeChunksOf, List.flatMap_append, chunksFit_append] at hf
  have hf' : ChunksFit base (pre ++ encode endian vs).length (writeChunksOf endian us') := by
    rw [List.length_append]
    exact hf.2
  obtain ⟨-, hks⟩ := h₁.chunksRead_of_ok hf' hok₂ hend
  rw [readChunksOf, List.flatMap_append, chunksRead_append, ← readChunksOf, ← readChunksOf,
    flatten_readChunksOf]
  rw [List.length_append, List.append_assoc] at hks
  exact ⟨hk, hks⟩

/-- All of the data is still to come after `setPosition(0)`. -/
theorem Filled.rewind_encode {vs : List Value}
    (h : Filled garbage base endian ([] ++ (writeChunksOf endian vs).flatten) ba) :
    ∃ ba', ba.setPosition 0 = .ok ba' ∧
      Synced garbage base endian ([] ++ encode endian vs) ([] : List UInt8).length ba' :=
  h.rewind

end Lists

/-! ## The round trip -/

def order (little : Bool) : Endian := if little then .little else .big

/-- Writing the values into a fresh array, going back to its start and reading them again
returns the same values and leaves nothing unread; no call throws or follows a null pointer. -/
def RoundTrips (garbage : Nat → UInt8) (base : Nat) (little : Bool) (vs : List Value) : Prop :=
  ∃ ba₁ ba₂ ba₃, ((ofBaseSize garbage base).setIsLittleEndian little).writeAll vs = .ok ba₁ ∧
    ba₁.setPosition 0 = .ok ba₂ ∧ ba₂.readAll (vs.map Value.kind) = .ok (vs, ba₃) ∧
    ba₃.getReadSize = 0

/-- Every `write` finds room, every length prefix holds its length, and every `read` stays
in its node, starts at one or is saved by a coincidence. -/
structure Survives (garbage : Nat → UInt8) (base : Nat) (endian : Endian) (vs : List Value) :
    Prop where
  fits : ChunksFit base 0 (writeChunksOf endian vs)
  short : ∀ v ∈ vs, v.Short
  reads : ChunksRead garbage base (encode endian vs) 0 (readChunksOf endian vs)

instance (garbage : Nat → UInt8) (base : Nat) (endian : Endian) (vs : List Value) :
    Decidable (Survives garbage base endian vs) :=
  decidable_of_iff (ChunksFit base 0 (writeChunksOf endian vs) ∧ (∀ v ∈ vs, v.Short) ∧
      ChunksRead garbage base (encode endian vs) 0 (readChunksOf endian vs))
    ⟨fun h => ⟨h.1, h.2.1, h.2.2⟩, fun h => ⟨h.fits, h.short, h.reads⟩⟩

theorem filled_start (garbage : Nat → UInt8) {base : Nat} (hb : 0 < base) (little : Bool) :
    Filled garbage base (order little) []
      ((ofBaseSize garbage base).setIsLittleEndian little) := by
  have h := filled_ofBaseSize garbage hb
  cases little <;>
    exact ⟨⟨h.shaped.base_pos, h.shaped.uniform, h.shaped.root⟩,
      ⟨h.repInv.position_le, h.repInv.size_le, h.repInv.capacity_eq, h.repInv.cur_null,
        h.repInv.cur_node⟩, rfl, rfl, rfl, rfl, rfl, rfl, h.content_eq⟩

theorem roundTrips_iff (garbage : Nat → UInt8) {base : Nat} (hbase : 1 ≤ base) (little : Bool)
    (vs : List Value) : RoundTrips garbage base little vs ↔ Survives garbage base (order little) vs := by
  have hstart := filled_start garbage hbase little
  rw [RoundTrips, hstart.writeAll_eq]
  constructor
  · rintro ⟨ba₁, ba₂, ba₃, hw, hp, hr, hend⟩
    have hfits := hstart.chunksFit_of_ok hw
    obtain ⟨ba₁', hw', h₁⟩ := hstart.writeChunks_ok hfits
    rw [hw] at hw'
    cases hw'
    obtain ⟨ba₂', hp', h₂⟩ := h₁.rewind_encode
    rw [hp] at hp'
    cases hp'
    obtain ⟨hshort, hreads⟩ := h₂.chunksRead_of_ok hfits hr hend
    exact ⟨hfits, hshort, hreads⟩
  · rintro ⟨hfits, hshort, hreads⟩
    obtain ⟨ba₁, hw, h₁⟩ := hstart.writeChunks_ok hfits
    obtain ⟨ba₂, hp, h₂⟩ := h₁.rewind_encode
    obtain ⟨ba₃, hr, h₃⟩ := h₂.readAll_ok hshort hreads
    refine ⟨ba₁, ba₂, ba₃, hw, hp, hr, ?_⟩
    rw [h₃.getReadSize_eq]
    simp [encode]

/-- A number, a string and a varint in nodes of eight bytes. -/
theorem roundTrips_eight :
    RoundTrips (fun _ => 0) 8 true [.fuint16 7, .stringF32 [104, 105], .int64 (-3)] :=
  (roundTrips_iff (fun _ => 0) (by decide) true _).mpr (by decide)

/-- Two bytes and then four, in nodes of four: `addCapacity` adds no node for the second. -/
theorem not_roundTrips_four : ¬RoundTrips (fun _ => 0) 4 false [.fuint16 1, .fuint32 2] := by
  rintro ⟨ba₁, -, -, hw, -⟩
  have hnull : ((ofBaseSize (fun _ => 0) 4).setIsLittleEndian false).writeAll
      [.fuint16 1, .fuint32 2] = .error .nullNode := by rfl
  rw [hnull] at hw
  cases hw

end CxkFramework.ByteArray
