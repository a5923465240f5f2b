import CxkFramework.ByteArrayInvariant

/-!
# Chunks written from the start and read back

Every encoder of the library writes a fresh array front to back in chunks, one `write` a
chunk, rewinds it and reads it back in chunks. `Filled` is the state while writing and
`Synced` the state while reading as it should. Both sides have an exact condition on the
position and the length of a chunk. Once a `read` has moved the cursor too far the array
is `Ahead`, and then no sequence of reads ever reaches the end of the data.
-/

namespace CxkFramework.ByteArray

open Words Blocks Runs

/-- The free bytes of a chain that was filled with `p` bytes from the start. -/
def free (base p : Nat) : Nat := if p = 0 then base else (base - p % base) % base

/-- `Fits` for an array that was filled with `p` bytes from the start. -/
def ChunkFits (base p n : Nat) : Prop :=
  n ≤ free base p ∨ (n - free base p) % base = 0 ∨ free base p < (n - free base p) % base

instance (base p n : Nat) : Decidable (ChunkFits base p n) :=
  inferInstanceAs (Decidable (_ ∨ _ ∨ _))

/-- The chunks fit one after the other, the first one at position `p`. -/
def ChunksFit (base : Nat) : Nat → List (List UInt8) → Prop
  | _, [] => True
  | p, chunk :: rest => ChunkFits base p chunk.length ∧ ChunksFit base (p + chunk.length) rest

instance decidableChunksFit (base : Nat) :
    ∀ (p : Nat) (chunks : List (List UInt8)), Decidable (ChunksFit base p chunks)
  | _, [] => inferInstanceAs (Decidable True)
  | p, chunk :: rest =>
    have := decidableChunksFit base (p + chunk.length) rest
    inferInstanceAs (Decidable (_ ∧ _))

theorem chunksFit_append {base p : Nat} {cs ds : List (List UInt8)} :
    ChunksFit base p (cs ++ ds) ↔
      ChunksFit base p cs ∧ ChunksFit base (p + cs.flatten.length) ds := by
  induction cs generalizing p with
  | nil => simp [ChunksFit]
  | cons c cs ih => simp [ChunksFit, ih, and_assoc, Nat.add_assoc]

/-- All the memory of a chain that holds the given bytes. -/
def image (garbage : Nat → UInt8) (base : Nat) (stream : List UInt8) : List UInt8 :=
  stream ++ newNode garbage stream.length (free base stream.length)

@[simp] theorem length_newNode (garbage : Nat → UInt8) (start s : Nat) :
    (newNode garbage start s).length = s := by simp [newNode]

theorem newNode_append (garbage : Nat → UInt8) (start m n : Nat) :
    newNode garbage start m ++ newNode garbage (start + m) n = newNode garbage start (m + n) := by
  rw [newNode, newNode, newNode, ← List.map_append, List.range'_append_1]

theorem drop_newNode (garbage : Nat → UInt8) (start s n : Nat) :
    (newNode garbage start s).drop n = newNode garbage (start + n) (s - n) := by
  rw [newNode, newNode, ← List.map_drop, List.drop_range', Nat.mul_one]

/-- The only distance below `b` to a multiple of `b`. -/
theorem sub_mod_mod_of_add_eq {b x y k : Nat} (h : x + y = b * k) (hy : y < b) :
    (b - x % b) % b = y := by
  have hx : (x + y) % b = 0 := by rw [h, Nat.mul_mod_right]
  have hlt := Nat.mod_lt x (show 0 < b by omega)
  rw [Nat.add_mod, Nat.mod_eq_of_lt hy] at hx
  rcases Nat.eq_zero_or_pos (x % b) with h0 | h0
  · rw [h0, Nat.zero_add, Nat.mod_eq_of_lt hy] at hx
    rw [h0, Nat.sub_zero, Nat.mod_self, hx]
  · have hsum : x % b + y = b := by
      have hle : b ≤ x % b + y := by
        by_contra hgt
        rw [Nat.mod_eq_of_lt (by omega)] at hx
        omega
      rw [Nat.mod_eq_sub_mod hle, Nat.mod_eq_of_lt (by omega)] at hx
      omega
    rw [Nat.mod_eq_of_lt (by omega)]
    omega

theorem free_of_pos {b p : Nat} (hp : 0 < p) : free b p = (b - p % b) % b := by
  rw [free, if_neg (by omega)]

theorem free_lt {b p : Nat} (hb : 0 < b) (hp : 0 < p) : free b p < b := by
  rw [free_of_pos hp]
  exact Nat.mod_lt _ hb

/-- Inside a node the free bytes are those of the node. -/
theorem free_of_offset {b p : Nat} (hb : 0 < b) (ho : p % b ≠ 0) : free b p = b - p % b := by
  have hp : 0 < p := by
    rcases Nat.eq_zero_or_pos p with rfl | hp
    · simp at ho
    · exact hp
  rw [free_of_pos hp, Nat.mod_eq_of_lt (by omega)]

section

variable {garbage : Nat → UInt8} {base : Nat} {endian : Endian} {stream : List UInt8}

/-! ## Writing -/

/-- The state of an array into which the bytes were written front to back. -/
structure Filled (garbage : Nat → UInt8) (base : Nat) (endian : Endian) (stream : List UInt8)
    (ba : ByteArray) : Prop where
  shaped : Shaped ba
  repInv : RepInv ba
  baseSize_eq : ba.baseSize = base
  endian_eq : ba.endian = endian
  garbage_eq : ba.garbage = garbage
  position_eq : ba.position = stream.length
  size_eq : ba.size = stream.length
  free_eq : ba.getCapacity = free base stream.length
  content_eq : ba.content = image garbage base stream

theorem filled_ofBaseSize (garbage : Nat → UInt8) {base : Nat} (hb : 0 < base) :
    Filled garbage base .big [] (ofBaseSize garbage base) where
  shaped := shaped_ofBaseSize garbage hb
  repInv := repInv_ofBaseSize garbage hb
  baseSize_eq := rfl
  endian_eq := rfl
  garbage_eq := rfl
  position_eq := rfl
  size_eq := rfl
  free_eq := rfl
  content_eq := by simp [content, ofBaseSize, image, free]

theorem Filled.base_pos {ba : ByteArray} (h : Filled garbage base endian stream ba) : 0 < base :=
  h.baseSize_eq ▸ h.shaped.base_pos

theorem Filled.fits_iff {ba : ByteArray} (h : Filled garbage base endian stream ba) (n : Nat) :
    Fits ba n ↔ ChunkFits base stream.length n := by
  rw [Fits, ChunkFits, h.free_eq, h.baseSize_eq]

/-- The blocks `addCapacity` appends, seen as one piece of memory. -/
theorem flatten_appended (ba : ByteArray) (count : Nat) : (ba.appended count).flatten =
      newNode ba.garbage (ba.baseSize * ba.nodes.length) (count * ba.baseSize) := by
  induction count with
  | zero => simp [appended, newNode]
  | succ count ih =>
    have hsplit : ba.appended (count + 1) = ba.appended count ++
        [newNode ba.garbage (ba.baseSize * (ba.nodes.length + count)) ba.baseSize] := by
      rw [appended, List.range_succ, List.map_append, ← appended, List.map_singleton]
    have hstart : ba.baseSize * (ba.nodes.length + count) =
        ba.baseSize * ba.nodes.length + count * ba.baseSize := by ring
    rw [hsplit, List.flatten_append, ih, List.flatten_singleton, hstart, newNode_append,
      Nat.succ_mul]

theorem free_le {b p : Nat} (hb : 0 < b) : free b p ≤ b := by
  rw [free]
  split
  · exact le_rfl
  · exact (Nat.mod_lt _ hb).le

/-- `addCapacity` never leaves a whole node more than is asked for. -/
theorem slack_lt {ba : ByteArray} (hb : 0 < ba.baseSize) {n : Nat} (hn : 0 < n)
    (hfree : ba.getCapacity ≤ ba.baseSize) :
    ba.getCapacity + ba.growth n * ba.baseSize - n < ba.baseSize := by
  rw [growth]
  split
  · omega
  · have hdm := Nat.div_add_mod (n - ba.getCapacity) ba.baseSize
    have hmod := Nat.mod_lt (n - ba.getCapacity) hb
    rw [Nat.add_mul, Nat.mul_comm ((n - ba.getCapacity) / ba.baseSize)]
    generalize ba.baseSize * ((n - ba.getCapacity) / ba.baseSize) = q at *
    split
    · rw [Nat.one_mul]
      omega
    · rw [Nat.zero_mul]
      omega

/-- The memory once `addCapacity` is done. -/
theorem Filled.content_addCapacity {ba : ByteArray} (h : Filled garbage base endian stream ba)
    (n : Nat) : (ba.addCapacity n).content =
      stream ++ newNode garbage stream.length (ba.getCapacity + ba.growth n * base) := by
  have hstart : ba.baseSize * ba.nodes.length = stream.length + ba.getCapacity := by
    have := h.repInv.capacity_eq
    have := h.repInv.position_le.trans h.repInv.size_le
    have := h.position_eq
    rw [getCapacity]
    omega
  rw [content, addCapacity_nodes, List.flatten_append, flatten_appended, hstart, h.garbage_eq,
    h.baseSize_eq, ← content, h.content_eq, image, List.append_assoc, ← h.free_eq, newNode_append]

theorem Filled.write_ok {ba : ByteArray} (h : Filled garbage base endian stream ba)
    {buf : List UInt8} (hd : buf ≠ []) (hf : ChunkFits base stream.length buf.length) :
    ∃ ba', ba.write buf = .ok ba' ∧ Filled garbage base endian (stream ++ buf) ba' := by
  have hfit := (h.fits_iff _).mpr hf
  obtain ⟨ba', hok, hst⟩ := ByteArray.write_ok h.shaped h.repInv hd hfit
  have hlen := List.length_pos_iff.mpr hd
  have hbase : ba'.baseSize = base := by
    rw [hst.baseSize_eq, addCapacity_baseSize, h.baseSize_eq]
  have hpos : ba'.position = (stream ++ buf).length := by
    rw [hst.position_eq, addCapacity_position, h.position_eq, List.length_append]
  have hrest : ba'.getCapacity = ba.getCapacity + ba.growth buf.length * base - buf.length := by
    have := h.repInv.position_le.trans h.repInv.size_le
    rw [getCapacity, getCapacity, hst.position_eq, hst.capacity_eq, addCapacity_capacity,
      addCapacity_position, h.baseSize_eq]
    omega
  have hlt : ba'.getCapacity < base := by
    have := slack_lt h.shaped.base_pos hlen
      (by rw [h.free_eq, h.baseSize_eq]; exact free_le h.base_pos)
    rwa [h.baseSize_eq, ← hrest] at this
  have hfree : ba'.getCapacity = free base (stream ++ buf).length := by
    have hsum : (stream ++ buf).length + ba'.getCapacity = base * ba'.nodes.length := by
      have hcap := hst.repInv.capacity_eq
      have hle := hst.repInv.position_le.trans hst.repInv.size_le
      rw [hbase] at hcap
      rw [getCapacity]
      omega
    rw [free_of_pos (by rw [List.length_append]; omega), sub_mod_mod_of_add_eq hsum hlt]
  refine ⟨ba', hok, hst.shaped, hst.repInv, hbase, ?_, ?_, hpos, ?_, hfree, ?_⟩
  · rw [hst.endian_eq, addCapacity_endian, h.endian_eq]
  · rw [hst.garbage_eq, addCapacity_garbage, h.garbage_eq]
  · rw [hst.size_eq, addCapacity_size, addCapacity_position, h.size_eq, h.position_eq,
      List.length_append]
    omega
  · rw [hst.content_eq, h.content_addCapacity, addCapacity_position, h.position_eq, overwrite,
      List.take_left, ← List.drop_drop, List.drop_left, drop_newNode, ← hrest, hfree, image,
      List.length_append]

theorem Filled.write_null {ba : ByteArray} (h : Filled garbage base endian stream ba)
    {buf : List UInt8} (hf : ¬ChunkFits base stream.length buf.length) :
    ba.write buf = .error .nullNode := by
  have hd : buf ≠ [] := by
    rintro rfl
    exact hf (.inl (Nat.zero_le _))
  exact ByteArray.write_null h.shaped h.repInv hd ((h.fits_iff _).not.mpr hf)

/-- One `write` a chunk. -/
def writeChunks (ba : ByteArray) : List (List UInt8) → Except Fault ByteArray
  | [] => .ok ba
  | chunk :: rest => do
    let ba ← ba.write chunk
    ba.writeChunks rest

theorem Filled.writeChunks_ok {ba : ByteArray} (h : Filled garbage base endian stream ba)
    {chunks : List (List UInt8)} (hf : ChunksFit base stream.length chunks) :
    ∃ ba', ba.writeChunks chunks = .ok ba' ∧
      Filled garbage base endian (stream ++ chunks.flatten) ba' := by
  induction chunks generalizing ba stream with
  | nil => exact ⟨ba, rfl, by simpa using h⟩
  | cons chunk rest ih =>
    obtain ⟨hchunk, hrest⟩ := hf
    by_cases hd : chunk = []
    · subst hd
      have hsame : ba.write [] = .ok ba := by rw [write, if_pos List.length_nil]
      obtain ⟨ba', hok, h'⟩ := ih h hrest
      exact ⟨ba', by rw [writeChunks, hsame, ok_bind, hok], by simpa using h'⟩
    · obtain ⟨ba₁, hok₁, h₁⟩ := h.write_ok hd hchunk
      obtain ⟨ba', hok, h'⟩ := ih h₁ (by rwa [List.length_append])
      refine ⟨ba', by rw [writeChunks, hok₁, ok_bind, hok], ?_⟩
      rwa [List.flatten_cons, ← List.append_assoc]

theorem Filled.chunksFit_of_ok {ba ba' : ByteArray} (h : Filled garbage base endian stream ba)
    {chunks : List (List UInt8)} (hok : ba.writeChunks chunks = .ok ba') :
    ChunksFit base stream.length chunks := by
  induction chunks generalizing ba stream with
  | nil => trivial
  | cons chunk rest ih =>
    obtain ⟨ba₁, hok₁, hrest⟩ := bind_eq_ok.mp hok
    have hchunk : ChunkFits base stream.length chunk.length := by
      by_contra hf
      rw [h.write_null hf] at hok₁
      cases hok₁
    refine ⟨hchunk, ?_⟩
    have hone : ChunksFit base stream.length [chunk] := ⟨hchunk, trivial⟩
    obtain ⟨ba₂, hok₂, h₂⟩ := h.writeChunks_ok hone
    rw [writeChunks, hok₁] at hok₂
    cases hok₂
    have := ih h₂ hrest
    rwa [List.flatten_singleton, List.length_append] at this

/-! ## Reading back -/

/-- The state of an array that holds the bytes and is read at position `p`, its cursor on
the node of `p`. -/
structure Synced (garbage : Nat → UInt8) (base : Nat) (endian : Endian) (stream : List UInt8)
    (p : Nat) (ba : ByteArray) : Prop where
  shaped : Shaped ba
  baseSize_eq : ba.baseSize = base
  endian_eq : ba.endian = endian
  position_eq : ba.position = p
  size_eq : ba.size = stream.length
  content_eq : ba.content = image garbage base stream
  cur_eq : ba.cur = ba.nodePtr (p / base)

theorem Filled.rewind {ba : ByteArray} (h : Filled garbage base endian stream ba) :
    ∃ ba', ba.setPosition 0 = .ok ba' ∧ Synced garbage base endian stream 0 ba' := by
  refine ⟨_, setPosition_ok h.shaped h.repInv (Nat.zero_le _), ?_⟩
  refine ⟨⟨h.shaped.base_pos, h.shaped.uniform, h.shaped.root⟩, h.baseSize_eq, h.endian_eq, rfl, ?_,
    h.content_eq, ?_⟩
  · simp only [h.size_eq, Nat.max_zero]
  · simp only [nodePtr, h.baseSize_eq]

/-- Whether a `read` of `n` bytes at position `p` gives the bytes that were written there
and leaves the cursor on the right node. Without crossing into another node, or from the
start of one, it always does; else it can by coincidence only. A `read` of no bytes at all
still follows the cursor. -/
def ChunkReads (garbage : Nat → UInt8) (base : Nat) (stream : List UInt8) (p n : Nat) : Prop :=
  if n = 0 then p < stream.length + free base stream.length
  else p % base = 0 ∨ n ≤ base - p % base ∨
    (p + n < stream.length ∧
      (n - (base - p % base) - 1) / (base - p % base) = (n - (base - p % base)) / base ∧
      ∀ j < n, (image garbage base stream)[base * (p / base) + staleOffset base (p % base) j]? =
        stream[p + j]?)

/-- The chunks read back one after the other, the first one at position `p`. -/
def ChunksRead (garbage : Nat → UInt8) (base : Nat) (stream : List UInt8) :
    Nat → List (List UInt8) → Prop
  | _, [] => True
  | p, chunk :: rest => ChunkReads garbage base stream p chunk.length ∧
      ChunksRead garbage base stream (p + chunk.length) rest

instance (garbage : Nat → UInt8) (base : Nat) (stream : List UInt8) (p n : Nat) :
    Decidable (ChunkReads garbage base stream p n) :=
  inferInstanceAs (Decidable (if n = 0 then _ else _))

instance decidableChunksRead (garbage : Nat → UInt8) (base : Nat) (stream : List UInt8) :
    ∀ (p : Nat) (chunks : List (List UInt8)), Decidable (ChunksRead garbage base stream p chunks)
  | _, [] => inferInstanceAs (Decidable True)
  | p, chunk :: rest =>
    have := decidableChunksRead garbage base stream (p + chunk.length) rest
    inferInstanceAs (Decidable (_ ∧ _))

theorem chunksRead_append {p : Nat} {cs ds : List (List UInt8)} :
    ChunksRead garbage base stream p (cs ++ ds) ↔ ChunksRead garbage base stream p cs ∧
      ChunksRead garbage base stream (p + cs.flatten.length) ds := by
  induction cs generalizing p with
  | nil => simp [ChunksRead]
  | cons c cs ih => simp [ChunksRead, ih, and_assoc, Nat.add_assoc]

theorem chunkReads_one (garbage : Nat → UInt8) {base : Nat} (hb : 0 < base) (stream : List UInt8)
    (p : Nat) : ChunkReads garbage base stream p 1 := by
  have := Nat.mod_lt p hb
  rw [ChunkReads, if_neg (by omega)]
  exact .inr (.inl (by omega))

/-- Nothing can go wrong in the first node. -/
theorem chunksRead_first_node {base : Nat} (stream : List UInt8) {chunks : List (List UInt8)}
    (hne : ∀ chunk ∈ chunks, chunk ≠ []) {p : Nat} (hp : p + chunks.flatten.length ≤ base) :
    ChunksRead garbage base stream p chunks := by
  induction chunks generalizing p with
  | nil => trivial
  | cons chunk rest ih =>
    have hpos := List.length_pos_iff.mpr (hne chunk List.mem_cons_self)
    rw [List.flatten_cons, List.length_append] at hp
    refine ⟨?_, ih (fun c hc => hne c (List.mem_cons_of_mem chunk hc)) (by omega)⟩
    rw [ChunkReads, if_neg (by omega), Nat.mod_eq_of_lt (by omega)]
    exact .inr (.inl (by omega))

/-- Data that leaves a byte of its only node free reads back in any chunks. -/
theorem chunksRead_one_node (garbage : Nat → UInt8) {base : Nat} {stream : List UInt8}
    (hlt : stream.length < base) {chunks : List (List UInt8)} {p : Nat}
    (hp : p + chunks.flatten.length ≤ stream.length) :
    ChunksRead garbage base stream p chunks := by
  induction chunks generalizing p with
  | nil => trivial
  | cons chunk rest ih =>
    rw [List.flatten_cons, List.length_append] at hp
    refine ⟨?_, ih (by omega)⟩
    have hfree : 0 < free base stream.length := by
      rw [free]
      split
      · omega
      · rw [Nat.mod_eq_of_lt hlt, Nat.mod_eq_of_lt (by omega)]
        omega
    rw [ChunkReads, Nat.mod_eq_of_lt (show p < base by omega)]
    split
    · omega
    · exact .inr (.inl (by omega))

theorem chunksFit_one_node {base : Nat} {chunks : List (List UInt8)} {p : Nat}
    (hp : p + chunks.flatten.length ≤ base) : ChunksFit base p chunks := by
  induction chunks generalizing p with
  | nil => trivial
  | cons chunk rest ih =>
    rw [List.flatten_cons, List.length_append] at hp
    refine ⟨.inl ?_, ih (by omega)⟩
    rw [free]
    split
    · omega
    · rcases Nat.lt_or_ge p base with hlt | hge
      · rw [Nat.mod_eq_of_lt hlt, Nat.mod_eq_of_lt (by omega)]
        omega
      · omega

section Synced

variable {p : Nat} {ba : ByteArray} (h : Synced garbage base endian stream p ba)
include h

theorem Synced.base_pos : 0 < base := h.baseSize_eq ▸ h.shaped.base_pos

/-- The number of nodes, from the bytes they hold. -/
theorem Synced.nodes_eq : base * ba.nodes.length = stream.length + free base stream.length := by
  have hlen := h.shaped.length_content
  rw [h.content_eq, h.baseSize_eq, image, List.length_append, length_newNode] at hlen
  exact hlen.symm

theorem Synced.getReadSize_eq : ba.getReadSize = stream.length - p := by
  rw [getReadSize, h.size_eq, h.position_eq]

/-- The last byte of the data is in the last node. -/
theorem Synced.last_node (hs : stream ≠ []) : base * (ba.nodes.length - 1) < stream.length := by
  have hn := h.nodes_eq
  have hpos := List.length_pos_iff.mpr hs
  have hlt := free_lt (b := base) h.base_pos hpos
  rw [Nat.mul_sub, Nat.mul_one]
  omega


theorem Synced.offset_lt : p % base < base := Nat.mod_lt _ h.base_pos

/-- A `read` that leaves the cursor right and the data unfinished does not run out of nodes. -/
theorem Synced.enough_nodes {n : Nat} (hn : 0 < n) (hle : p + n ≤ stream.length)
    (hk : p % base = 0 ∨ n ≤ base - p % base ∨ (p + n < stream.length ∧
      (n - (base - p % base) - 1) / (base - p % base) = (n - (base - p % base)) / base)) :
    n ≤ (base - p % base) * (ba.nodes.length - p / base) := by
  have hnodes := h.nodes_eq
  have hsplit := Nat.div_add_mod p base
  have hoff := h.offset_lt
  have hi : p / base < ba.nodes.length := div_lt_length (by omega)
  rcases hk with ho | hin | ⟨hlast, hpieces⟩
  · rw [ho, Nat.sub_zero, Nat.mul_sub]
    omega
  · exact hin.trans (Nat.le_mul_of_pos_right _ (by omega))
  · by_cases hin : n ≤ base - p % base
    · exact hin.trans (Nat.le_mul_of_pos_right _ (by omega))
    · -- one node more than the pieces need
      have hnew := div_add_div h.base_pos p n
      have hsum : p % base + n = n - (base - p % base) + base := by omega
      rw [hsum, Nat.add_div_right _ h.base_pos, ← hpieces] at hnew
      have hlt : (p + n) / base < ba.nodes.length := div_lt_length (by omega)
      have hc : 0 < base - p % base := by omega
      have hq := Nat.lt_mul_div_succ (n - (base - p % base) - 1) hc
      have hmul : (base - p % base) *
            ((n - (base - p % base) - 1) / (base - p % base) + 1 + 1) ≤
          (base - p % base) * (ba.nodes.length - p / base) :=
        Nat.mul_le_mul_left _ (by omega)
      rw [Nat.mul_succ] at hmul
      omega

theorem Synced.read_ok {n : Nat} (hle : p + n ≤ stream.length)
    (hk : ChunkReads garbage base stream p n) :
    ∃ ba', ba.read n = .ok (slice stream p n, ba') ∧
      Synced garbage base endian stream (p + n) ba' := by
  have hcur := h.cur_eq
  have hnodes := h.nodes_eq
  rw [ChunkReads] at hk
  split at hk
  · next hn =>
    subst hn
    have hi : p / base < ba.nodes.length := div_lt_length (by omega)
    refine ⟨_, by rw [read_none hcur hi]; rfl, ?_⟩
    exact ⟨shaped_advanced h.shaped _ _ _, h.baseSize_eq, h.endian_eq, h.position_eq, h.size_eq,
      h.content_eq, rfl⟩
  · next hn =>
    have hb := h.baseSize_eq
    have hp := h.position_eq
    have hread : n ≤ ba.getReadSize := by rw [h.getReadSize_eq]; omega
    have hfit := h.enough_nodes (Nat.pos_of_ne_zero hn) hle (by tauto)
    obtain ⟨bytes, hok, hw⟩ := ByteArray.read_ok h.shaped hcur (Nat.pos_of_ne_zero hn) hread
      (by rw [hb, hp]; exact hfit)
    have hbytes : bytes = slice stream p n := by
      apply eq_slice_of_getElem? hw.length_eq hle
      intro j hj
      rw [hw.getElem?_eq j hj, h.content_eq, hb, hp]
      rcases hk with ho | hin | ⟨-, -, hsame⟩
      · rw [staleOffset_eq h.offset_lt hj (.inl ho), ← Nat.add_assoc, Nat.div_add_mod, image,
          List.getElem?_append_left (by omega)]
      · rw [staleOffset_eq h.offset_lt hj (.inr (by omega)), ← Nat.add_assoc, Nat.div_add_mod, image,
          List.getElem?_append_left (by omega)]
      · exact hsame j hj
    have hhops : readHops base (p % base) n = (p % base + n) / base :=
      (readHops_eq_iff h.offset_lt).mpr (by tauto)
    refine ⟨_, by rw [hok, hbytes], ?_⟩
    refine ⟨shaped_advanced h.shaped _ _ _, hb, h.endian_eq, by simp only [advanced, hp], h.size_eq,
      h.content_eq, ?_⟩
    simp only [advanced, nodePtr, hb, hp, hhops, div_add_div h.base_pos]

end Synced

/-! ## A cursor that is too far -/

/-- The cursor is past the node of the position, and the data reaches into the last node. -/
structure Ahead (total : Nat) (ba : ByteArray) : Prop where
  shaped : Shaped ba
  size_eq : ba.size = total
  position_lt : ba.position < total
  last_node : ba.baseSize * (ba.nodes.length - 1) < total
  cur_ahead : ∃ i, ba.cur = ba.nodePtr i ∧ ba.position / ba.baseSize < i ∧ i ≤ ba.nodes.length

/-- Bytes that nodes from `i` on can give to a position in an earlier node. -/
theorem ahead_reach {b i k p n : Nat} (hb : 0 < b) (hp : p / b < i) (hi : i < k)
    (hfit : n ≤ (b - p % b) * (k - i)) : p + n ≤ b * (k - 1) := by
  have hsplit := Nat.div_add_mod p b
  have hoff := Nat.mod_lt p hb
  have hnode : b * (p / b) + b ≤ b * i := by
    rw [← Nat.mul_succ]
    exact Nat.mul_le_mul_left b hp
  obtain ⟨d, rfl⟩ := Nat.exists_eq_add_of_lt hi
  have hone : i + d + 1 - i = d + 1 := by omega
  have hmul : (b - p % b) * d ≤ b * d := Nat.mul_le_mul_right d (Nat.sub_le _ _)
  rw [hone, Nat.mul_succ] at hfit
  rw [Nat.add_sub_cancel, Nat.mul_add]
  omega

/-- Being ahead is never made good again, and the end of the data stays out of reach. -/
theorem Ahead.read {total : Nat} {ba ba' : ByteArray} (h : Ahead total ba) {n : Nat}
    {bytes : List UInt8} (hok : ba.read n = .ok (bytes, ba')) : Ahead total ba' := by
  obtain ⟨i, hcur, hlead, -⟩ := h.cur_ahead
  obtain ⟨-, hi, hfit, -, rfl⟩ := read_inv h.shaped hcur hok
  have hreach := ahead_reach h.shaped.base_pos hlead hi hfit
  have hhops := le_readHops (n := n) h.shaped.offset_lt
  have hbound := readHops_le h.shaped.offset_lt (by omega) hfit
  have hnew := div_add_div h.shaped.base_pos ba.position n
  refine ⟨shaped_advanced h.shaped _ _ _, h.size_eq, hreach.trans_lt h.last_node, h.last_node, _,
    rfl, ?_, ?_⟩
  · simp only [advanced]
    omega
  · simp only [advanced]
    omega

theorem Ahead.unfinished {total : Nat} {ba : ByteArray} (h : Ahead total ba) :
    ba.getReadSize ≠ 0 := by
  have := h.position_lt
  rw [getReadSize, h.size_eq]
  omega

/-- What fits when written cannot be the last thing read across nodes: the stale pieces
need more nodes than there are. -/
theorem pieces_too_short {b c m k f : Nat} (hcb : c < b) (hm : 0 < m)
    (hnodes : b * k = m + f) (hf : f < b) (hfit : m % b = 0 ∨ c < m % b) : c * k < m := by
  have hdm := Nat.div_add_mod m b
  have hmod := Nat.mod_lt m (show 0 < b by omega)
  have hr : (b - m % b) % b = f := sub_mod_mod_of_add_eq hnodes.symm hf
  have hgap : c * k + k ≤ b * k := by
    rw [← Nat.succ_mul]
    exact Nat.mul_le_mul_right k hcb
  have hk : 0 < k := by
    rcases Nat.eq_zero_or_pos k with rfl | hk
    · omega
    · exact hk
  rcases hfit with h0 | hgt
  · rw [h0, Nat.sub_zero, Nat.mod_self] at hr
    omega
  · rw [Nat.mod_eq_of_lt (by omega)] at hr
    -- `f < b - c` while every node loses `b - c`
    obtain ⟨d, rfl⟩ := Nat.exists_eq_add_of_lt hcb
    have hloss : (c + d + 1) * k = c * k + (d + 1) * k := by ring
    have hone : d + 1 ≤ (d + 1) * k := Nat.le_mul_of_pos_right _ hk
    omega

section Synced

variable {p : Nat} {ba : ByteArray} (h : Synced garbage base endian stream p ba)
include h

/-- The converse of `Synced.read_ok`: a chunk that was written in one piece and comes back
right, but not by `ChunkReads`, has put the cursor ahead. -/
theorem Synced.chunkReads_or_ahead {ba' : ByteArray} {n : Nat} (hle : p + n ≤ stream.length)
    (hf : ChunkFits base p n) (hok : ba.read n = .ok (slice stream p n, ba')) :
    ChunkReads garbage base stream p n ∨ Ahead stream.length ba' := by
  have hcur := h.cur_eq
  have hb := h.baseSize_eq
  have hp := h.position_eq
  have hnodes := h.nodes_eq
  have hoff := h.offset_lt
  have hsplit := Nat.div_add_mod p base
  obtain ⟨-, hi, hfit, hw, rfl⟩ := read_inv h.shaped hcur hok
  rw [ChunkReads]
  split
  · exact .inl (by have := (Nat.div_lt_iff_lt_mul h.base_pos).mp hi; rw [Nat.mul_comm] at this; omega)
  · next hn =>
    by_cases hin : p % base = 0 ∨ n ≤ base - p % base
    · exact .inl (by tauto)
    · have hpos := Nat.pos_of_ne_zero hn
      have hhops : (p % base + n) / base ≤ readHops base (p % base) n := le_readHops hoff
      have hbound := readHops_le h.shaped.offset_lt (by omega) hfit
      rw [hb, hp] at hfit hbound
      have hstream : stream ≠ [] := by
        rintro rfl
        simp at hle
        omega
      -- the last chunk would need more nodes than there are
      have hlast : p + n < stream.length := by
        by_contra hend
        have hfree := free_lt (b := base) h.base_pos (List.length_pos_iff.mpr hstream)
        rw [ChunkFits, free_of_offset h.base_pos (by tauto)] at hf
        have hk : base * (ba.nodes.length - p / base - 1) =
            n - (base - p % base) + free base stream.length := by
          rw [Nat.mul_sub, Nat.mul_sub, Nat.mul_one]
          omega
        have hshort := pieces_too_short (c := base - p % base) (by omega) (by omega) hk hfree
          (by tauto)
        have hone : ba.nodes.length - p / base = ba.nodes.length - p / base - 1 + 1 := by omega
        rw [hone, Nat.mul_succ] at hfit
        omega
      by_cases hright : readHops base (p % base) n = (p % base + n) / base
      · left
        have hpieces := (readHops_eq_iff hoff).mp hright
        refine .inr (.inr ⟨hlast, by tauto, ?_⟩)
        intro j hj
        rw [← getElem?_slice hj, hw.getElem?_eq j hj, h.content_eq, hb, hp]
      · right
        have hnew := div_add_div h.base_pos p n
        refine ⟨shaped_advanced h.shaped _ _ _, h.size_eq, by simpa only [advanced, hp] using hlast,
          by simpa only [advanced, hb] using h.last_node hstream, _, rfl, ?_, ?_⟩
        · simp only [advanced, hb, hp]
          omega
        · simp only [advanced, hb, hp]
          omega

end Synced

end

end CxkFramework.ByteArray
