import CxkFramework.ByteArrayBuffers

/-!
# Dump to a file and load from it

`writeToFile` hands one piece of each node to the file stream, `readFromFile` writes one
block of `m_baseSize` bytes after the other. A file that opens stores what is written to it.
The piece of the first node is computed from the starting offset and from whichever is
smaller, the node or all that is left, although the offset only concerns the node.
-/

namespace CxkFramework.ByteArray

open Words Blocks Runs

/-- The arguments of one `ofs.write(cur->ptr + diff, len)`. -/
structure Piece where
  node : Nat
  diff : Int
  len : Int
  deriving DecidableEq, Repr

/-- The loop of `writeToFile`, over the nodes from `m_cur` on. `diff` is an `int`. As `len` is
greater than `-diff`, `pos` never drops below zero. -/
def writeToFileLoop (base : Nat) : List Node → Nat → Nat → Int → Except Fault (List Piece)
  | [], _, _, readSize => if readSize > 0 then .error .nullNode else .ok []
  | _ :: rest, idx, pos, readSize =>
    if readSize > 0 then do
      let diff := toInt ((pos % base : Nat) : Int)
      let len := (if readSize > base then (base : Int) else readSize) - diff
      let pieces ← writeToFileLoop base rest (idx + 1) ((pos : Int) + len).toNat (readSize - len)
      .ok (⟨idx, diff, len⟩ :: pieces)
    else .ok []

/-- The nodes from `m_cur` on and the index of the first. -/
def nodesFrom (ba : ByteArray) : Option Nat → List Node × Nat
  | none => ([], 0)
  | some i => (ba.nodes.drop i, i)

/-- Whether the file opens is up to the file system. -/
def writeToFile (ba : ByteArray) (opens : Bool) : Except Fault (Bool × List Piece) :=
  if opens then do
    let (nodes, idx) := ba.nodesFrom ba.cur
    let pieces ← writeToFileLoop ba.baseSize nodes idx ba.position ba.getReadSize
    .ok (true, pieces)
  else .ok (false, [])

/-- The loop of `readFromFile`: a block that comes out short sets `eof`. A round that goes on
has taken a block, so one more round than there are bytes is enough. -/
def readFromFileLoop (ba : ByteArray) : Nat → List UInt8 → Except Fault ByteArray
  | 0, _ => .error .wild
  | rounds + 1, rest => do
    let ba' ← ba.write (rest.take ba.baseSize)
    if rest.length < ba.baseSize then .ok ba'
    else ba'.readFromFileLoop rounds (rest.drop ba.baseSize)

/-- `none` stands for a file that does not open. -/
def readFromFile (ba : ByteArray) (file : Option (List UInt8)) : Except Fault (Bool × ByteArray) :=
  match file with
  | none => .ok (false, ba)
  | some bytes => do
    let ba' ← ba.readFromFileLoop (bytes.length + 1) bytes
    .ok (true, ba')

/-! ## What a dump should be -/

def Piece.iovec (piece : Piece) : Iovec := ⟨piece.node, piece.diff.toNat, piece.len.toNat⟩

/-- Every length is positive and inside one node, and together the pieces are what is left
behind the cursor. -/
structure Dumps (ba : ByteArray) (pieces : List Piece) : Prop where
  positive : ∀ piece ∈ pieces, 0 < piece.len ∧ 0 ≤ piece.diff
  covers : Covers ba ba.position ba.getReadSize (pieces.map Piece.iovec)

/-- What the file holds afterwards. -/
def dumped (ba : ByteArray) (pieces : List Piece) : List UInt8 :=
  (gather ba.nodes (pieces.map Piece.iovec)).flatten

theorem Dumps.dumped_eq {ba : ByteArray} (hs : Shaped ba) {pieces : List Piece}
    (h : Dumps ba pieces) : dumped ba pieces = slice ba.content ba.position ba.getReadSize :=
  h.covers.gather_eq hs

/-! ## Writing the file -/

section

variable {base : Nat} {ns : List Node} {idx pos : Nat}

theorem writeToFileLoop_done (base : Nat) (ns : List Node) (idx pos : Nat) {readSize : Int}
    (h : readSize ≤ 0) : writeToFileLoop base ns idx pos readSize = .ok [] := by
  cases ns <;> rw [writeToFileLoop, if_neg (by omega)]

theorem writeToFileLoop_next (node : Node) (rest : List Node) {readSize diff len : Int}
    (h : 0 < readSize) (hd : toInt ((pos % base : Nat) : Int) = diff)
    (hl : (if readSize > base then (base : Int) else readSize) - diff = len) :
    writeToFileLoop base (node :: rest) idx pos readSize = (do
      let pieces ← writeToFileLoop base rest (idx + 1) ((pos : Int) + len).toNat (readSize - len)
      .ok (⟨idx, diff, len⟩ :: pieces)) := by
  rw [writeToFileLoop, if_pos h]
  simp only [hd, hl]

/-- Pieces that are as they should be, from node `idx` on. -/
structure Pieces (base idx count start size : Nat) (pieces : List Piece) : Prop where
  positive : ∀ piece ∈ pieces, 0 < piece.len ∧ 0 ≤ piece.diff
  inside : ∀ piece ∈ pieces, piece.node < idx + count ∧ piece.diff + piece.len ≤ base
  slots_eq : slots base (pieces.map Piece.iovec) = List.range' start size

theorem pieces_nil (base idx count start : Nat) : Pieces base idx count start 0 [] where
  positive piece h := by simp at h
  inside piece h := by simp at h
  slots_eq := rfl

theorem Pieces.cons (off : Nat) {count start size len : Nat} {pieces : List Piece}
    (h : Pieces base (idx + 1) count (start + len) size pieces) (hstart : base * idx + off = start)
    (hlen : 0 < len) (hin : off + len ≤ base) :
    Pieces base idx (count + 1) start (len + size) (⟨idx, off, len⟩ :: pieces) where
  positive piece hp := by
    rcases List.mem_cons.mp hp with rfl | hp
    · simp [hlen]
    · exact h.positive piece hp
  inside piece hp := by
    rcases List.mem_cons.mp hp with rfl | hp
    · simp only
      omega
    · obtain ⟨h₁, h₂⟩ := h.inside piece hp
      omega
  slots_eq := by
    have hrest := h.slots_eq
    rw [slots] at hrest
    rw [List.map_cons, slots, List.flatMap_cons, hrest, ← List.range'_append_1, Piece.iovec]
    simp only [Int.toNat_natCast, hstart]

/-- From the start of a node on, every piece is the node's block or what is left. -/
theorem writeToFileLoop_aligned (idx : Nat) (hb : 0 < base) {size : Nat} (hfit : size ≤ base * ns.length) :
    ∃ pieces, writeToFileLoop base ns idx (base * idx) size = .ok pieces ∧
      Pieces base idx ns.length (base * idx) size pieces := by
  induction ns generalizing idx size with
  | nil =>
    rw [List.length_nil, Nat.mul_zero] at hfit
    obtain rfl : size = 0 := by omega
    exact ⟨[], writeToFileLoop_done _ _ _ _ (by simp), pieces_nil _ _ _ _⟩
  | cons node rest ih =>
    rw [mul_length_cons] at hfit
    rcases Nat.eq_zero_or_pos size with rfl | hpos
    · exact ⟨[], writeToFileLoop_done _ _ _ _ (by simp), pieces_nil _ _ _ _⟩
    have hdiff : toInt ((base * idx % base : Nat) : Int) = ((0 : Nat) : Int) := by
      rw [Nat.mul_mod_right]
      rfl
    have hlen : (if (size : Int) > base then (base : Int) else size) - ((0 : Nat) : Int) =
        ((min base size : Nat) : Int) := by
      split <;> omega
    have hnext : ((base * idx : Nat) : Int) + ((min base size : Nat) : Int) =
        ((base * idx + min base size : Nat) : Int) := by simp
    have hleft : (size : Int) - ((min base size : Nat) : Int) =
        ((size - min base size : Nat) : Int) := by omega
    rw [writeToFileLoop_next node rest (by omega) hdiff hlen, hnext, Int.toNat_natCast, hleft]
    have hstep : ∃ pieces, writeToFileLoop base rest (idx + 1) (base * idx + min base size)
        ((size - min base size : Nat) : Int) = .ok pieces ∧
        Pieces base (idx + 1) rest.length (base * idx + min base size) (size - min base size)
          pieces := by
      rcases Nat.lt_or_ge base size with hlt | hge
      · rw [min_eq_left hlt.le, ← Nat.mul_succ]
        exact ih (idx + 1) (by omega)
      · rw [min_eq_right hge, Nat.sub_self]
        exact ⟨[], writeToFileLoop_done _ _ _ _ (by simp), pieces_nil _ _ _ _⟩
    obtain ⟨pieces, hok, hp⟩ := hstep
    refine ⟨_, by rw [hok, ok_bind], ?_⟩
    have hall := hp.cons 0 rfl (show 0 < min base size by omega) (by omega)
    have hsum : min base size + (size - min base size) = size := by omega
    rwa [hsum] at hall

/-- Within the range of an `int` and with a node's worth of bytes left, the first piece ends
with its node. -/
theorem writeToFileLoop_ok (hb : 0 < base) {size : Nat} (hpos : pos / base = idx)
    (hfit : pos % base + size ≤ base * ns.length)
    (h : size = 0 ∨ pos % base = 0 ∨ (base ≤ size ∧ pos % base < 2 ^ 31)) :
    ∃ pieces, writeToFileLoop base ns idx pos size = .ok pieces ∧
      Pieces base idx ns.length pos size pieces := by
  have hdm := Nat.div_add_mod pos base
  have hoff := Nat.mod_lt pos hb
  rw [hpos] at hdm
  rcases h with rfl | h0 | ⟨hle, hint⟩
  · exact ⟨[], writeToFileLoop_done _ _ _ _ (by simp), pieces_nil _ _ _ _⟩
  · rw [h0, Nat.add_zero] at hdm
    rw [h0, Nat.zero_add] at hfit
    rw [← hdm]
    exact writeToFileLoop_aligned idx hb hfit
  · cases ns with
    | nil => rw [List.length_nil, Nat.mul_zero] at hfit; omega
    | cons node rest =>
      rw [mul_length_cons] at hfit
      have hdiff : toInt ((pos % base : Nat) : Int) = ((pos % base : Nat) : Int) :=
        Stream.toInt_of_lt (by omega) (by omega)
      have hlen : (if (size : Int) > base then (base : Int) else size) - ((pos % base : Nat) : Int) =
          ((base - pos % base : Nat) : Int) := by
        split <;> omega
      have hnext : ((pos : Int) + ((base - pos % base : Nat) : Int)).toNat = base * (idx + 1) := by
        rw [Nat.mul_succ]
        omega
      have hleft : (size : Int) - ((base - pos % base : Nat) : Int) =
          ((size - (base - pos % base) : Nat) : Int) := by omega
      obtain ⟨pieces, hok, hp⟩ := writeToFileLoop_aligned (idx + 1) hb
        (show size - (base - pos % base) ≤ base * rest.length by omega)
      rw [writeToFileLoop_next node rest (by omega) hdiff hlen, hnext, hleft, hok, ok_bind]
      refine ⟨_, rfl, ?_⟩
      have hstart : base * (idx + 1) = pos + (base - pos % base) := by
        rw [Nat.mul_succ]
        omega
      rw [hstart] at hp
      have hall := hp.cons (pos % base) hdm (by omega) (by omega)
      have hsum : base - pos % base + (size - (base - pos % base)) = size := by omega
      rwa [hsum] at hall

/-- The first of the buffers starts where the range starts; the others make up the rest. -/
theorem slots_cons_inv {b p n : Nat} {iov : Iovec} {iovs : List Iovec}
    (h : slots b (iov :: iovs) = List.range' p n) (hlen : 0 < iov.len) :
    b * iov.node + iov.offset = p ∧ slots b iovs = List.range' (p + iov.len) (n - iov.len) := by
  rw [slots, List.flatMap_cons, ← slots] at h
  have hn : n = iov.len + (n - iov.len) := by
    have := congrArg List.length h
    rw [List.length_append, List.length_range', List.length_range'] at this
    omega
  rw [hn, ← List.range'_append_1] at h
  obtain ⟨hfirst, hrest⟩ := List.append_inj h (by simp)
  refine ⟨?_, hrest⟩
  obtain ⟨k, hk⟩ := Nat.exists_eq_add_of_lt hlen
  rw [hk, List.range'_succ, List.range'_succ] at hfirst
  exact (List.cons.inj hfirst).1

theorem toInt_lt (n : Int) : toInt n < 2 ^ 31 := by
  rw [toInt, Int.bmod_def]
  split <;> omega

/-- A dump that is exact had a start it can deal with: the second piece would have to begin
inside the node the first one did not finish. -/
theorem writeToFileLoop_start (hb : 0 < base) {size : Nat} (hsize : 0 < size)
    (hpos : pos / base = idx) {pieces : List Piece}
    (hok : writeToFileLoop base ns idx pos size = .ok pieces)
    (hp : ∀ piece ∈ pieces, 0 < piece.len ∧ 0 ≤ piece.diff)
    (hslots : slots base (pieces.map Piece.iovec) = List.range' pos size) :
    pos % base = 0 ∨ (base ≤ size ∧ pos % base < 2 ^ 31) := by
  have hdm := Nat.div_add_mod pos base
  have hoff := Nat.mod_lt pos hb
  rw [hpos] at hdm
  cases ns with
  | nil =>
    rw [writeToFileLoop, if_pos (by omega)] at hok
    cases hok
  | cons node rest =>
    rw [writeToFileLoop_next node rest (by omega) rfl rfl] at hok
    obtain ⟨pieces', hok', hpieces⟩ := bind_eq_ok.mp hok
    cases hpieces
    obtain ⟨hl, hd⟩ := hp _ List.mem_cons_self
    obtain ⟨hstart, hrest⟩ := slots_cons_inv hslots (by simpa [Piece.iovec] using hl)
    simp only [Piece.iovec] at hstart hrest hl hd
    have hint : toInt ((pos % base : Nat) : Int) = ((pos % base : Nat) : Int) := by omega
    have hlt := toInt_lt ((pos % base : Nat) : Int)
    rw [hint] at hl hrest hok' hlt
    have hoff31 : pos % base < 2 ^ 31 := by omega
    by_cases hle : base ≤ size
    · exact .inr ⟨hle, hoff31⟩
    left
    by_contra h0
    have hsize' : (if (size : Int) > base then (base : Int) else size) = size := by
      split <;> omega
    rw [hsize'] at hl hrest hok'
    cases rest with
    | nil =>
      rw [writeToFileLoop, if_pos (by omega)] at hok'
      cases hok'
    | cons next rest =>
      rw [writeToFileLoop_next next rest (by omega) rfl rfl] at hok'
      obtain ⟨pieces'', -, hpieces⟩ := bind_eq_ok.mp hok'
      cases hpieces
      have hl₂ := (hp _ (List.mem_cons_of_mem _ List.mem_cons_self)).1
      obtain ⟨hstart₂, -⟩ := slots_cons_inv hrest (by simpa [Piece.iovec] using hl₂)
      simp only [Piece.iovec, Nat.mul_succ] at hstart₂
      -- wherever in its node the second piece begins
      generalize Int.toNat (toInt _) = off₂ at hstart₂
      clear hd hstart hint hlt hoff31
      omega

end

variable {ba : ByteArray}

theorem writeToFile_eq (hr : RepInv ba) :
    ba.writeToFile true = (do
      let pieces ← writeToFileLoop ba.baseSize (ba.nodes.drop (ba.position / ba.baseSize))
        (ba.position / ba.baseSize) ba.position ba.getReadSize
      .ok (true, pieces)) := by
  by_cases hend : ba.position = ba.capacity
  · -- behind the last node nothing is left
    have hrs : ba.getReadSize = 0 := by
      have := hr.size_le
      rw [getReadSize]
      omega
    rw [writeToFile, if_pos rfl, hr.cur_null hend, hrs]
    simp only [nodesFrom, writeToFileLoop_done _ _ _ _ (show ((0 : Nat) : Int) ≤ 0 by simp)]
  · rw [writeToFile, if_pos rfl, hr.cur_node hend]
    rfl

theorem writeToFile_dumps_iff (hs : Shaped ba) (hr : RepInv ba) :
    (∃ pieces, ba.writeToFile true = .ok (true, pieces) ∧ Dumps ba pieces) ↔
      ba.getReadSize = 0 ∨ ba.position % ba.baseSize = 0 ∨
        (ba.baseSize ≤ ba.getReadSize ∧ ba.position % ba.baseSize < 2 ^ 31) := by
  rw [writeToFile_eq hr]
  constructor
  · rintro ⟨pieces, hok, hd⟩
    obtain ⟨pieces', hloop, hok⟩ := bind_eq_ok.mp hok
    cases hok
    rcases Nat.eq_zero_or_pos ba.getReadSize with h0 | hpos
    · exact .inl h0
    · exact .inr (writeToFileLoop_start hs.base_pos hpos rfl hloop hd.positive hd.covers.slots_eq)
  · intro h
    have hcap := hr.capacity_eq
    have hsize := hr.size_le
    have hpos := hr.position_le
    have hdm := Nat.div_add_mod ba.position ba.baseSize
    have hi : ba.position / ba.baseSize ≤ ba.nodes.length := Nat.div_le_of_le_mul (by omega)
    have hrest := mul_length_drop (b := ba.baseSize) hi
    have hrs : ba.getReadSize = ba.size - ba.position := rfl
    obtain ⟨pieces, hok, hp⟩ := writeToFileLoop_ok hs.base_pos rfl
      (show ba.position % ba.baseSize + ba.getReadSize ≤
        ba.baseSize * (ba.nodes.drop (ba.position / ba.baseSize)).length by omega) h
    refine ⟨pieces, by rw [hok, ok_bind], hp.positive, ?_, hp.slots_eq⟩
    intro iov hiov
    obtain ⟨piece, hmem, rfl⟩ := List.mem_map.mp hiov
    obtain ⟨hnode, hin⟩ := hp.inside piece hmem
    have hsign := hp.positive piece hmem
    rw [List.length_drop] at hnode
    simp only [Piece.iovec]
    omega

/-! ## Reading it back -/

section

variable {garbage : Nat → UInt8} {base : Nat} {endian : Endian} {stream : List UInt8}

/-- A block always fits behind whole blocks. -/
theorem chunkFits_aligned {p n : Nat} (hp : p % base = 0) (hn : n ≤ base) :
    ChunkFits base p n := by
  rw [ChunkFits]
  rcases Nat.eq_zero_or_pos p with rfl | hpos
  · exact .inl hn
  · rw [free_of_pos hpos, hp, Nat.sub_zero, Nat.mod_self, Nat.sub_zero]
    omega

theorem Filled.write_block (h : Filled garbage base endian stream ba)
    (hal : stream.length % base = 0) {block : List UInt8} (hn : block.length ≤ base) :
    ∃ ba', ba.write block = .ok ba' ∧ Filled garbage base endian (stream ++ block) ba' := by
  by_cases hd : block = []
  · subst hd
    exact ⟨ba, by rw [write, if_pos List.length_nil], by simpa using h⟩
  · exact h.write_ok hd (chunkFits_aligned hal hn)

theorem Filled.readFromFileLoop_ok (h : Filled garbage base endian stream ba)
    (hal : stream.length % base = 0) {rounds : Nat} {rest : List UInt8}
    (hr : rest.length < rounds) :
    ∃ ba', ba.readFromFileLoop rounds rest = .ok ba' ∧
      Filled garbage base endian (stream ++ rest) ba' := by
  induction rounds generalizing ba stream rest with
  | zero => omega
  | succ rounds ih =>
    have hb := h.base_pos
    have hlen : (rest.take base).length = min base rest.length := List.length_take
    obtain ⟨ba₁, hok₁, h₁⟩ := h.write_block hal (show (rest.take base).length ≤ base by omega)
    rw [readFromFileLoop, h.baseSize_eq, hok₁, ok_bind]
    split
    · next hlt =>
      rw [List.take_of_length_le hlt.le] at h₁
      exact ⟨ba₁, rfl, h₁⟩
    · next hge =>
      have hal' : (stream ++ rest.take base).length % base = 0 := by
        rw [List.length_append, hlen, min_eq_left (by omega), Nat.add_mod_right, hal]
      obtain ⟨ba', hok, h'⟩ := ih h₁ hal'
        (show (rest.drop base).length < rounds by rw [List.length_drop]; omega)
      rw [List.append_assoc, List.take_append_drop] at h'
      exact ⟨ba', hok, h'⟩

theorem Filled.rewind_toString (h : Filled garbage base endian stream ba) :
    ∃ ba', ba.setPosition 0 = .ok ba' ∧ ba'.toString = .ok stream := by
  obtain ⟨ba', hset, h'⟩ := h.rewind
  have hr' := (setPosition_keeps h.shaped h.repInv hset).2
  have hrs : ba'.getReadSize = stream.length := by rw [h'.getReadSize_eq, Nat.sub_zero]
  have hto := (toString_iff h'.shaped hr').mpr (.inr (.inl ⟨rfl, .inl (by rw [h'.position_eq]; simp)⟩))
  rw [hrs, h'.position_eq, h'.content_eq, slice_image (by omega), slice, List.drop_zero,
    List.take_length] at hto
  exact ⟨ba', hset, hto⟩

end

/-- `readFromFile` into a fresh array, `setPosition(0)` and `toString()`. -/
def load (garbage : Nat → UInt8) (base : Nat) (file : List UInt8) : Except Fault (List UInt8) := do
  let (_, ba) ← (ofBaseSize garbage base).readFromFile (some file)
  let ba ← ba.setPosition 0
  ba.toString

/-- Any file comes back whole, whichever block size it is read with. -/
theorem load_ok (garbage : Nat → UInt8) {base : Nat} (hb : 1 ≤ base) (file : List UInt8) :
    load garbage base file = .ok file := by
  obtain ⟨ba, hok, h⟩ := (filled_ofBaseSize garbage hb).readFromFileLoop_ok (Nat.zero_mod base)
    (Nat.lt_succ_self file.length)
  obtain ⟨ba', hset, hto⟩ := h.rewind_toString
  rw [load, readFromFile]
  simp only [hok, ok_bind, hset, hto, List.nil_append]

/-- The dump is exact, and whatever array it is loaded into, the same bytes come out. -/
def FileRoundTrips (ba : ByteArray) : Prop :=
  ∃ pieces, ba.writeToFile true = .ok (true, pieces) ∧ Dumps ba pieces ∧
    dumped ba pieces = slice ba.content ba.position ba.getReadSize ∧
    ∀ (garbage : Nat → UInt8) (base : Nat), 1 ≤ base →
      load garbage base (dumped ba pieces) = .ok (slice ba.content ba.position ba.getReadSize)

/-- Only the dump can go wrong: it starts inside a node and less than a node is left, or the
offset in a node of more than two gigabytes does not fit an `int`. -/
theorem fileRoundTrips_iff (hs : Shaped ba) (hr : RepInv ba) :
    FileRoundTrips ba ↔
      ba.getReadSize = 0 ∨ ba.position % ba.baseSize = 0 ∨
        (ba.baseSize ≤ ba.getReadSize ∧ ba.position % ba.baseSize < 2 ^ 31) := by
  rw [← writeToFile_dumps_iff hs hr]
  constructor
  · rintro ⟨pieces, hok, hd, -⟩
    exact ⟨pieces, hok, hd⟩
  · rintro ⟨pieces, hok, hd⟩
    refine ⟨pieces, hok, hd, hd.dumped_eq hs, ?_⟩
    intro garbage base hb
    rw [hd.dumped_eq hs]
    exact load_ok garbage hb _

/-- The seven bytes behind the first, more than a node. -/
theorem fileRoundTrips_seven_bytes : FileRoundTrips (eightBytes 1) :=
  (fileRoundTrips_iff (shaped_eightBytes 1) (repInv_eightBytes (by decide))).mpr
    (.inr (.inr ⟨by decide, by decide⟩))

/-- Of the three bytes behind offset five, the first two are written from the right place;
then the loop leaves the node and follows the null pointer. -/
theorem writeToFile_follows_null : Shaped (eightBytes 5) ∧ RepInv (eightBytes 5) ∧
    (eightBytes 5).getReadSize = 3 ∧ (eightBytes 5).writeToFile true = .error .nullNode ∧
      ¬FileRoundTrips (eightBytes 5) := by
  have hnull : (eightBytes 5).writeToFile true = .error .nullNode := by decide
  refine ⟨shaped_eightBytes 5, repInv_eightBytes (by decide), by decide, hnull, ?_⟩
  rintro ⟨pieces, hok, -⟩
  rw [hnull] at hok
  cases hok

end CxkFramework.ByteArray
