import CxkFramework.ByteArrayInvariant

/-!
# What the reads return

The stored bytes are those of `content`. A read is exact while its walk stays contiguous:
it starts in the node of its position, and there either at the first byte or with a length
that ends in the next node before the stale `ncap` shows. A longer one returns the right
bytes by coincidence only, `Coincides` says when.
-/

namespace CxkFramework.ByteArray

open Words Blocks Runs

variable {ba : ByteArray}

/-- A walk from node `i` that cannot go wrong. -/
def Straight (ba : ByteArray) (i p n : Nat) : Prop :=
  i = p / ba.baseSize ∧
    (p % ba.baseSize = 0 ∨ n ≤ 2 * (ba.baseSize - p % ba.baseSize))

/-- A walk from node `i` that finds the bytes of `[p, p + n)` all the same: there are enough
nodes, and where it looks for a byte there happens to be the same one. -/
structure Coincides (ba : ByteArray) (i p n : Nat) : Prop where
  lasts : n ≤ (ba.baseSize - p % ba.baseSize) * (ba.nodes.length - i)
  found : ∀ j < n, ba.content[ba.baseSize * i + staleOffset ba.baseSize (p % ba.baseSize) j]? =
    ba.content[p + j]?

theorem Shaped.mod_lt (hs : Shaped ba) (p : Nat) : p % ba.baseSize < ba.baseSize :=
  Nat.mod_lt _ hs.base_pos

theorem Straight.lasts {i p n : Nat} (hs : Shaped ba) (h : Straight ba i p n)
    (hp : p + n ≤ ba.content.length) (hn : 0 < n) :
    n ≤ (ba.baseSize - p % ba.baseSize) * (ba.nodes.length - i) := by
  obtain ⟨rfl, h⟩ := h
  rw [hs.length_content] at hp
  have hdm := Nat.div_add_mod p ba.baseSize
  have hoff := hs.mod_lt p
  have hi : p / ba.baseSize < ba.nodes.length := div_lt_length (by omega)
  obtain ⟨k, hk⟩ := Nat.exists_eq_add_of_lt hi
  rw [hk, Nat.mul_succ, Nat.mul_add] at hp
  have hsub : ba.nodes.length - p / ba.baseSize = k + 1 := by omega
  rw [hsub, Nat.mul_succ]
  cases h with
  | inl h0 =>
    rw [h0, Nat.sub_zero]
    omega
  | inr hle =>
    -- a length over the first node needs a second one
    cases k with
    | zero => omega
    | succ k => rw [Nat.mul_succ]; omega

theorem Straight.coincides {i p n : Nat} (hs : Shaped ba) (h : Straight ba i p n)
    (hp : p + n ≤ ba.content.length) (hn : 0 < n) : Coincides ba i p n where
  lasts := h.lasts hs hp hn
  found j hj := by
    obtain ⟨rfl, h⟩ := h
    rw [staleOffset_eq (hs.mod_lt p) hj h, ← Nat.add_assoc, Nat.div_add_mod]

/-- The loop from node `i` on, once for both overloads: which nodes it needs and whether what
it returns are the stored bytes. -/
theorem readLoop_exact_iff (hs : Shaped ba) {i p n : Nat} (hp : p + n ≤ ba.content.length)
    (hn : 0 < n) (hops : Nat) :
    readLoop (ba.nodes.drop i) (p % ba.baseSize) (ba.baseSize - p % ba.baseSize) n =
        .ok (slice ba.content p n, hops) ↔
      Coincides ba i p n ∧ hops = readHops ba.baseSize (p % ba.baseSize) n := by
  have hlen : (ba.nodes.drop i).length = ba.nodes.length - i := List.length_drop
  by_cases hfit : n ≤ (ba.baseSize - p % ba.baseSize) * (ba.nodes.length - i)
  · obtain ⟨bytes, hok, hl, hbytes⟩ :=
      readLoop_ok (hs.uniform.drop i) (hs.mod_lt p) hn (by rwa [hlen])
    have hfound : ∀ j < n, bytes[j]? =
        ba.content[ba.baseSize * i + staleOffset ba.baseSize (p % ba.baseSize) j]? := by
      intro j hj
      rw [hbytes j hj, flatten_drop_uniform hs.uniform, List.getElem?_drop, content]
    rw [hok]
    constructor
    · intro h
      cases h
      refine ⟨⟨hfit, fun j hj => ?_⟩, rfl⟩
      rw [← hfound j hj, getElem?_slice hj]
    · intro h
      rw [h.2, eq_slice_of_getElem? hl hp fun j hj => (hfound j hj).trans (h.1.found j hj)]
  · rw [readLoop_null hn (by rw [hlen]; omega)]
    constructor
    · intro h
      cases h
    · intro h
      exact absurd h.1.lasts hfit

theorem RepInv.add_le_length (hs : Shaped ba) (hr : RepInv ba) {p n : Nat}
    (h : p + n ≤ ba.size) : p + n ≤ ba.content.length := by
  rw [hs.length_content, ← hr.capacity_eq]
  exact h.trans hr.size_le

theorem RepInv.cursor_lt (hr : RepInv ba) (h : ba.position ≠ ba.capacity) :
    ba.position / ba.baseSize < ba.nodes.length := by
  have hle := hr.position_le.trans hr.size_le
  have hcap := hr.capacity_eq
  exact div_lt_length (by omega)

theorem RepInv.deref_ok (hs : Shaped ba) (hr : RepInv ba) (h : ba.position ≠ ba.capacity) :
    ∃ node, ba.deref = .ok (ba.position / ba.baseSize, node) ∧ node.length = ba.baseSize :=
  ⟨_, deref_nodePtr (hr.cur_eq_nodePtr hs) (hr.cursor_lt h), hs.length_node _⟩

/-! ## read -/

/-- What the header promises of `read`. -/
def ReadsRange (ba : ByteArray) (size : Nat) : Prop :=
  ba.read size =
    if size ≤ ba.getReadSize then
      .ok (slice ba.content ba.position size, { ba with
        position := ba.position + size
        cur := ba.nodePtr ((ba.position + size) / ba.baseSize) })
    else .error (.outOfRange "not enough len")

theorem Straight.readKeeps {n : Nat} (hs : Shaped ba)
    (h : Straight ba (ba.position / ba.baseSize) ba.position n) : ReadKeeps ba n := by
  have hoff := hs.offset_lt
  rw [ReadKeeps]
  cases h.2 with
  | inl h0 => exact .inl h0
  | inr hle =>
    by_cases h0 : ba.position % ba.baseSize = 0
    · exact .inl h0
    · rw [Nat.div_eq_of_lt (by omega), Nat.div_eq_of_lt (by omega)]
      exact .inr (.inr rfl)

/-- The same pointer after the same walk. -/
theorem nodePtr_hops_iff (hs : Shaped ba) (hr : RepInv ba) {n : Nat} (hn : 0 < n)
    (hle : n ≤ ba.getReadSize) (h : Coincides ba (ba.position / ba.baseSize) ba.position n) :
    ba.nodePtr (ba.position / ba.baseSize +
        readHops ba.baseSize (ba.position % ba.baseSize) n) =
      ba.nodePtr ((ba.position + n) / ba.baseSize) ↔ ReadKeeps ba n := by
  have hcap := hr.capacity_eq
  have hsize := hr.size_le
  rw [getReadSize] at hle
  have hi := hr.cursor_lt (by omega)
  have hhops := readHops_le hs.offset_lt (by omega) h.lasts
  rw [nodePtr_inj (by omega) (Nat.div_le_of_le_mul (by omega)), ← div_add_div hs.base_pos,
    Nat.add_left_cancel_iff, readHops_eq_iff hs.offset_lt, ReadKeeps]

theorem read_exact_iff (hs : Shaped ba) (hr : RepInv ba) {n : Nat} (hn : 0 < n)
    (hle : n ≤ ba.getReadSize) :
    ReadsRange ba n ↔
      Coincides ba (ba.position / ba.baseSize) ba.position n ∧ ReadKeeps ba n := by
  have hend : ba.position + n ≤ ba.size := by
    rw [getReadSize] at hle
    omega
  have hcur : ba.position ≠ ba.capacity := by
    have := hr.size_le
    omega
  obtain ⟨node, hd, hlen⟩ := hr.deref_ok hs hcur
  have hexact := readLoop_exact_iff hs (hr.add_le_length hs hend) hn (i := ba.position / ba.baseSize)
  rw [ReadsRange, if_pos hle, read, if_neg (by omega)]
  simp only [hd, ok_bind, hlen]
  constructor
  · intro h
    obtain ⟨⟨bytes, hops⟩, hloop, h⟩ := bind_eq_ok.mp h
    have hpair := Except.ok.inj h
    rw [Prod.mk.injEq] at hpair
    obtain ⟨rfl, hba⟩ := hpair
    obtain ⟨hco, rfl⟩ := (hexact hops).mp hloop
    exact ⟨hco, (nodePtr_hops_iff hs hr hn hle hco).mp (congrArg ByteArray.cur hba)⟩
  · rintro ⟨hco, hk⟩
    rw [(hexact _).mpr ⟨hco, rfl⟩, ok_bind, (nodePtr_hops_iff hs hr hn hle hco).mpr hk]

theorem readsRange_zero_iff (hs : Shaped ba) (hr : RepInv ba) :
    ReadsRange ba 0 ↔ ba.position ≠ ba.capacity := by
  rw [ReadsRange, if_pos (Nat.zero_le _)]
  constructor
  · intro h hend
    rw [read, if_neg (by omega), deref_null (hr.cur_null hend), error_bind] at h
    cases h
  · intro h
    have hcur := hr.cur_eq_nodePtr hs
    rw [read_none hcur (hr.cursor_lt h), slice, List.take_zero, advanced]
    rfl

/-- `read` keeps its promise exactly when it throws, or reads nothing before the end of the
last node, or walks straight, or meets equal bytes and ends on the right node. -/
theorem readsRange_iff (hs : Shaped ba) (hr : RepInv ba) (size : Nat) :
    ReadsRange ba size ↔
      ba.getReadSize < size ∨ (size = 0 ∧ ba.position ≠ ba.capacity) ∨
        (0 < size ∧ (Straight ba (ba.position / ba.baseSize) ba.position size ∨
          (Coincides ba (ba.position / ba.baseSize) ba.position size ∧ ReadKeeps ba size))) := by
  by_cases hgt : ba.getReadSize < size
  · refine iff_of_true ?_ (.inl hgt)
    rw [ReadsRange, if_neg (by omega), read, if_pos hgt]
  rcases Nat.eq_zero_or_pos size with rfl | hn
  · rw [readsRange_zero_iff hs hr]
    simp
  · have hle := Nat.le_of_not_lt hgt
    rw [read_exact_iff hs hr hn hle]
    simp only [hgt, hn.ne', hn, false_and, false_or, true_and]
    constructor
    · intro h
      exact .inr h
    · rintro (h | h)
      · have hend : ba.position + size ≤ ba.size := by
          rw [getReadSize] at hle
          omega
        exact ⟨h.coincides hs (hr.add_le_length hs hend) hn, h.readKeeps hs⟩
      · exact h

/-- Eight bytes in two nodes. -/
def eightBytes (position : Nat) : ByteArray where
  baseSize := 4
  position := position
  capacity := 8
  size := 8
  endian := .big
  nodes := [[0, 1, 2, 3], [4, 5, 6, 7]]
  cur := if position = 8 then none else some (position / 4)
  garbage := fun _ => 0

theorem write_eightBytes :
    (ofBaseSize (fun _ => 0) 4).write [0, 1, 2, 3, 4, 5, 6, 7] = .ok (eightBytes 8) := rfl

theorem shaped_eightBytes (position : Nat) : Shaped (eightBytes position) :=
  ⟨by simp [eightBytes], by simp [eightBytes], by simp [eightBytes]⟩

theorem repInv_eightBytes {position : Nat} (h : position ≤ 8) : RepInv (eightBytes position) where
  position_le := h
  size_le := Nat.le_refl 8
  capacity_eq := rfl
  cur_null h8 := if_pos h8
  cur_node h8 := if_neg h8

/-- From offset two on, the four bytes that lie in both nodes. -/
theorem readsRange_four_bytes : ReadsRange (eightBytes 2) 4 :=
  (readsRange_iff (shaped_eightBytes 2) (repInv_eightBytes (by decide)) 4).mpr
    (.inr (.inr ⟨by decide, .inl ⟨rfl, .inr (by decide)⟩⟩))

/-- From offset three on, each node gives one byte, and there are only two. -/
theorem read_follows_null : (eightBytes 8).setPosition 3 = .ok (eightBytes 3) ∧
    Shaped (eightBytes 3) ∧ RepInv (eightBytes 3) ∧ 3 ≤ (eightBytes 3).getReadSize ∧
      (eightBytes 3).read 3 = .error .nullNode ∧ ¬ReadsRange (eightBytes 3) 3 := by
  have hread : (eightBytes 3).read 3 = .error .nullNode := rfl
  refine ⟨rfl, shaped_eightBytes 3, repInv_eightBytes (by decide), by decide, hread, ?_⟩
  rw [ReadsRange, hread, if_pos (by decide)]
  exact fun h => nomatch h

/-! ## The overload with a position -/

/-- It checks its length against the cursor and starts in the cursor's node. -/
theorem readAt_iff (hs : Shaped ba) (hr : RepInv ba) {position size : Nat}
    (hp : position ≤ ba.size) (hsz : size ≤ ba.size - position) :
    ba.readAt size position = .ok (slice ba.content position size) ↔
      size ≤ ba.getReadSize ∧ ba.position ≠ ba.capacity ∧
        (size = 0 ∨ Straight ba (ba.position / ba.baseSize) position size ∨
          Coincides ba (ba.position / ba.baseSize) position size) := by
  by_cases hgt : size ≤ ba.getReadSize
  swap
  · rw [readAt, if_pos (by omega)]
    simp [hgt]
  by_cases hend : ba.position = ba.capacity
  · rw [readAt, if_neg (by omega), deref_null (hr.cur_null hend), error_bind]
    simp [hend]
  obtain ⟨node, hd, hlen⟩ := hr.deref_ok hs hend
  rw [readAt, if_neg (by omega)]
  simp only [hd, ok_bind, hlen, hgt, hend, ne_eq, not_false_eq_true, true_and]
  rcases Nat.eq_zero_or_pos size with rfl | hn
  · simp [readLoop_zero, slice]
  · have hfits := hr.add_le_length hs (show position + size ≤ ba.size by omega)
    have hexact := readLoop_exact_iff hs hfits hn (i := ba.position / ba.baseSize)
    simp only [hn.ne', false_or]
    constructor
    · intro h
      obtain ⟨⟨bytes, hops⟩, hloop, h⟩ := bind_eq_ok.mp h
      cases h
      exact .inr ((hexact hops).mp hloop).1
    · intro h
      have hco : Coincides ba (ba.position / ba.baseSize) position size :=
        h.elim (fun h => h.coincides hs hfits hn) id
      rw [(hexact _).mpr ⟨hco, rfl⟩, ok_bind]

/-- `toString` hands the position of the cursor to that overload, so its node is right. -/
theorem toString_iff (hs : Shaped ba) (hr : RepInv ba) :
    ba.toString = .ok (slice ba.content ba.position ba.getReadSize) ↔
      ba.getReadSize = 0 ∨ Straight ba (ba.position / ba.baseSize) ba.position ba.getReadSize ∨
        Coincides ba (ba.position / ba.baseSize) ba.position ba.getReadSize := by
  rw [ByteArray.toString]
  split
  · next h => simp [h, slice]
  · next h =>
    have hle := hr.position_le
    have hsize := hr.size_le
    rw [readAt_iff hs hr hle (show ba.getReadSize ≤ _ from Nat.le_refl _)]
    rw [getReadSize] at h
    have hcur : ba.position ≠ ba.capacity := by omega
    simp [hcur]

/-- `toString` is what `read` returns for the rest, as long as there is one. -/
theorem toString_eq_read (h : 0 < ba.getReadSize) :
    ba.toString = (do
      let (bytes, _) ← ba.read ba.getReadSize
      .ok bytes) := by
  rw [ByteArray.toString, if_neg h.ne', readAt, read, if_neg (Nat.lt_irrefl _),
    if_neg (Nat.lt_irrefl _)]
  cases ba.deref with
  | error e => rfl
  | ok p =>
    simp only [ok_bind]
    cases readLoop (ba.nodes.drop p.1) (ba.position % ba.baseSize)
      (p.2.length - ba.position % ba.baseSize) ba.getReadSize <;> rfl

/-- Every range and the rest behind the cursor: when they are read as they are stored. -/
theorem positional_reads_iff (hs : Shaped ba) (hr : RepInv ba) :
    (∀ position size : Nat, position ≤ ba.size → size ≤ ba.size - position →
      (ba.readAt size position = .ok (slice ba.content position size) ↔
        size ≤ ba.getReadSize ∧ ba.position ≠ ba.capacity ∧
          (size = 0 ∨ Straight ba (ba.position / ba.baseSize) position size ∨
            Coincides ba (ba.position / ba.baseSize) position size))) ∧
    (ba.toString = .ok (slice ba.content ba.position ba.getReadSize) ↔
      ba.getReadSize = 0 ∨ Straight ba (ba.position / ba.baseSize) ba.position ba.getReadSize ∨
        Coincides ba (ba.position / ba.baseSize) ba.position ba.getReadSize) ∧
    (0 < ba.getReadSize → ba.toString = (do
      let (bytes, _) ← ba.read ba.getReadSize
      .ok bytes)) := by
  refine ⟨?_, toString_iff hs hr, toString_eq_read⟩
  intro position size hp hsz
  exact readAt_iff hs hr hp hsz

/-- Two bytes of the first node while the cursor is there, and everything from the start. -/
theorem positional_reads_eight :
    (eightBytes 0).readAt 2 1 = .ok (slice (eightBytes 0).content 1 2) ∧
      (eightBytes 0).toString = .ok (slice (eightBytes 0).content 0 8) := by
  obtain ⟨hat, hto, -⟩ := positional_reads_iff (shaped_eightBytes 0) (repInv_eightBytes (by decide))
  constructor
  · exact (hat 1 2 (by decide) (by decide)).mpr
      ⟨by decide, by decide, .inr (.inl ⟨rfl, .inr (by decide)⟩)⟩
  · exact hto.mpr (.inr (.inl ⟨rfl, .inl rfl⟩))

/-- Bytes five and six are asked for, those at one and two come back. -/
theorem readAt_reads_cursor_node : Shaped (eightBytes 0) ∧ RepInv (eightBytes 0) ∧
    5 ≤ (eightBytes 0).size ∧ 2 ≤ (eightBytes 0).size - 5 ∧
      (eightBytes 0).readAt 2 5 = .ok [1, 2] ∧
      slice (eightBytes 0).content 5 2 = [5, 6] :=
  ⟨shaped_eightBytes 0, repInv_eightBytes (by decide), by decide, by decide, rfl, rfl⟩

end CxkFramework.ByteArray
