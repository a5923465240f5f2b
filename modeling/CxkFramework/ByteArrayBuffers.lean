import CxkFramework.ByteArrayRead
import CxkFramework.ByteArrayStream

/-!
# The buffers handed to the socket layer

A list of buffers is judged by the byte slots it names, numbered through all nodes: which
they are, in which order, and that each buffer stays inside its node. What the buffers hold
follows from that.
-/

namespace CxkFramework.ByteArray

open Words Blocks Runs

variable {ba : ByteArray}

theorem slice_eq_filterMap {α : Type*} (xs : List α) (p n : Nat) :
    slice xs p n = (List.range' p n).filterMap (fun j => xs[j]?) := by
  induction n generalizing p with
  | zero => simp [slice]
  | succ n ih =>
    have hone : slice xs p 1 = (xs[p]?).toList := by
      rw [slice, List.take_one, List.head?_drop]
    rw [Nat.add_comm n 1, slice_add, hone, ih, Nat.add_comm 1 n, List.range'_succ,
      List.filterMap_cons]
    cases xs[p]? <;> rfl

/-- The slots a list of buffers names. -/
def slots (b : Nat) (iovs : List Iovec) : List Nat :=
  iovs.flatMap (fun iov => List.range' (b * iov.node + iov.offset) iov.len)

/-- The `n` slots from `position` on, in order and once each. -/
structure Covers (ba : ByteArray) (position n : Nat) (iovs : List Iovec) : Prop where
  inside : ∀ iov ∈ iovs, iov.node < ba.nodes.length ∧ iov.offset + iov.len ≤ ba.baseSize
  slots_eq : slots ba.baseSize iovs = List.range' position n

theorem covers_nil (ba : ByteArray) (position : Nat) : Covers ba position 0 [] where
  inside iov h := by simp at h
  slots_eq := rfl

theorem slice_node (hs : Shaped ba) {i off n : Nat} (hi : i < ba.nodes.length)
    (h : off + n ≤ ba.baseSize) :
    slice (ba.nodes[i]?.getD []) off n = slice ba.content (ba.baseSize * i + off) n := by
  have hdrop := flatten_drop_uniform hs.uniform i
  rw [List.drop_eq_getElem_cons hi, List.flatten_cons] at hdrop
  rw [List.getElem?_eq_getElem hi, Option.getD_some, ← slice_drop, content, ← hdrop,
    slice_append_left (by rw [hs.length_node hi]; exact h)]

/-- Buffers over the right slots hold the right bytes. -/
theorem Covers.gather_eq (hs : Shaped ba) {position n : Nat} {iovs : List Iovec}
    (h : Covers ba position n iovs) :
    (gather ba.nodes iovs).flatten = slice ba.content position n := by
  have hall : (gather ba.nodes iovs).flatten =
      (slots ba.baseSize iovs).filterMap (fun j => ba.content[j]?) := by
    have hin := h.inside
    clear h
    induction iovs with
    | nil => rfl
    | cons iov iovs ih =>
      obtain ⟨hnode, hoff⟩ := hin iov List.mem_cons_self
      have hrest := ih fun i hi => hin i (List.mem_cons_of_mem _ hi)
      rw [gather, List.map_cons, ← gather, List.flatten_cons, hrest, slice_node hs hnode hoff,
        slice_eq_filterMap, ← List.filterMap_append]
      rfl
  rw [hall, h.slots_eq, ← slice_eq_filterMap]

/-! ## The loop -/

theorem buffersLoop_slots {b : Nat} {ns : List Node} (hu : Uniform b ns) {npos : Nat}
    (hpos : npos < b) {n : Nat} {idx : Nat} {iovs : List Iovec}
    (hok : buffersLoop ns idx npos (b - npos) n = .ok iovs) :
    slots b iovs = List.range' (b * idx + npos) n ∧
      ∀ iov ∈ iovs, iov.node < idx + ns.length ∧ iov.offset + iov.len ≤ b := by
  induction ns generalizing npos n idx iovs with
  | nil =>
    cases n with
    | zero => cases hok; simp [slots]
    | succ n => rw [buffersLoop] at hok; cases hok
  | cons node rest ih =>
    rcases Nat.eq_zero_or_pos n with rfl | hn
    · rw [buffersLoop] at hok
      cases hok
      simp [slots]
    by_cases hin : n ≤ b - npos
    · rw [buffersLoop_within node rest idx npos _ hn hin] at hok
      cases hok
      refine ⟨by simp [slots], ?_⟩
      intro iov h
      rw [List.mem_singleton.mp h]
      simp only [List.length_cons]
      omega
    · cases rest with
      | nil =>
        rw [buffersLoop_last node idx npos _ (by omega)] at hok
        cases hok
      | cons next rest =>
        have hrest := (uniform_cons.mp hu).2
        rw [buffersLoop_next node next rest idx npos _ (by omega),
          (uniform_cons.mp hrest).1] at hok
        obtain ⟨iovs', hok', hiovs⟩ := bind_eq_ok.mp hok
        cases hiovs
        obtain ⟨hslots, hinside⟩ := ih hrest (show 0 < b by omega) hok'
        constructor
        · have hstart : b * (idx + 1) + 0 = b * idx + npos + (b - npos) := by
            rw [Nat.mul_succ]
            omega
          have hsum : n = b - npos + (n - (b - npos)) := by omega
          rw [slots, List.flatMap_cons, ← slots, hslots, hstart, hsum, ← List.range'_append_1,
            Nat.add_sub_cancel_left]
        · intro iov h
          rcases List.mem_cons.mp h with rfl | h
          · simp only [List.length_cons]
            omega
          · obtain ⟨h₁, h₂⟩ := hinside iov h
            simp only [List.length_cons] at h₁ ⊢
            exact ⟨by omega, h₂⟩

/-- The loop over any range, from the node its position lies in. -/
theorem buffersLoop_covers (hs : Shaped ba) {p n : Nat} (hn : 0 < n)
    (hfit : p + n ≤ ba.baseSize * ba.nodes.length) :
    ∃ iovs, buffersLoop (ba.nodes.drop (p / ba.baseSize)) (p / ba.baseSize) (p % ba.baseSize)
        (ba.baseSize - p % ba.baseSize) n = .ok iovs ∧ Covers ba p n iovs := by
  have hdm := Nat.div_add_mod p ba.baseSize
  have hi : p / ba.baseSize < ba.nodes.length := div_lt_length (by omega)
  have hrest := mul_length_drop (b := ba.baseSize) hi.le
  obtain ⟨iovs, hok, -⟩ := buffersLoop_ok (hs.uniform.drop (p / ba.baseSize)) (hs.mod_lt p) hn
    (by omega) (p / ba.baseSize)
  obtain ⟨hslots, hinside⟩ :=
    buffersLoop_slots (hs.uniform.drop (p / ba.baseSize)) (hs.mod_lt p) hok
  rw [hdm] at hslots
  refine ⟨iovs, hok, fun iov h => ?_, hslots⟩
  obtain ⟨hnode, hoff⟩ := hinside iov h
  rw [List.length_drop] at hnode
  exact ⟨by omega, hoff⟩

/-! ## The three views -/

/-- The buffers returned hold the `n` stored bytes from `position` on, and `n` is returned
with them. -/
def Views (ba : ByteArray) (position n : Nat) (out : Except Fault (List Iovec × Nat)) : Prop :=
  ∃ iovs, out = .ok (iovs, n) ∧ Covers ba position n iovs ∧
    (gather ba.nodes iovs).flatten = slice ba.content position n

theorem views_of_covers (hs : Shaped ba) {position n : Nat} {iovs : List Iovec}
    (h : Covers ba position n iovs) : Views ba position n (.ok (iovs, n)) :=
  ⟨iovs, rfl, h, h.gather_eq hs⟩

theorem clip_eq (len n : Nat) : (if len > n then n else len) = min len n := by
  split <;> omega

theorem getReadBuffers_views (hs : Shaped ba) (hr : RepInv ba) (len : Nat) :
    Views ba ba.position (min len ba.getReadSize) (ba.getReadBuffers len) := by
  rw [getReadBuffers]
  simp only [clip_eq]
  split
  · next h =>
    rw [h]
    exact views_of_covers hs (covers_nil ba _)
  · next h =>
    have hcap := hr.capacity_eq
    have hsize := hr.size_le
    have hle : min len ba.getReadSize ≤ ba.size - ba.position := Nat.min_le_right _ _
    obtain ⟨node, hd, hlen⟩ := hr.deref_ok hs (by omega)
    obtain ⟨iovs, hok, hcov⟩ := buffersLoop_covers hs (p := ba.position)
      (Nat.pos_of_ne_zero h) (by omega)
    simp only [hd, ok_bind, hlen, hok]
    exact views_of_covers hs hcov

/-- The overload with a position clips its length against the cursor. -/
theorem getReadBuffersAt_views (hs : Shaped ba) (hr : RepInv ba) {len position : Nat}
    (h : position + min len ba.getReadSize ≤ ba.size) :
    Views ba position (min len ba.getReadSize) (ba.getReadBuffersAt len position) := by
  rw [getReadBuffersAt]
  simp only [clip_eq]
  split
  · next h =>
    rw [h]
    exact views_of_covers hs (covers_nil ba _)
  · next h0 =>
    have hcap := hr.capacity_eq
    have hsize := hr.size_le
    have hle : min len ba.getReadSize ≤ ba.size - ba.position := Nat.min_le_right _ _
    have hi : position / ba.baseSize < ba.nodes.length := div_lt_length (by omega)
    obtain ⟨node, hd, hlen⟩ := hr.deref_ok hs (by omega)
    obtain ⟨iovs, hok, hcov⟩ := buffersLoop_covers hs (p := position)
      (Nat.pos_of_ne_zero h0) (by omega)
    rw [if_neg (by omega)]
    simp only [hd, ok_bind, hlen, hok]
    exact views_of_covers hs hcov

/-- The length returned is the clipped one, whatever the position. -/
theorem getReadBuffersAt_length {len position n : Nat} {iovs : List Iovec}
    (h : ba.getReadBuffersAt len position = .ok (iovs, n)) : n = min len ba.getReadSize := by
  rw [getReadBuffersAt] at h
  simp only [clip_eq] at h
  split at h
  · next h0 =>
    cases h
    exact h0.symm
  · split at h
    · cases h
    · obtain ⟨p, -, h⟩ := bind_eq_ok.mp h
      obtain ⟨iovs, -, h⟩ := bind_eq_ok.mp h
      cases h
      rfl

theorem getReadBuffersAt_views_iff (hs : Shaped ba) (hr : RepInv ba) {len position : Nat}
    (hp : position ≤ ba.size) :
    Views ba position (min len (ba.size - position)) (ba.getReadBuffersAt len position) ↔
      position = ba.position ∨ (len ≤ ba.size - position ∧ len ≤ ba.getReadSize) := by
  have hpos := hr.position_le
  have hsame : min len (ba.size - position) = min len ba.getReadSize ↔
      position = ba.position ∨ (len ≤ ba.size - position ∧ len ≤ ba.getReadSize) := by
    rw [getReadSize]
    omega
  rw [← hsame]
  constructor
  · rintro ⟨iovs, hok, -⟩
    exact getReadBuffersAt_length hok
  · intro h
    rw [h]
    exact getReadBuffersAt_views hs hr (by omega)

/-- The buffers to be written to are the next `len` slots, and nothing stored has changed. -/
structure Offers (ba : ByteArray) (len : Nat) (iovs : List Iovec) (ba' : ByteArray) : Prop where
  covers : Covers ba' ba.position len iovs
  position_eq : ba'.position = ba.position
  size_eq : ba'.size = ba.size
  content_eq : ba'.content.take ba.content.length = ba.content

theorem addCapacity_content (ba : ByteArray) (n : Nat) :
    (ba.addCapacity n).content.take ba.content.length = ba.content := by
  rw [content, content, addCapacity_nodes, List.flatten_append, List.take_left]

theorem getWriteBuffers_offers_iff (hs : Shaped ba) (hr : RepInv ba) (len : Nat) :
    (∃ iovs ba', ba.getWriteBuffers len = .ok ((iovs, len), ba') ∧ Offers ba len iovs ba') ↔
      Fits ba len := by
  rcases Nat.eq_zero_or_pos len with rfl | hn
  · refine iff_of_true ⟨[], ba, rfl, covers_nil ba _, rfl, rfl, ?_⟩ (.inl (Nat.zero_le _))
    exact List.take_length
  constructor
  · rintro ⟨iovs, ba', hok, -⟩
    by_contra hf
    rw [getWriteBuffers_null hs hr hn hf] at hok
    cases hok
  · intro hf
    have hfit := (fits_iff hs hr len).mp hf
    have hs' := shaped_addCapacity hs len
    have hr' := repInv_addCapacity hs hr len
    rw [hr'.capacity_eq] at hfit
    rw [← addCapacity_position ba len] at hfit
    obtain ⟨node, hd, hlen⟩ := hr'.deref_ok hs' (by rw [hr'.capacity_eq]; omega)
    obtain ⟨iovs, hok, hcov⟩ := buffersLoop_covers hs' hn hfit
    rw [addCapacity_position] at hcov
    refine ⟨iovs, _, ?_, hcov, addCapacity_position ba len, addCapacity_size ba len,
      addCapacity_content ba len⟩
    rw [getWriteBuffers, if_neg hn.ne']
    simp only [hd, ok_bind, hlen, hok]

/-- All three: the view from the cursor is always exact, the one from a position when it is
the cursor's or nothing is clipped, the one for writing when the array can grow enough. -/
theorem views_exact_iff (hs : Shaped ba) (hr : RepInv ba) (len : Nat) :
    Views ba ba.position (min len ba.getReadSize) (ba.getReadBuffers len) ∧
    (∀ position ≤ ba.size,
      (Views ba position (min len (ba.size - position)) (ba.getReadBuffersAt len position) ↔
        position = ba.position ∨ (len ≤ ba.size - position ∧ len ≤ ba.getReadSize))) ∧
    ((∃ iovs ba', ba.getWriteBuffers len = .ok ((iovs, len), ba') ∧ Offers ba len iovs ba') ↔
      Fits ba len) := by
  refine ⟨getReadBuffers_views hs hr len, ?_, getWriteBuffers_offers_iff hs hr len⟩
  intro position hp
  exact getReadBuffersAt_views_iff hs hr hp

theorem views_exact_eight : Views (eightBytes 2) 2 6 ((eightBytes 2).getReadBuffers 10) ∧
    Views (eightBytes 2) 5 3 ((eightBytes 2).getReadBuffersAt 3 5) ∧
    ∃ iovs ba', (eightBytes 2).getWriteBuffers 6 = .ok ((iovs, 6), ba') ∧
      Offers (eightBytes 2) 6 iovs ba' := by
  have h := views_exact_iff (shaped_eightBytes 2) (repInv_eightBytes (by decide))
  refine ⟨(h 10).1, ?_, ?_⟩
  · exact ((h 3).2.1 5 (by decide)).mpr (.inr ⟨by decide, by decide⟩)
  · exact (h 6).2.2.mpr (.inl (by decide))

/-- With the cursor behind the last byte, nothing is visible from the start; with three free
bytes, a request for eight grows by one node and needs two. -/
theorem views_not_exact :
    (Shaped (eightBytes 8) ∧ RepInv (eightBytes 8) ∧
      (eightBytes 8).getReadBuffersAt 4 0 = .ok ([], 0)) ∧
    (Shaped (eightBytes 5) ∧ RepInv (eightBytes 5) ∧
      (eightBytes 5).getWriteBuffers 8 = .error .nullNode) :=
  ⟨⟨shaped_eightBytes 8, repInv_eightBytes (by decide), rfl⟩,
    ⟨shaped_eightBytes 5, repInv_eightBytes (by decide), rfl⟩⟩

end CxkFramework.ByteArray
