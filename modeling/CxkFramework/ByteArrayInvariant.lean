import CxkFramework.ByteArrayLoops

/-!
# The representation invariant of the byte array

`RepInv` is what the header's postconditions promise together: the positions are ordered,
the capacity counts the nodes and `m_cur` points at the node of `m_position`. `Shaped` is
what no operation ever breaks. Each operation gets one lemma that says when it returns and
what it leaves; a whole run keeps `RepInv` exactly when each of its `clear` and `read`
steps avoids the two defects.
-/

namespace CxkFramework.ByteArray

open Words Blocks Runs

/-- All nodes are blocks of `m_baseSize` bytes and there is a root. -/
structure Shaped (ba : ByteArray) : Prop where
  base_pos : 0 < ba.baseSize
  uniform : Uniform ba.baseSize ba.nodes
  root : ba.nodes ≠ []

structure RepInv (ba : ByteArray) : Prop where
  position_le : ba.position ≤ ba.size
  size_le : ba.size ≤ ba.capacity
  capacity_eq : ba.capacity = ba.baseSize * ba.nodes.length
  cur_null : ba.position = ba.capacity → ba.cur = none
  cur_node : ba.position ≠ ba.capacity → ba.cur = some (ba.position / ba.baseSize)

/-- The bytes of all nodes in order. -/
def content (ba : ByteArray) : List UInt8 := ba.nodes.flatten

theorem Shaped.length_content {ba : ByteArray} (hs : Shaped ba) :
    ba.content.length = ba.baseSize * ba.nodes.length := length_flatten_uniform hs.uniform

theorem Shaped.offset_lt {ba : ByteArray} (hs : Shaped ba) : ba.position % ba.baseSize < ba.baseSize :=
  Nat.mod_lt _ hs.base_pos

theorem div_lt_length {b p k : Nat} (hp : p < b * k) : p / b < k :=
  Nat.div_lt_of_lt_mul hp

/-- `RepInv` in the form the walks produce: the cursor is the pointer to one index. -/
theorem repInv_of_nodePtr {ba : ByteArray} (hs : Shaped ba) (hp : ba.position ≤ ba.size)
    (hsz : ba.size ≤ ba.capacity) (hc : ba.capacity = ba.baseSize * ba.nodes.length)
    (hcur : ba.cur = ba.nodePtr (ba.position / ba.baseSize)) : RepInv ba where
  position_le := hp
  size_le := hsz
  capacity_eq := hc
  cur_null h := by
    rw [hcur, nodePtr, h, hc, Nat.mul_div_cancel_left _ hs.base_pos, if_neg (Nat.lt_irrefl _)]
  cur_node h := by
    rw [hcur, nodePtr, if_pos (div_lt_length (by omega))]

theorem RepInv.cur_eq_nodePtr {ba : ByteArray} (hs : Shaped ba) (hr : RepInv ba) :
    ba.cur = ba.nodePtr (ba.position / ba.baseSize) := by
  by_cases h : ba.position = ba.capacity
  · rw [hr.cur_null h, nodePtr, h, hr.capacity_eq, Nat.mul_div_cancel_left _ hs.base_pos,
      if_neg (Nat.lt_irrefl _)]
  · have hle := hr.position_le.trans hr.size_le
    have hcap := hr.capacity_eq
    rw [hr.cur_node h, nodePtr, if_pos (div_lt_length (by omega))]

theorem shaped_ofBaseSize (garbage : Nat → UInt8) {b : Nat} (hb : 0 < b) :
    Shaped (ofBaseSize garbage b) where
  base_pos := hb
  uniform := by simp [ofBaseSize, newNode]
  root := by simp [ofBaseSize]

theorem repInv_ofBaseSize (garbage : Nat → UInt8) {b : Nat} (hb : 0 < b) :
    RepInv (ofBaseSize garbage b) where
  position_le := Nat.le_refl 0
  size_le := Nat.zero_le b
  capacity_eq := (Nat.mul_one b).symm
  cur_null h := absurd h.symm hb.ne'
  cur_node _ := by simp [ofBaseSize]

/-! ## Dereferencing `m_cur` -/

theorem deref_null {ba : ByteArray} (h : ba.cur = none) : ba.deref = .error .nullNode := by
  rw [deref, h]

theorem deref_nodePtr {ba : ByteArray} {i : Nat} (h : ba.cur = ba.nodePtr i)
    (hi : i < ba.nodes.length) : ba.deref = .ok (i, ba.nodes[i]) := by
  rw [deref, h, nodePtr, if_pos hi]
  simp only [List.getElem?_eq_getElem hi]

theorem deref_nodePtr_null {ba : ByteArray} {i : Nat} (h : ba.cur = ba.nodePtr i)
    (hi : ¬i < ba.nodes.length) : ba.deref = .error .nullNode :=
  deref_null (by rw [h, nodePtr, if_neg hi])

theorem Shaped.length_node {ba : ByteArray} (hs : Shaped ba) {i : Nat} (hi : i < ba.nodes.length) :
    (ba.nodes[i]).length = ba.baseSize := hs.uniform _ (List.getElem_mem hi)

/-! ## addCapacity -/

/-- The number of nodes `addCapacity` decides on. -/
def growth (ba : ByteArray) (n : Nat) : Nat :=
  if n ≤ ba.getCapacity then 0
  else (n - ba.getCapacity) / ba.baseSize +
    (if (n - ba.getCapacity) % ba.baseSize > ba.getCapacity then 1 else 0)

theorem uniform_appended (ba : ByteArray) (count : Nat) : Uniform ba.baseSize (ba.appended count) := by
  intro node hnode
  obtain ⟨i, -, rfl⟩ := List.mem_map.mp hnode
  simp [newNode]

theorem growth_of_le {ba : ByteArray} {n : Nat} (h : n ≤ ba.getCapacity) : ba.growth n = 0 := by
  rw [growth, if_pos h]

theorem addCapacity_of_le {ba : ByteArray} {n : Nat} (h : n ≤ ba.getCapacity) :
    ba.addCapacity n = ba := by
  rw [addCapacity]
  split
  · rfl
  · exact if_pos h

/-- Everything `addCapacity` changes. -/
theorem addCapacity_eq (ba : ByteArray) (n : Nat) :
    ba.addCapacity n = { ba with
      nodes := ba.nodes ++ ba.appended (ba.growth n)
      capacity := ba.capacity + ba.growth n * ba.baseSize
      cur := if n ≤ ba.getCapacity ∨ 0 < ba.getCapacity then ba.cur
        else if ba.growth n = 0 then none else some ba.nodes.length } := by
  by_cases hle : n ≤ ba.getCapacity
  · rw [addCapacity_of_le hle, growth_of_le hle, if_pos (.inl hle)]
    simp [appended]
  · simp only [addCapacity, growth, ge_iff_le, hle, if_false, false_or, if_neg (show ¬n = 0 by omega)]
    congr 1
    by_cases hz : ba.getCapacity = 0
    · simp only [hz, if_true, Nat.lt_irrefl, if_false]
    · simp only [hz, if_false, Nat.pos_of_ne_zero hz, if_true]

theorem addCapacity_nodes (ba : ByteArray) (n : Nat) :
    (ba.addCapacity n).nodes = ba.nodes ++ ba.appended (ba.growth n) := by rw [addCapacity_eq]

theorem addCapacity_capacity (ba : ByteArray) (n : Nat) :
    (ba.addCapacity n).capacity = ba.capacity + ba.growth n * ba.baseSize := by rw [addCapacity_eq]

theorem addCapacity_cur (ba : ByteArray) (n : Nat) : (ba.addCapacity n).cur =
      if n ≤ ba.getCapacity ∨ 0 < ba.getCapacity then ba.cur
      else if ba.growth n = 0 then none else some ba.nodes.length := by rw [addCapacity_eq]

@[simp] theorem addCapacity_position (ba : ByteArray) (n : Nat) :
    (ba.addCapacity n).position = ba.position := by rw [addCapacity_eq]
@[simp] theorem addCapacity_size (ba : ByteArray) (n : Nat) :
    (ba.addCapacity n).size = ba.size := by rw [addCapacity_eq]
@[simp] theorem addCapacity_baseSize (ba : ByteArray) (n : Nat) :
    (ba.addCapacity n).baseSize = ba.baseSize := by rw [addCapacity_eq]
@[simp] theorem addCapacity_endian (ba : ByteArray) (n : Nat) :
    (ba.addCapacity n).endian = ba.endian := by rw [addCapacity_eq]
@[simp] theorem addCapacity_garbage (ba : ByteArray) (n : Nat) :
    (ba.addCapacity n).garbage = ba.garbage := by rw [addCapacity_eq]

/-- Without any free byte, a request for more always adds a node. -/
theorem growth_pos {ba : ByteArray} (hs : Shaped ba) {n : Nat} (hn : 0 < n)
    (hz : ba.getCapacity = 0) : 0 < ba.growth n := by
  rw [growth, hz, if_neg (by omega), Nat.sub_zero]
  rcases Nat.eq_zero_or_pos (n % ba.baseSize) with hm | hm
  · have hle : ba.baseSize ≤ n := Nat.le_of_dvd hn (Nat.dvd_of_mod_eq_zero hm)
    have := Nat.div_pos hle hs.base_pos
    omega
  · rw [if_pos hm]
    exact Nat.succ_pos _

theorem shaped_addCapacity {ba : ByteArray} (hs : Shaped ba) (n : Nat) :
    Shaped (ba.addCapacity n) where
  base_pos := by simpa using hs.base_pos
  uniform := by
    rw [addCapacity_baseSize, addCapacity_nodes]
    exact uniform_append.mpr ⟨hs.uniform, uniform_appended ba _⟩
  root := by
    rw [addCapacity_nodes]
    simp [hs.root]

theorem repInv_addCapacity {ba : ByteArray} (hs : Shaped ba) (hr : RepInv ba) (n : Nat) :
    RepInv (ba.addCapacity n) := by
  have hcap := hr.capacity_eq
  have hlen : (ba.addCapacity n).nodes.length = ba.nodes.length + ba.growth n := by
    rw [addCapacity_nodes, List.length_append, appended, List.length_map, List.length_range]
  apply repInv_of_nodePtr (shaped_addCapacity hs n)
  · simpa using hr.position_le
  · rw [addCapacity_size, addCapacity_capacity]
    exact hr.size_le.trans (Nat.le_add_right _ _)
  · rw [addCapacity_capacity, addCapacity_baseSize, hlen, hcap]
    ring
  · rw [addCapacity_cur, nodePtr, hlen, addCapacity_position, addCapacity_baseSize]
    have hle := hr.position_le.trans hr.size_le
    by_cases hfree : ba.getCapacity = 0
    · have hpos : ba.position = ba.capacity := by rw [getCapacity] at hfree; omega
      have hdiv : ba.position / ba.baseSize = ba.nodes.length := by
        rw [hpos, hcap, Nat.mul_div_cancel_left _ hs.base_pos]
      rcases Nat.eq_zero_or_pos n with rfl | hn
      · rw [if_pos (by omega), hr.cur_null hpos, hdiv, growth_of_le (Nat.zero_le _), if_neg (by omega)]
      · have hg := growth_pos hs hn hfree
        rw [if_neg (by omega), if_neg (by omega), hdiv, if_pos (by omega)]
    · have hlt : ba.position / ba.baseSize < ba.nodes.length :=
        div_lt_length (by rw [getCapacity] at hfree; omega)
      rw [if_pos (by omega), hr.cur_node (by rw [getCapacity] at hfree; omega), if_pos (by omega)]

/-- Whether `n` more bytes can be stored: they fit already, or the shortage fills whole
nodes, or its remainder exceeds the free bytes `addCapacity` compares it with. -/
def Fits (ba : ByteArray) (n : Nat) : Prop :=
  n ≤ ba.getCapacity ∨ (n - ba.getCapacity) % ba.baseSize = 0 ∨
    ba.getCapacity < (n - ba.getCapacity) % ba.baseSize

theorem fits_iff {ba : ByteArray} (hs : Shaped ba) (hr : RepInv ba) (n : Nat) :
    Fits ba n ↔ ba.position + n ≤ (ba.addCapacity n).capacity := by
  have hle := hr.position_le.trans hr.size_le
  have hfree : ba.capacity = ba.position + ba.getCapacity := by rw [getCapacity]; omega
  rw [addCapacity_capacity, hfree, growth, Fits]
  by_cases hin : n ≤ ba.getCapacity
  · simp only [hin, if_true, true_or, true_iff]
    omega
  · have hdm := Nat.div_add_mod (n - ba.getCapacity) ba.baseSize
    have hlt := Nat.mod_lt (n - ba.getCapacity) hs.base_pos
    rw [if_neg hin, Nat.add_mul, Nat.mul_comm ((n - ba.getCapacity) / ba.baseSize)]
    generalize ba.baseSize * ((n - ba.getCapacity) / ba.baseSize) = q at *
    split
    · next h => rw [Nat.one_mul]; omega
    · next h => rw [Nat.zero_mul]; omega

/-! ## write -/

/-- What storing bytes at the current position leaves behind. -/
structure Stored (ba : ByteArray) (buf : List UInt8) (ba' : ByteArray) : Prop where
  shaped : Shaped ba'
  repInv : RepInv ba'
  baseSize_eq : ba'.baseSize = ba.baseSize
  endian_eq : ba'.endian = ba.endian
  garbage_eq : ba'.garbage = ba.garbage
  position_eq : ba'.position = ba.position + buf.length
  size_eq : ba'.size = max ba.size (ba.position + buf.length)
  capacity_eq : ba'.capacity = ba.capacity
  content_eq : ba'.content = overwrite ba.content ba.position buf

/-- The position as node index and offset, walked on by `n`. -/
theorem div_add_div {b : Nat} (hb : 0 < b) (p n : Nat) : p / b + (p % b + n) / b = (p + n) / b := by
  have hp := Nat.div_add_mod p b
  have hsum : p + n = p % b + n + b * (p / b) := by omega
  rw [hsum, Nat.add_mul_div_left _ _ hb, Nat.add_comm]

/-- The capacity left from a node on. -/
theorem mul_length_drop {b i : Nat} {ns : List Node} (hi : i ≤ ns.length) :
    b * (ns.drop i).length + b * i = b * ns.length := by
  rw [List.length_drop, ← Nat.mul_add, Nat.sub_add_cancel hi]

theorem store_ok {ba : ByteArray} (hs : Shaped ba) (hr : RepInv ba) {buf : List UInt8}
    (hd : buf ≠ []) (hfit : ba.position + buf.length ≤ ba.capacity) :
    ∃ ba', ba.store buf = .ok ba' ∧ Stored ba buf ba' := by
  have hlen := List.length_pos_iff.mpr hd
  have hcap := hr.capacity_eq
  have hcur := hr.cur_eq_nodePtr hs
  have hdm := Nat.div_add_mod ba.position ba.baseSize
  have hi : ba.position / ba.baseSize < ba.nodes.length := div_lt_length (by omega)
  have hhops := div_add_div hs.base_pos ba.position buf.length
  have hoff := hs.offset_lt
  have hrest := mul_length_drop (b := ba.baseSize) hi.le
  generalize ba.position / ba.baseSize = i at *
  generalize ho : ba.position % ba.baseSize = npos at *
  obtain ⟨ns, hok, hu', hl', hf'⟩ := writeLoop_ok (hs.uniform.drop i) hoff hd (by omega)
  have hnodes : (ba.nodes.take i ++ ns).length = ba.nodes.length := by
    rw [List.length_append, List.length_take, hl', List.length_drop]
    omega
  have hcontent : (ba.nodes.take i ++ ns).flatten = overwrite ba.content ba.position buf := by
    have htake : (ba.nodes.take i).flatten.length = ba.baseSize * i := by
      rw [length_flatten_uniform (hs.uniform.take i), List.length_take, min_eq_left hi.le]
    rw [List.flatten_append, hf', ← overwrite_append_right, htake, ← List.flatten_append,
      List.take_append_drop, hdm, content]
  refine ⟨{ ba with
    nodes := ba.nodes.take i ++ ns
    cur := ba.nodePtr ((ba.position + buf.length) / ba.baseSize)
    position := ba.position + buf.length
    size := if ba.position + buf.length > ba.size then ba.position + buf.length else ba.size },
    ?_, ?_⟩
  · simp only [store, ho, deref_nodePtr hcur hi, ok_bind, hs.length_node hi, hok, hhops]
  · have hs' : Shaped { ba with
        nodes := ba.nodes.take i ++ ns
        cur := ba.nodePtr ((ba.position + buf.length) / ba.baseSize)
        position := ba.position + buf.length
        size := if ba.position + buf.length > ba.size then ba.position + buf.length else ba.size } :=
      ⟨hs.base_pos, uniform_append.mpr ⟨hs.uniform.take i, hu'⟩,
        List.length_pos_iff.mp (hnodes.symm ▸ Nat.zero_lt_of_lt hi)⟩
    have hsize := hr.size_le
    refine ⟨hs', ?_, rfl, rfl, rfl, rfl, ?_, rfl, hcontent⟩
    · apply repInv_of_nodePtr hs'
      · dsimp only
        split <;> omega
      · dsimp only
        split <;> omega
      · dsimp only
        rw [hnodes, hcap]
      · simp only [nodePtr, hnodes]
    · dsimp only
      split <;> omega

theorem store_null {ba : ByteArray} (hs : Shaped ba) (hr : RepInv ba) {buf : List UInt8}
    (hd : buf ≠ []) (hfit : ba.capacity < ba.position + buf.length) :
    ba.store buf = .error .nullNode := by
  have hcap := hr.capacity_eq
  have hle := hr.position_le.trans hr.size_le
  by_cases hend : ba.position = ba.capacity
  · rw [store, deref_null (hr.cur_null hend), error_bind]
  · have hcur := hr.cur_eq_nodePtr hs
    have hdm := Nat.div_add_mod ba.position ba.baseSize
    have hi : ba.position / ba.baseSize < ba.nodes.length := div_lt_length (by omega)
    have hrest := mul_length_drop (b := ba.baseSize) hi.le
    have hnull := writeLoop_null (hs.uniform.drop (ba.position / ba.baseSize)) hs.offset_lt hd
      (by omega)
    simp only [store, deref_nodePtr hcur hi, ok_bind, hs.length_node hi, hnull, error_bind]

theorem write_ok {ba : ByteArray} (hs : Shaped ba) (hr : RepInv ba) {buf : List UInt8}
    (hd : buf ≠ []) (hf : Fits ba buf.length) :
    ∃ ba', ba.write buf = .ok ba' ∧ Stored (ba.addCapacity buf.length) buf ba' := by
  have hfit := (fits_iff hs hr buf.length).mp hf
  rw [← addCapacity_position ba buf.length] at hfit
  obtain ⟨ba', hok, hst⟩ := store_ok (shaped_addCapacity hs _) (repInv_addCapacity hs hr _) hd hfit
  exact ⟨ba', by rw [write, if_neg (by simpa using hd), hok], hst⟩

theorem write_null {ba : ByteArray} (hs : Shaped ba) (hr : RepInv ba) {buf : List UInt8}
    (hd : buf ≠ []) (hf : ¬Fits ba buf.length) : ba.write buf = .error .nullNode := by
  rw [fits_iff hs hr, Nat.not_le, ← addCapacity_position ba buf.length] at hf
  rw [write, if_neg (by simpa using hd),
    store_null (shaped_addCapacity hs _) (repInv_addCapacity hs hr _) hd hf]

/-! ## read -/

/-- The bytes `read` collects when the cursor is on node `i`. -/
structure Walked (ba : ByteArray) (i n : Nat) (bytes : List UInt8) : Prop where
  length_eq : bytes.length = n
  getElem?_eq : ∀ j < n, bytes[j]? =
    ba.content[ba.baseSize * i + staleOffset ba.baseSize (ba.position % ba.baseSize) j]?

/-- `ba` after a `read` of `n` bytes that passed the given number of nodes from node `i` on. -/
def advanced (ba : ByteArray) (i hops n : Nat) : ByteArray :=
  { ba with cur := ba.nodePtr (i + hops), position := ba.position + n }

theorem shaped_advanced {ba : ByteArray} (hs : Shaped ba) (i hops n : Nat) :
    Shaped (ba.advanced i hops n) := ⟨hs.base_pos, hs.uniform, hs.root⟩

theorem read_none {ba : ByteArray} {i : Nat} (hcur : ba.cur = ba.nodePtr i)
    (hi : i < ba.nodes.length) : ba.read 0 = .ok ([], ba.advanced i 0 0) := by
  rw [read, if_neg (by omega), deref_nodePtr hcur hi]
  simp only [ok_bind, readLoop_zero, advanced]

theorem read_ok {ba : ByteArray} (hs : Shaped ba) {i : Nat} (hcur : ba.cur = ba.nodePtr i)
    {n : Nat} (hn : 0 < n) (hle : n ≤ ba.getReadSize)
    (hfit : n ≤ (ba.baseSize - ba.position % ba.baseSize) * (ba.nodes.length - i)) :
    ∃ bytes, ba.read n = .ok (bytes,
        ba.advanced i (readHops ba.baseSize (ba.position % ba.baseSize) n) n) ∧
      Walked ba i n bytes := by
  have hi : i < ba.nodes.length := by
    have := Nat.pos_of_mul_pos_left (Nat.lt_of_lt_of_le hn hfit)
    omega
  rw [← List.length_drop] at hfit
  obtain ⟨bytes, hok, hlen, hbytes⟩ := readLoop_ok (hs.uniform.drop i) hs.offset_lt hn hfit
  refine ⟨bytes, ?_, hlen, ?_⟩
  · rw [read, if_neg (by omega), deref_nodePtr hcur hi]
    simp only [ok_bind, hs.length_node hi, hok, advanced]
  · intro j hj
    rw [hbytes j hj, flatten_drop_uniform hs.uniform, List.getElem?_drop, content]

theorem read_null {ba : ByteArray} (hs : Shaped ba) {i : Nat} (hcur : ba.cur = ba.nodePtr i)
    {n : Nat} (hn : 0 < n) (hle : n ≤ ba.getReadSize)
    (hfit : (ba.baseSize - ba.position % ba.baseSize) * (ba.nodes.length - i) < n) :
    ba.read n = .error .nullNode := by
  rw [read, if_neg (by omega)]
  by_cases hi : i < ba.nodes.length
  · rw [← List.length_drop] at hfit
    rw [deref_nodePtr hcur hi]
    simp only [ok_bind, hs.length_node hi, readLoop_null hn hfit, error_bind]
  · rw [deref_nodePtr_null hcur hi, error_bind]

/-- Everything known after a `read` that returned. -/
theorem read_inv {ba ba' : ByteArray} (hs : Shaped ba) {i : Nat} (hcur : ba.cur = ba.nodePtr i)
    {n : Nat} {bytes : List UInt8} (h : ba.read n = .ok (bytes, ba')) :
    n ≤ ba.getReadSize ∧ i < ba.nodes.length ∧
      n ≤ (ba.baseSize - ba.position % ba.baseSize) * (ba.nodes.length - i) ∧
      Walked ba i n bytes ∧
      ba' = ba.advanced i (readHops ba.baseSize (ba.position % ba.baseSize) n) n := by
  have hle : n ≤ ba.getReadSize := by
    by_contra hgt
    rw [read, if_pos (by omega)] at h
    cases h
  have hi : i < ba.nodes.length := by
    by_contra hge
    rw [read, if_neg (by omega), deref_nodePtr_null hcur hge, error_bind] at h
    cases h
  rcases Nat.eq_zero_or_pos n with rfl | hn
  · rw [read_none hcur hi] at h
    cases h
    refine ⟨hle, hi, Nat.zero_le _, ⟨rfl, fun j hj => absurd hj (Nat.not_lt_zero j)⟩, ?_⟩
    rw [readHops, if_pos (Nat.zero_le _), Nat.add_zero, Nat.div_eq_of_lt hs.offset_lt]
  · have hfit : n ≤ (ba.baseSize - ba.position % ba.baseSize) * (ba.nodes.length - i) := by
      by_contra hgt
      rw [read_null hs hcur hn hle (by omega)] at h
      cases h
    obtain ⟨bytes', hok, hw⟩ := read_ok hs hcur hn hle hfit
    rw [hok] at h
    cases h
    exact ⟨hle, hi, hfit, hw, rfl⟩

theorem nodePtr_inj {ba : ByteArray} {i j : Nat} (hi : i ≤ ba.nodes.length)
    (hj : j ≤ ba.nodes.length) : ba.nodePtr i = ba.nodePtr j ↔ i = j := by
  rw [nodePtr, nodePtr]
  split <;> split <;> simp <;> omega

/-- Whether the stale `ncap` leaves the cursor of a `read` on the right node: it starts at
a node boundary, or stays in its node, or takes as many pieces as it should pass nodes. -/
def ReadKeeps (ba : ByteArray) (n : Nat) : Prop :=
  ba.position % ba.baseSize = 0 ∨ n ≤ ba.baseSize - ba.position % ba.baseSize ∨
    (n - (ba.baseSize - ba.position % ba.baseSize) - 1) /
        (ba.baseSize - ba.position % ba.baseSize) =
      (n - (ba.baseSize - ba.position % ba.baseSize)) / ba.baseSize

theorem repInv_advanced_iff {ba : ByteArray} (hs : Shaped ba) (hr : RepInv ba) {hops n : Nat}
    (hle : n ≤ ba.getReadSize) (hi : ba.position / ba.baseSize + hops ≤ ba.nodes.length) :
    RepInv (ba.advanced (ba.position / ba.baseSize) hops n) ↔
      hops = (ba.position % ba.baseSize + n) / ba.baseSize := by
  have hcap := hr.capacity_eq
  have hsize := hr.size_le
  have hpos : ba.position + n ≤ ba.size := by
    have := hr.position_le
    rw [getReadSize] at hle
    omega
  have hnew := div_add_div hs.base_pos ba.position n
  have hle' : (ba.position + n) / ba.baseSize ≤ ba.nodes.length :=
    Nat.div_le_of_le_mul (by omega)
  constructor
  · intro h
    have hcur := h.cur_eq_nodePtr (shaped_advanced hs _ _ _)
    have := (nodePtr_inj hi hle').mp hcur
    omega
  · intro h
    refine repInv_of_nodePtr (shaped_advanced hs _ _ _) hpos hsize hcap ?_
    simp only [advanced, nodePtr, h, hnew]

theorem read_keeps_iff {ba ba' : ByteArray} (hs : Shaped ba) (hr : RepInv ba) {n : Nat}
    {bytes : List UInt8} (h : ba.read n = .ok (bytes, ba')) :
    Shaped ba' ∧ (RepInv ba' ↔ ReadKeeps ba n) := by
  obtain ⟨hle, hi, hfit, -, rfl⟩ := read_inv hs (hr.cur_eq_nodePtr hs) h
  have hhops := readHops_le hs.offset_lt (by omega) hfit
  refine ⟨shaped_advanced hs _ _ _, ?_⟩
  rw [repInv_advanced_iff hs hr hle (by omega), readHops_eq_iff hs.offset_lt, ReadKeeps]

/-! ## setPosition and clear -/

theorem setPosition_ok {ba : ByteArray} (hs : Shaped ba) (hr : RepInv ba) {v : Nat}
    (hv : v ≤ ba.capacity) : ba.setPosition v = .ok { ba with
      position := v
      size := max ba.size v
      cur := ba.nodePtr (v / ba.baseSize) } := by
  have hcap := hr.capacity_eq
  have hmax : (if v > ba.size then v else ba.size) = max ba.size v := by
    split <;> omega
  rw [setPosition, if_neg (by omega), seekLoop_ok hs.base_pos hs.uniform hs.root (by omega), ok_bind,
    hmax]

theorem setPosition_keeps {ba ba' : ByteArray} (hs : Shaped ba) (hr : RepInv ba) {v : Nat}
    (h : ba.setPosition v = .ok ba') : Shaped ba' ∧ RepInv ba' := by
  have hv : v ≤ ba.capacity := by
    by_contra hgt
    rw [setPosition, if_pos (by omega)] at h
    cases h
  rw [setPosition_ok hs hr hv] at h
  cases h
  have hs' : Shaped { ba with
      position := v, size := max ba.size v, cur := ba.nodePtr (v / ba.baseSize) } :=
    ⟨hs.base_pos, hs.uniform, hs.root⟩
  exact ⟨hs', repInv_of_nodePtr hs' (le_max_right _ _) (max_le hr.size_le hv) hr.capacity_eq rfl⟩

/-- `clear` cuts the chain back to its root but forgets `m_size`. -/
theorem clear_keeps_iff {ba : ByteArray} (hs : Shaped ba) :
    Shaped ba.clear ∧ (RepInv ba.clear ↔ ba.size ≤ ba.baseSize) := by
  have hroot : (ba.nodes.take 1).length = 1 := by
    have := List.length_pos_iff.mpr hs.root
    rw [List.length_take]
    omega
  have hs' : Shaped ba.clear :=
    ⟨hs.base_pos, hs.uniform.take 1, List.length_pos_iff.mp (hroot.symm ▸ Nat.one_pos)⟩
  refine ⟨hs', fun h => h.size_le, fun h => ?_⟩
  apply repInv_of_nodePtr hs' (Nat.zero_le _) h
  · simp only [clear, hroot, Nat.mul_one]
  · simp only [clear, nodePtr, hroot, Nat.zero_div, Nat.one_pos, if_true]

/-! ## Runs of calls -/

/-- The calls a user of the array makes. -/
inductive Call where
  | write (buf : List UInt8)
  | read (size : Nat)
  | readAt (size position : Nat)
  | setPosition (v : Nat)
  | clear
  | getReadBuffers (len : Nat)
  | getReadBuffersAt (len position : Nat)
  | getWriteBuffers (len : Nat)
  deriving DecidableEq, Repr

/-- The array after a call that returned. -/
def call (ba : ByteArray) : Call → Except Fault ByteArray
  | .write buf => ba.write buf
  | .read size => do
    let (_, ba') ← ba.read size
    .ok ba'
  | .readAt size position => do
    let _ ← ba.readAt size position
    .ok ba
  | .setPosition v => ba.setPosition v
  | .clear => .ok ba.clear
  | .getReadBuffers len => do
    let _ ← ba.getReadBuffers len
    .ok ba
  | .getReadBuffersAt len position => do
    let _ ← ba.getReadBuffersAt len position
    .ok ba
  | .getWriteBuffers len => do
    let (_, ba') ← ba.getWriteBuffers len
    .ok ba'

/-- Calls that throw change nothing; one that follows a null pointer has no next state. -/
def Step (ba : ByteArray) (c : Call) (ba' : ByteArray) : Prop := ba.call c = .ok ba'

/-- The calls that leave the invariant intact. -/
def Keeps (ba : ByteArray) : Call → Prop
  | .read size => ReadKeeps ba size
  | .clear => ba.size ≤ ba.baseSize
  | _ => True

theorem write_keeps {ba ba' : ByteArray} (hs : Shaped ba) (hr : RepInv ba) {buf : List UInt8}
    (h : ba.write buf = .ok ba') : Shaped ba' ∧ RepInv ba' := by
  by_cases hd : buf = []
  · subst hd
    rw [write, if_pos List.length_nil] at h
    cases h
    exact ⟨hs, hr⟩
  · by_cases hf : Fits ba buf.length
    · obtain ⟨ba'', hok, hst⟩ := write_ok hs hr hd hf
      rw [hok] at h
      cases h
      exact ⟨hst.shaped, hst.repInv⟩
    · rw [write_null hs hr hd hf] at h
      cases h

theorem getWriteBuffers_keeps {ba ba' : ByteArray} (hs : Shaped ba) (hr : RepInv ba) {len : Nat}
    {out : List Iovec × Nat} (h : ba.getWriteBuffers len = .ok (out, ba')) :
    Shaped ba' ∧ RepInv ba' := by
  rw [getWriteBuffers] at h
  split at h
  · cases h
    exact ⟨hs, hr⟩
  · obtain ⟨⟨i, node⟩, -, h⟩ := bind_eq_ok.mp h
    obtain ⟨iovs, -, h⟩ := bind_eq_ok.mp h
    cases h
    exact ⟨shaped_addCapacity hs len, repInv_addCapacity hs hr len⟩

/-- What one call does to the invariant, exactly. -/
theorem step_keeps_iff {ba ba' : ByteArray} {c : Call} (hs : Shaped ba) (hr : RepInv ba)
    (h : Step ba c ba') : Shaped ba' ∧ (RepInv ba' ↔ Keeps ba c) := by
  cases c with
  | write buf =>
    obtain ⟨hs', hr'⟩ := write_keeps hs hr h
    exact ⟨hs', iff_of_true hr' trivial⟩
  | read size =>
    obtain ⟨⟨bytes, ba''⟩, hread, h⟩ := bind_eq_ok.mp h
    cases h
    exact read_keeps_iff hs hr hread
  | readAt size position =>
    obtain ⟨bytes, -, h⟩ := bind_eq_ok.mp h
    cases h
    exact ⟨hs, iff_of_true hr trivial⟩
  | setPosition v =>
    obtain ⟨hs', hr'⟩ := setPosition_keeps hs hr h
    exact ⟨hs', iff_of_true hr' trivial⟩
  | clear =>
    cases h
    exact clear_keeps_iff hs
  | getReadBuffers len =>
    obtain ⟨out, -, h⟩ := bind_eq_ok.mp h
    cases h
    exact ⟨hs, iff_of_true hr trivial⟩
  | getReadBuffersAt len position =>
    obtain ⟨out, -, h⟩ := bind_eq_ok.mp h
    cases h
    exact ⟨hs, iff_of_true hr trivial⟩
  | getWriteBuffers len =>
    obtain ⟨⟨out, ba''⟩, hbuf, h⟩ := bind_eq_ok.mp h
    cases h
    obtain ⟨hs', hr'⟩ := getWriteBuffers_keeps hs hr hbuf
    exact ⟨hs', iff_of_true hr' trivial⟩

/-- Along every run from a fresh array the invariant holds throughout exactly when no
`clear` meets more than one node of data and no `read` moves the cursor too far. -/
theorem run_repInv_iff (garbage : Nat → UInt8) {base : Nat} (hbase : 1 ≤ base)
    {t : List (Call × ByteArray)} (run : Run Step (ofBaseSize garbage base) t) :
    Always RepInv (ofBaseSize garbage base) t ↔ Meets Keeps (ofBaseSize garbage base) t :=
  always_iff_meets Shaped RepInv Keeps
    (fun _ _ _ hs hr h => (step_keeps_iff hs hr h).1)
    (fun _ _ _ hs hr h => (step_keeps_iff hs hr h).2) run
    (shaped_ofBaseSize garbage hbase) (repInv_ofBaseSize garbage hbase)

/-- A run that crosses a node boundary, goes back and reads within the first node. -/
theorem run_repInv_six_bytes : ∃ t,
    Run Step (ofBaseSize (fun _ => 0) 2) t ∧ t.length = 3 ∧
      Always RepInv (ofBaseSize (fun _ => 0) 2) t := by
  have run : Run Step (ofBaseSize (fun _ => 0) 2) _ :=
    run_of_trace [.write [1, 2, 3, 4, 5, 6], .setPosition 1, .read 1] rfl
  refine ⟨_, run, rfl, (run_repInv_iff (fun _ => 0) (by decide) run).mpr ?_⟩
  exact ⟨trivial, trivial, .inr (.inl (by decide)), trivial⟩

/-- Eight bytes into nodes of four, then `clear`: `m_size` stays at eight. -/
theorem run_clear_breaks_repInv : ∃ t,
    Run Step (ofBaseSize (fun _ => 0) 4) t ∧ ¬Always RepInv (ofBaseSize (fun _ => 0) 4) t := by
  have run : Run Step (ofBaseSize (fun _ => 0) 4) _ :=
    run_of_trace [.write [1, 2, 3, 4, 5, 6, 7, 8], .clear] rfl
  refine ⟨_, run, fun h => ?_⟩
  have hle := (h.2 _ (List.mem_cons_of_mem _ (List.mem_singleton.mpr rfl))).size_le
  exact absurd hle (by decide)

end CxkFramework.ByteArray
