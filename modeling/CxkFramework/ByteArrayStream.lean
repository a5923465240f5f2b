import CxkFramework.ByteArrayChunks
import CxkFramework.Stream

/-!
# Byte arrays on a stream

The overloads of `Stream` and `SocketStream` that move bytes between a stream and a byte
array without copying: the array hands out the buffers of its nodes, `sendmsg` and
`recvmsg` gather from and scatter into them, and `setPosition` moves past what went through.
An exception does not take back what the stream did before it, so the stream stands beside
the result.
-/

namespace CxkFramework

open Words Blocks Runs

namespace ByteArray

/-- What the buffers hold, one after the other. -/
def gather (nodes : List Node) (iovs : List Iovec) : List (List UInt8) :=
  iovs.map (fun iov => slice (nodes[iov.node]?.getD []) iov.offset iov.len)

/-- Fill the buffers one after the other. -/
def scatter : List Node → List Iovec → List UInt8 → List Node
  | nodes, [], _ => nodes
  | nodes, iov :: iovs, bytes =>
    scatter (nodes.modify iov.node (fun node => overwrite node iov.offset (bytes.take iov.len)))
      iovs (bytes.drop iov.len)

/-- How much `recvmsg` may store. -/
def room (iovs : List Iovec) : Nat := (iovs.map Iovec.len).sum

end ByteArray

namespace Stream

open CxkFramework.ByteArray

/-- `SocketStream::read` into a byte array. -/
def readByteArray (s : Stream) (ba : ByteArray) (length : Nat) :
    Except Fault (Int × ByteArray) × Stream :=
  if s.closed then (.ok (-1, ba), s)
  else
    match ba.getWriteBuffers length with
    | .error e => (.error e, s)
    | .ok ((iovs, _), ba) =>
      let (rt, bytes, s) := s.read (room iovs)
      let ba := { ba with nodes := scatter ba.nodes iovs bytes }
      if rt > 0 then
        match ba.setPosition (ba.position + rt.toNat) with
        | .error e => (.error e, s)
        | .ok ba => (.ok (rt, ba), s)
      else (.ok (rt, ba), s)

/-- `SocketStream::write` out of a byte array. -/
def writeByteArray (s : Stream) (ba : ByteArray) (length : Nat) :
    Except Fault (Int × ByteArray) × Stream :=
  if s.closed then (.ok (-1, ba), s)
  else
    match ba.getReadBuffers length with
    | .error e => (.error e, s)
    | .ok (iovs, _) =>
      let (rt, s) := s.write (gather ba.nodes iovs).flatten
      if rt > 0 then
        match ba.setPosition (ba.position + rt.toNat) with
        | .error e => (.error e, s)
        | .ok ba => (.ok (rt, ba), s)
      else (.ok (rt, ba), s)

/-- The loop the two `FixSize` functions for byte arrays share: the result that ended it
early, if one did. A round that goes on has moved a byte, so `left` rounds are enough. -/
def fixSizeLoop (move : Stream → ByteArray → Nat → Except Fault (Int × ByteArray) × Stream) :
    Nat → Stream → ByteArray → Nat → Except Fault (Option Int × ByteArray) × Stream
  | 0, s, ba, _ => (.ok (none, ba), s)
  | rounds + 1, s, ba, left =>
    if left = 0 then (.ok (none, ba), s)
    else
      match move s ba left with
      | (.error e, s) => (.error e, s)
      | (.ok (len, ba), s) =>
        if len ≤ 0 then (.ok (some len, ba), s)
        else fixSizeLoop move rounds s ba (left - len.toNat)

/-- The result of the loop for the given length. `left` is an `int64_t`: from `2 ^ 63` on it
is negative and nothing is moved. -/
def fixSize (move : Stream → ByteArray → Nat → Except Fault (Int × ByteArray) × Stream)
    (s : Stream) (ba : ByteArray) (length : Nat) : Except Fault (Int × ByteArray) × Stream :=
  let left := if length < 2 ^ 63 then length else 0
  match fixSizeLoop move left s ba left with
  | (.error e, s) => (.error e, s)
  | (.ok (some len, ba), s) => (.ok (toInt len, ba), s)
  | (.ok (none, ba), s) => (.ok (toInt length, ba), s)

def readFixSizeByteArray (s : Stream) (ba : ByteArray) (length : Nat) :=
  fixSize readByteArray s ba length

def writeFixSizeByteArray (s : Stream) (ba : ByteArray) (length : Nat) :=
  fixSize writeByteArray s ba length

end Stream

namespace ByteArray

/-! ## The buffers of a chain -/

theorem buffersLoop_within (node : Node) (rest : List Node) (idx npos ncap : Nat) {n : Nat}
    (hn : 0 < n) (h : n ≤ ncap) :
    buffersLoop (node :: rest) idx npos ncap n = .ok [⟨idx, npos, n⟩] := by
  obtain ⟨k, rfl⟩ := Nat.exists_eq_add_of_lt hn
  rw [Nat.zero_add] at h ⊢
  cases rest <;> rw [buffersLoop, if_pos h]

theorem buffersLoop_last (node : Node) (idx npos ncap : Nat) {n : Nat} (h : ncap < n) :
    buffersLoop [node] idx npos ncap n = .error .nullNode := by
  obtain ⟨k, rfl⟩ := Nat.exists_eq_add_of_lt (Nat.zero_lt_of_lt h)
  rw [Nat.zero_add] at h ⊢
  rw [buffersLoop, if_neg (by omega)]

theorem buffersLoop_next (node next : Node) (rest : List Node) (idx npos ncap : Nat) {n : Nat}
    (h : ncap < n) :
    buffersLoop (node :: next :: rest) idx npos ncap n = (do
      let iovs ← buffersLoop (next :: rest) (idx + 1) 0 next.length (n - ncap)
      .ok (⟨idx, npos, ncap⟩ :: iovs)) := by
  obtain ⟨k, rfl⟩ := Nat.exists_eq_add_of_lt (Nat.zero_lt_of_lt h)
  rw [Nat.zero_add] at h ⊢
  rw [buffersLoop, if_neg (by omega)]

theorem overwrite_nil {α : Type*} (xs : List α) (p : Nat) : overwrite xs p [] = xs := by
  rw [overwrite, List.append_nil, List.length_nil, Nat.add_zero, List.take_append_drop]

/-- What the buffers from node `idx` on are: the bytes from `npos` on, for both directions.
`front` stands for the nodes before them. -/
structure Spans (b idx npos n : Nat) (ns : List Node) (iovs : List Iovec) : Prop where
  room_eq : room iovs = n
  gather_eq : ∀ front : List Node, front.length = idx →
    (gather (front ++ ns) iovs).flatten = slice ns.flatten npos n
  scatter_eq : ∀ front : List Node, front.length = idx → ∀ bytes : List UInt8, bytes.length ≤ n →
    ∃ ns', scatter (front ++ ns) iovs bytes = front ++ ns' ∧ Uniform b ns' ∧
      ns'.length = ns.length ∧ ns'.flatten = overwrite ns.flatten npos bytes

theorem getElem?_front {front : List Node} {idx : Nat} (hf : front.length = idx) (node : Node)
    (rest : List Node) : (front ++ node :: rest)[idx]? = some node := by
  rw [← hf, List.getElem?_append_right (le_refl _), Nat.sub_self, List.getElem?_cons_zero]

theorem modify_front {front : List Node} {idx : Nat} (hf : front.length = idx) (node : Node)
    (rest : List Node) (f : Node → Node) :
    (front ++ node :: rest).modify idx f = front ++ f node :: rest := by
  subst hf
  induction front with
  | nil => rfl
  | cons x front ih => simpa using ih

theorem spans_within {b : Nat} {node : Node} {rest : List Node} (hu : Uniform b (node :: rest))
    {npos n : Nat} (h : npos + n ≤ b) (idx : Nat) :
    Spans b idx npos n (node :: rest) [⟨idx, npos, n⟩] where
  room_eq := by simp [room]
  gather_eq front hf := by
    have hnode := (uniform_cons.mp hu).1
    simp only [gather, List.map_cons, List.map_nil, List.flatten_cons, List.flatten_nil,
      List.append_nil, getElem?_front hf, Option.getD_some]
    rw [slice_append_left (by omega)]
  scatter_eq front hf bytes hb := by
    obtain ⟨hnode, hrest⟩ := uniform_cons.mp hu
    refine ⟨overwrite node npos bytes :: rest, ?_, ?_, rfl, ?_⟩
    · simp only [scatter, modify_front hf, List.take_of_length_le hb]
    · exact uniform_cons.mpr ⟨by rw [length_overwrite (by omega), hnode], hrest⟩
    · rw [List.flatten_cons, List.flatten_cons, overwrite_append_left (by omega)]

/-- One whole node in front of more buffers. -/
theorem Spans.cons {b : Nat} {node : Node} {rest : List Node} (hu : Uniform b (node :: rest))
    {idx npos n : Nat} {iovs : List Iovec} (hpos : npos < b)
    (h : Spans b (idx + 1) 0 n rest iovs) :
    Spans b idx npos (b - npos + n) (node :: rest) (⟨idx, npos, b - npos⟩ :: iovs) where
  room_eq := by
    have := h.room_eq
    simp only [room, List.map_cons, List.sum_cons] at this ⊢
    omega
  gather_eq front hf := by
    have hnode := (uniform_cons.mp hu).1
    have hrest := h.gather_eq (front ++ [node]) (by simp [hf])
    rw [List.append_assoc, List.singleton_append] at hrest
    rw [gather, List.map_cons, ← gather, List.flatten_cons, hrest, getElem?_front hf,
      Option.getD_some, slice_add, List.flatten_cons, slice_append_left (by omega),
      slice_append_right (by omega)]
    congr 2
    omega
  scatter_eq front hf bytes hb := by
    obtain ⟨hnode, hrest⟩ := uniform_cons.mp hu
    have hone : (overwrite node npos (bytes.take (b - npos))).length = b := by
      rw [length_overwrite (by rw [List.length_take]; omega), hnode]
    obtain ⟨ns', hok, hu', hl', hf'⟩ := h.scatter_eq
      (front ++ [overwrite node npos (bytes.take (b - npos))]) (by simp [hf])
      (bytes.drop (b - npos)) (by rw [List.length_drop]; omega)
    rw [List.append_assoc, List.append_assoc, List.singleton_append, List.singleton_append] at hok
    refine ⟨overwrite node npos (bytes.take (b - npos)) :: ns', ?_, ?_, by simp [hl'], ?_⟩
    · simp only [scatter, modify_front hf, hok]
    · exact uniform_cons.mpr ⟨hone, hu'⟩
    · rw [List.flatten_cons, hf', List.flatten_cons]
      rcases Nat.le_total (b - npos) bytes.length with hc | hc
      · rw [overwrite_append_split (by omega) hc]
      · rw [List.drop_of_length_le hc, List.take_of_length_le hc, overwrite_nil,
          overwrite_append_left (by omega)]

theorem buffersLoop_ok {b : Nat} {ns : List Node} (hu : Uniform b ns) {npos : Nat} (hpos : npos < b)
    {n : Nat} (hn : 0 < n) (hfit : npos + n ≤ b * ns.length) (idx : Nat) :
    ∃ iovs, buffersLoop ns idx npos (b - npos) n = .ok iovs ∧ Spans b idx npos n ns iovs := by
  induction ns generalizing npos n idx with
  | nil => rw [List.length_nil, Nat.mul_zero] at hfit; omega
  | cons node rest ih =>
    have hrest := (uniform_cons.mp hu).2
    have hmul := mul_length_cons b node rest
    by_cases hin : n ≤ b - npos
    · exact ⟨_, buffersLoop_within node rest idx npos _ hn hin, spans_within hu (by omega) idx⟩
    · cases rest with
      | nil => simp only [List.length_nil, Nat.mul_zero] at hmul; omega
      | cons next rest =>
        have hnext := (uniform_cons.mp hrest).1
        obtain ⟨iovs, hok, hsp⟩ := ih hrest (show 0 < b by omega) (n := n - (b - npos)) (by omega)
          (by omega) (idx + 1)
        have hsum : b - npos + (n - (b - npos)) = n := by omega
        have hall := hsp.cons hu hpos
        rw [hsum] at hall
        rw [Nat.sub_zero] at hok
        exact ⟨_, by rw [buffersLoop_next node next rest idx npos _ (by omega), hnext, hok, ok_bind],
          hall⟩

theorem buffersLoop_null {b : Nat} {ns : List Node} (hu : Uniform b ns) {npos : Nat}
    (hpos : npos < b) {n : Nat} (hn : 0 < n) (hfit : b * ns.length < npos + n) (idx : Nat) :
    buffersLoop ns idx npos (b - npos) n = .error .nullNode := by
  induction ns generalizing npos n idx with
  | nil =>
    obtain ⟨k, rfl⟩ := Nat.exists_eq_add_of_lt hn
    rw [Nat.zero_add, buffersLoop]
  | cons node rest ih =>
    have hrest := (uniform_cons.mp hu).2
    have hmul := mul_length_cons b node rest
    cases rest with
    | nil =>
      simp only [List.length_nil, Nat.mul_zero] at hmul
      exact buffersLoop_last node idx npos _ (by omega)
    | cons next rest =>
      have hnext := (uniform_cons.mp hrest).1
      rw [mul_length_cons b next rest] at hmul
      have h := ih hrest (show 0 < b by omega) (n := n - (b - npos)) (by omega)
        (by rw [mul_length_cons b next rest]; omega) (idx + 1)
      rw [Nat.sub_zero] at h
      rw [buffersLoop_next node next rest idx npos _ (by omega), hnext, h, error_bind]

/-- From the start of a node on, the buffers are the nodes' own blocks. -/
theorem gather_buffersLoop {b : Nat} (hb : 0 < b) {ns : List Node} (hu : Uniform b ns) {n : Nat}
    (hn : 0 < n) (hfit : n ≤ b * ns.length) {idx : Nat} {iovs : List Iovec}
    (hok : buffersLoop ns idx 0 b n = .ok iovs)
    {f : List Node} (hf : f.length = idx) :
    gather (f ++ ns) iovs = cut b (slice ns.flatten 0 n) := by
  induction ns generalizing n idx iovs f with
  | nil => rw [List.length_nil, Nat.mul_zero] at hfit; omega
  | cons node rest ih =>
    obtain ⟨hnode, hrest⟩ := uniform_cons.mp hu
    rw [mul_length_cons] at hfit
    by_cases hin : n ≤ b
    · rw [buffersLoop_within node rest idx 0 b hn hin] at hok
      cases hok
      have hlen : (slice node 0 n).length = n := length_slice (by omega)
      rw [List.flatten_cons, slice_append_left (by omega), cut_within (by omega) (by omega)]
      simp only [gather, List.map_cons, List.map_nil, getElem?_front hf, Option.getD_some]
    · cases rest with
      | nil =>
        rw [buffersLoop_last node idx 0 b (by omega)] at hok
        cases hok
      | cons next rest =>
        rw [buffersLoop_next node next rest idx 0 b (by omega),
          (uniform_cons.mp hrest).1] at hok
        obtain ⟨iovs', hok', hiovs⟩ := bind_eq_ok.mp hok
        cases hiovs
        have hrec := ih hrest (by omega) (by omega) hok' (f := f ++ [node]) (by simp [hf])
        have hlen := length_flatten_uniform hrest
        rw [List.append_assoc, List.singleton_append] at hrec
        have hwhole : slice node 0 b = node := by
          rw [slice, List.drop_zero, List.take_of_length_le hnode.le]
        have hsplit : slice (node :: next :: rest).flatten 0 n =
            node ++ slice (next :: rest).flatten 0 (n - b) := by
          have hsum := slice_add (node :: next :: rest).flatten 0 b (n - b)
          rw [Nat.add_sub_cancel' (by omega), List.flatten_cons] at hsum
          rw [List.flatten_cons, hsum, slice_append_left (by omega), slice_append_right (by omega),
            hnode, Nat.zero_add, Nat.sub_self, hwhole]
        rw [hsplit, cut_append hnode (by rw [length_slice (by omega)]; omega) hb, ← hrec]
        simp only [gather, List.map_cons, getElem?_front hf, Option.getD_some, hwhole]

/-- What the buffers for the next `n` bytes are good for. -/
structure Lends (ba : ByteArray) (n : Nat) (iovs : List Iovec) : Prop where
  room_eq : room iovs = n
  gather_eq : (gather ba.nodes iovs).flatten = slice ba.content ba.position n
  scatter_eq : ∀ bytes : List UInt8, bytes.length ≤ n →
    Uniform ba.baseSize (scatter ba.nodes iovs bytes) ∧
      (scatter ba.nodes iovs bytes).length = ba.nodes.length ∧
      (scatter ba.nodes iovs bytes).flatten = overwrite ba.content ba.position bytes

theorem slice_drop {α : Type*} (xs : List α) (k p n : Nat) :
    slice (xs.drop k) p n = slice xs (k + p) n := by
  rw [slice, slice, List.drop_drop]

/-- The walk from `m_cur` that both buffer functions make. -/
theorem buffers_ok {ba : ByteArray} (hs : Shaped ba) (hr : RepInv ba) {n : Nat} (hn : 0 < n)
    (hfit : ba.position + n ≤ ba.capacity) :
    ∃ i node iovs, ba.deref = .ok (i, node) ∧
      buffersLoop (ba.nodes.drop i) i (ba.position % ba.baseSize)
        (node.length - ba.position % ba.baseSize) n = .ok iovs ∧ Lends ba n iovs := by
  have hcap := hr.capacity_eq
  have hdm := Nat.div_add_mod ba.position ba.baseSize
  have hi : ba.position / ba.baseSize < ba.nodes.length := div_lt_length (by omega)
  have hcur := deref_nodePtr (hr.cur_eq_nodePtr hs) hi
  have hrest := mul_length_drop (b := ba.baseSize) hi.le
  have hnode := hs.length_node hi
  have hoff := hs.offset_lt
  generalize ba.position / ba.baseSize = i at *
  have htake : (ba.nodes.take i).length = i := by rw [List.length_take, min_eq_left hi.le]
  obtain ⟨iovs, hok, hsp⟩ := buffersLoop_ok (hs.uniform.drop i) hoff hn (by omega) i
  refine ⟨i, _, iovs, hcur, by rw [hnode, hok], hsp.room_eq, ?_, ?_⟩
  · have hg := hsp.gather_eq (ba.nodes.take i) htake
    rwa [List.take_append_drop, flatten_drop_uniform hs.uniform, slice_drop, hdm] at hg
  · intro bytes hb
    obtain ⟨ns', hsc, hu', hl', hf'⟩ := hsp.scatter_eq (ba.nodes.take i) htake bytes hb
    rw [List.take_append_drop] at hsc
    rw [hsc]
    refine ⟨uniform_append.mpr ⟨hs.uniform.take i, hu'⟩, ?_, ?_⟩
    · rw [List.length_append, htake, hl', List.length_drop]
      omega
    · have hfront : (ba.nodes.take i).flatten.length = ba.baseSize * i := by
        rw [length_flatten_uniform (hs.uniform.take i), htake]
      rw [List.flatten_append, hf', ← overwrite_append_right, hfront, ← List.flatten_append,
        List.take_append_drop, hdm, content]

theorem getReadBuffers_ok {ba : ByteArray} (hs : Shaped ba) (hr : RepInv ba) {len n : Nat}
    (hn : 0 < n) (hlen : n = min len ba.getReadSize) :
    ∃ iovs, ba.getReadBuffers len = .ok (iovs, n) ∧ Lends ba n iovs := by
  have hsize := hr.size_le
  have hpos := hr.position_le
  have hrs : ba.getReadSize = ba.size - ba.position := rfl
  have hif : (if len > ba.getReadSize then ba.getReadSize else len) = n := by
    rw [hlen]
    split <;> omega
  obtain ⟨i, node, iovs, hd, hok, hl⟩ := buffers_ok hs hr hn (by omega)
  refine ⟨iovs, ?_, hl⟩
  simp only [getReadBuffers, hif, if_neg (show ¬n = 0 by omega), hd, ok_bind, hok]

theorem getWriteBuffers_ok {ba : ByteArray} (hs : Shaped ba) (hr : RepInv ba) {len : Nat}
    (hn : 0 < len) (hf : Fits ba len) :
    ∃ iovs, ba.getWriteBuffers len = .ok ((iovs, len), ba.addCapacity len) ∧
      Lends (ba.addCapacity len) len iovs := by
  have hfit := (fits_iff hs hr len).mp hf
  obtain ⟨i, node, iovs, hd, hok, hl⟩ := buffers_ok (shaped_addCapacity hs len)
    (repInv_addCapacity hs hr len) hn (by rwa [addCapacity_position])
  refine ⟨iovs, ?_, hl⟩
  simp only [getWriteBuffers, if_neg (show ¬len = 0 by omega), hd, ok_bind, hok]

theorem getWriteBuffers_null {ba : ByteArray} (hs : Shaped ba) (hr : RepInv ba) {len : Nat}
    (hn : 0 < len) (hf : ¬Fits ba len) : ba.getWriteBuffers len = .error .nullNode := by
  rw [fits_iff hs hr, Nat.not_le] at hf
  have hs' := shaped_addCapacity hs len
  have hr' := repInv_addCapacity hs hr len
  have hle := hr'.position_le.trans hr'.size_le
  have hcap := hr'.capacity_eq
  simp only [getWriteBuffers, if_neg (show ¬len = 0 by omega)]
  rw [← addCapacity_position ba len] at hf
  generalize ba.addCapacity len = ba' at *
  by_cases hend : ba'.position = ba'.capacity
  · rw [deref_null (hr'.cur_null hend), error_bind]
  · have hdm := Nat.div_add_mod ba'.position ba'.baseSize
    have hi : ba'.position / ba'.baseSize < ba'.nodes.length := div_lt_length (by omega)
    have hrest := mul_length_drop (b := ba'.baseSize) hi.le
    have hnull := buffersLoop_null (hs'.uniform.drop (ba'.position / ba'.baseSize)) hs'.offset_lt hn
      (by omega) (ba'.position / ba'.baseSize)
    rw [deref_nodePtr (hr'.cur_eq_nodePtr hs') hi, ok_bind, hs'.length_node hi, hnull, error_bind]

/-! ## Receiving -/

section

variable {garbage : Nat → UInt8} {base : Nat} {endian : Endian} {stream : List UInt8}

/-- `Filled`, with the given number of free bytes behind the data. -/
structure Holding (garbage : Nat → UInt8) (base : Nat) (endian : Endian) (stream : List UInt8)
    (spare : Nat) (ba : ByteArray) : Prop where
  shaped : Shaped ba
  repInv : RepInv ba
  baseSize_eq : ba.baseSize = base
  endian_eq : ba.endian = endian
  garbage_eq : ba.garbage = garbage
  position_eq : ba.position = stream.length
  size_eq : ba.size = stream.length
  spare_eq : ba.getCapacity = spare
  content_eq : ba.content = stream ++ newNode garbage stream.length spare

theorem Filled.addCapacity_holding {ba : ByteArray} (h : Filled garbage base endian stream ba)
    (n : Nat) : Holding garbage base endian stream (ba.getCapacity + ba.growth n * base)
      (ba.addCapacity n) where
  shaped := shaped_addCapacity h.shaped n
  repInv := repInv_addCapacity h.shaped h.repInv n
  baseSize_eq := by rw [addCapacity_baseSize, h.baseSize_eq]
  endian_eq := by rw [addCapacity_endian, h.endian_eq]
  garbage_eq := by rw [addCapacity_garbage, h.garbage_eq]
  position_eq := by rw [addCapacity_position, h.position_eq]
  size_eq := by rw [addCapacity_size, h.size_eq]
  spare_eq := by
    have := h.repInv.position_le.trans h.repInv.size_le
    rw [getCapacity, getCapacity, addCapacity_position, addCapacity_capacity, h.baseSize_eq]
    omega
  content_eq := h.content_addCapacity n

theorem Holding.filled {ba : ByteArray} {spare : Nat}
    (h : Holding garbage base endian stream spare ba) (hlt : spare < base) (hs : stream ≠ []) :
    Filled garbage base endian stream ba := by
  have hsum : stream.length + spare = base * ba.nodes.length := by
    have hcap := h.repInv.capacity_eq
    have hle := h.repInv.position_le.trans h.repInv.size_le
    have hspare := h.spare_eq
    have hpos := h.position_eq
    rw [h.baseSize_eq] at hcap
    rw [getCapacity] at hspare
    omega
  have hfree : spare = free base stream.length := by
    rw [free_of_pos (List.length_pos_iff.mpr hs), sub_mod_mod_of_add_eq hsum hlt]
  exact ⟨h.shaped, h.repInv, h.baseSize_eq, h.endian_eq, h.garbage_eq, h.position_eq, h.size_eq,
    h.spare_eq.trans hfree, by rw [h.content_eq, hfree, image]⟩

/-- What arrives is put behind the data. -/
theorem Holding.store {ba : ByteArray} {spare : Nat}
    (h : Holding garbage base endian stream spare ba) {n : Nat} (hn : n ≤ spare)
    {iovs : List Iovec} (hl : Lends ba n iovs) {bytes : List UInt8} (hb : bytes.length ≤ n) :
    ∃ ba', ({ ba with nodes := scatter ba.nodes iovs bytes } : ByteArray).setPosition
        (ba.position + bytes.length) = .ok ba' ∧
      Holding garbage base endian (stream ++ bytes) (spare - bytes.length) ba' := by
  obtain ⟨hu, hlen, hflat⟩ := hl.scatter_eq bytes hb
  have hcap := h.repInv.capacity_eq
  have hle := h.repInv.position_le.trans h.repInv.size_le
  have hspare := h.spare_eq
  rw [getCapacity] at hspare
  have hs' : Shaped { ba with nodes := scatter ba.nodes iovs bytes } :=
    ⟨h.shaped.base_pos, hu, List.length_pos_iff.mp
      (by dsimp only; rw [hlen]; exact List.length_pos_iff.mpr h.shaped.root)⟩
  have hr' : RepInv { ba with nodes := scatter ba.nodes iovs bytes } :=
    ⟨h.repInv.position_le, h.repInv.size_le, by dsimp only; rw [hlen, hcap], h.repInv.cur_null,
      h.repInv.cur_node⟩
  have hset := setPosition_ok hs' hr' (v := ba.position + bytes.length) (by dsimp only; omega)
  refine ⟨_, hset, ?_⟩
  obtain ⟨hs'', hr''⟩ := setPosition_keeps hs' hr' hset
  refine ⟨hs'', hr'', h.baseSize_eq, h.endian_eq, h.garbage_eq, ?_, ?_, ?_, ?_⟩
  · simp only [h.position_eq, List.length_append]
  · simp only [h.position_eq, h.size_eq, List.length_append]
    omega
  · simp only [getCapacity]
    omega
  · rw [content, hflat, h.content_eq, h.position_eq, overwrite, List.take_left, ← List.drop_drop,
      List.drop_left, drop_newNode, List.length_append]

/-- Asking for the same room again changes nothing. -/
theorem addCapacity_addCapacity {ba : ByteArray} (hs : Shaped ba) (hr : RepInv ba) {n : Nat}
    (hf : Fits ba n) : (ba.addCapacity n).addCapacity n = ba.addCapacity n := by
  apply addCapacity_of_le
  have := (fits_iff hs hr n).mp hf
  rw [getCapacity, addCapacity_position]
  omega

/-! ## Data to be sent -/

section Synced

variable {ba : ByteArray}

/-- Within the data, `setPosition` only moves the cursor. -/
theorem Synced.setPosition_ok {p : Nat} (h : Synced garbage base endian stream p ba)
    (hr : RepInv ba) {v : Nat} (hv : v ≤ stream.length) :
    ∃ ba', ba.setPosition v = .ok ba' ∧ Synced garbage base endian stream v ba' ∧ RepInv ba' := by
  have hle : v ≤ ba.size := by rw [h.size_eq]; exact hv
  have hset := ByteArray.setPosition_ok h.shaped hr (hle.trans hr.size_le)
  have hkeep := setPosition_keeps h.shaped hr hset
  refine ⟨_, hset, ⟨hkeep.1, h.baseSize_eq, h.endian_eq, rfl, ?_, h.content_eq, ?_⟩, hkeep.2⟩
  · simp only [h.size_eq, max_eq_left hv]
  · simp only [nodePtr, h.baseSize_eq]

theorem slice_image {p n : Nat} (h : p + n ≤ stream.length) :
    slice (image garbage base stream) p n = slice stream p n := by
  rw [image, slice_append_left h]

/-- All of the data, in the blocks the nodes keep it in. -/
theorem Synced.gather_all (h : Synced garbage base endian stream 0 ba) (h0 : stream ≠ [])
    {len : Nat} (hlen : stream.length ≤ len) :
    ∃ iovs n, ba.getReadBuffers len = .ok (iovs, n) ∧ gather ba.nodes iovs = cut base stream := by
  have hpos := List.length_pos_iff.mpr h0
  have hnodes := h.nodes_eq
  have hi : 0 < ba.nodes.length := List.length_pos_iff.mpr h.shaped.root
  have hu := h.baseSize_eq ▸ h.shaped.uniform
  have hif : (if len > ba.getReadSize then ba.getReadSize else len) = stream.length := by
    rw [h.getReadSize_eq, Nat.sub_zero]
    split <;> omega
  have hcur := h.cur_eq
  rw [Nat.zero_div] at hcur
  obtain ⟨iovs, hok, -⟩ := buffersLoop_ok hu h.base_pos hpos (by omega) 0
  rw [Nat.sub_zero] at hok
  have hg := gather_buffersLoop h.base_pos hu hpos (by omega) hok (f := []) rfl
  rw [List.nil_append, ← content, h.content_eq, slice_image (by omega)] at hg
  refine ⟨iovs, stream.length, ?_, ?_⟩
  · simp only [getReadBuffers, hif, if_neg hpos.ne', deref_nodePtr hcur hi, ok_bind,
      h.shaped.length_node hi, h.baseSize_eq, h.position_eq, Nat.zero_mod, Nat.sub_zero,
      List.drop_zero, hok]
  · rw [hg, slice, List.drop_zero, List.take_length]

end Synced

end

end ByteArray

namespace Stream

open CxkFramework.ByteArray

section

variable {garbage : Nat → UInt8} {base : Nat} {endian : Endian} {stream : List UInt8}
  {s : Stream} {ba : ByteArray}

/-- Room that is there already is used as it is. -/
theorem readByteArray_holding {spare : Nat} (h : Holding garbage base endian stream spare ba)
    (hs : Reliable s) {left : Nat} (h0 : 0 < left) (hle : left ≤ spare)
    (hin : 0 < s.input.length) :
    ∃ (bytes : List UInt8) (ba' : ByteArray) (s' : Stream),
      s.readByteArray ba left = (.ok ((bytes.length : Int), ba'), s') ∧ Received s bytes s' ∧
      0 < bytes.length ∧ bytes.length ≤ left ∧
      Holding garbage base endian (stream ++ bytes) (spare - bytes.length) ba' := by
  have hcap : left ≤ ba.getCapacity := by rw [h.spare_eq]; exact hle
  obtain ⟨iovs, hok, hl⟩ := getWriteBuffers_ok h.shaped h.repInv h0 (.inl hcap)
  rw [addCapacity_of_le hcap] at hok hl
  obtain ⟨bytes, s', hread, hrec, hpos, hbytes⟩ := read_reliable hs h0 hin
  obtain ⟨ba', hset, h'⟩ := h.store hle hl hbytes
  refine ⟨bytes, ba', s', ?_, hrec, hpos, hbytes, h'⟩
  simp only [readByteArray, hs.open_, Bool.false_eq_true, if_false, hok, hl.room_eq, hread,
    Int.toNat_natCast, hset]
  rw [if_pos (by omega)]

theorem readLoop_holding {spare : Nat} (h : Holding garbage base endian stream spare ba)
    (hs : Reliable s) {left rounds : Nat} (hr : left ≤ rounds) (hle : left ≤ spare)
    {bytes rest : List UInt8} (hin : s.input = bytes ++ rest) (hlen : bytes.length = left) :
    ∃ ba' s', fixSizeLoop readByteArray rounds s ba left = (.ok (none, ba'), s') ∧
      Received s bytes s' ∧
      Holding garbage base endian (stream ++ bytes) (spare - left) ba' := by
  induction rounds generalizing s ba left bytes stream spare with
  | zero =>
    have hnil : bytes = [] := List.length_eq_zero_iff.mp (by omega)
    subst hnil
    have hleft : left = 0 := by omega
    subst hleft
    exact ⟨ba, s, rfl, Received.refl s, by simpa using h⟩
  | succ rounds ih =>
    rw [fixSizeLoop]
    by_cases hleft : left = 0
    · have hnil : bytes = [] := List.length_eq_zero_iff.mp (by omega)
      subst hnil hleft
      exact ⟨ba, s, rfl, Received.refl s, by simpa using h⟩
    · have hpos : 0 < s.input.length := by
        rw [hin, List.length_append]
        omega
      obtain ⟨got, ba₁, s₁, hread, hrec, hgot, hgl, h₁⟩ :=
        readByteArray_holding h hs (by omega : 0 < left) hle hpos
      obtain ⟨hsplit, hin₁⟩ := hrec.front hin (by omega)
      have hlen₁ : (bytes.drop got.length).length = left - got.length := by
        rw [List.length_drop, hlen]
      obtain ⟨ba', s', hok, hrec', h'⟩ := ih h₁ (hrec.reliable hs) (by omega)
        (show left - got.length ≤ spare - got.length by omega) hin₁ hlen₁
      refine ⟨ba', s', ?_, ?_, ?_⟩
      · simp only [if_neg hleft, hread, Int.toNat_natCast, hok]
        rw [if_neg (by omega)]
      · rw [hsplit]
        exact hrec.trans hrec'
      · rw [List.append_assoc, ← hsplit] at h'
        have hspare : spare - got.length - (left - got.length) = spare - left := by omega
        rwa [hspare] at h'

/-- The array grows in the first round, whichever part of the bytes that round gets. -/
theorem readByteArray_addCapacity (h : Filled garbage base endian stream ba) {n : Nat} (hn : 0 < n)
    (hf : ChunkFits base stream.length n) (hs : s.closed = false) :
    s.readByteArray ba n = s.readByteArray (ba.addCapacity n) n := by
  have hsame : ba.getWriteBuffers n = (ba.addCapacity n).getWriteBuffers n := by
    simp only [getWriteBuffers, if_neg (show ¬n = 0 by omega),
      addCapacity_addCapacity h.shaped h.repInv ((h.fits_iff n).mpr hf)]
  simp only [readByteArray, hs, Bool.false_eq_true, if_false, hsame]

theorem readFixSizeByteArray_filled (h : Filled garbage base endian stream ba) (hs : Reliable s)
    {bytes rest : List UInt8} (hf : ChunkFits base stream.length bytes.length) (h0 : bytes ≠ [])
    (hb : bytes.length < 2 ^ 63) (hin : s.input = bytes ++ rest) :
    ∃ ba' s', s.readFixSizeByteArray ba bytes.length = (.ok (toInt bytes.length, ba'), s') ∧
      Received s bytes s' ∧ Filled garbage base endian (stream ++ bytes) ba' := by
  have hlen := List.length_pos_iff.mpr h0
  have hfit := (fits_iff h.shaped h.repInv _).mp ((h.fits_iff _).mpr hf)
  have hroom : bytes.length ≤ ba.getCapacity + ba.growth bytes.length * base := by
    have := h.repInv.position_le.trans h.repInv.size_le
    rw [addCapacity_capacity, h.baseSize_eq] at hfit
    rw [getCapacity]
    omega
  have hslack := slack_lt h.shaped.base_pos hlen
    (by rw [h.free_eq, h.baseSize_eq]; exact free_le h.base_pos)
  rw [h.baseSize_eq] at hslack
  obtain ⟨ba', s', hok, hrec, h'⟩ := readLoop_holding (h.addCapacity_holding bytes.length) hs
    (le_refl bytes.length) hroom hin rfl
  have hstart : fixSizeLoop readByteArray bytes.length s ba bytes.length =
      fixSizeLoop readByteArray bytes.length s (ba.addCapacity bytes.length) bytes.length := by
    obtain ⟨k, hk⟩ := Nat.exists_eq_add_of_lt hlen
    rw [Nat.zero_add] at hk
    have hgrow := readByteArray_addCapacity h hlen hf hs.open_
    rw [hk] at hgrow ⊢
    simp only [fixSizeLoop, if_neg (Nat.succ_ne_zero k), hgrow]
  refine ⟨ba', s', ?_, hrec, h'.filled hslack (by simp [h0])⟩
  simp only [readFixSizeByteArray, fixSize, if_pos hb, hstart, hok]

/-- Too little room: the very first round follows a null pointer. -/
theorem readFixSizeByteArray_null (h : Filled garbage base endian stream ba) (hs : s.closed = false)
    {n : Nat} (hf : ¬ChunkFits base stream.length n) (hn : n < 2 ^ 63) :
    s.readFixSizeByteArray ba n = (.error .nullNode, s) := by
  have h0 : 0 < n := by
    rcases Nat.eq_zero_or_pos n with rfl | h0
    · exact absurd (.inl (Nat.zero_le _)) hf
    · exact h0
  have hnull := getWriteBuffers_null h.shaped h.repInv h0 ((h.fits_iff n).not.mpr hf)
  obtain ⟨k, rfl⟩ := Nat.exists_eq_add_of_lt h0
  rw [Nat.zero_add] at hnull hn ⊢
  simp only [readFixSizeByteArray, fixSize, if_pos hn, fixSizeLoop, readByteArray, hs, hnull,
    Bool.false_eq_true, if_false, if_neg (Nat.succ_ne_zero k)]

/-! ## Sending -/

theorem writeByteArray_synced {p : Nat} (h : Synced garbage base endian stream p ba)
    (hr : RepInv ba) (hs : Reliable s) {left : Nat} (h0 : 0 < left)
    (hle : p + left ≤ stream.length) :
    ∃ (n : Nat) (ba' : ByteArray) (s' : Stream),
      s.writeByteArray ba left = (.ok ((n : Int), ba'), s') ∧ Sent s (slice stream p n) s' ∧
      0 < n ∧ n ≤ left ∧ Synced garbage base endian stream (p + n) ba' ∧ RepInv ba' := by
  have hsize : left = min left ba.getReadSize := by
    rw [h.getReadSize_eq]
    omega
  obtain ⟨iovs, hok, hl⟩ := getReadBuffers_ok h.shaped hr h0 hsize
  have hg := hl.gather_eq
  rw [h.content_eq, h.position_eq, slice_image hle] at hg
  have hlen : (slice stream p left).length = left := length_slice hle
  have hne : slice stream p left ≠ [] := List.length_pos_iff.mp (by omega)
  obtain ⟨n, s', hwrite, hsent, hpos, hn⟩ := write_reliable hs hne
  obtain ⟨ba', hset, h', hr'⟩ := h.setPosition_ok hr (show p + n ≤ stream.length by omega)
  refine ⟨n, ba', s', ?_, ?_, hpos, by omega, h', hr'⟩
  · simp only [writeByteArray, hs.open_, Bool.false_eq_true, if_false, hok, hg, hwrite,
      Int.toNat_natCast, h.position_eq, hset]
    rw [if_pos (by omega)]
  · rwa [slice, List.take_take, min_eq_left (by omega)] at hsent

theorem writeLoop_synced {p : Nat} (h : Synced garbage base endian stream p ba) (hr : RepInv ba)
    (hs : Reliable s) {left rounds : Nat} (hrounds : left ≤ rounds)
    (hend : p + left = stream.length) :
    ∃ ba' s', fixSizeLoop writeByteArray rounds s ba left = (.ok (none, ba'), s') ∧
      Sent s (stream.drop p) s' ∧ ba'.size = stream.length := by
  induction rounds generalizing s ba left p with
  | zero =>
    have hnil : stream.drop p = [] := List.drop_of_length_le (by omega)
    exact ⟨ba, s, rfl, hnil ▸ Sent.refl s, h.size_eq⟩
  | succ rounds ih =>
    rw [fixSizeLoop]
    by_cases hleft : left = 0
    · have hnil : stream.drop p = [] := List.drop_of_length_le (by omega)
      exact ⟨ba, s, by rw [if_pos hleft], hnil ▸ Sent.refl s, h.size_eq⟩
    · obtain ⟨n, ba₁, s₁, hwrite, hsent, hpos, hn, h₁, hr₁⟩ :=
        writeByteArray_synced h hr hs (by omega : 0 < left) (by omega)
      obtain ⟨ba', s', hok, hsent', hsize⟩ := ih h₁ hr₁ (hsent.reliable hs)
        (show left - n ≤ rounds by omega) (by omega)
      refine ⟨ba', s', ?_, ?_, hsize⟩
      · simp only [if_neg hleft, hwrite, Int.toNat_natCast, hok]
        rw [if_neg (by omega)]
      · have hall := hsent.trans hsent'
        rwa [slice, ← List.drop_drop, List.take_append_drop] at hall

theorem writeFixSizeByteArray_synced (h : Synced garbage base endian stream 0 ba) (hr : RepInv ba)
    (hs : Reliable s) (hb : stream.length < 2 ^ 63) :
    ∃ ba' s', s.writeFixSizeByteArray ba stream.length = (.ok (toInt stream.length, ba'), s') ∧
      Sent s stream s' ∧ ba'.size = stream.length := by
  obtain ⟨ba', s', hok, hsent, hsize⟩ := writeLoop_synced h hr hs le_rfl (Nat.zero_add _)
  refine ⟨ba', s', ?_, by simpa using hsent, hsize⟩
  simp only [writeFixSizeByteArray, fixSize, if_pos hb, hok]

end

end Stream

end CxkFramework
