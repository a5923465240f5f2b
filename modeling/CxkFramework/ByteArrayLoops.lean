import CxkFramework.ByteArray

/-!
# What the node-walking loops compute

Each loop is described once, over blocks of one size: when it reaches a null node, which
bytes it moves and how many nodes it passes. `write` stores one contiguous run. `read`
stays contiguous only while its stale `ncap` does no harm, so it is described byte by byte.
-/

namespace CxkFramework.ByteArray

open Words Blocks Runs

/-! ## write -/

theorem writeLoop_within (node : Node) (rest : List Node) (npos ncap : Nat) {data : List UInt8}
    (hd : data ≠ []) (h : data.length ≤ ncap) :
    writeLoop (node :: rest) npos ncap data =
      .ok (overwrite node npos data :: rest, if node.length = npos + data.length then 1 else 0) := by
  obtain ⟨d, ds, rfl⟩ := List.exists_cons_of_ne_nil hd
  cases rest <;> rw [writeLoop, if_pos h]

theorem writeLoop_last (node : Node) (npos ncap : Nat) {data : List UInt8} (h : ncap < data.length) :
    writeLoop [node] npos ncap data = .error .nullNode := by
  obtain ⟨d, ds, rfl⟩ := List.exists_cons_of_length_pos (Nat.zero_lt_of_lt h)
  rw [writeLoop, if_neg (by omega)]

theorem writeLoop_next (node next : Node) (rest : List Node) (npos ncap : Nat) {data : List UInt8}
    (h : ncap < data.length) :
    writeLoop (node :: next :: rest) npos ncap data = (do
      let (rest', hops) ← writeLoop (next :: rest) 0 next.length (data.drop ncap)
      .ok (overwrite node npos (data.take ncap) :: rest', hops + 1)) := by
  obtain ⟨d, ds, rfl⟩ := List.exists_cons_of_length_pos (Nat.zero_lt_of_lt h)
  rw [writeLoop, if_neg (by omega)]

theorem mul_length_cons (b : Nat) (node : Node) (rest : List Node) :
    b * (node :: rest).length = b + b * rest.length := by
  rw [List.length_cons]
  ring

/-- The data fits into the remaining nodes and is stored there contiguously. -/
theorem writeLoop_ok {b : Nat} {ns : List Node} (hu : Uniform b ns) {npos : Nat} (hpos : npos < b)
    {data : List UInt8} (hd : data ≠ []) (hfit : npos + data.length ≤ b * ns.length) :
    ∃ ns', writeLoop ns npos (b - npos) data = .ok (ns', (npos + data.length) / b) ∧
      Uniform b ns' ∧ ns'.length = ns.length ∧
      ns'.flatten = overwrite ns.flatten npos data := by
  have hlen := List.length_pos_iff.mpr hd
  induction ns generalizing npos data with
  | nil => rw [List.length_nil, Nat.mul_zero] at hfit; omega
  | cons node rest ih =>
    obtain ⟨hnode, hrest⟩ := uniform_cons.mp hu
    have hmul := mul_length_cons b node rest
    by_cases hin : data.length ≤ b - npos
    · refine ⟨overwrite node npos data :: rest, ?_, ?_, rfl, ?_⟩
      · have hhops : (if node.length = npos + data.length then 1 else 0) =
            (npos + data.length) / b := by
          rw [hnode]
          split
          · next h => rw [← h, Nat.div_self (by omega)]
          · rw [Nat.div_eq_of_lt (by omega)]
        rw [writeLoop_within node rest _ _ hd hin, hhops]
      · exact uniform_cons.mpr ⟨by rw [length_overwrite (by omega), hnode], hrest⟩
      · rw [List.flatten_cons, List.flatten_cons, overwrite_append_left (by omega)]
    · cases rest with
      | nil => simp only [List.length_nil, Nat.mul_zero] at hmul; omega
      | cons next rest =>
        have hnext := (uniform_cons.mp hrest).1
        have hl : (data.drop (b - npos)).length = npos + data.length - b := by
          rw [List.length_drop]
          omega
        obtain ⟨ns', hok, hu', hl', hf'⟩ := ih hrest (show 0 < b by omega)
          (show data.drop (b - npos) ≠ [] from List.length_pos_iff.mp (by omega)) (by omega)
          (by omega)
        have hhops : (0 + (data.drop (b - npos)).length) / b + 1 = (npos + data.length) / b := by
          rw [hl, Nat.zero_add, ← Nat.add_div_right _ (by omega),
            Nat.sub_add_cancel (show b ≤ npos + data.length by omega)]
        refine ⟨overwrite node npos (data.take (b - npos)) :: ns', ?_, ?_, by simp [hl'], ?_⟩
        · rw [Nat.sub_zero] at hok
          rw [writeLoop_next node next rest _ _ (by omega), hnext, hok, ok_bind, ← hhops]
        · refine uniform_cons.mpr ⟨?_, hu'⟩
          rw [length_overwrite (by simp only [List.length_take]; omega), hnode]
        · rw [List.flatten_cons, hf', ← overwrite_append_split (by omega) (by omega),
            ← List.flatten_cons]

/-- Too few nodes: the loop follows the null pointer behind the last one. -/
theorem writeLoop_null {b : Nat} {ns : List Node} (hu : Uniform b ns) {npos : Nat} (hpos : npos < b)
    {data : List UInt8} (hd : data ≠ []) (hfit : b * ns.length < npos + data.length) :
    writeLoop ns npos (b - npos) data = .error .nullNode := by
  have hlen := List.length_pos_iff.mpr hd
  induction ns generalizing npos data with
  | nil =>
    obtain ⟨d, ds, rfl⟩ := List.exists_cons_of_ne_nil hd
    rfl
  | cons node rest ih =>
    have hrest := (uniform_cons.mp hu).2
    have hmul := mul_length_cons b node rest
    cases rest with
    | nil => exact writeLoop_last node _ _ (by omega)
    | cons next rest =>
      have hnext := (uniform_cons.mp hrest).1
      have hl : (data.drop (b - npos)).length = npos + data.length - b := by
        rw [List.length_drop]
        omega
      have h := ih hrest (show 0 < b by omega)
        (show data.drop (b - npos) ≠ [] from List.length_pos_iff.mp (by omega)) (by omega) (by omega)
      rw [Nat.sub_zero] at h
      rw [writeLoop_next node next rest _ _ (by omega), hnext, h, error_bind]

/-! ## read -/

theorem readLoop_zero (ns : List Node) (npos ncap : Nat) : readLoop ns npos ncap 0 = .ok ([], 0) := by
  cases ns <;> rw [readLoop]

theorem readLoop_within (node : Node) (rest : List Node) (npos ncap : Nat) {n : Nat} (hn : 0 < n)
    (h : n ≤ ncap) : readLoop (node :: rest) npos ncap n =
      .ok (slice node npos n, if node.length = npos + n then 1 else 0) := by
  obtain ⟨k, rfl⟩ := Nat.exists_eq_add_of_lt hn
  rw [Nat.zero_add] at h ⊢
  rw [readLoop, if_pos h]

theorem readLoop_next (node : Node) (rest : List Node) (npos ncap : Nat) {n : Nat} (h : ncap < n) :
    readLoop (node :: rest) npos ncap n = (do
      let (bytes, hops) ← readLoop rest 0 ncap (n - ncap)
      .ok (slice node npos ncap ++ bytes, hops + 1)) := by
  obtain ⟨k, rfl⟩ := Nat.exists_eq_add_of_lt (Nat.zero_lt_of_lt h)
  rw [Nat.zero_add] at h ⊢
  rw [readLoop, if_neg (by omega)]

theorem readLoop_nil (npos ncap : Nat) {n : Nat} (hn : 0 < n) :
    readLoop [] npos ncap n = .error .nullNode := by
  obtain ⟨k, rfl⟩ := Nat.exists_eq_add_of_lt hn
  rw [Nat.zero_add, readLoop]

/-- Nodes passed when each one gives at most `c` of its `b` bytes and the first of them is
entered at its start. -/
def staleHops (b c n : Nat) : Nat := if c = b then n / b else (n - 1) / c

/-- From the start of a node on, `read` takes the first `c` bytes of every node. -/
theorem readLoop_start_ok {b c : Nat} (hc : 0 < c) (hcb : c ≤ b) {ns : List Node}
    (hu : Uniform b ns) {n : Nat} (hn : 0 < n) (hfit : n ≤ c * ns.length) :
    ∃ bytes, readLoop ns 0 c n = .ok (bytes, staleHops b c n) ∧ bytes.length = n ∧
      ∀ j < n, bytes[j]? = ns.flatten[b * (j / c) + j % c]? := by
  induction ns generalizing n with
  | nil => simp at hfit; omega
  | cons node rest ih =>
    obtain ⟨hnode, hrest⟩ := uniform_cons.mp hu
    rw [mul_length_cons c node rest] at hfit
    by_cases hin : n ≤ c
    · refine ⟨slice node 0 n, ?_, length_slice (by omega), ?_⟩
      · have hhops : (if node.length = 0 + n then 1 else 0) = staleHops b c n := by
          rw [hnode, staleHops]
          by_cases hcn : c = b
          · rw [if_pos hcn]
            split
            · next h => rw [h, Nat.zero_add, Nat.div_self hn]
            · rw [Nat.div_eq_of_lt (by omega)]
          · rw [if_neg hcn, if_neg (by omega), Nat.div_eq_of_lt (by omega)]
        rw [readLoop_within node rest 0 c hn hin, hhops]
      · intro j hj
        rw [getElem?_slice hj, Nat.div_eq_of_lt (by omega), Nat.mod_eq_of_lt (by omega),
          Nat.mul_zero, List.flatten_cons, List.getElem?_append_left (by omega)]
    · obtain ⟨bytes, hok, hlen, hbytes⟩ := ih hrest (n := n - c) (by omega) (by omega)
      have hhead : (slice node 0 c).length = c := length_slice (by omega)
      refine ⟨slice node 0 c ++ bytes, ?_, by rw [List.length_append, hhead, hlen]; omega, ?_⟩
      · have hhops : staleHops b c (n - c) + 1 = staleHops b c n := by
          rw [staleHops, staleHops]
          split
          · next h => rw [← h, ← Nat.add_div_right _ hc, Nat.sub_add_cancel (by omega)]
          · rw [← Nat.add_div_right _ hc]
            congr 1
            omega
        rw [readLoop_next node rest 0 c (by omega), hok, ok_bind, ← hhops]
      · intro j hj
        rcases Nat.lt_or_ge j c with hjc | hjc
        · rw [List.getElem?_append_left (by omega), getElem?_slice hjc, Nat.div_eq_of_lt hjc,
            Nat.mod_eq_of_lt hjc, Nat.mul_zero, List.flatten_cons,
            List.getElem?_append_left (by omega)]
        · have hdiv : b * (j / c) = b + b * ((j - c) / c) := by
            rw [Nat.div_eq_sub_div hc hjc]
            ring
          rw [List.getElem?_append_right (by omega), hhead, hbytes (j - c) (by omega),
            List.flatten_cons, List.getElem?_append_right (by omega), hnode, hdiv,
            Nat.mod_eq_sub_mod hjc]
          congr 1
          omega

theorem readLoop_start_null {c : Nat} {ns : List Node} {n : Nat}
    (hfit : c * ns.length < n) : readLoop ns 0 c n = .error .nullNode := by
  induction ns generalizing n with
  | nil => exact readLoop_nil 0 c (by omega)
  | cons node rest ih =>
    rw [mul_length_cons c node rest] at hfit
    rw [readLoop_next node rest 0 c (by omega), ih (by omega), error_bind]

/-- Where in the nodes from `m_cur` on `read` finds its byte number `j` when it starts at
offset `npos`: past the first node it takes only as many bytes of each as the first had left. -/
def staleOffset (b npos j : Nat) : Nat :=
  if j < b - npos then npos + j
  else b + (b * ((j - (b - npos)) / (b - npos)) + (j - (b - npos)) % (b - npos))

/-- How many nodes a `read` of `n` bytes from offset `npos` passes. -/
def readHops (b npos n : Nat) : Nat :=
  if n ≤ b - npos then (npos + n) / b else staleHops b (b - npos) (n - (b - npos)) + 1

theorem readLoop_ok {b : Nat} {ns : List Node} (hu : Uniform b ns) {npos : Nat} (hpos : npos < b)
    {n : Nat} (hn : 0 < n) (hfit : n ≤ (b - npos) * ns.length) :
    ∃ bytes, readLoop ns npos (b - npos) n = .ok (bytes, readHops b npos n) ∧ bytes.length = n ∧
      ∀ j < n, bytes[j]? = ns.flatten[staleOffset b npos j]? := by
  cases ns with
  | nil => rw [List.length_nil, Nat.mul_zero] at hfit; omega
  | cons node rest =>
    obtain ⟨hnode, hrest⟩ := uniform_cons.mp hu
    rw [mul_length_cons] at hfit
    by_cases hin : n ≤ b - npos
    · refine ⟨slice node npos n, ?_, length_slice (by omega), ?_⟩
      · have hhops : (if node.length = npos + n then 1 else 0) = readHops b npos n := by
          rw [hnode, readHops, if_pos hin]
          split
          · next h => rw [← h, Nat.div_self (by omega)]
          · rw [Nat.div_eq_of_lt (by omega)]
        rw [readLoop_within node rest npos _ hn hin, hhops]
      · intro j hj
        rw [getElem?_slice hj, staleOffset, if_pos (by omega), List.flatten_cons,
          List.getElem?_append_left (by omega)]
    · obtain ⟨bytes, hok, hlen, hbytes⟩ := readLoop_start_ok (b := b) (c := b - npos) (by omega)
        (by omega) hrest (n := n - (b - npos)) (by omega) (by omega)
      have hhead : (slice node npos (b - npos)).length = b - npos := length_slice (by omega)
      refine ⟨slice node npos (b - npos) ++ bytes, ?_, ?_, ?_⟩
      · rw [readLoop_next node rest npos _ (by omega), hok, ok_bind, readHops, if_neg hin]
      · rw [List.length_append, hhead, hlen]
        omega
      · intro j hj
        rw [staleOffset, List.flatten_cons]
        split
        · next h =>
          rw [List.getElem?_append_left (by omega), getElem?_slice h,
            List.getElem?_append_left (by omega)]
        · rw [List.getElem?_append_right (by omega), hhead, hbytes _ (by omega),
            List.getElem?_append_right (by omega), hnode, Nat.add_sub_cancel_left]

theorem readLoop_null {b : Nat} {ns : List Node} {npos n : Nat} (hn : 0 < n)
    (hfit : (b - npos) * ns.length < n) : readLoop ns npos (b - npos) n = .error .nullNode := by
  cases ns with
  | nil => exact readLoop_nil _ _ hn
  | cons node rest =>
    rw [mul_length_cons] at hfit
    rw [readLoop_next node rest npos _ (by omega), readLoop_start_null (by omega), error_bind]

/-- The stale count never makes the cursor lag behind. -/
theorem le_readHops {b npos n : Nat} (hpos : npos < b) : (npos + n) / b ≤ readHops b npos n := by
  rw [readHops]
  split
  · exact le_rfl
  · next h =>
    have hsum : npos + n = n - (b - npos) + b := by omega
    rw [hsum, Nat.add_div_right _ (by omega), Nat.succ_le_succ_iff, staleHops]
    split
    · exact le_rfl
    · -- each node gives fewer than `b` bytes
      rw [Nat.le_div_iff_mul_le (by omega)]
      have hq := Nat.div_mul_le_self (n - (b - npos)) b
      generalize (n - (b - npos)) / b = q at *
      rcases Nat.eq_zero_or_pos q with rfl | hq0
      · omega
      · have hstep : q * (b - npos) + q ≤ q * b := by
          rw [← Nat.mul_succ]
          exact Nat.mul_le_mul_left q (by omega)
        omega

/-- A `read` that returns passes no more nodes than there are. -/
theorem readHops_le {b npos n k : Nat} (hpos : npos < b) (hk : 0 < k) (hfit : n ≤ (b - npos) * k) :
    readHops b npos n ≤ k := by
  obtain ⟨k, rfl⟩ := Nat.exists_eq_add_of_lt hk
  rw [Nat.zero_add, Nat.mul_succ] at hfit
  rw [Nat.zero_add, readHops]
  split
  · next h =>
    have := Nat.div_le_div_right (c := b) (show npos + n ≤ b by omega)
    rw [Nat.div_self (by omega)] at this
    omega
  · rw [Nat.succ_le_succ_iff, staleHops]
    split
    · next h => exact Nat.div_le_of_le_mul (by rw [← h]; omega)
    · exact Nat.div_le_of_le_mul (by omega)

/-- Exactly when `read` leaves the cursor on the node of the new position: it starts at a
node boundary, or stays in the node, or passes as many pieces as nodes. -/
theorem readHops_eq_iff {b npos n : Nat} (hpos : npos < b) :
    readHops b npos n = (npos + n) / b ↔
      npos = 0 ∨ n ≤ b - npos ∨ (n - (b - npos) - 1) / (b - npos) = (n - (b - npos)) / b := by
  by_cases hin : n ≤ b - npos
  · rw [readHops, if_pos hin]
    exact ⟨fun _ => .inr (.inl hin), fun _ => rfl⟩
  · have hsum : npos + n = n - (b - npos) + b := by omega
    rw [readHops, if_neg hin, hsum, Nat.add_div_right _ (by omega), staleHops]
    by_cases h0 : npos = 0
    · rw [if_pos (by omega)]
      exact ⟨fun _ => .inl h0, fun _ => rfl⟩
    · rw [if_neg (by omega)]
      constructor
      · intro h
        exact .inr (.inr (Nat.succ_injective h))
      · rintro (h | h | h)
        · exact absurd h h0
        · exact absurd h hin
        · rw [h]

/-- Where the walk is contiguous. -/
theorem staleOffset_eq {b npos n j : Nat} (hpos : npos < b) (hj : j < n)
    (h : npos = 0 ∨ n ≤ 2 * (b - npos)) : staleOffset b npos j = npos + j := by
  rw [staleOffset]
  split
  · rfl
  · rcases h with rfl | h
    · rw [Nat.sub_zero, Nat.div_add_mod]
      omega
    · rw [Nat.div_eq_of_lt (by omega), Nat.mod_eq_of_lt (by omega)]
      omega

/-! ## setPosition, getReadBuffers and getWriteBuffers -/

theorem seekLoop_ok {b : Nat} (hb : 0 < b) {ns : List Node} (hu : Uniform b ns) (hne : ns ≠ [])
    {v : Nat} (hv : v ≤ b * ns.length) : seekLoop ns v = .ok (v / b) := by
  induction ns generalizing v with
  | nil => exact absurd rfl hne
  | cons node rest ih =>
    obtain ⟨hnode, hrest⟩ := uniform_cons.mp hu
    rw [mul_length_cons b node rest] at hv
    rw [seekLoop, hnode]
    by_cases hgt : v > b
    · have hr : rest ≠ [] := by
        rintro rfl
        simp at hv
        omega
      rw [if_pos hgt, ih hrest hr (by omega), ok_bind, ← Nat.add_div_right _ hb,
        Nat.sub_add_cancel (by omega)]
    · rw [if_neg hgt]
      by_cases he : v = b
      · rw [if_pos he, he, Nat.div_self hb]
      · rw [if_neg he, Nat.div_eq_of_lt (by omega)]

end CxkFramework.ByteArray
