import CxkFramework.ByteArrayInvariant

/-!
# What `addCapacity` adds

The nodes that `addCapacity` appends and what it leaves alone. Whether they are enough depends on the
remainder of the shortage: it is compared with the old free bytes where zero is meant.
-/

namespace CxkFramework.ByteArray

open Blocks

/-- Nodes at the tail, each counted, and nothing else but the cursor: it goes to the first of them
when no byte was free before. -/
structure Grown (ba ba' : ByteArray) : Prop where
  nodes_eq : ∃ added : List Node, ba'.nodes = ba.nodes ++ added ∧ Uniform ba.baseSize added ∧
    ba'.capacity = ba.capacity + ba.baseSize * added.length
  position_eq : ba'.position = ba.position
  size_eq : ba'.size = ba.size
  stored_eq : ba'.content.take ba.size = ba.content.take ba.size
  cur_eq : ba'.cur = if ba.getCapacity = 0 ∧ ba.nodes.length < ba'.nodes.length
    then some ba.nodes.length else ba.cur

/-- There is room for `n` bytes, so no `write` of them comes to a null node. -/
structure Enough (ba : ByteArray) (n : Nat) : Prop where
  free_le : n ≤ (ba.addCapacity n).getCapacity
  write_ok : ∀ buf : List UInt8, buf.length = n → ∃ ba', ba.write buf = .ok ba'

variable {ba : ByteArray}

theorem length_appended (count : Nat) : (ba.appended count).length = count := by
  rw [appended, List.length_map, List.length_range]

theorem grown_addCapacity (hs : Shaped ba) (hr : RepInv ba) (n : Nat) :
    Grown ba (ba.addCapacity n) where
  nodes_eq := by
    refine ⟨ba.appended (ba.growth n), addCapacity_nodes ba n, uniform_appended ba _, ?_⟩
    rw [addCapacity_capacity, length_appended, Nat.mul_comm]
  position_eq := addCapacity_position ba n
  size_eq := addCapacity_size ba n
  stored_eq := by
    have hlength : ba.size ≤ ba.content.length := by
      rw [hs.length_content, ← hr.capacity_eq]
      exact hr.size_le
    rw [content, addCapacity_nodes, List.flatten_append]
    exact List.take_append_of_le_length hlength
  cur_eq := by
    have hmore : ba.nodes.length < (ba.addCapacity n).nodes.length ↔ 0 < ba.growth n := by
      rw [addCapacity_nodes, List.length_append, length_appended]
      omega
    rw [addCapacity_cur]
    simp only [hmore]
    by_cases hle : n ≤ ba.getCapacity
    · rw [growth_of_le hle, if_pos (.inl hle), if_neg (by omega)]
    · by_cases hfree : ba.getCapacity = 0
      · have hpos := growth_pos hs (show 0 < n by omega) hfree
        rw [if_neg (by omega), if_neg (by omega), if_pos ⟨hfree, hpos⟩]
      · rw [if_pos (.inr (Nat.pos_of_ne_zero hfree)), if_neg (by simp [hfree])]

theorem free_le_iff (hs : Shaped ba) (hr : RepInv ba) (n : Nat) :
    n ≤ (ba.addCapacity n).getCapacity ↔ Fits ba n := by
  rw [fits_iff hs hr, getCapacity, addCapacity_position]
  have hle := hr.position_le.trans hr.size_le
  have hmore : ba.capacity ≤ (ba.addCapacity n).capacity := by
    rw [addCapacity_capacity]
    exact Nat.le_add_right _ _
  omega

/-- What `addCapacity` does is right but for the number of nodes, which is enough if and only if the
bytes fit already, or the shortage is of whole nodes, or its remainder is more than was free. -/
theorem addCapacity_enough_iff (hs : Shaped ba) (hr : RepInv ba) (n : Nat) :
    Grown ba (ba.addCapacity n) ∧ (Enough ba n ↔ Fits ba n) := by
  constructor
  · exact grown_addCapacity hs hr n
  · constructor
    · intro h
      exact (free_le_iff hs hr n).mp h.free_le
    · intro hfits
      constructor
      · exact (free_le_iff hs hr n).mpr hfits
      · rintro buf rfl
        by_cases hnil : buf = []
        · exact ⟨ba, by rw [write, if_pos (by rw [hnil]; rfl)]⟩
        · obtain ⟨ba', hok, -⟩ := CxkFramework.ByteArray.write_ok hs hr hnil hfits
          exact ⟨ba', hok⟩

/-- Eight bytes into a fresh array with nodes of four. -/
theorem addCapacity_enough_iff_eight :
    Grown (ofBaseSize (fun _ => 0) 4) ((ofBaseSize (fun _ => 0) 4).addCapacity 8) ∧
      Enough (ofBaseSize (fun _ => 0) 4) 8 := by
  obtain ⟨hgrown, hiff⟩ := addCapacity_enough_iff (shaped_ofBaseSize (fun _ => 0) (by decide))
    (repInv_ofBaseSize (fun _ => 0) (show 0 < 4 by decide)) 8
  exact ⟨hgrown, hiff.mpr (.inr (.inl rfl))⟩

/-- Five bytes into one: no node is added, and the fifth byte goes through a null pointer. -/
theorem addCapacity_five :
    ((ofBaseSize (fun _ => 0) 4).addCapacity 5).getCapacity = 4 ∧
      ¬∃ ba', (ofBaseSize (fun _ => 0) 4).write [1, 2, 3, 4, 5] = .ok ba' := by
  constructor
  · decide
  · rintro ⟨ba', hok⟩
    have hnull : (ofBaseSize (fun _ => 0) 4).write [1, 2, 3, 4, 5] = .error .nullNode := by rfl
    rw [hnull] at hok
    cases hok

end CxkFramework.ByteArray
