import CxkFramework.LruCacheHistory

/-!
# What the LRU cache drops

A new key makes the cache drop entries when the sum of its two limits is reached, and then down
to the first limit. Which ones go is told by the history alone: the keys that were not used for
longest. The sum is a machine word, so elasticity without bound makes it less than the first
limit, and entries go as soon as that is exceeded.
-/

namespace CxkFramework.LruCache

open Runs

variable {K V : Type} [DecidableEq K]

/-! ## What should happen -/

/-- What the prune callback was called with. -/
def Event.pruned : Event K V → List (K × V)
  | .set _ _ pruned => pruned
  | _ => []

/-- How many entries a `set` should drop. -/
def evictions (c : LruCache K V) (k : K) : Nat :=
  let size := c.cache.keys.length + 1
  if k ∈ c.cache ∨ c.maxSize = 0 ∨ size < c.maxSize.toNat + c.elasticity.toNat then 0
  else size - c.maxSize.toNat

/-- A `set` of the key drops the `n` least recently used entries, the oldest one first, and keeps
what it has set. -/
structure Evicts (s : Observed K V) (k : K) (n : Nat) (pruned : List (K × V)) (s' : Observed K V) :
    Prop where
  length_eq : pruned.length = n
  present : ∀ p ∈ pruned, p.1 ∈ s.cache.cache ∧ lastSet s.past p.1 = some p.2
  inOrder : pruned.Pairwise (fun p q => age s'.past q.1 < age s'.past p.1)
  oldest : ∀ p ∈ pruned, ∀ j ∈ s'.cache.cache, age s'.past j < age s'.past p.1
  mem_iff : ∀ j, j ∈ s'.cache.cache ↔ (j = k ∨ j ∈ s.cache.cache) ∧ j ∉ pruned.map Prod.fst
  kept : k ∈ s'.cache.cache

/-- Of a step: only a `set` drops something, and it drops what it should. -/
def Prunes (s : Observed K V) : Event K V → Observed K V → Prop
  | .set k _ pruned, s' => Evicts s k (s.cache.evictions k) pruned s'
  | _, _ => True

/-- The most entries there may be. -/
def Bounded (s : Observed K V) : Prop :=
  s.cache.maxSize ≠ 0 → s.cache.cache.keys.length ≤
    max s.cache.maxSize.toNat (s.cache.maxSize.toNat + s.cache.elasticity.toNat - 1)

/-- The counter tells how many entries were dropped. -/
def Counts (s : Observed K V) : Prop :=
  s.cache.status.prune = (s.past.map (fun e => e.pruned.length)).sum

/-- There is room for the sum of the limits in a machine word, or the new entry does not bring the
cache between the first limit and the sum. -/
def SumFits (s : Observed K V) : Event K V → Prop
  | .set k _ _ =>
    let size := s.cache.cache.keys.length + 1
    let sum := s.cache.maxSize.toNat + s.cache.elasticity.toNat
    k ∈ s.cache.cache ∨ s.cache.maxSize = 0 ∨ sum < 2 ^ 64 ∨ size ≤ s.cache.maxSize.toNat ∨ sum ≤ size
  | _ => True

/-! ## The limits and the counter -/

/-- The limits are as before, and `n` more entries were counted. -/
structure Dropped (c : LruCache K V) (n : Nat) (c' : LruCache K V) : Prop where
  maxSize_eq : c'.maxSize = c.maxSize
  elasticity_eq : c'.elasticity = c.elasticity
  prune_eq : c'.status.prune = c.status.prune + n

section Dropped

variable {c c' : LruCache K V}

theorem set_dropped {k : K} {v : V} {pruned : List (K × V)} (h : c.set k v = some (pruned, c')) :
    Dropped c pruned.length c' := by
  rw [set] at h
  dsimp only at h
  split at h
  · obtain ⟨node, -, h⟩ := Option.bind_eq_some_iff.mp h
    cases h
    exact ⟨rfl, rfl, rfl⟩
  · rw [prune] at h
    split at h
    · cases h
      exact ⟨rfl, rfl, rfl⟩
    · obtain ⟨⟨cache, rev, dropped⟩, -, h⟩ := Option.bind_eq_some_iff.mp h
      cases h
      exact ⟨rfl, rfl, rfl⟩

theorem get_dropped {toBool : V → Bool} {k : K} {v v' : V} {ret : Bool}
    (h : c.get toBool k v = some (ret, v', c')) : Dropped c 0 c' := by
  rw [get] at h
  dsimp only at h
  split at h
  · cases h
    exact ⟨rfl, rfl, rfl⟩
  · obtain ⟨node, -, h⟩ := Option.bind_eq_some_iff.mp h
    cases h
    exact ⟨rfl, rfl, rfl⟩

theorem del_dropped {k : K} {ret : Bool} (h : c.del k = some (ret, c')) : Dropped c 0 c' := by
  rw [del] at h
  dsimp only at h
  split at h
  · cases h
    exact ⟨rfl, rfl, rfl⟩
  · obtain ⟨node, -, h⟩ := Option.bind_eq_some_iff.mp h
    cases h
    exact ⟨rfl, rfl, rfl⟩

theorem performs_dropped {toBool : V → Bool} {e : Event K V} (h : Performs toBool c e c') :
    Dropped c e.pruned.length c' := by
  cases e with
  | set k v pruned => exact set_dropped h
  | get k before ret v => exact get_dropped h
  | del k ret => exact del_dropped h
  | exists_ k ret =>
    obtain ⟨-, rfl⟩ := h
    exact ⟨rfl, rfl, rfl⟩
  | clear ret =>
    cases h
    exact ⟨rfl, rfl, rfl⟩

end Dropped

/-! ## The size -/

omit [DecidableEq K] in
theorem kept_le {c : LruCache K V} (hne : c.maxSize ≠ 0) :
    c.kept ≤ max c.maxSize.toNat (c.maxSize.toNat + c.elasticity.toNat - 1) := by
  have hsum : c.getMaxAllowedSize.toNat =
      (c.maxSize.toNat + c.elasticity.toNat) % 2 ^ 64 := UInt64.toNat_add _ _
  have hmod := Nat.mod_le (c.maxSize.toNat + c.elasticity.toNat) (2 ^ 64)
  simp only [kept, hne, false_or]
  split <;> omega

/-- The key an event may bring in. -/
def Event.newKey : Event K V → Option K
  | .set k _ _ => some k
  | _ => none

/-- What every operation keeps: the two containers agree, no other key comes in, and only a `set`
makes the cache grow, not above what is kept then. -/
structure Maintains (c : LruCache K V) (new : Option K) (c' : LruCache K V) : Prop where
  linked : Linked c'.cache c'.keys c'.fresh
  mem : ∀ j ∈ c'.cache, j ∈ c.cache ∨ new = some j
  length_le : c'.keys.length ≤ c.keys.length ∨ c'.keys.length ≤ c.kept

section Maintains

variable {c c' : LruCache K V}

theorem set_maintains {k : K} {v : V} {pruned : List (K × V)} (h : Linked c.cache c.keys c.fresh)
    (hset : c.set k v = some (pruned, c')) : Maintains c (some k) c' := by
  cases hk : c.cache.lookup k with
  | some it =>
    obtain ⟨front, n, back, hkeys, -, hok⟩ := set_present h v hk
    cases hset.symm.trans hok
    rw [hkeys] at h
    refine ⟨h.toFront v, fun j hj => .inl hj, .inl ?_⟩
    simp only [hkeys, List.length_cons, List.length_append]
    omega
  | none =>
    obtain ⟨c'', hok, hkeys, hlinked⟩ := set_absent h v hk
    cases hset.symm.trans hok
    refine ⟨hlinked, ?_, .inr ?_⟩
    · intro j hj
      rw [hlinked.mem_iff, hkeys] at hj
      obtain ⟨n, hn, rfl⟩ := List.mem_map.mp hj
      cases List.mem_cons.mp (List.mem_of_mem_take hn) with
      | inl hnew => exact .inr (by rw [hnew])
      | inr hold => exact .inl ((h.mem_iff _).mpr (List.mem_map_of_mem hold))
    · rw [hkeys, List.length_take]
      exact Nat.min_le_left _ _

theorem get_maintains {toBool : V → Bool} {k : K} {v v' : V} {ret : Bool}
    (h : Linked c.cache c.keys c.fresh) (hget : c.get toBool k v = some (ret, v', c')) :
    Maintains c none c' := by
  cases hk : c.cache.lookup k with
  | some it =>
    obtain ⟨front, n, back, hkeys, -, hok⟩ := get_present toBool h v hk
    cases hget.symm.trans hok
    rw [hkeys] at h
    refine ⟨h.toFront n.value, fun j hj => .inl hj, .inl ?_⟩
    simp only [hkeys, List.length_cons, List.length_append]
    omega
  | none =>
    have hok : c.get toBool k v =
        some (false, v, { c with status := { c.status with get := c.status.get + 1 } }) := by
      simp only [get, hk]
    cases hget.symm.trans hok
    exact ⟨h, fun j hj => .inl hj, .inl le_rfl⟩

theorem del_maintains {k : K} {ret : Bool} (h : Linked c.cache c.keys c.fresh)
    (hdel : c.del k = some (ret, c')) : Maintains c none c' := by
  cases hk : c.cache.lookup k with
  | some it =>
    obtain ⟨front, n, back, hkeys, hkey, hok⟩ := del_present h hk
    cases hdel.symm.trans hok
    rw [hkeys] at h
    refine ⟨hkey ▸ h.erase, fun j hj => .inl (AList.mem_erase.mp hj).2, .inl ?_⟩
    simp only [hkeys, List.length_cons, List.length_append]
    omega
  | none =>
    have hok : c.del k =
        some (false, { c with status := { c.status with del := c.status.del + 1 } }) := by
      simp only [del, hk]
    cases hdel.symm.trans hok
    exact ⟨h, fun j hj => .inl hj, .inl le_rfl⟩

theorem clear_maintains (c : LruCache K V) : Maintains c none c.clear.2 where
  linked := linked_empty _
  mem j hj := absurd hj (AList.notMem_empty j)
  length_le := .inl (Nat.zero_le _)

theorem performs_maintains {toBool : V → Bool} {e : Event K V} (h : Linked c.cache c.keys c.fresh)
    (hperforms : Performs toBool c e c') : Maintains c e.newKey c' := by
  cases e with
  | set k v pruned => exact set_maintains h hperforms
  | get k before ret v => exact get_maintains h hperforms
  | del k ret => exact del_maintains h hperforms
  | exists_ k ret =>
    rw [hperforms.2]
    exact ⟨h, fun j hj => .inl hj, .inl le_rfl⟩
  | clear ret =>
    cases hperforms
    exact clear_maintains c

end Maintains

/-! ## One step -/

omit [DecidableEq K] in
theorem kept_pos (c : LruCache K V) : c.kept ≠ 0 := by
  rw [kept]
  split
  · omega
  · next hout =>
    intro hzero
    exact hout (.inl (UInt64.toNat_inj.mp hzero))

/-- What is dropped from the end of the list comes out with the oldest first. -/
theorem Recorded.dropped {past : List (Event K V)} {front back : List (LruNode K V)}
    (h : Recorded past (front ++ back)) :
    (back.reverse.map (fun n => (n.key, n.value))).Pairwise
        (fun p q => age past q.1 < age past p.1) ∧
      ∀ m ∈ front, ∀ n ∈ back, age past m.key < age past n.key := by
  obtain ⟨-, hback, hacross⟩ := List.pairwise_append.mp h.recency
  refine ⟨?_, hacross⟩
  rw [List.pairwise_map, List.pairwise_reverse]
  exact hback

section Steps

variable {toBool : V → Bool} {s s' : Observed K V}

/-- A new key that comes in front of the first keys, while the others go. -/
theorem evicts_split {k : K} {v : V} {pruned : List (K × V)} {front back : List (LruNode K V)}
    (h : Inv s) (hk : s.cache.cache.lookup k = none) (hkeys : s.cache.keys = front ++ back)
    (hpruned : pruned = back.reverse.map (fun n => (n.key, n.value)))
    (hpast : s'.past = .set k v pruned :: s.past)
    (hkeys' : s'.cache.keys = ⟨s.cache.fresh, k, v⟩ :: front)
    (hlinked' : Linked s'.cache.cache s'.cache.keys s'.cache.fresh) :
    Evicts s k back.length pruned s' := by
  have hnew : k ∉ s.cache.cache := AList.lookup_eq_none.mp hk
  have hinserted := (h.linked.insert v hk).once
  have hrec : Recorded s'.past ((⟨s.cache.fresh, k, v⟩ :: front) ++ back) := by
    rw [hpast, List.cons_append, ← hkeys]
    exact h.recorded_insert v pruned hk
  obtain ⟨hinOrder, hacross⟩ := hrec.dropped
  rw [hkeys, ← List.cons_append, List.map_append] at hinserted
  obtain ⟨-, -, hapart⟩ := List.nodup_append.mp hinserted
  have hmem' := hlinked'.mem_iff
  rw [hkeys'] at hmem'
  subst hpruned
  refine ⟨by simp, ?_, hinOrder, ?_, ?_, ?_⟩
  · intro p hp
    obtain ⟨n, hn, rfl⟩ := List.mem_map.mp hp
    have hn' : n ∈ s.cache.keys := by
      rw [hkeys]
      exact List.mem_append_right front (List.mem_reverse.mp hn)
    exact ⟨(h.linked.mem_iff _).mpr (List.mem_map_of_mem hn'), h.recorded.values n hn'⟩
  · intro p hp j hj
    obtain ⟨n, hn, rfl⟩ := List.mem_map.mp hp
    obtain ⟨m, hm, rfl⟩ := List.mem_map.mp ((hmem' j).mp hj)
    exact hacross m hm n (List.mem_reverse.mp hn)
  · intro j
    have hgone : j ∈ (back.reverse.map fun n => (n.key, n.value)).map Prod.fst ↔
        j ∈ back.map LruNode.key := by simp
    have hnot : j ∈ (⟨s.cache.fresh, k, v⟩ :: front : List (LruNode K V)).map LruNode.key →
        j ∉ back.map LruNode.key := fun hj hb => hapart j hj j hb rfl
    rw [hmem', hgone, h.linked.mem_iff, hkeys, List.map_append, List.mem_append]
    rw [List.map_cons, List.mem_cons] at hnot ⊢
    tauto
  · rw [hmem']
    simp

/-- A new key: what is over the limit are the keys that were used before all others. -/
theorem evicts_absent {k : K} {v : V} {pruned : List (K × V)} (h : Inv s)
    (hk : s.cache.cache.lookup k = none) (hstep : Step toBool s (.set k v pruned) s') :
    Evicts s k (s.cache.keys.length + 1 - s.cache.kept) pruned s' := by
  obtain ⟨hset, hpast⟩ := hstep
  obtain ⟨c', hok, hkeys, hlinked'⟩ := set_absent h.linked v hk
  cases hset.symm.trans hok
  obtain ⟨m, hm⟩ := Nat.exists_eq_succ_of_ne_zero (kept_pos s.cache)
  rw [hm, List.take_succ_cons] at hkeys
  have hback : s.cache.keys.length + 1 - s.cache.kept = (s.cache.keys.drop m).length := by
    rw [hm, List.length_drop]
    omega
  rw [hback]
  refine evicts_split h hk (List.take_append_drop m _).symm ?_ hpast hkeys hlinked'
  rw [hm, List.drop_succ_cons]

/-- A key that is there: nothing goes. -/
theorem evicts_present {k : K} {v : V} {pruned : List (K × V)} {it : Nat} (h : Inv s)
    (hk : s.cache.cache.lookup k = some it) (hstep : Step toBool s (.set k v pruned) s') :
    Evicts s k 0 pruned s' := by
  obtain ⟨hset, -⟩ := hstep
  obtain ⟨front, n, back, -, -, hok⟩ := set_present h.linked v hk
  have hin : k ∈ s.cache.cache := AList.lookup_isSome.mp (by rw [hk]; rfl)
  obtain ⟨rfl, hc⟩ := Prod.mk.injEq .. ▸ Option.some.inj (hset.symm.trans hok)
  have hmem : ∀ j, j ∈ s'.cache.cache ↔ j ∈ s.cache.cache := fun j => by rw [hc]
  refine ⟨rfl, by simp, .nil, by simp, ?_, (hmem k).mpr hin⟩
  intro j
  rw [hmem]
  simp only [List.map_nil, List.not_mem_nil, not_false_eq_true, and_true, iff_or_self]
  rintro rfl
  exact hin

theorem Evicts.length_iff {k : K} {n m : Nat} {pruned : List (K × V)}
    (h : Evicts s k n pruned s') : Evicts s k m pruned s' ↔ n = m := by
  constructor
  · intro h'
    exact h.length_eq.symm.trans h'.length_eq
  · rintro rfl
    exact h

/-- The threshold is what it should be, or it makes no difference. -/
theorem evictions_eq_iff {k : K} (h : Inv s) (hk : k ∉ s.cache.cache) (v : V)
    (pruned : List (K × V)) :
    s.cache.keys.length + 1 - s.cache.kept = s.cache.evictions k ↔ SumFits s (.set k v pruned) := by
  have hsize := h.linked.size_eq
  have hmax := s.cache.maxSize.toNat_lt
  have helasticity := s.cache.elasticity.toNat_lt
  have hsum : s.cache.getMaxAllowedSize.toNat =
      (s.cache.maxSize.toNat + s.cache.elasticity.toNat) % 2 ^ 64 := UInt64.toNat_add _ _
  simp only [evictions, SumFits, kept, hk, hsize, hsum, false_or]
  by_cases hzero : s.cache.maxSize = 0
  · simp [hzero]
  · simp only [hzero, false_or]
    split <;> split <;> omega

theorem step_prunes_iff {e : Event K V} (h : Inv s) (hstep : Step toBool s e s') :
    Prunes s e s' ↔ SumFits s e := by
  cases e with
  | set k v pruned =>
    cases hk : s.cache.cache.lookup k with
    | some it =>
      have hin : k ∈ s.cache.cache := AList.lookup_isSome.mp (by rw [hk]; rfl)
      have hnone : s.cache.evictions k = 0 := by simp [evictions, hin]
      refine iff_of_true ?_ (.inl hin)
      rw [Prunes, hnone]
      exact evicts_present h hk hstep
    | none =>
      have hout : k ∉ s.cache.cache := AList.lookup_eq_none.mp hk
      rw [← evictions_eq_iff h hout v pruned]
      exact (evicts_absent h hk hstep).length_iff
  | get k before ret v => exact Iff.rfl
  | del k ret => exact Iff.rfl
  | exists_ k ret => exact Iff.rfl
  | clear ret => exact Iff.rfl

theorem step_bounded {e : Event K V} (h : Inv s) (h' : Inv s') (hstep : Step toBool s e s')
    (hb : Bounded s) : Bounded s' := by
  have hd := performs_dropped hstep.1
  intro hne
  rw [hd.maxSize_eq] at hne
  rw [hd.maxSize_eq, hd.elasticity_eq, h'.linked.size_eq]
  have hle := hb hne
  rw [h.linked.size_eq] at hle
  cases (performs_maintains h.linked hstep.1).length_le with
  | inl hshrunk => exact le_trans hshrunk hle
  | inr hkept => exact le_trans hkept (kept_le hne)

theorem step_counts {e : Event K V} (hstep : Step toBool s e s') (hc : Counts s) : Counts s' := by
  obtain ⟨hperforms, hpast⟩ := hstep
  rw [Counts, hpast, List.map_cons, List.sum_cons, (performs_dropped hperforms).prune_eq, hc,
    Nat.add_comm]

end Steps

/-- Along every run the cache is no larger than it may be and the counter is right. Each `set`
drops what it should exactly when the sum of the limits, where it matters, is one of the
machine. -/
theorem run_prunes_iff (toBool : V → Bool) (maxSize elasticity : UInt64)
    {t : List (Event K V × Observed K V)} (run : Run (Step toBool) (start maxSize elasticity) t) :
    (Every Prunes (start maxSize elasticity) t ∧ Always Bounded (start maxSize elasticity) t ∧
      Always Counts (start maxSize elasticity) t) ↔ Meets SumFits (start maxSize elasticity) t := by
  have hkeep : ∀ (s : Observed K V) e s', Inv s → Step toBool s e s' → Inv s' := fun s e s' h hstep =>
    (step_faithful_iff h hstep).1
  have hprunes := every_iff_meets Inv Prunes SumFits hkeep
    (fun s e s' h hstep => step_prunes_iff h hstep) run (inv_start maxSize elasticity)
  have hbounded : Always (fun s => Inv s ∧ Bounded s) (start maxSize elasticity) t :=
    always_of_step (fun s e s' h hstep =>
      ⟨hkeep s e s' h.1 hstep, step_bounded h.1 (hkeep s e s' h.1 hstep) hstep h.2⟩) run
      ⟨inv_start maxSize elasticity, fun _ => Nat.zero_le _⟩
  have hcounts : Always Counts (start maxSize elasticity) t :=
    always_of_step (fun s e s' h hstep => step_counts hstep h) run rfl
  rw [← hprunes]
  constructor
  · intro h
    exact h.1
  · intro h
    exact ⟨h, hbounded.mono fun s hs => hs.2, hcounts⟩

/-- Two keys in a cache of one. -/
theorem run_prunes_two_keys : ∃ t : List (Event Nat Nat × Observed Nat Nat),
    Run (Step (fun v => v != 0)) (start 1 0) t ∧ t.length = 2 ∧ Every Prunes (start 1 0) t := by
  have run : Run (Step (fun v => v != 0)) (start 1 0 : Observed Nat Nat) _ :=
    @Run.cons (Observed Nat Nat) (Event Nat Nat) _ _ ⟨_, _⟩ (.set 7 70 []) _ ⟨rfl, rfl⟩
      (@Run.cons (Observed Nat Nat) (Event Nat Nat) _ _ ⟨_, _⟩ (.set 8 80 [(7, 70)]) _ ⟨rfl, rfl⟩
        (.nil _))
  refine ⟨_, run, rfl, ((run_prunes_iff (fun v => v != 0) 1 0 run).mpr ?_).1⟩
  exact ⟨.inr (.inr (.inl (by decide))), .inr (.inr (.inl (by decide))), trivial⟩

/-- With an elasticity of `2^64 - 1` a cache of one drops the first key for the second. -/
theorem run_elasticity_wraps : ∃ t : List (Event Nat Nat × Observed Nat Nat),
    Run (Step (fun v => v != 0)) (start 1 18446744073709551615) t ∧
      ¬Every Prunes (start 1 18446744073709551615) t := by
  have run : Run (Step (fun v => v != 0)) (start 1 18446744073709551615 : Observed Nat Nat) _ :=
    @Run.cons (Observed Nat Nat) (Event Nat Nat) _ _ ⟨_, _⟩ (.set 7 70 []) _ ⟨rfl, rfl⟩
      (@Run.cons (Observed Nat Nat) (Event Nat Nat) _ _ ⟨_, _⟩ (.set 8 80 [(7, 70)]) _ ⟨rfl, rfl⟩
        (.nil _))
  refine ⟨_, run, ?_⟩
  rintro ⟨-, hset, -⟩
  exact absurd hset.length_eq (by decide)

end CxkFramework.LruCache
