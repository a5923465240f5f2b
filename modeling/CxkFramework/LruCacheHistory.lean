import CxkFramework.LruCache

/-!
# The LRU cache against its history

`Linked` says that the two containers describe one map; every operation keeps it and none
ever follows a stale iterator. `Recorded` says what the list means: the most recently used
key comes first and every key has the value it was last set to. Both are read off the list
of past events alone, which is the abstract cache the code is compared with.
-/

namespace CxkFramework.LruCache

open Runs

variable {K V : Type} [DecidableEq K]

/-! ## The two containers -/

/-- `m_cache` and `m_keys` hold the same keys, each once, and the iterator of a key points
at the node of that key. -/
structure Linked (cache : AList (fun _ : K => Nat)) (keys : List (LruNode K V)) (fresh : Nat) :
    Prop where
  ids : (keys.map LruNode.id).Nodup
  fresh_lt : ∀ n ∈ keys, n.id < fresh
  once : (keys.map LruNode.key).Nodup
  iterator : ∀ n ∈ keys, cache.lookup n.key = some n.id
  present : ∀ k ∈ cache, ∃ n ∈ keys, n.key = k

theorem linked_empty (fresh : Nat) :
    Linked (∅ : AList (fun _ : K => Nat)) ([] : List (LruNode K V)) fresh where
  ids := .nil
  fresh_lt n hn := by cases hn
  once := .nil
  iterator n hn := by cases hn
  present k hk := absurd hk (AList.notMem_empty k)

section Linked

variable {cache : AList (fun _ : K => Nat)} {keys : List (LruNode K V)} {fresh : Nat}

theorem Linked.mem_iff (h : Linked cache keys fresh) (k : K) :
    k ∈ cache ↔ k ∈ keys.map LruNode.key := by
  constructor
  · intro hk
    obtain ⟨n, hn, rfl⟩ := h.present k hk
    exact List.mem_map_of_mem hn
  · intro hk
    obtain ⟨n, hn, rfl⟩ := List.mem_map.mp hk
    exact AList.lookup_isSome.mp (by rw [h.iterator n hn]; rfl)

theorem Linked.size_eq (h : Linked cache keys fresh) : cache.keys.length = keys.length := by
  have hperm : cache.keys.Perm (keys.map LruNode.key) := by
    rw [List.perm_ext_iff_of_nodup cache.keys_nodup h.once]
    intro k
    rw [← AList.mem_keys, h.mem_iff]
  rw [hperm.length_eq, List.length_map]

/-- The iterator of a present key leads to its node, wherever that is in the list. -/
theorem Linked.find (h : Linked cache keys fresh) {k : K} {it : Nat}
    (hk : cache.lookup k = some it) : ∃ front n back, keys = front ++ n :: back ∧ n.key = k ∧
      n.id = it ∧ deref keys it = some n ∧ eraseNode keys it = front ++ back := by
  obtain ⟨n, hn, rfl⟩ := h.present k (AList.lookup_isSome.mp (by rw [hk]; rfl))
  have hit : n.id = it := by
    have := h.iterator n hn
    rw [hk] at this
    exact (Option.some.inj this).symm
  obtain ⟨front, back, rfl⟩ := List.append_of_mem hn
  have hids := h.ids
  rw [List.map_append, List.map_cons] at hids
  have hfront : ∀ m ∈ front, ¬(m.id == it) = true := by
    intro m hm he
    have hne := (List.nodup_append.mp hids).2.2 m.id (List.mem_map_of_mem hm) n.id
      List.mem_cons_self
    exact hne ((beq_iff_eq.mp he).trans hit.symm)
  refine ⟨front, n, back, rfl, rfl, hit, ?_, ?_⟩
  · rw [deref, List.find?_append, List.find?_eq_none.mpr hfront]
    simp [hit]
  · rw [eraseNode, List.eraseP_append_right _ hfront]
    simp [hit]

/-- Moving a node to the front, its value changed or not, breaks no iterator. -/
theorem Linked.toFront {front back : List (LruNode K V)} {n : LruNode K V} (v : V)
    (h : Linked cache (front ++ n :: back) fresh) :
    Linked cache ({ n with value := v } :: (front ++ back)) fresh := by
  have hmem : ∀ m ∈ front ++ back, m ∈ front ++ n :: back := by
    intro m hm
    simp only [List.mem_append, List.mem_cons] at hm ⊢
    tauto
  have hn : n ∈ front ++ n :: back := by simp
  refine ⟨?_, ?_, ?_, ?_, ?_⟩
  · have hids := h.ids
    rw [List.map_append, List.map_cons, List.nodup_middle] at hids
    simpa using hids
  · intro m hm
    rcases List.mem_cons.mp hm with rfl | hm
    · exact h.fresh_lt n hn
    · exact h.fresh_lt m (hmem m hm)
  · have honce := h.once
    rw [List.map_append, List.map_cons, List.nodup_middle] at honce
    simpa using honce
  · intro m hm
    rcases List.mem_cons.mp hm with rfl | hm
    · exact h.iterator n hn
    · exact h.iterator m (hmem m hm)
  · intro k hk
    obtain ⟨m, hm, rfl⟩ := h.present k hk
    simp only [List.mem_append, List.mem_cons] at hm
    rcases hm with hm | rfl | hm
    · exact ⟨m, by simp [hm], rfl⟩
    · exact ⟨_, List.mem_cons_self, rfl⟩
    · exact ⟨m, by simp [hm], rfl⟩

/-- Dropping a node together with the entry of its key. -/
theorem Linked.erase {front back : List (LruNode K V)} {n : LruNode K V}
    (h : Linked cache (front ++ n :: back) fresh) :
    Linked (cache.erase n.key) (front ++ back) fresh := by
  have honce := h.once
  rw [List.map_append, List.map_cons, List.nodup_middle, ← List.map_append] at honce
  have hids := h.ids
  rw [List.map_append, List.map_cons, List.nodup_middle, ← List.map_append] at hids
  have hmem : ∀ m ∈ front ++ back, m ∈ front ++ n :: back := by
    intro m hm
    simp only [List.mem_append, List.mem_cons] at hm ⊢
    tauto
  refine ⟨(List.nodup_cons.mp hids).2, fun m hm => h.fresh_lt m (hmem m hm),
    (List.nodup_cons.mp honce).2, ?_, ?_⟩
  · intro m hm
    have hne : m.key ≠ n.key := fun he =>
      (List.nodup_cons.mp honce).1 (he ▸ List.mem_map_of_mem hm)
    rw [AList.lookup_erase_ne hne]
    exact h.iterator m (hmem m hm)
  · intro k hk
    obtain ⟨hne, hk⟩ := AList.mem_erase.mp hk
    obtain ⟨m, hm, rfl⟩ := h.present k hk
    refine ⟨m, ?_, rfl⟩
    simp only [List.mem_append, List.mem_cons] at hm ⊢
    rcases hm with hm | rfl | hm
    · exact .inl hm
    · exact absurd rfl hne
    · exact .inr hm

theorem Linked.insert (h : Linked cache keys fresh) {k : K} (v : V)
    (hk : cache.lookup k = none) :
    Linked (cache.insert k fresh) (⟨fresh, k, v⟩ :: keys) (fresh + 1) := by
  have hnew : k ∉ keys.map LruNode.key := by
    rw [← h.mem_iff]
    exact AList.lookup_eq_none.mp hk
  refine ⟨?_, ?_, ?_, ?_, ?_⟩
  · rw [List.map_cons, List.nodup_cons]
    refine ⟨?_, h.ids⟩
    intro hmem
    obtain ⟨n, hn, hid⟩ := List.mem_map.mp hmem
    have hlt := h.fresh_lt n hn
    dsimp only at hid
    omega
  · intro n hn
    rcases List.mem_cons.mp hn with rfl | hn
    · exact Nat.lt_succ_self fresh
    · exact Nat.lt_succ_of_lt (h.fresh_lt n hn)
  · exact List.nodup_cons.mpr ⟨hnew, h.once⟩
  · intro n hn
    rcases List.mem_cons.mp hn with rfl | hn
    · exact AList.lookup_insert cache
    · have hne : n.key ≠ k := fun he => hnew (he ▸ List.mem_map_of_mem hn)
      rw [AList.lookup_insert_ne hne]
      exact h.iterator n hn
  · intro j hj
    rcases (AList.mem_insert cache).mp hj with rfl | hj
    · exact ⟨_, List.mem_cons_self, rfl⟩
    · obtain ⟨n, hn, rfl⟩ := h.present j hj
      exact ⟨n, List.mem_cons_of_mem _ hn, rfl⟩

/-- The loop of `prune` stops with `maxSize` nodes, having dropped the others from the back. -/
theorem Linked.pruneLoop_eq (maxSize : Nat) {rev : List (LruNode K V)}
    (h : Linked cache rev.reverse fresh) :
    ∃ cache', pruneLoop maxSize cache rev = some (cache', rev.drop (rev.length - maxSize),
        (rev.take (rev.length - maxSize)).map (fun n => (n.key, n.value))) ∧
      Linked cache' (rev.drop (rev.length - maxSize)).reverse fresh := by
  induction rev generalizing cache with
  | nil =>
    have hsize := h.size_eq
    rw [List.reverse_nil, List.length_nil] at hsize
    refine ⟨cache, ?_, by simpa using h⟩
    rw [pruneLoop, if_neg (by omega)]
    simp
  | cons back rest ih =>
    have hsize := h.size_eq
    rw [List.length_reverse] at hsize
    rw [pruneLoop]
    by_cases hgt : cache.keys.length > maxSize
    · have hrest : Linked (cache.erase back.key) rest.reverse fresh := by
        rw [List.reverse_cons] at h
        simpa using h.erase
      obtain ⟨cache', hok, h'⟩ := ih hrest
      have hcount : (back :: rest).length - maxSize = rest.length - maxSize + 1 := by
        rw [List.length_cons] at hsize ⊢
        omega
      rw [hcount]
      refine ⟨cache', ?_, h'⟩
      rw [if_pos hgt, hok]
      rfl
    · have hcount : (back :: rest).length - maxSize = 0 := by omega
      rw [hcount, if_neg hgt]
      exact ⟨cache, rfl, h⟩

end Linked

/-! ## Histories -/

/-- A call with its results. -/
inductive Event (K V : Type) where
  | set (k : K) (v : V) (pruned : List (K × V))
  | get (k : K) (before : V) (ret : Bool) (v : V)
  | del (k : K) (ret : Bool)
  | exists_ (k : K) (ret : Bool)
  | clear (ret : Bool)

/-- `get` and `set` use a key. -/
def Event.uses (k : K) : Event K V → Bool
  | .set j _ _ => j = k
  | .get j _ _ _ => j = k
  | _ => false

/-- How many events lie after the last use of the key; the newest event comes first. -/
def age (past : List (Event K V)) (k : K) : Nat := past.findIdx (Event.uses k)

/-- The last value set for the key. -/
def lastSet : List (Event K V) → K → Option V
  | [], _ => none
  | .set j v _ :: past, k => if j = k then some v else lastSet past k
  | _ :: past, k => lastSet past k

/-- `m_keys` lists the keys from the most to the least recently used one, each with the
value it was last set to. -/
structure Recorded (past : List (Event K V)) (keys : List (LruNode K V)) : Prop where
  recency : keys.Pairwise (fun m n => age past m.key < age past n.key)
  values : ∀ n ∈ keys, lastSet past n.key = some n.value

theorem age_cons (e : Event K V) (past : List (Event K V)) (k : K) :
    age (e :: past) k = if e.uses k then 0 else age past k + 1 := by
  rw [age, List.findIdx_cons, age]
  cases e.uses k <;> rfl

theorem age_cons_of_not {e : Event K V} {k : K} (h : e.uses k = false)
    (past : List (Event K V)) : age (e :: past) k = age past k + 1 := by
  rw [age_cons, h]
  rfl

theorem lastSet_cons_of_not {e : Event K V} {k : K} (h : e.uses k = false)
    (past : List (Event K V)) : lastSet (e :: past) k = lastSet past k := by
  cases e with
  | set j v pruned =>
    have hne : ¬j = k := by simpa [Event.uses] using h
    rw [lastSet, if_neg hne]
  | get j before ret v => rfl
  | del j ret => rfl
  | exists_ j ret => rfl
  | clear ret => rfl

section Recorded

variable {past : List (Event K V)} {keys : List (LruNode K V)}

theorem Recorded.sublist {keys' : List (LruNode K V)} (h : Recorded past keys)
    (hs : keys'.Sublist keys) : Recorded past keys' :=
  ⟨h.recency.sublist hs, fun n hn => h.values n (hs.subset hn)⟩

/-- An event that uses none of the keys makes them all older. -/
theorem Recorded.older {e : Event K V} (h : Recorded past keys)
    (huse : ∀ n ∈ keys, e.uses n.key = false) : Recorded (e :: past) keys := by
  refine ⟨?_, fun n hn => (lastSet_cons_of_not (huse n hn) past).trans (h.values n hn)⟩
  refine h.recency.imp_of_mem ?_
  intro m n hm hn hlt
  rw [age_cons_of_not (huse m hm), age_cons_of_not (huse n hn)]
  omega

/-- The key an event uses becomes the youngest. -/
theorem Recorded.cons {e : Event K V} {n : LruNode K V} (h : Recorded (e :: past) keys)
    (huse : e.uses n.key = true) (hset : lastSet (e :: past) n.key = some n.value)
    (hothers : ∀ m ∈ keys, e.uses m.key = false) : Recorded (e :: past) (n :: keys) := by
  refine ⟨List.pairwise_cons.mpr ⟨?_, h.recency⟩, ?_⟩
  · intro m hm
    rw [age_cons, age_cons_of_not (hothers m hm), huse, if_pos rfl]
    exact Nat.succ_pos _
  · intro m hm
    rcases List.mem_cons.mp hm with rfl | hm
    · exact hset
    · exact h.values m hm

end Recorded

/-- A cache together with the events that led to it. -/
structure Observed (K V : Type) where
  past : List (Event K V)
  cache : LruCache K V

/-- The event is what the code does in this cache. -/
def Performs (toBool : V → Bool) (c : LruCache K V) : Event K V → LruCache K V → Prop
  | .set k v pruned, c' => c.set k v = some (pruned, c')
  | .get k before ret v, c' => c.get toBool k before = some (ret, v, c')
  | .del k ret, c' => c.del k = some (ret, c')
  | .exists_ k ret, c' => c.exists_ k = ret ∧ c' = c
  | .clear ret, c' => c.clear = (ret, c')

def Step (toBool : V → Bool) (s : Observed K V) (e : Event K V) (s' : Observed K V) : Prop :=
  Performs toBool s.cache e s'.cache ∧ s'.past = e :: s.past

structure Inv (s : Observed K V) : Prop where
  linked : Linked s.cache.cache s.cache.keys s.cache.fresh
  recorded : Recorded s.past s.cache.keys

/-! ## What each operation does -/

section Operations

variable {c : LruCache K V}

/-- How many nodes are left after a new key was set. -/
def kept (c : LruCache K V) : Nat :=
  if c.maxSize = 0 ∨ c.keys.length + 1 < c.getMaxAllowedSize.toNat then c.keys.length + 1
  else c.maxSize.toNat

theorem set_present (h : Linked c.cache c.keys c.fresh) {k : K} (v : V) {it : Nat}
    (hk : c.cache.lookup k = some it) : ∃ front n back, c.keys = front ++ n :: back ∧ n.key = k ∧
      c.set k v = some ([], { c with
        status := { c.status with set := c.status.set + 1 }
        keys := { n with value := v } :: (front ++ back) }) := by
  obtain ⟨front, n, back, hkeys, hkey, -, hderef, herase⟩ := h.find hk
  refine ⟨front, n, back, hkeys, hkey, ?_⟩
  simp only [set, hk, hderef, herase]
  rfl

theorem drop_reverse_reverse {α : Type*} (l : List α) (m : Nat) :
    (l.reverse.drop (l.length - m)).reverse = l.take m := by
  rw [List.drop_reverse, List.reverse_reverse]
  rcases Nat.le_total m l.length with h | h
  · rw [Nat.sub_sub_self h]
  · rw [Nat.sub_eq_zero_of_le h, Nat.sub_zero, List.take_length, List.take_of_length_le h]

theorem take_reverse_sub {α : Type*} (l : List α) (m : Nat) :
    l.reverse.take (l.length - m) = (l.drop m).reverse := by
  rw [List.take_reverse]
  rcases Nat.le_total m l.length with h | h
  · rw [Nat.sub_sub_self h]
  · rw [Nat.sub_eq_zero_of_le h, Nat.sub_zero, List.drop_length, List.drop_of_length_le h]

/-- A new key comes first; what is over the limit is dropped from the other end. -/
theorem set_absent (h : Linked c.cache c.keys c.fresh) {k : K} (v : V)
    (hk : c.cache.lookup k = none) : ∃ c', c.set k v =
        some ((((⟨c.fresh, k, v⟩ :: c.keys).drop c.kept).reverse).map (fun n => (n.key, n.value)), c') ∧
      c'.keys = (⟨c.fresh, k, v⟩ :: c.keys).take c.kept ∧ Linked c'.cache c'.keys c'.fresh := by
  have hnew := h.insert v hk
  have hsize := hnew.size_eq
  rw [List.length_cons] at hsize
  by_cases hin : c.maxSize = 0 ∨ c.keys.length + 1 < c.getMaxAllowedSize.toNat
  · have hkept : c.kept = (⟨c.fresh, k, v⟩ :: c.keys).length := by
      rw [kept, if_pos hin, List.length_cons]
    refine ⟨{ c with
      status := { c.status with set := c.status.set + 1 }
      keys := ⟨c.fresh, k, v⟩ :: c.keys
      cache := c.cache.insert k c.fresh
      fresh := c.fresh + 1 }, ?_, ?_, hnew⟩
    · rw [getMaxAllowedSize] at hin
      simp only [set, hk, prune, getMaxAllowedSize, hsize, hin, if_true, hkept, List.drop_length]
      rfl
    · rw [hkept, List.take_length]
  · have hkept : c.kept = c.maxSize.toNat := by rw [kept, if_neg hin]
    have hrev : Linked (c.cache.insert k c.fresh) (⟨c.fresh, k, v⟩ :: c.keys).reverse.reverse
        (c.fresh + 1) := by rwa [List.reverse_reverse]
    obtain ⟨cache', hloop, h'⟩ := hrev.pruneLoop_eq c.maxSize.toNat
    rw [List.length_reverse, drop_reverse_reverse] at h'
    rw [List.length_reverse, take_reverse_sub] at hloop
    refine ⟨{ c with
      status := { c.status with
        set := c.status.set + 1
        prune := c.status.prune + ((⟨c.fresh, k, v⟩ :: c.keys).drop c.maxSize.toNat).length }
      keys := (⟨c.fresh, k, v⟩ :: c.keys).take c.maxSize.toNat
      cache := cache'
      fresh := c.fresh + 1 }, ?_, by rw [hkept], h'⟩
    rw [getMaxAllowedSize] at hin
    simp only [set, hk, prune, getMaxAllowedSize, hsize, hin, if_false, hloop, hkept,
      Option.bind_eq_bind, Option.bind_some, drop_reverse_reverse, List.length_map,
      List.length_reverse]

theorem get_present (toBool : V → Bool) (h : Linked c.cache c.keys c.fresh) {k : K} (before : V)
    {it : Nat} (hk : c.cache.lookup k = some it) : ∃ front n back,
      c.keys = front ++ n :: back ∧ n.key = k ∧
      c.get toBool k before = some (toBool n.value, n.value, { c with
        keys := n :: (front ++ back)
        status := { c.status with get := c.status.get + 1, hit := c.status.hit + 1 } }) := by
  obtain ⟨front, n, back, hkeys, hkey, -, hderef, herase⟩ := h.find hk
  refine ⟨front, n, back, hkeys, hkey, ?_⟩
  simp only [get, hk, hderef, herase]
  rfl

theorem del_present (h : Linked c.cache c.keys c.fresh) {k : K} {it : Nat}
    (hk : c.cache.lookup k = some it) : ∃ front n back,
      c.keys = front ++ n :: back ∧ n.key = k ∧ c.del k = some (true, { c with
        keys := front ++ back
        cache := c.cache.erase k
        status := { c.status with del := c.status.del + 1 } }) := by
  obtain ⟨front, n, back, hkeys, hkey, -, hderef, herase⟩ := h.find hk
  refine ⟨front, n, back, hkeys, hkey, ?_⟩
  simp only [del, hk, hderef, herase]
  rfl

theorem set_isSome (h : Linked c.cache c.keys c.fresh) (k : K) (v : V) : (c.set k v).isSome := by
  cases hk : c.cache.lookup k with
  | some it =>
    obtain ⟨_, _, _, -, -, hok⟩ := set_present h v hk
    rw [hok]
    rfl
  | none =>
    obtain ⟨_, hok, -⟩ := set_absent h v hk
    rw [hok]
    rfl

theorem get_isSome (toBool : V → Bool) (h : Linked c.cache c.keys c.fresh) (k : K) (v : V) :
    (c.get toBool k v).isSome := by
  cases hk : c.cache.lookup k with
  | some it =>
    obtain ⟨_, _, _, -, -, hok⟩ := get_present toBool h v hk
    rw [hok]
    rfl
  | none => simp [get, hk]

theorem del_isSome (h : Linked c.cache c.keys c.fresh) (k : K) : (c.del k).isSome := by
  cases hk : c.cache.lookup k with
  | some it =>
    obtain ⟨_, _, _, -, -, hok⟩ := del_present h hk
    rw [hok]
    rfl
  | none => simp [del, hk]

end Operations

/-! ## Every run -/

/-- What a caller may expect of a call: `get`, `del` and `exists` report whether the key is
there, `get` delivers the value last set, and a key goes only by `del`, `clear` or `prune`. -/
def Faithful (s : Observed K V) (e : Event K V) (s' : Observed K V) : Prop :=
  (match e with
    | .set _ _ _ => True
    | .get k _ ret v => (ret = true ↔ k ∈ s.cache.cache) ∧
        (k ∈ s.cache.cache → lastSet s.past k = some v)
    | .del k ret => ret = true ↔ k ∈ s.cache.cache
    | .exists_ k ret => ret = true ↔ k ∈ s.cache.cache
    | .clear ret => ret = true) ∧
  ∀ k ∈ s.cache.cache, k ∉ s'.cache.cache →
    (∃ ret, e = .del k ret) ∨ (∃ ret, e = .clear ret) ∨
      ∃ j v pruned w, e = .set j v pruned ∧ (k, w) ∈ pruned

/-- A `get` of a present key finds a value that converts to `true`. -/
def FindsTrue (toBool : V → Bool) (s : Observed K V) : Event K V → Prop
  | .get k _ _ _ => ∀ n ∈ s.cache.keys, n.key = k → toBool n.value = true
  | _ => True

section Steps

variable {toBool : V → Bool} {s s' : Observed K V}

/-- A new key comes first among the keys that were there. -/
theorem Inv.recorded_insert (h : Inv s) {k : K} (v : V) (pruned : List (K × V))
    (hk : s.cache.cache.lookup k = none) :
    Recorded (.set k v pruned :: s.past) (⟨s.cache.fresh, k, v⟩ :: s.cache.keys) := by
  have hothers : ∀ m ∈ s.cache.keys, (Event.set k v pruned).uses m.key = false := by
    intro m hm
    have hne : ¬k = m.key := by
      rintro rfl
      exact AList.lookup_eq_none.mp hk ((h.linked.mem_iff _).mpr (List.mem_map_of_mem hm))
    simp [Event.uses, hne]
  exact (h.recorded.older hothers).cons (by simp [Event.uses]) (by simp [lastSet]) hothers

theorem step_set {k : K} {v : V} {pruned : List (K × V)} (h : Inv s)
    (hstep : Step toBool s (.set k v pruned) s') :
    Inv s' ∧ Faithful s (.set k v pruned) s' := by
  obtain ⟨past', c'⟩ := s'
  obtain ⟨hset, rfl⟩ := hstep
  have hlinked := h.linked
  cases hk : s.cache.cache.lookup k with
  | some it =>
    obtain ⟨front, n, back, hkeys, rfl, hok⟩ := set_present hlinked v hk
    rw [Performs, hok] at hset
    simp only [Option.some.injEq, Prod.mk.injEq] at hset
    obtain ⟨rfl, rfl⟩ := hset
    rw [hkeys] at hlinked
    have honce := hlinked.once
    rw [List.map_append, List.map_cons, List.nodup_middle, ← List.map_append] at honce
    have hrec := h.recorded
    rw [hkeys] at hrec
    have hothers : ∀ m ∈ front ++ back, (Event.set n.key v []).uses m.key = false := by
      intro m hm
      have hne : ¬n.key = m.key := fun he =>
        (List.nodup_cons.mp honce).1 (he ▸ List.mem_map_of_mem hm)
      simp [Event.uses, hne]
    have hsub : (front ++ back).Sublist (front ++ n :: back) :=
      (List.Sublist.refl front).append (List.sublist_cons_self n back)
    refine ⟨⟨hlinked.toFront v, ?_⟩, trivial, fun j hj hgone => absurd hj hgone⟩
    refine ((hrec.sublist hsub).older hothers).cons ?_ ?_ hothers
    · simp [Event.uses]
    · simp [lastSet]
  | none =>
    obtain ⟨c'', hok, hkeys, hlinked'⟩ := set_absent hlinked v hk
    rw [Performs, hok] at hset
    simp only [Option.some.injEq, Prod.mk.injEq] at hset
    obtain ⟨rfl, rfl⟩ := hset
    refine ⟨⟨hlinked', ?_⟩, trivial, ?_⟩
    · rw [hkeys]
      exact (h.recorded_insert v _ hk).sublist (List.take_sublist _ _)
    · intro j hj hgone
      rw [hlinked.mem_iff] at hj
      rw [hlinked'.mem_iff, hkeys] at hgone
      obtain ⟨m, hm, rfl⟩ := List.mem_map.mp hj
      have hmem : m ∈ ((⟨s.cache.fresh, k, v⟩ :: s.cache.keys).drop s.cache.kept) := by
        have hall := List.mem_cons_of_mem ⟨s.cache.fresh, k, v⟩ hm
        rw [← List.take_append_drop s.cache.kept (⟨s.cache.fresh, k, v⟩ :: s.cache.keys)] at hall
        rcases List.mem_append.mp hall with ht | hd
        · exact absurd (List.mem_map_of_mem ht) hgone
        · exact hd
      refine .inr (.inr ⟨k, v, _, m.value, rfl, ?_⟩)
      exact List.mem_map.mpr ⟨m, List.mem_reverse.mpr hmem, rfl⟩

theorem step_get {k : K} {before v : V} {ret : Bool} (h : Inv s)
    (hstep : Step toBool s (.get k before ret v) s') :
    Inv s' ∧ (Faithful s (.get k before ret v) s' ↔ FindsTrue toBool s (.get k before ret v)) := by
  obtain ⟨past', c'⟩ := s'
  obtain ⟨hget, rfl⟩ := hstep
  have hlinked := h.linked
  cases hk : s.cache.cache.lookup k with
  | some it =>
    have hin : k ∈ s.cache.cache := AList.lookup_isSome.mp (by rw [hk]; rfl)
    obtain ⟨front, n, back, hkeys, rfl, hok⟩ := get_present toBool hlinked before hk
    rw [Performs, hok] at hget
    simp only [Option.some.injEq, Prod.mk.injEq] at hget
    obtain ⟨rfl, rfl, rfl⟩ := hget
    rw [hkeys] at hlinked
    have honce := hlinked.once
    rw [List.map_append, List.map_cons, List.nodup_middle, ← List.map_append] at honce
    have hrec := h.recorded
    rw [hkeys] at hrec
    have hne : ∀ m ∈ front ++ back, ¬n.key = m.key := fun m hm he =>
      (List.nodup_cons.mp honce).1 (he ▸ List.mem_map_of_mem hm)
    have hothers : ∀ m ∈ front ++ back,
        (Event.get n.key before (toBool n.value) n.value).uses m.key = false := by
      intro m hm
      simp [Event.uses, hne m hm]
    have hsub : (front ++ back).Sublist (front ++ n :: back) :=
      (List.Sublist.refl front).append (List.sublist_cons_self n back)
    have hvalue : lastSet s.past n.key = some n.value := hrec.values n (by simp)
    refine ⟨⟨hlinked.toFront n.value, ?_⟩, ?_, ?_⟩
    · exact ((hrec.sublist hsub).older hothers).cons (by simp [Event.uses]) hvalue hothers
    · rintro ⟨⟨hret, -⟩, -⟩ m hm hkey
      -- the key has one node only
      rw [hkeys] at hm
      have hmn : m = n := by
        by_contra hmn
        refine hne m ?_ hkey.symm
        simp only [List.mem_append, List.mem_cons] at hm ⊢
        tauto
      rw [hmn]
      exact hret.mpr hin
    · intro htrue
      have hn : toBool n.value = true := htrue n (by rw [hkeys]; simp) rfl
      exact ⟨⟨iff_of_true hn hin, fun _ => hvalue⟩, fun j hj hgone => absurd hj hgone⟩
  | none =>
    have hout : k ∉ s.cache.cache := AList.lookup_eq_none.mp hk
    have hok : s.cache.get toBool k before = some (false, before, { s.cache with
        status := { s.cache.status with get := s.cache.status.get + 1 } }) := by
      simp only [get, hk]
    rw [Performs, hok] at hget
    simp only [Option.some.injEq, Prod.mk.injEq] at hget
    obtain ⟨rfl, rfl, rfl⟩ := hget
    have hnot : ∀ n ∈ s.cache.keys, ¬k = n.key := by
      rintro n hn rfl
      exact hout ((hlinked.mem_iff _).mpr (List.mem_map_of_mem hn))
    refine ⟨⟨hlinked, h.recorded.older fun n hn => by simp [Event.uses, hnot n hn]⟩,
      fun _ n hn hkey => absurd hkey.symm (hnot n hn), fun _ => ?_⟩
    exact ⟨⟨iff_of_false Bool.false_ne_true hout, fun hin => absurd hin hout⟩,
      fun j hj hgone => absurd hj hgone⟩

theorem step_del {k : K} {ret : Bool} (h : Inv s) (hstep : Step toBool s (.del k ret) s') :
    Inv s' ∧ Faithful s (.del k ret) s' := by
  obtain ⟨past', c'⟩ := s'
  obtain ⟨hdel, rfl⟩ := hstep
  have hlinked := h.linked
  cases hk : s.cache.cache.lookup k with
  | some it =>
    have hin : k ∈ s.cache.cache := AList.lookup_isSome.mp (by rw [hk]; rfl)
    obtain ⟨front, n, back, hkeys, rfl, hok⟩ := del_present hlinked hk
    rw [Performs, hok] at hdel
    simp only [Option.some.injEq, Prod.mk.injEq] at hdel
    obtain ⟨rfl, rfl⟩ := hdel
    rw [hkeys] at hlinked
    have hrec := h.recorded
    rw [hkeys] at hrec
    have hsub : (front ++ back).Sublist (front ++ n :: back) :=
      (List.Sublist.refl front).append (List.sublist_cons_self n back)
    refine ⟨⟨hlinked.erase, (hrec.sublist hsub).older fun m hm => rfl⟩, iff_of_true rfl hin, ?_⟩
    intro j hj hgone
    have hjn : j = n.key := by
      by_contra hne
      exact hgone (AList.mem_erase.mpr ⟨hne, hj⟩)
    exact .inl ⟨true, by rw [hjn]⟩
  | none =>
    have hout : k ∉ s.cache.cache := AList.lookup_eq_none.mp hk
    have hok : s.cache.del k = some (false, { s.cache with
        status := { s.cache.status with del := s.cache.status.del + 1 } }) := by
      simp only [del, hk]
    rw [Performs, hok] at hdel
    simp only [Option.some.injEq, Prod.mk.injEq] at hdel
    obtain ⟨rfl, rfl⟩ := hdel
    exact ⟨⟨hlinked, h.recorded.older fun n hn => rfl⟩, iff_of_false Bool.false_ne_true hout,
      fun j hj hgone => absurd hj hgone⟩

theorem step_exists {k : K} {ret : Bool} (h : Inv s) (hstep : Step toBool s (.exists_ k ret) s') :
    Inv s' ∧ Faithful s (.exists_ k ret) s' := by
  obtain ⟨past', c'⟩ := s'
  obtain ⟨⟨rfl, rfl⟩, rfl⟩ := hstep
  exact ⟨⟨h.linked, h.recorded.older fun n hn => rfl⟩, AList.lookup_isSome,
    fun j hj hgone => absurd hj hgone⟩

theorem step_clear {ret : Bool} (hstep : Step toBool s (.clear ret) s') :
    Inv s' ∧ Faithful s (.clear ret) s' := by
  obtain ⟨past', c'⟩ := s'
  obtain ⟨hclear, rfl⟩ := hstep
  cases hclear
  exact ⟨⟨linked_empty _, .nil, fun n hn => by cases hn⟩, rfl, fun j hj hgone => .inr (.inl ⟨true, rfl⟩)⟩

/-- One event keeps the invariant and is faithful exactly when it is not a `get` of a value
that converts to `false`. -/
theorem step_faithful_iff {e : Event K V} (h : Inv s) (hstep : Step toBool s e s') :
    Inv s' ∧ (Faithful s e s' ↔ FindsTrue toBool s e) := by
  cases e with
  | set k v pruned =>
    obtain ⟨hinv, hf⟩ := step_set h hstep
    exact ⟨hinv, iff_of_true hf trivial⟩
  | get k before ret v => exact step_get h hstep
  | del k ret =>
    obtain ⟨hinv, hf⟩ := step_del h hstep
    exact ⟨hinv, iff_of_true hf trivial⟩
  | exists_ k ret =>
    obtain ⟨hinv, hf⟩ := step_exists h hstep
    exact ⟨hinv, iff_of_true hf trivial⟩
  | clear ret =>
    obtain ⟨hinv, hf⟩ := step_clear hstep
    exact ⟨hinv, iff_of_true hf trivial⟩

/-- No call follows a stale iterator. -/
def Returns (toBool : V → Bool) (s : Observed K V) : Prop :=
  (∀ k v, (s.cache.set k v).isSome) ∧ (∀ k v, (s.cache.get toBool k v).isSome) ∧
    ∀ k, (s.cache.del k).isSome

theorem Inv.returns (h : Inv s) : Returns toBool s :=
  ⟨set_isSome h.linked, get_isSome toBool h.linked, del_isSome h.linked⟩

end Steps

/-- A cache that was just built. -/
def start (maxSize elasticity : UInt64) : Observed K V := ⟨[], new maxSize elasticity⟩

theorem inv_start (maxSize elasticity : UInt64) : Inv (start maxSize elasticity : Observed K V) where
  linked := linked_empty _
  recorded := ⟨.nil, fun n hn => by cases hn⟩

/-- Along every run the containers agree, the order is that of use, every value is the last
one set and every call returns. All answers are right exactly when no `get` meets a stored
value that converts to `false`. -/
theorem run_lru_iff (toBool : V → Bool) (maxSize elasticity : UInt64)
    {t : List (Event K V × Observed K V)} (run : Run (Step toBool) (start maxSize elasticity) t) :
    (Always Inv (start maxSize elasticity) t ∧ Always (Returns toBool) (start maxSize elasticity) t ∧
      Every Faithful (start maxSize elasticity) t) ↔
    Meets (FindsTrue toBool) (start maxSize elasticity) t := by
  have hkeep : ∀ (s : Observed K V) e s', Inv s → Step toBool s e s' → Inv s' := fun s e s' h hstep =>
    (step_faithful_iff h hstep).1
  have hinv := always_of_step hkeep run (inv_start maxSize elasticity)
  have hfaithful := every_iff_meets Inv Faithful (FindsTrue toBool) hkeep
    (fun s e s' h hstep => (step_faithful_iff h hstep).2) run (inv_start maxSize elasticity)
  rw [← hfaithful]
  constructor
  · rintro ⟨-, -, hf⟩
    exact hf
  · intro hf
    exact ⟨hinv, hinv.mono fun s hs => hs.returns, hf⟩

/-- Two keys in a cache of one, then the one that is left is asked for. -/
theorem run_lru_two_keys : ∃ t : List (Event Nat Nat × Observed Nat Nat),
    Run (Step (fun v => v != 0)) (start 1 0) t ∧ t.length = 3 ∧ Every Faithful (start 1 0) t := by
  have run : Run (Step (fun v => v != 0)) (start 1 0 : Observed Nat Nat) _ :=
    @Run.cons (Observed Nat Nat) (Event Nat Nat) _ _ ⟨_, _⟩ (.set 7 70 []) _ ⟨rfl, rfl⟩
      (@Run.cons (Observed Nat Nat) (Event Nat Nat) _ _ ⟨_, _⟩ (.set 8 80 [(7, 70)]) _ ⟨rfl, rfl⟩
        (@Run.cons (Observed Nat Nat) (Event Nat Nat) _ _ ⟨_, _⟩ (.get 8 0 true 80) _ ⟨rfl, rfl⟩ (.nil _)))
  refine ⟨_, run, rfl, ((run_lru_iff (fun v => v != 0) 1 0 run).mpr ?_).2.2⟩
  refine ⟨trivial, trivial, fun n hn _ => ?_, trivial⟩
  rw [List.mem_singleton.mp hn]
  rfl

/-- `set(0, 0)`, then `get(0, v)`: the key is there and the result is `false`. -/
theorem run_get_zero : ∃ t : List (Event Nat Nat × Observed Nat Nat),
    Run (Step (fun v => v != 0)) (start 30 10) t ∧ ¬Every Faithful (start 30 10) t := by
  have run : Run (Step (fun v => v != 0)) (start 30 10 : Observed Nat Nat) _ :=
    @Run.cons (Observed Nat Nat) (Event Nat Nat) _ _ ⟨_, _⟩ (.set 0 0 []) _ ⟨rfl, rfl⟩
      (@Run.cons (Observed Nat Nat) (Event Nat Nat) _ _ ⟨_, _⟩ (.get 0 1 false 0) _ ⟨rfl, rfl⟩ (.nil _))
  refine ⟨_, run, ?_⟩
  rintro ⟨-, ⟨⟨hret, -⟩, -⟩, -⟩
  exact Bool.false_ne_true (hret.mpr (AList.lookup_isSome.mp rfl))

end CxkFramework.LruCache
