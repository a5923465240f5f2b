import CxkFramework.LruCachePrune
import Mathlib.Tactic

/-!
# The LRU cache in buckets

`HashLruCache` spreads its keys over LRU caches of their own and divides its limits among them,
rounded up. Its constructor has a parameter with the name of the member `m_elasticity` and so
assigns to that: until `setElasticity` is called the member holds what was in its memory. The
buckets count their operations in one common place, which is left out.
-/

namespace CxkFramework

/-- `cxk::ds::HashLruCache`. -/
structure HashLruCache (K V : Type) where
  datas : List (LruCache K V)
  maxSize : UInt64
  bucket : UInt64
  elasticity : UInt64
  hash : K → UInt64

namespace LruCache

variable {K V : Type}

def size (c : LruCache K V) : Nat := c.cache.keys.length

def setMaxSize (maxSize : UInt64) (c : LruCache K V) : LruCache K V := { c with maxSize := maxSize }

def setElasticity (elasticity : UInt64) (c : LruCache K V) : LruCache K V :=
  { c with elasticity := elasticity }

end LruCache

namespace HashLruCache

open Runs LruCache

variable {K V : Type}

/-- `std::ceil(v * 1.0 / bucket)`, which is exact below `2^53`. -/
def pre (v bucket : UInt64) : UInt64 :=
  UInt64.ofNat ((v.toNat + bucket.toNat - 1) / bucket.toNat)

/-- How many pointers a vector can hold. -/
def MAX_BUCKETS : Nat := 2 ^ 60 - 1

/-- The constructor; `memory` is what the member `m_elasticity` holds before. -/
def new (hash : K → UInt64) (memory bucket maxSize elasticity : UInt64) :
    Option (HashLruCache K V) :=
  if bucket = 0 ∨ bucket.toNat > MAX_BUCKETS then none
  else
    some {
      datas := List.replicate bucket.toNat (LruCache.new (pre maxSize bucket) (pre elasticity bucket))
      maxSize := pre maxSize bucket * bucket
      bucket := bucket
      elasticity := memory
      hash := hash }

/-- `m_hash(k) % m_bucket`. -/
def index (c : HashLruCache K V) (k : K) : Nat := (c.hash k % c.bucket).toNat

/-- Put back the bucket of a key. -/
def setBucket (c : HashLruCache K V) (k : K) (d : LruCache K V) : HashLruCache K V :=
  { c with datas := c.datas.set (c.index k) d }

def size (c : HashLruCache K V) : Nat := (c.datas.map LruCache.size).sum

def getMaxSize (c : HashLruCache K V) : UInt64 := c.maxSize

def getElasticity (c : HashLruCache K V) : UInt64 := c.elasticity

def getMaxAllowedSize (c : HashLruCache K V) : UInt64 := c.maxSize + c.elasticity

def setMaxSize (c : HashLruCache K V) (v : UInt64) : HashLruCache K V :=
  { c with
    maxSize := pre v c.bucket * c.bucket
    datas := c.datas.map (LruCache.setMaxSize (pre v c.bucket)) }

def setElasticity (c : HashLruCache K V) (v : UInt64) : HashLruCache K V :=
  { c with
    elasticity := pre v c.bucket * c.bucket
    datas := c.datas.map (LruCache.setElasticity (pre v c.bucket)) }

section

variable [DecidableEq K]

def set (c : HashLruCache K V) (k : K) (v : V) : Option (List (K × V) × HashLruCache K V) := do
  let d ← c.datas[c.index k]?
  let (pruned, d) ← d.set k v
  some (pruned, c.setBucket k d)

def get (toBool : V → Bool) (c : HashLruCache K V) (k : K) (v : V) :
    Option (Bool × V × HashLruCache K V) := do
  let d ← c.datas[c.index k]?
  let (ret, v, d) ← d.get toBool k v
  some (ret, v, c.setBucket k d)

def del (c : HashLruCache K V) (k : K) : Option (Bool × HashLruCache K V) := do
  let d ← c.datas[c.index k]?
  let (ret, d) ← d.del k
  some (ret, c.setBucket k d)

def exists_ (c : HashLruCache K V) (k : K) : Bool := (c.datas[c.index k]?).any (fun d => d.exists_ k)

def clear (c : HashLruCache K V) : HashLruCache K V :=
  { c with datas := c.datas.map (fun d => d.clear.2) }

/-! ## Runs -/

inductive Op (K V : Type) where
  | setMaxSize (v : UInt64)
  | setElasticity (v : UInt64)
  | set (k : K) (v : V)
  | get (k : K) (v : V)
  | del (k : K)
  | clear

def step (toBool : V → Bool) (c : HashLruCache K V) : Op K V → Option (HashLruCache K V)
  | .setMaxSize v => some (c.setMaxSize v)
  | .setElasticity v => some (c.setElasticity v)
  | .set k v => (c.set k v).map Prod.snd
  | .get k v => (c.get toBool k v).map (fun r => r.2.2)
  | .del k => (c.del k).map Prod.snd
  | .clear => some c.clear

end

/-- A cache with the operations that led to it, the newest one first. -/
structure Traced (K V : Type) where
  past : List (Op K V)
  cache : HashLruCache K V

def Step [DecidableEq K] (toBool : V → Bool) (s : Traced K V) (op : Op K V) (s' : Traced K V) : Prop :=
  s.cache.step toBool op = some s'.cache ∧ s'.past = op :: s.past

/-- The `max_size` asked for last, and the one of the constructor before that. -/
def requestedMaxSize (maxSize : UInt64) : List (Op K V) → UInt64
  | [] => maxSize
  | .setMaxSize v :: _ => v
  | _ :: past => requestedMaxSize maxSize past

def requestedElasticity (elasticity : UInt64) : List (Op K V) → UInt64
  | [] => elasticity
  | .setElasticity v :: _ => v
  | _ :: past => requestedElasticity elasticity past

/-- `setElasticity` was called. -/
def ElasticitySet : List (Op K V) → Prop
  | [] => False
  | .setElasticity _ :: _ => True
  | _ :: past => ElasticitySet past

/-- The limits are those of the constructor. -/
def LimitsKept : List (Op K V) → Prop
  | [] => True
  | .setElasticity _ :: _ => False
  | .setMaxSize _ :: _ => False
  | _ :: past => LimitsKept past

/-- The values asked for are so small that doubles can hold them. -/
def Op.Exact : Op K V → Prop
  | .setMaxSize v => v.toNat < 2 ^ 53
  | .setElasticity v => v.toNat < 2 ^ 53
  | _ => True

/-- What a caller may expect of a cache that was asked for these limits at first. -/
structure Good [DecidableEq K] (toBool : V → Bool) (maxSize elasticity : UInt64) (s : Traced K V) :
    Prop where
  returns : ∀ op, (s.cache.step toBool op).isSome
  home : ∀ i d, s.cache.datas[i]? = some d → ∀ k ∈ d.cache, i = s.cache.index k
  size_eq : ∃ live : List K, live.Nodup ∧ (∀ k, k ∈ live ↔ s.cache.exists_ k = true) ∧
    s.cache.size = live.length
  maxSize_eq : s.cache.getMaxSize.toNat = (s.cache.datas.map (fun d => d.maxSize.toNat)).sum
  elasticity_eq : s.cache.getElasticity.toNat = (s.cache.datas.map (fun d => d.elasticity.toNat)).sum
  allowed_eq : s.cache.getMaxAllowedSize.toNat =
    (s.cache.datas.map (fun d => d.getMaxAllowedSize.toNat)).sum
  maxSize_le : (requestedMaxSize maxSize s.past).toNat ≤ s.cache.getMaxSize.toNat
  elasticity_le : (requestedElasticity elasticity s.past).toNat ≤ s.cache.getElasticity.toNat
  allowed_le : (requestedMaxSize maxSize s.past).toNat + (requestedElasticity elasticity s.past).toNat ≤
    s.cache.getMaxAllowedSize.toNat
  size_le : LimitsKept s.past → maxSize ≠ 0 → s.cache.size ≤ s.cache.getMaxAllowedSize.toNat

/-- The member `m_elasticity` was assigned to, or holds what it should by chance. -/
def Initialised (memory elasticity : UInt64) (s : Traced K V) : Prop :=
  ElasticitySet s.past ∨ memory = pre elasticity s.cache.bucket * s.cache.bucket

/-! ## The buckets -/

section Frame

variable {c : HashLruCache K V} {k : K} {d d' : LruCache K V}

@[simp] theorem setBucket_bucket : (c.setBucket k d).bucket = c.bucket := rfl
@[simp] theorem setBucket_maxSize : (c.setBucket k d).maxSize = c.maxSize := rfl
@[simp] theorem setBucket_elasticity : (c.setBucket k d).elasticity = c.elasticity := rfl
@[simp] theorem setBucket_index (j : K) : (c.setBucket k d).index j = c.index j := rfl

theorem mem_setBucket (h : d' ∈ (c.setBucket k d).datas) : d' ∈ c.datas ∨ d' = d :=
  List.mem_or_eq_of_mem_set h

end Frame

section Buckets

variable [DecidableEq K]

/-- Each bucket is in order, has its share of the limits and holds no key but its own. -/
structure Buckets (c : HashLruCache K V) (preMaxSize preElasticity : UInt64) : Prop where
  length_eq : c.datas.length = c.bucket.toNat
  linked : ∀ d ∈ c.datas, Linked d.cache d.keys d.fresh
  limits : ∀ d ∈ c.datas, d.maxSize = preMaxSize ∧ d.elasticity = preElasticity
  home : ∀ i d, c.datas[i]? = some d → ∀ k ∈ d.cache, i = c.index k

/-- No bucket holds more than it may. -/
def Bounds (c : HashLruCache K V) : Prop :=
  ∀ d ∈ c.datas, d.maxSize ≠ 0 →
    d.keys.length ≤ max d.maxSize.toNat (d.maxSize.toNat + d.elasticity.toNat - 1)

variable {c : HashLruCache K V} {preMaxSize preElasticity : UInt64} {k : K} {d d' : LruCache K V}

theorem Buckets.setBucket {new : Option K} {n : Nat} (h : Buckets c preMaxSize preElasticity)
    (hd : c.datas[c.index k]? = some d) (hkeeps : Maintains d new d') (hnew : ∀ j, new = some j → j = k)
    (hdropped : Dropped d n d') : Buckets (c.setBucket k d') preMaxSize preElasticity := by
  have hmem := List.mem_of_getElem? hd
  refine ⟨?_, ?_, ?_, ?_⟩
  · rw [HashLruCache.setBucket, List.length_set]
    exact h.length_eq
  · intro e he
    cases mem_setBucket he with
    | inl he => exact h.linked e he
    | inr he => exact he ▸ hkeeps.linked
  · intro e he
    cases mem_setBucket he with
    | inl he => exact h.limits e he
    | inr he =>
      obtain ⟨hmax, helasticity⟩ := h.limits d hmem
      rw [he, hdropped.maxSize_eq, hdropped.elasticity_eq]
      exact ⟨hmax, helasticity⟩
  · intro i e he j hj
    rw [HashLruCache.setBucket, List.getElem?_set] at he
    split at he
    · next hi =>
      split at he
      · cases he
        cases hkeeps.mem j hj with
        | inl hold => exact hi.symm.trans (h.home _ d hd j hold)
        | inr hin => rw [hnew j hin, setBucket_index, hi]
      · cases he
    · exact h.home i e he j hj

theorem Bounds.setBucket {new : Option K} {n : Nat} (h : Bounds c) (hd : d ∈ c.datas)
    (hkeeps : Maintains d new d') (hdropped : Dropped d n d') : Bounds (c.setBucket k d') := by
  intro e he hne
  cases mem_setBucket he with
  | inl he => exact h e he hne
  | inr he =>
    subst he
    rw [hdropped.maxSize_eq] at hne
    rw [hdropped.maxSize_eq, hdropped.elasticity_eq]
    cases hkeeps.length_le with
    | inl hshrunk => exact le_trans hshrunk (h d hd hne)
    | inr hkept => exact le_trans hkept (kept_le hne)

/-- The key of a call has a bucket. -/
theorem Buckets.bucket (h : Buckets c preMaxSize preElasticity) (hpos : 0 < c.bucket.toNat) (k : K) :
    ∃ d, c.datas[c.index k]? = some d ∧ d ∈ c.datas := by
  have hlt : c.index k < c.datas.length := by
    rw [h.length_eq, index, UInt64.toNat_mod]
    exact Nat.mod_lt _ hpos
  exact ⟨_, List.getElem?_eq_getElem hlt, List.getElem_mem hlt⟩

/-- A change made to every bucket. -/
theorem Buckets.map {c' : HashLruCache K V} {preMaxSize' preElasticity' : UInt64}
    {f : LruCache K V → LruCache K V} (h : Buckets c preMaxSize preElasticity)
    (hdatas : c'.datas = c.datas.map f) (hindex : c'.index = c.index) (hbucket : c'.bucket = c.bucket)
    (hlinked : ∀ d ∈ c.datas, Linked (f d).cache (f d).keys (f d).fresh)
    (hlimits : ∀ d ∈ c.datas, (f d).maxSize = preMaxSize' ∧ (f d).elasticity = preElasticity')
    (hmem : ∀ d ∈ c.datas, ∀ j ∈ (f d).cache, j ∈ d.cache) :
    Buckets c' preMaxSize' preElasticity' := by
  refine ⟨?_, ?_, ?_, ?_⟩
  · rw [hdatas, List.length_map, h.length_eq, hbucket]
  · rw [hdatas, List.forall_mem_map]
    exact hlinked
  · rw [hdatas, List.forall_mem_map]
    exact hlimits
  · intro i e he j hj
    rw [hdatas, List.getElem?_map] at he
    obtain ⟨d, hd, rfl⟩ := Option.map_eq_some_iff.mp he
    rw [hindex]
    exact h.home i d hd j (hmem d (List.mem_of_getElem? hd) j hj)

theorem Buckets.setMaxSize (h : Buckets c preMaxSize preElasticity) (v : UInt64) :
    Buckets (c.setMaxSize v) (pre v c.bucket) preElasticity :=
  h.map rfl rfl rfl h.linked (fun d hd => ⟨rfl, (h.limits d hd).2⟩) fun _ _ _ hj => hj

theorem Buckets.setElasticity (h : Buckets c preMaxSize preElasticity) (v : UInt64) :
    Buckets (c.setElasticity v) preMaxSize (pre v c.bucket) :=
  h.map rfl rfl rfl h.linked (fun d hd => ⟨(h.limits d hd).1, rfl⟩) fun _ _ _ hj => hj

theorem Buckets.clear (h : Buckets c preMaxSize preElasticity) :
    Buckets c.clear preMaxSize preElasticity :=
  h.map rfl rfl rfl (fun d _ => linked_empty d.fresh) h.limits
    fun _ _ j hj => absurd hj (AList.notMem_empty j)

omit [DecidableEq K] in
theorem Bounds.clear (c : HashLruCache K V) : Bounds c.clear := by
  rw [Bounds, HashLruCache.clear, List.forall_mem_map]
  intro d _ _
  exact Nat.zero_le _

/-! ## The keys -/

/-- The keys of all buckets. -/
def live (c : HashLruCache K V) : List K := c.datas.flatMap (fun d => d.cache.keys)

theorem Buckets.mem_live (h : Buckets c preMaxSize preElasticity) (hpos : 0 < c.bucket.toNat) (k : K) :
    k ∈ c.live ↔ c.exists_ k = true := by
  obtain ⟨d, hd, hmem⟩ := h.bucket hpos k
  rw [exists_, hd, Option.any_some, LruCache.exists_, AList.lookup_isSome, live, List.mem_flatMap]
  constructor
  · rintro ⟨e, he, hk⟩
    obtain ⟨i, hi⟩ := List.mem_iff_getElem?.mp he
    have hi' := h.home i e hi k (AList.mem_keys.mpr hk)
    rw [hi', hd] at hi
    cases hi
    exact AList.mem_keys.mpr hk
  · intro hk
    exact ⟨d, hmem, AList.mem_keys.mp hk⟩

theorem Buckets.nodup_live (h : Buckets c preMaxSize preElasticity) : c.live.Nodup := by
  rw [live, List.nodup_flatMap]
  refine ⟨fun d _ => d.cache.keys_nodup, ?_⟩
  rw [List.pairwise_iff_getElem]
  intro i j hi hj hlt k hki hkj
  have hi' := h.home i _ (List.getElem?_eq_getElem hi) k (AList.mem_keys.mpr hki)
  have hj' := h.home j _ (List.getElem?_eq_getElem hj) k (AList.mem_keys.mpr hkj)
  omega

omit [DecidableEq K] in
theorem length_live (c : HashLruCache K V) : c.size = c.live.length := by
  rw [live, List.length_flatMap, size]
  rfl

/-! ## The limits -/

theorem sum_limit {f : LruCache K V → Nat} {n : Nat} (h : Buckets c preMaxSize preElasticity)
    (hf : ∀ d ∈ c.datas, f d = n) : (c.datas.map f).sum = n * c.bucket.toNat := by
  rw [List.sum_eq_card_nsmul (c.datas.map f) n (List.forall_mem_map.mpr hf), List.length_map,
    h.length_eq, smul_eq_mul, Nat.mul_comm]

omit [DecidableEq K] in
/-- The buckets together hold no more than they may. -/
theorem Bounds.size_le {n : Nat} (hb : Bounds c) (hlinked : ∀ d ∈ c.datas, d.size = d.keys.length)
    (hlength : c.datas.length = c.bucket.toNat)
    (hn : ∀ d ∈ c.datas, d.maxSize ≠ 0 ∧ d.maxSize.toNat + d.elasticity.toNat ≤ n) :
    c.size ≤ n * c.bucket.toNat := by
  have hle : ∀ d ∈ c.datas, d.size ≤ n := by
    intro d hd
    obtain ⟨hne, hsum⟩ := hn d hd
    have hlength := hb d hd hne
    rw [hlinked d hd]
    omega
  have hsum := List.sum_le_card_nsmul (c.datas.map LruCache.size) n (List.forall_mem_map.mpr hle)
  rwa [List.length_map, hlength, smul_eq_mul, Nat.mul_comm] at hsum

end Buckets

section Pre

variable {v bucket : UInt64}

theorem toNat_pre (hpos : 0 < bucket.toNat) :
    (pre v bucket).toNat = (v.toNat + bucket.toNat - 1) / bucket.toNat := by
  have hle : (v.toNat + bucket.toNat - 1) / bucket.toNat ≤ v.toNat := by
    cases v.toNat with
    | zero => rw [Nat.div_eq_of_lt (by omega)]
    | succ n =>
      have hmul := Nat.le_mul_of_pos_left n hpos
      apply Nat.div_le_of_le_mul
      rw [Nat.mul_succ]
      omega
  have hlt := v.toNat_lt
  rw [pre, UInt64.toNat_ofNat']
  exact Nat.mod_eq_of_lt (by omega)

/-- Rounding up loses nothing, and adds less than one for each bucket. -/
theorem pre_mul (hpos : 0 < bucket.toNat) : v.toNat ≤ (pre v bucket).toNat * bucket.toNat ∧
    (pre v bucket).toNat * bucket.toNat < v.toNat + bucket.toNat := by
  rw [toNat_pre hpos]
  have hdiv := Nat.div_add_mod' (v.toNat + bucket.toNat - 1) bucket.toNat
  have hmod := Nat.mod_lt (v.toNat + bucket.toNat - 1) hpos
  omega

end Pre

/-! ## Every run -/

section Steps

variable [DecidableEq K] {toBool : V → Bool} {memory maxSize elasticity : UInt64}
variable {s s' : Traced K V}

/-- The operation asks for no limit. -/
def Op.Plain : Op K V → Prop
  | .setMaxSize _ => False
  | .setElasticity _ => False
  | _ => True

omit [DecidableEq K] in
theorem Op.Plain.past {op : Op K V} (h : op.Plain) (past : List (Op K V)) :
    requestedMaxSize maxSize (op :: past) = requestedMaxSize maxSize past ∧
      requestedElasticity elasticity (op :: past) = requestedElasticity elasticity past ∧
      (ElasticitySet (op :: past) ↔ ElasticitySet past) ∧ (LimitsKept (op :: past) ↔ LimitsKept past) := by
  cases op with
  | setMaxSize v => cases h
  | setElasticity v => cases h
  | set k v => exact ⟨rfl, rfl, Iff.rfl, Iff.rfl⟩
  | get k v => exact ⟨rfl, rfl, Iff.rfl, Iff.rfl⟩
  | del k => exact ⟨rfl, rfl, Iff.rfl, Iff.rfl⟩
  | clear => exact ⟨rfl, rfl, Iff.rfl, Iff.rfl⟩

structure Inv (memory maxSize elasticity : UInt64) (s : Traced K V) : Prop where
  bucket_pos : 0 < s.cache.bucket.toNat
  bucket_le : s.cache.bucket.toNat ≤ MAX_BUCKETS
  exact_maxSize : (requestedMaxSize maxSize s.past).toNat < 2 ^ 53
  exact_elasticity : (requestedElasticity elasticity s.past).toNat < 2 ^ 53
  buckets : Buckets s.cache (pre (requestedMaxSize maxSize s.past) s.cache.bucket)
    (pre (requestedElasticity elasticity s.past) s.cache.bucket)
  maxSize_eq : s.cache.maxSize = pre (requestedMaxSize maxSize s.past) s.cache.bucket * s.cache.bucket
  elasticity_eq : ElasticitySet s.past →
    s.cache.elasticity = pre (requestedElasticity elasticity s.past) s.cache.bucket * s.cache.bucket
  memory_eq : ¬ElasticitySet s.past →
    s.cache.elasticity = memory ∧ requestedElasticity elasticity s.past = elasticity
  kept : LimitsKept s.past → Bounds s.cache ∧ requestedMaxSize maxSize s.past = maxSize

theorem Inv.plain {op : Op K V} {c' : HashLruCache K V} (h : Inv memory maxSize elasticity s)
    (hop : op.Plain) (hbucket : c'.bucket = s.cache.bucket) (hmaxSize : c'.maxSize = s.cache.maxSize)
    (helasticity : c'.elasticity = s.cache.elasticity)
    (hbuckets : ∀ preMaxSize preElasticity, Buckets s.cache preMaxSize preElasticity →
      Buckets c' preMaxSize preElasticity)
    (hbounds : Bounds s.cache → Bounds c') : Inv memory maxSize elasticity ⟨op :: s.past, c'⟩ := by
  obtain ⟨hrequested, hrequested', hset, hkept⟩ := @Op.Plain.past K V maxSize elasticity op hop s.past
  constructor <;> simp only [hrequested, hrequested', hset, hkept, hbucket, hmaxSize, helasticity]
  · exact h.bucket_pos
  · exact h.bucket_le
  · exact h.exact_maxSize
  · exact h.exact_elasticity
  · exact hbuckets _ _ h.buckets
  · exact h.maxSize_eq
  · exact h.elasticity_eq
  · exact h.memory_eq
  · exact fun hlimits => (h.kept hlimits).imp_left hbounds

/-- A call that goes to the bucket of its key. -/
theorem Inv.setBucket {op : Op K V} {k : K} {d d' : LruCache K V} {new : Option K} {n : Nat}
    (h : Inv memory maxSize elasticity s) (hop : op.Plain) (hd : s.cache.datas[s.cache.index k]? = some d)
    (hkeeps : Maintains d new d') (hnew : ∀ j, new = some j → j = k) (hdropped : Dropped d n d') :
    Inv memory maxSize elasticity ⟨op :: s.past, s.cache.setBucket k d'⟩ :=
  h.plain hop rfl rfl rfl (fun _ _ hbuckets => hbuckets.setBucket hd hkeeps hnew hdropped)
    fun hbounds => hbounds.setBucket (List.mem_of_getElem? hd) hkeeps hdropped

theorem step_inv {op : Op K V} (h : Inv memory maxSize elasticity s) (hop : op.Exact)
    (hstep : Step toBool s op s') : Inv memory maxSize elasticity s' := by
  obtain ⟨past', c'⟩ := s'
  obtain ⟨hstep, rfl⟩ := hstep
  cases op with
  | setMaxSize v =>
    cases hstep
    exact
      { bucket_pos := h.bucket_pos
        bucket_le := h.bucket_le
        exact_maxSize := hop
        exact_elasticity := h.exact_elasticity
        buckets := h.buckets.setMaxSize v
        maxSize_eq := rfl
        elasticity_eq := h.elasticity_eq
        memory_eq := h.memory_eq
        kept := False.elim }
  | setElasticity v =>
    cases hstep
    exact
      { bucket_pos := h.bucket_pos
        bucket_le := h.bucket_le
        exact_maxSize := h.exact_maxSize
        exact_elasticity := hop
        buckets := h.buckets.setElasticity v
        maxSize_eq := h.maxSize_eq
        elasticity_eq := fun _ => rfl
        memory_eq := fun hnot => absurd trivial hnot
        kept := False.elim }
  | set k v =>
    obtain ⟨⟨pruned, c₁⟩, hset, rfl⟩ := Option.map_eq_some_iff.mp hstep
    obtain ⟨d, hd, hbind⟩ := Option.bind_eq_some_iff.mp hset
    obtain ⟨⟨pruned, d'⟩, hbucket, hc⟩ := Option.bind_eq_some_iff.mp hbind
    cases hc
    have hlinked := h.buckets.linked d (List.mem_of_getElem? hd)
    exact h.setBucket trivial hd (set_maintains hlinked hbucket)
      (fun j hj => (Option.some.inj hj).symm) (set_dropped hbucket)
  | get k v =>
    obtain ⟨⟨ret, v', c₁⟩, hget, rfl⟩ := Option.map_eq_some_iff.mp hstep
    obtain ⟨d, hd, hbind⟩ := Option.bind_eq_some_iff.mp hget
    obtain ⟨⟨ret, v', d'⟩, hbucket, hc⟩ := Option.bind_eq_some_iff.mp hbind
    cases hc
    have hlinked := h.buckets.linked d (List.mem_of_getElem? hd)
    exact h.setBucket trivial hd (get_maintains hlinked hbucket) nofun (get_dropped hbucket)
  | del k =>
    obtain ⟨⟨ret, c₁⟩, hdel, rfl⟩ := Option.map_eq_some_iff.mp hstep
    obtain ⟨d, hd, hbind⟩ := Option.bind_eq_some_iff.mp hdel
    obtain ⟨⟨ret, d'⟩, hbucket, hc⟩ := Option.bind_eq_some_iff.mp hbind
    cases hc
    have hlinked := h.buckets.linked d (List.mem_of_getElem? hd)
    exact h.setBucket trivial hd (del_maintains hlinked hbucket) nofun (del_dropped hbucket)
  | clear =>
    cases hstep
    exact h.plain trivial rfl rfl rfl (fun _ _ hbuckets => hbuckets.clear) fun _ => Bounds.clear s.cache

theorem Inv.returns (h : Inv memory maxSize elasticity s) (op : Op K V) :
    (s.cache.step toBool op).isSome := by
  cases op with
  | setMaxSize v => rfl
  | setElasticity v => rfl
  | set k v =>
    obtain ⟨d, hd, hmem⟩ := h.buckets.bucket h.bucket_pos k
    obtain ⟨r, hr⟩ := Option.isSome_iff_exists.mp (set_isSome (h.buckets.linked d hmem) k v)
    simp [step, set, hd, hr]
  | get k v =>
    obtain ⟨d, hd, hmem⟩ := h.buckets.bucket h.bucket_pos k
    obtain ⟨r, hr⟩ := Option.isSome_iff_exists.mp (get_isSome toBool (h.buckets.linked d hmem) k v)
    simp [step, get, hd, hr]
  | del k =>
    obtain ⟨d, hd, hmem⟩ := h.buckets.bucket h.bucket_pos k
    obtain ⟨r, hr⟩ := Option.isSome_iff_exists.mp (del_isSome (h.buckets.linked d hmem) k)
    simp [step, del, hd, hr]
  | clear => rfl

/-- The limit of one bucket times their number, without overflow. -/
theorem toNat_pre_mul {v bucket : UInt64} (hpos : 0 < bucket.toNat) (hle : bucket.toNat ≤ MAX_BUCKETS)
    (hv : v.toNat < 2 ^ 53) :
    (pre v bucket * bucket).toNat = (pre v bucket).toNat * bucket.toNat := by
  obtain ⟨-, hlt⟩ := @pre_mul v bucket hpos
  rw [UInt64.toNat_mul]
  exact Nat.mod_eq_of_lt (by rw [MAX_BUCKETS] at hle; omega)

theorem Inv.initialised_iff (h : Inv memory maxSize elasticity s) :
    Initialised memory elasticity s ↔
      s.cache.elasticity =
        pre (requestedElasticity elasticity s.past) s.cache.bucket * s.cache.bucket := by
  by_cases hset : ElasticitySet s.past
  · exact iff_of_true (.inl hset) (h.elasticity_eq hset)
  · obtain ⟨hmemory, hrequested⟩ := h.memory_eq hset
    rw [hmemory, hrequested, Initialised]
    exact or_iff_right hset

/-- As long as the limits are those of the constructor, the buckets keep to them. -/
theorem Inv.size_le (h : Inv memory maxSize elasticity s) (hlimits : LimitsKept s.past)
    (hne : maxSize ≠ 0) :
    s.cache.size ≤ ((pre (requestedMaxSize maxSize s.past) s.cache.bucket).toNat +
      (pre (requestedElasticity elasticity s.past) s.cache.bucket).toNat) * s.cache.bucket.toNat := by
  obtain ⟨hbounds, hrequested⟩ := h.kept hlimits
  refine hbounds.size_le (fun d hd => (h.buckets.linked d hd).size_eq) h.buckets.length_eq ?_
  intro d hd
  obtain ⟨hmax, helasticity⟩ := h.buckets.limits d hd
  rw [hmax, helasticity]
  refine ⟨?_, le_rfl⟩
  intro hzero
  obtain ⟨hle, -⟩ := @pre_mul (requestedMaxSize maxSize s.past) s.cache.bucket h.bucket_pos
  rw [hzero, UInt64.toNat_zero, Nat.zero_mul, hrequested] at hle
  exact hne (UInt64.toNat_inj.mp (Nat.le_zero.mp hle))

/-- The sum of the limits, when `m_elasticity` holds what it should. -/
theorem Inv.allowed_eq (h : Inv memory maxSize elasticity s)
    (hinit : s.cache.elasticity =
      pre (requestedElasticity elasticity s.past) s.cache.bucket * s.cache.bucket) :
    s.cache.getMaxAllowedSize.toNat =
      s.cache.getMaxSize.toNat + s.cache.getElasticity.toNat ∧
    ∀ d ∈ s.cache.datas, d.getMaxAllowedSize.toNat = d.maxSize.toNat + d.elasticity.toNat := by
  have hmul := toNat_pre_mul h.bucket_pos h.bucket_le h.exact_maxSize
  have hmul' := toNat_pre_mul h.bucket_pos h.bucket_le h.exact_elasticity
  obtain ⟨-, hlt⟩ := @pre_mul (requestedMaxSize maxSize s.past) s.cache.bucket h.bucket_pos
  obtain ⟨-, hlt'⟩ := @pre_mul (requestedElasticity elasticity s.past) s.cache.bucket h.bucket_pos
  have hbucket : s.cache.bucket.toNat ≤ 2 ^ 60 - 1 := h.bucket_le
  have hmaxSize := h.exact_maxSize
  have helasticity := h.exact_elasticity
  constructor
  · rw [getMaxAllowedSize, getMaxSize, getElasticity, UInt64.toNat_add, h.maxSize_eq, hinit, hmul,
      hmul']
    exact Nat.mod_eq_of_lt (by omega)
  · intro d hd
    obtain ⟨hm, he⟩ := h.buckets.limits d hd
    -- one bucket has at most as much as all of them
    have hone := Nat.le_mul_of_pos_right d.maxSize.toNat h.bucket_pos
    have hone' := Nat.le_mul_of_pos_right d.elasticity.toNat h.bucket_pos
    rw [hm] at hone
    rw [he] at hone'
    rw [LruCache.getMaxAllowedSize, UInt64.toNat_add, hm, he]
    exact Nat.mod_eq_of_lt (by omega)

/-- All is well when `m_elasticity` holds what it should. -/
theorem Inv.good (h : Inv memory maxSize elasticity s)
    (hinit : s.cache.elasticity =
      pre (requestedElasticity elasticity s.past) s.cache.bucket * s.cache.bucket) :
    Good toBool maxSize elasticity s := by
  obtain ⟨hallowed, hshare⟩ := h.allowed_eq hinit
  obtain ⟨hle, -⟩ := @pre_mul (requestedMaxSize maxSize s.past) s.cache.bucket h.bucket_pos
  obtain ⟨hle', -⟩ := @pre_mul (requestedElasticity elasticity s.past) s.cache.bucket h.bucket_pos
  have hmax : s.cache.getMaxSize.toNat = _ :=
    (congrArg UInt64.toNat h.maxSize_eq).trans
      (toNat_pre_mul h.bucket_pos h.bucket_le h.exact_maxSize)
  have helasticity : s.cache.getElasticity.toNat = _ :=
    (congrArg UInt64.toNat hinit).trans (toNat_pre_mul h.bucket_pos h.bucket_le h.exact_elasticity)
  have hsumMax := sum_limit h.buckets fun d hd => congrArg UInt64.toNat (h.buckets.limits d hd).1
  have hsumElasticity := sum_limit h.buckets fun d hd => congrArg UInt64.toNat (h.buckets.limits d hd).2
  exact
    { returns := h.returns
      home := h.buckets.home
      size_eq := ⟨s.cache.live, h.buckets.nodup_live, h.buckets.mem_live h.bucket_pos,
        length_live s.cache⟩
      maxSize_eq := by rw [hmax, hsumMax]
      elasticity_eq := by rw [helasticity, hsumElasticity]
      allowed_eq := by
        rw [hallowed, hmax, helasticity, ← hsumMax, ← hsumElasticity, ← List.sum_map_add]
        exact congrArg List.sum (List.map_congr_left fun d hd => (hshare d hd).symm)
      maxSize_le := by rwa [hmax]
      elasticity_le := by rwa [helasticity]
      allowed_le := by
        rw [hallowed, hmax, helasticity]
        exact Nat.add_le_add hle hle'
      size_le := fun hlimits hne => by
        have hsize := h.size_le hlimits hne
        rwa [Nat.add_mul, ← hmax, ← helasticity, ← hallowed] at hsize }

theorem Inv.good_iff (h : Inv memory maxSize elasticity s) :
    Good toBool maxSize elasticity s ↔ Initialised memory elasticity s := by
  rw [h.initialised_iff]
  constructor
  · intro hgood
    have hmul := toNat_pre_mul h.bucket_pos h.bucket_le h.exact_elasticity
    have heq := hgood.elasticity_eq
    rw [sum_limit h.buckets fun d hd => by rw [(h.buckets.limits d hd).2], ← hmul] at heq
    exact UInt64.toNat_inj.mp heq
  · exact h.good

theorem inv_new {hash : K → UInt64} {bucket : UInt64} {c : HashLruCache K V}
    (hnew : new hash memory bucket maxSize elasticity = some c) (hm : maxSize.toNat < 2 ^ 53)
    (he : elasticity.toNat < 2 ^ 53) : Inv memory maxSize elasticity ⟨[], c⟩ := by
  rw [new] at hnew
  split at hnew
  · cases hnew
  · next hbucket =>
    obtain ⟨hne, hle⟩ := not_or.mp hbucket
    cases hnew
    have hpos : 0 < bucket.toNat := by
      apply Nat.pos_of_ne_zero
      rw [← UInt64.toNat_zero]
      exact UInt64.toNat_inj.not.mpr hne
    have hfresh : ∀ d ∈ List.replicate bucket.toNat
        (LruCache.new (pre maxSize bucket) (pre elasticity bucket) : LruCache K V),
        d = LruCache.new (pre maxSize bucket) (pre elasticity bucket) :=
      fun d hd => List.eq_of_mem_replicate hd
    exact
      { bucket_pos := hpos
        bucket_le := not_lt.mp hle
        exact_maxSize := hm
        exact_elasticity := he
        buckets :=
          { length_eq := List.length_replicate
            linked := fun d hd => hfresh d hd ▸ linked_empty 0
            limits := fun d hd => by
              rw [hfresh d hd]
              exact ⟨rfl, rfl⟩
            home := fun i d hd k hk => by
              rw [hfresh d (List.mem_of_getElem? hd)] at hk
              exact absurd hk (AList.notMem_empty k) }
        maxSize_eq := rfl
        elasticity_eq := False.elim
        memory_eq := fun _ => ⟨rfl, rfl⟩
        kept := fun _ => ⟨fun d hd _ => hfresh d hd ▸ Nat.zero_le _, rfl⟩ }

end Steps

/-- In every state of every run: all is well exactly when `setElasticity` was called, or when the
member `m_elasticity` held what it should before it was ever assigned to. -/
theorem run_good_iff [DecidableEq K] (toBool : V → Bool) (hash : K → UInt64)
    (memory bucket maxSize elasticity : UInt64) {c : HashLruCache K V}
    (hnew : new hash memory bucket maxSize elasticity = some c) (hm : maxSize.toNat < 2 ^ 53)
    (he : elasticity.toNat < 2 ^ 53) {t : List (Op K V × Traced K V)}
    (run : Run (Step toBool) ⟨[], c⟩ t) (hexact : Meets (fun _ op => op.Exact) ⟨[], c⟩ t) :
    Always (fun s => Good toBool maxSize elasticity s ↔ Initialised memory elasticity s) ⟨[], c⟩ t :=
  (always_of_meets (fun _ _ _ h hop hstep => step_inv h hop hstep) run (inv_new hnew hm he) hexact).mono
    fun _ h => h.good_iff

/-- Two buckets with a limit of 30 and an elasticity of 10, which is set once more. -/
theorem run_good_two_buckets : ∃ (c : HashLruCache Nat Nat) (t : List (Op Nat Nat × Traced Nat Nat)),
    new UInt64.ofNat 77 2 30 10 = some c ∧ t.map Prod.fst = [.setElasticity 10, .set 5 500] ∧
    Run (Step (fun v => v != 0)) ⟨[], c⟩ t ∧ Good (fun v => v != 0) 30 10 (last ⟨[], c⟩ t) := by
  let c : HashLruCache Nat Nat := ⟨[.new 15 5, .new 15 5], 30, 2, 77, UInt64.ofNat⟩
  have hnew : new UInt64.ofNat 77 2 30 10 = some c := rfl
  obtain ⟨c', hset⟩ := Option.isSome_iff_exists.mp
    (show ((c.setElasticity 10).step (fun v => v != 0) (.set 5 500)).isSome from by decide)
  have run : Run (Step (fun v => v != 0)) ⟨[], c⟩ _ :=
    @Run.cons (Traced Nat Nat) (Op Nat Nat) _ _ ⟨_, _⟩ (.setElasticity 10) _ ⟨rfl, rfl⟩
      (@Run.cons (Traced Nat Nat) (Op Nat Nat) _ _ ⟨_, c'⟩ (.set 5 500) _ ⟨hset, rfl⟩ (.nil _))
  refine ⟨c, _, hnew, rfl, run, ?_⟩
  have h := run_good_iff (fun v => v != 0) UInt64.ofNat 77 2 30 10 hnew (by decide) (by decide) run
    ⟨show (10 : UInt64).toNat < 2 ^ 53 by decide, trivial, trivial⟩
  exact h.last.mpr (.inl trivial)

/-- After construction the elasticity is whatever the memory held. -/
theorem new_not_good : ∃ c : HashLruCache Nat Nat, new UInt64.ofNat 77 2 30 10 = some c ∧
    c.getElasticity = 77 ∧ (c.datas.map (fun d => d.elasticity.toNat)).sum = 10 ∧
    ¬Good (fun v => v != 0) 30 10 ⟨[], c⟩ :=
  ⟨_, rfl, rfl, by decide, fun h => absurd h.elasticity_eq (by decide)⟩

end HashLruCache

end CxkFramework
