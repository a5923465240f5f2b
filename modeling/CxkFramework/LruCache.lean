import Mathlib.Data.List.AList
import Mathlib.Data.List.Perm.Subperm
import CxkFramework.Runs

/-!
# The LRU cache

`cxk::ds::LruCache` keeps a `std::list` of key-value pairs in order of use and an
`unordered_map` from keys to iterators into that list. An iterator is modelled by the
number its list node was given when it was created. An operation that follows an iterator
to a node that is gone, or takes the back of an empty list, has no result. Every public
operation holds the mutex for all it does to the two containers, so operations are atomic.
-/

namespace CxkFramework

open Runs

/-- `cxk::ds::CacheStatus`. -/
structure CacheStatus where
  get : Nat := 0
  set : Nat := 0
  del : Nat := 0
  prune : Nat := 0
  hit : Nat := 0
  deriving DecidableEq, Repr

/-- A node of `m_keys`. -/
structure LruNode (K V : Type) where
  id : Nat
  key : K
  value : V
  deriving DecidableEq, Repr

/-- `size_t` members are machine words, since `m_maxSize + m_elasticity` can wrap around. -/
structure LruCache (K V : Type) where
  cache : AList (fun _ : K => Nat)
  keys : List (LruNode K V)
  maxSize : UInt64
  elasticity : UInt64
  status : CacheStatus
  /-- The number of the next list node. -/
  fresh : Nat

namespace LruCache

variable {K V : Type}

/-- The constructor. -/
def new (maxSize elasticity : UInt64) : LruCache K V where
  cache := ∅
  keys := []
  maxSize := maxSize
  elasticity := elasticity
  status := {}
  fresh := 0

/-- The node an iterator points at. -/
def deref (keys : List (LruNode K V)) (it : Nat) : Option (LruNode K V) :=
  keys.find? (fun n => n.id == it)

/-- `m_keys.erase(it)`. -/
def eraseNode (keys : List (LruNode K V)) (it : Nat) : List (LruNode K V) :=
  keys.eraseP (fun n => n.id == it)

def getMaxAllowedSize (c : LruCache K V) : UInt64 := c.maxSize + c.elasticity

section

variable [DecidableEq K]

/-- The loop of `prune`, over `m_keys` from its back. Also returns what `m_cb` is called with. -/
def pruneLoop (maxSize : Nat) : AList (fun _ : K => Nat) → List (LruNode K V) →
    Option (AList (fun _ : K => Nat) × List (LruNode K V) × List (K × V))
  | cache, [] => if cache.keys.length > maxSize then none else some (cache, [], [])
  | cache, back :: rest =>
    if cache.keys.length > maxSize then do
      let (cache, keys, pruned) ← pruneLoop maxSize (cache.erase back.key) rest
      some (cache, keys, (back.key, back.value) :: pruned)
    else some (cache, back :: rest, [])

def prune (c : LruCache K V) : Option (List (K × V) × LruCache K V) :=
  if c.maxSize = 0 ∨ c.cache.keys.length < c.getMaxAllowedSize.toNat then some ([], c)
  else do
    let (cache, rev, pruned) ← pruneLoop c.maxSize.toNat c.cache c.keys.reverse
    some (pruned, { c with
      cache := cache
      keys := rev.reverse
      status := { c.status with prune := c.status.prune + pruned.length } })

/-- Returns the pairs that `prune` drops. -/
def set (c : LruCache K V) (k : K) (v : V) : Option (List (K × V) × LruCache K V) :=
  let c := { c with status := { c.status with set := c.status.set + 1 } }
  match c.cache.lookup k with
  | some it => do
    let node ← deref c.keys it
    some ([], { c with keys := { node with value := v } :: eraseNode c.keys it })
  | none =>
    prune { c with
      keys := ⟨c.fresh, k, v⟩ :: c.keys
      cache := c.cache.insert k c.fresh
      fresh := c.fresh + 1 }

/-- `toBool` is the conversion that `return v;` in a function returning `bool` applies.
Returns the result, the caller's variable and the cache. -/
def get (toBool : V → Bool) (c : LruCache K V) (k : K) (v : V) :
    Option (Bool × V × LruCache K V) :=
  let c := { c with status := { c.status with get := c.status.get + 1 } }
  match c.cache.lookup k with
  | none => some (false, v, c)
  | some it => do
    let node ← deref c.keys it
    some (toBool node.value, node.value, { c with
      keys := node :: eraseNode c.keys it
      status := { c.status with hit := c.status.hit + 1 } })

def del (c : LruCache K V) (k : K) : Option (Bool × LruCache K V) :=
  let c := { c with status := { c.status with del := c.status.del + 1 } }
  match c.cache.lookup k with
  | none => some (false, c)
  | some it => do
    let _ ← deref c.keys it
    some (true, { c with keys := eraseNode c.keys it, cache := c.cache.erase k })

def exists_ (c : LruCache K V) (k : K) : Bool := (c.cache.lookup k).isSome

def clear (c : LruCache K V) : Bool × LruCache K V := (true, { c with cache := ∅, keys := [] })

end

end LruCache

end CxkFramework
