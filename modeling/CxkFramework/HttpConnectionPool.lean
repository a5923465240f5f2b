import CxkFramework.Runs
import CxkFramework.Stream

/-!
# A pool of HTTP connections

`HttpConnectionPool::getConnection` and `ReleasePtr` by any number of callers at once. Only the
list `m_conns` is used with the lock held; connections are deleted and `m_total` is counted
outside of it. `m_createTime` is never set, both tests of the age are the wrong way round, and
`m_maxSize` is not looked at. The counter is right all the same whenever no call is under way.
-/

namespace CxkFramework

/-- A connection, with the time it was really made. -/
structure HttpConnection where
  createTime : Nat := 0
  request : Nat := 0
  isConnected : Bool := true
  born : Nat
  deriving DecidableEq, Repr

namespace HttpConnectionPool

/-- Where a call of `getConnection` or `ReleasePtr` is. -/
inductive Call where
  /-- `now_ms` is read, with the lock next -/
  | started (now : Nat)
  /-- past `lock.unlock()` -/
  | scanned (invalid : List Nat) (ptr : Option Nat)
  /-- so many connections are deleted, with `m_total` next -/
  | purged (count : Nat) (ptr : Option Nat)
  /-- nothing was found, with the lookup of the address next -/
  | connecting
  /-- past `new HttpConnection`, with `++m_total` next -/
  | created (ptr : Nat)
  /-- `ReleasePtr` keeps the connection, with the lock next -/
  | kept (ptr : Nat)
  /-- `ReleasePtr` has deleted the connection, with `--m_total` next -/
  | deleted
  | returned
  deriving DecidableEq, Repr

end HttpConnectionPool

open HttpConnectionPool

structure HttpConnectionPool where
  maxSize : Nat
  maxAliveTime : Nat
  maxRequest : Nat
  conns : List Nat
  total : Int
  /-- the connections that were ever made, by number -/
  conn : Nat → HttpConnection
  made : Nat
  /-- what callers have -/
  held : List Nat
  calls : List Call
  clock : Nat

namespace HttpConnectionPool

open Runs

def init (maxSize maxAliveTime maxRequest clock : Nat) : HttpConnectionPool where
  maxSize := maxSize
  maxAliveTime := maxAliveTime
  maxRequest := maxRequest
  conns := []
  total := 0
  conn _ := { born := 0 }
  made := 0
  held := []
  calls := []
  clock := clock

inductive Op where
  | setClock (clock : Nat)
  /-- the peer goes away -/
  | drop (ptr : Nat)
  | getConnection
  | scan (i : Nat)
  | purge (i : Nat)
  /-- `m_total -= invalid_conn.size()`, and the return if there is a connection -/
  | subtract (i : Nat)
  /-- the lookup, the socket or `connect` fails -/
  | giveUp (i : Nat)
  | create (i : Nat)
  | increment (i : Nat)
  | release (ptr : Nat)
  | pushBack (i : Nat)
  | decrement (i : Nat)
  deriving DecidableEq, Repr

/-- Why a step has no result. -/
inductive Halt where
  | disabled
  deriving DecidableEq, Repr

/-- The test of `getConnection` for a connection it does not hand out. -/
def isStale (s : HttpConnectionPool) (now ptr : Nat) : Bool :=
  !(s.conn ptr).isConnected || (s.conn ptr).createTime + s.maxAliveTime > now

/-- The test of `ReleasePtr` for a connection it deletes. -/
def isSpent (s : HttpConnectionPool) (ptr : Nat) : Bool :=
  !(s.conn ptr).isConnected || (s.conn ptr).createTime + s.maxAliveTime ≥ s.clock ||
    (s.conn ptr).request ≥ s.maxRequest

/-- `++ptr->m_request`. -/
def countRequest (s : HttpConnectionPool) (ptr : Nat) : HttpConnectionPool :=
  { s with conn := Function.update s.conn ptr { s.conn ptr with request := (s.conn ptr).request + 1 } }

/-- What `ReleasePtr` decides, past `++ptr->m_request`. -/
def releaseCall (s : HttpConnectionPool) (ptr : Nat) : Call :=
  if s.isSpent ptr then .deleted else .kept ptr

/-- `new HttpConnection(sock)`. -/
def newConnection (s : HttpConnectionPool) : HttpConnectionPool :=
  { s with conn := Function.update s.conn s.made { born := s.clock }, made := s.made + 1 }

def setCall (s : HttpConnectionPool) (i : Nat) (c : Call) : HttpConnectionPool :=
  { s with calls := s.calls.set i c }

def step (s : HttpConnectionPool) : Op → Except Halt HttpConnectionPool
  | .setClock clock => .ok { s with clock }
  | .drop ptr =>
    .ok { s with conn := Function.update s.conn ptr { s.conn ptr with isConnected := false } }
  | .getConnection => .ok { s with calls := s.calls ++ [.started s.clock] }
  | .scan i =>
    match s.calls[i]? with
    | some (.started now) =>
      .ok ({ s with conns := (s.conns.dropWhile (s.isStale now)).tail }.setCall i
        (.scanned (s.conns.takeWhile (s.isStale now)) (s.conns.dropWhile (s.isStale now)).head?))
    | _ => .error .disabled
  | .purge i =>
    match s.calls[i]? with
    | some (.scanned invalid ptr) => .ok (s.setCall i (.purged invalid.length ptr))
    | _ => .error .disabled
  | .subtract i =>
    match s.calls[i]? with
    | some (.purged count (some ptr)) =>
      .ok ({ s with total := toInt (s.total - count), held := ptr :: s.held }.setCall i .returned)
    | some (.purged count none) =>
      .ok ({ s with total := toInt (s.total - count) }.setCall i .connecting)
    | _ => .error .disabled
  | .giveUp i =>
    match s.calls[i]? with
    | some .connecting => .ok (s.setCall i .returned)
    | _ => .error .disabled
  | .create i =>
    match s.calls[i]? with
    | some .connecting =>
      .ok (s.newConnection.setCall i (.created s.made))
    | _ => .error .disabled
  | .increment i =>
    match s.calls[i]? with
    | some (.created ptr) =>
      .ok ({ s with total := toInt (s.total + 1), held := ptr :: s.held }.setCall i .returned)
    | _ => .error .disabled
  | .release ptr =>
    if ptr ∈ s.held then
      .ok { s.countRequest ptr with
        held := s.held.erase ptr
        calls := s.calls ++ [(s.countRequest ptr).releaseCall ptr] }
    else .error .disabled
  | .pushBack i =>
    match s.calls[i]? with
    | some (.kept ptr) => .ok ({ s with conns := s.conns ++ [ptr] }.setCall i .returned)
    | _ => .error .disabled
  | .decrement i =>
    match s.calls[i]? with
    | some .deleted => .ok ({ s with total := toInt (s.total - 1) }.setCall i .returned)
    | _ => .error .disabled

def Step (s : HttpConnectionPool) (op : Op) (s' : HttpConnectionPool) : Prop := s.step op = .ok s'

/-! ## Accounts -/

/-- The connections in the hands of a call. -/
def Call.owns : Call → List Nat
  | .scanned invalid ptr => invalid ++ ptr.toList
  | .purged _ ptr => ptr.toList
  | .created ptr | .kept ptr => [ptr]
  | .started _ | .connecting | .deleted | .returned => []

/-- What a call still has counted in `m_total`. -/
def Call.counted : Call → Nat
  | .scanned invalid ptr => invalid.length + ptr.toList.length
  | .purged count ptr => count + ptr.toList.length
  | .kept _ | .deleted => 1
  | .started _ | .connecting | .created _ | .returned => 0

/-- How often a connection is in the list, with a caller, or in the hands of a call. -/
def places (s : HttpConnectionPool) (ptr : Nat) : Nat :=
  s.conns.count ptr + s.held.count ptr + (s.calls.map fun c => c.owns.count ptr).sum

/-- No call of the pool is under way. -/
def Quiet (s : HttpConnectionPool) : Prop := ∀ c ∈ s.calls, c = .returned

instance (s : HttpConnectionPool) : Decidable (Quiet s) :=
  inferInstanceAs (Decidable (∀ c ∈ s.calls, c = .returned))

/-- `m_total` is the number of connections in the list and with callers (an `int32_t`, so that
number itself below 2^31), and no connection is in two of these places. -/
structure Accounted (s : HttpConnectionPool) : Prop where
  total_eq : s.total = toInt (s.conns.length + s.held.length : Nat)
  once : (s.conns ++ s.held).Nodup

/-- `m_total` with what the calls have still counted, and nothing owned twice. -/
structure Inv (s : HttpConnectionPool) : Prop where
  total_eq : s.total = toInt (s.conns.length + s.held.length + (s.calls.map Call.counted).sum : Nat)
  once : ∀ ptr, s.places ptr ≤ 1
  made : ∀ ptr, s.made ≤ ptr → s.places ptr = 0

theorem sum_returned {f : Call → Nat} (hf : f .returned = 0) {calls : List Call}
    (h : ∀ c ∈ calls, c = .returned) : (calls.map f).sum = 0 := by
  induction calls with
  | nil => rfl
  | cons c calls ih =>
    rw [List.map_cons, List.sum_cons, h c List.mem_cons_self, hf,
      ih fun c hc => h c (List.mem_cons_of_mem _ hc)]

theorem Inv.accounted {s : HttpConnectionPool} (h : Inv s) (hq : Quiet s) : Accounted s where
  total_eq := by
    rw [h.total_eq, sum_returned rfl hq, Nat.add_zero]
  once := by
    rw [List.nodup_iff_count]
    intro ptr
    have hplaces := h.once ptr
    rw [List.count_append]
    rw [places] at hplaces
    omega

theorem toInt_zero : toInt 0 = 0 := Stream.toInt_of_lt le_rfl (by decide)

theorem toInt_add (n m : Int) : toInt (toInt n + m) = toInt (n + m) := Int.bmod_add_bmod

theorem inv_init (maxSize maxAliveTime maxRequest clock : Nat) :
    Inv (init maxSize maxAliveTime maxRequest clock) where
  total_eq := toInt_zero.symm
  once _ := Nat.zero_le 1
  made _ _ := rfl

/-! ## What a step keeps -/

section Keep

variable {s s' : HttpConnectionPool} {i : Nat} {c c' : Call}

theorem Inv.total_toInt (h : Inv s) : s.total = toInt (s.total + 0) := by
  rw [h.total_eq, toInt_add, Int.add_zero]

/-- No connection gets into two places, and `m_total` changes by as much as what it counts. -/
theorem Inv.of_places (h : Inv s) (hmade : s'.made = s.made)
    (hplaces : ∀ ptr, s'.places ptr ≤ s.places ptr) {d : Int} (htotal : s'.total = toInt (s.total + d))
    (hcount : (s'.conns.length + s'.held.length + (s'.calls.map Call.counted).sum : Int) =
      s.conns.length + s.held.length + (s.calls.map Call.counted).sum + d) : Inv s' where
  total_eq := by
    rw [htotal, h.total_eq, toInt_add]
    congr 1
    omega
  once ptr := (hplaces ptr).trans (h.once ptr)
  made := by
    intro ptr hptr
    rw [hmade] at hptr
    have hzero := h.made ptr hptr
    have hle := hplaces ptr
    omega

/-- One call goes on. -/
theorem Inv.advance (h : Inv s) (hi : s.calls[i]? = some c) (hcalls : s'.calls = s.calls.set i c')
    (hmade : s'.made = s.made)
    (hplaces : ∀ ptr, s'.conns.count ptr + s'.held.count ptr + c'.owns.count ptr ≤
      s.conns.count ptr + s.held.count ptr + c.owns.count ptr) {d : Int}
    (htotal : s'.total = toInt (s.total + d))
    (hcount : (s'.conns.length + s'.held.length + c'.counted : Int) =
      s.conns.length + s.held.length + c.counted + d) : Inv s' := by
  refine h.of_places hmade ?_ htotal ?_
  · intro ptr
    have hsum := sum_map_set (fun c => c.owns.count ptr) s.calls i c c' hi
    have hptr := hplaces ptr
    rw [places, places, hcalls]
    omega
  · have hsum := sum_map_set Call.counted s.calls i c c' hi
    rw [hcalls]
    omega

/-- A call begins. -/
theorem Inv.begins (h : Inv s) (hcalls : s'.calls = s.calls ++ [c]) (hmade : s'.made = s.made)
    (hplaces : ∀ ptr, s'.conns.count ptr + s'.held.count ptr + c.owns.count ptr ≤
      s.conns.count ptr + s.held.count ptr)
    (htotal : s'.total = s.total)
    (hcount : s'.conns.length + s'.held.length + c.counted = s.conns.length + s.held.length) :
    Inv s' := by
  refine h.of_places hmade ?_ (htotal.trans h.total_toInt) ?_
  · intro ptr
    have hptr := hplaces ptr
    rw [places, places, hcalls, List.map_append, List.sum_append]
    simp only [List.map_cons, List.map_nil, List.sum_cons, List.sum_nil]
    omega
  · rw [hcalls, List.map_append, List.sum_append]
    simp only [List.map_cons, List.map_nil, List.sum_cons, List.sum_nil]
    omega

theorem split_stale (s : HttpConnectionPool) (now : Nat) :
    s.conns = s.conns.takeWhile (s.isStale now) ++
      ((s.conns.dropWhile (s.isStale now)).head?.toList ++ (s.conns.dropWhile (s.isStale now)).tail) := by
  conv_lhs => rw [← @List.takeWhile_append_dropWhile _ (s.isStale now) s.conns]
  cases s.conns.dropWhile (s.isStale now) <;> rfl

theorem inv_scan (h : Inv s) (hs : Step s (.scan i) s') : Inv s' := by
  rw [Step, step] at hs
  split at hs
  · rename_i now hi
    cases hs
    have hsplit := s.split_stale now
    have hlength := congrArg List.length hsplit
    refine h.advance hi rfl rfl ?_ h.total_toInt ?_
    · intro ptr
      have hcount := congrArg (List.count ptr) hsplit
      simp only [setCall, Call.owns, List.count_append, List.count_nil] at hcount ⊢
      omega
    · simp only [setCall, Call.counted, List.length_append] at hlength ⊢
      omega
  · cases hs

theorem inv_purge (h : Inv s) (hs : Step s (.purge i) s') : Inv s' := by
  rw [Step, step] at hs
  split at hs
  · rename_i invalid ptr hi
    cases hs
    refine h.advance hi rfl rfl ?_ h.total_toInt ?_
    · intro ptr
      simp only [setCall, Call.owns, List.count_append]
      omega
    · simp [setCall, Call.counted]
  · cases hs

theorem inv_subtract (h : Inv s) (hs : Step s (.subtract i) s') : Inv s' := by
  rw [Step, step] at hs
  split at hs
  · rename_i count ptr hi
    cases hs
    refine h.advance hi rfl rfl ?_ rfl ?_
    · intro ptr'
      simp only [setCall, Call.owns, List.count_cons, Option.toList, List.count_nil]
      omega
    · simp only [setCall, Call.counted, List.length_cons, List.length_nil, Option.toList]
      omega
  · rename_i count hi
    cases hs
    refine h.advance hi rfl rfl ?_ rfl ?_
    · intro ptr
      simp [setCall, Call.owns]
    · simp only [setCall, Call.counted, List.length_nil, Option.toList]
      omega
  · cases hs

theorem inv_giveUp (h : Inv s) (hs : Step s (.giveUp i) s') : Inv s' := by
  rw [Step, step] at hs
  split at hs
  · rename_i hi
    cases hs
    refine h.advance hi rfl rfl ?_ h.total_toInt ?_
    · simp [setCall, Call.owns]
    · simp [setCall, Call.counted]
  · cases hs

/-- A new connection is nowhere yet. -/
theorem inv_create (h : Inv s) (hs : Step s (.create i) s') : Inv s' := by
  rw [Step, step] at hs
  split at hs
  · rename_i hi
    cases hs
    have hplaces : ∀ ptr, (s.newConnection.setCall i (.created s.made)).places ptr =
        s.places ptr + if s.made = ptr then 1 else 0 := by
      intro ptr
      have hsum := sum_map_set (fun c => c.owns.count ptr) s.calls i _ (.created s.made) hi
      have hnew : (Call.created s.made).owns.count ptr = if s.made = ptr then 1 else 0 := by
        simp [Call.owns, List.count_singleton]
      have hold : Call.connecting.owns.count ptr = 0 := rfl
      rw [places, places]
      simp only [setCall, newConnection]
      omega
    refine ⟨?_, ?_, ?_⟩
    · have hsum := sum_map_set Call.counted s.calls i _ (.created s.made) hi
      have hnew : (Call.created s.made).counted = Call.connecting.counted := rfl
      simp only [setCall, newConnection]
      rw [h.total_eq]
      congr 2
      omega
    · intro ptr
      have hptr := h.once ptr
      rw [hplaces]
      split
      · rename_i hnew
        rw [h.made ptr (by omega)]
      · exact hptr
    · intro ptr hptr
      simp only [setCall, newConnection] at hptr
      rw [hplaces, h.made ptr (by omega), if_neg (by omega)]
  · cases hs

theorem inv_increment (h : Inv s) (hs : Step s (.increment i) s') : Inv s' := by
  rw [Step, step] at hs
  split at hs
  · rename_i ptr hi
    cases hs
    refine h.advance hi rfl rfl ?_ rfl ?_
    · intro ptr'
      simp only [setCall, Call.owns, List.count_cons, List.count_nil]
      omega
    · simp only [setCall, Call.counted, List.length_cons]
      omega
  · cases hs

theorem count_releaseCall (s : HttpConnectionPool) (ptr ptr' : Nat) :
    (s.releaseCall ptr).owns.count ptr' ≤ [ptr].count ptr' := by
  rw [releaseCall]
  split
  · exact Nat.zero_le _
  · exact le_rfl

theorem counted_releaseCall (s : HttpConnectionPool) (ptr : Nat) : (s.releaseCall ptr).counted = 1 := by
  rw [releaseCall]
  split <;> rfl

/-- A call begins, with what a caller has held so far. -/
theorem inv_release {ptr : Nat} (h : Inv s) (hs : Step s (.release ptr) s') : Inv s' := by
  rw [Step, step] at hs
  split at hs
  · rename_i hheld
    cases hs
    have hlength := List.length_erase_of_mem hheld
    have hpos := List.length_pos_of_mem hheld
    have hcounts : ∀ ptr', (s.held.erase ptr).count ptr' + [ptr].count ptr' = s.held.count ptr' := by
      intro ptr'
      rw [(List.perm_cons_erase hheld).count_eq, ← List.count_append]
      exact List.perm_append_comm.count_eq ptr'
    refine h.begins rfl rfl ?_ rfl ?_
    · intro ptr'
      have hptr := hcounts ptr'
      have howns := (s.countRequest ptr).count_releaseCall ptr ptr'
      simp only [countRequest] at howns ⊢
      omega
    · rw [counted_releaseCall]
      simp only [countRequest]
      omega
  · cases hs

theorem inv_pushBack (h : Inv s) (hs : Step s (.pushBack i) s') : Inv s' := by
  rw [Step, step] at hs
  split at hs
  · rename_i ptr hi
    cases hs
    refine h.advance hi rfl rfl ?_ h.total_toInt ?_
    · intro ptr'
      simp only [setCall, Call.owns, List.count_append, List.count_nil]
      omega
    · simp only [setCall, Call.counted, List.length_append, List.length_singleton]
      omega
  · cases hs

theorem inv_decrement (h : Inv s) (hs : Step s (.decrement i) s') : Inv s' := by
  rw [Step, step] at hs
  split at hs
  · rename_i hi
    cases hs
    refine h.advance hi rfl rfl ?_ rfl ?_
    · simp [setCall, Call.owns]
    · simp only [setCall, Call.counted]
      omega
  · cases hs

theorem inv_step {op : Op} (h : Inv s) (hs : Step s op s') : Inv s' := by
  cases op with
  | setClock clock =>
    cases hs
    exact ⟨h.total_eq, h.once, h.made⟩
  | drop ptr =>
    cases hs
    exact ⟨h.total_eq, h.once, h.made⟩
  | getConnection =>
    cases hs
    exact h.begins rfl rfl (fun ptr => le_rfl) rfl rfl
  | scan i => exact inv_scan h hs
  | purge i => exact inv_purge h hs
  | subtract i => exact inv_subtract h hs
  | giveUp i => exact inv_giveUp h hs
  | create i => exact inv_create h hs
  | increment i => exact inv_increment h hs
  | release ptr => exact inv_release h hs
  | pushBack i => exact inv_pushBack h hs
  | decrement i => exact inv_decrement h hs

end Keep

/-- In every run, whenever no call is under way, `m_total` is right and no connection is in two
places. -/
theorem run_accounted {maxSize maxAliveTime maxRequest clock : Nat}
    {t : List (Op × HttpConnectionPool)}
    (run : Run Step (init maxSize maxAliveTime maxRequest clock) t) :
    Always (fun s => Quiet s → Accounted s) (init maxSize maxAliveTime maxRequest clock) t :=
  (always_of_step (fun _ _ _ h hs => inv_step h hs) run (inv_init _ _ _ _)).mono
    fun _ h => h.accounted

/-- Two connections are made at once, one attempt fails; a connection is put back, dropped by the
peer, and replaced, and one is released with its limit reached. -/
theorem run_accounted_replaced : ∃ t, Run Step (init 2 100 2 1000) t ∧
    (last (init 2 100 2 1000) t).total = 1 ∧ Quiet (last (init 2 100 2 1000) t) ∧
    Always (fun s => Quiet s → Accounted s) (init 2 100 2 1000) t := by
  have run := run_of_trace (f := step) (s := init 2 100 2 1000)
    [.getConnection, .getConnection, .getConnection, .scan 0, .scan 1, .scan 2, .purge 0, .purge 1,
      .purge 2, .subtract 0, .subtract 1, .subtract 2, .create 0, .create 1, .giveUp 2, .increment 1,
      .increment 0, .release 0, .pushBack 3, .drop 0, .getConnection, .scan 4, .purge 4, .subtract 4,
      .create 4, .increment 4, .drop 1, .release 1, .decrement 5] rfl
  refine ⟨_, run, ?_, ?_, run_accounted run⟩
  · decide
  · decide

end HttpConnectionPool

end CxkFramework
