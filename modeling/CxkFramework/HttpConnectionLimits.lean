import CxkFramework.HttpConnectionPool
import Mathlib.Algebra.Order.BigOperators.Group.List
import Mathlib.Data.List.Find
import Mathlib.Data.List.TakeWhile

/-!
# The limits of the connection pool

What the pool promises of age, requests and number of its connections. The count of requests is
kept. Since no connection is stamped and the tests of the age are the wrong way round, the age is
right only as long as nothing in the list is older than `m_maxAliveTime` anyway, and a connection
is put back only when the clock itself reads more than `m_maxAliveTime`; and `m_maxSize` holds only
as long as the callers keep to it.
-/

namespace CxkFramework

namespace HttpConnectionPool

open Runs

/-! ## The promises -/

/-- Made less than `m_maxAliveTime` ago. -/
def isYoung (s : HttpConnectionPool) (ptr : Nat) : Prop :=
  s.clock < (s.conn ptr).born + s.maxAliveTime

/-- A connection from the list is handed out connected, young and with requests left; one that is
released so is put back. -/
def Fair (s : HttpConnectionPool) (op : Op) (s' : HttpConnectionPool) : Prop :=
  match op with
  | .scan i =>
    ∀ invalid ptr, s'.calls[i]? = some (.scanned invalid (some ptr)) →
      (s.conn ptr).isConnected = true ∧ s.isYoung ptr ∧ (s.conn ptr).request < s.maxRequest
  | .release ptr =>
    (s.conn ptr).isConnected = true → s.isYoung ptr → (s.conn ptr).request + 1 < s.maxRequest →
      s'.calls = s.calls ++ [.kept ptr]
  | _ => True

/-- How many connections are not deleted. -/
def live (s : HttpConnectionPool) : Nat :=
  s.conns.length + s.held.length + (s.calls.map fun c => c.owns.length).sum

def WithinSize (s : HttpConnectionPool) : Prop := s.live ≤ s.maxSize

/-! ## When they are kept -/

/-- The first connected one of the list is young, unless the clock read less than
`m_maxAliveTime`. -/
def FindsYoung (s : HttpConnectionPool) : Op → Prop
  | .scan i =>
    ∀ now, s.calls[i]? = some (.started now) → s.maxAliveTime ≤ now →
      ∀ ptr, s.conns.find? (fun ptr => (s.conn ptr).isConnected) = some ptr → s.isYoung ptr
  | .release ptr =>
    (s.conn ptr).isConnected = true → s.isYoung ptr → (s.conn ptr).request + 1 < s.maxRequest →
      s.maxAliveTime < s.clock
  | _ => True

/-- Where a connection is made, there are fewer than `m_maxSize`. -/
def HasRoom (s : HttpConnectionPool) : Op → Prop
  | .create _ => s.live < s.maxSize
  | _ => True

/-- No connection is stamped, and those that can be handed out have requests left. -/
structure Limits (s : HttpConnectionPool) : Prop where
  inv : Inv s
  createTime : ∀ ptr, (s.conn ptr).createTime = 0
  conns : ∀ ptr ∈ s.conns, (s.conn ptr).request < s.maxRequest
  kept : ∀ ptr, .kept ptr ∈ s.calls → (s.conn ptr).request < s.maxRequest

theorem limits_init (maxSize maxAliveTime maxRequest clock : Nat) :
    Limits (init maxSize maxAliveTime maxRequest clock) where
  inv := inv_init _ _ _ _
  createTime _ := rfl
  conns := nofun
  kept := nofun

section Keep

variable {s s' : HttpConnectionPool} {op : Op} {ptr : Nat}

theorem isStale_eq (h : Limits s) (now ptr : Nat) :
    s.isStale now ptr = (!(s.conn ptr).isConnected || decide (now < s.maxAliveTime)) := by
  rw [isStale, h.createTime ptr, Nat.zero_add]

/-- With the clock past `m_maxAliveTime` the scan stops at the first connected one, and with the
clock before it at none. -/
theorem scan_finds (h : Limits s) (now : Nat) :
    (s.conns.dropWhile (s.isStale now)).head? =
      if s.maxAliveTime ≤ now then s.conns.find? fun ptr => (s.conn ptr).isConnected else none := by
  rw [← List.find?_not_eq_head?_dropWhile]
  split
  · rename_i hle
    apply List.find?_congr
    intro ptr _
    simp [isStale_eq h, hle]
  · rename_i hlt
    rw [List.find?_eq_none]
    intro ptr _
    simp [isStale_eq h, Nat.lt_of_not_le hlt]

theorem isSpent_eq (h : Limits s) (ptr : Nat) :
    (s.countRequest ptr).isSpent ptr = (!(s.conn ptr).isConnected || decide (s.clock ≤ s.maxAliveTime) ||
      decide (s.maxRequest ≤ (s.conn ptr).request + 1)) := by
  simp [isSpent, countRequest, h.createTime ptr]

/-! ## Where a connection is not -/

theorem places_pos_of_conns (h : ptr ∈ s.conns) : 0 < s.conns.count ptr ∧ 0 < s.places ptr := by
  have hcount := List.count_pos_iff.mpr h
  rw [places]
  omega

theorem places_pos_of_kept (h : .kept ptr ∈ s.calls) :
    0 < (s.calls.map fun c => c.owns.count ptr).sum ∧ 0 < s.places ptr := by
  have hmem : (Call.kept ptr).owns.count ptr ∈ s.calls.map fun c => c.owns.count ptr :=
    List.mem_map_of_mem h
  have hle := List.le_sum_of_mem hmem
  have hone : (Call.kept ptr).owns.count ptr = 1 := by simp [Call.owns]
  rw [places]
  omega

theorem Limits.ne_made (h : Limits s) (hptr : 0 < s.places ptr) : ptr ≠ s.made := by
  rintro rfl
  rw [h.inv.made s.made le_rfl] at hptr
  exact absurd hptr (Nat.lt_irrefl 0)

theorem Limits.ne_of_conns {ptr' : Nat} (h : Limits s) (hptr : ptr ∈ s.conns) (hheld : ptr' ∈ s.held) :
    ptr ≠ ptr' := by
  rintro rfl
  have hconns := (places_pos_of_conns hptr).1
  have hcount := List.count_pos_iff.mpr hheld
  have honce := h.inv.once ptr
  rw [places] at honce
  omega

theorem Limits.ne_of_kept {ptr' : Nat} (h : Limits s) (hptr : .kept ptr ∈ s.calls)
    (hheld : ptr' ∈ s.held) : ptr ≠ ptr' := by
  rintro rfl
  have hkept := (places_pos_of_kept hptr).1
  have hcount := List.count_pos_iff.mpr hheld
  have honce := h.inv.once ptr
  rw [places] at honce
  omega

/-! ## What a step keeps -/

/-- Nothing is kept anew, and what is in the list or kept has its count unchanged. -/
theorem Limits.of_subset (h : Limits s) (hs : Step s op s') (hmax : s'.maxRequest = s.maxRequest)
    (hconns : ∀ ptr ∈ s'.conns, ptr ∈ s.conns ∨ .kept ptr ∈ s.calls)
    (hkept : ∀ ptr, .kept ptr ∈ s'.calls → .kept ptr ∈ s.calls)
    (hcreate : ∀ ptr, (s'.conn ptr).createTime = 0)
    (hrequest : ∀ ptr, ptr ∈ s.conns ∨ .kept ptr ∈ s.calls →
      (s'.conn ptr).request = (s.conn ptr).request) : Limits s' where
  inv := inv_step h.inv hs
  createTime := hcreate
  conns := by
    intro ptr hptr
    rw [hmax, hrequest ptr (hconns ptr hptr)]
    exact (hconns ptr hptr).elim (h.conns ptr) (h.kept ptr)
  kept := by
    intro ptr hptr
    rw [hmax, hrequest ptr (.inr (hkept ptr hptr))]
    exact h.kept ptr (hkept ptr hptr)

theorem kept_of_set {i : Nat} {c : Call} (hc : ∀ ptr, c ≠ .kept ptr)
    (h : .kept ptr ∈ s.calls.set i c) : .kept ptr ∈ s.calls :=
  (List.mem_or_eq_of_mem_set h).resolve_right fun heq => hc ptr heq.symm

/-- Only a call goes on. -/
theorem Limits.of_call {i : Nat} {c : Call} (h : Limits s) (hs : Step s op s')
    (hc : ∀ ptr, c ≠ .kept ptr) (hcalls : s'.calls = s.calls.set i c)
    (hmax : s'.maxRequest = s.maxRequest) (hconns : s'.conns = s.conns) (hconn : s'.conn = s.conn) :
    Limits s' := by
  refine h.of_subset hs hmax ?_ ?_ ?_ ?_
  · intro ptr hptr
    exact .inl (hconns ▸ hptr)
  · intro ptr hptr
    exact kept_of_set hc (hcalls ▸ hptr)
  · intro ptr
    rw [hconn]
    exact h.createTime ptr
  · intro ptr _
    rw [hconn]

theorem limits_release (h : Limits s) (hs : Step s (.release ptr) s') : Limits s' := by
  have hinv := inv_step h.inv hs
  rw [Step, step] at hs
  split at hs
  · rename_i hheld
    cases hs
    have hother : ∀ ptr', ptr' ≠ ptr → (s.countRequest ptr).conn ptr' = s.conn ptr' :=
      fun ptr' hne => Function.update_of_ne hne _ _
    refine ⟨hinv, ?_, ?_, ?_⟩
    · intro ptr'
      by_cases hptr : ptr' = ptr
      · subst hptr
        simp [countRequest, h.createTime]
      · exact (congrArg HttpConnection.createTime (hother ptr' hptr)).trans (h.createTime ptr')
    · intro ptr' hptr'
      have hne := h.ne_of_conns hptr' hheld
      exact (congrArg HttpConnection.request (hother ptr' hne)).trans_lt (h.conns ptr' hptr')
    · intro ptr' hptr'
      rcases List.mem_append.mp hptr' with hold | hnew
      · have hne := h.ne_of_kept hold hheld
        exact (congrArg HttpConnection.request (hother ptr' hne)).trans_lt (h.kept ptr' hold)
      · have hdecided := List.mem_singleton.mp hnew
        rw [releaseCall] at hdecided
        split at hdecided
        · cases hdecided
        · rename_i hspent
          cases hdecided
          simp only [isSpent, Bool.or_eq_true, not_or, decide_eq_true_eq] at hspent
          exact Nat.lt_of_not_le hspent.2
  · cases hs

theorem limits_create {i : Nat} (h : Limits s) (hs : Step s (.create i) s') : Limits s' := by
  have hs' := hs
  rw [Step, step] at hs'
  split at hs'
  · cases hs'
    have hother : ∀ ptr, ptr ≠ s.made → s.newConnection.conn ptr = s.conn ptr :=
      fun ptr hne => Function.update_of_ne hne _ _
    refine h.of_subset hs rfl (fun _ hp => .inl hp) (fun _ hp => kept_of_set (by simp) hp) ?_ ?_
    · intro ptr
      by_cases hptr : ptr = s.made
      · subst hptr
        simp [newConnection, setCall]
      · exact (congrArg HttpConnection.createTime (hother ptr hptr)).trans (h.createTime ptr)
    · intro ptr hptr
      have hpos : 0 < s.places ptr :=
        hptr.elim (fun hp => (places_pos_of_conns hp).2) fun hp => (places_pos_of_kept hp).2
      exact congrArg HttpConnection.request (hother ptr (h.ne_made hpos))
  · cases hs'

theorem limits_drop (h : Limits s) (hs : Step s (.drop ptr) s') : Limits s' := by
  have hs' := hs
  cases hs'
  refine h.of_subset hs rfl (fun _ hp => .inl hp) (fun _ hp => hp) ?_ ?_
  · intro ptr'
    by_cases hptr : ptr' = ptr
    · subst hptr
      simp [h.createTime]
    · exact (congrArg HttpConnection.createTime (Function.update_of_ne hptr _ _)).trans
        (h.createTime ptr')
  · intro ptr' _
    by_cases hptr : ptr' = ptr
    · subst hptr
      simp
    · exact congrArg HttpConnection.request (Function.update_of_ne hptr _ _)

theorem limits_step (h : Limits s) (hs : Step s op s') : Limits s' := by
  have hs' := hs
  cases op with
  | release ptr => exact limits_release h hs
  | create i => exact limits_create h hs
  | drop ptr => exact limits_drop h hs
  | setClock clock =>
    cases hs'
    exact h.of_subset hs rfl (fun _ hp => .inl hp) (fun _ hp => hp) h.createTime fun _ _ => rfl
  | getConnection =>
    cases hs'
    refine h.of_subset hs rfl (fun _ hp => .inl hp) ?_ h.createTime fun _ _ => rfl
    intro ptr hptr
    exact (List.mem_append.mp hptr).resolve_right (by simp)
  | scan i =>
    rw [Step, step] at hs'
    split at hs'
    · cases hs'
      refine h.of_subset hs rfl ?_ (fun _ hp => kept_of_set (by simp) hp) h.createTime fun _ _ => rfl
      intro ptr hptr
      exact .inl ((List.dropWhile_sublist _).subset (List.mem_of_mem_tail hptr))
    · cases hs'
  | pushBack i =>
    rw [Step, step] at hs'
    split at hs'
    · rename_i ptr hi
      cases hs'
      refine h.of_subset hs rfl ?_ (fun _ hp => kept_of_set (by simp) hp) h.createTime fun _ _ => rfl
      intro ptr' hptr'
      rcases List.mem_append.mp hptr' with hold | hnew
      · exact .inl hold
      · rw [List.mem_singleton.mp hnew]
        exact .inr (List.mem_of_getElem? hi)
    · cases hs'
  | purge i =>
    rw [Step, step] at hs'
    split at hs'
    · cases hs'
      exact h.of_call hs (by simp) rfl rfl rfl rfl
    · cases hs'
  | subtract i =>
    rw [Step, step] at hs'
    split at hs'
    · cases hs'
      exact h.of_call hs (by simp) rfl rfl rfl rfl
    · cases hs'
      exact h.of_call hs (by simp) rfl rfl rfl rfl
    · cases hs'
  | giveUp i =>
    rw [Step, step] at hs'
    split at hs'
    · cases hs'
      exact h.of_call hs (by simp) rfl rfl rfl rfl
    · cases hs'
  | increment i =>
    rw [Step, step] at hs'
    split at hs'
    · cases hs'
      exact h.of_call hs (by simp) rfl rfl rfl rfl
    · cases hs'
  | decrement i =>
    rw [Step, step] at hs'
    split at hs'
    · cases hs'
      exact h.of_call hs (by simp) rfl rfl rfl rfl
    · cases hs'

/-! ## Steps that keep the promises -/

theorem fair_scan {i : Nat} (h : Limits s) (hs : Step s (.scan i) s') :
    Fair s (.scan i) s' ↔ FindsYoung s (.scan i) := by
  rw [Step, step] at hs
  split at hs
  · rename_i now hi
    cases hs
    have hlt := (List.getElem?_eq_some_iff.mp hi).1
    have hfinds := scan_finds h now
    rw [Fair, FindsYoung]
    simp only [setCall, List.getElem?_set_self hlt, hi, Option.some.injEq, Call.scanned.injEq,
      Call.started.injEq, and_imp]
    constructor
    · rintro hfair _ rfl hle ptr hptr
      rw [if_pos hle, hptr] at hfinds
      exact (hfair _ ptr rfl hfinds).2.1
    · rintro hyoung _ ptr rfl hptr
      rw [hfinds] at hptr
      split at hptr
      · rename_i hle
        refine ⟨?_, hyoung now rfl hle ptr hptr, h.conns ptr (List.mem_of_find?_eq_some hptr)⟩
        simpa using List.find?_some hptr
      · cases hptr
  · cases hs

theorem fair_release (h : Limits s) (hs : Step s (.release ptr) s') :
    Fair s (.release ptr) s' ↔ FindsYoung s (.release ptr) := by
  rw [Step, step] at hs
  split at hs
  · cases hs
    rw [Fair, FindsYoung]
    refine forall_congr' fun hconnected => forall_congr' fun _ => forall_congr' fun hrequest => ?_
    have hspent := isSpent_eq h ptr
    simp only [hconnected, Bool.not_true, Bool.false_or, Nat.not_le_of_lt hrequest, decide_false,
      Bool.or_false] at hspent
    rw [releaseCall, hspent]
    by_cases hle : s.clock ≤ s.maxAliveTime
    · simp [hle]
    · simp [hle, Nat.lt_of_not_le hle]
  · cases hs

theorem fair_step (h : Limits s) (hs : Step s op s') : Fair s op s' ↔ FindsYoung s op := by
  cases op with
  | scan i => exact fair_scan h hs
  | release ptr => exact fair_release h hs
  | _ => exact Iff.rfl

theorem live_set {i : Nat} {c c' : Call} (hi : s.calls[i]? = some c)
    (hcalls : s'.calls = s.calls.set i c')
    (hle : s'.conns.length + s'.held.length + c'.owns.length ≤
      s.conns.length + s.held.length + c.owns.length) : s'.live ≤ s.live := by
  have hsum := sum_map_set (fun c => c.owns.length) s.calls i c c' hi
  rw [live, live, hcalls]
  omega

theorem live_append {c : Call} (hcalls : s'.calls = s.calls ++ [c])
    (hle : s'.conns.length + s'.held.length + c.owns.length ≤ s.conns.length + s.held.length) :
    s'.live ≤ s.live := by
  rw [live, live, hcalls, List.map_append, List.sum_append]
  simp only [List.map_cons, List.map_nil, List.sum_cons, List.sum_nil]
  omega

theorem live_scan {i : Nat} (hs : Step s (.scan i) s') : s'.live ≤ s.live := by
  rw [Step, step] at hs
  split at hs
  · rename_i now hi
    cases hs
    have hlength := congrArg List.length (s.split_stale now)
    refine live_set hi rfl ?_
    simp only [setCall, Call.owns, List.length_append, List.length_nil] at hlength ⊢
    omega
  · cases hs

theorem live_create {i : Nat} (hs : Step s (.create i) s') : s'.live = s.live + 1 := by
  rw [Step, step] at hs
  split at hs
  · rename_i hi
    cases hs
    have hsum := sum_map_set (fun c => c.owns.length) s.calls i _ (.created s.made) hi
    have hnew : (Call.created s.made).owns.length = 1 := rfl
    have hold : Call.connecting.owns.length = 0 := rfl
    rw [live, live]
    simp only [setCall, newConnection]
    omega
  · cases hs

theorem live_release (hs : Step s (.release ptr) s') : s'.live ≤ s.live := by
  rw [Step, step] at hs
  split at hs
  · rename_i hheld
    cases hs
    have hlength := List.length_erase_of_mem hheld
    have hpos := List.length_pos_of_mem hheld
    have howns : ((s.countRequest ptr).releaseCall ptr).owns.length ≤ 1 := by
      rw [releaseCall]
      split
      · exact Nat.zero_le 1
      · exact le_rfl
    refine live_append rfl ?_
    simp only [countRequest] at howns ⊢
    omega
  · cases hs

theorem live_le (hs : Step s op s') (hne : ∀ i, op ≠ .create i) : s'.live ≤ s.live := by
  have hs' := hs
  cases op with
  | create i => exact absurd rfl (hne i)
  | scan i => exact live_scan hs
  | release ptr => exact live_release hs
  | setClock clock =>
    cases hs
    exact le_rfl
  | drop ptr =>
    cases hs
    exact le_rfl
  | getConnection =>
    cases hs
    exact live_append rfl le_rfl
  | purge i =>
    rw [Step, step] at hs
    split at hs
    · cases hs
      refine live_set ‹_› rfl ?_
      simp [setCall, Call.owns]
    · cases hs
  | subtract i =>
    rw [Step, step] at hs
    split at hs
    · cases hs
      refine live_set ‹_› rfl ?_
      simp [setCall, Call.owns]
      omega
    · cases hs
      refine live_set ‹_› rfl ?_
      simp [setCall, Call.owns]
    · cases hs
  | giveUp i =>
    rw [Step, step] at hs
    split at hs
    · cases hs
      refine live_set ‹_› rfl ?_
      simp [setCall, Call.owns]
    · cases hs
  | increment i =>
    rw [Step, step] at hs
    split at hs
    · cases hs
      refine live_set ‹_› rfl ?_
      simp [setCall, Call.owns]
      omega
    · cases hs
  | pushBack i =>
    rw [Step, step] at hs
    split at hs
    · cases hs
      refine live_set ‹_› rfl ?_
      simp [setCall, Call.owns]
      omega
    · cases hs
  | decrement i =>
    rw [Step, step] at hs
    split at hs
    · cases hs
      refine live_set ‹_› rfl ?_
      simp [setCall, Call.owns]
    · cases hs

theorem maxSize_step (hs : Step s op s') : s'.maxSize = s.maxSize := by
  cases op <;> rw [Step, step] at hs
  all_goals first
    | (cases hs; rfl)
    | (split at hs <;> cases hs <;> rfl)

/-- Only `new HttpConnection` makes one more. -/
theorem withinSize_step (hw : WithinSize s) (hs : Step s op s') : WithinSize s' ↔ HasRoom s op := by
  rw [WithinSize] at hw
  rw [WithinSize, maxSize_step hs]
  by_cases hcreate : ∃ i, op = .create i
  · obtain ⟨i, rfl⟩ := hcreate
    rw [live_create hs]
    exact Nat.succ_le_iff
  · have hne : ∀ i, op ≠ .create i := fun i h => hcreate ⟨i, h⟩
    have hroom : HasRoom s op := by
      cases op with
      | create i => exact absurd rfl (hne i)
      | _ => trivial
    exact iff_of_true ((live_le hs hne).trans hw) hroom

end Keep

/-- Over a whole run the promises hold exactly when every scan finds a young connection first,
what is released young finds the clock past `m_maxAliveTime`, and every new connection finds
room. -/
theorem run_fair_iff {maxSize maxAliveTime maxRequest clock : Nat}
    {t : List (Op × HttpConnectionPool)}
    (run : Run Step (init maxSize maxAliveTime maxRequest clock) t) :
    (Every Fair (init maxSize maxAliveTime maxRequest clock) t ∧
        Always WithinSize (init maxSize maxAliveTime maxRequest clock) t) ↔
      Meets FindsYoung (init maxSize maxAliveTime maxRequest clock) t ∧
        Meets HasRoom (init maxSize maxAliveTime maxRequest clock) t := by
  refine and_congr ?_ ?_
  · exact every_iff_meets Limits Fair FindsYoung (fun _ _ _ h hs => limits_step h hs)
      (fun _ _ _ h hs => fair_step h hs) run (limits_init _ _ _ _)
  · exact always_iff_meets (fun _ => True) WithinSize HasRoom (fun _ _ _ _ _ _ => trivial)
      (fun _ _ _ _ hw hs => withinSize_step hw hs) run trivial (Nat.zero_le _)

/-- A connection is put back and handed out again while it is young. -/
theorem run_fair_reused : ∃ t, Run Step (init 1 100 5 1000) t ∧
    (last (init 1 100 5 1000) t).held = [0] ∧ Every Fair (init 1 100 5 1000) t ∧
    Always WithinSize (init 1 100 5 1000) t := by
  have run := run_of_trace (f := step) (s := init 1 100 5 1000)
    [.getConnection, .scan 0, .purge 0, .subtract 0, .create 0, .increment 0, .release 0, .pushBack 1,
      .setClock 1050, .getConnection, .scan 2, .purge 2, .subtract 2] rfl
  refine ⟨_, run, rfl, (run_fair_iff run).mpr ⟨?_, ?_⟩⟩
  · refine ⟨trivial, fun _ _ _ _ => nofun, trivial, trivial, trivial, trivial, fun _ _ _ => ?_, trivial,
      trivial, trivial, fun _ _ _ ptr hptr => ?_, trivial, trivial, trivial⟩
    · exact (by decide : 100 < 1000)
    · cases hptr
      exact (by decide : 1050 < 1000 + 100)
  · exact ⟨trivial, trivial, trivial, trivial, (by decide : 0 < 1), trivial, trivial, trivial, trivial,
      trivial, trivial, trivial, trivial, trivial⟩

/-- A connection is put back, and handed out again long after `m_maxAliveTime`. -/
theorem run_old_breaks_fair : ∃ t, Run Step (init 1 100 5 1000) t ∧
    ¬(Every Fair (init 1 100 5 1000) t ∧ Always WithinSize (init 1 100 5 1000) t) := by
  have run := run_of_trace (f := step) (s := init 1 100 5 1000)
    [.getConnection, .scan 0, .purge 0, .subtract 0, .create 0, .increment 0, .release 0, .pushBack 1,
      .setClock 9000, .getConnection, .scan 2] rfl
  refine ⟨_, run, fun h => ?_⟩
  obtain ⟨-, -, -, -, -, -, -, -, -, -, hscan, -⟩ := h.1
  exact absurd (hscan [] 0 rfl).2.1 (by decide : ¬9000 < 1000 + 100)

end HttpConnectionPool

end CxkFramework
