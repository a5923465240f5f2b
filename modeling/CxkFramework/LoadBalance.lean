import CxkFramework.Runs
import Mathlib.Data.List.Count

/-!
# The statistics of a load balancer

`RockFairLoadBalance::request` on one connection. Each helper of `HolderStats` is an atomic step;
between the helpers the request is on its way. `HolderStatsSet` has a slot for each of the last
seconds and clears those that a new second makes stale.
-/

namespace CxkFramework

structure HolderStats where
  usedTime : UInt32
  total : UInt32
  doing : UInt32
  timeout : UInt32
  oks : UInt32
  errs : UInt32
  deriving DecidableEq, Repr

namespace HolderStats

def init : HolderStats := ⟨0, 0, 0, 0, 0, 0⟩

def clear (_ : HolderStats) : HolderStats := init

def incUsedTime (h : HolderStats) (v : UInt32) : HolderStats := { h with usedTime := h.usedTime + v }

def incTotal (h : HolderStats) (v : UInt32) : HolderStats := { h with total := h.total + v }

def incDoing (h : HolderStats) (v : UInt32) : HolderStats := { h with doing := h.doing + v }

def incTimeouts (h : HolderStats) (v : UInt32) : HolderStats := { h with timeout := h.timeout + v }

def incOks (h : HolderStats) (v : UInt32) : HolderStats := { h with oks := h.oks + v }

/-- `addFetch(m_errs, 0)`. -/
def incErrs (h : HolderStats) (_v : UInt32) : HolderStats := { h with errs := h.errs + 0 }

/-- `subFetch(m_doing, 0)`. -/
def decDoing (h : HolderStats) (_v : UInt32) : HolderStats := { h with doing := h.doing - 0 }

end HolderStats

/-- `HolderStatsSet`; the constructor makes a positive number of slots. -/
structure HolderStatsSet where
  lastUpdateTime : UInt32
  stats : List HolderStats
  stats_ne : stats ≠ []
  deriving DecidableEq, Repr

namespace HolderStatsSet

/-- The loop of `init`; `i` of its `size` rounds are left. -/
def clearLoop (now : UInt32) : Nat → UInt32 → List HolderStats → List HolderStats
  | 0, _, stats => stats
  | i + 1, t, stats =>
    if t ≤ now then clearLoop now i (t + 1) (stats.modify (t.toNat % stats.length) .clear)
    else stats

theorem length_clearLoop (now t : UInt32) (i : Nat) (stats : List HolderStats) :
    (clearLoop now i t stats).length = stats.length := by
  induction i generalizing t stats with
  | zero => rfl
  | succ i ih =>
    rw [clearLoop]
    split
    · rw [ih, List.length_modify]
    · rfl

/-- The update of one slot. -/
def modify (set : HolderStatsSet) (slot : Nat) (f : HolderStats → HolderStats) : HolderStatsSet where
  lastUpdateTime := set.lastUpdateTime
  stats := set.stats.modify slot f
  stats_ne := by
    apply List.ne_nil_of_length_pos
    rw [List.length_modify]
    exact List.length_pos_iff.mpr set.stats_ne

def init (set : HolderStatsSet) (now : UInt32) : HolderStatsSet :=
  if set.lastUpdateTime < now then
    { lastUpdateTime := now
      stats := clearLoop now set.stats.length (set.lastUpdateTime + 1) set.stats
      stats_ne := by
        apply List.ne_nil_of_length_pos
        rw [length_clearLoop]
        exact List.length_pos_iff.mpr set.stats_ne }
  else set

/-- `get`, a reference to the slot of the second. -/
def get (set : HolderStatsSet) (now : UInt32) : HolderStatsSet × Nat :=
  (set.init now, now.toNat % set.stats.length)

end HolderStatsSet

namespace RockFairLoadBalance

open Runs

/-- `AsyncSocketStream::TIMEOUT`. -/
def TIMEOUT : Int32 := -1

/-- How far a call of `request` is. -/
inductive Stage where
  /-- behind `incDoing` -/
  | doing
  /-- behind `incTotal`, the request is on its way -/
  | sent
  | answered (result : Int32)
  /-- behind the helper for the result -/
  | counted (result : Int32)
  /-- behind `incUsedTime` -/
  | timed
  | done (result : Int32)
  deriving DecidableEq, Repr

structure State where
  set : HolderStatsSet
  calls : List Stage
  deriving DecidableEq, Repr

inductive Label where
  | incDoing
  | incTotal (i : Nat)
  | answer (i : Nat) (result : Int32)
  | count (i : Nat)
  | incUsedTime (i : Nat) (ms : UInt32)
  | decDoing (i : Nat)
  deriving DecidableEq, Repr

namespace State

/-- The slot of the second. -/
def slot (now : UInt32) (s : State) : Nat := now.toNat % s.set.stats.length

def stats (now : UInt32) (s : State) : HolderStats :=
  s.set.stats.getD (s.slot now) .init

/-- Call `i` goes on to `stage` and updates the slot. -/
def update (now : UInt32) (s : State) (i : Nat) (stage : Stage) (f : HolderStats → HolderStats) :
    State :=
  { set := s.set.modify (s.slot now) f, calls := s.calls.set i stage }

end State

/-- The helper for a result. -/
def record (result : Int32) (h : HolderStats) : HolderStats :=
  if result = 0 then h.incOks 1
  else if result = TIMEOUT then h.incTimeouts 1
  else if result < 0 then h.incErrs 1
  else h

/-- One step of a call, in the second `now`. -/
def step (now : UInt32) (s : State) : Label → Option State
  | .incDoing =>
    let (set, slot) := s.set.get now
    some { set := set.modify slot (.incDoing · 1), calls := s.calls ++ [.doing] }
  | .incTotal i =>
    match s.calls[i]? with
    | some .doing => some (s.update now i .sent (.incTotal · 1))
    | _ => none
  | .answer i result =>
    match s.calls[i]? with
    | some .sent => some (s.update now i (.answered result) id)
    | _ => none
  | .count i =>
    match s.calls[i]? with
    | some (.answered result) => some (s.update now i (.counted result) (record result))
    | _ => none
  | .incUsedTime i ms =>
    match s.calls[i]? with
    | some (.counted result) =>
      if result = 0 then some (s.update now i .timed (.incUsedTime · ms)) else none
    | _ => none
  | .decDoing i =>
    match s.calls[i]? with
    | some .timed => some (s.update now i (.done 0) (.decDoing · 1))
    | some (.counted result) =>
      if result = 0 then none else some (s.update now i (.done result) (.decDoing · 1))
    | _ => none

/-! ## Conservation -/

namespace Stage

def isDone : Stage → Bool
  | done _ => true
  | _ => false

/-- Not between two helpers that belong together. -/
def settled : Stage → Bool
  | sent => true
  | done _ => true
  | _ => false

def isPositive : Stage → Bool
  | done result => decide (0 < result)
  | _ => false

end Stage

namespace State

def inFlight (s : State) : Nat := s.calls.countP (!·.isDone)

def positives (s : State) : Nat := s.calls.countP (·.isPositive)

end State

/-- `m_doing` counts the calls in flight, and where no call is between its helpers `m_total` is the
sum of the others. -/
def Conserved (now : UInt32) (s : State) : Prop :=
  (s.stats now).doing = UInt32.ofNat s.inFlight ∧
    ((∀ c ∈ s.calls, c.settled = true) → (s.stats now).total =
      (s.stats now).doing + (s.stats now).oks + (s.stats now).timeout + (s.stats now).errs
        + UInt32.ofNat s.positives)

/-- The slot of the second has just been cleared. -/
def start (set : HolderStatsSet) (now : UInt32) : State := { set := set.init now, calls := [] }

section Counting

variable {α : Type*} {p : α → Bool} {l : List α} {i : Nat} {a b : α}

theorem countP_set_same (h : l[i]? = some a) (hp : p b = p a) : (l.set i b).countP p = l.countP p := by
  obtain ⟨hi, rfl⟩ := List.getElem?_eq_some_iff.mp h
  have hle : (if p l[i] = true then 1 else 0) ≤ l.countP p := by
    split
    · exact List.countP_pos_iff.mpr ⟨l[i], List.getElem_mem hi, by assumption⟩
    · exact Nat.zero_le _
  rw [List.countP_set hi, hp, Nat.sub_add_cancel hle]

theorem countP_set_new (h : l[i]? = some a) (ha : p a = false) (hb : p b = true) :
    (l.set i b).countP p = l.countP p + 1 := by
  obtain ⟨hi, rfl⟩ := List.getElem?_eq_some_iff.mp h
  simp [List.countP_set hi, ha, hb]

end Counting

section Slots

variable {now : UInt32} {s : State}

theorem slot_lt (now : UInt32) (s : State) : s.slot now < s.set.stats.length :=
  Nat.mod_lt _ (List.length_pos_iff.mpr s.set.stats_ne)

theorem stats_update (now : UInt32) (s : State) (i : Nat) (stage : Stage)
    (f : HolderStats → HolderStats) : (s.update now i stage f).stats now = f (s.stats now) := by
  have hslot : (s.update now i stage f).slot now = s.slot now := by
    simp [State.slot, State.update, HolderStatsSet.modify]
  have hlt := slot_lt now s
  rw [State.stats, hslot, State.stats]
  simp [State.update, HolderStatsSet.modify, List.getD_eq_getElem?_getD, hlt]

/-- A clear slot stays clear. -/
theorem clearLoop_keeps {k i : Nat} {t : UInt32} {stats : List HolderStats}
    (h : stats[k]? = some HolderStats.init) :
    (HolderStatsSet.clearLoop now i t stats)[k]? = some HolderStats.init := by
  induction i generalizing t stats with
  | zero => exact h
  | succ i ih =>
    rw [HolderStatsSet.clearLoop]
    split
    · apply ih
      rw [List.getElem?_modify, h, Option.map_eq_map, Option.map_some]
      split <;> rfl
    · exact h

theorem toNat_next {t : UInt32} (h : t.toNat < now.toNat) : (t + 1).toNat = t.toNat + 1 := by
  have hbound := now.toNat_lt
  rw [UInt32.toNat_add, UInt32.toNat_one, Nat.mod_eq_of_lt (by omega)]

/-- The slot of every second from `t` to `now` that the rounds come to is cleared. -/
theorem clearLoop_clears {i u : Nat} {t : UInt32} {stats : List HolderStats} (hne : stats ≠ [])
    (ht : t.toNat ≤ u) (hu : u ≤ now.toNat) (hi : u < t.toNat + i) :
    (HolderStatsSet.clearLoop now i t stats)[u % stats.length]? =
      some HolderStats.init := by
  induction i generalizing t stats with
  | zero => omega
  | succ i ih =>
    have hle : t ≤ now := UInt32.le_iff_toNat_le.mpr (by omega)
    have hlt : u % stats.length < stats.length := Nat.mod_lt _ (List.length_pos_iff.mpr hne)
    rw [HolderStatsSet.clearLoop, if_pos hle]
    by_cases heq : t.toNat = u
    · apply clearLoop_keeps
      simp [heq, List.getElem?_eq_getElem hlt, HolderStats.clear]
    · have hnext := toNat_next (show t.toNat < now.toNat by omega)
      have hlength : (stats.modify (t.toNat % stats.length) .clear).length = stats.length := by
        rw [List.length_modify]
      have hne' : stats.modify (t.toNat % stats.length) .clear ≠ [] := by
        apply List.ne_nil_of_length_pos
        rw [hlength]
        exact List.length_pos_iff.mpr hne
      have hrest := ih (t := t + 1) hne' (by omega) (by omega)
      rwa [hlength] at hrest

/-- The first `get` of a second clears its slot, whatever was in it. -/
theorem stats_start {set : HolderStatsSet} (h : set.lastUpdateTime < now) :
    (start set now).stats now = .init ∧ (start set now).set.lastUpdateTime = now := by
  have hnext := toNat_next (UInt32.lt_iff_toNat_lt.mp h)
  have hle : (set.lastUpdateTime + 1).toNat ≤ now.toNat := by
    rw [hnext]
    exact UInt32.lt_iff_toNat_lt.mp h
  have hpos : 0 < set.stats.length := List.length_pos_iff.mpr set.stats_ne
  -- a second within the rounds that shares the slot of `now`
  obtain ⟨u, hshare, hu, hle', hlt⟩ : ∃ u, u % set.stats.length = now.toNat % set.stats.length ∧
      (set.lastUpdateTime + 1).toNat ≤ u ∧ u ≤ now.toNat ∧
      u < (set.lastUpdateTime + 1).toNat + set.stats.length := by
    obtain ⟨d, hd⟩ := Nat.exists_eq_add_of_le hle
    refine ⟨(set.lastUpdateTime + 1).toNat + d % set.stats.length, ?_, Nat.le_add_right _ _, ?_,
      Nat.add_lt_add_left (Nat.mod_lt d hpos) _⟩
    · rw [Nat.add_mod_mod, ← hd]
    · rw [hd]
      exact Nat.add_le_add_left (Nat.mod_le d _) _
  have hclear := clearLoop_clears set.stats_ne hu hle' hlt
  rw [hshare] at hclear
  have hset : (start set now).set.stats = HolderStatsSet.clearLoop now set.stats.length
      (set.lastUpdateTime + 1) set.stats := by
    rw [start, HolderStatsSet.init, if_pos h]
  constructor
  · rw [State.stats, State.slot, hset, HolderStatsSet.length_clearLoop,
      List.getD_eq_getElem?_getD, hclear, Option.getD_some]
  · rw [start, HolderStatsSet.init, if_pos h]

end Slots

/-! ## While no request ends -/

namespace Stage

/-- Behind `incTotal`. -/
def isTotal (c : Stage) : Bool := c != doing

def isOk : Stage → Bool
  | counted result => result == 0
  | timed => true
  | done result => result == 0
  | _ => false

def isTimeout : Stage → Bool
  | counted result => result == TIMEOUT
  | done result => result == TIMEOUT
  | _ => false

end Stage

/-- The counters of a second in which no request has ended. -/
structure Inv (now : UInt32) (s : State) : Prop where
  second : s.set.lastUpdateTime = now
  none_done : ∀ c ∈ s.calls, c.isDone = false
  doing_eq : (s.stats now).doing = UInt32.ofNat s.calls.length
  total_eq : (s.stats now).total = UInt32.ofNat (s.calls.countP (·.isTotal))
  oks_eq : (s.stats now).oks = UInt32.ofNat (s.calls.countP (·.isOk))
  timeout_eq : (s.stats now).timeout = UInt32.ofNat (s.calls.countP (·.isTimeout))
  errs_eq : (s.stats now).errs = 0

section Inv

variable {now : UInt32} {s s' : State} {t : List (Label × State)}

theorem Inv.conserved (h : Inv now s) : Conserved now s := by
  have hall : s.inFlight = s.calls.length :=
    List.countP_eq_length.mpr fun c hc => by simp [h.none_done c hc]
  refine ⟨by rw [h.doing_eq, hall], ?_⟩
  intro hsettled
  have hsent : ∀ c ∈ s.calls, c = .sent := by
    intro c hc
    have hset := hsettled c hc
    have hdone := h.none_done c hc
    cases c <;> simp_all [Stage.settled, Stage.isDone]
  have htotal : s.calls.countP (·.isTotal) = s.calls.length :=
    List.countP_eq_length.mpr fun c hc => by rw [hsent c hc]; rfl
  have hzero : ∀ p : Stage → Bool, p .sent = false → s.calls.countP p = 0 := by
    intro p hp
    apply List.countP_eq_zero.mpr
    intro c hc
    rw [hsent c hc, hp]
    exact Bool.false_ne_true
  have hpositive : s.positives = 0 := hzero _ rfl
  rw [h.doing_eq, h.total_eq, h.oks_eq, h.timeout_eq, h.errs_eq, htotal, hzero _ rfl, hzero _ rfl,
    hpositive]
  simp

/-- A counter of the calls with `p` when one of them goes on. -/
def Counts (p : Stage → Bool) (c c' : Stage) (x x' : UInt32) : Prop :=
  p c' = p c ∧ x' = x ∨ p c = false ∧ p c' = true ∧ x' = x + 1

theorem Counts.countP_set {p : Stage → Bool} {i : Nat} {c c' : Stage} {x x' : UInt32}
    (h : Counts p c c' x x') (hc : s.calls[i]? = some c)
    (hx : x = UInt32.ofNat (s.calls.countP p)) :
    x' = UInt32.ofNat ((s.calls.set i c').countP p) := by
  rcases h with ⟨hp, rfl⟩ | ⟨hp, hp', rfl⟩
  · rw [countP_set_same hc hp, hx]
  · rw [countP_set_new hc hp hp', UInt32.ofNat_add, hx]
    rfl

/-- A call goes on and the slot is updated accordingly. -/
theorem Inv.update (h : Inv now s) {i : Nat} {c c' : Stage} (hc : s.calls[i]? = some c)
    {f : HolderStats → HolderStats} (hdone : c'.isDone = false)
    (hdoing : (f (s.stats now)).doing = (s.stats now).doing)
    (htotal : Counts (·.isTotal) c c' (s.stats now).total (f (s.stats now)).total)
    (hoks : Counts (·.isOk) c c' (s.stats now).oks (f (s.stats now)).oks)
    (htimeout : Counts (·.isTimeout) c c' (s.stats now).timeout (f (s.stats now)).timeout)
    (herrs : (f (s.stats now)).errs = (s.stats now).errs) : Inv now (s.update now i c' f) where
  second := h.second
  none_done e he := by
    rcases List.mem_or_eq_of_mem_set he with hmem | rfl
    · exact h.none_done e hmem
    · exact hdone
  doing_eq := by
    rw [stats_update, hdoing, h.doing_eq]
    simp [State.update]
  total_eq := by
    rw [stats_update]
    exact htotal.countP_set hc h.total_eq
  oks_eq := by
    rw [stats_update]
    exact hoks.countP_set hc h.oks_eq
  timeout_eq := by
    rw [stats_update]
    exact htimeout.countP_set hc h.timeout_eq
  errs_eq := by rw [stats_update, herrs, h.errs_eq]

/-- The helper for a result counts the call there. -/
theorem Inv.record (h : Inv now s) {i : Nat} {result : Int32}
    (hc : s.calls[i]? = some (.answered result)) :
    Inv now (s.update now i (.counted result) (record result)) := by
  by_cases hzero : result = 0
  · subst hzero
    exact h.update hc rfl rfl (.inl ⟨rfl, rfl⟩) (.inr ⟨rfl, rfl, rfl⟩) (.inl ⟨rfl, rfl⟩) rfl
  · have hok : Stage.isOk (.counted result) = false := beq_eq_false_iff_ne.mpr hzero
    by_cases htime : result = TIMEOUT
    · subst htime
      exact h.update hc rfl rfl (.inl ⟨rfl, rfl⟩) (.inl ⟨rfl, rfl⟩) (.inr ⟨rfl, rfl, rfl⟩) rfl
    · have htimeout : Stage.isTimeout (.counted result) = false := beq_eq_false_iff_ne.mpr htime
      have hsame : RockFairLoadBalance.record result (s.stats now) = s.stats now := by
        rw [RockFairLoadBalance.record, if_neg hzero, if_neg htime, HolderStats.incErrs,
          UInt32.add_zero, ite_self]
      refine h.update hc rfl ?_ (.inl ⟨rfl, ?_⟩) (.inl ⟨hok, ?_⟩) (.inl ⟨htimeout, ?_⟩) ?_
        <;> rw [hsame]

theorem Inv.incDoing (h : Inv now s) (hs : step now s .incDoing = some s') : Inv now s' := by
  have hinit : s.set.init now = s.set := by
    have hsecond : ¬s.set.lastUpdateTime < now := by
      rw [h.second]
      exact UInt32.lt_irrefl now
    rw [HolderStatsSet.init, if_neg hsecond]
  have hstats : s'.stats now = (s.stats now).incDoing 1 ∧ s'.calls = s.calls ++ [.doing] ∧
      s'.set.lastUpdateTime = now := by
    have hupdate := stats_update now s 0 .doing (.incDoing · 1)
    rw [step, HolderStatsSet.get, hinit] at hs
    cases hs
    exact ⟨hupdate, rfl, h.second⟩
  obtain ⟨hstats, hcalls, hsecond⟩ := hstats
  refine ⟨hsecond, ?_, ?_, ?_, ?_, ?_, ?_⟩
  · intro e he
    rw [hcalls, List.mem_append, List.mem_singleton] at he
    rcases he with hmem | rfl
    · exact h.none_done e hmem
    · rfl
  · rw [hstats, hcalls, List.length_append, List.length_singleton, UInt32.ofNat_add, ← h.doing_eq]
    rfl
  · rw [hstats, hcalls, List.countP_append]
    exact h.total_eq
  · rw [hstats, hcalls, List.countP_append]
    exact h.oks_eq
  · rw [hstats, hcalls, List.countP_append]
    exact h.timeout_eq
  · rw [hstats]
    exact h.errs_eq

/-- A step of a call that does not end it. -/
theorem inv_step {a : Label} (h : Inv now s) (ha : ∀ i, a ≠ .decDoing i)
    (hs : step now s a = some s') : Inv now s' := by
  cases a with
  | incDoing => exact h.incDoing hs
  | incTotal i =>
    rw [step] at hs
    split at hs
    · rename_i hc
      cases hs
      exact h.update hc rfl rfl (.inr ⟨rfl, rfl, rfl⟩) (.inl ⟨rfl, rfl⟩) (.inl ⟨rfl, rfl⟩) rfl
    · cases hs
  | answer i result =>
    rw [step] at hs
    split at hs
    · rename_i hc
      cases hs
      exact h.update hc rfl rfl (.inl ⟨rfl, rfl⟩) (.inl ⟨rfl, rfl⟩) (.inl ⟨rfl, rfl⟩) rfl
    · cases hs
  | count i =>
    rw [step] at hs
    split at hs
    · rename_i result hc
      cases hs
      exact h.record hc
    · cases hs
  | incUsedTime i ms =>
    rw [step] at hs
    split at hs
    · rename_i result hc
      split at hs
      · rename_i hzero
        cases hs
        subst hzero
        exact h.update hc rfl rfl (.inl ⟨rfl, rfl⟩) (.inl ⟨rfl, rfl⟩) (.inl ⟨rfl, rfl⟩) rfl
      · cases hs
    · cases hs
  | decDoing i => exact absurd rfl (ha i)

/-- The end of a call is not subtracted. -/
theorem not_conserved_decDoing (h : Inv now s) {i : Nat}
    (hs : step now s (.decDoing i) = some s') : ¬Conserved now s' := by
  obtain ⟨c, result, hc, hcdone, rfl⟩ : ∃ c result, s.calls[i]? = some c ∧ c.isDone = false ∧
      s' = s.update now i (.done result) (.decDoing · 1) := by
    rw [step] at hs
    split at hs
    · rename_i hc
      cases hs
      exact ⟨_, _, hc, rfl, rfl⟩
    · rename_i result hc
      split at hs
      · cases hs
      · cases hs
        exact ⟨_, _, hc, rfl, rfl⟩
    · cases hs
  have hdoing : ((s.update now i (.done result) (.decDoing · 1)).stats now).doing =
      UInt32.ofNat s.calls.length := by
    rw [stats_update, HolderStats.decDoing, UInt32.sub_zero, h.doing_eq]
  have hflight : (s.update now i (.done result) (.decDoing · 1)).inFlight + 1 =
      s.calls.length := by
    have hall : s.calls.countP (!·.isDone) = s.calls.length :=
      List.countP_eq_length.mpr fun c hc => by simp [h.none_done c hc]
    obtain ⟨hi, rfl⟩ := List.getElem?_eq_some_iff.mp hc
    have hpos : 0 < s.calls.length := by omega
    have hend : Stage.isDone (.done result) = true := rfl
    simp only [State.inFlight, State.update, List.countP_set hi, hall, hcdone, hend,
      Bool.not_false, Bool.not_true, if_true, Bool.false_eq_true, if_false]
    omega
  intro hconserved
  have heq := hdoing.symm.trans hconserved.1
  rw [← hflight] at heq
  have hnat := congrArg UInt32.toNat heq
  simp only [UInt32.toNat_ofNat'] at hnat
  omega

/-- The slot just cleared is that of no call. -/
theorem inv_start {set : HolderStatsSet} (h : set.lastUpdateTime < now) :
    Inv now (start set now) := by
  obtain ⟨hstats, hsecond⟩ := stats_start h
  refine ⟨hsecond, ?_, ?_, ?_, ?_, ?_, ?_⟩
  · intro c hc
    cases hc
  all_goals
    rw [hstats]
    rfl

/-- Within a second the counters agree with the calls exactly as long as no call ends. -/
theorem run_balances_iff {set : HolderStatsSet} (h : set.lastUpdateTime < now)
    (run : Run (fun s a s' => step now s a = some s') (start set now) t) :
    Always (Conserved now) (start set now) t ↔
      Meets (fun _ a => ∀ i, a ≠ .decDoing i) (start set now) t := by
  refine always_iff_meets_of_inv (Inv now) (fun _ h => h.conserved) ?_ ?_ run (inv_start h)
  · intro s a s' hi ha hs
    exact inv_step hi ha hs
  · intro s a s' hi ha hs
    obtain ⟨i, rfl⟩ := not_forall_not.mp ha
    exact not_conserved_decDoing hi hs

end Inv

/-- The slots of a connection on which nothing was asked yet. -/
def fresh : HolderStatsSet := ⟨0, List.replicate 5 .init, by decide⟩

/-- A request that fails: `m_doing` stays 1. -/
theorem run_error_breaks_balance :
    ∃ t, Run (fun s a s' => step 100 s a = some s') (start fresh 100) t ∧
      ¬Always (Conserved 100) (start fresh 100) t := by
  refine ⟨_, .cons (a := .incDoing) rfl (.cons (a := .incTotal 0) rfl
    (.cons (a := .answer 0 (-2)) rfl (.cons (a := .count 0) rfl
      (.cons (a := .decDoing 0) rfl (.nil _))))), ?_⟩
  intro h
  have hdoing := h.last.1
  revert hdoing
  decide

/-- Two requests, of which one has timed out and is about to be counted. -/
theorem run_balances_timeout :
    ∃ t, Run (fun s a s' => step 100 s a = some s') (start fresh 100) t ∧
      (Runs.last (start fresh 100) t).calls = [.counted TIMEOUT, .sent] ∧
      Always (Conserved 100) (start fresh 100) t := by
  have run : Run (fun s a s' => step 100 s a = some s') (start fresh 100) _ :=
    .cons (a := .incDoing) rfl (.cons (a := .incTotal 0) rfl (.cons (a := .incDoing) rfl
      (.cons (a := .incTotal 1) rfl (.cons (a := .answer 0 TIMEOUT) rfl
        (.cons (a := .count 0) rfl (.nil _))))))
  have hfresh : fresh.lastUpdateTime < 100 := by decide
  exact ⟨_, run, rfl, (run_balances_iff hfresh run).mpr (by simp [Meets])⟩

end RockFairLoadBalance

end CxkFramework
