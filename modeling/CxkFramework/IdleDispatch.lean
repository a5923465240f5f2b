import CxkFramework.IoManagerTable

/-!
# Whom the idle loop wakes

A record of `epoll_wait` says which directions of a file descriptor are ready; an error or a
hang-up means both. The loop marks the first record of the array where it should mark the one it
looks at, and it triggers what is registered where it should trigger what is ready. So the right
waiters are woken when everything registered is ready, unless it is so by an error alone of a
record other than the first, and when nothing is. Other threads may change the table between two
records, but the array is the loop's own.
-/

namespace CxkFramework.IOManager

open Runs

/-! ## What should happen -/

/-- The events a record reports. -/
def reported (e : EpollEvent) : Event :=
  ⟨e.in_ || e.err || e.hup, e.out || e.err || e.hup⟩

/-- The scheduler gets what waits. -/
def wakeUp (ctx : EventContext) : List (Nat × Task) :=
  match ctx.scheduler with
  | some scheduler => (FdContext.take ctx).1.toList.map (fun task => (scheduler, task))
  | none => []

/-- What is left of a context that was triggered. -/
def woken (ctx : EventContext) : EventContext := { (FdContext.take ctx).2 with scheduler := none }

namespace FdContext

/-- The context with some of its events triggered. -/
def after (c : FdContext) (events : Event) : FdContext where
  read := if events.read then woken c.read else c.read
  write := if events.write then woken c.write else c.write
  events := c.events \ events

/-- What is scheduled then. -/
def tasks (c : FdContext) (events : Event) : List (Nat × Task) :=
  (if events.read then wakeUp c.read else []) ++ if events.write then wakeUp c.write else []

end FdContext

/-- Exactly these events of the context of `fd` were triggered. -/
structure Woke (s : IOManager) (fd : Nat) (c : FdContext) (events : Event) (s' : IOManager) : Prop where
  fdContexts_eq : s'.fdContexts = s.fdContexts.set fd (c.after events)
  scheduled_eq : s'.scheduled = s.scheduled ++ c.tasks events
  count_eq : s'.appendingEventCount = s.appendingEventCount - events.bits

/-- Of a record: the registered events it reports are triggered and no others, and the records
that come after it are left as they are. -/
def WakesRight (s : IOManager) (records : List EpollEvent) (i fd : Nat) (c : FdContext)
    (e : EpollEvent) : Prop :=
  ∃ records' s', s.dispatchRecord records i false = .ok (records', s') ∧
    Woke s fd c (c.events ∩ reported e) s' ∧ ∀ j, i < j → records'[j]? = records[j]?

/-! ## When it does -/

/-- The events the loop sees in the record at `i`. -/
def seen (i : Nat) (e : EpollEvent) : Event := if i = 0 then reported e else ⟨e.in_, e.out⟩

/-- All registered events have a scheduler. -/
def Served (c : FdContext) : Prop :=
  (c.events.read → c.read.scheduler.isSome) ∧ (c.events.write → c.write.scheduler.isSome)

/-- None of the registered events is reported, or all of them are, at least one of them is seen,
and they can be triggered. -/
def NoneOrAll (i : Nat) (c : FdContext) (e : EpollEvent) : Prop :=
  c.events ∩ reported e = Event.NONE ∨
    c.events \ reported e = Event.NONE ∧ c.events ∩ seen i e ≠ Event.NONE ∧ Served c

instance (c : FdContext) : Decidable (Served c) := inferInstanceAs (Decidable (_ ∧ _))

instance (i : Nat) (c : FdContext) (e : EpollEvent) : Decidable (NoneOrAll i c e) :=
  inferInstanceAs (Decidable (_ ∨ _))

section Events

variable {a b : Event}

@[simp] theorem none_read : Event.NONE.read = false := rfl
@[simp] theorem none_write : Event.NONE.write = false := rfl
@[simp] theorem READ_read : Event.READ.read = true := rfl
@[simp] theorem READ_write : Event.READ.write = false := rfl
@[simp] theorem WRITE_read : Event.WRITE.read = false := rfl
@[simp] theorem WRITE_write : Event.WRITE.write = true := rfl

@[simp] theorem sdiff_self (a : Event) : a \ a = Event.NONE := by simp [event_eq_iff]

@[simp] theorem sdiff_none (a : Event) : a \ Event.NONE = a := by simp [event_eq_iff]

/-- To take out of `a` what it has in common with `b` is to take out `b`. -/
theorem sdiff_inter_eq (a b : Event) : a \ (a ∩ b) = a \ b := by
  simp only [event_eq_iff, sdiff_read, sdiff_write, inter_read, inter_write]
  grind

theorem inter_eq_none_of_sdiff (h : a \ b = a) : a ∩ b = Event.NONE := by
  simp only [event_eq_iff, sdiff_read, sdiff_write, inter_read, inter_write, none_read,
    none_write] at h ⊢
  grind

theorem inter_eq_self_of_sdiff (h : a \ b = Event.NONE) : a ∩ b = a := by
  simp only [event_eq_iff, sdiff_read, sdiff_write, inter_read, inter_write, none_read,
    none_write] at h ⊢
  grind

theorem inter_seen_eq_none {i : Nat} {e : EpollEvent} (h : a ∩ reported e = Event.NONE) :
    a ∩ seen i e = Event.NONE := by
  rw [seen]
  split
  · exact h
  · simp only [event_eq_iff, inter_read, inter_write, none_read, none_write, reported] at h ⊢
    grind

end Events

/-! ## The array -/

section Array

variable {records records' : List EpollEvent} {i : Nat} {e : EpollEvent}

theorem markFirst_getElem? (records : List EpollEvent) (j : Nat) :
    (markFirst records)[j + 1]? = records[j + 1]? := by
  cases records <;> rfl

theorem afterError_getElem? (records : List EpollEvent) (i j : Nat) :
    (afterError records i)[j + 1]? = records[j + 1]? := by
  rw [afterError]
  split
  · split
    · exact markFirst_getElem? records j
    · rfl
  · rfl

theorem realEvents_eq (he : records[i]? = some e) : realEvents records i = seen i e := by
  cases i with
  | zero =>
    cases records with
    | nil => cases he
    | cons e' records =>
      cases he
      obtain ⟨data, in_, out, err, hup⟩ := e
      cases err <;> cases hup <;> simp [realEvents, afterError, markFirst, seen, reported]
  | succ i => simp [realEvents, afterError_getElem?, he, seen]

theorem dispatchRecord_later {s s' : IOManager} {fails : Bool}
    (h : s.dispatchRecord records i fails = .ok (records', s')) (j : Nat) (hj : i < j) :
    records'[j]? = records[j]? := by
  obtain ⟨j, rfl⟩ := Nat.exists_eq_succ_of_ne_zero (Nat.ne_zero_of_lt hj)
  have herror := afterError_getElem? records i j
  rw [dispatchRecord] at h
  split at h
  · cases h
  · split at h
    · cases h
      rfl
    · split at h
      · cases h
      · dsimp only at h
        split at h
        · cases h
          exact herror
        · split at h
          · cases h
            rwa [List.getElem?_set_ne (by omega)]
          · obtain ⟨⟨c', s₁⟩, -, h⟩ := bind_eq_ok.mp h
            cases h
            rwa [List.getElem?_set_ne (by omega)]

/-- The loop over the records of an `epoll_wait` comes to the one at `i` with this array, whatever
becomes of the table meanwhile. -/
inductive Comes (records₀ : List EpollEvent) : Nat → List EpollEvent → Prop where
  | start : Comes records₀ 0 records₀
  | next {s s' : IOManager} {fails : Bool} {i : Nat} {records records' : List EpollEvent} :
      Comes records₀ i records → s.dispatchRecord records i fails = .ok (records', s') →
      Comes records₀ (i + 1) records'

/-- A record is what `epoll_wait` returned until the loop comes to it. -/
theorem Comes.getElem? {records₀ : List EpollEvent} (h : Comes records₀ i records) (j : Nat)
    (hj : i ≤ j) : records[j]? = records₀[j]? := by
  induction h with
  | start => rfl
  | next _ hrecord ih => rw [dispatchRecord_later hrecord j (by omega), ih (by omega)]

end Array

/-! ## Triggering -/

section Trigger

variable {s : IOManager} {c : FdContext}

/-- `triggerIfSet` for the reading side of a context. -/
theorem triggerIfSet_read (s : IOManager) (c : FdContext) :
    s.triggerIfSet c Event.READ =
      if c.events.read then
        if c.read.scheduler.isSome then
          .ok (c.after Event.READ, { s with
            appendingEventCount := s.appendingEventCount - 1
            scheduled := s.scheduled ++ wakeUp c.read })
        else .error .nullScheduler
      else .ok (c, s) := by
  obtain ⟨read, write, r, w⟩ := c
  cases r with
  | false => cases w <;> rfl
  | true =>
    obtain ⟨scheduler, fiber, cb⟩ := read
    cases scheduler <;> cases cb <;> cases w <;> rfl

theorem triggerIfSet_write (s : IOManager) (c : FdContext) :
    s.triggerIfSet c Event.WRITE =
      if c.events.write then
        if c.write.scheduler.isSome then
          .ok (c.after Event.WRITE, { s with
            appendingEventCount := s.appendingEventCount - 1
            scheduled := s.scheduled ++ wakeUp c.write })
        else .error .nullScheduler
      else .ok (c, s) := by
  obtain ⟨read, write, r, w⟩ := c
  cases w with
  | false => cases r <;> rfl
  | true =>
    obtain ⟨scheduler, fiber, cb⟩ := write
    cases scheduler <;> cases cb <;> cases r <;> rfl

@[simp] theorem after_none (c : FdContext) : c.after Event.NONE = c := by
  obtain ⟨read, write, r, w⟩ := c
  simp [FdContext.after]

@[simp] theorem tasks_none (c : FdContext) : c.tasks Event.NONE = [] := rfl

/-- Everything registered is triggered, if it can be. -/
theorem triggerAll_eq (s : IOManager) (c : FdContext) :
    s.triggerAll c =
      if Served c then
        .ok (c.after c.events, { s with
          appendingEventCount := s.appendingEventCount - c.events.bits
          scheduled := s.scheduled ++ c.tasks c.events })
      else .error .nullScheduler := by
  rw [triggerAll, triggerIfSet_read]
  cases hr : c.events.read with
  | false =>
    change s.triggerIfSet c Event.WRITE = _
    rw [triggerIfSet_write]
    cases hw : c.events.write with
    | false =>
      have hc : c.events = Event.NONE := event_eq_iff.mpr ⟨hr, hw⟩
      simp [Served, hc, Event.bits]
    | true =>
      have hc : c.events = Event.WRITE := event_eq_iff.mpr ⟨hr, hw⟩
      simp [Served, hc, FdContext.tasks, Event.bits]
  | true =>
    cases hs : c.read.scheduler.isSome with
    | false => simp [Served, hr, hs]
    | true =>
      change (triggerIfSet _ _ Event.WRITE) = _
      rw [triggerIfSet_write]
      cases hw : c.events.write with
      | false =>
        have hc : c.events = Event.READ := event_eq_iff.mpr ⟨hr, hw⟩
        simp [Served, hc, hs, FdContext.after, FdContext.tasks, Event.bits]
      | true =>
        have hc : c.events = ⟨true, true⟩ := event_eq_iff.mpr ⟨hr, hw⟩
        have hboth : ((⟨true, true⟩ : Event) \ Event.READ) \ Event.WRITE = Event.NONE := rfl
        simp [Served, hc, hs, hboth, FdContext.after, FdContext.tasks, Event.bits, sub_sub]

end Trigger

/-! ## One record -/

section Record

variable {s : IOManager} {records : List EpollEvent} {i fd : Nat} {c : FdContext} {e : EpollEvent}

/-- `epoll_ctl` succeeds for the descriptor if anything is registered there. -/
def Enrolled (s : IOManager) (fd : Nat) (c : FdContext) : Prop :=
  c.events ≠ Event.NONE → s.epoll fd ≠ none

theorem epollCtl_enrolled {left : Event} (he : s.epoll fd ≠ none) :
    ∃ epoll, epollCtl s.epoll false (if left = Event.NONE then .DEL else .MOD) fd left = some epoll := by
  cases hm : s.epoll fd with
  | none => exact absurd hm he
  | some m => by_cases hleft : left = Event.NONE <;> simp [epollCtl, hm, hleft]

/-- Nothing registered is seen. -/
theorem dispatchRecord_none (he : records[i]? = some e) (hdata : e.data = .ptr fd)
    (hc : s.fdContexts[fd]? = some c) (hnone : c.events ∩ seen i e = Event.NONE) :
    ∃ records', s.dispatchRecord records i false = .ok (records', s) := by
  simp [dispatchRecord, he, hdata, hc, realEvents_eq he, hnone]

/-- Something registered is seen, and everything registered is triggered. -/
theorem dispatchRecord_some (he : records[i]? = some e) (hdata : e.data = .ptr fd)
    (hc : s.fdContexts[fd]? = some c) (hctl : Enrolled s fd c)
    (hsome : c.events ∩ seen i e ≠ Event.NONE) : ∃ epoll records',
    s.dispatchRecord records i false =
      ({ s with epoll := epoll } : IOManager).triggerAll c >>= fun p =>
        .ok (records', { p.2 with fdContexts := p.2.fdContexts.set fd p.1 }) := by
  let left := c.events \ seen i e
  obtain ⟨epoll, hepoll⟩ := @epollCtl_enrolled s fd left (hctl (ne_none_of_inter hsome))
  refine ⟨epoll,
    (afterError records i).set i { data := .ptr fd, in_ := left.read, out := left.write }, ?_⟩
  simp only [dispatchRecord, he, hdata, hc, realEvents_eq he, if_neg hsome]
  rw [hepoll]

/-- The record at `i` as the loop works on it. -/
theorem dispatchRecord_fate (he : records[i]? = some e) (hdata : e.data = .ptr fd)
    (hc : s.fdContexts[fd]? = some c) (hctl : Enrolled s fd c)
    (hsome : c.events ∩ seen i e ≠ Event.NONE) :
    (¬Served c ∧ s.dispatchRecord records i false = .error .nullScheduler) ∨
    (Served c ∧ ∃ records' s', s.dispatchRecord records i false = .ok (records', s') ∧
      Woke s fd c c.events s') := by
  obtain ⟨epoll, records', h⟩ := dispatchRecord_some he hdata hc hctl hsome
  rw [h, triggerAll_eq]
  by_cases hserved : Served c
  · rw [if_pos hserved]
    exact .inr ⟨hserved, records', _, rfl, rfl, rfl, rfl⟩
  · rw [if_neg hserved]
    exact .inl ⟨hserved, rfl⟩

/-- The events that are left tell what was triggered. -/
theorem Woke.events_eq {s' : IOManager} {a b : Event} (hc : s.fdContexts[fd]? = some c)
    (ha : Woke s fd c a s') (hb : Woke s fd c b s') : c.events \ a = c.events \ b := by
  have hset := ha.fdContexts_eq.symm.trans hb.fdContexts_eq
  have hlt : fd < s.fdContexts.length := (List.getElem?_eq_some_iff.mp hc).1
  have hget := congrArg (·[fd]?) hset
  simp only [List.getElem?_set_self hlt, Option.some.injEq] at hget
  exact congrArg FdContext.events hget

theorem woke_none (hc : s.fdContexts[fd]? = some c) : Woke s fd c Event.NONE s where
  fdContexts_eq := by
    obtain ⟨hlt, rfl⟩ := List.getElem?_eq_some_iff.mp hc
    simp
  scheduled_eq := by simp
  count_eq := by simp [Event.bits]

theorem wakesRight_iff (he : records[i]? = some e) (hdata : e.data = .ptr fd)
    (hc : s.fdContexts[fd]? = some c) (hctl : Enrolled s fd c) :
    WakesRight s records i fd c e ↔ NoneOrAll i c e := by
  by_cases hnone : c.events ∩ seen i e = Event.NONE
  · obtain ⟨records', h⟩ := dispatchRecord_none he hdata hc hnone
    constructor
    · rintro ⟨_, _, h', hwoke, -⟩
      cases h.symm.trans h'
      have hevents := hwoke.events_eq hc (woke_none hc)
      rw [sdiff_inter_eq, sdiff_none] at hevents
      exact .inl (inter_eq_none_of_sdiff hevents)
    · rintro (hzero | ⟨-, hsome, -⟩)
      · refine ⟨records', s, h, ?_, dispatchRecord_later h⟩
        rw [hzero]
        exact woke_none hc
      · exact absurd hnone hsome
  · have hreported : c.events ∩ reported e ≠ Event.NONE := fun hzero => hnone (inter_seen_eq_none hzero)
    obtain ⟨hserved, h⟩ | ⟨hserved, records', s', h, hwoke⟩ :=
      dispatchRecord_fate he hdata hc hctl hnone
    · constructor
      · rintro ⟨_, _, h', -⟩
        cases h.symm.trans h'
      · rintro (hzero | ⟨-, -, hserved'⟩)
        · exact absurd hzero hreported
        · exact absurd hserved' hserved
    · constructor
      · rintro ⟨_, _, h', hwoke', -⟩
        cases h.symm.trans h'
        have hevents := hwoke'.events_eq hc hwoke
        rw [sdiff_inter_eq, sdiff_self] at hevents
        exact .inr ⟨hevents, hnone, hserved⟩
      · rintro (hzero | ⟨hall, -, -⟩)
        · exact absurd hzero hreported
        · refine ⟨records', s', h, ?_, dispatchRecord_later h⟩
          rwa [inter_eq_self_of_sdiff hall]

end Record

/-- Whatever other threads do to the table while the loop goes through its records: the one at `i`
wakes the right waiters exactly when none of the registered events are reported, or all of them
and one of them is seen. -/
theorem wakesRight_iff_noneOrAll {records₀ records : List EpollEvent} {s : IOManager} {i fd : Nat}
    {c : FdContext} {e : EpollEvent} (hcomes : Comes records₀ i records) (he : records₀[i]? = some e)
    (hdata : e.data = .ptr fd) (hc : s.fdContexts[fd]? = some c) (hctl : Enrolled s fd c) :
    WakesRight s records i fd c e ↔ NoneOrAll i c e := by
  have he' : records[i]? = some e := by rw [hcomes.getElem? i le_rfl, he]
  exact wakesRight_iff he' hdata hc hctl

/-- A context with a fiber that waits to read and a callback that waits to write. -/
def both : FdContext := ⟨⟨some 1, some 7, none⟩, ⟨some 1, none, some 2⟩, ⟨true, true⟩⟩

def registerBoth : List Op :=
  [.addEvent 5 Event.READ none worker false, .addEvent 5 Event.WRITE (some 2) worker false]

theorem trace_registerBoth : ∃ t, trace step (init 3) registerBoth = .ok t ∧
    (last (init 3) t).fdContexts[5]? = some both ∧ Enrolled (last (init 3) t) 5 both :=
  ⟨_, rfl, rfl, fun _ => by decide⟩

/-- A hang-up wakes both sides of a socket. -/
theorem wakesRight_hangUp : ∃ s, NoneOrAll 0 both { data := .ptr 5, out := true, hup := true } ∧
    WakesRight s [{ data := .ptr 5, out := true, hup := true }] 0 5 both
      { data := .ptr 5, out := true, hup := true } := by
  obtain ⟨t, -, hc, hctl⟩ := trace_registerBoth
  have hall : NoneOrAll 0 both { data := .ptr 5, out := true, hup := true } := by decide
  exact ⟨last (init 3) t, hall, (wakesRight_iff_noneOrAll .start rfl rfl hc hctl).mpr hall⟩

/-- When a socket is only ready to be read from, the one that waits to write is woken too; and an
error of the second record wakes nobody. -/
theorem idel_wakes_wrong : ∃ t, trace step (init 3) registerBoth = .ok t ∧
    ¬WakesRight (last (init 3) t) [{ data := .ptr 5, in_ := true }] 0 5 both
      { data := .ptr 5, in_ := true } ∧
    Comes [{ data := .tickle, in_ := true }, { data := .ptr 5, err := true }] 1
      [{ data := .tickle, in_ := true }, { data := .ptr 5, err := true }] ∧
    ¬WakesRight (last (init 3) t) [{ data := .tickle, in_ := true }, { data := .ptr 5, err := true }]
      1 5 both { data := .ptr 5, err := true } := by
  obtain ⟨t, ht, hc, hctl⟩ := trace_registerBoth
  have htickle : (last (init 3) t).dispatchRecord
      [{ data := .tickle, in_ := true }, { data := .ptr 5, err := true }] 0 false = .ok (_, _) := rfl
  refine ⟨t, ht, ?_, .next .start htickle, ?_⟩
  · rw [wakesRight_iff rfl rfl hc hctl]
    decide
  · rw [wakesRight_iff rfl rfl hc hctl]
    decide

end CxkFramework.IOManager
