import CxkFramework.IoManager
import Mathlib.Tactic

/-!
# The event table invariant

Every step but two kinds keeps the table in order. The idle loop triggers everything that is
registered when a record reports only one of two directions, while `epoll` keeps the other
one; and `addEvent` from a thread without a scheduler registers an event nobody waits for.
A run is in order throughout exactly when it has no such step.
-/

namespace CxkFramework.IOManager

open Runs

/-- A scheduler, and exactly one of a fiber and a callback. -/
def waiting (ctx : EventContext) : Bool :=
  ctx.scheduler.isSome && (ctx.fiber.isSome != ctx.cb.isSome)

/-- The mask `epoll` should have for the events of a context. -/
def interest (events : Event) : Option Event := if events = Event.NONE then none else some events

/-- The context of a file descriptor; one that was not made yet is as good as a fresh one. -/
def context (s : IOManager) (fd : Nat) : FdContext := s.fdContexts[fd]?.getD {}

/-- The number of bits set in the whole table. -/
def pending (s : IOManager) : Nat := (s.fdContexts.map (fun c => c.events.bits)).sum

/-- A bit is set exactly when somebody waits for it. -/
structure InOrder (c : FdContext) : Prop where
  read_eq : c.events.read = waiting c.read
  write_eq : c.events.write = waiting c.write

/-- The invariant. The wake-up pipe is registered by the constructor and has no events of
its own. -/
structure TableInv (s : IOManager) : Prop where
  epoll_eq : ∀ fd, fd ≠ s.tickleFd → s.epoll fd = interest (s.context fd).events
  inOrder : ∀ fd, InOrder (s.context fd)
  count_eq : s.appendingEventCount = s.pending

/-- The wake-up pipe stays registered and never gets events. -/
structure Piped (s : IOManager) : Prop where
  epoll_eq : s.epoll s.tickleFd = some Event.READ
  events_eq : (s.context s.tickleFd).events = Event.NONE

/-! ## Events and contexts -/

section Events

variable {a b : Event}

@[simp] theorem inter_read : (a ∩ b).read = (a.read && b.read) := rfl
@[simp] theorem inter_write : (a ∩ b).write = (a.write && b.write) := rfl
@[simp] theorem union_read : (a ∪ b).read = (a.read || b.read) := rfl
@[simp] theorem union_write : (a ∪ b).write = (a.write || b.write) := rfl
@[simp] theorem sdiff_read : (a \ b).read = (a.read && !b.read) := rfl
@[simp] theorem sdiff_write : (a \ b).write = (a.write && !b.write) := rfl

theorem event_eq_iff : a = b ↔ a.read = b.read ∧ a.write = b.write := by
  obtain ⟨r, w⟩ := a
  obtain ⟨r', w'⟩ := b
  simp

end Events

/-- What triggering one direction does to a context. -/
structure Triggered (c : FdContext) (event : Event) (c' : FdContext) : Prop where
  events_eq : c'.events = c.events \ event
  inOrder : InOrder c → InOrder c'
  bits_eq : c'.events.bits + 1 = c.events.bits

theorem waiting_take (ctx : EventContext) :
    waiting { (FdContext.take ctx).2 with scheduler := none } = false := rfl

theorem getcontext_ok {c : FdContext} {event : Event} {ctx : EventContext}
    (h : c.getcontext event = .ok ctx) :
    (event = Event.READ ∧ ctx = c.read) ∨ (event = Event.WRITE ∧ ctx = c.write) := by
  rw [FdContext.getcontext] at h
  split at h
  · next he =>
    cases h
    exact .inl ⟨he, rfl⟩
  · split at h
    · next he =>
      cases h
      exact .inr ⟨he, rfl⟩
    · cases h

/-- Change one direction of a context. -/
theorem inOrder_setcontext {c : FdContext} {event : Event} {ctx : EventContext} (hc : InOrder c)
    (he : event = Event.READ ∨ event = Event.WRITE) (events : Event) :
    InOrder ({ c with events := events }.setcontext event ctx) ↔
      (event = Event.READ → events.read = waiting ctx ∧ events.write = c.events.write) ∧
      (event = Event.WRITE → events.write = waiting ctx ∧ events.read = c.events.read) := by
  obtain ⟨hr, hw⟩ := hc
  rcases he with rfl | rfl
  · simp only [FdContext.setcontext, if_true, true_implies]
    constructor
    · rintro ⟨h₁, h₂⟩
      exact ⟨⟨h₁, h₂.trans hw.symm⟩, fun h => absurd h (by decide)⟩
    · rintro ⟨⟨h₁, h₂⟩, -⟩
      exact ⟨h₁, h₂.trans hw⟩
  · have hne : Event.WRITE ≠ Event.READ := by decide
    simp only [FdContext.setcontext, hne, if_false, true_implies]
    constructor
    · rintro ⟨h₁, h₂⟩
      exact ⟨fun h => absurd h (by decide), h₂, h₁.trans hr.symm⟩
    · rintro ⟨-, h₁, h₂⟩
      exact ⟨h₂.trans hr, h₁⟩

theorem setcontext_events (c : FdContext) (event : Event) (ctx : EventContext) :
    (c.setcontext event ctx).events = c.events := by
  rw [FdContext.setcontext]
  split <;> rfl

/-- Taking out one direction leaves the context in order if nobody waits there any more. -/
theorem triggered_of_removed {c : FdContext} {event : Event} {ctx : EventContext}
    (he : event = Event.READ ∨ event = Event.WRITE) (hset : c.events ∩ event ≠ Event.NONE)
    (hctx : waiting ctx = false) :
    Triggered c event ({ c with events := c.events \ event }.setcontext event ctx) where
  events_eq := setcontext_events _ _ _
  inOrder hc := by
    rw [inOrder_setcontext hc he, hctx]
    constructor
    · rintro rfl
      simp [Event.READ]
    · rintro rfl
      simp [Event.WRITE]
  bits_eq := by
    rw [setcontext_events]
    obtain ⟨_, _, r, w⟩ := c
    rcases he with rfl | rfl <;> cases r <;> cases w <;>
      first | rfl | exact absurd rfl hset

theorem triggerEvent_triggered {c c' : FdContext} {event : Event} {tasks : List (Nat × Task)}
    (h : c.triggerEvent event = .ok (c', tasks)) : Triggered c event c' := by
  rw [FdContext.triggerEvent] at h
  split at h
  · cases h
  · next hset =>
    obtain ⟨ctx, hctx, h⟩ := bind_eq_ok.mp h
    split at h
    · cases h
    · cases h
      have he : event = Event.READ ∨ event = Event.WRITE := by
        rcases getcontext_ok hctx with ⟨he, -⟩ | ⟨he, -⟩
        · exact .inl he
        · exact .inr he
      exact triggered_of_removed he hset (waiting_take ctx)

/-! ## The operations -/

section Operations

variable {s s' : IOManager} {fd : Nat} {c : FdContext} {fails : Bool}

/-- What the trigger steps leave alone: everything but the counter and the queue. -/
structure Counted (s : IOManager) (n : Nat) (s' : IOManager) : Prop where
  fdContexts_eq : s'.fdContexts = s.fdContexts
  tickleFd_eq : s'.tickleFd = s.tickleFd
  epoll_eq : s'.epoll = s.epoll
  count_eq : s'.appendingEventCount = s.appendingEventCount - n

theorem triggerIfSet_ok {event : Event} {c' : FdContext}
    (h : s.triggerIfSet c event = .ok (c', s')) :
    c'.events = c.events \ event ∧ (InOrder c → InOrder c') ∧
      Counted s (c.events.bits - c'.events.bits) s' ∧ c'.events.bits ≤ c.events.bits := by
  rw [triggerIfSet] at h
  split at h
  · next hset =>
    cases h
    refine ⟨?_, id, ⟨rfl, rfl, rfl, by simp⟩, le_rfl⟩
    obtain ⟨_, _, r, w⟩ := c
    obtain ⟨r', w'⟩ := event
    simp only [event_eq_iff, inter_read, inter_write, Event.NONE, Bool.and_eq_false_imp] at hset
    simp only [event_eq_iff, sdiff_read, sdiff_write]
    constructor
    · cases r with
      | false => rfl
      | true => simp [hset.1]
    · cases w with
      | false => rfl
      | true => simp [hset.2]
  · obtain ⟨⟨c₁, tasks⟩, htrigger, h⟩ := bind_eq_ok.mp h
    cases h
    have ht := triggerEvent_triggered htrigger
    have hbits := ht.bits_eq
    refine ⟨ht.events_eq, ht.inOrder, ⟨rfl, rfl, rfl, ?_⟩, by omega⟩
    simp only
    omega

theorem triggerAll_ok {c' : FdContext} (h : s.triggerAll c = .ok (c', s')) :
    c'.events = Event.NONE ∧ (InOrder c → InOrder c') ∧ Counted s c.events.bits s' := by
  rw [triggerAll] at h
  obtain ⟨⟨c₁, s₁⟩, h₁, h₂⟩ := bind_eq_ok.mp h
  obtain ⟨he₁, ho₁, hc₁, hle₁⟩ := triggerIfSet_ok h₁
  obtain ⟨he₂, ho₂, hc₂, hle₂⟩ := triggerIfSet_ok h₂
  have hnone : c'.events = Event.NONE := by
    rw [he₂, he₁, event_eq_iff]
    simp [Event.READ, Event.WRITE, Event.NONE]
  have hzero : c'.events.bits = 0 := by rw [hnone]; rfl
  refine ⟨hnone, fun hc => ho₂ (ho₁ hc), hc₂.fdContexts_eq.trans hc₁.fdContexts_eq,
    hc₂.tickleFd_eq.trans hc₁.tickleFd_eq, hc₂.epoll_eq.trans hc₁.epoll_eq, ?_⟩
  rw [hc₂.count_eq, hc₁.count_eq]
  omega

end Operations

/-! ## Changes of the table -/

section Changes

variable {s s' : IOManager} {fd : Nat} {c c' : FdContext} {m : Option Event} {fails : Bool}

/-- Nothing changed but the length of the table. -/
structure Unchanged (s s' : IOManager) : Prop where
  context_eq : ∀ fd, s'.context fd = s.context fd
  pending_eq : s'.pending = s.pending
  epoll_eq : s'.epoll = s.epoll
  tickleFd_eq : s'.tickleFd = s.tickleFd
  count_eq : s'.appendingEventCount = s.appendingEventCount

/-- One context and its mask were replaced and the counter follows the events. -/
structure Replaced (s : IOManager) (fd : Nat) (c' : FdContext) (m : Option Event) (s' : IOManager) :
    Prop where
  context_eq : ∀ fd', s'.context fd' = if fd' = fd then c' else s.context fd'
  pending_eq : s'.pending + (s.context fd).events.bits = s.pending + c'.events.bits
  epoll_eq : s'.epoll = Function.update s.epoll fd m
  tickleFd_eq : s'.tickleFd = s.tickleFd
  count_eq : s'.appendingEventCount + (s.context fd).events.bits =
    s.appendingEventCount + c'.events.bits

theorem Unchanged.refl (s : IOManager) : Unchanged s s := ⟨fun _ => rfl, rfl, rfl, rfl, rfl⟩

theorem Unchanged.tableInv (h : Unchanged s s') (hs : TableInv s) : TableInv s' where
  epoll_eq fd hfd := by
    rw [h.epoll_eq, h.context_eq]
    exact hs.epoll_eq fd (h.tickleFd_eq ▸ hfd)
  inOrder fd := by
    rw [h.context_eq]
    exact hs.inOrder fd
  count_eq := by rw [h.count_eq, h.pending_eq, hs.count_eq]

theorem Unchanged.piped (h : Unchanged s s') (hs : Piped s) : Piped s' where
  epoll_eq := by rw [h.epoll_eq, h.tickleFd_eq, hs.epoll_eq]
  events_eq := by rw [h.context_eq, h.tickleFd_eq, hs.events_eq]

/-- After a change the table is in order exactly when the new context is. -/
theorem Replaced.tableInv_iff (h : Replaced s fd c' m s') (hs : TableInv s) (hfd : fd ≠ s.tickleFd) :
    TableInv s' ↔ m = interest c'.events ∧ InOrder c' := by
  constructor
  · intro hs'
    have hm := hs'.epoll_eq fd (by rwa [h.tickleFd_eq])
    have ho := hs'.inOrder fd
    rw [h.epoll_eq, Function.update_self, h.context_eq, if_pos rfl] at hm
    rw [h.context_eq, if_pos rfl] at ho
    exact ⟨hm, ho⟩
  · rintro ⟨hm, ho⟩
    refine ⟨fun fd' hfd' => ?_, fun fd' => ?_, ?_⟩
    · rw [h.tickleFd_eq] at hfd'
      rw [h.epoll_eq, h.context_eq]
      by_cases heq : fd' = fd
      · rw [heq, Function.update_self, if_pos rfl, hm]
      · rw [Function.update_of_ne heq, if_neg heq, hs.epoll_eq fd' hfd']
    · rw [h.context_eq]
      split
      · exact ho
      · exact hs.inOrder fd'
    · have hcount := h.count_eq
      have hpending := h.pending_eq
      have := hs.count_eq
      omega

theorem Replaced.piped (h : Replaced s fd c' m s') (hs : Piped s) (hfd : fd ≠ s.tickleFd) :
    Piped s' where
  epoll_eq := by rw [h.epoll_eq, h.tickleFd_eq, Function.update_of_ne hfd.symm, hs.epoll_eq]
  events_eq := by rw [h.context_eq, h.tickleFd_eq, if_neg hfd.symm, hs.events_eq]

/-- Fresh contexts at the end change nothing. -/
theorem unchanged_contextResize {size : Nat} (h : s.fdContexts.length ≤ size) :
    Unchanged s (s.contextResize size) where
  context_eq fd := by
    rw [context, context, contextResize, List.take_of_length_le h]
    rcases Nat.lt_or_ge fd s.fdContexts.length with hlt | hge
    · rw [List.getElem?_append_left hlt]
    · rw [List.getElem?_append_right hge, List.getElem?_eq_none hge]
      cases hget : (List.replicate (size - s.fdContexts.length) ({} : FdContext))[
          fd - s.fdContexts.length]? with
      | none => rfl
      | some c => exact (List.eq_of_mem_replicate (List.mem_of_getElem? hget))
  pending_eq := by
    rw [pending, pending, contextResize, List.take_of_length_le h]
    simp [Event.bits, Event.NONE]
  epoll_eq := rfl
  tickleFd_eq := rfl
  count_eq := rfl

/-- How the operations change the table. -/
theorem replaced_of_set (hc : s.fdContexts[fd]? = some c)
    (hctx : s'.fdContexts = s.fdContexts.set fd c') (hepoll : s'.epoll = Function.update s.epoll fd m)
    (htickle : s'.tickleFd = s.tickleFd)
    (hcount : s'.appendingEventCount + c.events.bits = s.appendingEventCount + c'.events.bits) :
    Replaced s fd c' m s' := by
  have hget : s.context fd = c := by rw [context, hc, Option.getD_some]
  have hlt : fd < s.fdContexts.length := (List.getElem?_eq_some_iff.mp hc).1
  refine ⟨fun fd' => ?_, ?_, hepoll, htickle, hget ▸ hcount⟩
  · rw [context, hctx, List.getElem?_set]
    by_cases heq : fd' = fd
    · rw [if_pos heq.symm, if_pos heq, if_pos (heq ▸ hlt), Option.getD_some]
    · rw [if_neg (Ne.symm heq), if_neg heq, context]
  · rw [hget, pending, hctx]
    exact sum_map_set _ _ _ _ _ hc

/-! ## Calls of `epoll_ctl` -/

theorem context_of_getElem? (hc : s.fdContexts[fd]? = some c) : s.context fd = c := by
  rw [context, hc, Option.getD_some]

/-- `addEvent` registers or changes the mask, unless the call fails. -/
theorem epollCtl_enroll {epoll : Nat → Option Event} {events : Event} (new : Event)
    (h : epoll fd = interest events) :
    epollCtl epoll fails (if events = Event.NONE then .ADD else .MOD) fd new =
      if fails then none else some (Function.update epoll fd (some new)) := by
  by_cases hnone : events = Event.NONE
  · simp only [epollCtl, h, interest, if_pos hnone]
  · simp only [epollCtl, h, interest, if_neg hnone]

/-- Taking events out of a mask removes it when nothing is left. -/
theorem epollCtl_leave {epoll : Nat → Option Event} {events : Event} (new : Event)
    (h : epoll fd = interest events) (hne : events ≠ Event.NONE) :
    epollCtl epoll fails (if new = Event.NONE then .DEL else .MOD) fd new =
      if fails then none else some (Function.update epoll fd (interest new)) := by
  by_cases hnone : new = Event.NONE
  · simp only [epollCtl, h, interest, if_pos hnone, if_neg hne]
  · simp only [epollCtl, h, interest, if_neg hnone, if_neg hne]

end Changes

/-! ## Steps -/

section Steps

variable {s s' : IOManager} {fd : Nat} {c : FdContext} {events : Event} {fails : Bool}

/-- The steps that keep the table in order: an `addEvent` that succeeds comes from a thread
with a scheduler, and a record that triggers something reports all that is registered. -/
def Sound (s : IOManager) : Op → Prop
  | .addEvent fd _ _ caller fails =>
    fails = true ∨ fd = s.tickleFd ∨ caller.scheduler.isSome = true
  | .ready events i fails =>
    fails = true ∨ ∀ e fd, events[i]? = some e → e.data = .ptr fd →
      (s.context fd).events ∩ realEvents events i = Event.NONE ∨
      (s.context fd).events \ realEvents events i = Event.NONE
  | _ => True

/-- What a step does: nothing, or a change that is in order exactly when the step is sound. -/
def Outcome (s : IOManager) (sound : Prop) (s' : IOManager) : Prop :=
  (Unchanged s s' ∧ sound) ∨
  ∃ fd c' m, fd ≠ s.tickleFd ∧ Replaced s fd c' m s' ∧
    ((m = interest c'.events ∧ InOrder c') ↔ sound)

theorem Outcome.tableInv_iff {sound : Prop} (h : Outcome s sound s') (hs : TableInv s) :
    TableInv s' ↔ sound := by
  rcases h with ⟨hsame, hsound⟩ | ⟨fd, c', m, hfd, hrep, hiff⟩
  · exact ⟨fun _ => hsound, fun _ => hsame.tableInv hs⟩
  · exact (hrep.tableInv_iff hs hfd).trans hiff

theorem Outcome.piped {sound : Prop} (h : Outcome s sound s') (hs : Piped s) : Piped s' := by
  rcases h with ⟨hsame, -⟩ | ⟨fd, c', m, hfd, hrep, -⟩
  · exact hsame.piped hs
  · exact hrep.piped hs hfd

/-- A context with events is not that of the pipe. -/
theorem ne_tickleFd (hp : Piped s) (hc : s.fdContexts[fd]? = some c) (hne : c.events ≠ Event.NONE) :
    fd ≠ s.tickleFd := by
  rintro rfl
  rw [← context_of_getElem? hc] at hne
  exact hne hp.events_eq

theorem ne_none_of_inter (h : c.events ∩ events ≠ Event.NONE) : c.events ≠ Event.NONE := by
  intro hnone
  rw [hnone] at h
  exact h rfl

/-- What `delEvent` and `cancelEvent` get when they go on. -/
theorem release_some {epoll : Nat → Option Event} (hp : Piped s) (hs : TableInv s)
    (h : s.release fd events fails = some (c, epoll)) :
    s.fdContexts[fd]? = some c ∧ fd ≠ s.tickleFd ∧ c.events ∩ events ≠ Event.NONE ∧
      epoll = Function.update s.epoll fd (interest (c.events \ events)) := by
  rw [release] at h
  split at h
  · cases h
  · next c₁ hc =>
    split at h
    · cases h
    · next hset =>
      have hne := ne_none_of_inter hset
      have hfd := ne_tickleFd hp hc hne
      have hmask : s.epoll fd = interest c₁.events := by
        rw [hs.epoll_eq fd hfd, context_of_getElem? hc]
      dsimp only at h
      rw [epollCtl_leave _ hmask hne] at h
      cases fails with
      | true => cases h
      | false =>
        cases h
        exact ⟨hc, hfd, hset, rfl⟩

/-- A change that takes out one direction. -/
theorem outcome_of_triggered {c' : FdContext} (hs : TableInv s) (hc : s.fdContexts[fd]? = some c)
    (hfd : fd ≠ s.tickleFd) (ht : Triggered c events c')
    (hctx : s'.fdContexts = s.fdContexts.set fd c')
    (hepoll : s'.epoll = Function.update s.epoll fd (interest (c.events \ events)))
    (htickle : s'.tickleFd = s.tickleFd)
    (hcount : s'.appendingEventCount = s.appendingEventCount - 1) : Outcome s True s' := by
  have hbits := ht.bits_eq
  have hin : InOrder c := context_of_getElem? hc ▸ hs.inOrder fd
  refine .inr ⟨fd, c', _, hfd, replaced_of_set hc hctx hepoll htickle (by omega), ?_⟩
  rw [iff_true]
  exact ⟨by rw [ht.events_eq], ht.inOrder hin⟩

theorem delEvent_outcome {b : Bool} (hp : Piped s) (hs : TableInv s)
    (h : s.delEvent fd events fails = .ok (b, s')) : Outcome s True s' := by
  rw [delEvent] at h
  split at h
  · cases h
    exact .inl ⟨Unchanged.refl s, trivial⟩
  · next hrel =>
    obtain ⟨hc, hfd, hset, rfl⟩ := release_some hp hs hrel
    obtain ⟨ctx, hctx, h⟩ := bind_eq_ok.mp h
    cases h
    have he : events = Event.READ ∨ events = Event.WRITE :=
      (getcontext_ok hctx).imp And.left And.left
    exact outcome_of_triggered hs hc hfd (triggered_of_removed he hset rfl) rfl rfl rfl rfl

theorem cancelEvent_outcome {b : Bool} (hp : Piped s) (hs : TableInv s)
    (h : s.cancelEvent fd events fails = .ok (b, s')) : Outcome s True s' := by
  rw [cancelEvent] at h
  split at h
  · cases h
    exact .inl ⟨Unchanged.refl s, trivial⟩
  · next hrel =>
    obtain ⟨hc, hfd, hset, rfl⟩ := release_some hp hs hrel
    obtain ⟨⟨c', tasks⟩, htrigger, h⟩ := bind_eq_ok.mp h
    cases h
    exact outcome_of_triggered hs hc hfd (triggerEvent_triggered htrigger) rfl rfl rfl rfl

/-- All that is registered was triggered, and `epoll` was told that `left` remains. -/
theorem outcome_of_triggerAll {s₁ : IOManager} {c' : FdContext} {left : Event} {sound : Prop}
    (hs : TableInv s) (hc : s.fdContexts[fd]? = some c) (hfd : fd ≠ s.tickleFd)
    (h : { s with epoll := Function.update s.epoll fd (interest left) }.triggerAll c = .ok (c', s₁))
    (hsound : left = Event.NONE ↔ sound) :
    Outcome s sound { s₁ with fdContexts := s₁.fdContexts.set fd c' } := by
  obtain ⟨hnone, hin, hcounted⟩ := triggerAll_ok h
  have hzero : c'.events.bits = 0 := by rw [hnone]; rfl
  have hcount := hcounted.count_eq
  dsimp only at hcount
  have hctx : s₁.fdContexts.set fd c' = s.fdContexts.set fd c' := by rw [hcounted.fdContexts_eq]
  refine .inr ⟨fd, c', interest left, hfd, replaced_of_set hc hctx hcounted.epoll_eq
    hcounted.tickleFd_eq (by simp only; omega), ?_⟩
  rw [hnone, ← hsound]
  have hin' := hin (context_of_getElem? hc ▸ hs.inOrder fd)
  by_cases hleft : left = Event.NONE
  · simp [hleft, hin']
  · simp [hleft, interest]

theorem cancelAll_outcome {b : Bool} (hp : Piped s) (hs : TableInv s)
    (h : s.cancelAll fd fails = .ok (b, s')) : Outcome s True s' := by
  rw [cancelAll] at h
  split at h
  · cases h
    exact .inl ⟨Unchanged.refl s, trivial⟩
  · next c hc =>
    split at h
    · cases h
      exact .inl ⟨Unchanged.refl s, trivial⟩
    · next hne =>
      have hfd := ne_tickleFd hp hc hne
      have hmask : s.epoll fd = interest c.events := by
        rw [hs.epoll_eq fd hfd, context_of_getElem? hc]
      have hctl := @epollCtl_leave fd fails s.epoll c.events Event.NONE hmask hne
      rw [if_pos rfl] at hctl
      rw [hctl] at h
      cases fails with
      | true =>
        cases h
        exact .inl ⟨Unchanged.refl s, trivial⟩
      | false =>
        obtain ⟨⟨c', s₁⟩, htrigger, h⟩ := bind_eq_ok.mp h
        dsimp only at h
        split at h
        · cases h
        · cases h
          exact outcome_of_triggerAll hs hc hfd htrigger (iff_true_intro rfl)

theorem armed_ok {ctx ctx' : EventContext} {cb : Option Nat} {caller : Caller}
    (h : armed ctx cb caller = .ok ctx') : waiting ctx' = caller.scheduler.isSome := by
  unfold armed at h
  split at h
  · cases h
  · next hnull =>
    simp only [not_or, not_not] at hnull
    obtain ⟨-, hcb, hfiber⟩ := hnull
    cases cb with
    | some cb =>
      cases h
      simp [waiting, hfiber]
    | none =>
      dsimp only at h
      split at h
      · cases h
        simp [waiting, hcb]
      · cases h

/-- The table `addEvent` works on. -/
theorem unchanged_grown (s : IOManager) (fd : Nat) : Unchanged s
    (if s.fdContexts.length > fd then s else s.contextResize (fd * 3 / 2)) := by
  split
  · exact Unchanged.refl s
  · exact unchanged_contextResize (by omega)

theorem Unchanged.outcome {s₁ : IOManager} {sound : Prop} (h : Unchanged s s₁)
    (ho : Outcome s₁ sound s') : Outcome s sound s' := by
  rcases ho with ⟨hsame, hsound⟩ | ⟨fd, c', m, hfd, hrep, hiff⟩
  · refine .inl ⟨⟨fun fd => ?_, ?_, ?_, ?_, ?_⟩, hsound⟩
    · rw [hsame.context_eq, h.context_eq]
    · rw [hsame.pending_eq, h.pending_eq]
    · rw [hsame.epoll_eq, h.epoll_eq]
    · rw [hsame.tickleFd_eq, h.tickleFd_eq]
    · rw [hsame.count_eq, h.count_eq]
  · refine .inr ⟨fd, c', m, h.tickleFd_eq ▸ hfd, ⟨fun fd' => ?_, ?_, ?_, ?_, ?_⟩, hiff⟩
    · rw [hrep.context_eq, h.context_eq]
    · rw [← h.context_eq, hrep.pending_eq, h.pending_eq]
    · rw [hrep.epoll_eq, h.epoll_eq]
    · rw [hrep.tickleFd_eq, h.tickleFd_eq]
    · rw [← h.context_eq, hrep.count_eq, h.count_eq]

/-- Adding one direction that was not set. -/
theorem inOrder_added {ctx : EventContext} (hc : InOrder c)
    (he : events = Event.READ ∨ events = Event.WRITE) (hset : c.events ∩ events = Event.NONE) :
    (InOrder ({ c with events := c.events ∪ events }.setcontext events ctx) ↔ waiting ctx = true) ∧
    (c.events ∪ events).bits = c.events.bits + 1 ∧ c.events ∪ events ≠ Event.NONE := by
  rw [inOrder_setcontext hc he]
  simp only [event_eq_iff, inter_read, inter_write, Event.NONE] at hset
  rcases he with rfl | rfl
  · have hr : c.events.read = false := by simpa [Event.READ] using hset.1
    refine ⟨?_, ?_, ?_⟩
    · simp [Event.READ, Event.WRITE]
    · simp [Event.READ, Event.bits, hr]
      omega
    · simp [Event.READ, Event.NONE, event_eq_iff]
  · have hw : c.events.write = false := by simpa [Event.WRITE] using hset.2
    refine ⟨?_, ?_, ?_⟩
    · simp [Event.READ, Event.WRITE]
    · simp [Event.WRITE, Event.bits, hw]
    · simp [Event.WRITE, Event.NONE, event_eq_iff]

theorem addEvent_outcome {rt : Int} {cb : Option Nat} {caller : Caller} (hp : Piped s)
    (hs : TableInv s) (h : s.addEvent fd events cb caller fails = .ok (rt, s')) :
    Outcome s (Sound s (.addEvent fd events cb caller fails)) s' := by
  have hsame := unchanged_grown s fd
  have hp₁ := hsame.piped hp
  have hs₁ := hsame.tableInv hs
  rw [addEvent] at h
  dsimp only at h
  generalize (if s.fdContexts.length > fd then s else s.contextResize (fd * 3 / 2)) = s₁ at *
  apply hsame.outcome
  rw [Sound, ← hsame.tickleFd_eq]
  split at h
  · cases h
  · next c hc =>
    split at h
    · cases h
    · next hset =>
      rw [not_not] at hset
      by_cases hfd : fd = s₁.tickleFd
      · -- the pipe is registered and its context has no events, so `ADD` is refused
        have hnone : c.events = Event.NONE := by
          rw [← context_of_getElem? hc, hfd, hp₁.events_eq]
        have hctl : epollCtl s₁.epoll fails (if c.events = Event.NONE then .ADD else .MOD) fd
            (c.events ∪ events) = none := by
          rw [if_pos hnone]
          cases fails <;> simp [epollCtl, hfd, hp₁.epoll_eq]
        rw [hctl] at h
        cases h
        exact .inl ⟨Unchanged.refl _, .inr (.inl hfd)⟩
      · have hmask : s₁.epoll fd = interest c.events := by
          rw [hs₁.epoll_eq fd hfd, context_of_getElem? hc]
        rw [epollCtl_enroll _ hmask] at h
        cases fails with
        | true =>
          cases h
          exact .inl ⟨Unchanged.refl _, .inl rfl⟩
        | false =>
          obtain ⟨ctx, hctx, h⟩ := bind_eq_ok.mp h
          obtain ⟨ctx', harmed, h⟩ := bind_eq_ok.mp h
          cases h
          have he : events = Event.READ ∨ events = Event.WRITE :=
            (getcontext_ok hctx).imp And.left And.left
          have hin : InOrder c := context_of_getElem? hc ▸ hs₁.inOrder fd
          obtain ⟨hiff, hbits, hne⟩ := @inOrder_added c events ctx' hin he hset
          refine .inr ⟨fd, _, _, hfd, replaced_of_set hc rfl rfl rfl ?_, ?_⟩
          · rw [setcontext_events]
            simp only [hbits]
            omega
          · rw [setcontext_events, hiff, armed_ok harmed, interest, if_neg hne]
            simp [hfd]

theorem dispatchRecord_outcome {records records' : List EpollEvent} {i : Nat} (hp : Piped s)
    (hs : TableInv s) (h : s.dispatchRecord records i fails = .ok (records', s')) :
    Outcome s (Sound s (.ready records i fails)) s' := by
  rw [dispatchRecord] at h
  split at h
  · cases h
  · next e he =>
    split at h
    · next hdata =>
      cases h
      refine .inl ⟨Unchanged.refl s, .inr fun e' fd he' hdata' => ?_⟩
      obtain rfl : e = e' := Option.some.inj (he.symm.trans he')
      cases hdata.symm.trans hdata'
    · next fd hdata =>
      split at h
      · cases h
      · next c hc =>
        have hctx := context_of_getElem? hc
        have hsound : Sound s (.ready records i fails) ↔ fails = true ∨
            c.events ∩ realEvents records i = Event.NONE ∨
            c.events \ realEvents records i = Event.NONE := by
          constructor
          · rintro (hf | hall)
            · exact .inl hf
            · exact .inr (hctx ▸ hall e fd he hdata)
          · rintro (hf | hall)
            · exact .inl hf
            · refine .inr fun e' fd' he' hdata' => ?_
              obtain rfl : e = e' := Option.some.inj (he.symm.trans he')
              cases hdata.symm.trans hdata'
              exact hctx ▸ hall
        dsimp only at h
        split at h
        · next hset =>
          cases h
          exact .inl ⟨Unchanged.refl s, hsound.mpr (.inr (.inl hset))⟩
        · next hset =>
          have hne := ne_none_of_inter hset
          have hfd := ne_tickleFd hp hc hne
          have hmask : s.epoll fd = interest c.events := by rw [hs.epoll_eq fd hfd, hctx]
          rw [epollCtl_leave _ hmask hne] at h
          cases fails with
          | true =>
            cases h
            exact .inl ⟨Unchanged.refl s, .inl rfl⟩
          | false =>
            obtain ⟨⟨c', s₁⟩, htrigger, h⟩ := bind_eq_ok.mp h
            cases h
            refine outcome_of_triggerAll hs hc hfd htrigger ?_
            rw [hsound]
            simp [hset]

theorem step_outcome {op : Op} (hp : Piped s) (hs : TableInv s) (h : Step s op s') :
    Outcome s (Sound s op) s' := by
  cases op with
  | addEvent fd events cb caller fails =>
    obtain ⟨⟨rt, s₁⟩, hop, rfl⟩ := map_eq_ok.mp h
    exact addEvent_outcome hp hs hop
  | delEvent fd events fails =>
    obtain ⟨⟨b, s₁⟩, hop, rfl⟩ := map_eq_ok.mp h
    exact delEvent_outcome hp hs hop
  | cancelEvent fd events fails =>
    obtain ⟨⟨b, s₁⟩, hop, rfl⟩ := map_eq_ok.mp h
    exact cancelEvent_outcome hp hs hop
  | cancelAll fd fails =>
    obtain ⟨⟨b, s₁⟩, hop, rfl⟩ := map_eq_ok.mp h
    exact cancelAll_outcome hp hs hop
  | ready records i fails =>
    obtain ⟨⟨records', s₁⟩, hop, rfl⟩ := map_eq_ok.mp h
    exact dispatchRecord_outcome hp hs hop

end Steps

/-! ## Runs -/

theorem context_init (tickleFd fd : Nat) : (init tickleFd).context fd = {} := by
  rw [context, init]
  cases hget : (List.replicate 32 ({} : FdContext))[fd]? with
  | none => rfl
  | some c => exact List.eq_of_mem_replicate (List.mem_of_getElem? hget)

theorem piped_init (tickleFd : Nat) : Piped (init tickleFd) where
  epoll_eq := by simp [init]
  events_eq := by rw [context_init]

theorem tableInv_init (tickleFd : Nat) : TableInv (init tickleFd) where
  epoll_eq fd hfd := by
    rw [context_init, init]
    exact Function.update_of_ne hfd (some Event.READ) (fun _ => none)
  inOrder fd := by
    rw [context_init]
    exact ⟨rfl, rfl⟩
  count_eq := rfl

/-- A run keeps the table in order exactly when all of its steps are sound. -/
theorem run_tableInv_iff (tickleFd : Nat) (t : List (Op × IOManager))
    (run : Run Step (init tickleFd) t) :
    Always TableInv (init tickleFd) t ↔ Meets Sound (init tickleFd) t :=
  always_iff_meets Piped TableInv Sound
    (fun _ _ _ hp hs h => (step_outcome hp hs h).piped hp)
    (fun _ _ _ hp hs h => (step_outcome hp hs h).tableInv_iff hs)
    run (piped_init tickleFd) (tableInv_init tickleFd)

/-- The whole loop over the records of an `epoll_wait` is a run. -/
theorem dispatch_run {s s' : IOManager} {records : List EpollEvent} {fails : Nat → Bool} {i left : Nat}
    (h : s.dispatch records fails i left = .ok s') : ∃ t, Run Step s t ∧ last s t = s' := by
  induction left generalizing s records i with
  | zero =>
    cases h
    exact ⟨[], .nil _, rfl⟩
  | succ left ih =>
    rw [dispatch] at h
    obtain ⟨⟨records', s₁⟩, hrecord, h⟩ := bind_eq_ok.mp h
    obtain ⟨t, hrun, hlast⟩ := ih h
    have hstep : Step s (.ready records i (fails i)) s₁ := by
      rw [Step, step, hrecord]
      rfl
    exact ⟨_, .cons hstep hrun, hlast⟩

/-- A fiber of scheduler 1 that calls `addEvent`. -/
def worker : Caller := ⟨some 1, 7, true⟩

/-- Both directions of a socket are registered and reported together. -/
theorem run_tableInv_both : ∃ t,
    trace step (init 3) [.addEvent 5 Event.READ none worker false,
      .addEvent 5 Event.WRITE (some 2) worker false,
      .ready [{ data := .ptr 5, in_ := true, out := true }] 0 false] = .ok t ∧
    Always TableInv (init 3) t := by
  refine ⟨_, rfl, (run_tableInv_iff 3 _ (run_of_trace [.addEvent 5 Event.READ none worker false,
    .addEvent 5 Event.WRITE (some 2) worker false,
    .ready [{ data := .ptr 5, in_ := true, out := true }] 0 false] rfl)).mpr ?_⟩
  refine ⟨.inr (.inr rfl), .inr (.inr rfl), .inr ?_, trivial⟩
  rintro e fd he hdata
  cases he
  cases hdata
  exact .inr rfl

/-- Only the reading side of a socket with both directions is reported: the writing side is
triggered too, and stays registered in `epoll`. -/
theorem run_ready_breaks_tableInv : ∃ t,
    Run Step (init 3) t ∧ ¬Always TableInv (init 3) t := by
  refine ⟨_, run_of_trace [.addEvent 5 Event.READ none worker false,
    .addEvent 5 Event.WRITE (some 2) worker false,
    .ready [{ data := .ptr 5, in_ := true }] 0 false] rfl, fun h => ?_⟩
  have hlast := (h.2 _ (List.mem_cons_of_mem _ (List.mem_cons_of_mem _ List.mem_cons_self))).epoll_eq
    5 (by decide)
  exact absurd hlast (by decide)

end CxkFramework.IOManager
