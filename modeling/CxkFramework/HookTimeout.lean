import CxkFramework.Hook
import CxkFramework.IoManagerTable

/-!
# Timeouts of the hooked calls

The timer is armed before the event is registered. A callback that runs in between finds
nothing to cancel, and since it has written `tinfo->cancelled` no later callback of the call
cancels anything either: the fiber registers its event and sleeps on. The same happens to a
callback of an earlier round that comes late. In all other runs a fiber that sleeps with its
event registered and its time over has a callback right before `cancelEvent`.
-/

namespace CxkFramework.IOManager

open Runs

/-! ## Events that a fiber waits for -/

/-- The fiber waits for the event in this context. -/
def FdContext.Awaits (c : FdContext) (event : Event) (fiber : Nat) : Prop :=
  (event.read ∧ c.events.read ∧ c.read.fiber = some fiber) ∨
    (event.write ∧ c.events.write ∧ c.write.fiber = some fiber)

instance (c : FdContext) (event : Event) (fiber : Nat) : Decidable (c.Awaits event fiber) :=
  inferInstanceAs (Decidable (_ ∨ _))

/-- The fiber waits for the event of the file descriptor. -/
def Awaits (s : IOManager) (fd : Nat) (event : Event) (fiber : Nat) : Prop :=
  (s.context fd).Awaits event fiber

instance (s : IOManager) (fd : Nat) (event : Event) (fiber : Nat) :
    Decidable (s.Awaits fd event fiber) :=
  inferInstanceAs (Decidable (FdContext.Awaits _ _ _))

section Awaits

variable {s s' : IOManager} {c c' : FdContext} {fd : Nat} {event : Event} {fiber : Nat}

theorem not_awaits_new : ¬FdContext.Awaits {} event fiber := by
  rintro (⟨-, h, -⟩ | ⟨-, h, -⟩) <;> cases h

/-- With its bits out of a context an event is not waited for. -/
theorem not_awaits_of_sdiff (h : c'.events = c.events \ event) : ¬c'.Awaits event fiber := by
  rintro (⟨he, hc, -⟩ | ⟨he, hc, -⟩)
  · rw [h, sdiff_read, he] at hc
    simp at hc
  · rw [h, sdiff_write, he] at hc
    simp at hc

/-- Nobody waits in the new context who did not wait in the old one. -/
def Fewer (c c' : FdContext) : Prop := ∀ event fiber, c'.Awaits event fiber → c.Awaits event fiber

/-- A direction that is taken out may be left with anything. -/
theorem fewer_removed (c : FdContext) (ctx : EventContext)
    (he : event = Event.READ ∨ event = Event.WRITE) :
    Fewer c ({ c with events := c.events \ event }.setcontext event ctx) := by
  intro ev fiber h
  rcases he with rfl | rfl
  · rcases h with ⟨-, hbit, -⟩ | ⟨hev, hbit, hfiber⟩
    · simp [FdContext.setcontext, Event.READ] at hbit
    · refine .inr ⟨hev, ?_, hfiber⟩
      simpa [FdContext.setcontext, Event.READ] using hbit
  · rcases h with ⟨hev, hbit, hfiber⟩ | ⟨-, hbit, -⟩
    · refine .inl ⟨hev, ?_, hfiber⟩
      simpa [FdContext.setcontext, Event.WRITE, Event.READ] using hbit
    · simp [FdContext.setcontext, Event.WRITE, Event.READ] at hbit

theorem getcontext_event {ctx : EventContext} (h : c.getcontext event = .ok ctx) :
    event = Event.READ ∨ event = Event.WRITE := by
  rcases getcontext_ok h with ⟨he, -⟩ | ⟨he, -⟩
  · exact .inl he
  · exact .inr he

theorem fewer_triggerEvent {tasks : List (Nat × Task)}
    (h : c.triggerEvent event = .ok (c', tasks)) : Fewer c c' := by
  rw [FdContext.triggerEvent] at h
  split at h
  · cases h
  · obtain ⟨ctx, hctx, h⟩ := bind_eq_ok.mp h
    split at h
    · cases h
    · cases h
      exact fewer_removed c _ (getcontext_event hctx)

theorem fewer_triggerIfSet (h : s.triggerIfSet c event = .ok (c', s')) :
    Fewer c c' ∧ s'.fdContexts = s.fdContexts := by
  refine ⟨?_, (triggerIfSet_ok h).2.2.1.fdContexts_eq⟩
  rw [triggerIfSet] at h
  split at h
  · cases h
    exact fun _ _ h => h
  · obtain ⟨⟨c₁, tasks⟩, htrigger, h⟩ := bind_eq_ok.mp h
    cases h
    exact fewer_triggerEvent htrigger

theorem fewer_triggerAll (h : s.triggerAll c = .ok (c', s')) :
    Fewer c c' ∧ s'.fdContexts = s.fdContexts := by
  rw [triggerAll] at h
  obtain ⟨⟨c₁, s₁⟩, h₁, h₂⟩ := bind_eq_ok.mp h
  obtain ⟨hfewer₁, htable₁⟩ := fewer_triggerIfSet h₁
  obtain ⟨hfewer₂, htable₂⟩ := fewer_triggerIfSet h₂
  exact ⟨fun ev f h => hfewer₁ ev f (hfewer₂ ev f h), htable₂.trans htable₁⟩

/-- A step that replaces one context. -/
theorem awaits_of_set (hc : s.fdContexts[fd]? = some c)
    (hset : s'.fdContexts = s.fdContexts.set fd c') (hfewer : c'.Awaits event fiber → c.Awaits event fiber)
    (fd' : Nat) (h : s'.Awaits fd' event fiber) : s.Awaits fd' event fiber := by
  have hlt : fd < s.fdContexts.length := (List.getElem?_eq_some_iff.mp hc).1
  rw [Awaits, context, hset, List.getElem?_set] at h
  by_cases hfd : fd = fd'
  · subst hfd
    rw [if_pos rfl, if_pos hlt, Option.getD_some] at h
    rw [Awaits, context_of_getElem? hc]
    exact hfewer h
  · rw [if_neg hfd] at h
    exact h

theorem awaits_contextResize {size : Nat} (h : (s.contextResize size).Awaits fd event fiber) :
    s.Awaits fd event fiber := by
  rw [Awaits, context, contextResize] at h
  rcases Nat.lt_or_ge fd (s.fdContexts.take size).length with hlt | hge
  · rw [List.getElem?_append_left hlt, List.getElem?_take_of_lt (by
      rw [List.length_take] at hlt
      omega)] at h
    exact h
  · rw [List.getElem?_append_right hge, List.getElem?_replicate] at h
    split at h
    · exact absurd h not_awaits_new
    · exact absurd h not_awaits_new

theorem release_getElem? {epoll : Nat → Option Event} {fails : Bool}
    (h : s.release fd event fails = some (c, epoll)) :
    s.fdContexts[fd]? = some c ∧ c.events ∩ event ≠ Event.NONE := by
  rw [release] at h
  split at h
  · cases h
  · next c₁ hc =>
    split at h
    · cases h
    · next hset =>
      obtain ⟨e, -, heq⟩ := Option.map_eq_some_iff.mp h
      cases heq
      exact ⟨hc, hset⟩

/-- What `addEvent` adds is the fiber that calls it, or a callback. -/
theorem awaits_armed {ctx ctx' : EventContext} {cb : Option Nat} {caller : Caller}
    (harmed : armed ctx cb caller = .ok ctx') :
    ctx'.fiber = none ∨ cb = none ∧ ctx'.fiber = some caller.fiber := by
  rw [armed.eq_def] at harmed
  split at harmed
  · cases harmed
  · next hempty =>
    split at harmed
    · cases harmed
      simp only [ne_eq, not_or, not_not] at hempty
      exact .inl hempty.2.2
    · split at harmed
      · cases harmed
        exact .inr ⟨rfl, rfl⟩
      · cases harmed

theorem awaits_addEvent {cb : Option Nat} {caller : Caller} {fails : Bool} {events : Event}
    {r : Int} {fd' : Nat} (hother : cb = none → caller.fiber ≠ fiber)
    (h : s.addEvent fd' events cb caller fails = .ok (r, s')) (hs' : s'.Awaits fd event fiber) :
    s.Awaits fd event fiber := by
  rw [addEvent] at h
  dsimp only at h
  have hgrown : ∀ s₁ : IOManager, s₁ = (if s.fdContexts.length > fd' then s
      else s.contextResize (fd' * 3 / 2)) → s₁.Awaits fd event fiber → s.Awaits fd event fiber := by
    rintro _ rfl hs₁
    split at hs₁
    · exact hs₁
    · exact awaits_contextResize hs₁
  generalize hs₁ : (if s.fdContexts.length > fd' then s else s.contextResize (fd' * 3 / 2)) = s₁ at h
  refine hgrown s₁ hs₁.symm ?_
  split at h
  · cases h
  · next c hc =>
    split at h
    · cases h
    · split at h
      · cases h
        exact hs'
      · obtain ⟨ctx, hctx, h⟩ := bind_eq_ok.mp h
        obtain ⟨ctx', harmed, h⟩ := bind_eq_ok.mp h
        cases h
        refine awaits_of_set hc rfl ?_ fd hs'
        have hne : ctx'.fiber ≠ some fiber := by
          rcases awaits_armed harmed with hnone | ⟨hcb, hfiber⟩
          · rw [hnone]
            exact (Option.some_ne_none fiber).symm
          · rw [hfiber]
            exact fun heq => hother hcb (Option.some.inj heq)
        rcases getcontext_event hctx with rfl | rfl
        · rintro (⟨-, -, hfiber⟩ | ⟨hev, hbit, hfiber⟩)
          · exact absurd hfiber hne
          · refine .inr ⟨hev, ?_, hfiber⟩
            simpa [FdContext.setcontext, Event.READ] using hbit
        · rintro (⟨hev, hbit, hfiber⟩ | ⟨-, -, hfiber⟩)
          · refine .inl ⟨hev, ?_, hfiber⟩
            simpa [FdContext.setcontext, Event.WRITE, Event.READ] using hbit
          · exact absurd hfiber hne

theorem awaits_delEvent {fails : Bool} {events : Event} {r : Bool} {fd' : Nat}
    (h : s.delEvent fd' events fails = .ok (r, s')) (hs' : s'.Awaits fd event fiber) :
    s.Awaits fd event fiber := by
  rw [delEvent] at h
  split at h
  · cases h
    exact hs'
  · next c epoll hrelease =>
    obtain ⟨ctx, hctx, h⟩ := bind_eq_ok.mp h
    cases h
    exact awaits_of_set (release_getElem? hrelease).1 rfl
      (fewer_removed c _ (getcontext_event hctx) event fiber) fd hs'

theorem awaits_cancelEvent {fails : Bool} {events : Event} {r : Bool} {fd' : Nat}
    (h : s.cancelEvent fd' events fails = .ok (r, s')) (hs' : s'.Awaits fd event fiber) :
    s.Awaits fd event fiber := by
  rw [cancelEvent] at h
  split at h
  · cases h
    exact hs'
  · next c epoll hrelease =>
    obtain ⟨⟨c', tasks⟩, htrigger, h⟩ := bind_eq_ok.mp h
    cases h
    exact awaits_of_set (release_getElem? hrelease).1 rfl (fewer_triggerEvent htrigger event fiber)
      fd hs'

theorem awaits_cancelAll {fails : Bool} {r : Bool} {fd' : Nat}
    (h : s.cancelAll fd' fails = .ok (r, s')) (hs' : s'.Awaits fd event fiber) :
    s.Awaits fd event fiber := by
  rw [cancelAll] at h
  split at h
  · cases h
    exact hs'
  · next c hc =>
    split at h
    · cases h
      exact hs'
    · split at h
      · cases h
        exact hs'
      · obtain ⟨⟨c', s₁⟩, htrigger, h⟩ := bind_eq_ok.mp h
        obtain ⟨hfewer, htable⟩ := fewer_triggerAll htrigger
        dsimp only at h
        split at h
        · cases h
        · cases h
          exact awaits_of_set hc (by rw [htable]) (hfewer event fiber) fd hs'

theorem awaits_dispatchRecord {events events' : List EpollEvent} {i : Nat} {fails : Bool}
    (h : s.dispatchRecord events i fails = .ok (events', s')) (hs' : s'.Awaits fd event fiber) :
    s.Awaits fd event fiber := by
  rw [dispatchRecord] at h
  split at h
  · cases h
  · split at h
    · cases h
      exact hs'
    · split at h
      · cases h
      · next c hc =>
        dsimp only at h
        split at h
        · cases h
          exact hs'
        · split at h
          · cases h
            exact hs'
          · obtain ⟨⟨c', s₁⟩, htrigger, h⟩ := bind_eq_ok.mp h
            obtain ⟨hfewer, htable⟩ := fewer_triggerAll htrigger
            cases h
            exact awaits_of_set hc (by rw [htable]) (hfewer event fiber) fd hs'

/-- An event whose bits are found is taken out by `cancelEvent`. -/
theorem not_awaits_cancelEvent {fails : Bool} {r : Bool}
    (hrelease : (s.release fd event fails).isSome)
    (h : s.cancelEvent fd event fails = .ok (r, s')) : ¬s'.Awaits fd event fiber := by
  rw [cancelEvent] at h
  split at h
  · next hnone =>
    rw [hnone] at hrelease
    cases hrelease
  · next c epoll hsome =>
    obtain ⟨⟨c', tasks⟩, htrigger, h⟩ := bind_eq_ok.mp h
    cases h
    obtain ⟨hc, -⟩ := release_getElem? hsome
    have hlt : fd < s.fdContexts.length := (List.getElem?_eq_some_iff.mp hc).1
    rw [Awaits, context_of_getElem? (List.getElem?_set_self hlt)]
    exact not_awaits_of_sdiff (triggerEvent_triggered htrigger).events_eq

end Awaits

end CxkFramework.IOManager

namespace CxkFramework.Hook

open IOManager Runs

variable (call : Call)

/-- The event of the call is registered for its fiber. -/
def Registered (s : Hook) : Prop := s.iom.Awaits call.fd call.event call.caller.fiber

/-- The fiber sleeps in `YieldToHold` with its event registered although its time is over. -/
def Sleeping (s : Hook) : Prop :=
  (∃ timer, s.place = .suspended timer) ∧ Registered call s ∧ s.cancelled = ETIMEDOUT

/-- A callback that has written `tinfo->cancelled` is about to cancel the event. -/
def Cancelling (s : Hook) : Prop := .cancelling ∈ s.timers

/-- The timeout is not lost. -/
def Kept (s : Hook) : Prop := Sleeping call s → Cancelling s

/-- When the event is registered, no callback has written `tinfo->cancelled` and is through with
its `cancelEvent`; and `epoll_ctl` does its work for a callback that finds the event. -/
def Timely (s : Hook) : Op → Prop
  | .addEvent _ => s.cancelled = 0 ∨ Cancelling s
  | .cancelEvent _ fails =>
    Registered call s → (s.iom.release call.fd call.event fails).isSome
  | _ => True

def Inv (s : Hook) : Prop := Registered call s → s.cancelled ≠ 0 → Cancelling s

section Steps

variable {call} {s s' : Hook}

theorem Inv.kept (h : Inv call s) : Kept call s := by
  rintro ⟨-, hreg, hcancelled⟩
  refine h hreg ?_
  rw [hcancelled]
  decide

/-- A step that leaves the manager and the flag alone and cancels no event. -/
theorem Inv.of_same (h : Inv call s) (hiom : s'.iom = s.iom) (hflag : s'.cancelled = s.cancelled)
    (htimers : Cancelling s → Cancelling s') : Inv call s' := by
  intro hreg hcancelled
  rw [Registered, hiom] at hreg
  exact htimers (h hreg (hflag ▸ hcancelled))

theorem inv_goto (h : Inv call s) (place : Place) : Inv call (s.goto place) :=
  h.of_same rfl rfl id

/-- A callback that is not about to cancel may go on. -/
theorem cancelling_setTimer {i : Nat} {a b : Alarm} (ha : s.timers[i]? = some a)
    (hne : a ≠ .cancelling) (h : Cancelling s) : Cancelling (s.setTimer i b) := by
  obtain ⟨j, hj⟩ := List.mem_iff_getElem?.mp h
  have hij : i ≠ j := by
    rintro rfl
    rw [ha] at hj
    exact hne (Option.some.inj hj)
  refine List.mem_iff_getElem?.mpr ⟨j, ?_⟩
  rw [setTimer, List.getElem?_set_ne hij, hj]

theorem inv_setTimer {i : Nat} {a b : Alarm} (h : Inv call s) (ha : s.timers[i]? = some a)
    (hne : a ≠ .cancelling) : Inv call (s.setTimer i b) :=
  h.of_same rfl rfl (cancelling_setTimer ha hne)

theorem inv_addConditionTimer (h : Inv call s) : Inv call (s.addConditionTimer call) := by
  rw [addConditionTimer]
  split
  · exact h.of_same rfl rfl (fun hc => List.mem_append_left _ hc)
  · exact inv_goto h _

theorem inv_cancelTimer (h : Inv call s) (timer : Option Nat) : Inv call (s.cancelTimer timer) := by
  cases timer with
  | none => exact h
  | some i =>
    rw [cancelTimer]
    split
    · next harmed => exact inv_setTimer h harmed (by decide)
    · exact h

/-- Nothing outside of the call registers its event. -/
theorem registered_other {op : IOManager.Op} {iom : IOManager} (hforeign : foreign call op)
    (h : s.iom.step op = .ok iom) (hreg : Registered call (s.setIom iom)) : Registered call s := by
  cases op with
  | addEvent fd events cb caller fails =>
    obtain ⟨⟨r, iom'⟩, hadd, rfl⟩ := map_eq_ok.mp h
    refine awaits_addEvent ?_ hadd hreg
    rintro rfl
    exact of_decide_eq_true hforeign
  | delEvent fd events fails =>
    obtain ⟨⟨r, iom'⟩, hdel, rfl⟩ := map_eq_ok.mp h
    exact awaits_delEvent hdel hreg
  | cancelEvent fd events fails =>
    obtain ⟨⟨r, iom'⟩, hcancel, rfl⟩ := map_eq_ok.mp h
    exact awaits_cancelEvent hcancel hreg
  | cancelAll fd fails =>
    obtain ⟨⟨r, iom'⟩, hcancel, rfl⟩ := map_eq_ok.mp h
    exact awaits_cancelAll hcancel hreg
  | ready events i fails =>
    obtain ⟨⟨events', iom'⟩, hready, rfl⟩ := map_eq_ok.mp h
    exact awaits_dispatchRecord hready hreg

/-- After the `cancelEvent` of a callback the event of the call is not registered. -/
theorem not_registered_cancelEvent {iom : IOManager} {fails r : Bool}
    (hok : Registered call s → (s.iom.release call.fd call.event fails).isSome)
    (h : s.iom.cancelEvent call.fd call.event fails = .ok (r, iom)) :
    ¬iom.Awaits call.fd call.event call.caller.fiber := by
  by_cases hreg : Registered call s
  · exact not_awaits_cancelEvent (hok hreg) h
  · exact fun hiom => hreg (awaits_cancelEvent h hiom)

theorem step_inv {op : Op} (hs : Inv call s) (hok : Timely call s op) (h : Step call s op s') :
    Inv call s' := by
  cases op with
  | attempt n errno =>
    rw [Step, step] at h
    split at h
    · cases h
      exact inv_goto hs _
    · cases h
  | addConditionTimer =>
    rw [Step, step] at h
    split at h
    · cases h
      exact inv_addConditionTimer hs
    · cases h
  | addEvent fails =>
    rw [Step, step] at h
    split at h
    · split at h
      · cases h
        exact fun _ hcancelled => hok.resolve_left hcancelled
      · cases h
    · cases h
  | yieldToHold =>
    rw [Step, step] at h
    split at h
    · cases h
      exact inv_goto hs _
    · cases h
  | resume =>
    rw [Step, step] at h
    split at h
    · split at h
      · cases h
        exact hs.of_same rfl rfl id
      · cases h
    · cases h
  | cancelTimer =>
    rw [Step, step] at h
    split at h
    · cases h
      exact inv_goto (inv_cancelTimer hs _) _
    · cases h
      exact inv_goto (inv_cancelTimer hs _) _
    · cases h
  | check =>
    rw [Step, step] at h
    split at h
    · split at h
      · cases h
        exact inv_goto hs _
      · cases h
        exact inv_goto hs _
    · cases h
  | getsockopt rt error =>
    rw [Step, step] at h
    split at h
    · cases h
      exact inv_goto hs _
    · cases h
  | expire i =>
    rw [Step, step] at h
    split at h
    · next ha =>
      cases h
      exact inv_setTimer hs ha (by decide)
    · cases h
  | lock i =>
    rw [Step, step] at h
    split at h
    · next ha =>
      cases h
      exact inv_setTimer hs ha (by decide)
    · cases h
  | test i =>
    rw [Step, step] at h
    split at h
    · next ha =>
      cases h
      exact inv_setTimer hs ha (by decide)
    · cases h
  | write i =>
    rw [Step, step] at h
    split at h
    · next ha =>
      cases h
      exact fun _ _ => List.mem_set (List.getElem?_eq_some_iff.mp ha).1 _
    · cases h
  | cancelEvent i fails =>
    rw [Step, step] at h
    split at h
    · split at h
      · next r iom hcancel =>
        cases h
        intro hreg
        exact absurd hreg (not_registered_cancelEvent hok hcancel)
      · cases h
    · cases h
  | other op =>
    rw [Step, step] at h
    split at h
    · next hforeign =>
      split at h
      · next iom hiom =>
        cases h
        intro hreg hcancelled
        exact hs (registered_other hforeign hiom hreg) hcancelled
      · cases h
    · cases h

end Steps

/-- In every run in which the event is never registered after a callback has come and gone, a
fiber that sleeps with its event registered and its time over is about to be woken. -/
theorem run_timeout_kept (iom : IOManager) (t : List (Op × Hook))
    (run : Run (Step call) (init call iom) t) (hok : Meets (Timely call) (init call iom) t) :
    Always (Kept call) (init call iom) t :=
  (always_of_meets (I := Inv call) (fun _ _ _ hs hok h => step_inv hs hok h) run
    (fun _ hcancelled => absurd rfl hcancelled) hok).mono fun _ hs => hs.kept

/-- A `read` with a timeout by the fiber 7. -/
def readCall : Call := ⟨false, 5, Event.READ, ⟨some 0, 7, true⟩, true⟩

/-- A `connect` with a timeout by the fiber 7. -/
def connectCall : Call := ⟨true, 5, Event.WRITE, ⟨some 0, 7, true⟩, true⟩

/-- The time of a `read` is over while it sleeps; it returns -1. -/
theorem run_timeout_kept_read : ∃ t, Run (Step readCall) (init readCall (IOManager.init 3)) t ∧
    (last (init readCall (IOManager.init 3)) t).place = .returned (-1) (some ETIMEDOUT) ∧
    Always (Kept readCall) (init readCall (IOManager.init 3)) t := by
  have run := run_of_trace (f := step readCall) (s := init readCall (IOManager.init 3))
    [.attempt (-1) EAGAIN, .addConditionTimer, .addEvent false, .yieldToHold, .expire 0, .lock 0,
      .test 0, .write 0, .cancelEvent 0 false, .resume, .cancelTimer, .check] rfl
  refine ⟨_, run, rfl, run_timeout_kept readCall _ _ run ?_⟩
  exact ⟨trivial, trivial, .inl rfl, trivial, trivial, trivial, trivial, trivial, fun _ => rfl,
    trivial, trivial, trivial, trivial⟩

/-- The callback runs before the event is registered: the fiber sleeps on, and no callback of
the call is left. -/
theorem run_early_callback_breaks_kept :
    (∃ t, Run (Step readCall) (init readCall (IOManager.init 3)) t ∧
      Sleeping readCall (last (init readCall (IOManager.init 3)) t) ∧
      (last (init readCall (IOManager.init 3)) t).timers = [.finished]) ∧
    ∃ t, Run (Step connectCall) (init connectCall (IOManager.init 3)) t ∧
      Sleeping connectCall (last (init connectCall (IOManager.init 3)) t) ∧
      (last (init connectCall (IOManager.init 3)) t).timers = [.finished] := by
  constructor
  · refine ⟨_, run_of_trace (f := step readCall) (s := init readCall (IOManager.init 3))
      [.attempt (-1) EAGAIN, .addConditionTimer, .expire 0, .lock 0, .test 0, .write 0,
        .cancelEvent 0 false, .addEvent false, .yieldToHold] rfl, ⟨⟨some 0, rfl⟩, ?_, rfl⟩, rfl⟩
    exact .inl ⟨rfl, rfl, rfl⟩
  · refine ⟨_, run_of_trace (f := step connectCall) (s := init connectCall (IOManager.init 3))
      [.attempt (-1) EINPROGRESS, .addConditionTimer, .expire 0, .lock 0, .test 0, .write 0,
        .cancelEvent 0 false, .addEvent false, .yieldToHold] rfl, ⟨⟨some 0, rfl⟩, ?_, rfl⟩, rfl⟩
    exact .inr ⟨rfl, rfl, rfl⟩

end CxkFramework.Hook
