import CxkFramework.FiberSemaphore
import CxkFramework.Runs
import Mathlib.Tactic

/-!
# The loops of an asynchronous stream

`AsyncSocketStream::start`, by users and by timers and as often as they like, against the ends of
`doRead` and `doWrite`. `start` takes the two tokens of `m_waitSem`, hands one to each loop or
gives both back. Whether the stream is connected, whether a reconnect succeeds and what the
callbacks do is left open. A callback that throws takes the tokens of its `start` or the one
of its `doRead` with it, since nothing gives them back; the body of a loop catches everything.
-/

namespace CxkFramework

namespace StreamLoops

/-- Where a call of `start` is. -/
inductive Stage where
  | first
  | blockedFirst
  | second
  | blockedSecond
  /-- past `waitFiber` -/
  | connecting
  | calling
  /-- before `innerClose`; `m_disconnectCb` is called if the stream is connected -/
  | closing (connected : Bool)
  | returning
  | returningLast
  | startingRead
  | startingWrite
  /-- before `if(m_autoConnect)` -/
  | rearming
  | left
  deriving DecidableEq, Repr

/-- What `m_connectCb` does; no callback is one that accepts. -/
inductive Answer where
  | accepts
  | refuses
  | throws
  deriving DecidableEq, Repr

namespace Stage

/-- The tokens a call has. -/
def tokens : Stage → Nat
  | .first | .blockedFirst | .rearming | .left => 0
  | .second | .blockedSecond | .returningLast | .startingWrite => 1
  | .connecting | .calling | .closing _ | .returning | .startingRead => 2

/-- The loops that a call has started but for the writing one. -/
def owesWrite : Stage → Nat
  | .startingWrite => 1
  | _ => 0

/-- A token was handed to a waiter. -/
def granted : Stage → Stage
  | .blockedFirst => .second
  | .blockedSecond => .connecting
  | p => p

end Stage

end StreamLoops

open StreamLoops

structure StreamLoops where
  waitSem : FiberSemaphore Nat
  starts : List Stage
  /-- calls of `doRead`, scheduled or running, that have not given their token back -/
  reads : Nat
  /-- the same for `doWrite` -/
  writes : Nat
  /-- calls of `doRead` that have, and look at `m_autoConnect` next -/
  rearming : Nat
  autoConnect : Bool
  /-- `m_timer` -/
  timer : Option Nat
  /-- the timers that are armed -/
  timers : List Nat
  /-- the number of the next timer -/
  made : Nat
  deriving DecidableEq, Repr

namespace StreamLoops

open Runs

/-- After the constructor. -/
def init : StreamLoops where
  waitSem := ⟨2, []⟩
  starts := []
  reads := 0
  writes := 0
  rearming := 0
  autoConnect := false
  timer := none
  timers := []
  made := 0

def setStage (s : StreamLoops) (i : Nat) (p : Stage) : StreamLoops :=
  { s with starts := s.starts.set i p }

/-- `m_waitSem.wait()`: go on to `passed`, or to `blocked`. -/
def wait (s : StreamLoops) (i : Nat) (passed blocked : Stage) : StreamLoops :=
  { s with
    waitSem := (s.waitSem.wait i).2
    starts := s.starts.set i (if (s.waitSem.wait i).1 then passed else blocked) }

/-- `m_waitSem.notify()`. -/
def notify (s : StreamLoops) : StreamLoops :=
  { s with
    waitSem := s.waitSem.notify.2
    starts := match s.waitSem.notify.1 with
      | some w => s.starts.modify w Stage.granted
      | none => s.starts }

/-- `if(m_timer){ m_timer->cancel(); m_timer = nullptr; }` -/
def cancelTimer (s : StreamLoops) : StreamLoops :=
  { s with timer := none, timers := s.timers.filter fun t => s.timer ≠ some t }

/-- `addTimer` with `start` as its callback. -/
def addTimer (s : StreamLoops) : StreamLoops :=
  { s with timers := s.timers ++ [s.made], made := s.made + 1 }

def setTimer (s : StreamLoops) (t : Nat) : StreamLoops := { s with timer := some t }

inductive Op where
  /-- somebody calls `start` -/
  | start
  /-- a timer calls `start` -/
  | fire (t : Nat)
  | wait (i : Nat)
  /-- `isConnected()`, and `reconnect()` if it is not -/
  | connect (i : Nat) (connected reconnects : Bool)
  | connectCb (i : Nat) (answer : Answer)
  | innerClose (i : Nat) (throws : Bool)
  | notify (i : Nat)
  | startRead (i : Nat)
  | startWrite (i : Nat)
  | rearm (i : Nat)
  /-- a `doRead` comes to its end: `innerClose` and `notify` -/
  | readOut (throws : Bool)
  | readRearm
  | writeOut
  | setAutoConnect (v : Bool)
  deriving DecidableEq, Repr

/-- Why a step has no result. -/
inductive Halt where
  | disabled
  deriving DecidableEq, Repr

def step (s : StreamLoops) : Op → Except Halt StreamLoops
  | .start => .ok { s with starts := s.starts ++ [.first] }
  | .fire t =>
    if t ∈ s.timers then .ok { s with starts := s.starts ++ [.first], timers := s.timers.erase t }
    else .error .disabled
  | .wait i =>
    match s.starts[i]? with
    | some .first => .ok (s.wait i .second .blockedFirst)
    | some .second => .ok (s.wait i .connecting .blockedSecond)
    | _ => .error .disabled
  | .connect i connected reconnects =>
    match s.starts[i]? with
    | some .connecting =>
      .ok (s.cancelTimer.setStage i (if connected || reconnects then .calling else .closing false))
    | _ => .error .disabled
  | .connectCb i answer =>
    match s.starts[i]? with
    | some .calling =>
      .ok (s.setStage i (match answer with
        | .accepts => .startingRead
        | .refuses => .closing true
        | .throws => .left))
    | _ => .error .disabled
  | .innerClose i throws =>
    match s.starts[i]? with
    | some (.closing connected) =>
      if throws then
        if connected then .ok (s.setStage i .left) else .error .disabled
      else .ok (s.setStage i .returning)
    | _ => .error .disabled
  | .notify i =>
    match s.starts[i]? with
    | some .returning => .ok (s.setStage i .returningLast).notify
    | some .returningLast => .ok (s.setStage i .rearming).notify
    | _ => .error .disabled
  | .startRead i =>
    match s.starts[i]? with
    | some .startingRead => .ok { s with starts := s.starts.set i .startingWrite, reads := s.reads + 1 }
    | _ => .error .disabled
  | .startWrite i =>
    match s.starts[i]? with
    | some .startingWrite => .ok { s with starts := s.starts.set i .left, writes := s.writes + 1 }
    | _ => .error .disabled
  | .rearm i =>
    match s.starts[i]? with
    | some .rearming =>
      if s.autoConnect then .ok (((s.setStage i .left).cancelTimer.addTimer).setTimer s.made)
      else .ok (s.setStage i .left)
    | _ => .error .disabled
  | .readOut throws =>
    if s.reads = 0 then .error .disabled
    else if throws then .ok { s with reads := s.reads - 1 }
    else .ok { s with reads := s.reads - 1, rearming := s.rearming + 1 }.notify
  | .readRearm =>
    if s.rearming = 0 then .error .disabled
    else if s.autoConnect then .ok { s with rearming := s.rearming - 1 }.addTimer
    else .ok { s with rearming := s.rearming - 1 }
  | .writeOut =>
    if s.writes = 0 then .error .disabled
    else .ok { s with writes := s.writes - 1 }.notify
  | .setAutoConnect v => .ok { s with autoConnect := v }

def Step (s : StreamLoops) (op : Op) (s' : StreamLoops) : Prop := s.step op = .ok s'

/-! ## Tokens -/

/-- The tokens that the calls of `start` have. -/
def held (s : StreamLoops) : Nat := (s.starts.map Stage.tokens).sum

/-- The writing loops that are about to be started. -/
def owed (s : StreamLoops) : Nat := (s.starts.map Stage.owesWrite).sum

/-- All tokens: in the semaphore, with calls of `start` and with loops. -/
def total (s : StreamLoops) : Nat := s.waitSem.concurrency + s.held + s.reads + s.writes

structure OnePair (s : StreamLoops) : Prop where
  total_eq : s.total = 2
  reads_le : s.reads ≤ 1
  writes_le : s.writes ≤ 1

/-- No callback throws. -/
def Calm (_ : StreamLoops) : Op → Prop
  | .connectCb _ answer => answer ≠ .throws
  | .innerClose _ throws => throws = false
  | .readOut throws => throws = false
  | _ => True

/-- Whoever waits is blocked, and waits once. -/
structure Queued (s : StreamLoops) : Prop where
  blocked : ∀ w ∈ s.waitSem.waiters,
    s.starts[w]? = some .blockedFirst ∨ s.starts[w]? = some .blockedSecond
  nodup : s.waitSem.waiters.Nodup

structure Base (s : StreamLoops) : Prop extends Queued s where
  /-- a writing loop is started when there is none -/
  owed_le : s.owed + s.writes ≤ 1

/-- Tokens may have changed hands, but no loop was started. -/
structure Same (s s' : StreamLoops) : Prop extends Queued s' where
  total_eq : s'.total = s.total
  owed_eq : s'.owed = s.owed
  reads_le : s'.reads ≤ s.reads
  writes_le : s'.writes ≤ s.writes

section Steps

variable {s s' : StreamLoops} {i : Nat} {p q : Stage}

theorem Same.base (h : Same s s') (hs : Base s) : Base s' where
  toQueued := h.toQueued
  owed_le := by
    have := hs.owed_le
    have := h.owed_eq
    have := h.writes_le
    omega

theorem Same.onePair (h : Same s s') (hs : OnePair s) : OnePair s' where
  total_eq := h.total_eq.trans hs.total_eq
  reads_le := h.reads_le.trans hs.reads_le
  writes_le := h.writes_le.trans hs.writes_le

theorem held_setStage (hp : s.starts[i]? = some p) (q : Stage) :
    (s.setStage i q).held + p.tokens = s.held + q.tokens :=
  sum_map_set _ _ _ _ _ hp

theorem owed_setStage (hp : s.starts[i]? = some p) (q : Stage) :
    (s.setStage i q).owed + p.owesWrite = s.owed + q.owesWrite :=
  sum_map_set _ _ _ _ _ hp

/-- The stage is not one of those in which a call waits. -/
def Stage.runs : Stage → Bool
  | .blockedFirst | .blockedSecond => false
  | _ => true

/-- A call that runs is not in the queue. -/
theorem Queued.not_mem (hs : Queued s) (hp : s.starts[i]? = some p) (hruns : p.runs) :
    i ∉ s.waitSem.waiters := by
  intro hi
  rcases hs.blocked i hi with h | h
  all_goals
    rw [hp] at h
    cases h
    cases hruns

theorem Queued.setStage (hs : Queued s) (hp : s.starts[i]? = some p) (hruns : p.runs) (q : Stage) :
    Queued (s.setStage i q) where
  blocked w hw := by
    have hne : i ≠ w := fun h => hs.not_mem hp hruns (h ▸ hw)
    rw [StreamLoops.setStage, List.getElem?_set_ne hne]
    exact hs.blocked w hw
  nodup := hs.nodup

theorem Queued.append (hs : Queued s) (p : Stage) :
    Queued { s with starts := s.starts ++ [p] } where
  blocked w hw := by
    have hget : ∀ p', s.starts[w]? = some p' → (s.starts ++ [p])[w]? = some p' := by
      intro p' hw
      rw [List.getElem?_append_left (List.getElem?_eq_some_iff.mp hw).1, hw]
    rcases hs.blocked w hw with h | h
    · exact .inl (hget _ h)
    · exact .inr (hget _ h)
  nodup := hs.nodup

theorem modify_eq_set_of_getElem? {l : List Stage} (hp : l[i]? = some p) (f : Stage → Stage) :
    l.modify i f = l.set i (f p) := by
  refine List.ext_getElem? fun j => ?_
  rw [List.getElem?_modify, List.getElem?_set]
  by_cases hj : i = j
  · subst hj
    rw [hp, if_pos rfl, if_pos (List.getElem?_eq_some_iff.mp hp).1]
    simp
  · rw [if_neg hj]
    simp [hj]

/-- A token more, with a waiter or in the semaphore. -/
structure Notified (s s' : StreamLoops) : Prop extends Queued s' where
  total_eq : s'.total = s.total + 1
  owed_eq : s'.owed = s.owed
  reads_eq : s'.reads = s.reads
  writes_eq : s'.writes = s.writes

theorem notified_nil (hs : Queued s) (hnil : s.waitSem.waiters = []) : Notified s s.notify := by
  rw [notify, FiberSemaphore.notify_nil hnil]
  refine ⟨⟨hs.blocked, hs.nodup⟩, ?_, rfl, rfl, rfl⟩
  simp only [total, held]
  omega

theorem notified_cons {w : Nat} {rest : List Nat} (hs : Queued s)
    (hcons : s.waitSem.waiters = w :: rest) : Notified s s.notify := by
  have hmem : w ∈ s.waitSem.waiters := hcons ▸ List.mem_cons_self
  have hnodup := hs.nodup
  rw [hcons, List.nodup_cons] at hnodup
  obtain ⟨p, hp, htokens, howes⟩ : ∃ p, s.starts[w]? = some p ∧
      p.granted.tokens = p.tokens + 1 ∧ p.granted.owesWrite = p.owesWrite := by
    rcases hs.blocked w hmem with h | h
    · exact ⟨_, h, rfl, rfl⟩
    · exact ⟨_, h, rfl, rfl⟩
  have hheld := held_setStage hp p.granted
  have howed := owed_setStage hp p.granted
  rw [setStage, held] at hheld
  rw [setStage, owed] at howed
  rw [notify, FiberSemaphore.notify_cons hcons]
  dsimp only
  rw [modify_eq_set_of_getElem? hp]
  refine ⟨⟨fun v hv => ?_, hnodup.2⟩, ?_, ?_, rfl, rfl⟩
  · have hne : w ≠ v := fun h => hnodup.1 (h ▸ hv)
    rw [List.getElem?_set_ne hne]
    exact hs.blocked v (hcons ▸ List.mem_cons_of_mem _ hv)
  · simp only [total, held] at hheld ⊢
    omega
  · simp only [owed] at howed ⊢
    omega

theorem notified (hs : Queued s) : Notified s s.notify := by
  cases hw : s.waitSem.waiters with
  | nil => exact notified_nil hs hw
  | cons w rest => exact notified_cons hs hw

/-- A stage is passed with all tokens. -/
theorem same_setStage (hs : Queued s) (hp : s.starts[i]? = some p) (hruns : p.runs)
    (htokens : q.tokens = p.tokens) (howes : q.owesWrite = p.owesWrite) :
    Same s (s.setStage i q) where
  toQueued := hs.setStage hp hruns q
  total_eq := by
    have hheld := held_setStage hp q
    change s.waitSem.concurrency + (s.setStage i q).held + s.reads + s.writes = s.total
    rw [total]
    omega
  owed_eq := by
    have howed := owed_setStage hp q
    omega
  reads_le := le_rfl
  writes_le := le_rfl

theorem same_append (hs : Queued s) : Same s { s with starts := s.starts ++ [.first] } where
  toQueued := hs.append .first
  total_eq := by simp [total, held, Stage.tokens]
  owed_eq := by simp [owed, Stage.owesWrite]
  reads_le := le_rfl
  writes_le := le_rfl

/-- A call asks for a token. -/
theorem same_wait {passed blocked : Stage} (hs : Queued s) (hp : s.starts[i]? = some p)
    (hruns : p.runs) (hpassed : passed.tokens = p.tokens + 1) (hblocked : blocked.tokens = p.tokens)
    (howes : passed.owesWrite = p.owesWrite ∧ blocked.owesWrite = p.owesWrite)
    (hwaits : blocked = .blockedFirst ∨ blocked = .blockedSecond) :
    Same s (s.wait i passed blocked) := by
  have hlt : i < s.starts.length := (List.getElem?_eq_some_iff.mp hp).1
  rcases Nat.eq_zero_or_pos s.waitSem.concurrency with hzero | hpos
  · rw [wait, FiberSemaphore.wait_of_zero hzero]
    have hsame := same_setStage hs hp hruns hblocked howes.2
    refine ⟨⟨fun w hw => ?_, ?_⟩, hsame.total_eq, hsame.owed_eq, le_rfl, le_rfl⟩
    · rcases List.mem_append.mp hw with hw | hw
      · exact hsame.blocked w hw
      · rw [List.mem_singleton.mp hw]
        dsimp only
        rw [List.getElem?_set_self hlt]
        rcases hwaits with rfl | rfl
        · exact .inl rfl
        · exact .inr rfl
    · refine List.nodup_append.mpr ⟨hs.nodup, List.nodup_singleton i, fun a ha b hb => ?_⟩
      rw [List.mem_singleton.mp hb]
      exact fun heq => hs.not_mem hp hruns (heq ▸ ha)
  · rw [wait, FiberSemaphore.wait_of_pos hpos]
    have hqueued := hs.setStage hp hruns passed
    have hheld := held_setStage hp passed
    have howed := owed_setStage hp passed
    rw [setStage, held] at hheld
    rw [setStage, owed] at howed
    refine ⟨⟨hqueued.blocked, hqueued.nodup⟩, ?_, ?_, le_rfl, le_rfl⟩
    · simp only [total, held, if_true] at hheld ⊢
      omega
    · simp only [owed, if_true] at howed ⊢
      omega

theorem owed_le_held (s : StreamLoops) : s.owed ≤ s.held := by
  refine List.sum_le_sum fun p _ => ?_
  cases p <;> simp [Stage.owesWrite, Stage.tokens]

/-- A call that has both tokens is alone. -/
theorem alone (hs : OnePair s) (hp : s.starts[i]? = some p) (htokens : p.tokens = 2)
    (howes : p.owesWrite = 0) : s.held = 2 ∧ s.owed = 0 ∧ s.reads = 0 ∧ s.writes = 0 := by
  have hheld := held_setStage hp .left
  have howed := owed_setStage hp .left
  have hle := owed_le_held (s.setStage i .left)
  have htotal := hs.total_eq
  rw [htokens] at hheld
  rw [howes] at howed
  simp only [total, Stage.tokens, Stage.owesWrite] at hheld howed htotal
  refine ⟨?_, ?_, ?_, ?_⟩ <;> omega

/-- What a step has to do with tokens. -/
def Outcome (s : StreamLoops) (op : Op) (s' : StreamLoops) : Prop :=
  Base s' ∧ (OnePair s' ↔ Calm s op)

theorem Same.outcome {op : Op} (h : Same s s') (hb : Base s) (hs : OnePair s) (hcalm : Calm s op) :
    Outcome s op s' :=
  ⟨h.base hb, iff_of_true (h.onePair hs) hcalm⟩

/-- Tokens are gone. -/
theorem outcome_lost {op : Op} (hb : Base s') (htotal : s'.total < 2) (hcalm : ¬Calm s op) :
    Outcome s op s' :=
  ⟨hb, iff_of_false (fun h => absurd h.total_eq (by omega)) hcalm⟩

/-- A call of `start` that ends with both of its tokens. -/
theorem outcome_throw {op : Op} (hb : Base s) (hs : OnePair s) (hp : s.starts[i]? = some p)
    (hruns : p.runs) (htokens : p.tokens = 2) (howes : p.owesWrite = 0) (hcalm : ¬Calm s op) :
    Outcome s op (s.setStage i .left) := by
  have hheld := held_setStage hp .left
  have howed := owed_setStage hp .left
  have htotal := hs.total_eq
  have hle := hb.owed_le
  rw [htokens] at hheld
  rw [howes] at howed
  simp only [total, Stage.tokens, Stage.owesWrite] at hheld howed htotal
  refine outcome_lost ⟨hb.toQueued.setStage hp hruns .left, ?_⟩ ?_ hcalm
  · change (s.setStage i .left).owed + s.writes ≤ 1
    omega
  · change s.waitSem.concurrency + (s.setStage i .left).held + s.reads + s.writes < 2
    omega

theorem step_wait (hb : Base s) (hs : OnePair s) (h : Step s (.wait i) s') :
    Outcome s (.wait i) s' := by
  rw [Step, step] at h
  split at h
  · next hp =>
    cases h
    have hsame : Same s (s.wait i .second .blockedFirst) :=
      same_wait hb.toQueued hp rfl rfl rfl ⟨rfl, rfl⟩ (.inl rfl)
    exact hsame.outcome hb hs trivial
  · next hp =>
    cases h
    have hsame : Same s (s.wait i .connecting .blockedSecond) :=
      same_wait hb.toQueued hp rfl rfl rfl ⟨rfl, rfl⟩ (.inr rfl)
    exact hsame.outcome hb hs trivial
  · cases h

theorem step_connect {connected reconnects : Bool} (hb : Base s) (hs : OnePair s)
    (h : Step s (.connect i connected reconnects) s') :
    Outcome s (.connect i connected reconnects) s' := by
  rw [Step, step] at h
  split at h
  · next hp =>
    cases h
    have hqueued : Queued s.cancelTimer := ⟨hb.blocked, hb.nodup⟩
    have hsame : Same s.cancelTimer (s.cancelTimer.setStage i
        (if connected || reconnects then .calling else .closing false)) := by
      refine same_setStage hqueued hp rfl ?_ ?_ <;> split <;> rfl
    exact Same.outcome ⟨hsame.toQueued, hsame.total_eq, hsame.owed_eq, hsame.reads_le,
      hsame.writes_le⟩ hb hs trivial
  · cases h

theorem step_connectCb {answer : Answer} (hb : Base s) (hs : OnePair s)
    (h : Step s (.connectCb i answer) s') : Outcome s (.connectCb i answer) s' := by
  rw [Step, step.eq_def] at h
  dsimp only at h
  split at h
  · next hp =>
    cases h
    cases answer with
    | accepts =>
      refine Same.outcome ?_ hb hs nofun
      exact same_setStage hb.toQueued hp rfl rfl rfl
    | refuses =>
      refine Same.outcome ?_ hb hs nofun
      exact same_setStage hb.toQueued hp rfl rfl rfl
    | throws => exact outcome_throw hb hs hp rfl rfl rfl (fun h => h rfl)
  · cases h

theorem step_innerClose {throws : Bool} (hb : Base s) (hs : OnePair s)
    (h : Step s (.innerClose i throws) s') : Outcome s (.innerClose i throws) s' := by
  rw [Step, step] at h
  split at h
  · next connected hp =>
    cases throws with
    | true =>
      rw [if_pos rfl] at h
      split at h
      · cases h
        exact outcome_throw hb hs hp rfl rfl rfl nofun
      · cases h
    | false =>
      cases h
      refine Same.outcome ?_ hb hs rfl
      exact same_setStage hb.toQueued hp rfl rfl rfl
  · cases h

/-- A token that a call gives back. -/
theorem same_notify (hs : Queued s) (hp : s.starts[i]? = some p) (hruns : p.runs)
    (htokens : q.tokens + 1 = p.tokens) (howes : q.owesWrite = p.owesWrite) :
    Same s (s.setStage i q).notify := by
  have hnotified := notified (hs.setStage hp hruns q)
  have hheld := held_setStage hp q
  have howed := owed_setStage hp q
  refine ⟨hnotified.toQueued, ?_, ?_, hnotified.reads_eq.le, hnotified.writes_eq.le⟩
  · rw [hnotified.total_eq]
    change s.waitSem.concurrency + (s.setStage i q).held + s.reads + s.writes + 1 = s.total
    rw [total]
    omega
  · rw [hnotified.owed_eq]
    omega

theorem step_notify (hb : Base s) (hs : OnePair s) (h : Step s (.notify i) s') :
    Outcome s (.notify i) s' := by
  rw [Step, step] at h
  split at h
  · next hp =>
    cases h
    refine Same.outcome ?_ hb hs trivial
    exact same_notify hb.toQueued hp rfl rfl rfl
  · next hp =>
    cases h
    refine Same.outcome ?_ hb hs trivial
    exact same_notify hb.toQueued hp rfl rfl rfl
  · cases h

theorem step_startRead (hb : Base s) (hs : OnePair s) (h : Step s (.startRead i) s') :
    Outcome s (.startRead i) s' := by
  rw [Step, step] at h
  split at h
  · next hp =>
    cases h
    obtain ⟨hheld₂, howed₀, hreads, hwrites⟩ := alone hs hp rfl rfl
    have hqueued := hb.toQueued.setStage hp rfl .startingWrite
    have hheld := held_setStage hp .startingWrite
    have howed := owed_setStage hp .startingWrite
    have htotal := hs.total_eq
    simp only [total, Stage.tokens, Stage.owesWrite] at hheld howed htotal
    refine ⟨⟨⟨hqueued.blocked, hqueued.nodup⟩, ?_⟩, iff_of_true ⟨?_, ?_, ?_⟩ trivial⟩
    · change (s.setStage i .startingWrite).owed + s.writes ≤ 1
      omega
    · change s.waitSem.concurrency + (s.setStage i .startingWrite).held + (s.reads + 1) + s.writes = 2
      omega
    · change s.reads + 1 ≤ 1
      omega
    · change s.writes ≤ 1
      omega
  · cases h

theorem step_startWrite (hb : Base s) (hs : OnePair s) (h : Step s (.startWrite i) s') :
    Outcome s (.startWrite i) s' := by
  rw [Step, step] at h
  split at h
  · next hp =>
    cases h
    have hqueued := hb.toQueued.setStage hp rfl .left
    have hheld := held_setStage hp .left
    have howed := owed_setStage hp .left
    have htotal := hs.total_eq
    have hle := hb.owed_le
    have hreads := hs.reads_le
    simp only [total, Stage.tokens, Stage.owesWrite] at hheld howed htotal
    refine ⟨⟨⟨hqueued.blocked, hqueued.nodup⟩, ?_⟩, iff_of_true ⟨?_, hreads, ?_⟩ trivial⟩
    · change (s.setStage i .left).owed + (s.writes + 1) ≤ 1
      omega
    · change s.waitSem.concurrency + (s.setStage i .left).held + s.reads + (s.writes + 1) = 2
      omega
    · change s.writes + 1 ≤ 1
      omega
  · cases h

theorem step_rearm (hb : Base s) (hs : OnePair s) (h : Step s (.rearm i) s') :
    Outcome s (.rearm i) s' := by
  rw [Step, step] at h
  split at h
  · next hp =>
    have hsame : Same s (s.setStage i .left) := same_setStage hb.toQueued hp rfl rfl rfl
    split at h
    · cases h
      exact Same.outcome ⟨⟨hsame.blocked, hsame.nodup⟩, hsame.total_eq, hsame.owed_eq, hsame.reads_le,
        hsame.writes_le⟩ hb hs trivial
    · cases h
      exact hsame.outcome hb hs trivial
  · cases h

theorem step_readOut {throws : Bool} (hb : Base s) (hs : OnePair s) (h : Step s (.readOut throws) s') :
    Outcome s (.readOut throws) s' := by
  have htotal := hs.total_eq
  rw [total] at htotal
  rw [Step, step] at h
  split at h
  · cases h
  · next hreads =>
    cases throws with
    | true =>
      cases h
      refine outcome_lost ⟨⟨hb.blocked, hb.nodup⟩, hb.owed_le⟩ ?_ nofun
      change s.waitSem.concurrency + s.held + (s.reads - 1) + s.writes < 2
      omega
    | false =>
      cases h
      have hnotified := notified (s := { s with reads := s.reads - 1, rearming := s.rearming + 1 })
        ⟨hb.blocked, hb.nodup⟩
      refine Same.outcome ⟨hnotified.toQueued, ?_, hnotified.owed_eq, ?_, hnotified.writes_eq.le⟩
        hb hs rfl
      · rw [hnotified.total_eq]
        change s.waitSem.concurrency + s.held + (s.reads - 1) + s.writes + 1 = s.total
        rw [total]
        omega
      · rw [hnotified.reads_eq]
        exact Nat.sub_le _ _

theorem step_readRearm (hb : Base s) (hs : OnePair s) (h : Step s .readRearm s') :
    Outcome s .readRearm s' := by
  rw [Step, step] at h
  split at h
  · cases h
  · split at h
    · cases h
      exact Same.outcome ⟨⟨hb.blocked, hb.nodup⟩, rfl, rfl, le_rfl, le_rfl⟩ hb hs trivial
    · cases h
      exact Same.outcome ⟨⟨hb.blocked, hb.nodup⟩, rfl, rfl, le_rfl, le_rfl⟩ hb hs trivial

theorem step_writeOut (hb : Base s) (hs : OnePair s) (h : Step s .writeOut s') :
    Outcome s .writeOut s' := by
  rw [Step, step] at h
  split at h
  · cases h
  · next hwrites =>
    cases h
    have hnotified := notified (s := { s with writes := s.writes - 1 }) ⟨hb.blocked, hb.nodup⟩
    refine Same.outcome ⟨hnotified.toQueued, ?_, hnotified.owed_eq, hnotified.reads_eq.le, ?_⟩
      hb hs trivial
    · rw [hnotified.total_eq]
      change s.waitSem.concurrency + s.held + s.reads + (s.writes - 1) + 1 = s.total
      rw [total]
      omega
    · rw [hnotified.writes_eq]
      exact Nat.sub_le _ _

theorem step_outcome {op : Op} (hb : Base s) (hs : OnePair s) (h : Step s op s') :
    Outcome s op s' := by
  cases op with
  | start =>
    cases h
    exact (same_append hb.toQueued).outcome hb hs trivial
  | fire t =>
    rw [Step, step] at h
    split at h
    · cases h
      have hsame := same_append hb.toQueued
      exact Same.outcome ⟨⟨hsame.blocked, hsame.nodup⟩, hsame.total_eq, hsame.owed_eq,
        hsame.reads_le, hsame.writes_le⟩ hb hs trivial
    · cases h
  | wait i => exact step_wait hb hs h
  | connect i connected reconnects => exact step_connect hb hs h
  | connectCb i answer => exact step_connectCb hb hs h
  | innerClose i throws => exact step_innerClose hb hs h
  | notify i => exact step_notify hb hs h
  | startRead i => exact step_startRead hb hs h
  | startWrite i => exact step_startWrite hb hs h
  | rearm i => exact step_rearm hb hs h
  | readOut throws => exact step_readOut hb hs h
  | readRearm => exact step_readRearm hb hs h
  | writeOut => exact step_writeOut hb hs h
  | setAutoConnect v =>
    cases h
    exact Same.outcome ⟨⟨hb.blocked, hb.nodup⟩, rfl, rfl, le_rfl, le_rfl⟩ hb hs trivial

end Steps

/-- There are two tokens and one loop of a kind at most throughout a run exactly when no
callback throws. -/
theorem run_onePair_iff (t : List (Op × StreamLoops)) (run : Run Step init t) :
    Always OnePair init t ↔ Meets Calm init t :=
  always_iff_meets Base OnePair Calm (fun _ _ _ hb hs h => (step_outcome hb hs h).1)
    (fun _ _ _ hb hs h => (step_outcome hb hs h).2) run
    ⟨⟨nofun, List.nodup_nil⟩, by decide⟩ ⟨rfl, by decide, by decide⟩

/-- The first connection is refused; the timer starts the loops, and the reader ends. -/
theorem run_onePair_reconnect : ∃ t, Run Step init t ∧ (last init t).reads = 0 ∧
    (last init t).writes = 1 ∧ Always OnePair init t := by
  have run := run_of_trace (f := step) (s := init)
    [.setAutoConnect true, .start, .wait 0, .wait 0, .connect 0 false true, .connectCb 0 .refuses,
      .innerClose 0 false, .notify 0, .notify 0, .rearm 0, .fire 0, .wait 1, .wait 1,
      .connect 1 false true, .connectCb 1 .accepts, .startRead 1, .startWrite 1, .readOut false] rfl
  refine ⟨_, run, rfl, rfl, (run_onePair_iff _ run).mpr ?_⟩
  exact ⟨trivial, trivial, trivial, trivial, trivial, nofun, rfl, trivial, trivial, trivial, trivial,
    trivial, trivial, trivial, nofun, trivial, trivial, rfl, trivial⟩

/-- The tokens are lost with a callback that throws. -/
theorem run_throw_breaks_onePair : ∃ t, Run Step init t ∧ ¬Always OnePair init t := by
  have run := run_of_trace (f := step) (s := init)
    [.start, .wait 0, .wait 0, .connect 0 true false, .connectCb 0 .throws] rfl
  refine ⟨_, run, fun h => ?_⟩
  have htotal := h.last.total_eq
  revert htotal
  decide

end StreamLoops

end CxkFramework
