import CxkFramework.RockStream
import Mathlib.Tactic

/-!
# Requests and responses

A request gets the response that was taken for it, unless its timer is due between the moment
the response is taken and the moment its fiber is scheduled: `onTimeOut` and `doRecv` then
both write to the context. Nor can a caller tell a response with the result `-1`, `-2` or
`-3` from an error. Without such steps every run matches requests and responses. A response
nobody waits for ends the process.

The invariant is one of a single request: of its context, its thread, whether it is in the
table or in the list of a thread that closes the stream, and of what each thread does with
it. A step of the stream changes this view of one request and leaves the others alone.
-/

namespace CxkFramework.RockStream

open Runs

/-! ## The view of a request -/

/-- What a thread does with a request. -/
def Job.stageOn (r : Nat) : Job → Option Stage
  | .on r' stage _ => if r' = r then some stage else none
  | _ => none

def stageOf (s : RockStream) (r j : Nat) : Option Stage := (s.job j).stageOn r

/-- The contexts a thread has still to go through. -/
def Job.rest : Job → List Nat
  | .loop rest => rest
  | .on _ _ rest => rest
  | .closing => []

def InTable (s : RockStream) (r : Nat) : Prop := ∃ sn, (sn, r) ∈ s.ctxs

def Listed (s : RockStream) (r : Nat) : Prop := ∃ j, r ∈ (s.job j).rest

/-- The result is one a caller takes for an error. -/
def ErrorCode (v : Int32) : Prop := v = TIMEOUT ∨ v = IO_ERROR ∨ v = NOT_CONNECT
  deriving Decidable

/-- The thread got the scheduler of the context. -/
def Stage.won : Stage → Prop
  | .cancelTimer | .applyTimed | .schedule => True
  | _ => False

/-- What may be done with a request for which no response was taken. -/
def Stage.unanswered : Stage → Prop
  | .setResult _ (some _) | .setResponse _ => False
  | _ => True

/-- What may be done with a request whose response was handed over. -/
def Stage.late : Stage → Prop
  | .erase | .setTimed | .doRsp | .swap _ => True
  | _ => False

/-- How far the thread has come that hands over the response. -/
def Stage.carries (c : RockCtx) (rsp : RockResponse) : Stage → Prop
  | .setResult v o => v = rsp.result ∧ o = some rsp ∧ c.scheduler = true
  | .setResponse rsp' => rsp' = rsp ∧ c.result = rsp.result ∧ c.scheduler = true
  | .doRsp => c.result = rsp.result ∧ c.response = some rsp ∧ c.scheduler = true
  | .swap scd => c.result = rsp.result ∧ c.response = some rsp ∧ c.scheduler = true ∧ scd = true
  | .cancelTimer | .applyTimed | .schedule => c.result = rsp.result ∧ c.response = some rsp
  | .erase | .setTimed => False

/-- The response was taken and has not been handed over: one thread carries it, and no other
has begun with the request. -/
structure Carried (c : RockCtx) (listed : Prop) (f : Nat → Option Stage) (rsp : RockResponse) :
    Prop where
  timed_eq : c.timed = false
  not_listed : ¬listed
  carrier : ∃ j st, f j = some st ∧ st.carries c rsp ∧
    ∀ j' st', f j' = some st' → j' = j ∨ st' = .erase

/-- The response was handed over. -/
structure Delivered (c : RockCtx) (listed : Prop) (f : Nat → Option Stage) (rsp : RockResponse) :
    Prop where
  result_eq : c.result = rsp.result
  response_eq : c.response = some rsp
  not_listed : ¬listed
  late : ∀ j st, f j = some st → st.late

/-- The context as `request` makes it, with no thread at work on it. -/
structure Untouched (c : RockCtx) (listed : Prop) (f : Nat → Option Stage) : Prop where
  taken_eq : c.taken = none
  scheduled_eq : c.scheduled = 0
  scheduler_eq : c.scheduler = true
  timed_eq : c.timed = false
  not_listed : ¬listed
  erase : ∀ j st, f j = some st → st = .erase

/-- At most one thread gets the scheduler, and it schedules the fiber once. -/
structure WinInv (c : RockCtx) (f : Nat → Option Stage) : Prop where
  fiber_eq : c.fiber = true ↔ c.scheduled = 0
  scheduled_le : c.scheduled ≤ 1
  free : c.scheduler = true → c.scheduled = 0 ∧ ∀ j st, f j = some st → ¬st.won
  won_unique : ∀ j j' st st', f j = some st → st.won → f j' = some st' → st'.won → j = j'
  won_scheduled : ∀ j st, f j = some st → st.won → c.scheduled = 0

/-- How far the answer to a request has come. -/
inductive Answer (c : RockCtx) (listed : Prop) (f : Nat → Option Stage) : Prop where
  | unanswered (taken_eq : c.taken = none) (response_eq : c.response = none)
      (stages : ∀ j st, f j = some st → st.unanswered)
  | carried (rsp : RockResponse) (taken_eq : c.taken = some rsp) (scheduled_eq : c.scheduled = 0)
      (carried : Carried c listed f rsp)
  | delivered (rsp : RockResponse) (taken_eq : c.taken = some rsp) (scheduled_pos : 0 < c.scheduled)
      (delivered : Delivered c listed f rsp)

/-- The invariant of one request. -/
structure ReqInv (c : RockCtx) (p : Phase) (inTable listed : Prop) (f : Nat → Option Stage) :
    Prop where
  win : WinInv c f
  answer : Answer c listed f
  table : inTable → Untouched c listed f
  begun : p = .addCtx → Untouched c listed f ∧ ¬inTable ∧ (∀ j, f j = none) ∧ c.pending = false
  taken : ∀ rsp, c.taken = some rsp → rsp.sn = c.sn ∧ ¬ErrorCode rsp.result.toInt32
  returned : ∀ res rsp, p = .returned res rsp → ¬inTable ∧ rsp = c.taken ∧
    ∀ m, c.taken = some m → res = m.result.toInt32

/-- The view of a request in a state. -/
def Known (s : RockStream) (r : Nat) : Prop :=
  ReqInv (s.ctx r) (s.phase r) (InTable s r) (Listed s r) (stageOf s r)

structure Inv (s : RockStream) : Prop where
  known : ∀ r < s.requests, Known s r
  /-- nothing refers to a request that was not made yet -/
  fresh : ∀ r, s.requests ≤ r → ¬InTable s r ∧ ¬Listed s r ∧ (∀ j, stageOf s r j = none) ∧
    s.phase r = .none ∧ (s.ctx r).pending = false
  table_sn : ∀ e ∈ s.ctxs, (s.ctx e.2).sn = e.1

/-- What callers see of a request. -/
structure Matched (s : RockStream) (r : Nat) : Prop where
  scheduled_le : (s.ctx r).scheduled ≤ 1
  response_iff : ∀ res rsp, s.phase r = .returned res rsp →
    (rsp.isSome ↔ (s.ctx r).taken.isSome)
  result_eq : ∀ res m, s.phase r = .returned res (some m) →
    (s.ctx r).taken = some m ∧ m.sn = (s.ctx r).sn ∧ res = m.result.toInt32
  error_null : ∀ res rsp, s.phase r = .returned res rsp → ErrorCode res → rsp = none

/-- Every request is matched. -/
def AllMatched (s : RockStream) : Prop := ∀ r < s.requests, Matched s r

/-- The steps that keep requests and responses matched: a timer is not due while a response
is on its way to the fiber, and a response does not carry an error code. -/
def Sound (s : RockStream) : Op → Prop
  | .work j => ∀ r rest, s.job j = .on r .erase rest →
      (s.ctx r).taken = none ∨ 0 < (s.ctx r).scheduled
  | .doRecv _ (some (.response rsp)) => ¬ErrorCode rsp.result.toInt32
  | _ => True

/-! ## One line of work -/

section Work

variable {c c' : RockCtx} {p : Phase} {inTable listed : Prop} {f : Nat → Option Stage} {j : Nat}
  {st : Stage}

theorem update_eq_some {next : Option Stage} {j' : Nat} {st' : Stage}
    (h : Function.update f j next j' = some st') :
    (j' = j ∧ next = some st') ∨ (j' ≠ j ∧ f j' = some st') := by
  by_cases heq : j' = j
  · subst heq
    rw [Function.update_self] at h
    exact .inl ⟨rfl, h⟩
  · rw [Function.update_of_ne heq] at h
    exact .inr ⟨heq, h⟩

/-- A line that is not the exchange or the schedule. -/
theorem WinInv.restage (h : WinInv c f) (next : Option Stage) (hfiber : c'.fiber = c.fiber)
    (hsched : c'.scheduled = c.scheduled) (hscd : c'.scheduler = c.scheduler)
    (hwon : ∀ st', next = some st' → st'.won → ∃ st, f j = some st ∧ st.won) :
    WinInv c' (Function.update f j next) := by
  have hold : ∀ j' st', Function.update f j next j' = some st' → st'.won →
      ∃ st, f j' = some st ∧ st.won := by
    intro j' st' hst' hw
    rcases update_eq_some hst' with ⟨rfl, hnext⟩ | ⟨-, hf⟩
    · exact hwon st' hnext hw
    · exact ⟨st', hf, hw⟩
  refine ⟨by rw [hfiber, hsched]; exact h.fiber_eq, by rw [hsched]; exact h.scheduled_le, ?_, ?_, ?_⟩
  · intro htrue
    rw [hscd] at htrue
    obtain ⟨hzero, hnone⟩ := h.free htrue
    refine ⟨hsched.trans hzero, fun j' st' hst' hw => ?_⟩
    obtain ⟨st, hst, hw'⟩ := hold j' st' hst' hw
    exact hnone j' st hst hw'
  · intro j₁ j₂ st₁ st₂ h₁ hw₁ h₂ hw₂
    obtain ⟨st₁', h₁', hw₁'⟩ := hold j₁ st₁ h₁ hw₁
    obtain ⟨st₂', h₂', hw₂'⟩ := hold j₂ st₂ h₂ hw₂
    exact h.won_unique j₁ j₂ st₁' st₂' h₁' hw₁' h₂' hw₂'
  · intro j' st' hst' hw
    obtain ⟨st, hst, hw'⟩ := hold j' st' hst' hw
    exact hsched.trans (h.won_scheduled j' st hst hw')

/-- The exchange. -/
theorem WinInv.swap (h : WinInv c f) (hscd : c.scheduler = true) :
    WinInv { c with scheduler := false } (Function.update f j (some .cancelTimer)) := by
  obtain ⟨hzero, hnone⟩ := h.free hscd
  have hmine : ∀ j' st', Function.update f j (some .cancelTimer) j' = some st' → st'.won → j' = j := by
    intro j' st' hst' hw
    rcases update_eq_some hst' with ⟨heq, -⟩ | ⟨-, hf⟩
    · exact heq
    · exact absurd hw (hnone j' st' hf)
  refine ⟨h.fiber_eq, h.scheduled_le, fun h => (nomatch h), ?_, fun _ _ _ _ => hzero⟩
  intro j₁ j₂ st₁ st₂ h₁ hw₁ h₂ hw₂
  rw [hmine j₁ st₁ h₁ hw₁, hmine j₂ st₂ h₂ hw₂]

theorem WinInv.schedule (h : WinInv c f) (hj : f j = some .schedule) :
    WinInv { c with fiber := false, scheduled := c.scheduled + 1 } (Function.update f j none) := by
  have hzero := h.won_scheduled j .schedule hj trivial
  have hscd : c.scheduler ≠ true := fun htrue => (h.free htrue).2 j .schedule hj trivial
  have hnone : ∀ j' st', Function.update f j none j' = some st' → ¬st'.won := by
    intro j' st' hst' hw
    rcases update_eq_some hst' with ⟨-, hnext⟩ | ⟨hne, hf⟩
    · cases hnext
    · exact hne (h.won_unique j' j st' .schedule hf hw hj trivial)
  refine ⟨by simp, by simp [hzero], fun htrue => absurd htrue hscd, ?_, ?_⟩
  · intro j₁ j₂ st₁ st₂ h₁ hw₁
    exact absurd hw₁ (hnone j₁ st₁ h₁)
  · intro j' st' hst' hw
    exact absurd hw (hnone j' st' hst')

/-- Once a thread is past `erase` the request is not in the table any more. -/
theorem ReqInv.past_erase (h : ReqInv c p inTable listed f) (hj : f j = some st) (hst : st ≠ .erase) :
    ¬inTable ∧ p ≠ .addCtx := by
  constructor
  · intro ht
    exact hst ((h.table ht).erase j st hj)
  · intro hp
    rw [(h.begun hp).2.2.1 j] at hj
    cases hj

/-- Put the parts together for a thread that is past `erase`. -/
theorem ReqInv.advance (h : ReqInv c p inTable listed f) (hj : f j = some st) (hst : st ≠ .erase)
    {next : Option Stage} (htaken : c'.taken = c.taken) (hsn : c'.sn = c.sn)
    (hwin : WinInv c' (Function.update f j next))
    (hanswer : Answer c' listed (Function.update f j next)) :
    ReqInv c' p inTable listed (Function.update f j next) := by
  obtain ⟨htable, hphase⟩ := h.past_erase hj hst
  refine ⟨hwin, hanswer, fun ht => absurd ht htable, fun hp => absurd hp hphase, ?_, ?_⟩
  · rw [htaken, hsn]
    exact h.taken
  · rw [htaken]
    exact h.returned

/-- The thread at work carries the response, or the response is not to be carried now. -/
theorem Answer.cases_of_stage (h : Answer c listed f) (hj : f j = some st) :
    (c.taken = none ∧ c.response = none ∧ st.unanswered ∧ ∀ j st, f j = some st → st.unanswered) ∨
    (∃ rsp, c.taken = some rsp ∧ c.scheduled = 0 ∧ c.timed = false ∧ ¬listed ∧
      (st = .erase ∨ (st.carries c rsp ∧ ∀ j' st', f j' = some st' → j' = j ∨ st' = .erase))) ∨
    (∃ rsp, c.taken = some rsp ∧ 0 < c.scheduled ∧ st.late ∧ Delivered c listed f rsp) := by
  rcases h with ⟨htaken, hresp, hstages⟩ | ⟨rsp, htaken, hzero, htimed, hlisted, j₀, st₀, hj₀, hcarry, hother⟩ |
    ⟨rsp, htaken, hpos, hdel⟩
  · exact .inl ⟨htaken, hresp, hstages j st hj, hstages⟩
  · refine .inr (.inl ⟨rsp, htaken, hzero, htimed, hlisted, ?_⟩)
    rcases hother j st hj with rfl | herase
    · obtain rfl : st₀ = st := Option.some.inj (hj₀.symm.trans hj)
      exact .inr ⟨hcarry, hother⟩
    · exact .inl herase
  · exact .inr (.inr ⟨rsp, htaken, hpos, hdel.late j st hj, hdel⟩)

/-- The answer after a line that does not schedule the fiber. -/
theorem Answer.move (h : Answer c listed f) (hj : f j = some st) (hst : st ≠ .erase)
    (next : Option Stage) (htaken : c'.taken = c.taken) (hsched : c'.scheduled = c.scheduled)
    (hun : c.response = none → st.unanswered →
      c'.response = none ∧ ∀ st', next = some st' → st'.unanswered)
    (hcarry : ∀ rsp, c.scheduled = 0 → c.timed = false → st.carries c rsp →
      c'.timed = false ∧ ∃ st', next = some st' ∧ st'.carries c' rsp)
    (hlate : 0 < c.scheduled → st.late → c'.result = c.result ∧ c'.response = c.response ∧
      ∀ st', next = some st' → st'.late) :
    Answer c' listed (Function.update f j next) := by
  rcases h.cases_of_stage hj with ⟨ht, hresp, hst', hall⟩ |
    ⟨rsp, ht, hzero, htimed, hlisted, herase | ⟨hc, hother⟩⟩ | ⟨rsp, ht, hpos, hl, hdel⟩
  · obtain ⟨hresp', hnext⟩ := hun hresp hst'
    refine .unanswered (htaken.trans ht) hresp' fun j' st' hj' => ?_
    rcases update_eq_some hj' with ⟨-, hn⟩ | ⟨-, hf⟩
    · exact hnext st' hn
    · exact hall j' st' hf
  · exact absurd herase hst
  · obtain ⟨htimed', st', hnext, hc'⟩ := hcarry rsp hzero htimed hc
    refine .carried rsp (htaken.trans ht) (hsched.trans hzero) ⟨htimed', hlisted, j, st', ?_, hc', ?_⟩
    · rw [Function.update_self, hnext]
    · intro j' st'' hj'
      rcases update_eq_some hj' with ⟨heq, -⟩ | ⟨-, hf⟩
      · exact .inl heq
      · exact hother j' st'' hf
  · obtain ⟨hres, hresp, hnext⟩ := hlate hpos hl
    refine .delivered rsp (htaken.trans ht) (hsched ▸ hpos) ⟨hres.trans hdel.result_eq,
      hresp.trans hdel.response_eq, hdel.not_listed, fun j' st' hj' => ?_⟩
    rcases update_eq_some hj' with ⟨-, hn⟩ | ⟨-, hf⟩
    · exact hnext st' hn
    · exact hdel.late j' st' hf

/-- The fiber is scheduled: a response that was carried is delivered. -/
theorem Answer.schedule (h : Answer c listed f) (hj : f j = some .schedule) :
    Answer { c with fiber := false, scheduled := c.scheduled + 1 } listed (Function.update f j none) := by
  rcases h.cases_of_stage hj with ⟨ht, hresp, -, hall⟩ |
    ⟨rsp, ht, -, -, hlisted, herase | ⟨hc, hother⟩⟩ | ⟨rsp, ht, -, hl, -⟩
  · refine .unanswered ht hresp fun j' st' hj' => ?_
    rcases update_eq_some hj' with ⟨-, hn⟩ | ⟨-, hf⟩
    · cases hn
    · exact hall j' st' hf
  · cases herase
  · refine .delivered rsp ht (Nat.succ_pos _) ⟨hc.1, hc.2, hlisted, fun j' st' hj' => ?_⟩
    rcases update_eq_some hj' with ⟨-, hn⟩ | ⟨hne, hf⟩
    · cases hn
    · rcases hother j' st' hf with heq | rfl
      · exact absurd heq hne
      · trivial
  · cases hl

/-! ### The lines -/

theorem ReqInv.setTimed (h : ReqInv c p inTable listed f) (hj : f j = some .setTimed) :
    ReqInv { c with timed := true } p inTable listed (Function.update f j (some .doRsp)) := by
  have hst : Stage.setTimed ≠ .erase := by decide
  refine h.advance hj hst rfl rfl ?_ ?_
  · exact h.win.restage _ rfl rfl rfl (by rintro _ ⟨⟩ ⟨⟩)
  · refine h.answer.move hj hst _ rfl rfl ?_ ?_ ?_
    · rintro hresp -
      exact ⟨hresp, by rintro _ ⟨⟩; trivial⟩
    · rintro rsp - - ⟨⟩
    · rintro - -
      exact ⟨rfl, rfl, by rintro _ ⟨⟩; trivial⟩

theorem ReqInv.setResult {v : UInt32} {o : Option RockResponse} (h : ReqInv c p inTable listed f)
    (hj : f j = some (.setResult v o)) :
    ReqInv { c with result := v } p inTable listed
      (Function.update f j (some (afterResult o))) := by
  have hst : Stage.setResult v o ≠ .erase := nofun
  refine h.advance hj hst rfl rfl ?_ ?_
  · refine h.win.restage _ rfl rfl rfl ?_
    rintro _ ⟨⟩ hw
    cases o <;> cases hw
  · refine h.answer.move hj hst _ rfl rfl ?_ ?_ ?_
    · intro hresp hun
      cases o with
      | none => exact ⟨hresp, by rintro _ ⟨⟩; trivial⟩
      | some rsp => cases hun
    · rintro rsp - htimed ⟨rfl, rfl, hscd⟩
      exact ⟨htimed, _, rfl, rfl, rfl, hscd⟩
    · rintro - ⟨⟩

theorem ReqInv.setResponse {rsp : RockResponse} (h : ReqInv c p inTable listed f)
    (hj : f j = some (.setResponse rsp)) :
    ReqInv { c with response := some rsp } p inTable listed (Function.update f j (some .doRsp)) := by
  have hst : Stage.setResponse rsp ≠ .erase := nofun
  refine h.advance hj hst rfl rfl ?_ ?_
  · exact h.win.restage _ rfl rfl rfl (by rintro _ ⟨⟩ ⟨⟩)
  · refine h.answer.move hj hst _ rfl rfl ?_ ?_ ?_
    · rintro - ⟨⟩
    · rintro rsp' - htimed ⟨rfl, hres, hscd⟩
      exact ⟨htimed, _, rfl, hres, rfl, hscd⟩
    · rintro - ⟨⟩

theorem ReqInv.doRsp (h : ReqInv c p inTable listed f) (hj : f j = some .doRsp) :
    ReqInv c p inTable listed (Function.update f j (some (.swap c.scheduler))) := by
  have hst : Stage.doRsp ≠ .erase := by decide
  refine h.advance hj hst rfl rfl ?_ ?_
  · exact h.win.restage _ rfl rfl rfl (by rintro _ ⟨⟩ ⟨⟩)
  · refine h.answer.move hj hst _ rfl rfl ?_ ?_ ?_
    · rintro hresp -
      exact ⟨hresp, by rintro _ ⟨⟩; trivial⟩
    · rintro rsp - htimed ⟨hres, hresp, hscd⟩
      exact ⟨htimed, _, rfl, hres, hresp, hscd, hscd⟩
    · rintro - -
      exact ⟨rfl, rfl, by rintro _ ⟨⟩; trivial⟩

/-- The exchange gets the scheduler. -/
theorem ReqInv.swap_won (h : ReqInv c p inTable listed f) (hj : f j = some (.swap true))
    (hscd : c.scheduler = true) :
    ReqInv { c with scheduler := false } p inTable listed
      (Function.update f j (some .cancelTimer)) := by
  have hst : Stage.swap true ≠ .erase := by decide
  have hzero := (h.win.free hscd).1
  refine h.advance hj hst rfl rfl (h.win.swap hscd) (h.answer.move hj hst _ rfl rfl ?_ ?_ ?_)
  · rintro hresp -
    exact ⟨hresp, by rintro _ ⟨⟩; trivial⟩
  · rintro rsp - htimed ⟨hres, hresp, -⟩
    exact ⟨htimed, _, rfl, hres, hresp⟩
  · intro hpos
    omega

/-- The exchange finds that another thread has been there, or a null scheduler. -/
theorem ReqInv.swap_lost {scd : Bool} (h : ReqInv c p inTable listed f)
    (hj : f j = some (.swap scd)) (hlost : ¬(c.scheduler = true ∧ scd = true)) :
    ReqInv c p inTable listed (Function.update f j none) := by
  have hst : Stage.swap scd ≠ .erase := nofun
  refine h.advance hj hst rfl rfl ?_ (h.answer.move hj hst _ rfl rfl ?_ ?_ ?_)
  · exact h.win.restage _ rfl rfl rfl (by rintro _ ⟨⟩)
  · rintro hresp -
    exact ⟨hresp, by rintro _ ⟨⟩⟩
  · rintro rsp - - ⟨-, -, hscd⟩
    exact absurd hscd hlost
  · rintro - -
    exact ⟨rfl, rfl, by rintro _ ⟨⟩⟩

theorem ReqInv.cancelTimer (h : ReqInv c p inTable listed f) (hj : f j = some .cancelTimer)
    (htaken : c'.taken = c.taken) (hsn : c'.sn = c.sn) (hfiber : c'.fiber = c.fiber)
    (hsched : c'.scheduled = c.scheduled) (hscd : c'.scheduler = c.scheduler)
    (htimed : c'.timed = c.timed) (hres : c'.result = c.result) (hresp : c'.response = c.response) :
    ReqInv c' p inTable listed (Function.update f j (some .applyTimed)) := by
  have hst : Stage.cancelTimer ≠ .erase := by decide
  refine h.advance hj hst htaken hsn ?_ (h.answer.move hj hst _ htaken hsched ?_ ?_ ?_)
  · exact h.win.restage _ hfiber hsched hscd (fun _ _ _ => ⟨_, hj, trivial⟩)
  · rintro hnone -
    exact ⟨hresp.trans hnone, by rintro _ ⟨⟩; trivial⟩
  · rintro rsp - hfalse ⟨h₁, h₂⟩
    exact ⟨htimed.trans hfalse, _, rfl, hres.trans h₁, hresp.trans h₂⟩
  · rintro - ⟨⟩

theorem ReqInv.applyTimed (h : ReqInv c p inTable listed f) (hj : f j = some .applyTimed) :
    ReqInv (if c.timed then { c with result := TIMEOUT.toUInt32 } else c) p inTable listed
      (Function.update f j (some .schedule)) := by
  have hst : Stage.applyTimed ≠ .erase := by decide
  have hwin : ∀ v, WinInv { c with result := v } (Function.update f j (some .schedule)) :=
    fun v => h.win.restage _ rfl rfl rfl (fun _ _ _ => ⟨_, hj, trivial⟩)
  by_cases htimed : c.timed = true
  · rw [if_pos htimed]
    refine h.advance hj hst rfl rfl (hwin _) (h.answer.move hj hst _ rfl rfl ?_ ?_ ?_)
    · rintro hnone -
      exact ⟨hnone, by rintro _ ⟨⟩; trivial⟩
    · rintro rsp - hfalse -
      rw [htimed] at hfalse
      cases hfalse
    · rintro - ⟨⟩
  · rw [if_neg htimed]
    refine h.advance hj hst rfl rfl (hwin _) (h.answer.move hj hst _ rfl rfl ?_ ?_ ?_)
    · rintro hnone -
      exact ⟨hnone, by rintro _ ⟨⟩; trivial⟩
    · rintro rsp - hfalse hcarry
      exact ⟨hfalse, _, rfl, hcarry⟩
    · rintro - ⟨⟩

theorem ReqInv.schedule (h : ReqInv c p inTable listed f) (hj : f j = some .schedule) :
    ReqInv (if c.fiber then { c with fiber := false, scheduled := c.scheduled + 1 } else c) p inTable
      listed (Function.update f j none) := by
  have hst : Stage.schedule ≠ .erase := by decide
  have hzero := h.win.won_scheduled j .schedule hj trivial
  rw [if_pos (h.win.fiber_eq.mpr hzero)]
  exact h.advance hj hst rfl rfl (h.win.schedule hj) (h.answer.schedule hj)

/-- `onTimeOut` takes the request out of the table. -/
theorem ReqInv.erase (h : ReqInv c p inTable listed f) (hj : f j = some .erase)
    (hok : c.taken = none ∨ 0 < c.scheduled) :
    ReqInv c p False listed (Function.update f j (some .setTimed)) := by
  refine ⟨?_, ?_, False.elim, fun hp => ?_, h.taken, fun res rsp hp => ?_⟩
  · exact h.win.restage _ rfl rfl rfl (by rintro _ ⟨⟩ ⟨⟩)
  · rcases h.answer with ⟨ht, hresp, hall⟩ | ⟨rsp, ht, hzero, -⟩ | ⟨rsp, ht, hpos, hdel⟩
    · refine .unanswered ht hresp fun j' st' hj' => ?_
      rcases update_eq_some hj' with ⟨-, ⟨⟩⟩ | ⟨-, hf⟩
      · trivial
      · exact hall j' st' hf
    · rcases hok with hnone | hpos
      · rw [ht] at hnone
        cases hnone
      · omega
    · refine .delivered rsp ht hpos ⟨hdel.result_eq, hdel.response_eq, hdel.not_listed, ?_⟩
      intro j' st' hj'
      rcases update_eq_some hj' with ⟨-, ⟨⟩⟩ | ⟨-, hf⟩
      · trivial
      · exact hdel.late j' st' hf
  · rw [(h.begun hp).2.2.1 j] at hj
    cases hj
  · exact ⟨not_false, (h.returned res rsp hp).2⟩

end Work

/-! ## The other changes of a view -/

section View

variable {c : RockCtx} {p : Phase} {inTable listed : Prop} {f : Nat → Option Stage} {j : Nat}

theorem Untouched.mono {listed' : Prop} (h : Untouched c listed f) (hl : listed' → listed) :
    Untouched c listed' f :=
  ⟨h.taken_eq, h.scheduled_eq, h.scheduler_eq, h.timed_eq, fun hl' => h.not_listed (hl hl'), h.erase⟩

theorem Answer.mono {listed' : Prop} (h : Answer c listed f) (hl : c.taken ≠ none → listed' → listed) :
    Answer c listed' f := by
  rcases h with ⟨ht, hresp, hall⟩ | ⟨rsp, ht, hzero, htimed, hlisted, hcarry⟩ | ⟨rsp, ht, hpos, hdel⟩
  · exact .unanswered ht hresp hall
  · have htaken : c.taken ≠ none := by simp [ht]
    exact .carried rsp ht hzero ⟨htimed, fun hl' => hlisted (hl htaken hl'), hcarry⟩
  · have htaken : c.taken ≠ none := by simp [ht]
    exact .delivered rsp ht hpos ⟨hdel.result_eq, hdel.response_eq,
      fun hl' => hdel.not_listed (hl htaken hl'), hdel.late⟩

/-- Leaving the table or a list changes nothing. -/
theorem ReqInv.mono {inTable' listed' : Prop} (h : ReqInv c p inTable listed f)
    (ht : inTable' → inTable) (hl : listed' → listed) : ReqInv c p inTable' listed' f where
  win := h.win
  answer := h.answer.mono (fun _ => hl)
  table ht' := (h.table (ht ht')).mono hl
  begun hp := ⟨(h.begun hp).1.mono hl, fun ht' => (h.begun hp).2.1 (ht ht'), (h.begun hp).2.2⟩
  taken := h.taken
  returned res rsp hp := ⟨fun ht' => (h.returned res rsp hp).1 (ht ht'), (h.returned res rsp hp).2⟩

/-- The table goes to the list of a thread that closes the stream. -/
theorem ReqInv.closed (h : ReqInv c p inTable listed f) : ReqInv c p False (listed ∨ inTable) f where
  win := h.win
  answer := by
    apply h.answer.mono
    rintro htaken (hl | ht)
    · exact hl
    · exact absurd (h.table ht).taken_eq htaken
  table := False.elim
  begun hp := by
    obtain ⟨huntouched, hnot, hrest⟩ := h.begun hp
    exact ⟨huntouched.mono (fun hl => hl.resolve_right hnot), not_false, hrest⟩
  taken := h.taken
  returned res rsp hp := ⟨not_false, (h.returned res rsp hp).2⟩

/-- The loop of `innerClose` comes to the request. -/
theorem ReqInv.close (h : ReqInv c p inTable listed f) (hl : listed) (j : Nat) (v : UInt32) :
    ReqInv c p inTable listed (Function.update f j (some (.setResult v none))) where
  win := h.win.restage _ rfl rfl rfl (by rintro _ ⟨⟩ ⟨⟩)
  answer := by
    rcases h.answer with ⟨ht, hresp, hall⟩ | ⟨rsp, -, -, hcarry⟩ | ⟨rsp, -, -, hdel⟩
    · refine .unanswered ht hresp fun j' st' hj' => ?_
      rcases update_eq_some hj' with ⟨-, ⟨⟩⟩ | ⟨-, hf⟩
      · trivial
      · exact hall j' st' hf
    · exact absurd hl hcarry.not_listed
    · exact absurd hl hdel.not_listed
  table ht := absurd hl (h.table ht).not_listed
  begun hp := absurd hl (h.begun hp).1.not_listed
  taken := h.taken
  returned := h.returned

/-- The timer is due. -/
theorem ReqInv.expire (h : ReqInv c p inTable listed f) (hj : f j = none) (hp : c.pending = true) :
    ReqInv { c with pending := false } p inTable listed (Function.update f j (some .erase)) where
  win := h.win.restage _ rfl rfl rfl (by rintro _ ⟨⟩ ⟨⟩)
  answer := by
    rcases h.answer with ⟨ht, hresp, hall⟩ | ⟨rsp, ht, hzero, htimed, hlisted, j₀, st₀, hj₀, hcarry, hother⟩ |
      ⟨rsp, ht, hpos, hdel⟩
    · refine .unanswered ht hresp fun j' st' hj' => ?_
      rcases update_eq_some hj' with ⟨-, ⟨⟩⟩ | ⟨-, hf⟩
      · trivial
      · exact hall j' st' hf
    · have hne : j₀ ≠ j := by
        rintro rfl
        rw [hj] at hj₀
        cases hj₀
      refine .carried rsp ht hzero ⟨htimed, hlisted, j₀, st₀, ?_, ?_, fun j' st' hj' => ?_⟩
      · rw [Function.update_of_ne hne, hj₀]
      · cases st₀ <;> exact hcarry
      · rcases update_eq_some hj' with ⟨-, ⟨⟩⟩ | ⟨-, hf⟩
        · exact .inr rfl
        · exact hother j' st' hf
    · refine .delivered rsp ht hpos ⟨hdel.result_eq, hdel.response_eq, hdel.not_listed, ?_⟩
      intro j' st' hj'
      rcases update_eq_some hj' with ⟨-, ⟨⟩⟩ | ⟨-, hf⟩
      · trivial
      · exact hdel.late j' st' hf
  table ht := by
    have hu := h.table ht
    refine ⟨hu.taken_eq, hu.scheduled_eq, hu.scheduler_eq, hu.timed_eq, hu.not_listed, ?_⟩
    intro j' st' hj'
    rcases update_eq_some hj' with ⟨-, ⟨⟩⟩ | ⟨-, hf⟩
    · rfl
    · exact hu.erase j' st' hf
  begun hp' := by
    rw [(h.begun hp').2.2.2] at hp
    cases hp
  taken := h.taken
  returned := h.returned

/-- A response is taken for the request. -/
theorem ReqInv.take {rsp : RockResponse} (h : ReqInv c p inTable listed f) (ht : inTable) (j : Nat)
    (hsn : rsp.sn = c.sn) (hcode : ¬ErrorCode rsp.result.toInt32) :
    ReqInv { c with taken := some rsp } p False listed
      (Function.update f j (some (.setResult rsp.result (some rsp)))) := by
  have hu := h.table ht
  refine ⟨?_, ?_, False.elim, fun hp => absurd ht (h.begun hp).2.1, ?_, fun res rsp' hp => ?_⟩
  · exact h.win.restage _ rfl rfl rfl (by rintro _ ⟨⟩ ⟨⟩)
  · refine .carried rsp rfl hu.scheduled_eq ⟨hu.timed_eq, hu.not_listed, j, _,
      Function.update_self .., ⟨rfl, rfl, hu.scheduler_eq⟩, fun j' st' hj' => ?_⟩
    rcases update_eq_some hj' with ⟨heq, -⟩ | ⟨-, hf⟩
    · exact .inl heq
    · exact .inr (hu.erase j' st' hf)
  · rintro rsp' ⟨⟩
    exact ⟨hsn, hcode⟩
  · exact absurd ht (h.returned res rsp' hp).1

/-- A context that was just made. -/
theorem reqInv_request (sn : UInt32) (hp : p = .addCtx ∨ p = .returned NOT_CONNECT none)
    (ht : ¬inTable) (hl : ¬listed) (hf : ∀ j, f j = none) :
    ReqInv { sn := sn } p inTable listed f := by
  have hnone : ∀ (P : Stage → Prop) j st, f j = some st → P st := by
    intro P j st hj
    rw [hf j] at hj
    cases hj
  refine ⟨⟨by simp, by simp, fun _ => ⟨rfl, hnone _⟩, ?_, fun _ _ _ _ => rfl⟩,
    .unanswered rfl rfl (hnone _), fun h => absurd h ht, fun _ => ?_, nofun, ?_⟩
  · intro j j' st st' hj
    rw [hf j] at hj
    cases hj
  · exact ⟨⟨rfl, rfl, rfl, rfl, hl, hnone _⟩, ht, hf, rfl⟩
  · intro res rsp hret
    rcases hp with rfl | rfl
    · cases hret
    · cases hret
      exact ⟨ht, rfl, nofun⟩

/-- The thread of the request goes on; only its timer changes. -/
theorem ReqInv.proceed {inTable' : Prop} (h : ReqInv c p inTable listed f) (timer pending : Bool)
    {p' : Phase} (hp' : p' ≠ .addCtx) (hret : ∀ res rsp, p' ≠ .returned res rsp)
    (ht : inTable' → inTable ∨ p = .addCtx) :
    ReqInv { c with timer := timer, pending := pending } p' inTable' listed f where
  win := ⟨h.win.fiber_eq, h.win.scheduled_le, h.win.free, h.win.won_unique, h.win.won_scheduled⟩
  answer := by
    rcases h.answer with ⟨ht, hresp, hall⟩ | ⟨rsp, ht, hzero, htimed, hlisted, j₀, st₀, hj₀, hcarry, hother⟩ |
      ⟨rsp, ht, hpos, hdel⟩
    · exact .unanswered ht hresp hall
    · refine .carried rsp ht hzero ⟨htimed, hlisted, j₀, st₀, hj₀, ?_, hother⟩
      cases st₀ <;> exact hcarry
    · exact .delivered rsp ht hpos ⟨hdel.result_eq, hdel.response_eq, hdel.not_listed, hdel.late⟩
  table ht' := by
    have hu : Untouched c listed f := (ht ht').elim h.table (fun hp => (h.begun hp).1)
    exact ⟨hu.taken_eq, hu.scheduled_eq, hu.scheduler_eq, hu.timed_eq, hu.not_listed, hu.erase⟩
  begun hp := absurd hp hp'
  taken := h.taken
  returned res rsp hp := absurd hp (hret res rsp)

/-- `YieldToHold` returns. -/
theorem ReqInv.resume (h : ReqInv c p inTable listed f) (hpos : c.scheduled ≠ 0) :
    ReqInv c (.returned c.result.toInt32 c.response) inTable listed f where
  win := h.win
  answer := h.answer
  table := h.table
  begun := nofun
  taken := h.taken
  returned res rsp hp := by
    cases hp
    refine ⟨fun ht => hpos (h.table ht).scheduled_eq, ?_⟩
    rcases h.answer with ⟨ht, hresp, -⟩ | ⟨rsp, -, hzero, -⟩ | ⟨rsp, ht, -, hdel⟩
    · rw [ht, hresp]
      exact ⟨rfl, nofun⟩
    · exact absurd hzero hpos
    · rw [ht, hdel.response_eq, hdel.result_eq]
      exact ⟨rfl, by rintro m ⟨⟩; rfl⟩

end View

/-! ## Steps of the stream -/

section Steps

variable {s s' : RockStream} {r j : Nat}

theorem stageOf_setJob (s : RockStream) (r j : Nat) (x : Job) :
    stageOf (s.setJob j x) r = Function.update (stageOf s r) j (x.stageOn r) := by
  funext j'
  by_cases heq : j' = j
  · subst heq
    simp [stageOf, setJob]
  · simp [stageOf, setJob, Function.update_of_ne heq]

theorem listed_setJob {x : Job} (h : Listed (s.setJob j x) r) : r ∈ x.rest ∨ Listed s r := by
  obtain ⟨j', hj'⟩ := h
  by_cases heq : j' = j
  · subst heq
    simp only [setJob, Function.update_self] at hj'
    exact .inl hj'
  · simp only [setJob, Function.update_of_ne heq] at hj'
    exact .inr ⟨j', hj'⟩

/-- A step that does not change the view of a request. -/
theorem Known.frame (h : Known s r) (hctx : s'.ctx r = s.ctx r) (hphase : s'.phase r = s.phase r)
    (ht : InTable s' r → InTable s r) (hl : Listed s' r → Listed s r)
    (hstage : stageOf s' r = stageOf s r) : Known s' r := by
  rw [Known, hctx, hphase, hstage]
  exact ReqInv.mono h ht hl

/-- What is at work on a request exists. -/
theorem Inv.lt_of_stage (h : Inv s) {st : Stage} (hj : stageOf s r j = some st) : r < s.requests := by
  by_contra hge
  rw [(h.fresh r (by omega)).2.2.1 j] at hj
  cases hj

theorem Inv.lt_of_listed (h : Inv s) (hl : Listed s r) : r < s.requests := by
  by_contra hge
  exact (h.fresh r (by omega)).2.1 hl

theorem Inv.lt_of_inTable (h : Inv s) (ht : InTable s r) : r < s.requests := by
  by_contra hge
  exact (h.fresh r (by omega)).1 ht

theorem Inv.lt_of_phase (h : Inv s) (hp : s.phase r ≠ .none) : r < s.requests := by
  by_contra hge
  exact hp (h.fresh r (by omega)).2.2.2.1

/-- A step that concerns one request only. -/
structure Local (s : RockStream) (r : Nat) (s' : RockStream) : Prop where
  requests_eq : s'.requests = s.requests
  ctx_eq : ∀ r', r' ≠ r → s'.ctx r' = s.ctx r'
  sn_eq : (s'.ctx r).sn = (s.ctx r).sn
  phase_eq : ∀ r', r' ≠ r → s'.phase r' = s.phase r'
  inTable_of : ∀ r', r' ≠ r → InTable s' r' → InTable s r'
  listed_of : ∀ r', Listed s' r' → Listed s r'
  stage_eq : ∀ r', r' ≠ r → stageOf s' r' = stageOf s r'
  table_sn : ∀ e ∈ s'.ctxs, e ∈ s.ctxs ∨ e = ((s.ctx r).sn, r)

theorem Local.inv (hl : Local s r s') (h : Inv s) (hr : r < s.requests) (hknown : Known s' r) :
    Inv s' where
  known r' hr' := by
    rw [hl.requests_eq] at hr'
    by_cases heq : r' = r
    · exact heq ▸ hknown
    · exact (h.known r' hr').frame (hl.ctx_eq r' heq) (hl.phase_eq r' heq) (hl.inTable_of r' heq)
        (hl.listed_of r') (hl.stage_eq r' heq)
  fresh r' hr' := by
    rw [hl.requests_eq] at hr'
    have hne : r' ≠ r := by omega
    obtain ⟨ht, hlisted, hstage, hphase, hpending⟩ := h.fresh r' hr'
    refine ⟨fun ht' => ht (hl.inTable_of r' hne ht'), fun hl' => hlisted (hl.listed_of r' hl'), ?_, ?_, ?_⟩
    · rw [hl.stage_eq r' hne]
      exact hstage
    · rw [hl.phase_eq r' hne, hphase]
    · rw [hl.ctx_eq r' hne, hpending]
  table_sn e he := by
    have hsn : ∀ r', (s'.ctx r').sn = (s.ctx r').sn := by
      intro r'
      by_cases heq : r' = r
      · rw [heq, hl.sn_eq]
      · rw [hl.ctx_eq r' heq]
    rw [hsn]
    rcases hl.table_sn e he with hold | rfl
    · exact h.table_sn e hold
    · rfl

/-- A thread does a line of work on `r`. -/
theorem local_setJob {s₁ : RockStream} {x : Job} (hreq : s₁.requests = s.requests)
    (hctx : ∀ r', r' ≠ r → s₁.ctx r' = s.ctx r') (hsn : (s₁.ctx r).sn = (s.ctx r).sn)
    (hphase : s₁.phase = s.phase) (htable : ∀ e ∈ s₁.ctxs, e ∈ s.ctxs) (hjob : s₁.job = s.job)
    (hrest : ∀ r', r' ∈ x.rest → Listed s r')
    (hstage : ∀ r', r' ≠ r → (s.job j).stageOn r' = x.stageOn r') : Local s r (s₁.setJob j x) where
  requests_eq := hreq
  ctx_eq := hctx
  sn_eq := hsn
  phase_eq r' _ := congrFun hphase r'
  inTable_of r' _ h := h.imp fun sn hmem => htable _ hmem
  listed_of r' h := by
    rcases listed_setJob h with hx | ⟨j', hj'⟩
    · exact hrest r' hx
    · exact ⟨j', hjob ▸ hj'⟩
  stage_eq r' hne := by
    rw [stageOf_setJob, ← hstage r' hne]
    have : stageOf s₁ r' = stageOf s r' := by
      funext j'
      rw [stageOf, stageOf, hjob]
    rw [this]
    exact Function.update_eq_self j (stageOf s r')
  table_sn e he := .inl (htable e he)

/-- What a line of work leaves alone. -/
structure Frame (s : RockStream) (r : Nat) (s₁ : RockStream) : Prop where
  requests_eq : s₁.requests = s.requests
  ctx_eq : ∀ r', r' ≠ r → s₁.ctx r' = s.ctx r'
  sn_eq : (s₁.ctx r).sn = (s.ctx r).sn
  phase_eq : s₁.phase = s.phase
  ctxs_of : ∀ e ∈ s₁.ctxs, e ∈ s.ctxs
  job_eq : s₁.job = s.job

theorem frame_setCtx {c : RockCtx} (h : c.sn = (s.ctx r).sn) : Frame s r (s.setCtx r c) where
  requests_eq := rfl
  ctx_eq r' hne := Function.update_of_ne hne _ _
  sn_eq := by simpa [setCtx] using h
  phase_eq := rfl
  ctxs_of _ h := h
  job_eq := rfl

theorem frame_refl : Frame s r s := ⟨rfl, fun _ _ => rfl, rfl, rfl, fun _ h => h, rfl⟩

theorem advance_frame (st : Stage) : Frame s r (s.advance r st).1 := by
  cases st with
  | erase => exact ⟨rfl, fun _ _ => rfl, rfl, rfl, fun _ h => (List.mem_filter.mp h).1, rfl⟩
  | setTimed => exact frame_setCtx rfl
  | setResult v rsp => exact frame_setCtx rfl
  | setResponse rsp => exact frame_setCtx rfl
  | doRsp => exact frame_refl
  | swap scd =>
    simp only [advance]
    split
    · exact frame_setCtx rfl
    · exact frame_refl
  | cancelTimer =>
    simp only [advance]
    split
    · exact frame_setCtx rfl
    · exact frame_refl
  | applyTimed =>
    simp only [advance]
    split
    · exact frame_setCtx rfl
    · exact frame_refl
  | schedule =>
    simp only [advance]
    split
    · exact frame_setCtx rfl
    · exact frame_refl

theorem not_inTable_without (h : Inv s) (hctx : s'.ctxs = s.without (s.ctx r).sn) : ¬InTable s' r := by
  rintro ⟨sn, hmem⟩
  rw [hctx] at hmem
  obtain ⟨hmem, hne⟩ := List.mem_filter.mp hmem
  have := h.table_sn _ hmem
  simp_all

/-- The view of the request after a line of work. -/
theorem advance_known (h : Inv s) {st : Stage} (hj : stageOf s r j = some st)
    (hok : st = .erase → (s.ctx r).taken = none ∨ 0 < (s.ctx r).scheduled) :
    ReqInv ((s.advance r st).1.ctx r) (s.phase r) (InTable (s.advance r st).1 r) (Listed s r)
      (Function.update (stageOf s r) j (s.advance r st).2) := by
  have hk := h.known r (h.lt_of_stage hj)
  have hset : ∀ c, (s.setCtx r c).ctx r = c := fun c => by simp [setCtx]
  cases st with
  | erase =>
    have hout : ¬InTable (s.advance r .erase).1 r := not_inTable_without h rfl
    exact (hk.erase hj (hok rfl)).mono hout id
  | setTimed =>
    simp only [advance, hset]
    exact hk.setTimed hj
  | setResult v rsp =>
    simp only [advance, hset]
    exact hk.setResult hj
  | setResponse rsp =>
    simp only [advance, hset]
    exact hk.setResponse hj
  | doRsp => exact hk.doRsp hj
  | swap scd =>
    simp only [advance]
    by_cases hcas : (s.ctx r).scheduler = scd
    · rw [if_pos hcas]
      cases scd with
      | true =>
        have hfiber := hk.win.fiber_eq.mpr (hk.win.free hcas).1
        rw [hset, if_pos (by rw [hfiber]; rfl)]
        exact hk.swap_won hj hcas
      | false =>
        have hsame : { s.ctx r with scheduler := false } = s.ctx r := by rw [← hcas]
        rw [hset, hsame, if_neg (by simp)]
        exact hk.swap_lost hj (by simp)
    · rw [if_neg hcas]
      refine hk.swap_lost hj ?_
      rintro ⟨htrue, rfl⟩
      exact hcas htrue
  | cancelTimer =>
    simp only [advance]
    split
    · rw [hset]
      exact hk.cancelTimer hj rfl rfl rfl rfl rfl rfl rfl rfl
    · exact hk.cancelTimer hj rfl rfl rfl rfl rfl rfl rfl rfl
  | applyTimed =>
    have := hk.applyTimed hj
    simp only [advance]
    split
    · next htimed =>
      rw [hset]
      rwa [if_pos htimed] at this
    · next htimed =>
      rwa [if_neg htimed] at this
  | schedule =>
    have := hk.schedule hj
    simp only [advance]
    split
    · next hfiber =>
      rw [hset]
      rwa [if_pos hfiber] at this
    · next hfiber =>
      rwa [if_neg hfiber] at this

theorem nextJob_rest (r : Nat) (rest : List Nat) (next : Option Stage) :
    (nextJob r rest next).rest = rest := by
  cases next <;> rfl

theorem nextJob_stageOn (r : Nat) (rest : List Nat) (next : Option Stage) :
    (nextJob r rest next).stageOn r = next := by
  cases next <;> simp [nextJob, Job.stageOn]

theorem nextJob_stageOn_of_ne {r r' : Nat} (hne : r' ≠ r) {rest : List Nat} {next : Option Stage} :
    (nextJob r rest next).stageOn r' = none := by
  cases next <;> simp [nextJob, Job.stageOn, hne.symm]

theorem local_advance {st : Stage} {rest : List Nat} (hjob : s.job j = .on r st rest) :
    Local s r ((s.advance r st).1.setJob j (nextJob r rest (s.advance r st).2)) := by
  have hframe := @advance_frame s r st
  refine local_setJob hframe.requests_eq hframe.ctx_eq hframe.sn_eq hframe.phase_eq
    hframe.ctxs_of hframe.job_eq (fun r' hr' => ⟨j, ?_⟩) ?_
  · rw [hjob]
    exact nextJob_rest r rest _ ▸ hr'
  · intro r' hne
    rw [nextJob_stageOn_of_ne hne, hjob]
    simp [Job.stageOn, hne.symm]

theorem stageOf_advance {st : Stage} (rest : List Nat) :
    stageOf ((s.advance r st).1.setJob j (nextJob r rest (s.advance r st).2)) r =
      Function.update (stageOf s r) j (s.advance r st).2 := by
  have hstages : stageOf (s.advance r st).1 r = stageOf s r := by
    funext j'
    rw [stageOf, stageOf, (advance_frame st).job_eq]
  rw [stageOf_setJob, hstages, nextJob_stageOn]

theorem local_expire (hjob : s.job j = .loop []) :
    Local s r ((s.setCtx r { s.ctx r with pending := false }).setJob j (.on r .erase [])) := by
  have hframe : Frame s r (s.setCtx r { s.ctx r with pending := false }) := frame_setCtx rfl
  refine local_setJob rfl hframe.ctx_eq hframe.sn_eq rfl (fun _ h => h) rfl nofun ?_
  intro r' hne
  rw [hjob]
  simp [Job.stageOn, hne.symm]

theorem local_take {rsp : RockResponse} (hjob : s.job j = .loop []) (taken : Option RockResponse) :
    Local s r (({ s with ctxs := s.without rsp.sn }.setCtx r
      { s.ctx r with taken := taken }).setJob j (.on r (.setResult rsp.result (some rsp)) [])) := by
  refine local_setJob rfl (fun r' hne => Function.update_of_ne hne _ _) ?_ rfl
    (fun _ he => (List.mem_filter.mp he).1) rfl nofun (fun r' hne => ?_)
  · simp [setCtx]
  · rw [hjob]
    simp [Job.stageOn, hne.symm]

theorem work_inv (h : Inv s) (hok : Sound s (.work j)) (hw : s.work j = .ok s') : Inv s' := by
  rw [work] at hw
  split at hw
  · cases hw
  · next r rest hjob =>
    cases hw
    have hl : Listed s r := ⟨j, by simp [hjob, Job.rest]⟩
    have hlocal : Local s r (s.setJob j (.on r (.setResult IO_ERROR.toUInt32 none) rest)) := by
      refine local_setJob rfl (fun _ _ => rfl) rfl rfl (fun _ h => h) rfl (fun r' hr' => ?_) ?_
      · exact ⟨j, by rw [hjob]; exact List.mem_cons_of_mem _ hr'⟩
      · intro r' hne
        rw [hjob]
        simp [Job.stageOn, hne.symm]
    refine hlocal.inv h (h.lt_of_listed hl) ?_
    have hk := (h.known r (h.lt_of_listed hl)).close hl j IO_ERROR.toUInt32
    rw [Known, stageOf_setJob, Job.stageOn, if_pos rfl]
    exact hk.mono id (hlocal.listed_of r)
  · next r st rest hjob =>
    cases hw
    have hj : stageOf s r j = some st := by simp [stageOf, hjob, Job.stageOn]
    have hk := advance_known h hj (fun hst => hok r rest (hst ▸ hjob))
    have hlocal := local_advance hjob
    refine hlocal.inv h (h.lt_of_stage hj) ?_
    have hphase : ((s.advance r st).1.setJob j (nextJob r rest (s.advance r st).2)).phase = s.phase :=
      (advance_frame st).phase_eq
    rw [Known, stageOf_advance, hphase]
    exact hk.mono id (hlocal.listed_of r)
  · cases hw

theorem expire_inv (h : Inv s) (he : s.expire j r = .ok s') : Inv s' := by
  rw [expire] at he
  split at he
  · next hjob =>
    split at he
    · next hpending =>
      cases he
      have hr : r < s.requests := by
        by_contra hge
        rw [(h.fresh r (by omega)).2.2.2.2] at hpending
        cases hpending
      have hj : stageOf s r j = none := by rw [stageOf, hjob]; rfl
      have hlocal : Local s r ((s.setCtx r { s.ctx r with pending := false }).setJob j
          (.on r .erase [])) := local_expire hjob
      refine hlocal.inv h hr ?_
      have hk := (h.known r hr).expire hj hpending
      have hctx : ((s.setCtx r { s.ctx r with pending := false }).setJob j (.on r .erase [])).ctx r =
          { s.ctx r with pending := false } := by simp [setCtx, setJob]
      rw [Known, stageOf_setJob, Job.stageOn, if_pos rfl, hctx]
      exact hk.mono id (hlocal.listed_of r)
    · cases he
  · cases he

/-- A step that changes no view. -/
theorem Inv.same (h : Inv s) (hreq : s'.requests = s.requests) (hctx : s'.ctx = s.ctx)
    (hphase : s'.phase = s.phase) (hctxs : s'.ctxs = s.ctxs) (hl : ∀ r, Listed s' r → Listed s r)
    (hstage : ∀ r, stageOf s' r = stageOf s r) : Inv s' where
  known r hr := by
    rw [hreq] at hr
    exact (h.known r hr).frame (congrFun hctx r) (congrFun hphase r)
      (fun ht => by rwa [InTable, hctxs] at ht) (hl r) (hstage r)
  fresh r hr := by
    rw [hreq] at hr
    obtain ⟨ht, hlisted, hst, hp, hpending⟩ := h.fresh r hr
    refine ⟨by rwa [InTable, hctxs], fun hl' => hlisted (hl r hl'), by rwa [hstage], ?_, ?_⟩
    · rw [hphase, hp]
    · rw [hctx, hpending]
  table_sn e he := by
    rw [hctx]
    exact h.table_sn e (hctxs ▸ he)

/-- `innerClose` begins. -/
theorem closing_inv (h : Inv s) (hjob : s.job j = .loop []) (connected : Bool) :
    Inv ({ s with connected := connected }.setJob j .closing) := by
  refine h.same rfl rfl rfl rfl (fun r hl => ?_) (fun r => ?_)
  · rcases listed_setJob hl with hx | hold
    · cases hx
    · exact hold
  · rw [stageOf_setJob]
    have hj : stageOf s r j = none := by rw [stageOf, hjob]; rfl
    funext j'
    by_cases heq : j' = j
    · subst heq
      rw [Function.update_self, hj]
      rfl
    · rw [Function.update_of_ne heq]
      rfl

theorem innerClose_inv (h : Inv s) (hc : s.innerClose j = .ok s') : Inv s' := by
  rw [innerClose] at hc
  split at hc
  · next hjob =>
    cases hc
    exact closing_inv h hjob false
  · cases hc

theorem swapCtxs_inv {order : List (UInt32 × Nat)} (h : Inv s) (hc : s.swapCtxs j order = .ok s') :
    Inv s' := by
  rw [swapCtxs] at hc
  split at hc
  · next hjob =>
    split at hc
    · next hperm =>
      cases hc
      have hmem : ∀ r, r ∈ order.map Prod.snd → InTable s r := by
        intro r hr
        obtain ⟨⟨sn, r'⟩, he, rfl⟩ := List.mem_map.mp hr
        exact ⟨sn, (List.isPerm_iff.mp hperm).mem_iff.mp he⟩
      have hl : ∀ r, Listed ({ s with ctxs := [] }.setJob j (.loop (order.map Prod.snd))) r →
          Listed s r ∨ InTable s r := by
        intro r hl
        rcases listed_setJob hl with hx | hold
        · exact .inr (hmem r hx)
        · exact .inl hold
      have hstage : ∀ r, stageOf ({ s with ctxs := [] }.setJob j (.loop (order.map Prod.snd))) r =
          stageOf s r := by
        intro r
        rw [stageOf_setJob]
        have hj : stageOf s r j = none := by rw [stageOf, hjob]; rfl
        funext j'
        by_cases heq : j' = j
        · subst heq
          rw [Function.update_self, hj]
          rfl
        · rw [Function.update_of_ne heq]
          rfl
      have hout : ∀ r, ¬InTable ({ s with ctxs := [] }.setJob j (.loop (order.map Prod.snd))) r := by
        rintro r ⟨sn, he⟩
        cases he
      refine ⟨fun r hr => ?_, fun r hr => ?_, fun e he => (nomatch he)⟩
      · rw [Known, hstage]
        exact (h.known r hr).closed.mono (hout r) (hl r)
      · obtain ⟨ht, hlisted, hst, hp, hpending⟩ := h.fresh r hr
        refine ⟨hout r, fun hl' => ?_, by rwa [hstage], hp, hpending⟩
        exact (hl r hl').elim hlisted ht
    · cases hc
  · cases hc

theorem mem_of_lookup {sn : UInt32} (h : s.ctxs.lookup sn = some r) : (sn, r) ∈ s.ctxs := by
  obtain ⟨as, bs, heq, -⟩ := List.lookup_eq_some_iff.mp h
  simp [heq]

/-- A response is taken for a request. -/
theorem taken_inv {rsp : RockResponse} (h : Inv s) (hcode : ¬ErrorCode rsp.result.toInt32)
    (hjob : s.job j = .loop []) (hlookup : s.ctxs.lookup rsp.sn = some r) :
    Inv (({ s with ctxs := s.without rsp.sn }.setCtx r
      { s.ctx r with taken := if (s.ctx r).scheduled = 0 then some rsp else (s.ctx r).taken }).setJob j
        (.on r (.setResult rsp.result (some rsp)) [])) := by
  have hmem := mem_of_lookup hlookup
  have ht : InTable s r := ⟨_, hmem⟩
  have hsn : (s.ctx r).sn = rsp.sn := h.table_sn _ hmem
  have hr := h.lt_of_inTable ht
  rw [if_pos ((h.known r hr).table ht).scheduled_eq]
  have hlocal : Local s r (({ s with ctxs := s.without rsp.sn }.setCtx r
      { s.ctx r with taken := some rsp }).setJob j (.on r (.setResult rsp.result (some rsp)) [])) :=
    local_take hjob _
  refine hlocal.inv h hr ?_
  have hk := (h.known r hr).take ht j hsn.symm hcode
  have hout : ¬InTable (({ s with ctxs := s.without rsp.sn }.setCtx r
      { s.ctx r with taken := some rsp }).setJob j (.on r (.setResult rsp.result (some rsp)) [])) r :=
    not_inTable_without h (by rw [hsn]; rfl)
  have hctx : (({ s with ctxs := s.without rsp.sn }.setCtx r
      { s.ctx r with taken := some rsp }).setJob j
      (.on r (.setResult rsp.result (some rsp)) [])).ctx r = { s.ctx r with taken := some rsp } := by
    simp [setCtx, setJob]
  rw [Known, stageOf_setJob, Job.stageOn, if_pos rfl, hctx]
  exact hk.mono hout (hlocal.listed_of r)

theorem doRecv_inv {msg : Option RockMessage} (h : Inv s) (hok : Sound s (.doRecv j msg))
    (hd : s.doRecv j msg = .ok s') : Inv s' := by
  unfold doRecv at hd
  split at hd
  · next hjob =>
    cases msg with
    | none =>
      cases hd
      exact closing_inv h hjob false
    | some msg =>
      cases msg with
      | response rsp =>
        dsimp only at hd
        split at hd
        · cases hd
        · next r hlookup =>
          cases hd
          exact taken_inv h hok hjob hlookup
      | request msg =>
        cases hd
        exact h
      | notify msg =>
        cases hd
        exact h
  · cases hd

/-- A call of `request` makes a new context and leaves everything else alone. -/
structure Requested (s : RockStream) (sn : UInt32) (s' : RockStream) : Prop where
  requests_eq : s'.requests = s.requests + 1
  ctxs_eq : s'.ctxs = s.ctxs
  stage_eq : ∀ r, stageOf s' r = stageOf s r
  listed_of : ∀ r, Listed s' r → Listed s r
  ctx_eq : ∀ r, r ≠ s.requests → s'.ctx r = s.ctx r
  ctx_self : s'.ctx s.requests = { sn := sn }
  phase_eq : ∀ r, r ≠ s.requests → s'.phase r = s.phase r
  phase_self : s'.phase s.requests = .addCtx ∨ s'.phase s.requests = .returned NOT_CONNECT none

theorem requested (s : RockStream) (sn : UInt32) : Requested s sn (s.request sn) := by
  rw [request]
  split
  · exact ⟨rfl, rfl, fun _ => rfl, fun _ h => h, fun _ hne => Function.update_of_ne hne _ _,
      Function.update_self .., fun _ hne => Function.update_of_ne hne _ _,
      .inl (Function.update_self ..)⟩
  · exact ⟨rfl, rfl, fun _ => rfl, fun _ h => h, fun _ hne => Function.update_of_ne hne _ _,
      Function.update_self .., fun _ hne => Function.update_of_ne hne _ _,
      .inr (Function.update_self ..)⟩

theorem Requested.inTable {sn : UInt32} (hreq : Requested s sn s') (h : InTable s' r) :
    InTable s r := by
  rwa [InTable, hreq.ctxs_eq] at h

theorem request_inv (h : Inv s) (sn : UInt32) : Inv (s.request sn) := by
  obtain ⟨ht, hlisted, hst, -, -⟩ := h.fresh s.requests le_rfl
  have hreq := requested s sn
  refine ⟨fun r hr => ?_, fun r hr => ?_, fun e he => ?_⟩
  · rw [hreq.requests_eq] at hr
    by_cases heq : r = s.requests
    · subst heq
      rw [Known, hreq.ctx_self]
      exact reqInv_request sn hreq.phase_self (fun ht' => ht (hreq.inTable ht'))
        (fun hl' => hlisted (hreq.listed_of _ hl')) (fun j => by rw [hreq.stage_eq, hst])
    · exact (h.known r (by omega)).frame (hreq.ctx_eq r heq) (hreq.phase_eq r heq) hreq.inTable
        (hreq.listed_of r) (hreq.stage_eq r)
  · rw [hreq.requests_eq] at hr
    have hne : r ≠ s.requests := by omega
    obtain ⟨ht, hlisted, hst, hp, hpending⟩ := h.fresh r (by omega)
    exact ⟨fun ht' => ht (hreq.inTable ht'), fun hl' => hlisted (hreq.listed_of r hl'),
      fun j => by rw [hreq.stage_eq, hst], by rw [hreq.phase_eq r hne, hp],
      by rw [hreq.ctx_eq r hne, hpending]⟩
  · rw [hreq.ctxs_eq] at he
    have hne : e.2 ≠ s.requests := fun heq => ht ⟨e.1, heq ▸ he⟩
    rw [hreq.ctx_eq _ hne]
    exact h.table_sn e he

/-- The thread of a request goes on. -/
theorem local_setPhase {s₁ : RockStream} {p : Phase} (hreq : s₁.requests = s.requests)
    (hctx : ∀ r', r' ≠ r → s₁.ctx r' = s.ctx r') (hsn : (s₁.ctx r).sn = (s.ctx r).sn)
    (hphase : s₁.phase = s.phase) (htable : ∀ e ∈ s₁.ctxs, e ∈ s.ctxs ∨ e = ((s.ctx r).sn, r))
    (hjob : s₁.job = s.job) : Local s r (s₁.setPhase r p) where
  requests_eq := hreq
  ctx_eq := hctx
  sn_eq := hsn
  phase_eq r' hne := by
    rw [← hphase]
    exact Function.update_of_ne hne _ _
  inTable_of r' hne := by
    rintro ⟨sn, he⟩
    rcases htable _ he with hold | heq
    · exact ⟨sn, hold⟩
    · exact absurd (congrArg Prod.snd heq) hne
  listed_of r' h := by
    obtain ⟨j, hj⟩ := h
    exact ⟨j, hjob ▸ hj⟩
  stage_eq r' _ := by
    funext j
    rw [stageOf, stageOf, ← hjob]
    rfl
  table_sn := htable

theorem Local.proceed_inv {p' : Phase} {timer pending : Bool} (hlocal : Local s r s') (h : Inv s)
    (hp : s.phase r ≠ .none) (hctx : s'.ctx r = { s.ctx r with timer := timer, pending := pending })
    (hphase : s'.phase r = p') (hp' : p' ≠ .addCtx) (hret : ∀ res rsp, p' ≠ .returned res rsp)
    (ht : InTable s' r → InTable s r ∨ s.phase r = .addCtx) (hjob : s'.job = s.job) : Inv s' := by
  have hr := h.lt_of_phase hp
  have hk := (h.known r hr).proceed timer pending hp' hret ht
  have hstage : stageOf s' r = stageOf s r := by
    funext j
    rw [stageOf, stageOf, hjob]
  refine hlocal.inv h hr ?_
  rw [Known, hctx, hphase, hstage]
  exact hk.mono id (hlocal.listed_of r)

theorem local_addCtx : Local s r ({ s with ctxs := if (s.ctxs.lookup (s.ctx r).sn).isSome then s.ctxs
    else ((s.ctx r).sn, r) :: s.ctxs }.setPhase r .addTimer) := by
  refine local_setPhase rfl (fun _ _ => rfl) rfl rfl (fun e he => ?_) rfl
  dsimp only at he
  split at he
  · exact .inl he
  · exact (List.mem_cons.mp he).symm

theorem addCtx_inv (h : Inv s) (ha : s.addCtx r = .ok s') : Inv s' := by
  rw [addCtx] at ha
  split at ha
  · next hp =>
    cases ha
    exact local_addCtx.proceed_inv h (show s.phase r ≠ .none by rw [hp]; nofun) rfl
      (Function.update_self ..) nofun nofun (fun _ => .inr hp) rfl
  · cases ha

/-- The timer of a request is seen to. -/
theorem local_setCtx_setPhase {c : RockCtx} (hsn : c.sn = (s.ctx r).sn) (p : Phase) :
    Local s r ((s.setCtx r c).setPhase r p) := by
  have hframe : Frame s r (s.setCtx r c) := frame_setCtx hsn
  exact local_setPhase rfl hframe.ctx_eq hframe.sn_eq rfl (fun _ he => .inl he) rfl

theorem addTimer_inv (h : Inv s) (ha : s.addTimer r = .ok s') : Inv s' := by
  rw [addTimer] at ha
  split at ha
  · next hp =>
    cases ha
    have hlocal : Local s r ((s.setCtx r { s.ctx r with pending := true }).setPhase r .setTimer) :=
      local_setCtx_setPhase (c := { s.ctx r with pending := true }) rfl _
    exact hlocal.proceed_inv h (show s.phase r ≠ .none by rw [hp]; nofun)
      (Function.update_self ..) (Function.update_self ..) nofun nofun .inl rfl
  · cases ha

theorem setTimer_inv (h : Inv s) (ha : s.setTimer r = .ok s') : Inv s' := by
  rw [setTimer] at ha
  split at ha
  · next hp =>
    cases ha
    have hlocal : Local s r ((s.setCtx r { s.ctx r with timer := true }).setPhase r .hold) :=
      local_setCtx_setPhase (c := { s.ctx r with timer := true }) rfl _
    exact hlocal.proceed_inv h (show s.phase r ≠ .none by rw [hp]; nofun)
      (Function.update_self ..) (Function.update_self ..) nofun nofun .inl rfl
  · cases ha

theorem resume_inv (h : Inv s) (ha : s.resume r = .ok s') : Inv s' := by
  rw [resume] at ha
  split at ha
  · next hp =>
    split at ha
    · cases ha
    · next hpos =>
      cases ha
      have hr := h.lt_of_phase (show s.phase r ≠ .none by rw [hp]; nofun)
      have hphase : (s.setPhase r (.returned (s.ctx r).result.toInt32 (s.ctx r).response)).phase r =
          .returned (s.ctx r).result.toInt32 (s.ctx r).response := Function.update_self ..
      have hlocal : Local s r
          (s.setPhase r (.returned (s.ctx r).result.toInt32 (s.ctx r).response)) :=
        local_setPhase rfl (fun _ _ => rfl) rfl rfl (fun _ he => .inl he) rfl
      refine hlocal.inv h hr ?_
      rw [Known, hphase]
      exact (h.known r hr).resume hpos
  · cases ha

theorem step_inv {op : Op} (h : Inv s) (hok : Sound s op) (hs : Step s op s') : Inv s' := by
  cases op with
  | request sn =>
    cases hs
    exact request_inv h sn
  | addCtx r => exact addCtx_inv h hs
  | addTimer r => exact addTimer_inv h hs
  | setTimer r => exact setTimer_inv h hs
  | resume r => exact resume_inv h hs
  | expire j r => exact expire_inv h hs
  | innerClose j => exact innerClose_inv h hs
  | swapCtxs j order => exact swapCtxs_inv h hs
  | doRecv j msg => exact doRecv_inv h hok hs
  | work j => exact work_inv h hok hs
  | reconnect =>
    cases hs
    exact h.same rfl rfl rfl rfl (fun _ hl => hl) (fun _ => rfl)

end Steps

/-! ## Runs -/

theorem inv_init : Inv init where
  known r hr := absurd hr (Nat.not_lt_zero r)
  fresh _ _ := ⟨fun ⟨_, he⟩ => (nomatch he), fun ⟨_, hj⟩ => (nomatch hj), fun _ => rfl, rfl, rfl⟩
  table_sn _ he := nomatch he

/-- The invariant is more than callers see. -/
theorem Inv.allMatched {s : RockStream} (h : Inv s) : AllMatched s := by
  intro r hr
  have hk := h.known r hr
  refine ⟨hk.win.scheduled_le, ?_, ?_, ?_⟩
  · intro res rsp hp
    rw [(hk.returned res rsp hp).2.1]
  · intro res m hp
    obtain ⟨-, htaken, hres⟩ := hk.returned res (some m) hp
    exact ⟨htaken.symm, (hk.taken m htaken.symm).1, hres m htaken.symm⟩
  · intro res rsp hp hcode
    obtain ⟨-, rfl, hres⟩ := hk.returned res rsp hp
    cases htaken : (s.ctx r).taken with
    | none => rfl
    | some m =>
      rw [hres m htaken] at hcode
      exact absurd hcode (hk.taken m htaken).2

/-- In every run in which no timer is due while a response is handed over, and no response
carries an error code, requests and responses are matched. -/
theorem run_matched (t : List (Op × RockStream)) (run : Run Step init t)
    (hok : Meets Sound init t) : Always AllMatched init t :=
  (always_of_meets (fun _ _ _ h hok hs => step_inv h hok hs) run inv_init hok).mono
    (fun _ h => h.allMatched)

/-- The thread of a request, up to the wait. -/
def call (sn : UInt32) (r : Nat) : List Op := [.request sn, .addCtx r, .addTimer r, .setTimer r]

/-- A response with sequence number 7. -/
def reply : RockResponse := { sn := 7, result := 0 }

/-- A request gets its response, and its timer is due afterwards. -/
theorem run_matched_reply : ∃ t,
    trace step init (call 7 0 ++ .doRecv 0 (some (.response reply)) :: List.replicate 7 (.work 0) ++
      [.resume 0]) = .ok t ∧ Always AllMatched init t := by
  refine ⟨_, rfl, run_matched _ (run_of_trace (call 7 0 ++ .doRecv 0 (some (.response reply)) ::
    List.replicate 7 (.work 0) ++ [.resume 0]) rfl) ?_⟩
  have hcode : ¬ErrorCode reply.result.toInt32 := by decide
  exact ⟨trivial, trivial, trivial, trivial, hcode, nofun, nofun, nofun, nofun, nofun, nofun,
    nofun, trivial, trivial⟩

/-- The timer is due while the response is handed over: the request returns `TIMEOUT`
together with the response. -/
theorem run_timeout_breaks_matched : ∃ t, Run Step init t ∧ ¬Always AllMatched init t := by
  refine ⟨_, run_of_trace (call 7 0 ++ [.doRecv 0 (some (.response reply)), .work 0, .work 0,
    .expire 1 0, .work 1, .work 1, .work 0, .work 0, .work 0, .work 0, .work 0, .resume 0]) rfl,
    fun h => ?_⟩
  have hlast := h.2 _ (List.mem_of_getElem? (show _[15]? = some _ from rfl))
  have hmatched := hlast 0 (by decide)
  have := hmatched.error_null TIMEOUT (some reply) rfl (.inl rfl)
  cases this

/-! ## Unknown responses -/

/-- `doRecv` of a response leaves the table as it is and the loop goes on to the next
message. -/
def Harmless (s : RockStream) (j : Nat) (rsp : RockResponse) : Prop :=
  ∃ s', s.doRecv j (some (.response rsp)) = .ok s' ∧ s'.ctxs = s.ctxs ∧ s'.job j = .loop []

/-- After every run, a response nobody waits for is written to a null context. -/
theorem run_unknown_response (t : List (Op × RockStream)) (_run : Run Step init t) (j : Nat)
    (rsp : RockResponse) (hjob : (last init t).job j = .loop [])
    (hsn : (last init t).ctxs.lookup rsp.sn = none) :
    (last init t).doRecv j (some (.response rsp)) = .error .nullContext ∧
      ¬Harmless (last init t) j rsp := by
  have hcrash : (last init t).doRecv j (some (.response rsp)) = .error .nullContext := by
    rw [doRecv.eq_def, hjob]
    simp only [hsn]
  refine ⟨hcrash, ?_⟩
  rintro ⟨s', hok, -⟩
  rw [hcrash] at hok
  cases hok

/-- A request that times out, and then its response. -/
def lateRun : List Op :=
  call 7 0 ++ .expire 1 0 :: List.replicate 7 (.work 1) ++ [.resume 0]

theorem run_late_response : ∃ t, Run Step init t ∧
    (last init t).phase 0 = .returned TIMEOUT none ∧
    (last init t).doRecv 0 (some (.response reply)) = .error .nullContext := by
  refine ⟨_, run_of_trace lateRun rfl, rfl, ?_⟩
  exact (run_unknown_response _ (run_of_trace lateRun rfl) 0 reply rfl rfl).1

theorem late_response_not_harmless : ∃ t, Run Step init t ∧ ¬Harmless (last init t) 0 reply := by
  refine ⟨_, run_of_trace lateRun rfl, ?_⟩
  rintro ⟨s', hok, -⟩
  cases hok

end CxkFramework.RockStream
