import CxkFramework.RockStreamMatching

/-!
# The table of outstanding requests

`m_ctxs` is keyed by a number that callers choose. `insert` keeps the entry there is, so a second
request with the number of one in flight is not found by its response; and `onTimeOut` erases by
number, so it may take out the entry of another request. On a connected stream neither
happens if a number is used again only when nothing is left of its last request: no entry and
no timer that may still come to its `erase`.
-/

namespace CxkFramework.RockStream

open Runs

/-- The request was added and nobody has begun to complete it: its scheduler is there, no
response was taken for it, and its timeout has not come further than `erase`. -/
structure Waiting (s : RockStream) (r : Nat) : Prop where
  added : s.phase r = .addTimer ∨ s.phase r = .setTimer ∨ s.phase r = .hold
  scheduler_eq : (s.ctx r).scheduler = true
  erase : ∀ j st, stageOf s r j = some st → st = .erase

/-- Something is left of the request that can be found under its number or erases it. -/
def Occupies (s : RockStream) (r : Nat) : Prop :=
  InTable s r ∨ s.phase r = .addTimer ∨ (s.ctx r).pending = true ∨ ∃ j, stageOf s r j = some .erase

/-- Every request that waits is found under its number. -/
def Reachable (s : RockStream) : Prop := ∀ r, Waiting s r → s.ctxs.lookup (s.ctx r).sn = some r

/-- A timeout takes out no entry but its own. -/
def OwnErase (s : RockStream) (op : Op) (s' : RockStream) : Prop :=
  ∀ j r rest, op = .work j → s.job j = .on r .erase rest → ∀ e ∈ s.ctxs, e.2 ≠ r → e ∈ s'.ctxs

def Orderly (s : RockStream) (op : Op) (s' : RockStream) : Prop := Reachable s' ∧ OwnErase s op s'

/-- The stream stays connected. -/
def Connected (_ : RockStream) : Op → Prop
  | .innerClose _ | .swapCtxs _ _ | .doRecv _ none => False
  | _ => True

/-- A request is added when nothing is left of others with its number. -/
def Distinct (s : RockStream) : Op → Prop
  | .addCtx r => ∀ r', r' ≠ r → (s.ctx r').sn = (s.ctx r).sn → ¬Occupies s r'
  | _ => True

/-- The thread knows that the scheduler is taken. -/
def Stage.passed : Stage → Prop
  | .swap false | .cancelTimer | .applyTimed | .schedule => True
  | _ => False

structure OrderInv (s : RockStream) : Prop where
  table_sn : ∀ e ∈ s.ctxs, (s.ctx e.2).sn = e.1
  unique : ∀ r r', Occupies s r → Occupies s r' → (s.ctx r).sn = (s.ctx r').sn → r = r'
  waiting : ∀ r, Waiting s r → ((s.ctx r).sn, r) ∈ s.ctxs
  begun : ∀ r, s.phase r = .addCtx → ¬InTable s r
  passed : ∀ r j st, stageOf s r j = some st → st.passed → (s.ctx r).scheduler = false
  unlisted : ∀ r, ¬Listed s r
  fresh : ∀ r, s.requests ≤ r → ¬Occupies s r ∧ (∀ j, stageOf s r j = none) ∧ s.phase r = .none

section Steps

variable {s s' : RockStream} {r j : Nat}

theorem OrderInv.lt_of_occupies (h : OrderInv s) (ho : Occupies s r) : r < s.requests := by
  by_contra hge
  exact (h.fresh r (by omega)).1 ho

theorem OrderInv.lt_of_stage (h : OrderInv s) {st : Stage} (hj : stageOf s r j = some st) :
    r < s.requests := by
  by_contra hge
  rw [(h.fresh r (by omega)).2.1 j] at hj
  cases hj

theorem OrderInv.lt_of_phase (h : OrderInv s) (hp : s.phase r ≠ .none) : r < s.requests := by
  by_contra hge
  exact hp (h.fresh r (by omega)).2.2

/-- An entry with the number of a request that occupies it is its own. -/
theorem OrderInv.eq_of_mem (h : OrderInv s) (ho : Occupies s r) {e : UInt32 × Nat} (he : e ∈ s.ctxs)
    (hsn : e.1 = (s.ctx r).sn) : e.2 = r :=
  h.unique e.2 r (.inl ⟨e.1, he⟩) ho ((h.table_sn e he).trans hsn)

theorem OrderInv.reachable (h : OrderInv s) : Reachable s := by
  intro r hr
  have hmem := h.waiting r hr
  cases hlookup : s.ctxs.lookup (s.ctx r).sn with
  | none =>
    have hne := List.lookup_eq_none_iff.mp hlookup _ hmem
    simp at hne
  | some r' =>
    have heq : r' = r := h.eq_of_mem (.inl ⟨_, hmem⟩) (mem_of_lookup hlookup) rfl
    rw [heq]

/-- A step that concerns one request only. -/
theorem Local.orderInv (hl : Local s r s') (h : OrderInv s) (hr : r < s.requests)
    (hkeep : ∀ e ∈ s.ctxs, e.2 ≠ r → e ∈ s'.ctxs)
    (hocc : Occupies s' r →
      Occupies s r ∨ ∀ r', r' ≠ r → (s.ctx r').sn = (s.ctx r).sn → ¬Occupies s r')
    (hwait : Waiting s' r → ((s.ctx r).sn, r) ∈ s'.ctxs)
    (hbegun : s'.phase r = .addCtx → ¬InTable s' r)
    (hpassed : ∀ j st, stageOf s' r j = some st → st.passed → (s'.ctx r).scheduler = false) :
    OrderInv s' := by
  have hsn : ∀ r', (s'.ctx r').sn = (s.ctx r').sn := by
    intro r'
    by_cases heq : r' = r
    · rw [heq, hl.sn_eq]
    · rw [hl.ctx_eq r' heq]
  have hother : ∀ r', r' ≠ r → Occupies s' r' → Occupies s r' := by
    intro r' hne ho
    rw [Occupies, hl.phase_eq r' hne, hl.ctx_eq r' hne, hl.stage_eq r' hne] at ho
    exact ho.imp_left (hl.inTable_of r' hne)
  refine ⟨fun e he => ?_, fun r₁ r₂ h₁ h₂ heq => ?_, fun r' hr' => ?_, fun r' hp => ?_,
    fun r' j st hst hpass => ?_, fun r' hl' => h.unlisted r' (hl.listed_of r' hl'),
    fun r' hr' => ?_⟩
  · rw [hsn]
    rcases hl.table_sn e he with hold | rfl
    · exact h.table_sn e hold
    · rfl
  · rw [hsn, hsn] at heq
    by_cases hr₁ : r₁ = r
    · by_cases hr₂ : r₂ = r
      · rw [hr₁, hr₂]
      · subst hr₁
        rcases hocc h₁ with ho | hfree
        · exact h.unique r₁ r₂ ho (hother r₂ hr₂ h₂) heq
        · exact absurd (hother r₂ hr₂ h₂) (hfree r₂ hr₂ heq.symm)
    · by_cases hr₂ : r₂ = r
      · subst hr₂
        rcases hocc h₂ with ho | hfree
        · exact h.unique r₁ r₂ (hother r₁ hr₁ h₁) ho heq
        · exact absurd (hother r₁ hr₁ h₁) (hfree r₁ hr₁ heq)
      · exact h.unique r₁ r₂ (hother r₁ hr₁ h₁) (hother r₂ hr₂ h₂) heq
  · rw [hsn]
    by_cases hne : r' = r
    · subst hne
      exact hwait hr'
    · refine hkeep _ (h.waiting r' ⟨?_, ?_, ?_⟩) hne
      · rw [← hl.phase_eq r' hne]
        exact hr'.added
      · rw [← hl.ctx_eq r' hne]
        exact hr'.scheduler_eq
      · rw [← hl.stage_eq r' hne]
        exact hr'.erase
  · by_cases hne : r' = r
    · subst hne
      exact hbegun hp
    · rw [hl.phase_eq r' hne] at hp
      exact fun ht => h.begun r' hp (hl.inTable_of r' hne ht)
  · by_cases hne : r' = r
    · subst hne
      exact hpassed j st hst hpass
    · rw [hl.ctx_eq r' hne]
      rw [hl.stage_eq r' hne] at hst
      exact h.passed r' j st hst hpass
  · rw [hl.requests_eq] at hr'
    have hne : r' ≠ r := by omega
    obtain ⟨ho, hstage, hphase⟩ := h.fresh r' hr'
    refine ⟨fun ho' => ho (hother r' hne ho'), ?_, ?_⟩
    · rw [hl.stage_eq r' hne]
      exact hstage
    · rw [hl.phase_eq r' hne, hphase]

/-! ## The thread of a request -/

theorem addCtx_orderInv (h : OrderInv s) (hok : Distinct s (.addCtx r)) (ha : s.addCtx r = .ok s') :
    OrderInv s' := by
  rw [addCtx] at ha
  split at ha
  · next hp =>
    cases ha
    have hnone : ¬(s.ctxs.lookup (s.ctx r).sn).isSome := by
      intro hsome
      obtain ⟨r', hr'⟩ := Option.isSome_iff_exists.mp hsome
      have hmem := mem_of_lookup hr'
      have hne : r' ≠ r := by
        rintro rfl
        exact h.begun r' hp ⟨_, hmem⟩
      exact hok r' hne (h.table_sn _ hmem) (.inl ⟨_, hmem⟩)
    refine local_addCtx.orderInv h (h.lt_of_phase (by rw [hp]; rintro ⟨⟩)) (fun e he _ => ?_)
      (fun _ => .inr hok) (fun _ => ?_) (fun hp' => ?_) (h.passed r)
    · change e ∈ if _ then _ else _
      rw [if_neg hnone]
      exact List.mem_cons_of_mem _ he
    · change _ ∈ if _ then _ else _
      rw [if_neg hnone]
      exact List.mem_cons_self
    · simp only [setPhase, Function.update_self] at hp'
      cases hp'
  · cases ha

/-- The thread of a request goes on past `addCtx`, and does not arm another timer. -/
theorem phase_orderInv {c : RockCtx} {p : Phase} (h : OrderInv s) (hsn : c.sn = (s.ctx r).sn)
    (hscd : c.scheduler = (s.ctx r).scheduler)
    (hpending : c.pending = true → (s.ctx r).pending = true ∨ s.phase r = .addTimer)
    (hadded : s.phase r = .addTimer ∨ s.phase r = .setTimer ∨ s.phase r = .hold)
    (hp : p ≠ .addCtx ∧ p ≠ .addTimer) : OrderInv ((s.setCtx r c).setPhase r p) := by
  have hctx : ((s.setCtx r c).setPhase r p).ctx r = c := by simp [setCtx, setPhase]
  have hphase : ((s.setCtx r c).setPhase r p).phase r = p := by simp [setPhase]
  have hne : s.phase r ≠ .none := by
    intro hnone
    rw [hnone] at hadded
    simp at hadded
  refine (local_setCtx_setPhase hsn p).orderInv h (h.lt_of_phase hne) (fun e he _ => he)
    (fun ho => .inl ?_) (fun hw => ?_) (fun hp' => ?_) ?_
  · rcases ho with ht | hp' | hpend | hj
    · exact .inl ht
    · exact absurd (hphase ▸ hp') hp.2
    · rw [hctx] at hpend
      rcases hpending hpend with hold | hold
      · exact .inr (.inr (.inl hold))
      · exact .inr (.inl hold)
    · exact .inr (.inr (.inr hj))
  · refine h.waiting r ⟨hadded, ?_, hw.erase⟩
    rw [← hscd, ← hctx]
    exact hw.scheduler_eq
  · exact absurd (hphase ▸ hp') hp.1
  · rw [hctx, hscd]
    exact h.passed r

theorem addTimer_orderInv (h : OrderInv s) (ha : s.addTimer r = .ok s') : OrderInv s' := by
  rw [addTimer] at ha
  split at ha
  · next hp =>
    cases ha
    exact phase_orderInv h rfl rfl (fun _ => .inr hp) (.inl hp) ⟨by rintro ⟨⟩, by rintro ⟨⟩⟩
  · cases ha

theorem setTimer_orderInv (h : OrderInv s) (ha : s.setTimer r = .ok s') : OrderInv s' := by
  rw [setTimer] at ha
  split at ha
  · next hp =>
    cases ha
    exact phase_orderInv h rfl rfl .inl (.inr (.inl hp)) ⟨by rintro ⟨⟩, by rintro ⟨⟩⟩
  · cases ha

theorem resume_orderInv (h : OrderInv s) (ha : s.resume r = .ok s') : OrderInv s' := by
  rw [resume] at ha
  split at ha
  · next hp =>
    split at ha
    · cases ha
    · cases ha
      have hself : s.setCtx r (s.ctx r) = s := by rw [setCtx, Function.update_eq_self]
      have hkeep := phase_orderInv (p := .returned (s.ctx r).result.toInt32 (s.ctx r).response) h
        rfl rfl .inl (.inr (.inr hp)) ⟨by rintro ⟨⟩, by rintro ⟨⟩⟩
      rwa [hself] at hkeep
  · cases ha

theorem request_orderInv (h : OrderInv s) (sn : UInt32) : OrderInv (s.request sn) := by
  obtain ⟨ho, hst, -⟩ := h.fresh s.requests le_rfl
  have hreq := requested s sn
  -- the new context is not found by anybody yet
  have hnew : ¬Occupies (s.request sn) s.requests := by
    rw [Occupies, hreq.ctx_self, hreq.stage_eq]
    rintro (ht | hp | hp | ⟨j, hj⟩)
    · exact ho (.inl (hreq.inTable ht))
    · rcases hreq.phase_self with hself | hself
      · rw [hself] at hp
        cases hp
      · rw [hself] at hp
        cases hp
    · cases hp
    · exact ho (.inr (.inr (.inr ⟨j, hj⟩)))
  have hother : ∀ r, Occupies (s.request sn) r → r ≠ s.requests ∧ Occupies s r := by
    intro r hr
    have hne : r ≠ s.requests := by
      rintro rfl
      exact hnew hr
    rw [Occupies, hreq.ctx_eq r hne, hreq.phase_eq r hne, hreq.stage_eq] at hr
    exact ⟨hne, hr.imp_left hreq.inTable⟩
  refine ⟨fun e he => ?_, fun r₁ r₂ h₁ h₂ heq => ?_, fun r hr => ?_, fun r hp ht => ?_,
    fun r j st hj hpass => ?_, fun r hl => h.unlisted r (hreq.listed_of r hl), fun r hr => ?_⟩
  · rw [hreq.ctxs_eq] at he
    have hne : e.2 ≠ s.requests := fun heq => ho (.inl ⟨e.1, heq ▸ he⟩)
    rw [hreq.ctx_eq _ hne]
    exact h.table_sn e he
  · obtain ⟨hne₁, ho₁⟩ := hother r₁ h₁
    obtain ⟨hne₂, ho₂⟩ := hother r₂ h₂
    rw [hreq.ctx_eq r₁ hne₁, hreq.ctx_eq r₂ hne₂] at heq
    exact h.unique r₁ r₂ ho₁ ho₂ heq
  · have hne : r ≠ s.requests := by
      rintro rfl
      rcases hreq.phase_self with hself | hself
      all_goals
        have hadded := hr.added
        rw [hself] at hadded
        simp at hadded
    rw [hreq.ctxs_eq, hreq.ctx_eq r hne]
    refine h.waiting r ⟨?_, ?_, ?_⟩
    · rw [← hreq.phase_eq r hne]
      exact hr.added
    · rw [← hreq.ctx_eq r hne]
      exact hr.scheduler_eq
    · rw [← hreq.stage_eq]
      exact hr.erase
  · by_cases hne : r = s.requests
    · subst hne
      exact ho (.inl (hreq.inTable ht))
    · rw [hreq.phase_eq r hne] at hp
      exact h.begun r hp (hreq.inTable ht)
  · rw [hreq.stage_eq] at hj
    have hne : r ≠ s.requests := by
      rintro rfl
      rw [hst j] at hj
      cases hj
    rw [hreq.ctx_eq r hne]
    exact h.passed r j st hj hpass
  · rw [hreq.requests_eq] at hr
    have hne : r ≠ s.requests := by omega
    obtain ⟨ho', hst', hp'⟩ := h.fresh r (by omega)
    refine ⟨fun hr' => ho' (hother r hr').2, ?_, ?_⟩
    · rw [hreq.stage_eq]
      exact hst'
    · rw [hreq.phase_eq r hne, hp']

/-! ## The threads that complete requests -/

theorem expire_orderInv (h : OrderInv s) (he : s.expire j r = .ok s') : OrderInv s' := by
  rw [expire] at he
  split at he
  · next hjob =>
    split at he
    · next hpending =>
      cases he
      have ho : Occupies s r := .inr (.inr (.inl hpending))
      have hctx : ((s.setCtx r { s.ctx r with pending := false }).setJob j (.on r .erase [])).ctx r =
          { s.ctx r with pending := false } := by simp [setCtx, setJob]
      have hstage : stageOf ((s.setCtx r { s.ctx r with pending := false }).setJob j
          (.on r .erase [])) r = Function.update (stageOf s r) j (some .erase) := by
        rw [stageOf_setJob, Job.stageOn, if_pos rfl]
        rfl
      refine (local_expire hjob).orderInv h (h.lt_of_occupies ho) (fun e he _ => he)
        (fun _ => .inl ho) (fun hw => ?_) (h.begun r) (fun j' st hst hpass => ?_)
      · refine h.waiting r ⟨hw.added, ?_, fun j' st hst => ?_⟩
        · have hscd := hw.scheduler_eq
          rwa [hctx] at hscd
        · by_cases hj' : j' = j
          · subst hj'
            rw [stageOf, hjob] at hst
            cases hst
          · refine hw.erase j' st ?_
            rw [hstage, Function.update_of_ne hj', hst]
      · rw [hctx]
        rw [hstage] at hst
        rcases update_eq_some hst with ⟨-, ⟨⟩⟩ | ⟨-, hold⟩
        · cases hpass
        · exact h.passed r j' st hold hpass
    · cases he
  · cases he

/-- A response is taken for a request. -/
theorem take_orderInv {rsp : RockResponse} (h : OrderInv s) (hjob : s.job j = .loop [])
    (hlookup : s.ctxs.lookup rsp.sn = some r) (taken : Option RockResponse) :
    OrderInv (({ s with ctxs := s.without rsp.sn }.setCtx r { s.ctx r with taken := taken }).setJob j
      (.on r (.setResult rsp.result (some rsp)) [])) := by
  have hmem := mem_of_lookup hlookup
  have hin : InTable s r := ⟨_, hmem⟩
  have hsn : (s.ctx r).sn = rsp.sn := h.table_sn _ hmem
  have hstage : stageOf (({ s with ctxs := s.without rsp.sn }.setCtx r
      { s.ctx r with taken := taken }).setJob j (.on r (.setResult rsp.result (some rsp)) [])) r =
      Function.update (stageOf s r) j (some (.setResult rsp.result (some rsp))) := by
    rw [stageOf_setJob, Job.stageOn, if_pos rfl]
    rfl
  refine (local_take hjob taken).orderInv h (h.lt_of_occupies (.inl hin)) (fun e he hne => ?_)
    (fun _ => .inl (.inl hin)) (fun hw => ?_) (fun hp => absurd hin (h.begun r hp))
    (fun j' st hst hpass => ?_)
  · refine List.mem_filter.mpr ⟨he, decide_eq_true fun heq => hne ?_⟩
    exact h.eq_of_mem (.inl hin) he (heq.trans hsn.symm)
  · have hst := hw.erase j _ (by rw [hstage, Function.update_self])
    cases hst
  · rw [hstage] at hst
    have hctx : (({ s with ctxs := s.without rsp.sn }.setCtx r { s.ctx r with taken := taken }).setJob j
        (.on r (.setResult rsp.result (some rsp)) [])).ctx r = { s.ctx r with taken := taken } := by
      simp [setCtx, setJob]
    rw [hctx]
    rcases update_eq_some hst with ⟨-, ⟨⟩⟩ | ⟨-, hold⟩
    · cases hpass
    · exact h.passed r j' st hold hpass

theorem doRecv_orderInv {msg : Option RockMessage} (h : OrderInv s)
    (hconn : Connected s (.doRecv j msg)) (hd : s.doRecv j msg = .ok s') : OrderInv s' := by
  unfold doRecv at hd
  split at hd
  · next hjob =>
    cases msg with
    | none => exact hconn.elim
    | some msg =>
      cases msg with
      | response rsp =>
        dsimp only at hd
        split at hd
        · cases hd
        · next r hlookup =>
          cases hd
          exact take_orderInv h hjob hlookup _
      | request msg =>
        cases hd
        exact h
      | notify msg =>
        cases hd
        exact h
  · cases hd

/-- `erase` by a request takes out its own entry. -/
theorem erase_keeps {rest : List Nat} (h : OrderInv s) (hjob : s.job j = .on r .erase rest)
    {e : UInt32 × Nat} (he : e ∈ s.ctxs) (hne : e.2 ≠ r) : e ∈ (s.advance r .erase).1.ctxs := by
  have ho : Occupies s r := by
    refine .inr (.inr (.inr ⟨j, ?_⟩))
    rw [stageOf, hjob, Job.stageOn, if_pos rfl]
  exact List.mem_filter.mpr ⟨he, decide_eq_true fun heq => hne (h.eq_of_mem ho he heq)⟩

/-- What a line of work other than `erase` does with the context and the table. -/
theorem advance_ctxs {st : Stage} (hst : st ≠ .erase) : (s.advance r st).1.ctxs = s.ctxs := by
  cases st with
  | erase => exact absurd rfl hst
  | swap scd | cancelTimer | applyTimed | schedule =>
    simp only [advance]
    split <;> rfl
  | _ => rfl

theorem advance_pending {st : Stage} (h : ((s.advance r st).1.ctx r).pending = true) :
    (s.ctx r).pending = true := by
  cases st with
  | erase | doRsp => exact h
  | setTimed | setResult | setResponse =>
    simp only [advance, setCtx, Function.update_self] at h
    exact h
  | swap scd | cancelTimer | applyTimed | schedule =>
    simp only [advance] at h
    split at h
    · simp only [setCtx, Function.update_self] at h
      first | exact h | cases h
    · exact h

/-- Whoever leaves a context or goes on past the exchange leaves it without a scheduler. -/
structure Advanced (c : RockCtx) (c' : RockCtx) (next : Option Stage) : Prop where
  left : next = none → c'.scheduler = false
  ne_erase : next ≠ some .erase
  passed : ∀ st, next = some st → st.passed → c'.scheduler = false
  kept : c.scheduler = false → c'.scheduler = false

theorem Advanced.of_left {c c' : RockCtx} {next : Option Stage} (hfalse : c'.scheduler = false)
    (hne : next ≠ some .erase) : Advanced c c' next :=
  ⟨fun _ => hfalse, hne, fun _ _ _ => hfalse, fun _ => hfalse⟩

theorem advanced {st : Stage} (hp : st.passed → (s.ctx r).scheduler = false) :
    Advanced (s.ctx r) ((s.advance r st).1.ctx r) (s.advance r st).2 := by
  have hset : ∀ c, (s.setCtx r c).ctx r = c := fun c => by simp [setCtx]
  cases st with
  | erase => exact ⟨by rintro ⟨⟩, by rintro ⟨⟩, by rintro _ ⟨⟩ ⟨⟩, id⟩
  | setTimed =>
    simp only [advance, hset]
    exact ⟨by rintro ⟨⟩, by rintro ⟨⟩, by rintro _ ⟨⟩ ⟨⟩, id⟩
  | setResult v rsp =>
    simp only [advance, hset]
    refine ⟨by rintro ⟨⟩, ?_, ?_, id⟩
    · cases rsp <;> rintro ⟨⟩
    · cases rsp <;> rintro _ ⟨⟩ ⟨⟩
  | setResponse rsp =>
    simp only [advance, hset]
    exact ⟨by rintro ⟨⟩, by rintro ⟨⟩, by rintro _ ⟨⟩ ⟨⟩, id⟩
  | doRsp =>
    refine ⟨by rintro ⟨⟩, by rintro ⟨⟩, ?_, id⟩
    rintro _ ⟨⟩ hpass
    cases hscd : (s.ctx r).scheduler with
    | false => exact hscd
    | true =>
      simp only [hscd] at hpass
      exact hpass.elim
  | swap scd =>
    simp only [advance]
    by_cases hcas : (s.ctx r).scheduler = scd
    · rw [if_pos hcas, hset]
      refine .of_left rfl ?_
      split <;> rintro ⟨⟩
    · rw [if_neg hcas]
      have hfalse : (s.ctx r).scheduler = false := by
        cases scd with
        | true => simpa using hcas
        | false => exact hp trivial
      exact .of_left hfalse (by rintro ⟨⟩)
  | cancelTimer =>
    have hfalse := hp trivial
    simp only [advance]
    split
    · rw [hset]
      exact .of_left hfalse (by rintro ⟨⟩)
    · exact .of_left hfalse (by rintro ⟨⟩)
  | applyTimed =>
    have hfalse := hp trivial
    simp only [advance]
    split
    · rw [hset]
      exact .of_left hfalse (by rintro ⟨⟩)
    · exact .of_left hfalse (by rintro ⟨⟩)
  | schedule =>
    have hfalse := hp trivial
    simp only [advance]
    split
    · rw [hset]
      exact .of_left hfalse (by rintro ⟨⟩)
    · exact .of_left hfalse (by rintro ⟨⟩)

theorem advance_orderInv {st : Stage} {rest : List Nat} (h : OrderInv s)
    (hjob : s.job j = .on r st rest) :
    OrderInv ((s.advance r st).1.setJob j (nextJob r rest (s.advance r st).2)) := by
  have hj : stageOf s r j = some st := by simp [stageOf, hjob, Job.stageOn]
  have hadv := advanced (h.passed r j st hj)
  have hphase : ((s.advance r st).1.setJob j (nextJob r rest (s.advance r st).2)).phase = s.phase :=
    (advance_frame st).phase_eq
  have hctxs : ∀ e ∈ (s.advance r st).1.ctxs, e ∈ s.ctxs := (advance_frame st).ctxs_of
  refine (local_advance hjob).orderInv h (h.lt_of_stage hj) (fun e he hne => ?_)
    (fun ho => .inl ?_) (fun hw => ?_) (fun hp ht => ?_) (fun j' st' hst' hpass => ?_)
  · by_cases hst : st = .erase
    · subst hst
      exact erase_keeps h hjob he hne
    · change e ∈ (s.advance r st).1.ctxs
      rwa [advance_ctxs hst]
  · rw [Occupies, stageOf_advance, hphase] at ho
    rcases ho with ⟨sn, he⟩ | hp | hpend | ⟨j', hj'⟩
    · exact .inl ⟨sn, hctxs _ he⟩
    · exact .inr (.inl hp)
    · exact .inr (.inr (.inl (advance_pending hpend)))
    · rcases update_eq_some hj' with ⟨-, hnext⟩ | ⟨-, hold⟩
      · exact absurd hnext hadv.ne_erase
      · exact .inr (.inr (.inr ⟨j', hold⟩))
  · -- the request does not wait any more
    have hscd : ((s.advance r st).1.ctx r).scheduler = true := hw.scheduler_eq
    cases hnext : (s.advance r st).2 with
    | none =>
      rw [hadv.left hnext] at hscd
      cases hscd
    | some st' =>
      have hst' := hw.erase j st' (by rw [stageOf_advance, Function.update_self, hnext])
      rw [hst'] at hnext
      exact absurd hnext hadv.ne_erase
  · rw [hphase] at hp
    obtain ⟨sn, he⟩ := ht
    exact h.begun r hp ⟨sn, hctxs _ he⟩
  · rw [stageOf_advance] at hst'
    rcases update_eq_some hst' with ⟨-, hnext⟩ | ⟨-, hold⟩
    · exact hadv.passed st' hnext hpass
    · exact hadv.kept (h.passed r j' st' hold hpass)

theorem work_orderInv (h : OrderInv s) (hw : s.work j = .ok s') : OrderInv s' := by
  rw [work] at hw
  split at hw
  · cases hw
  · next r rest hjob =>
    exact absurd ⟨j, by rw [hjob]; exact List.mem_cons_self⟩ (h.unlisted r)
  · next r st rest hjob =>
    cases hw
    exact advance_orderInv h hjob
  · cases hw

theorem step_orderInv {op : Op} (h : OrderInv s) (hconn : Connected s op) (hok : Distinct s op)
    (hs : Step s op s') : OrderInv s' := by
  cases op with
  | request sn =>
    cases hs
    exact request_orderInv h sn
  | addCtx r => exact addCtx_orderInv h hok hs
  | addTimer r => exact addTimer_orderInv h hs
  | setTimer r => exact setTimer_orderInv h hs
  | resume r => exact resume_orderInv h hs
  | expire j r => exact expire_orderInv h hs
  | innerClose j => exact hconn.elim
  | swapCtxs j order => exact hconn.elim
  | doRecv j msg => exact doRecv_orderInv h hconn hs
  | work j => exact work_orderInv h hs
  | reconnect =>
    cases hs
    exact ⟨h.table_sn, h.unique, fun r hr => h.waiting r ⟨hr.added, hr.scheduler_eq, hr.erase⟩,
      h.begun, h.passed, h.unlisted, h.fresh⟩

theorem step_ownErase {op : Op} (h : OrderInv s) (hs : Step s op s') : OwnErase s op s' := by
  rintro j r rest rfl hjob e he hne
  rw [Step, step, work, hjob] at hs
  cases hs
  exact erase_keeps h hjob he hne

end Steps

/-! ## Runs -/

theorem orderInv_init : OrderInv init where
  table_sn _ he := nomatch he
  unique r r' hr := by
    rcases hr with ⟨_, he⟩ | hp | hp | ⟨_, hj⟩
    · cases he
    · cases hp
    · cases hp
    · cases hj
  waiting r hr := by
    rcases hr.added with hp | hp | hp <;> cases hp
  begun _ hp := nomatch hp
  passed _ _ _ hj := nomatch hj
  unlisted := fun _ ⟨_, hj⟩ => (nomatch hj)
  fresh r _ := by
    refine ⟨?_, fun _ => rfl, rfl⟩
    rintro (⟨_, he⟩ | hp | hp | ⟨_, hj⟩)
    · cases he
    · cases hp
    · cases hp
    · cases hj

/-- In every run of a connected stream in which no request is added while something is left of
another one with its number, every request that waits is found under its number, and timeouts
take out no other requests. -/
theorem run_orderly (t : List (Op × RockStream)) (run : Run Step init t)
    (hconn : Meets Connected init t) (hok : Meets Distinct init t) : Every Orderly init t := by
  have keep : ∀ s op s', OrderInv s → Connected s op ∧ Distinct s op → Step s op s' → OrderInv s' :=
    fun _ _ _ h hok hs => step_orderInv h hok.1 hok.2 hs
  exact every_of_meets keep
    (fun _ _ _ h hok hs => ⟨(keep _ _ _ h hok hs).reachable, step_ownErase h hs⟩) run orderInv_init
    (hconn.and hok)

/-- Two requests with different numbers; the first one times out. -/
theorem run_orderly_timeout : ∃ t, Run Step init t ∧ (last init t).ctxs = [(8, 1)] ∧
    Every Orderly init t := by
  have run := run_of_trace (f := step) (s := init) (call 7 0 ++ call 8 1 ++ [.expire 0 0, .work 0]) rfl
  refine ⟨_, run, rfl, run_orderly _ run ?_ ?_⟩
  · exact ⟨trivial, trivial, trivial, trivial, trivial, trivial, trivial, trivial, trivial, trivial,
      trivial⟩
  · refine ⟨trivial, fun r' hne hsn => ?_, trivial, trivial, trivial, fun r' hne hsn => ?_, trivial,
      trivial, trivial, trivial, trivial⟩
    · change (Function.update init.ctx 0 { sn := 7 } r').sn = 7 at hsn
      rw [Function.update_of_ne hne] at hsn
      change (0 : UInt32) = 7 at hsn
      exact absurd hsn (by decide)
    · cases r' with
      | zero => exact absurd hsn (by decide)
      | succ r' =>
        cases r' with
        | zero => exact absurd rfl hne
        | succ r' =>
          change (0 : UInt32) = 8 at hsn
          exact absurd hsn (by decide)

/-- The second request with a number is not in the table, and its timeout takes out the first. -/
theorem run_clash_breaks_orderly : ∃ t, Run Step init t ∧ Meets Connected init t ∧
    ¬Always Reachable init t ∧ ¬Every OwnErase init t := by
  have run := run_of_trace (f := step) (s := init) (call 7 0 ++ call 7 1 ++ [.expire 0 1, .work 0]) rfl
  refine ⟨_, run, ?_, ?_, ?_⟩
  · exact ⟨trivial, trivial, trivial, trivial, trivial, trivial, trivial, trivial, trivial, trivial,
      trivial⟩
  · intro h
    have hreach := h.2 _ (.tail _ (.tail _ (.tail _ (.tail _ (.tail _ (.head _)))))) 1
      ⟨.inl rfl, rfl, nofun⟩
    revert hreach
    decide
  · rintro ⟨-, -, -, -, -, -, -, -, -, herase, -⟩
    have hmem := herase 0 1 [] rfl rfl (7, 0) (by decide) (by decide)
    revert hmem
    decide

end CxkFramework.RockStream
