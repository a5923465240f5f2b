import CxkFramework.Runs

/-!
# Transactions over a pooled connection

`MySQLTransaction`: `Create` sends BEGIN, `commit` and `rollback` end the transaction, and the
destructor does one of the two. `commit` sends nothing once a statement has failed, so a
transaction that commits by itself is left open then. The constructor sets neither `m_isFinished`
nor `m_hasError`.
-/

namespace CxkFramework

namespace MySQLTransaction

/-- A statement, as what it is to the server. -/
inductive Statement where
  | begin
  | commit
  | rollback
  | other (sql : String)
  deriving DecidableEq, Repr

/-- COMMIT and ROLLBACK end a transaction. -/
def Statement.ends : Statement → Bool
  | .commit | .rollback => true
  | .begin | .other _ => false

end MySQLTransaction

open MySQLTransaction

structure MySQLTransaction where
  autoCommit : Bool
  isFinished : Bool
  hasError : Bool
  /-- what was sent on the connection so far, with the results of `mysql_query` -/
  sent : List (Statement × Int)
  deriving DecidableEq, Repr

namespace MySQLTransaction

open Runs

/-- `rt` is what `mysql_query` returns if the statement is sent. -/
def cmd (tx : MySQLTransaction) (sql : Statement) (rt : Int) : Int × MySQLTransaction :=
  if tx.isFinished then (-1, tx)
  else (rt, { tx with hasError := tx.hasError || rt != 0, sent := tx.sent ++ [(sql, rt)] })

def commit (tx : MySQLTransaction) (rt : Int) : Bool × MySQLTransaction :=
  if tx.isFinished || tx.hasError then (!tx.hasError, tx)
  else
    match tx.cmd .commit rt with
    | (rt, tx) =>
      if rt = 0 then (true, { tx with isFinished := true })
      else (false, { tx with hasError := true })

def rollback (tx : MySQLTransaction) (rt : Int) : Bool × MySQLTransaction :=
  if tx.isFinished then (true, tx)
  else
    match tx.cmd .rollback rt with
    | (rt, tx) =>
      if rt = 0 then (true, { tx with isFinished := true })
      else (false, { tx with hasError := true })

/-- `isFinished` and `hasError` are what the fields happen to hold. -/
def create (autoCommit isFinished hasError : Bool) (rt : Int) : Option MySQLTransaction :=
  match cmd { autoCommit, isFinished, hasError, sent := [] } .begin rt with
  | (rt, tx) => if rt = 0 then some tx else none

/-- The destructor. -/
def destroy (tx : MySQLTransaction) (rt : Int) : MySQLTransaction :=
  if tx.autoCommit then (tx.commit rt).2 else (tx.rollback rt).2

inductive Call where
  | cmd (sql : Statement) (rt : Int)
  | commit (rt : Int)
  | rollback (rt : Int)
  deriving DecidableEq, Repr

def call (tx : MySQLTransaction) : Call → MySQLTransaction
  | .cmd sql rt => (tx.cmd sql rt).2
  | .commit rt => (tx.commit rt).2
  | .rollback rt => (tx.rollback rt).2

def Step (tx : MySQLTransaction) (c : Call) (tx' : MySQLTransaction) : Prop := tx.call c = tx'

/-! ## Transactions that are ended -/

/-- Every BEGIN is followed by a COMMIT or a ROLLBACK. -/
def EveryBeginEnded (sent : List (Statement × Int)) : Prop :=
  ∀ (i : Nat) (rt : Int), sent[i]? = some (.begin, rt) → ∃ j q, i < j ∧ sent[j]? = some q ∧ q.1.ends = true

/-- No COMMIT comes after a statement that failed. -/
def NoCommitAfterFailure (sent : List (Statement × Int)) : Prop :=
  sent.Pairwise fun earlier later => later.1 = .commit → earlier.2 = 0

def Settled (sent : List (Statement × Int)) : Prop :=
  EveryBeginEnded sent ∧ NoCommitAfterFailure sent

/-- The caller does not send a COMMIT with `cmd` after a statement has failed. -/
def Careful (tx : MySQLTransaction) : Call → Prop
  | .cmd .commit _ => tx.isFinished = false → ∀ q ∈ tx.sent, q.2 = 0
  | _ => True

/-- What the destructor needs to find: it rolls back, or no statement has failed (and the field
did not start out set), or the end was tried already. -/
def Closing (tx : MySQLTransaction) : Prop :=
  tx.autoCommit = false ∨ tx.hasError = false ∨ EveryBeginEnded tx.sent

theorem everyBeginEnded_append {sent : List (Statement × Int)} {q : Statement × Int}
    (hq : q.1.ends = true) : EveryBeginEnded (sent ++ [q]) := by
  intro i rt hi
  refine ⟨sent.length, q, ?_, by simp, hq⟩
  by_contra hle
  have hlt := (List.getElem?_eq_some_iff.mp hi).1
  obtain rfl : i = sent.length := by
    rw [List.length_append, List.length_singleton] at hlt
    omega
  rw [List.getElem?_concat_length] at hi
  cases hi
  cases hq

theorem noCommitAfterFailure_append {sent : List (Statement × Int)} {q : Statement × Int} :
    NoCommitAfterFailure (sent ++ [q]) ↔
      NoCommitAfterFailure sent ∧ (q.1 = .commit → ∀ e ∈ sent, e.2 = 0) := by
  rw [NoCommitAfterFailure, List.pairwise_append]
  constructor
  · rintro ⟨hsent, -, hlast⟩
    exact ⟨hsent, fun hq e he => hlast e he q (List.mem_singleton_self q) hq⟩
  · rintro ⟨hsent, hlast⟩
    refine ⟨hsent, List.pairwise_singleton _ q, fun e he q' hq' hcommit => ?_⟩
    rw [List.mem_singleton.mp hq'] at hcommit
    exact hlast hcommit e he

/-! ## What the flags say -/

/-- A finished transaction has sent its end last, and a failed statement is remembered. -/
structure Inv (tx : MySQLTransaction) : Prop where
  finished : tx.isFinished = true → EveryBeginEnded tx.sent
  failed : ∀ q ∈ tx.sent, q.2 ≠ 0 → tx.hasError = true

variable {tx tx' : MySQLTransaction} {c : Call}

theorem Inv.succeeded (h : Inv tx) (herror : tx.hasError = false) : ∀ q ∈ tx.sent, q.2 = 0 := by
  intro q hq
  by_contra hne
  exact absurd (h.failed q hq hne) (by simp [herror])

/-- One statement more, and the flags after it. -/
theorem inv_send (h : Inv tx) {sql : Statement} {rt : Int} {finished : Bool}
    (hends : finished = true → sql.ends = true) :
    Inv { tx with
      isFinished := finished
      hasError := tx.hasError || rt != 0
      sent := tx.sent ++ [(sql, rt)] } where
  finished hf := everyBeginEnded_append (hends hf)
  failed := by
    intro q hq hne
    rcases List.mem_append.mp hq with hq | hq
    · simp [h.failed q hq hne]
    · rw [List.mem_singleton.mp hq] at hne
      simp [hne]

/-- What `commit` and `rollback` make of a transaction that is still open. -/
def ended (tx : MySQLTransaction) (sql : Statement) (rt : Int) : MySQLTransaction :=
  { tx with
    isFinished := rt == 0
    hasError := tx.hasError || rt != 0
    sent := tx.sent ++ [(sql, rt)] }

theorem cmd_open (hopen : tx.isFinished = false) (sql : Statement) (rt : Int) :
    tx.cmd sql rt =
      (rt, { tx with hasError := tx.hasError || rt != 0, sent := tx.sent ++ [(sql, rt)] }) := by
  rw [cmd, if_neg (by simp [hopen])]

theorem commit_open (hopen : tx.isFinished = false) (herror : tx.hasError = false) (rt : Int) :
    (tx.commit rt).2 = tx.ended .commit rt := by
  rw [commit, if_neg (by simp [hopen, herror]), cmd_open hopen]
  by_cases hrt : rt = 0
  · simp [hrt, ended]
  · simp [hrt, ended, hopen]

theorem rollback_open (hopen : tx.isFinished = false) (rt : Int) :
    (tx.rollback rt).2 = tx.ended .rollback rt := by
  rw [rollback, if_neg (by simp [hopen]), cmd_open hopen]
  by_cases hrt : rt = 0
  · simp [hrt, ended]
  · simp [hrt, ended, hopen]

theorem commit_closed (h : tx.isFinished = true ∨ tx.hasError = true) (rt : Int) :
    (tx.commit rt).2 = tx := by
  rw [commit, if_pos (by simpa using h)]

theorem rollback_closed (h : tx.isFinished = true) (rt : Int) : (tx.rollback rt).2 = tx := by
  rw [rollback, if_pos h]

/-- What a call does: nothing, or it sends one statement. -/
theorem step_cases (h : Step tx c tx') :
    tx' = tx ∧ Careful tx c ∨ tx.isFinished = false ∧
      ((∃ sql rt, c = .cmd sql rt ∧ tx' = (tx.cmd sql rt).2) ∨
        (Careful tx c ∧ tx.hasError = false ∧ ∃ rt, tx' = tx.ended .commit rt) ∨
        Careful tx c ∧ ∃ rt, tx' = tx.ended .rollback rt) := by
  subst h
  by_cases hopen : tx.isFinished = true
  · left
    cases c with
    | cmd sql rt =>
      refine ⟨congrArg Prod.snd (if_pos hopen), ?_⟩
      cases sql <;> simp [Careful, hopen]
    | commit rt => exact ⟨commit_closed (.inl hopen) rt, trivial⟩
    | rollback rt => exact ⟨rollback_closed hopen rt, trivial⟩
  · have hopen : tx.isFinished = false := by simpa using hopen
    cases c with
    | cmd sql rt => exact .inr ⟨hopen, .inl ⟨sql, rt, rfl, rfl⟩⟩
    | commit rt =>
      by_cases herror : tx.hasError = true
      · exact .inl ⟨commit_closed (.inr herror) rt, trivial⟩
      · have herror : tx.hasError = false := by simpa using herror
        exact .inr ⟨hopen, .inr (.inl ⟨trivial, herror, rt, commit_open hopen herror rt⟩)⟩
    | rollback rt => exact .inr ⟨hopen, .inr (.inr ⟨trivial, rt, rollback_open hopen rt⟩)⟩

theorem inv_step (hi : Inv tx) (h : Step tx c tx') : Inv tx' := by
  rcases step_cases h with ⟨rfl, -⟩ | ⟨hopen, ⟨sql, rt, -, rfl⟩ | ⟨-, -, rt, rfl⟩ | ⟨-, rt, rfl⟩⟩
  · exact hi
  · rw [cmd_open hopen]
    exact inv_send hi (by simp [hopen])
  · exact inv_send hi (fun _ => rfl)
  · exact inv_send hi (fun _ => rfl)

/-- A call keeps COMMIT away from failures exactly when it is careful. -/
theorem noCommitAfterFailure_step (hi : Inv tx) (hn : NoCommitAfterFailure tx.sent)
    (h : Step tx c tx') : NoCommitAfterFailure tx'.sent ↔ Careful tx c := by
  rcases step_cases h with ⟨rfl, hcareful⟩ | ⟨hopen, ⟨sql, rt, rfl, rfl⟩ |
    ⟨hcareful, herror, rt, rfl⟩ | ⟨hcareful, rt, rfl⟩⟩
  · exact iff_of_true hn hcareful
  · rw [cmd_open hopen, noCommitAfterFailure_append]
    cases sql <;> simp [hn, hopen, Careful]
  · refine iff_of_true ?_ hcareful
    exact noCommitAfterFailure_append.mpr ⟨hn, fun _ => hi.succeeded herror⟩
  · refine iff_of_true ?_ hcareful
    exact noCommitAfterFailure_append.mpr ⟨hn, nofun⟩

/-- What was sent stays sent. -/
theorem prefix_step (h : Step tx c tx') : tx.sent <+: tx'.sent := by
  rcases step_cases h with ⟨rfl, -⟩ | ⟨hopen, ⟨sql, rt, -, rfl⟩ | ⟨-, -, rt, rfl⟩ | ⟨-, rt, rfl⟩⟩
  · exact List.prefix_rfl
  · rw [cmd_open hopen]
    exact List.prefix_append tx.sent _
  · exact List.prefix_append tx.sent _
  · exact List.prefix_append tx.sent _

theorem NoCommitAfterFailure.of_prefix {sent sent' : List (Statement × Int)}
    (h : NoCommitAfterFailure sent') (hp : sent <+: sent') : NoCommitAfterFailure sent :=
  h.sublist hp.sublist

/-! ## Whole transactions -/

theorem inv_create {autoCommit isFinished hasError : Bool} {rt : Int}
    (h : create autoCommit isFinished hasError rt = some tx) :
    Inv tx ∧ NoCommitAfterFailure tx.sent := by
  rw [create] at h
  cases isFinished with
  | true => simp [cmd] at h
  | false =>
    have hinit : Inv { autoCommit, isFinished := false, hasError, sent := [] } := ⟨nofun, nofun⟩
    rw [cmd_open rfl] at h
    simp only at h
    split at h
    · cases h
      exact ⟨inv_send hinit nofun, List.pairwise_singleton _ _⟩
    · cases h

theorem prefix_run {t : List (Call × MySQLTransaction)} (run : Run Step tx t) :
    tx.sent <+: (last tx t).sent := by
  induction run with
  | nil tx => exact List.prefix_rfl
  | cons h _ ih => exact (prefix_step h).trans ih

theorem inv_run {t : List (Call × MySQLTransaction)} (run : Run Step tx t) (hi : Inv tx) :
    Inv (last tx t) :=
  (always_of_step (fun _ _ _ hi h => inv_step hi h) run hi).last

/-- A run keeps COMMIT away from failures exactly when every call is careful. -/
theorem noCommitAfterFailure_run {t : List (Call × MySQLTransaction)} (run : Run Step tx t)
    (hi : Inv tx) (hn : NoCommitAfterFailure tx.sent) :
    NoCommitAfterFailure (last tx t).sent ↔ Meets Careful tx t := by
  induction run with
  | nil tx => exact iff_of_true hn trivial
  | @cons tx tx₁ c t h hrun ih =>
    have hstep := noCommitAfterFailure_step hi hn h
    constructor
    · intro hlast
      have hn₁ : NoCommitAfterFailure tx₁.sent := hlast.of_prefix (prefix_run hrun)
      exact ⟨hstep.mp hn₁, (ih (inv_step hi h) hn₁).mp hlast⟩
    · rintro ⟨hok, hm⟩
      exact (ih (inv_step hi h) (hstep.mpr hok)).mpr hm

/-- The destructor ends the transaction exactly when it finds what it needs. -/
theorem settled_destroy (hi : Inv tx) (rt : Int) :
    Settled (tx.destroy rt).sent ↔ NoCommitAfterFailure tx.sent ∧ Closing tx := by
  by_cases hopen : tx.isFinished = true
  · have hclosed : tx.destroy rt = tx := by
      rw [destroy, commit_closed (.inl hopen), rollback_closed hopen, ite_self]
    have hended := hi.finished hopen
    rw [hclosed]
    exact ⟨fun h => ⟨h.2, .inr (.inr hended)⟩, fun h => ⟨hended, h.1⟩⟩
  have hopen : tx.isFinished = false := by simpa using hopen
  by_cases hauto : tx.autoCommit = true
  · rw [destroy, if_pos hauto]
    by_cases herror : tx.hasError = true
    · rw [commit_closed (.inr herror)]
      constructor
      · rintro ⟨hended, hn⟩
        exact ⟨hn, .inr (.inr hended)⟩
      · rintro ⟨hn, hc | hc | hc⟩
        · simp [hauto] at hc
        · simp [herror] at hc
        · exact ⟨hc, hn⟩
    · have herror : tx.hasError = false := by simpa using herror
      rw [commit_open hopen herror, ended, Settled, noCommitAfterFailure_append]
      constructor
      · rintro ⟨-, hn, -⟩
        exact ⟨hn, .inr (.inl herror)⟩
      · rintro ⟨hn, -⟩
        exact ⟨everyBeginEnded_append rfl, hn, fun _ => hi.succeeded herror⟩
  · have hauto : tx.autoCommit = false := by simpa using hauto
    rw [destroy, if_neg (by simp [hauto]), rollback_open hopen, ended, Settled,
      noCommitAfterFailure_append]
    constructor
    · rintro ⟨-, hn, -⟩
      exact ⟨hn, .inl hauto⟩
    · rintro ⟨hn, -⟩
      exact ⟨everyBeginEnded_append rfl, hn, nofun⟩

/-- Whatever is called with whatever results, a transaction is settled when it is gone exactly
when the calls were careful and the destructor found what it needs. -/
theorem run_settled_iff {autoCommit isFinished hasError : Bool} {rt rt' : Int}
    {t : List (Call × MySQLTransaction)} (h : create autoCommit isFinished hasError rt = some tx)
    (run : Run Step tx t) :
    Settled ((last tx t).destroy rt').sent ↔ Meets Careful tx t ∧ Closing (last tx t) := by
  obtain ⟨hi, hn⟩ := inv_create h
  rw [settled_destroy (inv_run run hi), noCommitAfterFailure_run run hi hn]

/-- The run that some calls make. -/
def play (tx : MySQLTransaction) : List Call → List (Call × MySQLTransaction)
  | [] => []
  | c :: calls => (c, tx.call c) :: play (tx.call c) calls

theorem run_play (tx : MySQLTransaction) (calls : List Call) : Run Step tx (tx.play calls) := by
  induction calls generalizing tx with
  | nil => exact .nil tx
  | cons c calls ih => exact .cons rfl (ih (tx.call c))

/-- BEGIN succeeded. -/
def begun (autoCommit : Bool) : MySQLTransaction where
  autoCommit := autoCommit
  isFinished := false
  hasError := false
  sent := [(.begin, 0)]

/-- A statement fails, the caller rolls back, and the destructor sends nothing. -/
theorem run_settled_rollback :
    Settled ((last (begun true) ((begun true).play [.cmd (.other "UPDATE") 1, .rollback 0])).destroy
      0).sent := by
  have run := run_play (begun true) [.cmd (.other "UPDATE") 1, .rollback 0]
  have hcreate : create true false false 0 = some (begun true) := rfl
  have hended : EveryBeginEnded ([(.begin, 0), (.other "UPDATE", 1)] ++ [(.rollback, 0)]) :=
    everyBeginEnded_append rfl
  exact (run_settled_iff hcreate run).mpr ⟨⟨trivial, trivial, trivial⟩, .inr (.inr hended)⟩

/-- A statement fails, and the transaction is gone without another one. -/
theorem not_settled_after_failure :
    create true false false 0 = some (begun true) ∧
    ¬Settled ((last (begun true) ((begun true).play [.cmd (.other "UPDATE") 1])).destroy 0).sent := by
  refine ⟨rfl, fun h => ?_⟩
  obtain ⟨j, q, hj, hq, hends⟩ := h.1 0 0 rfl
  have hsent : ((last (begun true) ((begun true).play [.cmd (.other "UPDATE") 1])).destroy 0).sent =
      [(.begin, 0), (.other "UPDATE", 1)] := rfl
  rw [hsent] at hq
  have hlt := (List.getElem?_eq_some_iff.mp hq).1
  obtain rfl : j = 1 := by
    simp only [List.length_cons, List.length_nil] at hlt
    omega
  cases hq
  cases hends

end MySQLTransaction

end CxkFramework
