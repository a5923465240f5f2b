import CxkFramework.Runs

/-!
# Transactions of an SQLite connection

`SQLite3Transaction` keeps with one status what it began and how it ended. Its destructor sends one
closing statement for a transaction that is still open; when that is a COMMIT, it can fail.
-/

namespace CxkFramework

/-- `SQLite3Transaction::Type`. -/
inductive TransactionType where
  | deferred
  | immediate
  | exclusive
  deriving DecidableEq, Repr

namespace SQLite3

/-- The statements of a transaction: BEGIN with the type it names, COMMIT and ROLLBACK. -/
inductive Statement where
  | begin (type : TransactionType)
  | commit
  | rollback
  deriving DecidableEq, Repr

def Statement.isBegin : Statement → Bool
  | .begin _ => true
  | .commit | .rollback => false

end SQLite3

open SQLite3

/-- The connection: what was sent on it with the result codes, and whether a transaction is open. -/
structure SQLite3 where
  sent : List (Statement × Int)
  isOpen : Bool
  deriving DecidableEq, Repr

def SQLITE_OK : Int := 0

/-- The result of a statement: any, but that a ROLLBACK of an open transaction succeeds. -/
def SQLite3.result (db : SQLite3) (sql : Statement) (rc : Int) : Int :=
  if sql = .rollback ∧ db.isOpen = true then SQLITE_OK else rc

/-- `rc` is what `sqlite3_exec` returns. A COMMIT that fails leaves the transaction open. -/
def SQLite3.execute (db : SQLite3) (sql : Statement) (rc : Int) : Int × SQLite3 :=
  (db.result sql rc, {
    sent := db.sent ++ [(sql, db.result sql rc)]
    isOpen := if db.result sql rc = SQLITE_OK then sql.isBegin else db.isOpen })

/-- `status`: 0 not begun, 1 not ended, 2 committed, 3 rolled back. -/
structure SQLite3Transaction where
  db : SQLite3
  type : TransactionType
  status : Int8
  autoCommit : Bool
  deriving DecidableEq, Repr

namespace SQLite3Transaction

open Runs

/-- The constructor, on a connection without a transaction. -/
def create (autoCommit : Bool) (type : TransactionType) : SQLite3Transaction where
  db := { sent := [], isOpen := false }
  type := type
  status := 0
  autoCommit := autoCommit

/-- Send a statement, and set the status when it succeeds. -/
def send (tx : SQLite3Transaction) (sql : Statement) (status : Int8) (rc : Int) :
    Int × SQLite3Transaction :=
  let (rt, db) := tx.db.execute sql rc
  (rt, { tx with db, status := if rt = SQLITE_OK then status else tx.status })

def begin (tx : SQLite3Transaction) (rc : Int) : Int × SQLite3Transaction :=
  if tx.status = 0 then tx.send (.begin tx.type) 1 rc else (-1, tx)

def commit (tx : SQLite3Transaction) (rc : Int) : Int × SQLite3Transaction :=
  if tx.status = 1 then tx.send .commit 2 rc else (-2, tx)

def rollback (tx : SQLite3Transaction) (rc : Int) : Int × SQLite3Transaction :=
  if tx.status = 1 then tx.send .rollback 3 rc else (-3, tx)

/-- The destructor. When the statement fails it logs that. -/
def destroy (tx : SQLite3Transaction) (rc : Int) : SQLite3Transaction :=
  if tx.status = 1 then
    if tx.autoCommit then (tx.commit rc).2 else (tx.rollback rc).2
  else tx

/-- A call, with the result code of the statement it sends. -/
inductive Call where
  | begin (rc : Int)
  | commit (rc : Int)
  | rollback (rc : Int)
  deriving DecidableEq, Repr

def call (tx : SQLite3Transaction) : Call → SQLite3Transaction
  | .begin rc => (tx.begin rc).2
  | .commit rc => (tx.commit rc).2
  | .rollback rc => (tx.rollback rc).2

def Step (tx : SQLite3Transaction) (c : Call) (tx' : SQLite3Transaction) : Prop := tx.call c = tx'

/-! ## What the status says -/

/-- No BEGIN comes after one that succeeded. -/
def BeginsOnce (sent : List (Statement × Int)) : Prop :=
  sent.Pairwise fun earlier later =>
    earlier.1.isBegin = true → earlier.2 = SQLITE_OK → later.1.isBegin = false

/-- BEGIN was sent, whatever came of it. -/
def Tried (sent : List (Statement × Int)) : Prop := ∃ q ∈ sent, q.1.isBegin = true

/-- At most one BEGIN is sent. -/
def SingleBegin (sent : List (Statement × Int)) : Prop :=
  sent.Pairwise fun earlier later => earlier.1.isBegin = true → later.1.isBegin = false

instance (sent : List (Statement × Int)) : Decidable (Tried sent) :=
  inferInstanceAs (Decidable (∃ q ∈ sent, _))

structure Inv (tx : SQLite3Transaction) : Prop where
  open_iff : tx.status = 1 ↔ tx.db.isOpen = true
  fresh : tx.status = 0 → ∀ q ∈ tx.db.sent, q.1.isBegin = true → q.2 ≠ SQLITE_OK
  once : BeginsOnce tx.db.sent

variable {tx tx' : SQLite3Transaction} {c : Call}

theorem inv_create (autoCommit : Bool) (type : TransactionType) : Inv (create autoCommit type) where
  open_iff := by simp [create]
  fresh _ := nofun
  once := List.Pairwise.nil

theorem pairwise_snoc {R : Statement × Int → Statement × Int → Prop}
    {sent : List (Statement × Int)} {q : Statement × Int} :
    (sent ++ [q]).Pairwise R ↔ sent.Pairwise R ∧ ∀ e ∈ sent, R e q := by
  rw [List.pairwise_append]
  constructor
  · rintro ⟨hsent, -, hlast⟩
    exact ⟨hsent, fun e he => hlast e he q (List.mem_singleton_self q)⟩
  · rintro ⟨hsent, hlast⟩
    refine ⟨hsent, List.pairwise_singleton _ q, fun e he q' hq' => ?_⟩
    rw [List.mem_singleton.mp hq']
    exact hlast e he

/-- BEGIN from status 0: either it succeeds and the transaction is open, or nothing is. -/
theorem inv_begin (h : Inv tx) (hstatus : tx.status = 0) (rc : Int) :
    Inv (tx.send (.begin tx.type) 1 rc).2 where
  open_iff := by
    have hopen : tx.db.isOpen = false := by
      have := h.open_iff
      simpa [hstatus] using this
    by_cases hrc : rc = SQLITE_OK
    · simp [send, execute, SQLite3.result, hrc, Statement.isBegin]
    · simp [send, execute, SQLite3.result, hrc, hstatus, hopen]
  fresh := by
    intro hzero q hq hbegin
    have hrc : rc ≠ SQLITE_OK := by
      rintro rfl
      simp [send, execute, SQLite3.result] at hzero
    rcases List.mem_append.mp hq with hq | hq
    · exact h.fresh hstatus q hq hbegin
    · rw [List.mem_singleton.mp hq]
      simpa [SQLite3.result] using hrc
  once := by
    refine pairwise_snoc.mpr ⟨h.once, fun e he hbegin hok => ?_⟩
    exact absurd hok (h.fresh hstatus e he hbegin)

/-- A closing statement from status 1: the status moves on exactly when it succeeds. -/
theorem inv_close (h : Inv tx) (hstatus : tx.status = 1) {sql : Statement}
    (hsql : sql.isBegin = false) {status : Int8} (hend : status ≠ 0 ∧ status ≠ 1) (rc : Int) :
    Inv (tx.send sql status rc).2 where
  open_iff := by
    have hopen := h.open_iff.mp hstatus
    by_cases hrc : tx.db.result sql rc = SQLITE_OK
    · simp [send, execute, hrc, hsql, hend.2]
    · simp [send, execute, hrc, hstatus, hopen]
  fresh := by
    intro hzero
    by_cases hrc : tx.db.result sql rc = SQLITE_OK
    · simp [send, execute, hrc, hend.1] at hzero
    · simp [send, execute, hrc, hstatus] at hzero
  once := pairwise_snoc.mpr ⟨h.once, fun _ _ _ _ => hsql⟩

theorem inv_step (hi : Inv tx) (h : Step tx c tx') : Inv tx' := by
  subst h
  cases c with
  | begin rc =>
    by_cases hstatus : tx.status = 0
    · rw [call, begin, if_pos hstatus]
      exact inv_begin hi hstatus rc
    · rwa [call, begin, if_neg hstatus]
  | commit rc =>
    by_cases hstatus : tx.status = 1
    · rw [call, commit, if_pos hstatus]
      exact inv_close hi hstatus rfl (by decide) rc
    · rwa [call, commit, if_neg hstatus]
  | rollback rc =>
    by_cases hstatus : tx.status = 1
    · rw [call, rollback, if_pos hstatus]
      exact inv_close hi hstatus rfl (by decide) rc
    · rwa [call, rollback, if_neg hstatus]

/-- `begin` is not called again after a BEGIN that failed. -/
def FirstTry (tx : SQLite3Transaction) : Call → Prop
  | .begin _ => tx.status = 0 → ¬Tried tx.db.sent
  | .commit _ | .rollback _ => True

/-- The one closing statement that fails. -/
def CommitFails (tx : SQLite3Transaction) (rc : Int) : Prop :=
  tx.status = 1 ∧ tx.autoCommit = true ∧ rc ≠ SQLITE_OK

theorem singleBegin_step (hs : SingleBegin tx.db.sent) (h : Step tx c tx') :
    SingleBegin tx'.db.sent ↔ FirstTry tx c := by
  subst h
  cases c with
  | begin rc =>
    by_cases hstatus : tx.status = 0
    · rw [call, begin, if_pos hstatus, send]
      simp only [execute, SingleBegin, pairwise_snoc, FirstTry, hstatus, Tried]
      constructor
      · rintro ⟨-, hlast⟩ - ⟨q, hq, hbegin⟩
        exact absurd (hlast q hq hbegin) (by simp [Statement.isBegin])
      · intro hfirst
        refine ⟨hs, fun e he hbegin => ?_⟩
        exact absurd ⟨e, he, hbegin⟩ (hfirst trivial)
    · rw [call, begin, if_neg hstatus]
      exact iff_of_true hs fun h => absurd h hstatus
  | commit rc =>
    refine iff_of_true ?_ trivial
    by_cases hstatus : tx.status = 1
    · rw [call, commit, if_pos hstatus]
      exact pairwise_snoc.mpr ⟨hs, fun _ _ _ => rfl⟩
    · rwa [call, commit, if_neg hstatus]
  | rollback rc =>
    refine iff_of_true ?_ trivial
    by_cases hstatus : tx.status = 1
    · rw [call, rollback, if_pos hstatus]
      exact pairwise_snoc.mpr ⟨hs, fun _ _ _ => rfl⟩
    · rwa [call, rollback, if_neg hstatus]

/-- The destructor leaves a transaction open exactly when it commits and the COMMIT fails. -/
theorem closed_destroy (hi : Inv tx) (rc : Int) :
    (tx.destroy rc).db.isOpen = false ↔ ¬CommitFails tx rc := by
  by_cases hstatus : tx.status = 1
  · have hopen := hi.open_iff.mp hstatus
    rw [destroy, if_pos hstatus]
    cases hauto : tx.autoCommit with
    | true =>
      rw [if_pos rfl, commit, if_pos hstatus]
      by_cases hrc : rc = SQLITE_OK
      · simp [send, execute, SQLite3.result, CommitFails, hrc, Statement.isBegin]
      · simp [send, execute, SQLite3.result, CommitFails, hrc, hstatus, hauto, hopen]
    | false =>
      rw [if_neg Bool.false_ne_true, rollback, if_pos hstatus]
      simp [send, execute, SQLite3.result, CommitFails, hauto, hopen, Statement.isBegin]
  · have hclosed : tx.db.isOpen = false := by
      have := hi.open_iff.not.mp hstatus
      simpa using this
    rw [destroy, if_neg hstatus]
    exact iff_of_true hclosed fun h => hstatus h.1

/-- The status says what is open in every run, and after a BEGIN that succeeded there is no other; a
failed one is sent again if and only if `begin` is called again. The destructor leaves a transaction
open if and only if its own COMMIT fails. -/
theorem run_closed_iff {autoCommit : Bool} {type : TransactionType}
    {t : List (Call × SQLite3Transaction)} (run : Run Step (create autoCommit type) t) (rc : Int) :
    Always (fun tx => (tx.status = 1 ↔ tx.db.isOpen = true) ∧ BeginsOnce tx.db.sent)
      (create autoCommit type) t ∧
    (Always (fun tx => SingleBegin tx.db.sent) (create autoCommit type) t ↔
      Meets FirstTry (create autoCommit type) t) ∧
    (((last (create autoCommit type) t).destroy rc).db.isOpen = false ↔
      ¬CommitFails (last (create autoCommit type) t) rc) := by
  have hinv : Always Inv (create autoCommit type) t :=
    always_of_step (fun _ _ _ hi h => inv_step hi h) run (inv_create autoCommit type)
  constructor
  · exact hinv.mono fun _ hi => ⟨hi.open_iff, hi.once⟩
  constructor
  · exact always_iff_meets (fun _ => True) _ FirstTry (fun _ _ _ _ _ _ => trivial)
      (fun _ _ _ _ hs h => singleBegin_step hs h) run trivial List.Pairwise.nil
  · exact closed_destroy hinv.last rc

/-- The run that some calls make. -/
def play (tx : SQLite3Transaction) : List Call → List (Call × SQLite3Transaction)
  | [] => []
  | c :: calls => (c, tx.call c) :: play (tx.call c) calls

theorem run_play (tx : SQLite3Transaction) (calls : List Call) :
    Run Step tx (tx.play calls) := by
  induction calls generalizing tx with
  | nil => exact .nil tx
  | cons c calls ih => exact .cons rfl (ih (tx.call c))

/-- BEGIN fails once, is tried again, and the destructor rolls back. -/
theorem run_closed_rollback :
    ((last (create false .immediate)
      ((create false .immediate).play [.begin 5, .begin 0])).destroy 5).db.isOpen = false := by
  have run := run_play (create false .immediate) [.begin 5, .begin 0]
  exact (run_closed_iff run 5).2.2.mpr (by rintro ⟨-, hauto, -⟩; cases hauto)

/-- `SQLITE_BUSY` for the COMMIT of the destructor: the transaction stays open on the connection. -/
theorem open_after_destroy :
    ((last (create true .deferred) ((create true .deferred).play [.begin 0])).destroy 5).db =
      { sent := [(.begin .deferred, 0), (.commit, 5)], isOpen := true } := by
  decide

end SQLite3Transaction

end CxkFramework
