import HysteriaCore.Database.Connection
import Mathlib.Data.List.Range

/-!
# Transactions (MySQLConnection::ExecuteTransaction, Transaction.cpp, DatabaseWorkerPool.h)

The results of `START TRANSACTION`, `COMMIT` and `ROLLBACK` are not looked at, and a
statement that was repeated after a reconnect runs outside the transaction. Which
patterns of call results keep a transaction atomic all the same is
`Pattern.KeepsTransaction`.
-/

namespace HysteriaCore.Database

variable {S : Type*}

inductive SQLElementData (S : Type*) where
  | raw (query : S)
  | prepared (stmt : S)
  deriving DecidableEq

def SQLElementData.element : SQLElementData S → S
  | .raw query => query
  | .prepared stmt => stmt

/-- How the calls of one `ExecuteTransaction` end; `stmt i` belongs to the `i`-th element. -/
structure Pattern where
  startTransaction : Call
  stmt : ℕ → Call
  commit : Call
  rollback : Call

def executeQueries : List (SQLElementData S) → (ℕ → Call) → Conn S → Result × Conn S
  | [], _, c => (.done true, c)
  | data :: queries, calls, c =>
    match execute (.query data.element) (calls 0) c with
    | (.done true, c) => executeQueries queries (fun i => calls (i + 1)) c
    | r => r

def endTransaction (p : Pattern) : Result × Conn S → Result × Conn S
  | (.aborted, c) => (.aborted, c)
  | (.done false, c) =>
    match execute .rollback p.rollback c with
    | (.aborted, c) => (.aborted, c)
    | (.done _, c) => (.done false, c)
  | (.done true, c) =>
    match execute .commit p.commit c with
    | (.aborted, c) => (.aborted, c)
    | (.done _, c) => (.done true, c)

def executeTransaction (queries : List (SQLElementData S)) (p : Pattern) (c : Conn S) :
    Result × Conn S :=
  if queries.isEmpty then (.done false, c)
  else match execute .startTransaction p.startTransaction c with
    | (.aborted, c) => (.aborted, c)
    | (.done _, c) => endTransaction p (executeQueries queries p.stmt c)

/-- The retries: at most `loopBreaker` further attempts, up to the first success. -/
def retry (queries : List (SQLElementData S)) :
    ℕ → (ℕ → Pattern) → Conn S → List (Result × Conn S)
  | 0, _, _ => []
  | loopBreaker + 1, ps, c =>
    let r := executeTransaction queries (ps 0) c
    r :: if r.1 = .done false then retry queries loopBreaker (fun i => ps (i + 1)) r.2 else []

/-- The attempts `TransactionTask::Execute` and `DirectCommitTransaction` make: a first one,
and retries when `GetLastError()` is 1213 after it failed. -/
def attempts (queries : List (SQLElementData S)) (ps : ℕ → Pattern) (c : Conn S) :
    List (Result × Conn S) :=
  let r := executeTransaction queries (ps 0) c
  r :: if r.1 = .done false ∧ r.2.lastErrno = ER_LOCK_DEADLOCK
    then retry queries 5 (fun i => ps (i + 1)) r.2 else []

/-- The attempts made and what is left of the transaction's elements (`Cleanup`). -/
structure TaskRun (S : Type*) where
  attempts : List (Result × Conn S)
  queries : List (SQLElementData S)

def succeeded (as : List (Result × Conn S)) : Bool :=
  decide (as.getLast?.map Prod.fst = some (.done true))

def transactionTaskExecute (queries : List (SQLElementData S)) (ps : ℕ → Pattern) (c : Conn S) :
    TaskRun S :=
  let as := attempts queries ps c
  ⟨as, if succeeded as then queries else []⟩

/-- `DatabaseWorkerPool<T>::DirectCommitTransaction`: it also cleans up after a retry that
succeeded. -/
def directCommitTransaction (queries : List (SQLElementData S)) (ps : ℕ → Pattern) (c : Conn S) :
    TaskRun S :=
  let as := attempts queries ps c
  ⟨as, if as.head?.map Prod.fst = some (.done true) then queries else []⟩

/-! ### What atomicity asks for -/

/-- All elements applied and `true`, or none applied and not `true`; nothing is left in a
transaction that a later `START TRANSACTION` would commit. -/
def Atomic (queries : List (SQLElementData S)) (before : Conn S) (r : Result × Conn S) : Prop :=
  r.2.server.transaction.getD [] = [] ∧
    r.2.server.committed =
      before.server.committed ++ if r.1 = .done true then queries.map SQLElementData.element else []

instance [DecidableEq S] (queries : List (SQLElementData S)) (before : Conn S)
    (r : Result × Conn S) : Decidable (Atomic queries before r) := by
  unfold Atomic
  infer_instance

def Retried (as : List (Result × Conn S)) : Prop :=
  as.length = 6 ∨ ∃ r ∈ as.getLast?, r.1 ≠ .done false

/-! ### The patterns -/

def Call.runs (call : Call) : Bool :=
  match call.final with
  | .ran _ => true
  | _ => false

def Call.reconnects (call : Call) : Bool := decide (call.final = .ran true)

def Final.endsTransaction : Final → Bool
  | .refused lost errNo => lost || decide (errNo = ER_LOCK_DEADLOCK)
  | _ => true

def Pattern.started (p : Pattern) : Bool :=
  match p.startTransaction.final with
  | .ran _ => true
  | .refused _ _ => true
  | _ => false

def Pattern.firstRefused (p : Pattern) (n : ℕ) : Option ℕ :=
  (List.range n).find? fun i => !(p.stmt i).runs

/-- The first element that runs outside the transaction: all do when `START TRANSACTION`
was refused, and all do from one that was repeated on a new connection. -/
def Pattern.firstOutside (p : Pattern) (n : ℕ) : Option ℕ :=
  if p.startTransaction.runs then (List.range n).find? fun i => (p.stmt i).reconnects else some 0

/-- The patterns that keep a transaction of `n` elements atomic: no element ran outside the
transaction before one was refused, and `ROLLBACK` ends a transaction that still holds
elements; or all ran inside and `COMMIT` took effect at once; or all ran outside. -/
def Pattern.KeepsTransaction (p : Pattern) (n : ℕ) : Prop :=
  p.started = true →
    match p.firstRefused n, p.firstOutside n with
    | some k, outside => (∀ a ∈ outside, k ≤ a) ∧
        (k = 0 ∨ (p.stmt k).final.endsTransaction = true ∨ p.rollback.final.endsTransaction = true)
    | none, none => p.commit.final = .ran false ∨ p.commit.final = .aborted
    | none, some a => a = 0 ∧ p.commit.final ≠ .aborted

def Pattern.Deadlocked (p : Pattern) (n : ℕ) : Prop :=
  p.started = true ∧ ∃ k ∈ p.firstRefused n, ∃ lost, (p.stmt k).final = .refused lost ER_LOCK_DEADLOCK

def Final.lastErrno : Final → ℕ
  | .ran _ => 0
  | .refused _ errNo => errNo
  | .gone errNo => errNo
  | .aborted => 0

/-! ### Single calls -/

def Conn.Idle (c : Conn S) : Prop := c.handle = true ∧ c.server.transaction = none

theorem execute_outside (st : Statement S) (hst : st = .commit ∨ st = .rollback) (call : Call)
    (c : Conn S) (h : c.server.transaction = none) : (execute st call c).2.server = c.server := by
  obtain ⟨⟨committed, transaction⟩, handle, lastErrno⟩ := c
  obtain rfl : transaction = none := h
  cases handle with
  | false => cases call <;> rfl
  | true =>
    rw [execute_eq _ _ _ rfl]
    cases call.final <;> rcases hst with rfl | rfl <;>
      simp [Final.effect, Server.apply, Server.abandon]

theorem execute_rollback (call : Call) (committed pending : List S) (e : ℕ) :
    (execute .rollback call ⟨⟨committed, some pending⟩, true, e⟩).2.server =
      ⟨committed, if call.final.endsTransaction then none else some pending⟩ := by
  rw [execute_eq _ _ _ rfl]
  cases call.final with
  | ran lost => cases lost <;> rfl
  | refused lost errNo =>
    cases lost <;> by_cases he : errNo = ER_LOCK_DEADLOCK <;>
      simp [Final.effect, Final.endsTransaction, Server.abandon, he]
  | gone errNo => rfl
  | aborted => rfl

/-! ### The loop -/

/-- Queries that run one after the other, where `state` is what the server has after some of them. -/
theorem executeQueries_along (state : List S → Server S) (ok : Call → Prop)
    (hstep : ∀ st done e call, ok call → execute (.query st) call ⟨state done, true, e⟩ =
      (.done true, ⟨state (done ++ [st]), true, 0⟩))
    (queries : List (SQLElementData S)) (calls : ℕ → Call) (done : List S) (e k : ℕ) (hk : k ≤ queries.length)
    (h : ∀ i < k, ok (calls i)) :
    ∃ e', executeQueries queries calls ⟨state done, true, e⟩ =
      executeQueries (queries.drop k) (fun i => calls (k + i))
        ⟨state (done ++ (queries.map SQLElementData.element).take k), true, e'⟩ := by
  induction k generalizing queries calls done e with
  | zero => exact ⟨e, by simp⟩
  | succ k ih =>
    cases queries with
    | nil => simp at hk
    | cons data queries =>
      obtain ⟨e', he'⟩ := ih queries (fun i => calls (i + 1)) (done ++ [data.element]) 0
        (by simpa using hk) (fun i hi => h (i + 1) (by omega))
      refine ⟨e', ?_⟩
      rw [executeQueries, hstep _ _ _ _ (h 0 (by omega))]
      simp only [he', List.drop_succ_cons, List.map_cons, List.take_succ_cons, List.append_assoc,
        List.singleton_append, Nat.add_right_comm]

theorem executeQueries_outside (queries : List (SQLElementData S)) (calls : ℕ → Call)
    (committed : List S) (e k : ℕ) (hk : k ≤ queries.length) (h : ∀ i < k, (calls i).runs = true) :
    ∃ e', executeQueries queries calls ⟨⟨committed, none⟩, true, e⟩ =
      executeQueries (queries.drop k) (fun i => calls (k + i))
        ⟨⟨committed ++ (queries.map SQLElementData.element).take k, none⟩, true, e'⟩ := by
  refine executeQueries_along (fun done => ⟨done, none⟩) (fun call => call.runs = true)
    (fun st done e call hruns => ?_) queries calls committed e k hk h
  rw [execute_eq _ _ _ rfl]
  unfold Call.runs at hruns
  split at hruns
  · rename_i lost hlost
    rw [hlost]
    cases lost <;> rfl
  · cases hruns

theorem executeQueries_inside (queries : List (SQLElementData S)) (calls : ℕ → Call)
    (committed pending : List S) (e k : ℕ) (hk : k ≤ queries.length)
    (h : ∀ i < k, (calls i).final = .ran false) :
    ∃ e', executeQueries queries calls ⟨⟨committed, some pending⟩, true, e⟩ =
      executeQueries (queries.drop k) (fun i => calls (k + i))
        ⟨⟨committed, some (pending ++ (queries.map SQLElementData.element).take k)⟩, true, e'⟩ := by
  refine executeQueries_along (fun done => ⟨committed, some done⟩) (fun call => call.final = .ran false)
    (fun st done e call hran => ?_) queries calls pending e k hk h
  rw [execute_eq _ _ _ rfl, hran]
  rfl

end HysteriaCore.Database
