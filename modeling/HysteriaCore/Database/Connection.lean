import Mathlib.Data.List.Basic

/-!
# One connection to the database (shared/Database/MySQLConnection.cpp)

`Execute` repeats a statement by itself when the connection was lost and could be opened
again. The server side is what the code relies on: a lost connection and a deadlock roll
back the open transaction, a statement outside a transaction is committed at once, a
statement that reports an error has no effect, and `mysql_errno` is the result of the
latest call. Prepared and raw statements go through the same tries, so both are a
`Statement.query`.
-/

namespace HysteriaCore.Database

/-! ### The server -/

inductive Statement (S : Type*) where
  | startTransaction
  | commit
  | rollback
  | query (s : S)

/-- The statements applied for good, and those of the open transaction. -/
structure Server (S : Type*) where
  committed : List S
  transaction : Option (List S)
  deriving DecidableEq

variable {S : Type*}

namespace Server

def apply : Server S → Statement S → Server S
  | ⟨committed, transaction⟩, .startTransaction => ⟨committed ++ transaction.getD [], some []⟩
  | ⟨committed, transaction⟩, .commit => ⟨committed ++ transaction.getD [], none⟩
  | ⟨committed, _⟩, .rollback => ⟨committed, none⟩
  | ⟨committed, none⟩, .query s => ⟨committed ++ [s], none⟩
  | ⟨committed, some pending⟩, .query s => ⟨committed, some (pending ++ [s])⟩

def abandon (s : Server S) : Server S := { s with transaction := none }

@[simp] theorem abandon_abandon (s : Server S) : s.abandon.abandon = s.abandon := rfl

end Server

/-! ### Error numbers -/

def CR_SERVER_GONE_ERROR : ℕ := 2006
def CR_SERVER_LOST : ℕ := 2013
def CR_INVALID_CONN_HANDLE : ℕ := 2048
def CR_SERVER_LOST_EXTENDED : ℕ := 2055
def ER_LOCK_DEADLOCK : ℕ := 1213
def ER_BAD_FIELD_ERROR : ℕ := 1054
def ER_NO_SUCH_TABLE : ℕ := 1146
def ER_PARSE_ERROR : ℕ := 1064

def connectionLost (errNo : ℕ) : Bool :=
  decide (errNo = CR_SERVER_GONE_ERROR ∨ errNo = CR_SERVER_LOST ∨
    errNo = CR_INVALID_CONN_HANDLE ∨ errNo = CR_SERVER_LOST_EXTENDED)

def terminatesCore (errNo : ℕ) : Bool :=
  decide (errNo = ER_BAD_FIELD_ERROR ∨ errNo = ER_NO_SUCH_TABLE ∨ errNo = ER_PARSE_ERROR)

def Server.fail (s : Server S) (errNo : ℕ) : Server S :=
  if connectionLost errNo = true ∨ errNo = ER_LOCK_DEADLOCK then s.abandon else s

/-! ### The connection -/

structure Conn (S : Type*) where
  server : Server S
  handle : Bool
  lastErrno : ℕ
  deriving DecidableEq

/-- How the tries of one call of `Execute` end. `opens` are the numbers `mysql_errno`
gives after the failing `Open`s that follow a lost connection; the next `Open` succeeds. An `Open` that connects
and fails in `PrepareStatements` is none of these: it leaves a live handle. -/
inductive Call where
  | success
  | failed (errNo : ℕ) (opens : List ℕ) (again : Call)
  deriving DecidableEq

def handleMySQLErrno : ℕ → List ℕ → Conn S → Option (Bool × Conn S)
  | errNo, opens, c =>
    if connectionLost errNo then
      match opens with
      | [] => some (true, ⟨c.server.abandon, true, 0⟩)
      | lErrno :: opens => handleMySQLErrno lErrno opens ⟨c.server.abandon, false, lErrno⟩
    else if terminatesCore errNo then none
    else some (false, c)

inductive Result where
  | done (ok : Bool)
  | aborted
  deriving DecidableEq

/-- `Execute`. When the process ends the server drops its session. -/
def execute (st : Statement S) : Call → Conn S → Result × Conn S
  | call, c =>
    if c.handle = false then (.done false, c)
    else match call with
      | .success => (.done true, ⟨c.server.apply st, true, 0⟩)
      | .failed errNo opens again =>
        match handleMySQLErrno errNo opens ⟨c.server.fail errNo, true, errNo⟩ with
        | none => (.aborted, ⟨c.server.abandon, false, 0⟩)
        | some (true, c) => execute st again c
        | some (false, c) => (.done false, c)

/-! ### What a call comes to -/

/-- How a call ends: the statement ran, was refused, the connection could not be opened
again, or the process ended; `lost` says that the connection was opened anew before. -/
inductive Final where
  | ran (lost : Bool)
  | refused (lost : Bool) (errNo : ℕ)
  | gone (errNo : ℕ)
  | aborted
  deriving DecidableEq

def Final.afterLoss : Final → Final
  | .ran _ => .ran true
  | .refused _ errNo => .refused true errNo
  | .gone errNo => .gone errNo
  | .aborted => .aborted

inductive Reopened where
  | opened
  | gone (errNo : ℕ)
  | aborted

def reopened : List ℕ → Reopened
  | [] => .opened
  | lErrno :: opens =>
    if connectionLost lErrno then reopened opens
    else if terminatesCore lErrno then .aborted
    else .gone lErrno

def Call.final : Call → Final
  | .success => .ran false
  | .failed errNo opens again =>
    if connectionLost errNo then
      match reopened opens with
      | .opened => again.final.afterLoss
      | .gone lErrno => .gone lErrno
      | .aborted => .aborted
    else if terminatesCore errNo then .aborted
    else .refused false errNo

def Final.effect (st : Statement S) (c : Conn S) : Final → Result × Conn S
  | .ran lost => (.done true, ⟨(if lost then c.server.abandon else c.server).apply st, true, 0⟩)
  | .refused lost errNo =>
    (.done false, ⟨if lost ∨ errNo = ER_LOCK_DEADLOCK then c.server.abandon else c.server, true, errNo⟩)
  | .gone errNo => (.done false, ⟨c.server.abandon, false, errNo⟩)
  | .aborted => (.aborted, ⟨c.server.abandon, false, 0⟩)

theorem handleMySQLErrno_of_lost (errNo : ℕ) (opens : List ℕ) (c : Conn S)
    (h : connectionLost errNo = true) :
    handleMySQLErrno errNo opens c = match reopened opens with
      | .opened => some (true, ⟨c.server.abandon, true, 0⟩)
      | .gone lErrno => some (false, ⟨c.server.abandon, false, lErrno⟩)
      | .aborted => none := by
  induction opens generalizing errNo c with
  | nil => simp only [handleMySQLErrno, h, ite_true, reopened]
  | cons lErrno opens ih =>
    rw [handleMySQLErrno]
    simp only [h, ite_true, reopened]
    by_cases hl : connectionLost lErrno = true
    · simp only [hl, ite_true]
      exact ih lErrno _ hl
    · rw [handleMySQLErrno.eq_def]
      by_cases ht : terminatesCore lErrno = true <;> simp [hl, ht]

theorem execute_eq (st : Statement S) (call : Call) (c : Conn S) (hc : c.handle = true) :
    execute st call c = call.final.effect st c := by
  induction call generalizing c with
  | success => simp [execute, hc, Call.final, Final.effect]
  | failed errNo opens again ih =>
    rw [execute]
    simp only [hc, Bool.true_eq_false, ite_false, Call.final]
    by_cases hl : connectionLost errNo = true
    · have hfail : c.server.fail errNo = c.server.abandon := by simp [Server.fail, hl]
      rw [handleMySQLErrno_of_lost _ _ _ hl, hfail]
      simp only [hl, ite_true]
      cases reopened opens with
      | opened =>
        simp only []
        rw [ih _ rfl]
        cases again.final <;> simp [Final.afterLoss, Final.effect]
      | gone lErrno => simp [Final.effect]
      | aborted => simp [Final.effect]
    · have hfail : c.server.fail errNo =
          if errNo = ER_LOCK_DEADLOCK then c.server.abandon else c.server := by
        simp [Server.fail, hl]
      rw [handleMySQLErrno.eq_def, hfail]
      by_cases ht : terminatesCore errNo = true <;> simp [hl, ht, Final.effect]

end HysteriaCore.Database
