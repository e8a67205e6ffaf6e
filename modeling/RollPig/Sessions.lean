/-
The retries of the handlers, `db.py` and the routers.

A handler whose transaction meets a conflict rolls it back and runs the whole of it again, so
that an unfinished write is not taken for one that was there before.  On SQLite the conflict is
a lock, on MySQL a deadlock or a lock that was waited for too long, and on both a row somebody
else has inserted first.
-/
import RollPig.Cloud
import RollPig.Retries

namespace RollPig

open Retries

/-- `session.get_bind().dialect.name`. -/
inductive SessionDialect
  | sqlite
  | mysql
  | other
deriving DecidableEq, Repr

/-- What the handlers read of an error: whether an `OperationalError` speaks of a lock, and its
number. -/
inductive SessionError
  | integrity
  | operational (locked : Bool) (code : Option Nat)
  | other (detail : String)

def SessionError.isIntegrity : SessionError → Bool
  | .integrity => true
  | _ => false

/-- `is_sqlite_lock`. -/
def SessionError.isSqliteLock (dialect : SessionDialect) : SessionError → Bool
  | .operational locked _ => dialect = .sqlite && locked
  | _ => false

/-- `mysql_conflict`. -/
def SessionError.mysqlConflict (dialect : SessionDialect) : SessionError → Bool
  | .operational _ (some code) => dialect = .mysql && (code = 1205 || code = 1213)
  | _ => false

/-- The database refused the transaction; nothing of it was committed. -/
def SessionError.Conflict (dialect : SessionDialect) (error : SessionError) : Prop :=
  error.isIntegrity ∨ error.isSqliteLock dialect ∨ error.mysqlConflict dialect

def sqliteLockRetryAttempts : Nat := 2

variable {ε : Type*}

/-- `run_transaction_with_sqlite_lock_retry`. -/
def runTransactionWithSqliteLockRetry (dialect : SessionDialect)
    (operation : Program ε SessionError) : Program ε SessionError :=
  operation.retrying (SessionError.isSqliteLock dialect)
    (.other "SQLite transaction retry exhausted") sqliteLockRetryAttempts

/-- `_run_protection_transaction`. -/
def runProtectionTransaction (dialect : SessionDialect) (transaction : Program ε SessionError) :
    Program ε SessionError :=
  (runTransactionWithSqliteLockRetry dialect transaction).retrying
    (fun error => error.isIntegrity || error.mysqlConflict dialect) (.other "") 3

/-- The loop of `bind_message` and of `join_by_message`. -/
def runMessageTransaction (dialect : SessionDialect) (transaction : Program ε SessionError) :
    Program ε SessionError :=
  (runTransactionWithSqliteLockRetry dialect transaction).retrying SessionError.isIntegrity
    (.other "") 2

/-- The requests whose handlers run one transaction, again after a conflict, and nothing after its
commit.  `prepare_outcome` is not one of them: it reads the round once more. -/
inductive RetriedRequest
  | createEvent (req : EventCreateRequest)
  | waitingNotice (req : RoastWaitingNoticeRequest)
  | grant (req : GrantProtectionRequest)
  | replaceGroup (req : ReplaceGroupProtectionsRequest)
  | bindMessage (req : RoastReservationBindMessageRequest)
  | joinByMessage (req : RoastReservationReplyJoinRequest)

def RetriedRequest.request : RetriedRequest → Request
  | .createEvent req => .createEvent req
  | .waitingNotice req => .waitingNotice req
  | .grant req => .grant req
  | .replaceGroup req => .replaceGroup req
  | .bindMessage req => .bindMessage req
  | .joinByMessage req => .joinByMessage req

/-- What the handler of a request runs. -/
def RetriedRequest.program (dialect : SessionDialect) :
    RetriedRequest → Program CloudEvent SessionError
  | .createEvent _ | .waitingNotice _ =>
      runTransactionWithSqliteLockRetry dialect .once
  | .grant _ | .replaceGroup _ => runProtectionTransaction dialect .once
  | .bindMessage _ | .joinByMessage _ => runMessageTransaction dialect .once

/-- A step of the cloud that is the transaction of this request. -/
def RetriedRequest.Owns (r : RetriedRequest) (event : CloudEvent) : Prop :=
  ∃ transaction rolls, event = .api (.transaction transaction) ∧
    transaction.action = .request r.request rolls

/-- The cloud with all these requests beside each other, and beside everything else. -/
def retriedCloud {ι : Type*} [DecidableEq ι] (dialect : SessionDialect)
    (requests : ι → RetriedRequest) :
    Transition.System (Retries.World ι Cloud CloudEvent SessionError)
      (Turn ι CloudEvent SessionError) :=
  retried cloud (fun i => (requests i).Owns) (SessionError.Conflict dialect)
    fun i => (requests i).program dialect

/-- Before the first attempt. -/
def retriedStart {ι : Type*} (dialect : SessionDialect) (requests : ι → RetriedRequest) :
    Retries.World ι Cloud CloudEvent SessionError :=
  { state := {}, programs := fun i => (requests i).program dialect }

end RollPig
