/-
The handlers of `get-or-create` when their transactions fail.

`get_or_create_daily_roll` runs two transactions inside an `except IntegrityError` of its own and
the three attempts of `_retry_roll_conflicts`.  A handler is one of many here: it reads, commits
or is refused, and everything else the service does may come in between.  A refused transaction
is rolled back, so all it leaves is where the handler goes on.
-/
import RollPig.System

namespace RollPig

/-- Why the database refuses a transaction. -/
inductive Conflict
  | integrityError
  /-- MySQL 1205 or 1213. -/
  | lockConflict
deriving DecidableEq

/-- Where a handler is; a transaction that is open has read whether there is a roll. -/
inductive RollPhase
  | start (attempt : Nat)
  | opened (attempt : Nat) (found : Bool)
  /-- In the `except` of the handler, with everything rolled back. -/
  | recovering (attempt : Nat)
  /-- Between the commits, in the `try` of the handler or behind it. -/
  | reconciling (attempt : Nat) (flight : RollInFlight) (inTry : Bool)
  | returned (response : DailyRollLookupResponse)
  | raised

structure RollCall where
  req : DailyRollGetOrCreateRequest
  phase : RollPhase := .start 0

/-- `wrapped` after an attempt that failed. -/
def RollPhase.retry (attempt : Nat) : RollPhase :=
  if attempt = 2 then .raised else .start (attempt + 1)

/-- Where a handler goes on when its transaction was refused. -/
def RollPhase.refused (conflict : Conflict) : RollPhase → Option RollPhase
  | .start attempt => some (.retry attempt)
  | .opened attempt found =>
      some (if found = false ∧ conflict = .integrityError then .recovering attempt
        else .retry attempt)
  | .recovering attempt => some (.retry attempt)
  | .reconciling attempt _ inTry =>
      some (if inTry = true ∧ conflict = .integrityError then .recovering attempt
        else .retry attempt)
  | .returned _ | .raised => none

/-- Where a handler goes on after its first commit. -/
def RollPhase.committed (attempt : Nat) (inTry : Bool) :
    DailyRollLookupResponse ⊕ RollInFlight → RollPhase
  | .inl response => .returned response
  | .inr flight => .reconciling attempt flight inTry

/-- The commit a handler comes to, if what it read still holds: rolls are never deleted, and
their unique key lets nobody insert one twice. -/
def RollCall.commit (e : Env) (call : RollCall) (db : Db) : Option (RollPhase × Db) :=
  match call.phase with
  | .opened attempt found =>
      if (db.dailyRoll? call.req.dateStr call.req.userId).isSome = found then
        let (result, db) := getOrCreateDailyRoll e call.req db
        some (.committed attempt (!found) result, db)
      else none
  | .recovering attempt =>
      if (db.dailyRoll? call.req.dateStr call.req.userId).isNone then some (.retry attempt, db)
      else
        let (result, db) := getOrCreateDailyRoll e call.req db
        some (.committed attempt false result, db)
  | .reconciling _ flight _ =>
      let (response, db) := reconcileReservationsAfterCommit e flight db
      some (.returned response, db)
  | _ => none

/-- The commit would insert a roll. -/
def RollCall.draws (call : RollCall) : Bool :=
  match call.phase with
  | .opened _ found => !found
  | _ => false

/-- The other requests that insert a roll. -/
def Request.inserts : Request → Bool
  | .getOrCreate _ | .makeup _ => true
  | _ => false

/-- The database, and the handlers in the order they were called. -/
structure RollCalls where
  db : Db := {}
  calls : List RollCall := []

inductive RollCallEvent
  | arrive (req : DailyRollGetOrCreateRequest)
  | read (i : Nat)
  /-- The i-th handler commits, and whether it inserts the roll. -/
  | commit (i : Nat) (e : Env) (drew : Bool)
  | refuse (i : Nat) (conflict : Conflict)
  | elsewhere (e : Env) (action : Action)

namespace RollCalls

/-- The i-th handler goes on. -/
def goOn (s : RollCalls) (i : Nat) (call : RollCall) (phase : RollPhase) (db : Db) : RollCalls :=
  { db, calls := s.calls.set i { call with phase } }

/-- The step under a label, if there is one. -/
def next? (s : RollCalls) : RollCallEvent → Option RollCalls
  | .arrive req => some { s with calls := s.calls ++ [{ req }] }
  | .read i =>
      match s.calls[i]? with
      | some ⟨req, .start attempt⟩ =>
          some (s.goOn i ⟨req, .start attempt⟩
            (.opened attempt (s.db.dailyRoll? req.dateStr req.userId).isSome) s.db)
      | _ => none
  | .commit i e drew =>
      match s.calls[i]? with
      | none => none
      | some call =>
          match call.commit e s.db with
          | none => none
          | some (phase, db) => if drew = call.draws then some (s.goOn i call phase db) else none
  | .refuse i conflict =>
      match s.calls[i]? with
      | none => none
      | some call =>
          match call.phase.refused conflict with
          | none => none
          | some phase => some (s.goOn i call phase s.db)
  | .elsewhere e action =>
      match action with
      | .request request _ =>
          if request.inserts then none else some { s with db := (action.transaction e s.db).db }
      | .reconcile _ => some { s with db := (action.transaction e s.db).db }

end RollCalls

/-- The handlers, started on any database. -/
def rollCalls : Transition.System RollCalls RollCallEvent where
  init s := s.calls = []
  step s event s' := s.next? event = some s'

end RollPig
