/-
Counting the roasts of users who have not rolled, `record_unrolled_attempt`.

The endpoint selects the row of a user's day `FOR UPDATE`, inserts or raises it, commits, and
tries a second time where the insert found the row taken.  Its statements are those of
instances that run beside each other.  A row that a transaction selected or inserted is its own
until the transaction is over; another one that selects or inserts it waits.  A transaction that
fails leaves nothing behind, but an instance may end between its commit and its answer: then a
number is counted that nobody is told.  Nothing else writes the table, and no row is ever deleted.
-/
import RollPig.Clock
import RollPig.Outlines
import RollPig.Tables

namespace RollPig

structure UnrolledRoastAttempt where
  dateStr : Date
  userId : String
  attemptCount : Nat := 0
deriving DecidableEq, Repr

structure UnrolledRoastAttemptRequest where
  userId : String
  dateStr : Date

/-- The unique key of the table. -/
def attemptKey (row : UnrolledRoastAttempt) : Date × String := (row.dateStr, row.userId)

def UnrolledRoastAttemptRequest.key (req : UnrolledRoastAttemptRequest) : Date × String :=
  (req.dateStr, req.userId)

/-- The committed rows, and whose row each key is, if it is anybody's. -/
structure AttemptStore where
  rows : List UnrolledRoastAttempt
  owner : Date × String → Option Nat := fun _ => none

def AttemptStore.row? (s : AttemptStore) (key : Date × String) : Option UnrolledRoastAttempt :=
  Tables.lookup attemptKey s.rows key

/-- The attempts that are counted. -/
def AttemptStore.count (s : AttemptStore) (key : Date × String) : Nat :=
  ((s.row? key).map (·.attemptCount)).getD 0

/-- The next statement of a request; `again` in the second round of the loop. -/
inductive AttemptPlace
  | selecting (again : Bool)
  | inserting (again : Bool)
  | updating (attemptCount : Nat)
  | committing (attemptCount : Nat)
  | committed (count : Nat)
  | answered (count : Nat)
  | lost (count : Nat)
  | exhausted
  | raised
deriving DecidableEq, Repr

/-- The number a request has committed: it is answered, or it is still to be, or it is lost. -/
def AttemptPlace.counted? : AttemptPlace → Option Nat
  | .committed count | .answered count | .lost count => some count
  | _ => none

/-- The request is within a transaction that owns its row. -/
def AttemptPlace.owns : AttemptPlace → Bool
  | .updating _ | .committing _ => true
  | _ => false

/-- What the next statement of the i-th request does. -/
def AttemptPlace.execute (req : UnrolledRoastAttemptRequest) (i : Nat) (s : AttemptStore) :
    AttemptPlace → AttemptPlace × AttemptStore
  | .selecting again =>
      if (s.owner req.key).isSome then (.selecting again, s)
      else match s.row? req.key with
        | some row =>
            (.updating row.attemptCount,
             { s with owner := Function.update s.owner req.key (some i) })
        | none => (.inserting again, s)
  | .inserting again =>
      if (s.owner req.key).isSome then (.inserting again, s)
      else if (s.row? req.key).isSome then
        -- the unique key: an `IntegrityError`, and the rollback
        (if again then .exhausted else .selecting true, s)
      else (.committing 1, { s with owner := Function.update s.owner req.key (some i) })
  | .updating attemptCount => (.committing (attemptCount + 1), s)
  | .committing attemptCount =>
      (.committed attemptCount,
       { rows := Tables.upsert attemptKey
           { dateStr := req.dateStr, userId := req.userId, attemptCount } s.rows
         owner := Function.update s.owner req.key none })
  | .committed count => (.answered count, s)
  | .answered count => (.answered count, s)
  | .lost count => (.lost count, s)
  | .exhausted => (.exhausted, s)
  | .raised => (.raised, s)

/-- What another error of the database, or the end of the instance, does to a request: its
transaction is rolled back, or, after the commit, its answer is lost. -/
def AttemptPlace.abort (req : UnrolledRoastAttemptRequest) (s : AttemptStore) :
    AttemptPlace → AttemptPlace × AttemptStore
  | .committed count => (.lost count, s)
  | .answered count => (.answered count, s)
  | .lost count => (.lost count, s)
  | .exhausted => (.exhausted, s)
  | place =>
      (.raised,
       if place.owns then { s with owner := Function.update s.owner req.key none } else s)

inductive AttemptFate
  | executed
  | aborted
deriving DecidableEq

/-- The requests, numbered, on the table they share. -/
def attemptProgram (requests : Nat → UnrolledRoastAttemptRequest) :
    Outline.Program Nat AttemptPlace AttemptStore AttemptFate where
  statement i fate place s :=
    match fate with
    | .executed => place.execute (requests i) i s
    | .aborted => place.abort (requests i) s
  elsewhere _ _ := False

/-- Any number of requests, started on a table whose rows nobody owns. -/
def unrolledAttempts (requests : Nat → UnrolledRoastAttemptRequest) :
    Transition.System (Outline.Pool Nat AttemptPlace AttemptStore)
      (Outline.Act Nat AttemptFate AttemptStore) :=
  (attemptProgram requests).system fun p =>
    (∀ key, p.store.owner key = none) ∧ ∀ i, p.place i = .selecting false

end RollPig
