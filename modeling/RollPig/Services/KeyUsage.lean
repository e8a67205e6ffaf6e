/-
What the keys of the callers are used for, `services/key_usage.py`.

A row for each day, key and operation counts the requests, which the middleware records when
they are over, and the records they created, updated and deleted, which the handlers record
within their own transaction.  Both add to the row in one statement, so that two workers never
overwrite each other's count.
-/
import Mathlib
import RollPig.Clock
import RollPig.Models
import RollPig.Metering

namespace RollPig

/-- Who a request was authenticated as; the token itself is not kept. -/
structure ApiKeyIdentity where
  keyId : String
  name : String
deriving DecidableEq, Repr

structure SourceKeyIdentity where
  keyId : String
  keyName : String
  firstSeenAt : Time
  lastSeenAt : Time
deriving DecidableEq, Repr

/-- The columns of a usage row that are counted up. -/
@[ext] structure UsageCounters where
  authenticatedRequests : Nat := 0
  successfulRequests : Nat := 0
  successfulMutations : Nat := 0
  failedRequests : Nat := 0
  createdRecords : Nat := 0
  updatedRecords : Nat := 0
  deletedRecords : Nat := 0
  idempotentHits : Nat := 0
deriving DecidableEq, Repr

namespace UsageCounters

instance : Zero UsageCounters := ⟨{}⟩

instance : Add UsageCounters where
  add a b :=
    { authenticatedRequests := a.authenticatedRequests + b.authenticatedRequests
      successfulRequests := a.successfulRequests + b.successfulRequests
      successfulMutations := a.successfulMutations + b.successfulMutations
      failedRequests := a.failedRequests + b.failedRequests
      createdRecords := a.createdRecords + b.createdRecords
      updatedRecords := a.updatedRecords + b.updatedRecords
      deletedRecords := a.deletedRecords + b.deletedRecords
      idempotentHits := a.idempotentHits + b.idempotentHits }

/-- A column of a sum is the sum of the columns. -/
theorem add_def (a b : UsageCounters) : a + b =
    { authenticatedRequests := a.authenticatedRequests + b.authenticatedRequests
      successfulRequests := a.successfulRequests + b.successfulRequests
      successfulMutations := a.successfulMutations + b.successfulMutations
      failedRequests := a.failedRequests + b.failedRequests
      createdRecords := a.createdRecords + b.createdRecords
      updatedRecords := a.updatedRecords + b.updatedRecords
      deletedRecords := a.deletedRecords + b.deletedRecords
      idempotentHits := a.idempotentHits + b.idempotentHits } := rfl

theorem zero_def : (0 : UsageCounters) = {} := rfl

instance : AddCommMonoid UsageCounters where
  add_assoc a b c := by
    simp only [add_def, Nat.add_assoc]
  zero_add a := by
    simp only [add_def, zero_def, Nat.zero_add]
  add_zero a := by
    simp only [add_def, zero_def, Nat.add_zero]
  add_comm a b := by
    simp only [add_def, Nat.add_comm]
  nsmul := nsmulRec

end UsageCounters

structure SourceKeyDailyUsage where
  dateStr : Date
  sourceKeyId : String
  operation : String
  counters : UsageCounters
  updatedAt : Time
deriving DecidableEq, Repr

/-- The two tables. -/
structure KeyUsage where
  identities : List SourceKeyIdentity := []
  usages : List SourceKeyDailyUsage := []

/-- The unique key `uq_source_key_daily_operation`. -/
def usageKey (row : SourceKeyDailyUsage) : Date × String × String :=
  (row.dateStr, row.sourceKeyId, row.operation)

/-- On a duplicate key the counters of the stored row are raised. -/
def usageScale : Metering.Scale SourceKeyDailyUsage (Date × String × String) UsageCounters where
  key := usageKey
  amount := (·.counters)
  add row values :=
    { row with counters := row.counters + values.counters, updatedAt := values.updatedAt }
  key_add _ _ := rfl
  amount_add _ _ := rfl

/-- `_upsert_identity`: a key that was renamed keeps its row and has the new name. -/
def upsertIdentity (e : Env) (identity : ApiKeyIdentity) (rows : List SourceKeyIdentity) :
    List SourceKeyIdentity :=
  match Tables.lookup (·.keyId) rows identity.keyId with
  | none =>
      rows ++
        [{ keyId := identity.keyId, keyName := identity.name,
           firstSeenAt := e.dbNow, lastSeenAt := e.dbNow }]
  | some row =>
      Tables.writeBack (·.keyId) [{ row with keyName := identity.name, lastSeenAt := e.dbNow }] rows

/-- `operation[:192]`. -/
def operationColumn (operation : String) : String :=
  String.ofList (operation.toList.take 192)

/-- The row `_upsert_daily_usage` inserts, or adds. -/
def usageValues (e : Env) (identity : ApiKeyIdentity) (operation : String)
    (counters : UsageCounters) : SourceKeyDailyUsage :=
  { dateStr := rollpigToday e.now, sourceKeyId := identity.keyId,
    operation := operationColumn operation, counters, updatedAt := e.dbNow }

/-- `_upsert_daily_usage`. -/
def upsertDailyUsage (values : SourceKeyDailyUsage) (rows : List SourceKeyDailyUsage) :
    List SourceKeyDailyUsage :=
  Metering.charge usageScale values rows

/-- The identity and the usage are written in one transaction. -/
def KeyUsage.record (keys : KeyUsage) (e : Env) (identity : ApiKeyIdentity) (operation : String)
    (counters : UsageCounters) : KeyUsage :=
  { identities := upsertIdentity e identity keys.identities
    usages := upsertDailyUsage (usageValues e identity operation counters) keys.usages }

/-- `WRITE_METHODS`. -/
def writeMethods : List String := ["POST", "PUT", "PATCH", "DELETE"]

/-- What `record_key_request` counts of an answered request. -/
def requestCounters (method : String) (statusCode : Nat) : UsageCounters :=
  let successful : Bool := statusCode < 400
  { authenticatedRequests := 1
    successfulRequests := successful.toNat
    successfulMutations := (successful && method.toUpper ∈ writeMethods).toNat
    failedRequests := (!successful).toNat }

/-- `record_key_request`. -/
def recordKeyRequest (e : Env) (identity : ApiKeyIdentity) (method operation : String)
    (statusCode : Nat) (keys : KeyUsage) : KeyUsage :=
  keys.record e identity operation (requestCounters method statusCode)

/-- What a handler tells `record_key_mutation_outcome`. -/
structure MutationOutcome where
  operation : String
  createdRecords : Nat := 0
  updatedRecords : Nat := 0
  deletedRecords : Nat := 0
  idempotentHits : Nat := 0
deriving DecidableEq, Repr

def MutationOutcome.counters (outcome : MutationOutcome) : UsageCounters :=
  { createdRecords := outcome.createdRecords
    updatedRecords := outcome.updatedRecords
    deletedRecords := outcome.deletedRecords
    idempotentHits := outcome.idempotentHits }

/-- `record_key_mutation_outcome`. -/
def recordKeyMutationOutcome (e : Env) (identity : ApiKeyIdentity) (outcome : MutationOutcome)
    (keys : KeyUsage) : KeyUsage :=
  keys.record e identity outcome.operation outcome.counters

end RollPig
