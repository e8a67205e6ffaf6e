/-
The cloud, with the usage of its keys.

A handler counts the records it created, updated or deleted, or that there was nothing left to
do, in the transaction that writes them; what it counts is decided by the database it found.
When the request is over the middleware counts the request itself, in a transaction of its own,
which may be lost.  So one step is a transaction of the cloud under some key, with its count,
or the count of a request.
-/
import RollPig.Cloud
import RollPig.Services.KeyUsage

namespace RollPig

/-! ### What the handlers count -/

/-- One record was created, or was there already. -/
def createdOrHit (operation : String) (created : Bool) : MutationOutcome :=
  { operation, createdRecords := created.toNat, idempotentHits := (!created).toNat }

/-- `get_or_create_daily_roll`, whichever way it finds the roll of the day. -/
def getOrCreateOutcome (req : DailyRollGetOrCreateRequest) (db : Db) : MutationOutcome :=
  createdOrHit "POST /v1/daily-rolls/get-or-create" (db.dailyRoll? req.dateStr req.userId).isNone

/-- `makeup_daily_roll`; nothing is counted before the 422. -/
def makeupOutcome (e : Env) (req : DailyRollGetOrCreateRequest) (db : Db) :
    Option MutationOutcome :=
  if req.dateStr ≠ rollpigToday e.now - 1 then none
  else some (createdOrHit "POST /v1/daily-rolls/makeup" (db.dailyRoll? req.dateStr req.userId).isNone)

/-- `complete_daily_roll_snapshot`: the first appearance updates the roll, the same one again
is a hit, and an error counts nothing. -/
def snapshotOutcome (req : DailyRollSnapshotRequest) (db : Db) : Option MutationOutcome :=
  match db.dailyRoll? req.dateStr req.userId with
  | none => none
  | some existing =>
      if existing.pigId ≠ req.pigId then none
      else if !existing.growthSnapshotAvailable then none
      else
        let written : Bool := existing.resourceVersion.isSome ||
          (existing.appearanceSnapshot.isSome &&
            existing.appearanceSnapshot ≠ some { isMakeup := true, payload := none })
        if written then
          if existing.resourceVersion.getD "" ≠ req.resourceVersion ∨
              existing.appearanceSnapshot ≠
                some { isMakeup := existing.isMakeup, payload := some (snapshotPayload req) } then
            none
          else some { operation := "PUT /v1/daily-rolls/snapshot", idempotentHits := 1 }
        else some { operation := "PUT /v1/daily-rolls/snapshot", updatedRecords := 1 }

/-- `_create_event_once`. -/
def createEventOutcome (e : Env) (req : EventCreateRequest) (db : Db) : MutationOutcome :=
  let date := req.dateStr.getD (rollpigToday e.now)
  createdOrHit "POST /v1/events"
    (recordRoastEventWithStatus e { req with dateStr := some date } none db).1.2

/-- `grant_protection`: a row of the group is created, or its sources change, or they do not. -/
def grantOutcome (e : Env) (req : GrantProtectionRequest) (db : Db) : Option MutationOutcome :=
  if req.protectDate ≠ rollpigToday e.now then none
  else
    let own := db.protection? req.protectDate req.groupId req.userId
    let changed : Bool := match own with
      | none => false
      | some row =>
          !sourceOrder.all fun source =>
            row.sourceLevels.isSome && protectionSources row source =
              protectionSources (storeGrant req db).2.1 source
    some
      { operation := "POST /v1/protections/grant"
        createdRecords := own.isNone.toNat
        updatedRecords := (own.isSome && changed).toNat
        idempotentHits := (own.isSome && !changed).toNat }

/-- The rows the first loop of `replace_group` deletes. -/
def countDeleted (e : Env) (req : ReplaceGroupProtectionsRequest) (db : Db) : Nat :=
  let removed := (groupRows db req.groupId req.protectDate).filter fun row =>
    row.userId ∉ normalizedIds req.userIds
  (removed.foldl (fun (counted : Nat × Db) row =>
    let legacy := globalProtection? counted.2 req.protectDate req.groupId row.userId
    (counted.1 + (keptSources row legacy).1.isEmpty.toNat, removeFromRoster e req row counted.2))
    (0, db)).1

/-- `replace_group`: the users who had no row of the group are given one. -/
def replaceGroupOutcome (e : Env) (req : ReplaceGroupProtectionsRequest) (db : Db) :
    MutationOutcome :=
  { operation := "POST /v1/protections/replace-group"
    createdRecords := (normalizedIds req.userIds).countP fun userId =>
      userId ∉ (groupRows db req.groupId req.protectDate).map (·.userId)
    deletedRecords := countDeleted e req db }

/-- `mark_seen`. -/
def markSeenOutcome (req : GroupRollMarkSeenRequest) (db : Db) : MutationOutcome :=
  createdOrHit "POST /v1/group-rolls/mark-seen" (!db.groupRolls.any fun row =>
    row.groupId = req.groupId ∧ row.userId = req.userId ∧ row.dateStr = req.dateStr)

/-- The other handlers count nothing. -/
def Request.outcome (e : Env) (db : Db) : Request → Option MutationOutcome
  | .getOrCreate req => some (getOrCreateOutcome req db)
  | .makeup req => makeupOutcome e req db
  | .snapshot req => snapshotOutcome req db
  | .createEvent req => some (createEventOutcome e req db)
  | .grant req => grantOutcome e req db
  | .replaceGroup req => some (replaceGroupOutcome e req db)
  | _ => none

/-- What a step of the cloud counts.  The second transaction of a request counts nothing. -/
def CloudEvent.outcome (c : Cloud) : CloudEvent → Option MutationOutcome
  | .api (.transaction event) =>
      match event.action with
      | .request r _ => r.outcome event.env c.world.db
      | .reconcile _ => none
  | .api (.markSeen _ req) => some (markSeenOutcome req c.world.db)
  | .markActive _ _ _ _ => none
  | .refill _ _ _ => none

/-! ### The system -/

structure MeteredCloud where
  cloud : Cloud := {}
  keys : KeyUsage := {}

/-- A transaction under a key, with the clock its count reads, or the middleware's count of a
request that is over. -/
inductive MeteredEvent
  | served (e : Env) (identity : ApiKeyIdentity) (event : CloudEvent)
      (outcome : Option MutationOutcome)
  | tracked (e : Env) (identity : ApiKeyIdentity) (method operation : String) (statusCode : Nat)

/-- The usage after a transaction that counts this. -/
def KeyUsage.after (keys : KeyUsage) (e : Env) (identity : ApiKeyIdentity) :
    Option MutationOutcome → KeyUsage
  | none => keys
  | some outcome => recordKeyMutationOutcome e identity outcome keys

/-- The cloud and the usage of its keys, from empty databases. -/
def meteredCloud : Transition.System MeteredCloud MeteredEvent where
  init m := m = {}
  step m event m' :=
    match event with
    | .served e identity event outcome =>
        cloud.step m.cloud event m'.cloud ∧ outcome = event.outcome m.cloud ∧
          m'.keys = m.keys.after e identity outcome
    | .tracked e identity method operation statusCode =>
        m' = { m with keys := recordKeyRequest e identity method operation statusCode m.keys }

end RollPig
