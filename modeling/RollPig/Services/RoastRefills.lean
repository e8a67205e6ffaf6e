/-
Group refills, from `services/roast_refills.py`.

A group votes for a refill of its roast charges.  The thresholds are frozen when the vote
starts, and only one vote of a group and date is on at a time, which `active_key` sees to.
A vote expires when somebody next looks at it, whatever the request.  Every function here is
called inside one transaction, which the router commits.
-/
import RollPig.Services.Activity
import RollPig.Services.Reservations
import RollPig.Services.Usage

namespace RollPig

/-- The database, and beside it the table of the refill requests. -/
structure RefillStore where
  db : Db := {}
  requests : List GroupRoastRefillRequest := []

namespace RefillStore

/-- Write a changed request back. -/
def flush (s : RefillStore) (row : GroupRoastRefillRequest) : RefillStore :=
  { s with requests := Tables.writeBack (·.requestId) [row] s.requests }

def request? (s : RefillStore) (requestId : String) : Option GroupRoastRefillRequest :=
  s.requests.find? fun row => row.requestId = requestId

def active? (s : RefillStore) (activeKey : String) : Option GroupRoastRefillRequest :=
  s.requests.find? fun row => row.activeKey = some activeKey

end RefillStore

def roastRefillTtl : Int := minutes 10

def roastRefillThresholdPolicy : String := "capped-v1"

def roastRefillVoteWeightPolicy : String := "group-manager-double-v1"

def roastRefillThresholdSteps : List (Nat × Nat) := [(25, 8), (35, 12), (45, 16), (55, 20)]

def roastRefillMinDistinctVoters : Nat := 2

def legacyRoastRefillRatios : List Nat := [25, 35, 45, 55, 65]

/-- To the nearest integer, and from halfway to the even one. -/
def roundHalfEven (q : Rat) : Int :=
  let low := q.floor
  if q - low < 1 / 2 ∨ (q - low = 1 / 2 ∧ low % 2 = 0) then low else low + 1

/-- `_utc_from_ts`: a Unix time in seconds, or the clock. -/
def utcFromTs (e : Env) (value : Option Rat) : Time :=
  match value with
  | some q => epochOrdinal * dayMicros + roundHalfEven (q * secondMicros)
  | none => e.now

/-- `date.isoformat()`. -/
def isodate (date : Date) : String :=
  let (year, month, day) := ord2ymd date.toNat
  zeroPad 4 year ++ "-" ++ zeroPad 2 month ++ "-" ++ zeroPad 2 day

/-- `_active_key`. -/
def refillActiveKey (date : Date) (groupId : String) : String := isodate date ++ ":" ++ groupId

/-- Ratio and votes; from the fourth refill of the day on they stay the same. -/
def refillThreshold (activeCount successCount : Nat) : Nat × Nat :=
  let (ratio, voteCap) :=
    roastRefillThresholdSteps.getD (min successCount (roastRefillThresholdSteps.length - 1)) (0, 0)
  let proportionalVotes := (activeCount * ratio + 99) / 100
  (ratio, max 2 (min proportionalVotes voteCap))

/-- The thresholds older clients know: five steps and no cap. -/
def legacyRefillThreshold (activeCount successCount : Nat) : Nat × Nat :=
  let ratio :=
    legacyRoastRefillRatios.getD (min successCount (legacyRoastRefillRatios.length - 1)) 0
  (ratio, max 2 ((activeCount * ratio + 99) / 100))

/-- `refill_to_schema`. -/
def refillToSchema (row : GroupRoastRefillRequest) : GroupRoastRefillItem :=
  { requestId := row.requestId, dateStr := row.dateStr, groupId := row.groupId,
    initiatorId := row.initiatorId, initiatorName := row.initiatorName,
    deliveryBotId := row.deliveryBotId, messageId := row.messageId,
    activeCountSnapshot := row.activeCountSnapshot, requiredRatio := row.requiredRatio,
    requiredVotes := row.requiredVotes, successCountBefore := row.successCountBefore,
    status := row.status, createdAt := row.createdAt, expiresAt := row.expiresAt,
    completedAt := row.completedAt,
    benefitedUserIds := normalizedIds (row.benefitedUserIds.getD []),
    failureReason := row.failureReason }

/-! ### Active users -/

/-- `sorted(set(…))`. -/
def sortedSet (ids : List String) : List String := ids.dedup.insertionSort (· ≤ ·)

/-- The active users of a group on a date, by a time if one is given. -/
def getGroupActiveUserIds (db : Db) (date : Date) (groupId : String)
    (cutoffAt : Option Time := none) : List String :=
  ((db.activeUsers.filter fun row =>
    row.dateStr = date ∧ row.groupId = groupId ∧ cutoffAt.all (row.activeAt ≤ ·)).map
      (·.userId)).insertionSort (· ≤ ·)

/-- Fill the charges of these users. -/
def resetRoastCharges (userIds : List String) (chargeMax nowEpoch : Int) (db : Db) : Db :=
  userIds.foldl (fun db userId =>
    match db.usage? userId with
    | some usage =>
        db.flushUsage
          { usage with roastCharges := some chargeMax, roastChargeUpdatedTs := some nowEpoch }
    | none =>
        { db with
          userUsage := db.userUsage ++
            [{ userId, roastCharges := some chargeMax, roastChargeUpdatedTs := some nowEpoch }] })
    db

/-! ### The life of a request -/

/-- A vote whose time is over is closed. -/
def expireIfNeeded (row : GroupRoastRefillRequest) (now : Time) : GroupRoastRefillRequest × Bool :=
  if row.status ≠ .voting ∨ now < row.expiresAt then (row, false)
  else ({ row with status := .expired, failureReason := "expired", activeKey := none }, true)

/-- `prepare_refill` once no vote is on; `requestId` is the value of `uuid4`. -/
def openRefill (now : Time) (voteWeightPolicy requestId : String)
    (req : GroupRoastRefillPrepareRequest) (s : RefillStore) :
    Except DbError (GroupRoastRefillPrepareResponse × RefillStore) :=
  let active := getGroupActiveUserIds s.db req.dateStr req.groupId
  let activeUserIds := match req.eligibleUserIds with
    | none => active
    | some eligible => sortedSet (active.filter fun userId => userId ≠ "" ∧ userId ∈ eligible)
  if activeUserIds.length < 3 then
    .ok ({ status := .insufficientActive, activeUserIds, voteWeightPolicy }, s)
  else
    let successCount := s.requests.countP fun row =>
      row.dateStr = req.dateStr ∧ row.groupId = req.groupId ∧ row.status = .succeeded
    let threshold := if req.thresholdPolicy = roastRefillThresholdPolicy then refillThreshold
      else legacyRefillThreshold
    let (requiredRatio, requiredVotes) := threshold activeUserIds.length successCount
    let activeKey := refillActiveKey req.dateStr req.groupId
    let row : GroupRoastRefillRequest :=
      { requestId, activeKey := some activeKey, dateStr := req.dateStr, groupId := req.groupId,
        initiatorId := req.initiatorId, initiatorName := req.initiatorName,
        deliveryBotId := req.deliveryBotId, activeCountSnapshot := activeUserIds.length,
        requiredRatio, requiredVotes, successCountBefore := successCount,
        benefitedUserIds := some [], createdAt := now, expiresAt := now + roastRefillTtl }
    if s.requests.any fun other =>
        other.requestId = requestId ∨ other.activeKey = some activeKey then
      .error .integrityError
    else
      .ok ({ status := .created, request := some (refillToSchema row), activeUserIds,
             voteWeightPolicy }, { s with requests := s.requests ++ [row] })

/-- `prepare_refill`. -/
def prepareRefill (e : Env) (requestId : String) (req : GroupRoastRefillPrepareRequest)
    (s : RefillStore) : Except DbError (GroupRoastRefillPrepareResponse × RefillStore) :=
  let now := utcFromTs e req.nowTs
  let voteWeightPolicy := if req.voteWeightPolicy = roastRefillVoteWeightPolicy then
    roastRefillVoteWeightPolicy else ""
  match s.active? (refillActiveKey req.dateStr req.groupId) with
  | none => openRefill now voteWeightPolicy requestId req s
  | some row =>
      let row := (expireIfNeeded row now).1
      let s := s.flush row
      if row.status = .voting then
        .ok ({ status := .existing, request := some (refillToSchema row), voteWeightPolicy }, s)
      else openRefill now voteWeightPolicy requestId req s

/-- `get_active_refill`. -/
def getActiveRefill (e : Env) (date : Date) (groupId : String) (nowTs : Option Rat)
    (s : RefillStore) : Option GroupRoastRefillRequest × RefillStore :=
  match s.active? (refillActiveKey date groupId) with
  | none => (none, s)
  | some row =>
      let (row, expired) := expireIfNeeded row (utcFromTs e nowTs)
      let s := s.flush row
      if expired then (none, s) else (if row.status = .voting then some row else none, s)

/-- `bind_refill_message`. -/
def bindRefillMessage (e : Env) (requestId messageId : String) (nowTs : Option Rat)
    (s : RefillStore) : Option GroupRoastRefillRequest × RefillStore :=
  match s.request? requestId with
  | none => (none, s)
  | some row =>
      if row.status ≠ .voting then (none, s)
      else
        let (row, expired) := expireIfNeeded row (utcFromTs e nowTs)
        if expired then (none, s.flush row)
        else if messageId = "" ∨ (row.messageId ≠ "" ∧ row.messageId ≠ messageId) then (none, s)
        else
          let row := { row with messageId }
          (some row, s.flush row)

/-- `fail_refill`. -/
def failRefill (requestId messageId reason : String) (s : RefillStore) : Bool × RefillStore :=
  match s.request? requestId with
  | none => (false, s)
  | some row =>
      if row.status ≠ .voting then (false, s)
      else if messageId ≠ "" ∧ row.messageId ≠ "" ∧ row.messageId ≠ messageId then (false, s)
      else
        (true, s.flush
          { row with
            status := .failed, failureReason := String.ofList (reason.toList.take 64),
            activeKey := none })

/-! ### Counting the votes -/

/-- The votes that count: of active users who are not excluded. -/
def validVoters (active : List String) (req : GroupRoastRefillCompleteRequest) : List String :=
  normalizedIds (req.voterIds.filter fun userId =>
    userId ∈ active ∧ userId ∉ req.excludedUserIds)

/-- Managers count twice under the policy that says so. -/
def effectiveVotes (valid : List String) (req : GroupRoastRefillCompleteRequest) : Nat :=
  valid.length +
    (if req.voteWeightPolicy = roastRefillVoteWeightPolicy then
      (valid.filter fun userId => userId ∈ req.managerVoterIds).length else 0)

/-- The users who benefit. -/
def benefitedUsers (active : List String) (req : GroupRoastRefillCompleteRequest) : List String :=
  sortedSet (active.filter fun userId => userId ∉ req.excludedUserIds.filter (· ≠ ""))

/-- `int(float(now_ts)) if now_ts is not None else int(time.time())`. -/
def refillEpoch (e : Env) (nowTs : Option Rat) : Int :=
  match nowTs with
  | some q => Int.tdiv q.num q.den
  | none => unixSeconds e.now

/-- `complete_refill`. -/
def completeRefill (e : Env) (req : GroupRoastRefillCompleteRequest) (s : RefillStore) :
    GroupRoastRefillCompleteResponse × RefillStore :=
  let now := utcFromTs e req.nowTs
  match s.request? req.requestId with
  | none => ({ completed := false, status := .missing }, s)
  | some row =>
      if row.status ≠ .voting then
        ({ completed := false, status := .closed row.status, request := some (refillToSchema row) },
         s)
      else if row.messageId = "" ∨ req.messageId = "" ∨ row.messageId ≠ req.messageId then
        ({ completed := false, status := .messageMismatch, request := some (refillToSchema row) }, s)
      else
        let (row, expired) := expireIfNeeded row now
        if expired then
          ({ completed := false, status := .closed .expired, request := some (refillToSchema row) },
           s.flush row)
        else
          let active := getGroupActiveUserIds s.db row.dateStr row.groupId
          let valid := validVoters active req
          let votes := effectiveVotes valid req
          if valid.length < roastRefillMinDistinctVoters ∨ votes < row.requiredVotes then
            ({ completed := false, status := .pending, request := some (refillToSchema row),
               validVoterIds := valid, effectiveVotes := votes }, s)
          else
            let benefited := benefitedUsers active req
            let (chargeMax, _) := clampChargeSettings (some req.maxCharges) none
            let db := resetRoastCharges benefited chargeMax (refillEpoch e req.nowTs) s.db
            let row := { row with
              status := .succeeded, activeKey := none, completedAt := some now,
              benefitedUserIds := some benefited }
            ({ completed := true, status := .closed .succeeded,
               request := some (refillToSchema row), validVoterIds := valid,
               benefitedUserIds := benefited, effectiveVotes := votes },
             { s with db }.flush row)

end RollPig
