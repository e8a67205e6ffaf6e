/-
Creating, joining and opening rounds, `services/reservations.py`.

`prepareReservation` is one transaction: it takes the locks in the source's order,
then either enters the active round of the target (`enterRound`: busy, takeover,
join or upgrade) or opens a new one (`openRound`).  `daily_rolls` is read by a plain
SELECT, which under a repeatable-read snapshot may be older than the rows read under
row locks; the table it sees is the argument `rolls`.
-/
import RollPig.Services.Usage
import RollPig.Services.Activity
import RollPig.Services.Protections

namespace RollPig

def roastReservationMaxParticipants : Nat := 12

/-- The pseudo group of protections from before they were kept by group. -/
def allGroups : String := "__all__"

/-- The client declares the gathering protocol, version 2 or later. -/
def RoastReservationPrepareRequest.gathers (req : RoastReservationPrepareRequest) : Bool :=
  req.supportsProtectionGathering && 2 ≤ req.protectionGatheringVersion

/-- Whether the request may take over the delivery of an unclaimed protected round
whose bot cannot handle it. -/
def canReassignProtectedDelivery (row : RoastReservation) (req : RoastReservationPrepareRequest) :
    Bool :=
  0 < row.protectionRequired && row.forceMode ≠ some "super" &&
    row.deliveryGatheringVersion < 2 && (row.status = .pending || row.status = .ready) &&
    row.outcomeSnapshot.isNone && (row.claimToken.getD "" = "") && req.gathers &&
    req.deliveryBotId ≠ ""

/-- Record the delivery capability a valid participation shows. -/
def updateDeliveryCapability (row : RoastReservation) (req : RoastReservationPrepareRequest) :
    RoastReservation :=
  if !req.gathers then row
  else
    let row := if canReassignProtectedDelivery row req then
      { row with deliveryBotId := req.deliveryBotId } else row
    if row.deliveryBotId = req.deliveryBotId then { row with deliveryGatheringVersion := 2 }
    else row

def participantItem (row : RoastReservationParticipant) : RoastReservationParticipantItem :=
  { userId := row.userId, displayName := row.displayName, pigId := row.pigId,
    contribution := row.contribution }

/-- `reservation_to_schema` for a row and its roster. -/
def reservationToSchema (row : RoastReservation) (members : List RoastReservationParticipant) :
    RoastReservationItem :=
  { reservationId := row.reservationId, dateStr := row.dateStr, groupId := row.groupId,
    targetId := row.targetId, targetName := row.targetName, targetPigId := row.targetPigId,
    ownerId := row.ownerId, ownerName := row.ownerName, ownerPigId := row.ownerPigId,
    participants := members.map participantItem, deliveryBotId := row.deliveryBotId,
    forceMode := row.forceMode, status := row.status, outcomeSnapshot := row.outcomeSnapshot,
    dailyFeedResults := row.dailyFeedResults.getD [], claimToken := row.claimToken.getD "",
    protectionRequired := row.protectionRequired, protectionSource := row.protectionSource,
    forceOperatorId := row.forceOperatorId, forceOperatorName := row.forceOperatorName,
    forceFeedUserIds := row.forceFeedUserIds.getD [] }

/-- The schema of a stored row. -/
def Db.schema (db : Db) (row : RoastReservation) : RoastReservationItem :=
  reservationToSchema row (db.members row.reservationId)

/-! ### The locks of a prepare -/

/-- The protection row that governs the target, inheriting a global one into the
group for a client that knows gathering. -/
def lockProtection (req : RoastReservationPrepareRequest) (db : Db) :
    Option GroupProtection × Db :=
  match db.protection? req.dateStr req.groupId req.targetId with
  | some protection => (some protection, db)
  | none =>
      match db.protection? req.dateStr allGroups req.targetId with
      | some legacy =>
          if req.supportsProtectionGathering then
            let protection := inheritGlobalProtection legacy req.groupId
            (some protection,
             { db with groupProtections := db.groupProtections ++ [protection] })
          else (some legacy, db)
      | none => (none, db)

/-- The roll that proves the target present: a makeup does not. -/
def presentRoll (rolls : List DailyRoll) (date : Date) (userId : String) : Option DailyRoll :=
  (rolls.find? fun roll => roll.dateStr = date ∧ roll.userId = userId).filter (!·.isMakeup)

/-- The active round of the target this request has to do with. -/
def findRound (req : RoastReservationPrepareRequest) (db : Db) : Option RoastReservation :=
  db.reservations.find? fun row =>
    row.dateStr = req.dateStr ∧ row.groupId = req.groupId ∧ row.targetId = req.targetId ∧
      row.activeSlot = some 1 ∧
      (row.status = .pending ∨ 0 < row.protectionRequired ∨ req.forceMode = some "super")

/-- The pig the target arrived with: the one saved in the round, else the roll seen. -/
def arrivedPigId (row : RoastReservation) (targetRoll : Option DailyRoll) : String :=
  if row.targetPigId ≠ "" then row.targetPigId
  else match targetRoll with
    | some roll => roll.pigId
    | none => ""

/-- Open the round if its target has arrived. -/
def activateIfArrived (e : Env) (members : List RoastReservationParticipant)
    (row : RoastReservation) (pigId : String) (notifyWaiting : Bool := true) : RoastReservation :=
  if pigId ≠ "" then (activateReservation e members row pigId notifyWaiting).1 else row

/-! ### Entering the active round -/

/-- Who keeps the right to be fed when the round is taken over. -/
def takeoverFeedUserIds (row : RoastReservation) (members : List RoastReservationParticipant)
    (attackerId : String) : List String :=
  (members.filter fun member =>
    member.userId ≠ attackerId &&
      (row.forceMode = none || 0 < row.protectionRequired) &&
      (row.protectionRequired = 0 || member.contribution = 1)).map (·.userId)

/-- The row a super force takes over. -/
def takenOver (row : RoastReservation) (members : List RoastReservationParticipant)
    (req : RoastReservationPrepareRequest) : RoastReservation :=
  { row with
    forceFeedUserIds := some (takeoverFeedUserIds row members req.attackerId)
    forceOperatorId := req.attackerId
    forceOperatorName := req.attackerName
    forceMode := some "super"
    deliveryBotId := req.deliveryBotId
    deliveryGatheringVersion := 2 }

/-- Take the round over with a super force. -/
def takeoverRound (e : Env) (req : RoastReservationPrepareRequest) (targetRoll : Option DailyRoll)
    (row : RoastReservation) (members : List RoastReservationParticipant) (db : Db) :
    RoastReservationPrepareResponse × Db :=
  let db := markGroupActiveUsers e req.dateStr req.groupId [req.attackerId] db
  let row' := activateIfArrived e members (takenOver row members req) (arrivedPigId row targetRoll)
  ({ status := .reservationJoined, reservation := some (reservationToSchema row' members) },
   db.flushReservations [row'])

/-- The participant row of a request. -/
def newParticipant (e : Env) (reservationId : String) (req : RoastReservationPrepareRequest)
    (contribution : Nat) : RoastReservationParticipant :=
  { reservationId, userId := req.attackerId, displayName := req.attackerName,
    pigId := req.attackerPigId, contribution, joinedAt := e.dbNow }

/-- Whether joining costs a force use and counts double. -/
def boosts (req : RoastReservationPrepareRequest) (row : RoastReservation) : Bool :=
  0 < row.protectionRequired && req.forceMode = some "normal"

/-- The row after a join or an upgrade, with the roster it leads to. -/
def joinedRow (e : Env) (req : RoastReservationPrepareRequest) (targetRoll : Option DailyRoll)
    (row : RoastReservation) (members : List RoastReservationParticipant) : RoastReservation :=
  let row := updateDeliveryCapability row req
  let row := if req.forceMode = some "super" ∧ 0 < row.protectionRequired then
    { row with forceMode := some "super" } else row
  let row := { row with waitingNotice := none }
  activateIfArrived e members row (arrivedPigId row targetRoll) false

/-- Pay for a double contribution with the day's force use. -/
def payBoost (req : RoastReservationPrepareRequest) (boosted : Bool) (db : Db) : Option Db :=
  if boosted then consumeForceUsage req.attackerId req.dateStr db else some db

/-- Write the round back under its new roster and answer with it. -/
def answerJoin (e : Env) (req : RoastReservationPrepareRequest) (targetRoll : Option DailyRoll)
    (row : RoastReservation) (members : List RoastReservationParticipant) (status : PrepareStatus)
    (db : Db) : RoastReservationPrepareResponse × Db :=
  let row' := joinedRow e req targetRoll row members
  let db := markGroupActiveUsers e req.dateStr req.groupId [req.attackerId] db
  ({ status, reservation := some (reservationToSchema row' members) }, db.flushReservations [row'])

/-- A participant of the round asks again: raise the contribution, or just confirm. -/
def rejoinRound (e : Env) (req : RoastReservationPrepareRequest) (targetRoll : Option DailyRoll)
    (row : RoastReservation) (members : List RoastReservationParticipant)
    (participant : RoastReservationParticipant) (db : Db) :
    RoastReservationPrepareResponse × Db :=
  let boosted := boosts req row
  if ¬(boosted ∧ participant.contribution < 2) ∧ req.forceMode ≠ some "super" then
    let row' := { updateDeliveryCapability row req with waitingNotice := none }
    ({ status := .alreadyJoined, reservation := some (reservationToSchema row' members) },
     db.flushReservations [row'])
  else
    match payBoost req boosted db with
    | none => ({ status := .forceDenied }, db)
    | some db =>
        let upgraded := if boosted then { participant with contribution := 2 } else participant
        let members := members.map fun member =>
          if member.userId = req.attackerId then upgraded else member
        answerJoin e req targetRoll row members
          (if boosted then .reservationUpgraded else .reservationJoined)
          (db.flushParticipants [upgraded])

/-- A new user joins the round. -/
def enlistRound (e : Env) (req : RoastReservationPrepareRequest) (targetRoll : Option DailyRoll)
    (row : RoastReservation) (members : List RoastReservationParticipant) (db : Db) :
    RoastReservationPrepareResponse × Db :=
  let boosted := boosts req row
  if roastReservationMaxParticipants ≤ members.length then
    ({ status := .reservationFull, reservation := some (reservationToSchema row members) }, db)
  else
    match payBoost req boosted db with
    | none => ({ status := .forceDenied }, db)
    | some db =>
        let participant := newParticipant e row.reservationId req (if boosted then 2 else 1)
        answerJoin e req targetRoll row (members ++ [participant]) .reservationJoined
          { db with participants := db.participants ++ [participant] }

/-- Join a waiting round, or raise one's contribution to it. -/
def joinRound (e : Env) (req : RoastReservationPrepareRequest) (targetRoll : Option DailyRoll)
    (row : RoastReservation) (members : List RoastReservationParticipant) (db : Db) :
    RoastReservationPrepareResponse × Db :=
  match members.find? fun member => member.userId = req.attackerId with
  | some participant => rejoinRound e req targetRoll row members participant db
  | none => enlistRound e req targetRoll row members db

/-- The request meets an active round. -/
def enterRound (e : Env) (req : RoastReservationPrepareRequest) (targetRoll : Option DailyRoll)
    (row : RoastReservation) (db : Db) : RoastReservationPrepareResponse × Db :=
  let members := db.members row.reservationId
  if row.status ≠ .pending then
    let row' := if canReassignProtectedDelivery row req then updateDeliveryCapability row req
      else row
    ({ status := .reservationBusy, reservation := some (reservationToSchema row' members) },
     db.flushReservations [row'])
  else if row.forceMode = some "super" then
    let operator := if row.forceOperatorId ≠ "" then row.forceOperatorId else row.ownerId
    ({ status := if operator = req.attackerId then .alreadyJoined else .reservationClosed,
       reservation := some (reservationToSchema row members) }, db)
  else if req.forceMode = some "super" then
    if !req.gathers then
      ({ status := .reservationClosed, reservation := some (reservationToSchema row members) }, db)
    else takeoverRound e req targetRoll row members db
  else joinRound e req targetRoll row members db

/-! ### Opening a new round -/

/-- What a flush raises when a unique key is taken. -/
inductive DbError | integrityError
deriving DecidableEq, Repr

/-- Pay for a new round: a force use, nothing for a super force, else a roast charge.
`Except.error` is the refusal to answer with. -/
def payForRound (e : Env) (req : RoastReservationPrepareRequest) (db : Db) :
    Except (RoastReservationPrepareResponse × Db) (Option ConsumeRoastResponse × Db) :=
  if req.forceMode = some "normal" then
    match consumeForceUsage req.attackerId req.dateStr db with
    | none => .error ({ status := .forceDenied }, db)
    | some db => .ok (none, db)
  else if req.forceMode ≠ some "super" then
    let (cooldown, db) :=
      consumeRoastUsage e req.attackerId req.nowTs req.cooldownSeconds req.maxCharges db
    if cooldown.allowed then .ok (some cooldown, db)
    else .error ({ status := .cooldownDenied, cooldown := some cooldown }, db)
  else .ok (none, db)

/-- The unique key of the active rounds is taken. -/
def activeSlotTaken (db : Db) (date : Date) (groupId targetId : String) : Bool :=
  db.reservations.any fun row =>
    row.dateStr = date && row.groupId = groupId && row.targetId = targetId &&
      row.activeSlot = some 1

/-- The row a request creates. -/
def newReservation (e : Env) (req : RoastReservationPrepareRequest)
    (protection : Option GroupProtection) (reservationId : String) : RoastReservation :=
  { reservationId, dateStr := req.dateStr, groupId := req.groupId, targetId := req.targetId,
    targetName := req.targetName, ownerId := req.attackerId, ownerName := req.attackerName,
    ownerPigId := req.attackerPigId, deliveryBotId := req.deliveryBotId,
    deliveryGatheringVersion := if req.gathers then 2 else 0, forceMode := req.forceMode,
    status := .pending,
    protectionRequired := match protection with
      | some row => if req.supportsProtectionGathering then 1 + protectionLevel row else 0
      | none => 0
    protectionSource := match protection with
      | some row => protectionSource row
      | none => .legacy
    createdAt := e.dbNow }

/-- The owner's participant row. -/
def ownerParticipant (e : Env) (req : RoastReservationPrepareRequest)
    (protection : Option GroupProtection) (reservationId : String) :
    RoastReservationParticipant :=
  newParticipant e reservationId req
    (if protection.isSome ∧ req.forceMode = some "normal" then 2 else 1)

/-- The row as it is inserted: opened at once if the target is there already. -/
def insertedRow (e : Env) (req : RoastReservationPrepareRequest) (targetRoll : Option DailyRoll)
    (protection : Option GroupProtection) (reservationId : String) : RoastReservation :=
  let row := newReservation e req protection reservationId
  match targetRoll with
  | some roll =>
      (activateReservation e [ownerParticipant e req protection reservationId] row roll.pigId
        false).1
  | none => row

/-- Insert the round and its owner. -/
def insertRound (e : Env) (req : RoastReservationPrepareRequest) (targetRoll : Option DailyRoll)
    (protection : Option GroupProtection) (reservationId : String) (db : Db) : Db :=
  markGroupActiveUsers e req.dateStr req.groupId [req.attackerId]
    { db with
      reservations :=
        db.reservations ++ [insertedRow e req targetRoll protection reservationId]
      participants := db.participants ++ [ownerParticipant e req protection reservationId] }

/-- No active round: answer that the target is ready, or pay and create one. -/
def openRound (e : Env) (req : RoastReservationPrepareRequest) (targetRoll : Option DailyRoll)
    (protection : Option GroupProtection) (reservationId : String) (db : Db) :
    Except DbError (RoastReservationPrepareResponse × Db) :=
  let isProtected := protection.isSome
  let protectionBroken := isProtected && req.forceMode = some "super"
  let ready := targetRoll.filter fun _ =>
    !isProtected || (req.forceMode = some "super" && !req.supportsProtectionGathering)
  match ready with
  | some roll => .ok ({ status := .targetReady, targetPigId := roll.pigId, protectionBroken }, db)
  | none =>
      match payForRound e req db with
      | .error refusal => .ok refusal
      | .ok (cooldown, db) =>
          if activeSlotTaken db req.dateStr req.groupId req.targetId then .error .integrityError
          else
            let db := insertRound e req targetRoll protection reservationId db
            let row := insertedRow e req targetRoll protection reservationId
            .ok ({ status := .reservationCreated, reservation := some (db.schema row), cooldown,
                   protectionBroken }, db)

/-- A reply may only join the waiting round it is bound to. -/
def expectationFails (expectedReservationId : Option String) (targetRoll : Option DailyRoll)
    (found : Option RoastReservation) : Bool :=
  match expectedReservationId, found with
  | none, _ => false
  | some _, none => true
  | some expected, some row =>
      row.reservationId ≠ expected ||
        (targetRoll.isSome && row.protectionRequired = 0) || row.status ≠ .pending

/-- Check the target, enter its active round or open a new one, in one transaction. -/
def prepareReservation (e : Env) (rolls : List DailyRoll) (req : RoastReservationPrepareRequest)
    (expectedReservationId : Option String) (reservationId : String) (db : Db) :
    Except DbError (RoastReservationPrepareResponse × Db) :=
  let (protection, db) := lockProtection req db
  if protection.isSome ∧ !req.gathers ∧ req.forceMode ≠ some "super" then
    .ok ({ status := .targetProtected }, db)
  else
    let targetRoll := presentRoll rolls req.dateStr req.targetId
    let found := findRound req db
    if expectationFails expectedReservationId targetRoll found then
      .ok ({ status := .reservationClosed }, db)
    else
      match found with
      | some row => .ok (enterRound e req targetRoll row db)
      | none => openRound e req targetRoll protection reservationId db

/-! ### Arrival of a target -/

/-- The rounds an arrival is offered to. -/
def awaitsTarget (date : Date) (targetId : String) (row : RoastReservation) : Bool :=
  row.dateStr = date && row.targetId = targetId && row.status = .pending

/-- One waiting round meets the arrival; the round of `noticeHandledId` answers its
progress directly and keeps no notice. -/
def arriveRow (e : Env) (targetPigId noticeHandledId : String) (row : RoastReservation)
    (members : List RoastReservationParticipant) : RoastReservation × Bool :=
  let handled : Bool := row.reservationId = noticeHandledId
  let (row', opened) := activateReservation e members row targetPigId (!handled)
  (if handled then { row' with waitingNotice := none } else row', opened)

/-- Offer the target's pig to its waiting rounds in every group; returns how many opened. -/
def activateTargetReservations (e : Env) (date : Date) (targetId targetPigId : String)
    (db : Db) (noticeHandledId : String := "") : Nat × Db :=
  let makeup := match db.dailyRoll? date targetId with
    | some roll => roll.isMakeup
    | none => false
  if makeup then (0, db)
  else
    let arrivals := (db.reservations.filter (awaitsTarget date targetId)).map fun row =>
      arriveRow e targetPigId noticeHandledId row (db.members row.reservationId)
    ((arrivals.filter (·.2)).length, db.flushReservations (arrivals.map (·.1)))

/-- Reconcile after a prepare committed: the target may have rolled meanwhile. -/
def activateIfTargetAlreadyRolled (e : Env) (date : Date) (targetId : String) (db : Db)
    (noticeHandledId : String := "") : Nat × Db :=
  match presentRoll db.dailyRolls date targetId with
  | none => (0, db)
  | some roll => activateTargetReservations e date targetId roll.pigId db noticeHandledId

end RollPig
