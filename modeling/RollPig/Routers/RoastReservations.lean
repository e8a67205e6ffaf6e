/-
The life of a round, `routers/roast_reservations.py`.

A round is prepared and joined, opens once its target is there and its threshold met,
and is then leased, settled, sent and completed by whichever bot holds the claim token.
Every function here is the body of one transaction; `prepare` alone has two, and its
handler, with the retry, is `prepare` below.
-/
import RollPig.Services.Events
import RollPig.Services.Progress
import RollPig.Services.Reservations

namespace RollPig

def roastReservationClaimTimeout : Time := minutes 5

/-! ### Notifications and replies -/

/-- `bind_message`. -/
def bindMessage (req : RoastReservationBindMessageRequest) (db : Db) : Bool × Db :=
  let known := db.reservations.any fun row =>
    row.reservationId = req.reservationId ∧ row.groupId = req.groupId ∧ row.dateStr = req.dateStr
  if !known then (false, db)
  else
    let existing := db.messages.find? fun row =>
      row.botId = req.botId ∧ row.groupId = req.groupId ∧ row.messageId = req.messageId
    match existing with
    | some row => (row.reservationId = req.reservationId, db)
    | none =>
        (true, { db with
          messages := (db.messages.filter fun row => ¬ row.dateStr < req.dateStr - 7) ++
            [({ botId := req.botId, groupId := req.groupId, messageId := req.messageId,
                reservationId := req.reservationId, dateStr := req.dateStr } :
              RoastReservationMessage)] })

/-- The prepare request a reply stands for; the pig is the one in the ledger. -/
def replyRequest (req : RoastReservationReplyJoinRequest) (reservation : RoastReservation)
    (roll : DailyRoll) : RoastReservationPrepareRequest :=
  { attackerId := req.attackerId, attackerName := req.attackerName, attackerPigId := roll.pigId,
    targetId := reservation.targetId, targetName := reservation.targetName,
    groupId := req.groupId, deliveryBotId := req.botId, dateStr := req.dateStr,
    supportsProtectionGathering := true,
    protectionGatheringVersion := req.protectionGatheringVersion }

/-- Register the replying user's first appearance in the group. -/
def registerReply (e : Env) (req : RoastReservationReplyJoinRequest) (roll : DailyRoll) (db : Db) :
    Db :=
  if db.groupRolls.any fun row =>
      row.dateStr = req.dateStr ∧ row.groupId = req.groupId ∧ row.userId = req.attackerId then db
  else { db with
    groupRolls := db.groupRolls ++
      [({ dateStr := req.dateStr, groupId := req.groupId, userId := req.attackerId,
          pigId := roll.pigId, seenAt := e.dbNow } : GroupRoll)] }

/-- `join_by_message`; `rolls` is the table `daily_rolls` as this transaction sees it. -/
def joinByMessage (e : Env) (rolls : List DailyRoll) (req : RoastReservationReplyJoinRequest)
    (db : Db) : Except DbError (RoastReservationPrepareResponse × Db) :=
  if req.dateStr ≠ rollpigToday e.now then .ok ({ status := .reservationClosed }, db)
  else
    let binding := db.messages.find? fun row =>
      row.botId = req.botId ∧ row.groupId = req.groupId ∧ row.messageId = req.messageId
    match binding with
    | none => .ok ({ status := .messageNotFound }, db)
    | some binding =>
        let reservation := db.reservations.find? fun row =>
          row.reservationId = binding.reservationId ∧ row.groupId = req.groupId ∧
            row.dateStr = req.dateStr
        match reservation.filter (·.status = .pending) with
        | none => .ok ({ status := .reservationClosed }, db)
        | some reservation =>
            if reservation.targetId = req.attackerId then .ok ({ status := .selfTarget }, db)
            else
              match presentRoll rolls req.dateStr req.attackerId with
              | none => .ok ({ status := .attackerUnrolled }, db)
              | some roll =>
                  match prepareReservation e rolls (replyRequest req reservation roll)
                      (some reservation.reservationId) (e.uuid 0) db with
                  | .error error => .error error
                  | .ok (response, db) =>
                      if response.status = .reservationJoined ∨
                          response.status = .alreadyJoined then
                        .ok (response, registerReply e req roll db)
                      else .ok (response, db)

/-! ### Preparing -/

/-- The responses after which the handler reconciles with the target's roll. -/
def RoastReservationPrepareResponse.reconciles (response : RoastReservationPrepareResponse) :
    Bool :=
  response.status = .reservationCreated || response.status = .reservationJoined ||
    response.status = .reservationUpgraded || response.status = .alreadyJoined

/-- What `prepare` still has to do after its first commit. -/
structure PrepareInFlight where
  dateStr : Date
  targetId : String
  response : RoastReservationPrepareResponse
deriving DecidableEq

/-- The second transaction of `prepare`: the target may have rolled meanwhile, and the
response shows the round as it is then. -/
def reconcilePrepare (e : Env) (flight : PrepareInFlight) (db : Db) :
    RoastReservationPrepareResponse × Db :=
  let handledId := match flight.response.reservation with
    | some item => item.reservationId
    | none => ""
  let db := (activateIfTargetAlreadyRolled e flight.dateStr flight.targetId db handledId).2
  match flight.response.reservation with
  | none => (flight.response, db)
  | some item =>
      ({ flight.response with reservation := (db.reservation? item.reservationId).map db.schema },
       db)

/-- One pass through the body of `prepare`, with nothing else running. -/
def prepareAttempt (e : Env) (req : RoastReservationPrepareRequest) (reservationId : String)
    (db : Db) : Except DbError (RoastReservationPrepareResponse × Db) :=
  match prepareReservation e db.dailyRolls req none reservationId db with
  | .error error => .error error
  | .ok (response, db) =>
      if response.reconciles then
        .ok (reconcilePrepare e { dateStr := req.dateStr, targetId := req.targetId, response } db)
      else .ok (response, db)

/-- How `prepare` fails: `RuntimeError("prepare roast reservation retry exhausted")`. -/
inductive PrepareError | retryExhausted
deriving DecidableEq, Repr

/-- `prepare`, executed alone: a unique key conflict rolls the transaction back and the
whole attempt is made once more. -/
def prepare (e : Env) (req : RoastReservationPrepareRequest) (db : Db) :
    Except PrepareError (RoastReservationPrepareResponse × Db) :=
  match prepareAttempt e req (e.uuid 0) db with
  | .ok result => .ok result
  | .error .integrityError =>
      match prepareAttempt e req (e.uuid 1) db with
      | .ok result => .ok result
      | .error .integrityError => .error .retryExhausted

/-! ### Claiming -/

/-- The client declares the gathering protocol, version 2 or later. -/
def RoastReservationClaimRequest.gathers (req : RoastReservationClaimRequest) : Bool :=
  req.supportsProtectionGathering && 2 ≤ req.protectionGatheringVersion

/-- The reservations this client puts off: the first 64 of the list, blanks ignored. -/
def RoastReservationClaimRequest.excludedIds (req : RoastReservationClaimRequest) : List String :=
  (req.excludedReservationIds.take 64).filter (· ≠ "")

/-- `max(1, min(12, req.limit))`. -/
def RoastReservationClaimRequest.rowLimit (req : RoastReservationClaimRequest) : Nat :=
  (max 1 (min 12 req.limit)).toNat

/-- The claiming bot delivers this reservation on this date. -/
def deliveredBy (req : RoastReservationClaimRequest) (row : RoastReservation) : Bool :=
  row.deliveryBotId = req.deliveryBotId && row.dateStr = req.dateStr

/-- The rows the claim records the client's capability in. -/
def declaresCapability (req : RoastReservationClaimRequest) (row : RoastReservation) : Bool :=
  deliveredBy req row && (row.status = .pending || row.status = .ready) &&
    row.deliveryGatheringVersion < 2

/-- The capability update. -/
def declareCapability (req : RoastReservationClaimRequest) (db : Db) : Db :=
  if req.gathers then
    db.flushReservations ((db.reservations.filter (declaresCapability req)).map fun row =>
      { row with deliveryGatheringVersion := 2 })
  else db

/-- The lease is free: never taken, or taken too long ago. -/
def leaseExpired (now : Time) (row : RoastReservation) : Bool :=
  match row.claimedAt with
  | none => true
  | some claimedAt => claimedAt < now - roastReservationClaimTimeout

/-- A row this request may lease. -/
def claimable (e : Env) (req : RoastReservationClaimRequest) (row : RoastReservation) : Bool :=
  deliveredBy req row &&
    (row.status = .ready ||
      ((row.status = .processing || row.status = .prepared) && leaseExpired e.now row)) &&
    !req.excludedIds.contains row.reservationId &&
    (req.gathers || (row.protectionRequired = 0 && row.forceOperatorId = ""))

/-- The lease of one row; a fixed result goes to an old client as `sending`. -/
def leaseRow (e : Env) (req : RoastReservationClaimRequest) (token : String)
    (row : RoastReservation) : RoastReservation :=
  { row with
    status := if row.outcomeSnapshot.isSome then
      (if req.supportsPrepared then .prepared else .sending) else .processing
    claimToken := some token
    claimedAt := some e.now }

/-- A waiting notice this request may lease.  The lease time is compared as the text
that was stored. -/
def noticeClaimable (e : Env) (req : RoastReservationClaimRequest) (row : RoastReservation) :
    Bool :=
  deliveredBy req row && row.status = .pending && row.targetPigId ≠ "" &&
    0 < row.protectionRequired && row.forceMode ≠ some "super" &&
    !req.excludedIds.contains row.reservationId &&
    match row.waitingNotice with
    | none => false
    | some notice =>
        notice.status = .pending ||
          (notice.status = .processing &&
            match notice.claimedAt with
            | none => false
            | some claimedAt => claimedAt < isoformat (e.now - roastReservationClaimTimeout))

/-- The lease of one waiting notice. -/
def leaseNotice (e : Env) (token : String) (row : RoastReservation) : RoastReservation :=
  { row with
    waitingNotice := some
      { status := .processing, claimToken := some token, claimedAt := some (isoformat e.now) } }

/-- The states in which a round still belongs to its bot. -/
def isOwned (botId : String) (date : Date) (row : RoastReservation) : Bool :=
  row.deliveryBotId = botId && row.dateStr = date &&
    (row.status = .pending || row.status = .ready || row.status = .processing ||
      row.status = .prepared)

/-- `owned`. -/
def owned (botId : String) (date : Date) (db : Db) : Bool :=
  db.reservations.any (isOwned botId date)

/-- Lease the claimable rows, in the order of their ids. -/
def leaseRows (e : Env) (req : RoastReservationClaimRequest) (db : Db) : List RoastReservation :=
  ((db.reservations.filter (claimable e req)).take req.rowLimit).mapIdx fun i row =>
    leaseRow e req (e.uuid i) row

/-- Lease the claimable waiting notices; `used` tokens are taken already. -/
def leaseNotices (e : Env) (req : RoastReservationClaimRequest) (used : Nat) (db : Db) :
    List RoastReservation :=
  if req.supportsWaitingNotice && req.gathers then
    ((db.reservations.filter (noticeClaimable e req)).take req.rowLimit).mapIdx fun j row =>
      leaseNotice e (e.uuid (used + j)) row
  else []

/-- The item of a leased notice shows the notice's token. -/
def noticeItem (db : Db) (row : RoastReservation) : RoastReservationItem :=
  { db.schema row with
    claimToken := match row.waitingNotice with
      | some notice => notice.claimToken.getD ""
      | none => "" }

/-- `claim`. -/
def claim (e : Env) (req : RoastReservationClaimRequest) (db : Db) :
    RoastReservationClaimResponse × Db :=
  let db := declareCapability req db
  let rows := leaseRows e req db
  let db := db.flushReservations rows
  let notices := leaseNotices e req rows.length db
  let db := db.flushReservations notices
  ({ items := rows.map db.schema, hasOwned := owned req.deliveryBotId req.dateStr db,
     waitingNotices := notices.map (noticeItem db) }, db)

/-! ### Waiting notices -/

/-- The next state of a notice, if the action is allowed. -/
def advanceNotice (notice : WaitingNotice) (action : NoticeAction) : Option WaitingNotice :=
  match action, notice.status with
  | .sending, .processing | .sending, .sending => some { notice with status := .sending }
  | .sent, .sending | .sent, .sent => some { notice with status := .sent }
  | .release, .processing => some { status := .pending }
  | _, _ => none

/-- `transition_waiting_notice`. -/
def transitionWaitingNotice (e : Env) (req : RoastWaitingNoticeRequest) (db : Db) : Bool × Db :=
  match db.reservation? req.reservationId with
  | none => (false, db)
  | some row =>
      match row.waitingNotice with
      | none => (false, db)
      | some notice =>
          if row.status ≠ .pending ∨ row.dateStr ≠ rollpigToday e.now ∨ req.claimToken = "" ∨
              notice.claimToken ≠ some req.claimToken then (false, db)
          else
            match advanceNotice notice req.action with
            | none => (false, db)
            | some notice => (true, db.flushReservations [{ row with waitingNotice := some notice }])

/-! ### Settling -/

/-- A refusal. -/
def refused : RoastReservationMutationResponse := { ok := false }

/-- The row of a request, if the request holds its token in one of these states. -/
def leasedRow (db : Db) (reservationId claimToken : String) (states : List Status) :
    Option RoastReservation :=
  (db.reservation? reservationId).filter fun row =>
    row.claimToken = some claimToken && states.contains row.status

/-- Whether this round feeds anybody. -/
def settlesFeed (row : RoastReservation) (req : RoastReservationOutcomeRequest) : Bool :=
  req.settleDailyFeed &&
    (!(row.forceFeedUserIds.getD []).isEmpty ||
      (row.forceMode ≠ some "normal" && row.forceMode ≠ some "super") ||
      (0 < row.protectionRequired && row.forceMode ≠ some "super")) &&
    req.outcomeSnapshot.eventType = "success"

/-- A participant who is fed: in a round taken over the ones whose right was saved,
in a protected one those who paid nothing, else everybody. -/
def feedEligible (row : RoastReservation) (member : RoastReservationParticipant) : Bool :=
  (row.forceMode = some "super" && (row.forceFeedUserIds.getD []).contains member.userId) ||
    (row.forceMode ≠ some "super" &&
      (row.protectionRequired = 0 || member.contribution = 1))

/-- Feed the users in this order. -/
def feedUsers (e : Env) (date : Date) (sourceId : String) :
    List String → Db → List (String × DailyFeedResult) × Db
  | [], db => ([], db)
  | userId :: rest, db =>
      let (result, db) := applyDailyFeed e date userId .reservation sourceId db
      let (results, db) := feedUsers e date sourceId rest db
      ((userId, result) :: results, db)

/-- Settle the feeds of a round: locked in the order of user ids, listed in the order
of the roster. -/
def settleFeeds (e : Env) (row : RoastReservation) (db : Db) : List DailyFeedResult × Db :=
  let eligible := ((db.members row.reservationId).filter (feedEligible row)).map (·.userId)
  let (results, db) :=
    feedUsers e row.dateStr row.reservationId (eligible.insertionSort (· ≤ ·)) db
  (eligible.filterMap fun userId => results.lookup userId, db)

/-- The protection row whose success counter the settlement raises. -/
def settledProtection (db : Db) (row : RoastReservation) : Option GroupProtection :=
  if 0 < row.protectionRequired then db.protection? row.dateStr row.groupId row.targetId
  else none

/-- Count a success against the protection. -/
def raiseSuccessCount (row : RoastReservation) (req : RoastReservationOutcomeRequest) (db : Db) :
    Db :=
  match settledProtection db row with
  | some protection =>
      if req.outcomeSnapshot.eventType = "success" then
        db.flushProtection
          { protection with roastSuccessCount := protection.roastSuccessCount + 1 }
      else db
  | none => db

/-- The first result of a round: store it, count the success, settle the feeds. -/
def storeOutcome (e : Env) (req : RoastReservationOutcomeRequest) (row : RoastReservation)
    (db : Db) : RoastReservation × Db :=
  let db := raiseSuccessCount row req db
  let (results, db) := if settlesFeed row req then settleFeeds e row db else ([], db)
  ({ row with outcomeSnapshot := some req.outcomeSnapshot, dailyFeedResults := some results }, db)

/-- A row whose result is fixed is prepared. -/
def markPrepared (row : RoastReservation) : RoastReservation :=
  if row.status = .processing then { row with status := .prepared } else row

/-- Answer with the row as it is written back. -/
def answer (row : RoastReservation) (db : Db) : RoastReservationMutationResponse × Db :=
  let db := db.flushReservations [row]
  ({ ok := true, reservation := some (db.schema row) }, db)

/-- `_prepare_outcome_once`. -/
def prepareOutcomeOnce (e : Env) (req : RoastReservationOutcomeRequest) (db : Db) :
    RoastReservationMutationResponse × Db :=
  match leasedRow db req.reservationId req.claimToken
      [.processing, .prepared, .sending, .completed] with
  | none => (refused, db)
  | some row =>
      match row.outcomeSnapshot with
      | none =>
          if row.status ≠ .processing then (refused, db)
          else
            let (row, db) := storeOutcome e req row db
            answer (markPrepared row) db
      | some snapshot =>
          if snapshot ≠ req.outcomeSnapshot then (refused, db)
          else answer (markPrepared row) db

/-- `save_outcome`, the old client's endpoint: it sends right after. -/
def saveOutcome (req : RoastReservationOutcomeRequest) (db : Db) :
    RoastReservationMutationResponse × Db :=
  match leasedRow db req.reservationId req.claimToken [.processing, .sending, .completed] with
  | none => (refused, db)
  | some row =>
      let accepted : Option RoastReservation := match row.outcomeSnapshot with
        | none =>
            if row.status ≠ .processing then none
            else some { row with outcomeSnapshot := some req.outcomeSnapshot }
        | some snapshot => if snapshot ≠ req.outcomeSnapshot then none else some row
      match accepted with
      | none => (refused, db)
      | some row =>
          answer (if row.status = .processing then { row with status := .sending } else row) db

/-- `mark_sending`. -/
def markSending (req : RoastReservationMutationRequest) (db : Db) :
    RoastReservationMutationResponse × Db :=
  match (leasedRow db req.reservationId req.claimToken [.prepared, .sending, .completed]).filter
      (·.outcomeSnapshot.isSome) with
  | none => (refused, db)
  | some row =>
      answer (if row.status = .prepared then { row with status := .sending } else row) db

/-- The row a completion leaves. -/
def completedRow (e : Env) (row : RoastReservation) : RoastReservation :=
  if row.status ≠ .completed then
    { row with status := .completed, activeSlot := none, completedAt := some e.now }
  else row

/-- `complete`, with the event if one is sent along. -/
def complete (e : Env) (req : RoastReservationCompleteRequest) (db : Db) :
    RoastReservationMutationResponse × Db :=
  match leasedRow db req.reservationId req.claimToken [.sending, .completed] with
  | none => (refused, db)
  | some row =>
      let (response, db) := answer (completedRow e row) db
      match req.event, response.reservation with
      | some event, some item =>
          let ((recorded, _), db) :=
            recordRoastEventWithStatus e (bindReservationEvent item event) (some item) db
          ({ response with eventRecorded := recorded }, db)
      | _, _ => (response, db)

/-- `release`. -/
def release (req : RoastReservationMutationRequest) (db : Db) :
    RoastReservationMutationResponse × Db :=
  match leasedRow db req.reservationId req.claimToken [.processing, .prepared] with
  | none => (refused, db)
  | some row => answer { row with status := .ready, claimToken := none, claimedAt := none } db

end RollPig
