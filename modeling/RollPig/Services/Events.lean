/-
Roast events, `services/events.py`.

An event of a reservation is bound to it: the identities come from the stored round,
whatever the client sent, and a round has at most one event.
-/
import RollPig.Services.Activity
import RollPig.Services.Reservations

namespace RollPig

/-- `a or b` for strings. -/
def orElse (text fallback : String) : String :=
  if text ≠ "" then text else fallback

/-- The request with its identity fields taken from the reservation. -/
def bindReservationEvent (reservation : RoastReservationItem) (req : EventCreateRequest) :
    EventCreateRequest :=
  let super : Bool := reservation.forceMode = some "super"
  { req with
    dateStr := some reservation.dateStr
    groupId := reservation.groupId
    attackerId := orElse reservation.forceOperatorId reservation.ownerId
    attackerName := orElse reservation.forceOperatorName reservation.ownerName
    targetId := reservation.targetId
    targetName := reservation.targetName
    reservationId := reservation.reservationId
    participantIds := reservation.participants.map (·.userId)
    participantNames := reservation.participants.map (·.displayName)
    participantCount := reservation.participants.length
    forceMode := reservation.forceMode.getD ""
    protectionLevel := reservation.protectionRequired - 1
    reservationOwnerId := if super then reservation.ownerId else ""
    reservationOwnerName := if super then reservation.ownerName else "" }

/-- The participant part of the snapshot, written for reservation events only. -/
def reservationSnapshot (req : EventCreateRequest) : Option ParticipantSnapshot :=
  if req.reservationId = "" then none
  else
    let snapshot : ParticipantSnapshot :=
      { participants := some
          { ids := req.participantIds, names := req.participantNames,
            count := req.participantCount }
        backfireVictimId := some req.backfireVictimId
        backfireVictimName := some req.backfireVictimName }
    if req.backfireVictimIds = [] then some snapshot
    else some { snapshot with
      backfireVictimIds := some req.backfireVictimIds
      backfireVictimNames := some req.backfireVictimNames }

/-- The special reason; without a reservation it is stored alone. -/
def addSpecialReason (req : EventCreateRequest) (snapshot : Option ParticipantSnapshot) :
    Option ParticipantSnapshot :=
  if req.specialReason = "" then snapshot
  else some { snapshot.getD {} with specialReason := some req.specialReason }

/-- The force and backfire part. -/
def addForceDetails (req : EventCreateRequest) (snapshot : Option ParticipantSnapshot) :
    Option ParticipantSnapshot :=
  if req.forceMode = "" ∧ req.protectionLevel = 0 ∧ req.backfireVictimIds = [] ∧
      req.reservationOwnerId = "" then snapshot
  else some { snapshot.getD {} with
    forceMode := some req.forceMode
    protectionLevel := some req.protectionLevel
    reservationOwnerId := some req.reservationOwnerId
    reservationOwnerName := some req.reservationOwnerName
    backfireVictimId := some req.backfireVictimId
    backfireVictimName := some req.backfireVictimName
    backfireVictimIds := some req.backfireVictimIds
    backfireVictimNames := some req.backfireVictimNames }

def eventSnapshot (req : EventCreateRequest) : Option ParticipantSnapshot :=
  addForceDetails req (addSpecialReason req (reservationSnapshot req))

/-- The users an event makes active: a bot that backfired is not one. -/
def eventActiveUsers (req : EventCreateRequest) : List String :=
  req.attackerId :: req.participantIds ++
    (if req.eventType ≠ "bot_backfire" then [req.targetId] else [])

/-- Store the event and register its users. -/
def insertRoastEvent (e : Env) (req : EventCreateRequest) (db : Db) : Db :=
  let targetDate := req.dateStr.getD (rollpigToday e.now)
  let db := { db with
    roastEvents := db.roastEvents ++
      [({ dateStr := targetDate, groupId := req.groupId, eventType := req.eventType,
          attackerId := req.attackerId, targetId := req.targetId,
          attackerName := req.attackerName, targetName := req.targetName, foodName := req.food,
          reservationId := req.reservationId, participantSnapshot := eventSnapshot req,
          createdAt := e.dbNow } : RoastEvent)] }
  markGroupActiveUsers e targetDate req.groupId (eventActiveUsers req) db

/-- Record an event: `(recorded, created)`, where a reservation's second event is
recorded already and creates nothing. -/
def recordRoastEventWithStatus (e : Env) (req : EventCreateRequest)
    (reservation : Option RoastReservationItem) (db : Db) : (Bool × Bool) × Db :=
  if req.reservationId = "" then ((true, true), insertRoastEvent e req db)
  else
    let reservation := match reservation with
      | some item => some item
      | none => (db.reservation? req.reservationId).map db.schema
    if db.roastEvents.any fun row => row.reservationId = req.reservationId then
      ((true, false), db)
    else
      let req := match reservation with
        | some item => bindReservationEvent item req
        | none => req
      ((true, true), insertRoastEvent e req db)

end RollPig
