/-
Recording and listing events, `routers/events.py`.
-/
import RollPig.Routers.GroupRolls
import RollPig.Services.Events
import RollPig.Services.Progress

namespace RollPig

/-- `create_event`: the event, and the growth of an ordinary successful roast, in one
transaction. -/
def createEvent (e : Env) (req : EventCreateRequest) (db : Db) : EventCreateResponse × Db :=
  let date := req.dateStr.getD (rollpigToday e.now)
  let (_, db) := recordRoastEventWithStatus e { req with dateStr := some date } none db
  if req.settleDailyFeed ∧ req.sourceId ≠ "" ∧ req.eventType = "success" ∧
      req.reservationId = "" then
    let (result, db) := applyDailyFeed e date req.attackerId .roast req.sourceId db
    ({ dailyFeedResult := some result }, db)
  else ({}, db)

/-! ### Listing -/

/-- The order of the list: by time, then by id. -/
def eventOrder (a b : RoastEvent × Nat) : Prop :=
  a.1.createdAt < b.1.createdAt ∨ (a.1.createdAt = b.1.createdAt ∧ a.2 ≤ b.2)

instance : DecidableRel eventOrder := fun a b => by
  unfold eventOrder
  infer_instance

/-- The event concerns the user. -/
def eventConcerns (userId : String) (row : RoastEvent) : Bool :=
  let snapshot := row.participantSnapshot.getD {}
  row.attackerId = userId || row.targetId = userId ||
    (match snapshot.participants with
      | some participants => participants.ids.contains userId
      | none => false) ||
    snapshot.backfireVictimId.getD "" = userId ||
    (snapshot.backfireVictimIds.getD []).contains userId

/-- An event as it is answered; a key the snapshot lacks reads as its default. -/
def eventItem (row : RoastEvent) (id : Nat) : EventItem :=
  let snapshot := row.participantSnapshot.getD {}
  { eventId := toString id
    createdAt := row.createdAt
    type := row.eventType
    attacker := row.attackerId
    target := row.targetId
    attackerName := row.attackerName
    targetName := row.targetName
    food := row.foodName
    groupId := row.groupId
    reservationId := row.reservationId
    participantIds := (snapshot.participants.map (·.ids)).getD []
    participantNames := (snapshot.participants.map (·.names)).getD []
    participantCount := (snapshot.participants.map (·.count)).getD 0
    backfireVictimId := snapshot.backfireVictimId.getD ""
    backfireVictimName := snapshot.backfireVictimName.getD ""
    backfireVictimIds := snapshot.backfireVictimIds.getD []
    backfireVictimNames := snapshot.backfireVictimNames.getD []
    specialReason := snapshot.specialReason.getD ""
    forceMode := snapshot.forceMode.getD ""
    protectionLevel := snapshot.protectionLevel.getD 0
    reservationOwnerId := snapshot.reservationOwnerId.getD ""
    reservationOwnerName := snapshot.reservationOwnerName.getD "" }

/-- `list_events`.  Events are never deleted, so the id of a row is its place in the
table, counted from one.  An empty `group_id` or `user_id` is none. -/
def listEvents (date : Date) (groupId userId : Option String) (cutoffAt : Option Time) (db : Db) :
    List EventItem :=
  let selected := (db.roastEvents.zipIdx 1).filter fun row =>
    row.1.dateStr = date && (groupId.getD "" = "" || row.1.groupId = groupId.getD "") &&
      atCutoff cutoffAt row.1.createdAt
  let rows := selected.insertionSort eventOrder
  let rows := if userId.getD "" = "" then rows
    else rows.filter fun row => eventConcerns (userId.getD "") row.1
  rows.map fun row => eventItem row.1 row.2

end RollPig
