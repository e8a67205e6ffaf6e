/-
Protection levels and the pending rounds they govern, `services/protections.py`.

A row keeps a level for each source it was granted from and, for each source, the
value its success counter had at that time; the level in force is what the source
was granted plus the successes since, capped at five.  `syncPendingProtection`
copies level and source into the rounds still waiting, and puts a round whose
target already arrived through the ignition test again.
-/
import RollPig.Schemas

namespace RollPig

/-- The sources, in the order `protection_source` prefers them. -/
def sourceOrder : List Source := [.daily, .manual, .pig, .legacy]

/-- `max(levels.values(), default=0)`. -/
def Levels.highest (levels : Levels) : Nat :=
  (sourceOrder.filterMap levels).foldl max 0

/-- The levels by source; a row from before sources existed counts as `legacy`. -/
def protectionSources (row : GroupProtection) : Levels :=
  match row.sourceLevels with
  | some levels => levels
  | none => fun source => if source = .legacy then some row.baseLevel else none

/-- `row.source_baselines or {}`. -/
def protectionBaselines (row : GroupProtection) : Levels :=
  match row.sourceBaselines with
  | some baselines => baselines
  | none => fun _ => none

/-- The level each source gives now. -/
def protectionLevels (row : GroupProtection) : Levels := fun source =>
  (protectionSources row source).map fun level =>
    min 5 (level + (row.roastSuccessCount - (protectionBaselines row source).getD 0))

/-- The level in force. -/
def protectionLevel (row : GroupProtection) : Nat :=
  (protectionLevels row).highest

/-- The source whose level is in force; among equals the daily pool comes first. -/
def protectionSource (row : GroupProtection) : Source :=
  let levels := protectionLevels row
  (sourceOrder.find? fun source => levels source = some levels.highest).getD .legacy

/-- The group's own copy of a global protection, not yet stored. -/
def inheritGlobalProtection (row : GroupProtection) (groupId : String) : GroupProtection :=
  let level := protectionLevel row
  { protectDate := row.protectDate, groupId, userId := row.userId, baseLevel := level,
    roastSuccessCount := 0, consecutiveDays := 0,
    sourceLevels := some fun source => if source = .legacy then some level else none,
    sourceBaselines := some fun source => if source = .legacy then some 0 else none }

/-- A daily protection from before sources were recorded. -/
def isHistoricalDailyProtection (row : GroupProtection) : Bool :=
  let sources := protectionSources row
  (sources .legacy).isSome && (sources .daily).isNone && 0 < row.consecutiveDays

/-! ### Ignition

`_activate_reservation` belongs to `services/reservations.py`; the two source files use
each other, so it stands here.
-/

/-- The total contribution of a roster. -/
def totalContribution (members : List RoastReservationParticipant) : Nat :=
  (members.map (·.contribution)).sum

/-- The target has arrived: record its pig and open the round unless it is protected
and still undermanned.  The flag says whether it opened. -/
def activateReservation (e : Env) (members : List RoastReservationParticipant)
    (row : RoastReservation) (targetPigId : String) (notifyWaiting : Bool := true) :
    RoastReservation × Bool :=
  let firstArrival : Bool := row.targetPigId = ""
  let row := { row with targetPigId }
  if 0 < row.protectionRequired ∧ row.forceMode ≠ some "super" ∧
      totalContribution members < row.protectionRequired then
    (if firstArrival && notifyWaiting then
       { row with waitingNotice := some { status := .pending } } else row, false)
  else
    ({ row with waitingNotice := none, status := .ready, readyAt := some e.now }, true)

/-! ### Synchronising the waiting rounds -/

/-- Whether the sync turns the owner's force use into double fire: an ordinary round
paid for with a force use becomes a protected one. -/
def doublesOwner (removed : Bool) (row : RoastReservation) : Bool :=
  !removed && row.protectionRequired = 0 && row.forceMode = some "normal"

/-- The roster after that. -/
def syncMembers (removed : Bool) (row : RoastReservation)
    (members : List RoastReservationParticipant) : List RoastReservationParticipant :=
  members.map fun member =>
    if doublesOwner removed row ∧ member.userId = row.ownerId then
      { member with contribution := 2 } else member

/-- The threshold and source a protection gives. -/
def governedRow (protection : GroupProtection) (removed : Bool) (row : RoastReservation) :
    RoastReservation :=
  { row with
    protectionRequired := if removed then 0 else 1 + protectionLevel protection
    protectionSource := if removed then .legacy else protectionSource protection }

/-- A round that still waits under a changed threshold announces it again. -/
def announceThreshold (previousRequired : Nat) (row : RoastReservation) : RoastReservation :=
  if row.status = .pending ∧ previousRequired ≠ row.protectionRequired then
    { row with waitingNotice := some { status := .pending } } else row

/-- The body of the sync loop, for one waiting round and its roster. -/
def syncReservation (e : Env) (protection : GroupProtection) (removed : Bool)
    (members : List RoastReservationParticipant) (row : RoastReservation) : RoastReservation :=
  if row.targetPigId ≠ "" then
    announceThreshold row.protectionRequired
      (activateReservation e members (governedRow protection removed row) row.targetPigId).1
  else governedRow protection removed row

/-- The rounds the sync rewrites: waiting, for this target, and not taken over. -/
def awaitsProtection (protection : GroupProtection) (groupId : String) (row : RoastReservation) :
    Bool :=
  row.dateStr = protection.protectDate && row.groupId = groupId &&
    row.targetId = protection.userId && row.status = .pending && row.forceMode ≠ some "super"

/-- `group_id or row.group_id`. -/
def syncGroup (protection : GroupProtection) (groupId : Option String) : String :=
  match groupId with
  | some groupId => if groupId = "" then protection.groupId else groupId
  | none => protection.groupId

/-- Copy a protection row into the waiting rounds of its target; `removed` restores
them to ordinary rounds. -/
def syncPendingProtection (e : Env) (protection : GroupProtection) (removed : Bool) (db : Db)
    (groupId : Option String := none) : Db :=
  let pending := db.reservations.filter
    (awaitsProtection protection (syncGroup protection groupId))
  let db := db.flushParticipants
    (pending.flatMap fun row => syncMembers removed row (db.members row.reservationId))
  db.flushReservations
    (pending.map fun row =>
      syncReservation e protection removed (db.members row.reservationId) row)

end RollPig
