/-
The tables of `models.py`.

A table is the list of its rows in the order of their autoincrement `id`, which is
therefore not a column here.  Columns no modelled function reads are left out: the
tenant (always the default one) and the `updated_at` stamps.  Strings compared for
equality only with fixed words are inductive types; identifiers the clients choose,
and `force_mode` among them, stay strings.
-/
import RollPig.Clock
import RollPig.Tables
import Mathlib.Data.Fintype.Basic
import Mathlib.Data.Fintype.Pi

namespace RollPig

/-! ### Growth -/

/-- The appearance a client reports for a roll, as `_snapshot_payload` stores it. -/
structure SnapshotPayload where
  resolvedVariantLevel : Nat
  resolvedImageName : String
  unlockedVariantLevels : List Nat
  unlockedVariantFields : List String
deriving DecidableEq, Repr

/-- `appearance_snapshot`: the makeup mark, the payload, or both. -/
structure AppearanceSnapshot where
  isMakeup : Bool
  payload : Option SnapshotPayload
deriving DecidableEq, Repr

structure DailyRoll where
  dateStr : Date
  userId : String
  pigId : String
  isNewPig : Option Bool := none
  previousCopies : Option Int := none
  copiesAfterRoll : Option Int := none
  previousExpertLevel : Option Int := none
  expertLevelAfterRoll : Option Int := none
  collectionSizeAfterRoll : Option Int := none
  previousDuplicateStreak : Option Int := none
  duplicateStreakAfterRoll : Option Int := none
  resourceVersion : Option String := none
  appearanceSnapshot : Option AppearanceSnapshot := none
  createdAt : Time
deriving DecidableEq, Repr

/-- `(appearance_snapshot or {}).get("is_makeup") is True`. -/
def DailyRoll.isMakeup (roll : DailyRoll) : Bool :=
  match roll.appearanceSnapshot with
  | some snapshot => snapshot.isMakeup
  | none => false

structure GroupRoll where
  dateStr : Date
  groupId : String
  userId : String
  pigId : String
  seenAt : Time
deriving DecidableEq, Repr

structure Collection where
  userId : String
  pigId : String
  firstSeenAt : Time
deriving DecidableEq, Repr

structure UserPigProgress where
  userId : String
  pigId : String
  copies : Int := 1
  growthBonus : Int := 0
  firstObtainedAt : Time
deriving DecidableEq, Repr

/-- `source_type` of a feed: an ordinary roast event or a settled reservation. -/
inductive FeedSource | roast | reservation
deriving DecidableEq, Repr

structure UserDailyFeed where
  dateStr : Date
  userId : String
  pigId : String
  sourceType : FeedSource
  sourceId : String
  previousLevel : Int
  newLevel : Int
  createdAt : Time
deriving DecidableEq, Repr

structure UserDrawState where
  userId : String
  duplicateStreak : Int := 0
deriving DecidableEq, Repr

/-! ### Usage, activity and events -/

structure UserUsage where
  userId : String
  lastRoastTs : Option Int := none
  roastCharges : Option Int := none
  roastChargeUpdatedTs : Option Int := none
  lastForceDate : Option Date := none
deriving DecidableEq, Repr

structure GroupDailyActiveUser where
  dateStr : Date
  groupId : String
  userId : String
  activeAt : Time
deriving DecidableEq, Repr

/-- The participant part of `participant_snapshot`, written for reservation events. -/
structure SnapshotParticipants where
  ids : List String
  names : List String
  count : Int
deriving DecidableEq, Repr

/-- The keys of `participant_snapshot`; a key that was not written is `none`. -/
structure ParticipantSnapshot where
  participants : Option SnapshotParticipants := none
  backfireVictimId : Option String := none
  backfireVictimName : Option String := none
  backfireVictimIds : Option (List String) := none
  backfireVictimNames : Option (List String) := none
  specialReason : Option String := none
  forceMode : Option String := none
  protectionLevel : Option Nat := none
  reservationOwnerId : Option String := none
  reservationOwnerName : Option String := none
deriving DecidableEq, Repr

structure RoastEvent where
  dateStr : Date
  groupId : String
  eventType : String
  attackerId : String
  targetId : String
  attackerName : String
  targetName : String
  foodName : String
  reservationId : String
  participantSnapshot : Option ParticipantSnapshot
  createdAt : Time
deriving DecidableEq, Repr

/-! ### Protections -/

/-- Where a protection comes from. -/
inductive Source | daily | manual | pig | legacy
deriving DecidableEq, Repr

instance : Fintype Source where
  elems := {.daily, .manual, .pig, .legacy}
  complete := by intro source; cases source <;> decide

/-- A `dict[str, int]` keyed by sources. -/
abbrev Levels := Source → Option Nat

structure GroupProtection where
  protectDate : Date
  groupId : String
  userId : String
  roastSuccessCount : Nat := 0
  sourceLevels : Option Levels := none
  sourceBaselines : Option Levels := none
  baseLevel : Nat := 1
  consecutiveDays : Nat := 1
deriving DecidableEq

/-! ### Roast reservations -/

inductive Status | pending | ready | processing | prepared | sending | completed
deriving DecidableEq, Repr

inductive NoticeStatus | pending | processing | sending | sent
deriving DecidableEq, Repr

/-- The JSON of `waiting_notice`. -/
structure WaitingNotice where
  status : NoticeStatus
  claimToken : Option String := none
  claimedAt : Option String := none
deriving DecidableEq, Repr

/-- A JSON object up to Python's `==`: its canonical text, and the event type it
names, `str(snapshot.get("event_type") or "")`. -/
structure OutcomeSnapshot where
  eventType : String
  canonical : String
deriving DecidableEq, Repr

inductive FeedStatus | fed | alreadyFed | maxLevel | noDailyPig
deriving DecidableEq, Repr

structure DailyFeedResult where
  status : FeedStatus
  userId : String
  pigId : String := ""
  previousLevel : Int := 0
  newLevel : Int := 0
  sourceType : FeedSource
  sourceId : String
  createdAt : Option Time := none
deriving DecidableEq, Repr

structure RoastReservation where
  reservationId : String
  dateStr : Date
  groupId : String
  targetId : String
  targetName : String := ""
  targetPigId : String := ""
  ownerId : String
  ownerName : String := ""
  ownerPigId : String
  deliveryBotId : String
  forceMode : Option String := none
  status : Status := .pending
  /-- `1` while the round is in progress, null once it is completed. -/
  activeSlot : Option Nat := some 1
  protectionRequired : Nat := 0
  protectionSource : Source := .legacy
  waitingNotice : Option WaitingNotice := none
  deliveryGatheringVersion : Int := 0
  forceOperatorId : String := ""
  forceOperatorName : String := ""
  forceFeedUserIds : Option (List String) := none
  outcomeSnapshot : Option OutcomeSnapshot := none
  dailyFeedResults : Option (List DailyFeedResult) := none
  claimToken : Option String := none
  createdAt : Time
  readyAt : Option Time := none
  claimedAt : Option Time := none
  completedAt : Option Time := none
deriving DecidableEq, Repr

structure RoastReservationMessage where
  botId : String
  groupId : String
  messageId : String
  reservationId : String
  dateStr : Date
deriving DecidableEq, Repr

structure RoastReservationParticipant where
  reservationId : String
  userId : String
  displayName : String := ""
  pigId : String
  contribution : Nat := 1
  joinedAt : Time
deriving DecidableEq, Repr

/-! ### Daily reports -/

inductive DeliveryStatus | pending | claimed | sending | sent | failed | uncertain | skipped
deriving DecidableEq, Repr

/-- One report for a group and the date it is about. -/
structure DailyReportDelivery where
  dateStr : Date
  groupId : String
  status : DeliveryStatus := .pending
  instanceId : String := ""
  deliveryBotId : String := ""
  claimToken : Option String := none
  cutoffAt : Time
  claimedAt : Option Time := none
  attemptCount : Nat := 0
  nextAttemptAt : Option Time := none
  sentAt : Option Time := none
  messageId : String := ""
  lastError : String := ""
deriving DecidableEq, Repr

/-- The unique key.  Rows are never deleted and never change it, so it names a row as
well as its `id` does. -/
def DailyReportDelivery.key (row : DailyReportDelivery) : Date × String :=
  (row.dateStr, row.groupId)

/-! ### Refills -/

inductive RefillStatus | voting | succeeded | failed | expired
deriving DecidableEq, Repr

structure GroupRoastRefillRequest where
  requestId : String
  /-- The date and the group while the request is voted on, null afterwards. -/
  activeKey : Option String := none
  dateStr : Date
  groupId : String
  initiatorId : String
  initiatorName : String := ""
  deliveryBotId : String
  messageId : String := ""
  activeCountSnapshot : Nat
  requiredRatio : Nat
  requiredVotes : Nat
  successCountBefore : Nat := 0
  status : RefillStatus := .voting
  benefitedUserIds : Option (List String) := none
  failureReason : String := ""
  createdAt : Time
  expiresAt : Time
  completedAt : Option Time := none
deriving DecidableEq, Repr

/-! ### The database -/

structure Db where
  dailyRolls : List DailyRoll := []
  groupRolls : List GroupRoll := []
  collections : List Collection := []
  userPigProgress : List UserPigProgress := []
  userDailyFeeds : List UserDailyFeed := []
  userDrawState : List UserDrawState := []
  userUsage : List UserUsage := []
  activeUsers : List GroupDailyActiveUser := []
  roastEvents : List RoastEvent := []
  groupProtections : List GroupProtection := []
  reservations : List RoastReservation := []
  messages : List RoastReservationMessage := []
  participants : List RoastReservationParticipant := []

namespace Db

/-! ### Reading -/

/-- The roll of a user on a date. -/
def dailyRoll? (db : Db) (date : Date) (userId : String) : Option DailyRoll :=
  db.dailyRolls.find? fun roll => roll.dateStr = date ∧ roll.userId = userId

/-- The protection row of a user in a group on a date. -/
def protection? (db : Db) (date : Date) (groupId userId : String) : Option GroupProtection :=
  db.groupProtections.find? fun row =>
    row.protectDate = date ∧ row.groupId = groupId ∧ row.userId = userId

def reservation? (db : Db) (reservationId : String) : Option RoastReservation :=
  db.reservations.find? fun row => row.reservationId = reservationId

/-- The participants of a reservation, in the order they joined. -/
def members (db : Db) (reservationId : String) : List RoastReservationParticipant :=
  db.participants.filter fun row => row.reservationId = reservationId

def usage? (db : Db) (userId : String) : Option UserUsage :=
  db.userUsage.find? fun row => row.userId = userId

/-! ### Flushing -/

/-- Write changed reservations back. -/
def flushReservations (db : Db) (rows : List RoastReservation) : Db :=
  { db with reservations := Tables.writeBack (·.reservationId) rows db.reservations }

/-- Write changed participants back. -/
def flushParticipants (db : Db) (rows : List RoastReservationParticipant) : Db :=
  { db with
    participants := Tables.writeBack (fun row => (row.reservationId, row.userId)) rows db.participants }

/-- Write a changed protection row back. -/
def flushProtection (db : Db) (row : GroupProtection) : Db :=
  { db with
    groupProtections :=
      Tables.writeBack (fun row => (row.protectDate, row.groupId, row.userId)) [row]
        db.groupProtections }

/-- Write a changed usage row back. -/
def flushUsage (db : Db) (row : UserUsage) : Db :=
  { db with userUsage := Tables.writeBack (·.userId) [row] db.userUsage }

end Db

/-- What a request reads from outside the database: the application clock, the
database clock behind `server_default=func.now()`, and the values `uuid4` returns. -/
structure Env where
  now : Time
  dbNow : Time
  uuid : Nat → String

end RollPig
