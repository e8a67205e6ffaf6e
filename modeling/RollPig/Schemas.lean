/-
Requests and responses, `schemas.py`.

A constraint pydantic checks before the handler runs is a field of the request, so
a request that would be answered 422 cannot be built.
-/
import Mathlib.Data.List.Sort
import RollPig.Models

namespace RollPig

/-! ### Rolls -/

structure DailyRollGetOrCreateRequest where
  userId : String
  proposedPigId : String
  dateStr : Date
  groupId : String := ""

structure DailyRollOutcomeSnapshot where
  snapshotAvailable : Bool
  collectionSizeAfterRoll : Int
  resourceVersion : String := ""
  resolvedVariantLevel : Nat := 0
  resolvedImageName : String := ""
  unlockedVariantLevels : List Nat := []
  unlockedVariantFields : List String := []
deriving DecidableEq

structure DailyRollLookupResponse where
  isMakeup : Bool := false
  pigId : Option String := none
  created : Bool := false
  isNewPig : Bool := false
  previousCopies : Int := 0
  copies : Int := 0
  previousExpertLevel : Int := 0
  expertLevel : Int := 0
  dailyFeedResult : Option DailyFeedResult := none
  previousDuplicateStreak : Int := 0
  duplicateStreak : Int := 0
  outcomeSnapshot : Option DailyRollOutcomeSnapshot := none
deriving DecidableEq

/-- The fields a variant may unlock, in their order. -/
def variantFieldOrder : List String := ["image", "description", "analysis"]

/-- `validate_resolved_image_name`: a file name inside the resource package. -/
def resolvedImageNameSafe (value : String) : Bool :=
  value = "" || (value ≠ "." && value ≠ ".." &&
    ['/', '\\', ':'].all (!value.toList.contains ·) &&
    value.toList.all (32 ≤ ·.toNat))

/-- `normalize_unlocked_variant_levels`: `sorted(set(value))`. -/
def normalizeUnlockedVariantLevels (value : List Nat) : List Nat :=
  value.dedup.insertionSort (· ≤ ·)

/-- `normalize_unlocked_variant_fields`. -/
def normalizeUnlockedVariantFields (value : List String) : List String :=
  value.dedup.insertionSort fun a b => variantFieldOrder.idxOf a ≤ variantFieldOrder.idxOf b

/-- A snapshot request as its handler gets it: levels and fields stand once each, in order. -/
structure DailyRollSnapshotRequest where
  userId : String
  dateStr : Date
  pigId : String
  resourceVersion : String
  resolvedVariantLevel : Nat := 0
  resolvedImageName : String := ""
  unlockedVariantLevels : List Nat := []
  unlockedVariantFields : List String := []
  userId_ne : userId ≠ ""
  pigId_ne : pigId ≠ ""
  resourceVersion_ne : resourceVersion ≠ ""
  resolvedVariantLevel_le : resolvedVariantLevel ≤ 5
  resolvedImageName_safe : resolvedImageNameSafe resolvedImageName = true := by decide
  unlockedVariantLevels_mem : ∀ level ∈ unlockedVariantLevels, 1 ≤ level ∧ level ≤ 5 := by decide
  unlockedVariantLevels_sorted : unlockedVariantLevels.Pairwise (· < ·) := by decide
  unlockedVariantFields_mem : ∀ field ∈ unlockedVariantFields, field ∈ variantFieldOrder := by decide
  unlockedVariantFields_sorted : unlockedVariantFields.Pairwise fun a b =>
    variantFieldOrder.idxOf a < variantFieldOrder.idxOf b := by decide

/-- A snapshot request as a client sends it. -/
structure DailyRollSnapshotBody where
  userId : String
  dateStr : Date
  pigId : String
  resourceVersion : String
  resolvedVariantLevel : Nat := 0
  resolvedImageName : String := ""
  unlockedVariantLevels : List Nat := []
  unlockedVariantFields : List String := []

/-- The constraints of the fields; a body that breaks one is answered 422. -/
structure DailyRollSnapshotBody.Valid (body : DailyRollSnapshotBody) : Prop where
  userId : 1 ≤ body.userId.length ∧ body.userId.length ≤ 64
  pigId : 1 ≤ body.pigId.length ∧ body.pigId.length ≤ 128
  resourceVersion : 1 ≤ body.resourceVersion.length ∧ body.resourceVersion.length ≤ 192
  resolvedVariantLevel : body.resolvedVariantLevel ≤ 5
  resolvedImageName : body.resolvedImageName.length ≤ 192 ∧
    resolvedImageNameSafe body.resolvedImageName = true
  unlockedVariantLevels : body.unlockedVariantLevels.length ≤ 5 ∧
    ∀ level ∈ body.unlockedVariantLevels, 1 ≤ level ∧ level ≤ 5
  unlockedVariantFields : body.unlockedVariantFields.length ≤ 3 ∧
    ∀ field ∈ body.unlockedVariantFields, field ∈ variantFieldOrder

/-- `sorted(set(value), key=rank)` is strictly ascending, if no two members rank alike. -/
theorem pairwise_dedup_insertionSort {α : Type} [DecidableEq α] (rank : α → Nat) {value : List α}
    (hrank : ∀ a ∈ value, ∀ b ∈ value, rank a = rank b → a = b) :
    (value.dedup.insertionSort fun a b => rank a ≤ rank b).Pairwise
      fun a b => rank a < rank b := by
  have htotal : Std.Total fun a b : α => rank a ≤ rank b := ⟨fun a b => Nat.le_total _ _⟩
  have htrans : IsTrans α fun a b => rank a ≤ rank b := ⟨fun _ _ _ => Nat.le_trans⟩
  have hsorted := List.pairwise_insertionSort (fun a b : α => rank a ≤ rank b) value.dedup
  have hnodup : (value.dedup.insertionSort fun a b => rank a ≤ rank b).Nodup :=
    (List.perm_insertionSort _ _).nodup_iff.mpr (List.nodup_dedup _)
  refine (hsorted.and hnodup).imp_of_mem fun {a b} ha hb hab => ?_
  rw [List.mem_insertionSort, List.mem_dedup] at ha hb
  exact Nat.lt_of_le_of_ne hab.1 fun hsame => hab.2 (hrank a ha b hb hsame)

/-- The request a valid body is read as. -/
def DailyRollSnapshotBody.validate (body : DailyRollSnapshotBody) (h : body.Valid) :
    DailyRollSnapshotRequest where
  userId := body.userId
  dateStr := body.dateStr
  pigId := body.pigId
  resourceVersion := body.resourceVersion
  resolvedVariantLevel := body.resolvedVariantLevel
  resolvedImageName := body.resolvedImageName
  unlockedVariantLevels := normalizeUnlockedVariantLevels body.unlockedVariantLevels
  unlockedVariantFields := normalizeUnlockedVariantFields body.unlockedVariantFields
  userId_ne hempty := by simpa [hempty] using h.userId
  pigId_ne hempty := by simpa [hempty] using h.pigId
  resourceVersion_ne hempty := by simpa [hempty] using h.resourceVersion
  resolvedVariantLevel_le := h.resolvedVariantLevel
  resolvedImageName_safe := h.resolvedImageName.2
  unlockedVariantLevels_mem level hlevel := by
    rw [normalizeUnlockedVariantLevels, List.mem_insertionSort, List.mem_dedup] at hlevel
    exact h.unlockedVariantLevels.2 level hlevel
  unlockedVariantLevels_sorted := pairwise_dedup_insertionSort id fun _ _ _ _ heq => heq
  unlockedVariantFields_mem field hfield := by
    rw [normalizeUnlockedVariantFields, List.mem_insertionSort, List.mem_dedup] at hfield
    exact h.unlockedVariantFields.2 field hfield
  unlockedVariantFields_sorted := by
    refine pairwise_dedup_insertionSort (variantFieldOrder.idxOf ·) fun a ha b hb hsame => ?_
    exact (List.idxOf_inj (h.unlockedVariantFields.2 a ha)).mp hsame

/-! ### Usage -/

structure ConsumeRoastResponse where
  allowed : Bool
  remainingSeconds : Int := 0
  chargesLeft : Int := 0
  maxCharges : Int := 1
  nextRecoverSeconds : Int := 0
deriving DecidableEq, Repr

structure ConsumeRoastRequest where
  userId : String
  nowTs : Option Rat := none
  cooldownSeconds : Option Int := none
  maxCharges : Option Int := none

structure ConsumeForceRequest where
  userId : String
  dateStr : Date

/-! ### Events -/

structure EventCreateRequest where
  eventType : String
  attackerId : String
  targetId : String
  attackerName : String := ""
  targetName : String := ""
  food : String := ""
  groupId : String := ""
  dateStr : Option Date := none
  reservationId : String := ""
  participantIds : List String := []
  participantNames : List String := []
  participantCount : Int := 0
  backfireVictimId : String := ""
  backfireVictimName : String := ""
  backfireVictimIds : List String := []
  backfireVictimNames : List String := []
  specialReason : String := ""
  settleDailyFeed : Bool := false
  sourceId : String := ""
  forceMode : String := ""
  protectionLevel : Nat := 0
  reservationOwnerId : String := ""
  reservationOwnerName : String := ""

structure EventCreateResponse where
  dailyFeedResult : Option DailyFeedResult := none
deriving DecidableEq

/-! ### Protections -/

structure ReplaceGroupProtectionsRequest where
  groupId : String
  userIds : List String
  protectDate : Date
  initialLevel : Nat
  initialLevel_pos : 1 ≤ initialLevel
  initialLevel_le : initialLevel ≤ 5

/-- `ProtectedResponse`; its field `protected` is `isProtected` here. -/
structure ProtectedResponse where
  isProtected : Bool
  baseLevel : Nat := 0
  level : Nat := 0
  consecutiveDays : Nat := 0
  source : Source := .legacy
  dailyBaseLevel : Nat := 0
deriving DecidableEq

/-- The pattern `^[1-9][0-9]{0,19}$`. -/
def numericId (text : String) : Bool :=
  match text.toList with
  | [] => false
  | first :: rest =>
      first.isDigit && first != '0' && rest.all Char.isDigit && rest.length ≤ 19

structure GrantProtectionRequest where
  groupId : String
  userId : String
  level : Nat
  protectDate : Date
  groupId_numeric : numericId groupId = true
  userId_numeric : numericId userId = true
  level_pos : 1 ≤ level
  level_le : level ≤ 5

structure GrantProtectionResponse where
  level : Nat
  changed : Bool
deriving DecidableEq, Repr

/-! ### Roast reservations -/

structure RoastReservationParticipantItem where
  userId : String
  displayName : String := ""
  pigId : String := ""
  contribution : Nat := 1
deriving DecidableEq, Repr

structure RoastReservationItem where
  reservationId : String
  dateStr : Date
  groupId : String
  targetId : String
  targetName : String := ""
  targetPigId : String := ""
  ownerId : String
  ownerName : String := ""
  ownerPigId : String
  participants : List RoastReservationParticipantItem := []
  deliveryBotId : String
  forceMode : Option String := none
  status : Status
  outcomeSnapshot : Option OutcomeSnapshot := none
  dailyFeedResults : List DailyFeedResult := []
  claimToken : String := ""
  protectionRequired : Nat := 0
  protectionSource : Source := .legacy
  forceOperatorId : String := ""
  forceOperatorName : String := ""
  forceFeedUserIds : List String := []
deriving DecidableEq, Repr

structure RoastReservationPrepareRequest where
  attackerId : String
  attackerName : String := ""
  attackerPigId : String
  targetId : String
  targetName : String := ""
  groupId : String
  deliveryBotId : String
  forceMode : Option String := none
  dateStr : Date
  nowTs : Option Rat := none
  cooldownSeconds : Option Int := none
  maxCharges : Option Int := none
  supportsProtectionGathering : Bool := false
  protectionGatheringVersion : Int := 0

/-- The `status` of a prepare response. -/
inductive PrepareStatus
  | targetProtected | reservationClosed | reservationBusy | alreadyJoined | reservationJoined
  | reservationUpgraded | reservationFull | forceDenied | targetReady | cooldownDenied
  | reservationCreated | messageNotFound | selfTarget | attackerUnrolled
deriving DecidableEq, Repr

structure RoastReservationPrepareResponse where
  status : PrepareStatus
  reservation : Option RoastReservationItem := none
  cooldown : Option ConsumeRoastResponse := none
  targetPigId : String := ""
  protectionBroken : Bool := false
deriving DecidableEq, Repr

structure RoastReservationBindMessageRequest where
  botId : String
  groupId : String
  messageId : String
  dateStr : Date
  reservationId : String

structure RoastReservationReplyJoinRequest where
  botId : String
  groupId : String
  messageId : String
  dateStr : Date
  attackerId : String
  attackerName : String := ""
  protectionGatheringVersion : Int := 0

structure RoastReservationClaimRequest where
  deliveryBotId : String
  dateStr : Date
  limit : Int := 12
  supportsPrepared : Bool := false
  supportsProtectionGathering : Bool := false
  protectionGatheringVersion : Int := 0
  excludedReservationIds : List String := []
  supportsWaitingNotice : Bool := false

structure RoastReservationClaimResponse where
  items : List RoastReservationItem := []
  hasOwned : Bool := false
  waitingNotices : List RoastReservationItem := []
deriving DecidableEq, Repr

structure RoastReservationOutcomeRequest where
  reservationId : String
  claimToken : String
  outcomeSnapshot : OutcomeSnapshot
  settleDailyFeed : Bool := false

structure RoastReservationMutationRequest where
  reservationId : String
  claimToken : String

inductive NoticeAction | sending | sent | release
deriving DecidableEq, Repr

structure RoastWaitingNoticeRequest where
  reservationId : String
  claimToken : String
  action : NoticeAction

structure RoastReservationCompleteRequest where
  reservationId : String
  claimToken : String
  event : Option EventCreateRequest := none

structure RoastReservationMutationResponse where
  ok : Bool
  reservation : Option RoastReservationItem := none
  eventRecorded : Bool := false
deriving DecidableEq, Repr

/-! ### Daily reports -/

structure DailyReportDeliveryCandidate where
  groupId : String
  deliveryBotId : String
deriving DecidableEq

structure DailyReportClaimRequest where
  dateStr : Date
  cutoffAt : Time
  instanceId : String
  candidates : List DailyReportDeliveryCandidate := []
deriving DecidableEq

structure DailyReportClaimItem where
  dateStr : Date
  groupId : String
  deliveryBotId : String
  cutoffAt : Time
  claimToken : String
  status : DeliveryStatus := .claimed
  attemptCount : Nat := 1
deriving DecidableEq, Repr

structure DailyReportClaimResponse where
  items : List DailyReportClaimItem := []
  nextClaimAt : Option Time := none
deriving DecidableEq, Repr

inductive DeliveryAction | sending | sent | release | retry | uncertain | skip
deriving DecidableEq, Repr

structure DailyReportTransitionRequest where
  dateStr : Date
  groupId : String
  claimToken : String
  action : DeliveryAction
  messageId : String := ""
  error : String := ""
deriving DecidableEq

structure DailyReportTransitionResponse where
  ok : Bool
  status : Option DeliveryStatus := none
  attemptCount : Nat := 0
  nextAttemptAt : Option Time := none
deriving DecidableEq, Repr

/-- `user_ids` are the normalized ones, as the validator leaves them. -/
structure DailyReportProfileRequest where
  dateStr : Date
  groupId : String
  cutoffAt : Time
  userIds : List String := []

structure DailyReportProfileItem where
  userId : String
  dailyPigId : String := ""
  dailyExLevel : Option Int := none
  dailyAchievedAt : Option Time := none
  catalogCount : Nat := 0
  catalogAchievedAt : Option Time := none
  recentPigId : String := ""
  recentExLevel : Option Int := none
deriving DecidableEq, Repr

/-! ### Catalog -/

structure PigProgressItem where
  copies : Int := 0
  growthBonus : Int := 0
  firstObtainedAt : Option Time := none
deriving DecidableEq, Repr

structure DrawStateResponse where
  pigIds : List String := []
  progress : List (String × PigProgressItem) := []
  duplicateStreak : Int := 0
deriving DecidableEq, Repr

structure RecentRollItem where
  dateStr : Date
  pigId : String
deriving DecidableEq, Repr

structure CatalogSnapshotResponse where
  pigIds : List String := []
  progress : List (String × PigProgressItem) := []
  duplicateStreak : Int := 0
  recentRolls : List RecentRollItem := []
  roasted7d : Nat := 0
  roastEvents7d : Nat := 0
deriving DecidableEq, Repr

/-! ### Group rolls and events -/

structure GroupRollMarkSeenRequest where
  groupId : String
  userId : String
  pigId : String
  dateStr : Date

structure GroupRollItem where
  userId : String
  pigId : String
deriving DecidableEq, Repr

structure EventItem where
  eventId : String
  createdAt : Time
  type : String
  attacker : String
  target : String
  attackerName : String
  targetName : String
  food : String
  groupId : String
  reservationId : String
  participantIds : List String
  participantNames : List String
  participantCount : Int
  backfireVictimId : String
  backfireVictimName : String
  backfireVictimIds : List String
  backfireVictimNames : List String
  specialReason : String
  forceMode : String
  protectionLevel : Nat
  reservationOwnerId : String
  reservationOwnerName : String
deriving DecidableEq, Repr

/-! ### Refills -/

structure GroupRoastRefillItem where
  requestId : String
  dateStr : Date
  groupId : String
  initiatorId : String
  initiatorName : String := ""
  deliveryBotId : String
  messageId : String := ""
  activeCountSnapshot : Nat
  requiredRatio : Nat
  requiredVotes : Nat
  successCountBefore : Nat
  status : RefillStatus
  createdAt : Time
  expiresAt : Time
  completedAt : Option Time := none
  benefitedUserIds : List String := []
  failureReason : String := ""
deriving DecidableEq

structure GroupRoastRefillPrepareRequest where
  groupId : String
  initiatorId : String
  initiatorName : String := ""
  deliveryBotId : String
  dateStr : Date
  eligibleUserIds : Option (List String) := none
  nowTs : Option Rat := none
  thresholdPolicy : String := ""
  voteWeightPolicy : String := ""

inductive RefillPrepareStatus | existing | insufficientActive | created
deriving DecidableEq, Repr

structure GroupRoastRefillPrepareResponse where
  status : RefillPrepareStatus
  request : Option GroupRoastRefillItem := none
  activeUserIds : List String := []
  voteWeightPolicy : String := ""

structure GroupRoastRefillBindRequest where
  requestId : String
  messageId : String

structure GroupRoastRefillFailRequest where
  requestId : String
  messageId : String := ""
  reason : String := "failed"

structure GroupRoastRefillCompleteRequest where
  requestId : String
  messageId : String
  voterIds : List String := []
  managerVoterIds : List String := []
  voteWeightPolicy : String := ""
  excludedUserIds : List String := []
  maxCharges : Int := 2
  nowTs : Option Rat := none

/-- `closed` is the status of a request that is not voted on any more. -/
inductive RefillCompleteStatus
  | missing | closed (status : RefillStatus) | messageMismatch | pending
deriving DecidableEq, Repr

structure GroupRoastRefillCompleteResponse where
  completed : Bool
  status : RefillCompleteStatus
  request : Option GroupRoastRefillItem := none
  validVoterIds : List String := []
  benefitedUserIds : List String := []
  effectiveVotes : Nat := 0

end RollPig
