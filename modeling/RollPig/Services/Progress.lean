/-
Collections, copies and daily feeding, `services/progress.py`.

A roll that was really created moves the user's copies of the pig and the streak of
duplicates; a feed moves the pig's growth bonus, at most once a day.  Both freeze
what they saw in the row they leave behind, and the lookup answers from there.
-/
import RollPig.Schemas
import Mathlib.Data.List.Sort

namespace RollPig

def maxExpertLevel : Int := 5

/-- EX level from the copies drawn and the growth fed, clamped to 0..5. -/
def expertLevel (copies : Int) (growthBonus : Int := 0) : Int :=
  min (max (copies - 1 + growthBonus) 0) maxExpertLevel

def getCollection (db : Db) (userId pigId : String) : Option Collection :=
  db.collections.find? fun row => row.userId = userId ∧ row.pigId = pigId

def ensureCollection (e : Env) (userId pigId : String) (db : Db) : Db :=
  match getCollection db userId pigId with
  | some _ => db
  | none =>
      { db with
        collections := db.collections ++
          [{ userId := userId, pigId := pigId, firstSeenAt := e.dbNow }] }

def getProgress (db : Db) (userId pigId : String) : Option UserPigProgress :=
  db.userPigProgress.find? fun row => row.userId = userId ∧ row.pigId = pigId

def getDrawState (db : Db) (userId : String) : Option UserDrawState :=
  db.userDrawState.find? fun row => row.userId = userId

/-- Write a changed progress row back. -/
def flushProgress (db : Db) (row : UserPigProgress) : Db :=
  { db with
    userPigProgress :=
      Tables.writeBack (fun row => (row.userId, row.pigId)) [row] db.userPigProgress }

/-! ### Rolls -/

/-- What a created roll saw; stored with the roll and never derived again. -/
structure CreatedRollProgress where
  isNewPig : Bool
  previousCopies : Int
  copiesAfterRoll : Int
  previousExpertLevel : Int
  expertLevelAfterRoll : Int
  collectionSizeAfterRoll : Int
  previousDuplicateStreak : Int
  duplicateStreakAfterRoll : Int
deriving DecidableEq, Repr

/-- Count a newly created roll. -/
def applyCreatedRollProgress (e : Env) (userId pigId : String) (db : Db) :
    CreatedRollProgress × Db :=
  let collection := getCollection db userId pigId
  let progress := getProgress db userId pigId
  let drawState := getDrawState db userId
  let previousDuplicateStreak := match drawState with
    | some row => row.duplicateStreak
    | none => 0
  let isNewPig : Bool := collection.isNone && progress.isNone
  let growthBonus := match progress with
    | some row => max 0 row.growthBonus
    | none => 0
  let previousCopies := if isNewPig then 0 else match progress with
    | some row => row.copies
    | none => 1
  let copies := previousCopies + 1
  let duplicateStreak := if isNewPig then 0 else previousDuplicateStreak + 1
  let db := ensureCollection e userId pigId db
  let db := match progress with
    | some row => flushProgress db { row with copies }
    | none =>
        let firstObtainedAt := match collection with
          | some row => row.firstSeenAt
          | none => if isNewPig then e.dbNow else e.now
        { db with
          userPigProgress := db.userPigProgress ++
            [({ userId, pigId, copies, firstObtainedAt } : UserPigProgress)] }
  let db := match drawState with
    | some row =>
        { db with
          userDrawState :=
            Tables.writeBack (·.userId) [{ row with duplicateStreak }] db.userDrawState }
    | none =>
        { db with
          userDrawState := db.userDrawState ++ [{ userId := userId, duplicateStreak }] }
  ({ isNewPig, previousCopies, copiesAfterRoll := copies,
     previousExpertLevel := expertLevel previousCopies growthBonus,
     expertLevelAfterRoll := expertLevel copies growthBonus,
     collectionSizeAfterRoll := (db.collections.filter fun row => row.userId = userId).length,
     previousDuplicateStreak, duplicateStreakAfterRoll := duplicateStreak }, db)

/-! ### Daily feeding -/

/-- The answer for a user who was already fed that day. -/
def existingFeedResult (existing : UserDailyFeed) (userId : String) (sourceType : FeedSource)
    (sourceId : String) : DailyFeedResult :=
  { status := if existing.sourceType = sourceType ∧ existing.sourceId = sourceId
      then .fed else .alreadyFed
    userId, pigId := existing.pigId, previousLevel := existing.previousLevel,
    newLevel := existing.newLevel, sourceType, sourceId, createdAt := some existing.createdAt }

/-- Feed the pig the user rolled that day; only a real growth uses up the day. -/
def applyDailyFeed (e : Env) (date : Date) (userId : String) (sourceType : FeedSource)
    (sourceId : String) (db : Db) : DailyFeedResult × Db :=
  match (db.dailyRoll? date userId).filter (!·.isMakeup) with
  | none => ({ status := .noDailyPig, userId, sourceType, sourceId }, db)
  | some dailyRoll =>
    match db.userDailyFeeds.find? fun row => row.dateStr = date ∧ row.userId = userId with
    | some existing => (existingFeedResult existing userId sourceType sourceId, db)
    | none =>
      let (progress, db) := match getProgress db userId dailyRoll.pigId with
        | some row => (row, db)
        | none =>
            -- an old record without progress: the roll itself proves one copy
            let row : UserPigProgress :=
              { userId, pigId := dailyRoll.pigId, copies := 1, growthBonus := 0,
                firstObtainedAt := match getCollection db userId dailyRoll.pigId with
                  | some collection => collection.firstSeenAt
                  | none => e.now }
            (row, { db with userPigProgress := db.userPigProgress ++ [row] })
      let previousLevel := expertLevel progress.copies progress.growthBonus
      if maxExpertLevel ≤ previousLevel then
        ({ status := .maxLevel, userId, pigId := dailyRoll.pigId, previousLevel,
           newLevel := previousLevel, sourceType, sourceId }, db)
      else
        let nextGrowthBonus := max 0 progress.growthBonus + 1
        let newLevel := expertLevel progress.copies nextGrowthBonus
        let feedRow : UserDailyFeed :=
          { dateStr := date, userId, pigId := dailyRoll.pigId, sourceType, sourceId,
            previousLevel, newLevel, createdAt := e.dbNow }
        let db := { db with userDailyFeeds := db.userDailyFeeds ++ [feedRow] }
        let db := flushProgress db { progress with growthBonus := nextGrowthBonus }
        ({ status := .fed, userId, pigId := dailyRoll.pigId, previousLevel, newLevel,
           sourceType, sourceId, createdAt := some feedRow.createdAt }, db)

/-! ### Lookup -/

/-- The growth a roll froze is complete. -/
def DailyRoll.growthSnapshotAvailable (roll : DailyRoll) : Bool :=
  roll.isNewPig.isSome && roll.previousCopies.isSome && roll.copiesAfterRoll.isSome &&
    roll.collectionSizeAfterRoll.isSome && roll.previousDuplicateStreak.isSome &&
    roll.duplicateStreakAfterRoll.isSome

/-- The frozen growth and appearance of a roll. -/
def frozenOutcome (roll : DailyRoll) : DailyRollOutcomeSnapshot :=
  let version := roll.resourceVersion.getD ""
  let size := roll.collectionSizeAfterRoll.getD 0
  match roll.appearanceSnapshot with
  | some appearance =>
      if version = "" then { snapshotAvailable := false, collectionSizeAfterRoll := size }
      else match appearance.payload with
        | some payload =>
            { snapshotAvailable := true, collectionSizeAfterRoll := size,
              resourceVersion := version,
              resolvedVariantLevel := payload.resolvedVariantLevel,
              resolvedImageName := payload.resolvedImageName,
              unlockedVariantLevels := payload.unlockedVariantLevels,
              unlockedVariantFields := payload.unlockedVariantFields }
        | none =>
            { snapshotAvailable := true, collectionSizeAfterRoll := size,
              resourceVersion := version }
  | none => { snapshotAvailable := false, collectionSizeAfterRoll := size }

/-- The lookup response of a roll. -/
def buildLookupResponse (db : Db) (dailyRoll : Option DailyRoll) (created : Bool) :
    DailyRollLookupResponse :=
  match dailyRoll with
  | none => { pigId := none, created }
  | some roll =>
      let progress := getProgress db roll.userId roll.pigId
      let collection := getCollection db roll.userId roll.pigId
      let drawState := getDrawState db roll.userId
      let dailyFeed := db.userDailyFeeds.find? fun row =>
        row.dateStr = roll.dateStr ∧ row.userId = roll.userId
      let copies := match progress with
        | some row => row.copies
        | none => if collection.isSome then 1 else 0
      let growthBonus := match progress with
        | some row => row.growthBonus
        | none => 0
      let duplicateStreak := match drawState with
        | some row => row.duplicateStreak
        | none => 0
      let feedResult := dailyFeed.map fun row =>
        { status := .fed, userId := roll.userId, pigId := row.pigId,
          previousLevel := row.previousLevel, newLevel := row.newLevel,
          sourceType := row.sourceType, sourceId := row.sourceId,
          createdAt := some row.createdAt }
      if roll.growthSnapshotAvailable then
        let previousCopies := roll.previousCopies.getD 0
        let copies := roll.copiesAfterRoll.getD 0
        { isMakeup := roll.isMakeup, pigId := some roll.pigId, created,
          isNewPig := roll.isNewPig.getD false, previousCopies, copies,
          previousExpertLevel := roll.previousExpertLevel.getD (expertLevel previousCopies),
          expertLevel := roll.expertLevelAfterRoll.getD (expertLevel copies),
          dailyFeedResult := feedResult,
          previousDuplicateStreak := roll.previousDuplicateStreak.getD 0,
          duplicateStreak := roll.duplicateStreakAfterRoll.getD 0,
          outcomeSnapshot := some (frozenOutcome roll) }
      else
        -- an old roll without growth: the flat fields follow the current progress
        { isMakeup := roll.isMakeup, pigId := some roll.pigId, created, isNewPig := false,
          previousCopies := copies, copies,
          previousExpertLevel := expertLevel copies growthBonus,
          expertLevel := expertLevel copies growthBonus, dailyFeedResult := feedResult,
          previousDuplicateStreak := duplicateStreak, duplicateStreak,
          outcomeSnapshot := none }

/-! ### Draw state -/

/-- `dict.setdefault`. -/
def setDefault {β : Type} (dict : List (String × β)) (key : String) (value : β) :
    List (String × β) :=
  if key ∈ dict.map Prod.fst then dict else dict ++ [(key, value)]

/-- `progress`: the progress rows of the user, and one copy of every other pig in the
collection.  A user has one progress row for a pig, so the dictionary is the list of them. -/
def pigProgress (db : Db) (userId : String) : List (String × PigProgressItem) :=
  let progress := (db.userPigProgress.filter fun row => row.userId = userId).map fun row =>
    (row.pigId,
      ({ copies := row.copies, growthBonus := max 0 row.growthBonus,
         firstObtainedAt := some row.firstObtainedAt } : PigProgressItem))
  (db.collections.filter fun row => row.userId = userId).foldl
    (fun progress row => setDefault progress row.pigId
      { copies := 1, firstObtainedAt := some row.firstSeenAt })
    progress

/-- The collection of a user, with its growth. -/
def buildDrawStateResponse (db : Db) (userId : String) : DrawStateResponse :=
  let progress := (pigProgress db userId).insertionSort fun a b => a.1 ≤ b.1
  { pigIds := progress.map Prod.fst
    progress
    duplicateStreak := match getDrawState db userId with
      | some row => row.duplicateStreak
      | none => 0 }

end RollPig
