/-
Drawing, making up and completing daily rolls, `routers/daily_rolls.py`.

`get-or-create` is two transactions: `getOrCreateDailyRoll` inserts or finds the roll
and commits, `reconcileReservationsAfterCommit` then offers the arrival to the waiting
rounds again.  What the handler carries from one to the other is a `RollInFlight`.
-/
import RollPig.Services.Progress
import RollPig.Services.Activity
import RollPig.Services.Reservations

namespace RollPig

/-- Register the first appearance of a roll in a group. -/
def ensureGroupRoll (e : Env) (groupId userId pigId : String) (date : Date) (db : Db) : Db :=
  if groupId = "" then db
  else
    let db := if db.groupRolls.any fun row =>
        row.groupId = groupId ∧ row.userId = userId ∧ row.dateStr = date then db
      else { db with
        groupRolls := db.groupRolls ++
          [({ dateStr := date, groupId, userId, pigId, seenAt := e.dbNow } : GroupRoll)] }
    markGroupActiveUsers e date groupId [userId] db

/-- A roll with the growth it saw. -/
def DailyRoll.withProgress (roll : DailyRoll) (progress : CreatedRollProgress) : DailyRoll :=
  { roll with
    isNewPig := some progress.isNewPig
    previousCopies := some progress.previousCopies
    copiesAfterRoll := some progress.copiesAfterRoll
    previousExpertLevel := some progress.previousExpertLevel
    expertLevelAfterRoll := some progress.expertLevelAfterRoll
    collectionSizeAfterRoll := some progress.collectionSizeAfterRoll
    previousDuplicateStreak := some progress.previousDuplicateStreak
    duplicateStreakAfterRoll := some progress.duplicateStreakAfterRoll }

/-- Insert a roll and count it. -/
def createDailyRoll (e : Env) (roll : DailyRoll) (db : Db) : DailyRoll × Db :=
  let counted := applyCreatedRollProgress e roll.userId roll.pigId db
  let roll := roll.withProgress counted.1
  (roll, { counted.2 with dailyRolls := counted.2.dailyRolls ++ [roll] })

/-- What `get-or-create` still has to do after its first commit. -/
structure RollInFlight where
  roll : DailyRoll
  created : Bool
deriving DecidableEq

/-- The first transaction of `get-or-create`.  A makeup is answered at once; otherwise
the reconciliation and the response are still to come. -/
def getOrCreateDailyRoll (e : Env) (req : DailyRollGetOrCreateRequest) (db : Db) :
    (DailyRollLookupResponse ⊕ RollInFlight) × Db :=
  match db.dailyRoll? req.dateStr req.userId with
  | some existing =>
      if existing.isMakeup then (.inl (buildLookupResponse db (some existing) false), db)
      else
        (.inr { roll := existing, created := false },
         ensureGroupRoll e req.groupId req.userId existing.pigId req.dateStr db)
  | none =>
      let (created, db) := createDailyRoll e
        { userId := req.userId, pigId := req.proposedPigId, dateStr := req.dateStr,
          createdAt := e.dbNow } db
      let db := ensureGroupRoll e req.groupId req.userId req.proposedPigId req.dateStr db
      (.inr { roll := created, created := true },
       (activateTargetReservations e req.dateStr req.userId req.proposedPigId db).2)

/-- The second transaction of `get-or-create`, and its response. -/
def reconcileReservationsAfterCommit (e : Env) (flight : RollInFlight) (db : Db) :
    DailyRollLookupResponse × Db :=
  let db := (activateTargetReservations e flight.roll.dateStr flight.roll.userId
    flight.roll.pigId db).2
  (buildLookupResponse db (some flight.roll) flight.created, db)

/-- `makeup_daily_roll`; `none` is the 422 for a date that is not yesterday. -/
def makeupDailyRoll (e : Env) (req : DailyRollGetOrCreateRequest) (db : Db) :
    Option (DailyRollLookupResponse × Db) :=
  if req.dateStr ≠ rollpigToday e.now - 1 then none
  else
    match db.dailyRoll? req.dateStr req.userId with
    | some existing => some (buildLookupResponse db (some existing) false, db)
    | none =>
        let (created, db) := createDailyRoll e
          { userId := req.userId, pigId := req.proposedPigId, dateStr := req.dateStr,
            appearanceSnapshot := some { isMakeup := true, payload := none },
            createdAt := e.dbNow } db
        some (buildLookupResponse db (some created) true, db)

/-- The roll a makeup inserts. -/
def madeUpRoll (e : Env) (req : DailyRollGetOrCreateRequest) : DailyRoll :=
  { userId := req.userId, pigId := req.proposedPigId, dateStr := req.dateStr,
    appearanceSnapshot := some { isMakeup := true, payload := none }, createdAt := e.dbNow }

/-- A makeup finds a roll, or creates one. -/
theorem makeupDailyRoll_cases {e : Env} {req : DailyRollGetOrCreateRequest} {db db' : Db}
    {response : DailyRollLookupResponse} (h : makeupDailyRoll e req db = some (response, db')) :
    (∃ existing, db.dailyRoll? req.dateStr req.userId = some existing ∧
        response = buildLookupResponse db (some existing) false ∧ db' = db) ∨
      (db.dailyRoll? req.dateStr req.userId = none ∧
        response = buildLookupResponse db' (some (createDailyRoll e (madeUpRoll e req) db).1) true ∧
        db' = (createDailyRoll e (madeUpRoll e req) db).2) := by
  unfold makeupDailyRoll at h
  split_ifs at h
  cases hroll : db.dailyRoll? req.dateStr req.userId with
  | some existing =>
      rw [hroll] at h
      obtain ⟨rfl, rfl⟩ := Prod.mk.inj (Option.some.inj h)
      exact Or.inl ⟨existing, rfl, rfl, rfl⟩
  | none =>
      rw [hroll] at h
      obtain ⟨rfl, rfl⟩ := Prod.mk.inj (Option.some.inj h)
      exact Or.inr ⟨rfl, rfl, rfl⟩

/-- `get_daily_roll_by_date`. -/
def getDailyRollByDate (userId : String) (date : Date) (db : Db) : DailyRollLookupResponse :=
  buildLookupResponse db (db.dailyRoll? date userId) false

/-! ### Completing the appearance of a roll -/

/-- `_snapshot_payload`. -/
def snapshotPayload (req : DailyRollSnapshotRequest) : SnapshotPayload :=
  { resolvedVariantLevel := req.resolvedVariantLevel
    resolvedImageName := req.resolvedImageName
    unlockedVariantLevels := req.unlockedVariantLevels
    unlockedVariantFields := req.unlockedVariantFields }

/-- Why a completion is refused: 404, or one of the three 409. -/
inductive SnapshotError | notFound | pigMismatch | noGrowthSnapshot | alreadyWritten
deriving DecidableEq, Repr

/-- Write a changed roll back. -/
def Db.flushDailyRoll (db : Db) (row : DailyRoll) : Db :=
  { db with
    dailyRolls := Tables.writeBack (fun row => (row.dateStr, row.userId)) [row] db.dailyRolls }

def snapshotResponse (req : DailyRollSnapshotRequest) (roll : DailyRoll) :
    DailyRollOutcomeSnapshot :=
  { snapshotAvailable := true
    collectionSizeAfterRoll := roll.collectionSizeAfterRoll.getD 0
    resourceVersion := req.resourceVersion
    resolvedVariantLevel := req.resolvedVariantLevel
    resolvedImageName := req.resolvedImageName
    unlockedVariantLevels := req.unlockedVariantLevels
    unlockedVariantFields := req.unlockedVariantFields }

/-- `complete_daily_roll_snapshot`: the first client to report an appearance wins. -/
def completeDailyRollSnapshot (req : DailyRollSnapshotRequest) (db : Db) :
    Except SnapshotError (DailyRollOutcomeSnapshot × Db) :=
  match db.dailyRoll? req.dateStr req.userId with
  | none => .error .notFound
  | some existing =>
      if existing.pigId ≠ req.pigId then .error .pigMismatch
      else if !existing.growthSnapshotAvailable then .error .noGrowthSnapshot
      else
        let payload : AppearanceSnapshot :=
          { isMakeup := existing.isMakeup, payload := some (snapshotPayload req) }
        let written : Bool := existing.resourceVersion.isSome ||
          (existing.appearanceSnapshot.isSome &&
            existing.appearanceSnapshot ≠ some { isMakeup := true, payload := none })
        if written then
          if existing.resourceVersion.getD "" ≠ req.resourceVersion ∨
              existing.appearanceSnapshot ≠ some payload then .error .alreadyWritten
          else .ok (snapshotResponse req existing, db)
        else
          let existing := { existing with
            resourceVersion := some req.resourceVersion
            appearanceSnapshot := some payload }
          .ok (snapshotResponse req existing, db.flushDailyRoll existing)

/-- A completion that is not refused writes the appearance, unless it stands there already. -/
theorem completeDailyRollSnapshot_ok {req : DailyRollSnapshotRequest} {db db' : Db}
    {response : DailyRollOutcomeSnapshot}
    (h : completeDailyRollSnapshot req db = .ok (response, db')) :
    ∃ existing, db.dailyRoll? req.dateStr req.userId = some existing ∧
      (db' = db ∨ db' = db.flushDailyRoll { existing with
        resourceVersion := some req.resourceVersion
        appearanceSnapshot := some
          { isMakeup := existing.isMakeup, payload := some (snapshotPayload req) } }) := by
  unfold completeDailyRollSnapshot at h
  cases hroll : db.dailyRoll? req.dateStr req.userId with
  | none => simp [hroll] at h
  | some existing =>
      simp only [hroll] at h
      refine ⟨existing, rfl, ?_⟩
      split_ifs at h
      · exact Or.inl (Prod.mk.inj (Except.ok.inj h)).2.symm
      · exact Or.inr (Prod.mk.inj (Except.ok.inj h)).2.symm

end RollPig
