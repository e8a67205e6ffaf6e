/-
What the startup migrations do to the rows, `migrations.py`.

They run on every start, on the rows of the running service as well, and are meant to
find nothing to do there.  The columns and indexes they add are those the tables of
`Models` have.
-/
import RollPig.Services.Usage

namespace RollPig

/-- `_migrate_ambiguous_roast_reservations`: a round leased by an old version that has a
result may have been sent. -/
def migrateAmbiguousRoastReservations (db : Db) : Db :=
  { db with
    reservations := db.reservations.map fun row =>
      if row.status = .processing ∧ row.outcomeSnapshot.isSome then
        { row with status := .sending } else row }

/-- The update of `active_slot` in `_migrate_protection_gatherings`. -/
def migrateActiveSlots (db : Db) : Db :=
  { db with
    reservations := db.reservations.map fun row =>
      if row.status = .completed then { row with activeSlot := none } else row }

/-- The `charges` and the `updated_ts` the loop of `_migrate_existing_user_usage` writes. -/
def migratedCharges (lastRoastTs nowTs : Int) : Int × Int :=
  if lastRoastTs ≤ 0 then (defaultRoastChargeMax, nowTs)
  else
    let elapsed := max 0 (nowTs - lastRoastTs)
    let recovered := elapsed / defaultRoastChargeRecoverSeconds
    let charges := min defaultRoastChargeMax (1 + recovered)
    (charges,
      if defaultRoastChargeMax ≤ charges then nowTs
      else lastRoastTs + recovered * defaultRoastChargeRecoverSeconds)

/-- The migration repeats the formula of the service, with the default settings. -/
theorem migratedCharges_eq (lastRoastTs nowTs : Int) :
    migratedCharges lastRoastTs nowTs = stateFromLegacyLastUse lastRoastTs nowTs
      defaultRoastChargeMax defaultRoastChargeRecoverSeconds := rfl

/-- `_migrate_existing_user_usage`: a row without a bucket gets the one its last use left. -/
def migrateExistingUserUsage (e : Env) (db : Db) : Db :=
  { db with
    userUsage := db.userUsage.map fun row =>
      if row.roastCharges.isNone ∨ row.roastChargeUpdatedTs.isNone then
        let bucket := migratedCharges (row.lastRoastTs.getD 0) (unixSeconds e.now)
        { row with roastCharges := some bucket.1, roastChargeUpdatedTs := some bucket.2 }
      else row }

/-! ### Group activity -/

/-- `_group_activity_source_queries`: who was active in a group, and when. -/
def groupActivitySources (db : Db) : List GroupDailyActiveUser :=
  let activity (dateStr : Date) (groupId userId : String) (activeAt : Time) :
      GroupDailyActiveUser := { dateStr, groupId, userId, activeAt }
  let sources :=
    (db.groupRolls.map fun row => activity row.dateStr row.groupId row.userId row.seenAt) ++
    (db.roastEvents.map fun row =>
      activity row.dateStr row.groupId row.attackerId row.createdAt) ++
    ((db.roastEvents.filter (·.eventType ≠ "bot_backfire")).map fun row =>
      activity row.dateStr row.groupId row.targetId row.createdAt) ++
    (db.reservations.map fun row => activity row.dateStr row.groupId row.ownerId row.createdAt) ++
    (db.reservations.flatMap fun row => (db.members row.reservationId).map fun member =>
      activity row.dateStr row.groupId member.userId member.joinedAt)
  sources.filter fun row => row.groupId ≠ "" ∧ row.userId ≠ ""

/-- Insert an activity, or move the stored one to the earlier time. -/
def upsertActivity (db : Db) (row : GroupDailyActiveUser) : Db :=
  let key := fun row : GroupDailyActiveUser => (row.dateStr, row.groupId, row.userId)
  match db.activeUsers.find? fun other => key other = key row with
  | none => { db with activeUsers := db.activeUsers ++ [row] }
  | some other =>
      let earlier := { other with activeAt := min other.activeAt row.activeAt }
      { db with activeUsers := Tables.writeBack key [earlier] db.activeUsers }

/-- `_backfill_group_activity`: the least of the least times of the sources is the least
time of all. -/
def backfillGroupActivity (startDate endDate : Date) (db : Db) : Db :=
  ((groupActivitySources db).filter fun row =>
    startDate ≤ row.dateStr ∧ row.dateStr ≤ endDate).foldl upsertActivity db

/-- `ensure_runtime_migrations`. -/
def ensureRuntimeMigrations (e : Env) (db : Db) : Db :=
  let db := migrateExistingUserUsage e db
  let db := migrateAmbiguousRoastReservations db
  let db := migrateActiveSlots db
  let today := rollpigToday e.now
  backfillGroupActivity (today - 1) today db

/-- `init_db`, on tables that exist. -/
def initDb (e : Env) (db : Db) : Db :=
  ensureRuntimeMigrations e db

end RollPig
