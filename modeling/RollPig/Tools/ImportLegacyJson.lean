/-
The import of a bot's old `pig_data.json`, `tools/import_legacy_json.py`.

The session neither flushes before it selects nor commits in between: every lookup sees
the database the import found, and what the import adds is checked against the unique keys
when it is committed at the end, all at once.  An error on the way leaves nothing behind.
-/
import RollPig.Staging
import RollPig.Migrations

namespace RollPig

open Tables

/-! ### `datetime.date.fromisoformat` -/

/-- The ordinal of the day before January 1st. -/
def daysBeforeYear (year : Nat) : Nat :=
  let y := year - 1
  y * 365 + y / 4 - y / 100 + y / 400

def isLeap (year : Nat) : Bool :=
  year % 4 = 0 ∧ (year % 100 ≠ 0 ∨ year % 400 = 0)

/-- `date(year, month, day).toordinal()`, for a day the calendar has. -/
def ymd2ord? (year month day : Nat) : Option Date :=
  let length := daysInMonth month + (if month = 2 ∧ isLeap year then 1 else 0)
  let preceding := daysBeforeMonth month + (if 2 < month ∧ isLeap year then 1 else 0)
  if 1 ≤ year ∧ year ≤ 9999 ∧ 1 ≤ month ∧ month ≤ 12 ∧ 1 ≤ day ∧ day ≤ length then
    some (daysBeforeYear year + preceding + day : Nat)
  else none

/-- The ordinal of a day of an ISO week. -/
def isoweek2ord? (year week day : Nat) : Option Date :=
  let firstDay := daysBeforeYear year + 1
  let firstWeekday := (firstDay + 6) % 7
  let weeks := if firstWeekday = 3 ∨ (firstWeekday = 2 ∧ isLeap year) then 53 else 52
  let firstMonday : Int := firstDay - firstWeekday + (if 3 < firstWeekday then 7 else 0)
  let ordinal := firstMonday + ((week : Int) - 1) * 7 + (day - 1)
  if 1 ≤ year ∧ year ≤ 9999 ∧ 1 ≤ week ∧ week ≤ weeks ∧ 1 ≤ day ∧ day ≤ 7 ∧
      ordinal ≤ 3652059 then some ordinal
  else none

/-- A number in decimal digits. -/
def digits? (text : List Char) : Option Nat :=
  text.foldlM (fun n c => if c.isDigit then some (n * 10 + (c.toNat - '0'.toNat)) else none) 0

/-- `fromisoformat`: a calendar date or a day of a week, with hyphens or without. -/
def fromisoformat (text : String) : Option Date := do
  match text.toList with
  | [y₁, y₂, y₃, y₄, '-', 'W', w₁, w₂, '-', d] =>
      isoweek2ord? (← digits? [y₁, y₂, y₃, y₄]) (← digits? [w₁, w₂]) (← digits? [d])
  | [y₁, y₂, y₃, y₄, '-', 'W', w₁, w₂] =>
      isoweek2ord? (← digits? [y₁, y₂, y₃, y₄]) (← digits? [w₁, w₂]) 1
  | [y₁, y₂, y₃, y₄, 'W', w₁, w₂, d] =>
      isoweek2ord? (← digits? [y₁, y₂, y₃, y₄]) (← digits? [w₁, w₂]) (← digits? [d])
  | [y₁, y₂, y₃, y₄, 'W', w₁, w₂] =>
      isoweek2ord? (← digits? [y₁, y₂, y₃, y₄]) (← digits? [w₁, w₂]) 1
  | [y₁, y₂, y₃, y₄, '-', m₁, m₂, '-', d₁, d₂] =>
      ymd2ord? (← digits? [y₁, y₂, y₃, y₄]) (← digits? [m₁, m₂]) (← digits? [d₁, d₂])
  | [y₁, y₂, y₃, y₄, m₁, m₂, d₁, d₂] =>
      ymd2ord? (← digits? [y₁, y₂, y₃, y₄]) (← digits? [m₁, m₂]) (← digits? [d₁, d₂])
  | _ => none

example : fromisoformat "2024-04-27" = some 739003 := by decide +kernel

example : fromisoformat "2024-W17-6" = fromisoformat "20240427" := by decide +kernel

/-! ### The file -/

/-- A date as the file spells it. -/
structure LegacyDate where
  text : String
  date : Date
  parses : fromisoformat text = some date

/-- `parse_date`. -/
def parseDate (value : LegacyDate) : Date := value.date

/-- A JSON object, its members in the order they stand; `json.loads` keeps no key twice. -/
structure JsonObject (κ α : Type) where
  members : List (κ × α) := []
  nodup : (members.map Prod.fst).Nodup := by simp

/-- An event of a day; a member that is missing or null is read as empty. -/
structure LegacyEvent where
  groupId : Option String := none
  type : Option String := none
  attacker : Option String := none
  target : Option String := none
  attackerName : Option String := none
  targetName : Option String := none
  food : Option String := none

/-- `protected`: one day of all groups, or days of groups. -/
inductive LegacyProtected
  | day (date : LegacyDate) (users : List String)
  | groups (days : JsonObject LegacyDate (JsonObject String (List String)))

/-- The sections of the file; `usage` has Unix times. -/
structure LegacyData where
  history : JsonObject LegacyDate (JsonObject String String) := {}
  groupRolls : JsonObject LegacyDate (JsonObject String (JsonObject String String)) := {}
  collection : JsonObject String (List String) := {}
  usage : JsonObject String (Option Rat) := {}
  forceUsage : JsonObject String LegacyDate := {}
  dailyEvents : JsonObject LegacyDate (List LegacyEvent) := {}
  protections : LegacyProtected := .groups {}

/-! ### Rolls -/

/-- Add the row of a record that names a pig, unless its key is stored. -/
def importRecord {α κ : Type} [DecidableEq κ] (key : α → κ) (pigId : String) (row : α)
    (table : Staged α) : Option (Staged α) := do
  let existing ← table.one? key (key row)
  if existing.isNone ∧ pigId ≠ "" then some (table.add row) else some table

/-- The records of `history`, in order: a date, a user and a pig. -/
def LegacyData.rolls (data : LegacyData) : List (LegacyDate × String × String) :=
  data.history.members.flatMap fun (date, records) => records.members.map fun (userId, pigId) =>
    (date, userId, pigId)

def importHistory (e : Env) (data : LegacyData) (table : Staged DailyRoll) :
    Option (Staged DailyRoll) :=
  data.rolls.foldlM (fun table (date, userId, pigId) =>
    importRecord (fun row => (row.dateStr, row.userId)) pigId
      ({ userId, pigId, dateStr := parseDate date, createdAt := e.dbNow } : DailyRoll) table) table

/-- The records of `group_rolls`, in order: a date, a group, a user and a pig. -/
def LegacyData.appearances (data : LegacyData) : List (LegacyDate × String × String × String) :=
  data.groupRolls.members.flatMap fun (date, groups) =>
    groups.members.flatMap fun (groupId, records) =>
      records.members.map fun (userId, pigId) => (date, groupId, userId, pigId)

def importGroupRolls (e : Env) (data : LegacyData) (table : Staged GroupRoll) :
    Option (Staged GroupRoll) :=
  data.appearances.foldlM (fun table (date, groupId, userId, pigId) =>
    importRecord (fun row => (row.dateStr, row.groupId, row.userId)) pigId
      ({ dateStr := parseDate date, groupId, userId, pigId, seenAt := e.dbNow } : GroupRoll)
      table) table

/-! ### Collections -/

/-- The three tables a collected pig is written to. -/
structure CollectionTables where
  collections : Staged Collection
  userPigProgress : Staged UserPigProgress
  userDrawState : Staged UserDrawState

/-- `ensure_pig_progress`; without a first sighting the column takes the database clock. -/
def ensurePigProgress (e : Env) (userId pigId : String) (firstSeenAt : Option Time)
    (table : Staged UserPigProgress) : Option (Staged UserPigProgress) :=
  table.addMissing (fun row => (row.userId, row.pigId))
    { userId, pigId, copies := 1, firstObtainedAt := firstSeenAt.getD e.dbNow }

/-- `ensure_draw_state`. -/
def ensureDrawState (userId : String) (table : Staged UserDrawState) :
    Option (Staged UserDrawState) :=
  table.addMissing (·.userId) { userId, duplicateStreak := 0 }

/-- One pig of a collection.  A row just added has no `first_seen_at` yet. -/
def importCollected (e : Env) (tables : CollectionTables) (collected : String × String) :
    Option CollectionTables := do
  let (userId, pigId) := collected
  let existing ← tables.collections.one? (fun row => (row.userId, row.pigId)) (userId, pigId)
  let collections := match existing with
    | some _ => tables.collections
    | none => tables.collections.add { userId, pigId, firstSeenAt := e.dbNow }
  let userPigProgress ← ensurePigProgress e userId pigId (existing.map (·.firstSeenAt))
    tables.userPigProgress
  let userDrawState ← ensureDrawState userId tables.userDrawState
  some { collections, userPigProgress, userDrawState }

/-- The pairs of a user and a collected pig, in order. -/
def LegacyData.collected (data : LegacyData) : List (String × String) :=
  data.collection.members.flatMap fun (userId, pigIds) => pigIds.map fun pigId => (userId, pigId)

def importCollection (e : Env) (data : LegacyData) (tables : CollectionTables) :
    Option CollectionTables :=
  data.collected.foldlM (importCollected e) tables

/-! ### Usage -/

/-- The stored usage rows, and the `usage_cache` of the rows read or created so far. -/
structure UsageTable where
  stored : List UserUsage
  cache : List UserUsage := []

/-- `get_or_create_user_usage`. -/
def getOrCreateUserUsage (userId : String) (table : UsageTable) :
    Option (UserUsage × UsageTable) :=
  match lookup (·.userId) table.cache userId with
  | some cached => some (cached, table)
  | none => do
      let stored ← oneOrNone (table.stored.filter (·.userId = userId))
      let usage := stored.getD { userId }
      some (usage, { table with cache := table.cache ++ [usage] })

/-- Get a user's row and assign to one of its columns. -/
def assignUsage (userId : String) (assign : UserUsage → UserUsage) (table : UsageTable) :
    Option UsageTable := do
  let (usage, table) ← getOrCreateUserUsage userId table
  some { table with cache := writeBack (·.userId) [assign usage] table.cache }

/-- `int(x)` cuts the fraction off. -/
def truncate (x : Rat) : Int :=
  if x < 0 then ⌈x⌉ else ⌊x⌋

def importUsage (data : LegacyData) (table : UsageTable) : Option UsageTable :=
  data.usage.members.foldlM (fun table (userId, lastRoastTs) =>
    assignUsage userId (fun usage =>
      { usage with lastRoastTs := some (truncate (lastRoastTs.getD 0)) }) table) table

def importForceUsage (data : LegacyData) (table : UsageTable) : Option UsageTable :=
  data.forceUsage.members.foldlM (fun table (userId, lastForceDate) =>
    assignUsage userId (fun usage =>
      { usage with lastForceDate := some (parseDate lastForceDate) }) table) table

/-- The cached rows are written back, or inserted. -/
def UsageTable.rows (table : UsageTable) : List UserUsage :=
  writeBack (·.userId) table.cache table.stored ++
    table.cache.filter fun row => !(table.stored.map (·.userId)).contains row.userId

def UsageTable.commit (table : UsageTable) : Option (List UserUsage) :=
  if Unique (·.userId) table.rows then some table.rows else none

/-! ### Events -/

/-- What `has_roast_event` compares: everything the import writes. -/
def RoastEvent.imported (row : RoastEvent) : Date × List String :=
  (row.dateStr, [row.groupId, row.eventType, row.attackerId, row.targetId, row.attackerName,
    row.targetName, row.foodName])

/-- The events of `daily_events` with their dates, in order. -/
def LegacyData.events (data : LegacyData) : List (LegacyDate × LegacyEvent) :=
  data.dailyEvents.members.flatMap fun (date, events) => events.map fun event => (date, event)

def importEvents (e : Env) (data : LegacyData) (table : Staged RoastEvent) :
    Option (Staged RoastEvent) :=
  data.events.foldlM (fun table (date, event) =>
    table.addMissing RoastEvent.imported
      { dateStr := parseDate date, groupId := event.groupId.getD ""
        eventType := event.type.getD "", attackerId := event.attacker.getD ""
        targetId := event.target.getD "", attackerName := event.attackerName.getD ""
        targetName := event.targetName.getD "", foodName := event.food.getD ""
        reservationId := "", participantSnapshot := none, createdAt := e.dbNow }) table

/-! ### Protections -/

/-- The protected users with their dates and groups, in order. -/
def LegacyData.protectedUsers (data : LegacyData) : List (LegacyDate × String × String) :=
  match data.protections with
  | .day date users => users.map fun userId => (date, "__all__", userId)
  | .groups days =>
      days.members.flatMap fun (date, groups) => groups.members.flatMap fun (groupId, userIds) =>
        userIds.map fun userId => (date, groupId, userId)

def importProtections (data : LegacyData) (table : Staged GroupProtection) :
    Option (Staged GroupProtection) :=
  data.protectedUsers.foldlM (fun table (date, groupId, userId) =>
    table.addMissing (fun row => (row.protectDate, row.groupId, row.userId))
      { protectDate := parseDate date, groupId, userId }) table

/-! ### The import -/

/-- The transaction of `main`. -/
def importLegacyJson (e : Env) (data : LegacyData) (db : Db) : Option Db := do
  let dailyRolls ← importHistory e data { stored := db.dailyRolls }
  let groupRolls ← importGroupRolls e data { stored := db.groupRolls }
  let collected ← importCollection e data
    { collections := { stored := db.collections }
      userPigProgress := { stored := db.userPigProgress }
      userDrawState := { stored := db.userDrawState } }
  let usage ← importForceUsage data (← importUsage data { stored := db.userUsage })
  let roastEvents ← importEvents e data { stored := db.roastEvents }
  let protections ← importProtections data { stored := db.groupProtections }
  -- the commit, with its unique keys
  let dailyRolls ← dailyRolls.commit fun row => (row.dateStr, row.userId)
  let groupRolls ← groupRolls.commit fun row => (row.dateStr, row.groupId, row.userId)
  let collections ← collected.collections.commit fun row => (row.userId, row.pigId)
  let userPigProgress ← collected.userPigProgress.commit fun row => (row.userId, row.pigId)
  let userDrawState ← collected.userDrawState.commit (·.userId)
  let groupProtections ← protections.commit fun row =>
    (row.protectDate, row.groupId, row.userId)
  let userUsage ← usage.commit
  some { db with
    dailyRolls, groupRolls, collections, userPigProgress, userDrawState, userUsage,
    roastEvents := roastEvents.rows, groupProtections }

/-- `main`: the startup migrations, then the import. -/
def importMain (e : Env) (data : LegacyData) (db : Db) : Option Db :=
  importLegacyJson e data (initDb e db)

end RollPig
