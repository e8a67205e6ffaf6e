/-
Granting and replacing protections, `routers/protections.py`.

A user leaving the daily roster keeps the sources that are not daily, and with none
left loses the row; a user on the roster gains a `daily` source.  Either way the
waiting rounds against that user are synchronised before the next user is handled.
-/
import Mathlib
import RollPig.Services.Protections
import RollPig.Services.Reservations

namespace RollPig

/-- `sources[source] = value`. -/
def Levels.set (levels : Levels) (source : Source) (value : Nat) : Levels :=
  fun s => if s = source then some value else levels s

/-- `sources.pop(source, None)`. -/
def Levels.pop (levels : Levels) (source : Source) : Levels :=
  fun s => if s = source then none else levels s

/-- No source is left. -/
def Levels.isEmpty (levels : Levels) : Bool :=
  (sourceOrder.filterMap levels).isEmpty

/-- The baselines of the sources that are left. -/
def Levels.restrict (baselines sources : Levels) : Levels :=
  fun s => if (sources s).isSome then baselines s else none

/-- The global protection an own group inherits from. -/
def globalProtection? (db : Db) (date : Date) (groupId userId : String) :
    Option GroupProtection :=
  if groupId ≠ allGroups then db.protection? date allGroups userId else none

/-! ### Replacing the roster of a group -/

/-- What a row keeps once its user left the daily roster. -/
def keptSources (row : GroupProtection) (legacy : Option GroupProtection) : Levels × Levels :=
  let historicalDaily := isHistoricalDailyProtection row
  let sources := (protectionSources row).pop .daily
  let sources := if historicalDaily then sources.pop .legacy else sources
  let baselines := protectionBaselines row
  match legacy with
  | none => (sources.pop .legacy, baselines)
  | some legacy =>
      let inheritedLevel := if historicalDaily then 0 else (protectionLevels row .legacy).getD 0
      let globalLevel := protectionLevel legacy
      if inheritedLevel < globalLevel then
        (sources.set .legacy globalLevel, baselines.set .legacy row.roastSuccessCount)
      else (sources, baselines)

/-- Delete a protection row. -/
def Db.deleteProtection (db : Db) (row : GroupProtection) : Db :=
  { db with
    groupProtections := db.groupProtections.filter fun r =>
      (r.protectDate, r.groupId, r.userId) ≠ (row.protectDate, row.groupId, row.userId) }

/-- Take a user off the daily roster. -/
def removeFromRoster (e : Env) (req : ReplaceGroupProtectionsRequest) (row : GroupProtection)
    (db : Db) : Db :=
  let legacy := globalProtection? db req.protectDate req.groupId row.userId
  let (sources, baselines) := keptSources row legacy
  if sources.isEmpty then
    (syncPendingProtection e row true db).deleteProtection row
  else
    let row := { row with
      sourceLevels := some sources
      sourceBaselines := some (baselines.restrict sources)
      baseLevel := sources.highest
      consecutiveDays := 0 }
    syncPendingProtection e row false (db.flushProtection row)

/-- The row of a user with the daily source of this date. -/
def dailyRow (req : ReplaceGroupProtectionsRequest) (yesterday : Option GroupProtection)
    (userId : String) (row : Option GroupProtection) : GroupProtection :=
  let sources : Levels := match row with
    | some row => protectionSources row
    | none => fun _ => none
  let baselines : Levels := match row with
    | some row => protectionBaselines row
    | none => fun _ => none
  let previousDays := match yesterday with
    | some row => row.consecutiveDays
    | none => 0
  let days := if previousDays ≠ 0 then previousDays + 1 else 1
  let (sources, baselines, dailyLevel, days) := match row with
    | some row =>
        if isHistoricalDailyProtection row then
          (sources.pop .legacy, (baselines.pop .legacy).set .daily ((baselines .legacy).getD 0),
           (sources .legacy).getD 0, row.consecutiveDays)
        else
          (sources, baselines.set .daily row.roastSuccessCount,
           min 5 (req.initialLevel + days - 1), days)
    | none => (sources, baselines.set .daily 0, min 5 (req.initialLevel + days - 1), days)
  let sources := sources.set .daily dailyLevel
  let row := row.getD
    { protectDate := req.protectDate, groupId := req.groupId, userId, roastSuccessCount := 0 }
  { row with
    sourceLevels := some sources
    sourceBaselines := some baselines
    baseLevel := sources.highest
    consecutiveDays := days }

/-- Put a user on the daily roster; `current` and `previous` are the group's rows of
the date and of the day before, as they were read at the start. -/
def addToRoster (e : Env) (req : ReplaceGroupProtectionsRequest)
    (current previous : List GroupProtection) (userId : String) (db : Db) : Db :=
  let own := current.find? fun row => row.userId = userId
  let inherited := match own with
    | some _ => none
    | none =>
        (globalProtection? db req.protectDate req.groupId userId).map
          (inheritGlobalProtection · req.groupId)
  let row := match own with
    | some row => some row
    | none => inherited
  let hasDaily : Bool := match row with
    | some row => (protectionSources row .daily).isSome
    | none => false
  if hasDaily then db
  else
    let row := dailyRow req (previous.find? fun row => row.userId = userId) userId row
    let db := if own.isSome then db.flushProtection row
      else { db with groupProtections := db.groupProtections ++ [row] }
    syncPendingProtection e row false db

/-- The rows of a group on a date. -/
def groupRows (db : Db) (groupId : String) (date : Date) : List GroupProtection :=
  db.groupProtections.filter fun row => row.groupId = groupId ∧ row.protectDate = date

/-- The first loop: the users of the date who are not on the list leave. -/
def removeLeavers (e : Env) (req : ReplaceGroupProtectionsRequest) (db : Db) : Db :=
  let removed := (groupRows db req.groupId req.protectDate).filter fun row =>
    row.userId ∉ normalizedIds req.userIds
  removed.foldl (fun db row => removeFromRoster e req row db) db

/-- The second loop: the users on the list are put on the roster. -/
def addMembers (e : Env) (req : ReplaceGroupProtectionsRequest)
    (current previous : List GroupProtection) (db : Db) : Db :=
  (normalizedIds req.userIds).foldl
    (fun db userId => addToRoster e req current previous userId db) db

/-- `replace_group`. -/
def replaceGroup (e : Env) (req : ReplaceGroupProtectionsRequest) (db : Db) : Db :=
  addMembers e req (groupRows db req.groupId req.protectDate)
    (groupRows db req.groupId (req.protectDate - 1)) (removeLeavers e req db)

/-! ### Granting one protection -/

/-- The row a grant leaves, for a row that existed or was inherited. -/
def grantedRow (req : GrantProtectionRequest) (row : GroupProtection) : GroupProtection :=
  let sources := protectionSources row
  let baselines := protectionBaselines row
  let (sources, baselines) :=
    if (protectionLevels row .manual).getD 0 < req.level then
      (sources.set .manual req.level, baselines.set .manual row.roastSuccessCount)
    else (sources, baselines)
  { row with
    sourceLevels := some sources
    sourceBaselines := some baselines
    baseLevel := sources.highest }

/-- The row of a first grant. -/
def firstGrant (req : GrantProtectionRequest) : GroupProtection :=
  { protectDate := req.protectDate, groupId := req.groupId, userId := req.userId,
    baseLevel := req.level, consecutiveDays := 0, roastSuccessCount := 0,
    sourceLevels := some fun source => if source = .manual then some req.level else none }

/-- Store the granted row, whether the level rose, and the row. -/
def storeGrant (req : GrantProtectionRequest) (db : Db) : Bool × GroupProtection × Db :=
  match db.protection? req.protectDate req.groupId req.userId with
  | some row =>
      (protectionLevel row < req.level, grantedRow req row,
       db.flushProtection (grantedRow req row))
  | none =>
      let row := match db.protection? req.protectDate allGroups req.userId with
        | some legacy => some (inheritGlobalProtection legacy req.groupId)
        | none => none
      let changed : Bool := match row with
        | some row => protectionLevel row < req.level
        | none => true
      let granted := match row with
        | some row => grantedRow req row
        | none => firstGrant req
      (changed, granted, { db with groupProtections := db.groupProtections ++ [granted] })

/-- `grant_protection`; `none` is the 422 for a date that is not today. -/
def grantProtection (e : Env) (req : GrantProtectionRequest) (db : Db) :
    Option (GrantProtectionResponse × Db) :=
  if req.protectDate ≠ rollpigToday e.now then none
  else
    let stored := storeGrant req db
    let row := stored.2.1
    some ({ level := protectionLevel row, changed := stored.1 },
      syncPendingProtection e row false stored.2.2)

/-! ### Looking a protection up -/

/-- The row that protects a user in a group: the one of the group, else the global one. -/
def protectingRow? (db : Db) (date : Date) (groupId userId : String) : Option GroupProtection :=
  match db.protection? date groupId userId with
  | some row => some row
  | none => db.protection? date allGroups userId

/-- `check_protected`. -/
def checkProtected (date : Date) (groupId userId : String) (db : Db) : ProtectedResponse :=
  match protectingRow? db date groupId userId with
  | none => { isProtected := false }
  | some row =>
      { isProtected := true
        baseLevel := row.baseLevel
        level := protectionLevel row
        consecutiveDays := row.consecutiveDays
        source := protectionSource row
        dailyBaseLevel := match protectionSources row .daily with
          | some level => level
          | none => if row.sourceLevels.isNone then row.baseLevel else 0 }

end RollPig
