/-
The catalog snapshot, `routers/catalog.py`.

The roasts of the last seven days are counted from the events that may concern the user.  What
the database makes of a JSON list as text is a parameter.
-/
import RollPig.Routers.Events
import RollPig.Services.RoastRefills
import RollPig.Services.RoastStatistics
import Mathlib.Data.List.Infix

namespace RollPig

/-! ### `json.dumps` of a string -/

/-- A digit of `format(n, "x")`. -/
def hexDigit (n : Nat) : Char := "0123456789abcdef".toList.getD (n % 16) '0'

/-- A backslash, `u` and four hexadecimal digits. -/
def unicodeEscape (n : Nat) : List Char :=
  ['\\', 'u', hexDigit (n / 4096), hexDigit (n / 256), hexDigit (n / 16), hexDigit n]

/-- A character as `ensure_ascii` writes it; beyond the basic plane it is two surrogates. -/
def jsonChar (c : Char) : List Char :=
  let n := c.toNat
  if c = '"' then ['\\', '"']
  else if c = '\\' then ['\\', '\\']
  else if c = '\n' then ['\\', 'n']
  else if c = '\r' then ['\\', 'r']
  else if c = '\t' then ['\\', 't']
  else if n = 12 then ['\\', 'f']
  else if n = 8 then ['\\', 'b']
  else if 32 ≤ n ∧ n < 127 then [c]
  else if n < 65536 then unicodeEscape n
  else unicodeEscape (55296 + (n - 65536) / 1024) ++ unicodeEscape (56320 + (n - 65536) % 1024)

/-- `json.dumps(text)`. -/
def jsonDumps (text : String) : String :=
  String.ofList ('"' :: text.toList.flatMap jsonChar ++ ['"'])

/-! ### The snapshot -/

/-- The events of the seven days up to today, with their ids. -/
def roastWindow (today : Date) (db : Db) : List (RoastEvent × Nat) :=
  (db.roastEvents.zipIdx 1).filter fun row => today - 6 ≤ row.1.dateStr ∧ row.1.dateStr ≤ today

/-- The `or_` of the query; a key the snapshot lacks is NULL, which equals nothing. -/
def mayConcern (listText : List String → String) (userId : String) (row : RoastEvent) : Bool :=
  let snapshot := row.participantSnapshot.getD {}
  row.targetId = userId || row.attackerId = userId ||
    snapshot.backfireVictimId = some userId ||
    (match snapshot.backfireVictimIds with
      | some ids => (jsonDumps userId).toList <:+: (listText ids).toList
      | none => false)

/-- An event as the counting loop is given it. -/
def catalogMapping (row : RoastEvent × Nat) : RoastMapping :=
  let snapshot := row.1.participantSnapshot.getD {}
  { eventId := some (toString row.2)
    dateStr := some (isodate row.1.dateStr)
    groupId := some row.1.groupId
    type := some row.1.eventType
    attacker := some row.1.attackerId
    target := some row.1.targetId
    backfireVictimId := some (snapshot.backfireVictimId.getD "")
    backfireVictimIds := some (snapshot.backfireVictimIds.getD [])
    specialReason := some (snapshot.specialReason.getD "") }

/-- `get_catalog_snapshot`. -/
def getCatalogSnapshot (listText : List String → String) (e : Env) (userId : String) (days : Int)
    (db : Db) : CatalogSnapshotResponse :=
  let safeDays := max 1 (min 60 (orDefault (some days) 14))
  let today := rollpigToday e.now
  let startDate := today - (safeDays - 1)
  let drawState := buildDrawStateResponse db userId
  let recentRolls := (db.dailyRolls.filter fun row =>
    row.userId = userId ∧ startDate ≤ row.dateStr).insertionSort fun a b => b.dateStr ≤ a.dateStr
  let events := ((roastWindow today db).filter fun row =>
    mayConcern listText userId row.1).insertionSort eventOrder
  let roasted7d := countRoastedUsers (events.map catalogMapping) userId
  { pigIds := drawState.pigIds
    progress := drawState.progress
    duplicateStreak := drawState.duplicateStreak
    recentRolls := recentRolls.map fun row => { dateStr := row.dateStr, pigId := row.pigId }
    roasted7d
    roastEvents7d := roasted7d }

end RollPig
