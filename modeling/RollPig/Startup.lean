/-
Instances that start at the same time, `_migrate_protection_gatherings` of `migrations.py`.

Several instances of the cloud may be started on one database, and each of them first brings
`roast_reservations` from a unique key on the target to one on the round in progress.  The
columns are added without a lock: who comes second is told that the column exists.  The index
is replaced under a named lock on MySQL, and within one transaction on SQLite.  A statement is
one step here; between the statements of one instance those of the others run, and versions of
the cloud that are running meanwhile write whatever the indexes in force accept.
-/
import Mathlib
import RollPig.Migrations
import RollPig.Outlines

namespace RollPig

inductive Dialect
  | mysql
  | sqlite
deriving DecidableEq, Repr

/-- The unique keys `roast_reservations` has, or had. -/
inductive ReservationIndex
  | dateGroupTarget
  | activeTarget
deriving DecidableEq, Repr

def ReservationIndex.name : ReservationIndex → String
  | .dateGroupTarget => "uq_roast_reservation_date_group_target"
  | .activeTarget => "uq_roast_reservation_active_target"

/-- What may not come twice; a null never does. -/
def ReservationIndex.entry (index : ReservationIndex) (row : RoastReservation) :
    Option (Date × String × String × Nat) :=
  match index with
  | .dateGroupTarget => some (row.dateStr, row.groupId, row.targetId, 0)
  | .activeTarget => row.activeSlot.map fun slot => (row.dateStr, row.groupId, row.targetId, slot)

/-- The rows obey the index. -/
def ReservationIndex.Holds (index : ReservationIndex) (rows : List RoastReservation) : Prop :=
  (rows.filterMap index.entry).Nodup

instance (index : ReservationIndex) (rows : List RoastReservation) : Decidable (index.Holds rows) :=
  inferInstanceAs (Decidable (List.Nodup _))

structure Column where
  table : String
  name : String
  type : String
deriving DecidableEq, Repr

def slotColumn : Column :=
  { table := "roast_reservations", name := "active_slot", type := "INTEGER NULL DEFAULT 1" }

/-- The columns `_migrate_protection_gatherings` adds, in its order. -/
def protectionColumns (tables : List String) : List Column :=
  (if "group_protections" ∈ tables then
    [{ table := "group_protections", name := "source_levels", type := "JSON NULL" },
      { table := "group_protections", name := "source_baselines", type := "JSON NULL" },
      { table := "group_protections", name := "roast_success_count",
        type := "INTEGER NOT NULL DEFAULT 0" },
      { table := "group_protections", name := "base_level", type := "INTEGER NOT NULL DEFAULT 1" },
      { table := "group_protections", name := "consecutive_days",
        type := "INTEGER NOT NULL DEFAULT 1" }]
  else []) ++
  (if "roast_reservation_participants" ∈ tables then
    [{ table := "roast_reservation_participants", name := "contribution",
       type := "INTEGER NOT NULL DEFAULT 1" }]
  else []) ++
  [{ table := "roast_reservations", name := "protection_required",
     type := "INTEGER NOT NULL DEFAULT 0" },
    { table := "roast_reservations", name := "protection_source",
      type := "VARCHAR(16) NOT NULL DEFAULT 'legacy'" },
    { table := "roast_reservations", name := "waiting_notice", type := "JSON NULL" },
    { table := "roast_reservations", name := "delivery_gathering_version",
      type := "INTEGER NOT NULL DEFAULT 0" },
    { table := "roast_reservations", name := "force_operator_id",
      type := "VARCHAR(64) NOT NULL DEFAULT ''" },
    { table := "roast_reservations", name := "force_operator_name",
      type := "VARCHAR(128) NOT NULL DEFAULT ''" },
    { table := "roast_reservations", name := "force_feed_user_ids", type := "JSON NULL" },
    slotColumn]

/-- The database, as far as the startup is about it: the columns the tables have, the unique
indexes in force, who holds the lock `rollpig.cloud.reservation-index-v2`, and the rounds.  A
row that is older than the column `active_slot` has its default. -/
structure StartupStore where
  columns : List (String × String)
  indexes : List ReservationIndex
  lock : Option Nat := none
  rows : List RoastReservation

def StartupStore.has (s : StartupStore) (column : Column) : Bool :=
  s.columns.contains (column.table, column.name)

/-- The next statement of an instance. -/
inductive StartupPlace
  | checking (column : Column) (rest : List Column)
  | altering (column : Column) (rest : List Column)
  | rechecking (column : Column) (rest : List Column)
  | clearing
  | inspecting
  | locking
  | inspectingLocked
  | adding
  | dropping
  | releasing (failed : Bool)
  | swapping
  | returned
  | raised
deriving DecidableEq, Repr

/-- `_add_column_if_missing`, for the columns that are left. -/
def StartupPlace.next : List Column → StartupPlace
  | [] => .clearing
  | column :: rest => .checking column rest

/-- The instance is between `GET_LOCK` and `RELEASE_LOCK`. -/
def StartupPlace.critical : StartupPlace → Bool
  | .inspectingLocked | .adding | .dropping | .releasing _ => true
  | _ => false

/-- The startup of the instance fails, or has failed. -/
def StartupPlace.failed : StartupPlace → Bool
  | .releasing true | .raised => true
  | _ => false

/-- The update of `active_slot`, row by row. -/
def clearSlot (row : RoastReservation) : RoastReservation :=
  if row.status = .completed then { row with activeSlot := none } else row

/-- What the next statement does. -/
def StartupPlace.execute (dialect : Dialect) (i : Nat) (s : StartupStore) :
    StartupPlace → StartupPlace × StartupStore
  | .checking column rest =>
      if s.has column then (.next rest, s) else (.altering column rest, s)
  | .altering column rest =>
      -- error 1060, or `duplicate column name`: another instance was faster
      if s.has column then (.rechecking column rest, s)
      else (.next rest, { s with columns := s.columns ++ [(column.table, column.name)] })
  | .rechecking column rest =>
      if s.has column then (.next rest, s) else (.raised, s)
  | .clearing =>
      if s.has slotColumn then (.inspecting, { s with rows := s.rows.map clearSlot })
      else (.raised, s)
  | .inspecting =>
      if .dateGroupTarget ∉ s.indexes then (.returned, s)
      else match dialect with
        | .mysql => (.locking, s)
        | .sqlite => (.swapping, s)
  | .locking =>
      -- the lock is waited for; who was not given it within 60 seconds gives up
      if s.lock.isNone then (.inspectingLocked, { s with lock := some i }) else (.raised, s)
  | .inspectingLocked =>
      if .dateGroupTarget ∉ s.indexes then (.releasing false, s)
      else if .activeTarget ∈ s.indexes then (.dropping, s)
      else (.adding, s)
  | .adding =>
      if s.has slotColumn ∧ .activeTarget ∉ s.indexes ∧ ReservationIndex.activeTarget.Holds s.rows then
        (.dropping, { s with indexes := s.indexes ++ [.activeTarget] })
      else (.releasing true, s)
  | .dropping =>
      if .dateGroupTarget ∈ s.indexes then
        (.releasing false, { s with indexes := s.indexes.filter (· ≠ .dateGroupTarget) })
      else (.releasing true, s)
  | .releasing failed =>
      (if failed then .raised else .returned, { s with lock := none })
  | .swapping =>
      if .dateGroupTarget ∉ s.indexes then (.returned, s)
      else if s.has slotColumn ∧ ReservationIndex.activeTarget.Holds s.rows then
        -- the rows are copied into a table that has the new key only
        (.returned, { s with indexes := [.activeTarget] })
      else (.raised, s)
  | .returned => (.returned, s)
  | .raised => (.raised, s)

/-- What an error of the database does to the next statement: within the lock it is released
first, and a connection that cannot release it is closed. -/
def StartupPlace.refuse (s : StartupStore) : StartupPlace → StartupPlace × StartupStore
  | .inspectingLocked | .adding | .dropping => (.releasing true, s)
  | .releasing _ => (.raised, { s with lock := none })
  | .returned => (.returned, s)
  | _ => (.raised, s)

/-- What is left of an instance that is killed: its connections are closed, and the database
frees the lock of a closed connection. -/
def StartupPlace.kill (s : StartupStore) : StartupPlace → StartupPlace × StartupStore
  | .returned => (.returned, s)
  | place => (.raised, if place.critical then { s with lock := none } else s)

inductive StartupFate
  | executed
  | refused
  | killed
deriving DecidableEq

/-- Running versions of the cloud write what the indexes in force accept. -/
def StartupStore.Accepts (s : StartupStore) (rows : List RoastReservation) : Prop :=
  (∀ index ∈ s.indexes, index.Holds rows) ∧
    (s.has slotColumn = false → ∀ row ∈ rows, row.activeSlot = some 1)

/-- The instances that start, numbered, on the database they share. -/
def startupProgram (dialect : Dialect) :
    Outline.Program Nat StartupPlace StartupStore StartupFate where
  statement i fate place s :=
    match fate with
    | .executed => place.execute dialect i s
    | .refused => place.refuse s
    | .killed => place.kill s
  elsewhere s s' := ∃ rows, s.Accepts rows ∧ s' = { s with rows }

/-- A database as some version of the cloud left it: the table has one of the unique keys, and
nobody is starting. -/
structure StartupStore.Deployed (s : StartupStore) : Prop where
  unlocked : s.lock = none
  keyed : .dateGroupTarget ∈ s.indexes ∨ .activeTarget ∈ s.indexes
  accepted : s.Accepts s.rows
  slotted : .activeTarget ∈ s.indexes → s.has slotColumn = true

/-- Any number of instances, started on such a database. -/
def startup (dialect : Dialect) (tables : List String) :
    Transition.System (Outline.Pool Nat StartupPlace StartupStore)
      (Outline.Act Nat StartupFate StartupStore) :=
  (startupProgram dialect).system fun s =>
    s.store.Deployed ∧ ∀ i, s.place i = .next (protectionColumns tables)

end RollPig
