/-
The backfill of group activity keeps the earliest time.

The table of active users is read as a record of one time for each date, group and user.
Inserting a source is a note in that record, so the backfill leaves in the window the least of
the time that was stored and the times of all sources, and everything else as it was.
-/
import RollPig.Earliest
import RollPig.Migrations
import RollPig.Proofs.Activity

namespace RollPig

open Earliest

variable {db : Db} {date startDate endDate : Date} {groupId userId : String} {time : Time}
  {row : GroupDailyActiveUser} {rows : List GroupDailyActiveUser}

/-! ### The sources -/

/-- The history has the user active in the group at this time: an appearance, a roast, being
roasted, unless as a bot that backfired, or a place in a round. -/
inductive ActiveSource (db : Db) (date : Date) (groupId userId : String) : Time → Prop
  | groupRoll (row : GroupRoll) (hrow : row ∈ db.groupRolls)
      (hkey : row.dateStr = date ∧ row.groupId = groupId ∧ row.userId = userId) :
      ActiveSource db date groupId userId row.seenAt
  | attacker (row : RoastEvent) (hrow : row ∈ db.roastEvents)
      (hkey : row.dateStr = date ∧ row.groupId = groupId ∧ row.attackerId = userId) :
      ActiveSource db date groupId userId row.createdAt
  | target (row : RoastEvent) (hrow : row ∈ db.roastEvents) (hbot : row.eventType ≠ "bot_backfire")
      (hkey : row.dateStr = date ∧ row.groupId = groupId ∧ row.targetId = userId) :
      ActiveSource db date groupId userId row.createdAt
  | owner (row : RoastReservation) (hrow : row ∈ db.reservations)
      (hkey : row.dateStr = date ∧ row.groupId = groupId ∧ row.ownerId = userId) :
      ActiveSource db date groupId userId row.createdAt
  | participant (row : RoastReservation) (hrow : row ∈ db.reservations)
      (member : RoastReservationParticipant) (hmember : member ∈ db.participants)
      (hid : member.reservationId = row.reservationId)
      (hkey : row.dateStr = date ∧ row.groupId = groupId ∧ member.userId = userId) :
      ActiveSource db date groupId userId member.joinedAt

/-- The times of the sources of a user; who has no name, or is in no group, has none. -/
def Db.sourceTimes (db : Db) (date : Date) (groupId userId : String) : Set Time :=
  {time | groupId ≠ "" ∧ userId ≠ "" ∧ ActiveSource db date groupId userId time}

theorem mem_groupActivitySources :
    (⟨date, groupId, userId, time⟩ : GroupDailyActiveUser) ∈ groupActivitySources db ↔
      time ∈ db.sourceTimes date groupId userId := by
  unfold groupActivitySources Db.sourceTimes
  dsimp only
  rw [List.mem_filter, Set.mem_ofPred_eq]
  simp only [List.mem_append, List.mem_map, List.mem_flatMap, List.mem_filter,
    GroupDailyActiveUser.mk.injEq, decide_eq_true_eq]
  constructor
  · rintro ⟨hsource, hgroup, huser⟩
    refine ⟨hgroup, huser, ?_⟩
    rcases hsource with (((⟨row, hrow, rfl, rfl, rfl, rfl⟩ | ⟨row, hrow, rfl, rfl, rfl, rfl⟩) |
      ⟨row, ⟨hrow, hbot⟩, rfl, rfl, rfl, rfl⟩) | ⟨row, hrow, rfl, rfl, rfl, rfl⟩) |
      ⟨row, hrow, member, hmember, rfl, rfl, rfl, rfl⟩
    · exact .groupRoll row hrow ⟨rfl, rfl, rfl⟩
    · exact .attacker row hrow ⟨rfl, rfl, rfl⟩
    · exact .target row hrow hbot ⟨rfl, rfl, rfl⟩
    · exact .owner row hrow ⟨rfl, rfl, rfl⟩
    · obtain ⟨hmem, hid⟩ := Db.mem_members.mp hmember
      exact .participant row hrow member hmem hid ⟨rfl, rfl, rfl⟩
  · rintro ⟨hgroup, huser, hsource⟩
    refine ⟨?_, hgroup, huser⟩
    cases hsource with
    | groupRoll row hrow hkey =>
        exact Or.inl (Or.inl (Or.inl (Or.inl ⟨row, hrow, hkey.1, hkey.2.1, hkey.2.2, rfl⟩)))
    | attacker row hrow hkey =>
        exact Or.inl (Or.inl (Or.inl (Or.inr ⟨row, hrow, hkey.1, hkey.2.1, hkey.2.2, rfl⟩)))
    | target row hrow hbot hkey =>
        exact Or.inl (Or.inl (Or.inr ⟨row, ⟨hrow, hbot⟩, hkey.1, hkey.2.1, hkey.2.2, rfl⟩))
    | owner row hrow hkey => exact Or.inl (Or.inr ⟨row, hrow, hkey.1, hkey.2.1, hkey.2.2, rfl⟩)
    | participant row hrow member hmember hid hkey =>
        exact Or.inr ⟨row, hrow, member, Db.mem_members.mpr ⟨hmember, hid⟩, hkey.1, hkey.2.1,
          hkey.2.2, rfl⟩

/-! ### One source -/

/-- The time a user is on the table with. -/
def Db.activeTime (db : Db) (k : Date × String × String) : Option Time :=
  (Tables.lookup GroupDailyActiveUser.key db.activeUsers k).map (·.activeAt)

theorem activeTime_eq (h : Tables.Unique GroupDailyActiveUser.key db.activeUsers) :
    db.activeTime (date, groupId, userId) = some time ↔
      (⟨date, groupId, userId, time⟩ : GroupDailyActiveUser) ∈ db.activeUsers := by
  unfold Db.activeTime
  rw [h.mem_iff, Option.map_eq_some_iff]
  constructor
  · rintro ⟨row, hrow, rfl⟩
    have hkey : row.key = (date, groupId, userId) := (Tables.lookup_some hrow).2
    have hsame : (⟨date, groupId, userId, row.activeAt⟩ : GroupDailyActiveUser) = row := by
      obtain ⟨hdate, hgroup, huser⟩ := Prod.mk.inj hkey |>.imp_right Prod.mk.inj
      rw [← hdate, ← hgroup, ← huser]
    rw [hsame, hkey]
    exact hrow
  · intro hrow
    exact ⟨_, hrow, rfl⟩

/-- Inserting a source puts its row behind the table, or writes the stored one back. -/
theorem upsertActivity_cases (db : Db) (row : GroupDailyActiveUser) :
    (row.key ∉ db.activeUsers.map GroupDailyActiveUser.key ∧
        upsertActivity db row = { db with activeUsers := db.activeUsers ++ [row] }) ∨
      ∃ other, Tables.lookup GroupDailyActiveUser.key db.activeUsers row.key = some other ∧
        upsertActivity db row = { db with
          activeUsers := Tables.writeBack GroupDailyActiveUser.key
            [{ other with activeAt := min other.activeAt row.activeAt }] db.activeUsers } := by
  have hlookup : Tables.lookup GroupDailyActiveUser.key db.activeUsers row.key =
      db.activeUsers.find? fun other => (other.dateStr, other.groupId, other.userId) =
        (row.dateStr, row.groupId, row.userId) := rfl
  cases hfind : Tables.lookup GroupDailyActiveUser.key db.activeUsers row.key with
  | none =>
      refine Or.inl ⟨Tables.lookup_none.mp hfind, ?_⟩
      unfold upsertActivity
      dsimp only
      rw [← hlookup, hfind]
  | some other =>
      refine Or.inr ⟨other, rfl, ?_⟩
      unfold upsertActivity
      dsimp only
      rw [← hlookup, hfind]
      rfl

theorem upsertActivity_activeTime (db : Db) (row : GroupDailyActiveUser) :
    (upsertActivity db row).activeTime = note db.activeTime (row.key, row.activeAt) := by
  funext k
  unfold Db.activeTime note
  rcases upsertActivity_cases db row with ⟨hnew, heq⟩ | ⟨other, hother, heq⟩
  · rw [heq, Tables.lookup_insert hnew]
    have hnone : Tables.lookup GroupDailyActiveUser.key db.activeUsers row.key = none :=
      Tables.lookup_none.mpr hnew
    split_ifs with hk
    · rw [hk]
      dsimp only
      rw [hnone]
      rfl
    · rfl
  · have hkey : other.key = row.key := (Tables.lookup_some hother).2
    have hmem : other.key ∈ db.activeUsers.map GroupDailyActiveUser.key :=
      List.mem_map_of_mem (Tables.lookup_some hother).1
    have hwritten : ∀ written : GroupDailyActiveUser,
        written.key ∈ db.activeUsers.map GroupDailyActiveUser.key →
          Tables.lookup GroupDailyActiveUser.key
              (Tables.writeBack GroupDailyActiveUser.key [written] db.activeUsers) k =
            if k = written.key then some written
            else Tables.lookup GroupDailyActiveUser.key db.activeUsers k :=
      fun _ hmem => Tables.lookup_writeBack hmem k
    rw [heq, hwritten { other with activeAt := min other.activeAt row.activeAt } hmem]
    show Option.map _ (if k = other.key then _ else _) = _
    rw [hkey]
    split_ifs with hk
    · rw [hk]
      dsimp only
      rw [hother]
      rfl
    · rfl

theorem upsertActivity_unique (h : Tables.Unique GroupDailyActiveUser.key db.activeUsers)
    (row : GroupDailyActiveUser) :
    Tables.Unique GroupDailyActiveUser.key (upsertActivity db row).activeUsers := by
  rcases upsertActivity_cases db row with ⟨hnew, heq⟩ | ⟨other, -, heq⟩
  · rw [heq]
    exact h.insert fun r hr hkey => hnew (hkey ▸ List.mem_map_of_mem hr)
  · rw [heq]
    exact h.writeBack

/-- The other tables are left alone. -/
theorem upsertActivity_frame (db : Db) (row : GroupDailyActiveUser) :
    upsertActivity db row = { db with activeUsers := (upsertActivity db row).activeUsers } := by
  rcases upsertActivity_cases db row with ⟨-, heq⟩ | ⟨other, -, heq⟩
  · rw [heq]
  · rw [heq]

/-- A source of a registered user adds no row. -/
theorem upsertActivity_keys (h : row.key ∈ db.activeUsers.map GroupDailyActiveUser.key) :
    (upsertActivity db row).activeUsers.map GroupDailyActiveUser.key =
      db.activeUsers.map GroupDailyActiveUser.key := by
  rcases upsertActivity_cases db row with ⟨hnew, -⟩ | ⟨other, -, heq⟩
  · exact absurd h hnew
  · rw [heq]
    exact Tables.map_key_writeBack

/-- A source no earlier than the stored time changes nothing. -/
theorem upsertActivity_idle (h : Tables.Unique GroupDailyActiveUser.key db.activeUsers)
    {before : Time} (hstored : db.activeTime row.key = some before) (hle : before ≤ row.activeAt) :
    upsertActivity db row = db := by
  rcases upsertActivity_cases db row with ⟨hnew, -⟩ | ⟨other, hother, heq⟩
  · have hnone : Tables.lookup GroupDailyActiveUser.key db.activeUsers row.key = none :=
      Tables.lookup_none.mpr hnew
    unfold Db.activeTime at hstored
    rw [hnone] at hstored
    cases hstored
  · have htime : other.activeAt = before := by
      unfold Db.activeTime at hstored
      rw [hother] at hstored
      exact Option.some.inj hstored
    have hmin : min other.activeAt row.activeAt = other.activeAt := min_eq_left (htime ▸ hle)
    rw [heq, hmin]
    have hself : Tables.writeBack GroupDailyActiveUser.key
        [{ other with activeAt := other.activeAt }] db.activeUsers = db.activeUsers :=
      Tables.writeBack_self h fun x hx =>
        List.mem_singleton.mp hx ▸ (Tables.lookup_some hother).1
    rw [hself]

/-- The rows of other dates are left alone. -/
theorem upsertActivity_outside {p : GroupDailyActiveUser → Bool}
    (hp : ∀ other : GroupDailyActiveUser, other.key = row.key → p other = false) :
    (upsertActivity db row).activeUsers.filter p = db.activeUsers.filter p := by
  rcases upsertActivity_cases db row with ⟨-, heq⟩ | ⟨other, hother, heq⟩
  · rw [heq, List.filter_append, List.filter_singleton, hp row rfl]
    exact List.append_nil _
  · have hkey : other.key = row.key := (Tables.lookup_some hother).2
    rw [heq]
    show (Tables.writeBack GroupDailyActiveUser.key
      [{ other with activeAt := min other.activeAt row.activeAt }] db.activeUsers).filter p = _
    rw [Tables.filter_writeBack]
    · refine (Tables.writeBack_eq_map id ?_ fun _ _ => Or.inr rfl).trans (List.map_id _)
      intro r hr x hx hsame
      obtain ⟨-, hpr⟩ := List.mem_filter.mp hr
      have hrow : r.key = row.key := by
        rw [← hsame, List.mem_singleton.mp hx]
        exact hkey
      rw [hp r hrow] at hpr
      cases hpr
    · intro x hx r _ hsame
      have hxrow : x.key = row.key := by
        rw [List.mem_singleton.mp hx]
        exact hkey
      rw [hp x hxrow, hp r (hsame.symm.trans hxrow)]

/-! ### All sources of a window -/

theorem foldl_upsertActivity_activeTime (rows : List GroupDailyActiveUser) (db : Db) :
    (rows.foldl upsertActivity db).activeTime =
      (rows.map fun row => (row.key, row.activeAt)).foldl note db.activeTime := by
  induction rows generalizing db with
  | nil => rfl
  | cons row rest ih =>
      rw [List.foldl_cons, ih, upsertActivity_activeTime]
      rfl

theorem foldl_upsertActivity_unique (rows : List GroupDailyActiveUser)
    (h : Tables.Unique GroupDailyActiveUser.key db.activeUsers) :
    Tables.Unique GroupDailyActiveUser.key (rows.foldl upsertActivity db).activeUsers := by
  induction rows generalizing db with
  | nil => exact h
  | cons row rest ih => exact ih (upsertActivity_unique h row)

theorem foldl_upsertActivity_frame (rows : List GroupDailyActiveUser) (db : Db) :
    rows.foldl upsertActivity db =
      { db with activeUsers := (rows.foldl upsertActivity db).activeUsers } := by
  induction rows generalizing db with
  | nil => rfl
  | cons row rest ih =>
      rw [List.foldl_cons]
      have hrest := ih (upsertActivity db row)
      rw [upsertActivity_frame db row] at hrest ⊢
      exact hrest

theorem foldl_upsertActivity_keys
    (h : ∀ row ∈ rows, row.key ∈ db.activeUsers.map GroupDailyActiveUser.key) :
    (rows.foldl upsertActivity db).activeUsers.map GroupDailyActiveUser.key =
      db.activeUsers.map GroupDailyActiveUser.key := by
  induction rows generalizing db with
  | nil => rfl
  | cons row rest ih =>
      have hfirst := upsertActivity_keys (h row List.mem_cons_self)
      rw [List.foldl_cons, ih, hfirst]
      intro other hother
      rw [hfirst]
      exact h other (List.mem_cons_of_mem row hother)

theorem foldl_upsertActivity_idle (hunique : Tables.Unique GroupDailyActiveUser.key db.activeUsers)
    (h : ∀ row ∈ rows, ∃ before, db.activeTime row.key = some before ∧ before ≤ row.activeAt) :
    rows.foldl upsertActivity db = db := by
  induction rows with
  | nil => rfl
  | cons row rest ih =>
      obtain ⟨before, hstored, hle⟩ := h row List.mem_cons_self
      rw [List.foldl_cons, upsertActivity_idle hunique hstored hle]
      exact ih fun other hother => h other (List.mem_cons_of_mem row hother)

theorem foldl_upsertActivity_outside {p : GroupDailyActiveUser → Bool}
    (hp : ∀ row ∈ rows, ∀ other : GroupDailyActiveUser, other.key = row.key → p other = false) :
    (rows.foldl upsertActivity db).activeUsers.filter p = db.activeUsers.filter p := by
  induction rows generalizing db with
  | nil => rfl
  | cons row rest ih =>
      rw [List.foldl_cons, ih fun other hother => hp other (List.mem_cons_of_mem row hother)]
      exact upsertActivity_outside (hp row List.mem_cons_self)

/-! ### The backfill -/

/-- The dates of a window. -/
def InWindow (startDate endDate date : Date) : Prop := startDate ≤ date ∧ date ≤ endDate

instance (startDate endDate date : Date) : Decidable (InWindow startDate endDate date) :=
  inferInstanceAs (Decidable (_ ∧ _))

/-- The times that speak for a user: the stored one and those of the sources. -/
def Db.activeTimes (db : Db) (date : Date) (groupId userId : String) : Set Time :=
  {time | ⟨date, groupId, userId, time⟩ ∈ db.activeUsers} ∪ db.sourceTimes date groupId userId

/-- What a backfill makes of the table of active users. -/
structure Backfilled (startDate endDate : Date) (db db' : Db) : Prop where
  /-- Only this table is written. -/
  frame : db' = { db with activeUsers := db'.activeUsers }
  unique : Tables.Unique GroupDailyActiveUser.key db'.activeUsers
  /-- Everybody of the window has the least time that speaks for them. -/
  least : ∀ date groupId userId time, InWindow startDate endDate date →
    ((⟨date, groupId, userId, time⟩ : GroupDailyActiveUser) ∈ db'.activeUsers ↔
      IsLeast (db.activeTimes date groupId userId) time)
  /-- Somebody is on the table if they were, or have a source. -/
  rows : ∀ date groupId userId, InWindow startDate endDate date →
    ((∃ time, (⟨date, groupId, userId, time⟩ : GroupDailyActiveUser) ∈ db'.activeUsers) ↔
      (∃ time, (⟨date, groupId, userId, time⟩ : GroupDailyActiveUser) ∈ db.activeUsers) ∨
        (db.sourceTimes date groupId userId).Nonempty)
  outside : (db'.activeUsers.filter fun row => ¬ InWindow startDate endDate row.dateStr) =
    db.activeUsers.filter fun row => ¬ InWindow startDate endDate row.dateStr
  again : backfillGroupActivity startDate endDate db' = db'

/-- The sources of the window. -/
def windowSources (startDate endDate : Date) (db : Db) : List GroupDailyActiveUser :=
  (groupActivitySources db).filter fun row => InWindow startDate endDate row.dateStr

theorem backfillGroupActivity_eq (startDate endDate : Date) (db : Db) :
    backfillGroupActivity startDate endDate db =
      (windowSources startDate endDate db).foldl upsertActivity db := rfl

/-- The record's times of a key in the window are the times that speak for it. -/
theorem times_windowSources (h : Tables.Unique GroupDailyActiveUser.key db.activeUsers)
    (hdate : InWindow startDate endDate date) :
    times db.activeTime
        ((windowSources startDate endDate db).map fun row => (row.key, row.activeAt))
        (date, groupId, userId) = db.activeTimes date groupId userId := by
  ext time
  refine or_congr (activeTime_eq h) ?_
  rw [List.mem_map, ← mem_groupActivitySources]
  constructor
  · rintro ⟨row, hrow, hitem⟩
    obtain ⟨hsource, -⟩ := List.mem_filter.mp hrow
    obtain ⟨hkey, htime⟩ := Prod.mk.inj hitem
    obtain ⟨hrowDate, hrest⟩ := Prod.mk.inj hkey
    obtain ⟨hgroup, huser⟩ := Prod.mk.inj hrest
    rw [← hrowDate, ← hgroup, ← huser, ← htime]
    exact hsource
  · intro hsource
    exact ⟨_, List.mem_filter.mpr ⟨hsource, decide_eq_true hdate⟩, rfl⟩

/-- **The backfill leaves the least times**, and another one finds nothing to do. -/
theorem backfillGroupActivity_backfilled
    (h : Tables.Unique GroupDailyActiveUser.key db.activeUsers) (startDate endDate : Date) :
    Backfilled startDate endDate db (backfillGroupActivity startDate endDate db) := by
  have hunique := foldl_upsertActivity_unique (windowSources startDate endDate db) h
  have hframe := foldl_upsertActivity_frame (windowSources startDate endDate db) db
  have htimes := foldl_upsertActivity_activeTime (windowSources startDate endDate db) db
  rw [← backfillGroupActivity_eq] at hunique hframe htimes
  have hleast : ∀ date groupId userId time, InWindow startDate endDate date →
      ((backfillGroupActivity startDate endDate db).activeTime (date, groupId, userId) = some time ↔
        IsLeast (db.activeTimes date groupId userId) time) := by
    intro date groupId userId time hdate
    rw [htimes, foldl_note, times_windowSources h hdate]
  refine ⟨hframe, hunique, ?_, ?_, ?_, ?_⟩
  · intro date groupId userId time hdate
    rw [← activeTime_eq hunique]
    exact hleast date groupId userId time hdate
  · intro date groupId userId hdate
    have hsome : (∃ time, (⟨date, groupId, userId, time⟩ : GroupDailyActiveUser) ∈
        (backfillGroupActivity startDate endDate db).activeUsers) ↔
          (db.activeTimes date groupId userId).Nonempty := by
      rw [← times_windowSources h hdate, ← foldl_note_isSome, ← htimes, Option.isSome_iff_exists]
      exact exists_congr fun time => (activeTime_eq hunique).symm
    rw [hsome]
    exact Set.union_nonempty
  · refine foldl_upsertActivity_outside fun row hrow other hkey => ?_
    have hwindow := of_decide_eq_true (List.mem_filter.mp hrow).2
    have hdate : other.dateStr = row.dateStr := congrArg Prod.fst hkey
    rw [hdate]
    exact decide_eq_false (not_not.mpr hwindow)
  · have hsame : windowSources startDate endDate (backfillGroupActivity startDate endDate db) =
        windowSources startDate endDate db := by
      rw [hframe]
      rfl
    rw [backfillGroupActivity_eq startDate endDate (backfillGroupActivity startDate endDate db),
      hsame]
    refine foldl_upsertActivity_idle hunique fun row hrow => ?_
    obtain ⟨hsource, hwindow⟩ := List.mem_filter.mp hrow
    have hspeaks : row.activeAt ∈ db.activeTimes row.dateStr row.groupId row.userId :=
      Or.inr (mem_groupActivitySources.mp hsource)
    have hthere :
        ((backfillGroupActivity startDate endDate db).activeTime row.key).isSome = true := by
      rw [htimes, foldl_note_isSome]
      show (times _ _ (row.dateStr, row.groupId, row.userId)).Nonempty
      rw [times_windowSources h (of_decide_eq_true hwindow)]
      exact ⟨_, hspeaks⟩
    obtain ⟨before, hbefore⟩ := Option.isSome_iff_exists.mp hthere
    have hmin := (hleast _ _ _ before (of_decide_eq_true hwindow)).mp hbefore
    exact ⟨before, hbefore, hmin.2 hspeaks⟩

end RollPig
