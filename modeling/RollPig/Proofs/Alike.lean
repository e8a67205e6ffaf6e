/-
The backfill changes no answer.

Every reader of the growth tables has a default for a row that is missing: a collected pig
without progress counts as one copy, a user without draw state has no streak.  What a user
owns (`ownedProgress`) and the streak are read through these defaults, and databases that
are equal in them and in all the other tables are `Alike`.  Each request answers alike
databases alike and leaves them alike, on whatever path it creates the missing rows; the
backfill writes the defaults down, so its result is alike what it found.
-/
import RollPig.Tools.BackfillP1aProgress
import RollPig.Routers.Catalog
import RollPig.Proofs.Growth

namespace RollPig

open Transition

variable {s t s' t' db : Db} {e : Env} {userId pigId : String}

/-! ### What is read of the growth tables -/

/-- What a user owns of a pig: the progress, else what the collection starts it with. -/
def ownedProgress (db : Db) (userId pigId : String) : Option UserPigProgress :=
  match getProgress db userId pigId with
  | some row => some row
  | none => (getCollection db userId pigId).map startingProgress

/-- The streak of duplicates. -/
def duplicateStreak (db : Db) (userId : String) : Int :=
  match getDrawState db userId with
  | some row => row.duplicateStreak
  | none => 0

/-- The database with other progress and draw states. -/
def Db.regrow (db : Db) (progress : List UserPigProgress) (drawState : List UserDrawState) : Db :=
  { db with userPigProgress := progress, userDrawState := drawState }

/-- Two databases that no reader of the growth tables tells apart. -/
structure Alike (s t : Db) : Prop where
  rest : ∃ progress drawState, t = s.regrow progress drawState
  owned : ∀ userId pigId, ownedProgress s userId pigId = ownedProgress t userId pigId
  streak : ∀ userId, duplicateStreak s userId = duplicateStreak t userId
  collections : Tables.Unique collectionKey s.collections
  left : Tables.Unique progressKey s.userPigProgress
  right : Tables.Unique progressKey t.userPigProgress

theorem getProgress_eq_lookup (db : Db) (userId pigId : String) :
    getProgress db userId pigId = Tables.lookup progressKey db.userPigProgress (userId, pigId) := by
  unfold getProgress Tables.lookup
  congr 1
  funext row
  simp [progressKey]

theorem getCollection_eq_lookup (db : Db) (userId pigId : String) :
    getCollection db userId pigId = Tables.lookup collectionKey db.collections (userId, pigId) := by
  unfold getCollection Tables.lookup
  congr 1
  funext row
  simp [collectionKey]

/-- A collected pig that was never counted is owned by its collector. -/
theorem startingProgress_key {row : Collection} (h : getCollection db userId pigId = some row) :
    startingProgress row = { userId, pigId, copies := 1, firstObtainedAt := row.firstSeenAt } := by
  have hkey : row.userId = userId ∧ row.pigId = pigId := by simpa using List.find?_some h
  obtain ⟨rfl, rfl⟩ := hkey
  rfl

/-! ### Steps that leave growth aside -/

/-- A step that neither reads nor writes progress and draw states, and writes no
collections. -/
def Ungrown {ρ : Type} (f : Db → ρ × Db) : Prop :=
  ∀ db progress drawState, f (db.regrow progress drawState) =
      ((f db).1, (f db).2.regrow progress drawState) ∧
    (f db).2.collections = db.collections

namespace Ungrown

variable {ρ : Type} {f : Db → ρ × Db}

theorem tables (h : Ungrown f) (db : Db) :
    (f db).2.userPigProgress = db.userPigProgress ∧ (f db).2.userDrawState = db.userDrawState := by
  obtain ⟨hregrow, -⟩ := h db db.userPigProgress db.userDrawState
  have hsame : db.regrow db.userPigProgress db.userDrawState = db := rfl
  rw [hsame] at hregrow
  have hprogress := congrArg (fun result => result.2.userPigProgress) hregrow
  have hdrawState := congrArg (fun result => result.2.userDrawState) hregrow
  exact ⟨hprogress, hdrawState⟩

theorem owned (h : Ungrown f) (db : Db) (userId pigId : String) :
    ownedProgress (f db).2 userId pigId = ownedProgress db userId pigId := by
  unfold ownedProgress getProgress getCollection
  rw [(h.tables db).1, (h db [] []).2]

theorem streak (h : Ungrown f) (db : Db) (userId : String) :
    duplicateStreak (f db).2 userId = duplicateStreak db userId := by
  unfold duplicateStreak getDrawState
  rw [(h.tables db).2]

/-- Alike databases are answered alike, and stay alike. -/
theorem keeps (h : Ungrown f) : Keeps Alike f := by
  intro s t hst
  obtain ⟨progress, drawState, hrest⟩ := hst.rest
  obtain ⟨hregrow, hcollections⟩ := h s progress drawState
  rw [← hrest] at hregrow
  refine ⟨(congrArg Prod.fst hregrow).symm, ⟨progress, drawState, congrArg Prod.snd hregrow⟩,
    ?_, ?_, ?_, ?_, ?_⟩
  · intro userId pigId
    rw [h.owned, h.owned]
    exact hst.owned userId pigId
  · intro userId
    rw [h.streak, h.streak]
    exact hst.streak userId
  · rw [hcollections]
    exact hst.collections
  · rw [(h.tables s).1]
    exact hst.left
  · rw [(h.tables t).1]
    exact hst.right

end Ungrown

/-! ### A counted roll -/

/-- The streak after a roll. -/
def nextStreak (owned : Option UserPigProgress) (streak : Int) : Int :=
  if owned.isNone then 0 else streak + 1

/-- What a roll sees, from what the user owns of the pig and the streak. -/
def createdProgress (owned : Option UserPigProgress) (streak : Int) (collectionSize : Int) :
    CreatedRollProgress :=
  let previousCopies := (owned.map (·.copies)).getD 0
  let growthBonus := max 0 ((owned.map (·.growthBonus)).getD 0)
  { isNewPig := owned.isNone
    previousCopies
    copiesAfterRoll := previousCopies + 1
    previousExpertLevel := expertLevel previousCopies growthBonus
    expertLevelAfterRoll := expertLevel (previousCopies + 1) growthBonus
    collectionSizeAfterRoll := collectionSize
    previousDuplicateStreak := streak
    duplicateStreakAfterRoll := nextStreak owned streak }

/-- What the user owns after a roll. -/
def rolledProgress (e : Env) (userId pigId : String) (owned : Option UserPigProgress) :
    UserPigProgress :=
  match owned with
  | some row => { row with copies := row.copies + 1 }
  | none => { userId, pigId, copies := 1, firstObtainedAt := e.dbNow }

theorem applyCreatedRollProgress_fst (e : Env) (userId pigId : String) (db : Db) :
    (applyCreatedRollProgress e userId pigId db).1 =
      createdProgress (ownedProgress db userId pigId) (duplicateStreak db userId)
        (((ensureCollection e userId pigId db).collections.filter fun row =>
          row.userId = userId).length) := by
  unfold applyCreatedRollProgress createdProgress ownedProgress duplicateStreak
  cases getProgress db userId pigId with
  | some row =>
      cases getDrawState db userId <;> simp only [Option.isNone_some, Bool.and_false] <;> rfl
  | none =>
      cases getCollection db userId pigId with
      | some row =>
          cases getDrawState db userId <;> simp only [Option.isNone_some, Bool.false_and] <;> rfl
      | none =>
          cases getDrawState db userId <;> simp only [Option.isNone_none, Bool.and_self] <;> rfl

/-! What it writes: the row of the pig, that of the streak, and the collection. -/

theorem ensureCollection_drawState (e : Env) (userId pigId : String) (db : Db) :
    (ensureCollection e userId pigId db).userDrawState = db.userDrawState := by
  unfold ensureCollection
  cases getCollection db userId pigId <;> rfl

theorem applyCreatedRollProgress_progress (e : Env) (userId pigId : String) (db : Db) :
    (applyCreatedRollProgress e userId pigId db).2.userPigProgress =
      Tables.upsert progressKey (rolledProgress e userId pigId (ownedProgress db userId pigId))
        db.userPigProgress := by
  have hrows : (ensureCollection e userId pigId db).userPigProgress = db.userPigProgress :=
    (ensureCollection_frame e db userId pigId).2.1
  unfold applyCreatedRollProgress ownedProgress rolledProgress Tables.upsert
  cases hfound : getProgress db userId pigId with
  | some row =>
      have hmem : progressKey row ∈ db.userPigProgress.map progressKey :=
        List.mem_map_of_mem (List.mem_of_find?_eq_some hfound)
      dsimp only
      rw [if_pos (show progressKey { row with copies := row.copies + 1 } ∈ _ from hmem), ← hrows]
      cases getDrawState db userId <;> simp only [Option.isNone_some, Bool.and_false] <;> rfl
  | none =>
      have hfree := getProgress_none hfound
      cases hcollection : getCollection db userId pigId with
      | some row =>
          rw [Option.map_some, startingProgress_key hcollection]
          dsimp only
          rw [if_neg (show progressKey _ ∉ _ from hfree), ← hrows]
          cases getDrawState db userId <;> simp only [Option.isNone_some, Bool.false_and] <;> rfl
      | none =>
          rw [Option.map_none]
          dsimp only
          rw [if_neg (show progressKey _ ∉ _ from hfree), ← hrows]
          cases getDrawState db userId <;> simp only [Option.isNone_none, Bool.and_self] <;> rfl

theorem applyCreatedRollProgress_drawState (e : Env) (userId pigId : String) (db : Db) :
    (applyCreatedRollProgress e userId pigId db).2.userDrawState =
      Tables.upsert (·.userId)
        { userId, duplicateStreak :=
            nextStreak (ownedProgress db userId pigId) (duplicateStreak db userId) }
        db.userDrawState := by
  have hrows := ensureCollection_drawState e userId pigId db
  have hnew : ((getCollection db userId pigId).isNone && (getProgress db userId pigId).isNone) =
      (ownedProgress db userId pigId).isNone := by
    unfold ownedProgress
    cases getProgress db userId pigId <;> cases getCollection db userId pigId <;> rfl
  unfold applyCreatedRollProgress duplicateStreak nextStreak Tables.upsert
  dsimp only
  rw [hnew]
  cases hfound : getDrawState db userId with
  | some row =>
      have huser : row.userId = userId := by simpa using List.find?_some hfound
      have hmem : userId ∈ db.userDrawState.map (·.userId) := by
        rw [← huser]
        exact List.mem_map_of_mem (List.mem_of_find?_eq_some hfound)
      rw [if_pos hmem, ← hrows, ← huser]
      cases getProgress db row.userId pigId <;> rfl
  | none =>
      have hfree : userId ∉ db.userDrawState.map (·.userId) := by
        intro hmem
        obtain ⟨row, hrow, huser⟩ := List.mem_map.mp hmem
        have hnot := List.find?_eq_none.mp hfound row hrow
        exact hnot (by simpa using huser)
      rw [if_neg hfree, ← hrows]
      cases getProgress db userId pigId <;> rfl

/-- It writes no more tables. -/
theorem applyCreatedRollProgress_snd (e : Env) (userId pigId : String) (db : Db) :
    (applyCreatedRollProgress e userId pigId db).2 =
      (ensureCollection e userId pigId db).regrow
        (Tables.upsert progressKey (rolledProgress e userId pigId (ownedProgress db userId pigId))
          db.userPigProgress)
        (Tables.upsert (·.userId)
          { userId, duplicateStreak :=
              nextStreak (ownedProgress db userId pigId) (duplicateStreak db userId) }
          db.userDrawState) := by
  rw [← applyCreatedRollProgress_progress e, ← applyCreatedRollProgress_drawState e]
  unfold applyCreatedRollProgress
  dsimp only
  cases getDrawState db userId <;> cases getProgress db userId pigId <;> rfl

/-! ### Writing what is read through the defaults -/

theorem getDrawState_eq_lookup (db : Db) (userId : String) :
    getDrawState db userId = Tables.lookup (·.userId) db.userDrawState userId := by
  unfold getDrawState Tables.lookup
  rfl

theorem getProgress_upsert (db : Db) (row : UserPigProgress) (drawState : List UserDrawState)
    (userId pigId : String) :
    getProgress (db.regrow (Tables.upsert progressKey row db.userPigProgress) drawState)
        userId pigId =
      if (userId, pigId) = progressKey row then some row else getProgress db userId pigId := by
  rw [getProgress_eq_lookup, getProgress_eq_lookup]
  exact Tables.lookup_upsert row (userId, pigId)

theorem ownedProgress_upsert (db : Db) (row : UserPigProgress) (drawState : List UserDrawState)
    (userId pigId : String) :
    ownedProgress (db.regrow (Tables.upsert progressKey row db.userPigProgress) drawState)
        userId pigId =
      if (userId, pigId) = progressKey row then some row else ownedProgress db userId pigId := by
  unfold ownedProgress
  rw [getProgress_upsert]
  split_ifs <;> rfl

theorem duplicateStreak_upsert (db : Db) (row : UserDrawState) (progress : List UserPigProgress)
    (userId : String) :
    duplicateStreak (db.regrow progress (Tables.upsert (·.userId) row db.userDrawState)) userId =
      if userId = row.userId then row.duplicateStreak else duplicateStreak db userId := by
  have hread : getDrawState
      (db.regrow progress (Tables.upsert (·.userId) row db.userDrawState)) userId =
      if userId = row.userId then some row else getDrawState db userId := by
    rw [getDrawState_eq_lookup, getDrawState_eq_lookup]
    exact Tables.lookup_upsert row userId
  unfold duplicateStreak
  rw [hread]
  split_ifs <;> rfl

theorem Db.regrow_regrow (db : Db) (progress progress' : List UserPigProgress)
    (drawState drawState' : List UserDrawState) :
    (db.regrow progress drawState).regrow progress' drawState' = db.regrow progress' drawState' :=
  rfl

/-- Whatever is written to the growth tables, the rest stays the same. -/
theorem Alike.regrow_rest (h : Alike s t) (progress progress' : List UserPigProgress)
    (drawState drawState' : List UserDrawState) :
    t.regrow progress' drawState' = (s.regrow progress drawState).regrow progress' drawState' := by
  obtain ⟨_, _, hrest⟩ := h.rest
  rw [hrest, Db.regrow_regrow, Db.regrow_regrow]

/-- The same progress written into alike databases. -/
theorem Alike.progress (h : Alike s t) (row : UserPigProgress) :
    Alike (s.regrow (Tables.upsert progressKey row s.userPigProgress) s.userDrawState)
      (t.regrow (Tables.upsert progressKey row t.userPigProgress) t.userDrawState) := by
  refine ⟨⟨_, _, h.regrow_rest _ _ _ _⟩, ?_, h.streak, h.collections, h.left.upsert row,
    h.right.upsert row⟩
  intro userId pigId
  rw [ownedProgress_upsert, ownedProgress_upsert, h.owned]

/-- The same streak written into alike databases. -/
theorem Alike.drawState (h : Alike s t) (row : UserDrawState) :
    Alike (s.regrow s.userPigProgress (Tables.upsert (·.userId) row s.userDrawState))
      (t.regrow t.userPigProgress (Tables.upsert (·.userId) row t.userDrawState)) := by
  refine ⟨⟨_, _, h.regrow_rest _ _ _ _⟩, h.owned, ?_, h.collections, h.left, h.right⟩
  intro userId
  rw [duplicateStreak_upsert, duplicateStreak_upsert, h.streak]

/-! A pig whose progress is written may be added to the collection. -/

theorem ensureCollection_regrow (e : Env) (userId pigId : String) (db : Db)
    (progress : List UserPigProgress) (drawState : List UserDrawState) :
    ensureCollection e userId pigId (db.regrow progress drawState) =
      (ensureCollection e userId pigId db).regrow progress drawState := by
  have hread : getCollection (db.regrow progress drawState) userId pigId =
      getCollection db userId pigId := rfl
  unfold ensureCollection
  rw [hread]
  cases getCollection db userId pigId <;> rfl

theorem getCollection_none (h : getCollection db userId pigId = none) :
    (userId, pigId) ∉ db.collections.map collectionKey := by
  rw [getCollection_eq_lookup] at h
  exact Tables.lookup_none.mp h

theorem ensureCollection_unique (e : Env) (userId pigId : String)
    (h : Tables.Unique collectionKey db.collections) :
    Tables.Unique collectionKey (ensureCollection e userId pigId db).collections := by
  unfold ensureCollection
  cases hfound : getCollection db userId pigId with
  | some row => exact h
  | none =>
      refine h.insert fun row hrow hkey => getCollection_none hfound ?_
      exact List.mem_map.mpr ⟨row, hrow, hkey⟩

theorem getCollection_ensureCollection (e : Env) {userId' pigId' : String}
    (hkey : (userId', pigId') ≠ (userId, pigId)) :
    getCollection (ensureCollection e userId pigId db) userId' pigId' =
      getCollection db userId' pigId' := by
  unfold ensureCollection
  cases hfound : getCollection db userId pigId with
  | some row => rfl
  | none =>
      rw [getCollection_eq_lookup, getCollection_eq_lookup]
      have hinsert := Tables.lookup_insert
        (x := ({ userId, pigId, firstSeenAt := e.dbNow } : Collection))
        (getCollection_none hfound) (userId', pigId')
      exact hinsert.trans (if_neg hkey)

theorem ownedProgress_counted {row : UserPigProgress} (h : getProgress db userId pigId = some row) :
    ownedProgress db userId pigId = some row := by
  unfold ownedProgress
  rw [h]

theorem ownedProgress_uncounted (h : getProgress db userId pigId = none) :
    ownedProgress db userId pigId = (getCollection db userId pigId).map startingProgress := by
  unfold ownedProgress
  rw [h]

theorem ownedProgress_ensureCollection (e : Env) (hcounted : (getProgress db userId pigId).isSome)
    (userId' pigId' : String) :
    ownedProgress (ensureCollection e userId pigId db) userId' pigId' =
      ownedProgress db userId' pigId' := by
  have hsame : getProgress (ensureCollection e userId pigId db) userId' pigId' =
      getProgress db userId' pigId' := by
    unfold getProgress
    rw [(ensureCollection_frame e db userId pigId).2.1]
  by_cases hkey : (userId', pigId') = (userId, pigId)
  · obtain ⟨rfl, rfl⟩ := Prod.mk.inj hkey
    obtain ⟨row, hrow⟩ := Option.isSome_iff_exists.mp hcounted
    rw [ownedProgress_counted hrow, ownedProgress_counted (hsame.trans hrow)]
  · unfold ownedProgress
    rw [hsame, getCollection_ensureCollection e hkey]

theorem Alike.collect (h : Alike s t) (e : Env) (hs : (getProgress s userId pigId).isSome)
    (ht : (getProgress t userId pigId).isSome) :
    Alike (ensureCollection e userId pigId s) (ensureCollection e userId pigId t) := by
  obtain ⟨progress, drawState, hrest⟩ := h.rest
  refine ⟨⟨progress, drawState, ?_⟩, ?_, ?_, ensureCollection_unique e userId pigId h.collections,
    ?_, ?_⟩
  · rw [hrest]
    exact ensureCollection_regrow e userId pigId s progress drawState
  · intro userId' pigId'
    rw [ownedProgress_ensureCollection e hs, ownedProgress_ensureCollection e ht]
    exact h.owned userId' pigId'
  · intro userId'
    unfold duplicateStreak getDrawState
    rw [ensureCollection_drawState, ensureCollection_drawState]
    exact h.streak userId'
  · rw [(ensureCollection_frame e s userId pigId).2.1]
    exact h.left
  · rw [(ensureCollection_frame e t userId pigId).2.1]
    exact h.right

/-! ### Counting a roll -/

theorem ownedProgress_key {row : UserPigProgress} (h : ownedProgress db userId pigId = some row) :
    progressKey row = (userId, pigId) := by
  unfold ownedProgress at h
  cases hfound : getProgress db userId pigId with
  | some counted =>
      rw [hfound] at h
      obtain rfl : counted = row := Option.some.inj h
      exact (getProgress_some hfound).2
  | none =>
      rw [hfound] at h
      obtain ⟨collection, hcollection, hrow⟩ := Option.map_eq_some_iff.mp h
      rw [← hrow, startingProgress_key hcollection]
      rfl

theorem rolledProgress_key (e : Env) (db : Db) (userId pigId : String) :
    progressKey (rolledProgress e userId pigId (ownedProgress db userId pigId)) =
      (userId, pigId) := by
  cases howned : ownedProgress db userId pigId with
  | some row =>
      show progressKey row = (userId, pigId)
      exact ownedProgress_key howned
  | none => rfl

theorem applyCreatedRollProgress_keeps (e : Env) (userId pigId : String) :
    Keeps Alike (applyCreatedRollProgress e userId pigId) := by
  intro s t h
  obtain ⟨progress, drawState, hrest⟩ := h.rest
  have hcollections : (ensureCollection e userId pigId t).collections =
      (ensureCollection e userId pigId s).collections := by
    rw [hrest, ensureCollection_regrow]
    rfl
  constructor
  · rw [applyCreatedRollProgress_fst, applyCreatedRollProgress_fst, hcollections, h.owned, h.streak]
  · rw [applyCreatedRollProgress_snd, applyCreatedRollProgress_snd, ← h.owned, ← h.streak,
      ← ensureCollection_regrow, ← ensureCollection_regrow]
    generalize hrow : rolledProgress e userId pigId (ownedProgress s userId pigId) = row
    have hkey : progressKey row = (userId, pigId) := by
      rw [← hrow]
      exact rolledProgress_key e s userId pigId
    -- the pig is counted before it is collected, so that its progress is there
    have hcounted : ∀ (db : Db) (drawState : List UserDrawState), (getProgress
        (db.regrow (Tables.upsert progressKey row db.userPigProgress) drawState)
        userId pigId).isSome := by
      intro db drawState
      rw [getProgress_upsert, if_pos hkey.symm]
      rfl
    exact ((h.progress row).drawState _).collect e (hcounted s _) (hcounted t _)

/-! ### The steps beside it -/

theorem markGroupActiveUsers_regrow (e : Env) (date : Date) (groupId : String)
    (userIds : List String) (db : Db) (progress : List UserPigProgress)
    (drawState : List UserDrawState) :
    markGroupActiveUsers e date groupId userIds (db.regrow progress drawState) =
      (markGroupActiveUsers e date groupId userIds db).regrow progress drawState := by
  unfold markGroupActiveUsers
  split_ifs <;> rfl

theorem insertRoastEvent_regrow (e : Env) (req : EventCreateRequest) (db : Db)
    (progress : List UserPigProgress) (drawState : List UserDrawState) :
    insertRoastEvent e req (db.regrow progress drawState) =
      (insertRoastEvent e req db).regrow progress drawState := by
  unfold insertRoastEvent
  rw [← markGroupActiveUsers_regrow]
  rfl

theorem ensureGroupRoll_ungrown (e : Env) (groupId userId pigId : String) (date : Date) :
    Ungrown fun db => ((), ensureGroupRoll e groupId userId pigId date db) := by
  intro db progress drawState
  refine ⟨?_, (ensureGroupRoll_frame e db groupId userId pigId date).2.1⟩
  unfold ensureGroupRoll markGroupActiveUsers
  dsimp only [Db.regrow]
  split_ifs <;> rfl

theorem activateTargetReservations_ungrown (e : Env) (date : Date) (targetId pigId : String) :
    Ungrown fun db => activateTargetReservations e date targetId pigId db := by
  intro db progress drawState
  refine ⟨?_, ?_⟩
  · unfold activateTargetReservations Db.dailyRoll? Db.members Db.flushReservations
    dsimp only [Db.regrow]
    split_ifs <;> rfl
  · exact (activateTargetReservations_frame e db date targetId pigId "").2.1

theorem recordRoastEventWithStatus_ungrown (e : Env) (req : EventCreateRequest)
    (item : Option RoastReservationItem) : Ungrown (recordRoastEventWithStatus e req item) := by
  intro db progress drawState
  refine ⟨?_, (recordRoastEventWithStatus_frame e db req item).2.1⟩
  have hrecorded : ((db.regrow progress drawState).roastEvents.any fun row =>
      row.reservationId = req.reservationId) =
      db.roastEvents.any fun row => row.reservationId = req.reservationId := rfl
  unfold recordRoastEventWithStatus
  dsimp only
  rw [hrecorded]
  by_cases hbound : req.reservationId = ""
  · rw [if_pos hbound, if_pos hbound, insertRoastEvent_regrow]
  · rw [if_neg hbound, if_neg hbound]
    split_ifs with hknown
    · rfl
    · rw [insertRoastEvent_regrow]
      rfl

theorem raiseSuccessCount_ungrown (row : RoastReservation) (req : RoastReservationOutcomeRequest) :
    Ungrown fun db => ((), raiseSuccessCount row req db) := by
  intro db progress drawState
  refine ⟨?_, (raiseSuccessCount_frame db row req).2.1⟩
  have hread : settledProtection (db.regrow progress drawState) row = settledProtection db row := rfl
  unfold raiseSuccessCount
  dsimp only
  rw [hread]
  cases settledProtection db row with
  | none => rfl
  | some protection =>
      dsimp only
      split_ifs <;> rfl

theorem answer_ungrown (row : RoastReservation) : Ungrown (answer row) := by
  intro db progress drawState
  exact ⟨rfl, rfl⟩

theorem insertDailyRoll_ungrown (roll : DailyRoll) :
    Ungrown fun db => (roll, { db with dailyRolls := db.dailyRolls ++ [roll] }) := by
  intro db progress drawState
  exact ⟨rfl, rfl⟩

/-- A roll is inserted and counted. -/
theorem createDailyRoll_keeps (e : Env) (roll : DailyRoll) : Keeps Alike (createDailyRoll e roll) :=
  (applyCreatedRollProgress_keeps e roll.userId roll.pigId).bind fun counted =>
    (insertDailyRoll_ungrown (roll.withProgress counted)).keeps

/-! ### Reading -/

namespace Alike

/-- What is read of the other tables only. -/
theorem reads {α : Type} (h : Alike s t) (look : Db → α)
    (hlook : ∀ db progress drawState, look (db.regrow progress drawState) = look db) :
    look t = look s := by
  obtain ⟨_, _, hrest⟩ := h.rest
  rw [hrest, hlook]

theorem collection (h : Alike s t) (userId pigId : String) :
    getCollection t userId pigId = getCollection s userId pigId :=
  h.reads (fun db => getCollection db userId pigId) fun _ _ _ => rfl

/-- A row one of two alike databases lacks is the default in the other. -/
theorem progress_cases (h : Alike s t) (userId pigId : String) :
    getProgress s userId pigId = getProgress t userId pigId ∨
      ∃ row, getCollection s userId pigId = some row ∧
        ((getProgress s userId pigId = none ∧
            getProgress t userId pigId = some (startingProgress row)) ∨
          (getProgress s userId pigId = some (startingProgress row) ∧
            getProgress t userId pigId = none)) := by
  have howned := h.owned userId pigId
  have hcollection := h.collection userId pigId
  unfold ownedProgress at howned
  cases hs : getProgress s userId pigId with
  | some row =>
      cases ht : getProgress t userId pigId with
      | some row' =>
          rw [hs, ht] at howned
          exact Or.inl howned
      | none =>
          rw [hs, ht, hcollection] at howned
          obtain ⟨collection, hfound, hrow⟩ := Option.map_eq_some_iff.mp howned.symm
          exact Or.inr ⟨collection, hfound, Or.inr ⟨by rw [hrow], rfl⟩⟩
  | none =>
      cases ht : getProgress t userId pigId with
      | some row' =>
          rw [hs, ht] at howned
          obtain ⟨collection, hfound, hrow⟩ := Option.map_eq_some_iff.mp howned
          exact Or.inr ⟨collection, hfound, Or.inl ⟨rfl, by rw [hrow]⟩⟩
      | none => exact Or.inl rfl

theorem streak_cases (h : Alike s t) (userId : String) :
    getDrawState s userId = getDrawState t userId ∨
      (getDrawState s userId = none ∧ getDrawState t userId = some { userId }) ∨
        (getDrawState s userId = some { userId } ∧ getDrawState t userId = none) := by
  have hkey : ∀ (db : Db) (row : UserDrawState), getDrawState db userId = some row →
      row.userId = userId := by
    intro db row hrow
    rw [getDrawState_eq_lookup] at hrow
    exact (Tables.lookup_some hrow).2
  have hstreak := h.streak userId
  unfold duplicateStreak at hstreak
  cases hs : getDrawState s userId with
  | some row =>
      obtain rfl := hkey s row hs
      cases ht : getDrawState t row.userId with
      | some row' =>
          have huser := hkey t row' ht
          rw [hs, ht] at hstreak
          obtain ⟨user, streak⟩ := row
          obtain ⟨user', streak'⟩ := row'
          obtain rfl : user' = user := huser
          obtain rfl : streak = streak' := hstreak
          exact Or.inl rfl
      | none =>
          rw [hs, ht] at hstreak
          obtain ⟨user, streak⟩ := row
          obtain rfl : streak = 0 := hstreak
          exact Or.inr (Or.inr ⟨rfl, rfl⟩)
  | none =>
      cases ht : getDrawState t userId with
      | some row' =>
          obtain rfl := hkey t row' ht
          rw [hs, ht] at hstreak
          obtain ⟨user', streak'⟩ := row'
          obtain rfl : 0 = streak' := hstreak
          exact Or.inr (Or.inl ⟨rfl, rfl⟩)
      | none => exact Or.inl rfl

theorem lookup (h : Alike s t) (roll : Option DailyRoll) (created : Bool) :
    buildLookupResponse s roll created = buildLookupResponse t roll created := by
  cases roll with
  | none => rfl
  | some roll =>
      have hprogress := h.progress_cases roll.userId roll.pigId
      have hstreak := h.streak_cases roll.userId
      have hcollection := h.collection roll.userId roll.pigId
      obtain ⟨progress, drawState, hrest⟩ := h.rest
      have hfeeds : t.userDailyFeeds = s.userDailyFeeds := by
        rw [hrest]
        rfl
      unfold buildLookupResponse
      dsimp only
      rw [hfeeds, hcollection]
      generalize getProgress s roll.userId roll.pigId = progress at hprogress ⊢
      generalize getProgress t roll.userId roll.pigId = progress' at hprogress ⊢
      generalize getCollection s roll.userId roll.pigId = collection at hprogress ⊢
      generalize getDrawState s roll.userId = drawState at hstreak ⊢
      generalize getDrawState t roll.userId = drawState' at hstreak ⊢
      rcases hprogress with rfl | ⟨row, rfl, ⟨rfl, rfl⟩ | ⟨rfl, rfl⟩⟩ <;>
        rcases hstreak with rfl | ⟨rfl, rfl⟩ | ⟨rfl, rfl⟩ <;> rfl

end Alike

end RollPig
