/-
What was reported at a cutoff is reported for good.

A report reads first appearances, rolls, collections, feeds and events, and of each only
the rows there were at the cutoff.  Rows of these tables are never rewritten, but for the
appearance of a roll, which no report shows; so what was inserted after the cutoff is all
that later reads could see more, and none of them selects it.
-/
import RollPig.Proofs.Ignition
import RollPig.Proofs.Journals
import RollPig.Routers.DailyReports
import RollPig.Routers.Events

namespace RollPig

open Transition

variable {w w' : World} {db db' db'' : Db}

/-! ### What a report reads of a roll -/

/-- The roll without the appearance its client may still complete. -/
def DailyRoll.reported (roll : DailyRoll) : DailyRoll :=
  { roll with resourceVersion := none, appearanceSnapshot := none }

theorem expertLevelFromRoll_reported (roll : Option DailyRoll) (feedLevel : Option Int) :
    expertLevelFromRoll (roll.map DailyRoll.reported) feedLevel =
      expertLevelFromRoll roll feedLevel := by
  cases roll <;> rfl

def ProfileRows.reported (rows : ProfileRows) : ProfileRows :=
  { rows with
    dailyRoll := rows.dailyRoll.map DailyRoll.reported
    recent := rows.recent.map DailyRoll.reported }

/-- A profile shows no appearance. -/
theorem profileItem_reported (date : Date) (userId : String) (rows : ProfileRows) :
    profileItem date userId rows.reported = profileItem date userId rows := by
  have hmatch : (rows.dailyRoll.map DailyRoll.reported).filter
      (fun roll => roll.pigId = rows.dailyPigId) =
      (rows.dailyRoll.filter fun roll => roll.pigId = rows.dailyPigId).map DailyRoll.reported := by
    cases rows.dailyRoll with
    | none => rfl
    | some roll =>
        by_cases hpig : roll.pigId = rows.dailyPigId
        · simp [Option.filter, DailyRoll.reported, hpig]
        · simp [Option.filter, DailyRoll.reported, hpig]
  have hstamp : ∀ roll : Option DailyRoll,
      (roll.map DailyRoll.reported).map (·.createdAt) = roll.map (·.createdAt) := by
    intro roll
    cases roll <;> rfl
  unfold profileItem ProfileRows.reported
  simp only [hmatch, hstamp, expertLevelFromRoll_reported]
  cases rows.recent <;> rfl

/-! ### Tables at a cutoff -/

/-- What came after the cutoff: rows later than it, and nothing else. -/
structure Db.Later (c : Time) (db db' : Db) : Prop where
  dailyRolls : Tables.Grows (fun roll : DailyRoll => c < roll.createdAt)
    (db.dailyRolls.map DailyRoll.reported) (db'.dailyRolls.map DailyRoll.reported)
  groupRolls : Tables.Grows (fun row : GroupRoll => c < row.seenAt) db.groupRolls db'.groupRolls
  collections : Tables.Grows (fun row : Collection => c < row.firstSeenAt)
    db.collections db'.collections
  userDailyFeeds : Tables.Grows (fun row : UserDailyFeed => c < row.createdAt)
    db.userDailyFeeds db'.userDailyFeeds
  roastEvents : Tables.Grows (fun row : RoastEvent => c < row.createdAt)
    db.roastEvents db'.roastEvents

/-- The row of the latest date among the rows selected; `atDate` picks it by that date. -/
def latestRow {α : Type} (selected : α → Bool) (date : α → Date) (atDate : Date → α → Bool)
    (t : List α) : Option α :=
  match ((t.filter selected).map date).max? with
  | none => none
  | some latest => t.find? (atDate latest)

/-- Rows no selection meets do not displace it. -/
theorem latestRow_grows {α : Type} {P : α → Prop} {t t' : List α} (h : Tables.Grows P t t')
    {selected : α → Bool} {date : α → Date} {atDate : Date → α → Bool}
    (hlater : ∀ x, P x → selected x = false)
    (hpicks : ∀ x, selected x = true → atDate (date x) x = true) :
    latestRow selected date atDate t' = latestRow selected date atDate t := by
  unfold latestRow
  rw [h.filter hlater]
  cases hmax : ((t.filter selected).map date).max? with
  | none => rfl
  | some latest =>
      obtain ⟨x, hx, rfl⟩ := List.mem_map.mp (List.max?_mem hmax)
      obtain ⟨hmem, hselected⟩ := List.mem_filter.mp hx
      exact h.find? (Or.inl ⟨x, hmem, hpicks x hselected⟩)

/-- The latest row, looked for in the rolls without their appearances. -/
theorem latestRow_reported {selected : DailyRoll → Bool} {atDate : Date → DailyRoll → Bool}
    (hselected : ∀ roll, selected roll.reported = selected roll)
    (hatDate : ∀ date roll, atDate date roll.reported = atDate date roll) (t : List DailyRoll) :
    latestRow selected (·.dateStr) atDate (t.map DailyRoll.reported) =
      (latestRow selected (·.dateStr) atDate t).map DailyRoll.reported := by
  have hrows : ((t.map DailyRoll.reported).filter selected).map (·.dateStr) =
      (t.filter selected).map (·.dateStr) := by
    rw [List.filter_map, List.map_map]
    have hsame : (selected ∘ DailyRoll.reported) = selected := funext hselected
    rw [hsame]
    rfl
  unfold latestRow
  rw [hrows]
  cases ((t.filter selected).map (·.dateStr)).max? with
  | none => rfl
  | some latest =>
      have hsame : (atDate latest ∘ DailyRoll.reported) = atDate latest := funext (hatDate latest)
      show (t.map DailyRoll.reported).find? (atDate latest) = _
      rw [List.find?_map, hsame]

/-! ### Reports at the cutoff -/

section

variable {c : Time} (h : db.Later c db')

include h

theorem groupPigId_later {req : DailyReportProfileRequest} (hc : req.cutoffAt = c)
    (userId : String) : groupPigId req userId db' = groupPigId req userId db := by
  subst hc
  unfold groupPigId
  rw [h.groupRolls.find? (Or.inr fun row hrow => ?_)]
  have hseen : ¬ row.seenAt ≤ req.cutoffAt := not_le.mpr hrow
  simp [hseen]

theorem reportedRoll_later {req : DailyReportProfileRequest} (hc : req.cutoffAt = c)
    (userId : String) :
    (reportedRoll req userId db').map DailyRoll.reported =
      (reportedRoll req userId db).map DailyRoll.reported := by
  subst hc
  have hfind : ∀ db : Db, (reportedRoll req userId db).map DailyRoll.reported =
      (db.dailyRolls.map DailyRoll.reported).find? fun row =>
        row.dateStr = req.dateStr ∧ row.userId = userId ∧ row.createdAt ≤ req.cutoffAt := by
    intro db
    rw [List.find?_map]
    rfl
  rw [hfind, hfind]
  refine h.dailyRolls.find? (Or.inr fun row hrow => ?_)
  have hseen : ¬ row.createdAt ≤ req.cutoffAt := not_le.mpr hrow
  simp [hseen]

theorem collectionStats_later {req : DailyReportProfileRequest} (hc : req.cutoffAt = c)
    (userId : String) : collectionStats req userId db' = collectionStats req userId db := by
  subst hc
  unfold collectionStats
  rw [h.collections.filter fun row hrow => ?_]
  have hseen : ¬ row.firstSeenAt ≤ req.cutoffAt := not_le.mpr hrow
  simp [hseen]

theorem recentRoll_later {req : DailyReportProfileRequest} (hc : req.cutoffAt = c)
    (userId : String) :
    (recentRoll req userId db').map DailyRoll.reported =
      (recentRoll req userId db).map DailyRoll.reported := by
  subst hc
  have hlatest : ∀ db : Db, (recentRoll req userId db).map DailyRoll.reported =
      latestRow (fun row => row.userId = userId ∧ row.dateStr ≤ req.dateStr ∧
        row.createdAt ≤ req.cutoffAt) (·.dateStr)
        (fun date row => row.userId = userId ∧ row.dateStr = date)
        (db.dailyRolls.map DailyRoll.reported) := fun db =>
    (latestRow_reported (fun _ => rfl) (fun _ _ => rfl) db.dailyRolls).symm
  rw [hlatest, hlatest]
  refine latestRow_grows h.dailyRolls ?_ ?_
  · intro row hrow
    have hseen : ¬ row.createdAt ≤ req.cutoffAt := not_le.mpr hrow
    simp [hseen]
  · intro row hrow
    simp only [decide_eq_true_eq] at hrow ⊢
    exact ⟨hrow.1, trivial⟩

theorem latestFeed_later {req : DailyReportProfileRequest} (hc : req.cutoffAt = c)
    (userId : String) : latestFeed req userId db' = latestFeed req userId db := by
  subst hc
  refine latestRow_grows h.userDailyFeeds ?_ ?_
  · intro row hrow
    have hseen : ¬ row.createdAt ≤ req.cutoffAt := not_le.mpr hrow
    simp [hseen]
  · intro row hrow
    simp only [decide_eq_true_eq] at hrow ⊢
    exact ⟨hrow.1, trivial⟩

/-- The profiles are the same. -/
theorem getDailyReportProfiles_later {req : DailyReportProfileRequest} (hc : req.cutoffAt = c) :
    getDailyReportProfiles req db' = getDailyReportProfiles req db := by
  refine List.map_congr_left fun userId _ => ?_
  have hrows : (profileRows req userId db').reported = (profileRows req userId db).reported := by
    simp only [profileRows, ProfileRows.reported, groupPigId_later h hc, reportedRoll_later h hc,
      collectionStats_later h hc, recentRoll_later h hc, latestFeed_later h hc]
  rw [← profileItem_reported, hrows, profileItem_reported]

/-- The group rolls are the same. -/
theorem getGroupRolls_later (groupId : String) (date : Date) :
    getGroupRolls groupId date (some c) db' = getGroupRolls groupId date (some c) db := by
  unfold getGroupRolls
  rw [h.groupRolls.filter fun row hrow => ?_]
  have hseen : ¬ row.seenAt ≤ c := not_le.mpr hrow
  simp [atCutoff, hseen]

/-- The events are the same, their ids included. -/
theorem listEvents_later (date : Date) (groupId userId : Option String) :
    listEvents date groupId userId (some c) db' = listEvents date groupId userId (some c) db := by
  have hselected : ∀ p : RoastEvent × Nat → Bool,
      (∀ row, c < row.1.createdAt → p row = false) →
        (db'.roastEvents.zipIdx 1).filter p = (db.roastEvents.zipIdx 1).filter p := by
    intro p hp
    obtain ⟨new, hevents, hnew⟩ := h.roastEvents
    have hnone : (new.zipIdx (1 + db.roastEvents.length)).filter p = [] := by
      refine List.filter_eq_nil_iff.mpr fun row hrow => ?_
      rw [hp row (hnew row.1 (List.fst_mem_of_mem_zipIdx hrow))]
      simp
    rw [hevents, List.zipIdx_append, List.filter_append, hnone, List.append_nil]
  unfold listEvents
  rw [hselected _ fun row hrow => ?_]
  have hseen : ¬ row.1.createdAt ≤ c := not_le.mpr hrow
  simp [atCutoff, hseen]

end

/-! ### Runs -/

/-- Every row a report reads is still there as it reads it, and others were inserted. -/
structure Db.Grown (db db' : Db) : Prop where
  dailyRolls : Tables.Grows (fun _ => True) (db.dailyRolls.map DailyRoll.reported)
    (db'.dailyRolls.map DailyRoll.reported)
  journals : db.Extends db'

theorem Db.Grown.refl : db.Grown db := ⟨.refl, .refl⟩

theorem Db.Grown.trans (h₁ : db.Grown db') (h₂ : db'.Grown db'') : db.Grown db'' :=
  ⟨h₁.dailyRolls.trans h₂.dailyRolls, h₁.journals.trans h₂.journals⟩

/-- Completing an appearance changes nothing that is reported. -/
theorem RollsStep.grown {draws : DailyRoll → Prop} {rolls rolls' : List DailyRoll}
    (h : RollsStep draws rolls rolls') (hunique : Tables.Unique rollKey rolls) :
    Tables.Grows (fun _ => True) (rolls.map DailyRoll.reported)
      (rolls'.map DailyRoll.reported) := by
  cases h with
  | same => exact .refl
  | created roll hdraws hnew =>
      rw [List.map_append]
      exact .one trivial
  | completed roll hroll version payload =>
      refine .of_eq (Tables.map_writeBack DailyRoll.reported fun x hx r hr hkey => ?_)
      obtain rfl := List.mem_singleton.mp hx
      obtain rfl : roll = r := hunique.eq hroll hr hkey
      rfl

theorem markSeen_frame (e : Env) (req : GroupRollMarkSeenRequest) (db : Db) :
    (markSeen e req db).dailyRolls = db.dailyRolls ∧
      (markSeen e req db).reservations = db.reservations ∧
      (markSeen e req db).participants = db.participants := by
  unfold markSeen
  dsimp only
  split <;> simp

/-- Writing none of the tables the invariants are about. -/
theorem World.Sound.put (h : w.Sound) {db : Db} (hrolls : db.dailyRolls = w.db.dailyRolls)
    (hrows : db.reservations = w.db.reservations) (hmembers : db.participants = w.db.participants) :
    ({ w with db } : World).Sound := by
  refine ⟨⟨?_, ?_, ?_⟩, ?_, ?_, ?_, ?_⟩
  · simpa [hrows] using h.db.ids
  · simpa [hmembers] using h.db.members
  · simpa [hrows, hmembers] using h.db.enrolled
  · simpa [hrows] using h.issued
  · simpa [hrolls] using h.rolls
  · simpa [hrolls] using h.versions
  · simpa [hrolls] using h.flights

theorem World.Sound.seen (h : w.Sound) (e : Env) (req : GroupRollMarkSeenRequest) :
    (w.seen e req).Sound := by
  obtain ⟨hrolls, hrows, hmembers⟩ := markSeen_frame e req w.db
  exact h.put hrolls hrows hmembers

theorem api_sound (h : Reachable api w) : w.Sound := by
  refine Reachable.invariant (fun _ hinit => hinit ▸ World.Sound.empty) ?_ h
  intro w operation w' _ hsound hstep
  cases operation with
  | transaction event => exact hsound.step hstep
  | markSeen e req =>
      obtain rfl : w' = w.seen e req := hstep
      exact hsound.seen e req

/-- One operation rewrites nothing a report reads. -/
theorem World.Sound.grown (h : w.Sound) {operation : Operation}
    (hstep : api.step w operation w') : w.db.Grown w'.db := by
  cases operation with
  | transaction event =>
      obtain ⟨-, -, -, rfl⟩ := hstep
      exact ⟨(event.action.transaction_rolls event.env w.db).grown h.rolls,
        event.action.transaction_extends event.env w.db⟩
  | markSeen e req =>
      obtain rfl : w' = w.seen e req := hstep
      refine ⟨.of_eq ?_, markSeen_extends e req w.db⟩
      rw [show (w.seen e req).db.dailyRolls = w.db.dailyRolls from (markSeen_frame e req w.db).1]

/-- **No run rewrites anything a report reads.** -/
theorem grown_of_run (h : Reachable api w) {operations : List Operation}
    (hrun : Run api w operations w') : w.db.Grown w'.db := by
  induction hrun with
  | nil => exact .refl
  | snoc hrun hstep ih => exact ih.trans ((api_sound (h.run hrun)).grown hstep)

/-- The rows inserted from one database to the other are later than the cutoff. -/
def InsertedAfter (c : Time) (db db' : Db) : Prop :=
  (∀ roll ∈ db'.dailyRolls.drop db.dailyRolls.length, c < roll.createdAt) ∧
    (∀ row ∈ db'.groupRolls.drop db.groupRolls.length, c < row.seenAt) ∧
    (∀ row ∈ db'.collections.drop db.collections.length, c < row.firstSeenAt) ∧
    (∀ row ∈ db'.userDailyFeeds.drop db.userDailyFeeds.length, c < row.createdAt) ∧
    ∀ row ∈ db'.roastEvents.drop db.roastEvents.length, c < row.createdAt

instance (c : Time) (db db' : Db) : Decidable (InsertedAfter c db db') := by
  unfold InsertedAfter
  infer_instance

theorem Db.Grown.later (h : db.Grown db') {c : Time} (hlater : InsertedAfter c db db') :
    db.Later c db' := by
  obtain ⟨hrolls, hseen, hcollections, hfeeds, hevents⟩ := hlater
  refine ⟨h.dailyRolls.drop fun roll hroll => ?_, h.journals.groupRolls.drop hseen,
    h.journals.collections.drop hcollections, h.journals.userDailyFeeds.drop hfeeds,
    h.journals.roastEvents.drop hevents⟩
  rw [List.length_map, ← List.map_drop] at hroll
  obtain ⟨stored, hstored, rfl⟩ := List.mem_map.mp hroll
  exact hrolls stored hstored

/-- **What a report says at a cutoff it says for good**: whatever is rolled, fed, completed,
seen, recorded or protected afterwards, profiles, group rolls and events at the cutoff stay
as they were. -/
theorem reports_fixed (h : Reachable api w) {operations : List Operation}
    (hrun : Run api w operations w') {c : Time} (hlater : InsertedAfter c w.db w'.db) :
    (∀ req : DailyReportProfileRequest, req.cutoffAt = c →
        getDailyReportProfiles req w'.db = getDailyReportProfiles req w.db) ∧
      (∀ groupId date, getGroupRolls groupId date (some c) w'.db =
        getGroupRolls groupId date (some c) w.db) ∧
      ∀ date groupId userId, listEvents date groupId userId (some c) w'.db =
        listEvents date groupId userId (some c) w.db := by
  have hcut := (grown_of_run h hrun).later hlater
  exact ⟨fun req hc => getDailyReportProfiles_later hcut hc, getGroupRolls_later hcut,
    listEvents_later hcut⟩

/-- A run of the service is one of the whole interface. -/
theorem api_run {events : List Event} (h : Run service w events w') :
    Run api w (events.map .transaction) w' := by
  induction h with
  | nil => exact .nil
  | snoc _ hstep ih =>
      rw [List.map_append]
      exact ih.snoc hstep

/-- After the report's cutoff user 2 completes the appearance of the day's roll, user 1
rolls in the group, and user 4 makes yesterday's roll up. -/
def lateScript : List (Time × Order) :=
  let now : Time := 739000 * dayMicros + 1
  [(now, .request (.snapshot
      { userId := "2", dateStr := 739000, pigId := "boar", resourceVersion := "v1",
        resolvedVariantLevel := 0, resolvedImageName := "boar.png",
        unlockedVariantLevels := [1], unlockedVariantFields := ["image"],
        userId_ne := by decide, pigId_ne := by decide, resourceVersion_ne := by decide,
        resolvedVariantLevel_le := by decide })),
    (now, .request (.getOrCreate
      { userId := "1", proposedPigId := "pig", dateStr := 739000, groupId := "7" })),
    (now, .request (.makeup { userId := "4", proposedPigId := "pig", dateStr := 738999 }))]

/-- The same, and user 2 is seen in the group. -/
def lateWorld : World :=
  (scriptWorld (undermannedScript ++ lateScript)).seen (scriptEnv 7 (739000 * dayMicros + 1))
    { groupId := "7", userId := "2", pigId := "boar", dateStr := 739000 }

def groupReport : DailyReportProfileRequest :=
  { dateStr := 739000, groupId := "7", cutoffAt := 739000 * dayMicros, userIds := ["1", "2", "4"] }

theorem reports_fixed_late :
    (lateWorld.db.dailyRolls.map (·.resourceVersion) = [some "v1", none, none]) ∧
      getDailyReportProfiles groupReport lateWorld.db =
        getDailyReportProfiles groupReport (scriptWorld undermannedScript).db := by
  have hplay : (play 0 {} (undermannedScript ++ lateScript)).isSome = true := by decide +kernel
  obtain ⟨start, events₀, hinit, hstart⟩ : Reachable service (scriptWorld undermannedScript) :=
    script_reachable (play_front hplay)
  obtain ⟨events, hrun⟩ := script_continue hplay
  have hreach : Reachable api (scriptWorld undermannedScript) := ⟨start, _, hinit, api_run hstart⟩
  have hlate : Run api (scriptWorld undermannedScript) (events.map .transaction ++ [.markSeen _ _])
      lateWorld := (api_run hrun).snoc rfl
  refine ⟨by decide +kernel, ?_⟩
  have hafter : InsertedAfter (739000 * dayMicros) (scriptWorld undermannedScript).db lateWorld.db := by
    decide +kernel
  exact (reports_fixed hreach hlate hafter).1 groupReport rfl

end RollPig
