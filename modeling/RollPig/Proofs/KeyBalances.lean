/-
What the keys are told to have written is what the tables hold.

Each handler counts before it commits, from what it found; here its count is held against what
its transaction does.  The rolls and the protections are followed one by one: of every roll it
is known whether it was drawn, made up and completed, and a protection that is not inherited
was granted or listed by someone.
-/
import RollPig.Proofs.Electorate
import RollPig.Proofs.KeyUsage

namespace RollPig

open Transition

variable {e : Env} {db db' : Db}

/-! ### The protections -/

/-- Deleting the row of a key takes one row away. -/
theorem length_deleteProtection (hunique : Tables.Unique protectionKey db.groupProtections)
    {row : GroupProtection} (hold : protectionKey row ∈ db.groupProtections.map protectionKey) :
    (db.deleteProtection row).groupProtections.length + 1 = db.groupProtections.length := by
  have hone : (db.groupProtections.map protectionKey).count (protectionKey row) = 1 :=
    List.count_eq_one_of_mem hunique hold
  rw [List.count, List.countP_map] at hone
  have hsplit := List.length_eq_countP_add_countP
    (fun r : GroupProtection => decide (protectionKey r = protectionKey row)) (l := db.groupProtections)
  have hgone : db.groupProtections.countP
      ((· == protectionKey row) ∘ protectionKey) = db.groupProtections.countP
        fun r => decide (protectionKey r = protectionKey row) :=
    List.countP_congr fun r _ => by simp
  have hkept : (db.deleteProtection row).groupProtections.length = db.groupProtections.countP
      fun r => !decide (protectionKey r = protectionKey row) := by
    show (db.groupProtections.filter _).length = _
    rw [← List.countP_eq_length_filter]
    exact List.countP_congr fun r _ => by simp [protectionKey]
  rw [hgone] at hone
  rw [hkept, hsplit, hone]
  simp [Nat.add_comm]

theorem length_flushProtection (row : GroupProtection) :
    (db.flushProtection row).groupProtections.length = db.groupProtections.length := by
  show (Tables.writeBack _ _ _).length = _
  simp [Tables.writeBack]

theorem syncPendingProtection_table (row : GroupProtection) (removed : Bool) :
    (syncPendingProtection e row removed db).groupProtections = db.groupProtections :=
  syncPendingProtection_writes e row removed db none .groupProtections (by decide)

/-- A user who leaves the roster takes the row along, or does not. -/
theorem length_removeFromRoster (hunique : Tables.Unique protectionKey db.groupProtections)
    (req : ReplaceGroupProtectionsRequest) {row : GroupProtection}
    (hold : protectionKey row ∈ db.groupProtections.map protectionKey) :
    (removeFromRoster e req row db).groupProtections.length +
      (keptSources row (globalProtection? db req.protectDate req.groupId row.userId)).1.isEmpty.toNat =
      db.groupProtections.length := by
  unfold removeFromRoster
  dsimp only
  by_cases hempty : (keptSources row
      (globalProtection? db req.protectDate req.groupId row.userId)).1.isEmpty = true
  · rw [if_pos hempty, hempty]
    have hsame : (syncPendingProtection e row true db).groupProtections = db.groupProtections :=
      syncPendingProtection_table row true
    have hunique' : Tables.Unique protectionKey
        (syncPendingProtection e row true db).groupProtections := hsame.symm ▸ hunique
    have hold' : protectionKey row ∈ (syncPendingProtection e row true db).groupProtections.map
        protectionKey := hsame.symm ▸ hold
    have hdeleted := length_deleteProtection hunique' hold'
    rw [hsame] at hdeleted
    exact hdeleted
  · rw [if_neg hempty, Bool.not_eq_true] at *
    rw [syncPendingProtection_table, length_flushProtection, hempty]
    rfl

/-- The first loop of a new roster and the counter it carries. -/
theorem foldl_countDeleted (req : ReplaceGroupProtectionsRequest) (rows : List GroupProtection)
    (hdistinct : (rows.map protectionKey).Nodup) (n : Nat)
    (hunique : Tables.Unique protectionKey db.groupProtections)
    (hstored : ∀ row ∈ rows, protectionKey row ∈ db.groupProtections.map protectionKey) :
    (rows.foldl (fun (counted : Nat × Db) row =>
      let legacy := globalProtection? counted.2 req.protectDate req.groupId row.userId
      (counted.1 + (keptSources row legacy).1.isEmpty.toNat, removeFromRoster e req row counted.2))
      (n, db)).1 +
      (rows.foldl (fun db row => removeFromRoster e req row db) db).groupProtections.length =
      n + db.groupProtections.length := by
  induction rows generalizing n db with
  | nil => rfl
  | cons row rest ih =>
      rw [List.map_cons, List.nodup_cons] at hdistinct
      have hold := hstored row List.mem_cons_self
      obtain ⟨kept, hkey, -, hwrite⟩ := removeFromRoster_protects (e := e) req hold
      have hrest : ∀ other ∈ rest, protectionKey other ∈
          (removeFromRoster e req row db).groupProtections.map protectionKey := by
        intro other hother
        refine (hwrite.keys ?_).mpr (hstored other (List.mem_cons_of_mem row hother))
        rw [hkey]
        exact fun hsame => hdistinct.1 (hsame ▸ List.mem_map_of_mem hother)
      have hlength := length_removeFromRoster (e := e) hunique req hold
      have hloop := ih hdistinct.2
        (n + (keptSources row
          (globalProtection? db req.protectDate req.groupId row.userId)).1.isEmpty.toNat)
        (hwrite.unique hunique) hrest
      rw [List.foldl_cons, List.foldl_cons]
      refine hloop.trans ?_
      omega

/-- **What a new roster deletes is what it counts.** -/
theorem length_removeLeavers (e : Env) (hunique : Tables.Unique protectionKey db.groupProtections)
    (req : ReplaceGroupProtectionsRequest) :
    countDeleted e req db + (removeLeavers e req db).groupProtections.length =
      db.groupProtections.length := by
  have hloop := foldl_countDeleted (e := e) req
    ((groupRows db req.groupId req.protectDate).filter fun row =>
      row.userId ∉ normalizedIds req.userIds) ((hunique.filter _).filter _) 0 hunique
    fun row hrow => List.mem_map_of_mem (List.mem_filter.mp (List.mem_filter.mp hrow).1).1
  rw [Nat.zero_add] at hloop
  exact hloop

/-- A user on the list who had no row is given one, which is inherited or new. -/
theorem length_addToRoster (req : ReplaceGroupProtectionsRequest)
    (current previous : List GroupProtection) (userId : String) :
    (addToRoster e req current previous userId db).groupProtections.length =
      db.groupProtections.length +
        (if userId ∉ current.map (·.userId) then 1 else 0) := by
  have hfound : (current.find? fun row => row.userId = userId) = none ↔
      userId ∉ current.map (·.userId) := by
    simp [List.find?_eq_none]
  unfold addToRoster
  cases hown : current.find? fun row => row.userId = userId with
  | some own =>
      have hknown : ¬ userId ∉ current.map (·.userId) := fun hnew => by
        rw [hfound.mpr hnew] at hown
        exact absurd hown (by simp)
      rw [if_neg hknown]
      simp only [Option.isSome_some, if_true]
      split_ifs
      · rfl
      · rw [syncPendingProtection_table, length_flushProtection]
        rfl
  | none =>
      rw [if_pos (hfound.mp hown)]
      -- a global row is inherited with one source, which is not the daily one
      cases hglobal : globalProtection? db req.protectDate req.groupId userId with
      | none =>
          simp only [Option.map_none, Option.isSome_none, Bool.false_eq_true, if_false]
          rw [syncPendingProtection_table]
          simp
      | some legacy =>
          have hdaily : (protectionSources (inheritGlobalProtection legacy req.groupId)
              .daily).isSome = false := rfl
          simp only [Option.map_some, hdaily, Option.isSome_none, Bool.false_eq_true, if_false]
          rw [syncPendingProtection_table]
          simp

theorem length_addMembers (req : ReplaceGroupProtectionsRequest)
    (current previous : List GroupProtection) :
    (addMembers e req current previous db).groupProtections.length =
      db.groupProtections.length +
        (normalizedIds req.userIds).countP fun userId => userId ∉ current.map (·.userId) := by
  unfold addMembers
  generalize normalizedIds req.userIds = userIds
  induction userIds generalizing db with
  | nil => rfl
  | cons userId rest ih =>
      rw [List.foldl_cons, ih, length_addToRoster, List.countP_cons]
      simp only [decide_eq_true_eq]
      omega

/-- **A new roster counts what it writes.** -/
theorem length_replaceGroup (e : Env) (hunique : Tables.Unique protectionKey db.groupProtections)
    (req : ReplaceGroupProtectionsRequest) :
    (replaceGroup e req db).groupProtections.length +
        (replaceGroupOutcome e req db).deletedRecords =
      db.groupProtections.length + (replaceGroupOutcome e req db).createdRecords := by
  have hremoved := length_removeLeavers e hunique req
  have hadded : (addMembers e req (groupRows db req.groupId req.protectDate)
      (groupRows db req.groupId (req.protectDate - 1))
      (removeLeavers e req db)).groupProtections.length = _ := length_addMembers req _ _
  unfold replaceGroup
  rw [hadded]
  show _ + countDeleted e req db = _ + List.countP _ _
  omega

theorem length_grantProtection {req : GrantProtectionRequest} {response : GrantProtectionResponse}
    (h : grantProtection e req db = some (response, db')) :
    ∃ outcome, grantOutcome e req db = some outcome ∧
      outcome.operation = "POST /v1/protections/grant" ∧ outcome.deletedRecords = 0 ∧
      db'.groupProtections.length = db.groupProtections.length + outcome.createdRecords := by
  unfold grantProtection at h
  unfold grantOutcome
  split_ifs at h with htoday
  obtain ⟨-, rfl⟩ := Prod.mk.inj (Option.some.inj h)
  rw [if_neg htoday]
  refine ⟨_, rfl, rfl, rfl, ?_⟩
  rw [syncPendingProtection_table]
  unfold storeGrant
  cases hown : db.protection? req.protectDate req.groupId req.userId with
  | some row => exact length_flushProtection _
  | none => simp

theorem grantProtection_refused {req : GrantProtectionRequest} (h : grantProtection e req db = none) :
    grantOutcome e req db = none := by
  unfold grantProtection at h
  unfold grantOutcome
  split_ifs at h with hday
  exact if_pos hday

/-! ### The rolls -/

/-- The rolls that were drawn on their day. -/
def Db.drawnRolls (db : Db) : Nat := db.dailyRolls.countP fun roll => !roll.isMakeup

/-- The rolls that were made up. -/
def Db.madeUpRolls (db : Db) : Nat := db.dailyRolls.countP (·.isMakeup)

/-- The rolls a client completed the appearance of. -/
def Db.completedRolls (db : Db) : Nat := db.dailyRolls.countP (·.resourceVersion.isSome)

/-- The three numbers of the rolls. -/
def Db.rollCounts (db : Db) : Nat × Nat × Nat := (db.drawnRolls, db.madeUpRolls, db.completedRolls)

theorem rollCounts_same (h : db'.dailyRolls = db.dailyRolls) : db'.rollCounts = db.rollCounts := by
  unfold Db.rollCounts Db.drawnRolls Db.madeUpRolls Db.completedRolls
  rw [h]

theorem rollCounts_append {roll : DailyRoll} (h : db'.dailyRolls = db.dailyRolls ++ [roll]) :
    db'.rollCounts = (db.drawnRolls + (!roll.isMakeup).toNat, db.madeUpRolls + roll.isMakeup.toNat,
      db.completedRolls + roll.resourceVersion.isSome.toNat) := by
  unfold Db.rollCounts Db.drawnRolls Db.madeUpRolls Db.completedRolls
  rw [h]
  simp only [List.countP_append, List.countP_singleton]
  cases roll.isMakeup <;> cases roll.resourceVersion.isSome <;> rfl

/-- A roll that gets its appearance is the same roll. -/
theorem rollCounts_flush (hkept : db.growth.Kept) {existing : DailyRoll}
    (hmem : existing ∈ db.dailyRolls) (hfresh : existing.resourceVersion = none)
    (version : String) (payload : Option SnapshotPayload) :
    (db.flushDailyRoll { existing with
      resourceVersion := some version
      appearanceSnapshot := some { isMakeup := existing.isMakeup, payload } }).rollCounts =
      (db.drawnRolls, db.madeUpRolls, db.completedRolls + 1) := by
  have hdaily : Tables.Unique (fun row : DailyRoll => (row.dateStr, row.userId)) db.dailyRolls := by
    have hdraws := hkept.drawsDaily
    unfold Db.growth Tables.Unique at hdraws
    rw [List.map_map] at hdraws
    exact hdraws
  obtain ⟨before, after, hold, hnew⟩ := hdaily.writeBack_split (x := { existing with
      resourceVersion := some version
      appearanceSnapshot := some { isMakeup := existing.isMakeup, payload } }) hmem rfl
  unfold Db.rollCounts Db.drawnRolls Db.madeUpRolls Db.completedRolls
  show (List.countP _ (Tables.writeBack _ _ _), List.countP _ (Tables.writeBack _ _ _),
    List.countP _ (Tables.writeBack _ _ _)) = _
  rw [hnew, hold]
  simp only [List.countP_append, List.countP_cons, hfresh, DailyRoll.isMakeup]
  simp [Nat.add_assoc]

theorem getOrCreateDailyRoll_counts (e : Env) (req : DailyRollGetOrCreateRequest) (db : Db) :
    (getOrCreateDailyRoll e req db).2.rollCounts =
      (db.drawnRolls + (getOrCreateOutcome req db).createdRecords, db.madeUpRolls,
        db.completedRolls) := by
  unfold getOrCreateDailyRoll getOrCreateOutcome
  cases hroll : db.dailyRoll? req.dateStr req.userId with
  | some existing =>
      dsimp only
      split_ifs
      · rfl
      · exact rollCounts_same (by simp)
  | none =>
      obtain ⟨progress, -, hrolls⟩ := createDailyRoll_rolls e
        { userId := req.userId, pigId := req.proposedPigId, dateStr := req.dateStr,
          createdAt := e.dbNow } db
      dsimp only
      generalize hdrawn : createDailyRoll e
        { userId := req.userId, pigId := req.proposedPigId, dateStr := req.dateStr,
          createdAt := e.dbNow } db = drawn at hrolls
      refine Eq.trans (b := drawn.2.rollCounts) (rollCounts_same (by simp)) ?_
      exact rollCounts_append hrolls

theorem makeupDailyRoll_counts {req : DailyRollGetOrCreateRequest}
    {response : DailyRollLookupResponse} (h : makeupDailyRoll e req db = some (response, db')) :
    ∃ outcome, makeupOutcome e req db = some outcome ∧
      outcome.operation = "POST /v1/daily-rolls/makeup" ∧
      db'.rollCounts = (db.drawnRolls, db.madeUpRolls + outcome.createdRecords,
        db.completedRolls) := by
  have hday : ¬ req.dateStr ≠ rollpigToday e.now - 1 := by
    intro hday
    unfold makeupDailyRoll at h
    rw [if_pos hday] at h
    exact absurd h (by simp)
  unfold makeupOutcome
  rw [if_neg hday]
  refine ⟨_, rfl, rfl, ?_⟩
  rcases makeupDailyRoll_cases h with ⟨existing, hroll, -, rfl⟩ | ⟨hroll, -, rfl⟩
  · rw [hroll]
    rfl
  · obtain ⟨progress, -, hrolls⟩ := createDailyRoll_rolls e (madeUpRoll e req) db
    rw [hroll]
    exact rollCounts_append hrolls

/-- A makeup of another day counts nothing. -/
theorem makeupDailyRoll_refused {req : DailyRollGetOrCreateRequest}
    (h : makeupDailyRoll e req db = none) : makeupOutcome e req db = none := by
  unfold makeupDailyRoll at h
  unfold makeupOutcome
  split_ifs at h with hday
  · exact if_pos hday
  · cases hroll : db.dailyRoll? req.dateStr req.userId <;> simp [hroll] at h

theorem completeDailyRollSnapshot_counts (hkept : db.growth.Kept) {req : DailyRollSnapshotRequest}
    {response : DailyRollOutcomeSnapshot}
    (h : completeDailyRollSnapshot req db = .ok (response, db')) :
    ∃ outcome, snapshotOutcome req db = some outcome ∧
      outcome.operation = "PUT /v1/daily-rolls/snapshot" ∧
      db'.rollCounts = (db.drawnRolls, db.madeUpRolls,
        db.completedRolls + outcome.updatedRecords) := by
  unfold completeDailyRollSnapshot at h
  unfold snapshotOutcome
  cases hroll : db.dailyRoll? req.dateStr req.userId with
  | none => simp [hroll] at h
  | some existing =>
      simp only [hroll] at h ⊢
      split_ifs at h with hpig hgrowth hwritten hother
      · obtain ⟨-, rfl⟩ := Prod.mk.inj (Except.ok.inj h)
        rw [if_neg hpig, if_neg hgrowth, if_pos hwritten, if_neg hother]
        exact ⟨_, rfl, rfl, rfl⟩
      · obtain ⟨-, rfl⟩ := Prod.mk.inj (Except.ok.inj h)
        rw [if_neg hpig, if_neg hgrowth, if_neg hwritten]
        refine ⟨_, rfl, rfl, ?_⟩
        have hfresh : existing.resourceVersion = none := by
          rw [Bool.not_eq_true, Bool.or_eq_false_iff] at hwritten
          simpa using hwritten.1
        exact rollCounts_flush hkept (dailyRoll?_some hroll).1 hfresh _ _

/-- An error counts nothing. -/
theorem completeDailyRollSnapshot_refused {req : DailyRollSnapshotRequest} {error : SnapshotError}
    (h : completeDailyRollSnapshot req db = .error error) : snapshotOutcome req db = none := by
  unfold completeDailyRollSnapshot at h
  unfold snapshotOutcome
  cases hroll : db.dailyRoll? req.dateStr req.userId with
  | none => rfl
  | some existing =>
      simp only [hroll] at h ⊢
      split_ifs at h with hpig hgrowth hwritten hother
      · rw [if_pos hpig]
      · rw [if_neg hpig, if_pos hgrowth]
      · rw [if_neg hpig, if_neg hgrowth, if_pos hwritten, if_pos hother]

/-! ### One transaction -/

/-- What is counted for one operation. -/
def told (operation : String) : Option MutationOutcome → UsageCounters
  | none => 0
  | some outcome => if outcome.operation = operation then outcome.counters else 0

theorem told_other {operation : String} {outcome : MutationOutcome}
    (h : outcome.operation ≠ operation) : told operation (some outcome) = 0 :=
  if_neg h

theorem told_same {operation : String} {outcome : MutationOutcome}
    (h : outcome.operation = operation) : told operation (some outcome) = outcome.counters :=
  if_pos h

/-- A transaction wrote what it counted.  Rounds write events and first appearances of their
own, and have global protections inherited, which nobody counts. -/
structure Accounted (outcome : Option MutationOutcome) (db db' : Db) : Prop where
  rolls : db'.rollCounts =
    (db.drawnRolls + (told "POST /v1/daily-rolls/get-or-create" outcome).createdRecords,
      db.madeUpRolls + (told "POST /v1/daily-rolls/makeup" outcome).createdRecords,
      db.completedRolls + (told "PUT /v1/daily-rolls/snapshot" outcome).updatedRecords)
  events : db.roastEvents.length + (told "POST /v1/events" outcome).createdRecords ≤
    db'.roastEvents.length
  appearances : db.groupRolls.length +
    (told "POST /v1/group-rolls/mark-seen" outcome).createdRecords ≤ db'.groupRolls.length
  protections : db.groupProtections.length +
    (told "POST /v1/protections/grant" outcome).createdRecords +
    (told "POST /v1/protections/replace-group" outcome).createdRecords ≤
      db'.groupProtections.length + (told "POST /v1/protections/replace-group" outcome).deletedRecords
  exact : db.Local → db.groupProtections.length +
    (told "POST /v1/protections/grant" outcome).createdRecords +
    (told "POST /v1/protections/replace-group" outcome).createdRecords =
      db'.groupProtections.length + (told "POST /v1/protections/replace-group" outcome).deletedRecords

theorem Db.Extends.lengths (h : db.Extends db') :
    db.roastEvents.length ≤ db'.roastEvents.length ∧
      db.groupRolls.length ≤ db'.groupRolls.length := by
  obtain ⟨newEvents, hevents, -⟩ := h.roastEvents
  obtain ⟨newRolls, hrolls, -⟩ := h.groupRolls
  rw [hevents, hrolls, List.length_append, List.length_append]
  omega

/-- Only who grants or lists writes protections, but for those inherited. -/
theorem ProtectionsStep.length {r : Request} (h : ProtectionsStep r db db')
    (hother : ∀ groupId, ¬ r.protects groupId) :
    db.groupProtections.length ≤ db'.groupProtections.length ∧
      (db.Local → db.groupProtections.length = db'.groupProtections.length) := by
  cases h with
  | same _ htable => rw [htable]; exact ⟨Nat.le_refl _, fun _ => rfl⟩
  | tended groupId hgroup => exact absurd hgroup (hother groupId)
  | inherited date groupId userId legacy hlegacy hnew htable =>
      rw [htable, List.length_append]
      refine ⟨by omega, fun hlocal => ?_⟩
      rw [hlocal.lookup date userId] at hlegacy
      exact absurd hlegacy (by simp)
  | settled req row _ _ _ _ htable =>
      rw [htable]
      rcases raiseSuccessCount_cases row req db with ⟨hsame, -⟩ | ⟨protection, -, -, -, -, hraised⟩
      · rw [hsame]
        exact ⟨Nat.le_refl _, fun _ => rfl⟩
      · rw [hraised]
        simp [Tables.writeBack]

/-- A transaction that counts nothing writes no roll. -/
theorem Accounted.quiet (hrolls : db'.dailyRolls = db.dailyRolls) (hextends : db.Extends db')
    (hlength : db.groupProtections.length ≤ db'.groupProtections.length ∧
      (db.Local → db.groupProtections.length = db'.groupProtections.length)) :
    Accounted none db db' where
  rolls := rollCounts_same hrolls
  events := hextends.lengths.1
  appearances := hextends.lengths.2
  protections := hlength.1
  exact := hlength.2

theorem Accounted.refl : Accounted none db db :=
  .quiet rfl .refl ⟨Nat.le_refl _, fun _ => rfl⟩

/-- A handler of the rolls writes no protection. -/
theorem Accounted.of_rolls {outcome : MutationOutcome} (hextends : db.Extends db')
    (hprotections : db'.groupProtections = db.groupProtections)
    (hoperation : outcome.operation ≠ "POST /v1/events" ∧
      outcome.operation ≠ "POST /v1/group-rolls/mark-seen" ∧
      outcome.operation ≠ "POST /v1/protections/grant" ∧
      outcome.operation ≠ "POST /v1/protections/replace-group")
    (hrolls : db'.rollCounts =
      (db.drawnRolls + (told "POST /v1/daily-rolls/get-or-create" (some outcome)).createdRecords,
        db.madeUpRolls + (told "POST /v1/daily-rolls/makeup" (some outcome)).createdRecords,
        db.completedRolls + (told "PUT /v1/daily-rolls/snapshot" (some outcome)).updatedRecords)) :
    Accounted (some outcome) db db' := by
  obtain ⟨hevents, hseen⟩ := hextends.lengths
  obtain ⟨hevent, hmark, hgrant, hroster⟩ := hoperation
  refine ⟨hrolls, ?_, ?_, ?_, fun _ => ?_⟩
  · rw [told_other hevent]
    exact hevents
  · rw [told_other hmark]
    exact hseen
  · rw [told_other hgrant, told_other hroster, hprotections]
    exact Nat.le_refl _
  · rw [told_other hgrant, told_other hroster, hprotections]
    rfl

/-- A handler of the protections writes no roll. -/
theorem Accounted.of_protections {outcome : MutationOutcome} (hextends : db.Extends db')
    (hrolls : db'.dailyRolls = db.dailyRolls)
    (hoperation : outcome.operation = "POST /v1/protections/grant" ∨
      outcome.operation = "POST /v1/protections/replace-group")
    (hdeleted : outcome.operation = "POST /v1/protections/grant" → outcome.deletedRecords = 0)
    (hlength : db.groupProtections.length + outcome.createdRecords =
      db'.groupProtections.length + outcome.deletedRecords) :
    Accounted (some outcome) db db' := by
  obtain ⟨hevents, hseen⟩ := hextends.lengths
  have hexact : db.groupProtections.length +
      (told "POST /v1/protections/grant" (some outcome)).createdRecords +
      (told "POST /v1/protections/replace-group" (some outcome)).createdRecords =
        db'.groupProtections.length +
          (told "POST /v1/protections/replace-group" (some outcome)).deletedRecords := by
    rcases hoperation with hgrant | hroster
    · have hnone := hdeleted hgrant
      simp [told, hgrant, MutationOutcome.counters, UsageCounters.zero_def]
      omega
    · simp [told, hroster, MutationOutcome.counters, UsageCounters.zero_def]
      omega
  have hquiet : told "POST /v1/daily-rolls/get-or-create" (some outcome) = 0 ∧
      told "POST /v1/daily-rolls/makeup" (some outcome) = 0 ∧
      told "PUT /v1/daily-rolls/snapshot" (some outcome) = 0 ∧
      told "POST /v1/events" (some outcome) = 0 ∧
      told "POST /v1/group-rolls/mark-seen" (some outcome) = 0 := by
    rcases hoperation with hgrant | hroster
    · simp [told, hgrant]
    · simp [told, hroster]
  obtain ⟨hdraw, hmakeup, hsnapshot, hevent, hmark⟩ := hquiet
  refine ⟨?_, ?_, ?_, Nat.le_of_eq hexact, fun _ => hexact⟩
  · rw [hdraw, hmakeup, hsnapshot]
    exact rollCounts_same hrolls
  · rw [hevent]
    exact hevents
  · rw [hmark]
    exact hseen

theorem createEvent_accounted (e : Env) (req : EventCreateRequest) (db : Db) :
    Accounted (some (createEventOutcome e req db)) db (createEvent e req db).2 := by
  have hwrites := createEvent_writes e req db
  have hextends := createEvent_extends e req db
  have hevents : db.roastEvents.length + (createEventOutcome e req db).createdRecords ≤
      (createEvent e req db).2.roastEvents.length := by
    have hrecorded : (createEvent e req db).2.roastEvents = (recordRoastEventWithStatus e
        { req with dateStr := some (req.dateStr.getD (rollpigToday e.now)) } none db).2.roastEvents := by
      unfold createEvent
      dsimp only
      split
      · exact applyDailyFeed_writes e _ req.attackerId .roast req.sourceId _ .roastEvents (by decide)
      · rfl
    rw [hrecorded]
    unfold createEventOutcome
    rcases recordRoastEventWithStatus_cases e
      { req with dateStr := some (req.dateStr.getD (rollpigToday e.now)) } none db with hnew | hold
    · simp only [hnew]
      rw [insertRoastEvent_events, List.length_append]
      exact Nat.le_refl _
    · simp only [hold]
      exact Nat.le_refl _
  have hoperation : ∀ operation, "POST /v1/events" ≠ operation →
      told operation (some (createEventOutcome e req db)) = 0 := fun operation h => told_other h
  have htable : (createEvent e req db).2.groupProtections = db.groupProtections :=
    hwrites .groupProtections (by decide)
  refine ⟨?_, ?_, ?_, ?_, fun _ => ?_⟩
  · rw [hoperation _ (by decide), hoperation _ (by decide), hoperation _ (by decide)]
    exact rollCounts_same (hwrites .dailyRolls (by decide))
  · exact hevents
  · rw [hoperation _ (by decide)]
    exact hextends.lengths.2
  · rw [hoperation _ (by decide), hoperation _ (by decide), htable]
    exact Nat.le_refl _
  · rw [hoperation _ (by decide), hoperation _ (by decide), htable]
    rfl

theorem markSeen_accounted (e : Env) (req : GroupRollMarkSeenRequest) (db : Db) :
    Accounted (some (markSeenOutcome req db)) db (markSeen e req db) := by
  have hwrites := markSeen_writes e req db
  have hrolls : db.groupRolls.length + (markSeenOutcome req db).createdRecords ≤
      (markSeen e req db).groupRolls.length := by
    unfold markSeen markSeenOutcome
    dsimp only
    rw [show (markGroupActiveUsers e req.dateStr req.groupId [req.userId] _).groupRolls = _ from
      markGroupActiveUsers_writes e _ _ _ _ .groupRolls (by decide)]
    split_ifs with hany
    · rw [hany]
      exact Nat.le_refl _
    · rw [Bool.not_eq_true] at hany
      rw [hany, List.length_append]
      exact Nat.le_refl _
  have hoperation : ∀ operation, "POST /v1/group-rolls/mark-seen" ≠ operation →
      told operation (some (markSeenOutcome req db)) = 0 := fun operation h => told_other h
  have htable : (markSeen e req db).groupProtections = db.groupProtections :=
    hwrites .groupProtections (by decide)
  refine ⟨?_, ?_, ?_, ?_, fun _ => ?_⟩
  · rw [hoperation _ (by decide), hoperation _ (by decide), hoperation _ (by decide)]
    exact rollCounts_same (hwrites .dailyRolls (by decide))
  · rw [hoperation _ (by decide)]
    exact (markSeen_extends e req db).lengths.1
  · exact hrolls
  · rw [hoperation _ (by decide), hoperation _ (by decide), htable]
    exact Nat.le_refl _
  · rw [hoperation _ (by decide), hoperation _ (by decide), htable]
    rfl

/-- **A transaction writes what it counts.** -/
theorem Request.transaction_accounted (e : Env) (view : List DailyRoll) (hsound : db.Sound)
    (hkept : db.growth.Kept) (hunique : Tables.Unique protectionKey db.groupProtections)
    (r : Request) : Accounted (r.outcome e db) db (r.transaction e view db).db := by
  have hwrites := r.transaction_writes e view db
  have hextends := r.transaction_extends e view db
  have hprotections := r.transaction_protections e view hsound hunique
  have hunwritten : Table.groupProtections ∉ r.written →
      (r.transaction e view db).db.groupProtections = db.groupProtections :=
    fun hother => hwrites .groupProtections hother
  cases r with
  | getOrCreate req =>
      have hdb : ((Request.getOrCreate req).transaction e view db).db =
          (getOrCreateDailyRoll e req db).2 := by
        simp only [Request.transaction]
        split <;> simp_all
      rw [hdb] at hextends ⊢
      refine .of_rolls hextends (getOrCreateDailyRoll_protections req) ?_
        (getOrCreateDailyRoll_counts e req db)
      simp [getOrCreateOutcome, createdOrHit]
  | makeup req =>
      cases hmade : makeupDailyRoll e req db with
      | none =>
          have hdb : ((Request.makeup req).transaction e view db).db = db := by
            simp [Request.transaction, hmade]
          rw [hdb, show (Request.makeup req).outcome e db = none from makeupDailyRoll_refused hmade]
          exact .refl
      | some made =>
          obtain ⟨response, db'⟩ := made
          have hdb : ((Request.makeup req).transaction e view db).db = db' := by
            simp [Request.transaction, hmade]
          obtain ⟨outcome, houtcome, hoperation, hcounts⟩ := makeupDailyRoll_counts hmade
          rw [hdb] at hextends ⊢
          rw [show (Request.makeup req).outcome e db = some outcome from houtcome]
          refine .of_rolls hextends (makeupDailyRoll_protections hmade) (by simp [hoperation]) ?_
          rw [hcounts, told_other (by simp [hoperation]), told_same hoperation,
            told_other (by simp [hoperation])]
          rfl
  | snapshot req =>
      cases hwritten : completeDailyRollSnapshot req db with
      | error error =>
          have hdb : ((Request.snapshot req).transaction e view db).db = db := by
            simp [Request.transaction, hwritten]
          rw [hdb, show (Request.snapshot req).outcome e db = none from
            completeDailyRollSnapshot_refused hwritten]
          exact .refl
      | ok written =>
          obtain ⟨response, db'⟩ := written
          have hdb : ((Request.snapshot req).transaction e view db).db = db' := by
            simp [Request.transaction, hwritten]
          obtain ⟨outcome, houtcome, hoperation, hcounts⟩ :=
            completeDailyRollSnapshot_counts hkept hwritten
          rw [hdb] at hextends ⊢
          rw [show (Request.snapshot req).outcome e db = some outcome from houtcome]
          refine .of_rolls hextends (completeDailyRollSnapshot_protections hwritten)
            (by simp [hoperation]) ?_
          rw [hcounts, told_other (by simp [hoperation]), told_other (by simp [hoperation]),
            told_same hoperation]
          rfl
  | createEvent req => exact createEvent_accounted e req db
  | grant req =>
      have hrolls : ((Request.grant req).transaction e view db).db.dailyRolls = db.dailyRolls :=
        hwrites .dailyRolls (by simp [Request.written])
      cases hgranted : grantProtection e req db with
      | none =>
          have hdb : ((Request.grant req).transaction e view db).db = db := by
            simp [Request.transaction, hgranted]
          rw [hdb, show (Request.grant req).outcome e db = none from grantProtection_refused hgranted]
          exact .refl
      | some granted =>
          obtain ⟨response, db'⟩ := granted
          have hdb : ((Request.grant req).transaction e view db).db = db' := by
            simp [Request.transaction, hgranted]
          obtain ⟨outcome, houtcome, hoperation, hdeleted, hlength⟩ := length_grantProtection hgranted
          rw [hdb] at hextends hrolls ⊢
          rw [show (Request.grant req).outcome e db = some outcome from houtcome]
          exact .of_protections hextends hrolls (Or.inl hoperation) (fun _ => hdeleted)
            (by rw [hdeleted, hlength]; rfl)
  | replaceGroup req =>
      refine .of_protections hextends (hwrites .dailyRolls (by simp [Request.written]))
        (Or.inr rfl) (fun h => ?_) (length_replaceGroup e hunique req).symm
      simp [replaceGroupOutcome] at h
  | _ =>
      exact .quiet (hwrites .dailyRolls (by simp [Request.written, roundTables])) hextends
        (hprotections.length fun groupId h => h)

/-! ### Steps of the cloud -/

variable {c c' : Cloud} {cloudEvent : CloudEvent}

/-- What is known of the database before a step. -/
structure Cloud.Kept (c : Cloud) : Prop where
  active : c.world.db.ActiveOnce
  sound : c.world.Sound
  growth : c.world.db.growth.Kept
  protections : Tables.Unique protectionKey c.world.db.groupProtections

theorem step_accounted (h : c.Kept) (hstep : cloud.step c cloudEvent c') :
    Accounted (cloudEvent.outcome c) c.world.db c'.world.db := by
  cases cloudEvent with
  | api operation =>
      obtain ⟨hapi, -⟩ := hstep
      cases operation with
      | transaction event =>
          obtain ⟨-, -, -, hafter⟩ := hapi
          rw [hafter]
          cases haction : event.action with
          | request r view =>
              simp only [World.after, CloudEvent.outcome, haction]
              exact r.transaction_accounted event.env view h.sound.db h.growth h.protections
          | reconcile flight =>
              simp only [World.after, CloudEvent.outcome, haction]
              have hwrites := flight.transaction_writes event.env c.world.db
              have htable := hwrites .groupProtections (by decide)
              refine .quiet (hwrites .dailyRolls (by decide))
                (Action.transaction_extends event.env c.world.db (.reconcile flight)) ?_
              exact ⟨Nat.le_of_eq (congrArg List.length htable).symm,
                fun _ => (congrArg List.length htable).symm⟩
      | markSeen e req =>
          have hseen : c'.world = c.world.seen e req := hapi
          rw [hseen]
          exact markSeen_accounted e req c.world.db
  | markActive e date groupId userIds =>
      obtain rfl : c' = c.put (RoastRefills.markActiveUsers e date groupId userIds c.store).2 :=
        hstep
      have hwrites := markGroupActiveUsers_writes e date groupId userIds c.world.db
      have htable := hwrites .groupProtections (by decide)
      refine .quiet (hwrites .dailyRolls (by decide))
        (markGroupActiveUsers_extends e date groupId userIds c.world.db) ?_
      exact ⟨Nat.le_of_eq (congrArg List.length htable).symm,
        fun _ => (congrArg List.length htable).symm⟩
  | refill e request response =>
      obtain ⟨-, rfl⟩ := hstep
      have honly : OnlyUsage c.world.db (request.transaction e c.store).2.db :=
        RefillRequest.transaction_onlyUsage h.active request
      have htable := honly.writes .groupProtections (by decide)
      refine .quiet (honly.writes .dailyRolls (by decide)) honly.extends ?_
      exact ⟨Nat.le_of_eq (congrArg List.length htable).symm,
        fun _ => (congrArg List.length htable).symm⟩

/-- The protections after a step: those of a request, or the same. -/
theorem step_protections_cloud (h : c.Kept) (hstep : cloud.step c cloudEvent c') :
    (∃ event r view, cloudEvent = .api (.transaction event) ∧ event.action = .request r view ∧
        ProtectionsStep r c.world.db c'.world.db) ∨
      c'.world.db.groupProtections = c.world.db.groupProtections := by
  cases cloudEvent with
  | api operation =>
      obtain ⟨hapi, -⟩ := hstep
      cases operation with
      | transaction event =>
          obtain ⟨-, -, -, hafter⟩ := hapi
          rw [hafter]
          cases haction : event.action with
          | request r view =>
              refine Or.inl ⟨event, r, view, rfl, haction, ?_⟩
              exact r.transaction_protections event.env view h.sound.db h.protections
          | reconcile flight =>
              exact Or.inr (flight.transaction_writes event.env c.world.db .groupProtections (by decide))
      | markSeen e req =>
          have hseen : c'.world = c.world.seen e req := hapi
          rw [hseen]
          exact Or.inr (markSeen_writes e req c.world.db .groupProtections (by decide))
  | markActive e date groupId userIds =>
      obtain rfl : c' = c.put (RoastRefills.markActiveUsers e date groupId userIds c.store).2 :=
        hstep
      exact Or.inr (markGroupActiveUsers_writes e date groupId userIds c.world.db
        .groupProtections (by decide))
  | refill e request response =>
      obtain ⟨-, rfl⟩ := hstep
      have honly : OnlyUsage c.world.db (request.transaction e c.store).2.db :=
        RefillRequest.transaction_onlyUsage h.active request
      exact Or.inr (honly.writes .groupProtections (by decide))

theorem cloud_kept {cloudEvents : List CloudEvent} (hrun : Run cloud {} cloudEvents c) : c.Kept := by
  induction hrun with
  | nil => exact ⟨(cloud_sound Run.nil).active, World.Sound.empty, (cloud_album Run.nil).1, List.nodup_nil⟩
  | snoc hrun hstep ih =>
      have hnow := hrun.snoc hstep
      refine ⟨(cloud_sound hnow).active, (cloud_registered hnow).1, (cloud_album hnow).1, ?_⟩
      rcases step_protections_cloud ih hstep with ⟨-, r, -, -, -, hprotections⟩ | hsame
      · exact hprotections.unique ih.protections
      · rw [hsame]
        exact ih.protections

/-! ### Runs -/

variable {m m' : MeteredCloud} {event : MeteredEvent} {events : List MeteredEvent}

/-- What all keys did on all days by one operation. -/
def KeyUsage.counted (keys : KeyUsage) (operation : String) : UsageCounters :=
  Metering.total usageScale (fun k => decide (k.2.2 = operation)) keys.usages

/-- The operations handlers count under. -/
def countedOperations : List String :=
  ["POST /v1/daily-rolls/get-or-create", "POST /v1/daily-rolls/makeup",
    "PUT /v1/daily-rolls/snapshot", "POST /v1/events", "POST /v1/protections/grant",
    "POST /v1/protections/replace-group", "POST /v1/group-rolls/mark-seen"]

theorem Request.outcome_operation {r : Request} {outcome : MutationOutcome}
    (h : r.outcome e db = some outcome) : outcome.operation ∈ countedOperations := by
  cases r with
  | getOrCreate req => obtain rfl := Option.some.inj h; simp [getOrCreateOutcome, createdOrHit, countedOperations]
  | makeup req =>
      simp only [Request.outcome, makeupOutcome] at h
      split_ifs at h
      obtain rfl := Option.some.inj h
      simp [createdOrHit, countedOperations]
  | snapshot req =>
      simp only [Request.outcome, snapshotOutcome] at h
      cases hroll : db.dailyRoll? req.dateStr req.userId with
      | none => simp [hroll] at h
      | some existing =>
          simp only [hroll] at h
          split_ifs at h <;> obtain rfl := Option.some.inj h <;> simp [countedOperations]
  | createEvent req => obtain rfl := Option.some.inj h; simp [createEventOutcome, createdOrHit, countedOperations]
  | grant req =>
      simp only [Request.outcome, grantOutcome] at h
      split_ifs at h
      obtain rfl := Option.some.inj h
      simp [countedOperations]
  | replaceGroup req => obtain rfl := Option.some.inj h; simp [replaceGroupOutcome, countedOperations]
  | _ => exact absurd h (by simp [Request.outcome])

/-- The names of these operations fit their column. -/
theorem CloudEvent.outcome_operation {outcome : MutationOutcome}
    (h : cloudEvent.outcome c = some outcome) :
    operationColumn outcome.operation = outcome.operation := by
  have hnamed : outcome.operation ∈ countedOperations := by
    cases cloudEvent with
    | api operation =>
        cases operation with
        | transaction event =>
            cases haction : event.action with
            | request r view =>
                simp only [CloudEvent.outcome, haction] at h
                exact Request.outcome_operation h
            | reconcile flight => simp [CloudEvent.outcome, haction] at h
        | markSeen e req =>
            obtain rfl := Option.some.inj h
            simp [markSeenOutcome, createdOrHit, countedOperations]
    | markActive => exact absurd h (by simp [CloudEvent.outcome])
    | refill => exact absurd h (by simp [CloudEvent.outcome])
  have hshort : ∀ operation ∈ countedOperations, operationColumn operation = operation := by
    decide +kernel
  exact hshort _ hnamed

/-- What an event adds to the counts of one operation. -/
def MeteredEvent.adds (event : MeteredEvent) (operation : String) : UsageCounters :=
  match event.charge? with
  | none => 0
  | some x => if x.operation = operation then x.counters else 0

theorem counted_snoc (hrun : Run meteredCloud {} events m) (hstep : meteredCloud.step m event m')
    (operation : String) :
    m'.keys.counted operation = m.keys.counted operation + event.adds operation := by
  unfold KeyUsage.counted
  rw [usages_metered hrun, usages_metered (hrun.snoc hstep), Metering.total_metered,
    Metering.total_metered]
  unfold charges MeteredEvent.adds
  rw [List.filterMap_append, Metering.total_append]
  congr 1
  cases hcharge : event.charge? with
  | none => simp [hcharge, Metering.total]
  | some x =>
      rw [List.filterMap_cons_some hcharge, List.filterMap_nil, Metering.total_single]
      show (if decide (x.operation = operation) = true then x.counters else 0) =
        if x.operation = operation then x.counters else 0
      by_cases hx : x.operation = operation <;> simp [hx]

/-- A transaction adds what it counts. -/
theorem served_adds {e : Env} {identity : ApiKeyIdentity} {outcome : Option MutationOutcome}
    (houtcome : outcome = cloudEvent.outcome c) (operation : String) :
    (MeteredEvent.served e identity cloudEvent outcome).adds operation = told operation outcome := by
  cases outcome with
  | none => rfl
  | some outcome =>
      have hcolumn := CloudEvent.outcome_operation houtcome.symm
      simp only [MeteredEvent.adds, MeteredEvent.charge?, Option.map_some, usageValues, hcolumn, told]

/-- The middleware counts no records. -/
theorem tracked_adds (e : Env) (identity : ApiKeyIdentity) (method path : String) (statusCode : Nat)
    (operation : String) :
    ((MeteredEvent.tracked e identity method path statusCode).adds operation).createdRecords = 0 ∧
      ((MeteredEvent.tracked e identity method path statusCode).adds operation).updatedRecords = 0 ∧
      ((MeteredEvent.tracked e identity method path statusCode).adds operation).deletedRecords = 0 := by
  simp only [MeteredEvent.adds, MeteredEvent.charge?]
  split_ifs <;> exact ⟨rfl, rfl, rfl⟩

/-- What the keys are told to have written is there. -/
structure Balanced (m : MeteredCloud) : Prop where
  rolls : m.cloud.world.db.rollCounts =
    ((m.keys.counted "POST /v1/daily-rolls/get-or-create").createdRecords,
      (m.keys.counted "POST /v1/daily-rolls/makeup").createdRecords,
      (m.keys.counted "PUT /v1/daily-rolls/snapshot").updatedRecords)
  events : (m.keys.counted "POST /v1/events").createdRecords ≤ m.cloud.world.db.roastEvents.length
  appearances : (m.keys.counted "POST /v1/group-rolls/mark-seen").createdRecords ≤
    m.cloud.world.db.groupRolls.length
  protections : (m.keys.counted "POST /v1/protections/grant").createdRecords +
    (m.keys.counted "POST /v1/protections/replace-group").createdRecords ≤
      m.cloud.world.db.groupProtections.length +
        (m.keys.counted "POST /v1/protections/replace-group").deletedRecords

/-- Without global protections, every protection was granted or listed. -/
def Settled (m : MeteredCloud) : Prop :=
  m.cloud.world.db.Local ∧ (m.keys.counted "POST /v1/protections/grant").createdRecords +
    (m.keys.counted "POST /v1/protections/replace-group").createdRecords =
      m.cloud.world.db.groupProtections.length +
        (m.keys.counted "POST /v1/protections/replace-group").deletedRecords

/-- The event replaces no roster of all groups at once. -/
def MeteredEvent.NamesGroups : MeteredEvent → Prop
  | .served _ _ (.api (.transaction event)) _ => event.NamesGroups
  | _ => True

/-- The cloud of a metered run has a run of its own. -/
theorem metered_cloud (hrun : Run meteredCloud {} events m) :
    ∃ cloudEvents, Run cloud {} cloudEvents m.cloud := by
  induction hrun with
  | nil => exact ⟨[], Run.nil⟩
  | @snoc t u before event hrun hstep ih =>
      obtain ⟨cloudEvents, hcloud⟩ := ih
      cases event with
      | served e identity cloudEvent outcome => exact ⟨_, hcloud.snoc hstep.1⟩
      | tracked e identity method path statusCode =>
          have hsame : u = _ := hstep
          rw [hsame]
          exact ⟨cloudEvents, hcloud⟩

theorem balanced_step (hrun : Run meteredCloud {} events m) (h : Balanced m)
    (hstep : meteredCloud.step m event m') : Balanced m' := by
  have hcounted := counted_snoc hrun hstep
  cases event with
  | served e identity cloudEvent outcome =>
      obtain ⟨cloudEvents, hcloud⟩ := metered_cloud hrun
      obtain ⟨hserved, houtcome, -⟩ := hstep
      have haccounted := step_accounted (cloud_kept hcloud) hserved
      rw [← houtcome] at haccounted
      have hadds : ∀ operation, m'.keys.counted operation =
          m.keys.counted operation + told operation outcome := fun operation =>
        (hcounted operation).trans (by rw [served_adds houtcome])
      obtain ⟨hdrawn, hmadeUp, hcompleted⟩ := Prod.mk.inj h.rolls |>.imp_right Prod.mk.inj
      refine ⟨?_, ?_, ?_, ?_⟩
      · rw [haccounted.rolls, hdrawn, hmadeUp, hcompleted, hadds, hadds, hadds]
        rfl
      · rw [hadds]
        exact Nat.le_trans (Nat.add_le_add_right h.events _) haccounted.events
      · rw [hadds]
        exact Nat.le_trans (Nat.add_le_add_right h.appearances _) haccounted.appearances
      · rw [hadds, hadds]
        simp only [UsageCounters.add_def]
        have hbefore := h.protections
        have hstep := haccounted.protections
        omega
  | tracked e identity method path statusCode =>
      have hsame : m'.cloud = m.cloud := by
        have hafter : m' = _ := hstep
        rw [hafter]
      have hadds : ∀ operation,
          (m'.keys.counted operation).createdRecords = (m.keys.counted operation).createdRecords ∧
          (m'.keys.counted operation).updatedRecords = (m.keys.counted operation).updatedRecords ∧
          (m'.keys.counted operation).deletedRecords = (m.keys.counted operation).deletedRecords := by
        intro operation
        obtain ⟨hcreated, hupdated, hdeleted⟩ := tracked_adds e identity method path statusCode operation
        rw [hcounted, UsageCounters.add_def]
        exact ⟨by rw [hcreated]; rfl, by rw [hupdated]; rfl, by rw [hdeleted]; rfl⟩
      refine ⟨?_, ?_, ?_, ?_⟩
      · rw [hsame, (hadds _).1, (hadds _).1, (hadds _).2.1]
        exact h.rolls
      · rw [hsame, (hadds _).1]
        exact h.events
      · rw [hsame, (hadds _).1]
        exact h.appearances
      · rw [hsame, (hadds _).1, (hadds _).1, (hadds _).2.2]
        exact h.protections

theorem settled_step (hrun : Run meteredCloud {} events m) (h : Settled m)
    (hnames : event.NamesGroups) (hstep : meteredCloud.step m event m') : Settled m' := by
  have hcounted := counted_snoc hrun hstep
  obtain ⟨hlocal, hexact⟩ := h
  cases event with
  | served e identity cloudEvent outcome =>
      obtain ⟨cloudEvents, hcloud⟩ := metered_cloud hrun
      have hkept := cloud_kept hcloud
      obtain ⟨hserved, houtcome, -⟩ := hstep
      refine ⟨?_, ?_⟩
      · rcases step_protections_cloud hkept hserved with
          ⟨event, r, view, rfl, haction, hprotections⟩ | hsame
        · exact hlocal.step hprotections fun groupId hgroup => Event.NamesGroups.protects hnames haction hgroup
        · unfold Db.Local
          rw [hsame]
          exact hlocal
      · have hwritten := (step_accounted hkept hserved).exact hlocal
        rw [← houtcome] at hwritten
        rw [hcounted, hcounted, served_adds houtcome, served_adds houtcome]
        simp only [UsageCounters.add_def]
        omega
  | tracked e identity method path statusCode =>
      have hafter : m' = _ := hstep
      have hsame : m'.cloud = m.cloud := by rw [hafter]
      have hnothing := tracked_adds e identity method path statusCode
      unfold Settled
      rw [hsame, hcounted, hcounted]
      simp only [UsageCounters.add_def, (hnothing _).1, (hnothing _).2.2, Nat.add_zero]
      exact ⟨hlocal, hexact⟩

/-- **What the keys are told to have written is what the tables hold.**  In every run, over all
keys and days: as many rolls were counted as drawn, as made up and as completed as there are; no
event and no first appearance was counted that is not there; the protections counted as granted
and listed are there or were counted as deleted, and where no roster of all groups was replaced
these are all protections there are. -/
theorem usage_balances (hrun : Run meteredCloud {} events m) :
    Balanced m ∧ ((∀ event ∈ events, event.NamesGroups) →
      (m.keys.counted "POST /v1/protections/grant").createdRecords +
        (m.keys.counted "POST /v1/protections/replace-group").createdRecords =
          m.cloud.world.db.groupProtections.length +
            (m.keys.counted "POST /v1/protections/replace-group").deletedRecords) := by
  have hboth : Balanced m ∧ ((∀ event ∈ events, event.NamesGroups) → Settled m) := by
    induction hrun with
    | nil =>
        refine ⟨⟨rfl, Nat.le_refl 0, Nat.le_refl 0, Nat.le_refl 0⟩, fun _ => ⟨?_, rfl⟩⟩
        exact fun row hrow => absurd hrow List.not_mem_nil
    | @snoc t u before event hrun hstep ih =>
        refine ⟨balanced_step hrun ih.1 hstep, fun hnames => ?_⟩
        refine settled_step hrun (ih.2 fun other hother => hnames other ?_) (hnames event ?_) hstep
        · exact List.mem_append_left _ hother
        · exact List.mem_append_right _ (List.mem_singleton_self event)
  exact ⟨hboth.1, fun hnames => (hboth.2 hnames).2⟩

/-- Every run of the cloud may be served under one key. -/
theorem cloud_metered {cloudEvents : List CloudEvent} (hrun : Run cloud {} cloudEvents c)
    (e : Env) (identity : ApiKeyIdentity) :
    ∃ events m, Run meteredCloud {} events m ∧ m.cloud = c := by
  induction hrun with
  | nil => exact ⟨[], {}, Run.nil, rfl⟩
  | @snoc t u before cloudEvent hrun hstep ih =>
      obtain ⟨events, m, hmetered, rfl⟩ := ih
      have hserved : meteredCloud.step m (.served e identity cloudEvent (cloudEvent.outcome m.cloud))
          { cloud := u, keys := m.keys.after e identity (cloudEvent.outcome m.cloud) } :=
        ⟨hstep, rfl, rfl⟩
      exact ⟨_, _, hmetered.snoc hserved, rfl⟩

/-- The two boars of user 1 are two rolls that some key created. -/
theorem usage_balances_boars :
    ∃ events m, Run meteredCloud {} events m ∧ m.cloud.world = scriptWorld growthScript ∧
      (m.keys.counted "POST /v1/daily-rolls/get-or-create").createdRecords +
        (m.keys.counted "POST /v1/daily-rolls/makeup").createdRecords = 2 := by
  have hservice := service_cloud (script_run
    (show (play 0 {} growthScript).isSome = true by decide +kernel))
  obtain ⟨events, m, hrun, hcloud⟩ := cloud_metered hservice (scriptEnv 0 0) ⟨"key-0", "bot"⟩
  have hworld : m.cloud.world = scriptWorld growthScript := congrArg Cloud.world hcloud
  obtain ⟨hbalanced, -⟩ := usage_balances hrun
  refine ⟨events, m, hrun, hworld, ?_⟩
  have hrolls := hbalanced.rolls
  rw [hworld] at hrolls
  have hcounts : (scriptWorld growthScript).db.rollCounts.1 +
      (scriptWorld growthScript).db.rollCounts.2.1 = 2 := by decide +kernel
  rw [hrolls] at hcounts
  exact hcounts

end RollPig
