/-
The protection table after a new roster.

The loops of `replace_group` write one user's row at a time, from the rows of the start and
the global row of the user, which the loops leave alone.  So the table afterwards is given
user by user (`replaceGroup_lookup`): `rosterRow` is the row of a user in the group on the
date, and everything else is as it was.
-/
import RollPig.Proofs.Levels

namespace RollPig

variable {e : Env} {db db' : Db} {req : ReplaceGroupProtectionsRequest} {row : GroupProtection}
  {userId : String}

/-! ### The row of one user -/

/-- The row of a user off the roster, if a source is left. -/
def keptRow (row : GroupProtection) (legacy : Option GroupProtection) : Option GroupProtection :=
  let (sources, baselines) := keptSources row legacy
  if sources.isEmpty then none
  else some { row with
    sourceLevels := some sources
    sourceBaselines := some (baselines.restrict sources)
    baseLevel := sources.highest
    consecutiveDays := 0 }

/-- The row of a user on the roster, from the own or inherited one and that of yesterday. -/
def listedRow (req : ReplaceGroupProtectionsRequest) (yesterday : Option GroupProtection)
    (userId : String) (row : Option GroupProtection) : GroupProtection :=
  match row with
  | none => dailyRow req yesterday userId none
  | some row =>
      if (protectionSources row .daily).isSome then row
      else dailyRow req yesterday userId (some row)

/-- The own row of a user, else the copy of the global one. -/
def startingRow (req : ReplaceGroupProtectionsRequest) (db : Db) (userId : String) :
    Option GroupProtection :=
  match db.protection? req.protectDate req.groupId userId with
  | some row => some row
  | none => (globalProtection? db req.protectDate req.groupId userId).map
      (inheritGlobalProtection · req.groupId)

/-- The row a user has in the group on the date once the roster was replaced. -/
def rosterRow (req : ReplaceGroupProtectionsRequest) (db : Db) (userId : String) :
    Option GroupProtection :=
  if userId ∈ normalizedIds req.userIds then
    some (listedRow req (db.protection? (req.protectDate - 1) req.groupId userId) userId
      (startingRow req db userId))
  else
    (db.protection? req.protectDate req.groupId userId).bind fun row =>
      keptRow row (globalProtection? db req.protectDate req.groupId userId)

/-- The rows the loops leave alone decide what is inherited. -/
theorem globalProtection?_congr
    (h : ∀ k : Date × String × String, k.2.1 ≠ req.groupId →
      Tables.lookup protectionKey db'.groupProtections k =
        Tables.lookup protectionKey db.groupProtections k) :
    globalProtection? db' req.protectDate req.groupId userId =
      globalProtection? db req.protectDate req.groupId userId := by
  unfold globalProtection?
  split_ifs with hgroup
  · rw [protection?_eq_lookup, protection?_eq_lookup]
    exact h _ (Ne.symm hgroup)
  · rfl

/-! ### The two writes -/

theorem keptRow_frame {legacy : Option GroupProtection} {kept : GroupProtection}
    (h : keptRow row legacy = some kept) :
    protectionKey kept = protectionKey row ∧ kept.roastSuccessCount = row.roastSuccessCount := by
  unfold keptRow at h
  dsimp only at h
  split_ifs at h
  obtain rfl := Option.some.inj h
  exact ⟨rfl, rfl⟩

theorem removeFromRoster_eq (e : Env) (req : ReplaceGroupProtectionsRequest)
    (row : GroupProtection) (db : Db) :
    removeFromRoster e req row db =
      match keptRow row (globalProtection? db req.protectDate req.groupId row.userId) with
      | none => (syncPendingProtection e row true db).deleteProtection row
      | some kept => syncPendingProtection e kept false (db.flushProtection kept) := by
  unfold removeFromRoster keptRow
  dsimp only
  split_ifs <;> rfl

theorem removeFromRoster_lookup (e : Env) (req : ReplaceGroupProtectionsRequest)
    (hrow : protectionKey row ∈ db.groupProtections.map protectionKey)
    (k : Date × String × String) :
    Tables.lookup protectionKey (removeFromRoster e req row db).groupProtections k =
      if k = protectionKey row then
        keptRow row (globalProtection? db req.protectDate req.groupId row.userId)
      else Tables.lookup protectionKey db.groupProtections k := by
  rw [removeFromRoster_eq]
  cases hkept : keptRow row (globalProtection? db req.protectDate req.groupId row.userId) with
  | none => exact Tables.lookup_delete db.groupProtections (protectionKey row) k
  | some kept =>
      obtain ⟨hkey, -⟩ := keptRow_frame hkept
      rw [← hkey] at hrow ⊢
      exact Tables.lookup_writeBack hrow k

theorem addToRoster_lookup (e : Env) (req : ReplaceGroupProtectionsRequest)
    (current previous : List GroupProtection) (userId : String) (db : Db)
    (hcurrent : current.find? (·.userId = userId) =
      db.protection? req.protectDate req.groupId userId)
    (k : Date × String × String) :
    Tables.lookup protectionKey
        (addToRoster e req current previous userId db).groupProtections k =
      if k = (req.protectDate, req.groupId, userId) then
        some (listedRow req (previous.find? (·.userId = userId)) userId (startingRow req db userId))
      else Tables.lookup protectionKey db.groupProtections k := by
  unfold addToRoster startingRow
  rw [hcurrent, protection?_eq_lookup]
  cases hown : Tables.lookup protectionKey db.groupProtections
      (req.protectDate, req.groupId, userId) with
  | some own =>
      obtain ⟨hmem, hkey⟩ := Tables.lookup_some hown
      simp only [Option.isSome_some, if_true]
      unfold listedRow
      dsimp only
      by_cases hdaily : (protectionSources own .daily).isSome = true
      · rw [if_pos hdaily, if_pos hdaily]
        by_cases hk : k = (req.protectDate, req.groupId, userId)
        · rw [if_pos hk, hk, hown]
        · rw [if_neg hk]
      · rw [if_neg hdaily, if_neg hdaily]
        have hwritten : protectionKey (dailyRow req (previous.find? fun row => row.userId = userId)
            userId (some own)) = (req.protectDate, req.groupId, userId) :=
          (dailyRow_frame req _ userId (some own)).1.trans hkey
        rw [← hwritten]
        refine Tables.lookup_writeBack ?_ k
        rw [hwritten, ← hkey]
        exact List.mem_map_of_mem hmem
  | none =>
      have hfree := Tables.lookup_none.mp hown
      simp only [Option.isSome_none, Bool.false_eq_true, if_false]
      cases hglobal : globalProtection? db req.protectDate req.groupId userId with
      | none =>
          simp only [Option.map_none, Bool.false_eq_true, if_false]
          exact Tables.lookup_insert hfree k
      | some legacy =>
          have hdaily : (protectionSources (inheritGlobalProtection legacy req.groupId)
              .daily).isSome = false := rfl
          simp only [Option.map_some, hdaily, Bool.false_eq_true, if_false, listedRow]
          have hlegacy : db.protection? req.protectDate allGroups userId = some legacy := by
            unfold globalProtection? at hglobal
            split_ifs at hglobal
            exact hglobal
          have hwritten : protectionKey (dailyRow req
              (previous.find? fun row => row.userId = userId) userId
                (some (inheritGlobalProtection legacy req.groupId))) =
                (req.protectDate, req.groupId, userId) :=
            (dailyRow_frame req _ userId (some _)).1.trans (inheritGlobalProtection_key hlegacy _)
          rw [← hwritten]
          exact Tables.lookup_insert (by rw [hwritten]; exact hfree) k

/-! ### The loops -/

/-- A group's rows on a date hold the row of each of its users. -/
theorem groupRows_find? (db : Db) (groupId : String) (date : Date) (userId : String) :
    (groupRows db groupId date).find? (·.userId = userId) = db.protection? date groupId userId := by
  unfold groupRows Db.protection?
  rw [List.find?_filter]
  congr 1
  funext row
  by_cases huser : row.userId = userId <;> by_cases hgroup : row.groupId = groupId <;>
    by_cases hdate : row.protectDate = date <;> simp [huser, hgroup, hdate]

theorem mem_groupRows {groupId : String} {date : Date} :
    row ∈ groupRows db groupId date ↔
      row ∈ db.groupProtections ∧ row.groupId = groupId ∧ row.protectDate = date := by
  simp [groupRows]

theorem removeLeavers_lookup (e : Env) (req : ReplaceGroupProtectionsRequest)
    (hunique : Tables.Unique protectionKey db.groupProtections) :
    (∀ row ∈ groupRows db req.groupId req.protectDate, row.userId ∉ normalizedIds req.userIds →
      Tables.lookup protectionKey (removeLeavers e req db).groupProtections (protectionKey row) =
        keptRow row (globalProtection? db req.protectDate req.groupId row.userId)) ∧
      ∀ k, (∀ row ∈ groupRows db req.groupId req.protectDate,
          row.userId ∉ normalizedIds req.userIds → protectionKey row ≠ k) →
        Tables.lookup protectionKey (removeLeavers e req db).groupProtections k =
          Tables.lookup protectionKey db.groupProtections k := by
  have hleaver : ∀ row, row ∈ (groupRows db req.groupId req.protectDate).filter (fun row =>
      decide (row.userId ∉ normalizedIds req.userIds)) ↔
        row ∈ groupRows db req.groupId req.protectDate ∧
          row.userId ∉ normalizedIds req.userIds := by
    intro row
    simp
  have hloop := Tables.foldl_pointwise
    (fun (db : Db) k => Tables.lookup protectionKey db.groupProtections k) protectionKey
    (fun db row => removeFromRoster e req row db)
    (fun row => keptRow row (globalProtection? db req.protectDate req.groupId row.userId)) db
    ((groupRows db req.groupId req.protectDate).filter fun row =>
      row.userId ∉ normalizedIds req.userIds)
    ((hunique.filter _).filter _) ?_
  · obtain ⟨hvalues, hothers⟩ := hloop
    refine ⟨fun row hrow hleaves => hvalues row ((hleaver row).mpr ⟨hrow, hleaves⟩),
      fun k hk => hothers k fun hmem => ?_⟩
    obtain ⟨row, hrow, hkey⟩ := List.mem_map.mp hmem
    obtain ⟨hgroup, hleaves⟩ := (hleaver row).mp hrow
    exact hk row hgroup hleaves hkey
  · intro s row hrow hfresh hsame
    obtain ⟨hgroup, -⟩ := (hleaver row).mp hrow
    obtain ⟨hmem, hgroupId, -⟩ := mem_groupRows.mp hgroup
    have hstored : protectionKey row ∈ s.groupProtections.map protectionKey := by
      by_contra hfree
      rw [Tables.lookup_none.mpr hfree, hunique.lookup hmem] at hfresh
      exact absurd hfresh (by simp)
    have hglobal : globalProtection? s req.protectDate req.groupId row.userId =
        globalProtection? db req.protectDate req.groupId row.userId := by
      refine globalProtection?_congr fun k hk => hsame k fun hmem => ?_
      obtain ⟨other, hother, hkey⟩ := List.mem_map.mp hmem
      have hin := (mem_groupRows.mp ((hleaver other).mp hother).1).2.1
      exact hk (hkey ▸ hin)
    have hwrite := removeFromRoster_lookup e req hstored
    refine ⟨?_, fun k hk => ?_⟩
    · rw [hwrite, if_pos rfl, hglobal]
    · rw [hwrite, if_neg hk]

/-! The removals leave the users on the list and the other groups alone. -/

theorem removeLeavers_listed (e : Env) (req : ReplaceGroupProtectionsRequest)
    (hunique : Tables.Unique protectionKey db.groupProtections) {userId : String}
    (huser : userId ∈ normalizedIds req.userIds) :
    Tables.lookup protectionKey (removeLeavers e req db).groupProtections
        (req.protectDate, req.groupId, userId) =
      Tables.lookup protectionKey db.groupProtections (req.protectDate, req.groupId, userId) := by
  refine (removeLeavers_lookup e req hunique).2 _ fun row _ hleaves hkey => hleaves ?_
  have hsame : row.userId = userId := congrArg (·.2.2) hkey
  rw [hsame]
  exact huser

theorem removeLeavers_outside (e : Env) (req : ReplaceGroupProtectionsRequest)
    (hunique : Tables.Unique protectionKey db.groupProtections) {k : Date × String × String}
    (hk : ¬ (k.1 = req.protectDate ∧ k.2.1 = req.groupId)) :
    Tables.lookup protectionKey (removeLeavers e req db).groupProtections k =
      Tables.lookup protectionKey db.groupProtections k := by
  refine (removeLeavers_lookup e req hunique).2 k fun row hrow _ hkey => hk ?_
  obtain ⟨-, hgroup, hdate⟩ := mem_groupRows.mp hrow
  exact ⟨(congrArg (·.1) hkey).symm.trans hdate, (congrArg (·.2.1) hkey).symm.trans hgroup⟩

/-- Who is not on the list keeps what the removal leaves. -/
theorem removeLeavers_unlisted (e : Env) (req : ReplaceGroupProtectionsRequest)
    (hunique : Tables.Unique protectionKey db.groupProtections) {userId : String}
    (huser : userId ∉ normalizedIds req.userIds) :
    Tables.lookup protectionKey (removeLeavers e req db).groupProtections
        (req.protectDate, req.groupId, userId) = rosterRow req db userId := by
  obtain ⟨hleft, hstayed⟩ := removeLeavers_lookup e req hunique
  unfold rosterRow
  rw [if_neg huser, protection?_eq_lookup]
  cases hown : Tables.lookup protectionKey db.groupProtections
      (req.protectDate, req.groupId, userId) with
  | none =>
      rw [hstayed _ fun row hrow _ hkey => ?_, hown]
      · rfl
      · rw [← hkey, hunique.lookup (mem_groupRows.mp hrow).1] at hown
        exact absurd hown (by simp)
  | some row =>
      obtain ⟨hmem, hkey⟩ := Tables.lookup_some hown
      simp only [protectionKey, Prod.mk.injEq] at hkey
      obtain ⟨hdate, hgroup, rfl⟩ := hkey
      have hvalue := hleft row (mem_groupRows.mpr ⟨hmem, hgroup, hdate⟩) huser
      simp only [protectionKey, hdate, hgroup] at hvalue
      exact hvalue

/-- The second loop gives every user on the list the row of the roster. -/
theorem addListed_lookup (e : Env) (req : ReplaceGroupProtectionsRequest)
    (hunique : Tables.Unique protectionKey db.groupProtections) :
    (∀ userId ∈ normalizedIds req.userIds,
      Tables.lookup protectionKey (replaceGroup e req db).groupProtections
        (req.protectDate, req.groupId, userId) = rosterRow req db userId) ∧
      ∀ k, k ∉ ((normalizedIds req.userIds).map fun userId =>
          (req.protectDate, req.groupId, userId)) →
        Tables.lookup protectionKey (replaceGroup e req db).groupProtections k =
          Tables.lookup protectionKey (removeLeavers e req db).groupProtections k := by
  have hdistinct : ((normalizedIds req.userIds).map fun userId =>
      (req.protectDate, req.groupId, userId)).Nodup :=
    (normalizedIds_nodup _).map fun _ _ hsame => (Prod.mk.inj (Prod.mk.inj hsame).2).2
  refine Tables.foldl_pointwise
    (fun (db : Db) k => Tables.lookup protectionKey db.groupProtections k)
    (fun userId => (req.protectDate, req.groupId, userId))
    (fun s userId => addToRoster e req (groupRows db req.groupId req.protectDate)
      (groupRows db req.groupId (req.protectDate - 1)) userId s)
    (fun userId => rosterRow req db userId) (removeLeavers e req db) _ hdistinct ?_
  intro s userId huser hfresh hsame
  have hown : s.protection? req.protectDate req.groupId userId =
      db.protection? req.protectDate req.groupId userId := by
    rw [protection?_eq_lookup, protection?_eq_lookup]
    exact hfresh.trans (removeLeavers_listed e req hunique huser)
  have hglobal : globalProtection? s req.protectDate req.groupId userId =
      globalProtection? db req.protectDate req.groupId userId := by
    refine globalProtection?_congr fun k hk => (hsame k fun hmem => ?_).trans
      (removeLeavers_outside e req hunique fun hboth => hk hboth.2)
    obtain ⟨other, -, hkey⟩ := List.mem_map.mp hmem
    exact hk (hkey ▸ rfl)
  have hwrite := addToRoster_lookup e req (groupRows db req.groupId req.protectDate)
    (groupRows db req.groupId (req.protectDate - 1)) userId s
    ((groupRows_find? db _ _ _).trans hown.symm)
  refine ⟨?_, fun k hk => ?_⟩
  · rw [hwrite, if_pos rfl, groupRows_find?]
    unfold rosterRow startingRow
    rw [if_pos huser, hown, hglobal]
  · rw [hwrite, if_neg hk]

/-- **The table after a new roster**: in the group on the date every user has the row of
`rosterRow`, and every other row is as it was. -/
theorem replaceGroup_lookup (e : Env) (req : ReplaceGroupProtectionsRequest)
    (hunique : Tables.Unique protectionKey db.groupProtections) (k : Date × String × String) :
    Tables.lookup protectionKey (replaceGroup e req db).groupProtections k =
      if k.1 = req.protectDate ∧ k.2.1 = req.groupId then rosterRow req db k.2.2
      else Tables.lookup protectionKey db.groupProtections k := by
  obtain ⟨hadded, hrest⟩ := addListed_lookup e req hunique
  by_cases hk : k.1 = req.protectDate ∧ k.2.1 = req.groupId
  · obtain ⟨date, groupId, userId⟩ := k
    obtain ⟨rfl, rfl⟩ := hk
    rw [if_pos ⟨rfl, rfl⟩]
    by_cases huser : userId ∈ normalizedIds req.userIds
    · exact hadded userId huser
    · refine (hrest _ fun hmem => huser ?_).trans (removeLeavers_unlisted e req hunique huser)
      obtain ⟨other, hother, hsame⟩ := List.mem_map.mp hmem
      exact (Prod.mk.inj (Prod.mk.inj hsame).2).2 ▸ hother
  · rw [if_neg hk]
    refine (hrest k fun hmem => hk ?_).trans (removeLeavers_outside e req hunique hk)
    obtain ⟨other, -, rfl⟩ := List.mem_map.mp hmem
    exact ⟨rfl, rfl⟩

/-! ### What the rows stand for -/

/-- The level a new daily source gets: the roster's first level, and one more for each day
before in a row. -/
def dailyLevel (req : ReplaceGroupProtectionsRequest) (yesterday : Option GroupProtection) : Nat :=
  let previousDays := match yesterday with
    | some row => row.consecutiveDays
    | none => 0
  min 5 (req.initialLevel + (if previousDays ≠ 0 then previousDays + 1 else 1) - 1)

/-- The days in a row yesterday's row hands on. -/
def previousDays (yesterday : Option GroupProtection) : Nat :=
  match yesterday with
  | some row => row.consecutiveDays
  | none => 0

theorem dailyLevel_eq (req : ReplaceGroupProtectionsRequest) (yesterday : Option GroupProtection) :
    dailyLevel req yesterday = min 5 (req.initialLevel + previousDays yesterday) := by
  show min 5 (req.initialLevel +
    (if previousDays yesterday ≠ 0 then previousDays yesterday + 1 else 1) - 1) = _
  split_ifs <;> omega

theorem isHistoricalDailyProtection_iff :
    isHistoricalDailyProtection row = true ↔
      (protectionSources row .legacy).isSome = true ∧ protectionSources row .daily = none ∧
        0 < row.consecutiveDays := by
  simp [isHistoricalDailyProtection, and_assoc]

/-- A row from before sources were recorded turns its legacy source into the daily one. -/
theorem dailyRow_historical (req : ReplaceGroupProtectionsRequest)
    (yesterday : Option GroupProtection) (userId : String)
    (hhistorical : isHistoricalDailyProtection row = true) (source : Source) :
    standing (dailyRow req yesterday userId (some row)) source =
      if source = .daily then standing row .legacy
      else if source = .legacy then none else standing row source := by
  obtain ⟨hlegacy, -, -⟩ := isHistoricalDailyProtection_iff.mp hhistorical
  obtain ⟨level, hlevel⟩ := Option.isSome_iff_exists.mp hlegacy
  have hrow : dailyRow req yesterday userId (some row) = { row with
      sourceLevels := some (((protectionSources row).pop .legacy).set .daily level)
      sourceBaselines := some (((protectionBaselines row).pop .legacy).set .daily
        ((protectionBaselines row .legacy).getD 0))
      baseLevel := (((protectionSources row).pop .legacy).set .daily level).highest } := by
    simp [dailyRow, hhistorical, hlevel]
  have hstanding : standing row .legacy =
      some (level, (protectionBaselines row .legacy).getD 0) := by
    unfold standing
    rw [hlevel]
    rfl
  rw [hrow, hstanding]
  unfold standing
  cases source <;> rfl

/-- Else the daily source is a new one. -/
theorem dailyRow_fresh (req : ReplaceGroupProtectionsRequest)
    (yesterday : Option GroupProtection) (userId : String)
    (hfresh : ¬ isHistoricalDailyProtection row = true) (source : Source) :
    standing (dailyRow req yesterday userId (some row)) source =
      if source = .daily then some (dailyLevel req yesterday, row.roastSuccessCount)
      else standing row source := by
  simp only [Bool.not_eq_true] at hfresh
  have hrow : dailyRow req yesterday userId (some row) = { row with
      sourceLevels := some ((protectionSources row).set .daily (dailyLevel req yesterday))
      sourceBaselines := some ((protectionBaselines row).set .daily row.roastSuccessCount)
      baseLevel := ((protectionSources row).set .daily (dailyLevel req yesterday)).highest
      consecutiveDays := (dailyRow req yesterday userId (some row)).consecutiveDays } := by
    cases yesterday <;> simp [dailyRow, hfresh, dailyLevel]
  rw [hrow]
  unfold standing
  cases source <;> rfl

theorem dailyRow_new (req : ReplaceGroupProtectionsRequest) (yesterday : Option GroupProtection)
    (userId : String) (source : Source) :
    standing (dailyRow req yesterday userId none) source =
      if source = .daily then some (dailyLevel req yesterday, 0) else none := by
  unfold standing dailyRow
  cases source <;> rfl

/-- What a user off the roster keeps: not the daily source, and a legacy one only as long as
there is a global row, raised to its level. -/
def keptStanding (row : GroupProtection) (legacy : Option GroupProtection) (source : Source) :
    Option (Nat × Nat) :=
  match source with
  | .daily => none
  | .legacy =>
      match legacy with
      | none => none
      | some legacy =>
          if (if isHistoricalDailyProtection row then 0
              else (protectionLevels row .legacy).getD 0) < protectionLevel legacy then
            some (protectionLevel legacy, row.roastSuccessCount)
          else if isHistoricalDailyProtection row then none else standing row .legacy
  | _ => standing row source

theorem keptSources_standing (row : GroupProtection) (legacy : Option GroupProtection)
    (source : Source) :
    ((keptSources row legacy).1 source).map (fun level =>
      (level, ((keptSources row legacy).2 source).getD 0)) = keptStanding row legacy source := by
  unfold keptSources keptStanding standing
  cases legacy with
  | none => cases source <;> by_cases hhistorical : isHistoricalDailyProtection row = true <;>
      simp [hhistorical, Levels.pop]
  | some legacy =>
      dsimp only
      by_cases hhistorical : isHistoricalDailyProtection row = true
      · simp only [hhistorical, if_true]
        cases source <;> split_ifs <;> simp [Levels.pop, Levels.set]
      · simp only [hhistorical, if_false, Bool.false_eq_true]
        cases source <;> split_ifs <;> simp [Levels.pop, Levels.set]

theorem keptRow_standing {legacy : Option GroupProtection} {kept : GroupProtection}
    (h : keptRow row legacy = some kept) (source : Source) :
    standing kept source = keptStanding row legacy source := by
  unfold keptRow at h
  dsimp only at h
  split_ifs at h
  obtain rfl := Option.some.inj h
  have hrestrict : ∀ (sources baselines : Levels), (sources source).map (fun level =>
      (level, ((baselines.restrict sources) source).getD 0)) =
        (sources source).map fun level => (level, (baselines source).getD 0) := by
    intro sources baselines
    unfold Levels.restrict
    cases sources source <;> rfl
  show ((keptSources row legacy).1 source).map (fun level =>
    (level, (((keptSources row legacy).2.restrict (keptSources row legacy).1) source).getD 0)) = _
  rw [hrestrict]
  exact keptSources_standing row legacy source

theorem Levels.isEmpty_iff {levels : Levels} :
    levels.isEmpty = true ↔ ∀ source, levels source = none := by
  unfold Levels.isEmpty sourceOrder
  rw [List.isEmpty_iff, List.filterMap_eq_nil_iff]
  constructor
  · intro h source
    cases source <;> exact h _ (by simp)
  · exact fun h source _ => h source

/-- A user off the roster loses the row when nothing else protects: no manual or pig source,
and no global row that gives a level. -/
theorem keptRow_none {legacy : Option GroupProtection} (h : keptRow row legacy = none) :
    protectionSources row .manual = none ∧ protectionSources row .pig = none ∧
      ∀ global, legacy = some global → protectionLevel global = 0 ∧
        (isHistoricalDailyProtection row = true ∨ protectionSources row .legacy = none) := by
  unfold keptRow at h
  dsimp only at h
  split_ifs at h with hempty
  rw [Levels.isEmpty_iff] at hempty
  have hmanual := hempty .manual
  have hpig := hempty .pig
  have hlegacy := hempty .legacy
  unfold keptSources at hmanual hpig hlegacy
  cases legacy with
  | none =>
      by_cases hhistorical : isHistoricalDailyProtection row = true <;>
        simp [hhistorical, Levels.pop] at hmanual hpig <;> simp [hmanual, hpig]
  | some global =>
      dsimp only at hmanual hpig hlegacy
      by_cases hhistorical : isHistoricalDailyProtection row = true
      · simp only [hhistorical, if_true] at hmanual hpig hlegacy
        split_ifs at hmanual hpig hlegacy with himports
        · simp [Levels.set] at hlegacy
        · refine ⟨by simpa [Levels.pop] using hmanual, by simpa [Levels.pop] using hpig, ?_⟩
          rintro _ ⟨⟩
          exact ⟨by omega, Or.inl hhistorical⟩
      · simp only [hhistorical, if_false, Bool.false_eq_true] at hmanual hpig hlegacy
        split_ifs at hmanual hpig hlegacy with himports
        · simp [Levels.set] at hlegacy
        · have hnone : protectionSources row .legacy = none := by simpa [Levels.pop] using hlegacy
          refine ⟨by simpa [Levels.pop] using hmanual, by simpa [Levels.pop] using hpig, ?_⟩
          rintro _ ⟨⟩
          refine ⟨?_, Or.inr hnone⟩
          simpa [protectionLevels, hnone] using himports

end RollPig
