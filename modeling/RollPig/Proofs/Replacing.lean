/-
A new roster, and the same roster again.

The rows are read off `replaceGroup_lookup`, user by user.  For the second request the rounds
count as well: the loops leave the rounds against every user off the roster attuned to the row
that is kept, and then nothing of the request finds anything to do.
-/
import RollPig.Proofs.Awards
import RollPig.Proofs.Attuned

namespace RollPig

open Transition

variable {e : Env} {db db' : Db} {req : ReplaceGroupProtectionsRequest}
  {row kept : GroupProtection} {legacy : Option GroupProtection} {userId : String}

/-! ### The row on the roster -/

/-- On the roster means holding the daily source. -/
theorem listedRow_daily (req : ReplaceGroupProtectionsRequest) (yesterday : Option GroupProtection)
    (userId : String) (row : Option GroupProtection) :
    (protectionSources (listedRow req yesterday userId row) .daily).isSome = true := by
  rw [← standing_isSome]
  unfold listedRow
  cases row with
  | none => simp [dailyRow_new]
  | some row =>
      dsimp only
      split_ifs with hdaily
      · rw [standing_isSome]
        exact hdaily
      · by_cases hhistorical : isHistoricalDailyProtection row = true
        · rw [dailyRow_historical req yesterday userId hhistorical, if_pos rfl, standing_isSome]
          exact (isHistoricalDailyProtection_iff.mp hhistorical).1
        · rw [dailyRow_fresh req yesterday userId hhistorical, if_pos rfl]
          rfl

/-- The sources a roster has nothing to do with. -/
def Source.Lasting (source : Source) : Prop := source = .manual ∨ source = .pig

theorem listedRow_lasting (yesterday : Option GroupProtection) (own : Option GroupProtection)
    {source : Source} (h : source.Lasting) :
    standing (listedRow req yesterday userId own) source = own.bind (standing · source) := by
  have hdaily : source ≠ .daily := by rcases h with rfl | rfl <;> simp
  have hlegacy : source ≠ .legacy := by rcases h with rfl | rfl <;> simp
  unfold listedRow
  cases own with
  | none =>
      rw [dailyRow_new, if_neg hdaily]
      rfl
  | some row =>
      dsimp only
      split_ifs
      · rfl
      · by_cases hhistorical : isHistoricalDailyProtection row = true
        · rw [dailyRow_historical req yesterday userId hhistorical, if_neg hdaily, if_neg hlegacy]
          rfl
        · rw [dailyRow_fresh req yesterday userId hhistorical, if_neg hdaily]
          rfl

theorem startingRow_lasting (req : ReplaceGroupProtectionsRequest) (db : Db) (userId : String)
    {source : Source} (h : source.Lasting) :
    (startingRow req db userId).bind (standing · source) =
      (db.protection? req.protectDate req.groupId userId).bind (standing · source) := by
  have hlegacy : source ≠ .legacy := by rcases h with rfl | rfl <;> simp
  unfold startingRow
  cases db.protection? req.protectDate req.groupId userId with
  | some row => rfl
  | none =>
      cases globalProtection? db req.protectDate req.groupId userId with
      | none => rfl
      | some global =>
          show standing (inheritGlobalProtection global req.groupId) source = none
          rw [inheritGlobalProtection_standing, if_neg hlegacy]

theorem keptRow_lasting {source : Source} (h : source.Lasting) :
    (keptRow row legacy).bind (standing · source) = standing row source := by
  cases hkept : keptRow row legacy with
  | none =>
      obtain ⟨hmanual, hpig, -⟩ := keptRow_none hkept
      rcases h with rfl | rfl
      · simp [standing, hmanual]
      · simp [standing, hpig]
  | some kept =>
      show standing kept source = _
      rw [keptRow_standing hkept]
      rcases h with rfl | rfl <;> rfl

/-! ### What a user off the roster keeps is final -/

theorem Levels.pop_eq {levels : Levels} {source : Source} (h : levels source = none) :
    levels.pop source = levels := by
  funext other
  unfold Levels.pop
  by_cases hsame : other = source
  · rw [if_pos hsame, hsame, h]
  · rw [if_neg hsame]

theorem Levels.restrict_idem (baselines sources : Levels) :
    (baselines.restrict sources).restrict sources = baselines.restrict sources := by
  funext source
  unfold Levels.restrict
  split_ifs <;> rfl

/-- The kept row inherits all that the global row gives. -/
theorem keptRow_inherits {global : GroupProtection} (h : keptRow row (some global) = some kept) :
    ¬ (protectionLevels kept .legacy).getD 0 < protectionLevel global := by
  have hcap := protectionLevel_le global
  have hstanding := keptRow_standing h .legacy
  obtain ⟨-, hcount⟩ := keptRow_frame h
  dsimp only [keptStanding] at hstanding
  split_ifs at hstanding with hhistorical himports himports
  · rw [protectionLevels_eq, hstanding, hcount]
    simp only [Option.map_some, Option.getD_some]
    omega
  · rw [protectionLevels_eq, hstanding]
    exact himports
  · rw [protectionLevels_eq, hstanding, hcount]
    simp only [Option.map_some, Option.getD_some]
    omega
  · rw [protectionLevels_congr hcount hstanding]
    exact himports

/-- Off the roster there is nothing more to take. -/
theorem keptRow_idem (h : keptRow row legacy = some kept) : keptRow kept legacy = some kept := by
  have hnodaily : protectionSources kept .daily = none := by
    rw [← Option.not_isSome_iff_eq_none, ← standing_isSome, keptRow_standing h]
    simp [keptStanding]
  have hdays : kept.consecutiveDays = 0 := by
    unfold keptRow at h
    dsimp only at h
    split_ifs at h
    obtain rfl := Option.some.inj h
    rfl
  have hrecent : isHistoricalDailyProtection kept = false := by
    rw [← Bool.not_eq_true, isHistoricalDailyProtection_iff, hdays]
    omega
  have hsources : keptSources kept legacy = (protectionSources kept, protectionBaselines kept) := by
    unfold keptSources
    cases legacy with
    | none =>
        have hnolegacy : protectionSources kept .legacy = none := by
          rw [← Option.not_isSome_iff_eq_none, ← standing_isSome, keptRow_standing h]
          simp [keptStanding]
        simp only [hrecent, Bool.false_eq_true, if_false, Levels.pop_eq hnodaily,
          Levels.pop_eq hnolegacy]
    | some global =>
        simp only [hrecent, Bool.false_eq_true, if_false, Levels.pop_eq hnodaily,
          if_neg (keptRow_inherits h)]
  unfold keptRow at h ⊢
  rw [hsources]
  dsimp only at h ⊢
  split_ifs at h with hempty
  obtain rfl := Option.some.inj h
  simp only [protectionSources, protectionBaselines, Levels.restrict_idem, if_neg hempty]

/-! ### The rows after a new roster -/

/-- What a new roster does to the rows. -/
structure Replaced (req : ReplaceGroupProtectionsRequest) (db db' : Db) : Prop where
  roster : ∀ userId, (∃ row ∈ db'.groupProtections,
    protectionKey row = (req.protectDate, req.groupId, userId) ∧
      (protectionSources row .daily).isSome = true) ↔ userId ∈ req.userIds ∧ userId ≠ ""
  lasting : ∀ k source, source.Lasting →
    (Tables.lookup protectionKey db'.groupProtections k).bind (standing · source) =
      (Tables.lookup protectionKey db.groupProtections k).bind (standing · source)
  counts : ∀ row ∈ db.groupProtections, ∀ row' ∈ db'.groupProtections,
    protectionKey row' = protectionKey row → row'.roastSuccessCount = row.roastSuccessCount
  deleted : ∀ row ∈ db.groupProtections,
    protectionKey row ∉ db'.groupProtections.map protectionKey →
      row.userId ∉ normalizedIds req.userIds ∧ protectionSources row .manual = none ∧
        protectionSources row .pig = none ∧
        ∀ global, globalProtection? db row.protectDate row.groupId row.userId = some global →
          protectionLevel global = 0 ∧
            (isHistoricalDailyProtection row = true ∨ protectionSources row .legacy = none)
  untouched : ∀ row, ¬ (row.protectDate = req.protectDate ∧ row.groupId = req.groupId) →
    (row ∈ db'.groupProtections ↔ row ∈ db.groupProtections)

/-- The row of a user in the group is the one of `rosterRow`. -/
theorem replaceGroup_rosterRow (e : Env)
    (hunique : Tables.Unique protectionKey db.groupProtections) (userId : String) :
    Tables.lookup protectionKey (replaceGroup e req db).groupProtections
      (req.protectDate, req.groupId, userId) = rosterRow req db userId := by
  rw [replaceGroup_lookup e req hunique, if_pos ⟨rfl, rfl⟩]

theorem rosterRow_daily (req : ReplaceGroupProtectionsRequest) (db : Db) (userId : String) :
    (∃ row, rosterRow req db userId = some row ∧
      (protectionSources row .daily).isSome = true) ↔ userId ∈ normalizedIds req.userIds := by
  unfold rosterRow
  constructor
  · rintro ⟨row, hrow, hdaily⟩
    by_contra hleaves
    rw [if_neg hleaves, Option.bind_eq_some_iff] at hrow
    obtain ⟨own, -, hkept⟩ := hrow
    rw [← standing_isSome, keptRow_standing hkept] at hdaily
    simp [keptStanding] at hdaily
  · intro huser
    rw [if_pos huser]
    exact ⟨_, rfl, listedRow_daily ..⟩

theorem rosterRow_lasting (req : ReplaceGroupProtectionsRequest) (db : Db) (userId : String)
    {source : Source} (h : source.Lasting) :
    (rosterRow req db userId).bind (standing · source) =
      (db.protection? req.protectDate req.groupId userId).bind (standing · source) := by
  unfold rosterRow
  split_ifs
  · rw [← startingRow_lasting req db userId h]
    exact listedRow_lasting _ _ h
  · rw [Option.bind_assoc]
    exact Option.bind_congr fun row _ => keptRow_lasting h

theorem replaceGroup_replaced (e : Env) (hsound : db.Sound)
    (hunique : Tables.Unique protectionKey db.groupProtections) :
    Replaced req db (replaceGroup e req db) := by
  have htended := replaceGroup_tended e hsound hunique req
  refine ⟨fun userId => ?_, fun k source hlasting => ?_, ?_, fun row hrow hdeleted => ?_,
    fun row hout => ?_⟩
  · rw [← mem_normalizedIds, ← rosterRow_daily req db, ← replaceGroup_rosterRow e hunique]
    constructor
    · rintro ⟨row, hrow, hkey, hdaily⟩
      exact ⟨row, hkey ▸ htended.unique.lookup hrow, hdaily⟩
    · rintro ⟨row, hrow, hdaily⟩
      exact ⟨row, (Tables.lookup_some hrow).1, (Tables.lookup_some hrow).2, hdaily⟩
  · rw [replaceGroup_lookup e req hunique]
    split_ifs with hgroup
    · obtain ⟨date, groupId, userId⟩ := k
      obtain ⟨rfl, rfl⟩ := hgroup
      rw [rosterRow_lasting req db userId hlasting, protection?_eq_lookup]
    · rfl
  · intro row hrow row' hrow' hkey
    exact htended.counts row' hrow' row hrow hkey.symm
  · rw [← Tables.lookup_none, replaceGroup_lookup e req hunique] at hdeleted
    split_ifs at hdeleted with hgroup
    · obtain ⟨hdate, hgroup⟩ := hgroup
      have hown : db.protection? req.protectDate req.groupId row.userId = some row := by
        rw [protection?_eq_lookup, ← hdate, ← hgroup]
        exact hunique.lookup hrow
      unfold rosterRow at hdeleted
      split_ifs at hdeleted with hleaves
      change (db.protection? _ _ row.userId).bind _ = none at hdeleted
      rw [hown] at hdeleted
      obtain ⟨hmanual, hpig, hglobal⟩ := keptRow_none hdeleted
      refine ⟨hleaves, hmanual, hpig, fun global hrow => hglobal global ?_⟩
      rw [← hrow, ← hdate, ← hgroup]
      rfl
    · rw [hunique.lookup hrow] at hdeleted
      exact absurd hdeleted (by simp)
  · have houtside : ¬ ((protectionKey row).1 = req.protectDate ∧
        (protectionKey row).2.1 = req.groupId) := hout
    rw [htended.unique.mem_iff, hunique.mem_iff, replaceGroup_lookup e req hunique, if_neg houtside]

/-! ### The rounds after a new roster -/

/-- The users off the roster, with the row they had. -/
theorem mem_leavers :
    row ∈ (groupRows db req.groupId req.protectDate).filter (fun row =>
        decide (row.userId ∉ normalizedIds req.userIds)) ↔
      row ∈ groupRows db req.groupId req.protectDate ∧ row.userId ∉ normalizedIds req.userIds := by
  simp

/-- The rounds against every user off the roster are attuned to the row that is kept. -/
def LeaversAttuned (req : ReplaceGroupProtectionsRequest) (db₀ db : Db) : Prop :=
  ∀ row ∈ groupRows db₀ req.groupId req.protectDate, row.userId ∉ normalizedIds req.userIds →
    ∀ kept, keptRow row (globalProtection? db₀ req.protectDate req.groupId row.userId) = some kept →
      Attuned kept db

theorem sync_sound (e : Env) (protection : GroupProtection) (removed : Bool) (hsound : db.Sound) :
    (syncPendingProtection e protection removed db).Sound := by
  have hevolves : Evolves { syncs := True } [] db _ :=
    syncPendingProtection_evolves e hsound trivial protection removed none
  exact hevolves.sound

theorem Db.Sound.congr (h : db.Sound) (hrows : db'.reservations = db.reservations)
    (hmembers : db'.participants = db.participants) : db'.Sound := by
  constructor
  · rw [hrows]
    exact h.ids
  · rw [hmembers]
    exact h.members
  · rw [hrows, hmembers]
    exact h.enrolled

/-- Taking one user off the roster attunes the rounds against that user. -/
theorem removeFromRoster_attunes (e : Env) (req : ReplaceGroupProtectionsRequest)
    (hsound : db.Sound) :
    (removeFromRoster e req row db).Sound ∧
      (∀ kept, keptRow row (globalProtection? db req.protectDate req.groupId row.userId) =
        some kept → Attuned kept (removeFromRoster e req row db)) ∧
      ∀ protection, protection.userId ≠ row.userId → Attuned protection db →
        Attuned protection (removeFromRoster e req row db) := by
  rw [removeFromRoster_eq]
  cases hkept : keptRow row (globalProtection? db req.protectDate req.groupId row.userId) with
  | none =>
      refine ⟨(sync_sound e row true hsound).congr rfl rfl, by simp, fun protection hne h => ?_⟩
      have hother : protectionKey row ≠ protectionKey protection := fun hkey =>
        hne (congrArg (·.2.2) hkey).symm
      exact (h.sync_other hsound hother).congr rfl rfl
  | some kept =>
      have hflushed : (db.flushProtection kept).Sound := hsound.congr rfl rfl
      obtain ⟨hkey, -⟩ := keptRow_frame hkept
      refine ⟨sync_sound e kept false hflushed, ?_, fun protection hne h => ?_⟩
      · rintro _ ⟨⟩
        exact Attuned.sync hflushed
      · have hother : protectionKey kept ≠ protectionKey protection := fun hsame =>
          hne (congrArg (·.2.2) (hkey.symm.trans hsame)).symm
        have hthere : Attuned protection (db.flushProtection kept) := h.congr rfl rfl
        exact hthere.sync_other hflushed hother

theorem removeFromRoster_others (e : Env) (req : ReplaceGroupProtectionsRequest)
    {k : Date × String × String} (hk : k ≠ protectionKey row) :
    Tables.lookup protectionKey (removeFromRoster e req row db).groupProtections k =
      Tables.lookup protectionKey db.groupProtections k := by
  rw [removeFromRoster_eq]
  cases hkept : keptRow row (globalProtection? db req.protectDate req.groupId row.userId) with
  | none => exact (Tables.lookup_delete db.groupProtections (protectionKey row) k).trans (if_neg hk)
  | some kept =>
      rw [← (keptRow_frame hkept).1] at hk
      exact Tables.lookup_writeBack_ne hk

/-- **The first loop attunes the rounds** against the users off the roster. -/
theorem removeLeavers_attunes (e : Env) (req : ReplaceGroupProtectionsRequest)
    (hsound : db.Sound) (hunique : Tables.Unique protectionKey db.groupProtections) :
    (removeLeavers e req db).Sound ∧ LeaversAttuned req db (removeLeavers e req db) := by
  have hloop := Tables.foldl_establishes
    (I := fun s : Db => s.Sound ∧ ∀ k : Date × String × String, k.2.1 ≠ req.groupId →
      Tables.lookup protectionKey s.groupProtections k =
        Tables.lookup protectionKey db.groupProtections k)
    (P := fun row s => ∀ kept, keptRow row
      (globalProtection? db req.protectDate req.groupId row.userId) = some kept → Attuned kept s)
    protectionKey (fun s row => removeFromRoster e req row s)
    ((groupRows db req.groupId req.protectDate).filter fun row =>
      row.userId ∉ normalizedIds req.userIds) ((hunique.filter _).filter _) ?_
    ⟨hsound, fun _ _ => rfl⟩
  · obtain ⟨⟨hafter, -⟩, hattuned⟩ := hloop
    exact ⟨hafter, fun row hrow hleaves => hattuned row (mem_leavers.mpr ⟨hrow, hleaves⟩)⟩
  · rintro s ⟨hs, houtside⟩ row hrow
    obtain ⟨-, hgroup, hdate⟩ := mem_groupRows.mp (mem_leavers.mp hrow).1
    obtain ⟨hafter, hdone, hkeeps⟩ := removeFromRoster_attunes e req hs
    refine ⟨⟨hafter, fun k hk => ?_⟩, ?_, fun other hother hne hattuned kept hkept => ?_⟩
    · rw [← houtside k hk]
      refine removeFromRoster_others e req fun hkey => hk ?_
      rw [hkey]
      exact hgroup
    · rw [← globalProtection?_congr houtside]
      exact hdone
    · obtain ⟨-, hgroup', hdate'⟩ := mem_groupRows.mp (mem_leavers.mp hother).1
      have hkey := (keptRow_frame hkept).1
      refine hkeeps kept (fun hsame => hne ?_) (hattuned kept hkept)
      have huser : other.userId = row.userId := (congrArg (·.2.2) hkey).symm.trans hsame
      simp only [protectionKey, hgroup, hdate, hgroup', hdate', huser]

/-- **The second loop keeps the rounds attuned**: the users it handles are on the list. -/
theorem replaceGroup_attunes (e : Env) (req : ReplaceGroupProtectionsRequest)
    (hsound : db.Sound) (hunique : Tables.Unique protectionKey db.groupProtections) :
    LeaversAttuned req db (replaceGroup e req db) := by
  unfold replaceGroup addMembers
  refine (List.foldlRecOn
    (motive := fun s => s.Sound ∧ LeaversAttuned req db s) _ _
    (removeLeavers_attunes e req hsound hunique) ?_).2
  rintro s ⟨hs, hattuned⟩ userId huser
  rcases addToRoster_writes e req (groupRows db req.groupId req.protectDate)
    (groupRows db req.groupId (req.protectDate - 1)) userId s with
    hsame | ⟨protection, db₁, hprotects, hrows, hmembers, heq⟩
  · rw [hsame]
    exact ⟨hs, hattuned⟩
  · rw [heq]
    have hwritten : db₁.Sound := hs.congr hrows hmembers
    refine ⟨sync_sound e protection false hwritten, fun row hrow hleaves kept hkept => ?_⟩
    have hthere : Attuned kept db₁ :=
      (hattuned row hrow hleaves kept hkept).congr hrows hmembers
    refine hthere.sync_other hwritten fun hsame => hleaves ?_
    have hother : userId = row.userId := by
      rw [← hprotects]
      exact congrArg (·.2.2) (hsame.trans (keptRow_frame hkept).1)
    exact hother ▸ huser

/-! ### The same roster again -/

/-- A user who holds the daily source is on the roster already. -/
theorem addToRoster_daily (e : Env) (req : ReplaceGroupProtectionsRequest)
    (current previous : List GroupProtection) (db : Db)
    (hown : current.find? (·.userId = userId) = some row)
    (hdaily : (protectionSources row .daily).isSome = true) :
    addToRoster e req current previous userId db = db := by
  unfold addToRoster
  rw [hown]
  dsimp only
  rw [if_pos hdaily]

/-- **The same roster again** changes nothing. -/
theorem replaceGroup_again (e e' : Env) (req : ReplaceGroupProtectionsRequest)
    (hsound : db.Sound) (hunique : Tables.Unique protectionKey db.groupProtections) :
    replaceGroup e' req (replaceGroup e req db) = replaceGroup e req db := by
  have htended := replaceGroup_tended e hsound hunique req
  have hlookup := replaceGroup_lookup e req hunique
  have hattuned := replaceGroup_attunes e req hsound hunique
  have hglobal : ∀ userId, globalProtection? (replaceGroup e req db) req.protectDate req.groupId
      userId = globalProtection? db req.protectDate req.groupId userId := by
    intro userId
    refine globalProtection?_congr fun k hk => ?_
    rw [hlookup, if_neg fun hgroup => hk hgroup.2]
  generalize hafter : replaceGroup e req db = after at *
  have hleft : removeLeavers e' req after = after := by
    unfold removeLeavers
    refine List.foldlRecOn (motive := fun s => s = after) _ _ rfl ?_
    rintro s rfl row hrow
    obtain ⟨hgroup, hleaves⟩ := mem_leavers.mp hrow
    obtain ⟨hmem, hgroupId, hdate⟩ := mem_groupRows.mp hgroup
    have hstored := htended.unique.lookup hmem
    have hkey : protectionKey row = (req.protectDate, req.groupId, row.userId) := by
      simp only [protectionKey, hgroupId, hdate]
    rw [hkey, hlookup, if_pos ⟨rfl, rfl⟩] at hstored
    unfold rosterRow at hstored
    rw [if_neg hleaves, Option.bind_eq_some_iff] at hstored
    obtain ⟨own, hown, hkept⟩ := hstored
    rw [protection?_eq_lookup] at hown
    obtain ⟨howned, hownkey⟩ := Tables.lookup_some hown
    have hhere : own ∈ groupRows db req.groupId req.protectDate :=
      mem_groupRows.mpr ⟨howned, congrArg (·.2.1) hownkey, congrArg (·.1) hownkey⟩
    have huser : own.userId = row.userId := congrArg (·.2.2) hownkey
    have hrounds : Attuned row s :=
      hattuned own hhere (huser ▸ hleaves) row (by rw [huser]; exact hkept)
    have hflushed : s.flushProtection row = s :=
      congrArg (fun rows => { s with groupProtections := rows })
        (Tables.writeBack_self htended.unique (by simpa using hmem))
    rw [removeFromRoster_eq, hglobal, keptRow_idem hkept]
    dsimp only
    rw [hflushed]
    exact hrounds.sync_eq htended.sound e'
  have hadded : addMembers e' req (groupRows after req.groupId req.protectDate)
      (groupRows after req.groupId (req.protectDate - 1)) after = after := by
    unfold addMembers
    refine List.foldlRecOn (motive := fun s => s = after) _ _ rfl ?_
    rintro s rfl userId huser
    obtain ⟨row, hrow, hdaily⟩ := (rosterRow_daily req db userId).mpr huser
    refine addToRoster_daily e' req _ _ s ?_ hdaily
    rw [groupRows_find?, protection?_eq_lookup, hlookup, if_pos ⟨rfl, rfl⟩]
    exact hrow
  unfold replaceGroup
  rw [hleft, hadded]

/-- **A new roster** gives the daily source to the users on the list alone and leaves the rest
of the protections, and sent again, now or later, it leaves everything as it is.  The two
hypotheses are what the keys of the tables say; every reachable database meets them, and so
does one with rows from before sources were recorded. -/
theorem replaceGroup_effect (e e' : Env) (req : ReplaceGroupProtectionsRequest)
    (hsound : db.Sound) (hunique : Tables.Unique protectionKey db.groupProtections) :
    Replaced req db (replaceGroup e req db) ∧
      replaceGroup e' req (replaceGroup e req db) = replaceGroup e req db :=
  ⟨replaceGroup_replaced e hsound hunique, replaceGroup_again e e' req hsound hunique⟩

/-- User 2 is on the roster of group 7 and has a higher global protection; then the roster is
replaced by one without. -/
theorem replaceGroup_effect_dropped :
    let db := (scriptWorld overtakenScript).db
    let req := retriedRoster.dropping "2"
    Replaced req db (replaceGroup (scriptEnv 2 0) req db) ∧
      replaceGroup (scriptEnv 3 1) req (replaceGroup (scriptEnv 2 0) req db) =
        replaceGroup (scriptEnv 2 0) req db := by
  have hreach : Reachable service (scriptWorld overtakenScript) :=
    script_reachable (by decide +kernel)
  exact replaceGroup_effect _ _ _ (sound_of_reachable hreach).db (protections_unique hreach)

end RollPig
