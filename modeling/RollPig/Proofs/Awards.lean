/-
Being put on the daily roster, compared with being left off it.

A user off the roster gets the level of the global row; a user on the roster whose row is
kept does not.  So the award costs protection exactly when the global row stands above
everything the row of the group gives on the roster (`award_monotone_iff`).
-/
import RollPig.Proofs.Grants
import RollPig.Proofs.RosterRows

namespace RollPig

open Transition

variable {e e' : Env} {db : Db} {req : ReplaceGroupProtectionsRequest} {row : GroupProtection}
  {userId : String}

theorem mem_normalizedIds {userIds : List String} :
    userId ∈ normalizedIds userIds ↔ userId ∈ userIds ∧ userId ≠ "" := by
  unfold normalizedIds
  rw [List.mem_insertionSort, List.mem_dedup, List.mem_filter]
  simp

/-- The roster with this user on it. -/
def ReplaceGroupProtectionsRequest.listing (req : ReplaceGroupProtectionsRequest)
    (userId : String) : ReplaceGroupProtectionsRequest :=
  { req with userIds := userId :: req.userIds }

/-- The roster without this user. -/
def ReplaceGroupProtectionsRequest.dropping (req : ReplaceGroupProtectionsRequest)
    (userId : String) : ReplaceGroupProtectionsRequest :=
  { req with userIds := req.userIds.filter (· ≠ userId) }

/-- What `check_protected` reports of a user once the roster was replaced. -/
def awardedLevel (e : Env) (req : ReplaceGroupProtectionsRequest) (db : Db) (userId : String) : Nat :=
  (checkProtected req.protectDate req.groupId userId (replaceGroup e req db)).level

/-! ### Levels on and off the roster -/

/-- The level of a global row, if there is one. -/
def globalLevel (global : Option GroupProtection) : Nat :=
  (global.map protectionLevel).getD 0

theorem protectionLevel_eq (row : GroupProtection) :
    protectionLevel row =
      max (max ((protectionLevels row .daily).getD 0) ((protectionLevels row .manual).getD 0))
        (max ((protectionLevels row .pig).getD 0) ((protectionLevels row .legacy).getD 0)) :=
  Levels.highest_eq _

/-- On the roster a row keeps its level, and a daily source that is new adds its own. -/
theorem listedRow_level (req : ReplaceGroupProtectionsRequest) (yesterday : Option GroupProtection)
    (userId : String) (row : GroupProtection) :
    protectionLevel (listedRow req yesterday userId (some row)) =
      if (protectionSources row .daily).isSome = true ∨ isHistoricalDailyProtection row = true then
        protectionLevel row
      else max (protectionLevel row) (dailyLevel req yesterday) := by
  have hcap : dailyLevel req yesterday ≤ 5 := Nat.min_le_left _ _
  unfold listedRow
  dsimp only
  by_cases hdaily : (protectionSources row .daily).isSome = true
  · rw [if_pos hdaily, if_pos (Or.inl hdaily)]
  · rw [if_neg hdaily]
    have hnone : (protectionLevels row .daily).getD 0 = 0 := by
      have hsource : protectionSources row .daily = none := by simpa using hdaily
      simp [protectionLevels, hsource]
    have hcount : (dailyRow req yesterday userId (some row)).roastSuccessCount =
        row.roastSuccessCount := rfl
    rw [protectionLevel_eq, protectionLevel_eq]
    by_cases hhistorical : isHistoricalDailyProtection row = true
    · rw [if_pos (Or.inr hhistorical)]
      simp only [protectionLevels_eq (dailyRow req yesterday userId (some row)), hcount,
        dailyRow_historical req yesterday userId hhistorical, reduceCtorEq, if_true, if_false]
      simp only [← protectionLevels_eq, Option.map_none, Option.getD_none]
      omega
    · rw [if_neg (not_or.mpr ⟨hdaily, hhistorical⟩)]
      simp only [protectionLevels_eq (dailyRow req yesterday userId (some row)), hcount,
        dailyRow_fresh req yesterday userId hhistorical, reduceCtorEq, if_true, if_false]
      simp only [← protectionLevels_eq, Option.map_some, Option.getD_some, Nat.sub_self,
        Nat.add_zero]
      omega

theorem listedRow_new_level (req : ReplaceGroupProtectionsRequest)
    (yesterday : Option GroupProtection) (userId : String) :
    protectionLevel (listedRow req yesterday userId none) = dailyLevel req yesterday := by
  have hcap : dailyLevel req yesterday ≤ 5 := Nat.min_le_left _ _
  have hcount : (dailyRow req yesterday userId none).roastSuccessCount = 0 := rfl
  show protectionLevel (dailyRow req yesterday userId none) = _
  rw [protectionLevel_eq]
  simp only [protectionLevels_eq, hcount, dailyRow_new, reduceCtorEq, if_true, if_false,
    Option.map_some, Option.map_none, Option.getD_some, Option.getD_none]
  omega

/-- The level of the sources a user keeps off the roster. -/
def keptLevel (row : GroupProtection) (legacy : Option GroupProtection) : Nat :=
  max (max ((protectionLevels row .manual).getD 0) ((protectionLevels row .pig).getD 0))
    (match legacy with
    | none => 0
    | some legacy =>
        max (protectionLevel legacy)
          (if isHistoricalDailyProtection row then 0 else (protectionLevels row .legacy).getD 0))

theorem keptRow_level (row : GroupProtection) (legacy : Option GroupProtection) :
    globalLevel (keptRow row legacy) = keptLevel row legacy := by
  cases hkept : keptRow row legacy with
  | some kept =>
      obtain ⟨-, hcount⟩ := keptRow_frame hkept
      show protectionLevel kept = _
      rw [protectionLevel_eq]
      simp only [protectionLevels_eq kept, hcount, keptRow_standing hkept, keptStanding]
      simp only [← protectionLevels_eq, Option.map_none, Option.getD_none]
      unfold keptLevel
      cases legacy with
      | none =>
          simp only [Option.map_none, Option.getD_none]
          omega
      | some legacy =>
          have hcap := protectionLevel_le legacy
          dsimp only
          by_cases hhistorical : isHistoricalDailyProtection row = true
          · simp only [hhistorical, if_true]
            split_ifs <;> simp only [Option.map_some, Option.map_none, Option.getD_some,
              Option.getD_none] <;> omega
          · simp only [hhistorical, if_false, Bool.false_eq_true]
            split_ifs <;> simp only [← protectionLevels_eq, Option.map_some, Option.getD_some] <;>
              omega
  | none =>
      obtain ⟨hmanual, hpig, hglobal⟩ := keptRow_none hkept
      unfold keptLevel
      cases legacy with
      | none => simp [globalLevel, protectionLevels, hmanual, hpig]
      | some legacy =>
          obtain ⟨hzero, hhistorical | hlegacy⟩ := hglobal legacy rfl
          · simp [globalLevel, protectionLevels, hmanual, hpig, hzero, hhistorical]
          · simp [globalLevel, protectionLevels, hmanual, hpig, hzero, hlegacy]

/-! ### The two rosters -/

theorem awardedLevel_eq (e : Env) (hunique : Tables.Unique protectionKey db.groupProtections)
    (hgroup : req.groupId ≠ allGroups) (userId : String) :
    awardedLevel e req db userId =
      match rosterRow req db userId with
      | some row => protectionLevel row
      | none => globalLevel (db.protection? req.protectDate allGroups userId) := by
  have hown := replaceGroup_lookup e req hunique (req.protectDate, req.groupId, userId)
  have hglobal := replaceGroup_lookup e req hunique (req.protectDate, allGroups, userId)
  rw [if_pos ⟨rfl, rfl⟩] at hown
  rw [if_neg fun h => hgroup h.2.symm] at hglobal
  unfold awardedLevel checkProtected protectingRow? globalLevel
  simp only [protection?_eq_lookup, hown, hglobal]
  cases rosterRow req db userId with
  | some row => rfl
  | none =>
      dsimp only
      generalize Tables.lookup protectionKey db.groupProtections _ = global
      cases global <;> rfl

/-- On the roster. -/
theorem onRoster_level (e : Env) (hunique : Tables.Unique protectionKey db.groupProtections)
    (hgroup : req.groupId ≠ allGroups) (huser : userId ∈ normalizedIds req.userIds) :
    awardedLevel e req db userId =
      match db.protection? req.protectDate req.groupId userId with
      | some row =>
          if (protectionSources row .daily).isSome = true ∨
              isHistoricalDailyProtection row = true then protectionLevel row
          else max (protectionLevel row)
            (dailyLevel req (db.protection? (req.protectDate - 1) req.groupId userId))
      | none => max (globalLevel (db.protection? req.protectDate allGroups userId))
          (dailyLevel req (db.protection? (req.protectDate - 1) req.groupId userId)) := by
  have hglobal : globalProtection? db req.protectDate req.groupId userId =
      db.protection? req.protectDate allGroups userId := if_pos hgroup
  rw [awardedLevel_eq e hunique hgroup]
  unfold rosterRow startingRow
  rw [if_pos huser, hglobal]
  dsimp only
  cases db.protection? req.protectDate req.groupId userId with
  | some row => exact listedRow_level _ _ _ row
  | none =>
      cases db.protection? req.protectDate allGroups userId with
      | none =>
          show protectionLevel (listedRow _ _ _ none) = max 0 _
          rw [listedRow_new_level, Nat.zero_max]
      | some legacy =>
          show protectionLevel (listedRow _ _ _ (some _)) = max (protectionLevel legacy) _
          rw [listedRow_level, inheritGlobalProtection_level, if_neg ?_]
          rw [isHistoricalDailyProtection_iff]
          rintro (hdaily | ⟨-, -, hdays⟩)
          · exact absurd hdaily (by simp [protectionSources, inheritGlobalProtection])
          · exact absurd hdays (by simp [inheritGlobalProtection])

/-- Off the roster. -/
theorem offRoster_level (e : Env) (hunique : Tables.Unique protectionKey db.groupProtections)
    (hgroup : req.groupId ≠ allGroups) (huser : userId ∉ normalizedIds req.userIds) :
    awardedLevel e req db userId =
      match db.protection? req.protectDate req.groupId userId with
      | some row => keptLevel row (db.protection? req.protectDate allGroups userId)
      | none => globalLevel (db.protection? req.protectDate allGroups userId) := by
  have hglobal : globalProtection? db req.protectDate req.groupId userId =
      db.protection? req.protectDate allGroups userId := if_pos hgroup
  rw [awardedLevel_eq e hunique hgroup]
  unfold rosterRow
  rw [if_neg huser, hglobal]
  cases db.protection? req.protectDate req.groupId userId with
  | none => rfl
  | some row =>
      have hlevel := keptRow_level row (db.protection? req.protectDate allGroups userId)
      rw [Option.bind_some]
      cases hkept : keptRow row (db.protection? req.protectDate allGroups userId) with
      | some kept =>
          rw [hkept] at hlevel
          exact hlevel
      | none =>
          rw [hkept] at hlevel
          -- without a row of the group, the global row gives nothing either
          obtain ⟨-, -, hnothing⟩ := keptRow_none hkept
          refine Eq.trans ?_ hlevel
          cases hlegacy : db.protection? req.protectDate allGroups userId with
          | none => rfl
          | some legacy => exact (hnothing legacy hlegacy).1

/-! ### Comparing them -/

/-- The global row of the user does not stand above what the own row gives on the roster: its
level now, or a new daily source. -/
def AwardKeeps (req : ReplaceGroupProtectionsRequest) (db : Db) (userId : String) : Prop :=
  userId ≠ "" → ∀ row global, db.protection? req.protectDate req.groupId userId = some row →
    db.protection? req.protectDate allGroups userId = some global →
      protectionLevel global ≤ protectionLevel row ∨
        protectionSources row .daily = none ∧ isHistoricalDailyProtection row = false ∧
          protectionLevel global ≤
            dailyLevel req (db.protection? (req.protectDate - 1) req.groupId userId)

/-- What is kept is the old level or the global one. -/
theorem keptLevel_le (row : GroupProtection) (legacy : Option GroupProtection) :
    keptLevel row legacy ≤ max (protectionLevel row) (globalLevel legacy) ∧
      globalLevel legacy ≤ keptLevel row legacy := by
  have hrow := protectionLevel_eq row
  unfold keptLevel globalLevel
  cases legacy with
  | none =>
      dsimp only
      exact ⟨by omega, Nat.zero_le _⟩
  | some legacy =>
      dsimp only [Option.map_some, Option.getD_some]
      split_ifs <;> omega

theorem listing_normalized (huser : userId ≠ "") :
    userId ∈ normalizedIds (req.listing userId).userIds :=
  mem_normalizedIds.mpr ⟨List.mem_cons_self, huser⟩

theorem dropping_normalized : userId ∉ normalizedIds (req.dropping userId).userIds := by
  rw [mem_normalizedIds]
  simp [ReplaceGroupProtectionsRequest.dropping]

/-- The comparison itself: what is kept lies between the global level and the greater of the
two, what is given is the old level, or that and a new daily one. -/
theorem award_compare {old : Prop} [Decidable old] {level daily global kept : Nat}
    (hupper : kept ≤ max level global) (hlower : global ≤ kept) :
    kept ≤ (if old then level else max level daily) ↔ global ≤ level ∨ ¬ old ∧ global ≤ daily := by
  by_cases hold : old
  · rw [if_pos hold]
    constructor
    · exact fun hle => Or.inl (hlower.trans hle)
    · intro h
      have hlevel := h.resolve_right fun hnew => hnew.1 hold
      omega
  · rw [if_neg hold]
    constructor
    · intro hle
      rcases Nat.lt_or_ge level global with hless | hmore
      · exact Or.inr ⟨hold, by omega⟩
      · exact Or.inl hmore
    · rintro (hlevel | ⟨-, hdaily⟩) <;> omega

/-- **The award keeps the level exactly when the global row does not stand above it.** -/
theorem award_monotone_iff (e e' : Env)
    (hunique : Tables.Unique protectionKey db.groupProtections) (hgroup : req.groupId ≠ allGroups)
    (userId : String) :
    awardedLevel e (req.dropping userId) db userId ≤
        awardedLevel e' (req.listing userId) db userId ↔
      AwardKeeps req db userId := by
  have hoff : awardedLevel e (req.dropping userId) db userId =
      match db.protection? req.protectDate req.groupId userId with
      | some row => keptLevel row (db.protection? req.protectDate allGroups userId)
      | none => globalLevel (db.protection? req.protectDate allGroups userId) :=
    offRoster_level e hunique hgroup dropping_normalized
  by_cases huser : userId = ""
  · -- a blank id is on no roster
    have hblank : userId ∉ normalizedIds (req.listing userId).userIds := fun hmem =>
      (mem_normalizedIds.mp hmem).2 huser
    have hlisted : awardedLevel e' (req.listing userId) db userId =
        match db.protection? req.protectDate req.groupId userId with
        | some row => keptLevel row (db.protection? req.protectDate allGroups userId)
        | none => globalLevel (db.protection? req.protectDate allGroups userId) :=
      offRoster_level e' hunique hgroup hblank
    rw [hoff, hlisted]
    exact ⟨fun _ hnamed => absurd huser hnamed, fun _ => Nat.le_refl _⟩
  · have hon : awardedLevel e' (req.listing userId) db userId =
        match db.protection? req.protectDate req.groupId userId with
        | some row =>
            if (protectionSources row .daily).isSome = true ∨
                isHistoricalDailyProtection row = true then protectionLevel row
            else max (protectionLevel row)
              (dailyLevel req (db.protection? (req.protectDate - 1) req.groupId userId))
        | none => max (globalLevel (db.protection? req.protectDate allGroups userId))
            (dailyLevel req (db.protection? (req.protectDate - 1) req.groupId userId)) :=
      onRoster_level e' hunique hgroup (listing_normalized huser)
    rw [hon, hoff]
    unfold AwardKeeps
    cases db.protection? req.protectDate req.groupId userId with
    | none =>
        dsimp only
        exact ⟨fun _ _ _ _ hrow => absurd hrow (by simp), fun _ => Nat.le_max_left _ _⟩
    | some row =>
        obtain ⟨hupper, hlower⟩ := keptLevel_le row (db.protection? req.protectDate allGroups userId)
        dsimp only
        rw [award_compare hupper hlower]
        have hold : ¬ ((protectionSources row .daily).isSome = true ∨
            isHistoricalDailyProtection row = true) ↔
              protectionSources row .daily = none ∧ isHistoricalDailyProtection row = false := by
          simp
        rw [hold, and_assoc]
        cases db.protection? req.protectDate allGroups userId with
        | none =>
            exact ⟨fun _ _ _ _ _ hrow => absurd hrow (by simp), fun _ => Or.inl (Nat.zero_le _)⟩
        | some global =>
            refine ⟨?_, fun hkeeps => hkeeps huser row global rfl rfl⟩
            rintro hlevels - _ _ ⟨⟩ ⟨⟩
            exact hlevels

/-- User 2 is on the roster of group 7, and then gets a higher global protection. -/
def overtakenScript : List (Time × Order) :=
  let now : Time := 739000 * dayMicros
  [(now, .request (.replaceGroup (scriptRoster "7" ["2"] 1))),
    (now, .request (.replaceGroup (scriptRoster allGroups ["2"] 5)))]

def retriedRoster : ReplaceGroupProtectionsRequest :=
  scriptRoster "7" ["2"] 1

/-- The roster is sent again: staying on it leaves user 2 at level 1, leaving it would give
level 5. -/
theorem award_overtaken :
    ∃ w, Reachable service w ∧ ∃ e,
      awardedLevel e (retriedRoster.dropping "2") w.db "2" = 5 ∧
        awardedLevel e (retriedRoster.listing "2") w.db "2" = 1 ∧
          ¬ awardedLevel e (retriedRoster.dropping "2") w.db "2" ≤
            awardedLevel e (retriedRoster.listing "2") w.db "2" := by
  refine ⟨scriptWorld overtakenScript, script_reachable (by decide +kernel),
    scriptEnv 2 (739000 * dayMicros), ?_, ?_, ?_⟩
  all_goals decide +kernel

/-- User 2 is on the roster of group 7 at level 3, and then gets a lower global protection. -/
def undertakenScript : List (Time × Order) :=
  let now : Time := 739000 * dayMicros
  [(now, .request (.replaceGroup (scriptRoster "7" ["2"] 3))),
    (now, .request (.replaceGroup (scriptRoster allGroups ["2"] 2)))]

/-- With the own row above the global one the award keeps the level; with the own row below it
the award does not. -/
theorem award_monotone_iff_both :
    (let db := (scriptWorld undertakenScript).db
     awardedLevel (scriptEnv 2 0) (retriedRoster.dropping "2") db "2" ≤
      awardedLevel (scriptEnv 2 0) (retriedRoster.listing "2") db "2") ∧
    ¬ AwardKeeps retriedRoster (scriptWorld overtakenScript).db "2" := by
  refine ⟨(award_monotone_iff _ _ ?_ (by decide) "2").mpr ?_, fun hkeeps => ?_⟩
  · exact protections_unique (script_reachable (by decide +kernel))
  · intro _ row global hrow hglobal
    have hlevels : ((scriptWorld undertakenScript).db.protection? retriedRoster.protectDate
          retriedRoster.groupId "2").map protectionLevel = some 3 ∧
        ((scriptWorld undertakenScript).db.protection? retriedRoster.protectDate
          allGroups "2").map protectionLevel = some 2 := by decide +kernel
    rw [hrow, hglobal] at hlevels
    have hown : protectionLevel row = 3 := Option.some.inj hlevels.1
    have hother : protectionLevel global = 2 := Option.some.inj hlevels.2
    exact Or.inl (by omega)
  · have hmonotone := (award_monotone_iff (scriptEnv 2 0) (scriptEnv 2 0)
      (protections_unique (script_reachable (by decide +kernel))) (by decide) "2").mpr hkeeps
    revert hmonotone
    decide +kernel

end RollPig
