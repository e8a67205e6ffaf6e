/-
A grant raises the level in force to the granted one, if it was lower.

The granted level goes through the manual source.  It replaces the manual level when that
is lower now, successes included, so the level in force afterwards is the greater of the
two however the other sources stand.  Taking the greater one is insensitive to order and
repetition, and so is a sequence of grants.
-/
import RollPig.Proofs.Levels
import RollPig.Proofs.Script
import Mathlib.Data.Finset.Lattice.Fold

namespace RollPig

variable {e : Env} {db db' : Db} {req : GrantProtectionRequest} {response : GrantProtectionResponse}
  {date : Date} {groupId userId : String} {levels : List Nat}

/-! ### The row a grant starts from -/

/-- The row of the group, else the copy of the global row the group would inherit. -/
def ownOrInherited (db : Db) (date : Date) (groupId userId : String) : Option GroupProtection :=
  match db.protection? date groupId userId with
  | some row => some row
  | none => (db.protection? date allGroups userId).map (inheritGlobalProtection · groupId)

/-- The level one source gives a user in a group now. -/
def sourceLevel (date : Date) (groupId userId : String) (db : Db) (source : Source) : Option Nat :=
  (ownOrInherited db date groupId userId).bind (protectionLevels · source)

/-- The copy reports as the global row does. -/
theorem checkProtected_level (db : Db) (date : Date) (groupId userId : String) :
    (checkProtected date groupId userId db).level =
      ((ownOrInherited db date groupId userId).map protectionLevel).getD 0 := by
  unfold checkProtected protectingRow? ownOrInherited
  cases db.protection? date groupId userId with
  | some row => rfl
  | none => cases db.protection? date allGroups userId <;> simp

/-! ### The row a grant leaves -/

/-- A grant sets the manual source if it beats it, and no other source. -/
theorem grantedRow_standing (req : GrantProtectionRequest) (row : GroupProtection)
    (source : Source) :
    standing (grantedRow req row) source =
      if source = .manual ∧ (protectionLevels row .manual).getD 0 < req.level then
        some (req.level, row.roastSuccessCount)
      else standing row source := by
  by_cases hraises : (protectionLevels row .manual).getD 0 < req.level
  · have hrow : grantedRow req row = { row with
        sourceLevels := some ((protectionSources row).set .manual req.level)
        sourceBaselines := some ((protectionBaselines row).set .manual row.roastSuccessCount)
        baseLevel := ((protectionSources row).set .manual req.level).highest } := by
      simp [grantedRow, hraises]
    rw [hrow]
    by_cases hmanual : source = .manual
    · rw [if_pos ⟨hmanual, hraises⟩]
      simp [standing, protectionSources, protectionBaselines, Levels.set, hmanual]
    · rw [if_neg fun h => hmanual h.1]
      simp [standing, protectionSources, protectionBaselines, Levels.set, hmanual]
  · rw [if_neg fun h => hraises h.2]
    have hrow : grantedRow req row = { row with
        sourceLevels := some (protectionSources row)
        sourceBaselines := some (protectionBaselines row)
        baseLevel := (protectionSources row).highest } := by
      simp [grantedRow, hraises]
    rw [hrow]
    rfl

theorem grantedRow_levels (req : GrantProtectionRequest) (row : GroupProtection)
    (source : Source) :
    protectionLevels (grantedRow req row) source =
      if source = .manual ∧ (protectionLevels row .manual).getD 0 < req.level then some req.level
      else protectionLevels row source := by
  have hcap := req.level_le
  have hcount : (grantedRow req row).roastSuccessCount = row.roastSuccessCount := rfl
  rw [protectionLevels_eq, grantedRow_standing, hcount]
  split_ifs
  · simpa using hcap
  · exact (protectionLevels_eq row source).symm

theorem grantedRow_level (req : GrantProtectionRequest) (row : GroupProtection) :
    protectionLevel (grantedRow req row) = max (protectionLevel row) req.level := by
  show Levels.highest (protectionLevels (grantedRow req row)) = max (Levels.highest _) _
  rw [Levels.highest_eq, Levels.highest_eq]
  simp only [grantedRow_levels, reduceCtorEq, false_and, if_false, true_and]
  split_ifs with hraises
  · rw [Option.getD_some]
    omega
  · omega

theorem firstGrant_standing (req : GrantProtectionRequest) (source : Source) :
    standing (firstGrant req) source = if source = .manual then some (req.level, 0) else none := by
  unfold standing protectionSources protectionBaselines firstGrant
  dsimp only
  split_ifs <;> rfl

theorem firstGrant_levels (req : GrantProtectionRequest) (source : Source) :
    protectionLevels (firstGrant req) source = if source = .manual then some req.level else none := by
  have hcap := req.level_le
  rw [protectionLevels_eq, firstGrant_standing]
  split_ifs
  · simpa [firstGrant] using hcap
  · rfl

theorem firstGrant_level (req : GrantProtectionRequest) :
    protectionLevel (firstGrant req) = req.level := by
  show Levels.highest (protectionLevels (firstGrant req)) = _
  rw [Levels.highest_eq]
  simp [firstGrant_levels]

/-- **What a grant stores and answers**, from the row it starts from. -/
theorem storeGrant_cases (req : GrantProtectionRequest) (db : Db) :
    ((storeGrant req db).1 = true ↔
        ((ownOrInherited db req.protectDate req.groupId req.userId).map protectionLevel).getD 0 <
          req.level) ∧
      (storeGrant req db).2.1 =
        (match ownOrInherited db req.protectDate req.groupId req.userId with
        | some row => grantedRow req row
        | none => firstGrant req) := by
  have hpos := req.level_pos
  unfold storeGrant ownOrInherited
  cases db.protection? req.protectDate req.groupId req.userId with
  | some row => simp
  | none =>
      cases db.protection? req.protectDate allGroups req.userId with
      | some legacy => simp
      | none =>
          refine ⟨?_, rfl⟩
          simp only [Option.map_none, Option.getD_none, true_iff]
          omega

/-- The granted row is stored under the key of the request. -/
theorem storeGrant_lookup (e : Env) (req : GrantProtectionRequest) (db : Db) :
    (storeGrant req db).2.2.protection? req.protectDate req.groupId req.userId =
      some (storeGrant req db).2.1 := by
  obtain ⟨hkey, -, -⟩ := storeGrant_protects (e := e) req db
  rw [protection?_eq_lookup, ← hkey]
  revert hkey
  unfold storeGrant
  cases hown : db.protection? req.protectDate req.groupId req.userId with
  | some row =>
      rw [protection?_eq_lookup] at hown
      obtain ⟨hmem, hrow⟩ := Tables.lookup_some hown
      intro hkey
      have hsame : protectionKey (grantedRow req row) = protectionKey row := rfl
      have hstored : protectionKey (grantedRow req row) ∈ db.groupProtections.map protectionKey := by
        rw [hsame]
        exact List.mem_map_of_mem hmem
      exact (Tables.lookup_writeBack hstored _).trans (if_pos rfl)
  | none =>
      rw [protection?_eq_lookup, Tables.lookup_none] at hown
      dsimp only
      intro hkey
      exact (Tables.lookup_insert (hkey ▸ hown) _).trans (if_pos rfl)

theorem grantProtection_row (h : grantProtection e req db = some (response, db')) :
    db'.protection? req.protectDate req.groupId req.userId = some (storeGrant req db).2.1 ∧
      response =
        { level := protectionLevel (storeGrant req db).2.1, changed := (storeGrant req db).1 } := by
  unfold grantProtection at h
  split_ifs at h
  obtain ⟨hresponse, rfl⟩ := Prod.mk.inj (Option.some.inj h)
  refine ⟨?_, hresponse.symm⟩
  rw [← storeGrant_lookup e]
  simp [Db.protection?]

/-- **One grant**: the level in force is raised to the granted one, the answer says so, and
the other sources stay. -/
theorem grantProtection_effect (h : grantProtection e req db = some (response, db')) :
    (checkProtected req.protectDate req.groupId req.userId db').level =
        max (checkProtected req.protectDate req.groupId req.userId db).level req.level ∧
      response.level = (checkProtected req.protectDate req.groupId req.userId db').level ∧
      (response.changed = true ↔
        (checkProtected req.protectDate req.groupId req.userId db).level < req.level) ∧
      ∀ source, source ≠ .manual →
        sourceLevel req.protectDate req.groupId req.userId db' source =
          sourceLevel req.protectDate req.groupId req.userId db source := by
  obtain ⟨hown, hresponse⟩ := grantProtection_row h
  obtain ⟨hchanged, hrow⟩ := storeGrant_cases req db
  have hafter : ownOrInherited db' req.protectDate req.groupId req.userId =
      some (storeGrant req db).2.1 := by
    unfold ownOrInherited
    rw [hown]
  rw [hresponse, checkProtected_level, checkProtected_level, hafter]
  unfold sourceLevel
  rw [hafter, hrow]
  refine ⟨?_, rfl, hchanged, ?_⟩
  · cases ownOrInherited db req.protectDate req.groupId req.userId with
    | some row => exact grantedRow_level req row
    | none => simpa using firstGrant_level req
  · intro source hsource
    cases ownOrInherited db req.protectDate req.groupId req.userId with
    | some row => simp [grantedRow_levels, hsource]
    | none => simp [firstGrant_levels, hsource]

/-! ### Sequences of grants -/

/-- Grants to one user in one group and day, of these levels, with anything in between that
leaves the two rows that protect the user alone. -/
inductive Granted (date : Date) (groupId userId : String) (db : Db) : List Nat → Db → Prop
  | start : Granted date groupId userId db [] db
  | grant {levels db₁ db₂} (hbefore : Granted date groupId userId db levels db₁) (e : Env)
      (req : GrantProtectionRequest) (response : GrantProtectionResponse)
      (hkey : req.protectDate = date ∧ req.groupId = groupId ∧ req.userId = userId)
      (hgrant : grantProtection e req db₁ = some (response, db₂)) :
      Granted date groupId userId db (levels ++ [req.level]) db₂
  | other {levels db₁ db₂} (hbefore : Granted date groupId userId db levels db₁)
      (hown : db₂.protection? date groupId userId = db₁.protection? date groupId userId)
      (hglobal : db₂.protection? date allGroups userId = db₁.protection? date allGroups userId) :
      Granted date groupId userId db levels db₂

theorem Granted.level (h : Granted date groupId userId db levels db') :
    (checkProtected date groupId userId db').level =
      max (checkProtected date groupId userId db).level (levels.toFinset.sup id) := by
  induction h with
  | start => simp
  | grant hbefore e req response hkey hgrant ih =>
      obtain ⟨rfl, rfl, rfl⟩ := hkey
      rw [(grantProtection_effect hgrant).1, ih, max_assoc]
      congr 1
      simp [List.toFinset_append, max_comm]
  | other hbefore hown hglobal ih =>
      rw [← ih]
      unfold checkProtected protectingRow?
      rw [hown, hglobal]

/-- **Grants report the maximum.**  An accepted grant leaves the greater of the level in force
and the granted one, says whether that was a rise, and keeps every source but the manual one;
and after any sequence of grants the level is the maximum of all of them and the first. -/
theorem grants_report_maximum :
    (∀ e req db response db', grantProtection e req db = some (response, db') →
      (checkProtected req.protectDate req.groupId req.userId db').level =
          max (checkProtected req.protectDate req.groupId req.userId db).level req.level ∧
        response.level = (checkProtected req.protectDate req.groupId req.userId db').level ∧
        (response.changed = true ↔
          (checkProtected req.protectDate req.groupId req.userId db).level < req.level) ∧
        ∀ source, source ≠ .manual →
          sourceLevel req.protectDate req.groupId req.userId db' source =
            sourceLevel req.protectDate req.groupId req.userId db source) ∧
      ∀ date groupId userId db levels db', Granted date groupId userId db levels db' →
        (checkProtected date groupId userId db').level =
          max (checkProtected date groupId userId db).level (levels.toFinset.sup id) :=
  ⟨fun _ _ _ _ _ h => grantProtection_effect h, fun _ _ _ _ _ _ h => h.level⟩

/-- A protection of this level for user 2 in group 7. -/
def grantedOf (level : Nat) : GrantProtectionRequest :=
  { scriptGrant with
    level := min 5 (max 1 level)
    level_pos := by omega
    level_le := by omega }

/-- What such a grant leaves of the database. -/
def grantedDb (level : Nat) (db : Db) : Db :=
  ((grantProtection (scriptEnv 0 (739000 * dayMicros)) (grantedOf level) db).map (·.2)).getD db

theorem grantedDb_granted (level : Nat) (h : Granted 739000 "7" "2" db levels db')
    (haccepted : (grantProtection (scriptEnv 0 (739000 * dayMicros)) (grantedOf level)
      db').isSome = true) :
    Granted 739000 "7" "2" db (levels ++ [min 5 (max 1 level)]) (grantedDb level db') := by
  obtain ⟨⟨response, left⟩, hgrant⟩ := Option.isSome_iff_exists.mp haccepted
  have hleft : grantedDb level db' = left := by simp [grantedDb, hgrant]
  rw [hleft]
  exact .grant h _ (grantedOf level) response ⟨rfl, rfl, rfl⟩ hgrant

/-- Three grants, of which the second is the highest. -/
theorem grants_report_maximum_three :
    (checkProtected 739000 "7" "2" (grantedDb 3 (grantedDb 4 (grantedDb 2 {})))).level = 4 ∧
      ∃ response db', grantProtection (scriptEnv 0 (739000 * dayMicros)) (grantedOf 4)
          (grantedDb 2 {}) = some (response, db') ∧
        response.changed = true ∧ (checkProtected 739000 "7" "2" db').level = 4 := by
  have hfirst : Granted 739000 "7" "2" {} [2] (grantedDb 2 {}) :=
    grantedDb_granted 2 .start (by decide +kernel)
  have hsecond : Granted 739000 "7" "2" {} [2, 4] (grantedDb 4 (grantedDb 2 {})) :=
    grantedDb_granted 4 hfirst (by decide +kernel)
  have hthird : Granted 739000 "7" "2" {} [2, 4, 3] (grantedDb 3 (grantedDb 4 (grantedDb 2 {}))) :=
    grantedDb_granted 3 hsecond (by decide +kernel)
  refine ⟨(grants_report_maximum.2 _ _ _ _ _ _ hthird).trans (by decide +kernel), ?_⟩
  have haccepted : (grantProtection (scriptEnv 0 (739000 * dayMicros)) (grantedOf 4)
      (grantedDb 2 {})).isSome = true := by decide +kernel
  obtain ⟨⟨response, db'⟩, hgrant⟩ := Option.isSome_iff_exists.mp haccepted
  obtain ⟨hlevel, -, hchanged, -⟩ := grants_report_maximum.1 _ _ _ _ _ hgrant
  exact ⟨response, db', hgrant, hchanged.mpr (by decide +kernel),
    hlevel.trans (by decide +kernel)⟩

end RollPig
