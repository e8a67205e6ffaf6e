/-
The rows keep the books.

A row has one success count and a baseline for each source; the account it stands for has
a count of its own for each source (`openAccount`).  A source that begins is given the count
of that moment, a source that moves takes its baseline along, and no baseline ever lies
ahead of the count, so each rewrite of a row is the rewrite of its account, and a run of
the service is a run of the books (`books_refined`).
-/
import RollPig.Accounts
import RollPig.Proofs.RowSteps
import RollPig.Proofs.Script
import RollPig.Proofs.Worlds

namespace RollPig

open Counters Transition

variable {e : Env} {db db' : Db} {w w' w₀ : World} {event : Event} {events : List Event}
  {row : GroupProtection} {k : Date × String × String}

/-! ### The account of a row -/

/-- The count of a row, and what its sources remember. -/
def sharedCount (row : GroupProtection) : Shared Source :=
  { count := row.roastSuccessCount, standing := standing row }

/-- The account a row stands for. -/
def openAccount (row : GroupProtection) : Account :=
  { ledger := (sharedCount row).ledger, days := row.consecutiveDays }

theorem openAccount_levels (row : GroupProtection) :
    (openAccount row).levels = protectionLevels row := by
  funext source
  rw [protectionLevels_eq]
  show ((standing row source).map _).map _ = _
  rw [Option.map_map]
  rfl

@[simp] theorem openAccount_level (row : GroupProtection) :
    (openAccount row).level = protectionLevel row :=
  congrArg Levels.highest (openAccount_levels row)

theorem openAccount_isSome (row : GroupProtection) (source : Source) :
    ((openAccount row).ledger source).isSome = (protectionSources row source).isSome := by
  rw [← standing_isSome]
  exact Option.isSome_map

theorem openAccount_historical (row : GroupProtection) :
    (openAccount row).Historical ↔ isHistoricalDailyProtection row = true := by
  rw [isHistoricalDailyProtection_iff]
  unfold Account.Historical
  rw [openAccount_isSome, ← Option.not_isSome_iff_eq_none, openAccount_isSome,
    Option.not_isSome_iff_eq_none]
  rfl

/-! ### What the rewrites do to the count -/

theorem sharedCount_granted (req : GrantProtectionRequest) (row : GroupProtection) :
    sharedCount (grantedRow req row) =
      if (protectionLevels row .manual).getD 0 < req.level then
        (sharedCount row).grant .manual req.level
      else sharedCount row := by
  have hstanding : standing (grantedRow req row) = fun source =>
      if source = .manual ∧ (protectionLevels row .manual).getD 0 < req.level then
        some (req.level, row.roastSuccessCount)
      else standing row source := funext (grantedRow_standing req row)
  unfold sharedCount
  rw [hstanding]
  by_cases hraises : (protectionLevels row .manual).getD 0 < req.level
  · rw [if_pos hraises]
    simp only [hraises, and_true]
    rfl
  · rw [if_neg hraises]
    simp only [hraises, and_false, if_false]
    rfl

theorem sharedCount_firstGrant (req : GrantProtectionRequest) :
    sharedCount (firstGrant req) = Shared.empty.grant .manual req.level := by
  unfold sharedCount
  rw [funext (firstGrant_standing req)]
  rfl

theorem sharedCount_inherit (row : GroupProtection) (groupId : String) :
    sharedCount (inheritGlobalProtection row groupId) =
      Shared.empty.grant .legacy (protectionLevel row) := by
  unfold sharedCount
  rw [funext (inheritGlobalProtection_standing row groupId)]
  rfl

theorem sharedCount_historical (req : ReplaceGroupProtectionsRequest)
    (yesterday : Option GroupProtection) (userId : String)
    (hhistorical : isHistoricalDailyProtection row = true) :
    sharedCount (dailyRow req yesterday userId (some row)) =
      (sharedCount row).move .legacy .daily := by
  obtain ⟨-, hcount⟩ := dailyRow_frame req yesterday userId (some row)
  unfold sharedCount
  rw [funext (dailyRow_historical req yesterday userId hhistorical), hcount]
  rfl

theorem sharedCount_fresh (req : ReplaceGroupProtectionsRequest)
    (yesterday : Option GroupProtection) (userId : String)
    (hfresh : ¬ isHistoricalDailyProtection row = true) :
    sharedCount (dailyRow req yesterday userId (some row)) =
      (sharedCount row).grant .daily (dailyLevel req yesterday) := by
  obtain ⟨-, hcount⟩ := dailyRow_frame req yesterday userId (some row)
  unfold sharedCount
  rw [funext (dailyRow_fresh req yesterday userId hfresh), hcount]
  rfl

theorem sharedCount_new (req : ReplaceGroupProtectionsRequest)
    (yesterday : Option GroupProtection) (userId : String) :
    sharedCount (dailyRow req yesterday userId none) =
      Shared.empty.grant .daily (dailyLevel req yesterday) := by
  unfold sharedCount
  rw [funext (dailyRow_new req yesterday userId)]
  rfl

/-- What a user off the roster keeps of the count. -/
def keptCount (row : GroupProtection) (legacy : Option GroupProtection) : Shared Source :=
  let kept := (sharedCount row).drop .daily
  let kept := if isHistoricalDailyProtection row then kept.drop .legacy else kept
  match legacy with
  | none => kept.drop .legacy
  | some legacy =>
      if ((kept.ledger .legacy).map (Entry.level 5)).getD 0 < protectionLevel legacy then
        kept.grant .legacy (protectionLevel legacy)
      else kept

theorem keptCount_count (row : GroupProtection) (legacy : Option GroupProtection) :
    (keptCount row legacy).count = row.roastSuccessCount := by
  unfold keptCount
  cases legacy <;> dsimp only <;> split_ifs <;> rfl

theorem keptCount_standing (row : GroupProtection) (legacy : Option GroupProtection)
    (source : Source) : (keptCount row legacy).standing source = keptStanding row legacy source := by
  cases legacy with
  | none =>
      unfold keptCount keptStanding
      dsimp only
      split_ifs <;> cases source <;> rfl
  | some legacy =>
      -- what the import compares is the level of the legacy source, if that one stays
      have hlevel : ((if isHistoricalDailyProtection row = true then
            ((sharedCount row).drop .daily).drop .legacy
          else (sharedCount row).drop .daily).ledger .legacy).map (Entry.level 5) =
          if isHistoricalDailyProtection row = true then none else protectionLevels row .legacy := by
        split_ifs
        · rfl
        · exact congrFun (openAccount_levels row) .legacy
      unfold keptCount keptStanding
      dsimp only
      rw [hlevel, apply_ite (fun level : Option Nat => level.getD 0), Option.getD_none]
      split_ifs <;> cases source <;> rfl

theorem sharedCount_kept {legacy : Option GroupProtection} {kept : GroupProtection}
    (h : keptRow row legacy = some kept) : sharedCount kept = keptCount row legacy := by
  obtain ⟨-, hcount⟩ := keptRow_frame h
  show Shared.mk kept.roastSuccessCount (standing kept) =
    Shared.mk (keptCount row legacy).count (keptCount row legacy).standing
  rw [keptCount_count, hcount, funext (keptRow_standing h), funext (keptCount_standing row legacy)]

/-! ### The rewrites of an account -/

theorem openAccount_granted (req : GrantProtectionRequest) (row : GroupProtection) :
    openAccount (grantedRow req row) = (openAccount row).grant req.level := by
  unfold Account.grant
  rw [openAccount_levels]
  show Account.mk (sharedCount (grantedRow req row)).ledger row.consecutiveDays = _
  rw [sharedCount_granted]
  split_ifs
  · rw [Shared.ledger_grant]
    rfl
  · rfl

theorem openAccount_firstGrant (req : GrantProtectionRequest) :
    openAccount (firstGrant req) = ({} : Account).grant req.level := by
  have hnone : ({} : Account).levels .manual = none := rfl
  unfold Account.grant
  rw [hnone, Option.getD_none, if_pos (show 0 < req.level from req.level_pos)]
  show Account.mk (sharedCount (firstGrant req)).ledger 0 = _
  rw [sharedCount_firstGrant, Shared.ledger_grant]
  rfl

theorem openAccount_inherit (row : GroupProtection) (groupId : String) :
    openAccount (inheritGlobalProtection row groupId) = (openAccount row).inherit := by
  unfold Account.inherit
  rw [openAccount_level]
  show Account.mk (sharedCount (inheritGlobalProtection row groupId)).ledger 0 = _
  rw [sharedCount_inherit, Shared.ledger_grant]
  rfl

theorem openAccount_raised (h : (sharedCount row).Counted) :
    openAccount { row with roastSuccessCount := row.roastSuccessCount + 1 } =
      (openAccount row).raise := by
  show Account.mk (sharedCount row).raise.ledger row.consecutiveDays = _
  rw [Shared.ledger_raise h]
  rfl

theorem dailyRow_days (req : ReplaceGroupProtectionsRequest) (yesterday : Option GroupProtection)
    (userId : String) (start : Option GroupProtection)
    (hfresh : ∀ row, start = some row → ¬ isHistoricalDailyProtection row = true) :
    (dailyRow req yesterday userId start).consecutiveDays = previousDays yesterday + 1 := by
  have hdays : (if previousDays yesterday ≠ 0 then previousDays yesterday + 1 else 1) =
      previousDays yesterday + 1 := by
    split_ifs <;> omega
  rw [← hdays]
  cases start with
  | none => rfl
  | some row =>
      have hrecent := hfresh row rfl
      unfold dailyRow
      simp only [hrecent]
      rfl

theorem openAccount_listed (req : ReplaceGroupProtectionsRequest)
    (yesterday : Option GroupProtection) (userId : String) (start : Option GroupProtection) :
    openAccount (listedRow req yesterday userId start) =
      ((start.map openAccount).getD {}).enlist req.initialLevel (previousDays yesterday) := by
  cases start with
  | none =>
      have hdays := dailyRow_days req yesterday userId none (by simp)
      show Account.mk (sharedCount (dailyRow req yesterday userId none)).ledger
        (dailyRow req yesterday userId none).consecutiveDays = _
      rw [sharedCount_new, Shared.ledger_grant, dailyLevel_eq, hdays]
      rfl
  | some row =>
      rw [Option.map_some, Option.getD_some]
      unfold listedRow Account.enlist
      dsimp only
      by_cases hdaily : (protectionSources row .daily).isSome = true
      · rw [if_pos hdaily, if_pos ((openAccount_isSome row .daily).trans hdaily)]
      · rw [if_neg hdaily, if_neg (by rwa [openAccount_isSome])]
        by_cases hhistorical : isHistoricalDailyProtection row = true
        · have hdays : (dailyRow req yesterday userId (some row)).consecutiveDays =
              row.consecutiveDays := by simp [dailyRow, hhistorical]
          rw [if_pos ((openAccount_historical row).mpr hhistorical)]
          show Account.mk (sharedCount (dailyRow req yesterday userId (some row))).ledger
            (dailyRow req yesterday userId (some row)).consecutiveDays = _
          rw [sharedCount_historical req yesterday userId hhistorical, Shared.ledger_move, hdays]
          rfl
        · have hdays := dailyRow_days req yesterday userId (some row) fun other hother =>
            Option.some.inj hother ▸ hhistorical
          rw [if_neg (mt (openAccount_historical row).mp hhistorical)]
          show Account.mk (sharedCount (dailyRow req yesterday userId (some row))).ledger
            (dailyRow req yesterday userId (some row)).consecutiveDays = _
          rw [sharedCount_fresh req yesterday userId hhistorical, Shared.ledger_grant,
            dailyLevel_eq, hdays]
          rfl

theorem openAccount_lasting (row : GroupProtection) (legacy : Option GroupProtection) :
    (openAccount row).lasting (legacy.map openAccount) = (keptCount row legacy).ledger := by
  have hkept : (if (openAccount row).Historical then
        ((openAccount row).ledger.drop .daily).drop .legacy
      else (openAccount row).ledger.drop .daily) =
      (if isHistoricalDailyProtection row = true then ((sharedCount row).drop .daily).drop .legacy
      else (sharedCount row).drop .daily).ledger := by
    by_cases hhistorical : isHistoricalDailyProtection row = true
    · rw [if_pos ((openAccount_historical row).mpr hhistorical), if_pos hhistorical,
        Shared.ledger_drop, Shared.ledger_drop]
      rfl
    · rw [if_neg (mt (openAccount_historical row).mp hhistorical), if_neg hhistorical,
        Shared.ledger_drop]
      rfl
  unfold Account.lasting keptCount
  dsimp only
  rw [hkept]
  cases legacy with
  | none => exact Shared.ledger_drop.symm
  | some legacy =>
      simp only [Option.map_some, openAccount_level]
      split_ifs <;> simp only [Shared.ledger_grant]

/-- Who leaves the roster keeps the row exactly as long as the account has a source. -/
theorem openAccount_kept (row : GroupProtection) (legacy : Option GroupProtection) :
    (keptRow row legacy).map openAccount = (openAccount row).leave (legacy.map openAccount) := by
  have hsource : ∀ source, ((openAccount row).lasting (legacy.map openAccount) source).isNone =
      ((keptSources row legacy).1 source).isNone := by
    intro source
    rw [openAccount_lasting]
    show (((keptCount row legacy).standing source).map _).isNone = _
    rw [keptCount_standing, ← keptSources_standing]
    cases (keptSources row legacy).1 source <;> rfl
  have hempty : (sourceOrder.all fun source =>
      ((openAccount row).lasting (legacy.map openAccount) source).isNone) =
      (keptSources row legacy).1.isEmpty := by
    rw [Bool.eq_iff_iff, Levels.isEmpty_iff, List.all_eq_true]
    simp only [hsource, Option.isNone_iff_eq_none]
    refine ⟨fun h source => h source ?_, fun h source _ => h source⟩
    cases source <;> simp [sourceOrder]
  unfold Account.leave
  rw [hempty]
  cases hkept : keptRow row legacy with
  | none =>
      unfold keptRow at hkept
      dsimp only at hkept
      split_ifs at hkept with hnone
      rw [if_pos hnone]
      rfl
  | some kept =>
      have hcount := sharedCount_kept hkept
      unfold keptRow at hkept
      dsimp only at hkept
      split_ifs at hkept with hnone
      rw [if_neg hnone, openAccount_lasting, ← hcount]
      obtain rfl := Option.some.inj hkept
      rfl

/-! ### The level in force -/

theorem Account.level_highest (account : Account) : account.ledger.IsHighest 5 account.level := by
  refine ⟨fun source entry hentry => ?_, ?_⟩
  · have hle := Levels.le_highest account.levels source
    have hlevel : account.levels source = some (entry.level 5) := by
      unfold Account.levels
      rw [hentry, Option.map_some]
    rwa [hlevel] at hle
  · obtain ⟨source, hsource⟩ := Levels.highest_attained account.levels
    cases hentry : account.ledger source with
    | some entry =>
        refine Or.inl ⟨source, entry, hentry, ?_⟩
        unfold Account.level
        rw [← hsource]
        unfold Account.levels
        rw [hentry]
        rfl
    | none =>
        refine Or.inr ?_
        unfold Account.level
        rw [← hsource]
        unfold Account.levels
        rw [hentry]
        rfl

/-! ### The books of the service -/

/-- The accounts the stored rows stand for. -/
def openBooks (db : Db) : Books := fun k => (db.rowAt k).map openAccount

open Classical in
/-- What a step enters in the books.  The tables are asked whether a result is the first one
of its round, and whether a prepare or a reply went so far as to open an account; counts,
levels and baselines come from the books alone. -/
noncomputable def Books.after (event : Event) (db db' : Db) (books : Books) : Books := fun k =>
  match event.action with
  | .reconcile _ => books k
  | .request r _ =>
      match r with
      | .grant req =>
          if (req.protectDate, req.groupId, req.userId) = k ∧
              req.protectDate = rollpigToday event.env.now then
            some (books.granted k req.level)
          else books k
      | .replaceGroup req =>
          if req.protectDate = k.1 ∧ req.groupId = k.2.1 then
            books.listed k req.initialLevel (k.2.2 ∈ normalizedIds req.userIds)
          else books k
      | .prepareOutcome req =>
          if (Request.prepareOutcome req).scores db k then (books k).map Account.raise else books k
      | .prepare _ | .joinByMessage _ =>
          if (books k).isNone ∧ (db'.rowAt k).isSome then (books.globalOf k).map Account.inherit
          else books k
      | _ => books k

/-- The service with the books beside it. -/
def ledgered : System (World × Books) Event where
  init s := service.init s.1 ∧ s.2 = fun _ => none
  step s event s' := service.step s.1 event s'.1 ∧ s'.2 = s.2.after event s.1.db s'.1.db

theorem openBooks_globalOf (db : Db) (k : Date × String × String) :
    (openBooks db).globalOf k = (globalProtection? db k.1 k.2.1 k.2.2).map openAccount := by
  unfold Books.globalOf globalProtection?
  split_ifs
  · rw [rowAt_eq]
    rfl
  · rfl

theorem openBooks_ownOrInherited (db : Db) (k : Date × String × String) :
    (openBooks db).ownOrInherited k = (ownOrInherited db k.1 k.2.1 k.2.2).map openAccount := by
  have hbooks : openBooks db k = (db.rowAt k).map openAccount := rfl
  unfold Books.ownOrInherited ownOrInherited
  rw [openBooks_globalOf, rowAt_eq, hbooks]
  cases hown : db.rowAt k with
  | some row => rfl
  | none =>
      unfold globalProtection?
      by_cases hgroup : k.2.1 ≠ allGroups
      · rw [if_pos hgroup]
        simp [Option.map_map, Function.comp_def, openAccount_inherit]
      · have hglobal : db.protection? k.1 allGroups k.2.2 = none := by
          rw [rowAt_eq, ← not_not.mp hgroup]
          exact hown
        rw [if_neg hgroup, hglobal]
        rfl

theorem openBooks_daysOf (db : Db) (k : Date × String × String) :
    (openBooks db).daysOf k = previousDays (db.rowAt k) := by
  unfold Books.daysOf openBooks previousDays
  cases db.rowAt k <;> rfl

theorem startingRow_eq (req : ReplaceGroupProtectionsRequest) (db : Db) (userId : String) :
    startingRow req db userId = ownOrInherited db req.protectDate req.groupId userId := by
  unfold startingRow ownOrInherited globalProtection?
  cases hown : db.protection? req.protectDate req.groupId userId with
  | some row => rfl
  | none =>
      by_cases hgroup : req.groupId ≠ allGroups
      · rw [if_pos hgroup]
      · rw [if_neg hgroup, ← not_not.mp hgroup, hown]

/-! ### One step -/

theorem openAccount_grantedOr (req : GrantProtectionRequest) (row : Option GroupProtection) :
    openAccount (grantedOr req row) = ((row.map openAccount).getD {}).grant req.level := by
  cases row with
  | some row => exact openAccount_granted req row
  | none => exact openAccount_firstGrant req

theorem openAccount_roster (req : ReplaceGroupProtectionsRequest) (db : Db) (userId : String) :
    (rosterRow req db userId).map openAccount =
      (openBooks db).listed (req.protectDate, req.groupId, userId) req.initialLevel
        (userId ∈ normalizedIds req.userIds) := by
  unfold rosterRow Books.listed
  by_cases huser : userId ∈ normalizedIds req.userIds
  · rw [if_pos huser, if_pos huser, openBooks_ownOrInherited, ← startingRow_eq, Option.map_some,
      openAccount_listed, rowAt_eq, openBooks_daysOf]
  · rw [if_neg huser, if_neg huser, openBooks_globalOf, rowAt_eq]
    unfold openBooks
    cases db.rowAt (req.protectDate, req.groupId, userId) with
    | none => rfl
    | some row => exact openAccount_kept row _

theorem openBooks_none (h : db.rowAt k = none) : openBooks db k = none := by
  unfold openBooks
  rw [h]
  rfl

/-- An account that is there is not opened again. -/
theorem openBooks_opens (h : db'.rowAt k = db.rowAt k) :
    ¬ ((openBooks db k).isNone ∧ (db'.rowAt k).isSome) := by
  rintro ⟨hnone, hsome⟩
  unfold openBooks at hnone
  rw [h] at hsome
  cases hrow : db.rowAt k <;> simp [hrow] at hnone hsome

/-- What stays as it was is entered nowhere. -/
theorem Request.Aside.books {r : Request} {view : List DailyRoll}
    (haside : r.Aside event.env db k) (haction : event.action = .request r view)
    (hsame : db'.rowAt k = db.rowAt k) :
    (openBooks db).after event db db' k = openBooks db k := by
  unfold Books.after
  rw [haction]
  cases r with
  | grant req => exact if_neg fun hboth => haside.grants ⟨req, rfl, hboth⟩
  | replaceGroup req => exact if_neg fun hboth => haside.replaces ⟨req, rfl, hboth⟩
  | prepareOutcome req =>
      dsimp only
      rcases haside.scores with hnone | hquiet
      · rw [openBooks_none hnone]
        split_ifs <;> rfl
      · exact if_neg hquiet
  | prepare req => exact if_neg (openBooks_opens hsame)
  | joinByMessage req => exact if_neg (openBooks_opens hsame)
  | _ => rfl

/-- A row copied from the global one opens an account. -/
theorem inherited_books {r : Request} {view : List DailyRoll} {legacy : GroupProtection}
    (hopens : r.opens) (haction : event.action = .request r view)
    (hglobal : db.protection? k.1 allGroups k.2.2 = some legacy) (hnone : db.rowAt k = none)
    (hstored : db'.rowAt k = some (inheritGlobalProtection legacy k.2.1)) :
    (openBooks db).after event db db' k =
      some (openAccount (inheritGlobalProtection legacy k.2.1)) := by
  have hgroup : k.2.1 ≠ allGroups := by
    intro hall
    rw [rowAt_eq, ← hall, hnone] at hglobal
    exact absurd hglobal (by simp)
  have haccount : (openBooks db).globalOf k = some (openAccount legacy) := by
    rw [openBooks_globalOf]
    unfold globalProtection?
    rw [if_pos hgroup, hglobal]
    rfl
  have hinherits : ((openBooks db).globalOf k).map Account.inherit =
      some (openAccount (inheritGlobalProtection legacy k.2.1)) := by
    rw [haccount, openAccount_inherit]
    rfl
  have hfree : (openBooks db k).isNone ∧ (db'.rowAt k).isSome := by
    rw [openBooks_none hnone, hstored]
    exact ⟨rfl, rfl⟩
  unfold Books.after
  rw [haction]
  cases r with
  | prepare req => exact (if_pos hfree).trans hinherits
  | joinByMessage req => exact (if_pos hfree).trans hinherits
  | _ => exact absurd hopens id

/-- What becomes of a row is what becomes of its account. -/
theorem RowStep.books {r : Request} {view : List DailyRoll}
    (haction : event.action = .request r view)
    (h : RowStep event.env r db k (db'.rowAt k))
    (hcounted : ∀ row, db.rowAt k = some row → (sharedCount row).Counted) :
    openBooks db' k = (openBooks db).after event db db' k := by
  show (db'.rowAt k).map openAccount = _
  generalize hstored : db'.rowAt k = stored at h
  cases h with
  | same haside => exact (haside.books haction hstored).symm
  | inherited legacy hopens hglobal hnone =>
      exact (inherited_books hopens haction hglobal hnone hstored).symm
  | granted req hrequest hkey htoday =>
      subst hrequest hkey
      unfold Books.after
      rw [haction]
      dsimp only
      rw [if_pos ⟨rfl, htoday⟩, Option.map_some, openAccount_grantedOr]
      unfold Books.granted
      rw [openBooks_ownOrInherited]
  | replaced req hrequest hdate hgroup =>
      subst hrequest
      obtain ⟨date, groupId, userId⟩ := k
      obtain rfl : req.protectDate = date := hdate
      obtain rfl : req.groupId = groupId := hgroup
      unfold Books.after
      rw [haction]
      dsimp only
      rw [if_pos ⟨rfl, rfl⟩]
      exact openAccount_roster req db userId
  | counted row hrow hscores =>
      have hrequest := hscores
      obtain ⟨req, -, rfl, -⟩ := hrequest
      unfold Books.after
      rw [haction]
      dsimp only
      rw [if_pos hscores]
      unfold openBooks
      rw [hrow, Option.map_some, openAccount_raised (hcounted row hrow)]
      rfl

/-- The counts the sources remember have all been reached. -/
def Db.Counted (db : Db) : Prop :=
  ∀ k row, db.rowAt k = some row → (sharedCount row).Counted

theorem keptCount_counted (h : (sharedCount row).Counted) (legacy : Option GroupProtection) :
    (keptCount row legacy).Counted := by
  have hkept : (if isHistoricalDailyProtection row = true then
      ((sharedCount row).drop .daily).drop .legacy else (sharedCount row).drop .daily).Counted := by
    split_ifs
    · exact h.drop.drop
    · exact h.drop
  unfold keptCount
  cases legacy with
  | none => exact hkept.drop
  | some legacy =>
      dsimp only
      split_ifs at hkept ⊢
      · exact hkept.grant
      · exact hkept
      · exact hkept.grant
      · exact hkept

theorem listedRow_counted (req : ReplaceGroupProtectionsRequest)
    (yesterday : Option GroupProtection) (userId : String) {start : Option GroupProtection}
    (h : ∀ row, start = some row → (sharedCount row).Counted) :
    (sharedCount (listedRow req yesterday userId start)).Counted := by
  cases start with
  | none =>
      show (sharedCount (dailyRow req yesterday userId none)).Counted
      rw [sharedCount_new]
      exact Shared.Counted.empty.grant
  | some row =>
      have hrow := h row rfl
      unfold listedRow
      dsimp only
      split_ifs
      · exact hrow
      · by_cases hhistorical : isHistoricalDailyProtection row = true
        · rw [sharedCount_historical req yesterday userId hhistorical]
          exact hrow.move
        · rw [sharedCount_fresh req yesterday userId hhistorical]
          exact hrow.grant

theorem Db.Counted.ownOrInherited (h : db.Counted) {date : Date} {groupId userId : String}
    (hstart : RollPig.ownOrInherited db date groupId userId = some row) :
    (sharedCount row).Counted := by
  unfold RollPig.ownOrInherited at hstart
  rw [rowAt_eq, rowAt_eq] at hstart
  cases hown : db.rowAt (date, groupId, userId) with
  | some own =>
      rw [hown] at hstart
      obtain rfl := Option.some.inj hstart
      exact h _ own hown
  | none =>
      rw [hown] at hstart
      obtain ⟨legacy, -, rfl⟩ := Option.map_eq_some_iff.mp hstart
      rw [sharedCount_inherit]
      exact Shared.Counted.empty.grant

theorem RowStep.keepsCounted {r : Request} (h : RowStep e r db k (some row)) (hcounted : db.Counted) :
    (sharedCount row).Counted := by
  generalize hstored : some row = stored at h
  cases h with
  | same _ => exact hcounted k row hstored.symm
  | granted req _ _ _ =>
      obtain rfl := Option.some.inj hstored
      cases hstart : ownOrInherited db req.protectDate req.groupId req.userId with
      | none =>
          show (sharedCount (firstGrant req)).Counted
          rw [sharedCount_firstGrant]
          exact Shared.Counted.empty.grant
      | some start =>
          have hold := hcounted.ownOrInherited hstart
          show (sharedCount (grantedRow req start)).Counted
          rw [sharedCount_granted]
          split_ifs
          · exact hold.grant
          · exact hold
  | replaced req _ _ _ =>
      unfold rosterRow at hstored
      split_ifs at hstored
      · obtain rfl := Option.some.inj hstored
        refine listedRow_counted req _ _ fun start hstart => ?_
        rw [startingRow_eq] at hstart
        exact hcounted.ownOrInherited hstart
      · obtain ⟨own, hown, hkept⟩ := Option.bind_eq_some_iff.mp hstored.symm
        rw [rowAt_eq] at hown
        rw [sharedCount_kept hkept]
        exact keptCount_counted (hcounted _ own hown) _
  | inherited legacy _ _ _ =>
      obtain rfl := Option.some.inj hstored
      rw [sharedCount_inherit]
      exact Shared.Counted.empty.grant
  | counted old hold _ =>
      obtain rfl := Option.some.inj hstored
      exact (hcounted k old hold).raise

/-! ### Runs -/

/-- A step of the service is a step of the books. -/
theorem books_step (hunique : Tables.Unique protectionKey w.db.groupProtections)
    (hcounted : w.db.Counted) (hstep : service.step w event w') :
    openBooks w'.db = (openBooks w.db).after event w.db w'.db ∧ w'.db.Counted := by
  constructor
  · funext k
    rcases step_rowAt hunique hstep k with ⟨r, view, haction, hchange⟩ | ⟨⟨flight, haction⟩, hsame⟩
    · exact hchange.books haction fun row hrow => hcounted k row hrow
    · unfold Books.after openBooks
      rw [haction, hsame]
  · intro k row hrow
    rcases step_rowAt hunique hstep k with ⟨r, view, -, hchange⟩ | ⟨-, hsame⟩
    · rw [hrow] at hchange
      exact hchange.keepsCounted hcounted
    · exact hcounted k row (hsame ▸ hrow)

/-- **The rows refine the books.**  In every run each row gives for each source what the
source was granted and what it was raised by since, and the level in force is the highest
of these. -/
theorem books_refined (hsound : w₀.Sound)
    (hunique : Tables.Unique protectionKey w₀.db.groupProtections)
    (hcounted : ∀ row ∈ w₀.db.groupProtections, (sharedCount row).Counted)
    (hrun : Run service w₀ events w) :
    ∃ books, Run ledgered (w₀, openBooks w₀.db) events (w, books) ∧
      (∀ k, w.db.rowAt k = none ↔ books k = none) ∧
      ∀ row ∈ w.db.groupProtections, ∃ account,
        books (protectionKey row) = some account ∧
        (∀ source, protectionLevels row source = (account.ledger source).map (Entry.level 5)) ∧
        account.ledger.IsHighest 5 (protectionLevel row) := by
  have hinvariant : w.Sound ∧ Tables.Unique protectionKey w.db.groupProtections ∧
      w.db.Counted ∧ Run ledgered (w₀, openBooks w₀.db) events (w, openBooks w.db) := by
    induction hrun with
    | nil =>
        refine ⟨hsound, hunique, fun k row hrow => hcounted row (Tables.lookup_some hrow).1, Run.nil⟩
    | snoc hrun hstep ih =>
        obtain ⟨hsound, hunique, hcounted, hbooks⟩ := ih
        obtain ⟨hentered, hnext⟩ := books_step hunique hcounted hstep
        exact ⟨hsound.step hstep, hsound.step_protections hunique hstep, hnext,
          hbooks.snoc ⟨hstep, hentered⟩⟩
  obtain ⟨-, hkeys, -, hbooks⟩ := hinvariant
  refine ⟨openBooks w.db, hbooks, fun k => ?_, fun row hrow => ⟨openAccount row, ?_, ?_, ?_⟩⟩
  · unfold openBooks
    rw [Option.map_eq_none_iff]
  · unfold openBooks Db.rowAt
    rw [hkeys.lookup hrow]
    rfl
  · intro source
    exact (congrFun (openAccount_levels row) source).symm
  · rw [← openAccount_level]
    exact (openAccount row).level_highest

/-- User 2 was on the roster of group 7 before sources were recorded, and lost once. -/
def historicalWorld : World :=
  { db := { groupProtections := [
      { protectDate := 739000, groupId := "7", userId := "2", baseLevel := 1,
        roastSuccessCount := 1, consecutiveDays := 1 }] } }

/-- User 2 is put on the roster again. -/
def historicalScript : List (Time × Order) :=
  [(739000 * dayMicros, .request (.replaceGroup (scriptRoster "7" ["2"] 4)))]

theorem books_refined_historical :
    ∃ events w books, Run ledgered (historicalWorld, openBooks historicalWorld.db) events (w, books) ∧
      ∃ account, books (739000, "7", "2") = some account ∧
        (account.ledger .daily).map (Entry.level 5) = some 2 ∧
        (account.ledger .legacy).map (Entry.level 5) = none := by
  have hplayed : (play 0 historicalWorld historicalScript).isSome = true := by decide +kernel
  obtain ⟨⟨events, w⟩, hplay⟩ := Option.isSome_iff_exists.mp hplayed
  have hrun := play_run (by simp [historicalWorld]) (by simp [historicalWorld]) hplay
  have hstored : (w.db.groupProtections.map fun row =>
      (protectionKey row, protectionLevels row .daily, protectionLevels row .legacy)) =
        [((739000, "7", "2"), some 2, none)] := by
    have hcomputed : (play 0 historicalWorld historicalScript).map (fun played =>
        played.2.db.groupProtections.map fun row =>
          (protectionKey row, protectionLevels row .daily, protectionLevels row .legacy)) =
        some [((739000, "7", "2"), some 2, none)] := by decide +kernel
    rw [hplay] at hcomputed
    exact Option.some.inj hcomputed
  obtain ⟨row, hrow, hvalues⟩ := List.mem_map.mp
    (hstored ▸ List.mem_singleton_self ((739000, "7", "2"), some 2, none))
  obtain ⟨hkey, hdaily, hlegacy⟩ : protectionKey row = (739000, "7", "2") ∧
      protectionLevels row .daily = some 2 ∧ protectionLevels row .legacy = none := by
    simpa using hvalues
  obtain ⟨books, hbooks, -, hrows⟩ := books_refined
    ⟨⟨by simp [historicalWorld, Tables.Unique], by simp [historicalWorld, Tables.Unique],
      by simp [historicalWorld]⟩, by simp [historicalWorld],
      by simp [historicalWorld, Tables.Unique], by simp [historicalWorld, Committed],
      by simp [historicalWorld]⟩
    (by simp [historicalWorld, Tables.Unique])
    (by
      intro row hrow source entry hentry
      obtain rfl := List.mem_singleton.mp hrow
      unfold sharedCount standing at hentry
      obtain ⟨level, -, rfl⟩ := Option.map_eq_some_iff.mp hentry
      exact Nat.zero_le _)
    hrun
  obtain ⟨account, haccount, hlevels, -⟩ := hrows row hrow
  exact ⟨events, w, books, hbooks, account, hkey ▸ haccount, hlevels .daily ▸ hdaily,
    hlevels .legacy ▸ hlegacy⟩

end RollPig
