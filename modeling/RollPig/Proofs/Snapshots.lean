/-
What a roll answers is settled when it is drawn.

The roll of a user and date goes through at most three stages: none, drawn, and dressed by
the first client that reports an appearance.  Its growth is written when it is drawn and
never again.  The lookup of a drawn roll reads these columns only, so progress, collections
and streaks that move on do not show in it.
-/
import RollPig.Proofs.Footprints
import RollPig.Proofs.Worlds
import RollPig.Proofs.Script

namespace RollPig

open Transition

variable {e : Env} {db db' : Db} {w w' : World} {event : Event} {events : List Event}
  {roll roll' : DailyRoll} {date : Date} {userId : String} {req : DailyRollSnapshotRequest}

/-! ### What a lookup tells -/

/-- The part of a lookup that is settled when the roll is drawn. -/
structure RollOutcome where
  pigId : Option String
  isMakeup : Bool
  isNewPig : Bool
  previousCopies : Int
  copies : Int
  previousExpertLevel : Int
  expertLevel : Int
  previousDuplicateStreak : Int
  duplicateStreak : Int
  collectionSizeAfterRoll : Option Int
deriving DecidableEq

def DailyRollLookupResponse.outcome (response : DailyRollLookupResponse) : RollOutcome :=
  { pigId := response.pigId, isMakeup := response.isMakeup, isNewPig := response.isNewPig,
    previousCopies := response.previousCopies, copies := response.copies,
    previousExpertLevel := response.previousExpertLevel, expertLevel := response.expertLevel,
    previousDuplicateStreak := response.previousDuplicateStreak,
    duplicateStreak := response.duplicateStreak,
    collectionSizeAfterRoll := response.outcomeSnapshot.map (·.collectionSizeAfterRoll) }

/-- The resource version and the resolved appearance, when they are available. -/
abbrev Appearance := String × SnapshotPayload

def DailyRollLookupResponse.appearance (response : DailyRollLookupResponse) : Option Appearance :=
  match response.outcomeSnapshot with
  | some snapshot =>
      if snapshot.snapshotAvailable then
        some (snapshot.resourceVersion,
          { resolvedVariantLevel := snapshot.resolvedVariantLevel
            resolvedImageName := snapshot.resolvedImageName
            unlockedVariantLevels := snapshot.unlockedVariantLevels
            unlockedVariantFields := snapshot.unlockedVariantFields })
      else none
  | none => none

/-! ### Drawn and dressed -/

/-- A roll with its growth, and no appearance yet. -/
structure DailyRoll.Drawn (roll : DailyRoll) : Prop where
  growth : roll.growthSnapshotAvailable = true
  levels : roll.previousExpertLevel.isSome = true ∧ roll.expertLevelAfterRoll.isSome = true
  version : roll.resourceVersion = none
  appearance : roll.appearanceSnapshot = none ∨
    roll.appearanceSnapshot = some { isMakeup := true, payload := none }

/-- The roll with the appearance of a request. -/
def DailyRoll.dress (roll : DailyRoll) (req : DailyRollSnapshotRequest) : DailyRoll :=
  { roll with
    resourceVersion := some req.resourceVersion
    appearanceSnapshot := some { isMakeup := roll.isMakeup, payload := some (snapshotPayload req) } }

/-- The appearance a request reports. -/
def DailyRollSnapshotRequest.appearance (req : DailyRollSnapshotRequest) : Appearance :=
  (req.resourceVersion, snapshotPayload req)

/-- What the lookup of a drawn roll tells. -/
def DailyRoll.outcome (roll : DailyRoll) : RollOutcome :=
  (buildLookupResponse {} (some roll) false).outcome

theorem DailyRoll.Drawn.outcome (h : roll.Drawn) (db : Db) (created : Bool) :
    (buildLookupResponse db (some roll) created).outcome = roll.outcome ∧
      (buildLookupResponse db (some roll) created).appearance = none := by
  have hgrowth := h.growth
  have hsnapshot : (frozenOutcome roll).snapshotAvailable = false := by
    unfold frozenOutcome
    rw [h.version]
    cases roll.appearanceSnapshot <;> rfl
  unfold DailyRoll.outcome buildLookupResponse
  dsimp only
  rw [if_pos hgrowth, if_pos hgrowth]
  refine ⟨rfl, ?_⟩
  show (if (frozenOutcome roll).snapshotAvailable = true then _ else none) = none
  rw [hsnapshot]
  rfl

theorem DailyRoll.Drawn.dressed (h : roll.Drawn) (req : DailyRollSnapshotRequest) (db : Db)
    (created : Bool) :
    (buildLookupResponse db (some (roll.dress req)) created).outcome = roll.outcome ∧
      (buildLookupResponse db (some (roll.dress req)) created).appearance =
        some req.appearance := by
  have hgrowth := h.growth
  have hdressed : (roll.dress req).growthSnapshotAvailable = true := hgrowth
  have hfrozen : frozenOutcome (roll.dress req) =
      { snapshotAvailable := true, collectionSizeAfterRoll := roll.collectionSizeAfterRoll.getD 0,
        resourceVersion := req.resourceVersion,
        resolvedVariantLevel := req.resolvedVariantLevel,
        resolvedImageName := req.resolvedImageName,
        unlockedVariantLevels := req.unlockedVariantLevels,
        unlockedVariantFields := req.unlockedVariantFields } := by
    unfold frozenOutcome DailyRoll.dress
    dsimp only
    rw [Option.getD_some, if_neg req.resourceVersion_ne]
    rfl
  have hsize : (frozenOutcome roll).collectionSizeAfterRoll =
      roll.collectionSizeAfterRoll.getD 0 := by
    unfold frozenOutcome
    rw [h.version]
    cases roll.appearanceSnapshot <;> rfl
  unfold DailyRoll.outcome buildLookupResponse
  dsimp only
  rw [if_pos hgrowth, if_pos hdressed, hfrozen]
  refine ⟨?_, rfl⟩
  unfold DailyRollLookupResponse.outcome
  simp [hsize, DailyRoll.dress, DailyRoll.isMakeup]

/-! ### One roll in one step -/

/-- The appearance a roll was dressed with. -/
def DailyRoll.wearing (roll : DailyRoll) : Option Appearance :=
  match roll.resourceVersion, roll.appearanceSnapshot.bind (·.payload) with
  | some version, some payload => some (version, payload)
  | _, _ => none

/-- The appearance an event reported of a roll and got accepted. -/
def Event.report (event : Event) (date : Date) (userId : String) : Option Appearance :=
  match event.action, event.response with
  | .request (.snapshot req) _, .snapshot _ =>
      if req.dateStr = date ∧ req.userId = userId then some req.appearance else none
  | _, _ => none

/-- What an event does to the roll of a user and date. -/
inductive RollTurn (report : Option Appearance) : Option DailyRoll → Option DailyRoll → Prop
  | same {now : Option DailyRoll}
      (hreport : ∀ r, report = some r → ∃ roll, now = some roll ∧ roll.wearing = some r) :
      RollTurn report now now
  | drawn {roll : DailyRoll} (hdrawn : roll.Drawn) (hreport : report = none) :
      RollTurn report none (some roll)
  | dressed {roll : DailyRoll} {req : DailyRollSnapshotRequest}
      (hbare : roll.resourceVersion = none) (hreport : report = some req.appearance) :
      RollTurn report (some roll) (some (roll.dress req))

theorem dailyRoll?_lookup (db : Db) (date : Date) (userId : String) :
    db.dailyRoll? date userId = Tables.lookup rollKey db.dailyRolls (date, userId) := by
  unfold Db.dailyRoll? Tables.lookup rollKey
  congr 1
  funext roll
  simp [Prod.ext_iff]

theorem RollTurn.of_rolls {report : Option Appearance} (hrolls : db'.dailyRolls = db.dailyRolls)
    (hreport : report = none) (date : Date) (userId : String) :
    RollTurn report (db.dailyRoll? date userId) (db'.dailyRoll? date userId) := by
  have hsame : db'.dailyRoll? date userId = db.dailyRoll? date userId := by
    unfold Db.dailyRoll?
    rw [hrolls]
  rw [hsame]
  exact .same fun r hr => absurd (hreport.symm.trans hr) (by simp)

/-- Inserting a drawn roll under a free key. -/
theorem RollTurn.of_insert {report : Option Appearance} (hdrawn : roll.Drawn)
    (hfree : db.dailyRoll? roll.dateStr roll.userId = none)
    (hrolls : db'.dailyRolls = db.dailyRolls ++ [roll]) (hreport : report = none) (date : Date)
    (userId : String) :
    RollTurn report (db.dailyRoll? date userId) (db'.dailyRoll? date userId) := by
  rw [dailyRoll?_lookup] at hfree
  rw [dailyRoll?_lookup, dailyRoll?_lookup, hrolls,
    Tables.lookup_insert (Tables.lookup_none.mp hfree)]
  by_cases hkey : (date, userId) = rollKey roll
  · rw [if_pos hkey]
    have hnone : Tables.lookup rollKey db.dailyRolls (date, userId) = none := hkey ▸ hfree
    rw [hnone]
    exact .drawn hdrawn hreport
  · rw [if_neg hkey]
    exact .same fun r hr => absurd (hreport.symm.trans hr) (by simp)

theorem createDailyRoll_drawn (e : Env) (roll : DailyRoll) (db : Db)
    (hversion : roll.resourceVersion = none)
    (happearance : roll.appearanceSnapshot = none ∨
      roll.appearanceSnapshot = some { isMakeup := true, payload := none }) :
    (createDailyRoll e roll db).1.Drawn ∧
      (createDailyRoll e roll db).2.dailyRolls =
        db.dailyRolls ++ [(createDailyRoll e roll db).1] := by
  refine ⟨⟨rfl, ⟨rfl, rfl⟩, hversion, happearance⟩, ?_⟩
  have hsame : (applyCreatedRollProgress e roll.userId roll.pigId db).2.dailyRolls =
      db.dailyRolls :=
    applyCreatedRollProgress_writes e roll.userId roll.pigId db .dailyRolls (by decide)
  show (applyCreatedRollProgress e roll.userId roll.pigId db).2.dailyRolls ++ [_] = _
  rw [hsame]
  rfl

theorem getOrCreateDailyRoll_turn (e : Env) (req : DailyRollGetOrCreateRequest) (db : Db)
    (date : Date) (userId : String) :
    RollTurn none (db.dailyRoll? date userId)
      ((getOrCreateDailyRoll e req db).2.dailyRoll? date userId) := by
  unfold getOrCreateDailyRoll
  cases hroll : db.dailyRoll? req.dateStr req.userId with
  | some existing =>
      dsimp only
      split
      · exact .of_rolls rfl rfl date userId
      · exact .of_rolls (ensureGroupRoll_writes e _ _ _ _ db .dailyRolls (by decide)) rfl date userId
  | none =>
      dsimp only
      obtain ⟨hdrawn, hrolls⟩ := createDailyRoll_drawn e
        { userId := req.userId, pigId := req.proposedPigId, dateStr := req.dateStr,
          createdAt := e.dbNow } db rfl (Or.inl rfl)
      refine .of_insert hdrawn hroll ?_ rfl date userId
      refine Eq.trans ?_ hrolls
      exact ((ensureGroupRoll_writes e _ _ _ _ _).mono rfl |>.trans
        ((activateTargetReservations_writes e _ _ _ _ _).mono rfl) :
          Db.Writes [.groupRolls, .activeUsers, .reservations] _ _) .dailyRolls (by decide)

theorem makeupDailyRoll_turn {req : DailyRollGetOrCreateRequest}
    {response : DailyRollLookupResponse} (h : makeupDailyRoll e req db = some (response, db'))
    (date : Date) (userId : String) :
    RollTurn none (db.dailyRoll? date userId) (db'.dailyRoll? date userId) := by
  rcases makeupDailyRoll_cases h with ⟨existing, -, -, rfl⟩ | ⟨hroll, -, rfl⟩
  · exact .of_rolls rfl rfl date userId
  · obtain ⟨hdrawn, hrolls⟩ := createDailyRoll_drawn e (madeUpRoll e req) db rfl (Or.inr rfl)
    exact .of_insert hdrawn hroll hrolls rfl date userId

/-- Whether a roll has an appearance, or anything else but the makeup mark, written. -/
def DailyRoll.written (roll : DailyRoll) : Bool :=
  roll.resourceVersion.isSome || (roll.appearanceSnapshot.isSome &&
    roll.appearanceSnapshot ≠ some { isMakeup := true, payload := none })

/-- A completion, in terms of what is written and dressed. -/
theorem completeDailyRollSnapshot_eq (req : DailyRollSnapshotRequest) (db : Db) :
    completeDailyRollSnapshot req db =
      match db.dailyRoll? req.dateStr req.userId with
      | none => .error .notFound
      | some roll =>
          if roll.pigId ≠ req.pigId then .error .pigMismatch
          else if !roll.growthSnapshotAvailable then .error .noGrowthSnapshot
          else if roll.written then
            if roll.resourceVersion.getD "" ≠ req.resourceVersion ∨ roll.appearanceSnapshot ≠
                some { isMakeup := roll.isMakeup, payload := some (snapshotPayload req) } then
              .error .alreadyWritten
            else .ok (snapshotResponse req roll, db)
          else .ok (snapshotResponse req (roll.dress req), db.flushDailyRoll (roll.dress req)) :=
  rfl

/-- What a completion does: refuse, confirm what is stored, or dress the roll. -/
theorem completeDailyRollSnapshot_cases (req : DailyRollSnapshotRequest) (db : Db) :
    (∃ error, completeDailyRollSnapshot req db = .error error) ∨
      ∃ roll, db.dailyRoll? req.dateStr req.userId = some roll ∧
        ((roll.wearing = some req.appearance ∧
            completeDailyRollSnapshot req db = .ok (snapshotResponse req roll, db)) ∨
          (roll.resourceVersion = none ∧
            completeDailyRollSnapshot req db =
              .ok (snapshotResponse req (roll.dress req), db.flushDailyRoll (roll.dress req)))) := by
  rw [completeDailyRollSnapshot_eq]
  cases hroll : db.dailyRoll? req.dateStr req.userId with
  | none => exact Or.inl ⟨_, rfl⟩
  | some roll =>
      dsimp only
      by_cases hpig : roll.pigId ≠ req.pigId
      · rw [if_pos hpig]
        exact Or.inl ⟨_, rfl⟩
      rw [if_neg hpig]
      by_cases hgrowth : (!roll.growthSnapshotAvailable) = true
      · rw [if_pos hgrowth]
        exact Or.inl ⟨_, rfl⟩
      rw [if_neg hgrowth]
      by_cases hwritten : roll.written = true
      · rw [if_pos hwritten]
        by_cases hother : roll.resourceVersion.getD "" ≠ req.resourceVersion ∨
            roll.appearanceSnapshot ≠
              some { isMakeup := roll.isMakeup, payload := some (snapshotPayload req) }
        · rw [if_pos hother]
          exact Or.inl ⟨_, rfl⟩
        · rw [if_neg hother]
          obtain ⟨hversion, hpayload⟩ := not_or.mp hother
          have hstored : roll.resourceVersion = some req.resourceVersion := by
            cases hnone : roll.resourceVersion with
            | none => exact absurd (by rw [hnone]; exact req.resourceVersion_ne.symm) hversion
            | some version => simpa [hnone] using hversion
          refine Or.inr ⟨roll, rfl, Or.inl ⟨?_, rfl⟩⟩
          unfold DailyRoll.wearing
          rw [hstored, not_not.mp hpayload]
          rfl
      · rw [if_neg hwritten]
        refine Or.inr ⟨roll, rfl, Or.inr ⟨?_, rfl⟩⟩
        cases hversion : roll.resourceVersion with
        | none => rfl
        | some version => exact absurd (by simp [DailyRoll.written, hversion]) hwritten

/-- Flushing a dressed roll. -/
theorem RollTurn.of_dress {report : Option Appearance}
    (hroll : db.dailyRoll? req.dateStr req.userId = some roll)
    (hbare : roll.resourceVersion = none)
    (hreport : rollKey roll = (date, userId) → report = some req.appearance)
    (hother : rollKey roll ≠ (date, userId) → report = none) :
    RollTurn report (db.dailyRoll? date userId)
      ((db.flushDailyRoll (roll.dress req)).dailyRoll? date userId) := by
  rw [dailyRoll?_lookup] at hroll ⊢
  obtain ⟨hmem, hkey⟩ := Tables.lookup_some hroll
  have hstored : rollKey (roll.dress req) ∈ db.dailyRolls.map rollKey := by
    show rollKey roll ∈ db.dailyRolls.map rollKey
    exact List.mem_map_of_mem hmem
  have hlookup := Tables.lookup_writeBack hstored (date, userId)
  rw [dailyRoll?_lookup]
  show RollTurn report _ (Tables.lookup rollKey
    (Tables.writeBack rollKey [roll.dress req] db.dailyRolls) (date, userId))
  rw [hlookup]
  by_cases hsame : (date, userId) = rollKey (roll.dress req)
  · have hhere : (date, userId) = rollKey roll := hsame
    rw [if_pos hsame, hhere, hkey, hroll]
    exact .dressed hbare (hreport hhere.symm)
  · rw [if_neg hsame]
    exact .same fun r hr => absurd ((hother fun hk => hsame hk.symm).symm.trans hr) (by simp)

theorem Request.snapshot_turn (e : Env) (view : List DailyRoll) (req : DailyRollSnapshotRequest)
    (db : Db) (date : Date) (userId : String) :
    RollTurn (Event.report ⟨e, .request (.snapshot req) view,
        ((Request.snapshot req).transaction e view db).response⟩ date userId)
      (db.dailyRoll? date userId)
      (((Request.snapshot req).transaction e view db).db.dailyRoll? date userId) := by
  rcases completeDailyRollSnapshot_cases req db with
    ⟨error, heq⟩ | ⟨roll, hroll, ⟨hwearing, heq⟩ | ⟨hbare, heq⟩⟩
  · simp only [Request.transaction, heq]
    exact .of_rolls rfl rfl date userId
  · simp only [Request.transaction, heq]
    refine .same fun r hr => ?_
    dsimp only [Event.report] at hr
    split_ifs at hr with hkey
    obtain ⟨rfl, rfl⟩ := hkey
    exact ⟨roll, hroll, hwearing.trans hr⟩
  · simp only [Request.transaction, heq]
    have hstored := dailyRoll?_some hroll
    refine .of_dress hroll hbare ?_ ?_
    · intro hkey
      obtain ⟨hdate, huser⟩ := Prod.mk.inj hkey
      exact if_pos ⟨hstored.2.1.symm.trans hdate, hstored.2.2.symm.trans huser⟩
    · intro hkey
      refine if_neg fun hsame => hkey ?_
      exact Prod.ext (hstored.2.1.trans hsame.1) (hstored.2.2.trans hsame.2)

/-- **What a step does to the roll of a user and date.** -/
theorem step_roll (hstep : service.step w event w') (date : Date) (userId : String) :
    RollTurn (event.report date userId) (w.db.dailyRoll? date userId)
      (w'.db.dailyRoll? date userId) := by
  obtain ⟨-, -, hresponse, rfl⟩ := hstep
  obtain ⟨e, action, response⟩ := event
  replace hresponse : response = (action.transaction e w.db).response := hresponse
  subst hresponse
  have hwrites := action.transaction_writes e w.db
  have hother : .dailyRolls ∉ action.written → (∀ req view, action ≠ .request (.snapshot req) view) →
      RollTurn (Event.report ⟨e, action, (action.transaction e w.db).response⟩ date userId)
        (w.db.dailyRoll? date userId) ((w.after e action).db.dailyRoll? date userId) := by
    intro hwritten hquiet
    refine .of_rolls (hwrites .dailyRolls hwritten) ?_ date userId
    unfold Event.report
    split
    · exact absurd (by assumption) (hquiet _ _)
    · rfl
  cases action with
  | reconcile flight => exact hother (by simp [Action.written]) (by simp)
  | request r view =>
      cases r with
      | snapshot req => exact Request.snapshot_turn e view req w.db date userId
      | getOrCreate req =>
          have hturn := getOrCreateDailyRoll_turn e req w.db date userId
          simp only [World.after, Action.transaction, Request.transaction]
          split
          · rename_i hanswered
            rwa [hanswered] at hturn
          · rename_i hstarted
            rwa [hstarted] at hturn
      | makeup req =>
          simp only [World.after, Action.transaction, Request.transaction]
          split
          · exact .of_rolls rfl rfl date userId
          · exact makeupDailyRoll_turn (by assumption) date userId
      | _ => exact hother (by simp [Action.written, Request.written, roundTables]) (by simp)

/-! ### A drawn roll along runs -/

/-- What a drawn roll has become after some reports. -/
inductive Worn (roll : DailyRoll) : List Appearance → DailyRoll → Prop
  | bare : Worn roll [] roll
  | dressed (req : DailyRollSnapshotRequest) (later : List Appearance) :
      Worn roll (req.appearance :: later) (roll.dress req)

variable {reports : List Appearance} {now : DailyRoll}

/-- Only the first report dresses a roll. -/
theorem Worn.turn (h : Worn roll reports now) (hdrawn : roll.Drawn) {report : Option Appearance}
    {after : Option DailyRoll} (hturn : RollTurn report (some now) after) :
    ∃ now', after = some now' ∧ Worn roll (reports ++ report.toList) now' := by
  cases hturn with
  | same hreport =>
      refine ⟨now, rfl, ?_⟩
      cases report with
      | none => simpa using h
      | some r =>
          obtain ⟨stored, hstored, hwearing⟩ := hreport r rfl
          obtain rfl := Option.some.inj hstored
          cases h with
          | bare => simp [DailyRoll.wearing, hdrawn.version] at hwearing
          | dressed req later => exact .dressed req (later ++ [r])
  | @dressed _ req hbare hreport =>
      refine ⟨_, rfl, ?_⟩
      subst hreport
      cases h with
      | bare => exact .dressed req []
      | dressed req' later => simp [DailyRoll.dress] at hbare

/-- The appearances reported of a roll along a run. -/
def reportsOf (events : List Event) (date : Date) (userId : String) : List Appearance :=
  events.filterMap (·.report date userId)

theorem reportsOf_snoc (events : List Event) (event : Event) (date : Date) (userId : String) :
    reportsOf (events ++ [event]) date userId =
      reportsOf events date userId ++ (event.report date userId).toList := by
  unfold reportsOf
  rw [List.filterMap_append]
  cases hreport : event.report date userId <;> simp [hreport]

/-- What became of a roll goes on along a run. -/
theorem Worn.run (hdrawn : roll.Drawn) (hrun : Run service w events w')
    (hroll : w.db.dailyRoll? date userId = some now) (hworn : Worn roll reports now) :
    ∃ now', w'.db.dailyRoll? date userId = some now' ∧
      Worn roll (reports ++ reportsOf events date userId) now' := by
  induction hrun with
  | nil => exact ⟨now, hroll, by simpa [reportsOf] using hworn⟩
  | @snoc w₁ w₂ events event hrun hstep ih =>
      obtain ⟨now₁, hroll₁, hworn₁⟩ := ih
      have hturn := step_roll hstep date userId
      rw [hroll₁] at hturn
      obtain ⟨now₂, hroll₂, hworn₂⟩ := hworn₁.turn hdrawn hturn
      refine ⟨now₂, hroll₂, ?_⟩
      rw [reportsOf_snoc, ← List.append_assoc]
      exact hworn₂

/-- Nobody reported of a roll that is not there. -/
theorem reportsOf_none (hrun : Run service w events w')
    (hnone : w'.db.dailyRoll? date userId = none) : reportsOf events date userId = [] := by
  induction hrun with
  | nil => rfl
  | @snoc w₁ w₂ events event hrun hstep ih =>
      have hturn := step_roll hstep date userId
      rw [hnone] at hturn
      generalize hbefore : w₁.db.dailyRoll? date userId = before at hturn
      cases hturn with
      | same hreport =>
          rw [reportsOf_snoc, ih hbefore]
          cases hreported : event.report date userId with
          | none => rfl
          | some r =>
              obtain ⟨_, hstored, -⟩ := hreport r hreported
              simp at hstored

/-! ### Created rolls -/

/-- The roll an event answered to have created. -/
def Event.created (event : Event) : Option (Date × String × DailyRollLookupResponse) :=
  match event.action, event.response with
  | .request (.makeup req) _, .lookup response =>
      if response.created then some (req.dateStr, req.userId, response) else none
  | .reconcile (.roll flight), .lookup response =>
      if response.created then some (flight.roll.dateStr, flight.roll.userId, response) else none
  | _, _ => none

/-- A roll that was drawn and what it is stored as now. -/
def Wears (events : List Event) (w : World) (roll : DailyRoll) : Prop :=
  roll.Drawn ∧ ∃ now, w.db.dailyRoll? roll.dateStr roll.userId = some now ∧
    Worn roll (reportsOf events roll.dateStr roll.userId) now

theorem Wears.run (h : Wears events w roll) {later : List Event} (hrun : Run service w later w') :
    Wears (events ++ later) w' roll := by
  obtain ⟨hdrawn, now, hroll, hworn⟩ := h
  obtain ⟨now', hroll', hworn'⟩ := Worn.run hdrawn hrun hroll hworn
  refine ⟨hdrawn, now', hroll', ?_⟩
  unfold reportsOf at hworn' ⊢
  rwa [List.filterMap_append]

/-- A created roll that `get-or-create` has in flight was just drawn. -/
theorem getOrCreateDailyRoll_created {req : DailyRollGetOrCreateRequest} {flight : RollInFlight}
    (h : getOrCreateDailyRoll e req db = (.inr flight, db')) (hcreated : flight.created = true) :
    db.dailyRoll? flight.roll.dateStr flight.roll.userId = none ∧ flight.roll.Drawn ∧
      db'.dailyRoll? flight.roll.dateStr flight.roll.userId = some flight.roll := by
  unfold getOrCreateDailyRoll at h
  cases hroll : db.dailyRoll? req.dateStr req.userId with
  | some existing =>
      simp only [hroll] at h
      split_ifs at h with hmakeup
      · simp at h
      · obtain ⟨hflight, -⟩ := Prod.mk.inj h
        rw [← Sum.inr.inj hflight] at hcreated
        simp at hcreated
  | none =>
      simp only [hroll] at h
      obtain ⟨hflight, rfl⟩ := Prod.mk.inj h
      obtain rfl := Sum.inr.inj hflight
      obtain ⟨hdrawn, hrolls⟩ := createDailyRoll_drawn e
        { userId := req.userId, pigId := req.proposedPigId, dateStr := req.dateStr,
          createdAt := e.dbNow } db rfl (Or.inl rfl)
      refine ⟨hroll, hdrawn, ?_⟩
      rw [dailyRoll?_lookup] at hroll ⊢
      simp only [activateTargetReservations_frame, ensureGroupRoll_frame, hrolls]
      rw [Tables.lookup_insert]
      · exact if_pos rfl
      · exact Tables.lookup_none.mp hroll

/-- The created rolls in flight are stored as they became. -/
def FlightsWorn (events : List Event) (w : World) : Prop :=
  ∀ flight, .roll flight ∈ w.flights → flight.created = true → Wears events w flight.roll

theorem FlightsWorn.step {w₀ : World} (hrun : Run service w₀ events w)
    (h : FlightsWorn events w) (hstep : service.step w event w') :
    FlightsWorn (events ++ [event]) w' := by
  intro flight hflight hcreated
  by_cases hold : .roll flight ∈ w.flights
  · exact (h flight hold hcreated).run (Run.single hstep)
  have hflights : w'.flights = (event.action.transaction event.env w.db).flights ++
      event.action.otherFlights w.flights := by rw [hstep.2.2.2]; rfl
  have hnew : .roll flight ∈ (event.action.transaction event.env w.db).flights := by
    rw [hflights] at hflight
    rcases List.mem_append.mp hflight with hnew | hother
    · exact hnew
    · refine absurd ?_ hold
      cases haction : event.action with
      | request r rolls => simpa [haction, Action.otherFlights] using hother
      | reconcile other =>
          rw [haction] at hother
          exact List.mem_of_mem_erase hother
  cases haction : event.action with
  | reconcile other =>
      rw [haction] at hnew
      cases other <;> simp [Action.transaction, Flight.transaction] at hnew
  | request r view =>
      rw [haction] at hnew
      obtain ⟨req, rfl, hstarted⟩ := Request.transaction_started hnew
      obtain ⟨hnone, hdrawn, hstored⟩ := getOrCreateDailyRoll_created hstarted hcreated
      refine ⟨hdrawn, flight.roll, ?_, ?_⟩
      · rw [hstep.2.2.2]
        simpa [World.after, haction, Action.transaction] using hstored
      · have hquiet : event.report flight.roll.dateStr flight.roll.userId = none := by
          simp [Event.report, haction]
        rw [reportsOf_snoc, reportsOf_none hrun hnone, hquiet]
        exact .bare

theorem makeupDailyRoll_created {req : DailyRollGetOrCreateRequest}
    {response : DailyRollLookupResponse} (h : makeupDailyRoll e req db = some (response, db'))
    (hcreated : response.created = true) :
    db.dailyRoll? req.dateStr req.userId = none ∧
      ∃ roll, roll.Drawn ∧ db'.dailyRoll? req.dateStr req.userId = some roll ∧
        roll.dateStr = req.dateStr ∧ roll.userId = req.userId ∧
        response = buildLookupResponse db' (some roll) true := by
  rcases makeupDailyRoll_cases h with ⟨existing, -, rfl, rfl⟩ | ⟨hroll, hresponse, rfl⟩
  · unfold buildLookupResponse at hcreated
    dsimp only at hcreated
    split_ifs at hcreated
  · obtain ⟨hdrawn, hrolls⟩ := createDailyRoll_drawn e (madeUpRoll e req) db rfl (Or.inr rfl)
    refine ⟨hroll, _, hdrawn, ?_, rfl, rfl, hresponse⟩
    rw [dailyRoll?_lookup] at hroll ⊢
    rw [hrolls, Tables.lookup_insert]
    · exact if_pos rfl
    · exact Tables.lookup_none.mp hroll

theorem Action.transaction_created {action : Action} {response : DailyRollLookupResponse}
    (h : Event.created ⟨e, action, (action.transaction e db).response⟩ =
      some (date, userId, response)) :
    (∃ req view, action = .request (.makeup req) view ∧ req.dateStr = date ∧ req.userId = userId ∧
        makeupDailyRoll e req db = some (response, (action.transaction e db).db) ∧
        response.created = true) ∨
      ∃ flight, action = .reconcile (.roll flight) ∧ flight.roll.dateStr = date ∧
        flight.roll.userId = userId ∧ flight.created = true ∧
        ∃ db', response = buildLookupResponse db' (some flight.roll) true := by
  cases action with
  | request r view =>
      cases r with
      | makeup req =>
          refine Or.inl ⟨req, view, rfl, ?_⟩
          simp only [Event.created, Action.transaction, Request.transaction] at h ⊢
          cases hmade : makeupDailyRoll e req db with
          | none => simp [hmade] at h
          | some made =>
              simp only [hmade] at h ⊢
              split_ifs at h with hcreated
              obtain ⟨rfl, rfl, rfl⟩ := by simpa using h
              exact ⟨rfl, rfl, rfl, hcreated⟩
      | _ => simp [Event.created] at h
  | reconcile flight =>
      cases flight with
      | prepare flight => simp [Event.created] at h
      | roll flight =>
          refine Or.inr ⟨flight, rfl, ?_⟩
          simp only [Event.created, Action.transaction, Flight.transaction,
            reconcileReservationsAfterCommit] at h
          have hcreated : ∀ db, (buildLookupResponse db (some flight.roll) flight.created).created =
              flight.created := by
            intro db
            unfold buildLookupResponse
            dsimp only
            split_ifs <;> rfl
          rw [hcreated] at h
          split_ifs at h with hflight
          obtain ⟨rfl, rfl, rfl⟩ := by simpa using h
          exact ⟨rfl, rfl, hflight, _, by rw [hflight]⟩

/-- A created roll is worn from its answer on, and the answer told what was drawn. -/
theorem FlightsWorn.created {w₀ : World} (h : FlightsWorn events w)
    (hrun : Run service w₀ events w) (hstep : service.step w event w')
    {response : DailyRollLookupResponse} (hcreated : event.created = some (date, userId, response)) :
    ∃ roll, roll.dateStr = date ∧ roll.userId = userId ∧ Wears (events ++ [event]) w' roll ∧
      response.outcome = roll.outcome ∧ response.appearance = none := by
  have hsteps := hstep
  obtain ⟨-, henabled, hresponse, hafter⟩ := hstep
  obtain ⟨e, action, answer⟩ := event
  replace hresponse : answer = (action.transaction e w.db).response := hresponse
  subst hresponse
  rcases Action.transaction_created hcreated with
    ⟨req, view, rfl, rfl, rfl, hmade, hnew⟩ | ⟨flight, rfl, rfl, rfl, hnew, db', rfl⟩
  · obtain ⟨hnone, roll, hdrawn, hroll, hdate, huser, rfl⟩ := makeupDailyRoll_created hmade hnew
    obtain ⟨houtcome, happearance⟩ := hdrawn.outcome
      ((Action.request (.makeup req) view).transaction e w.db).db true
    refine ⟨roll, hdate, huser, ⟨hdrawn, roll, ?_, ?_⟩, houtcome, happearance⟩
    · rw [hafter, hdate, huser]
      exact hroll
    · rw [hdate, huser, reportsOf_snoc, reportsOf_none hrun hnone]
      exact .bare
  · have hworn := h flight henabled hnew
    obtain ⟨houtcome, happearance⟩ := hworn.1.outcome db' true
    exact ⟨flight.roll, rfl, rfl, hworn.run (Run.single hsteps), houtcome, happearance⟩

/-! ### Which completions are accepted -/

/-- Two lists of the same members in strictly ascending order are one. -/
theorem sorted_eq {α : Type} (rank : α → Nat) {as bs : List α}
    (has : as.Pairwise fun a b => rank a < rank b) (hbs : bs.Pairwise fun a b => rank a < rank b)
    (hmem : ∀ a, a ∈ as ↔ a ∈ bs) : as = bs := by
  have hnodup : ∀ {cs : List α}, cs.Pairwise (fun a b => rank a < rank b) → cs.Nodup :=
    fun hcs => hcs.imp fun hlt heq => absurd (heq ▸ hlt) (Nat.lt_irrefl _)
  have hperm : as.Perm bs :=
    (List.perm_ext_iff_of_nodup (hnodup has) (hnodup hbs)).mpr hmem
  refine hperm.eq_of_pairwise (fun a b _ _ hab hba => ?_) has hbs
  exact absurd (Nat.lt_trans hab hba) (Nat.lt_irrefl _)

/-- The body reports the stored appearance, its levels and fields taken as sets. -/
structure DailyRollSnapshotBody.Reports (body : DailyRollSnapshotBody) (stored : Appearance) :
    Prop where
  version : stored.1 = body.resourceVersion
  level : stored.2.resolvedVariantLevel = body.resolvedVariantLevel
  image : stored.2.resolvedImageName = body.resolvedImageName
  levels : ∀ level, level ∈ stored.2.unlockedVariantLevels ↔ level ∈ body.unlockedVariantLevels
  fields : ∀ field, field ∈ stored.2.unlockedVariantFields ↔ field ∈ body.unlockedVariantFields

variable {body : DailyRollSnapshotBody}

theorem validate_levels (h : body.Valid) (level : Nat) :
    level ∈ (body.validate h).unlockedVariantLevels ↔ level ∈ body.unlockedVariantLevels := by
  show level ∈ normalizeUnlockedVariantLevels _ ↔ _
  rw [normalizeUnlockedVariantLevels, List.mem_insertionSort, List.mem_dedup]

theorem validate_fields (h : body.Valid) (field : String) :
    field ∈ (body.validate h).unlockedVariantFields ↔ field ∈ body.unlockedVariantFields := by
  show field ∈ normalizeUnlockedVariantFields _ ↔ _
  rw [normalizeUnlockedVariantFields, List.mem_insertionSort, List.mem_dedup]

/-- Appearances are normal forms, so equal as sets is equal. -/
theorem DailyRollSnapshotBody.reports_iff (h : body.Valid) (req : DailyRollSnapshotRequest) :
    body.Reports req.appearance ↔ req.appearance = (body.validate h).appearance := by
  constructor
  · rintro ⟨hversion, hlevel, himage, hlevels, hfields⟩
    have hsameLevels : req.unlockedVariantLevels = (body.validate h).unlockedVariantLevels :=
      sorted_eq id req.unlockedVariantLevels_sorted
        (body.validate h).unlockedVariantLevels_sorted
        fun level => (hlevels level).trans (validate_levels h level).symm
    have hsameFields : req.unlockedVariantFields = (body.validate h).unlockedVariantFields :=
      sorted_eq (variantFieldOrder.idxOf ·) req.unlockedVariantFields_sorted
        (body.validate h).unlockedVariantFields_sorted
        fun field => (hfields field).trans (validate_fields h field).symm
    unfold DailyRollSnapshotRequest.appearance snapshotPayload at hversion hlevel himage ⊢
    rw [hsameLevels, hsameFields]
    dsimp only at hversion hlevel himage
    rw [hversion, hlevel, himage]
    rfl
  · intro hsame
    rw [hsame]
    exact ⟨rfl, rfl, rfl, validate_levels h, validate_fields h⟩

/-- A completion of a drawn roll is accepted if it names its pig and reports nothing new. -/
theorem Worn.accepts (h : Worn roll reports now) (hdrawn : roll.Drawn)
    (hroll : db.dailyRoll? req.dateStr req.userId = some now) :
    (∃ result, completeDailyRollSnapshot req db = .ok result) ↔
      roll.pigId = req.pigId ∧ ∀ stored, reports.head? = some stored → stored = req.appearance := by
  rw [completeDailyRollSnapshot_eq, hroll]
  dsimp only
  have hpig : now.pigId = roll.pigId := by cases h <;> rfl
  have hgrowth : now.growthSnapshotAvailable = true := by cases h <;> exact hdrawn.growth
  rw [hpig]
  by_cases hother : roll.pigId ≠ req.pigId
  · rw [if_pos hother]
    simp [hother]
  rw [if_neg hother, hgrowth]
  simp only [not_not.mp hother, true_and, Bool.not_true, Bool.false_eq_true, if_false]
  cases h with
  | bare =>
      have hfree : roll.written = false := by
        unfold DailyRoll.written
        rw [hdrawn.version]
        rcases hdrawn.appearance with happearance | happearance <;> simp [happearance]
      simp [hfree]
  | dressed stored later =>
      have hwritten : (roll.dress stored).written = true := by
        simp [DailyRoll.written, DailyRoll.dress]
      rw [if_pos hwritten]
      have hsame : ((roll.dress stored).resourceVersion.getD "" ≠ req.resourceVersion ∨
          (roll.dress stored).appearanceSnapshot ≠ some
            { isMakeup := (roll.dress stored).isMakeup, payload := some (snapshotPayload req) }) ↔
          stored.appearance ≠ req.appearance := by
        show _ ↔ ¬(stored.resourceVersion, snapshotPayload stored) =
          (req.resourceVersion, snapshotPayload req)
        rw [Prod.mk.injEq, not_and_or]
        simp [DailyRoll.dress, DailyRoll.isMakeup]
      by_cases hdiffers : stored.appearance ≠ req.appearance
      · rw [if_pos (hsame.mpr hdiffers)]
        simpa using hdiffers
      · rw [if_neg fun h => hdiffers (hsame.mp h)]
        simpa using hdiffers

/-- What the lookup of a drawn roll tells after some reports. -/
theorem Worn.lookup (h : Worn roll reports now) (hdrawn : roll.Drawn)
    (hroll : db.dailyRoll? date userId = some now) :
    (getDailyRollByDate userId date db).outcome = roll.outcome ∧
      (getDailyRollByDate userId date db).appearance = reports.head? := by
  unfold getDailyRollByDate
  rw [hroll]
  cases h with
  | bare => exact hdrawn.outcome db false
  | dressed req later => exact hdrawn.dressed req db false

theorem DailyRoll.Drawn.pigId (h : roll.Drawn) : roll.outcome.pigId = some roll.pigId := by
  unfold DailyRoll.outcome buildLookupResponse
  dsimp only
  rw [if_pos h.growth]
  rfl

theorem step_snapshot (hstep : service.step w event w') {view : List DailyRoll}
    (haction : event.action = .request (.snapshot req) view) :
    ((∃ answer, event.response = .snapshot answer) ↔
        ∃ result, completeDailyRollSnapshot req w.db = .ok result) ∧
      ((∀ answer, event.response ≠ .snapshot answer) → w'.db = w.db) := by
  obtain ⟨-, -, hresponse, rfl⟩ := hstep
  rw [hresponse]
  simp only [World.after, haction, Action.transaction, Request.transaction]
  cases completeDailyRollSnapshot req w.db <;> simp

theorem flightsWorn {w₀ : World} (hidle : w₀.flights = []) (hrun : Run service w₀ events w) :
    FlightsWorn events w := by
  refine Run.history (I := fun events w => FlightsWorn events w) ?_ ?_ hrun
  · intro flight hflight
    simp [hidle] at hflight
  · exact fun _ _ _ _ hrun h hstep => h.step hrun hstep

/-- **What a created roll answered at its creation it answers for ever**: its outcome stays,
its appearance is the first one accepted, and completions are accepted only if they name its
pig and agree with that appearance; refused ones change nothing. -/
theorem roll_settled {w₀ : World} {before after : List Event}
    {response : DailyRollLookupResponse} (hidle : w₀.flights = [])
    (hrun : Run service w₀ (before ++ event :: after) w)
    (hcreated : event.created = some (date, userId, response)) :
    (getDailyRollByDate userId date w.db).outcome = response.outcome ∧
      response.appearance = none ∧
      (getDailyRollByDate userId date w.db).appearance =
        (reportsOf (before ++ event :: after) date userId).head? ∧
      ∀ next w' view (body : DailyRollSnapshotBody) (h : body.Valid), service.step w next w' →
        next.action = .request (.snapshot (body.validate h)) view → body.dateStr = date →
        body.userId = userId →
          ((∃ answer, next.response = .snapshot answer) ↔
            response.pigId = some body.pigId ∧
              ∀ stored, (getDailyRollByDate userId date w.db).appearance = some stored →
                body.Reports stored) ∧
          ((∀ answer, next.response ≠ .snapshot answer) → w'.db = w.db) := by
  obtain ⟨w₁, hbefore, hrest⟩ := hrun.split before (event :: after) rfl
  obtain ⟨w₂, hstep, hafter⟩ := Run.of_cons hrest
  obtain ⟨roll, rfl, rfl, hwears, houtcome, happearance⟩ :=
    (flightsWorn hidle hbefore).created hbefore hstep hcreated
  have hlater := hwears.run hafter
  rw [List.append_assoc, List.singleton_append] at hlater
  obtain ⟨hdrawn, now, hroll, hworn⟩ := hlater
  obtain ⟨hnow, hdress⟩ := hworn.lookup hdrawn hroll
  refine ⟨hnow.trans houtcome.symm, happearance, hdress, ?_⟩
  intro next w' view body hvalid hnext haction hdate huser
  obtain ⟨haccepted, hrefused⟩ := step_snapshot hnext haction
  refine ⟨?_, hrefused⟩
  have hfound : w.db.dailyRoll? (body.validate hvalid).dateStr (body.validate hvalid).userId =
      some now := by
    show w.db.dailyRoll? body.dateStr body.userId = some now
    rw [hdate, huser]
    exact hroll
  have hpig : response.pigId = some roll.pigId :=
    (congrArg RollOutcome.pigId houtcome).trans hdrawn.pigId
  rw [haccepted, hworn.accepts hdrawn hfound, hdress, hpig, Option.some_inj]
  refine and_congr Iff.rfl (forall_congr' fun stored => imp_congr_right fun hstored => ?_)
  have hreported : ∃ req : DailyRollSnapshotRequest, req.appearance = stored := by
    generalize reportsOf (before ++ event :: after) roll.dateStr roll.userId = reports at hworn hstored
    cases hworn with
    | bare => simp at hstored
    | dressed req later => exact ⟨req, by simpa using hstored⟩
  obtain ⟨req, rfl⟩ := hreported
  exact (body.reports_iff hvalid req).symm

/-- An appearance as a client tells it. -/
def wardrobeBody : DailyRollSnapshotBody :=
  { userId := "1", dateStr := 739000, pigId := "pig", resourceVersion := "v1",
    resolvedImageName := "pig.png", unlockedVariantLevels := [2, 1, 2],
    unlockedVariantFields := ["analysis", "image"] }

theorem wardrobeBody_valid : wardrobeBody.Valid where
  userId := by decide
  pigId := by decide
  resourceVersion := by decide
  resolvedVariantLevel := by decide
  resolvedImageName := by decide
  unlockedVariantLevels := by decide
  unlockedVariantFields := by decide

/-- The same appearance, told in order. -/
def tidyBody : DailyRollSnapshotBody :=
  { wardrobeBody with
    unlockedVariantLevels := [1, 2], unlockedVariantFields := ["image", "analysis"] }

theorem tidyBody_valid : tidyBody.Valid :=
  { wardrobeBody_valid with
    unlockedVariantLevels := by decide, unlockedVariantFields := by decide }

/-- User 1 rolls, another client completes the appearance before the roll is answered, and
a day later user 1 rolls the same pig again. -/
def wardrobeScript : List (Time × Order) :=
  let now : Time := 739000 * dayMicros
  [(now, .request (.getOrCreate { userId := "1", proposedPigId := "pig", dateStr := 739000 })),
    (now, .request (.snapshot (tidyBody.validate tidyBody_valid))),
    (now, .finish 0),
    (now + dayMicros, .request
      (.getOrCreate { userId := "1", proposedPigId := "pig", dateStr := 739001 })),
    (now + dayMicros, .finish 0)]

theorem roll_settled_wardrobe :
    (getDailyRollByDate "1" 739000 (scriptWorld wardrobeScript).db).outcome.copies = 1 ∧
      (getDailyRollByDate "1" 739001 (scriptWorld wardrobeScript).db).outcome.copies = 2 ∧
      ∃ answer, (scriptEvent wardrobeScript (739001 * dayMicros)
        (.snapshot (wardrobeBody.validate wardrobeBody_valid))).response = .snapshot answer := by
  have hplay : (play 0 {} wardrobeScript).isSome = true := by decide +kernel
  have hcreated : (scriptEvents wardrobeScript)[2]?.bind Event.created = some (739000, "1",
      { pigId := some "pig", created := true, isNewPig := true, copies := 1,
        outcomeSnapshot := some { snapshotAvailable := false, collectionSizeAfterRoll := 1 } }) := by
    decide +kernel
  obtain ⟨event, hevent, hcreated⟩ := Option.bind_eq_some_iff.mp hcreated
  have hrun := script_run hplay
  rw [scriptEvents_split hevent] at hrun
  obtain ⟨houtcome, -, happearance, hnext⟩ := roll_settled rfl hrun hcreated
  obtain ⟨haccepted, -⟩ := hnext _ _ _ wardrobeBody wardrobeBody_valid
    (script_step hplay (739001 * dayMicros) _) rfl rfl rfl
  refine ⟨congrArg RollOutcome.copies houtcome, by decide +kernel, haccepted.mpr ⟨rfl, ?_⟩⟩
  intro stored hstored
  have hdressed : (getDailyRollByDate "1" 739000 (scriptWorld wardrobeScript).db).appearance =
      some ("v1", { resolvedVariantLevel := 0, resolvedImageName := "pig.png",
                    unlockedVariantLevels := [1, 2],
                    unlockedVariantFields := ["image", "analysis"] }) := by
    decide +kernel
  obtain rfl := Option.some.inj (hdressed.symm.trans hstored)
  refine ⟨rfl, rfl, rfl, fun level => ?_, fun field => ?_⟩
  · simp [wardrobeBody]
    omega
  · simp [wardrobeBody]
    exact or_comm

end RollPig
