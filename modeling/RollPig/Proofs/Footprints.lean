/-
Which tables a transaction writes.

There is one lemma for each function of the service, naming the tables it may write, and
`Request.transaction_writes` puts them together.  What a transaction leaves alone is then
read off its list.
-/
import RollPig.Proofs.Transactions

namespace RollPig

/-- The tables of the database. -/
inductive Table
  | dailyRolls
  | groupRolls
  | collections
  | userPigProgress
  | userDailyFeeds
  | userDrawState
  | userUsage
  | activeUsers
  | roastEvents
  | groupProtections
  | reservations
  | messages
  | participants
deriving DecidableEq

/-- Both databases have the same rows in the table. -/
def Db.Same (db db' : Db) : Table → Prop
  | .dailyRolls => db'.dailyRolls = db.dailyRolls
  | .groupRolls => db'.groupRolls = db.groupRolls
  | .collections => db'.collections = db.collections
  | .userPigProgress => db'.userPigProgress = db.userPigProgress
  | .userDailyFeeds => db'.userDailyFeeds = db.userDailyFeeds
  | .userDrawState => db'.userDrawState = db.userDrawState
  | .userUsage => db'.userUsage = db.userUsage
  | .activeUsers => db'.activeUsers = db.activeUsers
  | .roastEvents => db'.roastEvents = db.roastEvents
  | .groupProtections => db'.groupProtections = db.groupProtections
  | .reservations => db'.reservations = db.reservations
  | .messages => db'.messages = db.messages
  | .participants => db'.participants = db.participants

/-- At most these tables are written. -/
def Db.Writes (tables : List Table) (db db' : Db) : Prop :=
  ∀ table, table ∉ tables → db.Same db' table

variable {e : Env} {db db' db'' : Db} {tables tables' : List Table}

theorem Db.Same.refl (table : Table) : db.Same db table := by
  cases table <;> rfl

theorem Db.Same.trans {table : Table} (h₁ : db.Same db' table) (h₂ : db'.Same db'' table) :
    db.Same db'' table := by
  cases table <;> exact Eq.trans h₂ h₁

namespace Db.Writes

theorem refl : db.Writes tables db :=
  fun table _ => Same.refl table

theorem trans (h₁ : db.Writes tables db') (h₂ : db'.Writes tables db'') :
    db.Writes tables db'' :=
  fun table hother => (h₁ table hother).trans (h₂ table hother)

/-- A longer list of tables; that it is longer is checked by computing. -/
theorem mono (h : db.Writes tables db')
    (hsub : (tables.all fun table => tables'.contains table) = true) :
    db.Writes tables' db' := by
  intro table hother
  refine h table fun hin => hother ?_
  simpa using List.all_eq_true.mp hsub table hin

/-- A loop. -/
theorem foldl {α : Type} {f : Db → α → Db} (hstep : ∀ (db : Db) a, db.Writes tables (f db a))
    (items : List α) (db : Db) : db.Writes tables (items.foldl f db) := by
  induction items generalizing db with
  | nil => exact refl
  | cons a rest ih => exact (hstep db a).trans (ih (f db a))

end Db.Writes

/-! ### One table -/

/-- Another table than the one written is the same. -/
theorem Db.Writes.one (table : Table) (h : ∀ other, other ≠ table → db.Same db' other) :
    db.Writes [table] db' :=
  fun other hother => h other fun heq => hother (heq ▸ List.mem_singleton_self table)

theorem writes_dailyRolls (rows : List DailyRoll) :
    db.Writes [.dailyRolls] { db with dailyRolls := rows } :=
  .one _ fun other hother => by cases other <;> first | rfl | exact absurd rfl hother

theorem writes_groupRolls (rows : List GroupRoll) :
    db.Writes [.groupRolls] { db with groupRolls := rows } :=
  .one _ fun other hother => by cases other <;> first | rfl | exact absurd rfl hother

theorem writes_collections (rows : List Collection) :
    db.Writes [.collections] { db with collections := rows } :=
  .one _ fun other hother => by cases other <;> first | rfl | exact absurd rfl hother

theorem writes_userPigProgress (rows : List UserPigProgress) :
    db.Writes [.userPigProgress] { db with userPigProgress := rows } :=
  .one _ fun other hother => by cases other <;> first | rfl | exact absurd rfl hother

theorem writes_userDailyFeeds (rows : List UserDailyFeed) :
    db.Writes [.userDailyFeeds] { db with userDailyFeeds := rows } :=
  .one _ fun other hother => by cases other <;> first | rfl | exact absurd rfl hother

theorem writes_userDrawState (rows : List UserDrawState) :
    db.Writes [.userDrawState] { db with userDrawState := rows } :=
  .one _ fun other hother => by cases other <;> first | rfl | exact absurd rfl hother

theorem OnlyUsage.writes (h : OnlyUsage db db') : db.Writes [.userUsage] db' := by
  unfold OnlyUsage at h
  rw [h]
  exact .one _ fun other hother => by cases other <;> first | rfl | exact absurd rfl hother

theorem writes_activeUsers (rows : List GroupDailyActiveUser) :
    db.Writes [.activeUsers] { db with activeUsers := rows } :=
  .one _ fun other hother => by cases other <;> first | rfl | exact absurd rfl hother

theorem writes_roastEvents (rows : List RoastEvent) :
    db.Writes [.roastEvents] { db with roastEvents := rows } :=
  .one _ fun other hother => by cases other <;> first | rfl | exact absurd rfl hother

theorem writes_groupProtections (rows : List GroupProtection) :
    db.Writes [.groupProtections] { db with groupProtections := rows } :=
  .one _ fun other hother => by cases other <;> first | rfl | exact absurd rfl hother

theorem writes_reservations (rows : List RoastReservation) :
    db.Writes [.reservations] { db with reservations := rows } :=
  .one _ fun other hother => by cases other <;> first | rfl | exact absurd rfl hother

theorem writes_messages (rows : List RoastReservationMessage) :
    db.Writes [.messages] { db with messages := rows } :=
  .one _ fun other hother => by cases other <;> first | rfl | exact absurd rfl hother

theorem writes_participants (rows : List RoastReservationParticipant) :
    db.Writes [.participants] { db with participants := rows } :=
  .one _ fun other hother => by cases other <;> first | rfl | exact absurd rfl hother

/-! ### Activity and events -/

theorem markGroupActiveUsers_writes (e : Env) (date : Date) (groupId : String)
    (userIds : List String) (db : Db) :
    db.Writes [.activeUsers] (markGroupActiveUsers e date groupId userIds db) := by
  unfold markGroupActiveUsers
  split
  · exact .refl
  · exact writes_activeUsers _

theorem insertRoastEvent_writes (e : Env) (req : EventCreateRequest) (db : Db) :
    db.Writes [.activeUsers, .roastEvents] (insertRoastEvent e req db) :=
  ((writes_roastEvents _).mono rfl).trans ((markGroupActiveUsers_writes e _ _ _ _).mono rfl)

theorem recordRoastEventWithStatus_writes (e : Env) (req : EventCreateRequest)
    (reservation : Option RoastReservationItem) (db : Db) :
    db.Writes [.activeUsers, .roastEvents]
      (recordRoastEventWithStatus e req reservation db).2 := by
  unfold recordRoastEventWithStatus
  split
  · exact insertRoastEvent_writes e req db
  · dsimp only
    split
    · exact .refl
    · exact insertRoastEvent_writes e _ db

/-! ### Growth -/

theorem ensureCollection_writes (e : Env) (userId pigId : String) (db : Db) :
    db.Writes [.collections] (ensureCollection e userId pigId db) := by
  unfold ensureCollection
  split
  · exact .refl
  · exact writes_collections _

theorem applyCreatedRollProgress_writes (e : Env) (userId pigId : String) (db : Db) :
    db.Writes [.collections, .userPigProgress, .userDrawState]
      (applyCreatedRollProgress e userId pigId db).2 := by
  have hcollected : db.Writes [.collections, .userPigProgress, .userDrawState]
      (ensureCollection e userId pigId db) :=
    (ensureCollection_writes e userId pigId db).mono rfl
  unfold applyCreatedRollProgress
  dsimp only
  cases getProgress db userId pigId <;> cases getDrawState db userId <;>
    exact hcollected.trans
      (((writes_userPigProgress _).mono rfl).trans ((writes_userDrawState _).mono rfl))

theorem createDailyRoll_writes (e : Env) (roll : DailyRoll) (db : Db) :
    db.Writes [.dailyRolls, .collections, .userPigProgress, .userDrawState]
      (createDailyRoll e roll db).2 :=
  ((applyCreatedRollProgress_writes e roll.userId roll.pigId db).mono rfl).trans
    ((writes_dailyRolls _).mono rfl)

theorem applyDailyFeed_writes (e : Env) (date : Date) (userId : String) (sourceType : FeedSource)
    (sourceId : String) (db : Db) :
    db.Writes [.userPigProgress, .userDailyFeeds]
      (applyDailyFeed e date userId sourceType sourceId db).2 := by
  unfold applyDailyFeed
  cases (db.dailyRoll? date userId).filter (!·.isMakeup) with
  | none => exact .refl
  | some roll =>
      dsimp only
      cases db.userDailyFeeds.find? fun row => row.dateStr = date ∧ row.userId = userId with
      | some existing => exact .refl
      | none =>
          dsimp only
          cases getProgress db userId roll.pigId <;> dsimp only <;> split
          · exact (writes_userPigProgress _).mono rfl
          · exact ((writes_userPigProgress _).mono rfl).trans
              (((writes_userDailyFeeds _).mono rfl).trans ((writes_userPigProgress _).mono rfl))
          · exact .refl
          · exact ((writes_userDailyFeeds _).mono rfl).trans ((writes_userPigProgress _).mono rfl)

theorem feedUsers_writes (e : Env) (date : Date) (sourceId : String) (userIds : List String) :
    ∀ db : Db, db.Writes [.userPigProgress, .userDailyFeeds]
      (feedUsers e date sourceId userIds db).2 := by
  induction userIds with
  | nil => exact fun db => .refl
  | cons userId rest ih =>
      intro db
      exact (applyDailyFeed_writes e date userId .reservation sourceId db).trans (ih _)

theorem raiseSuccessCount_writes (row : RoastReservation) (req : RoastReservationOutcomeRequest)
    (db : Db) : db.Writes [.groupProtections] (raiseSuccessCount row req db) := by
  unfold raiseSuccessCount
  cases settledProtection db row with
  | none => exact .refl
  | some protection =>
      dsimp only
      split
      · exact writes_groupProtections _
      · exact .refl

/-! ### Protections -/

theorem lockProtection_writes (req : RoastReservationPrepareRequest) (db : Db) :
    db.Writes [.groupProtections] (lockProtection req db).2 := by
  unfold lockProtection
  split
  · exact .refl
  · split
    · split
      · exact writes_groupProtections _
      · exact .refl
    · exact .refl

theorem syncPendingProtection_writes (e : Env) (protection : GroupProtection) (removed : Bool)
    (db : Db) (groupId : Option String) :
    db.Writes [.reservations, .participants]
      (syncPendingProtection e protection removed db groupId) :=
  ((writes_reservations _).mono rfl).trans ((writes_participants _).mono rfl)

theorem removeFromRoster_writes (e : Env) (req : ReplaceGroupProtectionsRequest)
    (row : GroupProtection) (db : Db) :
    db.Writes [.groupProtections, .reservations, .participants]
      (removeFromRoster e req row db) := by
  unfold removeFromRoster
  dsimp only
  split <;> exact ((writes_groupProtections _).mono rfl).trans
      ((syncPendingProtection_writes e _ _ _ _).mono rfl)

theorem addToRoster_writes_tables (e : Env) (req : ReplaceGroupProtectionsRequest)
    (current previous : List GroupProtection) (userId : String) (db : Db) :
    db.Writes [.groupProtections, .reservations, .participants]
      (addToRoster e req current previous userId db) := by
  unfold addToRoster
  dsimp only
  split_ifs
  · exact .refl
  · exact ((writes_groupProtections _).mono rfl).trans
        ((syncPendingProtection_writes e _ _ _ _).mono rfl)
  · exact ((writes_groupProtections _).mono rfl).trans
        ((syncPendingProtection_writes e _ _ _ _).mono rfl)

theorem replaceGroup_writes (e : Env) (req : ReplaceGroupProtectionsRequest) (db : Db) :
    db.Writes [.groupProtections, .reservations, .participants] (replaceGroup e req db) := by
  have hleft : db.Writes [.groupProtections, .reservations, .participants]
      (removeLeavers e req db) :=
    .foldl (fun db row => removeFromRoster_writes e req row db) _ db
  exact hleft.trans (.foldl (fun db userId => addToRoster_writes_tables e req _ _ userId db) _ _)

theorem grantProtection_writes {req : GrantProtectionRequest}
    {response : GrantProtectionResponse} (h : grantProtection e req db = some (response, db')) :
    db.Writes [.groupProtections, .reservations, .participants] db' := by
  unfold grantProtection at h
  split_ifs at h
  obtain ⟨-, rfl⟩ := Prod.mk.inj (Option.some.inj h)
  unfold storeGrant
  cases db.protection? req.protectDate req.groupId req.userId <;>
    exact ((writes_groupProtections _).mono rfl).trans
      ((syncPendingProtection_writes e _ _ _ _).mono rfl)

/-! ### Rounds -/

/-- What the rounds, their rosters and the usage of their members are kept in. -/
abbrev roundTables : List Table :=
  [.userUsage, .activeUsers, .groupProtections, .reservations, .participants]

theorem activateTargetReservations_writes (e : Env) (date : Date) (targetId pigId : String)
    (handledId : String) (db : Db) :
    db.Writes [.reservations] (activateTargetReservations e date targetId pigId db handledId).2 := by
  unfold activateTargetReservations
  dsimp only
  split <;> split <;> exact writes_reservations _

theorem reconcilePrepare_writes (e : Env) (flight : PrepareInFlight) (db : Db) :
    db.Writes [.reservations] (reconcilePrepare e flight db).2 := by
  have hoffered : ∀ handledId, db.Writes [.reservations] (activateIfTargetAlreadyRolled e
      flight.dateStr flight.targetId db handledId).2 := by
    intro handledId
    unfold activateIfTargetAlreadyRolled
    split
    · exact .refl
    · exact activateTargetReservations_writes e _ _ _ _ db
  unfold reconcilePrepare
  dsimp only
  split <;> exact hoffered _

theorem answerJoin_writes (e : Env) (req : RoastReservationPrepareRequest)
    (roll : Option DailyRoll) (row : RoastReservation) (members : List RoastReservationParticipant)
    (status : PrepareStatus) (db : Db) :
    db.Writes roundTables (answerJoin e req roll row members status db).2 :=
  ((markGroupActiveUsers_writes e req.dateStr req.groupId [req.attackerId] db).mono rfl).trans
    ((writes_reservations _).mono rfl)

theorem joinRound_writes (e : Env) (req : RoastReservationPrepareRequest)
    (roll : Option DailyRoll) (row : RoastReservation) (members : List RoastReservationParticipant)
    (db : Db) : db.Writes roundTables (joinRound e req roll row members db).2 := by
  have hpaid : ∀ {paid}, payBoost req (boosts req row) db = some paid →
      db.Writes roundTables paid := fun h => (payBoost_some h).writes.mono rfl
  unfold joinRound
  split
  · unfold rejoinRound
    dsimp only
    split
    · exact (writes_reservations _).mono rfl
    · split
      · exact .refl
      · exact (hpaid (by assumption)).trans
          (((writes_participants _).mono rfl).trans (answerJoin_writes e req roll row _ _ _))
  · unfold enlistRound
    dsimp only
    split
    · exact .refl
    · split
      · exact .refl
      · exact (hpaid (by assumption)).trans
          (((writes_participants _).mono rfl).trans (answerJoin_writes e req roll row _ _ _))

theorem enterRound_writes (e : Env) (req : RoastReservationPrepareRequest)
    (roll : Option DailyRoll) (row : RoastReservation) (db : Db) :
    db.Writes roundTables (enterRound e req roll row db).2 := by
  unfold enterRound
  dsimp only
  split
  · exact (writes_reservations _).mono rfl
  · split
    · exact .refl
    · split
      · split
        · exact .refl
        · exact ((markGroupActiveUsers_writes e req.dateStr req.groupId [req.attackerId]
            db).mono rfl).trans ((writes_reservations _).mono rfl)
      · exact joinRound_writes e req roll row _ db

theorem Prepared.writes {view : List DailyRoll} {req : RoastReservationPrepareRequest}
    {expected : Option String} {reservationId : String}
    {response : RoastReservationPrepareResponse}
    (h : Prepared e view req expected reservationId db response db') :
    db.Writes roundTables db' := by
  have hlock : db.Writes roundTables (lockProtection req db).2 :=
    (lockProtection_writes req db).mono rfl
  refine hlock.trans ?_
  cases h with
  | refused _ _ hframe => exact hframe.writes.mono rfl
  | entered hfind => exact enterRound_writes e req _ _ _
  | @created paid _ _ _ _ _ hpaid =>
      have hinserted : ∀ rows members, paid.Writes roundTables
          { paid with reservations := rows, participants := members } := fun rows members =>
        ((writes_reservations rows).mono rfl).trans ((writes_participants members).mono rfl)
      exact ((payForRound_ok hpaid).writes.mono rfl).trans
        ((hinserted _ _).trans ((markGroupActiveUsers_writes e _ _ _ _).mono rfl))

theorem registerReply_writes (e : Env) (req : RoastReservationReplyJoinRequest) (roll : DailyRoll)
    (db : Db) : db.Writes [.groupRolls] (registerReply e req roll db) := by
  unfold registerReply
  split
  · exact .refl
  · exact writes_groupRolls _

theorem joinByMessage_writes {view : List DailyRoll} {req : RoastReservationReplyJoinRequest}
    {response : RoastReservationPrepareResponse}
    (h : joinByMessage e view req db = .ok (response, db')) :
    db.Writes (.groupRolls :: roundTables) db' := by
  rcases joinByMessage_cases h with
    rfl | ⟨reservation, roll, expected, replied, -, hprepared, rfl | rfl⟩
  · exact .refl
  · exact hprepared.writes.mono rfl
  · exact (hprepared.writes.mono rfl).trans ((registerReply_writes e _ _ _).mono rfl)

theorem bindMessage_writes (req : RoastReservationBindMessageRequest) (db : Db) :
    db.Writes [.messages] (bindMessage req db).2 := by
  unfold bindMessage
  dsimp only
  split
  · exact .refl
  · split
    · exact .refl
    · exact writes_messages _

/-! ### Claims and results -/

theorem answer_writes (row : RoastReservation) (db : Db) :
    db.Writes [.reservations] (answer row db).2 :=
  writes_reservations _

theorem claim_writes (e : Env) (req : RoastReservationClaimRequest) (db : Db) :
    db.Writes [.reservations] (claim e req db).2 := by
  have hflush : ∀ (s : Db) rows, s.Writes [.reservations] (s.flushReservations rows) :=
    fun s rows => writes_reservations _
  unfold claim declareCapability
  dsimp only
  split
  · exact (hflush _ _).trans ((hflush _ _).trans (hflush _ _))
  · exact (hflush _ _).trans (hflush _ _)

theorem transitionWaitingNotice_writes (e : Env) (req : RoastWaitingNoticeRequest) (db : Db) :
    db.Writes [.reservations] (transitionWaitingNotice e req db).2 := by
  unfold transitionWaitingNotice
  split
  · exact .refl
  · split
    · exact .refl
    · split
      · exact .refl
      · split
        · exact .refl
        · exact writes_reservations _

theorem prepareOutcomeOnce_writes (e : Env) (req : RoastReservationOutcomeRequest) (db : Db) :
    db.Writes [.userPigProgress, .userDailyFeeds, .groupProtections, .reservations]
      (prepareOutcomeOnce e req db).2 := by
  have hstored : ∀ row, db.Writes [.userPigProgress, .userDailyFeeds, .groupProtections,
      .reservations] (storeOutcome e req row db).2 := by
    intro row
    refine ((raiseSuccessCount_writes row req db).mono rfl).trans ?_
    unfold storeOutcome
    dsimp only
    split
    · exact (feedUsers_writes e row.dateStr row.reservationId _ _).mono rfl
    · exact .refl
  rcases prepareOutcomeOnce_cases e req db with
    heq | ⟨row, -, ⟨-, -, heq⟩ | ⟨-, heq⟩⟩
  · rw [heq]
    exact .refl
  · rw [heq]
    exact (hstored row).trans ((writes_reservations _).mono rfl)
  · rw [heq]
    exact (writes_reservations _).mono rfl

theorem saveOutcome_writes (req : RoastReservationOutcomeRequest) (db : Db) :
    db.Writes [.reservations] (saveOutcome req db).2 := by
  unfold saveOutcome
  split
  · exact .refl
  · dsimp only
    split
    · exact .refl
    · exact answer_writes _ db

theorem markSending_writes (req : RoastReservationMutationRequest) (db : Db) :
    db.Writes [.reservations] (markSending req db).2 := by
  unfold markSending
  split
  · exact .refl
  · exact answer_writes _ db

theorem complete_writes (e : Env) (req : RoastReservationCompleteRequest) (db : Db) :
    db.Writes [.activeUsers, .roastEvents, .reservations] (complete e req db).2 := by
  unfold complete
  split
  · exact .refl
  · have hanswered : ∀ row, db.Writes [.activeUsers, .roastEvents, .reservations]
        (answer row db).2 := fun row => (answer_writes row db).mono rfl
    dsimp only
    split
    · exact (hanswered _).trans ((recordRoastEventWithStatus_writes e _ _ _).mono rfl)
    · exact hanswered _

theorem release_writes (req : RoastReservationMutationRequest) (db : Db) :
    db.Writes [.reservations] (release req db).2 := by
  unfold release
  split
  · exact .refl
  · exact answer_writes _ db

/-! ### Rolls -/

theorem ensureGroupRoll_writes (e : Env) (groupId userId pigId : String) (date : Date) (db : Db) :
    db.Writes [.groupRolls, .activeUsers] (ensureGroupRoll e groupId userId pigId date db) := by
  unfold ensureGroupRoll
  split
  · exact .refl
  · dsimp only
    split
    · exact (markGroupActiveUsers_writes e _ _ _ _).mono rfl
    · exact ((writes_groupRolls _).mono rfl).trans
        ((markGroupActiveUsers_writes e _ _ _ _).mono rfl)

theorem getOrCreateDailyRoll_writes (e : Env) (req : DailyRollGetOrCreateRequest) (db : Db) :
    db.Writes [.dailyRolls, .groupRolls, .collections, .userPigProgress, .userDrawState,
      .activeUsers, .reservations] (getOrCreateDailyRoll e req db).2 := by
  unfold getOrCreateDailyRoll
  split
  · split
    · exact .refl
    · exact (ensureGroupRoll_writes e _ _ _ _ db).mono rfl
  · exact ((createDailyRoll_writes e _ db).mono rfl).trans
      (((ensureGroupRoll_writes e _ _ _ _ _).mono rfl).trans
        ((activateTargetReservations_writes e _ _ _ _ _).mono rfl))

theorem makeupDailyRoll_writes {req : DailyRollGetOrCreateRequest}
    {response : DailyRollLookupResponse} (h : makeupDailyRoll e req db = some (response, db')) :
    db.Writes [.dailyRolls, .collections, .userPigProgress, .userDrawState] db' := by
  rcases makeupDailyRoll_cases h with ⟨existing, -, -, rfl⟩ | ⟨-, -, rfl⟩
  · exact .refl
  · exact createDailyRoll_writes e _ db

theorem completeDailyRollSnapshot_writes {req : DailyRollSnapshotRequest}
    {response : DailyRollOutcomeSnapshot}
    (h : completeDailyRollSnapshot req db = .ok (response, db')) :
    db.Writes [.dailyRolls] db' := by
  obtain ⟨existing, -, rfl | rfl⟩ := completeDailyRollSnapshot_ok h
  · exact .refl
  · exact writes_dailyRolls _

theorem createEvent_writes (e : Env) (req : EventCreateRequest) (db : Db) :
    db.Writes [.userPigProgress, .userDailyFeeds, .activeUsers, .roastEvents]
      (createEvent e req db).2 := by
  have hrecorded : db.Writes [.userPigProgress, .userDailyFeeds, .activeUsers, .roastEvents] _ :=
    (recordRoastEventWithStatus_writes e
      { req with dateStr := some (req.dateStr.getD (rollpigToday e.now)) } none db).mono rfl
  unfold createEvent
  dsimp only
  split
  · refine hrecorded.trans ?_
    exact (applyDailyFeed_writes e _ req.attackerId .roast req.sourceId _).mono rfl
  · exact hrecorded

/-! ### All transactions -/

/-- The tables a request may write. -/
def Request.written : Request → List Table
  | .getOrCreate _ => [.dailyRolls, .groupRolls, .collections, .userPigProgress, .userDrawState,
      .activeUsers, .reservations]
  | .makeup _ => [.dailyRolls, .collections, .userPigProgress, .userDrawState]
  | .snapshot _ => [.dailyRolls]
  | .createEvent _ => [.userPigProgress, .userDailyFeeds, .activeUsers, .roastEvents]
  | .consumeRoast _ | .consumeForce _ => [.userUsage]
  | .grant _ | .replaceGroup _ => [.groupProtections, .reservations, .participants]
  | .bindMessage _ => [.messages]
  | .joinByMessage _ => .groupRolls :: roundTables
  | .prepare _ => roundTables
  | .claim _ | .waitingNotice _ | .saveOutcome _ | .markSending _ | .release _ => [.reservations]
  | .prepareOutcome _ => [.userPigProgress, .userDailyFeeds, .groupProtections, .reservations]
  | .complete _ => [.activeUsers, .roastEvents, .reservations]

/-- **A request writes its tables and no others.** -/
theorem Request.transaction_writes (e : Env) (view : List DailyRoll) (db : Db) (r : Request) :
    db.Writes r.written (r.transaction e view db).db := by
  cases r with
  | getOrCreate req =>
      have hcreated := getOrCreateDailyRoll_writes e req db
      simp only [Request.transaction]
      split <;> simp_all [Request.written]
  | makeup req =>
      simp only [Request.transaction]
      split
      · exact .refl
      · exact makeupDailyRoll_writes (by assumption)
  | snapshot req =>
      simp only [Request.transaction]
      split
      · exact .refl
      · exact completeDailyRollSnapshot_writes (by assumption)
  | createEvent req => exact createEvent_writes e req db
  | consumeRoast req => exact (consumeRoastUsage_onlyUsage e db _ _ _ _).writes
  | consumeForce req =>
      simp only [Request.transaction]
      split
      · exact .refl
      · exact (consumeForceUsage_some (by assumption)).writes
  | grant req =>
      simp only [Request.transaction]
      split
      · exact .refl
      · exact grantProtection_writes (by assumption)
  | replaceGroup req => exact replaceGroup_writes e req db
  | bindMessage req => exact bindMessage_writes req db
  | joinByMessage req =>
      simp only [Request.transaction]
      split
      · exact .refl
      · exact joinByMessage_writes (by assumption)
  | prepare req =>
      simp only [Request.transaction]
      split
      · exact .refl
      · exact (prepareReservation_cases (by assumption)).writes
  | claim req => exact claim_writes e req db
  | waitingNotice req => exact transitionWaitingNotice_writes e req db
  | prepareOutcome req => exact prepareOutcomeOnce_writes e req db
  | saveOutcome req => exact saveOutcome_writes req db
  | markSending req => exact markSending_writes req db
  | complete req => exact complete_writes e req db
  | release req => exact release_writes req db

/-- The second half of a request in flight writes the rounds. -/
theorem Flight.transaction_writes (e : Env) (db : Db) (flight : Flight) :
    db.Writes [.reservations] (flight.transaction e db).db := by
  cases flight with
  | roll flight => exact activateTargetReservations_writes e _ _ _ _ db
  | prepare flight => exact reconcilePrepare_writes e flight db

/-- The tables an action may write. -/
def Action.written : Action → List Table
  | .request r _ => r.written
  | .reconcile _ => [.reservations]

theorem Action.transaction_writes (e : Env) (db : Db) (action : Action) :
    db.Writes action.written (action.transaction e db).db := by
  cases action with
  | request r view => exact r.transaction_writes e view db
  | reconcile flight => exact flight.transaction_writes e db

end RollPig
