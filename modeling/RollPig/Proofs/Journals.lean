/-
Tables whose rows are only ever inserted.

First appearances, active users, collections, feeds and events are journals: no
transaction changes or deletes a row of them.  There is one lemma for each function of
the service, and `Request.transaction_extends` puts them together.
-/
import RollPig.Api
import RollPig.Proofs.Transactions

namespace RollPig

variable {e : Env} {db db' db'' : Db}

/-- The journals only gained rows. -/
structure Db.Extends (db db' : Db) : Prop where
  groupRolls : Tables.Grows (fun _ => True) db.groupRolls db'.groupRolls
  activeUsers : Tables.Grows (fun _ => True) db.activeUsers db'.activeUsers
  collections : Tables.Grows (fun _ => True) db.collections db'.collections
  userDailyFeeds : Tables.Grows (fun _ => True) db.userDailyFeeds db'.userDailyFeeds
  roastEvents : Tables.Grows (fun _ => True) db.roastEvents db'.roastEvents

/-- The journals of a database. -/
def Db.journals (db : Db) : List GroupRoll × List GroupDailyActiveUser × List Collection ×
    List UserDailyFeed × List RoastEvent :=
  (db.groupRolls, db.activeUsers, db.collections, db.userDailyFeeds, db.roastEvents)

namespace Db.Extends

theorem refl : db.Extends db := ⟨.refl, .refl, .refl, .refl, .refl⟩

theorem trans (h₁ : db.Extends db') (h₂ : db'.Extends db'') : db.Extends db'' :=
  ⟨h₁.groupRolls.trans h₂.groupRolls, h₁.activeUsers.trans h₂.activeUsers,
    h₁.collections.trans h₂.collections, h₁.userDailyFeeds.trans h₂.userDailyFeeds,
    h₁.roastEvents.trans h₂.roastEvents⟩

/-- A write to another table. -/
theorem of_journals (h : db'.journals = db.journals) : db.Extends db' := by
  simp only [Db.journals, Prod.mk.injEq] at h
  obtain ⟨hrolls, husers, hcollections, hfeeds, hevents⟩ := h
  exact ⟨.of_eq hrolls, .of_eq husers, .of_eq hcollections, .of_eq hfeeds, .of_eq hevents⟩

/-- A loop of inserts. -/
theorem foldl {α : Type} {f : Db → α → Db} (hstep : ∀ (db : Db) a, db.Extends (f db a))
    (items : List α) (db : Db) : db.Extends (items.foldl f db) := by
  induction items generalizing db with
  | nil => exact refl
  | cons a rest ih => exact (hstep db a).trans (ih (f db a))

end Db.Extends

/-- A first appearance is inserted. -/
theorem groupRolls_extends (rows : List GroupRoll) (db : Db) :
    db.Extends { db with groupRolls := db.groupRolls ++ rows } :=
  ⟨⟨rows, rfl, fun _ _ => trivial⟩, .refl, .refl, .refl, .refl⟩

theorem OnlyUsage.extends (h : OnlyUsage db db') : db.Extends db' := by
  unfold OnlyUsage at h
  rw [h]
  exact .of_journals rfl

/-! ### Activity and events -/

theorem markGroupActiveUsers_extends (e : Env) (date : Date) (groupId : String)
    (userIds : List String) (db : Db) :
    db.Extends (markGroupActiveUsers e date groupId userIds db) := by
  unfold markGroupActiveUsers
  by_cases hgroup : groupId = ""
  · rw [if_pos hgroup]
    exact .refl
  · rw [if_neg hgroup]
    exact ⟨.refl, ⟨_, rfl, fun _ _ => trivial⟩, .refl, .refl, .refl⟩

theorem insertRoastEvent_extends (e : Env) (req : EventCreateRequest) (db : Db) :
    db.Extends (insertRoastEvent e req db) := by
  have hstored : ∀ event, db.Extends { db with roastEvents := db.roastEvents ++ [event] } :=
    fun event => ⟨.refl, .refl, .refl, .refl, .one trivial⟩
  exact (hstored _).trans (markGroupActiveUsers_extends e _ _ _ _)

theorem recordRoastEventWithStatus_extends (e : Env) (req : EventCreateRequest)
    (reservation : Option RoastReservationItem) (db : Db) :
    db.Extends (recordRoastEventWithStatus e req reservation db).2 := by
  unfold recordRoastEventWithStatus
  by_cases hplain : req.reservationId = ""
  · rw [if_pos hplain]
    exact insertRoastEvent_extends e req db
  · rw [if_neg hplain]
    dsimp only
    by_cases hany : (db.roastEvents.any fun row => row.reservationId = req.reservationId) = true
    · rw [if_pos hany]
      exact .refl
    · rw [if_neg hany]
      exact insertRoastEvent_extends e _ db

/-! ### Growth -/

theorem ensureCollection_extends (e : Env) (userId pigId : String) (db : Db) :
    db.Extends (ensureCollection e userId pigId db) := by
  unfold ensureCollection
  split
  · exact .refl
  · exact ⟨.refl, .refl, .one trivial, .refl, .refl⟩

theorem createDailyRoll_extends (e : Env) (roll : DailyRoll) (db : Db) :
    db.Extends (createDailyRoll e roll db).2 := by
  have hcollected := ensureCollection_extends e roll.userId roll.pigId db
  refine hcollected.trans ?_
  unfold createDailyRoll applyCreatedRollProgress
  dsimp only
  cases getProgress db roll.userId roll.pigId <;> cases getDrawState db roll.userId <;>
    exact .of_journals rfl

theorem applyDailyFeed_extends (e : Env) (date : Date) (userId : String) (sourceType : FeedSource)
    (sourceId : String) (db : Db) :
    db.Extends (applyDailyFeed e date userId sourceType sourceId db).2 := by
  unfold applyDailyFeed
  cases (db.dailyRoll? date userId).filter (!·.isMakeup) with
  | none => exact .refl
  | some roll =>
      dsimp only
      cases db.userDailyFeeds.find? fun row => row.dateStr = date ∧ row.userId = userId with
      | some existing => exact .refl
      | none =>
          dsimp only
          cases getProgress db userId roll.pigId <;> dsimp only <;> split
          · exact .of_journals rfl
          · exact ⟨.refl, .refl, .refl, .one trivial, .refl⟩
          · exact .refl
          · exact ⟨.refl, .refl, .refl, .one trivial, .refl⟩

theorem feedUsers_extends (e : Env) (date : Date) (sourceId : String) (userIds : List String) :
    ∀ db : Db, db.Extends (feedUsers e date sourceId userIds db).2 := by
  induction userIds with
  | nil => exact fun db => .refl
  | cons userId rest ih =>
      intro db
      exact (applyDailyFeed_extends e date userId .reservation sourceId db).trans (ih _)

theorem raiseSuccessCount_extends (row : RoastReservation) (req : RoastReservationOutcomeRequest)
    (db : Db) : db.Extends (raiseSuccessCount row req db) := by
  unfold raiseSuccessCount
  cases settledProtection db row with
  | none => exact .refl
  | some protection =>
      dsimp only
      split
      · exact .of_journals rfl
      · exact .refl

/-! ### Protections -/

theorem lockProtection_extends (req : RoastReservationPrepareRequest) (db : Db) :
    db.Extends (lockProtection req db).2 := by
  unfold lockProtection
  split
  · exact .refl
  · split
    · split
      · exact .of_journals rfl
      · exact .refl
    · exact .refl

theorem removeFromRoster_extends (e : Env) (req : ReplaceGroupProtectionsRequest)
    (row : GroupProtection) (db : Db) : db.Extends (removeFromRoster e req row db) := by
  unfold removeFromRoster
  dsimp only
  split <;> exact .of_journals rfl

theorem addToRoster_extends (e : Env) (req : ReplaceGroupProtectionsRequest)
    (current previous : List GroupProtection) (userId : String) (db : Db) :
    db.Extends (addToRoster e req current previous userId db) := by
  unfold addToRoster
  dsimp only
  split_ifs
  · exact .refl
  · exact .of_journals rfl
  · exact .of_journals rfl

theorem replaceGroup_extends (e : Env) (req : ReplaceGroupProtectionsRequest) (db : Db) :
    db.Extends (replaceGroup e req db) := by
  have hleft : db.Extends (removeLeavers e req db) :=
    .foldl (fun db row => removeFromRoster_extends e req row db) _ db
  exact hleft.trans (.foldl (fun db userId => addToRoster_extends e req _ _ userId db) _ _)

theorem grantProtection_extends {req : GrantProtectionRequest}
    {response : GrantProtectionResponse} (h : grantProtection e req db = some (response, db')) :
    db.Extends db' := by
  unfold grantProtection at h
  split_ifs at h
  obtain ⟨-, rfl⟩ := Prod.mk.inj (Option.some.inj h)
  unfold storeGrant
  cases db.protection? req.protectDate req.groupId req.userId <;> exact .of_journals rfl

/-! ### Rounds -/

theorem activateTargetReservations_extends (e : Env) (date : Date) (targetId pigId : String)
    (handledId : String) (db : Db) :
    db.Extends (activateTargetReservations e date targetId pigId db handledId).2 := by
  unfold activateTargetReservations
  dsimp only
  split <;> split <;> exact .of_journals rfl

theorem reconcilePrepare_extends (e : Env) (flight : PrepareInFlight) (db : Db) :
    db.Extends (reconcilePrepare e flight db).2 := by
  have hoffered : ∀ handledId, db.Extends (activateIfTargetAlreadyRolled e flight.dateStr
      flight.targetId db handledId).2 := by
    intro handledId
    unfold activateIfTargetAlreadyRolled
    split
    · exact .refl
    · exact activateTargetReservations_extends e _ _ _ _ db
  unfold reconcilePrepare
  dsimp only
  split <;> exact hoffered _

/-- The write-back that ends a join. -/
theorem answerJoin_extends (e : Env) (req : RoastReservationPrepareRequest)
    (roll : Option DailyRoll) (row : RoastReservation) (members : List RoastReservationParticipant)
    (status : PrepareStatus) (db : Db) :
    db.Extends (answerJoin e req roll row members status db).2 :=
  (markGroupActiveUsers_extends e req.dateStr req.groupId [req.attackerId] db).trans
    (.of_journals rfl)

theorem joinRound_extends (e : Env) (req : RoastReservationPrepareRequest)
    (roll : Option DailyRoll) (row : RoastReservation) (members : List RoastReservationParticipant)
    (db : Db) : db.Extends (joinRound e req roll row members db).2 := by
  unfold joinRound
  split
  · unfold rejoinRound
    dsimp only
    split
    · exact .of_journals rfl
    · split
      · exact .refl
      · rename_i paid hpaid
        have hwritten : ∀ rows, paid.Extends (paid.flushParticipants rows) :=
          fun rows => .of_journals rfl
        exact (payBoost_some hpaid).extends.trans
          ((hwritten _).trans (answerJoin_extends e req roll row _ _ _))
  · unfold enlistRound
    dsimp only
    split
    · exact .refl
    · split
      · exact .refl
      · rename_i paid hpaid
        have hinserted : ∀ rows, paid.Extends { paid with participants := rows } :=
          fun rows => .of_journals rfl
        exact (payBoost_some hpaid).extends.trans
          ((hinserted _).trans (answerJoin_extends e req roll row _ _ _))

theorem enterRound_extends (e : Env) (req : RoastReservationPrepareRequest)
    (roll : Option DailyRoll) (row : RoastReservation) (db : Db) :
    db.Extends (enterRound e req roll row db).2 := by
  unfold enterRound
  dsimp only
  split
  · exact .of_journals rfl
  · split
    · exact .refl
    · split
      · split
        · exact .refl
        · exact (markGroupActiveUsers_extends e req.dateStr req.groupId [req.attackerId] db).trans
            (.of_journals rfl)
      · exact joinRound_extends e req roll row _ db

theorem Prepared.extends {view : List DailyRoll} {req : RoastReservationPrepareRequest}
    {expected : Option String} {reservationId : String}
    {response : RoastReservationPrepareResponse}
    (h : Prepared e view req expected reservationId db response db') : db.Extends db' := by
  refine (lockProtection_extends req db).trans ?_
  cases h with
  | refused _ _ hframe => exact hframe.extends
  | entered hfind => exact enterRound_extends e req _ _ _
  | @created paid _ _ _ _ _ hpaid =>
      have hinserted : ∀ rows members,
          paid.Extends { paid with reservations := rows, participants := members } :=
        fun rows members => .of_journals rfl
      exact (payForRound_ok hpaid).extends.trans
        ((hinserted _ _).trans (markGroupActiveUsers_extends e _ _ _ _))

theorem joinByMessage_extends {view : List DailyRoll} {req : RoastReservationReplyJoinRequest}
    {response : RoastReservationPrepareResponse}
    (h : joinByMessage e view req db = .ok (response, db')) : db.Extends db' := by
  rcases joinByMessage_cases h with
    rfl | ⟨reservation, roll, expected, replied, -, hprepared, rfl | rfl⟩
  · exact .refl
  · exact hprepared.extends
  · refine hprepared.extends.trans ?_
    unfold registerReply
    split
    · exact .refl
    · exact groupRolls_extends _ replied

theorem bindMessage_extends (req : RoastReservationBindMessageRequest) (db : Db) :
    db.Extends (bindMessage req db).2 := by
  unfold bindMessage
  dsimp only
  split
  · exact .refl
  · split
    · exact .refl
    · exact .of_journals rfl

/-! ### Claims and results -/

theorem claim_extends (e : Env) (req : RoastReservationClaimRequest) (db : Db) :
    db.Extends (claim e req db).2 := by
  unfold claim declareCapability
  dsimp only
  split <;> exact .of_journals rfl

theorem transitionWaitingNotice_extends (e : Env) (req : RoastWaitingNoticeRequest) (db : Db) :
    db.Extends (transitionWaitingNotice e req db).2 := by
  unfold transitionWaitingNotice
  split
  · exact .refl
  · split
    · exact .refl
    · split
      · exact .refl
      · split
        · exact .refl
        · exact .of_journals rfl

theorem prepareOutcomeOnce_extends (e : Env) (req : RoastReservationOutcomeRequest) (db : Db) :
    db.Extends (prepareOutcomeOnce e req db).2 := by
  have hstored : ∀ row, db.Extends (storeOutcome e req row db).2 := by
    intro row
    refine (raiseSuccessCount_extends row req db).trans ?_
    unfold storeOutcome
    dsimp only
    split
    · exact feedUsers_extends e row.dateStr row.reservationId _ _
    · exact .refl
  rcases prepareOutcomeOnce_cases e req db with
    heq | ⟨row, -, ⟨-, -, heq⟩ | ⟨-, heq⟩⟩
  · rw [heq]
    exact .refl
  · rw [heq]
    exact (hstored row).trans (.of_journals rfl)
  · rw [heq]
    exact .of_journals rfl

theorem saveOutcome_extends (req : RoastReservationOutcomeRequest) (db : Db) :
    db.Extends (saveOutcome req db).2 := by
  unfold saveOutcome
  split
  · exact .refl
  · dsimp only
    split
    · exact .refl
    · exact .of_journals rfl

theorem markSending_extends (req : RoastReservationMutationRequest) (db : Db) :
    db.Extends (markSending req db).2 := by
  unfold markSending
  split
  · exact .refl
  · exact .of_journals rfl

theorem complete_extends (e : Env) (req : RoastReservationCompleteRequest) (db : Db) :
    db.Extends (complete e req db).2 := by
  unfold complete
  split
  · exact .refl
  · rename_i row _
    have hanswered : db.Extends (answer (completedRow e row) db).2 := .of_journals rfl
    dsimp only
    split
    · exact hanswered.trans (recordRoastEventWithStatus_extends e _ _ _)
    · exact hanswered

theorem release_extends (req : RoastReservationMutationRequest) (db : Db) :
    db.Extends (release req db).2 := by
  unfold release
  split
  · exact .refl
  · exact .of_journals rfl

/-! ### Rolls -/

theorem ensureGroupRoll_extends (e : Env) (groupId userId pigId : String) (date : Date) (db : Db) :
    db.Extends (ensureGroupRoll e groupId userId pigId date db) := by
  unfold ensureGroupRoll
  split
  · exact .refl
  · dsimp only
    split
    · exact markGroupActiveUsers_extends e _ _ _ _
    · exact (groupRolls_extends _ db).trans (markGroupActiveUsers_extends e _ _ _ _)

theorem markSeen_extends (e : Env) (req : GroupRollMarkSeenRequest) (db : Db) :
    db.Extends (markSeen e req db) := by
  unfold markSeen
  dsimp only
  split
  · exact markGroupActiveUsers_extends e _ _ _ _
  · exact (groupRolls_extends _ db).trans (markGroupActiveUsers_extends e _ _ _ _)

theorem getOrCreateDailyRoll_extends (e : Env) (req : DailyRollGetOrCreateRequest) (db : Db) :
    db.Extends (getOrCreateDailyRoll e req db).2 := by
  unfold getOrCreateDailyRoll
  split
  · split
    · exact .refl
    · exact ensureGroupRoll_extends e _ _ _ _ db
  · exact (createDailyRoll_extends e _ db).trans ((ensureGroupRoll_extends e _ _ _ _ _).trans
      (activateTargetReservations_extends e _ _ _ _ _))

theorem makeupDailyRoll_extends {req : DailyRollGetOrCreateRequest}
    {response : DailyRollLookupResponse} (h : makeupDailyRoll e req db = some (response, db')) :
    db.Extends db' := by
  rcases makeupDailyRoll_cases h with ⟨existing, -, -, rfl⟩ | ⟨-, -, rfl⟩
  · exact .refl
  · exact createDailyRoll_extends e _ db

theorem completeDailyRollSnapshot_extends {req : DailyRollSnapshotRequest}
    {response : DailyRollOutcomeSnapshot}
    (h : completeDailyRollSnapshot req db = .ok (response, db')) : db.Extends db' := by
  obtain ⟨existing, -, rfl | rfl⟩ := completeDailyRollSnapshot_ok h
  · exact .refl
  · exact .of_journals rfl

theorem createEvent_extends (e : Env) (req : EventCreateRequest) (db : Db) :
    db.Extends (createEvent e req db).2 := by
  have hrecorded := recordRoastEventWithStatus_extends e
    { req with dateStr := some (req.dateStr.getD (rollpigToday e.now)) } none db
  unfold createEvent
  dsimp only
  split
  · exact hrecorded.trans (applyDailyFeed_extends e _ _ _ _ _)
  · exact hrecorded

/-! ### All transactions -/

/-- **No transaction rewrites a journal.** -/
theorem Request.transaction_extends (e : Env) (view : List DailyRoll) (db : Db) (r : Request) :
    db.Extends (r.transaction e view db).db := by
  cases r with
  | getOrCreate req =>
      have hcreated := getOrCreateDailyRoll_extends e req db
      simp only [Request.transaction]
      split <;> simp_all
  | makeup req =>
      simp only [Request.transaction]
      split
      · exact .refl
      · exact makeupDailyRoll_extends (by assumption)
  | snapshot req =>
      simp only [Request.transaction]
      split
      · exact .refl
      · exact completeDailyRollSnapshot_extends (by assumption)
  | createEvent req => exact createEvent_extends e req db
  | consumeRoast req => exact (consumeRoastUsage_onlyUsage e db _ _ _ _).extends
  | consumeForce req =>
      simp only [Request.transaction]
      split
      · exact .refl
      · exact (consumeForceUsage_some (by assumption)).extends
  | grant req =>
      simp only [Request.transaction]
      split
      · exact .refl
      · exact grantProtection_extends (by assumption)
  | replaceGroup req => exact replaceGroup_extends e req db
  | bindMessage req => exact bindMessage_extends req db
  | joinByMessage req =>
      simp only [Request.transaction]
      split
      · exact .refl
      · exact joinByMessage_extends (by assumption)
  | prepare req =>
      simp only [Request.transaction]
      split
      · exact .refl
      · exact (prepareReservation_cases (by assumption)).extends
  | claim req => exact claim_extends e req db
  | waitingNotice req => exact transitionWaitingNotice_extends e req db
  | prepareOutcome req => exact prepareOutcomeOnce_extends e req db
  | saveOutcome req => exact saveOutcome_extends req db
  | markSending req => exact markSending_extends req db
  | complete req => exact complete_extends e req db
  | release req => exact release_extends req db

theorem Action.transaction_extends (e : Env) (db : Db) (action : Action) :
    db.Extends (action.transaction e db).db := by
  cases action with
  | request r rolls => exact r.transaction_extends e rolls db
  | reconcile flight =>
      cases flight with
      | roll flight => exact activateTargetReservations_extends e _ _ _ _ db
      | prepare flight => exact reconcilePrepare_extends e flight db

end RollPig
