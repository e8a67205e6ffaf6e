/-
Who pays for a round is not fed by it, as long as the round goes on asking for the
payment.

A force use counts double in a protected round.  The settlement looks at the
contribution only if the round is protected then, and a takeover saves the right to be
fed by the same test, so a protection that is gone by then takes the payer for somebody
who paid nothing.  Nothing else does.
-/
import RollPig.Proofs.Capability
import RollPig.Proofs.Takeovers

namespace RollPig

open Transition

variable {w w' w₁ w₂ : World} {event : Event} {db : Db} {e : Env} {row : RoastReservation}
  {req : RoastReservationPrepareRequest} {user id : String}

/-! ### Paying for a round -/

/-- The user pays a force use for the round: to open it, to join it while it is protected,
or to count double in it. -/
def Event.Pays (event : Event) (user id : String) : Prop :=
  ∃ req view response item, event.action = .request (.prepare req) view ∧
    event.response = .prepare response ∧ response.reservation = some item ∧
    item.reservationId = id ∧ req.attackerId = user ∧ req.forceMode = some "normal" ∧
    (response.status = .reservationCreated ∨
      (response.status = .reservationJoined ∧ 0 < item.protectionRequired) ∨
      response.status = .reservationUpgraded)

/-- A request that is no super force and joins was let into a waiting round. -/
theorem enterRound_joins {roll : Option DailyRoll} (hreq : req.forceMode ≠ some "super")
    (hstatus : (enterRound e req roll row db).1.status = .reservationJoined ∨
      (enterRound e req roll row db).1.status = .reservationUpgraded) :
    row.status = .pending ∧ enterRound e req roll row db =
      joinRound e req roll row (db.members row.reservationId) db := by
  unfold enterRound at hstatus ⊢
  dsimp only at hstatus ⊢
  by_cases hopen : row.status = .pending
  · rw [if_neg (by simp [hopen])] at hstatus ⊢
    by_cases hforce : row.forceMode = some "super"
    · rw [if_pos hforce] at hstatus
      dsimp only at hstatus
      split_ifs at hstatus <;> simp at hstatus
    · rw [if_neg hforce, if_neg hreq]
      exact ⟨hopen, rfl⟩
  · rw [if_pos hopen] at hstatus
    simp at hstatus

/-- The answer to a join shows the round joined. -/
theorem joinRound_item {roll : Option DailyRoll} {members : List RoastReservationParticipant}
    (hreq : req.forceMode ≠ some "super") {item : RoastReservationItem}
    (hitem : (joinRound e req roll row members db).1.reservation = some item) :
    item.reservationId = row.reservationId ∧ item.protectionRequired = row.protectionRequired := by
  have hshown : ∀ row' : RoastReservation, row'.reservationId = row.reservationId →
      row'.protectionRequired = row.protectionRequired → ∀ members,
        some (reservationToSchema row' members) = some item →
          item.reservationId = row.reservationId ∧
            item.protectionRequired = row.protectionRequired := by
    intro row' hid hrequired members hsome
    obtain rfl := Option.some.inj hsome
    exact ⟨hid, hrequired⟩
  have hupdated : (updateDeliveryCapability row req).protectionRequired =
      row.protectionRequired := by
    obtain ⟨bot, version, heq⟩ := updateDeliveryCapability_eq row req
    rw [heq]
  have hjoined : ∀ members, (joinedRow e req roll row members).protectionRequired =
      row.protectionRequired := fun members =>
    (congrArg (·.protectionRequired) (standing_joinedRow e hreq roll row members)).trans hupdated
  unfold joinRound at hitem
  split at hitem
  · unfold rejoinRound at hitem
    dsimp only at hitem
    split at hitem
    · exact hshown _ (updateDeliveryCapability_reservationId row req) hupdated _ hitem
    · split at hitem
      · simp at hitem
      · exact hshown _ (joinedRow_reservationId e req roll row _) (hjoined _) _ hitem
  · unfold enlistRound at hitem
    dsimp only at hitem
    split at hitem
    · exact hshown _ rfl rfl _ hitem
    · split at hitem
      · simp at hitem
      · exact hshown _ (joinedRow_reservationId e req roll row _) (hjoined _) _ hitem

/-- A boost that lets the attacker in leaves the attacker with a contribution of two. -/
theorem joinRound_doubles {roll : Option DailyRoll} (hboost : boosts req row = true)
    (hstatus : (joinRound e req roll row (db.members row.reservationId) db).1.status =
        .reservationJoined ∨
      (joinRound e req roll row (db.members row.reservationId) db).1.status =
        .reservationUpgraded) :
    ∃ member ∈ (joinRound e req roll row (db.members row.reservationId) db).2.members
        row.reservationId, member.userId = req.attackerId ∧ member.contribution = 2 := by
  have hnormal : req.forceMode ≠ some "super" := by
    simp only [boosts, Bool.and_eq_true, decide_eq_true_eq] at hboost
    simp [hboost.2]
  unfold joinRound at hstatus ⊢
  cases hfind : (db.members row.reservationId).find? fun member =>
      member.userId = req.attackerId with
  | some participant =>
      have huser : participant.userId = req.attackerId := by simpa using List.find?_some hfind
      obtain ⟨hmember, hid⟩ := Db.mem_members.mp (List.mem_of_find?_eq_some hfind)
      rw [hfind] at hstatus
      simp only [rejoinRound, hboost, true_and, if_true] at hstatus ⊢
      split at hstatus
      · simp at hstatus
      · rename_i hagain
        rw [if_neg hagain]
        simp only [payBoost, if_true] at hstatus ⊢
        cases hpaid : consumeForceUsage req.attackerId req.dateStr db with
        | none => simp [hpaid] at hstatus
        | some paid =>
            have hframe : paid = { db with userUsage := paid.userUsage } :=
              consumeForceUsage_some hpaid
            refine ⟨{ participant with contribution := 2 }, ?_, huser, rfl⟩
            refine Db.mem_members.mpr ⟨?_, hid⟩
            rw [hframe]
            simp only [answerJoin, flushReservations_frame, markGroupActiveUsers_frame]
            exact Tables.mem_writeBack_of_mem (by simp [Tables.Unique])
              (List.mem_singleton.mpr rfl) hmember rfl
  | none =>
      rw [hfind] at hstatus
      simp only [enlistRound, hboost, if_true, payBoost] at hstatus ⊢
      split at hstatus
      · simp at hstatus
      · rename_i hroom
        rw [if_neg hroom]
        cases hpaid : consumeForceUsage req.attackerId req.dateStr db with
        | none => simp [hpaid] at hstatus
        | some paid =>
            refine ⟨newParticipant e row.reservationId req 2, ?_, rfl, rfl⟩
            refine Db.mem_members.mpr ⟨?_, rfl⟩
            simp [answerJoin]

/-- Only a boost upgrades. -/
theorem joinRound_upgrades {roll : Option DailyRoll} {members : List RoastReservationParticipant}
    (hstatus : (joinRound e req roll row members db).1.status = .reservationUpgraded) :
    boosts req row = true := by
  by_contra hboost
  unfold joinRound at hstatus
  split at hstatus
  · simp only [rejoinRound, hboost, payBoost, answerJoin] at hstatus
    split at hstatus <;> simp at hstatus
  · simp only [enlistRound, hboost, payBoost, answerJoin] at hstatus
    split at hstatus <;> simp at hstatus

/-- A prepare that joins entered the round it found. -/
theorem Prepared.of_joined {view : List DailyRoll} {expected : Option String}
    {reservationId : String} {db' : Db} {response : RoastReservationPrepareResponse}
    (h : Prepared e view req expected reservationId db response db')
    (hjoined : response.status = .reservationJoined ∨ response.status = .reservationUpgraded) :
    ∃ row, findRound req db = some row ∧
      response = (enterRound e req (presentRoll view req.dateStr req.targetId) row
        (lockProtection req db).2).1 ∧
      db' = (enterRound e req (presentRoll view req.dateStr req.targetId) row
        (lockProtection req db).2).2 := by
  cases h with
  | refused hresponse =>
      simp only [RoastReservationPrepareResponse.reconciles, Bool.or_eq_false_iff,
        decide_eq_false_iff_not] at hresponse
      rcases hjoined with hjoined | hjoined <;> simp [hjoined] at hresponse
  | entered hfind => exact ⟨_, hfind, rfl, rfl⟩
  | created hexpected hfind hgate hpaid hfree hstatus =>
      rcases hjoined with hjoined | hjoined <;> simp [hstatus] at hjoined

/-! ### The debt -/

/-- The round knows that the user paid, and has not fed the user. -/
structure World.Owes (w : World) (user id : String) : Prop where
  paid : ∃ row ∈ w.db.reservations, row.reservationId = id ∧
    (w.db.round row).crowd.Paid user
  unfed : ∀ feed ∈ w.db.userDailyFeeds, feed.From id → feed.userId ≠ user

/-- No feed comes from a round without a result. -/
theorem unfed_of_unsettled (h : Reachable service w) (hstep : service.step w event w')
    {view : List DailyRoll} (haction : event.action = .request (.prepare req) view)
    (hunsettled : ∀ row ∈ w.db.reservations, row.reservationId = id → row.outcomeSnapshot = none) :
    ∀ feed ∈ w'.db.userDailyFeeds, ¬ feed.From id := by
  intro feed hfeed hfrom
  rcases feed_settles hstep hfeed hfrom with hold | ⟨outcome, view', hother, -⟩
  · obtain ⟨row, hrow, hid, -, hsettled⟩ := feedsSettled_of_reachable h feed hold hfrom.1
    rw [hunsettled row hrow (hid.trans hfrom.2)] at hsettled
    simp at hsettled
  · rw [haction] at hother
    simp at hother

/-- **Who pays for a round is owed for it.** -/
theorem Event.Pays.owes (hpays : event.Pays user id) (h : Reachable service w)
    (hstep : service.step w event w') : w'.Owes user id := by
  obtain ⟨req, view, response, item, haction, hresponse, hitem, rfl, rfl, hforce, hstatus⟩ := hpays
  have hsound := sound_of_reachable h
  rcases hstatus with hcreated | hjoined
  · obtain ⟨row, item', hrow, hstored, hitem', hid, -⟩ :=
      created_of_response hstep haction hresponse hcreated
    obtain rfl : item = item' := Option.some.inj (hitem.symm.trans hitem')
    have hstanding := standing_insertedRow event.env req (presentRoll view req.dateStr req.targetId)
      (lockProtection req w.db).1 (event.env.uuid 0)
    rw [← hrow] at hstanding
    have hfresh : ∀ r ∈ w.db.reservations, r.reservationId ≠ row.reservationId := by
      intro r hr hsame
      have hkey : row.reservationId = event.env.uuid 0 := congrArg (·.reservationId) hstanding
      have hissued := hsound.issued r hr
      rw [hsame, hkey] at hissued
      exact hstep.1.unissued 0 hissued
    have hpaid : (w'.db.round row).crowd.Paid req.attackerId := by
      rcases hsound.step_round hstep hstored with ⟨r, hr, hsame, -⟩ | ⟨hborn, -⟩
      · exact absurd hsame (hfresh r hr)
      · have howner : row.ownerId = req.attackerId := congrArg (·.ownerId) hstanding
        have hmode : row.forceMode = some "normal" :=
          (congrArg (·.forceMode) hstanding).trans hforce
        rw [← howner]
        exact hborn.crowd.paid (forceModeOf_eq_normal.mpr hmode)
    refine ⟨⟨row, hstored, hid.symm, hpaid⟩, fun feed hfeed hfrom => ?_⟩
    refine absurd hfrom (unfed_of_unsettled h hstep haction (fun r hr hsame => ?_) feed hfeed)
    exact absurd (hsame.trans hid) (hfresh r hr)
  · have hreq : req.forceMode ≠ some "super" := by simp [hforce]
    have hjoins : response.status = .reservationJoined ∨ response.status = .reservationUpgraded :=
      hjoined.imp And.left id
    obtain ⟨row, hfind, hanswer, hdb⟩ := (prepareReservation_cases
      (prepared_of_response hstep haction hresponse)).of_joined hjoins
    have hrow := (findRound_some hfind).1
    rw [hanswer] at hjoins hjoined hitem
    obtain ⟨hpending, hround⟩ := enterRound_joins hreq hjoins
    rw [hround] at hjoins hjoined hitem hdb
    obtain ⟨hid, hrequired⟩ := joinRound_item hreq hitem
    have hboost : boosts req row = true := by
      rcases hjoined with ⟨-, hpositive⟩ | hupgraded
      · rw [hrequired] at hpositive
        simp [boosts, hpositive, hforce]
      · exact joinRound_upgrades hupgraded
    obtain ⟨member, hmember, huser, hdouble⟩ := joinRound_doubles hboost hjoins
    rw [← hdb] at hmember
    obtain ⟨row', hrow', hsame, -⟩ := hsound.step_round_forward hstep hrow
    refine ⟨⟨row', hrow', hsame.symm.trans hid.symm, Or.inl ⟨gatherer member, ?_, huser, hdouble⟩⟩,
      fun feed hfeed hfrom => ?_⟩
    · rw [(Round.crowd_frame _).2.2.2.2.2.2]
      refine List.mem_map_of_mem ?_
      show member ∈ w'.db.members row'.reservationId
      rwa [← hsame]
    · refine absurd hfrom (unfed_of_unsettled h hstep haction (fun r hr hsame => ?_) feed hfeed)
      obtain rfl : r = row := hsound.db.ids.eq hr hrow (hsame.trans hid)
      exact ((staged_of_reachable h r hr).pending hpending).2

/-! ### Settling -/

/-- The settlement meets a participant with a contribution of two in a round that does not
ask for it: a round without a threshold, or one taken over when it had none. -/
def FeedsPayer (db : Db) (outcome : RoastReservationOutcomeRequest) (row : RoastReservation) : Prop :=
  outcome.settleDailyFeed = true ∧ outcome.outcomeSnapshot.eventType = "success" ∧
    ∃ member ∈ db.members row.reservationId, member.contribution = 2 ∧
      ((row.forceMode = some "super" ∧ member.userId ∈ row.forceFeedUserIds.getD []) ∨
        (row.forceMode ≠ some "super" ∧ row.forceMode ≠ some "normal" ∧
          row.protectionRequired = 0))

instance (db : Db) (outcome : RoastReservationOutcomeRequest) (row : RoastReservation) :
    Decidable (FeedsPayer db outcome row) := by
  unfold FeedsPayer
  infer_instance

/-- Runs in which no settlement does so. -/
def fairlySettled : System World Event where
  init := service.init
  step w event w' :=
    service.step w event w' ∧
      ∀ outcome view row, event.action = .request (.prepareOutcome outcome) view →
        Fresh w.db outcome row → ¬ FeedsPayer w.db outcome row

theorem Run.of_fairlySettled {events : List Event} (h : Run fairlySettled w events w') :
    Run service w events w' := by
  induction h with
  | nil => exact Run.nil
  | snoc _ hstep ih => exact Run.snoc ih hstep.1

/-- A settlement that feeds somebody who paid is one of these. -/
theorem feedsPayer_of_fed (h : Reachable service w) (hrow : row ∈ w.db.reservations)
    {outcome : RoastReservationOutcomeRequest} (hsettles : settlesFeed row outcome = true)
    (hpaid : (w.db.round row).crowd.Paid user) (hfed : user ∈ fedUsers w.db row) :
    FeedsPayer w.db outcome row := by
  obtain ⟨hdeclared, hfeeds, hsuccess⟩ := (settlesFeed_iff (w.db.round row)).mp hsettles
  have hsaved : (w.db.round row).crowd.mode ≠ .super → (w.db.round row).crowd.saved = none :=
    fun hmode => saved_of_reachable h hrow fun hsuper => hmode (forceModeOf_eq_super.mpr hsuper)
  obtain ⟨m, hm, huser, heligible⟩ := mem_fedUsers hfed
  obtain ⟨m', hm', huser', hdouble⟩ := Gathering.Paid.fed hpaid hsaved hfeeds huser heligible
  have hdistinct : ((w.db.round row).crowd.roster.map (·.user)).Nodup := by
    rw [(Round.crowd_frame _).2.2.2.2.2.2, List.map_map]
    exact (manned_of_reachable h row hrow).distinct
  obtain rfl : m' = m := List.inj_on_of_nodup_map hdistinct hm' hm (huser'.trans huser.symm)
  rw [(Round.crowd_frame _).2.2.2.2.2.2] at hm
  obtain ⟨member, hmember, rfl⟩ := List.mem_map.mp hm
  refine ⟨hdeclared, hsuccess, member, hmember, hdouble, ?_⟩
  rcases heligible with ⟨hsuper, hkept⟩ | ⟨hplain, hsingle⟩
  · exact Or.inl ⟨forceModeOf_eq_super.mp hsuper, hkept⟩
  · have hfree : row.protectionRequired = 0 := by
      rcases hsingle with hzero | hone
      · exact hzero
      · rw [hdouble] at hone
        exact absurd hone (by decide)
    have hmode := (Gathering.feeds_iff hplain (hsaved hplain)).mp hfeeds
    refine Or.inr ⟨fun hsuper => hplain (forceModeOf_eq_super.mpr hsuper), fun hnormal => ?_, hfree⟩
    rcases hmode with hne | hpositive
    · exact hne (forceModeOf_eq_normal.mpr hnormal)
    · have hpositive : 0 < row.protectionRequired := hpositive
      omega

/-- A step keeps what is owed. -/
theorem World.Owes.step (howes : w.Owes user id) (h : Reachable service w)
    (hstep : fairlySettled.step w event w') : w'.Owes user id := by
  obtain ⟨hserved, hfair⟩ := hstep
  have hsound := sound_of_reachable h
  obtain ⟨row, hrow, hid, hpaid⟩ := howes.paid
  obtain ⟨row', hrow', hsame, hsteps⟩ := hsound.step_round_forward hserved hrow
  refine ⟨⟨row', hrow', hsame.symm.trans hid, ?_⟩, fun feed hfeed hfrom huser => ?_⟩
  · refine hsteps.keeps (P := fun r => r.crowd.Paid user) (fun r r' hround hr => ?_) hpaid
    rcases hround.crowd with hstays | hgathers
    · rw [hstays]
      exact hr
    · exact hgathers.paid hr
  · rcases feed_settles hserved hfeed hfrom with
      hold | ⟨outcome, view, haction, settled, hsettled, hfresh, hsettles⟩
    · exact howes.unfed feed hold hfrom huser
    · obtain rfl : settled = row :=
        hsound.db.ids.eq (leasedRow_some hfresh.leased).1 hrow (hsettled.trans hid.symm)
      have hfed : user ∈ fedUsers w.db settled := huser ▸ hsettles.user
      exact hfair outcome view settled haction hfresh
        (feedsPayer_of_fed h hrow hsettles.settles hpaid hfed)

/-- **Who paid a force use for a round is never fed by it**, in every run whose settlements
meet no contribution of two that their round does not ask for. -/
theorem payer_not_fed (h : Reachable service w) (hstep : service.step w event w₁)
    (hpays : event.Pays user id) {events : List Event} (hrun : Run fairlySettled w₁ events w₂) :
    ∀ feed ∈ w₂.db.userDailyFeeds, feed.From id → feed.userId ≠ user := by
  have hreach := h.step hstep
  have howes : w₂.Owes user id := by
    induction hrun with
    | nil => exact hpays.owes h hstep
    | snoc hrun hstep ih => exact ih.step (hreach.run (Run.of_fairlySettled hrun)) hstep
  exact howes.unfed

/-! ### A protection that is kept, and one that is withdrawn -/

/-- User 1 forces the protected user 2, who is there. -/
def paidScript : List (Time × Order) :=
  guardedScript ++ [(739000 * dayMicros, .request (.prepare (crowdRequest "1" (some "normal"))))]

/-- The result of the round of the k-th request, held under the token of the j-th. -/
def successOf (k j : Nat) : RoastReservationOutcomeRequest :=
  { reservationId := scriptToken k 0, claimToken := scriptToken j 0,
    outcomeSnapshot := { eventType := "success", canonical := "" }, settleDailyFeed := true }

def paidEvent : Event :=
  scriptEvent guardedScript (739000 * dayMicros) (.prepare (crowdRequest "1" (some "normal")))

/-- The answer to the request is this one, for this round. -/
def Event.Answers (event : Event) (status : PrepareStatus) (id : String) : Bool :=
  match event.response with
  | .prepare response => decide (response.status = status) &&
      (match response.reservation with
        | some item => decide (item.reservationId = id ∧ 0 < item.protectionRequired)
        | none => false)
  | _ => false

theorem Event.Answers.pays {s : PrepareStatus} (h : event.Answers s id = true)
    (hstatus : s = .reservationCreated ∨ s = .reservationJoined) {view : List DailyRoll}
    (haction : event.action = .request (.prepare req) view) (hforce : req.forceMode = some "normal") :
    event.Pays req.attackerId id := by
  unfold Event.Answers at h
  split at h
  · rename_i response hresponse
    split at h
    · rename_i item hitem
      simp only [Bool.and_eq_true, decide_eq_true_eq] at h
      obtain ⟨hanswer, hid, hrequired⟩ := h
      refine ⟨req, view, response, item, haction, hresponse, hitem, hid, rfl, hforce, ?_⟩
      rw [hanswer]
      rcases hstatus with hcreated | hjoined
      · exact Or.inl hcreated
      · exact Or.inr (Or.inl ⟨hjoined, hrequired⟩)
    · simp at h
  · simp at h

/-- The bot leases the round and reports a success. -/
def settledScript : List (Time × Order) :=
  paidScript ++ [(739000 * dayMicros, .request (.claim crowdClaim))] ++
    [(739000 * dayMicros, .request (.prepareOutcome (successOf 3 4)))]

theorem payer_not_fed_guarded :
    (∃ row ∈ (scriptWorld settledScript).db.reservations, row.outcomeSnapshot.isSome = true) ∧
      ∀ feed ∈ (scriptWorld settledScript).db.userDailyFeeds,
        feed.From (scriptToken 3 0) → feed.userId ≠ "1" := by
  have hplay : (play 0 {} (paidScript ++
      [(739000 * dayMicros, .request (.claim crowdClaim))])).isSome = true := by decide +kernel
  have hpaid : (play 0 {} paidScript).isSome = true := play_front hplay
  have hguarded : (play 0 {} guardedScript).isSome = true := play_front hpaid
  have hpays : paidEvent.Pays "1" (scriptToken 3 0) :=
    Event.Answers.pays (s := .reservationCreated) (by decide +kernel) (Or.inl rfl)
      (rfl : paidEvent.action = .request (.prepare (crowdRequest "1" (some "normal"))) _) rfl
  have hfair : ∀ row ∈ (scriptWorld (paidScript ++
      [(739000 * dayMicros, .request (.claim crowdClaim))])).db.reservations,
      ¬ FeedsPayer (scriptWorld (paidScript ++
        [(739000 * dayMicros, .request (.claim crowdClaim))])).db (successOf 3 4) row := by
    decide +kernel
  have hstep := script_step hguarded (739000 * dayMicros)
    (.prepare (crowdRequest "1" (some "normal")))
  rw [← scriptWorld_snoc hguarded] at hstep
  have hclaim := script_step hpaid (739000 * dayMicros) (.claim crowdClaim)
  rw [← scriptWorld_snoc hpaid] at hclaim
  have hsettle := script_step hplay (739000 * dayMicros) (.prepareOutcome (successOf 3 4))
  rw [← scriptWorld_snoc hplay] at hsettle
  have hclaimed : fairlySettled.step _ _ _ := ⟨hclaim, fun outcome view row haction => nomatch haction⟩
  have hsettled : fairlySettled.step _ _ _ := ⟨hsettle, fun outcome view row haction hfresh => by
    obtain rfl : successOf 3 4 = outcome := by
      cases haction
      rfl
    exact hfair row (leasedRow_some hfresh.leased).1⟩
  exact ⟨by decide +kernel,
    payer_not_fed (script_reachable hguarded) hstep hpays ((Run.single hclaimed).snoc hsettled)⟩

def coveredRequest (users : List String) : ReplaceGroupProtectionsRequest :=
  scriptRoster "7" users 1

/-- User 2 is protected, user 3 has rolled, and user 1 opens a round. -/
def coveredScript : List (Time × Order) :=
  let now : Time := 739000 * dayMicros
  let roll : DailyRollGetOrCreateRequest :=
    { userId := "3", proposedPigId := "boar", dateStr := 739000 }
  [(now, .request (.replaceGroup (coveredRequest ["2"]))), (now, .request (.getOrCreate roll)),
    (now, .finish 0), (now, .request (.prepare (crowdRequest "1" none))), (now, .finish 0)]

/-- User 3 joins it with a force. -/
def boostScript : List (Time × Order) :=
  coveredScript ++ [(739000 * dayMicros, .request (.prepare (crowdRequest "3" (some "normal"))))]

def boostEvent : Event :=
  scriptEvent coveredScript (739000 * dayMicros) (.prepare (crowdRequest "3" (some "normal")))

/-- The protection is withdrawn, user 2 rolls, and the bot reports a success. -/
def uncoveredScript : List (Time × Order) :=
  let now : Time := 739000 * dayMicros
  let roll : DailyRollGetOrCreateRequest :=
    { userId := "2", proposedPigId := "boar", dateStr := 739000 }
  [(now, .request (.replaceGroup (coveredRequest []))), (now, .request (.getOrCreate roll)),
    (now, .request (.claim crowdClaim)), (now, .request (.prepareOutcome (successOf 3 8)))]

/-- Who paid against a protection that is withdrawn is fed. -/
theorem payer_fed :
    ¬ ∀ w, Reachable service w → ∀ event w₁, service.step w event w₁ →
      ∀ user id, event.Pays user id → ∀ events w₂, Run service w₁ events w₂ →
      ∀ feed ∈ w₂.db.userDailyFeeds, feed.From id → feed.userId ≠ user := by
  intro hclaim
  have hplay : (play 0 {} (boostScript ++ uncoveredScript)).isSome = true := by decide +kernel
  have hcovered : (play 0 {} coveredScript).isSome = true := play_front (play_front hplay)
  have hpays : boostEvent.Pays "3" (scriptToken 3 0) :=
    Event.Answers.pays (s := .reservationJoined) (by decide +kernel) (Or.inr rfl)
      (rfl : boostEvent.action = .request (.prepare (crowdRequest "3" (some "normal"))) _) rfl
  have hstep := script_step hcovered (739000 * dayMicros)
    (.prepare (crowdRequest "3" (some "normal")))
  rw [← scriptWorld_snoc hcovered] at hstep
  obtain ⟨events, hrun⟩ := script_continue hplay
  obtain ⟨feed, hfeed, hkind, hsource, huser⟩ :
      ∃ feed ∈ (scriptWorld (boostScript ++ uncoveredScript)).db.userDailyFeeds,
        feed.sourceType = .reservation ∧ feed.sourceId = scriptToken 3 0 ∧ feed.userId = "3" := by
    decide +kernel
  exact hclaim _ (script_reachable hcovered) _ _ hstep "3" _ hpays events _ hrun feed hfeed
    ⟨hkind, hsource⟩ huser

end RollPig
