/-
What a takeover changes about the feeding.

A super force takes a round over from its roster, and saves the others' right to be fed.
Whether it saves all of it is a matter of the crowd, `Gathering.State.mem_kept_iff`; what
is shown here is that the stored round, from the takeover to its settlement, is that
crowd.
-/
import RollPig.Proofs.Feeding
import RollPig.Proofs.Script

namespace RollPig

open Transition

variable {warrant : Warrant} {rolls : List DailyRoll} {r r' : Round} {w w₁ w₂ : World}
  {event : Event} {db : Db} {e : Env} {row row₁ row₂ : RoastReservation}
  {req : RoastReservationPrepareRequest}

/-! ### The transaction of a super force -/

/-- In the transaction of a prepare request without super force no round becomes a super
round. -/
theorem RoundStep.plain (h : RoundStep warrant rolls r r')
    (hprepares : ∀ req, warrant.prepares req → req.forceMode ≠ some "super")
    (hr : r.row.forceMode ≠ some "super") : r'.row.forceMode ≠ some "super" := by
  have hstanding : ∀ {row row' : RoastReservation}, row'.standing = row.standing →
      row'.forceMode = row.forceMode := fun h => congrArg (·.forceMode) h
  have hupdated : ∀ (row : RoastReservation) (req : RoastReservationPrepareRequest),
      (updateDeliveryCapability row req).forceMode = row.forceMode := by
    intro row req
    obtain ⟨bot, version, heq⟩ := updateDeliveryCapability_eq row req
    rw [heq]
  cases h with
  | busy req => rwa [hupdated]
  | confirm req =>
      show (updateDeliveryCapability _ req).forceMode ≠ _
      rwa [hupdated]
  | join e req roll _ _ hreq => rwa [hstanding (standing_joinedRow e hreq roll _ _), hupdated]
  | upgrade e req roll _ _ hreq => rwa [hstanding (standing_joinedRow e hreq roll _ _), hupdated]
  | takeover e req roll _ _ hreq _ _ hadmits => exact absurd hreq (hprepares req hadmits)
  | sync e protection removed => rwa [hstanding (standing_syncReservation e protection removed _ _)]
  | arrive e pigId handledId => rwa [hstanding (standing_arriveRow e pigId handledId _ _)]
  | settle | confirmOutcome =>
      unfold markPrepared
      split_ifs <;> exact hr
  | complete =>
      unfold completedRow
      split_ifs <;> exact hr
  | _ => exact hr

/-- What is fed is decided, once the round has been opened or taken over. -/
theorem RoundStep.stakes_opened (h : RoundStep warrant rolls r r')
    (hopened : r.row.status ≠ .pending) : r'.crowd.stakes = r.crowd.stakes := by
  obtain ⟨-, hmembers, hcharter⟩ := h.frozen hopened
  simp only [RoastReservation.charter, Prod.mk.injEq] at hcharter
  simp [Gathering.State.stakes, Round.crowd, hmembers, hcharter]

theorem RoundStep.stakes_super (h : RoundStep warrant rolls r r')
    (hsuper : r.row.forceMode = some "super") : r'.crowd.stakes = r.crowd.stakes := by
  rcases h.crowd with hsame | hgathers
  · rw [hsame]
  · obtain ⟨pig, -, harrived⟩ := hgathers.frozen (by simpa using hsuper)
    rw [harrived]
    rfl

/-- In the transaction of a super force a round keeps its stakes or is taken over. -/
theorem RoundStep.taken (h : RoundStep warrant rolls r r') (hsyncs : ¬ warrant.syncs)
    (hprepares : ∀ other, warrant.prepares other → other = req)
    (hreq : req.forceMode = some "super") :
    r'.crowd.stakes = r.crowd.stakes ∨ (r.row.forceMode ≠ some "super" ∧
      r'.crowd.stakes = (r.crowd.takeOver req.attackerId).stakes) := by
  by_cases hopen : r.row.status = .pending
  · have harrived : ∀ {s : Gathering.State String String Source} (pig : String),
        (s.meet "" pig).stakes = s.stakes := by
      intro s pig
      simp [Gathering.State.stakes]
    cases h with
    | confirm => exact Or.inl (congrArg _ (crowd_updateDeliveryCapability _))
    | join e other roll _ _ hother _ _ _ hadmits =>
        exact absurd hreq (hprepares other hadmits ▸ hother)
    | upgrade e other roll _ _ hother _ _ _ hadmits =>
        exact absurd hreq (hprepares other hadmits ▸ hother)
    | takeover e other roll _ hforce _ _ _ hadmits =>
        obtain rfl := hprepares other hadmits
        refine Or.inr ⟨hforce, ?_⟩
        rw [crowd_activateIfArrived, crowd_takenOver, harrived]
    | sync e protection removed hcopies => exact absurd hcopies hsyncs
    | @arrive row members e pigId handledId =>
        refine Or.inl ?_
        rw [crowd_arriveRow]
        rfl
    | capability | leaseNotice | notice => exact Or.inl rfl
    | busy other hstatus => exact absurd hopen hstatus
    | lease e other token hcan => exact absurd hopen (claimable_status hcan)
    | confirmOutcome hstatus => exact absurd hopen hstatus
    | release hstatus => rcases hstatus with hstatus | hstatus <;> simp [hstatus] at hopen
    | settle snapshot results hstatus => simp [hstatus] at hopen
    | save snapshot hstatus => simp [hstatus] at hopen
    | send hstatus | complete e hstatus => simp [hstatus] at hopen
  · exact Or.inl (h.stakes_opened hopen)

theorem super_of_stakes {s : Gathering.State String String Source} (h : r.crowd.stakes = s.stakes) :
    r.row.forceMode = some "super" ↔ s.mode = .super := by
  have hmode : forceModeOf r.row.forceMode = s.mode := congrArg Prod.fst h
  rw [← hmode, forceModeOf_eq_super]

/-- What is decided about the feeding when a round is taken over stays decided. -/
theorem RoundSteps.stakes_super (h : RoundSteps warrant rolls r r')
    (hsuper : r.row.forceMode = some "super") :
    r'.row.forceMode = some "super" ∧ r'.crowd.stakes = r.crowd.stakes := by
  refine h.keeps (P := fun r'' => r''.row.forceMode = some "super" ∧
    r''.crowd.stakes = r.crowd.stakes) ?_ ⟨hsuper, rfl⟩
  rintro r₁ r₂ hstep ⟨hsuper₁, hstakes₁⟩
  have hstakes := hstep.stakes_super hsuper₁
  exact ⟨(super_of_stakes hstakes).mpr (forceModeOf_eq_super.mpr hsuper₁), hstakes.trans hstakes₁⟩

/-- **A round that a super force found waiting and left taken over is the crowd that was
taken over.** -/
theorem RoundSteps.taken (h : RoundSteps warrant rolls r r') (hsyncs : ¬ warrant.syncs)
    (hprepares : ∀ other, warrant.prepares other → other = req)
    (hplain : r.row.forceMode ≠ some "super") (hsuper : r'.row.forceMode = some "super") :
    r'.crowd.stakes = (r.crowd.takeOver req.attackerId).stakes := by
  by_cases hreq : req.forceMode = some "super"
  · have hcase : (r'.row.forceMode ≠ some "super" ∧ r'.crowd.stakes = r.crowd.stakes) ∨
        (r'.row.forceMode = some "super" ∧
          r'.crowd.stakes = (r.crowd.takeOver req.attackerId).stakes) := by
      refine h.keeps (P := fun r'' => (r''.row.forceMode ≠ some "super" ∧
        r''.crowd.stakes = r.crowd.stakes) ∨ (r''.row.forceMode = some "super" ∧
          r''.crowd.stakes = (r.crowd.takeOver req.attackerId).stakes)) ?_ (Or.inl ⟨hplain, rfl⟩)
      rintro r₁ r₂ hstep (⟨hplain₁, hstakes₁⟩ | ⟨hsuper₁, hstakes₁⟩)
      · rcases hstep.taken hsyncs hprepares hreq with hsame | ⟨-, htaken⟩
        · refine Or.inl ⟨?_, hsame.trans hstakes₁⟩
          intro hsuper₂
          exact hplain₁ (forceModeOf_eq_super.mp ((super_of_stakes hsame).mp hsuper₂))
        · exact Or.inr ⟨(super_of_stakes htaken).mpr rfl,
            htaken.trans (Gathering.takeOver_stakes hstakes₁ _)⟩
      · obtain ⟨hsuper₂, hstakes₂⟩ :=
          RoundSteps.stakes_super (Relation.ReflTransGen.single hstep) hsuper₁
        exact Or.inr ⟨hsuper₂, hstakes₂.trans hstakes₁⟩
    rcases hcase with ⟨hne, -⟩ | ⟨-, htaken⟩
    · exact absurd hsuper hne
    · exact htaken
  · refine absurd hsuper (h.keeps (P := fun r'' => r''.row.forceMode ≠ some "super") ?_ hplain)
    intro r₁ r₂ hstep
    exact hstep.plain fun other hadmits => hprepares other hadmits ▸ hreq

/-! ### The results -/

/-- Only a takeover saves anybody's right to be fed. -/
theorem saved_of_reachable (h : Reachable service w) (hrow : row ∈ w.db.reservations)
    (hplain : row.forceMode ≠ some "super") : row.forceFeedUserIds = none := by
  have hsaved := rounds_of_reachable
    (P := fun _ r => r.crowd.mode ≠ .super → r.crowd.saved = none)
    (fun _ _ hborn _ => hborn.crowd.saved) (fun _ _ _ _ hr => hr) ?_ h row hrow
  · exact hsaved fun hsuper => hplain (forceModeOf_eq_super.mp hsuper)
  · intro warrant rolls r r' hstep hr
    rcases hstep.crowd with hsame | hgathers
    · rw [hsame]
      exact hr
    · exact hgathers.saved hr

/-- The users the stored result of a round lists. -/
def listedUsers (db : Db) (id : String) : List String :=
  (((db.reservation? id).bind (·.dailyFeedResults)).getD []).map (·.userId)

theorem reservation_flush {id : String} (hid : row.reservationId = id)
    (hknown : id ∈ db.reservations.map (·.reservationId)) :
    (db.flushReservations [row]).reservation? id = some row := by
  have hlookup := @Tables.lookup_writeBack _ _ (fun r : RoastReservation => r.reservationId)
    db.reservations _ row (hid.symm ▸ hknown) id
  rw [if_pos hid.symm] at hlookup
  exact hlookup

theorem reservation_known {id : String} (h : db.reservation? id = some row) :
    row.reservationId = id ∧ id ∈ db.reservations.map (·.reservationId) := by
  obtain ⟨hmem, hid⟩ := mem_of_reservation? h
  exact ⟨hid, hid ▸ List.mem_map_of_mem hmem⟩

/-- **The first result of a success lists whom the crowd feeds.** -/
theorem listedUsers_fresh (e : Env) {outcome : RoastReservationOutcomeRequest}
    (h : Fresh db outcome row) (hsettle : outcome.settleDailyFeed = true)
    (hsuccess : outcome.outcomeSnapshot.eventType = "success") :
    listedUsers (prepareOutcomeOnce e outcome db).2 outcome.reservationId =
      (db.round row).crowd.fed := by
  obtain ⟨hid, hknown⟩ := reservation_known (Option.filter_eq_some_iff.mp h.leased).1
  have hprepared : markPrepared (storeOutcome e outcome row db).1 =
      { (storeOutcome e outcome row db).1 with status := .prepared } :=
    markPrepared_processing (by exact h.processing)
  have hstored : (prepareOutcomeOnce e outcome db).2.reservation? outcome.reservationId =
      some { (storeOutcome e outcome row db).1 with status := .prepared } := by
    rw [prepareOutcomeOnce_fresh e h, hprepared]
    refine reservation_flush ?_ ?_
    · exact hid
    · simpa using hknown
  unfold listedUsers
  rw [hstored, ← storeOutcome_fed e row db hsettle hsuccess]
  rfl

/-- The row as if the round it was before the takeover had been left as it was. -/
def RoastReservation.untaken (row before : RoastReservation) : RoastReservation :=
  { row with
    forceMode := before.forceMode
    protectionRequired := before.protectionRequired
    forceOperatorId := before.forceOperatorId
    forceOperatorName := before.forceOperatorName
    forceFeedUserIds := before.forceFeedUserIds }

theorem Fresh.untaken {outcome : RoastReservationOutcomeRequest} (h : Fresh db outcome row)
    (before : RoastReservation) :
    Fresh (db.flushReservations [row.untaken before]) outcome (row.untaken before) := by
  obtain ⟨hfind, hlease⟩ := Option.filter_eq_some_iff.mp h.leased
  obtain ⟨hid, hknown⟩ := reservation_known hfind
  refine ⟨?_, h.unsettled, h.processing⟩
  unfold leasedRow
  rw [show (db.flushReservations [row.untaken before]).reservation? outcome.reservationId =
      some (row.untaken before) from reservation_flush hid hknown]
  exact Option.filter_eq_some_iff.mpr ⟨rfl, hlease⟩

/-- The modes a settlement knows, besides super. -/
theorem forceModeOf_known {forceMode : Option String} (h : forceMode ≠ some "super") :
    forceModeOf forceMode ≠ .other ↔ forceMode = none ∨ forceMode = some "normal" := by
  cases hmode : forceModeOf forceMode with
  | plain => simp [forceModeOf_eq_plain.mp hmode]
  | normal => simp [forceModeOf_eq_normal.mp hmode]
  | super => exact absurd (forceModeOf_eq_super.mp hmode) h
  | other =>
      refine iff_of_false (by simp) ?_
      rintro (rfl | rfl) <;> simp [forceModeOf] at hmode

/-- The crowd of a round without its takeover is the one the takeover found. -/
theorem stakes_untaken {before : RoastReservation} {db₀ : Db}
    (hroster : (db.round row).crowd.roster = (db₀.round before).crowd.roster) :
    ((db.flushReservations [row.untaken before]).round (row.untaken before)).crowd.stakes =
      (db₀.round before).crowd.stakes := by
  have hstays : ((db.flushReservations [row.untaken before]).round
      (row.untaken before)).crowd.roster = (db.round row).crowd.roster := rfl
  simp only [Gathering.State.stakes, hstays, hroster]
  rfl

/-! ### The takeover and the settlement -/

/-- **A takeover takes nobody else's feed, unless the round was paid for in an unknown
way.**  The users listed by the settlement of a round that was taken over are those its
settlement would have listed without the takeover, but for the one who took it over, if
and only if the round was paid for in a known way, was protected, or had nobody else. -/
theorem takeover_feeds_iff (h : Reachable service w) (hrow : row ∈ w.db.reservations)
    (hplain : row.forceMode ≠ some "super") (hstep : service.step w event w₁)
    {view : List DailyRoll} (haction : event.action = .request (.prepare req) view)
    (hrow₁ : row₁ ∈ w₁.db.reservations) (hid₁ : row₁.reservationId = row.reservationId)
    (hsuper : row₁.forceMode = some "super") {events : List Event}
    (hrun : Run service w₁ events w₂) {outcome : RoastReservationOutcomeRequest}
    (hfresh : Fresh w₂.db outcome row₂) (hid₂ : row₂.reservationId = row.reservationId)
    (hsettle : outcome.settleDailyFeed = true)
    (hsuccess : outcome.outcomeSnapshot.eventType = "success") :
    (∀ user, user ∈ listedUsers (prepareOutcomeOnce e outcome w₂.db).2 outcome.reservationId ↔
        user ∈ listedUsers (prepareOutcomeOnce e outcome
          (w₂.db.flushReservations [row₂.untaken row])).2 outcome.reservationId ∧
          user ≠ req.attackerId) ↔
      row.forceMode = none ∨ row.forceMode = some "normal" ∨ 0 < row.protectionRequired ∨
        ∀ member ∈ w.db.members row.reservationId, member.userId = req.attackerId := by
  have hsound := sound_of_reachable h
  have hreach₁ := h.step hstep
  have hwarrant : event.warrant = { prepares := fun other => other = req } := by
    unfold Event.warrant
    rw [haction]
    rfl
  -- the takeover
  have htaken : (w₁.db.round row₁).crowd.stakes =
      ((w.db.round row).crowd.takeOver req.attackerId).stakes := by
    obtain ⟨row', hrow', hid', hsteps⟩ := hsound.step_round_forward hstep hrow
    obtain rfl : row₁ = row' :=
      (sound_of_reachable hreach₁).db.ids.eq hrow₁ hrow' (hid₁.trans hid')
    rw [hwarrant] at hsteps
    exact hsteps.taken (r := w.db.round row) id (fun _ hother => hother) hplain hsuper
  -- nothing is decided after it
  have hstakes : (w₂.db.round row₂).crowd.stakes =
      ((w.db.round row).crowd.takeOver req.attackerId).stakes := by
    obtain ⟨row', hrow', hid', hsuper', hstakes'⟩ := run_round
      (P := fun r => r.row.forceMode = some "super" ∧
        r.crowd.stakes = ((w.db.round row).crowd.takeOver req.attackerId).stakes)
      (fun warrant rolls r r' hstep hr => by
        obtain ⟨hsuper', hstakes'⟩ :=
          RoundSteps.stakes_super (Relation.ReflTransGen.single hstep) hr.1
        exact ⟨hsuper', hstakes'.trans hr.2⟩)
      hreach₁ hrun hrow₁ ⟨hsuper, htaken⟩
    have hrow₂ := (leasedRow_some hfresh.leased).1
    obtain rfl : row₂ = row' := (sound_of_reachable (hreach₁.run hrun)).db.ids.eq hrow₂ hrow'
      (hid₂.trans (hid₁.symm.trans hid'.symm))
    exact hstakes'
  have hroster : (w₂.db.round row₂).crowd.roster = (w.db.round row).crowd.roster :=
    congrArg (·.2.2.2) hstakes
  have hdistinct : ((w.db.round row).crowd.roster.map (·.user)).Nodup := by
    rw [(Round.crowd_frame _).2.2.2.2.2.2, List.map_map]
    exact (manned_of_reachable h row hrow).distinct
  have hmode : (w.db.round row).crowd.mode ≠ .super :=
    fun hsuper => hplain (forceModeOf_eq_super.mp hsuper)
  rw [listedUsers_fresh e hfresh hsettle hsuccess,
    listedUsers_fresh e (hfresh.untaken row) hsettle hsuccess, Gathering.fed_congr hstakes,
    Gathering.fed_congr (stakes_untaken hroster),
    Gathering.fed_takeOver hdistinct,
    Gathering.mem_kept_iff hmode (saved_of_reachable h hrow hplain)]
  have hknown : (w.db.round row).crowd.mode ≠ .other ↔
      row.forceMode = none ∨ row.forceMode = some "normal" :=
    forceModeOf_known hplain
  have heverybody : (∀ m ∈ (w.db.round row).crowd.roster, m.user = req.attackerId) ↔
      ∀ member ∈ w.db.members row.reservationId, member.userId = req.attackerId := by
    rw [(Round.crowd_frame _).2.2.2.2.2.2, List.forall_mem_map]
    rfl
  rw [hknown, heverybody, or_assoc]
  rfl

/-! ### A round paid for in an unknown way -/

/-- This user meets user 2. -/
def crowdRequest (user : String) (mode : Option String) : RoastReservationPrepareRequest :=
  { attackerId := user, attackerPigId := "pig", targetId := "2", groupId := "7",
    deliveryBotId := "bot", dateStr := 739000, forceMode := mode,
    supportsProtectionGathering := true, protectionGatheringVersion := 2 }

/-- User 1 opens a round this way and user 3 joins. -/
def crowdScript (mode : Option String) : List (Time × Order) :=
  let now : Time := 739000 * dayMicros
  [(now, .request (.prepare (crowdRequest "1" mode))), (now, .finish 0),
    (now, .request (.prepare (crowdRequest "3" none))), (now, .finish 0)]

/-- User 4 takes the round over. -/
def takenScript (mode : Option String) : List (Time × Order) :=
  crowdScript mode ++ [(739000 * dayMicros, .request (.prepare (crowdRequest "4" (some "super"))))]

def crowdClaim : RoastReservationClaimRequest :=
  { deliveryBotId := "bot", dateStr := 739000,
    supportsProtectionGathering := true, protectionGatheringVersion := 2 }

/-- User 2 rolls and the bot leases the round. -/
def leasedScript : List (Time × Order) :=
  let now : Time := 739000 * dayMicros
  let roll : DailyRollGetOrCreateRequest :=
    { userId := "2", proposedPigId := "boar", dateStr := 739000 }
  [(now, .request (.getOrCreate roll)), (now, .request (.claim crowdClaim))]

def successOutcome : RoastReservationOutcomeRequest :=
  { reservationId := scriptToken 0 0, claimToken := scriptToken 6 0,
    outcomeSnapshot := { eventType := "success", canonical := "" }, settleDailyFeed := true }

def takeoverEvent (mode : Option String) : Event :=
  scriptEvent (crowdScript mode) (739000 * dayMicros)
    (.prepare (crowdRequest "4" (some "super")))

theorem takeoverEvent_step {mode : Option String} (h : (play 0 {} (crowdScript mode)).isSome = true) :
    service.step (scriptWorld (crowdScript mode)) (takeoverEvent mode)
      (scriptWorld (takenScript mode)) := by
  unfold takenScript
  rw [scriptWorld_snoc h]
  exact script_step h _ _

theorem takeover_feeds_iff_plain :
    ∃ row ∈ (scriptWorld (crowdScript none)).db.reservations,
      ∃ row₂ ∈ (scriptWorld (takenScript none ++ leasedScript)).db.reservations, ∀ user,
        user ∈ listedUsers (prepareOutcomeOnce (scriptEnv 7 0) successOutcome
            (scriptWorld (takenScript none ++ leasedScript)).db).2
            successOutcome.reservationId ↔
          user ∈ listedUsers (prepareOutcomeOnce (scriptEnv 7 0) successOutcome
            ((scriptWorld (takenScript none ++ leasedScript)).db.flushReservations
              [row₂.untaken row])).2 successOutcome.reservationId ∧ user ≠ "4" := by
  have hplay : (play 0 {} (takenScript none ++ leasedScript)).isSome = true := by decide +kernel
  have hcrowd : (play 0 {} (crowdScript none)).isSome = true := play_front (play_front hplay)
  obtain ⟨row, hrow, hid, hmode⟩ : ∃ row ∈ (scriptWorld (crowdScript none)).db.reservations,
      row.reservationId = scriptToken 0 0 ∧ row.forceMode = none := by decide +kernel
  obtain ⟨row₁, hrow₁, hid₁, hsuper⟩ : ∃ row ∈ (scriptWorld (takenScript none)).db.reservations,
      row.reservationId = scriptToken 0 0 ∧ row.forceMode = some "super" := by decide +kernel
  obtain ⟨row₂, hrow₂, hleased, hunsettled, hprocessing, hid₂⟩ :
      ∃ row ∈ (scriptWorld (takenScript none ++ leasedScript)).db.reservations,
        leasedRow (scriptWorld (takenScript none ++ leasedScript)).db successOutcome.reservationId
            successOutcome.claimToken [.processing, .prepared, .sending, .completed] = some row ∧
          row.outcomeSnapshot = none ∧ row.status = .processing ∧
          row.reservationId = scriptToken 0 0 := by
    decide +kernel
  obtain ⟨events, hrun⟩ := script_continue hplay
  refine ⟨row, hrow, row₂, hrow₂, ?_⟩
  exact (takeover_feeds_iff (script_reachable hcrowd) hrow (by simp [hmode])
    (takeoverEvent_step hcrowd) (rfl : (takeoverEvent none).action = .request
      (.prepare (crowdRequest "4" (some "super"))) _) hrow₁ (hid₁.trans hid.symm) hsuper hrun
    ⟨hleased, hunsettled, hprocessing⟩ (hid₂.trans hid.symm) rfl rfl).mpr (Or.inl hmode)

/-- A blank mode loses the feeds of everybody else. -/
theorem takeover_starves :
    ¬ ∀ w, Reachable service w → ∀ row ∈ w.db.reservations, row.status = .pending →
      row.forceMode ≠ some "super" → ∀ event w₁, service.step w event w₁ →
      ∀ req view, event.action = .request (.prepare req) view → req.gathers = true →
      req.forceMode = some "super" → ∀ row₁ ∈ w₁.db.reservations,
        row₁.reservationId = row.reservationId → row₁.forceMode = some "super" →
      ∀ events w₂, Run service w₁ events w₂ →
      ∀ outcome row₂, Fresh w₂.db outcome row₂ → row₂.reservationId = row.reservationId →
        outcome.settleDailyFeed = true → outcome.outcomeSnapshot.eventType = "success" →
      ∀ e user, user ∈ listedUsers (prepareOutcomeOnce e outcome w₂.db).2 outcome.reservationId ↔
        user ∈ listedUsers (prepareOutcomeOnce e outcome
          (w₂.db.flushReservations [row₂.untaken row])).2 outcome.reservationId ∧
          user ≠ req.attackerId := by
  intro hclaim
  have hplay : (play 0 {} (takenScript (some "") ++ leasedScript)).isSome = true := by
    decide +kernel
  have hcrowd : (play 0 {} (crowdScript (some ""))).isSome = true :=
    play_front (play_front hplay)
  obtain ⟨row₁, hrow₁, hid₁, hsuper⟩ :
      ∃ row ∈ (scriptWorld (takenScript (some ""))).db.reservations,
        row.reservationId = scriptToken 0 0 ∧ row.forceMode = some "super" := by decide +kernel
  obtain ⟨row, hrow, hid, hpending, hmode, row₂, -, hleased, hunsettled, hprocessing, hid₂, hthree⟩ :
      ∃ row ∈ (scriptWorld (crowdScript (some ""))).db.reservations,
        row.reservationId = scriptToken 0 0 ∧ row.status = .pending ∧ row.forceMode = some "" ∧
        ∃ row₂ ∈ (scriptWorld (takenScript (some "") ++ leasedScript)).db.reservations,
          leasedRow (scriptWorld (takenScript (some "") ++ leasedScript)).db
              successOutcome.reservationId successOutcome.claimToken
              [.processing, .prepared, .sending, .completed] = some row₂ ∧
            row₂.outcomeSnapshot = none ∧ row₂.status = .processing ∧
            row₂.reservationId = scriptToken 0 0 ∧
            "3" ∈ listedUsers (prepareOutcomeOnce (scriptEnv 7 0) successOutcome
              ((scriptWorld (takenScript (some "") ++ leasedScript)).db.flushReservations
                [row₂.untaken row])).2 successOutcome.reservationId := by
    decide +kernel
  obtain ⟨events, hrun⟩ := script_continue hplay
  have hlisted := (hclaim _ (script_reachable hcrowd) row hrow hpending (by simp [hmode]) _ _
    (takeoverEvent_step hcrowd) (crowdRequest "4" (some "super")) _ rfl rfl rfl row₁ hrow₁
    (hid₁.trans hid.symm) hsuper events _ hrun successOutcome row₂
    ⟨hleased, hunsettled, hprocessing⟩ (hid₂.trans hid.symm) rfl rfl (scriptEnv 7 0) "3").mpr
    ⟨hthree, by decide⟩
  have hnobody : listedUsers (prepareOutcomeOnce (scriptEnv 7 0) successOutcome
      (scriptWorld (takenScript (some "") ++ leasedScript)).db).2 successOutcome.reservationId =
        [] := by
    decide +kernel
  rw [hnobody] at hlisted
  exact absurd hlisted (by simp)

end RollPig
