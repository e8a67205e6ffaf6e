/-
When a bot may stop polling.

A bot that owns no unfinished round of a date is given one only by a prepare or a reply
it carries itself: takeovers and reassignments move a round to the bot of the request
that causes them, and a round that is being sent never comes back.
-/
import RollPig.Proofs.Rosters

namespace RollPig

open Transition

variable {warrant : Warrant} {rolls : List DailyRoll} {r r' : Round} {w w' : World} {event : Event}
  {db : Db} {e : Env} {botId : String} {date : Date}

/-- The request names this bot as the one to deliver. -/
def Event.Carries (event : Event) (botId : String) : Prop :=
  match event.action with
  | .request (.prepare req) _ => req.deliveryBotId = botId
  | .request (.joinByMessage req) _ => req.botId = botId
  | _ => False

instance : Decidable (event.Carries botId) :=
  decidable_of_iff
    ((match event.action with
      | .request (.prepare req) _ => decide (req.deliveryBotId = botId)
      | .request (.joinByMessage req) _ => decide (req.botId = botId)
      | _ => false) = true)
    (by unfold Event.Carries; split <;> simp)

theorem Event.carries_of_prepares {req : RoastReservationPrepareRequest}
    (h : event.warrant.prepares req) : event.Carries req.deliveryBotId := by
  unfold Event.warrant at h
  unfold Event.Carries
  cases haction : event.action with
  | reconcile flight =>
      rw [haction] at h
      exact h.elim
  | request r view =>
      rw [haction] at h
      cases r with
      | prepare prepared =>
          obtain rfl : req = prepared := h
          rfl
      | joinByMessage reply =>
          obtain ⟨reservation, roll, rfl⟩ := h
          rfl
      | _ => exact h.elim

/-! ### Unfinished rounds of a bot -/

/-- The statuses in which a round still belongs to its bot. -/
def Status.Unfinished (status : Status) : Prop :=
  status = .pending ∨ status = .ready ∨ status = .processing ∨ status = .prepared

theorem isOwned_iff {row : RoastReservation} :
    isOwned botId date row = true ↔
      row.deliveryBotId = botId ∧ row.dateStr = date ∧ row.status.Unfinished := by
  simp [isOwned, Status.Unfinished, and_assoc, or_assoc]

/-- A round that is being sent never comes back. -/
theorem RoundStep.unfinished (h : RoundStep warrant rolls r r')
    (hunfinished : r'.row.status.Unfinished) : r.row.status.Unfinished := by
  by_contra hdone
  have hfinished : r.row.status = .sending ∨ r.row.status = .completed := by
    unfold Status.Unfinished at hdone
    cases hstatus : r.row.status <;> simp_all
  have hauth : r.row.job.stage.Authorised r.row.claimToken := by
    rw [Delivery.Stage.authorised_iff]
    unfold RoastReservation.job RoastReservation.stage
    rcases hfinished with hsending | hcompleted
    · exact Or.inl (by rw [hsending])
    · exact Or.inr (by rw [hcompleted])
  have hauth' : r'.row.job.stage.Authorised r.row.claimToken := by
    rcases h.job with hsame | hjob
    · rw [hsame]
      exact hauth
    · exact hjob.keeps_authorised hauth
  rw [Delivery.Stage.authorised_iff] at hauth'
  unfold RoastReservation.job RoastReservation.stage at hauth'
  rcases hunfinished with hstatus | hstatus | hstatus | hstatus <;> simp [hstatus] at hauth'

/-- A round becomes a bot's own only through a request that names the bot. -/
theorem RoundSteps.owned (h : RoundSteps event.warrant rolls r r') (hr : r.row.Staged)
    (hcarries : ¬ event.Carries botId) (howned : isOwned botId date r'.row = true) :
    isOwned botId date r.row = true := by
  have hall : r'.row.Staged ∧
      (isOwned botId date r'.row = true → isOwned botId date r.row = true) := by
    clear howned
    induction h with
    | refl => exact ⟨hr, id⟩
    | tail _ hlast ih =>
        obtain ⟨hstaged, hback⟩ := ih
        refine ⟨hlast.staged hstaged, fun howned => hback ?_⟩
        obtain ⟨hbot, hdate, hunfinished⟩ := isOwned_iff.mp howned
        obtain ⟨-, hdate', -, -⟩ := key_eq.mp hlast.key
        rcases hlast.bot hstaged with hsame | ⟨-, req, hadmits, hmoved⟩
        · exact isOwned_iff.mpr
            ⟨hsame.symm.trans hbot, hdate'.symm.trans hdate, hlast.unfinished hunfinished⟩
        · have hnames := Event.carries_of_prepares hadmits
          rw [← hmoved, hbot] at hnames
          exact absurd hnames hcarries
  exact hall.2 howned

theorem insertedRow_bot (e : Env) (req : RoastReservationPrepareRequest) (roll : Option DailyRoll)
    (protection : Option GroupProtection) (reservationId : String) :
    (insertedRow e req roll protection reservationId).deliveryBotId = req.deliveryBotId :=
  congrArg (·.deliveryBotId) (standing_insertedRow e req roll protection reservationId)

/-! ### Nothing comes to an idle bot -/

theorem owned_false :
    owned botId date db = false ↔ ∀ row ∈ db.reservations, isOwned botId date row = false := by
  simp [owned]

/-- **A transaction that does not name the bot brings it no round.** -/
theorem owned_step (h : Reachable service w) (hstep : service.step w event w')
    (hcarries : ¬ event.Carries botId) (hidle : owned botId date w.db = false) :
    owned botId date w'.db = false := by
  rw [owned_false] at hidle ⊢
  intro row' hrow'
  rw [← Bool.not_eq_true]
  intro howned
  cases (sound_of_reachable h).step_rounds hstep with
  | evolves hevolves =>
      obtain ⟨row, hrow, -, hsteps⟩ := hevolves.rounds row' hrow'
      have hback := hsteps.owned (staged_of_reachable h row hrow) hcarries howned
      rw [show (w.db.round row).row = row from rfl, hidle row hrow] at hback
      exact absurd hback (by simp)
  | creates req view row owner haction hcreates =>
      rw [hcreates.reservations] at hrow'
      rcases List.mem_append.mp hrow' with hold | hnew
      · rw [hidle row' hold] at howned
        exact absurd howned (by simp)
      · obtain rfl := List.mem_singleton.mp hnew
        obtain ⟨roll, hrowEq⟩ := hcreates.rowEq
        refine hcarries ?_
        unfold Event.Carries
        rw [haction]
        rw [isOwned_iff, hrowEq, insertedRow_bot] at howned
        exact howned.1

theorem owned_run (h : Reachable service w) {events : List Event} (hrun : Run service w events w')
    (hcarries : ∀ event ∈ events, ¬ event.Carries botId) (hidle : owned botId date w.db = false) :
    owned botId date w'.db = false := by
  induction hrun with
  | nil => exact hidle
  | snoc hrun hstep ih =>
      have hbefore := ih fun event hevent => hcarries event (List.mem_append_left _ hevent)
      exact owned_step (h.run hrun) hstep (hcarries _ (by simp)) hbefore

/-! ### What an idle bot is answered -/

/-- The capability update makes no round the bot's own. -/
theorem owned_declareCapability (req : RoastReservationClaimRequest)
    (hidle : owned botId date db = false) : owned botId date (declareCapability req db) = false := by
  rw [owned_false] at hidle ⊢
  intro row hrow
  unfold declareCapability at hrow
  split_ifs at hrow
  · rcases Tables.mem_writeBack hrow with ⟨hold, -⟩ | ⟨hnew, -⟩
    · exact hidle row hold
    · obtain ⟨old, hold, rfl⟩ := List.mem_map.mp hnew
      exact hidle old (List.mem_filter.mp hold).1
  · exact hidle row hrow

theorem owned_of_claimable {req : RoastReservationClaimRequest} {row : RoastReservation}
    (h : claimable e req row = true) : isOwned req.deliveryBotId req.dateStr row = true := by
  simp only [claimable, deliveredBy, Bool.and_eq_true, Bool.or_eq_true, decide_eq_true_eq] at h
  obtain ⟨⟨⟨⟨hbot, hdate⟩, hready | ⟨hleased, -⟩⟩, -⟩, -⟩ := h
  · exact isOwned_iff.mpr ⟨hbot, hdate, Or.inr (Or.inl hready)⟩
  · exact isOwned_iff.mpr ⟨hbot, hdate, Or.inr (Or.inr hleased)⟩

theorem owned_of_noticeClaimable {req : RoastReservationClaimRequest} {row : RoastReservation}
    (h : noticeClaimable e req row = true) : isOwned req.deliveryBotId req.dateStr row = true := by
  simp only [noticeClaimable, deliveredBy, Bool.and_eq_true, decide_eq_true_eq] at h
  obtain ⟨⟨⟨⟨⟨⟨⟨hbot, hdate⟩, hpending⟩, -⟩, -⟩, -⟩, -⟩, -⟩ := h
  exact isOwned_iff.mpr ⟨hbot, hdate, Or.inl hpending⟩

theorem leaseRows_idle {req : RoastReservationClaimRequest}
    (hidle : owned req.deliveryBotId req.dateStr db = false) : leaseRows e req db = [] := by
  refine List.eq_nil_iff_forall_not_mem.mpr fun row hrow => ?_
  obtain ⟨old, hold, i, hcan, -⟩ := mem_leaseRows hrow
  have howned := owned_of_claimable hcan
  rw [owned_false.mp hidle old hold] at howned
  exact absurd howned (by simp)

theorem leaseNotices_idle {req : RoastReservationClaimRequest} {used : Nat}
    (hidle : owned req.deliveryBotId req.dateStr db = false) : leaseNotices e req used db = [] := by
  refine List.eq_nil_iff_forall_not_mem.mpr fun row hrow => ?_
  obtain ⟨old, hold, i, hcan, -⟩ := mem_leaseNotices hrow
  have howned := owned_of_noticeClaimable hcan
  rw [owned_false.mp hidle old hold] at howned
  exact absurd howned (by simp)

theorem flushReservations_nil (db : Db) : db.flushReservations [] = db := by
  simp [Db.flushReservations, Tables.writeBack]

/-- A bot that owns nothing is given nothing. -/
theorem claim_idle (req : RoastReservationClaimRequest)
    (hidle : owned req.deliveryBotId req.dateStr db = false) :
    (claim e req db).1 = { items := [], hasOwned := false, waitingNotices := [] } := by
  have hdeclared := owned_declareCapability req hidle
  unfold claim
  dsimp only
  rw [leaseRows_idle hdeclared, flushReservations_nil, leaseNotices_idle hdeclared,
    flushReservations_nil, hdeclared]
  rfl

/-! ### Polling -/

/-- A claim of the bot for the date that is told it owns nothing. -/
def Event.ToldIdle (event : Event) (botId : String) (date : Date) : Prop :=
  match event.action, event.response with
  | .request (.claim req) _, .claim response =>
      req.deliveryBotId = botId ∧ req.dateStr = date ∧ response.hasOwned = false
  | _, _ => False

instance : Decidable (event.ToldIdle botId date) :=
  decidable_of_iff
    ((match event.action, event.response with
      | .request (.claim req) _, .claim response =>
          decide (req.deliveryBotId = botId ∧ req.dateStr = date ∧ response.hasOwned = false)
      | _, _ => false) = true)
    (by unfold Event.ToldIdle; split <;> simp)

theorem Event.ToldIdle.owned (h : event.ToldIdle botId date) (hstep : service.step w event w') :
    owned botId date w'.db = false := by
  obtain ⟨-, -, hresponse, rfl⟩ := hstep
  unfold Event.ToldIdle at h
  split at h
  · rename_i req view response haction hanswer
    obtain ⟨rfl, rfl, hnone⟩ := h
    rw [haction] at hresponse ⊢
    obtain rfl : (claim event.env req w.db).1 = response :=
      Response.claim.inj (hresponse.symm.trans hanswer)
    exact hnone
  · exact h.elim

/-- **A bot told that it owns nothing may stop polling.**  Once a claim of the bot is
answered that it owns no round of the date, and until a prepare or a reply names the bot
again, the bot owns no round of that date, and every claim of its is answered with nothing. -/
theorem polling_may_stop {before after : List Event}
    (hrun : Run service {} (before ++ event :: after) w) (htold : event.ToldIdle botId date)
    (hcarries : ∀ event ∈ after, ¬ event.Carries botId) :
    owned botId date w.db = false ∧
      ∀ e req, req.deliveryBotId = botId → req.dateStr = date →
        (claim e req w.db).1 = { items := [], hasOwned := false, waitingNotices := [] } := by
  obtain ⟨u, hbefore, hrest⟩ := hrun.split before (event :: after) rfl
  obtain ⟨u', hstep, hafter⟩ := hrest.of_cons
  have hreach : Reachable service u := ⟨{}, before, rfl, hbefore⟩
  have hidle := owned_run (hreach.step hstep) hafter hcarries (htold.owned hstep)
  refine ⟨hidle, fun e req hbot hdate => claim_idle req ?_⟩
  rw [hbot, hdate]
  exact hidle

/-- The bot delivers its only round and is told so; then another bot opens a round. -/
def deliveredScript : List (Time × Order) :=
  deliveryScript ++
    [(739000 * dayMicros, .request (.prepare
      { attackerId := "3", attackerPigId := "pig", targetId := "4", groupId := "7",
        deliveryBotId := "other", dateStr := 739000 }))]

theorem polling_may_stop_delivered :
    owned "bot" 739000 (scriptWorld deliveredScript).db = false := by
  have hrun : Run service {} (scriptEvents deliveredScript) (scriptWorld deliveredScript) :=
    script_run (by decide +kernel)
  obtain ⟨event, after, hsplit⟩ : ∃ event after,
      (scriptEvents deliveredScript).drop 10 = event :: after :=
    List.exists_cons_of_ne_nil (by decide +kernel)
  have htold : ∀ event ∈ ((scriptEvents deliveredScript).drop 10).take 1,
      event.ToldIdle "bot" 739000 := by decide +kernel
  have hcarries : ∀ event ∈ ((scriptEvents deliveredScript).drop 10).drop 1,
      ¬ event.Carries "bot" := by decide +kernel
  rw [hsplit] at htold hcarries
  rw [← List.take_append_drop 10 (scriptEvents deliveredScript), hsplit] at hrun
  exact (polling_may_stop hrun (htold event (by simp)) (by simpa using hcarries)).1

end RollPig
