/-
The final message goes out under one token.

An event authorises a token when its answer tells the holder to send: a claim that
returns the round as `sending`, or a positive answer of `/outcome` or `/sending`.  From
then on the stored row carries that token (`Sent`), by the abstract argument of
`Delivery`, and no claim returns it: whatever the bots do, the message of a round is
sent under one token.
-/
import RollPig.Proofs.Lifecycle
import RollPig.Proofs.Script
import RollPig.Proofs.Worlds

namespace RollPig

open Transition

/-! ### Being told to send -/

/-- The answer tells the holder of the token to send the round's message. -/
def Event.authorises (event : Event) (id token : String) : Prop :=
  match event.action, event.response with
  | .request (.claim _) _, .claim response =>
      ∃ item ∈ response.items,
        item.reservationId = id ∧ item.status = .sending ∧ item.claimToken = token
  | .request (.saveOutcome req) _, .mutation response =>
      req.reservationId = id ∧ req.claimToken = token ∧ response.ok = true
  | .request (.markSending req) _, .mutation response =>
      req.reservationId = id ∧ req.claimToken = token ∧ response.ok = true
  | _, _ => False

instance (event : Event) (id token : String) : Decidable (event.authorises id token) :=
  decidable_of_iff
    ((match event.action, event.response with
      | .request (.claim _) _, .claim response =>
          decide (∃ item ∈ response.items,
            item.reservationId = id ∧ item.status = .sending ∧ item.claimToken = token)
      | .request (.saveOutcome req) _, .mutation response =>
          decide (req.reservationId = id ∧ req.claimToken = token ∧ response.ok = true)
      | .request (.markSending req) _, .mutation response =>
          decide (req.reservationId = id ∧ req.claimToken = token ∧ response.ok = true)
      | _, _ => false) = true)
    (by unfold Event.authorises; split <;> simp)

/-- A claim returns the round, among the leased rows or among the notices. -/
def Event.returns (event : Event) (id : String) : Prop :=
  match event.action, event.response with
  | .request (.claim _) _, .claim response =>
      ∃ item ∈ response.items ++ response.waitingNotices, item.reservationId = id
  | _, _ => False

/-- The round is being sent, or was, under this token. -/
def Sent (db : Db) (id token : String) : Prop :=
  ∃ row ∈ db.reservations, row.reservationId = id ∧ row.claimToken = some token ∧
    (row.status = .sending ∨ row.status = .completed)

theorem authorised_iff {row : RoastReservation} {token : String} :
    row.job.stage.Authorised (some token) ↔
      row.claimToken = some token ∧ (row.status = .sending ∨ row.status = .completed) := by
  rw [Delivery.Stage.authorised_iff]
  unfold RoastReservation.job RoastReservation.stage
  cases row.status <;> simp

variable {w w' : World} {event : Event} {id token : String} {db : Db} {e : Env}

theorem Sent.unique {token' : String} (hsound : db.Sound) (h : Sent db id token)
    (h' : Sent db id token') : token = token' := by
  obtain ⟨row, hrow, hid, htoken, -⟩ := h
  obtain ⟨row', hrow', hid', htoken', -⟩ := h'
  obtain rfl : row = row' := hsound.ids.eq hrow hrow' (hid.trans hid'.symm)
  exact Option.some.inj (htoken.symm.trans htoken')

/-- **Being sent lasts.** -/
theorem Sent.run (hreach : Reachable service w) (h : Sent w.db id token) {es : List Event}
    (hrun : Run service w es w') : Sent w'.db id token := by
  obtain ⟨row, hrow, hid, hsent⟩ := h
  have hkeep : ∀ warrant rolls r r', RoundStep warrant rolls r r' →
      r.row.job.stage.Authorised (some token) → r'.row.job.stage.Authorised (some token) := by
    intro warrant rolls r r' hstep hauth
    rcases hstep.job with hsame | hjob
    · rw [hsame]
      exact hauth
    · exact hjob.keeps_authorised hauth
  obtain ⟨row', hrow', hid', hauth⟩ :=
    run_round hkeep hreach hrun hrow (authorised_iff.mpr hsent)
  exact ⟨row', hrow', hid'.trans hid, authorised_iff.mp hauth⟩

/-! ### What a claim returns -/

/-- The capability update changes nothing else. -/
theorem mem_declareCapability {req : RoastReservationClaimRequest} {row : RoastReservation}
    (h : row ∈ (declareCapability req db).reservations) :
    ∃ old ∈ db.reservations, old.reservationId = row.reservationId ∧ old.status = row.status := by
  unfold declareCapability at h
  split_ifs at h
  · rcases Tables.mem_writeBack h with ⟨hold, -⟩ | ⟨hnew, -⟩
    · exact ⟨row, hold, rfl, rfl⟩
    · obtain ⟨old, hold, rfl⟩ := List.mem_map.mp hnew
      exact ⟨old, (List.mem_filter.mp hold).1, rfl, rfl⟩
  · exact ⟨row, h, rfl, rfl⟩

/-- A leased round had not been sent. -/
theorem leaseRow_status {req : RoastReservationClaimRequest} {row : RoastReservation}
    {token : String} : (leaseRow e req token row).status ≠ .pending := by
  simp only [leaseRow]
  split_ifs <;> simp

theorem leaseRows_unique {req : RoastReservationClaimRequest}
    (h : Tables.Unique (·.reservationId) db.reservations) :
    Tables.Unique (·.reservationId) (leaseRows e req db) := by
  have hids : (leaseRows e req db).map (·.reservationId) =
      ((db.reservations.filter (claimable e req)).take req.rowLimit).map (·.reservationId) := by
    refine List.ext_getElem (by simp [leaseRows]) fun i _ _ => ?_
    simp [leaseRows, leaseRow]
  unfold Tables.Unique
  rw [hids]
  exact ((List.take_sublist _ _).map _).nodup (h.filter _)

/-- A round whose waiting notice is leased still waits, and is not one of those leased
just before. -/
theorem leaseNotices_waiting {req : RoastReservationClaimRequest} {used : Nat}
    {notice : RoastReservation}
    (h : notice ∈ leaseNotices e req used (db.flushReservations (leaseRows e req db))) :
    notice.status = .pending ∧
      ∃ row ∈ db.reservations, row.reservationId = notice.reservationId ∧ row.status = .pending := by
  obtain ⟨row, hrow, i, hcan, rfl⟩ := mem_leaseNotices h
  simp only [noticeClaimable, Bool.and_eq_true, decide_eq_true_eq] at hcan
  have hpending : row.status = .pending := hcan.1.1.1.1.1.2
  refine ⟨hpending, row, ?_, rfl, hpending⟩
  rcases Tables.mem_writeBack hrow with ⟨hold, -⟩ | ⟨hleased, -⟩
  · exact hold
  · obtain ⟨old, -, j, -, rfl⟩ := mem_leaseRows hleased
    exact absurd hpending leaseRow_status

/-- A round among the items of a claim was free, and is stored as it was leased. -/
theorem claim_items (h : db.Sound) {req : RoastReservationClaimRequest}
    {item : RoastReservationItem} (hitem : item ∈ (claim e req db).1.items) :
    ∃ old ∈ db.reservations, old.reservationId = item.reservationId ∧ old.stage.Free ∧
      ∃ row ∈ (claim e req db).2.reservations, row.reservationId = item.reservationId ∧
        row.status = item.status ∧ row.claimToken = some item.claimToken := by
  obtain ⟨leased, hleased, rfl⟩ := List.mem_map.mp hitem
  obtain ⟨row, hrow, i, hcan, rfl⟩ := mem_leaseRows hleased
  obtain ⟨old, hold, hid, hstatus⟩ := mem_declareCapability hrow
  have hdeclared : Evolves ((Request.claim req).warrant e) [] db (declareCapability req db) :=
    declareCapability_evolves h rfl
  have hunique : Tables.Unique (·.reservationId) (declareCapability req db).reservations :=
    hdeclared.sound.ids
  refine ⟨old, hold, hid, ?_, leaseRow e req (e.uuid i) row, ?_, rfl, rfl, rfl⟩
  · rw [RoastReservation.stage_free, hstatus]
    exact RoastReservation.stage_free.mp (claimable_free hcan)
  · refine Tables.mem_writeBack_of_ne
      (Tables.mem_writeBack_of_mem (leaseRows_unique hunique) hleased hrow rfl) ?_
    intro notice hnotice hsame
    obtain ⟨-, waiting, hwaiting, hwaitingId, hpending⟩ := leaseNotices_waiting hnotice
    obtain rfl : waiting = row := hunique.eq hwaiting hrow (hwaitingId.trans hsame)
    exact claimable_status hcan hpending

/-- **A claim returns no round that is being sent**, nor its notice. -/
theorem Sent.not_returned (hsound : w.Sound) (h : Sent w.db id token)
    (hstep : service.step w event w') : ¬ event.returns id := by
  obtain ⟨row, hrow, hid, -, hsent⟩ := h
  intro hreturns
  unfold Event.returns at hreturns
  split at hreturns
  · rename_i req rolls response haction hresponse
    obtain ⟨item, hitem, hitemId⟩ := hreturns
    have hclaim : response = (claim event.env req w.db).1 := by
      have hanswer := hstep.2.2.1
      rw [haction, hresponse] at hanswer
      exact Response.claim.inj hanswer
    subst hclaim
    rcases List.mem_append.mp hitem with hleased | hnotice
    · obtain ⟨old, hold, holdId, hfree, -⟩ := claim_items hsound.db hleased
      obtain rfl : old = row := hsound.db.ids.eq hold hrow (holdId.trans (hitemId.trans hid.symm))
      rcases RoastReservation.stage_free.mp hfree with hstatus | hstatus | hstatus <;>
        simp [hstatus] at hsent
    · obtain ⟨notice, hwaits, rfl⟩ := List.mem_map.mp hnotice
      obtain ⟨-, waiting, hwaiting, hwaitingId, hpending⟩ := leaseNotices_waiting hwaits
      obtain ⟨old, hold, holdId, hstatus⟩ := mem_declareCapability hwaiting
      obtain rfl : old = row :=
        hsound.db.ids.eq hold hrow (holdId.trans (hwaitingId.trans (hitemId.trans hid.symm)))
      rw [hstatus, hpending] at hsent
      simp at hsent
  · exact hreturns

/-! ### What an answer promises -/

theorem mem_answer {row row' : RoastReservation} (hrow : row ∈ db.reservations)
    (hid : row'.reservationId = row.reservationId) : row' ∈ (answer row' db).2.reservations :=
  Tables.mem_writeBack_of_mem (by simp [Tables.Unique]) (List.mem_singleton.mpr rfl) hrow hid.symm

theorem claim_sent (h : db.Sound) {req : RoastReservationClaimRequest}
    {item : RoastReservationItem} (hitem : item ∈ (claim e req db).1.items)
    (hstatus : item.status = .sending) :
    Sent (claim e req db).2 item.reservationId item.claimToken := by
  obtain ⟨-, -, -, -, row, hrow, hid, hrowStatus, htoken⟩ := claim_items h hitem
  exact ⟨row, hrow, hid, htoken, Or.inl (hrowStatus.trans hstatus)⟩

theorem saveOutcome_sent {req : RoastReservationOutcomeRequest}
    (hok : (saveOutcome req db).1.ok = true) :
    Sent (saveOutcome req db).2 req.reservationId req.claimToken := by
  rcases saveOutcome_cases req db with heq | ⟨row, hleased, -, heq⟩
  · rw [heq] at hok
    simp [refused] at hok
  · obtain ⟨hrow, hid, htoken, hstatus⟩ := leasedRow_some hleased
    rw [heq]
    refine ⟨_, mem_answer hrow rfl, hid, htoken, ?_⟩
    simp only [List.mem_cons, List.not_mem_nil, or_false] at hstatus
    unfold savedRow
    rcases hstatus with hprocessing | hsent
    · exact Or.inl (if_pos hprocessing)
    · rw [if_neg (by rcases hsent with hsent | hsent <;> simp [hsent])]
      exact hsent

theorem markSending_sent {req : RoastReservationMutationRequest}
    (hok : (markSending req db).1.ok = true) :
    Sent (markSending req db).2 req.reservationId req.claimToken := by
  rcases markSending_cases req db with heq | ⟨row, hleased, -, heq⟩
  · rw [heq] at hok
    simp [refused] at hok
  · obtain ⟨hrow, hid, htoken, hstatus⟩ := leasedRow_some hleased
    simp only [List.mem_cons, List.not_mem_nil, or_false] at hstatus
    rw [heq]
    by_cases hprepared : row.status = .prepared
    · rw [if_pos hprepared]
      exact ⟨_, mem_answer hrow rfl, hid, htoken, Or.inl rfl⟩
    · rw [if_neg hprepared]
      exact ⟨row, mem_answer hrow rfl, hid, htoken, hstatus.resolve_left hprepared⟩

/-- **Who is told to send holds the token** of a round that is being sent. -/
theorem authorises_sent (hsound : w.Sound) (hstep : service.step w event w')
    (hauth : event.authorises id token) : Sent w'.db id token := by
  obtain ⟨-, -, hanswer, rfl⟩ := hstep
  unfold Event.authorises at hauth
  split at hauth
  · rename_i req rolls response haction hresponse
    obtain ⟨item, hitem, rfl, hstatus, rfl⟩ := hauth
    rw [haction, hresponse] at hanswer
    obtain rfl := Response.claim.inj hanswer
    simp only [World.after, haction]
    exact claim_sent hsound.db hitem hstatus
  · rename_i req rolls response haction hresponse
    obtain ⟨rfl, rfl, hok⟩ := hauth
    rw [haction, hresponse] at hanswer
    obtain rfl := Response.mutation.inj hanswer
    simp only [World.after, haction]
    exact saveOutcome_sent hok
  · rename_i req rolls response haction hresponse
    obtain ⟨rfl, rfl, hok⟩ := hauth
    rw [haction, hresponse] at hanswer
    obtain rfl := Response.mutation.inj hanswer
    simp only [World.after, haction]
    exact markSending_sent hok
  · exact hauth.elim

/-! ### Runs -/

/-- What happens in a run after an event. -/
theorem sent_after {fs gs : List Event} (hrun : Run service {} (fs ++ event :: gs) w)
    (hauth : event.authorises id token) :
    Sent w.db id token ∧ ∀ later ∈ gs, ¬ later.returns id := by
  obtain ⟨u, hfirst, hrest⟩ := hrun.split fs (event :: gs) rfl
  obtain ⟨v, hstep, hlater⟩ := hrest.of_cons
  have hu : Reachable service u := ⟨{}, fs, rfl, hfirst⟩
  have hv : Reachable service v := hu.step hstep
  have hsent := authorises_sent (sound_of_reachable hu) hstep hauth
  refine ⟨hsent.run hv hlater, fun later hmem hreturns => ?_⟩
  obtain ⟨fs', gs', t, t', -, hprefix, hstep', -⟩ := hlater.step_of_mem hmem
  exact (hsent.run hv hprefix).not_returned (sound_of_reachable (hv.run hprefix)) hstep' hreturns

/-- **One token sends.**  In a run of the service, whoever is told to send the message of
a round is told so under the same token; and once somebody is, the row keeps that token,
is being sent or completed ever after, and no claim returns it again. -/
theorem one_token_sends {es : List Event} (hrun : Run service {} es w) :
    (∀ id, ∀ event ∈ es, ∀ event' ∈ es, ∀ token token',
      event.authorises id token → event'.authorises id token' → token = token') ∧
    ∀ fs event gs id token, es = fs ++ event :: gs → event.authorises id token →
      Sent w.db id token ∧ ∀ later ∈ gs, ¬ later.returns id := by
  have hafter : ∀ fs event gs id token, es = fs ++ event :: gs → event.authorises id token →
      Sent w.db id token ∧ ∀ later ∈ gs, ¬ later.returns id := by
    intro fs event gs id token hsplit hauth
    rw [hsplit] at hrun
    exact sent_after hrun hauth
  refine ⟨?_, hafter⟩
  intro id event hevent event' hevent' token token' hauth hauth'
  obtain ⟨fs, gs, hsplit⟩ := List.append_of_mem hevent
  obtain ⟨fs', gs', hsplit'⟩ := List.append_of_mem hevent'
  have hsound := sound_of_reachable ⟨{}, es, rfl, hrun⟩
  exact (hafter fs event gs id token hsplit hauth).1.unique hsound.db
    (hafter fs' event' gs' id token' hsplit' hauth').1

/-- A round prepared by user 1 against user 2, opened by the roll of user 2, leased and
released, leased again, settled, sent and completed; one more claim comes late. -/
def deliveryScript : List (Time × Order) :=
  let day : Date := 739000
  let now : Time := 739000 * dayMicros
  let claim : Request := .claim
    { deliveryBotId := "bot", dateStr := day, supportsPrepared := true,
      supportsProtectionGathering := true, protectionGatheringVersion := 2 }
  let outcome : OutcomeSnapshot := { eventType := "success", canonical := "success" }
  [(now, .request (.prepare
      { attackerId := "1", attackerPigId := "pig", targetId := "2", groupId := "7",
        deliveryBotId := "bot", dateStr := day })),
    (now, .finish 0),
    (now, .request (.getOrCreate { userId := "2", proposedPigId := "boar", dateStr := day })),
    (now, .finish 0),
    (now, .request claim),
    (now, .request (.release
      { reservationId := scriptToken 0 0, claimToken := scriptToken 4 0 })),
    (now, .request claim),
    (now, .request (.prepareOutcome
      { reservationId := scriptToken 0 0, claimToken := scriptToken 6 0,
        outcomeSnapshot := outcome, settleDailyFeed := true })),
    (now, .request (.markSending
      { reservationId := scriptToken 0 0, claimToken := scriptToken 6 0 })),
    (now, .request (.complete
      { reservationId := scriptToken 0 0, claimToken := scriptToken 6 0 })),
    (now + minutes 10, .request claim)]

theorem one_token_sends_delivery :
    (∃ event ∈ scriptEvents deliveryScript,
      event.authorises (scriptToken 0 0) (scriptToken 6 0)) ∧
    ∀ event ∈ scriptEvents deliveryScript, ∀ token,
      event.authorises (scriptToken 0 0) token → token = scriptToken 6 0 := by
  have hsends : ∃ event ∈ scriptEvents deliveryScript,
      event.authorises (scriptToken 0 0) (scriptToken 6 0) := by decide +kernel
  refine ⟨hsends, fun event hevent token hauth => ?_⟩
  obtain ⟨sending, hsending, hsent⟩ := hsends
  exact (one_token_sends (script_run (by decide +kernel))).1 _ event hevent sending hsending _ _
    hauth hsent

end RollPig
