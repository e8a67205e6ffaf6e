/-
Who holds the lease on a round.

The columns `claim_token` and `claimed_at` of a round are the holder its log of claims and
releases names, whatever else happens to the round in between.  So a request is accepted
under a token only from the bot that was given the round last, and two bots are given the
same round only more than the lease time apart, or after a release.
-/
import RollPig.Leases
import RollPig.Proofs.Capability
import RollPig.Proofs.Stages

namespace RollPig

open Transition

variable {warrant : Warrant} {rolls : List DailyRoll} {r r' : Round} {w w' : World} {event : Event}
  {events : List Event} {db db' : Db} {e : Env} {row row' : RoastReservation} {id token : String}

/-! ### The log -/

/-- What an event does to the lease on a round: a claim returns the round, or its release
is accepted. -/
def Event.leaseMove (event : Event) (id : String) : Lease.Move String Time :=
  match event.action, event.response with
  | .request (.claim _) _, .claim response =>
      match response.items.find? fun item => item.reservationId = id with
      | some item => .grant item.claimToken event.env.now
      | none => .idle
  | .request (.release req) _, .mutation response =>
      if req.reservationId = id ∧ response.ok = true then .giveBack else .idle
  | _, _ => .idle

def leaseLog (id : String) (events : List Event) : List (Lease.Move String Time) :=
  events.map (·.leaseMove id)

/-- The columns that store the lease. -/
def RoastReservation.lease (row : RoastReservation) : Option String × Option Time :=
  (row.claimToken, row.claimedAt)

/-- The columns of a round this holder has. -/
def leaseColumns (holder : Option (String × Time)) : Option String × Option Time :=
  (holder.map (·.1), holder.map (·.2))

@[simp] theorem leaseLog_append (id : String) (events : List Event) (event : Event) :
    leaseLog id (events ++ [event]) = leaseLog id events ++ [event.leaseMove id] := by
  simp [leaseLog]

/-! ### Transactions that lease nothing -/

/-- Every row comes from a row of its id, with the lease that row has. -/
def KeepsLeases (db db' : Db) : Prop :=
  ∀ row' ∈ db'.reservations, ∃ row ∈ db.reservations,
    row.reservationId = row'.reservationId ∧ row'.lease = row.lease

theorem KeepsLeases.of_eq (h : db'.reservations = db.reservations) : KeepsLeases db db' :=
  fun row' hrow' => ⟨row', h ▸ hrow', rfl, rfl⟩

theorem KeepsLeases.trans {db'' : Db} (h : KeepsLeases db db') (h' : KeepsLeases db' db'') :
    KeepsLeases db db'' := by
  intro row'' hrow''
  obtain ⟨row', hrow', hid', hlease'⟩ := h' row'' hrow''
  obtain ⟨row, hrow, hid, hlease⟩ := h row' hrow'
  exact ⟨row, hrow, hid.trans hid', hlease'.trans hlease⟩

/-- A flush of rows that keep their lease. -/
theorem KeepsLeases.flush {rows : List RoastReservation}
    (hrows : ∀ new ∈ rows, ∃ row ∈ db.reservations,
      row.reservationId = new.reservationId ∧ new.lease = row.lease) :
    KeepsLeases db (db.flushReservations rows) := by
  intro row' hrow'
  rcases Tables.mem_writeBack hrow' with ⟨hold, -⟩ | ⟨hnew, -⟩
  · exact ⟨row', hold, rfl, rfl⟩
  · exact hrows row' hnew

/-- An answer with the row a token gave access to. -/
theorem KeepsLeases.answer (hrow : row ∈ db.reservations)
    (hid : row'.reservationId = row.reservationId) (hlease : row'.lease = row.lease) :
    KeepsLeases db (answer row' db).2 := by
  refine KeepsLeases.flush fun new hnew => ?_
  obtain rfl := List.mem_singleton.mp hnew
  exact ⟨row, hrow, hid.symm, hlease⟩

theorem transitionWaitingNotice_leases (req : RoastWaitingNoticeRequest) :
    KeepsLeases db (transitionWaitingNotice e req db).2 := by
  unfold transitionWaitingNotice
  cases hfind : db.reservation? req.reservationId with
  | none => exact .of_eq rfl
  | some row =>
      obtain ⟨hrow, -⟩ := mem_of_reservation? hfind
      dsimp only
      cases row.waitingNotice with
      | none => exact .of_eq rfl
      | some notice =>
          dsimp only
          split_ifs
          · exact .of_eq rfl
          · cases advanceNotice notice req.action with
            | none => exact .of_eq rfl
            | some next =>
                refine KeepsLeases.flush fun new hnew => ?_
                obtain rfl := List.mem_singleton.mp hnew
                exact ⟨row, hrow, rfl, rfl⟩

theorem markPrepared_lease : (markPrepared row).lease = row.lease := by
  unfold markPrepared
  split_ifs <;> rfl

theorem prepareOutcomeOnce_leases (req : RoastReservationOutcomeRequest) :
    KeepsLeases db (prepareOutcomeOnce e req db).2 := by
  rcases prepareOutcomeOnce_cases e req db with heq | ⟨row, hleased, ⟨-, -, heq⟩ | ⟨-, heq⟩⟩
  · rw [heq]
    exact .of_eq rfl
  · obtain ⟨hrow, -⟩ := leasedRow_some hleased
    obtain ⟨results, hresult⟩ := storeOutcome_row e req row db
    rw [heq, hresult]
    have hstore : KeepsLeases db (storeOutcome e req row db).2 := .of_eq (by simp)
    have hstored : row ∈ (storeOutcome e req row db).2.reservations := by simpa using hrow
    exact hstore.trans (KeepsLeases.answer hstored (by simp) markPrepared_lease)
  · obtain ⟨hrow, -⟩ := leasedRow_some hleased
    rw [heq]
    exact .answer hrow (by simp) markPrepared_lease

theorem saveOutcome_leases (req : RoastReservationOutcomeRequest) :
    KeepsLeases db (saveOutcome req db).2 := by
  rcases saveOutcome_cases req db with heq | ⟨row, hleased, -, heq⟩
  · rw [heq]
    exact .of_eq rfl
  · rw [heq]
    exact .answer (leasedRow_some hleased).1 rfl rfl

theorem markSending_leases (req : RoastReservationMutationRequest) :
    KeepsLeases db (markSending req db).2 := by
  rcases markSending_cases req db with heq | ⟨row, hleased, -, heq⟩
  · rw [heq]
    exact .of_eq rfl
  · rw [heq]
    refine .answer (leasedRow_some hleased).1 ?_ ?_ <;> split_ifs <;> rfl

theorem complete_leases (req : RoastReservationCompleteRequest) :
    KeepsLeases db (complete e req db).2 := by
  unfold complete
  cases hleased : leasedRow db req.reservationId req.claimToken [.sending, .completed] with
  | none => exact .of_eq rfl
  | some row =>
      have hanswer : KeepsLeases db (answer (completedRow e row) db).2 := by
        refine .answer (leasedRow_some hleased).1 (by simp) ?_
        unfold completedRow
        split_ifs <;> rfl
      dsimp only
      split
      · exact hanswer.trans (.of_eq (by simp))
      · exact hanswer

theorem Waits.lease (h : Waits row row') : row'.lease = row.lease := by
  show row'.record.lease = row.record.lease
  rw [h.record]

/-- A step of a round that is neither leased nor reported on. -/
theorem RoundStep.lease_kept (h : RoundStep warrant rolls r r')
    (hclaims : ∀ req, ¬ warrant.claims req) (hreports : ¬ warrant.reports) :
    r'.row.lease = r.row.lease := by
  by_cases hopen : r.row.status = .pending
  · exact (h.waits hopen).lease
  · cases h with
    | busy req => exact (Waits.updateDeliveryCapability req).lease
    | capability req _ hserves => exact absurd hserves (hclaims req)
    | lease e req token _ hserves => exact absurd hserves (hclaims req)
    | leaseNotice e req token _ hserves => exact absurd hserves (hclaims req)
    | notice | settle | confirmOutcome | save | send | complete | release =>
        exact absurd (by assumption) hreports
    | _ => exact absurd (by assumption) hopen

theorem RoundSteps.lease_kept (h : RoundSteps warrant rolls r r')
    (hclaims : ∀ req, ¬ warrant.claims req) (hreports : ¬ warrant.reports) :
    r'.row.lease = r.row.lease := by
  induction h with
  | refl => rfl
  | tail _ hlast ih => exact (hlast.lease_kept hclaims hreports).trans ih

/-- A new round is not leased. -/
theorem RoundBirth.lease (h : RoundBirth rolls r) : r.row.lease = (none, none) := by
  obtain ⟨e, req, roll, protection, reservationId, hroll, hgate⟩ := h
  cases roll with
  | none => rfl
  | some roll => exact (Waits.activateReservation e roll.pigId false).lease

/-! ### One step -/

/-- The item of a round among the items of a claim. -/
theorem claim_find (req : RoastReservationClaimRequest) (id : String) :
    ((claim e req db).1.items.find? fun item => item.reservationId = id) =
      ((leaseRows e req (declareCapability req db)).find? fun row =>
        row.reservationId = id).map (claim e req db).2.schema := by
  show (((leaseRows e req (declareCapability req db)).map (claim e req db).2.schema).find? _) = _
  rw [List.find?_map]
  rfl

/-- The row is what a claim makes of this one, but for the lease. -/
def Freshened (row row' : RoastReservation) : Prop :=
  ∃ version notice,
    row' = { row with deliveryGatheringVersion := version, waitingNotice := notice }

theorem Freshened.refl (row : RoastReservation) : Freshened row row :=
  ⟨row.deliveryGatheringVersion, row.waitingNotice, rfl⟩

theorem declareCapability_freshened {req : RoastReservationClaimRequest}
    (hrow' : row' ∈ (declareCapability req db).reservations) :
    ∃ row ∈ db.reservations, row.reservationId = row'.reservationId ∧ Freshened row row' := by
  unfold declareCapability at hrow'
  split_ifs at hrow'
  · rcases Tables.mem_writeBack hrow' with ⟨hold, -⟩ | ⟨hnew, -⟩
    · exact ⟨row', hold, rfl, .refl row'⟩
    · obtain ⟨row, hrow, rfl⟩ := List.mem_map.mp hnew
      exact ⟨row, (List.mem_filter.mp hrow).1, rfl, 2, row.waitingNotice, rfl⟩
  · exact ⟨row', hrow', rfl, .refl row'⟩

/-- A row after a claim: leased under the token of the item that returns it, or not
returned and not leased. -/
theorem claim_rows (hsound : db.Sound) {req : RoastReservationClaimRequest}
    (hrow' : row' ∈ (claim e req db).2.reservations) :
    ∃ row ∈ db.reservations, row.reservationId = row'.reservationId ∧
      ((∃ item, ((claim e req db).1.items.find? fun item =>
          item.reservationId = row'.reservationId) = some item ∧
        Freshened (leaseRow e req item.claimToken row) row') ∨
      (((claim e req db).1.items.find? fun item =>
          item.reservationId = row'.reservationId) = none ∧ Freshened row row')) := by
  have hdeclared : Evolves ((Request.claim req).warrant e) [] db (declareCapability req db) :=
    declareCapability_evolves hsound rfl
  have hunique : Tables.Unique (·.reservationId) (leaseRows e req (declareCapability req db)) :=
    leaseRows_unique hdeclared.sound.ids
  -- the notices are leased last
  obtain ⟨mid, hmid, hid, notice, hnotice⟩ : ∃ mid ∈
      ((declareCapability req db).flushReservations
        (leaseRows e req (declareCapability req db))).reservations,
      mid.reservationId = row'.reservationId ∧
        ∃ notice, row' = { mid with waitingNotice := notice } := by
    rcases Tables.mem_writeBack hrow' with ⟨hold, -⟩ | ⟨hnew, -⟩
    · exact ⟨row', hold, rfl, row'.waitingNotice, rfl⟩
    · obtain ⟨mid, hmid, i, -, rfl⟩ := mem_leaseNotices hnew
      exact ⟨mid, hmid, rfl, _, rfl⟩
  rw [← hid, claim_find]
  rcases Tables.mem_writeBack hmid with ⟨hold, hothers⟩ | ⟨hleased, -⟩
  · obtain ⟨row, hrow, hsame, version, before, rfl⟩ := declareCapability_freshened hold
    refine ⟨row, hrow, hsame, Or.inr ⟨?_, version, notice, hnotice⟩⟩
    rw [List.find?_eq_none.mpr fun leased hleased => by simpa using hothers leased hleased]
    rfl
  · have hfind := hunique.find? hleased
    obtain ⟨old, hold, i, -, rfl⟩ := mem_leaseRows hleased
    obtain ⟨row, hrow, hsame, version, before, rfl⟩ := declareCapability_freshened hold
    refine ⟨row, hrow, hsame, Or.inl ⟨_, by rw [hfind]; rfl, ?_⟩⟩
    exact ⟨version, notice, hnotice⟩

/-- A claim stores the lease of every round it returns, and no other. -/
theorem claim_leases (hsound : db.Sound) {req : RoastReservationClaimRequest}
    (hrow' : row' ∈ (claim e req db).2.reservations) :
    (∃ item, ((claim e req db).1.items.find? fun item =>
        item.reservationId = row'.reservationId) = some item ∧
      row'.lease = (some item.claimToken, some e.now)) ∨
    (((claim e req db).1.items.find? fun item => item.reservationId = row'.reservationId) = none ∧
      ∃ row ∈ db.reservations, row.reservationId = row'.reservationId ∧ row'.lease = row.lease) := by
  obtain ⟨row, hrow, hid, ⟨item, hfind, version, notice, heq⟩ | ⟨hnone, version, notice, heq⟩⟩ :=
    claim_rows hsound hrow'
  · exact Or.inl ⟨item, hfind, by rw [heq]; rfl⟩
  · exact Or.inr ⟨hnone, row, hrow, hid, by rw [heq]; rfl⟩

/-- A release takes the lease back, or is refused. -/
theorem release_leases {req : RoastReservationMutationRequest}
    (hrow' : row' ∈ (release req db).2.reservations) :
    (req.reservationId = row'.reservationId ∧ (release req db).1.ok = true ∧
        row'.lease = (none, none)) ∨
      (¬ (req.reservationId = row'.reservationId ∧ (release req db).1.ok = true) ∧
        ∃ row ∈ db.reservations, row.reservationId = row'.reservationId ∧
          row'.lease = row.lease) := by
  unfold release at hrow' ⊢
  cases hleased : leasedRow db req.reservationId req.claimToken [.processing, .prepared] with
  | none =>
      rw [hleased] at hrow'
      exact Or.inr ⟨by simp [refused], row', hrow', rfl, rfl⟩
  | some row =>
      rw [hleased] at hrow'
      obtain ⟨hrow, hid, -, -⟩ := leasedRow_some hleased
      rcases Tables.mem_writeBack_singleton hrow' with ⟨hold, hne⟩ | rfl
      · refine Or.inr ⟨fun hsame => hne ?_, row', hold, rfl, rfl⟩
        exact hsame.1.symm.trans hid.symm
      · exact Or.inl ⟨hid.symm, rfl, rfl⟩

/-- What a step does to the lease of a round, as the log says it. -/
def LeaseStep (w : World) (event : Event) (row' : RoastReservation) : Prop :=
  match event.leaseMove row'.reservationId with
  | .grant token now => row'.lease = (some token, some now)
  | .giveBack => row'.lease = (none, none)
  | .idle =>
      (∃ row ∈ w.db.reservations, row.reservationId = row'.reservationId ∧
        row'.lease = row.lease) ∨
      ((∀ row ∈ w.db.reservations, row.reservationId ≠ row'.reservationId) ∧
        row'.lease = (none, none))

/-- A transaction whose log entry is empty, and that keeps the leases. -/
theorem LeaseStep.of_keeps (hmove : event.leaseMove row'.reservationId = .idle)
    (hkeeps : KeepsLeases w.db db') (hrow' : row' ∈ db'.reservations) : LeaseStep w event row' := by
  unfold LeaseStep
  rw [hmove]
  exact Or.inl (hkeeps row' hrow')

/-- A transaction that neither serves a claim nor reports on a delivery. -/
theorem LeaseStep.of_rounds (hsound : w.Sound) (hstep : service.step w event w')
    (hmove : event.leaseMove row'.reservationId = .idle)
    (hclaims : ∀ req, ¬ event.warrant.claims req) (hreports : ¬ event.warrant.reports)
    (hrow' : row' ∈ w'.db.reservations) : LeaseStep w event row' := by
  unfold LeaseStep
  rw [hmove]
  rcases hsound.step_round hstep hrow' with ⟨row, hrow, hid, hsteps⟩ | ⟨hborn, hfresh⟩
  · exact Or.inl ⟨row, hrow, hid, hsteps.lease_kept hclaims hreports⟩
  · exact Or.inr ⟨hfresh, hborn.lease⟩

/-- **Every step does to the leases what its log entry says.** -/
theorem lease_step (hsound : w.Sound) (hstep : service.step w event w')
    (hrow' : row' ∈ w'.db.reservations) : LeaseStep w event row' := by
  have hkept := hstep
  obtain ⟨-, -, hresponse, rfl⟩ := hkept
  cases haction : event.action with
  | reconcile flight =>
      refine .of_rounds hsound hstep ?_ ?_ ?_ hrow'
      · simp [Event.leaseMove, haction]
      · simp [Event.warrant, haction]
      · simp [Event.warrant, haction]
  | request r view =>
      have hstored := hrow'
      simp only [World.after, haction, Action.transaction] at hresponse hrow'
      cases r with
      | claim req =>
          simp only [Request.transaction] at hresponse hrow'
          unfold LeaseStep Event.leaseMove
          rw [haction, hresponse]
          dsimp only
          rcases claim_leases hsound.db hrow' with ⟨item, hfind, hlease⟩ | ⟨hnone, hold⟩
          · rw [hfind]
            exact hlease
          · rw [hnone]
            exact Or.inl hold
      | release req =>
          simp only [Request.transaction] at hresponse hrow'
          unfold LeaseStep Event.leaseMove
          rw [haction, hresponse]
          dsimp only
          rcases release_leases hrow' with ⟨hid, hok, hlease⟩ | ⟨hnot, hold⟩
          · rw [if_pos ⟨hid, hok⟩]
            exact hlease
          · rw [if_neg hnot]
            exact Or.inl hold
      | waitingNotice req =>
          exact .of_keeps (by simp [Event.leaseMove, haction]) (transitionWaitingNotice_leases req) hrow'
      | prepareOutcome req =>
          exact .of_keeps (by simp [Event.leaseMove, haction]) (prepareOutcomeOnce_leases req) hrow'
      | saveOutcome req =>
          exact .of_keeps (by simp [Event.leaseMove, haction]) (saveOutcome_leases req) hrow'
      | markSending req =>
          exact .of_keeps (by simp [Event.leaseMove, haction]) (markSending_leases req) hrow'
      | complete req =>
          exact .of_keeps (by simp [Event.leaseMove, haction]) (complete_leases req) hrow'
      | _ =>
          refine .of_rounds hsound hstep ?_ ?_ ?_ hstored <;>
            simp [Event.leaseMove, Event.warrant, Request.warrant, haction]

/-- An event that is no claim or release of a stored round leaves no entry. -/
theorem leaseMove_idle (hsound : w.Sound) (hstep : service.step w event w')
    (hunknown : ∀ row ∈ w.db.reservations, row.reservationId ≠ id) :
    event.leaseMove id = .idle := by
  obtain ⟨-, -, hresponse, -⟩ := hstep
  unfold Event.leaseMove
  split
  · rename_i req view response haction hanswer
    rw [haction, hanswer] at hresponse
    have hclaim : response = (claim event.env req w.db).1 := Response.claim.inj hresponse
    subst hclaim
    have hnone : ((claim event.env req w.db).1.items.find? fun item =>
        item.reservationId = id) = none := by
      refine List.find?_eq_none.mpr fun item hitem => ?_
      obtain ⟨old, hold, hid, -⟩ := claim_items hsound.db hitem
      simpa [← hid] using hunknown old hold
    rw [hnone]
  · rename_i req view response haction hanswer
    rw [haction, hanswer] at hresponse
    have hrelease : response = (release req w.db).1 := Response.mutation.inj hresponse
    subst hrelease
    refine if_neg ?_
    rintro ⟨rfl, hok⟩
    unfold release at hok
    cases hleased : leasedRow w.db req.reservationId req.claimToken [.processing, .prepared] with
    | none => simp [hleased, refused] at hok
    | some row =>
        obtain ⟨hrow, hid, -⟩ := leasedRow_some hleased
        exact hunknown row hrow hid
  · rfl

/-! ### The log tells the leases -/

/-- The stored lease of every round is the one its log tells. -/
structure Logged (events : List Event) (db : Db) : Prop where
  rows : ∀ row ∈ db.reservations,
    row.lease = leaseColumns (Lease.holder (leaseLog row.reservationId events))
  unknown : ∀ id, (∀ row ∈ db.reservations, row.reservationId ≠ id) →
    Lease.holder (leaseLog id events) = none

theorem logged_of_run (hrun : Run service {} events w) : Logged events w.db := by
  refine Run.history (I := fun events w => Logged events w.db) ⟨by simp, fun _ _ => rfl⟩ ?_ hrun
  intro events w event w' hrun hlogged hstep
  have hsound := sound_of_reachable ⟨{}, events, rfl, hrun⟩
  refine ⟨fun row' hrow' => ?_, fun id hunknown => ?_⟩
  · have hlease := lease_step hsound hstep hrow'
    unfold LeaseStep at hlease
    rw [leaseLog_append, Lease.holder_append]
    cases hmove : event.leaseMove row'.reservationId with
    | grant token now =>
        rw [hmove] at hlease
        exact hlease
    | giveBack =>
        rw [hmove] at hlease
        exact hlease
    | idle =>
        rw [hmove] at hlease
        rcases hlease with ⟨row, hrow, hid, hsame⟩ | ⟨hfresh, hnone⟩
        · rw [hsame, hlogged.rows row hrow, hid]
          rfl
        · show row'.lease = leaseColumns (Lease.holder (leaseLog row'.reservationId events))
          rw [hnone, hlogged.unknown _ hfresh]
          rfl
  · have hbefore : ∀ row ∈ w.db.reservations, row.reservationId ≠ id := by
      intro row hrow hid
      obtain ⟨row', hrow', hsame, -⟩ := hsound.step_round_forward hstep hrow
      exact hunknown row' hrow' (hsame.symm.trans hid)
    rw [leaseLog_append, Lease.holder_append, leaseMove_idle hsound hstep hbefore,
      hlogged.unknown id hbefore]
    rfl

/-! ### Grants -/

/-- A round that is granted was claimable, and its token is one of the claim's own. -/
theorem granted_claimable (hsound : w.Sound) (hstep : service.step w event w') {now : Time}
    (h : event.leaseMove id = .grant token now) :
    now = event.env.now ∧ (∃ i, token = event.env.uuid i) ∧
      ∃ req, ∃ row ∈ w.db.reservations,
        row.reservationId = id ∧ claimable event.env req row = true := by
  obtain ⟨-, -, hresponse, -⟩ := hstep
  unfold Event.leaseMove at h
  split at h
  · rename_i req view response haction hanswer
    rw [haction, hanswer] at hresponse
    have hclaim : response = (claim event.env req w.db).1 := Response.claim.inj hresponse
    subst hclaim
    cases hfind : (claim event.env req w.db).1.items.find? fun item => item.reservationId = id with
    | none =>
        rw [hfind] at h
        cases h
    | some item =>
        rw [hfind] at h
        obtain ⟨rfl, rfl⟩ := Lease.Move.grant.inj h
        have hitem := List.mem_of_find?_eq_some hfind
        have hid : item.reservationId = id := by simpa using List.find?_some hfind
        have hids : item.reservationId ∈
            (claim event.env req w.db).1.items.map (·.reservationId) := List.mem_map_of_mem hitem
        rw [claim_item_ids hsound.db.ids] at hids
        obtain ⟨row, hrow, hsame⟩ := List.mem_map.mp hids
        obtain ⟨hstored, hcan⟩ := List.mem_filter.mp (List.mem_of_mem_take hrow)
        obtain ⟨leased, hleased, rfl⟩ := List.mem_map.mp hitem
        obtain ⟨old, -, i, -, rfl⟩ := mem_leaseRows hleased
        exact ⟨rfl, ⟨i, rfl⟩, req, row, hstored, hsame.trans hid, hcan⟩
  · split_ifs at h
  · cases h

/-- The lease a claim grants waited for the one before to lapse. -/
theorem leaseLog_waits (hrun : Run service {} events w) (id : String) :
    Lease.Waits (fun since now => since < now - roastReservationClaimTimeout)
      (leaseLog id events) := by
  intro before token now after hlog held since hheld
  obtain ⟨earlier, rest, rfl, rfl, hrest⟩ := List.map_eq_append_iff.mp hlog
  obtain ⟨event, later, rfl, hmove, -⟩ := List.map_eq_cons_iff.mp hrest
  obtain ⟨u, hbefore, hthen⟩ := hrun.split earlier (event :: later) rfl
  obtain ⟨v, hstep, -⟩ := hthen.of_cons
  have hreach : Reachable service u := ⟨{}, earlier, rfl, hbefore⟩
  obtain ⟨rfl, -, req, row, hrow, hid, hcan⟩ :=
    granted_claimable (sound_of_reachable hreach) hstep hmove
  have hlease := (logged_of_run hbefore).rows row hrow
  rw [hid, show Lease.holder (leaseLog id earlier) = some (held, since) from hheld] at hlease
  obtain ⟨htoken, hclaimed⟩ := Prod.mk.inj hlease
  replace htoken : row.claimToken = some held := htoken
  replace hclaimed : row.claimedAt = some since := hclaimed
  simp only [claimable, Bool.and_eq_true, Bool.or_eq_true, decide_eq_true_eq] at hcan
  rcases hcan.1.1.2 with hready | ⟨-, hlapsed⟩
  · rw [(staged_of_reachable hreach row hrow).ready hready] at htoken
    cases htoken
  · unfold leaseExpired at hlapsed
    rw [hclaimed] at hlapsed
    simpa using hlapsed

/-! ### Tokens -/

theorem issued_kept (hrun : Run service w events w') {token : String} (h : token ∈ w.issued) :
    token ∈ w'.issued := by
  refine hrun.invariant (I := fun w => token ∈ w.issued) ?_ h
  rintro w event w' hmem ⟨-, -, -, rfl⟩
  exact Or.inl hmem

/-- No two claims lease anything under one token. -/
theorem grants_distinct {before between after : List Event} {first second : Event}
    (hrun : Run service {} (before ++ first :: between ++ second :: after) w) {id' token' : String}
    {now now' : Time} (hfirst : first.leaseMove id = .grant token now)
    (hsecond : second.leaseMove id' = .grant token' now') : token ≠ token' := by
  obtain ⟨u, hstart, hrest⟩ := hrun.split (before ++ first :: between) (second :: after) rfl
  obtain ⟨v, hstep', -⟩ := hrest.of_cons
  obtain ⟨s, hbefore, hthen⟩ := hstart.split before (first :: between) rfl
  obtain ⟨t, hstep, hbetween⟩ := hthen.of_cons
  obtain ⟨-, ⟨i, rfl⟩, -⟩ :=
    granted_claimable (sound_of_reachable ⟨{}, before, rfl, hbefore⟩) hstep hfirst
  obtain ⟨-, ⟨j, rfl⟩, -⟩ := granted_claimable (sound_of_reachable ⟨{}, _, rfl, hstart⟩) hstep' hsecond
  have hissued : first.env.uuid i ∈ t.issued := by
    obtain ⟨-, -, -, rfl⟩ := hstep
    exact Or.inr (Set.mem_range_self i)
  intro hsame
  exact hstep'.1.unissued j (hsame ▸ issued_kept hbetween hissued)

/-! ### Accepted requests -/

/-- The event reports on the delivery of the round under the token, and is accepted. -/
def Event.accepted (event : Event) (id token : String) : Prop :=
  match event.action, event.response with
  | .request (.prepareOutcome req) _, .mutation response =>
      req.reservationId = id ∧ req.claimToken = token ∧ response.ok = true
  | .request (.saveOutcome req) _, .mutation response =>
      req.reservationId = id ∧ req.claimToken = token ∧ response.ok = true
  | .request (.markSending req) _, .mutation response =>
      req.reservationId = id ∧ req.claimToken = token ∧ response.ok = true
  | .request (.complete req) _, .mutation response =>
      req.reservationId = id ∧ req.claimToken = token ∧ response.ok = true
  | .request (.release req) _, .mutation response =>
      req.reservationId = id ∧ req.claimToken = token ∧ response.ok = true
  | _, _ => False

instance (event : Event) (id token : String) : Decidable (event.accepted id token) :=
  decidable_of_iff
    ((match event.action, event.response with
      | .request (.prepareOutcome req) _, .mutation response =>
          decide (req.reservationId = id ∧ req.claimToken = token ∧ response.ok = true)
      | .request (.saveOutcome req) _, .mutation response =>
          decide (req.reservationId = id ∧ req.claimToken = token ∧ response.ok = true)
      | .request (.markSending req) _, .mutation response =>
          decide (req.reservationId = id ∧ req.claimToken = token ∧ response.ok = true)
      | .request (.complete req) _, .mutation response =>
          decide (req.reservationId = id ∧ req.claimToken = token ∧ response.ok = true)
      | .request (.release req) _, .mutation response =>
          decide (req.reservationId = id ∧ req.claimToken = token ∧ response.ok = true)
      | _, _ => false) = true)
    (by unfold Event.accepted; split <;> simp)

/-- A report that is not refused has access to the row. -/
theorem mutation_leased {reservationId claimToken : String}
    {mutation : RoastReservationMutationResponse × Db}
    (hcases : mutation.1 = refused ∨
      ∃ states row, leasedRow db reservationId claimToken states = some row)
    (hok : mutation.1.ok = true) :
    ∃ row ∈ db.reservations, row.reservationId = reservationId ∧
      row.claimToken = some claimToken := by
  rcases hcases with heq | ⟨states, row, hleased⟩
  · rw [heq] at hok
    cases hok
  · obtain ⟨hrow, hid, htoken, -⟩ := leasedRow_some hleased
    exact ⟨row, hrow, hid, htoken⟩

theorem complete_leased (req : RoastReservationCompleteRequest) :
    (complete e req db).1 = refused ∨
      ∃ states row, leasedRow db req.reservationId req.claimToken states = some row := by
  unfold complete
  cases hleased : leasedRow db req.reservationId req.claimToken [.sending, .completed] with
  | none => exact Or.inl rfl
  | some row => exact Or.inr ⟨_, row, hleased⟩

theorem release_leased (req : RoastReservationMutationRequest) :
    (release req db).1 = refused ∨
      ∃ states row, leasedRow db req.reservationId req.claimToken states = some row := by
  unfold release
  cases hleased : leasedRow db req.reservationId req.claimToken [.processing, .prepared] with
  | none => exact Or.inl rfl
  | some row => exact Or.inr ⟨_, row, hleased⟩

/-- An accepted report has the stored token. -/
theorem accepted_stored (hstep : service.step w event w') (h : event.accepted id token) :
    ∃ row ∈ w.db.reservations, row.reservationId = id ∧ row.claimToken = some token := by
  obtain ⟨-, -, hresponse, -⟩ := hstep
  unfold Event.accepted at h
  split at h
  · rename_i req view response haction hanswer
    rw [haction, hanswer] at hresponse
    obtain ⟨rfl, rfl, hok⟩ := h
    have hprepared : response = (prepareOutcomeOnce event.env req w.db).1 :=
      Response.mutation.inj hresponse
    refine mutation_leased ?_ (hprepared ▸ hok)
    exact (prepareOutcomeOnce_cases event.env req w.db).imp (congrArg Prod.fst)
      fun ⟨row, hleased, _⟩ => ⟨_, row, hleased⟩
  · rename_i req view response haction hanswer
    rw [haction, hanswer] at hresponse
    obtain ⟨rfl, rfl, hok⟩ := h
    have hsaved : response = (saveOutcome req w.db).1 := Response.mutation.inj hresponse
    refine mutation_leased ?_ (hsaved ▸ hok)
    exact (saveOutcome_cases req w.db).imp (congrArg Prod.fst)
      fun ⟨row, hleased, _⟩ => ⟨_, row, hleased⟩
  · rename_i req view response haction hanswer
    rw [haction, hanswer] at hresponse
    obtain ⟨rfl, rfl, hok⟩ := h
    have hsent : response = (markSending req w.db).1 := Response.mutation.inj hresponse
    refine mutation_leased ?_ (hsent ▸ hok)
    exact (markSending_cases req w.db).imp (congrArg Prod.fst)
      fun ⟨row, hleased, _⟩ => ⟨_, row, hleased⟩
  · rename_i req view response haction hanswer
    rw [haction, hanswer] at hresponse
    obtain ⟨rfl, rfl, hok⟩ := h
    have hcompleted : response = (complete event.env req w.db).1 := Response.mutation.inj hresponse
    exact mutation_leased (complete_leased req) (hcompleted ▸ hok)
  · rename_i req view response haction hanswer
    rw [haction, hanswer] at hresponse
    obtain ⟨rfl, rfl, hok⟩ := h
    have hreleased : response = (release req w.db).1 := Response.mutation.inj hresponse
    exact mutation_leased (release_leased req) (hreleased ▸ hok)
  · exact h.elim

/-- Who is accepted holds the lease. -/
theorem accepted_holder {before after : List Event}
    (hrun : Run service {} (before ++ event :: after) w) (h : event.accepted id token) :
    ∃ since, Lease.holder (leaseLog id before) = some (token, since) := by
  obtain ⟨u, hbefore, hrest⟩ := hrun.split before (event :: after) rfl
  obtain ⟨v, hstep, -⟩ := hrest.of_cons
  obtain ⟨row, hrow, rfl, htoken⟩ := accepted_stored hstep h
  have hlease := (logged_of_run hbefore).rows row hrow
  have hheld : row.claimToken = (Lease.holder (leaseLog row.reservationId before)).map (·.1) :=
    congrArg Prod.fst hlease
  rw [htoken] at hheld
  obtain ⟨⟨held, since⟩, hholder, hsame⟩ := Option.map_eq_some_iff.mp hheld.symm
  obtain rfl : held = token := hsame
  exact ⟨since, hholder⟩

/-- A grant in a log is the claim that made it. -/
theorem granted_in {before after : List Event}
    (hrun : Run service {} (before ++ event :: after) w) {now : Time}
    (h : event.leaseMove id = .grant token now) : event.leaseMove id = .grant token event.env.now := by
  obtain ⟨u, hbefore, hrest⟩ := hrun.split before (event :: after) rfl
  obtain ⟨v, hstep, -⟩ := hrest.of_cons
  obtain ⟨rfl, -⟩ := granted_claimable (sound_of_reachable ⟨{}, before, rfl, hbefore⟩) hstep h
  exact h

/-! ### Fencing -/

/-- **Only the bot that was given a round last reports on it.**  A report on the delivery of a
round that is accepted under a token comes from the last claim that returned the round, with no
release since; and whoever was given a round and lost it, to a release or to another claim, is
never accepted under the old token again. -/
theorem lease_fenced (hrun : Run service {} events w) :
    (∀ before event after id token, events = before ++ event :: after → event.accepted id token →
      ∃ earlier claim later, before = earlier ++ claim :: later ∧
        claim.leaseMove id = .grant token claim.env.now ∧
        ∀ other ∈ later, other.leaseMove id = .idle) ∧
    ∀ before claim between other later event after id token now,
      events = before ++ claim :: between ++ other :: later ++ event :: after →
        claim.leaseMove id = .grant token now → other.leaseMove id ≠ .idle →
          ¬ event.accepted id token := by
  refine ⟨?_, ?_⟩
  · rintro before event after id token rfl haccepted
    obtain ⟨since, hholder⟩ := accepted_holder hrun haccepted
    obtain ⟨first, rest, hlog, hidle⟩ := Lease.holder_some hholder
    obtain ⟨earlier, others, rfl, rfl, hothers⟩ := List.map_eq_append_iff.mp hlog
    obtain ⟨claim, later, rfl, hgrant, rfl⟩ := List.map_eq_cons_iff.mp hothers
    refine ⟨earlier, claim, later, rfl, ?_, fun other hother => hidle _ (List.mem_map_of_mem hother)⟩
    exact granted_in (by simpa using hrun) hgrant
  · rintro before claim between other later event after id token now rfl hgrant hlost haccepted
    obtain ⟨since, hholder⟩ := accepted_holder hrun haccepted
    refine Lease.holder_lost (leaseLog id (before ++ claim :: between)) hlost (fun time hmem => ?_)
      (by simpa [leaseLog] using hholder)
    -- the token was granted again: to a later claim, under another token
    obtain ⟨again, hagain, hsame⟩ := List.mem_map.mp
      (show Lease.Move.grant token time ∈ leaseLog id (other :: later) from hmem)
    obtain ⟨fs, gs, hsplit⟩ := List.append_of_mem hagain
    have hevents : before ++ claim :: between ++ other :: later ++ event :: after =
        before ++ claim :: (between ++ fs) ++ again :: (gs ++ event :: after) := by
      rw [List.append_assoc, List.append_assoc, ← List.cons_append, hsplit]
      simp
    rw [hevents] at hrun
    exact grants_distinct hrun hgrant hsame rfl

/-- **Two bots are given a round under different tokens, and only after the lease time**: a
claim that returns a round again does so under another token, and as long as the clocks between
do not run backwards and nobody releases the round, it comes more than five minutes after the
first. -/
theorem lease_apart {before between after : List Event} {first second : Event}
    (hrun : Run service {} (before ++ first :: between ++ second :: after) w)
    {token' : String} {now now' : Time} (hfirst : first.leaseMove id = .grant token now)
    (hsecond : second.leaseMove id = .grant token' now') :
    token ≠ token' ∧
      ((∀ event ∈ between, first.env.now ≤ event.env.now) →
        (∀ event ∈ between, event.leaseMove id ≠ .giveBack) →
          first.env.now + roastReservationClaimTimeout < second.env.now) := by
  refine ⟨grants_distinct hrun hfirst hsecond, fun hclocks hkept => ?_⟩
  have hfront : Run service {} (before ++ first :: (between ++ second :: after)) w := by
    simpa using hrun
  have hnow := granted_in hfront hfirst
  have hnow' := granted_in hrun hsecond
  have hlog : leaseLog id (before ++ first :: between ++ second :: after) =
      leaseLog id before ++ .grant token first.env.now :: leaseLog id between ++
        .grant token' second.env.now :: leaseLog id after := by
    simp [leaseLog, hnow, hnow']
  have hapart := (leaseLog_waits hrun id).apart (fun hle hlapsed => lt_of_le_of_lt hle hlapsed) hlog
    (fun hmem => ?_) fun held since hmem => ?_
  · exact lt_sub_iff_add_lt.mp hapart
  · obtain ⟨event, hevent, hmove⟩ := List.mem_map.mp hmem
    exact hkept event hevent hmove
  · obtain ⟨event, hevent, hmove⟩ := List.mem_map.mp hmem
    obtain ⟨fs, gs, rfl⟩ := List.append_of_mem hevent
    have hinner : Run service {} ((before ++ first :: fs) ++ event :: (gs ++ second :: after)) w := by
      simpa using hrun
    have hsame := granted_in hinner hmove
    rw [hmove] at hsame
    obtain ⟨-, rfl⟩ := Lease.Move.grant.inj hsame
    exact hclocks event hevent

/-! ### On runs -/

/-- Runs in which one claim follows another. -/
theorem script_twice {script : List (Time × Order)} (h : (play 0 {} script).isSome = true)
    (now now' : Time) (r : Request)
    (h' : (play 0 {} (script ++ [(now, .request r)])).isSome = true) :
    ∃ w, Run service (scriptWorld script)
      [scriptEvent script now r, scriptEvent (script ++ [(now, .request r)]) now' r] w := by
  have hfirst := script_step h now r
  have hsecond := script_step h' now' r
  rw [scriptWorld_snoc h] at hsecond
  exact ⟨_, (Run.single hfirst).snoc hsecond⟩

/-- User 1 aims at user 2, who arrives: the round is ready. -/
def readyScript : List (Time × Order) :=
  [(739000 * dayMicros, .request (.prepare
      { attackerId := "1", attackerPigId := "pig", targetId := "2", groupId := "7",
        deliveryBotId := "bot", dateStr := 739000 })),
    (739000 * dayMicros, .finish 0),
    (739000 * dayMicros, .request (.getOrCreate
      { userId := "2", proposedPigId := "boar", dateStr := 739000 })),
    (739000 * dayMicros, .finish 0)]

def readyClaim : Request :=
  .claim { deliveryBotId := "bot", dateStr := 739000, supportsPrepared := true }

/-- The bot claims the round. -/
def firstClaim : Event :=
  scriptEvent readyScript (739000 * dayMicros) readyClaim

/-- After a minute another bot asks, and is given nothing. -/
def earlyScript : List (Time × Order) :=
  readyScript ++ [(739000 * dayMicros, .request readyClaim)]

def otherClaim : Request :=
  .claim { deliveryBotId := "bot2", dateStr := 739000, supportsPrepared := true }

def emptyClaim : Event :=
  scriptEvent earlyScript (739000 * dayMicros + minutes 1) otherClaim

def silentScript : List (Time × Order) :=
  earlyScript ++ [(739000 * dayMicros + minutes 1, .request otherClaim)]

/-- The first bot is silent, and claims the round again after six minutes. -/
def lapsedClaim : Event :=
  scriptEvent silentScript (739000 * dayMicros + minutes 6) readyClaim

theorem lease_apart_lapsed :
    scriptToken 4 0 ≠ scriptToken 6 0 ∧
      firstClaim.env.now + roastReservationClaimTimeout < lapsedClaim.env.now := by
  have hopened : (play 0 {} readyScript).isSome = true := by decide +kernel
  have hclaimed : (play 0 {} earlyScript).isSome = true := by decide +kernel
  have hfirstStep := script_step hopened (739000 * dayMicros) readyClaim
  have hemptyStep := script_step hclaimed (739000 * dayMicros + minutes 1) otherClaim
  have hsilent : (play 0 {} silentScript).isSome = true := by decide +kernel
  have hlapsedStep := script_step hsilent (739000 * dayMicros + minutes 6) readyClaim
  rw [← scriptWorld_snoc hopened] at hfirstStep
  rw [← scriptWorld_snoc hclaimed] at hemptyStep
  have hrun : Run service {}
      (scriptEvents readyScript ++ firstClaim :: [emptyClaim] ++ [lapsedClaim]) _ :=
    ((script_run hopened).append (Run.cons hfirstStep (Run.single hemptyStep))).snoc hlapsedStep
  have hfirst : firstClaim.leaseMove (scriptToken 0 0) =
      .grant (scriptToken 4 0) (739000 * dayMicros) := by decide +kernel
  have hsecond : lapsedClaim.leaseMove (scriptToken 0 0) =
      .grant (scriptToken 6 0) (739000 * dayMicros + minutes 6) := by decide +kernel
  obtain ⟨htokens, hapart⟩ := lease_apart hrun hfirst hsecond
  exact ⟨htokens, hapart (by decide +kernel) (by decide +kernel)⟩

/-- The round of `deliveryScript` is released and claimed again, and settled under the second
token. -/
theorem lease_fenced_delivery :
    ∃ before event after, scriptEvents deliveryScript = before ++ event :: after ∧
      ∃ earlier claim later, before = earlier ++ claim :: later ∧
        claim.leaseMove (scriptToken 0 0) = .grant (scriptToken 6 0) claim.env.now ∧
        ∀ other ∈ later, other.leaseMove (scriptToken 0 0) = .idle := by
  obtain ⟨event, after, hdrop⟩ : ∃ event after,
      (scriptEvents deliveryScript).drop 7 = event :: after :=
    List.exists_cons_of_ne_nil (by decide +kernel)
  have hevents : scriptEvents deliveryScript =
      (scriptEvents deliveryScript).take 7 ++ event :: after := by
    rw [← hdrop, List.take_append_drop]
  have haccepted : ∀ event ∈ ((scriptEvents deliveryScript).drop 7).head?,
      event.accepted (scriptToken 0 0) (scriptToken 6 0) := by decide +kernel
  rw [hdrop] at haccepted
  exact ⟨_, event, after, hevents,
    (lease_fenced (script_run (by decide +kernel))).1 _ event after _ _ hevents
      (haccepted event rfl)⟩

end RollPig
