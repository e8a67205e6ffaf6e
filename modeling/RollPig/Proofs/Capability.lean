/-
Whether the client that opens a round may lease it.

Both the gate of a prepare and the filter of a claim ask for the whole gathering
protocol, but the threshold of a new round is written for any client that declares the
first half of it.  A super force passes the gate of a protected target with that half
alone, and opens a round its own client is then refused.  Every other round keeps its
bot, unless it is taken over or reassigned, and is leased by the client that opened it.
-/
import RollPig.Proofs.Polling

namespace RollPig

open Transition

variable {warrant : Warrant} {rolls : List DailyRoll} {r r' : Round} {w w' : World} {event : Event}
  {db : Db} {e : Env} {row : RoastReservation} {id : String}

/-! ### Super rounds -/

/-- What a claim filters by. -/
def RoastReservation.courier (row : RoastReservation) : String × Option String × String × Nat :=
  (row.deliveryBotId, row.forceMode, row.forceOperatorId, row.protectionRequired)

/-- A super round keeps its bot, its operator and its threshold. -/
theorem RoundStep.super (h : RoundStep warrant rolls r r')
    (hforce : r.row.forceMode = some "super") : r'.row.courier = r.row.courier := by
  cases h with
  | busy req hstatus hcan =>
      simp only [canReassignProtectedDelivery, Bool.and_eq_true, decide_eq_true_eq] at hcan
      exact absurd hforce hcan.1.1.1.1.1.1.2
  | arrive e pigId handledId =>
      exact congrArg (·.courier) (standing_arriveRow e pigId handledId _ _)
  | settle | confirmOutcome =>
      unfold markPrepared
      split_ifs <;> rfl
  | complete =>
      unfold completedRow
      split_ifs <;> rfl
  | capability | lease | leaseNotice | notice | save | send | release => rfl
  | _ => contradiction

theorem RoundSteps.super (h : RoundSteps warrant rolls r r')
    (hforce : r.row.forceMode = some "super") :
    r'.row.forceMode = some "super" ∧ r'.row.courier = r.row.courier := by
  induction h with
  | refl => exact ⟨hforce, rfl⟩
  | tail _ hlast ih =>
      obtain ⟨hsuper, hcourier⟩ := ih
      have hsame := hlast.super hsuper
      have hmode := congrArg (·.2.1) hsame
      exact ⟨hmode.trans hsuper, hsame.trans hcourier⟩

/-! ### Other rounds -/

/-- The delivery of this round cannot be reassigned: its bot knows gathering, or it is an
ordinary round. -/
def RoastReservation.Fixed (row : RoastReservation) : Prop :=
  2 ≤ row.deliveryGatheringVersion ∨ row.protectionRequired = 0

theorem updateDeliveryCapability_fixed (req : RoastReservationPrepareRequest) (h : row.Fixed) :
    (updateDeliveryCapability row req).courier = row.courier ∧
      (updateDeliveryCapability row req).Fixed := by
  have hcan : canReassignProtectedDelivery row req = false := by
    rw [← Bool.not_eq_true]
    intro hcan
    simp only [canReassignProtectedDelivery, Bool.and_eq_true, decide_eq_true_eq] at hcan
    rcases h with hversion | hrequired
    · exact absurd hcan.1.1.1.1.1.2 (by omega)
    · exact absurd hcan.1.1.1.1.1.1.1 (by omega)
  unfold updateDeliveryCapability
  simp only [hcan, Bool.false_eq_true, if_false]
  split_ifs with hgathers hsame
  · exact ⟨rfl, h⟩
  · exact ⟨rfl, Or.inl (Int.le_refl 2)⟩
  · exact ⟨rfl, h⟩

/-- A round whose delivery is fixed keeps its bot as long as no protection is copied into
it and nobody takes it over. -/
theorem RoundStep.fixed (h : RoundStep warrant rolls r r') (hsyncs : ¬ warrant.syncs)
    (hforce : r'.row.forceMode ≠ some "super") (hr : r.row.Fixed) :
    r'.row.courier = r.row.courier ∧ r'.row.Fixed := by
  have hstanding : ∀ {row row' : RoastReservation}, row'.standing = row.standing → row.Fixed →
      row'.courier = row.courier ∧ row'.Fixed := by
    intro row row' hsame hfixed
    have hversion : row'.deliveryGatheringVersion = row.deliveryGatheringVersion :=
      congrArg (·.deliveryGatheringVersion) hsame
    have hrequired : row'.protectionRequired = row.protectionRequired :=
      congrArg (·.protectionRequired) hsame
    refine ⟨congrArg (·.courier) hsame, ?_⟩
    unfold RoastReservation.Fixed
    rw [hversion, hrequired]
    exact hfixed
  cases h with
  | busy req => exact updateDeliveryCapability_fixed req hr
  | confirm req => exact updateDeliveryCapability_fixed req hr
  | join e req roll _ _ hreq =>
      obtain ⟨hcourier, hfixed⟩ := updateDeliveryCapability_fixed req hr
      obtain ⟨hcourier', hfixed'⟩ := hstanding (standing_joinedRow e hreq roll _ _) hfixed
      exact ⟨hcourier'.trans hcourier, hfixed'⟩
  | upgrade e req roll _ _ hreq =>
      obtain ⟨hcourier, hfixed⟩ := updateDeliveryCapability_fixed req hr
      obtain ⟨hcourier', hfixed'⟩ := hstanding (standing_joinedRow e hreq roll _ _) hfixed
      exact ⟨hcourier'.trans hcourier, hfixed'⟩
  | takeover e req roll =>
      refine absurd ?_ hforce
      exact congrArg (·.forceMode) (standing_activateIfArrived e _ (takenOver _ _ req) _ true)
  | sync e protection removed hcopies => exact absurd hcopies hsyncs
  | arrive e pigId handledId => exact hstanding (standing_arriveRow e pigId handledId _ _) hr
  | capability => exact ⟨rfl, Or.inl (Int.le_refl 2)⟩
  | settle | confirmOutcome =>
      unfold markPrepared
      split_ifs <;> exact ⟨rfl, hr⟩
  | complete =>
      unfold completedRow
      split_ifs <;> exact ⟨rfl, hr⟩
  | lease | leaseNotice | notice | save | send | release => exact ⟨rfl, hr⟩

/-- Nothing makes a super round an ordinary one again. -/
theorem RoundSteps.ordinary (h : RoundSteps warrant rolls r r')
    (hforce : r'.row.forceMode ≠ some "super") : r.row.forceMode ≠ some "super" :=
  fun hsuper => hforce (h.super hsuper).1

theorem RoundSteps.fixed (h : RoundSteps warrant rolls r r') (hsyncs : ¬ warrant.syncs)
    (hforce : r'.row.forceMode ≠ some "super") (hr : r.row.Fixed) :
    r'.row.courier = r.row.courier ∧ r'.row.Fixed := by
  induction h with
  | refl => exact ⟨rfl, hr⟩
  | tail _ hlast ih =>
      obtain ⟨hcourier, hfixed⟩ := ih (RoundSteps.ordinary (.single hlast) hforce)
      obtain ⟨hcourier', hfixed'⟩ := hlast.fixed hsyncs hforce hfixed
      exact ⟨hcourier'.trans hcourier, hfixed'⟩

/-- A transaction that admits no prepare request moves no delivery. -/
theorem RoundStep.unprepared (h : RoundStep warrant rolls r r')
    (hnone : ∀ req, ¬ warrant.prepares req) :
    r'.row.deliveryBotId = r.row.deliveryBotId ∧
      r'.row.forceOperatorId = r.row.forceOperatorId ∧
      (2 ≤ r.row.deliveryGatheringVersion → 2 ≤ r'.row.deliveryGatheringVersion) := by
  have hstanding : ∀ {row row' : RoastReservation}, row'.standing = row.standing →
      row'.deliveryBotId = row.deliveryBotId ∧ row'.forceOperatorId = row.forceOperatorId ∧
        (2 ≤ row.deliveryGatheringVersion → 2 ≤ row'.deliveryGatheringVersion) := by
    intro row row' hsame
    have hversion : row'.deliveryGatheringVersion = row.deliveryGatheringVersion :=
      congrArg (·.deliveryGatheringVersion) hsame
    exact ⟨congrArg (·.deliveryBotId) hsame, congrArg (·.forceOperatorId) hsame,
      fun hknows => hversion ▸ hknows⟩
  cases h with
  | busy req _ _ hadmits => exact absurd hadmits (hnone req)
  | confirm req _ _ hadmits => exact absurd hadmits (hnone req)
  | join e req _ _ _ _ _ _ _ hadmits => exact absurd hadmits (hnone req)
  | upgrade e req _ _ _ _ _ _ _ hadmits => exact absurd hadmits (hnone req)
  | takeover e req _ _ _ _ _ _ hadmits => exact absurd hadmits (hnone req)
  | @sync row members e protection removed =>
      have hgoverned : (governedRow protection removed row).deliveryBotId = row.deliveryBotId ∧
          (governedRow protection removed row).forceOperatorId = row.forceOperatorId := ⟨rfl, rfl⟩
      obtain ⟨hbot, hoperator, hversion⟩ :=
        hstanding (standing_syncReservation e protection removed (syncMembers removed row members) row)
      exact ⟨hbot.trans hgoverned.1, hoperator.trans hgoverned.2, hversion⟩
  | arrive e pigId handledId => exact hstanding (standing_arriveRow e pigId handledId _ _)
  | capability => exact ⟨rfl, rfl, fun _ => Int.le_refl 2⟩
  | settle | confirmOutcome =>
      unfold markPrepared
      split_ifs <;> exact ⟨rfl, rfl, id⟩
  | complete =>
      unfold completedRow
      split_ifs <;> exact ⟨rfl, rfl, id⟩
  | lease | leaseNotice | notice | save | send | release => exact ⟨rfl, rfl, id⟩

theorem RoundSteps.unprepared (h : RoundSteps warrant rolls r r')
    (hnone : ∀ req, ¬ warrant.prepares req) :
    r'.row.deliveryBotId = r.row.deliveryBotId ∧
      r'.row.forceOperatorId = r.row.forceOperatorId ∧
      (2 ≤ r.row.deliveryGatheringVersion → 2 ≤ r'.row.deliveryGatheringVersion) := by
  induction h with
  | refl => exact ⟨rfl, rfl, id⟩
  | tail _ hlast ih =>
      obtain ⟨hbot, hoperator, hversion⟩ := ih
      obtain ⟨hbot', hoperator', hversion'⟩ := hlast.unprepared hnone
      exact ⟨hbot'.trans hbot, hoperator'.trans hoperator, fun hknows => hversion' (hversion hknows)⟩

/-- A prepare request copies no protection. -/
theorem Event.prepares_not_syncs {req : RoastReservationPrepareRequest}
    (h : event.warrant.prepares req) : ¬ event.warrant.syncs := by
  unfold Event.warrant at h ⊢
  cases haction : event.action with
  | reconcile flight => exact id
  | request r view =>
      rw [haction] at h
      cases r with
      | prepare | joinByMessage => exact id
      | _ => exact h.elim

/-- **In one transaction**, a round that ends with the mode and the threshold it began with
keeps its bot, if its delivery was fixed or it is a super round. -/
theorem RoundSteps.courier (h : RoundSteps event.warrant rolls r r')
    (hmode : r'.row.forceMode = r.row.forceMode)
    (hrequired : r'.row.protectionRequired = r.row.protectionRequired)
    (hr : r.row.forceMode = some "super" ∨ r.row.Fixed) :
    r'.row.courier = r.row.courier ∧ (r'.row.forceMode = some "super" ∨ r'.row.Fixed) := by
  by_cases hforce : r.row.forceMode = some "super"
  · obtain ⟨hsuper, hcourier⟩ := h.super hforce
    exact ⟨hcourier, Or.inl hsuper⟩
  · have hfixed := hr.resolve_left hforce
    by_cases hany : ∃ req, event.warrant.prepares req
    · obtain ⟨req, hadmits⟩ := hany
      obtain ⟨hcourier, hfixed'⟩ :=
        h.fixed (Event.prepares_not_syncs hadmits) (by rwa [hmode]) hfixed
      exact ⟨hcourier, Or.inr hfixed'⟩
    · obtain ⟨hbot, hoperator, hversion⟩ :=
        h.unprepared fun req hadmits => hany ⟨req, hadmits⟩
      refine ⟨?_, Or.inr (hfixed.imp hversion fun hzero => hrequired.trans hzero)⟩
      unfold RoastReservation.courier
      rw [hbot, hmode, hoperator, hrequired]

/-! ### A round that was created -/

/-- Meeting an active round is not creating one. -/
theorem enterRound_not_created (req : RoastReservationPrepareRequest) (roll : Option DailyRoll) :
    (enterRound e req roll row db).1.status ≠ .reservationCreated := by
  have hrejoin : ∀ members participant,
      (rejoinRound e req roll row members participant db).1.status ≠ .reservationCreated := by
    intro members participant
    unfold rejoinRound
    dsimp only
    split_ifs
    · simp
    · cases payBoost req (boosts req row) db <;> simp [answerJoin]
    · cases payBoost req (boosts req row) db <;> simp [answerJoin]
  have henlist : ∀ members,
      (enlistRound e req roll row members db).1.status ≠ .reservationCreated := by
    intro members
    unfold enlistRound
    dsimp only
    by_cases hfull : roastReservationMaxParticipants ≤ members.length
    · simp [hfull]
    · rw [if_neg hfull]
      cases payBoost req (boosts req row) db <;> simp [answerJoin]
  unfold enterRound
  dsimp only
  by_cases hopen : row.status ≠ .pending
  · simp [hopen]
  · rw [if_neg hopen]
    by_cases hforce : row.forceMode = some "super"
    · rw [if_pos hforce]
      dsimp only
      split_ifs <;> simp
    · rw [if_neg hforce]
      by_cases hreq : req.forceMode = some "super"
      · rw [if_pos hreq]
        split_ifs
        · simp
        · simp [takeoverRound]
      · rw [if_neg hreq]
        unfold joinRound
        split
        · exact hrejoin _ _
        · exact henlist _

/-- The row and the answer of a prepare that created a round. -/
theorem Prepared.of_created {view : List DailyRoll} {req : RoastReservationPrepareRequest}
    {expected : Option String} {reservationId : String} {db' : Db}
    {response : RoastReservationPrepareResponse}
    (h : Prepared e view req expected reservationId db response db')
    (hcreated : response.status = .reservationCreated) :
    ∃ row item, row = insertedRow e req (presentRoll view req.dateStr req.targetId)
        (lockProtection req db).1 reservationId ∧ row ∈ db'.reservations ∧
      response.reservation = some item ∧ item.reservationId = row.reservationId ∧
      ((lockProtection req db).1.isSome = true →
        req.gathers = true ∨ req.forceMode = some "super") := by
  cases h with
  | refused hresponse =>
      simp [RoastReservationPrepareResponse.reconciles, hcreated] at hresponse
  | entered hfind => exact absurd hcreated (enterRound_not_created req _)
  | created hexpected hfind hgate hpaid hfree hstatus hreservation =>
      refine ⟨_, _, rfl, ?_, hreservation, rfl, hgate⟩
      simp [insertRound]

theorem created_of_response (hstep : service.step w event w')
    {req : RoastReservationPrepareRequest} {view : List DailyRoll}
    (haction : event.action = .request (.prepare req) view)
    {response : RoastReservationPrepareResponse} (hresponse : event.response = .prepare response)
    (hcreated : response.status = .reservationCreated) :
    ∃ row item, row = insertedRow event.env req (presentRoll view req.dateStr req.targetId)
        (lockProtection req w.db).1 (event.env.uuid 0) ∧ row ∈ w'.db.reservations ∧
      response.reservation = some item ∧ item.reservationId = row.reservationId ∧
      ((lockProtection req w.db).1.isSome = true →
        req.gathers = true ∨ req.forceMode = some "super") := by
  exact (prepareReservation_cases (prepared_of_response hstep haction hresponse)).of_created hcreated

/-! ### What a claim returns -/

/-- The capability update is invisible to whatever does not read the version. -/
theorem declareCapability_map {β : Type} (f : RoastReservation → β)
    (hf : ∀ row version, f { row with deliveryGatheringVersion := version } = f row)
    (hunique : Tables.Unique (·.reservationId) db.reservations) (req : RoastReservationClaimRequest) :
    (declareCapability req db).reservations.map f = db.reservations.map f := by
  unfold declareCapability
  by_cases hgathers : req.gathers = true
  · rw [if_pos hgathers]
    refine Tables.map_writeBack f ?_
    intro written hwritten stored hstored hkey
    obtain ⟨old, hold, rfl⟩ := List.mem_map.mp hwritten
    obtain rfl : old = stored := hunique.eq (List.mem_filter.mp hold).1 hstored hkey
    exact hf old 2
  · rw [if_neg hgathers]

/-- A claim returns the first claimable rounds. -/
theorem claim_item_ids (hunique : Tables.Unique (·.reservationId) db.reservations)
    (req : RoastReservationClaimRequest) :
    (claim e req db).1.items.map (·.reservationId) =
      ((db.reservations.filter (claimable e req)).take req.rowLimit).map (·.reservationId) := by
  have hids : ∀ rows : List RoastReservation,
      ((rows.filter (claimable e req)).take req.rowLimit).map (·.reservationId) =
        (((rows.map fun row => (row.reservationId, claimable e req row)).filter (·.2)).take
          req.rowLimit).map (·.1) := by
    intro rows
    rw [List.filter_map, ← List.map_take, List.map_map]
    rfl
  have hleased : (leaseRows e req (declareCapability req db)).map (·.reservationId) =
      (((declareCapability req db).reservations.filter (claimable e req)).take
        req.rowLimit).map (·.reservationId) := by
    refine List.ext_getElem (by simp [leaseRows]) fun i _ _ => ?_
    simp [leaseRows, leaseRow]
  have hitems : (claim e req db).1.items.map (·.reservationId) =
      (leaseRows e req (declareCapability req db)).map (·.reservationId) := by
    unfold claim
    rw [List.map_map]
    rfl
  rw [hitems, hleased, hids, hids,
    declareCapability_map (fun row => (row.reservationId, claimable e req row)) (fun _ _ => rfl) hunique]

/-- Fewer than `limit` rounds the claim may lease stand before this one. -/
def WithinLimit (e : Env) (req : RoastReservationClaimRequest) (db : Db) (id : String) : Prop :=
  (db.reservations.takeWhile fun row => row.reservationId ≠ id).countP (claimable e req) <
    req.rowLimit

instance (e : Env) (req : RoastReservationClaimRequest) (db : Db) (id : String) :
    Decidable (WithinLimit e req db id) := by
  unfold WithinLimit
  infer_instance

theorem claim_returns_iff (hunique : Tables.Unique (·.reservationId) db.reservations)
    (hrow : row ∈ db.reservations) {req : RoastReservationClaimRequest}
    (hlimit : WithinLimit e req db row.reservationId) :
    (∃ item ∈ (claim e req db).1.items, item.reservationId = row.reservationId) ↔
      claimable e req row = true := by
  have hreturned : (∃ item ∈ (claim e req db).1.items, item.reservationId = row.reservationId) ↔
      row ∈ (db.reservations.filter (claimable e req)).take req.rowLimit := by
    rw [← List.mem_map, claim_item_ids hunique, List.mem_map]
    constructor
    · rintro ⟨leased, hleased, hid⟩
      have hstored := (List.mem_filter.mp (List.mem_of_mem_take hleased)).1
      rwa [← hunique.eq hstored hrow hid]
    · exact fun hleased => ⟨row, hleased, rfl⟩
  rw [hreturned]
  constructor
  · exact fun hleased => (List.mem_filter.mp (List.mem_of_mem_take hleased)).2
  · intro hcan
    obtain ⟨before, after, hsplit⟩ := List.append_of_mem hrow
    have hbefore : ∀ other ∈ before, other.reservationId ≠ row.reservationId := by
      intro other hother hid
      rw [hsplit, Tables.Unique, List.map_append, List.nodup_append] at hunique
      exact hunique.2.2 _ (List.mem_map_of_mem hother) _ (by simp) hid
    have hahead : db.reservations.takeWhile (fun r => r.reservationId ≠ row.reservationId) =
        before := by
      rw [hsplit, List.takeWhile_append_of_pos (by simpa using hbefore)]
      simp
    unfold WithinLimit at hlimit
    rw [hahead, List.countP_eq_length_filter] at hlimit
    rw [hsplit, List.filter_append, List.filter_cons_of_pos hcan, List.take_append]
    obtain ⟨n, hn⟩ : ∃ n, req.rowLimit - (before.filter (claimable e req)).length = n + 1 :=
      ⟨_, (Nat.succ_pred_eq_of_pos (by omega)).symm⟩
    rw [hn]
    simp

/-! ### The client that opened the round -/

/-- Runs that neither take a round over nor change its threshold. -/
def undisturbed (id : String) : System World Event where
  init := service.init
  step w event w' :=
    service.step w event w' ∧
      ∀ row ∈ w.db.reservations, ∀ row' ∈ w'.db.reservations,
        row.reservationId = id → row'.reservationId = id →
          row'.forceMode = row.forceMode ∧ row'.protectionRequired = row.protectionRequired

theorem Run.of_undisturbed {events : List Event} (h : Run (undisturbed id) w events w') :
    Run service w events w' := by
  induction h with
  | nil => exact Run.nil
  | snoc _ hstep ih => exact Run.snoc ih hstep.1

/-- A round that is left alone keeps its bot. -/
theorem courier_run (h : Reachable service w) {events : List Event}
    (hrun : Run (undisturbed row.reservationId) w events w') (hrow : row ∈ w.db.reservations)
    (hfixed : row.forceMode = some "super" ∨ row.Fixed) :
    ∃ row' ∈ w'.db.reservations, row'.key = row.key ∧ row'.courier = row.courier ∧
      (row'.forceMode = some "super" ∨ row'.Fixed) := by
  induction hrun with
  | nil => exact ⟨row, hrow, rfl, rfl, hfixed⟩
  | snoc hrun hstep ih =>
      obtain ⟨row₁, hrow₁, hkey₁, hcourier₁, hfixed₁⟩ := ih
      have hid₁ := (key_eq.mp hkey₁).1
      have hreach := h.run (Run.of_undisturbed hrun)
      obtain ⟨row₂, hrow₂, hid₂, hsteps⟩ :=
        (sound_of_reachable hreach).step_round_forward hstep.1 hrow₁
      obtain ⟨hmode, hrequired⟩ := hstep.2 row₁ hrow₁ row₂ hrow₂ hid₁ (hid₂.symm.trans hid₁)
      obtain ⟨hcourier₂, hfixed₂⟩ := hsteps.courier hmode hrequired hfixed₁
      exact ⟨row₂, hrow₂, hsteps.key.trans hkey₁, hcourier₂.trans hcourier₁, hfixed₂⟩

/-- The claim comes from the bot of the prepare, for its date and with its capabilities. -/
structure SameClient (req : RoastReservationPrepareRequest) (again : RoastReservationClaimRequest) :
    Prop where
  bot : again.deliveryBotId = req.deliveryBotId
  date : again.dateStr = req.dateStr
  supports : again.supportsProtectionGathering = req.supportsProtectionGathering
  version : again.protectionGatheringVersion = req.protectionGatheringVersion

/-- A super force against a protected target, by a client that declares gathering but not
its version 2. -/
def HalfCapable (req : RoastReservationPrepareRequest) (db : Db) : Prop :=
  req.forceMode = some "super" ∧ req.supportsProtectionGathering = true ∧ req.gathers = false ∧
    (lockProtection req db).1.isSome = true

theorem SameClient.gathers {req : RoastReservationPrepareRequest}
    {again : RoastReservationClaimRequest} (h : SameClient req again) : again.gathers = req.gathers := by
  unfold RoastReservationClaimRequest.gathers RoastReservationPrepareRequest.gathers
  rw [h.supports, h.version]

/-- The threshold of a new round, for a request that passed the gate. -/
theorem required_of_gate {req : RoastReservationPrepareRequest} {protection : Option GroupProtection}
    (hgate : protection.isSome = true → req.gathers = true ∨ req.forceMode = some "super") :
    (req.gathers = true ∨ (newReservation e req protection id).protectionRequired = 0) ↔
      ¬ (req.forceMode = some "super" ∧ req.supportsProtectionGathering = true ∧
        req.gathers = false ∧ protection.isSome = true) := by
  cases hgathers : req.gathers with
  | true => simp
  | false =>
      cases protection with
      | none => simp [newReservation]
      | some row =>
          have hforce : req.forceMode = some "super" := by simpa [hgathers] using hgate rfl
          simp [newReservation, hforce]

/-- **The client that opens a round may lease it, unless it declares half of the
protocol.**  When a round that was created is ready, and was neither taken over nor given
another threshold since, a claim of the client that opened it returns it, unless that
client forced a protected target declaring gathering without its version 2. -/
theorem creator_leases_iff (h : Reachable service w) (hstep : service.step w event w')
    {req : RoastReservationPrepareRequest} {view : List DailyRoll}
    (haction : event.action = .request (.prepare req) view)
    {response : RoastReservationPrepareResponse} (hresponse : event.response = .prepare response)
    (hcreated : response.status = .reservationCreated) {item : RoastReservationItem}
    (hitem : response.reservation = some item) {events : List Event} {w'' : World}
    (hrun : Run (undisturbed item.reservationId) w' events w'')
    (hrow : row ∈ w''.db.reservations) (hid : row.reservationId = item.reservationId)
    (hready : row.status = .ready) {again : RoastReservationClaimRequest}
    (hclient : SameClient req again) (hexcluded : item.reservationId ∉ again.excludedIds)
    (hlimit : WithinLimit e again w''.db item.reservationId) :
    (∃ found ∈ (claim e again w''.db).1.items, found.reservationId = item.reservationId) ↔
      ¬ HalfCapable req w.db := by
  obtain ⟨row₁, item₁, hrow₁, hstored, hitem₁, hid₁, hgate⟩ :=
    created_of_response hstep haction hresponse hcreated
  obtain rfl : item = item₁ := Option.some.inj (hitem.symm.trans hitem₁)
  have hstanding : row₁.standing = (newReservation event.env req (lockProtection req w.db).1
      (event.env.uuid 0)).standing := by
    rw [hrow₁]
    exact standing_insertedRow _ _ _ _ _
  have hrequired : row₁.protectionRequired = (newReservation event.env req
      (lockProtection req w.db).1 (event.env.uuid 0)).protectionRequired :=
    congrArg (·.protectionRequired) hstanding
  have hversion : row₁.deliveryGatheringVersion = if req.gathers then 2 else 0 :=
    congrArg (·.deliveryGatheringVersion) hstanding
  have hfixed : row₁.forceMode = some "super" ∨ row₁.Fixed := by
    cases hprotected : (lockProtection req w.db).1.isSome with
    | false =>
        have hnone := Option.not_isSome_iff_eq_none.mp (Bool.eq_false_iff.mp hprotected)
        refine Or.inr (Or.inr (hrequired.trans ?_))
        rw [hnone]
        rfl
    | true =>
        rcases hgate hprotected with hgathers | hsuper
        · refine Or.inr (Or.inl ?_)
          rw [hversion, hgathers]
          exact Int.le_refl 2
        · exact Or.inl ((congrArg (·.forceMode) hstanding).trans hsuper)
  have hreach := h.step hstep
  rw [hid₁] at hrun hid hexcluded hlimit ⊢
  obtain ⟨row₂, hrow₂, hkey, hcourier, -⟩ := courier_run hreach hrun hstored hfixed
  obtain ⟨hid₂, hdate, -, -⟩ := key_eq.mp hkey
  have hunique := (sound_of_reachable (hreach.run (Run.of_undisturbed hrun))).db.ids
  obtain rfl : row = row₂ := hunique.eq hrow hrow₂ (hid.trans hid₂.symm)
  have hbot : row.deliveryBotId = again.deliveryBotId :=
    (congrArg (·.1) hcourier).trans ((congrArg (·.deliveryBotId) hstanding).trans hclient.bot.symm)
  have hoperator : row.forceOperatorId = "" :=
    (congrArg (·.2.2.1) hcourier).trans (congrArg (·.forceOperatorId) hstanding)
  have hdate' : row.dateStr = again.dateStr :=
    hdate.trans ((congrArg (·.dateStr) hstanding).trans hclient.date.symm)
  have hsame : row.protectionRequired = (newReservation event.env req
      (lockProtection req w.db).1 (event.env.uuid 0)).protectionRequired :=
    (congrArg (·.2.2.2) hcourier).trans hrequired
  have hclaimable : claimable e again row = true ↔
      req.gathers = true ∨ row.protectionRequired = 0 := by
    simp [claimable, deliveredBy, hbot, hdate', hready, hid, hexcluded, hoperator, hclient.gathers]
  rw [← hid] at hlimit ⊢
  rw [claim_returns_iff hunique hrow hlimit, hclaimable, hsame]
  exact required_of_gate hgate

/-- User 2 is protected and has rolled. -/
def guardedScript : List (Time × Order) :=
  let day : Date := 739000
  let now : Time := 739000 * dayMicros
  [(now, .request (.grant scriptGrant)),
    (now, .request (.getOrCreate { userId := "2", proposedPigId := "boar", dateStr := day })),
    (now, .finish 0)]

/-- User 1 forces user 2 with a client of this version. -/
def forceRequest (version : Int) : RoastReservationPrepareRequest :=
  { attackerId := "1", attackerPigId := "pig", targetId := "2", groupId := "7",
    deliveryBotId := "bot", dateStr := 739000, forceMode := some "super",
    supportsProtectionGathering := true, protectionGatheringVersion := version }

/-- The claim of that client. -/
def leaseRequest (version : Int) : RoastReservationClaimRequest :=
  { deliveryBotId := "bot", dateStr := 739000,
    supportsProtectionGathering := true, protectionGatheringVersion := version }

def forceEvent (version : Int) : Event :=
  scriptEvent guardedScript (739000 * dayMicros) (.prepare (forceRequest version))

def forcedWorld (version : Int) : World :=
  (scriptWorld guardedScript).after (forceEvent version).env (forceEvent version).action

theorem creator_leases_iff_capable :
    ∃ found ∈ (claim (scriptEnv 4 (739000 * dayMicros)) (leaseRequest 2) (forcedWorld 2).db).1.items,
      found.reservationId = scriptToken 3 0 := by
  have hplay : (play 0 {} guardedScript).isSome = true := by decide +kernel
  have hkind : (match (forceEvent 2).response with
      | .prepare response => decide (response.status = .reservationCreated) &&
          decide (response.reservation.map (·.reservationId) = some (scriptToken 3 0))
      | _ => false) = true := by decide +kernel
  obtain ⟨row, hrow, hid, hready⟩ : ∃ row ∈ (forcedWorld 2).db.reservations,
      row.reservationId = scriptToken 3 0 ∧ row.status = .ready := by decide +kernel
  split at hkind
  · rename_i response hresponse
    simp only [Bool.and_eq_true, decide_eq_true_eq, Option.map_eq_some_iff] at hkind
    obtain ⟨hcreated, item, hitem, hitemId⟩ := hkind
    rw [← hitemId] at hid ⊢
    refine (creator_leases_iff (script_reachable hplay) (script_step hplay _ _)
      (rfl : (forceEvent 2).action = .request (.prepare (forceRequest 2)) _) hresponse hcreated hitem Run.nil hrow hid hready
      ⟨rfl, rfl, rfl, rfl⟩ ?_ ?_).mpr ?_
    · rw [hitemId]
      decide +kernel
    · rw [hitemId]
      decide +kernel
    · rintro ⟨-, -, hgathers, -⟩
      exact absurd hgathers (by decide)
  · exact absurd hkind (by simp)

/-- With half of the protocol the client is refused the round it opened. -/
theorem creator_refused :
    ¬ ∀ w, Reachable service w → ∀ event w', service.step w event w' →
      ∀ req view, event.action = .request (.prepare req) view →
      ∀ response, event.response = .prepare response → response.status = .reservationCreated →
      ∀ item, response.reservation = some item →
      ∀ events w'', Run (undisturbed item.reservationId) w' events w'' →
      ∀ row ∈ w''.db.reservations, row.reservationId = item.reservationId → row.status = .ready →
      ∀ e again, SameClient req again → item.reservationId ∉ again.excludedIds →
        WithinLimit e again w''.db item.reservationId →
        ∃ found ∈ (claim e again w''.db).1.items, found.reservationId = item.reservationId := by
  intro hclaim
  have hplay : (play 0 {} guardedScript).isSome = true := by decide +kernel
  have hkind : (match (forceEvent 1).response with
      | .prepare response => decide (response.status = .reservationCreated) &&
          decide (response.reservation.map (·.reservationId) = some (scriptToken 3 0))
      | _ => false) = true := by decide +kernel
  obtain ⟨row, hrow, hid, hready⟩ : ∃ row ∈ (forcedWorld 1).db.reservations,
      row.reservationId = scriptToken 3 0 ∧ row.status = .ready := by decide +kernel
  split at hkind
  · rename_i response hresponse
    simp only [Bool.and_eq_true, decide_eq_true_eq, Option.map_eq_some_iff] at hkind
    obtain ⟨hcreated, item, hitem, hitemId⟩ := hkind
    rw [← hitemId] at hid
    obtain ⟨found, hfound, -⟩ := hclaim _ (script_reachable hplay) _ _ (script_step hplay _ _)
      (forceRequest 1) _ rfl response hresponse hcreated item hitem [] _ Run.nil row hrow hid hready
      (scriptEnv 4 (739000 * dayMicros)) (leaseRequest 1) ⟨rfl, rfl, rfl, rfl⟩
      (by rw [hitemId]; decide +kernel) (by rw [hitemId]; decide +kernel)
    have hnothing : (claim (scriptEnv 4 (739000 * dayMicros)) (leaseRequest 1)
        (forcedWorld 1).db).1.items = [] := by decide +kernel
    change found ∈ (claim _ _ (forcedWorld 1).db).1.items at hfound
    rw [hnothing] at hfound
    exact absurd hfound (by simp)
  · exact absurd hkind (by simp)

end RollPig
