/-
Who is in a round, and for how much.

A roster only grows, one user at a time and up to twelve, and a contribution only rises
to two.  Once the round has left `pending` nothing writes the roster or the terms any
more: what the settlement reads is what the target met when it arrived.  The bot may
still change then, but only while nobody holds the round and no result is stored.
-/
import RollPig.Proofs.Ignition
import RollPig.Proofs.Stages

namespace RollPig

open Transition

variable {warrant : Warrant} {rolls : List DailyRoll} {r r' : Round} {w w' : World} {event : Event}

/-! ### Rosters -/

/-- A well-formed roster. -/
structure Round.Manned (r : Round) : Prop where
  room : r.members.length ≤ roastReservationMaxParticipants
  distinct : (r.members.map (·.userId)).Nodup
  owner : ∃ member ∈ r.members, member.userId = r.row.ownerId
  contributions : ∀ member ∈ r.members, member.contribution = 1 ∨ member.contribution = 2

/-- The roster of a sync is the old one or one with the owner's contribution raised. -/
theorem syncMembers_cases (removed : Bool) (row : RoastReservation)
    (members : List RoastReservationParticipant) :
    syncMembers removed row members = members ∨
      syncMembers removed row members = boostMember row.ownerId members := by
  unfold syncMembers boostMember
  by_cases hdoubles : doublesOwner removed row = true
  · simp [hdoubles]
  · simp [hdoubles]

/-- What a step does to the roster: nothing, one user more, or one contribution raised. -/
theorem RoundStep.members (h : RoundStep warrant rolls r r') :
    r'.members = r.members ∨
      (∃ e req, r'.members = enlisted e req r.row r.members ∧
        (∀ member ∈ r.members, member.userId ≠ req.attackerId) ∧
        r.members.length < roastReservationMaxParticipants) ∨
      ∃ userId, r'.members = boostMember userId r.members := by
  cases h with
  | join e req roll hopen hforce hreq hroll hnew hroom =>
      exact Or.inr (Or.inl ⟨e, req, rfl, hnew, hroom⟩)
  | upgrade e req => exact Or.inr (Or.inr ⟨req.attackerId, rfl⟩)
  | @sync row members e protection removed =>
      rcases syncMembers_cases removed row members with hsame | hboost
      · exact Or.inl hsame
      · exact Or.inr (Or.inr ⟨row.ownerId, hboost⟩)
  | _ => exact Or.inl rfl

@[simp] theorem boostMember_userId (userId : String) (members : List RoastReservationParticipant) :
    (boostMember userId members).map (·.userId) = members.map (·.userId) := by
  unfold boostMember
  rw [List.map_map]
  refine List.map_congr_left fun member _ => ?_
  by_cases huser : member.userId = userId
  · simp [huser]
  · simp [huser]

/-- Nobody leaves a roster, and no contribution of one or two is lowered. -/
theorem RoundStep.stays (h : RoundStep warrant rolls r r') (hr : r.Manned) :
    ∀ member ∈ r.members, ∃ member' ∈ r'.members,
      member'.userId = member.userId ∧ member.contribution ≤ member'.contribution := by
  intro member hmember
  rcases h.members with hsame | ⟨e, req, henlisted, -, -⟩ | ⟨userId, hboost⟩
  · exact ⟨member, hsame ▸ hmember, rfl, Nat.le_refl _⟩
  · exact ⟨member, henlisted ▸ List.mem_append_left _ hmember, rfl, Nat.le_refl _⟩
  · rw [hboost]
    refine ⟨_, List.mem_map_of_mem hmember, ?_⟩
    have hlow := hr.contributions member hmember
    have hrises : member.contribution ≤ 2 := by omega
    by_cases huser : member.userId = userId
    · rw [if_pos huser]
      exact ⟨rfl, hrises⟩
    · rw [if_neg huser]
      exact ⟨rfl, Nat.le_refl _⟩

theorem RoundStep.owner (h : RoundStep warrant rolls r r') : r'.row.ownerId = r.row.ownerId := by
  rcases h.crowd with hsame | hgathers
  · exact congrArg Gathering.State.owner hsame
  · exact hgathers.owner

theorem RoundStep.manned (h : RoundStep warrant rolls r r') (hr : r.Manned) : r'.Manned := by
  have howner : ∃ member ∈ r'.members, member.userId = r'.row.ownerId := by
    obtain ⟨member, hmember, huser⟩ := hr.owner
    obtain ⟨member', hmember', huser', -⟩ := h.stays hr member hmember
    exact ⟨member', hmember', (huser'.trans huser).trans h.owner.symm⟩
  rcases h.members with hsame | ⟨e, req, henlisted, hnew, hroom⟩ | ⟨userId, hboost⟩
  · exact ⟨hsame ▸ hr.room, hsame ▸ hr.distinct, howner, hsame ▸ hr.contributions⟩
  · refine ⟨?_, ?_, howner, ?_⟩
    · rw [henlisted]
      simp only [enlisted, List.length_append, List.length_singleton]
      omega
    · rw [henlisted]
      simp only [enlisted, List.map_append, List.map_singleton]
      rw [List.nodup_append]
      refine ⟨hr.distinct, by simp, ?_⟩
      intro user huser other hother
      obtain ⟨member, hmember, rfl⟩ := List.mem_map.mp huser
      obtain rfl := List.mem_singleton.mp hother
      exact hnew member hmember
    · rw [henlisted]
      intro member hmember
      rcases List.mem_append.mp hmember with hold | hlast
      · exact hr.contributions member hold
      · obtain rfl := List.mem_singleton.mp hlast
        by_cases hpays : boosts req r.row = true
        · exact Or.inr (if_pos hpays)
        · exact Or.inl (if_neg hpays)
  · refine ⟨?_, ?_, howner, ?_⟩
    · rw [hboost]
      simpa [boostMember] using hr.room
    · rw [hboost, boostMember_userId]
      exact hr.distinct
    · rw [hboost]
      intro member hmember
      obtain ⟨old, hold, rfl⟩ := List.mem_map.mp hmember
      by_cases huser : old.userId = userId
      · exact Or.inr (by rw [if_pos huser])
      · rw [if_neg huser]
        exact hr.contributions old hold

theorem RoundBirth.manned (h : RoundBirth rolls r) : r.Manned := by
  obtain ⟨e, req, roll, protection, reservationId, hroll, hgate⟩ := h
  have howner : (insertedRow e req roll protection reservationId).ownerId = req.attackerId := by
    cases roll with
    | none => rfl
    | some roll =>
        have hrecord : (activateReservation e [ownerParticipant e req protection reservationId]
            (newReservation e req protection reservationId) roll.pigId false).1.record =
            (newReservation e req protection reservationId).record :=
          (Waits.activateReservation e roll.pigId false).record
        exact congrArg RoastReservation.ownerId hrecord
  refine ⟨by simp [roastReservationMaxParticipants], by simp, ⟨_, List.mem_singleton.mpr rfl, howner.symm⟩, ?_⟩
  intro member hmember
  obtain rfl := List.mem_singleton.mp hmember
  unfold ownerParticipant newParticipant
  by_cases hforced : protection.isSome = true ∧ req.forceMode = some "normal"
  · exact Or.inr (if_pos hforced)
  · exact Or.inl (if_neg hforced)

theorem manned_of_reachable (h : Reachable service w) :
    ∀ row ∈ w.db.reservations, (w.db.round row).Manned :=
  rounds_of_reachable (P := fun _ r => r.Manned) (fun _ _ hbirth => hbirth.manned)
    (fun _ _ _ _ hr => hr) (fun _ _ _ _ hstep hr => hstep.manned hr) h

/-! ### Terms -/

/-- What a round is about to be settled by, besides its roster. -/
def RoastReservation.charter (row : RoastReservation) :
    Nat × Source × Option String × String × Option (List String) :=
  (row.protectionRequired, row.protectionSource, row.forceMode, row.forceOperatorId,
    row.forceFeedUserIds)

/-- **An opened round is frozen.** -/
theorem RoundStep.frozen (h : RoundStep warrant rolls r r') (hopened : r.row.status ≠ .pending) :
    r'.row.status ≠ .pending ∧ r'.members = r.members ∧ r'.row.charter = r.row.charter := by
  refine ⟨fun hpending => hopened (h.pending hpending), ?_⟩
  cases h with
  | busy req hstatus hcan =>
      obtain ⟨bot, version, heq⟩ := updateDeliveryCapability_eq _ req
      rw [heq]
      exact ⟨rfl, rfl⟩
  | settle | confirmOutcome =>
      unfold markPrepared
      split_ifs <;> exact ⟨rfl, rfl⟩
  | complete =>
      unfold completedRow
      split_ifs <;> exact ⟨rfl, rfl⟩
  | capability | lease | leaseNotice | save | send | release => exact ⟨rfl, rfl⟩
  | _ => contradiction

/-! ### The bot -/

/-- Somebody holds the round, or its result is stored. -/
def RoastReservation.Held (row : RoastReservation) : Prop :=
  row.claimToken ≠ none ∨ row.outcomeSnapshot ≠ none

theorem RoastReservation.Staged.not_held {row : RoastReservation} (h : row.Staged)
    (hpending : row.status = .pending) : ¬ row.Held := by
  obtain ⟨htoken, hresult⟩ := h.pending hpending
  simp [RoastReservation.Held, htoken, hresult]

/-- A delivery is only reassigned while nobody holds it. -/
theorem not_held_of_canReassign {row : RoastReservation} {req : RoastReservationPrepareRequest}
    (h : row.Staged) (hcan : canReassignProtectedDelivery row req = true) : ¬ row.Held := by
  simp only [canReassignProtectedDelivery, Bool.and_eq_true, Bool.or_eq_true, decide_eq_true_eq,
    Option.isNone_iff_eq_none] at hcan
  obtain ⟨⟨⟨⟨⟨-, hstatus⟩, hresult⟩, -⟩, -⟩, -⟩ := hcan
  have htoken : row.claimToken = none := by
    rcases hstatus with hpending | hready
    · exact (h.pending hpending).1
    · exact h.ready hready
  simp [RoastReservation.Held, htoken, hresult]

/-- The columns an arrival does not write. -/
def RoastReservation.standing (row : RoastReservation) : RoastReservation :=
  { row with targetPigId := "", waitingNotice := none, status := .pending, readyAt := none }

theorem standing_activateReservation (e : Env) (members : List RoastReservationParticipant)
    (row : RoastReservation) (pigId : String) (notify : Bool) :
    (activateReservation e members row pigId notify).1.standing = row.standing := by
  rcases activateReservation_cases e members row pigId notify with ⟨-, heq⟩ | ⟨-, notice, heq⟩
  · rw [heq]
    rfl
  · rw [heq]
    rfl

theorem standing_activateIfArrived (e : Env) (members : List RoastReservationParticipant)
    (row : RoastReservation) (pigId : String) (notify : Bool) :
    (activateIfArrived e members row pigId notify).standing = row.standing := by
  unfold activateIfArrived
  split_ifs
  · exact standing_activateReservation e members row pigId notify
  · rfl

theorem standing_syncReservation (e : Env) (protection : GroupProtection) (removed : Bool)
    (members : List RoastReservationParticipant) (row : RoastReservation) :
    (syncReservation e protection removed members row).standing =
      (governedRow protection removed row).standing := by
  unfold syncReservation announceThreshold
  split_ifs
  · exact standing_activateReservation e members _ row.targetPigId true
  · exact standing_activateReservation e members _ row.targetPigId true
  · rfl

theorem standing_arriveRow (e : Env) (pigId handledId : String) (row : RoastReservation)
    (members : List RoastReservationParticipant) :
    (arriveRow e pigId handledId row members).1.standing = row.standing := by
  unfold arriveRow
  dsimp only
  split_ifs <;> exact standing_activateReservation e members row pigId _

theorem standing_joinedRow (e : Env) {req : RoastReservationPrepareRequest}
    (hreq : req.forceMode ≠ some "super") (roll : Option DailyRoll) (row : RoastReservation)
    (members : List RoastReservationParticipant) :
    (joinedRow e req roll row members).standing = (updateDeliveryCapability row req).standing := by
  unfold joinedRow
  rw [standing_activateIfArrived, if_neg fun hsuper => hreq hsuper.1]
  rfl

theorem standing_insertedRow (e : Env) (req : RoastReservationPrepareRequest)
    (roll : Option DailyRoll) (protection : Option GroupProtection) (reservationId : String) :
    (insertedRow e req roll protection reservationId).standing =
      (newReservation e req protection reservationId).standing := by
  cases roll with
  | none => rfl
  | some roll => exact standing_activateReservation e _ _ roll.pigId false

/-- A participation leaves the bot alone, or reassigns the delivery to its own. -/
theorem updateDeliveryCapability_bot (row : RoastReservation)
    (req : RoastReservationPrepareRequest) :
    (updateDeliveryCapability row req).deliveryBotId = row.deliveryBotId ∨
      (canReassignProtectedDelivery row req = true ∧
        (updateDeliveryCapability row req).deliveryBotId = req.deliveryBotId) := by
  unfold updateDeliveryCapability
  dsimp only
  split_ifs with hgathers hcan
  · exact Or.inl rfl
  · exact Or.inr ⟨hcan, rfl⟩
  · exact Or.inr ⟨hcan, rfl⟩
  · exact Or.inl rfl
  · exact Or.inl rfl

/-- Only a prepare request moves the delivery to another bot, its own, and not the delivery
of a round that is held. -/
theorem RoundStep.bot (h : RoundStep warrant rolls r r') (hr : r.row.Staged) :
    r'.row.deliveryBotId = r.row.deliveryBotId ∨
      (¬ r.row.Held ∧ ∃ req, warrant.prepares req ∧ r'.row.deliveryBotId = req.deliveryBotId) := by
  have hupdated : ∀ req, warrant.prepares req →
      r'.row.deliveryBotId = (updateDeliveryCapability r.row req).deliveryBotId →
      r'.row.deliveryBotId = r.row.deliveryBotId ∨
        (¬ r.row.Held ∧ ∃ req, warrant.prepares req ∧
          r'.row.deliveryBotId = req.deliveryBotId) := by
    intro req hadmits hbot
    rcases updateDeliveryCapability_bot r.row req with hsame | ⟨hcan, hmoved⟩
    · exact Or.inl (hbot.trans hsame)
    · exact Or.inr ⟨not_held_of_canReassign hr hcan, req, hadmits, hbot.trans hmoved⟩
  cases h with
  | busy req hstatus hcan hadmits => exact hupdated req hadmits rfl
  | confirm req hopen hforce hadmits => exact hupdated req hadmits rfl
  | join e req roll _ _ hreq _ _ _ hadmits =>
      exact hupdated req hadmits (congrArg (·.deliveryBotId) (standing_joinedRow e hreq roll _ _))
  | upgrade e req roll _ _ hreq _ _ _ hadmits =>
      exact hupdated req hadmits (congrArg (·.deliveryBotId) (standing_joinedRow e hreq roll _ _))
  | takeover e req roll hopen _ _ _ _ hadmits =>
      exact Or.inr ⟨hr.not_held hopen, req, hadmits,
        congrArg (·.deliveryBotId) (standing_activateIfArrived e _ (takenOver _ _ req) _ _)⟩
  | sync e protection removed =>
      exact Or.inl (congrArg (·.deliveryBotId) (standing_syncReservation e protection removed _ _))
  | arrive e pigId handledId =>
      exact Or.inl (congrArg (·.deliveryBotId) (standing_arriveRow e pigId handledId _ _))
  | settle | confirmOutcome =>
      unfold markPrepared
      split_ifs <;> exact Or.inl rfl
  | complete =>
      unfold completedRow
      split_ifs <;> exact Or.inl rfl
  | capability | lease | leaseNotice | notice | save | send | release => exact Or.inl rfl

/-- A prepare neither takes nor gives back a round, and stores no result. -/
theorem RoundStep.keeps_hold (h : RoundStep warrant rolls r r') (hreports : ¬ warrant.reports)
    (hclaims : ∀ req, ¬ warrant.claims req) :
    r'.row.claimToken = r.row.claimToken ∧ r'.row.outcomeSnapshot = r.row.outcomeSnapshot := by
  by_cases hopen : r.row.status = .pending
  · obtain ⟨-, htoken, hresult, -⟩ := (h.waits hopen).columns
    exact ⟨htoken, hresult⟩
  · cases h with
    | busy req hstatus hcan =>
        obtain ⟨bot, version, heq⟩ := updateDeliveryCapability_eq _ req
        rw [heq]
        exact ⟨rfl, rfl⟩
    | capability req _ hserves => exact absurd hserves (hclaims req)
    | lease e req _ _ hserves => exact absurd hserves (hclaims req)
    | leaseNotice e req _ _ hserves => exact absurd hserves (hclaims req)
    | _ => contradiction

/-- A transaction that admits a prepare request does nothing else to deliveries. -/
theorem Event.prepares_only {req : RoastReservationPrepareRequest}
    (h : event.warrant.prepares req) :
    ¬ event.warrant.reports ∧ ∀ req, ¬ event.warrant.claims req := by
  unfold Event.warrant at h ⊢
  cases haction : event.action with
  | reconcile flight => exact ⟨id, fun _ => id⟩
  | request r view =>
      rw [haction] at h
      cases r with
      | prepare | joinByMessage => exact ⟨id, fun _ => id⟩
      | _ => exact h.elim

/-- **A delivery that is held stays with its bot**, through any transaction. -/
theorem RoundSteps.bot (h : RoundSteps event.warrant rolls r r') (hr : r.row.Staged)
    (hheld : r.row.Held) : r'.row.deliveryBotId = r.row.deliveryBotId := by
  by_cases hany : ∃ req, event.warrant.prepares req
  · obtain ⟨req, hadmits⟩ := hany
    obtain ⟨hreports, hclaims⟩ := Event.prepares_only hadmits
    have hall : r'.row.Staged ∧ r'.row.Held ∧ r'.row.deliveryBotId = r.row.deliveryBotId := by
      induction h with
      | refl => exact ⟨hr, hheld, rfl⟩
      | tail _ hlast ih =>
          obtain ⟨hstaged, hheld, hbot⟩ := ih
          obtain ⟨htoken, hresult⟩ := hlast.keeps_hold hreports hclaims
          refine ⟨hlast.staged hstaged, ?_, ?_⟩
          · unfold RoastReservation.Held
            rw [htoken, hresult]
            exact hheld
          · rcases hlast.bot hstaged with hsame | ⟨hfree, -⟩
            · exact hsame.trans hbot
            · exact absurd hheld hfree
    exact hall.2.2
  · have hall : r'.row.Staged ∧ r'.row.deliveryBotId = r.row.deliveryBotId := by
      induction h with
      | refl => exact ⟨hr, rfl⟩
      | tail _ hlast ih =>
          obtain ⟨hstaged, hbot⟩ := ih
          refine ⟨hlast.staged hstaged, ?_⟩
          rcases hlast.bot hstaged with hsame | ⟨-, req, hadmits, -⟩
          · exact hsame.trans hbot
          · exact absurd ⟨req, hadmits⟩ hany
    exact hall.2

/-! ### Whole runs -/

/-- What a run keeps of a round: nobody leaves, no contribution falls, and once it is
opened its roster and its terms stay. -/
structure Round.Keeps (r r' : Round) : Prop where
  manned : r'.Manned
  stays : ∀ member ∈ r.members, ∃ member' ∈ r'.members,
    member'.userId = member.userId ∧ member.contribution ≤ member'.contribution
  frozen : r.row.status ≠ .pending →
    r'.row.status ≠ .pending ∧ r'.members = r.members ∧ r'.row.charter = r.row.charter

theorem Round.Keeps.refl (h : r.Manned) : r.Keeps r :=
  ⟨h, fun member hmember => ⟨member, hmember, rfl, Nat.le_refl _⟩, fun hopened => ⟨hopened, rfl, rfl⟩⟩

theorem Round.Keeps.step {r₀ : Round} (h : r₀.Keeps r) (hstep : RoundStep warrant rolls r r') :
    r₀.Keeps r' := by
  refine ⟨hstep.manned h.manned, ?_, ?_⟩
  · intro member hmember
    obtain ⟨member', hmember', huser, hle⟩ := h.stays member hmember
    obtain ⟨member'', hmember'', huser', hle'⟩ := hstep.stays h.manned member' hmember'
    exact ⟨member'', hmember'', huser'.trans huser, Nat.le_trans hle hle'⟩
  · intro hopened
    obtain ⟨hopened', hmembers, hcharter⟩ := h.frozen hopened
    obtain ⟨hopened'', hmembers', hcharter'⟩ := hstep.frozen hopened'
    exact ⟨hopened'', hmembers'.trans hmembers, hcharter'.trans hcharter⟩

/-- **Rosters grow up to twelve, contributions rise up to two, and an opened round is
frozen.**  Each round has its owner and at most twelve different users, who pay one or two;
in any run nobody leaves and nobody pays less, from the moment the round has left `pending`
its roster and its terms stay as they are, and while it is held its bot does. -/
theorem roster_frozen (h : Reachable service w) {row : RoastReservation}
    (hrow : row ∈ w.db.reservations) :
    (1 ≤ (w.db.members row.reservationId).length ∧
      (w.db.members row.reservationId).length ≤ 12 ∧
      ((w.db.members row.reservationId).map (·.userId)).Nodup ∧
      (∃ member ∈ w.db.members row.reservationId, member.userId = row.ownerId) ∧
      ∀ member ∈ w.db.members row.reservationId,
        member.contribution = 1 ∨ member.contribution = 2) ∧
    (∀ events w', Run service w events w' →
      ∃ row' ∈ w'.db.reservations, row'.reservationId = row.reservationId ∧
        (∀ member ∈ w.db.members row.reservationId, ∃ member' ∈ w'.db.members row.reservationId,
          member'.userId = member.userId ∧ member.contribution ≤ member'.contribution) ∧
        (row.status ≠ .pending → row'.status ≠ .pending ∧
          w'.db.members row.reservationId = w.db.members row.reservationId ∧
          row'.protectionRequired = row.protectionRequired ∧
          row'.protectionSource = row.protectionSource ∧ row'.forceMode = row.forceMode ∧
          row'.forceOperatorId = row.forceOperatorId ∧
          row'.forceFeedUserIds = row.forceFeedUserIds)) ∧
    (∀ event w', service.step w event w' → row.claimToken ≠ none ∨ row.outcomeSnapshot ≠ none →
      ∃ row' ∈ w'.db.reservations, row'.reservationId = row.reservationId ∧
        row'.deliveryBotId = row.deliveryBotId) := by
  have hmanned : (w.db.round row).Manned := manned_of_reachable h row hrow
  refine ⟨⟨?_, hmanned.room, hmanned.distinct, hmanned.owner, hmanned.contributions⟩, ?_, ?_⟩
  · obtain ⟨owner, howner, -⟩ := hmanned.owner
    exact List.length_pos_of_mem howner
  · intro events w' hrun
    obtain ⟨row', hrow', hid, hkeeps⟩ := run_round (P := (w.db.round row).Keeps)
      (fun _ _ _ _ hstep hkeeps => hkeeps.step hstep) h hrun hrow (.refl hmanned)
    have hmembers : (w'.db.round row').members = w'.db.members row.reservationId := by
      rw [← hid]
      rfl
    refine ⟨row', hrow', hid, ?_, ?_⟩
    · rw [← hmembers]
      exact hkeeps.stays
    · intro hopened
      obtain ⟨hopened', hsame, hcharter⟩ := hkeeps.frozen hopened
      rw [hmembers] at hsame
      change row'.charter = row.charter at hcharter
      obtain ⟨hrequired, hsource, hforce, hoperator, hfeeds⟩ :
          row'.protectionRequired = row.protectionRequired ∧
            row'.protectionSource = row.protectionSource ∧ row'.forceMode = row.forceMode ∧
              row'.forceOperatorId = row.forceOperatorId ∧
                row'.forceFeedUserIds = row.forceFeedUserIds := by
        simpa [RoastReservation.charter] using hcharter
      exact ⟨hopened', hsame, hrequired, hsource, hforce, hoperator, hfeeds⟩
  · intro event w' hstep hheld
    obtain ⟨row', hrow', hid, hsteps⟩ := (sound_of_reachable h).step_round_forward hstep hrow
    exact ⟨row', hrow', hid.symm, hsteps.bot (staged_of_reachable h row hrow) hheld⟩

/-- This user meets user 2. -/
def meetsTwo (user : String) : Request :=
  .prepare { attackerId := user, attackerPigId := "pig", targetId := "2", groupId := "7",
             deliveryBotId := "bot", dateStr := 739000 }

/-- Users 1 and 3 meet user 2, who arrives; the bot claims the round. -/
def heldScript : List (Time × Order) :=
  let now : Time := 739000 * dayMicros
  [(now, .request (meetsTwo "1")), (now, .finish 0), (now, .request (meetsTwo "3")),
    (now, .finish 0),
    (now, .request (.getOrCreate { userId := "2", proposedPigId := "boar", dateStr := 739000 })),
    (now, .finish 0),
    (now, .request (.claim { deliveryBotId := "bot", dateStr := 739000, supportsPrepared := true }))]

/-- User 4 comes too late for the round, which keeps its two members and its bot. -/
theorem roster_frozen_held :
    ∃ row ∈ (scriptWorld heldScript).db.reservations,
      row.status ≠ .pending ∧ row.claimToken ≠ none ∧
      ((scriptWorld heldScript).db.members row.reservationId).length = 2 ∧
      ((scriptWorld heldScript).db.members row.reservationId).length ≤ 12 ∧
      let w' := scriptWorld (heldScript ++ [(739000 * dayMicros, .request (meetsTwo "4"))])
      w'.db.members row.reservationId = (scriptWorld heldScript).db.members row.reservationId ∧
      ∃ row' ∈ w'.db.reservations, row'.reservationId = row.reservationId ∧
        row'.deliveryBotId = row.deliveryBotId := by
  have hplay : (play 0 {} heldScript).isSome = true := by decide +kernel
  have hlate := script_step hplay (739000 * dayMicros) (meetsTwo "4")
  rw [← scriptWorld_snoc hplay] at hlate
  obtain ⟨row, hrow, hopened, hheld, hlength⟩ : ∃ row ∈ (scriptWorld heldScript).db.reservations,
      row.status ≠ .pending ∧ row.claimToken ≠ none ∧
        ((scriptWorld heldScript).db.members row.reservationId).length = 2 := by decide +kernel
  obtain ⟨⟨-, hroom, -⟩, hruns, hbots⟩ := roster_frozen (script_reachable hplay) hrow
  obtain ⟨_, _, _, _, hfrozen⟩ := hruns _ _ (Run.single hlate)
  obtain ⟨-, hmembers, -⟩ := hfrozen hopened
  exact ⟨row, hrow, hopened, hheld, hlength, hroom, hmembers,
    hbots _ _ hlate (Or.inl hheld)⟩

end RollPig
