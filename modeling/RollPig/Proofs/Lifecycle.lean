/-
The stored round carries out the abstract ones.

A row is two things at once: a crowd that gathers (`Gathering`) and a job whose message
is delivered under leases (`Delivery`).  `Round.crowd` and `RoastReservation.job` read
them off, and `RoundStep.crowd` and `RoundStep.job` show that every step of the stored
round is a step of each or leaves it alone.  Everything proved of the abstract rounds
then holds of the stored ones.
-/
import RollPig.Delivery
import RollPig.Gathering
import RollPig.Proofs.Transactions

namespace RollPig

open Gathering (Mode)

/-! ### Reading the abstract rounds off -/

def RoastReservation.stage (row : RoastReservation) : Delivery.Stage (Option String) :=
  match row.status with
  | .pending => .waiting
  | .ready => .ready
  | .processing => .leased row.claimToken
  | .prepared => .prepared row.claimToken
  | .sending => .sending row.claimToken
  | .completed => .done row.claimToken

def RoastReservation.job (row : RoastReservation) : Delivery.Job (Option String) OutcomeSnapshot :=
  { stage := row.stage, result := row.outcomeSnapshot }

def forceModeOf (forceMode : Option String) : Mode :=
  match forceMode with
  | none => .plain
  | some mode => if mode = "normal" then .normal else if mode = "super" then .super else .other

@[simp] theorem forceModeOf_eq_plain {forceMode : Option String} :
    forceModeOf forceMode = .plain ↔ forceMode = none := by
  cases forceMode with
  | none => simp [forceModeOf]
  | some mode =>
      simp only [forceModeOf]
      split_ifs <;> simp

@[simp] theorem forceModeOf_eq_normal {forceMode : Option String} :
    forceModeOf forceMode = .normal ↔ forceMode = some "normal" := by
  cases forceMode with
  | none => simp [forceModeOf]
  | some mode =>
      simp only [forceModeOf]
      split_ifs <;> simp_all

@[simp] theorem forceModeOf_eq_super {forceMode : Option String} :
    forceModeOf forceMode = .super ↔ forceMode = some "super" := by
  cases forceMode with
  | none => simp [forceModeOf]
  | some mode =>
      simp only [forceModeOf]
      split_ifs <;> simp_all

def gatherer (member : RoastReservationParticipant) : Gathering.Member String :=
  { user := member.userId, contribution := member.contribution }

def Round.crowd (r : Round) : Gathering.State String String Source :=
  { owner := r.row.ownerId, mode := forceModeOf r.row.forceMode,
    required := r.row.protectionRequired, source := r.row.protectionSource,
    pig := r.row.targetPigId, saved := r.row.forceFeedUserIds,
    roster := r.members.map gatherer, opened := decide (r.row.status ≠ .pending) }

variable {warrant : Warrant} {rolls : List DailyRoll} {r r' : Round} {row : RoastReservation}
  {members : List RoastReservationParticipant}

@[simp] theorem Round.crowd_frame (r : Round) :
    r.crowd.owner = r.row.ownerId ∧ r.crowd.mode = forceModeOf r.row.forceMode ∧
      r.crowd.required = r.row.protectionRequired ∧ r.crowd.source = r.row.protectionSource ∧
      r.crowd.pig = r.row.targetPigId ∧ r.crowd.saved = r.row.forceFeedUserIds ∧
      r.crowd.roster = r.members.map gatherer :=
  ⟨rfl, rfl, rfl, rfl, rfl, rfl, rfl⟩

theorem Round.crowd_opened : r.crowd.opened = false ↔ r.row.status = .pending := by
  simp [Round.crowd]

theorem Round.crowd_total : r.crowd.total = totalContribution r.members := by
  simp [Round.crowd, Gathering.State.total, totalContribution, gatherer, Function.comp_def]

theorem Round.crowd_met :
    r.crowd.Met ↔
      r.row.forceMode = some "super" ∨ r.row.protectionRequired ≤ totalContribution r.members := by
  unfold Gathering.State.Met
  rw [Round.crowd_total]
  simp [Round.crowd]

/-! ### The ignition test -/

/-- What `_activate_reservation` leaves: the round opens, or waits with the pig recorded. -/
theorem activateReservation_cases (e : Env) (members : List RoastReservationParticipant)
    (row : RoastReservation) (pigId : String) (notify : Bool) :
    ((⟨row, members⟩ : Round).crowd.Met ∧
        activateReservation e members row pigId notify =
          ({ row with
              targetPigId := pigId, waitingNotice := none, status := .ready,
              readyAt := some e.now }, true)) ∨
      (¬ (⟨row, members⟩ : Round).crowd.Met ∧ ∃ notice,
        activateReservation e members row pigId notify =
          ({ row with targetPigId := pigId, waitingNotice := notice }, false)) := by
  rw [Round.crowd_met]
  unfold activateReservation
  by_cases hshort : 0 < row.protectionRequired ∧ row.forceMode ≠ some "super" ∧
      totalContribution members < row.protectionRequired
  · refine Or.inr ⟨?_, ?_⟩
    · obtain ⟨_, hforce, hless⟩ := hshort
      rintro (hsuper | hle)
      · exact hforce hsuper
      · exact absurd hle (Nat.not_le.mpr hless)
    · simp only [if_pos hshort]
      split_ifs
      · exact ⟨_, rfl⟩
      · exact ⟨row.waitingNotice, rfl⟩
  · refine Or.inl ⟨?_, by simp only [if_neg hshort]⟩
    by_contra hmet
    push Not at hmet
    exact hshort ⟨Nat.lt_of_le_of_lt (Nat.zero_le _) hmet.2, hmet.1, hmet.2⟩

theorem crowd_activateReservation (e : Env) (pigId : String)
    (notify : Bool) :
    (⟨(activateReservation e members row pigId notify).1, members⟩ : Round).crowd =
      (⟨row, members⟩ : Round).crowd.arrive pigId := by
  unfold Gathering.State.arrive
  rcases activateReservation_cases e members row pigId notify with ⟨hmet, heq⟩ | ⟨hmet, n, heq⟩
  · rw [heq, decide_eq_true hmet, Bool.or_true]
    rfl
  · rw [heq, decide_eq_false hmet, Bool.or_false]
    rfl

theorem crowd_activateIfArrived (e : Env) (pigId : String)
    (notify : Bool) :
    (⟨activateIfArrived e members row pigId notify, members⟩ : Round).crowd =
      (⟨row, members⟩ : Round).crowd.meet "" pigId := by
  unfold activateIfArrived Gathering.State.meet
  by_cases hpig : pigId = ""
  · rw [if_neg (by simpa using hpig), if_pos hpig]
  · rw [if_pos hpig, if_neg hpig]
    exact crowd_activateReservation e pigId notify

/-! ### The steps -/

/-- The bot and the notice of a row are no part of the crowd. -/
theorem crowd_updateDeliveryCapability (req : RoastReservationPrepareRequest) :
    (⟨updateDeliveryCapability row req, members⟩ : Round).crowd =
      (⟨row, members⟩ : Round).crowd := by
  obtain ⟨bot, version, h⟩ := updateDeliveryCapability_eq row req
  rw [h]
  rfl

/-- A join or an upgrade by an ordinary request. -/
theorem crowd_joinedRow (e : Env) {req : RoastReservationPrepareRequest}
    (hreq : req.forceMode ≠ some "super") (roll : Option DailyRoll) :
    (⟨joinedRow e req roll row members, members⟩ : Round).crowd =
      (⟨row, members⟩ : Round).crowd.meet "" (arrivedPigId row roll) := by
  unfold joinedRow
  obtain ⟨bot, version, h⟩ := updateDeliveryCapability_eq row req
  have hplain : ¬ (req.forceMode = some "super" ∧
      0 < (updateDeliveryCapability row req).protectionRequired) := fun hsuper => hreq hsuper.1
  simp only [if_neg hplain, crowd_activateIfArrived]
  rw [h]
  rfl

/-- The pig a prepare goes by is the one recorded, or one it saw the target rolled. -/
theorem arrivedPigId_seen {roll : Option DailyRoll}
    (hroll : ∀ r ∈ roll, Rolled rolls row.dateStr row.targetId r.pigId) :
    Gathering.Seen "" (Rolled rolls row.dateStr row.targetId) (⟨row, members⟩ : Round).crowd
      (arrivedPigId row roll) := by
  unfold arrivedPigId
  by_cases hpig : row.targetPigId = ""
  · rw [if_neg (by simpa using hpig)]
    cases roll with
    | none => exact Or.inl hpig.symm
    | some roll => exact Or.inr ⟨hpig, hroll roll rfl⟩
  · rw [if_pos hpig]
    exact Or.inl rfl

theorem crowd_enlisted (e : Env) (req : RoastReservationPrepareRequest) :
    (⟨row, enlisted e req row members⟩ : Round).crowd =
      (⟨row, members⟩ : Round).crowd.join req.attackerId (if boosts req row then 2 else 1) := by
  simp [Round.crowd, Gathering.State.join, enlisted, newParticipant, gatherer]

theorem gatherer_boost {users : RoastReservationParticipant → Prop} [DecidablePred users]
    (user : String) (h : ∀ m, users m ↔ m.userId = user) :
    ((members.map fun m => if users m then { m with contribution := 2 } else m).map gatherer) =
      (members.map gatherer).map fun m =>
        if m.user = user then { m with contribution := 2 } else m := by
  rw [List.map_map, List.map_map]
  refine List.map_congr_left fun m _ => ?_
  by_cases huser : m.userId = user
  · simp [h, huser, gatherer]
  · simp [h, huser, gatherer]

theorem crowd_boostMember (userId : String) :
    (⟨row, boostMember userId members⟩ : Round).crowd =
      (⟨row, members⟩ : Round).crowd.boost userId := by
  unfold boostMember Gathering.State.boost Round.crowd
  dsimp only
  rw [gatherer_boost userId fun _ => Iff.rfl]

theorem crowd_takenOver (req : RoastReservationPrepareRequest) :
    (⟨takenOver row members req, members⟩ : Round).crowd =
      (⟨row, members⟩ : Round).crowd.takeOver req.attackerId := by
  have hkept : takeoverFeedUserIds row members req.attackerId =
      (⟨row, members⟩ : Round).crowd.kept req.attackerId := by
    unfold takeoverFeedUserIds Gathering.State.kept
    rw [(Round.crowd_frame _).2.2.2.2.2.2, List.filter_map, List.map_map]
    show (members.filter _).map (·.userId) = (members.filter _).map (·.userId)
    congr 1
    refine List.filter_congr fun m _ => ?_
    by_cases hplain : row.forceMode = none
    · simp [gatherer, hplain]
      rfl
    · simp [gatherer, hplain, Bool.and_assoc]
      rfl
  simp only [takenOver, Gathering.State.takeOver, hkept]
  rfl

theorem crowd_syncMembers (removed : Bool) :
    (⟨row, syncMembers removed row members⟩ : Round).crowd =
      if removed = false ∧ row.protectionRequired = 0 ∧ row.forceMode = some "normal" then
        (⟨row, members⟩ : Round).crowd.boost row.ownerId
      else (⟨row, members⟩ : Round).crowd := by
  by_cases hdoubles : doublesOwner removed row = true
  · have hguard : removed = false ∧ row.protectionRequired = 0 ∧
        row.forceMode = some "normal" := by
      simpa [doublesOwner, and_assoc] using hdoubles
    rw [if_pos hguard]
    unfold syncMembers Gathering.State.boost Round.crowd
    dsimp only
    rw [gatherer_boost row.ownerId fun m => by simp [hdoubles]]
  · have hguard : ¬ (removed = false ∧ row.protectionRequired = 0 ∧
        row.forceMode = some "normal") := by
      simpa [doublesOwner, and_assoc] using hdoubles
    rw [if_neg hguard]
    simp [syncMembers, hdoubles]

/-- The abstract effect of a protection on a waiting round. -/
theorem crowd_governedRow (protection : GroupProtection) (removed : Bool) :
    (⟨governedRow protection removed row, syncMembers removed row members⟩ : Round).crowd =
      if removed then (⟨row, members⟩ : Round).crowd.ungovern .legacy
      else (⟨row, members⟩ : Round).crowd.govern (1 + protectionLevel protection)
        (protectionSource protection) := by
  have hbase : (⟨governedRow protection removed row, syncMembers removed row members⟩ :
      Round).crowd = { (⟨row, syncMembers removed row members⟩ : Round).crowd with
        required := if removed then 0 else 1 + protectionLevel protection
        source := if removed then .legacy else protectionSource protection } := rfl
  rw [hbase, crowd_syncMembers]
  cases removed with
  | true => simp [Gathering.State.ungovern]
  | false => simp [Gathering.State.govern]

theorem crowd_syncReservation (e : Env) (protection : GroupProtection) (removed : Bool) :
    (⟨syncReservation e protection removed (syncMembers removed row members) row,
        syncMembers removed row members⟩ : Round).crowd =
      (⟨governedRow protection removed row, syncMembers removed row members⟩ : Round).crowd.meet ""
        row.targetPigId := by
  unfold syncReservation
  by_cases hpig : row.targetPigId = ""
  · rw [if_neg (by simpa using hpig), Gathering.State.meet, if_pos hpig]
  · rw [if_pos hpig, Gathering.State.meet, if_neg hpig, ← crowd_activateReservation e _ true]
    unfold announceThreshold
    split_ifs <;> rfl

theorem crowd_arriveRow (e : Env) (pigId handledId : String) :
    (⟨(arriveRow e pigId handledId row members).1, members⟩ : Round).crowd =
      (⟨row, members⟩ : Round).crowd.arrive pigId := by
  rw [← crowd_activateReservation e pigId (!decide (row.reservationId = handledId))]
  unfold arriveRow
  dsimp only
  split_ifs <;> rfl

/-- A row rewrite after the opening leaves the crowd alone. -/
theorem crowd_of_status {row row' : RoastReservation} (hstatus : row.status ≠ .pending)
    (hstatus' : row'.status ≠ .pending)
    (hterms : { row' with
      status := row.status, outcomeSnapshot := row.outcomeSnapshot
      dailyFeedResults := row.dailyFeedResults, claimToken := row.claimToken
      claimedAt := row.claimedAt, activeSlot := row.activeSlot
      completedAt := row.completedAt } = row) :
    (⟨row', members⟩ : Round).crowd = (⟨row, members⟩ : Round).crowd := by
  rw [← hterms]
  simp [Round.crowd, hstatus, hstatus']

theorem RoastReservation.stage_free :
    row.stage.Free ↔
      row.status = .ready ∨ row.status = .processing ∨ row.status = .prepared := by
  unfold RoastReservation.stage
  constructor
  · intro hfree
    cases hstatus : row.status with
    | pending | sending | completed =>
        rw [hstatus] at hfree
        cases hfree
    | ready | processing | prepared => simp
  · rintro (hstatus | hstatus | hstatus)
    · rw [hstatus]
      exact .ready
    · rw [hstatus]
      exact .leased _
    · rw [hstatus]
      exact .prepared _

theorem claimable_free {e : Env} {req : RoastReservationClaimRequest}
    (h : claimable e req row = true) : row.stage.Free := by
  rw [RoastReservation.stage_free]
  simp only [claimable, Bool.and_eq_true, Bool.or_eq_true, decide_eq_true_eq] at h
  rcases h.1.1.2 with hready | ⟨hleased, _⟩
  · exact Or.inl hready
  · exact Or.inr hleased

theorem claimable_status {e : Env} {req : RoastReservationClaimRequest}
    (h : claimable e req row = true) : row.status ≠ .pending := by
  rcases RoastReservation.stage_free.mp (claimable_free h) with hstatus | hstatus | hstatus <;>
    simp [hstatus]

theorem markPrepared_processing (hstatus : row.status = .processing) :
    markPrepared row = { row with status := .prepared } :=
  if_pos hstatus

theorem completedRow_sending (e : Env) (hstatus : row.status = .sending) :
    completedRow e row =
      { row with status := .completed, activeSlot := none, completedAt := some e.now } :=
  if_pos (by simp [hstatus])

/-- **Every step of a stored round is a step of its crowd, or leaves the crowd alone.** -/
theorem RoundStep.crowd (h : RoundStep warrant rolls r r') :
    r'.crowd = r.crowd ∨
      Gathering.Step "" (Rolled rolls r.row.dateStr r.row.targetId) warrant.syncs r.crowd r'.crowd := by
  cases h with
  | busy req hstatus hcan => exact Or.inl (crowd_updateDeliveryCapability req)
  | confirm req hopen hforce => exact Or.inl (crowd_updateDeliveryCapability req)
  | @join row members e req roll hopen hforce hreq hroll hnew hroom =>
      refine Or.inr ?_
      rw [crowd_joinedRow e hreq, crowd_enlisted]
      refine .join (Round.crowd_opened.mpr hopen) (by simpa using hforce) _ _ ?_ ?_ _
        (arrivedPigId_seen hroll)
      · intro m hm
        obtain ⟨member, hmember, rfl⟩ := List.mem_map.mp hm
        exact hnew member hmember
      · by_cases hboost : boosts req row = true
        · rw [if_pos hboost]
          refine Or.inr ⟨rfl, ?_⟩
          simp only [boosts, Bool.and_eq_true, decide_eq_true_eq] at hboost
          exact hboost.1
        · rw [if_neg hboost]
          exact Or.inl rfl
  | @upgrade row members e req roll hopen hforce hreq hroll hboost hmember =>
      refine Or.inr ?_
      rw [crowd_joinedRow e hreq, crowd_boostMember]
      simp only [boosts, Bool.and_eq_true, decide_eq_true_eq] at hboost
      obtain ⟨member, hmember, huser⟩ := hmember
      refine .boost (Round.crowd_opened.mpr hopen) (by simpa using hforce) _ ?_ ?_ _
        (arrivedPigId_seen hroll)
      · exact ⟨_, List.mem_map_of_mem hmember, huser⟩
      · exact hboost.1
  | @takeover row members e req roll hopen hforce hreq hgathers hroll =>
      refine Or.inr ?_
      rw [crowd_activateIfArrived, crowd_takenOver]
      exact .takeOver (Round.crowd_opened.mpr hopen) (by simpa using hforce) _ _
        (arrivedPigId_seen hroll)
  | @sync row members e protection removed hsyncs hopen hforce =>
      refine Or.inr ?_
      rw [crowd_syncReservation, crowd_governedRow]
      cases removed with
      | true => exact .ungovern (Round.crowd_opened.mpr hopen) (by simpa using hforce) hsyncs _
      | false =>
          exact .govern (Round.crowd_opened.mpr hopen) (by simpa using hforce) hsyncs _ (by omega) _
  | @arrive row members e pigId handledId hopen hroll =>
      refine Or.inr ?_
      rw [crowd_arriveRow]
      exact .arrive (Round.crowd_opened.mpr hopen) pigId hroll
  | capability req hcan => exact Or.inl rfl
  | leaseNotice e req token hcan => exact Or.inl rfl
  | notice notice hopen => exact Or.inl rfl
  | lease e req token hcan =>
      refine Or.inl (crowd_of_status (claimable_status hcan) ?_ rfl)
      simp only [leaseRow]
      split_ifs <;> simp
  | settle snapshot results hstatus hnone =>
      rw [markPrepared_processing (by simpa using hstatus)]
      exact Or.inl (crowd_of_status (by simp [hstatus]) (by simp) rfl)
  | @confirmOutcome row members hstatus hsome =>
      by_cases hprocessing : row.status = .processing
      · rw [markPrepared_processing hprocessing]
        exact Or.inl (crowd_of_status hstatus (by simp) rfl)
      · rw [markPrepared, if_neg hprocessing]
        exact Or.inl rfl
  | save snapshot hstatus hsnapshot =>
      exact Or.inl (crowd_of_status (by simp [hstatus]) (by simp) rfl)
  | send hstatus hsome => exact Or.inl (crowd_of_status (by simp [hstatus]) (by simp) rfl)
  | complete e hstatus =>
      rw [completedRow_sending e hstatus]
      exact Or.inl (crowd_of_status (by simp [hstatus]) (by simp) rfl)
  | release hstatus =>
      refine Or.inl (crowd_of_status ?_ (by simp) rfl)
      rcases hstatus with hstatus | hstatus <;> simp [hstatus]

/-- **A created round is born as a crowd.** -/
theorem RoundBirth.crowd (h : RoundBirth rolls r) :
    Gathering.Born "" (Rolled rolls r.row.dateStr r.row.targetId) r.crowd := by
  obtain ⟨e, req, roll, protection, reservationId, hroll, hgate⟩ := h
  set row := newReservation e req protection reservationId with hrow
  set owner := ownerParticipant e req protection reservationId with howner
  have hstart : (⟨row, [owner]⟩ : Round).crowd =
      { owner := req.attackerId, mode := forceModeOf req.forceMode,
        required := row.protectionRequired, source := row.protectionSource, pig := "",
        saved := none, opened := false
        roster := [⟨req.attackerId,
          if protection.isSome = true ∧ forceModeOf req.forceMode = .normal then 2 else 1⟩] } := by
    simp [Round.crowd, hrow, howner, newReservation, ownerParticipant, newParticipant, gatherer]
  have hplain : protection.isSome = false → row.protectionRequired = 0 := by
    intro hnone
    rw [hrow]
    cases protection with
    | none => rfl
    | some guard => simp at hnone
  have hguarded : protection.isSome = true →
      0 < row.protectionRequired ∨ forceModeOf req.forceMode = .super := by
    intro hsome
    rcases hgate hsome with hgathers | hsuper
    · left
      obtain ⟨guard, rfl⟩ := Option.isSome_iff_exists.mp hsome
      simp only [RoastReservationPrepareRequest.gathers, Bool.and_eq_true] at hgathers
      simp only [hrow, newReservation, hgathers.1, if_true]
      omega
    · exact Or.inr (by simpa using hsuper)
  cases roll with
  | none => exact .intro _ _ protection.isSome _ _ hplain hguarded none (by simp) _ hstart
  | some target =>
      have hopened : (⟨insertedRow e req (some target) protection reservationId, [owner]⟩ :
          Round).crowd = (⟨row, [owner]⟩ : Round).crowd.arrive target.pigId :=
        crowd_activateReservation e target.pigId false
      obtain ⟨-, hdate, -, htarget⟩ :=
        insertedRow_key e req (some target) protection reservationId
      rw [hopened, hdate, htarget]
      refine .intro _ _ protection.isSome _ _ hplain hguarded (some target.pigId) ?_ _ hstart
      intro pigId hpigId
      obtain rfl := Option.some.inj hpigId
      exact hroll target rfl

/-! ### What a waiting round keeps

The rewrites of a waiting round touch its terms, its bot and its notice.  `record` blanks
these, so that what such a rewrite keeps is one equation.
-/

def RoastReservation.record (row : RoastReservation) : RoastReservation :=
  { row with
    targetPigId := "", deliveryBotId := "", forceMode := none, status := .pending
    protectionRequired := 0, protectionSource := .legacy, waitingNotice := none
    deliveryGatheringVersion := 0, forceOperatorId := "", forceOperatorName := ""
    forceFeedUserIds := none, readyAt := none }

/-- What identifies a round. -/
def RoastReservation.key (row : RoastReservation) : String × Date × String × String :=
  (row.reservationId, row.dateStr, row.groupId, row.targetId)

theorem key_eq {row row' : RoastReservation} :
    row'.key = row.key ↔ row'.reservationId = row.reservationId ∧ row'.dateStr = row.dateStr ∧
      row'.groupId = row.groupId ∧ row'.targetId = row.targetId := by
  simp [RoastReservation.key]

theorem key_of_record {row row' : RoastReservation} (h : row'.record = row.record) :
    row'.key = row.key := by
  show row'.record.key = row.record.key
  rw [h]

/-- A rewrite of a waiting round: it goes on waiting, or is ready. -/
structure Waits (row row' : RoastReservation) : Prop where
  record : row'.record = row.record
  status : row'.status = row.status ∨ row'.status = .ready

namespace Waits

variable {row row' row'' : RoastReservation}

theorem refl : Waits row row := ⟨rfl, Or.inl rfl⟩

theorem trans (h₁ : Waits row row') (h₂ : Waits row' row'') : Waits row row'' := by
  refine ⟨h₂.record.trans h₁.record, ?_⟩
  rcases h₂.status with hsame | hready
  · rw [hsame]
    exact h₁.status
  · exact Or.inr hready

theorem activateReservation (e : Env) (pigId : String) (notify : Bool) :
    Waits row (activateReservation e members row pigId notify).1 := by
  rcases activateReservation_cases e members row pigId notify with ⟨_, heq⟩ | ⟨_, notice, heq⟩
  · rw [heq]
    exact ⟨rfl, Or.inr rfl⟩
  · rw [heq]
    exact ⟨rfl, Or.inl rfl⟩

theorem activateIfArrived (e : Env) (pigId : String) (notify : Bool) :
    Waits row (activateIfArrived e members row pigId notify) := by
  unfold RollPig.activateIfArrived
  split_ifs
  · exact activateReservation e pigId notify
  · exact refl

theorem updateDeliveryCapability (req : RoastReservationPrepareRequest) :
    Waits row (updateDeliveryCapability row req) := by
  obtain ⟨bot, version, heq⟩ := updateDeliveryCapability_eq row req
  rw [heq]
  exact ⟨rfl, Or.inl rfl⟩

theorem joinedRow (e : Env) (req : RoastReservationPrepareRequest) (roll : Option DailyRoll) :
    Waits row (joinedRow e req roll row members) := by
  unfold RollPig.joinedRow
  refine (updateDeliveryCapability req).trans (Waits.trans ?_ (activateIfArrived e _ _))
  split_ifs <;> exact ⟨rfl, Or.inl rfl⟩

theorem announceThreshold (previous : Nat) : Waits row (announceThreshold previous row) := by
  unfold RollPig.announceThreshold
  split_ifs <;> exact ⟨rfl, Or.inl rfl⟩

theorem syncReservation (e : Env) (protection : GroupProtection) (removed : Bool) :
    Waits row (syncReservation e protection removed members row) := by
  have hgoverned : Waits row (governedRow protection removed row) := ⟨rfl, Or.inl rfl⟩
  unfold RollPig.syncReservation
  split_ifs
  · have hactivated : Waits row (RollPig.activateReservation e members
        (governedRow protection removed row) row.targetPigId).1 :=
      hgoverned.trans (activateReservation e _ true)
    exact hactivated.trans (announceThreshold _)
  · exact hgoverned

theorem arriveRow (e : Env) (pigId handledId : String) :
    Waits row (arriveRow e pigId handledId row members).1 := by
  unfold RollPig.arriveRow
  have hactivated : Waits row (RollPig.activateReservation e members row pigId
      (!decide (row.reservationId = handledId))).1 := activateReservation e pigId _
  dsimp only
  split_ifs
  · exact hactivated.trans ⟨rfl, Or.inl rfl⟩
  · exact hactivated

end Waits

/-- A step of a round that waits. -/
theorem RoundStep.waits (h : RoundStep warrant rolls r r') (hopen : r.row.status = .pending) :
    Waits r.row r'.row := by
  cases h with
  | busy req hstatus hcan => exact absurd hopen hstatus
  | confirm req => exact (Waits.updateDeliveryCapability req).trans ⟨rfl, Or.inl rfl⟩
  | join e req roll => exact .joinedRow e req roll
  | upgrade e req roll => exact .joinedRow e req roll
  | @takeover row members e req roll =>
      have htaken : Waits row (takenOver row members req) := ⟨rfl, Or.inl rfl⟩
      exact htaken.trans (.activateIfArrived e _ _)
  | sync e protection removed => exact .syncReservation e protection removed
  | arrive e pigId handledId => exact .arriveRow e pigId handledId
  | capability | leaseNotice | notice => exact ⟨rfl, Or.inl rfl⟩
  | lease e req token hcan => exact absurd hopen (claimable_status hcan)
  | confirmOutcome hstatus => exact absurd hopen hstatus
  | release hstatus => rcases hstatus with hstatus | hstatus <;> simp [hstatus] at hopen
  | settle snapshot results hstatus => simp [hstatus] at hopen
  | save snapshot hstatus => simp [hstatus] at hopen
  | send hstatus | complete e hstatus => simp [hstatus] at hopen

/-- A round is the same round after every step. -/
theorem RoundStep.key (h : RoundStep warrant rolls r r') : r'.row.key = r.row.key := by
  by_cases hopen : r.row.status = .pending
  · exact key_of_record (h.waits hopen).record
  · cases h with
    | busy req => exact key_of_record (Waits.updateDeliveryCapability req).record
    | settle | confirmOutcome => unfold markPrepared; split_ifs <;> rfl
    | complete => unfold completedRow; split_ifs <;> rfl
    | capability | lease | leaseNotice | save | send | release => rfl
    | _ => exact absurd (by assumption) hopen

/-- A round holds its target's slot until it is completed. -/
def Slotted (row : RoastReservation) : Prop :=
  row.activeSlot = if row.status = .completed then none else some 1

/-- The columns only a lease, a result or the completion writes. -/
theorem Waits.columns {row row' : RoastReservation} (h : Waits row row') :
    row'.activeSlot = row.activeSlot ∧ row'.claimToken = row.claimToken ∧
      row'.outcomeSnapshot = row.outcomeSnapshot ∧
      row'.dailyFeedResults = row.dailyFeedResults := by
  have hcolumn : ∀ {β : Type} (f : RoastReservation → β), f row'.record = f row.record :=
    fun f => congrArg f h.record
  exact ⟨hcolumn (·.activeSlot), hcolumn (·.claimToken), hcolumn (·.outcomeSnapshot),
    hcolumn (·.dailyFeedResults)⟩

theorem Slotted.of_column {row row' : RoastReservation} (hslot : Slotted row)
    (hcolumn : row'.activeSlot = row.activeSlot) (hstatus : row.status ≠ .completed)
    (hstatus' : row'.status ≠ .completed) : Slotted row' := by
  unfold Slotted at hslot ⊢
  rw [hcolumn, hslot, if_neg hstatus, if_neg hstatus']

theorem RoundStep.slotted (h : RoundStep warrant rolls r r') (hslot : Slotted r.row) :
    Slotted r'.row := by
  by_cases hopen : r.row.status = .pending
  · have hwaits := h.waits hopen
    refine hslot.of_column hwaits.columns.1 (by simp [hopen]) ?_
    rcases hwaits.status with hstatus | hready
    · simp [hstatus, hopen]
    · simp [hready]
  · cases h with
    | busy req =>
        obtain ⟨bot, version, heq⟩ := updateDeliveryCapability_eq _ req
        rw [heq]
        exact hslot
    | @lease row members e req token hcan =>
        refine hslot.of_column rfl ?_ ?_
        · rcases RoastReservation.stage_free.mp (claimable_free hcan) with
            hstatus | hstatus | hstatus <;> simp [hstatus]
        · simp only [leaseRow]
          split_ifs <;> simp
    | settle snapshot results hstatus =>
        rw [markPrepared_processing (by simpa using hstatus)]
        exact hslot.of_column rfl (by simp [hstatus]) (by simp)
    | @confirmOutcome row members hstatus hsome =>
        by_cases hprocessing : row.status = .processing
        · rw [markPrepared_processing hprocessing]
          exact hslot.of_column rfl (by simp [hprocessing]) (by simp)
        · rw [markPrepared, if_neg hprocessing]
          exact hslot
    | save snapshot hstatus =>
        exact hslot.of_column rfl (by simp [hstatus]) (by simp)
    | send hstatus => exact hslot.of_column rfl (by simp [hstatus]) (by simp)
    | complete e hstatus =>
        rw [completedRow_sending e hstatus]
        rfl
    | release hstatus =>
        refine hslot.of_column rfl ?_ (by simp)
        rcases hstatus with hstatus | hstatus <;> simp [hstatus]
    | capability | leaseNotice => exact hslot
    | _ => exact absurd (by assumption) hopen

/-! ### Leases -/

theorem stage_of_waits {row row' : RoastReservation} (h : Waits row row')
    (hopen : row.status = .pending) :
    row'.job = row.job ∨ Delivery.Step row.job row'.job := by
  unfold RoastReservation.job RoastReservation.stage
  rw [h.columns.2.2.1, hopen]
  rcases h.status with hstatus | hready
  · rw [hstatus, hopen]
    exact Or.inl rfl
  · rw [hready]
    exact Or.inr .ready

theorem job_leaseRow {e : Env} {req : RoastReservationClaimRequest} {token : String}
    (hcan : claimable e req row = true) : Delivery.Step row.job (leaseRow e req token row).job := by
  have hfree := claimable_free hcan
  unfold RoastReservation.job
  cases hresult : row.outcomeSnapshot with
  | none =>
      simpa [leaseRow, hresult, RoastReservation.stage] using Delivery.Step.lease hfree (some token)
  | some result =>
      by_cases hprepared : req.supportsPrepared = true
      · have hstep : Delivery.Step ⟨row.stage, some result⟩ ⟨.prepared (some token), some result⟩ :=
          .resume hfree (some token)
        simpa [leaseRow, hresult, hprepared, RoastReservation.stage] using hstep
      · have hstep : Delivery.Step ⟨row.stage, some result⟩ ⟨.sending (some token), some result⟩ :=
          .relay hfree (some token)
        simpa [leaseRow, hresult, hprepared, RoastReservation.stage] using hstep

/-- **Every step of a stored round is a step of its delivery, or leaves it alone.** -/
theorem RoundStep.job (h : RoundStep warrant rolls r r') :
    r'.row.job = r.row.job ∨ Delivery.Step r.row.job r'.row.job := by
  by_cases hopen : r.row.status = .pending
  · exact stage_of_waits (h.waits hopen) hopen
  · cases h with
    | busy req =>
        obtain ⟨bot, version, heq⟩ := updateDeliveryCapability_eq _ req
        rw [heq]
        exact Or.inl rfl
    | capability | leaseNotice => exact Or.inl rfl
    | lease e req token hcan => exact Or.inr (job_leaseRow hcan)
    | settle snapshot results hstatus hnone =>
        rw [markPrepared_processing (by simpa using hstatus)]
        simp only [RoastReservation.job, RoastReservation.stage, hstatus, hnone]
        exact Or.inr (.settle snapshot)
    | @confirmOutcome row members hstatus hsome =>
        by_cases hprocessing : row.status = .processing
        · rw [markPrepared_processing hprocessing]
          obtain ⟨result, hresult⟩ := Option.isSome_iff_exists.mp hsome
          simp only [RoastReservation.job, RoastReservation.stage, hprocessing, hresult]
          exact Or.inr .confirm
        · rw [markPrepared, if_neg hprocessing]
          exact Or.inl rfl
    | save snapshot hstatus hsnapshot =>
        simp only [RoastReservation.job, RoastReservation.stage, hstatus]
        exact Or.inr (.save snapshot hsnapshot)
    | send hstatus hsome =>
        obtain ⟨result, hresult⟩ := Option.isSome_iff_exists.mp hsome
        simp only [RoastReservation.job, RoastReservation.stage, hstatus, hresult]
        exact Or.inr .send
    | complete e hstatus =>
        rw [completedRow_sending e hstatus]
        simp only [RoastReservation.job, RoastReservation.stage, hstatus]
        exact Or.inr .complete
    | release hstatus =>
        rcases hstatus with hstatus | hstatus
        · simp only [RoastReservation.job, RoastReservation.stage, hstatus]
          exact Or.inr .release
        · simp only [RoastReservation.job, RoastReservation.stage, hstatus]
          exact Or.inr .giveBack
    | _ => exact absurd (by assumption) hopen

theorem stage_waiting : row.stage = .waiting ↔ row.status = .pending := by
  unfold RoastReservation.stage
  cases row.status <;> simp

/-- A round that waits has waited all along. -/
theorem RoundStep.pending (h : RoundStep warrant rolls r r') (hpending : r'.row.status = .pending) :
    r.row.status = .pending := by
  rw [← stage_waiting] at hpending ⊢
  rcases h.job with hsame | hjob
  · exact (congrArg Delivery.Job.stage hsame).symm.trans hpending
  · exact absurd hpending hjob.stage_ne_waiting

/-- The feeds of a settled round are on record. -/
theorem RoundStep.results (h : RoundStep warrant rolls r r')
    (hsettled : r.row.outcomeSnapshot.isSome = true) :
    r'.row.dailyFeedResults = r.row.dailyFeedResults := by
  by_cases hopen : r.row.status = .pending
  · exact (h.waits hopen).columns.2.2.2
  · cases h with
    | busy req => exact (Waits.updateDeliveryCapability req).columns.2.2.2
    | settle snapshot results hstatus hnone => simp [hnone] at hsettled
    | confirmOutcome => unfold markPrepared; split_ifs <;> rfl
    | complete => unfold completedRow; split_ifs <;> rfl
    | capability | leaseNotice | lease | save | send | release => rfl
    | _ => exact absurd (by assumption) hopen

/-! ### Any number of steps -/

/-- A round is the same round all along. -/
theorem RoundSteps.key (h : RoundSteps warrant rolls r r') : r'.row.key = r.row.key :=
  h.keeps (P := fun r'' => r''.row.key = r.row.key)
    (fun _ _ hstep hkey => hstep.key.trans hkey) rfl

/-- Its delivery goes on step by step. -/
theorem RoundSteps.job (h : RoundSteps warrant rolls r r') :
    Delivery.Steps r.row.job r'.row.job := by
  refine h.keeps (P := fun r'' => Delivery.Steps r.row.job r''.row.job) ?_ .refl
  intro r₁ r₂ hstep hsteps
  rcases hstep.job with hsame | hjob
  · rw [hsame]
    exact hsteps
  · exact hsteps.tail hjob

/-- Its result is fixed once and for all, and so are the feeds it lists. -/
theorem RoundSteps.result (h : RoundSteps warrant rolls r r') {snapshot : OutcomeSnapshot}
    (hresult : r.row.outcomeSnapshot = some snapshot) :
    r'.row.outcomeSnapshot = some snapshot ∧
      r'.row.dailyFeedResults = r.row.dailyFeedResults := by
  refine h.keeps (P := fun r'' => r''.row.outcomeSnapshot = some snapshot ∧
    r''.row.dailyFeedResults = r.row.dailyFeedResults) ?_ ⟨hresult, rfl⟩
  rintro r₁ r₂ hstep ⟨hsnapshot, hfeeds⟩
  refine ⟨?_, ?_⟩
  · rcases hstep.job with hsame | hjob
    · exact (congrArg Delivery.Job.result hsame).trans hsnapshot
    · exact hjob.keeps_result hsnapshot
  · rw [hstep.results (by simp [hsnapshot]), hfeeds]

end RollPig
