/-
One force use per user and date, and when it is more.

The quota of a date is the last date a user forced on.  A use is refused on that date alone,
so dates that come in order are granted once each; a date that comes again after a later one
is granted again.
-/
import RollPig.Proofs.Usages
import RollPig.Proofs.Payers
import RollPig.Proofs.Spending

namespace RollPig

open Transition

variable {e : Env} {db db' : Db} {w w' : World} {event : Event}
  {req : RoastReservationPrepareRequest} {row : RoastReservation}

/-! ### Uses of the force -/

/-- A use of the force: a user and a date. -/
abbrev ForceUse := String × Date

/-- The use a prepare asks for. -/
def RoastReservationPrepareRequest.force (req : RoastReservationPrepareRequest) : Option ForceUse :=
  if req.forceMode = some "normal" then some (req.attackerId, req.dateStr) else none

/-- The round in the answer is protected. -/
def RoastReservationPrepareResponse.guarded (response : RoastReservationPrepareResponse) : Bool :=
  match response.reservation with
  | some item => 0 < item.protectionRequired
  | none => false

/-- A prepare that forces was granted: a round was created, or joined by an accelerated join,
or the contribution to it was raised. -/
def RoastReservationPrepareResponse.forces (response : RoastReservationPrepareResponse) : Bool :=
  response.status = .reservationCreated || response.status = .reservationUpgraded ||
    (response.status = .reservationJoined && response.guarded)

/-- The use of the force a request asks for. -/
def Action.force : Action → Option ForceUse
  | .request (.consumeForce req) _ => some (req.userId, req.dateStr)
  | .request (.prepare req) _ => req.force
  | _ => none

/-- The use of the force a request was granted. -/
def Event.granted (event : Event) : Option ForceUse :=
  match event.action, event.response with
  | .request (.consumeForce req) _, .ok true => some (req.userId, req.dateStr)
  | .request (.prepare req) _, .prepare response => if response.forces then req.force else none
  | _, _ => none

/-- The mark of the last use after a step: it stays, and nothing was granted, or it moves to
the date that was asked for and granted. -/
inductive ForceStep (asked granted : Option ForceUse) (db db' : Db) : Prop
  | quiet (hgranted : granted = none) (hday : forceDay db' = forceDay db)
  | spends (use : ForceUse) (hasked : asked = some use) (hgranted : granted = some use)
      (hunused : forceDay db use.1 ≠ some use.2)
      (hday : forceDay db' = Function.update (forceDay db) use.1 (some use.2))

theorem ForceStep.of_usage {asked granted : Option ForceUse} {db₁ : Db}
    (h : ForceStep asked granted db₁ db') (husage : db₁.userUsage = db.userUsage) :
    ForceStep asked granted db db' := by
  have hsame : forceDay db₁ = forceDay db := forceDay_of_usage husage
  cases h with
  | quiet hgranted hday => exact .quiet hgranted (hday.trans hsame)
  | spends use hasked hgranted hunused hday =>
      exact .spends use hasked hgranted (hsame ▸ hunused) (hsame ▸ hday)

/-! ### Through a prepare -/

/-- What a prepare that meets a round does to the usage: nothing, or it pays for the boost it
grants. -/
structure BoostPaid (req : RoastReservationPrepareRequest) (row : RoastReservation) (db : Db)
    (result : RoastReservationPrepareResponse × Db) : Prop where
  plain : boosts req row = false → result.2.userUsage = db.userUsage
  refused : result.1.status ≠ .reservationJoined → result.1.status ≠ .reservationUpgraded →
    result.2.userUsage = db.userUsage
  boosted : boosts req row = true →
    result.1.status = .reservationJoined ∨ result.1.status = .reservationUpgraded →
      ∃ paid, consumeForceUsage req.attackerId req.dateStr db = some paid ∧
        result.2.userUsage = paid.userUsage

theorem BoostPaid.same {result : RoastReservationPrepareResponse × Db}
    (husage : result.2.userUsage = db.userUsage)
    (hstatus : boosts req row = true → result.1.status ≠ .reservationJoined ∧
      result.1.status ≠ .reservationUpgraded) : BoostPaid req row db result :=
  ⟨fun _ => husage, fun _ _ => husage, fun hboost hin =>
    absurd hin (not_or.mpr (hstatus hboost))⟩

/-- Joining pays for a boost. -/
theorem answerJoin_paid (e : Env) (roll : Option DailyRoll)
    (members : List RoastReservationParticipant) {status : PrepareStatus} {paid written : Db}
    (hstatus : status = .reservationJoined ∨ status = .reservationUpgraded)
    (hpaid : payBoost req (boosts req row) db = some paid)
    (hwritten : written.userUsage = paid.userUsage) :
    BoostPaid req row db (answerJoin e req roll row members status written) := by
  have husage : (answerJoin e req roll row members status written).2.userUsage =
      paid.userUsage := by
    simp [answerJoin, hwritten]
  unfold payBoost at hpaid
  refine ⟨fun hplain => ?_, fun hjoined hupgraded => ?_, fun hboost _ => ⟨paid, ?_, husage⟩⟩
  · rw [hplain, if_neg (by simp)] at hpaid
    obtain rfl := Option.some.inj hpaid
    exact husage
  · exact absurd hstatus (not_or.mpr ⟨hjoined, hupgraded⟩)
  · rwa [hboost, if_pos rfl] at hpaid

theorem joinRound_paid (e : Env) (roll : Option DailyRoll)
    (members : List RoastReservationParticipant) :
    BoostPaid req row db (joinRound e req roll row members db) := by
  unfold joinRound
  split
  · rename_i participant _
    unfold rejoinRound
    dsimp only
    by_cases hagain : ¬ (boosts req row = true ∧ participant.contribution < 2) ∧
        req.forceMode ≠ some "super"
    · rw [if_pos hagain]
      exact .same rfl fun _ => by simp
    · rw [if_neg hagain]
      cases hpaid : payBoost req (boosts req row) db with
      | none => exact .same rfl fun _ => by simp
      | some paid =>
          refine answerJoin_paid e roll _ ?_ hpaid rfl
          cases boosts req row <;> simp
  · unfold enlistRound
    dsimp only
    by_cases hfull : roastReservationMaxParticipants ≤ members.length
    · rw [if_pos hfull]
      exact .same rfl fun _ => by simp
    · rw [if_neg hfull]
      cases hpaid : payBoost req (boosts req row) db with
      | none => exact .same rfl fun _ => by simp
      | some paid => exact answerJoin_paid e roll _ (Or.inl rfl) hpaid rfl

theorem enterRound_paid (e : Env) (roll : Option DailyRoll) :
    BoostPaid req row db (enterRound e req roll row db) := by
  unfold enterRound
  dsimp only
  by_cases hopen : row.status = .pending
  · rw [if_neg (by simp [hopen])]
    by_cases hforce : row.forceMode = some "super"
    · rw [if_pos hforce]
      refine .same rfl fun _ => ?_
      dsimp only
      split_ifs <;> simp
    · rw [if_neg hforce]
      by_cases hreq : req.forceMode = some "super"
      · have hplain : boosts req row = false := by simp [boosts, hreq]
        rw [if_pos hreq]
        refine .same ?_ fun hboost => absurd hboost (by simp [hplain])
        split_ifs <;> simp [takeoverRound]
      · rw [if_neg hreq]
        exact joinRound_paid e roll _
  · rw [if_pos hopen]
    exact .same rfl fun _ => by simp

/-- Who joins sees the round. -/
theorem joinRound_shown {roll : Option DailyRoll} {members : List RoastReservationParticipant}
    (h : (joinRound e req roll row members db).1.status = .reservationJoined ∨
      (joinRound e req roll row members db).1.status = .reservationUpgraded) :
    ∃ item, (joinRound e req roll row members db).1.reservation = some item := by
  unfold joinRound at h ⊢
  split at h
  · unfold rejoinRound at h ⊢
    dsimp only at h ⊢
    split at h
    · simp at h
    · rename_i hagain
      rw [if_neg hagain]
      split at h
      · simp at h
      · exact ⟨_, rfl⟩
  · unfold enlistRound at h ⊢
    dsimp only at h ⊢
    split at h
    · simp at h
    · rename_i hroom
      rw [if_neg hroom]
      split at h
      · simp at h
      · exact ⟨_, rfl⟩

/-- The answer to a forcing prepare that met a round tells whether it boosted. -/
theorem enterRound_forces {roll : Option DailyRoll} (hreq : req.forceMode = some "normal") :
    (enterRound e req roll row db).1.forces = true ↔
      boosts req row = true ∧ ((enterRound e req roll row db).1.status = .reservationJoined ∨
        (enterRound e req roll row db).1.status = .reservationUpgraded) := by
  have hnosuper : req.forceMode ≠ some "super" := by simp [hreq]
  unfold RoastReservationPrepareResponse.forces
  simp only [Bool.or_eq_true, Bool.and_eq_true, decide_eq_true_eq]
  constructor
  · rintro ((hcreated | hupgraded) | ⟨hjoined, hguarded⟩)
    · exact absurd hcreated (enterRound_not_created req roll)
    · obtain ⟨-, hround⟩ := enterRound_joins hnosuper (Or.inr hupgraded)
      exact ⟨joinRound_upgrades (hround ▸ hupgraded), Or.inr hupgraded⟩
    · obtain ⟨-, hround⟩ := enterRound_joins hnosuper (Or.inl hjoined)
      refine ⟨?_, Or.inl hjoined⟩
      rw [hround] at hguarded
      unfold RoastReservationPrepareResponse.guarded at hguarded
      split at hguarded
      · rename_i item hitem
        rw [(joinRound_item hnosuper hitem).2, decide_eq_true_eq] at hguarded
        simp [boosts, hguarded, hreq]
      · simp at hguarded
  · rintro ⟨hboost, hjoined | hupgraded⟩
    · refine Or.inr ⟨hjoined, ?_⟩
      obtain ⟨-, hround⟩ := enterRound_joins hnosuper (Or.inl hjoined)
      rw [hround] at hjoined ⊢
      obtain ⟨item, hitem⟩ := joinRound_shown (Or.inl hjoined)
      unfold RoastReservationPrepareResponse.guarded
      rw [hitem, decide_eq_true_eq, (joinRound_item hnosuper hitem).2]
      simp only [boosts, Bool.and_eq_true, decide_eq_true_eq] at hboost
      exact hboost.1
    · exact Or.inl (Or.inr hupgraded)

theorem force_normal (hreq : req.forceMode = some "normal") :
    req.force = some (req.attackerId, req.dateStr) :=
  if_pos hreq

theorem force_none (hreq : req.forceMode ≠ some "normal") : req.force = none :=
  if_neg hreq

/-- A granted consumption moves the mark. -/
theorem ForceStep.consumed {user : String} {date : Date} {paid : Db}
    (hpaid : consumeForceUsage user date db = some paid)
    (husage : db'.userUsage = paid.userUsage) :
    ForceStep (some (user, date)) (some (user, date)) db db' := by
  obtain ⟨hunused, hday, -⟩ := consumeForceUsage_day hpaid
  exact .spends (user, date) rfl rfl hunused ((forceDay_of_usage husage).trans hday)

theorem enterRound_forceStep (e : Env) (roll : Option DailyRoll) :
    ForceStep req.force (if (enterRound e req roll row db).1.forces then req.force else none) db
      (enterRound e req roll row db).2 := by
  have hpaid : BoostPaid req row db (enterRound e req roll row db) := enterRound_paid e roll
  by_cases hreq : req.forceMode = some "normal"
  · by_cases hforces : (enterRound e req roll row db).1.forces = true
    · obtain ⟨hboost, hin⟩ := (enterRound_forces hreq).mp hforces
      obtain ⟨paid, hconsumed, husage⟩ := hpaid.boosted hboost hin
      rw [if_pos hforces, force_normal hreq]
      exact .consumed hconsumed husage
    · rw [if_neg hforces]
      refine .quiet rfl (forceDay_of_usage ?_)
      by_cases hboost : boosts req row = true
      · have hout := fun hin => hforces ((enterRound_forces hreq).mpr ⟨hboost, hin⟩)
        exact hpaid.refused (fun hjoined => hout (Or.inl hjoined)) fun hupgraded =>
          hout (Or.inr hupgraded)
      · exact hpaid.plain (by simpa using hboost)
  · have hplain : boosts req row = false := by simp [boosts, hreq]
    refine .quiet ?_ (forceDay_of_usage (hpaid.plain hplain))
    rw [force_none hreq, ite_self]

/-- **What a prepare does to the mark.** -/
theorem Prepared.forceStep {view : List DailyRoll} {expected : Option String}
    {reservationId : String} {response : RoastReservationPrepareResponse}
    (h : Prepared e view req expected reservationId db response db') :
    ForceStep req.force (if response.forces then req.force else none) db db' := by
  have hlock : (lockProtection req db).2.userUsage = db.userUsage := by simp
  refine ForceStep.of_usage ?_ hlock
  cases h with
  | refused hresponse hreservation hframe hpayment =>
      have hnothing : response.forces = false := by
        simp only [RoastReservationPrepareResponse.reconciles, Bool.or_eq_false_iff,
          decide_eq_false_iff_not] at hresponse
        obtain ⟨⟨⟨hcreated, hjoined⟩, hupgraded⟩, -⟩ := hresponse
        simp [RoastReservationPrepareResponse.forces, hcreated, hjoined, hupgraded]
      refine .quiet (by simp [hnothing]) ?_
      rcases hpayment with rfl | hrefused
      · rfl
      · exact payForRound_refused_day hrefused
  | entered hfind => exact enterRound_forceStep e _
  | created hexpected hfind hgate hpaid hfree hstatus hreservation =>
      have hgranted : response.forces = true := by
        simp [RoastReservationPrepareResponse.forces, hstatus]
      obtain ⟨hnormal, hsuper, hplain⟩ := payForRound_paid hpaid
      rw [hgranted, if_pos rfl]
      by_cases hreq : req.forceMode = some "normal"
      · obtain ⟨⟨hunused, hday⟩, -⟩ := hnormal hreq
        refine .spends _ (force_normal hreq) (force_normal hreq) hunused ?_
        exact (forceDay_of_usage (by simp [insertRound])).trans hday
      · refine .quiet (force_none hreq) ?_
        rw [forceDay_of_usage (show _ = Db.userUsage _ by simp [insertRound]; rfl)]
        by_cases htakes : req.forceMode = some "super"
        · rw [hsuper htakes]
        · exact (hplain hreq htakes).2

/-! ### Through a transaction -/

theorem joinByMessage_forceDay {view : List DailyRoll} {req : RoastReservationReplyJoinRequest}
    {response : RoastReservationPrepareResponse}
    (h : joinByMessage e view req db = .ok (response, db')) : forceDay db' = forceDay db := by
  rcases joinByMessage_cases h with
    rfl | ⟨reservation, roll, expected, replied, -, hprepared, hreplied⟩
  · rfl
  · have hreply : (replyRequest req reservation roll).force = none := rfl
    have hday : forceDay replied = forceDay db := by
      cases hprepared.forceStep with
      | quiet _ hday => exact hday
      | spends use hasked =>
          rw [hreply] at hasked
          simp at hasked
    rcases hreplied with rfl | rfl
    · exact hday
    · have husage := registerReply_writes e req roll replied .userUsage (by decide)
      exact (forceDay_of_usage husage).trans hday

/-- **What a step does to the mark.** -/
theorem step_force (hstep : service.step w event w') :
    ForceStep event.action.force event.granted w.db w'.db := by
  obtain ⟨-, -, hresponse, rfl⟩ := hstep
  unfold Event.granted
  rw [hresponse]
  show ForceStep _ _ w.db (event.action.transaction event.env w.db).db
  cases event.action with
  | reconcile flight =>
      exact .quiet rfl (forceDay_of_usage (Flight.transaction_usage event.env w.db flight))
  | request r view =>
      cases r with
      | consumeForce req =>
          simp only [Action.transaction, Request.transaction]
          cases hforced : consumeForceUsage req.userId req.dateStr w.db with
          | none => exact .quiet rfl rfl
          | some forced => exact .consumed hforced rfl
      | consumeRoast req =>
          exact .quiet rfl (consumeRoastUsage_day event.env _ _ _ _ w.db)
      | prepare req =>
          simp only [Action.transaction, Request.transaction]
          cases hprepared : prepareReservation event.env view req none (event.env.uuid 0) w.db with
          | error _ => exact .quiet rfl rfl
          | ok result => exact (prepareReservation_cases hprepared).forceStep
      | joinByMessage req =>
          simp only [Action.transaction, Request.transaction]
          cases hjoined : joinByMessage event.env view req w.db with
          | error _ => exact .quiet rfl rfl
          | ok result => exact .quiet rfl (joinByMessage_forceDay hjoined)
      | _ =>
          refine .quiet rfl (forceDay_of_usage ?_)
          exact Request.transaction_usage event.env w.db view rfl

/-! ### Dates that come in order -/

/-- No force use is asked for on a date before the one the user forced on last. -/
def Event.ForcesInOrder (event : Event) (w : World) : Prop :=
  ∀ use last, event.action.force = some use → forceDay w.db use.1 = some last → last ≤ use.2

/-- Runs in which the dates of every user come in order. -/
def orderlyForces : System World Event where
  init := service.init
  step w event w' := service.step w event w' ∧ event.ForcesInOrder w

/-- The uses a run granted. -/
def grantedForces (events : List Event) : List ForceUse := events.filterMap Event.granted

/-- **A user is granted one force use for a date**, in every run whose dates come in order. -/
theorem force_once_per_date {w₀ : World} {events : List Event}
    (h : Run orderlyForces w₀ events w) : (grantedForces events).Nodup := by
  -- the mark of a user has reached every date the user was granted
  have hmarked : (grantedForces events).Nodup ∧ ∀ use ∈ grantedForces events,
      ∃ last, forceDay w.db use.1 = some last ∧ use.2 ≤ last := by
    induction h with
    | nil => exact ⟨List.nodup_nil, by simp [grantedForces]⟩
    | @snoc t u events event hrun hstep ih =>
        obtain ⟨hnodup, hreached⟩ := ih
        have happend : grantedForces (events ++ [event]) =
            grantedForces events ++ event.granted.toList := by
          unfold grantedForces
          rw [List.filterMap_append]
          cases hgranted : event.granted <;> simp [hgranted]
        rw [happend]
        cases step_force hstep.1 with
        | quiet hgranted hday =>
            rw [hgranted, hday, Option.toList_none, List.append_nil]
            exact ⟨hnodup, hreached⟩
        | spends use hasked hgranted hunused hday =>
            have hnew : use ∉ grantedForces events := by
              intro hold
              obtain ⟨last, hlast, hle⟩ := hreached use hold
              have hsame : last = use.2 := Int.le_antisymm (hstep.2 use last hasked hlast) hle
              exact hunused (hsame ▸ hlast)
            rw [hgranted, hday, Option.toList_some]
            refine ⟨List.concat_eq_append ▸ hnodup.concat hnew, fun other hother => ?_⟩
            by_cases huser : other.1 = use.1
            · refine ⟨use.2, by rw [huser, Function.update_self], ?_⟩
              rcases List.mem_append.mp hother with hold | hlast
              · obtain ⟨last, hlast, hle⟩ := hreached other hold
                rw [huser] at hlast
                exact Int.le_trans hle (hstep.2 use last hasked hlast)
              · rw [List.mem_singleton.mp hlast]
            · rw [Function.update_of_ne huser]
              rcases List.mem_append.mp hother with hold | hlast
              · exact hreached other hold
              · exact absurd (congrArg Prod.fst (List.mem_singleton.mp hlast)) huser
  exact hmarked.1

/-! ### Two days, and a day that comes again -/

def useForce (date : Date) : Request := .consumeForce { userId := "1", dateStr := date }

/-- Two bots serve user 1 around midnight; the one that is behind asks once more. -/
def midnightScript : List (Time × Order) :=
  [(739000 * dayMicros, .request (useForce 739000)),
    (739000 * dayMicros, .request (useForce 739001)),
    (739000 * dayMicros, .request (useForce 739000))]

/-- The day before midnight is granted again after the day that follows. -/
theorem force_twice_at_midnight :
    ∃ events w, Run service {} events w ∧
      grantedForces events = [("1", 739000), ("1", 739001), ("1", 739000)] ∧
        ¬ (grantedForces events).Nodup := by
  refine ⟨scriptEvents midnightScript, scriptWorld midnightScript,
    script_run (by decide +kernel), ?_, ?_⟩
  all_goals decide +kernel

/-- Without the last request the dates come in order. -/
theorem force_once_per_date_midnight :
    (grantedForces [scriptEvent [] (739000 * dayMicros) (useForce 739000),
      scriptEvent (midnightScript.take 1) (739000 * dayMicros) (useForce 739001)]).Nodup := by
  have hstart : (play 0 {} []).isSome = true := rfl
  have hfirst := script_step hstart (739000 * dayMicros) (useForce 739000)
  rw [← scriptWorld_snoc hstart] at hfirst
  have hfront : (play 0 {} (midnightScript.take 1)).isSome = true := by decide +kernel
  have hsecond := script_step hfront (739000 * dayMicros) (useForce 739001)
  have hfree : forceDay (scriptWorld []).db "1" = none := by decide +kernel
  have hmark : forceDay (scriptWorld (midnightScript.take 1)).db "1" = some 739000 := by
    decide +kernel
  have horder : (scriptEvent [] (739000 * dayMicros) (useForce 739000)).ForcesInOrder
      (scriptWorld []) := by
    rintro use last hasked hlast
    obtain rfl := Option.some.inj hasked
    rw [hfree] at hlast
    simp at hlast
  have horder' : (scriptEvent (midnightScript.take 1) (739000 * dayMicros)
      (useForce 739001)).ForcesInOrder (scriptWorld (midnightScript.take 1)) := by
    rintro use last hasked hlast
    obtain rfl := Option.some.inj hasked
    obtain rfl := Option.some.inj (hmark.symm.trans hlast)
    decide
  have hgranted : orderlyForces.step (scriptWorld [])
      (scriptEvent [] (739000 * dayMicros) (useForce 739000))
      (scriptWorld (midnightScript.take 1)) := ⟨hfirst, horder⟩
  exact force_once_per_date ((Run.single hgranted).snoc ⟨hsecond, horder'⟩)

end RollPig
