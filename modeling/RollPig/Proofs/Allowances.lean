/-
The roast charges of a user across the whole cloud.

Two endpoints draw a charge, the consumption itself and a prepare that pays for a round, and a
refill of a group fills the charges of everybody it benefits.  Nothing else touches the bucket
of a user, so the user is answered as a bucket would answer that saw the user's own draws and
refills only.  For the window, a budget is carried along a run.  It is what the bucket still
owes until the window closes; a refill raises it by one capacity, however the refill is set.
-/
import RollPig.Proofs.RoastWindows
import RollPig.Proofs.Spending
import RollPig.Proofs.Constraints
import RollPig.Proofs.Usages

namespace RollPig

open Transition

variable {now closes chargeMax recoverSeconds t : Int} {b : Bucket} {user : String}
  {e : Env} {db db' : Db} {c c' : Cloud} {event : CloudEvent} {events : List CloudEvent}

/-! ### What happens to a bucket -/

inductive ChargeMove
  | draw (now chargeMax recoverSeconds : Int)
  | fill (chargeMax nowEpoch : Int)
deriving DecidableEq

/-- Whether the move is granted, and the bucket after it. -/
def ChargeMove.apply : ChargeMove → Bucket → Bool × Bucket
  | .draw now chargeMax recoverSeconds, b =>
      ((b.draw now chargeMax recoverSeconds).1.allowed, (b.draw now chargeMax recoverSeconds).2)
  | .fill chargeMax nowEpoch, _ => (false, .counted (max 0 chargeMax) nowEpoch)

/-- A bucket after some moves. -/
def Bucket.after (b : Bucket) (moves : List ChargeMove) : Bucket :=
  moves.foldl (fun b move => (move.apply b).2) b

/-- The draw of a request. -/
def chargeDraw (e : Env) (nowTs : Option Rat) (cooldownSeconds maxCharges : Option Int) :
    ChargeMove :=
  .draw (requestSeconds e nowTs) (clampChargeSettings maxCharges cooldownSeconds).1
    (clampChargeSettings maxCharges cooldownSeconds).2

/-- What a request of the service did to the charges of the user, and whether it was granted:
a prepare that drew shows the consumption in its answer. -/
def Event.charge (event : Event) (user : String) : Option (ChargeMove × Bool) :=
  match event.action, event.response with
  | .request (.consumeRoast req) _, .roast response =>
      if req.userId = user then
        some (chargeDraw event.env req.nowTs req.cooldownSeconds req.maxCharges, response.allowed)
      else none
  | .request (.prepare req) _, .prepare response =>
      if req.attackerId = user then
        response.cooldown.map fun cooldown =>
          (chargeDraw event.env req.nowTs req.cooldownSeconds req.maxCharges, cooldown.allowed)
      else none
  | _, _ => none

/-- What a step of the cloud did to them. -/
def CloudEvent.charge (event : CloudEvent) (user : String) : Option (ChargeMove × Bool) :=
  match event with
  | .api (.transaction event) => event.charge user
  | .refill e (.complete req) (.complete response) =>
      if response.completed ∧ user ∈ response.benefitedUserIds then
        some (.fill (clampChargeSettings (some req.maxCharges) none).1 (refillEpoch e req.nowTs),
          false)
      else none
  | _ => none

/-- The moves of a run on the charges of the user, and whether they were granted. -/
def chargesOf (user : String) (events : List CloudEvent) : List (ChargeMove × Bool) :=
  events.filterMap (·.charge user)

/-- A draw: its time and its settings. -/
def ChargeMove.draw? : ChargeMove → Option (Int × Int × Int)
  | .draw now chargeMax recoverSeconds => some (now, chargeMax, recoverSeconds)
  | .fill _ _ => none

/-- The roasts the user was granted. -/
def roastsGranted (user : String) (events : List CloudEvent) : Nat :=
  (chargesOf user events).countP (·.2)

/-- The refills that benefited the user. -/
def refillsOf (user : String) (events : List CloudEvent) : Nat :=
  ((chargesOf user events).map (·.1)).countP (·.draw?.isNone)

/-- The bucket of a user. -/
def Db.bucket (db : Db) (user : String) : Bucket := bucketOf (db.usage? user)

theorem Db.bucket_of_usage (h : db'.userUsage = db.userUsage) (user : String) :
    db'.bucket user = db.bucket user := by
  unfold Db.bucket Db.usage?
  rw [h]

/-- A force use leaves every bucket alone. -/
theorem consumeForceUsage_bucket {userId : String} {date : Date}
    (h : consumeForceUsage userId date db = some db') (user : String) :
    db'.bucket user = db.bucket user := by
  unfold Db.bucket
  unfold consumeForceUsage at h
  cases husage : db.usage? userId with
  | none =>
      rw [husage] at h
      obtain rfl := Option.some.inj h
      rw [usage?_insert husage]
      split_ifs with huser
      · rw [huser, husage]
        rfl
      · rfl
  | some usage =>
      have hid : usage.userId = userId := (Tables.lookup_some husage).2
      simp only [husage] at h
      split_ifs at h
      obtain rfl := Option.some.inj h
      have hold : db.usage? ({ usage with lastForceDate := some date } : UserUsage).userId =
          some usage := by
        rw [← hid] at husage
        exact husage
      rw [usage?_flushUsage hold, hid]
      split_ifs with huser
      · rw [huser, husage]
        rfl
      · rfl

/-! ### What a request does to the charges -/

/-- What was told of the charges is what happened to the bucket. -/
inductive Moved (b b' : Bucket) : Option (ChargeMove × Bool) → Prop
  | quiet (h : b' = b) : Moved b b' none
  | moved {move : ChargeMove} {granted : Bool} (h : move.apply b = (granted, b')) :
      Moved b b' (some (move, granted))

/-- A consumption is a draw of the user it is for. -/
theorem consumeRoastUsage_moved (e : Env) (userId : String) (nowTs : Option Rat)
    (cooldownSeconds maxCharges : Option Int) (db : Db) (user : String) :
    let result := consumeRoastUsage e userId nowTs cooldownSeconds maxCharges db
    Moved (db.bucket user) (result.2.bucket user)
      (if userId = user then
        some (chargeDraw e nowTs cooldownSeconds maxCharges, result.1.allowed) else none) := by
  obtain ⟨hanswer, hbuckets⟩ := consumeRoastUsage_draw e userId nowTs cooldownSeconds maxCharges db
    (Prod.eta _).symm
  have hbucket := hbuckets user
  intro result
  by_cases huser : userId = user
  · rw [if_pos huser]
    rw [if_pos huser.symm] at hbucket
    refine .moved ?_
    show (_, _) = (result.1.allowed, bucketOf (result.2.usage? user))
    rw [hbucket, hanswer, huser]
    rfl
  · rw [if_neg huser]
    rw [if_neg (Ne.symm huser)] at hbucket
    exact .quiet hbucket

/-- The answer shows no consumption, and there was none. -/
structure Unpaid (response : RoastReservationPrepareResponse) (db db' : Db) : Prop where
  shown : response.cooldown = none
  buckets : ∀ user, db'.bucket user = db.bucket user

/-- The answer shows the consumption that was made. -/
structure ShowsDraw (e : Env) (req : RoastReservationPrepareRequest)
    (response : RoastReservationPrepareResponse) (db db' : Db) : Prop where
  shown : response.cooldown = some (consumeRoast (roastCall e req) db).1
  buckets : ∀ user, db'.bucket user = (consumeRoast (roastCall e req) db).2.bucket user

variable {req : RoastReservationPrepareRequest} {response : RoastReservationPrepareResponse}

theorem answerJoin_cooldown (roll : Option DailyRoll) (row : RoastReservation)
    (members : List RoastReservationParticipant) (status : PrepareStatus) :
    (answerJoin e req roll row members status db).1.cooldown = none :=
  rfl

/-- Who meets an active round is shown no consumption. -/
theorem enterRound_cooldown (roll : Option DailyRoll) (row : RoastReservation) :
    (enterRound e req roll row db).1.cooldown = none := by
  have hjoin : ∀ members, (joinRound e req roll row members db).1.cooldown = none := by
    intro members
    unfold joinRound rejoinRound enlistRound
    dsimp only
    split
    · split
      · rfl
      · split
        · rfl
        · exact answerJoin_cooldown _ _ _ _
    · split
      · rfl
      · split
        · rfl
        · exact answerJoin_cooldown _ _ _ _
  unfold enterRound takeoverRound
  dsimp only
  split
  · rfl
  · split
    · rfl
    · split
      · split <;> rfl
      · exact hjoin _

theorem Admission.buckets {status : PrepareStatus} (h : Admission req db status db')
    (user : String) : db'.bucket user = db.bucket user := by
  cases h with
  | stays _ _ husage => exact Db.bucket_of_usage husage user
  | joins _ _ _ _ husage => exact Db.bucket_of_usage husage user
  | accelerates _ _ _ _ hpaid husage =>
      exact (Db.bucket_of_usage husage user).trans (consumeForceUsage_bucket hpaid user)
  | upgrades _ _ _ _ hpaid husage =>
      exact (Db.bucket_of_usage husage user).trans (consumeForceUsage_bucket hpaid user)

theorem enterRound_unpaid (roll : Option DailyRoll) (row : RoastReservation) :
    Unpaid (enterRound e req roll row db).1 db (enterRound e req roll row db).2 :=
  ⟨enterRound_cooldown roll row, (enterRound_admission e req roll row db).buckets⟩

/-- Paying for a round shows what was consumed. -/
theorem payForRound_shows :
    (∀ refusal, payForRound e req db = .error (refusal, db') →
        Unpaid refusal db db' ∨ ShowsDraw e req refusal db db') ∧
      ∀ cooldown, payForRound e req db = .ok (cooldown, db') →
        Unpaid { status := .reservationCreated, cooldown } db db' ∨
          ShowsDraw e req { status := .reservationCreated, cooldown } db db' := by
  unfold payForRound
  split
  · split
    · refine ⟨fun refusal hpay => Or.inl ?_, fun cooldown hpay => absurd hpay (by simp)⟩
      obtain ⟨rfl, rfl⟩ := Prod.mk.inj (Except.error.inj hpay)
      exact ⟨rfl, fun _ => rfl⟩
    · rename_i paid hpaid
      refine ⟨fun refusal hpay => absurd hpay (by simp), fun cooldown hpay => Or.inl ?_⟩
      obtain ⟨rfl, rfl⟩ := Prod.mk.inj (Except.ok.inj hpay)
      exact ⟨rfl, consumeForceUsage_bucket hpaid⟩
  · split
    · dsimp only
      split
      · refine ⟨fun refusal hpay => absurd hpay (by simp), fun cooldown hpay => Or.inr ?_⟩
        obtain ⟨rfl, rfl⟩ := Prod.mk.inj (Except.ok.inj hpay)
        exact ⟨rfl, fun _ => rfl⟩
      · refine ⟨fun refusal hpay => Or.inr ?_, fun cooldown hpay => absurd hpay (by simp)⟩
        obtain ⟨rfl, rfl⟩ := Prod.mk.inj (Except.error.inj hpay)
        exact ⟨rfl, fun _ => rfl⟩
    · refine ⟨fun refusal hpay => absurd hpay (by simp), fun cooldown hpay => Or.inl ?_⟩
      obtain ⟨rfl, rfl⟩ := Prod.mk.inj (Except.ok.inj hpay)
      exact ⟨rfl, fun _ => rfl⟩

theorem openRound_shows {roll : Option DailyRoll} {protection : Option GroupProtection}
    {reservationId : String}
    (h : openRound e req roll protection reservationId db = .ok (response, db')) :
    Unpaid response db db' ∨ ShowsDraw e req response db db' := by
  unfold openRound at h
  dsimp only at h
  split at h
  · obtain ⟨rfl, rfl⟩ := Prod.mk.inj (Except.ok.inj h)
    exact Or.inl ⟨rfl, fun _ => rfl⟩
  · split at h
    · rename_i refusal hpay
      obtain rfl := Except.ok.inj h
      exact payForRound_shows.1 _ hpay
    · rename_i cooldown paid hpay
      split at h
      · exact absurd h (by simp)
      · obtain ⟨rfl, rfl⟩ := Prod.mk.inj (Except.ok.inj h)
        have hbuckets : ∀ user, (insertRound e req roll protection reservationId paid).bucket user =
            paid.bucket user := Db.bucket_of_usage (by simp [insertRound])
        exact (payForRound_shows.2 _ hpay).imp
          (fun hnone => ⟨hnone.shown, fun user => (hbuckets user).trans (hnone.buckets user)⟩)
          fun hdraw => ⟨hdraw.shown, fun user => (hbuckets user).trans (hdraw.buckets user)⟩

/-- **A prepare draws one charge of the attacker, and shows it, or leaves all charges alone.**
A reply, which expects a round, leaves them alone. -/
theorem prepareReservation_shows {view : List DailyRoll} {expected : Option String}
    {reservationId : String}
    (h : prepareReservation e view req expected reservationId db = .ok (response, db')) :
    Unpaid response db db' ∨ expected = none ∧ ShowsDraw e req response db db' := by
  have hlock : (lockProtection req db).2.userUsage = db.userUsage := by simp
  have hunpaid : ∀ {response db'}, Unpaid response (lockProtection req db).2 db' →
      Unpaid response db db' := fun hnone =>
    ⟨hnone.shown, fun user => (hnone.buckets user).trans (Db.bucket_of_usage hlock user)⟩
  unfold prepareReservation at h
  dsimp only at h
  split at h
  · obtain ⟨rfl, rfl⟩ := Prod.mk.inj (Except.ok.inj h)
    exact Or.inl (hunpaid ⟨rfl, fun _ => rfl⟩)
  · split at h
    · obtain ⟨rfl, rfl⟩ := Prod.mk.inj (Except.ok.inj h)
      exact Or.inl (hunpaid ⟨rfl, fun _ => rfl⟩)
    · rename_i hexpects
      split at h
      · obtain ⟨rfl, rfl⟩ := Prod.mk.inj (Except.ok.inj h)
        exact Or.inl (hunpaid (enterRound_unpaid _ _))
      · rename_i hnone
        rcases openRound_shows h with hunspent | hdraw
        · exact Or.inl (hunpaid hunspent)
        · refine Or.inr ⟨?_, ?_⟩
          · cases expected with
            | none => rfl
            | some id => exact absurd (by rw [hnone]; rfl) hexpects
          · obtain ⟨hanswer, hbuckets⟩ := consumeRoast_serve (roastCall e req) db
            obtain ⟨hanswer', hbuckets'⟩ :=
              consumeRoast_serve (roastCall e req) (lockProtection req db).2
            have hsame : ∀ user, bucketOf ((lockProtection req db).2.usage? user) =
                bucketOf (db.usage? user) := Db.bucket_of_usage hlock
            refine ⟨hdraw.shown.trans ?_, fun user => (hdraw.buckets user).trans ?_⟩
            · rw [hanswer', hanswer, hsame]
            · show bucketOf _ = bucketOf _
              rw [hbuckets', hbuckets, hsame, hsame]

theorem joinByMessage_buckets {view : List DailyRoll} {reply : RoastReservationReplyJoinRequest}
    (h : joinByMessage e view reply db = .ok (response, db')) (user : String) :
    db'.bucket user = db.bucket user := by
  unfold joinByMessage at h
  have hstay : ∀ {status : PrepareStatus}, (Except.ok ({ status }, db) : Except DbError _) =
      .ok (response, db') → db'.bucket user = db.bucket user := by
    intro status hanswer
    obtain ⟨-, rfl⟩ := Prod.mk.inj (Except.ok.inj hanswer)
    rfl
  split at h
  · exact hstay h
  · dsimp only at h
    split at h
    · exact hstay h
    · split at h
      · exact hstay h
      · split at h
        · exact hstay h
        · split at h
          · exact hstay h
          · rename_i roll _
            split at h
            · exact absurd h (by simp)
            · rename_i answer replied hprepare
              have hreplied : replied.bucket user = db.bucket user := by
                rcases prepareReservation_shows hprepare with hnone | ⟨hexpected, -⟩
                · exact hnone.buckets user
                · exact absurd hexpected (by simp)
              split at h
              · obtain ⟨-, rfl⟩ := Prod.mk.inj (Except.ok.inj h)
                have husage := registerReply_writes e reply roll replied .userUsage (by decide)
                exact (Db.bucket_of_usage husage user).trans hreplied
              · obtain ⟨-, rfl⟩ := Prod.mk.inj (Except.ok.inj h)
                exact hreplied

/-- **What a step of the service does to the charges of a user.** -/
theorem service_charge {w w' : World} {event : Event} (hstep : service.step w event w')
    (user : String) : Moved (w.db.bucket user) (w'.db.bucket user) (event.charge user) := by
  obtain ⟨-, -, hresponse, rfl⟩ := hstep
  unfold Event.charge
  rw [hresponse]
  show Moved _ ((event.action.transaction event.env w.db).db.bucket user) _
  cases event.action with
  | reconcile flight =>
      exact .quiet (Db.bucket_of_usage (Flight.transaction_usage event.env w.db flight) user)
  | request r view =>
      cases r with
      | consumeForce req =>
          simp only [Action.transaction, Request.transaction]
          cases hforced : consumeForceUsage req.userId req.dateStr w.db with
          | none => exact .quiet rfl
          | some forced => exact .quiet (consumeForceUsage_bucket hforced user)
      | consumeRoast req =>
          exact consumeRoastUsage_moved event.env req.userId req.nowTs req.cooldownSeconds
            req.maxCharges w.db user
      | prepare req =>
          simp only [Action.transaction, Request.transaction]
          cases hprepared : prepareReservation event.env view req none (event.env.uuid 0) w.db with
          | error _ => exact .quiet rfl
          | ok result =>
              obtain ⟨response, db'⟩ := result
              dsimp only
              rcases prepareReservation_shows hprepared with hnone | ⟨-, hdraw⟩
              · rw [hnone.shown, Option.map_none, ite_self]
                exact .quiet (hnone.buckets user)
              · rw [hdraw.shown, hdraw.buckets user]
                exact consumeRoastUsage_moved event.env req.attackerId req.nowTs
                  req.cooldownSeconds req.maxCharges w.db user
      | joinByMessage req =>
          simp only [Action.transaction, Request.transaction]
          cases hjoined : joinByMessage event.env view req w.db with
          | error _ => exact .quiet rfl
          | ok result => exact .quiet (joinByMessage_buckets hjoined user)
      | _ => exact .quiet (Db.bucket_of_usage (Request.transaction_usage event.env w.db view rfl) user)

/-- A refill fills the charges of those it benefits, or the database stays. -/
theorem completeRefill_fills (e : Env) (req : GroupRoastRefillCompleteRequest) (s : RefillStore) :
    let result := completeRefill e req s
    (result.1.completed = false ∧ result.2.db = s.db) ∨
      result.1.completed = true ∧ result.1.benefitedUserIds.Nodup ∧
        result.2.db = resetRoastCharges result.1.benefitedUserIds
          (clampChargeSettings (some req.maxCharges) none).1 (refillEpoch e req.nowTs) s.db := by
  unfold completeRefill
  dsimp only
  split
  · exact Or.inl ⟨rfl, rfl⟩
  · split
    · exact Or.inl ⟨rfl, rfl⟩
    · split
      · exact Or.inl ⟨rfl, rfl⟩
      · split
        · exact Or.inl ⟨rfl, rfl⟩
        · split
          · exact Or.inl ⟨rfl, rfl⟩
          · exact Or.inr ⟨rfl, sortedSet_nodup _, rfl⟩

/-- A refill is a fill for everybody it benefits. -/
theorem completeRefill_moved (e : Env) (req : GroupRoastRefillCompleteRequest) (s : RefillStore)
    (user : String) :
    Moved (s.db.bucket user) ((completeRefill e req s).2.db.bucket user)
      (CloudEvent.charge (.refill e (.complete req) (.complete (completeRefill e req s).1)) user) := by
  unfold CloudEvent.charge
  dsimp only
  rcases completeRefill_fills e req s with ⟨hrefused, hdb⟩ | ⟨hdone, hnodup, hdb⟩
  · rw [if_neg (by simp [hrefused]), hdb]
    exact .quiet rfl
  · have hfilled := (resetRoastCharges_usage hnodup
      (clampChargeSettings (some req.maxCharges) none).1 (refillEpoch e req.nowTs) s.db).2 user
    unfold Db.bucket
    by_cases hmem : user ∈ (completeRefill e req s).1.benefitedUserIds
    · rw [if_pos ⟨hdone, hmem⟩, hdb, hfilled, if_pos hmem]
      exact .moved rfl
    · rw [if_neg fun h => hmem h.2, hdb, hfilled, if_neg hmem]
      exact .quiet rfl

/-- **What a step of the cloud does to the charges of a user.** -/
theorem cloud_charge (hactive : c.world.db.ActiveOnce) (hstep : cloud.step c event c')
    (user : String) :
    Moved (c.world.db.bucket user) (c'.world.db.bucket user) (event.charge user) := by
  cases event with
  | api operation =>
      obtain ⟨hapi, -⟩ := hstep
      cases operation with
      | transaction event => exact service_charge hapi user
      | markSeen e req =>
          have hseen : c'.world = c.world.seen e req := hapi
          rw [hseen]
          exact .quiet (Db.bucket_of_usage
            (markSeen_writes e req c.world.db .userUsage (by decide)) user)
  | markActive e date groupId userIds =>
      obtain rfl : c' = c.put (RoastRefills.markActiveUsers e date groupId userIds c.store).2 :=
        hstep
      exact .quiet (Db.bucket_of_usage
        (markGroupActiveUsers_writes e date groupId userIds c.world.db .userUsage (by decide)) user)
  | refill e request response =>
      obtain ⟨rfl, rfl⟩ := hstep
      by_cases hcomplete : ∃ req, request = .complete req
      · obtain ⟨req, rfl⟩ := hcomplete
        exact completeRefill_moved e req c.store user
      · have hnone : CloudEvent.charge (.refill e request (request.transaction e c.store).1) user =
            none := by
          cases request with
          | complete req => exact absurd ⟨req, rfl⟩ hcomplete
          | _ => rfl
        have hkept : (request.transaction e c.store).2.db = c.world.db :=
          RefillRequest.transaction_kept hactive fun req heq => hcomplete ⟨req, heq⟩
        rw [hnone]
        refine .quiet ?_
        show (request.transaction e c.store).2.db.bucket user = _
        rw [hkept]

/-- **The charges of a user are a bucket** that sees the user's draws and refills only. -/
theorem cloud_charges (hactive : c.world.db.ActiveOnce) (hrun : Run cloud c events c')
    (user : String) :
    (chargesOf user events).map (·.2) =
        answers ChargeMove.apply ((chargesOf user events).map (·.1)) (c.world.db.bucket user) ∧
      c'.world.db.bucket user =
        (c.world.db.bucket user).after ((chargesOf user events).map (·.1)) := by
  induction events generalizing c with
  | nil =>
      generalize hnil : ([] : List CloudEvent) = es at hrun
      cases hrun with
      | nil => exact ⟨rfl, rfl⟩
      | snoc => simp at hnil
  | cons event rest ih =>
      obtain ⟨between, hstep, hrest⟩ := hrun.of_cons
      obtain ⟨hanswers, hbucket⟩ := ih (cloud_active hstep hactive).1 hrest
      have hmoved := cloud_charge hactive hstep user
      cases hcharge : event.charge user with
      | none =>
          have hmoves : chargesOf user (event :: rest) = chargesOf user rest :=
            List.filterMap_cons_none hcharge
          rw [hcharge] at hmoved
          cases hmoved with
          | quiet hsame =>
              rw [hmoves, ← hsame]
              exact ⟨hanswers, hbucket⟩
      | some charge =>
          have hmoves : chargesOf user (event :: rest) = charge :: chargesOf user rest :=
            List.filterMap_cons_some hcharge
          rw [hcharge] at hmoved
          cases hmoved with
          | @moved move granted happly =>
              rw [hmoves, List.map_cons, List.map_cons]
              refine ⟨?_, ?_⟩
              · show granted :: _ = (move.apply _).1 :: answers ChargeMove.apply _ (move.apply _).2
                rw [happly, hanswers]
              · show _ = Bucket.after (move.apply _).2 _
                rw [happly, hbucket]

/-! ### A budget -/

/-- What a bucket that was drawn from by the time `t` still grants until the window closes. -/
def Bucket.budget (closes recoverSeconds t : Int) : Bucket → Int
  | .uncounted _ => 0
  | .counted charges updatedTs => creditOf closes recoverSeconds charges (min updatedTs t)

/-- The bucket grants no more than the budget: it was drawn from, and the budget covers what is
in it and what is to come, or the budget covers a full bucket. -/
def Bucket.Owes (chargeMax recoverSeconds closes t : Int) (b : Bucket) (budget : Int) : Prop :=
  (b.Drawn chargeMax t ∧ b.budget closes recoverSeconds t ≤ budget) ∨
    creditOf closes recoverSeconds chargeMax t ≤ budget

/-- No bucket is counted from a time to come, unless it was before. -/
theorem recoverCharges_past (hperiod : 1 ≤ recoverSeconds) {charges updatedTs left since : Int}
    (h : recoverCharges charges updatedTs now chargeMax recoverSeconds = (left, since))
    (hpast : orDefault (some updatedTs) now ≤ now) : since ≤ now := by
  unfold recoverCharges at h
  dsimp only at h
  set start := orDefault (some updatedTs) now
  have hdiv : max 0 (now - start) / recoverSeconds * recoverSeconds ≤ max 0 (now - start) :=
    Int.ediv_mul_le _ (by omega)
  split_ifs at h <;> obtain ⟨-, rfl⟩ := Prod.mk.inj h <;> omega

/-- Bringing a bucket forward leaves the budget. -/
theorem recovered_budget (hperiod : 1 ≤ recoverSeconds) {charges updatedTs left since : Int}
    (h : (Bucket.counted charges updatedTs).recovered now chargeMax recoverSeconds = (left, since))
    (hdrawn : (Bucket.counted charges updatedTs).Drawn chargeMax t) (hlater : t ≤ now)
    (hopen : now ≤ closes) :
    creditOf closes recoverSeconds left (min since now) ≤
      creditOf closes recoverSeconds charges (min updatedTs t) := by
  obtain ⟨hcharges, hspace, hzero⟩ := hdrawn
  set start := orDefault (some updatedTs) now with hstart
  have hstarts : min updatedTs t ≤ start := by
    rcases orDefault_eq updatedTs now with heq | heq <;> omega
  change recoverCharges charges start now chargeMax recoverSeconds = (left, since) at h
  rcases Int.lt_or_le now start with hfuture | hpast
  · -- nothing recovers before the time the bucket is counted from
    have hahead : now ≤ orDefault (some start) now := by
      rcases orDefault_eq start now with heq | heq <;> omega
    rw [recoverCharges_recent hcharges hspace (by omega)] at h
    obtain ⟨rfl, rfl⟩ := Prod.mk.inj h
    rw [Int.min_eq_right hahead]
    exact creditOf_anti hperiod (by omega)
  · have hzero' : start = 0 → 0 ≤ now := by omega
    have hsince : since ≤ now := by
      refine recoverCharges_past hperiod h ?_
      rcases orDefault_eq start now with heq | heq <;> omega
    rw [Int.min_eq_left hsince]
    exact Int.le_trans (recoverCharges_credit hperiod h hcharges hspace hzero' hopen)
      (creditOf_anti hperiod hstarts)

/-- Any bucket is brought forward to a full one at most. -/
theorem recovered_full (hmax : 1 ≤ chargeMax) (hperiod : 1 ≤ recoverSeconds) {left since : Int}
    (h : b.recovered now chargeMax recoverSeconds = (left, since)) (hopen : now ≤ closes) :
    creditOf closes recoverSeconds left (min since now) ≤
      creditOf closes recoverSeconds chargeMax now := by
  obtain ⟨-, hcap, hsettled, hfull, -⟩ := recovered_spec hmax hperiod h
  unfold creditOf
  by_cases hcapped : chargeMax ≤ left
  · rw [hfull hcapped, Int.min_self]
    omega
  · have hperiods : max 0 (closes - min since now) / recoverSeconds ≤
        (max 0 (closes - now) + 1 * recoverSeconds) / recoverSeconds :=
      Int.ediv_le_ediv (by omega) (by omega)
    rw [Int.add_mul_ediv_right _ _ (by omega)] at hperiods
    omega

/-- **A draw is paid out of the budget.** -/
theorem Bucket.Owes.draw (hmax : 1 ≤ chargeMax) (hperiod : 1 ≤ recoverSeconds) {budget : Int}
    (h : b.Owes chargeMax recoverSeconds closes t budget) (hlater : t ≤ now)
    (hopen : now ≤ closes) :
    (b.draw now chargeMax recoverSeconds).2.Owes chargeMax recoverSeconds closes now
      (budget - grantOf (b.draw now chargeMax recoverSeconds).1) := by
  cases hrecovered : b.recovered now chargeMax recoverSeconds with
  | mk left since =>
  obtain ⟨hleft, hcap, -, hfull, hzero⟩ := recovered_spec hmax hperiod hrecovered
  have hcovers : creditOf closes recoverSeconds left (min since now) ≤ budget := by
    rcases h with ⟨hdrawn, hbudget⟩ | hbudget
    · cases b with
      | uncounted lastUse => exact hdrawn.elim
      | counted charges updatedTs =>
          exact Int.le_trans (recovered_budget hperiod hrecovered hdrawn hlater hopen) hbudget
    · exact Int.le_trans (recovered_full hmax hperiod hrecovered hopen)
        (Int.le_trans (creditOf_anti hperiod hlater) hbudget)
  unfold grantOf
  by_cases hempty : left ≤ 0
  · obtain ⟨hrefused, hbucket⟩ := draw_empty hrecovered hempty
    have hnothing : max 0 left = left := by omega
    rw [hrefused, hbucket, hnothing]
    refine Or.inl ⟨⟨hleft, by omega, hzero⟩, ?_⟩
    show creditOf closes recoverSeconds left (min since now) ≤ budget - 0
    omega
  · obtain ⟨hallowed, -, hbucket⟩ := draw_left hrecovered (by omega)
    have hsince : (if chargeMax ≤ left then now else since) = since := by
      split_ifs with hcapped
      · exact (hfull hcapped).symm
      · rfl
    have hfewer : max 0 (left - 1) = left - 1 := by omega
    rw [hallowed, hbucket, hsince, hfewer]
    refine Or.inl ⟨⟨by omega, by omega, hzero⟩, ?_⟩
    show creditOf closes recoverSeconds (left - 1) (min since now) ≤ budget - 1
    unfold creditOf at hcovers ⊢
    omega

/-- **A refill raises the budget by the capacity**, whatever it fills the bucket with. -/
theorem Bucket.Owes.fill (hmax : 1 ≤ chargeMax) (hperiod : 1 ≤ recoverSeconds) {budget : Int}
    (h : b.Owes chargeMax recoverSeconds closes t budget) (b' : Bucket) :
    b'.Owes chargeMax recoverSeconds closes t (budget + chargeMax) := by
  refine Or.inr ?_
  rcases h with ⟨hdrawn, hbudget⟩ | hbudget
  · cases b with
    | uncounted lastUse => exact hdrawn.elim
    | counted charges updatedTs =>
        have hless : creditOf closes recoverSeconds charges t ≤
            creditOf closes recoverSeconds charges (min updatedTs t) :=
          creditOf_anti hperiod (by omega)
        have hcharges := hdrawn.1
        change creditOf closes recoverSeconds charges (min updatedTs t) ≤ budget at hbudget
        unfold creditOf at hless hbudget ⊢
        omega
  · omega

theorem Bucket.Owes.nonneg (hmax : 1 ≤ chargeMax) (hperiod : 1 ≤ recoverSeconds) {budget : Int}
    (h : b.Owes chargeMax recoverSeconds closes t budget) : 0 ≤ budget := by
  have hperiods : ∀ since, 0 ≤ max 0 (closes - since) / recoverSeconds := fun since =>
    Int.ediv_nonneg (by omega) (by omega)
  rcases h with ⟨hdrawn, hbudget⟩ | hbudget
  · cases b with
    | uncounted lastUse => exact hdrawn.elim
    | counted charges updatedTs =>
        have hcharges := hdrawn.1
        have hsome := hperiods (min updatedTs t)
        change creditOf closes recoverSeconds charges (min updatedTs t) ≤ budget at hbudget
        unfold creditOf at hbudget
        omega
  · have hsome := hperiods t
    unfold creditOf at hbudget
    omega

/-- The draws come in the order of their times, fall into the window and have the same settings. -/
structure SteadyDraws (chargeMax recoverSeconds opens closes : Int) (moves : List ChargeMove) :
    Prop where
  settings : ∀ draw ∈ moves.filterMap ChargeMove.draw?, draw.2 = (chargeMax, recoverSeconds)
  inside : ∀ draw ∈ moves.filterMap ChargeMove.draw?, opens ≤ draw.1 ∧ draw.1 ≤ closes
  sorted : (moves.filterMap ChargeMove.draw?).Pairwise fun draw draw' => draw.1 ≤ draw'.1

/-- **The grants keep to the budget**, by induction on the moves. -/
theorem Bucket.Owes.answers_le (hmax : 1 ≤ chargeMax) (hperiod : 1 ≤ recoverSeconds) {budget : Int}
    {moves : List ChargeMove} (h : b.Owes chargeMax recoverSeconds closes t budget)
    (hsteady : SteadyDraws chargeMax recoverSeconds t closes moves) :
    ((answers ChargeMove.apply moves b).countP id : Int) ≤
      budget + chargeMax * moves.countP (·.draw?.isNone) := by
  induction moves generalizing b t budget with
  | nil =>
      have := h.nonneg hmax hperiod
      simpa [answers] using this
  | cons move rest ih =>
      obtain ⟨hsettings, hinside, hsorted⟩ := hsteady
      cases move with
      | fill capacity nowEpoch =>
          have hthere := ih (h.fill hmax hperiod (.counted (max 0 capacity) nowEpoch))
            ⟨hsettings, hinside, hsorted⟩
          show (((false :: answers ChargeMove.apply rest _).countP id : Nat) : Int) ≤ _
          rw [List.countP_cons_of_neg (by simp), List.countP_cons_of_pos (by rfl)]
          refine Int.le_trans hthere (Int.le_of_eq ?_)
          push_cast
          ring
      | draw now capacity period =>
          have hcons : (ChargeMove.draw now capacity period :: rest).filterMap ChargeMove.draw? =
              (now, capacity, period) :: rest.filterMap ChargeMove.draw? := rfl
          rw [hcons] at hsettings hinside hsorted
          have hsame : (capacity, period) = (chargeMax, recoverSeconds) :=
            hsettings _ List.mem_cons_self
          obtain ⟨rfl, rfl⟩ := Prod.mk.inj hsame
          obtain ⟨hlater, hopen⟩ : t ≤ now ∧ now ≤ closes := hinside _ List.mem_cons_self
          rw [List.pairwise_cons] at hsorted
          have hthere := ih (h.draw hmax hperiod hlater hopen)
            ⟨fun draw hdraw => hsettings draw (List.mem_cons_of_mem _ hdraw),
              fun draw hdraw => ⟨hsorted.1 draw hdraw,
                (hinside draw (List.mem_cons_of_mem _ hdraw)).2⟩, hsorted.2⟩
          show ((((b.draw now capacity period).1.allowed ::
            answers ChargeMove.apply rest (b.draw now capacity period).2).countP id : Nat) : Int) ≤ _
          rw [List.countP_cons, List.countP_cons_of_neg (by simp [ChargeMove.draw?])]
          unfold grantOf at hthere
          push_cast at hthere ⊢
          simp only [id] at hthere ⊢
          omega

/-- **Roasts within a window, across the whole cloud**: in every run the user is answered as a
bucket that sees the user's own draws and refills.  So draws that come in order, with the same
settings and between two times, are granted the capacity, one more for each period, and one
capacity for each refill. -/
theorem roasts_in_window {before : List CloudEvent} (hbefore : Run cloud {} before c)
    (hrun : Run cloud c events c') (user : String) :
    let moves := (chargesOf user events).map (·.1)
    (chargesOf user events).map (·.2) =
        answers ChargeMove.apply moves (c.world.db.bucket user) ∧
      c'.world.db.bucket user = (c.world.db.bucket user).after moves ∧
      ∀ maxCharges cooldownSeconds opens length, 0 ≤ length →
        let settings := clampChargeSettings maxCharges cooldownSeconds
        SteadyDraws settings.1 settings.2 opens (opens + length) moves →
          (roastsGranted user events : Int) ≤
            settings.1 + length / settings.2 + settings.1 * refillsOf user events := by
  obtain ⟨hanswers, hbucket⟩ := cloud_charges (cloud_sound hbefore).active hrun user
  refine ⟨hanswers, hbucket, ?_⟩
  intro maxCharges cooldownSeconds opens length hlength settings hsteady
  obtain ⟨hmax, hperiod⟩ := clampChargeSettings_pos maxCharges cooldownSeconds
  have howes : (c.world.db.bucket user).Owes settings.1 settings.2 (opens + length) opens
      (settings.1 + length / settings.2) := by
    refine Or.inr ?_
    have hwhole : max 0 (opens + length - opens) = length := by omega
    unfold creditOf
    rw [hwhole]
  have hgranted : roastsGranted user events =
      ((chargesOf user events).map (·.2)).countP id := by
    rw [List.countP_map]
    rfl
  rw [hgranted, hanswers]
  exact howes.answers_le hmax hperiod hsteady

/-- User 1 draws at once, with two charges and a minute for each. -/
def hastyDraw : Time × Order :=
  (739000 * dayMicros, .request (.consumeRoast
    { userId := "1", nowTs := some 1000, cooldownSeconds := some 60, maxCharges := some 2 }))

/-- User 1 opens a round and pays with a charge. -/
def hastyRound : Time × Order :=
  (739000 * dayMicros, .request (.prepare
    { attackerId := "1", attackerPigId := "pig", targetId := "2", groupId := "7",
      deliveryBotId := "bot", dateStr := 739000, nowTs := some 1000, cooldownSeconds := some 60,
      maxCharges := some 2 }))

/-- What is played from a cloud, the first request having the number k. -/
def playFrom (k : Nat) (c : Cloud) (script : List (Time × Order)) : List CloudEvent × Cloud :=
  match play k c.world script with
  | some (events, w) =>
      (events.map fun event => .api (.transaction event), { world := w, requests := c.requests })
  | none => ([], c)

theorem playFrom_run {k : Nat} {c : Cloud} {script : List (Time × Order)}
    (hissued : ∀ j, k ≤ j → ∀ i, scriptToken j i ∉ c.world.issued)
    (hversion : c.world.db.dailyRolls ∈ c.world.rollVersions) :
    Run cloud c (playFrom k c script).1 (playFrom k c script).2 := by
  unfold playFrom
  split
  · rename_i events w hplay
    exact service_cloud_from c.requests (play_run hissued hversion hplay)
  · exact Run.nil

theorem playFrom_fresh {k : Nat} {c : Cloud} {script : List (Time × Order)}
    (hissued : ∀ j, k ≤ j → ∀ i, scriptToken j i ∉ c.world.issued)
    (hversion : c.world.db.dailyRolls ∈ c.world.rollVersions) :
    ∀ j, k + script.length ≤ j → ∀ i, scriptToken j i ∉ (playFrom k c script).2.world.issued := by
  unfold playFrom
  split
  · rename_i events w hplay
    exact (play_fresh hissued hversion hplay).1
  · exact fun j hj => hissued j (by omega)

/-- The group has voted for a refill. -/
def votedCloud : Cloud := (playCloud threeMarked boundVote).2

/-- User 1 draws three times. -/
def hastyBefore : List CloudEvent × Cloud :=
  playFrom 0 votedCloud [hastyDraw, hastyDraw, hastyDraw]

/-- The refill succeeds. -/
def hastyRefill : List CloudEvent × Cloud :=
  playCloud hastyBefore.2 [(midnightEnv, .complete allVote)]

/-- User 1 opens a round and draws twice. -/
def hastyAfter : List CloudEvent × Cloud :=
  playFrom 3 hastyRefill.2 [hastyRound, hastyDraw, hastyDraw]

/-- The bound is met. -/
theorem roasts_in_window_hasty :
    let events := hastyBefore.1 ++ (hastyRefill.1 ++ hastyAfter.1)
    (roastsGranted "1" events = 4 ∧ refillsOf "1" events = 1) ∧
      (roastsGranted "1" events : Int) ≤ 2 + 59 / 60 + 2 * refillsOf "1" events := by
  intro events
  have hmarked : Run cloud {} [.markActive midnightEnv 739000 "g" ["1", "2", "3"]] threeMarked :=
    Run.single rfl
  have hvoted : Run cloud {} _ votedCloud := hmarked.append (playCloud_run boundVote threeMarked)
  have hissued : ∀ j, 0 ≤ j → ∀ i, scriptToken j i ∉ votedCloud.world.issued := fun _ _ _ => id
  have hversion : votedCloud.world.db.dailyRolls ∈ votedCloud.world.rollVersions := by
    decide +kernel
  have hbefore : Run cloud votedCloud hastyBefore.1 hastyBefore.2 := playFrom_run hissued hversion
  have hrefill : Run cloud hastyBefore.2 hastyRefill.1 hastyRefill.2 := playCloud_run _ _
  have hfresh : ∀ j, 0 + [hastyDraw, hastyDraw, hastyDraw].length ≤ j →
      ∀ i, scriptToken j i ∉ hastyBefore.2.world.issued := playFrom_fresh hissued hversion
  have hafter : Run cloud hastyRefill.2 hastyAfter.1 hastyAfter.2 :=
    playFrom_run hfresh (by decide +kernel)
  have hwindow := (roasts_in_window hvoted (hbefore.append (hrefill.append hafter)) "1").2.2
    (some 2) (some 60) 1000 59 (by decide)
    ⟨by decide +kernel, by decide +kernel, by decide +kernel⟩
  exact ⟨⟨by decide +kernel, by decide +kernel⟩, hwindow⟩

end RollPig
