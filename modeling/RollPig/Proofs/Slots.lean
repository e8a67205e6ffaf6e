/-
One active round per target, and the round a prepare cannot see.

The unique key on the active slot keeps one round per target in progress, so whoever
opens a new one needs the slot to be free.  The lookup of `prepare_reservation` asks for
more than the slot, though: a round that is past `pending` and has no threshold is not
found.  That is harmless while its target is unprotected, for the target must be there
and the answer is that it is ready.  Once the target is protected the request goes on to
create a round in the slot that is taken, both times, and `prepare` gives up.
-/
import RollPig.Proofs.Ignition

namespace RollPig

open Transition

variable {warrant : Warrant} {rolls : List DailyRoll} {r r' : Round} {w w' : World} {event : Event}
  {db : Db}

/-! ### One active round per target -/

/-- What the unique key of the active rounds is about. -/
def RoastReservation.targetKey (row : RoastReservation) : Date × String × String :=
  (row.dateStr, row.groupId, row.targetId)

theorem targetKey_of_key {row row' : RoastReservation} (h : row'.key = row.key) :
    row'.targetKey = row.targetKey :=
  congrArg Prod.snd h

/-- A completed round stays completed. -/
theorem RoundStep.completed (h : RoundStep warrant rolls r r') (hdone : r.row.status = .completed) :
    r'.row.status = .completed := by
  have hstage : r.row.stage = .done r.row.claimToken := by
    unfold RoastReservation.stage
    rw [hdone]
  rcases h.job with hsame | hjob
  · have hstage' : r'.row.stage = .done r.row.claimToken :=
      (congrArg Delivery.Job.stage hsame).trans hstage
    unfold RoastReservation.stage at hstage'
    cases hstatus : r'.row.status with
    | completed => rfl
    | _ => simp [hstatus] at hstage'
  · exact absurd hstage hjob.stage_ne_done

/-- A round that holds the slot of its target held it before. -/
theorem RoundStep.active (h : RoundStep warrant rolls r r') (hslot : Slotted r.row)
    (hactive : r'.row.activeSlot = some 1) : r.row.activeSlot = some 1 := by
  have hslot' := h.slotted hslot
  unfold Slotted at hslot hslot'
  by_cases hdone : r.row.status = .completed
  · rw [hslot', if_pos (h.completed hdone)] at hactive
    exact absurd hactive (by simp)
  · rw [hslot, if_neg hdone]

theorem RoundSteps.slot (h : RoundSteps warrant rolls r r') (hslot : Slotted r.row) :
    Slotted r'.row ∧ r'.row.key = r.row.key ∧
      (r'.row.activeSlot = some 1 → r.row.activeSlot = some 1) := by
  induction h with
  | refl => exact ⟨hslot, rfl, id⟩
  | tail _ hlast ih =>
      obtain ⟨hbefore, hkey, hactive⟩ := ih
      exact ⟨hlast.slotted hbefore, hlast.key.trans hkey,
        fun hnow => hactive (hlast.active hbefore hnow)⟩

theorem RoundBirth.slotted (h : RoundBirth rolls r) : Slotted r.row := by
  obtain ⟨e, req, roll, protection, reservationId, -, -⟩ := h
  cases roll with
  | none => rfl
  | some roll =>
      show Slotted (activateReservation e _ _ roll.pigId false).1
      rcases activateReservation_cases e [ownerParticipant e req protection reservationId]
        (newReservation e req protection reservationId) roll.pigId false with
        ⟨-, heq⟩ | ⟨-, notice, heq⟩
      · rw [heq]
        rfl
      · rw [heq]
        rfl

/-- A target has one round in progress at most. -/
structure Db.Slots (db : Db) : Prop where
  slotted : ∀ row ∈ db.reservations, Slotted row
  unique : ∀ a ∈ db.reservations, ∀ b ∈ db.reservations, a.activeSlot = some 1 →
    b.activeSlot = some 1 → a.targetKey = b.targetKey → a = b

theorem activeSlotTaken_iff {date : Date} {groupId targetId : String} :
    activeSlotTaken db date groupId targetId = true ↔
      ∃ row ∈ db.reservations, row.targetKey = (date, groupId, targetId) ∧
        row.activeSlot = some 1 := by
  simp [activeSlotTaken, RoastReservation.targetKey, and_assoc]

/-- Rounds that evolve hold no slot they did not hold before. -/
theorem Evolves.slots {db' : Db} (h : Evolves warrant rolls db db') (hslots : db.Slots) :
    db'.Slots := by
  have hback : ∀ row' ∈ db'.reservations, ∃ row ∈ db.reservations,
      row.reservationId = row'.reservationId ∧ Slotted row' ∧ row'.key = row.key ∧
        (row'.activeSlot = some 1 → row.activeSlot = some 1) := by
    intro row' hrow'
    obtain ⟨row, hrow, hid, hsteps⟩ := h.rounds row' hrow'
    exact ⟨row, hrow, hid, hsteps.slot (hslots.slotted row hrow)⟩
  refine ⟨fun row' hrow' => ?_, fun a' ha' b' hb' haSlot hbSlot hkey => ?_⟩
  · obtain ⟨row, -, -, hslotted, -⟩ := hback row' hrow'
    exact hslotted
  · obtain ⟨a, ha, haId, -, haKey, haActive⟩ := hback a' ha'
    obtain ⟨b, hb, hbId, -, hbKey, hbActive⟩ := hback b' hb'
    have hsame : a.targetKey = b.targetKey :=
      (targetKey_of_key haKey).symm.trans (hkey.trans (targetKey_of_key hbKey))
    obtain rfl := hslots.unique a ha b hb (haActive haSlot) (hbActive hbSlot) hsame
    exact h.sound.ids.eq ha' hb' (haId.symm.trans hbId)

/-- A round is only created in a slot that is free. -/
theorem Creates.slots {e : Env} {req : RoastReservationPrepareRequest} {db' : Db}
    {row : RoastReservation} {owner : RoastReservationParticipant}
    (h : Creates rolls e req db db' row owner)
    (hslots : db.Slots) : db'.Slots := by
  have hfree : ∀ old ∈ db.reservations, old.activeSlot = some 1 → old.targetKey ≠ row.targetKey := by
    intro old hold hactive hkey
    have htaken := activeSlotTaken_iff.mpr ⟨old, hold, hkey, hactive⟩
    rw [h.free] at htaken
    exact absurd htaken (by simp)
  refine ⟨fun r hr => ?_, fun a ha b hb haSlot hbSlot hkey => ?_⟩
  · rw [h.reservations] at hr
    rcases List.mem_append.mp hr with hold | hnew
    · exact hslots.slotted r hold
    · obtain rfl := List.mem_singleton.mp hnew
      exact h.birth.slotted
  · rw [h.reservations] at ha hb
    rcases List.mem_append.mp ha with haOld | haNew
    · rcases List.mem_append.mp hb with hbOld | hbNew
      · exact hslots.unique a haOld b hbOld haSlot hbSlot hkey
      · obtain rfl := List.mem_singleton.mp hbNew
        exact absurd hkey (hfree a haOld haSlot)
    · obtain rfl := List.mem_singleton.mp haNew
      rcases List.mem_append.mp hb with hbOld | hbNew
      · exact absurd hkey.symm (hfree b hbOld hbSlot)
      · exact (List.mem_singleton.mp hbNew).symm

/-- **A target has one round in progress at most**, in every reachable world. -/
theorem slots_of_reachable (h : Reachable service w) : w.db.Slots := by
  refine Reachable.invariant (I := fun w => w.db.Slots) ?_ ?_ h
  · intro w hinit
    obtain rfl : w = {} := hinit
    exact ⟨by simp, by simp⟩
  · intro w event w' hreach hslots hstep
    cases (sound_of_reachable hreach).step_rounds hstep with
    | evolves hevolves => exact hevolves.slots hslots
    | creates req view row owner haction hcreates hflight => exact hcreates.slots hslots

/-! ### Who is there -/

/-- Who rolled a pig of the day is there. -/
theorem presentRoll_of_rolled (hunique : Tables.Unique rollKey rolls) {date : Date}
    {userId pigId : String} (h : Rolled rolls date userId pigId) :
    ∃ roll, presentRoll rolls date userId = some roll ∧ roll.pigId = pigId := by
  obtain ⟨roll, hroll, rfl, rfl, rfl, hmakeup⟩ := h
  have hfind : (rolls.find? fun r => r.dateStr = roll.dateStr ∧ r.userId = roll.userId) =
      some roll := by
    rw [← hunique.find? hroll]
    congr 1
    funext r
    simp [rollKey]
  refine ⟨roll, ?_, rfl⟩
  unfold presentRoll
  rw [hfind, Option.filter_some, if_pos (by simp [hmakeup])]

/-- The target of a round past `pending` is there. -/
theorem presentRoll_of_opened (h : Reachable service w) {row : RoastReservation}
    (hrow : row ∈ w.db.reservations) (hopened : row.status ≠ .pending) :
    ∃ roll, presentRoll w.db.dailyRolls row.dateStr row.targetId = some roll := by
  obtain ⟨hrolled, -⟩ := (rounds_ignited h row hrow).opens (decide_eq_true hopened)
  obtain ⟨roll, hroll, -⟩ := presentRoll_of_rolled (sound_of_reachable h).rolls hrolled
  exact ⟨roll, hroll⟩

/-! ### The round a prepare cannot see -/

variable {e : Env} {req : RoastReservationPrepareRequest}

/-- The target is protected, in the group or everywhere. -/
def targetProtected (req : RoastReservationPrepareRequest) (db : Db) : Bool :=
  (db.protection? req.dateStr req.groupId req.targetId).isSome ||
    (db.protection? req.dateStr allGroups req.targetId).isSome

/-- The attacker can pay for a new round: a normal force takes the force use of the day, a
super force nothing, and anything else a roast charge. -/
def canPay (e : Env) (req : RoastReservationPrepareRequest) (db : Db) : Bool :=
  if req.forceMode = some "normal" then (consumeForceUsage req.attackerId req.dateStr db).isSome
  else if req.forceMode = some "super" then true
  else (consumeRoastUsage e req.attackerId req.nowTs req.cooldownSeconds req.maxCharges db).1.allowed

theorem lockProtection_isSome : (lockProtection req db).1.isSome = targetProtected req db := by
  unfold lockProtection targetProtected
  cases db.protection? req.dateStr req.groupId req.targetId with
  | some protection => rfl
  | none =>
      dsimp only
      cases db.protection? req.dateStr allGroups req.targetId with
      | none => rfl
      | some legacy =>
          dsimp only
          split_ifs <;> rfl

/-- The usage table decides who can pay. -/
theorem canPay_congr {db' : Db} (h : db'.userUsage = db.userUsage) :
    canPay e req db' = canPay e req db := by
  have husage : db'.usage? req.attackerId = db.usage? req.attackerId := by
    unfold Db.usage?
    rw [h]
  unfold canPay consumeForceUsage consumeRoastUsage
  rw [husage]
  cases db.usage? req.attackerId with
  | none => rfl
  | some usage =>
      dsimp only
      split_ifs <;> rfl

theorem payForRound_ok_iff :
    (∃ payment, payForRound e req db = .ok payment) ↔ canPay e req db = true := by
  unfold payForRound canPay
  by_cases hnormal : req.forceMode = some "normal"
  · rw [if_pos hnormal, if_pos hnormal]
    cases consumeForceUsage req.attackerId req.dateStr db <;> simp
  · rw [if_neg hnormal, if_neg hnormal]
    by_cases hsuper : req.forceMode = some "super"
    · simp [hsuper]
    · rw [if_pos hsuper, if_neg hsuper]
      dsimp only
      split_ifs with hallowed
      · simp [hallowed]
      · simp [hallowed]

/-- The request gets as far as creating a round: it may aim at this target, it sees no
active round, the answer is not that the target is ready, and the attacker can pay. -/
structure Creating (e : Env) (req : RoastReservationPrepareRequest) (db : Db) : Prop where
  admitted : targetProtected req db = true → req.gathers = true ∨ req.forceMode = some "super"
  unseen : findRound req db = none
  unready : ((presentRoll db.dailyRolls req.dateStr req.targetId).filter fun _ =>
    !targetProtected req db ||
      (req.forceMode = some "super" && !req.supportsProtectionGathering)) = none
  paid : canPay e req db = true

/-- **A prepare transaction fails exactly when it creates a round in a slot that is
taken.** -/
theorem prepareReservation_error_iff {reservationId : String} :
    (∃ error, prepareReservation e db.dailyRolls req none reservationId db = .error error) ↔
      Creating e req db ∧ activeSlotTaken db req.dateStr req.groupId req.targetId = true := by
  unfold prepareReservation
  dsimp only
  rw [findRound_lockProtection, lockProtection_isSome]
  by_cases hgate : targetProtected req db = true ∧ (!req.gathers) = true ∧
      req.forceMode ≠ some "super"
  · rw [if_pos hgate]
    obtain ⟨hprotected, hgathers, hforce⟩ := hgate
    have hrefused : ¬ Creating e req db := by
      intro hcreating
      rcases hcreating.admitted hprotected with hyes | hsuper
      · simp [hyes] at hgathers
      · exact hforce hsuper
    simp [hrefused]
  · rw [if_neg hgate, expectationFails, if_neg (by simp)]
    have hadmitted : targetProtected req db = true →
        req.gathers = true ∨ req.forceMode = some "super" := by
      intro hprotected
      by_contra hno
      push Not at hno
      exact hgate ⟨hprotected, by simpa using hno.1, hno.2⟩
    cases hfind : findRound req db with
    | some row =>
        have hseen : ¬ Creating e req db := fun hcreating => by simp [hcreating.unseen] at hfind
        simp [hseen]
    | none =>
        dsimp only
        unfold openRound
        dsimp only
        rw [lockProtection_isSome]
        cases hready : (presentRoll db.dailyRolls req.dateStr req.targetId).filter fun _ =>
            !targetProtected req db ||
              (req.forceMode = some "super" && !req.supportsProtectionGathering) with
        | some roll =>
            have hanswered : ¬ Creating e req db := fun hcreating => by
              simp [hcreating.unready] at hready
            simp [hanswered]
        | none =>
            dsimp only
            have hpay : canPay e req (lockProtection req db).2 = canPay e req db :=
              canPay_congr (by simp)
            cases hpaid : payForRound e req (lockProtection req db).2 with
            | error refusal =>
                have hpoor : ¬ Creating e req db := by
                  intro hcreating
                  obtain ⟨payment, hok⟩ := payForRound_ok_iff.mpr (hpay.trans hcreating.paid)
                  simp [hok] at hpaid
                simp [hpoor]
            | ok payment =>
                obtain ⟨cooldown, paid⟩ := payment
                have hcreating : Creating e req db :=
                  ⟨hadmitted, hfind, hready, hpay.symm.trans (payForRound_ok_iff.mp ⟨_, hpaid⟩)⟩
                have htaken : activeSlotTaken paid req.dateStr req.groupId req.targetId =
                    activeSlotTaken db req.dateStr req.groupId req.targetId := by
                  rw [activeSlotTaken_onlyUsage (payForRound_ok hpaid)]
                  simp [activeSlotTaken]
                dsimp only
                rw [htaken]
                by_cases hslot : activeSlotTaken db req.dateStr req.groupId req.targetId = true
                · rw [if_pos hslot]
                  exact ⟨fun _ => ⟨hcreating, hslot⟩, fun _ => ⟨_, rfl⟩⟩
                · simp [hslot]

/-- The retry meets the same tables, and fails like the first attempt. -/
theorem prepare_error_iff :
    (¬ ∃ answer, prepare e req db = .ok answer) ↔
      Creating e req db ∧ activeSlotTaken db req.dateStr req.groupId req.targetId = true := by
  have hattempt : ∀ reservationId, (∃ error, prepareAttempt e req reservationId db = .error error) ↔
      Creating e req db ∧ activeSlotTaken db req.dateStr req.groupId req.targetId = true := by
    intro reservationId
    rw [← prepareReservation_error_iff]
    unfold prepareAttempt
    cases prepareReservation e db.dailyRolls req none reservationId db with
    | error error => simp
    | ok result =>
        dsimp only
        split_ifs <;> simp
  rw [← hattempt (e.uuid 0)]
  unfold prepare
  cases hfirst : prepareAttempt e req (e.uuid 0) db with
  | ok answer => simp
  | error error =>
      have hsecond := (hattempt (e.uuid 1)).mpr ((hattempt (e.uuid 0)).mp ⟨error, hfirst⟩)
      obtain ⟨error', hsecond⟩ := hsecond
      cases error
      dsimp only
      rw [hsecond]
      exact ⟨fun _ => ⟨_, rfl⟩, fun _ => by simp⟩

/-- The target is protected, and its round in progress is one without a threshold that is
past `pending`: it was opened before the protection came. -/
structure Stuck (e : Env) (req : RoastReservationPrepareRequest) (db : Db) : Prop where
  force : req.forceMode ≠ some "super"
  gathers : req.gathers = true
  isProtected : targetProtected req db = true
  paid : canPay e req db = true
  outrun : ∃ row ∈ db.reservations, row.targetKey = (req.dateStr, req.groupId, req.targetId) ∧
    row.activeSlot = some 1 ∧ row.status ≠ .pending ∧ row.protectionRequired = 0

theorem stuck_iff (h : Reachable service w) :
    Creating e req w.db ∧ activeSlotTaken w.db req.dateStr req.groupId req.targetId = true ↔
      Stuck e req w.db := by
  constructor
  · rintro ⟨hcreating, htaken⟩
    obtain ⟨row, hrow, hkey, hactive⟩ := activeSlotTaken_iff.mp htaken
    obtain ⟨hdate, hgroup, htarget⟩ : row.dateStr = req.dateStr ∧ row.groupId = req.groupId ∧
        row.targetId = req.targetId := by simpa [RoastReservation.targetKey] using hkey
    have hmissed := List.find?_eq_none.mp hcreating.unseen row hrow
    simp only [hdate, hgroup, htarget, hactive, true_and, decide_eq_true_eq, not_or] at hmissed
    obtain ⟨hopened, hrequired, hforce⟩ := hmissed
    obtain ⟨roll, hroll⟩ := presentRoll_of_opened h hrow hopened
    rw [hdate, htarget] at hroll
    have hprotected : targetProtected req w.db = true := by
      have hunready := hcreating.unready
      rw [hroll] at hunready
      simpa [hforce] using hunready
    exact ⟨hforce, (hcreating.admitted hprotected).resolve_right hforce, hprotected, hcreating.paid,
      row, hrow, hkey, hactive, hopened, by omega⟩
  · rintro ⟨hforce, hgathers, hprotected, hpaid, row, hrow, hkey, hactive, hopened, hrequired⟩
    refine ⟨⟨fun _ => Or.inl hgathers, ?_, ?_, hpaid⟩,
      activeSlotTaken_iff.mpr ⟨row, hrow, hkey, hactive⟩⟩
    · refine List.find?_eq_none.mpr fun other hother hfound => ?_
      simp only [decide_eq_true_eq] at hfound
      obtain ⟨hdate, hgroup, htarget, hslot, hseen⟩ := hfound
      -- the slot has one holder, and that one is not looked for
      have hsame : other.targetKey = row.targetKey := by
        rw [hkey, RoastReservation.targetKey, hdate, hgroup, htarget]
      obtain rfl := (slots_of_reachable h).unique other hother row hrow hslot hactive hsame
      rcases hseen with hpending | hthreshold | hsuper
      · exact hopened hpending
      · omega
      · exact hforce hsuper
    · simp [hprotected, hforce]

/-- **A prepare returns exactly when it is not stuck.**  In a reachable world a request
executed alone is answered, and creates a round only in a free slot, unless the target is
protected and its round in progress was opened before the protection came. -/
theorem prepare_returns_iff (h : Reachable service w) (e : Env)
    (req : RoastReservationPrepareRequest) :
    ((∃ answer, prepare e req w.db = .ok answer) ∧
      (Creating e req w.db →
        activeSlotTaken w.db req.dateStr req.groupId req.targetId = false)) ↔
      ¬ Stuck e req w.db := by
  rw [← stuck_iff h]
  constructor
  · rintro ⟨-, hfree⟩ ⟨hcreating, htaken⟩
    rw [hfree hcreating] at htaken
    exact absurd htaken (by simp)
  · intro hno
    refine ⟨by_contra fun hgivesUp => hno (prepare_error_iff.mp hgivesUp), fun hcreating => ?_⟩
    rw [← Bool.not_eq_true]
    exact fun htaken => hno ⟨hcreating, htaken⟩

/-- User 1 aims at user 2, who rolls a pig, which opens the round; only then is user 2
granted a protection. -/
def outrunScript : List (Time × Order) :=
  let day : Date := 739000
  let now : Time := 739000 * dayMicros
  [(now, .request (.prepare
      { attackerId := "1", attackerPigId := "pig", targetId := "2", groupId := "7",
        deliveryBotId := "bot", dateStr := day })),
    (now, .finish 0),
    (now, .request (.getOrCreate { userId := "2", proposedPigId := "boar", dateStr := day })),
    (now, .finish 0),
    (now, .request (.grant scriptGrant))]

/-- User 3 aims at user 2 with a client that knows gathering. -/
def lateRequest (forceMode : Option String) : RoastReservationPrepareRequest :=
  { attackerId := "3", attackerPigId := "pig", targetId := "2", groupId := "7",
    deliveryBotId := "bot", dateStr := 739000, forceMode
    supportsProtectionGathering := true, protectionGatheringVersion := 2 }

theorem prepare_returns_iff_super :
    ∃ answer, prepare (scriptEnv 5 (739000 * dayMicros)) (lateRequest (some "super"))
      (scriptWorld outrunScript).db = .ok answer :=
  ((prepare_returns_iff (script_reachable (by decide +kernel)) _ _).mpr
    fun hstuck => hstuck.force rfl).1

/-- The ordinary request of user 3 is never answered. -/
theorem prepare_gives_up :
    ¬ ∀ w, Reachable service w → ∀ e req,
      (∃ answer, prepare e req w.db = .ok answer) ∧
        (Creating e req w.db →
          activeSlotTaken w.db req.dateStr req.groupId req.targetId = false) := by
  intro hclaim
  have hreach : Reachable service (scriptWorld outrunScript) :=
    script_reachable (by decide +kernel)
  obtain ⟨⟨answer, hanswer⟩, -⟩ :=
    hclaim _ hreach (scriptEnv 5 (739000 * dayMicros)) (lateRequest none)
  have hexhausted : (prepare (scriptEnv 5 (739000 * dayMicros)) (lateRequest none)
      (scriptWorld outrunScript).db).isOk = false := by decide +kernel
  rw [hanswer] at hexhausted
  exact absurd hexhausted (by simp [Except.isOk, Except.toBool])

end RollPig
