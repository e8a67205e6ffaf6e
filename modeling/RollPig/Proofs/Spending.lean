/-
Users pay for what they get, and for nothing else.

A prepare has some fifteen exits.  `Admission` sorts those through an active round by
what they do to the roster and to the attacker's force; the others are refusals and the
creation of a round.  What is paid and what is granted then agree exit by exit.
-/
import RollPig.Proofs.Charges
import RollPig.Proofs.Ignition
import RollPig.Proofs.Transactions

namespace RollPig

variable {e : Env} {req : RoastReservationPrepareRequest} {row : RoastReservation} {db db' : Db}

/-! ### Entering a round -/

/-- What meeting an active round does to the roster, and who pays for it. -/
inductive Admission (req : RoastReservationPrepareRequest) (db : Db) : PrepareStatus → Db → Prop
  /-- The roster stays, and nobody pays. -/
  | stays {status : PrepareStatus} {db' : Db} 
      (hcreated : status ≠ .reservationCreated) (hupgraded : status ≠ .reservationUpgraded)
      (husage : db'.userUsage = db.userUsage) (hmembers : db'.participants = db.participants)
      (hids : db'.reservations.map (·.reservationId) = db.reservations.map (·.reservationId)) :
      Admission req db status db'
  /-- The attacker joins. -/
  | joins {db' : Db} (member : RoastReservationParticipant) (huser : member.userId = req.attackerId)
      (hnew : memberKey member ∉ db.participants.map memberKey)
      (hsingle : member.contribution = 1) (husage : db'.userUsage = db.userUsage)
      (hmembers : db'.participants = db.participants ++ [member]) :
      Admission req db .reservationJoined db'
  /-- The attacker pays a force use and joins with a double contribution. -/
  | accelerates {paid db' : Db} (member : RoastReservationParticipant)
      (huser : member.userId = req.attackerId)
      (hnew : memberKey member ∉ db.participants.map memberKey)
      (hdouble : member.contribution = 2)
      (hpaid : consumeForceUsage req.attackerId req.dateStr db = some paid)
      (husage : db'.userUsage = paid.userUsage)
      (hmembers : db'.participants = db.participants ++ [member]) :
      Admission req db .reservationJoined db'
  /-- The attacker pays a force use and counts double from now on. -/
  | upgrades {paid db' : Db} (member : RoastReservationParticipant) (hmember : member ∈ db.participants)
      (huser : member.userId = req.attackerId) (hsingle : member.contribution < 2)
      (hpaid : consumeForceUsage req.attackerId req.dateStr db = some paid)
      (husage : db'.userUsage = paid.userUsage)
      (hmembers : db'.participants =
        Tables.writeBack memberKey [{ member with contribution := 2 }] db.participants) :
      Admission req db .reservationUpgraded db'

theorem rejoinRound_admission (e : Env) (hreq : req.forceMode ≠ some "super")
    (roll : Option DailyRoll) {member : RoastReservationParticipant}
    (hmember : member ∈ db.members row.reservationId) (huser : member.userId = req.attackerId) :
    Admission req db
      (rejoinRound e req roll row (db.members row.reservationId) member db).1.status
      (rejoinRound e req roll row (db.members row.reservationId) member db).2 := by
  unfold rejoinRound
  dsimp only
  by_cases hagain : ¬ (boosts req row = true ∧ member.contribution < 2) ∧
      req.forceMode ≠ some "super"
  · rw [if_pos hagain]
    exact .stays (by simp) (by simp) rfl rfl Tables.map_key_writeBack
  · rw [if_neg hagain]
    obtain ⟨hboost, hsingle⟩ : boosts req row = true ∧ member.contribution < 2 := by
      by_contra hno
      exact hagain ⟨hno, hreq⟩
    simp only [hboost, if_true, payBoost]
    cases hpaid : consumeForceUsage req.attackerId req.dateStr db with
    | none => exact .stays (by simp) (by simp) rfl rfl rfl
    | some paid =>
        have hframe : paid = { db with userUsage := paid.userUsage } := consumeForceUsage_some hpaid
        refine .upgrades member (Db.mem_members.mp hmember).1 huser hsingle hpaid ?_ ?_
        · simp [answerJoin]
        · rw [hframe]
          simp [answerJoin]
          rfl

theorem enlistRound_admission (e : Env) (roll : Option DailyRoll)
    (hnew : ∀ member ∈ db.members row.reservationId, member.userId ≠ req.attackerId) :
    Admission req db (enlistRound e req roll row (db.members row.reservationId) db).1.status
      (enlistRound e req roll row (db.members row.reservationId) db).2 := by
  unfold enlistRound
  dsimp only
  have hkey : ∀ contribution, memberKey (newParticipant e row.reservationId req contribution) ∉
      db.participants.map memberKey := by
    intro contribution hold
    obtain ⟨member, hmember, hkey⟩ := List.mem_map.mp hold
    have hid : member.reservationId = row.reservationId := congrArg Prod.fst hkey
    exact hnew member (Db.mem_members.mpr ⟨hmember, hid⟩) (congrArg Prod.snd hkey)
  by_cases hfull : roastReservationMaxParticipants ≤ (db.members row.reservationId).length
  · rw [if_pos hfull]
    exact .stays (by simp) (by simp) rfl rfl rfl
  · rw [if_neg hfull]
    by_cases hboost : boosts req row = true
    · simp only [hboost, if_true, payBoost]
      cases hpaid : consumeForceUsage req.attackerId req.dateStr db with
      | none => exact .stays (by simp) (by simp) rfl rfl rfl
      | some paid =>
          have hframe : paid = { db with userUsage := paid.userUsage } :=
            consumeForceUsage_some hpaid
          refine .accelerates (newParticipant e row.reservationId req 2) rfl (hkey 2) rfl hpaid ?_ ?_
          · simp [answerJoin]
          · rw [hframe]
            simp [answerJoin]
    · simp only [hboost, payBoost]
      refine .joins (newParticipant e row.reservationId req 1) rfl (hkey 1) rfl ?_ ?_
      · simp [answerJoin]
      · simp [answerJoin]

/-- **What meeting an active round costs.** -/
theorem enterRound_admission (e : Env) (req : RoastReservationPrepareRequest)
    (roll : Option DailyRoll) (row : RoastReservation) (db : Db) :
    Admission req db (enterRound e req roll row db).1.status (enterRound e req roll row db).2 := by
  have hids : ∀ rows : List RoastReservation,
      (db.flushReservations rows).reservations.map (·.reservationId) =
        db.reservations.map (·.reservationId) := fun rows => Tables.map_key_writeBack
  unfold enterRound
  dsimp only
  by_cases hopen : row.status = .pending
  · rw [if_neg (by simp [hopen])]
    by_cases hforce : row.forceMode = some "super"
    · rw [if_pos hforce]
      refine .stays ?_ ?_ rfl rfl rfl
      · dsimp only
        split_ifs <;> simp
      · dsimp only
        split_ifs <;> simp
    · rw [if_neg hforce]
      by_cases hreq : req.forceMode = some "super"
      · rw [if_pos hreq]
        by_cases hgathers : (!req.gathers) = true
        · rw [if_pos hgathers]
          exact .stays (by simp) (by simp) rfl rfl rfl
        · rw [if_neg hgathers]
          refine .stays (by simp [takeoverRound]) (by simp [takeoverRound]) ?_ ?_ ?_
          · simp [takeoverRound]
          · simp [takeoverRound]
          · have hmark : (markGroupActiveUsers e req.dateStr req.groupId [req.attackerId]
                db).reservations = db.reservations := by simp
            rw [← hmark]
            exact Tables.map_key_writeBack
      · rw [if_neg hreq]
        unfold joinRound
        cases hfind : (db.members row.reservationId).find? fun member =>
            member.userId = req.attackerId with
        | some member =>
            have huser : member.userId = req.attackerId := by simpa using List.find?_some hfind
            exact rejoinRound_admission e hreq roll (List.mem_of_find?_eq_some hfind) huser
        | none =>
            refine enlistRound_admission e roll fun member hmember => ?_
            simpa using List.find?_eq_none.mp hfind member hmember
  · rw [if_pos hopen]
    exact .stays (by simp) (by simp) rfl rfl (hids _)

/-! ### Spending -/

/-- The consume call a prepare makes. -/
def roastCall (e : Env) (req : RoastReservationPrepareRequest) : Env × ConsumeRoastRequest :=
  (e, { userId := req.attackerId, nowTs := req.nowTs, cooldownSeconds := req.cooldownSeconds
        maxCharges := req.maxCharges })

/-- One roast charge of the attacker is used up: the charges are those after one consumption
that was allowed. -/
def SpendsCharge (e : Env) (req : RoastReservationPrepareRequest) (db db' : Db) : Prop :=
  (consumeRoast (roastCall e req) db).1.allowed = true ∧
    SameCharges (consumeRoast (roastCall e req) db).2 db'

/-- The attacker's force of the day is used up, and nobody else's. -/
def SpendsForce (req : RoastReservationPrepareRequest) (db db' : Db) : Prop :=
  forceDay db req.attackerId ≠ some req.dateStr ∧
    forceDay db' = Function.update (forceDay db) req.attackerId (some req.dateStr)

/-- The attacker is put on a roster with contribution two, or is raised to it. -/
def DoublesAttacker (req : RoastReservationPrepareRequest) (db db' : Db) : Prop :=
  ∃ member ∈ db'.participants, member.userId = req.attackerId ∧ member.contribution = 2 ∧
    ∀ old ∈ db.participants, memberKey old = memberKey member → old.contribution < 2

instance : Decidable (DoublesAttacker req db db') := by
  unfold DoublesAttacker
  infer_instance

theorem not_spendsCharge (h : SameCharges db db') : ¬ SpendsCharge e req db db' := by
  rintro ⟨hallowed, hconsumed⟩
  exact consumeRoast_allowed hallowed (h.trans hconsumed.symm)

theorem not_spendsForce (h : forceDay db' = forceDay db) : ¬ SpendsForce req db db' := by
  rintro ⟨hunused, hused⟩
  rw [h] at hused
  refine hunused ?_
  rw [hused, Function.update_self]

/-- Only the usage table counts for what is spent. -/
theorem SpendsCharge.congr {db₁ : Db} (h : SpendsCharge e req db₁ db')
    (husage : db₁.userUsage = db.userUsage) : SpendsCharge e req db db' := by
  obtain ⟨hanswer, hcharges⟩ := consumeRoast_congr husage (roastCall e req)
  exact ⟨hanswer ▸ h.1, hcharges.trans h.2⟩

theorem not_doublesAttacker_same (h : db'.participants = db.participants) :
    ¬ DoublesAttacker req db db' := by
  rintro ⟨member, hmember, -, hdouble, hold⟩
  rw [h] at hmember
  have hless := hold member hmember rfl
  omega

theorem not_doublesAttacker_single {member : RoastReservationParticipant}
    (h : db'.participants = db.participants ++ [member]) (hsingle : member.contribution = 1) :
    ¬ DoublesAttacker req db db' := by
  rintro ⟨new, hnew, -, hdouble, hold⟩
  rw [h] at hnew
  rcases List.mem_append.mp hnew with hthere | hlast
  · have hless := hold new hthere rfl
    omega
  · obtain rfl := List.mem_singleton.mp hlast
    omega

/-! ### What is paid is what is granted -/

/-- What a request is charged, and what for. -/
structure Charged (e : Env) (req : RoastReservationPrepareRequest) (db : Db)
    (status : PrepareStatus) (db' : Db) : Prop where
  charge : SpendsCharge e req db db' ↔ status = .reservationCreated ∧
    req.forceMode ≠ some "normal" ∧ req.forceMode ≠ some "super"
  force : SpendsForce req db db' ↔
    (status = .reservationCreated ∧ req.forceMode = some "normal") ∨ DoublesAttacker req db db'
  charges : ¬ SpendsCharge e req db db' → SameCharges db db'
  forces : ¬ SpendsForce req db db' → forceDay db' = forceDay db
  rosters : status ≠ .reservationCreated → status ≠ .reservationJoined →
    status ≠ .reservationUpgraded →
      db'.reservations.map (·.reservationId) = db.reservations.map (·.reservationId) ∧
        db'.participants = db.participants

/-- Nothing is spent and nothing is granted. -/
theorem Charged.nothing {status : PrepareStatus} (hstatus : status ≠ .reservationCreated)
    (hcharges : SameCharges db db') (hforces : forceDay db' = forceDay db)
    (hids : db'.reservations.map (·.reservationId) = db.reservations.map (·.reservationId))
    (hmembers : db'.participants = db.participants) : Charged e req db status db' where
  charge := iff_of_false (not_spendsCharge hcharges) fun h => hstatus h.1
  force := iff_of_false (not_spendsForce hforces) fun h =>
    h.elim (fun hcreated => hstatus hcreated.1) (not_doublesAttacker_same hmembers)
  charges _ := hcharges
  forces _ := hforces
  rosters _ _ _ := ⟨hids, hmembers⟩

/-- The attacker's force is spent for a double contribution. -/
theorem Charged.doubled {paid : Db} {status : PrepareStatus} (hstatus : status ≠ .reservationCreated)
    (hchanged : status = .reservationJoined ∨ status = .reservationUpgraded)
    (hpaid : consumeForceUsage req.attackerId req.dateStr db = some paid)
    (husage : db'.userUsage = paid.userUsage) (hdoubles : DoublesAttacker req db db') :
    Charged e req db status db' := by
  obtain ⟨hunused, hday, hcharges⟩ := consumeForceUsage_day hpaid
  have hforce : SpendsForce req db db' := ⟨hunused, (forceDay_of_usage husage).trans hday⟩
  have hsame : SameCharges db db' := hcharges.trans (SameCharges.of_usage husage)
  refine ⟨?_, ?_, fun _ => hsame, fun h => absurd hforce h, fun _ hjoined hupgraded => ?_⟩
  · exact iff_of_false (not_spendsCharge hsame) fun h => hstatus h.1
  · exact iff_of_true hforce (Or.inr hdoubles)
  · exact (hchanged.elim hjoined hupgraded).elim

/-- Meeting an active round is charged for a double contribution only. -/
theorem Admission.charged {status : PrepareStatus} (h : Admission req db status db')
    (hunique : Tables.Unique memberKey db.participants) : Charged e req db status db' := by
  cases h with
  | stays hcreated hupgraded husage hmembers hids =>
      exact .nothing hcreated (.of_usage husage) (forceDay_of_usage husage) hids hmembers
  | joins member huser hnew hsingle husage hmembers =>
      have hcharges : SameCharges db db' := .of_usage husage
      have hforces : forceDay db' = forceDay db := forceDay_of_usage husage
      refine ⟨?_, ?_, fun _ => hcharges, fun _ => hforces, fun _ hjoined _ => absurd rfl hjoined⟩
      · exact iff_of_false (not_spendsCharge hcharges) fun h => absurd h.1 (by simp)
      · refine iff_of_false (not_spendsForce hforces) fun h => ?_
        rcases h with hcreated | hdoubles
        · exact absurd hcreated.1 (by simp)
        · exact not_doublesAttacker_single hmembers hsingle hdoubles
  | accelerates member huser hnew hdouble hpaid husage hmembers =>
      refine .doubled (by simp) (Or.inl rfl) hpaid husage ?_
      refine ⟨member, ?_, huser, hdouble, fun old hold hkey => ?_⟩
      · rw [hmembers]
        exact List.mem_append_right _ (List.mem_singleton.mpr rfl)
      · exact absurd (hkey ▸ List.mem_map_of_mem hold) hnew
  | upgrades member hmember huser hsingle hpaid husage hmembers =>
      refine .doubled (by simp) (Or.inr rfl) hpaid husage ?_
      refine ⟨{ member with contribution := 2 }, ?_, huser, rfl, fun old hold hkey => ?_⟩
      · rw [hmembers]
        exact Tables.mem_writeBack_of_mem (by simp [Tables.Unique]) (List.mem_singleton.mpr rfl)
          hmember rfl
      · obtain rfl : old = member := hunique.eq hold hmember hkey
        exact hsingle

theorem payForRound_refused_day {response : RoastReservationPrepareResponse}
    (h : payForRound e req db = .error (response, db')) : forceDay db' = forceDay db := by
  unfold payForRound at h
  by_cases hnormal : req.forceMode = some "normal"
  · rw [if_pos hnormal] at h
    cases hforce : consumeForceUsage req.attackerId req.dateStr db with
    | some paid => simp [hforce] at h
    | none =>
        simp only [hforce, Except.error.injEq, Prod.mk.injEq] at h
        rw [h.2]
  · rw [if_neg hnormal] at h
    by_cases hsuper : req.forceMode = some "super"
    · simp [hsuper] at h
    · rw [if_pos hsuper] at h
      dsimp only at h
      split_ifs at h
      simp only [Except.error.injEq, Prod.mk.injEq] at h
      rw [← h.2]
      exact consumeRoastUsage_day e _ _ _ _ db

/-- A refused payment leaves no trace. -/
theorem payForRound_refused {response : RoastReservationPrepareResponse} (hstamped : db.Stamped)
    (h : payForRound e req db = .error (response, db')) :
    SameCharges db db' ∧ forceDay db' = forceDay db := by
  refine ⟨?_, payForRound_refused_day h⟩
  unfold payForRound at h
  by_cases hnormal : req.forceMode = some "normal"
  · rw [if_pos hnormal] at h
    cases hforce : consumeForceUsage req.attackerId req.dateStr db with
    | some paid => simp [hforce] at h
    | none =>
        simp only [hforce, Except.error.injEq, Prod.mk.injEq] at h
        exact .of_usage (by rw [h.2])
  · rw [if_neg hnormal] at h
    by_cases hsuper : req.forceMode = some "super"
    · simp [hsuper] at h
    · rw [if_pos hsuper] at h
      dsimp only at h
      split_ifs at h with hallowed
      simp only [Except.error.injEq, Prod.mk.injEq] at h
      have hrefused : (consumeRoast (roastCall e req) db).1.allowed = false :=
        (Bool.not_eq_true _).mp hallowed
      rw [← h.2]
      exact consumeRoast_refused hstamped hrefused

/-- A new round is paid for with a force use, with nothing, or with a roast charge. -/
theorem payForRound_paid {cooldown : Option ConsumeRoastResponse}
    (h : payForRound e req db = .ok (cooldown, db')) :
    (req.forceMode = some "normal" → SpendsForce req db db' ∧ SameCharges db db') ∧
      (req.forceMode = some "super" → db' = db) ∧
      (req.forceMode ≠ some "normal" → req.forceMode ≠ some "super" →
        SpendsCharge e req db db' ∧ forceDay db' = forceDay db) := by
  unfold payForRound at h
  by_cases hnormal : req.forceMode = some "normal"
  · refine ⟨fun _ => ?_, fun hsuper => ?_, fun hno => absurd hnormal hno⟩
    · rw [if_pos hnormal] at h
      cases hforce : consumeForceUsage req.attackerId req.dateStr db with
      | none => simp [hforce] at h
      | some paid =>
          simp only [hforce, Except.ok.injEq, Prod.mk.injEq] at h
          obtain ⟨-, rfl⟩ := h
          obtain ⟨hunused, hday, hcharges⟩ := consumeForceUsage_day hforce
          exact ⟨⟨hunused, hday⟩, hcharges⟩
    · rw [hnormal] at hsuper
      exact absurd hsuper (by simp)
  · rw [if_neg hnormal] at h
    by_cases hsuper : req.forceMode = some "super"
    · refine ⟨fun hno => absurd hno hnormal, fun _ => ?_, fun _ hno => absurd hsuper hno⟩
      simp only [hsuper, ne_eq, not_true, if_false, Except.ok.injEq, Prod.mk.injEq] at h
      exact h.2.symm
    · refine ⟨fun hno => absurd hno hnormal, fun hno => absurd hno hsuper, fun _ _ => ?_⟩
      rw [if_pos hsuper] at h
      dsimp only at h
      split_ifs at h with hallowed
      simp only [Except.ok.injEq, Prod.mk.injEq] at h
      obtain ⟨-, rfl⟩ := h
      exact ⟨⟨hallowed, fun _ => rfl⟩, consumeRoastUsage_day e _ _ _ _ db⟩

/-- Creating a round is charged for as its force mode says. -/
theorem payForRound_charged {cooldown : Option ConsumeRoastResponse} {paid : Db}
    {owner : RoastReservationParticipant} (h : payForRound e req db = .ok (cooldown, paid))
    (husage : db'.userUsage = paid.userUsage)
    (hmembers : db'.participants = db.participants ++ [owner])
    (howner : req.forceMode ≠ some "normal" → owner.contribution = 1) :
    Charged e req db .reservationCreated db' := by
  obtain ⟨hnormal, hsuper, hplain⟩ := payForRound_paid h
  by_cases hforced : req.forceMode = some "normal"
  · obtain ⟨⟨hunused, hday⟩, hcharges⟩ := hnormal hforced
    have hforce : SpendsForce req db db' := ⟨hunused, (forceDay_of_usage husage).trans hday⟩
    have hsame : SameCharges db db' := hcharges.trans (.of_usage husage)
    refine ⟨?_, iff_of_true hforce (Or.inl ⟨rfl, hforced⟩), fun _ => hsame,
      fun hno => absurd hforce hno, fun hno => absurd rfl hno⟩
    exact iff_of_false (not_spendsCharge hsame) fun hno => hno.2.1 hforced
  · have hsingle : ¬ DoublesAttacker req db db' := not_doublesAttacker_single hmembers (howner hforced)
    have hunforced : ∀ hforces : forceDay db' = forceDay db, SpendsForce req db db' ↔
        (PrepareStatus.reservationCreated = .reservationCreated ∧ req.forceMode = some "normal") ∨
          DoublesAttacker req db db' := fun hforces =>
      iff_of_false (not_spendsForce hforces) fun hno =>
        hno.elim (fun hcreated => hforced hcreated.2) hsingle
    by_cases hsupered : req.forceMode = some "super"
    · rw [hsuper hsupered] at husage
      have hsame : SameCharges db db' := .of_usage husage
      have hforces : forceDay db' = forceDay db := forceDay_of_usage husage
      refine ⟨?_, hunforced hforces, fun _ => hsame, fun _ => hforces, fun hno => absurd rfl hno⟩
      exact iff_of_false (not_spendsCharge hsame) fun hno => hno.2.2 hsupered
    · obtain ⟨⟨hallowed, hconsumed⟩, hday⟩ := hplain hforced hsupered
      have hspends : SpendsCharge e req db db' := ⟨hallowed, hconsumed.trans (.of_usage husage)⟩
      have hforces : forceDay db' = forceDay db := (forceDay_of_usage husage).trans hday
      exact ⟨iff_of_true hspends ⟨rfl, hforced, hsupered⟩, hunforced hforces,
        fun hno => absurd hspends hno, fun _ => hforces, fun hno => absurd rfl hno⟩

/-- The locks a prepare takes cost nothing. -/
theorem Charged.of_lock {status : PrepareStatus}
    (h : Charged e req (lockProtection req db).2 status db') : Charged e req db status db' := by
  have husage : (lockProtection req db).2.userUsage = db.userUsage := by simp
  have hforces : forceDay (lockProtection req db).2 = forceDay db := forceDay_of_usage husage
  have hcharge : SpendsCharge e req (lockProtection req db).2 db' ↔ SpendsCharge e req db db' :=
    ⟨fun hspends => hspends.congr husage, fun hspends => hspends.congr husage.symm⟩
  obtain ⟨h₁, h₂, h₃, h₄, h₅⟩ := h
  rw [hcharge] at h₁ h₃
  simp only [SpendsForce, DoublesAttacker, hforces, lockProtection_frame] at h₂ h₄ h₅
  exact ⟨h₁, h₂, fun hno => (SameCharges.of_usage husage).trans (h₃ hno), h₄, h₅⟩

/-- **A prepare or a reply is charged exactly when it grants something.** -/
theorem charged_exactly_when_granted (hunique : Tables.Unique memberKey db.participants)
    (hstamped : db.Stamped) {view : List DailyRoll} {expected : Option String}
    {reservationId : String} {response : RoastReservationPrepareResponse}
    (h : prepareReservation e view req expected reservationId db = .ok (response, db')) :
    Charged e req db response.status db' := by
  refine Charged.of_lock ?_
  have hstamped' : (lockProtection req db).2.Stamped :=
    fun row hrow => hstamped row (by simpa using hrow)
  cases prepareReservation_cases h with
  | refused hresponse hreservation hframe hpayment =>
      have hstatus : response.status ≠ .reservationCreated := by
        intro hcreated
        simp [RoastReservationPrepareResponse.reconciles, hcreated] at hresponse
      unfold OnlyUsage at hframe
      have hspent : SameCharges (lockProtection req db).2 db' ∧
          forceDay db' = forceDay (lockProtection req db).2 := by
        rcases hpayment with rfl | hpayment
        · exact ⟨.of_usage rfl, rfl⟩
        · exact payForRound_refused hstamped' hpayment
      exact .nothing hstatus hspent.1 hspent.2 (by rw [hframe]) (by rw [hframe])
  | entered hfind => exact (enterRound_admission e req _ _ _).charged (by simpa using hunique)
  | @created paid cooldown response hexpected hfind hgate hpaid hfree hstatus hreservation =>
      have hframe := payForRound_ok hpaid
      unfold OnlyUsage at hframe
      have hmembers : (insertRound e req (presentRoll view req.dateStr req.targetId)
          (lockProtection req db).1 reservationId paid).participants =
          (lockProtection req db).2.participants ++
            [ownerParticipant e req (lockProtection req db).1 reservationId] := by
        rw [hframe]
        simp [insertRound]
      rw [hstatus]
      exact payForRound_charged hpaid (by simp [insertRound]) hmembers fun hno =>
        if_neg fun hforced => hno hforced.2

/-- User 3 joins the undermanned round with a force use. -/
def boostRequest : RoastReservationPrepareRequest :=
  { attackerId := "3", attackerPigId := "pig", targetId := "2", groupId := "7",
    deliveryBotId := "bot", dateStr := 739000, forceMode := some "normal",
    supportsProtectionGathering := true, protectionGatheringVersion := 2 }

theorem charged_exactly_when_granted_boost :
    ∃ response db', prepareReservation (scriptEnv 4 (739000 * dayMicros))
        (scriptWorld undermannedScript).db.dailyRolls boostRequest none "round"
        (scriptWorld undermannedScript).db = .ok (response, db') ∧
      response.status = .reservationJoined ∧
        SpendsForce boostRequest (scriptWorld undermannedScript).db db' := by
  have hjoins : (match prepareReservation (scriptEnv 4 (739000 * dayMicros))
        (scriptWorld undermannedScript).db.dailyRolls boostRequest none "round"
        (scriptWorld undermannedScript).db with
      | .ok (response, db') => decide (response.status = .reservationJoined) &&
          decide (DoublesAttacker boostRequest (scriptWorld undermannedScript).db db')
      | .error _ => false) = true := by decide +kernel
  split at hjoins
  · rename_i response db' hprepare
    simp only [Bool.and_eq_true, decide_eq_true_eq] at hjoins
    refine ⟨response, db', hprepare, hjoins.1, ?_⟩
    have hcharged := charged_exactly_when_granted (by decide +kernel) (by decide +kernel) hprepare
    exact hcharged.force.mpr (Or.inr hjoins.2)
  · exact absurd hjoins (by simp)

end RollPig
