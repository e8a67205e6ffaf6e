/-
Every round can be completed, unless its target made the day's roll up.

Whatever was done to a round, some way the service may go on from there completes it: a
super force takes it over, its target asks for its roll, a bot polls until it is given the
round, and reports.  The one exception is a round that waits for a target whose roll of the
day is a makeup, and that round waits for ever.
-/
import RollPig.Proofs.Makeups
import RollPig.Proofs.Polls

namespace RollPig

open Transition

variable {w w' : World} {event : Event} {db : Db} {e : Env} {row : RoastReservation} {id : String}

/-- Some way the service may go on from here completes the round. -/
def Completable (w : World) (id : String) : Prop :=
  ∃ events w', Run service w events w' ∧
    ∃ row ∈ w'.db.reservations, row.reservationId = id ∧ row.status = .completed

theorem Completable.of_run {events : List Event} (hrun : Run service w events w')
    (h : Completable w' id) : Completable w id := by
  obtain ⟨rest, w'', hrest, hdone⟩ := h
  exact ⟨events ++ rest, w'', hrun.append hrest, hdone⟩

/-! ### Going on -/

/-- A reachable world in which `uuid4` can go on. -/
structure Supplied (w : World) : Prop where
  reachable : Reachable service w
  tokens : (w.issued)ᶜ.Infinite

/-- A request can be given tokens that nobody had, such that as many are left. -/
theorem fresh_env {issued : Set String} (h : issuedᶜ.Infinite) (now : Time) :
    ∃ e : Env, e.now = now ∧ e.Fresh issued ∧ (issued ∪ Set.range e.uuid)ᶜ.Infinite := by
  have hnonempty : (issuedᶜ \ {""}).Infinite := h.sdiff (Set.finite_singleton "")
  -- every other token goes to the request
  let token := hnonempty.natEmbedding
  have htoken : Function.Injective fun i => (token i : String) :=
    Subtype.val_injective.comp token.injective
  refine ⟨{ now, dbNow := now, uuid := fun i => token (2 * i) }, rfl, ⟨?_, ?_, ?_⟩, ?_⟩
  · intro i j hij
    have := htoken hij
    omega
  · exact fun i => (token (2 * i)).2.1
  · exact fun i => (token (2 * i)).2.2
  · have hleft : Function.Injective fun i : Nat => (token (2 * i + 1) : String) := by
      intro i j hij
      have := htoken hij
      omega
    refine (Set.infinite_range_of_injective hleft).mono ?_
    rintro _ ⟨i, rfl⟩ hused
    rcases hused with hissued | ⟨j, hj⟩
    · exact (token (2 * i + 1)).2.1 hissued
    · have := htoken hj
      omega

/-- The rolls as they are were committed. -/
theorem version_current (h : Reachable service w) : w.db.dailyRolls ∈ w.rollVersions := by
  refine Reachable.invariant (I := fun w => w.db.dailyRolls ∈ w.rollVersions) ?_ ?_ h
  · rintro w rfl
    simp
  · rintro w event w' - - ⟨-, -, -, rfl⟩
    exact List.mem_cons_self

/-- Whatever is possible can be done next, at any time. -/
theorem Supplied.act (h : Supplied w) (now : Time) (action : Action) (henabled : action.Enabled w) :
    ∃ event w', service.step w event w' ∧ event.action = action ∧ event.env.now = now ∧
      Supplied w' := by
  obtain ⟨e, hnow, hfresh, hleft⟩ := fresh_env h.tokens now
  have hstep : service.step w ⟨e, action, (action.transaction e w.db).response⟩
      (w.after e action) := ⟨hfresh, henabled, rfl, rfl⟩
  exact ⟨_, _, hstep, rfl, hnow, h.reachable.step hstep, hleft⟩

theorem Supplied.request (h : Supplied w) (r : Request) :
    ∃ event w', service.step w event w' ∧ event.action = .request r w.db.dailyRolls ∧
      Supplied w' ∧ w'.db = (r.transaction event.env w.db.dailyRolls w.db).db := by
  obtain ⟨event, w', hstep, haction, -, hsupplied⟩ :=
    h.act 0 (.request r w.db.dailyRolls) (version_current h.reachable)
  refine ⟨event, w', hstep, haction, hsupplied, ?_⟩
  obtain ⟨-, -, -, rfl⟩ := hstep
  simp only [World.after, haction]
  rfl

/-- A world from which a supplied one is reached is supplied. -/
theorem Supplied.of_run {events : List Event} (hreach : Reachable service w)
    (hrun : Run service w events w') (h : Supplied w') : Supplied w :=
  ⟨hreach, h.tokens.mono (Set.compl_subset_compl.mpr fun _ hissued => issued_kept hrun hissued)⟩

/-- A bot can poll as often as it likes, all at one time. -/
theorem Supplied.polls (h : Supplied w) (req : RoastReservationClaimRequest) (n : Nat) :
    ∃ events w', Run service w events w' ∧ Polls req events ∧ events.length = n ∧
      (∀ event ∈ events, event.env.now = 0) ∧ Supplied w' := by
  induction n with
  | zero => exact ⟨[], w, Run.nil, by simp [Polls], rfl, by simp, h⟩
  | succ n ih =>
      obtain ⟨events, u, hrun, hpolls, hlength, hnow, hu⟩ := ih
      obtain ⟨event, w', hstep, haction, hzero, hw'⟩ :=
        hu.act 0 (.request (.claim req) u.db.dailyRolls) (version_current hu.reachable)
      refine ⟨events ++ [event], w', hrun.snoc hstep, ?_, by simp [hlength], ?_, hw'⟩
      · intro other hother
        rcases List.mem_append.mp hother with hold | hlast
        · exact hpolls other hold
        · exact ⟨_, List.mem_singleton.mp hlast ▸ haction⟩
      · intro other hother
        rcases List.mem_append.mp hother with hold | hlast
        · exact hnow other hold
        · exact List.mem_singleton.mp hlast ▸ hzero

/-! ### From the lease on -/

/-- Who has the token of a round has access to it. -/
theorem leasedRow_held (hsound : db.Sound) (hrow : row ∈ db.reservations) {token : String}
    (htoken : row.claimToken = some token) (states : List Status) (hstatus : row.status ∈ states) :
    leasedRow db row.reservationId token states = some row := by
  unfold leasedRow
  rw [hsound.reservation?_eq hrow]
  simp [htoken, hstatus]

/-- A round that is being sent is completed by its bot. -/
theorem completable_sending (h : Supplied w) (hrow : row ∈ w.db.reservations)
    (hstatus : row.status = .sending) : Completable w row.reservationId := by
  obtain ⟨htoken, -⟩ := (staged_of_reachable h.reachable row hrow).fixed (Or.inr (Or.inl hstatus))
  obtain ⟨token, htoken⟩ := Option.isSome_iff_exists.mp htoken
  obtain ⟨event, w', hstep, -, -, hdb⟩ := h.request
    (.complete { reservationId := row.reservationId, claimToken := token })
  have hheld := leasedRow_held (sound_of_reachable h.reachable).db hrow htoken
    [.sending, .completed] (by simp [hstatus])
  refine ⟨[event], w', Run.single hstep, completedRow event.env row, ?_, by simp, ?_⟩
  · rw [hdb]
    simp only [Request.transaction, complete, hheld]
    exact mem_answer hrow (by simp)
  · rw [completedRow_sending _ hstatus]

/-- A round whose result is fixed is sent. -/
theorem completable_prepared (h : Supplied w) (hrow : row ∈ w.db.reservations)
    (hstatus : row.status = .prepared) : Completable w row.reservationId := by
  obtain ⟨htoken, hresult⟩ := (staged_of_reachable h.reachable row hrow).fixed (Or.inl hstatus)
  obtain ⟨token, htoken⟩ := Option.isSome_iff_exists.mp htoken
  obtain ⟨event, w', hstep, -, hw', hdb⟩ := h.request
    (.markSending { reservationId := row.reservationId, claimToken := token })
  have hheld := leasedRow_held (sound_of_reachable h.reachable).db hrow htoken
    [.prepared, .sending, .completed] (by simp [hstatus])
  have hsent : { row with status := .sending } ∈ w'.db.reservations := by
    rw [hdb]
    simp only [Request.transaction, markSending, hheld, Option.filter, hresult, hstatus, if_true]
    exact mem_answer hrow rfl
  exact (completable_sending hw' hsent rfl).of_run (Run.single hstep)

/-- A leased round is given a result, by a client that sends at once. -/
theorem completable_processing (h : Supplied w) (hrow : row ∈ w.db.reservations)
    (hstatus : row.status = .processing) : Completable w row.reservationId := by
  obtain ⟨htoken, hnone⟩ := (staged_of_reachable h.reachable row hrow).processing hstatus
  obtain ⟨token, htoken⟩ := Option.isSome_iff_exists.mp htoken
  let outcome : OutcomeSnapshot := { eventType := "success", canonical := "" }
  obtain ⟨event, w', hstep, -, hw', hdb⟩ := h.request (.saveOutcome
    { reservationId := row.reservationId, claimToken := token, outcomeSnapshot := outcome })
  have hheld := leasedRow_held (sound_of_reachable h.reachable).db hrow htoken
    [.processing, .sending, .completed] (by simp [hstatus])
  have hsent : { row with outcomeSnapshot := some outcome, status := .sending } ∈
      w'.db.reservations := by
    rw [hdb]
    simp only [Request.transaction, saveOutcome, hheld, hnone, hstatus, ne_eq, not_true, if_false,
      if_true]
    exact mem_answer hrow rfl
  exact (completable_sending hw' hsent rfl).of_run (Run.single hstep)

/-! ### Being leased -/

/-- The claim of a bot that knows the whole protocol. -/
def capableClaim (row : RoastReservation) : RoastReservationClaimRequest :=
  { deliveryBotId := row.deliveryBotId, dateStr := row.dateStr, supportsPrepared := true
    supportsProtectionGathering := true, protectionGatheringVersion := 2 }

theorem claimable_ready (hstatus : row.status = .ready) : claimable e (capableClaim row) row = true := by
  simp [claimable, deliveredBy, capableClaim, RoastReservationClaimRequest.excludedIds,
    RoastReservationClaimRequest.gathers, hstatus]

/-- A round that is returned is leased. -/
theorem returned_leased (h : Reachable service w) {req : RoastReservationClaimRequest}
    (hpolls : Polls req [event]) (hstep : service.step w event w') (hprepared : req.supportsPrepared = true)
    (hid : id ∈ event.itemIds) :
    ∃ row ∈ w'.db.reservations, row.reservationId = id ∧
      (row.status = .processing ∨ row.status = .prepared) := by
  obtain ⟨hids, hdb⟩ := hpolls.itemIds hstep
  rw [hids] at hid
  obtain ⟨item, hitem, hitemId⟩ := List.mem_map.mp hid
  obtain ⟨old, hold, holdId, -, row, hrow, hrowId, -, -⟩ :=
    claim_items (sound_of_reachable h).db hitem
  obtain ⟨before, -, -, ⟨found, -, version, notice, heq⟩ | ⟨hnone, -⟩⟩ :=
    claim_rows (sound_of_reachable h).db hrow
  · refine ⟨row, hdb ▸ hrow, hrowId.trans hitemId, ?_⟩
    rw [heq]
    simp only [leaseRow, hprepared, if_true]
    split_ifs <;> simp
  · exact absurd hrowId.symm (by simpa using List.find?_eq_none.mp hnone item hitem)

/-- A ready round is given to a bot that polls. -/
theorem completable_ready (h : Supplied w) (hrow : row ∈ w.db.reservations)
    (hstatus : row.status = .ready) : Completable w row.reservationId := by
  obtain ⟨events, u, hrun, hpolls, hlength, hnow, hu⟩ :=
    h.polls (capableClaim row) (w.db.reservations.length + 1)
  have hnear : ∀ event ∈ events, ∀ other ∈ events,
      other.env.now ≤ event.env.now + roastReservationClaimTimeout := by
    intro event hevent other hother
    rw [hnow event hevent, hnow other hother]
    decide
  have hpositive : 1 ≤ (capableClaim row).rowLimit := by
    show 1 ≤ (max 1 (min 12 (12 : Int))).toNat
    decide
  have hreturned : row.reservationId ∈ events.flatMap (·.itemIds) := by
    refine polls_complete h.reachable hrun hpolls hnear ?_ ?_ hrow fun _ _ => claimable_ready hstatus
    · refine (List.length_filter_le _ _).trans ?_
      rw [hlength]
      exact (Nat.le_succ _).trans (Nat.le_mul_of_pos_right _ hpositive)
    · rintro rfl
      simp at hlength
  obtain ⟨event, hevent, hid⟩ := List.mem_flatMap.mp hreturned
  obtain ⟨fs, gs, t, t', hsplit, hbefore, hstep, hafter⟩ := hrun.step_of_mem hevent
  have ht : Reachable service t := h.reachable.run hbefore
  have ht' : Supplied t' := .of_run (ht.step hstep) hafter hu
  obtain ⟨leased, hleased, hsame, hprocessing | hprepared⟩ := returned_leased ht
    (fun other hother => hpolls other (List.mem_singleton.mp hother ▸ hevent)) hstep rfl hid
  · rw [← hsame]
    exact (completable_processing ht' hleased hprocessing).of_run (hbefore.snoc hstep)
  · rw [← hsame]
    exact (completable_prepared ht' hleased hprepared).of_run (hbefore.snoc hstep)

/-- A round that is open is completable, wherever it stands. -/
theorem completable_opened (h : Supplied w) (hrow : row ∈ w.db.reservations)
    (hopened : row.status ≠ .pending) : Completable w row.reservationId := by
  cases hstatus : row.status with
  | pending => exact absurd hstatus hopened
  | ready => exact completable_ready h hrow hstatus
  | processing => exact completable_processing h hrow hstatus
  | prepared => exact completable_prepared h hrow hstatus
  | sending => exact completable_sending h hrow hstatus
  | completed => exact ⟨[], w, Run.nil, row, hrow, rfl, hstatus⟩

/-! ### Being opened -/

/-- An arrival that is no makeup is offered to every round that waits for it. -/
theorem activateTargetReservations_real {date : Date} {targetId : String}
    (hreal : ¬ MadeUp db.dailyRolls date targetId) (pigId handledId : String) :
    (activateTargetReservations e date targetId pigId db handledId).2 =
      db.flushReservations (((db.reservations.filter (awaitsTarget date targetId)).map fun row =>
        arriveRow e pigId handledId row (db.members row.reservationId)).map (·.1)) := by
  unfold activateTargetReservations
  cases hroll : db.dailyRoll? date targetId with
  | none => rfl
  | some roll =>
      obtain ⟨hmem, hdate, huser⟩ := dailyRoll?_some hroll
      have hmakeup : roll.isMakeup = false := by
        rw [← Bool.not_eq_true]
        exact fun hmark => hreal ⟨roll, hmem, hdate, huser, hmark⟩
      simp only [hmakeup, Bool.false_eq_true, if_false]

/-- An arrival opens the super rounds that wait for it. -/
theorem activateTargetReservations_super (hsound : db.Sound) (hrow : row ∈ db.reservations)
    (hpending : row.status = .pending) (hforce : row.forceMode = some "super")
    (hreal : ¬ MadeUp db.dailyRolls row.dateStr row.targetId) (pigId : String) :
    ∃ row' ∈ (activateTargetReservations e row.dateStr row.targetId pigId db).2.reservations,
      row'.reservationId = row.reservationId ∧ row'.status ≠ .pending := by
  rw [activateTargetReservations_real hreal]
  generalize hrows : (((db.reservations.filter (awaitsTarget row.dateStr row.targetId)).map fun row =>
    arriveRow e pigId "" row (db.members row.reservationId)).map (·.1)) = rows
  have hid : row.reservationId ∈ (db.flushReservations rows).reservations.map (·.reservationId) := by
    rw [show (db.flushReservations rows).reservations.map (·.reservationId) =
      db.reservations.map (·.reservationId) from Tables.map_key_writeBack]
    exact List.mem_map_of_mem hrow
  obtain ⟨row', hrow', hsame⟩ := List.mem_map.mp hid
  refine ⟨row', hrow', hsame, ?_⟩
  have hwaits : arriveRow e pigId "" row (db.members row.reservationId) ∈
      (db.reservations.filter (awaitsTarget row.dateStr row.targetId)).map fun row =>
        arriveRow e pigId "" row (db.members row.reservationId) := by
    refine List.mem_map_of_mem (List.mem_filter.mpr ⟨hrow, ?_⟩)
    simp [awaitsTarget, hpending]
  rcases Tables.mem_writeBack hrow' with ⟨-, hothers⟩ | ⟨hnew, -⟩
  · have hwritten : (arriveRow e pigId "" row (db.members row.reservationId)).1 ∈ rows := by
      rw [← hrows]
      exact List.mem_map_of_mem hwaits
    refine absurd ?_ (hothers _ hwritten)
    simpa using hsame.symm
  · rw [← hrows] at hnew
    obtain ⟨arrival, harrival, rfl⟩ := List.mem_map.mp hnew
    obtain ⟨old, hold, rfl⟩ := List.mem_map.mp harrival
    obtain rfl : old = row :=
      hsound.ids.eq (List.mem_filter.mp hold).1 hrow (by simpa using hsame)
    have hopens : ¬ (0 < old.protectionRequired ∧ old.forceMode ≠ some "super" ∧
        totalContribution (db.members old.reservationId) < old.protectionRequired) :=
      fun hunder => hunder.2.1 hforce
    unfold arriveRow activateReservation
    dsimp only
    rw [if_neg hopens]
    split_ifs <;> simp

/-- Who did not make the roll up is answered with it after a second transaction. -/
theorem getOrCreateDailyRoll_real {req : DailyRollGetOrCreateRequest}
    (hreal : ¬ MadeUp db.dailyRolls req.dateStr req.userId) :
    ∃ flight, (getOrCreateDailyRoll e req db).1 = .inr flight ∧
      flight.roll.dateStr = req.dateStr ∧ flight.roll.userId = req.userId := by
  unfold getOrCreateDailyRoll
  cases hroll : db.dailyRoll? req.dateStr req.userId with
  | none => exact ⟨_, rfl, rfl, rfl⟩
  | some existing =>
      obtain ⟨hmem, hdate, huser⟩ := dailyRoll?_some hroll
      have hmakeup : existing.isMakeup = false := by
        rw [← Bool.not_eq_true]
        exact fun hmark => hreal ⟨existing, hmem, hdate, huser, hmark⟩
      simp only [hmakeup, Bool.false_eq_true, if_false]
      exact ⟨_, rfl, hdate, huser⟩

/-- A super round opens when its target asks for its roll. -/
theorem completable_super (h : Supplied w) (hrow : row ∈ w.db.reservations)
    (hforce : row.forceMode = some "super")
    (hreal : ¬ MadeUp w.db.dailyRolls row.dateStr row.targetId) : Completable w row.reservationId := by
  let ask : DailyRollGetOrCreateRequest :=
    { userId := row.targetId, proposedPigId := "pig", dateStr := row.dateStr }
  obtain ⟨event, u, hstep, haction, hu, hdb⟩ := h.request (.getOrCreate ask)
  obtain ⟨flight, hflight, hdate, huser⟩ :=
    @getOrCreateDailyRoll_real w.db event.env ask hreal
  obtain ⟨row', hrow', hid, hsteps⟩ := (sound_of_reachable h.reachable).step_round_forward hstep hrow
  rw [hid]
  refine Completable.of_run (Run.single hstep) ?_
  by_cases hopened : row'.status ≠ .pending
  · exact completable_opened hu hrow' hopened
  · have hstarted : (Request.getOrCreate ask).transaction event.env w.db.dailyRolls w.db =
        { response := .rollInFlight, flights := [.roll flight]
          db := (getOrCreateDailyRoll event.env ask w.db).2 } := by
      simp only [Request.transaction]
      generalize getOrCreateDailyRoll event.env ask w.db = result at hflight
      obtain ⟨answer, db'⟩ := result
      obtain rfl : answer = .inr flight := hflight
      rfl
    have hinflight : .roll flight ∈ u.flights := by
      obtain ⟨-, -, -, rfl⟩ := hstep
      simp only [World.after, haction, Action.transaction, hstarted]
      simp
    obtain ⟨second, w', hstep', haction', -, hw'⟩ := hu.act 0 (.reconcile (.roll flight)) hinflight
    have hdb' : w'.db = (activateTargetReservations second.env flight.roll.dateStr
        flight.roll.userId flight.roll.pigId u.db).2 := by
      obtain ⟨-, -, -, rfl⟩ := hstep'
      simp only [World.after, haction']
      rfl
    obtain ⟨-, hsameDate, -, hsameTarget⟩ := key_eq.mp hsteps.key
    replace hsameDate : row'.dateStr = flight.roll.dateStr := hsameDate.trans hdate.symm
    replace hsameTarget : row'.targetId = flight.roll.userId := hsameTarget.trans huser.symm
    have hsound := sound_of_reachable hu.reachable
    have hreal' : ¬ MadeUp u.db.dailyRolls row'.dateStr row'.targetId := by
      rw [hsameDate, hsameTarget]
      exact (hsound.flights flight hinflight).not_madeUp hsound.rolls
    obtain ⟨last, hlast, hlastId, hstatus⟩ := activateTargetReservations_super hsound.db hrow'
      (not_not.mp hopened) (hsteps.super hforce).1 hreal' flight.roll.pigId
    rw [← hlastId]
    refine (completable_opened hw' ?_ hstatus).of_run (Run.single hstep')
    rw [hdb', ← hsameDate, ← hsameTarget]
    exact hlast

/-! ### Being taken over -/

/-- A super force that takes the round over. -/
def takeoverRequest (row : RoastReservation) : RoastReservationPrepareRequest :=
  { attackerId := row.ownerId, attackerPigId := row.ownerPigId, targetId := row.targetId
    groupId := row.groupId, deliveryBotId := row.deliveryBotId, forceMode := some "super"
    dateStr := row.dateStr, supportsProtectionGathering := true, protectionGatheringVersion := 2 }

/-- A super force for the target of a waiting round finds that round. -/
theorem findRound_waiting (hslots : db.Slots) (hrow : row ∈ db.reservations)
    (hpending : row.status = .pending) : findRound (takeoverRequest row) db = some row := by
  have hactive : row.activeSlot = some 1 := by
    have hslotted := hslots.slotted row hrow
    unfold Slotted at hslotted
    rw [hslotted, hpending]
    rfl
  cases hfind : findRound (takeoverRequest row) db with
  | none =>
      have := List.find?_eq_none.mp hfind row hrow
      simp [takeoverRequest, hactive] at this
  | some found =>
      obtain ⟨hfound, hdate, hgroup, htarget, hslot⟩ := findRound_some hfind
      refine congrArg some (hslots.unique found hfound row hrow hslot hactive ?_)
      exact Prod.ext hdate (Prod.ext hgroup htarget)

/-- The takeover is admitted, and enters the round. -/
theorem prepareReservation_takeover (hslots : db.Slots) (hrow : row ∈ db.reservations)
    (hpending : row.status = .pending) (hforce : row.forceMode ≠ some "super")
    (view : List DailyRoll) :
    prepareReservation e view (takeoverRequest row) none (e.uuid 0) db =
      .ok (takeoverRound e (takeoverRequest row) (presentRoll view row.dateStr row.targetId) row
        (db.members row.reservationId) (lockProtection (takeoverRequest row) db).2) := by
  have hfind := findRound_waiting hslots hrow hpending
  rw [← findRound_lockProtection] at hfind
  have hmembers : (lockProtection (takeoverRequest row) db).2.members row.reservationId =
      db.members row.reservationId := by
    simp [Db.members]
  unfold prepareReservation
  cases hlock : lockProtection (takeoverRequest row) db with
  | mk protection locked =>
      rw [hlock] at hfind hmembers
      dsimp only at hmembers ⊢
      rw [hfind]
      simp [expectationFails, enterRound, hpending, hforce, takeoverRequest, hmembers,
        RoastReservationPrepareRequest.gathers]

/-- A takeover writes the round back, taken over. -/
theorem takeoverRound_row (e : Env) (req : RoastReservationPrepareRequest) (roll : Option DailyRoll)
    (members : List RoastReservationParticipant) (hrow : row ∈ db.reservations) :
    ∃ row' ∈ (takeoverRound e req roll row members db).2.reservations,
      row'.standing = (takenOver row members req).standing := by
  refine ⟨activateIfArrived e members (takenOver row members req) (arrivedPigId row roll), ?_,
    standing_activateIfArrived e members _ _ true⟩
  refine Tables.mem_writeBack_of_mem (by simp [Tables.Unique]) (List.mem_singleton.mpr rfl) (r := row) ?_ ?_
  · simpa using hrow
  · simp [takenOver]

/-- A round that waits for a target that can still come is taken over, and opens. -/
theorem completable_waiting (h : Supplied w) (hrow : row ∈ w.db.reservations)
    (hpending : row.status = .pending)
    (hreal : ¬ MadeUp w.db.dailyRolls row.dateStr row.targetId) : Completable w row.reservationId := by
  by_cases hforce : row.forceMode = some "super"
  · exact completable_super h hrow hforce hreal
  · obtain ⟨event, w', hstep, haction, hw', hdb⟩ := h.request (.prepare (takeoverRequest row))
    have hprepared := @prepareReservation_takeover w.db event.env row
      (slots_of_reachable h.reachable) hrow hpending hforce w.db.dailyRolls
    have htaken : w'.db = (takeoverRound event.env (takeoverRequest row)
        (presentRoll w.db.dailyRolls row.dateStr row.targetId) row (w.db.members row.reservationId)
        (lockProtection (takeoverRequest row) w.db).2).2 := by
      rw [hdb]
      simp only [Request.transaction, hprepared]
    -- the round is a super round now, of the same target, and nobody rolled meanwhile
    have hrolls : w'.db.dailyRolls = w.db.dailyRolls := by
      rw [htaken]
      simp [takeoverRound]
    have hlocked : row ∈ (lockProtection (takeoverRequest row) w.db).2.reservations := by
      simpa using hrow
    obtain ⟨row', hrow', hstanding⟩ := takeoverRound_row event.env (takeoverRequest row)
      (presentRoll w.db.dailyRolls row.dateStr row.targetId) (w.db.members row.reservationId) hlocked
    have hid : row'.reservationId = row.reservationId := congrArg (·.reservationId) hstanding
    have hdate : row'.dateStr = row.dateStr := congrArg (·.dateStr) hstanding
    have htarget : row'.targetId = row.targetId := congrArg (·.targetId) hstanding
    have hsuper : row'.forceMode = some "super" := congrArg (·.forceMode) hstanding
    rw [← hid]
    refine (completable_super hw' (htaken ▸ hrow') hsuper ?_).of_run (Run.single hstep)
    rw [hrolls, hdate, htarget]
    exact hreal

/-! ### The target that made its roll up -/

/-- A completed round saw its target. -/
theorem completed_arrived (h : Reachable service w) (hrow : row ∈ w.db.reservations)
    (hopened : row.status ≠ .pending) : ¬ MadeUp w.db.dailyRolls row.dateStr row.targetId := by
  obtain ⟨-, -, hopens⟩ := rounds_ignited h row hrow
  obtain ⟨hrolled, -⟩ := hopens (decide_eq_true hopened)
  exact hrolled.not_madeUp (sound_of_reachable h).rolls

/-- **A round can be completed exactly if it does not wait for a target that made its roll
up.**  In every reachable state in which `uuid4` can go on, some run of the service completes
the round, unless the round is pending and the target's roll of that date is a makeup. -/
theorem completable_iff (h : Reachable service w) (htokens : (w.issued)ᶜ.Infinite)
    (hrow : row ∈ w.db.reservations) :
    Completable w row.reservationId ↔
      ¬ (row.status = .pending ∧ MadeUp w.db.dailyRolls row.dateStr row.targetId) := by
  have hw : Supplied w := ⟨h, htokens⟩
  constructor
  · rintro ⟨events, w', hrun, row', hrow', hid, hdone⟩ ⟨-, roll, hroll, hdate, huser, hmakeup⟩
    obtain ⟨roll', hroll', hkey, hmark⟩ := marks_kept h hrun hroll
    refine completed_arrived (h.run hrun) hrow' (by simp [hdone]) ?_
    obtain ⟨found, hfound, hfoundId, hsame⟩ := run_round (P := fun r => r.row.key = row.key)
      (fun _ _ _ _ hstep hr => hstep.key.trans hr) h hrun hrow rfl
    obtain rfl : found = row' := (sound_of_reachable (h.run hrun)).db.ids.eq hfound hrow'
      (hfoundId.trans hid.symm)
    obtain ⟨-, hsameDate, -, hsameTarget⟩ := key_eq.mp hsame
    refine ⟨roll', hroll', ?_, ?_, hmark.trans hmakeup⟩
    · exact (congrArg Prod.fst hkey).trans (hdate.trans hsameDate.symm)
    · exact (congrArg Prod.snd hkey).trans (huser.trans hsameTarget.symm)
  · intro hfree
    by_cases hpending : row.status = .pending
    · exact completable_waiting hw hrow hpending fun hmadeUp => hfree ⟨hpending, hmadeUp⟩
    · exact completable_opened hw hrow hpending

/-- After a script `uuid4` can go on. -/
theorem script_supplied {script : List (Time × Order)} (h : (play 0 {} script).isSome = true) :
    ((scriptWorld script).issued)ᶜ.Infinite := by
  obtain ⟨⟨events, w⟩, hplay⟩ := Option.isSome_iff_exists.mp h
  obtain ⟨hissued, -⟩ := play_fresh (by simp) (by simp) hplay
  have hworld : scriptWorld script = w := by simp [scriptWorld, hplay]
  have htokens : Function.Injective (scriptToken script.length) := fun i j hij =>
    (scriptToken_inj hij).2
  refine (Set.infinite_range_of_injective htokens).mono ?_
  rintro _ ⟨i, rfl⟩
  rw [hworld]
  exact hissued script.length (by omega) i

/-- The round of `undermannedScript` waits for a second contribution, and can be completed. -/
theorem completable_iff_undermanned :
    ∃ row ∈ (scriptWorld undermannedScript).db.reservations, row.status = .pending ∧
      Completable (scriptWorld undermannedScript) row.reservationId := by
  have hplayed : (play 0 {} undermannedScript).isSome = true := by decide +kernel
  obtain ⟨row, hrow, hpending, hreal⟩ : ∃ row ∈ (scriptWorld undermannedScript).db.reservations,
      row.status = .pending ∧
        ¬ MadeUp (scriptWorld undermannedScript).db.dailyRolls row.dateStr row.targetId := by
    decide +kernel
  refine ⟨row, hrow, hpending, ?_⟩
  exact (completable_iff (script_reachable hplayed) (script_supplied hplayed) hrow).mpr
    fun hstuck => hreal hstuck.2

end RollPig
