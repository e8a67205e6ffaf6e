/-
Every transaction moves the stored rounds by steps, and at most creates one.

`Request.transaction_rounds` is what the rest of the development uses: whatever the
request, either the rounds evolve, or a prepare created one round and left the others
alone.
-/
import RollPig.Proofs.Evolution

namespace RollPig

variable {warrant : Warrant} {rolls : List DailyRoll} {db db' : Db}

/-! ### Preparing -/

@[simp] theorem findRound_lockProtection (req : RoastReservationPrepareRequest) :
    findRound req (lockProtection req db).2 = findRound req db := by
  simp [findRound]

/-- Everything the transaction of a prepare can do. -/
inductive Prepared (e : Env) (view : List DailyRoll) (req : RoastReservationPrepareRequest)
    (expected : Option String) (reservationId : String) (db : Db) :
    RoastReservationPrepareResponse → Db → Prop
  /-- Nobody is let in: refused, or the target is ready. -/
  | refused {response db'} (hresponse : response.reconciles = false)
      (hreservation : response.reservation = none)
      (hframe : OnlyUsage (lockProtection req db).2 db')
      (hpayment : db' = (lockProtection req db).2 ∨
        payForRound e req (lockProtection req db).2 = .error (response, db')) :
      Prepared e view req expected reservationId db response db'
  /-- An active round was met. -/
  | entered {row} (hfind : findRound req db = some row) :
      Prepared e view req expected reservationId db
        (enterRound e req (presentRoll view req.dateStr req.targetId) row
          (lockProtection req db).2).1
        (enterRound e req (presentRoll view req.dateStr req.targetId) row
          (lockProtection req db).2).2
  /-- A round was created, its unique key being free. -/
  | created {paid cooldown response} (hexpected : expected = none)
      (hfind : findRound req db = none)
      (hgate : (lockProtection req db).1.isSome = true →
        req.gathers = true ∨ req.forceMode = some "super")
      (hpaid : payForRound e req (lockProtection req db).2 = .ok (cooldown, paid))
      (hfree : activeSlotTaken db req.dateStr req.groupId req.targetId = false)
      (hstatus : response.status = .reservationCreated)
      (hreservation : response.reservation =
        some ((insertRound e req (presentRoll view req.dateStr req.targetId)
          (lockProtection req db).1 reservationId paid).schema
            (insertedRow e req (presentRoll view req.dateStr req.targetId)
              (lockProtection req db).1 reservationId))) :
      Prepared e view req expected reservationId db response
        (insertRound e req (presentRoll view req.dateStr req.targetId)
          (lockProtection req db).1 reservationId paid)

theorem payForRound_ok {e : Env} {req : RoastReservationPrepareRequest} {db paid : Db}
    {cooldown : Option ConsumeRoastResponse} (h : payForRound e req db = .ok (cooldown, paid)) :
    OnlyUsage db paid := by
  unfold payForRound at h
  by_cases hnormal : req.forceMode = some "normal"
  · rw [if_pos hnormal] at h
    cases hforce : consumeForceUsage req.attackerId req.dateStr db with
    | none => simp [hforce] at h
    | some forced =>
        simp only [hforce, Except.ok.injEq, Prod.mk.injEq] at h
        obtain ⟨_, rfl⟩ := h
        exact consumeForceUsage_some hforce
  · rw [if_neg hnormal] at h
    by_cases hsuper : req.forceMode = some "super"
    · simp only [hsuper, ne_eq, not_true, if_false, Except.ok.injEq, Prod.mk.injEq] at h
      obtain ⟨_, rfl⟩ := h
      rfl
    · rw [if_pos hsuper] at h
      dsimp only at h
      split_ifs at h
      simp only [Except.ok.injEq, Prod.mk.injEq] at h
      obtain ⟨_, rfl⟩ := h
      exact consumeRoastUsage_onlyUsage e db _ _ _ _

theorem payForRound_error {e : Env} {req : RoastReservationPrepareRequest} {db db' : Db}
    {response : RoastReservationPrepareResponse}
    (h : payForRound e req db = .error (response, db')) :
    response.reconciles = false ∧ response.reservation = none ∧ OnlyUsage db db' := by
  unfold payForRound at h
  by_cases hnormal : req.forceMode = some "normal"
  · rw [if_pos hnormal] at h
    cases hforce : consumeForceUsage req.attackerId req.dateStr db with
    | some forced => simp [hforce] at h
    | none =>
        simp only [hforce, Except.error.injEq, Prod.mk.injEq] at h
        obtain ⟨rfl, rfl⟩ := h
        exact ⟨rfl, rfl, rfl⟩
  · rw [if_neg hnormal] at h
    by_cases hsuper : req.forceMode = some "super"
    · simp [hsuper] at h
    · rw [if_pos hsuper] at h
      dsimp only at h
      split_ifs at h
      simp only [Except.error.injEq, Prod.mk.injEq] at h
      obtain ⟨rfl, rfl⟩ := h
      exact ⟨rfl, rfl, consumeRoastUsage_onlyUsage e db _ _ _ _⟩

/-- A payment does not touch the rounds. -/
theorem activeSlotTaken_onlyUsage {db paid : Db} (h : OnlyUsage db paid) (date : Date)
    (groupId targetId : String) :
    activeSlotTaken paid date groupId targetId = activeSlotTaken db date groupId targetId := by
  unfold OnlyUsage at h
  rw [h]
  rfl

/-- Opening a round: nobody is let in, or one is paid for and inserted. -/
theorem openRound_cases {e : Env} {req : RoastReservationPrepareRequest}
    {roll : Option DailyRoll} {protection : Option GroupProtection} {reservationId : String}
    {db db' : Db} {response : RoastReservationPrepareResponse}
    (h : openRound e req roll protection reservationId db = .ok (response, db')) :
    (response.reconciles = false ∧ response.reservation = none ∧ OnlyUsage db db' ∧
        (db' = db ∨ payForRound e req db = .error (response, db'))) ∨
      ∃ cooldown paid, payForRound e req db = .ok (cooldown, paid) ∧
        activeSlotTaken db req.dateStr req.groupId req.targetId = false ∧
        response.status = .reservationCreated ∧
        response.reservation = some ((insertRound e req roll protection reservationId paid).schema
          (insertedRow e req roll protection reservationId)) ∧
        db' = insertRound e req roll protection reservationId paid := by
  unfold openRound at h
  dsimp only at h
  split at h
  · obtain ⟨rfl, rfl⟩ := Prod.mk.inj (Except.ok.inj h)
    exact Or.inl ⟨rfl, rfl, rfl, Or.inl rfl⟩
  · cases hpay : payForRound e req db with
    | error refusal =>
        obtain ⟨refused, unpaid⟩ := refusal
        rw [hpay] at h
        obtain ⟨rfl, rfl⟩ := Prod.mk.inj (Except.ok.inj h)
        obtain ⟨hstatus, hreservation, hframe⟩ := payForRound_error hpay
        exact Or.inl ⟨hstatus, hreservation, hframe, Or.inr rfl⟩
    | ok payment =>
        obtain ⟨cooldown, paid⟩ := payment
        rw [hpay] at h
        dsimp only at h
        split_ifs at h with htaken
        obtain ⟨rfl, rfl⟩ := Prod.mk.inj (Except.ok.inj h)
        rw [activeSlotTaken_onlyUsage (payForRound_ok hpay), Bool.not_eq_true] at htaken
        exact Or.inr ⟨cooldown, paid, rfl, htaken, rfl, rfl, rfl⟩

/-- **What a prepare transaction does**, when it commits. -/
theorem prepareReservation_cases {e : Env} {view : List DailyRoll}
    {req : RoastReservationPrepareRequest} {expected : Option String} {reservationId : String}
    {db db' : Db} {response : RoastReservationPrepareResponse}
    (h : prepareReservation e view req expected reservationId db = .ok (response, db')) :
    Prepared e view req expected reservationId db response db' := by
  unfold prepareReservation at h
  dsimp only at h
  rw [findRound_lockProtection] at h
  by_cases hprotected : (lockProtection req db).1.isSome = true ∧ (!req.gathers) = true ∧
      req.forceMode ≠ some "super"
  · rw [if_pos hprotected] at h
    obtain ⟨rfl, rfl⟩ := Prod.mk.inj (Except.ok.inj h)
    exact .refused rfl rfl rfl (Or.inl rfl)
  · rw [if_neg hprotected] at h
    cases hfails : expectationFails expected (presentRoll view req.dateStr req.targetId)
        (findRound req db) with
    | true =>
        rw [hfails, if_pos rfl] at h
        obtain ⟨rfl, rfl⟩ := Prod.mk.inj (Except.ok.inj h)
        exact .refused rfl rfl rfl (Or.inl rfl)
    | false =>
        rw [hfails, if_neg (by simp)] at h
        cases hfind : findRound req db with
        | some row =>
            rw [hfind] at h
            obtain ⟨hresponse, hdb⟩ := Prod.ext_iff.mp (Except.ok.inj h)
            subst hresponse
            subst hdb
            exact .entered hfind
        | none =>
            rw [hfind] at h
            have hexpected : expected = none := by
              cases expected with
              | none => rfl
              | some id => simp [hfind, expectationFails] at hfails
            have hgate : (lockProtection req db).1.isSome = true →
                req.gathers = true ∨ req.forceMode = some "super" := by
              intro hsome
              by_contra hno
              simp only [not_or, Bool.not_eq_true] at hno
              exact hprotected ⟨hsome, by simp [hno.1], hno.2⟩
            rcases openRound_cases h with ⟨hstatus, hreservation, hframe, hpayment⟩ |
              ⟨cooldown, paid, hpaid, hfree, hstatus, hreservation, rfl⟩
            · exact .refused hstatus hreservation hframe hpayment
            · refine .created hexpected hfind hgate hpaid ?_ hstatus hreservation
              simpa [activeSlotTaken] using hfree

/-- One round is created; the stored ones stay as they are. -/
structure Creates (rolls : List DailyRoll) (e : Env) (req : RoastReservationPrepareRequest)
    (db db' : Db) (row : RoastReservation) (owner : RoastReservationParticipant) : Prop where
  rowEq : ∃ roll, row = insertedRow e req roll (lockProtection req db).1 (e.uuid 0)
  ownerEq : owner = ownerParticipant e req (lockProtection req db).1 (e.uuid 0)
  gate : (lockProtection req db).1.isSome = true →
    req.gathers = true ∨ req.forceMode = some "super"
  reservations : db'.reservations = db.reservations ++ [row]
  participants : db'.participants = db.participants ++ [owner]
  birth : RoundBirth rolls ⟨row, [owner]⟩
  free : activeSlotTaken db row.dateStr row.groupId row.targetId = false

/-- A view of the rolls shows nothing that was not committed. -/
def Committed (view rolls : List DailyRoll) : Prop :=
  ∀ date userId pigId, Rolled view date userId pigId → Rolled rolls date userId pigId

theorem insertedRow_key (e : Env) (req : RoastReservationPrepareRequest) (roll : Option DailyRoll)
    (protection : Option GroupProtection) (reservationId : String) :
    (insertedRow e req roll protection reservationId).reservationId = reservationId ∧
      (insertedRow e req roll protection reservationId).dateStr = req.dateStr ∧
      (insertedRow e req roll protection reservationId).groupId = req.groupId ∧
      (insertedRow e req roll protection reservationId).targetId = req.targetId := by
  cases roll with
  | none => exact ⟨rfl, rfl, rfl, rfl⟩
  | some roll =>
      simp only [insertedRow, activateReservation]
      split_ifs <;> exact ⟨rfl, rfl, rfl, rfl⟩

/-- What a request says of the round it creates. -/
theorem Creates.key {e : Env} {req : RoastReservationPrepareRequest} {row : RoastReservation}
    {owner : RoastReservationParticipant} (h : Creates rolls e req db db' row owner) :
    row.reservationId = e.uuid 0 ∧ row.dateStr = req.dateStr ∧ row.groupId = req.groupId ∧
      row.targetId = req.targetId := by
  obtain ⟨roll, hrow⟩ := h.rowEq
  rw [hrow]
  exact insertedRow_key e req roll _ _

theorem Creates.ownerId {e : Env} {req : RoastReservationPrepareRequest} {row : RoastReservation}
    {owner : RoastReservationParticipant} (h : Creates rolls e req db db' row owner) :
    owner.reservationId = e.uuid 0 := by
  rw [h.ownerEq]
  rfl

theorem presentRoll_committed {view : List DailyRoll} (hview : Committed view rolls) (date : Date)
    (userId : String) : ∀ r ∈ presentRoll view date userId, Rolled rolls date userId r.pigId := by
  intro r hr
  exact hview _ _ _ (presentRoll_rolled hr)

/-- What `findRound` finds is stored under the target's key. -/
theorem findRound_some {req : RoastReservationPrepareRequest} {row : RoastReservation}
    (h : findRound req db = some row) :
    row ∈ db.reservations ∧ row.dateStr = req.dateStr ∧ row.groupId = req.groupId ∧
      row.targetId = req.targetId ∧ row.activeSlot = some 1 := by
  have hkey := List.find?_some h
  simp only [decide_eq_true_eq] at hkey
  exact ⟨List.mem_of_find?_eq_some h, hkey.1, hkey.2.1, hkey.2.2.1, hkey.2.2.2.1⟩

theorem lockProtection_evolves (h : db.Sound) (req : RoastReservationPrepareRequest) :
    Evolves warrant rolls db (lockProtection req db).2 :=
  Evolves.of_same h (by simp) (by simp)

/-- A prepare or a reply: the rounds evolve, or one is created. -/
theorem Prepared.rounds {e : Env} {view : List DailyRoll} {req : RoastReservationPrepareRequest}
    {expected : Option String} {response : RoastReservationPrepareResponse}
    (h : Prepared e view req expected (e.uuid 0) db response db') (hsound : db.Sound)
    (hview : Committed view rolls) (hadmits : warrant.prepares req) :
    Evolves warrant rolls db db' ∨ (expected = none ∧ response.status = .reservationCreated ∧
      ∃ row owner, Creates rolls e req db db' row owner) := by
  cases h with
  | refused _ _ hframe =>
      unfold OnlyUsage at hframe
      rw [hframe]
      exact Or.inl ((lockProtection_evolves hsound req).of_tables rfl rfl)
  | entered hfind =>
      obtain ⟨hrow, hdate, _, htarget, _⟩ := findRound_some hfind
      have hlock : Evolves warrant rolls db (lockProtection req db).2 := lockProtection_evolves hsound req
      refine Or.inl (hlock.trans (enterRound_evolves e hlock.sound req _ (by simpa using hrow) ?_
        hadmits))
      rw [hdate, htarget]
      exact presentRoll_committed hview _ _
  | @created paid cooldown response hexpected hfind hgate hpaid hfree hstatus hreservation =>
      have hframe := payForRound_ok hpaid
      unfold OnlyUsage at hframe
      obtain ⟨-, hdate, hgroup, htarget⟩ := insertedRow_key e req
        (presentRoll view req.dateStr req.targetId) (lockProtection req db).1 (e.uuid 0)
      refine Or.inr ⟨hexpected, hstatus,
        insertedRow e req (presentRoll view req.dateStr req.targetId)
          (lockProtection req db).1 (e.uuid 0),
        ownerParticipant e req (lockProtection req db).1 (e.uuid 0), ⟨_, rfl⟩, rfl, hgate,
        ?_, ?_, ?_, ?_⟩
      · rw [hframe]
        simp [insertRound]
      · rw [hframe]
        simp [insertRound]
      · exact RoundBirth.intro e req _ _ _ (presentRoll_committed hview _ _) hgate
      · rw [hdate, hgroup, htarget]
        exact hfree

/-! ### Claiming -/

theorem declareCapability_evolves (h : db.Sound) {req : RoastReservationClaimRequest}
    (hserves : warrant.claims req) :
    Evolves warrant rolls db (declareCapability req db) := by
  unfold declareCapability
  split_ifs
  · refine Evolves.flush h _ ?_
    intro row' hrow'
    obtain ⟨row, hrow, rfl⟩ := List.mem_map.mp hrow'
    obtain ⟨hmem, hcan⟩ := List.mem_filter.mp hrow
    exact ⟨row, hmem, rfl, .single (RoundStep.capability req hcan hserves)⟩
  · exact Evolves.refl h

/-- Every leased row was claimable, and its token is one of this request's. -/
theorem mem_leaseRows {e : Env} {req : RoastReservationClaimRequest} {row' : RoastReservation}
    (h : row' ∈ leaseRows e req db) :
    ∃ row ∈ db.reservations, ∃ i, claimable e req row = true ∧
      row' = leaseRow e req (e.uuid i) row := by
  unfold leaseRows at h
  obtain ⟨i, hi, rfl⟩ := List.mem_mapIdx.mp h
  have hmem := List.mem_of_mem_take (List.getElem_mem hi)
  obtain ⟨hrow, hcan⟩ := List.mem_filter.mp hmem
  exact ⟨_, hrow, i, hcan, rfl⟩

theorem mem_leaseNotices {e : Env} {req : RoastReservationClaimRequest} {used : Nat}
    {row' : RoastReservation} (h : row' ∈ leaseNotices e req used db) :
    ∃ row ∈ db.reservations, ∃ i, noticeClaimable e req row = true ∧
      row' = leaseNotice e (e.uuid i) row := by
  unfold leaseNotices at h
  split_ifs at h
  · obtain ⟨i, hi, rfl⟩ := List.mem_mapIdx.mp h
    have hmem := List.mem_of_mem_take (List.getElem_mem hi)
    obtain ⟨hrow, hcan⟩ := List.mem_filter.mp hmem
    exact ⟨_, hrow, used + i, hcan, rfl⟩
  · simp at h

theorem claim_evolves (e : Env) (h : db.Sound) {req : RoastReservationClaimRequest}
    (hserves : warrant.claims req) (hissues : ∀ i, warrant.issues (e.uuid i)) :
    Evolves warrant rolls db (claim e req db).2 := by
  unfold claim
  dsimp only
  have hdeclare : Evolves warrant rolls db (declareCapability req db) := declareCapability_evolves h hserves
  have hlease : Evolves warrant rolls (declareCapability req db)
      ((declareCapability req db).flushReservations
        (leaseRows e req (declareCapability req db))) := by
    refine Evolves.flush hdeclare.sound _ ?_
    intro row' hrow'
    obtain ⟨row, hrow, i, hcan, rfl⟩ := mem_leaseRows hrow'
    exact ⟨row, hrow, rfl, .single (RoundStep.lease e req _ hcan hserves (hissues i))⟩
  refine (hdeclare.trans hlease).trans (Evolves.flush hlease.sound _ ?_)
  intro row' hrow'
  obtain ⟨row, hrow, i, hcan, rfl⟩ := mem_leaseNotices hrow'
  exact ⟨row, hrow, rfl, .single (RoundStep.leaseNotice e req _ hcan hserves (hissues i))⟩

/-- A notice moves on under the token it carries, or nothing happens. -/
theorem transitionWaitingNotice_cases (e : Env) (req : RoastWaitingNoticeRequest) (db : Db) :
    transitionWaitingNotice e req db = (false, db) ∨
      ∃ row notice next, db.reservation? req.reservationId = some row ∧ row.status = .pending ∧
        row.waitingNotice = some notice ∧ notice.claimToken = some req.claimToken ∧
        advanceNotice notice req.action = some next ∧
        transitionWaitingNotice e req db =
          (true, db.flushReservations [{ row with waitingNotice := some next }]) := by
  unfold transitionWaitingNotice
  cases hrow : db.reservation? req.reservationId with
  | none => exact Or.inl rfl
  | some row =>
      dsimp only
      cases hnotice : row.waitingNotice with
      | none => exact Or.inl rfl
      | some notice =>
          dsimp only
          split_ifs with hrefused
          · exact Or.inl rfl
          · cases hadvance : advanceNotice notice req.action with
            | none => exact Or.inl rfl
            | some next =>
                push Not at hrefused
                exact Or.inr ⟨row, notice, next, rfl, hrefused.1, hnotice, hrefused.2.2.2, hadvance, rfl⟩

theorem transitionWaitingNotice_evolves (e : Env) (h : db.Sound)
    (req : RoastWaitingNoticeRequest) (hreports : warrant.reports) :
    Evolves warrant rolls db (transitionWaitingNotice e req db).2 := by
  rcases transitionWaitingNotice_cases e req db with
    heq | ⟨row, notice, next, hrow, hopen, hnotice, -, hadvance, heq⟩
  · rw [heq]
    exact Evolves.refl h
  · rw [heq]
    exact Evolves.flushOne h (mem_of_reservation? hrow).1 rfl
      (.single (RoundStep.notice next hopen hreports notice hnotice _ hadvance))

/-! ### Settling and sending -/

/-- The row a token gives access to. -/
theorem leasedRow_some {reservationId claimToken : String} {states : List Status}
    {row : RoastReservation} (h : leasedRow db reservationId claimToken states = some row) :
    row ∈ db.reservations ∧ row.reservationId = reservationId ∧
      row.claimToken = some claimToken ∧ row.status ∈ states := by
  unfold leasedRow at h
  rw [Option.filter_eq_some_iff] at h
  obtain ⟨hfind, hguard⟩ := h
  obtain ⟨hmem, hid⟩ := mem_of_reservation? hfind
  simp only [Bool.and_eq_true, decide_eq_true_eq, List.contains_eq_mem] at hguard
  exact ⟨hmem, hid, hguard.1, hguard.2⟩

/-- Answering writes one row back. -/
theorem answer_evolves (h : db.Sound) {row row' : RoastReservation} (hrow : row ∈ db.reservations)
    (hid : row'.reservationId = row.reservationId)
    (hsteps : RoundSteps warrant rolls (db.round row) ⟨row', db.members row.reservationId⟩) :
    Evolves warrant rolls db (answer row' db).2 :=
  Evolves.flushOne h hrow hid hsteps

theorem storeOutcome_row (e : Env) (req : RoastReservationOutcomeRequest) (row : RoastReservation)
    (db : Db) :
    ∃ results, (storeOutcome e req row db).1 =
      { row with
        outcomeSnapshot := some req.outcomeSnapshot, dailyFeedResults := some results } :=
  ⟨_, rfl⟩

/-- What `/outcome/prepare` does: refuse, store the first result, or confirm it. -/
theorem prepareOutcomeOnce_cases (e : Env) (req : RoastReservationOutcomeRequest) (db : Db) :
    prepareOutcomeOnce e req db = (refused, db) ∨
      ∃ row, leasedRow db req.reservationId req.claimToken
          [.processing, .prepared, .sending, .completed] = some row ∧
        ((row.outcomeSnapshot = none ∧ row.status = .processing ∧
            prepareOutcomeOnce e req db =
              answer (markPrepared (storeOutcome e req row db).1) (storeOutcome e req row db).2) ∨
          (row.outcomeSnapshot = some req.outcomeSnapshot ∧
            prepareOutcomeOnce e req db = answer (markPrepared row) db)) := by
  unfold prepareOutcomeOnce
  cases hleased : leasedRow db req.reservationId req.claimToken
      [.processing, .prepared, .sending, .completed] with
  | none => exact Or.inl rfl
  | some row =>
      dsimp only
      cases hsnapshot : row.outcomeSnapshot with
      | none =>
          by_cases hstatus : row.status = .processing
          · exact Or.inr ⟨row, rfl, Or.inl ⟨hsnapshot, hstatus, if_neg (by simpa using hstatus)⟩⟩
          · exact Or.inl (if_pos hstatus)
      | some snapshot =>
          by_cases hsame : snapshot = req.outcomeSnapshot
          · exact Or.inr ⟨row, rfl, Or.inr ⟨hsame ▸ hsnapshot, if_neg (by simpa using hsame)⟩⟩
          · exact Or.inl (if_pos hsame)

theorem prepareOutcomeOnce_evolves (e : Env) (h : db.Sound)
    (req : RoastReservationOutcomeRequest) (hreports : warrant.reports) :
    Evolves warrant rolls db (prepareOutcomeOnce e req db).2 := by
  rcases prepareOutcomeOnce_cases e req db with
    heq | ⟨row, hleased, ⟨hnone, hstatus, heq⟩ | ⟨hsome, heq⟩⟩
  · rw [heq]
    exact Evolves.refl h
  · obtain ⟨hrow, -⟩ := leasedRow_some hleased
    have hstore : Evolves warrant rolls db (storeOutcome e req row db).2 :=
      Evolves.of_same h (by simp) (by simp)
    have hrow' : row ∈ (storeOutcome e req row db).2.reservations := by simpa using hrow
    obtain ⟨results, hresult⟩ := storeOutcome_row e req row db
    rw [heq, hresult]
    refine hstore.trans (answer_evolves hstore.sound hrow' (by simp) ?_)
    have hstep : RoundStep warrant rolls (db.round row) _ :=
      RoundStep.settle req.outcomeSnapshot results hstatus hnone hreports
    simpa [Db.round, Db.members] using Relation.ReflTransGen.single hstep
  · obtain ⟨hrow, -, -, hheld⟩ := leasedRow_some hleased
    rw [heq]
    refine answer_evolves h hrow (by simp) (.single (RoundStep.confirmOutcome ?_ ?_ hreports))
    · intro hpending
      simp [hpending] at hheld
    · simp [hsome]

/-- The row `/outcome` leaves. -/
def savedRow (row : RoastReservation) (snapshot : OutcomeSnapshot) : RoastReservation :=
  { row with
    outcomeSnapshot := some snapshot
    status := if row.status = .processing then .sending else row.status }

/-- What `/outcome` does: refuse, or store the result and send. -/
theorem saveOutcome_cases (req : RoastReservationOutcomeRequest) (db : Db) :
    saveOutcome req db = (refused, db) ∨
      ∃ row, leasedRow db req.reservationId req.claimToken
          [.processing, .sending, .completed] = some row ∧
        ((row.outcomeSnapshot = none ∧ row.status = .processing) ∨
          row.outcomeSnapshot = some req.outcomeSnapshot) ∧
        saveOutcome req db = answer (savedRow row req.outcomeSnapshot) db := by
  unfold saveOutcome savedRow
  cases hleased : leasedRow db req.reservationId req.claimToken
      [.processing, .sending, .completed] with
  | none => exact Or.inl rfl
  | some row =>
      dsimp only
      cases hsnapshot : row.outcomeSnapshot with
      | none =>
          by_cases hstatus : row.status = .processing
          · refine Or.inr ⟨row, rfl, Or.inl ⟨hsnapshot, hstatus⟩, ?_⟩
            simp only [hstatus, ne_eq, not_true, if_false, if_true]
          · refine Or.inl ?_
            simp only [hstatus, ne_eq, not_false_eq_true, if_true]
      | some snapshot =>
          by_cases hsame : snapshot = req.outcomeSnapshot
          · refine Or.inr ⟨row, rfl, Or.inr (hsame ▸ hsnapshot), ?_⟩
            have hkept : ({ row with outcomeSnapshot := some req.outcomeSnapshot } :
                RoastReservation) = row := by rw [← hsame, ← hsnapshot]
            simp only [hsame, ne_eq, not_true, if_false]
            split_ifs <;> rw [← hkept]
          · refine Or.inl ?_
            simp only [hsame, ne_eq, not_false_eq_true, if_true]

theorem saveOutcome_evolves (h : db.Sound) (req : RoastReservationOutcomeRequest)
    (hreports : warrant.reports) :
    Evolves warrant rolls db (saveOutcome req db).2 := by
  rcases saveOutcome_cases req db with heq | ⟨row, hleased, hguard, heq⟩
  · rw [heq]
    exact Evolves.refl h
  · obtain ⟨hrow, -⟩ := leasedRow_some hleased
    rw [heq]
    refine answer_evolves h hrow rfl ?_
    unfold savedRow
    by_cases hstatus : row.status = .processing
    · rw [if_pos hstatus]
      refine .single (RoundStep.save req.outcomeSnapshot hstatus ?_ hreports)
      exact hguard.imp (fun hnone => hnone.1) id
    · rw [if_neg hstatus]
      rcases hguard with ⟨-, hprocessing⟩ | hsome
      · exact absurd hprocessing hstatus
      · rw [← hsome]
        exact .refl

/-- What `/sending` does: refuse, or send. -/
theorem markSending_cases (req : RoastReservationMutationRequest) (db : Db) :
    markSending req db = (refused, db) ∨
      ∃ row, leasedRow db req.reservationId req.claimToken
          [.prepared, .sending, .completed] = some row ∧ row.outcomeSnapshot.isSome = true ∧
        markSending req db =
          answer (if row.status = .prepared then { row with status := .sending } else row) db := by
  unfold markSending
  cases hleased : (leasedRow db req.reservationId req.claimToken
      [.prepared, .sending, .completed]).filter (·.outcomeSnapshot.isSome) with
  | none => exact Or.inl rfl
  | some row =>
      rw [Option.filter_eq_some_iff] at hleased
      exact Or.inr ⟨row, hleased.1, hleased.2, rfl⟩

theorem markSending_evolves (h : db.Sound) (req : RoastReservationMutationRequest)
    (hreports : warrant.reports) :
    Evolves warrant rolls db (markSending req db).2 := by
  rcases markSending_cases req db with heq | ⟨row, hleased, hsome, heq⟩
  · rw [heq]
    exact Evolves.refl h
  · obtain ⟨hrow, -⟩ := leasedRow_some hleased
    rw [heq]
    by_cases hstatus : row.status = .prepared
    · rw [if_pos hstatus]
      exact answer_evolves h hrow rfl (.single (RoundStep.send hstatus hsome hreports))
    · rw [if_neg hstatus]
      exact answer_evolves h hrow rfl .refl

theorem complete_evolves (e : Env) (h : db.Sound) (req : RoastReservationCompleteRequest)
    (hreports : warrant.reports) :
    Evolves warrant rolls db (complete e req db).2 := by
  unfold complete
  cases hleased : leasedRow db req.reservationId req.claimToken [.sending, .completed] with
  | none => exact Evolves.refl h
  | some row =>
      obtain ⟨hrow, _, _, hstatus⟩ := leasedRow_some hleased
      have hanswer : Evolves warrant rolls db (answer (completedRow e row) db).2 := by
        refine answer_evolves h hrow (by simp) ?_
        simp only [List.mem_cons, List.not_mem_nil, or_false] at hstatus
        rcases hstatus with hsending | hcompleted
        · exact .single (RoundStep.complete e hsending hreports)
        · have hsame : completedRow e row = row := by simp [completedRow, hcompleted]
          rw [hsame]
          exact .refl
      dsimp only
      split
      · exact hanswer.of_tables (by simp) (by simp)
      · exact hanswer

theorem release_evolves (h : db.Sound) (req : RoastReservationMutationRequest)
    (hreports : warrant.reports) :
    Evolves warrant rolls db (release req db).2 := by
  unfold release
  cases hleased : leasedRow db req.reservationId req.claimToken [.processing, .prepared] with
  | none => exact Evolves.refl h
  | some row =>
      obtain ⟨hrow, _, _, hstatus⟩ := leasedRow_some hleased
      refine answer_evolves h hrow rfl (.single (RoundStep.release ?_ hreports))
      simpa using hstatus

/-! ### Protections -/

theorem grantProtection_evolves (e : Env) (h : db.Sound) (hsyncs : warrant.syncs)
    (req : GrantProtectionRequest)
    {response : GrantProtectionResponse} (hgrant : grantProtection e req db = some (response, db')) :
    Evolves warrant rolls db db' := by
  unfold grantProtection at hgrant
  split_ifs at hgrant
  obtain ⟨-, rfl⟩ := Prod.mk.inj (Option.some.inj hgrant)
  have hstored : Evolves warrant rolls db (storeGrant req db).2.2 :=
    Evolves.of_same h (by simp) (by simp)
  exact hstored.trans (syncPendingProtection_evolves e hstored.sound hsyncs _ _ _)

theorem removeFromRoster_evolves (e : Env) (h : db.Sound) (hsyncs : warrant.syncs)
    (req : ReplaceGroupProtectionsRequest) (row : GroupProtection) : Evolves warrant rolls db (removeFromRoster e req row db) := by
  unfold removeFromRoster
  dsimp only
  split_ifs
  · exact (syncPendingProtection_evolves e h hsyncs _ _ _).of_tables rfl rfl
  · generalize hrow : ({ row with
      sourceLevels := _, sourceBaselines := _, baseLevel := _, consecutiveDays := 0 } :
        GroupProtection) = kept
    have hstored : Evolves warrant rolls db (db.flushProtection kept) := Evolves.of_same h rfl rfl
    exact hstored.trans (syncPendingProtection_evolves e hstored.sound hsyncs _ _ _)

theorem addToRoster_evolves (e : Env) (h : db.Sound) (hsyncs : warrant.syncs)
    (req : ReplaceGroupProtectionsRequest) (current previous : List GroupProtection) (userId : String) :
    Evolves warrant rolls db (addToRoster e req current previous userId db) := by
  unfold addToRoster
  dsimp only
  split_ifs
  · exact Evolves.refl h
  · have hstored : ∀ row, Evolves warrant rolls db (db.flushProtection row) :=
      fun row => Evolves.of_same h rfl rfl
    exact (hstored _).trans (syncPendingProtection_evolves e (hstored _).sound hsyncs _ _ _)
  · have hstored : ∀ row, Evolves warrant rolls db
        { db with groupProtections := db.groupProtections ++ [row] } :=
      fun row => Evolves.of_same h rfl rfl
    exact (hstored _).trans (syncPendingProtection_evolves e (hstored _).sound hsyncs _ _ _)

/-- Evolution along a loop. -/
theorem Evolves.foldl {α : Type} {f : Db → α → Db}
    (hstep : ∀ db, db.Sound → ∀ a, Evolves warrant rolls db (f db a)) (items : List α) (h : db.Sound) :
    Evolves warrant rolls db (items.foldl f db) := by
  induction items generalizing db with
  | nil => exact Evolves.refl h
  | cons a rest ih =>
      have hfirst := hstep db h a
      exact hfirst.trans (ih hfirst.sound)

theorem replaceGroup_evolves (e : Env) (h : db.Sound) (hsyncs : warrant.syncs)
    (req : ReplaceGroupProtectionsRequest) :
    Evolves warrant rolls db (replaceGroup e req db) := by
  have hremoved : Evolves warrant rolls db (removeLeavers e req db) :=
    Evolves.foldl (fun db h row => removeFromRoster_evolves e h hsyncs req row) _ h
  exact hremoved.trans
    (Evolves.foldl (fun db h userId => addToRoster_evolves e h hsyncs req _ _ userId) _ hremoved.sound)

/-! ### Rolls -/

/-- The rolls after a transaction that may make the rolls `draws`: the same, one more of a
user who had none that day, or the appearance of one completed. -/
inductive RollsStep (draws : DailyRoll → Prop) (rolls : List DailyRoll) : List DailyRoll → Prop
  | same : RollsStep draws rolls rolls
  | created (roll : DailyRoll) (hdraws : draws roll)
      (hnew : ∀ r ∈ rolls, ¬(r.dateStr = roll.dateStr ∧ r.userId = roll.userId)) :
      RollsStep draws rolls (rolls ++ [roll])
  | completed (roll : DailyRoll) (hroll : roll ∈ rolls) (version : String)
      (payload : SnapshotPayload) :
      RollsStep draws rolls (Tables.writeBack (fun row => (row.dateStr, row.userId))
        [{ roll with
            resourceVersion := some version
            appearanceSnapshot := some { isMakeup := roll.isMakeup, payload := some payload } }]
        rolls)

/-- One roll per user and day. -/
def rollKey (roll : DailyRoll) : Date × String := (roll.dateStr, roll.userId)

theorem RollsStep.unique {draws : DailyRoll → Prop} {rolls' : List DailyRoll}
    (h : RollsStep draws rolls rolls')
    (hunique : Tables.Unique rollKey rolls) : Tables.Unique rollKey rolls' := by
  cases h with
  | same => exact hunique
  | created roll hdraws hnew =>
      refine hunique.insert ?_
      intro r hr hkey
      exact hnew r hr ⟨congrArg Prod.fst hkey, congrArg Prod.snd hkey⟩
  | completed roll hroll version payload => exact hunique.writeBack

/-- What was rolled stays rolled. -/
theorem RollsStep.committed {draws : DailyRoll → Prop} {rolls' : List DailyRoll}
    (h : RollsStep draws rolls rolls')
    (hunique : Tables.Unique rollKey rolls) : Committed rolls rolls' := by
  intro date userId pigId hrolled
  cases h with
  | same => exact hrolled
  | created roll hdraws hnew =>
      obtain ⟨r, hr, hkey⟩ := hrolled
      exact ⟨r, List.mem_append_left _ hr, hkey⟩
  | completed roll hroll version payload =>
      obtain ⟨r, hr, hdate, huser, hpig, hmakeup⟩ := hrolled
      by_cases hsame : rollKey r = rollKey roll
      · obtain rfl : r = roll := hunique.eq hr hroll hsame
        refine ⟨{ r with
          resourceVersion := some version
          appearanceSnapshot := some { isMakeup := r.isMakeup, payload := some payload } },
          ?_, hdate, huser, hpig, hmakeup⟩
        exact Tables.mem_writeBack_of_mem (by simp [Tables.Unique]) (by simp) hr rfl
      · refine ⟨r, Tables.mem_writeBack_of_ne hr ?_, hdate, huser, hpig, hmakeup⟩
        intro x hx hkey
        obtain rfl := List.mem_singleton.mp hx
        exact hsame hkey.symm

/-- Two rolls of one user on one day are one. -/
theorem Rolled.eq {date : Date} {userId pigId pigId' : String} (hunique : Tables.Unique rollKey rolls)
    (h : Rolled rolls date userId pigId) (h' : Rolled rolls date userId pigId') :
    pigId = pigId' := by
  obtain ⟨r, hr, hdate, huser, hpig, _⟩ := h
  obtain ⟨r', hr', hdate', huser', hpig', _⟩ := h'
  have hsame : r = r' := hunique.eq hr hr' (Prod.ext (hdate.trans hdate'.symm)
    (huser.trans huser'.symm))
  rw [← hpig, ← hpig', hsame]

theorem dailyRoll?_none {date : Date} {userId : String} (h : db.dailyRoll? date userId = none) :
    ∀ r ∈ db.dailyRolls, ¬(r.dateStr = date ∧ r.userId = userId) := by
  intro r hr
  simpa using List.find?_eq_none.mp h r hr

theorem dailyRoll?_some {date : Date} {userId : String} {roll : DailyRoll}
    (h : db.dailyRoll? date userId = some roll) :
    roll ∈ db.dailyRolls ∧ roll.dateStr = date ∧ roll.userId = userId := by
  have hkey := List.find?_some h
  simp only [decide_eq_true_eq] at hkey
  exact ⟨List.mem_of_find?_eq_some h, hkey.1, hkey.2⟩

theorem createDailyRoll_rolls (e : Env) (roll : DailyRoll) (db : Db) :
    ∃ progress, (createDailyRoll e roll db).1 = roll.withProgress progress ∧
      (createDailyRoll e roll db).2.dailyRolls = db.dailyRolls ++ [roll.withProgress progress] := by
  refine ⟨(applyCreatedRollProgress e roll.userId roll.pigId db).1, rfl, ?_⟩
  simp only [createDailyRoll, applyCreatedRollProgress_frame]

/-- The roll a request makes. -/
def DailyRollGetOrCreateRequest.draws (req : DailyRollGetOrCreateRequest) (isMakeup : Bool)
    (roll : DailyRoll) : Prop :=
  roll.dateStr = req.dateStr ∧ roll.userId = req.userId ∧ roll.pigId = req.proposedPigId ∧
    roll.isMakeup = isMakeup

theorem getOrCreateDailyRoll_rolls (e : Env) (req : DailyRollGetOrCreateRequest) (db : Db) :
    RollsStep (req.draws false) db.dailyRolls
      (getOrCreateDailyRoll e req db).2.dailyRolls := by
  unfold getOrCreateDailyRoll
  cases hroll : db.dailyRoll? req.dateStr req.userId with
  | some existing =>
      dsimp only
      split_ifs
      · exact .same
      · simpa using RollsStep.same
  | none =>
      dsimp only
      obtain ⟨progress, -, hrolls⟩ := createDailyRoll_rolls e
        { userId := req.userId, pigId := req.proposedPigId, dateStr := req.dateStr,
          createdAt := e.dbNow } db
      simp only [activateTargetReservations_frame, ensureGroupRoll_frame, hrolls]
      exact .created _ ⟨rfl, rfl, rfl, rfl⟩ (dailyRoll?_none hroll)

theorem makeupDailyRoll_rolls {e : Env} {req : DailyRollGetOrCreateRequest}
    {response : DailyRollLookupResponse} (h : makeupDailyRoll e req db = some (response, db')) :
    RollsStep (req.draws true) db.dailyRolls db'.dailyRolls := by
  rcases makeupDailyRoll_cases h with ⟨existing, -, -, rfl⟩ | ⟨hroll, -, rfl⟩
  · exact .same
  · obtain ⟨progress, -, hrolls⟩ := createDailyRoll_rolls e (madeUpRoll e req) db
    rw [hrolls]
    exact .created _ ⟨rfl, rfl, rfl, rfl⟩ (dailyRoll?_none hroll)

theorem completeDailyRollSnapshot_rolls {draws : DailyRoll → Prop} {req : DailyRollSnapshotRequest}
    {response : DailyRollOutcomeSnapshot}
    (h : completeDailyRollSnapshot req db = .ok (response, db')) :
    RollsStep draws db.dailyRolls db'.dailyRolls := by
  obtain ⟨existing, hroll, rfl | rfl⟩ := completeDailyRollSnapshot_ok h
  · exact .same
  · exact .completed existing (dailyRoll?_some hroll).1 _ _

/-! ### All transactions -/

theorem joinByMessage_answered {e : Env} {view : List DailyRoll}
    {req : RoastReservationReplyJoinRequest} {response : RoastReservationPrepareResponse}
    (h : joinByMessage e view req db = .ok (response, db')) :
    db' = db ∨ ∃ reservation roll expected replied,
      presentRoll view req.dateStr req.attackerId = some roll ∧
      Prepared e view (replyRequest req reservation roll) (some expected) (e.uuid 0) db response
        replied ∧
      (db' = replied ∨
        (response.status = .reservationJoined ∨ response.status = .alreadyJoined) ∧
          db' = registerReply e req roll replied) := by
  unfold joinByMessage at h
  by_cases hdate : req.dateStr ≠ rollpigToday e.now
  · rw [if_pos hdate] at h
    exact Or.inl (Prod.mk.inj (Except.ok.inj h)).2.symm
  · rw [if_neg hdate] at h
    dsimp only at h
    split at h
    · exact Or.inl (Prod.mk.inj (Except.ok.inj h)).2.symm
    · split at h
      · exact Or.inl (Prod.mk.inj (Except.ok.inj h)).2.symm
      · rename_i reservation _
        split_ifs at h with hself
        · exact Or.inl (Prod.mk.inj (Except.ok.inj h)).2.symm
        · split at h
          · exact Or.inl (Prod.mk.inj (Except.ok.inj h)).2.symm
          · rename_i roll hroll
            split at h
            · exact absurd h (by simp)
            · rename_i replied_response replied hprepare
              have hcases := prepareReservation_cases hprepare
              split_ifs at h with hjoined
              · obtain ⟨rfl, rfl⟩ := Prod.mk.inj (Except.ok.inj h)
                exact Or.inr ⟨reservation, roll, _, replied, hroll, hcases, Or.inr ⟨hjoined, rfl⟩⟩
              · obtain ⟨rfl, rfl⟩ := Prod.mk.inj (Except.ok.inj h)
                exact Or.inr ⟨reservation, roll, _, _, hroll, hcases, Or.inl rfl⟩

theorem joinByMessage_cases {e : Env} {view : List DailyRoll}
    {req : RoastReservationReplyJoinRequest} {response : RoastReservationPrepareResponse}
    (h : joinByMessage e view req db = .ok (response, db')) :
    db' = db ∨ ∃ reservation roll expected replied,
      presentRoll view req.dateStr req.attackerId = some roll ∧
      Prepared e view (replyRequest req reservation roll) (some expected) (e.uuid 0) db response
        replied ∧
      (db' = replied ∨ db' = registerReply e req roll replied) := by
  rcases joinByMessage_answered h with
    hsame | ⟨reservation, roll, expected, replied, hroll, hprepared, hregistered⟩
  · exact Or.inl hsame
  · exact Or.inr ⟨reservation, roll, expected, replied, hroll, hprepared,
      hregistered.imp_right And.right⟩

theorem Prepared.frame {e : Env} {view : List DailyRoll} {req : RoastReservationPrepareRequest}
    {expected : Option String} {reservationId : String}
    {response : RoastReservationPrepareResponse}
    (h : Prepared e view req expected reservationId db response db') :
    db'.dailyRolls = db.dailyRolls ∧ db'.collections = db.collections ∧
      db'.userPigProgress = db.userPigProgress ∧ db'.userDailyFeeds = db.userDailyFeeds ∧
      db'.groupProtections = (lockProtection req db).2.groupProtections := by
  cases h with
  | refused _ _ hframe =>
      unfold OnlyUsage at hframe
      rw [hframe]
      simp
  | entered hfind => simp
  | @created paid _ _ _ _ _ hpaid =>
      have hframe := payForRound_ok hpaid
      unfold OnlyUsage at hframe
      rw [hframe]
      simp [insertRound]

theorem joinByMessage_frame {e : Env} {view : List DailyRoll}
    {req : RoastReservationReplyJoinRequest} {response : RoastReservationPrepareResponse}
    (h : joinByMessage e view req db = .ok (response, db')) :
    db'.dailyRolls = db.dailyRolls ∧ db'.collections = db.collections ∧
      db'.userPigProgress = db.userPigProgress ∧ db'.userDailyFeeds = db.userDailyFeeds := by
  rcases joinByMessage_cases h with
    rfl | ⟨reservation, roll, expected, replied, -, hprepared, rfl | rfl⟩
  · exact ⟨rfl, rfl, rfl, rfl⟩
  · obtain ⟨h₁, h₂, h₃, h₄, _⟩ := hprepared.frame
    exact ⟨h₁, h₂, h₃, h₄⟩
  · obtain ⟨h₁, h₂, h₃, h₄, _⟩ := hprepared.frame
    simp [h₁, h₂, h₃, h₄]

theorem grantProtection_frame {e : Env} {req : GrantProtectionRequest}
    {response : GrantProtectionResponse} (h : grantProtection e req db = some (response, db')) :
    db'.dailyRolls = db.dailyRolls ∧ db'.collections = db.collections ∧
      db'.userPigProgress = db.userPigProgress ∧ db'.userDailyFeeds = db.userDailyFeeds := by
  unfold grantProtection at h
  split_ifs at h
  obtain ⟨-, rfl⟩ := Prod.mk.inj (Option.some.inj h)
  simp

/-- The rolls a request may make. -/
def Request.draws : Request → DailyRoll → Prop
  | .getOrCreate req, roll => req.draws false roll
  | .makeup req, roll => req.draws true roll
  | _, _ => False

/-- Every first transaction only adds or completes rolls. -/
theorem Request.transaction_rolls (e : Env) (view : List DailyRoll) (db : Db) (r : Request) :
    RollsStep r.draws db.dailyRolls (r.transaction e view db).db.dailyRolls := by
  cases r with
  | getOrCreate req =>
      have hrolls : RollsStep (Request.draws (.getOrCreate req)) _ _ :=
        getOrCreateDailyRoll_rolls e req db
      simp only [Request.transaction]
      split <;> simp_all
  | makeup req =>
      simp only [Request.transaction]
      split
      · exact .same
      · rename_i hmakeup
        exact makeupDailyRoll_rolls hmakeup
  | snapshot req =>
      simp only [Request.transaction]
      split
      · exact .same
      · rename_i hsnapshot
        exact completeDailyRollSnapshot_rolls hsnapshot
  | consumeForce req =>
      simp only [Request.transaction]
      split
      · exact .same
      · rename_i forced hforced
        have hframe := consumeForceUsage_some hforced
        unfold OnlyUsage at hframe
        rw [hframe]
        exact .same
  | grant req =>
      simp only [Request.transaction]
      split
      · exact .same
      · rename_i hgrant
        rw [(grantProtection_frame hgrant).1]
        exact .same
  | joinByMessage req =>
      simp only [Request.transaction]
      split
      · exact .same
      · rename_i hjoin
        rw [(joinByMessage_frame hjoin).1]
        exact .same
  | prepare req =>
      simp only [Request.transaction]
      split
      · exact .same
      · rename_i hprepare
        rw [(prepareReservation_cases hprepare).frame.1]
        exact .same
  | _ => simpa [Request.transaction] using RollsStep.same

theorem getOrCreateDailyRoll_evolves (e : Env) (hsound : db.Sound)
    (req : DailyRollGetOrCreateRequest) :
    Evolves warrant (getOrCreateDailyRoll e req db).2.dailyRolls db (getOrCreateDailyRoll e req db).2 := by
  unfold getOrCreateDailyRoll
  cases hroll : db.dailyRoll? req.dateStr req.userId with
  | some existing =>
      dsimp only
      split_ifs
      · exact Evolves.refl hsound
      · exact Evolves.of_same hsound (by simp) (by simp)
  | none =>
      dsimp only
      obtain ⟨progress, -, hrolls⟩ := createDailyRoll_rolls e
        { userId := req.userId, pigId := req.proposedPigId, dateStr := req.dateStr,
          createdAt := e.dbNow } db
      set created := createDailyRoll e
        { userId := req.userId, pigId := req.proposedPigId, dateStr := req.dateStr,
          createdAt := e.dbNow } db with hcreated
      -- the new roll is in the table before the rounds are looked at
      have hrolled : Rolled (activateTargetReservations e req.dateStr req.userId req.proposedPigId
          (ensureGroupRoll e req.groupId req.userId req.proposedPigId req.dateStr
            created.2)).2.dailyRolls req.dateStr req.userId req.proposedPigId := by
        simp only [activateTargetReservations_frame, ensureGroupRoll_frame, hrolls]
        exact ⟨_, List.mem_append_right _ (List.mem_singleton.mpr rfl), rfl, rfl, rfl, rfl⟩
      have hstored : ∀ rolls, Evolves warrant rolls db (ensureGroupRoll e req.groupId req.userId
          req.proposedPigId req.dateStr created.2) :=
        fun rolls => Evolves.of_same hsound (by simp [hcreated]) (by simp [hcreated])
      exact (hstored _).trans (activateTargetReservations_evolves e (hstored []).sound "" hrolled)

theorem makeupDailyRoll_frame {e : Env} {req : DailyRollGetOrCreateRequest}
    {response : DailyRollLookupResponse} (h : makeupDailyRoll e req db = some (response, db')) :
    db'.reservations = db.reservations ∧ db'.participants = db.participants ∧
      db'.userDailyFeeds = db.userDailyFeeds := by
  rcases makeupDailyRoll_cases h with ⟨existing, -, -, rfl⟩ | ⟨-, -, rfl⟩
  · exact ⟨rfl, rfl, rfl⟩
  · simp

theorem completeDailyRollSnapshot_frame {req : DailyRollSnapshotRequest}
    {response : DailyRollOutcomeSnapshot}
    (h : completeDailyRollSnapshot req db = .ok (response, db')) :
    db'.reservations = db.reservations ∧ db'.participants = db.participants ∧
      db'.userDailyFeeds = db.userDailyFeeds := by
  obtain ⟨existing, -, rfl | rfl⟩ := completeDailyRollSnapshot_ok h
  · exact ⟨rfl, rfl, rfl⟩
  · exact ⟨rfl, rfl, rfl⟩

/-- **Every first transaction lets the rounds evolve, or is a prepare that creates one.** -/
theorem Request.transaction_rounds (e : Env) {view : List DailyRoll} {db : Db} (hsound : db.Sound)
    (hview : Committed view db.dailyRolls) (r : Request) :
    Evolves (r.warrant e) (r.transaction e view db).db.dailyRolls db (r.transaction e view db).db ∨
      ∃ req row owner, r = .prepare req ∧
        Creates (r.transaction e view db).db.dailyRolls e req db (r.transaction e view db).db row
          owner ∧
        ∃ response, .prepare { dateStr := req.dateStr, targetId := req.targetId, response } ∈
          (r.transaction e view db).flights := by
  have hsame : ∀ rolls (db' : Db), db'.reservations = db.reservations →
      db'.participants = db.participants → Evolves (r.warrant e) rolls db db' :=
    fun rolls db' => Evolves.of_same hsound
  cases r with
  | getOrCreate req =>
      have hevolves : Evolves ((Request.getOrCreate req).warrant e) _ db _ :=
        getOrCreateDailyRoll_evolves e hsound req
      simp only [Request.transaction]
      split <;> simp_all
  | makeup req =>
      simp only [Request.transaction]
      split
      · exact Or.inl (Evolves.refl hsound)
      · rename_i hmakeup
        obtain ⟨hrows, hmembers, -⟩ := makeupDailyRoll_frame hmakeup
        exact Or.inl (hsame _ _ hrows hmembers)
  | snapshot req =>
      simp only [Request.transaction]
      split
      · exact Or.inl (Evolves.refl hsound)
      · rename_i hsnapshot
        obtain ⟨hrows, hmembers, -⟩ := completeDailyRollSnapshot_frame hsnapshot
        exact Or.inl (hsame _ _ hrows hmembers)
  | createEvent req => exact Or.inl (hsame _ _ (by simp [transaction]) (by simp [transaction]))
  | consumeRoast req => exact Or.inl (hsame _ _ (by simp [transaction]) (by simp [transaction]))
  | consumeForce req =>
      simp only [Request.transaction]
      split
      · exact Or.inl (Evolves.refl hsound)
      · rename_i forced hforced
        have hframe := consumeForceUsage_some hforced
        unfold OnlyUsage at hframe
        rw [hframe]
        exact Or.inl (hsame _ _ rfl rfl)
  | grant req =>
      simp only [Request.transaction]
      split
      · exact Or.inl (Evolves.refl hsound)
      · rename_i hgrant
        exact Or.inl (grantProtection_evolves e hsound trivial req hgrant)
  | replaceGroup req => exact Or.inl (replaceGroup_evolves e hsound trivial req)
  | bindMessage req => exact Or.inl (hsame _ _ (by simp [transaction]) (by simp [transaction]))
  | joinByMessage req =>
      simp only [Request.transaction]
      split
      · exact Or.inl (Evolves.refl hsound)
      · rename_i hjoin
        rw [← (joinByMessage_frame hjoin).1] at hview
        have hadmits : ∀ reservation roll, ((Request.joinByMessage req).warrant e).prepares
            (replyRequest req reservation roll) := fun reservation roll => ⟨reservation, roll, rfl⟩
        rcases joinByMessage_cases hjoin with
          rfl | ⟨reservation, roll, expected, replied, -, hprepared, rfl | rfl⟩
        · exact Or.inl (Evolves.refl hsound)
        · rcases hprepared.rounds hsound hview (hadmits reservation roll) with
            hevolves | ⟨hexpected, -⟩
          · exact Or.inl hevolves
          · exact absurd hexpected (by simp)
        · rcases hprepared.rounds hsound hview (hadmits reservation roll) with
            hevolves | ⟨hexpected, -⟩
          · exact Or.inl (hevolves.of_tables (by simp) (by simp))
          · exact absurd hexpected (by simp)
  | prepare req =>
      simp only [Request.transaction]
      split
      · exact Or.inl (Evolves.refl hsound)
      · rename_i response db' hprepare
        have hprepared := prepareReservation_cases hprepare
        rw [← hprepared.frame.1] at hview
        have hadmits : ((Request.prepare req).warrant e).prepares req := rfl
        rcases hprepared.rounds hsound hview hadmits with hevolves | ⟨-, hstatus, row, owner, hcreates⟩
        · exact Or.inl hevolves
        · refine Or.inr ⟨req, row, owner, rfl, hcreates, response, ?_⟩
          rw [if_pos (by simp [RoastReservationPrepareResponse.reconciles, hstatus])]
          exact List.mem_singleton.mpr rfl
  | claim req => exact Or.inl (claim_evolves e hsound rfl Set.mem_range_self)
  | waitingNotice req => exact Or.inl (transitionWaitingNotice_evolves e hsound req trivial)
  | prepareOutcome req => exact Or.inl (prepareOutcomeOnce_evolves e hsound req trivial)
  | saveOutcome req => exact Or.inl (saveOutcome_evolves hsound req trivial)
  | markSending req => exact Or.inl (markSending_evolves hsound req trivial)
  | complete req => exact Or.inl (complete_evolves e hsound req trivial)
  | release req => exact Or.inl (release_evolves hsound req trivial)

/-- The second half of a request: an arrival is offered again. -/
theorem Flight.transaction_rounds (e : Env) {db : Db} (hsound : db.Sound) (flight : Flight)
    (hflight : ∀ roll, flight = .roll roll →
      Rolled db.dailyRolls roll.roll.dateStr roll.roll.userId roll.roll.pigId) :
    Evolves warrant db.dailyRolls db (flight.transaction e db).db := by
  cases flight with
  | roll roll => exact activateTargetReservations_evolves e hsound "" (hflight roll rfl)
  | prepare prepared =>
      simp only [Flight.transaction, reconcilePrepare]
      split <;> exact activateIfTargetAlreadyRolled_evolves e hsound _ _ _

theorem Flight.transaction_rolls (e : Env) (db : Db) (flight : Flight) :
    (flight.transaction e db).db.dailyRolls = db.dailyRolls := by
  cases flight <;> simp [Flight.transaction]

end RollPig
