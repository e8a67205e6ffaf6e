/-
The invariants every step keeps, and what a step does to one round.

`World.Sound` collects what the storage layer promises: keys are unique, ids were
issued, every version of the rolls still holds, and a roll in flight was committed.
On that ground `step_round` reads a step backwards from any round of the new world,
and `step_round_forward` forwards from any round of the old one.
-/
import RollPig.Proofs.Transactions

namespace RollPig

open Transition

/-- What the storage promises of a world. -/
structure World.Sound (w : World) : Prop where
  db : w.db.Sound
  issued : ∀ row ∈ w.db.reservations, row.reservationId ∈ w.issued
  rolls : Tables.Unique rollKey w.db.dailyRolls
  versions : ∀ rolls ∈ w.rollVersions, Committed rolls w.db.dailyRolls
  flights : ∀ flight, Flight.roll flight ∈ w.flights →
    Rolled w.db.dailyRolls flight.roll.dateStr flight.roll.userId flight.roll.pigId

variable {w w' : World} {event : Event}

/-! ### Creating a round -/

/-- The roster of a freshly created round is its owner. -/
theorem Creates.round_new {rolls : List DailyRoll} {e : Env}
    {req : RoastReservationPrepareRequest} {db db' : Db} {row : RoastReservation} {owner : RoastReservationParticipant}
    (h : Creates rolls e req db db' row owner) (hsound : db.Sound)
    (hfresh : ∀ r ∈ db.reservations, r.reservationId ≠ row.reservationId) :
    db'.round row = ⟨row, [owner]⟩ := by
  have hnone : db.members row.reservationId = [] := by
    refine List.eq_nil_iff_forall_not_mem.mpr fun member hmember => ?_
    obtain ⟨hmem, hid⟩ := Db.mem_members.mp hmember
    obtain ⟨r, hr, hrid⟩ := List.mem_map.mp (hsound.enrolled member hmem)
    exact hfresh r hr (hrid.trans hid)
  have howner : owner.reservationId = row.reservationId := h.ownerId.trans h.key.1.symm
  simp only [Db.round, Db.members, h.participants, List.filter_append] at hnone ⊢
  rw [hnone]
  simp [howner]

/-- The rosters of the other rounds stay. -/
theorem Creates.round_old {rolls : List DailyRoll} {e : Env}
    {req : RoastReservationPrepareRequest} {db db' : Db} {row r : RoastReservation} {owner : RoastReservationParticipant}
    (h : Creates rolls e req db db' row owner) (hne : r.reservationId ≠ row.reservationId) :
    db'.round r = db.round r := by
  have howner : owner.reservationId ≠ r.reservationId := by
    rw [h.ownerId, ← h.key.1]
    exact hne.symm
  simp [Db.round, Db.members, h.participants, List.filter_append, howner]

theorem Creates.sound {rolls : List DailyRoll} {e : Env}
    {req : RoastReservationPrepareRequest} {db db' : Db} {row : RoastReservation} {owner : RoastReservationParticipant}
    (h : Creates rolls e req db db' row owner) (hsound : db.Sound)
    (hfresh : ∀ r ∈ db.reservations, r.reservationId ≠ row.reservationId) : db'.Sound := by
  have howner : owner.reservationId = row.reservationId := h.ownerId.trans h.key.1.symm
  refine ⟨?_, ?_, ?_⟩
  · rw [h.reservations]
    exact hsound.ids.insert hfresh
  · rw [h.participants]
    refine hsound.members.insert fun member hmember hkey => ?_
    obtain ⟨r, hr, hrid⟩ := List.mem_map.mp (hsound.enrolled member hmember)
    have hid : member.reservationId = owner.reservationId := congrArg Prod.fst hkey
    exact hfresh r hr (hrid.trans (hid.trans howner))
  · rw [h.participants, h.reservations]
    intro member hmember
    rw [List.map_append]
    rcases List.mem_append.mp hmember with hold | hnew
    · exact List.mem_append_left _ (hsound.enrolled member hold)
    · obtain rfl := List.mem_singleton.mp hnew
      exact List.mem_append_right _ (by simp [howner])

/-! ### One step -/

/-- A step lets the rounds evolve, or creates one. -/
inductive StepRounds (w w' : World) (event : Event) : Prop
  | evolves (h : Evolves event.warrant w'.db.dailyRolls w.db w'.db)
  | creates (req : RoastReservationPrepareRequest) (view : List DailyRoll)
      (row : RoastReservation) (owner : RoastReservationParticipant)
      (haction : event.action = .request (.prepare req) view)
      (h : Creates w'.db.dailyRolls event.env req w.db w'.db row owner)
      (hflight : ∃ response, .prepare { dateStr := req.dateStr, targetId := req.targetId, response } ∈
        w'.flights)

theorem getOrCreateDailyRoll_flight {e : Env} {req : DailyRollGetOrCreateRequest} {db db' : Db}
    {flight : RollInFlight} (h : getOrCreateDailyRoll e req db = (.inr flight, db')) :
    Rolled db'.dailyRolls flight.roll.dateStr flight.roll.userId flight.roll.pigId := by
  unfold getOrCreateDailyRoll at h
  cases hroll : db.dailyRoll? req.dateStr req.userId with
  | some existing =>
      simp only [hroll] at h
      split_ifs at h with hmakeup
      · exact absurd (congrArg Prod.fst h) (by simp)
      · obtain ⟨hflight, rfl⟩ := Prod.mk.inj h
        obtain rfl := Sum.inr.inj hflight
        simp only [ensureGroupRoll_frame]
        exact ⟨existing, (dailyRoll?_some hroll).1, rfl, rfl, rfl, by simpa using hmakeup⟩
  | none =>
      simp only [hroll] at h
      obtain ⟨hflight, rfl⟩ := Prod.mk.inj h
      obtain rfl := Sum.inr.inj hflight
      obtain ⟨progress, hcreated, hrolls⟩ := createDailyRoll_rolls e
        { userId := req.userId, pigId := req.proposedPigId, dateStr := req.dateStr,
          createdAt := e.dbNow } db
      simp only [activateTargetReservations_frame, ensureGroupRoll_frame, hrolls, hcreated]
      exact ⟨_, List.mem_append_right _ (List.mem_singleton.mpr rfl), rfl, rfl, rfl, rfl⟩

/-- Only `get-or-create` leaves rolls in flight. -/
theorem Request.transaction_started {e : Env} {view : List DailyRoll} {db : Db} {r : Request}
    {flight : RollInFlight} (h : .roll flight ∈ (r.transaction e view db).flights) :
    ∃ req, r = .getOrCreate req ∧
      getOrCreateDailyRoll e req db = (.inr flight, (r.transaction e view db).db) := by
  cases r with
  | getOrCreate req =>
      simp only [Request.transaction] at h ⊢
      split at h
      · simp at h
      · rename_i flight' db' hcreate
        simp only [List.mem_singleton, Flight.roll.injEq] at h
        subst h
        exact ⟨req, rfl, hcreate⟩
  | prepare req =>
      simp only [Request.transaction] at h
      split at h
      · simp at h
      · split_ifs at h <;> simp at h
  | makeup req => simp only [Request.transaction] at h; split at h <;> simp at h
  | snapshot req => simp only [Request.transaction] at h; split at h <;> simp at h
  | consumeForce req => simp only [Request.transaction] at h; split at h <;> simp at h
  | grant req => simp only [Request.transaction] at h; split at h <;> simp at h
  | joinByMessage req => simp only [Request.transaction] at h; split at h <;> simp at h
  | _ => simp [Request.transaction] at h

/-- A roll left in flight by a first transaction is committed. -/
theorem Request.transaction_flight {e : Env} {view : List DailyRoll} {db : Db} {r : Request}
    {flight : RollInFlight} (h : .roll flight ∈ (r.transaction e view db).flights) :
    Rolled (r.transaction e view db).db.dailyRolls flight.roll.dateStr flight.roll.userId
      flight.roll.pigId := by
  obtain ⟨req, -, hcreate⟩ := Request.transaction_started h
  exact getOrCreateDailyRoll_flight hcreate

/-- The rolls an action may make. -/
def Action.draws : Action → DailyRoll → Prop
  | .request r _, roll => r.draws roll
  | .reconcile _, _ => False

theorem Action.transaction_rolls (e : Env) (db : Db) (action : Action) :
    RollsStep action.draws db.dailyRolls (action.transaction e db).db.dailyRolls := by
  cases action with
  | request r rolls => exact r.transaction_rolls e rolls db
  | reconcile flight =>
      show RollsStep _ db.dailyRolls (flight.transaction e db).db.dailyRolls
      rw [flight.transaction_rolls]
      exact .same

/-- **A step moves the rounds by steps or creates one.** -/
theorem World.Sound.step_rounds (h : w.Sound) (hstep : service.step w event w') :
    StepRounds w w' event := by
  obtain ⟨hfresh, henabled, hresponse, rfl⟩ := hstep
  cases haction : event.action with
  | request r rolls =>
      rw [haction] at henabled
      rcases r.transaction_rounds event.env h.db (h.versions rolls henabled) with
        hevolves | ⟨req, row, owner, rfl, hcreates, response, hflight⟩
      · exact .evolves (by simpa [World.after, haction, Action.transaction, Event.warrant] using hevolves)
      · refine .creates req rolls row owner haction ?_ ⟨response, ?_⟩
        · simpa [World.after, haction, Action.transaction] using hcreates
        · exact List.mem_append_left _ hflight
  | reconcile flight =>
      rw [haction] at henabled
      have hevolves : Evolves {} _ w.db _ :=
        flight.transaction_rounds event.env h.db fun roll hroll =>
          h.flights roll (hroll ▸ henabled)
      refine .evolves ?_
      have hrolls := flight.transaction_rolls event.env w.db
      simpa [World.after, haction, Action.transaction, Event.warrant, hrolls] using hevolves

/-- Rolls committed before a step are committed after it. -/
theorem World.Sound.step_committed (h : w.Sound) (hstep : service.step w event w') :
    Committed w.db.dailyRolls w'.db.dailyRolls := by
  obtain ⟨_, _, _, rfl⟩ := hstep
  exact (event.action.transaction_rolls event.env w.db).committed h.rolls

/-- A created row's id was not in the table. -/
theorem World.Sound.created_fresh (h : w.Sound) (hstep : service.step w event w')
    {rolls : List DailyRoll} {req : RoastReservationPrepareRequest} {row : RoastReservation}
    {owner : RoastReservationParticipant}
    (hcreates : Creates rolls event.env req w.db w'.db row owner) :
    ∀ r ∈ w.db.reservations, r.reservationId ≠ row.reservationId := by
  intro r hr hid
  have hissued := h.issued r hr
  rw [hid, hcreates.key.1] at hissued
  exact hstep.1.unissued 0 hissued

theorem World.Sound.step (h : w.Sound) (hstep : service.step w event w') : w'.Sound := by
  have hcommitted := h.step_committed hstep
  have hrounds := h.step_rounds hstep
  obtain ⟨hfresh, henabled, hresponse, hafter⟩ := hstep
  have hrolls : RollsStep event.action.draws w.db.dailyRolls w'.db.dailyRolls := by
    rw [hafter]
    exact event.action.transaction_rolls event.env w.db
  have hissued : w'.issued = w.issued ∪ Set.range event.env.uuid := by rw [hafter]; rfl
  refine ⟨?_, ?_, hrolls.unique h.rolls, ?_, ?_⟩
  · cases hrounds with
    | evolves hevolves => exact hevolves.sound
    | creates req view row owner haction hcreates =>
        exact hcreates.sound h.db (h.created_fresh ⟨hfresh, henabled, hresponse, hafter⟩ hcreates)
  · intro row hrow
    rw [hissued]
    cases hrounds with
    | evolves hevolves =>
        have hid : row.reservationId ∈ w'.db.reservations.map (·.reservationId) :=
          List.mem_map_of_mem hrow
        rw [hevolves.ids] at hid
        obtain ⟨old, hold, hsame⟩ := List.mem_map.mp hid
        exact Or.inl (hsame ▸ h.issued old hold)
    | creates req view new owner haction hcreates =>
        rw [hcreates.reservations] at hrow
        rcases List.mem_append.mp hrow with hold | hnew
        · exact Or.inl (h.issued row hold)
        · obtain rfl := List.mem_singleton.mp hnew
          exact Or.inr ⟨0, hcreates.key.1.symm⟩
  · have hversions : w'.rollVersions = w'.db.dailyRolls :: w.rollVersions := by rw [hafter]; rfl
    rw [hversions]
    intro rolls hmem
    rcases List.mem_cons.mp hmem with rfl | hold
    · exact fun _ _ _ hrolled => hrolled
    · exact fun date userId pigId hrolled =>
        hcommitted _ _ _ (h.versions rolls hold _ _ _ hrolled)
  · intro flight hflight
    have hflights : w'.flights = (event.action.transaction event.env w.db).flights ++
        event.action.otherFlights w.flights := by rw [hafter]; rfl
    rw [hflights] at hflight
    rcases List.mem_append.mp hflight with hnew | hold
    · cases haction : event.action with
      | request r rolls =>
          rw [haction] at hnew
          have hrolled := Request.transaction_flight hnew
          rw [hafter]
          simpa [World.after, haction, Action.transaction] using hrolled
      | reconcile other =>
          rw [haction] at hnew
          cases other <;> simp [Action.transaction, Flight.transaction] at hnew
    · refine hcommitted _ _ _ (h.flights flight ?_)
      cases haction : event.action with
      | request r rolls => simpa [haction, Action.otherFlights] using hold
      | reconcile other =>
          rw [haction] at hold
          exact List.mem_of_mem_erase hold

theorem World.Sound.empty : ({} : World).Sound where
  db := ⟨by simp [Tables.Unique], by simp [Tables.Unique], by simp⟩
  issued := by simp
  rolls := by simp [Tables.Unique]
  versions := by simp [Committed, Rolled]
  flights := by simp

/-- **Every reachable world is sound.** -/
theorem sound_of_reachable (h : Reachable service w) : w.Sound :=
  Reachable.invariant (fun _ hinit => hinit ▸ World.Sound.empty)
    (fun _ _ _ _ hsound hstep => hsound.step hstep) h

/-- The answer to a prepare is the one of its transaction. -/
theorem prepared_of_response (hstep : service.step w event w')
    {req : RoastReservationPrepareRequest} {view : List DailyRoll}
    (haction : event.action = .request (.prepare req) view)
    {response : RoastReservationPrepareResponse} (hresponse : event.response = .prepare response) :
    prepareReservation event.env view req none (event.env.uuid 0) w.db = .ok (response, w'.db) := by
  obtain ⟨-, -, hanswer, rfl⟩ := hstep
  rw [haction, hresponse] at hanswer
  simp only [World.after, haction]
  simp only [Action.transaction, Request.transaction] at hanswer ⊢
  cases hprepare : prepareReservation event.env view req none (event.env.uuid 0) w.db with
  | error error => simp [hprepare] at hanswer
  | ok result =>
      obtain ⟨answered, db'⟩ := result
      simp only [hprepare, Response.prepare.injEq] at hanswer ⊢
      rw [hanswer]

/-! ### One round in one step -/

/-- **Backwards**: a round of the new world comes from a round of the old one, or was
just born. -/
theorem World.Sound.step_round (h : w.Sound) (hstep : service.step w event w')
    {row' : RoastReservation} (hrow' : row' ∈ w'.db.reservations) :
    (∃ row ∈ w.db.reservations, row.reservationId = row'.reservationId ∧
        RoundSteps event.warrant w'.db.dailyRolls (w.db.round row) (w'.db.round row')) ∨
      (RoundBirth w'.db.dailyRolls (w'.db.round row') ∧
        ∀ row ∈ w.db.reservations, row.reservationId ≠ row'.reservationId) := by
  cases h.step_rounds hstep with
  | evolves hevolves => exact Or.inl (hevolves.rounds row' hrow')
  | creates req view new owner haction hcreates =>
      have hfresh := h.created_fresh hstep hcreates
      rw [hcreates.reservations] at hrow'
      rcases List.mem_append.mp hrow' with hold | hnew
      · refine Or.inl ⟨row', hold, rfl, ?_⟩
        rw [hcreates.round_old (hfresh row' hold)]
      · obtain rfl := List.mem_singleton.mp hnew
        refine Or.inr ⟨?_, hfresh⟩
        rw [hcreates.round_new h.db hfresh]
        exact hcreates.birth

/-- **Forwards**: a round of the old world is still there. -/
theorem World.Sound.step_round_forward (h : w.Sound) (hstep : service.step w event w')
    {row : RoastReservation} (hrow : row ∈ w.db.reservations) :
    ∃ row' ∈ w'.db.reservations, row.reservationId = row'.reservationId ∧
      RoundSteps event.warrant w'.db.dailyRolls (w.db.round row) (w'.db.round row') := by
  have hstays : ∃ row' ∈ w'.db.reservations, row'.reservationId = row.reservationId := by
    cases h.step_rounds hstep with
    | evolves hevolves =>
        have hid : row.reservationId ∈ w.db.reservations.map (·.reservationId) :=
          List.mem_map_of_mem hrow
        rw [← hevolves.ids] at hid
        exact List.mem_map.mp hid
    | creates req view new owner haction hcreates =>
        exact ⟨row, by rw [hcreates.reservations]; exact List.mem_append_left _ hrow, rfl⟩
  obtain ⟨row', hrow', hid⟩ := hstays
  rcases h.step_round hstep hrow' with ⟨old, hold, hsame, hsteps⟩ | ⟨-, hfresh⟩
  · obtain rfl : old = row := h.db.ids.eq hold hrow (hsame.trans hid)
    exact ⟨row', hrow', hsame, hsteps⟩
  · exact absurd hid.symm (hfresh row hrow)

/-! ### Rounds along runs -/

/-- **A property of single rounds** that births give and steps keep holds of every stored
round of a reachable world.  It may speak about the rolls, if it stays true when more are
committed. -/
theorem rounds_of_reachable {P : List DailyRoll → Round → Prop}
    (hbirth : ∀ rolls r, RoundBirth rolls r → P rolls r)
    (hmono : ∀ rolls rolls' r, Committed rolls rolls' → P rolls r → P rolls' r)
    (hkeep : ∀ warrant rolls r r', RoundStep warrant rolls r r' → P rolls r → P rolls r')
    (h : Reachable service w) :
    ∀ row ∈ w.db.reservations, P w.db.dailyRolls (w.db.round row) := by
  refine Reachable.invariant
    (I := fun w => ∀ row ∈ w.db.reservations, P w.db.dailyRolls (w.db.round row)) ?_ ?_ h
  · intro w hinit
    obtain rfl : w = {} := hinit
    simp
  · intro w event w' hreach hrows hstep row' hrow'
    have hsound := sound_of_reachable hreach
    rcases hsound.step_round hstep hrow' with ⟨row, hrow, -, hsteps⟩ | ⟨hborn, -⟩
    · refine hsteps.keeps (hkeep _ _) ?_
      exact hmono _ _ _ (hsound.step_committed hstep) (hrows row hrow)
    · exact hbirth _ _ hborn

/-- **A property of single rounds that steps keep** is kept along a run. -/
theorem run_round {P : Round → Prop}
    (hkeep : ∀ warrant rolls r r', RoundStep warrant rolls r r' → P r → P r')
    (h : Reachable service w) {es : List Event} (hrun : Run service w es w')
    {row : RoastReservation} (hrow : row ∈ w.db.reservations) (hround : P (w.db.round row)) :
    ∃ row' ∈ w'.db.reservations, row'.reservationId = row.reservationId ∧ P (w'.db.round row') := by
  induction hrun with
  | nil => exact ⟨row, hrow, rfl, hround⟩
  | snoc hrun hstep ih =>
      obtain ⟨old, hold, hid, hround'⟩ := ih
      obtain ⟨row', hrow', hsame, hsteps⟩ := (sound_of_reachable (h.run hrun)).step_round_forward hstep hold
      exact ⟨row', hrow', hsame.symm.trans hid, hsteps.keeps (hkeep _ _) hround'⟩

end RollPig
