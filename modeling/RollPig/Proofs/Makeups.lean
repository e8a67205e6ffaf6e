/-
A makeup is no presence.

The mark of a makeup is written when the roll is made, and the completion of its
appearance copies it.  Everything that takes a roll for presence asks for one without the
mark: the arrival at a round, the feeding of a user, the reply that joins a round and the
first appearance in a group.
-/
import RollPig.Proofs.Feeding
import RollPig.Proofs.Ignition

namespace RollPig

open Transition

variable {w w' : World} {event : Event}

/-- The user's roll of that day is a makeup. -/
def MadeUp (rolls : List DailyRoll) (date : Date) (userId : String) : Prop :=
  ∃ roll ∈ rolls, roll.dateStr = date ∧ roll.userId = userId ∧ roll.isMakeup = true

instance (rolls : List DailyRoll) (date : Date) (userId : String) :
    Decidable (MadeUp rolls date userId) := by
  unfold MadeUp
  infer_instance

/-- Who made a roll up has not rolled. -/
theorem Rolled.not_madeUp {rolls : List DailyRoll} (hunique : Tables.Unique rollKey rolls)
    {date : Date} {userId pigId : String} (h : Rolled rolls date userId pigId) :
    ¬ MadeUp rolls date userId := by
  rintro ⟨roll, hroll, hdate, huser, hmakeup⟩
  obtain ⟨real, hreal, hdate', huser', -, hmark⟩ := h
  have hkey : rollKey roll = rollKey real :=
    Prod.ext (hdate.trans hdate'.symm) (huser.trans huser'.symm)
  obtain rfl := hunique.eq hroll hreal hkey
  rw [hmark] at hmakeup
  exact absurd hmakeup (by simp)

/-! ### The mark -/

/-- A step keeps the mark of every roll. -/
theorem RollsStep.marks {draws : DailyRoll → Prop} {rolls rolls' : List DailyRoll}
    (h : RollsStep draws rolls rolls') (hunique : Tables.Unique rollKey rolls)
    {roll : DailyRoll} (hroll : roll ∈ rolls) :
    ∃ roll' ∈ rolls', rollKey roll' = rollKey roll ∧ roll'.isMakeup = roll.isMakeup := by
  cases h with
  | same => exact ⟨roll, hroll, rfl, rfl⟩
  | created new hdraws hnew => exact ⟨roll, List.mem_append_left _ hroll, rfl, rfl⟩
  | completed old hold version payload =>
      by_cases hsame : rollKey roll = rollKey old
      · obtain rfl : roll = old := hunique.eq hroll hold hsame
        refine ⟨_, Tables.mem_writeBack_of_mem (by simp [Tables.Unique])
          (List.mem_singleton.mpr rfl) hroll rfl, rfl, rfl⟩
      · refine ⟨roll, Tables.mem_writeBack_of_ne hroll fun x hx hkey => ?_, rfl, rfl⟩
        obtain rfl := List.mem_singleton.mp hx
        exact hsame hkey.symm

theorem World.step_rolls (hstep : service.step w event w') :
    RollsStep event.action.draws w.db.dailyRolls w'.db.dailyRolls := by
  obtain ⟨-, -, -, rfl⟩ := hstep
  exact event.action.transaction_rolls event.env w.db

/-- A run keeps the mark of every roll. -/
theorem marks_kept (h : Reachable service w) {es : List Event} (hrun : Run service w es w')
    {roll : DailyRoll} (hroll : roll ∈ w.db.dailyRolls) :
    ∃ roll' ∈ w'.db.dailyRolls, rollKey roll' = rollKey roll ∧ roll'.isMakeup = roll.isMakeup := by
  induction hrun with
  | nil => exact ⟨roll, hroll, rfl, rfl⟩
  | snoc hrun hstep ih =>
      obtain ⟨mid, hmid, hkey, hmark⟩ := ih
      obtain ⟨last, hlast, hkey', hmark'⟩ :=
        (World.step_rolls hstep).marks (sound_of_reachable (h.run hrun)).rolls hmid
      exact ⟨last, hlast, hkey'.trans hkey, hmark'.trans hmark⟩

/-- A roll that was not there before the step was drawn by it. -/
theorem RollsStep.new {draws : DailyRoll → Prop} {rolls rolls' : List DailyRoll}
    (h : RollsStep draws rolls rolls') {roll : DailyRoll} (hroll : roll ∈ rolls')
    (hnew : rollKey roll ∉ rolls.map rollKey) : draws roll := by
  cases h with
  | same => exact absurd (List.mem_map_of_mem hroll) hnew
  | created made hdraws _ =>
      rcases List.mem_append.mp hroll with hold | hlast
      · exact absurd (List.mem_map_of_mem hold) hnew
      · obtain rfl := List.mem_singleton.mp hlast
        exact hdraws
  | completed old hold version payload =>
      rcases Tables.mem_writeBack_singleton hroll with ⟨hmem, -⟩ | rfl
      · exact absurd (List.mem_map_of_mem hmem) hnew
      · exact absurd (List.mem_map_of_mem (f := rollKey) hold) hnew

/-! ### Readers of the mark -/

/-- A fed pig was rolled by its user. -/
theorem feeds_rolled (h : Reachable service w) :
    ∀ feed ∈ w.db.userDailyFeeds, Rolled w.db.dailyRolls feed.dateStr feed.userId feed.pigId := by
  refine Reachable.invariant (I := fun w => ∀ feed ∈ w.db.userDailyFeeds,
    Rolled w.db.dailyRolls feed.dateStr feed.userId feed.pigId) ?_ ?_ h
  · intro w hinit
    obtain rfl : w = {} := hinit
    simp
  · intro w event w' hreach hfed hstep feed hfeed
    have hcommitted := (sound_of_reachable hreach).step_committed hstep
    refine hcommitted _ _ _ ?_
    rcases (step_feeds hstep).mem hfeed with hold | hnew
    · exact hfed feed hold
    · cases haction : event.action with
      | reconcile flight =>
          rw [haction] at hnew
          exact hnew.elim
      | request r view =>
          rw [haction] at hnew
          cases r with
          | createEvent req => exact hnew.2
          | prepareOutcome req =>
              obtain ⟨row, -, hsettles⟩ := hnew
              rw [hsettles.date]
              exact hsettles.rolled
          | _ => exact hnew.elim

/-- Who enters an active round is enrolled in it, or was already. -/
theorem enterRound_enrols (e : Env) (req : RoastReservationPrepareRequest)
    (roll : Option DailyRoll) (row : RoastReservation) (db : Db) :
    ∀ member ∈ (enterRound e req roll row db).2.participants,
      memberKey member ∉ db.participants.map memberKey →
        member.reservationId = row.reservationId ∧ member.userId = req.attackerId := by
  intro member hmember hnew
  have hstays : ∀ rows : List RoastReservationParticipant, (member ∈ rows) →
      rows.map memberKey = db.participants.map memberKey → False := by
    intro rows hmem hkeys
    exact hnew (hkeys ▸ List.mem_map_of_mem hmem)
  have hpaid : ∀ {boosted paid}, payBoost req boosted db = some paid →
      paid.participants = db.participants := by
    intro boosted paid hpays
    have hframe := payBoost_some hpays
    unfold OnlyUsage at hframe
    rw [hframe]
  unfold enterRound at hmember
  dsimp only at hmember
  split at hmember
  · exact (hstays _ hmember rfl).elim
  split at hmember
  · exact (hstays _ hmember rfl).elim
  split at hmember
  · split at hmember
    · exact (hstays _ hmember rfl).elim
    · exact (hstays _ hmember (by simp [takeoverRound])).elim
  unfold joinRound at hmember
  split at hmember
  · unfold rejoinRound at hmember
    dsimp only at hmember
    split at hmember
    · exact (hstays _ hmember rfl).elim
    · split at hmember
      · exact (hstays _ hmember rfl).elim
      · rename_i paid hpays
        refine (hstays _ hmember ?_).elim
        rw [← hpaid hpays]
        simp [answerJoin, Db.flushParticipants]
        exact Tables.map_key_writeBack
  · unfold enlistRound at hmember
    dsimp only at hmember
    split at hmember
    · exact (hstays _ hmember rfl).elim
    · split at hmember
      · exact (hstays _ hmember rfl).elim
      · rename_i paid hpays
        simp only [answerJoin, flushReservations_frame, markGroupActiveUsers_frame] at hmember
        rw [hpaid hpays] at hmember
        rcases List.mem_append.mp hmember with hold | hlast
        · exact (hstays _ hold rfl).elim
        · obtain rfl := List.mem_singleton.mp hlast
          exact ⟨rfl, rfl⟩

/-- Who replies has rolled, in the reply's own eyes and in everybody's. -/
theorem joinByMessage_enrols {e : Env} {view : List DailyRoll}
    {req : RoastReservationReplyJoinRequest} {db db' : Db}
    {response : RoastReservationPrepareResponse}
    (h : joinByMessage e view req db = .ok (response, db')) :
    ∀ member ∈ db'.participants, memberKey member ∉ db.participants.map memberKey →
      ∃ row ∈ db.reservations, row.reservationId = member.reservationId ∧
        ∃ pigId, Rolled view row.dateStr member.userId pigId := by
  intro member hmember hnew
  rcases joinByMessage_cases h with
    rfl | ⟨reservation, roll, expected, replied, hroll, hprepared, hreplied⟩
  · exact absurd (List.mem_map_of_mem hmember) hnew
  · have hsame : db'.participants = replied.participants := by
      rcases hreplied with rfl | rfl
      · rfl
      · simp
    rw [hsame] at hmember
    cases hprepared with
    | refused _ _ hframe =>
        unfold OnlyUsage at hframe
        rw [hframe] at hmember
        exact absurd (List.mem_map_of_mem (by simpa using hmember)) hnew
    | @entered row hfind =>
        obtain ⟨hrow, hdate, -⟩ := findRound_some hfind
        obtain ⟨hid, huser⟩ := enterRound_enrols e _ _ row _ member hmember (by simpa using hnew)
        refine ⟨row, hrow, hid.symm, roll.pigId, ?_⟩
        rw [hdate, huser]
        exact presentRoll_rolled hroll
    | created hexpected => exact absurd hexpected (by simp)

/-! ### First appearances -/

theorem createDailyRoll_sightings (e : Env) (roll : DailyRoll) (db : Db) :
    (createDailyRoll e roll db).2.groupRolls = db.groupRolls ∧
      (createDailyRoll e roll db).2.activeUsers = db.activeUsers := by
  unfold createDailyRoll applyCreatedRollProgress ensureCollection
  dsimp only
  cases getProgress db roll.userId roll.pigId <;> cases getDrawState db roll.userId <;>
    dsimp only <;> split <;> exact ⟨rfl, rfl⟩

theorem activateTargetReservations_sightings (e : Env) (date : Date) (targetId pigId : String)
    (db : Db) :
    (activateTargetReservations e date targetId pigId db).2.groupRolls = db.groupRolls ∧
      (activateTargetReservations e date targetId pigId db).2.activeUsers = db.activeUsers := by
  unfold activateTargetReservations
  dsimp only
  split <;> split <;> exact ⟨rfl, rfl⟩

/-- A first appearance in a group concerns its own user and date only. -/
theorem ensureGroupRoll_sightings (e : Env) (groupId userId pigId : String) (date : Date)
    (db : Db) :
    Tables.Grows (fun row : GroupRoll => row.dateStr = date ∧ row.userId = userId)
        db.groupRolls (ensureGroupRoll e groupId userId pigId date db).groupRolls ∧
      Tables.Grows (fun row : GroupDailyActiveUser => row.dateStr = date ∧ row.userId = userId)
        db.activeUsers (ensureGroupRoll e groupId userId pigId date db).activeUsers := by
  have hmark : ∀ db : Db,
      (markGroupActiveUsers e date groupId [userId] db).groupRolls = db.groupRolls ∧
      Tables.Grows (fun row : GroupDailyActiveUser => row.dateStr = date ∧ row.userId = userId)
        db.activeUsers (markGroupActiveUsers e date groupId [userId] db).activeUsers := by
    intro db
    unfold markGroupActiveUsers
    by_cases hgroup : groupId = ""
    · rw [if_pos hgroup]
      exact ⟨rfl, .refl⟩
    · rw [if_neg hgroup]
      refine ⟨rfl, _, rfl, fun row hrow => ?_⟩
      obtain ⟨id, hid, rfl⟩ := List.mem_map.mp hrow
      have hnamed : id ∈ normalizedIds [userId] := (List.mem_filter.mp hid).1
      unfold normalizedIds at hnamed
      rw [List.mem_insertionSort, List.mem_dedup] at hnamed
      exact ⟨rfl, List.mem_singleton.mp (List.mem_filter.mp hnamed).1⟩
  unfold ensureGroupRoll
  by_cases hgroup : groupId = ""
  · rw [if_pos hgroup]
    exact ⟨.refl, .refl⟩
  · rw [if_neg hgroup]
    dsimp only
    split
    · exact ⟨.of_eq (hmark db).1, (hmark db).2⟩
    · refine ⟨?_, (hmark _).2⟩
      rw [(hmark _).1]
      exact .one ⟨rfl, rfl⟩

/-- What the group rolls and the active users say of a user on a date is the same. -/
def SameSightings (date : Date) (userId : String) (db db' : Db) : Prop :=
  (db'.groupRolls.filter fun row => row.dateStr = date ∧ row.userId = userId) =
      (db.groupRolls.filter fun row => row.dateStr = date ∧ row.userId = userId) ∧
    (db'.activeUsers.filter fun row => row.dateStr = date ∧ row.userId = userId) =
      (db.activeUsers.filter fun row => row.dateStr = date ∧ row.userId = userId)

/-- A first appearance says nothing of the others. -/
theorem ensureGroupRoll_others (e : Env) (groupId pigId : String) {date date' : Date}
    {userId userId' : String} (hne : ¬(date = date' ∧ userId = userId')) (db : Db) :
    SameSightings date' userId' db (ensureGroupRoll e groupId userId pigId date db) := by
  obtain ⟨hrolls, husers⟩ := ensureGroupRoll_sightings e groupId userId pigId date db
  refine ⟨hrolls.filter ?_, husers.filter ?_⟩
  · rintro row ⟨hdate, huser⟩
    rw [hdate, huser]
    exact decide_eq_false hne
  · rintro row ⟨hdate, huser⟩
    rw [hdate, huser]
    exact decide_eq_false hne

/-- `get-or-create` registers no appearance of a user whose roll is a makeup. -/
theorem getOrCreateDailyRoll_sightings (e : Env) (req : DailyRollGetOrCreateRequest) {db : Db}
    (hunique : Tables.Unique rollKey (getOrCreateDailyRoll e req db).2.dailyRolls) {date : Date}
    {userId : String} (hmakeup : MadeUp (getOrCreateDailyRoll e req db).2.dailyRolls date userId) :
    SameSightings date userId db (getOrCreateDailyRoll e req db).2 := by
  have hother : (∃ pigId, Rolled (getOrCreateDailyRoll e req db).2.dailyRolls req.dateStr
      req.userId pigId) → ¬(req.dateStr = date ∧ req.userId = userId) := by
    rintro ⟨pigId, hrolled⟩ ⟨rfl, rfl⟩
    exact hrolled.not_madeUp hunique hmakeup
  clear hunique hmakeup
  unfold getOrCreateDailyRoll at hother ⊢
  cases hroll : db.dailyRoll? req.dateStr req.userId with
  | some existing =>
      simp only [hroll] at hother ⊢
      by_cases hmark : existing.isMakeup = true
      · rw [if_pos hmark]
        exact ⟨rfl, rfl⟩
      · rw [if_neg hmark] at hother ⊢
        obtain ⟨hmem, hdate, huser⟩ := dailyRoll?_some hroll
        refine ensureGroupRoll_others e _ _ (hother ⟨existing.pigId, existing, ?_, hdate, huser, rfl,
          by simpa using hmark⟩) db
        simpa using hmem
  | none =>
      simp only [hroll] at hother ⊢
      obtain ⟨progress, -, hrolls⟩ := createDailyRoll_rolls e
        { userId := req.userId, pigId := req.proposedPigId, dateStr := req.dateStr,
          createdAt := e.dbNow } db
      simp only [activateTargetReservations_frame, ensureGroupRoll_frame, hrolls] at hother
      have hne := hother ⟨req.proposedPigId, _, List.mem_append_right _
        (List.mem_singleton.mpr rfl), rfl, rfl, rfl, rfl⟩
      have hcreated := createDailyRoll_sightings e
        { userId := req.userId, pigId := req.proposedPigId, dateStr := req.dateStr,
          createdAt := e.dbNow } db
      have hothers := ensureGroupRoll_others e req.groupId req.proposedPigId hne
        (createDailyRoll e
          { userId := req.userId, pigId := req.proposedPigId, dateStr := req.dateStr,
            createdAt := e.dbNow } db).2
      unfold SameSightings at hothers ⊢
      rw [(activateTargetReservations_sightings _ _ _ _ _).1,
        (activateTargetReservations_sightings _ _ _ _ _).2, hothers.1, hothers.2, hcreated.1,
        hcreated.2]
      exact ⟨rfl, rfl⟩

theorem makeupDailyRoll_sightings {e : Env} {req : DailyRollGetOrCreateRequest} {db db' : Db}
    {response : DailyRollLookupResponse} (h : makeupDailyRoll e req db = some (response, db')) :
    db'.groupRolls = db.groupRolls ∧ db'.activeUsers = db.activeUsers := by
  rcases makeupDailyRoll_cases h with ⟨existing, -, -, rfl⟩ | ⟨-, -, rfl⟩
  · exact ⟨rfl, rfl⟩
  · exact createDailyRoll_sightings e _ db

/-- The requests that draw: both transactions of `get-or-create`, and `makeup`. -/
def Event.Draws (event : Event) : Prop :=
  match event.action with
  | .request (.getOrCreate _) _ | .request (.makeup _) _ | .reconcile (.roll _) => True
  | _ => False

/-- A draw registers no appearance of a user whose roll is a makeup. -/
theorem step_sightings (h : w.Sound) (hstep : service.step w event w') (hdraws : event.Draws)
    {date : Date} {userId : String} (hmakeup : MadeUp w'.db.dailyRolls date userId) :
    SameSightings date userId w.db w'.db := by
  have hunique := (h.step hstep).rolls
  obtain ⟨-, -, -, rfl⟩ := hstep
  unfold Event.Draws at hdraws
  split at hdraws
  · rename_i req view haction
    have hdb : (w.after event.env event.action).db = (getOrCreateDailyRoll event.env req w.db).2 := by
      simp only [World.after, haction, Action.transaction, Request.transaction]
      split <;> simp_all
    rw [hdb] at hunique hmakeup ⊢
    exact getOrCreateDailyRoll_sightings event.env req hunique hmakeup
  · rename_i req view haction
    simp only [World.after, haction, Action.transaction, Request.transaction]
    split
    · exact ⟨rfl, rfl⟩
    · rename_i response db' hmade
      obtain ⟨hrolls, husers⟩ := makeupDailyRoll_sightings hmade
      unfold SameSightings
      rw [hrolls, husers]
      exact ⟨rfl, rfl⟩
  · rename_i flight haction
    simp [World.after, haction, Action.transaction, Flight.transaction,
      reconcileReservationsAfterCommit, SameSightings, activateTargetReservations_sightings]
  · exact hdraws.elim

/-! ### The contract -/

/-- **A makeup is no presence.**  Its mark stays, and only rolls without it open rounds,
feed users, let a reply in and count as an appearance in a group. -/
theorem makeups_honoured (h : Reachable service w) :
    (∀ row ∈ w.db.reservations, row.targetPigId ≠ "" →
        Rolled w.db.dailyRolls row.dateStr row.targetId row.targetPigId) ∧
      (∀ feed ∈ w.db.userDailyFeeds,
        Rolled w.db.dailyRolls feed.dateStr feed.userId feed.pigId) ∧
      ∀ event w', service.step w event w' →
        (∀ es w'', Run service w' es w'' → ∀ roll ∈ w''.db.dailyRolls,
          rollKey roll ∈ w'.db.dailyRolls.map rollKey →
          rollKey roll ∉ w.db.dailyRolls.map rollKey → ∃ req view,
            (event.action = .request (.getOrCreate req) view ∧ roll.isMakeup = false) ∨
              (event.action = .request (.makeup req) view ∧ roll.isMakeup = true)) ∧
        (∀ req view, event.action = .request (.joinByMessage req) view →
          ∀ member ∈ w'.db.participants, memberKey member ∉ w.db.participants.map memberKey →
            ∃ row ∈ w'.db.reservations, row.reservationId = member.reservationId ∧
              ¬ MadeUp w'.db.dailyRolls row.dateStr member.userId) ∧
        (event.Draws → ∀ date userId, MadeUp w'.db.dailyRolls date userId →
          SameSightings date userId w.db w'.db) := by
  have hsound := sound_of_reachable h
  refine ⟨fun row hrow hpig => (rounds_ignited h row hrow).1 hpig, feeds_rolled h, ?_⟩
  intro event w' hstep
  refine ⟨?_, ?_, fun hdraws date userId => step_sightings hsound hstep hdraws⟩
  · intro es w'' hrun roll hroll hmade hnew
    obtain ⟨first, hfirst, hkey⟩ := List.mem_map.mp hmade
    obtain ⟨last, hlast, hsame, hmark⟩ := marks_kept (h.step hstep) hrun hfirst
    have hunique := (sound_of_reachable ((h.step hstep).run hrun)).rolls
    obtain rfl : last = roll := hunique.eq hlast hroll (hsame.trans hkey)
    have hdraws := (World.step_rolls hstep).new hfirst (hkey ▸ hnew)
    rw [hmark]
    cases haction : event.action with
    | reconcile flight =>
        rw [haction] at hdraws
        exact hdraws.elim
    | request r view =>
        rw [haction] at hdraws
        cases r with
        | getOrCreate req => exact ⟨req, view, Or.inl ⟨rfl, hdraws.2.2.2⟩⟩
        | makeup req => exact ⟨req, view, Or.inr ⟨rfl, hdraws.2.2.2⟩⟩
        | _ => exact hdraws.elim
  · intro req view haction member hmember hnew
    have hunique := (hsound.step hstep).rolls
    have hcommitted : Committed view w'.db.dailyRolls := by
      have henabled := hstep.2.1
      rw [haction] at henabled
      exact fun date userId pigId hrolled => hsound.step_committed hstep _ _ _
        (hsound.versions view henabled _ _ _ hrolled)
    have hdb : w'.db = (w.after event.env event.action).db := by rw [hstep.2.2.2]
    rw [hdb] at hmember
    simp only [World.after, haction, Action.transaction, Request.transaction] at hmember
    split at hmember
    · exact absurd (List.mem_map_of_mem hmember) hnew
    · rename_i response db' hjoin
      obtain ⟨row, hrow, hid, pigId, hrolled⟩ := joinByMessage_enrols hjoin member hmember hnew
      obtain ⟨row', hrow', hid', hsteps⟩ := hsound.step_round_forward hstep hrow
      refine ⟨row', hrow', hid'.symm.trans hid, ?_⟩
      rw [show row'.dateStr = row.dateStr from (key_eq.mp hsteps.key).2.1]
      exact (hcommitted _ _ _ hrolled).not_madeUp hunique

/-- User 4 makes yesterday's roll up, and asks for it again in a group. -/
def makeupScript : List (Time × Order) :=
  [(739000 * dayMicros,
    .request (.makeup { userId := "4", proposedPigId := "pig", dateStr := 738999 }))]

def askAgain : Event :=
  scriptEvent makeupScript (739000 * dayMicros)
    (.getOrCreate { userId := "4", proposedPigId := "boar", dateStr := 738999, groupId := "7" })

theorem makeups_honoured_again :
    MadeUp (scriptWorld makeupScript).db.dailyRolls 738999 "4" ∧
      SameSightings 738999 "4" (scriptWorld makeupScript).db
        ((scriptWorld makeupScript).after askAgain.env askAgain.action).db := by
  have hplay : (play 0 {} makeupScript).isSome = true := by decide +kernel
  refine ⟨by decide +kernel, ?_⟩
  obtain ⟨-, -, hsteps⟩ := makeups_honoured (script_reachable hplay)
  obtain ⟨-, -, hdraws⟩ := hsteps askAgain _ (script_step hplay _ _)
  exact hdraws trivial _ _ (by decide +kernel)

end RollPig
