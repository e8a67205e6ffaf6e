/-
Whoever has a source of activity is registered.

The endpoints that write an appearance, an event or a place in a round also mark the user
active, for the same group and date and with the same exceptions.  Appearances, events and
rounds are followed one table at a time, the other tables being left alone or only growing.
A reply that was let into a round appears in the group without being marked, because the
round knows it already, as its owner, its operator or on its roster.
-/
import RollPig.Proofs.ActivityBackfill
import RollPig.Proofs.Capability
import RollPig.Proofs.Cutoff
import RollPig.Proofs.Votes

namespace RollPig

open Transition

variable {e : Env} {db db' : Db} {date : Date} {groupId userId : String} {tables : List Table}
  {row row' : RoastReservation} {members : List RoastReservationParticipant}

/-! ### Being registered -/

/-- The user is on the table of active users, unless there is no name or no group. -/
def Db.Active (db : Db) (date : Date) (groupId userId : String) : Prop :=
  groupId = "" ∨ userId = "" ∨
    (date, groupId, userId) ∈ db.activeUsers.map GroupDailyActiveUser.key

theorem Db.Active.mono (h : db.Active date groupId userId)
    (hkept : ∀ row ∈ db.activeUsers, row ∈ db'.activeUsers) : db'.Active date groupId userId := by
  rcases h with hgroup | huser | hmem
  · exact Or.inl hgroup
  · exact Or.inr (Or.inl huser)
  · obtain ⟨row, hrow, hkey⟩ := List.mem_map.mp hmem
    exact Or.inr (Or.inr (List.mem_map.mpr ⟨row, hkept row hrow, hkey⟩))

/-- Whoever is marked is registered. -/
theorem markGroupActiveUsers_active {userIds : List String} (h : userId ∈ userIds) :
    (markGroupActiveUsers e date groupId userIds db).Active date groupId userId := by
  unfold markGroupActiveUsers
  by_cases hgroup : groupId = ""
  · exact Or.inl hgroup
  rw [if_neg hgroup]
  by_cases huser : userId = ""
  · exact Or.inr (Or.inl huser)
  refine Or.inr (Or.inr ?_)
  rw [List.map_append, List.mem_append]
  by_cases hold : (date, groupId, userId) ∈ db.activeUsers.map GroupDailyActiveUser.key
  · exact Or.inl hold
  · refine Or.inr (List.mem_map.mpr ⟨_, List.mem_map.mpr ⟨userId, ?_, rfl⟩, rfl⟩)
    refine List.mem_filter.mpr ⟨mem_normalizedIds.mpr ⟨h, huser⟩, ?_⟩
    rw [Bool.not_eq_true']
    refine Bool.eq_false_iff.mpr fun hany => hold ?_
    obtain ⟨row, hrow, hkey⟩ := List.any_eq_true.mp hany
    obtain ⟨hdate, hthere, hname⟩ := of_decide_eq_true hkey
    exact List.mem_map.mpr ⟨row, hrow, Prod.ext hdate (Prod.ext hthere hname)⟩

theorem markGroupActiveUsers_mono (e : Env) (date : Date) (groupId : String)
    (userIds : List String) (db : Db) :
    ∀ row ∈ db.activeUsers, row ∈ (markGroupActiveUsers e date groupId userIds db).activeUsers :=
  fun _ hrow => (markGroupActiveUsers_extends e date groupId userIds db).activeUsers.subset hrow

/-! ### Appearances -/

/-- Whoever appeared in a group is registered. -/
def Db.RollsActive (db : Db) : Prop :=
  ∀ row ∈ db.groupRolls, db.Active row.dateStr row.groupId row.userId

/-- No appearance is new. -/
theorem Db.RollsActive.same (h : db.RollsActive) (hrolls : db'.groupRolls = db.groupRolls)
    (hkept : ∀ row ∈ db.activeUsers, row ∈ db'.activeUsers) : db'.RollsActive := by
  intro row hrow
  rw [hrolls] at hrow
  exact (h row hrow).mono hkept

/-- One appearance is new at most, of a user who is registered. -/
theorem Db.RollsActive.append (h : db.RollsActive)
    (hrolls : db'.groupRolls = db.groupRolls ∨ ∃ roll, db'.groupRolls = db.groupRolls ++ [roll] ∧
      db'.Active roll.dateStr roll.groupId roll.userId)
    (hkept : ∀ row ∈ db.activeUsers, row ∈ db'.activeUsers) : db'.RollsActive := by
  rcases hrolls with hsame | ⟨roll, happended, hroll⟩
  · exact h.same hsame hkept
  · intro row hrow
    rw [happended] at hrow
    rcases List.mem_append.mp hrow with hold | hnew
    · exact (h row hold).mono hkept
    · rw [List.mem_singleton.mp hnew]
      exact hroll

theorem ensureGroupRoll_rollsActive (h : db.RollsActive) (groupId userId pigId : String)
    (date : Date) : (ensureGroupRoll e groupId userId pigId date db).RollsActive := by
  refine h.append ?_ fun _ hrow =>
    (ensureGroupRoll_extends e groupId userId pigId date db).activeUsers.subset hrow
  have hmarked := fun db => markGroupActiveUsers_writes e date groupId [userId] db .groupRolls
    (by decide)
  unfold ensureGroupRoll
  split
  · exact Or.inl rfl
  · dsimp only
    split
    · exact Or.inl (hmarked db)
    · exact Or.inr ⟨_, hmarked _, markGroupActiveUsers_active (List.mem_singleton_self userId)⟩

theorem markSeen_rollsActive (h : db.RollsActive) (req : GroupRollMarkSeenRequest) :
    (markSeen e req db).RollsActive := by
  refine h.append ?_ fun _ hrow => (markSeen_extends e req db).activeUsers.subset hrow
  have hmarked := fun db =>
    markGroupActiveUsers_writes e req.dateStr req.groupId [req.userId] db .groupRolls (by decide)
  unfold markSeen
  dsimp only
  split
  · exact Or.inl (hmarked db)
  · exact Or.inr ⟨_, hmarked _, markGroupActiveUsers_active (List.mem_singleton_self req.userId)⟩

theorem markSeen_writes (e : Env) (req : GroupRollMarkSeenRequest) (db : Db) :
    db.Writes [.groupRolls, .activeUsers] (markSeen e req db) := by
  have hmarked : ∀ db : Db, db.Writes [.groupRolls, .activeUsers]
      (markGroupActiveUsers e req.dateStr req.groupId [req.userId] db) := fun db =>
    (markGroupActiveUsers_writes e req.dateStr req.groupId [req.userId] db).mono (by decide)
  unfold markSeen
  dsimp only
  split
  · exact hmarked db
  · exact ((writes_groupRolls _).mono (by decide)).trans (hmarked _)

theorem getOrCreateDailyRoll_rollsActive (h : db.RollsActive) (req : DailyRollGetOrCreateRequest) :
    (getOrCreateDailyRoll e req db).2.RollsActive := by
  unfold getOrCreateDailyRoll
  split
  · split
    · exact h
    · exact ensureGroupRoll_rollsActive h _ _ _ _
  · have hcreated : ∀ roll, (createDailyRoll e roll db).2.RollsActive := fun roll =>
      h.same (createDailyRoll_writes e roll db .groupRolls (by decide)) fun _ hrow =>
        (createDailyRoll_extends e roll db).activeUsers.subset hrow
    have hseen := fun roll => ensureGroupRoll_rollsActive (e := e) (hcreated roll) req.groupId
      req.userId req.proposedPigId req.dateStr
    exact (hseen _).same
      (activateTargetReservations_writes e _ _ _ _ _ .groupRolls (by decide)) fun _ hrow =>
        (activateTargetReservations_extends e _ _ _ _ _).activeUsers.subset hrow

/-- A reply appears in the group of its round. -/
theorem registerReply_rollsActive (h : db.RollsActive) (req : RoastReservationReplyJoinRequest)
    (roll : DailyRoll) (hactive : db.Active req.dateStr req.groupId req.attackerId) :
    (registerReply e req roll db).RollsActive := by
  unfold registerReply
  split
  · exact h
  · exact h.append (Or.inr ⟨_, rfl, hactive⟩) fun _ hrow => hrow

/-! ### Events -/

/-- Whoever has a part in an event is registered, a bot that backfired apart. -/
def Db.EventsActive (db : Db) : Prop :=
  ∀ row ∈ db.roastEvents, db.Active row.dateStr row.groupId row.attackerId ∧
    (row.eventType ≠ "bot_backfire" → db.Active row.dateStr row.groupId row.targetId)

theorem Db.EventsActive.same (h : db.EventsActive) (hevents : db'.roastEvents = db.roastEvents)
    (hkept : ∀ row ∈ db.activeUsers, row ∈ db'.activeUsers) : db'.EventsActive := by
  intro row hrow
  rw [hevents] at hrow
  obtain ⟨hattacker, htarget⟩ := h row hrow
  exact ⟨hattacker.mono hkept, fun htype => (htarget htype).mono hkept⟩

theorem insertRoastEvent_eventsActive (h : db.EventsActive) (req : EventCreateRequest) :
    (insertRoastEvent e req db).EventsActive := by
  intro row hrow
  have hkept : ∀ row ∈ db.activeUsers, row ∈ (insertRoastEvent e req db).activeUsers :=
    fun _ hold => (insertRoastEvent_extends e req db).activeUsers.subset hold
  have hevents : (insertRoastEvent e req db).roastEvents = _ :=
    markGroupActiveUsers_writes e (req.dateStr.getD (rollpigToday e.now)) req.groupId
      (eventActiveUsers req) _ .roastEvents (by decide)
  rw [hevents] at hrow
  rcases List.mem_append.mp hrow with hold | hnew
  · obtain ⟨hattacker, htarget⟩ := h row hold
    exact ⟨hattacker.mono hkept, fun htype => (htarget htype).mono hkept⟩
  · rw [List.mem_singleton.mp hnew]
    refine ⟨markGroupActiveUsers_active ?_, fun htype => markGroupActiveUsers_active ?_⟩
    · exact List.mem_cons_self
    · refine List.mem_cons_of_mem _ (List.mem_append_right _ ?_)
      rw [if_pos htype]
      exact List.mem_singleton_self _

theorem recordRoastEventWithStatus_eventsActive (h : db.EventsActive) (req : EventCreateRequest)
    (reservation : Option RoastReservationItem) :
    (recordRoastEventWithStatus e req reservation db).2.EventsActive := by
  unfold recordRoastEventWithStatus
  split
  · exact insertRoastEvent_eventsActive h req
  · dsimp only
    split
    · exact h
    · exact insertRoastEvent_eventsActive h _

theorem createEvent_eventsActive (h : db.EventsActive) (req : EventCreateRequest) :
    (createEvent e req db).2.EventsActive := by
  have hrecorded := recordRoastEventWithStatus_eventsActive (e := e) h
    { req with dateStr := some (req.dateStr.getD (rollpigToday e.now)) } none
  unfold createEvent
  dsimp only
  split
  · refine hrecorded.same ?_ fun _ hrow =>
      (applyDailyFeed_extends e _ req.attackerId .roast req.sourceId _).activeUsers.subset hrow
    exact applyDailyFeed_writes e _ req.attackerId .roast req.sourceId _ .roastEvents (by decide)
  · exact hrecorded

theorem complete_eventsActive (h : db.EventsActive) (req : RoastReservationCompleteRequest) :
    (complete e req db).2.EventsActive := by
  unfold complete
  split
  · exact h
  · have hanswered : ∀ row, (answer row db).2.EventsActive := fun row =>
      h.same (answer_writes row db .roastEvents (by decide)) fun _ hrow => hrow
    dsimp only
    split
    · exact recordRoastEventWithStatus_eventsActive (hanswered _) _ _
    · exact hanswered _

/-! ### Rounds -/

/-- Everybody with a place in the round is registered. -/
structure Db.RoundActive (db : Db) (row : RoastReservation) : Prop where
  owner : db.Active row.dateStr row.groupId row.ownerId
  operator : db.Active row.dateStr row.groupId row.forceOperatorId
  members : ∀ member ∈ db.participants, member.reservationId = row.reservationId →
    db.Active row.dateStr row.groupId member.userId

def Db.RoundsActive (db : Db) : Prop :=
  ∀ row ∈ db.reservations, db.RoundActive row

/-- The same rounds, while users are added to the table. -/
theorem Db.RoundsActive.same (h : db.RoundsActive) (hrows : db'.reservations = db.reservations)
    (hmembers : db'.participants = db.participants)
    (hkept : ∀ row ∈ db.activeUsers, row ∈ db'.activeUsers) : db'.RoundsActive := by
  intro row hrow
  rw [hrows] at hrow
  obtain ⟨howner, hoperator, hmembersActive⟩ := h row hrow
  refine ⟨howner.mono hkept, hoperator.mono hkept, fun member hmember hid => ?_⟩
  rw [hmembers] at hmember
  exact (hmembersActive member hmember hid).mono hkept

/-- One round is written back, with a registered operator. -/
theorem Db.RoundsActive.flush (h : db.RoundsActive) (hrow : row ∈ db.reservations)
    (hkey : row'.key = row.key) (howner : row'.ownerId = row.ownerId)
    (hoperator : row'.forceOperatorId = row.forceOperatorId ∨
      db.Active row.dateStr row.groupId row'.forceOperatorId) :
    (db.flushReservations [row']).RoundsActive := by
  intro other hother
  rcases Tables.mem_writeBack_singleton hother with ⟨hold, -⟩ | rfl
  · obtain ⟨howner, hoperator, hmembers⟩ := h other hold
    exact ⟨howner, hoperator, hmembers⟩
  · obtain ⟨hid, hdate, hgroup, -⟩ := key_eq.mp hkey
    obtain ⟨hownerActive, hoperatorActive, hmembers⟩ := h row hrow
    refine ⟨?_, ?_, fun member hmember hmemberId => ?_⟩
    · rw [hdate, hgroup, howner]
      exact hownerActive
    · rw [hdate, hgroup]
      rcases hoperator with hsame | hactive
      · rw [hsame]
        exact hoperatorActive
      · exact hactive
    · rw [hdate, hgroup]
      exact hmembers member hmember (hmemberId.trans hid)

/-- Rosters are rewritten, every user being on the same roster before, or registered where
the round is. -/
theorem Db.RoundsActive.enroll (h : db.RoundsActive) {roster : List RoastReservationParticipant}
    (hroster : ∀ member ∈ roster,
      (∃ old ∈ db.participants, old.reservationId = member.reservationId ∧
          old.userId = member.userId) ∨
        ∀ row ∈ db.reservations, member.reservationId = row.reservationId →
          db.Active row.dateStr row.groupId member.userId) :
    ({ db with participants := roster } : Db).RoundsActive := by
  intro row hrow
  obtain ⟨howner, hoperator, hmembers⟩ := h row hrow
  refine ⟨howner, hoperator, fun member hmember hid => ?_⟩
  rcases hroster member hmember with ⟨old, hold, holdId, huser⟩ | hactive
  · rw [← huser]
    exact hmembers old hold (holdId.trans hid)
  · exact hactive row hrow hid

theorem OnlyUsage.active (h : OnlyUsage db db') :
    ∀ row ∈ db.activeUsers, row ∈ db'.activeUsers := by
  intro row hrow
  have hsame : db'.activeUsers = db.activeUsers := h.writes .activeUsers (by decide)
  rw [hsame]
  exact hrow

theorem OnlyUsage.roundsActive (h : OnlyUsage db db') (hdb : db.RoundsActive) : db'.RoundsActive :=
  hdb.same (h.writes .reservations (by decide)) (h.writes .participants (by decide)) h.active

/-- Users are marked. -/
theorem markGroupActiveUsers_roundsActive (h : db.RoundsActive) (date : Date) (groupId : String)
    (userIds : List String) : (markGroupActiveUsers e date groupId userIds db).RoundsActive :=
  h.same (markGroupActiveUsers_writes e date groupId userIds db .reservations (by decide))
    (markGroupActiveUsers_writes e date groupId userIds db .participants (by decide))
    (markGroupActiveUsers_mono e date groupId userIds db)

/-- Marking and enrolling do not get in each other's way. -/
theorem markGroupActiveUsers_participants (e : Env) (date : Date) (groupId : String)
    (userIds : List String) (roster : List RoastReservationParticipant) (db : Db) :
    markGroupActiveUsers e date groupId userIds { db with participants := roster } =
      { markGroupActiveUsers e date groupId userIds db with participants := roster } := by
  unfold markGroupActiveUsers
  split_ifs <;> rfl

/-- What a prepare that met an active round leaves: its rounds are registered, and so is its
user if the answer lets them in. -/
structure LetIn (req : RoastReservationPrepareRequest) (response : RoastReservationPrepareResponse)
    (db : Db) : Prop where
  rounds : db.RoundsActive
  attacker : response.status = .reservationJoined ∨ response.status = .alreadyJoined →
    db.Active req.dateStr req.groupId req.attackerId

variable {req : RoastReservationPrepareRequest} {roll : Option DailyRoll}

/-- A round that is met is of the request's group and date. -/
structure Meets (db : Db) (req : RoastReservationPrepareRequest) (row : RoastReservation) :
    Prop where
  mem : row ∈ db.reservations
  date : row.dateStr = req.dateStr
  group : row.groupId = req.groupId

/-- What a round keeps while its target, its notice and its status change. -/
theorem parties_of_standing (h : row'.standing = row.standing) : row'.key = row.key ∧
    row'.ownerId = row.ownerId ∧ row'.forceOperatorId = row.forceOperatorId :=
  ⟨congrArg (·.key) h, congrArg (·.ownerId) h, congrArg (·.forceOperatorId) h⟩

theorem updateDeliveryCapability_parties (row : RoastReservation)
    (req : RoastReservationPrepareRequest) :
    (updateDeliveryCapability row req).key = row.key ∧
      (updateDeliveryCapability row req).ownerId = row.ownerId ∧
      (updateDeliveryCapability row req).forceOperatorId = row.forceOperatorId := by
  obtain ⟨bot, version, heq⟩ := updateDeliveryCapability_eq row req
  rw [heq]
  exact ⟨rfl, rfl, rfl⟩

/-- The user of the request is marked in the state it leaves. -/
theorem markGroupActiveUsers_meets (hmeets : Meets db req row) :
    Meets (markGroupActiveUsers e req.dateStr req.groupId [req.attackerId] db) req row ∧
      (markGroupActiveUsers e req.dateStr req.groupId [req.attackerId] db).Active row.dateStr
        row.groupId req.attackerId := by
  have hsame : (markGroupActiveUsers e req.dateStr req.groupId [req.attackerId] db).reservations =
      db.reservations :=
    markGroupActiveUsers_writes e req.dateStr req.groupId [req.attackerId] db .reservations
      (by decide)
  refine ⟨⟨?_, hmeets.date, hmeets.group⟩, ?_⟩
  · rw [hsame]
    exact hmeets.mem
  · rw [hmeets.date, hmeets.group]
    exact markGroupActiveUsers_active (List.mem_singleton_self req.attackerId)

theorem takeoverRound_letIn (h : db.RoundsActive) (hmeets : Meets db req row) :
    LetIn req (takeoverRound e req roll row members db).1
      (takeoverRound e req roll row members db).2 := by
  obtain ⟨hmarked, hattacker⟩ := markGroupActiveUsers_meets (e := e) hmeets
  obtain ⟨hkey, howner, hoperator⟩ := parties_of_standing
    (standing_activateIfArrived e members (takenOver row members req) (arrivedPigId row roll) true)
  refine ⟨?_, fun _ => ?_⟩
  · refine (markGroupActiveUsers_roundsActive h _ _ _).flush hmarked.mem hkey howner (Or.inr ?_)
    rw [hoperator]
    exact hattacker
  · rw [← hmeets.date, ← hmeets.group]
    exact hattacker

/-- A join is answered: the roster it leads to may name the user, who is marked. -/
theorem answerJoin_letIn (hmeets : Meets db req row) (hreq : req.forceMode ≠ some "super")
    (h : (markGroupActiveUsers e req.dateStr req.groupId [req.attackerId] db).RoundsActive)
    (status : PrepareStatus) :
    LetIn req (answerJoin e req roll row members status db).1
      (answerJoin e req roll row members status db).2 := by
  obtain ⟨hmarked, hattacker⟩ := markGroupActiveUsers_meets (e := e) hmeets
  obtain ⟨hkey, howner, hoperator⟩ :=
    parties_of_standing (standing_joinedRow e hreq roll row members)
  obtain ⟨hkey', howner', hoperator'⟩ := updateDeliveryCapability_parties row req
  refine ⟨?_, fun _ => ?_⟩
  · exact h.flush hmarked.mem (hkey.trans hkey') (howner.trans howner')
      (Or.inl (hoperator.trans hoperator'))
  · rw [← hmeets.date, ← hmeets.group]
    exact hattacker

/-- A participant asks again. -/
theorem rejoinRound_letIn (h : db.RoundsActive) (hmeets : Meets db req row)
    (hreq : req.forceMode ≠ some "super") {participant : RoastReservationParticipant}
    (hmember : participant ∈ db.participants)
    (hid : participant.reservationId = row.reservationId)
    (huser : participant.userId = req.attackerId) :
    LetIn req (rejoinRound e req roll row members participant db).1
      (rejoinRound e req roll row members participant db).2 := by
  have hattacker : db.Active req.dateStr req.groupId req.attackerId := by
    rw [← hmeets.date, ← hmeets.group, ← huser]
    exact (h row hmeets.mem).members participant hmember hid
  unfold rejoinRound
  dsimp only
  split
  · obtain ⟨hkey, howner, hoperator⟩ := updateDeliveryCapability_parties row req
    exact ⟨h.flush hmeets.mem hkey howner (Or.inl hoperator), fun _ => hattacker⟩
  · split
    · exact ⟨h, fun _ => hattacker⟩
    · rename_i paid hpay
      have hpaid := payBoost_some hpay
      have hpaidRounds := hpaid.roundsActive h
      have hrows : paid.reservations = db.reservations := hpaid.writes .reservations (by decide)
      have hpaidMeets : ∀ roster, Meets ({ paid with participants := roster } : Db) req row :=
        fun roster => ⟨hrows ▸ hmeets.mem, hmeets.date, hmeets.group⟩
      refine answerJoin_letIn (hpaidMeets _) hreq ?_ _
      refine markGroupActiveUsers_roundsActive
        (hpaidRounds.enroll fun member hmem => Or.inl ?_) _ _ _
      rcases Tables.mem_writeBack_singleton hmem with ⟨hold, -⟩ | rfl
      · exact ⟨member, hold, rfl, rfl⟩
      · have hstored : participant ∈ paid.participants := by
          rw [show paid.participants = db.participants from hpaid.writes .participants (by decide)]
          exact hmember
        split_ifs
        · exact ⟨participant, hstored, rfl, rfl⟩
        · exact ⟨participant, hstored, rfl, rfl⟩

/-- A user joins. -/
theorem enlistRound_letIn (h : db.RoundsActive) (hsound : db.Sound) (hmeets : Meets db req row)
    (hreq : req.forceMode ≠ some "super") :
    LetIn req (enlistRound e req roll row members db).1
      (enlistRound e req roll row members db).2 := by
  unfold enlistRound
  dsimp only
  split
  · exact ⟨h, by simp⟩
  · split
    · exact ⟨h, by simp⟩
    · rename_i paid hpay
      have hpaid := payBoost_some hpay
      have hrows : paid.reservations = db.reservations := hpaid.writes .reservations (by decide)
      have hpaidMeets : Meets paid req row := ⟨hrows ▸ hmeets.mem, hmeets.date, hmeets.group⟩
      have hjoinedMeets : ∀ roster, Meets ({ paid with participants := roster } : Db) req row :=
        fun roster => ⟨hpaidMeets.mem, hmeets.date, hmeets.group⟩
      refine answerJoin_letIn (hjoinedMeets _) hreq ?_ _
      obtain ⟨hmarked, hattacker⟩ := markGroupActiveUsers_meets (e := e) hpaidMeets
      have hmarkedRounds := markGroupActiveUsers_roundsActive (e := e) (hpaid.roundsActive h)
        req.dateStr req.groupId [req.attackerId]
      rw [markGroupActiveUsers_participants]
      refine hmarkedRounds.enroll fun member hmem => ?_
      have hparticipants : (markGroupActiveUsers e req.dateStr req.groupId [req.attackerId]
          paid).participants = paid.participants :=
        markGroupActiveUsers_writes e _ _ _ paid .participants (by decide)
      rcases List.mem_append.mp hmem with hold | hnew
      · exact Or.inl ⟨member, hparticipants ▸ hold, rfl, rfl⟩
      · refine Or.inr fun other hother hid => ?_
        obtain rfl := List.mem_singleton.mp hnew
        -- the new participant is of the round that was met
        have hreservations : (markGroupActiveUsers e req.dateStr req.groupId [req.attackerId]
            paid).reservations = paid.reservations :=
          markGroupActiveUsers_writes e _ _ _ paid .reservations (by decide)
        rw [hreservations, hrows] at hother
        rw [hsound.ids.eq hother hmeets.mem hid.symm]
        exact hattacker

/-- **Whoever is let into an active round is registered.** -/
theorem enterRound_letIn (h : db.RoundsActive) (hsound : db.Sound) (hmeets : Meets db req row) :
    LetIn req (enterRound e req roll row db).1 (enterRound e req roll row db).2 := by
  obtain ⟨hkey, howner, hoperator⟩ := updateDeliveryCapability_parties row req
  have hround := h row hmeets.mem
  unfold enterRound
  dsimp only
  split
  · refine ⟨?_, by simp⟩
    split
    · exact h.flush hmeets.mem hkey howner (Or.inl hoperator)
    · exact h.flush hmeets.mem rfl rfl (Or.inl rfl)
  · split
    · refine ⟨h, fun hstatus => ?_⟩
      -- a round that was taken over knows its operator, and its owner
      have hattacker : (if row.forceOperatorId ≠ "" then row.forceOperatorId else row.ownerId) =
          req.attackerId := by
        by_contra hother
        rw [if_neg hother] at hstatus
        simp at hstatus
      have hactive : db.Active row.dateStr row.groupId
          (if row.forceOperatorId ≠ "" then row.forceOperatorId else row.ownerId) := by
        split_ifs
        · exact hround.operator
        · exact hround.owner
      rw [hmeets.date, hmeets.group, hattacker] at hactive
      exact hactive
    · split
      · split
        · exact ⟨h, by simp⟩
        · exact takeoverRound_letIn h hmeets
      · rename_i hreq
        unfold joinRound
        split
        · rename_i participant hfind
          obtain ⟨hmember, hid⟩ := Db.mem_members.mp (List.mem_of_find?_eq_some hfind)
          have huser : participant.userId = req.attackerId := by
            simpa using List.find?_some hfind
          exact rejoinRound_letIn h hmeets hreq hmember hid huser
        · exact enlistRound_letIn h hsound hmeets hreq

/-- A round is opened by its owner, who is marked. -/
theorem insertRound_roundsActive (h : db.RoundsActive)
    (henrolled : ∀ member ∈ db.participants, member.reservationId ∈
      db.reservations.map (·.reservationId))
    {reservationId : String} (hfresh : ∀ row ∈ db.reservations, row.reservationId ≠ reservationId)
    (protection : Option GroupProtection) :
    (insertRound e req roll protection reservationId db).RoundsActive := by
  have hstanding := standing_insertedRow e req roll protection reservationId
  obtain ⟨hkey, howner, hoperator⟩ := parties_of_standing hstanding
  obtain ⟨hid, hdate, hgroup, -⟩ := key_eq.mp hkey
  have hmarked : ∀ {table}, Db.Active table req.dateStr req.groupId req.attackerId →
      table.Active (insertedRow e req roll protection reservationId).dateStr
        (insertedRow e req roll protection reservationId).groupId req.attackerId := by
    intro table hactive
    rw [hdate, hgroup]
    exact hactive
  have hwrites := markGroupActiveUsers_writes e req.dateStr req.groupId [req.attackerId]
    { db with
      reservations := db.reservations ++ [insertedRow e req roll protection reservationId]
      participants := db.participants ++ [ownerParticipant e req protection reservationId] }
  have hkept : ∀ row ∈ db.activeUsers,
      row ∈ (insertRound e req roll protection reservationId db).activeUsers := by
    intro row hrow
    unfold insertRound
    exact markGroupActiveUsers_mono e req.dateStr req.groupId [req.attackerId] _ row hrow
  have hattacker : (insertRound e req roll protection reservationId db).Active req.dateStr
      req.groupId req.attackerId :=
    markGroupActiveUsers_active (List.mem_singleton_self req.attackerId)
  have hrows : (insertRound e req roll protection reservationId db).reservations = _ :=
    hwrites .reservations (by decide)
  have hroster : (insertRound e req roll protection reservationId db).participants = _ :=
    hwrites .participants (by decide)
  intro row hrow
  rw [hrows] at hrow
  rcases List.mem_append.mp hrow with hold | hnew
  · obtain ⟨hownerActive, hoperatorActive, hmembers⟩ := h row hold
    refine ⟨hownerActive.mono hkept, hoperatorActive.mono hkept, fun member hmember hmemberId => ?_⟩
    rw [hroster] at hmember
    rcases List.mem_append.mp hmember with hthere | hcreated
    · exact (hmembers member hthere hmemberId).mono hkept
    · rw [List.mem_singleton.mp hcreated] at hmemberId
      exact absurd hmemberId.symm (hfresh row hold)
  · rw [List.mem_singleton.mp hnew]
    refine ⟨?_, Or.inr (Or.inl ?_), fun member hmember hmemberId => ?_⟩
    · rw [howner]
      exact hmarked hattacker
    · rw [hoperator]
      rfl
    · rw [hroster] at hmember
      rcases List.mem_append.mp hmember with hthere | hcreated
      · obtain ⟨other, hother, hsame⟩ := List.mem_map.mp (henrolled member hthere)
        exact absurd (hsame.trans (hmemberId.trans hid)) (hfresh other hother)
      · rw [List.mem_singleton.mp hcreated]
        exact hmarked hattacker

/-- **Whatever a prepare does, it registers whom it lets in.** -/
theorem Prepared.letIn {view : List DailyRoll} {expected : Option String} {reservationId : String}
    {response : RoastReservationPrepareResponse}
    (hprepared : Prepared e view req expected reservationId db response db') (h : db.RoundsActive)
    (hsound : db.Sound) (hfresh : ∀ row ∈ db.reservations, row.reservationId ≠ reservationId) :
    LetIn req response db' := by
  have hlocked := lockProtection_writes req db
  have hrows : (lockProtection req db).2.reservations = db.reservations :=
    hlocked .reservations (by decide)
  have hroster : (lockProtection req db).2.participants = db.participants :=
    hlocked .participants (by decide)
  have hlockedRounds : (lockProtection req db).2.RoundsActive :=
    h.same hrows hroster fun _ hrow => (lockProtection_extends req db).activeUsers.subset hrow
  cases hprepared with
  | refused hresponse _ hframe =>
      refine ⟨hframe.roundsActive hlockedRounds, ?_⟩
      rintro (hstatus | hstatus)
      all_goals simp [RoastReservationPrepareResponse.reconciles, hstatus] at hresponse
  | entered hfind =>
      obtain ⟨hrow, hdate, hgroup, -⟩ := findRound_some hfind
      have hevolves : Evolves {} [] db (lockProtection req db).2 :=
        lockProtection_evolves hsound req
      exact enterRound_letIn hlockedRounds hevolves.sound ⟨hrows ▸ hrow, hdate, hgroup⟩
  | @created paid _ _ _ _ _ hpaid _ hstatus =>
      have hopened := payForRound_ok hpaid
      have hpaidRows : paid.reservations = db.reservations := by
        rw [← hrows]
        exact hopened.writes .reservations (by decide)
      have hpaidRoster : paid.participants = db.participants := by
        rw [← hroster]
        exact hopened.writes .participants (by decide)
      refine ⟨insertRound_roundsActive (hopened.roundsActive hlockedRounds) ?_ ?_ _, ?_⟩
      · rw [hpaidRows, hpaidRoster]
        exact hsound.enrolled
      · rw [hpaidRows]
        exact hfresh
      · rw [hstatus]
        rintro (hother | hother) <;> cases hother

/-! ### The other steps of a round -/

variable {warrant : Warrant} {rolls : List DailyRoll} {r r' : Round}

/-- Only a prepare changes who has a place in a round. -/
theorem RoundStep.parties (h : RoundStep warrant rolls r r')
    (hnone : ∀ req, ¬ warrant.prepares req) :
    r'.row.key = r.row.key ∧ r'.row.ownerId = r.row.ownerId ∧
      r'.row.forceOperatorId = r.row.forceOperatorId ∧
      r'.members.map (·.userId) = r.members.map (·.userId) := by
  refine ⟨h.key, h.owner, (h.unprepared hnone).2.1, ?_⟩
  cases h with
  | join e req _ _ _ _ _ _ _ hadmits => exact absurd hadmits (hnone req)
  | upgrade e req _ _ _ _ _ _ _ hadmits => exact absurd hadmits (hnone req)
  | @sync row members e protection removed =>
      rcases syncMembers_cases removed row members with hsame | hboost
      · dsimp only
        rw [hsame]
      · dsimp only
        rw [hboost, boostMember_userId]
  | _ => rfl

theorem RoundSteps.parties (h : RoundSteps warrant rolls r r')
    (hnone : ∀ req, ¬ warrant.prepares req) :
    r'.row.key = r.row.key ∧ r'.row.ownerId = r.row.ownerId ∧
      r'.row.forceOperatorId = r.row.forceOperatorId ∧
      r'.members.map (·.userId) = r.members.map (·.userId) := by
  induction h with
  | refl => exact ⟨rfl, rfl, rfl, rfl⟩
  | tail _ hstep ih =>
      obtain ⟨hkey, howner, hoperator, hmembers⟩ := ih
      obtain ⟨hkey', howner', hoperator', hmembers'⟩ := hstep.parties hnone
      exact ⟨hkey'.trans hkey, howner'.trans howner, hoperator'.trans hoperator,
        hmembers'.trans hmembers⟩

theorem Evolves.roundsActive (hevolves : Evolves warrant rolls db db')
    (hnone : ∀ req, ¬ warrant.prepares req) (h : db.RoundsActive)
    (hkept : ∀ row ∈ db.activeUsers, row ∈ db'.activeUsers) : db'.RoundsActive := by
  intro row' hrow'
  obtain ⟨row, hrow, -, hsteps⟩ := hevolves.rounds row' hrow'
  obtain ⟨hkey, howner, hoperator, hmembers⟩ := hsteps.parties hnone
  obtain ⟨-, hdate, hgroup, -⟩ := key_eq.mp hkey
  replace hdate : row'.dateStr = row.dateStr := hdate
  replace hgroup : row'.groupId = row.groupId := hgroup
  replace howner : row'.ownerId = row.ownerId := howner
  replace hoperator : row'.forceOperatorId = row.forceOperatorId := hoperator
  replace hmembers : (db'.members row'.reservationId).map (·.userId) =
    (db.members row.reservationId).map (·.userId) := hmembers
  obtain ⟨hownerActive, hoperatorActive, hmembersActive⟩ := h row hrow
  refine ⟨?_, ?_, fun member hmember hid => ?_⟩
  · rw [hdate, hgroup, howner]
    exact hownerActive.mono hkept
  · rw [hdate, hgroup, hoperator]
    exact hoperatorActive.mono hkept
  · have huser : member.userId ∈ (db.members row.reservationId).map (·.userId) := by
      rw [← hmembers]
      exact List.mem_map_of_mem (Db.mem_members.mpr ⟨hmember, hid⟩)
    obtain ⟨old, hold, hsame⟩ := List.mem_map.mp huser
    obtain ⟨holdMember, holdId⟩ := Db.mem_members.mp hold
    rw [hdate, hgroup, ← hsame]
    exact (hmembersActive old holdMember holdId).mono hkept

end RollPig
