/-
A restart changes no electorate.

In every run of the service and its refills, whoever has a source of activity is registered:
each transaction keeps it of appearances, of events and of rounds.  So the backfill of group
activity, which a start of the service runs on the stored tables, adds nobody.
-/
import RollPig.Proofs.Registered

namespace RollPig

open Transition

variable {e : Env} {db db' : Db} {date : Date} {groupId userId : String} {tables : List Table}

/-! ### Transactions -/

/-- Whoever has a source of activity is registered. -/
structure Db.Registered (db : Db) : Prop where
  rolls : db.RollsActive
  events : db.EventsActive
  rounds : db.RoundsActive

variable {w w' : World} {event : Event}

/-- Whom a reply lets in is registered, and appears in the group. -/
theorem joinByMessage_registered {view : List DailyRoll} {req : RoastReservationReplyJoinRequest}
    {response : RoastReservationPrepareResponse} (hreg : db.Registered) (hsound : db.Sound)
    (hfresh : ∀ row ∈ db.reservations, row.reservationId ≠ e.uuid 0)
    (h : joinByMessage e view req db = .ok (response, db')) :
    db'.RollsActive ∧ db'.RoundsActive := by
  rcases joinByMessage_answered h with
    rfl | ⟨reservation, roll, expected, replied, -, hprepared, hregistered⟩
  · exact ⟨hreg.rolls, hreg.rounds⟩
  · have hletIn := hprepared.letIn hreg.rounds hsound hfresh
    have hrolls : replied.RollsActive := hreg.rolls.same
      (hprepared.writes .groupRolls (by decide)) fun _ hrow =>
        hprepared.extends.activeUsers.subset hrow
    rcases hregistered with rfl | ⟨hstatus, rfl⟩
    · exact ⟨hrolls, hletIn.rounds⟩
    · refine ⟨registerReply_rollsActive hrolls req roll (hletIn.attacker hstatus), ?_⟩
      have hwrites := registerReply_writes e req roll replied
      refine hletIn.rounds.same (hwrites .reservations (by decide))
        (hwrites .participants (by decide)) ?_
      have hsame : (registerReply e req roll replied).activeUsers = replied.activeUsers :=
        hwrites .activeUsers (by decide)
      rw [hsame]
      exact fun _ hrow => hrow

/-- What a transaction leaves alone stays registered. -/
theorem Action.transaction_kept (e : Env) (db : Db) (action : Action) :
    ∀ row ∈ db.activeUsers, row ∈ (action.transaction e db).db.activeUsers :=
  fun _ hrow => (action.transaction_extends e db).activeUsers.subset hrow

theorem Request.transaction_rollsActive (hreg : db.Registered) (hsound : db.Sound)
    (hfresh : ∀ row ∈ db.reservations, row.reservationId ≠ e.uuid 0) (view : List DailyRoll)
    (r : Request) : (r.transaction e view db).db.RollsActive := by
  have hkept := Action.transaction_kept e db (.request r view)
  have hwrites := r.transaction_writes e view db
  cases r with
  | getOrCreate req =>
      have hdone := getOrCreateDailyRoll_rollsActive (e := e) hreg.rolls req
      simp only [Request.transaction]
      split <;> simp_all
  | joinByMessage req =>
      simp only [Request.transaction]
      split
      · exact hreg.rolls
      · exact (joinByMessage_registered hreg hsound hfresh (by assumption)).1
  | _ => exact hreg.rolls.same (hwrites .groupRolls (by simp [Request.written, roundTables])) hkept

theorem Request.transaction_eventsActive (h : db.EventsActive) (view : List DailyRoll)
    (r : Request) : (r.transaction e view db).db.EventsActive := by
  have hkept := Action.transaction_kept e db (.request r view)
  have hwrites := r.transaction_writes e view db
  cases r with
  | createEvent req => exact createEvent_eventsActive h req
  | complete req => exact complete_eventsActive h req
  | _ => exact h.same (hwrites .roastEvents (by simp [Request.written, roundTables])) hkept

/-- **Every transaction registers whom it gives a source of activity.** -/
theorem World.Sound.registered (hsound : w.Sound) (hstep : service.step w event w')
    (hreg : w.db.Registered) : w'.db.Registered := by
  have hrounds := hsound.step_rounds hstep
  obtain ⟨hfreshEnv, -, -, rfl⟩ := hstep
  have hfresh : ∀ row ∈ w.db.reservations, row.reservationId ≠ event.env.uuid 0 :=
    fun row hrow hsame => hfreshEnv.unissued 0 (hsame ▸ hsound.issued row hrow)
  have hkept := event.action.transaction_kept event.env w.db
  cases haction : event.action with
  | reconcile flight =>
      rw [haction] at hrounds hkept
      have hwrites := flight.transaction_writes event.env w.db
      refine ⟨hreg.rolls.same (hwrites .groupRolls (by decide)) hkept,
        hreg.events.same (hwrites .roastEvents (by decide)) hkept, ?_⟩
      cases hrounds with
      | evolves hevolves =>
          refine hevolves.roundsActive ?_ hreg.rounds hkept
          intro req hadmits
          unfold Event.warrant at hadmits
          rw [haction] at hadmits
          exact hadmits
      | creates req view new owner hcreates =>
          rw [haction] at hcreates
          cases hcreates
  | request r view =>
      rw [haction] at hrounds hkept
      refine ⟨r.transaction_rollsActive hreg hsound.db hfresh view,
        r.transaction_eventsActive hreg.events view, ?_⟩
      by_cases hprepares : (∃ req, r = .prepare req) ∨ ∃ reply, r = .joinByMessage reply
      · rcases hprepares with ⟨req, rfl⟩ | ⟨reply, rfl⟩
        · show (Request.transaction event.env view w.db (.prepare req)).db.RoundsActive
          simp only [Request.transaction]
          split
          · exact hreg.rounds
          · have hprepared := prepareReservation_cases (by assumption)
            exact (hprepared.letIn hreg.rounds hsound.db hfresh).rounds
        · show (Request.transaction event.env view w.db (.joinByMessage reply)).db.RoundsActive
          simp only [Request.transaction]
          split
          · exact hreg.rounds
          · exact (joinByMessage_registered hreg hsound.db hfresh (by assumption)).2
      · cases hrounds with
        | evolves hevolves =>
            refine hevolves.roundsActive ?_ hreg.rounds hkept
            intro req hadmits
            unfold Event.warrant at hadmits
            rw [haction] at hadmits
            cases r with
            | prepare req => exact hprepares (Or.inl ⟨req, rfl⟩)
            | joinByMessage reply => exact hprepares (Or.inr ⟨reply, rfl⟩)
            | _ => exact hadmits
        | creates req seen new owner hcreates =>
            rw [haction] at hcreates
            obtain ⟨rfl, -⟩ := Action.request.inj hcreates
            exact absurd (Or.inl ⟨req, rfl⟩) hprepares

theorem Db.Registered.empty : ({} : Db).Registered :=
  ⟨fun _ h => (nomatch h), fun _ h => (nomatch h), fun _ h => (nomatch h)⟩

/-- Nothing but users is added. -/
theorem Db.Registered.writes (h : db.Registered) (hwrites : db.Writes tables db')
    (hout : Table.groupRolls ∉ tables ∧ Table.roastEvents ∉ tables ∧ Table.reservations ∉ tables ∧
      Table.participants ∉ tables) (hkept : ∀ row ∈ db.activeUsers, row ∈ db'.activeUsers) :
    db'.Registered := by
  obtain ⟨hrolls, hevents, hrows, hmembers⟩ := hout
  exact ⟨h.rolls.same (hwrites .groupRolls hrolls) hkept,
    h.events.same (hwrites .roastEvents hevents) hkept,
    h.rounds.same (hwrites .reservations hrows) (hwrites .participants hmembers) hkept⟩

variable {c c' : Cloud} {cloudEvent : CloudEvent} {cloudEvents : List CloudEvent}

/-- A step of the cloud keeps its world sound and everybody registered. -/
theorem cloud_registered_step (hactive : c.world.db.ActiveOnce) (hsound : c.world.Sound)
    (hreg : c.world.db.Registered) (hstep : cloud.step c cloudEvent c') :
    c'.world.Sound ∧ c'.world.db.Registered := by
  cases cloudEvent with
  | api operation =>
      obtain ⟨hapi, -⟩ := hstep
      cases operation with
      | transaction event => exact ⟨hsound.step hapi, hsound.registered hapi hreg⟩
      | markSeen e req =>
          have hseen : c'.world = c.world.seen e req := hapi
          rw [hseen]
          refine ⟨hsound.seen e req, markSeen_rollsActive hreg.rolls req, ?_, ?_⟩
          · exact hreg.events.same (markSeen_writes e req _ .roastEvents (by decide)) fun _ hrow =>
              (markSeen_extends e req c.world.db).activeUsers.subset hrow
          · exact hreg.rounds.same (markSeen_writes e req _ .reservations (by decide))
              (markSeen_writes e req _ .participants (by decide)) fun _ hrow =>
                (markSeen_extends e req c.world.db).activeUsers.subset hrow
  | markActive e date groupId userIds =>
      obtain rfl : c' = c.put (RoastRefills.markActiveUsers e date groupId userIds c.store).2 :=
        hstep
      have hwrites := markGroupActiveUsers_writes e date groupId userIds c.world.db
      exact ⟨hsound.put (hwrites .dailyRolls (by decide)) (hwrites .reservations (by decide))
          (hwrites .participants (by decide)),
        hreg.writes hwrites (by decide) (markGroupActiveUsers_mono e date groupId userIds _)⟩
  | refill e request response =>
      obtain ⟨-, rfl⟩ := hstep
      have honly : OnlyUsage c.world.db (request.transaction e c.store).2.db :=
        RefillRequest.transaction_onlyUsage hactive request
      exact ⟨hsound.put (honly.writes .dailyRolls (by decide))
          (honly.writes .reservations (by decide)) (honly.writes .participants (by decide)),
        hreg.writes honly.writes (by decide) honly.active⟩

/-- **In every run whoever has a source of activity is registered.** -/
theorem cloud_registered (hrun : Run cloud {} cloudEvents c) :
    c.world.Sound ∧ c.world.db.Registered := by
  induction hrun with
  | nil => exact ⟨World.Sound.empty, Db.Registered.empty⟩
  | snoc hrun hstep ih =>
      exact cloud_registered_step (cloud_sound hrun).active ih.1 ih.2 hstep

/-! ### A restart -/

theorem Db.Active.mem (h : db.Active date groupId userId) (hgroup : groupId ≠ "")
    (huser : userId ≠ "") : (date, groupId, userId) ∈ db.activeUsers.map GroupDailyActiveUser.key :=
  (h.resolve_left hgroup).resolve_left huser

/-- A source of a registered user is one of a user on the table. -/
theorem Db.Registered.source (h : db.Registered) {time : Time}
    (hsource : time ∈ db.sourceTimes date groupId userId) :
    (date, groupId, userId) ∈ db.activeUsers.map GroupDailyActiveUser.key := by
  obtain ⟨hgroup, huser, hsource⟩ := hsource
  refine Db.Active.mem ?_ hgroup huser
  cases hsource with
  | groupRoll row hrow hkey =>
      obtain ⟨rfl, rfl, rfl⟩ := hkey
      exact h.rolls row hrow
  | attacker row hrow hkey =>
      obtain ⟨rfl, rfl, rfl⟩ := hkey
      exact (h.events row hrow).1
  | target row hrow hbot hkey =>
      obtain ⟨rfl, rfl, rfl⟩ := hkey
      exact (h.events row hrow).2 hbot
  | owner row hrow hkey =>
      obtain ⟨rfl, rfl, rfl⟩ := hkey
      exact (h.rounds row hrow).owner
  | participant row hrow member hmember hid hkey =>
      obtain ⟨rfl, rfl, rfl⟩ := hkey
      exact (h.rounds row hrow).members member hmember hid

/-- A backfill adds nobody who was registered. -/
theorem Db.Registered.backfill (h : db.Registered) (startDate endDate : Date) :
    (backfillGroupActivity startDate endDate db).activeUsers.map GroupDailyActiveUser.key =
      db.activeUsers.map GroupDailyActiveUser.key := by
  rw [backfillGroupActivity_eq]
  refine foldl_upsertActivity_keys fun row hrow => ?_
  obtain ⟨hsource, -⟩ := List.mem_filter.mp hrow
  exact h.source (mem_groupActivitySources.mp hsource)

/-- The migrations of the rounds before it change nobody's place. -/
theorem Db.RoundsActive.map (h : db.RoundsActive) {f : RoastReservation → RoastReservation}
    (hf : ∀ row, (f row).key = row.key ∧ (f row).ownerId = row.ownerId ∧
      (f row).forceOperatorId = row.forceOperatorId) :
    ({ db with reservations := db.reservations.map f } : Db).RoundsActive := by
  intro row' hrow'
  obtain ⟨row, hrow, rfl⟩ := List.mem_map.mp hrow'
  obtain ⟨howner, hoperator, hmembers⟩ := h row hrow
  obtain ⟨hkey, hsameOwner, hsameOperator⟩ := hf row
  obtain ⟨hid, hdate, hgroup, -⟩ := key_eq.mp hkey
  refine ⟨?_, ?_, fun member hmember hmemberId => ?_⟩
  · rw [hdate, hgroup, hsameOwner]
    exact howner
  · rw [hdate, hgroup, hsameOperator]
    exact hoperator
  · rw [hdate, hgroup]
    exact hmembers member hmember (hmemberId.trans hid)

/-- **A restart adds nobody who was registered.** -/
theorem Db.Registered.restart (h : db.Registered) (e : Env) :
    (initDb e db).activeUsers.map GroupDailyActiveUser.key =
      db.activeUsers.map GroupDailyActiveUser.key := by
  have husage : (migrateExistingUserUsage e db).Registered :=
    ⟨h.rolls, h.events, h.rounds.same rfl rfl fun _ hrow => hrow⟩
  have hambiguous :
      (migrateAmbiguousRoastReservations (migrateExistingUserUsage e db)).Registered :=
    ⟨husage.rolls, husage.events,
      husage.rounds.map fun row => by split_ifs <;> exact ⟨rfl, rfl, rfl⟩⟩
  have hslots : (migrateActiveSlots
      (migrateAmbiguousRoastReservations (migrateExistingUserUsage e db))).Registered :=
    ⟨hambiguous.rolls, hambiguous.events,
      hambiguous.rounds.map fun row => by split_ifs <;> exact ⟨rfl, rfl, rfl⟩⟩
  exact hslots.backfill _ _

/-- Who may vote is read off the keys of the table. -/
theorem getGroupActiveUserIds_eq (h : db'.activeUsers.map GroupDailyActiveUser.key =
    db.activeUsers.map GroupDailyActiveUser.key) (date : Date) (groupId : String) :
    getGroupActiveUserIds db' date groupId = getGroupActiveUserIds db date groupId := by
  have hkeys : ∀ rows : List GroupDailyActiveUser,
      (rows.filter fun row => row.dateStr = date ∧ row.groupId = groupId ∧
        (none : Option Time).all (row.activeAt ≤ ·)).map (·.userId) =
      ((rows.map GroupDailyActiveUser.key).filter fun k => k.1 = date ∧ k.2.1 = groupId).map
        (·.2.2) := by
    intro rows
    rw [List.filter_map, List.map_map]
    congr 1
    refine List.filter_congr fun row _ => ?_
    show decide _ = decide _
    rw [decide_eq_decide]
    simp [GroupDailyActiveUser.key]
  unfold getGroupActiveUserIds
  rw [hkeys, hkeys, h]

/-- **The backfill of group activity finds nothing to do for the service.**  On any table it
keeps the earliest of the stored time and the times of all sources, inside the window only,
and a second one changes nothing.  In every state the endpoints reach it adds no row, so a
restart leaves every electorate as it is. -/
theorem group_activity_backfilled :
    (∀ db : Db, Tables.Unique GroupDailyActiveUser.key db.activeUsers → ∀ startDate endDate,
        Backfilled startDate endDate db (backfillGroupActivity startDate endDate db)) ∧
      ∀ events c, Run cloud {} events c →
        (∀ startDate endDate,
          (backfillGroupActivity startDate endDate c.world.db).activeUsers.map
            GroupDailyActiveUser.key = c.world.db.activeUsers.map GroupDailyActiveUser.key) ∧
          ∀ e date groupId, getGroupActiveUserIds (initDb e c.world.db) date groupId =
            getGroupActiveUserIds c.world.db date groupId := by
  refine ⟨fun db h startDate endDate => backfillGroupActivity_backfilled h startDate endDate, ?_⟩
  intro events c hrun
  obtain ⟨-, hreg⟩ := cloud_registered hrun
  exact ⟨hreg.backfill, fun e date groupId =>
    getGroupActiveUserIds_eq (hreg.restart e) date groupId⟩

def seenRequest : GroupRollMarkSeenRequest :=
  { dateStr := 739000, groupId := "g", userId := "u", pigId := "pig" }

/-- The cloud after one appearance. -/
def seenCloud : Cloud := { world := ({} : World).seen midnightEnv seenRequest }

/-- A user was marked later than they appeared. -/
def lateMarked : Db where
  groupRolls := [{ dateStr := 739000, groupId := "g", userId := "u", pigId := "pig", seenAt := 3 }]
  activeUsers := [{ dateStr := 739000, groupId := "g", userId := "u", activeAt := 7 }]

/-- The late mark is moved to the appearance; the endpoint marked in time. -/
theorem group_activity_backfilled_late :
    IsLeast (lateMarked.activeTimes 739000 "g" "u") 3 ∧
      (backfillGroupActivity 739000 739000 seenCloud.world.db).activeUsers.map
        GroupDailyActiveUser.key = [(739000, "g", "u")] ∧
      getGroupActiveUserIds (initDb midnightEnv seenCloud.world.db) 739000 "g" = ["u"] := by
  have hlate : Backfilled 739000 739000 lateMarked
      (backfillGroupActivity 739000 739000 lateMarked) :=
    group_activity_backfilled.1 lateMarked (by decide) 739000 739000
  have hrun : Run cloud {} [.api (.markSeen midnightEnv seenRequest)] seenCloud :=
    Run.single ⟨rfl, rfl⟩
  obtain ⟨hkeys, hvoters⟩ := group_activity_backfilled.2 _ _ hrun
  refine ⟨(hlate.least 739000 "g" "u" 3 (by decide)).mp (by decide +kernel), ?_, ?_⟩
  · rw [hkeys]
    decide +kernel
  · rw [hvoters]
    decide +kernel

end RollPig
