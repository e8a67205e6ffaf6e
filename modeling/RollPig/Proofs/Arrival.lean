/-
No arrival is missed.

A prepare may look for the target's roll in a snapshot from before it was committed, and
a roll may look for waiting rounds before the prepare commits one.  Neither sees the
other, but each request has a second transaction: the one of the prepare reads the rolls
again.  So for every waiting round whose target has rolled, the round goes by the
target's pig or a prepare that will still reconcile it is in flight (`World.Greeted`).
Once no request is in flight, only rounds short of their threshold go on waiting.
-/
import RollPig.Proofs.Slots

namespace RollPig

open Transition

variable {warrant : Warrant} {rolls : List DailyRoll} {r r' : Round} {w w' : World} {event : Event}
  {db : Db} {e : Env} {date : Date} {targetId pigId : String}

/-! ### Offering a pig to the waiting rounds -/

/-- The waiting rounds of a target go by its pig. -/
def Greeted (db : Db) (date : Date) (targetId pigId : String) : Prop :=
  ∀ row ∈ db.reservations, row.status = .pending → row.dateStr = date → row.targetId = targetId →
    row.targetPigId = pigId

theorem arriveRow_pig (handledId : String) (row : RoastReservation)
    (members : List RoastReservationParticipant) :
    (arriveRow e pigId handledId row members).1.targetPigId = pigId := by
  unfold arriveRow
  dsimp only
  rcases activateReservation_cases e members row pigId (!decide (row.reservationId = handledId)) with
    ⟨-, heq⟩ | ⟨-, notice, heq⟩
  · rw [heq]
    split_ifs <;> rfl
  · rw [heq]
    split_ifs <;> rfl

/-- An arrival leaves no waiting round of the target out. -/
theorem activateTargetReservations_greets (handledId : String)
    (hpresent : (presentRoll db.dailyRolls date targetId).isSome = true) :
    Greeted (activateTargetReservations e date targetId pigId db handledId).2 date targetId pigId := by
  intro row hrow hpending hdate htarget
  obtain ⟨roll, hroll⟩ := Option.isSome_iff_exists.mp hpresent
  obtain ⟨hfind, hmakeup⟩ := Option.filter_eq_some_iff.mp hroll
  have hlookup : db.dailyRoll? date targetId = some roll := hfind
  unfold activateTargetReservations at hrow
  have hreal : roll.isMakeup = false := by simpa using hmakeup
  simp only [hlookup, hreal, Bool.false_eq_true, if_false] at hrow
  rcases Tables.mem_writeBack hrow with ⟨hold, hout⟩ | ⟨hnew, -⟩
  · -- an old row that waits for the target is among the rewritten ones
    refine absurd ?_ (hout (arriveRow e pigId handledId row (db.members row.reservationId)).1 ?_)
    · simp
    · refine List.mem_map.mpr ⟨_, List.mem_map.mpr ⟨row, List.mem_filter.mpr ⟨hold, ?_⟩, rfl⟩, rfl⟩
      simp [awaitsTarget, hpending, hdate, htarget]
  · obtain ⟨arrival, harrival, rfl⟩ := List.mem_map.mp hnew
    obtain ⟨old, -, rfl⟩ := List.mem_map.mp harrival
    exact arriveRow_pig handledId old _

/-- The transaction that creates a roll offers it. -/
theorem getOrCreateDailyRoll_greets {req : DailyRollGetOrCreateRequest}
    (hnone : db.dailyRoll? req.dateStr req.userId = none) :
    Greeted (getOrCreateDailyRoll e req db).2 req.dateStr req.userId req.proposedPigId := by
  unfold getOrCreateDailyRoll
  simp only [hnone]
  refine activateTargetReservations_greets "" ?_
  obtain ⟨progress, -, hrolls⟩ := createDailyRoll_rolls e
    { userId := req.userId, pigId := req.proposedPigId, dateStr := req.dateStr,
      createdAt := e.dbNow } db
  have hmissing : (db.dailyRolls.find? fun roll =>
      roll.dateStr = req.dateStr ∧ roll.userId = req.userId) = none := hnone
  simp only [ensureGroupRoll_frame, hrolls, presentRoll, List.find?_append, hmissing]
  simp [DailyRoll.withProgress, DailyRoll.isMakeup]

/-- The second transaction of a prepare offers the roll that is there by then. -/
theorem reconcilePrepare_greets {flight : PrepareInFlight}
    (hunique : Tables.Unique rollKey db.dailyRolls)
    (hrolled : Rolled db.dailyRolls flight.dateStr flight.targetId pigId) :
    Greeted (reconcilePrepare e flight db).2 flight.dateStr flight.targetId pigId := by
  obtain ⟨roll, hroll, rfl⟩ := presentRoll_of_rolled hunique hrolled
  unfold reconcilePrepare activateIfTargetAlreadyRolled
  simp only [hroll]
  split <;> exact activateTargetReservations_greets _ (by simp [hroll])

/-- What a step adds to the presence of a target, it offers to the waiting rounds. -/
theorem step_greets (hstep : service.step w event w')
    (hrolled : Rolled w'.db.dailyRolls date targetId pigId) :
    Rolled w.db.dailyRolls date targetId pigId ∨ Greeted w'.db date targetId pigId := by
  obtain ⟨-, -, -, rfl⟩ := hstep
  have hrolls := event.action.transaction_rolls event.env w.db
  change Rolled (event.action.transaction event.env w.db).db.dailyRolls _ _ _ at hrolled
  show _ ∨ Greeted (event.action.transaction event.env w.db).db _ _ _
  generalize hafter : (event.action.transaction event.env w.db).db.dailyRolls = after at hrolls hrolled
  cases hrolls with
  | same => exact Or.inl hrolled
  | completed old hold version payload =>
      obtain ⟨roll, hroll, hdate, huser, hpig, hmakeup⟩ := hrolled
      rcases Tables.mem_writeBack_singleton hroll with ⟨hmem, -⟩ | rfl
      · exact Or.inl ⟨roll, hmem, hdate, huser, hpig, hmakeup⟩
      · exact Or.inl ⟨old, hold, hdate, huser, hpig, hmakeup⟩
  | created new hdraws hnew =>
      obtain ⟨roll, hroll, hdate, huser, hpig, hmakeup⟩ := hrolled
      rcases List.mem_append.mp hroll with hold | hlast
      · exact Or.inl ⟨roll, hold, hdate, huser, hpig, hmakeup⟩
      · obtain rfl := List.mem_singleton.mp hlast
        right
        cases haction : event.action with
        | reconcile flight =>
            rw [haction] at hdraws
            exact hdraws.elim
        | request request view =>
            rw [haction] at hdraws
            cases request with
            | makeup req =>
                obtain ⟨-, -, -, hmade⟩ := hdraws
                rw [hmakeup] at hmade
                exact absurd hmade (by simp)
            | getOrCreate req =>
                obtain ⟨hreqDate, hreqUser, hreqPig, -⟩ := hdraws
                have hnone : w.db.dailyRoll? req.dateStr req.userId = none := by
                  refine List.find?_eq_none.mpr fun old hold hfound => ?_
                  simp only [decide_eq_true_eq] at hfound
                  exact hnew old hold ⟨hfound.1.trans hreqDate.symm, hfound.2.trans hreqUser.symm⟩
                have hgreets := getOrCreateDailyRoll_greets (e := event.env) hnone
                rw [← hdate, ← huser, ← hpig, hreqDate, hreqUser, hreqPig]
                simp only [Action.transaction, Request.transaction]
                split <;> simp_all
            | _ => exact hdraws.elim

/-! ### Every waiting round is greeted, or will be -/

/-- A waiting round that goes by the pig of its target goes on doing so. -/
theorem RoundStep.pig (hunique : Tables.Unique rollKey rolls)
    (hrolled : Rolled rolls r.row.dateStr r.row.targetId pigId)
    (h : RoundStep warrant rolls r r') (hpig : r.row.targetPigId = pigId) :
    r'.row.targetPigId = pigId := by
  rcases h.crowd with hsame | hgathers
  · exact (congrArg Gathering.State.pig hsame).trans hpig
  · rcases hgathers.pig with hkept | hnew
    · exact hkept.trans hpig
    · exact Rolled.eq hunique hnew hrolled

theorem RoundSteps.pig (hunique : Tables.Unique rollKey rolls)
    (hrolled : Rolled rolls r.row.dateStr r.row.targetId pigId)
    (h : RoundSteps warrant rolls r r') (hpig : r.row.targetPigId = pigId) :
    r'.row.key = r.row.key ∧ r'.row.targetPigId = pigId := by
  induction h with
  | refl => exact ⟨rfl, hpig⟩
  | tail _ hlast ih =>
      obtain ⟨hkey, hbefore⟩ := ih
      obtain ⟨-, hdate, -, htarget⟩ := key_eq.mp hkey
      exact ⟨hlast.key.trans hkey, hlast.pig hunique (by rwa [hdate, htarget]) hbefore⟩

/-- Where the target has rolled, a waiting round goes by its pig, or a prepare that will
reconcile it is in flight. -/
def World.Greeted (w : World) : Prop :=
  ∀ row ∈ w.db.reservations, row.status = .pending → ∀ pigId,
    Rolled w.db.dailyRolls row.dateStr row.targetId pigId →
      row.targetPigId = pigId ∨ ∃ flight, .prepare flight ∈ w.flights ∧
        flight.dateStr = row.dateStr ∧ flight.targetId = row.targetId

theorem World.Greeted.step (hsound : w.Sound) (h : w.Greeted) (hstep : service.step w event w') :
    w'.Greeted := by
  intro row' hrow' hpending pigId hrolled
  rcases step_greets hstep hrolled with hbefore | hgreeted
  · cases hsound.step_rounds hstep with
    | creates req view new owner haction hcreates hflight =>
        obtain ⟨response, hflight⟩ := hflight
        obtain ⟨-, hdate, -, htarget⟩ := hcreates.key
        rw [hcreates.reservations] at hrow'
        rcases List.mem_append.mp hrow' with hold | hlast
        · rcases h row' hold hpending pigId hbefore with hpig | ⟨flight, hmem, hkey⟩
          · exact Or.inl hpig
          · refine Or.inr ⟨flight, ?_, hkey⟩
            obtain ⟨-, -, -, rfl⟩ := hstep
            simp only [World.after, haction, Action.otherFlights]
            exact List.mem_append_right _ hmem
        · obtain rfl := List.mem_singleton.mp hlast
          exact Or.inr ⟨_, hflight, hdate.symm, htarget.symm⟩
    | evolves hevolves =>
        obtain ⟨row, hrow, hid, hsteps⟩ := hevolves.rounds row' hrow'
        have hkey : row'.key = row.key := by
          refine hsteps.keeps (P := fun r => r.row.key = row.key) ?_ rfl
          intro r r' hstep hsame
          exact hstep.key.trans hsame
        obtain ⟨-, hdate, -, htarget⟩ := key_eq.mp hkey
        have hopen : row.status = .pending := by
          by_contra hopened
          refine hsteps.keeps (P := fun r => r.row.status ≠ .pending) ?_ hopened hpending
          intro r r' hstep hopened hagain
          exact hopened (hstep.pending hagain)
        rw [hdate, htarget] at hbefore hrolled ⊢
        rcases h row hrow hopen pigId hbefore with hpig | ⟨flight, hmem, hflightDate, hflightTarget⟩
        · have hunique := (hsound.step hstep).rolls
          exact Or.inl (hsteps.pig hunique hrolled hpig).2
        · by_cases hreconciles : event.action = .reconcile (.prepare flight)
          · left
            obtain ⟨-, -, -, rfl⟩ := hstep
            simp only [World.after, hreconciles, Action.transaction, Flight.transaction] at hrow'
            rw [← hflightDate, ← hflightTarget] at hbefore
            refine reconcilePrepare_greets hsound.rolls hbefore row' hrow' hpending ?_ ?_
            · rw [hdate, hflightDate]
            · rw [htarget, hflightTarget]
          · refine Or.inr ⟨flight, ?_, hflightDate, hflightTarget⟩
            obtain ⟨-, -, -, rfl⟩ := hstep
            refine List.mem_append_right _ ?_
            cases haction : event.action with
            | request r view => exact hmem
            | reconcile other =>
                refine (List.mem_erase_of_ne ?_).mpr hmem
                rintro rfl
                exact hreconciles haction
  · exact Or.inl (hgreeted row' hrow' hpending rfl rfl)

theorem greeted_of_reachable (h : Reachable service w) : w.Greeted := by
  refine Reachable.invariant (I := World.Greeted) ?_ ?_ h
  · intro w hinit
    obtain rfl : w = {} := hinit
    simp [World.Greeted]
  · intro w event w' hreach hgreeted hstep
    exact hgreeted.step (sound_of_reachable hreach) hstep

/-- **No arrival is missed.**  However the transactions of prepares, replies and rolls were
interleaved and whatever versions of the rolls they saw: when none of them is in flight
and the target has rolled a pig, every round that still waits for the target goes by that
pig, and is protected, not super and short of its threshold. -/
theorem no_arrival_missed (h : Reachable service w) (hquiet : w.flights = [])
    (hrolled : Rolled w.db.dailyRolls date targetId pigId) (hpig : pigId ≠ "") :
    ∀ row ∈ w.db.reservations, row.dateStr = date → row.targetId = targetId →
      row.status = .pending →
        row.targetPigId = pigId ∧ row.forceMode ≠ some "super" ∧ 0 < row.protectionRequired ∧
          totalContribution (w.db.members row.reservationId) < row.protectionRequired := by
  intro row hrow hdate htarget hpending
  have hgreeted : row.targetPigId = pigId := by
    rw [← hdate, ← htarget] at hrolled
    rcases greeted_of_reachable h row hrow hpending pigId hrolled with hpig | ⟨flight, hflight, -⟩
    · exact hpig
    · rw [hquiet] at hflight
      exact absurd hflight (by simp)
  have hmet := (rounds_ignited h row hrow).waits (Round.crowd_opened.mpr hpending)
    (by simpa [Round.crowd, Db.round, hgreeted] using hpig)
  rw [Round.crowd_met] at hmet
  push Not at hmet
  obtain ⟨hforce, hless⟩ := hmet
  exact ⟨hgreeted, hforce, Nat.lt_of_le_of_lt (Nat.zero_le _) hless, hless⟩

/-- User 2 is protected; user 1 aims at user 2, who rolls a boar before the prepare of
user 1 has reconciled. -/
def crossedScript : List (Time × Order) :=
  let day : Date := 739000
  let now : Time := 739000 * dayMicros
  [(now, .request (.grant scriptGrant)),
    (now, .request (.prepare
      { attackerId := "1", attackerPigId := "pig", targetId := "2", groupId := "7",
        deliveryBotId := "bot", dateStr := day,
        supportsProtectionGathering := true, protectionGatheringVersion := 2 })),
    (now, .request (.getOrCreate { userId := "2", proposedPigId := "boar", dateStr := day })),
    (now, .finish 1),
    (now, .finish 0)]

theorem no_arrival_missed_crossed :
    ∃ row ∈ (scriptWorld crossedScript).db.reservations,
      row.status = .pending ∧ row.targetPigId = "boar" ∧
        totalContribution ((scriptWorld crossedScript).db.members row.reservationId) <
          row.protectionRequired := by
  obtain ⟨row, hrow, hdate, htarget, hpending⟩ :
      ∃ row ∈ (scriptWorld crossedScript).db.reservations,
        row.dateStr = 739000 ∧ row.targetId = "2" ∧ row.status = .pending := by decide +kernel
  have hrolled : Rolled (scriptWorld crossedScript).db.dailyRolls 739000 "2" "boar" := by
    unfold Rolled
    decide +kernel
  obtain ⟨hpig, -, -, hless⟩ := no_arrival_missed (script_reachable (by decide +kernel))
    (by decide +kernel) hrolled (by decide) row hrow hdate htarget hpending
  exact ⟨row, hrow, hpending, hpig, hless⟩

end RollPig
