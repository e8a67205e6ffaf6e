/-
A round with an arrived target has left `pending` exactly when its threshold is met.

The argument is the one of `Gathering`: every change of the crowd, of the terms or of
the target's presence tries the threshold again.  What is added here is that the pigs
the rounds go by are real ones, which takes that no client proposes an empty pig id.
-/
import RollPig.Proofs.Lifecycle
import RollPig.Proofs.Script
import RollPig.Proofs.Worlds

namespace RollPig

open Transition

/-- The action draws no pig without an id. -/
def Event.NamesPigs (event : Event) : Prop :=
  match event.action with
  | .request (.getOrCreate req) _ | .request (.makeup req) _ => req.proposedPigId ≠ ""
  | _ => True

instance : DecidablePred Event.NamesPigs := fun event =>
  decidable_of_iff
    ((match event.action with
      | .request (.getOrCreate req) _ | .request (.makeup req) _ =>
          decide (req.proposedPigId ≠ "")
      | _ => true) = true)
    (by unfold Event.NamesPigs; split <;> simp)

theorem Event.NamesPigs.draws {event : Event} (h : event.NamesPigs) {roll : DailyRoll}
    (hdraws : event.action.draws roll) : roll.pigId ≠ "" := by
  unfold Event.NamesPigs at h
  split at h
  · rename_i haction
    rw [haction] at hdraws
    obtain ⟨-, -, hpig, -⟩ := hdraws
    rw [hpig]
    exact h
  · rename_i haction
    rw [haction] at hdraws
    obtain ⟨-, -, hpig, -⟩ := hdraws
    rw [hpig]
    exact h
  · rename_i hget hmakeup
    cases haction : event.action with
    | reconcile flight =>
        rw [haction] at hdraws
        exact hdraws.elim
    | request r rolls =>
        rw [haction] at hdraws
        cases r with
        | getOrCreate req => exact absurd haction (hget req rolls)
        | makeup req => exact absurd haction (hmakeup req rolls)
        | _ => exact hdraws.elim

variable {w w' : World}

/-- No roll is of a pig without an id. -/
theorem rolls_named (h : Reachable (service.restrict Event.NamesPigs) w) :
    ∀ roll ∈ w.db.dailyRolls, roll.pigId ≠ "" := by
  refine Reachable.invariant (I := fun w => ∀ roll ∈ w.db.dailyRolls, roll.pigId ≠ "") ?_ ?_ h
  · intro w hinit
    obtain rfl : w = {} := hinit
    simp
  · rintro w event w' - hnamed ⟨⟨-, -, -, rfl⟩, hnames⟩ roll hroll
    have hstep := event.action.transaction_rolls event.env w.db
    change RollsStep _ w.db.dailyRolls (w.after event.env event.action).db.dailyRolls at hstep
    generalize (w.after event.env event.action).db.dailyRolls = rolls at hstep hroll
    cases hstep with
    | same => exact hnamed roll hroll
    | created new hdraws hnew =>
        rcases List.mem_append.mp hroll with hold | hlast
        · exact hnamed roll hold
        · obtain rfl := List.mem_singleton.mp hlast
          exact hnames.draws hdraws
    | completed old hold version payload =>
        rcases Tables.mem_writeBack_singleton hroll with ⟨hmem, -⟩ | rfl
        · exact hnamed roll hmem
        · exact hnamed old hold

theorem rolled_named (h : Reachable (service.restrict Event.NamesPigs) w) {date : Date}
    {userId pigId : String} (hrolled : Rolled w.db.dailyRolls date userId pigId) : pigId ≠ "" := by
  obtain ⟨roll, hroll, -, -, rfl, -⟩ := hrolled
  exact rolls_named h roll hroll

/-- Every stored round is open exactly when its target is there and its threshold met. -/
theorem rounds_ignited (h : Reachable service w) :
    ∀ row ∈ w.db.reservations,
      (w.db.round row).crowd.Ignited "" (Rolled w.db.dailyRolls row.dateStr row.targetId) := by
  refine rounds_of_reachable (P := fun rolls r =>
    r.crowd.Ignited "" (Rolled rolls r.row.dateStr r.row.targetId)) ?_ ?_ ?_ h
  · intro rolls r hborn
    exact hborn.crowd.ignited
  · intro rolls rolls' r hcommitted hignited
    exact hignited.mono (hcommitted _ _)
  · intro warrant rolls r r' hstep hignited
    obtain ⟨-, hdate, -, htarget⟩ := key_eq.mp hstep.key
    rw [hdate, htarget]
    rcases hstep.crowd with hsame | hgathers
    · rw [hsame]
      exact hignited
    · exact hgathers.ignited hignited

/-- **A round with an arrived target has left `pending` exactly when its threshold is
met.**  Waiting with its target there, it is protected, not super and undermanned; opened,
its target is there and, if it is protected and not super, it is manned. -/
theorem open_iff_threshold_met (h : Reachable (service.restrict Event.NamesPigs) w) :
    ∀ row ∈ w.db.reservations,
      (row.status = .pending → row.targetPigId ≠ "" →
        row.forceMode ≠ some "super" ∧ 0 < row.protectionRequired ∧
          totalContribution (w.db.members row.reservationId) < row.protectionRequired) ∧
      (row.status ≠ .pending →
        row.targetPigId ≠ "" ∧
          (0 < row.protectionRequired → row.forceMode ≠ some "super" →
            row.protectionRequired ≤ totalContribution (w.db.members row.reservationId))) := by
  intro row hrow
  obtain ⟨-, hwaits, hopens⟩ := rounds_ignited h.of_restrict row hrow
  rw [Round.crowd_met] at hwaits hopens
  constructor
  · intro hpending hpig
    have hmet := hwaits (Round.crowd_opened.mpr hpending) hpig
    push Not at hmet
    obtain ⟨hforce, hless⟩ := hmet
    exact ⟨hforce, Nat.lt_of_le_of_lt (Nat.zero_le _) hless, hless⟩
  · intro hopened
    obtain ⟨hpig, hmet⟩ := hopens (decide_eq_true hopened)
    exact ⟨rolled_named h hpig, fun _ hforce => hmet.resolve_left hforce⟩

/-- User 2 is granted a protection, is aimed at by user 1 and arrives: the round still
waits for a second contribution. -/
def undermannedScript : List (Time × Order) :=
  let day : Date := 739000
  let now : Time := 739000 * dayMicros
  [(now, .request (.grant scriptGrant)),
    (now, .request (.prepare
      { attackerId := "1", attackerPigId := "pig", targetId := "2", groupId := "7",
        deliveryBotId := "bot", dateStr := day,
        supportsProtectionGathering := true, protectionGatheringVersion := 2 })),
    (now, .finish 0),
    (now, .request (.getOrCreate { userId := "2", proposedPigId := "boar", dateStr := day }))]

theorem open_iff_threshold_met_undermanned :
    ∃ row ∈ (scriptWorld undermannedScript).db.reservations,
      row.status = .pending ∧ row.targetPigId ≠ "" ∧
        totalContribution ((scriptWorld undermannedScript).db.members row.reservationId) <
          row.protectionRequired := by
  have hreach : Reachable (service.restrict Event.NamesPigs) (scriptWorld undermannedScript) :=
    ⟨{}, _, rfl, (script_run (by decide +kernel)).restrict (by decide +kernel)⟩
  obtain ⟨row, hrow, hpending, hpig⟩ : ∃ row ∈ (scriptWorld undermannedScript).db.reservations,
      row.status = .pending ∧ row.targetPigId ≠ "" := by decide +kernel
  exact ⟨row, hrow, hpending, hpig, ((open_iff_threshold_met hreach row hrow).1 hpending hpig).2.2⟩

end RollPig
