/-
What a reservation holds in each status.

A round waits with nothing, is leased under a token, and has a result from the moment
it is prepared.  A released round keeps its result but not its token, and is leased
again past `processing`, so `processing` always means that there is no result yet:
what the startup migration looks for is never there.
-/
import RollPig.Migrations
import RollPig.Proofs.Sending
import RollPig.Proofs.Slots

namespace RollPig

open Transition

variable {warrant : Warrant} {rolls : List DailyRoll} {r r' : Round} {w : World} {db : Db}

/-- The token and the result that go with the status. -/
def RoastReservation.Staged (row : RoastReservation) : Prop :=
  match row.status with
  | .pending => row.claimToken = none ∧ row.outcomeSnapshot = none
  | .ready => row.claimToken = none
  | .processing => row.claimToken.isSome = true ∧ row.outcomeSnapshot = none
  | .prepared | .sending | .completed =>
      row.claimToken.isSome = true ∧ row.outcomeSnapshot.isSome = true

variable {row row' : RoastReservation}

/-! ### One lemma a status -/

theorem RoastReservation.Staged.pending (h : row.Staged) (hstatus : row.status = .pending) :
    row.claimToken = none ∧ row.outcomeSnapshot = none := by
  unfold RoastReservation.Staged at h
  rwa [hstatus] at h

theorem RoastReservation.Staged.ready (h : row.Staged) (hstatus : row.status = .ready) :
    row.claimToken = none := by
  unfold RoastReservation.Staged at h
  rwa [hstatus] at h

theorem RoastReservation.Staged.processing (h : row.Staged) (hstatus : row.status = .processing) :
    row.claimToken.isSome = true ∧ row.outcomeSnapshot = none := by
  unfold RoastReservation.Staged at h
  rwa [hstatus] at h

theorem RoastReservation.Staged.fixed (h : row.Staged)
    (hstatus : row.status = .prepared ∨ row.status = .sending ∨ row.status = .completed) :
    row.claimToken.isSome = true ∧ row.outcomeSnapshot.isSome = true := by
  unfold RoastReservation.Staged at h
  rcases hstatus with hstatus | hstatus | hstatus <;> rwa [hstatus] at h

/-- A rewrite of the other columns. -/
theorem RoastReservation.Staged.of_columns (h : row.Staged) (hstatus : row'.status = row.status)
    (htoken : row'.claimToken = row.claimToken) (hresult : row'.outcomeSnapshot = row.outcomeSnapshot) :
    row'.Staged := by
  unfold RoastReservation.Staged at h ⊢
  rwa [hstatus, htoken, hresult]

/-! ### Every step keeps it -/

/-- A waiting round goes on waiting or is ready, with nothing. -/
theorem Waits.staged (h : Waits row row') (hopen : row.status = .pending) (hrow : row.Staged) :
    row'.Staged := by
  obtain ⟨-, htoken, hresult, -⟩ := h.columns
  rcases h.status with hsame | hready
  · exact hrow.of_columns hsame htoken hresult
  · unfold RoastReservation.Staged
    rw [hready]
    exact htoken.trans (hrow.pending hopen).1

/-- A lease goes where the result says. -/
theorem staged_leaseRow (e : Env) (req : RoastReservationClaimRequest) (token : String) :
    (leaseRow e req token row).Staged := by
  unfold RoastReservation.Staged leaseRow
  cases hresult : row.outcomeSnapshot with
  | none => simp
  | some result => cases req.supportsPrepared <;> simp

theorem RoundStep.staged (h : RoundStep warrant rolls r r') (hr : r.row.Staged) : r'.row.Staged := by
  by_cases hopen : r.row.status = .pending
  · exact (h.waits hopen).staged hopen hr
  · cases h with
    | busy req hstatus hcan =>
        obtain ⟨bot, version, heq⟩ := updateDeliveryCapability_eq _ req
        rw [heq]
        exact hr.of_columns rfl rfl rfl
    | capability req hcan => exact hr.of_columns rfl rfl rfl
    | lease e req token hcan => exact staged_leaseRow e req token
    | leaseNotice e req token hcan =>
        simp only [noticeClaimable, Bool.and_eq_true, decide_eq_true_eq] at hcan
        exact absurd hcan.1.1.1.1.1.2 hopen
    | settle snapshot results hstatus hnone =>
        unfold markPrepared
        rw [if_pos hstatus]
        exact ⟨(hr.processing hstatus).1, rfl⟩
    | @confirmOutcome row members hstatus hsome =>
        have hfixed : row.status ≠ .processing := by
          intro hprocessing
          rw [(hr.processing hprocessing).2] at hsome
          exact absurd hsome (by simp)
        unfold markPrepared
        rw [if_neg hfixed]
        exact hr
    | save snapshot hstatus => exact ⟨(hr.processing hstatus).1, rfl⟩
    | send hstatus hsome => exact ⟨(hr.fixed (Or.inl hstatus)).1, hsome⟩
    | complete e hstatus =>
        obtain ⟨htoken, hresult⟩ := hr.fixed (Or.inr (Or.inl hstatus))
        unfold completedRow
        rw [if_pos (by simp [hstatus])]
        exact ⟨htoken, hresult⟩
    | release => exact rfl
    | _ => contradiction

theorem RoundBirth.staged (h : RoundBirth rolls r) : r.row.Staged := by
  obtain ⟨e, req, roll, protection, reservationId, hroll, hgate⟩ := h
  have hnew : (newReservation e req protection reservationId).Staged := ⟨rfl, rfl⟩
  cases roll with
  | none => exact hnew
  | some roll => exact (Waits.activateReservation e roll.pigId false).staged rfl hnew

theorem staged_of_reachable (h : Reachable service w) : ∀ row ∈ w.db.reservations, row.Staged :=
  rounds_of_reachable (P := fun _ r => r.row.Staged) (fun _ _ hbirth => hbirth.staged)
    (fun _ _ _ _ hr => hr) (fun _ _ _ _ hstep hr => hstep.staged hr) h

/-! ### Restarting the service -/

/-- **A restart changes no reservation.**  In every reachable state each round holds the
token and the result that go with its status, its slot is free exactly when it is
completed, a target has one active round, and the startup migrations find nothing. -/
theorem restart_keeps_reservations (h : Reachable service w) :
    (∀ row ∈ w.db.reservations,
      (row.status = .pending → row.outcomeSnapshot = none ∧ row.claimToken = none) ∧
      (row.status = .ready → row.claimToken = none) ∧
      (row.status = .processing → row.claimToken.isSome = true ∧ row.outcomeSnapshot = none) ∧
      (row.status = .prepared ∨ row.status = .sending ∨ row.status = .completed →
        row.claimToken.isSome = true ∧ row.outcomeSnapshot.isSome = true) ∧
      (row.activeSlot = none ↔ row.status = .completed)) ∧
    (∀ row ∈ w.db.reservations, ∀ row' ∈ w.db.reservations,
      row.activeSlot = some 1 → row'.activeSlot = some 1 →
        row.dateStr = row'.dateStr → row.groupId = row'.groupId → row.targetId = row'.targetId →
          row = row') ∧
    (migrateActiveSlots (migrateAmbiguousRoastReservations w.db)).reservations =
      w.db.reservations := by
  have hstaged := staged_of_reachable h
  have hslots := slots_of_reachable h
  have hslot : ∀ row ∈ w.db.reservations, row.activeSlot = none ↔ row.status = .completed := by
    intro row hrow
    have hslotted := hslots.slotted row hrow
    unfold Slotted at hslotted
    rw [hslotted]
    by_cases hdone : row.status = .completed
    · simp [hdone]
    · simp [hdone]
  refine ⟨fun row hrow => ?_, ?_, ?_⟩
  · have hheld := hstaged row hrow
    exact ⟨fun hpending => (hheld.pending hpending).symm, hheld.ready, hheld.processing, hheld.fixed,
      hslot row hrow⟩
  · intro row hrow row' hrow' hactive hactive' hdate hgroup htarget
    refine hslots.unique row hrow row' hrow' hactive hactive' ?_
    simp [RoastReservation.targetKey, hdate, hgroup, htarget]
  · have hambiguous : (migrateAmbiguousRoastReservations w.db).reservations = w.db.reservations := by
      refine (List.map_congr_left fun row hrow => if_neg ?_).trans (List.map_id _)
      rintro ⟨hprocessing, hresult⟩
      rw [((hstaged row hrow).processing hprocessing).2] at hresult
      exact absurd hresult (by simp)
    unfold migrateActiveSlots
    dsimp only
    rw [hambiguous]
    refine (List.map_congr_left fun row hrow => ?_).trans (List.map_id _)
    by_cases hdone : row.status = .completed
    · have hfree := (hslot row hrow).mpr hdone
      rw [if_pos hdone, id_eq, ← hfree]
    · rw [if_neg hdone, id_eq]

/-- A restart after the result was stored and before the message was sent. -/
theorem restart_keeps_reservations_prepared :
    let db := (scriptWorld (deliveryScript.take 8)).db
    (migrateActiveSlots (migrateAmbiguousRoastReservations db)).reservations = db.reservations :=
  (restart_keeps_reservations (script_reachable (by decide +kernel))).2.2

end RollPig
