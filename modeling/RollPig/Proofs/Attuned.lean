/-
A second sync with the same protection changes nothing.

After a sync every round waiting for the protection is attuned to it: it carries its terms,
and with the target arrived it is undermanned.  A sync leaves attuned rounds as they are
(`Attuned.sync_eq`), and a sync for another target leaves them attuned.
-/
import RollPig.Proofs.Syncs

namespace RollPig

variable {e : Env} {db db' : Db} {protection other : GroupProtection} {removed : Bool}
  {row : RoastReservation}

/-- The rounds that wait for this protection carry its terms and lack participants. -/
def Attuned (protection : GroupProtection) (db : Db) : Prop :=
  ∀ row ∈ db.reservations, awaitsProtection protection protection.groupId row = true →
    row.terms = terms (some protection) ∧
      (row.targetPigId ≠ "" →
        totalContribution (db.members row.reservationId) < row.protectionRequired)

/-- Every round after a sync is a waiting round it rewrote with its roster, or one it left
alone with its roster. -/
theorem syncPendingProtection_round (hsound : db.Sound) {row' : RoastReservation}
    (h : row' ∈ (syncPendingProtection e protection removed db).reservations) :
    ∃ row ∈ db.reservations, row'.reservationId = row.reservationId ∧
      ((awaitsProtection protection protection.groupId row = true ∧
          row' = syncReservation e protection removed
            (syncMembers removed row (db.members row.reservationId)) row ∧
          (syncPendingProtection e protection removed db).members row.reservationId =
            syncMembers removed row (db.members row.reservationId)) ∨
        (awaitsProtection protection protection.groupId row = false ∧ row' = row ∧
          (syncPendingProtection e protection removed db).members row.reservationId =
            db.members row.reservationId)) := by
  have hmembers : ∀ row ∈ db.reservations,
      (syncPendingProtection e protection removed db).members row.reservationId =
        if awaitsProtection protection protection.groupId row then
          syncMembers removed row (db.members row.reservationId)
        else db.members row.reservationId :=
    fun row hrow => members_sync hsound removed (awaitsProtection protection protection.groupId) hrow
  change row' ∈ Tables.writeBack (·.reservationId)
    ((db.reservations.filter (awaitsProtection protection protection.groupId)).map fun row =>
      syncReservation e protection removed
        ((syncPendingProtection e protection removed db).members row.reservationId) row)
    db.reservations at h
  rw [Tables.writeBack_filter_map _ _ (by simp) hsound.ids] at h
  obtain ⟨row, hrow, rfl⟩ := List.mem_map.mp h
  have hroster := hmembers row hrow
  refine ⟨row, hrow, ?_, ?_⟩
  · split_ifs <;> simp
  · by_cases hawaits : awaitsProtection protection protection.groupId row = true
    · rw [if_pos hawaits] at hroster
      rw [if_pos hawaits, hroster]
      exact Or.inl ⟨hawaits, rfl, rfl⟩
    · rw [if_neg hawaits] at hroster
      rw [if_neg hawaits]
      exact Or.inr ⟨by simpa using hawaits, rfl, hroster⟩

/-- A round that still waits after its sync with the target arrived is undermanned. -/
theorem syncReservation_short (members : List RoastReservationParticipant)
    (hpending : (syncReservation e protection removed members row).status = .pending)
    (hpig : (syncReservation e protection removed members row).targetPigId ≠ "") :
    totalContribution members <
      (syncReservation e protection removed members row).protectionRequired := by
  unfold syncReservation announceThreshold at *
  by_cases harrived : row.targetPigId = ""
  · rw [if_neg (by simpa using harrived)] at hpig
    exact absurd harrived hpig
  · rw [if_pos harrived] at hpending ⊢
    rcases activateReservation_cases e members (governedRow protection removed row)
      row.targetPigId true with ⟨-, heq⟩ | ⟨hshort, notice, heq⟩
    · simp [heq] at hpending
    · rw [Round.crowd_met, not_or, Nat.not_le] at hshort
      rw [heq]
      dsimp only
      split_ifs <;> exact hshort.2

/-- **A sync attunes the rounds.** -/
theorem Attuned.sync (hsound : db.Sound) :
    Attuned protection (syncPendingProtection e protection false db) := by
  intro row' hrow' hawaits'
  obtain ⟨hkey', hpending', hforce'⟩ := awaitsProtection_iff.mp hawaits'
  obtain ⟨row, hrow, hid, ⟨hawaits, rfl, hmembers⟩ | ⟨hskips, rfl, -⟩⟩ :=
    syncPendingProtection_round hsound hrow'
  · obtain ⟨hterms, -, -⟩ := syncReservation_terms e protection false
      (syncMembers false row (db.members row.reservationId)) row
    refine ⟨hterms, fun hpig => ?_⟩
    rw [hid, hmembers]
    exact syncReservation_short _ hpending' hpig
  · rw [hawaits'] at hskips
    exact absurd hskips (by simp)

/-- A sync for another target leaves the rounds attuned. -/
theorem Attuned.sync_other (h : Attuned protection db) (hsound : db.Sound)
    (hother : protectionKey other ≠ protectionKey protection) :
    Attuned protection (syncPendingProtection e other removed db) := by
  intro row' hrow' hawaits'
  obtain ⟨row, hrow, hid, ⟨hawaits, rfl, -⟩ | ⟨-, rfl, hmembers⟩⟩ :=
    syncPendingProtection_round hsound hrow'
  · obtain ⟨-, hkey, -⟩ := syncReservation_terms e other removed
      (syncMembers removed row (db.members row.reservationId)) row
    have hthere := (awaitsProtection_iff.mp hawaits').1
    rw [hkey, (awaitsProtection_iff.mp hawaits).1] at hthere
    exact absurd hthere hother
  · rw [hmembers]
    exact h row' hrow hawaits'

theorem Attuned.congr (h : Attuned protection db) (hrows : db'.reservations = db.reservations)
    (hmembers : db'.participants = db.participants) : Attuned protection db' := by
  intro row hrow hawaits
  have hroster : db'.members row.reservationId = db.members row.reservationId := by
    simp [Db.members, hmembers]
  rw [hroster]
  exact h row (hrows ▸ hrow) hawaits

/-- A round under the terms of a protection is governed by it already. -/
theorem governedRow_eq (h : row.terms = terms (some protection)) :
    governedRow protection false row = row := by
  obtain ⟨hrequired, hsource⟩ := Prod.mk.inj h
  unfold governedRow
  rw [if_neg (by simp), if_neg (by simp), ← hrequired, ← hsource]

/-- **A sync leaves attuned rounds as they are.** -/
theorem Attuned.sync_eq (h : Attuned protection db) (hsound : db.Sound) (e : Env) :
    syncPendingProtection e protection false db = db := by
  have hroster : ∀ row ∈ db.reservations.filter (awaitsProtection protection protection.groupId),
      syncMembers false row (db.members row.reservationId) = db.members row.reservationId := by
    intro row hrow
    obtain ⟨hmem, hawaits⟩ := List.mem_filter.mp hrow
    have hrequired : row.protectionRequired = 1 + protectionLevel protection :=
      congrArg Prod.fst (h row hmem hawaits).1
    have hordinary : doublesOwner false row = false := by simp [doublesOwner, hrequired]
    simp [syncMembers, hordinary]
  have hmembers : ∀ member ∈ (db.reservations.filter
      (awaitsProtection protection protection.groupId)).flatMap fun row =>
        syncMembers false row (db.members row.reservationId), member ∈ db.participants := by
    intro member hmember
    obtain ⟨row, hrow, hmem⟩ := List.mem_flatMap.mp hmember
    rw [hroster row hrow] at hmem
    exact (Db.mem_members.mp hmem).1
  have hparticipants : db.flushParticipants ((db.reservations.filter
      (awaitsProtection protection protection.groupId)).flatMap fun row =>
        syncMembers false row (db.members row.reservationId)) = db :=
    congrArg (fun members => { db with participants := members })
      (Tables.writeBack_self hsound.members hmembers)
  have hrounds : ∀ row ∈ db.reservations.filter
      (awaitsProtection protection protection.groupId),
        syncReservation e protection false (db.members row.reservationId) row = row := by
    intro row hrow
    obtain ⟨hmem, hawaits⟩ := List.mem_filter.mp hrow
    obtain ⟨hterms, hshort⟩ := h row hmem hawaits
    obtain ⟨-, -, hforce⟩ := awaitsProtection_iff.mp hawaits
    unfold syncReservation
    rw [governedRow_eq hterms]
    by_cases hpig : row.targetPigId = ""
    · rw [if_neg (by simpa using hpig)]
    · rw [if_pos hpig]
      have hless := hshort hpig
      have hwaits : 0 < row.protectionRequired ∧ row.forceMode ≠ some "super" ∧
          totalContribution (db.members row.reservationId) < row.protectionRequired :=
        ⟨by omega, hforce, hless⟩
      have hsame : (activateReservation e (db.members row.reservationId) row
          row.targetPigId).1 = row := by
        simp [activateReservation, hwaits, hpig]
      rw [hsame]
      unfold announceThreshold
      rw [if_neg fun hchanged => hchanged.2 rfl]
  show (db.flushParticipants _).flushReservations _ = db
  rw [show syncGroup protection none = protection.groupId from rfl, hparticipants]
  unfold Db.flushReservations
  rw [Tables.writeBack_self hsound.ids fun row' hrow' => ?_]
  obtain ⟨row, hrow, rfl⟩ := List.mem_map.mp hrow'
  rw [hrounds row hrow]
  exact (List.mem_filter.mp hrow).1

end RollPig
