/-
Transactions move rounds by the steps of `Round.lean`.

`Evolves` says that a transaction kept the rows it found, in order, and moved each
round by steps.  It is proved once for a flush of changed rows, `Evolves.of_rows`, and
then for every service function that flushes reservations; it composes, so a
transaction made of several such functions evolves as well.
-/
import RollPig.Proofs.Frames
import RollPig.Round

namespace RollPig

/-! ### Keys -/

/-- The primary keys of the two tables a round is stored in. -/
def memberKey (member : RoastReservationParticipant) : String × String :=
  (member.reservationId, member.userId)

/-- The reservation tables are keyed, and every participant belongs to a stored row. -/
structure Db.Sound (db : Db) : Prop where
  ids : Tables.Unique (·.reservationId) db.reservations
  members : Tables.Unique memberKey db.participants
  enrolled : ∀ member ∈ db.participants,
    member.reservationId ∈ db.reservations.map (·.reservationId)

theorem Db.mem_members {db : Db} {reservationId : String} {member : RoastReservationParticipant} :
    member ∈ db.members reservationId ↔
      member ∈ db.participants ∧ member.reservationId = reservationId := by
  simp [Db.members]

/-- Within a roster a user occurs once. -/
theorem Db.Sound.member_eq {db : Db} (h : db.Sound) {reservationId : String}
    {a b : RoastReservationParticipant} (ha : a ∈ db.members reservationId)
    (hb : b ∈ db.members reservationId) (huser : a.userId = b.userId) : a = b := by
  rw [Db.mem_members] at ha hb
  exact h.members.eq ha.1 hb.1 (Prod.ext (ha.2.trans hb.2.symm) huser)

/-- A stored row is found under its id. -/
theorem Db.Sound.reservation?_eq {db : Db} (h : db.Sound) {row : RoastReservation}
    (hrow : row ∈ db.reservations) : db.reservation? row.reservationId = some row :=
  h.ids.find? hrow

theorem mem_of_reservation? {db : Db} {reservationId : String} {row : RoastReservation}
    (h : db.reservation? reservationId = some row) :
    row ∈ db.reservations ∧ row.reservationId = reservationId := by
  refine ⟨List.mem_of_find?_eq_some h, ?_⟩
  simpa using List.find?_some h

/-- What one step keeps, any number of steps keep. -/
theorem RoundSteps.keeps {warrant : Warrant} {rolls : List DailyRoll} {P : Round → Prop} {r r' : Round}
    (h : RoundSteps warrant rolls r r')
    (hkeep : ∀ r r', RoundStep warrant rolls r r' → P r → P r') (hr : P r) : P r' := by
  induction h with
  | refl => exact hr
  | tail _ hlast ih => exact hkeep _ _ hlast ih

/-! ### Evolution -/

/-- The rows stay, in order, and every round moved by steps. -/
structure Evolves (warrant : Warrant) (rolls : List DailyRoll) (db db' : Db) : Prop where
  sound : db'.Sound
  ids : db'.reservations.map (·.reservationId) = db.reservations.map (·.reservationId)
  rounds : ∀ row' ∈ db'.reservations, ∃ row ∈ db.reservations,
    row.reservationId = row'.reservationId ∧
      RoundSteps warrant rolls (db.round row) (db'.round row')

namespace Evolves

variable {warrant : Warrant} {rolls : List DailyRoll} {db db' db'' : Db}

theorem refl (h : db.Sound) : Evolves warrant rolls db db :=
  ⟨h, rfl, fun row hrow => ⟨row, hrow, rfl, .refl⟩⟩

theorem trans (h₁ : Evolves warrant rolls db db') (h₂ : Evolves warrant rolls db' db'') :
    Evolves warrant rolls db db'' := by
  refine ⟨h₂.sound, h₂.ids.trans h₁.ids, ?_⟩
  intro row'' hrow''
  obtain ⟨row', hrow', hid', hsteps'⟩ := h₂.rounds row'' hrow''
  obtain ⟨row, hrow, hid, hsteps⟩ := h₁.rounds row' hrow'
  exact ⟨row, hrow, hid.trans hid', hsteps.trans hsteps'⟩

/-- Only the two tables matter. -/
theorem of_tables (h : Evolves warrant rolls db db') (hrows : db''.reservations = db'.reservations)
    (hmembers : db''.participants = db'.participants) : Evolves warrant rolls db db'' := by
  have hround : ∀ row, db''.round row = db'.round row := by
    intro row
    simp [Db.round, Db.members, hmembers]
  refine ⟨⟨?_, ?_, ?_⟩, ?_, ?_⟩
  · rw [hrows]; exact h.sound.ids
  · rw [hmembers]; exact h.sound.members
  · rw [hrows, hmembers]; exact h.sound.enrolled
  · rw [hrows]; exact h.ids
  · intro row' hrow'
    rw [hround]
    exact h.rounds row' (hrows ▸ hrow')

/-- A transaction that leaves the two tables alone. -/
theorem of_same (h : db.Sound) (hrows : db'.reservations = db.reservations)
    (hmembers : db'.participants = db.participants) : Evolves warrant rolls db db' :=
  (refl h).of_tables hrows hmembers

/-- **The flush rule.**  Changed rows are written back, the rosters may change with
them, and the rosters of the other rows stay. -/
theorem of_rows (h : db.Sound) (rows : List RoastReservation)
    (hreservations : db'.reservations = Tables.writeBack (·.reservationId) rows db.reservations)
    (hunique : Tables.Unique memberKey db'.participants)
    (henrolled : ∀ member ∈ db'.participants,
      member.reservationId ∈ db.reservations.map (·.reservationId))
    (hrows : ∀ row' ∈ rows, ∃ row ∈ db.reservations,
      row.reservationId = row'.reservationId ∧
        RoundSteps warrant rolls (db.round row) (db'.round row'))
    (hothers : ∀ row ∈ db.reservations, (∀ row' ∈ rows, row'.reservationId ≠ row.reservationId) →
      db'.members row.reservationId = db.members row.reservationId) :
    Evolves warrant rolls db db' := by
  have hids : db'.reservations.map (·.reservationId) =
      db.reservations.map (·.reservationId) := by
    rw [hreservations]
    exact Tables.map_key_writeBack
  refine ⟨⟨?_, hunique, ?_⟩, hids, ?_⟩
  · rw [hreservations]
    exact h.ids.writeBack
  · rw [hids]
    exact henrolled
  · intro row' hrow'
    rw [hreservations] at hrow'
    rcases Tables.mem_writeBack hrow' with ⟨hold, hne⟩ | ⟨hnew, _⟩
    · refine ⟨row', hold, rfl, ?_⟩
      have hround : db'.round row' = db.round row' := by
        simp [Db.round, hothers row' hold hne]
      rw [hround]
    · exact hrows row' hnew

/-- Changed rows over unchanged rosters. -/
theorem flush (h : db.Sound) (rows : List RoastReservation)
    (hrows : ∀ row' ∈ rows, ∃ row ∈ db.reservations,
      row.reservationId = row'.reservationId ∧
        RoundSteps warrant rolls (db.round row) ⟨row', db.members row.reservationId⟩) :
    Evolves warrant rolls db (db.flushReservations rows) := by
  refine of_rows h rows rfl h.members h.enrolled ?_ fun _ _ _ => rfl
  intro row' hrow'
  obtain ⟨row, hrow, hid, hsteps⟩ := hrows row' hrow'
  refine ⟨row, hrow, hid, ?_⟩
  have hround : (db.flushReservations rows).round row' = ⟨row', db.members row.reservationId⟩ := by
    simp [Db.round, Db.members, hid]
  rw [hround]
  exact hsteps

/-- One changed row over unchanged rosters. -/
theorem flushOne (h : db.Sound) {row row' : RoastReservation} (hrow : row ∈ db.reservations)
    (hid : row'.reservationId = row.reservationId)
    (hsteps : RoundSteps warrant rolls (db.round row) ⟨row', db.members row.reservationId⟩) :
    Evolves warrant rolls db (db.flushReservations [row']) := by
  refine flush h [row'] ?_
  intro row'' hrow''
  obtain rfl : row'' = row' := by simpa using hrow''
  exact ⟨row, hrow, hid.symm, hsteps⟩

end Evolves

end RollPig
