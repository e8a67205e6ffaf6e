/-
Instances that start together do not get into each other's way.

The outline says at each place of the startup what the schema has and who holds the lock
(`Reached`).  Only the holder of the lock replaces an index, and it adds the new one before it
drops the old one, so that at any moment the rounds obey one of them; the old one implies the
new one, so nothing that was written meanwhile can keep the new one from being added.
-/
import RollPig.Startup

namespace RollPig

open Transition Outline

variable {dialect : Dialect} {tables : List String} {i j : Nat} {s s' : StartupStore}
  {rows : List RoastReservation} {p : Pool Nat StartupPlace StartupStore}

/-! ### The two indexes -/

theorem holds_iff (index : ReservationIndex) : index.Holds rows ↔
    rows.Pairwise fun a b => ∀ entry, index.entry a = some entry → index.entry b ≠ some entry := by
  unfold ReservationIndex.Holds List.Nodup
  rw [List.pairwise_filterMap]
  constructor
  · intro h
    refine h.imp fun hne entry ha hb => hne entry ha entry hb rfl
  · intro h
    refine h.imp fun hne entry ha entry' hb hsame => ?_
    subst hsame
    exact hne entry ha hb

/-- Rounds that obey the old index obey the new one. -/
theorem holds_activeTarget (h : ReservationIndex.dateGroupTarget.Holds rows) :
    ReservationIndex.activeTarget.Holds rows := by
  rw [holds_iff] at h ⊢
  refine h.imp fun {a b} hne entry ha hb => ?_
  obtain ⟨slot, -, rfl⟩ := Option.map_eq_some_iff.mp ha
  obtain ⟨slot', -, hsame⟩ := Option.map_eq_some_iff.mp hb
  refine hne _ rfl ?_
  simp only [Prod.mk.injEq] at hsame
  obtain ⟨hdate, hgroup, htarget, -⟩ := hsame
  simp [ReservationIndex.entry, hdate, hgroup, htarget]

/-- The update of `active_slot` leaves an entry as it was, or takes it away. -/
theorem entry_clearSlot {index : ReservationIndex} {row : RoastReservation}
    {entry : Date × String × String × Nat} (h : index.entry (clearSlot row) = some entry) :
    index.entry row = some entry := by
  unfold clearSlot at h
  split_ifs at h
  · cases index with
    | dateGroupTarget => exact h
    | activeTarget => cases h
  · exact h

theorem holds_clearSlot {index : ReservationIndex} (h : index.Holds rows) :
    index.Holds (rows.map clearSlot) := by
  rw [holds_iff, List.pairwise_map]
  rw [holds_iff] at h
  refine h.imp fun hne entry ha hb => hne entry (entry_clearSlot ha) (entry_clearSlot hb)

/-! ### The outline -/

/-- What holds at any moment: the table has one of the indexes, and the rounds obey it. -/
structure StartupStore.Keyed (s : StartupStore) : Prop where
  keyed : .dateGroupTarget ∈ s.indexes ∨ .activeTarget ∈ s.indexes
  accepted : s.Accepts s.rows
  slotted : .activeTarget ∈ s.indexes → s.has slotColumn = true

/-- The columns are there, but for those that are left. -/
def Added (tables : List String) (left : List Column) (s : StartupStore) : Prop :=
  ∀ column ∈ protectionColumns tables, column ∈ left ∨ s.has column = true

/-- What an instance may rely on at its next statement. -/
def Reached (dialect : Dialect) (tables : List String) (i : Nat) (place : StartupPlace)
    (s : StartupStore) : Prop :=
  match place with
  | .checking column rest | .altering column rest => Added tables (column :: rest) s ∧ s.lock ≠ some i
  | .rechecking column rest =>
      Added tables (column :: rest) s ∧ s.lock ≠ some i ∧ s.has column = true
  | .clearing | .inspecting => Added tables [] s ∧ s.lock ≠ some i
  | .locking => Added tables [] s ∧ s.lock ≠ some i ∧ dialect = .mysql
  | .swapping => Added tables [] s ∧ s.lock ≠ some i ∧ dialect = .sqlite
  | .inspectingLocked => Added tables [] s ∧ s.lock = some i ∧ dialect = .mysql
  | .adding => Added tables [] s ∧ s.lock = some i ∧ dialect = .mysql ∧
      .dateGroupTarget ∈ s.indexes ∧ .activeTarget ∉ s.indexes
  | .dropping => Added tables [] s ∧ s.lock = some i ∧ dialect = .mysql ∧
      .dateGroupTarget ∈ s.indexes ∧ .activeTarget ∈ s.indexes
  | .releasing failed => Added tables [] s ∧ s.lock = some i ∧ dialect = .mysql ∧
      (failed = false → .dateGroupTarget ∉ s.indexes)
  | .returned => Added tables [] s ∧ s.lock ≠ some i ∧ .dateGroupTarget ∉ s.indexes
  | .raised => s.lock ≠ some i

theorem slotColumn_mem (tables : List String) : slotColumn ∈ protectionColumns tables := by
  simp [protectionColumns]

theorem Added.slot (h : Added tables [] s) : s.has slotColumn = true :=
  (h slotColumn (slotColumn_mem tables)).resolve_left (by simp)

theorem Added.drop {column : Column} {rest : List Column} (h : Added tables (column :: rest) s)
    (hcolumn : s.has column = true) : Added tables rest s := by
  intro other hother
  rcases h other hother with hleft | hhas
  · rcases List.mem_cons.mp hleft with rfl | hrest
    · exact Or.inr hcolumn
    · exact Or.inl hrest
  · exact Or.inr hhas

theorem Added.grow {left : List Column} (h : Added tables left s)
    (hgrows : ∀ column, s.has column = true → s'.has column = true) : Added tables left s' :=
  fun column hcolumn => (h column hcolumn).imp id (hgrows column)

theorem reached_next {left : List Column} (h : Added tables left s) (hlock : s.lock ≠ some i) :
    Reached dialect tables i (.next left) s := by
  cases left with
  | nil => exact ⟨h, hlock⟩
  | cons column rest => exact ⟨h, hlock⟩

/-- Only who is within the lock holds it. -/
theorem Reached.critical_iff {place : StartupPlace} (h : Reached dialect tables i place s) :
    place.critical = true ↔ s.lock = some i := by
  cases place with
  | checking | altering | clearing | inspecting => simpa [StartupPlace.critical] using h.2
  | rechecking | locking | swapping | returned => simpa [StartupPlace.critical] using h.2.1
  | raised => simpa [StartupPlace.critical] using fun hheld => h hheld
  | inspectingLocked | adding | dropping | releasing => simpa [StartupPlace.critical] using h.2.1

theorem Reached.mysql {place : StartupPlace} (h : Reached dialect tables i place s)
    (hcritical : place.critical = true) : dialect = .mysql := by
  cases place with
  | inspectingLocked => exact h.2.2
  | adding | dropping | releasing => exact h.2.2.1
  | _ => cases hcritical

/-! ### What a statement does to the store -/

theorem has_append (s : StartupStore) (column other : Column) (h : s.has other = true) :
    StartupStore.has { s with columns := s.columns ++ [(column.table, column.name)] } other =
      true := by
  unfold StartupStore.has at h ⊢
  rw [List.contains_iff_mem] at h ⊢
  exact List.mem_append_left _ h

/-- What an instance at a place does to the store: it adds columns, takes or frees the lock,
clears slots, and changes the indexes only within the lock or by a swap of the table. -/
structure StoreStep (i : Nat) (place : StartupPlace) (s s' : StartupStore) : Prop where
  columns : ∀ column, s.has column = true → s'.has column = true
  lock : s'.lock = s.lock ∨ s.lock = none ∧ s'.lock = some i ∨
    place.critical = true ∧ s'.lock = none
  indexes : s'.indexes = s.indexes ∨
    (place.critical = true ∨ place = .swapping) ∧
      (.dateGroupTarget ∈ s'.indexes → .dateGroupTarget ∈ s.indexes)
  rows : s'.rows = s.rows ∨ s'.rows = s.rows.map clearSlot

theorem StoreStep.refl (i : Nat) (place : StartupPlace) (s : StartupStore) :
    StoreStep i place s s :=
  ⟨fun _ h => h, Or.inl rfl, Or.inl rfl, Or.inl rfl⟩

theorem StoreStep.unlocks {place : StartupPlace} (h : place.critical = true) :
    StoreStep i place s { s with lock := none } :=
  ⟨fun _ h => h, Or.inr (Or.inr ⟨h, rfl⟩), Or.inl rfl, Or.inl rfl⟩

theorem execute_store (dialect : Dialect) (i : Nat) (place : StartupPlace) (s : StartupStore) :
    StoreStep i place s (place.execute dialect i s).2 := by
  cases place with
  | checking column rest | rechecking column rest =>
      simp only [StartupPlace.execute]
      split_ifs <;> exact .refl _ _ _
  | altering column rest =>
      simp only [StartupPlace.execute]
      split_ifs
      · exact .refl _ _ _
      · exact ⟨has_append s column, Or.inl rfl, Or.inl rfl, Or.inl rfl⟩
  | clearing =>
      simp only [StartupPlace.execute]
      split_ifs
      · exact ⟨fun _ h => h, Or.inl rfl, Or.inl rfl, Or.inr rfl⟩
      · exact .refl _ _ _
  | inspecting =>
      simp only [StartupPlace.execute]
      split_ifs
      · cases dialect <;> exact .refl _ _ _
      · exact .refl _ _ _
  | locking =>
      simp only [StartupPlace.execute]
      split_ifs with hfree
      · exact ⟨fun _ h => h, Or.inr (Or.inl ⟨by simpa using hfree, rfl⟩), Or.inl rfl, Or.inl rfl⟩
      · exact .refl _ _ _
  | inspectingLocked =>
      simp only [StartupPlace.execute]
      split_ifs <;> exact .refl _ _ _
  | adding =>
      simp only [StartupPlace.execute]
      split_ifs
      · refine ⟨fun _ h => h, Or.inl rfl, Or.inr ⟨Or.inl rfl, fun hold => ?_⟩, Or.inl rfl⟩
        simpa using hold
      · exact .refl _ _ _
  | dropping =>
      simp only [StartupPlace.execute]
      split_ifs
      · refine ⟨fun _ h => h, Or.inl rfl, Or.inr ⟨Or.inl rfl, fun hold => ?_⟩, Or.inl rfl⟩
        exact (List.mem_filter.mp hold).1
      · exact .refl _ _ _
  | releasing failed => exact .unlocks rfl
  | swapping =>
      simp only [StartupPlace.execute]
      split_ifs
      · refine ⟨fun _ h => h, Or.inl rfl, Or.inr ⟨Or.inr rfl, fun hold => ?_⟩, Or.inl rfl⟩
        simp at hold
      · exact .refl _ _ _
      · exact .refl _ _ _
  | returned | raised => exact .refl _ _ _

theorem refuse_store (i : Nat) (place : StartupPlace) (s : StartupStore) :
    StoreStep i place s (place.refuse s).2 := by
  cases place with
  | releasing failed => exact .unlocks rfl
  | _ => exact .refl _ _ _

theorem kill_store (i : Nat) (place : StartupPlace) (s : StartupStore) :
    StoreStep i place s (place.kill s).2 := by
  cases place with
  | inspectingLocked | adding | dropping | releasing => exact .unlocks rfl
  | _ => exact .refl _ _ _

theorem statement_store (dialect : Dialect) (i : Nat) (fate : StartupFate) (place : StartupPlace)
    (s : StartupStore) : StoreStep i place s ((startupProgram dialect).statement i fate place s).2 := by
  cases fate with
  | executed => exact execute_store dialect i place s
  | refused => exact refuse_store i place s
  | killed => exact kill_store i place s

/-- **What an instance relies on, no other one disturbs.** -/
theorem Reached.undisturbed {place other : StartupPlace} (hstep : StoreStep i place s s')
    (hplace : Reached dialect tables i place s) (hne : j ≠ i)
    (h : Reached dialect tables j other s) : Reached dialect tables j other s' := by
  -- who holds the lock keeps it, and nobody else was given it
  have hlock : s.lock = some j ↔ s'.lock = some j := by
    rcases hstep.lock with hsame | ⟨hfree, htaken⟩ | ⟨hcritical, hfree⟩
    · rw [hsame]
    · rw [hfree, htaken]
      simpa using Ne.symm hne
    · rw [hplace.critical_iff.mp hcritical, hfree]
      simpa using Ne.symm hne
  have hindexes : s.lock = some j → dialect = .mysql → s'.indexes = s.indexes := by
    intro hheld hmysql
    rcases hstep.indexes with hsame | ⟨hcritical | hswap, -⟩
    · exact hsame
    · have hholder := hplace.critical_iff.mp hcritical
      rw [hheld] at hholder
      exact absurd (Option.some.inj hholder) hne
    · subst hswap
      rw [hplace.2.2] at hmysql
      cases hmysql
  have hold : .dateGroupTarget ∉ s.indexes → .dateGroupTarget ∉ s'.indexes := by
    intro hgone
    rcases hstep.indexes with hsame | ⟨-, hback⟩
    · rwa [hsame]
    · exact fun hthere => hgone (hback hthere)
  cases other with
  | checking | altering | clearing | inspecting =>
      exact ⟨h.1.grow hstep.columns, fun hheld => h.2 (hlock.mpr hheld)⟩
  | rechecking =>
      exact ⟨h.1.grow hstep.columns, fun hheld => h.2.1 (hlock.mpr hheld), hstep.columns _ h.2.2⟩
  | locking | swapping =>
      exact ⟨h.1.grow hstep.columns, fun hheld => h.2.1 (hlock.mpr hheld), h.2.2⟩
  | inspectingLocked => exact ⟨h.1.grow hstep.columns, hlock.mp h.2.1, h.2.2⟩
  | adding | dropping =>
      obtain ⟨hcolumns, hheld, hmysql, hboth⟩ := h
      refine ⟨hcolumns.grow hstep.columns, hlock.mp hheld, hmysql, ?_⟩
      rw [hindexes hheld hmysql]
      exact hboth
  | releasing failed =>
      obtain ⟨hcolumns, hheld, hmysql, hdropped⟩ := h
      exact ⟨hcolumns.grow hstep.columns, hlock.mp hheld, hmysql, fun hok => hold (hdropped hok)⟩
  | returned =>
      exact ⟨h.1.grow hstep.columns, fun hheld => h.2.1 (hlock.mpr hheld), hold h.2.2⟩
  | raised => exact fun hheld => h (hlock.mpr hheld)

/-! ### What an instance comes to rely on -/

/-- A store with the same indexes and rounds, and no fewer columns. -/
theorem StartupStore.Keyed.congr (h : s.Keyed) (hindexes : s'.indexes = s.indexes)
    (hrows : s'.rows = s.rows)
    (hcolumns : ∀ column, s.has column = true → s'.has column = true) : s'.Keyed := by
  have hmissing : s'.has slotColumn = false → s.has slotColumn = false := by
    intro hmissing
    rw [← Bool.not_eq_true] at hmissing ⊢
    exact fun hthere => hmissing (hcolumns _ hthere)
  refine ⟨?_, ⟨?_, ?_⟩, ?_⟩
  · rw [hindexes]
    exact h.keyed
  · rw [hindexes, hrows]
    exact h.accepted.1
  · intro hgone
    rw [hrows]
    exact h.accepted.2 (hmissing hgone)
  · intro hnew
    rw [hindexes] at hnew
    exact hcolumns _ (h.slotted hnew)

/-- The rounds can be told apart by the new index, whichever is in force. -/
theorem StartupStore.Keyed.active (h : s.Keyed) :
    ReservationIndex.activeTarget.Holds s.rows := by
  rcases h.keyed with hold | hnew
  · exact holds_activeTarget (h.accepted.1 _ hold)
  · exact h.accepted.1 _ hnew

/-- **A statement that is executed leads where its instance may rely on what it finds.** -/
theorem execute_reached {place : StartupPlace} (hkeyed : s.Keyed)
    (h : Reached dialect tables i place s) :
    (place.execute dialect i s).2.Keyed ∧
      Reached dialect tables i (place.execute dialect i s).1 (place.execute dialect i s).2 := by
  cases place with
  | checking column rest =>
      simp only [StartupPlace.execute]
      split_ifs with hhas
      · exact ⟨hkeyed, reached_next (h.1.drop hhas) h.2⟩
      · exact ⟨hkeyed, h⟩
  | altering column rest =>
      simp only [StartupPlace.execute]
      split_ifs with hhas
      · exact ⟨hkeyed, h.1, h.2, hhas⟩
      · have hgrows := has_append s column
        refine ⟨hkeyed.congr rfl rfl hgrows, reached_next ((h.1.grow hgrows).drop ?_) h.2⟩
        simp [StartupStore.has]
  | rechecking column rest =>
      simp only [StartupPlace.execute]
      rw [if_pos h.2.2]
      exact ⟨hkeyed, reached_next (h.1.drop h.2.2) h.2.1⟩
  | clearing =>
      simp only [StartupPlace.execute]
      rw [if_pos h.1.slot]
      refine ⟨⟨hkeyed.keyed, ⟨?_, ?_⟩, hkeyed.slotted⟩, h⟩
      · intro index hindex
        exact holds_clearSlot (hkeyed.accepted.1 index hindex)
      · intro hmissing
        exact absurd h.1.slot (by simpa [StartupStore.has] using hmissing)
  | inspecting =>
      simp only [StartupPlace.execute]
      split_ifs with hgone
      · cases dialect with
        | mysql => exact ⟨hkeyed, h.1, h.2, rfl⟩
        | sqlite => exact ⟨hkeyed, h.1, h.2, rfl⟩
      · exact ⟨hkeyed, h.1, h.2, hgone⟩
  | locking =>
      simp only [StartupPlace.execute]
      split_ifs
      · exact ⟨hkeyed.congr rfl rfl fun _ hhas => hhas, h.1, rfl, h.2.2⟩
      · exact ⟨hkeyed, h.2.1⟩
  | inspectingLocked =>
      simp only [StartupPlace.execute]
      split_ifs with hold hnew
      · exact ⟨hkeyed, h.1, h.2.1, h.2.2, hold, hnew⟩
      · exact ⟨hkeyed, h.1, h.2.1, h.2.2, hold, hnew⟩
      · exact ⟨hkeyed, h.1, h.2.1, h.2.2, fun _ => hold⟩
  | adding =>
      obtain ⟨hcolumns, hheld, hmysql, hold, hnew⟩ := h
      simp only [StartupPlace.execute]
      rw [if_pos ⟨hcolumns.slot, hnew, hkeyed.active⟩]
      refine ⟨⟨Or.inl (List.mem_append_left _ hold), ⟨?_, ?_⟩, fun _ => hcolumns.slot⟩,
        hcolumns, hheld, hmysql, List.mem_append_left _ hold, by simp⟩
      · intro index hindex
        rcases List.mem_append.mp hindex with hbefore | hadded
        · exact hkeyed.accepted.1 index hbefore
        · obtain rfl := List.mem_singleton.mp hadded
          exact hkeyed.active
      · exact hkeyed.accepted.2
  | dropping =>
      obtain ⟨hcolumns, hheld, hmysql, hold, hnew⟩ := h
      simp only [StartupPlace.execute]
      rw [if_pos hold]
      refine ⟨⟨Or.inr ?_, ⟨?_, hkeyed.accepted.2⟩, fun _ => hcolumns.slot⟩, hcolumns, hheld,
        hmysql, fun _ => by simp⟩
      · exact List.mem_filter.mpr ⟨hnew, by simp⟩
      · intro index hindex
        exact hkeyed.accepted.1 index (List.mem_filter.mp hindex).1
  | releasing failed =>
      obtain ⟨hcolumns, hheld, hmysql, hdropped⟩ := h
      refine ⟨hkeyed.congr rfl rfl fun _ hhas => hhas, ?_⟩
      cases failed with
      | true => exact fun hlock => by cases hlock
      | false => exact ⟨hcolumns, (fun hlock => by cases hlock), hdropped rfl⟩
  | swapping =>
      simp only [StartupPlace.execute]
      rw [if_pos (And.intro h.1.slot hkeyed.active)]
      split_ifs with hgone
      · refine ⟨⟨Or.inr (by simp), ⟨?_, hkeyed.accepted.2⟩, fun _ => h.1.slot⟩, h.1, h.2.1, by simp⟩
        intro index hindex
        obtain rfl := List.mem_singleton.mp hindex
        exact hkeyed.active
      · exact ⟨hkeyed, h.1, h.2.1, hgone⟩
  | returned | raised => exact ⟨hkeyed, h⟩

theorem refuse_reached {place : StartupPlace} (hkeyed : s.Keyed)
    (h : Reached dialect tables i place s) :
    (place.refuse s).2.Keyed ∧ Reached dialect tables i (place.refuse s).1 (place.refuse s).2 := by
  cases place with
  | checking | altering | clearing | inspecting => exact ⟨hkeyed, h.2⟩
  | rechecking | locking | swapping => exact ⟨hkeyed, h.2.1⟩
  | inspectingLocked =>
      exact ⟨hkeyed, h.1, h.2.1, h.2.2, fun hok => by cases hok⟩
  | adding | dropping => exact ⟨hkeyed, h.1, h.2.1, h.2.2.1, fun hok => by cases hok⟩
  | releasing failed =>
      exact ⟨hkeyed.congr rfl rfl fun _ hhas => hhas, fun hlock => by cases hlock⟩
  | returned | raised => exact ⟨hkeyed, h⟩

theorem kill_reached {place : StartupPlace} (hkeyed : s.Keyed)
    (h : Reached dialect tables i place s) :
    (place.kill s).2.Keyed ∧ Reached dialect tables i (place.kill s).1 (place.kill s).2 := by
  cases place with
  | checking | altering | clearing | inspecting => exact ⟨hkeyed, h.2⟩
  | rechecking | locking | swapping => exact ⟨hkeyed, h.2.1⟩
  | inspectingLocked | adding | dropping | releasing =>
      exact ⟨hkeyed.congr rfl rfl fun _ hhas => hhas, fun hlock => by cases hlock⟩
  | returned | raised => exact ⟨hkeyed, h⟩

/-- **The outline of the startup is valid.** -/
theorem startup_valid (dialect : Dialect) (tables : List String) :
    Valid (startupProgram dialect) StartupStore.Keyed (Reached dialect tables) where
  own i fate place s hkeyed h := by
    cases fate with
    | executed => exact execute_reached hkeyed h
    | refused => exact refuse_reached hkeyed h
    | killed => exact kill_reached hkeyed h
  others i fate place s _ h j other hne hother :=
    Reached.undisturbed (statement_store dialect i fate place s) h hne hother
  elsewhere s s' hkeyed hchange := by
    obtain ⟨rows, haccepts, rfl⟩ := hchange
    exact ⟨⟨hkeyed.keyed, haccepts, hkeyed.slotted⟩, fun i place h => h⟩

theorem StartupStore.Deployed.annotated (hstore : p.store.Deployed)
    (hplaces : ∀ i, p.place i = .next (protectionColumns tables)) :
    Annotated StartupStore.Keyed (Reached dialect tables) p := by
  refine ⟨⟨hstore.keyed, hstore.accepted, hstore.slotted⟩, fun i => ?_⟩
  rw [hplaces]
  refine reached_next (fun column hcolumn => Or.inl hcolumn) ?_
  rw [hstore.unlocked]
  simp

theorem startup_annotated (h : Reachable (startup dialect tables) p) :
    Annotated StartupStore.Keyed (Reached dialect tables) p :=
  (startup_valid dialect tables).reachable (fun _ hinit => hinit.1.annotated hinit.2) h

/-! ### Starting together -/

/-- Nothing but waiting for the lock ends an instance whose statements the database executes. -/
theorem execute_raises {place : StartupPlace} (hkeyed : s.Keyed)
    (h : Reached dialect tables i place s) (hplace : place.failed = false)
    (hfailed : (place.execute dialect i s).1.failed = true) :
    place = .locking ∧ s.lock ≠ none := by
  cases place with
  | checking column rest =>
      simp only [StartupPlace.execute] at hfailed
      split_ifs at hfailed
      · cases rest <;> cases hfailed
      · cases hfailed
  | altering column rest =>
      simp only [StartupPlace.execute] at hfailed
      split_ifs at hfailed
      · cases hfailed
      · cases rest <;> cases hfailed
  | rechecking column rest =>
      simp only [StartupPlace.execute] at hfailed
      rw [if_pos h.2.2] at hfailed
      cases rest <;> cases hfailed
  | clearing =>
      simp only [StartupPlace.execute] at hfailed
      rw [if_pos h.1.slot] at hfailed
      cases hfailed
  | inspecting =>
      simp only [StartupPlace.execute] at hfailed
      split_ifs at hfailed
      · cases dialect <;> cases hfailed
      · cases hfailed
  | locking =>
      simp only [StartupPlace.execute] at hfailed
      split_ifs at hfailed with hfree
      · cases hfailed
      · exact ⟨rfl, by simpa using hfree⟩
  | inspectingLocked =>
      simp only [StartupPlace.execute] at hfailed
      split_ifs at hfailed <;> cases hfailed
  | adding =>
      simp only [StartupPlace.execute] at hfailed
      rw [if_pos ⟨h.1.slot, h.2.2.2.2, hkeyed.active⟩] at hfailed
      cases hfailed
  | dropping =>
      simp only [StartupPlace.execute] at hfailed
      rw [if_pos h.2.2.2.1] at hfailed
      cases hfailed
  | releasing failed =>
      cases failed with
      | true => cases hplace
      | false => cases hfailed
  | swapping =>
      simp only [StartupPlace.execute] at hfailed
      rw [if_pos (And.intro h.1.slot hkeyed.active)] at hfailed
      split_ifs at hfailed <;> cases hfailed
  | returned => cases hfailed
  | raised => cases hplace

/-- What an instance that has returned leaves behind, for good. -/
def StartupStore.Migrated (tables : List String) (s : StartupStore) : Prop :=
  .dateGroupTarget ∉ s.indexes ∧ .activeTarget ∈ s.indexes ∧
    ∀ column ∈ protectionColumns tables, s.has column = true

theorem returned_migrated (h : Annotated StartupStore.Keyed (Reached dialect tables) p)
    (hplace : p.place i = .returned) : p.store.Migrated tables := by
  have hreached := h.places i
  rw [hplace] at hreached
  obtain ⟨hcolumns, -, hgone⟩ := hreached
  refine ⟨hgone, h.store.keyed.resolve_left hgone, fun column hcolumn => ?_⟩
  exact (hcolumns column hcolumn).resolve_left (by simp)

/-- **Instances that start together replace the index safely.**  Whatever statements fail and
whichever instances are killed, at any moment one instance at most is within the lock, the
rounds obey an index that is in force, and no two rounds of a target are in progress; no
statement is refused for what other instances did, short of the lock being held; and once
any instance has returned, the old index is gone, the new one is in force, and every column is
there. -/
theorem startup_safe (h : Reachable (startup dialect tables) p) :
    (∀ i j, (p.place i).critical = true → (p.place j).critical = true → i = j) ∧
    (.dateGroupTarget ∈ p.store.indexes ∨ .activeTarget ∈ p.store.indexes) ∧
    (∀ index ∈ p.store.indexes, index.Holds p.store.rows) ∧
    ReservationIndex.activeTarget.Holds p.store.rows ∧
    (∀ i, (p.place i).failed = false →
      ((p.place i).execute dialect i p.store).1.failed = true →
        p.place i = .locking ∧ ∃ j, j ≠ i ∧ p.store.lock = some j) ∧
    ∀ i, p.place i = .returned → p.store.Migrated tables := by
  have hnow := startup_annotated h
  refine ⟨?_, hnow.store.keyed, hnow.store.accepted.1, hnow.store.active, ?_,
    fun i hplace => returned_migrated hnow hplace⟩
  · intro i j hi hj
    exact hnow.exclusive (fun k place s hcritical hk => hk.critical_iff.mp hcritical) hi hj
  · intro i hplace hfailed
    obtain ⟨hlocking, hheld⟩ := execute_raises hnow.store (hnow.places i) hplace hfailed
    refine ⟨hlocking, ?_⟩
    obtain ⟨j, hj⟩ := Option.ne_none_iff_exists'.mp hheld
    refine ⟨j, fun hsame => ?_, hj⟩
    have hreached := hnow.places i
    rw [hlocking] at hreached
    exact hreached.2.1 (hsame ▸ hj)

/-- Two instances on a database of the old version: the first has looked at the indexes when the
second one starts, and replaces them. -/
def oldStore : StartupStore where
  columns := []
  indexes := [.dateGroupTarget]
  rows :=
    [{ reservationId := "a", dateStr := 739000, groupId := "7", targetId := "2", ownerId := "1"
       ownerPigId := "pig", deliveryBotId := "bot", status := .completed, createdAt := 0 },
     { reservationId := "b", dateStr := 739000, groupId := "7", targetId := "3", ownerId := "1"
       ownerPigId := "pig", deliveryBotId := "bot", createdAt := 0 }]

def oldTables : List String :=
  ["group_protections", "roast_reservations", "roast_reservation_participants"]

def oldPool : Pool Nat StartupPlace StartupStore where
  place _ := .next (protectionColumns oldTables)
  store := oldStore

theorem oldStore_deployed : oldStore.Deployed where
  unlocked := rfl
  keyed := by decide
  accepted := ⟨by decide, fun _ => by decide⟩
  slotted := by decide

/-- The first instance comes to the lock, then the second one starts and finishes, and then the
first one goes on. -/
def meetingPool : Pool Nat StartupPlace StartupStore :=
  let P := startupProgram .mysql
  P.alone 0 .executed (P.alone 1 .executed (P.alone 0 .executed oldPool 30) 40) 40

theorem oldPool_reachable : Reachable (startup .mysql oldTables) oldPool :=
  .of_init ⟨oldStore_deployed, fun _ => rfl⟩

theorem meetingPool_reachable : Reachable (startup .mysql oldTables) meetingPool := by
  have hfirst := oldPool_reachable.run ((startupProgram .mysql).alone_run 0 .executed 30 oldPool)
  have hsecond := hfirst.run ((startupProgram .mysql).alone_run 1 .executed 40 _)
  exact hsecond.run ((startupProgram .mysql).alone_run 0 .executed 40 _)

theorem startup_safe_meeting : meetingPool.place 0 = .returned ∧ meetingPool.place 1 = .returned ∧
    meetingPool.store.Migrated oldTables := by
  have hfirst : meetingPool.place 0 = .returned := by decide +kernel
  have hsecond : meetingPool.place 1 = .returned := by decide +kernel
  obtain ⟨-, -, -, -, -, hmigrated⟩ := startup_safe meetingPool_reachable
  exact ⟨hfirst, hsecond, hmigrated 0 hfirst⟩

/-! ### Starting again -/

/-- How many statements are left, at most. -/
def StartupPlace.distance : StartupPlace → Nat
  | .checking _ rest => 3 * rest.length + 12
  | .altering _ rest => 3 * rest.length + 11
  | .rechecking _ rest => 3 * rest.length + 10
  | .clearing => 9
  | .inspecting => 8
  | .locking => 7
  | .inspectingLocked => 6
  | .adding => 5
  | .dropping => 4
  | .releasing _ => 3
  | .swapping => 2
  | .returned => 0
  | .raised => 0

theorem distance_next (rest : List Column) :
    (StartupPlace.next rest).distance = 3 * rest.length + 9 := by
  cases rest with
  | nil => rfl
  | cons column rest =>
      show 3 * rest.length + 12 = 3 * (rest.length + 1) + 9
      omega

theorem execute_nearer {place : StartupPlace} (hplace : place ≠ .returned)
    (hfailed : place.failed = false) :
    (place.execute dialect i s).1.distance < place.distance := by
  cases place with
  | checking column rest =>
      simp only [StartupPlace.execute]
      split_ifs
      · show (StartupPlace.next rest).distance < 3 * rest.length + 12
        rw [distance_next]
        omega
      · exact Nat.lt_succ_self _
  | altering column rest =>
      simp only [StartupPlace.execute]
      split_ifs
      · exact Nat.lt_succ_self _
      · show (StartupPlace.next rest).distance < 3 * rest.length + 11
        rw [distance_next]
        omega
  | rechecking column rest =>
      simp only [StartupPlace.execute]
      split_ifs
      · show (StartupPlace.next rest).distance < 3 * rest.length + 10
        rw [distance_next]
        omega
      · exact Nat.succ_pos _
  | inspecting =>
      simp only [StartupPlace.execute]
      split_ifs
      · cases dialect <;> simp [StartupPlace.distance]
      · simp [StartupPlace.distance]
  | releasing failed => cases failed <;> simp [StartupPlace.execute, StartupPlace.distance]
  | returned => exact absurd rfl hplace
  | raised => cases hfailed
  | _ =>
      simp only [StartupPlace.execute]
      split_ifs <;> simp [StartupPlace.distance]

/-- The instance has not failed, and no other one is within the lock. -/
structure GoesOn (dialect : Dialect) (tables : List String) (i : Nat)
    (p : Pool Nat StartupPlace StartupStore) : Prop where
  annotated : Annotated StartupStore.Keyed (Reached dialect tables) p
  going : (p.place i).failed = false
  alone : ∀ j, j ≠ i → (p.place j).critical = false

theorem GoesOn.executed (h : GoesOn dialect tables i p) :
    GoesOn dialect tables i (p.move i ((p.place i).execute dialect i p.store).1
      ((p.place i).execute dialect i p.store).2) where
  annotated := by
    have hstep : (startup dialect tables).step p (.statement i .executed)
        (p.move i ((p.place i).execute dialect i p.store).1
          ((p.place i).execute dialect i p.store).2) := rfl
    exact (startup_valid dialect tables).step h.annotated hstep
  going := by
    rw [Pool.move_place, ← Bool.not_eq_true]
    intro hfailed
    obtain ⟨-, hheld⟩ := execute_raises h.annotated.store (h.annotated.places i) h.going hfailed
    obtain ⟨j, hj⟩ := Option.ne_none_iff_exists'.mp hheld
    have hcritical := (h.annotated.places j).critical_iff.mpr hj
    by_cases hsame : j = i
    · subst hsame
      obtain ⟨hlocking, -⟩ :=
        execute_raises h.annotated.store (h.annotated.places j) h.going hfailed
      rw [hlocking] at hcritical
      cases hcritical
    · rw [h.alone j hsame] at hcritical
      cases hcritical
  alone := by
    intro j hj
    rw [Pool.move_other _ hj]
    exact h.alone j hj

/-- An instance that is left alone returns. -/
theorem GoesOn.finishes (h : GoesOn dialect tables i p) :
    ∃ n, GoesOn dialect tables i ((startupProgram dialect).alone i .executed p n) ∧
      ((startupProgram dialect).alone i .executed p n).place i = .returned := by
  obtain ⟨n, -, hgoing, harrived⟩ := (startupProgram dialect).arrives i .executed
    (GoesOn dialect tables i) (· = .returned) StartupPlace.distance
    (fun q hq hfar => ⟨hq.executed, execute_nearer hfar hq.going⟩) p h
  exact ⟨n, hgoing, harrived⟩

theorem clearSlot_idem (row : RoastReservation) : clearSlot (clearSlot row) = clearSlot row := by
  unfold clearSlot
  split_ifs <;> rfl

/-- Instances take no round away, and change none but for the slots of completed ones. -/
theorem statements_rows {acts : List (Act Nat StartupFate StartupStore)}
    {q : Pool Nat StartupPlace StartupStore} (hrun : Run (startup dialect tables) p acts q)
    (hacts : ∀ act ∈ acts, ∃ i fate, act = .statement i fate) :
    q.store.rows = p.store.rows ∨ q.store.rows = p.store.rows.map clearSlot := by
  induction hrun with
  | nil => exact Or.inl rfl
  | @snoc u v acts act _ hstep ih =>
      have hbefore := ih fun other hother => hacts other (List.mem_append_left _ hother)
      obtain ⟨i, fate, rfl⟩ := hacts act (by simp)
      obtain rfl := hstep
      rcases (statement_store dialect i fate (u.place i) u.store).rows with hsame | hcleared
      · rwa [Pool.move_store, hsame]
      · rw [Pool.move_store, hcleared]
        right
        rcases hbefore with hrows | hrows
        · rw [hrows]
        · rw [hrows, List.map_map]
          exact List.map_congr_left fun row _ => clearSlot_idem row

/-- A statement of the instance, or the end of another one that was within the lock. -/
def Mends (i : Nat) (p : Pool Nat StartupPlace StartupStore)
    (act : Act Nat StartupFate StartupStore) : Prop :=
  act = .statement i .executed ∨
    ∃ j, j ≠ i ∧ (p.place j).critical = true ∧ act = .statement j .killed

/-- **What a failed start leaves behind, the next one mends.**  From every state any starts
lead to, an instance that has not failed brings the migration to its end by its own statements
alone, once an instance that is within the lock, if there is one, is killed; and no round is
lost or changed by that, but for the slots of completed ones. -/
theorem startup_mended (h : Reachable (startup dialect tables) p)
    (hgoing : (p.place i).failed = false) :
    ∃ acts q, Run (startup dialect tables) p acts q ∧
      (∀ act ∈ acts, Mends i p act) ∧
      q.place i = .returned ∧ q.store.Migrated tables ∧
      (q.store.rows = p.store.rows ∨ q.store.rows = p.store.rows.map clearSlot) := by
  have hnow := startup_annotated h
  have hrows : ∀ {acts q}, Run (startup dialect tables) p acts q →
      (∀ act ∈ acts, Mends i p act) →
      q.store.rows = p.store.rows ∨ q.store.rows = p.store.rows.map clearSlot := by
    intro acts q hrun hacts
    refine statements_rows hrun fun act hact => ?_
    rcases hacts act hact with rfl | ⟨j, -, -, rfl⟩
    · exact ⟨i, .executed, rfl⟩
    · exact ⟨j, .killed, rfl⟩
  by_cases halone : ∀ j, j ≠ i → (p.place j).critical = false
  · obtain ⟨n, hq, hreturned⟩ := (GoesOn.mk hnow hgoing halone).finishes
    have hrun : Run (startup dialect tables) p _ _ :=
      (startupProgram dialect).alone_run i .executed n p
    have hacts : ∀ act ∈ List.replicate n (.statement i .executed), Mends i p act :=
      fun act hact => Or.inl (List.eq_of_mem_replicate hact)
    exact ⟨_, _, hrun, hacts, hreturned, returned_migrated hq.annotated hreturned, hrows hrun hacts⟩
  · -- somebody else is within the lock, and is the only one
    push Not at halone
    obtain ⟨j, hj, hcritical⟩ := halone
    rw [ne_eq, Bool.not_eq_false] at hcritical
    have hkill : (startup dialect tables).step p (.statement j .killed)
        (p.move j ((p.place j).kill p.store).1 ((p.place j).kill p.store).2) := rfl
    have hkilled : GoesOn dialect tables i
        (p.move j ((p.place j).kill p.store).1 ((p.place j).kill p.store).2) := by
      refine ⟨startup_annotated (h.step hkill), ?_, fun k hk => ?_⟩
      · rw [Pool.move_other _ (Ne.symm hj)]
        exact hgoing
      · by_cases hsame : k = j
        · subst hsame
          rw [Pool.move_place]
          cases p.place k <;> rfl
        · rw [Pool.move_other _ hsame, ← Bool.not_eq_true]
          intro hother
          exact hsame (hnow.exclusive
            (fun k place s hcritical hk => hk.critical_iff.mp hcritical) hother hcritical)
    obtain ⟨n, hq, hreturned⟩ := hkilled.finishes
    have hrun : Run (startup dialect tables) p _ _ :=
      Run.cons hkill ((startupProgram dialect).alone_run i .executed n _)
    have hacts : ∀ act ∈ .statement j .killed :: List.replicate n (.statement i .executed),
        Mends i p act := by
      intro act hact
      rcases List.mem_cons.mp hact with rfl | hrest
      · exact Or.inr ⟨j, hj, hcritical, rfl⟩
      · exact Or.inl (List.eq_of_mem_replicate hrest)
    exact ⟨_, _, hrun, hacts, hreturned, returned_migrated hq.annotated hreturned, hrows hrun hacts⟩

/-- An instance is killed when it has added the new index but not dropped the old one, and
the next one starts. -/
def brokenPool : Pool Nat StartupPlace StartupStore :=
  (startupProgram .mysql).alone 0 .executed oldPool 33

theorem startup_mended_broken : brokenPool.place 0 = .dropping ∧
    ∃ acts q, Run (startup .mysql oldTables) brokenPool acts q ∧ q.place 1 = .returned ∧
      q.store.Migrated oldTables := by
  have hbroken : Reachable (startup .mysql oldTables) brokenPool :=
    oldPool_reachable.run ((startupProgram .mysql).alone_run 0 .executed 33 oldPool)
  obtain ⟨acts, q, hrun, -, hreturned, hmigrated, -⟩ :=
    startup_mended hbroken (i := 1) (by decide +kernel)
  exact ⟨by decide +kernel, acts, q, hrun, hreturned, hmigrated⟩

end RollPig
