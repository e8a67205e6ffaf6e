/-
Keeping the earliest time of everything that is noted.

A record has at most one time for each key.  Noting a time puts it in, or moves the time
that is there back to it, so after any list of notes a key has the least of all times noted
under it and the one it began with, in whatever order they came.
-/
import Mathlib.Order.Bounds.Basic
import Mathlib.Order.MinMax

namespace Earliest

variable {κ τ : Type*} [LinearOrder τ]

/-- The earlier of a time that may be there and another. -/
def earlier (old : Option τ) (time : τ) : τ :=
  match old with
  | none => time
  | some before => min before time

/-- The times a key has in a record and among notes. -/
def times (record : κ → Option τ) (items : List (κ × τ)) (k : κ) : Set τ :=
  {time | record k = some time ∨ (k, time) ∈ items}

variable {record : κ → Option τ} {item : κ × τ} {items : List (κ × τ)} {k : κ} {time : τ}

theorem isLeast_times_nil : IsLeast (times record [] k) time ↔ record k = some time := by
  constructor
  · rintro ⟨hold | hnew, -⟩
    · exact hold
    · cases hnew
  · intro hold
    refine ⟨Or.inl hold, ?_⟩
    rintro other (hother | hnew)
    · exact (Option.some.inj (hold.symm.trans hother)).le
    · cases hnew

variable [DecidableEq κ]

/-- Note a time under a key. -/
def note (record : κ → Option τ) (item : κ × τ) : κ → Option τ := fun k =>
  if k = item.1 then some (earlier (record k) item.2) else record k

/-- The earlier of two times is the least of them. -/
theorem earlier_isLeast (old : Option τ) (time : τ) :
    IsLeast {t | old = some t ∨ t = time} (earlier old time) := by
  unfold earlier
  cases old with
  | none =>
      refine ⟨Or.inr rfl, ?_⟩
      rintro t (hold | rfl)
      · cases hold
      · exact le_rfl
  | some before =>
      constructor
      · show some before = some (min before time) ∨ min before time = time
        rcases min_choice before time with hmin | hmin
        · exact Or.inl (congrArg some hmin.symm)
        · exact Or.inr hmin
      · rintro t (hold | rfl)
        · obtain rfl := Option.some.inj hold
          exact min_le_left _ _
        · exact min_le_right _ _

/-- A part of a set may be replaced by its least member. -/
theorem isLeast_union_congr {s t : Set τ} {least : τ} (h : IsLeast s least) :
    IsLeast (s ∪ t) time ↔ IsLeast ({least} ∪ t) time := by
  have hpart : IsLeast s time ↔ IsLeast {least} time :=
    ⟨fun hs => hs.unique h ▸ isLeast_singleton, fun hs => hs.unique isLeast_singleton ▸ h⟩
  rw [isLeast_union_iff, isLeast_union_iff, hpart, h.lowerBounds_eq,
    isLeast_singleton.lowerBounds_eq]

/-- Noting a time first changes nothing about the least of all. -/
theorem isLeast_times_cons :
    IsLeast (times record (item :: items) k) time ↔
      IsLeast (times (note record item) items k) time := by
  by_cases hkey : k = item.1
  · have hitem : ∀ other : τ, (k, other) = item ↔ other = item.2 := by
      intro other
      rw [Prod.ext_iff]
      exact and_iff_right hkey
    have hall : times record (item :: items) k =
        {t | record k = some t ∨ t = item.2} ∪ {t | (k, t) ∈ items} := by
      ext other
      show (_ ∨ _) ↔ ((_ ∨ _) ∨ _)
      rw [List.mem_cons, hitem, or_assoc]
      rfl
    have hnoted : times (note record item) items k =
        {earlier (record k) item.2} ∪ {t | (k, t) ∈ items} := by
      have hhere : note record item k = some (earlier (record k) item.2) := if_pos hkey
      ext other
      show (_ ∨ _) ↔ (_ ∨ _)
      rw [hhere, Option.some_inj, eq_comm, Set.mem_singleton_iff]
      rfl
    rw [hall, hnoted, isLeast_union_congr (earlier_isLeast (record k) item.2)]
  · have hsame : times (note record item) items k = times record (item :: items) k := by
      have hnoted : note record item k = record k := if_neg hkey
      ext other
      have hnot : (k, other) ≠ item := fun heq => hkey (congrArg Prod.fst heq)
      show (_ ∨ _) ↔ (_ ∨ _)
      rw [hnoted, List.mem_cons, or_iff_right hnot]
    rw [hsame]

/-- **A key has the least of its times.** -/
theorem foldl_note :
    items.foldl note record k = some time ↔ IsLeast (times record items k) time := by
  induction items generalizing record with
  | nil => exact isLeast_times_nil.symm
  | cons item items ih => rw [List.foldl_cons, ih, isLeast_times_cons]

/-- A key that has times has one in the record. -/
theorem foldl_note_isSome :
    (items.foldl note record k).isSome = true ↔ (times record items k).Nonempty := by
  induction items generalizing record with
  | nil =>
      rw [List.foldl_nil, Option.isSome_iff_exists]
      refine exists_congr fun time => ⟨Or.inl, ?_⟩
      rintro (hold | hnew)
      · exact hold
      · cases hnew
  | cons item items ih =>
      rw [List.foldl_cons, ih]
      constructor
      · rintro ⟨time, hnoted | hrest⟩
        · by_cases hkey : k = item.1
          · exact ⟨item.2, Or.inr (by rw [hkey]; exact List.mem_cons_self)⟩
          · exact ⟨time, Or.inl ((if_neg hkey).symm.trans hnoted)⟩
        · exact ⟨time, Or.inr (List.mem_cons_of_mem item hrest)⟩
      · rintro ⟨time, hold | hnew⟩
        · by_cases hkey : k = item.1
          · exact ⟨_, Or.inl (if_pos hkey)⟩
          · exact ⟨time, Or.inl ((if_neg hkey).trans hold)⟩
        · rcases List.mem_cons.mp hnew with hhere | hrest
          · exact ⟨_, Or.inl (if_pos (congrArg Prod.fst hhere))⟩
          · exact ⟨time, Or.inr hrest⟩

end Earliest
