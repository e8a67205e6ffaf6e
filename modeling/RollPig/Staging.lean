/-
Rows staged for a commit.

A session that does not flush before it selects sees the committed rows of a table only;
what it adds is staged beside them, and the unique key of the table is looked at when both
are committed together.  A loop that adds what its lookup does not find therefore adds the
rows that meet a key twice.  Nothing here knows what the rows are.
-/
import RollPig.Tables
import Mathlib.Data.Option.Basic

namespace Tables

/-- The rows a SELECT sees and the rows added to the session. -/
structure Staged (α : Type*) where
  stored : List α
  added : List α := []

variable {α κ : Type*} [DecidableEq κ] {key : α → κ} {t : Staged α} {x : α}

/-- `scalar_one_or_none`: more than one row is an error. -/
def oneOrNone : List α → Option (Option α)
  | [] => some none
  | [x] => some (some x)
  | _ => none

namespace Staged

def add (t : Staged α) (x : α) : Staged α :=
  { t with added := t.added ++ [x] }

/-- The stored row under a key. -/
def one? (key : α → κ) (t : Staged α) (k : κ) : Option (Option α) :=
  oneOrNone (t.stored.filter fun r => key r = k)

/-- Both kinds of rows, as a table without a unique key keeps them. -/
def rows (t : Staged α) : List α :=
  t.stored ++ t.added

/-- Commit to a table with a unique key. -/
def commit (key : α → κ) (t : Staged α) : Option (List α) :=
  if Unique key t.rows then some t.rows else none

/-- Add a row unless its key is stored. -/
def addMissing (key : α → κ) (t : Staged α) (x : α) : Option (Staged α) :=
  (t.one? key (key x)).map fun existing => if existing.isSome then t else t.add x

end Staged

/-! ### Lookups -/

theorem oneOrNone_eq_none {rows : List α} : oneOrNone rows = none ↔ 2 ≤ rows.length := by
  match rows with
  | [] => simp [oneOrNone]
  | [_] => simp [oneOrNone]
  | _ :: _ :: _ => simp [oneOrNone]

theorem Staged.one?_unknown {k : κ} (h : k ∉ t.stored.map key) : t.one? key k = some none := by
  have hrows : (t.stored.filter fun r => key r = k) = [] := by
    refine List.filter_eq_nil_iff.mpr fun r hr hkey => h ?_
    exact of_decide_eq_true hkey ▸ List.mem_map_of_mem hr
  simp [Staged.one?, hrows, oneOrNone]

theorem Staged.one?_empty (h : t.stored = []) (k : κ) : t.one? key k = some none :=
  Staged.one?_unknown (by simp [h])

/-- A stored row is found under its key, if the key is unique. -/
theorem Staged.one?_mem (hunique : Unique key t.stored) (hx : x ∈ t.stored) :
    t.one? key (key x) = some (some x) := by
  have hrows : (t.stored.filter fun r => key r = key x) = [x] := by
    have hone := hunique.filter_key (key x)
    have hmem : x ∈ t.stored.filter fun r => key r = key x := by simp [hx]
    generalize (t.stored.filter fun r => key r = key x) = rows at hone hmem
    match rows with
    | [y] => rw [List.mem_singleton.mp hmem]
    | _ :: _ :: _ => simp at hone
  simp [Staged.one?, hrows, oneOrNone]

theorem Staged.one?_known (hunique : Unique key t.stored) {k : κ} (hk : k ∈ t.stored.map key) :
    ∃ r, t.one? key k = some (some r) := by
  obtain ⟨r, hr, rfl⟩ := List.mem_map.mp hk
  exact ⟨r, Staged.one?_mem hunique hr⟩

/-- Two rows of one key are an error to whoever looks them up. -/
theorem Staged.one?_ambiguous (h : ¬Unique key t.stored) :
    ∃ x ∈ t.stored, t.one? key (key x) = none := by
  rw [Unique, List.nodup_iff_count_le_one] at h
  push Not at h
  obtain ⟨k, hk⟩ := h
  rw [List.count, List.countP_map, List.countP_eq_length_filter] at hk
  have hrows : (t.stored.filter ((· == k) ∘ key)) = t.stored.filter fun r => key r = k := by
    congr 1
  rw [hrows] at hk
  obtain ⟨x, hx⟩ : ∃ x, x ∈ t.stored.filter fun r => key r = k :=
    List.exists_mem_of_length_pos (by omega)
  obtain ⟨hx, hkey⟩ := List.mem_filter.mp hx
  have hkey : key x = k := by simpa using hkey
  refine ⟨x, hx, ?_⟩
  rw [hkey]
  exact oneOrNone_eq_none.mpr (by omega)

theorem Staged.addMissing_empty (h : t.stored = []) (x : α) :
    t.addMissing key x = some (t.add x) := by
  simp [Staged.addMissing, Staged.one?_empty h]

/-! ### Loops -/

variable {ρ : Type*} {row : ρ → α} {records : List ρ}

/-- A loop stages the rows whose keys are not stored. -/
theorem Staged.foldlM_addMissing (hunique : Unique key t.stored) (row : ρ → α)
    (records : List ρ) :
    records.foldlM (fun t r => t.addMissing key (row r)) t =
      some { t with
        added := t.added ++ (records.map row).filter fun x => key x ∉ t.stored.map key } := by
  induction records generalizing t with
  | nil => simp
  | cons r records ih =>
      rw [List.foldlM_cons, List.map_cons]
      by_cases hknown : key (row r) ∈ t.stored.map key
      · obtain ⟨x, hx⟩ := Staged.one?_known hunique hknown
        have hstep : t.addMissing key (row r) = some t := by simp [Staged.addMissing, hx]
        rw [hstep, List.filter_cons_of_neg (by simpa using hknown)]
        exact ih hunique
      · have hstep : t.addMissing key (row r) = some (t.add (row r)) := by
          simp [Staged.addMissing, Staged.one?_unknown hknown]
        rw [hstep, List.filter_cons_of_pos (by simpa using hknown)]
        show records.foldlM _ (t.add (row r)) = _
        rw [ih (show Unique key (t.add (row r)).stored from hunique)]
        simp [Staged.add]

/-- On an empty table a loop stages everything. -/
theorem Staged.foldlM_addMissing_empty (key : α → κ) (row : ρ → α) (h : t.stored = [])
    (records : List ρ) :
    records.foldlM (fun t r => t.addMissing key (row r)) t =
      some { t with added := t.added ++ records.map row } := by
  have hunique : Unique key t.stored := by
    rw [h]
    exact List.nodup_nil
  rw [Staged.foldlM_addMissing hunique, List.filter_eq_self.mpr fun x _ => by simp [h]]

/-- A loop whose lookups all find a row stages nothing. -/
theorem Staged.foldlM_addMissing_known (hunique : Unique key t.stored)
    (h : ∀ r ∈ records, key (row r) ∈ t.stored.map key) :
    records.foldlM (fun t r => t.addMissing key (row r)) t = some t := by
  have hnone : ((records.map row).filter fun x => key x ∉ t.stored.map key) = [] := by
    refine List.filter_eq_nil_iff.mpr fun x hx => ?_
    obtain ⟨r, hr, rfl⟩ := List.mem_map.mp hx
    simpa using h r hr
  rw [Staged.foldlM_addMissing hunique, hnone, List.append_nil]

theorem Staged.addMissing_stored {t' : Staged α} (h : t.addMissing key x = some t') :
    t'.stored = t.stored := by
  obtain ⟨existing, -, rfl⟩ := Option.map_eq_some_iff.mp h
  split_ifs <;> rfl

/-- A loop fails at a row whose key is stored twice. -/
theorem Staged.foldlM_addMissing_ambiguous {r : ρ} (hr : r ∈ records)
    (h : t.one? key (key (row r)) = none) :
    records.foldlM (fun t r => t.addMissing key (row r)) t = none := by
  induction records generalizing t with
  | nil => simp at hr
  | cons first records ih =>
      rw [List.foldlM_cons]
      cases hstep : t.addMissing key (row first) with
      | none => rfl
      | some t' =>
          have hlater : t'.one? key (key (row r)) = none := by
            unfold Staged.one? at h ⊢
            rwa [Staged.addMissing_stored hstep]
          rcases List.mem_cons.mp hr with rfl | hrest
          · simp [Staged.addMissing, h] at hstep
          · exact ih hrest hlater

/-! ### Filling a table up -/

/-- The new rows whose keys are not stored. -/
def missing (key : α → κ) (stored new : List α) : List α :=
  new.filter fun x => key x ∉ stored.map key

theorem Unique.missing {stored new : List α} (hstored : Unique key stored)
    (hnew : Unique key new) : Unique key (stored ++ missing key stored new) := by
  unfold Unique Tables.missing
  rw [List.map_append, List.nodup_append]
  refine ⟨hstored, hnew.filter _, ?_⟩
  rintro k hk k' hk' rfl
  obtain ⟨x, hx, rfl⟩ := List.mem_map.mp hk'
  have hfree := (List.mem_filter.mp hx).2
  exact absurd hk (by simpa using hfree)

/-- Under each key stands what was stored, else what was missing. -/
theorem lookup_missing (stored new : List α) (k : κ) :
    lookup key (stored ++ missing key stored new) k =
      (lookup key stored k).or (lookup key new k) := by
  unfold lookup missing
  rw [List.find?_append]
  cases hfound : stored.find? fun x => key x = k with
  | some x => rfl
  | none =>
      have hfree : k ∉ stored.map key := lookup_none.mp hfound
      rw [Option.none_or, Option.none_or, List.find?_filter]
      congr 1
      funext x
      by_cases hkey : key x = k
      · rw [hkey]
        simpa using hfree
      · simp [hkey]

end Tables
