/-
Meters: a table with one row for each key, to which amounts are added.

A charge inserts a row under its key, or is added to the row that stands there.  Whoever reads
the table afterwards, under one key or over a selection of keys, reads the sum of the charges
of these keys: the table tells of a log of charges what the log itself would tell, and no
charge is lost or counted twice.  Nothing here knows what the rows or the amounts are.
-/
import Mathlib.Algebra.BigOperators.Group.List.Basic
import RollPig.Tables

namespace Metering

/-- How the rows of a table are read: a row has a key and an amount, and takes in another row
of its key. -/
structure Scale (α κ M : Type*) [AddCommMonoid M] where
  key : α → κ
  amount : α → M
  add : α → α → α
  key_add : ∀ row charge, key (add row charge) = key row
  amount_add : ∀ row charge, amount (add row charge) = amount row + amount charge

variable {α κ M : Type*} [AddCommMonoid M] (S : Scale α κ M) {t log : List α} {x : α} {k : κ}

/-- What the rows of the selected keys, or the charges of a log, come to. -/
def total (p : κ → Bool) (t : List α) : M :=
  ((t.filter fun row => p (S.key row)).map S.amount).sum

theorem total_append (p : κ → Bool) (t u : List α) :
    total S p (t ++ u) = total S p t + total S p u := by
  unfold total
  rw [List.filter_append, List.map_append, List.sum_append]

theorem total_single (p : κ → Bool) (x : α) :
    total S p [x] = if p (S.key x) then S.amount x else 0 := by
  unfold total
  by_cases hx : p (S.key x) = true <;> simp [hx]

variable [DecidableEq κ]

/-- Insert the charge, or add it to the row of its key. -/
def charge (x : α) (t : List α) : List α :=
  match Tables.lookup S.key t (S.key x) with
  | none => t ++ [x]
  | some row => Tables.writeBack S.key [S.add row x] t

/-- What the row of a key reads; no row is nothing. -/
def reading (t : List α) (k : κ) : M := ((Tables.lookup S.key t k).map S.amount).getD 0

theorem unique_charge (h : Tables.Unique S.key t) : Tables.Unique S.key (charge S x t) := by
  unfold charge
  cases hrow : Tables.lookup S.key t (S.key x) with
  | none =>
      refine h.insert fun row hmem hkey => ?_
      exact Tables.lookup_none.mp hrow (hkey ▸ List.mem_map_of_mem hmem)
  | some row => exact h.writeBack

/-- **A charge adds its amount to the selections its key is in.** -/
theorem total_charge (h : Tables.Unique S.key t) (p : κ → Bool) (x : α) :
    total S p (charge S x t) = total S p t + if p (S.key x) then S.amount x else 0 := by
  unfold charge
  cases hrow : Tables.lookup S.key t (S.key x) with
  | none => rw [total_append, total_single]
  | some row =>
      obtain ⟨hmem, hkey⟩ := Tables.lookup_some hrow
      obtain ⟨before, after, ht, hwritten⟩ := h.writeBack_split hmem (S.key_add row x)
      have hsplit : ∀ y : α, total S p (before ++ y :: after) =
          total S p before + ((if p (S.key y) then S.amount y else 0) + total S p after) := by
        intro y
        rw [total_append, ← List.singleton_append, total_append, total_single]
      show total S p (Tables.writeBack S.key [S.add row x] t) = _
      rw [hwritten, ht, hsplit, hsplit, S.key_add, hkey]
      by_cases hp : p (S.key x) = true
      · rw [if_pos hp, if_pos hp, if_pos hp, S.amount_add]
        -- the charge moves behind the rows after its own
        rw [add_right_comm (S.amount row), ← add_assoc, ← add_assoc]
      · rw [if_neg hp, if_neg hp, if_neg hp, add_zero]

theorem reading_eq_total (h : Tables.Unique S.key t) (k : κ) :
    reading S t k = total S (fun other => decide (other = k)) t := by
  unfold reading total
  cases hrow : Tables.lookup S.key t k with
  | none =>
      have hnone : (t.filter fun row => decide (S.key row = k)) = [] := by
        rw [List.filter_eq_nil_iff]
        intro row hmem
        rw [decide_eq_true_eq]
        intro hkey
        exact Tables.lookup_none.mp hrow (hkey ▸ List.mem_map_of_mem hmem)
      rw [hnone]
      rfl
  | some row =>
      obtain ⟨hmem, rfl⟩ := Tables.lookup_some hrow
      have hone : (t.filter fun other => decide (S.key other = S.key row)) = [row] := by
        have hlength := h.filter_key (S.key row)
        have hin : row ∈ t.filter fun other => decide (S.key other = S.key row) := by
          simpa using hmem
        obtain ⟨first, hfirst⟩ := List.length_eq_one_iff.mp
          (Nat.le_antisymm hlength (List.length_pos_of_mem hin))
        rw [hfirst] at hin ⊢
        rw [List.mem_singleton.mp hin]
      rw [hone]
      simp

/-! ### A log of charges -/

/-- The table after a log of charges, from an empty one. -/
def metered (log : List α) : List α := log.foldl (fun t x => charge S x t) []

theorem metered_snoc (log : List α) (x : α) : metered S (log ++ [x]) = charge S x (metered S log) := by
  unfold metered
  rw [List.foldl_append]
  rfl

theorem unique_metered (log : List α) : Tables.Unique S.key (metered S log) := by
  induction log using List.reverseRec with
  | nil => exact List.nodup_nil
  | append_singleton log x ih =>
      rw [metered_snoc]
      exact unique_charge S ih

/-- **The table tells what its log tells.** -/
theorem total_metered (p : κ → Bool) (log : List α) : total S p (metered S log) = total S p log := by
  induction log using List.reverseRec with
  | nil => rfl
  | append_singleton log x ih =>
      rw [metered_snoc, total_charge S (unique_metered S log), ih, total_append, total_single]

theorem reading_metered (log : List α) (k : κ) :
    reading S (metered S log) k = total S (fun other => decide (other = k)) log := by
  rw [reading_eq_total S (unique_metered S log), total_metered]

/-- The keys of the table are those of its log. -/
theorem mem_keys_metered (log : List α) (k : κ) :
    k ∈ (metered S log).map S.key ↔ k ∈ log.map S.key := by
  induction log using List.reverseRec with
  | nil => rfl
  | append_singleton log x ih =>
      rw [metered_snoc, List.map_append, List.mem_append, ← ih]
      unfold charge
      cases hrow : Tables.lookup S.key (metered S log) (S.key x) with
      | none => rw [List.map_append, List.mem_append]
      | some row =>
          rw [Tables.map_key_writeBack]
          obtain ⟨hmem, hkey⟩ := Tables.lookup_some hrow
          refine ⟨Or.inl, fun hk => hk.elim id fun hlast => ?_⟩
          rw [List.map_singleton, List.mem_singleton] at hlast
          rw [hlast, ← hkey]
          exact List.mem_map_of_mem hmem

/-- What holds of every charge and of sums holds of every row. -/
theorem forall_metered {P : M → Prop} (hadd : ∀ a b, P a → P b → P (a + b))
    (hlog : ∀ x ∈ log, P (S.amount x)) : ∀ row ∈ metered S log, P (S.amount row) := by
  induction log using List.reverseRec with
  | nil => exact fun row hrow => absurd hrow List.not_mem_nil
  | append_singleton log x ih =>
      have hrows := ih fun y hy => hlog y (List.mem_append_left _ hy)
      have hlast : P (S.amount x) := hlog x (by simp)
      intro row hrow
      rw [metered_snoc] at hrow
      unfold charge at hrow
      cases hfound : Tables.lookup S.key (metered S log) (S.key x) with
      | none =>
          rw [hfound] at hrow
          rcases List.mem_append.mp hrow with hold | hnew
          · exact hrows row hold
          · rw [List.mem_singleton.mp hnew]
            exact hlast
      | some old =>
          rw [hfound] at hrow
          rcases Tables.mem_writeBack_singleton hrow with ⟨hold, -⟩ | rfl
          · exact hrows row hold
          · rw [S.amount_add]
            exact hadd _ _ (hrows old (Tables.lookup_some hfound).1) hlast

end Metering
