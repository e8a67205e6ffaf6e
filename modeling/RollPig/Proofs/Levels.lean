/-
Levels by source, and what the rewrites of a row make of them.

The level in force is the greatest of four (`Levels.highest_eq`), so every question about
it is one about single sources.  A source stands in a row with the level it was granted and
the count its successes are counted from (`standing`); for each rewrite of a row there is
one lemma that says which source stands differently after it.
-/
import RollPig.Proofs.Protections

namespace RollPig

variable {row : GroupProtection} {source : Source} {levels : Levels}

/-! ### The highest level -/

theorem foldl_max_filterMap (levels : Levels) (sources : List Source) (start : Nat) :
    (sources.filterMap levels).foldl max start =
      sources.foldl (fun highest source => max highest ((levels source).getD 0)) start := by
  induction sources generalizing start with
  | nil => rfl
  | cons source rest ih =>
      rw [List.foldl_cons, ← ih]
      cases hlevel : levels source with
      | none => rw [List.filterMap_cons_none hlevel, Option.getD_none, Nat.max_zero]
      | some level => rw [List.filterMap_cons_some hlevel, List.foldl_cons, Option.getD_some]

theorem Levels.highest_eq (levels : Levels) :
    levels.highest =
      max (max ((levels .daily).getD 0) ((levels .manual).getD 0))
        (max ((levels .pig).getD 0) ((levels .legacy).getD 0)) := by
  have hfold := foldl_max_filterMap levels sourceOrder 0
  simp only [sourceOrder, List.foldl_cons, List.foldl_nil] at hfold
  unfold Levels.highest sourceOrder
  omega

theorem Levels.le_highest (levels : Levels) (source : Source) :
    (levels source).getD 0 ≤ levels.highest := by
  rw [Levels.highest_eq]
  cases source <;> omega

theorem Levels.highest_le {bound : Nat} (h : ∀ source, (levels source).getD 0 ≤ bound) :
    levels.highest ≤ bound := by
  rw [Levels.highest_eq]
  have := h .daily
  have := h .manual
  have := h .pig
  have := h .legacy
  omega

/-- Some source has the highest level. -/
theorem Levels.highest_attained (levels : Levels) :
    ∃ source, (levels source).getD 0 = levels.highest := by
  by_contra hnone
  have hne : ∀ source, (levels source).getD 0 ≠ levels.highest := fun source h =>
    hnone ⟨source, h⟩
  have hdaily := hne .daily
  have hmanual := hne .manual
  have hpig := hne .pig
  have hlegacy := hne .legacy
  rw [Levels.highest_eq] at hdaily hmanual hpig hlegacy
  omega

/-! ### Single sources -/

/-- The level a source was granted, and the success count it is counted from. -/
def standing (row : GroupProtection) (source : Source) : Option (Nat × Nat) :=
  (protectionSources row source).map fun level =>
    (level, (protectionBaselines row source).getD 0)

theorem standing_isSome (row : GroupProtection) (source : Source) :
    (standing row source).isSome = (protectionSources row source).isSome := by
  unfold standing
  cases protectionSources row source <;> rfl

/-- What a source gives, by its standing. -/
theorem protectionLevels_eq (row : GroupProtection) (source : Source) :
    protectionLevels row source =
      (standing row source).map fun entry =>
        min 5 (entry.1 + (row.roastSuccessCount - entry.2)) := by
  unfold protectionLevels standing
  rw [Option.map_map]
  rfl

theorem protectionLevels_congr {row' : GroupProtection}
    (hcount : row'.roastSuccessCount = row.roastSuccessCount)
    (h : standing row' source = standing row source) :
    protectionLevels row' source = protectionLevels row source := by
  rw [protectionLevels_eq, protectionLevels_eq, hcount, h]

theorem protectionLevels_le (row : GroupProtection) (source : Source) :
    (protectionLevels row source).getD 0 ≤ 5 := by
  unfold protectionLevels
  cases protectionSources row source with
  | none => simp
  | some level => exact Nat.min_le_left _ _

theorem protectionLevel_le (row : GroupProtection) : protectionLevel row ≤ 5 :=
  Levels.highest_le (protectionLevels_le row)

/-! ### Inheriting -/

theorem inheritGlobalProtection_standing (row : GroupProtection) (groupId : String)
    (source : Source) :
    standing (inheritGlobalProtection row groupId) source =
      if source = .legacy then some (protectionLevel row, 0) else none := by
  unfold standing protectionSources protectionBaselines inheritGlobalProtection
  dsimp only
  split_ifs <;> rfl

theorem inheritGlobalProtection_levels (row : GroupProtection) (groupId : String)
    (source : Source) :
    protectionLevels (inheritGlobalProtection row groupId) source =
      if source = .legacy then some (protectionLevel row) else none := by
  have hcap := protectionLevel_le row
  rw [protectionLevels_eq, inheritGlobalProtection_standing]
  split_ifs
  · simpa [inheritGlobalProtection] using hcap
  · rfl

/-- The copy protects as the global row does. -/
@[simp] theorem inheritGlobalProtection_level (row : GroupProtection) (groupId : String) :
    protectionLevel (inheritGlobalProtection row groupId) = protectionLevel row := by
  show Levels.highest (protectionLevels (inheritGlobalProtection row groupId)) = _
  rw [Levels.highest_eq]
  simp [inheritGlobalProtection_levels]

end RollPig
