/-
Numbers of a fixed width, compared as texts.

A text is a list of characters and two texts are compared character by character.  A decimal
padded with zeros to a fixed width keeps the order of the numbers, and texts that begin with
fields of equal length are compared field by field.
-/
import Mathlib.Algebra.Group.Nat.Defs
import Mathlib.Data.Char
import Mathlib.Data.List.Lex

namespace Decimals

/-! ### Texts of equal length -/

/-- Behind fields of equal length the rest decides only if the fields agree. -/
theorem append_lt_append_iff {u v : List Char} (h : u.length = v.length) (x y : List Char) :
    u ++ x < v ++ y ↔ u < v ∨ u = v ∧ x < y := by
  induction u generalizing v with
  | nil =>
      obtain rfl := List.length_eq_zero_iff.mp h.symm
      simp
  | cons c u ih =>
      cases v with
      | nil => simp at h
      | cons d v =>
          have hrest := ih (v := v) (by simpa using h)
          rw [List.cons_append, List.cons_append, List.cons_lt_cons_iff, List.cons_lt_cons_iff,
            hrest]
          constructor
          · rintro (hlt | ⟨rfl, hlt | ⟨rfl, hlt⟩⟩)
            · exact Or.inl (Or.inl hlt)
            · exact Or.inl (Or.inr ⟨rfl, hlt⟩)
            · exact Or.inr ⟨rfl, hlt⟩
          · rintro ((hlt | ⟨rfl, hlt⟩) | ⟨hsame, hlt⟩)
            · exact Or.inl hlt
            · exact Or.inr ⟨rfl, Or.inl hlt⟩
            · obtain ⟨rfl, rfl⟩ := List.cons.inj hsame
              exact Or.inr ⟨rfl, Or.inr ⟨rfl, hlt⟩⟩

/-! ### Padded decimals -/

/-- The last digits of a number, as many as the width says. -/
def pad : Nat → Nat → List Char
  | 0, _ => []
  | width + 1, n => pad width (n / 10) ++ [(n % 10).digitChar]

@[simp] theorem length_pad (width n : Nat) : (pad width n).length = width := by
  induction width generalizing n with
  | zero => rfl
  | succ width ih =>
      unfold pad
      rw [List.length_append, ih]
      rfl

theorem digitChar_lt_iff {a b : Nat} (ha : a < 10) (hb : b < 10) :
    a.digitChar < b.digitChar ↔ a < b := by
  have hall : ∀ a < 10, ∀ b < 10, (Nat.digitChar a < Nat.digitChar b ↔ a < b) := by decide
  exact hall a ha b hb

theorem digitChar_inj {a b : Nat} (ha : a < 10) (hb : b < 10)
    (h : a.digitChar = b.digitChar) : a = b := by
  have hall : ∀ a < 10, ∀ b < 10, Nat.digitChar a = Nat.digitChar b → a = b := by decide
  exact hall a ha b hb h

theorem pad_inj {width a b : Nat} (ha : a < 10 ^ width) (hb : b < 10 ^ width)
    (h : pad width a = pad width b) : a = b := by
  induction width generalizing a b with
  | zero =>
      rw [Nat.pow_zero] at ha hb
      omega
  | succ width ih =>
      rw [Nat.pow_succ] at ha hb
      obtain ⟨hinit, hlast⟩ := List.append_inj' h rfl
      have hrest := ih (by omega) (by omega) hinit
      have hdigit := digitChar_inj (by omega) (by omega) (List.singleton_inj.mp hlast)
      omega

/-- **Padded decimals are ordered as the numbers are.** -/
theorem pad_lt_iff {width a b : Nat} (ha : a < 10 ^ width) (hb : b < 10 ^ width) :
    pad width a < pad width b ↔ a < b := by
  induction width generalizing a b with
  | zero =>
      rw [Nat.pow_zero] at ha hb
      simp only [pad, List.not_lt_nil, false_iff]
      omega
  | succ width ih =>
      rw [Nat.pow_succ] at ha hb
      have ha' : a / 10 < 10 ^ width := by omega
      have hb' : b / 10 < 10 ^ width := by omega
      have hinit : pad width (a / 10) = pad width (b / 10) ↔ a / 10 = b / 10 :=
        ⟨pad_inj ha' hb', fun h => by rw [h]⟩
      have hlast : [(a % 10).digitChar] < [(b % 10).digitChar] ↔ a % 10 < b % 10 := by
        rw [List.cons_lt_cons_iff, digitChar_lt_iff (by omega) (by omega)]
        simp
      unfold pad
      rw [append_lt_append_iff (by simp), ih ha' hb', hinit, hlast]
      omega

/-- A field and what follows it. -/
theorem pad_append_lt_iff {width a b : Nat} (ha : a < 10 ^ width) (hb : b < 10 ^ width)
    (x y : List Char) : pad width a ++ x < pad width b ++ y ↔ a < b ∨ a = b ∧ x < y := by
  rw [append_lt_append_iff (by simp), pad_lt_iff ha hb]
  constructor
  · rintro (h | ⟨h, hrest⟩)
    · exact Or.inl h
    · exact Or.inr ⟨pad_inj ha hb h, hrest⟩
  · rintro (h | ⟨rfl, hrest⟩)
    · exact Or.inl h
    · exact Or.inr ⟨rfl, hrest⟩

/-- A field with a separator behind it. -/
theorem pad_cons_lt_iff {width a b : Nat} (ha : a < 10 ^ width) (hb : b < 10 ^ width) (c : Char)
    (x y : List Char) : pad width a ++ c :: x < pad width b ++ c :: y ↔ a < b ∨ a = b ∧ x < y := by
  have hrest : c :: x < c :: y ↔ x < y := by
    rw [List.cons_lt_cons_iff]
    simp
  rw [pad_append_lt_iff ha hb, hrest]

theorem pad_zero (width : Nat) : pad width 0 = List.replicate width '0' := by
  induction width with
  | zero => rfl
  | succ width ih =>
      unfold pad
      rw [Nat.zero_div, ih, List.replicate_succ']
      rfl

/-- The digits of a number that fits the width, behind zeros. -/
theorem replicate_append_toDigits {width n : Nat} (hwidth : 0 < width) (h : n < 10 ^ width) :
    List.replicate (width - (Nat.toDigits 10 n).length) '0' ++ Nat.toDigits 10 n = pad width n := by
  induction width generalizing n with
  | zero => omega
  | succ width ih =>
      by_cases hdigit : n < 10
      · have hzero : n / 10 = 0 := by omega
        have hmod : n % 10 = n := Nat.mod_eq_of_lt hdigit
        rw [Nat.toDigits_of_lt_base hdigit, pad, hzero, hmod, pad_zero]
        rfl
      · have hpow : n / 10 < 10 ^ width := by
          rw [Nat.pow_succ] at h
          omega
        have hpositive : 0 < width := by
          by_contra hnot
          obtain rfl : width = 0 := by omega
          rw [Nat.pow_zero] at hpow
          omega
        have hrest := ih hpositive hpow
        rw [Nat.toDigits_of_base_le (by decide) (by omega), pad, ← hrest, List.length_append,
          List.append_assoc]
        congr 2
        show width + 1 - ((Nat.toDigits 10 (n / 10)).length + 1) = _
        omega

end Decimals
