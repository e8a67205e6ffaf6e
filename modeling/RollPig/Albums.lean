/-
An album of drawn cards.

Cards are drawn one after the other, and some come again.  What an album can tell of a draw
follows from the draws before it: whether the card was new, how many different cards there are
by then, and for how many draws in a row nothing new has come.  Nothing here knows what the
cards are or how the album is kept.
-/
import Mathlib.Data.Finset.Card
import RollPig.Streaks

namespace Album

variable {κ : Type*} {draws : List κ} {card : κ} {n m : Nat} {i : Int}

/-- The draw of this number, counted from 0, brought a card that was there before. -/
def KnownAt (draws : List κ) (i : Int) : Prop :=
  ∃ before card after, draws = before ++ card :: after ∧ (before.length : Int) = i ∧ card ∈ before

/-- For so many draws in a row, the last of them included, nothing new has come. -/
def IsStreak (draws : List κ) (n : Nat) : Prop :=
  Streaks.IsStreak (KnownAt draws) (draws.length - 1) n

/-- Later draws change nothing about the earlier ones. -/
theorem knownAt_concat (hi : i ≤ (draws.length : Int) - 1) :
    KnownAt (draws ++ [card]) i ↔ KnownAt draws i := by
  constructor
  · rintro ⟨before, other, after, hsplit, hlength, hother⟩
    rcases List.eq_nil_or_concat after with rfl | ⟨rest, last, rfl⟩
    · obtain ⟨rfl, -⟩ := List.append_inj' hsplit rfl
      omega
    · rw [List.concat_eq_append, ← List.cons_append, ← List.append_assoc] at hsplit
      exact ⟨before, other, rest, List.append_inj_left' hsplit rfl, hlength, hother⟩
  · rintro ⟨before, other, after, rfl, hlength, hother⟩
    exact ⟨before, other, after ++ [card], by simp, hlength, hother⟩

theorem knownAt_last : KnownAt (draws ++ [card]) draws.length ↔ card ∈ draws := by
  constructor
  · rintro ⟨before, other, after, hsplit, hlength, hother⟩
    obtain ⟨rfl, hlast⟩ := List.append_inj hsplit (by omega)
    obtain ⟨rfl, -⟩ := List.cons_eq_cons.mp hlast
    exact hother
  · intro hcard
    exact ⟨draws, card, [], rfl, rfl, hcard⟩

theorem IsStreak.empty : IsStreak ([] : List κ) 0 := by
  refine Streaks.IsStreak.none ?_
  rintro ⟨before, card, after, hsplit, -, -⟩
  simp at hsplit

theorem last_concat : ((draws ++ [card]).length : Int) - 1 = draws.length := by
  rw [List.length_append, List.length_singleton]
  omega

/-- A card that is known continues a streak. -/
theorem IsStreak.known (h : IsStreak draws n) (hcard : card ∈ draws) :
    IsStreak (draws ++ [card]) (n + 1) := by
  unfold IsStreak
  rw [last_concat]
  have hbefore : Streaks.IsStreak (KnownAt (draws ++ [card])) (draws.length - 1) n :=
    Streaks.IsStreak.congr (fun i hi => (knownAt_concat hi).symm) h
  exact hbefore.next (knownAt_last.mpr hcard)

/-- A new card ends it. -/
theorem IsStreak.new (hcard : card ∉ draws) : IsStreak (draws ++ [card]) 0 := by
  unfold IsStreak
  rw [last_concat]
  exact Streaks.IsStreak.none fun hknown => hcard (knownAt_last.mp hknown)

variable [DecidableEq κ]

/-- How many different cards have been drawn. -/
def size (draws : List κ) : Nat := draws.toFinset.card

end Album
