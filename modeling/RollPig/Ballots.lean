/-
Numbered ballots, one at a time.

A body holds ballots one after the other.  A ballot is called with the number of those that
passed before it, and the numbers of the passed ones are then 0, 1, 2, … in the order they
passed, although ballots are dropped in between: while one stands, no other can pass.
Nothing here knows what is voted on.
-/
import Mathlib.Data.List.Range

namespace Ballots

variable {ι : Type*}

/-- A ballot with the number of those that passed before it was called. -/
structure Ballot (ι : Type*) where
  name : ι
  passedBefore : Nat
deriving DecidableEq

/-- The ballot that stands, and those that passed, in order. -/
structure State (ι : Type*) where
  standing : Option (Ballot ι) := none
  passed : List (Ballot ι) := []

inductive Step : State ι → State ι → Prop
  | stay {s} : Step s s
  | call {passed} (name : ι) : Step ⟨none, passed⟩ ⟨some ⟨name, passed.length⟩, passed⟩
  | drop {standing passed} : Step ⟨standing, passed⟩ ⟨none, passed⟩
  | pass {b passed} : Step ⟨some b, passed⟩ ⟨none, passed ++ [b]⟩

/-- The ballots are counted right. -/
structure Counted (s : State ι) : Prop where
  standing : ∀ b, s.standing = some b → b.passedBefore = s.passed.length
  passed : s.passed.map (·.passedBefore) = List.range s.passed.length

variable {s s' : State ι}

theorem Counted.empty : Counted ({} : State ι) :=
  ⟨by simp, rfl⟩

/-- **Every step keeps the count.** -/
theorem Counted.step (h : Counted s) (hstep : Step s s') : Counted s' := by
  cases hstep with
  | stay => exact h
  | call name =>
      refine ⟨fun b hb => ?_, h.passed⟩
      obtain rfl := Option.some.inj hb
      rfl
  | drop => exact ⟨by simp, h.passed⟩
  | @pass b passed =>
      refine ⟨by simp, ?_⟩
      have hnumber : b.passedBefore = passed.length := h.standing b rfl
      have hbefore : passed.map (·.passedBefore) = List.range passed.length := h.passed
      rw [List.map_append, hbefore, List.length_append, List.length_singleton, List.range_succ,
        List.map_singleton, hnumber]

end Ballots
