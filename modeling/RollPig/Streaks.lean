/-
Streaks: how many days in a row something held, the last of them included.

The longest block of days ending at a day is counted by whoever looks at the day before
only: a day on which it holds continues yesterday's streak, or begins one.
-/
import Mathlib.Order.Bounds.Basic
import Mathlib.Order.Interval.Set.Basic
import Mathlib.Data.Int.Order.Basic

namespace Streaks

variable {on on' : Int → Prop} {day : Int} {n m : Nat}

/-- The longest block of days ending at the day, on all of which it holds, has this length. -/
def IsStreak (on : Int → Prop) (day : Int) (n : Nat) : Prop :=
  IsGreatest {n : Nat | ∀ i : Nat, i < n → on (day - i)} n

theorem IsStreak.unique (h : IsStreak on day n) (h' : IsStreak on day m) : n = m :=
  IsGreatest.unique h h'

theorem IsStreak.none (h : ¬ on day) : IsStreak on day 0 := by
  refine ⟨fun i hi => absurd hi (Nat.not_lt_zero i), fun n hn => ?_⟩
  by_contra hpos
  have hfirst := hn 0 (by omega)
  rw [Int.natCast_zero, Int.sub_zero] at hfirst
  exact h hfirst

/-- One more day. -/
theorem IsStreak.next (h : IsStreak on (day - 1) n) (hday : on day) : IsStreak on day (n + 1) := by
  constructor
  · intro i hi
    cases i with
    | zero => rwa [Int.natCast_zero, Int.sub_zero]
    | succ i =>
        have hbefore := h.1 i (by omega)
        have hsame : day - 1 - (i : Int) = day - ((i + 1 : Nat) : Int) := by omega
        rwa [hsame] at hbefore
  · intro m hm
    cases m with
    | zero => omega
    | succ m =>
        have hle : m ≤ n := h.2 fun i hi => by
          have hlater := hm (i + 1) (by omega)
          have hsame : day - 1 - (i : Int) = day - ((i + 1 : Nat) : Int) := by omega
          rwa [hsame]
        omega

/-- Only the days up to the last one count. -/
theorem IsStreak.congr (hsame : ∀ d ≤ day, on d ↔ on' d) (h : IsStreak on day n) :
    IsStreak on' day n := by
  refine ⟨fun i hi => (hsame _ (by omega)).mp (h.1 i hi), fun m hm => h.2 fun i hi => ?_⟩
  exact (hsame _ (by omega)).mpr (hm i hi)

end Streaks
