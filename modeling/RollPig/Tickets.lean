/-
Tickets of numbered queues.

There is one queue for each key, and whoever has no ticket yet may draw the next number of a
queue.  Then the tickets of a queue are the numbers from the first one drawn up to the last, no
number is drawn twice, and a later ticket of a queue bears a greater number.  Nothing here knows
who draws, or what the tickets are for.
-/
import Mathlib.Logic.Function.Basic
import Mathlib.Logic.Relation
import Mathlib.Tactic.ByContra
import Mathlib.Tactic.SplitIfs

namespace Tickets

variable {ι κ : Type*}

/-- The last number of each queue, and the ticket that everybody holds. -/
@[ext] structure State (ι κ : Type*) where
  last : κ → Nat
  ticket : ι → Option (κ × Nat)

variable [DecidableEq ι] [DecidableEq κ]

/-- Draw the next number of a queue. -/
def State.draw (s : State ι κ) (i : ι) (k : κ) : State ι κ where
  last := Function.update s.last k (s.last k + 1)
  ticket := Function.update s.ticket i (some (k, s.last k + 1))

/-- Nothing happens, or somebody without a ticket draws one. -/
inductive Step (s : State ι κ) : State ι κ → Prop
  | stay : Step s s
  | draw (i : ι) (k : κ) (hnone : s.ticket i = none) : Step s (s.draw i k)

abbrev Steps : State ι κ → State ι κ → Prop := Relation.ReflTransGen Step

variable {s₀ s s' : State ι κ} {i j : ι} {k : κ} {n m : Nat}

/-- Who drew has the new ticket, and the others have theirs. -/
theorem State.draw_ticket (hnone : s.ticket i = none) {x : κ × Nat} :
    (s.draw i k).ticket j = some x ↔
      j = i ∧ x = (k, s.last k + 1) ∨ s.ticket j = some x := by
  by_cases hj : j = i
  · subst hj
    simp [State.draw, hnone, eq_comm]
  · simp [State.draw, hj]

@[simp] theorem State.draw_last (s : State ι κ) (i : ι) (k k' : κ) :
    (s.draw i k).last k' = if k' = k then s.last k + 1 else s.last k' := by
  by_cases hk : k' = k
  · subst hk
    simp [State.draw]
  · simp [State.draw, hk]

/-! ### A ticket is kept -/

theorem Step.keeps (h : Step s s') (hi : s.ticket i = some (k, n)) :
    s'.ticket i = some (k, n) := by
  cases h with
  | stay => exact hi
  | draw j k' hnone => exact (State.draw_ticket hnone).mpr (Or.inr hi)

theorem Steps.keeps (h : Steps s s') (hi : s.ticket i = some (k, n)) :
    s'.ticket i = some (k, n) := by
  induction h with
  | refl => exact hi
  | tail _ hlast ih => exact hlast.keeps ih

/-! ### The numbers that are drawn -/

/-- The tickets are the numbers drawn since the beginning, each of them once. -/
structure Issued (s₀ s : State ι κ) : Prop where
  once : ∀ i j x, s.ticket i = some x → s.ticket j = some x → i = j
  numbers : ∀ k n, (∃ i, s.ticket i = some (k, n)) ↔ s₀.last k < n ∧ n ≤ s.last k
  grows : ∀ k, s₀.last k ≤ s.last k

omit [DecidableEq ι] [DecidableEq κ] in
/-- Nobody has a ticket in the beginning. -/
theorem Issued.start (hnone : ∀ i, s₀.ticket i = none) : Issued s₀ s₀ := by
  refine ⟨?_, ?_, fun k => Nat.le_refl _⟩
  · intro i j x hi
    rw [hnone i] at hi
    cases hi
  · intro k n
    refine ⟨?_, fun hn => by omega⟩
    rintro ⟨i, hi⟩
    rw [hnone i] at hi
    cases hi

omit [DecidableEq ι] [DecidableEq κ] in
/-- The next number of a queue is nobody's yet. -/
theorem Issued.fresh (h : Issued s₀ s) (j : ι) (k : κ) : s.ticket j ≠ some (k, s.last k + 1) := by
  intro hj
  have hold := (h.numbers k _).mp ⟨j, hj⟩
  omega

theorem Issued.draw_once (h : Issued s₀ s) (hnone : s.ticket i = none) (a b : ι) (x : κ × Nat)
    (ha : (s.draw i k).ticket a = some x) (hb : (s.draw i k).ticket b = some x) : a = b := by
  rcases (State.draw_ticket hnone).mp ha with ⟨rfl, rfl⟩ | hold
  · rcases (State.draw_ticket hnone).mp hb with ⟨rfl, -⟩ | hold
    · rfl
    · exact absurd hold (h.fresh b k)
  · rcases (State.draw_ticket hnone).mp hb with ⟨rfl, rfl⟩ | hold'
    · exact absurd hold (h.fresh a k)
    · exact h.once a b x hold hold'

theorem Issued.draw_numbers (h : Issued s₀ s) (hnone : s.ticket i = none) (k' : κ) (n : Nat) :
    (∃ j, (s.draw i k).ticket j = some (k', n)) ↔
      s₀.last k' < n ∧ n ≤ (s.draw i k).last k' := by
  rw [State.draw_last]
  constructor
  · rintro ⟨j, hj⟩
    rcases (State.draw_ticket hnone).mp hj with ⟨-, hnew⟩ | hold
    · obtain ⟨rfl, rfl⟩ := Prod.mk.inj hnew
      have hgrows := h.grows k'
      rw [if_pos rfl]
      omega
    · have hnumber := (h.numbers k' n).mp ⟨j, hold⟩
      split_ifs with hk
      · subst hk
        omega
      · exact hnumber
  · intro hn
    by_cases hnew : k' = k ∧ n = s.last k + 1
    · obtain ⟨rfl, rfl⟩ := hnew
      exact ⟨i, (State.draw_ticket hnone).mpr (Or.inl ⟨rfl, rfl⟩)⟩
    · have hold : n ≤ s.last k' := by
        split_ifs at hn with hk
        · subst hk
          have hne : n ≠ s.last k' + 1 := fun heq => hnew ⟨rfl, heq⟩
          omega
        · exact hn.2
      obtain ⟨j, hj⟩ := (h.numbers k' n).mpr ⟨hn.1, hold⟩
      exact ⟨j, (State.draw_ticket hnone).mpr (Or.inr hj)⟩

theorem Issued.draw (h : Issued s₀ s) (hnone : s.ticket i = none) (k : κ) :
    Issued s₀ (s.draw i k) := by
  refine ⟨h.draw_once hnone, h.draw_numbers hnone, fun k' => ?_⟩
  have hgrows := h.grows k'
  rw [State.draw_last]
  split_ifs with hk
  · subst hk
    omega
  · exact hgrows

theorem Step.issued (h : Issued s₀ s) (hstep : Step s s') : Issued s₀ s' := by
  cases hstep with
  | stay => exact h
  | draw i k hnone => exact h.draw hnone k

/-- **The tickets are the numbers from the first one drawn up to the last.** -/
theorem Steps.issued (hnone : ∀ i, s₀.ticket i = none) (h : Steps s₀ s) : Issued s₀ s := by
  induction h with
  | refl => exact Issued.start hnone
  | tail _ hlast ih => exact hlast.issued ih

/-- **Who draws later has the greater number.** -/
theorem Steps.later (hnone : ∀ i, s₀.ticket i = none) (hbefore : Steps s₀ s)
    (hafter : Steps s s') (hi : s.ticket i = some (k, n)) (hj : s.ticket j = none)
    (hj' : s'.ticket j = some (k, m)) : n < m := by
  have hnow := Steps.issued hnone hbefore
  have hthen := Steps.issued hnone (hbefore.trans hafter)
  have hn := (hnow.numbers k n).mp ⟨i, hi⟩
  have hm := (hthen.numbers k m).mp ⟨j, hj'⟩
  by_contra hle
  -- otherwise somebody had the number already, and that was not `j`
  obtain ⟨a, ha⟩ := (hnow.numbers k m).mpr (by omega)
  obtain rfl : a = j := hthen.once a j (k, m) (hafter.keeps ha) hj'
  rw [hj] at ha
  cases ha

end Tickets
