/-
One count for many holders.

Everybody who holds a level shares a single count of raises, and each holder remembers the
count at which its level was granted.  This keeps a ledger in which every holder has an
entry of its own: what a holder was raised by is the count since then.  Each operation on
the ledger is one on the shared count, as long as nobody remembers a count that has not
been reached yet (`Shared.Counted`).
-/
import Mathlib.Data.Option.Basic
import Mathlib.Order.Lattice

namespace Counters

/-- What a holder was granted, and how often it was raised since. -/
structure Entry where
  granted : Nat
  raised : Nat
deriving DecidableEq, Repr

/-- The level a holder has, up to a highest one. -/
def Entry.level (cap : Nat) (entry : Entry) : Nat := min cap (entry.granted + entry.raised)

/-- An entry for each holder. -/
abbrev Ledger (σ : Type) := σ → Option Entry

/-- The count, and for each holder the level that was granted and the count at that time. -/
structure Shared (σ : Type) where
  count : Nat
  standing : σ → Option (Nat × Nat)

variable {σ : Type}

namespace Ledger

def empty : Ledger σ := fun _ => none

/-- Everybody is raised. -/
def raise (ledger : Ledger σ) : Ledger σ := fun s =>
  (ledger s).map fun entry => { entry with raised := entry.raised + 1 }

/-- This is the highest level somebody has, 0 if nobody has one. -/
def IsHighest (ledger : Ledger σ) (cap level : Nat) : Prop :=
  (∀ s entry, ledger s = some entry → entry.level cap ≤ level) ∧
    ((∃ s entry, ledger s = some entry ∧ entry.level cap = level) ∨ level = 0)

variable [DecidableEq σ]

/-- A holder is granted a level, and starts anew. -/
def grant (ledger : Ledger σ) (holder : σ) (level : Nat) : Ledger σ := fun s =>
  if s = holder then some { granted := level, raised := 0 } else ledger s

def drop (ledger : Ledger σ) (holder : σ) : Ledger σ := fun s =>
  if s = holder then none else ledger s

/-- A holder hands its entry to another one. -/
def move (ledger : Ledger σ) (holder heir : σ) : Ledger σ := fun s =>
  if s = heir then ledger holder else if s = holder then none else ledger s

end Ledger

namespace Shared

def empty : Shared σ := { count := 0, standing := fun _ => none }

def raise (shared : Shared σ) : Shared σ := { shared with count := shared.count + 1 }

/-- The ledger the shared count stands for. -/
def ledger (shared : Shared σ) : Ledger σ := fun s =>
  (shared.standing s).map fun entry => { granted := entry.1, raised := shared.count - entry.2 }

/-- Nobody began at a count that has not been reached. -/
def Counted (shared : Shared σ) : Prop :=
  ∀ s entry, shared.standing s = some entry → entry.2 ≤ shared.count

variable {shared : Shared σ} {holder heir : σ} {level : Nat}

@[simp] theorem ledger_empty : (empty : Shared σ).ledger = Ledger.empty := rfl

theorem ledger_raise (h : shared.Counted) : shared.raise.ledger = shared.ledger.raise := by
  funext s
  show (shared.standing s).map _ = ((shared.standing s).map _).map _
  rw [Option.map_map]
  cases hstanding : shared.standing s with
  | none => rfl
  | some entry =>
      have hle := h s entry hstanding
      have hcount : shared.count + 1 - entry.2 = shared.count - entry.2 + 1 := by omega
      exact congrArg (fun raised => some { granted := entry.1, raised : Entry }) hcount

theorem Counted.empty : (Shared.empty : Shared σ).Counted := fun s entry h => by
  simp [Shared.empty] at h

theorem Counted.raise (h : shared.Counted) : shared.raise.Counted :=
  fun s entry hentry => Nat.le_succ_of_le (h s entry hentry)

variable [DecidableEq σ]

def grant (shared : Shared σ) (holder : σ) (level : Nat) : Shared σ :=
  { shared with standing := fun s =>
      if s = holder then some (level, shared.count) else shared.standing s }

def drop (shared : Shared σ) (holder : σ) : Shared σ :=
  { shared with standing := fun s => if s = holder then none else shared.standing s }

def move (shared : Shared σ) (holder heir : σ) : Shared σ :=
  { shared with standing := fun s =>
      if s = heir then shared.standing holder
      else if s = holder then none else shared.standing s }

@[simp] theorem ledger_grant :
    (shared.grant holder level).ledger = shared.ledger.grant holder level := by
  funext s
  unfold ledger grant Ledger.grant
  dsimp only
  split_ifs with hs
  · simp
  · rfl

@[simp] theorem ledger_drop : (shared.drop holder).ledger = shared.ledger.drop holder := by
  funext s
  unfold ledger drop Ledger.drop
  dsimp only
  split_ifs <;> rfl

@[simp] theorem ledger_move :
    (shared.move holder heir).ledger = shared.ledger.move holder heir := by
  funext s
  unfold ledger move Ledger.move
  dsimp only
  split_ifs <;> rfl

theorem Counted.grant (h : shared.Counted) : (shared.grant holder level).Counted := by
  intro s entry hentry
  simp only [Shared.grant] at hentry ⊢
  split_ifs at hentry
  · obtain rfl := Option.some.inj hentry
    exact le_refl _
  · exact h s entry hentry

theorem Counted.drop (h : shared.Counted) : (shared.drop holder).Counted := by
  intro s entry hentry
  simp only [Shared.drop] at hentry ⊢
  split_ifs at hentry
  exact h s entry hentry

theorem Counted.move (h : shared.Counted) : (shared.move holder heir).Counted := by
  intro s entry hentry
  simp only [Shared.move] at hentry ⊢
  split_ifs at hentry
  · exact h holder entry hentry
  · exact h s entry hentry

end Shared

end Counters
