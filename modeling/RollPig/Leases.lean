/-
A log of leases on one resource.

Every entry of the log says what an event did to the resource: it granted a lease under a
token, took the lease back, or did neither.  Who holds the resource is read off the log.
Where a grant never overtakes a lease that has not lapsed, two grants lie a lapse apart,
unless a lease was given back between them.  Nothing here knows what tokens and times are.
-/
import Mathlib.Data.List.Induction
import Mathlib.Order.Defs.PartialOrder

namespace Lease

variable {κ τ : Type*}

/-- What an event does to the resource. -/
inductive Move (κ τ : Type*)
  | grant (token : κ) (time : τ)
  | giveBack
  | idle
deriving DecidableEq

/-- Who holds the resource after an entry, and since when. -/
def Move.next (holder : Option (κ × τ)) : Move κ τ → Option (κ × τ)
  | .grant token time => some (token, time)
  | .giveBack => none
  | .idle => holder

/-- Who holds the resource after a log. -/
def holder (log : List (Move κ τ)) : Option (κ × τ) :=
  log.foldl Move.next none

variable {log before between after : List (Move κ τ)} {token token' : κ} {time time' : τ}

@[simp] theorem holder_nil : holder ([] : List (Move κ τ)) = none := rfl

@[simp] theorem holder_append (log : List (Move κ τ)) (move : Move κ τ) :
    holder (log ++ [move]) = move.next (holder log) := by
  simp [holder]

/-! ### The last grant -/

/-- **Who holds the resource was granted it last**, and nothing happened to it since. -/
theorem holder_some (h : holder log = some (token, time)) :
    ∃ before after, log = before ++ .grant token time :: after ∧ ∀ move ∈ after, move = .idle := by
  induction log using List.reverseRecOn with
  | nil => simp at h
  | append_singleton log move ih =>
      rw [holder_append] at h
      cases move with
      | grant token' time' =>
          obtain ⟨rfl, rfl⟩ := Prod.mk.inj (Option.some.inj h)
          exact ⟨log, [], rfl, by simp⟩
      | giveBack => simp [Move.next] at h
      | idle =>
          obtain ⟨before, after, rfl, hidle⟩ := ih h
          refine ⟨before, after ++ [.idle], by simp, ?_⟩
          intro move hmove
          rcases List.mem_append.mp hmove with hold | hlast
          · exact hidle move hold
          · exact List.mem_singleton.mp hlast

/-- Once granted and not given back, the resource is held under that grant or a later one. -/
theorem holder_kept (before : List (Move κ τ)) (token : κ) (time : τ) (hkept : .giveBack ∉ between) :
    ∃ token' since, holder (before ++ .grant token time :: between) = some (token', since) ∧
      (since = time ∨ .grant token' since ∈ between) := by
  induction between using List.reverseRecOn with
  | nil => exact ⟨token, time, holder_append before _, Or.inl rfl⟩
  | append_singleton between move ih =>
      have hinit : .giveBack ∉ between := fun hmem => hkept (List.mem_append_left _ hmem)
      obtain ⟨held, since, hheld, hsince⟩ := ih hinit
      rw [← List.cons_append, ← List.append_assoc, holder_append, hheld]
      cases move with
      | grant token' time' => exact ⟨token', time', rfl, Or.inr (by simp)⟩
      | giveBack => exact absurd (by simp) hkept
      | idle => exact ⟨held, since, rfl, hsince.imp id (List.mem_append_left _)⟩

/-- A token that was lost is not the holder's, unless it is granted again. -/
theorem holder_lost {move : Move κ τ} (before : List (Move κ τ)) (hmove : move ≠ .idle)
    (hnever : ∀ time, .grant token time ∉ move :: after) :
    holder (before ++ move :: after) ≠ some (token, time) := by
  induction after using List.reverseRecOn with
  | nil =>
      rw [holder_append]
      cases move with
      | grant token' time' =>
          intro h
          obtain ⟨rfl, rfl⟩ := Prod.mk.inj (Option.some.inj h)
          exact hnever time' (by simp)
      | giveBack => simp [Move.next]
      | idle => exact absurd rfl hmove
  | append_singleton after last ih =>
      have hinit : ∀ time, .grant token time ∉ move :: after := fun time hmem =>
        hnever time (by simpa using Or.imp id Or.inl (List.mem_cons.mp hmem))
      rw [← List.cons_append, ← List.append_assoc, holder_append]
      cases last with
      | grant token' time' =>
          intro h
          obtain ⟨rfl, rfl⟩ := Prod.mk.inj (Option.some.inj h)
          exact hnever time' (by simp)
      | giveBack => simp [Move.next]
      | idle => exact ih hinit

/-! ### Grants that wait -/

/-- No grant overtakes a lease that has not lapsed. -/
def Waits (lapsed : τ → τ → Prop) (log : List (Move κ τ)) : Prop :=
  ∀ before token now after, log = before ++ .grant token now :: after →
    ∀ held since, holder before = some (held, since) → lapsed since now

/-- **Two grants lie a lapse apart**, unless a lease was given back between them. -/
theorem Waits.apart [LE τ] {lapsed : τ → τ → Prop} (h : Waits lapsed log)
    (hanti : ∀ {early late now}, early ≤ late → lapsed late now → lapsed early now)
    (hlog : log = before ++ .grant token time :: between ++ .grant token' time' :: after)
    (hkept : .giveBack ∉ between)
    (hsorted : ∀ held since, .grant held since ∈ between → time ≤ since) : lapsed time time' := by
  obtain ⟨held, since, hheld, hsince⟩ := holder_kept before token time hkept
  have hlapsed := h _ _ _ _ hlog held since hheld
  rcases hsince with rfl | hlater
  · exact hlapsed
  · exact hanti (hsorted held since hlater) hlapsed

end Lease
