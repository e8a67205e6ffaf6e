/-
Proof outlines of programs that run beside each other.

Any number of instances run one program over a shared store, one atomic statement at a time
and in any order, while the store also changes from elsewhere.  An outline says what holds of
the store throughout, and what an instance may rely on at each place of the program.  It is
kept if every statement keeps what its own instance comes to rely on, and disturbs what no
other instance relies on.  Nothing here knows what the program does.
-/
import RollPig.Transition
import Mathlib.Logic.Function.Basic

namespace Outline

variable {ι π σ ε : Type*}

/-- Where every instance is, and the store they share. -/
structure Pool (ι π σ : Type*) where
  place : ι → π
  store : σ

/-- What holds of the store, and of each instance at its place. -/
structure Annotated (G : σ → Prop) (Q : ι → π → σ → Prop) (s : Pool ι π σ) : Prop where
  store : G s.store
  places : ∀ i, Q i (s.place i) s.store

/-- What only the holder of a lock may rely on, one instance relies on at most. -/
theorem Annotated.exclusive {G : σ → Prop} {Q : ι → π → σ → Prop} {s : Pool ι π σ}
    {critical : π → Prop} {holder : σ → Option ι}
    (hcritical : ∀ i p s, critical p → Q i p s → holder s = some i) (h : Annotated G Q s) {i j : ι}
    (hi : critical (s.place i)) (hj : critical (s.place j)) : i = j := by
  have hfirst := hcritical i _ _ hi (h.places i)
  have hsecond := hcritical j _ _ hj (h.places j)
  exact Option.some.inj (hfirst.symm.trans hsecond)

/-- An instance came to a place and left the store behind. -/
def Pool.move [DecidableEq ι] (s : Pool ι π σ) (i : ι) (place : π) (store : σ) : Pool ι π σ where
  place := Function.update s.place i place
  store := store

@[simp] theorem Pool.move_place [DecidableEq ι] (s : Pool ι π σ) (i : ι) (place : π) (store : σ) :
    (s.move i place store).place i = place := by
  simp [Pool.move]

theorem Pool.move_other [DecidableEq ι] (s : Pool ι π σ) {i j : ι} (hne : j ≠ i) (place : π)
    (store : σ) : (s.move i place store).place j = s.place j := by
  simp [Pool.move, hne]

@[simp] theorem Pool.move_store [DecidableEq ι] (s : Pool ι π σ) (i : ι) (place : π) (store : σ) :
    (s.move i place store).store = store := rfl

/-- A statement of an instance, or a change from elsewhere. -/
inductive Act (ι ε σ : Type*)
  | statement (i : ι) (how : ε)
  | elsewhere (store : σ)

/-- What a statement may do, and how the store may change. -/
structure Program (ι π σ ε : Type*) where
  statement : ι → ε → π → σ → π × σ
  elsewhere : σ → σ → Prop

variable [DecidableEq ι]

/-- The instances, run beside each other. -/
def Program.system (P : Program ι π σ ε) (init : Pool ι π σ → Prop) :
    Transition.System (Pool ι π σ) (Act ι ε σ) where
  init := init
  step s act s' :=
    match act with
    | .statement i how =>
        s' = s.move i (P.statement i how (s.place i) s.store).1
          (P.statement i how (s.place i) s.store).2
    | .elsewhere store => P.elsewhere s.store store ∧ s' = { s with store }

/-- The statements keep the annotations: their own, and those of the others. -/
structure Valid (P : Program ι π σ ε) (G : σ → Prop) (Q : ι → π → σ → Prop) : Prop where
  own : ∀ i how p s, G s → Q i p s →
    G (P.statement i how p s).2 ∧ Q i (P.statement i how p s).1 (P.statement i how p s).2
  others : ∀ i how p s, G s → Q i p s →
    ∀ j q, j ≠ i → Q j q s → Q j q (P.statement i how p s).2
  elsewhere : ∀ s s', G s → P.elsewhere s s' → G s' ∧ ∀ i p, Q i p s → Q i p s'

variable {P : Program ι π σ ε} {G : σ → Prop} {Q : ι → π → σ → Prop} {s s' : Pool ι π σ}
  {init : Pool ι π σ → Prop} {act : Act ι ε σ}

/-- One step keeps the annotations. -/
theorem Valid.step (h : Valid P G Q) (hs : Annotated G Q s)
    (hstep : (P.system init).step s act s') : Annotated G Q s' := by
  cases act with
  | statement i how =>
      obtain rfl := hstep
      obtain ⟨hstore, hplace⟩ := h.own i how (s.place i) s.store hs.store (hs.places i)
      refine ⟨hstore, fun j => ?_⟩
      by_cases hj : j = i
      · subst hj
        rw [Pool.move_place]
        exact hplace
      · rw [Pool.move_other s hj]
        exact h.others i how (s.place i) s.store hs.store (hs.places i) j (s.place j) hj
          (hs.places j)
  | elsewhere store =>
      obtain ⟨hchange, rfl⟩ := hstep
      obtain ⟨hstore, hplaces⟩ := h.elsewhere s.store store hs.store hchange
      exact ⟨hstore, fun i => hplaces i _ (hs.places i)⟩

/-- **The annotations hold in every interleaving.** -/
theorem Valid.reachable (h : Valid P G Q) (hinit : ∀ s, init s → Annotated G Q s)
    (hs : Transition.Reachable (P.system init) s) : Annotated G Q s :=
  hs.invariant hinit fun _ _ _ _ hnow hstep => h.step hnow hstep

/-- An instance that does nothing but one kind of statement, over and over. -/
def Program.alone (P : Program ι π σ ε) (i : ι) (how : ε) (s : Pool ι π σ) : Nat → Pool ι π σ
  | 0 => s
  | n + 1 => P.alone i how (s.move i (P.statement i how (s.place i) s.store).1
      (P.statement i how (s.place i) s.store).2) n

theorem Program.alone_run (i : ι) (how : ε) (n : Nat) : ∀ s : Pool ι π σ,
    Transition.Run (P.system init) s (List.replicate n (.statement i how)) (P.alone i how s n) := by
  induction n with
  | zero => intro s; exact Transition.Run.nil
  | succ n ih =>
      intro s
      rw [List.replicate_succ]
      exact Transition.Run.cons rfl (ih _)

/-- **An instance that is left alone arrives**, if every statement on its way brings it
nearer. -/
theorem Program.arrives (P : Program ι π σ ε) (i : ι) (how : ε) (going : Pool ι π σ → Prop)
    (arrived : π → Prop) (distance : π → Nat)
    (hstep : ∀ s : Pool ι π σ, going s → ¬ arrived (s.place i) →
      going (s.move i (P.statement i how (s.place i) s.store).1
        (P.statement i how (s.place i) s.store).2) ∧
      distance (P.statement i how (s.place i) s.store).1 < distance (s.place i)) :
    ∀ s : Pool ι π σ, going s → ∃ n ≤ distance (s.place i),
      going (P.alone i how s n) ∧ arrived ((P.alone i how s n).place i) := by
  have hmain : ∀ d, ∀ s : Pool ι π σ, distance (s.place i) ≤ d → going s →
      ∃ n ≤ distance (s.place i),
        going (P.alone i how s n) ∧ arrived ((P.alone i how s n).place i) := by
    intro d
    induction d with
    | zero =>
        intro s hd hgoing
        refine ⟨0, Nat.zero_le _, hgoing, ?_⟩
        by_contra hfar
        have hnear := (hstep s hgoing hfar).2
        omega
    | succ d ih =>
        intro s hd hgoing
        by_cases hhere : arrived (s.place i)
        · exact ⟨0, Nat.zero_le _, hgoing, hhere⟩
        · obtain ⟨hgoes, hnearer⟩ := hstep s hgoing hhere
          obtain ⟨n, hn, hthere⟩ := ih _ (by rw [Pool.move_place]; omega) hgoes
          rw [Pool.move_place] at hn
          exact ⟨n + 1, by omega, hthere⟩
  intro s hgoing
  exact hmain _ s (Nat.le_refl _) hgoing

end Outline
