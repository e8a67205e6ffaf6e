/-
Labelled transition systems and their runs.

Nothing here knows what the states are.  A run is a finite list of labels leading
from one state to another, grown at its end, so that an invariant is proved by
looking at the last step only.  What the rest of the development uses is the
invariant rule, the same rule with the history of labels in view, and the rule
for properties that hold from some point of a run on.  A machine that answers its inputs
is looked at through its answers only.
-/
import Mathlib.Data.Set.Basic

namespace Transition

/-- A set of starting states and a labelled step relation. -/
structure System (σ ε : Type*) where
  init : σ → Prop
  step : σ → ε → σ → Prop

variable {σ ε : Type*} {T : System σ ε}

/-- `Run T s es t`: the labels `es`, in order, lead from `s` to `t`. -/
inductive Run (T : System σ ε) (s : σ) : List ε → σ → Prop
  | nil : Run T s [] s
  | snoc {t u : σ} {es : List ε} {e : ε} (hrun : Run T s es t) (hstep : T.step t e u) :
      Run T s (es ++ [e]) u

/-- Reached from a starting state by some run. -/
def Reachable (T : System σ ε) (s : σ) : Prop :=
  ∃ s₀ es, T.init s₀ ∧ Run T s₀ es s

namespace Run

theorem single {s t : σ} {e : ε} (h : T.step s e t) : Run T s [e] t :=
  Run.snoc Run.nil h

theorem append {s t u : σ} {es fs : List ε} (h₁ : Run T s es t) (h₂ : Run T t fs u) :
    Run T s (es ++ fs) u := by
  induction h₂ with
  | nil => rw [List.append_nil]; exact h₁
  | snoc _ hstep ih =>
      rw [← List.append_assoc]
      exact Run.snoc ih hstep

theorem cons {s t u : σ} {e : ε} {es : List ε} (hstep : T.step s e t) (h : Run T t es u) :
    Run T s (e :: es) u :=
  (single hstep).append h

/-- A run can be cut wherever its labels can. -/
theorem split {s u : σ} {gs : List ε} (h : Run T s gs u) :
    ∀ es fs, gs = es ++ fs → ∃ t, Run T s es t ∧ Run T t fs u := by
  induction h with
  | nil =>
      intro es fs he
      obtain ⟨rfl, rfl⟩ := List.append_eq_nil_iff.mp he.symm
      exact ⟨s, Run.nil, Run.nil⟩
  | @snoc t u hs e hrun hstep ih =>
      intro es fs he
      rcases List.eq_nil_or_concat fs with rfl | ⟨fs', f, rfl⟩
      · refine ⟨u, ?_, Run.nil⟩
        rw [← List.append_nil es, ← he]
        exact Run.snoc hrun hstep
      · rw [List.concat_eq_append, ← List.append_assoc] at he
        obtain ⟨hinit, hlast⟩ := List.append_inj' he rfl
        obtain ⟨m, h₁, h₂⟩ := ih es fs' hinit
        refine ⟨m, h₁, ?_⟩
        rw [List.concat_eq_append, ← List.singleton_inj.mp hlast]
        exact Run.snoc h₂ hstep

/-- A run that is not empty starts with a step. -/
theorem of_cons {s u : σ} {e : ε} {es : List ε} (h : Run T s (e :: es) u) :
    ∃ t, T.step s e t ∧ Run T t es u := by
  obtain ⟨t, h₁, h₂⟩ := h.split [e] es rfl
  generalize hg : [e] = gs at h₁
  cases h₁ with
  | nil => simp at hg
  | @snoc t' _ es' e' hrun hstep =>
      have hnil : es' = [] := by
        have := congrArg List.length hg
        simpa using this
      subst hnil
      obtain rfl : e = e' := by simpa using hg
      generalize hn : ([] : List ε) = ns at hrun
      cases hrun with
      | nil => exact ⟨t, hstep, h₂⟩
      | snoc => simp at hn

/-- **The invariant rule.** -/
theorem invariant {I : σ → Prop} (hkeep : ∀ s e t, I s → T.step s e t → I t)
    {s t : σ} {es : List ε} (h : Run T s es t) (h0 : I s) : I t := by
  induction h with
  | nil => exact h0
  | snoc _ hstep ih => exact hkeep _ _ _ ih hstep

/-- **The invariant rule with the history in view**: the property may speak about
the labels so far. -/
theorem history {I : List ε → σ → Prop} {s : σ} (h0 : I [] s)
    (hkeep : ∀ es t e u, Run T s es t → I es t → T.step t e u → I (es ++ [e]) u)
    {t : σ} {es : List ε} (h : Run T s es t) : I es t := by
  induction h with
  | nil => exact h0
  | snoc hrun hstep ih => exact hkeep _ _ _ _ hrun ih hstep

/-- Every label of a run is the label of a step between two states of it. -/
theorem step_of_mem {s u : σ} {es : List ε} (h : Run T s es u) {e : ε} (he : e ∈ es) :
    ∃ fs gs t t', es = fs ++ e :: gs ∧ Run T s fs t ∧ T.step t e t' ∧ Run T t' gs u := by
  obtain ⟨fs, gs, rfl⟩ := List.append_of_mem he
  obtain ⟨t, h₁, h₂⟩ := h.split fs (e :: gs) rfl
  obtain ⟨t', hstep, h₃⟩ := of_cons h₂
  exact ⟨fs, gs, t, t', rfl, h₁, hstep, h₃⟩

end Run

namespace Reachable

theorem of_init {s : σ} (h : T.init s) : Reachable T s := ⟨s, [], h, Run.nil⟩

theorem run {s t : σ} {es : List ε} (h : Reachable T s) (hrun : Run T s es t) :
    Reachable T t := by
  obtain ⟨s₀, fs, hinit, h₀⟩ := h
  exact ⟨s₀, fs ++ es, hinit, h₀.append hrun⟩

theorem step {s t : σ} {e : ε} (h : Reachable T s) (hstep : T.step s e t) : Reachable T t :=
  h.run (Run.single hstep)

/-- **An inductive invariant holds in every reachable state.**  Invariants already
known may be used through the reachability of the state before the step. -/
theorem invariant {I : σ → Prop} (h0 : ∀ s, T.init s → I s)
    (hkeep : ∀ s e t, Reachable T s → I s → T.step s e t → I t) {s : σ}
    (h : Reachable T s) : I s := by
  obtain ⟨s₀, es, hinit, hrun⟩ := h
  have key : Reachable T s ∧ I s := by
    induction hrun with
    | nil => exact ⟨of_init hinit, h0 _ hinit⟩
    | snoc _ hstep ih =>
        obtain ⟨hr, hI⟩ := ih
        exact ⟨hr.step hstep, hkeep _ _ _ hr hI hstep⟩
  exact key.2

end Reachable

/-! ### Machines that answer -/

section

variable {ι ο : Type*}

/-- The answers of a machine to its inputs, one after the other. -/
def answers (step : ι → σ → ο × σ) : List ι → σ → List ο
  | [], _ => []
  | i :: is, s => (step i s).1 :: answers step is (step i s).2

/-- Related states are answered alike, and stay related. -/
def Keeps (R : σ → σ → Prop) (f : σ → ο × σ) : Prop :=
  ∀ s t, R s t → (f s).1 = (f t).1 ∧ R (f s).2 (f t).2

namespace Keeps

variable {υ : Type*} {R : σ → σ → Prop} {f : σ → ο × σ} {g : ο → σ → υ × σ}

/-- What is read alike may be answered. -/
theorem ret (look : σ → ο) (hlook : ∀ s t, R s t → look s = look t) :
    Keeps R fun s => (look s, s) :=
  fun s t h => ⟨hlook s t h, h⟩

/-- One step after the other, which may look at the answer of the first. -/
theorem bind (hf : Keeps R f) (hg : ∀ answer, Keeps R (g answer)) :
    Keeps R fun s => g (f s).1 (f s).2 := by
  intro s t h
  obtain ⟨hanswer, hnext⟩ := hf s t h
  have hlast := hg (f s).1 _ _ hnext
  show (g (f s).1 (f s).2).1 = (g (f t).1 (f t).2).1 ∧ R (g (f s).1 (f s).2).2 (g (f t).1 (f t).2).2
  rw [← hanswer]
  exact hlast

/-- A step whose answer is put in other words. -/
theorem map (hf : Keeps R f) (word : ο → υ) : Keeps R fun s => (word (f s).1, (f s).2) :=
  hf.bind fun answer => ret (fun _ => word answer) fun _ _ _ => rfl

end Keeps

/-- **States that agree on every single answer, and go on doing so, cannot be told
apart.**  Only the inputs that are given count. -/
theorem answers_eq_on {step : ι → σ → ο × σ} {R : σ → σ → Prop} (is : List ι)
    (hstep : ∀ i ∈ is, Keeps R (step i)) :
    ∀ {s t : σ}, R s t → answers step is s = answers step is t := by
  induction is with
  | nil => intro s t _; rfl
  | cons i is ih =>
      intro s t h
      obtain ⟨hanswer, hnext⟩ := hstep i List.mem_cons_self s t h
      have hrest := ih (fun j hj => hstep j (List.mem_cons_of_mem i hj)) hnext
      show (step i s).1 :: _ = (step i t).1 :: _
      rw [hanswer, hrest]

theorem answers_eq {step : ι → σ → ο × σ} {R : σ → σ → Prop} (hstep : ∀ i, Keeps R (step i))
    (is : List ι) {s t : σ} (h : R s t) : answers step is s = answers step is t :=
  answers_eq_on is (fun i _ => hstep i) h

end

/-! ### Restricting the labels -/

/-- The same system, where only some labels may occur. -/
def System.restrict (T : System σ ε) (allowed : ε → Prop) : System σ ε where
  init := T.init
  step s e t := T.step s e t ∧ allowed e

variable {allowed : ε → Prop}

theorem Run.of_restrict {s t : σ} {es : List ε} (h : Run (T.restrict allowed) s es t) :
    Run T s es t ∧ ∀ e ∈ es, allowed e := by
  induction h with
  | nil => exact ⟨Run.nil, by simp⟩
  | snoc _ hstep ih =>
      refine ⟨Run.snoc ih.1 hstep.1, fun e he => ?_⟩
      rcases List.mem_append.mp he with hold | hnew
      · exact ih.2 e hold
      · obtain rfl := List.mem_singleton.mp hnew
        exact hstep.2

theorem Run.restrict {s t : σ} {es : List ε} (h : Run T s es t) (hallowed : ∀ e ∈ es, allowed e) :
    Run (T.restrict allowed) s es t := by
  induction h with
  | nil => exact Run.nil
  | @snoc u v es e _ hstep ih =>
      have hinit : ∀ f ∈ es, allowed f := fun f hf => hallowed f (List.mem_append_left _ hf)
      exact Run.snoc (ih hinit) ⟨hstep, hallowed e (by simp)⟩

theorem Reachable.of_restrict {s : σ} (h : Reachable (T.restrict allowed) s) : Reachable T s := by
  obtain ⟨s₀, es, hinit, hrun⟩ := h
  exact ⟨s₀, es, hinit, hrun.of_restrict.1⟩

end Transition
