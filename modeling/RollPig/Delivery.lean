/-
Leased delivery of one job.

A job waits, becomes ready, and is then leased to a worker under a token.  The worker
fixes the result, once and for all, and sends it; before the sending starts the lease
may be given back or lapse, and the job is leased again under another token.  Nothing
here knows what tokens and results are.

The point of the design is in `Steps.keeps_authorised`: the token under which the sending
starts is the last one, so the final message is sent under one token only.
-/
import Mathlib.Logic.Relation

namespace Delivery

variable {κ ρ : Type*}

/-- Where a job stands, with the token it is leased under. -/
inductive Stage (κ : Type*)
  | waiting
  | ready
  | leased (token : κ)
  | prepared (token : κ)
  | sending (token : κ)
  | done (token : κ)

structure Job (κ ρ : Type*) where
  stage : Stage κ
  result : Option ρ

/-- The final message may be sent under this token. -/
inductive Stage.Authorised (token : κ) : Stage κ → Prop
  | sending : Authorised token (.sending token)
  | done : Authorised token (.done token)

/-- A worker may lease the job, because it is ready or because a lease lapsed. -/
inductive Stage.Free : Stage κ → Prop
  | ready : Free .ready
  | leased (token : κ) : Free (.leased token)
  | prepared (token : κ) : Free (.prepared token)

inductive Step : Job κ ρ → Job κ ρ → Prop
  | ready {result} : Step ⟨.waiting, result⟩ ⟨.ready, result⟩
  /-- Without a result yet, the worker has to find one. -/
  | lease {stage} (hfree : Stage.Free stage) (token : κ) :
      Step ⟨stage, none⟩ ⟨.leased token, none⟩
  /-- With a result, the worker goes on from there. -/
  | resume {stage result} (hfree : Stage.Free stage) (token : κ) :
      Step ⟨stage, some result⟩ ⟨.prepared token, some result⟩
  /-- A worker that does not know the prepared stage sends at once. -/
  | relay {stage result} (hfree : Stage.Free stage) (token : κ) :
      Step ⟨stage, some result⟩ ⟨.sending token, some result⟩
  | settle {token} (result : ρ) : Step ⟨.leased token, none⟩ ⟨.prepared token, some result⟩
  | confirm {token result} :
      Step ⟨.leased token, some result⟩ ⟨.prepared token, some result⟩
  /-- The result is fixed and sent in one step. -/
  | save {token old} (result : ρ) (hold : old = none ∨ old = some result) :
      Step ⟨.leased token, old⟩ ⟨.sending token, some result⟩
  | send {token result} : Step ⟨.prepared token, some result⟩ ⟨.sending token, some result⟩
  | complete {token result} : Step ⟨.sending token, result⟩ ⟨.done token, result⟩
  | release {token result} : Step ⟨.leased token, result⟩ ⟨.ready, result⟩
  | giveBack {token result} : Step ⟨.prepared token, result⟩ ⟨.ready, result⟩

/-- Any number of steps. -/
abbrev Steps : Job κ ρ → Job κ ρ → Prop :=
  Relation.ReflTransGen Step

variable {job job' : Job κ ρ} {token : κ} {result : ρ}

/-! ### One step -/

/-- A stage authorises one token at most. -/
theorem Stage.Authorised.unique {stage : Stage κ} {token token' : κ}
    (h : stage.Authorised token) (h' : stage.Authorised token') : token = token' := by
  cases h <;> cases h' <;> rfl

theorem Stage.authorised_iff {stage : Stage κ} :
    stage.Authorised token ↔ stage = .sending token ∨ stage = .done token := by
  constructor
  · rintro (_ | _)
    · exact Or.inl rfl
    · exact Or.inr rfl
  · rintro (rfl | rfl)
    · exact .sending
    · exact .done

/-- A job that is being sent, or was, cannot be leased. -/
theorem Stage.Authorised.not_free {stage : Stage κ} (h : stage.Authorised token) :
    ¬ stage.Free := by
  intro hfree
  cases h <;> cases hfree

theorem Step.keeps_authorised (h : Step job job') (hauth : job.stage.Authorised token) :
    job'.stage.Authorised token := by
  cases h with
  | complete =>
      cases hauth
      exact .done
  | lease hfree => exact absurd hfree hauth.not_free
  | resume hfree => exact absurd hfree hauth.not_free
  | relay hfree => exact absurd hfree hauth.not_free
  | _ => cases hauth

/-- A result stays. -/
theorem Step.keeps_result (h : Step job job') (hresult : job.result = some result) :
    job'.result = some result := by
  cases h with
  | lease | settle => cases hresult
  | save new hold =>
      rcases hold with rfl | rfl
      · cases hresult
      · exact hresult
  | _ => exact hresult

/-- No step leads back to waiting. -/
theorem Step.stage_ne_waiting (h : Step job job') : job'.stage ≠ .waiting := by
  cases h <;> simp

/-- What is done stays as it is. -/
theorem Step.stage_ne_done (h : Step job job') : job.stage ≠ .done token := by
  intro hdone
  have hauth : job.stage.Authorised token := hdone ▸ .done
  cases h with
  | lease hfree | resume hfree | relay hfree => exact hauth.not_free hfree
  | _ => cases hdone

/-! ### Any number of steps -/

/-- **The sending starts under one token only.** -/
theorem Steps.keeps_authorised (h : Steps job job') (hauth : job.stage.Authorised token) :
    job'.stage.Authorised token := by
  induction h with
  | refl => exact hauth
  | tail _ hstep ih => exact hstep.keeps_authorised ih

/-- **A result is fixed once and for all.** -/
theorem Steps.keeps_result (h : Steps job job') (hresult : job.result = some result) :
    job'.result = some result := by
  induction h with
  | refl => exact hresult
  | tail _ hstep ih => exact hstep.keeps_result ih

theorem Steps.stage_ne_waiting (h : Steps job job') (hstage : job.stage ≠ .waiting) :
    job'.stage ≠ .waiting := by
  induction h with
  | refl => exact hstage
  | tail _ hstep _ => exact hstep.stage_ne_waiting

end Delivery
