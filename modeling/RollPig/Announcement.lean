/-
Announcing a matter once.

From some moment on there is something to announce.  The announcement is queued, leased
to a worker under a token, and sent.  It is dropped when it no longer holds, and queued
anew when its subject changed.  Nothing here knows what tokens and subjects are.

Two facts carry the design.  As long as the subject stays, whoever started to send is the
last one to have the announcement (`Step.settled`).  And a token that lost it does not get
it back, since tokens are issued once (`Step.lost`).
-/
import Mathlib.Logic.Relation

namespace Announcement

variable {κ τ : Type*}

/-- Where the announcement stands, with the token it is leased under. -/
inductive Stage (κ : Type*)
  | early
  | queued
  | leased (token : κ)
  | sending (token : κ)
  | sent (token : κ)
  | dropped
deriving DecidableEq

structure State (κ τ : Type*) where
  subject : τ
  stage : Stage κ

/-- The token that has the announcement. -/
def Stage.holder? : Stage κ → Option κ
  | .leased token | .sending token | .sent token => some token
  | _ => none

/-- A worker may lease the announcement: nobody has it, or a lease lapsed. -/
inductive Stage.Free : Stage κ → Prop
  | queued : Free .queued
  | leased (token : κ) : Free (.leased token)

/-- The sending started under this token, or nothing is left to send. -/
inductive Stage.Settled (token : κ) : Stage κ → Prop
  | sending : Settled token (.sending token)
  | sent : Settled token (.sent token)
  | dropped : Settled token .dropped

/-- One step, where the tokens that may be issued are `issues`. -/
inductive Step (issues : κ → Prop) : State κ τ → State κ τ → Prop
  | stay {state} : Step issues state state
  /-- The subject may change freely before there is anything to announce. -/
  | wait {subject subject'} : Step issues ⟨subject, .early⟩ ⟨subject', .early⟩
  | raise {subject} : Step issues ⟨subject, .early⟩ ⟨subject, .queued⟩
  | lease {subject stage} (hfree : Stage.Free stage) (token : κ) (hissued : issues token) :
      Step issues ⟨subject, stage⟩ ⟨subject, .leased token⟩
  | send {subject token} : Step issues ⟨subject, .leased token⟩ ⟨subject, .sending token⟩
  | close {subject token} : Step issues ⟨subject, .sending token⟩ ⟨subject, .sent token⟩
  | giveBack {subject token} : Step issues ⟨subject, .leased token⟩ ⟨subject, .queued⟩
  | drop {subject subject' stage} : Step issues ⟨subject, stage⟩ ⟨subject', .dropped⟩
  /-- A changed subject is announced again. -/
  | renew {subject subject' stage} (hchanged : subject' ≠ subject) :
      Step issues ⟨subject, stage⟩ ⟨subject', .queued⟩

variable {issues : κ → Prop} {state state' : State κ τ} {token token' : κ}

theorem Stage.Settled.not_free {stage : Stage κ} (h : stage.Settled token) : ¬ stage.Free := by
  intro hfree
  cases h <;> cases hfree

/-- Nobody else has an announcement that is settled. -/
theorem Stage.Settled.holder {stage : Stage κ} (h : stage.Settled token)
    (hholder : stage.holder? = some token') : token' = token := by
  cases h with
  | sending | sent => exact (Option.some.inj hholder).symm
  | dropped => exact absurd hholder (by simp [Stage.holder?])

/-- **Whoever started to send is the last one**, as long as the subject stays. -/
theorem Step.settled (h : Step issues state state') (hsubject : state'.subject = state.subject)
    (hsettled : state.stage.Settled token) : state'.stage.Settled token := by
  cases h with
  | stay => exact hsettled
  | drop => exact .dropped
  | close =>
      cases hsettled
      exact .sent
  | lease hfree => exact absurd hfree hsettled.not_free
  | renew hchanged => exact absurd hsubject hchanged
  | wait | raise | send | giveBack => cases hsettled

/-- **A token that lost the announcement does not get it back**, unless it is issued again. -/
theorem Step.lost (h : Step issues state state') (hissued : ¬ issues token)
    (hlost : state.stage.holder? ≠ some token) : state'.stage.holder? ≠ some token := by
  cases h with
  | stay | send | close => exact hlost
  | lease hfree new hnew =>
      intro hholder
      obtain rfl : new = token := Option.some.inj hholder
      exact hissued hnew
  | wait | raise | giveBack | drop | renew => simp [Stage.holder?]

/-! ### Any number of steps -/

abbrev Steps (issues : κ → Prop) : State κ τ → State κ τ → Prop :=
  Relation.ReflTransGen (Step issues)

theorem Steps.lost (h : Steps issues state state') (hissued : ¬ issues token)
    (hlost : state.stage.holder? ≠ some token) : state'.stage.holder? ≠ some token := by
  induction h with
  | refl => exact hlost
  | tail _ hstep ih => exact hstep.lost hissued ih

/-- Steps that keep the subject, every one of them. -/
abbrev SteadySteps (issues : κ → Prop) : State κ τ → State κ τ → Prop :=
  Relation.ReflTransGen fun state state' =>
    Step issues state state' ∧ state'.subject = state.subject

theorem SteadySteps.settled (h : SteadySteps issues state state')
    (hsettled : state.stage.Settled token) : state'.stage.Settled token := by
  induction h with
  | refl => exact hsettled
  | tail _ hstep ih => exact hstep.1.settled hstep.2 ih

theorem SteadySteps.steps (h : SteadySteps issues state state') : Steps issues state state' := by
  induction h with
  | refl => exact .refl
  | tail _ hstep ih => exact ih.tail hstep.1

end Announcement
