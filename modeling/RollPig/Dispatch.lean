/-
Dispatching one job at most once, in a bounded number of attempts.

A worker leases the job under a token and says when it starts to send it.  Until then
the lease may lapse, be given back or be dropped; from then on the job comes free again
only when its receiver refuses it, and a verdict ends it.  Nothing here knows what the
tokens are.

Two results carry the design: between two sendings under different tokens the first one
was refused (`refused_between`), and what is over stays over (`over_run`).
-/
import Mathlib.Data.List.Count
import RollPig.Transition

namespace Dispatch

open Transition

variable {κ : Type*}

inductive Verdict
  | sent
  | uncertain
  | skipped
deriving DecidableEq, Repr

/-- Where a job stands, with the token it is leased under. -/
inductive Stage (κ : Type*)
  | waiting
  | leased (token : κ)
  | sending (token : κ)
  | over (verdict : Verdict) (token : κ)
  | failed

structure Job (κ : Type*) where
  stage : Stage κ
  attempts : Nat

/-- What can be seen of a step. -/
inductive Act (κ : Type*)
  | lease (token : κ)
  | send (token : κ)
  | refuse (token : κ)
  | giveBack (token : κ)
  | close (verdict : Verdict) (token : κ)
  | quiet

/-- The token the step leases the job under. -/
def Act.leased? : Act κ → Option κ
  | .lease token => some token
  | _ => none

/-- Nobody started to send the job, and no verdict ended it. -/
inductive Stage.Free : Stage κ → Prop
  | waiting : Free .waiting
  | leased (token : κ) : Free (.leased token)

/-- The job goes back to the queue, or its attempts are used up. -/
inductive Stage.Returned : Stage κ → Prop
  | waiting : Returned .waiting
  | failed : Returned .failed

inductive Step (limit : Nat) : Job κ → Act κ → Job κ → Prop
  | lease {stage attempts} (hfree : Stage.Free stage) (hbudget : attempts < limit) (token : κ) :
      Step limit ⟨stage, attempts⟩ (.lease token) ⟨.leased token, attempts + 1⟩
  | send {token attempts} :
      Step limit ⟨.leased token, attempts⟩ (.send token) ⟨.sending token, attempts⟩
  | sendAgain {token attempts} :
      Step limit ⟨.sending token, attempts⟩ (.send token) ⟨.sending token, attempts⟩
  | refuse {token stage attempts} (hreturned : Stage.Returned stage) :
      Step limit ⟨.sending token, attempts⟩ (.refuse token) ⟨stage, attempts⟩
  | giveBack {token stage attempts} (hreturned : Stage.Returned stage) :
      Step limit ⟨.leased token, attempts⟩ (.giveBack token) ⟨stage, attempts⟩
  | close {verdict token attempts} (hverdict : verdict ≠ .skipped) :
      Step limit ⟨.sending token, attempts⟩ (.close verdict token) ⟨.over verdict token, attempts⟩
  | skip {token attempts} :
      Step limit ⟨.leased token, attempts⟩ (.close .skipped token) ⟨.over .skipped token, attempts⟩
  | closeAgain {verdict token attempts} :
      Step limit ⟨.over verdict token, attempts⟩ (.close verdict token)
        ⟨.over verdict token, attempts⟩
  | quiet {job} : Step limit job .quiet job
  | expire {stage attempts} (hfree : Stage.Free stage) :
      Step limit ⟨stage, attempts⟩ .quiet ⟨.failed, attempts⟩

/-- A job nobody has leased yet. -/
def Job.new : Job κ := ⟨.waiting, 0⟩

def system (limit : Nat) : System (Job κ) (Act κ) where
  init job := job = .new
  step := Step limit

variable {limit : Nat} {job job' : Job κ} {act : Act κ} {acts : List (Act κ)} {token : κ}
  {verdict : Verdict}

/-! ### One step -/

theorem Step.of_send (h : Step limit job (.send token) job') : job'.stage = .sending token := by
  cases h <;> rfl

theorem Step.of_close (h : Step limit job (.close verdict token) job') :
    job'.stage = .over verdict token := by
  cases h <;> rfl

/-- Only the holder of the lease, or of the sending, sends. -/
theorem Step.sender (h : Step limit job (.send token) job') :
    job.stage = .leased token ∨ job.stage = .sending token := by
  cases h with
  | send => exact Or.inl rfl
  | sendAgain => exact Or.inr rfl

/-- A verdict is final. -/
theorem Step.over (h : Step limit job act job') (hover : job.stage = .over verdict token) :
    job'.stage = .over verdict token := by
  cases h with
  | lease hfree | expire hfree =>
      obtain rfl := hover
      cases hfree
  | closeAgain | quiet => exact hover
  | _ => cases hover

theorem Step.not_lease_over (h : Step limit job act job') (hover : job.stage = .over verdict token)
    (new : κ) : act ≠ .lease new := by
  rintro rfl
  cases h with
  | lease hfree =>
      obtain rfl := hover
      cases hfree

/-- A job that is being sent stays so until it is refused or ended. -/
theorem Step.sending (h : Step limit job act job') (hsending : job.stage = .sending token) :
    act = .refuse token ∨ job'.stage = .sending token ∨
      ∃ verdict, job'.stage = .over verdict token := by
  cases h with
  | lease hfree | expire hfree =>
      obtain rfl := hsending
      cases hfree
  | sendAgain | quiet => exact Or.inr (Or.inl hsending)
  | refuse =>
      obtain rfl := Stage.sending.inj hsending
      exact Or.inl rfl
  | @close verdict =>
      obtain rfl := Stage.sending.inj hsending
      exact Or.inr (Or.inr ⟨verdict, rfl⟩)
  | _ => cases hsending

/-- Every lease is an attempt, and nothing else is. -/
theorem Step.attempts (h : Step limit job act job') :
    job'.attempts = job.attempts + act.leased?.toList.length := by
  cases h <;> rfl

theorem Step.attempts_le (h : Step limit job act job') (hle : job.attempts ≤ limit) :
    job'.attempts ≤ limit := by
  cases h with
  | lease _ hbudget => exact hbudget
  | _ => exact hle

/-! ### Runs -/

/-- **What is over stays over**, and nobody leases it. -/
theorem over_run (h : Run (system limit) job acts job') (hover : job.stage = .over verdict token) :
    job'.stage = .over verdict token ∧ ∀ new, Act.lease new ∉ acts := by
  induction h with
  | nil => exact ⟨hover, by simp⟩
  | snoc _ hstep ih =>
      obtain ⟨hbefore, hnone⟩ := ih
      refine ⟨hstep.over hbefore, fun new hmem => ?_⟩
      rcases List.mem_append.mp hmem with hold | hlast
      · exact hnone new hold
      · exact hstep.not_lease_over hbefore new (List.mem_singleton.mp hlast).symm

/-- Once the sending started, the job was refused, is being sent, or is over. -/
theorem sending_run (h : Run (system limit) job acts job') (hsending : job.stage = .sending token) :
    Act.refuse token ∈ acts ∨ job'.stage = .sending token ∨
      ∃ verdict, job'.stage = .over verdict token := by
  induction h with
  | nil => exact Or.inr (Or.inl hsending)
  | snoc _ hstep ih =>
      rcases ih with hrefused | hsent | ⟨verdict, hover⟩
      · exact Or.inl (List.mem_append_left _ hrefused)
      · rcases hstep.sending hsent with rfl | hkept
        · exact Or.inl (by simp)
        · exact Or.inr hkept
      · exact Or.inr (Or.inr ⟨verdict, hstep.over hover⟩)

/-- **Nobody sends after somebody else without a refusal in between.** -/
theorem refused_between {token' : κ} {u v w : Job κ} (hfirst : Step limit u (.send token) v)
    (hrun : Run (system limit) v acts w) (hsecond : Step limit w (.send token') job')
    (hne : token ≠ token') : Act.refuse token ∈ acts := by
  rcases sending_run hrun hfirst.of_send with hrefused | hsending | ⟨verdict, hover⟩
  · exact hrefused
  · rcases hsecond.sender with hleased | hsame
    · cases hleased.symm.trans hsending
    · exact absurd (Stage.sending.inj (hsending.symm.trans hsame)) hne
  · rcases hsecond.sender with hleased | hsame
    · cases hleased.symm.trans hover
    · cases hsame.symm.trans hover

/-- The tokens a job was leased under. -/
def leases (acts : List (Act κ)) : List κ :=
  acts.filterMap Act.leased?

theorem leases_concat (acts : List (Act κ)) (act : Act κ) :
    leases (acts ++ [act]) = leases acts ++ act.leased?.toList := by
  unfold leases
  rw [List.filterMap_append]
  cases h : act.leased? <;> simp [h]

/-- **The attempts are the leases.** -/
theorem attempts_run (h : Run (system limit) job acts job') :
    job'.attempts = job.attempts + (leases acts).length := by
  induction h with
  | nil => rfl
  | snoc _ hstep ih =>
      have hlast := Step.attempts hstep
      rw [hlast, ih, leases_concat, List.length_append, Nat.add_assoc]

theorem attempts_le_run (h : Run (system limit) job acts job') (hle : job.attempts ≤ limit) :
    job'.attempts ≤ limit :=
  h.invariant (I := fun job => job.attempts ≤ limit)
    (fun _ _ _ hjob hstep => Step.attempts_le hstep hjob) hle

end Dispatch
