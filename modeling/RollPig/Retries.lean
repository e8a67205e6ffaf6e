/-
Transactions that are run again.

A program makes attempts, one after the other, and sees of each of them its answer or its
error.  Between two attempts of a client everybody else goes on.  An attempt that failed was
rolled back, but for an error that is no conflict: the connection may have been lost after the
commit.  So a program may repeat an attempt after a conflict only; then it commits at most
once, and the system underneath makes one step for it, at one time.
-/
import RollPig.Transition

namespace RollPig.Retries

open Transition

variable {ι σ ε err : Type*}

/-- Attempts, each of which commits an event or fails, and what is made of them. -/
inductive Program (ε err : Type*)
  | done (result : Except err ε)
  | attempt (next : Except err ε → Program ε err)

namespace Program

/-- One attempt. -/
def once : Program ε err := .attempt .done

def bind : Program ε err → (Except err ε → Program ε err) → Program ε err
  | .done result, k => k result
  | .attempt next, k => .attempt fun result => (next result).bind k

/-- `for attempt in range(tries)`: the operation is run again after such an error, unless that
was the last time.  What stands after the loop is reached only by a loop without a try. -/
def retrying (operation : Program ε err) (again : err → Bool) (exhausted : err) :
    ℕ → Program ε err
  | 0 => .done (.error exhausted)
  | left + 1 =>
      operation.bind fun result =>
        match result with
        | .ok event => .done (.ok event)
        | .error error =>
            if again error ∧ left ≠ 0 then retrying operation again exhausted left
            else .done (.error error)

/-- A program that has no answer yet and makes no attempt after one that may have committed. -/
inductive Single (conflict : err → Prop) : Program ε err → Prop
  | failed (error : err) : Single conflict (.done (.error error))
  | attempt {next : Except err ε → Program ε err}
      (hok : ∀ event, next (.ok event) = .done (.ok event))
      (herror : ∀ error, ¬ conflict error → next (.error error) = .done (.error error))
      (hrest : ∀ error, Single conflict (next (.error error))) : Single conflict (.attempt next)

/-- A program that makes at most so many attempts. -/
inductive Within : ℕ → Program ε err → Prop
  | done (n : ℕ) (result : Except err ε) : Within n (.done result)
  | attempt {n : ℕ} {next : Except err ε → Program ε err} (h : ∀ result, Within n (next result)) :
      Within (n + 1) (.attempt next)

variable {conflict : err → Prop} {operation : Program ε err} {again : err → Bool} {exhausted : err}

theorem once_single : (once : Program ε err).Single conflict :=
  .attempt (fun _ => rfl) (fun _ _ => rfl) fun error => .failed error

theorem once_within : (once : Program ε err).Within 1 :=
  .attempt fun result => .done 0 result

/-- What follows an operation may go on where the operation met a conflict. -/
theorem Single.bind {k : Except err ε → Program ε err} (h : operation.Single conflict)
    (hok : ∀ event, k (.ok event) = .done (.ok event))
    (herror : ∀ error, ¬ conflict error → k (.error error) = .done (.error error))
    (hrest : ∀ error, (k (.error error)).Single conflict) : (operation.bind k).Single conflict := by
  induction h with
  | failed error => exact hrest error
  | @attempt next hnext hend _ ih =>
      refine .attempt ?_ ?_ ih
      · intro event
        rw [hnext event]
        exact hok event
      · intro error hother
        rw [hend error hother]
        exact herror error hother

theorem Within.mono {m n : ℕ} (h : operation.Within m) (hmn : m ≤ n) : operation.Within n := by
  induction h generalizing n with
  | done => exact .done n _
  | attempt _ ih =>
      obtain ⟨n, rfl⟩ := Nat.exists_eq_succ_of_ne_zero (by omega : n ≠ 0)
      exact .attempt fun result => ih result (by omega)

theorem Within.bind {m n : ℕ} {k : Except err ε → Program ε err} (h : operation.Within m)
    (hk : ∀ result, (k result).Within n) : (operation.bind k).Within (m + n) := by
  induction h with
  | done m result => exact (hk result).mono (Nat.le_add_left n m)
  | @attempt m next _ ih =>
      rw [Nat.succ_add]
      exact .attempt ih

/-- Only a conflict is tried again, so the loop is single if what it tries is; by induction on
the attempts that are left. -/
theorem retrying_single (h : operation.Single conflict)
    (hagain : ∀ error, again error = true → conflict error) (tries : ℕ) :
    (retrying operation again exhausted tries).Single conflict := by
  induction tries with
  | zero => exact .failed exhausted
  | succ left ih =>
      refine h.bind (fun _ => rfl) ?_ ?_
      · intro error hother
        exact if_neg fun hretry => hother (hagain error hretry.1)
      · intro error
        dsimp only
        split
        · exact ih
        · exact .failed error

theorem retrying_within {m : ℕ} (h : operation.Within m) (tries : ℕ) :
    (retrying operation again exhausted tries).Within (m * tries) := by
  induction tries with
  | zero => exact .done 0 _
  | succ left ih =>
      rw [Nat.mul_succ, Nat.add_comm]
      refine h.bind fun result => ?_
      cases result with
      | ok event => exact .done _ _
      | error error =>
          dsimp only
          split
          · exact ih
          · exact .done _ _

end Program

/-! ### Clients beside each other -/

/-- An attempt commits, or fails, or fails after it committed. -/
inductive Outcome (ε err : Type*)
  | committed (event : ε)
  | failed (error : err)
  | lost (event : ε) (error : err)

/-- What its client sees of it. -/
def Outcome.seen : Outcome ε err → Except err ε
  | .committed event => .ok event
  | .failed error => .error error
  | .lost _ error => .error error

/-- What it is to the system underneath. -/
def Outcome.commit? : Outcome ε err → Option ε
  | .committed event => some event
  | .failed _ => none
  | .lost event _ => some event

/-- An attempt of a client, or a step that has nothing to do with the clients. -/
inductive Turn (ι ε err : Type*)
  | attempt (client : ι) (outcome : Outcome ε err)
  | elsewhere (event : ε)

def Turn.commit? : Turn ι ε err → Option ε
  | .attempt _ outcome => outcome.commit?
  | .elsewhere event => some event

/-- The outcome of an attempt of this client. -/
def Turn.of? [DecidableEq ι] (i : ι) : Turn ι ε err → Option (Outcome ε err)
  | .attempt client outcome => if client = i then some outcome else none
  | .elsewhere _ => none

/-- What an outcome does to the state; only an event of the client is committed. -/
inductive Outcome.Happens (T : System σ ε) (own : ε → Prop) (conflict : err → Prop) (s : σ) :
    Outcome ε err → σ → Prop
  | committed {event : ε} {s' : σ} (hown : own event) (hstep : T.step s event s') :
      Happens T own conflict s (.committed event) s'
  | failed (error : err) : Happens T own conflict s (.failed error) s
  | lost {event : ε} {error : err} {s' : σ} (hown : own event) (hstep : T.step s event s')
      (hother : ¬ conflict error) : Happens T own conflict s (.lost event error) s'

/-- The state, and where the clients are. -/
structure World (ι σ ε err : Type*) where
  state : σ
  programs : ι → Program ε err

/-- A turn: the attempt its client's program makes next, or a step elsewhere. -/
inductive TakesTurn [DecidableEq ι] (T : System σ ε) (own : ι → ε → Prop) (conflict : err → Prop)
    (w : World ι σ ε err) : Turn ι ε err → World ι σ ε err → Prop
  | attempt {i : ι} {next : Except err ε → Program ε err} {outcome : Outcome ε err} {s' : σ}
      (hnext : w.programs i = .attempt next)
      (hhappens : outcome.Happens T (own i) conflict w.state s') :
      TakesTurn T own conflict w (.attempt i outcome)
        { state := s', programs := Function.update w.programs i (next outcome.seen) }
  | elsewhere {event : ε} {s' : σ} (hstep : T.step w.state event s') :
      TakesTurn T own conflict w (.elsewhere event) { w with state := s' }

/-- A system whose clients try again. -/
def retried [DecidableEq ι] (T : System σ ε) (own : ι → ε → Prop) (conflict : err → Prop)
    (programs : ι → Program ε err) : System (World ι σ ε err) (Turn ι ε err) where
  init w := T.init w.state ∧ w.programs = programs
  step := TakesTurn T own conflict

section Runs

variable [DecidableEq ι] {T : System σ ε} {own : ι → ε → Prop} {conflict : err → Prop}
  {programs : ι → Program ε err} {w w' : World ι σ ε err} {turn : Turn ι ε err}
  {turns : List (Turn ι ε err)}

/-- The attempts of a client. -/
def outcomes (turns : List (Turn ι ε err)) (i : ι) : List (Outcome ε err) :=
  turns.filterMap (Turn.of? i)

/-- What a client committed. -/
def commits (turns : List (Turn ι ε err)) (i : ι) : List ε :=
  (outcomes turns i).filterMap Outcome.commit?

/-- **The retries are a run of the system underneath**, in which every commit is one step and
every failure is none. -/
theorem run_commits (hrun : Run (retried T own conflict programs) w turns w') :
    Run T w.state (turns.filterMap Turn.commit?) w'.state := by
  induction hrun with
  | nil => exact Run.nil
  | snoc _ hstep ih =>
      rw [List.filterMap_append]
      refine ih.append ?_
      cases hstep with
      | attempt _ hhappens =>
          cases hhappens with
          | committed _ hstep => exact Run.single hstep
          | failed => exact Run.nil
          | lost _ hstep => exact Run.single hstep
      | elsewhere hstep => exact Run.single hstep

/-- Where a client is: it committed nothing and has no answer, or it committed once, an event of
its own, and was told so or has lost the connection. -/
inductive Settled (own : ε → Prop) (conflict : err → Prop) : List ε → Program ε err → Prop
  | pending {program : Program ε err} (h : program.Single conflict) :
      Settled own conflict [] program
  | told {event : ε} (hown : own event) : Settled own conflict [event] (.done (.ok event))
  | lost {event : ε} {error : err} (hown : own event) (hother : ¬ conflict error) :
      Settled own conflict [event] (.done (.error error))

theorem Settled.attempt {done : List ε} {next : Except err ε → Program ε err}
    {outcome : Outcome ε err} {own : ε → Prop} {s s' : σ}
    (h : Settled own conflict done (.attempt next))
    (hhappens : outcome.Happens T own conflict s s') :
    Settled own conflict (done ++ outcome.commit?.toList) (next outcome.seen) := by
  cases h with
  | pending hsingle =>
      cases hsingle with
      | attempt hok herror hrest =>
          cases hhappens with
          | @committed event _ hown =>
              show Settled own conflict [event] (next (.ok event))
              rw [hok]
              exact .told hown
          | failed error => exact .pending (hrest error)
          | @lost event error _ hown _ hother =>
              show Settled own conflict [event] (next (.error error))
              rw [herror error hother]
              exact .lost hown hother

namespace Settled

variable {own : ε → Prop} {done : List ε} {program : Program ε err}

theorem length (h : Settled own conflict done program) : done.length ≤ 1 := by
  cases h with
  | pending => exact Nat.zero_le 1
  | told => exact Nat.le_refl 1
  | lost => exact Nat.le_refl 1

theorem owns (h : Settled own conflict done program) : ∀ event ∈ done, own event := by
  intro event hevent
  cases h with
  | pending => exact absurd hevent List.not_mem_nil
  | told hown =>
      obtain rfl := List.mem_singleton.mp hevent
      exact hown
  | lost hown =>
      obtain rfl := List.mem_singleton.mp hevent
      exact hown

theorem answered {event : ε} (h : Settled own conflict done program)
    (hanswer : program = .done (.ok event)) : done = [event] := by
  subst hanswer
  cases h with
  | pending hsingle => cases hsingle
  | told => rfl

theorem refused {error : err} (h : Settled own conflict done program)
    (hanswer : program = .done (.error error)) (hconflict : conflict error) : done = [] := by
  subst hanswer
  cases h with
  | pending => rfl
  | lost _ hother => exact absurd hconflict hother

end Settled

/-- What a turn adds to the attempts of a client. -/
theorem outcomes_snoc (turns : List (Turn ι ε err)) (turn : Turn ι ε err) (i : ι) :
    outcomes (turns ++ [turn]) i = outcomes turns i ++ (turn.of? i).toList := by
  unfold outcomes
  rw [List.filterMap_append]
  cases h : turn.of? i <;> simp [h]

/-- A turn is an attempt of this client, or leaves the client where it is. -/
theorem turn_cases (hstep : TakesTurn T own conflict w turn w') (i : ι) :
    (turn.of? i = none ∧ w'.programs i = w.programs i) ∨
      ∃ next outcome, turn.of? i = some outcome ∧ w.programs i = .attempt next ∧
        w'.programs i = next outcome.seen ∧
        outcome.Happens T (own i) conflict w.state w'.state := by
  cases hstep with
  | elsewhere => exact Or.inl ⟨rfl, rfl⟩
  | @attempt j next outcome s' hnext hhappens =>
      by_cases hsame : j = i
      · subst hsame
        exact Or.inr ⟨next, outcome, if_pos rfl, hnext, Function.update_self .., hhappens⟩
      · exact Or.inl ⟨if_neg hsame, Function.update_of_ne (Ne.symm hsame) ..⟩

/-- **A client commits at most once**, by induction on the run. -/
theorem run_settled (hsingle : ∀ i, (w.programs i).Single conflict)
    (hrun : Run (retried T own conflict programs) w turns w') (i : ι) :
    Settled (own i) conflict (commits turns i) (w'.programs i) := by
  induction hrun with
  | nil => exact .pending (hsingle i)
  | @snoc t u before turn _ hstep ih =>
      unfold commits
      rw [outcomes_snoc, List.filterMap_append]
      rcases turn_cases hstep i with ⟨hnone, hsame⟩ | ⟨next, outcome, hsome, hnext, hthen, hhappens⟩
      · rw [hnone, hsame]
        simpa [commits] using ih
      · rw [hsome, hthen]
        rw [hnext] at ih
        have hnow := ih.attempt hhappens
        have hlast : (some outcome).toList.filterMap Outcome.commit? = outcome.commit?.toList := by
          cases h : outcome.commit? <;> simp [h]
        rw [hlast]
        exact hnow

/-- A client makes the attempts it has, by induction on the run. -/
theorem run_within {n : ℕ} (i : ι) (hwithin : (w.programs i).Within n)
    (hrun : Run (retried T own conflict programs) w turns w') :
    ∃ left, (w'.programs i).Within left ∧ (outcomes turns i).length + left ≤ n := by
  induction hrun with
  | nil => exact ⟨n, hwithin, by simp [outcomes]⟩
  | @snoc t u before turn _ hstep ih =>
      obtain ⟨left, hleft, hsum⟩ := ih
      rw [outcomes_snoc, List.length_append]
      rcases turn_cases hstep i with ⟨hnone, hsame⟩ | ⟨next, outcome, hsome, hnext, hthen, -⟩
      · rw [hnone, hsame]
        exact ⟨left, hleft, by simpa using hsum⟩
      · rw [hnext] at hleft
        cases hleft with
        | @attempt rest _ hrest =>
            rw [hsome, hthen]
            refine ⟨rest, hrest _, ?_⟩
            rw [Option.toList_some, List.length_singleton]
            omega

end Runs

end RollPig.Retries
