/-
A request that is tried again is one transaction.

The handlers repeat their transaction after a conflict, some of them in two loops, one within
the other.  Beside everybody else, whatever fails and wherever a connection is lost, such a
request takes effect once or not at all, so what holds in the runs of the cloud holds with the
retries too.
-/
import RollPig.Sessions
import RollPig.Proofs.Albums
import RollPig.Proofs.Script

namespace RollPig

open Transition Retries

variable {dialect : SessionDialect} {ε : Type*} {operation : Program ε SessionError}

theorem runTransactionWithSqliteLockRetry_single
    (h : operation.Single (SessionError.Conflict dialect)) :
    (runTransactionWithSqliteLockRetry dialect operation).Single (SessionError.Conflict dialect) :=
  Program.retrying_single h (fun _ hlock => Or.inr (Or.inl hlock)) _

theorem runTransactionWithSqliteLockRetry_within {n : Nat} (h : operation.Within n) :
    (runTransactionWithSqliteLockRetry dialect operation).Within (n * sqliteLockRetryAttempts) :=
  Program.retrying_within h _

/-- The most attempts a handler makes. -/
def RetriedRequest.tries : RetriedRequest → Nat
  | .createEvent _ | .waitingNotice _ => 2
  | .grant _ | .replaceGroup _ => 6
  | .bindMessage _ | .joinByMessage _ => 4

/-- No handler repeats what may have been committed. -/
theorem RetriedRequest.single (r : RetriedRequest) :
    (r.program dialect).Single (SessionError.Conflict dialect) := by
  have hlock : (runTransactionWithSqliteLockRetry dialect
      (.once : Program CloudEvent SessionError)).Single (SessionError.Conflict dialect) :=
    runTransactionWithSqliteLockRetry_single Program.once_single
  have hprotection : (runProtectionTransaction dialect
      (.once : Program CloudEvent SessionError)).Single (SessionError.Conflict dialect) := by
    refine Program.retrying_single hlock (fun error hagain => ?_) _
    rcases Bool.or_eq_true_iff.mp hagain with hinserted | hmysql
    · exact Or.inl hinserted
    · exact Or.inr (Or.inr hmysql)
  have hmessage : (runMessageTransaction dialect
      (.once : Program CloudEvent SessionError)).Single (SessionError.Conflict dialect) :=
    Program.retrying_single hlock (fun _ hinserted => Or.inl hinserted) _
  cases r with
  | createEvent | waitingNotice => exact hlock
  | grant | replaceGroup => exact hprotection
  | bindMessage | joinByMessage => exact hmessage

theorem RetriedRequest.within (r : RetriedRequest) : (r.program dialect).Within r.tries := by
  have hlock : (runTransactionWithSqliteLockRetry dialect
      (.once : Program CloudEvent SessionError)).Within 2 :=
    runTransactionWithSqliteLockRetry_within Program.once_within
  cases r with
  | createEvent | waitingNotice => exact hlock
  | grant | replaceGroup => exact Program.retrying_within hlock 3
  | bindMessage | joinByMessage => exact Program.retrying_within hlock 2

variable {ι : Type*} [DecidableEq ι] {requests : ι → RetriedRequest}
  {turns : List (Turn ι CloudEvent SessionError)}
  {w : Retries.World ι Cloud CloudEvent SessionError}

/-- **A request that is tried again takes effect once or not at all.**  Any number of these
requests run beside each other and beside everything else, their attempts fail with any errors,
and connections are lost after a commit.  Leaving out the failures gives a run of the cloud;
every request commits its own transaction at most once, exactly once if it has its answer, and
never if it was told of a conflict; it makes no more attempts than its loops allow, and is over
once it has made them. -/
theorem requests_once (hrun : Run (retriedCloud dialect requests) (retriedStart dialect requests)
      turns w) :
    Run cloud {} (turns.filterMap Turn.commit?) w.state ∧
    ∀ i, (commits turns i).length ≤ 1 ∧
      (∀ event ∈ commits turns i, (requests i).Owns event) ∧
      (∀ event, w.programs i = .done (.ok event) → commits turns i = [event]) ∧
      (∀ error, w.programs i = .done (.error error) → error.Conflict dialect →
        commits turns i = []) ∧
      (outcomes turns i).length ≤ (requests i).tries ∧
      ((outcomes turns i).length = (requests i).tries → ∃ result, w.programs i = .done result) := by
  refine ⟨run_commits hrun, fun i => ?_⟩
  have hsettled := run_settled (fun i => (requests i).single) hrun i
  obtain ⟨left, hleft, hsum⟩ := run_within i (requests i).within hrun
  have hover : (outcomes turns i).length = (requests i).tries →
      ∃ result, w.programs i = .done result := by
    intro hall
    obtain rfl : left = 0 := by omega
    generalize w.programs i = program at hleft ⊢
    cases hleft with
    | done _ result => exact ⟨result, rfl⟩
  exact ⟨hsettled.length, hsettled.owns, fun event => hsettled.answered,
    fun error => hsettled.refused, by omega, hover⟩

/-- The transaction of the grant after a script of grants. -/
def grantEvent (script : List (Time × Order)) : CloudEvent :=
  .api (.transaction (scriptEvent script (739000 * dayMicros) (.grant scriptGrant)))

def grantOrder : Time × Order := (739000 * dayMicros, .request (.grant scriptGrant))

/-- Two requests grant the same protection. -/
def twoGrants : Bool → RetriedRequest := fun _ => .grant scriptGrant

/-- One of them is chosen as the victim of a deadlock, and comes second. -/
def deadlockTurns : List (Turn Bool CloudEvent SessionError) :=
  [.attempt true (.failed (.operational false (some 1213))),
    .attempt false (.committed (grantEvent [])),
    .attempt true (.committed (grantEvent [grantOrder]))]

theorem requests_once_deadlock :
    ∃ w, Run (retriedCloud .mysql twoGrants) (retriedStart .mysql twoGrants) deadlockTurns w ∧
      commits deadlockTurns true = [grantEvent [grantOrder]] ∧
      (outcomes deadlockTurns true).length = 2 ∧
      w.state.world.db.groupProtections.map (·.userId) = ["2"] := by
  have hempty : (play 0 {} []).isSome = true := rfl
  have hone : (play 0 {} [grantOrder]).isSome = true := by decide +kernel
  have hfirst : cloud.step {} (grantEvent []) { world := scriptWorld [grantOrder] } :=
    ⟨script_step hempty (739000 * dayMicros) (.grant scriptGrant), rfl⟩
  have hsecond : cloud.step { world := scriptWorld [grantOrder] } (grantEvent [grantOrder])
      { world := (scriptWorld [grantOrder]).after
          (scriptEvent [grantOrder] (739000 * dayMicros) (.grant scriptGrant)).env
          (scriptEvent [grantOrder] (739000 * dayMicros) (.grant scriptGrant)).action } :=
    ⟨script_step hone (739000 * dayMicros) (.grant scriptGrant), rfl⟩
  have hrun : Run (retriedCloud .mysql twoGrants) (retriedStart .mysql twoGrants) deadlockTurns _ :=
    Run.cons (TakesTurn.attempt rfl (.failed _))
      (Run.cons (TakesTurn.attempt rfl (.committed ⟨_, _, rfl, rfl⟩ hfirst))
        (Run.cons (TakesTurn.attempt rfl (.committed ⟨_, _, rfl, rfl⟩ hsecond)) Run.nil))
  obtain ⟨-, hclients⟩ := requests_once hrun
  exact ⟨_, hrun, (hclients true).2.2.1 _ rfl, rfl, by decide +kernel⟩

end RollPig
