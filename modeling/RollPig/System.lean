/-
The service as a transition system.

One step is one committed transaction.  Most requests are a single one; `prepare` and
`get-or-create` commit twice, and between their commits they are in flight, where any
other transaction may run.  `daily_rolls` is read by plain SELECTs, so the first
transaction of a prepare and a reply may see an older version of that table: the world
keeps every version that was ever committed, and a request names the one it sees.
-/
import RollPig.Transition
import RollPig.Routers.DailyRolls
import RollPig.Routers.Events
import RollPig.Routers.Protections
import RollPig.Routers.RoastReservations

namespace RollPig

/-! ### Requests -/

inductive Request
  | getOrCreate (req : DailyRollGetOrCreateRequest)
  | makeup (req : DailyRollGetOrCreateRequest)
  | snapshot (req : DailyRollSnapshotRequest)
  | createEvent (req : EventCreateRequest)
  | consumeRoast (req : ConsumeRoastRequest)
  | consumeForce (req : ConsumeForceRequest)
  | grant (req : GrantProtectionRequest)
  | replaceGroup (req : ReplaceGroupProtectionsRequest)
  | bindMessage (req : RoastReservationBindMessageRequest)
  | joinByMessage (req : RoastReservationReplyJoinRequest)
  | prepare (req : RoastReservationPrepareRequest)
  | claim (req : RoastReservationClaimRequest)
  | waitingNotice (req : RoastWaitingNoticeRequest)
  | prepareOutcome (req : RoastReservationOutcomeRequest)
  | saveOutcome (req : RoastReservationOutcomeRequest)
  | markSending (req : RoastReservationMutationRequest)
  | complete (req : RoastReservationCompleteRequest)
  | release (req : RoastReservationMutationRequest)

/-- What a transaction answers.  `rejected` is an HTTP error or a transaction a unique
key rolled back; `rollInFlight` has no answer yet. -/
inductive Response
  | rejected
  | rollInFlight
  | lookup (response : DailyRollLookupResponse)
  | snapshot (response : DailyRollOutcomeSnapshot)
  | event (response : EventCreateResponse)
  | roast (response : ConsumeRoastResponse)
  | ok (value : Bool)
  | grant (response : GrantProtectionResponse)
  | prepare (response : RoastReservationPrepareResponse)
  | claim (response : RoastReservationClaimResponse)
  | mutation (response : RoastReservationMutationResponse)
deriving DecidableEq

/-- A request between its two commits. -/
inductive Flight
  | roll (flight : RollInFlight)
  | prepare (flight : PrepareInFlight)
deriving DecidableEq

/-- What a transaction leaves behind. -/
structure Commit where
  response : Response
  flights : List Flight := []
  db : Db

/-- The first, or only, transaction of a request that sees the rolls `rolls`. -/
def Request.transaction (e : Env) (rolls : List DailyRoll) (db : Db) : Request → Commit
  | .getOrCreate req =>
      match getOrCreateDailyRoll e req db with
      | (.inl response, db) => { response := .lookup response, db }
      | (.inr flight, db) => { response := .rollInFlight, flights := [.roll flight], db }
  | .makeup req =>
      match makeupDailyRoll e req db with
      | none => { response := .rejected, db }
      | some (response, db) => { response := .lookup response, db }
  | .snapshot req =>
      match completeDailyRollSnapshot req db with
      | .error _ => { response := .rejected, db }
      | .ok (response, db) => { response := .snapshot response, db }
  | .createEvent req =>
      let (response, db) := RollPig.createEvent e req db
      { response := .event response, db }
  | .consumeRoast req =>
      let (response, db) :=
        consumeRoastUsage e req.userId req.nowTs req.cooldownSeconds req.maxCharges db
      { response := .roast response, db }
  | .consumeForce req =>
      match consumeForceUsage req.userId req.dateStr db with
      | none => { response := .ok false, db }
      | some db => { response := .ok true, db }
  | .grant req =>
      match grantProtection e req db with
      | none => { response := .rejected, db }
      | some (response, db) => { response := .grant response, db }
  | .replaceGroup req => { response := .ok true, db := RollPig.replaceGroup e req db }
  | .bindMessage req =>
      let (ok, db) := RollPig.bindMessage req db
      { response := .ok ok, db }
  | .joinByMessage req =>
      match RollPig.joinByMessage e rolls req db with
      | .error _ => { response := .rejected, db }
      | .ok (response, db) => { response := .prepare response, db }
  | .prepare req =>
      match prepareReservation e rolls req none (e.uuid 0) db with
      | .error _ => { response := .rejected, db }
      | .ok (response, db) =>
          { response := .prepare response, db,
            flights := if response.reconciles then
              [.prepare { dateStr := req.dateStr, targetId := req.targetId, response }] else [] }
  | .claim req =>
      let (response, db) := RollPig.claim e req db
      { response := .claim response, db }
  | .waitingNotice req =>
      let (ok, db) := transitionWaitingNotice e req db
      { response := .ok ok, db }
  | .prepareOutcome req =>
      let (response, db) := RollPig.prepareOutcomeOnce e req db
      { response := .mutation response, db }
  | .saveOutcome req =>
      let (response, db) := RollPig.saveOutcome req db
      { response := .mutation response, db }
  | .markSending req =>
      let (response, db) := RollPig.markSending req db
      { response := .mutation response, db }
  | .complete req =>
      let (response, db) := RollPig.complete e req db
      { response := .mutation response, db }
  | .release req =>
      let (response, db) := RollPig.release req db
      { response := .mutation response, db }

/-- The second transaction of a request in flight. -/
def Flight.transaction (e : Env) (db : Db) : Flight → Commit
  | .roll flight =>
      let (response, db) := reconcileReservationsAfterCommit e flight db
      { response := .lookup response, db }
  | .prepare flight =>
      let (response, db) := reconcilePrepare e flight db
      { response := .prepare response, db }

/-! ### The system -/

/-- The database, the requests between their commits, every version of `daily_rolls`
that was committed, and every uuid that was issued. -/
structure World where
  db : Db := {}
  flights : List Flight := []
  rollVersions : List (List DailyRoll) := [[]]
  issued : Set String := ∅

/-- A transaction: a request that sees some version of the rolls, or the second half of
a request in flight. -/
inductive Action
  | request (request : Request) (rolls : List DailyRoll)
  | reconcile (flight : Flight)

structure Event where
  env : Env
  action : Action
  response : Response

/-- `uuid4` returns non-empty tokens it never returned before. -/
structure Env.Fresh (e : Env) (issued : Set String) : Prop where
  injective : Function.Injective e.uuid
  unissued : ∀ i, e.uuid i ∉ issued
  nonempty : ∀ i, e.uuid i ≠ ""

/-- The action is possible: the rolls it sees were committed, the request it finishes is
in flight. -/
def Action.Enabled (w : World) : Action → Prop
  | .request _ rolls => rolls ∈ w.rollVersions
  | .reconcile flight => flight ∈ w.flights

def Action.transaction (e : Env) (db : Db) : Action → Commit
  | .request r rolls => r.transaction e rolls db
  | .reconcile flight => flight.transaction e db

/-- The requests in flight while the action runs. -/
def Action.otherFlights (flights : List Flight) : Action → List Flight
  | .request _ _ => flights
  | .reconcile flight => flights.erase flight

/-- The world after a transaction. -/
def World.after (w : World) (e : Env) (action : Action) : World :=
  let commit := action.transaction e w.db
  { db := commit.db
    flights := commit.flights ++ action.otherFlights w.flights
    rollVersions := commit.db.dailyRolls :: w.rollVersions
    issued := w.issued ∪ Set.range e.uuid }

/-- The service, started on an empty database. -/
def service : Transition.System World Event where
  init w := w = {}
  step w event w' :=
    event.env.Fresh w.issued ∧ event.action.Enabled w ∧
      event.response = (event.action.transaction event.env w.db).response ∧
      w' = w.after event.env event.action

end RollPig
