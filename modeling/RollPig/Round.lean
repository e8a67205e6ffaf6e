/-
The life of one round.

A round is a reservation row with its roster.  Whatever a transaction does to the
tables, each round it touches moves by one of the steps below, and a round only comes
into being by `RoundBirth`.  The steps are the row rewrites of the source, each with
the guard under which the source performs it, so that a property of single rounds is
proved by looking at the steps, without the tables around them.
-/
import RollPig.System
import Mathlib.Logic.Relation

namespace RollPig

structure Round where
  row : RoastReservation
  members : List RoastReservationParticipant

/-- The round of a stored row. -/
def Db.round (db : Db) (row : RoastReservation) : Round :=
  { row, members := db.members row.reservationId }

/-- The user really rolled this pig that day: a makeup is no presence. -/
def Rolled (rolls : List DailyRoll) (date : Date) (userId pigId : String) : Prop :=
  ∃ roll ∈ rolls,
    roll.dateStr = date ∧ roll.userId = userId ∧ roll.pigId = pigId ∧ roll.isMakeup = false

/-- A participant's contribution is raised to two. -/
def boostMember (userId : String) (members : List RoastReservationParticipant) :
    List RoastReservationParticipant :=
  members.map fun member =>
    if member.userId = userId then { member with contribution := 2 } else member

/-- The roster after a new user joined. -/
def enlisted (e : Env) (req : RoastReservationPrepareRequest) (row : RoastReservation)
    (members : List RoastReservationParticipant) : List RoastReservationParticipant :=
  members ++ [newParticipant e row.reservationId req (if boosts req row then 2 else 1)]

/-- The requests that copy protections into the waiting rounds. -/
def Request.syncs : Request → Prop
  | .grant _ | .replaceGroup _ => True
  | _ => False

/-- What a transaction may do to rounds: copy protections into them, admit a prepare
request, serve a claim, report on a delivery, and hand out tokens. -/
structure Warrant where
  syncs : Prop := False
  prepares : RoastReservationPrepareRequest → Prop := fun _ => False
  claims : RoastReservationClaimRequest → Prop := fun _ => False
  reports : Prop := False
  issues : String → Prop := fun _ => False

/-- A reply is admitted as the prepare request it stands for. -/
def Request.warrant (e : Env) : Request → Warrant
  | .grant _ | .replaceGroup _ => { syncs := True }
  | .prepare req => { prepares := fun r => r = req }
  | .joinByMessage req =>
      { prepares := fun r => ∃ reservation roll, r = replyRequest req reservation roll }
  | .claim req => { claims := fun r => r = req, issues := fun token => token ∈ Set.range e.uuid }
  | .waitingNotice _ | .prepareOutcome _ | .saveOutcome _ | .markSending _ | .complete _
  | .release _ => { reports := True }
  | _ => {}

def Event.warrant (event : Event) : Warrant :=
  match event.action with
  | .request r _ => r.warrant event.env
  | .reconcile _ => {}

/-- One step of a round in a transaction with this warrant, where the rolls committed so
far are `rolls`. -/
inductive RoundStep (warrant : Warrant) (rolls : List DailyRoll) : Round → Round → Prop
  /-- A prepare meets a round that left `pending`; at most its bot changes. -/
  | busy {row members} (req : RoastReservationPrepareRequest) (hstatus : row.status ≠ .pending)
      (hcan : canReassignProtectedDelivery row req = true) (hadmits : warrant.prepares req) :
      RoundStep warrant rolls ⟨row, members⟩ ⟨updateDeliveryCapability row req, members⟩
  /-- A participant asks again. -/
  | confirm {row members} (req : RoastReservationPrepareRequest) (hopen : row.status = .pending)
      (hforce : row.forceMode ≠ some "super") (hadmits : warrant.prepares req) :
      RoundStep warrant rolls ⟨row, members⟩
        ⟨{ updateDeliveryCapability row req with waitingNotice := none }, members⟩
  /-- A user joins. -/
  | join {row members} (e : Env) (req : RoastReservationPrepareRequest) (roll : Option DailyRoll)
      (hopen : row.status = .pending) (hforce : row.forceMode ≠ some "super")
      (hreq : req.forceMode ≠ some "super")
      (hroll : ∀ r ∈ roll, Rolled rolls row.dateStr row.targetId r.pigId)
      (hnew : ∀ member ∈ members, member.userId ≠ req.attackerId)
      (hroom : members.length < roastReservationMaxParticipants)
      (hadmits : warrant.prepares req) :
      RoundStep warrant rolls ⟨row, members⟩
        ⟨joinedRow e req roll row (enlisted e req row members), enlisted e req row members⟩
  /-- A participant pays a force use to count double. -/
  | upgrade {row members} (e : Env) (req : RoastReservationPrepareRequest)
      (roll : Option DailyRoll) (hopen : row.status = .pending)
      (hforce : row.forceMode ≠ some "super") (hreq : req.forceMode ≠ some "super")
      (hroll : ∀ r ∈ roll, Rolled rolls row.dateStr row.targetId r.pigId)
      (hboost : boosts req row = true)
      (hmember : ∃ member ∈ members, member.userId = req.attackerId)
      (hadmits : warrant.prepares req) :
      RoundStep warrant rolls ⟨row, members⟩
        ⟨joinedRow e req roll row (boostMember req.attackerId members),
         boostMember req.attackerId members⟩
  /-- A super force takes the round over. -/
  | takeover {row members} (e : Env) (req : RoastReservationPrepareRequest)
      (roll : Option DailyRoll) (hopen : row.status = .pending)
      (hforce : row.forceMode ≠ some "super") (hreq : req.forceMode = some "super")
      (hgathers : req.gathers = true)
      (hroll : ∀ r ∈ roll, Rolled rolls row.dateStr row.targetId r.pigId)
      (hadmits : warrant.prepares req) :
      RoundStep warrant rolls ⟨row, members⟩
        ⟨activateIfArrived e members (takenOver row members req) (arrivedPigId row roll), members⟩
  /-- A protection of the target is copied into the round. -/
  | sync {row members} (e : Env) (protection : GroupProtection) (removed : Bool) (hsyncs : warrant.syncs)
      (hopen : row.status = .pending) (hforce : row.forceMode ≠ some "super") :
      RoundStep warrant rolls ⟨row, members⟩
        ⟨syncReservation e protection removed (syncMembers removed row members) row,
         syncMembers removed row members⟩
  /-- The target arrives. -/
  | arrive {row members} (e : Env) (pigId handledId : String) (hopen : row.status = .pending)
      (hroll : Rolled rolls row.dateStr row.targetId pigId) :
      RoundStep warrant rolls ⟨row, members⟩ ⟨(arriveRow e pigId handledId row members).1, members⟩
  /-- The delivering bot declares that it knows gathering. -/
  | capability {row members} (req : RoastReservationClaimRequest)
      (hcan : declaresCapability req row = true) (hserves : warrant.claims req) :
      RoundStep warrant rolls ⟨row, members⟩ ⟨{ row with deliveryGatheringVersion := 2 }, members⟩
  /-- The round is leased under a token. -/
  | lease {row members} (e : Env) (req : RoastReservationClaimRequest) (token : String)
      (hcan : claimable e req row = true) (hserves : warrant.claims req)
      (hissues : warrant.issues token) :
      RoundStep warrant rolls ⟨row, members⟩ ⟨leaseRow e req token row, members⟩
  /-- The waiting notice is leased under a token. -/
  | leaseNotice {row members} (e : Env) (req : RoastReservationClaimRequest) (token : String)
      (hcan : noticeClaimable e req row = true) (hserves : warrant.claims req)
      (hissues : warrant.issues token) :
      RoundStep warrant rolls ⟨row, members⟩ ⟨leaseNotice e token row, members⟩
  /-- The waiting notice moves on. -/
  | notice {row members} (notice : WaitingNotice) (hopen : row.status = .pending)
      (hreports : warrant.reports) (before : WaitingNotice)
      (hbefore : row.waitingNotice = some before) (action : NoticeAction)
      (hnext : advanceNotice before action = some notice) :
      RoundStep warrant rolls ⟨row, members⟩ ⟨{ row with waitingNotice := some notice }, members⟩
  /-- The first result is stored and settled. -/
  | settle {row members} (snapshot : OutcomeSnapshot) (results : List DailyFeedResult)
      (hstatus : row.status = .processing) (hnone : row.outcomeSnapshot = none)
      (hreports : warrant.reports) :
      RoundStep warrant rolls ⟨row, members⟩
        ⟨markPrepared { row with
          outcomeSnapshot := some snapshot, dailyFeedResults := some results }, members⟩
  /-- The stored result is confirmed. -/
  | confirmOutcome {row members} (hstatus : row.status ≠ .pending)
      (hsome : row.outcomeSnapshot.isSome = true) (hreports : warrant.reports) :
      RoundStep warrant rolls ⟨row, members⟩ ⟨markPrepared row, members⟩
  /-- The old endpoint stores the result and sends. -/
  | save {row members} (snapshot : OutcomeSnapshot) (hstatus : row.status = .processing)
      (hsnapshot : row.outcomeSnapshot = none ∨ row.outcomeSnapshot = some snapshot)
      (hreports : warrant.reports) :
      RoundStep warrant rolls ⟨row, members⟩
        ⟨{ row with outcomeSnapshot := some snapshot, status := .sending }, members⟩
  /-- The final message is ready. -/
  | send {row members} (hstatus : row.status = .prepared)
      (hsome : row.outcomeSnapshot.isSome = true) (hreports : warrant.reports) :
      RoundStep warrant rolls ⟨row, members⟩ ⟨{ row with status := .sending }, members⟩
  | complete {row members} (e : Env) (hstatus : row.status = .sending) (hreports : warrant.reports) :
      RoundStep warrant rolls ⟨row, members⟩ ⟨completedRow e row, members⟩
  /-- The lease is given back. -/
  | release {row members} (hstatus : row.status = .processing ∨ row.status = .prepared)
      (hreports : warrant.reports) :
      RoundStep warrant rolls ⟨row, members⟩
        ⟨{ row with status := .ready, claimToken := none, claimedAt := none }, members⟩

/-- A round as a prepare creates it.  A protected one is only created by a client that
knows gathering, or as a super round. -/
inductive RoundBirth (rolls : List DailyRoll) : Round → Prop
  | intro (e : Env) (req : RoastReservationPrepareRequest) (roll : Option DailyRoll)
      (protection : Option GroupProtection) (reservationId : String)
      (hroll : ∀ r ∈ roll, Rolled rolls req.dateStr req.targetId r.pigId)
      (hgate : protection.isSome = true → req.gathers = true ∨ req.forceMode = some "super") :
      RoundBirth rolls
        ⟨insertedRow e req roll protection reservationId,
         [ownerParticipant e req protection reservationId]⟩

/-- Any number of steps. -/
abbrev RoundSteps (warrant : Warrant) (rolls : List DailyRoll) : Round → Round → Prop :=
  Relation.ReflTransGen (RoundStep warrant rolls)

end RollPig
