/-
The refills of all groups as a transition system.

One step is one request.  The rest of the service never touches the requests, so whatever it
does to the database in between is one kind of step here, and the requests start from an empty
table beside any database.
-/
import RollPig.Routers.RoastRefills
import RollPig.Transition

namespace RollPig

inductive RefillRequest
  | prepare (req : GroupRoastRefillPrepareRequest)
  | bind (req : GroupRoastRefillBindRequest)
  | active (groupId : String) (date : Date) (nowTs : Option Rat)
  | fail (req : GroupRoastRefillFailRequest)
  | complete (req : GroupRoastRefillCompleteRequest)

inductive RefillResponse
  | failed
  | prepare (response : GroupRoastRefillPrepareResponse)
  | lookup (request : Option GroupRoastRefillItem)
  | allowed (value : Bool)
  | complete (response : GroupRoastRefillCompleteResponse)

/-- The transaction of a request. -/
def RefillRequest.transaction (e : Env) (s : RefillStore) :
    RefillRequest → RefillResponse × RefillStore
  | .prepare req =>
      match RoastRefills.prepare e req s with
      | none => (.failed, s)
      | some (response, s) => (.prepare response, s)
  | .bind req =>
      let (item, s) := RoastRefills.bindMessage e req s
      (.lookup item, s)
  | .active groupId date nowTs =>
      let (item, s) := RoastRefills.getActive e groupId date nowTs s
      (.lookup item, s)
  | .fail req =>
      let (allowed, s) := RoastRefills.fail req s
      (.allowed allowed, s)
  | .complete req =>
      let (response, s) := RoastRefills.complete e req s
      (.complete response, s)

inductive RefillEvent
  | request (e : Env) (request : RefillRequest) (response : RefillResponse)
  /-- Anything the rest of the service does. -/
  | elsewhere (db : Db)

/-- The refills, started without any. -/
def refills : Transition.System RefillStore RefillEvent where
  init s := s.requests = []
  step s event s' :=
    match event with
    | .request e request response => (response, s') = request.transaction e s
    | .elsewhere db => s' = { s with db }

/-- The request a step completed. -/
def RefillEvent.succeeded : RefillEvent → Option GroupRoastRefillItem
  | .request _ _ (.complete response) => if response.completed then response.request else none
  | _ => none

/-- The request a step bound to a message. -/
def RefillEvent.bound : RefillEvent → Option GroupRoastRefillItem
  | .request _ (.bind _) (.lookup item) => item
  | _ => none

/-- The successes of a run, in the order they were committed. -/
def refillSuccesses (events : List RefillEvent) : List GroupRoastRefillItem :=
  events.filterMap RefillEvent.succeeded

end RollPig
