/-
The endpoints under `/v1/group-roast-refills`, `routers/roast_refills.py`.

Each is one transaction.  `prepare` starts anew, with a new uuid, when a unique key was taken.
-/
import RollPig.Services.RoastRefills

namespace RollPig

namespace RoastRefills

/-- `mark_active_users`. -/
def markActiveUsers (e : Env) (date : Date) (groupId : String) (userIds : List String)
    (s : RefillStore) : Bool × RefillStore :=
  (true, { s with db := markGroupActiveUsers e date groupId userIds s.db })

/-- The attempts of `prepare`, one for each uuid; `none` is the `RuntimeError` after them. -/
def prepareAttempts (e : Env) (req : GroupRoastRefillPrepareRequest) (s : RefillStore) :
    List String → Option (GroupRoastRefillPrepareResponse × RefillStore)
  | [] => none
  | requestId :: rest =>
      match prepareRefill e requestId req s with
      | .ok result => some result
      | .error _ => prepareAttempts e req s rest

/-- `prepare`. -/
def prepare (e : Env) (req : GroupRoastRefillPrepareRequest) (s : RefillStore) :
    Option (GroupRoastRefillPrepareResponse × RefillStore) :=
  prepareAttempts e req s [e.uuid 0, e.uuid 1, e.uuid 2]

/-- `bind_message`, by the clock of the server. -/
def bindMessage (e : Env) (req : GroupRoastRefillBindRequest) (s : RefillStore) :
    Option GroupRoastRefillItem × RefillStore :=
  let (row, s) := bindRefillMessage e req.requestId req.messageId none s
  (row.map refillToSchema, s)

/-- `get_active`. -/
def getActive (e : Env) (groupId : String) (date : Date) (nowTs : Option Rat) (s : RefillStore) :
    Option GroupRoastRefillItem × RefillStore :=
  let (row, s) := getActiveRefill e date groupId nowTs s
  (row.map refillToSchema, s)

/-- `fail`. -/
def fail (req : GroupRoastRefillFailRequest) (s : RefillStore) : Bool × RefillStore :=
  failRefill req.requestId req.messageId req.reason s

/-- `complete`. -/
def complete (e : Env) (req : GroupRoastRefillCompleteRequest) (s : RefillStore) :
    GroupRoastRefillCompleteResponse × RefillStore :=
  completeRefill e req s

end RoastRefills

end RollPig
