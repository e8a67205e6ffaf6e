/-
The service together with the one writing endpoint that opens no round and draws no pig:
`mark-seen`.

It stands beside the transactions of `System`, so that a run here is any order of both.
-/
import RollPig.System
import RollPig.Routers.GroupRolls

namespace RollPig

inductive Operation
  | transaction (event : Event)
  | markSeen (e : Env) (req : GroupRollMarkSeenRequest)

/-- The world after a first appearance was marked; no roll and no token comes of it. -/
def World.seen (w : World) (e : Env) (req : GroupRollMarkSeenRequest) : World :=
  { w with db := markSeen e req w.db }

/-- The service with `mark-seen`, started on an empty database. -/
def api : Transition.System World Operation where
  init w := w = {}
  step w operation w' :=
    match operation with
    | .transaction event => service.step w event w'
    | .markSeen e req => w' = w.seen e req

end RollPig
