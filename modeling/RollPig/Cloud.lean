/-
The service together with the refills of its groups.

The requests for refills are a table beside the database, and one step is a transaction of
the service, an endpoint under `/v1/group-roast-refills`, or its `active-users/mark`.
-/
import RollPig.Api
import RollPig.Refills

namespace RollPig

structure Cloud where
  world : World := {}
  requests : List GroupRoastRefillRequest := []

/-- What the refills see. -/
def Cloud.store (c : Cloud) : RefillStore := { db := c.world.db, requests := c.requests }

/-- The cloud after a refill endpoint wrote the store. -/
def Cloud.put (c : Cloud) (s : RefillStore) : Cloud :=
  { world := { c.world with db := s.db }, requests := s.requests }

inductive CloudEvent
  | api (operation : Operation)
  | markActive (e : Env) (date : Date) (groupId : String) (userIds : List String)
  | refill (e : Env) (request : RefillRequest) (response : RefillResponse)

/-- Everything, started on an empty database. -/
def cloud : Transition.System Cloud CloudEvent where
  init c := c = {}
  step c event c' :=
    match event with
    | .api operation => api.step c.world operation c'.world ∧ c'.requests = c.requests
    | .markActive e date groupId userIds =>
        c' = c.put (RoastRefills.markActiveUsers e date groupId userIds c.store).2
    | .refill e request response =>
        response = (request.transaction e c.store).1 ∧ c' = c.put (request.transaction e c.store).2

/-- What the refills see of a step. -/
def CloudEvent.refill? (event : CloudEvent) (c' : Cloud) : RefillEvent :=
  match event with
  | .refill e request response => .request e request response
  | _ => .elsewhere c'.world.db

end RollPig
