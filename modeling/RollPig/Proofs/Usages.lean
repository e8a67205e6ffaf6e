/-
Who writes the usage table.

Only the two consumptions and the prepares do; for every other request it is not among the
tables it writes.
-/
import RollPig.Proofs.Footprints

namespace RollPig

theorem Flight.transaction_usage (e : Env) (db : Db) (flight : Flight) :
    (flight.transaction e db).db.userUsage = db.userUsage :=
  flight.transaction_writes e db .userUsage (by decide)

/-- The requests that may consume. -/
def Request.consumes : Request → Bool
  | .consumeRoast _ | .consumeForce _ | .prepare _ | .joinByMessage _ => true
  | _ => false

/-- **No other request writes the usage table.** -/
theorem Request.transaction_usage (e : Env) (db : Db) (view : List DailyRoll) {r : Request}
    (h : r.consumes = false) : (r.transaction e view db).db.userUsage = db.userUsage := by
  refine r.transaction_writes e view db .userUsage ?_
  cases r <;> simp_all [Request.consumes, Request.written]

end RollPig
