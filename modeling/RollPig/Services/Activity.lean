/-
Daily active users of a group, from `services/roast_refills.py`.
-/
import RollPig.Schemas
import Mathlib.Data.List.Sort
import Mathlib.Data.List.Dedup

namespace RollPig

/-- `sorted({str(user_id) for user_id in user_ids if user_id})`. -/
def normalizedIds (userIds : List String) : List String :=
  ((userIds.filter (· ≠ "")).dedup).insertionSort (· ≤ ·)

/-- Register users as active; a user already registered keeps the first time. -/
def markGroupActiveUsers (e : Env) (date : Date) (groupId : String) (userIds : List String)
    (db : Db) : Db :=
  if groupId = "" then db
  else
    let fresh := (normalizedIds userIds).filter fun userId =>
      !db.activeUsers.any fun row =>
        row.dateStr = date ∧ row.groupId = groupId ∧ row.userId = userId
    { db with
      activeUsers := db.activeUsers ++
        fresh.map fun userId => { dateStr := date, groupId, userId, activeAt := e.dbNow } }

end RollPig
