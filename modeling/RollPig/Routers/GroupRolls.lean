/-
First appearances in a group, `routers/group_rolls.py`.

A cutoff is compared in the clock of the stored rows; `database_cutoff_value` only
changes how it is written down.
-/
import RollPig.Services.Activity

namespace RollPig

/-- `mark_seen`: the first pig seen stays, a later call only marks the user active. -/
def markSeen (e : Env) (req : GroupRollMarkSeenRequest) (db : Db) : Db :=
  let db := if db.groupRolls.any fun row =>
      row.groupId = req.groupId ∧ row.userId = req.userId ∧ row.dateStr = req.dateStr then db
    else { db with
      groupRolls := db.groupRolls ++
        [({ dateStr := req.dateStr, groupId := req.groupId, userId := req.userId,
            pigId := req.pigId, seenAt := e.dbNow } : GroupRoll)] }
  markGroupActiveUsers e req.dateStr req.groupId [req.userId] db

/-- A row was there at the cutoff, if there is one. -/
def atCutoff (cutoffAt : Option Time) (stamp : Time) : Bool :=
  match cutoffAt with
  | none => true
  | some cutoff => stamp ≤ cutoff

/-- `get_group_rolls`. -/
def getGroupRolls (groupId : String) (date : Date) (cutoffAt : Option Time) (db : Db) :
    List GroupRollItem :=
  (db.groupRolls.filter fun row =>
    row.groupId = groupId ∧ row.dateStr = date ∧ atCutoff cutoffAt row.seenAt).map fun row =>
      { userId := row.userId, pigId := row.pigId }

end RollPig
