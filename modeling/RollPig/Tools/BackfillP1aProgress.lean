/-
The backfill of the growth tables, `tools/backfill_p1a_progress.py`.

Collections from before growth was counted get a progress of one copy, and their owners a
draw state.  As in the import, a lookup sees the rows the tool found only, and what it adds
is checked against the unique keys when it is committed.
-/
import RollPig.Staging
import RollPig.Models

namespace RollPig

open Tables

/-- The counts the tool prints. -/
structure BackfillReport where
  createdProgress : Nat
  createdDrawState : Nat
deriving DecidableEq, Repr

/-- The progress of a pig that was only collected. -/
def startingProgress (row : Collection) : UserPigProgress :=
  { userId := row.userId, pigId := row.pigId, copies := 1, firstObtainedAt := row.firstSeenAt }

/-- `main`; `none` if a lookup finds two rows or the commit meets a key twice. -/
def backfillP1aProgress (db : Db) : Option (BackfillReport × Db) := do
  let progress ← db.collections.foldlM
    (fun progress row =>
      progress.addMissing (fun row => (row.userId, row.pigId)) (startingProgress row))
    ({ stored := db.userPigProgress } : Staged UserPigProgress)
  let touchedUsers := (db.collections.map (·.userId)).dedup.insertionSort (· ≤ ·)
  let drawState ← touchedUsers.foldlM
    (fun drawState userId =>
      drawState.addMissing (·.userId) { userId := userId, duplicateStreak := 0 })
    ({ stored := db.userDrawState } : Staged UserDrawState)
  let userPigProgress ← progress.commit fun row => (row.userId, row.pigId)
  let userDrawState ← drawState.commit (·.userId)
  return ({ createdProgress := progress.added.length
            createdDrawState := drawState.added.length },
    { db with userPigProgress, userDrawState })

end RollPig
