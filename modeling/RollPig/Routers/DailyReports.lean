/-
Daily reports, `routers/daily_reports.py`: what they show of a user, and who delivers them.

A delivery row is read first and written later by a guarded UPDATE, so the functions that
write it keep the two apart: they take the row as the session read it, which may be stale,
and the table as it is when the UPDATE runs.
-/
import RollPig.Schemas
import Mathlib.Data.List.Sort

namespace RollPig

/-! ### Timing -/

def dailyReportClaimTimeout : Int := minutes 5

def dailyReportRetryDelays : List Int := [30 * secondMicros, minutes 2, minutes 5]

def dailyReportMaxAttempts : Nat := 1 + dailyReportRetryDelays.length

/-- `dt.time(0, 10)`, as the time since midnight. -/
def dailyReportRetryCutoff : Int := minutes 10

/-- 00:10 of the next day in the business time zone. -/
def retryDeadline (dateStr : Date) : Time :=
  (dateStr + 1) * dayMicros + dailyReportRetryCutoff - 8 * 3600 * secondMicros

/-! ### Automatic failure -/

/-- The row as the session holds it after `session.refresh`. -/
def refresh (table : List DailyReportDelivery) (row : DailyReportDelivery) :
    DailyReportDelivery :=
  (Tables.lookup DailyReportDelivery.key table row.key).getD row

/-- The row still has the lease that was read. -/
def sameLease (row stored : DailyReportDelivery) : Bool :=
  stored.key = row.key ∧ stored.status = row.status ∧ stored.claimToken = row.claimToken ∧
    stored.attemptCount = row.attemptCount

/-- The row failed, and its lease is gone. -/
def DailyReportDelivery.fail (lastError : String) (stored : DailyReportDelivery) :
    DailyReportDelivery :=
  { stored with
    status := .failed
    nextAttemptAt := none
    lastError
    claimToken := none
    claimedAt := none
    instanceId := ""
    deliveryBotId := "" }

/-- `_fail_delivery_if_unchanged`: the row fails if its lease is still the one that was
read. -/
def failDeliveryIfUnchanged (row : DailyReportDelivery) (reason : String)
    (table : List DailyReportDelivery) : Bool × List DailyReportDelivery :=
  if row.status ≠ .pending ∧ row.status ≠ .claimed then (false, table)
  else
    (Tables.rowcount (sameLease row) table = 1,
      Tables.updateWhere (sameLease row)
        (DailyReportDelivery.fail (if row.lastError ≠ "" then row.lastError else reason)) table)

/-! ### Claiming -/

/-- `str(value)[:n]`. -/
def clip (n : Nat) (value : String) : String :=
  String.ofList (value.toList.take n)

/-- `candidates`: the groups with the bot that is to deliver, the last one named. -/
def DailyReportClaimRequest.candidate? (req : DailyReportClaimRequest) (groupId : String) :
    Option String :=
  (req.candidates.reverse.find? fun item =>
    item.groupId ≠ "" ∧ item.deliveryBotId ≠ "" ∧ item.groupId = groupId).map (·.deliveryBotId)

/-- The keys of `candidates`, in order. -/
def DailyReportClaimRequest.groups (req : DailyReportClaimRequest) : List String :=
  ((req.candidates.filter fun item => item.groupId ≠ "" ∧ item.deliveryBotId ≠ "").map
    (·.groupId)).dedup.insertionSort (· ≤ ·)

/-- The unique rows of the date and the candidate groups, created where they are missing. -/
def openDeliveries (req : DailyReportClaimRequest) (table : List DailyReportDelivery) :
    List DailyReportDelivery :=
  table ++ (req.groups.filter fun groupId =>
    (req.dateStr, groupId) ∉ table.map DailyReportDelivery.key).map fun groupId =>
      { dateStr := req.dateStr, groupId, cutoffAt := req.cutoffAt }

/-- The rows a claim reads. -/
def candidateRows (req : DailyReportClaimRequest) (table : List DailyReportDelivery) :
    List DailyReportDelivery :=
  req.groups.filterMap fun groupId =>
    Tables.lookup DailyReportDelivery.key table (req.dateStr, groupId)

def claimItem (row : DailyReportDelivery) : DailyReportClaimItem :=
  { dateStr := row.dateStr
    groupId := row.groupId
    deliveryBotId := row.deliveryBotId
    cutoffAt := row.cutoffAt
    claimToken := row.claimToken.getD ""
    status := row.status
    attemptCount := row.attemptCount }

/-- `same_owner_claim`: the lease the same worker was given a moment ago. -/
def sameOwnerClaim (now : Time) (instanceId botId : String) (row : DailyReportDelivery) : Bool :=
  row.status = .claimed ∧ row.claimToken ≠ none ∧
    row.claimedAt.any (fun at' => now - dailyReportClaimTimeout ≤ at') ∧
    row.instanceId = clip 64 instanceId ∧ row.deliveryBotId = botId

/-- `pending_due`, asked of the row that was read and again by the UPDATE. -/
def pendingDue (now : Time) (row : DailyReportDelivery) : Bool :=
  row.status = .pending ∧ row.cutoffAt ≤ now ∧ row.nextAttemptAt.all (· ≤ now)

/-- `stale_claim`, asked of the row that was read and again by the UPDATE. -/
def staleClaim (now : Time) (row : DailyReportDelivery) : Bool :=
  row.status = .claimed ∧ row.claimedAt.all (· < now - dailyReportClaimTimeout)

/-- What the claim loop makes of one row: the item it returns, the row as the session
holds it afterwards, and the table. -/
structure DeliveryClaim where
  item : Option DailyReportClaimItem := none
  row : DailyReportDelivery
  table : List DailyReportDelivery

/-- The row fails, and the loop goes on. -/
def failDelivery (row : DailyReportDelivery) (reason : String) (table : List DailyReportDelivery) :
    DeliveryClaim :=
  let table := (failDeliveryIfUnchanged row reason table).2
  { row := refresh table row, table }

/-- The row may still be claimed, and nobody claimed it since it was read. -/
def claimGuard (now : Time) (row stored : DailyReportDelivery) : Bool :=
  stored.key = row.key ∧ stored.attemptCount = row.attemptCount ∧
    (pendingDue now stored ∨ staleClaim now stored)

/-- The row claimed under a token. -/
def DailyReportDelivery.lease (now : Time) (instanceId botId token : String) (attemptCount : Nat)
    (stored : DailyReportDelivery) : DailyReportDelivery :=
  { stored with
    status := .claimed
    instanceId := clip 64 instanceId
    deliveryBotId := botId
    claimToken := some token
    claimedAt := some now
    attemptCount
    nextAttemptAt := none }

/-- The guarded UPDATE that leases a row under a fresh token. -/
def leaseDelivery (now : Time) (instanceId botId token : String) (row : DailyReportDelivery)
    (table : List DailyReportDelivery) : DeliveryClaim :=
  let won := Tables.rowcount (claimGuard now row) table = 1
  let table := Tables.updateWhere (claimGuard now row)
    (DailyReportDelivery.lease now instanceId botId token (row.attemptCount + 1)) table
  let row := refresh table row
  { item := if won then some (claimItem row) else none, row, table }

/-- The body of the loop of `_claim_once`, on a row read before. -/
def claimDelivery (now : Time) (instanceId botId token : String) (row : DailyReportDelivery)
    (table : List DailyReportDelivery) : DeliveryClaim :=
  if retryDeadline row.dateStr ≤ now ∧ (row.status = .pending ∨ row.status = .claimed) then
    failDelivery row "retry_deadline_exceeded" table
  else if sameOwnerClaim now instanceId botId row then
    -- The answer may have been lost after the commit: the lease is found again.
    { item := some (claimItem row), row, table }
  else if ¬ pendingDue now row ∧ ¬ staleClaim now row then { row, table }
  else if dailyReportMaxAttempts ≤ row.attemptCount then
    failDelivery row "retry_attempts_exhausted" table
  else leaseDelivery now instanceId botId token row table

/-- The loop of `_claim_once` over the rows it read, the i-th with its own token. -/
def claimDeliveries (now : Time) (req : DailyReportClaimRequest) :
    List DailyReportDelivery → (Nat → String) → List DailyReportDelivery →
      List DailyReportClaimItem × List DailyReportDelivery × List DailyReportDelivery
  | [], _, table => ([], [], table)
  | row :: rows, uuid, table =>
      let botId := clip 64 ((req.candidate? row.groupId).getD "")
      let claim := claimDelivery now req.instanceId botId (uuid 0) row table
      let (items, rows, table) := claimDeliveries now req rows (fun i => uuid (i + 1)) claim.table
      (claim.item.toList ++ items, claim.row :: rows, table)

/-- The moment a row is worth claiming again. -/
def nextClaimOf (claimedTokens : List String) (now : Time) (row : DailyReportDelivery) :
    Option Time :=
  let candidate := match row.status with
    | .pending => some (max row.cutoffAt (row.nextAttemptAt.getD row.cutoffAt))
    | .claimed =>
        if row.claimToken.any (· ∈ claimedTokens) then none
        else some (row.claimedAt.getD now + dailyReportClaimTimeout)
    | _ => none
  candidate.filter (· < retryDeadline row.dateStr)

/-- `_next_claim_at`. -/
def nextClaimAt (rows : List DailyReportDelivery) (claimedTokens : List String) (now : Time) :
    Option Time :=
  (rows.filterMap (nextClaimOf claimedTokens now)).min?

/-- `_claim_once`, executed alone. -/
def claimOnce (now : Time) (uuid : Nat → String) (req : DailyReportClaimRequest)
    (table : List DailyReportDelivery) :
    DailyReportClaimResponse × List DailyReportDelivery :=
  if req.groups = [] then ({}, table)
  else
    let table := openDeliveries req table
    let (items, rows, table) := claimDeliveries now req (candidateRows req table) uuid table
    ({ items, nextClaimAt := nextClaimAt rows (items.map (·.claimToken)) now }, table)

/-! ### Transitions -/

/-- `ok=False`, with the row as the session holds it. -/
def refusal (row : DailyReportDelivery) : DailyReportTransitionResponse :=
  { ok := false
    status := some row.status
    attemptCount := row.attemptCount
    nextAttemptAt := row.nextAttemptAt }

/-- What an action asks of the row and what it makes of it. -/
structure TransitionPlan where
  allowedStatuses : List DeliveryStatus
  responseStatus : DeliveryStatus
  responseNextAttemptAt : Option Time := none
  values : DailyReportDelivery → DailyReportDelivery

/-- A status with nothing left to wait for. -/
def settleStatus (status : DeliveryStatus) (req : DailyReportTransitionRequest)
    (stored : DailyReportDelivery) : DailyReportDelivery :=
  { stored with lastError := clip 512 req.error, status, nextAttemptAt := none }

/-- Where `release` and `retry` lead: back to waiting, or to failure when the delays are
used up or the deadline is too near. -/
def retryAt (now : Time) (row : DailyReportDelivery) : DeliveryStatus × Option Time :=
  match dailyReportRetryDelays[row.attemptCount - 1]? with
  | none => (.failed, none)
  | some delay =>
      if retryDeadline row.dateStr ≤ now + delay then (.failed, none)
      else (.pending, some (now + delay))

/-- `release` and `retry` differ in the statuses they start from. -/
def returnPlan (allowedStatuses : List DeliveryStatus) (now : Time)
    (req : DailyReportTransitionRequest) (row : DailyReportDelivery) : TransitionPlan :=
  let (status, nextAttemptAt) := retryAt now row
  { allowedStatuses
    responseStatus := status
    responseNextAttemptAt := nextAttemptAt
    values := fun stored => { stored with
      lastError := clip 512 req.error
      status
      nextAttemptAt
      claimToken := none
      claimedAt := none
      instanceId := ""
      deliveryBotId := "" } }

def transitionPlan (now : Time) (req : DailyReportTransitionRequest) (row : DailyReportDelivery) :
    TransitionPlan :=
  match req.action with
  | .sending =>
      { allowedStatuses := [.claimed, .sending], responseStatus := .sending
        values := settleStatus .sending req }
  | .sent =>
      { allowedStatuses := [.sending, .sent], responseStatus := .sent
        values := fun stored => { settleStatus .sent req stored with
          sentAt := some (stored.sentAt.getD now)
          messageId := if req.messageId ≠ "" then clip 128 req.messageId else stored.messageId } }
  | .release => returnPlan [.claimed] now req row
  | .retry => returnPlan [.sending] now req row
  | .uncertain =>
      { allowedStatuses := [.sending, .uncertain], responseStatus := .uncertain
        values := settleStatus .uncertain req }
  | .skip =>
      { allowedStatuses := [.claimed, .skipped], responseStatus := .skipped
        values := settleStatus .skipped req }

/-- The row still carries the token, in a status the action may start from. -/
def planGuard (plan : TransitionPlan) (req : DailyReportTransitionRequest)
    (row stored : DailyReportDelivery) : Bool :=
  stored.key = row.key ∧ stored.claimToken = some req.claimToken ∧
    stored.status ∈ plan.allowedStatuses ∧ stored.attemptCount = row.attemptCount

/-- The guarded UPDATE of a transition: a lost race answers with the winner's row. -/
def applyPlan (plan : TransitionPlan) (req : DailyReportTransitionRequest)
    (row : DailyReportDelivery) (table : List DailyReportDelivery) :
    DailyReportTransitionResponse × List DailyReportDelivery :=
  if Tables.rowcount (planGuard plan req row) table = 1 then
    ({ ok := true
       status := some plan.responseStatus
       attemptCount := row.attemptCount
       nextAttemptAt := plan.responseNextAttemptAt },
     Tables.updateWhere (planGuard plan req row) plan.values table)
  else
    match Tables.lookup DailyReportDelivery.key table (req.dateStr, req.groupId) with
    | none => ({ ok := false }, table)
    | some current => (refusal current, table)

/-- The row a transition is about, if its token is the one the worker holds. -/
def transitionRead (req : DailyReportTransitionRequest) (table : List DailyReportDelivery) :
    Option DailyReportDelivery :=
  (Tables.lookup DailyReportDelivery.key table (req.dateStr, req.groupId)).filter
    fun row => row.claimToken = some req.claimToken

/-- `transition_daily_report` after its read. -/
def transitionWrite (now : Time) (req : DailyReportTransitionRequest) (row : DailyReportDelivery)
    (table : List DailyReportDelivery) :
    DailyReportTransitionResponse × List DailyReportDelivery :=
  if req.action = .sending ∧ row.status = .claimed ∧ retryDeadline row.dateStr ≤ now then
    -- The deadline bounds the start of a sending only; what is being sent may still end.
    let table := (failDeliveryIfUnchanged row "retry_deadline_exceeded" table).2
    (refusal (refresh table row), table)
  else
    let plan := transitionPlan now req row
    if row.status ∉ plan.allowedStatuses then (refusal row, table)
    else applyPlan plan req row table

/-- `transition_daily_report`, executed alone. -/
def transitionDailyReport (now : Time) (req : DailyReportTransitionRequest)
    (table : List DailyReportDelivery) :
    DailyReportTransitionResponse × List DailyReportDelivery :=
  match transitionRead req table with
  | none => ({ ok := false }, table)
  | some row => transitionWrite now req row table

/-! ### Profiles

The queries are split into batches of users, which changes no answer; what follows is
what they select for one user.  Where a query selects at most one row, by a unique key, it
is a `find?`.
-/

/-- `_expert_level_from_roll`: none for a roll that froze no copies. -/
def expertLevelFromRoll (row : Option DailyRoll) (feedLevel : Option Int) : Option Int :=
  match row with
  | none => none
  | some row =>
      match row.copiesAfterRoll with
      | none => none
      | some copies =>
          let baseLevel := match row.expertLevelAfterRoll with
            | some level => level
            | none => max (copies - 1) 0
          let baseLevel := match feedLevel with
            | some level => max baseLevel level
            | none => baseLevel
          some (min (max baseLevel 0) 5)

/-- `group_rolls`: the pig the user was first seen with in the group. -/
def groupPigId (req : DailyReportProfileRequest) (userId : String) (db : Db) : String :=
  match db.groupRolls.find? fun row =>
      row.groupId = req.groupId ∧ row.dateStr = req.dateStr ∧ row.userId = userId ∧
        row.seenAt ≤ req.cutoffAt with
  | some row => row.pigId
  | none => ""

/-- `daily_rolls`. -/
def reportedRoll (req : DailyReportProfileRequest) (userId : String) (db : Db) :
    Option DailyRoll :=
  db.dailyRolls.find? fun row =>
    row.dateStr = req.dateStr ∧ row.userId = userId ∧ row.createdAt ≤ req.cutoffAt

/-- `collection_stats`: how many pigs the user had, and since when. -/
def collectionStats (req : DailyReportProfileRequest) (userId : String) (db : Db) :
    Nat × Option Time :=
  let rows := db.collections.filter fun row =>
    row.userId = userId ∧ row.firstSeenAt ≤ req.cutoffAt
  (rows.length, (rows.map (·.firstSeenAt)).max?)

/-- `recent_rolls`: the roll of the latest date that was rolled for by the cutoff.  Only
the date is looked for under the cutoff, not the roll. -/
def recentRoll (req : DailyReportProfileRequest) (userId : String) (db : Db) :
    Option DailyRoll :=
  let rows := db.dailyRolls.filter fun row =>
    row.userId = userId ∧ row.dateStr ≤ req.dateStr ∧ row.createdAt ≤ req.cutoffAt
  match (rows.map (·.dateStr)).max? with
  | none => none
  | some date => db.dailyRolls.find? fun row => row.userId = userId ∧ row.dateStr = date

/-- `latest_feeds`, by the same rule. -/
def latestFeed (req : DailyReportProfileRequest) (userId : String) (db : Db) :
    Option UserDailyFeed :=
  let rows := db.userDailyFeeds.filter fun row =>
    row.userId = userId ∧ row.dateStr ≤ req.dateStr ∧ row.createdAt ≤ req.cutoffAt
  match (rows.map (·.dateStr)).max? with
  | none => none
  | some date => db.userDailyFeeds.find? fun row => row.userId = userId ∧ row.dateStr = date

/-- The feed raised this very pig, within the levels there are. -/
def matchingFeed (pigId : String) (feed : UserDailyFeed) : Bool :=
  feed.pigId = pigId ∧ 0 ≤ feed.previousLevel ∧ feed.previousLevel < feed.newLevel ∧
    feed.newLevel ≤ 5

/-- The rows a profile is put together from. -/
structure ProfileRows where
  dailyPigId : String
  dailyRoll : Option DailyRoll
  feed : Option UserDailyFeed
  catalog : Nat × Option Time
  recent : Option DailyRoll

def profileRows (req : DailyReportProfileRequest) (userId : String) (db : Db) : ProfileRows :=
  { dailyPigId := groupPigId req userId db
    dailyRoll := reportedRoll req userId db
    feed := latestFeed req userId db
    catalog := collectionStats req userId db
    recent := recentRoll req userId db }

/-- One item of the response. -/
def profileItem (date : Date) (userId : String) (rows : ProfileRows) : DailyReportProfileItem :=
  let dailyRoll := rows.dailyRoll.filter fun roll => roll.pigId = rows.dailyPigId
  let feed := rows.feed.filter (matchingFeed rows.dailyPigId)
  let dailyBaseLevel := expertLevelFromRoll dailyRoll none
  let achievedAt := dailyRoll.map (·.createdAt)
  { userId
    dailyPigId := rows.dailyPigId
    dailyExLevel := expertLevelFromRoll dailyRoll (feed.map (·.newLevel))
    -- a feed of an earlier date is in the roll's own level and moves no time
    dailyAchievedAt := match feed, dailyBaseLevel with
      | some feed, some level =>
          if feed.dateStr = date ∧ level < feed.newLevel then some feed.createdAt else achievedAt
      | _, _ => achievedAt
    catalogCount := rows.catalog.1
    catalogAchievedAt := rows.catalog.2
    recentPigId := match rows.recent with
      | some roll => roll.pigId
      | none => ""
    recentExLevel := match rows.recent with
      | some roll => expertLevelFromRoll (some roll)
          ((rows.feed.filter fun feed => feed.pigId = roll.pigId).map (·.newLevel))
      | none => none }

/-- `get_daily_report_profiles`. -/
def getDailyReportProfiles (req : DailyReportProfileRequest) (db : Db) :
    List DailyReportProfileItem :=
  req.userIds.map fun userId => profileItem req.dateStr userId (profileRows req userId db)

end RollPig
