/-
What each service function leaves alone.

A transaction is put together from functions that each write one or two tables.  For
every such function there is one simp lemma naming the tables it does not write, so
that a later proof about a whole transaction only ever looks at the writes that
matter to it.
-/
import RollPig.System

namespace RollPig

variable (e : Env) (db : Db)

/-! ### Flushes -/

@[simp] theorem flushReservations_frame (rows : List RoastReservation) :
    (db.flushReservations rows).dailyRolls = db.dailyRolls ∧
      (db.flushReservations rows).collections = db.collections ∧
      (db.flushReservations rows).userPigProgress = db.userPigProgress ∧
      (db.flushReservations rows).userDailyFeeds = db.userDailyFeeds ∧
      (db.flushReservations rows).userUsage = db.userUsage ∧
      (db.flushReservations rows).groupProtections = db.groupProtections ∧
      (db.flushReservations rows).participants = db.participants :=
  ⟨rfl, rfl, rfl, rfl, rfl, rfl, rfl⟩

@[simp] theorem flushParticipants_frame (rows : List RoastReservationParticipant) :
    (db.flushParticipants rows).dailyRolls = db.dailyRolls ∧
      (db.flushParticipants rows).collections = db.collections ∧
      (db.flushParticipants rows).userPigProgress = db.userPigProgress ∧
      (db.flushParticipants rows).userDailyFeeds = db.userDailyFeeds ∧
      (db.flushParticipants rows).userUsage = db.userUsage ∧
      (db.flushParticipants rows).groupProtections = db.groupProtections ∧
      (db.flushParticipants rows).reservations = db.reservations :=
  ⟨rfl, rfl, rfl, rfl, rfl, rfl, rfl⟩

@[simp] theorem flushProtection_frame (row : GroupProtection) :
    (db.flushProtection row).dailyRolls = db.dailyRolls ∧
      (db.flushProtection row).collections = db.collections ∧
      (db.flushProtection row).userPigProgress = db.userPigProgress ∧
      (db.flushProtection row).userDailyFeeds = db.userDailyFeeds ∧
      (db.flushProtection row).userUsage = db.userUsage ∧
      (db.flushProtection row).reservations = db.reservations ∧
      (db.flushProtection row).participants = db.participants :=
  ⟨rfl, rfl, rfl, rfl, rfl, rfl, rfl⟩

@[simp] theorem flushUsage_frame (row : UserUsage) :
    (db.flushUsage row).dailyRolls = db.dailyRolls ∧
      (db.flushUsage row).collections = db.collections ∧
      (db.flushUsage row).userPigProgress = db.userPigProgress ∧
      (db.flushUsage row).userDailyFeeds = db.userDailyFeeds ∧
      (db.flushUsage row).groupProtections = db.groupProtections ∧
      (db.flushUsage row).reservations = db.reservations ∧
      (db.flushUsage row).participants = db.participants :=
  ⟨rfl, rfl, rfl, rfl, rfl, rfl, rfl⟩

/-! ### Activity, events and usage -/

@[simp] theorem markGroupActiveUsers_frame (date : Date) (groupId : String)
    (userIds : List String) :
    (markGroupActiveUsers e date groupId userIds db).dailyRolls = db.dailyRolls ∧
      (markGroupActiveUsers e date groupId userIds db).collections = db.collections ∧
      (markGroupActiveUsers e date groupId userIds db).userPigProgress = db.userPigProgress ∧
      (markGroupActiveUsers e date groupId userIds db).userDailyFeeds = db.userDailyFeeds ∧
      (markGroupActiveUsers e date groupId userIds db).userUsage = db.userUsage ∧
      (markGroupActiveUsers e date groupId userIds db).groupProtections = db.groupProtections ∧
      (markGroupActiveUsers e date groupId userIds db).reservations = db.reservations ∧
      (markGroupActiveUsers e date groupId userIds db).participants = db.participants := by
  unfold markGroupActiveUsers
  split <;> simp

@[simp] theorem insertRoastEvent_frame (req : EventCreateRequest) :
    (insertRoastEvent e req db).dailyRolls = db.dailyRolls ∧
      (insertRoastEvent e req db).collections = db.collections ∧
      (insertRoastEvent e req db).userPigProgress = db.userPigProgress ∧
      (insertRoastEvent e req db).userDailyFeeds = db.userDailyFeeds ∧
      (insertRoastEvent e req db).groupProtections = db.groupProtections ∧
      (insertRoastEvent e req db).reservations = db.reservations ∧
      (insertRoastEvent e req db).participants = db.participants := by
  simp [insertRoastEvent]

@[simp] theorem recordRoastEventWithStatus_frame (req : EventCreateRequest)
    (item : Option RoastReservationItem) :
    (recordRoastEventWithStatus e req item db).2.dailyRolls = db.dailyRolls ∧
      (recordRoastEventWithStatus e req item db).2.collections = db.collections ∧
      (recordRoastEventWithStatus e req item db).2.userPigProgress = db.userPigProgress ∧
      (recordRoastEventWithStatus e req item db).2.userDailyFeeds = db.userDailyFeeds ∧
      (recordRoastEventWithStatus e req item db).2.groupProtections = db.groupProtections ∧
      (recordRoastEventWithStatus e req item db).2.reservations = db.reservations ∧
      (recordRoastEventWithStatus e req item db).2.participants = db.participants := by
  unfold recordRoastEventWithStatus
  by_cases hid : req.reservationId = ""
  · simp [hid]
  · simp only [hid, if_false]
    by_cases hevent : (db.roastEvents.any fun row => row.reservationId = req.reservationId) = true
    · simp [hevent]
    · simp [hevent]

/-- At most the charges of users differ. -/
def OnlyUsage (db db' : Db) : Prop :=
  db' = { db with userUsage := db'.userUsage }

theorem consumeRoastUsage_onlyUsage (userId : String) (nowTs : Option Rat)
    (cooldown charges : Option Int) :
    OnlyUsage db (consumeRoastUsage e userId nowTs cooldown charges db).2 := by
  unfold consumeRoastUsage
  cases db.usage? userId with
  | none => rfl
  | some usage =>
      dsimp only
      -- the stored bucket or the one a legacy row stands for, then empty or not
      split <;> split <;> rfl

@[simp] theorem consumeRoastUsage_frame (userId : String) (nowTs : Option Rat)
    (cooldown charges : Option Int) :
    (consumeRoastUsage e userId nowTs cooldown charges db).2.dailyRolls = db.dailyRolls ∧
      (consumeRoastUsage e userId nowTs cooldown charges db).2.collections = db.collections ∧
      (consumeRoastUsage e userId nowTs cooldown charges db).2.userPigProgress =
        db.userPigProgress ∧
      (consumeRoastUsage e userId nowTs cooldown charges db).2.userDailyFeeds =
        db.userDailyFeeds ∧
      (consumeRoastUsage e userId nowTs cooldown charges db).2.groupProtections =
        db.groupProtections ∧
      (consumeRoastUsage e userId nowTs cooldown charges db).2.reservations = db.reservations ∧
      (consumeRoastUsage e userId nowTs cooldown charges db).2.participants = db.participants := by
  have h := consumeRoastUsage_onlyUsage e db userId nowTs cooldown charges
  unfold OnlyUsage at h
  rw [h]
  exact ⟨rfl, rfl, rfl, rfl, rfl, rfl, rfl⟩

/-- A granted force use only writes `user_usage`. -/
theorem consumeForceUsage_some {userId : String} {date : Date} {db db' : Db}
    (h : consumeForceUsage userId date db = some db') : OnlyUsage db db' := by
  unfold OnlyUsage
  unfold consumeForceUsage at h
  cases husage : db.usage? userId with
  | none =>
      simp only [husage, Option.some.injEq] at h
      rw [← h]
  | some usage =>
      simp only [husage] at h
      split at h
      · simp at h
      · simp only [Option.some.injEq] at h
        rw [← h]
        rfl

/-- A granted payment for a boost only writes `user_usage`. -/
theorem payBoost_some {req : RoastReservationPrepareRequest} {boosted : Bool} {db db' : Db}
    (h : payBoost req boosted db = some db') : OnlyUsage db db' := by
  unfold payBoost at h
  cases boosted with
  | true => exact consumeForceUsage_some (by simpa using h)
  | false =>
      obtain rfl : db = db' := by simpa using h
      rfl

/-! ### Growth -/

@[simp] theorem ensureCollection_frame (userId pigId : String) :
    (ensureCollection e userId pigId db).dailyRolls = db.dailyRolls ∧
      (ensureCollection e userId pigId db).userPigProgress = db.userPigProgress ∧
      (ensureCollection e userId pigId db).userDailyFeeds = db.userDailyFeeds ∧
      (ensureCollection e userId pigId db).groupProtections = db.groupProtections ∧
      (ensureCollection e userId pigId db).reservations = db.reservations ∧
      (ensureCollection e userId pigId db).participants = db.participants := by
  unfold ensureCollection
  split <;> simp

@[simp] theorem flushProgress_frame (row : UserPigProgress) :
    (flushProgress db row).dailyRolls = db.dailyRolls ∧
      (flushProgress db row).collections = db.collections ∧
      (flushProgress db row).userDailyFeeds = db.userDailyFeeds ∧
      (flushProgress db row).groupProtections = db.groupProtections ∧
      (flushProgress db row).reservations = db.reservations ∧
      (flushProgress db row).participants = db.participants :=
  ⟨rfl, rfl, rfl, rfl, rfl, rfl⟩

@[simp] theorem applyCreatedRollProgress_frame (userId pigId : String) :
    (applyCreatedRollProgress e userId pigId db).2.dailyRolls = db.dailyRolls ∧
      (applyCreatedRollProgress e userId pigId db).2.userDailyFeeds = db.userDailyFeeds ∧
      (applyCreatedRollProgress e userId pigId db).2.groupProtections = db.groupProtections ∧
      (applyCreatedRollProgress e userId pigId db).2.reservations = db.reservations ∧
      (applyCreatedRollProgress e userId pigId db).2.participants = db.participants := by
  unfold applyCreatedRollProgress
  cases getProgress db userId pigId <;> cases getDrawState db userId <;> simp

@[simp] theorem applyDailyFeed_frame (date : Date) (userId sourceId : String)
    (sourceType : FeedSource) :
    (applyDailyFeed e date userId sourceType sourceId db).2.dailyRolls = db.dailyRolls ∧
      (applyDailyFeed e date userId sourceType sourceId db).2.collections = db.collections ∧
      (applyDailyFeed e date userId sourceType sourceId db).2.groupProtections =
        db.groupProtections ∧
      (applyDailyFeed e date userId sourceType sourceId db).2.reservations = db.reservations ∧
      (applyDailyFeed e date userId sourceType sourceId db).2.participants = db.participants := by
  unfold applyDailyFeed
  cases (db.dailyRoll? date userId).filter (!·.isMakeup) with
  | none => simp
  | some roll =>
      dsimp only
      cases db.userDailyFeeds.find? fun row => row.dateStr = date ∧ row.userId = userId with
      | some existing => simp
      | none =>
          dsimp only
          cases getProgress db userId roll.pigId <;> dsimp only <;> split <;> simp

@[simp] theorem feedUsers_frame (date : Date) (sourceId : String) (userIds : List String) :
    (feedUsers e date sourceId userIds db).2.dailyRolls = db.dailyRolls ∧
      (feedUsers e date sourceId userIds db).2.collections = db.collections ∧
      (feedUsers e date sourceId userIds db).2.groupProtections = db.groupProtections ∧
      (feedUsers e date sourceId userIds db).2.reservations = db.reservations ∧
      (feedUsers e date sourceId userIds db).2.participants = db.participants := by
  induction userIds generalizing db with
  | nil => simp [feedUsers]
  | cons userId rest ih => simp [feedUsers, ih]

@[simp] theorem settleFeeds_frame (row : RoastReservation) :
    (settleFeeds e row db).2.dailyRolls = db.dailyRolls ∧
      (settleFeeds e row db).2.collections = db.collections ∧
      (settleFeeds e row db).2.groupProtections = db.groupProtections ∧
      (settleFeeds e row db).2.reservations = db.reservations ∧
      (settleFeeds e row db).2.participants = db.participants := by
  simp [settleFeeds]

@[simp] theorem raiseSuccessCount_frame (row : RoastReservation)
    (req : RoastReservationOutcomeRequest) :
    (raiseSuccessCount row req db).dailyRolls = db.dailyRolls ∧
      (raiseSuccessCount row req db).collections = db.collections ∧
      (raiseSuccessCount row req db).userPigProgress = db.userPigProgress ∧
      (raiseSuccessCount row req db).userDailyFeeds = db.userDailyFeeds ∧
      (raiseSuccessCount row req db).reservations = db.reservations ∧
      (raiseSuccessCount row req db).participants = db.participants := by
  unfold raiseSuccessCount
  cases settledProtection db row with
  | none => simp
  | some protection =>
      dsimp only
      split <;> simp

/-! ### Rounds -/

@[simp] theorem lockProtection_frame (req : RoastReservationPrepareRequest) :
    (lockProtection req db).2.dailyRolls = db.dailyRolls ∧
      (lockProtection req db).2.collections = db.collections ∧
      (lockProtection req db).2.userPigProgress = db.userPigProgress ∧
      (lockProtection req db).2.userDailyFeeds = db.userDailyFeeds ∧
      (lockProtection req db).2.userUsage = db.userUsage ∧
      (lockProtection req db).2.reservations = db.reservations ∧
      (lockProtection req db).2.participants = db.participants := by
  unfold lockProtection
  cases db.protection? req.dateStr req.groupId req.targetId with
  | some protection => simp
  | none =>
      dsimp only
      cases db.protection? req.dateStr allGroups req.targetId with
      | none => simp
      | some legacy =>
          dsimp only
          split <;> simp

@[simp] theorem syncPendingProtection_frame (protection : GroupProtection) (removed : Bool)
    (groupId : Option String) :
    (syncPendingProtection e protection removed db groupId).dailyRolls = db.dailyRolls ∧
      (syncPendingProtection e protection removed db groupId).collections = db.collections ∧
      (syncPendingProtection e protection removed db groupId).userPigProgress =
        db.userPigProgress ∧
      (syncPendingProtection e protection removed db groupId).userDailyFeeds =
        db.userDailyFeeds ∧
      (syncPendingProtection e protection removed db groupId).groupProtections =
        db.groupProtections :=
  ⟨rfl, rfl, rfl, rfl, rfl⟩

@[simp] theorem activateTargetReservations_frame (date : Date) (targetId pigId handledId : String) :
    (activateTargetReservations e date targetId pigId db handledId).2.dailyRolls = db.dailyRolls ∧
      (activateTargetReservations e date targetId pigId db handledId).2.collections =
        db.collections ∧
      (activateTargetReservations e date targetId pigId db handledId).2.userPigProgress =
        db.userPigProgress ∧
      (activateTargetReservations e date targetId pigId db handledId).2.userDailyFeeds =
        db.userDailyFeeds ∧
      (activateTargetReservations e date targetId pigId db handledId).2.groupProtections =
        db.groupProtections ∧
      (activateTargetReservations e date targetId pigId db handledId).2.participants =
        db.participants := by
  unfold activateTargetReservations
  dsimp only
  split <;> split <;> simp

@[simp] theorem activateIfTargetAlreadyRolled_frame (date : Date) (targetId handledId : String) :
    (activateIfTargetAlreadyRolled e date targetId db handledId).2.dailyRolls = db.dailyRolls ∧
      (activateIfTargetAlreadyRolled e date targetId db handledId).2.collections =
        db.collections ∧
      (activateIfTargetAlreadyRolled e date targetId db handledId).2.userPigProgress =
        db.userPigProgress ∧
      (activateIfTargetAlreadyRolled e date targetId db handledId).2.userDailyFeeds =
        db.userDailyFeeds ∧
      (activateIfTargetAlreadyRolled e date targetId db handledId).2.groupProtections =
        db.groupProtections ∧
      (activateIfTargetAlreadyRolled e date targetId db handledId).2.participants =
        db.participants := by
  unfold activateIfTargetAlreadyRolled
  cases presentRoll db.dailyRolls date targetId <;> simp

@[simp] theorem storeGrant_frame (req : GrantProtectionRequest) :
    (storeGrant req db).2.2.dailyRolls = db.dailyRolls ∧
      (storeGrant req db).2.2.collections = db.collections ∧
      (storeGrant req db).2.2.userPigProgress = db.userPigProgress ∧
      (storeGrant req db).2.2.userDailyFeeds = db.userDailyFeeds ∧
      (storeGrant req db).2.2.reservations = db.reservations ∧
      (storeGrant req db).2.2.participants = db.participants := by
  unfold storeGrant
  cases db.protection? req.protectDate req.groupId req.userId <;> simp

/-- Taking users off the roster writes protections and waiting rounds only. -/
@[simp] theorem removeFromRoster_frame (req : ReplaceGroupProtectionsRequest)
    (row : GroupProtection) :
    (removeFromRoster e req row db).dailyRolls = db.dailyRolls ∧
      (removeFromRoster e req row db).collections = db.collections ∧
      (removeFromRoster e req row db).userPigProgress = db.userPigProgress ∧
      (removeFromRoster e req row db).userDailyFeeds = db.userDailyFeeds := by
  unfold removeFromRoster
  dsimp only
  split_ifs <;> simp [Db.deleteProtection]

/-- So does putting one on it. -/
@[simp] theorem addToRoster_frame (req : ReplaceGroupProtectionsRequest)
    (current previous : List GroupProtection) (userId : String) :
    (addToRoster e req current previous userId db).dailyRolls = db.dailyRolls ∧
      (addToRoster e req current previous userId db).collections = db.collections ∧
      (addToRoster e req current previous userId db).userPigProgress = db.userPigProgress ∧
      (addToRoster e req current previous userId db).userDailyFeeds = db.userDailyFeeds := by
  unfold addToRoster
  dsimp only
  split_ifs <;> simp

/-! ### Rolls -/

@[simp] theorem ensureGroupRoll_frame (groupId userId pigId : String) (date : Date) :
    (ensureGroupRoll e groupId userId pigId date db).dailyRolls = db.dailyRolls ∧
      (ensureGroupRoll e groupId userId pigId date db).collections = db.collections ∧
      (ensureGroupRoll e groupId userId pigId date db).userPigProgress = db.userPigProgress ∧
      (ensureGroupRoll e groupId userId pigId date db).userDailyFeeds = db.userDailyFeeds ∧
      (ensureGroupRoll e groupId userId pigId date db).groupProtections = db.groupProtections ∧
      (ensureGroupRoll e groupId userId pigId date db).reservations = db.reservations ∧
      (ensureGroupRoll e groupId userId pigId date db).participants = db.participants := by
  unfold ensureGroupRoll
  split
  · simp
  · dsimp only
    split <;> simp

@[simp] theorem registerReply_frame (req : RoastReservationReplyJoinRequest) (roll : DailyRoll) :
    (registerReply e req roll db).dailyRolls = db.dailyRolls ∧
      (registerReply e req roll db).collections = db.collections ∧
      (registerReply e req roll db).userPigProgress = db.userPigProgress ∧
      (registerReply e req roll db).userDailyFeeds = db.userDailyFeeds ∧
      (registerReply e req roll db).groupProtections = db.groupProtections ∧
      (registerReply e req roll db).reservations = db.reservations ∧
      (registerReply e req roll db).participants = db.participants := by
  unfold registerReply
  split <;> simp

@[simp] theorem createDailyRoll_frame (roll : DailyRoll) :
    (createDailyRoll e roll db).2.userDailyFeeds = db.userDailyFeeds ∧
      (createDailyRoll e roll db).2.groupProtections = db.groupProtections ∧
      (createDailyRoll e roll db).2.reservations = db.reservations ∧
      (createDailyRoll e roll db).2.participants = db.participants := by
  simp [createDailyRoll]

@[simp] theorem flushDailyRoll_frame (row : DailyRoll) :
    (db.flushDailyRoll row).collections = db.collections ∧
      (db.flushDailyRoll row).userPigProgress = db.userPigProgress ∧
      (db.flushDailyRoll row).userDailyFeeds = db.userDailyFeeds ∧
      (db.flushDailyRoll row).groupProtections = db.groupProtections ∧
      (db.flushDailyRoll row).reservations = db.reservations ∧
      (db.flushDailyRoll row).participants = db.participants :=
  ⟨rfl, rfl, rfl, rfl, rfl, rfl⟩

/-! ### Whole transactions -/

@[simp] theorem foldl_removeFromRoster_frame (req : ReplaceGroupProtectionsRequest)
    (rows : List GroupProtection) :
    (rows.foldl (fun db row => removeFromRoster e req row db) db).dailyRolls = db.dailyRolls ∧
      (rows.foldl (fun db row => removeFromRoster e req row db) db).collections = db.collections ∧
      (rows.foldl (fun db row => removeFromRoster e req row db) db).userPigProgress = db.userPigProgress ∧
      (rows.foldl (fun db row => removeFromRoster e req row db) db).userDailyFeeds = db.userDailyFeeds := by
  induction rows generalizing db with
  | nil => simp
  | cons row rest ih => simp [ih]

@[simp] theorem foldl_addToRoster_frame (req : ReplaceGroupProtectionsRequest)
    (current previous : List GroupProtection) (userIds : List String) :
    (userIds.foldl (fun db userId => addToRoster e req current previous userId db) db).dailyRolls = db.dailyRolls ∧
      (userIds.foldl (fun db userId => addToRoster e req current previous userId db) db).collections = db.collections ∧
      (userIds.foldl (fun db userId => addToRoster e req current previous userId db) db).userPigProgress = db.userPigProgress ∧
      (userIds.foldl (fun db userId => addToRoster e req current previous userId db) db).userDailyFeeds = db.userDailyFeeds := by
  induction userIds generalizing db with
  | nil => simp
  | cons userId rest ih => simp [ih]

@[simp] theorem replaceGroup_frame (req : ReplaceGroupProtectionsRequest) :
    (replaceGroup e req db).dailyRolls = db.dailyRolls ∧
      (replaceGroup e req db).collections = db.collections ∧
      (replaceGroup e req db).userPigProgress = db.userPigProgress ∧
      (replaceGroup e req db).userDailyFeeds = db.userDailyFeeds := by
  simp [replaceGroup, addMembers, removeLeavers]

@[simp] theorem createEvent_frame (req : EventCreateRequest) :
    ((createEvent e req db).2).dailyRolls = db.dailyRolls ∧
      ((createEvent e req db).2).collections = db.collections ∧
      ((createEvent e req db).2).groupProtections = db.groupProtections ∧
      ((createEvent e req db).2).reservations = db.reservations ∧
      ((createEvent e req db).2).participants = db.participants := by
  unfold createEvent
  dsimp only
  split_ifs <;> simp

@[simp] theorem bindMessage_frame (req : RoastReservationBindMessageRequest) :
    ((bindMessage req db).2).dailyRolls = db.dailyRolls ∧
      ((bindMessage req db).2).collections = db.collections ∧
      ((bindMessage req db).2).userPigProgress = db.userPigProgress ∧
      ((bindMessage req db).2).userDailyFeeds = db.userDailyFeeds ∧
      ((bindMessage req db).2).groupProtections = db.groupProtections ∧
      ((bindMessage req db).2).reservations = db.reservations ∧
      ((bindMessage req db).2).participants = db.participants := by
  unfold bindMessage
  dsimp only
  split
  · simp
  · split <;> simp

@[simp] theorem joinRound_frame (req : RoastReservationPrepareRequest)
    (roll : Option DailyRoll) (row : RoastReservation)
    (members : List RoastReservationParticipant) :
    ((joinRound e req roll row members db).2).dailyRolls = db.dailyRolls ∧
      ((joinRound e req roll row members db).2).collections = db.collections ∧
      ((joinRound e req roll row members db).2).userPigProgress = db.userPigProgress ∧
      ((joinRound e req roll row members db).2).userDailyFeeds = db.userDailyFeeds ∧
      ((joinRound e req roll row members db).2).groupProtections = db.groupProtections := by
  have hpay : ∀ boosted paid, payBoost req boosted db = some paid →
      paid.dailyRolls = db.dailyRolls ∧ paid.collections = db.collections ∧
        paid.userPigProgress = db.userPigProgress ∧ paid.userDailyFeeds = db.userDailyFeeds ∧
        paid.groupProtections = db.groupProtections := by
    intro boosted paid hpaid
    have hframe := payBoost_some hpaid
    unfold OnlyUsage at hframe
    rw [hframe]
    exact ⟨rfl, rfl, rfl, rfl, rfl⟩
  unfold joinRound
  split
  · unfold rejoinRound
    dsimp only
    split
    · simp
    · split
      · simp
      · rename_i paid hpaid
        simpa [answerJoin] using hpay _ _ hpaid
  · unfold enlistRound
    dsimp only
    split
    · simp
    · split
      · simp
      · rename_i paid hpaid
        simpa [answerJoin] using hpay _ _ hpaid

@[simp] theorem enterRound_frame (req : RoastReservationPrepareRequest)
    (roll : Option DailyRoll) (row : RoastReservation) :
    ((enterRound e req roll row db).2).dailyRolls = db.dailyRolls ∧
      ((enterRound e req roll row db).2).collections = db.collections ∧
      ((enterRound e req roll row db).2).userPigProgress = db.userPigProgress ∧
      ((enterRound e req roll row db).2).userDailyFeeds = db.userDailyFeeds ∧
      ((enterRound e req roll row db).2).groupProtections = db.groupProtections := by
  unfold enterRound
  dsimp only
  split
  · simp
  · split
    · simp
    · split
      · split <;> simp [takeoverRound]
      · simp

@[simp] theorem claim_frame (req : RoastReservationClaimRequest) :
    ((claim e req db).2).dailyRolls = db.dailyRolls ∧
      ((claim e req db).2).collections = db.collections ∧
      ((claim e req db).2).userPigProgress = db.userPigProgress ∧
      ((claim e req db).2).userDailyFeeds = db.userDailyFeeds ∧
      ((claim e req db).2).groupProtections = db.groupProtections ∧
      ((claim e req db).2).participants = db.participants := by
  simp only [claim, declareCapability]
  split_ifs <;> simp

@[simp] theorem transitionWaitingNotice_frame (req : RoastWaitingNoticeRequest) :
    ((transitionWaitingNotice e req db).2).dailyRolls = db.dailyRolls ∧
      ((transitionWaitingNotice e req db).2).collections = db.collections ∧
      ((transitionWaitingNotice e req db).2).userPigProgress = db.userPigProgress ∧
      ((transitionWaitingNotice e req db).2).userDailyFeeds = db.userDailyFeeds ∧
      ((transitionWaitingNotice e req db).2).groupProtections = db.groupProtections ∧
      ((transitionWaitingNotice e req db).2).participants = db.participants := by
  unfold transitionWaitingNotice
  split
  · simp
  · split
    · simp
    · split
      · simp
      · split <;> simp

@[simp] theorem storeOutcome_frame (req : RoastReservationOutcomeRequest)
    (row : RoastReservation) :
    ((storeOutcome e req row db).2).dailyRolls = db.dailyRolls ∧
      ((storeOutcome e req row db).2).collections = db.collections ∧
      ((storeOutcome e req row db).2).reservations = db.reservations ∧
      ((storeOutcome e req row db).2).participants = db.participants := by
  unfold storeOutcome
  dsimp only
  split_ifs <;> simp

@[simp] theorem answer_frame (row : RoastReservation) :
    ((answer row db).2).dailyRolls = db.dailyRolls ∧
      ((answer row db).2).collections = db.collections ∧
      ((answer row db).2).userPigProgress = db.userPigProgress ∧
      ((answer row db).2).userDailyFeeds = db.userDailyFeeds ∧
      ((answer row db).2).groupProtections = db.groupProtections ∧
      ((answer row db).2).participants = db.participants := by
  simp [answer]

@[simp] theorem prepareOutcomeOnce_frame (req : RoastReservationOutcomeRequest) :
    ((prepareOutcomeOnce e req db).2).dailyRolls = db.dailyRolls ∧
      ((prepareOutcomeOnce e req db).2).collections = db.collections ∧
      ((prepareOutcomeOnce e req db).2).participants = db.participants := by
  unfold prepareOutcomeOnce
  split
  · simp
  · split
    · split <;> simp
    · split <;> simp

@[simp] theorem saveOutcome_frame (req : RoastReservationOutcomeRequest) :
    ((saveOutcome req db).2).dailyRolls = db.dailyRolls ∧
      ((saveOutcome req db).2).collections = db.collections ∧
      ((saveOutcome req db).2).userPigProgress = db.userPigProgress ∧
      ((saveOutcome req db).2).userDailyFeeds = db.userDailyFeeds ∧
      ((saveOutcome req db).2).groupProtections = db.groupProtections ∧
      ((saveOutcome req db).2).participants = db.participants := by
  unfold saveOutcome
  split
  · simp
  · dsimp only
    split <;> simp

@[simp] theorem markSending_frame (req : RoastReservationMutationRequest) :
    ((markSending req db).2).dailyRolls = db.dailyRolls ∧
      ((markSending req db).2).collections = db.collections ∧
      ((markSending req db).2).userPigProgress = db.userPigProgress ∧
      ((markSending req db).2).userDailyFeeds = db.userDailyFeeds ∧
      ((markSending req db).2).groupProtections = db.groupProtections ∧
      ((markSending req db).2).participants = db.participants := by
  unfold markSending
  split <;> simp

@[simp] theorem complete_frame (req : RoastReservationCompleteRequest) :
    ((complete e req db).2).dailyRolls = db.dailyRolls ∧
      ((complete e req db).2).collections = db.collections ∧
      ((complete e req db).2).userPigProgress = db.userPigProgress ∧
      ((complete e req db).2).userDailyFeeds = db.userDailyFeeds ∧
      ((complete e req db).2).groupProtections = db.groupProtections ∧
      ((complete e req db).2).participants = db.participants := by
  unfold complete
  split
  · simp
  · dsimp only
    split <;> simp

@[simp] theorem release_frame (req : RoastReservationMutationRequest) :
    ((release req db).2).dailyRolls = db.dailyRolls ∧
      ((release req db).2).collections = db.collections ∧
      ((release req db).2).userPigProgress = db.userPigProgress ∧
      ((release req db).2).userDailyFeeds = db.userDailyFeeds ∧
      ((release req db).2).groupProtections = db.groupProtections ∧
      ((release req db).2).participants = db.participants := by
  unfold release
  split <;> simp

@[simp] theorem reconcileReservationsAfterCommit_frame (flight : RollInFlight) :
    ((reconcileReservationsAfterCommit e flight db).2).dailyRolls = db.dailyRolls ∧
      ((reconcileReservationsAfterCommit e flight db).2).collections = db.collections ∧
      ((reconcileReservationsAfterCommit e flight db).2).userPigProgress = db.userPigProgress ∧
      ((reconcileReservationsAfterCommit e flight db).2).userDailyFeeds = db.userDailyFeeds ∧
      ((reconcileReservationsAfterCommit e flight db).2).groupProtections = db.groupProtections ∧
      ((reconcileReservationsAfterCommit e flight db).2).participants = db.participants := by
  simp [reconcileReservationsAfterCommit]

@[simp] theorem reconcilePrepare_frame (flight : PrepareInFlight) :
    ((reconcilePrepare e flight db).2).dailyRolls = db.dailyRolls ∧
      ((reconcilePrepare e flight db).2).collections = db.collections ∧
      ((reconcilePrepare e flight db).2).userPigProgress = db.userPigProgress ∧
      ((reconcilePrepare e flight db).2).userDailyFeeds = db.userDailyFeeds ∧
      ((reconcilePrepare e flight db).2).groupProtections = db.groupProtections ∧
      ((reconcilePrepare e flight db).2).participants = db.participants := by
  unfold reconcilePrepare
  dsimp only
  split <;> simp

end RollPig
