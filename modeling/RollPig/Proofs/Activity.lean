/-
The table of active users.

A user is active once in a group and on a date, has a name, and is never taken off the table
again.  Every row is inserted by `markGroupActiveUsers`, which looks for the row first.
-/
import RollPig.Proofs.Awards
import RollPig.Proofs.Footprints
import RollPig.Proofs.Journals

namespace RollPig

variable {e : Env} {db db' : Db} {tables : List Table}

/-- The unique key. -/
def GroupDailyActiveUser.key (row : GroupDailyActiveUser) : Date × String × String :=
  (row.dateStr, row.groupId, row.userId)

/-- Every active user is counted once, and has a name. -/
structure Db.ActiveOnce (db : Db) : Prop where
  unique : Tables.Unique GroupDailyActiveUser.key db.activeUsers
  named : ∀ row ∈ db.activeUsers, row.userId ≠ ""

namespace Db.ActiveOnce

theorem same (h : db.ActiveOnce) (hsame : db'.activeUsers = db.activeUsers) : db'.ActiveOnce := by
  refine ⟨?_, ?_⟩
  · rw [hsame]
    exact h.unique
  · rw [hsame]
    exact h.named

/-- A transaction that writes other tables. -/
theorem writes (h : db.ActiveOnce) (hwrites : db.Writes tables db')
    (hout : Table.activeUsers ∉ tables) : db'.ActiveOnce :=
  h.same (hwrites .activeUsers hout)

end Db.ActiveOnce

theorem markGroupActiveUsers_activeOnce (h : db.ActiveOnce) (date : Date) (groupId : String)
    (userIds : List String) : (markGroupActiveUsers e date groupId userIds db).ActiveOnce := by
  unfold markGroupActiveUsers
  by_cases hgroup : groupId = ""
  · rw [if_pos hgroup]
    exact h
  rw [if_neg hgroup]
  have hfresh : ∀ userId ∈ (normalizedIds userIds).filter fun userId =>
      !db.activeUsers.any fun row => row.dateStr = date ∧ row.groupId = groupId ∧ row.userId = userId,
      userId ∈ normalizedIds userIds ∧ (date, groupId, userId) ∉
        db.activeUsers.map GroupDailyActiveUser.key := by
    intro userId huser
    obtain ⟨hnamed, hnew⟩ := List.mem_filter.mp huser
    refine ⟨hnamed, fun hold => ?_⟩
    obtain ⟨row, hrow, hkey⟩ := List.mem_map.mp hold
    obtain ⟨hdate, hrest⟩ := Prod.mk.inj hkey
    obtain ⟨hthere, hname⟩ := Prod.mk.inj hrest
    have hany : (db.activeUsers.any fun row =>
        row.dateStr = date ∧ row.groupId = groupId ∧ row.userId = userId) = true :=
      List.any_eq_true.mpr ⟨row, hrow, decide_eq_true ⟨hdate, hthere, hname⟩⟩
    rw [hany] at hnew
    cases hnew
  refine ⟨?_, fun row hrow => ?_⟩
  · have hunique := h.unique
    unfold Tables.Unique at hunique ⊢
    rw [List.map_append, List.nodup_append, List.map_map]
    refine ⟨hunique, ((normalizedIds_nodup userIds).filter _).map fun u u' hsame => ?_, ?_⟩
    · exact congrArg (·.2.2) hsame
    · rintro k hold k' hnew rfl
      obtain ⟨userId, huser, rfl⟩ := List.mem_map.mp hnew
      exact (hfresh userId huser).2 hold
  · rcases List.mem_append.mp hrow with hold | hnew
    · exact h.named row hold
    · obtain ⟨userId, huser, rfl⟩ := List.mem_map.mp hnew
      exact (mem_normalizedIds.mp (hfresh userId huser).1).2

/-! ### The transactions that mark users active -/

theorem insertRoastEvent_activeOnce (h : db.ActiveOnce) (req : EventCreateRequest) :
    (insertRoastEvent e req db).ActiveOnce := by
  have hstored : ∀ rows, ({ db with roastEvents := rows } : Db).ActiveOnce := fun rows =>
    h.writes (writes_roastEvents rows) (by decide)
  exact markGroupActiveUsers_activeOnce (hstored _) _ _ _

theorem recordRoastEventWithStatus_activeOnce (h : db.ActiveOnce) (req : EventCreateRequest)
    (reservation : Option RoastReservationItem) :
    (recordRoastEventWithStatus e req reservation db).2.ActiveOnce := by
  unfold recordRoastEventWithStatus
  split
  · exact insertRoastEvent_activeOnce h req
  · dsimp only
    split
    · exact h
    · exact insertRoastEvent_activeOnce h _

theorem createEvent_activeOnce (h : db.ActiveOnce) (req : EventCreateRequest) :
    (createEvent e req db).2.ActiveOnce := by
  have hrecorded := recordRoastEventWithStatus_activeOnce (e := e) h
    { req with dateStr := some (req.dateStr.getD (rollpigToday e.now)) } none
  unfold createEvent
  dsimp only
  split
  · exact hrecorded.writes (applyDailyFeed_writes e _ req.attackerId .roast req.sourceId _) (by decide)
  · exact hrecorded

theorem complete_activeOnce (h : db.ActiveOnce) (req : RoastReservationCompleteRequest) :
    (complete e req db).2.ActiveOnce := by
  unfold complete
  split
  · exact h
  · have hanswered : ∀ row, (answer row db).2.ActiveOnce := fun row =>
      h.writes (answer_writes row db) (by decide)
    dsimp only
    split
    · exact recordRoastEventWithStatus_activeOnce (hanswered _) _ _
    · exact hanswered _

theorem ensureGroupRoll_activeOnce (h : db.ActiveOnce) (groupId userId pigId : String) (date : Date) :
    (ensureGroupRoll e groupId userId pigId date db).ActiveOnce := by
  unfold ensureGroupRoll
  split
  · exact h
  · dsimp only
    have hseen : ∀ rows, ({ db with groupRolls := rows } : Db).ActiveOnce := fun rows =>
      h.writes (writes_groupRolls rows) (by decide)
    split
    · exact markGroupActiveUsers_activeOnce h _ _ _
    · exact markGroupActiveUsers_activeOnce (hseen _) _ _ _

theorem markSeen_activeOnce (h : db.ActiveOnce) (req : GroupRollMarkSeenRequest) :
    (markSeen e req db).ActiveOnce := by
  unfold markSeen
  dsimp only
  have hseen : ∀ rows, ({ db with groupRolls := rows } : Db).ActiveOnce := fun rows =>
    h.writes (writes_groupRolls rows) (by decide)
  split
  · exact markGroupActiveUsers_activeOnce h _ _ _
  · exact markGroupActiveUsers_activeOnce (hseen _) _ _ _

theorem getOrCreateDailyRoll_activeOnce (h : db.ActiveOnce) (req : DailyRollGetOrCreateRequest) :
    (getOrCreateDailyRoll e req db).2.ActiveOnce := by
  unfold getOrCreateDailyRoll
  split
  · split
    · exact h
    · exact ensureGroupRoll_activeOnce h _ _ _ _
  · have hcreated : ∀ roll, (createDailyRoll e roll db).2.ActiveOnce := fun roll =>
      h.writes (createDailyRoll_writes e roll db) (by decide)
    exact (ensureGroupRoll_activeOnce (hcreated _) _ _ _ _).writes
      (activateTargetReservations_writes e _ _ _ _ _) (by decide)

/-! ### Rounds -/

theorem OnlyUsage.activeOnce (h : OnlyUsage db db') (hdb : db.ActiveOnce) : db'.ActiveOnce :=
  hdb.writes h.writes (by decide)

theorem answerJoin_activeOnce (h : db.ActiveOnce) (req : RoastReservationPrepareRequest)
    (roll : Option DailyRoll) (row : RoastReservation) (members : List RoastReservationParticipant)
    (status : PrepareStatus) : (answerJoin e req roll row members status db).2.ActiveOnce :=
  (markGroupActiveUsers_activeOnce h req.dateStr req.groupId [req.attackerId]).writes
    (writes_reservations _) (by decide)

theorem joinRound_activeOnce (h : db.ActiveOnce) (req : RoastReservationPrepareRequest)
    (roll : Option DailyRoll) (row : RoastReservation) (members : List RoastReservationParticipant) :
    (joinRound e req roll row members db).2.ActiveOnce := by
  have hpaid : ∀ {paid}, payBoost req (boosts req row) db = some paid →
      ∀ rows, ({ paid with participants := rows } : Db).ActiveOnce := fun hpay rows =>
    ((payBoost_some hpay).activeOnce h).writes (writes_participants rows) (by decide)
  unfold joinRound
  split
  · unfold rejoinRound
    dsimp only
    split
    · exact h.writes (writes_reservations _) (by decide)
    · split
      · exact h
      · exact answerJoin_activeOnce (hpaid (by assumption) _) req roll row _ _
  · unfold enlistRound
    dsimp only
    split
    · exact h
    · split
      · exact h
      · exact answerJoin_activeOnce (hpaid (by assumption) _) req roll row _ _

theorem enterRound_activeOnce (h : db.ActiveOnce) (req : RoastReservationPrepareRequest)
    (roll : Option DailyRoll) (row : RoastReservation) :
    (enterRound e req roll row db).2.ActiveOnce := by
  unfold enterRound
  dsimp only
  split
  · exact h.writes (writes_reservations _) (by decide)
  · split
    · exact h
    · split
      · split
        · exact h
        · exact (markGroupActiveUsers_activeOnce h req.dateStr req.groupId [req.attackerId]).writes
            (writes_reservations _) (by decide)
      · exact joinRound_activeOnce h req roll row _

theorem Prepared.activeOnce {view : List DailyRoll} {req : RoastReservationPrepareRequest}
    {expected : Option String} {reservationId : String} {response : RoastReservationPrepareResponse}
    (hprepared : Prepared e view req expected reservationId db response db') (h : db.ActiveOnce) :
    db'.ActiveOnce := by
  have hlocked : (lockProtection req db).2.ActiveOnce :=
    h.writes (lockProtection_writes req db) (by decide)
  cases hprepared with
  | refused _ _ hframe => exact hframe.activeOnce hlocked
  | entered hfind => exact enterRound_activeOnce hlocked req _ _
  | @created paid _ _ _ _ _ hpaid =>
      have hopened := (payForRound_ok hpaid).activeOnce hlocked
      have hinserted : ∀ rows members, ({ paid with
          reservations := rows, participants := members } : Db).ActiveOnce := fun _ _ =>
        hopened.same rfl
      exact markGroupActiveUsers_activeOnce (hinserted _ _) _ _ _

theorem joinByMessage_activeOnce {view : List DailyRoll} {req : RoastReservationReplyJoinRequest}
    {response : RoastReservationPrepareResponse} (hdb : db.ActiveOnce)
    (h : joinByMessage e view req db = .ok (response, db')) : db'.ActiveOnce := by
  rcases joinByMessage_cases h with
    rfl | ⟨reservation, roll, expected, replied, -, hprepared, rfl | rfl⟩
  · exact hdb
  · exact hprepared.activeOnce hdb
  · exact (hprepared.activeOnce hdb).writes (registerReply_writes e _ _ _) (by decide)

/-! ### All transactions -/

theorem Request.transaction_activeOnce (h : db.ActiveOnce) (view : List DailyRoll) (r : Request) :
    (r.transaction e view db).db.ActiveOnce := by
  have hothers := r.transaction_writes e view db
  cases r with
  | getOrCreate req =>
      have hdone := getOrCreateDailyRoll_activeOnce (e := e) h req
      simp only [Request.transaction]
      split <;> simp_all
  | createEvent req => exact createEvent_activeOnce h req
  | complete req => exact complete_activeOnce h req
  | prepare req =>
      simp only [Request.transaction]
      split
      · exact h
      · exact (prepareReservation_cases (by assumption)).activeOnce h
  | joinByMessage req =>
      simp only [Request.transaction]
      split
      · exact h
      · exact joinByMessage_activeOnce h (by assumption)
  | _ => exact h.writes hothers (by simp [Request.written])

/-- **No transaction counts a user twice.** -/
theorem Action.transaction_activeOnce (h : db.ActiveOnce) (action : Action) :
    (action.transaction e db).db.ActiveOnce := by
  cases action with
  | request r view => exact r.transaction_activeOnce h view
  | reconcile flight => exact h.writes (flight.transaction_writes e db) (by decide)

end RollPig
