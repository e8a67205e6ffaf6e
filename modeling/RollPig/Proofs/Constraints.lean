/-
The unique keys of the schema.

Nearly every table of `models.py` has one, and hardly any insert leaves it to the database to
keep it: the code looks for a row under the key and inserts where there is none.  The rounds in
progress are the exception: a request may find no round to join although the slot is taken, and
only the key of the slot stops it.  Most of the keys are part of what is known of a reachable
cloud anyway; the first appearances, the usage, the draw states, the bound messages and the
active keys of the refills are followed statement by statement.
-/
import RollPig.Proofs.Imports
import RollPig.Proofs.Spending
import RollPig.Proofs.KeyBalances
import RollPig.Proofs.Takeovers

namespace RollPig

open Transition

variable {e : Env} {db db' : Db} {tables : List Table} {s : RefillStore} {c c' : Cloud}
  {event : CloudEvent} {events : List CloudEvent}

/-- Where a bound message is found. -/
def messageKey (row : RoastReservationMessage) : String × String × String :=
  (row.botId, row.groupId, row.messageId)

/-- The keys that the code keeps by looking first. -/
structure Db.Looked (db : Db) : Prop where
  appearances : Tables.Unique groupRollKey db.groupRolls
  usage : Tables.Unique (·.userId) db.userUsage
  drawStates : Tables.Unique (·.userId) db.userDrawState
  messages : Tables.Unique messageKey db.messages

theorem Db.Looked.empty : Db.Looked {} :=
  ⟨List.nodup_nil, List.nodup_nil, List.nodup_nil, List.nodup_nil⟩

/-- Whoever writes none of the four tables keeps their keys. -/
theorem Db.Looked.writes (h : db.Looked) (hwrites : db.Writes tables db')
    (hout : Table.groupRolls ∉ tables ∧ Table.userUsage ∉ tables ∧
      Table.userDrawState ∉ tables ∧ Table.messages ∉ tables) : db'.Looked := by
  have hrolls : db'.groupRolls = db.groupRolls := hwrites .groupRolls hout.1
  have husage : db'.userUsage = db.userUsage := hwrites .userUsage hout.2.1
  have hstates : db'.userDrawState = db.userDrawState := hwrites .userDrawState hout.2.2.1
  have hmessages : db'.messages = db.messages := hwrites .messages hout.2.2.2
  refine ⟨?_, ?_, ?_, ?_⟩
  · rw [hrolls]
    exact h.appearances
  · rw [husage]
    exact h.usage
  · rw [hstates]
    exact h.drawStates
  · rw [hmessages]
    exact h.messages

/-! ### First appearances -/

/-- A first appearance, registered where the search for one found nothing. -/
theorem appearances_insert {rows : List GroupRoll} (h : Tables.Unique groupRollKey rows)
    {row : GroupRoll} {found : GroupRoll → Bool}
    (hfound : ∀ old, groupRollKey old = groupRollKey row → found old = true) :
    Tables.Unique groupRollKey (if rows.any found then rows else rows ++ [row]) := by
  split
  · exact h
  · rename_i hnone
    refine h.insert fun old hold hkey => hnone ?_
    exact List.any_eq_true.mpr ⟨old, hold, hfound old hkey⟩

theorem groupRollKey_eq {a b : GroupRoll} : groupRollKey a = groupRollKey b ↔
    a.dateStr = b.dateStr ∧ a.groupId = b.groupId ∧ a.userId = b.userId := by
  simp [groupRollKey]

theorem ensureGroupRoll_appearances (h : Tables.Unique groupRollKey db.groupRolls)
    (groupId userId pigId : String) (date : Date) :
    Tables.Unique groupRollKey (ensureGroupRoll e groupId userId pigId date db).groupRolls := by
  unfold ensureGroupRoll
  split
  · exact h
  · dsimp only
    rw [markGroupActiveUsers_writes e _ _ _ _ .groupRolls (by decide), apply_ite Db.groupRolls]
    refine appearances_insert h fun old hkey => ?_
    obtain ⟨hdate, hgroup, huser⟩ := groupRollKey_eq.mp hkey
    simp [hdate, hgroup, huser]

theorem registerReply_appearances (h : Tables.Unique groupRollKey db.groupRolls)
    (req : RoastReservationReplyJoinRequest) (roll : DailyRoll) :
    Tables.Unique groupRollKey (registerReply e req roll db).groupRolls := by
  unfold registerReply
  rw [apply_ite Db.groupRolls]
  refine appearances_insert h fun old hkey => ?_
  obtain ⟨hdate, hgroup, huser⟩ := groupRollKey_eq.mp hkey
  simp [hdate, hgroup, huser]

theorem markSeen_appearances (h : Tables.Unique groupRollKey db.groupRolls)
    (req : GroupRollMarkSeenRequest) :
    Tables.Unique groupRollKey (markSeen e req db).groupRolls := by
  unfold markSeen
  dsimp only
  rw [markGroupActiveUsers_writes e _ _ _ _ .groupRolls (by decide), apply_ite Db.groupRolls]
  refine appearances_insert h fun old hkey => ?_
  obtain ⟨hdate, hgroup, huser⟩ := groupRollKey_eq.mp hkey
  simp [hdate, hgroup, huser]

/-! ### Usage -/

/-- Who has no usage row has no row to collide with. -/
theorem usage_insert (h : Tables.Unique (·.userId) db.userUsage) {row : UserUsage}
    (hnone : db.usage? row.userId = none) :
    Tables.Unique (·.userId) (db.userUsage ++ [row]) := by
  refine h.insert fun old hold hid => ?_
  have hother := List.find?_eq_none.mp hnone old hold
  simp [hid] at hother

theorem consumeRoastUsage_once (h : Tables.Unique (·.userId) db.userUsage) (userId : String)
    (nowTs : Option Rat) (cooldown charges : Option Int) :
    Tables.Unique (·.userId) (consumeRoastUsage e userId nowTs cooldown charges db).2.userUsage := by
  unfold consumeRoastUsage
  cases hfound : db.usage? userId with
  | none => exact usage_insert h hfound
  | some usage =>
      dsimp only
      split_ifs <;> exact h.writeBack

theorem consumeForceUsage_once (h : Tables.Unique (·.userId) db.userUsage) {userId : String}
    {date : Date} (hpaid : consumeForceUsage userId date db = some db') :
    Tables.Unique (·.userId) db'.userUsage := by
  unfold consumeForceUsage at hpaid
  split at hpaid
  · obtain rfl := Option.some.inj hpaid
    exact usage_insert h (by assumption)
  · split at hpaid
    · simp at hpaid
    · obtain rfl := Option.some.inj hpaid
      exact h.writeBack

/-- Paying for a round, or being refused. -/
theorem payForRound_once (h : Tables.Unique (·.userId) db.userUsage)
    (req : RoastReservationPrepareRequest) :
    (∀ response, payForRound e req db = .error (response, db') →
        Tables.Unique (·.userId) db'.userUsage) ∧
      ∀ cooldown, payForRound e req db = .ok (cooldown, db') →
        Tables.Unique (·.userId) db'.userUsage := by
  have hroast := consumeRoastUsage_once (e := e) h req.attackerId req.nowTs req.cooldownSeconds
    req.maxCharges
  unfold payForRound
  split
  · split
    · refine ⟨fun response hpay => ?_, fun cooldown hpay => (nomatch hpay)⟩
      obtain ⟨-, rfl⟩ := Prod.mk.inj (Except.error.inj hpay)
      exact h
    · refine ⟨fun response hpay => (nomatch hpay), fun cooldown hpay => ?_⟩
      obtain ⟨-, rfl⟩ := Prod.mk.inj (Except.ok.inj hpay)
      exact consumeForceUsage_once h (by assumption)
  · split
    · dsimp only
      split
      · refine ⟨fun response hpay => (nomatch hpay), fun cooldown hpay => ?_⟩
        obtain ⟨-, rfl⟩ := Prod.mk.inj (Except.ok.inj hpay)
        exact hroast
      · refine ⟨fun response hpay => ?_, fun cooldown hpay => (nomatch hpay)⟩
        obtain ⟨-, rfl⟩ := Prod.mk.inj (Except.error.inj hpay)
        exact hroast
    · refine ⟨fun response hpay => (nomatch hpay), fun cooldown hpay => ?_⟩
      obtain ⟨-, rfl⟩ := Prod.mk.inj (Except.ok.inj hpay)
      exact h

/-- Meeting an active round costs a force use at most. -/
theorem Admission.once {req : RoastReservationPrepareRequest} {status : PrepareStatus}
    (hadmission : Admission req db status db') (h : Tables.Unique (·.userId) db.userUsage) :
    Tables.Unique (·.userId) db'.userUsage := by
  cases hadmission with
  | stays _ _ husage =>
      rw [husage]
      exact h
  | joins _ _ _ _ husage =>
      rw [husage]
      exact h
  | accelerates _ _ _ _ hpaid husage =>
      rw [husage]
      exact consumeForceUsage_once h hpaid
  | upgrades _ _ _ _ hpaid husage =>
      rw [husage]
      exact consumeForceUsage_once h hpaid

theorem Prepared.once {view : List DailyRoll} {req : RoastReservationPrepareRequest}
    {expected : Option String} {reservationId : String}
    {response : RoastReservationPrepareResponse}
    (hprepared : Prepared e view req expected reservationId db response db')
    (h : Tables.Unique (·.userId) db.userUsage) : Tables.Unique (·.userId) db'.userUsage := by
  have hlock : (lockProtection req db).2.userUsage = db.userUsage :=
    lockProtection_writes req db .userUsage (by decide)
  have hlocked : Tables.Unique (·.userId) (lockProtection req db).2.userUsage := by
    rw [hlock]
    exact h
  cases hprepared with
  | refused _ _ _ hpayment =>
      rcases hpayment with rfl | hrefused
      · exact hlocked
      · exact (payForRound_once hlocked req).1 response hrefused
  | entered hfind => exact (enterRound_admission e req _ _ _).once hlocked
  | created _ _ _ hpaid =>
      have hpayed := (payForRound_once hlocked req).2 _ hpaid
      unfold insertRound
      rw [markGroupActiveUsers_writes e _ _ _ _ .userUsage (by decide)]
      exact hpayed

theorem resetRoastCharges_once (userIds : List String) (chargeMax nowEpoch : Int)
    (h : Tables.Unique (·.userId) db.userUsage) :
    Tables.Unique (·.userId) (resetRoastCharges userIds chargeMax nowEpoch db).userUsage := by
  unfold resetRoastCharges
  induction userIds generalizing db with
  | nil => exact h
  | cons userId rest ih =>
      rw [List.foldl_cons]
      refine ih ?_
      split
      · exact h.writeBack
      · exact usage_insert h (by assumption)

/-! ### Draw states and messages -/

theorem applyCreatedRollProgress_once (h : Tables.Unique (·.userId) db.userDrawState)
    (userId pigId : String) :
    Tables.Unique (·.userId) (applyCreatedRollProgress e userId pigId db).2.userDrawState := by
  have hcollected : (ensureCollection e userId pigId db).userDrawState = db.userDrawState :=
    ensureCollection_writes e userId pigId db .userDrawState (by decide)
  have hrewrite : ∀ row, Tables.Unique (·.userId) (Tables.writeBack (·.userId) [row]
      (ensureCollection e userId pigId db).userDrawState) := by
    intro row
    rw [hcollected]
    exact h.writeBack
  have hinsert : getDrawState db userId = none → ∀ row : UserDrawState, row.userId = userId →
      Tables.Unique (·.userId) ((ensureCollection e userId pigId db).userDrawState ++ [row]) := by
    intro hnone row hid
    rw [hcollected]
    refine h.insert fun old hold hkey => ?_
    have hother := List.find?_eq_none.mp hnone old hold
    simp [hkey, hid] at hother
  unfold applyCreatedRollProgress
  cases hstate : getDrawState db userId with
  | some state =>
      cases getProgress db userId pigId with
      | some row => exact hrewrite _
      | none => exact hrewrite _
  | none =>
      cases getProgress db userId pigId with
      | some row => exact hinsert hstate _ rfl
      | none => exact hinsert hstate _ rfl

/-- A message is bound where none was. -/
theorem bindMessage_once (h : Tables.Unique messageKey db.messages)
    (req : RoastReservationBindMessageRequest) :
    Tables.Unique messageKey (bindMessage req db).2.messages := by
  unfold bindMessage
  dsimp only
  split
  · exact h
  · split
    · exact h
    · rename_i hnone
      refine (h.filter _).insert fun old hold hkey => ?_
      have hother := List.find?_eq_none.mp hnone old (List.mem_filter.mp hold).1
      obtain ⟨hbot, hgroup, hmessage⟩ : old.botId = req.botId ∧ old.groupId = req.groupId ∧
          old.messageId = req.messageId := by
        simpa [messageKey] using hkey
      simp [hbot, hgroup, hmessage] at hother

/-! ### Every transaction -/

theorem createDailyRoll_looked (h : db.Looked) (roll : DailyRoll) :
    (createDailyRoll e roll db).2.Looked := by
  have hwrites := createDailyRoll_writes e roll db
  refine ⟨?_, ?_, ?_, ?_⟩
  · rw [hwrites .groupRolls (by decide)]
    exact h.appearances
  · rw [hwrites .userUsage (by decide)]
    exact h.usage
  · exact applyCreatedRollProgress_once h.drawStates roll.userId roll.pigId
  · rw [hwrites .messages (by decide)]
    exact h.messages

theorem ensureGroupRoll_looked (h : db.Looked) (groupId userId pigId : String) (date : Date) :
    (ensureGroupRoll e groupId userId pigId date db).Looked := by
  have hwrites := ensureGroupRoll_writes e groupId userId pigId date db
  refine ⟨ensureGroupRoll_appearances h.appearances groupId userId pigId date, ?_, ?_, ?_⟩
  · rw [hwrites .userUsage (by decide)]
    exact h.usage
  · rw [hwrites .userDrawState (by decide)]
    exact h.drawStates
  · rw [hwrites .messages (by decide)]
    exact h.messages

theorem getOrCreateDailyRoll_looked (h : db.Looked) (req : DailyRollGetOrCreateRequest) :
    (getOrCreateDailyRoll e req db).2.Looked := by
  unfold getOrCreateDailyRoll
  split
  · split
    · exact h
    · exact ensureGroupRoll_looked h _ _ _ _
  · have hregistered := ensureGroupRoll_looked (e := e) (createDailyRoll_looked (e := e) h
      { userId := req.userId, pigId := req.proposedPigId, dateStr := req.dateStr,
        createdAt := e.dbNow }) req.groupId req.userId req.proposedPigId req.dateStr
    exact hregistered.writes (activateTargetReservations_writes e _ _ _ _ _) (by decide)

/-- Whoever pays writes the usage, and nothing else of these. -/
theorem Db.Looked.usageOf (h : db.Looked) (hwrites : db.Writes tables db')
    (hout : Table.groupRolls ∉ tables ∧ Table.userDrawState ∉ tables ∧ Table.messages ∉ tables)
    (husage : Tables.Unique (·.userId) db'.userUsage) : db'.Looked := by
  refine ⟨?_, husage, ?_, ?_⟩
  · rw [hwrites .groupRolls hout.1]
    exact h.appearances
  · rw [hwrites .userDrawState hout.2.1]
    exact h.drawStates
  · rw [hwrites .messages hout.2.2]
    exact h.messages

theorem Prepared.looked {view : List DailyRoll} {req : RoastReservationPrepareRequest}
    {expected : Option String} {reservationId : String}
    {response : RoastReservationPrepareResponse}
    (hprepared : Prepared e view req expected reservationId db response db') (h : db.Looked) :
    db'.Looked :=
  h.usageOf hprepared.writes (by decide) (hprepared.once h.usage)

theorem joinByMessage_looked {view : List DailyRoll} {req : RoastReservationReplyJoinRequest}
    {response : RoastReservationPrepareResponse}
    (hjoin : joinByMessage e view req db = .ok (response, db')) (h : db.Looked) : db'.Looked := by
  rcases joinByMessage_cases hjoin with
    rfl | ⟨reservation, roll, expected, replied, -, hprepared, rfl | rfl⟩
  · exact h
  · exact hprepared.looked h
  · have hreplied := hprepared.looked h
    have hwrites := registerReply_writes e req roll replied
    refine ⟨registerReply_appearances hreplied.appearances req roll, ?_, ?_, ?_⟩
    · rw [hwrites .userUsage (by decide)]
      exact hreplied.usage
    · rw [hwrites .userDrawState (by decide)]
      exact hreplied.drawStates
    · rw [hwrites .messages (by decide)]
      exact hreplied.messages

/-- **No request inserts under a key that is taken.** -/
theorem Request.transaction_looked (e : Env) (view : List DailyRoll) (h : db.Looked)
    (r : Request) : (r.transaction e view db).db.Looked := by
  have hwrites := r.transaction_writes e view db
  cases r with
  | getOrCreate req =>
      have hdrawn := getOrCreateDailyRoll_looked (e := e) h req
      simp only [Request.transaction]
      split <;> simp_all
  | makeup req =>
      simp only [Request.transaction]
      split
      · exact h
      · rename_i hmakeup
        rcases makeupDailyRoll_cases hmakeup with ⟨existing, -, -, rfl⟩ | ⟨-, -, rfl⟩
        · exact h
        · exact createDailyRoll_looked h _
  | consumeRoast req =>
      exact h.usageOf hwrites (by simp [Request.written]) (consumeRoastUsage_once h.usage _ _ _ _)
  | consumeForce req =>
      simp only [Request.transaction]
      split
      · exact h
      · rename_i hforced
        exact h.usageOf (consumeForceUsage_some hforced).writes (by decide)
          (consumeForceUsage_once h.usage hforced)
  | bindMessage req =>
      refine ⟨?_, ?_, ?_, bindMessage_once h.messages req⟩
      · rw [hwrites .groupRolls (by simp [Request.written])]
        exact h.appearances
      · rw [hwrites .userUsage (by simp [Request.written])]
        exact h.usage
      · rw [hwrites .userDrawState (by simp [Request.written])]
        exact h.drawStates
  | joinByMessage req =>
      simp only [Request.transaction]
      split
      · exact h
      · rename_i hjoin
        exact joinByMessage_looked hjoin h
  | prepare req =>
      simp only [Request.transaction]
      split
      · exact h
      · rename_i hprepared
        exact (prepareReservation_cases hprepared).looked h
  | _ => exact h.writes hwrites (by simp [Request.written])

/-- Only the completion of a refill writes to the database. -/
theorem RefillRequest.transaction_kept (hactive : s.db.ActiveOnce) {request : RefillRequest}
    (h : ∀ req, request ≠ .complete req) : (request.transaction e s).2.db = s.db := by
  cases request with
  | prepare req =>
      simp only [RefillRequest.transaction]
      cases hprepare : RoastRefills.prepare e req s with
      | none => rfl
      | some result => exact (prepareAttempts_opened hactive _ hprepare).1
  | bind req =>
      show (bindRefillMessage e req.requestId req.messageId none s).2.db = s.db
      unfold bindRefillMessage
      dsimp only
      split
      · rfl
      · split
        · rfl
        · split
          · rfl
          · split <;> rfl
  | active groupId date nowTs =>
      show (getActiveRefill e date groupId nowTs s).2.db = s.db
      unfold getActiveRefill
      split
      · rfl
      · dsimp only
        split <;> rfl
  | fail req =>
      show (failRefill req.requestId req.messageId req.reason s).2.db = s.db
      unfold failRefill
      split
      · rfl
      · split
        · rfl
        · split <;> rfl
  | complete req => exact absurd rfl (h req)

/-- What a request for a refill does to the database. -/
theorem RefillRequest.transaction_fills (hactive : s.db.ActiveOnce) (request : RefillRequest) :
    (request.transaction e s).2.db = s.db ∨ ∃ userIds chargeMax nowEpoch,
      (request.transaction e s).2.db = resetRoastCharges userIds chargeMax nowEpoch s.db := by
  by_cases hcomplete : ∃ req, request = .complete req
  · obtain ⟨req, rfl⟩ := hcomplete
    show (completeRefill e req s).2.db = s.db ∨ _
    cases completeRefill_cases e req s with
    | refused _ hstore => exact Or.inl (by rw [hstore])
    | expired _ _ _ _ _ hstore => exact Or.inl (by rw [hstore]; rfl)
    | succeeded _ _ _ _ _ _ _ _ _ hstore =>
        exact Or.inr ⟨_, _, _, congrArg RefillStore.db hstore⟩
  · exact Or.inl (transaction_kept hactive fun req heq => hcomplete ⟨req, heq⟩)

/-- **A step of the cloud keeps the keys.** -/
theorem cloud_looked_step (hactive : c.world.db.ActiveOnce) (h : c.world.db.Looked)
    (hstep : cloud.step c event c') : c'.world.db.Looked := by
  cases event with
  | api operation =>
      obtain ⟨hapi, -⟩ := hstep
      cases operation with
      | transaction event =>
          obtain ⟨-, -, -, hafter⟩ := hapi
          rw [hafter]
          show (event.action.transaction event.env c.world.db).db.Looked
          cases event.action with
          | request r view => exact r.transaction_looked event.env view h
          | reconcile flight =>
              exact h.writes (flight.transaction_writes event.env c.world.db) (by decide)
      | markSeen e req =>
          have hseen : c'.world = c.world.seen e req := hapi
          have hwrites := markSeen_writes e req c.world.db
          rw [hseen]
          refine ⟨markSeen_appearances h.appearances req, ?_, ?_, ?_⟩
          · exact (hwrites .userUsage (by decide)).symm ▸ h.usage
          · exact (hwrites .userDrawState (by decide)).symm ▸ h.drawStates
          · exact (hwrites .messages (by decide)).symm ▸ h.messages
  | markActive e date groupId userIds =>
      obtain rfl : c' = c.put (RoastRefills.markActiveUsers e date groupId userIds c.store).2 :=
        hstep
      exact h.writes (markGroupActiveUsers_writes e date groupId userIds c.world.db) (by decide)
  | refill e request response =>
      obtain ⟨-, rfl⟩ := hstep
      have honly : OnlyUsage c.world.db (request.transaction e c.store).2.db :=
        RefillRequest.transaction_onlyUsage hactive request
      refine h.usageOf honly.writes (by decide) ?_
      show Tables.Unique (·.userId) (request.transaction e c.store).2.db.userUsage
      rcases RefillRequest.transaction_fills (e := e) (s := c.store) hactive request with
        hsame | ⟨userIds, chargeMax, nowEpoch, hfilled⟩
      · rw [hsame]
        exact h.usage
      · rw [hfilled]
        exact resetRoastCharges_once userIds chargeMax nowEpoch h.usage

theorem cloud_looked (hrun : Run cloud {} events c) : c.world.db.Looked := by
  induction hrun with
  | nil => exact Db.Looked.empty
  | snoc hrun hstep ih => exact cloud_looked_step (cloud_sound hrun).active ih hstep

/-! ### The active keys of the refills -/

/-- The active keys that are taken. -/
def activeKeys (requests : List GroupRoastRefillRequest) : List String :=
  requests.filterMap (·.activeKey)

theorem RefillTurn.activeKey {row row' : GroupRoastRefillRequest}
    {bound succeeded : Option GroupRoastRefillItem} (h : RefillTurn row bound succeeded row') :
    row'.activeKey = row.activeKey ∨ row'.activeKey = none := by
  cases h with
  | bind => exact Or.inl rfl
  | close => exact Or.inr rfl
  | succeed now benefited _ _ _ hrow' => exact Or.inr (by rw [hrow'])

theorem RefillChange.activeKeys {requests requests' : List GroupRoastRefillRequest}
    {bound succeeded : Option GroupRoastRefillItem}
    (h : RefillChange requests bound succeeded requests') (hkeys : (activeKeys requests).Nodup) :
    (activeKeys requests').Nodup := by
  cases h with
  | stay => exact hkeys
  | turn hvoting hturn =>
      refine hkeys.sublist ?_
      unfold RollPig.activeKeys
      rw [List.filterMap_append, List.filterMap_append]
      refine (List.Sublist.refl _).append ?_
      rcases hturn.activeKey with hsame | hnone
      · rw [List.filterMap_cons, List.filterMap_cons, hsame]
      · rw [List.filterMap_cons_none hnone, List.filterMap_cons]
        split
        · exact List.Sublist.refl _
        · exact List.sublist_cons_self _ _
  | insert row hid hfree hkey =>
      unfold RollPig.activeKeys
      rw [List.filterMap_append, List.filterMap_cons_some hkey, List.filterMap_nil]
      refine hkeys.append (List.nodup_singleton _) ?_
      rw [List.disjoint_singleton]
      intro htaken
      obtain ⟨other, hother, hsame⟩ := List.mem_filterMap.mp htaken
      exact hfree other hother (hsame.trans hkey.symm)

theorem cloud_activeKeys_step (hsound : c.Sound) (hkeys : (activeKeys c.requests).Nodup)
    (hstep : cloud.step c event c') : (activeKeys c'.requests).Nodup := by
  obtain ⟨middle, hfirst, hsecond⟩ :=
    refills_changes (s := c.store) hsound.ids hsound.keyed (cloud_refill hstep)
  exact hsecond.activeKeys (hfirst.activeKeys hkeys)

theorem cloud_activeKeys (hrun : Run cloud {} events c) : (activeKeys c.requests).Nodup := by
  induction hrun with
  | nil => exact List.nodup_nil
  | snoc hrun hstep ih => exact cloud_activeKeys_step (cloud_sound hrun) ih hstep

/-! ### The rounds in progress -/

theorem Db.Slots.same (h : db.Slots) (hsame : db'.reservations = db.reservations) : db'.Slots := by
  refine ⟨?_, ?_⟩
  · rw [hsame]
    exact h.slotted
  · rw [hsame]
    exact h.unique

theorem cloud_slots_step (hkept : c.Kept) (h : c.world.db.Slots)
    (hstep : cloud.step c event c') : c'.world.db.Slots := by
  cases event with
  | api operation =>
      obtain ⟨hapi, -⟩ := hstep
      cases operation with
      | transaction event =>
          cases hkept.sound.step_rounds hapi with
          | evolves hevolves => exact hevolves.slots h
          | creates req view row owner haction hcreates hflight => exact hcreates.slots h
      | markSeen e req =>
          have hseen : c'.world = c.world.seen e req := hapi
          rw [hseen]
          exact h.same (markSeen_writes e req c.world.db .reservations (by decide))
  | markActive e date groupId userIds =>
      obtain rfl : c' = c.put (RoastRefills.markActiveUsers e date groupId userIds c.store).2 :=
        hstep
      exact h.same (markGroupActiveUsers_writes e date groupId userIds c.world.db .reservations
        (by decide))
  | refill e request response =>
      obtain ⟨-, rfl⟩ := hstep
      have honly : OnlyUsage c.world.db (request.transaction e c.store).2.db :=
        RefillRequest.transaction_onlyUsage hkept.active request
      exact h.same (honly.writes .reservations (by decide))

theorem cloud_slots (hrun : Run cloud {} events c) : c.world.db.Slots := by
  induction hrun with
  | nil => exact ⟨by simp, by simp⟩
  | snoc hrun hstep ih => exact cloud_slots_step (cloud_kept hrun) ih hstep

/-! ### All of them -/

/-- What the index of the rounds in progress is on; `NULL` collides with nothing. -/
def slotKey (row : RoastReservation) : (Date × String × String) × Option Nat :=
  (row.targetKey, row.activeSlot)

/-- The unique keys of `models.py`, as far as the tables are those of the cloud. -/
structure Cloud.Constrained (c : Cloud) : Prop where
  dailyRolls : Tables.Unique rollKey c.world.db.dailyRolls
  groupRolls : Tables.Unique groupRollKey c.world.db.groupRolls
  collections : Tables.Unique collectionKey c.world.db.collections
  userPigProgress : Tables.Unique progressKey c.world.db.userPigProgress
  userDailyFeeds : Tables.Unique UserDailyFeed.day c.world.db.userDailyFeeds
  userDrawState : Tables.Unique (·.userId) c.world.db.userDrawState
  userUsage : Tables.Unique (·.userId) c.world.db.userUsage
  activeUsers : Tables.Unique GroupDailyActiveUser.key c.world.db.activeUsers
  groupProtections : Tables.Unique protectionKey c.world.db.groupProtections
  reservationIds : Tables.Unique (·.reservationId) c.world.db.reservations
  activeSlots : Tables.Unique slotKey
    (c.world.db.reservations.filter fun row => row.activeSlot.isSome)
  messages : Tables.Unique messageKey c.world.db.messages
  participants : Tables.Unique memberKey c.world.db.participants
  requestIds : Tables.Unique (·.requestId) c.requests
  activeKeys : (activeKeys c.requests).Nodup

/-- Rounds in progress collide on their target alone. -/
theorem Db.Slots.activeSlots (h : db.Slots) (hids : Tables.Unique (·.reservationId) db.reservations) :
    Tables.Unique slotKey (db.reservations.filter fun row => row.activeSlot.isSome) := by
  have hdistinct : (db.reservations.filter fun row => row.activeSlot.isSome).Nodup :=
    (List.Nodup.of_map _ hids).filter _
  refine List.Nodup.map_on ?_ hdistinct
  intro a ha b hb hkey
  obtain ⟨ha, hslot⟩ := List.mem_filter.mp ha
  obtain ⟨hb, -⟩ := List.mem_filter.mp hb
  obtain ⟨htarget, hsame⟩ := Prod.mk.inj hkey
  -- a slot that is taken is slot one
  have hone : a.activeSlot = some 1 := by
    have hslotted := h.slotted a ha
    unfold Slotted at hslotted
    split_ifs at hslotted
    · simp [hslotted] at hslot
    · exact hslotted
  exact h.unique a ha b hb hone (hsame ▸ hone) htarget

/-- **In every run of the cloud all unique keys hold.** -/
theorem constraints_hold (hrun : Run cloud {} events c) : c.Constrained := by
  have hsound := cloud_sound hrun
  have hkept := cloud_kept hrun
  have hlooked := cloud_looked hrun
  have halbum := (cloud_album hrun).2
  constructor
  case dailyRolls => exact hkept.sound.rolls
  case groupRolls => exact hlooked.appearances
  case collections => exact halbum.unique
  case userPigProgress => exact hkept.growth.progressKeys
  case userDailyFeeds => exact hkept.growth.feedsDaily
  case userDrawState => exact hlooked.drawStates
  case userUsage => exact hlooked.usage
  case activeUsers => exact hkept.active.unique
  case groupProtections => exact hkept.protections
  case reservationIds => exact hkept.sound.db.ids
  case activeSlots => exact Db.Slots.activeSlots (cloud_slots hrun) hkept.sound.db.ids
  case messages => exact hlooked.messages
  case participants => exact hkept.sound.db.members
  case requestIds => exact hsound.ids
  case activeKeys => exact cloud_activeKeys hrun

/-- User 3 rolls and is fed, and users 1 and 4 meet in a round against a protected user, which
has its message. -/
def crowdedRounds : List (Time × Order) :=
  let now : Time := 739000 * dayMicros
  [(now, .request (.getOrCreate
      { userId := "3", proposedPigId := "boar", dateStr := 739000, groupId := "7" })),
    (now, .finish 0), (now, .request (.grant scriptGrant)),
    (now, .request (.prepare (crowdRequest "1" none))), (now, .finish 0),
    (now, .request (.prepare (crowdRequest "4" none))), (now, .finish 0),
    (now, .request (.bindMessage
      { botId := "bot", groupId := "7", messageId := "m", dateStr := 739000,
        reservationId := scriptToken 3 0 })),
    (now, .request (.createEvent
      { eventType := "success", attackerId := "3", targetId := "2", dateStr := some 739000,
        settleDailyFeed := true, sourceId := "roast" }))]

def crowdedMarked : Cloud :=
  let c : Cloud := { world := scriptWorld crowdedRounds }
  c.put (RoastRefills.markActiveUsers midnightEnv 739000 "g" ["1", "2", "3"] c.store).2

/-- Then another group votes for a refill. -/
def crowdedCloud : Cloud := (playCloud crowdedMarked boundVote).2

/-- The tables of the rounds, the protections, the feeds and the refills are filled. -/
theorem constraints_hold_crowded :
    (crowdedCloud.world.db.reservations.length = 1 ∧ crowdedCloud.world.db.participants.length = 2 ∧
      crowdedCloud.world.db.messages.length = 1 ∧
      crowdedCloud.world.db.groupProtections.length = 1 ∧
      crowdedCloud.world.db.userDailyFeeds.length = 1 ∧ crowdedCloud.requests.length = 1) ∧
      crowdedCloud.Constrained := by
  have hplayed : (play 0 {} crowdedRounds).isSome = true := by decide +kernel
  have hmarked : Run cloud { world := scriptWorld crowdedRounds }
      [.markActive midnightEnv 739000 "g" ["1", "2", "3"]] crowdedMarked := Run.single rfl
  have hrun := (service_cloud (script_run hplayed)).append
    (hmarked.append (playCloud_run boundVote crowdedMarked))
  exact ⟨by decide +kernel, constraints_hold hrun⟩

end RollPig
