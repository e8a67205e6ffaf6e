/-
Replies go where their message was bound to.

A message of a bot in a group is bound to a round once.  Its row is never rewritten, and goes
only when a message of a date more than seven days later is bound; until then a reply to it
concerns that round, and whoever would bind it to another one is refused.  The induction is on
the run: `cloud_messages` says what a step does to the bound messages.
-/
import RollPig.Proofs.Makeups
import RollPig.Proofs.Takeovers
import RollPig.Proofs.Constraints

namespace RollPig

open Transition

variable {e : Env} {db db' : Db} {c c' : Cloud} {event : CloudEvent} {events : List CloudEvent}
  {req : RoastReservationPrepareRequest} {row : RoastReservation}
  {bound other : RoastReservationBindMessageRequest} {message : RoastReservationMessage}
  {view : List DailyRoll} {reply : RoastReservationReplyJoinRequest}
  {response : RoastReservationPrepareResponse}

/-! ### What a reply meets -/

/-- Whoever meets a round is answered about it. -/
theorem enterRound_answers (e : Env) (req : RoastReservationPrepareRequest)
    (roll : Option DailyRoll) (row : RoastReservation) (db : Db) :
    (enterRound e req roll row db).1.status ≠ .messageNotFound ∧
      ∀ item, (enterRound e req roll row db).1.reservation = some item →
        item.reservationId = row.reservationId := by
  have hshown : ∀ (row' : RoastReservation) members item,
      row'.reservationId = row.reservationId → some (reservationToSchema row' members) = some item →
        item.reservationId = row.reservationId := by
    intro row' members item hid hitem
    obtain rfl := Option.some.inj hitem
    exact hid
  unfold enterRound
  dsimp only
  split
  · refine ⟨by simp, fun item hitem => hshown _ _ item ?_ hitem⟩
    split <;> simp
  · split
    · refine ⟨?_, fun item hitem => hshown _ _ item rfl hitem⟩
      dsimp only
      split_ifs <;> simp
    · split
      · split
        · exact ⟨by simp, fun item hitem => hshown _ _ item rfl hitem⟩
        · exact ⟨by simp [takeoverRound], fun item hitem =>
            hshown _ _ item (by simp [takenOver]) hitem⟩
      · unfold joinRound
        split
        · unfold rejoinRound
          dsimp only
          split
          · exact ⟨by simp, fun item hitem => hshown _ _ item (by simp) hitem⟩
          · split
            · exact ⟨by simp, fun item hitem => by cases hitem⟩
            · refine ⟨?_, fun item hitem => hshown _ _ item (by simp) hitem⟩
              dsimp only [answerJoin]
              split_ifs <;> simp
        · unfold enlistRound
          dsimp only
          split
          · exact ⟨by simp, fun item hitem => hshown _ _ item rfl hitem⟩
          · split
            · exact ⟨by simp, fun item hitem => by cases hitem⟩
            · exact ⟨by simp [answerJoin], fun item hitem => hshown _ _ item (by simp) hitem⟩

/-- What a request that expects a round comes to. -/
structure Routed (id userId : String) (db : Db) (response : RoastReservationPrepareResponse)
    (db' : Db) : Prop where
  found : response.status ≠ .messageNotFound
  shown : ∀ item, response.reservation = some item → item.reservationId = id
  joined : ∀ member ∈ db'.participants, memberKey member ∉ db.participants.map memberKey →
    member.reservationId = id ∧ member.userId = userId

/-- Nobody joins where the roster stays. -/
theorem Routed.stays {id userId : String} (hstatus : response.status ≠ .messageNotFound)
    (hnone : response.reservation = none) (hsame : db'.participants = db.participants) :
    Routed id userId db response db' := by
  refine ⟨hstatus, fun item hitem => ?_, fun member hmember hnew => ?_⟩
  · rw [hnone] at hitem
    cases hitem
  · rw [hsame] at hmember
    exact absurd (List.mem_map_of_mem hmember) hnew

/-- **A request that expects a round enters no other one.** -/
theorem prepareReservation_routed {id reservationId : String}
    (h : prepareReservation e view req (some id) reservationId db = .ok (response, db')) :
    Routed id req.attackerId db response db' := by
  have hlocked : (lockProtection req db).2.participants = db.participants :=
    lockProtection_writes req db .participants (by decide)
  unfold prepareReservation at h
  dsimp only at h
  split at h
  · obtain ⟨rfl, rfl⟩ := Prod.mk.inj (Except.ok.inj h)
    exact .stays (by simp) rfl hlocked
  · split at h
    · obtain ⟨rfl, rfl⟩ := Prod.mk.inj (Except.ok.inj h)
      exact .stays (by simp) rfl hlocked
    · rename_i hexpected
      cases hfound : findRound req (lockProtection req db).2 with
      | none =>
          rw [hfound] at hexpected
          exact absurd rfl hexpected
      | some row =>
          rw [hfound] at hexpected h
          have hid : row.reservationId = id := by
            by_contra hother
            exact hexpected (by simp [expectationFails, hother])
          obtain ⟨hstatus, hitem⟩ := enterRound_answers e req
            (presentRoll view req.dateStr req.targetId) row (lockProtection req db).2
          obtain ⟨rfl, rfl⟩ := Prod.mk.inj (Except.ok.inj h)
          subst hid
          refine ⟨hstatus, hitem, fun member hmember hnew => ?_⟩
          exact enterRound_enrols e req _ row _ member hmember (hlocked.symm ▸ hnew)

/-- The message a reply is to. -/
def RoastReservationReplyJoinRequest.address (reply : RoastReservationReplyJoinRequest) :
    String × String × String :=
  (reply.botId, reply.groupId, reply.messageId)

/-- The round a message was bound to. -/
def Db.Holds (db : Db) (message : RoastReservationMessage) : Prop :=
  ∃ row ∈ db.reservations, row.reservationId = message.reservationId ∧
    row.groupId = message.groupId ∧ row.dateStr = message.dateStr

/-- A reply is refused, and not found only if its message is bound to nothing, or it meets the
round its message is bound to. -/
theorem joinByMessage_meets (h : joinByMessage e view reply db = .ok (response, db')) :
    ((response.status = .messageNotFound →
        ∀ message ∈ db.messages, messageKey message ≠ reply.address) ∧
      response.reservation = none ∧ db' = db) ∨
    ∃ message ∈ db.messages, messageKey message = reply.address ∧
      (∃ row ∈ db.reservations, row.reservationId = message.reservationId ∧
        row.groupId = reply.groupId ∧ row.dateStr = reply.dateStr) ∧
      Routed message.reservationId reply.attackerId db response db' := by
  have hrefused : ∀ {status}, (Except.ok (({ status } : RoastReservationPrepareResponse), db) :
      Except DbError _) = .ok (response, db') → status ≠ .messageNotFound →
      (response.status = .messageNotFound →
          ∀ message ∈ db.messages, messageKey message ≠ reply.address) ∧
        response.reservation = none ∧ db' = db := by
    intro status hanswer hstatus
    obtain ⟨rfl, rfl⟩ := Prod.mk.inj (Except.ok.inj hanswer)
    exact ⟨fun hmissing => absurd hmissing hstatus, rfl, rfl⟩
  unfold joinByMessage at h
  split at h
  · exact Or.inl (hrefused h (by simp))
  · dsimp only at h
    split at h
    · rename_i hmissing
      obtain ⟨rfl, rfl⟩ := Prod.mk.inj (Except.ok.inj h)
      refine Or.inl ⟨fun _ message hmessage hkey => ?_, rfl, rfl⟩
      have hother := List.find?_eq_none.mp hmissing message hmessage
      obtain ⟨hbot, hgroup, hid⟩ : message.botId = reply.botId ∧
          message.groupId = reply.groupId ∧ message.messageId = reply.messageId := by
        simpa [messageKey, RoastReservationReplyJoinRequest.address] using hkey
      simp [hbot, hgroup, hid] at hother
    · rename_i message hmessage
      split at h
      · exact Or.inl (hrefused h (by simp))
      · rename_i row hrow
        split at h
        · exact Or.inl (hrefused h (by simp))
        · split at h
          · exact Or.inl (hrefused h (by simp))
          · rename_i roll hroll
            have hkey := List.find?_some hmessage
            simp only [decide_eq_true_eq] at hkey
            obtain ⟨hmem, -⟩ := Option.filter_eq_some_iff.mp hrow
            have hmet := List.find?_some hmem
            simp only [decide_eq_true_eq] at hmet
            obtain ⟨hid, hplace⟩ := hmet
            refine Or.inr ⟨message, List.mem_of_find?_eq_some hmessage, ?_,
              ⟨row, List.mem_of_find?_eq_some hmem, hid, hplace⟩, ?_⟩
            · simp [messageKey, RoastReservationReplyJoinRequest.address, hkey]
            · split at h
              · cases h
              · rename_i answer replied hprepared
                have hrouted := prepareReservation_routed hprepared
                rw [hid] at hrouted
                split at h
                · obtain ⟨rfl, rfl⟩ := Prod.mk.inj (Except.ok.inj h)
                  have hsame : (registerReply e reply roll replied).participants =
                      replied.participants :=
                    registerReply_writes e reply roll replied .participants (by decide)
                  exact ⟨hrouted.found, hrouted.shown, fun member hmember =>
                    hrouted.joined member (hsame ▸ hmember)⟩
                · obtain ⟨rfl, rfl⟩ := Prod.mk.inj (Except.ok.inj h)
                  exact hrouted

/-! ### Binding a message -/

/-- The row of a message that is bound. -/
def RoastReservationBindMessageRequest.binding (bound : RoastReservationBindMessageRequest) :
    RoastReservationMessage :=
  { botId := bound.botId, groupId := bound.groupId, messageId := bound.messageId,
    reservationId := bound.reservationId, dateStr := bound.dateStr }

/-- A row of the messages is its key, its round and its date. -/
theorem message_ext {message' : RoastReservationMessage}
    (hkey : messageKey message = messageKey message')
    (hid : message.reservationId = message'.reservationId)
    (hdate : message.dateStr = message'.dateStr) : message = message' := by
  obtain ⟨hbot, hgroup, hmessage⟩ : message.botId = message'.botId ∧
      message.groupId = message'.groupId ∧ message.messageId = message'.messageId := by
    simpa [messageKey] using hkey
  cases message
  cases message'
  simp_all

/-- What binding a message comes to. -/
inductive Bound (bound : RoastReservationBindMessageRequest) (db : Db) : Bool × Db → Prop
  | unknown (hunknown : ¬ db.Holds bound.binding) : Bound bound db (false, db)
  | elsewhere (message : RoastReservationMessage) (hmessage : message ∈ db.messages)
      (hkey : messageKey message = messageKey bound.binding)
      (hother : message.reservationId ≠ bound.reservationId) : Bound bound db (false, db)
  | again (hholds : db.Holds bound.binding) (message : RoastReservationMessage)
      (hmessage : message ∈ db.messages) (hkey : messageKey message = messageKey bound.binding)
      (hsame : message.reservationId = bound.reservationId) : Bound bound db (true, db)
  | first (hholds : db.Holds bound.binding)
      (hfree : ∀ message ∈ db.messages, messageKey message ≠ messageKey bound.binding) :
      Bound bound db (true, { db with
        messages := (db.messages.filter fun row => ¬ row.dateStr < bound.dateStr - 7) ++
          [bound.binding] })

theorem bindMessage_cases (bound : RoastReservationBindMessageRequest) (db : Db) :
    Bound bound db (bindMessage bound db) := by
  have hknown : (db.reservations.any fun row => row.reservationId = bound.reservationId ∧
      row.groupId = bound.groupId ∧ row.dateStr = bound.dateStr) = true ↔ db.Holds bound.binding := by
    simp [Db.Holds, RoastReservationBindMessageRequest.binding]
  unfold bindMessage
  dsimp only
  split
  · rename_i hunknown
    refine .unknown fun hholds => ?_
    rw [hknown.mpr hholds] at hunknown
    cases hunknown
  · rename_i hholds
    replace hholds := hknown.mp (by simpa using hholds)
    split
    · rename_i message hfound
      have hmessage := List.mem_of_find?_eq_some hfound
      have hkey : messageKey message = messageKey bound.binding := by
        have hfields := List.find?_some hfound
        simp only [decide_eq_true_eq] at hfields
        simp [messageKey, RoastReservationBindMessageRequest.binding, hfields]
      by_cases hsame : message.reservationId = bound.reservationId
      · rw [decide_eq_true hsame]
        exact .again hholds message hmessage hkey hsame
      · rw [decide_eq_false hsame]
        exact .elsewhere message hmessage hkey hsame
    · rename_i hmissing
      refine .first hholds fun message hmessage hkey => ?_
      have hother := List.find?_eq_none.mp hmissing message hmessage
      obtain ⟨hbot, hgroup, hid⟩ : message.botId = bound.botId ∧
          message.groupId = bound.groupId ∧ message.messageId = bound.messageId := by
        simpa [messageKey, RoastReservationBindMessageRequest.binding] using hkey
      simp [hbot, hgroup, hid] at hother

/-- The event binds a message, or confirms that it is bound. -/
def CloudEvent.Binds (event : CloudEvent) (bound : RoastReservationBindMessageRequest) : Prop :=
  ∃ t view, event = .api (.transaction t) ∧ t.action = .request (.bindMessage bound) view ∧
    t.response = .ok true

/-! ### Steps -/

/-- What a step does to the bound messages: `bind-message` is the only one that writes them. -/
theorem cloud_messages (hactive : c.world.db.ActiveOnce) (hstep : cloud.step c event c') :
    (∃ bound t view, event = .api (.transaction t) ∧
        t.action = .request (.bindMessage bound) view ∧
        t.response = .ok (bindMessage bound c.world.db).1 ∧
        c'.world.db = (bindMessage bound c.world.db).2) ∨
      c'.world.db.messages = c.world.db.messages ∧ ∀ bound, ¬ event.Binds bound := by
  cases event with
  | api operation =>
      obtain ⟨hapi, -⟩ := hstep
      cases operation with
      | transaction t =>
          obtain ⟨-, -, hresponse, hafter⟩ := hapi
          have hdb : c'.world.db = (t.action.transaction t.env c.world.db).db := by
            rw [hafter]
            rfl
          have hother : t.action.written.contains .messages = false →
              c'.world.db.messages = c.world.db.messages := by
            intro hout
            rw [hdb]
            exact t.action.transaction_writes t.env c.world.db .messages (by simpa using hout)
          cases haction : t.action with
          | reconcile flight =>
              refine Or.inr ⟨hother (by rw [haction]; rfl), ?_⟩
              rintro bound ⟨_, view, ⟨⟩, hbind, -⟩
              rw [haction] at hbind
              cases hbind
          | request r view =>
              cases r with
              | bindMessage bound =>
                  rw [haction] at hresponse hdb
                  exact Or.inl ⟨bound, t, view, rfl, haction, hresponse, hdb⟩
              | _ =>
                  refine Or.inr ⟨hother (by rw [haction]; rfl), ?_⟩
                  rintro bound ⟨_, view, ⟨⟩, hbind, -⟩
                  rw [haction] at hbind
                  cases hbind
      | markSeen e req =>
          have hseen : c'.world = c.world.seen e req := hapi
          refine Or.inr ⟨?_, fun bound hbinds => by obtain ⟨_, _, ⟨⟩, _⟩ := hbinds⟩
          rw [hseen]
          exact markSeen_writes e req c.world.db .messages (by decide)
  | markActive e date groupId userIds =>
      obtain rfl : c' = c.put (RoastRefills.markActiveUsers e date groupId userIds c.store).2 :=
        hstep
      refine Or.inr ⟨?_, fun bound hbinds => by obtain ⟨_, _, ⟨⟩, _⟩ := hbinds⟩
      exact markGroupActiveUsers_writes e date groupId userIds c.world.db .messages (by decide)
  | refill e request response =>
      obtain ⟨-, rfl⟩ := hstep
      have honly : OnlyUsage c.world.db (request.transaction e c.store).2.db :=
        RefillRequest.transaction_onlyUsage hactive request
      refine Or.inr ⟨honly.writes .messages (by decide), fun bound hbinds => ?_⟩
      obtain ⟨_, _, ⟨⟩, _⟩ := hbinds

/-- A bound message stays, unless one of a much later date is bound. -/
theorem message_kept (hactive : c.world.db.ActiveOnce) (hstep : cloud.step c event c')
    (hmessage : message ∈ c.world.db.messages)
    (hdates : ∀ bound, event.Binds bound → bound.dateStr ≤ message.dateStr + 7) :
    message ∈ c'.world.db.messages := by
  rcases cloud_messages hactive hstep with
    ⟨bound, t, view, hevent, haction, hresponse, hdb⟩ | ⟨hsame, -⟩
  · rw [hdb]
    have hcases := bindMessage_cases bound c.world.db
    generalize hresult : bindMessage bound c.world.db = result at hcases hresponse
    cases hcases with
    | unknown | elsewhere | again => exact hmessage
    | first =>
        have hdate := hdates bound ⟨t, view, hevent, haction, hresponse⟩
        refine List.mem_append_left _ (List.mem_filter.mpr ⟨hmessage, ?_⟩)
        rw [decide_eq_true_eq]
        exact Int.not_lt.mpr (Int.sub_right_le_of_le_add hdate)
  · rw [hsame]
    exact hmessage

/-- Where a bound message comes from. -/
theorem message_origin (hactive : c.world.db.ActiveOnce) (hstep : cloud.step c event c')
    (hmessage : message ∈ c'.world.db.messages) :
    message ∈ c.world.db.messages ∨
      ∃ bound, event.Binds bound ∧ message = bound.binding ∧ c.world.db.Holds message := by
  rcases cloud_messages hactive hstep with
    ⟨bound, t, view, hevent, haction, hresponse, hdb⟩ | ⟨hsame, -⟩
  · rw [hdb] at hmessage
    have hcases := bindMessage_cases bound c.world.db
    generalize hresult : bindMessage bound c.world.db = result at hcases hresponse hmessage
    cases hcases with
    | unknown | elsewhere | again => exact Or.inl hmessage
    | first hholds =>
        rcases List.mem_append.mp hmessage with hold | hnew
        · exact Or.inl (List.mem_filter.mp hold).1
        · obtain rfl := List.mem_singleton.mp hnew
          exact Or.inr ⟨bound, ⟨t, view, hevent, haction, hresponse⟩, rfl, hholds⟩
  · rw [hsame] at hmessage
    exact Or.inl hmessage

/-- A round stays where it is. -/
theorem Holds.kept (hkept : c.Kept) (hstep : cloud.step c event c')
    (h : c.world.db.Holds message) : c'.world.db.Holds message := by
  have hsame : c'.world.db.reservations = c.world.db.reservations → c'.world.db.Holds message := by
    intro hrows
    unfold Db.Holds
    rw [hrows]
    exact h
  cases event with
  | api operation =>
      obtain ⟨hapi, -⟩ := hstep
      cases operation with
      | transaction t =>
          obtain ⟨row, hrow, hid, hgroup, hdate⟩ := h
          obtain ⟨row', hrow', -, hsteps⟩ := hkept.sound.step_round_forward hapi hrow
          obtain ⟨hid', hdate', hgroup', -⟩ := key_eq.mp hsteps.key
          exact ⟨row', hrow', hid'.trans hid, hgroup'.trans hgroup, hdate'.trans hdate⟩
      | markSeen e req =>
          have hseen : c'.world = c.world.seen e req := hapi
          refine hsame ?_
          rw [hseen]
          exact markSeen_writes e req c.world.db .reservations (by decide)
  | markActive e date groupId userIds =>
      obtain rfl : c' = c.put (RoastRefills.markActiveUsers e date groupId userIds c.store).2 :=
        hstep
      exact hsame (markGroupActiveUsers_writes e date groupId userIds c.world.db .reservations
        (by decide))
  | refill e request response =>
      obtain ⟨-, rfl⟩ := hstep
      have honly : OnlyUsage c.world.db (request.transaction e c.store).2.db :=
        RefillRequest.transaction_onlyUsage hkept.active request
      exact hsame (honly.writes .reservations (by decide))

/-- What is known of the bound messages: each leads to a round. -/
def Db.Directed (db : Db) : Prop := ∀ message ∈ db.messages, db.Holds message

theorem cloud_directed (hrun : Run cloud {} events c) : c.world.db.Directed := by
  induction hrun with
  | nil => exact fun message hmessage => nomatch hmessage
  | snoc hrun hstep ih =>
      have hkept := cloud_kept hrun
      intro message hmessage
      rcases message_origin hkept.active hstep hmessage with hold | ⟨bound, -, -, hholds⟩
      · exact Holds.kept hkept hstep (ih message hold)
      · exact Holds.kept hkept hstep hholds

/-- Two messages that lead to one round are of its date. -/
theorem Holds.date {message' : RoastReservationMessage} (hsound : db.Sound)
    (h : db.Holds message) (h' : db.Holds message')
    (hsame : message.reservationId = message'.reservationId) :
    message.dateStr = message'.dateStr := by
  obtain ⟨row, hrow, hid, -, hdate⟩ := h
  obtain ⟨row', hrow', hid', -, hdate'⟩ := h'
  obtain rfl := hsound.ids.eq hrow hrow' (hid.trans (hsame.trans hid'.symm))
  exact hdate.symm.trans hdate'

/-- **What was bound is stored as it was bound**, the first time and again. -/
theorem binds_stored (hkept : c.Kept) (hdirected : c.world.db.Directed)
    (hstep : cloud.step c event c') (hbinds : event.Binds bound) :
    bound.binding ∈ c'.world.db.messages := by
  rcases cloud_messages hkept.active hstep with
    ⟨bound', t, view, hevent, haction, hresponse, hdb⟩ | ⟨-, hnone⟩
  · obtain ⟨t', view', hevent', haction', hresponse'⟩ := hbinds
    obtain rfl : t = t' := by
      rw [hevent] at hevent'
      cases hevent'
      rfl
    obtain rfl : bound' = bound := by
      rw [haction] at haction'
      cases haction'
      rfl
    rw [hdb]
    rw [hresponse'] at hresponse
    have hcases := bindMessage_cases bound' c.world.db
    generalize hresult : bindMessage bound' c.world.db = result at hcases hresponse
    cases hcases with
    | unknown | elsewhere => cases hresponse
    | first => exact List.mem_append_right _ (List.mem_singleton_self _)
    | again hholds message hmessage hkey hsame =>
        have hdate := Holds.date hkept.sound.db (hdirected message hmessage) hholds hsame
        exact message_ext hkey hsame hdate ▸ hmessage
  · exact absurd hbinds (hnone bound)

/-! ### Runs -/

/-- Every message that is stored was bound by somebody. -/
theorem message_bound (hrun : Run cloud {} events c) (hmessage : message ∈ c.world.db.messages) :
    ∃ event ∈ events, ∃ bound, event.Binds bound ∧ bound.binding = message := by
  induction hrun with
  | nil => exact nomatch hmessage
  | snoc hrun hstep ih =>
      rcases message_origin (cloud_kept hrun).active hstep hmessage with
        hold | ⟨bound, hbinds, rfl, -⟩
      · obtain ⟨event, hevent, hbound⟩ := ih hold
        exact ⟨event, List.mem_append_left _ hevent, hbound⟩
      · exact ⟨_, List.mem_append_right _ (List.mem_singleton_self _), bound, hbinds, rfl⟩

/-- A bound message stays through a run that binds none of a much later date. -/
theorem message_stays {before after : List CloudEvent} (hbefore : Run cloud {} before c)
    (hafter : Run cloud c after c') (hmessage : message ∈ c.world.db.messages)
    (hdates : ∀ later ∈ after, ∀ other, later.Binds other → other.dateStr ≤ message.dateStr + 7) :
    message ∈ c'.world.db.messages := by
  induction hafter with
  | nil => exact hmessage
  | snoc hafter hstep ih =>
      have hkept := cloud_kept (hbefore.append hafter)
      refine message_kept hkept.active hstep (ih fun later hlater => ?_) ?_
      · exact hdates later (List.mem_append_left _ hlater)
      · exact hdates _ (List.mem_append_right _ (List.mem_singleton_self _))

/-- What was bound in a run is bound at its end. -/
theorem bound_stays {before after : List CloudEvent}
    (hrun : Run cloud {} (before ++ event :: after) c) (hbinds : event.Binds bound)
    (hdates : ∀ later ∈ after, ∀ other, later.Binds other → other.dateStr ≤ bound.dateStr + 7) :
    bound.binding ∈ c.world.db.messages := by
  obtain ⟨c₀, hbefore, hrest⟩ := hrun.split before (event :: after) rfl
  obtain ⟨c₁, hstep, hafter⟩ := hrest.of_cons
  have hstored := binds_stored (cloud_kept hbefore) (cloud_directed hbefore) hstep hbinds
  exact message_stays (hbefore.snoc hstep) hafter hstored hdates

/-- **Replies are routed by the bindings.**  A reply that is shown a round came through a message
that was bound to it, in this group and for this date.  Once a message was bound, and as long as
none of a date more than seven days later was, a reply to it is never told that it is unknown,
is shown no other round and enters its user into no other one; and the message can be bound
again to this round only. -/
theorem replies_routed (hrun : Run cloud {} events c)
    (hreply : joinByMessage e view reply c.world.db = .ok (response, db')) :
    (∀ item, response.reservation = some item → ∃ event ∈ events, event.Binds
      { botId := reply.botId, groupId := reply.groupId, messageId := reply.messageId
        reservationId := item.reservationId, dateStr := reply.dateStr }) ∧
    ∀ before event after bound, events = before ++ event :: after → event.Binds bound →
      messageKey bound.binding = reply.address →
      (∀ later ∈ after, ∀ other, later.Binds other → other.dateStr ≤ bound.dateStr + 7) →
        Routed bound.reservationId reply.attackerId c.world.db response db' ∧
        ∀ other, messageKey other.binding = reply.address →
          ((bindMessage other c.world.db).1 = true ↔
            other.reservationId = bound.reservationId ∧ other.dateStr = bound.dateStr) := by
  have hsound := (cloud_kept hrun).sound.db
  have hunique := (cloud_looked hrun).messages
  have hdirected := cloud_directed hrun
  have hmeets := joinByMessage_meets hreply
  constructor
  · intro item hitem
    rcases hmeets with ⟨-, hnone, -⟩ | ⟨message, hmessage, hkey, ⟨row, hrow, hid, hgroup, hdate⟩, hrouted⟩
    · rw [hnone] at hitem
      cases hitem
    · obtain ⟨event, hevent, bound, hbinds, rfl⟩ := message_bound hrun hmessage
      refine ⟨event, hevent, ?_⟩
      obtain ⟨row', hrow', hid', -, hdate'⟩ := hdirected _ hmessage
      obtain rfl := hsound.ids.eq hrow hrow' (hid.trans hid'.symm)
      obtain ⟨hbot, hgroup', hmessage'⟩ : bound.botId = reply.botId ∧
          bound.groupId = reply.groupId ∧ bound.messageId = reply.messageId := by
        simpa [messageKey, RoastReservationReplyJoinRequest.address,
          RoastReservationBindMessageRequest.binding] using hkey
      have hshown : item.reservationId = bound.reservationId := hrouted.shown item hitem
      have hday : reply.dateStr = bound.dateStr := hdate.symm.trans hdate'
      rw [hshown, hday, ← hbot, ← hgroup', ← hmessage']
      exact hbinds
  · intro before event after bound hsplit hbinds haddress hdates
    subst hsplit
    have hstored := bound_stays hrun hbinds hdates
    constructor
    · rcases hmeets with ⟨hfound, hnone, rfl⟩ | ⟨message, hmessage, hkey, -, hrouted⟩
      · exact .stays (fun hmissing => hfound hmissing _ hstored haddress) hnone rfl
      · obtain rfl := hunique.eq hmessage hstored (hkey.trans haddress.symm)
        exact hrouted
    · intro other hother
      have hcases := bindMessage_cases other c.world.db
      generalize hresult : bindMessage other c.world.db = result at hcases
      cases hcases with
      | unknown hunknown =>
          refine ⟨fun hok => absurd hok Bool.false_ne_true, fun hsame => absurd ?_ hunknown⟩
          rw [message_ext (hother.trans haddress.symm) hsame.1 hsame.2]
          exact hdirected _ hstored
      | elsewhere message hmessage hkey hdiffers =>
          obtain rfl := hunique.eq hmessage hstored (hkey.trans (hother.trans haddress.symm))
          exact ⟨fun hok => absurd hok Bool.false_ne_true, fun hsame => absurd hsame.1.symm hdiffers⟩
      | again hholds message hmessage hkey hsame =>
          obtain rfl := hunique.eq hmessage hstored (hkey.trans (hother.trans haddress.symm))
          refine ⟨fun _ => ⟨hsame.symm, ?_⟩, fun _ => rfl⟩
          exact (Holds.date hsound (hdirected _ hstored) hholds hsame).symm
      | first hholds hfree =>
          exact absurd (haddress.trans hother.symm) (hfree _ hstored)

/-- User 3 has rolled, user 1 opens a round, and the bot tells the group with message `m`. -/
def toldScript : List (Time × Order) :=
  let now : Time := 739000 * dayMicros
  let roll : DailyRollGetOrCreateRequest :=
    { userId := "3", proposedPigId := "boar", dateStr := 739000 }
  [(now, .request (.getOrCreate roll)), (now, .finish 0),
    (now, .request (.prepare (crowdRequest "1" none))), (now, .finish 0)]

def toldMessage : RoastReservationBindMessageRequest :=
  { botId := "bot", groupId := "7", messageId := "m", dateStr := 739000,
    reservationId := scriptToken 2 0 }

def toldReply : RoastReservationReplyJoinRequest :=
  { botId := "bot", groupId := "7", messageId := "m", dateStr := 739000, attackerId := "3" }

/-- The world once the message is bound. -/
def toldWorld : World :=
  scriptWorld (toldScript ++ [(739000 * dayMicros, .request (.bindMessage toldMessage))])

theorem replies_routed_told : ∃ response db',
    joinByMessage (scriptEnv 5 (739000 * dayMicros)) toldWorld.db.dailyRolls toldReply toldWorld.db =
        .ok (response, db') ∧
      response.status = .reservationJoined ∧
      Routed (scriptToken 2 0) "3" toldWorld.db response db' := by
  have hplay : (play 0 {} toldScript).isSome = true := by decide +kernel
  have hstep := script_step hplay (739000 * dayMicros) (.bindMessage toldMessage)
  rw [← scriptWorld_snoc hplay] at hstep
  have hbinds : CloudEvent.Binds
      (.api (.transaction (scriptEvent toldScript (739000 * dayMicros) (.bindMessage toldMessage))))
      toldMessage := ⟨_, _, rfl, rfl, by decide +kernel⟩
  have hlast : cloud.step { world := scriptWorld toldScript }
      (.api (.transaction (scriptEvent toldScript (739000 * dayMicros) (.bindMessage toldMessage))))
      { world := toldWorld } := ⟨hstep, rfl⟩
  have hrun := (service_cloud (script_run hplay)).snoc hlast
  have hjoined : ((joinByMessage (scriptEnv 5 (739000 * dayMicros)) toldWorld.db.dailyRolls toldReply
      toldWorld.db).toOption.map fun result => result.1.status) = some .reservationJoined := by
    decide +kernel
  cases hreply : joinByMessage (scriptEnv 5 (739000 * dayMicros)) toldWorld.db.dailyRolls toldReply
      toldWorld.db with
  | error failure =>
      rw [hreply] at hjoined
      cases hjoined
  | ok result =>
      obtain ⟨response, db'⟩ := result
      rw [hreply] at hjoined
      have hstatus : response.status = .reservationJoined := Option.some.inj hjoined
      have hrouted := (replies_routed hrun hreply).2 _ _ [] toldMessage rfl hbinds rfl
        fun later hlater => nomatch hlater
      exact ⟨response, db', rfl, hstatus, hrouted.1⟩

end RollPig
