/-
The event of a round.

A round has at most one event, and one that is written after the round has left `pending`
tells what the final row and roster tell, whatever a client sent: the identities are read
from the round in the same transaction, and an opened round is frozen.
-/
import RollPig.Proofs.Footprints
import RollPig.Proofs.Journals
import RollPig.Proofs.Rosters
import RollPig.Proofs.Sending

namespace RollPig

open Transition

variable {e : Env} {db db' : Db} {w w' : World} {event : Event} {row : RoastReservation}
  {x : RoastEvent} {req : EventCreateRequest}

/-- The ids of the participants an event was written with. -/
def RoastEvent.participantIds (x : RoastEvent) : Option (List String) :=
  (x.participantSnapshot.bind (·.participants)).map (·.ids)

/-- The event tells who the round is about: its date, group, target, attacker and roster. -/
structure RoastEvent.Tells (x : RoastEvent) (row : RoastReservation)
    (members : List RoastReservationParticipant) : Prop where
  date : x.dateStr = row.dateStr
  group : x.groupId = row.groupId
  target : x.targetId = row.targetId
  attacker : x.attackerId = orElse row.forceOperatorId row.ownerId
  participants : x.participantIds = some (members.map (·.userId))

/-! ### Writing an event -/

/-- The row `insertRoastEvent` stores. -/
def insertedEvent (e : Env) (req : EventCreateRequest) : RoastEvent :=
  { dateStr := req.dateStr.getD (rollpigToday e.now), groupId := req.groupId,
    eventType := req.eventType, attackerId := req.attackerId, targetId := req.targetId,
    attackerName := req.attackerName, targetName := req.targetName, foodName := req.food,
    reservationId := req.reservationId, participantSnapshot := eventSnapshot req,
    createdAt := e.dbNow }

theorem insertRoastEvent_events (e : Env) (req : EventCreateRequest) (db : Db) :
    (insertRoastEvent e req db).roastEvents = db.roastEvents ++ [insertedEvent e req] :=
  markGroupActiveUsers_writes e _ _ _ _ .roastEvents (by decide)

/-- A reservation's event keeps its participants, whatever is added to the snapshot. -/
theorem eventSnapshot_participants (hround : req.reservationId ≠ "") :
    (eventSnapshot req).bind (·.participants) = some
      { ids := req.participantIds, names := req.participantNames, count := req.participantCount } := by
  unfold eventSnapshot addForceDetails addSpecialReason reservationSnapshot
  rw [if_neg hround]
  split_ifs <;> rfl

/-- An event bound to a round tells about it. -/
theorem insertedEvent_tells (members : List RoastReservationParticipant)
    (hround : row.reservationId ≠ "") :
    (insertedEvent e (bindReservationEvent (reservationToSchema row members) req)).Tells row
      members := by
  refine ⟨rfl, rfl, rfl, rfl, ?_⟩
  show ((eventSnapshot _).bind (·.participants)).map (·.ids) = _
  rw [eventSnapshot_participants hround]
  simp [bindReservationEvent, reservationToSchema, participantItem]

/-- What a transaction does to the events: nothing, an event of no round, or the first one of
its round, which tells about it as the transaction leaves it. -/
inductive EventsStep (db db' : Db) : Prop
  | quiet (h : db'.roastEvents = db.roastEvents)
  | plain (x : RoastEvent) (hplain : x.reservationId = "")
      (h : db'.roastEvents = db.roastEvents ++ [x])
  | first (x : RoastEvent) (hround : x.reservationId ≠ "")
      (hfirst : ∀ y ∈ db.roastEvents, y.reservationId ≠ x.reservationId)
      (htells : ∀ row ∈ db'.reservations, row.reservationId = x.reservationId →
        x.Tells row (db'.members row.reservationId))
      (h : db'.roastEvents = db.roastEvents ++ [x])

/-- The item a recording is bound to: the one handed in, or the stored round's. -/
def boundItem (req : EventCreateRequest) (item : Option RoastReservationItem) (db : Db) :
    Option RoastReservationItem :=
  match item with
  | some item => some item
  | none => (db.reservation? req.reservationId).map db.schema

/-- Recording an event, when the item it is bound to is the round's. -/
theorem recordRoastEventWithStatus_events (e : Env) (item : Option RoastReservationItem)
    (hbound : ∀ row ∈ db.reservations, row.reservationId = req.reservationId →
      boundItem req item db = some (db.schema row))
    (hnamed : ∀ found, boundItem req item db = some found →
      found.reservationId = req.reservationId) :
    EventsStep db (recordRoastEventWithStatus e req item db).2 := by
  by_cases hplain : req.reservationId = ""
  · unfold recordRoastEventWithStatus
    rw [if_pos hplain]
    exact .plain _ hplain (insertRoastEvent_events e req db)
  by_cases hany : (db.roastEvents.any fun row => row.reservationId = req.reservationId) = true
  · unfold recordRoastEventWithStatus
    rw [if_neg hplain]
    dsimp only
    rw [if_pos hany]
    exact .quiet rfl
  · have hrecorded : (recordRoastEventWithStatus e req item db).2 = insertRoastEvent e
        (match boundItem req item db with
          | some found => bindReservationEvent found req
          | none => req) db := by
      unfold recordRoastEventWithStatus
      rw [if_neg hplain]
      dsimp only
      rw [if_neg hany]
      rfl
    have hframe := insertRoastEvent_frame e db
    have hfirst : ∀ y ∈ db.roastEvents, y.reservationId ≠ req.reservationId := by
      simpa using hany
    rw [hrecorded]
    cases hfound : boundItem req item db with
    | none =>
        refine .first _ hplain hfirst ?_ (insertRoastEvent_events e req db)
        intro row hrow hid
        rw [(hframe req).2.2.2.2.2.1] at hrow
        rw [hbound row hrow hid] at hfound
        simp at hfound
    | some found =>
        have hid : (bindReservationEvent found req).reservationId = req.reservationId :=
          hnamed found hfound
        refine .first (insertedEvent e (bindReservationEvent found req))
          (fun hempty => hplain (hid.symm.trans hempty)) ?_ ?_ (insertRoastEvent_events e _ db)
        · intro y hy
          show y.reservationId ≠ (bindReservationEvent found req).reservationId
          rw [hid]
          exact hfirst y hy
        · intro row hrow hsame
          replace hsame : row.reservationId = req.reservationId := hsame.trans hid
          rw [(hframe _).2.2.2.2.2.1] at hrow
          obtain rfl : found = db.schema row :=
            Option.some.inj (hfound.symm.trans (hbound row hrow hsame))
          have hmembers : (insertRoastEvent e (bindReservationEvent (db.schema row) req)
              db).members row.reservationId = db.members row.reservationId := by
            unfold Db.members
            rw [(hframe _).2.2.2.2.2.2]
          dsimp only
          rw [hmembers]
          exact insertedEvent_tells _ (hsame ▸ hplain)

theorem EventsStep.of_events {db₁ : Db} (h : EventsStep db₁ db')
    (hevents : db₁.roastEvents = db.roastEvents) : EventsStep db db' := by
  cases h with
  | quiet h => exact .quiet (h.trans hevents)
  | plain x hplain h => exact .plain x hplain (hevents ▸ h)
  | first x hround hfirst htells h =>
      exact .first x hround (hevents ▸ hfirst) htells (hevents ▸ h)

/-- What is written to other tables afterwards does not matter. -/
theorem EventsStep.writes {db'' : Db} {tables : List Table} (h : EventsStep db db')
    (hwrites : db'.Writes tables db'') (hevents : .roastEvents ∉ tables)
    (hrounds : .reservations ∉ tables) (hmembers : .participants ∉ tables) :
    EventsStep db db'' := by
  have hsame : db''.roastEvents = db'.roastEvents := hwrites .roastEvents hevents
  have hrows : db''.reservations = db'.reservations := hwrites .reservations hrounds
  have hroster : db''.participants = db'.participants := hwrites .participants hmembers
  cases h with
  | quiet h => exact .quiet (hsame.trans h)
  | plain x hplain h => exact .plain x hplain (hsame.trans h)
  | first x hround hfirst htells h =>
      refine .first x hround hfirst ?_ (hsame.trans h)
      unfold Db.members at htells ⊢
      rw [hrows, hroster]
      exact htells

theorem createEvent_events (e : Env) (h : db.Sound) (req : EventCreateRequest) :
    EventsStep db (createEvent e req db).2 := by
  have hrecorded : EventsStep db (recordRoastEventWithStatus e
      { req with dateStr := some (req.dateStr.getD (rollpigToday e.now)) } none db).2 := by
    refine recordRoastEventWithStatus_events e none ?_ ?_
    · intro row hrow hid
      show (db.reservation? req.reservationId).map db.schema = _
      rw [← show row.reservationId = req.reservationId from hid, h.reservation?_eq hrow]
      rfl
    · intro found hfound
      obtain ⟨row, hrow, rfl⟩ := Option.map_eq_some_iff.mp hfound
      exact (mem_of_reservation? hrow).2
  unfold createEvent
  dsimp only
  split
  · exact hrecorded.writes (applyDailyFeed_writes e _ _ _ _ _) (by decide) (by decide) (by decide)
  · exact hrecorded

theorem complete_events (e : Env) (h : db.Sound) (req : RoastReservationCompleteRequest) :
    EventsStep db (complete e req db).2 := by
  unfold complete
  cases hleased : leasedRow db req.reservationId req.claimToken [.sending, .completed] with
  | none => exact .quiet rfl
  | some row =>
      obtain ⟨hrow, -⟩ := leasedRow_some hleased
      cases hevent : req.event with
      | none => exact .quiet rfl
      | some event =>
          have hid : (completedRow e row).reservationId = row.reservationId := by
            unfold completedRow
            split_ifs <;> rfl
          have hstored : completedRow e row ∈ (answer (completedRow e row) db).2.reservations :=
            Tables.mem_writeBack_of_mem (by simp [Tables.Unique]) (by simp) hrow hid.symm
          have hids : Tables.Unique (·.reservationId)
              (answer (completedRow e row) db).2.reservations := h.ids.writeBack
          have hrecorded : EventsStep (answer (completedRow e row) db).2
              (recordRoastEventWithStatus e (bindReservationEvent
                ((answer (completedRow e row) db).2.schema (completedRow e row)) event)
                (some ((answer (completedRow e row) db).2.schema (completedRow e row)))
                (answer (completedRow e row) db).2).2 := by
            refine recordRoastEventWithStatus_events e _ ?_ ?_
            · intro stored hmem hsame
              obtain rfl : stored = completedRow e row := hids.eq hmem hstored hsame
              rfl
            · intro found hfound
              obtain rfl := Option.some.inj hfound
              rfl
          exact hrecorded.of_events rfl

/-- **What a step does to the events.** -/
theorem World.Sound.step_events (h : w.Sound) (hstep : service.step w event w') :
    EventsStep w.db w'.db := by
  obtain ⟨-, -, -, rfl⟩ := hstep
  have hwrites := event.action.transaction_writes event.env w.db
  have hquiet : .roastEvents ∉ event.action.written → EventsStep w.db
      (w.after event.env event.action).db := fun hother => .quiet (hwrites .roastEvents hother)
  cases haction : event.action with
  | reconcile flight => exact haction ▸ hquiet (by simp [haction, Action.written])
  | request r view =>
      cases r with
      | createEvent req => exact createEvent_events event.env h.db req
      | complete req => exact complete_events event.env h.db req
      | _ =>
          rw [← haction]
          exact hquiet (by simp [haction, Action.written, Request.written])

/-! ### Whole runs -/

/-- Events of rounds are kept under their round's id. -/
def OneEventEach (events : List RoastEvent) : Prop :=
  Tables.Unique (·.reservationId) (events.filter fun x => x.reservationId ≠ "")

theorem OneEventEach.step (h : OneEventEach db.roastEvents) (hstep : EventsStep db db') :
    OneEventEach db'.roastEvents := by
  unfold OneEventEach at h ⊢
  cases hstep with
  | quiet hsame => rwa [hsame]
  | plain x hplain hsame =>
      rw [hsame, List.filter_append, List.filter_singleton]
      simpa [hplain] using h
  | first x hround hfirst htells hsame =>
      have hkept : [x].filter (fun x => x.reservationId ≠ "") = [x] := by simp [hround]
      rw [hsame, List.filter_append, hkept]
      exact h.insert fun y hy => hfirst y (List.mem_filter.mp hy).1

/-- Whom a round is about. -/
def Round.SameParties (r r' : Round) : Prop :=
  r'.row.status ≠ .pending ∧ r'.row.key = r.row.key ∧ r'.row.ownerId = r.row.ownerId ∧
    r'.row.forceOperatorId = r.row.forceOperatorId ∧ r'.members = r.members

theorem Round.SameParties.between {r r₁ r₂ : Round} (h₁ : r.SameParties r₁)
    (h₂ : r.SameParties r₂) : r₁.SameParties r₂ := by
  obtain ⟨-, hkey₁, howner₁, hoperator₁, hmembers₁⟩ := h₁
  obtain ⟨hopened, hkey₂, howner₂, hoperator₂, hmembers₂⟩ := h₂
  exact ⟨hopened, hkey₂.trans hkey₁.symm, howner₂.trans howner₁.symm,
    hoperator₂.trans hoperator₁.symm, hmembers₂.trans hmembers₁.symm⟩

theorem RoundStep.sameParties {warrant : Warrant} {rolls : List DailyRoll} {r₀ r r' : Round}
    (h : RoundStep warrant rolls r r') (hr : r₀.SameParties r) : r₀.SameParties r' := by
  obtain ⟨hopened, hkey, howner, hoperator, hmembers⟩ := hr
  obtain ⟨hopened', hmembers', hcharter⟩ := h.frozen hopened
  have hoperator' : r'.row.forceOperatorId = r.row.forceOperatorId :=
    congrArg (·.2.2.2.1) hcharter
  exact ⟨hopened', h.key.trans hkey, h.owner.trans howner, hoperator'.trans hoperator,
    hmembers'.trans hmembers⟩

theorem RoastEvent.Tells.sameParties {row' : RoastReservation}
    (h : x.Tells row (db.members row.reservationId))
    (hsame : (db.round row).SameParties (db'.round row')) :
    x.Tells row' (db'.members row'.reservationId) := by
  obtain ⟨-, hkey, howner, hoperator, hmembers⟩ := hsame
  obtain ⟨-, hdate, hgroup, htarget⟩ := key_eq.mp hkey
  replace howner : row'.ownerId = row.ownerId := howner
  replace hoperator : row'.forceOperatorId = row.forceOperatorId := hoperator
  replace hmembers : db'.members row'.reservationId = db.members row.reservationId := hmembers
  refine ⟨h.date.trans hdate.symm, h.group.trans hgroup.symm, h.target.trans htarget.symm, ?_, ?_⟩
  · rw [hoperator, howner]
    exact h.attacker
  · rw [hmembers]
    exact h.participants

/-- Tokens are not empty. -/
theorem issued_nonempty (h : Reachable service w) : "" ∉ w.issued := by
  refine Reachable.invariant (I := fun w => "" ∉ w.issued) ?_ ?_ h
  · intro w hinit
    obtain rfl : w = {} := hinit
    exact fun hin => hin
  · intro w event w' _ hout hstep
    obtain ⟨hfresh, -, -, rfl⟩ := hstep
    rintro (hold | ⟨i, hnew⟩)
    · exact hout hold
    · exact hfresh.nonempty i hnew

theorem oneEventEach_of_reachable (h : Reachable service w) : OneEventEach w.db.roastEvents := by
  refine Reachable.invariant (I := fun w => OneEventEach w.db.roastEvents) ?_ ?_ h
  · intro w hinit
    obtain rfl : w = {} := hinit
    exact List.nodup_nil
  · intro w event w' hreach hone hstep
    exact hone.step ((sound_of_reachable hreach).step_events hstep)

/-- Events are never lost. -/
theorem run_events {events : List Event} (h : Run service w events w') {x : RoastEvent}
    (hx : x ∈ w.db.roastEvents) : x ∈ w'.db.roastEvents := by
  refine h.invariant (I := fun w => x ∈ w.db.roastEvents) ?_ hx
  intro w event w' hx hstep
  obtain ⟨-, -, -, rfl⟩ := hstep
  exact (event.action.transaction_extends event.env w.db).roastEvents.subset hx

/-- **A round has at most one event, and an event written once it is opened tells what the
round's final row and roster tell.** -/
theorem one_event_each (h : Reachable service w) :
    (∀ id, id ≠ "" → (w.db.roastEvents.filter fun x => x.reservationId = id).length ≤ 1) ∧
      ∀ event w', service.step w event w' →
        ∀ x ∈ w'.db.roastEvents.drop w.db.roastEvents.length, ∀ row ∈ w.db.reservations,
          x.reservationId = row.reservationId → row.status ≠ .pending →
            ∀ events w'', Run service w' events w'' → x ∈ w''.db.roastEvents ∧
              ∃ row' ∈ w''.db.reservations, row'.reservationId = row.reservationId ∧
                x.Tells row' (w''.db.members row'.reservationId) := by
  refine ⟨fun id hid => ?_, ?_⟩
  · have hunique : Tables.Unique (·.reservationId)
        (w.db.roastEvents.filter fun x => x.reservationId ≠ "") := oneEventEach_of_reachable h
    have hone := hunique.filter_key id
    rw [List.filter_filter] at hone
    refine Nat.le_trans (Nat.le_of_eq (congrArg List.length ?_)) hone
    refine List.filter_congr fun x _ => ?_
    by_cases hsame : x.reservationId = id
    · simp [hsame, hid]
    · simp [hsame]
  · intro event w' hstep x hx row hrow hnamed hopened events w'' hrun
    have hsound := sound_of_reachable h
    have hid : row.reservationId ≠ "" := fun hempty =>
      issued_nonempty h (hempty ▸ hsound.issued row hrow)
    have hstart : (w.db.round row).SameParties (w.db.round row) := ⟨hopened, rfl, rfl, rfl, rfl⟩
    have hkeep : ∀ warrant rolls r r', RoundStep warrant rolls r r' →
        (w.db.round row).SameParties r → (w.db.round row).SameParties r' :=
      fun _ _ _ _ hstep hr => hstep.sameParties hr
    obtain ⟨row', hrow', hid', hsame'⟩ := run_round hkeep h (Run.single hstep) hrow hstart
    obtain ⟨row'', hrow'', hid'', hsame''⟩ := run_round hkeep h (Run.cons hstep hrun) hrow hstart
    have hwritten : x ∈ w'.db.roastEvents := List.mem_of_mem_drop hx
    refine ⟨run_events hrun hwritten, row'', hrow'', hid'', ?_⟩
    cases hsound.step_events hstep with
    | quiet hevents =>
        rw [hevents, List.drop_length] at hx
        simp at hx
    | plain y hplain hevents =>
        rw [hevents, List.drop_left] at hx
        obtain rfl := List.mem_singleton.mp hx
        exact absurd (hnamed.symm.trans hplain) hid
    | first y hround hfirst htells hevents =>
        rw [hevents, List.drop_left] at hx
        obtain rfl := List.mem_singleton.mp hx
        exact (htells row' hrow' (hid'.trans hnamed.symm)).sameParties (hsame'.between hsame'')

/-- After the delivery a client tells a story of its own. -/
def wrongStory : Request :=
  .createEvent
    { eventType := "success", attackerId := "8", targetId := "9", groupId := "70",
      reservationId := scriptToken 0 0, participantIds := ["8"] }

def wrongStoryWorld : World :=
  (scriptWorld deliveryScript).after (scriptEvent deliveryScript 0 wrongStory).env
    (scriptEvent deliveryScript 0 wrongStory).action

theorem one_event_each_story :
    ∃ x ∈ wrongStoryWorld.db.roastEvents, x.reservationId = scriptToken 0 0 ∧
      ∃ row ∈ wrongStoryWorld.db.reservations,
        x.Tells row (wrongStoryWorld.db.members row.reservationId) := by
  have hplay : (play 0 {} deliveryScript).isSome = true := by decide +kernel
  have hstep := script_step hplay 0 wrongStory
  obtain ⟨x, hx, hnamed⟩ : ∃ x ∈ wrongStoryWorld.db.roastEvents.drop
      (scriptWorld deliveryScript).db.roastEvents.length, x.reservationId = scriptToken 0 0 := by
    decide +kernel
  obtain ⟨row, hrow, hid, hopened⟩ : ∃ row ∈ (scriptWorld deliveryScript).db.reservations,
      row.reservationId = scriptToken 0 0 ∧ row.status ≠ .pending := by
    decide +kernel
  obtain ⟨hkept, row', hrow', -, htells⟩ := (one_event_each (script_reachable hplay)).2 _ _ hstep
    x hx row hrow (hnamed.trans hid.symm) hopened [] _ .nil
  exact ⟨x, hkept, hnamed, row', hrow', htells⟩

end RollPig
