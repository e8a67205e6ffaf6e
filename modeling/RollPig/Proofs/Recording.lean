/-
What a recorded event still says.

The snapshot of an event is put together from three parts that leave out what is empty, and
every reader supplies its own default for a key that is missing.  For the event of a round
this loses nothing.  An event without a round keeps its single victim only beside something
else worth keeping; where it is dropped, the statistics name the attacker instead.
-/
import RollPig.Proofs.Catalog
import RollPig.Proofs.RoundEvents

namespace RollPig

variable {e : Env} {db : Db} {req : EventCreateRequest} {item : Option RoastReservationItem}
  {row : RoastEvent}

/-! ### What is recorded -/

/-- The request after identity binding, as it is recorded. -/
def boundRequest (req : EventCreateRequest) (item : Option RoastReservationItem) (db : Db) :
    EventCreateRequest :=
  if req.reservationId = "" then req
  else match boundItem req item db with
    | some found => bindReservationEvent found req
    | none => req

/-- A new event is written from the bound request; otherwise nothing is written. -/
theorem recordRoastEventWithStatus_cases (e : Env) (req : EventCreateRequest)
    (item : Option RoastReservationItem) (db : Db) :
    recordRoastEventWithStatus e req item db =
        ((true, true), insertRoastEvent e (boundRequest req item db) db) ∨
      recordRoastEventWithStatus e req item db = ((true, false), db) := by
  unfold recordRoastEventWithStatus boundRequest
  split
  · exact Or.inl rfl
  · dsimp only
    split
    · exact Or.inr rfl
    · exact Or.inl rfl

/-- The row of a new event. -/
theorem recorded_row (h : (recordRoastEventWithStatus e req item db).2.roastEvents =
    db.roastEvents ++ [row]) : row = insertedEvent e (boundRequest req item db) := by
  rcases recordRoastEventWithStatus_cases e req item db with hnew | hold
  · rw [hnew] at h
    have hrows := (insertRoastEvent_events e (boundRequest req item db) db).symm.trans h
    exact (List.singleton_inj.mp (List.append_cancel_left hrows)).symm
  · rw [hold] at h
    exact absurd (congrArg List.length h) (by simp)

@[simp] theorem bindReservationEvent_idem (found : RoastReservationItem) (req : EventCreateRequest) :
    bindReservationEvent found (bindReservationEvent found req) = bindReservationEvent found req :=
  rfl

/-! ### The parts of the snapshot -/

/-- Something is stored that the single victim stands beside. -/
def EventCreateRequest.KeepsVictim (req : EventCreateRequest) : Prop :=
  req.reservationId ≠ "" ∨ req.forceMode ≠ "" ∨ req.protectionLevel ≠ 0 ∨
    req.backfireVictimIds ≠ [] ∨ req.reservationOwnerId ≠ ""

instance : Decidable req.KeepsVictim := inferInstanceAs (Decidable (_ ∨ _))

/-- The snapshot as its readers take it. -/
def EventCreateRequest.snapshot (req : EventCreateRequest) : ParticipantSnapshot :=
  (eventSnapshot req).getD {}

theorem snapshot_specialReason (req : EventCreateRequest) :
    req.snapshot.specialReason.getD "" = req.specialReason := by
  unfold EventCreateRequest.snapshot eventSnapshot addForceDetails addSpecialReason
    reservationSnapshot
  split_ifs <;> simp_all

theorem snapshot_victimIds (req : EventCreateRequest) :
    req.snapshot.backfireVictimIds.getD [] = req.backfireVictimIds := by
  unfold EventCreateRequest.snapshot eventSnapshot addForceDetails addSpecialReason
    reservationSnapshot
  split_ifs <;> simp_all

theorem snapshot_victimId (req : EventCreateRequest) :
    req.snapshot.backfireVictimId.getD "" = if req.KeepsVictim then req.backfireVictimId else "" := by
  unfold EventCreateRequest.snapshot eventSnapshot addForceDetails addSpecialReason
    reservationSnapshot EventCreateRequest.KeepsVictim
  split_ifs <;> simp_all

/-! ### Victims -/

/-- The victims of an event and their special kind, as the counting loop attributes them. -/
def RoastMapping.attribution (event : RoastMapping) : Multiset String × Option SpecialKind :=
  (event.victims, event.specialKind)

/-- The request as the counting loop would be given it. -/
def requestMapping (req : EventCreateRequest) : RoastMapping :=
  { dateStr := req.dateStr.map isodate
    groupId := some req.groupId
    type := some req.eventType
    attacker := some req.attackerId
    target := some req.targetId
    backfireVictimId := some req.backfireVictimId
    backfireVictimIds := some req.backfireVictimIds
    specialReason := some req.specialReason }

/-- The one victim of a backfire is somebody else than the attacker, and is not stored. -/
def EventCreateRequest.LosesVictim (req : EventCreateRequest) : Prop :=
  ¬ req.KeepsVictim ∧ (req.eventType = "backfire" ∨ req.eventType = "bot_backfire") ∧
    req.backfireVictimId ≠ "" ∧ req.backfireVictimId ≠ req.attackerId

instance : Decidable req.LosesVictim := inferInstanceAs (Decidable (_ ∧ _))

@[simp] theorem catalogMapping_kind (row : RoastEvent × Nat) :
    (catalogMapping row).kind = row.1.eventType :=
  orElse_empty _

@[simp] theorem requestMapping_kind (req : EventCreateRequest) :
    (requestMapping req).kind = req.eventType :=
  orElse_empty _

@[simp] theorem requestMapping_targetUser (req : EventCreateRequest) :
    (requestMapping req).targetUser = req.targetId :=
  orElse_empty _

@[simp] theorem requestMapping_attackerUser (req : EventCreateRequest) :
    (requestMapping req).attackerUser = req.attackerId :=
  orElse_empty _

/-- A backfire without a plural field names one victim. -/
theorem RoastMapping.namedVictims_single {event : RoastMapping}
    (hkind : event.kind = "backfire" ∨ event.kind = "bot_backfire")
    (hids : event.backfireVictimIds.getD [] = []) :
    event.namedVictims = [orElse (event.backfireVictimId.getD "") event.attackerUser] := by
  have hplain : event.kind ≠ "success" := by
    intro hsuccess
    rw [hsuccess] at hkind
    revert hkind
    decide
  unfold RoastMapping.namedVictims
  rw [if_neg fun h => hplain h.1, if_pos hkind, hids]
  rfl

theorem recorded_specialKind (e : Env) (req : EventCreateRequest) (id : Nat) :
    (catalogMapping (insertedEvent e req, id)).specialKind = (requestMapping req).specialKind := by
  have hreason : (catalogMapping (insertedEvent e req, id)).specialReason =
      (requestMapping req).specialReason := congrArg some (snapshot_specialReason req)
  unfold RoastMapping.specialKind
  rw [hreason, catalogMapping_kind, requestMapping_kind]
  rfl

theorem recorded_victims (e : Env) (req : EventCreateRequest) (id : Nat)
    (hkept : ¬ req.LosesVictim) :
    (catalogMapping (insertedEvent e req, id)).victims = (requestMapping req).victims := by
  have hids : (catalogMapping (insertedEvent e req, id)).backfireVictimIds.getD [] =
      (requestMapping req).backfireVictimIds.getD [] := snapshot_victimIds req
  have hid : (catalogMapping (insertedEvent e req, id)).backfireVictimId.getD "" =
      if req.KeepsVictim then req.backfireVictimId else "" := snapshot_victimId req
  have hrequest : (requestMapping req).backfireVictimId.getD "" = req.backfireVictimId := rfl
  unfold RoastMapping.victims RoastMapping.namedVictims
  rw [hids, hid, hrequest]
  simp only [catalogMapping_kind, catalogMapping_targetUser, catalogMapping_attackerUser,
    requestMapping_kind, requestMapping_targetUser, requestMapping_attackerUser]
  show (List.filter _ (if req.eventType = "success" ∧ req.targetId ≠ "" ∧
    req.targetId ≠ req.attackerId then _ else if req.eventType = "backfire" ∨
      req.eventType = "bot_backfire" then _ else _)).reverse.dedup.reverse = _
  by_cases hbackfire : req.eventType = "backfire" ∨ req.eventType = "bot_backfire"
  · have hsame : orElse (if req.KeepsVictim then req.backfireVictimId else "") req.attackerId =
        orElse req.backfireVictimId req.attackerId := by
      by_cases hkeep : req.KeepsVictim
      · rw [if_pos hkeep]
      · rw [if_neg hkeep]
        by_cases hempty : req.backfireVictimId = ""
        · rw [hempty]
        · have hattacker : req.backfireVictimId = req.attackerId := by
            by_contra hother
            exact hkept ⟨hkeep, hbackfire, hempty, hother⟩
          rw [hattacker]
          unfold orElse
          simp
    rw [show (insertedEvent e req).attackerId = req.attackerId from rfl, hsame]
    rfl
  · simp only [if_neg hbackfire]
    rfl

/-- A victim that is not stored is replaced by the attacker. -/
theorem recorded_victims_lost (e : Env) (req : EventCreateRequest) (id : Nat)
    (hlost : req.LosesVictim) :
    req.backfireVictimId ∈ (requestMapping req).victims ∧
      req.backfireVictimId ∉ (catalogMapping (insertedEvent e req, id)).victims := by
  obtain ⟨hkeep, hbackfire, hnamed, hother⟩ := hlost
  have hnone : req.backfireVictimIds = [] := by
    by_contra hids
    exact hkeep (Or.inr (Or.inr (Or.inr (Or.inl hids))))
  have hids : (catalogMapping (insertedEvent e req, id)).backfireVictimIds.getD [] = [] :=
    (snapshot_victimIds req).trans hnone
  have hid : (catalogMapping (insertedEvent e req, id)).backfireVictimId.getD "" = "" :=
    (snapshot_victimId req).trans (if_neg hkeep)
  constructor
  · refine RoastMapping.mem_victims.mpr ⟨?_, hnamed⟩
    have hkind : (requestMapping req).kind = "backfire" ∨
        (requestMapping req).kind = "bot_backfire" := by
      rw [requestMapping_kind]
      exact hbackfire
    rw [RoastMapping.namedVictims_single hkind hnone]
    show _ ∈ [orElse req.backfireVictimId _]
    simp [orElse, hnamed]
  · intro hmem
    have hvictim := (RoastMapping.mem_victims.mp hmem).1
    have hkind : (catalogMapping (insertedEvent e req, id)).kind = "backfire" ∨
        (catalogMapping (insertedEvent e req, id)).kind = "bot_backfire" := by
      rw [catalogMapping_kind]
      exact hbackfire
    rw [RoastMapping.namedVictims_single hkind hids, hid, catalogMapping_attackerUser] at hvictim
    exact hother (List.mem_singleton.mp hvictim)

/-- **A row attributes what its request does, unless it lost the victim.** -/
theorem recorded_attribution_iff (e : Env) (req : EventCreateRequest) (id : Nat) :
    (catalogMapping (insertedEvent e req, id)).attribution = (requestMapping req).attribution ↔
      ¬ req.LosesVictim := by
  constructor
  · intro hsame hlost
    obtain ⟨hin, hout⟩ := recorded_victims_lost e req id hlost
    have hvictims := (Prod.mk.inj hsame).1
    exact hout (Multiset.mem_coe.mp (hvictims ▸ Multiset.mem_coe.mpr hin))
  · intro hkept
    unfold RoastMapping.attribution
    rw [recorded_victims e req id hkept, recorded_specialKind]

/-! ### The two handlers -/

/-- The request as `create_event` dates it. -/
def datedRequest (e : Env) (req : EventCreateRequest) : EventCreateRequest :=
  { req with dateStr := some (req.dateStr.getD (rollpigToday e.now)) }

theorem createEvent_row (h : (createEvent e req db).2.roastEvents = db.roastEvents ++ [row]) :
    row = insertedEvent e (boundRequest (datedRequest e req) none db) := by
  have hrecorded : (recordRoastEventWithStatus e (datedRequest e req) none db).2.roastEvents =
      db.roastEvents ++ [row] := by
    rw [← h]
    unfold createEvent datedRequest
    dsimp only
    split
    · exact (applyDailyFeed_writes e _ _ _ _ _ .roastEvents (by decide)).symm
    · rfl
  exact recorded_row hrecorded

/-- The round an event sent along with a completion is bound to. -/
theorem complete_row {req : RoastReservationCompleteRequest} {event : EventCreateRequest}
    (hevent : req.event = some event)
    (h : (complete e req db).2.roastEvents = db.roastEvents ++ [row]) :
    ∃ found, (complete e req db).1.reservation = some found ∧
      row = insertedEvent e (bindReservationEvent found event) := by
  unfold complete at h ⊢
  cases hleased : leasedRow db req.reservationId req.claimToken [.sending, .completed] with
  | none =>
      rw [hleased] at h
      exact absurd (congrArg List.length h) (by simp)
  | some leased =>
      rw [hleased] at h
      rw [hevent] at h ⊢
      let db' := (answer (completedRow e leased) db).2
      let found := db'.schema (completedRow e leased)
      refine ⟨found, rfl, ?_⟩
      have hnew : (recordRoastEventWithStatus e (bindReservationEvent found event) (some found)
          db').2.roastEvents = db'.roastEvents ++ [row] := h
      rw [recorded_row hnew]
      unfold boundRequest
      split
      · rfl
      · rfl

/-- **Recording changes who was roasted exactly when it loses a victim**: by `POST /v1/events`
and by `/complete` alike, and nothing else can be lost. -/
theorem attribution_kept_iff (e : Env) (db : Db) (row : RoastEvent) :
    (∀ req, (createEvent e req db).2.roastEvents = db.roastEvents ++ [row] →
      ((catalogMapping (row, db.roastEvents.length + 1)).attribution =
          (requestMapping (boundRequest (datedRequest e req) none db)).attribution ↔
        ¬ (boundRequest (datedRequest e req) none db).LosesVictim)) ∧
      ∀ (req : RoastReservationCompleteRequest) event, req.event = some event →
        (complete e req db).2.roastEvents = db.roastEvents ++ [row] →
        ∃ found, (complete e req db).1.reservation = some found ∧
          ((catalogMapping (row, db.roastEvents.length + 1)).attribution =
              (requestMapping (bindReservationEvent found event)).attribution ↔
            ¬ (bindReservationEvent found event).LosesVictim) := by
  constructor
  · intro req hrow
    rw [createEvent_row hrow]
    exact recorded_attribution_iff e _ _
  · intro req event hevent hrow
    obtain ⟨found, hfound, rfl⟩ := complete_row hevent hrow
    exact ⟨found, hfound, recorded_attribution_iff e _ _⟩

/-- A backfire without a round that hit a guest. -/
def guestBackfire : EventCreateRequest :=
  { eventType := "backfire", attackerId := "cook", targetId := "target",
    backfireVictimId := "guest" }

/-- A round that is being sent. -/
def sendingRound : RoastReservation :=
  { reservationId := "r", dateStr := 739000, groupId := "100", targetId := "target",
    ownerId := "cook", ownerPigId := "boar", deliveryBotId := "bot", status := .sending,
    claimToken := some "token", createdAt := 0 }

def sendingDb : Db := { reservations := [sendingRound] }

def guestCompletion : RoastReservationCompleteRequest :=
  { reservationId := "r", claimToken := "token", event := some guestBackfire }

theorem attribution_kept_guest :
    (∃ row, (createEvent catalogEnv { guestBackfire with forceMode := "super" } {}).2.roastEvents =
        [row] ∧ (catalogMapping (row, 1)).attribution = ({"guest"}, none)) ∧
      ∃ row, (complete catalogEnv guestCompletion sendingDb).2.roastEvents = [row] ∧
        (catalogMapping (row, 1)).attribution = ({"guest"}, none) := by
  constructor
  · let req : EventCreateRequest := { guestBackfire with forceMode := "super" }
    let row := insertedEvent catalogEnv (datedRequest catalogEnv req)
    have hrow : (createEvent catalogEnv req {}).2.roastEvents = [row] := by decide +kernel
    refine ⟨row, hrow, ?_⟩
    have hkept := ((attribution_kept_iff catalogEnv {} row).1 req hrow).mpr (by decide +kernel)
    refine hkept.trans ?_
    decide +kernel
  · let item := reservationToSchema (completedRow catalogEnv sendingRound) []
    let row := insertedEvent catalogEnv (bindReservationEvent item guestBackfire)
    have hrow : (complete catalogEnv guestCompletion sendingDb).2.roastEvents = [row] := by
      decide +kernel
    have hanswer : (complete catalogEnv guestCompletion sendingDb).1.reservation = some item := by
      decide +kernel
    refine ⟨row, hrow, ?_⟩
    obtain ⟨found, hfound, hiff⟩ := (attribution_kept_iff catalogEnv sendingDb row).2
      guestCompletion guestBackfire rfl hrow
    obtain rfl : item = found := Option.some.inj (hanswer.symm.trans hfound)
    refine (hiff.mpr (by decide +kernel)).trans ?_
    decide +kernel

/-- The guest was roasted, the attacker is counted. -/
theorem guest_backfire_misattributed :
    ∃ row, (createEvent catalogEnv guestBackfire {}).2.roastEvents = [row] ∧
      (requestMapping (boundRequest (datedRequest catalogEnv guestBackfire) none {})).attribution =
        ({"guest"}, none) ∧
      (catalogMapping (row, 1)).attribution = ({"cook"}, none) := by
  refine ⟨insertedEvent catalogEnv (datedRequest catalogEnv guestBackfire), ?_, ?_, ?_⟩
  all_goals decide +kernel

/-! ### Reading the event back -/

/-- The item a request is read back as. -/
def requestItem (id : Nat) (createdAt : Time) (req : EventCreateRequest) : EventItem :=
  { eventId := toString id
    createdAt
    type := req.eventType
    attacker := req.attackerId
    target := req.targetId
    attackerName := req.attackerName
    targetName := req.targetName
    food := req.food
    groupId := req.groupId
    reservationId := req.reservationId
    participantIds := req.participantIds
    participantNames := req.participantNames
    participantCount := req.participantCount
    backfireVictimId := req.backfireVictimId
    backfireVictimName := req.backfireVictimName
    backfireVictimIds := req.backfireVictimIds
    backfireVictimNames := req.backfireVictimNames
    specialReason := req.specialReason
    forceMode := req.forceMode
    protectionLevel := req.protectionLevel
    reservationOwnerId := req.reservationOwnerId
    reservationOwnerName := req.reservationOwnerName }

/-- Names stand beside the ids they belong to. -/
structure EventCreateRequest.NamesIds (req : EventCreateRequest) : Prop where
  victims : req.backfireVictimIds = [] → req.backfireVictimNames = []
  owner : req.forceMode = "" → req.reservationOwnerId = "" → req.reservationOwnerName = ""

/-- **The snapshot of a round's event keeps every field.** -/
theorem eventItem_insertedEvent (e : Env) (id : Nat) (hround : req.reservationId ≠ "")
    (hnames : req.NamesIds) :
    eventItem (insertedEvent e req) id = requestItem id e.dbNow req := by
  have hvictims := hnames.victims
  have howner := hnames.owner
  unfold eventItem requestItem insertedEvent eventSnapshot addForceDetails addSpecialReason
    reservationSnapshot
  split_ifs <;> simp_all

/-- Binding to a round replaces the owner, who is named in a forced round only. -/
theorem EventCreateRequest.NamesIds.bind (hvictims : req.backfireVictimIds = [] →
    req.backfireVictimNames = []) (found : RoastReservationItem) :
    (bindReservationEvent found req).NamesIds where
  victims := hvictims
  owner hplain _ := by
    unfold bindReservationEvent at hplain ⊢
    dsimp only at hplain ⊢
    rw [if_neg]
    intro hsuper
    rw [decide_eq_true_eq] at hsuper
    rw [hsuper] at hplain
    exact absurd hplain (by decide)

/-- The event that was recorded last is listed under its date. -/
theorem insertedEvent_listed (e : Env) (req : EventCreateRequest) (db : Db) :
    eventItem (insertedEvent e req) (db.roastEvents.length + 1) ∈
      listEvents (insertedEvent e req).dateStr none none none (insertRoastEvent e req db) := by
  unfold listEvents
  rw [insertRoastEvent_events]
  refine List.mem_map.mpr ⟨(insertedEvent e req, db.roastEvents.length + 1), ?_, rfl⟩
  simp [List.mem_insertionSort, List.zipIdx_append, atCutoff, Nat.add_comm]

/-- **A round's event is read back as it was recorded.** -/
theorem round_event_read_back (e : Env) (req : EventCreateRequest)
    (item : Option RoastReservationItem) (db : Db) (hround : req.reservationId ≠ "")
    (hitem : ∀ found, item = some found → found.reservationId = req.reservationId)
    (hvictims : req.backfireVictimIds = [] → req.backfireVictimNames = [])
    (howner : req.reservationOwnerId = "" → req.reservationOwnerName = "")
    (hnew : (recordRoastEventWithStatus e req item db).1 = (true, true)) :
    let bound := boundRequest req item db
    requestItem (db.roastEvents.length + 1) e.dbNow bound ∈
      listEvents (bound.dateStr.getD (rollpigToday e.now)) none none none
        (recordRoastEventWithStatus e req item db).2 := by
  intro bound
  have hrecorded : recordRoastEventWithStatus e req item db =
      ((true, true), insertRoastEvent e bound db) := by
    rcases recordRoastEventWithStatus_cases e req item db with hcase | hcase
    · exact hcase
    · rw [hcase] at hnew
      exact absurd (Prod.mk.inj hnew).2 (by decide)
  have hbound : bound.reservationId ≠ "" ∧ bound.NamesIds := by
    unfold bound boundRequest
    rw [if_neg hround]
    cases hfound : boundItem req item db with
    | none => exact ⟨hround, hvictims, fun _ => howner⟩
    | some found =>
        refine ⟨?_, EventCreateRequest.NamesIds.bind hvictims found⟩
        show found.reservationId ≠ ""
        unfold boundItem at hfound
        cases item with
        | some given =>
            obtain rfl := Option.some.inj hfound
            rw [hitem given rfl]
            exact hround
        | none =>
            obtain ⟨row, hrow, rfl⟩ := Option.map_eq_some_iff.mp hfound
            have hid := List.find?_some hrow
            rw [decide_eq_true_eq] at hid
            show row.reservationId ≠ ""
            rw [hid]
            exact hround
  rw [hrecorded, ← eventItem_insertedEvent e _ hbound.1 hbound.2]
  exact insertedEvent_listed e bound db

/-- The guest's backfire as the event of the round that is being sent. -/
theorem round_event_read_back_guest :
    requestItem 1 catalogEnv.dbNow (boundRequest { guestBackfire with reservationId := "r" } none
        sendingDb) ∈
      listEvents 739000 none none none (recordRoastEventWithStatus catalogEnv
        { guestBackfire with reservationId := "r" } none sendingDb).2 :=
  round_event_read_back catalogEnv { guestBackfire with reservationId := "r" } none sendingDb
    (by decide) (fun _ h => nomatch h) (fun _ => rfl) (fun _ => rfl) (by decide +kernel)

end RollPig
