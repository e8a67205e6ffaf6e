/-
Who tells that it drew the roll.

A handler that inserted the roll knows it until one of its transactions is refused; from then on
it finds its own roll and answers as if another handler had drawn it.  So `created` is told by
the one handler that inserted the roll, and only if nothing of it was refused afterwards
(`KeptDrawing`).
-/
import RollPig.Conflicts
import RollPig.Proofs.Snapshots

namespace RollPig

open Transition

variable {e : Env} {db db' : Db} {s s' : RollCalls} {event : RollCallEvent}
  {events : List RollCallEvent} {call : RollCall} {i j : Nat} {phase : RollPhase}

/-! ### The two transactions -/

/-- The user and the date a handler is about. -/
def RollCall.key (call : RollCall) : Date × String := (call.req.dateStr, call.req.userId)

/-- The users and dates that have a roll. -/
def Db.rolled (db : Db) : List (Date × String) := db.dailyRolls.map rollKey

theorem dailyRoll?_isSome (db : Db) (date : Date) (userId : String) :
    (db.dailyRoll? date userId).isSome = true ↔ (date, userId) ∈ db.rolled := by
  rw [dailyRoll?_lookup, Option.isSome_iff_ne_none, ne_eq, Tables.lookup_none, not_not]
  rfl

theorem buildLookupResponse_created (db : Db) (roll : DailyRoll) (created : Bool) :
    (buildLookupResponse db (some roll) created).created = created := by
  unfold buildLookupResponse
  dsimp only
  split <;> rfl

/-- A roll that is there is found, and the rolls stay. -/
theorem getOrCreateDailyRoll_found {req : DailyRollGetOrCreateRequest}
    (h : (db.dailyRoll? req.dateStr req.userId).isSome = true) :
    (getOrCreateDailyRoll e req db).2.rolled = db.rolled ∧
      ((∃ response, (getOrCreateDailyRoll e req db).1 = .inl response ∧ response.created = false) ∨
        ∃ flight, (getOrCreateDailyRoll e req db).1 = .inr flight ∧ flight.created = false) := by
  obtain ⟨roll, hroll⟩ := Option.isSome_iff_exists.mp h
  unfold getOrCreateDailyRoll
  rw [hroll]
  dsimp only
  split
  · exact ⟨rfl, Or.inl ⟨_, rfl, buildLookupResponse_created _ _ _⟩⟩
  · refine ⟨?_, Or.inr ⟨_, rfl, rfl⟩⟩
    simp only [Db.rolled, ensureGroupRoll_frame]

/-- A roll that is missing is drawn. -/
theorem getOrCreateDailyRoll_missing {req : DailyRollGetOrCreateRequest}
    (h : db.dailyRoll? req.dateStr req.userId = none) :
    (getOrCreateDailyRoll e req db).2.rolled = db.rolled ++ [(req.dateStr, req.userId)] ∧
      ∃ flight, (getOrCreateDailyRoll e req db).1 = .inr flight ∧ flight.created = true := by
  unfold getOrCreateDailyRoll
  rw [h]
  dsimp only
  refine ⟨?_, _, rfl, rfl⟩
  obtain ⟨progress, -, hrolls⟩ := createDailyRoll_rolls e
    { userId := req.userId, pigId := req.proposedPigId, dateStr := req.dateStr,
      createdAt := e.dbNow } db
  simp only [Db.rolled, activateTargetReservations_frame, ensureGroupRoll_frame, hrolls,
    List.map_append]
  rfl

theorem reconcileReservationsAfterCommit_created (e : Env) (flight : RollInFlight) (db : Db) :
    (reconcileReservationsAfterCommit e flight db).1.created = flight.created ∧
      (reconcileReservationsAfterCommit e flight db).2.rolled = db.rolled := by
  unfold reconcileReservationsAfterCommit
  refine ⟨buildLookupResponse_created _ _ _, ?_⟩
  simp only [Db.rolled, activateTargetReservations_frame]

/-- Other requests insert no roll. -/
theorem elsewhere_rolled {request : Request} (h : request.inserts = false) (view : List DailyRoll) :
    (request.transaction e view db).db.rolled = db.rolled := by
  have hnone : ∀ roll, ¬ request.draws roll := by
    intro roll
    cases request with
    | getOrCreate | makeup => cases h
    | _ => exact id
  have hrolls := request.transaction_rolls e view db
  generalize (request.transaction e view db).db = after at hrolls
  unfold Db.rolled
  generalize after.dailyRolls = rolls at hrolls
  cases hrolls with
  | same => rfl
  | created roll hdraws => exact absurd hdraws (hnone roll)
  | completed roll => exact Tables.map_key_writeBack

/-! ### What a step can do -/

theorem getElem?_goOn (hcall : s.calls[i]? = some call) (j : Nat) :
    (s.goOn i call phase db).calls[j]? = if j = i then some { call with phase } else s.calls[j]? := by
  show (s.calls.set i { call with phase })[j]? = _
  obtain ⟨hlt, -⟩ := List.getElem?_eq_some_iff.mp hcall
  rw [List.getElem?_set]
  by_cases hsame : i = j
  · rw [if_pos hsame, if_pos hsame.symm, if_pos (hsame ▸ hlt)]
  · rw [if_neg hsame, if_neg (Ne.symm hsame)]

/-- What the handler will tell in the end, or has told. -/
def RollPhase.Tells (told : Bool) : RollPhase → Prop
  | .reconciling _ flight _ => flight.created = told
  | .returned response => response.created = told
  | _ => told = false

/-- The handler has found or drawn the roll. -/
def RollPhase.Holds : RollPhase → Prop
  | .reconciling _ _ _ | .returned _ => True
  | _ => False

/-- What a handler will tell after an event: that it drew the roll, until it is refused. -/
def RollCallEvent.tell (i : Nat) (told : Bool) : RollCallEvent → Bool
  | .commit j _ true => if j = i then true else told
  | .refuse j _ => if j = i then false else told
  | _ => told

/-- The rolls after an event: the same, or one that a handler drew for its user and date. -/
inductive RollsDrawn (s : RollCalls) (i : Nat) (call : RollCall) (db : Db) : RollCallEvent → Prop
  | draw (e : Env) (hnew : call.key ∉ s.db.rolled) (hrolled : db.rolled = s.db.rolled ++ [call.key]) :
      RollsDrawn s i call db (.commit i e true)
  | same {event : RollCallEvent} (hquiet : ∀ j e, event ≠ .commit j e true)
      (hrolled : db.rolled = s.db.rolled) : RollsDrawn s i call db event

/-- A step: a handler arrives, one goes on, or none of them. -/
inductive RollCallStep (s : RollCalls) : RollCallEvent → RollCalls → Prop
  | arrive (req : DailyRollGetOrCreateRequest) :
      RollCallStep s (.arrive req) { s with calls := s.calls ++ [{ req }] }
  | goesOn {event : RollCallEvent} (i : Nat) (call : RollCall) (hcall : s.calls[i]? = some call)
      (phase : RollPhase) (db : Db)
      (htells : ∀ told, call.phase.Tells told → phase.Tells (event.tell i told))
      (hothers : ∀ j told, j ≠ i → event.tell j told = told) (hdrawn : RollsDrawn s i call db event)
      (hholds : phase.Holds → call.phase.Holds ∨ call.key ∈ db.rolled) :
      RollCallStep s event (s.goOn i call phase db)
  | elsewhere (e : Env) (action : Action) (db : Db) (hrolled : db.rolled = s.db.rolled) :
      RollCallStep s (.elsewhere e action) { s with db }

/-- A handler that starts anew has nothing to tell. -/
theorem retry_tells (attempt : Nat) :
    (RollPhase.retry attempt).Tells false ∧ ¬ (RollPhase.retry attempt).Holds := by
  unfold RollPhase.retry
  by_cases hlast : attempt = 2
  · rw [if_pos hlast]
    exact ⟨rfl, id⟩
  · rw [if_neg hlast]
    exact ⟨rfl, id⟩

theorem refused_tells {conflict : Conflict} {refused : RollPhase}
    (h : phase.refused conflict = some refused) : refused.Tells false ∧ ¬ refused.Holds := by
  have hsplit : ∀ (p : Prop) [Decidable p] attempt,
      (if p then RollPhase.recovering attempt else .retry attempt).Tells false ∧
        ¬ (if p then RollPhase.recovering attempt else .retry attempt).Holds := by
    intro p _ attempt
    by_cases hp : p
    · rw [if_pos hp]
      exact ⟨rfl, id⟩
    · rw [if_neg hp]
      exact retry_tells attempt
  cases phase with
  | start attempt | recovering attempt =>
      obtain rfl := Option.some.inj h
      exact retry_tells attempt
  | opened attempt | reconciling attempt =>
      obtain rfl := Option.some.inj h
      exact hsplit _ attempt
  | returned | raised => cases h

/-- A handler that finds the roll has drawn none. -/
theorem committed_found {req : DailyRollGetOrCreateRequest} (attempt : Nat) (inTry : Bool)
    (h : (db.dailyRoll? req.dateStr req.userId).isSome = true) :
    (RollPhase.committed attempt inTry (getOrCreateDailyRoll e req db).1).Tells false := by
  obtain ⟨-, ⟨response, hresult, hcreated⟩ | ⟨flight, hresult, hcreated⟩⟩ :=
    getOrCreateDailyRoll_found (e := e) h
  · rw [hresult]
    exact hcreated
  · rw [hresult]
    exact hcreated

theorem tell_others {drew : Bool} (hne : j ≠ i) (told : Bool) :
    (RollCallEvent.commit i e drew).tell j told = told := by
  cases drew with
  | false => rfl
  | true => exact if_neg (Ne.symm hne)

/-- A commit that finds the roll. -/
theorem RollCallStep.of_found (hcall : s.calls[i]? = some call) (attempt : Nat) (inTry : Bool)
    (hfound : (s.db.dailyRoll? call.req.dateStr call.req.userId).isSome = true)
    (htold : ∀ told, call.phase.Tells told → told = false) :
    RollCallStep s (.commit i e false)
      (s.goOn i call (.committed attempt inTry (getOrCreateDailyRoll e call.req s.db).1)
        (getOrCreateDailyRoll e call.req s.db).2) := by
  have hrolled := (getOrCreateDailyRoll_found (e := e) hfound).1
  refine .goesOn i call hcall _ _ (fun told hbefore => ?_) (fun j told hne => tell_others hne told)
    (.same (fun _ _ h => nomatch h) hrolled) fun _ => Or.inr ?_
  · rw [htold told hbefore]
    exact committed_found attempt inTry hfound
  · rw [hrolled]
    exact (dailyRoll?_isSome _ _ _).mp hfound

/-- What a commit does. -/
theorem commit_goesOn (hcall : s.calls[i]? = some call)
    (h : call.commit e s.db = some (phase, db)) :
    RollCallStep s (.commit i e call.draws) (s.goOn i call phase db) := by
  obtain ⟨req, before⟩ := call
  unfold RollCall.commit at h
  cases before with
  | start | returned | raised => cases h
  | opened attempt found =>
      dsimp only at h
      split at h
      · rename_i hread
        obtain ⟨rfl, rfl⟩ := Prod.mk.inj (Option.some.inj h)
        cases found with
        | true => exact .of_found hcall attempt false hread fun _ hbefore => hbefore
        | false =>
            have hnone : s.db.dailyRoll? req.dateStr req.userId = none := by
              simpa using hread
            obtain ⟨hrolled, flight, hresult, hcreated⟩ := getOrCreateDailyRoll_missing (e := e) hnone
            have hnew : (req.dateStr, req.userId) ∉ s.db.rolled := fun hold => by
              rw [← dailyRoll?_isSome, hread] at hold
              cases hold
            refine .goesOn i _ hcall _ _ (fun told _ => ?_) (fun j told hne => tell_others hne told)
              (.draw e hnew hrolled) fun _ => Or.inr ?_
            · rw [hresult]
              exact hcreated.trans (if_pos rfl).symm
            · rw [hrolled]
              exact List.mem_append_right _ (List.mem_singleton_self _)
      · cases h
  | recovering attempt =>
      dsimp only at h
      split at h
      · obtain ⟨rfl, rfl⟩ := Prod.mk.inj (Option.some.inj h)
        obtain ⟨htells, hholds⟩ := retry_tells attempt
        refine .goesOn i _ hcall _ _ (fun told hbefore => ?_)
          (fun j told hne => tell_others hne told) (.same (fun _ _ h => nomatch h) rfl)
          fun hheld => absurd hheld hholds
        obtain rfl : told = false := hbefore
        exact htells
      · rename_i hread
        obtain ⟨rfl, rfl⟩ := Prod.mk.inj (Option.some.inj h)
        have hfound : (s.db.dailyRoll? req.dateStr req.userId).isSome = true := by
          simpa [Option.isSome_iff_ne_none] using hread
        exact .of_found hcall attempt false hfound fun _ hbefore => hbefore
  | reconciling attempt flight inTry =>
      obtain ⟨rfl, rfl⟩ := Prod.mk.inj (Option.some.inj h)
      obtain ⟨hcreated, hrolled⟩ := reconcileReservationsAfterCommit_created e flight s.db
      exact .goesOn i _ hcall _ _ (fun told hbefore => hcreated.trans hbefore)
        (fun j told hne => tell_others hne told) (.same (fun _ _ h => nomatch h) hrolled)
        fun _ => Or.inl trivial

/-- **What a step does.** -/
theorem rollCalls_step (hstep : rollCalls.step s event s') : RollCallStep s event s' := by
  replace hstep : s.next? event = some s' := hstep
  cases event with
  | arrive req =>
      obtain rfl := Option.some.inj hstep
      exact .arrive req
  | read i =>
      unfold RollCalls.next? at hstep
      dsimp only at hstep
      split at hstep
      · rename_i req attempt hcall
        obtain rfl := Option.some.inj hstep
        exact .goesOn i _ hcall _ _ (fun told hbefore => hbefore) (fun _ _ _ => rfl)
          (.same (fun _ _ h => nomatch h) rfl) fun hholds => hholds.elim
      · cases hstep
  | commit i e drew =>
      unfold RollCalls.next? at hstep
      cases hcall : s.calls[i]? with
      | none =>
          simp only [hcall] at hstep
          cases hstep
      | some call =>
          simp only [hcall] at hstep
          cases hcommit : call.commit e s.db with
          | none =>
              simp only [hcommit] at hstep
              cases hstep
          | some result =>
              obtain ⟨phase, db⟩ := result
              simp only [hcommit] at hstep
              split at hstep
              · rename_i hdrew
                obtain rfl := Option.some.inj hstep
                rw [hdrew]
                exact commit_goesOn hcall hcommit
              · cases hstep
  | refuse i conflict =>
      unfold RollCalls.next? at hstep
      cases hcall : s.calls[i]? with
      | none =>
          simp only [hcall] at hstep
          cases hstep
      | some call =>
          simp only [hcall] at hstep
          cases hrefused : call.phase.refused conflict with
          | none =>
              simp only [hrefused] at hstep
              cases hstep
          | some phase =>
              simp only [hrefused] at hstep
              obtain rfl := Option.some.inj hstep
              obtain ⟨htells, hholds⟩ := refused_tells hrefused
              refine .goesOn i call hcall phase s.db (fun told _ => ?_) (fun j told hne => ?_)
                (.same (fun _ _ h => nomatch h) rfl) fun hheld => absurd hheld hholds
              · exact (show (RollCallEvent.refuse i conflict).tell i told = false from if_pos rfl) ▸
                  htells
              · exact if_neg (Ne.symm hne)
  | elsewhere e action =>
      unfold RollCalls.next? at hstep
      cases action with
      | request request view =>
          dsimp only at hstep
          split at hstep
          · cases hstep
          · rename_i hinserts
            obtain rfl := Option.some.inj hstep
            exact .elsewhere e _ _ (elsewhere_rolled (by simpa using hinserts) view)
      | reconcile flight =>
          obtain rfl := Option.some.inj hstep
          refine .elsewhere e _ _ ?_
          have hsame : (flight.transaction e s.db).db.dailyRolls = s.db.dailyRolls :=
            flight.transaction_writes e s.db .dailyRolls (by decide)
          show (flight.transaction e s.db).db.rolled = s.db.rolled
          unfold Db.rolled
          rw [hsame]

/-! ### The history of a handler -/

/-- The handler inserted the roll, and none of its transactions was refused afterwards. -/
def KeptDrawing (events : List RollCallEvent) (i : Nat) : Prop :=
  ∃ before e after, events = before ++ .commit i e true :: after ∧
    ∀ conflict, RollCallEvent.refuse i conflict ∉ after

theorem keptDrawing_snoc : KeptDrawing (events ++ [event]) i ↔
    (∃ e, event = .commit i e true) ∨
      (KeptDrawing events i ∧ ∀ conflict, event ≠ .refuse i conflict) := by
  constructor
  · rintro ⟨before, e, after, hevents, hkept⟩
    rcases List.eq_nil_or_concat after with rfl | ⟨rest, last, rfl⟩
    · obtain ⟨-, hlast⟩ := List.append_inj' hevents rfl
      exact Or.inl ⟨e, List.singleton_inj.mp hlast⟩
    · rw [List.concat_eq_append, ← List.cons_append, ← List.append_assoc] at hevents
      obtain ⟨hrest, hlast⟩ := List.append_inj' hevents rfl
      obtain rfl := List.singleton_inj.mp hlast
      refine Or.inr ⟨⟨before, e, rest, hrest, fun conflict hmem => ?_⟩, fun conflict hrefused => ?_⟩
      · exact hkept conflict (List.concat_eq_append ▸ List.mem_append_left _ hmem)
      · refine hkept conflict ?_
        rw [List.concat_eq_append, ← hrefused]
        exact List.mem_append_right _ (List.mem_singleton_self _)
  · rintro (⟨e, rfl⟩ | ⟨⟨before, e, after, rfl, hkept⟩, hother⟩)
    · exact ⟨events, e, [], rfl, fun _ h => nomatch h⟩
    · refine ⟨before, e, after ++ [event], by simp, fun conflict hmem => ?_⟩
      rcases List.mem_append.mp hmem with hold | hlast
      · exact hkept conflict hold
      · exact hother conflict (List.mem_singleton.mp hlast).symm

/-- What a handler has to tell after these events. -/
def toldAfter (i : Nat) (events : List RollCallEvent) : Bool :=
  events.foldl (fun told event => event.tell i told) false

theorem toldAfter_snoc (i : Nat) (events : List RollCallEvent) (event : RollCallEvent) :
    toldAfter i (events ++ [event]) = event.tell i (toldAfter i events) := by
  unfold toldAfter
  rw [List.foldl_append]
  rfl

theorem toldAfter_iff : toldAfter i events = true ↔ KeptDrawing events i := by
  induction events using List.reverseRecOn with
  | nil =>
      refine ⟨fun h => (nomatch h), ?_⟩
      rintro ⟨before, e, after, hevents, -⟩
      exact absurd hevents.symm (List.append_ne_nil_of_right_ne_nil before (List.cons_ne_nil _ _))
  | append_singleton events event ih =>
      rw [toldAfter_snoc, keptDrawing_snoc, ← ih]
      cases event with
      | commit j e drew =>
          cases drew with
          | false => simp [RollCallEvent.tell]
          | true => by_cases hsame : j = i <;> simp [RollCallEvent.tell, hsame]
      | refuse j conflict => by_cases hsame : j = i <;> simp [RollCallEvent.tell, hsame]
      | arrive | read | elsewhere => simp [RollCallEvent.tell]

/-! ### What a run keeps -/

/-- What holds of the handlers after these events, from a database with these rolls on. -/
structure HandlersSound (rolled₀ : List (Date × String)) (events : List RollCallEvent)
    (s : RollCalls) : Prop where
  tells : ∀ (i : Nat) (call : RollCall), s.calls[i]? = some call →
    call.phase.Tells (toldAfter i events)
  holds : ∀ (i : Nat) (call : RollCall), s.calls[i]? = some call → call.phase.Holds →
    call.key ∈ s.db.rolled
  drawn : ∀ i e, .commit i e true ∈ events → ∃ call, s.calls[i]? = some call ∧ call.key ∈ s.db.rolled
  once : ∀ i e j e', .commit i e true ∈ events → .commit j e' true ∈ events →
    ∀ call call' : RollCall, s.calls[i]? = some call → s.calls[j]? = some call' →
      call.key = call'.key → i = j
  source : ∀ k ∈ s.db.rolled, k ∈ rolled₀ ∨
    ∃ i e call, .commit i e true ∈ events ∧ s.calls[i]? = some call ∧ call.key = k

variable {rolled₀ : List (Date × String)}

theorem HandlersSound.init (h : s.calls = []) : HandlersSound s.db.rolled [] s := by
  refine ⟨?_, ?_, fun _ _ hdrawn => (nomatch hdrawn), fun _ _ _ _ hdrawn => (nomatch hdrawn),
    fun k hk => Or.inl hk⟩
  · intro i call hcall
    rw [h] at hcall
    cases hcall
  · intro i call hcall
    rw [h] at hcall
    cases hcall

/-- A handler that was not called yet has drawn nothing. -/
theorem HandlersSound.uncalled (h : HandlersSound rolled₀ events s) (hnone : s.calls[i]? = none) :
    toldAfter i events = false := by
  rw [← Bool.not_eq_true, toldAfter_iff]
  rintro ⟨before, e, after, rfl, -⟩
  obtain ⟨call, hcall, -⟩ := h.drawn i e (List.mem_append_right _ List.mem_cons_self)
  rw [hnone] at hcall
  cases hcall

/-- Whoever drew has drawn before, or draws now. -/
theorem commit_mem_snoc {e : Env} (h : .commit i e true ∈ events ++ [event]) :
    .commit i e true ∈ events ∨ event = .commit i e true :=
  (List.mem_append.mp h).imp_right fun hlast => (List.mem_singleton.mp hlast).symm

/-- A handler is called. -/
theorem HandlersSound.arrive (h : HandlersSound rolled₀ events s) (req : DailyRollGetOrCreateRequest) :
    HandlersSound rolled₀ (events ++ [.arrive req]) { s with calls := s.calls ++ [{ req }] } := by
  have hdraws : ∀ i e, .commit i e true ∈ events ++ [.arrive req] → .commit i e true ∈ events :=
    fun i e hmem => (commit_mem_snoc hmem).resolve_right fun hlast => nomatch hlast
  have hforward : ∀ {i : Nat} {call : RollCall}, s.calls[i]? = some call →
      (s.calls ++ [({ req := req } : RollCall)])[i]? = some call := by
    intro i call hcall
    obtain ⟨hlt, -⟩ := List.getElem?_eq_some_iff.mp hcall
    rw [List.getElem?_append_left hlt]
    exact hcall
  have hback : ∀ {i : Nat} {call : RollCall}, (s.calls ++ [({ req := req } : RollCall)])[i]? = some call →
      s.calls[i]? = some call ∨ (s.calls[i]? = none ∧ call = { req := req }) := by
    intro i call hcall
    by_cases hlt : i < s.calls.length
    · rw [List.getElem?_append_left hlt] at hcall
      exact Or.inl hcall
    · rw [List.getElem?_append_right (Nat.not_lt.mp hlt)] at hcall
      have hmem := List.mem_of_getElem? hcall
      exact Or.inr ⟨List.getElem?_eq_none (Nat.not_lt.mp hlt), List.mem_singleton.mp hmem⟩
  refine ⟨fun i call hcall => ?_, fun i call hcall hholds => ?_, fun i e hdrawn => ?_, ?_, ?_⟩
  · rw [toldAfter_snoc]
    rcases hback hcall with hold | ⟨hnone, rfl⟩
    · exact h.tells i call hold
    · exact h.uncalled hnone
  · rcases hback hcall with hold | ⟨-, rfl⟩
    · exact h.holds i call hold hholds
    · exact hholds.elim
  · obtain ⟨call, hcall, hrolled⟩ := h.drawn i e (hdraws i e hdrawn)
    exact ⟨call, hforward hcall, hrolled⟩
  · intro i e j e' hi hj call call' hcall hcall' hkey
    obtain ⟨old, hold, -⟩ := h.drawn i e (hdraws i e hi)
    obtain ⟨old', hold', -⟩ := h.drawn j e' (hdraws j e' hj)
    obtain rfl := Option.some.inj ((hforward hold).symm.trans hcall)
    obtain rfl := Option.some.inj ((hforward hold').symm.trans hcall')
    exact h.once i e j e' (hdraws i e hi) (hdraws j e' hj) old old' hold hold' hkey
  · intro k hk
    rcases h.source k hk with hstart | ⟨i, e, call, hdrawn, hcall, hkey⟩
    · exact Or.inl hstart
    · exact Or.inr ⟨i, e, call, List.mem_append_left _ hdrawn, hforward hcall, hkey⟩

/-! A handler goes on: it and the others stay who they are, and what was drawn stays drawn. -/

theorem some_goOn {j : Nat} {call old : RollCall} (hcall : s.calls[i]? = some call)
    (hold : s.calls[j]? = some old) :
    ∃ new, (s.goOn i call phase db).calls[j]? = some new ∧ new.key = old.key := by
  rw [getElem?_goOn hcall]
  by_cases hsame : j = i
  · subst hsame
    obtain rfl := Option.some.inj (hcall.symm.trans hold)
    exact ⟨_, if_pos rfl, rfl⟩
  · exact ⟨old, (if_neg hsame).trans hold, rfl⟩

theorem some_of_goOn {j : Nat} {call new : RollCall} (hcall : s.calls[i]? = some call)
    (hnew : (s.goOn i call phase db).calls[j]? = some new) :
    ∃ old, s.calls[j]? = some old ∧ new.key = old.key := by
  rw [getElem?_goOn hcall] at hnew
  by_cases hsame : j = i
  · rw [if_pos hsame] at hnew
    obtain rfl := Option.some.inj hnew
    exact ⟨call, hsame ▸ hcall, rfl⟩
  · rw [if_neg hsame] at hnew
    exact ⟨new, hnew, rfl⟩

theorem RollsDrawn.kept {call : RollCall} (h : RollsDrawn s i call db event) {k : Date × String}
    (hk : k ∈ s.db.rolled) : k ∈ db.rolled := by
  cases h with
  | draw e hnew hrolled => exact hrolled ▸ List.mem_append_left _ hk
  | same hquiet hrolled => exact hrolled ▸ hk

/-- Who draws now had no roll before and has one afterwards. -/
theorem RollsDrawn.draws {call : RollCall} (h : RollsDrawn s i call db event) {j : Nat} {e : Env}
    (hmem : .commit j e true ∈ events ++ [event]) : .commit j e true ∈ events ∨
      (j = i ∧ call.key ∉ s.db.rolled ∧ call.key ∈ db.rolled) := by
  refine (commit_mem_snoc hmem).imp_right fun hevent => ?_
  cases h with
  | draw e' hnew hrolled =>
      obtain ⟨rfl, -⟩ := RollCallEvent.commit.inj hevent
      exact ⟨rfl, hnew, hrolled ▸ List.mem_append_right _ (List.mem_singleton_self _)⟩
  | same hquiet => exact absurd hevent (hquiet j e)

/-- What a handler drew before is on record. -/
theorem HandlersSound.rolled_of_drawn (h : HandlersSound rolled₀ events s) {j : Nat} {e : Env}
    {call : RollCall} (hdrawn : .commit j e true ∈ events) (hcall : s.calls[j]? = some call) :
    call.key ∈ s.db.rolled := by
  obtain ⟨first, hfirst, hrolled⟩ := h.drawn j e hdrawn
  obtain rfl := Option.some.inj (hcall.symm.trans hfirst)
  exact hrolled

theorem HandlersSound.goesOn (h : HandlersSound rolled₀ events s) (hcall : s.calls[i]? = some call)
    (htells : ∀ told, call.phase.Tells told → phase.Tells (event.tell i told))
    (hothers : ∀ j told, j ≠ i → event.tell j told = told) (hdrawn : RollsDrawn s i call db event)
    (hholds : phase.Holds → call.phase.Holds ∨ call.key ∈ db.rolled) :
    HandlersSound rolled₀ (events ++ [event]) (s.goOn i call phase db) := by
  refine ⟨fun j new hnew => ?_, fun j new hnew hheld => ?_, fun j e hmem => ?_, ?_, fun k hk => ?_⟩
  · rw [toldAfter_snoc]
    rw [getElem?_goOn hcall] at hnew
    by_cases hsame : j = i
    · rw [if_pos hsame] at hnew
      obtain rfl := Option.some.inj hnew
      exact hsame ▸ htells _ (h.tells i call hcall)
    · rw [if_neg hsame] at hnew
      rw [hothers j _ hsame]
      exact h.tells j new hnew
  · rw [getElem?_goOn hcall] at hnew
    by_cases hsame : j = i
    · rw [if_pos hsame] at hnew
      obtain rfl := Option.some.inj hnew
      rcases hholds hheld with hbefore | hthere
      · exact hdrawn.kept (h.holds i call hcall hbefore)
      · exact hthere
    · rw [if_neg hsame] at hnew
      exact hdrawn.kept (h.holds j new hnew hheld)
  · rcases hdrawn.draws hmem with hold | ⟨rfl, -, hthere⟩
    · obtain ⟨old, hold, hrolled⟩ := h.drawn j e hold
      obtain ⟨new, hnew, hkey⟩ := some_goOn hcall hold
      exact ⟨new, hnew, hkey ▸ hdrawn.kept hrolled⟩
    · obtain ⟨new, hnew, hkey⟩ := some_goOn hcall hcall
      exact ⟨new, hnew, hkey ▸ hthere⟩
  · intro j e j' e' hj hj' new new' hnew hnew' hkeys
    obtain ⟨old, hold, hkey⟩ := some_of_goOn hcall hnew
    obtain ⟨old', hold', hkey'⟩ := some_of_goOn hcall hnew'
    have hsame : old.key = old'.key := hkey.symm.trans (hkeys.trans hkey')
    rcases hdrawn.draws hj with hbefore | ⟨rfl, hmissing, -⟩
    · rcases hdrawn.draws hj' with hbefore' | ⟨rfl, hmissing, -⟩
      · exact h.once j e j' e' hbefore hbefore' old old' hold hold' hsame
      · obtain rfl := Option.some.inj (hcall.symm.trans hold')
        exact absurd (hsame ▸ h.rolled_of_drawn hbefore hold) hmissing
    · rcases hdrawn.draws hj' with hbefore' | ⟨rfl, -, -⟩
      · obtain rfl := Option.some.inj (hcall.symm.trans hold)
        exact absurd (hsame.symm ▸ h.rolled_of_drawn hbefore' hold') hmissing
      · rfl
  · replace hk : k ∈ db.rolled := hk
    have hold : k ∈ s.db.rolled → k ∈ rolled₀ ∨ ∃ j e new, .commit j e true ∈ events ++ [event] ∧
        (s.goOn i call phase db).calls[j]? = some new ∧ new.key = k := by
      intro hk
      rcases h.source k hk with hstart | ⟨j, e, old, hmem, hold, hkey⟩
      · exact Or.inl hstart
      · obtain ⟨new, hnew, hsame⟩ := some_goOn hcall hold
        exact Or.inr ⟨j, e, new, List.mem_append_left _ hmem, hnew, hsame.trans hkey⟩
    cases hdrawn with
    | same hquiet hrolled => exact hold (hrolled ▸ hk)
    | draw e hnew hrolled =>
        rw [hrolled] at hk
        rcases List.mem_append.mp hk with hbefore | hlast
        · exact hold hbefore
        · obtain ⟨new, hthere, hkey⟩ := some_goOn hcall hcall
          exact Or.inr ⟨i, e, new, List.mem_append_right _ (List.mem_singleton_self _), hthere,
            hkey.trans (List.mem_singleton.mp hlast).symm⟩

theorem HandlersSound.step (h : HandlersSound rolled₀ events s) (hstep : RollCallStep s event s') :
    HandlersSound rolled₀ (events ++ [event]) s' := by
  cases hstep with
  | arrive req => exact h.arrive req
  | elsewhere e action db hrolled =>
      have hdraws : ∀ i e', .commit i e' true ∈ events ++ [.elsewhere e action] →
          .commit i e' true ∈ events :=
        fun i e' hmem => (commit_mem_snoc hmem).resolve_right fun hlast => nomatch hlast
      refine ⟨fun i call hcall => ?_, fun i call hcall hholds => ?_, fun i e' hdrawn => ?_, ?_, ?_⟩
      · rw [toldAfter_snoc]
        exact h.tells i call hcall
      · exact hrolled ▸ h.holds i call hcall hholds
      · exact hrolled ▸ h.drawn i e' (hdraws i e' hdrawn)
      · exact fun i e' j e'' hi hj => h.once i e' j e'' (hdraws i e' hi) (hdraws j e'' hj)
      · intro k hk
        rcases h.source k (hrolled ▸ hk) with hstart | ⟨i, e', call, hdrawn, hcall, hkey⟩
        · exact Or.inl hstart
        · exact Or.inr ⟨i, e', call, List.mem_append_left _ hdrawn, hcall, hkey⟩
  | goesOn i call hcall phase db htells hothers hdrawn hholds =>
      exact h.goesOn hcall htells hothers hdrawn hholds

theorem handlers_run {s₀ : RollCalls} (hinit : rollCalls.init s₀) (h : Run rollCalls s₀ events s) :
    HandlersSound s₀.db.rolled events s := by
  refine h.history (I := fun events s => HandlersSound s₀.db.rolled events s) (.init hinit) ?_
  intro events t event u _ ht hstep
  exact ht.step (rollCalls_step hstep)

/-! ### The result -/

/-- What a handler that returned told of the roll. -/
def RollPhase.told? : RollPhase → Option Bool
  | .returned response => some response.created
  | _ => none

/-- The i-th handler is about this user and date. -/
def RollCalls.CalledFor (s : RollCalls) (i : Nat) (date : Date) (userId : String) : Prop :=
  s.calls[i]?.map (·.key) = some (date, userId)

/-- The i-th handler returned, and this is what it told of the roll. -/
def RollCalls.Returned (s : RollCalls) (i : Nat) (created : Bool) : Prop :=
  s.calls[i]?.bind (·.phase.told?) = some created

theorem returned_iff {created : Bool} : s.Returned i created ↔
    ∃ call response, s.calls[i]? = some call ∧ call.phase = .returned response ∧
      response.created = created := by
  unfold RollCalls.Returned
  rw [Option.bind_eq_some_iff]
  constructor
  · rintro ⟨call, hcall, htold⟩
    cases hphase : call.phase with
    | returned response =>
        rw [hphase] at htold
        exact ⟨call, response, hcall, hphase, Option.some.inj htold⟩
    | _ =>
        rw [hphase] at htold
        cases htold
  · rintro ⟨call, response, hcall, hphase, rfl⟩
    refine ⟨call, hcall, ?_⟩
    rw [hphase]
    rfl

/-- **A handler tells that it drew the roll exactly when nothing of it was refused since.**  In
every run, a handler that returns tells `created` if and only if it inserted the roll and none of
its transactions was refused afterwards.  So when all handlers for a user and a date have returned,
and there was no roll before, exactly one of them tells `created` if and only if the one that
inserted the roll was not refused afterwards; otherwise none does. -/
theorem created_told_iff {s₀ : RollCalls} (hinit : rollCalls.init s₀)
    (h : Run rollCalls s₀ events s) :
    (∀ i created, s.Returned i created → (created = true ↔ KeptDrawing events i)) ∧
      ∀ date userId, s₀.db.dailyRoll? date userId = none →
        (∃ i, s.CalledFor i date userId) →
          (∀ i, s.CalledFor i date userId → ∃ created, s.Returned i created) →
            ((∃! i, s.CalledFor i date userId ∧ s.Returned i true) ↔
              ∀ i e, .commit i e true ∈ events → s.CalledFor i date userId →
                KeptDrawing events i) := by
  have hsound := handlers_run hinit h
  have htold : ∀ i created, s.Returned i created → (created = true ↔ KeptDrawing events i) := by
    intro i created hreturned
    obtain ⟨call, response, hcall, hphase, rfl⟩ := returned_iff.mp hreturned
    have htells := hsound.tells i call hcall
    rw [hphase] at htells
    rw [← toldAfter_iff, show response.created = toldAfter i events from htells]
  have hkept : ∀ {i}, KeptDrawing events i → ∃ e, .commit i e true ∈ events := by
    rintro i ⟨before, e, after, rfl, -⟩
    exact ⟨e, List.mem_append_right _ List.mem_cons_self⟩
  refine ⟨htold, fun date userId hnone hsome hall => ?_⟩
  -- whoever returned has found a roll, so somebody drew it
  have hdrawer : ∃ i e, .commit i e true ∈ events ∧ s.CalledFor i date userId := by
    obtain ⟨i, hi⟩ := hsome
    obtain ⟨created, hreturned⟩ := hall i hi
    obtain ⟨call, response, hcall, hphase, -⟩ := returned_iff.mp hreturned
    obtain ⟨call', hcall', hkey⟩ := Option.map_eq_some_iff.mp hi
    obtain rfl := Option.some.inj (hcall.symm.trans hcall')
    have hrolled := hsound.holds i call hcall (hphase ▸ trivial)
    rcases hsound.source _ hrolled with hbefore | ⟨j, e, drawer, hdrawn, hthere, hsame⟩
    · rw [hkey, ← dailyRoll?_isSome, hnone] at hbefore
      cases hbefore
    · exact ⟨j, e, hdrawn, Option.map_eq_some_iff.mpr ⟨drawer, hthere, hsame.trans hkey⟩⟩
  have honce : ∀ i e j e', .commit i e true ∈ events → .commit j e' true ∈ events →
      s.CalledFor i date userId → s.CalledFor j date userId → i = j := by
    intro i e j e' hi hj hfor hfor'
    obtain ⟨call, hcall, hkey⟩ := Option.map_eq_some_iff.mp hfor
    obtain ⟨call', hcall', hkey'⟩ := Option.map_eq_some_iff.mp hfor'
    exact hsound.once i e j e' hi hj call call' hcall hcall' (hkey.trans hkey'.symm)
  constructor
  · rintro ⟨i, ⟨hi, hreturned⟩, -⟩ j e hj hfor
    have hdrew := (htold i true hreturned).mp rfl
    obtain ⟨e', hdrawn⟩ := hkept hdrew
    exact honce i e' j e hdrawn hj hi hfor ▸ hdrew
  · intro hunrefused
    obtain ⟨i, e, hdrawn, hi⟩ := hdrawer
    obtain ⟨created, hreturned⟩ := hall i hi
    have htrue : created = true := (htold i created hreturned).mpr (hunrefused i e hdrawn hi)
    refine ⟨i, ⟨hi, htrue ▸ hreturned⟩, fun j hj => ?_⟩
    obtain ⟨e', hdrawn'⟩ := hkept ((htold j true hj.2).mp rfl)
    exact honce j e' i e hdrawn' hdrawn hj.1 hi

/-- Execute the steps of a script. -/
def playCalls : RollCalls → List RollCallEvent → Option RollCalls
  | s, [] => some s
  | s, event :: rest => (s.next? event).bind fun s => playCalls s rest

theorem playCalls_run {script : List RollCallEvent} : ∀ {s s' : RollCalls},
    playCalls s script = some s' → Run rollCalls s script s' := by
  induction script with
  | nil =>
      intro s s' h
      obtain rfl := Option.some.inj h
      exact .nil
  | cons event rest ih =>
      intro s s' h
      obtain ⟨t, hstep, hrest⟩ := Option.bind_eq_some_iff.mp h
      exact Run.cons hstep (ih hrest)

def dawn : Env := { now := 0, dbNow := 0, uuid := fun _ => "" }

def dawnRequest : DailyRollGetOrCreateRequest where
  userId := "1"
  proposedPigId := "pig"
  dateStr := 739000

/-- A handler draws the roll, and its reconciliation ends in a deadlock. -/
def deadlockScript : List RollCallEvent :=
  [.arrive dawnRequest, .read 0, .commit 0 dawn true, .refuse 0 .lockConflict, .read 0,
    .commit 0 dawn false, .commit 0 dawn false]

/-- Two handlers race for a roll, and the second finds the roll of the first. -/
def raceScript : List RollCallEvent :=
  [.arrive dawnRequest, .arrive dawnRequest, .read 0, .read 1, .commit 0 dawn true,
    .refuse 1 .integrityError, .commit 0 dawn false, .commit 1 dawn false, .commit 1 dawn false]

/-- The handlers after a script. -/
def callsAfter (script : List RollCallEvent) : RollCalls := (playCalls {} script).getD {}

theorem callsAfter_run {script : List RollCallEvent} (h : (playCalls {} script).isSome = true) :
    Run rollCalls {} script (callsAfter script) := by
  obtain ⟨s, hs⟩ := Option.isSome_iff_exists.mp h
  have hafter : callsAfter script = s := by
    unfold callsAfter
    rw [hs]
    rfl
  exact hafter ▸ playCalls_run hs

theorem created_told_iff_race :
    ∃! i, (callsAfter raceScript).CalledFor i 739000 "1" ∧
      (callsAfter raceScript).Returned i true := by
  have hrun : Run rollCalls {} raceScript (callsAfter raceScript) :=
    callsAfter_run (by decide +kernel)
  have hnone : ({} : Db).dailyRoll? 739000 "1" = none := rfl
  have hlength : (callsAfter raceScript).calls.length = 2 := by decide +kernel
  have hfor : (callsAfter raceScript).CalledFor 0 739000 "1" := by
    unfold RollCalls.CalledFor
    decide +kernel
  have hfirst : (callsAfter raceScript).Returned 0 true := by
    unfold RollCalls.Returned
    decide +kernel
  have hsecond : (callsAfter raceScript).Returned 1 false := by
    unfold RollCalls.Returned
    decide +kernel
  refine ((created_told_iff (show rollCalls.init {} from rfl) hrun).2 739000 "1" hnone ⟨0, hfor⟩
    ?_).mpr ?_
  · intro i hi
    obtain ⟨call, hcall, -⟩ := Option.map_eq_some_iff.mp hi
    obtain ⟨hlt, -⟩ := List.getElem?_eq_some_iff.mp hcall
    rw [hlength] at hlt
    match i, hlt with
    | 0, _ => exact ⟨true, hfirst⟩
    | 1, _ => exact ⟨false, hsecond⟩
  · intro i e hdrawn _
    obtain ⟨rfl, -⟩ : i = 0 ∧ e = dawn := by simpa [raceScript] using hdrawn
    exact ⟨raceScript.take 4, dawn, raceScript.drop 5, rfl, fun conflict hmem => by
      simp [raceScript] at hmem⟩

/-- A handler draws the only roll of the day, and nobody tells so. -/
theorem created_lost :
    ∃ events s, Run rollCalls {} events s ∧ (∃ e, .commit 0 e true ∈ events) ∧ s.calls.length = 1 ∧
      s.CalledFor 0 739000 "1" ∧ s.Returned 0 false := by
  refine ⟨deadlockScript, callsAfter deadlockScript, callsAfter_run (by decide +kernel), ?_⟩
  have hdrawn : .commit 0 dawn true ∈ deadlockScript := by simp [deadlockScript]
  refine ⟨⟨dawn, hdrawn⟩, by decide +kernel, ?_, ?_⟩
  · unfold RollCalls.CalledFor
    decide +kernel
  · unfold RollCalls.Returned
    decide +kernel

end RollPig
