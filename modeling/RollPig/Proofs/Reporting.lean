/-
A report goes out once.

Seen from one row, a run of the deliveries is a run of `Dispatch` (`job_run`): the halves
of the requests come in any order, but every write is a step of the job behind its row.
The two laws of that machine are the result.
-/
import RollPig.Proofs.Deliveries
import RollPig.Reports

namespace RollPig

open Transition Dispatch

variable {now : Time} {instanceId botId token : String} {k : Date × String}
  {row row' : DailyReportDelivery} {table table' : List DailyReportDelivery}
  {a : Act (Option String)}

/-! ### What is seen of a step -/

/-- The answer hands out a token nobody had before. -/
def ReportEvent.Issues (event : ReportEvent) (k : Date × String) (token : String) : Prop :=
  match event.action, event.response with
  | .claimWrite flight fresh, .item (some item) =>
      flight.row.key = k ∧ fresh = token ∧ item.claimToken = token
  | _, _ => False

instance (event : ReportEvent) (k : Date × String) (token : String) :
    Decidable (event.Issues k token) := by
  unfold ReportEvent.Issues
  split <;> infer_instance

/-- The action is accepted for the token. -/
def ReportEvent.Accepts (event : ReportEvent) (k : Date × String) (action : DeliveryAction)
    (token : String) : Prop :=
  match event.action, event.response with
  | .transitionWrite flight, .transition response =>
      (flight.req.dateStr, flight.req.groupId) = k ∧ flight.req.action = action ∧
        flight.req.claimToken = token ∧ response.ok = true
  | _, _ => False

instance (event : ReportEvent) (k : Date × String) (action : DeliveryAction) (token : String) :
    Decidable (event.Accepts k action token) := by
  unfold ReportEvent.Accepts
  split <;> infer_instance

/-- What the event does to the job of the row. -/
def ReportEvent.act (event : ReportEvent) (k : Date × String) : Act (Option String) :=
  match event.action, event.response with
  | .claimWrite flight token, .item (some item) =>
      if flight.row.key = k ∧ item.claimToken = token then .lease (some token) else .quiet
  | .transitionWrite flight, .transition response =>
      if flight.row.key = k ∧ response.ok = true then flight.req.act else .quiet
  | _, _ => .quiet

variable {event : ReportEvent} {s s' : Reports} {events : List ReportEvent}

theorem DeliveryAction.act_ne_lease (action : DeliveryAction) (token token' : Option String) :
    action.act token ≠ .lease token' := by
  cases action <;> simp [DeliveryAction.act]

theorem DeliveryAction.act_inj {action action' : DeliveryAction} {token token' : Option String}
    (h : action.act token = action'.act token') : action = action' ∧ token = token' := by
  cases action <;> cases action' <;> simp_all [DeliveryAction.act]

theorem ReportEvent.act_claimWrite (flight : ClaimFlight) (fresh : String)
    (item : DailyReportClaimItem) :
    (ReportEvent.mk (.claimWrite flight fresh) (.item (some item))).act k =
      if flight.row.key = k ∧ item.claimToken = fresh then .lease (some fresh) else .quiet :=
  rfl

theorem ReportEvent.act_transitionWrite (flight : TransitionFlight)
    (response : DailyReportTransitionResponse) :
    (ReportEvent.mk (.transitionWrite flight) (.transition response)).act k =
      if flight.row.key = k ∧ response.ok = true then flight.req.act else .quiet :=
  rfl

theorem ReportEvent.act_lease : event.act k = .lease (some token) ↔ event.Issues k token := by
  obtain ⟨action, response⟩ := event
  match action, response with
  | .claimWrite flight fresh, .item (some item) =>
      rw [act_claimWrite]
      show _ ↔ flight.row.key = k ∧ fresh = token ∧ item.claimToken = token
      by_cases h : flight.row.key = k ∧ item.claimToken = fresh
      · rw [if_pos h]
        obtain ⟨hkey, hitem⟩ := h
        simp [hkey, hitem]
      · rw [if_neg h]
        refine ⟨fun hquiet => (nomatch hquiet), ?_⟩
        rintro ⟨hkey, rfl, hitem⟩
        exact absurd ⟨hkey, hitem⟩ h
  | .transitionWrite flight, .transition response =>
      rw [act_transitionWrite]
      refine ⟨fun hact => ?_, fun hissues => hissues.elim⟩
      by_cases h : flight.row.key = k ∧ response.ok = true
      · rw [if_pos h] at hact
        exact absurd hact (flight.req.action.act_ne_lease _ _)
      · rw [if_neg h] at hact
        exact nomatch hact
  | .claimWrite _ _, .item none => exact ⟨fun h => (nomatch h), False.elim⟩
  | .claimWrite _ _, .silent => exact ⟨fun h => (nomatch h), False.elim⟩
  | .claimWrite _ _, .transition _ => exact ⟨fun h => (nomatch h), False.elim⟩
  | .transitionWrite _, .silent => exact ⟨fun h => (nomatch h), False.elim⟩
  | .transitionWrite _, .item _ => exact ⟨fun h => (nomatch h), False.elim⟩
  | .claimRead _ _, _ => exact ⟨fun h => (nomatch h), False.elim⟩
  | .transitionRead _ _, _ => exact ⟨fun h => (nomatch h), False.elim⟩

theorem ReportEvent.Accepts.act {action : DeliveryAction} (h : event.Accepts k action token) :
    event.act k = action.act (some token) := by
  unfold ReportEvent.Accepts at h
  split at h
  · rename_i flight response hdone hresponse
    obtain ⟨hkey, rfl, rfl, hok⟩ := h
    unfold ReportEvent.act
    rw [hdone, hresponse]
    exact if_pos ⟨flight.named.trans hkey, hok⟩
  · exact h.elim

/-- Only an accepted action shows as one. -/
theorem ReportEvent.accepts_of_act {action : DeliveryAction}
    (h : event.act k = action.act (some token)) : event.Accepts k action token := by
  unfold ReportEvent.act at h
  split at h
  · split at h
    · exact absurd h.symm (action.act_ne_lease _ _)
    · cases action <;> exact nomatch h
  · rename_i flight response hdone hresponse
    unfold ReportEvent.Accepts
    rw [hdone, hresponse]
    by_cases hok : flight.row.key = k ∧ response.ok = true
    · rw [if_pos hok] at h
      obtain ⟨haction, htoken⟩ := DeliveryAction.act_inj h
      exact ⟨flight.named.symm.trans hok.1, haction, Option.some.inj htoken, hok.2⟩
    · rw [if_neg hok] at h
      cases action <;> exact nomatch h
  · cases action <;> exact nomatch h

/-! ### One step of the deliveries -/

/-- The first half of a transition only notes what it read. -/
theorem perform_transitionRead (s : Reports) (now : Time) (req : DailyReportTransitionRequest) :
    (transitionRead req s.deliveries = none ∧
        (ReportAction.transitionRead now req).perform s = (.transition { ok := false }, s)) ∨
      ∃ flight : TransitionFlight, flight.now = now ∧ flight.req = req ∧
        transitionRead req s.deliveries = some flight.row ∧
          (ReportAction.transitionRead now req).perform s =
            (.silent, { s with flights := s.flights ++ [.transition flight] }) := by
  unfold ReportAction.perform
  dsimp only
  split
  · rename_i hread
    exact Or.inl ⟨hread, rfl⟩
  · rename_i row hread
    exact Or.inr ⟨_, rfl, rfl, hread, rfl⟩

/-- Rows are unique, and every token a row carries, or a request has read, was issued. -/
structure Reports.Sound (s : Reports) : Prop where
  unique : Tables.Unique DailyReportDelivery.key s.deliveries
  issued : ∀ row ∈ s.deliveries, ∀ token, row.claimToken = some token → token ∈ s.issued
  flying : ∀ flight ∈ s.flights, ∀ token, flight.row.claimToken = some token → token ∈ s.issued

/-- What a step does to the table: it opens missing rows, or writes one row. -/
inductive Changed (s : Reports) (event : ReportEvent) (s' : Reports) : Prop
  | opens (req : DailyReportClaimRequest) (htable : s'.deliveries = openDeliveries req s.deliveries)
      (hquiet : ∀ k, event.act k = .quiet)
  | writes (k : Date × String) (hwrite : DeliveryWrite s.deliveries k (event.act k) s'.deliveries)
      (hothers : ∀ k', k' ≠ k → event.act k' = .quiet)

theorem Changed.of_quiet (k : Date × String) (hquiet : ∀ k, event.act k = .quiet)
    (hwrite : DeliveryWrite s.deliveries k .quiet s'.deliveries) : Changed s event s' :=
  .writes k (hquiet k ▸ hwrite) fun k' _ => hquiet k'

theorem Reports.Sound.changed (hs : s.Sound) (hstep : reports.step s event s') :
    Changed s event s' := by
  obtain ⟨action, response⟩ := event
  obtain ⟨henabled, hresponse, rfl⟩ := hstep
  cases action with
  | claimRead now req => exact .opens req rfl fun _ => rfl
  | claimWrite flight token =>
      obtain ⟨hflight, hfresh⟩ := henabled
      have houtcome := claimDelivery_outcome hs.unique flight.now flight.instanceId
        flight.deliveryBotId token flight.row
      obtain rfl : response = .item (claimDelivery flight.now flight.instanceId
        flight.deliveryBotId token flight.row s.deliveries).item := hresponse
      cases houtcome with
      | quiet hitem hwrite =>
          refine .of_quiet flight.row.key (fun k => ?_) hwrite
          rw [hitem]
          rfl
      | found howner hitem htable =>
          refine .of_quiet flight.row.key (fun k => ?_) (htable.symm ▸ .nothing)
          rw [hitem, ReportEvent.act_claimWrite, if_neg]
          rintro ⟨-, htoken⟩
          exact hfresh (hs.flying _ hflight token (htoken ▸ claimItem_token howner))
      | leased hnow hitem hkey htoken hwrite =>
          rw [hitem]
          refine .writes flight.row.key ?_ fun k hne => ?_
          · rw [ReportEvent.act_claimWrite, if_pos ⟨rfl, htoken⟩]
            exact hwrite
          · rw [ReportEvent.act_claimWrite, if_neg fun h => hne h.1.symm]
  | transitionRead now req =>
      refine .of_quiet (req.dateStr, req.groupId) (fun k => rfl) ?_
      dsimp only
      rcases perform_transitionRead s now req with ⟨-, hperform⟩ | ⟨flight, -, -, -, hperform⟩
      · rw [hperform]
        exact .nothing
      · rw [hperform]
        exact .nothing
  | transitionWrite flight =>
      have houtcome := transitionWrite_outcome hs.unique flight.now flight.req flight.row
      obtain rfl : response = .transition
        (transitionWrite flight.now flight.req flight.row s.deliveries).1 := hresponse
      cases houtcome with
      | refused hok hwrite =>
          refine .of_quiet flight.row.key (fun k => ?_) hwrite
          rw [ReportEvent.act_transitionWrite, if_neg]
          rintro ⟨-, htrue⟩
          exact absurd (hok.symm.trans htrue) (by decide)
      | accepted hok hwrite =>
          refine .writes flight.row.key ?_ fun k hne => ?_
          · rw [ReportEvent.act_transitionWrite, if_pos ⟨rfl, hok⟩]
            exact hwrite
          · rw [ReportEvent.act_transitionWrite, if_neg fun h => hne h.1.symm]

/-! ### The rows of the next table -/

theorem Changed.unique (hs : s.Sound) (h : Changed s event s') :
    Tables.Unique DailyReportDelivery.key s'.deliveries := by
  cases h with
  | opens req htable =>
      rw [htable]
      exact openDeliveries_unique hs.unique req
  | writes k hwrite => exact hwrite.unique hs.unique

/-- A row is as it was, or just opened, or took a step. -/
theorem Changed.rows (h : Changed s event s') (hrow' : row' ∈ s'.deliveries) :
    row' ∈ s.deliveries ∨
      (∃ cutoffAt, row' = { dateStr := row'.dateStr, groupId := row'.groupId, cutoffAt }) ∨
      ∃ row ∈ s.deliveries, DeliveryStep row (event.act row'.key) row' := by
  cases h with
  | opens req htable =>
      rw [htable] at hrow'
      rcases List.mem_append.mp hrow' with hold | hnew
      · exact Or.inl hold
      · obtain ⟨g, -, rfl⟩ := List.mem_map.mp hnew
        exact Or.inr (Or.inl ⟨req.cutoffAt, rfl⟩)
  | writes k hwrite =>
      generalize ha : event.act k = a at hwrite
      generalize htable : s'.deliveries = table' at hwrite hrow'
      cases hwrite with
      | nothing => exact Or.inl hrow'
      | one hrow hkey hstep =>
          rcases Tables.mem_writeBack_singleton hrow' with ⟨hold, -⟩ | rfl
          · exact Or.inl hold
          · refine Or.inr (Or.inr ⟨_, hrow, ?_⟩)
            rw [hstep.key, hkey, ha]
            exact hstep

/-! ### The requests in flight after a step -/

theorem mem_candidateRows {req : DailyReportClaimRequest} (h : row ∈ candidateRows req table) :
    row ∈ table := by
  obtain ⟨g, -, hlookup⟩ := List.mem_filterMap.mp h
  exact (Tables.lookup_some hlookup).1

theorem mem_claimFlights {req : DailyReportClaimRequest} {rows : List DailyReportDelivery}
    {flight : ReportFlight} (h : flight ∈ claimFlights now req rows) : flight.row ∈ rows := by
  obtain ⟨row, hrow, rfl⟩ := List.mem_map.mp h
  exact hrow

/-- A request in flight was so before, or has just read its row. -/
theorem flights_step (hstep : reports.step s event s') :
    ∀ flight ∈ s'.flights, flight ∈ s.flights ∨ flight.row ∈ s'.deliveries := by
  obtain ⟨action, response⟩ := event
  obtain ⟨-, -, rfl⟩ := hstep
  intro flight hflight
  cases action with
  | claimRead now req =>
      rcases List.mem_append.mp hflight with hold | hnew
      · exact Or.inl hold
      · exact Or.inr (mem_candidateRows (mem_claimFlights hnew))
  | claimWrite done token => exact Or.inl (List.mem_of_mem_erase hflight)
  | transitionRead now req =>
      dsimp only at hflight ⊢
      rcases perform_transitionRead s now req with ⟨-, hperform⟩ | ⟨new, -, -, hread, hperform⟩
      · rw [hperform] at hflight
        exact Or.inl hflight
      · rw [hperform] at hflight ⊢
        rcases List.mem_append.mp hflight with hold | hlast
        · exact Or.inl hold
        · obtain rfl := List.mem_singleton.mp hlast
          exact Or.inr (transitionRead_spec hread).1
  | transitionWrite done => exact Or.inl (List.mem_of_mem_erase hflight)

/-- Tokens stay issued, and a new lease has a new one. -/
theorem issued_step (hstep : reports.step s event s') :
    (∀ token ∈ s.issued, token ∈ s'.issued) ∧
      ∀ k token, event.act k = .lease (some token) → token ∉ s.issued ∧ token ∈ s'.issued := by
  obtain ⟨action, response⟩ := event
  obtain ⟨henabled, -, rfl⟩ := hstep
  have hother : ∀ k token, (ReportEvent.mk action response).act k = .lease (some token) →
      ∃ flight, action = .claimWrite flight token := by
    intro k token hact
    have hissues := ReportEvent.act_lease.mp hact
    unfold ReportEvent.Issues at hissues
    split at hissues
    · rename_i flight fresh item hdone _
      exact ⟨flight, hissues.2.1 ▸ hdone⟩
    · exact hissues.elim
  cases action with
  | claimWrite flight fresh =>
      refine ⟨fun token h => List.mem_cons_of_mem fresh h, fun k token hact => ?_⟩
      obtain ⟨flight', hdone⟩ := hother k token hact
      obtain ⟨-, rfl⟩ := ReportAction.claimWrite.inj hdone
      exact ⟨henabled.2, List.mem_cons_self⟩
  | claimRead now req =>
      exact ⟨fun _ h => h, fun k token hact => nomatch (hother k token hact).choose_spec⟩
  | transitionRead now req =>
      refine ⟨fun token h => ?_, fun k token hact => nomatch (hother k token hact).choose_spec⟩
      dsimp only
      rcases perform_transitionRead s now req with ⟨-, hperform⟩ | ⟨flight, -, -, -, hperform⟩
      · rw [hperform]
        exact h
      · rw [hperform]
        exact h
  | transitionWrite flight =>
      exact ⟨fun _ h => h, fun k token hact => nomatch (hother k token hact).choose_spec⟩

theorem Reports.Sound.step (hs : s.Sound) (hstep : reports.step s event s') : s'.Sound := by
  have hchanged := hs.changed hstep
  obtain ⟨hkept, hnew⟩ := issued_step hstep
  have hissued : ∀ row' ∈ s'.deliveries, ∀ token, row'.claimToken = some token →
      token ∈ s'.issued := by
    intro row' hrow' token htoken
    rcases hchanged.rows hrow' with hold | ⟨cutoffAt, hopened⟩ | ⟨row, hrow, hrowStep⟩
    · exact hkept token (hs.issued row' hold token htoken)
    · rw [hopened] at htoken
      exact nomatch htoken
    · rcases hrowStep.claimToken with hsame | hnone | ⟨fresh, hact, hfresh⟩
      · exact hkept token (hs.issued row hrow token (hsame.symm.trans htoken))
      · exact nomatch hnone.symm.trans htoken
      · obtain rfl := Option.some.inj (hfresh.symm.trans htoken)
        exact (hnew _ _ hact).2
  refine ⟨hchanged.unique hs, hissued, fun flight hflight token htoken => ?_⟩
  rcases flights_step hstep flight hflight with hold | hread
  · exact hkept token (hs.flying flight hold token htoken)
  · exact hissued _ hread token htoken

theorem sound_init : ({} : Reports).Sound where
  unique := List.nodup_nil
  issued _ h := nomatch h
  flying _ h := nomatch h

theorem sound_run (hrun : Run reports {} events s) : s.Sound :=
  hrun.invariant (I := Reports.Sound) (fun _ _ _ hs hstep => hs.step hstep) sound_init

/-! ### One row of a run -/

/-- The job under a key; a row that is not there yet is a job nobody has leased. -/
def jobOf (table : List DailyReportDelivery) (k : Date × String) : Job (Option String) :=
  match Tables.lookup DailyReportDelivery.key table k with
  | none => .new
  | some row => row.job

theorem jobOf_openDeliveries (h : Tables.Unique DailyReportDelivery.key table)
    (req : DailyReportClaimRequest) (k : Date × String) :
    jobOf (openDeliveries req table) k = jobOf table k := by
  unfold jobOf
  cases hold : Tables.lookup DailyReportDelivery.key table k with
  | some row =>
      have hmem : row ∈ openDeliveries req table :=
        List.mem_append_left _ (Tables.lookup_some hold).1
      obtain rfl := (Tables.lookup_some hold).2
      rw [(openDeliveries_unique h req).lookup hmem]
  | none =>
      cases hnew : Tables.lookup DailyReportDelivery.key (openDeliveries req table) k with
      | none => rfl
      | some row =>
          obtain ⟨hmem, rfl⟩ := Tables.lookup_some hnew
          rcases List.mem_append.mp hmem with hrow | hrow
          · exact absurd (List.mem_map_of_mem hrow) (Tables.lookup_none.mp hold)
          · obtain ⟨g, -, rfl⟩ := List.mem_map.mp hrow
            rfl

theorem jobOf_of_mem (h : Tables.Unique DailyReportDelivery.key table) (hrow : row ∈ table) :
    jobOf table row.key = row.job := by
  unfold jobOf
  rw [h.lookup hrow]

theorem DeliveryWrite.job (h : Tables.Unique DailyReportDelivery.key table)
    (hwrite : DeliveryWrite table k a table') :
    Step dailyReportMaxAttempts (jobOf table k) a (jobOf table' k) ∧
      ∀ k', k' ≠ k → jobOf table' k' = jobOf table k' := by
  cases hwrite with
  | nothing => exact ⟨.quiet, fun _ _ => rfl⟩
  | @one row row' _ hrow hkey hstep =>
      obtain rfl := hkey
      have hmem : row'.key ∈ table.map DailyReportDelivery.key :=
        hstep.key ▸ List.mem_map_of_mem hrow
      refine ⟨?_, fun k' hne => ?_⟩
      · rw [jobOf_of_mem h hrow]
        unfold jobOf
        rw [Tables.lookup_writeBack hmem, if_pos hstep.key.symm]
        exact hstep.job
      · unfold jobOf
        rw [Tables.lookup_writeBack hmem, if_neg (hstep.key ▸ hne)]

/-- **Seen from one row, a step of the deliveries is a step of the job.** -/
theorem job_step (hs : s.Sound) (hstep : reports.step s event s') (k : Date × String) :
    Step dailyReportMaxAttempts (jobOf s.deliveries k) (event.act k) (jobOf s'.deliveries k) := by
  cases hs.changed hstep with
  | opens req htable hquiet =>
      rw [htable, hquiet k, jobOf_openDeliveries hs.unique]
      exact .quiet
  | writes k₀ hwrite hothers =>
      obtain ⟨hhere, helsewhere⟩ := hwrite.job hs.unique
      by_cases hk : k = k₀
      · rw [hk]
        exact hhere
      · rw [hothers k hk, helsewhere k hk]
        exact .quiet

theorem job_run (hs : s.Sound) (hrun : Run reports s events s') (k : Date × String) :
    Run (system dailyReportMaxAttempts) (jobOf s.deliveries k) (events.map (·.act k))
      (jobOf s'.deliveries k) := by
  induction hrun with
  | nil => exact .nil
  | @snoc t _ _ _ hrun hstep ih =>
      rw [List.map_append]
      have ht : t.Sound :=
        hrun.invariant (I := Reports.Sound) (fun _ _ _ hs hstep => hs.step hstep) hs
      exact .snoc ih (job_step ht hstep k)

/-! ### Runs written as scripts -/

/-- A first half, or the second half of the i-th request in flight. -/
inductive ReportOrder
  | claim (now : Time) (req : DailyReportClaimRequest)
  | transition (now : Time) (req : DailyReportTransitionRequest)
  | finish (i : Nat) (token : String)

def ReportOrder.action? (s : Reports) : ReportOrder → Option ReportAction
  | .claim now req => some (.claimRead now req)
  | .transition now req => some (.transitionRead now req)
  | .finish i token =>
      s.flights[i]?.map fun flight => match flight with
        | .claim flight => .claimWrite flight token
        | .transition flight => .transitionWrite flight

def playReports : Reports → List ReportOrder → Option (List ReportEvent × Reports)
  | s, [] => some ([], s)
  | s, order :: rest =>
      match order.action? s with
      | none => none
      | some action =>
          if action.Enabled s then
            (playReports (action.perform s).2 rest).map fun (events, s') =>
              (⟨action, (action.perform s).1⟩ :: events, s')
          else none

theorem playReports_run {script : List ReportOrder} : ∀ {s s' : Reports} {events : List ReportEvent},
    playReports s script = some (events, s') → Run reports s events s' := by
  induction script with
  | nil =>
      intro s s' events h
      obtain ⟨rfl, rfl⟩ := Prod.mk.inj (Option.some.inj h)
      exact .nil
  | cons order rest ih =>
      intro s s' events h
      unfold playReports at h
      cases haction : order.action? s with
      | none =>
          rw [haction] at h
          exact nomatch h
      | some action =>
          rw [haction] at h
          dsimp only at h
          by_cases henabled : action.Enabled s
          · rw [if_pos henabled] at h
            obtain ⟨⟨later, last⟩, hplay, heq⟩ := Option.map_eq_some_iff.mp h
            obtain ⟨rfl, rfl⟩ := Prod.mk.inj heq
            exact .cons ⟨henabled, rfl, rfl⟩ (ih hplay)
          · rw [if_neg henabled] at h
            exact nomatch h

/-- The events and the last state of a script played from the empty table. -/
def reportEvents (script : List ReportOrder) : List ReportEvent :=
  ((playReports {} script).map (·.1)).getD []

def reportState (script : List ReportOrder) : Reports :=
  ((playReports {} script).map (·.2)).getD {}

theorem reportScript_run {script : List ReportOrder} (h : (playReports {} script).isSome) :
    Run reports {} (reportEvents script) (reportState script) := by
  obtain ⟨⟨events, s⟩, hplay⟩ := Option.isSome_iff_exists.mp h
  unfold reportEvents reportState
  rw [hplay]
  exact playReports_run hplay

/-! ### The result -/

/-- The status an accepted action leaves behind for good. -/
def DeliveryAction.verdict? : DeliveryAction → Option DeliveryStatus
  | .sent => some .sent
  | .uncertain => some .uncertain
  | .skip => some .skipped
  | _ => none

theorem DeliveryAction.act_verdict {action : DeliveryAction} {status : DeliveryStatus}
    (h : action.verdict? = some status) (token : Option String) :
    ∃ verdict, action.act token = .close verdict token ∧
      ∀ row : DailyReportDelivery, row.stage = .over verdict token → row.status = status := by
  have hstatus : ∀ (row : DailyReportDelivery) verdict, row.stage = .over verdict token →
      (verdict = .sent → row.status = .sent) ∧ (verdict = .uncertain → row.status = .uncertain) ∧
        (verdict = .skipped → row.status = .skipped) := by
    intro row verdict hstage
    unfold DailyReportDelivery.stage at hstage
    cases hrow : row.status <;> rw [hrow] at hstage <;> cases hstage <;> simp
  cases action with
  | sent =>
      obtain rfl := Option.some.inj h
      exact ⟨.sent, rfl, fun row hstage => (hstatus row _ hstage).1 rfl⟩
  | uncertain =>
      obtain rfl := Option.some.inj h
      exact ⟨.uncertain, rfl, fun row hstage => (hstatus row _ hstage).2.1 rfl⟩
  | skip =>
      obtain rfl := Option.some.inj h
      exact ⟨.skipped, rfl, fun row hstage => (hstatus row _ hstage).2.2 rfl⟩
  | _ => exact nomatch h

/-- **A report goes out once.**  However the halves of the requests interleave, a sending
under another token starts only after the first one was given back as refused, and a
verdict is final: no token is issued for the row any more, and its status stays. -/
theorem reported_once (hrun : Run reports {} events s) (k : Date × String) :
    (∀ before first mid second after token token',
        events = before ++ first :: (mid ++ second :: after) →
          first.Accepts k .sending token → second.Accepts k .sending token' → token ≠ token' →
            ∃ event ∈ mid, event.Accepts k .retry token) ∧
      ∀ before event after action token status, events = before ++ event :: after →
        action.verdict? = some status → event.Accepts k action token →
          (∀ later ∈ after, ∀ token', ¬ later.Issues k token') ∧
            ∃ row ∈ s.deliveries, row.key = k ∧ row.status = status := by
  constructor
  · intro before first mid second after token token' hevents hfirst hsecond hne
    obtain ⟨u, hbefore, hrest⟩ := hrun.split before _ hevents
    obtain ⟨v, hsend, hrest⟩ := hrest.of_cons
    obtain ⟨w, hmid, hrest⟩ := hrest.split mid _ rfl
    obtain ⟨x, hsend', -⟩ := hrest.of_cons
    have hu := sound_run hbefore
    have hv := hu.step hsend
    have hw : w.Sound :=
      hmid.invariant (I := Reports.Sound) (fun _ _ _ hs hstep => hs.step hstep) hv
    have hstep := job_step hu hsend k
    have hstep' := job_step hw hsend' k
    rw [hfirst.act] at hstep
    rw [hsecond.act] at hstep'
    have hrefused := refused_between hstep (job_run hv hmid k) hstep' fun hsame =>
      hne (Option.some.inj hsame)
    obtain ⟨event, hevent, hact⟩ := List.mem_map.mp hrefused
    exact ⟨event, hevent, ReportEvent.accepts_of_act hact⟩
  · intro before event after action token status hevents hverdict haccepts
    obtain ⟨u, hbefore, hrest⟩ := hrun.split before _ hevents
    obtain ⟨v, hstep, hafter⟩ := hrest.of_cons
    have hu := sound_run hbefore
    obtain ⟨verdict, hact, hstatus⟩ := DeliveryAction.act_verdict hverdict (some token)
    have hclose := job_step hu hstep k
    rw [haccepts.act, hact] at hclose
    obtain ⟨hover, hnone⟩ := over_run (job_run (hu.step hstep) hafter k) hclose.of_close
    refine ⟨fun later hlater token' hissues => ?_, ?_⟩
    · refine hnone (some token') (List.mem_map.mpr ⟨later, hlater, ?_⟩)
      exact ReportEvent.act_lease.mpr hissues
    · unfold jobOf at hover
      cases hrow : Tables.lookup DailyReportDelivery.key s.deliveries k with
      | none =>
          rw [hrow] at hover
          exact nomatch hover
      | some row =>
          rw [hrow] at hover
          obtain ⟨hmem, hkey⟩ := Tables.lookup_some hrow
          exact ⟨row, hmem, hkey, hstatus row hover⟩

def noon : Time := 739000 * dayMicros + 12 * 3600 * secondMicros

def noonClaim : DailyReportClaimRequest where
  dateStr := 739000
  cutoffAt := noon
  instanceId := "i"
  candidates := [{ groupId := "7", deliveryBotId := "bot" }]

def noonRequest (action : DeliveryAction) (claimToken : String) : DailyReportTransitionRequest where
  dateStr := 739000
  groupId := "7"
  claimToken
  action

/-- A sending is refused and made again under a second token; then a third worker writes
what it had read before the second. -/
def refusedScript : List ReportOrder :=
  [.claim noon noonClaim, .finish 0 "first",
    .transition (noon + secondMicros) (noonRequest .sending "first"), .finish 0 "",
    .transition (noon + 2 * secondMicros) (noonRequest .retry "first"), .finish 0 "",
    .claim (noon + minutes 1) noonClaim, .claim (noon + minutes 1) noonClaim, .finish 0 "second",
    .transition (noon + minutes 2) (noonRequest .sending "second"), .finish 1 "",
    .transition (noon + minutes 3) (noonRequest .sent "second"), .finish 1 "",
    .finish 0 "third"]

theorem reported_once_refused :
    (∃ event ∈ ((reportEvents refusedScript).drop 4).take 6,
        event.Accepts (739000, "7") .retry "first") ∧
      ∃ row ∈ (reportState refusedScript).deliveries,
        row.key = (739000, "7") ∧ row.status = .sent := by
  have hrun : Run reports {} (reportEvents refusedScript) (reportState refusedScript) :=
    reportScript_run (by decide +kernel)
  obtain ⟨honce, hfinal⟩ := reported_once hrun (739000, "7")
  have haccepts : ∀ _ : 12 < (reportEvents refusedScript).length,
      (reportEvents refusedScript)[3].Accepts (739000, "7") .sending "first" ∧
        (reportEvents refusedScript)[10].Accepts (739000, "7") .sending "second" ∧
          (reportEvents refusedScript)[12].Accepts (739000, "7") .sent "second" := by
    decide +kernel
  have hlength : 12 < (reportEvents refusedScript).length := by decide +kernel
  obtain ⟨hfirst, hsecond, hsentAccepted⟩ := haccepts hlength
  have hsent : reportEvents refusedScript = (reportEvents refusedScript).take 12 ++
      (reportEvents refusedScript)[12] :: (reportEvents refusedScript).drop 13 := by
    rw [← List.drop_eq_getElem_cons hlength, List.take_append_drop]
  have hsendings : reportEvents refusedScript = (reportEvents refusedScript).take 3 ++
      (reportEvents refusedScript)[3] :: (((reportEvents refusedScript).drop 4).take 6 ++
        (reportEvents refusedScript)[10] :: (reportEvents refusedScript).drop 11) := by
    have hlater : ((reportEvents refusedScript).drop 4).drop 6 =
        (reportEvents refusedScript)[10] :: (reportEvents refusedScript).drop 11 := by
      rw [List.drop_drop, List.drop_eq_getElem_cons (by omega)]
    rw [← hlater, List.take_append_drop, ← List.drop_eq_getElem_cons (by omega),
      List.take_append_drop]
  have hretry := honce _ _ _ _ _ "first" "second" hsendings hfirst hsecond (by decide)
  have hstatus := (hfinal _ _ _ .sent "second" .sent hsent rfl hsentAccepted).2
  exact ⟨hretry, hstatus⟩

end RollPig
