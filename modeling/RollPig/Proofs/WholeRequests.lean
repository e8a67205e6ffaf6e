/-
Daily-report requests executed alone.

A whole request is its read followed at once by its writes (`claimOnce_run`,
`transitionDailyReport_run`), so what holds of every interleaving holds of runs of whole
requests.  What a repeated claim answers is said of the whole request.
-/
import RollPig.Proofs.Reporting

namespace RollPig

open Transition Dispatch

variable {now : Time} {instanceId botId token : String} {k : Date × String}
  {row : DailyReportDelivery} {table table' : List DailyReportDelivery}
  {a : Act (Option String)} {s : Reports} {uuid : Nat → String}

/-! ### The loop of a claim -/

theorem DeliveryWrite.kept (h : DeliveryWrite table k a table') (hrow : row ∈ table)
    (hne : row.key ≠ k) : row ∈ table' := by
  cases h with
  | nothing => exact hrow
  | @one old new _ hold hkey hstep =>
      refine Tables.mem_writeBack_of_ne hrow fun y hy => ?_
      obtain rfl := List.mem_singleton.mp hy
      rw [hstep.key, hkey]
      exact hne.symm

/-- What a claim of one row does to the table. -/
theorem claimDelivery_write (h : Tables.Unique DailyReportDelivery.key table) (now : Time)
    (instanceId botId token : String) (row : DailyReportDelivery) :
    ∃ a, DeliveryWrite table row.key a
      (claimDelivery now instanceId botId token row table).table := by
  cases claimDelivery_outcome h now instanceId botId token row with
  | quiet _ hwrite => exact ⟨_, hwrite⟩
  | found _ _ htable => exact ⟨.quiet, htable.symm ▸ .nothing⟩
  | leased _ _ _ _ hwrite => exact ⟨_, hwrite⟩

/-- The holder of the lease is given it again, whatever the table is by then. -/
theorem claimDelivery_found (hnow : now < retryDeadline row.dateStr)
    (howner : sameOwnerClaim now instanceId botId row) (token : String)
    (table : List DailyReportDelivery) :
    claimDelivery now instanceId botId token row table =
      { item := some (claimItem row), row, table } := by
  unfold claimDelivery
  rw [if_neg fun h => absurd h.1 (Int.not_le.mpr hnow), if_pos howner]

/-- The loop leaves the rows alone it does not work on. -/
theorem claimDeliveries_kept (req : DailyReportClaimRequest) {rows : List DailyReportDelivery} :
    ∀ {uuid : Nat → String} {table : List DailyReportDelivery},
      Tables.Unique DailyReportDelivery.key table → row ∈ table →
        row.key ∉ rows.map DailyReportDelivery.key →
          row ∈ (claimDeliveries now req rows uuid table).2.2 := by
  induction rows with
  | nil => exact fun _ hrow _ => hrow
  | cons first rest ih =>
      intro uuid table hunique hrow hout
      rw [List.map_cons, List.mem_cons, not_or] at hout
      obtain ⟨a, hwrite⟩ := claimDelivery_write hunique now req.instanceId
        (clip 64 ((req.candidate? first.groupId).getD "")) (uuid 0) first
      exact ih (hwrite.unique hunique) (hwrite.kept hrow hout.1) hout.2

/-- The loop finds the lease of a row again and leaves the row as it is. -/
theorem claimDeliveries_found {req : DailyReportClaimRequest} (hnow : now < retryDeadline row.dateStr)
    (howner : sameOwnerClaim now req.instanceId
      (clip 64 ((req.candidate? row.groupId).getD "")) row) {rows : List DailyReportDelivery} :
    ∀ {uuid : Nat → String} {table : List DailyReportDelivery},
      Tables.Unique DailyReportDelivery.key table → Tables.Unique DailyReportDelivery.key rows →
        row ∈ table → row ∈ rows →
          claimItem row ∈ (claimDeliveries now req rows uuid table).1 ∧
            row ∈ (claimDeliveries now req rows uuid table).2.2 := by
  induction rows with
  | nil => exact fun _ _ _ h => nomatch h
  | cons first rest ih =>
      intro uuid table hunique hrows hrow hmem
      have hparts := List.nodup_cons.mp hrows
      rcases List.mem_cons.mp hmem with rfl | hlater
      · have hfound := claimDelivery_found hnow howner (uuid 0) table
        unfold claimDeliveries
        dsimp only
        rw [hfound]
        exact ⟨List.mem_cons_self, claimDeliveries_kept req hunique hrow hparts.1⟩
      · have hne : row.key ≠ first.key := fun hsame =>
          hparts.1 (hsame ▸ List.mem_map_of_mem hlater)
        obtain ⟨a, hwrite⟩ := claimDelivery_write hunique now req.instanceId
          (clip 64 ((req.candidate? first.groupId).getD "")) (uuid 0) first
        obtain ⟨hitem, hkept⟩ := @ih (fun i => uuid (i + 1)) _ (hwrite.unique hunique) hparts.2
          (hwrite.kept hrow hne) hlater
        exact ⟨List.mem_append_right _ hitem, hkept⟩

theorem candidateRows_unique (req : DailyReportClaimRequest) (table : List DailyReportDelivery) :
    Tables.Unique DailyReportDelivery.key (candidateRows req table) := by
  unfold Tables.Unique candidateRows
  rw [List.map_filterMap]
  refine (groups_nodup req).filterMap fun g g' key hg hg' => ?_
  obtain ⟨row, hrow, rfl⟩ := Option.map_eq_some_iff.mp hg
  obtain ⟨row', hrow', hkey⟩ := Option.map_eq_some_iff.mp hg'
  have hfirst := (Tables.lookup_some hrow).2
  have hsecond := (Tables.lookup_some hrow').2
  exact congrArg Prod.snd ((hfirst.symm.trans hkey.symm).trans hsecond)

theorem mem_groups {req : DailyReportClaimRequest} {groupId : String}
    (h : req.candidate? groupId = some botId) : groupId ∈ req.groups := by
  obtain ⟨item, hitem, -⟩ := Option.map_eq_some_iff.mp h
  have hfound := List.find?_some hitem
  have hcond := of_decide_eq_true hfound
  have hmem := List.mem_reverse.mp (List.mem_of_find?_eq_some hitem)
  unfold DailyReportClaimRequest.groups
  rw [List.mem_insertionSort, List.mem_dedup, List.mem_map]
  refine ⟨item, List.mem_filter.mpr ⟨hmem, decide_eq_true ⟨hcond.1, hcond.2.1⟩⟩, hcond.2.2⟩

/-- **A worker whose answer was lost is given its lease again.** -/
theorem claimOnce_found (hunique : Tables.Unique DailyReportDelivery.key table) (hrow : row ∈ table)
    {req : DailyReportClaimRequest} (hdate : row.dateStr = req.dateStr)
    (hcandidate : req.candidate? row.groupId = some botId)
    (howner : sameOwnerClaim now req.instanceId (clip 64 botId) row)
    (hnow : now < retryDeadline row.dateStr) (uuid : Nat → String) :
    claimItem row ∈ (claimOnce now uuid req table).1.items ∧
      row ∈ (claimOnce now uuid req table).2 := by
  have hgroup := mem_groups hcandidate
  have hopened := openDeliveries_unique hunique req
  have hmem : row ∈ openDeliveries req table := List.mem_append_left _ hrow
  have hread : row ∈ candidateRows req (openDeliveries req table) := by
    refine List.mem_filterMap.mpr ⟨row.groupId, hgroup, ?_⟩
    have hkey : (req.dateStr, row.groupId) = row.key := by rw [← hdate]; rfl
    rw [hkey]
    exact hopened.lookup hmem
  unfold claimOnce
  rw [if_neg (List.ne_nil_of_mem hgroup)]
  refine claimDeliveries_found hnow ?_ hopened (candidateRows_unique req _) hmem hread
  rw [hcandidate]
  exact howner

/-! ### Whole requests are runs -/

/-- The item an answer carries. -/
def ReportEvent.item? (event : ReportEvent) : Option DailyReportClaimItem :=
  match event.response with
  | .item item => item
  | _ => none

theorem filterMap_item_cons (event : ReportEvent) (events : List ReportEvent) :
    (event :: events).filterMap (·.item?) = event.item?.toList ++ events.filterMap (·.item?) := by
  cases h : event.item? <;> simp [h]

theorem claimDeliveries_run (now : Time) (req : DailyReportClaimRequest)
    {rows : List DailyReportDelivery} : ∀ {uuid : Nat → String} {s : Reports},
      Function.Injective uuid → (∀ i, uuid i ∉ s.issued) →
        Tables.Unique DailyReportDelivery.key rows →
          (∀ flight ∈ claimFlights now req rows, flight ∈ s.flights) →
            ∃ events s', Run reports s events s' ∧
              s'.deliveries = (claimDeliveries now req rows uuid s.deliveries).2.2 ∧
                events.filterMap (·.item?) = (claimDeliveries now req rows uuid s.deliveries).1 := by
  induction rows with
  | nil => exact fun _ _ _ _ => ⟨[], _, .nil, rfl, rfl⟩
  | cons first rest ih =>
      intro uuid s hinj hfresh hrows hflights
      have hparts := List.nodup_cons.mp hrows
      let flight : ClaimFlight :=
        { now, instanceId := req.instanceId,
          deliveryBotId := clip 64 ((req.candidate? first.groupId).getD ""), row := first }
      let action : ReportAction := .claimWrite flight (uuid 0)
      have hstep : reports.step s ⟨action, (action.perform s).1⟩ (action.perform s).2 :=
        ⟨⟨hflights _ List.mem_cons_self, hfresh 0⟩, rfl, rfl⟩
      have hlater : ∀ i, uuid (i + 1) ∉ (action.perform s).2.issued := by
        intro i hmem
        rcases List.mem_cons.mp hmem with hsame | hold
        · exact absurd (hinj hsame) (Nat.succ_ne_zero i)
        · exact hfresh (i + 1) hold
      have hwaiting : ∀ f ∈ claimFlights now req rest, f ∈ (action.perform s).2.flights := by
        intro f hf
        refine (List.mem_erase_of_ne ?_).mpr (hflights f (List.mem_cons_of_mem _ hf))
        rintro rfl
        exact hparts.1 (List.mem_map_of_mem (mem_claimFlights hf))
      obtain ⟨events, s', hrun, htable, hitems⟩ :=
        ih (fun i j h => Nat.succ_injective (hinj h)) hlater hparts.2 hwaiting
      refine ⟨_ :: events, s', .cons hstep hrun, htable, ?_⟩
      rw [filterMap_item_cons, hitems]
      rfl

/-- A claim executed alone is its read and then its writes. -/
theorem claimOnce_run (now : Time) (req : DailyReportClaimRequest)
    (hinj : Function.Injective uuid) (hfresh : ∀ i, uuid i ∉ s.issued) :
    ∃ events s', Run reports s events s' ∧
      s'.deliveries = (claimOnce now uuid req s.deliveries).2 ∧
        events.filterMap (·.item?) = (claimOnce now uuid req s.deliveries).1.items := by
  let read : ReportAction := .claimRead now req
  have hstep : reports.step s ⟨read, (read.perform s).1⟩ (read.perform s).2 := ⟨trivial, rfl, rfl⟩
  obtain ⟨events, s', hrun, htable, hitems⟩ := claimDeliveries_run now req hinj
    (s := (read.perform s).2) hfresh (candidateRows_unique req (openDeliveries req s.deliveries))
    fun flight hflight => List.mem_append_right _ hflight
  refine ⟨_ :: events, s', .cons hstep hrun, ?_⟩
  unfold claimOnce
  by_cases hnone : req.groups = []
  · rw [if_pos hnone, htable, List.filterMap_cons, hitems]
    have hrows : candidateRows req (openDeliveries req s.deliveries) = [] := by
      unfold candidateRows
      rw [hnone]
      rfl
    have hopened : openDeliveries req s.deliveries = s.deliveries := by
      unfold openDeliveries
      rw [hnone]
      exact List.append_nil _
    rw [hrows]
    exact ⟨hopened, rfl⟩
  · rw [if_neg hnone]
    exact ⟨htable, hitems⟩

/-- A transition executed alone is its read and then, if it found its token, its write. -/
theorem transitionDailyReport_run (s : Reports) (now : Time) (req : DailyReportTransitionRequest) :
    ∃ events s', Run reports s events s' ∧
      s'.deliveries = (transitionDailyReport now req s.deliveries).2 ∧
        events.getLast?.map (·.response) =
          some (.transition (transitionDailyReport now req s.deliveries).1) := by
  let read : ReportAction := .transitionRead now req
  have hread : reports.step s ⟨read, (read.perform s).1⟩ (read.perform s).2 := ⟨trivial, rfl, rfl⟩
  unfold transitionDailyReport
  rcases perform_transitionRead s now req with
    ⟨hnone, hperform⟩ | ⟨flight, rfl, rfl, hsome, hperform⟩
  · rw [show read.perform s = _ from hperform] at hread
    rw [hnone]
    exact ⟨_, s, .single hread, rfl, rfl⟩
  · rw [show read.perform s = _ from hperform] at hread
    rw [hsome]
    let write : ReportAction := .transitionWrite flight
    let t : Reports := { s with flights := s.flights ++ [.transition flight] }
    have hwrite : reports.step t ⟨write, (write.perform t).1⟩ (write.perform t).2 :=
      ⟨List.mem_append_right _ List.mem_cons_self, rfl, rfl⟩
    exact ⟨_, _, .cons hread (.single hwrite), rfl, rfl⟩

end RollPig
