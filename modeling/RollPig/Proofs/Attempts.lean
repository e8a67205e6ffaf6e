/-
Attempts, tokens and the deadline.

The attempts of a delivery are the leases of its job, and a ledger kept along the run
(`Ledger`) says which tokens those were: every token a row carries, a request has read or
an answer names is one of them.  A token read in a row that is being sent is never in a
claimed row again (`Settled`), so the deadline that the first half of a transition checks
on a stale row holds for the row it writes.
-/
import RollPig.Proofs.WholeRequests

namespace RollPig

open Transition Dispatch

variable {token : String} {k : Date × String} {row row' : DailyReportDelivery}
  {a : Act (Option String)} {event : ReportEvent} {s s' : Reports} {events : List ReportEvent}

/-! ### Rows -/

/-- A pending row has no lease and is due before the deadline; a claimed one has a token. -/
structure DailyReportDelivery.WellFormed (row : DailyReportDelivery) : Prop where
  unleased : row.status = .pending → row.claimToken = none
  due : row.status = .pending → ∀ t, row.nextAttemptAt = some t → t < retryDeadline row.dateStr
  leased : row.status = .claimed → row.claimToken ≠ none

/-- Nothing is asked of the rows that are past their lease. -/
theorem wellFormed_of_past (hpending : row.status ≠ .pending) (hclaimed : row.status ≠ .claimed) :
    row.WellFormed where
  unleased h := absurd h hpending
  due h := absurd h hpending
  leased h := absurd h hclaimed

/-- What `release` and `retry` leave behind is well formed. -/
theorem returnPlan_wellFormed (allowed : List DeliveryStatus) (now : Time)
    (req : DailyReportTransitionRequest) (row : DailyReportDelivery) :
    ((returnPlan allowed now req row).values row).WellFormed := by
  obtain ⟨status, next, hretry, -, hvalues⟩ := returnPlan_values allowed now req row row
  rw [hvalues]
  rcases retryAt_cases now row with hfail | ⟨later, hwait, hearly⟩
  · obtain ⟨rfl, rfl⟩ := Prod.mk.inj (hretry.symm.trans hfail)
    exact wellFormed_of_past (fun h => nomatch h) (fun h => nomatch h)
  · obtain ⟨rfl, rfl⟩ := Prod.mk.inj (hretry.symm.trans hwait)
    refine ⟨fun _ => rfl, fun _ t ht => ?_, fun h => (nomatch h)⟩
    obtain rfl := Option.some.inj ht
    exact hearly

theorem DeliveryStep.wellFormed (h : DeliveryStep row a row') : row'.WellFormed := by
  cases h with
  | fail => exact wellFormed_of_past (fun h => nomatch h) (fun h => nomatch h)
  | lease => exact ⟨fun h => (nomatch h), fun h => (nomatch h), fun _ h => (nomatch h)⟩
  | transition now req =>
      unfold transitionPlan
      cases req.action with
      | release | retry => exact returnPlan_wellFormed _ now req row
      | _ => exact wellFormed_of_past (fun h => nomatch h) (fun h => nomatch h)

/-- The status a transition leaves is the one it answers. -/
theorem values_status (now : Time) (req : DailyReportTransitionRequest) (row : DailyReportDelivery) :
    ((transitionPlan now req row).values row).status = (transitionPlan now req row).responseStatus := by
  unfold transitionPlan
  cases req.action <;> rfl

/-- No transition claims a row, and only one starts a sending. -/
theorem responseStatus_cases (now : Time) (req : DailyReportTransitionRequest)
    (row : DailyReportDelivery) :
    (transitionPlan now req row).responseStatus ≠ .claimed ∧
      ((transitionPlan now req row).responseStatus = .sending → req.action = .sending) := by
  have hreturn : ∀ allowed, (returnPlan allowed now req row).responseStatus ≠ .claimed ∧
      (returnPlan allowed now req row).responseStatus ≠ .sending := by
    intro allowed
    show (retryAt now row).1 ≠ .claimed ∧ (retryAt now row).1 ≠ .sending
    rcases retryAt_cases now row with hfail | ⟨next, hwait, -⟩
    · rw [hfail]
      decide
    · rw [hwait]
      exact ⟨fun h => (nomatch h), fun h => (nomatch h)⟩
  unfold transitionPlan
  cases req.action with
  | release => exact ⟨(hreturn _).1, fun h => absurd h (hreturn _).2⟩
  | retry => exact ⟨(hreturn _).1, fun h => absurd h (hreturn _).2⟩
  | sending => exact ⟨fun h => (nomatch h), fun _ => rfl⟩
  | sent | uncertain | skip => exact ⟨fun h => (nomatch h), fun h => (nomatch h)⟩

/-- A step that leaves a row claimed is a lease. -/
theorem DeliveryStep.claimed (h : DeliveryStep row a row') (hclaimed : row'.status = .claimed) :
    ∃ token, a = .lease (some token) ∧ row'.claimToken = some token := by
  cases h with
  | fail => exact nomatch hclaimed
  | lease now instanceId botId token => exact ⟨token, rfl, rfl⟩
  | transition now req =>
      rw [values_status] at hclaimed
      exact absurd hclaimed (responseStatus_cases now req row).1

/-- A step that leaves a row in sending is one the worker with the token asked for. -/
theorem DeliveryStep.sending (h : DeliveryStep row a row') (hsending : row'.status = .sending) :
    ∃ token, a = DeliveryAction.sending.act (some token) ∧ row.claimToken = some token := by
  cases h with
  | fail => exact nomatch hsending
  | lease => exact nomatch hsending
  | transition now req htoken =>
      rw [values_status] at hsending
      refine ⟨req.claimToken, ?_, htoken⟩
      unfold DailyReportTransitionRequest.act
      rw [(responseStatus_cases now req row).2 hsending]

/-! ### Stale reads -/

/-- The token of a request that read its row past the lease is in no claimed row. -/
def Reports.Settled (s : Reports) : Prop :=
  ∀ flight, ReportFlight.transition flight ∈ s.flights → flight.row.status ≠ .claimed →
    ∀ row ∈ s.deliveries, row.key = flight.row.key → row.claimToken = flight.row.claimToken →
      row.status ≠ .claimed

theorem Reports.Settled.step (h : s.Settled) (hs : s.Sound) (hstep : reports.step s event s') :
    s'.Settled := by
  intro flight hflight hpast row' hrow' hkey htoken hclaimed
  rcases flights_step hstep _ hflight with hold | hread
  · have hissued := hs.flying _ hold _ flight.held
    rcases (hs.changed hstep).rows hrow' with hrow | ⟨cutoffAt, hopened⟩ | ⟨row, hrow, hrowStep⟩
    · exact h flight hold hpast row' hrow hkey htoken hclaimed
    · rw [hopened] at hclaimed
      exact nomatch hclaimed
    · obtain ⟨fresh, hact, hfresh⟩ := hrowStep.claimed hclaimed
      have hsame : fresh = flight.req.claimToken :=
        Option.some.inj ((hfresh.symm.trans htoken).trans flight.held)
      exact ((issued_step hstep).2 _ _ hact).1 (hsame ▸ hissued)
  · obtain rfl := ((hs.changed hstep).unique hs).eq hrow' hread hkey
    exact hpast hclaimed

theorem rows_run (hrun : Run reports {} events s) :
    s.Settled ∧ ∀ row ∈ s.deliveries, row.WellFormed := by
  induction hrun with
  | nil => exact ⟨fun _ h => (nomatch h), fun _ h => (nomatch h)⟩
  | @snoc t u _ _ hrun hstep ih =>
      have ht := sound_run hrun
      refine ⟨ih.1.step ht hstep, fun row hrow => ?_⟩
      rcases (ht.changed hstep).rows hrow with hold | ⟨cutoffAt, hopened⟩ | ⟨_, -, hrowStep⟩
      · exact ih.2 row hold
      · rw [hopened]
        exact ⟨fun _ => rfl, fun _ _ h => (nomatch h), fun h => (nomatch h)⟩
      · exact hrowStep.wellFormed

/-! ### The deadline -/

/-- A token is issued before the deadline only. -/
theorem issued_early (hs : s.Sound) (hstep : reports.step s event s')
    (hissues : event.Issues k token) : event.now < retryDeadline k.1 := by
  obtain ⟨action, response⟩ := event
  obtain ⟨henabled, hresponse, -⟩ := hstep
  unfold ReportEvent.Issues at hissues
  split at hissues
  · rename_i flight fresh item hdone hitem
    obtain ⟨rfl, rfl, htoken⟩ := hissues
    obtain rfl : action = .claimWrite flight fresh := hdone
    obtain rfl : response = .item (some item) := hitem
    have hanswer : (claimDelivery flight.now flight.instanceId flight.deliveryBotId fresh flight.row
        s.deliveries).item = some item := (ReportResponse.item.inj hresponse).symm
    cases claimDelivery_outcome hs.unique flight.now flight.instanceId flight.deliveryBotId fresh
      flight.row with
    | quiet hnone =>
        rw [hnone] at hanswer
        cases hanswer
    | found howner hfound =>
        obtain rfl := Option.some.inj (hfound.symm.trans hanswer)
        exact absurd (hs.flying _ henabled.1 fresh (htoken ▸ claimItem_token howner)) henabled.2
    | leased hnow => exact hnow
  · exact hissues.elim

/-- A sending is started before the deadline only. -/
theorem started_early (hs : s.Sound) (hsettled : s.Settled) (hstep : reports.step s event s')
    {row' : DailyReportDelivery} (hrow : row ∈ s.deliveries) (hrow' : row' ∈ s'.deliveries)
    (hkey : row'.key = row.key) (hclaimed : row.status = .claimed)
    (hsending : row'.status = .sending) : event.now < retryDeadline row.dateStr := by
  have hstarts : ∃ token, event.act row.key = DeliveryAction.sending.act (some token) ∧
      row.claimToken = some token := by
    rcases (hs.changed hstep).rows hrow' with hold | ⟨cutoffAt, hopened⟩ | ⟨old, hold, hrowStep⟩
    · obtain rfl := hs.unique.eq hold hrow hkey
      exact nomatch hsending.symm.trans hclaimed
    · rw [hopened] at hsending
      exact nomatch hsending
    · obtain rfl := hs.unique.eq hold hrow (hrowStep.key.symm.trans hkey)
      rw [← hkey]
      exact hrowStep.sending hsending
  obtain ⟨token, hact, htoken⟩ := hstarts
  have haccepts := ReportEvent.accepts_of_act hact
  unfold ReportEvent.Accepts at haccepts
  split at haccepts
  · rename_i flight response hdone hanswer
    obtain ⟨hnames, haction, rfl, hok⟩ := haccepts
    obtain ⟨action, answer⟩ := event
    obtain rfl : action = .transitionWrite flight := hdone
    obtain rfl : answer = .transition response := hanswer
    obtain ⟨hflight, hresponse, -⟩ := hstep
    have hsame : row.key = flight.row.key := (flight.named.trans hnames).symm
    have hresult : (transitionWrite flight.now flight.req flight.row s.deliveries).1 = response :=
      (ReportResponse.transition.inj hresponse).symm
    cases transitionWrite_outcome hs.unique flight.now flight.req flight.row with
    | refused hrefused => exact absurd ((hresult ▸ hrefused).symm.trans hok) (by decide)
    | accepted _ _ _ hnow =>
        have hread : flight.row.status = .claimed := by
          by_contra hpast
          exact hsettled flight hflight hpast row hrow hsame (htoken.trans flight.held.symm) hclaimed
        have hdate : row.dateStr = flight.row.dateStr := congrArg Prod.fst hsame
        rw [hdate]
        exact hnow haction hread
  · exact haccepts.elim

/-! ### The tokens of a row -/

/-- The token an answer names for the row, new or found again. -/
def ReportEvent.returned? (event : ReportEvent) (k : Date × String) : Option String :=
  match event.action, event.response with
  | .claimWrite _ _, .item (some item) =>
      if (item.dateStr, item.groupId) = k then some item.claimToken else none
  | _, _ => none

/-- Every token that was answered for the row. -/
def tokensOf (k : Date × String) (events : List ReportEvent) : List String :=
  events.filterMap (·.returned? k)

/-- The tokens the row was leased under. -/
def leasesOf (k : Date × String) (events : List ReportEvent) : List (Option String) :=
  leases (events.map (·.act k))

theorem tokensOf_concat (k : Date × String) (events : List ReportEvent) (event : ReportEvent) :
    tokensOf k (events ++ [event]) = tokensOf k events ++ (event.returned? k).toList := by
  unfold tokensOf
  rw [List.filterMap_append]
  cases h : event.returned? k <;> simp [h]

theorem leasesOf_concat (k : Date × String) (events : List ReportEvent) (event : ReportEvent) :
    leasesOf k (events ++ [event]) = leasesOf k events ++ (event.act k).leased?.toList := by
  unfold leasesOf
  rw [List.map_append]
  exact leases_concat _ _

/-- An answer names the token of a new lease, or the one its request had read. -/
theorem returned_step (hs : s.Sound) (hstep : reports.step s event s') (k : Date × String) :
    (event.act k).leased? = (event.returned? k).map some ∨
      (event.act k).leased? = none ∧ ∃ flight ∈ s.flights, ∃ token,
        flight.row.key = k ∧ flight.row.claimToken = some token ∧
          event.returned? k = some token := by
  obtain ⟨action, response⟩ := event
  obtain ⟨henabled, hresponse, -⟩ := hstep
  cases action with
  | claimRead now req => exact Or.inl rfl
  | transitionRead now req => exact Or.inl rfl
  | transitionWrite flight =>
      obtain rfl : response = .transition
        (transitionWrite flight.now flight.req flight.row s.deliveries).1 := hresponse
      refine Or.inl ?_
      rw [ReportEvent.act_transitionWrite]
      by_cases hok : flight.row.key = k ∧
          (transitionWrite flight.now flight.req flight.row s.deliveries).1.ok = true
      · rw [if_pos hok]
        unfold DailyReportTransitionRequest.act
        cases flight.req.action <;> rfl
      · rw [if_neg hok]
        rfl
  | claimWrite flight fresh =>
      obtain rfl : response = .item (claimDelivery flight.now flight.instanceId
        flight.deliveryBotId fresh flight.row s.deliveries).item := hresponse
      obtain ⟨hflight, hfresh⟩ := henabled
      cases claimDelivery_outcome hs.unique flight.now flight.instanceId flight.deliveryBotId fresh
        flight.row with
      | quiet hnone =>
          rw [hnone]
          exact Or.inl rfl
      | found howner hfound =>
          have htoken := claimItem_token howner
          have hold : (claimItem flight.row).claimToken ≠ fresh := fun hsame =>
            hfresh (hs.flying _ hflight fresh (hsame ▸ htoken))
          rw [hfound, ReportEvent.act_claimWrite, if_neg fun h => hold h.2]
          by_cases hk : flight.row.key = k
          · exact Or.inr ⟨rfl, _, hflight, _, hk, htoken, if_pos hk⟩
          · refine Or.inl ?_
            show none = (if flight.row.key = k then some (claimItem flight.row).claimToken
              else none).map some
            rw [if_neg hk]
            rfl
      | @leased item hnow hitem hkey htoken hwrite =>
          refine Or.inl ?_
          rw [hitem, ReportEvent.act_claimWrite]
          show _ = (if (item.dateStr, item.groupId) = k then some item.claimToken else none).map some
          rw [hkey, htoken]
          by_cases hk : flight.row.key = k
          · rw [if_pos ⟨hk, rfl⟩, if_pos hk]
            rfl
          · rw [if_neg fun h => hk h.1, if_neg hk]
            rfl

/-- Which tokens a row was leased under, and who knows them. -/
structure Ledger (events : List ReportEvent) (s : Reports) : Prop where
  issued : ∀ k token, some token ∈ leasesOf k events → token ∈ s.issued
  distinct : ∀ k, (leasesOf k events).Nodup
  stored : ∀ row ∈ s.deliveries, ∀ token, row.claimToken = some token →
    some token ∈ leasesOf row.key events
  read : ∀ flight ∈ s.flights, ∀ token, flight.row.claimToken = some token →
    some token ∈ leasesOf flight.row.key events
  returned : ∀ k token, token ∈ leasesOf k events ↔ token ∈ (tokensOf k events).map some

/-- A row is leased under a token, and under a fresh one. -/
theorem leased_step (hstep : reports.step s event s') {t : Option String}
    (h : (event.act k).leased? = some t) :
    ∃ token, t = some token ∧ token ∉ s.issued ∧ token ∈ s'.issued := by
  have hact : event.act k = .lease t := by
    cases hevent : event.act k with
    | lease t' =>
        rw [hevent] at h
        rw [Option.some.inj h]
    | _ =>
        rw [hevent] at h
        exact nomatch h
  have htoken : ∃ token, t = some token := by
    unfold ReportEvent.act at hact
    split at hact
    · split at hact
      · exact ⟨_, (Act.lease.inj hact).symm⟩
      · exact nomatch hact
    · split at hact
      · exact absurd hact (DeliveryAction.act_ne_lease _ _ _)
      · exact nomatch hact
    · exact nomatch hact
  obtain ⟨token, rfl⟩ := htoken
  exact ⟨token, rfl, (issued_step hstep).2 k token hact⟩

theorem Ledger.step (h : Ledger events s) (hs : s.Sound) (hstep : reports.step s event s') :
    Ledger (events ++ [event]) s' := by
  have hkept : ∀ k token, token ∈ leasesOf k events → token ∈ leasesOf k (events ++ [event]) := by
    intro k token hmem
    rw [leasesOf_concat]
    exact List.mem_append_left _ hmem
  obtain ⟨hissued, hnew⟩ := issued_step hstep
  have hstored : ∀ row ∈ s'.deliveries, ∀ token, row.claimToken = some token →
      some token ∈ leasesOf row.key (events ++ [event]) := by
    intro row' hrow' token htoken
    rcases (hs.changed hstep).rows hrow' with hold | ⟨cutoffAt, hopened⟩ | ⟨row, hrow, hrowStep⟩
    · exact hkept _ _ (h.stored row' hold token htoken)
    · rw [hopened] at htoken
      exact nomatch htoken
    · rcases hrowStep.claimToken with hsame | hnone | ⟨fresh, hact, hfresh⟩
      · rw [hrowStep.key]
        exact hkept _ _ (h.stored row hrow token (hsame.symm.trans htoken))
      · exact nomatch hnone.symm.trans htoken
      · rw [leasesOf_concat, hact, ← htoken, hfresh]
        exact List.mem_append_right _ (by simp [Act.leased?])
  refine ⟨fun k token hmem => ?_, fun k => ?_, hstored, fun flight hflight token htoken => ?_,
    fun k token => ?_⟩
  · rw [leasesOf_concat] at hmem
    rcases List.mem_append.mp hmem with hold | hlast
    · exact hissued token (h.issued k token hold)
    · obtain ⟨fresh, hfresh, -, hin⟩ := leased_step hstep (Option.mem_toList.mp hlast)
      exact Option.some.inj hfresh ▸ hin
  · rw [leasesOf_concat, List.nodup_append]
    refine ⟨h.distinct k, ?_, ?_⟩
    · cases (event.act k).leased? <;> simp
    · rintro t hold t' hlast rfl
      obtain ⟨fresh, rfl, hout, -⟩ := leased_step hstep (Option.mem_toList.mp hlast)
      exact hout (h.issued k fresh hold)
  · rcases flights_step hstep flight hflight with hold | hread
    · exact hkept _ _ (h.read flight hold token htoken)
    · exact hstored _ hread token htoken
  · rw [leasesOf_concat, tokensOf_concat, List.map_append, List.mem_append, List.mem_append,
      h.returned k token]
    rcases returned_step hs hstep k with hsame | ⟨hnone, flight, hflight, old, hkey, hold, hanswer⟩
    · rw [hsame]
      cases event.returned? k <;> simp
    · have hmem : some old ∈ (tokensOf k events).map some :=
        (h.returned k (some old)).mp (hkey ▸ h.read flight hflight old hold)
      rw [hnone, hanswer]
      constructor
      · rintro (hbefore | hlast)
        · exact Or.inl hbefore
        · exact nomatch hlast
      · rintro (hbefore | hlast)
        · exact Or.inl hbefore
        · obtain rfl : token = some old := by simpa using hlast
          exact Or.inl hmem

theorem ledger_run (hrun : Run reports {} events s) : Ledger events s := by
  refine Run.history (I := Ledger) ⟨?_, ?_, ?_, ?_, ?_⟩ ?_ hrun
  · exact fun _ _ h => nomatch h
  · exact fun _ => List.nodup_nil
  · exact fun _ h => nomatch h
  · exact fun _ h => nomatch h
  · exact fun _ _ => Iff.rfl
  · exact fun _ _ _ _ hbefore h hstep => h.step (sound_run hbefore) hstep

/-- **The attempts of a row are the tokens that were issued for it.** -/
theorem attempts_eq (hrun : Run reports {} events s) (hrow : row ∈ s.deliveries) :
    row.attemptCount = (tokensOf row.key events).dedup.length := by
  have hledger := ledger_run hrun
  have hattempts := attempts_run (job_run sound_init hrun row.key)
  rw [jobOf_of_mem (sound_run hrun).unique hrow] at hattempts
  have hperm : (leasesOf row.key events).Perm ((tokensOf row.key events).dedup.map some) := by
    refine (List.perm_ext_iff_of_nodup (hledger.distinct row.key) ?_).mpr fun t => ?_
    · exact (List.nodup_dedup _).map (Option.some_injective _)
    · rw [hledger.returned row.key t, List.mem_map, List.mem_map]
      simp only [List.mem_dedup]
  calc row.attemptCount = 0 + (leasesOf row.key events).length := hattempts
    _ = ((tokensOf row.key events).dedup.map some).length := by rw [hperm.length_eq, Nat.zero_add]
    _ = (tokensOf row.key events).dedup.length := List.length_map _

/-! ### The result -/

/-- **The attempts of a delivery are bounded, counted and in time.**  In every state of a
run, a row has as many attempts as distinct tokens were answered for it, and at most the
budget; a pending row has no token and is due before its deadline.  No step issues a
token, or moves a claimed row to sending, with a clock reading at or after the deadline.
And the worker that holds a lease is given the same token again. -/
theorem deliveries_budgeted (hrun : Run reports {} events s) :
    (∀ row ∈ s.deliveries,
      row.attemptCount ≤ dailyReportMaxAttempts ∧
        row.attemptCount = (tokensOf row.key events).dedup.length ∧
          (row.status = .pending → row.claimToken = none ∧
            ∀ t, row.nextAttemptAt = some t → t < retryDeadline row.dateStr)) ∧
      (∀ event s', reports.step s event s' →
        (∀ k token, event.Issues k token → event.now < retryDeadline k.1) ∧
          ∀ row ∈ s.deliveries, ∀ row' ∈ s'.deliveries, row'.key = row.key →
            row.status = .claimed → row'.status = .sending →
              event.now < retryDeadline row.dateStr) ∧
        ∀ (req : DailyReportClaimRequest) (now claimedAt : Time) (botId : String)
            (uuid : Nat → String), ∀ row ∈ s.deliveries,
          row.dateStr = req.dateStr → req.candidate? row.groupId = some botId →
            row.status = .claimed → row.instanceId = clip 64 req.instanceId →
              row.deliveryBotId = clip 64 botId → row.claimedAt = some claimedAt →
                now - dailyReportClaimTimeout ≤ claimedAt → now < retryDeadline row.dateStr →
                  ∃ item ∈ (claimOnce now uuid req s.deliveries).1.items,
                    (item.dateStr, item.groupId) = row.key ∧
                      row.claimToken = some item.claimToken ∧
                        row ∈ (claimOnce now uuid req s.deliveries).2 := by
  have hs := sound_run hrun
  obtain ⟨hsettled, hwellFormed⟩ := rows_run hrun
  refine ⟨fun row hrow => ⟨?_, attempts_eq hrun hrow, fun hpending => ?_⟩, ?_, ?_⟩
  · have hbudget := attempts_le_run (job_run sound_init hrun row.key) (Nat.zero_le _)
    rw [jobOf_of_mem hs.unique hrow] at hbudget
    exact hbudget
  · exact ⟨(hwellFormed row hrow).unleased hpending, (hwellFormed row hrow).due hpending⟩
  · intro event s' hstep
    refine ⟨fun k token hissues => issued_early hs hstep hissues, ?_⟩
    intro row hrow row' hrow' hkey hclaimed hsending
    exact started_early hs hsettled hstep hrow hrow' hkey hclaimed hsending
  · intro req now claimedAt botId uuid row hrow hdate hcandidate hclaimed hinstance hbot hsince
      hlease hnow
    have htoken := (hwellFormed row hrow).leased hclaimed
    have howner : sameOwnerClaim now req.instanceId (clip 64 botId) row := by
      refine decide_eq_true ⟨hclaimed, htoken, ?_, hinstance, hbot⟩
      rw [hsince]
      exact decide_eq_true hlease
    obtain ⟨hitem, hkept⟩ := claimOnce_found hs.unique hrow hdate hcandidate howner hnow uuid
    exact ⟨claimItem row, hitem, rfl, claimItem_token howner, hkept⟩

/-- The lease of the first worker, looked at right after it was given. -/
def claimedScript : List ReportOrder :=
  [.claim noon noonClaim, .finish 0 "first"]

theorem deliveries_budgeted_leased :
    (∀ row ∈ (reportState claimedScript).deliveries, row.attemptCount = 1) ∧
      ∃ item ∈ (claimOnce (noon + minutes 5) (fun _ => "second") noonClaim
          (reportState claimedScript).deliveries).1.items, item.claimToken = "first" := by
  have hrun : Run reports {} (reportEvents claimedScript) (reportState claimedScript) :=
    reportScript_run (by decide +kernel)
  obtain ⟨hrows, -, hagain⟩ := deliveries_budgeted hrun
  have hrow : ∃ row ∈ (reportState claimedScript).deliveries, row.dateStr = 739000 ∧
      row.groupId = "7" ∧ row.status = .claimed ∧ row.instanceId = clip 64 "i" ∧
        row.deliveryBotId = clip 64 "bot" ∧ row.claimedAt = some noon ∧
          row.claimToken = some "first" := by
    decide +kernel
  have htokens : ∀ row ∈ (reportState claimedScript).deliveries,
      (tokensOf row.key (reportEvents claimedScript)).dedup.length = 1 := by
    decide +kernel
  obtain ⟨row, hmem, hdate, hgroup, hclaimed, hinstance, hbot, hsince, htoken⟩ := hrow
  refine ⟨fun row hrow => (hrows row hrow).2.1.trans (htokens row hrow), ?_⟩
  obtain ⟨item, hitem, -, hsame, -⟩ := hagain noonClaim (noon + minutes 5) noon "bot"
    (fun _ => "second") row hmem hdate (by rw [hgroup]; decide +kernel) hclaimed hinstance hbot
    hsince (by decide +kernel) (by rw [hdate]; decide +kernel)
  exact ⟨item, hitem, (Option.some.inj (htoken.symm.trans hsame)).symm⟩

end RollPig
