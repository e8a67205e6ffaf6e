/-
The announced moment of the next claim.

A claim executed alone finds a row closed, waiting, leased to its own worker, or free
(`ClaimedAlone`).  What the answer announces is the first moment at which a row it left
waiting may be leased, so before it nobody is given such a row, except a worker who is given
back the lease it holds already.  A row that is pending is leased at its moment.  A row whose
lease runs out at the moment is not free before the next one, so it is the only reason for
which nothing new may be given then.
-/
import RollPig.Proofs.Attempts

namespace RollPig

open Transition Dispatch

variable {now later : Time} {instanceId botId token : String} {row row' : DailyReportDelivery}
  {table : List DailyReportDelivery} {s s' : Reports} {event : ReportEvent}
  {events : List ReportEvent} {uuid : Nat → String} {req req' : DailyReportClaimRequest}

/-! ### Rows of a run -/

/-- No two rows carry one token, and a row that waits has attempts left. -/
structure Reports.Planned (s : Reports) : Prop where
  apart : ∀ row ∈ s.deliveries, ∀ row' ∈ s.deliveries, ∀ token, row.claimToken = some token →
    row'.claimToken = some token → row.key = row'.key
  budget : ∀ row ∈ s.deliveries, row.status = .pending → row.attemptCount < dailyReportMaxAttempts

/-- A step that leaves a row pending leaves it attempts. -/
theorem DeliveryStep.budget {a : Act (Option String)} (h : DeliveryStep row a row')
    (hpending : row'.status = .pending) : row'.attemptCount < dailyReportMaxAttempts := by
  have hreturn : ∀ allowed now req,
      ((returnPlan allowed now req row).values row).status = .pending →
        ((returnPlan allowed now req row).values row).attemptCount < dailyReportMaxAttempts := by
    intro allowed now req hwaits
    show row.attemptCount < 1 + dailyReportRetryDelays.length
    have hretry : (retryAt now row).1 = .pending := hwaits
    unfold retryAt at hretry
    cases hdelay : dailyReportRetryDelays[row.attemptCount - 1]? with
    | none =>
        rw [hdelay] at hretry
        cases hretry
    | some delay =>
        obtain ⟨hlt, -⟩ := List.getElem?_eq_some_iff.mp hdelay
        omega
  cases h with
  | fail => cases hpending
  | lease => cases hpending
  | transition now req =>
      unfold transitionPlan at hpending ⊢
      cases haction : req.action with
      | release =>
          rw [haction] at hpending
          exact hreturn _ _ _ hpending
      | retry =>
          rw [haction] at hpending
          exact hreturn _ _ _ hpending
      | sending | sent | uncertain | skip =>
          rw [haction] at hpending
          cases hpending

/-- A token was there before, under the same key, or is the one of a new lease. -/
theorem token_source (hs : s.Sound) (hstep : reports.step s event s') (hrow' : row' ∈ s'.deliveries)
    (htoken : row'.claimToken = some token) :
    (∃ row ∈ s.deliveries, row.key = row'.key ∧ row.claimToken = some token) ∨
      event.act row'.key = .lease (some token) := by
  rcases (hs.changed hstep).rows hrow' with hold | ⟨cutoffAt, hopened⟩ | ⟨row, hrow, hrowStep⟩
  · exact Or.inl ⟨row', hold, rfl, htoken⟩
  · rw [hopened] at htoken
    cases htoken
  · rcases hrowStep.claimToken with hsame | hnone | ⟨fresh, hact, hfresh⟩
    · exact Or.inl ⟨row, hrow, hrowStep.key.symm, hsame.symm.trans htoken⟩
    · rw [hnone] at htoken
      cases htoken
    · obtain rfl := Option.some.inj (hfresh.symm.trans htoken)
      exact Or.inr hact

/-- A step leases one row at most. -/
theorem leased_once (hs : s.Sound) (hstep : reports.step s event s') {k k' : Date × String}
    {t t' : Option String} (h : event.act k = .lease t) (h' : event.act k' = .lease t') : k = k' := by
  cases hs.changed hstep with
  | opens req htable hquiet =>
      rw [hquiet] at h
      cases h
  | writes key hwrite hothers =>
      have honly : ∀ k t, event.act k = .lease t → k = key := by
        intro k t hact
        by_contra hne
        rw [hothers k hne] at hact
        cases hact
      rw [honly k t h, honly k' t' h']

theorem Reports.Planned.step (h : s.Planned) (hs : s.Sound) (hstep : reports.step s event s') :
    s'.Planned := by
  refine ⟨fun row hrow row' hrow' token htoken htoken' => ?_, fun row hrow hpending => ?_⟩
  · have hnew : ∀ k, event.act k = .lease (some token) → token ∉ s.issued :=
      fun k hact => ((issued_step hstep).2 k token hact).1
    rcases token_source hs hstep hrow htoken with ⟨old, hold, hkey, hcarried⟩ | hleased
    · rcases token_source hs hstep hrow' htoken' with ⟨old', hold', hkey', hcarried'⟩ | hleased'
      · rw [← hkey, ← hkey']
        exact h.apart old hold old' hold' token hcarried hcarried'
      · exact absurd (hs.issued old hold token hcarried) (hnew _ hleased')
    · rcases token_source hs hstep hrow' htoken' with ⟨old', hold', hkey', hcarried'⟩ | hleased'
      · exact absurd (hs.issued old' hold' token hcarried') (hnew _ hleased)
      · exact leased_once hs hstep hleased hleased'
  · rcases (hs.changed hstep).rows hrow with hold | ⟨cutoffAt, hopened⟩ | ⟨old, -, hrowStep⟩
    · exact h.budget row hold hpending
    · rw [hopened]
      show 0 < dailyReportMaxAttempts
      decide
    · exact hrowStep.budget hpending

theorem planned_run (hrun : Run reports {} events s) : s.Planned := by
  induction hrun with
  | nil => exact ⟨fun _ h => (nomatch h), fun _ h => (nomatch h)⟩
  | snoc hrun hstep ih => exact ih.step (sound_run hrun) hstep

/-! ### One row, claimed alone -/

/-- The row may be given away: nobody works on it. -/
def DailyReportDelivery.Open (row : DailyReportDelivery) : Prop :=
  row.status = .pending ∨ row.status = .claimed

/-- What a claim makes of the row it reads when nothing comes in between. -/
inductive ClaimedAlone (now : Time) (instanceId botId token : String) (row : DailyReportDelivery) :
    Option DailyReportClaimItem → DailyReportDelivery → Prop
  | failed (lastError : String)
      (hclosed : retryDeadline row.dateStr ≤ now ∨ dailyReportMaxAttempts ≤ row.attemptCount) :
      ClaimedAlone now instanceId botId token row none (row.fail lastError)
  | found (howner : sameOwnerClaim now instanceId botId row) :
      ClaimedAlone now instanceId botId token row (some (claimItem row)) row
  | waits (hearly : row.Open → now < retryDeadline row.dateStr)
      (howner : ¬ sameOwnerClaim now instanceId botId row) (hdue : ¬ pendingDue now row)
      (hstale : ¬ staleClaim now row) : ClaimedAlone now instanceId botId token row none row
  | leased (hearly : now < retryDeadline row.dateStr) (hfree : pendingDue now row ∨ staleClaim now row) :
      ClaimedAlone now instanceId botId token row
        (some (claimItem (row.lease now instanceId botId token (row.attemptCount + 1))))
        (row.lease now instanceId botId token (row.attemptCount + 1))

/-- A guarded UPDATE of a row that is stored as it was read. -/
theorem refresh_updateWhere (h : Tables.Unique DailyReportDelivery.key table) (hrow : row ∈ table)
    {g : DailyReportDelivery → Bool} {f : DailyReportDelivery → DailyReportDelivery}
    (hg : g row = true) (hkey : ∀ r, g r → r.key = row.key) (hf : ∀ r, (f r).key = r.key) :
    Tables.rowcount g table = 1 ∧ refresh (Tables.updateWhere g f table) row = f row ∧
      f row ∈ Tables.updateWhere g f table := by
  rcases h.updateWhere hf hkey with ⟨hcount, stored, hstored, hsame, -, htable⟩ | ⟨hcount, -⟩
  · obtain rfl : stored = row := h.eq hstored hrow hsame
    have hmem : (f stored).key ∈ table.map DailyReportDelivery.key :=
      (hf stored).symm ▸ List.mem_map_of_mem hstored
    have hlookup : Tables.lookup DailyReportDelivery.key (Tables.updateWhere g f table) stored.key =
        some (f stored) := by
      rw [htable, Tables.lookup_writeBack hmem, if_pos (hf stored).symm]
    refine ⟨hcount, ?_, (Tables.lookup_some hlookup).1⟩
    unfold refresh
    rw [hlookup]
    rfl
  · have hnone := List.countP_eq_zero.mp hcount row hrow
    exact absurd hg hnone

/-- A row that is claimed alone, and stored as it is left. -/
structure DeliveryClaim.Alone (now : Time) (instanceId botId token : String)
    (row : DailyReportDelivery) (claim : DeliveryClaim) : Prop where
  outcome : ClaimedAlone now instanceId botId token row claim.item claim.row
  stored : claim.row ∈ claim.table

theorem failDelivery_alone (h : Tables.Unique DailyReportDelivery.key table) (hrow : row ∈ table)
    (hopen : row.Open) (reason : String)
    (hclosed : retryDeadline row.dateStr ≤ now ∨ dailyReportMaxAttempts ≤ row.attemptCount) :
    (failDelivery row reason table).Alone now instanceId botId token row := by
  have hnot : ¬ (row.status ≠ .pending ∧ row.status ≠ .claimed) := fun hne =>
    hopen.elim hne.1 hne.2
  have hguard : sameLease row row = true := decide_eq_true ⟨rfl, rfl, rfl, rfl⟩
  obtain ⟨-, hrefresh, hstored⟩ := refresh_updateWhere h hrow hguard
    (f := DailyReportDelivery.fail (if row.lastError ≠ "" then row.lastError else reason))
    (fun r hr => (of_decide_eq_true hr).1) fun _ => rfl
  unfold failDelivery failDeliveryIfUnchanged
  rw [if_neg hnot]
  dsimp only
  rw [hrefresh]
  exact ⟨.failed _ hclosed, hstored⟩

theorem claimDelivery_alone (h : Tables.Unique DailyReportDelivery.key table) (hrow : row ∈ table)
    (now : Time) (instanceId botId token : String) :
    (claimDelivery now instanceId botId token row table).Alone now instanceId botId token row := by
  unfold claimDelivery
  by_cases hlate : retryDeadline row.dateStr ≤ now ∧ (row.status = .pending ∨ row.status = .claimed)
  · rw [if_pos hlate]
    exact failDelivery_alone h hrow hlate.2 _ (Or.inl hlate.1)
  · have hearly : row.Open → now < retryDeadline row.dateStr := fun hopen =>
      Int.not_le.mp fun hle => hlate ⟨hle, hopen⟩
    rw [if_neg hlate]
    by_cases howner : sameOwnerClaim now instanceId botId row
    · rw [if_pos howner]
      exact ⟨.found howner, hrow⟩
    · rw [if_neg howner]
      by_cases hclosed : ¬ pendingDue now row ∧ ¬ staleClaim now row
      · rw [if_pos hclosed]
        exact ⟨.waits hearly howner hclosed.1 hclosed.2, hrow⟩
      · rw [if_neg hclosed]
        have hfree : pendingDue now row ∨ staleClaim now row := by
          by_contra hnot
          exact hclosed (not_or.mp hnot)
        by_cases hspent : dailyReportMaxAttempts ≤ row.attemptCount
        · rw [if_pos hspent]
          exact failDelivery_alone h hrow (free_of_open hfree) _ (Or.inr hspent)
        · rw [if_neg hspent]
          have hguard : claimGuard now row row = true := decide_eq_true ⟨rfl, rfl, hfree⟩
          obtain ⟨hcount, hrefresh, hstored⟩ := refresh_updateWhere h hrow hguard
            (f := DailyReportDelivery.lease now instanceId botId token (row.attemptCount + 1))
            (fun r hr => (of_decide_eq_true hr).1) fun _ => rfl
          unfold leaseDelivery
          dsimp only
          rw [hrefresh, if_pos hcount]
          exact ⟨.leased (hearly (free_of_open hfree)) hfree, hstored⟩


/-! ### A whole claim -/

/-- What a claim made of a row it read. -/
structure RowClaim where
  read : DailyReportDelivery
  item : Option DailyReportClaimItem
  left : DailyReportDelivery

theorem ClaimedAlone.key {item : Option DailyReportClaimItem}
    (h : ClaimedAlone now instanceId botId token row item row') : row'.key = row.key := by
  cases h <;> rfl

/-- The row an item is about. -/
def DailyReportClaimItem.key (item : DailyReportClaimItem) : Date × String :=
  (item.dateStr, item.groupId)

theorem ClaimedAlone.item_key {item : DailyReportClaimItem}
    (h : ClaimedAlone now instanceId botId token row (some item) row') : item.key = row.key := by
  cases h <;> rfl

/-- The claims of a loop, each on its row as it was read. -/
structure LoopClaims (now : Time) (instanceId : String) (uuid : Nat → String)
    (rows table : List DailyReportDelivery)
    (result : List DailyReportClaimItem × List DailyReportDelivery × List DailyReportDelivery)
    (made : List RowClaim) : Prop where
  reads : made.map (·.read) = rows
  items : result.1 = made.filterMap (·.item)
  left : result.2.1 = made.map (·.left)
  unique : Tables.Unique DailyReportDelivery.key result.2.2
  alone : ∀ x ∈ made, ∃ botId n, ClaimedAlone now instanceId botId (uuid n) x.read x.item x.left
  stored : ∀ x ∈ made, x.left ∈ result.2.2

theorem claimDeliveries_alone (now : Time) (req : DailyReportClaimRequest)
    {rows : List DailyReportDelivery} : ∀ {uuid : Nat → String} {table : List DailyReportDelivery},
      Tables.Unique DailyReportDelivery.key table → Tables.Unique DailyReportDelivery.key rows →
        (∀ row ∈ rows, row ∈ table) → ∃ made, LoopClaims now req.instanceId uuid rows table
          (claimDeliveries now req rows uuid table) made := by
  induction rows with
  | nil =>
      intro uuid table hunique _ _
      exact ⟨[], rfl, rfl, rfl, hunique, fun _ h => (nomatch h), fun _ h => (nomatch h)⟩
  | cons first rest ih =>
      intro uuid table hunique hrows hmem
      have hparts := List.nodup_cons.mp hrows
      have hfirst := hmem first List.mem_cons_self
      have hclaim := claimDelivery_alone hunique hfirst now req.instanceId
        (clip 64 ((req.candidate? first.groupId).getD "")) (uuid 0)
      obtain ⟨a, hwrite⟩ := claimDelivery_write hunique now req.instanceId
        (clip 64 ((req.candidate? first.groupId).getD "")) (uuid 0) first
      have hrest : ∀ row ∈ rest, row ∈ (claimDelivery now req.instanceId
          (clip 64 ((req.candidate? first.groupId).getD "")) (uuid 0) first table).table := by
        intro row hrow
        refine hwrite.kept (hmem row (List.mem_cons_of_mem _ hrow)) fun hsame => ?_
        exact hparts.1 (hsame ▸ List.mem_map_of_mem hrow)
      obtain ⟨made, hmade⟩ := @ih (fun i => uuid (i + 1)) _ (hwrite.unique hunique) hparts.2 hrest
      unfold claimDeliveries
      dsimp only
      generalize hdone : claimDelivery now req.instanceId
        (clip 64 ((req.candidate? first.groupId).getD "")) (uuid 0) first table = claim at *
      refine ⟨⟨first, claim.item, claim.row⟩ :: made, ?_, ?_, ?_, hmade.unique, ?_, ?_⟩
      · rw [List.map_cons, hmade.reads]
      · rw [hmade.items, List.filterMap_cons]
        cases claim.item <;> rfl
      · rw [hmade.left, List.map_cons]
      · intro x hx
        rcases List.mem_cons.mp hx with rfl | hx
        · exact ⟨_, 0, hclaim.outcome⟩
        · obtain ⟨botId, n, hx⟩ := hmade.alone x hx
          exact ⟨botId, n + 1, hx⟩
      · intro x hx
        rcases List.mem_cons.mp hx with rfl | hx
        · refine claimDeliveries_kept req (hwrite.unique hunique) hclaim.stored ?_
          rw [hclaim.outcome.key]
          exact hparts.1
        · exact hmade.stored x hx

/-- A claim executed alone: what it made of every candidate, and what it answered. -/
structure ClaimMade (now : Time) (uuid : Nat → String) (req : DailyReportClaimRequest)
    (table : List DailyReportDelivery)
    (result : DailyReportClaimResponse × List DailyReportDelivery) (made : List RowClaim) :
    Prop where
  reads : made.map (·.read) = candidateRows req (openDeliveries req table)
  items : result.1.items = made.filterMap (·.item)
  next : result.1.nextClaimAt =
    nextClaimAt (made.map (·.left)) (result.1.items.map (·.claimToken)) now
  unique : Tables.Unique DailyReportDelivery.key result.2
  alone : ∀ x ∈ made, ∃ botId n, ClaimedAlone now req.instanceId botId (uuid n) x.read x.item x.left
  stored : ∀ x ∈ made, x.left ∈ result.2

theorem claimOnce_made (h : Tables.Unique DailyReportDelivery.key table) (now : Time)
    (uuid : Nat → String) (req : DailyReportClaimRequest) :
    ∃ made, ClaimMade now uuid req table (claimOnce now uuid req table) made := by
  unfold claimOnce
  by_cases hnone : req.groups = []
  · rw [if_pos hnone]
    have hrows : candidateRows req (openDeliveries req table) = [] := by
      unfold candidateRows
      rw [hnone]
      rfl
    exact ⟨[], hrows.symm, rfl, rfl, h, fun _ h => (nomatch h), fun _ h => (nomatch h)⟩
  · rw [if_neg hnone]
    obtain ⟨made, hmade⟩ := @claimDeliveries_alone now req _ uuid _ (openDeliveries_unique h req)
      (candidateRows_unique req _) fun row => mem_candidateRows
    refine ⟨made, hmade.reads, hmade.items, ?_, hmade.unique, hmade.alone, hmade.stored⟩
    dsimp only
    rw [hmade.left]

namespace ClaimMade

variable {result : DailyReportClaimResponse × List DailyReportDelivery} {made : List RowClaim}
  {x y : RowClaim}

theorem read_mem (h : ClaimMade now uuid req table result made) (hx : x ∈ made) :
    x.read ∈ candidateRows req (openDeliveries req table) :=
  h.reads ▸ List.mem_map_of_mem hx

theorem read_key (h : ClaimMade now uuid req table result made) (hx : x ∈ made) :
    ∃ groupId ∈ req.groups, x.read.key = (req.dateStr, groupId) := by
  obtain ⟨g, hg, hlookup⟩ := List.mem_filterMap.mp (h.read_mem hx)
  exact ⟨g, hg, (Tables.lookup_some hlookup).2⟩

theorem left_key (h : ClaimMade now uuid req table result made) (hx : x ∈ made) :
    x.left.key = x.read.key := by
  obtain ⟨_, _, hclaim⟩ := h.alone x hx
  exact hclaim.key

/-- A row is read once. -/
theorem once (h : ClaimMade now uuid req table result made) (hx : x ∈ made) (hy : y ∈ made)
    (hkey : x.read.key = y.read.key) : x = y := by
  have hunique : (made.map fun z => z.read.key).Nodup := by
    have hreads := candidateRows_unique req (openDeliveries req table)
    unfold Tables.Unique at hreads
    rw [← h.reads, List.map_map] at hreads
    exact hreads
  exact List.inj_on_of_nodup_map hunique hx hy hkey

/-- Every candidate is read, opened before if it has to be. -/
theorem covers (h : ClaimMade now uuid req table result made) {groupId : String}
    (hgroup : groupId ∈ req.groups) : ∃ x ∈ made, x.read.key = (req.dateStr, groupId) := by
  have hkey : (req.dateStr, groupId) ∈ (openDeliveries req table).map DailyReportDelivery.key := by
    unfold openDeliveries
    rw [List.map_append]
    by_cases hold : (req.dateStr, groupId) ∈ table.map DailyReportDelivery.key
    · exact List.mem_append_left _ hold
    · refine List.mem_append_right _ (List.mem_map.mpr ⟨_, List.mem_map_of_mem ?_, rfl⟩)
      exact List.mem_filter.mpr ⟨hgroup, decide_eq_true hold⟩
  cases hlookup : Tables.lookup DailyReportDelivery.key (openDeliveries req table)
      (req.dateStr, groupId) with
  | none => exact absurd hkey (Tables.lookup_none.mp hlookup)
  | some row =>
      have hread : row ∈ made.map (·.read) :=
        h.reads ▸ List.mem_filterMap.mpr ⟨groupId, hgroup, hlookup⟩
      obtain ⟨x, hx, rfl⟩ := List.mem_map.mp hread
      exact ⟨x, hx, (Tables.lookup_some hlookup).2⟩

/-- An item is the one of a row that was read. -/
theorem item_source (h : ClaimMade now uuid req table result made) {item : DailyReportClaimItem}
    (hitem : item ∈ result.1.items) : ∃ x ∈ made, x.item = some item := by
  rw [h.items] at hitem
  exact List.mem_filterMap.mp hitem

theorem item_mem (h : ClaimMade now uuid req table result made) (hx : x ∈ made)
    {item : DailyReportClaimItem} (hitem : x.item = some item) : item ∈ result.1.items := by
  rw [h.items]
  exact List.mem_filterMap.mpr ⟨x, hx, hitem⟩

theorem named_iff (h : ClaimMade now uuid req table result made) (hx : x ∈ made) :
    x.read.key ∈ result.1.items.map (·.key) ↔ x.item ≠ none := by
  constructor
  · intro hmem hnone
    obtain ⟨item, hitem, hkey⟩ := List.mem_map.mp hmem
    obtain ⟨y, hy, hyitem⟩ := h.item_source hitem
    obtain ⟨_, _, hyclaim⟩ := h.alone y hy
    rw [hyitem] at hyclaim
    obtain rfl := h.once hx hy (hkey.symm.trans hyclaim.item_key)
    rw [hnone] at hyitem
    cases hyitem
  · intro hsome
    obtain ⟨item, hitem⟩ := Option.ne_none_iff_exists'.mp hsome
    obtain ⟨_, _, hclaim⟩ := h.alone x hx
    rw [hitem] at hclaim
    exact List.mem_map.mpr ⟨item, h.item_mem hx hitem, hclaim.item_key⟩

/-- The next claim of the same candidates reads what this one left. -/
theorem reread (h : ClaimMade now uuid req table result made) {uuid' : Nat → String}
    {result' : DailyReportClaimResponse × List DailyReportDelivery} {made' : List RowClaim}
    (hdate : req'.dateStr = req.dateStr) (hcandidates : req'.candidates = req.candidates)
    (h' : ClaimMade later uuid' req' result.2 result' made') (hy : y ∈ made') :
    ∃ x ∈ made, x.left = y.read := by
  have hgroups : req'.groups = req.groups := by
    unfold DailyReportClaimRequest.groups
    rw [hcandidates]
  obtain ⟨g, hg, hkey⟩ := h'.read_key hy
  obtain ⟨x, hx, hread⟩ := h.covers (hgroups ▸ hg)
  refine ⟨x, hx, ?_⟩
  have hopened := openDeliveries_unique h.unique req'
  refine hopened.eq (List.mem_append_left _ (h.stored x hx)) (mem_candidateRows (h'.read_mem hy)) ?_
  rw [h.left_key hx, hread, hkey, hdate]

end ClaimMade


/-! ### What the answer announces -/

/-- A row waits for its cutoff and its next attempt, and so for the later one. -/
theorem pendingDue_iff : pendingDue now row ↔
    row.status = .pending ∧ max row.cutoffAt (row.nextAttemptAt.getD row.cutoffAt) ≤ now := by
  unfold pendingDue
  rw [decide_eq_true_eq, max_le_iff]
  cases row.nextAttemptAt <;> simp

/-- A lease is stale when it has a beginning and its time is over, or has none. -/
theorem staleClaim_iff : staleClaim now row ↔ row.status = .claimed ∧
    ∀ since, row.claimedAt = some since → since + dailyReportClaimTimeout < now := by
  unfold staleClaim
  rw [decide_eq_true_eq]
  cases row.claimedAt <;> simp [lt_sub_iff_add_lt]

/-- The moment a row is announced for, if it is not one of the rows just given. -/
theorem nextClaimOf_le {tokens : List String}
    (h : ClaimedAlone now instanceId botId token row none row')
    (hunknown : ∀ token, row'.claimToken = some token → token ∉ tokens)
    (hfree : pendingDue later row' ∨ staleClaim later row')
    (hearly : later < retryDeadline row'.dateStr) :
    ∃ moment, nextClaimOf tokens now row' = some moment ∧ moment ≤ later := by
  cases h with
  | failed =>
      rcases hfree with hdue | hstale
      · cases (of_decide_eq_true hdue).1
      · cases (of_decide_eq_true hstale).1
  | waits _ _ _ hfresh =>
      unfold nextClaimOf
      rcases hfree with hdue | hstale
      · obtain ⟨hstatus, hle⟩ := pendingDue_iff.mp hdue
        rw [hstatus]
        exact ⟨_, Option.filter_eq_some_iff.mpr
          ⟨rfl, decide_eq_true (lt_of_le_of_lt hle hearly)⟩, hle⟩
      · obtain ⟨hstatus, hage⟩ := staleClaim_iff.mp hstale
        have hnamed : row.claimToken.any (· ∈ tokens) = false := by
          cases htoken : row.claimToken with
          | none => rfl
          | some token => exact decide_eq_false (hunknown token htoken)
        rw [hstatus, hnamed]
        cases hsince : row.claimedAt with
        | none => exact absurd (staleClaim_iff.mpr ⟨hstatus, by simp [hsince]⟩) hfresh
        | some since =>
            have hle : since + dailyReportClaimTimeout ≤ later := Int.le_of_lt (hage since hsince)
            exact ⟨_, Option.filter_eq_some_iff.mpr
              ⟨rfl, decide_eq_true (lt_of_le_of_lt hle hearly)⟩, hle⟩

/-- A row that an answer announces waits for its cutoff or its next attempt, or for the end of a
lease that was not given. -/
theorem ClaimedAlone.moment {tokens : List String} {item : Option DailyReportClaimItem} {w : Time}
    (h : ClaimedAlone now instanceId botId token row item row')
    (hgiven : ∀ given, item = some given → given.claimToken ∈ tokens)
    (hmoment : nextClaimOf tokens now row' = some w) :
    item = none ∧ now ≤ w ∧
      ((row'.status = .pending ∧ max row'.cutoffAt (row'.nextAttemptAt.getD row'.cutoffAt) = w) ∨
        (row'.status = .claimed ∧ ∃ since, row'.claimedAt = some since ∧
          since + dailyReportClaimTimeout = w)) := by
  unfold nextClaimOf at hmoment
  obtain ⟨hcandidate, -⟩ := Option.filter_eq_some_iff.mp hmoment
  cases h with
  | failed => cases hcandidate
  | found howner =>
      have hknown : row.claimToken.any (· ∈ tokens) = true := by
        rw [claimItem_token howner]
        exact decide_eq_true (hgiven _ rfl)
      rw [(of_decide_eq_true howner).1, hknown] at hcandidate
      cases hcandidate
  | leased =>
      have hknown : (some token).any (· ∈ tokens) = true := decide_eq_true (hgiven _ rfl)
      change (if (some token).any (· ∈ tokens) then none else _) = _ at hcandidate
      rw [hknown] at hcandidate
      cases hcandidate
  | waits _ _ hdue hstale =>
      refine ⟨rfl, ?_⟩
      cases hstatus : row.status with
      | pending =>
          rw [hstatus] at hcandidate
          obtain rfl := Option.some.inj hcandidate
          refine ⟨?_, Or.inl ⟨rfl, rfl⟩⟩
          by_contra hpassed
          exact hdue (pendingDue_iff.mpr ⟨hstatus, Int.le_of_lt (Int.not_le.mp hpassed)⟩)
      | claimed =>
          rw [hstatus] at hcandidate
          cases hsince : row.claimedAt with
          | none => exact absurd (staleClaim_iff.mpr ⟨hstatus, by simp [hsince]⟩) hstale
          | some since =>
              rw [hsince] at hcandidate
              have hwhen : since + dailyReportClaimTimeout = w := by
                change (if _ then none else some (since + dailyReportClaimTimeout)) = _ at hcandidate
                split_ifs at hcandidate with hknown
                exact Option.some.inj hcandidate
              refine ⟨?_, Or.inr ⟨rfl, since, rfl, hwhen⟩⟩
              by_contra hpassed
              refine hstale (staleClaim_iff.mpr ⟨hstatus, fun since' hsince' => ?_⟩)
              obtain rfl := Option.some.inj (hsince.symm.trans hsince')
              exact hwhen.symm ▸ Int.not_le.mp hpassed
      | _ =>
          rw [hstatus] at hcandidate
          cases hcandidate

/-- A row that is left waiting for its moment was waiting for it before. -/
theorem ClaimedAlone.pending {item : Option DailyReportClaimItem}
    (h : ClaimedAlone now instanceId botId token row item row') (hpending : row'.status = .pending) :
    item = none ∧ row' = row ∧ ¬ pendingDue now row := by
  cases h with
  | failed | leased => cases hpending
  | found howner =>
      have hclaimed := (of_decide_eq_true howner).1
      rw [hpending] at hclaimed
      cases hclaimed
  | waits _ _ hwaits => exact ⟨rfl, rfl, hwaits⟩

/-- A pending row is leased when its moment has come. -/
theorem ClaimedAlone.due {item : Option DailyReportClaimItem}
    (h : ClaimedAlone now instanceId botId token row item row')
    (hdue : pendingDue now row) (hearly : now < retryDeadline row.dateStr)
    (hbudget : row.attemptCount < dailyReportMaxAttempts) : item ≠ none := by
  cases h with
  | failed _ hclosed =>
      rcases hclosed with hlate | hspent
      · exact absurd hearly (Int.not_lt.mpr hlate)
      · exact absurd hbudget (Nat.not_lt.mpr hspent)
  | waits _ _ hwaits => exact absurd hdue hwaits
  | found | leased => exact Option.some_ne_none _

namespace ClaimMade

variable {result result' : DailyReportClaimResponse × List DailyReportDelivery}
  {made made' : List RowClaim} {x y : RowClaim}

/-- Nobody was just given the token of a row that was left alone. -/
theorem token_unknown (h : ClaimMade now uuid req table result made)
    (hapart : ∀ row ∈ openDeliveries req table, ∀ row' ∈ openDeliveries req table, ∀ token,
      row.claimToken = some token → row'.claimToken = some token → row.key = row'.key)
    (hfresh : ∀ row ∈ openDeliveries req table, ∀ n, row.claimToken ≠ some (uuid n))
    (hx : x ∈ made) (hnone : x.item = none) (htoken : x.read.claimToken = some token) :
    token ∉ result.1.items.map (·.claimToken) := by
  intro hnamed
  obtain ⟨item, hitem, rfl⟩ := List.mem_map.mp hnamed
  obtain ⟨y, hy, hyitem⟩ := h.item_source hitem
  have hxread := mem_candidateRows (h.read_mem hx)
  have hyread := mem_candidateRows (h.read_mem hy)
  obtain ⟨_, n, hclaim⟩ := h.alone y hy
  rw [hyitem] at hclaim
  generalize hleft : y.left = left at hclaim
  generalize hread : y.read = read at hclaim hyread
  cases hclaim with
  | found howner =>
      have hkey := hapart _ hxread _ hyread _ htoken (claimItem_token howner)
      obtain rfl := h.once hx hy (hread.symm ▸ hkey)
      rw [hnone] at hyitem
      cases hyitem
  | leased => exact hfresh _ hxread n htoken

/-- The moment of a candidate is announced, or an earlier one. -/
theorem next_le (h : ClaimMade now uuid req table result made) (hx : x ∈ made) {moment : Time}
    (hmoment : nextClaimOf (result.1.items.map (·.claimToken)) now x.left = some moment) :
    ∃ w, result.1.nextClaimAt = some w ∧ w ≤ moment := by
  have hmem : moment ∈ (made.map (·.left)).filterMap
      (nextClaimOf (result.1.items.map (·.claimToken)) now) :=
    List.mem_filterMap.mpr ⟨x.left, List.mem_map_of_mem hx, hmoment⟩
  rw [h.next]
  unfold nextClaimAt
  obtain ⟨w, hw⟩ := Option.isSome_iff_exists.mp (List.isSome_min?_of_mem hmem)
  exact ⟨w, hw, (List.min?_eq_some_iff.mp hw).2 moment hmem⟩

/-- What is announced is the moment of a candidate. -/
theorem next_source (h : ClaimMade now uuid req table result made) {w : Time}
    (hw : result.1.nextClaimAt = some w) :
    ∃ x ∈ made, nextClaimOf (result.1.items.map (·.claimToken)) now x.left = some w := by
  rw [h.next] at hw
  have hmem := (List.min?_eq_some_iff.mp hw).1
  obtain ⟨row, hrow, hmoment⟩ := List.mem_filterMap.mp hmem
  obtain ⟨x, hx, rfl⟩ := List.mem_map.mp hrow
  exact ⟨x, hx, hmoment⟩

/-- What is announced is before the deadline. -/
theorem next_lt (h : ClaimMade now uuid req table result made) {w : Time}
    (hw : result.1.nextClaimAt = some w) : w < retryDeadline req.dateStr := by
  obtain ⟨x, hx, hmoment⟩ := h.next_source hw
  obtain ⟨g, -, hkey⟩ := h.read_key hx
  have hdate : x.left.dateStr = req.dateStr := congrArg Prod.fst ((h.left_key hx).trans hkey)
  have hearly := of_decide_eq_true (Option.filter_eq_some_iff.mp hmoment).2
  rwa [hdate] at hearly

end ClaimMade


/-! ### The result -/

/-- The state in which a claim has read its rows. -/
def Reports.read (now : Time) (req : DailyReportClaimRequest) (s : Reports) : Reports :=
  ((ReportAction.claimRead now req).perform s).2

theorem read_run (hrun : Run reports {} events s) (now : Time) (req : DailyReportClaimRequest) :
    ∃ events', Run reports {} events' (s.read now req) := by
  let read : ReportAction := .claimRead now req
  have hstep : reports.step s ⟨read, (read.perform s).1⟩ (read.perform s).2 := ⟨trivial, rfl, rfl⟩
  exact ⟨_, hrun.snoc hstep⟩

/-- Before the announced moment a claim is given the rows that were just given, or the lease
it holds. -/
theorem announced_before {made : List RowClaim} (hrun : Run reports {} events s)
    (huuid : ∀ n, uuid n ∉ s.issued)
    (hmade : ClaimMade now uuid req s.deliveries (claimOnce now uuid req s.deliveries) made)
    (hdate : req'.dateStr = req.dateStr) (hcandidates : req'.candidates = req.candidates)
    (hlater : ∀ w, (claimOnce now uuid req s.deliveries).1.nextClaimAt = some w → later < w)
    (uuid' : Nat → String) {item : DailyReportClaimItem}
    (hitem : item ∈
      (claimOnce later uuid' req' (claimOnce now uuid req s.deliveries).2).1.items) :
    item.key ∈ (claimOnce now uuid req s.deliveries).1.items.map (·.key) ∨
      ∃ row ∈ (claimOnce now uuid req s.deliveries).2,
        sameOwnerClaim later req'.instanceId row.deliveryBotId row ∧ item = claimItem row := by
  obtain ⟨_, hread⟩ := read_run hrun now req
  obtain ⟨made', hmade'⟩ := claimOnce_made hmade.unique later uuid' req'
  obtain ⟨y, hy, hyitem⟩ := hmade'.item_source hitem
  obtain ⟨x, hx, hxy⟩ := hmade.reread hdate hcandidates hmade' hy
  obtain ⟨botId, n, hclaim⟩ := hmade'.alone y hy
  rw [hyitem, ← hxy] at hclaim
  have hkey : item.key = x.read.key := hclaim.item_key.trans (hmade.left_key hx)
  generalize y.left = left at hclaim
  cases hclaim with
  | found howner =>
      obtain ⟨hclaimed, htoken, hage, hinstance, hbot⟩ := of_decide_eq_true howner
      exact Or.inr ⟨x.left, hmade.stored x hx,
        decide_eq_true ⟨hclaimed, htoken, hage, hinstance, rfl⟩, rfl⟩
  | leased hearly hfree =>
      refine Or.inl ?_
      rw [hkey, hmade.named_iff hx]
      intro hnone
      obtain ⟨_, _, hfirst⟩ := hmade.alone x hx
      rw [hnone] at hfirst
      have hunknown : ∀ token, x.left.claimToken = some token →
          token ∉ (claimOnce now uuid req s.deliveries).1.items.map (·.claimToken) := by
        intro token htoken
        have hcarried : x.read.claimToken = some token := by
          generalize x.left = left at hfirst htoken
          cases hfirst with
          | failed => cases htoken
          | waits => exact htoken
        refine hmade.token_unknown (planned_run hread).apart (fun row hrow n hsame => ?_) hx hnone
          hcarried
        exact huuid n ((sound_run hread).issued row hrow _ hsame)
      obtain ⟨moment, hmoment, hle⟩ := nextClaimOf_le hfirst hunknown hfree hearly
      obtain ⟨w, hw, hwle⟩ := hmade.next_le hx hmoment
      exact absurd (hlater w hw) (not_lt.mpr (le_trans hwle hle))

/-- At the announced moment a row that waits for it is given away, to whoever asks. -/
theorem announced_due {made : List RowClaim} {w : Time} (hrun : Run reports {} events s)
    (hmade : ClaimMade now uuid req s.deliveries (claimOnce now uuid req s.deliveries) made)
    (hdate : req'.dateStr = req.dateStr) (hcandidates : req'.candidates = req.candidates)
    (uuid' : Nat → String) (hw : (claimOnce now uuid req s.deliveries).1.nextClaimAt = some w)
    (hrow : row ∈ (claimOnce now uuid req s.deliveries).2) (hrowDate : row.dateStr = req.dateStr)
    (hgroup : row.groupId ∈ req.groups) (hpending : row.status = .pending)
    (hmoment : max row.cutoffAt (row.nextAttemptAt.getD row.cutoffAt) = w) :
    now < w ∧ row.key ∉ (claimOnce now uuid req s.deliveries).1.items.map (·.key) ∧
      ∃ item ∈ (claimOnce w uuid' req' (claimOnce now uuid req s.deliveries).2).1.items,
        item.key = row.key := by
  obtain ⟨_, hread⟩ := read_run hrun now req
  obtain ⟨x, hx, hkey⟩ := hmade.covers hgroup
  obtain rfl : x.left = row := by
    refine hmade.unique.eq (hmade.stored x hx) hrow ((hmade.left_key hx).trans (hkey.trans ?_))
    rw [← hrowDate]
    rfl
  obtain ⟨_, _, hfirst⟩ := hmade.alone x hx
  obtain ⟨hnone, hsame, hearlier⟩ := hfirst.pending hpending
  have hnamed : x.left.key ∉ (claimOnce now uuid req s.deliveries).1.items.map (·.key) := by
    rw [hmade.left_key hx, hmade.named_iff hx]
    exact not_not.mpr hnone
  have hearly : w < retryDeadline x.left.dateStr := hrowDate.symm ▸ hmade.next_lt hw
  have hdue : ∀ t, w ≤ t → pendingDue t x.left :=
    fun t ht => pendingDue_iff.mpr ⟨hpending, hmoment.trans_le ht⟩
  have hnow : now < w := by
    by_contra hle
    exact hearlier (hsame ▸ hdue now (not_lt.mp hle))
  refine ⟨hnow, hnamed, ?_⟩
  have hgroups : req'.groups = req.groups := by
    unfold DailyReportClaimRequest.groups
    rw [hcandidates]
  obtain ⟨made', hmade'⟩ := claimOnce_made hmade.unique w uuid' req'
  obtain ⟨y, hy, hykey⟩ := hmade'.covers (hgroups ▸ hgroup)
  obtain ⟨z, hz, hzy⟩ := hmade.reread hdate hcandidates hmade' hy
  obtain rfl : z = x := by
    refine hmade.once hz hx ?_
    rw [← hmade.left_key hz, hzy, hykey, hkey, hdate]
  obtain ⟨_, _, hsecond⟩ := hmade'.alone y hy
  rw [← hzy] at hsecond
  have hbudget : z.left.attemptCount < dailyReportMaxAttempts := by
    refine (planned_run hread).budget z.left ?_ hpending
    rw [hsame]
    exact mem_candidateRows (hmade.read_mem hz)
  have hgiven := hsecond.due (hdue w (le_refl w)) hearly hbudget
  obtain ⟨item, hitem, hitemKey⟩ := List.mem_map.mp ((hmade'.named_iff hy).mpr hgiven)
  exact ⟨item, hitem, hitemKey.trans (congrArg (·.key) hzy.symm)⟩

/-- A lease of a candidate that was not given runs out at the moment. -/
def LeaseEnds (req : DailyReportClaimRequest) (given : List DailyReportClaimItem)
    (table : List DailyReportDelivery) (w : Time) : Prop :=
  ∃ row ∈ table, row.dateStr = req.dateStr ∧ row.groupId ∈ req.groups ∧
    row.key ∉ given.map (·.key) ∧ row.status = .claimed ∧
      ∃ since, row.claimedAt = some since ∧ since + dailyReportClaimTimeout = w

/-- **What a claim announces is the next moment worth claiming.**  In every state of a run,
and with nothing in between, a later claim of the same candidates is given no row before the
announced moment that was not just given, except a lease which its worker holds already;
and when nothing is announced this holds at every time.  The moment is not in the past, and at
the moment itself whoever asks is given every row that waits for it, and so some row that was
not just given, unless it is a lease that runs out then. -/
theorem announced_next (now : Time) (uuid uuid' : Nat → String) (req req' : DailyReportClaimRequest)
    (hrun : Run reports {} events s) (huuid : ∀ n, uuid n ∉ s.issued)
    (hdate : req'.dateStr = req.dateStr) (hcandidates : req'.candidates = req.candidates) :
    (∀ later, (∀ w, (claimOnce now uuid req s.deliveries).1.nextClaimAt = some w → later < w) →
      ∀ item ∈ (claimOnce later uuid' req' (claimOnce now uuid req s.deliveries).2).1.items,
        item.key ∈ (claimOnce now uuid req s.deliveries).1.items.map (·.key) ∨
          ∃ row ∈ (claimOnce now uuid req s.deliveries).2,
            sameOwnerClaim later req'.instanceId row.deliveryBotId row ∧ item = claimItem row) ∧
      ∀ w, (claimOnce now uuid req s.deliveries).1.nextClaimAt = some w →
        now ≤ w ∧
        (∀ row ∈ (claimOnce now uuid req s.deliveries).2, row.dateStr = req.dateStr →
          row.groupId ∈ req.groups → row.status = .pending →
            max row.cutoffAt (row.nextAttemptAt.getD row.cutoffAt) = w →
              now < w ∧ row.key ∉ (claimOnce now uuid req s.deliveries).1.items.map (·.key) ∧
                ∃ item ∈ (claimOnce w uuid' req' (claimOnce now uuid req s.deliveries).2).1.items,
                  item.key = row.key) ∧
        (¬ LeaseEnds req (claimOnce now uuid req s.deliveries).1.items
            (claimOnce now uuid req s.deliveries).2 w →
          now < w ∧
            ∃ item ∈ (claimOnce w uuid' req' (claimOnce now uuid req s.deliveries).2).1.items,
              item.key ∉ (claimOnce now uuid req s.deliveries).1.items.map (·.key)) := by
  obtain ⟨made, hmade⟩ := claimOnce_made (sound_run hrun).unique now uuid req
  refine ⟨fun later hlater item hitem =>
    announced_before hrun huuid hmade hdate hcandidates hlater uuid' hitem, ?_⟩
  intro w hw
  obtain ⟨x, hx, hmoment⟩ := hmade.next_source hw
  obtain ⟨_, n, hclaim⟩ := hmade.alone x hx
  obtain ⟨hnone, hle, hcause⟩ := hclaim.moment
    (fun given hgiven => List.mem_map.mpr ⟨given, hmade.item_mem hx hgiven, rfl⟩) hmoment
  have hdue := fun (row : DailyReportDelivery)
      (hrow : row ∈ (claimOnce now uuid req s.deliveries).2) hrowDate hgroup hpending hwhen =>
    announced_due hrun hmade hdate hcandidates uuid' hw hrow hrowDate hgroup hpending hwhen
  refine ⟨hle, hdue, fun hlease => ?_⟩
  obtain ⟨g, hg, hread⟩ := hmade.read_key hx
  have hkey : x.left.key = (req.dateStr, g) := (hmade.left_key hx).trans hread
  have hrowDate : x.left.dateStr = req.dateStr := congrArg Prod.fst hkey
  have hgroup : x.left.groupId ∈ req.groups := by
    have hname : x.left.groupId = g := congrArg Prod.snd hkey
    exact hname.symm ▸ hg
  have hnamed : x.left.key ∉ (claimOnce now uuid req s.deliveries).1.items.map (·.key) := by
    rw [hmade.left_key hx, hmade.named_iff hx]
    exact not_not.mpr hnone
  rcases hcause with ⟨hpending, hwhen⟩ | ⟨hclaimed, hends⟩
  · obtain ⟨hnow, -, item, hitem, hsame⟩ :=
      hdue x.left (hmade.stored x hx) hrowDate hgroup hpending hwhen
    exact ⟨hnow, item, hitem, hsame.symm ▸ hnamed⟩
  · exact absurd ⟨x.left, hmade.stored x hx, hrowDate, hgroup, hnamed, hclaimed, hends⟩ hlease

/-- A claim a minute after the lease, of the leased group and of one that is due later. -/
def secondClaim (instanceId : String) : DailyReportClaimRequest where
  dateStr := 739000
  cutoffAt := noon + minutes 2
  instanceId
  candidates := [{ groupId := "7", deliveryBotId := "bot" }, { groupId := "8", deliveryBotId := "bot" }]

/-- What a second worker is answered, and the rows then. -/
def secondAnswer : DailyReportClaimResponse × List DailyReportDelivery :=
  claimOnce (noon + minutes 1) (fun _ => "second") (secondClaim "j")
    (reportState claimedScript).deliveries

theorem announced_next_waiting :
    (claimOnce (noon + minutes 2 - 1) (fun _ => "third") (secondClaim "k") secondAnswer.2).1.items =
        [] ∧
      (∃ item ∈ (claimOnce (noon + minutes 2) (fun _ => "third") (secondClaim "k")
          secondAnswer.2).1.items, item.key = (739000, "8")) ∧
      ∃ item ∈ (claimOnce (noon + minutes 2) (fun _ => "third") (secondClaim "k")
          secondAnswer.2).1.items, item.key ∉ secondAnswer.1.items.map (·.key) := by
  have hrun : Run reports {} (reportEvents claimedScript) (reportState claimedScript) :=
    reportScript_run (by decide +kernel)
  obtain ⟨hbefore, hat⟩ := announced_next (noon + minutes 1) (fun _ => "second") (fun _ => "third")
    (secondClaim "j") (secondClaim "k") hrun (fun _ => by decide +kernel) rfl rfl
  have hanswer : secondAnswer.1.nextClaimAt = some (noon + minutes 2) := by decide +kernel
  have hnobody : secondAnswer.1.items = [] := by decide +kernel
  have hholder : ∀ row ∈ secondAnswer.2, row.status = .claimed → row.instanceId ≠ "k" := by
    decide +kernel
  have hwaiting : ∃ row ∈ secondAnswer.2, row.dateStr = 739000 ∧ row.groupId = "8" ∧
      row.groupId ∈ (secondClaim "j").groups ∧ row.status = .pending ∧
        max row.cutoffAt (row.nextAttemptAt.getD row.cutoffAt) = noon + minutes 2 := by
    decide +kernel
  obtain ⟨row, hrow, hdate, hname, hgroup, hpending, hmoment⟩ := hwaiting
  obtain ⟨-, hdue, hnew⟩ := hat _ hanswer
  -- the lease of the first worker is from noon, and runs out at five past
  have hleases : ∀ row ∈ secondAnswer.2,
      row.claimedAt ≠ some (noon + minutes 2 - dailyReportClaimTimeout) := by decide +kernel
  have hlease : ¬ LeaseEnds (secondClaim "j") secondAnswer.1.items secondAnswer.2
      (noon + minutes 2) := by
    rintro ⟨row, hrow, -, -, -, -, since, hsince, hends⟩
    exact hleases row hrow (hsince.trans (congrArg some (eq_sub_of_add_eq hends)))
  refine ⟨List.eq_nil_iff_forall_not_mem.mpr fun item hitem => ?_, ?_, (hnew hlease).2⟩
  · have hearly : ∀ w, secondAnswer.1.nextClaimAt = some w → noon + minutes 2 - 1 < w := by
      rw [hanswer]
      decide +kernel
    rcases hbefore _ hearly item hitem with hnamed | ⟨row, hrow, howner, -⟩
    · have hnot : item.key ∉ secondAnswer.1.items.map (·.key) := by
        rw [hnobody]
        exact List.not_mem_nil
      exact hnot hnamed
    · obtain ⟨hclaimed, -, -, hinstance, -⟩ := of_decide_eq_true howner
      exact hholder row hrow hclaimed (hinstance.trans (by decide +kernel))
  · obtain ⟨-, -, item, hitem, hkey⟩ := hdue row hrow hdate hgroup hpending hmoment
    refine ⟨item, hitem, hkey.trans ?_⟩
    show (row.dateStr, row.groupId) = _
    rw [hdate, hname]

/-- A worker that polls before the announced moment is given back the lease it holds. -/
theorem holder_given_again :
    ∃ events s, Run reports {} events s ∧ "second" ∉ s.issued ∧
      ∃ w, (claimOnce (noon + minutes 1) (fun _ => "second") (secondClaim "j")
          s.deliveries).1.nextClaimAt = some w ∧ noon + minutes 1 < w ∧
        ∃ item ∈ (claimOnce (noon + minutes 1) (fun _ => "third") (secondClaim "i")
            (claimOnce (noon + minutes 1) (fun _ => "second") (secondClaim "j") s.deliveries).2).1.items,
          item.key ∉ (claimOnce (noon + minutes 1) (fun _ => "second") (secondClaim "j")
            s.deliveries).1.items.map (·.key) := by
  refine ⟨reportEvents claimedScript, reportState claimedScript,
    reportScript_run (by decide +kernel), by decide +kernel, noon + minutes 2, ?_⟩
  decide +kernel

end RollPig
