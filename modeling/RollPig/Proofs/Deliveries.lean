/-
The writes of a daily-report delivery.

Every UPDATE names a row and what it expects to find there, so it meets the one row or
none (`DeliveryWrite`), and what it makes of that row is a step of `Dispatch`, however
stale the row was that the request had read.  `ClaimOutcome` and `TransitionOutcome` say
once what the second half of a request can come to.
-/
import RollPig.Dispatch
import RollPig.Routers.DailyReports

namespace RollPig

open Dispatch

variable {now : Time} {instanceId botId token reason : String} {k : Date × String}
  {row row' stored : DailyReportDelivery} {table table' : List DailyReportDelivery}
  {req : DailyReportTransitionRequest} {a : Act (Option String)}

/-! ### The job behind a row -/

def DailyReportDelivery.stage (row : DailyReportDelivery) : Stage (Option String) :=
  match row.status with
  | .pending => .waiting
  | .claimed => .leased row.claimToken
  | .sending => .sending row.claimToken
  | .sent => .over .sent row.claimToken
  | .uncertain => .over .uncertain row.claimToken
  | .skipped => .over .skipped row.claimToken
  | .failed => .failed

def DailyReportDelivery.job (row : DailyReportDelivery) : Job (Option String) :=
  ⟨row.stage, row.attemptCount⟩

/-- What an accepted action does to the job leased under a token. -/
def DeliveryAction.act (token : Option String) : DeliveryAction → Act (Option String)
  | .sending => .send token
  | .sent => .close .sent token
  | .release => .giveBack token
  | .retry => .refuse token
  | .uncertain => .close .uncertain token
  | .skip => .close .skipped token

def DailyReportTransitionRequest.act (req : DailyReportTransitionRequest) : Act (Option String) :=
  req.action.act (some req.claimToken)

/-! ### What an UPDATE makes of a row -/

inductive DeliveryStep (row : DailyReportDelivery) :
    Act (Option String) → DailyReportDelivery → Prop
  | fail (lastError : String) (hfree : row.status = .pending ∨ row.status = .claimed) :
      DeliveryStep row .quiet (row.fail lastError)
  | lease (now : Time) (instanceId botId token : String)
      (hfree : row.status = .pending ∨ row.status = .claimed)
      (hbudget : row.attemptCount < dailyReportMaxAttempts) :
      DeliveryStep row (.lease (some token))
        (row.lease now instanceId botId token (row.attemptCount + 1))
  | transition (now : Time) (req : DailyReportTransitionRequest)
      (htoken : row.claimToken = some req.claimToken)
      (hallowed : row.status ∈ (transitionPlan now req row).allowedStatuses) :
      DeliveryStep row req.act ((transitionPlan now req row).values row)

theorem stage_free (h : row.status = .pending ∨ row.status = .claimed) : row.stage.Free := by
  unfold DailyReportDelivery.stage
  rcases h with hstatus | hstatus
  · rw [hstatus]
    exact .waiting
  · rw [hstatus]
    exact .leased _

/-- Giving a row back makes it wait or fail. -/
theorem retryAt_cases (now : Time) (row : DailyReportDelivery) :
    retryAt now row = (.failed, none) ∨
      ∃ next, retryAt now row = (.pending, some next) ∧ next < retryDeadline row.dateStr := by
  unfold retryAt
  cases dailyReportRetryDelays[row.attemptCount - 1]? with
  | none => exact Or.inl rfl
  | some delay =>
      by_cases hlate : retryDeadline row.dateStr ≤ now + delay
      · exact Or.inl (if_pos hlate)
      · exact Or.inr ⟨now + delay, if_neg hlate, Int.not_le.mp hlate⟩

/-- What `release` and `retry` leave of a row. -/
theorem returnPlan_values (allowed : List DeliveryStatus) (now : Time)
    (req : DailyReportTransitionRequest) (row stored : DailyReportDelivery) :
    ∃ status nextAttemptAt, retryAt now row = (status, nextAttemptAt) ∧
      (returnPlan allowed now req row).allowedStatuses = allowed ∧
      (returnPlan allowed now req row).values stored =
        { stored with
          lastError := clip 512 req.error
          status
          nextAttemptAt
          claimToken := none
          claimedAt := none
          instanceId := ""
          deliveryBotId := "" } :=
  ⟨_, _, rfl, rfl, rfl⟩

theorem values_key : ((transitionPlan now req row).values stored).key = stored.key := by
  unfold transitionPlan
  cases req.action <;> rfl

theorem DeliveryStep.key (h : DeliveryStep row a row') : row'.key = row.key := by
  cases h with
  | fail | lease => rfl
  | transition => exact values_key

/-- An action that gives a row back. -/
theorem returned_of_retryAt {status : DeliveryStatus} {nextAttemptAt : Option Time}
    (h : retryAt now row = (status, nextAttemptAt)) {row' : DailyReportDelivery}
    (hstatus : row'.status = status) : row'.stage.Returned := by
  unfold DailyReportDelivery.stage
  rcases retryAt_cases now row with hfail | ⟨next, hwait, -⟩
  · obtain ⟨rfl, -⟩ := Prod.mk.inj (h.symm.trans hfail)
    rw [hstatus]
    exact .failed
  · obtain ⟨rfl, -⟩ := Prod.mk.inj (h.symm.trans hwait)
    rw [hstatus]
    exact .waiting

theorem DeliveryStep.job (h : DeliveryStep row a row') :
    Step dailyReportMaxAttempts row.job a row'.job := by
  cases h with
  | fail lastError hfree => exact .expire (stage_free hfree)
  | lease now instanceId botId token hfree hbudget => exact .lease (stage_free hfree) hbudget _
  | transition now req htoken hallowed =>
      unfold DailyReportDelivery.job DailyReportTransitionRequest.act DeliveryAction.act
      unfold transitionPlan at hallowed ⊢
      cases haction : req.action with
      | sending =>
          rw [haction] at hallowed
          rcases List.mem_pair.mp hallowed with hstatus | hstatus
          · simpa [DailyReportDelivery.stage, settleStatus, hstatus, htoken] using Step.send
          · simpa [DailyReportDelivery.stage, settleStatus, hstatus, htoken] using Step.sendAgain
      | sent =>
          rw [haction] at hallowed
          rcases List.mem_pair.mp hallowed with hstatus | hstatus
          · have hverdict : Verdict.sent ≠ .skipped := by decide
            simpa [DailyReportDelivery.stage, settleStatus, hstatus, htoken] using Step.close hverdict
          · simpa [DailyReportDelivery.stage, settleStatus, hstatus, htoken] using Step.closeAgain
      | uncertain =>
          rw [haction] at hallowed
          rcases List.mem_pair.mp hallowed with hstatus | hstatus
          · have hverdict : Verdict.uncertain ≠ .skipped := by decide
            simpa [DailyReportDelivery.stage, settleStatus, hstatus, htoken] using Step.close hverdict
          · simpa [DailyReportDelivery.stage, settleStatus, hstatus, htoken] using Step.closeAgain
      | skip =>
          rw [haction] at hallowed
          rcases List.mem_pair.mp hallowed with hstatus | hstatus
          · simpa [DailyReportDelivery.stage, settleStatus, hstatus, htoken] using Step.skip
          · simpa [DailyReportDelivery.stage, settleStatus, hstatus, htoken] using Step.closeAgain
      | release =>
          rw [haction] at hallowed
          obtain ⟨status, next, hretry, -, hvalues⟩ :=
            returnPlan_values [.claimed] now req row row
          have hstage : row.stage = .leased (some req.claimToken) := by
            have hstatus : row.status = .claimed := by simpa [returnPlan] using hallowed
            simp [DailyReportDelivery.stage, hstatus, htoken]
          rw [hstage]
          exact .giveBack (returned_of_retryAt hretry (congrArg (·.status) hvalues))
      | retry =>
          rw [haction] at hallowed
          obtain ⟨status, next, hretry, -, hvalues⟩ :=
            returnPlan_values [.sending] now req row row
          have hstage : row.stage = .sending (some req.claimToken) := by
            have hstatus : row.status = .sending := by simpa [returnPlan] using hallowed
            simp [DailyReportDelivery.stage, hstatus, htoken]
          rw [hstage]
          exact .refuse (returned_of_retryAt hretry (congrArg (·.status) hvalues))

/-- A token is carried on, dropped, or the one of a new lease. -/
theorem DeliveryStep.claimToken (h : DeliveryStep row a row') :
    row'.claimToken = row.claimToken ∨ row'.claimToken = none ∨
      ∃ token, a = .lease (some token) ∧ row'.claimToken = some token := by
  cases h with
  | fail => exact Or.inr (Or.inl rfl)
  | lease now instanceId botId token => exact Or.inr (Or.inr ⟨token, rfl, rfl⟩)
  | transition now req =>
      unfold transitionPlan
      cases req.action with
      | release | retry => exact Or.inr (Or.inl rfl)
      | _ => exact Or.inl rfl

/-! ### What an UPDATE makes of the table -/

/-- One row, the one under the key, takes a step, or nothing happens. -/
inductive DeliveryWrite (table : List DailyReportDelivery) (k : Date × String) :
    Act (Option String) → List DailyReportDelivery → Prop
  | nothing : DeliveryWrite table k .quiet table
  | one {row row' : DailyReportDelivery} {a : Act (Option String)} (hrow : row ∈ table)
      (hkey : row.key = k) (hstep : DeliveryStep row a row') :
      DeliveryWrite table k a (Tables.writeBack DailyReportDelivery.key [row'] table)

/-- A guarded UPDATE whose guard names the key, and which makes steps of rows. -/
theorem updateWhere_write (h : Tables.Unique DailyReportDelivery.key table)
    {g : DailyReportDelivery → Bool} {f : DailyReportDelivery → DailyReportDelivery}
    (hkey : ∀ r, g r → r.key = k) (hf : ∀ r, (f r).key = r.key)
    (hstep : ∀ r, g r → DeliveryStep r a (f r)) :
    (Tables.rowcount g table = 1 ∧
        DeliveryWrite table k a (Tables.updateWhere g f table) ∧
        ∃ stored, g stored ∧
          Tables.lookup DailyReportDelivery.key (Tables.updateWhere g f table) k =
            some (f stored)) ∨
      (Tables.rowcount g table = 0 ∧ Tables.updateWhere g f table = table) := by
  rcases h.updateWhere hf hkey with ⟨hcount, stored, hstored, hsame, hguard, htable⟩ | hnone
  · refine Or.inl ⟨hcount, ?_, stored, hguard, ?_⟩
    · rw [htable]
      exact .one hstored hsame (hstep stored hguard)
    · have hmem : (f stored).key ∈ table.map DailyReportDelivery.key :=
        (hf stored).symm ▸ List.mem_map_of_mem hstored
      rw [htable, Tables.lookup_writeBack hmem, if_pos ((hf stored).trans hsame).symm]
  · exact Or.inr hnone

theorem failDeliveryIfUnchanged_write (h : Tables.Unique DailyReportDelivery.key table)
    (row : DailyReportDelivery) (reason : String) :
    DeliveryWrite table row.key .quiet (failDeliveryIfUnchanged row reason table).2 := by
  unfold failDeliveryIfUnchanged
  by_cases hskip : row.status ≠ .pending ∧ row.status ≠ .claimed
  · rw [if_pos hskip]
    exact .nothing
  · have hfree : row.status = .pending ∨ row.status = .claimed := by
      by_contra hnot
      exact hskip (not_or.mp hnot)
    rw [if_neg hskip]
    have hwrite := updateWhere_write (k := row.key) (a := .quiet) (g := sameLease row)
      (f := DailyReportDelivery.fail (if row.lastError ≠ "" then row.lastError else reason)) h
      (fun r hr => (of_decide_eq_true hr).1) (fun _ => rfl) fun r hr =>
        .fail _ ((of_decide_eq_true hr).2.1 ▸ hfree)
    rcases hwrite with ⟨-, hwrite, -⟩ | ⟨-, hsame⟩
    · exact hwrite
    · rw [hsame]
      exact .nothing

theorem free_of_open (h : pendingDue now row ∨ staleClaim now row) :
    row.status = .pending ∨ row.status = .claimed :=
  h.imp (fun hdue => (of_decide_eq_true hdue).1) (fun hstale => (of_decide_eq_true hstale).1)

/-- What a claim of one row comes to. -/
inductive ClaimOutcome (now : Time) (instanceId botId token : String) (row : DailyReportDelivery)
    (table : List DailyReportDelivery) (claim : DeliveryClaim) : Prop
  | quiet (hitem : claim.item = none) (hwrite : DeliveryWrite table row.key .quiet claim.table)
  | found (howner : sameOwnerClaim now instanceId botId row) (hitem : claim.item = some (claimItem row))
      (htable : claim.table = table)
  | leased {item : DailyReportClaimItem} (hnow : now < retryDeadline row.dateStr)
      (hitem : claim.item = some item) (hkey : (item.dateStr, item.groupId) = row.key)
      (htoken : item.claimToken = token)
      (hwrite : DeliveryWrite table row.key (.lease (some token)) claim.table)

theorem claimItem_token {row : DailyReportDelivery} (howner : sameOwnerClaim now instanceId botId row) :
    row.claimToken = some (claimItem row).claimToken := by
  obtain ⟨-, htoken, -⟩ := of_decide_eq_true howner
  obtain ⟨token, htoken⟩ := Option.ne_none_iff_exists'.mp htoken
  rw [htoken]
  unfold claimItem
  rw [htoken]
  rfl

theorem leaseDelivery_outcome (h : Tables.Unique DailyReportDelivery.key table)
    (hnow : now < retryDeadline row.dateStr) (hbudget : row.attemptCount < dailyReportMaxAttempts) :
    ClaimOutcome now instanceId botId token row table
      (leaseDelivery now instanceId botId token row table) := by
  have hwrite := updateWhere_write (k := row.key) (a := .lease (some token)) h
    (g := claimGuard now row)
    (f := DailyReportDelivery.lease now instanceId botId token (row.attemptCount + 1))
    (fun r hr => (of_decide_eq_true hr).1) (fun _ => rfl) fun r hr => by
      obtain ⟨-, hattempts, hopen⟩ := of_decide_eq_true hr
      rw [← hattempts]
      exact .lease now instanceId botId token (free_of_open hopen) (hattempts ▸ hbudget)
  unfold leaseDelivery
  rcases hwrite with ⟨hcount, hwrite, stored, hguard, hlookup⟩ | ⟨hcount, hsame⟩
  · obtain ⟨hkey, -, -⟩ := of_decide_eq_true hguard
    have hrefresh : refresh
        (Tables.updateWhere (claimGuard now row)
          (DailyReportDelivery.lease now instanceId botId token (row.attemptCount + 1)) table) row =
        stored.lease now instanceId botId token (row.attemptCount + 1) := by
      unfold refresh
      rw [hlookup]
      rfl
    refine .leased hnow (if_pos hcount) ?_ ?_ hwrite
    · rw [hrefresh]
      exact hkey
    · rw [hrefresh]
      rfl
  · refine .quiet (if_neg (by rw [hcount]; decide)) ?_
    rw [hsame]
    exact .nothing

theorem claimDelivery_outcome (h : Tables.Unique DailyReportDelivery.key table)
    (now : Time) (instanceId botId token : String) (row : DailyReportDelivery) :
    ClaimOutcome now instanceId botId token row table
      (claimDelivery now instanceId botId token row table) := by
  have hfailed : ∀ reason, ClaimOutcome now instanceId botId token row table
      (failDelivery row reason table) := fun reason =>
    .quiet rfl (failDeliveryIfUnchanged_write h row reason)
  unfold claimDelivery
  by_cases hlate : retryDeadline row.dateStr ≤ now ∧
      (row.status = .pending ∨ row.status = .claimed)
  · rw [if_pos hlate]
    exact hfailed _
  · rw [if_neg hlate]
    by_cases howner : sameOwnerClaim now instanceId botId row
    · rw [if_pos howner]
      exact .found howner rfl rfl
    · rw [if_neg howner]
      by_cases hclosed : ¬ pendingDue now row ∧ ¬ staleClaim now row
      · rw [if_pos hclosed]
        exact .quiet rfl .nothing
      · rw [if_neg hclosed]
        have hopen : pendingDue now row ∨ staleClaim now row := by
          by_contra hnot
          exact hclosed (not_or.mp hnot)
        by_cases hspent : dailyReportMaxAttempts ≤ row.attemptCount
        · rw [if_pos hspent]
          exact hfailed _
        · rw [if_neg hspent]
          refine leaseDelivery_outcome h ?_ (Nat.not_le.mp hspent)
          by_contra hnow
          exact hlate ⟨Int.not_lt.mp hnow, free_of_open hopen⟩

/-- What a transition comes to. -/
inductive TransitionOutcome (now : Time) (req : DailyReportTransitionRequest)
    (row : DailyReportDelivery) (table : List DailyReportDelivery)
    (result : DailyReportTransitionResponse × List DailyReportDelivery) : Prop
  | refused (hok : result.1.ok = false) (hwrite : DeliveryWrite table row.key .quiet result.2)
  | accepted (hok : result.1.ok = true) (hwrite : DeliveryWrite table row.key req.act result.2)
      (hallowed : row.status ∈ (transitionPlan now req row).allowedStatuses)
      (hnow : req.action = .sending → row.status = .claimed → now < retryDeadline row.dateStr)

/-- The plan looks at the date and the attempts of the row only. -/
theorem transitionPlan_congr {row row' : DailyReportDelivery} (hdate : row'.dateStr = row.dateStr)
    (hattempts : row'.attemptCount = row.attemptCount) :
    transitionPlan now req row' = transitionPlan now req row := by
  unfold transitionPlan returnPlan retryAt
  rw [hdate, hattempts]

theorem transitionWrite_outcome (h : Tables.Unique DailyReportDelivery.key table)
    (now : Time) (req : DailyReportTransitionRequest) (row : DailyReportDelivery) :
    TransitionOutcome now req row table (transitionWrite now req row table) := by
  unfold transitionWrite
  by_cases hlate : req.action = .sending ∧ row.status = .claimed ∧ retryDeadline row.dateStr ≤ now
  · rw [if_pos hlate]
    exact .refused rfl (failDeliveryIfUnchanged_write h row _)
  · rw [if_neg hlate]
    dsimp only
    by_cases hallowed : row.status ∈ (transitionPlan now req row).allowedStatuses
    · rw [if_neg (not_not.mpr hallowed)]
      have hwrite := updateWhere_write (k := row.key) (a := req.act)
        (g := planGuard (transitionPlan now req row) req row)
        (f := (transitionPlan now req row).values) h
        (fun r hr => (of_decide_eq_true hr).1) (fun _ => values_key) fun r hr => by
          obtain ⟨hkey, htoken, hstatus, hattempts⟩ := of_decide_eq_true hr
          have hdate : r.dateStr = row.dateStr := congrArg Prod.fst hkey
          have hplan : transitionPlan now req r = transitionPlan now req row :=
            transitionPlan_congr hdate hattempts
          rw [← hplan] at hstatus ⊢
          exact .transition now req htoken hstatus
      unfold applyPlan
      rcases hwrite with ⟨hcount, hwrite, -⟩ | ⟨hcount, -⟩
      · rw [if_pos hcount]
        refine .accepted rfl hwrite hallowed fun hsending hclaimed => ?_
        by_contra hnow
        exact hlate ⟨hsending, hclaimed, Int.not_lt.mp hnow⟩
      · rw [if_neg (by rw [hcount]; decide)]
        cases Tables.lookup DailyReportDelivery.key table (req.dateStr, req.groupId) with
        | none => exact .refused rfl .nothing
        | some current => exact .refused rfl .nothing
    · rw [if_pos hallowed]
      exact .refused rfl .nothing

/-! ### Opening rows -/

theorem groups_nodup (req : DailyReportClaimRequest) : req.groups.Nodup :=
  ((List.perm_insertionSort _ _).nodup_iff).mpr (List.nodup_dedup _)

theorem openDeliveries_unique (h : Tables.Unique DailyReportDelivery.key table)
    (req : DailyReportClaimRequest) :
    Tables.Unique DailyReportDelivery.key (openDeliveries req table) := by
  unfold Tables.Unique openDeliveries
  rw [List.map_append, List.nodup_append, List.map_map]
  refine ⟨h, ((groups_nodup req).filter _).map fun g g' hsame => congrArg Prod.snd hsame, ?_⟩
  rintro k hold k' hnew rfl
  obtain ⟨g, hg, rfl⟩ := List.mem_map.mp hnew
  exact (of_decide_eq_true (List.mem_filter.mp hg).2) hold

theorem DeliveryWrite.unique (h : Tables.Unique DailyReportDelivery.key table)
    (hwrite : DeliveryWrite table k a table') : Tables.Unique DailyReportDelivery.key table' := by
  cases hwrite with
  | nothing => exact h
  | one => exact h.writeBack

end RollPig
