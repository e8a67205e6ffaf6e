/-
When a vote for a refill succeeds, and what it does.

The voters that count are a set: the active ones that are not excluded, whatever the list they
came in, and the managers among them count once more.  A vote that somebody completes in time
succeeds exactly when two of them agree and the votes reach the threshold, which was frozen when
the vote was opened and never asks for more votes than there were users counted then.  Nobody is
taken off the active users, so those who were counted can always make it pass.
-/
import RollPig.Cloud
import RollPig.Proofs.Activity
import RollPig.Proofs.Charges
import RollPig.Proofs.Refills
import Mathlib.Data.Finset.Card

namespace RollPig

open Transition

variable {e : Env} {s s' : RefillStore} {row : GroupRoastRefillRequest}
  {req req' : GroupRoastRefillCompleteRequest} {db : Db} {date : Date} {groupId userId : String}

/-! ### The threshold -/

theorem proportional_le (activeCount : Nat) {ratio : Nat} (h : ratio ≤ 100) :
    (activeCount * ratio + 99) / 100 ≤ activeCount := by
  have hle : activeCount * ratio ≤ activeCount * 100 := Nat.mul_le_mul_left activeCount h
  omega

/-- No threshold asks for more votes than there are users. -/
theorem refillThreshold_le {activeCount : Nat} (h : 2 ≤ activeCount) (successCount : Nat) :
    (refillThreshold activeCount successCount).2 ≤ activeCount := by
  have hratio : ∀ i, (roastRefillThresholdSteps.getD i (0, 0)).1 ≤ 100 := by
    intro i
    match i with
    | 0 | 1 | 2 | 3 => decide
    | n + 4 => exact Nat.zero_le _
  have hle := proportional_le activeCount
    (hratio (min successCount (roastRefillThresholdSteps.length - 1)))
  unfold refillThreshold
  dsimp only
  omega

theorem legacyRefillThreshold_le {activeCount : Nat} (h : 2 ≤ activeCount) (successCount : Nat) :
    (legacyRefillThreshold activeCount successCount).2 ≤ activeCount := by
  have hratio : ∀ i, legacyRoastRefillRatios.getD i 0 ≤ 100 := by
    intro i
    match i with
    | 0 | 1 | 2 | 3 | 4 => decide
    | n + 5 => exact Nat.zero_le _
  have hle := proportional_le activeCount
    (hratio (min successCount (legacyRoastRefillRatios.length - 1)))
  unfold legacyRefillThreshold
  dsimp only
  omega

theorem threshold_le {activeCount : Nat} (h : 2 ≤ activeCount) (successCount : Nat) (policy : String) :
    ((if policy = roastRefillThresholdPolicy then refillThreshold else legacyRefillThreshold)
      activeCount successCount).2 ≤ activeCount := by
  by_cases hcapped : policy = roastRefillThresholdPolicy
  · rw [if_pos hcapped]
    exact refillThreshold_le h successCount
  · rw [if_neg hcapped]
    exact legacyRefillThreshold_le h successCount

/-! ### The voters as sets -/

/-- The active users of a group on a date. -/
def Db.activeIds (db : Db) (date : Date) (groupId : String) : Finset String :=
  ((db.activeUsers.filter fun row => row.dateStr = date ∧ row.groupId = groupId).map
    (·.userId)).toFinset

/-- The voters that count, of a group with these active users. -/
def GroupRoastRefillCompleteRequest.voters (req : GroupRoastRefillCompleteRequest)
    (active : Finset String) : Finset String :=
  (req.voterIds.toFinset.erase "" ∩ active) \ req.excludedUserIds.toFinset

/-- The managers among them, under the policy that counts them twice. -/
def GroupRoastRefillCompleteRequest.managers (req : GroupRoastRefillCompleteRequest)
    (active : Finset String) : Finset String :=
  if req.voteWeightPolicy = roastRefillVoteWeightPolicy then
    req.voters active ∩ req.managerVoterIds.toFinset
  else ∅

/-- The users who benefit from a success. -/
def GroupRoastRefillCompleteRequest.benefited (req : GroupRoastRefillCompleteRequest)
    (active : Finset String) : Finset String :=
  active \ req.excludedUserIds.toFinset

theorem mem_activeIds : userId ∈ db.activeIds date groupId ↔
    ∃ row ∈ db.activeUsers, row.dateStr = date ∧ row.groupId = groupId ∧ row.userId = userId := by
  unfold Db.activeIds
  simp [and_assoc]

theorem mem_getGroupActiveUserIds :
    userId ∈ getGroupActiveUserIds db date groupId ↔ userId ∈ db.activeIds date groupId := by
  unfold getGroupActiveUserIds Db.activeIds
  rw [List.mem_insertionSort, List.mem_toFinset]
  simp

theorem mem_validVoters : userId ∈ validVoters (getGroupActiveUserIds db date groupId) req ↔
    userId ∈ req.voters (db.activeIds date groupId) := by
  unfold validVoters GroupRoastRefillCompleteRequest.voters
  rw [mem_normalizedIds, List.mem_filter, Finset.mem_sdiff, Finset.mem_inter, Finset.mem_erase,
    List.mem_toFinset, List.mem_toFinset, decide_eq_true_eq, mem_getGroupActiveUserIds]
  tauto

theorem validVoters_nodup (active : List String) : (validVoters active req).Nodup :=
  normalizedIds_nodup _

theorem validVoters_length : (validVoters (getGroupActiveUserIds db date groupId) req).length =
    (req.voters (db.activeIds date groupId)).card := by
  have hset : (validVoters (getGroupActiveUserIds db date groupId) req).toFinset =
      req.voters (db.activeIds date groupId) := by
    ext userId
    rw [List.mem_toFinset, mem_validVoters]
  rw [← hset, List.toFinset_card_of_nodup (validVoters_nodup _)]

theorem effectiveVotes_eq :
    effectiveVotes (validVoters (getGroupActiveUserIds db date groupId) req) req =
      (req.voters (db.activeIds date groupId)).card +
        (req.managers (db.activeIds date groupId)).card := by
  unfold effectiveVotes GroupRoastRefillCompleteRequest.managers
  rw [validVoters_length]
  by_cases hpolicy : req.voteWeightPolicy = roastRefillVoteWeightPolicy
  · rw [if_pos hpolicy, if_pos hpolicy]
    have hset : ((validVoters (getGroupActiveUserIds db date groupId) req).filter
        fun userId => userId ∈ req.managerVoterIds).toFinset =
          req.voters (db.activeIds date groupId) ∩ req.managerVoterIds.toFinset := by
      ext userId
      rw [List.mem_toFinset, List.mem_filter, mem_validVoters, Finset.mem_inter, List.mem_toFinset,
        decide_eq_true_eq]
    rw [← hset, List.toFinset_card_of_nodup ((validVoters_nodup _).filter _)]
  · rw [if_neg hpolicy, if_neg hpolicy, Finset.card_empty]

theorem sortedSet_nodup (ids : List String) : (sortedSet ids).Nodup :=
  ((List.perm_insertionSort _ _).nodup_iff).mpr (List.nodup_dedup _)

/-- Active users have names, so excluding a blank excludes nobody. -/
theorem mem_benefitedUsers (h : db.ActiveOnce) :
    userId ∈ benefitedUsers (getGroupActiveUserIds db date groupId) req ↔
      userId ∈ req.benefited (db.activeIds date groupId) := by
  unfold benefitedUsers sortedSet GroupRoastRefillCompleteRequest.benefited
  rw [List.mem_insertionSort, List.mem_dedup, List.mem_filter, Finset.mem_sdiff,
    List.mem_toFinset, mem_getGroupActiveUserIds, decide_eq_true_eq, List.mem_filter]
  refine and_congr_right fun hactive => not_congr (and_iff_left_of_imp fun _ => ?_)
  obtain ⟨row, hrow, -, -, rfl⟩ := mem_activeIds.mp hactive
  exact decide_eq_true (h.named row hrow)

/-! ### The charges -/

/-- A usage row with its charges filled, a new one if there was none. -/
def filledUsage (usage : Option UserUsage) (userId : String) (chargeMax nowEpoch : Int) : UserUsage :=
  { usage.getD { userId } with
    roastCharges := some chargeMax, roastChargeUpdatedTs := some nowEpoch }

/-- The step of the loop, which fills the charges of one user. -/
def fillCharges (chargeMax nowEpoch : Int) (db : Db) (userId : String) : Db :=
  resetRoastCharges [userId] chargeMax nowEpoch db

theorem fillCharges_usage (chargeMax nowEpoch : Int) (db : Db) (userId other : String) :
    (fillCharges chargeMax nowEpoch db userId).usage? other =
      if other = userId then some (filledUsage (db.usage? userId) userId chargeMax nowEpoch)
      else db.usage? other := by
  unfold fillCharges resetRoastCharges
  rw [List.foldl_cons, List.foldl_nil]
  cases husage : db.usage? userId with
  | none =>
      dsimp only
      exact usage?_insert husage other
  | some usage =>
      obtain rfl : usage.userId = userId := (Tables.lookup_some husage).2
      have hold : db.usage? (filledUsage (some usage) usage.userId chargeMax nowEpoch).userId =
          some usage := husage
      exact usage?_flushUsage hold other

theorem fillCharges_onlyUsage (chargeMax nowEpoch : Int) (db : Db) (userId : String) :
    OnlyUsage db (fillCharges chargeMax nowEpoch db userId) := by
  unfold fillCharges resetRoastCharges
  rw [List.foldl_cons, List.foldl_nil]
  cases db.usage? userId with
  | none => rfl
  | some usage => rfl

theorem resetRoastCharges_onlyUsage (userIds : List String) (chargeMax nowEpoch : Int) (db : Db) :
    OnlyUsage db (resetRoastCharges userIds chargeMax nowEpoch db) := by
  induction userIds generalizing db with
  | nil => rfl
  | cons userId rest ih =>
      have hfirst := fillCharges_onlyUsage chargeMax nowEpoch db userId
      have hrest := ih (fillCharges chargeMax nowEpoch db userId)
      show OnlyUsage db (resetRoastCharges rest chargeMax nowEpoch
        (fillCharges chargeMax nowEpoch db userId))
      unfold OnlyUsage at hfirst hrest ⊢
      rw [hrest, hfirst]

/-- **The charges of these users are filled, and nothing else happens.** -/
theorem resetRoastCharges_usage {userIds : List String} (h : userIds.Nodup)
    (chargeMax nowEpoch : Int) (db : Db) :
    OnlyUsage db (resetRoastCharges userIds chargeMax nowEpoch db) ∧
      ∀ userId, (resetRoastCharges userIds chargeMax nowEpoch db).usage? userId =
        if userId ∈ userIds then some (filledUsage (db.usage? userId) userId chargeMax nowEpoch)
        else db.usage? userId := by
  -- the loop writes the row of one user after the other
  have hwrite : ∀ (db' : Db), ∀ userId ∈ userIds, db'.usage? userId = db.usage? userId →
      (∀ other, other ∉ userIds → db'.usage? other = db.usage? other) →
        (fillCharges chargeMax nowEpoch db' userId).usage? userId =
            some (filledUsage (db.usage? userId) userId chargeMax nowEpoch) ∧
          ∀ other, other ≠ userId →
            (fillCharges chargeMax nowEpoch db' userId).usage? other = db'.usage? other := by
    intro db' userId _ hsame _
    have hone := fillCharges_usage chargeMax nowEpoch db' userId
    rw [← hsame]
    exact ⟨(hone userId).trans (if_pos rfl), fun other hne => (hone other).trans (if_neg hne)⟩
  obtain ⟨hvalues, hothers⟩ := Tables.foldl_pointwise (fun db userId => Db.usage? db userId) id
    (fillCharges chargeMax nowEpoch)
    (fun userId => some (filledUsage (db.usage? userId) userId chargeMax nowEpoch)) db userIds
    (by rwa [List.map_id]) (by simpa using hwrite)
  rw [List.map_id] at hothers
  refine ⟨?_, fun userId => ?_⟩
  · exact resetRoastCharges_onlyUsage userIds chargeMax nowEpoch db
  · by_cases hmem : userId ∈ userIds
    · rw [if_pos hmem]
      exact hvalues userId hmem
    · rw [if_neg hmem]
      exact hothers userId hmem

/-! ### Completing -/

/-- What completing a request comes to. -/
inductive CompleteOutcome (e : Env) (req : GroupRoastRefillCompleteRequest) (s : RefillStore)
    (result : GroupRoastRefillCompleteResponse × RefillStore) : Prop
  | refused (hresult : result.1.completed = false) (hstore : result.2 = s)
  | expired (row : GroupRoastRefillRequest) (hfind : s.request? req.requestId = some row)
      (hvoting : row.status = .voting) (hlate : row.expiresAt ≤ utcFromTs e req.nowTs)
      (hresult : result.1.completed = false)
      (hstore : result.2 =
        s.flush { row with status := .expired, failureReason := "expired", activeKey := none })
  | succeeded (row : GroupRoastRefillRequest) (hfind : s.request? req.requestId = some row)
      (hvoting : row.status = .voting) (hbound : row.messageId ≠ "")
      (hmessage : req.messageId = row.messageId) (hearly : utcFromTs e req.nowTs < row.expiresAt)
      (htwo : 2 ≤ (req.voters (s.db.activeIds row.dateStr row.groupId)).card)
      (hvotes : row.requiredVotes ≤ (req.voters (s.db.activeIds row.dateStr row.groupId)).card +
        (req.managers (s.db.activeIds row.dateStr row.groupId)).card)
      (hresult : result.1.completed = true)
      (hstore : result.2 =
        { s with
          db := resetRoastCharges
            (benefitedUsers (getGroupActiveUserIds s.db row.dateStr row.groupId) req)
            (clampChargeSettings (some req.maxCharges) none).1 (refillEpoch e req.nowTs) s.db }.flush
          { row with
            status := .succeeded, activeKey := none, completedAt := some (utcFromTs e req.nowTs),
            benefitedUserIds := some
              (benefitedUsers (getGroupActiveUserIds s.db row.dateStr row.groupId) req) })

theorem completeRefill_cases (e : Env) (req : GroupRoastRefillCompleteRequest) (s : RefillStore) :
    CompleteOutcome e req s (completeRefill e req s) := by
  unfold completeRefill
  dsimp only
  cases hfind : s.request? req.requestId with
  | none => exact .refused rfl rfl
  | some row =>
      dsimp only
      by_cases hvoting : row.status = .voting
      · rw [if_neg (not_not.mpr hvoting)]
        by_cases hmessage : row.messageId = "" ∨ req.messageId = "" ∨ row.messageId ≠ req.messageId
        · rw [if_pos hmessage]
          exact .refused rfl rfl
        · rw [if_neg hmessage]
          rw [not_or, not_or, not_not] at hmessage
          obtain ⟨hbound, -, hsame⟩ := hmessage
          unfold expireIfNeeded
          by_cases hearly : utcFromTs e req.nowTs < row.expiresAt
          · rw [if_pos (Or.inr hearly)]
            dsimp only
            rw [if_neg Bool.false_ne_true, validVoters_length, effectiveVotes_eq]
            split
            · exact .refused rfl rfl
            · rename_i hpass
              rw [not_or, Nat.not_lt, Nat.not_lt] at hpass
              exact .succeeded row hfind hvoting hbound hsame.symm hearly hpass.1 hpass.2 rfl rfl
          · rw [if_neg (not_or.mpr ⟨not_not.mpr hvoting, hearly⟩)]
            exact .expired row hfind hvoting (Int.not_lt.mp hearly) rfl rfl
      · rw [if_pos hvoting]
        exact .refused rfl rfl

/-- The vote is on, under this message, and somebody completes it in time. -/
structure VoteOpen (e : Env) (req : GroupRoastRefillCompleteRequest)
    (row : GroupRoastRefillRequest) : Prop where
  voting : row.status = .voting
  bound : row.messageId ≠ ""
  message : req.messageId = row.messageId
  inTime : utcFromTs e req.nowTs < row.expiresAt

/-- **A vote succeeds when two agree and the threshold is reached, and only then.** -/
theorem completeRefill_iff (hfind : s.request? req.requestId = some row) (hopen : VoteOpen e req row) :
    (completeRefill e req s).1.completed = true ↔
      2 ≤ (req.voters (s.db.activeIds row.dateStr row.groupId)).card ∧
        row.requiredVotes ≤ (req.voters (s.db.activeIds row.dateStr row.groupId)).card +
          (req.managers (s.db.activeIds row.dateStr row.groupId)).card := by
  constructor
  · intro hcompleted
    cases completeRefill_cases e req s with
    | refused hresult => exact absurd (hresult.symm.trans hcompleted) Bool.false_ne_true
    | expired _ _ _ _ hresult => exact absurd (hresult.symm.trans hcompleted) Bool.false_ne_true
    | succeeded row' hfind' _ _ _ _ htwo hvotes =>
        obtain rfl := Option.some.inj (hfind.symm.trans hfind')
        exact ⟨htwo, hvotes⟩
  · rintro ⟨htwo, hvotes⟩
    have hmessage : ¬ (row.messageId = "" ∨ req.messageId = "" ∨ row.messageId ≠ req.messageId) := by
      rw [hopen.message]
      simp [hopen.bound]
    have hpass : ¬ ((req.voters (s.db.activeIds row.dateStr row.groupId)).card <
          roastRefillMinDistinctVoters ∨
        (req.voters (s.db.activeIds row.dateStr row.groupId)).card +
          (req.managers (s.db.activeIds row.dateStr row.groupId)).card < row.requiredVotes) :=
      not_or.mpr ⟨Nat.not_lt.mpr htwo, Nat.not_lt.mpr hvotes⟩
    unfold completeRefill
    dsimp only
    rw [hfind]
    dsimp only
    rw [if_neg (not_not.mpr hopen.voting), if_neg hmessage]
    unfold expireIfNeeded
    rw [if_pos (Or.inr hopen.inTime)]
    dsimp only
    rw [if_neg Bool.false_ne_true, validVoters_length, effectiveVotes_eq, if_neg hpass]

/-- More voters and more managers count for more. -/
theorem voters_mono {active : Finset String} (hvoters : req.voterIds ⊆ req'.voterIds)
    (hexcluded : req'.excludedUserIds = req.excludedUserIds) :
    req.voters active ⊆ req'.voters active := by
  intro userId huser
  unfold GroupRoastRefillCompleteRequest.voters at huser ⊢
  rw [Finset.mem_sdiff, Finset.mem_inter, Finset.mem_erase, List.mem_toFinset] at huser ⊢
  rw [hexcluded]
  exact ⟨⟨⟨huser.1.1.1, hvoters huser.1.1.2⟩, huser.1.2⟩, huser.2⟩

theorem managers_mono {active : Finset String} (hvoters : req.voterIds ⊆ req'.voterIds)
    (hmanagers : req.managerVoterIds ⊆ req'.managerVoterIds)
    (hexcluded : req'.excludedUserIds = req.excludedUserIds)
    (hpolicy : req'.voteWeightPolicy = req.voteWeightPolicy) :
    req.managers active ⊆ req'.managers active := by
  intro userId huser
  unfold GroupRoastRefillCompleteRequest.managers at huser ⊢
  rw [hpolicy]
  by_cases hdouble : req.voteWeightPolicy = roastRefillVoteWeightPolicy
  · rw [if_pos hdouble, Finset.mem_inter, List.mem_toFinset] at huser ⊢
    exact ⟨voters_mono hvoters hexcluded huser.1, hmanagers huser.2⟩
  · rw [if_neg hdouble] at huser
    exact absurd huser (Finset.notMem_empty userId)

/-! ### Opening a vote -/

theorem getGroupActiveUserIds_nodup (h : db.ActiveOnce) (date : Date) (groupId : String) :
    (getGroupActiveUserIds db date groupId).Nodup := by
  unfold getGroupActiveUserIds
  refine ((List.perm_insertionSort _ _).nodup_iff).mpr (h.unique.part ?_)
  intro row row' hrow hrow' hsame
  obtain ⟨hdate, hgroup, -⟩ := of_decide_eq_true hrow
  obtain ⟨hdate', hgroup', -⟩ := of_decide_eq_true hrow'
  unfold GroupDailyActiveUser.key
  rw [hdate, hgroup, hdate', hgroup', hsame]

/-- A vote that was just opened: the users that were counted, each once, and a threshold they
can reach. -/
structure VoteOpened (s : RefillStore) (response : GroupRoastRefillPrepareResponse)
    (row : GroupRoastRefillRequest) : Prop where
  request : response.request = some (refillToSchema row)
  counted : row.activeCountSnapshot = response.activeUserIds.length
  two : 2 ≤ response.activeUserIds.length
  required : row.requiredVotes ≤ response.activeUserIds.length
  once : response.activeUserIds.Nodup
  active : ∀ userId ∈ response.activeUserIds, userId ∈ s.db.activeIds row.dateStr row.groupId

theorem openRefill_opened (h : s.db.ActiveOnce) {now : Time} {policy requestId : String}
    {req : GroupRoastRefillPrepareRequest} {response : GroupRoastRefillPrepareResponse}
    (hopen : openRefill now policy requestId req s = .ok (response, s')) :
    s'.db = s.db ∧
      (response.status = .created → ∃ row ∈ s'.requests, VoteOpened s response row) := by
  unfold openRefill at hopen
  extract_lets active activeUserIds at hopen
  have hactive : activeUserIds.Nodup ∧
      ∀ userId ∈ activeUserIds, userId ∈ s.db.activeIds req.dateStr req.groupId := by
    have honce := getGroupActiveUserIds_nodup h req.dateStr req.groupId
    cases heligible : req.eligibleUserIds with
    | none =>
        have hsame : activeUserIds = active := by simp only [activeUserIds, heligible]
        rw [hsame]
        exact ⟨honce, fun userId huser => mem_getGroupActiveUserIds.mp huser⟩
    | some eligible =>
        have hsame : activeUserIds = sortedSet (active.filter fun userId =>
            userId ≠ "" ∧ userId ∈ eligible) := by simp only [activeUserIds, heligible]
        rw [hsame]
        refine ⟨sortedSet_nodup _, fun userId huser => mem_getGroupActiveUserIds.mp ?_⟩
        unfold sortedSet at huser
        rw [List.mem_insertionSort, List.mem_dedup] at huser
        exact (List.mem_filter.mp huser).1
  clear_value activeUserIds
  dsimp only at hopen
  by_cases hfew : activeUserIds.length < 3
  · rw [if_pos hfew] at hopen
    obtain ⟨rfl, rfl⟩ := Prod.mk.inj (Except.ok.inj hopen)
    exact ⟨rfl, fun hcreated => by cases hcreated⟩
  · rw [if_neg hfew] at hopen
    split at hopen
    · cases hopen
    · obtain ⟨rfl, rfl⟩ := Prod.mk.inj (Except.ok.inj hopen)
      have htwo : 2 ≤ activeUserIds.length := by omega
      refine ⟨rfl, fun _ => ⟨_, List.mem_append_right _ (List.mem_singleton_self _), ?_⟩⟩
      exact ⟨rfl, rfl, htwo, threshold_le htwo _ req.thresholdPolicy, hactive.1, hactive.2⟩

theorem prepareRefill_opened (h : s.db.ActiveOnce) {requestId : String}
    {req : GroupRoastRefillPrepareRequest} {response : GroupRoastRefillPrepareResponse}
    (hprepare : prepareRefill e requestId req s = .ok (response, s')) :
    s'.db = s.db ∧
      (response.status = .created → ∃ row ∈ s'.requests, VoteOpened s response row) := by
  unfold prepareRefill at hprepare
  dsimp only at hprepare
  cases hactive : s.active? (refillActiveKey req.dateStr req.groupId) with
  | none =>
      rw [hactive] at hprepare
      exact openRefill_opened h hprepare
  | some row =>
      rw [hactive] at hprepare
      dsimp only at hprepare
      split at hprepare
      · obtain ⟨rfl, rfl⟩ := Prod.mk.inj (Except.ok.inj hprepare)
        exact ⟨rfl, fun hcreated => by cases hcreated⟩
      · have hflushed : ∀ row, (s.flush row).db.ActiveOnce := fun _ => h
        obtain ⟨hdb, hopened⟩ := openRefill_opened (hflushed _) hprepare
        refine ⟨hdb, fun hcreated => ?_⟩
        obtain ⟨row, hrow, hrequest, hcounted, htwo, hrequired, honce, hactive⟩ := hopened hcreated
        exact ⟨row, hrow, hrequest, hcounted, htwo, hrequired, honce, hactive⟩

theorem prepareAttempts_opened (h : s.db.ActiveOnce) {req : GroupRoastRefillPrepareRequest}
    {response : GroupRoastRefillPrepareResponse} (requestIds : List String)
    (hprepare : RoastRefills.prepareAttempts e req s requestIds = some (response, s')) :
    s'.db = s.db ∧
      (response.status = .created → ∃ row ∈ s'.requests, VoteOpened s response row) := by
  induction requestIds with
  | nil => cases hprepare
  | cons requestId rest ih =>
      unfold RoastRefills.prepareAttempts at hprepare
      cases hresult : prepareRefill e requestId req s with
      | error error =>
          rw [hresult] at hprepare
          exact ih hprepare
      | ok result =>
          rw [hresult] at hprepare
          obtain rfl := Option.some.inj hprepare
          exact prepareRefill_opened h hresult

/-! ### The active users stay -/

/-- A request for a refill changes no table but the usage. -/
theorem RefillRequest.transaction_onlyUsage (h : s.db.ActiveOnce) (request : RefillRequest) :
    OnlyUsage s.db (request.transaction e s).2.db := by
  have hsame : ∀ {db' : Db}, db' = s.db → OnlyUsage s.db db' := fun heq => heq.symm ▸ rfl
  cases request with
  | prepare req =>
      simp only [RefillRequest.transaction]
      cases hprepare : RoastRefills.prepare e req s with
      | none => exact hsame rfl
      | some result => exact hsame (prepareAttempts_opened h _ hprepare).1
  | bind req =>
      refine hsame ?_
      show (bindRefillMessage e req.requestId req.messageId none s).2.db = s.db
      unfold bindRefillMessage
      dsimp only
      split
      · rfl
      · split
        · rfl
        · split
          · rfl
          · split <;> rfl
  | active groupId date nowTs =>
      refine hsame ?_
      show (getActiveRefill e date groupId nowTs s).2.db = s.db
      unfold getActiveRefill
      split
      · rfl
      · dsimp only
        split <;> rfl
  | fail req =>
      refine hsame ?_
      show (failRefill req.requestId req.messageId req.reason s).2.db = s.db
      unfold failRefill
      split
      · rfl
      · split
        · rfl
        · split <;> rfl
  | complete req =>
      show OnlyUsage s.db (completeRefill e req s).2.db
      cases completeRefill_cases e req s with
      | refused _ hstore => exact hsame (by rw [hstore])
      | expired _ _ _ _ _ hstore => exact hsame (by rw [hstore]; rfl)
      | succeeded _ _ _ _ _ _ _ _ _ hstore =>
          rw [hstore]
          exact resetRoastCharges_onlyUsage _ _ _ s.db

variable {c c' : Cloud} {event : CloudEvent} {events : List CloudEvent}

/-- **A step keeps every active user, and counts nobody twice.** -/
theorem cloud_active (hstep : cloud.step c event c') (h : c.world.db.ActiveOnce) :
    c'.world.db.ActiveOnce ∧ ∀ row ∈ c.world.db.activeUsers, row ∈ c'.world.db.activeUsers := by
  cases event with
  | api operation =>
      obtain ⟨hapi, -⟩ := hstep
      cases operation with
      | transaction event =>
          obtain ⟨-, -, -, hafter⟩ := hapi
          rw [hafter]
          exact ⟨Action.transaction_activeOnce h event.action, fun row hrow =>
            (event.action.transaction_extends event.env c.world.db).activeUsers.subset hrow⟩
      | markSeen e req =>
          have hseen : c'.world = c.world.seen e req := hapi
          rw [hseen]
          exact ⟨markSeen_activeOnce h req, fun row hrow =>
            (markSeen_extends e req c.world.db).activeUsers.subset hrow⟩
  | markActive e date groupId userIds =>
      obtain rfl : c' = c.put (RoastRefills.markActiveUsers e date groupId userIds c.store).2 := hstep
      exact ⟨markGroupActiveUsers_activeOnce h date groupId userIds, fun row hrow =>
        (markGroupActiveUsers_extends e date groupId userIds c.world.db).activeUsers.subset hrow⟩
  | refill e request response =>
      obtain ⟨-, rfl⟩ := hstep
      have honly : OnlyUsage c.world.db (request.transaction e c.store).2.db :=
        RefillRequest.transaction_onlyUsage h request
      have hsame : (request.transaction e c.store).2.db.activeUsers = c.world.db.activeUsers :=
        honly.writes .activeUsers (by decide)
      refine ⟨h.same hsame, fun row hrow => ?_⟩
      show row ∈ (request.transaction e c.store).2.db.activeUsers
      rw [hsame]
      exact hrow

/-- A step of the cloud is one of the refills. -/
theorem cloud_refill (hstep : cloud.step c event c') :
    refills.step c.store (event.refill? c') c'.store := by
  cases event with
  | api operation =>
      obtain ⟨-, hsame⟩ := hstep
      show c'.store = { c.store with db := c'.world.db }
      unfold Cloud.store
      rw [hsame]
  | markActive e date groupId userIds =>
      obtain rfl : c' = c.put (RoastRefills.markActiveUsers e date groupId userIds c.store).2 := hstep
      rfl
  | refill e request response =>
      obtain ⟨rfl, rfl⟩ := hstep
      rfl

theorem cloud_refills (hrun : Run cloud c events c') :
    ∃ refillEvents, Run refills c.store refillEvents c'.store := by
  induction hrun with
  | nil => exact ⟨[], .nil⟩
  | snoc _ hstep ih =>
      obtain ⟨refillEvents, hbefore⟩ := ih
      exact ⟨_, hbefore.snoc (cloud_refill hstep)⟩

/-- What holds of the cloud after any run. -/
structure Cloud.Sound (c : Cloud) : Prop where
  active : c.world.db.ActiveOnce
  ids : Tables.Unique (·.requestId) c.requests
  keyed : KeyedVotes c.requests

theorem cloud_sound (hrun : Run cloud {} events c) : c.Sound := by
  obtain ⟨refillEvents, hrefills⟩ := cloud_refills hrun
  have horderly := refills_orderly (show refills.init ({} : Cloud).store from rfl) hrefills
  refine ⟨?_, horderly.ids, horderly.keyed⟩
  refine Run.invariant (I := fun c => c.world.db.ActiveOnce) (fun c event c' h hstep =>
    (cloud_active hstep h).1) hrun ?_
  exact ⟨List.nodup_nil, fun _ hrow => nomatch hrow⟩

/-! ### A vote from its opening on -/

/-- What a vote keeps while it is on. -/
def GroupRoastRefillRequest.frozen (row : GroupRoastRefillRequest) : String × Date × String × Nat :=
  (row.requestId, row.dateStr, row.groupId, row.requiredVotes)

theorem RefillTurn.frozen {row' : GroupRoastRefillRequest} {bound succeeded : Option GroupRoastRefillItem}
    (h : RefillTurn row bound succeeded row') : row'.frozen = row.frozen := by
  cases h with
  | bind | close => rfl
  | succeed _ _ _ _ _ hrow' => rw [hrow']; rfl

theorem RefillChange.frozen {requests requests' : List GroupRoastRefillRequest}
    {bound succeeded : Option GroupRoastRefillItem} (h : RefillChange requests bound succeeded requests')
    (hrow : row ∈ requests) : ∃ row' ∈ requests', row'.frozen = row.frozen := by
  cases h with
  | stay => exact ⟨row, hrow, rfl⟩
  | @turn before after old _ _ new _ hturn =>
      rcases List.mem_append.mp hrow with hbefore | hrest
      · exact ⟨row, List.mem_append_left _ hbefore, rfl⟩
      · rcases List.mem_cons.mp hrest with rfl | hafter
        · exact ⟨new, List.mem_append_right _ List.mem_cons_self, hturn.frozen⟩
        · exact ⟨row, List.mem_append_right _ (List.mem_cons_of_mem _ hafter), rfl⟩
  | insert => exact ⟨row, List.mem_append_left _ hrow, rfl⟩

theorem Cloud.Sound.step (h : c.Sound) (hstep : cloud.step c event c')
    (hrow : row ∈ c.requests) : ∃ row' ∈ c'.requests, row'.frozen = row.frozen := by
  obtain ⟨middle, hclose, hchange⟩ := refills_changes h.ids h.keyed (cloud_refill hstep)
  obtain ⟨closed, hclosed, hsame⟩ := hclose.frozen hrow
  obtain ⟨row', hrow', hlater⟩ := hchange.frozen hclosed
  exact ⟨row', hrow', hlater.trans hsame⟩

/-- Through a run a vote keeps its threshold, and the users who were active stay active. -/
theorem vote_kept {before : List CloudEvent} (hbefore : Run cloud {} before c)
    (hrun : Run cloud c events c') (hrow : row ∈ c.requests) :
    (∃ row' ∈ c'.requests, row'.frozen = row.frozen) ∧
      ∀ date groupId, c.world.db.activeIds date groupId ⊆ c'.world.db.activeIds date groupId := by
  induction hrun with
  | nil => exact ⟨⟨row, hrow, rfl⟩, fun _ _ => Finset.Subset.refl _⟩
  | @snoc t u _ _ hrun hstep ih =>
      have ht := cloud_sound (hbefore.append hrun)
      obtain ⟨⟨middle, hmiddle, hsame⟩, hkept⟩ := ih
      obtain ⟨row', hrow', hlater⟩ := ht.step hstep hmiddle
      refine ⟨⟨row', hrow', hlater.trans hsame⟩, fun date groupId userId huser => ?_⟩
      obtain ⟨active, hactive, hmatch⟩ := mem_activeIds.mp (hkept date groupId huser)
      exact mem_activeIds.mpr ⟨active, (cloud_active hstep ht.active).2 active hactive, hmatch⟩

/-- Active users who vote and are not excluded count. -/
theorem voters_of_active (h : db.ActiveOnce) {userIds : List String} {date : Date}
    {groupId : String} (hactive : ∀ userId ∈ userIds, userId ∈ db.activeIds date groupId)
    (hall : ∀ userId ∈ userIds, userId ∈ req.voterIds ∧ userId ∉ req.excludedUserIds) :
    userIds.toFinset ⊆ req.voters (db.activeIds date groupId) := by
  intro userId huser
  have hlisted := List.mem_toFinset.mp huser
  have hthere := hactive userId hlisted
  obtain ⟨row, hrow, -, -, rfl⟩ := mem_activeIds.mp hthere
  unfold GroupRoastRefillCompleteRequest.voters
  rw [Finset.mem_sdiff, Finset.mem_inter, Finset.mem_erase, List.mem_toFinset, List.mem_toFinset]
  exact ⟨⟨⟨h.named row hrow, (hall _ hlisted).1⟩, hthere⟩, (hall _ hlisted).2⟩

/-- If all who were counted vote, and none of them is excluded, the vote passes. -/
theorem all_counted_pass {before after : List CloudEvent} {e₀ : Env}
    {req₀ : GroupRoastRefillPrepareRequest} {response : GroupRoastRefillPrepareResponse}
    {item : GroupRoastRefillItem}
    (hrun : Run cloud {} (before ++ .refill e₀ (.prepare req₀) (.prepare response) :: after) c)
    (hcreated : response.status = .created) (hitem : response.request = some item)
    (hid : item.requestId = req.requestId) (hrow : row ∈ c.requests)
    (hrowId : row.requestId = req.requestId) (hopen : VoteOpen e req row)
    (hall : ∀ userId ∈ response.activeUserIds,
      userId ∈ req.voterIds ∧ userId ∉ req.excludedUserIds) :
    item.activeCountSnapshot = response.activeUserIds.length ∧
      (completeRefill e req c.store).1.completed = true := by
  obtain ⟨c₀, hbefore, hafter⟩ := hrun.split before _ rfl
  obtain ⟨c₁, hstep, hrest⟩ := hafter.of_cons
  have hsound₀ := cloud_sound hbefore
  have hsound := cloud_sound hrun
  have hprepared := hstep
  obtain ⟨hresponse, rfl⟩ := hprepared
  simp only [RefillRequest.transaction] at hresponse
  cases hprepare : RoastRefills.prepare e₀ req₀ c₀.store with
  | none =>
      rw [hprepare] at hresponse
      cases hresponse
  | some result =>
      obtain ⟨answer, s'⟩ := result
      rw [hprepare] at hresponse
      obtain rfl := RefillResponse.prepare.inj hresponse
      obtain ⟨hdb, hopened⟩ := prepareAttempts_opened hsound₀.active _ hprepare
      obtain ⟨opened, hmem, hvote⟩ := hopened hcreated
      have hin : opened ∈ (c₀.put (RefillRequest.transaction e₀ c₀.store (.prepare req₀)).2).requests := by
        simp only [RefillRequest.transaction, hprepare]
        exact hmem
      obtain rfl := Option.some.inj (hitem.symm.trans hvote.request)
      refine ⟨hvote.counted, ?_⟩
      obtain ⟨⟨row', hrow', hfrozen⟩, hactive⟩ := vote_kept (hbefore.snoc hstep) hrest hin
      unfold GroupRoastRefillRequest.frozen at hfrozen
      obtain ⟨hid', hdate, hgroup, hrequired⟩ : row'.requestId = opened.requestId ∧
          row'.dateStr = opened.dateStr ∧ row'.groupId = opened.groupId ∧
            row'.requiredVotes = opened.requiredVotes := by
        simpa using hfrozen
      obtain rfl : row' = row := hsound.ids.eq hrow' hrow ((hid'.trans hid).trans hrowId.symm)
      have hfind : c.store.request? req.requestId = some row' :=
        hrowId ▸ hsound.ids.find? hrow
      have hstill : ∀ userId ∈ response.activeUserIds,
          userId ∈ c.world.db.activeIds row'.dateStr row'.groupId := by
        intro userId hcounted
        rw [hdate, hgroup]
        obtain ⟨activeRow, hactiveRow, hmatch⟩ := mem_activeIds.mp (hvote.active userId hcounted)
        exact hactive _ _ (mem_activeIds.mpr
          ⟨activeRow, (cloud_active hstep hsound₀.active).2 activeRow hactiveRow, hmatch⟩)
      have hvoters : response.activeUserIds.toFinset ⊆
          req.voters (c.store.db.activeIds row'.dateStr row'.groupId) :=
        voters_of_active hsound.active hstill hall
      have hcard := Finset.card_le_card hvoters
      rw [List.toFinset_card_of_nodup hvote.once] at hcard
      have htwo := hvote.two
      have hreach := hvote.required
      exact (completeRefill_iff hfind hopen).mpr ⟨by omega, by omega⟩

/-- More voters and more managers do no harm. -/
theorem completeRefill_more {store : RefillStore} {voterIds managerVoterIds : List String}
    (hvoters : req.voterIds ⊆ voterIds) (hmanagers : req.managerVoterIds ⊆ managerVoterIds)
    (hcompleted : (completeRefill e req store).1.completed = true) :
    (completeRefill e { req with voterIds, managerVoterIds } store).1.completed = true := by
  cases completeRefill_cases e req store with
  | refused hresult => exact absurd (hresult.symm.trans hcompleted) Bool.false_ne_true
  | expired _ _ _ _ hresult => exact absurd (hresult.symm.trans hcompleted) Bool.false_ne_true
  | succeeded row hfind hvoting hbound hmessage hearly htwo hvotes =>
      let req' : GroupRoastRefillCompleteRequest := { req with voterIds, managerVoterIds }
      have hopen : VoteOpen e req' row := ⟨hvoting, hbound, hmessage, hearly⟩
      have hmore : (req.voters (store.db.activeIds row.dateStr row.groupId)).card ≤
          (req'.voters (store.db.activeIds row.dateStr row.groupId)).card :=
        Finset.card_le_card (voters_mono hvoters rfl)
      have hdouble : (req.managers (store.db.activeIds row.dateStr row.groupId)).card ≤
          (req'.managers (store.db.activeIds row.dateStr row.groupId)).card :=
        Finset.card_le_card (managers_mono hvoters hmanagers rfl rfl)
      have hfind' : store.request? req'.requestId = some row := hfind
      exact (completeRefill_iff hfind' hopen).mpr ⟨by omega, by omega⟩

/-! ### The result -/

/-- **When a vote succeeds, and what it does.**  In every state of a run, a vote that is completed
in time and under its message succeeds exactly when two voters count and the voters, with the
managers among them twice under the policy, reach its threshold.  A success fills the charges of
the active users that are not excluded and changes no other row or column of the usage, nor any
other table.  Every other outcome changes nothing, but for a vote whose time is over.  More voters
and more managers do no harm, and if all users vote who were counted when the vote was opened,
and none of them is excluded, it succeeds. -/
theorem refill_settled (hrun : Run cloud {} events c) (e : Env)
    (req : GroupRoastRefillCompleteRequest) :
    (∀ row ∈ c.requests, row.requestId = req.requestId → VoteOpen e req row →
      ((completeRefill e req c.store).1.completed = true ↔
        2 ≤ (req.voters (c.world.db.activeIds row.dateStr row.groupId)).card ∧
          row.requiredVotes ≤ (req.voters (c.world.db.activeIds row.dateStr row.groupId)).card +
            (req.managers (c.world.db.activeIds row.dateStr row.groupId)).card)) ∧
      ((completeRefill e req c.store).1.completed = true →
        ∃ row ∈ c.requests, row.requestId = req.requestId ∧ VoteOpen e req row ∧
          OnlyUsage c.world.db (completeRefill e req c.store).2.db ∧
            ∀ userId, (completeRefill e req c.store).2.db.usage? userId =
              if userId ∈ req.benefited (c.world.db.activeIds row.dateStr row.groupId) then
                some (filledUsage (c.world.db.usage? userId) userId
                  (clampChargeSettings (some req.maxCharges) none).1 (refillEpoch e req.nowTs))
              else c.world.db.usage? userId) ∧
      ((completeRefill e req c.store).1.completed = false →
        (completeRefill e req c.store).2 = c.store ∨
          ∃ row ∈ c.requests, row.requestId = req.requestId ∧ row.status = .voting ∧
            row.expiresAt ≤ utcFromTs e req.nowTs ∧
              (completeRefill e req c.store).2 = c.store.flush
                { row with status := .expired, failureReason := "expired", activeKey := none }) ∧
      (∀ voterIds managerVoterIds, req.voterIds ⊆ voterIds → req.managerVoterIds ⊆ managerVoterIds →
        (completeRefill e req c.store).1.completed = true →
          (completeRefill e { req with voterIds, managerVoterIds } c.store).1.completed = true) ∧
      ∀ before e₀ req₀ response after item,
        events = before ++ .refill e₀ (.prepare req₀) (.prepare response) :: after →
          response.status = .created → response.request = some item →
            item.requestId = req.requestId →
              ∀ row ∈ c.requests, row.requestId = req.requestId → VoteOpen e req row →
                (∀ userId ∈ response.activeUserIds,
                  userId ∈ req.voterIds ∧ userId ∉ req.excludedUserIds) →
                    item.activeCountSnapshot = response.activeUserIds.length ∧
                      (completeRefill e req c.store).1.completed = true := by
  have hsound := cloud_sound hrun
  have hread : ∀ {row : GroupRoastRefillRequest}, c.store.request? req.requestId = some row →
      row ∈ c.requests ∧ row.requestId = req.requestId := fun hfind =>
    ⟨List.mem_of_find?_eq_some hfind, by simpa using List.find?_some hfind⟩
  refine ⟨fun row hrow hid hopen => ?_, fun hcompleted => ?_, fun hrefused => ?_, ?_, ?_⟩
  · exact completeRefill_iff (hid ▸ hsound.ids.find? hrow) hopen
  · cases completeRefill_cases e req c.store with
    | refused hresult => exact absurd (hresult.symm.trans hcompleted) Bool.false_ne_true
    | expired _ _ _ _ hresult => exact absurd (hresult.symm.trans hcompleted) Bool.false_ne_true
    | succeeded row hfind hvoting hbound hmessage hearly _ _ _ hstore =>
        obtain ⟨hrow, hid⟩ := hread hfind
        obtain ⟨honly, husage⟩ := resetRoastCharges_usage (sortedSet_nodup
          ((getGroupActiveUserIds c.world.db row.dateStr row.groupId).filter fun userId =>
            userId ∉ req.excludedUserIds.filter (· ≠ "")))
          (clampChargeSettings (some req.maxCharges) none).1 (refillEpoch e req.nowTs) c.world.db
        refine ⟨row, hrow, hid, ⟨hvoting, hbound, hmessage, hearly⟩, ?_, fun userId => ?_⟩
        · rw [hstore]
          exact honly
        · rw [hstore]
          refine (husage userId).trans (if_congr ?_ rfl rfl)
          exact mem_benefitedUsers hsound.active
  · cases completeRefill_cases e req c.store with
    | refused _ hstore => exact Or.inl hstore
    | expired row hfind hvoting hlate _ hstore =>
        obtain ⟨hrow, hid⟩ := hread hfind
        exact Or.inr ⟨row, hrow, hid, hvoting, hlate, hstore⟩
    | succeeded _ _ _ _ _ _ _ _ hresult =>
        exact absurd (hrefused.symm.trans hresult) Bool.false_ne_true
  · exact fun voterIds managerVoterIds => completeRefill_more
  · rintro before e₀ req₀ response after item rfl hcreated hitem hid row hrow hrowId hopen hall
    exact all_counted_pass hrun hcreated hitem hid hrow hrowId hopen hall

/-- Execute requests for refills one after the other. -/
def playCloud : Cloud → List (Env × RefillRequest) → List CloudEvent × Cloud
  | c, [] => ([], c)
  | c, (e, request) :: rest =>
      let played := playCloud (c.put (request.transaction e c.store).2) rest
      (.refill e request (request.transaction e c.store).1 :: played.1, played.2)

theorem playCloud_run (script : List (Env × RefillRequest)) (c : Cloud) :
    Run cloud c (playCloud c script).1 (playCloud c script).2 := by
  induction script generalizing c with
  | nil => exact Run.nil
  | cons call rest ih =>
      obtain ⟨e, request⟩ := call
      exact Run.cons ⟨rfl, rfl⟩ (ih (c.put (request.transaction e c.store).2))

def midnightEnv : Env := { now := 0, dbNow := 0, uuid := fun _ => "r" }

/-- Three users are active. -/
def threeMarked : Cloud :=
  ({} : Cloud).put
    (RoastRefills.markActiveUsers midnightEnv 739000 "g" ["1", "2", "3"] ({} : Cloud).store).2

/-- A vote is opened and gets its message. -/
def boundVote : List (Env × RefillRequest) :=
  [(midnightEnv, .prepare { groupId := "g", initiatorId := "1", deliveryBotId := "b", dateStr := 739000 }),
    (midnightEnv, .bind { requestId := "r", messageId := "m" })]

/-- All three vote, one of them twice, and a blank. -/
def allVote : GroupRoastRefillCompleteRequest where
  requestId := "r"
  messageId := "m"
  voterIds := ["3", "", "1", "2", "1"]

/-- A manager votes alone. -/
def managerVote : GroupRoastRefillCompleteRequest where
  requestId := "r"
  messageId := "m"
  voterIds := ["3", "3"]
  managerVoterIds := ["3"]
  voteWeightPolicy := roastRefillVoteWeightPolicy

theorem refill_settled_three :
    (completeRefill midnightEnv allVote (playCloud threeMarked boundVote).2.store).1.completed = true ∧
      ¬ (completeRefill midnightEnv managerVote
          (playCloud threeMarked boundVote).2.store).1.completed = true := by
  have hmarked : Run cloud {} [.markActive midnightEnv 739000 "g" ["1", "2", "3"]] threeMarked :=
    Run.single rfl
  have hrun := hmarked.append (playCloud_run boundVote threeMarked)
  have hrow : ∃ row ∈ (playCloud threeMarked boundVote).2.requests, row.requestId = "r" ∧
      row.status = .voting ∧ row.messageId = "m" ∧ 0 < row.expiresAt ∧ row.dateStr = 739000 ∧
        row.groupId = "g" ∧ row.requiredVotes = 2 := by
    decide +kernel
  obtain ⟨row, hmem, hid, hvoting, hmessage, hearly, hdate, hgroup, hrequired⟩ := hrow
  have hbound : row.messageId ≠ "" := by
    rw [hmessage]
    decide
  have hall : VoteOpen midnightEnv allVote row := ⟨hvoting, hbound, hmessage.symm, hearly⟩
  have halone : VoteOpen midnightEnv managerVote row := ⟨hvoting, hbound, hmessage.symm, hearly⟩
  refine ⟨?_, ?_⟩
  · rw [(refill_settled hrun midnightEnv allVote).1 row hmem hid hall, hdate, hgroup, hrequired]
    decide +kernel
  · rw [(refill_settled hrun midnightEnv managerVote).1 row hmem hid halone, hdate, hgroup,
      hrequired]
    decide +kernel

end RollPig
