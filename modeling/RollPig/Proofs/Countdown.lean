/-
The countdown of a bucket is exact.

What a draw leaves is a number of charges and the time they are counted from, less than a
period ago.  The announced seconds end one period after that time: until then nothing
recovers, and at that moment one charge does.  A refused draw leaves the bucket as it was,
so it moves no countdown either.
-/
import RollPig.Proofs.RoastWindows

namespace RollPig

variable {now chargeMax recoverSeconds : Int} {b : Bucket} {userId : String} {db : Db}

/-! ### Recovering once, and again -/

/-- The bucket is counted from a real time, and from none after `t`. -/
def Bucket.Before (t : Int) : Bucket → Prop
  | .uncounted lastUse => lastUse ≤ t
  | .counted charges updatedTs => 0 ≤ charges ∧ 1 ≤ updatedTs ∧ updatedTs ≤ t

theorem Bucket.Before.mono {t t' : Int} (h : b.Before t) (hlater : t ≤ t') : b.Before t' := by
  cases b with
  | uncounted lastUse => exact Int.le_trans h hlater
  | counted charges updatedTs =>
      obtain ⟨hcharges, hreal, hbefore⟩ := h
      exact ⟨hcharges, hreal, by omega⟩

/-- The whole periods since a time, and what is left of the running one. -/
theorem periods_spec (hperiod : 1 ≤ recoverSeconds) {updatedTs : Int} (h : updatedTs ≤ now) :
    ∃ periods rest : Int, max 0 (now - updatedTs) / recoverSeconds = periods ∧ 0 ≤ periods ∧
      0 ≤ rest ∧ rest < recoverSeconds ∧ updatedTs + periods * recoverSeconds + rest = now := by
  have hdiv := Int.ediv_mul_add_emod (now - updatedTs) recoverSeconds
  have hmod : (now - updatedTs) % recoverSeconds < recoverSeconds := Int.emod_lt_of_pos _ (by omega)
  have hmod' : 0 ≤ (now - updatedTs) % recoverSeconds := Int.emod_nonneg _ (by omega)
  have hnonneg : 0 ≤ (now - updatedTs) / recoverSeconds := Int.ediv_nonneg (by omega) (by omega)
  rw [Int.max_eq_right (by omega)]
  exact ⟨_, _, rfl, hnonneg, hmod', hmod, by omega⟩

/-- The recovery in one formula: the whole periods are added, and a full bucket is counted
from now on. -/
theorem recoverCharges_closed (hperiod : 1 ≤ recoverSeconds) (charges : Int)
    {updatedTs : Int} (hreal : 1 ≤ updatedTs) :
    recoverCharges charges updatedTs now chargeMax recoverSeconds =
      let periods := max 0 (now - updatedTs) / recoverSeconds
      let filled := max 0 (min chargeMax charges) + periods
      if chargeMax ≤ filled then (chargeMax, now)
      else (filled, updatedTs + periods * recoverSeconds) := by
  have hnonneg : 0 ≤ max 0 (now - updatedTs) / recoverSeconds :=
    Int.ediv_nonneg (by omega) (by omega)
  unfold recoverCharges
  dsimp only
  rw [orDefault_pos hreal]
  set periods := max 0 (now - updatedTs) / recoverSeconds
  by_cases hfull : chargeMax ≤ max 0 (min chargeMax charges)
  · rw [if_pos hfull, if_pos (by omega)]
  · rw [if_neg hfull]
    by_cases hnone : periods ≤ 0
    · obtain hzero : periods = 0 := by omega
      rw [if_pos hnone, hzero, if_neg (by omega)]
      simp
    · rw [if_neg hnone]
      by_cases hfilled : chargeMax ≤ max 0 (min chargeMax charges) + periods
      · have hcap : min chargeMax (max 0 (min chargeMax charges) + periods) = chargeMax := by omega
        rw [hcap, if_pos (Int.le_refl _), if_pos hfilled]
      · have hcap : min chargeMax (max 0 (min chargeMax charges) + periods) =
            max 0 (min chargeMax charges) + periods := by omega
        rw [hcap, if_neg hfilled, if_neg hfilled]

/-- A recovery is counted from a real time no later than now. -/
theorem recoverCharges_before (chargeMax : Int) (hperiod : 1 ≤ recoverSeconds) (hnow : 1 ≤ now)
    (charges : Int) {updatedTs : Int} (hreal : 1 ≤ updatedTs) (hpast : updatedTs ≤ now) :
    1 ≤ (recoverCharges charges updatedTs now chargeMax recoverSeconds).2 ∧
      (recoverCharges charges updatedTs now chargeMax recoverSeconds).2 ≤ now := by
  obtain ⟨periods, rest, hperiods, hnonneg, hrest, -, hsum⟩ := periods_spec hperiod hpast
  have hforward : 0 ≤ periods * recoverSeconds := Int.mul_nonneg hnonneg (by omega)
  rw [recoverCharges_closed hperiod charges hreal, hperiods]
  dsimp only
  split_ifs
  · exact ⟨hnow, Int.le_refl _⟩
  · dsimp only
    omega

theorem stateFromLegacyLastUse_before (chargeMax : Int) (hperiod : 1 ≤ recoverSeconds) (hnow : 1 ≤ now)
    {lastUse : Int} (hpast : lastUse ≤ now) :
    1 ≤ (stateFromLegacyLastUse lastUse now chargeMax recoverSeconds).2 ∧
      (stateFromLegacyLastUse lastUse now chargeMax recoverSeconds).2 ≤ now := by
  unfold stateFromLegacyLastUse
  split
  · exact ⟨hnow, Int.le_refl _⟩
  · obtain ⟨periods, rest, hperiods, hnonneg, hrest, -, hsum⟩ := periods_spec hperiod hpast
    have hforward : 0 ≤ periods * recoverSeconds := Int.mul_nonneg hnonneg (by omega)
    dsimp only
    rw [hperiods]
    split_ifs <;> omega

/-- **Recovering twice is recovering once.** -/
theorem recoverCharges_twice (hperiod : 1 ≤ recoverSeconds)
    (charges : Int) {updatedTs t t' : Int} (hreal : 1 ≤ updatedTs) (hlater : t ≤ t') :
    recoverCharges (recoverCharges charges updatedTs t chargeMax recoverSeconds).1
        (recoverCharges charges updatedTs t chargeMax recoverSeconds).2 t' chargeMax recoverSeconds =
      recoverCharges charges updatedTs t' chargeMax recoverSeconds := by
  have hfirst : recoverCharges charges updatedTs t chargeMax recoverSeconds = _ :=
    recoverCharges_closed hperiod charges hreal
  have honce : recoverCharges charges updatedTs t' chargeMax recoverSeconds = _ :=
    recoverCharges_closed hperiod charges hreal
  rw [hfirst, honce]
  dsimp only
  have hgrow : max 0 (t - updatedTs) / recoverSeconds ≤ max 0 (t' - updatedTs) / recoverSeconds :=
    Int.ediv_le_ediv (by omega) (by omega)
  set c := max 0 (min chargeMax charges) with hc
  set k := max 0 (t - updatedTs) / recoverSeconds with hk
  have hk0 : 0 ≤ k := Int.ediv_nonneg (by omega) (by omega)
  by_cases hfull : chargeMax ≤ c + k
  · -- full by `t`, and it stays full
    rw [if_pos hfull, if_pos (by omega)]
    unfold recoverCharges
    dsimp only
    rw [if_pos (by omega)]
  · rw [if_neg hfull]
    have hwhole : k * recoverSeconds ≤ max 0 (t - updatedTs) := Int.ediv_mul_le _ (by omega)
    have hforward : 0 ≤ k * recoverSeconds := Int.mul_nonneg hk0 (by omega)
    have hkept : max 0 (min chargeMax (c + k)) = c + k := by omega
    -- the periods that were counted at `t` are not counted again
    have hrest : max 0 (t' - (updatedTs + k * recoverSeconds)) / recoverSeconds =
        max 0 (t' - updatedTs) / recoverSeconds - k := by
      have hsplit : max 0 (t' - (updatedTs + k * recoverSeconds)) =
          max 0 (t' - updatedTs) + -k * recoverSeconds := by
        rw [Int.neg_mul]
        omega
      rw [hsplit, Int.add_mul_ediv_right _ _ (by omega)]
      omega
    rw [recoverCharges_closed hperiod _ (by omega), hkept, hrest]
    dsimp only
    have hsum : c + k + (max 0 (t' - updatedTs) / recoverSeconds - k) =
        c + max 0 (t' - updatedTs) / recoverSeconds := by omega
    have hstart : updatedTs + k * recoverSeconds +
        (max 0 (t' - updatedTs) / recoverSeconds - k) * recoverSeconds =
          updatedTs + max 0 (t' - updatedTs) / recoverSeconds * recoverSeconds := by
      rw [Int.sub_mul]
      omega
    rw [hsum, hstart]

/-! ### One draw -/

/-- What a draw announces is what its bucket is going to do. -/
structure Announces (answer : ConsumeRoastResponse) (now chargeMax recoverSeconds since : Int) : Prop where
  charges : 0 ≤ answer.chargesLeft ∧ answer.chargesLeft < chargeMax
  real : 1 ≤ since
  running : since ≤ now ∧ now < since + recoverSeconds
  next : now + answer.nextRecoverSeconds = since + recoverSeconds
  refused : answer.allowed = false → answer.chargesLeft = 0 ∧
    answer.remainingSeconds = answer.nextRecoverSeconds

/-- The countdown ends one period after the time the charges are counted from. -/
theorem nextRecoverSeconds_spec {charges since : Int} (hspace : charges < chargeMax)
    (hreal : 1 ≤ since) (hrunning : since ≤ now ∧ now < since + recoverSeconds) :
    now + nextRecoverSeconds charges since now chargeMax recoverSeconds = since + recoverSeconds := by
  have hmod : max 0 (now - since) % recoverSeconds = now - since := by
    rw [Int.max_eq_right (by omega)]
    exact Int.emod_eq_of_lt (by omega) (by omega)
  unfold nextRecoverSeconds
  rw [if_neg (by omega), orDefault_pos hreal]
  dsimp only
  rw [hmod]
  omega

theorem recovered_counted {charges updatedTs : Int} (hreal : 1 ≤ updatedTs) :
    (Bucket.counted charges updatedTs).recovered now chargeMax recoverSeconds =
      recoverCharges charges updatedTs now chargeMax recoverSeconds := by
  show recoverCharges charges (orDefault (some updatedTs) now) now chargeMax recoverSeconds = _
  rw [orDefault_pos hreal]

/-- What a bucket holds at a time, and since when. -/
theorem recovered_before (hmax : 1 ≤ chargeMax) (hperiod : 1 ≤ recoverSeconds) (hnow : 1 ≤ now)
    (hb : b.Before now) {left since : Int}
    (h : b.recovered now chargeMax recoverSeconds = (left, since)) :
    0 ≤ left ∧ left ≤ chargeMax ∧ 1 ≤ since ∧ since ≤ now ∧ now < since + recoverSeconds := by
  obtain ⟨hleft, hcap, hrunning, -, -⟩ := recovered_spec hmax hperiod h
  have hsince : 1 ≤ since ∧ since ≤ now := by
    cases b with
    | uncounted lastUse =>
        obtain ⟨hreal, hpast⟩ := stateFromLegacyLastUse_before chargeMax hperiod hnow hb
        have hstate := recoverCharges_before chargeMax hperiod hnow
          (stateFromLegacyLastUse lastUse now chargeMax recoverSeconds).1 hreal hpast
        rwa [show recoverCharges _ _ now chargeMax recoverSeconds = (left, since) from h] at hstate
    | counted charges updatedTs =>
        obtain ⟨-, hreal, hpast⟩ := hb
        have hstate := recoverCharges_before chargeMax hperiod hnow charges hreal hpast
        rw [recovered_counted hreal] at h
        rwa [h] at hstate
  exact ⟨hleft, hcap, hsince.1, hsince.2, by omega⟩

/-- **What a draw leaves, and what it announces.** -/
theorem draw_announces (hmax : 1 ≤ chargeMax) (hperiod : 1 ≤ recoverSeconds) (hnow : 1 ≤ now)
    (hb : b.Before now) :
    ∃ since, (b.draw now chargeMax recoverSeconds).2 =
        .counted (b.draw now chargeMax recoverSeconds).1.chargesLeft since ∧
      Announces (b.draw now chargeMax recoverSeconds).1 now chargeMax recoverSeconds since := by
  cases hrecovered : b.recovered now chargeMax recoverSeconds with
  | mk left since =>
  obtain ⟨hleft, hcap, hreal, hpast, hrunning⟩ := recovered_before hmax hperiod hnow hb hrecovered
  unfold Bucket.draw
  rw [hrecovered]
  dsimp only
  split
  · rename_i hempty
    obtain rfl : left = 0 := by omega
    exact ⟨since, rfl, by dsimp only; omega, hreal, ⟨hpast, hrunning⟩,
      nextRecoverSeconds_spec (by omega) hreal ⟨hpast, hrunning⟩, fun _ => ⟨rfl, rfl⟩⟩
  · rename_i hsome
    have hsince : 1 ≤ (if chargeMax ≤ left then now else since) ∧
        (if chargeMax ≤ left then now else since) ≤ now ∧
        now < (if chargeMax ≤ left then now else since) + recoverSeconds := by
      split_ifs
      · omega
      · omega
    refine ⟨if chargeMax ≤ left then now else since, ?_, by dsimp only; omega, hsince.1, hsince.2,
      nextRecoverSeconds_spec (by omega) hsince.1 hsince.2, ?_⟩
    · rw [Int.max_eq_right (by omega)]
    · intro hrefused
      cases hrefused

/-- Until the countdown ends the charges stay, and then there is one more. -/
theorem Announces.recovers {answer : ConsumeRoastResponse} {since t' : Int}
    (h : Announces answer now chargeMax recoverSeconds since) (hlater : now ≤ t') :
    (t' < now + answer.nextRecoverSeconds →
        (recoverCharges answer.chargesLeft since t' chargeMax recoverSeconds).1 = answer.chargesLeft) ∧
      (t' = now + answer.nextRecoverSeconds →
        (recoverCharges answer.chargesLeft since t' chargeMax recoverSeconds).1 =
          answer.chargesLeft + 1) := by
  obtain ⟨hnonneg, hspace⟩ := h.charges
  have hrunning := h.running
  have hnext := h.next
  have hkept : max 0 (min chargeMax answer.chargesLeft) = answer.chargesLeft := by omega
  rw [recoverCharges_closed (by omega) _ h.real, hkept]
  constructor
  · intro hearly
    have hnone : max 0 (t' - since) / recoverSeconds = 0 :=
      Int.ediv_eq_zero_of_lt (by omega) (by omega)
    rw [hnone]
    dsimp only
    rw [if_neg (by omega)]
    omega
  · intro hdue
    have hone : max 0 (t' - since) / recoverSeconds = 1 := by
      have hwhole : max 0 (t' - since) = 1 * recoverSeconds := by omega
      rw [hwhole, Int.mul_ediv_cancel _ (by omega)]
    rw [hone]
    dsimp only
    split_ifs
    · dsimp only
      omega
    · rfl

/-! ### Runs of consume calls -/

variable {calls : List (Env × ConsumeRoastRequest)} {call : Env × ConsumeRoastRequest}

/-- The calls of the user come at real times, none before the time the bucket is counted
from. -/
def CallsAfter (userId : String) (b : Bucket) (calls : List (Env × ConsumeRoastRequest)) : Prop :=
  ∀ call ∈ calls, call.2.userId = userId → 1 ≤ callTime call ∧ b.Before (callTime call)

theorem afterRoasts_snoc (calls : List (Env × ConsumeRoastRequest)) (call : Env × ConsumeRoastRequest)
    (db : Db) : afterRoasts (calls ++ [call]) db = (consumeRoast call (afterRoasts calls db)).2 := by
  unfold afterRoasts
  rw [List.foldl_append, List.foldl_cons, List.foldl_nil]

theorem SteadyCalls.left {more : List (Env × ConsumeRoastRequest)}
    (h : SteadyCalls userId chargeMax recoverSeconds (calls ++ more)) :
    SteadyCalls userId chargeMax recoverSeconds calls where
  settings call hcall := h.settings call (List.mem_append_left _ hcall)
  sorted := by
    have hsorted := h.sorted
    rw [List.filter_append, List.pairwise_append] at hsorted
    exact hsorted.1

/-- A call comes no earlier than the user's calls before it. -/
theorem SteadyCalls.later (h : SteadyCalls userId chargeMax recoverSeconds (calls ++ [call]))
    (huser : call.2.userId = userId) {before : Env × ConsumeRoastRequest} (hbefore : before ∈ calls)
    (hown : before.2.userId = userId) : callTime before ≤ callTime call := by
  have hsorted := h.sorted
  rw [List.filter_append, List.pairwise_append] at hsorted
  refine hsorted.2.2 before ?_ call ?_
  · exact List.mem_filter.mpr ⟨hbefore, decide_eq_true hown⟩
  · exact List.mem_filter.mpr ⟨by simp, decide_eq_true huser⟩

/-- A call of the user draws from the user's bucket. -/
theorem consumeRoast_own (huser : call.2.userId = userId)
    (hsettings : clampChargeSettings call.2.maxCharges call.2.cooldownSeconds =
      (chargeMax, recoverSeconds)) (db : Db) :
    (consumeRoast call db).1 =
        ((bucketOf (db.usage? userId)).draw (callTime call) chargeMax recoverSeconds).1 ∧
      bucketOf ((consumeRoast call db).2.usage? userId) =
        ((bucketOf (db.usage? userId)).draw (callTime call) chargeMax recoverSeconds).2 := by
  obtain ⟨hanswer, hbuckets⟩ := consumeRoast_serve call db
  have hserve : ∀ b : Bucket, b.serve call = b.draw (callTime call) chargeMax recoverSeconds := by
    intro b
    unfold Bucket.serve
    rw [hsettings]
    rfl
  rw [huser, hserve] at hanswer
  have hbucket := hbuckets userId
  rw [huser, if_pos rfl, hserve] at hbucket
  exact ⟨hanswer, hbucket⟩

theorem consumeRoast_other (huser : call.2.userId ≠ userId) (db : Db) :
    bucketOf ((consumeRoast call db).2.usage? userId) = bucketOf (db.usage? userId) := by
  rw [(consumeRoast_serve call db).2, if_neg (Ne.symm huser)]

/-- **The bucket is never counted from after the last call.** -/
theorem afterRoasts_before (hmax : 1 ≤ chargeMax) (hperiod : 1 ≤ recoverSeconds)
    (hsteady : SteadyCalls userId chargeMax recoverSeconds calls)
    (hafter : CallsAfter userId (bucketOf (db.usage? userId)) calls) {t : Int}
    (hstart : (bucketOf (db.usage? userId)).Before t)
    (hlater : ∀ call ∈ calls, call.2.userId = userId → callTime call ≤ t) :
    (bucketOf ((afterRoasts calls db).usage? userId)).Before t := by
  induction calls using List.reverseRec generalizing t with
  | nil => exact hstart
  | append_singleton before call ih =>
      have hbefore : CallsAfter userId (bucketOf (db.usage? userId)) before :=
        fun c hc => hafter c (List.mem_append_left _ hc)
      rw [afterRoasts_snoc]
      by_cases huser : call.2.userId = userId
      · obtain ⟨hnow, hcalled⟩ := hafter call (by simp) huser
        have hb := ih hsteady.left hbefore hcalled fun c hc hown => hsteady.later huser hc hown
        obtain ⟨since, hbucket, hannounces⟩ := draw_announces hmax hperiod hnow hb
        rw [(consumeRoast_own huser (hsteady.settings call (by simp) huser) _).2, hbucket]
        have hcall := hlater call (by simp) huser
        have hpast := hannounces.running.1
        exact ⟨hannounces.charges.1, hannounces.real, by omega⟩
      · rw [consumeRoast_other huser]
        exact ih hsteady.left hbefore hstart fun c hc => hlater c (List.mem_append_left _ hc)

/-- **After a call of the user**: what it left, and what it announced. -/
theorem consumeRoast_announces (hmax : 1 ≤ chargeMax) (hperiod : 1 ≤ recoverSeconds)
    (hsteady : SteadyCalls userId chargeMax recoverSeconds (calls ++ [call]))
    (hafter : CallsAfter userId (bucketOf (db.usage? userId)) (calls ++ [call]))
    (huser : call.2.userId = userId) :
    ∃ since, bucketOf ((afterRoasts (calls ++ [call]) db).usage? userId) =
        .counted (consumeRoast call (afterRoasts calls db)).1.chargesLeft since ∧
      Announces (consumeRoast call (afterRoasts calls db)).1 (callTime call) chargeMax recoverSeconds
        since := by
  obtain ⟨hnow, hcalled⟩ := hafter call (by simp) huser
  have hb : (bucketOf ((afterRoasts calls db).usage? userId)).Before (callTime call) :=
    afterRoasts_before hmax hperiod hsteady.left
      (fun c hc => hafter c (List.mem_append_left _ hc)) hcalled
      fun c hc hown => hsteady.later huser hc hown
  obtain ⟨hanswer, hbucket⟩ := consumeRoast_own huser (hsteady.settings call (by simp) huser)
    (afterRoasts calls db)
  obtain ⟨since, hleft, hannounces⟩ := draw_announces hmax hperiod hnow hb
  rw [afterRoasts_snoc, hbucket, hanswer]
  exact ⟨since, hleft, hannounces⟩

/-- The columns of a counted bucket. -/
theorem bucketOf_eq_counted {usage : Option UserUsage} {charges since : Int}
    (h : bucketOf usage = .counted charges since) :
    ∃ row stored, usage = some row ∧ row.roastCharges = some stored ∧
      row.roastChargeUpdatedTs = some since ∧ max 0 stored = charges := by
  unfold bucketOf at h
  split at h
  · cases h
  · rename_i row
    split at h
    · rename_i stored updatedTs hstored hupdated
      injection h with hcharges hsince
      exact ⟨row, stored, rfl, hstored, hsince ▸ hupdated, hcharges⟩
    · cases h

/-- Every call of the user among these is refused. -/
def AllRefused (userId : String) (calls : List (Env × ConsumeRoastRequest)) (db : Db) : Prop :=
  ∀ before call after, calls = before ++ call :: after → call.2.userId = userId →
    (consumeRoast call (afterRoasts before db)).1.allowed = false

/-- Refused calls, however many, leave the bucket as it was. -/
theorem AllRefused.bucket (hmax : 1 ≤ chargeMax) (hperiod : 1 ≤ recoverSeconds)
    (hrefused : AllRefused userId calls db)
    (hsettings : ∀ call ∈ calls, call.2.userId = userId →
      clampChargeSettings call.2.maxCharges call.2.cooldownSeconds = (chargeMax, recoverSeconds))
    (hstamped : (bucketOf (db.usage? userId)).Stamped) :
    bucketOf ((afterRoasts calls db).usage? userId) = bucketOf (db.usage? userId) := by
  induction calls using List.reverseRec with
  | nil => rfl
  | append_singleton before call ih =>
      have hbefore : AllRefused userId before db := by
        intro first own rest hsplit hown
        exact hrefused first own (rest ++ [call]) (by rw [hsplit]; simp) hown
      have hkept := ih hbefore fun c hc => hsettings c (List.mem_append_left _ hc)
      rw [afterRoasts_snoc]
      by_cases huser : call.2.userId = userId
      · obtain ⟨hanswer, hbucket⟩ := consumeRoast_own huser (hsettings call (by simp) huser)
          (afterRoasts before db)
        have hdenied := hrefused before call [] rfl huser
        rw [hanswer] at hdenied
        rw [hbucket, draw_refused hmax hperiod (hkept ▸ hstamped) hdenied, hkept]
      · rw [consumeRoast_other huser, hkept]

/-- A call on a bucket that was empty a moment ago. -/
theorem consumeRoast_countdown {answer : ConsumeRoastResponse} {since : Int}
    (hannounces : Announces answer now chargeMax recoverSeconds since)
    (hempty : answer.chargesLeft = 0)
    (hbucket : bucketOf (db.usage? userId) = .counted 0 since) (huser : call.2.userId = userId)
    (hsettings : clampChargeSettings call.2.maxCharges call.2.cooldownSeconds =
      (chargeMax, recoverSeconds)) (hlater : now ≤ callTime call) :
    (callTime call < now + answer.nextRecoverSeconds → (consumeRoast call db).1.allowed = false) ∧
      (callTime call = now + answer.nextRecoverSeconds →
        (consumeRoast call db).1.allowed = true) := by
  obtain ⟨hearly, hdue⟩ := hannounces.recovers hlater
  rw [hempty] at hearly hdue
  rw [(consumeRoast_own huser hsettings db).1, hbucket]
  have hrecovered : (Bucket.counted 0 since).recovered (callTime call) chargeMax recoverSeconds =
      recoverCharges 0 since (callTime call) chargeMax recoverSeconds :=
    recovered_counted hannounces.real
  constructor
  · intro h
    exact (draw_empty (hrecovered.trans (Prod.eta _).symm) (hearly h).le).1
  · intro h
    exact (draw_left (hrecovered.trans (Prod.eta _).symm) (by rw [hdue h]; omega)).1

/-- **The countdown is exact.**  A refused call announces the first moment that is not refused,
whatever is refused in between; a granted one the moment the next charge is there; and how often
a bucket is brought forward on the way does not matter. -/
theorem countdown_exact
    (hsteady : SteadyCalls userId chargeMax recoverSeconds (calls ++ [call]))
    (hafter : CallsAfter userId (bucketOf (db.usage? userId)) (calls ++ [call]))
    (huser : call.2.userId = userId) :
    let answer := (consumeRoast call (afterRoasts calls db)).1
    let t := callTime call
    let db' := afterRoasts (calls ++ [call]) db
    (answer.allowed = false → ∀ more next, AllRefused userId more db' →
        SteadyCalls userId chargeMax recoverSeconds (calls ++ [call] ++ more ++ [next]) →
        next.2.userId = userId →
        (callTime next < t + answer.remainingSeconds →
          (consumeRoast next (afterRoasts more db')).1.allowed = false) ∧
        (callTime next = t + answer.remainingSeconds →
          (consumeRoast next (afterRoasts more db')).1.allowed = true)) ∧
      ∃ row stored since, db'.usage? userId = some row ∧ row.roastCharges = some stored ∧
        row.roastChargeUpdatedTs = some since ∧
        (answer.allowed = true → ∀ t', t ≤ t' →
          (t' < t + answer.nextRecoverSeconds →
            (recoverCharges stored since t' chargeMax recoverSeconds).1 = answer.chargesLeft) ∧
          (t' = t + answer.nextRecoverSeconds →
            (recoverCharges stored since t' chargeMax recoverSeconds).1 = answer.chargesLeft + 1)) ∧
        ∀ t₁ t₂, t₁ ≤ t₂ →
          recoverCharges (recoverCharges stored since t₁ chargeMax recoverSeconds).1
              (recoverCharges stored since t₁ chargeMax recoverSeconds).2 t₂ chargeMax
              recoverSeconds =
            recoverCharges stored since t₂ chargeMax recoverSeconds := by
  intro answer t db'
  obtain ⟨hmax, hperiod⟩ := clampChargeSettings_pos call.2.maxCharges call.2.cooldownSeconds
  rw [hsteady.settings call (by simp) huser] at hmax hperiod
  obtain ⟨since, hbucket, hannounces⟩ :=
    consumeRoast_announces hmax hperiod hsteady hafter huser
  constructor
  · intro hdenied more next hrefused hmore hnext
    obtain ⟨hempty, hremaining⟩ := hannounces.refused hdenied
    rw [hempty] at hbucket
    have hsettings : ∀ c ∈ more, c.2.userId = userId →
        clampChargeSettings c.2.maxCharges c.2.cooldownSeconds = (chargeMax, recoverSeconds) :=
      fun c hc => hmore.settings c (by simp [hc])
    have hkept := hrefused.bucket hmax hperiod hsettings
      (by rw [hbucket]; exact ⟨Int.le_refl _, hannounces.real⟩)
    have hlater : callTime call ≤ callTime next := hmore.later hnext (by simp) huser
    show (callTime next < callTime call + answer.remainingSeconds → _) ∧ _
    rw [hremaining]
    exact consumeRoast_countdown hannounces hempty (hkept.trans hbucket) hnext
      (hmore.settings next (by simp) hnext) hlater
  · obtain ⟨row, stored, hrow, hstored, hupdated, hcharges⟩ := bucketOf_eq_counted hbucket
    refine ⟨row, stored, since, hrow, hstored, hupdated, ?_, ?_⟩
    · intro _ t' hlater
      rw [← recoverCharges_max hmax, hcharges]
      exact hannounces.recovers hlater
    · intro t₁ t₂ hlater
      exact recoverCharges_twice hperiod stored hannounces.real hlater

instance : Decidable (b.Before now) := by
  unfold Bucket.Before
  split <;> infer_instance

instance : Decidable (CallsAfter userId b calls) := by
  unfold CallsAfter
  infer_instance

/-- A call for a bucket of one charge that takes a minute to recover. -/
def minuteCall (nowTs : Rat) : Env × ConsumeRoastRequest :=
  ({ now := 0, dbNow := 0, uuid := fun _ => "" },
    { userId := "cook", nowTs := some nowTs, cooldownSeconds := some 60, maxCharges := some 1 })

/-- Drawn at 1000, refused at 1010 with 50 seconds to go, refused at 1030, granted at 1060. -/
theorem countdown_exact_minute :
    (consumeRoast (minuteCall 1010) (afterRoasts [minuteCall 1000] {})).1.remainingSeconds = 50 ∧
      (consumeRoast (minuteCall 1060) (afterRoasts [minuteCall 1030]
        (afterRoasts [minuteCall 1000, minuteCall 1010] {}))).1.allowed = true := by
  have hsteady : SteadyCalls "cook" 1 60
      [minuteCall 1000, minuteCall 1010, minuteCall 1030, minuteCall 1060] :=
    ⟨by decide +kernel, by decide +kernel⟩
  have hfirst : SteadyCalls "cook" 1 60 ([minuteCall 1000] ++ [minuteCall 1010]) :=
    SteadyCalls.left hsteady
  have hexact := @countdown_exact 1 60 "cook" {} [minuteCall 1000] (minuteCall 1010) hfirst (by decide +kernel) rfl
  have hremaining : (consumeRoast (minuteCall 1010)
      (afterRoasts [minuteCall 1000] {})).1.remainingSeconds = 50 := by decide +kernel
  refine ⟨hremaining, ?_⟩
  refine (hexact.1 (by decide +kernel) [minuteCall 1030] (minuteCall 1060) ?_ hsteady rfl).2 ?_
  · intro before own after hsplit _
    obtain rfl | ⟨first, rest, rfl⟩ : before = [] ∨ ∃ first rest, before = first :: rest := by
      cases before with
      | nil => exact Or.inl rfl
      | cons first rest => exact Or.inr ⟨first, rest, rfl⟩
    · obtain rfl : minuteCall 1030 = own := (List.cons.inj hsplit).1
      decide +kernel
    · have hlength := congrArg List.length hsplit
      simp at hlength
  · rw [hremaining]
    decide +kernel

end RollPig
