/-
How many roasts a bucket grants within a window of time.

The credit of a bucket is what is in it and what the periods until the window closes are
going to add.  Bringing the bucket forward turns periods into charges, one for one, and loses
some at the capacity; a granted draw takes one away.  So the window grants no more than the
credit at its first draw: a full bucket, and one charge for each period of the window.
-/
import RollPig.Allowance
import RollPig.Proofs.Charges

namespace RollPig

open Allowance

variable {now chargeMax recoverSeconds closes : Int} {b : Bucket} {userId : String} {db : Db}

/-! ### The credit -/

/-- The charges, and the periods to come until a time. -/
def creditOf (closes recoverSeconds charges updatedTs : Int) : Int :=
  charges + max 0 (closes - updatedTs) / recoverSeconds

/-- The credit of a bucket that was drawn from. -/
def Bucket.credit (closes recoverSeconds : Int) : Bucket → Nat
  | .uncounted _ => 0
  | .counted charges updatedTs => (creditOf closes recoverSeconds charges updatedTs).toNat

/-- A bucket somebody drew from by this time; it is not full. -/
def Bucket.Drawn (chargeMax t : Int) : Bucket → Prop
  | .uncounted _ => False
  | .counted charges updatedTs =>
      0 ≤ charges ∧ charges < chargeMax ∧ (updatedTs = 0 → 0 ≤ t)

/-- The later a bucket is counted from, the less is to come. -/
theorem creditOf_anti (hperiod : 1 ≤ recoverSeconds) {charges updatedTs updatedTs' : Int}
    (h : updatedTs ≤ updatedTs') :
    creditOf closes recoverSeconds charges updatedTs' ≤
      creditOf closes recoverSeconds charges updatedTs := by
  have hperiods : max 0 (closes - updatedTs') / recoverSeconds ≤
      max 0 (closes - updatedTs) / recoverSeconds := Int.ediv_le_ediv (by omega) (by omega)
  unfold creditOf
  omega

/-- A time that is missing is now, and that is no earlier. -/
theorem le_orDefault {updatedTs : Int} (h : updatedTs = 0 → 0 ≤ now) :
    updatedTs ≤ orDefault (some updatedTs) now := by
  unfold orDefault
  dsimp only
  split_ifs with hupdated
  · have := h hupdated
    omega
  · exact Int.le_refl _

/-- A full bucket is counted from now on, and no bucket from time zero unless that was
already. -/
theorem recoverCharges_since (hperiod : 1 ≤ recoverSeconds)
    {charges updatedTs left since : Int}
    (h : recoverCharges charges updatedTs now chargeMax recoverSeconds = (left, since)) :
    (chargeMax ≤ left → since = now) ∧ (since = 0 → 0 ≤ now) := by
  unfold recoverCharges at h
  dsimp only at h
  have hstart := orDefault_eq updatedTs now
  have hzero : orDefault (some updatedTs) now = 0 → now = 0 := by
    unfold orDefault
    dsimp only
    split_ifs with hupdated
    · exact id
    · exact fun h => absurd h hupdated
  set start := orDefault (some updatedTs) now
  set elapsed := max 0 (now - start) with helapsed
  have hdiv : elapsed / recoverSeconds * recoverSeconds ≤ elapsed :=
    Int.ediv_mul_le _ (by omega)
  split_ifs at h with hfull hnone hfilled
  · obtain ⟨rfl, rfl⟩ := Prod.mk.inj h
    exact ⟨fun _ => rfl, fun hnow => by omega⟩
  · obtain ⟨rfl, rfl⟩ := Prod.mk.inj h
    exact ⟨fun hcharges => absurd hcharges hfull, fun hupdated => by have := hzero hupdated; omega⟩
  · obtain ⟨rfl, rfl⟩ := Prod.mk.inj h
    exact ⟨fun _ => rfl, fun hnow => by omega⟩
  · obtain ⟨rfl, rfl⟩ := Prod.mk.inj h
    refine ⟨fun hleft => absurd hleft hfilled, fun hupdated => ?_⟩
    have hperiods : 1 * recoverSeconds ≤ elapsed / recoverSeconds * recoverSeconds :=
      Int.mul_le_mul_of_nonneg_right (by omega) (by omega)
    omega

/-- **Bringing a bucket forward adds nothing to its credit.** -/
theorem recoverCharges_credit (hperiod : 1 ≤ recoverSeconds)
    {charges updatedTs left since : Int}
    (h : recoverCharges charges updatedTs now chargeMax recoverSeconds = (left, since))
    (hcharges : 0 ≤ charges) (hspace : charges < chargeMax) (hzero : updatedTs = 0 → 0 ≤ now)
    (hopen : now ≤ closes) :
    creditOf closes recoverSeconds left since ≤
      creditOf closes recoverSeconds charges updatedTs := by
  unfold recoverCharges at h
  dsimp only at h
  have hstart := le_orDefault hzero
  set start := orDefault (some updatedTs) now
  set elapsed := max 0 (now - start) with helapsed
  have hdiv : elapsed / recoverSeconds * recoverSeconds ≤ elapsed :=
    Int.ediv_mul_le _ (by omega)
  have hlater : creditOf closes recoverSeconds charges start ≤
      creditOf closes recoverSeconds charges updatedTs := creditOf_anti hperiod hstart
  have hcap : max 0 (min chargeMax charges) = charges := by omega
  rw [hcap, if_neg (by omega)] at h
  refine Int.le_trans ?_ hlater
  -- the whole periods since the start are charges now, and no periods to come
  set periods := elapsed / recoverSeconds with hperiods
  have hpast : 1 ≤ periods → 1 * recoverSeconds ≤ periods * recoverSeconds :=
    fun hsome => Int.mul_le_mul_of_nonneg_right hsome (by omega)
  have hsplit : 1 ≤ periods → creditOf closes recoverSeconds charges start =
      charges + periods + (closes - (start + periods * recoverSeconds)) / recoverSeconds := by
    intro hsome
    have hperiod' := hpast hsome
    have hwhole : max 0 (closes - start) =
        (closes - (start + periods * recoverSeconds)) + periods * recoverSeconds := by omega
    unfold creditOf
    rw [hwhole, Int.add_mul_ediv_right _ _ (by omega)]
    omega
  split_ifs at h with hnone hfilled
  · obtain ⟨rfl, rfl⟩ := Prod.mk.inj h
    exact Int.le_refl _
  · obtain ⟨rfl, rfl⟩ := Prod.mk.inj h
    have hperiod' := hpast (by omega)
    rw [hsplit (by omega)]
    have hrest : max 0 (closes - now) / recoverSeconds ≤
        (closes - (start + periods * recoverSeconds)) / recoverSeconds :=
      Int.ediv_le_ediv (by omega) (by omega)
    unfold creditOf
    omega
  · obtain ⟨rfl, rfl⟩ := Prod.mk.inj h
    have hperiod' := hpast (by omega)
    rw [hsplit (by omega)]
    have hrest : max 0 (closes - (start + periods * recoverSeconds)) =
        closes - (start + periods * recoverSeconds) := by omega
    unfold creditOf
    rw [hrest]
    omega

/-! ### Drawing -/

/-- What any bucket holds when it is drawn from. -/
theorem recovered_spec (hmax : 1 ≤ chargeMax) (hperiod : 1 ≤ recoverSeconds) {left since : Int}
    (h : b.recovered now chargeMax recoverSeconds = (left, since)) :
    0 ≤ left ∧ left ≤ chargeMax ∧ max 0 (now - since) < recoverSeconds ∧
      (chargeMax ≤ left → since = now) ∧ (since = 0 → 0 ≤ now) := by
  cases b with
  | uncounted lastUse =>
      obtain ⟨hleft, hcap, hsettled⟩ := recoverCharges_settled hmax hperiod h
      obtain ⟨hfull, hzero⟩ := recoverCharges_since hperiod h
      exact ⟨by omega, hcap, hsettled, hfull, hzero⟩
  | counted charges updatedTs =>
      obtain ⟨hleft, hcap, hsettled⟩ := recoverCharges_settled hmax hperiod h
      obtain ⟨hfull, hzero⟩ := recoverCharges_since hperiod h
      exact ⟨by omega, hcap, hsettled, hfull, hzero⟩

/-- The grant of a draw, as a number. -/
def grantOf (answer : ConsumeRoastResponse) : Nat := if answer.allowed then 1 else 0

/-- **A draw pays for its grant.** -/
theorem draw_pays (closes : Int) (hmax : 1 ≤ chargeMax) (hperiod : 1 ≤ recoverSeconds)
    {left since : Int} (h : b.recovered now chargeMax recoverSeconds = (left, since)) :
    (b.draw now chargeMax recoverSeconds).2.Drawn chargeMax now ∧
      grantOf (b.draw now chargeMax recoverSeconds).1 +
          (b.draw now chargeMax recoverSeconds).2.credit closes recoverSeconds ≤
        (creditOf closes recoverSeconds left since).toNat := by
  obtain ⟨hleft, hcap, -, hfull, hzero⟩ := recovered_spec hmax hperiod h
  have hperiods : 0 ≤ max 0 (closes - since) / recoverSeconds :=
    Int.ediv_nonneg (by omega) (by omega)
  unfold grantOf
  by_cases hempty : left ≤ 0
  · obtain ⟨hrefused, hbucket⟩ := draw_empty h hempty
    have hnothing : max 0 left = left := by omega
    rw [hrefused, hbucket, hnothing]
    refine ⟨⟨hleft, by omega, hzero⟩, ?_⟩
    show 0 + (creditOf closes recoverSeconds left since).toNat ≤ _
    omega
  · obtain ⟨hallowed, -, hbucket⟩ := draw_left h (by omega)
    have hsince : (if chargeMax ≤ left then now else since) = since := by
      split_ifs with hcapped
      · exact (hfull hcapped).symm
      · rfl
    have hfewer : max 0 (left - 1) = left - 1 := by omega
    rw [hallowed, hbucket, hsince, hfewer]
    refine ⟨⟨by omega, by omega, hzero⟩, ?_⟩
    show 1 + (creditOf closes recoverSeconds (left - 1) since).toNat ≤ _
    unfold creditOf
    omega

/-- A bucket that was drawn from pays out of its credit. -/
theorem draw_drawn (hmax : 1 ≤ chargeMax) (hperiod : 1 ≤ recoverSeconds) {t : Int}
    (hb : b.Drawn chargeMax t) (hlater : t ≤ now) (hopen : now ≤ closes) :
    (b.draw now chargeMax recoverSeconds).2.Drawn chargeMax now ∧
      grantOf (b.draw now chargeMax recoverSeconds).1 +
          (b.draw now chargeMax recoverSeconds).2.credit closes recoverSeconds ≤
        b.credit closes recoverSeconds := by
  cases hrecovered : b.recovered now chargeMax recoverSeconds with
  | mk left since =>
  obtain ⟨hdrawn, hpays⟩ := draw_pays closes hmax hperiod hrecovered
  refine ⟨hdrawn, Nat.le_trans hpays ?_⟩
  cases b with
  | uncounted lastUse => exact hb.elim
  | counted charges updatedTs =>
      obtain ⟨hcharges, hspace, hzero⟩ := hb
      have hstart : orDefault (some updatedTs) now = 0 → 0 ≤ now := by
        rcases orDefault_eq updatedTs now with heq | heq
        · rw [heq]
          exact fun hupdated => Int.le_trans (hzero hupdated) hlater
        · rw [heq]
          omega
      have hforward : creditOf closes recoverSeconds left since ≤
          creditOf closes recoverSeconds charges (orDefault (some updatedTs) now) :=
        recoverCharges_credit hperiod hrecovered hcharges hspace hstart hopen
      have hupdated : updatedTs ≤ orDefault (some updatedTs) now :=
        le_orDefault fun hnone => Int.le_trans (hzero hnone) hlater
      have hkept : creditOf closes recoverSeconds charges (orDefault (some updatedTs) now) ≤
          creditOf closes recoverSeconds charges updatedTs := creditOf_anti hperiod hupdated
      show _ ≤ (creditOf closes recoverSeconds charges updatedTs).toNat
      omega

/-- The first draw of a window finds a full bucket at best. -/
theorem draw_first (hmax : 1 ≤ chargeMax) (hperiod : 1 ≤ recoverSeconds) {opens length : Int}
    (hopens : opens ≤ now) (hcloses : now ≤ opens + length) :
    (b.draw now chargeMax recoverSeconds).2.Drawn chargeMax now ∧
      grantOf (b.draw now chargeMax recoverSeconds).1 +
          (b.draw now chargeMax recoverSeconds).2.credit (opens + length) recoverSeconds ≤
        (chargeMax + length / recoverSeconds).toNat := by
  cases hrecovered : b.recovered now chargeMax recoverSeconds with
  | mk left since =>
  obtain ⟨hdrawn, hpays⟩ := draw_pays (opens + length) hmax hperiod hrecovered
  refine ⟨hdrawn, Nat.le_trans hpays ?_⟩
  obtain ⟨hleft, hcap, hsettled, hfull, -⟩ := recovered_spec hmax hperiod hrecovered
  have hbound : creditOf (opens + length) recoverSeconds left since ≤
      chargeMax + length / recoverSeconds := by
    unfold creditOf
    by_cases hcapped : chargeMax ≤ left
    · have hsince := hfull hcapped
      have : max 0 (opens + length - since) / recoverSeconds ≤ length / recoverSeconds :=
        Int.ediv_le_ediv (by omega) (by omega)
      omega
    · have hperiods : max 0 (opens + length - since) / recoverSeconds ≤
          (length + 1 * recoverSeconds) / recoverSeconds :=
        Int.ediv_le_ediv (by omega) (by omega)
      rw [Int.add_mul_ediv_right _ _ (by omega)] at hperiods
      omega
  omega

/-! ### The stored charges -/

/-- The row of the user holds the charges of the answer, and no other row is touched. -/
theorem consumeRoastUsage_row (e : Env) (userId : String) (nowTs : Option Rat)
    (cooldownSeconds maxCharges : Option Int) (db : Db)
    (hsettings : clampChargeSettings maxCharges cooldownSeconds = (chargeMax, recoverSeconds)) :
    let result := consumeRoastUsage e userId nowTs cooldownSeconds maxCharges db
    (0 ≤ result.1.chargesLeft ∧ result.1.chargesLeft ≤ chargeMax) ∧
      ∃ row, row.roastCharges = some result.1.chargesLeft ∧
        ∀ user, result.2.usage? user = if user = userId then some row else db.usage? user := by
  obtain ⟨hmax, hperiod⟩ := clampChargeSettings_pos maxCharges cooldownSeconds
  rw [hsettings] at hmax hperiod
  have hsettled : ∀ charges updatedTs,
      let state := recoverCharges charges updatedTs (requestSeconds e nowTs) chargeMax recoverSeconds
      0 ≤ state.1 ∧ state.1 ≤ chargeMax := by
    intro charges updatedTs state
    obtain ⟨hleft, hcap, -⟩ := recoverCharges_settled hmax hperiod (Prod.eta state).symm
    exact ⟨by omega, hcap⟩
  unfold consumeRoastUsage
  rw [hsettings]
  cases husage : db.usage? userId with
  | none =>
      dsimp only
      exact ⟨by omega, _, rfl, usage?_insert husage⟩
  | some usage =>
      have hid : usage.userId = userId := (Tables.lookup_some husage).2
      have hwritten : ∀ row : UserUsage, row.userId = usage.userId →
          ∀ user, (db.flushUsage row).usage? user =
            if user = userId then some row else db.usage? user := by
        intro row hrow user
        rw [usage?_flushUsage (by rw [hrow, hid]; exact husage), hrow, hid]
      -- a refused draw leaves nothing, and answers so
      have hnothing : ∀ left : Int, 0 ≤ left → left ≤ 0 → left = 0 := fun left h h' => by omega
      dsimp only
      split
      · rename_i charges updatedTs _ _
        obtain ⟨hleft, hcap⟩ := hsettled charges (orDefault (some updatedTs) (requestSeconds e nowTs))
        dsimp only at hleft hcap ⊢
        split_ifs with hempty hfull
        · exact ⟨by dsimp only; omega, _, congrArg some (hnothing _ hleft hempty), hwritten _ rfl⟩
        · exact ⟨by dsimp only; omega, _, rfl, hwritten _ rfl⟩
        · exact ⟨by dsimp only; omega, _, rfl, hwritten _ rfl⟩
      · obtain ⟨hleft, hcap⟩ := hsettled (stateFromLegacyLastUse (usage.lastRoastTs.getD 0)
          (requestSeconds e nowTs) chargeMax recoverSeconds).1 (stateFromLegacyLastUse
            (usage.lastRoastTs.getD 0) (requestSeconds e nowTs) chargeMax recoverSeconds).2
        split_ifs with hempty hfull
        · exact ⟨by dsimp only; omega, _, congrArg some (hnothing _ hleft hempty), hwritten _ rfl⟩
        · exact ⟨by dsimp only; omega, _, rfl, hwritten _ rfl⟩
        · exact ⟨by dsimp only; omega, _, rfl, hwritten _ rfl⟩

/-! ### Runs of consume calls -/

def callTime (call : Env × ConsumeRoastRequest) : Int := requestSeconds call.1 call.2.nowTs

/-- Consume calls against the database; what is counted are the grants of one user. -/
def roastGrants (userId : String) : Machine (Env × ConsumeRoastRequest) ConsumeRoastResponse Db where
  step := consumeRoast
  time := callTime
  granted call answer := call.2.userId = userId && answer.allowed

/-- The same calls on one bucket. -/
def bucketGrants : Machine (Env × ConsumeRoastRequest) ConsumeRoastResponse Bucket where
  step := Bucket.serve
  time := callTime
  granted _ answer := answer.allowed

/-- The database after some consume calls. -/
def afterRoasts (calls : List (Env × ConsumeRoastRequest)) (db : Db) : Db :=
  calls.foldl (fun db call => (consumeRoast call db).2) db

/-- The calls of the user come in the order of their times and with the same settings. -/
structure SteadyCalls (userId : String) (chargeMax recoverSeconds : Int)
    (calls : List (Env × ConsumeRoastRequest)) : Prop where
  settings : ∀ call ∈ calls, call.2.userId = userId →
    clampChargeSettings call.2.maxCharges call.2.cooldownSeconds = (chargeMax, recoverSeconds)
  sorted : (calls.filter (·.2.userId = userId)).Pairwise fun call call' =>
    callTime call ≤ callTime call'

/-- The grants of a user are those of the user's bucket. -/
theorem roastGrants_bucket (userId : String) (opens closes : Int)
    (calls : List (Env × ConsumeRoastRequest)) (db : Db) :
    (roastGrants userId).grants opens closes calls db =
      bucketGrants.grants opens closes (calls.filter (·.2.userId = userId))
        (bucketOf (db.usage? userId)) := by
  refine Machine.grants_view bucketGrants _ (fun db => bucketOf (db.usage? userId)) ?_ ?_ calls db
  · intro call db huser
    simp only [decide_eq_true_eq] at huser
    obtain ⟨hanswer, hbuckets⟩ := consumeRoast_serve call db
    rw [huser] at hanswer hbuckets
    refine ⟨?_, ?_⟩
    · simp only [Machine.grant, roastGrants, bucketGrants, huser, hanswer, decide_true,
        Bool.true_and]
      congr
    · show bucketOf ((consumeRoast call db).2.usage? userId) = _
      rw [hbuckets, if_pos rfl]
      rfl
  · intro call db huser
    simp only [decide_eq_false_iff_not] at huser
    obtain ⟨-, hbuckets⟩ := consumeRoast_serve call db
    refine ⟨?_, ?_⟩
    · simp [Machine.grant, roastGrants, huser]
    · show bucketOf ((consumeRoast call db).2.usage? userId) = _
      rw [hbuckets, if_neg (Ne.symm huser)]

/-- **A bucket keeps to its window.** -/
theorem bucketGrants_le (hmax : 1 ≤ chargeMax) (hperiod : 1 ≤ recoverSeconds)
    {calls : List (Env × ConsumeRoastRequest)}
    (hsettings : ∀ call ∈ calls, clampChargeSettings call.2.maxCharges call.2.cooldownSeconds =
      (chargeMax, recoverSeconds))
    (hsorted : calls.Pairwise fun call call' => callTime call ≤ callTime call')
    (opens length : Int) (b : Bucket) :
    bucketGrants.grants opens (opens + length) calls b ≤
      (chargeMax + length / recoverSeconds).toNat := by
  have hserve : ∀ call ∈ calls, ∀ b, bucketGrants.step call b =
      b.draw (bucketGrants.time call) chargeMax recoverSeconds := by
    intro call hcall b
    show b.draw _ _ _ = _
    rw [hsettings call hcall]
    rfl
  have hgrant : ∀ call b, bucketGrants.grant opens (opens + length) call b ≤
      grantOf (bucketGrants.step call b).1 := by
    intro call b
    show (if _ then 1 else 0) ≤ if _ then 1 else 0
    split_ifs with hcounted hallowed
    · exact Nat.le_refl _
    · exact absurd hcounted.1 hallowed
    · exact Nat.zero_le _
    · exact Nat.le_refl _
  have hcredit : bucketGrants.Credit opens (opens + length) calls
      (fun t b => b.Drawn chargeMax t) (Bucket.credit (opens + length) recoverSeconds) := by
    refine ⟨fun call hcall b t hdrawn hlater hopen => ?_⟩
    have hcounted := hgrant call b
    obtain ⟨hready, hpays⟩ := draw_drawn hmax hperiod hdrawn hlater hopen
    rw [hserve call hcall] at hcounted ⊢
    exact ⟨hready, by omega⟩
  refine hcredit.window_le hsorted (fun call hcall b hopens hcloses => ?_) b
  have hcounted := hgrant call b
  obtain ⟨hready, hpays⟩ := draw_first (b := b) hmax hperiod hopens hcloses
  rw [hserve call hcall] at hcounted ⊢
  exact ⟨hready, by omega⟩

/-- After a call of the user the stored charges fit the bucket. -/
theorem afterRoasts_charges {calls : List (Env × ConsumeRoastRequest)}
    (hsettings : ∀ call ∈ calls, call.2.userId = userId →
      clampChargeSettings call.2.maxCharges call.2.cooldownSeconds = (chargeMax, recoverSeconds))
    (hcalled : ∃ call ∈ calls, call.2.userId = userId) :
    ∃ row charges, (afterRoasts calls db).usage? userId = some row ∧
      row.roastCharges = some charges ∧ 0 ≤ charges ∧ charges ≤ chargeMax := by
  induction calls using List.reverseRec with
  | nil => simp at hcalled
  | append_singleton before call ih =>
      unfold afterRoasts at ih ⊢
      rw [List.foldl_append, List.foldl_cons, List.foldl_nil]
      by_cases huser : call.2.userId = userId
      · obtain ⟨hcharges, row, hrow, hlookup⟩ := consumeRoastUsage_row call.1 call.2.userId
          call.2.nowTs call.2.cooldownSeconds call.2.maxCharges
          (before.foldl (fun db call => (consumeRoast call db).2) db)
          (hsettings call (by simp) huser)
        refine ⟨row, _, ?_, hrow, hcharges⟩
        exact (hlookup userId).trans (if_pos huser.symm)
      · obtain ⟨-, other, -, hlookup⟩ := consumeRoastUsage_row call.1 call.2.userId
          call.2.nowTs call.2.cooldownSeconds call.2.maxCharges
          (before.foldl (fun db call => (consumeRoast call db).2) db) (Prod.eta _).symm
        have hbefore : ∃ call ∈ before, call.2.userId = userId := by
          obtain ⟨own, hmem, hown⟩ := hcalled
          rcases List.mem_append.mp hmem with hthere | hlast
          · exact ⟨own, hthere, hown⟩
          · rw [List.mem_singleton.mp hlast] at hown
            exact absurd hown huser
        obtain ⟨row, charges, hstored, hrest⟩ := ih
          (fun call hcall => hsettings call (List.mem_append_left _ hcall)) hbefore
        refine ⟨row, charges, ?_, hrest⟩
        exact ((hlookup userId).trans (if_neg (Ne.symm huser))).trans hstored

/-- **Roasts within a window**: whatever was stored for the user before, the calls of the user
between two times are granted the capacity and one more for each period, and no call leaves
charges below zero or beyond the capacity. -/
theorem roast_window (userId : String) (hmax : 1 ≤ chargeMax) (hperiod : 1 ≤ recoverSeconds)
    {calls : List (Env × ConsumeRoastRequest)}
    (hcalls : SteadyCalls userId chargeMax recoverSeconds calls) (db : Db) :
    (∀ opens length, 0 ≤ length →
      ((roastGrants userId).grants opens (opens + length) calls db : Int) ≤
        chargeMax + length / recoverSeconds) ∧
      ∀ before, before <+: calls → (∃ call ∈ before, call.2.userId = userId) →
        ∃ row charges, (afterRoasts before db).usage? userId = some row ∧
          row.roastCharges = some charges ∧ 0 ≤ charges ∧ charges ≤ chargeMax := by
  refine ⟨fun opens length hlength => ?_, fun before hbefore hcalled => ?_⟩
  · have hperiods : 0 ≤ length / recoverSeconds := Int.ediv_nonneg hlength (by omega)
    have hsettings : ∀ call ∈ calls.filter (·.2.userId = userId),
        clampChargeSettings call.2.maxCharges call.2.cooldownSeconds =
          (chargeMax, recoverSeconds) := by
      intro call hcall
      obtain ⟨hmem, huser⟩ := List.mem_filter.mp hcall
      exact hcalls.settings call hmem (by simpa using huser)
    have hbucket := bucketGrants_le hmax hperiod hsettings hcalls.sorted opens length
      (bucketOf (db.usage? userId))
    rw [roastGrants_bucket]
    omega
  · exact afterRoasts_charges
      (fun call hcall => hcalls.settings call (hbefore.subset hcall)) hcalled

/-- User 1 draws three times at once from two charges, and again a minute later. -/
def hastyCalls : List (Env × ConsumeRoastRequest) :=
  [1000, 1000, 1000, 1060].map fun t =>
    ({ now := 0, dbNow := 0, uuid := fun _ => "" },
      { userId := "1", nowTs := some t, cooldownSeconds := some 60, maxCharges := some 2 })

theorem roast_window_hasty :
    (∀ opens length, 0 ≤ length →
      ((roastGrants "1").grants opens (opens + length) hastyCalls {} : Int) ≤ 2 + length / 60) ∧
      ∀ before, before <+: hastyCalls → (∃ call ∈ before, call.2.userId = "1") →
        ∃ row charges, (afterRoasts before {}).usage? "1" = some row ∧
          row.roastCharges = some charges ∧ 0 ≤ charges ∧ charges ≤ 2 :=
  roast_window "1" (by decide) (by decide)
    ⟨by decide +kernel, by decide +kernel⟩ {}

example : (roastGrants "1").grants 1000 1059 hastyCalls {} = 2 := by decide +kernel

end RollPig
