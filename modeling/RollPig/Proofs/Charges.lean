/-
What a user has left: roast charges and the force of the day.

The columns of `user_usage` are an encoding.  A row without charges stands for a full
bucket or for one last use, no row at all for a full bucket, and a bucket is brought
forward only when somebody draws from it.  `Bucket` is what the columns mean, and
`Bucket.draw` is the consumption on it; `consumeRoastUsage_draw` says that the stored
consumption is nothing else.  A refused draw leaves the bucket as it was, so nobody can
tell it was tried.
-/
import RollPig.Services.Usage
import RollPig.Transition
import Mathlib.Logic.Function.Basic

namespace RollPig

open Transition (answers answers_eq)

variable {e : Env} {db db' : Db} {userId : String} {date : Date}

/-! ### Buckets -/

/-- The roast charges of a user: the last use, from before charges were counted, or the
charges and the time they are counted from. -/
inductive Bucket
  | uncounted (lastUse : Int)
  | counted (charges updatedTs : Int)
deriving DecidableEq

/-- The bucket a usage row stands for. -/
def bucketOf : Option UserUsage → Bucket
  | none => .uncounted 0
  | some usage =>
      match usage.roastCharges, usage.roastChargeUpdatedTs with
      | some charges, some updatedTs => .counted (max 0 charges) updatedTs
      | _, _ => .uncounted (usage.lastRoastTs.getD 0)

/-- The charges at a time, and the time they are counted from. -/
def Bucket.recovered (now chargeMax recoverSeconds : Int) : Bucket → Int × Int
  | .uncounted lastUse =>
      let state := stateFromLegacyLastUse lastUse now chargeMax recoverSeconds
      recoverCharges state.1 state.2 now chargeMax recoverSeconds
  | .counted charges updatedTs =>
      recoverCharges charges (orDefault (some updatedTs) now) now chargeMax recoverSeconds

/-- Draw one charge. -/
def Bucket.draw (now chargeMax recoverSeconds : Int) (b : Bucket) : ConsumeRoastResponse × Bucket :=
  let (charges, updatedTs) := b.recovered now chargeMax recoverSeconds
  if charges ≤ 0 then
    let remaining := nextRecoverSeconds charges updatedTs now chargeMax recoverSeconds
    ({ allowed := false, remainingSeconds := remaining, chargesLeft := 0, maxCharges := chargeMax,
       nextRecoverSeconds := remaining }, .counted (max 0 charges) updatedTs)
  else
    let updatedTs := if chargeMax ≤ charges then now else updatedTs
    ({ allowed := true, chargesLeft := charges - 1, maxCharges := chargeMax,
       nextRecoverSeconds :=
         nextRecoverSeconds (charges - 1) updatedTs now chargeMax recoverSeconds },
     .counted (max 0 (charges - 1)) updatedTs)

/-- Nothing in the bucket is below zero, and it is counted from a real time. -/
def Bucket.Stamped : Bucket → Prop
  | .uncounted _ => True
  | .counted charges updatedTs => 0 ≤ charges ∧ 1 ≤ updatedTs

theorem orDefault_eq (n fallback : Int) :
    orDefault (some n) fallback = n ∨ orDefault (some n) fallback = fallback := by
  by_cases hzero : n = 0
  · exact Or.inr (if_pos hzero)
  · exact Or.inl (if_neg hzero)

theorem orDefault_pos {n fallback : Int} (h : 1 ≤ n) : orDefault (some n) fallback = n :=
  if_neg (by omega)

variable {now chargeMax recoverSeconds : Int} {b : Bucket}

/-! ### Recovering -/

/-- Below zero nothing was ever counted. -/
theorem recoverCharges_max (hmax : 1 ≤ chargeMax) (charges updatedTs : Int) :
    recoverCharges (max 0 charges) updatedTs now chargeMax recoverSeconds =
      recoverCharges charges updatedTs now chargeMax recoverSeconds := by
  have hcap : max 0 (min chargeMax (max 0 charges)) = max 0 (min chargeMax charges) := by omega
  unfold recoverCharges
  rw [hcap]

/-- What is left after a recovery fits the bucket, and less than a period has passed since
the time it is counted from. -/
theorem recoverCharges_settled (hmax : 1 ≤ chargeMax) (hperiod : 1 ≤ recoverSeconds)
    {charges updatedTs left since : Int}
    (h : recoverCharges charges updatedTs now chargeMax recoverSeconds = (left, since)) :
    max 0 (min chargeMax charges) ≤ left ∧ left ≤ chargeMax ∧
      max 0 (now - since) < recoverSeconds := by
  unfold recoverCharges at h
  dsimp only at h
  set start := orDefault (some updatedTs) now
  set elapsed := max 0 (now - start) with helapsed
  have hdiv : elapsed / recoverSeconds * recoverSeconds + elapsed % recoverSeconds = elapsed :=
    Int.ediv_mul_add_emod elapsed recoverSeconds
  have hmod : elapsed % recoverSeconds < recoverSeconds := Int.emod_lt_of_pos _ (by omega)
  have hmod' : 0 ≤ elapsed % recoverSeconds := Int.emod_nonneg _ (by omega)
  split_ifs at h with hfull hnone hfilled
  · obtain ⟨rfl, rfl⟩ := Prod.mk.inj h
    omega
  · obtain ⟨rfl, rfl⟩ := Prod.mk.inj h
    have hzero : elapsed / recoverSeconds = 0 :=
      Int.le_antisymm hnone (Int.ediv_nonneg (by omega) (by omega))
    rw [hzero, Int.zero_mul] at hdiv
    omega
  · obtain ⟨rfl, rfl⟩ := Prod.mk.inj h
    omega
  · obtain ⟨rfl, rfl⟩ := Prod.mk.inj h
    omega

/-- Only an empty bucket is empty afterwards, and it is counted from the same time on. -/
theorem recoverCharges_empty (hmax : 1 ≤ chargeMax) {charges updatedTs left since : Int}
    (h : recoverCharges charges updatedTs now chargeMax recoverSeconds = (left, since))
    (hempty : left ≤ 0) :
    charges ≤ 0 ∧ left = 0 ∧ since = orDefault (some updatedTs) now := by
  unfold recoverCharges at h
  dsimp only at h
  split_ifs at h with hfull hnone hfilled <;> obtain ⟨rfl, rfl⟩ := Prod.mk.inj h
  · omega
  · exact ⟨by omega, by omega, rfl⟩
  · omega
  · omega

/-- Within a period nothing recovers. -/
theorem recoverCharges_recent {charges updatedTs : Int} (hcharges : 0 ≤ charges)
    (hspace : charges < chargeMax)
    (hrecent : max 0 (now - orDefault (some updatedTs) now) < recoverSeconds) :
    recoverCharges charges updatedTs now chargeMax recoverSeconds =
      (charges, orDefault (some updatedTs) now) := by
  have hcap : max 0 (min chargeMax charges) = charges := by omega
  have hnone : max 0 (now - orDefault (some updatedTs) now) / recoverSeconds = 0 :=
    Int.ediv_eq_zero_of_lt (by omega) hrecent
  unfold recoverCharges
  simp only [hcap, hnone, Int.le_refl, if_true]
  exact if_neg (by omega)

/-- One use, however recent, leaves at least one charge. -/
theorem stateFromLegacyLastUse_pos (hmax : 1 ≤ chargeMax) (hperiod : 1 ≤ recoverSeconds)
    (lastUse : Int) : 1 ≤ (stateFromLegacyLastUse lastUse now chargeMax recoverSeconds).1 := by
  unfold stateFromLegacyLastUse
  by_cases hnever : lastUse ≤ 0
  · rw [if_pos hnever]
    exact hmax
  · rw [if_neg hnever]
    have hrecovered : 0 ≤ max 0 (now - lastUse) / recoverSeconds :=
      Int.ediv_nonneg (by omega) (by omega)
    show 1 ≤ min chargeMax (1 + max 0 (now - lastUse) / recoverSeconds)
    omega

/-- A bucket without a last use is full. -/
theorem recovered_unused :
    (Bucket.uncounted 0).recovered now chargeMax recoverSeconds = (chargeMax, now) := by
  simp [Bucket.recovered, stateFromLegacyLastUse, recoverCharges]

/-! ### Drawing -/

theorem draw_empty {left since : Int}
    (h : b.recovered now chargeMax recoverSeconds = (left, since)) (hempty : left ≤ 0) :
    (b.draw now chargeMax recoverSeconds).1.allowed = false ∧
      (b.draw now chargeMax recoverSeconds).2 = .counted (max 0 left) since := by
  simp [Bucket.draw, h, if_pos hempty]

theorem draw_left {left since : Int}
    (h : b.recovered now chargeMax recoverSeconds = (left, since)) (hleft : 0 < left) :
    (b.draw now chargeMax recoverSeconds).1.allowed = true ∧
      (b.draw now chargeMax recoverSeconds).1.chargesLeft = left - 1 ∧
      (b.draw now chargeMax recoverSeconds).2 =
        .counted (max 0 (left - 1)) (if chargeMax ≤ left then now else since) := by
  simp [Bucket.draw, h, if_neg (Int.not_le.mpr hleft)]

/-- **A refused draw leaves the bucket as it was.** -/
theorem draw_refused (hmax : 1 ≤ chargeMax) (hperiod : 1 ≤ recoverSeconds) (hb : b.Stamped)
    (hrefused : (b.draw now chargeMax recoverSeconds).1.allowed = false) :
    (b.draw now chargeMax recoverSeconds).2 = b := by
  cases hrecovered : b.recovered now chargeMax recoverSeconds with
  | mk left since =>
  by_cases hempty : left ≤ 0
  · rw [(draw_empty hrecovered hempty).2]
    cases b with
    | uncounted lastUse =>
        have hpos : 1 ≤ (stateFromLegacyLastUse lastUse now chargeMax recoverSeconds).1 :=
          stateFromLegacyLastUse_pos hmax hperiod lastUse
        have hnone : (stateFromLegacyLastUse lastUse now chargeMax recoverSeconds).1 ≤ 0 :=
          (recoverCharges_empty hmax hrecovered hempty).1
        omega
    | counted charges updatedTs =>
        obtain ⟨hcharges, hupdated⟩ := hb
        obtain ⟨hnone, hzero, hsince⟩ := recoverCharges_empty hmax hrecovered hempty
        rw [orDefault_pos hupdated, orDefault_pos hupdated] at hsince
        obtain rfl : charges = 0 := Int.le_antisymm hnone hcharges
        rw [hzero, hsince]
        rfl
  · rw [(draw_left hrecovered (by omega)).1] at hrefused
    exact absurd hrefused (by simp)

/-- **A draw that is allowed can be told from none**: the same draw at once finds one
charge less. -/
theorem draw_allowed (hmax : 1 ≤ chargeMax) (hperiod : 1 ≤ recoverSeconds)
    (hallowed : (b.draw now chargeMax recoverSeconds).1.allowed = true) :
    ((b.draw now chargeMax recoverSeconds).2.draw now chargeMax recoverSeconds).1 ≠
      (b.draw now chargeMax recoverSeconds).1 := by
  cases hrecovered : b.recovered now chargeMax recoverSeconds with
  | mk left since =>
  by_cases hempty : left ≤ 0
  · rw [(draw_empty hrecovered hempty).1] at hallowed
    exact absurd hallowed (by simp)
  · obtain ⟨-, hcharges, hnext⟩ := draw_left hrecovered (by omega)
    have hsettled : left ≤ chargeMax ∧ max 0 (now - since) < recoverSeconds := by
      cases b with
      | uncounted lastUse => exact (recoverCharges_settled hmax hperiod hrecovered).2
      | counted charges updatedTs => exact (recoverCharges_settled hmax hperiod hrecovered).2
    set since' := if chargeMax ≤ left then now else since with hsince'
    have hrecent : max 0 (now - orDefault (some (orDefault (some since') now)) now) <
        recoverSeconds := by
      have hpresent : max 0 (now - since') < recoverSeconds := by
        rw [hsince']
        split_ifs <;> omega
      rcases orDefault_eq (orDefault (some since') now) now with heq | heq
      · rw [heq]
        rcases orDefault_eq since' now with heq' | heq' <;> rw [heq'] <;> omega
      · rw [heq]
        omega
    have hagain : (Bucket.counted (max 0 (left - 1)) since').recovered now chargeMax
        recoverSeconds = (left - 1, orDefault (some (orDefault (some since') now)) now) := by
      have hleft : max 0 (left - 1) = left - 1 := by omega
      rw [hleft]
      exact recoverCharges_recent (by omega) (by omega) hrecent
    intro hsame
    rw [hnext] at hsame
    by_cases hlast : left - 1 ≤ 0
    · have hrefused := (draw_empty hagain hlast).1
      rw [hsame, hallowed] at hrefused
      exact absurd hrefused (by simp)
    · have hfewer := (draw_left hagain (by omega)).2.1
      rw [hsame, hcharges] at hfewer
      omega

/-! ### The stored charges -/

theorem bucketOf_stamped {usage : Option UserUsage}
    (h : ∀ row ∈ usage, ∀ t ∈ row.roastChargeUpdatedTs, 1 ≤ t) : (bucketOf usage).Stamped := by
  cases usage with
  | none => trivial
  | some row =>
      unfold bucketOf
      dsimp only
      split
      · rename_i charges updatedTs hcharges hupdated
        exact ⟨by omega, h row rfl updatedTs hupdated⟩
      · trivial

theorem usage?_insert {row : UserUsage} (hnew : db.usage? row.userId = none) (user : String) :
    ({ db with userUsage := db.userUsage ++ [row] } : Db).usage? user =
      if user = row.userId then some row else db.usage? user :=
  Tables.lookup_insert (Tables.lookup_none.mp hnew) user

theorem usage?_flushUsage {usage row : UserUsage} (hold : db.usage? row.userId = some usage)
    (user : String) :
    (db.flushUsage row).usage? user = if user = row.userId then some row else db.usage? user := by
  refine Tables.lookup_writeBack ?_ user
  obtain ⟨hmem, hkey⟩ := Tables.lookup_some hold
  exact hkey ▸ List.mem_map_of_mem hmem

theorem clampChargeSettings_pos (maxCharges recoverSeconds : Option Int) :
    1 ≤ (clampChargeSettings maxCharges recoverSeconds).1 ∧
      1 ≤ (clampChargeSettings maxCharges recoverSeconds).2 := by
  simp only [clampChargeSettings]
  omega

/-- A row without counted charges. -/
theorem bucketOf_uncounted {usage : UserUsage}
    (h : ∀ charges updatedTs, usage.roastCharges = some charges →
      usage.roastChargeUpdatedTs = some updatedTs → False) :
    bucketOf (some usage) = .uncounted (usage.lastRoastTs.getD 0) := by
  unfold bucketOf
  dsimp only
  split
  · rename_i charges updatedTs hcharges hupdated
    exact absurd hupdated fun hupdated => h charges updatedTs hcharges hupdated
  · rfl

theorem bucketOf_counted {usage : UserUsage} {charges updatedTs : Int}
    (hcharges : usage.roastCharges = some charges)
    (hupdated : usage.roastChargeUpdatedTs = some updatedTs) :
    bucketOf (some usage) = .counted (max 0 charges) updatedTs := by
  simp only [bucketOf, hcharges, hupdated]

/-- **The stored consumption draws from the user's bucket**, and touches no other one. -/
theorem consumeRoastUsage_draw (e : Env) (userId : String) (nowTs : Option Rat)
    (cooldownSeconds maxCharges : Option Int) (db : Db)
    (hsettings : clampChargeSettings maxCharges cooldownSeconds = (chargeMax, recoverSeconds)) :
    let result := consumeRoastUsage e userId nowTs cooldownSeconds maxCharges db
    let drawn := (bucketOf (db.usage? userId)).draw (requestSeconds e nowTs) chargeMax recoverSeconds
    result.1 = drawn.1 ∧ ∀ user, bucketOf (result.2.usage? user) =
      if user = userId then drawn.2 else bucketOf (db.usage? user) := by
  have hmax : 1 ≤ chargeMax := by
    have hpos := (clampChargeSettings_pos maxCharges cooldownSeconds).1
    rwa [hsettings] at hpos
  unfold consumeRoastUsage Bucket.draw
  rw [hsettings]
  cases husage : db.usage? userId with
  | none =>
      have hleft : max 0 (chargeMax - 1) = chargeMax - 1 := by omega
      have hfull : (bucketOf none).recovered (requestSeconds e nowTs) chargeMax recoverSeconds =
          (chargeMax, requestSeconds e nowTs) := recovered_unused
      simp only [hfull, if_neg (show ¬ chargeMax ≤ 0 by omega), Int.le_refl, if_true, hleft]
      refine ⟨trivial, fun user => ?_⟩
      rw [usage?_insert husage]
      split_ifs
      · simp only [bucketOf, hleft]
      · rfl
  | some usage =>
      have hid : usage.userId = userId := (Tables.lookup_some husage).2
      have hwritten : ∀ (row : UserUsage) (b : Bucket), row.userId = usage.userId →
          bucketOf (some row) = b → ∀ user, bucketOf ((db.flushUsage row).usage? user) =
            if user = userId then b else bucketOf (db.usage? user) := by
        intro row b hrow hb user
        rw [usage?_flushUsage (by rw [hrow, hid]; exact husage), hrow, hid]
        split_ifs
        · exact hb
        · rfl
      dsimp only
      split
      · rename_i charges updatedTs hcharges hupdated
        rw [bucketOf_counted hcharges hupdated, Bucket.recovered, recoverCharges_max hmax]
        split_ifs <;> exact ⟨rfl, hwritten _ _ rfl rfl⟩
      · rename_i huncounted
        rw [bucketOf_uncounted huncounted, Bucket.recovered]
        split_ifs <;> exact ⟨rfl, hwritten _ _ rfl rfl⟩

/-! ### What anybody can see of the charges -/

/-- A consume call of some user at some time. -/
def consumeRoast (call : Env × ConsumeRoastRequest) (db : Db) : ConsumeRoastResponse × Db :=
  consumeRoastUsage call.1 call.2.userId call.2.nowTs call.2.cooldownSeconds call.2.maxCharges db

/-- The same call on the user's bucket. -/
def Bucket.serve (call : Env × ConsumeRoastRequest) (b : Bucket) : ConsumeRoastResponse × Bucket :=
  b.draw (requestSeconds call.1 call.2.nowTs)
    (clampChargeSettings call.2.maxCharges call.2.cooldownSeconds).1
    (clampChargeSettings call.2.maxCharges call.2.cooldownSeconds).2

theorem consumeRoast_serve (call : Env × ConsumeRoastRequest) (db : Db) :
    (consumeRoast call db).1 = ((bucketOf (db.usage? call.2.userId)).serve call).1 ∧
      ∀ user, bucketOf ((consumeRoast call db).2.usage? user) =
        if user = call.2.userId then ((bucketOf (db.usage? call.2.userId)).serve call).2
        else bucketOf (db.usage? user) :=
  consumeRoastUsage_draw call.1 call.2.userId call.2.nowTs call.2.cooldownSeconds
    call.2.maxCharges db (Prod.eta _).symm

/-- No consume calls, however many, tell the two databases apart. -/
def SameCharges (db db' : Db) : Prop :=
  ∀ calls, answers consumeRoast calls db' = answers consumeRoast calls db

/-- **Charges are no more than the buckets.** -/
theorem sameCharges_of_buckets
    (h : ∀ user, bucketOf (db'.usage? user) = bucketOf (db.usage? user)) : SameCharges db db' := by
  intro calls
  refine answers_eq
    (R := fun db' db => ∀ user, bucketOf (db'.usage? user) = bucketOf (db.usage? user)) ?_ calls h
  intro call db' db hsame
  obtain ⟨hanswer', hbuckets'⟩ := consumeRoast_serve call db'
  obtain ⟨hanswer, hbuckets⟩ := consumeRoast_serve call db
  refine ⟨?_, fun user => ?_⟩
  · rw [hanswer', hanswer, hsame]
  · rw [hbuckets', hbuckets, hsame, hsame]

/-- The same buckets give the same answer, and the same charges afterwards. -/
theorem consumeRoast_congr (h : db'.userUsage = db.userUsage)
    (call : Env × ConsumeRoastRequest) :
    (consumeRoast call db').1 = (consumeRoast call db).1 ∧
      SameCharges (consumeRoast call db).2 (consumeRoast call db').2 := by
  have hlookup : ∀ user, db'.usage? user = db.usage? user := by
    intro user
    unfold Db.usage?
    rw [h]
  obtain ⟨hanswer', hbuckets'⟩ := consumeRoast_serve call db'
  obtain ⟨hanswer, hbuckets⟩ := consumeRoast_serve call db
  refine ⟨?_, sameCharges_of_buckets fun user => ?_⟩
  · rw [hanswer', hanswer, hlookup]
  · rw [hbuckets', hbuckets, hlookup, hlookup]

theorem SameCharges.symm (h : SameCharges db db') : SameCharges db' db :=
  fun calls => (h calls).symm

theorem SameCharges.trans {db'' : Db} (h : SameCharges db db') (h' : SameCharges db' db'') :
    SameCharges db db'' :=
  fun calls => (h' calls).trans (h calls)

theorem SameCharges.of_usage (h : db'.userUsage = db.userUsage) : SameCharges db db' := by
  refine sameCharges_of_buckets fun user => ?_
  unfold Db.usage?
  rw [h]

/-- The times stored with the charges are real ones. -/
def Db.Stamped (db : Db) : Prop :=
  ∀ row ∈ db.userUsage, ∀ t ∈ row.roastChargeUpdatedTs, 1 ≤ t

instance : Decidable db.Stamped := by
  unfold Db.Stamped
  infer_instance

theorem Db.Stamped.bucket (h : db.Stamped) (user : String) : (bucketOf (db.usage? user)).Stamped :=
  bucketOf_stamped fun row hrow => h row (Tables.lookup_some hrow).1

/-- A refused consumption cannot be noticed. -/
theorem consumeRoast_refused (h : db.Stamped) {call : Env × ConsumeRoastRequest}
    (hrefused : (consumeRoast call db).1.allowed = false) :
    SameCharges db (consumeRoast call db).2 := by
  obtain ⟨hanswer, hbuckets⟩ := consumeRoast_serve call db
  obtain ⟨hmax, hperiod⟩ := clampChargeSettings_pos call.2.maxCharges call.2.cooldownSeconds
  rw [hanswer] at hrefused
  refine sameCharges_of_buckets fun user => ?_
  have hkept : ((bucketOf (db.usage? call.2.userId)).serve call).2 =
      bucketOf (db.usage? call.2.userId) := draw_refused hmax hperiod (h.bucket _) hrefused
  rw [hbuckets, hkept]
  split_ifs with huser
  · rw [huser]
  · rfl

/-- One that is allowed can. -/
theorem consumeRoast_allowed {call : Env × ConsumeRoastRequest}
    (hallowed : (consumeRoast call db).1.allowed = true) :
    ¬ SameCharges db (consumeRoast call db).2 := by
  obtain ⟨hanswer, hbuckets⟩ := consumeRoast_serve call db
  obtain ⟨hanswer', -⟩ := consumeRoast_serve call (consumeRoast call db).2
  obtain ⟨hmax, hperiod⟩ := clampChargeSettings_pos call.2.maxCharges call.2.cooldownSeconds
  intro hsame
  have hagain : (consumeRoast call (consumeRoast call db).2).1 = (consumeRoast call db).1 :=
    List.singleton_inj.mp (hsame [call])
  rw [hanswer', hanswer, hbuckets, if_pos rfl] at hagain
  rw [hanswer] at hallowed
  exact draw_allowed hmax hperiod hallowed hagain

/-! ### The force of the day -/

/-- The day a user last used the force on. -/
def forceDay (db : Db) (user : String) : Option Date :=
  (db.usage? user).bind (·.lastForceDate)

theorem forceDay_of_usage (h : db'.userUsage = db.userUsage) : forceDay db' = forceDay db := by
  funext user
  unfold forceDay Db.usage?
  rw [h]

/-- A granted force use marks the day for this user, and leaves the charges alone. -/
theorem consumeForceUsage_day (h : consumeForceUsage userId date db = some db') :
    forceDay db userId ≠ some date ∧
      forceDay db' = Function.update (forceDay db) userId (some date) ∧ SameCharges db db' := by
  unfold consumeForceUsage at h
  cases husage : db.usage? userId with
  | none =>
      simp only [husage, Option.some.injEq] at h
      subst h
      refine ⟨by simp [forceDay, husage], ?_, sameCharges_of_buckets fun user => ?_⟩
      · funext user
        unfold forceDay
        rw [usage?_insert husage]
        by_cases huser : user = userId
        · simp [huser]
        · simp [huser]
      · rw [usage?_insert husage]
        by_cases huser : user = userId
        · simp [huser, husage, bucketOf]
        · simp [huser]
  | some usage =>
      have hid : usage.userId = userId := (Tables.lookup_some husage).2
      simp only [husage] at h
      split_ifs at h with hused
      obtain rfl := Option.some.inj h
      have hlookup : ∀ user, (db.flushUsage { usage with lastForceDate := some date }).usage? user =
          if user = userId then some { usage with lastForceDate := some date }
          else db.usage? user := by
        intro user
        rw [← hid]
        exact usage?_flushUsage (by rw [hid]; exact husage) user
      refine ⟨by simpa [forceDay, husage] using hused, ?_, sameCharges_of_buckets fun user => ?_⟩
      · funext user
        unfold forceDay
        rw [hlookup]
        by_cases huser : user = userId
        · simp [huser]
        · simp [huser]
      · rw [hlookup]
        by_cases huser : user = userId
        · rw [if_pos huser, huser, husage]
          rfl
        · rw [if_neg huser]

/-- A consumption of a charge leaves the forces alone. -/
theorem consumeRoastUsage_day (e : Env) (userId : String) (nowTs : Option Rat)
    (cooldownSeconds maxCharges : Option Int) (db : Db) :
    forceDay (consumeRoastUsage e userId nowTs cooldownSeconds maxCharges db).2 = forceDay db := by
  funext user
  unfold consumeRoastUsage forceDay
  cases husage : db.usage? userId with
  | none =>
      dsimp only
      rw [usage?_insert husage]
      by_cases huser : user = userId
      · simp [huser, husage]
      · simp [huser]
  | some usage =>
      have hid : usage.userId = userId := (Tables.lookup_some husage).2
      have hwritten : ∀ row : UserUsage, row.userId = usage.userId →
          row.lastForceDate = usage.lastForceDate →
          ((db.flushUsage row).usage? user).bind (·.lastForceDate) =
            (db.usage? user).bind (·.lastForceDate) := by
        intro row hrow hday
        rw [usage?_flushUsage (by rw [hrow, hid]; exact husage), hrow, hid]
        by_cases huser : user = userId
        · simp [huser, husage, hday]
        · simp [huser]
      dsimp only
      split <;> split_ifs <;> exact hwritten _ rfl rfl

end RollPig
