/-
Charges converted at once, and charges converted when they are asked for.

A row from before charges were counted knows the last use only.  The migration turns it into
a bucket at the time it runs; left alone, the row is turned into one by the first draw.  With
two charges and the default period the migration keeps everything the last use says: either
the bucket is full by then and stays so, or it is counted from the last use itself.
-/
import RollPig.Migrations
import RollPig.Proofs.Countdown

namespace RollPig

open Transition (answers answers_eq_on)

variable {e : Env} {db : Db} {b : Bucket} {now lastUse : Int}

/-- The bucket the migration makes. -/
def Bucket.migrated (now : Int) : Bucket → Bucket
  | .uncounted lastUse =>
      let state := stateFromLegacyLastUse lastUse now defaultRoastChargeMax
        defaultRoastChargeRecoverSeconds
      .counted (max 0 state.1) state.2
  | .counted charges updatedTs => .counted charges updatedTs

/-- The periods of a last use, full or not. -/
theorem stateFromLegacyLastUse_default (lastUse now : Int) :
    stateFromLegacyLastUse lastUse now defaultRoastChargeMax defaultRoastChargeRecoverSeconds =
      if lastUse ≤ 0 ∨ defaultRoastChargeRecoverSeconds ≤ now - lastUse then
        (defaultRoastChargeMax, now)
      else (1, lastUse) := by
  unfold stateFromLegacyLastUse defaultRoastChargeMax defaultRoastChargeRecoverSeconds
  by_cases hnever : lastUse ≤ 0
  · rw [if_pos hnever, if_pos (Or.inl hnever)]
  · rw [if_neg hnever]
    dsimp only
    by_cases hfull : 8 * 3600 ≤ now - lastUse
    · have hone : 1 ≤ max 0 (now - lastUse) / (8 * 3600) := by omega
      rw [if_pos (Or.inr hfull), if_pos (by omega)]
      simp only [Prod.mk.injEq, and_true]
      omega
    · have hnone : max 0 (now - lastUse) / (8 * 3600) = 0 := by omega
      rw [if_neg (show ¬(lastUse ≤ 0 ∨ 8 * 3600 ≤ now - lastUse) by omega), hnone]
      simp

theorem recoverCharges_full (updatedTs t : Int) :
    recoverCharges defaultRoastChargeMax updatedTs t defaultRoastChargeMax
      defaultRoastChargeRecoverSeconds = (defaultRoastChargeMax, t) :=
  rfl

/-- **A later draw does not see the migration.** -/
theorem recovered_migrated {t : Int} (hlater : now ≤ t) (b : Bucket) :
    (b.migrated now).recovered t defaultRoastChargeMax defaultRoastChargeRecoverSeconds =
      b.recovered t defaultRoastChargeMax defaultRoastChargeRecoverSeconds := by
  cases b with
  | counted charges updatedTs => rfl
  | uncounted lastUse =>
      unfold Bucket.migrated Bucket.recovered
      simp only [stateFromLegacyLastUse_default]
      by_cases hfull : lastUse ≤ 0 ∨ defaultRoastChargeRecoverSeconds ≤ now - lastUse
      · -- full when it was migrated, and still full
        rw [if_pos hfull, if_pos (by omega)]
        exact (recoverCharges_full _ t).trans (recoverCharges_full _ t).symm
      · -- counted from the last use, as the row itself is
        have hreal : 1 ≤ lastUse := by omega
        rw [if_neg hfull, orDefault_pos hreal]
        by_cases hfilled : defaultRoastChargeRecoverSeconds ≤ t - lastUse
        · have hperiods : 1 ≤ max 0 (t - lastUse) / defaultRoastChargeRecoverSeconds := by
            unfold defaultRoastChargeRecoverSeconds at hfilled ⊢
            omega
          rw [if_pos (Or.inr hfilled), recoverCharges_full, recoverCharges_closed (by decide) _ hreal]
          exact if_pos (by unfold defaultRoastChargeMax; omega)
        · rw [if_neg (by omega)]
          rfl

/-! ### The stored rows -/

/-- What becomes of a row. -/
def migratedRow (now : Int) (row : UserUsage) : UserUsage :=
  if row.roastCharges.isNone ∨ row.roastChargeUpdatedTs.isNone then
    let bucket := migratedCharges (row.lastRoastTs.getD 0) now
    { row with roastCharges := some bucket.1, roastChargeUpdatedTs := some bucket.2 }
  else row

theorem migrateExistingUserUsage_usage? (e : Env) (db : Db) (userId : String) :
    (migrateExistingUserUsage e db).usage? userId =
      (db.usage? userId).map (migratedRow (unixSeconds e.now)) := by
  show (db.userUsage.map (migratedRow (unixSeconds e.now))).find? _ = _
  rw [List.find?_map]
  congr 2
  funext row
  unfold migratedRow
  dsimp only [Function.comp]
  split_ifs <;> rfl

theorem bucketOf_migratedRow (now : Int) (row : UserUsage) :
    bucketOf (some (migratedRow now row)) = (bucketOf (some row)).migrated now := by
  unfold migratedRow
  rw [migratedCharges_eq]
  obtain ⟨userId, lastUse, charges, updatedTs, forceDate⟩ := row
  cases charges <;> cases updatedTs <;> rfl

/-- A bucket the migration left alone, or made. -/
def Bucket.Converted (now : Int) (b b' : Bucket) : Prop :=
  b' = b ∨ b' = b.migrated now

theorem migrateExistingUserUsage_converted (e : Env) (db : Db) (userId : String) :
    (bucketOf (db.usage? userId)).Converted (unixSeconds e.now)
      (bucketOf ((migrateExistingUserUsage e db).usage? userId)) := by
  rw [migrateExistingUserUsage_usage?]
  cases db.usage? userId with
  | none => exact Or.inl rfl
  | some row => exact Or.inr (bucketOf_migratedRow _ row)

theorem Bucket.Converted.serve {call : Env × ConsumeRoastRequest} {b b' : Bucket}
    (h : b.Converted now b') (hlater : now ≤ requestSeconds call.1 call.2.nowTs)
    (hdefault : clampChargeSettings call.2.maxCharges call.2.cooldownSeconds =
      (defaultRoastChargeMax, defaultRoastChargeRecoverSeconds)) :
    b'.serve call = b.serve call := by
  rcases h with rfl | rfl
  · rfl
  · unfold Bucket.serve Bucket.draw
    rw [hdefault, recovered_migrated hlater]

/-- **Converting at once or when asked makes no difference.**  As long as nobody draws before
the migration ran, and everybody by the default settings, all draws on the migrated rows are
answered as on the rows left alone. -/
theorem migrated_answers (e : Env) (db : Db) (calls : List (Env × ConsumeRoastRequest))
    (hlater : ∀ call ∈ calls, unixSeconds e.now ≤ requestSeconds call.1 call.2.nowTs)
    (hdefault : ∀ call ∈ calls, clampChargeSettings call.2.maxCharges call.2.cooldownSeconds =
      (defaultRoastChargeMax, defaultRoastChargeRecoverSeconds)) :
    answers consumeRoast calls (migrateExistingUserUsage e db) = answers consumeRoast calls db := by
  refine answers_eq_on (R := fun db' db => ∀ user, (bucketOf (db.usage? user)).Converted
    (unixSeconds e.now) (bucketOf (db'.usage? user))) calls ?_ ?_
  · intro call hcall db' db hconverted
    obtain ⟨hanswer', hbuckets'⟩ := consumeRoast_serve call db'
    obtain ⟨hanswer, hbuckets⟩ := consumeRoast_serve call db
    have hserve := (hconverted call.2.userId).serve (hlater call hcall) (hdefault call hcall)
    refine ⟨?_, fun user => ?_⟩
    · rw [hanswer', hanswer, hserve]
    · rw [hbuckets', hbuckets, hserve]
      split_ifs
      · exact Or.inl rfl
      · exact hconverted user
  · exact migrateExistingUserUsage_converted e db

/-- A user whose last use is 10000 seconds ago when the migration runs, and one who is ahead
of the clock. -/
def uncountedDb : Db :=
  { userUsage := [{ userId := "1", lastRoastTs := some 90000 },
      { userId := "2", lastRoastTs := some 110000 }] }

def migrationEnv : Env :=
  { now := epochOrdinal * dayMicros + 100000 * secondMicros, dbNow := 0, uuid := fun _ => "" }

def lateDraws : List (Env × ConsumeRoastRequest) :=
  [("1", 100000), ("2", 100000), ("1", 100001), ("1", 140000), ("2", 140000)].map
    fun draw => (migrationEnv, { userId := draw.1, nowTs := some draw.2 })

theorem migrated_answers_late :
    answers consumeRoast lateDraws (migrateExistingUserUsage migrationEnv uncountedDb) =
        answers consumeRoast lateDraws uncountedDb ∧
      (answers consumeRoast lateDraws uncountedDb).map (fun answer =>
        (answer.allowed, answer.chargesLeft, answer.nextRecoverSeconds)) =
        [(true, 0, 18800), (true, 0, 28800), (false, 0, 18799), (true, 0, 7600),
          (true, 0, 27600)] :=
  ⟨migrated_answers migrationEnv uncountedDb lateDraws (by decide +kernel) (by decide +kernel),
    by decide +kernel⟩

end RollPig
