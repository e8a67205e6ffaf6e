/-
Daily force and roast charges, `services/usage.py`.

Both are consumed inside the caller's transaction: a consumption either grants the
use and writes it, or refuses.  A refused roast still writes the recovered bucket
back, which is why the refusal returns the database as well.
-/
import RollPig.Schemas

namespace RollPig

/-- `value or default` for an optional number: `None` and zero take the default. -/
def orDefault (value : Option Int) (fallback : Int) : Int :=
  match value with
  | some n => if n = 0 then fallback else n
  | none => fallback

def defaultRoastChargeMax : Int := 2

def defaultRoastChargeRecoverSeconds : Int := 8 * 3600

/-- Clamp the client's settings: the capacity to 1..6, the period to a minute..a week. -/
def clampChargeSettings (maxCharges recoverSeconds : Option Int) : Int × Int :=
  (max 1 (min 6 (orDefault maxCharges defaultRoastChargeMax)),
   max 60 (min (7 * 24 * 3600) (orDefault recoverSeconds defaultRoastChargeRecoverSeconds)))

/-- The bucket of a row that only has `last_roast_ts`. -/
def stateFromLegacyLastUse (lastRoastTs now maxCharges recoverSeconds : Int) : Int × Int :=
  if lastRoastTs ≤ 0 then (maxCharges, now)
  else
    let elapsed := max 0 (now - lastRoastTs)
    let recovered := elapsed / recoverSeconds
    let charges := min maxCharges (1 + recovered)
    (charges, if maxCharges ≤ charges then now else lastRoastTs + recovered * recoverSeconds)

/-- Bring a bucket forward to `now`: charges and the time they are counted from. -/
def recoverCharges (charges updatedTs now maxCharges recoverSeconds : Int) : Int × Int :=
  let charges := max 0 (min maxCharges charges)
  let updatedTs := orDefault (some updatedTs) now
  if maxCharges ≤ charges then (maxCharges, now)
  else
    let elapsed := max 0 (now - updatedTs)
    let recovered := elapsed / recoverSeconds
    if recovered ≤ 0 then (charges, updatedTs)
    else
      let charges := min maxCharges (charges + recovered)
      (charges, if maxCharges ≤ charges then now else updatedTs + recovered * recoverSeconds)

def nextRecoverSeconds (charges updatedTs now maxCharges recoverSeconds : Int) : Int :=
  if maxCharges ≤ charges then 0
  else
    let elapsed := max 0 (now - orDefault (some updatedTs) now)
    max 1 (recoverSeconds - elapsed % recoverSeconds)

/-- `int(float(now_ts or time.time()))`. -/
def requestSeconds (e : Env) (nowTs : Option Rat) : Int :=
  match nowTs with
  | some q => if q = 0 then unixSeconds e.now else Int.tdiv q.num q.den
  | none => unixSeconds e.now

/-- Consume one roast charge. -/
def consumeRoastUsage (e : Env) (userId : String) (nowTs : Option Rat)
    (cooldownSeconds maxCharges : Option Int) (db : Db) : ConsumeRoastResponse × Db :=
  let now := requestSeconds e nowTs
  let (chargeMax, recoverSeconds) := clampChargeSettings maxCharges cooldownSeconds
  match db.usage? userId with
  | none =>
      let chargesLeft := max 0 (chargeMax - 1)
      ({ allowed := true, chargesLeft, maxCharges := chargeMax,
         nextRecoverSeconds := nextRecoverSeconds chargesLeft now now chargeMax recoverSeconds },
       { db with
         userUsage := db.userUsage ++
           [{ userId, lastRoastTs := some now, roastCharges := some chargesLeft,
              roastChargeUpdatedTs := some now }] })
  | some usage =>
      let (charges, updatedTs) :=
        match usage.roastCharges, usage.roastChargeUpdatedTs with
        | some charges, some updatedTs => (charges, orDefault (some updatedTs) now)
        | _, _ =>
            stateFromLegacyLastUse (usage.lastRoastTs.getD 0) now chargeMax recoverSeconds
      let (charges, updatedTs) := recoverCharges charges updatedTs now chargeMax recoverSeconds
      if charges ≤ 0 then
        let remaining := nextRecoverSeconds charges updatedTs now chargeMax recoverSeconds
        ({ allowed := false, remainingSeconds := remaining, chargesLeft := 0,
           maxCharges := chargeMax, nextRecoverSeconds := remaining },
         db.flushUsage
           { usage with roastCharges := some charges, roastChargeUpdatedTs := some updatedTs })
      else
        let updatedTs := if chargeMax ≤ charges then now else updatedTs
        let charges := charges - 1
        ({ allowed := true, chargesLeft := charges, maxCharges := chargeMax,
           nextRecoverSeconds := nextRecoverSeconds charges updatedTs now chargeMax recoverSeconds },
         db.flushUsage
           { usage with
             lastRoastTs := some now, roastCharges := some charges,
             roastChargeUpdatedTs := some updatedTs })

/-- Consume the day's force use: `none` when it was already used. -/
def consumeForceUsage (userId : String) (date : Date) (db : Db) : Option Db :=
  match db.usage? userId with
  | none => some { db with userUsage := db.userUsage ++ [{ userId, lastForceDate := some date }] }
  | some usage =>
      if usage.lastForceDate = some date then none
      else some (db.flushUsage { usage with lastForceDate := some date })

end RollPig
