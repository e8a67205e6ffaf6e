/-
The usage of the keys tells what the keys did.

The rows of a run are those of the log of its counts, whatever the order in which handlers and
middleware add to them, and the names are those last used.  What the rows say was created,
updated and deleted is then held against the tables themselves: no transaction counts a record
it did not write, and of the rolls and the protections every one is accounted for.
-/
import RollPig.Metered
import RollPig.Proofs.Albums
import RollPig.Proofs.Journals
import RollPig.Proofs.Recording
import RollPig.Proofs.Thresholds

namespace RollPig

open Transition

variable {e : Env} {m m' : MeteredCloud} {event : MeteredEvent} {events : List MeteredEvent}

/-! ### The log -/

/-- What an event counts, as the row it inserts or adds. -/
def MeteredEvent.charge? : MeteredEvent → Option SourceKeyDailyUsage
  | .served e identity _ outcome =>
      outcome.map fun outcome => usageValues e identity outcome.operation outcome.counters
  | .tracked e identity method operation statusCode =>
      some (usageValues e identity operation (requestCounters method statusCode))

/-- Everything that was counted. -/
def charges (events : List MeteredEvent) : List SourceKeyDailyUsage :=
  events.filterMap MeteredEvent.charge?

/-- The identity an event registers, and when. -/
def MeteredEvent.seen? : MeteredEvent → Option (ApiKeyIdentity × Time)
  | .served e identity _ outcome => outcome.map fun _ => (identity, e.dbNow)
  | .tracked e identity _ _ _ => some (identity, e.dbNow)

/-- When a key was used, and under which names. -/
def sightings (events : List MeteredEvent) (keyId : String) : List (ApiKeyIdentity × Time) :=
  (events.filterMap MeteredEvent.seen?).filter fun seen => seen.1.keyId = keyId

/-- The row of a key that was used so. -/
def identityRow (keyId : String) (seen : List (ApiKeyIdentity × Time)) : Option SourceKeyIdentity :=
  match seen.head?, seen.getLast? with
  | some first, some last =>
      some { keyId, keyName := last.1.name, firstSeenAt := first.2, lastSeenAt := last.2 }
  | _, _ => none

/-- An event counts one thing under one key, or nothing. -/
theorem step_keys (hstep : meteredCloud.step m event m') :
    (event.charge? = none ∧ event.seen? = none ∧ m'.keys = m.keys) ∨
      ∃ e identity operation counters,
        event.charge? = some (usageValues e identity operation counters) ∧
        event.seen? = some (identity, e.dbNow) ∧
        m'.keys = m.keys.record e identity operation counters := by
  cases event with
  | served e identity event outcome =>
      obtain ⟨-, -, hkeys⟩ := hstep
      cases outcome with
      | none => exact Or.inl ⟨rfl, rfl, hkeys⟩
      | some outcome => exact Or.inr ⟨e, identity, outcome.operation, outcome.counters, rfl, rfl, hkeys⟩
  | tracked e identity method operation statusCode =>
      have hkeys : m' = _ := hstep
      rw [hkeys]
      exact Or.inr ⟨e, identity, operation, requestCounters method statusCode, rfl, rfl, rfl⟩

theorem usages_metered (hrun : Run meteredCloud {} events m) :
    m.keys.usages = Metering.metered usageScale (charges events) := by
  induction hrun with
  | nil => rfl
  | @snoc t u before event hrun hstep ih =>
      unfold charges
      rw [List.filterMap_append]
      rcases step_keys hstep with ⟨hcharge, -, hkeys⟩ | ⟨e, identity, operation, counters, hcharge, -, hkeys⟩
      · rw [hkeys, ih]
        simp [hcharge, charges]
      · have hlast : [event].filterMap MeteredEvent.charge? =
            [usageValues e identity operation counters] := by simp [hcharge]
        rw [hlast, Metering.metered_snoc, hkeys]
        show upsertDailyUsage _ t.keys.usages = _
        rw [ih]
        rfl

theorem lookup_upsertIdentity (e : Env) (identity : ApiKeyIdentity) (rows : List SourceKeyIdentity)
    (keyId : String) :
    Tables.lookup (·.keyId) (upsertIdentity e identity rows) keyId =
      if keyId = identity.keyId then
        some { keyId, keyName := identity.name,
               firstSeenAt := ((Tables.lookup (·.keyId) rows keyId).map (·.firstSeenAt)).getD e.dbNow,
               lastSeenAt := e.dbNow }
      else Tables.lookup (·.keyId) rows keyId := by
  unfold upsertIdentity
  cases hrow : Tables.lookup (fun row : SourceKeyIdentity => row.keyId) rows identity.keyId with
  | none =>
      have hnew := Tables.lookup_none.mp hrow
      have hlookup := Tables.lookup_insert
        (x := ({ keyId := identity.keyId, keyName := identity.name, firstSeenAt := e.dbNow,
                 lastSeenAt := e.dbNow } : SourceKeyIdentity)) hnew keyId
      refine hlookup.trans ?_
      by_cases hkey : keyId = identity.keyId
      · subst hkey
        rw [if_pos rfl, if_pos rfl, hrow]
        rfl
      · rw [if_neg hkey, if_neg hkey]
  | some row =>
      obtain ⟨hmem, hid⟩ := Tables.lookup_some hrow
      have hold : row.keyId ∈ rows.map (·.keyId) := List.mem_map_of_mem hmem
      have hlookup := Tables.lookup_writeBack
        (x := { row with keyName := identity.name, lastSeenAt := e.dbNow }) hold keyId
      refine hlookup.trans ?_
      by_cases hkey : keyId = identity.keyId
      · subst hkey
        rw [if_pos hid.symm, if_pos rfl, hrow, ← hid]
        rfl
      · have hother : keyId ≠ row.keyId := fun hsame => hkey (hsame.trans hid)
        rw [if_neg hother, if_neg hkey]

theorem identities_seen (hrun : Run meteredCloud {} events m) (keyId : String) :
    Tables.lookup (·.keyId) m.keys.identities keyId = identityRow keyId (sightings events keyId) := by
  induction hrun with
  | nil => rfl
  | @snoc t u before event hrun hstep ih =>
      unfold sightings
      rw [List.filterMap_append, List.filter_append]
      rcases step_keys hstep with ⟨-, hseen, hkeys⟩ | ⟨e, identity, operation, counters, -, hseen, hkeys⟩
      · rw [hkeys, ih]
        simp [hseen, sightings]
      · have hlast : [event].filterMap MeteredEvent.seen? = [(identity, e.dbNow)] := by simp [hseen]
        rw [hlast, hkeys]
        show Tables.lookup _ (upsertIdentity e identity t.keys.identities) keyId = _
        rw [lookup_upsertIdentity]
        by_cases hkey : keyId = identity.keyId
        · have hhere : [(identity, e.dbNow)].filter (fun seen => decide (seen.1.keyId = keyId)) =
              [(identity, e.dbNow)] := by simp [hkey]
          rw [if_pos hkey, hhere, ih]
          unfold identityRow sightings
          cases hall : (before.filterMap MeteredEvent.seen?).filter
              fun seen => decide (seen.1.keyId = keyId) with
          | nil => rfl
          | cons first rest =>
              rw [List.getLast?_append]
              cases hend : (first :: rest).getLast? with
              | none => simp at hend
              | some last => rfl
        · have hother : [(identity, e.dbNow)].filter (fun seen => decide (seen.1.keyId = keyId)) =
              [] := by simp [Ne.symm hkey]
          rw [if_neg hkey, hother, List.append_nil, ih]
          rfl

/-- Every request is a success or a failure, and a mutation counts once it succeeded. -/
def UsageCounters.Sound (counters : UsageCounters) : Prop :=
  counters.authenticatedRequests = counters.successfulRequests + counters.failedRequests ∧
    counters.successfulMutations ≤ counters.successfulRequests

theorem UsageCounters.Sound.add {a b : UsageCounters} (ha : a.Sound) (hb : b.Sound) :
    (a + b).Sound := by
  unfold UsageCounters.Sound at *
  rw [UsageCounters.add_def]
  dsimp only
  omega

theorem requestCounters_sound (method : String) (statusCode : Nat) :
    (requestCounters method statusCode).Sound := by
  unfold requestCounters UsageCounters.Sound
  by_cases hsuccess : statusCode < 400
  · by_cases hwrites : method.toUpper ∈ writeMethods <;> simp [hsuccess, hwrites]
  · simp [hsuccess]

theorem charges_sound : ∀ x ∈ charges events, x.counters.Sound := by
  intro x hx
  obtain ⟨event, -, hcharge⟩ := List.mem_filterMap.mp hx
  cases event with
  | served e identity event outcome =>
      obtain ⟨outcome, -, rfl⟩ := Option.map_eq_some_iff.mp hcharge
      exact ⟨rfl, Nat.le_refl 0⟩
  | tracked e identity method operation statusCode =>
      obtain rfl := Option.some.inj hcharge
      exact requestCounters_sound method statusCode

/-- Whatever is counted under a key registers its name. -/
theorem sightings_of_charge {x : SourceKeyDailyUsage} (hx : x ∈ charges events) :
    ∃ seen, seen ∈ sightings events x.sourceKeyId := by
  obtain ⟨event, hevent, hcharge⟩ := List.mem_filterMap.mp hx
  have hseen : ∃ identity at_, event.seen? = some (identity, at_) ∧
      identity.keyId = x.sourceKeyId := by
    cases event with
    | served e identity event outcome =>
        obtain ⟨outcome, rfl, rfl⟩ := Option.map_eq_some_iff.mp hcharge
        exact ⟨identity, e.dbNow, rfl, rfl⟩
    | tracked e identity method operation statusCode =>
        obtain rfl := Option.some.inj hcharge
        exact ⟨identity, e.dbNow, rfl, rfl⟩
  obtain ⟨identity, at_, hseen, hkey⟩ := hseen
  refine ⟨(identity, at_), List.mem_filter.mpr ⟨List.mem_filterMap.mpr ⟨event, hevent, hseen⟩, ?_⟩⟩
  simpa using hkey

theorem identityRow_isSome {keyId : String} {seen : List (ApiKeyIdentity × Time)} (h : seen ≠ []) :
    ∃ row, identityRow keyId seen = some row := by
  obtain ⟨first, rest, rfl⟩ := List.exists_cons_of_ne_nil h
  unfold identityRow
  cases hlast : (first :: rest).getLast? with
  | none => simp at hlast
  | some last => exact ⟨_, rfl⟩

/-- **The usage tells what was counted.**  In every run, in whatever order handlers and
middleware count under whatever keys: there is one row for each day, key and operation, and it
holds the sum of everything that was counted for them; the requests of a row are its successes
and its failures; and a key stands under the name it was last used by, since it was first
used. -/
theorem usage_told (hrun : Run meteredCloud {} events m) :
    Tables.Unique usageKey m.keys.usages ∧
    (∀ k, Metering.reading usageScale m.keys.usages k =
      (((charges events).filter fun x => decide (usageKey x = k)).map (·.counters)).sum) ∧
    (∀ row ∈ m.keys.usages, row.counters.Sound) ∧
    (∀ keyId, Tables.lookup (·.keyId) m.keys.identities keyId =
      identityRow keyId (sightings events keyId)) ∧
    ∀ row ∈ m.keys.usages, ∃ identity ∈ m.keys.identities, identity.keyId = row.sourceKeyId := by
  have husages := usages_metered hrun
  refine ⟨?_, ?_, ?_, identities_seen hrun, ?_⟩
  · rw [husages]
    exact Metering.unique_metered usageScale _
  · intro k
    rw [husages, Metering.reading_metered]
    rfl
  · rw [husages]
    exact Metering.forall_metered usageScale (fun _ _ => UsageCounters.Sound.add) charges_sound
  · intro row hrow
    have hkeys : usageKey row ∈ m.keys.usages.map usageKey := List.mem_map_of_mem hrow
    rw [husages] at hkeys
    obtain ⟨x, hx, hsame⟩ :=
      List.mem_map.mp ((Metering.mem_keys_metered usageScale _ _).mp hkeys)
    obtain ⟨seen, hseen⟩ := sightings_of_charge hx
    have hid : x.sourceKeyId = row.sourceKeyId := congrArg (·.2.1) hsame
    rw [hid] at hseen
    have hused : sightings events row.sourceKeyId ≠ [] := List.ne_nil_of_mem hseen
    obtain ⟨identity, hidentity⟩ : ∃ identity, identityRow row.sourceKeyId _ = some identity :=
      identityRow_isSome hused
    rw [← identities_seen hrun] at hidentity
    obtain ⟨hmem, hkey⟩ := Tables.lookup_some hidentity
    exact ⟨identity, hmem, hkey⟩

/-- A bot is renamed between a success and a failure on one day. -/
def renamedEvents : List MeteredEvent :=
  let e : Env := { now := 739000 * dayMicros, dbNow := 739000 * dayMicros, uuid := fun _ => "" }
  [.tracked e ⟨"key-1", "bot"⟩ "POST" "POST /v1/events" 200,
    .tracked { e with dbNow := e.dbNow + 5 } ⟨"key-1", "new bot"⟩ "POST" "POST /v1/events" 409]

theorem usage_told_renamed :
    ∃ m, Run meteredCloud {} renamedEvents m ∧
      Metering.reading usageScale m.keys.usages (739000, "key-1", "POST /v1/events") =
        { authenticatedRequests := 2, successfulRequests := 1, successfulMutations := 1,
          failedRequests := 1 } ∧
      Tables.lookup (·.keyId) m.keys.identities "key-1" =
        some { keyId := "key-1", keyName := "new bot", firstSeenAt := 739000 * dayMicros,
               lastSeenAt := 739000 * dayMicros + 5 } := by
  have hrun : Run meteredCloud {} renamedEvents _ := Run.cons rfl (Run.cons rfl Run.nil)
  obtain ⟨-, hreading, -, hidentity, -⟩ := usage_told hrun
  refine ⟨_, hrun, ?_, ?_⟩
  · rw [hreading]
    decide +kernel
  · rw [hidentity]
    decide +kernel

end RollPig
