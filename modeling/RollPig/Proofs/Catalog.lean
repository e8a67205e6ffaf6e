/-
The prefilter of the catalog loses no roast.

The query selects the events that may concern the user before the loop sees them.  It keeps
every event that has the user among its victims, and no other event shows in the user's count.
-/
import Mathlib
import RollPig.Routers.Catalog
import RollPig.Proofs.Statistics

namespace RollPig

variable {events : List RoastMapping} {v : String} {row : RoastEvent × Nat}
  {listText : List String → String}

theorem orElse_empty (text : String) : orElse text "" = text := by
  unfold orElse
  split
  · rfl
  · rename_i h
    exact (Decidable.not_not.mp h).symm

@[simp] theorem catalogMapping_targetUser (row : RoastEvent × Nat) :
    (catalogMapping row).targetUser = row.1.targetId :=
  orElse_empty _

@[simp] theorem catalogMapping_attackerUser (row : RoastEvent × Nat) :
    (catalogMapping row).attackerUser = row.1.attackerId :=
  orElse_empty _

/-! ### Events that do not concern the user -/

/-- Only the events with the user among their victims count. -/
theorem roasts_relevant (events : List RoastMapping) (v : String) :
    roasts (events.filter fun event => v ∈ event.victims) v = roasts events v := by
  have hidentified : identifiedRoasts (events.filter fun event => v ∈ event.victims) v =
      identifiedRoasts events v := by
    ext key
    simp only [mem_identifiedRoasts, List.mem_filter, decide_eq_true_eq]
    constructor
    · rintro ⟨event, ⟨hevent, -⟩, h⟩
      exact ⟨event, hevent, h⟩
    · rintro ⟨event, hevent, hid, hroasts, hkey⟩
      exact ⟨event, ⟨hevent, hroasts.2⟩, hid, hroasts, hkey⟩
  have hpunishments : punishments (events.filter fun event => v ∈ event.victims) v =
      punishments events v := by
    ext ⟨date, group, kind⟩
    simp only [mem_punishments, List.mem_filter, decide_eq_true_eq]
    constructor
    · rintro ⟨event, ⟨hevent, -⟩, h⟩
      exact ⟨event, hevent, h⟩
    · rintro ⟨event, hevent, h⟩
      exact ⟨event, ⟨hevent, (RoastMapping.punishment_eq_some.mp h).1⟩, h⟩
  have hanonymous : anonymousRoasts (events.filter fun event => v ∈ event.victims) v =
      anonymousRoasts events v := by
    unfold anonymousRoasts
    rw [List.countP_filter]
    refine List.countP_congr fun event _ => ?_
    simp only [Bool.and_eq_true, decide_eq_true_eq]
    exact and_iff_left_of_imp fun h => h.2.2
  unfold roasts
  rw [hidentified, hpunishments, hanonymous]

/-- A selection that keeps the events with the user among their victims keeps the count. -/
theorem roasts_selected {α : Type} (mapping : α → RoastMapping) (selected : α → Bool)
    (rows : List α) (hkeep : ∀ row ∈ rows, v ∈ (mapping row).victims → selected row = true) :
    roasts ((rows.filter selected).map mapping) v = roasts (rows.map mapping) v := by
  have hsame : ((rows.filter selected).map mapping).filter (fun event => v ∈ event.victims) =
      (rows.map mapping).filter fun event => v ∈ event.victims := by
    rw [List.filter_map, List.filter_map, List.filter_filter]
    congr 1
    refine List.filter_congr fun row hrow => ?_
    by_cases hv : v ∈ (mapping row).victims
    · simp [hv, hkeep row hrow hv]
    · simp [hv]
  rw [← roasts_relevant, hsame, roasts_relevant]

/-! ### The prefilter -/

/-- Every fallback of the victim rule is a case of the query. -/
theorem mayConcern_of_victim (hlist : ∀ ids, ∀ user ∈ ids,
    (jsonDumps user).toList <:+: (listText ids).toList)
    (hv : v ∈ (catalogMapping row).victims) : mayConcern listText v row.1 = true := by
  obtain ⟨hnamed, hv⟩ := RoastMapping.mem_victims.mp hv
  unfold mayConcern
  dsimp only
  unfold RoastMapping.namedVictims at hnamed
  split at hnamed
  · obtain rfl := List.mem_singleton.mp hnamed
    simp
  · split at hnamed
    · dsimp only at hnamed
      split at hnamed
      · -- the plural field: it was stored, and its text contains the user
        have hids : v ∈ (row.1.participantSnapshot.getD {}).backfireVictimIds.getD [] := hnamed
        cases hstored : (row.1.participantSnapshot.getD {}).backfireVictimIds with
        | none =>
            rw [hstored] at hids
            cases hids
        | some ids =>
            rw [hstored] at hids
            simp [hlist ids v hids]
      · obtain rfl := List.mem_singleton.mp hnamed
        cases hstored : (row.1.participantSnapshot.getD {}).backfireVictimId with
        | none =>
            have hsingle : (catalogMapping row).backfireVictimId.getD "" = "" := by
              simp [catalogMapping, hstored]
            simp [hsingle, orElse]
        | some user =>
            have hsingle : (catalogMapping row).backfireVictimId.getD "" = user := by
              simp [catalogMapping, hstored]
            by_cases huser : user = ""
            · simp [hsingle, orElse, huser]
            · simp [hsingle, orElse, huser]
    · cases hnamed

/-- The rows of a table have different ids. -/
theorem catalogMapping_consistent {table : List RoastEvent} {rows : List (RoastEvent × Nat)}
    (hsub : rows ⊆ table.zipIdx 1) : Consistent (rows.map catalogMapping) := by
  intro x hx y hy _ hkey
  obtain ⟨⟨event, i⟩, hi, rfl⟩ := List.mem_map.mp hx
  obtain ⟨⟨event', j⟩, hj, rfl⟩ := List.mem_map.mp hy
  have hid : toString i = toString j := (Prod.mk.inj hkey).2
  obtain rfl : i = j := Nat.repr_injective hid
  obtain ⟨-, -, hevent⟩ := List.mem_zipIdx (hsub hi)
  obtain ⟨-, -, hevent'⟩ := List.mem_zipIdx (hsub hj)
  rw [hevent, hevent']

/-- **The catalog counts every roast of the last seven days.** -/
theorem catalog_counts_window (hlist : ∀ ids, ∀ user ∈ ids,
    (jsonDumps user).toList <:+: (listText ids).toList) (e : Env) (userId : String) (days : Int)
    (db : Db) :
    (getCatalogSnapshot listText e userId days db).roasted7d =
      countRoastedUsers ((roastWindow (rollpigToday e.now) db).map catalogMapping) userId := by
  have hwindow : roastWindow (rollpigToday e.now) db ⊆ db.roastEvents.zipIdx 1 :=
    fun row hrow => (List.mem_filter.mp hrow).1
  have hsorted := List.perm_insertionSort eventOrder
    ((roastWindow (rollpigToday e.now) db).filter fun row => mayConcern listText userId row.1)
  have hselected : ((roastWindow (rollpigToday e.now) db).filter fun row =>
      mayConcern listText userId row.1).insertionSort eventOrder ⊆ db.roastEvents.zipIdx 1 :=
    fun row hrow => hwindow (List.mem_filter.mp (hsorted.mem_iff.mp hrow)).1
  show countRoastedUsers _ userId = _
  rw [countRoastedUsers_eq (catalogMapping_consistent hwindow),
    countRoastedUsers_eq (catalogMapping_consistent hselected),
    (SameDeliveries.of_perm (hsorted.map catalogMapping)).roasts,
    roasts_selected catalogMapping _ _ fun row _ hv => mayConcern_of_victim hlist hv]

/-- The text of a list as `json.dumps` writes it. -/
def jsonList (ids : List String) : String :=
  "[" ++ ", ".intercalate (ids.map jsonDumps) ++ "]"

theorem infix_intercalate (sep : String) {text : String} {texts : List String}
    (h : text ∈ texts) : text.toList <:+: (sep.intercalate texts).toList := by
  induction texts with
  | nil => cases h
  | cons first rest ih =>
      cases rest with
      | nil =>
          obtain rfl := List.mem_singleton.mp h
          simp
      | cons second rest =>
          rw [String.intercalate_cons_cons]
          rcases List.mem_cons.mp h with rfl | hthere
          · exact ⟨[], sep.toList ++ (sep.intercalate (second :: rest)).toList, by simp⟩
          · obtain ⟨before, after, hmid⟩ := ih hthere
            exact ⟨first.toList ++ sep.toList ++ before, after, by simp [← hmid]⟩

theorem infix_jsonList (ids : List String) {user : String} (h : user ∈ ids) :
    (jsonDumps user).toList <:+: (jsonList ids).toList := by
  have hmid := infix_intercalate ", " (List.mem_map_of_mem (f := jsonDumps) h)
  obtain ⟨before, after, hmid⟩ := hmid
  exact ⟨'[' :: before, after ++ [']'], by simp [jsonList, ← hmid]⟩

/-- A backfire of an old round, which named its one victim only, and one that named two. -/
def backfiredDb : Db :=
  let row : RoastEvent :=
    { dateStr := 739000, groupId := "100", eventType := "backfire", attackerId := "cook",
      targetId := "target", attackerName := "", targetName := "", foodName := "",
      reservationId := "r", participantSnapshot := some { backfireVictimId := some "guest" },
      createdAt := 739000 * dayMicros }
  { roastEvents := [row, { row with
      reservationId := "s"
      participantSnapshot := some { backfireVictimIds := some ["guest", "cook"] } }] }

def catalogEnv : Env := { now := 739000 * dayMicros, dbNow := 739000 * dayMicros, uuid := toString }

theorem catalog_counts_backfired :
    (getCatalogSnapshot jsonList catalogEnv "guest" 14 backfiredDb).roasted7d = 2 := by
  rw [catalog_counts_window infix_jsonList]
  decide +kernel

end RollPig
