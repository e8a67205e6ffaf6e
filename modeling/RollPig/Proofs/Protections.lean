/-
What the writes of a protection row do.

Whether a grant or a new roster, protections are written one row at a time, and each
write is followed by the synchronisation of the waiting rounds of that one target
(`Protects`).  So three things survive every such write, and with it the loops of
`replace_group`: one row per user, group and date; the success counters of the rows that
were there before; and the agreement of the waiting rounds with the rows.
-/
import RollPig.Proofs.Slots

namespace RollPig

open Transition

/-- What the primary key of the protections is about. -/
def protectionKey (row : GroupProtection) : Date × String × String :=
  (row.protectDate, row.groupId, row.userId)

variable {e : Env} {db db' : Db} {protection : GroupProtection} {removed : Bool}

theorem protection?_eq_lookup (db : Db) (date : Date) (groupId userId : String) :
    db.protection? date groupId userId =
      Tables.lookup protectionKey db.groupProtections (date, groupId, userId) := by
  unfold Db.protection? Tables.lookup protectionKey
  congr 1
  funext row
  simp

/-! ### The terms of a waiting round -/

/-- The threshold and the source a protection gives, or the absence of one. -/
def terms : Option GroupProtection → Nat × Source
  | none => (0, .legacy)
  | some row => (1 + protectionLevel row, protectionSource row)

def RoastReservation.terms (row : RoastReservation) : Nat × Source :=
  (row.protectionRequired, row.protectionSource)

/-- The waiting rounds that were not taken over carry the terms of their target's
protection. -/
def Db.Governed (db : Db) : Prop :=
  ∀ row ∈ db.reservations, row.status = .pending → row.forceMode ≠ some "super" →
    row.terms = RollPig.terms (Tables.lookup protectionKey db.groupProtections row.targetKey)

/-- The rounds the sync rewrites, given the key of the protection. -/
theorem awaitsProtection_iff {row : RoastReservation} :
    awaitsProtection protection protection.groupId row = true ↔
      row.targetKey = protectionKey protection ∧ row.status = .pending ∧
        row.forceMode ≠ some "super" := by
  simp [awaitsProtection, RoastReservation.targetKey, protectionKey, and_assoc]

/-- A synchronised round has the terms of the protection, if it goes on waiting or not. -/
theorem syncReservation_terms (e : Env) (protection : GroupProtection) (removed : Bool)
    (members : List RoastReservationParticipant) (row : RoastReservation) :
    (syncReservation e protection removed members row).terms =
        terms (if removed then none else some protection) ∧
      (syncReservation e protection removed members row).targetKey = row.targetKey ∧
      (syncReservation e protection removed members row).forceMode = row.forceMode := by
  have hgoverned : (governedRow protection removed row).terms =
      terms (if removed then none else some protection) := by
    cases removed <;> rfl
  have hkey : (governedRow protection removed row).targetKey = row.targetKey := rfl
  unfold syncReservation
  by_cases hpig : row.targetPigId = ""
  · rw [if_neg (by simpa using hpig)]
    exact ⟨hgoverned, hkey, rfl⟩
  · rw [if_pos hpig]
    have hannounce : ∀ previous (row : RoastReservation),
        (announceThreshold previous row).terms = row.terms ∧
          (announceThreshold previous row).targetKey = row.targetKey ∧
          (announceThreshold previous row).forceMode = row.forceMode := by
      intro previous row
      unfold announceThreshold
      split_ifs <;> exact ⟨rfl, rfl, rfl⟩
    obtain ⟨hterms, htarget, hforce⟩ := hannounce row.protectionRequired
      (activateReservation e members (governedRow protection removed row) row.targetPigId).1
    rw [hterms, htarget, hforce, ← hgoverned]
    rcases activateReservation_cases e members (governedRow protection removed row)
      row.targetPigId true with ⟨-, heq⟩ | ⟨-, notice, heq⟩
    · rw [heq]
      exact ⟨rfl, rfl, rfl⟩
    · rw [heq]
      exact ⟨rfl, rfl, rfl⟩

/-- Every round after a sync is a waiting round it rewrote, or one it left alone. -/
theorem mem_syncPendingProtection (hids : Tables.Unique (·.reservationId) db.reservations)
    {row' : RoastReservation}
    (h : row' ∈ (syncPendingProtection e protection removed db).reservations) :
    ∃ row ∈ db.reservations,
      (awaitsProtection protection protection.groupId row = true ∧
        ∃ members, row' = syncReservation e protection removed members row) ∨
      (awaitsProtection protection protection.groupId row = false ∧ row' = row) := by
  change row' ∈ Tables.writeBack (·.reservationId)
    ((db.reservations.filter (awaitsProtection protection protection.groupId)).map fun row =>
      syncReservation e protection removed _ row) db.reservations at h
  rw [Tables.writeBack_filter_map _ _ (by simp) hids] at h
  obtain ⟨row, hrow, rfl⟩ := List.mem_map.mp h
  refine ⟨row, hrow, ?_⟩
  by_cases hawaits : awaitsProtection protection protection.groupId row = true
  · exact Or.inl ⟨hawaits, _, if_pos hawaits⟩
  · exact Or.inr ⟨by simpa using hawaits, if_neg hawaits⟩

/-- **The sync keeps the waiting rounds in agreement** with a table in which one row was
written, or deleted. -/
theorem Db.Governed.sync {db₁ : Db} (h : db.Governed) (protection : GroupProtection)
    (removed : Bool)
    (hids : Tables.Unique (·.reservationId) db.reservations)
    (hsame : db₁.reservations = db.reservations)
    (hsynced : db'.reservations = (syncPendingProtection e protection removed db₁).reservations)
    (htable : ∀ k, Tables.lookup protectionKey db'.groupProtections k =
      if k = protectionKey protection then (if removed then none else some protection)
      else Tables.lookup protectionKey db.groupProtections k) :
    db'.Governed := by
  intro row' hrow' hpending hforce
  rw [hsynced] at hrow'
  rw [← hsame] at hids
  obtain ⟨row, hrow, ⟨hawaits, members, rfl⟩ | ⟨hskips, rfl⟩⟩ :=
    mem_syncPendingProtection hids hrow'
  · obtain ⟨hterms, hkey, -⟩ := syncReservation_terms e protection removed members row
    rw [hterms, hkey, htable, if_pos (awaitsProtection_iff.mp hawaits).1]
  · have hother : row'.targetKey ≠ protectionKey protection := by
      intro hkey
      rw [awaitsProtection_iff.mpr ⟨hkey, hpending, hforce⟩] at hskips
      exact absurd hskips (by simp)
    rw [htable, if_neg hother]
    exact h row' (hsame ▸ hrow) hpending hforce

/-! ### One write -/

/-- A protection row is updated, inserted or deleted, and the waiting rounds follow. -/
inductive Protects (e : Env) (db : Db) (row : GroupProtection) : Db → Prop
  | update (hold : protectionKey row ∈ db.groupProtections.map protectionKey) :
      Protects e db row (syncPendingProtection e row false (db.flushProtection row))
  | insert (hnew : protectionKey row ∉ db.groupProtections.map protectionKey) :
      Protects e db row (syncPendingProtection e row false
        { db with groupProtections := db.groupProtections ++ [row] })
  | delete : Protects e db row ((syncPendingProtection e row true db).deleteProtection row)

namespace Protects

variable {row : GroupProtection}

theorem sound (h : Protects e db row db') (hsound : db.Sound) : db'.Sound := by
  have hsync : ∀ (removed : Bool) (db : Db), db.Sound →
      (syncPendingProtection e row removed db).Sound := by
    intro removed db hdb
    have hevolves : Evolves { syncs := True } [] db _ :=
      syncPendingProtection_evolves e hdb trivial row removed none
    exact hevolves.sound
  cases h with
  | update => exact hsync _ _ ⟨hsound.ids, hsound.members, hsound.enrolled⟩
  | insert => exact hsync _ _ ⟨hsound.ids, hsound.members, hsound.enrolled⟩
  | delete =>
      have hdb := hsync true db hsound
      exact ⟨hdb.ids, hdb.members, hdb.enrolled⟩

theorem unique (h : Protects e db row db')
    (hunique : Tables.Unique protectionKey db.groupProtections) :
    Tables.Unique protectionKey db'.groupProtections := by
  cases h with
  | update => exact hunique.writeBack
  | insert hnew => exact hunique.insert fun r hr hkey => hnew (hkey ▸ List.mem_map_of_mem hr)
  | delete => exact hunique.filter _

theorem governed (h : Protects e db row db')
    (hids : Tables.Unique (·.reservationId) db.reservations) (hgoverned : db.Governed) :
    db'.Governed := by
  cases h with
  | update hold =>
      refine hgoverned.sync row false hids ?_ rfl fun k => ?_
      · rfl
      · exact Tables.lookup_writeBack hold k
  | insert hnew =>
      refine hgoverned.sync row false hids ?_ rfl fun k => ?_
      · rfl
      · exact Tables.lookup_insert hnew k
  | delete =>
      refine hgoverned.sync row true hids rfl rfl fun k => ?_
      exact Tables.lookup_delete db.groupProtections (protectionKey row) k

/-- Every other row stays where it is. -/
theorem keys (h : Protects e db row db') {k : Date × String × String} (hk : k ≠ protectionKey row) :
    k ∈ db'.groupProtections.map protectionKey ↔ k ∈ db.groupProtections.map protectionKey := by
  cases h with
  | update hold =>
      show k ∈ (Tables.writeBack protectionKey [row] db.groupProtections).map protectionKey ↔ _
      rw [Tables.map_key_writeBack]
  | insert hnew =>
      show k ∈ (db.groupProtections ++ [row]).map protectionKey ↔ _
      simp [hk]
  | delete =>
      rw [← not_iff_not, ← Tables.lookup_none, ← Tables.lookup_none]
      show Tables.lookup protectionKey (db.groupProtections.filter fun r =>
        protectionKey r ≠ protectionKey row) k = none ↔ _
      rw [Tables.lookup_delete, if_neg hk]

/-- Where a written row takes the place of an older one, it takes over its count. -/
theorem counts (h : Protects e db row db') {t₀ : List GroupProtection}
    (hunique : Tables.Unique protectionKey t₀)
    (hagree : Tables.Agree protectionKey (·.roastSuccessCount) t₀ db.groupProtections)
    (hrow : (∃ row₀ ∈ t₀, protectionKey row = protectionKey row₀ ∧
        row.roastSuccessCount = row₀.roastSuccessCount) ∨
      protectionKey row ∉ t₀.map protectionKey) :
    Tables.Agree protectionKey (·.roastSuccessCount) t₀ db'.groupProtections := by
  cases h with
  | update hold =>
      rcases hrow with ⟨row₀, hrow₀, hkey, hcount⟩ | hfresh
      · exact hagree.rewrite hunique hrow₀ hkey hcount
      · intro r hr r₀ hr₀ hsame
        rcases Tables.mem_writeBack_singleton hr with ⟨hmem, -⟩ | rfl
        · exact hagree r hmem r₀ hr₀ hsame
        · exact absurd (hsame ▸ List.mem_map_of_mem hr₀) hfresh
  | insert hnew =>
      rcases hrow with ⟨row₀, hrow₀, hkey, hcount⟩ | hfresh
      · intro r hr r₀ hr₀ hsame
        rcases List.mem_append.mp hr with hmem | hlast
        · exact hagree r hmem r₀ hr₀ hsame
        · obtain rfl := List.mem_singleton.mp hlast
          obtain rfl : r₀ = row₀ := hunique.eq hr₀ hrow₀ (hsame.trans hkey)
          exact hcount
      · exact hagree.insert hfresh
  | delete => exact hagree.filter _

end Protects

/-! ### The writes of a grant and of a new roster -/

/-- The group's copy of a global protection is the row of its user in that group. -/
theorem inheritGlobalProtection_key {date : Date} {userId : String} {legacy : GroupProtection}
    (h : db.protection? date allGroups userId = some legacy) (groupId : String) :
    protectionKey (inheritGlobalProtection legacy groupId) = (date, groupId, userId) := by
  rw [protection?_eq_lookup] at h
  have hkey := (Tables.lookup_some h).2
  simp only [protectionKey, Prod.mk.injEq] at hkey
  simp [protectionKey, inheritGlobalProtection, hkey.1, hkey.2.2]

theorem storeGrant_protects (req : GrantProtectionRequest) (db : Db) :
    protectionKey (storeGrant req db).2.1 = (req.protectDate, req.groupId, req.userId) ∧
      ((∃ old ∈ db.groupProtections, protectionKey (storeGrant req db).2.1 = protectionKey old ∧
          (storeGrant req db).2.1.roastSuccessCount = old.roastSuccessCount) ∨
        protectionKey (storeGrant req db).2.1 ∉ db.groupProtections.map protectionKey) ∧
      Protects e db (storeGrant req db).2.1
        (syncPendingProtection e (storeGrant req db).2.1 false (storeGrant req db).2.2) := by
  have hgranted : ∀ row, protectionKey (grantedRow req row) = protectionKey row ∧
      (grantedRow req row).roastSuccessCount = row.roastSuccessCount := fun row => ⟨rfl, rfl⟩
  unfold storeGrant
  cases hown : db.protection? req.protectDate req.groupId req.userId with
  | some row =>
      rw [protection?_eq_lookup] at hown
      obtain ⟨hmem, hkey⟩ := Tables.lookup_some hown
      dsimp only
      refine ⟨(hgranted row).1.trans hkey, Or.inl ⟨row, hmem, hgranted row⟩, .update ?_⟩
      rw [(hgranted row).1]
      exact List.mem_map_of_mem hmem
  | none =>
      rw [protection?_eq_lookup, Tables.lookup_none] at hown
      dsimp only
      cases hlegacy : db.protection? req.protectDate allGroups req.userId with
      | some legacy =>
          have hkey := (hgranted _).1.trans (inheritGlobalProtection_key hlegacy req.groupId)
          exact ⟨hkey, Or.inr (hkey ▸ hown), .insert (hkey ▸ hown)⟩
      | none => exact ⟨rfl, Or.inr hown, .insert hown⟩

/-- A user leaving the roster keeps the row with fewer sources, or loses it. -/
theorem removeFromRoster_protects (req : ReplaceGroupProtectionsRequest) {row : GroupProtection}
    (hold : protectionKey row ∈ db.groupProtections.map protectionKey) :
    ∃ kept, protectionKey kept = protectionKey row ∧
      kept.roastSuccessCount = row.roastSuccessCount ∧
      Protects e db kept (removeFromRoster e req row db) := by
  unfold removeFromRoster
  dsimp only
  split_ifs with hempty
  · exact ⟨row, rfl, rfl, .delete⟩
  · generalize hkept : ({ row with
      sourceLevels := _, sourceBaselines := _, baseLevel := _, consecutiveDays := 0 } :
        GroupProtection) = kept
    have hkey : protectionKey kept = protectionKey row := by rw [← hkept]; rfl
    have hcount : kept.roastSuccessCount = row.roastSuccessCount := by rw [← hkept]
    exact ⟨kept, hkey, hcount, .update (hkey ▸ hold)⟩

/-- The daily source leaves the key of a row and its count alone. -/
theorem dailyRow_frame (req : ReplaceGroupProtectionsRequest) (yesterday : Option GroupProtection)
    (userId : String) (row : Option GroupProtection) :
    protectionKey (dailyRow req yesterday userId row) =
        (match row with
          | some row => protectionKey row
          | none => (req.protectDate, req.groupId, userId)) ∧
      (dailyRow req yesterday userId row).roastSuccessCount =
        (match row with
          | some row => row.roastSuccessCount
          | none => 0) := by
  cases row with
  | none => exact ⟨rfl, rfl⟩
  | some row => exact ⟨rfl, rfl⟩

/-- A user on the list has a row with a daily source, or gets one. -/
theorem addToRoster_protects (e : Env) (db : Db) (req : ReplaceGroupProtectionsRequest)
    (current previous : List GroupProtection) (userId : String)
    (hown : ∀ own, current.find? (·.userId = userId) = some own →
      protectionKey own = (req.protectDate, req.groupId, userId) ∧
        protectionKey own ∈ db.groupProtections.map protectionKey)
    (hnew : current.find? (·.userId = userId) = none →
      (req.protectDate, req.groupId, userId) ∉ db.groupProtections.map protectionKey) :
    addToRoster e req current previous userId db = db ∨
      ∃ row, protectionKey row = (req.protectDate, req.groupId, userId) ∧
        (∀ own, current.find? (·.userId = userId) = some own →
          row.roastSuccessCount = own.roastSuccessCount) ∧
        Protects e db row (addToRoster e req current previous userId db) := by
  unfold addToRoster
  cases hfind : current.find? (·.userId = userId) with
  | some own =>
      obtain ⟨hkey, hmem⟩ := hown own hfind
      simp only [Option.isSome_some, if_true]
      split_ifs with hdaily
      · exact Or.inl rfl
      · obtain ⟨hrowKey, hcount⟩ := dailyRow_frame req
          (previous.find? fun row => row.userId = userId) userId (some own)
        refine Or.inr ⟨_, hrowKey.trans hkey, fun own' hsame => ?_, .update ?_⟩
        · obtain rfl := Option.some.inj hsame
          exact hcount
        · rw [hrowKey]
          exact hmem
  | none =>
      have hfree := hnew hfind
      simp only [Option.isSome_none, Bool.false_eq_true, if_false]
      split_ifs with hdaily
      · exact Or.inl rfl
      · cases hglobal : globalProtection? db req.protectDate req.groupId userId with
        | none =>
            obtain ⟨hrowKey, -⟩ := dailyRow_frame req
              (previous.find? fun row => row.userId = userId) userId none
            exact Or.inr ⟨_, hrowKey, by simp, .insert (hrowKey ▸ hfree)⟩
        | some legacy =>
            have hlegacy : db.protection? req.protectDate allGroups userId = some legacy := by
              unfold globalProtection? at hglobal
              split_ifs at hglobal
              exact hglobal
            obtain ⟨hrowKey, -⟩ := dailyRow_frame req
              (previous.find? fun row => row.userId = userId) userId
              (some (inheritGlobalProtection legacy req.groupId))
            have hkey := hrowKey.trans (inheritGlobalProtection_key hlegacy req.groupId)
            exact Or.inr ⟨_, hkey, by simp, .insert (hkey ▸ hfree)⟩

/-! ### The loops of a new roster -/

/-- What survives the writes in one group since the database was `db₀`. -/
structure Tended (groupId : String) (db₀ db : Db) : Prop where
  sound : db.Sound
  unique : Tables.Unique protectionKey db.groupProtections
  counts : Tables.Agree protectionKey (·.roastSuccessCount) db₀.groupProtections
    db.groupProtections
  governed : db₀.Governed → db.Governed
  group : ∀ row ∈ db.groupProtections,
    protectionKey row ∈ db₀.groupProtections.map protectionKey ∨ row.groupId = groupId

namespace Tended

variable {groupId : String} {db₀ : Db} {row : GroupProtection}

theorem refl (hsound : db.Sound) (hunique : Tables.Unique protectionKey db.groupProtections) :
    Tended groupId db db :=
  ⟨hsound, hunique, .refl hunique, id, fun _ hrow => Or.inl (List.mem_map_of_mem hrow)⟩

theorem protects (h : Tended groupId db₀ db)
    (hunique : Tables.Unique protectionKey db₀.groupProtections) (hgroup : row.groupId = groupId)
    (hrow : (∃ row₀ ∈ db₀.groupProtections, protectionKey row = protectionKey row₀ ∧
        row.roastSuccessCount = row₀.roastSuccessCount) ∨
      protectionKey row ∉ db₀.groupProtections.map protectionKey)
    (hwrite : Protects e db row db') : Tended groupId db₀ db' where
  sound := hwrite.sound h.sound
  unique := hwrite.unique h.unique
  counts := hwrite.counts hunique h.counts hrow
  governed hgoverned := hwrite.governed h.sound.ids (h.governed hgoverned)
  group r hr := by
    by_cases hkey : protectionKey r = protectionKey row
    · simp only [protectionKey, Prod.mk.injEq] at hkey
      exact Or.inr (hkey.2.1.trans hgroup)
    · have hold := (hwrite.keys hkey).mp (List.mem_map_of_mem hr)
      obtain ⟨old, hmem, hsame⟩ := List.mem_map.mp hold
      rcases h.group old hmem with hfrom | hhere
      · exact Or.inl (hsame ▸ hfrom)
      · simp only [protectionKey, Prod.mk.injEq] at hsame
        exact Or.inr (hsame.2.1.symm.trans hhere)

/-- The first loop: it touches the rows of the users that leave, and no others. -/
theorem foldl_removeFromRoster (hunique : Tables.Unique protectionKey db₀.groupProtections)
    (req : ReplaceGroupProtectionsRequest) (rows : List GroupProtection)
    (hrows : ∀ row ∈ rows, row ∈ db₀.groupProtections ∧ row.groupId = groupId)
    (hdistinct : (rows.map protectionKey).Nodup) {db : Db} (h : Tended groupId db₀ db)
    (hstored : ∀ row ∈ rows, protectionKey row ∈ db.groupProtections.map protectionKey) :
    Tended groupId db₀ (rows.foldl (fun db row => removeFromRoster e req row db) db) ∧
      ∀ k, k ∉ rows.map protectionKey →
        (k ∈ (rows.foldl (fun db row => removeFromRoster e req row db) db).groupProtections.map
            protectionKey ↔
          k ∈ db.groupProtections.map protectionKey) := by
  induction rows generalizing db with
  | nil => exact ⟨h, fun _ _ => Iff.rfl⟩
  | cons row rest ih =>
      obtain ⟨kept, hkey, hcount, hwrite⟩ :=
        removeFromRoster_protects (e := e) req (hstored row (by simp))
      rw [List.map_cons, List.nodup_cons] at hdistinct
      obtain ⟨hmem, hgroup⟩ := hrows row (by simp)
      have hkept : kept.groupId = groupId := (congrArg (·.2.1) hkey).trans hgroup
      have htended : Tended groupId db₀ (removeFromRoster e req row db) :=
        h.protects hunique hkept (Or.inl ⟨row, hmem, hkey, hcount⟩) hwrite
      have hrest : ∀ other ∈ rest, protectionKey other ∈
          (removeFromRoster e req row db).groupProtections.map protectionKey := by
        intro other hother
        refine (hwrite.keys ?_).mpr (hstored other (List.mem_cons_of_mem row hother))
        rw [hkey]
        exact fun hsame => hdistinct.1 (hsame ▸ List.mem_map_of_mem hother)
      obtain ⟨hfinal, hothers⟩ := ih (fun other hother => hrows other (List.mem_cons_of_mem row hother))
        hdistinct.2 htended hrest
      refine ⟨hfinal, fun k hk => ?_⟩
      rw [List.map_cons, List.mem_cons, not_or] at hk
      rw [List.foldl_cons, hothers k hk.2]
      exact hwrite.keys (hkey ▸ hk.1)

/-- The second loop: the users on the list are looked up in the rows of the start, whose
keys are those of now. -/
theorem foldl_addToRoster (hunique : Tables.Unique protectionKey db₀.groupProtections)
    (req : ReplaceGroupProtectionsRequest) (previous : List GroupProtection)
    (userIds : List String) (hdistinct : userIds.Nodup) {db : Db} (h : Tended req.groupId db₀ db)
    (hkeys : ∀ userId ∈ userIds,
      ((req.protectDate, req.groupId, userId) ∈ db.groupProtections.map protectionKey ↔
        (req.protectDate, req.groupId, userId) ∈ db₀.groupProtections.map protectionKey)) :
    Tended req.groupId db₀ (userIds.foldl (fun db userId =>
      addToRoster e req (groupRows db₀ req.groupId req.protectDate) previous userId db) db) := by
  induction userIds generalizing db with
  | nil => exact h
  | cons userId rest ih =>
      rw [List.nodup_cons] at hdistinct
      rw [List.foldl_cons]
      have howned : ∀ own, (groupRows db₀ req.groupId req.protectDate).find?
          (·.userId = userId) = some own → own ∈ db₀.groupProtections ∧
            protectionKey own = (req.protectDate, req.groupId, userId) := by
        intro own hfind
        have huser := List.find?_some hfind
        obtain ⟨hmem, hgroup⟩ := List.mem_filter.mp (List.mem_of_find?_eq_some hfind)
        simp only [decide_eq_true_eq] at huser hgroup
        exact ⟨hmem, by simp [protectionKey, huser, hgroup]⟩
      have hfree : (groupRows db₀ req.groupId req.protectDate).find? (·.userId = userId) = none →
          (req.protectDate, req.groupId, userId) ∉ db₀.groupProtections.map protectionKey := by
        intro hfind hmem
        obtain ⟨own, hown, hkey⟩ := List.mem_map.mp hmem
        simp only [protectionKey, Prod.mk.injEq] at hkey
        have hout := List.find?_eq_none.mp hfind own
          (List.mem_filter.mpr ⟨hown, by simp [hkey]⟩)
        simp [hkey] at hout
      have hhere := hkeys userId (by simp)
      rcases addToRoster_protects e db req (groupRows db₀ req.groupId req.protectDate) previous userId
        (fun own hfind => ⟨(howned own hfind).2, by
          rw [(howned own hfind).2]
          exact hhere.mpr ((howned own hfind).2 ▸ List.mem_map_of_mem (howned own hfind).1)⟩)
        (fun hfind => fun hmem => hfree hfind (hhere.mp hmem)) with
        hsame | ⟨row, hkey, hcount, hwrite⟩
      · rw [hsame]
        exact ih hdistinct.2 h fun other hother => hkeys other (List.mem_cons_of_mem userId hother)
      · refine ih hdistinct.2 (h.protects hunique (congrArg (·.2.1) hkey) ?_ hwrite) fun other hother => ?_
        · cases hfind : (groupRows db₀ req.groupId req.protectDate).find? (·.userId = userId) with
          | some own =>
              obtain ⟨hmem, hownKey⟩ := howned own hfind
              exact Or.inl ⟨own, hmem, hkey.trans hownKey.symm, hcount own hfind⟩
          | none => exact Or.inr (hkey ▸ hfree hfind)
        · rw [← hkeys other (List.mem_cons_of_mem userId hother)]
          refine hwrite.keys fun hsame => ?_
          rw [hkey] at hsame
          exact hdistinct.1 ((Prod.mk.inj (Prod.mk.inj hsame).2).2 ▸ hother)

end Tended

theorem normalizedIds_nodup (userIds : List String) : (normalizedIds userIds).Nodup :=
  ((List.perm_insertionSort _ _).nodup_iff).mpr (List.nodup_dedup _)

/-- **A new roster tends the table**: it keeps the rows unique, the counts of the rows that
were there, and the waiting rounds in agreement. -/
theorem replaceGroup_tended (e : Env) (hsound : db.Sound)
    (hunique : Tables.Unique protectionKey db.groupProtections)
    (req : ReplaceGroupProtectionsRequest) : Tended req.groupId db (replaceGroup e req db) := by
  have hrows : ∀ row ∈ groupRows db req.groupId req.protectDate,
      row ∈ db.groupProtections ∧ row.groupId = req.groupId := by
    intro row hrow
    obtain ⟨hmem, hgroup⟩ := List.mem_filter.mp hrow
    simp only [decide_eq_true_eq] at hgroup
    exact ⟨hmem, hgroup.1⟩
  obtain ⟨hremoved, hothers⟩ := Tended.foldl_removeFromRoster (e := e) hunique req
    ((groupRows db req.groupId req.protectDate).filter fun row =>
      row.userId ∉ normalizedIds req.userIds)
    (fun row hrow => hrows row (List.mem_filter.mp hrow).1) ((hunique.filter _).filter _)
    (Tended.refl hsound hunique)
    (fun row hrow => List.mem_map_of_mem (hrows row (List.mem_filter.mp hrow).1).1)
  refine Tended.foldl_addToRoster hunique req _ _ (normalizedIds_nodup _) hremoved ?_
  intro userId huser
  refine hothers _ fun hmem => ?_
  obtain ⟨row, hrow, hkey⟩ := List.mem_map.mp hmem
  obtain ⟨-, hleaves⟩ := List.mem_filter.mp hrow
  simp only [protectionKey, Prod.mk.injEq] at hkey
  rw [hkey.2.2] at hleaves
  exact absurd huser (by simpa using hleaves)

theorem grantProtection_tended {req : GrantProtectionRequest} {response : GrantProtectionResponse}
    (hsound : db.Sound) (hunique : Tables.Unique protectionKey db.groupProtections)
    (hgrant : grantProtection e req db = some (response, db')) : Tended req.groupId db db' := by
  unfold grantProtection at hgrant
  split_ifs at hgrant
  obtain ⟨-, rfl⟩ := Prod.mk.inj (Option.some.inj hgrant)
  obtain ⟨hkey, hcount, hwrite⟩ := storeGrant_protects (e := e) req db
  exact (Tended.refl hsound hunique).protects hunique (congrArg (·.2.1) hkey) hcount hwrite

/-! ### All transactions -/

/-- The group whose protections a request writes. -/
def Request.protects : Request → String → Prop
  | .grant req, groupId => groupId = req.groupId
  | .replaceGroup req, groupId => groupId = req.groupId
  | _, _ => False

/-- What a first transaction does to the protections. -/
inductive ProtectionsStep (r : Request) (db db' : Db) : Prop
  | same (hquiet : ¬ r.syncs ∨ db' = db) (h : db'.groupProtections = db.groupProtections)
  | tended (groupId : String) (hgroup : r.protects groupId) (h : Tended groupId db db')
  /-- A global protection is inherited into a group. -/
  | inherited (date : Date) (groupId userId : String) (legacy : GroupProtection)
      (hlegacy : db.protection? date allGroups userId = some legacy)
      (hnew : (date, groupId, userId) ∉ db.groupProtections.map protectionKey)
      (h : db'.groupProtections = db.groupProtections ++ [inheritGlobalProtection legacy groupId])
  /-- The first result of a round is counted. -/
  | settled (req : RoastReservationOutcomeRequest) (row : RoastReservation)
      (hrequest : r = .prepareOutcome req)
      (hrow : leasedRow db req.reservationId req.claimToken
        [.processing, .prepared, .sending, .completed] = some row)
      (hnone : row.outcomeSnapshot = none) (hstatus : row.status = .processing)
      (h : db'.groupProtections = (raiseSuccessCount row req db).groupProtections)

theorem lockProtection_cases (req : RoastReservationPrepareRequest) (db : Db) :
    (lockProtection req db).2.groupProtections = db.groupProtections ∨
      ∃ legacy, db.protection? req.dateStr allGroups req.targetId = some legacy ∧
        (req.dateStr, req.groupId, req.targetId) ∉ db.groupProtections.map protectionKey ∧
        (lockProtection req db).2.groupProtections =
          db.groupProtections ++ [inheritGlobalProtection legacy req.groupId] := by
  unfold lockProtection
  cases hown : db.protection? req.dateStr req.groupId req.targetId with
  | some protection => exact Or.inl rfl
  | none =>
      rw [protection?_eq_lookup, Tables.lookup_none] at hown
      dsimp only
      cases hlegacy : db.protection? req.dateStr allGroups req.targetId with
      | none => exact Or.inl rfl
      | some legacy =>
          dsimp only
          split_ifs
          · exact Or.inr ⟨legacy, rfl, hown, rfl⟩
          · exact Or.inl rfl

/-- A prepare or a reply inherits a protection at most. -/
theorem ProtectionsStep.of_lock {r : Request} (hquiet : ¬ r.syncs)
    (req : RoastReservationPrepareRequest)
    (h : db'.groupProtections = (lockProtection req db).2.groupProtections) :
    ProtectionsStep r db db' := by
  rcases lockProtection_cases req db with hsame | ⟨legacy, hlegacy, hnew, hlock⟩
  · exact .same (Or.inl hquiet) (h.trans hsame)
  · exact .inherited req.dateStr req.groupId req.targetId legacy hlegacy hnew (h.trans hlock)

theorem getOrCreateDailyRoll_protections (req : DailyRollGetOrCreateRequest) :
    (getOrCreateDailyRoll e req db).2.groupProtections = db.groupProtections := by
  unfold getOrCreateDailyRoll
  cases db.dailyRoll? req.dateStr req.userId with
  | some existing =>
      dsimp only
      split_ifs <;> simp
  | none => simp

theorem makeupDailyRoll_protections {req : DailyRollGetOrCreateRequest}
    {response : DailyRollLookupResponse} (h : makeupDailyRoll e req db = some (response, db')) :
    db'.groupProtections = db.groupProtections := by
  rcases makeupDailyRoll_cases h with ⟨existing, -, -, rfl⟩ | ⟨-, -, rfl⟩
  · rfl
  · simp

theorem completeDailyRollSnapshot_protections {req : DailyRollSnapshotRequest}
    {response : DailyRollOutcomeSnapshot}
    (h : completeDailyRollSnapshot req db = .ok (response, db')) :
    db'.groupProtections = db.groupProtections := by
  obtain ⟨existing, -, rfl | rfl⟩ := completeDailyRollSnapshot_ok h
  · exact rfl
  · exact rfl

theorem storeOutcome_protections (req : RoastReservationOutcomeRequest) (row : RoastReservation) :
    (storeOutcome e req row db).2.groupProtections =
      (raiseSuccessCount row req db).groupProtections := by
  unfold storeOutcome
  dsimp only
  split_ifs <;> simp

/-- **Every first transaction** leaves the protections alone, tends them, inherits one, or
counts the first result of a round. -/
theorem Request.transaction_protections (e : Env) (view : List DailyRoll) (hsound : db.Sound)
    (hunique : Tables.Unique protectionKey db.groupProtections) (r : Request) :
    ProtectionsStep r db (r.transaction e view db).db := by
  cases r with
  | getOrCreate req =>
      have hsame : (getOrCreateDailyRoll e req db).2.groupProtections = db.groupProtections :=
        getOrCreateDailyRoll_protections req
      simp only [Request.transaction]
      split <;> exact .same (Or.inl id) (by simp_all)
  | makeup req =>
      simp only [Request.transaction]
      split
      · exact .same (Or.inr rfl) rfl
      · rename_i hmakeup
        exact .same (Or.inl id) (makeupDailyRoll_protections hmakeup)
  | snapshot req =>
      simp only [Request.transaction]
      split
      · exact .same (Or.inr rfl) rfl
      · rename_i hsnapshot
        exact .same (Or.inl id) (completeDailyRollSnapshot_protections hsnapshot)
  | consumeForce req =>
      simp only [Request.transaction]
      split
      · exact .same (Or.inr rfl) rfl
      · rename_i forced hforced
        have hframe := consumeForceUsage_some hforced
        unfold OnlyUsage at hframe
        rw [hframe]
        exact .same (Or.inl id) rfl
  | grant req =>
      simp only [Request.transaction]
      split
      · exact .same (Or.inr rfl) rfl
      · rename_i hgrant
        exact .tended req.groupId rfl (grantProtection_tended hsound hunique hgrant)
  | replaceGroup req => exact .tended req.groupId rfl (replaceGroup_tended e hsound hunique req)
  | joinByMessage req =>
      simp only [Request.transaction]
      split
      · exact .same (Or.inr rfl) rfl
      · rename_i hjoin
        rcases joinByMessage_cases hjoin with
          rfl | ⟨reservation, roll, expected, replied, -, hprepared, rfl | rfl⟩
        · exact .same (Or.inr rfl) rfl
        · exact .of_lock id _ hprepared.frame.2.2.2.2
        · exact .of_lock id _ ((registerReply_frame _ _ _ _).2.2.2.2.1.trans hprepared.frame.2.2.2.2)
  | prepare req =>
      simp only [Request.transaction]
      split
      · exact .same (Or.inr rfl) rfl
      · rename_i hprepare
        exact .of_lock id req (prepareReservation_cases hprepare).frame.2.2.2.2
  | prepareOutcome req =>
      simp only [Request.transaction]
      rcases prepareOutcomeOnce_cases e req db with
        heq | ⟨row, hleased, ⟨hnone, hstatus, heq⟩ | ⟨hsome, heq⟩⟩
      · rw [heq]
        exact .same (Or.inr rfl) rfl
      · refine .settled req row rfl hleased hnone hstatus ?_
        rw [heq]
        exact storeOutcome_protections req row
      · rw [heq]
        exact .same (Or.inl id) rfl
  | _ => exact .same (Or.inl id) (by simp [Request.transaction])

/-- Counting a success rewrites one row, if any. -/
theorem raiseSuccessCount_cases (row : RoastReservation) (req : RoastReservationOutcomeRequest)
    (db : Db) :
    (raiseSuccessCount row req db).groupProtections = db.groupProtections ∧
        ¬ (req.outcomeSnapshot.eventType = "success" ∧ 0 < row.protectionRequired ∧
          row.targetKey ∈ db.groupProtections.map protectionKey) ∨
      ∃ protection ∈ db.groupProtections, protectionKey protection = row.targetKey ∧
        req.outcomeSnapshot.eventType = "success" ∧ 0 < row.protectionRequired ∧
        (raiseSuccessCount row req db).groupProtections =
          Tables.writeBack protectionKey
            [{ protection with roastSuccessCount := protection.roastSuccessCount + 1 }]
            db.groupProtections := by
  unfold raiseSuccessCount settledProtection
  by_cases hrequired : 0 < row.protectionRequired
  · rw [if_pos hrequired, protection?_eq_lookup]
    cases hlookup : Tables.lookup protectionKey db.groupProtections
        (row.dateStr, row.groupId, row.targetId) with
    | none =>
        refine Or.inl ⟨rfl, fun hcounted => ?_⟩
        exact Tables.lookup_none.mp hlookup hcounted.2.2
    | some protection =>
        obtain ⟨hmem, hkey⟩ := Tables.lookup_some hlookup
        dsimp only
        by_cases hsuccess : req.outcomeSnapshot.eventType = "success"
        · rw [if_pos hsuccess]
          exact Or.inr ⟨protection, hmem, hkey, hsuccess, hrequired, rfl⟩
        · rw [if_neg hsuccess]
          exact Or.inl ⟨rfl, fun hcounted => hsuccess hcounted.1⟩
  · rw [if_neg hrequired]
    exact Or.inl ⟨rfl, fun hcounted => hrequired hcounted.2.1⟩

theorem ProtectionsStep.unique {r : Request} (h : ProtectionsStep r db db')
    (hunique : Tables.Unique protectionKey db.groupProtections) :
    Tables.Unique protectionKey db'.groupProtections := by
  cases h with
  | same hquiet hsame => rwa [hsame]
  | tended groupId hgroup htended => exact htended.unique
  | inherited date groupId userId legacy hlegacy hnew htable =>
      rw [htable]
      refine hunique.insert fun row hrow hkey => hnew ?_
      rw [← inheritGlobalProtection_key hlegacy groupId, ← hkey]
      exact List.mem_map_of_mem hrow
  | settled req row hrequest hrow hnone hstatus htable =>
      rw [htable]
      rcases raiseSuccessCount_cases row req db with ⟨hsame, -⟩ | ⟨p, -, -, -, -, hraised⟩
      · rwa [hsame]
      · rw [hraised]
        exact hunique.writeBack

theorem Flight.transaction_protections (e : Env) (db : Db) (flight : Flight) :
    (flight.transaction e db).db.groupProtections = db.groupProtections := by
  cases flight <;> simp [Flight.transaction]

/-- A user has one protection per group and date. -/
theorem protections_unique {w : World} (h : Reachable service w) :
    Tables.Unique protectionKey w.db.groupProtections := by
  refine Reachable.invariant
    (I := fun w => Tables.Unique protectionKey w.db.groupProtections) ?_ ?_ h
  · intro w hinit
    obtain rfl : w = {} := hinit
    simp [Tables.Unique]
  · rintro w event w' hreach hunique ⟨-, -, -, rfl⟩
    have hsound := sound_of_reachable hreach
    cases haction : event.action with
    | request r view =>
        simp only [World.after]
        exact (r.transaction_protections event.env view hsound.db hunique).unique hunique
    | reconcile flight =>
        simp only [World.after, Action.transaction, Flight.transaction_protections]
        exact hunique

end RollPig
