/-
A transaction synchronises a waiting round once at most.

A grant synchronises the rounds of one user.  A new roster goes through the users that
leave and then through the users on the list; no user is met twice, so no round is
rewritten twice.  `SyncedOnce` carries the users still to come through both loops.
-/
import RollPig.Proofs.Protections

namespace RollPig

variable {e : Env} {db db' db₀ : Db} {userId : String} {todo : String → Prop}

/-- The waiting rounds of one user are synchronised with some protection. -/
def Syncs (e : Env) (userId : String) (db db' : Db) : Prop :=
  ∃ protection removed db₁, protection.userId = userId ∧ db₁.reservations = db.reservations ∧
    db'.reservations = (syncPendingProtection e protection removed db₁).reservations

/-- A waiting round was rewritten by one sync. -/
def SyncedRow (e : Env) (row row' : RoastReservation) : Prop :=
  row.status = .pending ∧
    ∃ protection removed members, row' = syncReservation e protection removed members row

/-- Every round is as it was, or was synchronised once and its target is not to come. -/
structure SyncedOnce (e : Env) (todo : String → Prop) (db₀ db : Db) : Prop where
  ids : db.reservations.map (·.reservationId) = db₀.reservations.map (·.reservationId)
  rows : ∀ row' ∈ db.reservations, ∃ row ∈ db₀.reservations,
    row'.reservationId = row.reservationId ∧ row'.targetId = row.targetId ∧
      (row' = row ∨ ¬ todo row.targetId ∧ SyncedRow e row row')

theorem SyncedOnce.refl (e : Env) (todo : String → Prop) (db : Db) : SyncedOnce e todo db db :=
  ⟨rfl, fun row hrow => ⟨row, hrow, rfl, rfl, Or.inl rfl⟩⟩

theorem syncReservation_targetId (e : Env) (protection : GroupProtection) (removed : Bool)
    (members : List RoastReservationParticipant) (row : RoastReservation) :
    (syncReservation e protection removed members row).targetId = row.targetId :=
  congrArg (·.2.2) (syncReservation_terms e protection removed members row).2.1

/-- **One more user**: it was still to come, and is not any more. -/
theorem SyncedOnce.sync (h : SyncedOnce e todo db₀ db)
    (hids : Tables.Unique (·.reservationId) db₀.reservations) (htodo : todo userId)
    (hsync : Syncs e userId db db') :
    SyncedOnce e (fun other => todo other ∧ other ≠ userId) db₀ db' := by
  obtain ⟨protection, removed, db₁, huser, hsame, hsynced⟩ := hsync
  have hunique : Tables.Unique (·.reservationId) db₁.reservations := by
    unfold Tables.Unique
    rw [hsame, h.ids]
    exact hids
  refine ⟨?_, fun row'' hrow'' => ?_⟩
  · rw [hsynced, ← h.ids, ← hsame]
    exact Tables.map_key_writeBack
  · rw [hsynced] at hrow''
    obtain ⟨row', hrow', hcase⟩ := mem_syncPendingProtection hunique hrow''
    obtain ⟨row, hrow, hid, htarget, hrewritten⟩ := h.rows row' (hsame ▸ hrow')
    rcases hcase with ⟨hawaits, members, rfl⟩ | ⟨-, rfl⟩
    · obtain ⟨hkey, hpending, -⟩ := awaitsProtection_iff.mp hawaits
      have hhere : row.targetId = userId := by
        rw [← htarget, ← huser]
        exact congrArg (·.2.2) hkey
      -- the user was to come, so the round is as it was
      obtain rfl : row' = row := hrewritten.resolve_right fun hdone => hdone.1 (hhere ▸ htodo)
      refine ⟨row', hrow, syncReservation_reservationId .., syncReservation_targetId .., Or.inr ?_⟩
      exact ⟨fun hcomes => hcomes.2 hhere, hpending, protection, removed, members, rfl⟩
    · refine ⟨row, hrow, hid, htarget, hrewritten.imp id fun hdone => ?_⟩
      exact ⟨fun hcomes => hdone.1 hcomes.1, hdone.2⟩

theorem SyncedOnce.mono {todo' : String → Prop} (h : SyncedOnce e todo db₀ db)
    (himp : ∀ other, todo' other → todo other) : SyncedOnce e todo' db₀ db :=
  ⟨h.ids, fun row' hrow' =>
    let ⟨row, hrow, hid, htarget, hrewritten⟩ := h.rows row' hrow'
    ⟨row, hrow, hid, htarget, hrewritten.imp id fun hdone =>
      ⟨fun hcomes => hdone.1 (himp _ hcomes), hdone.2⟩⟩⟩

/-- **The loop rule**: a loop over distinct users still to come. -/
theorem SyncedOnce.foldl {α : Type} {f : Db → α → Db} {user : α → String}
    (hf : ∀ db a, f db a = db ∨ Syncs e (user a) db (f db a))
    (hids : Tables.Unique (·.reservationId) db₀.reservations) (items : List α)
    (hdistinct : (items.map user).Nodup) (htodo : ∀ a ∈ items, todo (user a))
    (h : SyncedOnce e todo db₀ db) :
    SyncedOnce e (fun other => todo other ∧ other ∉ items.map user) db₀ (items.foldl f db) := by
  induction items generalizing db todo with
  | nil => exact h.mono fun other hcomes => hcomes.1
  | cons a rest ih =>
      rw [List.map_cons, List.nodup_cons] at hdistinct
      have hfirst : SyncedOnce e (fun other => todo other ∧ other ≠ user a) db₀ (f db a) := by
        rcases hf db a with hsame | hsync
        · rw [hsame]
          exact h.mono fun other hcomes => hcomes.1
        · exact h.sync hids (htodo a (by simp)) hsync
      have hrest : ∀ b ∈ rest, todo (user b) ∧ user b ≠ user a := by
        intro b hb
        refine ⟨htodo b (List.mem_cons_of_mem a hb), fun hsame => hdistinct.1 ?_⟩
        exact hsame ▸ List.mem_map_of_mem hb
      refine (ih hdistinct.2 hrest hfirst).mono fun other hcomes => ?_
      rw [List.map_cons, List.mem_cons, not_or] at hcomes
      exact ⟨⟨hcomes.1, hcomes.2.1⟩, hcomes.2.2⟩

/-! ### The two requests -/

theorem removeFromRoster_syncs (e : Env) (req : ReplaceGroupProtectionsRequest)
    (row : GroupProtection) (db : Db) : Syncs e row.userId db (removeFromRoster e req row db) := by
  unfold removeFromRoster
  dsimp only
  split_ifs
  · exact ⟨row, true, db, rfl, rfl, rfl⟩
  · exact ⟨_, false, db.flushProtection _, by rfl, by rfl, rfl⟩

/-- A user that joins the roster has the row written and the waiting rounds synchronised. -/
theorem addToRoster_writes (e : Env) (req : ReplaceGroupProtectionsRequest)
    (current previous : List GroupProtection) (userId : String) (db : Db) :
    addToRoster e req current previous userId db = db ∨
      ∃ protection db₁, protection.userId = userId ∧ db₁.reservations = db.reservations ∧
        db₁.participants = db.participants ∧
        addToRoster e req current previous userId db =
          syncPendingProtection e protection false db₁ := by
  have huser : ∀ yesterday row, (∀ own ∈ row, own.userId = userId) →
      (dailyRow req yesterday userId row).userId = userId := by
    intro yesterday row hown
    have hkey := congrArg (·.2.2) (dailyRow_frame req yesterday userId row).1
    cases row with
    | none => exact hkey
    | some own => exact hkey.trans (hown own rfl)
  unfold addToRoster
  cases hfind : current.find? (·.userId = userId) with
  | some own =>
      have hown : own.userId = userId := by simpa using List.find?_some hfind
      simp only [Option.isSome_some, if_true]
      split_ifs
      · exact Or.inl rfl
      · exact Or.inr ⟨_, _, huser _ _ (by simpa using hown), by rfl, by rfl, rfl⟩
  | none =>
      have hinherited : ∀ own ∈ (globalProtection? db req.protectDate req.groupId userId).map
          (inheritGlobalProtection · req.groupId), own.userId = userId := by
        intro own hown
        obtain ⟨legacy, hlegacy, rfl⟩ := Option.map_eq_some_iff.mp hown
        unfold globalProtection? at hlegacy
        split_ifs at hlegacy
        rw [protection?_eq_lookup] at hlegacy
        exact congrArg (·.2.2) (Tables.lookup_some hlegacy).2
      simp only [Option.isSome_none, Bool.false_eq_true, if_false]
      split_ifs
      · exact Or.inl rfl
      · exact Or.inr ⟨_, _, huser _ _ hinherited, by rfl, by rfl, rfl⟩

theorem addToRoster_syncs (e : Env) (req : ReplaceGroupProtectionsRequest)
    (current previous : List GroupProtection) (userId : String) (db : Db) :
    addToRoster e req current previous userId db = db ∨
      Syncs e userId db (addToRoster e req current previous userId db) := by
  rcases addToRoster_writes e req current previous userId db with
    hsame | ⟨protection, db₁, huser, hrows, -, heq⟩
  · exact Or.inl hsame
  · exact Or.inr ⟨protection, false, db₁, huser, hrows, by rw [heq]⟩

/-- The users of a group on a date have one row each. -/
theorem groupRows_users (hunique : Tables.Unique protectionKey db.groupProtections)
    (groupId : String) (date : Date) (p : GroupProtection → Bool) :
    (((groupRows db groupId date).filter p).map (·.userId)).Nodup := by
  have hkeys : ((groupRows db groupId date).filter p).map protectionKey =
      (((groupRows db groupId date).filter p).map (·.userId)).map fun userId =>
        (date, groupId, userId) := by
    rw [List.map_map]
    refine List.map_congr_left fun row hrow => ?_
    obtain ⟨hmem, -⟩ := List.mem_filter.mp hrow
    obtain ⟨-, hgroup⟩ := List.mem_filter.mp hmem
    simp only [decide_eq_true_eq] at hgroup
    simp [protectionKey, hgroup]
  have hnodup : (((groupRows db groupId date).filter p).map protectionKey).Nodup :=
    (hunique.filter _).filter _
  rw [hkeys] at hnodup
  exact hnodup.of_map _

/-- **A new roster synchronises each round once at most.** -/
theorem replaceGroup_syncedOnce (e : Env) (req : ReplaceGroupProtectionsRequest)
    (hids : Tables.Unique (·.reservationId) db.reservations)
    (hunique : Tables.Unique protectionKey db.groupProtections) :
    SyncedOnce e (fun _ => False) db (replaceGroup e req db) := by
  have hleft := SyncedOnce.foldl (fun db row => Or.inr (removeFromRoster_syncs e req row db)) hids
    ((groupRows db req.groupId req.protectDate).filter fun row =>
      row.userId ∉ normalizedIds req.userIds)
    (groupRows_users hunique req.groupId req.protectDate _) (fun _ _ => trivial)
    (SyncedOnce.refl e (fun _ => True) db)
  have hdistinct : ((normalizedIds req.userIds).map id).Nodup := by
    rw [List.map_id]
    exact normalizedIds_nodup _
  have hadds : ∀ current previous db userId,
      addToRoster e req current previous userId db = db ∨
        Syncs e (id userId) db (addToRoster e req current previous userId db) :=
    fun current previous db userId => addToRoster_syncs e req current previous userId db
  have hjoined := SyncedOnce.foldl (hadds (groupRows db req.groupId req.protectDate)
    (groupRows db req.groupId (req.protectDate - 1))) hids _ hdistinct ?_ hleft
  · exact hjoined.mono fun _ hno => hno.elim
  · intro userId huser
    refine ⟨trivial, fun hmem => ?_⟩
    obtain ⟨row, hrow, hsame⟩ := List.mem_map.mp hmem
    have hleaves := (List.mem_filter.mp hrow).2
    rw [hsame] at hleaves
    exact absurd huser (by simpa using hleaves)

theorem grantProtection_syncedOnce {req : GrantProtectionRequest}
    {response : GrantProtectionResponse} (hgrant : grantProtection e req db = some (response, db'))
    (hids : Tables.Unique (·.reservationId) db.reservations) :
    SyncedOnce e (fun _ => False) db db' := by
  unfold grantProtection at hgrant
  split_ifs at hgrant
  obtain ⟨-, rfl⟩ := Prod.mk.inj (Option.some.inj hgrant)
  have hsync : Syncs e req.userId db
      (syncPendingProtection e (storeGrant req db).2.1 false (storeGrant req db).2.2) :=
    ⟨_, false, _, congrArg (·.2.2) (storeGrant_protects (e := e) req db).1, by simp, rfl⟩
  exact ((SyncedOnce.refl e (fun _ => True) db).sync hids trivial hsync).mono fun _ hno => hno.elim

end RollPig
