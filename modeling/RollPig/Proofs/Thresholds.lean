/-
The threshold of a waiting round is the one its target's protection gives.

The threshold is a copy.  Grants and new rosters renew it (`Tended`), a created round
takes it from the row it locks, and everything else leaves it alone, except that a settled
success raises the level without telling anybody.  It need not: the settled round holds
the slot of its target, so no other round waits for that target.
-/
import RollPig.Proofs.Ignition
import RollPig.Proofs.Protections

namespace RollPig

open Transition

variable {warrant : Warrant} {rolls : List DailyRoll} {r r' : Round} {w w' : World} {event : Event}
  {db db' : Db} {e : Env}

/-! ### Steps that copy no protection -/

/-- Without a sync a round keeps its terms, and becomes a super round at most. -/
theorem RoundStep.terms (h : RoundStep warrant rolls r r') (hsyncs : ¬ warrant.syncs) :
    r'.row.terms = r.row.terms ∧
      (r'.row.forceMode ≠ some "super" → r.row.forceMode ≠ some "super") := by
  rcases h.crowd with hsame | hgathers
  · have hrequired : r'.row.protectionRequired = r.row.protectionRequired :=
      congrArg Gathering.State.required hsame
    have hsource : r'.row.protectionSource = r.row.protectionSource :=
      congrArg Gathering.State.source hsame
    have hmode : forceModeOf r'.row.forceMode = forceModeOf r.row.forceMode :=
      congrArg Gathering.State.mode hsame
    refine ⟨Prod.ext hrequired hsource, fun hforce hsuper => hforce ?_⟩
    rw [← forceModeOf_eq_super, hmode]
    exact forceModeOf_eq_super.mpr hsuper
  · obtain ⟨hrequired, hsource⟩ := hgathers.threshold hsyncs
    refine ⟨Prod.ext hrequired hsource, fun hforce hsuper => hforce ?_⟩
    rw [← forceModeOf_eq_super] at hsuper ⊢
    rcases hgathers.mode with hmode | hmode
    · exact hmode.trans hsuper
    · exact hmode

/-- A round that waits after a transaction without a sync waited before, on the same terms
and for the same target. -/
theorem RoundSteps.waited (h : RoundSteps warrant rolls r r') (hsyncs : ¬ warrant.syncs)
    (hpending : r'.row.status = .pending) (hforce : r'.row.forceMode ≠ some "super") :
    r.row.status = .pending ∧ r.row.forceMode ≠ some "super" ∧ r'.row.terms = r.row.terms ∧
      r'.row.targetKey = r.row.targetKey := by
  induction h with
  | refl => exact ⟨hpending, hforce, rfl, rfl⟩
  | tail _ hlast ih =>
      obtain ⟨hterms, hplain⟩ := hlast.terms hsyncs
      obtain ⟨hopen, hmode, hsame, hkey⟩ := ih (hlast.pending hpending) (hplain hforce)
      exact ⟨hopen, hmode, hterms.trans hsame, (targetKey_of_key hlast.key).trans hkey⟩

/-- **A transaction without a sync** keeps the agreement, as long as the rows of the
targets waited for stay. -/
theorem Db.Governed.evolves (h : db.Governed) (hevolves : Evolves warrant rolls db db')
    (hsyncs : ¬ warrant.syncs)
    (htable : ∀ row ∈ db.reservations, row.status = .pending →
      Tables.lookup protectionKey db'.groupProtections row.targetKey =
        Tables.lookup protectionKey db.groupProtections row.targetKey) :
    db'.Governed := by
  intro row' hrow' hpending hforce
  obtain ⟨row, hrow, -, hsteps⟩ := hevolves.rounds row' hrow'
  obtain ⟨hopen, hmode, hterms, hkey⟩ := hsteps.waited hsyncs hpending hforce
  change row'.terms = row.terms at hterms
  change row'.targetKey = row.targetKey at hkey
  rw [hterms, hkey, htable row hrow hopen]
  exact h row hrow hopen hmode

/-! ### A new round -/

/-- A created round has the terms of the protection it locked. -/
theorem insertedRow_terms {req : RoastReservationPrepareRequest} (roll : Option DailyRoll)
    {protection : Option GroupProtection} (reservationId : String)
    (hgate : protection.isSome = true → req.gathers = true ∨ req.forceMode = some "super") :
    (insertedRow e req roll protection reservationId).forceMode = req.forceMode ∧
      (req.forceMode ≠ some "super" →
        (insertedRow e req roll protection reservationId).terms = terms protection) := by
  have hnew : req.forceMode ≠ some "super" →
      (newReservation e req protection reservationId).terms = terms protection := by
    intro hforce
    cases protection with
    | none => rfl
    | some row =>
        have hgathers := (hgate rfl).resolve_right hforce
        simp only [RoastReservationPrepareRequest.gathers, Bool.and_eq_true] at hgathers
        simp [RoastReservation.terms, terms, newReservation, hgathers.1]
  cases roll with
  | none => exact ⟨rfl, hnew⟩
  | some roll =>
      unfold insertedRow
      dsimp only
      rcases activateReservation_cases e [ownerParticipant e req protection reservationId]
        (newReservation e req protection reservationId) roll.pigId false with
        ⟨-, heq⟩ | ⟨-, notice, heq⟩
      · rw [heq]
        exact ⟨rfl, hnew⟩
      · rw [heq]
        exact ⟨rfl, hnew⟩

/-- Without global protections the lock finds the row of the group. -/
theorem lockProtection_own {req : RoastReservationPrepareRequest}
    (hglobal : db.protection? req.dateStr allGroups req.targetId = none) :
    lockProtection req db =
      (Tables.lookup protectionKey db.groupProtections (req.dateStr, req.groupId, req.targetId),
        db) := by
  unfold lockProtection
  rw [← protection?_eq_lookup]
  cases db.protection? req.dateStr req.groupId req.targetId with
  | some protection => rfl
  | none => simp only [hglobal]

/-! ### Runs without global protections -/

theorem Request.syncs_of_warrant {request : Request} (h : (request.warrant e).syncs) :
    request.syncs := by
  cases request with
  | grant | replaceGroup => trivial
  | _ => exact h.elim

/-- No roster of all groups at once is replaced. -/
def Event.NamesGroups (event : Event) : Prop :=
  match event.action with
  | .request (.replaceGroup req) _ => req.groupId ≠ allGroups
  | _ => True

instance : DecidablePred Event.NamesGroups := fun event =>
  decidable_of_iff
    ((match event.action with
      | .request (.replaceGroup req) _ => decide (req.groupId ≠ allGroups)
      | _ => true) = true)
    (by unfold Event.NamesGroups; split <;> simp)

theorem numericId_ne_allGroups {groupId : String} (h : numericId groupId = true) :
    groupId ≠ allGroups := by
  rintro rfl
  exact absurd h (by decide)

theorem Event.NamesGroups.protects (h : event.NamesGroups) {request : Request}
    {view : List DailyRoll} (haction : event.action = .request request view) {groupId : String}
    (hgroup : request.protects groupId) : groupId ≠ allGroups := by
  cases request with
  | grant req =>
      obtain rfl : groupId = req.groupId := hgroup
      exact numericId_ne_allGroups req.groupId_numeric
  | replaceGroup req =>
      obtain rfl : groupId = req.groupId := hgroup
      unfold Event.NamesGroups at h
      rw [haction] at h
      exact h
  | _ => exact hgroup.elim

/-- No protection is global. -/
def Db.Local (db : Db) : Prop :=
  ∀ row ∈ db.groupProtections, row.groupId ≠ allGroups

theorem Db.Local.lookup (h : db.Local) (date : Date) (userId : String) :
    db.protection? date allGroups userId = none := by
  rw [protection?_eq_lookup, Tables.lookup_none]
  intro hmem
  obtain ⟨row, hrow, hkey⟩ := List.mem_map.mp hmem
  exact h row hrow (congrArg (·.2.1) hkey)

/-- What was there stays local, and what is written is local too. -/
theorem Db.Local.step (h : db.Local) {request : Request} (hstep : ProtectionsStep request db db')
    (hgroups : ∀ groupId, request.protects groupId → groupId ≠ allGroups) : db'.Local := by
  intro row hrow
  cases hstep with
  | same hquiet hsame => exact h row (hsame ▸ hrow)
  | tended groupId hgroup htended =>
      rcases htended.group row hrow with hold | hnew
      · obtain ⟨old, hmem, hkey⟩ := List.mem_map.mp hold
        have hsame : old.groupId = row.groupId := congrArg (·.2.1) hkey
        rw [← hsame]
        exact h old hmem
      · rw [hnew]
        exact hgroups groupId hgroup
  | inherited date groupId userId legacy hlegacy =>
      rw [h.lookup date userId] at hlegacy
      exact absurd hlegacy (by simp)
  | settled req settled hrequest hleased hnone hstatus htable =>
      rw [htable] at hrow
      rcases raiseSuccessCount_cases settled req db with
        ⟨hsame, -⟩ | ⟨protection, hmem, -, -, -, hraised⟩
      · exact h row (hsame ▸ hrow)
      · rw [hraised] at hrow
        rcases Tables.mem_writeBack_singleton hrow with ⟨hold, -⟩ | rfl
        · exact h row hold
        · exact h protection hmem

theorem local_of_reachable (h : Reachable (service.restrict Event.NamesGroups) w) : w.db.Local := by
  refine Reachable.invariant (I := fun w => w.db.Local) ?_ ?_ h
  · intro w hinit
    obtain rfl : w = {} := hinit
    simp [Db.Local]
  · rintro w event w' hreach hlocal ⟨⟨-, -, -, rfl⟩, hnames⟩
    have hservice := hreach.of_restrict
    cases haction : event.action with
    | request request view =>
        simp only [World.after]
        exact hlocal.step (request.transaction_protections event.env view
          (sound_of_reachable hservice).db (protections_unique hservice))
          fun groupId hgroup => hnames.protects haction hgroup
    | reconcile flight =>
        simp only [World.after, Action.transaction, Db.Local, Flight.transaction_protections]
        exact hlocal

/-! ### The agreement -/

/-- A round that is settled is the only one of its target, so none waits. -/
theorem settled_alone (hslots : db.Slots) {settled row : RoastReservation}
    (hsettled : settled ∈ db.reservations) (hstatus : settled.status = .processing)
    (hrow : row ∈ db.reservations) (hpending : row.status = .pending) :
    row.targetKey ≠ settled.targetKey := by
  intro hkey
  have hactive : ∀ r ∈ db.reservations, r.status ≠ .completed → r.activeSlot = some 1 := by
    intro r hr hopen
    have hslot := hslots.slotted r hr
    unfold Slotted at hslot
    rw [hslot, if_neg hopen]
  obtain rfl := hslots.unique row hrow settled hsettled (hactive row hrow (by simp [hpending]))
    (hactive settled hsettled (by simp [hstatus])) hkey
  rw [hpending] at hstatus
  exact absurd hstatus (by simp)

/-- The rows of the targets waited for stay, unless the transaction tends the protections. -/
theorem ProtectionsStep.lookup {request : Request} (h : ProtectionsStep request db db')
    (hsyncs : ¬ request.syncs) (hslots : db.Slots) (hlocal : db.Local) :
    ∀ row ∈ db.reservations, row.status = .pending →
      Tables.lookup protectionKey db'.groupProtections row.targetKey =
        Tables.lookup protectionKey db.groupProtections row.targetKey := by
  intro row hrow hpending
  cases h with
  | same hquiet hsame => rw [hsame]
  | tended groupId hgroup htended =>
      cases request with
      | grant req => exact absurd trivial hsyncs
      | replaceGroup req => exact absurd trivial hsyncs
      | _ => exact hgroup.elim
  | inherited date groupId userId legacy hlegacy =>
      rw [hlocal.lookup date userId] at hlegacy
      exact absurd hlegacy (by simp)
  | settled req settled hrequest hleased hnone hstatus htable =>
      rw [htable]
      rcases raiseSuccessCount_cases settled req db with
        ⟨hsame, -⟩ | ⟨protection, hmem, hkey, -, -, hraised⟩
      · rw [hsame]
      · set raised := { protection with roastSuccessCount := protection.roastSuccessCount + 1 }
          with hraisedRow
        have hraisedKey : protectionKey raised = protectionKey protection := rfl
        have hstored : protectionKey raised ∈ db.groupProtections.map protectionKey := by
          rw [hraisedKey]
          exact List.mem_map_of_mem hmem
        have hother : row.targetKey ≠ protectionKey raised := by
          rw [hraisedKey, hkey]
          exact settled_alone hslots (leasedRow_some hleased).1 hstatus hrow hpending
        rw [hraised, Tables.lookup_writeBack hstored, if_neg hother]

/-- A new round locks the protection of its group, and no table but the reservations' grows. -/
theorem Db.Governed.creates (h : db.Governed) {req : RoastReservationPrepareRequest}
    {row : RoastReservation} {owner : RoastReservationParticipant}
    (hcreates : Creates rolls e req db db' row owner) (hlocal : db.Local)
    (htable : db'.groupProtections = db.groupProtections) : db'.Governed := by
  intro r hr hpending hforce
  rw [htable]
  rw [hcreates.reservations] at hr
  rcases List.mem_append.mp hr with hold | hnew
  · exact h r hold hpending hforce
  · obtain rfl := List.mem_singleton.mp hnew
    obtain ⟨roll, hrow⟩ := hcreates.rowEq
    obtain ⟨-, hdate, hgroup, htarget⟩ := hcreates.key
    obtain ⟨hmode, hterms⟩ := insertedRow_terms (e := e) roll (e.uuid 0) hcreates.gate
    have htargetKey : r.targetKey = (req.dateStr, req.groupId, req.targetId) := by
      simp [RoastReservation.targetKey, hdate, hgroup, htarget]
    have hlock : (lockProtection req db).1 =
        Tables.lookup protectionKey db.groupProtections (req.dateStr, req.groupId, req.targetId) := by
      rw [lockProtection_own (hlocal.lookup req.dateStr req.targetId)]
    rw [hrow, hmode] at hforce
    rw [htargetKey, ← hlock, hrow]
    exact hterms hforce

/-- A prepare leaves the protections alone. -/
theorem ProtectionsStep.prepare {req : RoastReservationPrepareRequest}
    (h : ProtectionsStep (.prepare req) db db') (hlocal : db.Local) :
    db'.groupProtections = db.groupProtections := by
  cases h with
  | same hquiet hsame => exact hsame
  | tended groupId hgroup => exact hgroup.elim
  | inherited date groupId userId legacy hlegacy =>
      rw [hlocal.lookup date userId] at hlegacy
      exact absurd hlegacy (by simp)
  | settled settleReq row hrequest => exact absurd hrequest (by simp)

theorem governed_of_reachable (h : Reachable (service.restrict Event.NamesGroups) w) :
    w.db.Governed := by
  refine Reachable.invariant (I := fun w => w.db.Governed) ?_ ?_ h
  · intro w hinit
    obtain rfl : w = {} := hinit
    simp [Db.Governed]
  · rintro w event w' hreach hgoverned ⟨hstep, hnames⟩
    have hservice := hreach.of_restrict
    have hsound := sound_of_reachable hservice
    have hslots := slots_of_reachable hservice
    have hlocal := local_of_reachable hreach
    have hrounds := hsound.step_rounds hstep
    have hafter : w'.db = (event.action.transaction event.env w.db).db := by
      obtain ⟨-, -, -, rfl⟩ := hstep
      rfl
    cases haction : event.action with
    | reconcile flight =>
        have htable : w'.db.groupProtections = w.db.groupProtections := by
          rw [hafter, haction]
          exact flight.transaction_protections event.env w.db
        cases hrounds with
        | creates req view row owner hrequest => simp [haction] at hrequest
        | evolves hevolves =>
            refine hgoverned.evolves hevolves (by simp [Event.warrant, haction]) ?_
            intro row hrow hpending
            rw [htable]
    | request request view =>
        have hprotections : ProtectionsStep request w.db w'.db := by
          rw [hafter, haction]
          exact request.transaction_protections event.env view hsound.db
            (protections_unique hservice)
        by_cases hsyncs : request.syncs
        · cases hprotections with
          | same hquiet hsame =>
              rw [hquiet.resolve_left (fun hno => hno hsyncs)]
              exact hgoverned
          | tended groupId hgroup htended => exact htended.governed hgoverned
          | inherited date groupId userId legacy hlegacy =>
              rw [hlocal.lookup date userId] at hlegacy
              exact absurd hlegacy (by simp)
          | settled req row hrequest =>
              rw [hrequest] at hsyncs
              exact hsyncs.elim
        · have htable := hprotections.lookup hsyncs hslots hlocal
          cases hrounds with
          | evolves hevolves =>
              refine hgoverned.evolves hevolves ?_ htable
              rw [Event.warrant, haction]
              exact fun hcopies => hsyncs (request.syncs_of_warrant hcopies)
          | creates req view row owner hrequest hcreates =>
              obtain ⟨rfl, -⟩ := Action.request.inj (haction.symm.trans hrequest)
              exact hgoverned.creates hcreates hlocal (hprotections.prepare hlocal)

/-- **The threshold of a waiting round is the one of its target's protection.**  In every
run without global protections, a waiting round that was not taken over is an ordinary one
while its target has no protection in the group, and otherwise needs one more than the
level in force, for the source in force. -/
theorem threshold_governed (h : Reachable (service.restrict Event.NamesGroups) w)
    {row : RoastReservation} (hrow : row ∈ w.db.reservations) (hpending : row.status = .pending)
    (hforce : row.forceMode ≠ some "super") :
    ((∀ protection ∈ w.db.groupProtections, protectionKey protection ≠ row.targetKey) →
        row.protectionRequired = 0 ∧ row.protectionSource = .legacy) ∧
      ∀ protection ∈ w.db.groupProtections, protectionKey protection = row.targetKey →
        row.protectionRequired = 1 + protectionLevel protection ∧
          row.protectionSource = protectionSource protection := by
  have hterms := governed_of_reachable h row hrow hpending hforce
  refine ⟨fun hbare => ?_, fun protection hprotection hkey => ?_⟩
  · have hnone : Tables.lookup protectionKey w.db.groupProtections row.targetKey = none := by
      rw [Tables.lookup_none]
      intro hmem
      obtain ⟨protection, hprotection, hkey⟩ := List.mem_map.mp hmem
      exact hbare protection hprotection hkey
    rw [hnone] at hterms
    exact Prod.mk.inj hterms
  · rw [← hkey, (protections_unique h.of_restrict).lookup hprotection] at hterms
    exact Prod.mk.inj hterms

/-- The round of user 1 against user 2, who is granted a protection. -/
theorem threshold_governed_undermanned :
    ∃ row ∈ (scriptWorld undermannedScript).db.reservations,
      ∃ protection ∈ (scriptWorld undermannedScript).db.groupProtections,
        row.protectionRequired = 1 + protectionLevel protection := by
  have hreach : Reachable (service.restrict Event.NamesGroups) (scriptWorld undermannedScript) :=
    ⟨{}, _, rfl, (script_run (by decide +kernel)).restrict (by decide +kernel)⟩
  obtain ⟨row, hrow, hpending, hforce, protection, hprotection, hkey⟩ :
      ∃ row ∈ (scriptWorld undermannedScript).db.reservations,
        row.status = .pending ∧ row.forceMode ≠ some "super" ∧
          ∃ protection ∈ (scriptWorld undermannedScript).db.groupProtections,
            protectionKey protection = row.targetKey := by
    decide +kernel
  have hgoverned := (threshold_governed hreach hrow hpending hforce).2 protection hprotection hkey
  exact ⟨row, hrow, protection, hprotection, hgoverned.1⟩

end RollPig
