/-
What one transaction does to one protection row.

The table of the protections is followed key by key: the row of a user in a group on a
date is granted, put on or off a new roster, inherited, counted up by a success, or left
as it is (`RowStep`).  Whatever is said of a row over a whole run is shown step by step
from here.
-/
import RollPig.Proofs.Grants
import RollPig.Proofs.RosterRows
import RollPig.Proofs.Feeding

namespace RollPig

open Transition

variable {e : Env} {db db' : Db} {w w' : World} {event : Event} {k : Date × String × String}

/-- The row under a key. -/
def Db.rowAt (db : Db) (k : Date × String × String) : Option GroupProtection :=
  Tables.lookup protectionKey db.groupProtections k

theorem rowAt_eq (db : Db) (date : Date) (groupId userId : String) :
    db.protection? date groupId userId = db.rowAt (date, groupId, userId) :=
  protection?_eq_lookup db date groupId userId

/-- The request replaces the roster the row belongs to. -/
def Request.replaces (r : Request) (k : Date × String × String) : Prop :=
  ∃ req, r = .replaceGroup req ∧ req.protectDate = k.1 ∧ req.groupId = k.2.1

/-- The request is the first result of a round, a success against the protection under
this key. -/
def Request.scores (db : Db) (r : Request) (k : Date × String × String) : Prop :=
  ∃ req round, r = .prepareOutcome req ∧ Fresh db req round ∧
    req.outcomeSnapshot.eventType = "success" ∧ 0 < round.protectionRequired ∧
    round.targetKey = k

/-- The request grants the row, on the day it is for. -/
def Request.grants (e : Env) (r : Request) (k : Date × String × String) : Prop :=
  ∃ req, r = .grant req ∧ (req.protectDate, req.groupId, req.userId) = k ∧
    req.protectDate = rollpigToday e.now

/-- The request may open the row of its target: a prepare or a reply. -/
def Request.opens : Request → Prop
  | .prepare _ | .joinByMessage _ => True
  | _ => False

/-- The row a grant leaves. -/
def grantedOr (req : GrantProtectionRequest) (row : Option GroupProtection) : GroupProtection :=
  match row with
  | some row => grantedRow req row
  | none => firstGrant req

/-- The request neither grants nor replaces the row, nor counts a success on it. -/
structure Request.Aside (e : Env) (r : Request) (db : Db) (k : Date × String × String) : Prop where
  grants : ¬ r.grants e k
  replaces : ¬ r.replaces k
  scores : db.rowAt k = none ∨ ¬ r.scores db k

/-- What becomes of the row under a key. -/
inductive RowStep (e : Env) (r : Request) (db : Db) (k : Date × String × String) :
    Option GroupProtection → Prop
  | same (haside : r.Aside e db k) : RowStep e r db k (db.rowAt k)
  | granted (req : GrantProtectionRequest) (hrequest : r = .grant req)
      (hkey : (req.protectDate, req.groupId, req.userId) = k)
      (htoday : req.protectDate = rollpigToday e.now) :
      RowStep e r db k (some (grantedOr req
        (ownOrInherited db req.protectDate req.groupId req.userId)))
  | replaced (req : ReplaceGroupProtectionsRequest) (hrequest : r = .replaceGroup req)
      (hdate : req.protectDate = k.1) (hgroup : req.groupId = k.2.1) :
      RowStep e r db k (rosterRow req db k.2.2)
  | inherited (legacy : GroupProtection) (hopens : r.opens)
      (hglobal : db.protection? k.1 allGroups k.2.2 = some legacy) (hnone : db.rowAt k = none) :
      RowStep e r db k (some (inheritGlobalProtection legacy k.2.1))
  | counted (row : GroupProtection) (hrow : db.rowAt k = some row) (hscores : r.scores db k) :
      RowStep e r db k (some { row with roastSuccessCount := row.roastSuccessCount + 1 })

/-! ### The single requests -/

/-- All requests but these three write no protection of their own. -/
def Request.standsAside : Request → Prop
  | .grant _ | .replaceGroup _ | .prepareOutcome _ => False
  | _ => True

theorem Request.standsAside.aside {r : Request} (h : r.standsAside) : r.Aside e db k := by
  refine ⟨?_, ?_, Or.inr ?_⟩
  · rintro ⟨req, rfl, -⟩
    exact h
  · rintro ⟨req, rfl, -⟩
    exact h
  · rintro ⟨req, _, rfl, -⟩
    exact h

theorem RowStep.of_table {r : Request} (h : db'.groupProtections = db.groupProtections)
    (haside : r.Aside e db k) : RowStep e r db k (db'.rowAt k) := by
  have hsame : db'.rowAt k = db.rowAt k := by
    unfold Db.rowAt
    rw [h]
  rw [hsame]
  exact .same haside

/-- A prepare or a reply may have the row inherited. -/
theorem RowStep.of_lock {r : Request} (haside : r.Aside e db k) (hopens : r.opens)
    (req : RoastReservationPrepareRequest)
    (h : db'.groupProtections = (lockProtection req db).2.groupProtections) :
    RowStep e r db k (db'.rowAt k) := by
  rcases lockProtection_cases req db with hsame | ⟨legacy, hlegacy, hnew, hlock⟩
  · exact .of_table (h.trans hsame) haside
  · have hkey := inheritGlobalProtection_key hlegacy req.groupId
    have hrow : db'.rowAt k = if k = (req.dateStr, req.groupId, req.targetId) then
        some (inheritGlobalProtection legacy req.groupId) else db.rowAt k := by
      unfold Db.rowAt
      rw [h, hlock, ← hkey]
      exact Tables.lookup_insert (hkey ▸ hnew) k
    rw [hrow]
    by_cases hk : k = (req.dateStr, req.groupId, req.targetId)
    · subst hk
      rw [if_pos rfl]
      exact .inherited legacy hopens hlegacy (Tables.lookup_none.mpr hnew)
    · rw [if_neg hk]
      exact .same haside

theorem storeGrant_rowAt (e : Env) (req : GrantProtectionRequest) (db : Db)
    (k : Date × String × String) :
    (syncPendingProtection e (storeGrant req db).2.1 false (storeGrant req db).2.2).rowAt k =
      if k = (req.protectDate, req.groupId, req.userId) then
        some (grantedOr req (ownOrInherited db req.protectDate req.groupId req.userId))
      else db.rowAt k := by
  obtain ⟨hkey, -, hwrite⟩ := storeGrant_protects (e := e) req db
  obtain ⟨-, hgranted⟩ := storeGrant_cases req db
  by_cases hk : k = (req.protectDate, req.groupId, req.userId)
  · subst hk
    rw [if_pos rfl, ← rowAt_eq]
    refine (storeGrant_lookup e req db).trans ?_
    rw [hgranted]
    rfl
  · rw [if_neg hk]
    rw [← hkey] at hk
    generalize (storeGrant req db).2.1 = row at hk hwrite
    generalize syncPendingProtection e row false (storeGrant req db).2.2 = written at hwrite
    cases hwrite with
    | update hold => exact Tables.lookup_writeBack_ne hk
    | insert hnew => exact (Tables.lookup_insert hnew k).trans (if_neg hk)
    | delete => exact (Tables.lookup_delete db.groupProtections (protectionKey row) k).trans (if_neg hk)

theorem replaceGroup_rowStep (e : Env) (hunique : Tables.Unique protectionKey db.groupProtections)
    (req : ReplaceGroupProtectionsRequest) (k : Date × String × String) :
    RowStep e (.replaceGroup req) db k ((replaceGroup e req db).rowAt k) := by
  have hrow := replaceGroup_lookup e req hunique k
  by_cases hk : k.1 = req.protectDate ∧ k.2.1 = req.groupId
  · rw [if_pos hk] at hrow
    unfold Db.rowAt
    rw [hrow]
    exact .replaced req rfl hk.1.symm hk.2.symm
  · rw [if_neg hk] at hrow
    unfold Db.rowAt
    rw [hrow]
    refine .same ⟨?_, ?_, Or.inr ?_⟩
    · rintro ⟨_, hother, -⟩
      cases hother
    · rintro ⟨other, hother, hdate, hgroup⟩
      obtain rfl := Request.replaceGroup.inj hother
      exact hk ⟨hdate.symm, hgroup.symm⟩
    · rintro ⟨_, _, hother, -⟩
      cases hother

theorem prepareOutcome_aside {req : RoastReservationOutcomeRequest}
    (hquiet : db.rowAt k = none ∨ ¬ (Request.prepareOutcome req).scores db k) :
    (Request.prepareOutcome req).Aside e db k := by
  refine ⟨?_, ?_, hquiet⟩
  · rintro ⟨_, hother, -⟩
    cases hother
  · rintro ⟨_, hother, -⟩
    cases hother

/-- The first result of a round counts for one row at most. -/
theorem raiseSuccessCount_rowAt (e : Env) {req : RoastReservationOutcomeRequest} {round : RoastReservation}
    (hunique : Tables.Unique protectionKey db.groupProtections) (hfresh : Fresh db req round)
    (h : db'.groupProtections = (raiseSuccessCount round req db).groupProtections) :
    RowStep e (.prepareOutcome req) db k (db'.rowAt k) := by
  have hscored : (Request.prepareOutcome req).scores db k →
      req.outcomeSnapshot.eventType = "success" ∧ 0 < round.protectionRequired ∧
        round.targetKey = k := by
    rintro ⟨other, round', hother, hfresh', hsuccess, hrequired, htarget⟩
    obtain rfl := Request.prepareOutcome.inj hother
    obtain rfl := Option.some.inj (hfresh.leased.symm.trans hfresh'.leased)
    exact ⟨hsuccess, hrequired, htarget⟩
  rcases raiseSuccessCount_cases round req db with ⟨hsame, hno⟩ | ⟨protection, hmem, hkey, hsuccess,
    hrequired, htable⟩
  · refine .of_table (h.trans hsame) (prepareOutcome_aside ?_)
    by_cases hscores : (Request.prepareOutcome req).scores db k
    · obtain ⟨hsuccess, hrequired, htarget⟩ := hscored hscores
      refine Or.inl (Tables.lookup_none.mpr fun hmem => hno ⟨hsuccess, hrequired, ?_⟩)
      rwa [htarget]
    · exact Or.inr hscores
  · have hraised : protectionKey { protection with
        roastSuccessCount := protection.roastSuccessCount + 1 } = round.targetKey := hkey
    have hrow : db'.rowAt k = if k = round.targetKey then some { protection with
        roastSuccessCount := protection.roastSuccessCount + 1 } else db.rowAt k := by
      unfold Db.rowAt
      rw [h, htable, ← hraised]
      refine Tables.lookup_writeBack ?_ k
      rw [hraised, ← hkey]
      exact List.mem_map_of_mem hmem
    rw [hrow]
    by_cases hk : k = round.targetKey
    · rw [if_pos hk]
      refine .counted protection ?_ ⟨req, round, rfl, hfresh, hsuccess, hrequired, hk.symm⟩
      unfold Db.rowAt
      rw [hk, ← hkey]
      exact hunique.lookup hmem
    · rw [if_neg hk]
      exact .same (prepareOutcome_aside (Or.inr fun hscores => hk (hscored hscores).2.2.symm))

/-- A grant for another day is refused. -/
theorem grant_rowStep (e : Env) (view : List DailyRoll) (req : GrantProtectionRequest) :
    RowStep e (.grant req) db k (((Request.grant req).transaction e view db).db.rowAt k) := by
  have haside : ¬ ((req.protectDate, req.groupId, req.userId) = k ∧
      req.protectDate = rollpigToday e.now) → (Request.grant req).Aside e db k := by
    intro hnot
    refine ⟨?_, ?_, Or.inr ?_⟩
    · rintro ⟨other, hother, hkey, htoday⟩
      obtain rfl := Request.grant.inj hother
      exact hnot ⟨hkey, htoday⟩
    · rintro ⟨_, hother, -⟩
      cases hother
    · rintro ⟨_, _, hother, -⟩
      cases hother
  simp only [Request.transaction, grantProtection]
  by_cases htoday : req.protectDate = rollpigToday e.now
  · simp only [ne_eq, htoday, not_true, if_false]
    rw [storeGrant_rowAt]
    by_cases hk : k = (req.protectDate, req.groupId, req.userId)
    · rw [if_pos hk]
      exact .granted req rfl hk.symm htoday
    · rw [if_neg hk]
      exact .same (haside fun hboth => hk hboth.1.symm)
  · simp only [ne_eq, htoday, not_false_eq_true, if_true]
    exact .same (haside fun hboth => htoday hboth.2)

/-- **What a transaction does to the row under a key.** -/
theorem Request.transaction_rowStep (e : Env) (view : List DailyRoll)
    (hunique : Tables.Unique protectionKey db.groupProtections) (r : Request)
    (k : Date × String × String) :
    RowStep e r db k ((r.transaction e view db).db.rowAt k) := by
  have haside : r.standsAside → r.Aside e db k := fun h => h.aside
  cases r with
  | getOrCreate req =>
      have hsame : (getOrCreateDailyRoll e req db).2.groupProtections = db.groupProtections :=
        getOrCreateDailyRoll_protections req
      simp only [Request.transaction]
      split <;> exact .of_table (by simp_all) (haside trivial)
  | makeup req =>
      simp only [Request.transaction]
      split
      · exact .same (haside trivial)
      · rename_i hmakeup
        exact .of_table (makeupDailyRoll_protections hmakeup) (haside trivial)
  | snapshot req =>
      simp only [Request.transaction]
      split
      · exact .same (haside trivial)
      · rename_i hsnapshot
        exact .of_table (completeDailyRollSnapshot_protections hsnapshot) (haside trivial)
  | consumeForce req =>
      simp only [Request.transaction]
      split
      · exact .same (haside trivial)
      · rename_i forced hforced
        have hframe := consumeForceUsage_some hforced
        unfold OnlyUsage at hframe
        rw [hframe]
        exact .of_table rfl (haside trivial)
  | grant req => exact grant_rowStep e view req
  | replaceGroup req => exact replaceGroup_rowStep e hunique req k
  | joinByMessage req =>
      simp only [Request.transaction]
      split
      · exact .same (haside trivial)
      · rename_i hjoin
        rcases joinByMessage_cases hjoin with
          rfl | ⟨reservation, roll, expected, replied, -, hprepared, rfl | rfl⟩
        · exact .same (haside trivial)
        · exact .of_lock (haside trivial) trivial _ hprepared.frame.2.2.2.2
        · exact .of_lock (haside trivial) trivial _
            ((registerReply_frame _ _ _ _).2.2.2.2.1.trans hprepared.frame.2.2.2.2)
  | prepare req =>
      simp only [Request.transaction]
      split
      · exact .same (haside trivial)
      · rename_i hprepare
        exact .of_lock (haside trivial) trivial req (prepareReservation_cases hprepare).frame.2.2.2.2
  | prepareOutcome req =>
      simp only [Request.transaction]
      by_cases hfresh : ∃ row, Fresh db req row
      · obtain ⟨row, hfresh⟩ := hfresh
        refine raiseSuccessCount_rowAt e hunique hfresh ?_
        rw [prepareOutcomeOnce_fresh e hfresh]
        exact storeOutcome_protections req row
      · have hunscored : ¬ (Request.prepareOutcome req).scores db k := by
          rintro ⟨other, row, hother, hrow, -⟩
          obtain rfl := Request.prepareOutcome.inj hother
          exact hfresh ⟨row, hrow⟩
        have hquiet : (Request.prepareOutcome req).Aside e db k :=
          prepareOutcome_aside (Or.inr hunscored)
        rcases prepareOutcomeOnce_cases e req db with
          heq | ⟨row, hleased, ⟨hnone, hstatus, -⟩ | ⟨-, heq⟩⟩
        · rw [heq]
          exact .same hquiet
        · exact absurd ⟨row, hleased, hnone, hstatus⟩ hfresh
        · rw [heq]
          exact .of_table rfl hquiet
  | _ => exact .of_table (by simp [Request.transaction]) (haside trivial)

/-- The second transaction of a request touches no protection. -/
theorem step_rowAt (hunique : Tables.Unique protectionKey w.db.groupProtections)
    (hstep : service.step w event w') (k : Date × String × String) :
    (∃ r view, event.action = .request r view ∧ RowStep event.env r w.db k (w'.db.rowAt k)) ∨
      (∃ flight, event.action = .reconcile flight) ∧ w'.db.rowAt k = w.db.rowAt k := by
  obtain ⟨-, -, -, rfl⟩ := hstep
  show (∃ r view, _ ∧ RowStep event.env r w.db k
      ((event.action.transaction event.env w.db).db.rowAt k)) ∨ _ ∧ (event.action.transaction event.env w.db).db.rowAt k = w.db.rowAt k
  cases event.action with
  | request r view => exact Or.inl ⟨r, view, rfl, r.transaction_rowStep event.env view hunique k⟩
  | reconcile flight =>
      refine Or.inr ⟨⟨flight, rfl⟩, ?_⟩
      unfold Db.rowAt
      rw [Action.transaction, Flight.transaction_protections]

/-- The rows keep their keys to themselves. -/
theorem World.Sound.step_protections (hsound : w.Sound)
    (hunique : Tables.Unique protectionKey w.db.groupProtections)
    (hstep : service.step w event w') :
    Tables.Unique protectionKey w'.db.groupProtections := by
  obtain ⟨-, -, -, rfl⟩ := hstep
  show Tables.Unique protectionKey (event.action.transaction event.env w.db).db.groupProtections
  cases event.action with
  | request r view =>
      exact (r.transaction_protections event.env view hsound.db hunique).unique hunique
  | reconcile flight =>
      rw [Action.transaction, Flight.transaction_protections]
      exact hunique

end RollPig
