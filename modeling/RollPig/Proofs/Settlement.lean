/-
A round is settled once.

The first result goes into a row that has none, and no later step takes it out again, so
whatever is done together with storing it is done once: the success is counted against
the protection, the feeds are written and listed.  A repeated request finds the result
and changes nothing.
-/
import RollPig.Proofs.Feeding
import RollPig.Proofs.Growth
import RollPig.Proofs.Protections

namespace RollPig

open Transition

variable {w w' w₁ w₂ w₃ : World} {event event' : Event} {db : Db} {e : Env}
  {row row' : RoastReservation} {id : String} {k k' : Date × String × String}

/-! ### The first result -/

/-- The transaction of an outcome request stores the first result of the round, a success,
while the round is protected; the protection is the one under this key. -/
structure Scores (w : World) (event : Event) (w' : World) (id : String)
    (k : Date × String × String) : Prop where
  request : ∃ req view, event.action = .request (.prepareOutcome req) view
  first : ∃ row ∈ w.db.reservations, row.reservationId = id ∧ row.outcomeSnapshot = none ∧
    0 < row.protectionRequired ∧ row.targetKey = k
  stored : ∃ row' ∈ w'.db.reservations, row'.reservationId = id ∧
    ∃ snapshot, row'.outcomeSnapshot = some snapshot ∧ snapshot.eventType = "success"

/-- A result a request stores is its own, and the request held the round's token. -/
theorem fresh_of_stored {req : RoastReservationOutcomeRequest}
    (hids : Tables.Unique (·.reservationId) db.reservations) (hrow : row ∈ db.reservations)
    (hnone : row.outcomeSnapshot = none) (hrow' : row' ∈ (prepareOutcomeOnce e req db).2.reservations)
    (hid : row'.reservationId = row.reservationId) {snapshot : OutcomeSnapshot}
    (hstored : row'.outcomeSnapshot = some snapshot) :
    Fresh db req row ∧ snapshot = req.outcomeSnapshot := by
  have hunchanged : ∀ r ∈ db.reservations, r.reservationId = row.reservationId →
      r.outcomeSnapshot ≠ some snapshot := by
    intro r hr hsame hsome
    obtain rfl : r = row := hids.eq hr hrow hsame
    rw [hnone] at hsome
    exact absurd hsome (by simp)
  rcases prepareOutcomeOnce_cases e req db with
    heq | ⟨leased, hleased, ⟨hunsettled, hstatus, heq⟩ | ⟨hsettled, heq⟩⟩
  · rw [heq] at hrow'
    exact absurd hstored (hunchanged row' hrow' hid)
  · rw [heq] at hrow'
    have hmem : row' ∈ Tables.writeBack (·.reservationId)
        [markPrepared (storeOutcome e req leased db).1] (storeOutcome e req leased db).2.reservations :=
      hrow'
    rcases Tables.mem_writeBack_singleton hmem with ⟨hold, -⟩ | rfl
    · exact absurd hstored (hunchanged row' (by simpa using hold) hid)
    · have hprepared : markPrepared (storeOutcome e req leased db).1 =
          { (storeOutcome e req leased db).1 with status := .prepared } :=
        markPrepared_processing (by exact hstatus)
      rw [hprepared] at hstored hid
      obtain rfl : leased = row := hids.eq (leasedRow_some hleased).1 hrow hid
      exact ⟨⟨hleased, hunsettled, hstatus⟩, (Option.some.inj hstored).symm⟩
  · rw [heq] at hrow'
    have hmem : row' ∈ Tables.writeBack (·.reservationId) [markPrepared leased] db.reservations :=
      hrow'
    rcases Tables.mem_writeBack_singleton hmem with ⟨hold, -⟩ | rfl
    · exact absurd hstored (hunchanged row' hold hid)
    · rw [markPrepared_reservationId] at hid
      obtain rfl : leased = row := hids.eq (leasedRow_some hleased).1 hrow hid
      rw [hnone] at hsettled
      exact absurd hsettled (by simp)

theorem scores_iff (hsound : w.Sound) (hstep : service.step w event w') :
    Scores w event w' id k ↔ ∃ req view row, event.action = .request (.prepareOutcome req) view ∧
      Fresh w.db req row ∧ row.reservationId = id ∧ row.targetKey = k ∧
        req.outcomeSnapshot.eventType = "success" ∧ 0 < row.protectionRequired := by
  constructor
  · rintro ⟨⟨req, view, haction⟩, ⟨row, hrow, hid, hnone, hrequired, hkey⟩, row', hrow', hid',
      snapshot, hstored, hsuccess⟩
    obtain ⟨-, -, -, rfl⟩ := hstep
    have hdb : (w.after event.env event.action).db = (prepareOutcomeOnce event.env req w.db).2 := by
      show (event.action.transaction event.env w.db).db = _
      rw [haction]
      rfl
    rw [hdb] at hrow'
    obtain ⟨hfresh, rfl⟩ :=
      fresh_of_stored hsound.db.ids hrow hnone hrow' (hid'.trans hid.symm) hstored
    exact ⟨req, view, row, haction, hfresh, hid, hkey, hsuccess, hrequired⟩
  · rintro ⟨req, view, row, haction, hfresh, hid, hkey, hsuccess, hrequired⟩
    obtain ⟨row', hrow', hsame, hstored, -⟩ := settled_row hstep haction hfresh
    exact ⟨⟨req, view, haction⟩,
      ⟨row, (leasedRow_some hfresh.leased).1, hid, hfresh.unsettled, hrequired, hkey⟩,
      row', hrow', (key_eq.mp hsame).1.trans hid, _, hstored, hsuccess⟩

/-! ### Counting the success -/

/-- Only the counter of the round's own protection is raised, by one. -/
theorem raised_count (hunique : Tables.Unique protectionKey db.groupProtections)
    {req : RoastReservationOutcomeRequest} {protection protection' : GroupProtection}
    (hmem : protection ∈ db.groupProtections)
    (hmem' : protection' ∈ (raiseSuccessCount row req db).groupProtections)
    (hkey : protectionKey protection' = protectionKey protection) :
    protection'.roastSuccessCount = protection.roastSuccessCount +
      if req.outcomeSnapshot.eventType = "success" ∧ 0 < row.protectionRequired ∧
        row.targetKey = protectionKey protection then 1 else 0 := by
  rcases raiseSuccessCount_cases row req db with ⟨hsame, hno⟩ | ⟨raised, hraised, htarget,
    hsuccess, hrequired, htable⟩
  · rw [hsame] at hmem'
    obtain rfl := hunique.eq hmem' hmem hkey
    rw [if_neg]
    · rfl
    · rintro ⟨hsuccess, hrequired, htarget⟩
      exact hno ⟨hsuccess, hrequired, htarget ▸ List.mem_map_of_mem hmem⟩
  · rw [htable] at hmem'
    rcases Tables.mem_writeBack_singleton hmem' with ⟨hold, hne⟩ | rfl
    · obtain rfl := hunique.eq hold hmem hkey
      rw [if_neg]
      · rfl
      · rintro ⟨-, -, hsame⟩
        exact hne (hsame.symm.trans htarget.symm)
    · have hsame : protectionKey raised = protectionKey protection := hkey
      obtain rfl := hunique.eq hraised hmem hsame
      rw [if_pos ⟨hsuccess, hrequired, htarget.symm⟩]

/-- **A step raises the counter of a protection by one when it scores, and never else.** -/
theorem step_counts (h : Reachable service w) (hstep : service.step w event w')
    {protection protection' : GroupProtection} (hmem : protection ∈ w.db.groupProtections)
    (hmem' : protection' ∈ w'.db.groupProtections)
    (hkey : protectionKey protection' = protectionKey protection) :
    ((∃ id, Scores w event w' id (protectionKey protection)) ∧
        protection'.roastSuccessCount = protection.roastSuccessCount + 1) ∨
      ((¬ ∃ id, Scores w event w' id (protectionKey protection)) ∧
        protection'.roastSuccessCount = protection.roastSuccessCount) := by
  have hsound := sound_of_reachable h
  have hunique := protections_unique h
  have hscores := fun id => @scores_iff w w' event id (protectionKey protection) hsound hstep
  by_cases hsettles : ∃ req view row, event.action = .request (.prepareOutcome req) view ∧
      Fresh w.db req row
  · obtain ⟨req, view, row, haction, hfresh⟩ := hsettles
    have hdb : w'.db = (prepareOutcomeOnce event.env req w.db).2 := by
      obtain ⟨-, -, -, rfl⟩ := hstep
      show (event.action.transaction event.env w.db).db = _
      rw [haction]
      rfl
    have htable : w'.db.groupProtections = (raiseSuccessCount row req w.db).groupProtections := by
      rw [hdb, prepareOutcomeOnce_fresh event.env hfresh]
      exact storeOutcome_protections req row
    rw [htable] at hmem'
    have hcount := raised_count hunique hmem hmem' hkey
    by_cases hscored : req.outcomeSnapshot.eventType = "success" ∧ 0 < row.protectionRequired ∧
        row.targetKey = protectionKey protection
    · rw [if_pos hscored] at hcount
      obtain ⟨hsuccess, hrequired, htarget⟩ := hscored
      exact Or.inl ⟨⟨_, (hscores _).mpr
        ⟨req, view, row, haction, hfresh, rfl, htarget, hsuccess, hrequired⟩⟩, hcount⟩
    · rw [if_neg hscored] at hcount
      refine Or.inr ⟨?_, hcount⟩
      rintro ⟨id, hscore⟩
      obtain ⟨req', view', row', haction', hfresh', -, htarget, hsuccess, hrequired⟩ :=
        (hscores id).mp hscore
      rw [haction] at haction'
      cases haction'
      obtain rfl : row = row' := Option.some.inj (hfresh.leased.symm.trans hfresh'.leased)
      exact hscored ⟨hsuccess, hrequired, htarget⟩
  · refine Or.inr ⟨?_, ?_⟩
    · rintro ⟨id, hscore⟩
      obtain ⟨req, view, row, haction, hfresh, -⟩ := (hscores id).mp hscore
      exact hsettles ⟨req, view, row, haction, hfresh⟩
    · obtain ⟨-, -, -, rfl⟩ := hstep
      cases haction : event.action with
      | reconcile flight =>
          simp only [World.after, haction, Action.transaction,
            Flight.transaction_protections] at hmem'
          rw [hunique.eq hmem' hmem hkey]
      | request r view =>
          simp only [World.after, haction, Action.transaction] at hmem'
          cases r.transaction_protections event.env view hsound.db hunique with
          | same hquiet hsame =>
              rw [hsame] at hmem'
              rw [hunique.eq hmem' hmem hkey]
          | tended groupId hgroup htended => exact htended.counts _ hmem' _ hmem hkey.symm
          | inherited date groupId userId legacy hlegacy hnew htable =>
              rw [htable] at hmem'
              rcases List.mem_append.mp hmem' with hold | hlast
              · rw [hunique.eq hold hmem hkey]
              · obtain rfl := List.mem_singleton.mp hlast
                rw [inheritGlobalProtection_key hlegacy] at hkey
                exact absurd (hkey ▸ List.mem_map_of_mem hmem) hnew
          | settled req row hrequest hrow hnone hstatus htable =>
              exact absurd ⟨req, view, row, by rw [haction, hrequest], hrow, hnone, hstatus⟩
                hsettles

/-! ### Once and for all -/

/-- A result that is stored stays, and so does the list of feeds stored with it. -/
theorem result_stays (h : Reachable service w) {events : List Event}
    (hrun : Run service w events w') (hrow : row ∈ w.db.reservations) {snapshot : OutcomeSnapshot}
    (hresult : row.outcomeSnapshot = some snapshot) :
    ∃ row' ∈ w'.db.reservations, row'.reservationId = row.reservationId ∧
      row'.outcomeSnapshot = some snapshot ∧ row'.dailyFeedResults = row.dailyFeedResults := by
  refine run_round (P := fun r => r.row.outcomeSnapshot = some snapshot ∧
    r.row.dailyFeedResults = row.dailyFeedResults) ?_ h hrun hrow ⟨hresult, rfl⟩
  rintro warrant rolls r r' hstep ⟨hsnapshot, hfeeds⟩
  have hkept := RoundSteps.result (Relation.ReflTransGen.single hstep) hsnapshot
  exact ⟨hkept.1, hkept.2.trans hfeeds⟩

/-- A round scores at most once. -/
theorem Scores.once (hscores : Scores w event w₁ id k) (h : Reachable service w₁)
    {events : List Event} (hrun : Run service w₁ events w₂) : ¬ Scores w₂ event' w₃ id k' := by
  rintro ⟨-, ⟨row₂, hrow₂, hid₂, hnone, -⟩, -⟩
  obtain ⟨-, -, row₁, hrow₁, hid₁, snapshot, hstored, -⟩ := hscores
  obtain ⟨row', hrow', hid', hkept, -⟩ := result_stays h hrun hrow₁ hstored
  obtain rfl : row' = row₂ := (sound_of_reachable (h.run hrun)).db.ids.eq hrow' hrow₂
    (hid'.trans (hid₁.trans hid₂.symm))
  rw [hnone] at hkept
  exact absurd hkept (by simp)

/-- A user is fed by a round at most once. -/
theorem feed_unique (h : Reachable service w) {feed feed' : UserDailyFeed}
    (hfeed : feed ∈ w.db.userDailyFeeds) (hfeed' : feed' ∈ w.db.userDailyFeeds)
    (hfrom : feed.From id) (hfrom' : feed'.From id) (huser : feed.userId = feed'.userId) :
    feed = feed' := by
  obtain ⟨row, hrow, hid, hdate, -⟩ := feedsSettled_of_reachable h feed hfeed hfrom.1
  obtain ⟨row', hrow', hid', hdate', -⟩ := feedsSettled_of_reachable h feed' hfeed' hfrom'.1
  obtain rfl : row = row' := (sound_of_reachable h).db.ids.eq hrow hrow'
    (hid.trans (hfrom.2.trans (hfrom'.2.symm.trans hid'.symm)))
  have hday : feed.day = feed'.day := Prod.ext (hdate.symm.trans hdate') huser
  exact (growth_kept h).feedsDaily.eq hfeed hfeed' hday

/-- Feeds are never taken back. -/
theorem feeds_stay {events : List Event} (hrun : Run service w events w') :
    ∀ feed ∈ w.db.userDailyFeeds, feed ∈ w'.db.userDailyFeeds := by
  induction hrun with
  | nil => exact fun _ hfeed => hfeed
  | snoc _ hstep ih => exact fun feed hfeed => (step_feeds hstep).subset (ih feed hfeed)

/-- A request with another result under the token of the round. -/
theorem other_result_refused (hids : Tables.Unique (·.reservationId) db.reservations)
    (hrow : row ∈ db.reservations) {snapshot : OutcomeSnapshot}
    (hresult : row.outcomeSnapshot = some snapshot) {req : RoastReservationOutcomeRequest}
    (hid : req.reservationId = row.reservationId) (hother : req.outcomeSnapshot ≠ snapshot) :
    prepareOutcomeOnce e req db = (refused, db) ∧ saveOutcome req db = (refused, db) := by
  have hfound : ∀ {states leased}, leasedRow db req.reservationId req.claimToken states =
      some leased → leased = row := by
    intro states leased hleased
    obtain ⟨hmem, hsame, -⟩ := leasedRow_some hleased
    exact hids.eq hmem hrow (hsame.trans hid)
  constructor
  · rcases prepareOutcomeOnce_cases e req db with
      heq | ⟨leased, hleased, ⟨hnone, -⟩ | ⟨hsettled, -⟩⟩
    · exact heq
    · rw [hfound hleased, hresult] at hnone
      exact absurd hnone (by simp)
    · rw [hfound hleased, hresult] at hsettled
      exact absurd (Option.some.inj hsettled).symm hother
  · unfold saveOutcome
    cases hleased : leasedRow db req.reservationId req.claimToken
        [.processing, .sending, .completed] with
    | none => rfl
    | some leased =>
        obtain rfl := hfound hleased
        simp [hresult, Ne.symm hother]

/-! ### The settlement -/

/-- What is settled once about a round. -/
structure SettledOnce (w : World) (row : RoastReservation) : Prop where
  /-- Its result, and the feeds listed with it, stay. -/
  stays : ∀ snapshot, row.outcomeSnapshot = some snapshot → ∀ events w', Run service w events w' →
    ∃ row' ∈ w'.db.reservations, row'.reservationId = row.reservationId ∧
      row'.outcomeSnapshot = some snapshot ∧ row'.dailyFeedResults = row.dailyFeedResults
  /-- It scores once. -/
  scoresOnce : ∀ event w₁ k, service.step w event w₁ → Scores w event w₁ row.reservationId k →
    ∀ events w₂, Run service w₁ events w₂ → ∀ event' w₃ k',
      ¬ Scores w₂ event' w₃ row.reservationId k'
  /-- A counter is raised by one if a round scores, and is not raised else. -/
  counts : ∀ event w', service.step w event w' → ∀ protection ∈ w.db.groupProtections,
    ∀ protection' ∈ w'.db.groupProtections, protectionKey protection' = protectionKey protection →
      ((∃ id, Scores w event w' id (protectionKey protection)) ∧
          protection'.roastSuccessCount = protection.roastSuccessCount + 1) ∨
        ((¬ ∃ id, Scores w event w' id (protectionKey protection)) ∧
          protection'.roastSuccessCount = protection.roastSuccessCount)
  /-- It feeds a user once. -/
  feedsOnce : ∀ events w', Run service w events w' →
    (∀ feed ∈ w.db.userDailyFeeds, feed ∈ w'.db.userDailyFeeds) ∧
    ∀ feed ∈ w'.db.userDailyFeeds, ∀ feed' ∈ w'.db.userDailyFeeds,
      feed.From row.reservationId → feed'.From row.reservationId → feed.userId = feed'.userId →
        feed = feed'
  /-- Another result is refused, by both endpoints. -/
  refuses : ∀ snapshot, row.outcomeSnapshot = some snapshot → ∀ e req,
    req.reservationId = row.reservationId → row.claimToken = some req.claimToken →
    req.outcomeSnapshot ≠ snapshot →
      prepareOutcomeOnce e req w.db = (refused, w.db) ∧ saveOutcome req w.db = (refused, w.db)

/-- **A round is settled once**, whatever is requested of it and in whatever order. -/
theorem settled_once (h : Reachable service w) (hrow : row ∈ w.db.reservations) :
    SettledOnce w row where
  stays _ hresult _ _ hrun := result_stays h hrun hrow hresult
  scoresOnce _ _ _ hstep hscores _ _ hrun _ _ _ := hscores.once (h.step hstep) hrun
  counts _ _ hstep _ hmem _ hmem' hkey := step_counts h hstep hmem hmem' hkey
  feedsOnce _ _ hrun := ⟨feeds_stay hrun, fun _ hfeed _ hfeed' hfrom hfrom' huser =>
    feed_unique (h.run hrun) hfeed hfeed' hfrom hfrom' huser⟩
  refuses _ hresult _ _ hid _ hother :=
    other_result_refused (sound_of_reachable h).db.ids hrow hresult hid hother

theorem settled_once_delivery :
    ∃ row ∈ (scriptWorld deliveryScript).db.reservations,
      row.outcomeSnapshot.isSome = true ∧ SettledOnce (scriptWorld deliveryScript) row := by
  obtain ⟨row, hrow, hsettled⟩ : ∃ row ∈ (scriptWorld deliveryScript).db.reservations,
      row.outcomeSnapshot.isSome = true := by decide +kernel
  exact ⟨row, hrow, hsettled, settled_once (script_reachable (by decide +kernel)) hrow⟩

end RollPig
