/-
A bot that polls is given every round it may have.

A claim returns at most a few rounds, the rest has to wait for the next one.  Rounds that were
returned are leased and are not claimable for the lease time, so polls within that time page
through the rounds the bot may have: no round comes twice, and enough polls return them all.
-/
import RollPig.Paging
import RollPig.Proofs.Leases

namespace RollPig

open Transition

variable {w w' : World} {event : Event} {events : List Event} {db db' : Db} {e e' : Env}
  {row row' : RoastReservation} {req : RoastReservationClaimRequest}

/-- The rounds a claim is answered with. -/
def Event.itemIds (event : Event) : List String :=
  match event.response with
  | .claim response => response.items.map (·.reservationId)
  | _ => []

/-- Every event is this claim, of whatever view of the rolls. -/
def Polls (req : RoastReservationClaimRequest) (events : List Event) : Prop :=
  ∀ event ∈ events, ∃ view, event.action = .request (.claim req) view

theorem Polls.itemIds (hpolls : Polls req [event]) (hstep : service.step w event w') :
    event.itemIds = (claim event.env req w.db).1.items.map (·.reservationId) ∧
      w'.db = (claim event.env req w.db).2 := by
  obtain ⟨view, haction⟩ := hpolls event (by simp)
  obtain ⟨-, -, hresponse, rfl⟩ := hstep
  rw [haction] at hresponse
  constructor
  · unfold Event.itemIds
    rw [hresponse]
    rfl
  · simp only [World.after, haction]
    rfl

/-! ### One claim -/

/-- Whether a round is claimable does not depend on what a claim tends to. -/
theorem Freshened.claimable (h : Freshened row row') : claimable e req row' = claimable e req row := by
  obtain ⟨version, notice, rfl⟩ := h
  rfl

/-- A round that was just leased is not claimable for the lease time. -/
theorem claimable_leased (hnear : e'.now ≤ e.now + roastReservationClaimTimeout) (token : String) :
    claimable e' req (leaseRow e req token row) = false := by
  have hready : (leaseRow e req token row).status ≠ .ready := by
    simp only [leaseRow]
    split_ifs <;> simp
  have hheld : leaseExpired e'.now (leaseRow e req token row) = false := by
    show decide (e.now < e'.now - roastReservationClaimTimeout) = false
    rw [decide_eq_false_iff_not, not_lt]
    exact sub_le_iff_le_add.mpr hnear
  unfold RollPig.claimable
  rw [hheld, decide_eq_false hready]
  simp

/-- After a claim its rounds are not claimable, and the others are as before. -/
theorem claim_paged (hsound : db.Sound) (req : RoastReservationClaimRequest)
    (hnear : e'.now ≤ e.now + roastReservationClaimTimeout) :
    (claim e req db).2.reservations.map (fun row => (row.reservationId, claimable e' req row)) =
      db.reservations.map fun row => (row.reservationId, claimable e' req row &&
        decide (row.reservationId ∉ (claim e req db).1.items.map (·.reservationId))) := by
  have hevolves : Evolves ((Request.claim req).warrant e) [] db (claim e req db).2 :=
    claim_evolves e hsound rfl fun i => Set.mem_range_self i
  refine Tables.map_eq_of_keys hevolves.ids fun row' hrow' row hrow hid => ?_
  obtain ⟨old, hold, hsame, hclaimed⟩ := claim_rows hsound hrow'
  obtain rfl : old = row := hsound.ids.eq hold hrow (hsame.trans hid)
  refine Prod.ext hid ?_
  rw [← hid]
  rcases hclaimed with ⟨item, hfind, hfreshened⟩ | ⟨hnone, hfreshened⟩
  · have hreturned : row'.reservationId ∈ (claim e req db).1.items.map (·.reservationId) := by
      refine List.mem_map.mpr ⟨item, List.mem_of_find?_eq_some hfind, ?_⟩
      simpa using List.find?_some hfind
    rw [hfreshened.claimable, claimable_leased hnear]
    simp [hreturned]
  · have hkept : row'.reservationId ∉ (claim e req db).1.items.map (·.reservationId) := by
      intro hmem
      obtain ⟨item, hitem, hitemId⟩ := List.mem_map.mp hmem
      exact absurd hitemId (by simpa using List.find?_eq_none.mp hnone item hitem)
    rw [hfreshened.claimable, decide_eq_true hkept, Bool.and_true]

/-! ### Polling again and again -/

/-- What the rounds that are claimable are called. -/
theorem claimable_ids (rows : List RoastReservation) (p : RoastReservation → Bool) :
    (rows.filter p).map (·.reservationId) =
      ((rows.map fun row => (row.reservationId, p row)).filter (·.2)).map (·.1) := by
  rw [List.filter_map, List.map_map]
  rfl

/-- The polls, as a paging through the rounds of a database. -/
def pollsOf (req : RoastReservationClaimRequest) (events : List Event) :
    List (Paging.Poll RoastReservation String) :=
  events.map fun event => ⟨claimable event.env req, event.itemIds⟩

/-- After some polls, the rounds they returned are not claimable, and the others as before. -/
theorem polls_claimable (h : Reachable service w) (hrun : Run service w events w')
    (hpolls : Polls req events)
    (hnear : ∀ event ∈ events, e.now ≤ event.env.now + roastReservationClaimTimeout) :
    w'.db.reservations.map (fun row => (row.reservationId, claimable e req row)) =
      w.db.reservations.map fun row => (row.reservationId, claimable e req row &&
        decide (row.reservationId ∉ Paging.paged (pollsOf req events))) := by
  induction hrun with
  | nil => simp [pollsOf, Paging.paged]
  | @snoc u v events event hrun hstep ih =>
      have hbefore := ih (fun other hother => hpolls other (List.mem_append_left _ hother))
        fun other hother => hnear other (List.mem_append_left _ hother)
      obtain ⟨hids, hdb⟩ := Polls.itemIds (fun other hother => hpolls other
        (List.mem_append_right _ hother)) hstep
      have hpaged : Paging.paged (pollsOf req (events ++ [event])) =
          Paging.paged (pollsOf req events) ++ event.itemIds := by
        simp [pollsOf]
      have hlast := claim_paged (sound_of_reachable (h.run hrun)).db req (hnear event (by simp))
      have hsplit : ∀ (rows : List RoastReservation) (p : RoastReservation → Bool),
          rows.map (fun row => (row.reservationId,
            p row && decide (row.reservationId ∉ event.itemIds))) =
          (rows.map fun row => (row.reservationId, p row)).map fun known =>
            (known.1, known.2 && decide (known.1 ∉ event.itemIds)) := by
        intro rows p
        rw [List.map_map]
        rfl
      rw [hdb, hlast, ← hids, hsplit, hbefore, ← hsplit, hpaged]
      refine List.map_congr_left fun row _ => ?_
      simp [Bool.and_assoc]

/-- **Polls page through the rounds a bot may have.** -/
theorem polls_paged (h : Reachable service w) (hrun : Run service w events w')
    (hpolls : Polls req events)
    (hnear : ∀ event ∈ events, ∀ other ∈ events,
      other.env.now ≤ event.env.now + roastReservationClaimTimeout) :
    Paging.Paged (·.reservationId) w.db.reservations req.rowLimit (pollsOf req events) := by
  intro before poll after hsplit
  obtain ⟨earlier, rest, rfl, rfl, hrest⟩ := List.map_eq_append_iff.mp hsplit
  obtain ⟨event, later, rfl, rfl, rfl⟩ := List.map_eq_cons_iff.mp hrest
  obtain ⟨u, hbefore, hthen⟩ := hrun.split earlier (event :: later) rfl
  obtain ⟨v, hstep, -⟩ := hthen.of_cons
  have hknown := polls_claimable h hbefore
    (fun other hother => hpolls other (List.mem_append_left _ hother))
    fun other hother => hnear other (List.mem_append_left _ hother) event (by simp)
  have hpoll : Polls req [event] := fun other hother =>
    hpolls other (by simp [List.mem_singleton.mp hother])
  obtain ⟨hids, -⟩ := hpoll.itemIds hstep
  have hunique := (sound_of_reachable (h.run hbefore)).db.ids
  show event.itemIds = _
  rw [hids, claim_item_ids hunique, List.map_take, claimable_ids, hknown, ← claimable_ids]
  congr 1
  rw [List.filter_map, List.filter_filter]
  exact congrArg _ (List.filter_congr fun row _ => Bool.and_comm _ _)

theorem paged_pollsOf (req : RoastReservationClaimRequest) (events : List Event) :
    Paging.paged (pollsOf req events) = events.flatMap (·.itemIds) := by
  simp [Paging.paged, pollsOf, List.flatMap_map]

/-- Enough polls return every round that the bot may have at all of them. -/
theorem polls_complete (h : Reachable service w) (hrun : Run service w events w')
    (hpolls : Polls req events)
    (hnear : ∀ event ∈ events, ∀ other ∈ events,
      other.env.now ≤ event.env.now + roastReservationClaimTimeout)
    (henough : (w.db.reservations.filter fun row =>
      events.any fun event => claimable event.env req row).length ≤ events.length * req.rowLimit)
    (hpolled : events ≠ []) (hrow : row ∈ w.db.reservations)
    (hcan : ∀ event ∈ events, claimable event.env req row = true) :
    row.reservationId ∈ events.flatMap (·.itemIds) := by
  have hpaged := polls_paged h hrun hpolls hnear
  rw [← paged_pollsOf req]
  refine hpaged.complete (sound_of_reachable h).db.ids ?_ hrow ?_ ?_
  · simpa [pollsOf, List.any_map, Function.comp_def] using henough
  · simpa [pollsOf] using hpolled
  · intro poll hpoll
    obtain ⟨event, hevent, rfl⟩ := List.mem_map.mp hpoll
    exact hcan event hevent

/-- **A bot that polls is given every round it may have.**  Polls of one bot with one request,
with clocks that lie within the lease time and nothing else going on, return no round twice,
and, from as many polls on as there are pages of rounds it may have at some of them, every
round it may have at all of them. -/
theorem polls_drain (h : Reachable service w) (hrun : Run service w events w')
    (hpolls : Polls req events)
    (hnear : ∀ event ∈ events, ∀ other ∈ events,
      other.env.now ≤ event.env.now + roastReservationClaimTimeout) :
    (events.flatMap (·.itemIds)).Nodup ∧
      ((w.db.reservations.filter fun row =>
          events.any fun event => claimable event.env req row).length ≤
            events.length * req.rowLimit →
        events ≠ [] → ∀ row ∈ w.db.reservations,
          (∀ event ∈ events, claimable event.env req row = true) →
            row.reservationId ∈ events.flatMap (·.itemIds)) := by
  constructor
  · rw [← paged_pollsOf req]
    exact (polls_paged h hrun hpolls hnear).nodup (sound_of_reachable h).db.ids
  · intro henough hpolled row hrow hcan
    exact polls_complete h hrun hpolls hnear henough hpolled hrow hcan

/-- Users 1 and 3 aim at user 2 in two groups, and user 2 arrives. -/
def crowdedScript : List (Time × Order) :=
  readyScript.take 2 ++
    [(739000 * dayMicros, .request (.prepare
      { attackerId := "3", attackerPigId := "pig", targetId := "2", groupId := "8",
        deliveryBotId := "bot", dateStr := 739000 })),
    (739000 * dayMicros, .finish 0)] ++ readyScript.drop 2

/-- A claim that is answered with one round at a time. -/
def pageClaim : RoastReservationClaimRequest :=
  { deliveryBotId := "bot", dateStr := 739000, supportsPrepared := true, limit := 1 }

def firstPage : Event :=
  scriptEvent crowdedScript (739000 * dayMicros) (.claim pageClaim)

def secondPage : Event :=
  scriptEvent (crowdedScript ++ [(739000 * dayMicros, .request (.claim pageClaim))])
    (739000 * dayMicros) (.claim pageClaim)

theorem polls_drain_crowded :
    ∃ first ∈ (scriptWorld crowdedScript).db.reservations,
      ∃ second ∈ (scriptWorld crowdedScript).db.reservations,
        first.reservationId ≠ second.reservationId ∧
          first.reservationId ∈ [firstPage, secondPage].flatMap (·.itemIds) ∧
          second.reservationId ∈ [firstPage, secondPage].flatMap (·.itemIds) := by
  have hopened : (play 0 {} crowdedScript).isSome = true := by decide +kernel
  obtain ⟨w, hclaims⟩ := script_twice hopened (739000 * dayMicros) (739000 * dayMicros)
    (.claim pageClaim) (by decide +kernel)
  have hpolls : Polls pageClaim [firstPage, secondPage] := by
    intro event hevent
    simp only [List.mem_cons, List.not_mem_nil, or_false] at hevent
    rcases hevent with rfl | rfl <;> exact ⟨_, rfl⟩
  have hclaimable : ∀ row ∈ (scriptWorld crowdedScript).db.reservations,
      ∀ event ∈ [firstPage, secondPage], claimable event.env pageClaim row = true := by
    decide +kernel
  obtain ⟨first, hfirst, second, hsecond, htwo⟩ :
      ∃ first ∈ (scriptWorld crowdedScript).db.reservations,
        ∃ second ∈ (scriptWorld crowdedScript).db.reservations,
          first.reservationId ≠ second.reservationId := by
    decide +kernel
  have hdrained := (polls_drain (script_reachable hopened) hclaims hpolls (by decide +kernel)).2
    (by decide +kernel) (by simp)
  refine ⟨first, hfirst, second, hsecond, htwo, ?_, ?_⟩
  · exact hdrained first hfirst (hclaimable first hfirst)
  · exact hdrained second hsecond (hclaimable second hsecond)

end RollPig
