/-
The waiting notice is announced once for each threshold.

The notice is a column of the reservation, written by joins, upgrades, takeovers, arrivals,
protections and by its own lease.  `RoastReservation.announcement` reads it as the machine of
`Announcement`, with the threshold as its subject: every one of these writes is a step of
that machine, and a transaction that leaves the threshold as it was takes steady steps only.
-/
import RollPig.Announcement
import RollPig.Proofs.Capability
import RollPig.Proofs.Sending
import RollPig.Proofs.Syncs
import RollPig.Proofs.Thresholds

namespace RollPig

open Transition

variable {e : Env} {db db' : Db} {row row' : RoastReservation} {r r' : Round} {warrant : Warrant}
  {rolls : List DailyRoll} {members : List RoastReservationParticipant} {w w' : World}
  {event : Event} {id token : String}

/-! ### The notice as an announcement -/

def WaitingNotice.stage (notice : WaitingNotice) : Announcement.Stage String :=
  match notice.status with
  | .pending => .queued
  | .processing => .leased (notice.claimToken.getD "")
  | .sending => .sending (notice.claimToken.getD "")
  | .sent => .sent (notice.claimToken.getD "")

/-- Without a notice it is too early for one, or it was dropped. -/
def RoastReservation.announcement (row : RoastReservation) : Announcement.State String Nat where
  subject := row.protectionRequired
  stage := match row.waitingNotice with
    | some notice => notice.stage
    | none => if row.targetPigId = "" then .early else .dropped

/-- A notice is there while the round waits with its target arrived, and has a token unless
it is still queued. -/
def RoastReservation.NoticeKept (row : RoastReservation) : Prop :=
  ∀ notice, row.waitingNotice = some notice →
    row.status = .pending ∧ row.targetPigId ≠ "" ∧
      (notice.status = .pending ↔ notice.claimToken = none)

theorem noticeKept_none (h : row.waitingNotice = none) : row.NoticeKept := by
  intro notice hnotice
  exact absurd (h.symm.trans hnotice) (by simp)

/-- The columns a kept notice is about. -/
theorem RoastReservation.NoticeKept.congr (h : row.NoticeKept)
    (hnotice : row'.waitingNotice = row.waitingNotice) (hstatus : row'.status = row.status)
    (hpig : row'.targetPigId = row.targetPigId) : row'.NoticeKept := by
  intro notice hsome
  rw [hstatus, hpig]
  exact h notice (hnotice ▸ hsome)

/-- An arrival opens the round, or queues the notice if it is the first and may, or leaves
the notice alone. -/
theorem activateReservation_notice (e : Env) (members : List RoastReservationParticipant)
    (row : RoastReservation) (pigId : String) (notify : Bool) :
    (activateReservation e members row pigId notify).1 =
        { row with
          targetPigId := pigId, waitingNotice := none, status := .ready, readyAt := some e.now } ∨
      (activateReservation e members row pigId notify).1 =
        { row with
          targetPigId := pigId
          waitingNotice := if row.targetPigId = "" ∧ notify = true then some { status := .pending }
            else row.waitingNotice } := by
  unfold activateReservation
  dsimp only
  split_ifs with hshort hfirst hqueued
  · exact Or.inr rfl
  · exact absurd (by simpa using hfirst) hqueued
  · exact absurd (by simpa using by assumption) hfirst
  · exact Or.inr rfl
  · exact Or.inl rfl
  · exact Or.inl rfl

/-! ### Where a notice can be -/

/-- A round that left `pending` has no notice. -/
theorem RoastReservation.NoticeKept.opened (h : row.NoticeKept) (hopened : row.status ≠ .pending) :
    row.waitingNotice = none := by
  cases hnotice : row.waitingNotice with
  | none => rfl
  | some notice => exact absurd (h notice hnotice).1 hopened

/-- Neither has a round whose target is not there. -/
theorem RoastReservation.NoticeKept.early (h : row.NoticeKept) (hpig : row.targetPigId = "") :
    row.waitingNotice = none := by
  cases hnotice : row.waitingNotice with
  | none => rfl
  | some notice => exact absurd hpig (h notice hnotice).2.1

theorem RoastReservation.NoticeKept.activate (h : row.NoticeKept) (hopen : row.status = .pending)
    {pigId : String} (hpig : pigId ≠ "") (notify : Bool) :
    (activateReservation e members row pigId notify).1.NoticeKept := by
  rcases activateReservation_notice e members row pigId notify with heq | heq
  · rw [heq]
    exact noticeKept_none rfl
  · rw [heq]
    intro notice hnotice
    dsimp only at hnotice ⊢
    split_ifs at hnotice
    · obtain rfl := Option.some.inj hnotice
      exact ⟨hopen, hpig, by simp⟩
    · exact ⟨hopen, hpig, (h notice hnotice).2.2⟩

/-- An arrival that is answered directly queues no notice. -/
theorem activateIfArrived_quiet (e : Env) (members : List RoastReservationParticipant)
    (pigId : String) (hnone : row.waitingNotice = none) :
    (activateIfArrived e members row pigId false).waitingNotice = none := by
  unfold activateIfArrived
  split_ifs
  · rcases activateReservation_notice e members row pigId false with heq | heq
    · rw [heq]
    · rw [heq]
      simpa using hnone
  · exact hnone

/-- A join answers its progress directly. -/
theorem joinedRow_notice (e : Env) (req : RoastReservationPrepareRequest) (roll : Option DailyRoll)
    (row : RoastReservation) (members : List RoastReservationParticipant) :
    (joinedRow e req roll row members).waitingNotice = none := by
  unfold joinedRow
  exact activateIfArrived_quiet e members _ rfl

theorem advanceNotice_token {notice next : WaitingNotice} {action : NoticeAction}
    (h : advanceNotice notice action = some next)
    (hkept : notice.status = .pending ↔ notice.claimToken = none) :
    next.status = .pending ↔ next.claimToken = none := by
  unfold advanceNotice at h
  split at h
  all_goals
    first
    | (obtain rfl := Option.some.inj h; simp_all)
    | exact absurd h (by simp)

/-- **A notice stays where it can be**, when no roll is of a pig without an id. -/
theorem RoundStep.noticeKept (h : RoundStep warrant rolls r r')
    (hnamed : ∀ date userId pigId, Rolled rolls date userId pigId → pigId ≠ "")
    (hkept : r.row.NoticeKept) : r'.row.NoticeKept := by
  cases h with
  | busy req =>
      obtain ⟨bot, version, heq⟩ := updateDeliveryCapability_eq _ req
      dsimp only
      rw [heq]
      exact hkept.congr rfl rfl rfl
  | confirm req => exact noticeKept_none rfl
  | join e req roll | upgrade e req roll => exact noticeKept_none (joinedRow_notice e req roll _ _)
  | @takeover row members e req roll hopen =>
      have htaken : (takenOver row members req).NoticeKept := hkept.congr rfl rfl rfl
      show (activateIfArrived e members (takenOver row members req) _ true).NoticeKept
      unfold activateIfArrived
      split_ifs with hpig
      · exact htaken.activate hopen hpig true
      · exact htaken
  | @sync row members e protection removed hsyncs hopen =>
      have hgoverned : (governedRow protection removed row).NoticeKept := hkept.congr rfl rfl rfl
      dsimp only
      unfold syncReservation
      split_ifs with hpig
      · have hactivated : (activateReservation e (syncMembers removed row members)
            (governedRow protection removed row) _ true).1.NoticeKept :=
          hgoverned.activate hopen hpig true
        unfold announceThreshold
        split_ifs with hannounce
        · intro notice hnotice
          obtain rfl := Option.some.inj hnotice
          refine ⟨hannounce.1, ?_, by simp⟩
          rcases activateReservation_notice e (syncMembers removed row members)
            (governedRow protection removed row) row.targetPigId true with heq | heq
          · rw [heq]
            exact hpig
          · rw [heq]
            exact hpig
        · exact hactivated
      · exact hgoverned
  | @arrive row members e pigId handledId hopen hroll =>
      dsimp only
      unfold arriveRow
      dsimp only
      split_ifs
      · exact noticeKept_none rfl
      · exact hkept.activate hopen (hnamed _ _ _ hroll) _
  | capability => exact hkept.congr rfl rfl rfl
  | lease e req token hcan => exact noticeKept_none (hkept.opened (claimable_status hcan))
  | leaseNotice e req token hcan =>
      intro notice hnotice
      obtain rfl := Option.some.inj hnotice
      simp only [noticeClaimable, Bool.and_eq_true, decide_eq_true_eq] at hcan
      exact ⟨hcan.1.1.1.1.1.2, hcan.1.1.1.1.2, by simp⟩
  | notice notice hopen hreports before hbefore action hnext =>
      intro next hsome
      obtain rfl := Option.some.inj hsome
      obtain ⟨-, hpig, htoken⟩ := hkept before hbefore
      exact ⟨hopen, hpig, advanceNotice_token hnext htoken⟩
  | settle snapshot results hstatus =>
      have hnone := hkept.opened (by simp [hstatus])
      refine noticeKept_none ?_
      unfold markPrepared
      split_ifs <;> exact hnone
  | confirmOutcome hstatus =>
      have hnone := hkept.opened hstatus
      refine noticeKept_none ?_
      unfold markPrepared
      split_ifs <;> exact hnone
  | save snapshot hstatus => exact noticeKept_none (hkept.opened (by simp [hstatus]))
  | send hstatus => exact noticeKept_none (hkept.opened (by simp [hstatus]))
  | complete e hstatus =>
      have hnone := hkept.opened (by simp [hstatus])
      refine noticeKept_none ?_
      unfold completedRow
      split_ifs <;> exact hnone
  | release hstatus =>
      refine noticeKept_none (hkept.opened ?_)
      rcases hstatus with hstatus | hstatus <;> simp [hstatus]

/-- A new round has no notice. -/
theorem RoundBirth.silent (h : RoundBirth rolls r) : r.row.waitingNotice = none := by
  obtain ⟨e, req, roll, protection, reservationId, -, -⟩ := h
  dsimp only
  unfold insertedRow
  cases roll with
  | none => rfl
  | some roll =>
      dsimp only
      rcases activateReservation_notice e [ownerParticipant e req protection reservationId]
        (newReservation e req protection reservationId) roll.pigId false with heq | heq
      · rw [heq]
      · rw [heq]
        rfl

theorem RoundBirth.noticeKept (h : RoundBirth rolls r) : r.row.NoticeKept :=
  noticeKept_none h.silent

/-- Every notice of a reachable world is where it can be. -/
theorem notices_kept (h : Reachable (service.restrict Event.NamesPigs) w) :
    ∀ row ∈ w.db.reservations, row.NoticeKept := by
  have hkept := rounds_of_reachable (P := fun rolls r =>
      (∀ date userId pigId, Rolled rolls date userId pigId → pigId ≠ "") → r.row.NoticeKept)
    (fun _ _ hborn _ => hborn.noticeKept)
    (fun rolls rolls' r hcommitted hkept hnamed =>
      hkept fun date userId pigId hrolled =>
        hnamed date userId pigId (hcommitted date userId pigId hrolled))
    (fun warrant rolls r r' hstep hkept hnamed => hstep.noticeKept hnamed (hkept hnamed))
    h.of_restrict
  exact fun row hrow => hkept row hrow fun _ _ _ hrolled => rolled_named h hrolled

/-! ### Every write is a step -/

variable {issues : String → Prop} {roll : Option DailyRoll} {req : RoastReservationPrepareRequest}

theorem announcement_congr (hnotice : row'.waitingNotice = row.waitingNotice)
    (hrequired : row'.protectionRequired = row.protectionRequired)
    (hpig : row'.targetPigId = row.targetPigId) : row'.announcement = row.announcement := by
  unfold RoastReservation.announcement
  rw [hnotice, hrequired, hpig]

theorem announcement_stays (hnotice : row'.waitingNotice = row.waitingNotice)
    (hrequired : row'.protectionRequired = row.protectionRequired)
    (hpig : row'.targetPigId = row.targetPigId) :
    Announcement.Step issues row.announcement row'.announcement := by
  rw [announcement_congr hnotice hrequired hpig]
  exact .stay

@[simp] theorem markPrepared_announcement (row : RoastReservation) :
    (markPrepared row).announcement = row.announcement := by
  unfold markPrepared
  split_ifs <;> rfl

@[simp] theorem completedRow_announcement (e : Env) (row : RoastReservation) :
    (completedRow e row).announcement = row.announcement := by
  unfold completedRow
  split_ifs <;> rfl

theorem stage_early (hnotice : row.waitingNotice = none) (hpig : row.targetPigId = "") :
    row.announcement.stage = .early := by
  simp [RoastReservation.announcement, hnotice, hpig]

theorem stage_dropped (hnotice : row.waitingNotice = none) (hpig : row.targetPigId ≠ "") :
    row.announcement.stage = .dropped := by
  simp [RoastReservation.announcement, hnotice, hpig]

/-- Clearing the notice drops the announcement, unless it was too early for one. -/
theorem RoastReservation.NoticeKept.clears (hkept : row.NoticeKept) (hnotice : row'.waitingNotice = none)
    (hrequired : row'.protectionRequired = row.protectionRequired)
    (hpig : row'.targetPigId = "" → row.targetPigId = "") :
    Announcement.Step issues row.announcement row'.announcement := by
  by_cases harrived : row'.targetPigId = ""
  · exact announcement_stays (hnotice.trans (hkept.early (hpig harrived)).symm) hrequired
      (harrived.trans (hpig harrived).symm)
  · show Announcement.Step issues ⟨_, _⟩ ⟨_, row'.announcement.stage⟩
    rw [stage_dropped hnotice harrived]
    exact .drop

/-- An arrival drops the announcement, raises it, or leaves it. -/
theorem RoastReservation.NoticeKept.announces (hkept : row.NoticeKept) {pigId : String} (hpig : pigId ≠ "")
    (notify : Bool) :
    Announcement.Step issues row.announcement
      (activateReservation e members row pigId notify).1.announcement := by
  rcases activateReservation_notice e members row pigId notify with heq | heq
  · rw [heq]
    exact hkept.clears rfl rfl fun hnone => absurd hnone hpig
  · rw [heq]
    by_cases harrived : row.targetPigId = ""
    · cases notify with
      | false =>
          refine hkept.clears ?_ rfl fun hnone => absurd hnone hpig
          simpa using hkept.early harrived
      | true =>
          have hqueued : Announcement.Step issues ⟨row.protectionRequired, row.announcement.stage⟩
              ⟨row.protectionRequired, .queued⟩ := by
            rw [stage_early (hkept.early harrived) harrived]
            exact .raise
          simpa [RoastReservation.announcement, WaitingNotice.stage, harrived] using hqueued
    · have hsame : ({ row with
          targetPigId := pigId
          waitingNotice := if row.targetPigId = "" ∧ notify = true then some { status := .pending }
            else row.waitingNotice } : RoastReservation).announcement = row.announcement := by
        simp [RoastReservation.announcement, harrived, hpig]
      rw [hsame]
      exact .stay

/-- The lease of the notice moves by its own steps. -/
theorem advanceNotice_announces {notice next : WaitingNotice} {action : NoticeAction}
    (h : advanceNotice notice action = some next) (required : Nat) :
    Announcement.Step issues ⟨required, notice.stage⟩ ⟨required, next.stage⟩ := by
  obtain ⟨status, token, claimedAt⟩ := notice
  cases action <;> cases status <;>
    first
    | (obtain rfl := Option.some.inj h
       first | exact .send | exact .close | exact .giveBack | exact .stay)
    | exact absurd h (by simp [advanceNotice])

/-- A leasable notice is free. -/
theorem noticeClaimable_free {req : RoastReservationClaimRequest}
    (hcan : noticeClaimable e req row = true) : row.announcement.stage.Free := by
  simp only [noticeClaimable, Bool.and_eq_true] at hcan
  obtain ⟨-, hnotice⟩ := hcan
  unfold RoastReservation.announcement
  cases hsome : row.waitingNotice with
  | none => simp [hsome] at hnotice
  | some notice =>
      obtain ⟨status, token, claimedAt⟩ := notice
      cases status with
      | pending => exact .queued
      | processing => exact .leased _
      | sending | sent => simp [hsome] at hnotice

/-- An arrival is not forgotten. -/
theorem activateIfArrived_pig (hpig : (activateIfArrived e members row (arrivedPigId row roll)
    false).targetPigId = "") : row.targetPigId = "" := by
  by_contra harrived
  have hpresent : arrivedPigId row roll = row.targetPigId := if_pos harrived
  rw [hpresent] at hpig
  unfold activateIfArrived at hpig
  rw [if_pos harrived] at hpig
  rcases activateReservation_notice e members row row.targetPigId false with heq | heq
  · rw [heq] at hpig
    exact harrived hpig
  · rw [heq] at hpig
    exact harrived hpig

theorem joinedRow_pig (hpig : (joinedRow e req roll row members).targetPigId = "") :
    row.targetPigId = "" := by
  unfold joinedRow at hpig
  have hbase := activateIfArrived_pig hpig
  obtain ⟨bot, version, heq⟩ := updateDeliveryCapability_eq row req
  rw [heq] at hbase
  dsimp only at hbase
  split_ifs at hbase <;> exact hbase

/-- **Every step of a round is a step of its announcement**, when no roll is of a pig without
an id; a sync has its own lemma. -/
theorem RoundStep.announces (h : RoundStep warrant rolls r r') (hsyncs : ¬ warrant.syncs)
    (hnamed : ∀ date userId pigId, Rolled rolls date userId pigId → pigId ≠ "")
    (hkept : r.row.NoticeKept) :
    Announcement.Step warrant.issues r.row.announcement r'.row.announcement := by
  have hrequired : r'.row.protectionRequired = r.row.protectionRequired :=
    congrArg Prod.fst (h.terms hsyncs).1
  cases h with
  | busy req =>
      obtain ⟨bot, version, heq⟩ := updateDeliveryCapability_eq _ req
      dsimp only
      rw [heq]
      exact .stay
  | @confirm row members req =>
      refine hkept.clears rfl hrequired fun hpig => ?_
      obtain ⟨bot, version, heq⟩ := updateDeliveryCapability_eq row req
      simpa [heq] using hpig
  | join e req roll | upgrade e req roll =>
      exact hkept.clears (joinedRow_notice e req roll _ _) hrequired joinedRow_pig
  | @takeover row members e req roll hopen =>
      have htaken : (takenOver row members req).NoticeKept := hkept.congr rfl rfl rfl
      have hsame : (takenOver row members req).announcement = row.announcement := rfl
      dsimp only
      rw [← hsame]
      unfold activateIfArrived
      split_ifs with hpig
      · exact htaken.announces hpig true
      · exact .stay
  | sync e protection removed hcopies => exact absurd hcopies hsyncs
  | @arrive row members e pigId handledId hopen hroll =>
      have hpig := hnamed _ _ _ hroll
      dsimp only at hrequired ⊢
      by_cases hhandled : row.reservationId = handledId
      · refine hkept.clears ?_ hrequired fun hnone => absurd hnone ?_
        · simp [arriveRow, hhandled]
        · rcases activateReservation_notice e members row pigId false with heq | heq <;>
            simpa [arriveRow, hhandled, heq] using hpig
      · have hactivated : (arriveRow e pigId handledId row members).1 =
            (activateReservation e members row pigId true).1 := by
          simp [arriveRow, hhandled]
        rw [hactivated]
        exact hkept.announces hpig true
  | capability => exact .stay
  | lease => exact .stay
  | leaseNotice e req token hcan hserves hissues =>
      exact .lease (noticeClaimable_free hcan) token hissues
  | @notice row members notice hopen hreports before hbefore action hnext =>
      have hstep : Announcement.Step warrant.issues ⟨row.protectionRequired, before.stage⟩
          ⟨row.protectionRequired, notice.stage⟩ :=
        advanceNotice_announces hnext row.protectionRequired
      simpa [RoastReservation.announcement, hbefore] using hstep
  | settle snapshot results hstatus =>
      dsimp only
      rw [markPrepared_announcement]
      exact .stay
  | confirmOutcome hstatus =>
      dsimp only
      rw [markPrepared_announcement]
      exact .stay
  | save snapshot hstatus => exact .stay
  | send hstatus => exact .stay
  | complete e hstatus =>
      dsimp only
      rw [completedRow_announcement]
      exact .stay
  | release hstatus => exact .stay

/-- **A sync is one step too**: it renews the announcement of a round that goes on waiting
under a changed threshold, and drops it when the round opens. -/
theorem RoastReservation.NoticeKept.syncs (hkept : row.NoticeKept) (hopen : row.status = .pending)
    (protection : GroupProtection) (removed : Bool) :
    Announcement.Step issues row.announcement
      (syncReservation e protection removed members row).announcement := by
  unfold syncReservation
  by_cases hpig : row.targetPigId = ""
  · rw [if_neg (by simpa using hpig)]
    have hnone := hkept.early hpig
    have hwaits : Announcement.Step issues ⟨row.protectionRequired, row.announcement.stage⟩
        ⟨(governedRow protection removed row).protectionRequired,
          (governedRow protection removed row).announcement.stage⟩ := by
      have hwaiting : (governedRow protection removed row).announcement.stage = .early :=
        stage_early hnone hpig
      rw [stage_early hnone hpig, hwaiting]
      exact .wait
    exact hwaits
  · rw [if_pos hpig]
    unfold announceThreshold
    rcases activateReservation_notice e members (governedRow protection removed row)
      row.targetPigId true with heq | heq
    · -- the round opens
      rw [if_neg (by simp [heq]), heq]
      have hdropped : Announcement.Step issues ⟨row.protectionRequired, row.announcement.stage⟩
          ⟨(governedRow protection removed row).protectionRequired, .dropped⟩ := .drop
      simpa [RoastReservation.announcement, hpig] using hdropped
    · have harrived : (governedRow protection removed row).targetPigId ≠ "" := hpig
      simp only [harrived, false_and, if_false] at heq
      rw [heq]
      dsimp only
      split_ifs with hchanged
      · exact .renew (Ne.symm hchanged.2)
      · -- the threshold is the old one
        have hrequired : row.protectionRequired =
            (governedRow protection removed row).protectionRequired := by
          by_contra hother
          exact hchanged ⟨hopen, hother⟩
        exact announcement_stays rfl hrequired.symm rfl

/-! ### Every transaction takes steps -/

theorem RoundSteps.announces (h : RoundSteps warrant rolls r r') (hsyncs : ¬ warrant.syncs)
    (hnamed : ∀ date userId pigId, Rolled rolls date userId pigId → pigId ≠ "")
    (hkept : r.row.NoticeKept) :
    Announcement.SteadySteps warrant.issues r.row.announcement r'.row.announcement := by
  induction h with
  | refl => exact .refl
  | tail hprevious hlast ih =>
      have hkeptThen := RoundSteps.keeps (P := fun r => r.row.NoticeKept) hprevious
        (fun _ _ hstep hkept => hstep.noticeKept hnamed hkept) hkept
      exact ih.tail ⟨hlast.announces hsyncs hnamed hkeptThen,
        congrArg Prod.fst (hlast.terms hsyncs).1⟩

/-- What a step of the service does to the rounds it synchronises. -/
theorem step_syncedOnce (h : Reachable service w) (hstep : service.step w event w')
    (hsyncs : event.warrant.syncs) : SyncedOnce event.env (fun _ => False) w.db w'.db := by
  have hids := (sound_of_reachable h).db.ids
  obtain ⟨-, -, -, rfl⟩ := hstep
  unfold Event.warrant at hsyncs
  simp only [World.after]
  cases haction : event.action with
  | reconcile flight => simp [haction] at hsyncs
  | request request view =>
      rw [haction] at hsyncs
      cases request with
      | replaceGroup req => exact replaceGroup_syncedOnce event.env req hids (protections_unique h)
      | grant req =>
          simp only [Action.transaction, Request.transaction]
          split
          · exact SyncedOnce.refl event.env _ w.db
          · rename_i hgrant
            exact grantProtection_syncedOnce hgrant hids
      | _ => exact hsyncs.elim

/-- **What a step of the service does to an announcement**: some steps on the same subject,
or a single one. -/
theorem step_announces (h : Reachable (service.restrict Event.NamesPigs) w)
    (hstep : (service.restrict Event.NamesPigs).step w event w')
    (hrow : row ∈ w.db.reservations) (hrow' : row' ∈ w'.db.reservations)
    (hid : row'.reservationId = row.reservationId) :
    Announcement.SteadySteps event.warrant.issues row.announcement row'.announcement ∨
      Announcement.Step event.warrant.issues row.announcement row'.announcement := by
  have hkept := notices_kept h row hrow
  have hsound := sound_of_reachable h.of_restrict
  by_cases hsyncs : event.warrant.syncs
  · obtain ⟨old, hold, holdId, -, hrewritten⟩ :=
      (step_syncedOnce h.of_restrict hstep.1 hsyncs).rows row' hrow'
    obtain rfl : old = row := hsound.db.ids.eq hold hrow (holdId.symm.trans hid)
    rcases hrewritten with rfl | ⟨-, hopen, protection, removed, members, rfl⟩
    · exact Or.inl .refl
    · exact Or.inr (hkept.syncs hopen protection removed)
  · rcases hsound.step_round hstep.1 hrow' with ⟨old, hold, holdId, hsteps⟩ | ⟨-, hfresh⟩
    · obtain rfl : old = row := hsound.db.ids.eq hold hrow (holdId.trans hid)
      exact Or.inl (hsteps.announces hsyncs
        (fun _ _ _ hrolled => rolled_named (h.step hstep) hrolled) hkept)
    · exact absurd hid.symm (hfresh row hrow)

end RollPig
