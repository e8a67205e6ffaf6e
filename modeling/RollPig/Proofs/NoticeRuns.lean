/-
Which tokens are told that the waiting notice may be sent.

A token holds the notice from its lease on.  By `step_announces` the notice of a stored
round moves by the steps of `Announcement`, so the two facts of that machine hold along
every run: while the threshold stays, the token that started to send is the last one, and
a token that lost the notice is never asked for it again.
-/
import RollPig.Proofs.Notices

namespace RollPig

open Transition

variable {e : Env} {db db' : Db} {row row' : RoastReservation} {w w' : World} {event : Event}
  {es : List Event} {id token token' : String} {action : NoticeAction}

/-! ### What the answers say -/

/-- The answer lets the holder of the token take this action on the waiting notice. -/
def Event.notifies (event : Event) (id token : String) (action : NoticeAction) : Prop :=
  match event.action, event.response with
  | .request (.waitingNotice req) _, .ok ok =>
      req.reservationId = id ∧ req.claimToken = token ∧ req.action = action ∧ ok = true
  | _, _ => False

instance (event : Event) (id token : String) (action : NoticeAction) :
    Decidable (event.notifies id token action) :=
  decidable_of_iff
    ((match event.action, event.response with
      | .request (.waitingNotice req) _, .ok ok =>
          decide (req.reservationId = id ∧ req.claimToken = token ∧ req.action = action ∧
            ok = true)
      | _, _ => false) = true)
    (by unfold Event.notifies; split <;> simp)

/-- A claim returns the waiting notice of this round. -/
def Event.claimsNotice (event : Event) (id : String) : Prop :=
  match event.action, event.response with
  | .request (.claim _) _, .claim response =>
      ∃ item ∈ response.waitingNotices, item.reservationId = id
  | _, _ => False

/-- The waiting notice of this round carries the token. -/
def HoldsNotice (db : Db) (id token : String) : Prop :=
  ∃ row ∈ db.reservations, row.reservationId = id ∧
    ∃ notice, row.waitingNotice = some notice ∧ notice.claimToken = some token

/-- A kept notice is held under the token it carries. -/
theorem RoastReservation.NoticeKept.holder_iff (hkept : row.NoticeKept) :
    row.announcement.stage.holder? = some token ↔
      ∃ notice, row.waitingNotice = some notice ∧ notice.claimToken = some token := by
  unfold RoastReservation.announcement
  cases hnotice : row.waitingNotice with
  | none =>
      dsimp only
      split_ifs <;> simp [Announcement.Stage.holder?]
  | some notice =>
      obtain ⟨-, -, htoken⟩ := hkept notice hnotice
      obtain ⟨status, claimToken, claimedAt⟩ := notice
      cases status with
      | pending =>
          obtain rfl : claimToken = none := htoken.mp rfl
          simp [WaitingNotice.stage, Announcement.Stage.holder?]
      | processing | sending | sent =>
          cases claimToken with
          | none => exact absurd (htoken.mpr rfl) (by simp)
          | some claimToken => simp [WaitingNotice.stage, Announcement.Stage.holder?]

/-- **Who is told to go on holds the notice**, and it moves on under the same token. -/
theorem notifies_cases (hstep : service.step w event w') (h : event.notifies id token action) :
    ∃ row ∈ w.db.reservations, row.reservationId = id ∧ ∃ notice next,
      row.waitingNotice = some notice ∧ notice.claimToken = some token ∧
        advanceNotice notice action = some next ∧
        ∃ row' ∈ w'.db.reservations, row'.reservationId = id ∧ row'.waitingNotice = some next := by
  unfold Event.notifies at h
  split at h
  · rename_i req view ok haction hresponse
    obtain ⟨rfl, rfl, rfl, rfl⟩ := h
    obtain ⟨-, -, hanswer, rfl⟩ := hstep
    rw [haction, hresponse] at hanswer
    simp only [World.after, haction]
    simp only [Action.transaction, Request.transaction, Response.ok.injEq] at hanswer ⊢
    rcases transitionWaitingNotice_cases event.env req w.db with
      heq | ⟨row, notice, next, hfind, -, hnotice, htoken, hadvance, heq⟩
    · rw [heq] at hanswer
      exact absurd hanswer (by simp)
    · obtain ⟨hrow, hid⟩ := mem_of_reservation? hfind
      refine ⟨row, hrow, hid, notice, next, hnotice, htoken, hadvance,
        { row with waitingNotice := some next }, ?_, hid, rfl⟩
      rw [heq]
      exact Tables.mem_writeBack_of_mem (by simp [Tables.Unique]) (List.mem_singleton.mpr rfl) hrow rfl
  · exact h.elim

/-- **A claim returns a notice that was free.** -/
theorem claimsNotice_free (hsound : w.db.Sound) (hstep : service.step w event w')
    (h : event.claimsNotice id) :
    ∃ row ∈ w.db.reservations, row.reservationId = id ∧ row.announcement.stage.Free := by
  unfold Event.claimsNotice at h
  split at h
  · rename_i req view response haction hresponse
    obtain ⟨item, hitem, rfl⟩ := h
    obtain rfl : response = (claim event.env req w.db).1 := by
      have hanswer := hstep.2.2.1
      rw [haction, hresponse] at hanswer
      exact Response.claim.inj hanswer
    obtain ⟨leased, hleased, rfl⟩ := List.mem_map.mp hitem
    obtain ⟨row, hrow, i, hcan, rfl⟩ := mem_leaseNotices hleased
    have hfree := noticeClaimable_free hcan
    -- a round leased by the same claim does not wait, so it is not this one
    have hdeclared : row ∈ (declareCapability req w.db).reservations := by
      rcases Tables.mem_writeBack hrow with ⟨hold, -⟩ | ⟨hnew, -⟩
      · exact hold
      · obtain ⟨old, -, j, -, rfl⟩ := mem_leaseRows hnew
        simp only [noticeClaimable, Bool.and_eq_true, decide_eq_true_eq] at hcan
        exact absurd hcan.1.1.1.1.1.2 leaseRow_status
    have hmap := declareCapability_map (fun row => (row.reservationId, row.announcement))
      (fun _ _ => rfl) hsound.ids req
    have hmem : (row.reservationId, row.announcement) ∈
        w.db.reservations.map fun row => (row.reservationId, row.announcement) := by
      rw [← hmap]
      exact List.mem_map_of_mem hdeclared
    obtain ⟨old, hold, hsame⟩ := List.mem_map.mp hmem
    obtain ⟨hid, hannouncement⟩ := Prod.mk.inj hsame
    exact ⟨old, hold, hid, hannouncement ▸ hfree⟩
  · exact h.elim

/-! ### While the threshold stays -/

/-- The service while the threshold of this round stays as it is. -/
def steady (id : String) : Transition.System World Event where
  init := service.init
  step w event w' := (service.restrict Event.NamesPigs).step w event w' ∧
    (w'.db.reservation? id).map (·.protectionRequired) =
      (w.db.reservation? id).map (·.protectionRequired)

theorem steady_run (hrun : Run (steady id) w es w') :
    Run (service.restrict Event.NamesPigs) w es w' := by
  induction hrun with
  | nil => exact Run.nil
  | snoc _ hstep ih => exact Run.snoc ih hstep.1

/-- The round is settled: its sending started under this token, or nothing is left to send. -/
def NoticeSettled (db : Db) (id token : String) : Prop :=
  ∃ row ∈ db.reservations, row.reservationId = id ∧ row.announcement.stage.Settled token

theorem NoticeSettled.step (hreach : Reachable (service.restrict Event.NamesPigs) w)
    (h : NoticeSettled w.db id token) (hstep : (steady id).step w event w') :
    NoticeSettled w'.db id token := by
  obtain ⟨row, hrow, rfl, hsettled⟩ := h
  have hsound := sound_of_reachable hreach.of_restrict
  have hsound' := sound_of_reachable (hreach.step hstep.1).of_restrict
  obtain ⟨row', hrow', hid, -⟩ := hsound.step_round_forward hstep.1.1 hrow
  have hsubject : row'.announcement.subject = row.announcement.subject := by
    have hsame := hstep.2
    rw [hsound.db.reservation?_eq hrow, hid, hsound'.db.reservation?_eq hrow'] at hsame
    exact Option.some.inj hsame
  refine ⟨row', hrow', hid.symm, ?_⟩
  rcases step_announces hreach hstep.1 hrow hrow' hid.symm with hsteps | hone
  · exact hsteps.settled hsettled
  · exact hone.settled hsubject hsettled

theorem NoticeSettled.run (hreach : Reachable (service.restrict Event.NamesPigs) w)
    (h : NoticeSettled w.db id token) (hrun : Run (steady id) w es w') :
    NoticeSettled w'.db id token := by
  induction hrun with
  | nil => exact h
  | snoc hprevious hstep ih => exact ih.step (hreach.run (steady_run hprevious)) hstep

/-- Starting to send settles the notice. -/
theorem notifies_settled (hstep : service.step w event w') (h : event.notifies id token .sending) :
    NoticeSettled w'.db id token := by
  obtain ⟨-, -, -, notice, next, -, htoken, hadvance, row', hrow', hid, hnext⟩ :=
    notifies_cases hstep h
  refine ⟨row', hrow', hid, ?_⟩
  obtain ⟨status, claimToken, claimedAt⟩ := notice
  obtain rfl : claimToken = some token := htoken
  have hsending : next.stage = .sending token := by
    cases status with
    | processing | sending =>
        obtain rfl := Option.some.inj hadvance
        rfl
    | pending | sent => simp [advanceNotice] at hadvance
  unfold RoastReservation.announcement
  rw [hnext]
  dsimp only
  rw [hsending]
  exact .sending

/-- **The one who started to send is the last one.** -/
theorem NoticeSettled.excludes (hreach : Reachable (service.restrict Event.NamesPigs) w)
    (h : NoticeSettled w.db id token) (hstep : service.step w event w') :
    ¬ event.claimsNotice id ∧ ∀ token', event.notifies id token' .sending → token' = token := by
  obtain ⟨row, hrow, rfl, hsettled⟩ := h
  have hsound := (sound_of_reachable hreach.of_restrict).db
  constructor
  · intro hclaims
    obtain ⟨other, hother, hid, hfree⟩ := claimsNotice_free hsound hstep hclaims
    obtain rfl : other = row := hsound.ids.eq hother hrow hid
    exact hsettled.not_free hfree
  · intro token' hnotifies
    obtain ⟨other, hother, hid, notice, -, hnotice, htoken, -⟩ := notifies_cases hstep hnotifies
    obtain rfl : other = row := hsound.ids.eq hother hrow hid
    exact hsettled.holder ((notices_kept hreach other hrow).holder_iff.mpr ⟨notice, hnotice, htoken⟩)

/-! ### Tokens that lost the notice -/

theorem Event.issued_of_warrant (h : event.warrant.issues token) :
    token ∈ Set.range event.env.uuid := by
  unfold Event.warrant at h
  split at h
  · rename_i request view haction
    cases request with
    | claim req => exact h
    | _ => exact h.elim
  · exact h.elim

/-- What one step of the service does to the token that holds a notice: it was there, or it
was just issued. -/
theorem holder_step (hreach : Reachable (service.restrict Event.NamesPigs) w)
    (hstep : (service.restrict Event.NamesPigs).step w event w') (hrow' : row' ∈ w'.db.reservations)
    (hholder : row'.announcement.stage.holder? = some token) :
    (∃ row ∈ w.db.reservations, row.reservationId = row'.reservationId ∧
      row.announcement.stage.holder? = some token) ∨ token ∈ Set.range event.env.uuid := by
  rcases (sound_of_reachable hreach.of_restrict).step_round hstep.1 hrow' with
    ⟨row, hrow, hid, -⟩ | ⟨hborn, -⟩
  · by_cases hissues : event.warrant.issues token
    · exact Or.inr (Event.issued_of_warrant hissues)
    · refine Or.inl ⟨row, hrow, hid, ?_⟩
      by_contra hlost
      rcases step_announces hreach hstep hrow hrow' hid.symm with hsteps | hone
      · exact hsteps.steps.lost hissues hlost hholder
      · exact hone.lost hissues hlost hholder
  · obtain ⟨notice, hnotice, -⟩ := hborn.noticeKept.holder_iff.mp hholder
    exact absurd hnotice (by rw [hborn.silent]; simp)

/-- Tokens of notices were issued. -/
theorem holders_issued (h : Reachable (service.restrict Event.NamesPigs) w) :
    ∀ row ∈ w.db.reservations, ∀ token, row.announcement.stage.holder? = some token →
      token ∈ w.issued := by
  refine Reachable.invariant (I := fun w => ∀ row ∈ w.db.reservations, ∀ token,
    row.announcement.stage.holder? = some token → token ∈ w.issued) ?_ ?_ h
  · intro w hinit
    obtain rfl : w = {} := hinit
    simp
  · intro w event w' hreach hissued hstep row' hrow' token hholder
    have hgrows : w'.issued = w.issued ∪ Set.range event.env.uuid := by
      obtain ⟨-, -, -, rfl⟩ := hstep.1
      rfl
    rw [hgrows]
    rcases holder_step hreach hstep hrow' hholder with ⟨row, hrow, -, hheld⟩ | hnew
    · exact Or.inl (hissued row hrow token hheld)
    · exact Or.inr hnew

/-- The token was issued, and does not hold the notice. -/
def NoticeLost (w : World) (id token : String) : Prop :=
  token ∈ w.issued ∧ ¬ HoldsNotice w.db id token

theorem holdsNotice_iff (h : Reachable (service.restrict Event.NamesPigs) w) :
    HoldsNotice w.db id token ↔ ∃ row ∈ w.db.reservations, row.reservationId = id ∧
      row.announcement.stage.holder? = some token := by
  refine exists_congr fun row => and_congr_right fun hrow => and_congr_right fun _ => ?_
  exact (notices_kept h row hrow).holder_iff.symm

theorem NoticeLost.step (hreach : Reachable (service.restrict Event.NamesPigs) w)
    (h : NoticeLost w id token) (hstep : (service.restrict Event.NamesPigs).step w event w') :
    NoticeLost w' id token := by
  obtain ⟨hissued, hlost⟩ := h
  constructor
  · obtain ⟨-, -, -, rfl⟩ := hstep.1
    exact Or.inl hissued
  · intro hholds
    obtain ⟨row', hrow', rfl, hholder⟩ := (holdsNotice_iff (hreach.step hstep)).mp hholds
    rcases holder_step hreach hstep hrow' hholder with ⟨row, hrow, hid, hheld⟩ | ⟨i, rfl⟩
    · exact hlost ((holdsNotice_iff hreach).mpr ⟨row, hrow, hid, hheld⟩)
    · exact hstep.1.1.unissued i hissued

theorem NoticeLost.run (hreach : Reachable (service.restrict Event.NamesPigs) w)
    (h : NoticeLost w id token) (hrun : Run (service.restrict Event.NamesPigs) w es w') :
    NoticeLost w' id token := by
  induction hrun with
  | nil => exact h
  | snoc hprevious hstep ih => exact ih.step (hreach.run hprevious) hstep

theorem NoticeLost.silent (h : NoticeLost w id token) (hstep : service.step w event w') :
    ¬ event.notifies id token action := by
  intro hnotifies
  obtain ⟨row, hrow, hid, notice, -, hnotice, htoken, -⟩ := notifies_cases hstep hnotifies
  exact h.2 ⟨row, hrow, hid, notice, hnotice, htoken⟩

/-! ### The claim of a notice -/

/-- A notice is there only while the round waits for a larger crowd. -/
theorem notice_waits (h : Reachable (service.restrict Event.NamesPigs) w)
    (hrow : row ∈ w.db.reservations) (hnotice : row.waitingNotice.isSome = true) :
    row.status = .pending ∧ row.forceMode ≠ some "super" ∧ row.targetPigId ≠ "" ∧
      totalContribution (w.db.members row.reservationId) < row.protectionRequired := by
  obtain ⟨notice, hsome⟩ := Option.isSome_iff_exists.mp hnotice
  obtain ⟨hpending, hpig, -⟩ := notices_kept h row hrow notice hsome
  obtain ⟨-, hwaits, -⟩ := rounds_ignited h.of_restrict row hrow
  rw [Round.crowd_met] at hwaits
  have hmet := hwaits (Round.crowd_opened.mpr hpending) hpig
  push Not at hmet
  exact ⟨hpending, hmet.1, hpig, hmet.2⟩

/-- **The waiting notice is announced once.**  In every reachable state a notice is there only
while the round waits with its target arrived, unaccelerated and undermanned.  Once a token
was told to send, then until the threshold changes no claim returns the notice and no other
token is told to send.  And a token that no longer holds the notice is never again told to
send it, or that it was sent. -/
theorem notice_announced_once (h : Reachable (service.restrict Event.NamesPigs) w) :
    (∀ row ∈ w.db.reservations, row.waitingNotice.isSome = true →
        row.status = .pending ∧ row.forceMode ≠ some "super" ∧ row.targetPigId ≠ "" ∧
          totalContribution (w.db.members row.reservationId) < row.protectionRequired) ∧
      (∀ id token event w₁ es w₂, (service.restrict Event.NamesPigs).step w event w₁ →
        event.notifies id token .sending → Run (steady id) w₁ es w₂ →
          ∀ later ∈ es, ¬ later.claimsNotice id ∧
            ∀ token', later.notifies id token' .sending → token' = token) ∧
      ∀ id token es₁ w₁ es₂ w₂, HoldsNotice w.db id token →
        Run (service.restrict Event.NamesPigs) w es₁ w₁ → ¬ HoldsNotice w₁.db id token →
          Run (service.restrict Event.NamesPigs) w₁ es₂ w₂ →
            ∀ event ∈ es₂, ¬ event.notifies id token .sending ∧ ¬ event.notifies id token .sent := by
  refine ⟨fun row hrow hnotice => notice_waits h hrow hnotice, ?_, ?_⟩
  · intro id token event w₁ es w₂ hstep hnotifies hrun later hlater
    have hreach := h.step hstep
    obtain ⟨before, after, w₃, w₄, -, hbefore, hlaterStep, -⟩ := hrun.step_of_mem hlater
    have hsettled := (notifies_settled hstep.1 hnotifies).run hreach hbefore
    exact hsettled.excludes (hreach.run (steady_run hbefore)) hlaterStep.1.1
  · intro id token es₁ w₁ es₂ w₂ hholds hrun₁ hlost hrun₂ event hevent
    have hreach := h.run hrun₁
    obtain ⟨before, after, w₃, w₄, -, hbefore, hstep, -⟩ := hrun₂.step_of_mem hevent
    obtain ⟨row, hrow, -, hholder⟩ := (holdsNotice_iff h).mp hholds
    have hissued : token ∈ w₁.issued := by
      refine Run.invariant (I := fun w => token ∈ w.issued) ?_ hrun₁
        (holders_issued h row hrow token hholder)
      rintro w event w' hold ⟨⟨-, -, -, rfl⟩, -⟩
      exact Or.inl hold
    have hgone := NoticeLost.run hreach ⟨hissued, hlost⟩ hbefore
    exact ⟨hgone.silent hstep.1, hgone.silent hstep.1⟩

def noticeClaim : Request :=
  .claim
    { deliveryBotId := "bot", dateStr := 739000
      supportsProtectionGathering := true, protectionGatheringVersion := 2
      supportsWaitingNotice := true }

/-- The notice of the undermanned round is leased. -/
def noticeScript : List (Time × Order) :=
  undermannedScript ++ [(739000 * dayMicros, .request noticeClaim)]

def noticeSend : Request :=
  .waitingNotice
    { reservationId := scriptToken 1 0, claimToken := scriptToken 4 0, action := .sending }

/-- After its sending started, the notice is not leased again an hour later. -/
theorem notice_announced_once_sending :
    (scriptEvent noticeScript (739000 * dayMicros) noticeSend).notifies (scriptToken 1 0)
        (scriptToken 4 0) .sending ∧
      ¬ (scriptEvent (noticeScript ++ [(739000 * dayMicros, .request noticeSend)])
        (739000 * dayMicros + 3600000000) noticeClaim).claimsNotice (scriptToken 1 0) := by
  have hplay : (play 0 {} (noticeScript ++ [(739000 * dayMicros, .request noticeSend)])).isSome =
      true := by decide +kernel
  have hreach : Reachable (service.restrict Event.NamesPigs) (scriptWorld noticeScript) :=
    ⟨{}, _, rfl, (script_run (play_front hplay)).restrict (by decide +kernel)⟩
  have hsend := script_step (play_front hplay) (739000 * dayMicros) noticeSend
  rw [← scriptWorld_snoc (play_front hplay)] at hsend
  have hlater := script_step hplay (739000 * dayMicros + 3600000000) noticeClaim
  have hnotifies : (scriptEvent noticeScript (739000 * dayMicros) noticeSend).notifies
      (scriptToken 1 0) (scriptToken 4 0) .sending := by decide +kernel
  refine ⟨hnotifies, ?_⟩
  have hsteady : Run (steady (scriptToken 1 0)) _ [_] _ :=
    Run.single ⟨⟨hlater, by decide +kernel⟩, by decide +kernel⟩
  exact ((notice_announced_once hreach).2.1 _ _ _ _ _ _ ⟨hsend, by decide +kernel⟩ hnotifies
    hsteady _ (List.mem_singleton.mpr rfl)).1

end RollPig
