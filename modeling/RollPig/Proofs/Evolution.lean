/-
Which steps each transaction makes a round take.

One lemma for every function that flushes reservations, from the arrival of a target
to the release of a lease, each giving the step and its guards to `Evolves`.  A prepare
is the one transaction that may also create a round; `prepareReservation_cases` lists
everything it can do.
-/
import RollPig.Proofs.Rounds

namespace RollPig

variable {warrant : Warrant} {rolls : List DailyRoll} {db db' : Db}

/-! ### What the row rewrites keep -/

/-- Only the bot and its capability are written. -/
theorem updateDeliveryCapability_eq (row : RoastReservation)
    (req : RoastReservationPrepareRequest) :
    ∃ bot version, updateDeliveryCapability row req =
      { row with deliveryBotId := bot, deliveryGatheringVersion := version } := by
  unfold updateDeliveryCapability
  cases req.gathers with
  | false => exact ⟨row.deliveryBotId, row.deliveryGatheringVersion, rfl⟩
  | true =>
      cases canReassignProtectedDelivery row req with
      | true => exact ⟨req.deliveryBotId, 2, by simp⟩
      | false =>
          by_cases hbot : row.deliveryBotId = req.deliveryBotId
          · exact ⟨row.deliveryBotId, 2, by simp [hbot]⟩
          · exact ⟨row.deliveryBotId, row.deliveryGatheringVersion, by simp [hbot]⟩

@[simp] theorem updateDeliveryCapability_reservationId (row : RoastReservation)
    (req : RoastReservationPrepareRequest) :
    (updateDeliveryCapability row req).reservationId = row.reservationId := by
  obtain ⟨bot, version, h⟩ := updateDeliveryCapability_eq row req
  rw [h]

@[simp] theorem activateReservation_reservationId (e : Env)
    (members : List RoastReservationParticipant) (row : RoastReservation) (pigId : String)
    (notify : Bool) :
    (activateReservation e members row pigId notify).1.reservationId = row.reservationId := by
  unfold activateReservation
  dsimp only
  split
  · split <;> rfl
  · rfl

@[simp] theorem activateIfArrived_reservationId (e : Env)
    (members : List RoastReservationParticipant) (row : RoastReservation) (pigId : String)
    (notify : Bool) :
    (activateIfArrived e members row pigId notify).reservationId = row.reservationId := by
  unfold activateIfArrived
  split
  · simp
  · rfl

@[simp] theorem joinedRow_reservationId (e : Env) (req : RoastReservationPrepareRequest)
    (roll : Option DailyRoll) (row : RoastReservation)
    (members : List RoastReservationParticipant) :
    (joinedRow e req roll row members).reservationId = row.reservationId := by
  unfold joinedRow
  dsimp only
  split <;> simp

@[simp] theorem syncReservation_reservationId (e : Env) (protection : GroupProtection)
    (removed : Bool) (members : List RoastReservationParticipant) (row : RoastReservation) :
    (syncReservation e protection removed members row).reservationId = row.reservationId := by
  unfold syncReservation
  split
  · unfold announceThreshold
    split <;> simp [governedRow]
  · rfl

@[simp] theorem arriveRow_reservationId (e : Env) (pigId handledId : String)
    (row : RoastReservation) (members : List RoastReservationParticipant) :
    (arriveRow e pigId handledId row members).1.reservationId = row.reservationId := by
  unfold arriveRow
  dsimp only
  split <;> simp

@[simp] theorem markPrepared_reservationId (row : RoastReservation) :
    (markPrepared row).reservationId = row.reservationId := by
  unfold markPrepared
  split <;> rfl

@[simp] theorem completedRow_reservationId (e : Env) (row : RoastReservation) :
    (completedRow e row).reservationId = row.reservationId := by
  unfold completedRow
  split <;> rfl

/-! ### Arrivals -/

/-- Offering a pig the target really rolled. -/
theorem activateTargetReservations_evolves (e : Env) (h : db.Sound) {date : Date}
    {targetId pigId : String} (handledId : String) (hroll : Rolled rolls date targetId pigId) :
    Evolves warrant rolls db (activateTargetReservations e date targetId pigId db handledId).2 := by
  unfold activateTargetReservations
  dsimp only
  split_ifs
  · exact Evolves.refl h
  · refine Evolves.flush h _ ?_
    intro row' hrow'
    simp only [List.map_map, List.mem_map, List.mem_filter, Function.comp_apply] at hrow'
    obtain ⟨row, ⟨hrow, hawaits⟩, rfl⟩ := hrow'
    simp only [awaitsTarget, Bool.and_eq_true, decide_eq_true_eq] at hawaits
    obtain ⟨⟨hdate, htarget⟩, hopen⟩ := hawaits
    refine ⟨row, hrow, by simp, .single ?_⟩
    refine RoundStep.arrive e pigId handledId hopen ?_
    rw [hdate, htarget]
    exact hroll

/-- The roll found by a plain read is one the target really rolled. -/
theorem presentRoll_rolled {view : List DailyRoll} {date : Date} {userId : String}
    {roll : DailyRoll} (h : presentRoll view date userId = some roll) :
    Rolled view date userId roll.pigId := by
  unfold presentRoll at h
  rw [Option.filter_eq_some_iff] at h
  obtain ⟨hfind, hmakeup⟩ := h
  have hkey := List.find?_some hfind
  simp only [decide_eq_true_eq] at hkey
  exact ⟨roll, List.mem_of_find?_eq_some hfind, hkey.1, hkey.2, rfl, by simpa using hmakeup⟩

theorem activateIfTargetAlreadyRolled_evolves (e : Env) (h : db.Sound) (date : Date)
    (targetId handledId : String) :
    Evolves warrant db.dailyRolls db (activateIfTargetAlreadyRolled e date targetId db handledId).2 := by
  unfold activateIfTargetAlreadyRolled
  cases hroll : presentRoll db.dailyRolls date targetId with
  | none => exact Evolves.refl h
  | some roll => exact activateTargetReservations_evolves e h handledId (presentRoll_rolled hroll)

/-! ### Synchronising a protection -/

/-- The rosters after a flush of changed participants. -/
theorem members_flushParticipants (rows : List RoastReservationParticipant)
    (reservationId : String) :
    (db.flushParticipants rows).members reservationId =
      Tables.writeBack memberKey rows (db.members reservationId) := by
  unfold Db.members Db.flushParticipants
  refine Tables.filter_writeBack _ ?_
  intro x _ r _ hkey
  have : x.reservationId = r.reservationId := congrArg Prod.fst hkey
  simp [this]

/-- What the sync does to one participant, given the row of its round. -/
def syncMember (removed : Bool) (row : RoastReservation) (member : RoastReservationParticipant) :
    RoastReservationParticipant :=
  if doublesOwner removed row ∧ member.userId = row.ownerId then
    { member with contribution := 2 } else member

theorem syncMembers_eq (removed : Bool) (row : RoastReservation)
    (members : List RoastReservationParticipant) :
    syncMembers removed row members = members.map (syncMember removed row) := rfl

@[simp] theorem memberKey_syncMember (removed : Bool) (row : RoastReservation)
    (member : RoastReservationParticipant) :
    memberKey (syncMember removed row member) = memberKey member := by
  unfold syncMember
  split <;> rfl

/-- The rosters of the synchronised rounds change as `syncMembers` says. -/
theorem members_sync (h : db.Sound) (removed : Bool) (p : RoastReservation → Bool)
    {row : RoastReservation} (hrow : row ∈ db.reservations) :
    (db.flushParticipants ((db.reservations.filter p).flatMap fun row =>
        syncMembers removed row (db.members row.reservationId))).members row.reservationId =
      if p row then syncMembers removed row (db.members row.reservationId)
      else db.members row.reservationId := by
  rw [members_flushParticipants]
  -- a changed participant with the key of one in this roster comes from this very row
  have hsame : ∀ x ∈ (db.reservations.filter p).flatMap (fun row =>
      syncMembers removed row (db.members row.reservationId)),
      ∀ m ∈ db.members row.reservationId, memberKey x = memberKey m →
        p row = true ∧ x = syncMember removed row m := by
    intro x hx m hm hkey
    obtain ⟨row₀, hrow₀, hx₀⟩ := List.mem_flatMap.mp hx
    obtain ⟨hmem₀, hp⟩ := List.mem_filter.mp hrow₀
    rw [syncMembers_eq] at hx₀
    obtain ⟨m₀, hm₀, rfl⟩ := List.mem_map.mp hx₀
    rw [memberKey_syncMember] at hkey
    have hm₀' := Db.mem_members.mp hm₀
    have hm' := Db.mem_members.mp hm
    obtain rfl : m₀ = m := h.members.eq hm₀'.1 hm'.1 hkey
    obtain rfl : row₀ = row := h.ids.eq hmem₀ hrow (hm₀'.2.symm.trans hm'.2)
    exact ⟨hp, rfl⟩
  by_cases hp : p row = true
  · rw [if_pos hp, syncMembers_eq]
    refine Tables.writeBack_eq_map _ (fun m hm x hx hkey => (hsame x hx m hm hkey).2) ?_
    intro m hm
    refine Or.inl ⟨syncMember removed row m, ?_, by simp⟩
    refine List.mem_flatMap.mpr ⟨row, List.mem_filter.mpr ⟨hrow, hp⟩, ?_⟩
    rw [syncMembers_eq]
    exact List.mem_map.mpr ⟨m, hm, rfl⟩
  · rw [if_neg hp]
    refine (Tables.writeBack_eq_map id ?_ fun m _ => Or.inr rfl).trans (List.map_id _)
    intro m hm x hx hkey
    exact absurd (hsame x hx m hm hkey).1 hp

theorem syncPendingProtection_evolves (e : Env) (h : db.Sound) (hsyncs : warrant.syncs)
    (protection : GroupProtection) (removed : Bool) (groupId : Option String) :
    Evolves warrant rolls db (syncPendingProtection e protection removed db groupId) := by
  unfold syncPendingProtection
  generalize syncGroup protection groupId = group
  dsimp only
  set rows := (db.reservations.filter (awaitsProtection protection group)).flatMap fun row =>
    syncMembers removed row (db.members row.reservationId) with hrows
  have hmembers : ∀ row ∈ db.reservations, (db.flushParticipants rows).members row.reservationId =
      if awaitsProtection protection group row then
        syncMembers removed row (db.members row.reservationId)
      else db.members row.reservationId :=
    fun row hrow => members_sync h removed _ hrow
  have hkeys : (db.flushParticipants rows).participants.map memberKey =
      db.participants.map memberKey := Tables.map_key_writeBack
  have henrolled : ∀ member ∈ (db.flushParticipants rows).participants,
      member.reservationId ∈ db.reservations.map (·.reservationId) := by
    intro member hmember
    have hkey : memberKey member ∈ db.participants.map memberKey :=
      hkeys ▸ List.mem_map_of_mem hmember
    obtain ⟨old, hold, hkey⟩ := List.mem_map.mp hkey
    have : old.reservationId = member.reservationId := congrArg Prod.fst hkey
    exact this ▸ h.enrolled old hold
  refine Evolves.of_rows h _ rfl h.members.writeBack henrolled ?_ ?_
  · intro row' hrow'
    obtain ⟨row, hrow, rfl⟩ := List.mem_map.mp hrow'
    obtain ⟨hmem, hawaits⟩ := List.mem_filter.mp hrow
    have hroster := hmembers row hmem
    rw [if_pos hawaits] at hroster
    have hguards := hawaits
    simp only [awaitsProtection, Bool.and_eq_true, decide_eq_true_eq, ne_eq] at hguards
    refine ⟨row, hmem, by simp, .single ?_⟩
    have hround : ∀ rows', ((db.flushParticipants rows).flushReservations rows').round
        (syncReservation e protection removed
          ((db.flushParticipants rows).members row.reservationId) row) =
        ⟨syncReservation e protection removed
          (syncMembers removed row (db.members row.reservationId)) row,
          syncMembers removed row (db.members row.reservationId)⟩ := by
      intro rows'
      rw [hroster]
      show Round.mk _ ((db.flushParticipants rows).members _) = _
      rw [syncReservation_reservationId, hroster]
    rw [hround]
    exact RoundStep.sync e protection removed hsyncs hguards.1.2 hguards.2
  · intro row hrow hne
    show (db.flushParticipants rows).members row.reservationId = _
    rw [hmembers row hrow]
    refine if_neg fun hawaits => ?_
    refine hne _ (List.mem_map.mpr ⟨row, List.mem_filter.mpr ⟨hrow, hawaits⟩, rfl⟩) ?_
    simp

/-! ### Entering a round -/

/-- A new participant joins the roster of one round. -/
theorem members_insert {row : RoastReservation} {participant : RoastReservationParticipant}
    (hinsert : db'.participants = db.participants ++ [participant])
    (hid : participant.reservationId = row.reservationId) (reservationId : String) :
    db'.members reservationId =
      if reservationId = row.reservationId then db.members row.reservationId ++ [participant]
      else db.members reservationId := by
  unfold Db.members
  rw [hinsert, List.filter_append]
  by_cases hsame : reservationId = row.reservationId
  · simp [hsame, hid]
  · have hne : participant.reservationId ≠ reservationId := fun h => hsame (h.symm.trans hid)
    simp [hsame, hne]

/-- Raising one contribution is `boostMember` on that roster and nothing elsewhere. -/
theorem members_boost (h : db.Sound) {row : RoastReservation}
    {participant : RoastReservationParticipant}
    (hmem : participant ∈ db.members row.reservationId) (reservationId : String) :
    (db.flushParticipants [{ participant with contribution := 2 }]).members reservationId =
      if reservationId = row.reservationId then
        boostMember participant.userId (db.members row.reservationId)
      else db.members reservationId := by
  have hrow := (Db.mem_members.mp hmem).2
  rw [members_flushParticipants]
  by_cases hsame : reservationId = row.reservationId
  · rw [if_pos hsame, hsame]
    refine Tables.writeBack_eq_map _ ?_ ?_
    · intro m hm x hx hkey
      obtain rfl : x = { participant with contribution := 2 } := by simpa using hx
      have huser : m.userId = participant.userId := (congrArg Prod.snd hkey).symm
      obtain rfl : m = participant := h.member_eq hm hmem huser
      rw [if_pos rfl]
    · intro m hm
      by_cases huser : m.userId = participant.userId
      · refine Or.inl ⟨{ participant with contribution := 2 }, by simp, ?_⟩
        obtain rfl : m = participant := h.member_eq hm hmem huser
        rfl
      · exact Or.inr (if_neg huser)
  · rw [if_neg hsame]
    refine (Tables.writeBack_eq_map id ?_ fun m _ => Or.inr rfl).trans (List.map_id _)
    intro m hm x hx hkey
    obtain rfl : x = { participant with contribution := 2 } := by simpa using hx
    have hid : participant.reservationId = m.reservationId := congrArg Prod.fst hkey
    exact absurd ((Db.mem_members.mp hm).2.symm.trans (hid.symm.trans hrow)) hsame

/-- Answering a join writes one row back over the new roster. -/
theorem answerJoin_evolves (e : Env) (h : db.Sound) (req : RoastReservationPrepareRequest)
    (targetRoll : Option DailyRoll) {row : RoastReservation} (hrow : row ∈ db.reservations)
    {members : List RoastReservationParticipant} (status : PrepareStatus)
    (hreservations : db'.reservations = db.reservations)
    (hunique : Tables.Unique memberKey db'.participants)
    (henrolled : ∀ member ∈ db'.participants,
      member.reservationId ∈ db.reservations.map (·.reservationId))
    (hmembers : ∀ reservationId, db'.members reservationId =
      if reservationId = row.reservationId then members else db.members reservationId)
    (hstep : RoundStep warrant rolls (db.round row)
      ⟨joinedRow e req targetRoll row members, members⟩) :
    Evolves warrant rolls db (answerJoin e req targetRoll row members status db').2 := by
  have hroster : ∀ reservationId, (answerJoin e req targetRoll row members status db').2.members
      reservationId = db'.members reservationId := by
    intro reservationId
    simp [answerJoin, Db.members]
  refine Evolves.of_rows h [joinedRow e req targetRoll row members] ?_ ?_ ?_ ?_ ?_
  · simp [answerJoin, Db.flushReservations, hreservations]
  · simpa [answerJoin] using hunique
  · simpa [answerJoin] using henrolled
  · intro row' hrow'
    obtain rfl : row' = joinedRow e req targetRoll row members := by simpa using hrow'
    refine ⟨row, hrow, by simp, .single ?_⟩
    unfold Db.round
    rw [joinedRow_reservationId, hroster, hmembers, if_pos rfl]
    exact hstep
  · intro other hother hne
    have hdiff : other.reservationId ≠ row.reservationId := by
      intro hsame
      exact hne (joinedRow e req targetRoll row members) (by simp) (by simp [hsame])
    rw [hroster, hmembers, if_neg hdiff]

theorem rejoinRound_evolves (e : Env) (h : db.Sound) (req : RoastReservationPrepareRequest)
    (targetRoll : Option DailyRoll) {row : RoastReservation} (hrow : row ∈ db.reservations)
    (hopen : row.status = .pending) (hforce : row.forceMode ≠ some "super")
    (hreq : req.forceMode ≠ some "super")
    (hroll : ∀ r ∈ targetRoll, Rolled rolls row.dateStr row.targetId r.pigId)
    {participant : RoastReservationParticipant}
    (hmem : participant ∈ db.members row.reservationId)
    (huser : participant.userId = req.attackerId) (hadmits : warrant.prepares req) :
    Evolves warrant rolls db
      (rejoinRound e req targetRoll row (db.members row.reservationId) participant db).2 := by
  unfold rejoinRound
  dsimp only
  split_ifs with hagain hboost
  · exact Evolves.flushOne h hrow (by simp) (.single (RoundStep.confirm req hopen hforce hadmits))
  · cases hpaid : payBoost req (boosts req row) db with
    | none => exact Evolves.refl h
    | some paid =>
        have hframe : paid = { db with userUsage := paid.userUsage } := payBoost_some hpaid
        have hmap : (db.members row.reservationId).map (fun member =>
            if member.userId = req.attackerId then
              { participant with contribution := 2 } else member) =
            boostMember req.attackerId (db.members row.reservationId) := by
          refine List.map_congr_left fun member hmember => ?_
          by_cases hsame : member.userId = req.attackerId
          · obtain rfl : member = participant :=
              h.member_eq hmember hmem (hsame.trans huser.symm)
            simp [hsame]
          · simp [hsame]
        have hkeys : (paid.flushParticipants [{ participant with contribution := 2 }]).participants.map
            memberKey = db.participants.map memberKey := by
          rw [hframe]
          exact Tables.map_key_writeBack
        dsimp only
        rw [hmap]
        refine answerJoin_evolves e h req targetRoll hrow _ ?_ ?_ ?_ ?_ ?_
        · rw [hframe]
          rfl
        · unfold Tables.Unique
          rw [hkeys]
          exact h.members
        · intro member hmember
          have hkey : memberKey member ∈ db.participants.map memberKey :=
            hkeys ▸ List.mem_map_of_mem hmember
          obtain ⟨old, hold, hkey⟩ := List.mem_map.mp hkey
          have : old.reservationId = member.reservationId := congrArg Prod.fst hkey
          exact this ▸ h.enrolled old hold
        · intro reservationId
          rw [hframe, ← huser]
          exact members_boost h hmem reservationId
        · exact RoundStep.upgrade e req targetRoll hopen hforce hreq hroll hboost
            ⟨participant, hmem, huser⟩ hadmits
  · exact absurd ⟨fun hb => hboost hb.1, hreq⟩ hagain

theorem enlistRound_evolves (e : Env) (h : db.Sound) (req : RoastReservationPrepareRequest)
    (targetRoll : Option DailyRoll) {row : RoastReservation} (hrow : row ∈ db.reservations)
    (hopen : row.status = .pending) (hforce : row.forceMode ≠ some "super")
    (hreq : req.forceMode ≠ some "super")
    (hroll : ∀ r ∈ targetRoll, Rolled rolls row.dateStr row.targetId r.pigId)
    (hnew : ∀ member ∈ db.members row.reservationId, member.userId ≠ req.attackerId)
    (hadmits : warrant.prepares req) :
    Evolves warrant rolls db
      (enlistRound e req targetRoll row (db.members row.reservationId) db).2 := by
  unfold enlistRound
  dsimp only
  by_cases hfull : roastReservationMaxParticipants ≤ (db.members row.reservationId).length
  · rw [if_pos hfull]
    exact Evolves.refl h
  · rw [if_neg hfull]
    cases hpaid : payBoost req (boosts req row) db with
    | none => exact Evolves.refl h
    | some paid =>
        have hframe : paid = { db with userUsage := paid.userUsage } := payBoost_some hpaid
        dsimp only
        refine answerJoin_evolves e h req targetRoll hrow _ ?_ ?_ ?_ ?_ ?_
        · rw [hframe]
        · rw [hframe]
          refine h.members.insert ?_
          intro member hmember hkey
          have hid : member.reservationId = row.reservationId := congrArg Prod.fst hkey
          exact hnew member (Db.mem_members.mpr ⟨hmember, hid⟩) (congrArg Prod.snd hkey)
        · rw [hframe]
          intro member hmember
          rcases List.mem_append.mp hmember with hold | hlast
          · exact h.enrolled member hold
          · obtain rfl := List.mem_singleton.mp hlast
            exact List.mem_map.mpr ⟨row, hrow, rfl⟩
        · intro reservationId
          rw [hframe]
          exact members_insert rfl rfl reservationId
        · exact RoundStep.join e req targetRoll hopen hforce hreq hroll hnew (by omega) hadmits

theorem joinRound_evolves (e : Env) (h : db.Sound) (req : RoastReservationPrepareRequest)
    (targetRoll : Option DailyRoll) {row : RoastReservation} (hrow : row ∈ db.reservations)
    (hopen : row.status = .pending) (hforce : row.forceMode ≠ some "super")
    (hreq : req.forceMode ≠ some "super")
    (hroll : ∀ r ∈ targetRoll, Rolled rolls row.dateStr row.targetId r.pigId)
    (hadmits : warrant.prepares req) :
    Evolves warrant rolls db
      (joinRound e req targetRoll row (db.members row.reservationId) db).2 := by
  unfold joinRound
  cases hfind : (db.members row.reservationId).find? fun member =>
      member.userId = req.attackerId with
  | some participant =>
      have huser : participant.userId = req.attackerId := by
        simpa using List.find?_some hfind
      exact rejoinRound_evolves e h req targetRoll hrow hopen hforce hreq hroll
        (List.mem_of_find?_eq_some hfind) huser hadmits
  | none =>
      refine enlistRound_evolves e h req targetRoll hrow hopen hforce hreq hroll ?_ hadmits
      intro member hmember
      simpa using List.find?_eq_none.mp hfind member hmember

theorem takeoverRound_evolves (e : Env) (h : db.Sound) (req : RoastReservationPrepareRequest)
    (targetRoll : Option DailyRoll) {row : RoastReservation} (hrow : row ∈ db.reservations)
    (hopen : row.status = .pending) (hforce : row.forceMode ≠ some "super")
    (hreq : req.forceMode = some "super") (hgathers : req.gathers = true)
    (hroll : ∀ r ∈ targetRoll, Rolled rolls row.dateStr row.targetId r.pigId)
    (hadmits : warrant.prepares req) :
    Evolves warrant rolls db
      (takeoverRound e req targetRoll row (db.members row.reservationId) db).2 := by
  unfold takeoverRound
  dsimp only
  have hmark : Evolves warrant rolls db
      (markGroupActiveUsers e req.dateStr req.groupId [req.attackerId] db) :=
    Evolves.of_same h (by simp) (by simp)
  have hrow' : row ∈
      (markGroupActiveUsers e req.dateStr req.groupId [req.attackerId] db).reservations := by
    simpa using hrow
  refine hmark.trans (Evolves.flushOne hmark.sound hrow' ?_ ?_)
  · simp [takenOver]
  · have hstep : RoundStep warrant rolls (db.round row) _ :=
      RoundStep.takeover e req targetRoll hopen hforce hreq hgathers hroll hadmits
    simpa [Db.round, Db.members] using Relation.ReflTransGen.single hstep

/-- Meeting an active round moves that round by one step at most. -/
theorem enterRound_evolves (e : Env) (h : db.Sound) (req : RoastReservationPrepareRequest)
    (targetRoll : Option DailyRoll) {row : RoastReservation} (hrow : row ∈ db.reservations)
    (hroll : ∀ r ∈ targetRoll, Rolled rolls row.dateStr row.targetId r.pigId)
    (hadmits : warrant.prepares req) :
    Evolves warrant rolls db (enterRound e req targetRoll row db).2 := by
  unfold enterRound
  dsimp only
  by_cases hopen : row.status = .pending
  · rw [if_neg (by simp [hopen])]
    by_cases hforce : row.forceMode = some "super"
    · rw [if_pos hforce]
      exact Evolves.refl h
    · rw [if_neg hforce]
      by_cases hreq : req.forceMode = some "super"
      · rw [if_pos hreq]
        by_cases hgathers : req.gathers = true
        · rw [if_neg (by simp [hgathers])]
          exact takeoverRound_evolves e h req targetRoll hrow hopen hforce hreq hgathers hroll
            hadmits
        · rw [if_pos (by simpa using hgathers)]
          exact Evolves.refl h
      · rw [if_neg hreq]
        exact joinRound_evolves e h req targetRoll hrow hopen hforce hreq hroll hadmits
  · rw [if_pos hopen]
    by_cases hcan : canReassignProtectedDelivery row req = true
    · rw [if_pos hcan]
      exact Evolves.flushOne h hrow (by simp) (.single (RoundStep.busy req hopen hcan hadmits))
    · rw [if_neg hcan]
      exact Evolves.flushOne h hrow rfl .refl

end RollPig
