/-
Whom a settlement feeds.

A feed row is written by an ordinary roast event or by the first result of a round, and
by nothing else.  The users a result lists are those `Gathering.State.fed` names for the
crowd of the round; the rows written are for some of them, each with a real roll of the
user on the round's date.
-/
import RollPig.Proofs.Ignition
import RollPig.Proofs.Rosters

namespace RollPig

open Transition

variable {e : Env} {db db' : Db} {row : RoastReservation} {w w' : World} {event : Event}

/-! ### Feeding users -/

theorem applyDailyFeed_feeds (e : Env) (date : Date) (userId : String) (sourceType : FeedSource)
    (sourceId : String) (db : Db) :
    Tables.Grows (fun feed : UserDailyFeed => feed.dateStr = date ∧ feed.userId = userId ∧
        feed.sourceType = sourceType ∧ feed.sourceId = sourceId ∧
        Rolled db.dailyRolls date userId feed.pigId)
      db.userDailyFeeds (applyDailyFeed e date userId sourceType sourceId db).2.userDailyFeeds := by
  unfold applyDailyFeed
  cases hroll : (db.dailyRoll? date userId).filter (!·.isMakeup) with
  | none => exact .refl
  | some roll =>
      obtain ⟨hfind, hmakeup⟩ := Option.filter_eq_some_iff.mp hroll
      obtain ⟨hmem, hdate, huser⟩ := dailyRoll?_some hfind
      have hrolled : Rolled db.dailyRolls date userId roll.pigId :=
        ⟨roll, hmem, hdate, huser, rfl, by simpa using hmakeup⟩
      dsimp only
      cases db.userDailyFeeds.find? fun row => row.dateStr = date ∧ row.userId = userId with
      | some existing => exact .refl
      | none =>
          cases getProgress db userId roll.pigId with
          | none =>
              dsimp only
              split_ifs
              · exact .refl
              · exact .one ⟨rfl, rfl, rfl, rfl, hrolled⟩
          | some progress =>
              dsimp only
              split_ifs
              · exact .refl
              · exact .one ⟨rfl, rfl, rfl, rfl, hrolled⟩

theorem applyDailyFeed_userId (e : Env) (date : Date) (userId : String) (sourceType : FeedSource)
    (sourceId : String) (db : Db) :
    (applyDailyFeed e date userId sourceType sourceId db).1.userId = userId := by
  unfold applyDailyFeed
  cases (db.dailyRoll? date userId).filter (!·.isMakeup) with
  | none => rfl
  | some roll =>
      dsimp only
      cases db.userDailyFeeds.find? fun row => row.dateStr = date ∧ row.userId = userId with
      | some existing => rfl
      | none =>
          dsimp only
          split_ifs <;> rfl

theorem feedUsers_feeds (e : Env) (date : Date) (sourceId : String) (userIds : List String) :
    ∀ db : Db, Tables.Grows (fun feed : UserDailyFeed => feed.dateStr = date ∧
        feed.userId ∈ userIds ∧ feed.sourceType = .reservation ∧ feed.sourceId = sourceId ∧
        Rolled db.dailyRolls date feed.userId feed.pigId)
      db.userDailyFeeds (feedUsers e date sourceId userIds db).2.userDailyFeeds := by
  induction userIds with
  | nil => exact fun db => .refl
  | cons userId rest ih =>
      intro db
      have hfirst := applyDailyFeed_feeds e date userId .reservation sourceId db
      have hrest := ih (applyDailyFeed e date userId .reservation sourceId db).2
      refine (hfirst.mono ?_).trans (hrest.mono ?_)
      · rintro feed ⟨hdate, huser, htype, hid, hrolled⟩
        exact ⟨hdate, by simp [huser], htype, hid, huser ▸ hrolled⟩
      · rintro feed ⟨hdate, huser, htype, hid, hrolled⟩
        exact ⟨hdate, List.mem_cons_of_mem _ huser, htype, hid, by simpa using hrolled⟩

/-- Every user fed gets an answer, under the user's own name. -/
theorem feedUsers_answers (e : Env) (date : Date) (sourceId : String) (userIds : List String) :
    ∀ db : Db, (feedUsers e date sourceId userIds db).1.map (·.1) = userIds ∧
      ∀ answer ∈ (feedUsers e date sourceId userIds db).1, answer.2.userId = answer.1 := by
  induction userIds with
  | nil => exact fun db => ⟨rfl, by simp [feedUsers]⟩
  | cons userId rest ih =>
      intro db
      obtain ⟨hnames, hanswers⟩ := ih (applyDailyFeed e date userId .reservation sourceId db).2
      refine ⟨congrArg (userId :: ·) hnames, ?_⟩
      intro answer hanswer
      rcases List.mem_cons.mp hanswer with rfl | hlater
      · exact applyDailyFeed_userId e date userId .reservation sourceId db
      · exact hanswers answer hlater

/-! ### Settling -/

/-- The users a settlement feeds, in the order of the roster. -/
def fedUsers (db : Db) (row : RoastReservation) : List String :=
  ((db.members row.reservationId).filter (feedEligible row)).map (·.userId)

/-- The results name exactly these users. -/
theorem settleFeeds_names (e : Env) (row : RoastReservation) (db : Db) :
    (settleFeeds e row db).1.map (·.userId) = fedUsers db row := by
  obtain ⟨hnames, hanswers⟩ := feedUsers_answers e row.dateStr row.reservationId
    ((fedUsers db row).insertionSort (· ≤ ·)) db
  show ((fedUsers db row).filterMap fun userId => (feedUsers e row.dateStr row.reservationId
    ((fedUsers db row).insertionSort (· ≤ ·)) db).1.lookup userId).map (·.userId) = _
  generalize (feedUsers e row.dateStr row.reservationId
    ((fedUsers db row).insertionSort (· ≤ ·)) db).1 = results at hnames hanswers
  have hlookup : ∀ userId ∈ fedUsers db row,
      (results.lookup userId).map (·.userId) = some userId := by
    intro userId huser
    have hmem : userId ∈ results.map (·.1) := by
      rw [hnames, List.mem_insertionSort]
      exact huser
    obtain ⟨answer, hanswer, hname⟩ := List.mem_map.mp hmem
    cases hfind : results.lookup userId with
    | none =>
        have hne := List.lookup_eq_none_iff.mp hfind answer hanswer
        simp [hname] at hne
    | some result =>
        obtain ⟨before, after, heq, -⟩ := List.lookup_eq_some_iff.mp hfind
        have hfound : (userId, result) ∈ results := by simp [heq]
        exact congrArg some (hanswers _ hfound)
  rw [List.map_filterMap]
  calc (fedUsers db row).filterMap (fun userId => (results.lookup userId).map (·.userId))
      = (fedUsers db row).filterMap some := List.filterMap_congr hlookup
    _ = fedUsers db row := List.filterMap_some

theorem settleFeeds_feeds (e : Env) (row : RoastReservation) (db : Db) :
    Tables.Grows (fun feed : UserDailyFeed => feed.dateStr = row.dateStr ∧
        feed.userId ∈ fedUsers db row ∧ feed.sourceType = .reservation ∧
        feed.sourceId = row.reservationId ∧ Rolled db.dailyRolls row.dateStr feed.userId feed.pigId)
      db.userDailyFeeds (settleFeeds e row db).2.userDailyFeeds := by
  refine (feedUsers_feeds e row.dateStr row.reservationId
    ((fedUsers db row).insertionSort (· ≤ ·)) db).mono fun feed hfeed => ?_
  rwa [List.mem_insertionSort] at hfeed

/-- The crowd of the round says whom it feeds. -/
theorem feedEligible_iff (r : Round) (member : RoastReservationParticipant) :
    feedEligible r.row member = true ↔ r.crowd.Eligible (gatherer member) := by
  simp [feedEligible, Gathering.State.Eligible, Round.crowd, gatherer]

theorem settlesFeed_iff (r : Round) {req : RoastReservationOutcomeRequest} :
    settlesFeed r.row req = true ↔ req.settleDailyFeed = true ∧ r.crowd.Feeds ∧
      req.outcomeSnapshot.eventType = "success" := by
  simp [settlesFeed, Gathering.State.Feeds, Round.crowd, and_assoc, or_assoc]

theorem fedUsers_crowd (db : Db) (row : RoastReservation) :
    fedUsers db row = ((db.round row).crowd.roster.filter fun m =>
      (db.round row).crowd.Eligible m).map (·.user) := by
  unfold fedUsers
  rw [(Round.crowd_frame _).2.2.2.2.2.2, List.filter_map, List.map_map]
  show (List.filter _ _).map (fun member : RoastReservationParticipant => member.userId) =
    (List.filter _ _).map (fun member : RoastReservationParticipant => member.userId)
  congr 1
  refine List.filter_congr fun member _ => ?_
  exact Bool.eq_iff_iff.mpr ((feedEligible_iff (db.round row) member).trans
    decide_eq_true_iff.symm)

/-- A user the settlement feeds is an eligible member of the round. -/
theorem mem_fedUsers {userId : String} (h : userId ∈ fedUsers db row) :
    ∃ m ∈ (db.round row).crowd.roster, m.user = userId ∧ (db.round row).crowd.Eligible m := by
  rw [fedUsers_crowd] at h
  obtain ⟨m, hm, rfl⟩ := List.mem_map.mp h
  obtain ⟨hroster, heligible⟩ := List.mem_filter.mp hm
  exact ⟨m, hroster, rfl, of_decide_eq_true heligible⟩

theorem fedUsers_raised (req : RoastReservationOutcomeRequest) :
    fedUsers (raiseSuccessCount row req db) row = fedUsers db row := by
  simp [fedUsers, Db.members]

/-- The users the first result lists. -/
theorem storeOutcome_names (e : Env) (req : RoastReservationOutcomeRequest)
    (row : RoastReservation) (db : Db) :
    ((storeOutcome e req row db).1.dailyFeedResults.getD []).map (·.userId) =
      if settlesFeed row req = true then fedUsers db row else [] := by
  unfold storeOutcome
  by_cases hsettles : settlesFeed row req = true
  · simp only [hsettles, if_true, Option.getD_some]
    rw [settleFeeds_names, fedUsers_raised]
  · simp only [hsettles]
    rfl

/-- A success whose feeds are settled lists whom the crowd feeds. -/
theorem storeOutcome_fed (e : Env) {req : RoastReservationOutcomeRequest}
    (row : RoastReservation) (db : Db) (hsettle : req.settleDailyFeed = true)
    (hsuccess : req.outcomeSnapshot.eventType = "success") :
    ((storeOutcome e req row db).1.dailyFeedResults.getD []).map (·.userId) =
      (db.round row).crowd.fed := by
  have hiff : settlesFeed row req = true ↔ (db.round row).crowd.Feeds :=
    (settlesFeed_iff (db.round row)).trans
      ⟨fun h => h.2.1, fun h => ⟨hsettle, h, hsuccess⟩⟩
  rw [storeOutcome_names, fedUsers_crowd]
  unfold Gathering.State.fed
  by_cases hfeeds : (db.round row).crowd.Feeds
  · rw [if_pos (hiff.mpr hfeeds), if_pos hfeeds]
  · rw [if_neg (fun h => hfeeds (hiff.mp h)), if_neg hfeeds]

/-! ### The feeds a transaction writes -/

/-- A feed the first result of a round may write. -/
structure Settles (db : Db) (req : RoastReservationOutcomeRequest) (row : RoastReservation)
    (feed : UserDailyFeed) : Prop where
  settles : settlesFeed row req = true
  date : feed.dateStr = row.dateStr
  user : feed.userId ∈ fedUsers db row
  kind : feed.sourceType = .reservation
  source : feed.sourceId = row.reservationId
  rolled : Rolled db.dailyRolls row.dateStr feed.userId feed.pigId

theorem storeOutcome_feeds (e : Env) (req : RoastReservationOutcomeRequest)
    (row : RoastReservation) (db : Db) :
    Tables.Grows (Settles db req row) db.userDailyFeeds
      (storeOutcome e req row db).2.userDailyFeeds := by
  unfold storeOutcome
  by_cases hsettles : settlesFeed row req = true
  · simp only [hsettles, if_true]
    have hraised : (raiseSuccessCount row req db).userDailyFeeds = db.userDailyFeeds := by simp
    have hfeeds := settleFeeds_feeds e row (raiseSuccessCount row req db)
    rw [hraised] at hfeeds
    refine hfeeds.mono ?_
    rintro feed ⟨hdate, huser, hkind, hsource, hrolled⟩
    exact ⟨hsettles, hdate, by rwa [fedUsers_raised] at huser, hkind, hsource,
      by simpa using hrolled⟩
  · simp only [hsettles]
    exact .of_eq (by simp)

/-- The request holds the token of a round that has no result yet. -/
structure Fresh (db : Db) (req : RoastReservationOutcomeRequest) (row : RoastReservation) : Prop where
  leased : leasedRow db req.reservationId req.claimToken
    [.processing, .prepared, .sending, .completed] = some row
  unsettled : row.outcomeSnapshot = none
  processing : row.status = .processing

/-- The feeds a request may write. -/
def Request.feeds (db : Db) : Request → UserDailyFeed → Prop
  | .createEvent _, feed =>
      feed.sourceType = .roast ∧ Rolled db.dailyRolls feed.dateStr feed.userId feed.pigId
  | .prepareOutcome req, feed =>
      ∃ row, Fresh db req row ∧ Settles db req row feed
  | _, _ => False

theorem createEvent_feeds (e : Env) (req : EventCreateRequest) (db : Db) :
    Tables.Grows ((Request.createEvent req).feeds db) db.userDailyFeeds
      (createEvent e req db).2.userDailyFeeds := by
  unfold createEvent
  dsimp only
  generalize hrecord : recordRoastEventWithStatus e
    { req with dateStr := some (req.dateStr.getD (rollpigToday e.now)) } none db = recorded
  have hrolls : recorded.2.dailyRolls = db.dailyRolls := by simp [← hrecord]
  have hfeeds : recorded.2.userDailyFeeds = db.userDailyFeeds := by simp [← hrecord]
  rw [← hfeeds]
  split_ifs
  · refine (applyDailyFeed_feeds e _ _ _ _ _).mono ?_
    rintro feed ⟨hdate, huser, hkind, -, hrolled⟩
    rw [hrolls] at hrolled
    exact ⟨hkind, by rw [hdate, huser]; exact hrolled⟩
  · exact .refl

theorem prepareOutcomeOnce_feeds (e : Env) (req : RoastReservationOutcomeRequest) (db : Db) :
    Tables.Grows ((Request.prepareOutcome req).feeds db) db.userDailyFeeds
      (prepareOutcomeOnce e req db).2.userDailyFeeds := by
  rcases prepareOutcomeOnce_cases e req db with
    heq | ⟨row, hleased, ⟨hnone, hstatus, heq⟩ | ⟨-, heq⟩⟩
  · rw [heq]
    exact .refl
  · have hstored := storeOutcome_feeds e req row db
    have hanswer : (prepareOutcomeOnce e req db).2.userDailyFeeds =
        (storeOutcome e req row db).2.userDailyFeeds := by
      rw [heq]
      simp
    rw [hanswer]
    exact hstored.mono fun feed hfeed => ⟨row, ⟨hleased, hnone, hstatus⟩, hfeed⟩
  · rw [heq]
    exact .of_eq (by simp)

/-- **Feeds are written by roasts and first results only.** -/
theorem Request.transaction_feeds (e : Env) (view : List DailyRoll) (db : Db) (r : Request) :
    Tables.Grows (r.feeds db) db.userDailyFeeds (r.transaction e view db).db.userDailyFeeds := by
  cases r with
  | getOrCreate req =>
      have hsame : (getOrCreateDailyRoll e req db).2.userDailyFeeds = db.userDailyFeeds := by
        unfold getOrCreateDailyRoll
        split
        · split_ifs <;> simp
        · simp [createDailyRoll]
      simp only [Request.transaction]
      split <;> exact .of_eq (by simp_all)
  | makeup req =>
      simp only [Request.transaction]
      split
      · exact .refl
      · rename_i hmakeup
        exact .of_eq (makeupDailyRoll_frame hmakeup).2.2
  | snapshot req =>
      simp only [Request.transaction]
      split
      · exact .refl
      · rename_i hsnapshot
        exact .of_eq (completeDailyRollSnapshot_frame hsnapshot).2.2
  | createEvent req => exact createEvent_feeds e req db
  | consumeForce req =>
      simp only [Request.transaction]
      split
      · exact .refl
      · rename_i hforced
        have hframe := consumeForceUsage_some hforced
        unfold OnlyUsage at hframe
        exact .of_eq (by rw [hframe])
  | grant req =>
      simp only [Request.transaction]
      split
      · exact .refl
      · rename_i hgrant
        exact .of_eq (grantProtection_frame hgrant).2.2.2
  | joinByMessage req =>
      simp only [Request.transaction]
      split
      · exact .refl
      · rename_i hjoin
        exact .of_eq (joinByMessage_frame hjoin).2.2.2
  | prepare req =>
      simp only [Request.transaction]
      split
      · exact .refl
      · rename_i hprepare
        exact .of_eq (prepareReservation_cases hprepare).frame.2.2.2.1
  | prepareOutcome req => exact prepareOutcomeOnce_feeds e req db
  | _ => exact .of_eq (by simp [Request.transaction])

/-- The feeds an action may write. -/
def Action.feeds (db : Db) : Action → UserDailyFeed → Prop
  | .request r _, feed => r.feeds db feed
  | .reconcile _, _ => False

theorem step_feeds (hstep : service.step w event w') :
    Tables.Grows (event.action.feeds w.db) w.db.userDailyFeeds w'.db.userDailyFeeds := by
  obtain ⟨-, -, -, rfl⟩ := hstep
  show Tables.Grows _ _ (event.action.transaction event.env w.db).db.userDailyFeeds
  cases event.action with
  | request r view => exact r.transaction_feeds event.env view w.db
  | reconcile flight =>
      refine .of_eq ?_
      cases flight <;> simp [Action.transaction, Flight.transaction]

/-- The feed comes from this reservation. -/
def UserDailyFeed.From (feed : UserDailyFeed) (reservationId : String) : Prop :=
  feed.sourceType = .reservation ∧ feed.sourceId = reservationId

/-- A new feed from a reservation is written by the settlement of its round. -/
theorem feed_settles (hstep : service.step w event w') {feed : UserDailyFeed}
    (hfeed : feed ∈ w'.db.userDailyFeeds) {id : String} (hfrom : feed.From id) :
    feed ∈ w.db.userDailyFeeds ∨ ∃ req view, event.action = .request (.prepareOutcome req) view ∧
      ∃ row, row.reservationId = id ∧ Fresh w.db req row ∧ Settles w.db req row feed := by
  rcases (step_feeds hstep).mem hfeed with hold | hnew
  · exact Or.inl hold
  · cases haction : event.action with
    | reconcile flight =>
        rw [haction] at hnew
        exact hnew.elim
    | request r view =>
        rw [haction] at hnew
        cases r with
        | createEvent req => exact absurd (hnew.1.symm.trans hfrom.1) (by simp)
        | prepareOutcome req =>
            obtain ⟨row, hfresh, hsettles⟩ := hnew
            exact Or.inr ⟨req, view, rfl, row, hsettles.source.symm.trans hfrom.2, hfresh, hsettles⟩
        | _ => exact hnew.elim

/-! ### The settled round -/

theorem prepareOutcomeOnce_fresh (e : Env) {req : RoastReservationOutcomeRequest}
    (h : Fresh db req row) :
    prepareOutcomeOnce e req db =
      answer (markPrepared (storeOutcome e req row db).1) (storeOutcome e req row db).2 := by
  unfold prepareOutcomeOnce
  simp only [h.leased, h.unsettled, h.processing, ne_eq, not_true, if_false]

/-- The settlement stores the result of its round. -/
theorem prepareOutcomeOnce_stores (e : Env) {req : RoastReservationOutcomeRequest}
    (h : Fresh db req row) :
    ∃ row' ∈ (prepareOutcomeOnce e req db).2.reservations, row'.key = row.key ∧
      row'.outcomeSnapshot = some req.outcomeSnapshot ∧
      row'.dailyFeedResults = (storeOutcome e req row db).1.dailyFeedResults := by
  have hstored : markPrepared (storeOutcome e req row db).1 =
      { (storeOutcome e req row db).1 with status := .prepared } :=
    markPrepared_processing (by exact h.processing)
  refine ⟨markPrepared (storeOutcome e req row db).1, ?_, ?_, ?_, ?_⟩
  · rw [prepareOutcomeOnce_fresh e h]
    refine Tables.mem_writeBack_of_mem (by simp [Tables.Unique]) (List.mem_singleton.mpr rfl)
      (r := row) ?_ ?_
    · simpa using (leasedRow_some h.leased).1
    · simp [storeOutcome]
  · rw [hstored]
    rfl
  · rw [hstored]
    rfl
  · rw [hstored]

theorem settled_row (hstep : service.step w event w') {req : RoastReservationOutcomeRequest}
    {view : List DailyRoll} (haction : event.action = .request (.prepareOutcome req) view)
    (h : Fresh w.db req row) :
    ∃ row' ∈ w'.db.reservations, row'.key = row.key ∧
      row'.outcomeSnapshot = some req.outcomeSnapshot ∧
      row'.dailyFeedResults = (storeOutcome event.env req row w.db).1.dailyFeedResults := by
  obtain ⟨-, -, -, rfl⟩ := hstep
  have hdb : (w.after event.env event.action).db = (prepareOutcomeOnce event.env req w.db).2 := by
    show (event.action.transaction event.env w.db).db = _
    rw [haction]
    rfl
  rw [hdb]
  exact prepareOutcomeOnce_stores event.env h

/-- Feeds come from rounds that have their result, and bear the date of the round. -/
def World.FeedsSettled (w : World) : Prop :=
  ∀ feed ∈ w.db.userDailyFeeds, feed.sourceType = .reservation →
    ∃ row ∈ w.db.reservations, row.reservationId = feed.sourceId ∧
      row.dateStr = feed.dateStr ∧ row.outcomeSnapshot.isSome = true

theorem feedsSettled_of_reachable (h : Reachable service w) : w.FeedsSettled := by
  refine Reachable.invariant (I := World.FeedsSettled) ?_ ?_ h
  · intro w hinit
    obtain rfl : w = {} := hinit
    simp [World.FeedsSettled]
  · intro w event w' hreach hsettled hstep feed hfeed hkind
    have hsound := sound_of_reachable hreach
    rcases feed_settles hstep hfeed ⟨hkind, rfl⟩ with
      hold | ⟨req, view, haction, row, hid, hfresh, hsettles⟩
    · obtain ⟨row, hrow, hid, hdate, hresult⟩ := hsettled feed hold hkind
      obtain ⟨row', hrow', hid', hsteps⟩ := hsound.step_round_forward hstep hrow
      obtain ⟨snapshot, hresult⟩ := Option.isSome_iff_exists.mp hresult
      refine ⟨row', hrow', hid'.symm.trans hid, ?_, ?_⟩
      · exact (key_eq.mp hsteps.key).2.1.trans hdate
      · have hkept : row'.outcomeSnapshot = some snapshot := (hsteps.result hresult).1
        rw [hkept]
        rfl
    · obtain ⟨row', hrow', hkey, hsnapshot, -⟩ := settled_row hstep haction hfresh
      obtain ⟨hid', hdate, -⟩ := key_eq.mp hkey
      refine ⟨row', hrow', hid'.trans hid, hdate.trans hsettles.date.symm, ?_⟩
      rw [hsnapshot]
      rfl

end RollPig
