/-
The moves of a transaction on the pigs of the users.

Rolls, collections, copies and feeds change in three ways only: a roll is drawn, the
appearance of a roll is completed, a user is fed.  `Grown` is a transaction as a sequence
of such moves, so that what holds of the four tables is shown move by move.
-/
import RollPig.Proofs.Feeding

namespace RollPig

open Transition

variable {e : Env} {db db₁ db₂ : Db} {fed : Date → String → Prop} {w w' : World} {event : Event}

/-- The four tables are the same. -/
def SameGrowth (db db' : Db) : Prop :=
  db'.dailyRolls = db.dailyRolls ∧ db'.collections = db.collections ∧
    db'.userPigProgress = db.userPigProgress ∧ db'.userDailyFeeds = db.userDailyFeeds

/-- The moves of a transaction that is to feed the users `fed`, each for a date.  One that
draws or completes a roll feeds nobody. -/
inductive Grown (e : Env) (fed : Date → String → Prop) (db : Db) : Db → Prop
  | refl : Grown e fed db db
  | same {db₁ db₂ : Db} (h : Grown e fed db db₁) (hsame : SameGrowth db₁ db₂) :
      Grown e fed db db₂
  | draw {db₁ : Db} (h : Grown e fed db db₁) (roll : DailyRoll)
      (hnone : db₁.dailyRoll? roll.dateStr roll.userId = none)
      (hquiet : ∀ date userId, ¬ fed date userId) : Grown e fed db (createDailyRoll e roll db₁).2
  | appear {db₁ : Db} (h : Grown e fed db db₁) (existing : DailyRoll)
      (hmem : existing ∈ db₁.dailyRolls) (version : Option String)
      (appearance : Option AppearanceSnapshot) (hquiet : ∀ date userId, ¬ fed date userId) :
      Grown e fed db (db₁.flushDailyRoll { existing with
        resourceVersion := version, appearanceSnapshot := appearance })
  | feed {db₁ : Db} (h : Grown e fed db db₁) (date : Date) (userId : String)
      (sourceType : FeedSource) (sourceId : String) (hfed : fed date userId) :
      Grown e fed db (applyDailyFeed e date userId sourceType sourceId db₁).2

theorem Grown.of_same (h : SameGrowth db db₁) : Grown e fed db db₁ := Grown.refl.same h

/-! ### The functions that move -/

theorem getOrCreateDailyRoll_grown (hquiet : ∀ date userId, ¬ fed date userId)
    (req : DailyRollGetOrCreateRequest) :
    Grown e fed db (getOrCreateDailyRoll e req db).2 := by
  unfold getOrCreateDailyRoll
  cases hroll : db.dailyRoll? req.dateStr req.userId with
  | some existing =>
      dsimp only
      split_ifs
      · exact .refl
      · exact .of_same (by simp [SameGrowth])
  | none =>
      have hcreated : Grown e fed db (createDailyRoll e
          { userId := req.userId, pigId := req.proposedPigId, dateStr := req.dateStr,
            createdAt := e.dbNow } db).2 := Grown.refl.draw _ hroll hquiet
      exact hcreated.same (by simp [SameGrowth])

theorem makeupDailyRoll_grown (hquiet : ∀ date userId, ¬ fed date userId)
    {req : DailyRollGetOrCreateRequest} {response : DailyRollLookupResponse}
    (hmakeup : makeupDailyRoll e req db = some (response, db₁)) : Grown e fed db db₁ := by
  rcases makeupDailyRoll_cases hmakeup with ⟨existing, -, -, rfl⟩ | ⟨hroll, -, rfl⟩
  · exact .refl
  · exact Grown.refl.draw _ hroll hquiet

theorem completeDailyRollSnapshot_grown (hquiet : ∀ date userId, ¬ fed date userId)
    {req : DailyRollSnapshotRequest} {response : DailyRollOutcomeSnapshot}
    (hcomplete : completeDailyRollSnapshot req db = .ok (response, db₁)) :
    Grown e fed db db₁ := by
  obtain ⟨existing, hroll, rfl | rfl⟩ := completeDailyRollSnapshot_ok hcomplete
  · exact .refl
  · exact Grown.refl.appear existing (dailyRoll?_some hroll).1 _ _ hquiet

theorem feedUsers_grown (date : Date) (sourceId : String) {userIds : List String} :
    ∀ {db₁ : Db}, (∀ userId ∈ userIds, fed date userId) → Grown e fed db db₁ →
      Grown e fed db (feedUsers e date sourceId userIds db₁).2 := by
  induction userIds with
  | nil => exact fun _ h => h
  | cons userId rest ih =>
      intro db₁ hfed h
      have hfirst := h.feed date userId .reservation sourceId (hfed userId List.mem_cons_self)
      exact ih (fun other hother => hfed other (List.mem_cons_of_mem _ hother)) hfirst

/-! ### Whom a request is to feed -/

/-- The request is to feed the user for the date: an ordinary success feeds its attacker,
the first result of a round those of its crowd who are eligible. -/
def Request.feedsUser (e : Env) (db : Db) : Request → Date → String → Prop
  | .createEvent req, date, userId =>
      (req.settleDailyFeed = true ∧ req.sourceId ≠ "" ∧ req.eventType = "success" ∧
          req.reservationId = "") ∧
        date = req.dateStr.getD (rollpigToday e.now) ∧ userId = req.attackerId
  | .prepareOutcome req, date, userId =>
      ∃ row, Fresh db req row ∧ settlesFeed row req = true ∧ date = row.dateStr ∧
        userId ∈ fedUsers db row
  | _, _, _ => False

theorem createEvent_grown (req : EventCreateRequest) :
    Grown e ((Request.createEvent req).feedsUser e db) db (createEvent e req db).2 := by
  unfold createEvent
  dsimp only
  generalize hrecord : recordRoastEventWithStatus e
    { req with dateStr := some (req.dateStr.getD (rollpigToday e.now)) } none db = recorded
  have hrecorded : Grown e ((Request.createEvent req).feedsUser e db) db recorded.2 := by
    rw [← hrecord]
    exact .of_same (by simp [SameGrowth])
  by_cases hsettles : req.settleDailyFeed ∧ req.sourceId ≠ "" ∧ req.eventType = "success" ∧
      req.reservationId = ""
  · simp only [if_pos hsettles]
    exact hrecorded.feed _ _ _ _ ⟨hsettles, rfl, rfl⟩
  · simp only [if_neg hsettles]
    exact hrecorded

theorem storeOutcome_grown {req : RoastReservationOutcomeRequest} {row : RoastReservation}
    (hfed : settlesFeed row req = true → ∀ userId ∈ fedUsers db row, fed row.dateStr userId) :
    Grown e fed db (storeOutcome e req row db).2 := by
  have hraised : Grown e fed db (raiseSuccessCount row req db) :=
    .of_same (by simp [SameGrowth])
  unfold storeOutcome
  by_cases hsettles : settlesFeed row req = true
  · simp only [hsettles, if_true]
    refine feedUsers_grown _ _ (fun userId huser => hfed hsettles userId ?_) hraised
    rw [← fedUsers_raised req]
    exact (List.mem_insertionSort _).mp huser
  · simp only [hsettles]
    exact hraised

theorem prepareOutcomeOnce_grown (req : RoastReservationOutcomeRequest) :
    Grown e ((Request.prepareOutcome req).feedsUser e db) db (prepareOutcomeOnce e req db).2 := by
  rcases prepareOutcomeOnce_cases e req db with
    heq | ⟨row, hleased, ⟨hnone, hstatus, heq⟩ | ⟨-, heq⟩⟩
  · rw [heq]
    exact .refl
  · have hstored : Grown e ((Request.prepareOutcome req).feedsUser e db) db
        (storeOutcome e req row db).2 := storeOutcome_grown fun hsettles userId huser =>
      ⟨row, ⟨hleased, hnone, hstatus⟩, hsettles, rfl, huser⟩
    rw [heq]
    exact hstored.same (by simp [SameGrowth])
  · rw [heq]
    exact .of_same (by simp [SameGrowth])

theorem consumeForceUsage_same {userId : String} {date : Date}
    (hforce : consumeForceUsage userId date db = some db₁) : SameGrowth db db₁ := by
  have hframe := consumeForceUsage_some hforce
  unfold OnlyUsage at hframe
  rw [hframe]
  exact ⟨rfl, rfl, rfl, rfl⟩

/-- **Every transaction is a sequence of moves**, and feeds only whom it is to feed. -/
theorem Request.transaction_grown (view : List DailyRoll) (r : Request) :
    Grown e (r.feedsUser e db) db (r.transaction e view db).db := by
  cases r with
  | getOrCreate req =>
      have hmoved : Grown e ((Request.getOrCreate req).feedsUser e db) db
          (getOrCreateDailyRoll e req db).2 := getOrCreateDailyRoll_grown (fun _ _ => not_false) req
      simp only [Request.transaction]
      split <;> simp_all
  | makeup req =>
      simp only [Request.transaction]
      split
      · exact .refl
      · rename_i hmakeup
        exact makeupDailyRoll_grown (fun _ _ => not_false) hmakeup
  | snapshot req =>
      simp only [Request.transaction]
      split
      · exact .refl
      · rename_i hsnapshot
        exact completeDailyRollSnapshot_grown (fun _ _ => not_false) hsnapshot
  | createEvent req => exact createEvent_grown req
  | consumeForce req =>
      simp only [Request.transaction]
      split
      · exact .refl
      · rename_i hforced
        exact .of_same (consumeForceUsage_same hforced)
  | grant req =>
      simp only [Request.transaction]
      split
      · exact .refl
      · rename_i hgrant
        exact .of_same (grantProtection_frame hgrant)
  | joinByMessage req =>
      simp only [Request.transaction]
      split
      · exact .refl
      · rename_i hjoin
        exact .of_same (joinByMessage_frame hjoin)
  | prepare req =>
      simp only [Request.transaction]
      split
      · exact .refl
      · rename_i hprepare
        obtain ⟨hrolls, hcollections, hprogress, hfeeds, -⟩ :=
          (prepareReservation_cases hprepare).frame
        exact .of_same ⟨hrolls, hcollections, hprogress, hfeeds⟩
  | prepareOutcome req => exact prepareOutcomeOnce_grown req
  | _ => exact .of_same (by simp [SameGrowth, Request.transaction])

/-- The action is to feed the user for the date. -/
def Event.feedsUser (event : Event) (db : Db) (date : Date) (userId : String) : Prop :=
  match event.action with
  | .request r _ => r.feedsUser event.env db date userId
  | .reconcile _ => False

theorem step_grown (hstep : service.step w event w') :
    Grown event.env (event.feedsUser w.db) w.db w'.db := by
  obtain ⟨-, -, -, rfl⟩ := hstep
  show Grown _ _ _ (event.action.transaction event.env w.db).db
  unfold Event.feedsUser
  cases event.action with
  | request r view => exact r.transaction_grown view
  | reconcile flight =>
      cases flight <;>
        exact .of_same (by simp [SameGrowth, Action.transaction, Flight.transaction])

end RollPig
