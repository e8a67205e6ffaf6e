/-
The service before and after the backfill.

A run of drawing, making up, looking up and feeding, started in a database and in what the
backfill makes of it, gives the same answers.  The two databases are alike, every request
keeps them so, and `Transition.answers_eq` is the rest.
-/
import RollPig.Proofs.Alike
import RollPig.Proofs.Catalog

namespace RollPig

open Transition

variable {s t db : Db} {e : Env} {userId pigId : String}

/-! ### The collection of a user -/

/-- `setdefault` for rows of distinct keys adds those the dictionary lacks. -/
theorem foldl_setDefault {α β : Type} (key : α → String) (value : α → β) {rows : List α}
    (hrows : Tables.Unique key rows) (dict : List (String × β)) :
    rows.foldl (fun dict row => setDefault dict (key row) (value row)) dict =
      dict ++ (rows.filter fun row => key row ∉ dict.map Prod.fst).map
        fun row => (key row, value row) := by
  induction rows generalizing dict with
  | nil => simp
  | cons row rest ih =>
      obtain ⟨hnew, hrest⟩ := List.nodup_cons.mp hrows
      rw [List.foldl_cons]
      by_cases hknown : key row ∈ dict.map Prod.fst
      · have hstep : setDefault dict (key row) (value row) = dict := if_pos hknown
        rw [hstep, ih hrest, List.filter_cons_of_neg (by simpa using hknown)]
      · have hstep : setDefault dict (key row) (value row) = dict ++ [(key row, value row)] :=
          if_neg hknown
        have hsame : (rest.filter fun r =>
            key r ∉ (dict ++ [(key row, value row)]).map Prod.fst) =
            rest.filter fun r => key r ∉ dict.map Prod.fst := by
          refine List.filter_congr fun r hr => ?_
          have hne : key r ≠ key row := fun hkey => hnew (hkey ▸ List.mem_map_of_mem hr)
          simp [hne]
        rw [hstep, ih hrest, hsame, List.filter_cons_of_pos (by simpa using hknown),
          List.append_assoc]
        rfl

/-- The rows of one user have different pigs. -/
theorem unique_pigs {α : Type} {user pig : α → String} {rows : List α}
    (h : Tables.Unique (fun row => (user row, pig row)) rows) (userId : String) :
    Tables.Unique pig (rows.filter fun row => user row = userId) := by
  refine h.part fun row row' hrow hrow' hpig => Prod.ext ?_ hpig
  exact (of_decide_eq_true hrow).trans (of_decide_eq_true hrow').symm

theorem unique_collected (h : Tables.Unique collectionKey db.collections) (userId : String) :
    Tables.Unique (·.pigId) (db.collections.filter fun row => row.userId = userId) :=
  unique_pigs h userId

theorem unique_counted (h : Tables.Unique progressKey db.userPigProgress) (userId : String) :
    Tables.Unique (·.pigId) (db.userPigProgress.filter fun row => row.userId = userId) :=
  unique_pigs h userId

/-- What a user owns, as the draw state shows it. -/
def progressItem (row : UserPigProgress) : PigProgressItem :=
  { copies := row.copies, growthBonus := max 0 row.growthBonus,
    firstObtainedAt := some row.firstObtainedAt }

/-- The pigs of a user that are counted. -/
def countedPigs (db : Db) (userId : String) : List (String × PigProgressItem) :=
  (db.userPigProgress.filter fun row => row.userId = userId).map fun row =>
    (row.pigId, progressItem row)

theorem pigProgress_eq (h : Tables.Unique collectionKey db.collections) (userId : String) :
    pigProgress db userId = countedPigs db userId ++
      ((db.collections.filter fun row => row.userId = userId).filter fun row =>
        row.pigId ∉ (countedPigs db userId).map Prod.fst).map fun row =>
          (row.pigId, progressItem (startingProgress row)) :=
  foldl_setDefault (fun row : Collection => row.pigId)
    (fun row => progressItem (startingProgress row)) (unique_collected h userId) (countedPigs db userId)

theorem mem_countedPigs (h : Tables.Unique progressKey db.userPigProgress)
    {item : PigProgressItem} :
    (pigId, item) ∈ countedPigs db userId ↔
      ∃ row, getProgress db userId pigId = some row ∧ progressItem row = item := by
  constructor
  · intro hmem
    obtain ⟨row, hrow, hitem⟩ := List.mem_map.mp hmem
    obtain ⟨hrow, huser⟩ := List.mem_filter.mp hrow
    have huser : row.userId = userId := by simpa using huser
    obtain ⟨rfl, rfl⟩ := Prod.mk.inj hitem
    refine ⟨row, ?_, rfl⟩
    rw [getProgress_eq_lookup, ← huser]
    exact h.lookup hrow
  · rintro ⟨row, hrow, rfl⟩
    obtain ⟨hmem, hkey⟩ := getProgress_some hrow
    obtain ⟨huser, hpig⟩ := Prod.mk.inj hkey
    exact List.mem_map.mpr ⟨row, List.mem_filter.mpr ⟨hmem, by simpa using huser⟩, by rw [hpig]⟩

theorem mem_keys_countedPigs (h : Tables.Unique progressKey db.userPigProgress) :
    pigId ∈ (countedPigs db userId).map Prod.fst ↔ (getProgress db userId pigId).isSome := by
  rw [List.mem_map, Option.isSome_iff_exists]
  constructor
  · rintro ⟨⟨pig, item⟩, hmem, rfl⟩
    obtain ⟨row, hrow, -⟩ := (mem_countedPigs h).mp hmem
    exact ⟨row, hrow⟩
  · rintro ⟨row, hrow⟩
    exact ⟨(pigId, progressItem row), (mem_countedPigs h).mpr ⟨row, hrow, rfl⟩, rfl⟩

/-- **The dictionary has what the user owns.** -/
theorem mem_pigProgress (hcollections : Tables.Unique collectionKey db.collections)
    (hprogress : Tables.Unique progressKey db.userPigProgress) {item : PigProgressItem} :
    (pigId, item) ∈ pigProgress db userId ↔
      ∃ row, ownedProgress db userId pigId = some row ∧ progressItem row = item := by
  rw [pigProgress_eq hcollections, List.mem_append, mem_countedPigs hprogress]
  cases hfound : getProgress db userId pigId with
  | some row =>
      rw [ownedProgress_counted hfound]
      refine ⟨?_, Or.inl⟩
      rintro (hcounted | hcollected)
      · exact hcounted
      · obtain ⟨collection, hmem, hitem⟩ := List.mem_map.mp hcollected
        obtain ⟨rfl, rfl⟩ := Prod.mk.inj hitem
        have hfree := (List.mem_filter.mp hmem).2
        simp [mem_keys_countedPigs hprogress, hfound] at hfree
  | none =>
      rw [ownedProgress_uncounted hfound]
      constructor
      · rintro (⟨row, hrow, -⟩ | hcollected)
        · cases hrow
        · obtain ⟨collection, hmem, hitem⟩ := List.mem_map.mp hcollected
          obtain ⟨rfl, rfl⟩ := Prod.mk.inj hitem
          obtain ⟨hmem, huser⟩ := List.mem_filter.mp (List.mem_filter.mp hmem).1
          have huser : collection.userId = userId := by simpa using huser
          have hlookup : getCollection db userId collection.pigId = some collection := by
            rw [getCollection_eq_lookup, ← huser]
            exact hcollections.lookup hmem
          exact ⟨startingProgress collection, by rw [hlookup]; rfl, rfl⟩
      · rintro ⟨row, hrow, rfl⟩
        obtain ⟨collection, hcollection, rfl⟩ := Option.map_eq_some_iff.mp hrow
        rw [getCollection_eq_lookup] at hcollection
        obtain ⟨hmem, hkey⟩ := Tables.lookup_some hcollection
        obtain ⟨huser, rfl⟩ := Prod.mk.inj hkey
        have hfree : collection.pigId ∉ (countedPigs db userId).map Prod.fst := by
          rw [mem_keys_countedPigs hprogress, hfound]
          simp
        refine Or.inr (List.mem_map.mpr ⟨collection, List.mem_filter.mpr ⟨?_, ?_⟩, rfl⟩)
        · exact List.mem_filter.mpr ⟨hmem, by simpa using huser⟩
        · simpa using hfree

theorem pigProgress_keys (hcollections : Tables.Unique collectionKey db.collections)
    (hprogress : Tables.Unique progressKey db.userPigProgress) (userId : String) :
    Tables.Unique Prod.fst (pigProgress db userId) := by
  have hcounted : Tables.Unique Prod.fst (countedPigs db userId) := by
    unfold Tables.Unique countedPigs
    rw [List.map_map]
    exact unique_counted hprogress userId
  have hcollected := (unique_collected hcollections userId).filter
    fun row => row.pigId ∉ (countedPigs db userId).map Prod.fst
  rw [pigProgress_eq hcollections]
  unfold Tables.Unique at *
  rw [List.map_append, List.map_map, List.nodup_append]
  refine ⟨hcounted, hcollected, ?_⟩
  rintro pig hpig pig' hpig' rfl
  obtain ⟨collection, hmem, rfl⟩ := List.mem_map.mp hpig'
  have hfree := (List.mem_filter.mp hmem).2
  exact absurd hpig (by simpa using hfree)

/-- Sorted by a key no two members share, a list depends on its members only. -/
theorem insertionSort_of_perm {β : Type} {l l' : List (String × β)} (hkeys : Tables.Unique Prod.fst l)
    (hperm : l.Perm l') :
    (l.insertionSort fun a b => a.1 ≤ b.1) = l'.insertionSort fun a b => a.1 ≤ b.1 := by
  have htotal : Std.Total fun a b : String × β => a.1 ≤ b.1 := ⟨fun a b => String.le_total a.1 b.1⟩
  have htrans : IsTrans (String × β) fun a b => a.1 ≤ b.1 := ⟨fun _ _ _ => String.le_trans⟩
  refine List.Perm.eq_of_pairwise ?_ (List.pairwise_insertionSort _ _)
    (List.pairwise_insertionSort _ _)
    ((List.perm_insertionSort _ l).trans (hperm.trans (List.perm_insertionSort _ l').symm))
  intro a b ha hb hab hba
  rw [List.mem_insertionSort] at ha hb
  exact hkeys.eq ha (hperm.mem_iff.mpr hb) (String.le_antisymm hab hba)

namespace Alike

theorem right_collections (h : Alike s t) : t.collections = s.collections :=
  h.reads (·.collections) fun _ _ _ => rfl

theorem drawStateResponse (h : Alike s t) (userId : String) :
    buildDrawStateResponse s userId = buildDrawStateResponse t userId := by
  have hcollections : Tables.Unique collectionKey t.collections := by
    rw [h.right_collections]
    exact h.collections
  have hkeys := pigProgress_keys h.collections h.left userId
  have hperm : (pigProgress s userId).Perm (pigProgress t userId) := by
    refine (List.perm_ext_iff_of_nodup (List.Nodup.of_map _ hkeys)
      (List.Nodup.of_map _ (pigProgress_keys hcollections h.right userId))).mpr ?_
    rintro ⟨pig, item⟩
    rw [mem_pigProgress h.collections h.left, mem_pigProgress hcollections h.right, h.owned]
  have hstreak := h.streak_cases userId
  unfold buildDrawStateResponse
  dsimp only
  rw [insertionSort_of_perm hkeys hperm]
  generalize getDrawState s userId = drawState at hstreak ⊢
  generalize getDrawState t userId = drawState' at hstreak ⊢
  rcases hstreak with rfl | ⟨rfl, rfl⟩ | ⟨rfl, rfl⟩ <;> rfl

theorem catalogSnapshot (h : Alike s t) (listText : List String → String) (e : Env)
    (userId : String) (days : Int) :
    getCatalogSnapshot listText e userId days s = getCatalogSnapshot listText e userId days t := by
  have hdrawState := h.drawStateResponse userId
  obtain ⟨_, _, hrest⟩ := h.rest
  unfold getCatalogSnapshot roastWindow
  dsimp only
  rw [← hdrawState, hrest]
  rfl

end Alike

/-! ### Feeding -/

/-- The progress a feed starts from: an arrived pig counts as one copy. -/
def feedStart (e : Env) (userId pigId : String) (owned : Option UserPigProgress) :
    UserPigProgress :=
  owned.getD { userId, pigId, copies := 1, growthBonus := 0, firstObtainedAt := e.now }

/-- The first feed of a day, of a pig that was owned so. -/
def firstFeed (e : Env) (date : Date) (userId pigId : String) (sourceType : FeedSource)
    (sourceId : String) (start : UserPigProgress) (db : Db) : DailyFeedResult × Db :=
  let previousLevel := expertLevel start.copies start.growthBonus
  if maxExpertLevel ≤ previousLevel then
    ({ status := .maxLevel, userId, pigId, previousLevel, newLevel := previousLevel, sourceType,
       sourceId }, db)
  else
    let growthBonus := max 0 start.growthBonus + 1
    let newLevel := expertLevel start.copies growthBonus
    let feedRow : UserDailyFeed :=
      { dateStr := date, userId, pigId, sourceType, sourceId, previousLevel, newLevel,
        createdAt := e.dbNow }
    let fed := db.regrow
      (Tables.upsert progressKey { start with growthBonus } db.userPigProgress) db.userDrawState
    ({ status := .fed, userId, pigId, previousLevel, newLevel, sourceType, sourceId,
       createdAt := some e.dbNow },
     { fed with userDailyFeeds := fed.userDailyFeeds ++ [feedRow] })

theorem applyDailyFeed_first (e : Env) {date : Date} {roll : DailyRoll} (sourceType : FeedSource)
    (sourceId : String) (hroll : (db.dailyRoll? date userId).filter (!·.isMakeup) = some roll)
    (hfeed : (db.userDailyFeeds.find? fun row => row.dateStr = date ∧ row.userId = userId) = none) :
    applyDailyFeed e date userId sourceType sourceId db =
      firstFeed e date userId roll.pigId sourceType sourceId
        (feedStart e userId roll.pigId (ownedProgress db userId roll.pigId)) db := by
  unfold applyDailyFeed
  rw [hroll]
  dsimp only
  rw [hfeed]
  dsimp only
  cases hfound : getProgress db userId roll.pigId with
  | some row =>
      have hmem : progressKey row ∈ db.userPigProgress.map progressKey :=
        List.mem_map_of_mem (getProgress_some hfound).1
      rw [ownedProgress_counted hfound]
      unfold firstFeed feedStart
      dsimp only [Option.getD_some]
      split_ifs with hmax
      · rfl
      · have hwrite : Tables.upsert progressKey
            { row with growthBonus := max 0 row.growthBonus + 1 } db.userPigProgress =
            Tables.writeBack progressKey [{ row with growthBonus := max 0 row.growthBonus + 1 }]
              db.userPigProgress := if_pos hmem
        rw [hwrite]
        rfl
  | none =>
      have hnew := getProgress_none hfound
      -- one copy is never the highest level, so the new row is fed at once
      have hlow : ¬ maxExpertLevel ≤ expertLevel 1 0 := by decide
      -- the row is inserted and then rewritten with its first bonus
      have hwrite : ∀ firstObtainedAt : Time, Tables.writeBack progressKey
          [{ userId, pigId := roll.pigId, growthBonus := max 0 0 + 1, firstObtainedAt }]
          (db.userPigProgress ++ [{ userId, pigId := roll.pigId, firstObtainedAt }]) =
          Tables.upsert progressKey
            { userId, pigId := roll.pigId, growthBonus := max 0 0 + 1, firstObtainedAt }
            db.userPigProgress := fun _ => Tables.writeBack_inserted rfl hnew
      rw [ownedProgress_uncounted hfound]
      unfold firstFeed feedStart
      cases hcollection : getCollection db userId roll.pigId with
      | some collection =>
          rw [Option.map_some, startingProgress_key hcollection, Option.getD_some]
          dsimp only
          rw [if_neg hlow, if_neg hlow, ← hwrite]
          rfl
      | none =>
          rw [Option.map_none, Option.getD_none]
          dsimp only
          rw [if_neg hlow, if_neg hlow, ← hwrite]
          rfl

theorem insertFeed_ungrown (result : DailyFeedResult) (feed : UserDailyFeed) :
    Ungrown fun db => (result, { db with userDailyFeeds := db.userDailyFeeds ++ [feed] }) := by
  intro db progress drawState
  exact ⟨rfl, rfl⟩

theorem firstFeed_keeps (e : Env) (date : Date) (userId pigId : String) (sourceType : FeedSource)
    (sourceId : String) (start : UserPigProgress) :
    Keeps Alike (firstFeed e date userId pigId sourceType sourceId start) := by
  intro s t h
  unfold firstFeed
  dsimp only
  split_ifs with hmax
  · exact ⟨rfl, h⟩
  · exact (insertFeed_ungrown _ _).keeps _ _ (h.progress _)

theorem applyDailyFeed_keeps (e : Env) (date : Date) (userId : String) (sourceType : FeedSource)
    (sourceId : String) : Keeps Alike (applyDailyFeed e date userId sourceType sourceId) := by
  intro s t h
  have hrolls := h.reads (fun db => db.dailyRoll? date userId) fun _ _ _ => rfl
  have hfeeds := h.reads (·.userDailyFeeds) fun _ _ _ => rfl
  cases hroll : (s.dailyRoll? date userId).filter (!·.isMakeup) with
  | none =>
      have hroll' := hroll
      rw [← hrolls] at hroll'
      unfold applyDailyFeed
      rw [hroll, hroll']
      exact ⟨rfl, h⟩
  | some roll =>
      have hroll' := hroll
      rw [← hrolls] at hroll'
      cases hfeed : s.userDailyFeeds.find? fun row => row.dateStr = date ∧ row.userId = userId with
      | some existing =>
          unfold applyDailyFeed
          rw [hroll, hroll', hfeeds]
          dsimp only
          rw [hfeed]
          exact ⟨rfl, h⟩
      | none =>
          have hfeed' := hfeed
          rw [← hfeeds] at hfeed'
          rw [applyDailyFeed_first e sourceType sourceId hroll hfeed,
            applyDailyFeed_first e sourceType sourceId hroll' hfeed', h.owned]
          exact firstFeed_keeps e date userId roll.pigId sourceType sourceId _ s t h

theorem feedUsers_keeps (e : Env) (date : Date) (sourceId : String) (userIds : List String) :
    Keeps Alike (feedUsers e date sourceId userIds) := by
  induction userIds with
  | nil => exact Keeps.ret (fun _ => []) fun _ _ _ => rfl
  | cons userId rest ih =>
      exact (applyDailyFeed_keeps e date userId .reservation sourceId).bind fun result =>
        ih.map fun results => (userId, result) :: results

theorem settleFeeds_keeps (e : Env) (row : RoastReservation) :
    Keeps Alike (settleFeeds e row) := by
  intro s t h
  have hmembers := h.reads (fun db => db.members row.reservationId) fun _ _ _ => rfl
  unfold settleFeeds
  dsimp only
  rw [hmembers]
  exact ((feedUsers_keeps e row.dateStr row.reservationId _).map fun results =>
    (((s.members row.reservationId).filter (feedEligible row)).map (·.userId)).filterMap
      fun userId => results.lookup userId) s t h

/-! ### The requests -/

theorem storeOutcome_keeps (e : Env) (req : RoastReservationOutcomeRequest)
    (row : RoastReservation) : Keeps Alike (storeOutcome e req row) := by
  have hsettle : Keeps Alike fun db =>
      if settlesFeed row req then settleFeeds e row db else ([], db) := by
    intro s t h
    dsimp only
    split_ifs with hfeeds
    · exact settleFeeds_keeps e row s t h
    · exact ⟨rfl, h⟩
  exact (raiseSuccessCount_ungrown row req).keeps.bind fun _ => hsettle.map fun results =>
    { row with outcomeSnapshot := some req.outcomeSnapshot, dailyFeedResults := some results }

theorem prepareOutcomeOnce_keeps (e : Env) (req : RoastReservationOutcomeRequest) :
    Keeps Alike (prepareOutcomeOnce e req) := by
  intro s t h
  have hleased := h.reads (fun db => leasedRow db req.reservationId req.claimToken
    [.processing, .prepared, .sending, .completed]) fun _ _ _ => rfl
  unfold prepareOutcomeOnce
  rw [hleased]
  cases leasedRow s req.reservationId req.claimToken
      [.processing, .prepared, .sending, .completed] with
  | none => exact ⟨rfl, h⟩
  | some row =>
      dsimp only
      cases row.outcomeSnapshot with
      | none =>
          dsimp only
          split_ifs with hstatus
          · exact ⟨rfl, h⟩
          · exact (storeOutcome_keeps e req row).bind
              (fun row => (answer_ungrown (markPrepared row)).keeps) s t h
      | some snapshot =>
          dsimp only
          split_ifs with hsame
          · exact ⟨rfl, h⟩
          · exact (answer_ungrown (markPrepared row)).keeps s t h

theorem createEvent_keeps (e : Env) (req : EventCreateRequest) :
    Keeps Alike (createEvent e req) := by
  have hfeed := (applyDailyFeed_keeps e (req.dateStr.getD (rollpigToday e.now)) req.attackerId
    .roast req.sourceId).map fun result =>
      ({ dailyFeedResult := some result } : EventCreateResponse)
  intro s t h
  obtain ⟨-, hrecorded⟩ := (recordRoastEventWithStatus_ungrown e
    { req with dateStr := some (req.dateStr.getD (rollpigToday e.now)) } none).keeps s t h
  unfold createEvent
  dsimp only
  split_ifs with hfeeds
  · exact hfeed _ _ hrecorded
  · exact ⟨rfl, hrecorded⟩

theorem getOrCreateDailyRoll_keeps (e : Env) (req : DailyRollGetOrCreateRequest) :
    Keeps Alike (getOrCreateDailyRoll e req) := by
  intro s t h
  have hroll := h.reads (fun db => db.dailyRoll? req.dateStr req.userId) fun _ _ _ => rfl
  unfold getOrCreateDailyRoll
  rw [hroll]
  cases s.dailyRoll? req.dateStr req.userId with
  | some existing =>
      dsimp only
      split_ifs with hmakeup
      · exact ⟨by rw [h.lookup], h⟩
      · exact ⟨rfl, ((ensureGroupRoll_ungrown e req.groupId req.userId existing.pigId
          req.dateStr).keeps s t h).2⟩
  | none =>
      exact ((createDailyRoll_keeps e _).bind fun created =>
        (ensureGroupRoll_ungrown e req.groupId req.userId req.proposedPigId req.dateStr).keeps.bind
          fun _ => (activateTargetReservations_ungrown e req.dateStr req.userId
            req.proposedPigId).keeps.map fun _ =>
              (Sum.inr { roll := created, created := true } :
                DailyRollLookupResponse ⊕ RollInFlight)) s t h

/-- A lookup answers alike databases alike. -/
theorem lookup_keeps (roll : Option DailyRoll) (created : Bool) :
    Keeps Alike fun db => (buildLookupResponse db roll created, db) :=
  Keeps.ret (fun db => buildLookupResponse db roll created) fun _ _ h => h.lookup roll created

theorem reconcileReservationsAfterCommit_keeps (e : Env) (flight : RollInFlight) :
    Keeps Alike (reconcileReservationsAfterCommit e flight) :=
  (activateTargetReservations_ungrown e flight.roll.dateStr flight.roll.userId
    flight.roll.pigId).keeps.bind fun _ => lookup_keeps (some flight.roll) flight.created

/-! ### Runs

A get-or-create is two transactions, and any other may run between them: its first is
answered with what is in flight, its second finishes it.
-/

/-- The transactions that read or write growth. -/
inductive GrowthCall
  | getOrCreate (req : DailyRollGetOrCreateRequest)
  | reconcile (flight : RollInFlight)
  | makeup (req : DailyRollGetOrCreateRequest)
  | byDate (userId : String) (date : Date)
  | drawState (userId : String)
  | createEvent (req : EventCreateRequest)
  | prepareOutcome (req : RoastReservationOutcomeRequest)
  | catalogSnapshot (userId : String) (days : Int)

inductive GrowthAnswer
  | rejected
  | inFlight (flight : RollInFlight)
  | lookup (response : DailyRollLookupResponse)
  | drawState (response : DrawStateResponse)
  | event (response : EventCreateResponse)
  | mutation (response : RoastReservationMutationResponse)
  | catalogSnapshot (response : CatalogSnapshotResponse)
deriving DecidableEq

/-- What a call in an environment answers, and what it leaves. -/
def GrowthCall.answer (listText : List String → String) (call : Env × GrowthCall) (db : Db) :
    GrowthAnswer × Db :=
  match call with
  | (e, .getOrCreate req) =>
      match getOrCreateDailyRoll e req db with
      | (.inl response, db) => (.lookup response, db)
      | (.inr flight, db) => (.inFlight flight, db)
  | (e, .reconcile flight) =>
      let (response, db) := reconcileReservationsAfterCommit e flight db
      (.lookup response, db)
  | (e, .makeup req) =>
      match makeupDailyRoll e req db with
      | none => (.rejected, db)
      | some (response, db) => (.lookup response, db)
  | (_, .byDate userId date) => (.lookup (getDailyRollByDate userId date db), db)
  | (_, .drawState userId) => (.drawState (buildDrawStateResponse db userId), db)
  | (e, .createEvent req) =>
      let (response, db) := RollPig.createEvent e req db
      (.event response, db)
  | (e, .prepareOutcome req) =>
      let (response, db) := prepareOutcomeOnce e req db
      (.mutation response, db)
  | (e, .catalogSnapshot userId days) =>
      (.catalogSnapshot (getCatalogSnapshot listText e userId days db), db)

theorem getOrCreate_keeps (listText : List String → String) (e : Env)
    (req : DailyRollGetOrCreateRequest) :
    Keeps Alike (GrowthCall.answer listText (e, .getOrCreate req)) := by
  intro s t h
  obtain ⟨hanswer, hnext⟩ := getOrCreateDailyRoll_keeps e req s t h
  unfold GrowthCall.answer
  dsimp only
  generalize getOrCreateDailyRoll e req s = result at hanswer hnext ⊢
  generalize getOrCreateDailyRoll e req t = result' at hanswer hnext ⊢
  obtain ⟨answer, left⟩ := result
  obtain ⟨answer', right⟩ := result'
  obtain rfl : answer = answer' := hanswer
  cases answer with
  | inl response => exact ⟨rfl, hnext⟩
  | inr flight => exact ⟨rfl, hnext⟩

theorem makeup_keeps (listText : List String → String) (e : Env)
    (req : DailyRollGetOrCreateRequest) :
    Keeps Alike (GrowthCall.answer listText (e, .makeup req)) := by
  intro s t h
  have hroll := h.reads (fun db => db.dailyRoll? req.dateStr req.userId) fun _ _ _ => rfl
  unfold GrowthCall.answer makeupDailyRoll
  dsimp only
  rw [hroll]
  by_cases hdate : req.dateStr ≠ rollpigToday e.now - 1
  · rw [if_pos hdate, if_pos hdate]
    exact ⟨rfl, h⟩
  · rw [if_neg hdate, if_neg hdate]
    cases s.dailyRoll? req.dateStr req.userId with
    | some existing =>
        dsimp only
        exact ⟨by rw [h.lookup], h⟩
    | none =>
        exact ((createDailyRoll_keeps e _).bind fun created =>
          (lookup_keeps (some created) true).map GrowthAnswer.lookup) s t h

/-- **No call tells alike databases apart.** -/
theorem GrowthCall.answer_keeps (listText : List String → String) (call : Env × GrowthCall) :
    Keeps Alike (GrowthCall.answer listText call) := by
  obtain ⟨e, call⟩ := call
  cases call with
  | getOrCreate req => exact getOrCreate_keeps listText e req
  | reconcile flight =>
      exact (reconcileReservationsAfterCommit_keeps e flight).map GrowthAnswer.lookup
  | makeup req => exact makeup_keeps listText e req
  | byDate userId date =>
      intro s t h
      have hroll := h.reads (fun db => db.dailyRoll? date userId) fun _ _ _ => rfl
      unfold GrowthCall.answer getDailyRollByDate
      dsimp only
      rw [hroll, h.lookup]
      exact ⟨rfl, h⟩
  | drawState userId =>
      exact (Keeps.ret (fun db => buildDrawStateResponse db userId)
        fun _ _ h => h.drawStateResponse userId).map GrowthAnswer.drawState
  | createEvent req => exact (createEvent_keeps e req).map GrowthAnswer.event
  | prepareOutcome req => exact (prepareOutcomeOnce_keeps e req).map GrowthAnswer.mutation
  | catalogSnapshot userId days =>
      exact (Keeps.ret (fun db => getCatalogSnapshot listText e userId days db)
        fun _ _ h => h.catalogSnapshot listText e userId days).map GrowthAnswer.catalogSnapshot

/-! ### The backfill writes the defaults down -/

theorem ownedProgress_eq_or (db : Db) (userId pigId : String) :
    ownedProgress db userId pigId = (getProgress db userId pigId).or
      (Tables.lookup progressKey (db.collections.map startingProgress) (userId, pigId)) := by
  have hstarting : Tables.lookup progressKey (db.collections.map startingProgress)
      (userId, pigId) = (getCollection db userId pigId).map startingProgress := by
    rw [getCollection_eq_lookup]
    exact List.find?_map
  rw [hstarting]
  unfold ownedProgress
  cases getProgress db userId pigId <;> rfl

/-- The draw states the backfill may add. -/
def startingDrawStates (db : Db) : List UserDrawState :=
  ((db.collections.map (·.userId)).dedup.insertionSort (· ≤ ·)).map fun userId => { userId }

/-- The progress nobody counted. -/
def missingProgress (db : Db) : List UserPigProgress :=
  Tables.missing progressKey db.userPigProgress (db.collections.map startingProgress)

/-- The draw states nobody wrote. -/
def missingDrawStates (db : Db) : List UserDrawState :=
  Tables.missing (·.userId) db.userDrawState (startingDrawStates db)

/-- What the backfill makes of a database. -/
def backfilled (db : Db) : Db :=
  db.regrow (db.userPigProgress ++ missingProgress db) (db.userDrawState ++ missingDrawStates db)

theorem startingProgress_unique (h : Tables.Unique collectionKey db.collections) :
    Tables.Unique progressKey (db.collections.map startingProgress) := by
  unfold Tables.Unique
  rw [List.map_map]
  exact h

theorem startingDrawStates_unique (db : Db) :
    Tables.Unique (·.userId) (startingDrawStates db) := by
  have hids := (List.perm_insertionSort (· ≤ ·) (db.collections.map (·.userId)).dedup).nodup_iff.mpr
    (List.nodup_dedup _)
  unfold Tables.Unique startingDrawStates
  rw [List.map_map]
  exact (List.map_id _).symm ▸ hids

/-- The keys of the growth tables. -/
structure Db.GrowthKeys (db : Db) : Prop where
  collections : Tables.Unique collectionKey db.collections
  progress : Tables.Unique progressKey db.userPigProgress
  drawState : Tables.Unique (·.userId) db.userDrawState

theorem backfillP1aProgress_eq (h : db.GrowthKeys) :
    backfillP1aProgress db =
      some ({ createdProgress := (missingProgress db).length
              createdDrawState := (missingDrawStates db).length }, backfilled db) := by
  have hprogress := Tables.Staged.foldlM_addMissing
    (t := { stored := db.userPigProgress }) h.progress startingProgress db.collections
  have hdrawState := Tables.Staged.foldlM_addMissing
    (t := { stored := db.userDrawState }) h.drawState (fun userId => { userId })
    ((db.collections.map (·.userId)).dedup.insertionSort (· ≤ ·))
  have hcounted := h.progress.missing (startingProgress_unique h.collections)
  have hdrawn := h.drawState.missing (startingDrawStates_unique db)
  refine Option.bind_eq_some_iff.mpr ⟨_, hprogress, Option.bind_eq_some_iff.mpr ⟨_, hdrawState,
    Option.bind_eq_some_iff.mpr ⟨_, if_pos hcounted, Option.bind_eq_some_iff.mpr
      ⟨_, if_pos hdrawn, ?_⟩⟩⟩⟩
  rfl

theorem backfilled_progress (db : Db) (userId pigId : String) :
    getProgress (backfilled db) userId pigId = (getProgress db userId pigId).or
      (Tables.lookup progressKey (db.collections.map startingProgress) (userId, pigId)) := by
  rw [getProgress_eq_lookup, getProgress_eq_lookup]
  exact Tables.lookup_missing db.userPigProgress (db.collections.map startingProgress) _

theorem backfilled_drawState (db : Db) (userId : String) :
    getDrawState (backfilled db) userId = (getDrawState db userId).or
      (Tables.lookup (fun row : UserDrawState => row.userId) (startingDrawStates db) userId) := by
  rw [getDrawState_eq_lookup, getDrawState_eq_lookup]
  exact Tables.lookup_missing db.userDrawState (startingDrawStates db) _

theorem backfilled_owned (db : Db) (userId pigId : String) :
    ownedProgress db userId pigId = ownedProgress (backfilled db) userId pigId := by
  have hcollections : (backfilled db).collections = db.collections := rfl
  rw [ownedProgress_eq_or, ownedProgress_eq_or, hcollections, backfilled_progress, Option.or_assoc,
    Option.or_self]

theorem backfilled_streak (db : Db) (userId : String) :
    duplicateStreak db userId = duplicateStreak (backfilled db) userId := by
  unfold duplicateStreak
  rw [backfilled_drawState]
  cases getDrawState db userId with
  | some row => rfl
  | none =>
      rw [Option.none_or]
      cases hfound : Tables.lookup (fun row : UserDrawState => row.userId)
          (startingDrawStates db) userId with
      | none => rfl
      | some row =>
          obtain ⟨user, -, rfl⟩ := List.mem_map.mp (Tables.lookup_some hfound).1
          rfl

/-- **What the backfill finds and what it leaves are alike.** -/
theorem backfilled_alike (h : db.GrowthKeys) : Alike db (backfilled db) where
  rest := ⟨_, _, rfl⟩
  owned := backfilled_owned db
  streak := backfilled_streak db
  collections := h.collections
  left := h.progress
  right := h.progress.missing (startingProgress_unique h.collections)

/-- A collected pig that nobody counted has one copy then. -/
theorem backfilled_collected (h : db.GrowthKeys) {entry : Collection}
    (hentry : entry ∈ db.collections) :
    getProgress (backfilled db) entry.userId entry.pigId =
      (getProgress db entry.userId entry.pigId).or (some (startingProgress entry)) := by
  rw [backfilled_progress]
  exact congrArg _
    ((startingProgress_unique h.collections).lookup (List.mem_map_of_mem hentry))

/-- A user with a collection has a draw state then. -/
theorem backfilled_drawn {entry : Collection} (hentry : entry ∈ db.collections) :
    getDrawState (backfilled db) entry.userId =
      (getDrawState db entry.userId).or (some { userId := entry.userId }) := by
  have hstate : ({ userId := entry.userId } : UserDrawState) ∈ startingDrawStates db := by
    refine List.mem_map.mpr ⟨entry.userId, (List.mem_insertionSort _).mpr ?_, rfl⟩
    exact List.mem_dedup.mpr (List.mem_map_of_mem hentry)
  rw [backfilled_drawState]
  exact congrArg _ ((startingDrawStates_unique db).lookup hstate)

/-- **The backfill goes unnoticed.**  It commits a progress row of one copy for every collected
pig without one and a fresh draw state for every collector without one, and nothing else; and
whatever is drawn, made up, looked up or fed afterwards is answered as if it had never run. -/
theorem backfilled_answers (listText : List String → String) {db : Db} (h : db.GrowthKeys) :
    ∃ report db', backfillP1aProgress db = some (report, db') ∧
      (∀ entry ∈ db.collections, getProgress db' entry.userId entry.pigId =
        (getProgress db entry.userId entry.pigId).or (some (startingProgress entry))) ∧
      (∀ entry ∈ db.collections, getDrawState db' entry.userId =
        (getDrawState db entry.userId).or (some { userId := entry.userId })) ∧
      (∃ progress drawState, db' = db.regrow progress drawState) ∧
      ∀ calls, answers (GrowthCall.answer listText) calls db =
        answers (GrowthCall.answer listText) calls db' :=
  ⟨_, _, backfillP1aProgress_eq h, fun _ => backfilled_collected h, fun _ => backfilled_drawn,
    ⟨_, _, rfl⟩, fun calls =>
      answers_eq (GrowthCall.answer_keeps listText) calls (backfilled_alike h)⟩

/-- Two users from before growth was counted, who drew again since. -/
def oldHerd : Db where
  collections :=
    [{ userId := "alice", pigId := "boar", firstSeenAt := 0 },
     { userId := "alice", pigId := "sow", firstSeenAt := 5 },
     { userId := "bob", pigId := "boar", firstSeenAt := 7 }]
  userPigProgress := [{ userId := "alice", pigId := "sow", copies := 2, firstObtainedAt := 5 }]
  userDrawState := [{ userId := "alice", duplicateStreak := 1 }]

theorem backfilled_answers_oldHerd :
    (backfillP1aProgress oldHerd).map (·.1) =
        some { createdProgress := 2, createdDrawState := 1 } ∧
      ∃ report db', backfillP1aProgress oldHerd = some (report, db') ∧
        (getProgress db' "bob" "boar").map (·.copies) = some 1 ∧
        (getDrawState db' "bob").map (·.duplicateStreak) = some 0 ∧
        ∀ calls, answers (GrowthCall.answer jsonList) calls oldHerd =
          answers (GrowthCall.answer jsonList) calls db' := by
  obtain ⟨report, db', hmade, hprogress, hdrawn, -, hanswers⟩ :=
    backfilled_answers jsonList
      (show oldHerd.GrowthKeys from ⟨by decide, by decide, by decide⟩)
  have hbob : ({ userId := "bob", pigId := "boar", firstSeenAt := 7 } : Collection) ∈
      oldHerd.collections := by decide
  refine ⟨by decide +kernel, report, db', hmade, ?_, ?_, hanswers⟩
  · exact (congrArg _ (hprogress _ hbob)).trans (by decide +kernel)
  · exact (congrArg _ (hdrawn _ hbob)).trans (by decide +kernel)

end RollPig
