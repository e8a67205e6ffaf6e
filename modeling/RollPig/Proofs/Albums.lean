/-
What the album tells follows from the draws.

The collection, the copies and the streak are tables of their own, and every roll freezes what
they said when it was created.  In every run of the cloud all of it is what a reader of the
rolls would count: a pig is new if no earlier roll of the user brought it, the size is the
number of different pigs by then, and the streak the number of draws in a row that brought
nothing new.
-/
import RollPig.Albums
import RollPig.Routers.Collections
import RollPig.Proofs.Backfill
import RollPig.Proofs.Registered

namespace RollPig

open Transition

variable {e : Env} {db db' : Db} {roll : DailyRoll} {userId pigId : String}

/-! ### The draws of a user -/

/-- What a roll froze of the album. -/
structure Pull where
  userId : String
  pigId : String
  isNewPig : Option Bool
  collectionSizeAfterRoll : Option Int
  previousDuplicateStreak : Option Int
  duplicateStreakAfterRoll : Option Int

def DailyRoll.pull (roll : DailyRoll) : Pull :=
  { userId := roll.userId, pigId := roll.pigId, isNewPig := roll.isNewPig,
    collectionSizeAfterRoll := roll.collectionSizeAfterRoll,
    previousDuplicateStreak := roll.previousDuplicateStreak,
    duplicateStreakAfterRoll := roll.duplicateStreakAfterRoll }

/-- The pulls of a user, in the order they were made. -/
def pullsOf (pulls : List Pull) (userId : String) : List Pull :=
  pulls.filter fun pull => pull.userId = userId

def Db.pulls (db : Db) : List Pull := db.dailyRolls.map DailyRoll.pull

/-- The rolls of a user, in the order they were created. -/
def Db.rollsBy (db : Db) (userId : String) : List DailyRoll :=
  db.dailyRolls.filter fun roll => roll.userId = userId

/-- The pigs a user drew, in order. -/
def Db.pigsOf (db : Db) (userId : String) : List String :=
  (db.rollsBy userId).map (·.pigId)

theorem pullsOf_pulls (db : Db) (userId : String) :
    pullsOf db.pulls userId = (db.rollsBy userId).map DailyRoll.pull := by
  unfold pullsOf Db.pulls Db.rollsBy
  rw [List.filter_map]
  rfl

theorem pigsOf_pulls (db : Db) (userId : String) :
    db.pigsOf userId = (pullsOf db.pulls userId).map (·.pigId) := by
  rw [pullsOf_pulls, List.map_map]
  rfl

/-- The pull tells what the pigs drawn before it make of it. -/
structure Pull.Tells (before : List String) (pull : Pull) : Prop where
  new : pull.isNewPig = some (decide (pull.pigId ∉ before))
  size : pull.collectionSizeAfterRoll = some (Album.size (before ++ [pull.pigId]) : Int)
  previous : ∃ n : Nat, pull.previousDuplicateStreak = some (n : Int) ∧ Album.IsStreak before n
  streak : ∃ n : Nat, pull.duplicateStreakAfterRoll = some (n : Int) ∧
    Album.IsStreak (before ++ [pull.pigId]) n

/-- The tables of the album agree with the draws. -/
structure Db.AlbumKept (db : Db) : Prop where
  unique : Tables.Unique collectionKey db.collections
  collected : ∀ userId pigId,
    (userId, pigId) ∈ db.collections.map collectionKey ↔ pigId ∈ db.pigsOf userId
  streaks : ∀ userId, ∃ n : Nat, duplicateStreak db userId = (n : Int) ∧
    Album.IsStreak (db.pigsOf userId) n
  told : ∀ userId before pull after, pullsOf db.pulls userId = before ++ pull :: after →
    pull.Tells (before.map (·.pigId))

/-! ### One draw -/

/-- A user owns the pigs that were drawn. -/
theorem owned_isNone (hkept : db.growth.Kept) (h : db.AlbumKept) (userId pigId : String) :
    (ownedProgress db userId pigId).isNone = decide (pigId ∉ db.pigsOf userId) := by
  have hdrawn := getCollection_isSome.trans (h.collected userId pigId)
  have hcounted := getCollection_iff hkept userId pigId
  rw [Bool.eq_iff_iff, decide_eq_true_eq, ← hdrawn]
  cases hprogress : getProgress db userId pigId with
  | some row =>
      rw [ownedProgress_counted hprogress]
      simp [hcounted, hprogress]
  | none =>
      rw [ownedProgress_uncounted hprogress]
      cases getCollection db userId pigId <;> simp

/-- The pigs in the collection of a user. -/
theorem collection_length (hunique : Tables.Unique collectionKey db.collections)
    (hcollected : ∀ pigId,
      (userId, pigId) ∈ db.collections.map collectionKey ↔ pigId ∈ db.pigsOf userId) :
    (db.collections.filter fun row => row.userId = userId).length =
      Album.size (db.pigsOf userId) := by
  unfold Album.size
  rw [← List.length_map (f := (·.pigId)), ← List.toFinset_card_of_nodup
    (unique_collected hunique userId)]
  congr 1
  ext pigId
  rw [List.mem_toFinset, List.mem_toFinset, ← hcollected]
  simp [collectionKey, and_assoc, and_left_comm, and_comm]

theorem mem_ensureCollection (e : Env) (userId pigId : String) (db : Db) (k : String × String) :
    k ∈ (ensureCollection e userId pigId db).collections.map collectionKey ↔
      k ∈ db.collections.map collectionKey ∨ k = (userId, pigId) := by
  unfold ensureCollection
  cases hfound : getCollection db userId pigId with
  | none =>
      rw [List.map_append, List.mem_append]
      exact or_congr_right List.mem_singleton
  | some row =>
      refine ⟨Or.inl, ?_⟩
      rintro (hbefore | rfl)
      · exact hbefore
      · exact getCollection_isSome.mp (by rw [hfound]; rfl)

theorem createDailyRoll_collections (e : Env) (roll : DailyRoll) (db : Db) :
    (createDailyRoll e roll db).2.collections =
      (ensureCollection e roll.userId roll.pigId db).collections := by
  unfold createDailyRoll
  dsimp only
  rw [applyCreatedRollProgress_snd]
  rfl

theorem createDailyRoll_pulls (e : Env) (roll : DailyRoll) (db : Db) :
    (createDailyRoll e roll db).2.pulls = db.pulls ++ [(createDailyRoll e roll db).1.pull] := by
  obtain ⟨progress, hroll, hrolls⟩ := createDailyRoll_rolls e roll db
  unfold Db.pulls
  rw [hrolls, List.map_append, hroll]
  rfl

theorem pullsOf_concat (pulls : List Pull) (pull : Pull) (userId : String) :
    pullsOf (pulls ++ [pull]) userId =
      if pull.userId = userId then pullsOf pulls userId ++ [pull] else pullsOf pulls userId := by
  unfold pullsOf
  rw [List.filter_append]
  split_ifs with huser
  · rw [List.filter_cons_of_pos (by simpa using huser), List.filter_nil]
  · rw [List.filter_cons_of_neg (by simpa using huser), List.filter_nil, List.append_nil]

/-- A draw adds its pig to the pigs of its user. -/
theorem createDailyRoll_pigs (e : Env) (roll : DailyRoll) (db : Db) (userId : String) :
    (createDailyRoll e roll db).2.pigsOf userId =
      if roll.userId = userId then db.pigsOf userId ++ [roll.pigId] else db.pigsOf userId := by
  rw [pigsOf_pulls, pigsOf_pulls, createDailyRoll_pulls, pullsOf_concat]
  show List.map _ (if roll.userId = userId then _ else _) = _
  split_ifs
  · rw [List.map_append]
    rfl
  · rfl

/-- The streak after a draw. -/
theorem createDailyRoll_streak (e : Env) (roll : DailyRoll) (db : Db) (userId : String) :
    duplicateStreak (createDailyRoll e roll db).2 userId =
      if userId = roll.userId then
        nextStreak (ownedProgress db roll.userId roll.pigId) (duplicateStreak db roll.userId)
      else duplicateStreak db userId := by
  have hread : duplicateStreak (createDailyRoll e roll db).2 userId =
      duplicateStreak (applyCreatedRollProgress e roll.userId roll.pigId db).2 userId := rfl
  rw [hread, applyCreatedRollProgress_snd]
  exact duplicateStreak_upsert db
    { userId := roll.userId, duplicateStreak := nextStreak (ownedProgress db roll.userId roll.pigId)
        (duplicateStreak db roll.userId) }
    db.userPigProgress userId

/-- The streak a draw leaves is the streak of the draws. -/
theorem nextStreak_drawn (hkept : db.growth.Kept) (h : db.AlbumKept) {n : Nat}
    (hstreak : Album.IsStreak (db.pigsOf userId) n) (pigId : String) :
    ∃ m : Nat, nextStreak (ownedProgress db userId pigId) n = (m : Int) ∧
      Album.IsStreak (db.pigsOf userId ++ [pigId]) m := by
  unfold nextStreak
  rw [owned_isNone hkept h]
  by_cases hknown : pigId ∈ db.pigsOf userId
  · refine ⟨n + 1, ?_, hstreak.known hknown⟩
    simp [hknown]
  · refine ⟨0, ?_, Album.IsStreak.new hknown⟩
    simp [hknown]

/-- What a draw froze. -/
theorem createDailyRoll_tells (hkept : db.growth.Kept) (h : db.AlbumKept)
    (hsize : ((createDailyRoll e roll db).2.collections.filter fun row =>
      row.userId = roll.userId).length = Album.size (db.pigsOf roll.userId ++ [roll.pigId])) :
    (createDailyRoll e roll db).1.pull.Tells (db.pigsOf roll.userId) := by
  obtain ⟨n, hn, hstreak⟩ := h.streaks roll.userId
  obtain ⟨m, hm, hnext⟩ := nextStreak_drawn hkept h hstreak roll.pigId
  have hpull : (createDailyRoll e roll db).1.pull =
      { userId := roll.userId, pigId := roll.pigId
        isNewPig := some (decide (roll.pigId ∉ db.pigsOf roll.userId))
        collectionSizeAfterRoll := some (Album.size (db.pigsOf roll.userId ++ [roll.pigId]) : Int)
        previousDuplicateStreak := some (n : Int), duplicateStreakAfterRoll := some (m : Int) } := by
    rw [createDailyRoll_collections] at hsize
    have hprogress := applyCreatedRollProgress_fst e roll.userId roll.pigId db
    rw [hsize, hn] at hprogress
    unfold createDailyRoll
    dsimp only
    rw [hprogress]
    unfold createdProgress DailyRoll.pull DailyRoll.withProgress
    dsimp only
    rw [owned_isNone hkept h, hm]
  rw [hpull]
  exact ⟨rfl, rfl, ⟨n, rfl, hstreak⟩, m, rfl, hnext⟩

/-- **A draw keeps the album.** -/
theorem createDailyRoll_album (hkept : db.growth.Kept) (h : db.AlbumKept) :
    (createDailyRoll e roll db).2.AlbumKept := by
  have hpigs := createDailyRoll_pigs e roll db
  have hunique : Tables.Unique collectionKey (createDailyRoll e roll db).2.collections := by
    rw [createDailyRoll_collections]
    exact ensureCollection_unique e roll.userId roll.pigId h.unique
  have hcollected : ∀ userId pigId,
      (userId, pigId) ∈ (createDailyRoll e roll db).2.collections.map collectionKey ↔
        pigId ∈ (createDailyRoll e roll db).2.pigsOf userId := by
    intro userId pigId
    rw [createDailyRoll_collections, mem_ensureCollection, hpigs, h.collected, Prod.mk.injEq]
    by_cases huser : roll.userId = userId
    · subst huser
      simp
    · rw [if_neg huser]
      simp [Ne.symm huser]
  refine ⟨hunique, hcollected, fun userId => ?_, fun userId before pull after hsplit => ?_⟩
  · obtain ⟨n, hn, hstreak⟩ := h.streaks userId
    rw [createDailyRoll_streak, hpigs]
    by_cases huser : roll.userId = userId
    · subst huser
      rw [if_pos rfl, if_pos rfl, hn]
      exact nextStreak_drawn hkept h hstreak roll.pigId
    · rw [if_neg (Ne.symm huser), if_neg huser]
      exact ⟨n, hn, hstreak⟩
  · rw [createDailyRoll_pulls, pullsOf_concat] at hsplit
    have huserId : (createDailyRoll e roll db).1.pull.userId = roll.userId := rfl
    rw [huserId] at hsplit
    split_ifs at hsplit with huser
    · subst huser
      rcases List.eq_nil_or_concat after with rfl | ⟨rest, last, rfl⟩
      · -- the draw itself
        obtain ⟨rfl, hlast⟩ := List.append_inj' hsplit rfl
        obtain rfl := List.singleton_inj.mp hlast
        have hsize := collection_length hunique (hcollected roll.userId)
        rw [hpigs, if_pos rfl] at hsize
        rw [← pigsOf_pulls]
        exact createDailyRoll_tells hkept h hsize
      · rw [List.concat_eq_append, ← List.cons_append, ← List.append_assoc] at hsplit
        exact h.told roll.userId before pull rest (List.append_inj_left' hsplit rfl)
    · exact h.told userId before pull after hsplit

/-! ### Every step keeps the album -/

theorem Db.AlbumKept.same (h : db.AlbumKept) (hpulls : db'.pulls = db.pulls)
    (hcollections : db'.collections = db.collections)
    (hstates : db'.userDrawState = db.userDrawState) : db'.AlbumKept := by
  have hpigs : db'.pigsOf = db.pigsOf := by
    funext userId
    rw [pigsOf_pulls, pigsOf_pulls, hpulls]
  have hstreak : duplicateStreak db' = duplicateStreak db := by
    funext userId
    unfold duplicateStreak getDrawState
    rw [hstates]
  refine ⟨?_, ?_, ?_, ?_⟩
  · rw [hcollections]
    exact h.unique
  · rw [hcollections, hpigs]
    exact h.collected
  · rw [hstreak, hpigs]
    exact h.streaks
  · rw [hpulls]
    exact h.told

theorem Db.AlbumKept.writes {tables : List Table} (h : db.AlbumKept)
    (hwrites : db.Writes tables db')
    (hout : Table.dailyRolls ∉ tables ∧ Table.collections ∉ tables ∧
      Table.userDrawState ∉ tables) : db'.AlbumKept := by
  obtain ⟨hrolls, hcollections, hstates⟩ := hout
  refine h.same ?_ (hwrites .collections hcollections) (hwrites .userDrawState hstates)
  exact congrArg (List.map DailyRoll.pull) (hwrites .dailyRolls hrolls)

theorem Db.AlbumKept.empty : ({} : Db).AlbumKept where
  unique := List.nodup_nil
  collected _ _ := by simp [Db.pigsOf, Db.rollsBy]
  streaks _ := ⟨0, rfl, Album.IsStreak.empty⟩
  told _ before pull after hsplit := by simp [pullsOf, Db.pulls] at hsplit

/-- Completing an appearance changes no pull. -/
theorem flushDailyRoll_pulls (hkept : db.growth.Kept) {existing : DailyRoll}
    (hmem : existing ∈ db.dailyRolls) (version : Option String)
    (appearance : Option AppearanceSnapshot) :
    (db.flushDailyRoll { existing with
      resourceVersion := version, appearanceSnapshot := appearance }).pulls = db.pulls := by
  refine Tables.map_writeBack DailyRoll.pull fun changed hchanged old hold hkey => ?_
  obtain rfl := List.mem_singleton.mp hchanged
  have hdaily : Tables.Unique rollKey db.dailyRolls := by
    have hdraws := hkept.drawsDaily
    unfold Db.growth Tables.Unique at hdraws
    rw [List.map_map] at hdraws
    exact hdraws
  obtain rfl : existing = old := hdaily.eq hmem hold hkey
  rfl

theorem getOrCreateDailyRoll_album (hkept : db.growth.Kept) (h : db.AlbumKept)
    (req : DailyRollGetOrCreateRequest) : (getOrCreateDailyRoll e req db).2.AlbumKept := by
  unfold getOrCreateDailyRoll
  cases hroll : db.dailyRoll? req.dateStr req.userId with
  | some existing =>
      dsimp only
      split_ifs
      · exact h
      · exact h.writes (ensureGroupRoll_writes e _ _ _ _ db) (by decide)
  | none =>
      dsimp only
      refine Db.AlbumKept.writes ?_ (activateTargetReservations_writes e _ _ _ _ _) (by decide)
      refine Db.AlbumKept.writes ?_ (ensureGroupRoll_writes e _ _ _ _ _) (by decide)
      exact createDailyRoll_album hkept h

theorem makeupDailyRoll_album (hkept : db.growth.Kept) (h : db.AlbumKept)
    {req : DailyRollGetOrCreateRequest} {response : DailyRollLookupResponse}
    (hmakeup : makeupDailyRoll e req db = some (response, db')) : db'.AlbumKept := by
  rcases makeupDailyRoll_cases hmakeup with ⟨existing, -, -, rfl⟩ | ⟨-, -, rfl⟩
  · exact h
  · exact createDailyRoll_album hkept h

theorem completeDailyRollSnapshot_album (hkept : db.growth.Kept) (h : db.AlbumKept)
    {req : DailyRollSnapshotRequest} {response : DailyRollOutcomeSnapshot}
    (hcomplete : completeDailyRollSnapshot req db = .ok (response, db')) : db'.AlbumKept := by
  obtain ⟨existing, hroll, rfl | rfl⟩ := completeDailyRollSnapshot_ok hcomplete
  · exact h
  · exact h.same (flushDailyRoll_pulls hkept (dailyRoll?_some hroll).1 _ _) rfl rfl

/-- Every transaction keeps the album: three of them draw or complete a roll, and no other
writes its tables. -/
theorem Action.transaction_album (hkept : db.growth.Kept) (h : db.AlbumKept) (action : Action) :
    (action.transaction e db).db.AlbumKept := by
  cases action with
  | reconcile flight => exact h.writes (flight.transaction_writes e db) (by decide)
  | request r view =>
      cases r with
      | getOrCreate req =>
          have hdrawn := getOrCreateDailyRoll_album (e := e) hkept h req
          simp only [Action.transaction, Request.transaction]
          split <;> simp_all only
      | makeup req =>
          simp only [Action.transaction, Request.transaction]
          split
          · exact h
          · exact makeupDailyRoll_album hkept h (by assumption)
      | snapshot req =>
          simp only [Action.transaction, Request.transaction]
          split
          · exact h
          · exact completeDailyRollSnapshot_album hkept h (by assumption)
      | _ =>
          exact h.writes (Request.transaction_writes e view db _)
            (by simp [Request.written, roundTables])

variable {c c' : Cloud} {event : CloudEvent} {events : List CloudEvent}

/-- A step of the cloud keeps the growth and the album. -/
theorem cloud_album_step (hactive : c.world.db.ActiveOnce) (hkept : c.world.db.growth.Kept)
    (h : c.world.db.AlbumKept) (hstep : cloud.step c event c') :
    c'.world.db.growth.Kept ∧ c'.world.db.AlbumKept := by
  have hquiet : ∀ {tables : List Table} {db' : Db}, c.world.db.Writes tables db' →
      (Table.dailyRolls ∉ tables ∧ Table.collections ∉ tables ∧ Table.userDrawState ∉ tables) ∧
        Table.userPigProgress ∉ tables ∧ Table.userDailyFeeds ∉ tables →
      db'.growth.Kept ∧ db'.AlbumKept := by
    intro tables db' hwrites hout
    refine ⟨hkept.of_same ⟨?_, ?_, ?_, ?_⟩, h.writes hwrites hout.1⟩
    · exact hwrites .dailyRolls hout.1.1
    · exact hwrites .collections hout.1.2.1
    · exact hwrites .userPigProgress hout.2.1
    · exact hwrites .userDailyFeeds hout.2.2
  cases event with
  | api operation =>
      obtain ⟨hapi, -⟩ := hstep
      cases operation with
      | transaction event =>
          have hgrown := (step_grown hapi).kept hkept
          obtain ⟨-, -, -, hafter⟩ := hapi
          refine ⟨hgrown, ?_⟩
          rw [hafter]
          exact Action.transaction_album hkept h event.action
      | markSeen e req =>
          have hseen : c'.world = c.world.seen e req := hapi
          rw [hseen]
          exact hquiet (markSeen_writes e req c.world.db) (by decide)
  | markActive e date groupId userIds =>
      obtain rfl : c' = c.put (RoastRefills.markActiveUsers e date groupId userIds c.store).2 :=
        hstep
      exact hquiet (markGroupActiveUsers_writes e date groupId userIds c.world.db) (by decide)
  | refill e request response =>
      obtain ⟨-, rfl⟩ := hstep
      have honly : OnlyUsage c.world.db (request.transaction e c.store).2.db :=
        RefillRequest.transaction_onlyUsage hactive request
      exact hquiet honly.writes (by decide)

theorem cloud_album (hrun : Run cloud {} events c) :
    c.world.db.growth.Kept ∧ c.world.db.AlbumKept := by
  induction hrun with
  | nil =>
      refine ⟨?_, Db.AlbumKept.empty⟩
      constructor <;> simp [Db.growth, Tables.Unique, Tables.Counts, Tables.Numbered]
  | snoc hrun hstep ih => exact cloud_album_step (cloud_sound hrun).active ih.1 ih.2 hstep

/-! ### What is answered -/

/-- An entry of the draw state is a progress row. -/
theorem mem_pigProgress_iff (hkept : db.growth.Kept) (h : db.AlbumKept)
    {entry : String × PigProgressItem} : entry ∈ pigProgress db userId ↔
      ∃ row, getProgress db userId entry.1 = some row ∧ progressItem row = entry.2 := by
  rw [show entry = (entry.1, entry.2) from rfl, mem_pigProgress h.unique hkept.progressKeys]
  cases hprogress : getProgress db userId entry.1 with
  | some row => rw [ownedProgress_counted hprogress]
  | none =>
      have hcollection := getCollection_iff hkept userId entry.1
      rw [hprogress, ← not_iff_not] at hcollection
      rw [ownedProgress_uncounted hprogress,
        Option.not_isSome_iff_eq_none.mp (hcollection.mpr (by simp))]
      rfl

/-- A user has one entry for every pig drawn. -/
theorem pigProgress_pigs (hkept : db.growth.Kept) (h : db.AlbumKept) (pigId : String) :
    pigId ∈ (pigProgress db userId).map Prod.fst ↔ pigId ∈ db.pigsOf userId := by
  rw [← h.collected, ← getCollection_isSome, getCollection_iff hkept]
  constructor
  · intro hmem
    obtain ⟨entry, hentry, rfl⟩ := List.mem_map.mp hmem
    obtain ⟨row, hrow, -⟩ := (mem_pigProgress_iff hkept h).mp hentry
    rw [hrow]
    rfl
  · intro hcounted
    obtain ⟨row, hrow⟩ := Option.isSome_iff_exists.mp hcounted
    exact List.mem_map.mpr ⟨(pigId, progressItem row),
      (mem_pigProgress_iff hkept h).mpr ⟨row, hrow, rfl⟩, rfl⟩

/-- What an entry of the draw state counts. -/
theorem pigProgress_counts (hkept : db.growth.Kept) (h : db.AlbumKept)
    {entry : String × PigProgressItem} (hentry : entry ∈ pigProgress db userId) :
    entry.2.copies = ((db.pigsOf userId).count entry.1 : Int) ∧
      entry.2.growthBonus = ((feedsOf db userId entry.1).length : Int) := by
  obtain ⟨row, hrow, hitem⟩ := (mem_pigProgress_iff hkept h).mp hentry
  have hcopies := copiesOf_eq hkept userId entry.1
  have hbonus := growthBonusOf_eq hkept userId entry.1
  unfold copiesOf at hcopies
  unfold growthBonusOf at hbonus
  rw [hrow] at hcopies hbonus
  have hcount : (db.pigsOf userId).count entry.1 = (rollsOf db userId entry.1).length := by
    unfold Db.pigsOf Db.rollsBy rollsOf
    rw [List.count_eq_countP, List.countP_map, List.countP_eq_length_filter, List.filter_filter]
    congr 1
    refine List.filter_congr fun roll _ => ?_
    rw [Bool.eq_iff_iff]
    simp [and_comm]
  rw [← hitem, hcount]
  refine ⟨hcopies, ?_⟩
  show max 0 row.growthBonus = _
  rw [show row.growthBonus = _ from hbonus]
  exact max_eq_right (Int.natCast_nonneg _)

/-- A sorted list without repetition is the set of its elements, sorted. -/
theorem eq_sort {pigs drawn : List String} (hnodup : pigs.Nodup) (hsorted : pigs.Pairwise (· ≤ ·))
    (hmem : ∀ pigId, pigId ∈ pigs ↔ pigId ∈ drawn) : pigs = drawn.toFinset.sort := by
  rw [← (List.toFinset_sort (· ≤ ·) hnodup).mpr hsorted]
  congr 1
  ext pigId
  rw [List.mem_toFinset, List.mem_toFinset, hmem]

/-- **What the album tells follows from the draws.**  In every run of the cloud and for every
user: each roll froze whether an earlier roll of the user brought its pig, how many different
pigs the user had by then, and for how many draws in a row nothing new had come; the collection
and the draw state list the different pigs that were drawn, in order; every pig has as many
copies as it was drawn, and has grown as often as it was fed; and the streak shown is the one
of all draws so far. -/
theorem album_tells_draws (hrun : Run cloud {} events c) (userId : String) :
    (∀ before roll after, c.world.db.rollsBy userId = before ++ roll :: after →
      roll.pull.Tells (before.map (·.pigId))) ∧
    Collections.getCollection userId c.world.db = (c.world.db.pigsOf userId).toFinset.sort ∧
    (buildDrawStateResponse c.world.db userId).pigIds =
      (c.world.db.pigsOf userId).toFinset.sort ∧
    (∀ entry ∈ (buildDrawStateResponse c.world.db userId).progress,
      entry.2.copies = ((c.world.db.pigsOf userId).count entry.1 : Int) ∧
        entry.2.growthBonus = ((feedsOf c.world.db userId entry.1).length : Int)) ∧
    ∃ n : Nat, (buildDrawStateResponse c.world.db userId).duplicateStreak = (n : Int) ∧
      Album.IsStreak (c.world.db.pigsOf userId) n := by
  obtain ⟨hkept, h⟩ := cloud_album hrun
  refine ⟨?_, ?_, ?_, ?_, h.streaks userId⟩
  · intro before roll after hsplit
    have htold := h.told userId (before.map DailyRoll.pull) roll.pull (after.map DailyRoll.pull) (by
      rw [pullsOf_pulls, hsplit, List.map_append, List.map_cons])
    rwa [List.map_map] at htold
  · refine eq_sort (((List.perm_insertionSort _ _).nodup_iff).mpr (List.nodup_dedup _))
      (List.pairwise_insertionSort _ _) fun pigId => ?_
    unfold Collections.getCollection
    rw [List.mem_insertionSort, List.mem_dedup, ← h.collected]
    simp [collectionKey, and_assoc, and_left_comm, and_comm]
  · have hnodup := pigProgress_keys h.unique hkept.progressKeys userId
    have hsorted : (buildDrawStateResponse c.world.db userId).pigIds =
        ((pigProgress c.world.db userId).map Prod.fst).insertionSort (· ≤ ·) :=
      List.map_insertionSort _ _ _ _ fun _ _ _ _ => Iff.rfl
    rw [hsorted]
    refine eq_sort (((List.perm_insertionSort _ _).nodup_iff).mpr hnodup)
      (List.pairwise_insertionSort _ _) fun pigId => ?_
    rw [List.mem_insertionSort, pigProgress_pigs hkept h]
  · intro entry hentry
    exact pigProgress_counts hkept h ((List.mem_insertionSort _).mp hentry)

/-- A run of the service is a run of the cloud, whatever the refills are. -/
theorem service_cloud_from {w w' : World} {serviceEvents : List Event}
    (requests : List GroupRoastRefillRequest) (hrun : Run service w serviceEvents w') :
    Run cloud { world := w, requests } (serviceEvents.map fun event => .api (.transaction event))
      { world := w', requests } := by
  induction hrun with
  | nil => exact Run.nil
  | snoc _ hstep ih =>
      rw [List.map_append]
      exact Run.snoc ih ⟨hstep, rfl⟩

theorem service_cloud {w : World} {serviceEvents : List Event}
    (hrun : Run service {} serviceEvents w) :
    Run cloud {} (serviceEvents.map fun event => .api (.transaction event)) { world := w } :=
  service_cloud_from [] hrun

/-- The second boar of user 1 is not new, and nothing new has come for one draw. -/
theorem album_tells_draws_boars :
    Collections.getCollection "1" (scriptWorld growthScript).db = ["boar"] ∧
      ∃ roll ∈ (scriptWorld growthScript).db.dailyRolls, roll.isNewPig = some false ∧
        ∃ n : Nat, roll.duplicateStreakAfterRoll = some (n : Int) ∧
          Album.IsStreak ["boar", "boar"] n := by
  have hrun := service_cloud (script_run
    (show (play 0 {} growthScript).isSome = true by decide +kernel))
  obtain ⟨htold, hcollection, -⟩ := album_tells_draws hrun "1"
  have hpigs : (scriptWorld growthScript).db.pigsOf "1" = ["boar", "boar"] := by decide +kernel
  obtain ⟨first, rest, hrolls, hfirst, hrest⟩ := List.map_eq_cons_iff.mp hpigs
  obtain ⟨second, none, rfl, hsecond, hnone⟩ := List.map_eq_cons_iff.mp hrest
  obtain rfl := List.map_eq_nil_iff.mp hnone
  have htells := htold [first] second [] hrolls
  have hmem : second ∈ (scriptWorld growthScript).db.rollsBy "1" := by
    rw [hrolls]
    simp
  obtain ⟨n, hn, hstreak⟩ := htells.streak
  refine ⟨?_, second, (List.mem_filter.mp hmem).1, ?_, n, hn, ?_⟩
  · rw [hcollection, hpigs]
    decide +kernel
  · rw [show second.isNewPig = some _ from htells.new]
    simp [hfirst, hsecond, DailyRoll.pull]
  · simpa [hfirst, hsecond, DailyRoll.pull] using hstreak

end RollPig
