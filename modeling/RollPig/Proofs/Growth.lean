/-
No growth is lost and none is doubled.

Of the four tables that record growth, the rolls and the feeds are logs, and the copies
and bonuses of `user_pig_progress` count their entries.  `Growth.Kept` says so; every
transaction is a sequence of the three steps of `Growth.Step`, a first draw, a repeated
draw and a feed, and each of them writes one entry and raises one counter.
-/
import RollPig.Proofs.Growing

namespace RollPig

open Transition

/-! ### The tables of growth -/

/-- What counts of a roll; its appearance may be completed later. -/
structure Draw where
  date : Date
  userId : String
  pigId : String
  previousCopies : Option Int
  copiesAfterRoll : Option Int

def DailyRoll.draw (roll : DailyRoll) : Draw :=
  { date := roll.dateStr, userId := roll.userId, pigId := roll.pigId,
    previousCopies := roll.previousCopies, copiesAfterRoll := roll.copiesAfterRoll }

structure Growth where
  draws : List Draw
  collections : List Collection
  progress : List UserPigProgress
  feeds : List UserDailyFeed

def Db.growth (db : Db) : Growth :=
  { draws := db.dailyRolls.map DailyRoll.draw, collections := db.collections,
    progress := db.userPigProgress, feeds := db.userDailyFeeds }

/-- The user and the pig a row is about. -/
def Draw.key (d : Draw) : String × String := (d.userId, d.pigId)

def collectionKey (row : Collection) : String × String := (row.userId, row.pigId)

def progressKey (row : UserPigProgress) : String × String := (row.userId, row.pigId)

def UserDailyFeed.key (feed : UserDailyFeed) : String × String := (feed.userId, feed.pigId)

/-- The user and the day a log entry is about. -/
def Draw.day (d : Draw) : Date × String := (d.date, d.userId)

def UserDailyFeed.day (feed : UserDailyFeed) : Date × String := (feed.dateStr, feed.userId)

/-- Growth is conserved. -/
structure Growth.Kept (g : Growth) : Prop where
  drawsDaily : Tables.Unique Draw.day g.draws
  feedsDaily : Tables.Unique UserDailyFeed.day g.feeds
  progressKeys : Tables.Unique progressKey g.progress
  collected : ∀ k, k ∈ g.collections.map collectionKey ↔ k ∈ g.progress.map progressKey
  drawn : ∀ d ∈ g.draws, d.key ∈ g.progress.map progressKey
  fed : ∀ feed ∈ g.feeds, feed.key ∈ g.progress.map progressKey
  copies : Tables.Counts progressKey (·.copies) Draw.key g.progress g.draws
  bonus : Tables.Counts progressKey (·.growthBonus) UserDailyFeed.key g.progress g.feeds
  numbered : ∀ k, Tables.Numbered Draw.previousCopies Draw.copiesAfterRoll
    (g.draws.filter fun d => d.key = k)
  levels : ∀ feed ∈ g.feeds, feed.newLevel = feed.previousLevel + 1 ∧ feed.newLevel ≤ maxExpertLevel

/-- One draw, of a pig that is new to the user or known, or one feed. -/
inductive Growth.Step (g : Growth) : Growth → Prop
  | first (d : Draw) (collection : Collection) (row : UserPigProgress)
      (hday : ∀ old ∈ g.draws, old.day ≠ d.day) (hnew : d.key ∉ g.progress.map progressKey)
      (hcollection : collectionKey collection = d.key) (hrow : progressKey row = d.key)
      (hcopies : row.copies = 1) (hbonus : row.growthBonus = 0)
      (hbefore : d.previousCopies = some 0) (hafter : d.copiesAfterRoll = some 1) :
      Step g { g with
        draws := g.draws ++ [d], collections := g.collections ++ [collection]
        progress := g.progress ++ [row] }
  | again (d : Draw) (row row' : UserPigProgress) (hday : ∀ old ∈ g.draws, old.day ≠ d.day)
      (hmem : row ∈ g.progress) (hkey : d.key = progressKey row)
      (hrow : progressKey row' = progressKey row) (hcopies : row'.copies = row.copies + 1)
      (hbonus : row'.growthBonus = row.growthBonus)
      (hbefore : d.previousCopies = some row.copies)
      (hafter : d.copiesAfterRoll = some (row.copies + 1)) :
      Step g { g with
        draws := g.draws ++ [d], progress := Tables.writeBack progressKey [row'] g.progress }
  | feed (feed : UserDailyFeed) (row row' : UserPigProgress)
      (hday : ∀ old ∈ g.feeds, old.day ≠ feed.day) (hmem : row ∈ g.progress)
      (hkey : feed.key = progressKey row) (hrow : progressKey row' = progressKey row)
      (hcopies : row'.copies = row.copies) (hbonus : row'.growthBonus = row.growthBonus + 1)
      (hlevels : feed.newLevel = feed.previousLevel + 1 ∧ feed.newLevel ≤ maxExpertLevel) :
      Step g { g with
        feeds := g.feeds ++ [feed], progress := Tables.writeBack progressKey [row'] g.progress }

/-! ### A step conserves growth -/

variable {g g' : Growth}

/-- The draws of a user and pig nobody counts are none. -/
theorem Growth.Kept.tally_zero (h : g.Kept) {k : String × String}
    (hk : k ∉ g.progress.map progressKey) : Tables.tally Draw.key g.draws k = 0 := by
  by_contra hne
  obtain ⟨d, hd, rfl⟩ := Tables.tally_pos.mp (Nat.pos_of_ne_zero hne)
  exact hk (h.drawn d hd)

theorem Growth.Kept.feeds_zero (h : g.Kept) {k : String × String}
    (hk : k ∉ g.progress.map progressKey) : Tables.tally UserDailyFeed.key g.feeds k = 0 := by
  by_contra hne
  obtain ⟨feed, hfeed, rfl⟩ := Tables.tally_pos.mp (Nat.pos_of_ne_zero hne)
  exact hk (h.fed feed hfeed)

/-- A new draw carries the next number of its kind. -/
theorem Growth.Kept.numbered_append (h : g.Kept) {d : Draw}
    (hbefore : d.previousCopies = some (Tables.tally Draw.key g.draws d.key : Int))
    (hafter : d.copiesAfterRoll = some ((Tables.tally Draw.key g.draws d.key : Int) + 1))
    (k : String × String) :
    Tables.Numbered Draw.previousCopies Draw.copiesAfterRoll
      ((g.draws ++ [d]).filter fun d => d.key = k) := by
  rw [List.filter_append]
  by_cases hk : d.key = k
  · subst hk
    have hlength : (g.draws.filter fun x => x.key = d.key).length =
        Tables.tally Draw.key g.draws d.key := by
      rw [Tables.tally, List.countP_eq_length_filter]
    have hsingle : [d].filter (fun x => x.key = d.key) = [d] := by simp
    rw [hsingle]
    refine (h.numbered d.key).append ?_ ?_
    · rw [hlength]; exact hbefore
    · rw [hlength]; exact hafter
  · have hnone : [d].filter (fun x => x.key = k) = [] := by simp [hk]
    rw [hnone, List.append_nil]
    exact h.numbered k

theorem Growth.Step.kept (hstep : g.Step g') (h : g.Kept) : g'.Kept := by
  cases hstep with
  | first d collection row hday hnew hcollection hrow hcopies hbonus hbefore hafter =>
      have hzero := h.tally_zero hnew
      have hfresh : ∀ r ∈ g.progress, progressKey r ≠ d.key :=
        fun r hr hkey => hnew (hkey ▸ List.mem_map_of_mem hr)
      refine ⟨h.drawsDaily.insert hday, h.feedsDaily, ?_, ?_, ?_, ?_, ?_, ?_, ?_, h.levels⟩
      · exact h.progressKeys.insert fun r hr => hrow ▸ hfresh r hr
      · intro k
        simp only [List.map_append, List.mem_append, List.map_singleton, List.mem_singleton,
          h.collected k, hcollection, hrow]
      · intro x hx
        rw [List.map_append, List.mem_append]
        rcases List.mem_append.mp hx with hold | hlast
        · exact Or.inl (h.drawn x hold)
        · obtain rfl := List.mem_singleton.mp hlast
          exact Or.inr (by simp [hrow])
      · intro feed hfeed
        rw [List.map_append, List.mem_append]
        exact Or.inl (h.fed feed hfeed)
      · refine (h.copies.log_append hfresh).append ?_
        rw [hcopies, Tables.tally_append, hrow, hzero, if_pos rfl]
        rfl
      · refine h.bonus.append ?_
        rw [hbonus, hrow, h.feeds_zero hnew]
        rfl
      · refine h.numbered_append ?_ ?_
        · rw [hzero]; exact hbefore
        · rw [hzero]; exact hafter
  | again d row row' hday hmem hkey hrow hcopies hbonus hbefore hafter =>
      have hcount := h.copies row hmem
      refine ⟨h.drawsDaily.insert hday, h.feedsDaily, h.progressKeys.writeBack, ?_, ?_, ?_, ?_, ?_,
        ?_, h.levels⟩
      · intro k
        rw [Tables.map_key_writeBack]
        exact h.collected k
      · intro x hx
        rw [Tables.map_key_writeBack]
        rcases List.mem_append.mp hx with hold | hlast
        · exact h.drawn x hold
        · obtain rfl := List.mem_singleton.mp hlast
          rw [hkey]
          exact List.mem_map_of_mem hmem
      · intro feed hfeed
        rw [Tables.map_key_writeBack]
        exact h.fed feed hfeed
      · exact h.copies.bump hmem hrow hcopies hkey
      · exact h.bonus.rewrite hmem hrow hbonus
      · refine h.numbered_append ?_ ?_
        · rw [hkey, ← hcount]; exact hbefore
        · rw [hkey, ← hcount]; exact hafter
  | feed feed row row' hday hmem hkey hrow hcopies hbonus hlevels =>
      refine ⟨h.drawsDaily, h.feedsDaily.insert hday, h.progressKeys.writeBack, ?_, ?_, ?_, ?_, ?_,
        h.numbered, ?_⟩
      · intro k
        rw [Tables.map_key_writeBack]
        exact h.collected k
      · intro x hx
        rw [Tables.map_key_writeBack]
        exact h.drawn x hx
      · intro x hx
        rw [Tables.map_key_writeBack]
        rcases List.mem_append.mp hx with hold | hlast
        · exact h.fed x hold
        · obtain rfl := List.mem_singleton.mp hlast
          rw [hkey]
          exact List.mem_map_of_mem hmem
      · exact h.copies.rewrite hmem hrow hcopies
      · exact h.bonus.bump hmem hrow hbonus hkey
      · intro x hx
        rcases List.mem_append.mp hx with hold | hlast
        · exact h.levels x hold
        · obtain rfl := List.mem_singleton.mp hlast
          exact hlevels

/-! ### Rolls and feeds are such steps -/

variable {e : Env} {db db' : Db}

theorem getProgress_none {userId pigId : String} (h : getProgress db userId pigId = none) :
    (userId, pigId) ∉ db.userPigProgress.map progressKey := by
  intro hmem
  obtain ⟨row, hrow, hkey⟩ := List.mem_map.mp hmem
  have hout := List.find?_eq_none.mp h row hrow
  simp only [progressKey, Prod.mk.injEq] at hkey
  simp [hkey] at hout

theorem getProgress_some {userId pigId : String} {row : UserPigProgress}
    (h : getProgress db userId pigId = some row) :
    row ∈ db.userPigProgress ∧ progressKey row = (userId, pigId) := by
  have hkey := List.find?_some h
  simp only [decide_eq_true_eq] at hkey
  exact ⟨List.mem_of_find?_eq_some h, Prod.ext hkey.1 hkey.2⟩

theorem getCollection_isSome {userId pigId : String} :
    (getCollection db userId pigId).isSome = true ↔
      (userId, pigId) ∈ db.collections.map collectionKey := by
  simp [getCollection, List.find?_isSome, collectionKey]

/-- Whoever has a pig on record has collected it. -/
theorem getCollection_iff (h : db.growth.Kept) (userId pigId : String) :
    (getCollection db userId pigId).isSome = true ↔
      (getProgress db userId pigId).isSome = true := by
  rw [getCollection_isSome]
  refine (h.collected (userId, pigId)).trans ?_
  simp [getProgress, List.find?_isSome, progressKey, Db.growth]

theorem createDailyRoll_step (h : db.growth.Kept) {roll : DailyRoll}
    (hnone : db.dailyRoll? roll.dateStr roll.userId = none) :
    db.growth.Step (createDailyRoll e roll db).2.growth := by
  have hday : ∀ old ∈ db.growth.draws, old.day ≠ (roll.dateStr, roll.userId) := by
    intro old hold hkey
    obtain ⟨r, hr, rfl⟩ := List.mem_map.mp hold
    exact dailyRoll?_none hnone r hr ⟨congrArg Prod.fst hkey, congrArg Prod.snd hkey⟩
  cases hprogress : getProgress db roll.userId roll.pigId with
  | none =>
      have hcollection : getCollection db roll.userId roll.pigId = none := by
        simpa [hprogress] using getCollection_iff h roll.userId roll.pigId
      have hgrowth : ∃ row : UserPigProgress, progressKey row = (roll.userId, roll.pigId) ∧
          row.copies = 1 ∧ row.growthBonus = 0 ∧
          (createDailyRoll e roll db).2.growth =
            { draws := db.growth.draws ++ [(createDailyRoll e roll db).1.draw]
              collections := db.growth.collections ++
                [{ userId := roll.userId, pigId := roll.pigId, firstSeenAt := e.dbNow }]
              progress := db.growth.progress ++ [row], feeds := db.growth.feeds } := by
        refine ⟨{ userId := roll.userId, pigId := roll.pigId, copies := 1
                  firstObtainedAt := e.dbNow }, rfl, rfl, rfl, ?_⟩
        simp only [createDailyRoll, applyCreatedRollProgress, hprogress, hcollection,
          ensureCollection]
        cases getDrawState db roll.userId <;> simp [Db.growth]
      obtain ⟨row, hkey, hcopies, hbonus, hgrowth⟩ := hgrowth
      rw [hgrowth]
      refine .first _ _ row hday (getProgress_none hprogress) rfl hkey hcopies hbonus ?_ ?_
      · simp [createDailyRoll, applyCreatedRollProgress, hprogress, hcollection, DailyRoll.draw,
          DailyRoll.withProgress]
      · simp [createDailyRoll, applyCreatedRollProgress, hprogress, hcollection, DailyRoll.draw,
          DailyRoll.withProgress]
  | some row =>
      obtain ⟨hmem, hkey⟩ := getProgress_some hprogress
      have hcollection : (getCollection db roll.userId roll.pigId).isSome = true := by
        simpa [hprogress] using getCollection_iff h roll.userId roll.pigId
      obtain ⟨collection, hcollection⟩ := Option.isSome_iff_exists.mp hcollection
      have hgrowth : (createDailyRoll e roll db).2.growth =
          { db.growth with
            draws := db.growth.draws ++ [(createDailyRoll e roll db).1.draw]
            progress := Tables.writeBack progressKey [{ row with copies := row.copies + 1 }]
              db.growth.progress } := by
        simp only [createDailyRoll, applyCreatedRollProgress, hprogress, hcollection,
          ensureCollection, flushProgress]
        cases getDrawState db roll.userId <;> simp [Db.growth] <;> rfl
      rw [hgrowth]
      refine .again _ row { row with copies := row.copies + 1 } hday hmem hkey.symm rfl rfl rfl ?_ ?_
      · simp [createDailyRoll, applyCreatedRollProgress, hprogress, hcollection, DailyRoll.draw,
          DailyRoll.withProgress]
      · simp [createDailyRoll, applyCreatedRollProgress, hprogress, hcollection, DailyRoll.draw,
          DailyRoll.withProgress]

/-- A feed below the highest level raises the level by one. -/
theorem expertLevel_succ {copies bonus : Int} (hcopies : 1 ≤ copies) (hbonus : 0 ≤ bonus)
    (hlow : ¬ maxExpertLevel ≤ expertLevel copies bonus) :
    expertLevel copies (max 0 bonus + 1) = expertLevel copies bonus + 1 ∧
      expertLevel copies (max 0 bonus + 1) ≤ maxExpertLevel := by
  unfold expertLevel maxExpertLevel at *
  omega

theorem applyDailyFeed_growth (h : db.growth.Kept) (date : Date) (userId : String)
    (sourceType : FeedSource) (sourceId : String) :
    (applyDailyFeed e date userId sourceType sourceId db).2.growth = db.growth ∨
      db.growth.Step (applyDailyFeed e date userId sourceType sourceId db).2.growth := by
  unfold applyDailyFeed
  cases hroll : (db.dailyRoll? date userId).filter (!·.isMakeup) with
  | none => exact Or.inl rfl
  | some roll =>
      obtain ⟨hfind, -⟩ := Option.filter_eq_some_iff.mp hroll
      obtain ⟨hmem, hdate, huser⟩ := dailyRoll?_some hfind
      have hdrawn : (userId, roll.pigId) ∈ db.userPigProgress.map progressKey := by
        have hkey := h.drawn roll.draw (List.mem_map_of_mem hmem)
        rw [← huser]
        exact hkey
      dsimp only
      cases hfeed : db.userDailyFeeds.find? fun row => row.dateStr = date ∧ row.userId = userId with
      | some existing => exact Or.inl rfl
      | none =>
          cases hprogress : getProgress db userId roll.pigId with
          | none => exact absurd hdrawn (getProgress_none hprogress)
          | some row =>
              obtain ⟨hrow, hkey⟩ := getProgress_some hprogress
              dsimp only
              by_cases hmax : maxExpertLevel ≤ expertLevel row.copies row.growthBonus
              · rw [if_pos hmax]
                exact Or.inl rfl
              · rw [if_neg hmax]
                have hcopies : 1 ≤ row.copies := by
                  have hcount : row.copies = _ := h.copies row hrow
                  have hpos : 0 < Tables.tally Draw.key db.growth.draws (progressKey row) := by
                    refine Tables.tally_pos.mpr ⟨roll.draw, List.mem_map_of_mem hmem, ?_⟩
                    rw [hkey, ← huser]
                    rfl
                  omega
                have hbonus : 0 ≤ row.growthBonus := by
                  have hcount : row.growthBonus = _ := h.bonus row hrow
                  omega
                refine Or.inr (.feed _ row _ ?_ hrow hkey.symm rfl rfl ?_
                  (expertLevel_succ hcopies hbonus hmax))
                · intro old hold hday
                  have hout := List.find?_eq_none.mp hfeed old hold
                  simp only [UserDailyFeed.day, Prod.mk.injEq] at hday
                  simp [hday] at hout
                · show max 0 row.growthBonus + 1 = row.growthBonus + 1
                  omega

/-! ### Transactions conserve growth -/

theorem createDailyRoll_kept (h : db.growth.Kept) {roll : DailyRoll}
    (hnone : db.dailyRoll? roll.dateStr roll.userId = none) :
    (createDailyRoll e roll db).2.growth.Kept :=
  (createDailyRoll_step h hnone).kept h

theorem applyDailyFeed_kept (h : db.growth.Kept) (date : Date) (userId : String)
    (sourceType : FeedSource) (sourceId : String) :
    (applyDailyFeed e date userId sourceType sourceId db).2.growth.Kept := by
  rcases applyDailyFeed_growth h date userId sourceType sourceId with hsame | hstep
  · rw [hsame]
    exact h
  · exact hstep.kept h

/-- A transaction that leaves the four tables alone. -/
theorem Growth.Kept.of_same (h : db.growth.Kept) (hsame : SameGrowth db db') :
    db'.growth.Kept := by
  obtain ⟨hrolls, hcollections, hprogress, hfeeds⟩ := hsame
  unfold Db.growth at h ⊢
  rw [hrolls, hcollections, hprogress, hfeeds]
  exact h

/-- Completing an appearance changes no draw. -/
theorem flushDailyRoll_growth (h : db.growth.Kept) {existing : DailyRoll}
    (hmem : existing ∈ db.dailyRolls) (version : Option String)
    (appearance : Option AppearanceSnapshot) :
    (db.flushDailyRoll { existing with
      resourceVersion := version, appearanceSnapshot := appearance }).growth = db.growth := by
  unfold Db.flushDailyRoll Db.growth
  congr 1
  refine Tables.map_writeBack DailyRoll.draw ?_
  intro changed hchanged old hold hkey
  obtain rfl := List.mem_singleton.mp hchanged
  have hexisting : existing.draw ∈ db.growth.draws := List.mem_map_of_mem hmem
  exact h.drawsDaily.eq hexisting (List.mem_map_of_mem hold) hkey

theorem Grown.kept {fed : Date → String → Prop} (hgrown : Grown e fed db db')
    (h : db.growth.Kept) : db'.growth.Kept := by
  induction hgrown with
  | refl => exact h
  | same _ hsame ih => exact ih.of_same hsame
  | draw _ roll hnone _ ih => exact createDailyRoll_kept ih hnone
  | appear _ existing hmem version appearance _ ih =>
      rw [flushDailyRoll_growth ih hmem version appearance]
      exact ih
  | feed _ date userId sourceType sourceId _ ih => exact applyDailyFeed_kept ih date userId _ _

/-- Growth is conserved in every reachable world. -/
theorem growth_kept {w : World} (h : Reachable service w) : w.db.growth.Kept := by
  refine Reachable.invariant (I := fun w => w.db.growth.Kept) ?_ ?_ h
  · intro w hinit
    obtain rfl : w = {} := hinit
    constructor <;> simp [Db.growth, Tables.Unique, Tables.Counts, Tables.Numbered]
  · exact fun w event w' _ hkept hstep => (step_grown hstep).kept hkept

/-! ### The numbers of a user and a pig -/

/-- The copies on record, none without a record. -/
def copiesOf (db : Db) (userId pigId : String) : Int :=
  match getProgress db userId pigId with
  | some row => row.copies
  | none => 0

def growthBonusOf (db : Db) (userId pigId : String) : Int :=
  match getProgress db userId pigId with
  | some row => row.growthBonus
  | none => 0

/-- The rolls of a user that drew a pig, in the order they were made. -/
def rollsOf (db : Db) (userId pigId : String) : List DailyRoll :=
  db.dailyRolls.filter fun roll => roll.userId = userId ∧ roll.pigId = pigId

def feedsOf (db : Db) (userId pigId : String) : List UserDailyFeed :=
  db.userDailyFeeds.filter fun feed => feed.userId = userId ∧ feed.pigId = pigId

theorem rollsOf_draws (userId pigId : String) :
    (rollsOf db userId pigId).map DailyRoll.draw =
      db.growth.draws.filter fun d => d.key = (userId, pigId) := by
  unfold rollsOf Db.growth
  rw [List.filter_map]
  congr 1
  refine List.filter_congr fun roll _ => ?_
  rw [Function.comp_apply, decide_eq_decide]
  exact ⟨fun hkey => Prod.ext hkey.1 hkey.2,
    fun hkey => ⟨congrArg Prod.fst hkey, congrArg Prod.snd hkey⟩⟩

theorem length_rollsOf (userId pigId : String) :
    (rollsOf db userId pigId).length = Tables.tally Draw.key db.growth.draws (userId, pigId) := by
  rw [Tables.tally, List.countP_eq_length_filter, ← rollsOf_draws, List.length_map]

theorem length_feedsOf (userId pigId : String) :
    (feedsOf db userId pigId).length =
      Tables.tally UserDailyFeed.key db.growth.feeds (userId, pigId) := by
  rw [Tables.tally, List.countP_eq_length_filter]
  congr 1
  exact List.filter_congr fun feed _ => by simp [UserDailyFeed.key]

theorem copiesOf_eq (h : db.growth.Kept) (userId pigId : String) :
    copiesOf db userId pigId = (rollsOf db userId pigId).length := by
  rw [length_rollsOf]
  unfold copiesOf
  cases hprogress : getProgress db userId pigId with
  | none =>
      rw [h.tally_zero (getProgress_none hprogress)]
      rfl
  | some row =>
      obtain ⟨hrow, hkey⟩ := getProgress_some hprogress
      rw [← hkey]
      exact h.copies row hrow

theorem growthBonusOf_eq (h : db.growth.Kept) (userId pigId : String) :
    growthBonusOf db userId pigId = (feedsOf db userId pigId).length := by
  rw [length_feedsOf]
  unfold growthBonusOf
  cases hprogress : getProgress db userId pigId with
  | none =>
      rw [h.feeds_zero (getProgress_none hprogress)]
      rfl
  | some row =>
      obtain ⟨hrow, hkey⟩ := getProgress_some hprogress
      rw [← hkey]
      exact h.bonus row hrow

/-- The rolls of a user and a pig froze the numbers 1, 2, … in turn. -/
theorem rollsOf_numbered (h : db.growth.Kept) (userId pigId : String) :
    (rollsOf db userId pigId).map (·.copiesAfterRoll) =
        (List.range (rollsOf db userId pigId).length).map (fun (i : Nat) => some ((i : Int) + 1)) ∧
      (rollsOf db userId pigId).map (·.previousCopies) =
        (List.range (rollsOf db userId pigId).length).map (fun (i : Nat) => some (i : Int)) := by
  have hnumbered := h.numbered (userId, pigId)
  unfold Tables.Numbered at hnumbered
  rw [← rollsOf_draws, List.map_map, List.length_map] at hnumbered
  constructor
  · have hafter := congrArg (List.map Prod.snd) hnumbered
    simpa [List.map_map, Function.comp_def, DailyRoll.draw] using hafter
  · have hbefore := congrArg (List.map Prod.fst) hnumbered
    simpa [List.map_map, Function.comp_def, DailyRoll.draw] using hbefore

/-- **Growth is conserved**: one roll and one feed per user and day, and for every user
and pig the copies are the rolls, the growth bonus is the feeds, the pig is collected
exactly when it is counted, and the rolls froze the numbers they were counted by; every
feed raised the level by one, to at most five. -/
theorem growth_conserved {w : World} (h : Reachable service w) :
    (w.db.dailyRolls.map fun roll => (roll.dateStr, roll.userId)).Nodup ∧
    (w.db.userDailyFeeds.map fun feed => (feed.dateStr, feed.userId)).Nodup ∧
    (∀ userId pigId,
      copiesOf w.db userId pigId = (rollsOf w.db userId pigId).length ∧
      growthBonusOf w.db userId pigId = (feedsOf w.db userId pigId).length ∧
      ((getCollection w.db userId pigId).isSome = true ↔
        (getProgress w.db userId pigId).isSome = true) ∧
      (rollsOf w.db userId pigId).map (·.copiesAfterRoll) =
        (List.range (rollsOf w.db userId pigId).length).map (fun (i : Nat) => some ((i : Int) + 1)) ∧
      (rollsOf w.db userId pigId).map (·.previousCopies) =
        (List.range (rollsOf w.db userId pigId).length).map (fun (i : Nat) => some (i : Int))) ∧
    ∀ feed ∈ w.db.userDailyFeeds,
      feed.newLevel = feed.previousLevel + 1 ∧ feed.newLevel ≤ 5 := by
  have hkept := growth_kept h
  refine ⟨?_, hkept.feedsDaily, fun userId pigId => ?_, hkept.levels⟩
  · have hdaily := hkept.drawsDaily
    unfold Tables.Unique Db.growth at hdaily
    rw [List.map_map] at hdaily
    exact hdaily
  · exact ⟨copiesOf_eq hkept userId pigId, growthBonusOf_eq hkept userId pigId,
      getCollection_iff hkept userId pigId, rollsOf_numbered hkept userId pigId⟩

/-- User 1 rolls a boar, makes up the day before with another one and roasts user 2. -/
def growthScript : List (Time × Order) :=
  let day : Date := 739000
  let now : Time := 739000 * dayMicros
  [(now, .request (.getOrCreate { userId := "1", proposedPigId := "boar", dateStr := day })),
    (now, .finish 0),
    (now, .request (.makeup { userId := "1", proposedPigId := "boar", dateStr := day - 1 })),
    (now, .request (.createEvent
      { eventType := "success", attackerId := "1", targetId := "2", dateStr := some day,
        settleDailyFeed := true, sourceId := "roast" }))]

theorem growth_conserved_boars :
    copiesOf (scriptWorld growthScript).db "1" "boar" = 2 ∧
      growthBonusOf (scriptWorld growthScript).db "1" "boar" = 1 := by
  obtain ⟨-, -, hpigs, -⟩ := growth_conserved
    (script_reachable (show (play 0 {} growthScript).isSome = true by decide +kernel))
  obtain ⟨hcopies, hbonus, -⟩ := hpigs "1" "boar"
  rw [hcopies, hbonus]
  decide +kernel

end RollPig
