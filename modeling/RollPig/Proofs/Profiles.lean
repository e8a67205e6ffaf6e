/-
What a profile may rely on.

A roll freezes the level its pig had when it was drawn, a feed the level it raised the pig
to.  The level never falls, so a roll holds every feed that was committed before it.  A
feed that is settled late, for a date before a roll that is already there, is held by no
roll; where none comes late, a profile shows what the feed of its own day made of the
roll, with the time of that feed.
-/
import RollPig.Proofs.Growth
import RollPig.Routers.DailyReports

namespace RollPig

open Transition

variable {e : Env} {db db' : Db} {w w' : World} {event : Event} {date : Date} {userId : String}

/-! ### The level of a pig -/

/-- The level of the user's pig, from its record. -/
def levelOf (db : Db) (userId pigId : String) : Int :=
  expertLevel (copiesOf db userId pigId) (growthBonusOf db userId pigId)

theorem expertLevel_mono {copies copies' bonus bonus' : Int} (hcopies : copies ≤ copies')
    (hbonus : bonus ≤ bonus') : expertLevel copies bonus ≤ expertLevel copies' bonus' := by
  unfold expertLevel
  omega

theorem expertLevel_bounds (copies bonus : Int) :
    0 ≤ expertLevel copies bonus ∧ expertLevel copies bonus ≤ 5 := by
  unfold expertLevel maxExpertLevel
  omega

/-- The level is the number of rolls and feeds, within the levels there are. -/
theorem levelOf_eq (h : db.growth.Kept) (userId pigId : String) :
    levelOf db userId pigId =
      expertLevel (rollsOf db userId pigId).length (feedsOf db userId pigId).length := by
  rw [levelOf, copiesOf_eq h, growthBonusOf_eq h]

theorem levelOf_same (h : SameGrowth db db') (userId pigId : String) :
    levelOf db' userId pigId = levelOf db userId pigId := by
  simp only [levelOf, copiesOf, growthBonusOf, getProgress, h.2.2.1]

/-- Rolls and feeds that stay keep the level up. -/
theorem levelOf_mono (h : db.growth.Kept) (h' : db'.growth.Kept)
    (hrolls : List.Sublist db.dailyRolls db'.dailyRolls)
    (hfeeds : List.Sublist db.userDailyFeeds db'.userDailyFeeds) (userId pigId : String) :
    levelOf db userId pigId ≤ levelOf db' userId pigId := by
  rw [levelOf_eq h, levelOf_eq h']
  have hdrawn : (rollsOf db userId pigId).length ≤ (rollsOf db' userId pigId).length :=
    (hrolls.filter _).length_le
  have hfed : (feedsOf db userId pigId).length ≤ (feedsOf db' userId pigId).length :=
    (hfeeds.filter _).length_le
  exact expertLevel_mono (by omega) (by omega)

/-! ### One move -/

/-- A roll freezes the level it leads to. -/
theorem createDailyRoll_level (h : db.growth.Kept) {roll : DailyRoll}
    (hnone : db.dailyRoll? roll.dateStr roll.userId = none) :
    ∃ drawn, (createDailyRoll e roll db).2.dailyRolls = db.dailyRolls ++ [drawn] ∧
      (createDailyRoll e roll db).2.userDailyFeeds = db.userDailyFeeds ∧
      drawn.copiesAfterRoll.isSome = true ∧ drawn.expertLevelAfterRoll =
        some (levelOf (createDailyRoll e roll db).2 drawn.userId drawn.pigId) := by
  have hkept : (createDailyRoll e roll db).2.growth.Kept := createDailyRoll_kept h hnone
  have hrolls : (createDailyRoll e roll db).2.dailyRolls =
      db.dailyRolls ++ [(createDailyRoll e roll db).1] := by
    simp only [createDailyRoll, applyCreatedRollProgress_frame]
  have hfeeds : (createDailyRoll e roll db).2.userDailyFeeds = db.userDailyFeeds := by
    simp [createDailyRoll]
  have hkey : (createDailyRoll e roll db).1.userId = roll.userId ∧
      (createDailyRoll e roll db).1.pigId = roll.pigId := ⟨rfl, rfl⟩
  have hlevel : (createDailyRoll e roll db).1.expertLevelAfterRoll =
      some (expertLevel (copiesOf db roll.userId roll.pigId + 1)
        (growthBonusOf db roll.userId roll.pigId)) := by
    cases hprogress : getProgress db roll.userId roll.pigId with
    | none =>
        have hcollection : getCollection db roll.userId roll.pigId = none := by
          simpa [hprogress] using getCollection_iff h roll.userId roll.pigId
        simp [createDailyRoll, applyCreatedRollProgress, DailyRoll.withProgress, copiesOf,
          growthBonusOf, hprogress, hcollection]
    | some row =>
        have hbonus : 0 ≤ row.growthBonus := by
          have hcount : row.growthBonus = _ := h.bonus row (getProgress_some hprogress).1
          omega
        simp [createDailyRoll, applyCreatedRollProgress, DailyRoll.withProgress, copiesOf,
          growthBonusOf, hprogress, max_eq_right hbonus]
  refine ⟨_, hrolls, hfeeds, rfl, ?_⟩
  have hdrawn : (rollsOf (createDailyRoll e roll db).2 roll.userId roll.pigId).length =
      (rollsOf db roll.userId roll.pigId).length + 1 := by
    unfold rollsOf
    rw [hrolls, List.filter_append, List.length_append]
    simp [hkey]
  have hfed : feedsOf (createDailyRoll e roll db).2 roll.userId roll.pigId =
      feedsOf db roll.userId roll.pigId := by
    unfold feedsOf
    rw [hfeeds]
  rw [hlevel, hkey.1, hkey.2, levelOf_eq hkept, hdrawn, hfed, copiesOf_eq h, growthBonusOf_eq h]
  rfl

/-- The user can be fed for the date: the day's pig was drawn that day and is not at the
highest level, and the user was not fed yet. -/
structure Db.Feedable (db : Db) (date : Date) (userId : String) (roll : DailyRoll) : Prop where
  rolled : db.dailyRoll? date userId = some roll
  drawn : roll.isMakeup = false
  unfed : ∀ feed ∈ db.userDailyFeeds, feed.day ≠ (date, userId)
  below : levelOf db userId roll.pigId < maxExpertLevel

/-- A feed for the date would come late: the user can be fed, and drew the same pig again
for a later date. -/
def Db.FedLate (db : Db) (date : Date) (userId : String) : Prop :=
  ∃ roll, db.Feedable date userId roll ∧
    ∃ later ∈ db.dailyRolls, later.userId = userId ∧ later.pigId = roll.pigId ∧
      date < later.dateStr

/-- Whoever can be fed is, and the level of the day's pig rises by one. -/
theorem applyDailyFeed_level (h : db.growth.Kept) (date : Date) (userId : String)
    (sourceType : FeedSource) (sourceId : String) :
    ((∀ roll, ¬ db.Feedable date userId roll) ∧
        (applyDailyFeed e date userId sourceType sourceId db).2 = db) ∨
      ∃ roll feed, db.Feedable date userId roll ∧ feed.day = (date, userId) ∧
        feed.pigId = roll.pigId ∧ feed.newLevel = levelOf db userId roll.pigId + 1 ∧
        (applyDailyFeed e date userId sourceType sourceId db).2.userDailyFeeds =
          db.userDailyFeeds ++ [feed] ∧
        (applyDailyFeed e date userId sourceType sourceId db).2.dailyRolls = db.dailyRolls := by
  unfold applyDailyFeed
  cases hroll : (db.dailyRoll? date userId).filter (!·.isMakeup) with
  | none =>
      refine Or.inl ⟨fun roll hfeedable => ?_, rfl⟩
      rw [hfeedable.rolled] at hroll
      simp [hfeedable.drawn] at hroll
  | some roll =>
      obtain ⟨hfind, hmakeup⟩ := Option.filter_eq_some_iff.mp hroll
      obtain ⟨hmem, hdate, huser⟩ := dailyRoll?_some hfind
      dsimp only
      cases hfeed : db.userDailyFeeds.find? fun row => row.dateStr = date ∧ row.userId = userId with
      | some existing =>
          refine Or.inl ⟨fun roll hfeedable => ?_, rfl⟩
          have hday := List.find?_some hfeed
          simp only [decide_eq_true_eq] at hday
          exact hfeedable.unfed existing (List.mem_of_find?_eq_some hfeed) (Prod.ext hday.1 hday.2)
      | none =>
          have hunfed : ∀ old ∈ db.userDailyFeeds, old.day ≠ (date, userId) := by
            intro old hold hday
            have hout := List.find?_eq_none.mp hfeed old hold
            simp only [UserDailyFeed.day, Prod.mk.injEq] at hday
            simp [hday] at hout
          cases hprogress : getProgress db userId roll.pigId with
          | none =>
              have hdrawn := h.drawn roll.draw (List.mem_map_of_mem hmem)
              exact absurd (huser ▸ hdrawn) (getProgress_none hprogress)
          | some row =>
              obtain ⟨hrow, hkey⟩ := getProgress_some hprogress
              have hlevel : levelOf db userId roll.pigId =
                  expertLevel row.copies row.growthBonus := by
                simp only [levelOf, copiesOf, growthBonusOf, hprogress]
              dsimp only
              by_cases hmax : maxExpertLevel ≤ expertLevel row.copies row.growthBonus
              · rw [if_pos hmax]
                refine Or.inl ⟨fun other hfeedable => ?_, rfl⟩
                obtain rfl := Option.some.inj (hfind.symm.trans hfeedable.rolled)
                exact absurd hfeedable.below (by omega)
              · rw [if_neg hmax]
                have hcopies : 1 ≤ row.copies := by
                  have hcount := copiesOf_eq h userId roll.pigId
                  have hpos : 0 < (rollsOf db userId roll.pigId).length :=
                    List.length_pos_of_mem (List.mem_filter.mpr ⟨hmem, by simp [huser]⟩)
                  simp only [copiesOf, hprogress] at hcount
                  omega
                have hbonus : 0 ≤ row.growthBonus := by
                  have hcount : row.growthBonus = _ := h.bonus row hrow
                  omega
                refine Or.inr ⟨roll, _, ⟨hfind, by simpa using hmakeup, hunfed, by omega⟩, rfl, rfl,
                  ?_, rfl, rfl⟩
                rw [hlevel]
                exact (expertLevel_succ hcopies hbonus hmax).1

/-! ### What rolls and feeds froze -/

/-- Every feed dated before a roll of the same user and pig is in the level of the roll. -/
def Db.FeedsContained (db : Db) : Prop :=
  ∀ feed ∈ db.userDailyFeeds, ∀ roll ∈ db.dailyRolls, feed.userId = roll.userId →
    feed.pigId = roll.pigId → feed.dateStr < roll.dateStr →
      ∃ level, roll.expertLevelAfterRoll = some level ∧ feed.newLevel ≤ level

/-- Rolls and feeds froze levels that their pigs have kept since. -/
structure Db.Frozen (db : Db) : Prop where
  rolls : ∀ roll ∈ db.dailyRolls, roll.copiesAfterRoll.isSome = true ∧
    ∃ level, roll.expertLevelAfterRoll = some level ∧ 0 ≤ level ∧
      level ≤ levelOf db roll.userId roll.pigId
  feeds : ∀ feed ∈ db.userDailyFeeds, feed.newLevel ≤ levelOf db feed.userId feed.pigId

/-- And no feed is missing in a roll after it. -/
structure Db.Levelled (db : Db) : Prop extends Db.Frozen db where
  contained : db.FeedsContained

theorem Db.Frozen.same (h : db.Frozen) (hsame : SameGrowth db db') : db'.Frozen := by
  have hlevel := levelOf_same hsame
  obtain ⟨hrolls, -, -, hfeeds⟩ := hsame
  refine ⟨?_, ?_⟩
  · simpa only [hrolls, hlevel] using h.rolls
  · simpa only [hfeeds, hlevel] using h.feeds

theorem Db.Levelled.same (h : db.Levelled) (hsame : SameGrowth db db') : db'.Levelled := by
  refine ⟨h.toFrozen.same hsame, ?_⟩
  obtain ⟨hrolls, -, -, hfeeds⟩ := hsame
  unfold Db.FeedsContained
  rw [hrolls, hfeeds]
  exact h.contained

/-- A roll whose appearance was completed is an old one in what it froze of its level. -/
theorem appear_source {existing : DailyRoll} (hmem : existing ∈ db.dailyRolls)
    (version : Option String) (appearance : Option AppearanceSnapshot) {roll : DailyRoll}
    (hroll : roll ∈ (db.flushDailyRoll { existing with
      resourceVersion := version, appearanceSnapshot := appearance }).dailyRolls) :
    ∃ old ∈ db.dailyRolls, old.dateStr = roll.dateStr ∧ old.userId = roll.userId ∧
      old.pigId = roll.pigId ∧ old.copiesAfterRoll = roll.copiesAfterRoll ∧
      old.expertLevelAfterRoll = roll.expertLevelAfterRoll := by
  rcases Tables.mem_writeBack hroll with hsame | hchanged
  · exact ⟨roll, hsame.1, rfl, rfl, rfl, rfl, rfl⟩
  · obtain rfl := List.mem_singleton.mp hchanged.1
    exact ⟨existing, hmem, rfl, rfl, rfl, rfl, rfl⟩

theorem Db.Frozen.appear (h : db.Frozen) {existing : DailyRoll}
    (hmem : existing ∈ db.dailyRolls) (version : Option String)
    (appearance : Option AppearanceSnapshot) :
    (db.flushDailyRoll { existing with
      resourceVersion := version, appearanceSnapshot := appearance }).Frozen := by
  refine ⟨fun roll hroll => ?_, h.feeds⟩
  obtain ⟨old, hmem', -, huser, hpig, hcopies, hlevel⟩ :=
    appear_source hmem version appearance hroll
  rw [← hcopies, ← hlevel, ← huser, ← hpig]
  exact h.rolls old hmem'

theorem Db.Levelled.appear (h : db.Levelled) {existing : DailyRoll}
    (hmem : existing ∈ db.dailyRolls) (version : Option String)
    (appearance : Option AppearanceSnapshot) :
    (db.flushDailyRoll { existing with
      resourceVersion := version, appearanceSnapshot := appearance }).Levelled := by
  refine ⟨h.toFrozen.appear hmem version appearance, ?_⟩
  intro feed hfeed roll hroll huser hpig hdate
  obtain ⟨old, hmem', hdate', huser', hpig', -, hlevel⟩ :=
    appear_source hmem version appearance hroll
  rw [← hlevel]
  exact h.contained feed hfeed old hmem' (huser.trans huser'.symm) (hpig.trans hpig'.symm)
    (hdate'.symm ▸ hdate)

/-- A new roll freezes a level, and raises none. -/
theorem Db.Frozen.draw (h : db.Frozen) (hkept : db.growth.Kept) {roll : DailyRoll}
    (hnone : db.dailyRoll? roll.dateStr roll.userId = none) :
    (createDailyRoll e roll db).2.Frozen := by
  have hkept' : (createDailyRoll e roll db).2.growth.Kept := createDailyRoll_kept hkept hnone
  obtain ⟨drawn, hrolls, hfeeds, hcopies, hlevel⟩ :=
    createDailyRoll_level (e := e) hkept hnone
  have hmono : ∀ userId pigId, levelOf db userId pigId ≤
      levelOf (createDailyRoll e roll db).2 userId pigId := fun userId pigId =>
    levelOf_mono hkept hkept' (hrolls ▸ List.sublist_append_left _ _) (hfeeds ▸ List.Sublist.refl _)
      userId pigId
  refine ⟨fun other hother => ?_, fun feed hfeed => ?_⟩
  · rw [hrolls] at hother
    rcases List.mem_append.mp hother with hold | hnew
    · obtain ⟨hsome, level, hown, hpos, hle⟩ := h.rolls other hold
      exact ⟨hsome, level, hown, hpos, hle.trans (hmono _ _)⟩
    · obtain rfl := List.mem_singleton.mp hnew
      exact ⟨hcopies, _, hlevel, (expertLevel_bounds _ _).1, le_refl _⟩
  · rw [hfeeds] at hfeed
    exact (h.feeds feed hfeed).trans (hmono _ _)

/-- A new roll holds whatever was fed before it. -/
theorem Db.Levelled.draw (h : db.Levelled) (hkept : db.growth.Kept) {roll : DailyRoll}
    (hnone : db.dailyRoll? roll.dateStr roll.userId = none) :
    (createDailyRoll e roll db).2.Levelled := by
  have hfrozen : (createDailyRoll e roll db).2.Frozen := h.toFrozen.draw hkept hnone
  obtain ⟨drawn, hrolls, hfeeds, -, hlevel⟩ := createDailyRoll_level (e := e) hkept hnone
  refine ⟨hfrozen, fun feed hfeed other hother huser hpig hdate => ?_⟩
  rw [hrolls] at hother
  rcases List.mem_append.mp hother with hold | hnew
  · rw [hfeeds] at hfeed
    exact h.contained feed hfeed other hold huser hpig hdate
  · obtain rfl := List.mem_singleton.mp hnew
    refine ⟨_, hlevel, ?_⟩
    rw [← huser, ← hpig]
    exact hfrozen.feeds feed hfeed

/-- The level after a feed is the one the feed froze. -/
theorem levelOf_fed (h : db.growth.Kept) (h' : db'.growth.Kept) {roll : DailyRoll}
    {feed : UserDailyFeed} (hfeedable : db.Feedable date userId roll)
    (hday : feed.day = (date, userId)) (hpig : feed.pigId = roll.pigId)
    (hfeeds : db'.userDailyFeeds = db.userDailyFeeds ++ [feed])
    (hrolls : db'.dailyRolls = db.dailyRolls) :
    levelOf db' userId roll.pigId = levelOf db userId roll.pigId + 1 := by
  obtain ⟨hmem, -, huser⟩ := dailyRoll?_some hfeedable.rolled
  have hdrawn : 0 < (rollsOf db userId roll.pigId).length :=
    List.length_pos_of_mem (List.mem_filter.mpr ⟨hmem, by simp [huser]⟩)
  have hsame : rollsOf db' userId roll.pigId = rollsOf db userId roll.pigId := by
    unfold rollsOf
    rw [hrolls]
  have hfed : (feedsOf db' userId roll.pigId).length =
      (feedsOf db userId roll.pigId).length + 1 := by
    have hname : feed.userId = userId := congrArg Prod.snd hday
    unfold feedsOf
    rw [hfeeds, List.filter_append, List.length_append]
    simp [hname, hpig]
  have hbelow := hfeedable.below
  rw [levelOf_eq h] at hbelow ⊢
  rw [levelOf_eq h', hsame, hfed]
  unfold expertLevel maxExpertLevel at *
  push_cast
  omega

theorem Db.Frozen.feed (h : db.Frozen) (hkept : db.growth.Kept) (date : Date)
    (userId : String) (sourceType : FeedSource) (sourceId : String) :
    (applyDailyFeed e date userId sourceType sourceId db).2.Frozen := by
  have hkept' := applyDailyFeed_kept (e := e) hkept date userId sourceType sourceId
  rcases applyDailyFeed_level (e := e) hkept date userId sourceType sourceId with
    ⟨-, hsame⟩ | ⟨roll, feed, hfeedable, hday, hpig, hlevel, hfeeds, hrolls⟩
  · rw [hsame]
    exact h
  · have hmono := levelOf_mono hkept hkept' (hrolls ▸ List.Sublist.refl _)
      (hfeeds ▸ List.sublist_append_left _ _)
    obtain ⟨rfl, rfl⟩ := Prod.mk.inj hday
    refine ⟨fun other hother => ?_, fun other hother => ?_⟩
    · rw [hrolls] at hother
      obtain ⟨hsome, level, hown, hpos, hle⟩ := h.rolls other hother
      exact ⟨hsome, level, hown, hpos, hle.trans (hmono _ _)⟩
    · rw [hfeeds] at hother
      rcases List.mem_append.mp hother with hold | hnew
      · exact (h.feeds other hold).trans (hmono _ _)
      · obtain rfl := List.mem_singleton.mp hnew
        rw [hpig, levelOf_fed hkept hkept' hfeedable hday hpig hfeeds hrolls, hlevel]

/-- A feed that does not come late is dated before no roll of its pig. -/
theorem Db.Levelled.feed (h : db.Levelled) (hkept : db.growth.Kept) (date : Date)
    (userId : String) (sourceType : FeedSource) (sourceId : String)
    (hlate : ¬ db.FedLate date userId) :
    (applyDailyFeed e date userId sourceType sourceId db).2.Levelled := by
  refine ⟨h.toFrozen.feed hkept date userId sourceType sourceId, ?_⟩
  rcases applyDailyFeed_level (e := e) hkept date userId sourceType sourceId with
    ⟨-, hsame⟩ | ⟨roll, feed, hfeedable, hday, hpig, -, hfeeds, hrolls⟩
  · rw [hsame]
    exact h.contained
  · obtain ⟨rfl, rfl⟩ := Prod.mk.inj hday
    intro other hother roll' hroll' huser hpig' hdate
    rw [hrolls] at hroll'
    rw [hfeeds] at hother
    rcases List.mem_append.mp hother with hold | hnew
    · exact h.contained other hold roll' hroll' huser hpig' hdate
    · obtain rfl := List.mem_singleton.mp hnew
      exact absurd ⟨roll, hfeedable, roll', hroll', huser.symm, hpig'.symm.trans hpig, hdate⟩ hlate

/-- A feed that comes late is in no roll. -/
theorem applyDailyFeed_late (h : db.Frozen) (hkept : db.growth.Kept)
    (sourceType : FeedSource) (sourceId : String) (hlate : db.FedLate date userId) :
    ¬ (applyDailyFeed e date userId sourceType sourceId db).2.FeedsContained := by
  obtain ⟨roll, hfeedable, later, hlater, huser, hpig, hdate⟩ := hlate
  rcases applyDailyFeed_level (e := e) hkept date userId sourceType sourceId with
    ⟨hnone, -⟩ | ⟨roll', feed, hfeedable', hday, hpig', hlevel, hfeeds, hrolls⟩
  · exact absurd hfeedable (hnone roll)
  · obtain rfl := Option.some.inj (hfeedable.rolled.symm.trans hfeedable'.rolled)
    obtain ⟨rfl, rfl⟩ := Prod.mk.inj hday
    intro hcontained
    obtain ⟨level, hown, hle⟩ := hcontained feed (by rw [hfeeds]; simp) later (by rwa [hrolls])
      huser.symm (hpig'.trans hpig.symm) hdate
    obtain ⟨-, level', hown', -, hle'⟩ := h.rolls later hlater
    obtain rfl := Option.some.inj (hown.symm.trans hown')
    rw [huser, hpig] at hle'
    omega

/-! ### Runs without a late feed -/

/-- Feeding one user makes nobody else's feed come late. -/
theorem FedLate.before (hkept : db.growth.Kept) (date' : Date) (userId' : String)
    (sourceType : FeedSource) (sourceId : String)
    (h : (applyDailyFeed e date' userId' sourceType sourceId db).2.FedLate date userId) :
    db.FedLate date userId := by
  have hkept' := applyDailyFeed_kept (e := e) hkept date' userId' sourceType sourceId
  obtain ⟨roll, ⟨hrolled, hdrawn, hunfed, hbelow⟩, later, hlater, huser, hpig, hdate⟩ := h
  rcases applyDailyFeed_level (e := e) hkept date' userId' sourceType sourceId with
    ⟨-, hsame⟩ | ⟨-, feed, -, -, -, -, hfeeds, hrolls⟩
  · rw [hsame] at hrolled hunfed hbelow hlater
    exact ⟨roll, ⟨hrolled, hdrawn, hunfed, hbelow⟩, later, hlater, huser, hpig, hdate⟩
  · have hmono := levelOf_mono hkept hkept' (hrolls ▸ List.Sublist.refl _)
      (hfeeds ▸ List.sublist_append_left _ _) userId roll.pigId
    rw [hrolls] at hlater
    refine ⟨roll, ⟨?_, hdrawn, fun old hold => hunfed old ?_, by omega⟩, later, hlater, huser,
      hpig, hdate⟩
    · rw [← hrolled]
      unfold Db.dailyRoll?
      rw [hrolls]
    · rw [hfeeds]
      exact List.mem_append_left _ hold

/-- A transaction that feeds nobody late keeps every feed in the rolls after it. -/
theorem Grown.levelled {fed : Date → String → Prop} (hgrown : Grown e fed db db')
    (hkept : db.growth.Kept) (h : db.Levelled)
    (htimely : ∀ date userId, fed date userId → ¬ db.FedLate date userId) : db'.Levelled := by
  -- what is not late when the transaction starts is not late when it is fed
  have hmoves : db'.growth.Kept ∧ db'.Levelled ∧
      ∀ date userId, fed date userId → ¬ db'.FedLate date userId := by
    induction hgrown with
    | refl => exact ⟨hkept, h, htimely⟩
    | same _ hsame ih =>
        obtain ⟨hkept, hlevelled, htimely⟩ := ih
        refine ⟨hkept.of_same hsame, hlevelled.same hsame, fun date userId hfed hlate => ?_⟩
        obtain ⟨roll, ⟨hrolled, hdrawn, hunfed, hbelow⟩, hlater⟩ := hlate
        rw [levelOf_same hsame] at hbelow
        obtain ⟨hrolls, -, -, hfeeds⟩ := hsame
        rw [hrolls] at hlater
        rw [hfeeds] at hunfed
        refine htimely date userId hfed ⟨roll, ⟨?_, hdrawn, hunfed, hbelow⟩, hlater⟩
        rw [← hrolled]
        unfold Db.dailyRoll?
        rw [hrolls]
    | draw _ roll hnone hquiet ih =>
        exact ⟨createDailyRoll_kept ih.1 hnone, ih.2.1.draw ih.1 hnone,
          fun date userId hfed => absurd hfed (hquiet date userId)⟩
    | @appear db₁ hmoves existing hmem version appearance hquiet ih =>
        exact ⟨(hmoves.appear existing hmem version appearance hquiet).kept hkept,
          ih.2.1.appear hmem version appearance, fun date userId hfed => absurd hfed (hquiet date userId)⟩
    | feed _ date userId sourceType sourceId hfed ih =>
        obtain ⟨hkept, hlevelled, htimely⟩ := ih
        exact ⟨applyDailyFeed_kept hkept date userId sourceType sourceId,
          hlevelled.feed hkept date userId sourceType sourceId (htimely date userId hfed),
          fun other userId' hother hlate => htimely other userId' hother
            (FedLate.before hkept date userId sourceType sourceId hlate)⟩
  exact hmoves.2.1

/-- A transaction keeps what was frozen, however late it feeds. -/
theorem Grown.frozen {fed : Date → String → Prop} (hgrown : Grown e fed db db')
    (hkept : db.growth.Kept) (h : db.Frozen) : db'.Frozen := by
  have hmoves : db'.growth.Kept ∧ db'.Frozen := by
    induction hgrown with
    | refl => exact ⟨hkept, h⟩
    | same _ hsame ih => exact ⟨ih.1.of_same hsame, ih.2.same hsame⟩
    | draw _ roll hnone _ ih => exact ⟨createDailyRoll_kept ih.1 hnone, ih.2.draw ih.1 hnone⟩
    | @appear db₁ hmoves existing hmem version appearance hquiet ih =>
        exact ⟨(hmoves.appear existing hmem version appearance hquiet).kept hkept,
          ih.2.appear hmem version appearance⟩
    | feed _ date userId sourceType sourceId _ ih =>
        exact ⟨applyDailyFeed_kept ih.1 date userId sourceType sourceId,
          ih.2.feed ih.1 date userId sourceType sourceId⟩
  exact hmoves.2

/-- The step feeds nobody late. -/
def Event.FeedsInTime (event : Event) (db : Db) : Prop :=
  ∀ date userId, event.feedsUser db date userId → ¬ db.FedLate date userId

/-- The service while no feed comes late. -/
def timelyFeeds : Transition.System World Event where
  init := service.init
  step w event w' := service.step w event w' ∧ event.FeedsInTime w.db

theorem timelyFeeds_reachable (h : Reachable timelyFeeds w) : Reachable service w := by
  obtain ⟨w₀, events, hinit, hrun⟩ := h
  refine ⟨w₀, events, hinit, ?_⟩
  induction hrun with
  | nil => exact Run.nil
  | snoc _ hstep ih => exact Run.snoc ih hstep.1

theorem Db.Frozen.empty : Db.Frozen {} := by
  constructor <;> simp

theorem levelled_of_timely (h : Reachable timelyFeeds w) : w.db.Levelled := by
  refine Reachable.invariant (I := fun w => w.db.Levelled) ?_ ?_ h
  · intro w hinit
    obtain rfl : w = {} := hinit
    exact ⟨.empty, by simp [Db.FeedsContained]⟩
  · intro w event w' hreach hlevelled hstep
    have hkept := growth_kept (timelyFeeds_reachable hreach)
    exact (step_grown hstep.1).levelled hkept hlevelled hstep.2

theorem frozen_of_reachable (h : Reachable service w) : w.db.Frozen := by
  refine Reachable.invariant (I := fun w => w.db.Frozen) ?_ ?_ h
  · intro w hinit
    obtain rfl : w = {} := hinit
    exact .empty
  · intro w event w' hreach hfrozen hstep
    exact (step_grown hstep).frozen (growth_kept hreach) hfrozen

/-! ### The profile -/

theorem latestFeed_some {req : DailyReportProfileRequest} {feed : UserDailyFeed}
    (h : latestFeed req userId db = some feed) :
    feed ∈ db.userDailyFeeds ∧ feed.userId = userId ∧ feed.dateStr ≤ req.dateStr := by
  unfold latestFeed at h
  dsimp only at h
  split at h
  · simp at h
  · rename_i date hmax
    have hkey := List.find?_some h
    simp only [decide_eq_true_eq] at hkey
    obtain ⟨row, hrow, hdate⟩ := List.mem_map.mp (List.max?_mem hmax)
    obtain ⟨-, hselected⟩ := List.mem_filter.mp hrow
    simp only [decide_eq_true_eq] at hselected
    refine ⟨List.mem_of_find?_eq_some h, hkey.1, ?_⟩
    rw [hkey.2, ← hdate]
    exact hselected.2.1

/-- The level shown for a roll: its own, or the one a feed raised it to. -/
theorem expertLevelFromRoll_own {roll : DailyRoll} {own : Int} (feedLevel : Option Int)
    (hcopies : roll.copiesAfterRoll.isSome = true) (hown : roll.expertLevelAfterRoll = some own)
    (hpos : 0 ≤ own) (hmax : own ≤ 5) (hfeed : ∀ level ∈ feedLevel, level ≤ 5) :
    expertLevelFromRoll (some roll) feedLevel = some (max own (feedLevel.getD own)) := by
  obtain ⟨copies, hcopies⟩ := Option.isSome_iff_exists.mp hcopies
  cases feedLevel with
  | none =>
      simp only [expertLevelFromRoll, hcopies, hown, Option.getD_none, Option.some.injEq]
      omega
  | some level =>
      have hle : level ≤ 5 := hfeed level rfl
      simp only [expertLevelFromRoll, hcopies, hown, Option.getD_some, Option.some.injEq]
      omega

theorem profileItem_level (date : Date) (userId : String) {rows : ProfileRows} {roll : DailyRoll}
    (hroll : rows.dailyRoll = some roll) (hpig : roll.pigId = rows.dailyPigId) :
    (profileItem date userId rows).dailyExLevel = expertLevelFromRoll (some roll)
      ((rows.feed.filter (matchingFeed rows.dailyPigId)).map (·.newLevel)) := by
  have hshown : rows.dailyRoll.filter (fun roll => roll.pigId = rows.dailyPigId) = some roll := by
    rw [hroll]
    simp [hpig]
  unfold profileItem
  rw [hshown]

/-- The time shown is that of the roll, or of a feed of the day that reached a higher level. -/
theorem profileItem_achieved (date : Date) (userId : String) {rows : ProfileRows} {roll : DailyRoll}
    {own : Int} (hroll : rows.dailyRoll = some roll) (hpig : roll.pigId = rows.dailyPigId)
    (hown : expertLevelFromRoll (some roll) none = some own) :
    (profileItem date userId rows).dailyAchievedAt =
      (rows.feed.filter (matchingFeed rows.dailyPigId)).elim (some roll.createdAt) fun feed =>
        if feed.dateStr = date ∧ own < feed.newLevel then some feed.createdAt
        else some roll.createdAt := by
  have hshown : rows.dailyRoll.filter (fun roll => roll.pigId = rows.dailyPigId) = some roll := by
    rw [hroll]
    simp [hpig]
  unfold profileItem
  rw [hshown]
  cases rows.feed.filter (matchingFeed rows.dailyPigId) <;> simp [hown]

/-- What is shown of a roll and its own level: the level is the roll's own or a higher one that
the latest feed reached, and the time is that of the roll, unless the feed is of the same day. -/
structure DailyReportProfileItem.Shows (item : DailyReportProfileItem)
    (req : DailyReportProfileRequest) (db : Db) (roll : DailyRoll) (own : Int) : Prop where
  level : ∃ level, item.dailyExLevel = some level ∧ own ≤ level
  drawn : item.dailyExLevel = some own → item.dailyAchievedAt = some roll.createdAt
  raised : ∀ level, item.dailyExLevel = some level → own < level →
    ∃ feed ∈ db.userDailyFeeds, latestFeed req item.userId db = some feed ∧
      feed.userId = item.userId ∧ feed.pigId = roll.pigId ∧ feed.dateStr ≤ req.dateStr ∧
        feed.newLevel = level ∧ item.dailyAchievedAt =
          some (if feed.dateStr = req.dateStr then feed.createdAt else roll.createdAt)

/-- The roll of a profile with the level it froze. -/
theorem Db.Frozen.reported (h : db.Frozen) {req : DailyReportProfileRequest} {roll : DailyRoll}
    (hroll : reportedRoll req userId db = some roll) :
    roll ∈ db.dailyRolls ∧ roll.dateStr = req.dateStr ∧ roll.userId = userId ∧
      roll.copiesAfterRoll.isSome = true ∧
        ∃ own, roll.expertLevelAfterRoll = some own ∧ 0 ≤ own ∧ own ≤ 5 := by
  have hmem : roll ∈ db.dailyRolls := List.mem_of_find?_eq_some hroll
  have hkey := List.find?_some hroll
  simp only [decide_eq_true_eq] at hkey
  obtain ⟨hcopies, own, hown, hpos, hle⟩ := h.rolls roll hmem
  exact ⟨hmem, hkey.1, hkey.2.1, hcopies, own, hown, hpos, hle.trans (expertLevel_bounds _ _).2⟩

theorem Db.Frozen.shows (h : db.Frozen) {req : DailyReportProfileRequest}
    {item : DailyReportProfileItem} (hitem : item ∈ getDailyReportProfiles req db)
    {roll : DailyRoll} (hroll : reportedRoll req item.userId db = some roll)
    (hpig : roll.pigId = item.dailyPigId) :
    ∃ own, roll.expertLevelAfterRoll = some own ∧ item.Shows req db roll own := by
  obtain ⟨userId, -, rfl⟩ := List.mem_map.mp hitem
  change reportedRoll req userId db = some roll at hroll
  change roll.pigId = groupPigId req userId db at hpig
  obtain ⟨-, -, -, hcopies, own, hown, hpos, hmax⟩ := h.reported hroll
  have hbase := expertLevelFromRoll_own none hcopies hown hpos hmax (by simp)
  rw [Option.getD_none, max_self] at hbase
  have hlevel : (profileItem req.dateStr userId (profileRows req userId db)).dailyExLevel =
      expertLevelFromRoll (some roll) (((latestFeed req userId db).filter
        (matchingFeed (groupPigId req userId db))).map (·.newLevel)) :=
    profileItem_level req.dateStr userId hroll hpig
  have htime := profileItem_achieved req.dateStr userId
    (show (profileRows req userId db).dailyRoll = some roll from hroll) hpig hbase
  change _ = Option.elim
    ((latestFeed req userId db).filter (matchingFeed (groupPigId req userId db))) _ _ at htime
  refine ⟨own, hown, ?_⟩
  cases hfeed : (latestFeed req userId db).filter (matchingFeed (groupPigId req userId db)) with
  | none =>
      rw [hfeed, Option.map_none, hbase] at hlevel
      rw [hfeed] at htime
      refine ⟨⟨own, hlevel, le_refl own⟩, fun _ => htime, fun level hsome hlt => ?_⟩
      obtain rfl := Option.some.inj (hlevel.symm.trans hsome)
      exact absurd hlt (Int.lt_irrefl _)
  | some feed =>
      obtain ⟨hlatest, hmatching⟩ := Option.filter_eq_some_iff.mp hfeed
      simp only [matchingFeed, decide_eq_true_eq] at hmatching
      obtain ⟨hfeedPig, -, -, hfeedMax⟩ := hmatching
      obtain ⟨hfeedMem, hfeedUser, hfeedDate⟩ := latestFeed_some hlatest
      have hraised := expertLevelFromRoll_own (some feed.newLevel) hcopies hown hpos hmax
        (by simpa using hfeedMax)
      rw [hfeed, Option.map_some, hraised, Option.getD_some] at hlevel
      rw [hfeed] at htime
      refine ⟨⟨_, hlevel, le_max_left _ _⟩, fun hsame => ?_, fun level hsome hlt => ?_⟩
      · have hmaxOwn : max own feed.newLevel = own := Option.some.inj (hlevel.symm.trans hsame)
        refine htime.trans (if_neg fun hhigher => ?_)
        exact absurd hhigher.2 (Int.not_lt.mpr (max_eq_left_iff.mp hmaxOwn))
      · obtain rfl := Option.some.inj (hlevel.symm.trans hsome)
        have hhigher : own < feed.newLevel := by omega
        refine ⟨feed, hfeedMem, hlatest, hfeedUser, hfeedPig.trans hpig.symm, hfeedDate,
          (max_eq_right hhigher.le).symm, htime.trans ?_⟩
        by_cases hday : feed.dateStr = req.dateStr
        · simp [hday, hhigher]
        · simp [hday]

/-- What is shown of a roll and its own level: the latest feed leaves the level alone if it
is of an earlier date, and a higher level comes with the time of the feed that reached it. -/
structure DailyReportProfileItem.Explains (item : DailyReportProfileItem)
    (req : DailyReportProfileRequest) (db : Db) (roll : DailyRoll) (own : Int) : Prop where
  earlier : ∀ feed, latestFeed req item.userId db = some feed → feed.dateStr < req.dateStr →
    item.dailyExLevel = some own
  achieved : ∀ level, item.dailyExLevel = some level → own < level →
    ∃ feed ∈ db.userDailyFeeds, feed.userId = item.userId ∧ feed.pigId = roll.pigId ∧
      feed.dateStr = req.dateStr ∧ feed.newLevel = level ∧
      item.dailyAchievedAt = some feed.createdAt

/-- Where no feed is missing in a roll, a feed of an earlier date raises nothing. -/
theorem Db.Levelled.explains (h : db.Levelled) {req : DailyReportProfileRequest}
    {item : DailyReportProfileItem} (hitem : item ∈ getDailyReportProfiles req db)
    {roll : DailyRoll} (hroll : reportedRoll req item.userId db = some roll)
    (hpig : roll.pigId = item.dailyPigId) :
    ∃ own, roll.expertLevelAfterRoll = some own ∧ item.Explains req db roll own := by
  obtain ⟨own, hown, hshows⟩ := h.toFrozen.shows hitem hroll hpig
  obtain ⟨hmem, hrollDate, hrollUser, -⟩ := h.toFrozen.reported hroll
  have hday : ∀ feed ∈ db.userDailyFeeds, feed.userId = item.userId → feed.pigId = roll.pigId →
      feed.dateStr ≤ req.dateStr → own < feed.newLevel → feed.dateStr = req.dateStr := by
    intro feed hfeed huser hsame hdate hhigher
    by_contra hne
    obtain ⟨level, hown', hcontained⟩ := h.contained feed hfeed roll hmem
      (huser.trans hrollUser.symm) hsame (hrollDate ▸ lt_of_le_of_ne hdate hne)
    obtain rfl := Option.some.inj (hown.symm.trans hown')
    exact absurd hhigher (Int.not_lt.mpr hcontained)
  refine ⟨own, hown, fun feed hlatest hearlier => ?_, fun level hlevel hlt => ?_⟩
  · obtain ⟨level, hlevel, hle⟩ := hshows.level
    rcases hle.eq_or_lt with rfl | hlt
    · exact hlevel
    · obtain ⟨feed', hfeed, hlatest', huser, hsame, hdate, rfl, -⟩ := hshows.raised level hlevel hlt
      obtain rfl := Option.some.inj (hlatest.symm.trans hlatest')
      exact absurd (hday feed hfeed huser hsame hdate hlt) (Int.ne_of_lt hearlier)
  · obtain ⟨feed, hfeed, -, huser, hsame, hdate, rfl, htime⟩ := hshows.raised level hlevel hlt
    have hthat := hday feed hfeed huser hsame hdate hlt
    exact ⟨feed, hfeed, huser, hsame, hthat, rfl, htime.trans (congrArg some (if_pos hthat))⟩

/-- **What a profile shows of the roll of the day.**  In every run its level is the roll's own
or the higher one of the latest feed, whose time is shown if it is of the same day; a feed of an
earlier date leaves the time of the roll.  While no feed comes late the rolls hold every feed
before them, so that a feed of an earlier date raises nothing and a higher level comes with the
time of its feed.  A feed that does come late is in no roll. -/
theorem profiles_explained (h : Reachable service w) :
    (∀ req, ∀ item ∈ getDailyReportProfiles req w.db, ∀ roll,
      reportedRoll req item.userId w.db = some roll → roll.pigId = item.dailyPigId →
        ∃ own, roll.expertLevelAfterRoll = some own ∧ item.Shows req w.db roll own) ∧
    (Reachable timelyFeeds w → w.db.FeedsContained ∧
      ∀ req, ∀ item ∈ getDailyReportProfiles req w.db, ∀ roll,
        reportedRoll req item.userId w.db = some roll → roll.pigId = item.dailyPigId →
          ∃ own, roll.expertLevelAfterRoll = some own ∧ item.Explains req w.db roll own) ∧
    ∀ e date userId sourceType sourceId, w.db.FedLate date userId →
      ¬ (applyDailyFeed e date userId sourceType sourceId w.db).2.FeedsContained := by
  have hfrozen := frozen_of_reachable h
  refine ⟨fun req item hitem roll hroll hpig => hfrozen.shows hitem hroll hpig, fun htimely => ?_,
    fun e date userId sourceType sourceId hlate =>
      applyDailyFeed_late hfrozen (growth_kept h) sourceType sourceId hlate⟩
  have hlevelled := levelled_of_timely htimely
  exact ⟨hlevelled.contained, fun req item hitem roll hroll hpig =>
    hlevelled.explains hitem hroll hpig⟩

/-! ### A feed that is settled after midnight -/

/-- User 1 rolls a boar for the day, with group 7 looking on. -/
def rollBoar (day : Date) : Request :=
  .getOrCreate { userId := "1", proposedPigId := "boar", dateStr := day, groupId := "7" }

/-- User 1 roasts user 2 on the day. -/
def roastOnDay (day : Date) : Request :=
  .createEvent { eventType := "success", attackerId := "1", targetId := "2", dateStr := some day,
                 settleDailyFeed := true, sourceId := "roast" }

/-- The roast of the first day is told after the roll of the second. -/
def afterMidnightScript : List (Time × Order) :=
  [(739000 * dayMicros, .request (rollBoar 739000)), (739000 * dayMicros, .finish 0),
    (739001 * dayMicros, .request (rollBoar 739001)), (739001 * dayMicros, .finish 0),
    (739001 * dayMicros + 1, .request (roastOnDay 739000))]

def midnightRoast : Env := scriptEnv 4 (739001 * dayMicros + 1)

def lateReport : DailyReportProfileRequest :=
  { dateStr := 739001, groupId := "7", cutoffAt := 739002 * dayMicros, userIds := ["1"] }

/-- The feed of the first day reaches level 2, the roll of the second holds level 1; the
profile of the second day shows level 2, at the time of the roll. -/
theorem late_feed_escapes :
    ∃ w, Reachable service w ∧ ¬ w.db.FeedsContained ∧
      w.db.dailyRolls.map (fun roll => (roll.dateStr, roll.expertLevelAfterRoll, roll.createdAt)) =
        [(739000, some 0, 739000 * dayMicros), (739001, some 1, 739001 * dayMicros)] ∧
      w.db.userDailyFeeds.map (fun feed => (feed.dateStr, feed.newLevel, feed.createdAt)) =
        [(739000, 2, 739001 * dayMicros + 1)] ∧
      (getDailyReportProfiles lateReport w.db).map
          (fun item => (item.dailyPigId, item.dailyExLevel, item.dailyAchievedAt)) =
        [("boar", some 2, some (739001 * dayMicros))] := by
  refine ⟨scriptWorld afterMidnightScript, script_reachable (by decide +kernel),
    fun hcontained => ?_, ?_⟩
  · unfold Db.FeedsContained at hcontained
    revert hcontained
    decide +kernel
  · decide +kernel

/-- The same requests in the order of their days. -/
def sameDayScript : List (Time × Order) :=
  [(739000 * dayMicros, .request (rollBoar 739000)),
    (739000 * dayMicros, .request (roastOnDay 739000)),
    (739001 * dayMicros, .request (rollBoar 739001))]

/-- The world in which the roast of the first day has not been told yet. -/
def untoldWorld : World := scriptWorld (afterMidnightScript.take 4)

/-- In order, the second roll holds the level the feed reached, and shows its own time.  Out of
order the profile shows what the late feed reached, which the second roll does not hold. -/
theorem profiles_explained_early :
    ((scriptWorld sameDayScript).db.FeedsContained ∧
      ∀ item ∈ getDailyReportProfiles lateReport (scriptWorld sameDayScript).db, ∀ roll,
        reportedRoll lateReport item.userId (scriptWorld sameDayScript).db = some roll →
          roll.pigId = item.dailyPigId → ∃ own, roll.expertLevelAfterRoll = some own ∧
            item.Explains lateReport (scriptWorld sameDayScript).db roll own) ∧
    (∃ item ∈ getDailyReportProfiles lateReport (scriptWorld afterMidnightScript).db, ∃ roll,
      item.dailyExLevel = some 2 ∧ item.dailyAchievedAt = some roll.createdAt ∧
        item.Shows lateReport (scriptWorld afterMidnightScript).db roll 1) ∧
    ¬ (applyDailyFeed midnightRoast 739000 "1" .roast "roast" untoldWorld.db).2.FeedsContained := by
  have hplayed : ∀ n, (play 0 {} (sameDayScript.take n)).isSome = true →
      ∀ now r, sameDayScript.take (n + 1) = sameDayScript.take n ++ [(now, .request r)] →
        (∀ date userId, r.feedsUser (scriptEnv (sameDayScript.take n).length now)
            (scriptWorld (sameDayScript.take n)).db date userId →
          ¬ (scriptWorld (sameDayScript.take n)).db.FedLate date userId) →
        Reachable timelyFeeds (scriptWorld (sameDayScript.take n)) →
          Reachable timelyFeeds (scriptWorld (sameDayScript.take (n + 1))) := by
    intro n hplay now r hnext htimely hreach
    rw [hnext, scriptWorld_snoc hplay]
    exact hreach.step ⟨script_step hplay now r, htimely⟩
  have hempty : Reachable timelyFeeds (scriptWorld (sameDayScript.take 0)) := Reachable.of_init rfl
  have hfirst := hplayed 0 (by decide +kernel) _ _ rfl (fun _ _ hfed => hfed.elim) hempty
  have hfed := hplayed 1 (by decide +kernel) _ _ rfl (by
    rintro date userId ⟨-, rfl, -⟩ ⟨roll, -, later, hlater, -, -, hlate⟩
    have hdates : ∀ roll ∈ (scriptWorld (sameDayScript.take 1)).db.dailyRolls,
        ¬ (739000 < roll.dateStr) := by decide +kernel
    exact hdates later hlater hlate) hfirst
  have hlast := hplayed 2 (by decide +kernel) _ _ rfl (fun _ _ hfed => hfed.elim) hfed
  obtain ⟨hcontained, hexplained⟩ :=
    (profiles_explained (script_reachable (by decide +kernel))).2.1 hlast
  refine ⟨⟨hcontained, hexplained lateReport⟩, ?_, ?_⟩
  · have hlate : Reachable service (scriptWorld afterMidnightScript) :=
      script_reachable (by decide +kernel)
    have hshown : ∃ item ∈ getDailyReportProfiles lateReport (scriptWorld afterMidnightScript).db,
        ∃ roll ∈ (scriptWorld afterMidnightScript).db.dailyRolls,
          reportedRoll lateReport item.userId (scriptWorld afterMidnightScript).db = some roll ∧
            roll.pigId = item.dailyPigId ∧ roll.expertLevelAfterRoll = some 1 ∧
              item.dailyExLevel = some 2 ∧ item.dailyAchievedAt = some roll.createdAt := by
      decide +kernel
    obtain ⟨item, hitem, roll, -, hroll, hpig, hfroze, hlevel, htime⟩ := hshown
    obtain ⟨own, hown, hshows⟩ := (profiles_explained hlate).1 lateReport item hitem roll hroll hpig
    obtain rfl := Option.some.inj (hown.symm.trans hfroze)
    exact ⟨item, hitem, roll, hlevel, htime, hshows⟩
  · have huntold : Reachable service untoldWorld := script_reachable (by decide +kernel)
    have hfeedable : ∃ roll ∈ untoldWorld.db.dailyRolls,
        untoldWorld.db.dailyRoll? 739000 "1" = some roll ∧ roll.isMakeup = false ∧
          levelOf untoldWorld.db "1" roll.pigId < maxExpertLevel ∧
            ∃ later ∈ untoldWorld.db.dailyRolls, later.userId = "1" ∧ later.pigId = roll.pigId ∧
              739000 < later.dateStr := by decide +kernel
    obtain ⟨roll, -, hrolled, hdrawn, hbelow, hlater⟩ := hfeedable
    have hunfed : ∀ feed ∈ untoldWorld.db.userDailyFeeds, feed.day ≠ (739000, "1") := by
      decide +kernel
    exact (profiles_explained huntold).2.2 midnightRoast 739000 "1" .roast "roast"
      ⟨roll, ⟨hrolled, hdrawn, hunfed, hbelow⟩, hlater⟩

end RollPig
