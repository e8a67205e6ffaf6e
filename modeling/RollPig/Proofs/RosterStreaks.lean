/-
The days in a row of a user on the daily roster.

A row carries the streak of its user, and takes it over from yesterday's row only.  As
long as the dates of the rosters do not go back, yesterday's row is final when today's is
written; so the rows of a group hold, for each date and user, the longest block of dates
on all of whose final rosters the user stands, and the level that goes with it.
-/
import RollPig.Streaks
import RollPig.Proofs.RowSteps

namespace RollPig

open Transition Streaks

variable {e : Env} {db db' : Db} {w w' w₀ : World} {event : Event} {events : List Event}
  {reqs : List ReplaceGroupProtectionsRequest} {req : ReplaceGroupProtectionsRequest}
  {date : Date} {groupId userId : String} {row : GroupProtection}

/-! ### The rosters of a group -/

/-- The roster the event replaces in the group. -/
def Event.replaces? (groupId : String) (event : Event) : Option ReplaceGroupProtectionsRequest :=
  match event.action with
  | .request (.replaceGroup req) _ => if req.groupId = groupId then some req else none
  | _ => none

/-- The rosters a group was given in a run, in order. -/
def rosterRequests (groupId : String) (events : List Event) : List ReplaceGroupProtectionsRequest :=
  events.filterMap (Event.replaces? groupId)

def requestsOn (date : Date) (reqs : List ReplaceGroupProtectionsRequest) :
    List ReplaceGroupProtectionsRequest :=
  reqs.filter fun req => req.protectDate = date

/-- The users on the last roster of a date. -/
def finalRoster (reqs : List ReplaceGroupProtectionsRequest) (date : Date) : List String :=
  match (requestsOn date reqs).getLast? with
  | some req => normalizedIds req.userIds
  | none => []

/-- The request put the user on the roster of the date, and the user stayed on it. -/
def LastAdds (userId : String) (reqs : List ReplaceGroupProtectionsRequest)
    (req : ReplaceGroupProtectionsRequest) : Prop :=
  ∃ before after, reqs = before ++ req :: after ∧
    (∀ later ∈ req :: after, userId ∈ normalizedIds later.userIds) ∧
    ∀ last, before.getLast? = some last → userId ∉ normalizedIds last.userIds

theorem requestsOn_snoc (date : Date) (reqs : List ReplaceGroupProtectionsRequest)
    (req : ReplaceGroupProtectionsRequest) :
    requestsOn date (reqs ++ [req]) =
      requestsOn date reqs ++ if req.protectDate = date then [req] else [] := by
  unfold requestsOn
  rw [List.filter_append]
  split_ifs with hdate <;> simp [hdate]

theorem finalRoster_snoc (reqs : List ReplaceGroupProtectionsRequest)
    (req : ReplaceGroupProtectionsRequest) (date : Date) :
    finalRoster (reqs ++ [req]) date =
      if req.protectDate = date then normalizedIds req.userIds else finalRoster reqs date := by
  unfold finalRoster
  rw [requestsOn_snoc]
  split_ifs with hdate
  · rw [List.getLast?_concat]
  · rw [List.append_nil]

theorem not_mem_finalRoster :
    userId ∉ finalRoster reqs date ↔
      ∀ last, (requestsOn date reqs).getLast? = some last →
        userId ∉ normalizedIds last.userIds := by
  unfold finalRoster
  cases (requestsOn date reqs).getLast? with
  | none => simp
  | some last => simp

/-- A date without a roster has nobody on it. -/
theorem finalRoster_later (h : ∀ req ∈ reqs, req.protectDate < date) :
    finalRoster reqs date = [] := by
  have hnone : requestsOn date reqs = [] := by
    unfold requestsOn
    rw [List.filter_eq_nil_iff]
    intro req hreq
    have hlt := h req hreq
    simpa using ne_of_lt hlt
  unfold finalRoster
  rw [hnone]
  rfl

theorem LastAdds.stays {adding : ReplaceGroupProtectionsRequest}
    (h : LastAdds userId reqs adding) (hin : userId ∈ normalizedIds req.userIds) :
    LastAdds userId (reqs ++ [req]) adding := by
  obtain ⟨before, after, rfl, hstays, hadds⟩ := h
  refine ⟨before, after ++ [req], by simp, fun later hlater => ?_, hadds⟩
  rw [← List.cons_append, List.mem_append, List.mem_singleton] at hlater
  rcases hlater with hold | rfl
  · exact hstays later hold
  · exact hin

theorem LastAdds.added (hout : ∀ last, reqs.getLast? = some last →
    userId ∉ normalizedIds last.userIds) (hin : userId ∈ normalizedIds req.userIds) :
    LastAdds userId (reqs ++ [req]) req :=
  ⟨reqs, [], rfl, fun _ hlater => List.mem_singleton.mp hlater ▸ hin, hout⟩

/-! ### What the rewrites do to the streak -/

theorem grantedRow_streak (req : GrantProtectionRequest) (row : GroupProtection) :
    (grantedRow req row).consecutiveDays = row.consecutiveDays ∧
      protectionSources (grantedRow req row) .daily = protectionSources row .daily := by
  refine ⟨rfl, ?_⟩
  unfold grantedRow
  dsimp only
  split_ifs <;> rfl

/-- Off the roster no streak is left. -/
theorem keptRow_streak {legacy : Option GroupProtection} {kept : GroupProtection}
    (h : keptRow row legacy = some kept) :
    kept.consecutiveDays = 0 ∧ protectionSources kept .daily = none := by
  have hstanding := keptRow_standing h .daily
  refine ⟨?_, by simpa [standing, keptStanding] using hstanding⟩
  unfold keptRow at h
  dsimp only at h
  split_ifs at h
  obtain rfl := Option.some.inj h
  rfl

/-- Who was not on the roster starts, or goes on from yesterday. -/
theorem dailyRow_streak (req : ReplaceGroupProtectionsRequest) (yesterday : Option GroupProtection)
    (userId : String) {start : Option GroupProtection}
    (hstart : ∀ row, start = some row → row.consecutiveDays = 0) :
    (dailyRow req yesterday userId start).consecutiveDays = previousDays yesterday + 1 ∧
      protectionSources (dailyRow req yesterday userId start) .daily =
        some (min 5 (req.initialLevel + (previousDays yesterday + 1) - 1)) := by
  have hdays : (if previousDays yesterday ≠ 0 then previousDays yesterday + 1 else 1) =
      previousDays yesterday + 1 := by
    split_ifs <;> omega
  rw [← hdays]
  cases start with
  | none => exact ⟨rfl, rfl⟩
  | some row =>
      have hfresh : isHistoricalDailyProtection row = false := by
        simp [isHistoricalDailyProtection, hstart row rfl]
      unfold dailyRow protectionSources
      simp only [hfresh]
      exact ⟨rfl, rfl⟩

/-! ### The rows of a group hold the streaks -/

/-- The row of a user on a date, as the rosters so far leave it. -/
inductive Tracked (reqs : List ReplaceGroupProtectionsRequest) (date : Date) (userId : String) :
    Option GroupProtection → Prop
  | absent (hout : userId ∉ finalRoster reqs date) : Tracked reqs date userId none
  | off (row : GroupProtection) (hout : userId ∉ finalRoster reqs date)
      (hdays : row.consecutiveDays = 0) (hdaily : protectionSources row .daily = none) :
      Tracked reqs date userId (some row)
  | on (row : GroupProtection) (hin : userId ∈ finalRoster reqs date)
      (hstreak : IsStreak (fun d => userId ∈ finalRoster reqs d) date row.consecutiveDays)
      (adding : ReplaceGroupProtectionsRequest)
      (hadds : LastAdds userId (requestsOn date reqs) adding)
      (hdaily : protectionSources row .daily =
        some (min 5 (adding.initialLevel + row.consecutiveDays - 1))) :
      Tracked reqs date userId (some row)

namespace Tracked

variable {stored : Option GroupProtection}

/-- A rewrite that leaves days and daily level alone. -/
theorem rewrite {row' : GroupProtection} (h : Tracked reqs date userId (some row))
    (hdays : row'.consecutiveDays = row.consecutiveDays)
    (hdaily : protectionSources row' .daily = protectionSources row .daily) :
    Tracked reqs date userId (some row') := by
  cases h with
  | off row hout hzero hnone => exact .off row' hout (hdays.trans hzero) (hdaily.trans hnone)
  | on row hin hstreak adding hadds hlevel =>
      exact .on row' hin (hdays ▸ hstreak) adding hadds (by rw [hdaily, hdays, hlevel])

/-- A first row, off the roster. -/
theorem fresh (h : Tracked reqs date userId none) (hdays : row.consecutiveDays = 0)
    (hdaily : protectionSources row .daily = none) : Tracked reqs date userId (some row) := by
  cases h with
  | absent hout => exact .off row hout hdays hdaily

/-- A roster of another date, not an earlier one, changes nothing here. -/
theorem other (h : Tracked reqs date userId stored)
    (hlate : ∀ r ∈ reqs, r.protectDate ≤ req.protectDate)
    (hdate : req.protectDate ≠ date) : Tracked (reqs ++ [req]) date userId stored := by
  have hroster : finalRoster (reqs ++ [req]) date = finalRoster reqs date := by
    rw [finalRoster_snoc, if_neg hdate]
  cases h with
  | absent hout => exact .absent (hroster ▸ hout)
  | off row hout hdays hdaily => exact .off row (hroster ▸ hout) hdays hdaily
  | on row hin hstreak adding hadds hdaily =>
      have hbefore : date < req.protectDate := by
        by_contra hnot
        have hnone : finalRoster reqs date = [] :=
          finalRoster_later fun r hr =>
            lt_of_le_of_lt (hlate r hr) (lt_of_le_of_ne (not_lt.mp hnot) hdate)
        rw [hnone] at hin
        exact absurd hin List.not_mem_nil
      refine .on row (hroster ▸ hin) (hstreak.congr fun d hd => ?_) adding ?_ hdaily
      · rw [finalRoster_snoc, if_neg (ne_of_gt (lt_of_le_of_lt hd hbefore))]
      · rw [requestsOn_snoc, if_neg hdate, List.append_nil]
        exact hadds

/-- The streak yesterday's row hands on is yesterday's. -/
theorem previous (h : Tracked reqs date userId stored) :
    IsStreak (fun d => userId ∈ finalRoster reqs d) date (previousDays stored) := by
  cases h with
  | absent hout => exact IsStreak.none hout
  | off row hout hdays _ =>
      show IsStreak _ date row.consecutiveDays
      rw [hdays]
      exact IsStreak.none hout
  | on row hin hstreak _ _ _ => exact hstreak

end Tracked

/-- The row a user off the roster starts from has no streak and no daily level. -/
theorem startingRow_off (req : ReplaceGroupProtectionsRequest) (db : Db) (userId : String)
    (hown : ∀ row, db.protection? req.protectDate req.groupId userId = some row →
      row.consecutiveDays = 0 ∧ protectionSources row .daily = none) {start : GroupProtection}
    (h : startingRow req db userId = some start) :
    start.consecutiveDays = 0 ∧ protectionSources start .daily = none := by
  unfold startingRow at h
  cases hrow : db.protection? req.protectDate req.groupId userId with
  | some row =>
      rw [hrow] at h
      obtain rfl := Option.some.inj h
      exact hown row hrow
  | none =>
      rw [hrow] at h
      obtain ⟨legacy, -, rfl⟩ := Option.map_eq_some_iff.mp h
      exact ⟨rfl, rfl⟩

theorem listedRow_off (req : ReplaceGroupProtectionsRequest) (yesterday : Option GroupProtection)
    (userId : String) {start : Option GroupProtection}
    (hstart : ∀ row, start = some row → protectionSources row .daily = none) :
    listedRow req yesterday userId start = dailyRow req yesterday userId start := by
  cases start with
  | none => rfl
  | some row => simp [listedRow, hstart row rfl]

/-- **A new roster carries the streaks on.** -/
theorem Tracked.replaced
    (h : ∀ date userId, Tracked reqs date userId (db.rowAt (date, req.groupId, userId)))
    (userId : String) :
    Tracked (reqs ++ [req]) req.protectDate userId (rosterRow req db userId) := by
  have hroster : finalRoster (reqs ++ [req]) req.protectDate = normalizedIds req.userIds := by
    rw [finalRoster_snoc, if_pos rfl]
  have hbefore : ∀ d < req.protectDate,
      (userId ∈ finalRoster reqs d ↔ userId ∈ finalRoster (reqs ++ [req]) d) := by
    intro d hd
    rw [finalRoster_snoc, if_neg (ne_of_gt hd)]
  have hrow := h req.protectDate userId
  rw [← rowAt_eq] at hrow
  unfold rosterRow
  by_cases huser : userId ∈ normalizedIds req.userIds
  · rw [if_pos huser]
    have hin : userId ∈ finalRoster (reqs ++ [req]) req.protectDate := hroster ▸ huser
    by_cases hon : userId ∈ finalRoster reqs req.protectDate
    · -- the row has its daily source already, and is left as it is
      generalize hstored : db.protection? req.protectDate req.groupId userId = stored at hrow
      cases hrow with
      | absent hout => exact absurd hon hout
      | off row hout _ _ => exact absurd hon hout
      | on row _ hstreak adding hadds hdaily =>
          have hsame : listedRow req (db.protection? (req.protectDate - 1) req.groupId userId) userId
              (startingRow req db userId) = row := by
            simp [startingRow, hstored, listedRow, hdaily]
          rw [hsame]
          refine .on row hin (hstreak.congr fun d hd => ?_) adding ?_ hdaily
          · rcases lt_or_eq_of_le hd with hlt | rfl
            · exact hbefore d hlt
            · exact iff_of_true hon hin
          · rw [requestsOn_snoc, if_pos rfl]
            exact hadds.stays huser
    · have hown : ∀ row, db.protection? req.protectDate req.groupId userId = some row →
          row.consecutiveDays = 0 ∧ protectionSources row .daily = none := by
        intro row hstored
        rw [hstored] at hrow
        cases hrow with
        | off _ _ hdays hdaily => exact ⟨hdays, hdaily⟩
        | on _ hmem _ _ _ _ => exact absurd hmem hon
      have hstart := fun start => @startingRow_off req db userId hown start
      rw [listedRow_off req _ userId fun start hs => (hstart start hs).2]
      obtain ⟨hdays, hdaily⟩ := dailyRow_streak req
        (db.protection? (req.protectDate - 1) req.groupId userId) userId
        fun start hs => (hstart start hs).1
      have hyesterday := (h (req.protectDate - 1) userId).previous
      rw [← rowAt_eq] at hyesterday
      have hcarried := hyesterday.congr fun d hd =>
        hbefore d (lt_of_le_of_lt hd (Int.sub_lt_self _ Int.one_pos))
      refine .on _ hin ?_ req ?_ (by rw [hdays]; exact hdaily)
      · rw [hdays]
        exact hcarried.next hin
      · rw [requestsOn_snoc, if_pos rfl]
        exact LastAdds.added (not_mem_finalRoster.mp hon) huser
  · rw [if_neg huser]
    have hout : userId ∉ finalRoster (reqs ++ [req]) req.protectDate := hroster ▸ huser
    cases hkept : (db.protection? req.protectDate req.groupId userId).bind fun row =>
        keptRow row (globalProtection? db req.protectDate req.groupId userId) with
    | none => exact .absent hout
    | some kept =>
        obtain ⟨row, -, hkept⟩ := Option.bind_eq_some_iff.mp hkept
        obtain ⟨hdays, hdaily⟩ := keptRow_streak hkept
        exact .off kept hout hdays hdaily

/-! ### Runs -/

theorem replaces?_eq_some :
    event.replaces? groupId = some req ↔
      ∃ view, event.action = .request (.replaceGroup req) view ∧ req.groupId = groupId := by
  unfold Event.replaces?
  constructor
  · intro h
    split at h
    · rename_i other view haction
      split_ifs at h with hgroup
      obtain rfl := Option.some.inj h
      exact ⟨view, haction, hgroup⟩
    · exact absurd h (by simp)
  · rintro ⟨view, haction, rfl⟩
    simp [haction]

theorem rosterRequests_snoc (groupId : String) (events : List Event) (event : Event) :
    rosterRequests groupId (events ++ [event]) =
      rosterRequests groupId events ++ (event.replaces? groupId).toList := by
  unfold rosterRequests
  rw [List.filterMap_append]
  cases hreplaces : event.replaces? groupId <;> simp [hreplaces]

/-- Every step keeps the rows of the group on the track of its rosters. -/
theorem tracked_step (hunique : Tables.Unique protectionKey w.db.groupProtections)
    (hstep : service.step w event w')
    (h : ∀ date userId, Tracked reqs date userId (w.db.rowAt (date, groupId, userId)))
    (hlate : ∀ req, event.replaces? groupId = some req →
      ∀ r ∈ reqs, r.protectDate ≤ req.protectDate) (date : Date) (userId : String) :
    Tracked (reqs ++ (event.replaces? groupId).toList) date userId
      (w'.db.rowAt (date, groupId, userId)) := by
  have hrow := h date userId
  rcases step_rowAt hunique hstep (date, groupId, userId) with
    ⟨r, view, haction, hchange⟩ | ⟨⟨flight, haction⟩, hsame⟩
  · -- a roster of another date or group leaves the row to the rosters before it
    have hshift : ∀ stored, ¬ r.replaces (date, groupId, userId) →
        Tracked reqs date userId stored →
          Tracked (reqs ++ (event.replaces? groupId).toList) date userId stored := by
      intro stored hother htracked
      cases hreplaces : event.replaces? groupId with
      | none => simpa using htracked
      | some req =>
          obtain ⟨view', haction', hgroup⟩ := replaces?_eq_some.mp hreplaces
          rw [haction] at haction'
          obtain ⟨rfl, -⟩ := Action.request.inj haction'
          exact htracked.other (hlate req hreplaces) fun hdate => hother ⟨req, rfl, hdate, hgroup⟩
    generalize w'.db.rowAt (date, groupId, userId) = stored at hchange ⊢
    cases hchange with
    | same haside => exact hshift _ haside.replaces hrow
    | granted grant hrequest hkey _ =>
        refine hshift _ (by rintro ⟨_, hother, -⟩; simp [hrequest] at hother) ?_
        obtain ⟨rfl, rfl, rfl⟩ : grant.protectDate = date ∧ grant.groupId = groupId ∧
            grant.userId = userId := by simpa using hkey
        rw [← rowAt_eq] at hrow
        unfold ownOrInherited
        cases hown : w.db.protection? grant.protectDate grant.groupId grant.userId with
        | some row =>
            rw [hown] at hrow
            obtain ⟨hdays, hdaily⟩ := grantedRow_streak grant row
            exact hrow.rewrite hdays hdaily
        | none =>
            rw [hown] at hrow
            cases w.db.protection? grant.protectDate allGroups grant.userId with
            | none => exact hrow.fresh rfl rfl
            | some legacy =>
                obtain ⟨hdays, hdaily⟩ :=
                  grantedRow_streak grant (inheritGlobalProtection legacy grant.groupId)
                exact hrow.fresh hdays hdaily
    | replaced req hrequest hdate hgroup =>
        subst hrequest hdate hgroup
        have hreplaces : event.replaces? req.groupId = some req :=
          replaces?_eq_some.mpr ⟨view, haction, rfl⟩
        rw [hreplaces]
        exact Tracked.replaced h userId
    | inherited legacy hopens _ hnone =>
        rw [hnone] at hrow
        refine hshift _ ?_ (hrow.fresh rfl rfl)
        rintro ⟨_, hother, -⟩
        simp [hother, Request.opens] at hopens
    | counted row hstored hscores =>
        refine hshift _ ?_ ?_
        · rintro ⟨_, hother, -⟩
          obtain ⟨_, _, houtcome, -⟩ := hscores
          simp [houtcome] at hother
        · rw [hstored] at hrow
          exact hrow.rewrite rfl rfl
  · have hnone : event.replaces? groupId = none := by
      unfold Event.replaces?
      rw [haction]
    rw [hsame, hnone, Option.toList_none, List.append_nil]
    exact hrow

/-- The rows of the group follow its rosters, as long as their dates do not go back. -/
theorem tracked_run (hsound : w₀.Sound)
    (hunique : Tables.Unique protectionKey w₀.db.groupProtections)
    (hnone : ∀ row ∈ w₀.db.groupProtections, row.groupId ≠ groupId)
    (hrun : Run service w₀ events w)
    (horder : (rosterRequests groupId events).Pairwise fun a b => a.protectDate ≤ b.protectDate) :
    ∀ date userId,
      Tracked (rosterRequests groupId events) date userId (w.db.rowAt (date, groupId, userId)) := by
  have hinvariant : w.Sound ∧ Tables.Unique protectionKey w.db.groupProtections ∧
      ∀ date userId,
        Tracked (rosterRequests groupId events) date userId (w.db.rowAt (date, groupId, userId)) := by
    induction hrun with
    | nil =>
        refine ⟨hsound, hunique, fun date userId => ?_⟩
        have hfree : w₀.db.rowAt (date, groupId, userId) = none := by
          refine Tables.lookup_none.mpr fun hmem => ?_
          obtain ⟨row, hrow, hkey⟩ := List.mem_map.mp hmem
          exact hnone row hrow (congrArg (·.2.1) hkey)
        rw [hfree]
        exact .absent List.not_mem_nil
    | snoc _ hstep ih =>
        rw [rosterRequests_snoc, List.pairwise_append] at horder
        obtain ⟨hbefore, -, hlate⟩ := horder
        obtain ⟨hsound, hunique, htracked⟩ := ih hbefore
        refine ⟨hsound.step hstep, hsound.step_protections hunique hstep, ?_⟩
        rw [rosterRequests_snoc]
        refine tracked_step hunique hstep htracked fun req hreq r hr => ?_
        exact hlate r hr req (by simp [hreq])
  exact hinvariant.2.2

/-- **The streaks of a group**: a user on the final roster of a date has the longest block of
dates ending there on all of whose final rosters the user stands, and the daily level that
goes with it; a row off the roster has no days. -/
theorem roster_streaks (hsound : w₀.Sound)
    (hunique : Tables.Unique protectionKey w₀.db.groupProtections)
    (hnone : ∀ row ∈ w₀.db.groupProtections, row.groupId ≠ groupId)
    (hrun : Run service w₀ events w)
    (horder : (rosterRequests groupId events).Pairwise fun a b => a.protectDate ≤ b.protectDate)
    (date : Date) (userId : String) :
    (userId ∈ finalRoster (rosterRequests groupId events) date →
      ∃ row, w.db.protection? date groupId userId = some row ∧
        IsGreatest {n : Nat | ∀ i : Nat, i < n →
          userId ∈ finalRoster (rosterRequests groupId events) (date - i)} row.consecutiveDays ∧
        ∃ adding, LastAdds userId (requestsOn date (rosterRequests groupId events)) adding ∧
          protectionSources row .daily =
            some (min 5 (adding.initialLevel + row.consecutiveDays - 1))) ∧
    (userId ∉ finalRoster (rosterRequests groupId events) date →
      ∀ row, w.db.protection? date groupId userId = some row → row.consecutiveDays = 0) := by
  have htracked := tracked_run hsound hunique hnone hrun horder date userId
  rw [← rowAt_eq] at htracked
  constructor
  · intro hin
    generalize w.db.protection? date groupId userId = stored at htracked
    cases htracked with
    | absent hout => exact absurd hin hout
    | off _ hout _ _ => exact absurd hin hout
    | on row _ hstreak adding hadds hdaily => exact ⟨row, rfl, hstreak, adding, hadds, hdaily⟩
  · intro hout row hrow
    rw [hrow] at htracked
    cases htracked with
    | off _ _ hdays _ => exact hdays
    | on _ hin _ _ _ _ => exact absurd hin hout

/-- User 2 is put on the roster of group 7, taken off and put on again, granted a protection,
and put on the roster of the next day. -/
def streakScript : List (Time × Order) :=
  [(739000 * dayMicros, .request (.replaceGroup (scriptRoster "7" ["2"] 4))),
    (739000 * dayMicros, .request (.replaceGroup (scriptRoster "7" [] 4))),
    (739000 * dayMicros, .request (.replaceGroup (scriptRoster "7" ["1", "2"] 3))),
    (739000 * dayMicros, .request (.grant scriptGrant)),
    (739001 * dayMicros, .request (.replaceGroup
      { scriptRoster "7" ["2"] 2 with protectDate := 739001 }))]

theorem roster_streaks_readded :
    ∃ row, (scriptWorld streakScript).db.protection? 739001 "7" "2" = some row ∧
      IsGreatest {n : Nat | ∀ i : Nat, i < n →
        "2" ∈ finalRoster (rosterRequests "7" (scriptEvents streakScript)) (739001 - i)}
        row.consecutiveDays ∧ row.consecutiveDays = 2 ∧
      protectionSources row .daily = some 3 := by
  have hplayed : (play 0 {} streakScript).isSome = true := by decide +kernel
  have hstart : Reachable service {} := Reachable.of_init rfl
  have horder : (rosterRequests "7" (scriptEvents streakScript)).Pairwise
      fun a b => a.protectDate ≤ b.protectDate := by decide +kernel
  have hin : "2" ∈ finalRoster (rosterRequests "7" (scriptEvents streakScript)) 739001 := by
    decide +kernel
  obtain ⟨row, hrow, hlongest, -⟩ := (roster_streaks (sound_of_reachable hstart)
    (protections_unique hstart) (by simp) (script_run hplayed) horder 739001 "2").1 hin
  refine ⟨row, hrow, hlongest, ?_⟩
  have hstored : ((scriptWorld streakScript).db.protection? 739001 "7" "2").map (fun row =>
      (row.consecutiveDays, protectionSources row .daily)) = some (2, some 3) := by decide +kernel
  rw [hrow] at hstored
  exact Prod.mk.inj (Option.some.inj hstored)

end RollPig
