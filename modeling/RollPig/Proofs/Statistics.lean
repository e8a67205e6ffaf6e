/-
What the roast statistics count.

A user is counted once for every event that roasts it, an identified event once however often
it is delivered, and once for each date, group and kind of its special punishments.  This is
a count over sets, so that neither the order of the list nor a repeated delivery matters; the
loop's two sets are the keys met so far.
-/
import RollPig.Services.RoastStatistics
import Mathlib.Data.Finset.Card

namespace RollPig

variable {events events' : List RoastMapping} {event : RoastMapping} {v : String}

/-! ### Counting without an order -/

/-- Two deliveries of one identified event are identical. -/
def Consistent (events : List RoastMapping) : Prop :=
  ∀ event ∈ events, ∀ event' ∈ events, event.id ≠ "" → event.key = event'.key → event = event'

/-- An ordinary event that roasts the user. -/
def RoastMapping.Roasts (event : RoastMapping) (v : String) : Prop :=
  event.specialKind = none ∧ v ∈ event.victims

instance : Decidable (Consistent events) := by
  unfold Consistent
  infer_instance

instance : Decidable (event.Roasts v) := inferInstanceAs (Decidable (_ ∧ _))

/-- The identified ordinary events that roast the user, by their keys. -/
def identifiedRoasts (events : List RoastMapping) (v : String) : Finset (String × String) :=
  ((events.filter fun event => event.id ≠ "" ∧ event.Roasts v).map (·.key)).toFinset

/-- The number of the ordinary events without an id that roast the user. -/
def anonymousRoasts (events : List RoastMapping) (v : String) : Nat :=
  events.countP fun event => event.id = "" ∧ event.Roasts v

/-- What a special punishment of the user is counted under. -/
def RoastMapping.punishment (event : RoastMapping) (v : String) :
    Option (String × String × SpecialKind) :=
  if v ∈ event.victims then event.specialKind.map fun kind => (event.date, event.group, kind)
  else none

/-- The special punishments of the user. -/
def punishments (events : List RoastMapping) (v : String) :
    Finset (String × String × SpecialKind) :=
  (events.filterMap (·.punishment v)).toFinset

/-- How often the user was roasted. -/
def roasts (events : List RoastMapping) (v : String) : Nat :=
  (identifiedRoasts events v).card + anonymousRoasts events v + (punishments events v).card

theorem mem_identifiedRoasts {key : String × String} :
    key ∈ identifiedRoasts events v ↔
      ∃ event ∈ events, event.id ≠ "" ∧ event.Roasts v ∧ event.key = key := by
  simp [identifiedRoasts, and_assoc]

theorem mem_punishments {p : String × String × SpecialKind} :
    p ∈ punishments events v ↔ ∃ event ∈ events, event.punishment v = some p := by
  simp [punishments]

theorem RoastMapping.punishment_eq_some {date group : String} {kind : SpecialKind} :
    event.punishment v = some (date, group, kind) ↔
      v ∈ event.victims ∧ event.specialKind = some kind ∧ event.date = date ∧
        event.group = group := by
  unfold RoastMapping.punishment
  split
  · rename_i hv
    cases hkind : event.specialKind with
    | none => simp
    | some found =>
        simp only [hv, Option.map_some, Option.some.injEq, Prod.mk.injEq, true_and]
        tauto
  · rename_i hv
    simp [hv]

/-- The events without an id. -/
def anonymousEvents (events : List RoastMapping) : List RoastMapping :=
  events.filter fun event => event.id = ""

/-- Lists that differ in the order and in repeated deliveries of identified events. -/
structure SameDeliveries (events events' : List RoastMapping) : Prop where
  anonymous : (anonymousEvents events).Perm (anonymousEvents events')
  identified : ∀ event, event.id ≠ "" → (event ∈ events ↔ event ∈ events')

theorem SameDeliveries.mem (h : SameDeliveries events events') : event ∈ events ↔ event ∈ events' := by
  by_cases hid : event.id = ""
  · have hmem := h.anonymous.mem_iff (a := event)
    simpa [anonymousEvents, hid] using hmem
  · exact h.identified event hid

theorem anonymousRoasts_eq (events : List RoastMapping) (v : String) :
    anonymousRoasts events v = (anonymousEvents events).countP fun event => event.Roasts v := by
  unfold anonymousRoasts anonymousEvents
  rw [List.countP_filter]
  refine List.countP_congr fun event _ => ?_
  simp [and_comm]

/-- **Neither the order nor a repeated delivery changes the count.** -/
theorem SameDeliveries.roasts (h : SameDeliveries events events') (v : String) :
    roasts events v = roasts events' v := by
  have hidentified : identifiedRoasts events v = identifiedRoasts events' v := by
    ext key
    simp only [mem_identifiedRoasts, h.mem]
  have hpunishments : punishments events v = punishments events' v := by
    ext p
    simp only [mem_punishments, h.mem]
  have hanonymous : anonymousRoasts events v = anonymousRoasts events' v := by
    rw [anonymousRoasts_eq, anonymousRoasts_eq]
    exact h.anonymous.countP_eq _
  unfold RollPig.roasts
  rw [hidentified, hpunishments, hanonymous]

theorem SameDeliveries.of_perm (h : events.Perm events') : SameDeliveries events events' where
  anonymous := h.filter _
  identified _ _ := h.mem_iff

/-- A repeated delivery. -/
theorem SameDeliveries.repeat (hmem : event ∈ events) (hid : event.id ≠ "") :
    SameDeliveries (events ++ [event]) events where
  anonymous := by simp [anonymousEvents, List.filter_append, hid]
  identified x _ := by
    rw [List.mem_append, List.mem_singleton]
    constructor
    · rintro (hthere | rfl)
      · exact hthere
      · exact hmem
    · exact Or.inl

/-! ### One more event -/

/-- An event that nothing was counted for yet. -/
theorem identifiedRoasts_snoc (hfresh : ∀ x ∈ events, event.id ≠ "" → x.key ≠ event.key) (v : String) :
    (identifiedRoasts (events ++ [event]) v).card =
      (identifiedRoasts events v).card + if event.id ≠ "" ∧ event.Roasts v then 1 else 0 := by
  by_cases hroasts : event.id ≠ "" ∧ event.Roasts v
  · have hnew : event.key ∉ identifiedRoasts events v := by
      intro hmem
      obtain ⟨x, hx, -, -, hkey⟩ := mem_identifiedRoasts.mp hmem
      exact hfresh x hx hroasts.1 hkey
    have hset : identifiedRoasts (events ++ [event]) v =
        insert event.key (identifiedRoasts events v) := by
      ext key
      simp only [Finset.mem_insert, mem_identifiedRoasts, List.mem_append, List.mem_singleton,
        or_and_right, exists_or, exists_eq_left]
      have hlast : event.id ≠ "" ∧ event.Roasts v ∧ event.key = key ↔ key = event.key :=
        ⟨fun h => h.2.2.symm, fun h => ⟨hroasts.1, hroasts.2, h.symm⟩⟩
      rw [hlast, or_comm]
    rw [hset, Finset.card_insert_of_notMem hnew, if_pos hroasts]
  · have hset : identifiedRoasts (events ++ [event]) v = identifiedRoasts events v := by
      ext key
      simp only [mem_identifiedRoasts, List.mem_append, List.mem_singleton, or_and_right,
        exists_or, exists_eq_left]
      exact or_iff_left fun h => hroasts ⟨h.1, h.2.1⟩
    rw [hset, if_neg hroasts, Nat.add_zero]

theorem anonymousRoasts_snoc (events : List RoastMapping) (event : RoastMapping) (v : String) :
    anonymousRoasts (events ++ [event]) v =
      anonymousRoasts events v + if event.id = "" ∧ event.Roasts v then 1 else 0 := by
  unfold anonymousRoasts
  rw [List.countP_append, List.countP_singleton]
  simp

theorem punishments_snoc (events : List RoastMapping) (event : RoastMapping) (v : String) :
    (punishments (events ++ [event]) v).card = (punishments events v).card +
      if ∃ p, event.punishment v = some p ∧ p ∉ punishments events v then 1 else 0 := by
  have hmem : ∀ q, q ∈ punishments (events ++ [event]) v ↔
      q ∈ punishments events v ∨ event.punishment v = some q := by
    intro q
    simp only [mem_punishments, List.mem_append, List.mem_singleton, or_and_right, exists_or,
      exists_eq_left]
  by_cases hnew : ∃ p, event.punishment v = some p ∧ p ∉ punishments events v
  · obtain ⟨p, hp, hfresh⟩ := hnew
    have hset : punishments (events ++ [event]) v = insert p (punishments events v) := by
      ext q
      rw [hmem, Finset.mem_insert, hp, Option.some.injEq, eq_comm, or_comm]
    rw [hset, Finset.card_insert_of_notMem hfresh, if_pos ⟨p, hp, hfresh⟩]
  · have hset : punishments (events ++ [event]) v = punishments events v := by
      ext q
      rw [hmem]
      refine or_iff_left_of_imp fun hq => ?_
      by_contra hout
      exact hnew ⟨q, hq, hout⟩
    rw [hset, if_neg hnew, Nat.add_zero]

theorem roasts_snoc (hfresh : ∀ x ∈ events, event.id ≠ "" → x.key ≠ event.key) (v : String) :
    roasts (events ++ [event]) v = roasts events v + (if event.Roasts v then 1 else 0) +
      if ∃ p, event.punishment v = some p ∧ p ∉ punishments events v then 1 else 0 := by
  have hordinary : (if event.id ≠ "" ∧ event.Roasts v then 1 else 0) +
      (if event.id = "" ∧ event.Roasts v then 1 else 0) = if event.Roasts v then 1 else 0 := by
    by_cases hid : event.id = "" <;> simp [hid]
  unfold roasts
  rw [identifiedRoasts_snoc hfresh, anonymousRoasts_snoc, punishments_snoc]
  omega

/-! ### The loop -/

variable {s : RoastCounts}

/-- The special punishment of a victim was counted before. -/
def RoastCounts.Punished (s : RoastCounts) (event : RoastMapping) (v : String) : Prop :=
  ∃ kind, event.specialKind = some kind ∧ (event.date, event.group, v, kind) ∈ s.specialSeen

/-- What the loop over the victims of an event does. -/
structure VictimsCounted (event : RoastMapping) (victims : List String) (s s' : RoastCounts) :
    Prop where
  seen : s'.eventSeen = s.eventSeen
  special : ∀ date group v kind, (date, group, v, kind) ∈ s'.specialSeen ↔
    (date, group, v, kind) ∈ s.specialSeen ∨
      (v ∈ victims ∧ event.specialKind = some kind ∧ event.date = date ∧ event.group = group)
  raised : ∀ v ∈ victims, ¬ s.Punished event v → s'.counts v = s.counts v + 1
  kept : ∀ v, v ∉ victims ∨ s.Punished event v → s'.counts v = s.counts v

theorem countVictim_counted (event : RoastMapping) (s : RoastCounts) (victim : String) :
    VictimsCounted event [victim] s (countVictim event s victim) := by
  unfold countVictim
  cases hkind : event.specialKind with
  | none =>
      refine ⟨rfl, by simp [hkind, RoastCounts.raise], ?_, ?_⟩
      · intro v hv _
        obtain rfl := List.mem_singleton.mp hv
        exact if_pos rfl
      · rintro v (hv | ⟨kind, hsome, _⟩)
        · exact if_neg fun heq => hv (List.mem_singleton.mpr heq)
        · rw [hkind] at hsome
          cases hsome
  | some kind =>
      dsimp only
      split
      · rename_i hseen
        refine ⟨rfl, ?_, ?_, fun _ _ => rfl⟩
        · intro date group v found
          refine (or_iff_left_of_imp ?_).symm
          rintro ⟨hv, hfound, rfl, rfl⟩
          obtain rfl := List.mem_singleton.mp hv
          obtain rfl : kind = found := Option.some.inj (hkind.symm.trans hfound)
          exact hseen
        · intro v hv hnew
          obtain rfl := List.mem_singleton.mp hv
          exact absurd ⟨kind, hkind, hseen⟩ hnew
      · rename_i hnew
        refine ⟨rfl, ?_, ?_, ?_⟩
        · intro date group v found
          simp only [RoastCounts.raise, List.mem_cons, Prod.mk.injEq, hkind, Option.some.injEq]
          tauto
        · intro v hv _
          obtain rfl := List.mem_singleton.mp hv
          exact if_pos rfl
        · rintro v (hv | ⟨found, hfound, hseen⟩)
          · exact if_neg fun heq => hv (List.mem_singleton.mpr heq)
          · obtain rfl : kind = found := Option.some.inj (hkind.symm.trans hfound)
            refine if_neg fun heq => hnew ?_
            rw [← heq]
            exact hseen

theorem victims_counted (event : RoastMapping) {victims : List String} (hnodup : victims.Nodup)
    (s : RoastCounts) : VictimsCounted event victims s (victims.foldl (countVictim event) s) := by
  induction victims using List.reverseRecOn with
  | nil => exact ⟨rfl, by simp, by simp, fun _ _ => rfl⟩
  | append_singleton init victim ih =>
      rw [List.nodup_append] at hnodup
      obtain ⟨hinit, -, hdistinct⟩ := hnodup
      have hbefore := ih hinit
      have hlast := countVictim_counted event (init.foldl (countVictim event) s) victim
      rw [List.foldl_append, List.foldl_cons, List.foldl_nil]
      have hpunished : ∀ v, v ∉ init →
          ((init.foldl (countVictim event) s).Punished event v ↔ s.Punished event v) := by
        intro v hv
        unfold RoastCounts.Punished
        simp only [hbefore.special, hv, false_and, or_false]
      refine ⟨hlast.seen.trans hbefore.seen, ?_, ?_, ?_⟩
      · intro date group v kind
        rw [hlast.special, hbefore.special, List.mem_append]
        tauto
      · intro v hv hnew
        rcases List.mem_append.mp hv with hthere | hhere
        · have hout : v ∉ [victim] := fun h => hdistinct v hthere victim (by simp) (List.mem_singleton.mp h)
          rw [hlast.kept v (Or.inl hout), hbefore.raised v hthere hnew]
        · obtain rfl := List.mem_singleton.mp hhere
          have hout : v ∉ init := fun h => hdistinct v h v (by simp) rfl
          rw [hlast.raised v hhere ((hpunished v hout).not.mpr hnew), hbefore.kept v (Or.inl hout)]
      · intro v hkept
        have hout : v ∉ [victim] ∨ (init.foldl (countVictim event) s).Punished event v := by
          rcases hkept with hv | hseen
          · exact Or.inl fun h => hv (List.mem_append_right _ h)
          · obtain ⟨kind, hkind, hmem⟩ := hseen
            exact Or.inr ⟨kind, hkind, (hbefore.special _ _ _ _).mpr (Or.inl hmem)⟩
        rw [hlast.kept v hout]
        refine hbefore.kept v (hkept.imp_left fun hv h => hv (List.mem_append_left _ h))

/-- What the variables of the loop say about the events it has read. -/
structure Counted (events : List RoastMapping) (s : RoastCounts) : Prop where
  seen : ∀ key, key ∈ s.eventSeen ↔ ∃ event ∈ events, event.id ≠ "" ∧ event.key = key
  special : ∀ date group v kind, (date, group, v, kind) ∈ s.specialSeen ↔
    (date, group, kind) ∈ punishments events v
  counts : ∀ v, s.counts v = roasts events v

/-- What a fresh event adds. -/
theorem Counted.fresh (h : Counted events s) (hfresh : ∀ x ∈ events, event.id ≠ "" → x.key ≠ event.key)
    {s₀ : RoastCounts} (hspecial : s₀.specialSeen = s.specialSeen) (hcounts : s₀.counts = s.counts)
    (hevents : ∀ key, key ∈ s₀.eventSeen ↔
      ∃ x ∈ events ++ [event], x.id ≠ "" ∧ x.key = key) :
    Counted (events ++ [event]) (event.victims.foldl (countVictim event) s₀) := by
  have hcounted := victims_counted event event.nodup_victims s₀
  have hpunished : ∀ v, s₀.Punished event v ↔
      ∃ kind, event.specialKind = some kind ∧
        (event.date, event.group, kind) ∈ punishments events v := by
    intro v
    unfold RoastCounts.Punished
    simp only [hspecial, h.special]
  refine ⟨fun key => by rw [hcounted.seen, hevents], ?_, ?_⟩
  · intro date group v kind
    rw [hcounted.special, hspecial, h.special, mem_punishments, mem_punishments]
    simp only [List.mem_append, List.mem_singleton, or_and_right, exists_or, exists_eq_left,
      RoastMapping.punishment_eq_some]
  · intro v
    rw [roasts_snoc hfresh, ← h.counts, ← hcounts]
    by_cases hv : v ∈ event.victims
    · cases hkind : event.specialKind with
      | none =>
          have hroasts : event.Roasts v := ⟨hkind, hv⟩
          have hnone : ¬ ∃ p, event.punishment v = some p ∧ p ∉ punishments events v := by
            rintro ⟨⟨date, group, kind⟩, hp, -⟩
            have hsome := (RoastMapping.punishment_eq_some.mp hp).2.1
            rw [hkind] at hsome
            cases hsome
          have hnew : ¬ s₀.Punished event v := by
            rintro ⟨kind, hsome, -⟩
            rw [hkind] at hsome
            cases hsome
          rw [hcounted.raised v hv hnew, if_pos hroasts, if_neg hnone]
      | some kind =>
          have hroasts : ¬ event.Roasts v := fun hr => by
            rw [hr.1] at hkind
            cases hkind
          have hpunishment : event.punishment v = some (event.date, event.group, kind) :=
            RoastMapping.punishment_eq_some.mpr ⟨hv, hkind, rfl, rfl⟩
          by_cases hseen : (event.date, event.group, kind) ∈ punishments events v
          · have hnone : ¬ ∃ p, event.punishment v = some p ∧ p ∉ punishments events v := by
              rintro ⟨p, hp, hnew⟩
              obtain rfl := Option.some.inj (hpunishment.symm.trans hp)
              exact hnew hseen
            have hbefore : s₀.Punished event v := (hpunished v).mpr ⟨kind, hkind, hseen⟩
            rw [hcounted.kept v (Or.inr hbefore), if_neg hroasts, if_neg hnone]
            omega
          · have hnew : ¬ s₀.Punished event v := by
              rw [hpunished]
              rintro ⟨found, hfound, hmem⟩
              obtain rfl : kind = found := Option.some.inj (hkind.symm.trans hfound)
              exact hseen hmem
            rw [hcounted.raised v hv hnew, if_neg hroasts, if_pos ⟨_, hpunishment, hseen⟩]
    · have hroasts : ¬ event.Roasts v := fun hr => hv hr.2
      have hnone : ¬ ∃ p, event.punishment v = some p ∧ p ∉ punishments events v := by
        rintro ⟨⟨date, group, kind⟩, hp, -⟩
        exact hv (RoastMapping.punishment_eq_some.mp hp).1
      rw [hcounted.kept v (Or.inl hv), if_neg hroasts, if_neg hnone]
      omega

/-- **One round of the loop.** -/
theorem Counted.step (h : Counted events s) (hconsistent : Consistent (events ++ [event])) :
    Counted (events ++ [event]) (countEvent s event) := by
  unfold countEvent
  split
  · rename_i hid
    refine h.fresh (fun _ _ hne => absurd hid hne) rfl rfl fun key => ?_
    rw [h.seen]
    simp only [List.mem_append, List.mem_singleton, or_and_right, exists_or, exists_eq_left, hid]
    simp
  · rename_i hid
    split
    · rename_i hseen
      obtain ⟨x, hx, hxid, hkey⟩ := (h.seen _).mp hseen
      obtain rfl : x = event := hconsistent x (List.mem_append_left _ hx) event (by simp) hxid hkey
      have hsame := SameDeliveries.repeat hx hid
      refine ⟨fun key => ?_, fun date group v kind => ?_, fun v => ?_⟩
      · rw [h.seen]
        simp only [hsame.mem]
      · rw [h.special, mem_punishments, mem_punishments]
        simp only [hsame.mem]
      · rw [h.counts, hsame.roasts]
    · rename_i hnew
      refine h.fresh (fun x hx _ hkey => hnew ?_) rfl rfl fun key => ?_
      · refine (h.seen _).mpr ⟨x, hx, ?_, hkey⟩
        rwa [show x.id = event.id from (Prod.mk.inj hkey).2]
      · show key ∈ event.key :: s.eventSeen ↔ _
        rw [List.mem_cons, h.seen]
        simp only [List.mem_append, List.mem_singleton, or_and_right, exists_or, exists_eq_left]
        have hlast : event.id ≠ "" ∧ event.key = key ↔ key = event.key :=
          ⟨fun h => h.2.symm, fun h => ⟨hid, h.symm⟩⟩
        rw [hlast, or_comm]

theorem counted (hconsistent : Consistent events) : Counted events (events.foldl countEvent {}) := by
  induction events using List.reverseRecOn with
  | nil => exact ⟨by simp, by simp [punishments], fun v => rfl⟩
  | append_singleton init event ih =>
      rw [List.foldl_append, List.foldl_cons, List.foldl_nil]
      refine (ih fun x hx y hy => ?_).step hconsistent
      exact hconsistent x (List.mem_append_left _ hx) y (List.mem_append_left _ hy)

theorem countRoastedUsers_eq (hconsistent : Consistent events) (v : String) :
    countRoastedUsers events v = roasts events v :=
  (counted hconsistent).counts v

theorem SameDeliveries.consistent (h : SameDeliveries events events') (hconsistent : Consistent events) :
    Consistent events' :=
  fun x hx y hy => hconsistent x (h.mem.mpr hx) y (h.mem.mpr hy)

/-- **Everybody is counted as often as they were roasted**, in whatever order the events come and
however often an identified one is delivered. -/
theorem counts_roasts (hconsistent : Consistent events) :
    (∀ v, countRoastedUsers events v = roasts events v) ∧
      ∀ events', SameDeliveries events events' →
        countRoastedUsers events' = countRoastedUsers events := by
  refine ⟨countRoastedUsers_eq hconsistent, fun events' hsame => ?_⟩
  funext v
  rw [countRoastedUsers_eq hconsistent, countRoastedUsers_eq (hsame.consistent hconsistent),
    hsame.roasts]

/-- One event delivered twice, two without an id, and two special punishments of one group. -/
def deliveredEvents : List RoastMapping :=
  let plural : RoastMapping :=
    { eventId := some "2", type := some "backfire", attacker := some "cook",
      backfireVictimId := some "a", backfireVictimIds := some ["a", "b", "b"] }
  let special : RoastMapping :=
    { dateStr := some "2026-10-24", groupId := some "100", eventType := some "bot_backfire",
      attackerId := some "a" }
  [{ eventId := some "1", type := some "success", attacker := some "cook", target := some "a" },
    plural, plural, { type := some "backfire", attacker := some "c" },
    { type := some "backfire", attacker := some "c" }, special, special,
    { special with groupId := some "200" }]

theorem counts_roasts_delivered :
    (countRoastedUsers deliveredEvents "a" = 4 ∧ countRoastedUsers deliveredEvents "c" = 2) ∧
      roasts deliveredEvents "a" = 4 ∧
      countRoastedUsers deliveredEvents.reverse = countRoastedUsers deliveredEvents := by
  have hconsistent : Consistent deliveredEvents := by decide +kernel
  have h := counts_roasts hconsistent
  have ha : roasts deliveredEvents "a" = 4 := by decide +kernel
  have hc : roasts deliveredEvents "c" = 2 := by decide +kernel
  refine ⟨⟨(h.1 "a").trans ha, (h.1 "c").trans hc⟩, ha, ?_⟩
  exact h.2 _ (SameDeliveries.of_perm (List.reverse_perm _).symm)

end RollPig
