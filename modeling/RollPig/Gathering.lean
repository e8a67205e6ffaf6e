/-
Gathering a crowd: what a round is for, without tables, bots and texts.

A round waits for its target and, if the target is protected, for enough contributions.
It opens in the very step in which the last of the two is there, and its roster and
terms are final from then on.  Until then users join, pay to count double, take the
round over, and the protection that governs it may change.  At the end the round feeds
some of its roster; who that is depends on how the round came about.

Users, pigs and protection sources are arbitrary types; `blank` is the pig of a target
that has not arrived.
-/
import Mathlib

namespace Gathering

/-- How the round was paid for.  `other` is a mode that is neither of the two words. -/
inductive Mode | plain | normal | super | other
deriving DecidableEq

structure Member (υ : Type*) where
  user : υ
  contribution : Nat

structure State (υ π σ : Type*) where
  owner : υ
  mode : Mode
  required : Nat
  source : σ
  pig : π
  /-- Who keeps the right to be fed in a round that was taken over. -/
  saved : Option (List υ)
  roster : List (Member υ)
  opened : Bool

namespace State

variable {υ π σ : Type*}

/-! ### Opening -/

def total (s : State υ π σ) : Nat :=
  (s.roster.map (·.contribution)).sum

/-- Enough contributions, or a super force that needs none. -/
def Met (s : State υ π σ) : Prop :=
  s.mode = .super ∨ s.required ≤ s.total

instance (s : State υ π σ) : Decidable s.Met := by unfold Met; infer_instance

/-- The target is there: open the round if the threshold is met. -/
def arrive (pig : π) (s : State υ π σ) : State υ π σ :=
  { s with pig, opened := s.opened || decide s.Met }

/-- The same, if the target is there. -/
def meet [DecidableEq π] (blank pig : π) (s : State υ π σ) : State υ π σ :=
  if pig = blank then s else s.arrive pig

/-- The round is open exactly when its target is there and its threshold met, and the pig
it goes by is one the target rolled. -/
structure Ignited (blank : π) (rolled : π → Prop) (s : State υ π σ) : Prop where
  known : s.pig ≠ blank → rolled s.pig
  waits : s.opened = false → s.pig ≠ blank → ¬ s.Met
  opens : s.opened = true → rolled s.pig ∧ s.Met

variable {blank : π} {rolled : π → Prop} {s : State υ π σ}

@[simp] theorem arrive_frame (pig : π) (s : State υ π σ) :
    (s.arrive pig).owner = s.owner ∧ (s.arrive pig).mode = s.mode ∧
      (s.arrive pig).required = s.required ∧ (s.arrive pig).source = s.source ∧
      (s.arrive pig).saved = s.saved ∧ (s.arrive pig).roster = s.roster :=
  ⟨rfl, rfl, rfl, rfl, rfl, rfl⟩

@[simp] theorem meet_frame [DecidableEq π] (blank pig : π) (s : State υ π σ) :
    (s.meet blank pig).owner = s.owner ∧ (s.meet blank pig).mode = s.mode ∧
      (s.meet blank pig).required = s.required ∧ (s.meet blank pig).source = s.source ∧
      (s.meet blank pig).saved = s.saved ∧ (s.meet blank pig).roster = s.roster := by
  unfold meet
  split_ifs <;> exact ⟨rfl, rfl, rfl, rfl, rfl, rfl⟩

theorem meet_pig [DecidableEq π] (blank pig : π) (s : State υ π σ) :
    (s.meet blank pig).pig = if pig = blank then s.pig else pig := by
  unfold meet
  split_ifs <;> rfl

theorem Ignited.mono {rolled' : π → Prop} (h : Ignited blank rolled s)
    (hmono : ∀ p, rolled p → rolled' p) : Ignited blank rolled' s :=
  ⟨fun hpig => hmono _ (h.known hpig), h.waits,
    fun hopened => ⟨hmono _ (h.opens hopened).1, (h.opens hopened).2⟩⟩

theorem Ignited.arrive (hopen : s.opened = false) {pig : π} (hpig : rolled pig) :
    Ignited blank rolled (s.arrive pig) := by
  have hmet : (s.arrive pig).Met ↔ s.Met := Iff.rfl
  refine ⟨fun _ => hpig, fun hclosed _ => ?_, fun hopened => ⟨hpig, ?_⟩⟩
  · rw [hmet]
    simpa [State.arrive, hopen] using hclosed
  · rw [hmet]
    simpa [State.arrive, hopen] using hopened

theorem Ignited.meet [DecidableEq π] (hopen : s.opened = false) {pig : π}
    (hpig : pig ≠ blank → rolled pig) (hunseen : pig = blank → s.pig = blank) :
    Ignited blank rolled (s.meet blank pig) := by
  unfold State.meet
  by_cases hblank : pig = blank
  · rw [if_pos hblank]
    refine ⟨fun hne => absurd (hunseen hblank) hne, fun _ hne => absurd (hunseen hblank) hne,
      fun hopened => ?_⟩
    rw [hopen] at hopened
    exact absurd hopened (by simp)
  · rw [if_neg hblank]
    exact Ignited.arrive hopen (hpig hblank)

def join (user : υ) (contribution : Nat) (s : State υ π σ) : State υ π σ :=
  { s with roster := s.roster ++ [⟨user, contribution⟩] }

/-! ### Feeding -/

/-- At the end the round feeds anybody at all. -/
def Feeds (s : State υ π σ) : Prop :=
  s.saved.getD [] ≠ [] ∨ (s.mode ≠ .normal ∧ s.mode ≠ .super) ∨ (0 < s.required ∧ s.mode ≠ .super)

/-- A member the round feeds, if it feeds anybody: in a round taken over the ones whose
right was saved, in a protected one those who paid nothing, else everybody. -/
def Eligible (s : State υ π σ) (m : Member υ) : Prop :=
  (s.mode = .super ∧ m.user ∈ s.saved.getD []) ∨
    (s.mode ≠ .super ∧ (s.required = 0 ∨ m.contribution = 1))

/-- The user paid a force use for the round. -/
def Paid (user : υ) (s : State υ π σ) : Prop :=
  (∃ m ∈ s.roster, m.user = user ∧ m.contribution = 2) ∨
    ((∃ m ∈ s.roster, m.user = user) ∧
      ((s.mode = .normal ∧ s.required = 0 ∧ s.owner = user) ∨
        (s.mode = .super ∧ user ∉ s.saved.getD [])))

/-! ### Changing the crowd -/

variable [DecidableEq υ]

instance (s : State υ π σ) : Decidable s.Feeds := by unfold Feeds; infer_instance

instance (s : State υ π σ) : DecidablePred s.Eligible := fun m => by
  unfold Eligible
  infer_instance

/-- Who is fed at the end. -/
def fed (s : State υ π σ) : List υ :=
  if s.Feeds then (s.roster.filter fun m => s.Eligible m).map (·.user) else []

/-- The user counts double from now on. -/
def boost (user : υ) (s : State υ π σ) : State υ π σ :=
  { s with
    roster := s.roster.map fun m => if m.user = user then { m with contribution := 2 } else m }

/-- Whose right to be fed a takeover by `user` saves. -/
def kept (user : υ) (s : State υ π σ) : List υ :=
  (s.roster.filter fun m =>
    m.user ≠ user ∧ (s.mode = .plain ∨ 0 < s.required) ∧
      (s.required = 0 ∨ m.contribution = 1)).map (·.user)

def takeOver (user : υ) (s : State υ π σ) : State υ π σ :=
  { s with mode := .super, saved := some (s.kept user) }

/-- A protection comes to govern the round.  If the round was an ordinary one its owner
had forced, the force now counts double. -/
def govern (required : Nat) (source : σ) (s : State υ π σ) : State υ π σ :=
  { (if s.required = 0 ∧ s.mode = .normal then s.boost s.owner else s) with required, source }

@[simp] theorem govern_frame (required : Nat) (source : σ) (s : State υ π σ) :
    (s.govern required source).opened = s.opened ∧ (s.govern required source).pig = s.pig ∧
      (s.govern required source).owner = s.owner ∧ (s.govern required source).mode = s.mode ∧
      (s.govern required source).required = required ∧
      (s.govern required source).source = source ∧
      (s.govern required source).saved = s.saved := by
  unfold govern
  split_ifs <;> exact ⟨rfl, rfl, rfl, rfl, rfl, rfl, rfl⟩

/-- The last protection is gone. -/
def ungovern (source : σ) (s : State υ π σ) : State υ π σ :=
  { s with required := 0, source }

end State

open State

variable {υ π σ : Type*}

/-- The pig a step may go by: the one recorded, else one the target rolled. -/
def Seen (blank : π) (rolled : π → Prop) (s : State υ π σ) (pig : π) : Prop :=
  pig = s.pig ∨ (s.pig = blank ∧ rolled pig)

/-- A round begins with its owner, and is tried at once if the target is there.  Under a
protection it has a threshold, unless a super force needs none. -/
inductive Born (blank : π) (rolled : π → Prop) : State υ π σ → Prop
  | intro (owner : υ) (mode : Mode) (isProtected : Bool) (required : Nat) (source : σ)
      (hplain : isProtected = false → required = 0)
      (hguarded : isProtected = true → 0 < required ∨ mode = .super)
      (pig : Option π) (hpig : ∀ p ∈ pig, rolled p) (s : State υ π σ)
      (hs : s = { owner, mode, required, source, pig := blank, saved := none, opened := false
                  roster := [⟨owner, if isProtected ∧ mode = .normal then 2 else 1⟩] }) :
      Born blank rolled (match pig with | some p => s.arrive p | none => s)

variable {blank : π} {rolled : π → Prop} {syncs : Prop} {s s' : State υ π σ}

/-- A pig that is seen is blank only if none was recorded. -/
theorem Seen.unseen {pig : π} (h : Seen blank rolled s pig) (hblank : pig = blank) :
    s.pig = blank := by
  rcases h with rfl | ⟨hpig, _⟩
  · exact hblank
  · exact hpig

/-- A pig that is seen was rolled, if those recorded are. -/
theorem Seen.known {pig : π} (h : Seen blank rolled s pig) (hknown : s.pig ≠ blank → rolled s.pig) :
    pig ≠ blank → rolled pig := by
  intro hne
  rcases h with rfl | ⟨_, hrolled⟩
  · exact hknown hne
  · exact hrolled

theorem Born.ignited (h : Born blank rolled s) : Ignited blank rolled s := by
  obtain ⟨owner, mode, isProtected, required, source, hplain, hguarded, pig, hpig, s, hs⟩ := h
  cases pig with
  | none =>
      subst hs
      exact ⟨fun hne => absurd rfl hne, fun _ hne => absurd rfl hne,
        fun hopened => absurd hopened (by simp)⟩
  | some p =>
      refine Ignited.arrive ?_ (hpig p rfl)
      rw [hs]

variable [DecidableEq υ] [DecidableEq π]

set_option linter.unusedSectionVars false

/-- One step of a round that still gathers, where the target rolled a pig in `rolled`;
only where `syncs` holds may its protection change. -/
inductive Step (blank : π) (rolled : π → Prop) (syncs : Prop) : State υ π σ → State υ π σ → Prop
  | join {s : State υ π σ} (hopen : s.opened = false) (hmode : s.mode ≠ .super) (user : υ)
      (contribution : Nat) (hnew : ∀ m ∈ s.roster, m.user ≠ user)
      (hpaid : contribution = 1 ∨ contribution = 2 ∧ 0 < s.required)
      (pig : π) (hpig : Seen blank rolled s pig) :
      Step blank rolled syncs s ((s.join user contribution).meet blank pig)
  | boost {s : State υ π σ} (hopen : s.opened = false) (hmode : s.mode ≠ .super) (user : υ)
      (hmember : ∃ m ∈ s.roster, m.user = user) (hrequired : 0 < s.required)
      (pig : π) (hpig : Seen blank rolled s pig) :
      Step blank rolled syncs s ((s.boost user).meet blank pig)
  | takeOver {s : State υ π σ} (hopen : s.opened = false) (hmode : s.mode ≠ .super) (user : υ)
      (pig : π) (hpig : Seen blank rolled s pig) :
      Step blank rolled syncs s ((s.takeOver user).meet blank pig)
  | govern {s : State υ π σ} (hopen : s.opened = false) (hmode : s.mode ≠ .super) (hsyncs : syncs)
      (required : Nat) (hrequired : 0 < required) (source : σ) :
      Step blank rolled syncs s ((s.govern required source).meet blank s.pig)
  | ungovern {s : State υ π σ} (hopen : s.opened = false) (hmode : s.mode ≠ .super) (hsyncs : syncs)
      (source : σ) :
      Step blank rolled syncs s ((s.ungovern source).meet blank s.pig)
  | arrive {s : State υ π σ} (hopen : s.opened = false) (pig : π) (hpig : rolled pig) :
      Step blank rolled syncs s (s.arrive pig)

/-- Any number of steps. -/
abbrev Steps (blank : π) (rolled : π → Prop) (syncs : Prop) :
    State υ π σ → State υ π σ → Prop :=
  Relation.ReflTransGen (Step blank rolled syncs)

/-! ### Opening -/

/-- **Every step tries the threshold again.** -/
theorem Step.ignited (h : Step blank rolled syncs s s') (hs : Ignited blank rolled s) :
    Ignited blank rolled s' := by
  cases h with
  | join hopen hmode user contribution hnew hpaid pig hpig =>
      exact Ignited.meet (s := s.join user contribution) hopen (hpig.known hs.known) hpig.unseen
  | boost hopen hmode user hmember hrequired pig hpig =>
      exact Ignited.meet (s := s.boost user) hopen (hpig.known hs.known) hpig.unseen
  | takeOver hopen hmode user pig hpig =>
      exact Ignited.meet (s := s.takeOver user) hopen (hpig.known hs.known) hpig.unseen
  | govern hopen hmode hsyncs required hrequired source =>
      refine Ignited.meet ?_ hs.known fun hblank => ?_
      · simpa using hopen
      · simpa using hblank
  | ungovern hopen hmode hsyncs source =>
      exact Ignited.meet (s := s.ungovern source) hopen hs.known id
  | arrive hopen pig hpig => exact Ignited.arrive hopen hpig

/-! ### What a step keeps -/

theorem Step.owner (h : Step blank rolled syncs s s') : s'.owner = s.owner := by
  cases h <;> simp [State.join, State.boost, State.takeOver, State.ungovern]

/-- A round that was taken over only waits for its target. -/
theorem Step.frozen (h : Step blank rolled syncs s s') (hsuper : s.mode = .super) :
    ∃ pig, rolled pig ∧ s' = s.arrive pig := by
  cases h with
  | arrive hopen pig hpig => exact ⟨pig, hpig, rfl⟩
  | _ => exact absurd hsuper (by assumption)

/-- Only a protection changes the threshold. -/
theorem Step.threshold (h : Step blank rolled syncs s s') (hsyncs : ¬ syncs) :
    s'.required = s.required ∧ s'.source = s.source := by
  cases h with
  | govern hopen hmode hs => exact absurd hs hsyncs
  | ungovern hopen hmode hs => exact absurd hs hsyncs
  | _ => simp [State.join, State.boost, State.takeOver]

/-- A round is taken over, or keeps its mode. -/
theorem Step.mode (h : Step blank rolled syncs s s') : s'.mode = s.mode ∨ s'.mode = .super := by
  cases h <;> simp [State.join, State.boost, State.takeOver, State.ungovern]

theorem Born.saved (h : Born blank rolled s) : s.saved = none := by
  obtain ⟨owner, mode, isProtected, required, source, hplain, hguarded, pig, hpig, s, hs⟩ := h
  cases pig <;> simp [hs]

/-- Only a takeover saves anybody's right to be fed. -/
theorem Step.saved (h : Step blank rolled syncs s s') (hnone : s.mode ≠ .super → s.saved = none) :
    s'.mode ≠ .super → s'.saved = none := by
  cases h <;> simp_all [State.join, State.boost, State.takeOver, State.ungovern]

/-- The recorded pig is one the target rolled. -/
theorem Step.pig (h : Step blank rolled syncs s s') : s'.pig = s.pig ∨ rolled s'.pig := by
  have hmeet : ∀ {t : State υ π σ} {pig : π}, t.pig = s.pig → Seen blank rolled s pig →
      (t.meet blank pig).pig = s.pig ∨ rolled (t.meet blank pig).pig := by
    intro t pig ht hseen
    rw [meet_pig]
    by_cases hblank : pig = blank
    · rw [if_pos hblank]
      exact Or.inl ht
    · rw [if_neg hblank]
      rcases hseen with rfl | ⟨_, hrolled⟩
      · exact Or.inl rfl
      · exact Or.inr hrolled
  cases h with
  | join hopen hmode user contribution hnew hpaid pig hpig => exact hmeet rfl hpig
  | boost hopen hmode user hmember hrequired pig hpig => exact hmeet rfl hpig
  | takeOver hopen hmode user pig hpig => exact hmeet rfl hpig
  | govern hopen hmode hs required hrequired source => exact hmeet (by simp) (Or.inl rfl)
  | ungovern hopen hmode hs source => exact hmeet rfl (Or.inl rfl)
  | arrive hopen pig hpig => exact Or.inr hpig

/-! ### Paying and being fed -/

theorem paid_meet {user : υ} (pig : π) : Paid user (s.meet blank pig) ↔ Paid user s := by
  unfold meet
  split_ifs <;> rfl

theorem paid_join {user other : υ} {contribution : Nat} (h : Paid user s) :
    Paid user (s.join other contribution) := by
  rcases h with ⟨m, hm, huser, htwo⟩ | ⟨⟨m, hm, huser⟩, hrest⟩
  · exact Or.inl ⟨m, List.mem_append_left _ hm, huser, htwo⟩
  · exact Or.inr ⟨⟨m, List.mem_append_left _ hm, huser⟩, hrest⟩

/-- A boost changes nobody's name and lowers nobody's contribution of two. -/
theorem mem_boost (user : υ) {m : Member υ} (hm : m ∈ s.roster) :
    ∃ m' ∈ (s.boost user).roster, m'.user = m.user ∧
      (m.contribution = 2 ∨ m.user = user → m'.contribution = 2) := by
  refine ⟨_, List.mem_map_of_mem hm, ?_⟩
  by_cases huser : m.user = user
  · simp [huser]
  · simp [huser]

theorem paid_boost {user other : υ} (h : Paid user s) : Paid user (s.boost other) := by
  rcases h with ⟨m, hm, rfl, htwo⟩ | ⟨⟨m, hm, rfl⟩, hrest⟩
  · obtain ⟨m', hm', hname, hcontribution⟩ := mem_boost other hm
    exact Or.inl ⟨m', hm', hname, hcontribution (Or.inl htwo)⟩
  · obtain ⟨m', hm', hname, _⟩ := mem_boost other hm
    exact Or.inr ⟨⟨m', hm', hname⟩, hrest⟩

/-- Who opens a round with a force has paid for it. -/
theorem Born.paid (h : Born blank rolled s) (hmode : s.mode = .normal) : Paid s.owner s := by
  obtain ⟨owner, mode, isProtected, required, source, hplain, hguarded, pig, hpig, s₀, hs⟩ := h
  have hstart : s₀.mode = .normal → Paid s₀.owner s₀ := by
    rintro hnormal
    subst hs
    cases isProtected with
    | true => exact Or.inl ⟨_, List.mem_singleton.mpr rfl, rfl, if_pos ⟨rfl, hnormal⟩⟩
    | false =>
        exact Or.inr ⟨⟨_, List.mem_singleton.mpr rfl, rfl⟩, Or.inl ⟨hnormal, hplain rfl, rfl⟩⟩
  cases pig with
  | none => exact hstart hmode
  | some p => exact hstart hmode

/-- A takeover saves the right of nobody who paid, unless it was for a round without a
threshold. -/
theorem paid_takeOver {user other : υ} (hmode : s.mode ≠ .super) (h : Paid user s) :
    Paid user (s.takeOver other) := by
  rcases h with htwo | ⟨hmember, ⟨hnormal, hrequired, _⟩ | ⟨hsuper, _⟩⟩
  · exact Or.inl htwo
  · refine Or.inr ⟨hmember, Or.inr ⟨rfl, ?_⟩⟩
    simp [State.takeOver, kept, hnormal, hrequired]
  · exact absurd hsuper hmode

/-- A protection that comes to govern an ordinary round doubles the owner's force. -/
theorem paid_govern {user : υ} {required : Nat} {source : σ} (hmode : s.mode ≠ .super)
    (h : Paid user s) : Paid user (s.govern required source) := by
  unfold govern
  by_cases hforced : s.required = 0 ∧ s.mode = .normal
  · simp only [if_pos hforced]
    rcases h with ⟨m, hm, rfl, htwo⟩ | ⟨⟨m, hm, rfl⟩, ⟨_, _, howner⟩ | ⟨hsuper, _⟩⟩
    · obtain ⟨m', hm', hname, hcontribution⟩ := mem_boost s.owner hm
      exact Or.inl ⟨m', hm', hname, hcontribution (Or.inl htwo)⟩
    · obtain ⟨m', hm', hname, hcontribution⟩ := mem_boost s.owner hm
      exact Or.inl ⟨m', hm', hname, hcontribution (Or.inr howner.symm)⟩
    · exact absurd hsuper hmode
  · simp only [if_neg hforced]
    rcases h with htwo | ⟨_, ⟨hnormal, hrequired, _⟩ | ⟨hsuper, _⟩⟩
    · exact Or.inl htwo
    · exact absurd ⟨hrequired, hnormal⟩ hforced
    · exact absurd hsuper hmode

theorem paid_ungovern {user : υ} {source : σ} (hmode : s.mode ≠ .super) (h : Paid user s) :
    Paid user (s.ungovern source) := by
  rcases h with htwo | ⟨hmember, ⟨hnormal, _, howner⟩ | ⟨hsuper, _⟩⟩
  · exact Or.inl htwo
  · exact Or.inr ⟨hmember, Or.inl ⟨hnormal, rfl, howner⟩⟩
  · exact absurd hsuper hmode

/-- **Who paid stays a payer.** -/
theorem Step.paid {user : υ} (h : Step blank rolled syncs s s') (hpaid : Paid user s) :
    Paid user s' := by
  cases h with
  | join hopen hmode other contribution hnew hcontribution pig hpig =>
      exact (paid_meet pig).mpr (paid_join hpaid)
  | boost hopen hmode other hmember hrequired pig hpig =>
      exact (paid_meet pig).mpr (paid_boost hpaid)
  | takeOver hopen hmode other pig hpig => exact (paid_meet pig).mpr (paid_takeOver hmode hpaid)
  | govern hopen hmode hs required hrequired source =>
      exact (paid_meet s.pig).mpr (paid_govern hmode hpaid)
  | ungovern hopen hmode hs source => exact (paid_meet s.pig).mpr (paid_ungovern hmode hpaid)
  | arrive hopen pig hpig => exact hpaid

/-- **A payer is fed only for a contribution of two** that the round no longer asked for,
or whose right a takeover saved. -/
theorem Paid.fed {user : υ} (hpaid : Paid user s) (hsaved : s.mode ≠ .super → s.saved = none)
    (hfeeds : Feeds s) {m : Member υ} (huser : m.user = user) (heligible : Eligible s m) :
    ∃ m ∈ s.roster, m.user = user ∧ m.contribution = 2 := by
  rcases hpaid with htwo | ⟨hmember, ⟨hnormal, hrequired, _⟩ | ⟨hsuper, hlost⟩⟩
  · exact htwo
  · have hplain : s.saved = none := hsaved (by simp [hnormal])
    simp [Feeds, hplain, hnormal, hrequired] at hfeeds
  · rcases heligible with ⟨_, hkept⟩ | ⟨hne, _⟩
    · exact absurd (huser ▸ hkept) hlost
    · exact absurd hsuper hne

/-! ### Taking over -/

/-- A takeover feeds exactly those whose right it saved. -/
theorem fed_takeOver (hdistinct : (s.roster.map (·.user)).Nodup) (user : υ) :
    (s.takeOver user).fed = s.kept user := by
  have hfeeds : (s.takeOver user).Feeds ↔ s.kept user ≠ [] := by
    simp [Feeds, State.takeOver]
  unfold fed
  by_cases hnil : s.kept user = []
  · rw [if_neg (by simpa [hfeeds] using hnil), hnil]
  · rw [if_pos (hfeeds.mpr hnil)]
    show (s.roster.filter _).map (·.user) = (s.roster.filter _).map (·.user)
    congr 1
    refine List.filter_congr fun m hm => ?_
    -- by distinctness the name of a member is saved only through the member itself
    have hsaved : m.user ∈ s.kept user ↔ m.user ≠ user ∧ (s.mode = .plain ∨ 0 < s.required) ∧
        (s.required = 0 ∨ m.contribution = 1) := by
      unfold kept
      rw [List.mem_map]
      constructor
      · rintro ⟨m', hm', hname⟩
        rw [List.mem_filter] at hm'
        obtain rfl : m' = m := List.inj_on_of_nodup_map hdistinct hm'.1 hm hname
        simpa using hm'.2
      · intro hkept
        exact ⟨m, List.mem_filter.mpr ⟨hm, by simpa using hkept⟩, rfl⟩
    simp only [Eligible, State.takeOver, Option.getD_some, ne_eq, not_true_eq_false, false_and,
      or_false, true_and, decide_eq_decide]
    exact hsaved

/-- What the feeding goes by. -/
def State.stakes (s : State υ π σ) : Mode × Nat × Option (List υ) × List (Member υ) :=
  (s.mode, s.required, s.saved, s.roster)

theorem fed_congr (h : s'.stakes = s.stakes) : s'.fed = s.fed := by
  simp only [State.stakes, Prod.mk.injEq] at h
  obtain ⟨hmode, hrequired, hsaved, hroster⟩ := h
  have hfeeds : s'.Feeds ↔ s.Feeds := by simp only [Feeds, hmode, hrequired, hsaved]
  unfold fed
  rw [hroster]
  simp only [hfeeds, Eligible, hmode, hrequired, hsaved]

theorem kept_congr (h : s'.stakes = s.stakes) (user : υ) : s'.kept user = s.kept user := by
  simp only [State.stakes, Prod.mk.injEq] at h
  obtain ⟨hmode, hrequired, -, hroster⟩ := h
  unfold kept
  rw [hmode, hrequired, hroster]

theorem takeOver_stakes (h : s'.stakes = s.stakes) (user : υ) :
    (s'.takeOver user).stakes = (s.takeOver user).stakes := by
  have hkept := kept_congr h user
  simp only [State.stakes, Prod.mk.injEq] at h ⊢
  exact ⟨rfl, h.2.1, congrArg some hkept, h.2.2.2⟩

theorem eligible_iff (hmode : s.mode ≠ .super) (m : Member υ) :
    s.Eligible m ↔ s.required = 0 ∨ m.contribution = 1 := by
  simp [Eligible, hmode]

theorem feeds_iff (hmode : s.mode ≠ .super) (hsaved : s.saved = none) :
    s.Feeds ↔ s.mode ≠ .normal ∨ 0 < s.required := by
  simp [Feeds, hmode, hsaved]

/-- A round with a threshold, or one paid for as usual, saves the right of everybody it
would have fed but the one who takes it over. -/
theorem kept_eq (hmode : s.mode ≠ .super) (hsaved : s.saved = none) (user : υ)
    (h : s.mode ≠ .other ∨ 0 < s.required) : s.kept user = s.fed.filter (· ≠ user) := by
  by_cases hnormal : s.mode = .normal ∧ s.required = 0
  · have hnobody : s.kept user = [] := by simp [kept, hnormal]
    have hunfed : s.fed = [] := if_neg (by simp [feeds_iff hmode hsaved, hnormal])
    rw [hnobody, hunfed]
    rfl
  · have hfeeds : s.Feeds := by
      rw [feeds_iff hmode hsaved]
      by_contra hno
      push Not at hno
      exact hnormal ⟨hno.1, by omega⟩
    have hright : s.mode = .plain ∨ 0 < s.required := by
      cases hm : s.mode with
      | plain => exact Or.inl rfl
      | normal => exact Or.inr (by
          have hpos : s.required ≠ 0 := fun hzero => hnormal ⟨hm, hzero⟩
          omega)
      | super => exact absurd hm hmode
      | other => exact h.imp (fun hne => absurd hm hne) id
    unfold fed
    rw [if_pos hfeeds, List.filter_map, List.filter_filter]
    unfold kept
    congr 1
    exact List.filter_congr fun m _ => by simp [hright, eligible_iff hmode]

/-- **Who keeps the right to be fed**: a takeover by `user` saves the right of everybody else
the round would have fed, except in a round that was paid for in some other way and has no
threshold.  There it saves nobody's. -/
theorem mem_kept_iff (hmode : s.mode ≠ .super) (hsaved : s.saved = none) (user : υ) :
    (∀ u, u ∈ s.kept user ↔ u ∈ s.fed ∧ u ≠ user) ↔
      s.mode ≠ .other ∨ 0 < s.required ∨ ∀ m ∈ s.roster, m.user = user := by
  constructor
  · intro hsame
    by_contra hno
    push Not at hno
    obtain ⟨hother, hnone, m, hm, huser⟩ := hno
    have hzero : s.required = 0 := by omega
    have hfed : m.user ∈ s.fed := by
      unfold fed
      rw [if_pos ((feeds_iff hmode hsaved).mpr (Or.inl (by simp [hother])))]
      refine List.mem_map_of_mem (List.mem_filter.mpr ⟨hm, ?_⟩)
      simp [eligible_iff hmode, hzero]
    have hkept := (hsame m.user).mpr ⟨hfed, huser⟩
    simp [kept, hother, hzero] at hkept
  · intro hcases u
    by_cases hright : s.mode ≠ .other ∨ 0 < s.required
    · rw [kept_eq hmode hsaved user hright, List.mem_filter]
      simp
    · push Not at hright
      have hall : ∀ m ∈ s.roster, m.user = user := by
        rcases hcases with hne | hpos | hall
        · exact absurd hright.1 hne
        · exact absurd hpos (by omega)
        · exact hall
      have hnobody : s.kept user = [] := by
        unfold kept
        refine List.map_eq_nil_iff.mpr (List.filter_eq_nil_iff.mpr fun m hm => ?_)
        simp [hall m hm]
      rw [hnobody]
      refine iff_of_false (by simp) fun hfed => ?_
      obtain ⟨hfed, hne⟩ := hfed
      unfold fed at hfed
      split_ifs at hfed
      · obtain ⟨m, hm, rfl⟩ := List.mem_map.mp hfed
        exact hne (hall m (List.mem_filter.mp hm).1)
      · simp at hfed

end Gathering
