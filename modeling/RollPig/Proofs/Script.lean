/-
Runs written as scripts.

A script is a list of requests with the clock readings they are executed at; `play`
executes it, giving the k-th request tokens nobody else has.  `play_run` turns what was
played into a run of the service, so that a run on concrete data is a computation.
-/
import RollPig.System

namespace RollPig

open Transition

/-- The i-th token of the k-th request. -/
def scriptToken (k i : Nat) : String :=
  String.ofList (List.replicate k 'a' ++ List.replicate (i + 1) 'b')

/-- The environment of the k-th request. -/
def scriptEnv (k : Nat) (now : Time) : Env :=
  { now, dbNow := now, uuid := scriptToken k }

/-- A request on the rolls as they are, or the second transaction of the i-th request in
flight. -/
inductive Order
  | request (request : Request)
  | finish (i : Nat)

def Order.action? (w : World) : Order → Option Action
  | .request r => some (.request r w.db.dailyRolls)
  | .finish i => w.flights[i]?.map .reconcile

/-- Execute a script from a world, giving its first request the number k. -/
def play : Nat → World → List (Time × Order) → Option (List Event × World)
  | _, w, [] => some ([], w)
  | k, w, (now, order) :: rest =>
      match order.action? w with
      | none => none
      | some action =>
          match play (k + 1) (w.after (scriptEnv k now) action) rest with
          | none => none
          | some (events, w') =>
              some ({ env := scriptEnv k now, action
                      response := (action.transaction (scriptEnv k now) w.db).response } :: events,
                w')

/-! ### Protections in scripts -/

/-- A protection of level 1 for user 2 in group 7. -/
def scriptGrant : GrantProtectionRequest :=
  { groupId := "7", userId := "2", level := 1, protectDate := 739000,
    groupId_numeric := by decide, userId_numeric := by decide,
    level_pos := by decide, level_le := by decide }

/-- A roster of the day, at a level between 1 and 5. -/
def scriptRoster (groupId : String) (userIds : List String) (level : Nat) :
    ReplaceGroupProtectionsRequest :=
  { groupId, userIds, protectDate := 739000, initialLevel := max 1 (min level 5),
    initialLevel_pos := by omega, initialLevel_le := by omega }

/-! ### Tokens -/

/-- The script's requests get tokens of their own. -/
theorem scriptToken_inj {k i k' i' : Nat} (h : scriptToken k i = scriptToken k' i') :
    k = k' ∧ i = i' := by
  have hlist : List.replicate k 'a' ++ List.replicate (i + 1) 'b' =
      List.replicate k' 'a' ++ List.replicate (i' + 1) 'b' := by
    have := congrArg String.toList h
    simpa [scriptToken] using this
  have hfirst : k = k' := by
    have := congrArg (List.count 'a') hlist
    simpa [List.count_append, List.count_replicate] using this
  have hlength : k + (i + 1) = k' + (i' + 1) := by
    have := congrArg List.length hlist
    simpa using this
  exact ⟨hfirst, by omega⟩

theorem scriptToken_ne (k i : Nat) : scriptToken k i ≠ "" := by
  intro h
  have := congrArg String.toList h
  simp [scriptToken] at this

theorem scriptEnv_fresh {w : World} {k : Nat} (now : Time)
    (hissued : ∀ j, k ≤ j → ∀ i, scriptToken j i ∉ w.issued) : (scriptEnv k now).Fresh w.issued where
  injective _ _ h := (scriptToken_inj h).2
  unissued := hissued k (Nat.le_refl k)
  nonempty := scriptToken_ne k

/-! ### Playing is running -/

theorem Order.enabled {w : World} (hversion : w.db.dailyRolls ∈ w.rollVersions) {order : Order}
    {action : Action} (h : order.action? w = some action) : action.Enabled w := by
  cases order with
  | request r =>
      obtain rfl := Option.some.inj h
      exact hversion
  | finish i =>
      obtain ⟨flight, hflight, rfl⟩ := Option.map_eq_some_iff.mp h
      exact List.mem_of_getElem? hflight

/-- **What is played is a run.** -/
theorem play_run {script : List (Time × Order)} : ∀ {k : Nat} {w w' : World} {events : List Event},
    (∀ j, k ≤ j → ∀ i, scriptToken j i ∉ w.issued) → w.db.dailyRolls ∈ w.rollVersions →
      play k w script = some (events, w') → Run service w events w' := by
  induction script with
  | nil =>
      intro k w w' events _ _ h
      obtain ⟨rfl, rfl⟩ := Prod.mk.inj (Option.some.inj h)
      exact Run.nil
  | cons item rest ih =>
      obtain ⟨now, order⟩ := item
      intro k w w' events hissued hversion h
      simp only [play] at h
      cases haction : order.action? w with
      | none => simp [haction] at h
      | some action =>
          cases hplay : play (k + 1) (w.after (scriptEnv k now) action) rest with
          | none => simp [haction, hplay] at h
          | some result =>
              simp only [haction, hplay, Option.some.injEq, Prod.mk.injEq] at h
              obtain ⟨rfl, rfl⟩ := h
              refine Run.cons (t := w.after (scriptEnv k now) action) ?_ (ih ?_ ?_ hplay)
              · exact ⟨scriptEnv_fresh now hissued, Order.enabled hversion haction, rfl, rfl⟩
              · intro j hj i hmem
                rcases hmem with hold | ⟨i', htoken⟩
                · exact hissued j (by omega) i hold
                · have := (scriptToken_inj htoken).1
                  omega
              · exact List.mem_cons_self

/-- The events and the last world of a script played from the empty database. -/
def scriptEvents (script : List (Time × Order)) : List Event :=
  ((play 0 {} script).map (·.1)).getD []

def scriptWorld (script : List (Time × Order)) : World :=
  ((play 0 {} script).map (·.2)).getD {}

theorem script_run {script : List (Time × Order)} (h : (play 0 {} script).isSome = true) :
    Run service {} (scriptEvents script) (scriptWorld script) := by
  obtain ⟨⟨events, w⟩, hplay⟩ := Option.isSome_iff_exists.mp h
  have hrun := play_run (by simp) (by simp) hplay
  simpa [scriptEvents, scriptWorld, hplay] using hrun

/-- An event of a script, with the events around it. -/
theorem scriptEvents_split {script : List (Time × Order)} {i : Nat} {event : Event}
    (h : (scriptEvents script)[i]? = some event) :
    scriptEvents script =
      (scriptEvents script).take i ++ event :: (scriptEvents script).drop (i + 1) := by
  obtain ⟨hi, rfl⟩ := List.getElem?_eq_some_iff.mp h
  rw [← List.drop_eq_getElem_cons hi, List.take_append_drop]

/-- After a script the next request still has tokens of its own. -/
theorem play_fresh {script : List (Time × Order)} : ∀ {k : Nat} {w w' : World} {events : List Event},
    (∀ j, k ≤ j → ∀ i, scriptToken j i ∉ w.issued) → w.db.dailyRolls ∈ w.rollVersions →
      play k w script = some (events, w') →
        (∀ j, k + script.length ≤ j → ∀ i, scriptToken j i ∉ w'.issued) ∧
          w'.db.dailyRolls ∈ w'.rollVersions := by
  induction script with
  | nil =>
      intro k w w' events hissued hversion h
      obtain ⟨rfl, rfl⟩ := Prod.mk.inj (Option.some.inj h)
      exact ⟨hissued, hversion⟩
  | cons item rest ih =>
      obtain ⟨now, order⟩ := item
      intro k w w' events hissued hversion h
      simp only [play] at h
      cases haction : order.action? w with
      | none => simp [haction] at h
      | some action =>
          cases hplay : play (k + 1) (w.after (scriptEnv k now) action) rest with
          | none => simp [haction, hplay] at h
          | some result =>
              simp only [haction, hplay, Option.some.injEq, Prod.mk.injEq] at h
              obtain ⟨rfl, rfl⟩ := h
              have hrest := ih (fun j hj i hmem => ?_) List.mem_cons_self hplay
              · refine ⟨fun j hj => hrest.1 j ?_, hrest.2⟩
                rw [List.length_cons] at hj
                omega
              · rcases hmem with hold | ⟨i', htoken⟩
                · exact hissued j (by omega) i hold
                · have := (scriptToken_inj htoken).1
                  omega

/-- One more request after a script. -/
def scriptEvent (script : List (Time × Order)) (now : Time) (r : Request) : Event :=
  let e := scriptEnv script.length now
  let w := scriptWorld script
  { env := e, action := .request r w.db.dailyRolls
    response := (r.transaction e w.db.dailyRolls w.db).response }

theorem script_step {script : List (Time × Order)} (h : (play 0 {} script).isSome = true)
    (now : Time) (r : Request) :
    service.step (scriptWorld script) (scriptEvent script now r)
      ((scriptWorld script).after (scriptEvent script now r).env (scriptEvent script now r).action) := by
  obtain ⟨⟨events, w⟩, hplay⟩ := Option.isSome_iff_exists.mp h
  obtain ⟨hissued, hversion⟩ := play_fresh (by simp) (by simp) hplay
  have hworld : scriptWorld script = w := by simp [scriptWorld, hplay]
  have hfresh : (scriptEnv script.length now).Fresh (scriptWorld script).issued := by
    rw [hworld]
    exact scriptEnv_fresh now (by simpa using hissued)
  have hseen : (scriptWorld script).db.dailyRolls ∈ (scriptWorld script).rollVersions := by
    rw [hworld]
    exact hversion
  exact ⟨hfresh, hseen, rfl, rfl⟩

/-- A script is played part by part. -/
theorem play_append {script rest : List (Time × Order)} : ∀ {k : Nat} {w : World},
    play k w (script ++ rest) =
      (play k w script).bind fun played =>
        (play (k + script.length) played.2 rest).map fun next =>
          (played.1 ++ next.1, next.2) := by
  induction script with
  | nil =>
      intro k w
      rw [List.nil_append]
      show _ = (play k w rest).map _
      cases play k w rest <;> rfl
  | cons item script ih =>
      obtain ⟨now, order⟩ := item
      intro k w
      have hlength : k + 1 + script.length = k + (script.length + 1) := by omega
      simp only [List.cons_append, play, List.length_cons]
      cases order.action? w with
      | none => rfl
      | some action =>
          dsimp only
          rw [ih, hlength]
          cases play (k + 1) (w.after (scriptEnv k now) action) script with
          | none => rfl
          | some played =>
              dsimp only [Option.bind_some]
              cases play (k + (script.length + 1)) played.2 rest <;> rfl

theorem play_front {script rest : List (Time × Order)}
    (h : (play 0 {} (script ++ rest)).isSome = true) : (play 0 {} script).isSome = true := by
  rw [play_append] at h
  cases hplay : play 0 {} script with
  | none => simp [hplay] at h
  | some played => rfl

/-- A longer script goes on from where the shorter one ends. -/
theorem script_continue {script rest : List (Time × Order)}
    (h : (play 0 {} (script ++ rest)).isSome = true) :
    ∃ events, Run service (scriptWorld script) events (scriptWorld (script ++ rest)) := by
  obtain ⟨⟨events, w⟩, hplay⟩ := Option.isSome_iff_exists.mp (play_front h)
  obtain ⟨hissued, hversion⟩ := play_fresh (by simp) (by simp) hplay
  have happend := @play_append script rest 0 {}
  rw [hplay, Option.bind_some, Nat.zero_add] at happend
  rw [Nat.zero_add] at hissued
  cases hrest : play script.length w rest with
  | none => simp [happend, hrest] at h
  | some next =>
      have hw : scriptWorld script = w := by simp [scriptWorld, hplay]
      have hnext : scriptWorld (script ++ rest) = next.2 := by
        simp [scriptWorld, happend, hrest]
      rw [hw, hnext]
      exact ⟨next.1, play_run hissued hversion hrest⟩

theorem scriptWorld_snoc {script : List (Time × Order)} (h : (play 0 {} script).isSome = true)
    (now : Time) (r : Request) :
    scriptWorld (script ++ [(now, .request r)]) =
      (scriptWorld script).after (scriptEvent script now r).env
        (scriptEvent script now r).action := by
  obtain ⟨⟨events, w⟩, hplay⟩ := Option.isSome_iff_exists.mp h
  have happend := @play_append script [(now, .request r)] 0 {}
  rw [hplay] at happend
  have hw : scriptWorld script = w := by simp [scriptWorld, hplay]
  simp [scriptWorld, happend, play, Order.action?, scriptEvent, hplay]

theorem script_reachable {script : List (Time × Order)} (h : (play 0 {} script).isSome = true) :
    Reachable service (scriptWorld script) :=
  ⟨{}, scriptEvents script, rfl, script_run h⟩

end RollPig
