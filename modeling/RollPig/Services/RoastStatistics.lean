/-
Counting who was roasted, `services/roast_statistics.py`.

One loop reads the events and keeps two sets: the identified events it has met, which count
once, and the special punishments it has counted, once for each date, group, victim and kind.
-/
import RollPig.Services.Events
import Mathlib.Data.List.Dedup

namespace RollPig

/-- An event mapping as `get` reads it: a key that is missing or holds `None` is `none`. -/
structure RoastMapping where
  dateStr : Option String := none
  eventId : Option String := none
  groupId : Option String := none
  type : Option String := none
  eventType : Option String := none
  attacker : Option String := none
  attackerId : Option String := none
  target : Option String := none
  targetId : Option String := none
  backfireVictimId : Option String := none
  backfireVictimIds : Option (List String) := none
  specialReason : Option String := none
deriving DecidableEq

/-- The kinds of a special punishment. -/
inductive SpecialKind | bot | unrolled
deriving DecidableEq, Repr

namespace RoastMapping

def date (event : RoastMapping) : String := event.dateStr.getD ""

def id (event : RoastMapping) : String := event.eventId.getD ""

def group (event : RoastMapping) : String := event.groupId.getD ""

/-- `str(event.get("type") or event.get("event_type") or "")`; the next two are read alike. -/
def kind (event : RoastMapping) : String :=
  orElse (event.type.getD "") (event.eventType.getD "")

def attackerUser (event : RoastMapping) : String :=
  orElse (event.attacker.getD "") (event.attackerId.getD "")

def targetUser (event : RoastMapping) : String :=
  orElse (event.target.getD "") (event.targetId.getD "")

/-- What the event is met under. -/
def key (event : RoastMapping) : String × String := (event.date, event.id)

/-- The victims as the event names them: the plural field, else the single one, else the
attacker. -/
def namedVictims (event : RoastMapping) : List String :=
  if event.kind = "success" ∧ event.targetUser ≠ "" ∧ event.targetUser ≠ event.attackerUser then
    [event.targetUser]
  else if event.kind = "backfire" ∨ event.kind = "bot_backfire" then
    let plural := event.backfireVictimIds.getD []
    if plural ≠ [] then plural
    else [orElse (event.backfireVictimId.getD "") event.attackerUser]
  else []

/-- `dict.fromkeys(str(item) for item in victims if item)`: in the order they are first named. -/
def victims (event : RoastMapping) : List String :=
  (event.namedVictims.filter (· ≠ "")).reverse.dedup.reverse

/-- `special_kind`, none where it is empty. -/
def specialKind (event : RoastMapping) : Option SpecialKind :=
  if event.kind = "bot_backfire" then some .bot
  else if event.kind = "backfire" ∧ event.specialReason = some "unrolled" then some .unrolled
  else none

theorem nodup_victims (event : RoastMapping) : event.victims.Nodup :=
  List.nodup_reverse.mpr (List.nodup_dedup _)

theorem mem_victims {event : RoastMapping} {victim : String} :
    victim ∈ event.victims ↔ victim ∈ event.namedVictims ∧ victim ≠ "" := by
  simp [victims]

end RoastMapping

/-- The loop's variables. -/
structure RoastCounts where
  counts : String → Nat := fun _ => 0
  specialSeen : List (String × String × String × SpecialKind) := []
  eventSeen : List (String × String) := []

/-- `counts[victim] += 1`. -/
def RoastCounts.raise (s : RoastCounts) (victim : String) : RoastCounts :=
  { s with counts := fun user => if user = victim then s.counts user + 1 else s.counts user }

/-- The body of the loop over the victims. -/
def countVictim (event : RoastMapping) (s : RoastCounts) (victim : String) : RoastCounts :=
  match event.specialKind with
  | none => s.raise victim
  | some kind =>
      let specialKey := (event.date, event.group, victim, kind)
      if specialKey ∈ s.specialSeen then s
      else { s with specialSeen := specialKey :: s.specialSeen }.raise victim

/-- The body of the loop over the events. -/
def countEvent (s : RoastCounts) (event : RoastMapping) : RoastCounts :=
  if event.id = "" then event.victims.foldl (countVictim event) s
  else if event.key ∈ s.eventSeen then s
  else event.victims.foldl (countVictim event) { s with eventSeen := event.key :: s.eventSeen }

/-- `count_roasted_users`; a user who is no key of the counter reads as zero. -/
def countRoastedUsers (events : List RoastMapping) : String → Nat :=
  (events.foldl countEvent {}).counts

end RollPig
