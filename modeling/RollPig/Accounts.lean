/-
What a protection row is meant to say: an account for each source.

A source was granted a level, and every success against the protection raises all the
sources the row has then.  An account keeps what each source was granted and how often it
was raised since, each for itself; there is no shared count and there are no baselines.
The rewrites of `routers/protections.py` are stated here on accounts, and
`Proofs/Books.lean` shows that the rows follow them.
-/
import RollPig.Counters
import RollPig.Routers.Protections

namespace RollPig

open Counters

/-- The sources of a user in a group, and the days in a row on the roster. -/
structure Account where
  ledger : Ledger Source := Ledger.empty
  days : Nat := 0

namespace Account

/-- The level each source gives. -/
def levels (account : Account) : Levels := fun source =>
  (account.ledger source).map (Entry.level 5)

/-- The level in force. -/
def level (account : Account) : Nat := account.levels.highest

/-- A success against the protection. -/
def raise (account : Account) : Account := { account with ledger := account.ledger.raise }

/-- A manual grant; a level that is not higher changes nothing. -/
def grant (level : Nat) (account : Account) : Account :=
  if (account.levels .manual).getD 0 < level then
    { account with ledger := account.ledger.grant .manual level }
  else account

/-- The account a group opens from the global one. -/
def inherit (account : Account) : Account :=
  { ledger := Ledger.empty.grant .legacy account.level }

/-- On the roster since before sources were recorded. -/
def Historical (account : Account) : Prop :=
  (account.ledger .legacy).isSome ∧ account.ledger .daily = none ∧ 0 < account.days

instance (account : Account) : Decidable account.Historical :=
  inferInstanceAs (Decidable (_ ∧ _ ∧ _))

/-- A user on the roster has a daily source: the one that is there, the historical one under
its new name, or a new one. -/
def enlist (initialLevel previousDays : Nat) (account : Account) : Account :=
  if (account.ledger .daily).isSome then account
  else if account.Historical then
    { account with ledger := account.ledger.move .legacy .daily }
  else
    { ledger := account.ledger.grant .daily (min 5 (initialLevel + previousDays))
      days := previousDays + 1 }

/-- The ledger of a user off the roster: no daily source, and a legacy one only as long as
there is a global account, raised to its level. -/
def lasting (global : Option Account) (account : Account) : Ledger Source :=
  let kept := account.ledger.drop .daily
  let kept := if account.Historical then kept.drop .legacy else kept
  match global with
  | none => kept.drop .legacy
  | some global =>
      if ((kept .legacy).map (Entry.level 5)).getD 0 < global.level then
        kept.grant .legacy global.level
      else kept

/-- A user off the roster keeps the account as long as it has a source. -/
def leave (global : Option Account) (account : Account) : Option Account :=
  if sourceOrder.all fun source => (account.lasting global source).isNone then none
  else some { ledger := account.lasting global }

end Account

/-- The accounts by date, group and user. -/
abbrev Books := Date × String × String → Option Account

/-- The global account a group inherits from. -/
def Books.globalOf (books : Books) (k : Date × String × String) : Option Account :=
  if k.2.1 ≠ allGroups then books (k.1, allGroups, k.2.2) else none

/-- The own account, else one opened from the global account. -/
def Books.ownOrInherited (books : Books) (k : Date × String × String) : Option Account :=
  match books k with
  | some account => some account
  | none => (books.globalOf k).map Account.inherit

/-- The days in a row an account holds. -/
def Books.daysOf (books : Books) (k : Date × String × String) : Nat :=
  match books k with
  | some account => account.days
  | none => 0

/-- The account after a grant. -/
def Books.granted (books : Books) (k : Date × String × String) (level : Nat) : Account :=
  ((books.ownOrInherited k).getD {}).grant level

/-- The account after a new roster that has the user on it, or not. -/
def Books.listed (books : Books) (k : Date × String × String) (initialLevel : Nat)
    (onRoster : Prop) [Decidable onRoster] : Option Account :=
  if onRoster then
    some (((books.ownOrInherited k).getD {}).enlist initialLevel
      (books.daysOf (k.1 - 1, k.2.1, k.2.2)))
  else (books k).bind (Account.leave (books.globalOf k))

end RollPig
