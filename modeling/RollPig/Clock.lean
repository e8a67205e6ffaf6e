/-
Dates and clock readings.

A date is its proleptic ordinal, as `datetime.date.toordinal` numbers it.  A naive
UTC datetime is a number of microseconds in which the day of ordinal `d` starts at
`d * dayMicros`, so that subtracting a `timedelta` is subtracting a number.
-/
import Mathlib.Data.Rat.Floor

namespace RollPig

abbrev Date := Int

abbrev Time := Int

def secondMicros : Int := 1000000

def dayMicros : Int := 24 * 3600 * secondMicros

/-- `dt.timedelta(minutes=n)`. -/
def minutes (n : Int) : Int := n * 60 * secondMicros

/-- The ordinal of 1970-01-01, where Unix time starts. -/
def epochOrdinal : Int := 719163

/-- `int(time.time())` at a clock reading. -/
def unixSeconds (now : Time) : Int := (now - epochOrdinal * dayMicros) / secondMicros

/-- `rollpig_today()`: the date in the business time zone, eight hours east of UTC. -/
def rollpigToday (now : Time) : Date := (now + 8 * 3600 * secondMicros) / dayMicros

/-! ### `datetime.isoformat`

The notice lease compares timestamps as the strings it stored, so the text matters.
The calendar part is the standard library's `_ord2ymd`.
-/

def daysBeforeMonth (month : Nat) : Nat :=
  [0, 0, 31, 59, 90, 120, 151, 181, 212, 243, 273, 304, 334].getD month 0

def daysInMonth (month : Nat) : Nat :=
  [0, 31, 28, 31, 30, 31, 30, 31, 31, 30, 31, 30, 31].getD month 0

/-- Year, month and day of an ordinal. -/
def ord2ymd (ordinal : Nat) : Nat × Nat × Nat :=
  let n := ordinal - 1
  let n400 := n / 146097
  let n := n % 146097
  let n100 := n / 36524
  let n := n % 36524
  let n4 := n / 1461
  let n := n % 1461
  let n1 := n / 365
  let n := n % 365
  let year := n400 * 400 + 1 + n100 * 100 + n4 * 4 + n1
  if n1 = 4 ∨ n100 = 4 then (year - 1, 12, 31)
  else
    let leap : Bool := n1 = 3 ∧ (n4 ≠ 24 ∨ n100 = 3)
    let month := (n + 50) / 32
    let preceding := daysBeforeMonth month + (if 2 < month ∧ leap then 1 else 0)
    if n < preceding then
      let month := month - 1
      let preceding := preceding - (daysInMonth month + (if month = 2 ∧ leap then 1 else 0))
      (year, month, n - preceding + 1)
    else (year, month, n - preceding + 1)

/-- `n` in decimal, padded with zeros to `width`. -/
def zeroPad (width n : Nat) : String :=
  let digits := toString n
  String.ofList (List.replicate (width - digits.length) '0') ++ digits

/-- `datetime.isoformat()`: the fraction is written only when it is not zero. -/
def isoformat (t : Time) : String :=
  let (year, month, day) := ord2ymd (t / dayMicros).toNat
  let micros := (t % dayMicros).toNat
  let seconds := micros / 1000000
  let fraction := micros % 1000000
  let text := zeroPad 4 year ++ "-" ++ zeroPad 2 month ++ "-" ++ zeroPad 2 day ++ "T" ++
    zeroPad 2 (seconds / 3600) ++ ":" ++ zeroPad 2 (seconds / 60 % 60) ++ ":" ++
    zeroPad 2 (seconds % 60)
  if fraction = 0 then text else text ++ "." ++ zeroPad 6 fraction

end RollPig
