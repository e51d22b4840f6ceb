import CodeCausality.Decimal.Notation

/-!
# Instants

An instant of universal time is a number of seconds since the start of 1970 and a number of
nanoseconds, which reaches into a second thousand million during a leap second. The calendar is the
Gregorian one, extended to all years.

* `daysOf` and `dateOf` count days by civil dates and back;
* `Instant.text` writes the date, the time and microseconds, as in `2024-05-01T12:00:00.250000Z`.
-/

namespace CodeCausality

/-! ## 1. The calendar -/

structure Date where
  year : Int
  month : Nat
  day : Nat
  deriving Repr, DecidableEq

def isLeapYear (y : Int) : Bool := y % 4 == 0 && (y % 100 != 0 || y % 400 == 0)

def daysInMonth (y : Int) (m : Nat) : Nat :=
  if m = 2 then (if isLeapYear y then 29 else 28)
  else if m = 4 ∨ m = 6 ∨ m = 9 ∨ m = 11 then 30
  else 31

/-- Whether the calendar has the date. -/
def Date.isValid (d : Date) : Bool :=
  decide (1 ≤ d.month) && decide (d.month ≤ 12) && decide (1 ≤ d.day)
    && decide (d.day ≤ daysInMonth d.year d.month)

/-- Days from the first day of 1970 to the date. Years are counted from March, in eras of 400. -/
def daysOf (d : Date) : Int :=
  let y := if d.month ≤ 2 then d.year - 1 else d.year
  let era := y / 400
  let yearOfEra := y - era * 400
  let monthFromMarch : Nat := (d.month + 9) % 12
  let dayOfYear : Int := ((153 * monthFromMarch + 2) / 5 + d.day - 1 : Nat)
  let dayOfEra := yearOfEra * 365 + yearOfEra / 4 - yearOfEra / 100 + dayOfYear
  era * 146097 + dayOfEra - 719468

/-- The date that stands the given number of days after the first day of 1970. -/
def dateOf (days : Int) : Date :=
  let z := days + 719468
  let era := z / 146097
  let dayOfEra := (z - era * 146097).toNat
  let yearOfEra := (dayOfEra - dayOfEra / 1460 + dayOfEra / 36524 - dayOfEra / 146096) / 365
  let dayOfYear := dayOfEra - (365 * yearOfEra + yearOfEra / 4 - yearOfEra / 100)
  let monthFromMarch := (5 * dayOfYear + 2) / 153
  let day := dayOfYear - (153 * monthFromMarch + 2) / 5 + 1
  let month := if monthFromMarch < 10 then monthFromMarch + 3 else monthFromMarch - 9
  let year := (yearOfEra : Int) + era * 400
  ⟨if month ≤ 2 then year + 1 else year, month, day⟩

/-! ## 2. Instants -/

structure Instant where
  seconds : Int
  nanos : Nat
  deriving Repr, DecidableEq

namespace Instant

/-- The instant without what is finer than a microsecond. -/
def toMicros (t : Instant) : Instant := ⟨t.seconds, t.nanos / 1000 * 1000⟩

/-- Four digits; a sign and at least four digits for years that need more. -/
def yearText (y : Int) : String :=
  if 0 ≤ y ∧ y ≤ 9999 then Decimal.padded 4 y.toNat
  else if y < 0 then "-" ++ Decimal.padded 4 y.natAbs
  else "+" ++ Decimal.padded 4 y.natAbs

/-- Date, time and microseconds. A leap second is second 60. -/
def text (t : Instant) : String :=
  let date := dateOf (t.seconds / 86400)
  let ofDay := (t.seconds % 86400).toNat
  let leap := t.nanos / 1000000000
  let two := Decimal.padded 2
  yearText date.year ++ "-" ++ two date.month ++ "-" ++ two date.day ++ "T" ++ two (ofDay / 3600)
    ++ ":" ++ two (ofDay / 60 % 60) ++ ":" ++ two (ofDay % 60 + leap) ++ "."
    ++ Decimal.padded 6 (t.nanos % 1000000000 / 1000) ++ "Z"

end Instant

end CodeCausality
