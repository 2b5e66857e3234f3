import Federation.Text.Digits

/-!
# Instants

An `Instant` is a point of time: seconds since 1970-01-01 in universal time and
nanoseconds, within the years -262143 to 262142.  In the last second of a minute the
nanoseconds may go on for a second more: that is a leap second.

Dates are counted in years that begin in March, so that the leap day is the last day of
its year; `daysOfDate` and `dateOfDays` convert between a date and its day number.
-/

namespace Federation

/-- The least number of seconds of an instant. -/
def Instant.minSeconds : Int := -8334601228800

/-- The greatest number of seconds of an instant. -/
def Instant.maxSeconds : Int := 8210266876799

/-- A point of time. -/
structure Instant where
  /-- Whole seconds since 1970-01-01T00:00:00Z. -/
  seconds : Int
  /-- Nanoseconds, a whole second more in a leap second. -/
  nanos : Nat
  /-- The seconds are within the range of dates. -/
  inRange : Instant.minSeconds ≤ seconds ∧ seconds ≤ Instant.maxSeconds
  /-- The nanoseconds are within the second, or in a leap second. -/
  nanos_lt : nanos < 1000000000 ∨ (seconds % 60 = 59 ∧ nanos < 2000000000)
deriving DecidableEq

namespace Instant

/-- The instant of a number of seconds and nanoseconds, if there is one. -/
def ofParts? (seconds : Int) (nanos : Nat) : Option Instant :=
  if h : (minSeconds ≤ seconds ∧ seconds ≤ maxSeconds) ∧
      (nanos < 1000000000 ∨ (seconds % 60 = 59 ∧ nanos < 2000000000)) then
    some ⟨seconds, nanos, h.1, h.2⟩
  else none

/-- The instant of a number of seconds, if it is in range. -/
def ofSeconds? (seconds : Int) : Option Instant := ofParts? seconds 0

/-- The beginning of 1970. -/
def epoch : Instant := ⟨0, 0, by decide, by decide⟩

instance : Inhabited Instant := ⟨epoch⟩

instance : LE Instant where
  le a b := a.seconds < b.seconds ∨ (a.seconds = b.seconds ∧ a.nanos ≤ b.nanos)

instance (a b : Instant) : Decidable (a ≤ b) :=
  inferInstanceAs (Decidable (a.seconds < b.seconds ∨ (a.seconds = b.seconds ∧ a.nanos ≤ b.nanos)))

/-- Moves an instant by a number of milliseconds, staying within the range. -/
def addMillis (t : Instant) (ms : Int) : Instant :=
  let total : Int := t.nanos + ms * 1000000
  (ofParts? (t.seconds + total / 1000000000) (total % 1000000000).toNat).getD
    (if 0 ≤ ms then ⟨maxSeconds, 0, by decide, by decide⟩
    else ⟨minSeconds, 0, by decide, by decide⟩)

/-! ### Dates -/

/-- A date of the calendar. -/
structure Date where
  year : Int
  month : Nat
  /-- The day of the month, from 1. -/
  day : Nat
deriving DecidableEq

/-- Whether a year has a leap day. -/
def isLeapYear (y : Int) : Bool := y % 4 = 0 && (y % 100 != 0 || y % 400 = 0)

/-- The number of days of a month. -/
def daysInMonth (y : Int) (m : Nat) : Nat :=
  if m = 2 then (if isLeapYear y then 29 else 28)
  else if m = 4 ∨ m = 6 ∨ m = 9 ∨ m = 11 then 30
  else 31

/-- The days from 1 March of the year 0 to 1 March of a year. -/
def daysBeforeMarch (y : Int) : Int := 365 * y + y / 4 - y / 100 + y / 400

/-- The days from 1 March to the first of a month, the months counted from March as 0. -/
def daysBeforeMonth (m : Nat) : Nat := (153 * m + 2) / 5

/-- The day number of a date, 1970-01-01 being 0. -/
def daysOfDate (d : Date) : Int :=
  let (y, m) := if d.month ≤ 2 then (d.year - 1, d.month + 9) else (d.year, d.month - 3)
  daysBeforeMarch y + daysBeforeMonth m + d.day - 1 - 719468

/-- The date of a day number. -/
def dateOfDays (days : Int) : Date :=
  let n := days + 719468
  let era := n / 146097
  let dayOfEra := (n % 146097).toNat
  let century := min (dayOfEra / 36524) 3
  let dayOfCentury := dayOfEra - 36524 * century
  let quad := dayOfCentury / 1461
  let dayOfQuad := dayOfCentury % 1461
  let yearOfQuad := min (dayOfQuad / 365) 3
  let dayOfYear := dayOfQuad - 365 * yearOfQuad
  let m := (5 * dayOfYear + 2) / 153
  let y := 400 * era + 100 * century + 4 * quad + yearOfQuad
  let day := dayOfYear - daysBeforeMonth m + 1
  if m < 10 then ⟨y, m + 3, day⟩ else ⟨y + 1, m - 9, day⟩

end Instant
end Federation
