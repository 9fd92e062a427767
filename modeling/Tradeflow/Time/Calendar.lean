/-
  The calendar: days counted from the first of January of year 1, which is day 1, leap years every
  four years but not in three of four centuries, and weeks that belong to the year of their Thursday.
-/

namespace Tradeflow.Calendar

def isLeap (year : Nat) : Bool := year % 4 == 0 && (year % 100 != 0 || year % 400 == 0)

def daysInMonth (year month : Nat) : Nat :=
  match month with
  | 2 => if isLeap year then 29 else 28
  | 4 | 6 | 9 | 11 => 30
  | _ => 31

/-- The days of all years before `year`. -/
def daysBeforeYear (year : Nat) : Nat :=
  let y := year - 1
  y * 365 + y / 4 - y / 100 + y / 400

/-- The days of the year before `month`. -/
def daysBeforeMonth (year : Nat) : (month : Nat) → Nat
  | 0 => 0
  | 1 => 0
  | m + 2 => daysBeforeMonth year (m + 1) + daysInMonth year (m + 1)

/-- A day of the calendar. -/
structure Date where
  year : Nat
  month : Nat
  day : Nat
  deriving DecidableEq, Repr

/-- The number of a day, the first of January of year 1 being 1. -/
def Date.ordinal (d : Date) : Nat :=
  daysBeforeYear d.year + daysBeforeMonth d.year d.month + d.day

/-- The month in which the day with the given number falls, counted from zero at the start of
`month`, and what is left of the number there. At most `count` months are passed. -/
def monthOf (year : Nat) : (count month rest : Nat) → Nat × Nat
  | 0, month, rest => (month, rest)
  | count + 1, month, rest =>
    let days := daysInMonth year month
    if rest < days then (month, rest) else monthOf year count (month + 1) (rest - days)

/-- The day with a given number. Periods of 400, 100, 4 and 1 years are taken off in turn; the last
day of a leap period would start a fifth one of the next shorter length and is kept in the fourth. -/
def Date.ofOrdinal (n : Nat) : Date :=
  let n := n - 1
  let n400 := n / 146097
  let n := n % 146097
  let n100 := min (n / 36524) 3
  let n := n - n100 * 36524
  let n4 := n / 1461
  let n := n % 1461
  let n1 := min (n / 365) 3
  let n := n - n1 * 365
  let year := n400 * 400 + n100 * 100 + n4 * 4 + n1 + 1
  let (month, rest) := monthOf year 11 1 n
  ⟨year, month, rest + 1⟩

/-- The day of the week of a day number, Monday being 0. -/
def weekday (ordinal : Nat) : Nat := (ordinal + 6) % 7

/-- The number of the Monday on which the first week of a year starts. -/
def firstMonday (year : Nat) : Int :=
  let first := daysBeforeYear year + 1
  let day := weekday first
  (first : Int) - day + (if 3 < day then 7 else 0)

/-- Has the year a week of this number? A 53rd one only if it starts on a Thursday, or on a
Wednesday in a leap year. -/
def hasWeek (year week : Nat) : Bool :=
  if week == 53 then
    let day := weekday (daysBeforeYear year + 1)
    day == 3 || (day == 2 && isLeap year)
  else 1 ≤ week && week ≤ 52

end Tradeflow.Calendar
