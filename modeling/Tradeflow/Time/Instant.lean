/-
  Instants: whole microseconds from the start of year 1 in UTC up to the end of year 9999. The view of
  an instant is its civil reading; its text is that reading with six fraction digits unless they are
  all zero.
-/
import Tradeflow.Time.Calendar

namespace Tradeflow

open Calendar

/-- A point in time, in microseconds from the start of year 1. -/
structure Instant where
  micros : Int
  deriving DecidableEq, Repr

/-- A reading of calendar and clock. -/
structure Civil where
  date : Date
  hour : Nat
  minute : Nat
  second : Nat
  micro : Nat
  deriving DecidableEq, Repr

def microsPerSecond : Nat := 1000000

def microsPerHour : Nat := 3600 * microsPerSecond

def microsPerDay : Nat := 24 * microsPerHour

/-- The microseconds from the start of year 1 to a reading. -/
def Civil.micros (c : Civil) : Int :=
  ((c.date.ordinal : Int) - 1) * microsPerDay
    + ((((c.hour * 60 + c.minute) * 60 + c.second) * microsPerSecond + c.micro : Nat) : Int)

namespace Instant

/-- The last microsecond of year 9999. -/
def last : Int := 3652059 * microsPerDay - 1

/-- Is this a time of the years 1 to 9999? -/
def inRange (micros : Int) : Bool := 0 ≤ micros && micros ≤ last

/-- The reading in UTC. -/
def civil (t : Instant) : Civil :=
  let n := t.micros.toNat
  let rest := n % microsPerDay
  let seconds := rest / microsPerSecond
  ⟨Date.ofOrdinal (n / microsPerDay + 1), seconds / 3600, seconds / 60 % 60, seconds % 60,
    rest % microsPerSecond⟩

/-- An instant some microseconds later. -/
def plus (t : Instant) (micros : Int) : Instant := ⟨t.micros + micros⟩

def before (s t : Instant) : Bool := s.micros < t.micros

end Instant

/-- Decimal digits of at least `width`. -/
def padded (width n : Nat) : String :=
  let ds := toString n
  String.ofList (List.replicate (width - ds.length) '0') ++ ds

/-- Date, the letter T, time, and the fraction of the second unless it is zero. -/
def Civil.text (c : Civil) : String :=
  padded 4 c.date.year ++ "-" ++ padded 2 c.date.month ++ "-" ++ padded 2 c.date.day ++ "T"
    ++ padded 2 c.hour ++ ":" ++ padded 2 c.minute ++ ":" ++ padded 2 c.second
    ++ (if c.micro = 0 then "" else "." ++ padded 6 c.micro)

/-- The text of an instant in documents. -/
def Instant.text (t : Instant) : String := t.civil.text ++ "Z"

/-- The text of an instant with its offset written out. -/
def Instant.offsetText (t : Instant) : String := t.civil.text ++ "+00:00"

end Tradeflow
