/-
  Text read as an instant. A date is written with or without hyphens, by month and day or by week;
  after any one character a time may follow, and after it an offset from UTC. A text without an offset
  is taken as UTC.
-/
import Tradeflow.Number.Double
import Tradeflow.Text.Quoted
import Tradeflow.Time.Instant

namespace Tradeflow

open Calendar

/-- Why a text is no instant. -/
inductive DateFault where
  | malformed (text : String)
  | yearRange (year : Nat)
  | monthRange
  | dayRange
  | hourRange
  | minuteRange
  | secondRange
  | offsetRange (micros : Int)
  /-- The instant is not in the years 1 to 9999 once the offset is taken off. -/
  | outOfRange
  deriving DecidableEq, Repr

/-- A span of time in days, seconds and microseconds; only the days may be negative. -/
def spanText (micros : Int) : String :=
  let days := Int.fdiv micros microsPerDay
  let rest := (Int.fmod micros microsPerDay).toNat
  let part (name : String) (n : Int) : List String :=
    if n = 0 then [] else [name ++ "=" ++ toString n]
  let parts := part "days" days ++ part "seconds" (rest / microsPerSecond : Nat)
    ++ part "microseconds" (rest % microsPerSecond : Nat)
  "datetime.timedelta(" ++ (if parts.isEmpty then "0" else String.intercalate ", " parts) ++ ")"

def DateFault.message : DateFault → String
  | .malformed text => "Invalid isoformat string: " ++ Text.quoted text
  | .yearRange year => "year " ++ toString year ++ " is out of range"
  | .monthRange => "month must be in 1..12"
  | .dayRange => "day is out of range for month"
  | .hourRange => "hour must be in 0..23"
  | .minuteRange => "minute must be in 0..59"
  | .secondRange => "second must be in 0..59"
  | .offsetRange micros =>
    "offset must be a timedelta strictly between -timedelta(hours=24) and timedelta(hours=24), not "
      ++ spanText micros ++ "."
  | .outOfRange => "date value out of range"

namespace Reading

def isDigit (c : Char) : Bool := '0' ≤ c && c ≤ '9'

/-- The value of the first `count` characters, if all of them are digits. -/
def digits (count : Nat) (cs : List Char) : Option (Nat × List Char) :=
  let ds := cs.take count
  if ds.length = count ∧ ds.all isDigit then
    some (ds.foldl (fun n c => n * 10 + (c.toNat - 48)) 0, cs.drop count)
  else none

/-- Where the date ends, told from its fifth and sixth character and what follows. -/
def dateLength (cs : List Char) : Nat :=
  let n := cs.length
  let digitAt (i : Nat) : Bool := cs[i]?.any isDigit
  if n = 7 then 7
  else if cs[4]? = some '-' then
    if cs[5]? = some 'W' then
      -- `YYYY-Www-D`, unless the hyphen separates the date from an hour
      if cs[8]? = some '-' ∧ !(10 < n ∧ digitAt 10) then 10 else 8
    else 10
  else if cs[4]? = some 'W' then
    let run := ((cs.drop 7).takeWhile isDigit).length
    if run < 2 then 7 + run else if run % 2 = 1 then 7 else 8
  else 8

/-- A date by week. In year 0, before the first day there is, no month is found. -/
def weekDate (year : Nat) (hyphens : Bool) (cs : List Char) : Option Date := do
  let (week, rest) ← digits 2 cs
  let day ← match rest with
    | [] => pure 1
    | c :: more =>
      if hyphens then
        if c = '-' then (digits 1 more).map (·.1) else none
      else (digits 1 rest).map (·.1)
  if !hasWeek year week ∨ day = 0 ∨ 7 < day then none
  else if year = 0 then pure ⟨1, 0, 0⟩
  else
    let n := firstMonday year + ((week : Int) - 1) * 7 + (day : Int) - 1
    pure (Date.ofOrdinal n.toNat)

/-- The date that the whole of a text stands for. -/
def date (cs : List Char) : Option Date := do
  let (year, rest) ← digits 4 cs
  let (hyphens, rest) := match rest with
    | '-' :: more => (true, more)
    | _ => (false, rest)
  match rest with
  | 'W' :: week => weekDate year hyphens week
  | _ => do
    let (month, rest) ← digits 2 rest
    let rest ← match hyphens, rest with
      | false, _ => pure rest
      | true, '-' :: more => pure more
      | true, _ => none
    let (day, rest) ← digits 2 rest
    if rest.isEmpty then pure ⟨year, month, day⟩ else none

/-- Hours, minutes, seconds and microseconds, and whether the text ends with them. -/
structure Clock where
  hour : Nat
  minute : Nat
  second : Nat
  micro : Nat
  whole : Bool

/-- Does nothing follow? The character NUL counts as nothing. -/
def ends : List Char → Bool
  | [] => true
  | c :: _ => c == '\x00'

/-- Up to six digits of a fraction count; digits after them are dropped. -/
def fraction (c : Clock) (cs : List Char) : Option Clock := do
  let count := min 6 cs.length
  let (n, rest) ← digits count cs
  pure { c with micro := n * pow10 (6 - count), whole := ends (rest.dropWhile isDigit) }

/-- Sets hours, minutes or seconds. -/
def Clock.put (c : Clock) (place value : Nat) : Clock :=
  match place with
  | 0 => { c with hour := value }
  | 1 => { c with minute := value }
  | _ => { c with second := value }

/-- Reads pairs of digits from `place` on, `left` of them, with or without colons between them as
after the first. -/
def clockFrom : (left place : Nat) → (colons : Bool) → Clock → List Char → Option Clock
  | 0, _, _, c, cs => fraction c cs
  | left + 1, place, colons, c, cs =>
    match digits 2 cs with
    | none => none
    | some (value, rest) =>
      let c := c.put place value
      match rest with
      | [] => some { c with whole := true }
      -- one stray ASCII character is let pass before an offset
      | [x] => if x.toNat < 0x80 then some { c with whole := x == '\x00' } else none
      | x :: more =>
        let colons := if place = 0 then x == ':' else colons
        if colons ∧ x = ':' then clockFrom left (place + 1) colons c more
        else if x = '.' ∨ x = ',' then fraction c more
        else if colons then none
        else clockFrom left (place + 1) colons c rest

def clock (cs : List Char) : Option Clock := clockFrom 3 0 true ⟨0, 0, 0, 0, true⟩ cs

def isOffsetMark (c : Char) : Bool := c == '+' || c == '-' || c == 'Z'

/-- A clock reading and the offset in microseconds, if one is given. -/
def time (cs : List Char) : Option (Clock × Option Int) := do
  let c ← clock (cs.takeWhile (!isOffsetMark ·))
  match cs.dropWhile (!isOffsetMark ·) with
  | [] => if c.whole then pure (c, none) else none
  | mark :: rest =>
    if mark = 'Z' then
      if ends rest then pure (c, some 0) else none
    else do
      let o ← clock rest
      if !o.whole then none
      else
        let size : Int :=
          (((o.hour * 60 + o.minute) * 60 + o.second) * microsPerSecond + o.micro : Nat)
        pure (c, some (if mark = '-' then -size else size))

/-- Date, clock and offset of a text. A separator has to be followed by a time. -/
def parts (cs : List Char) : Option (Date × Clock × Option Int) := do
  if cs.length < 7 then none
  let n := dateLength cs
  let d ← date (cs.take n)
  match cs.drop n with
  | [] => pure (d, ⟨0, 0, 0, 0, true⟩, none)
  | _ :: rest => do
    let (c, o) ← time rest
    pure (d, c, o)

/-- Is every part of the reading in its range? -/
def check (d : Date) (c : Clock) : Except DateFault Civil :=
  if d.year < 1 ∨ 9999 < d.year then .error (.yearRange d.year)
  else if d.month < 1 ∨ 12 < d.month then .error .monthRange
  else if d.day < 1 ∨ daysInMonth d.year d.month < d.day then .error .dayRange
  else if 23 < c.hour then .error .hourRange
  else if 59 < c.minute then .error .minuteRange
  else if 59 < c.second then .error .secondRange
  else .ok ⟨d, c.hour, c.minute, c.second, c.micro⟩

/-- Writes out every letter Z as an offset. -/
def spellZ (cs : List Char) : List Char :=
  cs.flatMap fun c => if c = 'Z' then "+00:00".toList else [c]

end Reading

/-- A reading with its offset from UTC in microseconds, if it has one. -/
structure Moment where
  civil : Civil
  offset : Option Int
  deriving DecidableEq, Repr

/-- The moment that a text writes. In a text that ends in Z, every Z stands for `+00:00`. -/
def Moment.ofText (s : String) : Except DateFault Moment :=
  let cs := s.toList
  let cs := if cs.getLast? = some 'Z' then Reading.spellZ cs else cs
  match Reading.parts cs with
  | none => .error (.malformed (String.ofList cs))
  | some (d, c, offset) =>
    let o := offset.getD 0
    if (microsPerDay : Int) ≤ o ∨ o ≤ -(microsPerDay : Int) then .error (.offsetRange o)
    else (Reading.check d c).map fun civil => ⟨civil, offset⟩

/-- The instant of a moment, which is in UTC if it has no offset. -/
def Moment.instant (m : Moment) : Except DateFault Instant :=
  match m.offset with
  | none => .ok ⟨m.civil.micros⟩
  | some offset =>
    let t := m.civil.micros - offset
    if Instant.inRange t then .ok ⟨t⟩ else .error .outOfRange

/-- An instant as a moment in UTC. -/
def Instant.moment (t : Instant) : Moment := ⟨t.civil, some 0⟩

/-- The instant that a text stands for. -/
def Instant.ofText (s : String) : Except DateFault Instant := (Moment.ofText s).bind Moment.instant

end Tradeflow
