/-
  What a scalar without quotes stands for, told from its look: nothing, a truth value, a number, a date,
  or else text. Digits may be grouped by underscores; whole numbers are written to the base 2, 8, 10 or
  16; numbers with colons count sixtieths.
-/
import Tradeflow.Record.Numeral
import Tradeflow.Time.Reading

namespace Tradeflow.Yaml

/-- What a node is tagged as, by itself or by its look. -/
inductive Tag where
  | null
  | bool
  | int
  | float
  | date
  | text
  /-- The key under which a mapping takes in other mappings. -/
  | merge
  /-- The key of a mapping's own value. -/
  | own
  | seq
  | map
  | other (name : String)
  deriving DecidableEq, Repr

open Json (isDigit digitsValue)
open Numeral (takeSign)

/-- A word in lower case, with a capital, and in upper case. -/
def spellings (word : String) : List String := [word, word.capitalize, word.toUpper]

def trueWords : List String := ["yes", "true", "on"].flatMap spellings

def falseWords : List String := ["no", "false", "off"].flatMap spellings

def nullWords : List String := "" :: "~" :: spellings "null"

def isGrouped (c : Char) : Bool := isDigit c || c == '_'

def isOctal (c : Char) : Bool := '0' ≤ c && c ≤ '7'

def isHex (c : Char) : Bool := (Text.hexDigit? c).isSome

/-- Passes over numbers below sixty, each after a colon. -/
def skipSixtieths : List Char → List Char
  | ':' :: a :: b :: rest =>
    if '0' ≤ a && a ≤ '5' && isDigit b then skipSixtieths rest
    else if isDigit a then skipSixtieths (b :: rest)
    else ':' :: a :: b :: rest
  | [':', a] => if isDigit a then [] else [':', a]
  | cs => cs

/-- An exponent with its sign, or nothing. -/
def endsNumber : List Char → Bool
  | [] => true
  | e :: sign :: ds =>
    (e == 'e' || e == 'E') && (sign == '+' || sign == '-') && !ds.isEmpty && ds.all isDigit
  | _ => false

def looksInt (cs : List Char) : Bool :=
  match (takeSign cs).2 with
  | '0' :: 'b' :: ds => !ds.isEmpty && ds.all fun c => c == '0' || c == '1' || c == '_'
  | '0' :: 'x' :: ds => !ds.isEmpty && ds.all fun c => isHex c || c == '_'
  | '0' :: ds => ds.all fun c => isOctal c || c == '_'
  | c :: ds =>
    let rest := ds.dropWhile isGrouped
    isDigit c && (rest.isEmpty || (rest.head? == some ':' && (skipSixtieths rest).isEmpty))
  | [] => false

def looksFloat (cs : List Char) : Bool :=
  let body := (takeSign cs).2
  match body with
  | '.' :: rest =>
    let word := String.ofList rest
    (spellings "inf").contains word ||
      (body.length == cs.length &&
        (["nan", "NaN", "NAN"].contains word ||
          (rest.head?.any isDigit && endsNumber (rest.dropWhile isGrouped))))
  | c :: ds =>
    isDigit c &&
      match ds.dropWhile isGrouped with
      | '.' :: rest => endsNumber (rest.dropWhile isGrouped)
      | ':' :: rest =>
        match skipSixtieths (':' :: rest) with
        | '.' :: rest => rest.all isGrouped
        | _ => false
      | _ => false
  | [] => false

/-- A date, or a date with a time and perhaps an offset in microseconds. -/
structure Stamp where
  date : Calendar.Date
  clock : Option (Reading.Clock × Option Int)

namespace Stamp

/-- The value of two digits, or of one. -/
def oneOrTwo (cs : List Char) : Option (Nat × List Char) :=
  match Reading.digits 2 cs with
  | some r => some r
  | none => Reading.digits 1 cs

/-- What follows a given character. -/
def after (c : Char) : List Char → Option (List Char)
  | d :: rest => if c = d then some rest else none
  | [] => none

def isGap (c : Char) : Bool := c == ' ' || c == '\t'

/-- A fraction of a second in microseconds, if there is one; digits after the sixth are dropped. -/
def fraction : List Char → Nat × List Char
  | '.' :: rest =>
    let ds := (rest.takeWhile isDigit).take 6
    (digitsValue ds * pow10 (6 - ds.length), rest.dropWhile isDigit)
  | cs => (0, cs)

/-- The letter Z, an offset in hours and perhaps minutes, or nothing. -/
def offset (cs : List Char) : Option (Option Int) :=
  if cs.isEmpty then some none
  else
    match cs.dropWhile isGap with
    | ['Z'] => some (some 0)
    | sign :: rest =>
      if sign = '+' ∨ sign = '-' then do
        let (hours, rest) ← oneOrTwo rest
        let minutes ← match rest with
          | [] => some 0
          | _ => do
            let (minutes, rest) ← Reading.digits 2 (← after ':' rest)
            if rest.isEmpty then some minutes else none
        let size : Int := (hours * 60 + minutes) * (60 * microsPerSecond : Nat)
        some (some (if sign = '-' then -size else size))
      else none
    | [] => none

/-- Reads a time up to the end. -/
def time (cs : List Char) : Option (Reading.Clock × Option Int) := do
  let (hour, rest) ← oneOrTwo cs
  let (minute, rest) ← Reading.digits 2 (← after ':' rest)
  let (second, rest) ← Reading.digits 2 (← after ':' rest)
  let (micro, rest) := fraction rest
  some (⟨hour, minute, second, micro, true⟩, ← offset rest)

/-- The parts of a date, with or without a time. -/
def ofChars (cs : List Char) : Option Stamp := do
  let (year, rest) ← Reading.digits 4 cs
  let (month, rest) ← oneOrTwo (← after '-' rest)
  let (day, rest) ← oneOrTwo (← after '-' rest)
  match rest with
  | [] => some ⟨⟨year, month, day⟩, none⟩
  | c :: more =>
    let gap := if c = 't' ∨ c = 'T' then some more
      else if isGap c then some (more.dropWhile isGap) else none
    some ⟨⟨year, month, day⟩, some (← time (← gap))⟩

/-- The text of an offset. -/
def offsetText (micros : Int) : String :=
  let minutes := micros.natAbs / (60 * microsPerSecond)
  (if micros < 0 then "-" else "+") ++ padded 2 (minutes / 60) ++ ":" ++ padded 2 (minutes % 60)

/-- The text of a date that exists. -/
def text (s : Stamp) : Except DateFault String :=
  match s.clock with
  | none =>
    (Reading.check s.date ⟨0, 0, 0, 0, true⟩).map fun c => String.ofList (c.text.toList.take 10)
  | some (clock, none) => (Reading.check s.date clock).map Civil.text
  | some (clock, some offset) =>
    if (microsPerDay : Int) ≤ offset.natAbs then .error (.offsetRange offset)
    else (Reading.check s.date clock).map fun c => c.text ++ offsetText offset

end Stamp

/-- A date without a time has to be written in full. -/
def looksDate (cs : List Char) : Bool :=
  match Stamp.ofChars cs with
  | some s => s.clock.isSome || cs.length == 10
  | none => false

/-- What a scalar without quotes stands for. -/
def Tag.ofPlain (cs : List Char) : Tag :=
  let word := String.ofList cs
  if nullWords.contains word then .null
  else if trueWords.contains word || falseWords.contains word then .bool
  else if looksInt cs then .int
  else if looksFloat cs then .float
  else if looksDate cs then .date
  else if word == "<<" then .merge
  else if word == "=" then .own
  else if ["!", "&", "*"].contains word then .other "tag:yaml.org,2002:yaml"
  else .text

/-- Why a scalar does not fit its tag. -/
inductive Misfit where
  | int (base : Nat) (digits : String)
  | float (text : String)
  | bool (text : String)
  | stamp
  | date (cause : DateFault)

/-- The value of digits to a base. -/
def digitsTo (base : Nat) (cs : List Char) : Except Misfit Nat :=
  let value (acc : Option Nat) (c : Char) : Option Nat :=
    match acc, Text.hexDigit? c with
    | some n, some d => if d < base then some (n * base + d) else none
    | _, _ => none
  match cs, cs.foldl value (some 0) with
  | _ :: _, some n => .ok n
  | _, _ => .error (.int base (String.ofList cs))

/-- Cuts a text at every colon. -/
def atColons (cs : List Char) : List (List Char) :=
  cs.foldr (fun c parts => match c, parts with
    | ':', _ => [] :: parts
    | _, p :: ps => (c :: p) :: ps
    | _, [] => [[c]]) [[]]

/-- The whole number written in a text. -/
def readInt (cs : List Char) : Except Misfit Int :=
  let (negative, body) := takeSign (cs.filter (· != '_'))
  let size : Except Misfit Nat :=
    match body with
    | ['0'] => .ok 0
    | '0' :: 'b' :: ds => digitsTo 2 ds
    | '0' :: 'x' :: ds => digitsTo 16 ds
    | '0' :: ds => digitsTo 8 ('0' :: ds)
    | _ =>
      (atColons body).foldlM (fun n part => (digitsTo 10 part).map (n * 60 + ·)) 0
  size.map fun n => if negative then -(n : Int) else n

/-- Numbers added up as sixtieths of one another, the last one first. -/
def sumSixtieths : (base total : Float) → List Float → Float
  | _, total, [] => total
  | base, total, x :: xs => sumSixtieths (base * 60) (total + x * base) xs

/-- The double written in a text. -/
def readFloat (cs : List Char) : Except Misfit Float :=
  let (negative, body) := takeSign ((cs.filter (· != '_')).map Char.toLower)
  let part (cs : List Char) : Except Misfit Float :=
    match Numeral.plainFloat? cs with
    | some x => .ok x
    | none => .error (.float (String.ofList cs))
  let signed (x : Float) : Float := if negative then -1 * x else x
  if body = ".inf".toList then .ok (Json.infinity negative)
  else if body = ".nan".toList then .ok Json.notANumber
  else if body.contains ':' then
    ((atColons body).mapM part).map fun xs => signed (sumSixtieths 1 0 xs.reverse)
  else (part body).map signed

/-- The truth value of a word. -/
def readBool (cs : List Char) : Except Misfit Bool :=
  let word := String.ofList (cs.map Char.toLower)
  if trueWords.contains word then .ok true
  else if falseWords.contains word then .ok false
  else .error (.bool word)

/-- The text of the date that a text stands for. -/
def readDate (cs : List Char) : Except Misfit String :=
  match Stamp.ofChars cs with
  | none => .error .stamp
  | some s => s.text.mapError .date

end Tradeflow.Yaml
