/-
  Numbers given as text. Blanks around a number do not count. A single underscore may stand between
  characters; a whole number may end in a fraction of zeros.
-/
import Tradeflow.Json.Reader
import Tradeflow.Text.Basic

namespace Tradeflow.Numeral

open Json (isDigit digitsValue)

/-- Takes a sign off the front; true is minus. -/
def takeSign : List Char → Bool × List Char
  | '-' :: rest => (true, rest)
  | '+' :: rest => (false, rest)
  | cs => (false, cs)

/-- Underscores taken out, unless they stand at an end or side by side. -/
def dropUnderscores (cs : List Char) : Option (List Char) :=
  let rec doubled : List Char → Bool
    | '_' :: '_' :: _ => true
    | _ :: rest => doubled rest
    | [] => false
  if cs.head? = some '_' ∨ cs.getLast? = some '_' ∨ doubled cs then none
  else some (cs.filter (· != '_'))

/-- A number with digits before or after the point, and an exponent perhaps. -/
def decimal? (negative : Bool) (cs : List Char) : Option Float :=
  let whole := cs.takeWhile isDigit
  let rest := cs.dropWhile isDigit
  let (fraction, rest) := match rest with
    | '.' :: more => (more.takeWhile isDigit, more.dropWhile isDigit)
    | _ => ([], rest)
  let (exponent, rest) := Json.exponentPart rest
  if (whole.isEmpty ∧ fraction.isEmpty) ∨ !rest.isEmpty then none
  else
    let e : Int := exponent.getD 0 - fraction.length
    some (Double.ofDecimal negative (digitsValue (whole ++ fraction)) e)

/-- A decimal number, or a name of infinity or of no number, in any case. -/
def plainFloat? (cs : List Char) : Option Float :=
  let (negative, body) := takeSign cs
  let word := String.ofList (body.map Char.toLower)
  if word = "inf" ∨ word = "infinity" then some (Json.infinity negative)
  else if word = "nan" then some Json.notANumber
  else decimal? negative body

/-- The double that a text stands for. -/
def float? (s : String) : Option Float :=
  let cs := s.toList
  match plainFloat? (Text.trimBlank cs) with
  | some x => some x
  | none => (dropUnderscores cs).bind plainFloat?

/-- Digits with single underscores between them. -/
def digits? (cs : List Char) : Option Nat :=
  match dropUnderscores cs with
  | none => none
  | some ds => if ds.isEmpty ∨ !ds.all isDigit then none else some (digitsValue ds)

/-- The whole number that a text stands for. -/
def int? (s : String) : Option Int :=
  let (negative, body) := takeSign (Text.trimBlank s.toList)
  let whole := body.takeWhile (· != '.')
  let fine := match body.dropWhile (· != '.') with
    | [] => true
    | _ :: zeros => !zeros.isEmpty && zeros.all (· == '0')
  if fine then (digits? whole).map fun n => if negative then -(n : Int) else n
  else none

/-- The truth value that a text stands for, in any case. -/
def bool? (s : String) : Option Bool :=
  let word := String.ofList (s.toList.map Char.toLower)
  if ["true", "t", "yes", "y", "on", "1"].contains word then some true
  else if ["false", "f", "no", "n", "off", "0"].contains word then some false
  else none

end Tradeflow.Numeral
