/-
  Everything that can go wrong, by cause, and the wording of each.
-/
import Tradeflow.Json.Reader
import Tradeflow.Record.Problem
import Tradeflow.Time.Reading

namespace Tradeflow

inductive Fault where
  /-- A document does not fit; its problems are never empty. -/
  | rejected (problems : List Problem)
  /-- A date is neither text nor a date. -/
  | notADate (kind : String)
  | date (cause : DateFault)
  /-- A span of so many days is not representable. -/
  | tooManyDays (days : Int)
  | intTooLarge
  | floorOfNaN
  | floorOfInfinity
  | negativeSeed
  | negativeCount
  | indexRange
  | emptyList
  | zeroDivision
  | sumOfInfinities
  | sumOverflow
  | runsNotPositive
  | durationNotPositive
  | unknownHorizon (horizon : String)
  | noAttribute (kind name : String)
  | notSubscriptable (kind : String)
  | missingKey (key : String)
  | configMissing (name path : String)
  | configSyntax (name : String)
  | configNotMapping (name : String)
  /-- A text is no whole number to a base. -/
  | wholeText (base : Nat) (text : String)
  | floatText (text : String)
  /-- A number is no code point. -/
  | codePointRange
  /-- An interchange text is no document at all. -/
  | interchangeText (cause : Json.BytesError)
  /-- An interchange document has another form. -/
  | interchangeForm (problems : List Problem)

namespace Fault

def message : Fault → String
  | .rejected _ => "validation failed"
  | .notADate kind => "\x27" ++ kind ++ "\x27 object has no attribute \x27tzinfo\x27"
  | .date cause => cause.message
  | .tooManyDays days =>
    if days < -2147483648 ∨ 2147483647 < days then "Python int too large to convert to C int"
    else "days=" ++ toString days ++ "; must have magnitude <= 999999999"
  | .intTooLarge => "int too large to convert to float"
  | .floorOfNaN => "cannot convert float NaN to integer"
  | .floorOfInfinity => "cannot convert float infinity to integer"
  | .negativeSeed => "expected non-negative integer"
  | .negativeCount => "can\x27t convert negative value to uint32_t"
  | .indexRange => "list index out of range"
  | .emptyList => "pop from empty list"
  | .zeroDivision => "float division by zero"
  | .sumOfInfinities => "-inf + inf in fsum"
  | .sumOverflow => "intermediate overflow in fsum"
  | .runsNotPositive => "runs must be positive"
  | .durationNotPositive => "duration_hours must be positive"
  | .unknownHorizon horizon => "Unknown horizon \x27" ++ horizon ++ "\x27"
  | .noAttribute kind name =>
    "\x27" ++ kind ++ "\x27 object has no attribute \x27" ++ name ++ "\x27"
  | .notSubscriptable kind => "\x27" ++ kind ++ "\x27 object is not subscriptable"
  | .missingKey key => Text.quoted key
  | .configMissing name path => "Lab config \x27" ++ name ++ "\x27 not found at " ++ path
  | .configSyntax name => "Invalid YAML in lab config \x27" ++ name ++ "\x27"
  | .configNotMapping name =>
    "Lab config \x27" ++ name ++ "\x27 must contain a mapping at the top level"
  | .wholeText base text =>
    "invalid literal for int() with base " ++ toString base ++ ": " ++ Text.quoted text
  | .floatText text => "could not convert string to float: " ++ Text.quoted text
  | .codePointRange => "chr() arg not in range(0x110000)"
  | .interchangeText cause => "Interchange payload is not valid JSON: " ++ cause.message
  | .interchangeForm _ => "Interchange payload does not match the compiled strategy format"

/-- A single problem with a value as a whole. -/
def problem (kind : ProblemKind) : Fault := .rejected [⟨[], kind⟩]

/-- A problem seen from one step further out; other faults stay as they are. -/
def under (step : Place) : Fault → Fault
  | .rejected ps => .rejected (ps.map (Problem.under step))
  | f => f

end Fault

/-- A reading of one part together with the next. Problems of both parts add up; any other fault ends
the reading at once. -/
def Except.both {α β γ : Type} (f : α → β → γ) (x : Except Fault α) (y : Unit → Except Fault β) :
    Except Fault γ :=
  match x with
  | .ok a => (y ()).map (f a)
  | .error (.rejected ps) =>
    match y () with
    | .ok _ => .error (.rejected ps)
    | .error (.rejected qs) => .error (.rejected (ps ++ qs))
    | .error e => .error e
  | .error e => .error e

/-- What is found out about an outcome tells that there is one. -/
theorem Except.exists_of_map {α β : Type} {x : Except Fault α} {f : α → β} {b : β}
    (h : (x.map f).toOption = some b) : ∃ a, x = .ok a ∧ f a = b := by
  cases x with
  | error e => cases h
  | ok a => exact ⟨a, rfl, Option.some.inj h⟩

end Tradeflow
