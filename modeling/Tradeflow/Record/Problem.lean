/-
  What is wrong with a document: the place, as the keys and indexes that lead to it, and the kind of
  the problem.
-/

namespace Tradeflow

/-- One step into a document. -/
inductive Place where
  | key (name : String)
  | index (n : Nat)
  deriving DecidableEq, Repr

inductive ProblemKind where
  | missing
  | notARecord
  | notText
  | notAFloat
  | floatText
  | notFinite
  | notAnInt
  | intText
  | intFraction
  | intSize
  | notABool
  | boolText
  | notAList
  | notAMap
  | notALiteral
  | notAMember
  | notADate
  | dateText
  | tooSmall
  | tooLarge
  | unknownKey
  | frozen
  | unknownField
  /-- Refused by a rule of the record itself, for the reason given. -/
  | refused (reason : String)
  deriving DecidableEq, Repr

def ProblemKind.word : ProblemKind → String
  | .missing => "missing"
  | .notARecord => "model_type"
  | .notText => "string_type"
  | .notAFloat => "float_type"
  | .floatText => "float_parsing"
  | .notFinite => "finite_number"
  | .notAnInt => "int_type"
  | .intText => "int_parsing"
  | .intFraction => "int_from_float"
  | .intSize => "int_parsing_size"
  | .notABool => "bool_type"
  | .boolText => "bool_parsing"
  | .notAList => "list_type"
  | .notAMap => "dict_type"
  | .notALiteral => "literal_error"
  | .notAMember => "enum"
  | .notADate => "datetime_type"
  | .dateText => "datetime_from_date_parsing"
  | .tooSmall => "greater_than"
  | .tooLarge => "less_than_equal"
  | .unknownKey => "extra_forbidden"
  | .frozen => "frozen_instance"
  | .unknownField => "no_such_attribute"
  | .refused _ => "value_error"

structure Problem where
  place : List Place
  kind : ProblemKind
  deriving DecidableEq, Repr

/-- The same problem seen from one step further out. -/
def Problem.under (step : Place) (p : Problem) : Problem := ⟨step :: p.place, p.kind⟩

end Tradeflow
