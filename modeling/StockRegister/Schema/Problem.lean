import StockRegister.Calendar

/-!
# Problems of a value with its schema

A `Problem` says what is wrong with a part of a value (`Fault`) and where that part stands:
the names and positions that lead to it. `Fault.code` and `Fault.message` give a fault its
short name and its wording.
-/

namespace StockRegister.Schema

/-- One step from a value to a part of it. -/
inductive Step where
  | name (s : String)
  | position (n : Nat)
deriving DecidableEq

/-- The text of a step. -/
def Step.text : Step → String
  | name s => s
  | position n => toString n

/-- What is wrong with a value. -/
inductive Fault where
  | missing
  | notModel (title : String)
  | notFieldSource
  | notText
  | notUnicode
  | textTooShort
  | notInteger
  | unreadableInteger
  | integerTooLong
  | fractionalInteger
  | notFinite
  | notNumber
  | unreadableNumber
  | notBoolean
  | unreadableBoolean
  | below (least : Int)
  | notAbove (bound : Int)
  | above (most : Int)
  | notLiteral (choices : List String)
  | notChoice (choices : List String)
  | notMoment
  | unreadableMoment (error : MomentError)
  | unusableMoment (error : MomentError)
  | frozen
  | brokenJson
deriving DecidableEq

/-- The choices in single quotes, the last two joined by a word. -/
def choiceList : List String → String
  | [] => ""
  | [c] => "'" ++ c ++ "'"
  | [c, d] => "'" ++ c ++ "' or '" ++ d ++ "'"
  | c :: cs => "'" ++ c ++ "', " ++ choiceList cs

/-- The short name of a fault. -/
def Fault.code : Fault → String
  | missing => "missing"
  | notModel _ => "model_type"
  | notFieldSource => "model_attributes_type"
  | notText => "string_type"
  | notUnicode => "string_unicode"
  | textTooShort => "string_too_short"
  | notInteger => "int_type"
  | unreadableInteger => "int_parsing"
  | integerTooLong => "int_parsing_size"
  | fractionalInteger => "int_from_float"
  | notFinite => "finite_number"
  | notNumber => "float_type"
  | unreadableNumber => "float_parsing"
  | notBoolean => "bool_type"
  | unreadableBoolean => "bool_parsing"
  | below _ => "greater_than_equal"
  | notAbove _ => "greater_than"
  | above _ => "less_than_equal"
  | notLiteral _ => "literal_error"
  | notChoice _ => "enum"
  | notMoment => "datetime_type"
  | unreadableMoment _ => "datetime_from_date_parsing"
  | unusableMoment _ => "datetime_parsing"
  | frozen => "frozen_instance"
  | brokenJson => "json_invalid"

/-- The wording of a fault. -/
def Fault.message : Fault → String
  | missing => "Field required"
  | notModel title => "Input should be a valid dictionary or instance of " ++ title
  | notFieldSource => "Input should be a valid dictionary or object to extract fields from"
  | notText => "Input should be a valid string"
  | notUnicode =>
    "Input should be a valid string, unable to parse raw data as a unicode string"
  | textTooShort => "String should have at least 1 character"
  | notInteger => "Input should be a valid integer"
  | unreadableInteger => "Input should be a valid integer, unable to parse string as an integer"
  | integerTooLong => "Unable to parse input string as an integer, exceeded maximum size"
  | fractionalInteger => "Input should be a valid integer, got a number with a fractional part"
  | notFinite => "Input should be a finite number"
  | notNumber => "Input should be a valid number"
  | unreadableNumber => "Input should be a valid number, unable to parse string as a number"
  | notBoolean => "Input should be a valid boolean"
  | unreadableBoolean => "Input should be a valid boolean, unable to interpret input"
  | below least => "Input should be greater than or equal to " ++ toString least
  | notAbove bound => "Input should be greater than " ++ toString bound
  | above most => "Input should be less than or equal to " ++ toString most
  | notLiteral choices => "Input should be " ++ choiceList choices
  | notChoice choices => "Input should be " ++ choiceList choices
  | notMoment => "Input should be a valid datetime"
  | unreadableMoment error => "Input should be a valid datetime or date, " ++ error.message
  | unusableMoment error => "Input should be a valid datetime, " ++ error.message
  | frozen => "Instance is frozen"
  | brokenJson => "JSON decode error"

/-- A fault and the way to the part that has it. -/
structure Problem where
  fault : Fault
  path : List Step
deriving DecidableEq

/-- A problem as one line: the way to the part, joined by points, and the wording. -/
def Problem.text (p : Problem) : String :=
  ".".intercalate (p.path.map Step.text) ++ ": " ++ p.fault.message

/-- The problem of a part, seen from the whole. -/
def Problem.under (step : Step) (p : Problem) : Problem := { p with path := step :: p.path }

end StockRegister.Schema
