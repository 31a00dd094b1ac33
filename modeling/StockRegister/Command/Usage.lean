import StockRegister.Text.Quoted

/-!
# Usage errors

A `UsageError` says why a command line makes no command, and `UsageError.message` words it.
What the user typed is quoted in the message, and names that may have been meant are offered.
-/

namespace StockRegister.Command

/-- Why a command line makes no command. -/
inductive UsageError where
  | unknownOption (name : String) (offers : List String)
  | missingValue (option : String)
  | unexpectedValue (option : String)
  | unknownCommand (name : String) (offers : List String)
  | missingCommand
  | missingArgument (choices : List String)
  | unknownChoice (choices : List String) (value : String)
  | notInteger (option value : String)
  | notId (value : String)
  | extraArguments (args : List String)
deriving DecidableEq

/-- The choices of an argument, as its place in the command line is shown. -/
def choicePlace (choices : List String) : String :=
  "'\x7b" ++ "|".intercalate choices ++ "\x7d'"

/-- The sentence that offers names. -/
def offerText : List String → String
  | [] => ""
  | [name] => " Did you mean " ++ Text.quoted name ++ "?"
  | names => " (Did you mean one of: " ++ ", ".intercalate (names.map Text.quoted) ++ "?)"

/-- The wording of an error. -/
def UsageError.message : UsageError → String
  | unknownOption name offers =>
    "No such option " ++ Text.quoted name ++ "." ++ offerText offers
  | missingValue option => "Option " ++ Text.quoted option ++ " requires an argument."
  | unexpectedValue option => "Option " ++ Text.quoted option ++ " does not take a value."
  | unknownCommand name offers =>
    "No such command " ++ Text.quoted name ++ "." ++ offerText offers
  | missingCommand => "Missing command."
  | missingArgument choices => "Missing argument " ++ choicePlace choices ++ ". Choose from:"
  | unknownChoice choices value =>
    "Invalid value for " ++ choicePlace choices ++ ": " ++ Text.quoted value ++ " is not one of " ++
      ", ".intercalate (choices.map Text.quoted) ++ "."
  | notInteger option value =>
    "Invalid value for '" ++ option ++ "': " ++ Text.quoted value ++ " is not a valid integer."
  | notId value => "Invalid value for VALUE: " ++ Text.quoted value ++ " is not an integer id"
  | extraArguments args =>
    (if args.length = 1 then "Got unexpected extra argument ("
      else "Got unexpected extra arguments (") ++ " ".intercalate args ++ ")"

end StockRegister.Command
