import StockRegister.Command.Usage
import StockRegister.Text.Pieces
import StockRegister.Text.Similar

/-!
# Command-line arguments

`Arguments.read` splits a command line into options and other arguments. An option starts
with a dash and is not a dash alone; it may be followed by a value, as the next argument or
behind `=`. A line `--` ends the options. A `Grammar` says which options there are, and
whether they may stand behind other arguments.
-/

namespace StockRegister.Command

/-- An option: its name with the dashes, and whether a value belongs to it. -/
structure OptionSpec where
  name : String
  takesValue : Bool
deriving DecidableEq

/-- The options of a command, and whether they may stand behind other arguments. -/
structure Grammar where
  options : List OptionSpec
  interspersed : Bool

/-- A command line in two parts: the options in their order, with their values, and the other
arguments. -/
structure Arguments where
  options : List (String × String) := []
  others : List String := []
deriving DecidableEq

namespace Arguments

/-- A command line with an option more in front. -/
def withOption (name value : String) (a : Arguments) : Arguments :=
  { a with options := (name, value) :: a.options }

/-- A command line with another argument more in front. -/
def withOther (arg : String) (a : Arguments) : Arguments := { a with others := arg :: a.others }

/-- Whether an argument is written as an option. -/
def isOption (arg : String) : Bool := arg.toList.head? == some '-' && arg != "-"

/-- The name of an argument that is written as an option, and the value behind `=`. -/
def splitOption (arg : String) : String × Option String :=
  let (name, value) := Text.cutAtFirst '=' arg.toList
  (String.ofList name, value.map String.ofList)

/-- The error of an option that is none of a grammar. Behind a single dash only one letter is
reported, and nothing is offered for it. -/
def unknownOption (g : Grammar) (arg : String) : UsageError :=
  match arg.toList with
  | '-' :: '-' :: _ =>
    let name := (splitOption arg).1
    .unknownOption name (Text.likeNames (g.options.map (·.name)) name)
  | cs => .unknownOption (String.ofList (cs.take 2)) []

/-- Split a command line. -/
def read (g : Grammar) : List String → Except UsageError Arguments
  | [] => .ok {}
  | arg :: rest =>
    if arg == "--" then .ok { others := rest }
    else if isOption arg then
      let (name, value) := splitOption arg
      match g.options.find? (·.name == name), value with
      | none, _ => .error (unknownOption g arg)
      | some ⟨_, true⟩, some v => (withOption name v) <$> read g rest
      | some ⟨_, true⟩, none =>
        match rest with
        | [] => .error (.missingValue name)
        | v :: rest => (withOption name v) <$> read g rest
      | some ⟨_, false⟩, some _ => .error (.unexpectedValue name)
      | some ⟨_, false⟩, none => (withOption name "") <$> read g rest
    else if g.interspersed then (withOther arg) <$> read g rest
    else .ok { others := arg :: rest }

/-- The value of an option: the last one counts. -/
def value? (a : Arguments) (name : String) : Option String := a.options.reverse.lookup name

/-- Whether an option is there. -/
def has (a : Arguments) (name : String) : Bool := (a.value? name).isSome

end Arguments

end StockRegister.Command
