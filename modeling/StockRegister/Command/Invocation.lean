import StockRegister.Command.Arguments
import StockRegister.Operand
import StockRegister.Settings.Loading

/-!
# Invocations

`Invocation.read` reads a command line as an `Action` and the source of its settings. The
source is named by options in front of the command, and the rest of the line is read by the
grammar of the command. An option that asks for help or for the version takes precedence over
whatever else is wrong with the values, but not over an option that does not exist.
-/

namespace StockRegister.Command

/-- What the program is asked to do. -/
inductive Action where
  | serve (host : Option String) (port : Option Int) (reload : Bool)
  | check (op : Operation) (value companyName : Option String)
  | rules

/-- An action with the source of its settings. -/
structure Invocation where
  source : SettingsSource
  action : Action

/-- Why a command line makes no command: it asks for something else, or is wrong. -/
inductive Stop where
  | help
  | version
  | empty
  | usage (e : UsageError)

/-- An option with a value. -/
def valueOption (name : String) : OptionSpec := ⟨name, true⟩

/-- An option without a value. -/
def flagOption (name : String) : OptionSpec := ⟨name, false⟩

/-- The options in front of the command. -/
def programGrammar : Grammar :=
  ⟨[flagOption "--version", valueOption "--config", valueOption "--profile", flagOption "--help"],
    false⟩

/-- The options of the command that starts the interface. -/
def serveGrammar : Grammar :=
  ⟨[valueOption "--host", valueOption "--port", flagOption "--reload", flagOption "--help"], true⟩

/-- The options of the command that assesses one request. -/
def checkGrammar : Grammar := ⟨[valueOption "--company-name", flagOption "--help"], true⟩

/-- The options of the command that lists the rules. -/
def rulesGrammar : Grammar := ⟨[flagOption "--help"], true⟩

/-- Split a command line, unless it asks for help or for the version. -/
def readArguments (g : Grammar) (args : List String) : Except Stop Arguments :=
  match Arguments.read g args with
  | .error e => .error (.usage e)
  | .ok a =>
    match a.options.find? fun o => o.1 == "--help" || o.1 == "--version" with
    | some (name, _) => .error (if name == "--help" then .help else .version)
    | none => .ok a

/-- A command, if nothing is left of its arguments. -/
def finish (c : Action) : List String → Except Stop Action
  | [] => .ok c
  | args => .error (.usage (.extraArguments args))

/-- The number of an option. -/
def readInteger (name : String) : Option String → Except Stop (Option Int)
  | none => .ok none
  | some s =>
    match typedInteger s with
    | some n => .ok (some n)
    | none => .error (.usage (.notInteger name s))

/-- The command that starts the interface. -/
def readServe (args : List String) : Except Stop Action := do
  let a ← readArguments serveGrammar args
  let port ← readInteger "--port" (a.value? "--port")
  finish (.serve (a.value? "--host") port (a.has "--reload")) a.others

/-- The names of all operations. -/
def operationNames : List String := Operation.members.map Prod.fst

/-- The command that assesses one request. -/
def readCheck (args : List String) : Except Stop Action := do
  let a ← readArguments checkGrammar args
  match a.others with
  | [] => throw (.usage (.missingArgument operationNames))
  | name :: rest =>
    match Operation.ofName? name with
    | none => throw (.usage (.unknownChoice operationNames name))
    | some op => finish (.check op rest.head? (a.value? "--company-name")) (rest.drop 1)

/-- The command that lists the rules. -/
def readRules (args : List String) : Except Stop Action := do
  let a ← readArguments rulesGrammar args
  finish .rules a.others

/-- The commands with their names. -/
def commands : List (String × (List String → Except Stop Action)) :=
  [("serve", readServe), ("check", readCheck), ("rules", readRules)]

/-- The command that the rest of a line names. A name that is written as an option is first
tried as one. -/
def readCommand : List String → Except Stop Action
  | [] => .error (.usage .missingCommand)
  | name :: args =>
    match commands.lookup name with
    | some read => read args
    | none =>
      match readArguments programGrammar (name :: args) with
      | .error stop => .error stop
      | .ok _ =>
        .error (.usage (.unknownCommand name (Text.likeNames (commands.map Prod.fst) name)))

/-- The invocation that a command line makes. -/
def Invocation.read (args : List String) : Except Stop Invocation :=
  if args.isEmpty then .error .empty
  else do
    let a ← readArguments programGrammar args
    let action ← readCommand a.others
    let textOf (name : String) : Option Text := (a.value? name).map Text.ofString
    return ⟨⟨textOf "--config", textOf "--profile"⟩, action⟩

end StockRegister.Command
