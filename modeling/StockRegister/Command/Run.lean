import StockRegister.Assessment.Run
import StockRegister.Command.Invocation

/-!
# Running commands

`Invocation.run` carries out a command under the settings that its source and the environment
lead to. The `Outcome` says what happened: a request may proceed or is rejected, the rules
are listed, or the interface is started. Whoever starts the interface leaves an environment
behind from which the same settings are found again.

A command line as a whole has a `Report`: the lines that are written, the error if there is
one, and the exit code, which is 1 for a rejection and 2 for an error of usage.
-/

namespace StockRegister.Command

/-- How the interface is started. -/
structure Launch where
  host : Text
  port : Int
  reload : Bool
  level : LogLevel
  environment : SettingsSource

/-- What a command did. -/
inductive Outcome where
  | assessed (v : Verdict)
  | listed (table : List (String × String))
  | launched (l : Launch)
  | misused (e : UsageError)

/-- Why a command is not carried out. -/
inductive RunError where
  /-- The settings are not loaded, or where they come from cannot be handed on. -/
  | settings (e : LoadError)
  | probability (e : InjectorError)
  /-- A line has half of a character in it, which cannot be written. -/
  | unwritableLine
  /-- A line has an integer in it that is too long to be written. -/
  | unwritableNumber

/-- The id that is typed at the command line, if there is one. -/
def readId : Option String → Except UsageError (Option Int)
  | none => .ok none
  | some s =>
    match typedInteger s with
    | some n => .ok (some n)
    | none => .error (.notId s)

/-- The operand that a request at the command line is about. -/
def checkOperand (op : Operation) (value companyName : Option String) :
    Except UsageError Operand :=
  match op.operandShape with
  | (.entity, purpose) => (readId value).map fun id => .entity id (purpose.getD .lookup)
  | (.symbol, _) => .ok (.symbol (value.map Text.ofString))
  | (.creation, _) =>
    .ok (.creation (some
      ⟨value.map Text.ofString, companyName.map Text.ofString, none, none, none, none, none⟩))
  | (.bulk, _) => .ok .bulk

/-- Assess one request and leave a trace of it in a trail, unless its value makes no operand. -/
def checkRequest (assessor : Assessor) (clock : Clock) (op : Operation)
    (value companyName : Option String) (t : Trail) : Outcome × Trail :=
  match checkOperand op value companyName with
  | .error e => (.misused e, t)
  | .ok operand =>
    let (verdict, _, t) := assessor.conclude clock op operand t
    (.assessed verdict, t)

/-- Assess one request; its log lines are no part of the outcome. -/
def runCheck (assessor : Assessor) (clock : Clock) (op : Operation)
    (value companyName : Option String) : Outcome :=
  (checkRequest assessor clock op value companyName {}).1

/-- Why a name cannot stand in the environment. -/
def exportError? (name : Text) : Option FileError :=
  if !name.points.all Files.isWritablePoint then some .unwritableName
  else if name.points.contains 0 then some .unusableName
  else none

/-- Why the names of a source cannot stand in the environment. -/
def sourceError? (source : SettingsSource) : Option FileError :=
  ((SettingsSource.given source.path).bind exportError?).or
    ((SettingsSource.given source.profile).bind exportError?)

/-- How the interface is started under settings; the options of the command take precedence. -/
def launchUnder (s : Settings) (source environment : SettingsSource) (host : Option String)
    (port : Option Int) (reload : Bool) : Launch :=
  { host := (SettingsSource.given (host.map Text.ofString)).getD s.web.host
    port := (port.filter (· != 0)).getD s.web.port
    reload := reload
    level := s.log.level
    environment := source.writtenOver environment }

/-- Carry out a command under settings. The seed is for settings that give none. -/
def Action.run (c : Action) (s : Settings) (source environment : SettingsSource)
    (clock : Clock) (seed : Int) : Except RunError Outcome :=
  let draws := RandomSource.ofSeed (s.assessment.randomSeed.getD seed)
  let assessor := (Assessor.ofSettings s.assessment draws).mapError .probability
  match c with
  | .serve host port reload =>
    match sourceError? source with
    | some e => .error (.settings (.file e))
    | none => .ok (.launched (launchUnder s source environment host port reload))
  | .check op value companyName => assessor.map fun a => runCheck a clock op value companyName
  | .rules => assessor.bind fun a =>
    if s.assessment.sentinels.areWritable then
      .ok (.listed (sentinelTable s.assessment.sentinels a.injector))
    else .error .unwritableNumber

/-- Carry out an invocation. -/
def Invocation.run (i : Invocation) (fs : Files) (environment : SettingsSource) (clock : Clock)
    (seed : Int) : Except RunError Outcome :=
  match Settings.resolve fs (i.source.orElse environment) with
  | .error e => .error (.settings e)
  | .ok s => i.action.run s i.source environment clock seed

/-! ## Reports -/

/-- What a command line leads to. -/
structure Report where
  exitCode : Nat := 0
  lines : List String := []
  error : Option UsageError := none
  launch : Option Launch := none

/-- The line that tells a verdict. -/
def verdictLine : Verdict → Text
  | .proceed => "PROCEED"
  | .rejected r =>
    Text.ofString ("REJECTED stage=" ++ toString r.stageRank ++ " (") ++ r.stageName ++
      Text.ofString (") kind=" ++ r.failure.name ++ ": ") ++ r.message

/-- The line that tells where the interface is started. -/
def launchLine (l : Launch) : Text :=
  Text.ofString "Starting API server on " ++ l.host ++ Text.ofString (":" ++ toString l.port)

/-- The lines that list the stages, numbered from a rank on. -/
def stageLines : Nat → List (String × String) → List String
  | _, [] => []
  | rank, (name, _) :: rest => ("  " ++ toString rank ++ ". " ++ name) :: stageLines (rank + 1) rest

/-- The lines that list the stages and the rules. -/
def ruleLines (table : List (String × String)) : List String :=
  "Stages:" :: stageLines 1 stageNames ++
    "Recommendation rules:" :: table.map fun row => "  " ++ row.1 ++ ": " ++ row.2

namespace Report

/-- The report of an error of usage. -/
def ofUsage (e : UsageError) : Report := { exitCode := 2, error := some e }

/-- The report with lines of text, if they can be written. -/
def ofLines (r : Report) (lines : List Text) : Except RunError Report :=
  match lines.mapM Text.toString? with
  | some lines => .ok { r with lines := lines }
  | none => .error .unwritableLine

/-- The report of an outcome. -/
def ofOutcome : Outcome → Except RunError Report
  | .assessed v => ofLines { exitCode := if v.isRejected then 1 else 0 } [verdictLine v]
  | .listed table => .ok { lines := ruleLines table }
  | .launched l => ofLines { launch := some l } [launchLine l]
  | .misused e => .ok (ofUsage e)

/-- The version of the program. -/
def versionText : String := "0.1.0"

/-- The report of a command line that makes no command; `program` is the program's name. -/
def ofStop (program : String) : Stop → Report
  | .help => {}
  | .version => { lines := [program ++ ", version " ++ versionText] }
  | .empty => { exitCode := 2 }
  | .usage e => ofUsage e

/-- The report of a command line. -/
def ofArguments (program : String) (args : List String) (fs : Files)
    (environment : SettingsSource) (clock : Clock) (seed : Int) : Except RunError Report :=
  match Invocation.read args with
  | .error stop => .ok (ofStop program stop)
  | .ok i => (i.run fs environment clock seed).bind ofOutcome

/-- The lines that tell the error of a report. -/
def errorLines (r : Report) : List String :=
  match r.error with
  | none => []
  | some e => ["Error: " ++ e.message]

end Report

end StockRegister.Command
