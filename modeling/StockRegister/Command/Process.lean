import StockRegister.Command.Run

/-!
# Commands as processes

A command runs in an environment and leaves one behind, also where it fails (`Process`).
`Report.perform` is what a command line does there, with the report of `Report.ofArguments`.

Only the start of the interface writes into the environment. The server that is started takes
its settings from there and from nothing else (`Process.applicationSettings`).
-/

namespace StockRegister.Command

/-- A computation in an environment. What it has written stays there if it fails. -/
abbrev Process := ExceptT RunError (StateM SettingsSource)

namespace Process

variable {α β : Type}

/-- What a computation makes in an environment, and the environment that it leaves behind. -/
def runIn (p : Process α) (environment : SettingsSource) : Except RunError α × SettingsSource :=
  StateT.run (ExceptT.run p) environment

/-- The result of a computation in an environment. -/
def result (p : Process α) (environment : SettingsSource) : Except RunError α :=
  (p.runIn environment).1

/-- The environment that a computation leaves behind. -/
def environmentAfter (p : Process α) (environment : SettingsSource) : SettingsSource :=
  (p.runIn environment).2

/-- A computation that leaves the environment alone. -/
def ofExcept : Except RunError α → Process α
  | .ok a => pure a
  | .error e => throw e

/-- The settings that a source leads to, or the environment where the source gives nothing. -/
def settings (fs : Files) (source : SettingsSource) : Process Settings := do
  match Settings.resolve fs (source.orElse (← get)) with
  | .ok s => return s
  | .error e => throw (.settings e)

/-- The settings of the application in the process of a server. -/
def applicationSettings (fs : Files) : Process Settings := settings fs {}

@[simp] theorem runIn_ofExcept (r : Except RunError α) (environment : SettingsSource) :
    (ofExcept r).runIn environment = (r, environment) := by
  cases r <;> rfl

@[simp] theorem runIn_get (environment : SettingsSource) :
    (get : Process SettingsSource).runIn environment = (.ok environment, environment) := rfl

theorem runIn_bind (p : Process α) (f : α → Process β) (environment : SettingsSource) :
    (p >>= f).runIn environment =
      match p.runIn environment with
      | (.ok a, written) => (f a).runIn written
      | (.error e, written) => (.error e, written) := by
  simp only [runIn, ExceptT.run_bind, StateT.run_bind]
  change StateT.run _ (StateT.run (ExceptT.run p) environment).2 = _
  rcases StateT.run (ExceptT.run p) environment with ⟨a | e, written⟩ <;> rfl

end Process

/-- Carry out an invocation. Whoever starts the interface writes the environment. -/
def Invocation.perform (i : Invocation) (fs : Files) (clock : Clock) (seed : Int) :
    Process Outcome := do
  let s ← Process.settings fs i.source
  let outcome ← Process.ofExcept (i.action.run s i.source (← get) clock seed)
  if let .launched l := outcome then
    set l.environment
  return outcome

namespace Report

/-- Carry out an invocation and report its outcome. -/
def performInvocation (i : Invocation) (fs : Files) (clock : Clock) (seed : Int) :
    Process Report := do
  Process.ofExcept (ofOutcome (← i.perform fs clock seed))

/-- Carry out a command line and report what it led to. -/
def perform (program : String) (args : List String) (fs : Files) (clock : Clock) (seed : Int) :
    Process Report :=
  match Invocation.read args with
  | .error stop => pure (ofStop program stop)
  | .ok i => performInvocation i fs clock seed

end Report

end StockRegister.Command
