import StockRegister.Command.Process

/-!
# The program

The program reads the environment and the files that settings may be loaded from, reports
what the command line leads to, and ends with its exit code.
-/

namespace StockRegister.Command

/-- A clock for runs whose log lines are not shown. -/
def stillClock : Clock := ⟨⟨⟨1970, 1, 1⟩, 0, 0, 0, 0, none⟩, Double.zero⟩

/-- The paths of the files that the settings of a source may be loaded from. -/
def settingsPaths (source : SettingsSource) : List Path :=
  source.path.toList.map Path.ofText ++ source.profile.toList.map (Settings.profilePath .here)

/-- The place of a path, seen from the working directory. -/
def placeOf (workPlace : Place) (p : Path) : Place :=
  let start := if p.absolute then [] else workPlace
  p.names.foldl (fun place name =>
    if name == (".." : Text) then place.dropLast else place ++ [name]) start

/-- The text of the file at a path, if it can be read. -/
def readFile? (p : Path) : IO (Option String) := do
  match p.text.toString? with
  | none => return none
  | some name =>
    try
      let text ← IO.FS.readFile name
      return some text
    catch _ => return none

/-- The files at paths, as far as they can be read. -/
def readFiles (workPlace : Place) (paths : List Path) : IO Files := do
  let texts ← paths.filterMapM fun p => do
    return (← readFile? p).map fun text => (placeOf workPlace p, text)
  return ⟨texts, workPlace⟩

/-- What is written about settings that are not loaded. -/
def RunError.text : RunError → String
  | .settings (.invalid problems) => "\n".intercalate (problems.map (·.text))
  | .settings e =>
    match e.message.toString? with
    | some message => if message.isEmpty then "The settings cannot be loaded." else message
    | none => "The settings cannot be loaded."
  | .probability _ => "The settings cannot be used."
  | .unwritableLine | .unwritableNumber => "The outcome cannot be written."

end StockRegister.Command

open StockRegister StockRegister.Command in
/-- Perform the command that the arguments name, with the files and variables that it asks for. -/
def main (args : List String) : IO UInt32 := do
  let readVariable (name : String) : IO (Option Text) := do
    return (← IO.getEnv name).map Text.ofString
  let environment : SettingsSource :=
    ⟨← readVariable SettingsSource.pathVariable, ← readVariable SettingsSource.profileVariable⟩
  let source := match Invocation.read args with
    | .ok i => i.source.orElse environment
    | .error _ => environment
  let workPlace := (Path.ofText (← IO.currentDir).toString).names
  let files ← readFiles workPlace (settingsPaths source)
  let seed ← IO.rand 0 (Nat.pow 2 31)
  match (Report.perform "stock-inventory" args files stillClock seed).result environment with
  | .error e =>
    IO.eprintln e.text
    return 1
  | .ok report =>
    report.lines.forM fun line => IO.println line
    report.errorLines.forM fun line => IO.eprintln line
    return UInt32.ofNat report.exitCode
