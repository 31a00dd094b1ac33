import Mathlib.Tactic.SplitIfs
import StockRegister.Command.Process
import StockRegister.Proofs.Fields

/-!
# Settings that are handed over to the server

A process that serves resolves its settings from what is given to it and, where nothing is given,
from its environment. Then it writes what was given into the environment, and the server that it
starts has nothing else to resolve its settings from. What is written over an environment leads to
the same file and profile as what is given in front of it (`SettingsSource.orElse_writtenOver`),
whatever is given, empty or missing on either side.

Not every name can stand in an environment. One that a file was found by can
(`exportError?_of_load`), so that only a profile that no file goes with may fail to be written,
and without a file the settings are the defaults anyway (`sourceError?_of_resolve`).

`runIn_perform` and its siblings say what a process reports and what environment it leaves behind,
which is as it was for all but those that serve. `HandsOver` puts together what serving comes to,
and `Command.serves` proves it for all files, environments and sources.
-/

namespace StockRegister

/-! ## Sources -/

namespace SettingsSource

theorem given_given (t : Option Text) : given (given t) = given t := by
  simp [given, Option.filter_filter]

/-- An empty text counts as missing on either side. -/
theorem given_or (t u : Option Text) : given ((given t).or u) = (given t).or (given u) := by
  cases h : given t with
  | none => rfl
  | some name => rw [Option.some_or, Option.some_or, ← h, given_given]

/-- A source that is written over an environment leads where it leads in front of it. -/
theorem orElse_writtenOver (source environment : SettingsSource) :
    ({} : SettingsSource).orElse (source.writtenOver environment) = source.orElse environment := by
  simp only [orElse, writtenOver, given_or]
  rfl

end SettingsSource

/-! ## Names that can be exported -/

namespace Text

/-- A code point that is no mark stands in one of the pieces. -/
theorem exists_mem_pieces {mark n : Nat} (hn : n ≠ mark) {cs : List Nat} (h : n ∈ cs) :
    ∃ piece ∈ pieces mark cs, n ∈ piece := by
  induction cs with
  | nil => cases h
  | cons c cs ih =>
    simp only [pieces]
    split_ifs with hc
    · obtain rfl | h := List.mem_cons.mp h
      · exact absurd (beq_iff_eq.mp hc) hn
      · obtain ⟨piece, hpiece, hmem⟩ := ih h
        exact ⟨piece, List.mem_cons_of_mem _ hpiece, hmem⟩
    · cases hpieces : pieces mark cs with
      | nil => exact absurd hpieces (pieces_ne_nil mark cs)
      | cons first rest =>
        rw [hpieces] at ih
        obtain rfl | h := List.mem_cons.mp h
        · exact ⟨_, List.mem_cons_self, List.mem_cons_self⟩
        · obtain ⟨piece, hpiece, hmem⟩ := ih h
          obtain rfl | hpiece := List.mem_cons.mp hpiece
          · exact ⟨_, List.mem_cons_self, List.mem_cons_of_mem _ hmem⟩
          · exact ⟨piece, List.mem_cons_of_mem _ hpiece, hmem⟩

end Text

namespace Path

/-- The point that stands for a directory itself. -/
def point : Nat := 46

theorem mem_points_joined {names : List Text} {name : Text} (hname : name ∈ names) {n : Nat}
    (hn : n ∈ name.points) : n ∈ (joined names).points := by
  induction names with
  | nil => cases hname
  | cons first rest ih =>
    cases rest with
    | nil =>
      obtain rfl := List.mem_singleton.mp hname
      exact hn
    | cons second rest =>
      change n ∈ first.points ++ [slash] ++ (joined (second :: rest)).points
      obtain rfl | hname := List.mem_cons.mp hname
      · simp [hn]
      · simp [ih hname]

/-- The names of a path stand in its text. -/
theorem mem_points_text {p : Path} {name : Text} (hname : name ∈ p.names) {n : Nat}
    (hn : n ∈ name.points) : n ∈ p.text.points := by
  have hjoined := mem_points_joined hname hn
  unfold text
  split_ifs with habsolute hempty
  · exact List.mem_append_right _ hjoined
  · rw [List.isEmpty_iff.mp hempty] at hname
    cases hname
  · exact hjoined

theorem mem_names_under (base : Path) {p : Path} {name : Text} (h : name ∈ p.names) :
    name ∈ (base.under p).names := by
  unfold under
  split_ifs
  · exact h
  · exact List.mem_append_right _ h

/-- All of a text stands in the names of its path but for the marks that are cut out. -/
theorem exists_mem_names_ofText {t : Text} {n : Nat} (hn : n ∈ t.points) (hslash : n ≠ slash)
    (hpoint : n ≠ point) : ∃ name ∈ (ofText t).names, n ∈ name.points := by
  obtain ⟨piece, hpiece, hmem⟩ := Text.exists_mem_pieces hslash hn
  refine ⟨⟨piece⟩, List.mem_filter.mpr ⟨List.mem_map_of_mem hpiece, ?_⟩, hmem⟩
  have hempty : (⟨piece⟩ : Text).isEmpty = false := by
    cases piece with
    | nil => cases hmem
    | cons => rfl
  have hself : (⟨piece⟩ : Text) ≠ ("." : Text) := by
    rintro h
    rw [show piece = [point] from congrArg Text.points h, List.mem_singleton] at hmem
    exact hpoint hmem
  simp [hempty, hself]

end Path

/-- A path that leads somewhere has only code points that can be written. -/
theorem Files.writable_of_follow {fs : Files} {p : Path} {target : Target}
    (h : fs.follow p = .ok target) {n : Nat} (hn : n ∈ p.text.points) :
    isWritablePoint n = true ∧ n ≠ 0 := by
  unfold follow at h
  split at h
  · cases h
  rename_i hwritable
  split at h
  · cases h
  rename_i hnull
  rw [Bool.not_eq_true, Bool.not_eq_false', List.all_eq_true] at hwritable
  refine ⟨hwritable n hn, ?_⟩
  rintro rfl
  exact hnull (List.contains_iff_mem.mpr hn)

theorem Files.exists_follow_of_readYaml {fs : Files} {p : Path} {v : Value}
    (h : fs.readYaml p = .ok v) : ∃ target, fs.follow p = .ok target := by
  unfold readYaml read at h
  cases hfollow : fs.follow p with
  | ok target => exact ⟨target, rfl⟩
  | error e =>
    rw [hfollow] at h
    cases h

theorem Files.exists_follow_of_hasTarget {fs : Files} {p : Path} (h : fs.hasTarget p = .ok true) :
    ∃ target, fs.follow p = .ok target := by
  unfold hasTarget at h
  cases hfollow : fs.follow p with
  | ok target => exact ⟨target, rfl⟩
  | error e =>
    rw [hfollow] at h
    cases e <;> cases h

namespace Command

theorem exportError?_eq_none_iff {name : Text} :
    exportError? name = none ↔ ∀ n ∈ name.points, Files.isWritablePoint n = true ∧ n ≠ 0 := by
  unfold exportError?
  constructor
  · intro h n hn
    split_ifs at h with hwritable hnull
    rw [Bool.not_eq_true, Bool.not_eq_false', List.all_eq_true] at hwritable
    refine ⟨hwritable n hn, ?_⟩
    rintro rfl
    exact hnull (List.contains_iff_mem.mpr hn)
  · intro h
    have hwritable : name.points.all Files.isWritablePoint = true :=
      List.all_eq_true.mpr fun n hn => (h n hn).1
    have hnull : ¬ name.points.contains 0 = true := fun hmem =>
      (h 0 (List.contains_iff_mem.mp hmem)).2 rfl
    rw [hwritable, if_neg nofun, if_neg hnull]

/-- A name can stand in the environment if it stands in a path that leads somewhere. -/
theorem exportError?_of_follow {fs : Files} {p : Path} {target : Target}
    (h : fs.follow p = .ok target) {name : Text}
    (hname : ∀ n ∈ name.points, n ≠ Path.slash → n ≠ Path.point → n ∈ p.text.points) :
    exportError? name = none := by
  refine exportError?_eq_none_iff.mpr fun n hn => ?_
  by_cases hslash : n = Path.slash
  · subst hslash
    exact ⟨rfl, nofun⟩
  by_cases hpoint : n = Path.point
  · subst hpoint
    exact ⟨rfl, nofun⟩
  exact Files.writable_of_follow h (hname n hn hslash hpoint)

/-- The path of a file can stand in the environment if the file can be read. -/
theorem exportError?_path_of_readYaml {fs : Files} {path : Text} {v : Value}
    (h : fs.readYaml (Path.here.under (Path.ofText path)) = .ok v) :
    exportError? path = none := by
  obtain ⟨target, hfollow⟩ := Files.exists_follow_of_readYaml h
  rw [Path.here_under] at hfollow
  refine exportError?_of_follow hfollow fun n hn hslash hpoint => ?_
  obtain ⟨name, hname, hmem⟩ := Path.exists_mem_names_ofText hn hslash hpoint
  exact Path.mem_points_text hname hmem

/-- The name of a profile can stand in the environment if the profile can be read. -/
theorem exportError?_of_loadProfile {fs : Files} {base : Path} {profile : Text} {v : Value}
    (h : Settings.loadProfile fs base profile = .ok v) : exportError? profile = none := by
  unfold Settings.loadProfile at h
  have htarget : fs.hasTarget (Settings.profilePath base profile) = .ok true := by
    split at h
    · cases h
    · cases h
    · assumption
  obtain ⟨target, hfollow⟩ := Files.exists_follow_of_hasTarget htarget
  refine exportError?_of_follow hfollow fun n hn hslash hpoint => ?_
  obtain ⟨name, hname, hmem⟩ :=
    Path.exists_mem_names_ofText (List.mem_append_left (".yaml" : Text).points hn) hslash hpoint
  exact Path.mem_points_text (Path.mem_names_under _ hname) hmem

/-- Both names of settings that are loaded can stand in the environment. -/
theorem exportError?_of_load {fs : Files} {path : Text} {profile : Option Text} {s : Settings}
    (h : Settings.load fs .here path profile = .ok s) :
    exportError? path = none ∧
      ∀ name, SettingsSource.given profile = some name → exportError? name = none := by
  unfold Settings.load at h
  obtain ⟨document, hdocument, h⟩ := exists_of_bind_eq_ok h
  constructor
  · cases hread : fs.readYaml (Path.here.under (Path.ofText path)) with
    | ok v => exact exportError?_path_of_readYaml hread
    | error e =>
      rw [hread] at hdocument
      cases hdocument
  · intro name hname
    rw [hname] at h
    obtain ⟨top, htop, -⟩ := exists_of_bind_eq_ok h
    exact exportError?_of_loadProfile htop

theorem sourceError?_eq_none_iff {source : SettingsSource} : sourceError? source = none ↔
    (∀ name, SettingsSource.given source.path = some name → exportError? name = none) ∧
      ∀ name, SettingsSource.given source.profile = some name → exportError? name = none := by
  rw [sourceError?, Option.or_eq_none_iff, Option.bind_eq_none_iff, Option.bind_eq_none_iff]

/-- A source that leads to settings can be handed on, unless it leads to no file. -/
theorem sourceError?_of_resolve {fs : Files} {source environment : SettingsSource} {s : Settings}
    (h : Settings.resolve fs (source.orElse environment) = .ok s) :
    (source.orElse environment).path = none ∨ sourceError? source = none := by
  unfold Settings.resolve at h
  split at h
  · rename_i hpath
    left
    rwa [SettingsSource.orElse, SettingsSource.given_or, SettingsSource.given_given] at hpath
  · rename_i path hpath
    right
    obtain ⟨hfile, hprofile⟩ := exportError?_of_load h
    refine sourceError?_eq_none_iff.mpr ⟨fun name hname => ?_, fun name hname => ?_⟩
    · rw [SettingsSource.orElse, SettingsSource.given_or, hname] at hpath
      cases hpath
      exact hfile
    · refine hprofile name ?_
      rw [SettingsSource.orElse, SettingsSource.given_or, hname, Option.some_or]

/-! ## Runs -/

/-- The environment that a run leaves behind. -/
def environmentOf (environment : SettingsSource) : Except RunError Outcome → SettingsSource
  | .ok (.launched l) => l.environment
  | _ => environment

/-- The settings are those of the source and the environment, which is left alone. -/
theorem Process.runIn_settings (fs : Files) (source environment : SettingsSource) :
    (Process.settings fs source).runIn environment =
      (match Settings.resolve fs (source.orElse environment) with
        | .ok s => .ok s
        | .error e => .error (.settings e), environment) := by
  rw [Process.settings, Process.runIn_bind, Process.runIn_get]
  dsimp only
  cases Settings.resolve fs (source.orElse environment) <;> rfl

/-- An invocation leaves its environment as it is, unless it starts the interface. -/
theorem Invocation.runIn_perform (i : Invocation) (fs : Files) (clock : Clock) (seed : Int)
    (environment : SettingsSource) :
    (i.perform fs clock seed).runIn environment =
      (i.run fs environment clock seed,
        environmentOf environment (i.run fs environment clock seed)) := by
  rw [Invocation.perform, Process.runIn_bind, Process.runIn_settings, Invocation.run]
  cases Settings.resolve fs (i.source.orElse environment) with
  | error e => rfl
  | ok s =>
    dsimp only
    rw [Process.runIn_bind, Process.runIn_get]
    dsimp only
    rw [Process.runIn_bind, Process.runIn_ofExcept]
    cases i.action.run s i.source environment clock seed with
    | error e => rfl
    | ok outcome => cases outcome <;> rfl

theorem Report.runIn_performInvocation (i : Invocation) (fs : Files) (clock : Clock) (seed : Int)
    (environment : SettingsSource) :
    (performInvocation i fs clock seed).runIn environment =
      ((i.run fs environment clock seed).bind ofOutcome,
        environmentOf environment (i.run fs environment clock seed)) := by
  rw [performInvocation, Process.runIn_bind, Invocation.runIn_perform]
  cases i.run fs environment clock seed with
  | error e => rfl
  | ok outcome => exact Process.runIn_ofExcept _ _

/-- A command line has the same report whether its environment is looked at or not. -/
theorem Report.result_perform (program : String) (args : List String) (fs : Files) (clock : Clock)
    (seed : Int) (environment : SettingsSource) :
    (perform program args fs clock seed).result environment =
      ofArguments program args fs environment clock seed := by
  rw [Process.result, perform, ofArguments]
  cases Invocation.read args with
  | error stop => rfl
  | ok i => rw [runIn_performInvocation]

/-! ## Command lines -/

/-- The arguments that name a source in front of a command. -/
def sourceArguments (path profile : Option String) : List String :=
  (path.toList.flatMap fun name => ["--config", name]) ++
    profile.toList.flatMap fun name => ["--profile", name]

/-- Every name may be given to an option, also an empty one or one that looks like an option. -/
theorem read_sourceArguments (path profile : Option String) (args : List String) :
    Invocation.read (sourceArguments path profile ++ "serve" :: args) =
      (readServe args).map fun action =>
        ⟨⟨path.map Text.ofString, profile.map Text.ofString⟩, action⟩ := by
  cases path <;> cases profile <;> rfl

/-! ## Serving -/

/-- What it comes to that a process serves from a source, with files and an environment. Without
settings it starts nothing and leaves the environment alone. Settings that it has resolved are what
the application resolves from the environment that is left behind, as often as it is made. A server
that is started works under such settings, and has the names of the source in its environment. One
is started if these names can be written there and so can the line that tells of it. -/
structure HandsOver (fs : Files) (source environment : SettingsSource) (host : Option String)
    (port : Option Int) (reload : Bool) (p : Process Report) : Prop where
  failed : ∀ e, (Process.settings fs source).result environment = .error e →
    p.runIn environment = (.error e, environment)
  resolved : ∀ s, (Process.settings fs source).result environment = .ok s →
    (Process.applicationSettings fs).runIn (p.environmentAfter environment) =
      (.ok s, p.environmentAfter environment)
  started : ∀ report l, p.result environment = .ok report → report.launch = some l →
    p.environmentAfter environment = source.writtenOver environment ∧
      ∃ s, (Process.settings fs source).result environment = .ok s ∧
        (Process.applicationSettings fs).result (p.environmentAfter environment) = .ok s ∧
        l = launchUnder s source environment host port reload
  starts : ∀ s line, (Process.settings fs source).result environment = .ok s →
    sourceError? source = none →
      (launchLine (launchUnder s source environment host port reload)).toString? = some line →
        ∃ report, p.result environment = .ok report ∧ report.lines = [line] ∧
          report.launch = some (launchUnder s source environment host port reload)

section Serving

variable {fs : Files} {source environment : SettingsSource} {host : Option String}
  {port : Option Int} {reload : Bool} {s : Settings}

theorem result_settings_eq_ok : (Process.settings fs source).result environment = .ok s ↔
    Settings.resolve fs (source.orElse environment) = .ok s := by
  rw [Process.result, Process.runIn_settings]
  cases Settings.resolve fs (source.orElse environment) <;> simp

/-- The application resolves what the source leads to where it is written over the environment. -/
theorem runIn_applicationSettings_writtenOver
    (hs : (Process.settings fs source).result environment = .ok s) :
    (Process.applicationSettings fs).runIn (source.writtenOver environment) =
      (.ok s, source.writtenOver environment) := by
  rw [Process.applicationSettings, Process.runIn_settings, SettingsSource.orElse_writtenOver,
    result_settings_eq_ok.mp hs]

/-- Without a file the application resolves the defaults, as everyone does. -/
theorem runIn_applicationSettings_of_no_path
    (hs : (Process.settings fs source).result environment = .ok s)
    (hpath : (source.orElse environment).path = none) :
    (Process.applicationSettings fs).runIn environment = (.ok s, environment) := by
  have hgiven : SettingsSource.given environment.path = none :=
    (Option.or_eq_none_iff.mp hpath).2
  have hdefault : s = {} := by
    have hs := result_settings_eq_ok.mp hs
    rw [Settings.resolve, hpath] at hs
    exact (Except.ok.inj hs).symm
  have happlication : Settings.resolve fs (({} : SettingsSource).orElse environment) = .ok {} := by
    rw [Settings.resolve, SettingsSource.orElse, hgiven]
    rfl
  rw [Process.applicationSettings, Process.runIn_settings, happlication, hdefault]

variable (clock : Clock) (seed : Int)

/-- Without settings nothing is started or written. -/
theorem runIn_serve_of_error {e : RunError}
    (he : (Process.settings fs source).result environment = .error e) :
    (Report.performInvocation ⟨source, .serve host port reload⟩ fs clock seed).runIn environment =
      (.error e, environment) := by
  rw [Report.runIn_performInvocation, Invocation.run]
  rw [Process.result, Process.runIn_settings] at he
  cases hresolve : Settings.resolve fs (source.orElse environment) with
  | ok s =>
    rw [hresolve] at he
    cases he
  | error e' =>
    rw [hresolve] at he
    cases he
    rfl

/-- A source that cannot stand in the environment is not written. -/
theorem runIn_serve_of_sourceError
    (hs : (Process.settings fs source).result environment = .ok s) {e : FileError}
    (he : sourceError? source = some e) :
    (Report.performInvocation ⟨source, .serve host port reload⟩ fs clock seed).runIn environment =
      (.error (.settings (.file e)), environment) := by
  rw [Report.runIn_performInvocation, Invocation.run, result_settings_eq_ok.mp hs]
  simp only [Action.run, he]
  rfl

/-- Under settings the source is written, and then the launch is reported. -/
theorem runIn_serve (hs : (Process.settings fs source).result environment = .ok s)
    (hsource : sourceError? source = none) :
    (Report.performInvocation ⟨source, .serve host port reload⟩ fs clock seed).runIn environment =
      (Report.ofOutcome (.launched (launchUnder s source environment host port reload)),
        source.writtenOver environment) := by
  rw [Report.runIn_performInvocation, Invocation.run, result_settings_eq_ok.mp hs]
  simp only [Action.run, hsource]
  rfl

/-- A reported launch has one line. -/
theorem ofOutcome_launched_eq_ok {l : Launch} {report : Report} :
    Report.ofOutcome (.launched l) = .ok report ↔
      ∃ line, (launchLine l).toString? = some line ∧
        report = { lines := [line], launch := some l } := by
  simp only [Report.ofOutcome, Report.ofLines, List.mapM_cons, List.mapM_nil]
  cases (launchLine l).toString? with
  | none => simp
  | some line => simp [eq_comm]

/-- Every invocation that serves hands its settings over. -/
theorem handsOver (fs : Files) (source environment : SettingsSource) (host : Option String)
    (port : Option Int) (reload : Bool) (clock : Clock) (seed : Int) :
    HandsOver fs source environment host port reload
      (Report.performInvocation ⟨source, .serve host port reload⟩ fs clock seed) := by
  constructor
  case failed => exact fun e he => runIn_serve_of_error clock seed he
  case resolved =>
    intro s hs
    cases hsource : sourceError? source with
    | none =>
      rw [Process.environmentAfter, runIn_serve clock seed hs hsource]
      exact runIn_applicationSettings_writtenOver hs
    | some e =>
      rw [Process.environmentAfter, runIn_serve_of_sourceError clock seed hs hsource]
      have hpath := (sourceError?_of_resolve (result_settings_eq_ok.mp hs)).resolve_right
        (hsource ▸ nofun)
      exact runIn_applicationSettings_of_no_path hs hpath
  case started =>
    intro report l hreport hl
    cases hs : (Process.settings fs source).result environment with
    | error e =>
      rw [Process.result, runIn_serve_of_error clock seed hs] at hreport
      cases hreport
    | ok s =>
      cases hsource : sourceError? source with
      | some e =>
        rw [Process.result, runIn_serve_of_sourceError clock seed hs hsource] at hreport
        cases hreport
      | none =>
        rw [Process.result, runIn_serve clock seed hs hsource] at hreport
        obtain ⟨line, -, rfl⟩ := ofOutcome_launched_eq_ok.mp hreport
        rw [Process.environmentAfter, runIn_serve clock seed hs hsource]
        have happlication := congrArg Prod.fst (runIn_applicationSettings_writtenOver hs)
        exact ⟨rfl, s, rfl, happlication, (Option.some.inj hl).symm⟩
  case starts =>
    intro s line hs hsource hline
    rw [Process.result, runIn_serve clock seed hs hsource]
    exact ⟨_, ofOutcome_launched_eq_ok.mpr ⟨line, hline, rfl⟩, rfl, rfl⟩

/-- What serving comes to with files and in an environment, from every source that is given to it
and in particular for every command line that names one. -/
structure Serves (fs : Files) (environment : SettingsSource) : Prop where
  handsOver : ∀ source host port reload clock seed,
    HandsOver fs source environment host port reload
      (Report.performInvocation ⟨source, .serve host port reload⟩ fs clock seed)
  typed : ∀ program path profile args host port reload clock seed,
    readServe args = .ok (.serve host port reload) →
      Report.perform program (sourceArguments path profile ++ "serve" :: args) fs clock seed =
        Report.performInvocation
          ⟨⟨path.map Text.ofString, profile.map Text.ofString⟩, .serve host port reload⟩
          fs clock seed

/-- With all files and in every environment a server works under the settings that were resolved
where it was started. -/
theorem serves (fs : Files) (environment : SettingsSource) : Serves fs environment where
  handsOver := fun source host port reload clock seed =>
    handsOver fs source environment host port reload clock seed
  typed := by
    intro program path profile args host port reload clock seed hargs
    have hread := read_sourceArguments path profile args
    rw [hargs] at hread
    rw [Report.perform, hread]
    rfl

/-- A profile without a file is handed on as well, over another one; an empty file is not. -/
example (fs : Files) (clock : Clock) :
    (Report.perform "stock-inventory" ["--config", "", "--profile", "quiet", "serve"] fs clock
      0).environmentAfter ⟨none, some "loud"⟩ = ⟨none, some "quiet"⟩ := by
  rfl

end Serving

end Command

end StockRegister
