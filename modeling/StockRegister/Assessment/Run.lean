import StockRegister.Assessment.Stage
import StockRegister.Audit.Trail

/-!
# Runs

An `Assessor` has the nine stages in the order of their ranks and the injector of random
failures. `Assessor.assess` takes an operand through the stages up to the first one that
rejects it, and leaves a trace in the audit trail: the start of the run, every stage that was
reached, the end, and the metrics of the run. An argument that is not what the operation is
about is refused before anything happens (`Assessor.evaluateBy`).

Each entry of the log is kept before its line is printed. If the printer cannot print the line, the
run breaks off there: it comes to no verdict and has no further entries, and it has metrics only if
that line was the one of its end. With a printer that prints every line, no run breaks off
(`Assessor.evaluate`).
-/

namespace StockRegister

/-- What assesses operands: the stages and the injector of random failures. -/
structure Assessor where
  stages : List Stage
  injector : Injector

namespace Assessor

/-- The ranks that a table of stages must have. -/
def expectedRanks : List Nat := (List.range stageCount).map (· + 1)

/-- The assessor with the given stages, if their ranks are 1 to 9 in order. -/
def ofStages (stages : List Stage) (injector : Injector) : Except AssessmentError Assessor :=
  let ranks := stages.map (·.rank)
  if ranks = expectedRanks then .ok ⟨stages, injector⟩ else .error (.wrongStages ranks)

/-- The assessor that settings describe, with the draws of the given source. -/
def ofSettings (s : AssessmentSettings) (source : RandomSource) : Except InjectorError Assessor :=
  (Injector.ofValue (.float s.bulkFailureProbability) source).map fun injector =>
    ⟨stageTable (some (recommendationRule s.sentinels)), injector⟩

end Assessor

/-- Where the draws of an assessor come from: a given source, or else the seed. Without a seed
the draws are not meant to be foreseen, and any generator will do. -/
def AssessmentSettings.source (s : AssessmentSettings) (given : Option RandomSource) :
    RandomSource :=
  given.getD (RandomSource.ofSeed (s.randomSeed.getD 0))

/-- The operand of an argument that is what an operation is about. -/
def Operation.accept (op : Operation) (a : Argument) : Except AssessmentError Operand :=
  match a with
  | .bare v => .error (.wrongOperand op v.typeName)
  | .operand o =>
    let (type, purpose) := op.operandShape
    if o.type ≠ type then .error (.wrongOperand op o.type.title)
    else
      match purpose, o.purpose? with
      | some expected, some actual =>
        if actual = expected then .ok o else .error (.wrongPurpose op actual)
      | _, _ => .ok o

/-- Why an assessment comes to no verdict: the argument is refused, or a line of the log cannot be
printed. -/
inductive Breakdown (ε : Type) where
  | assessment (e : AssessmentError)
  | log (e : ε)

/-- The wording of an error. -/
def AssessmentError.message : AssessmentError → String
  | unsupportedOperand typeName => "Unsupported operand type: " ++ typeName
  | wrongOperand op typeName =>
    op.name ++ " expects " ++ op.operandShape.1.title ++ ", got " ++ typeName
  | wrongPurpose op purpose =>
    op.name ++ " expects id context " ++ (op.operandShape.2.getD .lookup).name ++ ", got " ++
      purpose.name
  | wrongStages ranks =>
    "Stage table must be ranked 1.." ++ toString stageCount ++ " in order, got [" ++
      ", ".intercalate (ranks.map toString) ++ "]"

/-! ## Notices of runs -/

/-- What a run logs of a stage that let it pass. -/
def Stage.passedNotice (s : Stage) : Notice := .passed (.text s.name) (.int s.rank)

/-- What a run logs of the stage that rejected it. -/
def Stage.rejectedNotice (s : Stage) (r : Rejection) : Notice :=
  .rejected (.text s.name) (.int s.rank) (.text r.failure.name) (.text r.message)

/-! ## The run -/

/-- Take an operand through stages up to the first that rejects it, logging each of them. The walk
breaks off at a line that cannot be printed. -/
def runStages {ε : Type} (p : Printer ε) (clock : Clock) (o : Operand) :
    List Stage → Injector → Trail → Except ε Verdict × Injector × Trail
  | [], i, t => (.ok .proceed, i, t)
  | s :: rest, i, t =>
    match s.assess o i with
    | (.rejected r, i) =>
      match t.note p clock (s.rejectedNotice r) with
      | (t, none) => (.ok (.rejected r), i, t)
      | (t, some error) => (.error error, i, t)
    | (.proceed, i) =>
      match t.note p clock s.passedNotice with
      | (t, none) => runStages p clock o rest i t
      | (t, some error) => (.error error, i, t)

/-- The tags of the metrics of a run. -/
def runTags (op : Operation) : Fields := [("operation_kind", .text op.name)]

/-- The tags of the metric of a rejection. -/
def rejectionTags (op : Operation) (r : Rejection) : Fields :=
  [("operation_kind", .text op.name), ("failure_kind", .text r.failure.name),
    ("stage", .text r.stageName)]

/-- Keep the metrics of a run. -/
def measureRun (clock : Clock) (op : Operation) (v : Verdict) (t : Trail) : Trail :=
  let one : Value := .float Double.one
  let t := t.measure clock "pipeline_runs_total" (.text "counter") one (.object (runTags op))
  let t := match v with
    | .proceed => t
    | .rejected r =>
      t.measure clock "pipeline_rejections_total" (.text "counter") one
        (.object (rejectionTags op r))
  t.measure clock "pipeline_duration_seconds" (.text "histogram") (.float clock.elapsed)
    (.object (runTags op))

/-- What a run logs of its start. -/
def Operation.startNotice (op : Operation) (o : Operand) : Notice :=
  .started (.text op.name) o.describe

/-- What a run logs of its end. -/
def Operation.endNotice (op : Operation) (clock : Clock) (v : Verdict) : Notice :=
  .ended (.text op.name) (.text v.outcome) (.float clock.elapsed)

/-- Keep the metrics of a run and log its end. -/
def recordRun {ε : Type} (p : Printer ε) (clock : Clock) (op : Operation) (v : Verdict)
    (t : Trail) : Trail × Option ε :=
  (measureRun clock op v t).note p clock (op.endNotice clock v)

namespace Assessor

/-- Assess an operand that is what an operation is about. The run breaks off at a line that cannot
be printed: it comes to no verdict, and what it did before stays done. -/
def assess {ε : Type} (a : Assessor) (p : Printer ε) (clock : Clock) (op : Operation) (o : Operand)
    (t : Trail) : Except ε Verdict × Assessor × Trail :=
  match t.issueCorrelation.note p clock (op.startNotice o) with
  | (t, some error) => (.error error, a, t)
  | (t, none) =>
    match runStages p clock o a.stages a.injector t with
    | (.error error, injector, t) => (.error error, { a with injector := injector }, t)
    | (.ok verdict, injector, t) =>
      match recordRun p clock op verdict t with
      | (t, some error) => (.error error, { a with injector := injector }, t)
      | (t, none) => (.ok verdict, { a with injector := injector }, t)

/-- Assess an argument; one that is not what the operation is about is refused first, and nothing
is changed. -/
def evaluateBy {ε : Type} (a : Assessor) (p : Printer ε) (clock : Clock) (op : Operation)
    (x : Argument) (t : Trail) : Except (Breakdown ε) Verdict × Assessor × Trail :=
  match op.accept x with
  | .error e => (.error (.assessment e), a, t)
  | .ok o =>
    let (result, a, t) := a.assess p clock op o t
    (result.mapError .log, a, t)

/-! ## Runs that do not break off -/

/-- Assess an operand with a printer that prints every line, so that the run comes to a verdict. -/
def conclude (a : Assessor) (clock : Clock) (op : Operation) (o : Operand) (t : Trail) :
    Verdict × Assessor × Trail :=
  match a.assess (Printer.sure : Printer Empty) clock op o t with
  | (.ok verdict, a, t) => (verdict, a, t)

/-- Assess an argument with a printer that prints every line; one that is not what the operation is
about is refused first. -/
def evaluate (a : Assessor) (clock : Clock) (op : Operation) (x : Argument) (t : Trail) :
    Except AssessmentError (Verdict × Assessor × Trail) :=
  (op.accept x).map fun o => a.conclude clock op o t

end Assessor

end StockRegister
