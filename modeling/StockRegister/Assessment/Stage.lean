import StockRegister.Assessment.Rule

/-!
# Stages

Nine stages assess every operand, in the order of their ranks. Each of them checks basic
validity, naming its own subject in the message, and the last one asks the recommendation
rule besides. `Stage.assess` assesses an operand at one stage.
-/

namespace StockRegister

/-- One step of an assessment. A stage that is permissive does not check validity. -/
structure Stage where
  rank : Nat
  name : String
  subject : String
  rule : Option TerminalRule
  permissive : Bool := false

/-- The names of the stages and their subjects, in the order of their ranks. -/
def stageNames : List (String × String) :=
  [("data_processing", "data processing"), ("price", "price analysis"),
    ("market", "market analysis"), ("volume", "volume analysis"), ("risk", "risk analysis"),
    ("performance", "performance analysis"), ("trend", "trend analysis"),
    ("prediction", "prediction"), ("recommendation", "recommendation")]

/-- The number of stages. -/
def stageCount : Nat := stageNames.length

/-- Stages from a rank on; the one of the last rank has the rule. -/
def stagesFrom (rule : Option TerminalRule) : Nat → List (String × String) → List Stage
  | _, [] => []
  | rank, (name, subject) :: rest =>
    ⟨rank, name, subject, if rank = stageCount then rule else none, false⟩ ::
      stagesFrom rule (rank + 1) rest

/-- The nine stages, the last one with the given rule. -/
def stageTable (rule : Option TerminalRule) : List Stage := stagesFrom rule 1 stageNames

/-- The stages with those of the given ranks made permissive. -/
def bypass (ranks : List Nat) (stages : List Stage) : List Stage :=
  stages.map fun s => { s with permissive := s.permissive || ranks.contains s.rank }

namespace Stage

/-- The rejection of a stage. -/
def reject (s : Stage) (failure : FailureKind) (message : String) : Verdict :=
  .rejected ⟨s.rank, s.name, failure, message⟩

/-- The message of the validity check, if the stage makes one and it fails. -/
def objection (s : Stage) (o : Operand) : Option String :=
  if s.permissive then none else o.validityFault?.map (ValidityFault.message s.subject)

/-- The verdict of the rule of a stage. -/
def judge (s : Stage) (a : Argument) (i : Injector) : Verdict × Injector :=
  match s.rule with
  | none => (.proceed, i)
  | some rule =>
    match rule a i with
    | (none, i) => (.proceed, i)
    | (some v, i) => (s.reject v.failure v.message, i)

/-- The verdict of a stage on an operand, and the injector after it. -/
def assess (s : Stage) (o : Operand) (i : Injector) : Verdict × Injector :=
  match s.objection o with
  | some message => (s.reject .validation message, i)
  | none => s.judge (.operand o) i

/-- The verdict of a stage on an argument; only a permissive stage takes a bare value. -/
def run (s : Stage) (a : Argument) (i : Injector) : Except AssessmentError (Verdict × Injector) :=
  match a with
  | .operand o => .ok (s.assess o i)
  | .bare v => if s.permissive then .ok (s.judge a i) else .error (.unsupportedOperand v.typeName)

end Stage

end StockRegister
