import StockRegister.Assessment.Validity
import StockRegister.Random.Source
import StockRegister.Settings
import StockRegister.Text.Quoted

/-!
# The recommendation rule

The rule of the last stage rejects an id that is the sentinel of its purpose, a looked-up
symbol and a created symbol that are sentinels, and a read of the whole collection if the
next random draw is below a probability. Sentinels are compared exactly. Only a read of the
whole collection consumes a draw.

`sentinelTable` lists the conditions of the rule with their messages.
-/

namespace StockRegister

/-- What a rule has against an operand. -/
structure Violation where
  failure : FailureKind
  message : String
deriving DecidableEq

/-- A source of random failures: the probability as it was given and as a number, the source
of draws, and the number of draws so far. -/
structure Injector where
  given : Value
  probability : Double
  source : RandomSource
  used : Nat

/-- Why there is no injector of a probability. -/
inductive InjectorError where
  | notNumber
  | outOfRange (text : String)
deriving DecidableEq

namespace Injector

/-- The text of a given probability. -/
def probabilityText : Value → String
  | .bool true => "True"
  | .bool false => "False"
  | .int n => toString n
  | .float x => x.text .report
  | _ => ""

/-- Whether an amount lies between 0 and 1. -/
def isProbability : Amount → Bool
  | .whole n => 0 ≤ n && n ≤ 1
  | .real x => Double.zero.le x && x.le Double.one

/-- The injector of a given probability, which must be a number between 0 and 1. -/
def ofValue (given : Value) (source : RandomSource) : Except InjectorError Injector :=
  match given.toAmount? with
  | none => .error .notNumber
  | some p =>
    if isProbability p then .ok ⟨given, p.toDouble, source, 0⟩
    else .error (.outOfRange (probabilityText given))

/-- Draw once: whether to fail, and the injector after it. -/
def shouldFail (i : Injector) : Bool × Injector :=
  (i.source.next.1.lt i.probability, { i with source := i.source.next.2, used := i.used + 1 })

/-- The outcomes of `n` draws, and the injector after them. -/
def outcomes : Nat → Injector → List Bool × Injector
  | 0, i => ([], i)
  | n + 1, i =>
    let (fails, i) := i.shouldFail
    let (rest, i) := outcomes n i
    (fails :: rest, i)

end Injector

/-! ## Sentinels -/

/-- The sentinel id of a purpose. -/
def Sentinels.idFor (s : Sentinels) : IdPurpose → Int
  | .lookup => s.pennyId
  | .update => s.updateId
  | .priceUpdate => s.priceUpdateId
  | .delete => s.deleteId

/-- The message for a sentinel id. -/
def sentinelMessage : IdPurpose → String
  | .lookup => "penny stock not recommended"
  | .update => "update recommendation error"
  | .priceUpdate => "price-update recommendation error"
  | .delete => "delete recommendation error"

/-- The message for a looked-up symbol. -/
def pennyMessage : String := "penny stock not recommended"

/-- The message for a created symbol. -/
def testMessage : String := "test stock not recommended"

/-- The message for a random failure. -/
def bulkMessage : String := "bulk recommendation error"

/-- The sentinel that an operand hits, as the message for it. -/
def Sentinels.hit? (s : Sentinels) : Operand → Option String
  | .entity value purpose =>
    if value = some (s.idFor purpose) then some (sentinelMessage purpose) else none
  | .symbol value => if value = some (s.pennySymbol : Text) then some pennyMessage else none
  | .creation details =>
    if Operand.creationSymbol details = some (s.testSymbol : Text) then some testMessage else none
  | .bulk => none

/-- A rule: what it has against an argument, and the injector after it was asked. -/
abbrev TerminalRule := Argument → Injector → Option Violation × Injector

/-- The rule of the last stage. -/
def recommendationRule (s : Sentinels) : TerminalRule
  | .operand .bulk, i =>
    let (fails, i) := i.shouldFail
    (if fails then some ⟨.transient, bulkMessage⟩ else none, i)
  | .operand o, i => ((s.hit? o).map (Violation.mk .domain), i)
  | .bare _, i => (none, i)

/-- A rule that has the same against every argument. -/
def constantRule (v : Violation) : TerminalRule := fun _ i => (some v, i)

/-- Whether the texts of all sentinel ids are short enough to be listed. -/
def Sentinels.areWritable (s : Sentinels) : Bool :=
  [s.pennyId, s.updateId, s.priceUpdateId, s.deleteId].all integerIsWritable

/-- The conditions of the rule with their messages, as they are listed. -/
def sentinelTable (s : Sentinels) (i : Injector) : List (String × String) :=
  [("id == " ++ toString s.pennyId ++ " (lookup)", sentinelMessage .lookup),
    ("id == " ++ toString s.updateId ++ " (update)", sentinelMessage .update),
    ("id == " ++ toString s.priceUpdateId ++ " (price update)", sentinelMessage .priceUpdate),
    ("id == " ++ toString s.deleteId ++ " (delete)", sentinelMessage .delete),
    ("symbol == " ++ Text.quoted s.pennySymbol, pennyMessage),
    ("create symbol == " ++ Text.quoted s.testSymbol, testMessage),
    ("bulk draw < " ++ Injector.probabilityText i.given, bulkMessage)]

end StockRegister
