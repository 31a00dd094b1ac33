import StockRegister.Operand
import StockRegister.Text.Blank

/-!
# Basic validity

The check that every stage makes of its operand: an id must be positive, a symbol must not
be blank, and the details of a new record must be there and name a symbol and a company.
`validityFault?` names what is wrong, and `ValidityFault.message` words it for the subject
of a stage.
-/

namespace StockRegister

/-- What is wrong with an operand. -/
inductive ValidityFault where
  | invalidId
  | invalidSymbol
  | missingRequest
  | invalidRequest
deriving DecidableEq

/-- The wording of a fault for the subject of a stage. -/
def ValidityFault.message (subject : String) : ValidityFault → String
  | invalidId => "invalid id for " ++ subject
  | invalidSymbol => "invalid symbol for " ++ subject
  | missingRequest => "missing create request for " ++ subject
  | invalidRequest => "invalid create request for " ++ subject

/-- Whether an optional text is absent or blank. -/
def isBlankText : Option Text → Bool
  | none => true
  | some t => t.isBlank

/-- What is wrong with an operand, if anything is. -/
def Operand.validityFault? : Operand → Option ValidityFault
  | .entity none _ => some .invalidId
  | .entity (some n) _ => if n ≤ 0 then some .invalidId else none
  | .symbol s => if isBlankText s then some .invalidSymbol else none
  | .creation none => some .missingRequest
  | .creation (some d) =>
    if isBlankText d.symbol || isBlankText d.companyName then some .invalidRequest else none
  | .bulk => none

/-- What is given to an assessment: an operand, or a bare value that is none. -/
inductive Argument where
  | operand (o : Operand)
  | bare (v : Value)

/-- The name of the type of an argument. -/
def Argument.typeName : Argument → String
  | operand o => o.type.title
  | bare v => v.typeName

/-- Why an assessment cannot be made. -/
inductive AssessmentError where
  | unsupportedOperand (typeName : String)
  | wrongOperand (operation : Operation) (typeName : String)
  | wrongPurpose (operation : Operation) (purpose : IdPurpose)
  | wrongStages (ranks : List Nat)
deriving DecidableEq

/-- The validity of an argument for the subject of a stage, as a message if it has a fault. -/
def Argument.check (a : Argument) (subject : String) : Except AssessmentError (Option String) :=
  match a with
  | operand o => .ok (o.validityFault?.map (ValidityFault.message subject))
  | bare v => .error (.unsupportedOperand v.typeName)

end StockRegister
