import StockRegister.Stock

/-!
# Operations, operands and verdicts

An `Operation` is a kind of request to the register, and an `Operand` is what a request of
that kind is about: an id, a symbol, the details of a new record, or the whole collection.
`Operation.operandShape` says which operand each operation is about, and `Operand.ofValue`
makes it from a raw value. A `Verdict` is the outcome of assessing an operand: the request
may go on, or a stage rejected it.
-/

namespace StockRegister

open Schema

/-- A kind of request. -/
inductive Operation where
  | lookupById
  | lookupBySymbol
  | bulkLookup
  | create
  | update
  | priceUpdate
  | delete
deriving DecidableEq

/-- What an id is looked up for; every purpose has a sentinel id of its own. -/
inductive IdPurpose where
  | lookup
  | update
  | priceUpdate
  | delete
deriving DecidableEq

/-- Why a request is rejected. -/
inductive FailureKind where
  | validation
  | domain
  | transient
deriving DecidableEq

namespace Operation

/-- The operations with their names. -/
def members : List (String × Operation) :=
  [("lookup_by_id", lookupById), ("lookup_by_symbol", lookupBySymbol),
    ("bulk_lookup", bulkLookup), ("create_validation", create),
    ("update_validation", update), ("price_update_validation", priceUpdate),
    ("delete_validation", delete)]

/-- The name of an operation. -/
def name : Operation → String
  | lookupById => "lookup_by_id"
  | lookupBySymbol => "lookup_by_symbol"
  | bulkLookup => "bulk_lookup"
  | create => "create_validation"
  | update => "update_validation"
  | priceUpdate => "price_update_validation"
  | delete => "delete_validation"

/-- The operation of a name. -/
def ofName? (name : String) : Option Operation := members.lookup name

theorem ofName?_name (op : Operation) : ofName? op.name = some op := by cases op <;> rfl

end Operation

namespace IdPurpose

/-- The purposes with their names. -/
def members : List (String × IdPurpose) :=
  [("lookup", lookup), ("update", update), ("price_update", priceUpdate), ("delete", delete)]

/-- The name of a purpose. -/
def name : IdPurpose → String
  | lookup => "lookup"
  | update => "update"
  | priceUpdate => "price_update"
  | delete => "delete"

theorem lookup_name (p : IdPurpose) : members.lookup p.name = some p := by cases p <;> rfl

end IdPurpose

namespace FailureKind

/-- The kinds of failure with their names. -/
def members : List (String × FailureKind) :=
  [("validation_error", validation), ("domain_rejection", domain),
    ("transient_rejection", transient)]

/-- The name of a kind of failure. -/
def name : FailureKind → String
  | validation => "validation_error"
  | domain => "domain_rejection"
  | transient => "transient_rejection"

theorem lookup_name (k : FailureKind) : members.lookup k.name = some k := by cases k <;> rfl

end FailureKind

/-! ## Operands -/

/-- What a request is about. -/
inductive Operand where
  | entity (value : Option Int) (purpose : IdPurpose)
  | symbol (value : Option Text)
  | creation (details : Option StockDetails)
  | bulk
deriving DecidableEq

/-- The type of an operand. -/
inductive OperandType where
  | entity
  | symbol
  | creation
  | bulk
deriving DecidableEq

namespace OperandType

/-- The name of an operand type. -/
def title : OperandType → String
  | entity => "EntityId"
  | symbol => "SymbolOperand"
  | creation => "CreationPayload"
  | bulk => "BulkMarker"

/-- The word that marks an operand of a type in its written form. -/
def mark : OperandType → String
  | entity => "entity_id"
  | symbol => "symbol"
  | creation => "creation_payload"
  | bulk => "bulk"

end OperandType

namespace Operand

/-- The type of an operand. -/
def type : Operand → OperandType
  | entity _ _ => .entity
  | symbol _ => .symbol
  | creation _ => .creation
  | bulk => .bulk

/-- The purpose of an id. -/
def purpose? : Operand → Option IdPurpose
  | entity _ purpose => some purpose
  | _ => none

/-- The symbol that a creation is about. -/
def creationSymbol (details : Option StockDetails) : Option Text := details.bind (·.symbol)

/-- What an operand tells of itself in the audit trail. -/
def describe : Operand → Fields
  | entity value purpose =>
    [("operand", .text "entity_id"), ("id", .ofInt? value), ("context", .text purpose.name)]
  | symbol value => [("operand", .text "symbol"), ("symbol", .ofText? value)]
  | creation details =>
    [("operand", .text "creation_payload"), ("symbol", .ofText? (creationSymbol details))]
  | bulk => [("operand", .text "bulk")]

/-- The mark of the type of an operand. -/
def kindField : Field := .plain "kind"

/-- The id or the symbol that an operand is about. -/
def valueField : Field := .plain "value"

/-- The purpose of an id. -/
def contextField : Field := .plain "context"

/-- The details of a new record. -/
def requestField : Field := .plain "request"

/-- The title under which the details of a new record are read. -/
def detailsTitle : String := "StockCreateRequest"

/-- The details of a new record as a value. -/
def readDetails (v : Value) : Checked StockDetails :=
  readModel detailsTitle StockDetails.readFields v

/-- The operand of a type in an object. -/
def readFields (t : OperandType) (fields : Fields) : Checked Operand :=
  let kind := kindField.orElse () (readLiteral [(t.mark, ())]) fields
  match t with
  | .entity =>
    (fun _ => entity) <$> kind
      <*> valueField.orElse none (readOptional readInt) fields
      <*> contextField.orElse .lookup (readChoice IdPurpose.members) fields
  | .symbol => (fun _ => symbol) <$> kind <*> valueField.orElse none (readOptional readText) fields
  | .creation =>
    (fun _ => creation) <$> kind <*> requestField.orElse none (readOptional readDetails) fields
  | .bulk => (fun _ => bulk) <$> kind

/-- An operand as the fields of an object. -/
def entries (naming : Naming) (o : Operand) : List (Field × Value) :=
  (kindField, .text o.type.mark) ::
    match o with
    | entity value purpose => [(valueField, .ofInt? value), (contextField, .text purpose.name)]
    | symbol value => [(valueField, .ofText? value)]
    | creation none => [(requestField, .null)]
    | creation (some d) => [(requestField, writeModel naming d.entries)]
    | bulk => []

end Operand

/-- The type of operand that an operation is about, and the purpose if it is an id. -/
def Operation.operandShape : Operation → OperandType × Option IdPurpose
  | lookupById => (.entity, some .lookup)
  | lookupBySymbol => (.symbol, none)
  | bulkLookup => (.bulk, none)
  | create => (.creation, none)
  | update => (.entity, some .update)
  | priceUpdate => (.entity, some .priceUpdate)
  | delete => (.entity, some .delete)

/-- The operand of an operation, made from a raw value. -/
def Operand.ofValue (op : Operation) (v : Value) : Checked Operand :=
  match op.operandShape with
  | (.entity, purpose) =>
    (fun n => entity n (purpose.getD .lookup)) <$>
      (readOptional readInt v).under (.name valueField.name)
  | (.symbol, _) => symbol <$> (readOptional readText v).under (.name valueField.name)
  | (.creation, _) => creation <$> (readOptional readDetails v).under (.name requestField.name)
  | (.bulk, _) => .ok .bulk

/-! ## Verdicts -/

/-- A rejection: the stage that made it, the kind of failure and the message. -/
structure Rejection where
  stageRank : Int
  stageName : Text
  failure : FailureKind
  message : Text
deriving DecidableEq

/-- The outcome of an assessment. -/
inductive Verdict where
  | proceed
  | rejected (r : Rejection)
deriving DecidableEq

namespace Verdict

/-- Whether a request was rejected. -/
def isRejected : Verdict → Bool
  | proceed => false
  | rejected _ => true

/-- The word for the outcome in the audit trail. -/
def outcome : Verdict → String
  | proceed => "proceed"
  | rejected r => r.failure.name

end Verdict

namespace Rejection

/-- The rank of the stage that rejects. -/
def stageRankField : Field := .plain "stage_rank"

/-- The name of the stage that rejects. -/
def stageNameField : Field := .plain "stage_name"

/-- The kind of failure. -/
def failureField : Field := .plain "failure_kind"

/-- The message to whoever made the request. -/
def messageField : Field := .plain "message"

/-- The rejection in an object. -/
def readFields (fields : Fields) : Checked Rejection :=
  Rejection.mk
    <$> stageRankField.required (readIntFrom 1) fields
    <*> stageNameField.required readText fields
    <*> failureField.required (readChoice FailureKind.members) fields
    <*> messageField.required readText fields

/-- A rejection as the fields of an object. -/
def entries (r : Rejection) : List (Field × Value) :=
  [(stageRankField, .int r.stageRank), (stageNameField, .text r.stageName),
    (failureField, .text r.failure.name), (messageField, .text r.message)]

end Rejection

end StockRegister
