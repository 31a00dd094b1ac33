import StockRegister.Operand
import StockRegister.Settings

/-!
# Models

A `Model` is a named form of object, and a `Record` is an object of one of these forms.
`Model.read` reads a value as a record, and `Record.entries` gives the fields of a record
back. A record is written under the plain names of its fields, under their preferred keys,
or without the fields that are null, and some tell more than their fields (`Record.remarks`).
The fields of settings may be set to anything later; every other record is frozen
(`Record.setAttribute`).
-/

namespace StockRegister

open Schema

/-- A named form of object. -/
inductive Model where
  | stock
  | createRequest
  | updateRequest
  | priceUpdate
  | operand (type : OperandType)
  | proceed
  | rejection
  | sentinels
  | assessment
  | web
  | log
  | storage
  | settings
deriving DecidableEq

/-- An object of one of the models. -/
inductive Record where
  | stock (s : Stock)
  | createRequest (d : StockDetails)
  | updateRequest (d : StockDetails)
  | priceUpdate (p : PriceUpdate)
  | operand (o : Operand)
  | proceed
  | rejection (r : Rejection)
  | sentinels (s : Sentinels)
  | assessment (s : AssessmentSettings)
  | web (s : WebSettings)
  | log (s : LogSettings)
  | storage (s : StorageSettings)
  | settings (s : Settings)

namespace Model

/-- The title of a model. -/
def title : Model → String
  | stock => "Stock"
  | createRequest => Operand.detailsTitle
  | updateRequest => "StockUpdateRequest"
  | priceUpdate => "StockPriceUpdateRequest"
  | operand type => type.title
  | proceed => "Proceed"
  | rejection => "Rejected"
  | sentinels => Sentinels.modelTitle
  | assessment => AssessmentSettings.modelTitle
  | web => WebSettings.modelTitle
  | log => LogSettings.modelTitle
  | storage => StorageSettings.modelTitle
  | settings => Settings.modelTitle

/-- All models. -/
def all : List Model :=
  [stock, createRequest, updateRequest, priceUpdate, operand .entity, operand .symbol,
    operand .creation, operand .bulk, proceed, rejection, sentinels, assessment, web, log,
    storage, settings]

/-- The model of a title. -/
def ofTitle? (title : String) : Option Model := all.find? (·.title == title)

theorem ofTitle?_title (m : Model) : ofTitle? m.title = some m := by
  cases m with
  | operand t => cases t <;> rfl
  | _ => rfl

/-- Whether the fields of a record of the model may not be set. -/
def isFrozen : Model → Bool
  | sentinels | assessment | web | log | storage | settings => false
  | _ => true

/-- The record in an object. -/
def readFields (m : Model) (fields : Fields) : Checked Record :=
  match m with
  | stock => .stock <$> Stock.readFields fields
  | createRequest => .createRequest <$> StockDetails.readFields fields
  | updateRequest => .updateRequest <$> StockDetails.readFields fields
  | priceUpdate => .priceUpdate <$> PriceUpdate.readFields fields
  | operand type => .operand <$> Operand.readFields type fields
  | proceed => .ok .proceed
  | rejection => .rejection <$> Rejection.readFields fields
  | sentinels => .sentinels <$> Sentinels.readFields fields
  | assessment => .assessment <$> AssessmentSettings.readFields fields
  | web => .web <$> WebSettings.readFields fields
  | log => .log <$> LogSettings.readFields fields
  | storage => .storage <$> StorageSettings.readFields fields
  | settings => .settings <$> Settings.readFields fields

/-- The record that a value is in a model. -/
def read (m : Model) (v : Value) : Checked Record := readModel m.title m.readFields v

end Model

namespace Record

/-- The fields of a record. -/
def entries (naming : Naming) : Record → List (Field × Value)
  | stock s => s.entries
  | createRequest d => d.entries
  | updateRequest d => d.entries
  | priceUpdate p => p.entries
  | operand o => o.entries naming
  | proceed => []
  | rejection r => r.entries
  | sentinels s => s.entries
  | assessment s => s.entries naming
  | web s => s.entries
  | log s => s.entries
  | storage s => s.entries
  | settings s => s.entries naming

/-- A record as an object. -/
def write (naming : Naming) (r : Record) : Value := writeModel naming (r.entries naming)

end Record

/-- A record as an object in its three written forms. -/
structure WrittenRecord where
  plain : Value
  preferred : Value
  withoutNulls : Value

/-- The three written forms of a record. -/
def Record.written (r : Record) : WrittenRecord :=
  ⟨r.write .plain, r.write .preferred, (r.write .plain).withoutNulls⟩

/-- Why an attribute of a record cannot be set, or why the record cannot be told after that. -/
inductive SetError where
  | frozen
  /-- The record has no such field. -/
  | unknownField
  /-- The attribute is there but is only read. -/
  | readOnly
  /-- The attribute cannot have such a value. -/
  | unusableValue
  /-- What is asked of the record is not there. -/
  | missing
  /-- A field stands in the place of what is asked of the record. -/
  | hidden
  | figure (e : FigureError)

/-- An object with a field set; null removes the field if nulls are left out. -/
def setIn (keepNull : Bool) (name : Text) (v : Value) : Value → Value
  | .object fields =>
    match v, keepNull with
    | .null, false => .object (Fields.without fields name)
    | v, _ => .object (Fields.put fields name v)
  | other => other

namespace Record

/-! ## What a record tells beside its fields -/

/-- What a record tells beside its fields: the change of its price, the operand that it is, or
whether it is a rejection. -/
def remarks : Record → Except SetError Fields
  | stock s => do
    let rate ← s.changeRate.mapError .figure
    pure [("change_rate", .ofDouble? rate)]
  | operand o => pure [("describe", .object o.describe)]
  | proceed => pure [("is_rejected", .bool false)]
  | rejection _ => pure [("is_rejected", .bool true)]
  | _ => pure []

/-- A field that has to be there. -/
def present (fields : Fields) (f : Field) : Except SetError Value :=
  match fields.get? f.name with
  | some v => .ok v
  | none => .error .missing

/-- What an operand of a type tells of itself if it holds the given fields in place of its own.
Values that were never read have neither a purpose nor a symbol in them. -/
def describeFields (type : OperandType) (fields : Fields) : Except SetError Fields := do
  let kind ← present fields Operand.kindField
  match type with
  | .entity => throw .missing
  | .symbol => return [("operand", kind), ("symbol", ← present fields Operand.valueField)]
  | .creation =>
    match ← present fields Operand.requestField with
    | .null => return [("operand", kind), ("symbol", .null)]
    | _ => throw .missing
  | .bulk => return [("operand", kind)]

/-- The change of the price of a stock that holds the given fields in place of its own. The
previous price is looked for only if the current one is not null. -/
def changeRateOf (s : Stock) (fields : Fields) : Except SetError (Option Double) := do
  match ← present fields Stock.currentPriceField with
  | .null => return none
  | current =>
    let previous ← present fields Stock.previousPriceField
    { s with currentPrice := current, previousPrice := previous }.changeRate.mapError .figure

/-- What a record tells beside its fields if it holds the given ones in place of its own. -/
def remarksOf (r : Record) (fields : Fields) : Except SetError Fields :=
  match r with
  | stock s => do return [("change_rate", .ofDouble? (← changeRateOf s fields))]
  | operand o =>
    if fields.has "describe" then .error .hidden
    else do return [("describe", .object (← describeFields o.type fields))]
  | _ => r.remarks

/-! ## Setting attributes -/

/-- The attributes of a record itself that are only read. -/
def readOnlyNames : List String := ["model_extra", "model_fields_set"]

/-- The hidden attributes of a record that are only read. -/
def hiddenReadOnlyNames : List String := ["__fields_set__", "__weakref__"]

/-- The written forms of a record that holds the given fields in place of its own; fields that
its model does not have are not written. -/
def withFields (r : Record) (fields : Fields) : WrittenRecord :=
  let form (naming : Naming) : Fields := fields.filterMap fun f =>
    ((r.entries .plain).find? fun e => f.1 == .text e.1.name).map fun e =>
      ((e.1.label naming : Key), f.2)
  ⟨.object (form .plain), .object (form .preferred),
    .object ((form .plain).filter fun f => match f.2 with
      | .null => false
      | _ => true)⟩

/-- A record that holds the given fields in place of its own. It is written by an operation
and by what the attribute `writer` holds, unless a field stands in the place of one. -/
def replaced (writer : String) (r : Record) (fields : Fields) :
    Except SetError (WrittenRecord × Fields) :=
  if fields.has "model_dump" then .error .hidden
  else if fields.has writer then .error .missing
  else do return (r.withFields fields, ← r.remarksOf fields)

/-- Set an attribute of a record that is no field. One is the type of the record, which stays,
one the object of its fields, and one, `writer`, what writes it; any other may be set but is
not written. -/
def setHidden (writer : String) (r : Record) (name : Text) (v : Value) :
    Except SetError (WrittenRecord × Fields) :=
  if name = ("__class__" : Text) then .error .unusableValue
  else if name = ("__dict__" : Text) then
    match v with
    | .object fields => r.replaced writer fields
    | _ => .error .unusableValue
  else if name = Text.ofString writer then .error .missing
  else if hiddenReadOnlyNames.any fun (s : String) => name = s then .error .readOnly
  else do return (r.written, ← r.remarks)

/-- Set an attribute of a record, without any check of the value: the record as it is written
after that, and what it tells beside its fields. A name that starts with an underscore is none
of a field. -/
def setAttribute (writer : String) (m : Model) (r : Record) (name : Text) (v : Value) :
    Except SetError (WrittenRecord × Fields) :=
  if name.points.head? == some '_'.toNat then r.setHidden writer name v
  else if m.isFrozen then .error .frozen
  else if readOnlyNames.any fun (s : String) => name = s then .error .readOnly
  else if !(r.entries .plain).any fun e => name = e.1.name then .error .unknownField
  else do
    let w := r.written
    return (⟨setIn true name v w.plain, setIn true name v w.preferred,
      setIn false name v w.withoutNulls⟩, ← r.remarks)

end Record

end StockRegister
