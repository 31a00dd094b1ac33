import StockRegister.Schema.Scalar

/-!
# Reading objects by their fields

A `Field` has a name and the keys under which an object may hold it, in order of
precedence: the first key that is there decides, whatever the others hold. The way to a
problem names the key that was there, or the first key if none was.
-/

namespace StockRegister.Schema

open Checked

/-- A field of an object: its plain name and its keys, the preferred one first. -/
structure Field where
  name : String
  key : String
  otherKeys : List String

namespace Field

/-- A field that has only one key. -/
def plain (name : String) : Field := ⟨name, name, []⟩

/-- A field that may be spelled in two ways, preferably as `key`. -/
def spelled (name key : String) : Field := ⟨name, key, [name]⟩

/-- All keys of a field, in order of precedence. -/
def keys (f : Field) : List String := f.key :: f.otherKeys

/-- The first of the keys that an object has, with its value. -/
def find (f : Field) (fields : Fields) : Option (String × Value) :=
  f.keys.findSome? fun (k : String) => (fields.get? k).map fun v => (k, v)

/-- A field that an object must have. -/
def required {α : Type} (f : Field) (read : Value → Checked α) (fields : Fields) : Checked α :=
  match f.find fields with
  | some (k, v) => (read v).under (.name k)
  | none => bad [⟨.missing, [.name f.key]⟩]

/-- A field that an object may leave out; the default is taken as it is. -/
def orElse {α : Type} (f : Field) (default : α) (read : Value → Checked α) (fields : Fields) :
    Checked α :=
  match f.find fields with
  | some (k, v) => (read v).under (.name k)
  | none => ok default

end Field

/-- An object of the model of the given title. -/
def readModel {α : Type} (title : String) (read : Fields → Checked α) : Value → Checked α
  | .object fields => read fields
  | _ => fail (.notModel title)

/-! ## Naming -/

/-- Whether fields are written under their plain names or their preferred keys. -/
inductive Naming where
  | plain
  | preferred
deriving DecidableEq

/-- The name under which a field is written. -/
def Field.label (f : Field) : Naming → String
  | .plain => f.name
  | .preferred => f.key

/-- The object that holds the given values of fields. -/
def writeModel (naming : Naming) (entries : List (Field × Value)) : Value :=
  .object (entries.map fun e => (e.1.label naming, e.2))

end StockRegister.Schema
