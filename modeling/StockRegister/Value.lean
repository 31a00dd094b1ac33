import StockRegister.Key
import StockRegister.Number.Amount

/-!
# Dynamic values

`Value` is what a request body, a configuration document or an audit entry holds: null, a
truth value, a number, a text, bytes, a date, a list, a pair, a set, or an object with its
fields in order. A document may contain itself; a value goes down such a document for some
rounds, and `endless` stands where it was cut off.

A field list may be looked up (`Fields.get?`), written (`Fields.put`), and laid over another
(`Fields.overlay`), which goes down into objects that stand under one key on both sides.

What goes down a value does so by calls within calls, for which there is room to a certain depth.
`Value.maxDepth` is the bound that this puts on the texts that values are read from. There is none
on values themselves: one that is read from a text without aliases is within the bound of that text,
and is gone down with no more calls than it was read with.
-/

namespace StockRegister

/-- A value whose type is known only when it is read. -/
inductive Value where
  | null
  | bool (b : Bool)
  | int (n : Int)
  | float (x : Double)
  | text (t : Text)
  | bytes (octets : List Nat)
  | date (d : Date)
  | moment (m : Moment)
  | list (items : List Value)
  | pair (first second : Value)
  | set (keys : List Key)
  | object (fields : List (Key × Value))
  | endless
deriving Inhabited

/-- The fields of an object, in order. -/
abbrev Fields := List (Key × Value)

/-- How many lists and objects may stand in each other in a text, where reading each of them takes
a number of calls. There is room for 1000 calls. The calls that are under way when reading starts
depend on what asks for it, and are taken to be 40, as measured for a request. -/
def Value.maxDepth (calls : Nat) : Nat := (1000 - 40) / calls

namespace Fields

/-- The value of the first field of a key. -/
def get? (fields : Fields) (key : Key) : Option Value :=
  (fields.find? (·.1.same key)).map Prod.snd

/-- Whether there is a field of a key. -/
def has (fields : Fields) (key : Key) : Bool := (fields.get? key).isSome

/-- Write a field: in its old place if the key is there, at the end if not. -/
def put : Fields → Key → Value → Fields
  | [], key, v => [(key, v)]
  | (k, old) :: rest, key, v =>
    if k.same key then (k, v) :: rest else (k, old) :: Fields.put rest key v

/-- Write all fields of a second list into a first. -/
def putAll (fields more : Fields) : Fields := more.foldl (fun acc f => acc.put f.1 f.2) fields

/-- The fields without those of a key. -/
def without (fields : Fields) (key : Key) : Fields := fields.filter (!·.1.same key)

end Fields

/-- A key as a value. -/
def Key.toValue : Key → Value
  | null => .null
  | bool b => .bool b
  | int n => .int n
  | float x => .float x
  | text t => .text t
  | bytes octets => .bytes octets
  | date d => .date d
  | moment m => .moment m

namespace Value

/-- The name of a value's type in messages. -/
def typeName : Value → String
  | null => "NoneType"
  | bool _ => "bool"
  | int _ => "int"
  | float _ => "float"
  | text _ => "str"
  | bytes _ => "bytes"
  | date _ => "date"
  | moment _ => "datetime"
  | list _ => "list"
  | pair _ _ => "tuple"
  | set _ => "set"
  | object _ => "dict"
  | endless => "dict"

/-- Whether a value counts as absent: null, false, zero, or without content. -/
def isEmpty : Value → Bool
  | null => true
  | bool b => !b
  | int n => n == 0
  | float x => x.isZero
  | text t => t.isEmpty
  | bytes octets => octets.isEmpty
  | list items => items.isEmpty
  | set keys => keys.isEmpty
  | object fields => fields.isEmpty
  | _ => false

/-- A value, or an empty object if it counts as absent. -/
def orEmptyObject (v : Value) : Value := if v.isEmpty then object [] else v

/-- The key that a value is; a value with parts is none. -/
def toKey? : Value → Option Key
  | null => some .null
  | bool b => some (.bool b)
  | int n => some (.int n)
  | float x => some (.float x)
  | text t => some (.text t)
  | bytes octets => some (.bytes octets)
  | date d => some (.date d)
  | moment m => some (.moment m)
  | _ => none

/-- The number that a value is, a truth value counting as 0 or 1. -/
def toAmount? : Value → Option Amount
  | bool b => some (.whole (if b then 1 else 0))
  | int n => some (.whole n)
  | float x => some (.real x)
  | _ => none

/-- The text that a value is. -/
def toText? : Value → Option Text
  | text t => some t
  | _ => none

/-- The string that a value is. -/
def toString? (v : Value) : Option String := v.toText?.bind Text.toString?

/-- An optional text as a value. -/
def ofText? : Option Text → Value
  | none => null
  | some t => text t

/-- An optional integer as a value. -/
def ofInt? : Option Int → Value
  | none => null
  | some n => int n

/-- An amount as a value. -/
def ofAmount : Amount → Value
  | .whole n => int n
  | .real x => float x

/-- An optional floating-point number as a value. -/
def ofDouble? : Option Double → Value
  | none => null
  | some x => float x

/-- The integer that a value equals as a number. -/
def numericInt? : Value → Option Int
  | bool b => some (if b then 1 else 0)
  | int n => some n
  | float x => x.toInt?
  | _ => none

/-- Equality of two values as numbers, if both are numbers. -/
def sameNumber (v w : Value) : Bool :=
  match v.numericInt?, w.numericInt? with
  | some m, some n => m == n
  | none, none =>
    match v, w with
    | float x, float y => x.same y
    | _, _ => false
  | _, _ => false

mutual

/-- Equality of values: numbers by their value, objects without regard to order. -/
def same : Value → Value → Bool
  | null, null => true
  | text s, text t => s == t
  | bytes s, bytes t => s == t
  | date d, date e => d == e
  | moment m, moment n => (Key.moment m).same (.moment n)
  | list xs, list ys => sameItems xs ys
  | pair v w, pair v' w' => same v v' && same w w'
  | set ks, set ls => ks.length == ls.length && ks.all fun k => ls.any k.same
  | object fs, object gs => fs.length == gs.length && sameFields fs gs
  | v, w => sameNumber v w

/-- Equality of lists, item by item. -/
def sameItems : List Value → List Value → Bool
  | [], [] => true
  | v :: vs, w :: ws => same v w && sameItems vs ws
  | _, _ => false

/-- Whether every field of a first list has an equal one in a second. -/
def sameFields : List (Key × Value) → List (Key × Value) → Bool
  | [], _ => true
  | (k, v) :: rest, gs =>
    (match Fields.get? gs k with
      | some w => same v w
      | none => false) && sameFields rest gs

end

mutual

/-- A value without the null fields of its objects. -/
def withoutNulls : Value → Value
  | object fields => object (fieldsWithoutNulls fields)
  | v => v

/-- The fields that are not null, each without the null fields of its objects. -/
def fieldsWithoutNulls : List (Key × Value) → List (Key × Value)
  | [] => []
  | (k, v) :: rest =>
    match v with
    | null => fieldsWithoutNulls rest
    | v => (k, withoutNulls v) :: fieldsWithoutNulls rest

end

mutual

/-- A value laid over another: two objects are merged, and else the upper one stands. -/
def overlay : Value → Value → Value
  | object base, object top => object (overlayFields base top)
  | _, top => top

/-- The fields of the upper object written into the lower one, objects merged. -/
def overlayFields : List (Key × Value) → List (Key × Value) → List (Key × Value)
  | base, [] => base
  | base, (k, v) :: rest =>
    overlayFields
      (Fields.put base k (match Fields.get? base k with
        | some old => overlay old v
        | none => v)) rest

end

mutual

/-- Whether every code point in the texts of a value is a character. -/
def isWritable : Value → Bool
  | text t => t.toString?.isSome
  | list items => areWritable items
  | pair v w => isWritable v && isWritable w
  | object fields => fieldsAreWritable fields
  | _ => true

@[inherit_doc isWritable] def areWritable : List Value → Bool
  | [] => true
  | v :: vs => isWritable v && areWritable vs

@[inherit_doc isWritable] def fieldsAreWritable : List (Key × Value) → Bool
  | [] => true
  | (_, v) :: rest => isWritable v && fieldsAreWritable rest

end

mutual

/-- Whether a value goes on without end. -/
def isEndless : Value → Bool
  | list items => areEndless items
  | pair v w => isEndless v || isEndless w
  | object fields => fieldsAreEndless fields
  | endless => true
  | _ => false

@[inherit_doc isEndless] def areEndless : List Value → Bool
  | [] => false
  | v :: vs => isEndless v || areEndless vs

@[inherit_doc isEndless] def fieldsAreEndless : List (Key × Value) → Bool
  | [] => false
  | (_, v) :: rest => isEndless v || fieldsAreEndless rest

end

mutual

/-- Whether a value is laid over another without end: both go on under the same keys. -/
def overlayIsEndless : Value → Value → Bool
  | object base, object top => overlaysAreEndless base top
  | endless, top => top.isEndless
  | base, endless => base.isEndless
  | _, _ => false

@[inherit_doc overlayIsEndless] def overlaysAreEndless (base : List (Key × Value)) :
    List (Key × Value) → Bool
  | [] => false
  | (k, v) :: rest =>
    (match Fields.get? base k with
      | some old => overlayIsEndless old v
      | none => false) || overlaysAreEndless base rest

end

end Value

/-- The fields of `top` laid over those of `base`. -/
def Fields.overlay (base top : Fields) : Fields := Value.overlayFields base top

end StockRegister
