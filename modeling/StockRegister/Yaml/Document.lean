import StockRegister.Yaml.Part

/-!
# The values of YAML documents

`Document.read` reads a text as one YAML document and gives its value: null if it is empty.

A collection may have itself among its parts, however deep, but a value cannot. Such a value
is built in rounds (`Document.unroll`): where a collection is met again inside of itself, the
value stands that it had in the round before, and in the first round there is none.
-/

namespace StockRegister.Yaml

/-- The keys of a set, each of them once. -/
def distinctKeys (keys : List Key) : List Key :=
  keys.foldl (fun seen k => if seen.any k.same then seen else seen ++ [k]) []

/-- The value of the node at a place. `before` holds the values of the round before, the state
those of this one. -/
def valueAt (parts : Array (Option Part)) (before : Array Value) :
    Nat → NodeId → StateM (Array (Option Value)) Value
  | 0, _ => return .endless
  | fuel + 1, id => do
    if let some (some v) := (← get)[id]? then return v
    modify (·.setIfInBounds id before[id]?)
    let v ← match parts[id]? with
      | some (some (.single v)) => pure v
      | some (some (.list items)) => Value.list <$> items.mapM (valueAt parts before fuel)
      | some (some (.pairs entries)) =>
        Value.list <$> entries.mapM fun (k, v) => do
          return .pair (← valueAt parts before fuel k) (← valueAt parts before fuel v)
      | some (some (.set keys)) => pure (.set (distinctKeys keys))
      | some (some (.object fields)) => do
        let fields ← fields.mapM fun (k, v) => do return (k, ← valueAt parts before fuel v)
        pure (.object (Fields.putAll [] fields))
      | _ => pure .endless
    modify (·.setIfInBounds id (some v))
    return v

namespace Document

/-- The value of the root after some rounds. -/
def unroll (parts : Array (Option Part)) (root : NodeId) : Nat → Array Value → Value
  | 0, before => before[root]?.getD .endless
  | rounds + 1, before =>
    let (_, values) := (valueAt parts before (parts.size + 1) root).run
      (Array.replicate parts.size none)
    unroll parts root rounds (values.map (·.getD .endless))

/-- How often a collection shows inside of itself: as often as the settings are deep, and once
more. -/
def rounds : Nat := 4

/-- The value of a document. -/
def value (d : Document) : Except YamlError Value := do
  let parts ← d.parts
  return unroll parts d.root rounds (Array.replicate parts.size .endless)

/-- The value of the only document of a text, null if there is none. -/
def read (text : String) : Except YamlError Value := do
  match ← ofTokens (TokenStream.ofText text) with
  | none => return .null
  | some d => d.value

end Document

end StockRegister.Yaml
