import StockRegister.Yaml.Merge

/-!
# Parts of YAML documents

The `Part` of a node is its value, but for the parts of a collection, which are still named by
their places. `Document.parts` finds the parts of all nodes that the root leads to.

A collection is met before it is filled (`meet`, `fill`), and collections are filled in the
order in which they were met. Which of several faults of a document is found depends on this
order. When a mapping is filled its merges are carried out; a key must be a single value.
-/

namespace StockRegister.Yaml

/-- The value of a node, its parts being named by their places. -/
inductive Part where
  | single (v : Value)
  | list (items : List NodeId)
  | pairs (entries : Entries)
  | set (keys : List Key)
  | object (fields : List (Key × NodeId))

/-- What is known while parts are found: the nodes, which merges change, the parts so far, and
the collections that were met, in order. -/
structure Survey where
  nodes : Array Node
  parts : Array (Option Part)
  met : Array NodeId := #[]

/-- A step of finding parts. -/
abbrev Finding := StateT Survey (Except YamlError)

/-- The text that the node at a place stands for: that of a scalar, or of the default value of
a mapping. A chain of default values that is longer than the document never ends. -/
def textAt (nodes : Array Node) : Nat → NodeId → Except YamlError (List Nat)
  | 0, _ => .error .endless
  | fuel + 1, id =>
    match nodes[id]? with
    | some ⟨_, .scalar text⟩ => .ok text
    | some ⟨_, .mapping entries⟩ =>
      match entries.find? fun e => isTagged nodes .defaultValue e.1 with
      | some (_, value) => textAt nodes fuel value
      | none => .error .malformed
    | _ => .error .malformed

/-- The value of the node at a place as a scalar of a type. A date must be a scalar itself. -/
def scalarAt (nodes : Array Node) (type : ScalarType) (id : NodeId) : Except YamlError Value := do
  let text ← textAt nodes (nodes.size + 1) id
  if type == .timestamp && (entriesAt? nodes id).isSome then throw .notText
  type.value text

/-- Note the part of the node at a place. -/
def setPart (id : NodeId) (part : Part) : Finding Unit :=
  modify fun s => { s with parts := s.parts.setIfInBounds id (some part) }

/-- Note a collection that is still empty. -/
def meetCollection (id : NodeId) (part : Part) : Finding Part := do
  setPart id part
  modify fun s => { s with met := s.met.push id }
  return part

/-- The part of the node at a place; a collection that was not met before is still empty. -/
def meet (id : NodeId) : Finding Part := do
  let s ← get
  match s.parts[id]?, s.nodes[id]? with
  | some (some part), _ => return part
  | _, none => throw .malformed
  | _, some node =>
    match node.tag with
    | .sequence => meetCollection id (.list [])
    | .pairs => meetCollection id (.pairs [])
    | .set => meetCollection id (.set [])
    | .mapping => meetCollection id (.object [])
    | .scalar .merge | .scalar .defaultValue | .scalar .markup | .unknown => throw .malformed
    | .scalar type =>
      let part := Part.single (← scalarAt s.nodes type id)
      setPart id part
      return part

/-- The key that the node at a place is. -/
def meetKey (id : NodeId) : Finding Key := do
  match ← meet id with
  | .single v =>
    match v.toKey? with
    | some key => return key
    | none => throw .malformed
  | _ => throw .malformed

/-- The fields of the mapping at a place, its merges carried out. -/
def meetFields (id : NodeId) : Finding (List (Key × NodeId)) := do
  let s ← get
  let ((), nodes) ← (flatten id).run s.nodes
  set { s with nodes := nodes }
  ((entriesAt? nodes id).getD []).mapM fun (key, value) => do
    let key ← meetKey key
    let _ ← meet value
    return (key, value)

/-- The only entry of the mapping at a place. -/
def meetPair (id : NodeId) : Finding (NodeId × NodeId) := do
  match entriesAt? (← get).nodes id with
  | some [(key, value)] =>
    let _ ← meet key
    let _ ← meet value
    return (key, value)
  | _ => throw .malformed

/-- Fill the collection at a place, which must be of the kind that its tag says. -/
def fill (id : NodeId) : Finding Unit := do
  match (← get).nodes[id]? with
  | some ⟨.sequence, .sequence items⟩ =>
    for item in items do
      let _ ← meet item
    setPart id (.list items)
  | some ⟨.pairs, .sequence items⟩ => setPart id (.pairs (← items.mapM meetPair))
  | some ⟨.mapping, .mapping _⟩ => setPart id (.object (← meetFields id))
  | some ⟨.set, .mapping _⟩ => setPart id (.set ((← meetFields id).map Prod.fst))
  | _ => throw .malformed

/-- Fill the collections from the one that was met as number `n` on. -/
def fillFrom : Nat → Nat → Finding Unit
  | 0, _ => return
  | fuel + 1, n => do
    match (← get).met[n]? with
    | none => return
    | some id =>
      fill id
      fillFrom fuel (n + 1)

/-- The parts of all nodes that the root leads to. -/
def Document.parts (d : Document) : Except YamlError (Array (Option Part)) := do
  let find : Finding Unit := do
    let _ ← meet d.root
    fillFrom (d.nodes.size + 1) 0
  let ((), s) ← find.run { nodes := d.nodes, parts := Array.replicate d.nodes.size none }
  return s.parts

end StockRegister.Yaml
