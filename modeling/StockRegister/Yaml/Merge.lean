import StockRegister.Yaml.Node

/-!
# Merging YAML mappings

An entry whose key is a mark of a merge brings the entries of another mapping into its own
one, or those of each mapping in a sequence. `flatten` carries out the merges of a mapping:
what they bring in stands before the entries that were there, of a sequence in reverse order,
so that the mapping's own entries count most and the first mapping of a sequence counts more
than the next.

A mapping may be merged into itself. A merge is taken out of its mapping before it is carried
out, so that each one is carried out once.
-/

namespace StockRegister.Yaml

/-- The entries of a mapping: keys and values. -/
abbrev Entries := List (NodeId × NodeId)

/-- Whether the tag of the node at a place is that of a type of scalars. -/
def isTagged (nodes : Array Node) (type : ScalarType) (id : NodeId) : Bool :=
  nodes[id]?.any (·.tag == .scalar type)

/-- The entries of the mapping at a place, if one is there. -/
def entriesAt? (nodes : Array Node) (id : NodeId) : Option Entries :=
  match nodes[id]? with
  | some ⟨_, .mapping entries⟩ => some entries
  | _ => none

/-- A step of merging, which changes nodes. -/
abbrev Merging := StateT (Array Node) (Except YamlError)

/-- Give the mapping at a place other entries. -/
def setEntries (id : NodeId) (entries : Entries) : Merging Unit :=
  modify fun nodes => nodes.modify id fun node => { node with content := .mapping entries }

/-- Take the first merge out of the mapping at a place; the result is what it merges. -/
def takeMerge (id : NodeId) : Merging (Option NodeId) := do
  let nodes ← get
  let entries := (entriesAt? nodes id).getD []
  match entries.findIdx? fun e => isTagged nodes .merge e.1 with
  | none => return none
  | some i =>
    setEntries id (entries.eraseIdx i)
    return entries[i]?.map Prod.snd

/-- A key that stands for a default value is a text like any other. -/
def retagKeys (id : NodeId) : Merging Unit := do
  let nodes ← get
  for (key, _) in (entriesAt? nodes id).getD [] do
    if isTagged nodes .defaultValue key then
      modify (·.modify key fun node => { node with tag := .scalar .text })

mutual

/-- Carry out the merges of the mapping at a place. -/
def flattenMapping (id : NodeId) : Nat → Merging Unit
  | 0 => throw .malformed
  | fuel + 1 => do
    let merged ← takeMerges id fuel
    retagKeys id
    setEntries id (merged ++ (entriesAt? (← get) id).getD [])

/-- What the merges of the mapping at a place bring in. -/
def takeMerges (id : NodeId) : Nat → Merging Entries
  | 0 => throw .malformed
  | fuel + 1 => do
    match ← takeMerge id with
    | none => return []
    | some source =>
      let entries ← mergedEntries source fuel
      return entries ++ (← takeMerges id fuel)

/-- What a merge of the node at a place brings in. -/
def mergedEntries (id : NodeId) : Nat → Merging Entries
  | 0 => throw .malformed
  | fuel + 1 => do
    match (← get)[id]? with
    | some ⟨_, .mapping _⟩ => mappingEntries id fuel
    | some ⟨_, .sequence items⟩ =>
      let parts ← items.mapM fun item => mappingEntries item fuel
      return parts.reverse.flatten
    | _ => throw .malformed

/-- The entries of the mapping at a place, its own merges carried out. -/
def mappingEntries (id : NodeId) : Nat → Merging Entries
  | 0 => throw .malformed
  | fuel + 1 => do
    if (entriesAt? (← get) id).isNone then throw .malformed
    flattenMapping id fuel
    return (entriesAt? (← get) id).getD []

end

/-- The number of entries in all mappings. -/
def entryCount (nodes : Array Node) : Nat :=
  nodes.foldl (fun n node => match node.content with
    | .mapping entries => n + entries.length
    | _ => n) 0

/-- Carry out the merges of the mapping at a place. There are no more of them than entries, and
at most four steps lie between one and the next. -/
def flatten (id : NodeId) : Merging Unit := do
  flattenMapping id (4 * (entryCount (← get) + 1))

end StockRegister.Yaml
