import StockRegister.Yaml.Scalar

/-!
# YAML nodes

A `Document` is a graph: each `Node` is a scalar, a sequence or a mapping, and the parts of a
collection are named by their places in the list of all nodes. An alias stands for the node
that its anchor marked before, so that a node may be a part of several others, and even of
itself.

`Document.ofTokens` builds the only document of a stream from its tokens. A node has its place
before its parts are read, because they may name it; no anchor marks two nodes.
-/

namespace StockRegister.Yaml

/-- What a tag says that a node is. -/
inductive Tag where
  | scalar (type : ScalarType)
  | sequence
  | mapping
  | set
  | pairs
  | unknown
deriving DecidableEq

/-- The place of a node in its document. -/
abbrev NodeId := Nat

/-- What a node consists of. -/
inductive Content where
  | scalar (text : List Nat)
  | sequence (items : List NodeId)
  | mapping (entries : List (NodeId × NodeId))

/-- A part of a document. -/
structure Node where
  tag : Tag
  content : Content

/-- A document: its nodes, and the place of the one that has all others as parts. -/
structure Document where
  nodes : Array Node
  root : NodeId

/-- What is known while a document is read: the tokens left and the error behind them, the
nodes so far, the number of collections around the present place, the anchors, and the handles
of tags. -/
structure Reader where
  stream : TokenStream
  nodes : Array Node := #[]
  depth : Nat := 0
  anchors : List (String × NodeId) := []
  handles : List (String × String) := []

/-- A step of reading a document. -/
abbrev Read := StateT Reader (Except YamlError)

/-- The next token; behind the last one the stream has ended. -/
def next : Read Token := do
  let stream := (← get).stream
  match stream.tokens, stream.error with
  | t :: _, _ => return t
  | [], some e => throw e
  | [], none => return .streamEnd

/-- Step over the next token. -/
def advance : Read Unit :=
  modify fun s => { s with stream := { s.stream with tokens := s.stream.tokens.drop 1 } }

/-- Step over the next token if it is the given one. -/
def accept (t : Token) : Read Bool := do
  if (← next) == t then
    advance
    return true
  else return false

/-- Step over the next token, which must be the given one. -/
def expect (t : Token) : Read Unit := do
  if !(← accept t) then throw .malformed

/-! ## Tags and anchors -/

/-- The common start of the names of standard tags. -/
def standardStart : String := "tag:yaml.org,2002:"

/-- The handles that need no directive. -/
def standardHandles : List (String × String) := [("!", "!"), ("!!", standardStart)]

/-- The standard tags. -/
def standardTags : List (String × Tag) :=
  [("null", .scalar .null), ("bool", .scalar .bool), ("int", .scalar .int),
    ("float", .scalar .float), ("timestamp", .scalar .timestamp), ("str", .scalar .text),
    ("binary", .scalar .binary), ("merge", .scalar .merge), ("value", .scalar .defaultValue),
    ("seq", .sequence), ("map", .mapping), ("set", .set), ("omap", .pairs), ("pairs", .pairs)]

/-- What the full name of a tag says. -/
def Tag.ofName (name : String) : Tag :=
  (standardTags.findSome? fun t => if standardStart ++ t.1 == name then some t.2 else none).getD
    .unknown

/-- What stands before a node: the name of an anchor and the full name of a tag. -/
structure Properties where
  anchor : Option String := none
  tag : Option String := none

/-- The full name of a tag. -/
def tagName (handle : Option String) (suffix : String) : Read String := do
  match handle with
  | none => return suffix
  | some h =>
    match (← get).handles.lookup h with
    | some start => return start ++ suffix
    | none => throw .malformed

/-- Take an anchor if there is one. -/
def takeAnchor : Read (Option String) := do
  match ← next with
  | .anchor name =>
    advance
    return some name
  | _ => return none

/-- Take a tag if there is one. -/
def takeTagName : Read (Option String) := do
  match ← next with
  | .tag handle suffix =>
    advance
    return some (← tagName handle suffix)
  | _ => return none

/-- Take an anchor and a tag in either order. -/
def takeProperties : Read Properties := do
  match ← takeAnchor with
  | some name => return ⟨some name, ← takeTagName⟩
  | none =>
    match ← takeTagName with
    | some tag => return ⟨← takeAnchor, some tag⟩
    | none => return {}

/-- A new node, marked by an anchor that must not have marked another node before. -/
def addNode (anchor : Option String) (node : Node) : Read NodeId := do
  let s ← get
  let id := s.nodes.size
  let anchors ← match anchor with
    | none => pure s.anchors
    | some name =>
      if (s.anchors.lookup name).isSome then throw .malformed
      pure ((name, id) :: s.anchors)
  set { s with nodes := s.nodes.push node, anchors := anchors }
  return id

/-- The most collections that may be nested: one call reads a node of any type, and within it
another one reads a collection. -/
def maxDepth : Nat := Value.maxDepth 2

/-- A new collection, whose parts are read when it has its place. -/
def addCollection (anchor : Option String) (tag : Tag) (content : Read Content) : Read NodeId := do
  let id ← addNode anchor ⟨tag, .sequence []⟩
  let depth := (← get).depth
  if maxDepth ≤ depth then throw .tooDeep
  modify ({ · with depth := depth + 1 })
  let node : Node := ⟨tag, ← content⟩
  modify fun s => { s with depth := depth, nodes := s.nodes.setIfInBounds id node }
  return id

/-- The tag of a collection that is not tagged otherwise. -/
def collectionTag (default : Tag) : Option String → Tag
  | none => default
  | some "!" => default
  | some name => .ofName name

/-- The type of a scalar: that of its tag, or that of its form if it is plain or its tag only
asks for that. -/
def scalarTag (tag : Option String) (text : List Nat) (plain : Bool) : Tag :=
  match tag with
  | none => .scalar (if plain then .ofForm text else .text)
  | some "!" => .scalar (.ofForm text)
  | some name => .ofName name

/-- A scalar that is not there. -/
def addEmpty : Read NodeId := addNode none ⟨.scalar .null, .scalar []⟩

/-! ## The grammar -/

/-- Whether a node that is not there ends at a token: one of the given ones. -/
def nextIsOneOf (ts : List Token) : Read Bool := do return ts.contains (← next)

/-- A sequence with the given items. -/
def readSequence (p : Properties) (items : Read (List NodeId)) : Read NodeId :=
  addCollection p.anchor (collectionTag .sequence p.tag) (Content.sequence <$> items)

/-- A mapping with the given entries. -/
def readMapping (p : Properties) (entries : Read (List (NodeId × NodeId))) : Read NodeId :=
  addCollection p.anchor (collectionTag .mapping p.tag) (Content.mapping <$> entries)

/-- A scalar that is not there, if it has an anchor or a tag. -/
def readEmpty (p : Properties) : Read NodeId := do
  if p.anchor.isNone && p.tag.isNone then throw .malformed
  addNode p.anchor ⟨scalarTag p.tag [] true, .scalar []⟩

/-- The node that an anchor marked. -/
def readAlias (name : String) : Read NodeId := do
  advance
  match (← get).anchors.lookup name with
  | some id => return id
  | none => throw .malformed

mutual

/-- A node. `block` allows block collections, `indentless` also a sequence that is not
indented. -/
def readNode (block indentless : Bool) : Nat → Read NodeId
  | 0 => throw .malformed
  | fuel + 1 => do
    if let .alias name ← next then return ← readAlias name
    let p ← takeProperties
    match ← next with
    | .blockEntry =>
      if indentless then readSequence p (readIndentlessItems fuel) else readEmpty p
    | .scalar text plain =>
      advance
      addNode p.anchor ⟨scalarTag p.tag text plain, .scalar text⟩
    | .flowSequenceStart =>
      advance
      readSequence p (readFlowItems true fuel)
    | .flowMappingStart =>
      advance
      readMapping p (readFlowEntries true fuel)
    | .blockSequenceStart =>
      if block then
        advance
        readSequence p (readBlockItems fuel)
      else readEmpty p
    | .blockMappingStart =>
      if block then
        advance
        readMapping p (readBlockEntries fuel)
      else readEmpty p
    | _ => readEmpty p

/-- A node, or none before one of the given tokens. -/
def readNodeUnless (ends : List Token) (block indentless : Bool) : Nat → Read NodeId
  | 0 => throw .malformed
  | fuel + 1 => do
    if ← nextIsOneOf ends then return ← addEmpty
    readNode block indentless fuel

/-- The items of a block sequence. -/
def readBlockItems : Nat → Read (List NodeId)
  | 0 => throw .malformed
  | fuel + 1 => do
    if ← accept .blockEntry then
      let item ← readNodeUnless [.blockEntry, .blockEnd] true false fuel
      return item :: (← readBlockItems fuel)
    else
      expect .blockEnd
      return []

/-- The items of a sequence that is not indented. -/
def readIndentlessItems : Nat → Read (List NodeId)
  | 0 => throw .malformed
  | fuel + 1 => do
    if ← accept .blockEntry then
      let item ← readNodeUnless [.blockEntry, .key, .value, .blockEnd] true false fuel
      return item :: (← readIndentlessItems fuel)
    else return []

/-- The entries of a block mapping. -/
def readBlockEntries : Nat → Read (List (NodeId × NodeId))
  | 0 => throw .malformed
  | fuel + 1 => do
    let ends : List Token := [.key, .value, .blockEnd]
    if ← accept .key then
      let key ← readNodeUnless ends true true fuel
      let value ← if ← accept .value then readNodeUnless ends true true fuel else addEmpty
      return (key, value) :: (← readBlockEntries fuel)
    else
      expect .blockEnd
      return []

/-- The items of a flow sequence; an item with a key is a mapping of one entry. -/
def readFlowItems (first : Bool) : Nat → Read (List NodeId)
  | 0 => throw .malformed
  | fuel + 1 => do
    if ← accept .flowSequenceEnd then return []
    if !first then expect .flowEntry
    if ← accept .flowSequenceEnd then return []
    let item ←
      if ← accept .key then
        readMapping {} do
          let ends : List Token := [.flowEntry, .flowSequenceEnd]
          let key ← readNodeUnless (.value :: ends) false false fuel
          let value ← if ← accept .value then readNodeUnless ends false false fuel else addEmpty
          return [(key, value)]
      else readNode false false fuel
    return item :: (← readFlowItems false fuel)

/-- The entries of a flow mapping; an entry without a key mark has no value. -/
def readFlowEntries (first : Bool) : Nat → Read (List (NodeId × NodeId))
  | 0 => throw .malformed
  | fuel + 1 => do
    if ← accept .flowMappingEnd then return []
    if !first then expect .flowEntry
    if ← accept .flowMappingEnd then return []
    let ends : List Token := [.flowEntry, .flowMappingEnd]
    let entry ←
      if ← accept .key then do
        let key ← readNodeUnless (.value :: ends) false false fuel
        let value ← if ← accept .value then readNodeUnless ends false false fuel else addEmpty
        pure (key, value)
      else do
        let key ← readNode false false fuel
        pure (key, ← addEmpty)
    return entry :: (← readFlowEntries false fuel)

end

/-! ## Documents -/

/-- The directives before a document. -/
def readDirectives : Nat → Bool → Read Unit
  | 0, _ => pure ()
  | fuel + 1, versionSeen => do
    match ← next with
    | .yamlDirective major =>
      if versionSeen || major != 1 then throw .malformed
      advance
      readDirectives fuel true
    | .tagDirective handle start =>
      if ((← get).handles.lookup handle).isSome then throw .malformed
      advance
      modify fun s => { s with handles := (handle, start) :: s.handles }
      readDirectives fuel versionSeen
    | .otherDirective =>
      advance
      readDirectives fuel versionSeen
    | _ => pure ()

/-- Step over marks of the end of a document. -/
def skipDocumentEnds : Nat → Read Unit
  | 0 => pure ()
  | fuel + 1 => do
    if ← accept .documentEnd then skipDocumentEnds fuel

/-- The content behind the mark of a document's start. -/
def readContent (fuel : Nat) : Read NodeId := do
  match ← next with
  | .yamlDirective _ | .tagDirective _ _ | .otherDirective | .documentStart | .documentEnd
  | .streamEnd => addEmpty
  | _ => readNode true false fuel

/-- The root of a document, unless the stream ends here. -/
def readDocument (fuel : Nat) : Read (Option NodeId) := do
  let explicit : Read (Option NodeId) := do
    skipDocumentEnds fuel
    if (← next) == .streamEnd then return none
    readDirectives fuel false
    expect .documentStart
    modify fun s => { s with handles := s.handles ++ standardHandles }
    return some (← readContent fuel)
  match ← next with
  | .yamlDirective _ | .tagDirective _ _ | .otherDirective | .documentStart | .streamEnd =>
    explicit
  | _ => do
    modify fun s => { s with handles := standardHandles }
    return some (← readNode true false fuel)

/-- The root of the only document of a stream, if it has one. -/
def readStream (fuel : Nat) : Read (Option NodeId) := do
  let document ← readDocument fuel
  if document.isSome then
    skipDocumentEnds fuel
    if (← next) != .streamEnd then throw .malformed
  return document

/-- The only document of a stream of tokens, if there is one. -/
def Document.ofTokens (stream : TokenStream) : Except YamlError (Option Document) := do
  let (root, s) ← (readStream (4 * stream.tokens.length + 8)).run { stream := stream }
  return root.map (⟨s.nodes, ·⟩)

end StockRegister.Yaml
