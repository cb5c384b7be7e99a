import TextProviders.Document.Tag
import TextProviders.Document.Token

/-!
Nodes: the structure of a document, before its scalars are given values.

The nodes of a document are numbered, and a collection holds the numbers of what stands in it.  A
node can be anchored under a name and referred to later: a reference stands for the number of the
node, also inside the collection that the node is.  A collection is numbered before what stands in
it.  Each name is given once.
-/

namespace TextProviders.Document

/-- The number of a node. -/
abbrev NodeId := Nat

/-- A node. -/
inductive Node where
  | scalar (tag : Tag) (content : List Nat)
  | sequence (tag : Tag) (items : List NodeId)
  | mapping (tag : Tag) (entries : List (NodeId × NodeId))
deriving DecidableEq, Repr

/-- The type of a node. -/
def Node.tag : Node → Tag
  | scalar tag _ => tag
  | sequence tag _ => tag
  | mapping tag _ => tag

/-- The node with another type. -/
def Node.retag (tag : Tag) : Node → Node
  | scalar _ content => scalar tag content
  | sequence _ items => sequence tag items
  | mapping _ entries => mapping tag entries

/-- The nodes of a document, by number. -/
abbrev Nodes := Array Node

/-- How far the nodes of a document are read. -/
structure Reading where
  tokens : List Token
  /-- The fault after the last token, if there is one. -/
  fault : Option Fault
  handles : List (List Char × List Char) := []
  anchors : List (List Char × NodeId) := []
  nodes : Nodes := #[]

/-- A step of reading nodes. -/
abbrev Read := StateT Reading (Except Fault)

namespace Node

/-- Fails because a token cannot stand where it stands. -/
def misplaced {α : Type} : Read α :=
  throw .malformed

/-- The next token; none at the end. -/
def peek : Read (Option Token) := do
  let r ← get
  match r.tokens, r.fault with
  | t :: _, _ => return some t
  | [], some f => throw f
  | [], none => return none

/-- Goes on to the token after the next one. -/
def advance : Read Unit :=
  modify fun r => { r with tokens := r.tokens.drop 1 }

/-- Goes on if the next token is the given one, and tells whether it is. -/
def accept (t : Token) : Read Bool := do
  if (← peek) = some t then
    advance
    return true
  else return false

/-- Goes on behind a token that has to be the next one. -/
def expect (t : Token) : Read Unit := do
  if !(← accept t) then misplaced

/-- Whether the next token is one of some. -/
def isOneOf (ts : List Token) : Read Bool := do
  match ← peek with
  | some t => return ts.contains t
  | none => return false

/-! ## Properties -/

/-- The name behind the tag that is written. -/
def tagName (t : WrittenTag) : Read (List Char) := do
  match t.handle with
  | none => return t.suffix
  | some handle =>
    match (← get).handles.lookup handle with
    | none => misplaced
    | some start => return start ++ t.suffix

/-- The anchor that stands next, if one does. -/
def anchor? : Read (Option (List Char)) := do
  match ← peek with
  | some (.anchor name) =>
    advance
    return some name
  | _ => return none

/-- The tag that stands next, if one does. -/
def tag? : Read (Option WrittenTag) := do
  match ← peek with
  | some (.tag t) =>
    advance
    return some t
  | _ => return none

/-- What stands before a node: its name and its tag. -/
structure Properties where
  anchor : Option (List Char) := none
  tag : Option (List Char) := none
deriving DecidableEq, Repr

/-- The anchor and the tag before a node, in either order. -/
def properties : Read Properties := do
  let early ← anchor?
  let tag ← tag?
  let late ← if early.isNone && tag.isSome then anchor? else pure none
  let name ← tag.mapM tagName
  return ⟨early.or late, name⟩

/-- The tag that leaves the type to the form of the scalar. -/
def openTag : List Char := ['!']

/-- The type of a scalar. -/
def scalarTag (tag : Option (List Char)) (plain : Bool) (content : List Nat) : Tag :=
  match tag with
  | none => if plain then Tag.ofPlain (Text.charsOf content) else .text
  | some name =>
    if name = openTag then Tag.ofPlain (Text.charsOf content) else Tag.ofName name

/-- The type of a collection. -/
def collectionTag (tag : Option (List Char)) (standard : Tag) : Tag :=
  match tag with
  | none => standard
  | some name => if name = openTag then standard else Tag.ofName name

/-! ## New nodes -/

/-- Adds a node, under its name if it has one. -/
def add (anchor : Option (List Char)) (n : Node) : Read NodeId :=
  modifyGet fun r =>
    let id := r.nodes.size
    (id,
      { r with
        nodes := r.nodes.push n
        anchors := match anchor with
          | some name => (name, id) :: r.anchors
          | none => r.anchors })

/-- Adds a scalar that is not there. -/
def addAbsent : Read NodeId :=
  add none (.scalar .null [])

/-- Adds a scalar. -/
def addScalar (p : Properties) (plain : Bool) (content : List Nat) : Read NodeId :=
  add p.anchor (.scalar (scalarTag p.tag plain content) content)

/-- Adds a sequence, and then what stands in it. -/
def addSequence (p : Properties) (items : Read (List NodeId)) : Read NodeId := do
  let tag := collectionTag p.tag .sequence
  let id ← add p.anchor (.sequence tag [])
  let items ← items
  modify fun r => { r with nodes := r.nodes.setIfInBounds id (.sequence tag items) }
  return id

/-- Adds a mapping, and then what stands in it. -/
def addMapping (p : Properties) (entries : Read (List (NodeId × NodeId))) : Read NodeId := do
  let tag := collectionTag p.tag .mapping
  let id ← add p.anchor (.mapping tag [])
  let entries ← entries
  modify fun r => { r with nodes := r.nodes.setIfInBounds id (.mapping tag entries) }
  return id

/-- The node that a name refers to. -/
def reference (name : List Char) : Read NodeId := do
  match (← get).anchors.lookup name with
  | none => misplaced
  | some id => return id

/-! ## Reading nodes

All functions count down the calls that are left; every second one at most goes without a token, so
a small multiple of the number of tokens is enough. -/

mutual

/-- A node.  The flags say whether it may be a collection of a block, and whether a sequence may
stand without indentation. -/
def read (block indentless : Bool) : Nat → Read NodeId
  | 0 => misplaced
  | count + 1 => do
    match ← peek with
    | some (.reference name) =>
      advance
      reference name
    | _ =>
      let p ← properties
      let next ← peek
      let known := (← get).anchors
      if (p.anchor.bind fun name => known.lookup name).isSome then misplaced
      else readContent block indentless p next count

/-- The content of a node after its properties, which starts with a token. -/
def readContent (block indentless : Bool) (p : Properties) (next : Option Token) :
    Nat → Read NodeId
  | 0 => misplaced
  | count + 1 => do
    match next with
    | some (.scalar plain content) =>
      advance
      addScalar p plain content
    | some .flowSequenceStart =>
      advance
      addSequence p (readFlowItems true count)
    | some .flowMappingStart =>
      advance
      addMapping p (readFlowEntries true count)
    | next =>
      if next = some .blockEntry && indentless then addSequence p (readLooseItems count)
      else if next = some .sequenceStart && block then
        advance
        addSequence p (readItems count)
      else if next = some .mappingStart && block then
        advance
        addMapping p (readEntries count)
      else if p.anchor.isSome || p.tag.isSome then addScalar p true []
      else misplaced

/-- The items of a sequence in a block, up to its end. -/
def readItems : Nat → Read (List NodeId)
  | 0 => misplaced
  | count + 1 => do
    if ← accept .blockEntry then
      let item ← readUnless [.blockEntry, .blockEnd] true false count
      return item :: (← readItems count)
    else
      expect .blockEnd
      return []

/-- The items of a sequence without indentation. -/
def readLooseItems : Nat → Read (List NodeId)
  | 0 => misplaced
  | count + 1 => do
    if ← accept .blockEntry then
      let item ← readUnless [.blockEntry, .key, .value, .blockEnd] true false count
      return item :: (← readLooseItems count)
    else return []

/-- The entries of a mapping in a block, up to its end. -/
def readEntries : Nat → Read (List (NodeId × NodeId))
  | 0 => misplaced
  | count + 1 => do
    let closers : List Token := [.key, .value, .blockEnd]
    if ← accept .key then
      let key ← readUnless closers true true count
      let value ← if ← accept .value then readUnless closers true true count else addAbsent
      return (key, value) :: (← readEntries count)
    else
      expect .blockEnd
      return []

/-- A key in brackets and the value after it, up to a comma or a closing bracket. -/
def readFlowEntry (closing : Token) : Nat → Read (NodeId × NodeId)
  | 0 => misplaced
  | count + 1 => do
    let key ← readUnless [.value, .flowEntry, closing] false false count
    let value ←
      if ← accept .value then readUnless [.flowEntry, closing] false false count else addAbsent
    return (key, value)

/-- The items of a sequence in brackets, up to the closing one; the flag says that no item comes
before. -/
def readFlowItems (first : Bool) : Nat → Read (List NodeId)
  | 0 => misplaced
  | count + 1 => do
    if ← accept .flowSequenceEnd then return []
    else
      if !first then expect .flowEntry
      if ← accept .flowSequenceEnd then return []
      else if ← accept .key then
        let item ← addMapping {} (return [← readFlowEntry .flowSequenceEnd count])
        return item :: (← readFlowItems false count)
      else
        let item ← read false false count
        return item :: (← readFlowItems false count)

/-- The entries of a mapping in braces, up to the closing one; the flag says that no entry comes
before. -/
def readFlowEntries (first : Bool) : Nat → Read (List (NodeId × NodeId))
  | 0 => misplaced
  | count + 1 => do
    if ← accept .flowMappingEnd then return []
    else
      if !first then expect .flowEntry
      if ← accept .flowMappingEnd then return []
      else if ← accept .key then
        let entry ← readFlowEntry .flowMappingEnd count
        return entry :: (← readFlowEntries false count)
      else
        let key ← read false false count
        let value ← addAbsent
        return (key, value) :: (← readFlowEntries false count)

/-- A node, unless the next token is one of some, which stand for a scalar that is not there. -/
def readUnless (closers : List Token) (block indentless : Bool) : Nat → Read NodeId
  | 0 => misplaced
  | count + 1 => do
    if ← isOneOf closers then addAbsent else read block indentless count

end

/-! ## Documents -/

/-- The handles that need no directive. -/
def standardHandles : List (List Char × List Char) :=
  [(['!'], ['!']), (['!', '!'], Tag.standardStart)]

/-- The directives before a document; the flag says that a version was stated.  The count bounds
them. -/
def readDirectives (versioned : Bool) : Nat → Read Unit
  | 0 => misplaced
  | count + 1 => do
    match ← peek with
    | some (.directive (.version major)) =>
      if versioned || major ≠ 1 then misplaced
      else
        advance
        readDirectives true count
    | some (.directive (.tag handle start)) =>
      if ((← get).handles.lookup handle).isSome then misplaced
      else
        advance
        modify fun r => { r with handles := (handle, start) :: r.handles }
        readDirectives versioned count
    | some (.directive .other) =>
      advance
      readDirectives versioned count
    | _ => return

/-- Goes on behind the start of a document that is announced.  The handles that need no directive
are added to those that are declared, which count first. -/
def readAnnouncement (count : Nat) : Read Unit := do
  modify fun r => { r with handles := [] }
  readDirectives false count
  modify fun r => { r with handles := r.handles ++ standardHandles }
  expect .documentStart

/-- The node of a document that is announced. -/
def readAnnounced (count : Nat) : Read NodeId := do
  readAnnouncement count
  match ← peek with
  | none => addAbsent
  | some .documentStart => addAbsent
  | some .documentEnd => addAbsent
  | some (.directive _) => addAbsent
  | some _ => read true false count

/-- Goes on behind the marks of a document's end.  The count bounds them. -/
def skipEnds : Nat → Read Unit
  | 0 => misplaced
  | count + 1 => do if ← accept .documentEnd then skipEnds count else return

/-- The node of the only document; none if there is no document. -/
def readOnly (count : Nat) : Read (Option NodeId) := do
  match ← peek with
  | none => return none
  | some t =>
    let root ←
      match t with
      | .documentStart => readAnnounced count
      | .directive _ => readAnnounced count
      | _ => do
        modify fun r => { r with handles := standardHandles }
        read true false count
    skipEnds count
    match ← peek with
    | none => return some root
    | some _ =>
      readAnnouncement count
      misplaced

/-- The nodes of the document that a text is, and which of them is the whole; none if there is
nothing in the text. -/
def ofSource (source : Source) : Except Fault (Option (Nodes × NodeId)) :=
  let (ts, fault) := tokens source
  ((readOnly (4 * ts.length + 8)).run { tokens := ts, fault }).map fun (root, r) =>
    root.map fun id => (r.nodes, id)

end Node

end TextProviders.Document
