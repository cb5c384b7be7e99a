import TextProviders.Document.Node
import TextProviders.Document.SetOrder
import TextProviders.Text.Base64
import TextProviders.Text.Case

/-!
The value of a document.

Scalars are given values by their types, and every node has one value.  The node of a collection is
given a container at once, which is filled later: containers are filled in the order in which they
were met, so all that stands directly in the outer collections comes before anything that stands
deeper, and of several faults the one that this order meets first counts.  A mapping may take over
the entries of others; its own entries come after those and win over them.
-/

namespace TextProviders.Document

/-! ## Scalars -/

/-- The sum of parts, least first, each sixty times the weight of the one before. -/
def sixtieths (parts : List Int) : Int :=
  parts.foldr (fun part sum => part + 60 * sum) 0

/-- The sign in front of a text, and what follows it. -/
def splitSign : List Nat → Bool × List Nat
  | [] => (false, [])
  | n :: rest =>
    if n = '-'.toNat then (true, rest) else if n = '+'.toNat then (false, rest)
    else (false, n :: rest)

/-- A text without low lines. -/
def withoutLowLines (s : List Nat) : List Nat :=
  s.filter (· ≠ '_'.toNat)

/-- The integer that a scalar stands for. -/
def wholeOf (s : List Nat) : Except Fault Int :=
  let read (base : Nat) (digits : List Nat) : Except Fault Int :=
    (Numeral.readInteger base digits).mapError .numeral
  let (negative, body) := splitSign (withoutLowLines s)
  let magnitude : Except Fault Int :=
    match Text.charsOf body with
    | [] => .error .emptyNumeral
    | ['0'] => .ok 0
    | '0' :: 'b' :: _ => read 2 (body.drop 2)
    | '0' :: 'x' :: _ => read 16 (body.drop 2)
    | '0' :: _ => read 8 body
    | chars =>
      if chars.contains ':' then
        ((Text.splitOn ':'.toNat body).mapM (read 10)).map fun parts => sixtieths parts.reverse
      else read 10 body
  magnitude.map fun n => if negative then -n else n

/-- The sum of parts, least first, each sixty times the weight of the one before; the number is the
weight of the first. -/
def realSixtieths : Nat → Double → List Double → Except Fault Double
  | _, sum, [] => .ok sum
  | base, sum, part :: rest =>
    match Double.ofNat base with
    | .infinite _ => .error .hugeBase
    | weight => realSixtieths (base * 60) (sum.add (part.mul weight)) rest

/-- The real that a scalar stands for; the number is that of its node. -/
def realOf (id : NodeId) (s : List Nat) : Except Fault Value :=
  let read (digits : List Nat) : Except Fault Double :=
    (Numeral.readReal digits).mapError .numeral
  let written := Text.lowerCase (withoutLowLines s)
  if written.isEmpty then .error .emptyNumeral
  else
    let (negative, body) := splitSign written
    if body = Text.codes ".inf".toList then .ok (.real (.infinite negative))
    else if body = Text.codes ".nan".toList then .ok (.noNumber none)
    else do
      let x ←
        if body.contains ':'.toNat then do
          realSixtieths 1 .zero (← (Text.splitOn ':'.toNat body).mapM read).reverse
        else read body
      match if negative then x.neg else x with
      | .notANumber => return .noNumber (some id)
      | x => return .real x

/-- The flag that a scalar stands for. -/
def flagOf (s : List Nat) : Except Fault Bool :=
  let word := Text.lowerCase s
  let isOneOf (words : List String) : Bool := words.any fun w => Text.codes w.toList = word
  if isOneOf ["yes", "true", "on"] then .ok true
  else if isOneOf ["no", "false", "off"] then .ok false
  else .error (.noFlag word)

/-- The date or moment that a scalar stands for. -/
def stampOf (s : List Nat) : Except Fault Value :=
  match Calendar.read? (Tag.withoutLineFeed (Text.charsOf s)) with
  | none => .error .noStamp
  | some (.error f) => .error (.calendar f)
  | some (.ok (.date d)) => .ok (.date d)
  | some (.ok (.moment m)) => .ok (.moment m)

/-- The bytes that a scalar stands for. -/
def bytesOf (s : List Nat) : Except Fault Value :=
  if s.any (0x7f < ·) then .error .malformed
  else
    match Text.Base64.decode (Text.charsOf s) with
    | none => .error .malformed
    | some data => .ok (.bytes data)

/-- The text that codes make. -/
def textOf (content : List Nat) : Value :=
  if content.all Nat.isValidChar then .text (String.ofList (Text.charsOf content))
  else .brokenText content

/-- The value of a scalar by its type; the number is that of its node. -/
def scalarValue (id : NodeId) (tag : Tag) (content : List Nat) : Except Fault Value :=
  match tag with
  | .null => .ok .null
  | .flag => (flagOf content).map .flag
  | .whole => (wholeOf content).map .whole
  | .real => realOf id content
  | .binary => bytesOf content
  | .stamp => stampOf content
  | .text => .ok (textOf content)
  | _ => .error .malformed

namespace Nodes

/-- The content of the scalar that a node stands for: its own, or that of the first value marked to
stand for its mapping.  The count bounds the mappings in each other. -/
def content (nodes : Nodes) : Nat → NodeId → Except Fault (List Nat)
  | 0, _ => .error .endless
  | count + 1, id =>
    match nodes[id]? with
    | some (.scalar _ content) => .ok content
    | some (.mapping _ entries) =>
      match entries.find? fun e => nodes[e.1]?.map Node.tag = some .value with
      | some e => content nodes count e.2
      | none => .error .malformed
    | _ => .error .malformed

/-- The value of a node that is not one of a collection.  A node of a type that no value has is refused
before its content is looked for. -/
def scalarAt (nodes : Nodes) (id : NodeId) : Except Fault Value := do
  match nodes[id]? with
  | none => .error .malformed
  | some n =>
    if n.tag.isScalar then
      let content ← content nodes (nodes.size + 1) id
      match n.tag, n with
      | .stamp, .mapping _ _ => .error .stampOfMapping
      | tag, _ => scalarValue id tag content
    else .error .malformed

/-! ## Mappings that take over the entries of others -/

/-- The entries of a mapping. -/
def entries (nodes : Nodes) (id : NodeId) : List (NodeId × NodeId) :=
  match nodes[id]? with
  | some (.mapping _ entries) => entries
  | _ => []

/-- Sets the entries of a mapping. -/
def setEntries (nodes : Nodes) (id : NodeId) (entries : List (NodeId × NodeId)) : Nodes :=
  nodes.modify id fun
    | .mapping tag _ => .mapping tag entries
    | n => n

/-- Whether an entry's value is one whose entries are taken over. -/
def isMerge (nodes : Nodes) (entry : NodeId × NodeId) : Bool :=
  nodes[entry.1]?.map Node.tag = some .merge

/-- How many entries have values whose entries are taken over. -/
def mergeCount (nodes : Nodes) : Nat :=
  (Array.range nodes.size).foldl
    (fun sum id => sum + ((entries nodes id).filter (isMerge nodes)).length) 0

/-- The mappings whose entries are taken over from a node: itself, or those that stand in it. -/
def givers (nodes : Nodes) (id : NodeId) : Except Fault (List NodeId) :=
  let isMapping (id : NodeId) : Bool :=
    match nodes[id]? with
    | some (.mapping _ _) => true
    | _ => false
  let ids :=
    match nodes[id]? with
    | some (.sequence _ items) => items
    | _ => [id]
  if ids.all isMapping then .ok ids else .error .malformed

/-- Reads the key of an entry as such: the mark of a value that stands for its mapping is a text
there. -/
def asKey (nodes : Nodes) (entry : NodeId × NodeId) : Nodes :=
  match nodes[entry.1]? with
  | some n => if n.tag = .value then nodes.setIfInBounds entry.1 (n.retag .text) else nodes
  | none => nodes

/-- Lets a mapping take over the entries of others, which come first; those of the mapping that
stands last come before the others of one sequence.  The count bounds the entries that are replaced
by those of others. -/
def takeOver : Nat → NodeId → StateT Nodes (Except Fault) Unit
  | 0, _ => throw .malformed
  | count + 1, id => do
    let nodes ← get
    let all := nodes.entries id
    match all.find? nodes.isMerge with
    | none => set (all.foldl asKey nodes)
    | some entry =>
      set (nodes.setEntries id (all.erase entry))
      let taken ← (← nodes.givers entry.2).mapM fun giver => do
        takeOver count giver
        return (← get).entries giver
      takeOver count id
      modify fun nodes => nodes.setEntries id (taken.reverse.flatten ++ nodes.entries id)

end Nodes

/-! ## Loading -/

/-- How far the values of a document are loaded. -/
structure Loading where
  nodes : Nodes
  /-- A bound for the entries that are replaced by those of others. -/
  merges : Nat
  /-- The values of the nodes that have one. -/
  values : Array (Option Value)
  /-- The containers, of which those that are not filled are empty. -/
  containers : Containers := #[]
  /-- The nodes that the containers are given to. -/
  owners : Array NodeId := #[]

/-- A step of loading. -/
abbrev Load := StateT Loading (Except Fault)

/-- The container that a node of a type is given, if it is a type of collections. -/
def Container.ofTag? : Tag → Option Container
  | .sequence | .omap | .pairs => some (.list [])
  | .mapping => some (.mapping [])
  | .set => some (.set [])
  | _ => none

namespace Load

/-- Gives a node an empty container. -/
def give (id : NodeId) (c : Container) : Load Value :=
  modifyGet fun l =>
    (.container l.containers.size,
      { l with containers := l.containers.push c, owners := l.owners.push id })

/-- The value of a node. -/
def value (id : NodeId) : Load Value := do
  let l ← get
  match l.values[id]?.join with
  | some v => return v
  | none =>
    let v ←
      match (l.nodes[id]?.map Node.tag).bind Container.ofTag? with
      | some c => give id c
      | none => l.nodes.scalarAt id
    modify fun l => { l with values := l.values.setIfInBounds id (some v) }
    return v

/-- The pair that a mapping with one entry stands for. -/
def pair (id : NodeId) : Load Value := do
  match (← get).nodes[id]? with
  | some (.mapping _ [(k, v)]) => return .pair (← value k) (← value v)
  | _ => throw .malformed

/-- The entries of a mapping. -/
def entries (id : NodeId) : Load (List (Value × Value)) := do
  let l ← get
  let ((), nodes) ← (Nodes.takeOver (l.merges + 1) id).run l.nodes
  set { l with nodes }
  (nodes.entries id).foldlM (fun filled (k, v) => do
    let key ← value k
    if !key.isKey then throw .malformed
    return Value.insert filled key (← value v)) []

/-- What a container holds that is given to a node. -/
def contents (id : NodeId) : Load Container := do
  match (← get).nodes[id]? with
  | some (.sequence .sequence items) => return .list (← items.mapM value)
  | some (.sequence .omap items) => return .list (← items.mapM pair)
  | some (.sequence .pairs items) => return .list (← items.mapM pair)
  | some (.mapping .mapping _) => return .mapping (← entries id)
  | some (.mapping .set _) => return .set (SetOrder.arrange ((← entries id).map (·.1)))
  | _ => throw .malformed

/-- Fills the containers from a number on.  The count bounds them. -/
def fillFrom : Nat → Nat → Load Unit
  | 0, _ => return
  | count + 1, k => do
    match (← get).owners[k]? with
    | none => return
    | some id =>
      let c ← contents id
      modify fun l => { l with containers := l.containers.setIfInBounds k c }
      fillFrom count (k + 1)

end Load

/-- The value of the document that a text is, with the containers of the document; nothing if there
is no document. -/
def load (source : Source) : Except Fault (Containers × Value) := do
  match ← Node.ofSource source with
  | none => return (#[], .null)
  | some (nodes, root) =>
    let start : Loading :=
      { nodes, merges := nodes.mergeCount, values := Array.replicate nodes.size none }
    let step : Load Value := do
      let v ← Load.value root
      Load.fillFrom (nodes.size + 1) 0
      return v
    let (v, l) ← step.run start
    return (l.containers, v)

end TextProviders.Document
