import TextProviders.Calendar
import TextProviders.Number.Numeral
import TextProviders.Number.Shortest

/-!
The values that a document can hold, and their texts.

A container is named by its number and kept apart from the value that names it, so that it can hold
itself and stand in several places.  Every value has a described text, which quotes texts, and a
plain one, which is different for texts, dates and moments only.  The text of a container inside
itself is an ellipsis.  A value that holds an integer with too many digits has no text.
-/

namespace TextProviders.Document

/-- A value of a document. -/
inductive Value where
  | null
  | flag (b : Bool)
  | whole (n : Int)
  | real (x : Double)
  /-- The real that is no number.  Every scalar that is written as one makes its own, which is told
  apart by the number of the node; those that are written by their name are one. -/
  | noNumber (origin : Option Nat)
  | text (s : String)
  /-- A text with a code that no character has, as its codes. -/
  | brokenText (codes : List Nat)
  | bytes (data : List UInt8)
  | date (d : Calendar.Date)
  | moment (m : Calendar.Moment)
  | pair (first second : Value)
  /-- The container of a number. -/
  | container (id : Nat)
deriving DecidableEq, Repr, Inhabited

/-- A container. -/
inductive Container where
  | list (items : List Value)
  /-- Keys and values in their order, no two keys the same. -/
  | mapping (entries : List (Value × Value))
  | set (members : List Value)
deriving DecidableEq, Repr, Inhabited

/-- The containers of a document, by number. -/
abbrev Containers := Array Container

namespace Container

/-- The text of a container inside itself. -/
def ellipsis : Container → String
  | list _ => "[...]"
  | mapping _ => "\x7b...\x7d"
  | set _ => "set(...)"

/-- Texts with commas between them. -/
def commas (texts : List String) : String :=
  ", ".intercalate texts

/-- The text of an entry, given the texts of values. -/
def entryText? (text? : Value → Option String) (entry : Value × Value) : Option String := do
  return (← text? entry.1) ++ ": " ++ (← text? entry.2)

/-- The text of a container, given the texts of values. -/
def text? (text? : Value → Option String) : Container → Option String
  | list items => (items.mapM text?).map fun texts => "[" ++ commas texts ++ "]"
  | mapping entries =>
    (entries.mapM (entryText? text?)).map fun texts => "\x7b" ++ commas texts ++ "\x7d"
  | set [] => some "set()"
  | set members => (members.mapM text?).map fun texts => "\x7b" ++ commas texts ++ "\x7d"

/-- Whether nothing is in a container. -/
def isEmpty : Container → Bool
  | list items => items.isEmpty
  | mapping entries => entries.isEmpty
  | set members => members.isEmpty

end Container

namespace Value

/-! ## Texts -/

/-- Whether an integer has more digits than are written. -/
def isTooLong (n : Int) : Bool :=
  Nat.pow 10 Numeral.maxDigits ≤ n.natAbs

/-- The described text of a value, given those of containers. -/
def text? (inside : Nat → Option String) : Value → Option String
  | null => some "None"
  | flag b => some (if b then "True" else "False")
  | whole n => if isTooLong n then none else some (toString n)
  | real x => some x.text
  | noNumber _ => some Double.notANumber.text
  | text s => some (Text.quoted s)
  | brokenText codes => some (Text.quotedCodes codes)
  | bytes data => some (Text.quotedBytes data)
  | date d => some d.described
  | moment m => some m.described
  | pair a b => do return "(" ++ (← text? inside a) ++ ", " ++ (← text? inside b) ++ ")"
  | container id => inside id

/-- The described text of a container inside others.  The count bounds the containers in each
other. -/
def containerText? (cs : Containers) : Nat → List Nat → Nat → Option String
  | 0, _, _ => none
  | count + 1, around, id =>
    cs[id]?.bind fun c =>
      if around.contains id then some c.ellipsis
      else c.text? (text? (containerText? cs count (id :: around)))

/-- The described text of a value. -/
def described? (cs : Containers) (v : Value) : Option String :=
  v.text? (containerText? cs (cs.size + 1) [])

/-- The plain text of a value. -/
def plain? (cs : Containers) : Value → Option String
  | text s => some s
  | date d => some d.text
  | moment m => some m.text
  | v => v.described? cs

/-! ## Mappings -/

/-- The integer that a value stands for as a key: flags and reals without a fraction are keys like
integers. -/
def asInteger? : Value → Option Int
  | flag b => some (if b then 1 else 0)
  | whole n => some n
  | real x => x.toInt?
  | _ => none

/-- Whether two values are the same key.  Containers are no keys. -/
def sameKey (a b : Value) : Bool :=
  match a.asInteger?, b.asInteger? with
  | some m, some n => m == n
  | some _, none => false
  | none, some _ => false
  | none, none =>
    match a, b with
    | null, null => true
    | real x, real y => x == y
    | noNumber i, noNumber j => i == j
    | text s, text t => s == t
    | brokenText s, brokenText t => s == t
    | bytes s, bytes t => s == t
    | date d, date e => d == e
    | moment m, moment n => m.same n
    | _, _ => false

/-- Whether a value can be a key. -/
def isKey : Value → Bool
  | container _ => false
  | _ => true

/-- Entries with one more: where the key is there already its value is replaced, and otherwise the
entry comes last. -/
def insert : List (Value × Value) → Value → Value → List (Value × Value)
  | [], key, v => [(key, v)]
  | (k, old) :: rest, key, v =>
    if sameKey k key then (k, v) :: rest else (k, old) :: insert rest key v

/-- The value at a key that is a text. -/
def lookup (entries : List (Value × Value)) (key : String) : Option Value :=
  (entries.find? fun entry => sameKey entry.1 (text key)).map (·.2)

/-- The entries of the mapping that a value is, if it is one. -/
def entries? (cs : Containers) : Value → Option (List (Value × Value))
  | container id =>
    match cs[id]? with
    | some (.mapping entries) => some entries
    | _ => none
  | _ => none

/-- The items of the list that a value is, if it is one. -/
def items? (cs : Containers) : Value → Option (List Value)
  | container id =>
    match cs[id]? with
    | some (.list items) => some items
    | _ => none
  | _ => none

/-- Whether a value counts as nothing: no value, the flag and the numbers that are zero, and what
is empty. -/
def isVoid (cs : Containers) : Value → Bool
  | null => true
  | flag b => !b
  | whole n => n == 0
  | real x => x.toInt? == some 0
  | text s => s.isEmpty
  | brokenText codes => codes.isEmpty
  | bytes data => data.isEmpty
  | container id => (cs[id]?.map Container.isEmpty).getD false
  | _ => false

end Value

end TextProviders.Document
