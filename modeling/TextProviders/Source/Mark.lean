import TextProviders.Source.Lexeme
import TextProviders.Source.Member

/-!
Marked types in the masked view of a source.

A marked type is the marker annotation, with or without an argument list, then modifiers and other
annotations, then the head of a type.  An argument list ends at the first closing parenthesis.
Modifiers need no space between them.  The name of an annotation is taken as long as it can be, but
shorter where the longer one leads to no type head, so that a keyword may follow it directly.
-/

namespace TextProviders.Source

/-- The name of the marker annotation. -/
def marker : List Char := "TextResourceAware".toList

/-- The modifiers of a type. -/
def modifierWords : List (List Char) :=
  ["public", "protected", "private", "abstract", "final", "static", "strictfp", "sealed",
    "non-sealed"].map String.toList

/-- The words that start the head of a type. -/
def kindWords : List (List Char) :=
  ["class", "interface", "enum", "record"].map String.toList

/-- A character of a dotted name. -/
def isNameChar (c : Char) : Bool :=
  Text.isWord c || c == '.'

/-- What follows the white space that cells start with. -/
def skipBlanks (s : List Cell) : List Cell :=
  s.dropWhile fun c => Text.isBlank c.masked

/-- What follows a word that cells start with. -/
def after? : List Char → List Cell → Option (List Cell)
  | [], s => some s
  | _ :: _, [] => none
  | c :: word, cell :: s => if cell.masked = c then after? word s else none

/-- What follows the first of several words that cells start with. -/
def afterAny? (words : List (List Char)) (s : List Cell) : Option (List Cell) :=
  words.findSome? fun word => after? word s

/-- The insides of the argument list that cells start with, and what follows it. -/
def arguments? (s : List Cell) : Option (List Cell × List Cell) :=
  match skipBlanks s with
  | [] => none
  | c :: rest =>
    if c.masked = '(' then
      match rest.dropWhile fun c => c.masked ≠ ')' with
      | [] => none
      | _ :: after => some (rest.takeWhile fun c => c.masked ≠ ')', after)
    else none

/-- What may follow an annotation whose name cells start with: first after the whole name and its
argument list, then after ever shorter beginnings of the name. -/
def afterAnnotation (s : List Cell) : List (List Cell) :=
  let name := s.takeWhile fun c => isNameChar c.masked
  if name.isEmpty then []
  else
    let rest := s.drop name.length
    ((arguments? rest).map (·.2)).getD rest ::
      (List.range' 1 (name.length - 1)).reverse.map s.drop

/-- What may follow one modifier or annotation that cells start with, in order of preference. -/
def afterModifier (s : List Cell) : List (List Cell) :=
  match skipBlanks s with
  | [] => []
  | c :: rest =>
    if c.masked = '@' then afterAnnotation rest
    else (afterAny? modifierWords (c :: rest)).toList

/-- The head of a type: where its modifiers end, its name, and what follows the name. -/
structure TypeHead where
  head : List Cell
  name : List Char
  rest : List Cell
deriving DecidableEq, Repr

/-- The type head that cells start with. -/
def typeHeadAt? (s : List Cell) : Option TypeHead :=
  match afterAny? kindWords (skipBlanks s) with
  | none => none
  | some tail =>
    let named := skipBlanks tail
    let name := named.takeWhile fun c => Text.isWord c.masked
    if named.length = tail.length || name.isEmpty then none
    else some ⟨s, name.map Cell.masked, named.drop name.length⟩

/-- The first type head that modifiers lead to, at most as many as the count allows; there are
never more modifiers than characters. -/
def typeHeadWithin : Nat → List Cell → Option TypeHead
  | 0, s => typeHeadAt? s
  | count + 1, s => ((afterModifier s).findSome? (typeHeadWithin count)).or (typeHeadAt? s)

/-- What follows the marker whose dotted name cells start with.  A qualified name has at least one
character before its last dot. -/
def afterMarker? (s : List Cell) : Option (List Cell) :=
  let name := (s.takeWhile fun c => isNameChar c.masked).map Cell.masked
  if name = marker || (('.' :: marker).isSuffixOf name && marker.length + 1 < name.length) then
    some (s.drop name.length)
  else none

/-- A marked type. -/
structure Mark where
  /-- What stands before the marker, nearest first. -/
  before : List Cell
  /-- The insides of the marker's argument list; empty without one. -/
  arguments : List Cell
  /-- The modifiers and annotations between the marker and the type head. -/
  modifiers : List Cell
  name : List Char
deriving DecidableEq, Repr

/-- The marked type that cells start with, and how many cells it covers. -/
def markAt? (before s : List Cell) : Option (Mark × Nat) :=
  match s with
  | [] => none
  | c :: rest =>
    if c.masked = '@' then
      match afterMarker? rest with
      | none => none
      | some tail =>
        let (arguments, tail) := (arguments? tail).getD ([], tail)
        (typeHeadWithin tail.length tail).map fun head =>
          (⟨before, arguments, tail.take (tail.length - head.head.length), head.name⟩,
            s.length - head.rest.length)
    else none

/-- The marked types of a source from some place on, with the number of cells that still belong to
the one just found. -/
def marksFrom (before : List Cell) : Nat → List Cell → List Mark
  | _, [] => []
  | skip + 1, c :: rest => marksFrom (c :: before) skip rest
  | 0, c :: rest =>
    match markAt? before (c :: rest) with
    | some (m, covered) => m :: marksFrom (c :: before) (covered - 1) rest
    | none => marksFrom (c :: before) 0 rest

/-- The marked types of a source. -/
def marks (s : List Cell) : List Mark :=
  marksFrom [] 0 s

/-! ## Where a mark stands, and what stands around it -/

/-- Whether a mark stands inside the braces of something. -/
def Mark.isNested (m : Mark) : Bool :=
  (m.before.countP fun c => c.masked = '}') < m.before.countP fun c => c.masked = '{'

/-- Whether cells hold nothing but modifiers, annotations and white space. -/
def isModifiersWithin : Nat → List Cell → Bool
  | 0, s => (skipBlanks s).isEmpty
  | count + 1, s => (skipBlanks s).isEmpty || (afterModifier s).any (isModifiersWithin count)

/-- Whether cells hold nothing but modifiers, annotations and white space. -/
def isModifiers (s : List Cell) : Bool :=
  isModifiersWithin s.length s

/-- The longest end of some cells that holds nothing but modifiers. -/
def trailingModifiers : List Cell → List Cell
  | [] => []
  | c :: rest => if isModifiers (c :: rest) then c :: rest else trailingModifiers rest

/-- The modifiers before the marker, from the last semicolon or brace on. -/
def Mark.leading (m : Mark) : List Cell :=
  trailingModifiers (m.before.takeWhile fun c => c.masked ∉ [';', '{', '}']).reverse

/-- The words of a text that stand free; the flag says whether a word that starts here does.  A
word after an at sign or a dot does not. -/
def freeWords : Bool → List Char → List (List Char)
  | _, [] => []
  | free, c :: rest =>
    if Text.isWord c then
      if free then (c :: rest.takeWhile Text.isWord) :: freeWords false rest
      else freeWords false rest
    else freeWords (c ≠ '@' && c ≠ '.') rest

/-- The visibility that modifiers state; the widest one counts. -/
def visibilityOf (modifiers : List Char) : Visibility :=
  let words := freeWords true modifiers
  let states (level : Visibility) : Bool := words.contains level.word.toList
  if states .everyone then .everyone
  else if states .subtypes then .subtypes
  else if states .enclosing then .enclosing
  else .package

/-- The visibility of a marked type: what its modifiers before and after the marker state. -/
def Mark.visibility (m : Mark) : Visibility :=
  visibilityOf (m.leading.map Cell.masked ++ ' ' :: m.modifiers.map Cell.masked)

end TextProviders.Source
