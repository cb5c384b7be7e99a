import TextProviders.Document.Source
import TextProviders.Text.Digit

/-!
A place in the text of a document: what is left of the text, and the line and column reached.

Lines are ended by the line feed, by the next-line control and by the two separators of lines and
paragraphs.  A byte order mark takes no column.  Where the text is cut off by a fault, that fault is
met as soon as a character behind the cut is looked at.
-/

namespace TextProviders.Document

/-- Whether a character ends a line. -/
def isBreak (c : Char) : Bool :=
  c = '\n' || c = '\r' || c.toNat = 0x85 || c.toNat = 0x2028 || c.toNat = 0x2029

/-- Whether a character is a space or a tab. -/
def isSpace (c : Char) : Bool :=
  c = ' ' || c = '\t'

/-- Whether the end of the text or of a line is reached. -/
def endsLine : Option Char → Bool
  | none => true
  | some c => isBreak c

/-- Whether the end of the text or of a line, or a space, is reached. -/
def endsWord (c : Option Char) : Bool :=
  endsLine c || c = some ' '

/-- Whether the end of the text or of a line, a space or a tab is reached. -/
def isGap (c : Option Char) : Bool :=
  endsWord c || c = some '\t'

/-- Whether a character may stand in the name of an anchor, a directive or a tag handle. -/
def isNameChar (c : Char) : Bool :=
  c.isAlphanum || c = '-' || c = '_'

/-- A place in a text. -/
structure Cursor where
  /-- What is left of the text. -/
  rest : List Char
  /-- The fault that cuts the text off there, if one does. -/
  stop : Option Fault := none
  /-- The length of the whole text. -/
  size : Nat
  /-- How many characters stand before. -/
  index : Nat := 0
  line : Nat := 0
  column : Nat := 0
deriving DecidableEq, Repr

namespace Cursor

/-- The place at the start of a text. -/
def ofSource (s : Source) : Cursor :=
  { rest := s.text, stop := s.stop, size := s.text.length }

/-- A count of steps that is enough where every step but the last one goes on. -/
def bound (c : Cursor) : Nat :=
  c.size + 1

/-! ## Looking ahead -/

/-- The fault that is met where so many characters are looked at. -/
def cut? (c : Cursor) (n : Nat) : Option Fault :=
  if (c.rest.take n).length < n then c.stop else none

/-- Succeeds if so many characters can be looked at, or all up to the end of the text. -/
def ensure (c : Cursor) (n : Nat) : Except Fault Unit :=
  match c.cut? n with
  | some f => .error f
  | none => .ok ()

/-- Fails with a fault that shows in so many characters. -/
def fail {α : Type} (c : Cursor) (n : Nat) (f : Fault) : Except Fault α :=
  .error ((c.cut? n).getD f)

/-- Fails because the character here cannot stand here. -/
def refuse {α : Type} (c : Cursor) : Except Fault α :=
  c.fail 1 .malformed

/-- The character at the place. -/
def peek (c : Cursor) : Option Char :=
  c.rest.head?

/-- The character some way after the place. -/
def peekAt (c : Cursor) (n : Nat) : Option Char :=
  c.rest[n]?

/-- The place after one character. -/
def next (c : Cursor) : Cursor :=
  match c.rest with
  | [] => c
  | ch :: rest =>
    let after := { c with rest, index := c.index + 1 }
    if isBreak ch then { after with line := c.line + 1, column := 0 }
    else if ch.toNat = 0xfeff then after
    else { after with column := c.column + 1 }

/-- The place after some characters. -/
def skip (c : Cursor) : Nat → Cursor
  | 0 => c
  | n + 1 => c.next.skip n

/-- The characters of a class that stand here, and the place after them. -/
def span (p : Char → Bool) (c : Cursor) : List Char × Cursor :=
  let taken := c.rest.takeWhile p
  (taken, c.skip taken.length)

/-- The place after the spaces that stand here. -/
def afterSpaces (c : Cursor) : Cursor :=
  (c.span (· = ' ')).2

/-- The place at the end of the line. -/
def lineEnd (c : Cursor) : Cursor :=
  (c.span fun ch => !isBreak ch).2

/-- The place after a comment, if one stands here. -/
def afterComment (c : Cursor) : Cursor :=
  if c.peek = some '#' then c.lineEnd else c

/-- The line break that stands here as it is read, and the place after it; nothing is read where
none stands.  Only the separators stand for themselves. -/
def lineBreak (c : Cursor) : List Char × Cursor :=
  match c.peek with
  | none => ([], c)
  | some ch =>
    if isBreak ch then ([if ch.toNat = 0x2028 || ch.toNat = 0x2029 then ch else '\n'], c.next)
    else ([], c)

/-- Whether a document marker stands here: three of a character, and a gap after them. -/
def isMarker (mark : Char) (c : Cursor) : Bool :=
  [mark, mark, mark].isPrefixOf c.rest && isGap (c.peekAt 3)

/-- How many characters are looked at to find out whether a document marker stands here. -/
def markerReach (c : Cursor) : Nat :=
  match c.rest with
  | x :: y :: z :: _ => if (x = '-' || x = '.') && x = y && y = z then 4 else 3
  | _ => 3

/-- Whether a marker of a document's start or end stands here. -/
def atMarker (c : Cursor) : Except Fault Bool :=
  (c.ensure c.markerReach).map fun _ => c.isMarker '-' || c.isMarker '.'

/-- The number that hexadecimal digits of a given count make, and the place after them. -/
def hexNumber (c : Cursor) (count : Nat) : Except Fault (Nat × Cursor) :=
  let digits := (c.rest.take count).takeWhile fun ch => (Text.hexValue? ch).isSome
  match if digits.length < count then none else Text.digitsValue? 16 digits with
  | some n => .ok (n, c.skip count)
  | none => (c.skip digits.length).refuse

end Cursor

end TextProviders.Document
