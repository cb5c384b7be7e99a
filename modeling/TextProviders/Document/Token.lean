import TextProviders.Document.Property
import TextProviders.Document.Scalar

/-!
The tokens of a document.

Indentation opens and closes the collections of a block, so the tokens hold marks for both.  A key
of a mapping need not be marked as one: where a colon follows on the same line, the token that the
key starts with is found to start a key, and the marks of the key are set before it.  Until then it
is a candidate, one for each depth of brackets, and neither it nor what follows it is settled.
Where the text is at fault, the tokens that are settled can be used all the same.
-/

namespace TextProviders.Document

/-- A token. -/
inductive Token where
  | directive (d : Directive)
  | documentStart
  | documentEnd
  | sequenceStart
  | mappingStart
  | blockEnd
  | flowSequenceStart
  | flowSequenceEnd
  | flowMappingStart
  | flowMappingEnd
  | blockEntry
  | flowEntry
  | key
  | value
  | anchor (name : List Char)
  | reference (name : List Char)
  | tag (t : WrittenTag)
  | scalar (plain : Bool) (content : List Nat)
deriving DecidableEq, Repr

/-- A token that may turn out to start a key. -/
structure Candidate where
  /-- The depth of brackets it stands at. -/
  level : Nat
  /-- How many tokens come before it. -/
  position : Nat
  /-- Whether nothing but a key can stand there. -/
  required : Bool
  place : Cursor
deriving Repr

/-- How far the tokens of a document are read. -/
structure Scanner where
  cursor : Cursor
  /-- The depth of brackets. -/
  level : Nat := 0
  /-- The column of the innermost collection of a block; before the first column if there is
  none. -/
  indent : Int := -1
  /-- The columns of the collections around it, innermost first. -/
  outer : List Int := []
  /-- Whether a key may start here. -/
  keyAllowed : Bool := true
  candidates : List Candidate := []
  /-- The tokens, last one first, each with the marks that were set before it. -/
  tokens : List (List Token) := []
  /-- How many tokens there are, without the marks. -/
  count : Nat := 0

namespace Scanner

/-! ## Steps on the state -/

/-- Adds a token. -/
def emit (s : Scanner) (t : Token) : Scanner :=
  { s with tokens := [t] :: s.tokens, count := s.count + 1 }

/-- Sets marks before a token. -/
def markBefore (s : Scanner) (position : Nat) (marks : List Token) : Scanner :=
  { s with tokens := s.tokens.modify (s.count - 1 - position) fun ts => marks ++ ts }

/-- The tokens before a position, with the marks among them. -/
def before (s : Scanner) (position : Nat) : List Token :=
  (s.tokens.drop (s.count - position)).reverse.flatten

/-- Moves on. -/
def moveTo (s : Scanner) (c : Cursor) : Scanner :=
  { s with cursor := c }

/-- Sets whether a key may start here. -/
def allowKey (s : Scanner) (allowed : Bool) : Scanner :=
  { s with keyAllowed := allowed }

/-- Closes the collections of a block that are indented deeper than a column. -/
def closeBlocks (s : Scanner) (column : Int) : Scanner :=
  if s.level ≠ 0 then s
  else
    let all := s.indent :: s.outer
    let closed := (all.takeWhile (column < ·)).length
    { s with
      indent := (all.drop closed).headD (-1)
      outer := (all.drop closed).drop 1
      tokens := List.replicate closed [.blockEnd] ++ s.tokens
      count := s.count + closed }

/-- Opens a collection of a block at a column, if that is deeper than the innermost one; tells
whether it did. -/
def openBlock (s : Scanner) (column : Int) : Bool × Scanner :=
  if s.indent < column then
    (true, { s with indent := column, outer := s.indent :: s.outer })
  else (false, s)

/-- Opens a collection here, and adds the mark of its start if it did. -/
def startBlock (s : Scanner) (mark : Token) : Scanner :=
  let (opened, s) := s.openBlock s.cursor.column
  if opened then s.emit mark else s

/-- Drops the candidates that a key cannot start with any more, being on an earlier line or too far
back. -/
def dropStale (s : Scanner) : Except Fault Scanner :=
  let isStale (k : Candidate) : Bool :=
    k.place.line ≠ s.cursor.line || 1024 < s.cursor.index - k.place.index
  if s.candidates.any fun k => isStale k && k.required then .error .malformed
  else .ok { s with candidates := s.candidates.filter fun k => !isStale k }

/-- Drops the candidate at the current depth. -/
def dropCandidate (s : Scanner) : Except Fault Scanner :=
  if s.candidates.any fun k => k.level = s.level && k.required then .error .malformed
  else .ok { s with candidates := s.candidates.filter fun k => k.level ≠ s.level }

/-- Makes the next token a candidate, if a key may start here. -/
def addCandidate (s : Scanner) : Except Fault Scanner :=
  if s.keyAllowed then do
    let s ← s.dropCandidate
    let required := s.level = 0 && s.indent = s.cursor.column
    .ok { s with candidates := ⟨s.level, s.count, required, s.cursor⟩ :: s.candidates }
  else .ok s

/-! ## Reading one token -/

/-- The place of the next token: spaces, comments and line ends are passed over, and outside
brackets a key may start on a new line.  The count bounds the lines. -/
def toNextToken : Nat → Scanner → Scanner
  | 0, s => s
  | count + 1, s =>
    let s := s.moveTo s.cursor.afterSpaces.afterComment
    if (s.cursor.peek.map isBreak).getD false then
      toNextToken count ((s.moveTo s.cursor.lineBreak.2).allowKey (s.level = 0 || s.keyAllowed))
    else s

/-- Reads a directive or a document marker, which close all collections. -/
def readBetween (s : Scanner) (read : Cursor → Except Fault (Token × Cursor)) :
    Except Fault Scanner := do
  let s ← (s.closeBlocks (-1)).dropCandidate
  let (t, c) ← read s.cursor
  .ok (((s.allowKey false).moveTo c).emit t)

/-- Reads an opening bracket. -/
def openFlow (s : Scanner) (t : Token) : Except Fault Scanner := do
  let s ← s.addCandidate
  .ok (({ s with level := s.level + 1, keyAllowed := true }.moveTo s.cursor.next).emit t)

/-- Reads a closing bracket. -/
def closeFlow (s : Scanner) (t : Token) : Except Fault Scanner := do
  let s ← s.dropCandidate
  .ok (({ s with level := s.level - 1, keyAllowed := false }.moveTo s.cursor.next).emit t)

/-- Reads a comma. -/
def readComma (s : Scanner) : Except Fault Scanner := do
  let s ← (s.allowKey true).dropCandidate
  .ok ((s.moveTo s.cursor.next).emit .flowEntry)

/-- Reads the mark of a sequence's entry. -/
def readEntry (s : Scanner) : Except Fault Scanner :=
  if s.level = 0 && !s.keyAllowed then .error .malformed
  else do
    let s := if s.level = 0 then s.startBlock .sequenceStart else s
    let s ← (s.allowKey true).dropCandidate
    .ok ((s.moveTo s.cursor.next).emit .blockEntry)

/-- Reads the mark of a key. -/
def readKey (s : Scanner) : Except Fault Scanner :=
  if s.level = 0 && !s.keyAllowed then .error .malformed
  else do
    let s := if s.level = 0 then s.startBlock .mappingStart else s
    let s ← (s.allowKey (s.level = 0)).dropCandidate
    .ok ((s.moveTo s.cursor.next).emit .key)

/-- Reads the mark of a value: the candidate at the current depth is found to start a key. -/
def readColon (s : Scanner) : Except Fault Scanner :=
  match s.candidates.find? fun k => k.level = s.level with
  | some k =>
    let s := { s with candidates := s.candidates.filter fun k => k.level ≠ s.level }
    let (opens, s) := if s.level = 0 then s.openBlock k.place.column else (false, s)
    let s := s.markBefore k.position (if opens then [.mappingStart, .key] else [.key])
    .ok (((s.allowKey false).moveTo s.cursor.next).emit .value)
  | none =>
    if s.level = 0 && !s.keyAllowed then .error .malformed
    else do
      let s := if s.level = 0 then s.startBlock .mappingStart else s
      let s ← (s.allowKey (s.level = 0)).dropCandidate
      .ok ((s.moveTo s.cursor.next).emit .value)

/-- Reads a token that a key may start with. -/
def readContent (s : Scanner) (read : Cursor → Except Fault (Token × Cursor)) :
    Except Fault Scanner := do
  let s ← s.addCandidate
  let (t, c) ← read s.cursor
  .ok (((s.allowKey false).moveTo c).emit t)

/-- Reads a block of lines. -/
def readBlock (s : Scanner) (folded : Bool) : Except Fault Scanner := do
  let s ← (s.allowKey true).dropCandidate
  let (content, c) ← blockScalar folded s.indent s.cursor
  .ok ((s.moveTo c).emit (.scalar false (Text.codes content)))

/-- Reads a plain scalar; a key may start after it if a line ended there. -/
def readPlain (s : Scanner) : Except Fault Scanner := do
  let s ← s.addCandidate
  let (content, broken, c) ← plainScalar (s.level ≠ 0) (s.indent + 1) s.cursor
  .ok (((s.allowKey broken).moveTo c).emit (.scalar true (Text.codes content)))

/-- Whether a character can start a plain scalar whatever follows it. -/
def isPlainStart (c : Char) : Bool :=
  !(isGap (some c) || "-?:,[]#&*!|>'\"%@".toList.contains c || c = '\x7b' || c = '\x7d' ||
    c = '\x60')

/-- Whether a plain scalar can start with a character before another one. -/
def startsPlain (inFlow : Bool) (c : Char) (next : Option Char) : Bool :=
  isPlainStart c || (!isGap next && (c = '-' || (!inFlow && (c = '?' || c = ':'))))

/-- How many characters are looked at to tell what kind of token starts with a character here. -/
def reach (s : Scanner) (ch : Char) : Nat :=
  let inFlow : Bool := s.level ≠ 0
  if s.cursor.column = 0 && (ch = '-' || ch = '.') then s.cursor.markerReach
  else if s.cursor.column = 0 && ch = '%' then 1
  else if ch = '-' || (!inFlow && (ch = '?' || ch = ':')) then 2
  else if ch = '%' || ch = '@' || ch = '\x60' || ch = '\t' then 2
  else if inFlow && (ch = '|' || ch = '>') then 2
  else 1

/-- Reads the token that starts with a character here. -/
def readToken (s : Scanner) (ch : Char) : Except Fault Scanner :=
  let c := s.cursor
  let next := c.peekAt 1
  let inFlow : Bool := s.level ≠ 0
  let marker (t : Token) := s.readBetween fun c => .ok (t, c.skip 3)
  if ch = '%' && c.column = 0 then
    s.readBetween fun c => (directive c).map fun (d, c) => (.directive d, c)
  else if c.column = 0 && c.isMarker '-' then marker .documentStart
  else if c.column = 0 && c.isMarker '.' then marker .documentEnd
  else if ch = '[' then s.openFlow .flowSequenceStart
  else if ch = '\x7b' then s.openFlow .flowMappingStart
  else if ch = ']' then s.closeFlow .flowSequenceEnd
  else if ch = '\x7d' then s.closeFlow .flowMappingEnd
  else if ch = ',' then s.readComma
  else if ch = '-' && isGap next then s.readEntry
  else if ch = '?' && (inFlow || isGap next) then s.readKey
  else if ch = ':' && (inFlow || isGap next) then s.readColon
  else if ch = '*' then s.readContent fun c => (anchorName c).map fun (n, c) => (.reference n, c)
  else if ch = '&' then s.readContent fun c => (anchorName c).map fun (n, c) => (.anchor n, c)
  else if ch = '!' then s.readContent fun c => (writtenTag c).map fun (t, c) => (.tag t, c)
  else if ch = '|' && !inFlow then s.readBlock false
  else if ch = '>' && !inFlow then s.readBlock true
  else if ch = '\'' || ch = '"' then
    s.readContent fun c => (quotedScalar ch c).map fun (content, c) => (.scalar false content, c)
  else if startsPlain inFlow ch next then s.readPlain
  else .error .malformed

/-- Reads the next token; tells whether all are read. -/
def readNext (s : Scanner) : Except Fault (Bool × Scanner) := do
  let s := toNextToken s.cursor.bound s
  s.cursor.ensure 1
  let s ← s.dropStale
  let s := s.closeBlocks s.cursor.column
  match s.cursor.peek with
  | none => return (true, ← (s.closeBlocks (-1)).dropCandidate)
  | some ch =>
    s.cursor.ensure (s.reach ch)
    let s ← s.readToken ch
    s.cursor.ensure 1
    return (false, s)

/-! ## Reading all tokens -/

/-- The tokens that no candidate stands before, which are those that are settled. -/
def settled (s : Scanner) : List Token :=
  s.before (s.candidates.foldl (fun n k => min n k.position) s.count)

/-- The tokens of a document, and the fault that ends them, if one does.  The count bounds the
tokens. -/
def run : Nat → Scanner → List Token × Option Fault
  | 0, s => (s.settled, some .malformed)
  | count + 1, s =>
    match s.readNext with
    | .error f => (s.settled, some f)
    | .ok (true, s) => (s.before s.count, none)
    | .ok (false, s) =>
      match s.dropStale with
      | .error f => (s.settled, some f)
      | .ok s => run count s

end Scanner

/-- The tokens of a text, and the fault that ends them, if one does.  A byte order mark at the start
is passed over. -/
def tokens (source : Source) : List Token × Option Fault :=
  let start := Cursor.ofSource source
  let start := if start.peek.map Char.toNat = some 0xfeff then start.next else start
  Scanner.run start.bound { cursor := start }

end TextProviders.Document
