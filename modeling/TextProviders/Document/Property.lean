import TextProviders.Document.Cursor
import TextProviders.Document.Fault

/-!
What stands before the content of a node or of a document: anchors and references, tags, and
directives.

A tag is a handle and a suffix.  The handle names a beginning that a directive declares; without a
handle the suffix is the whole tag.  A suffix can hold escaped bytes.
-/

namespace TextProviders.Document

/-- A tag as it is written. -/
structure WrittenTag where
  handle : Option (List Char)
  suffix : List Char
deriving DecidableEq, Repr

/-- A line before a document that says how to read it. -/
inductive Directive where
  | version (major : Nat)
  | tag (handle start : List Char)
  | other
deriving DecidableEq, Repr

/-! ## Names -/

/-- The name after the mark of an anchor or a reference. -/
def anchorName (c : Cursor) : Except Fault (List Char × Cursor) :=
  let (name, after) := c.next.span isNameChar
  let closes : Bool :=
    isGap after.peek ||
      (after.peek.map ['?', ':', ',', ']', '\x7d', '%', '@', '\x60'].contains).getD false
  if name.isEmpty || !closes then after.refuse else .ok (name, after)

/-! ## Tags -/

/-- Whether a character may stand in a tag without an escape. -/
def isTagChar (c : Char) : Bool :=
  c.isAlphanum || "-;/?:@&=+$,_.!~*'()[]".toList.contains c

/-- The bytes of the escapes that stand here.  The count bounds them. -/
def escapedBytes : Nat → Cursor → Except Fault (List UInt8 × Cursor)
  | 0, c => .ok ([], c)
  | count + 1, c =>
    if c.peek = some '%' then
      match c.next.hexNumber 2 with
      | .error f => .error f
      | .ok (n, c) => (escapedBytes count c).map fun (more, c) => (UInt8.ofNat n :: more, c)
    else .ok ([], c)

/-- The characters of a tag that stand here.  The count bounds the parts between escapes. -/
def tagText : Nat → Cursor → Except Fault (List Char × Cursor)
  | 0, c => .ok ([], c)
  | count + 1, c =>
    let (run, c) := c.span isTagChar
    if c.peek = some '%' then
      match escapedBytes c.bound c with
      | .error f => .error f
      | .ok (bytes, c) =>
        match Text.Utf8.decode bytes with
        | .error _ => c.refuse
        | .ok chars => (tagText count c).map fun (more, c) => (run ++ chars ++ more, c)
    else .ok (run, c)

/-- The characters of a tag that stand here, of which there is at least one. -/
def tagUri (c : Cursor) : Except Fault (List Char × Cursor) :=
  if (c.peek.map fun ch => isTagChar ch || ch = '%').getD false then
    tagText c.bound c
  else c.refuse

/-- The handle that stands here: an exclamation mark alone before a space, or a name between two. -/
def tagHandle (c : Cursor) : Except Fault (List Char × Cursor) :=
  if c.peek ≠ some '!' then c.refuse
  else if c.peekAt 1 = some ' ' then .ok (['!'], c.next)
  else
    let (name, after) := c.next.span isNameChar
    if after.peek = some '!' then .ok ('!' :: name ++ ['!'], after.next) else after.refuse

/-- The tag that starts here. -/
def writtenTag (c : Cursor) : Except Fault (WrittenTag × Cursor) := do
  let (tag, after) ←
    if c.peekAt 1 = some '<' then do
      let (suffix, after) ← tagUri (c.skip 2)
      if after.peek ≠ some '>' then after.refuse
      else .ok ((⟨none, suffix⟩ : WrittenTag), after.next)
    else if isGap (c.peekAt 1) then .ok (⟨none, ['!']⟩, c.next)
    else do
      let word := c.next.rest.takeWhile fun ch => !endsWord (some ch)
      if !word.contains '!' then c.ensure (word.length + 2)
      let (handle, after) ← if word.contains '!' then tagHandle c else .ok (['!'], c.next)
      let (suffix, after) ← tagUri after
      .ok (⟨some handle, suffix⟩, after)
  if endsWord after.peek then .ok (tag, after) else after.refuse

/-! ## Directives -/

/-- The end of a directive's line, where only a comment may stand. -/
def directiveEnd (c : Cursor) : Except Fault Cursor :=
  let c := c.afterSpaces.afterComment
  if endsLine c.peek then .ok c.lineBreak.2 else c.refuse

/-- A number of a version, which is read like any other integer. -/
def versionNumber (c : Cursor) : Except Fault (Nat × Cursor) :=
  let (digits, after) := c.span Char.isDigit
  if digits.isEmpty then after.refuse
  else
    match Numeral.readInteger 10 (Text.codes digits) with
    | .error f => after.fail 1 (.numeral f)
    | .ok n => .ok (n.toNat, after)

/-- The version that a directive states. -/
def version (c : Cursor) : Except Fault (Directive × Cursor) := do
  let (major, c) ← versionNumber c.afterSpaces
  if c.peek ≠ some '.' then c.refuse
  else do
    let (_, c) ← versionNumber c.next
    if endsWord c.peek then .ok (.version major, c) else c.refuse

/-- The handle that a directive declares, and what it stands for. -/
def handleDeclaration (c : Cursor) : Except Fault (Directive × Cursor) := do
  let (handle, c) ← tagHandle c.afterSpaces
  if c.peek ≠ some ' ' then c.refuse
  else do
    let (start, c) ← tagUri c.afterSpaces
    if endsWord c.peek then .ok (.tag handle start, c) else c.refuse

/-- The directive that starts here. -/
def directive (c : Cursor) : Except Fault (Directive × Cursor) := do
  let (name, c) := c.next.span isNameChar
  if name.isEmpty || !endsWord c.peek then c.refuse
  else do
    let (d, c) ←
      if name = "YAML".toList then version c
      else if name = "TAG".toList then handleDeclaration c
      else .ok (.other, c.lineEnd)
    .ok (d, ← directiveEnd c)

end TextProviders.Document
