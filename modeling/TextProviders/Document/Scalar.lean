import TextProviders.Document.Cursor
import TextProviders.Document.Fault

/-!
The three written forms of scalars: plain, between quotes, and as a block of lines.

In plain and quoted scalars a single line break is read as a space, and of several the first is
dropped.  A block keeps its breaks, or folds them if it is marked so; its header can say how deep it
is indented and what becomes of the breaks at its end.  The contents of quoted scalars are codes,
since an escape can give a code that no character has.
-/

namespace TextProviders.Document

/-! ## Plain scalars -/

/-- The characters of a plain scalar up to a gap, to a colon that ends a key, or, inside brackets,
to an indicator. -/
def plainRun (inFlow : Bool) : List Char → List Char
  | [] => []
  | c :: rest =>
    let closes (next : Option Char) : Bool :=
      isGap next || (inFlow && (next.map [',', '[', ']', '\x7b', '\x7d'].contains).getD false)
    if isGap (some c) || (c = ':' && closes rest.head?) ||
        (inFlow && [',', '?', '[', ']', '\x7b', '\x7d'].contains c) then []
    else c :: plainRun inFlow rest

/-- What a line break and the breaks after it are read as. -/
def foldBreaks (first more : List Char) : List Char :=
  (if first ≠ ['\n'] then first else if more.isEmpty then [' '] else []) ++ more

/-- The breaks after a first one, with the spaces among them passed over; `none` where a document
marker stands.  The count bounds the characters. -/
def plainBreaks : Nat → Cursor → Except Fault (Option (List Char) × Cursor)
  | 0, c => .ok (some [], c)
  | count + 1, c => do
    if ← c.atMarker then return (none, c)
    else
      let c := c.afterSpaces
      if (c.peek.map isBreak).getD false then
        let (line, c) := c.lineBreak
        let (more, c) ← plainBreaks count c
        return (more.map (line ++ ·), c)
      else return (some [], c)

/-- What stands between two runs of a plain scalar. -/
structure PlainGap where
  /-- What it is read as. -/
  content : List Char
  /-- Whether a line ends in it. -/
  broken : Bool
  after : Cursor

/-- What stands between two runs of a plain scalar. -/
def plainGap (c : Cursor) : Except Fault PlainGap :=
  let (spaces, c) := c.span (· = ' ')
  if (c.peek.map isBreak).getD false then
    let (first, c) := c.lineBreak
    (plainBreaks c.bound c).map fun (more, c) =>
      ⟨(more.map (foldBreaks first)).getD [], true, c⟩
  else .ok ⟨spaces, false, c⟩

/-- How many characters are looked at to find out where a run of a plain scalar ends: a colon may
need one more. -/
def plainReach (run : List Char) (c : Cursor) : Nat :=
  run.length + if c.peekAt run.length = some ':' then 2 else 1

/-- A plain scalar that starts after a gap, and the gap after it.  The count bounds the runs. -/
def plainFrom (inFlow : Bool) (indent : Int) :
    Nat → PlainGap → Except Fault (List Char × PlainGap)
  | 0, gap => .ok ([], gap)
  | count + 1, gap => do
    let c := gap.after
    if c.peek = some '#' then return ([], gap)
    else
      let run := plainRun inFlow c.rest
      c.ensure (plainReach run c)
      if run.isEmpty then return ([], gap)
      else
        let next ← plainGap (c.skip run.length)
        if next.content.isEmpty || next.after.peek = some '#' ||
            (!inFlow && (next.after.column : Int) < indent) then
          return (gap.content ++ run, next)
        else
          let (more, last) ← plainFrom inFlow indent count next
          return (gap.content ++ run ++ more, last)

/-- A plain scalar: its content, whether a line ends after it, and the place after it. -/
def plainScalar (inFlow : Bool) (indent : Int) (c : Cursor) :
    Except Fault (List Char × Bool × Cursor) :=
  (plainFrom inFlow indent c.bound ⟨[], false, c⟩).map fun (content, gap) =>
    (content, gap.broken, gap.after)

/-! ## Quoted scalars -/

/-- The breaks after a first one inside quotes, with spaces and tabs passed over.  The count bounds
the lines. -/
def quotedBreaks : Nat → Cursor → Except Fault (List Char × Cursor)
  | 0, c => .ok ([], c)
  | count + 1, c => do
    if ← c.atMarker then c.refuse
    else
      let c := (c.span isSpace).2
      if (c.peek.map isBreak).getD false then
        let (line, c) := c.lineBreak
        let (more, c) ← quotedBreaks count c
        return (line ++ more, c)
      else return ([], c)

/-- The code that a character after a backslash stands for. -/
def escapeCode? : Char → Option Nat
  | '0' => some 0x00
  | 'a' => some 0x07
  | 'b' => some 0x08
  | 't' => some 0x09
  | '\t' => some 0x09
  | 'n' => some 0x0a
  | 'v' => some 0x0b
  | 'f' => some 0x0c
  | 'r' => some 0x0d
  | 'e' => some 0x1b
  | ' ' => some 0x20
  | '"' => some 0x22
  | '\\' => some 0x5c
  | '/' => some 0x2f
  | 'N' => some 0x85
  | '_' => some 0xa0
  | 'L' => some 0x2028
  | 'P' => some 0x2029
  | _ => none

/-- How many digits follow a character after a backslash that starts a code. -/
def codeLength? : Char → Option Nat
  | 'x' => some 2
  | 'u' => some 4
  | 'U' => some 8
  | _ => none

/-- What an escape whose backslash stands before the place is read as. -/
def escape (c : Cursor) : Except Fault (List Nat × Cursor) :=
  match c.peek with
  | none => c.refuse
  | some ch =>
    match escapeCode? ch, codeLength? ch with
    | some code, _ => .ok ([code], c.next)
    | none, some count => do
      let (n, c) ← c.next.hexNumber count
      if 0x110000 ≤ n then .error (.code n) else return ([n], c)
    | none, none =>
      if isBreak ch then
        let c := c.lineBreak.2
        (quotedBreaks c.bound c).map fun (breaks, c) => (Text.codes breaks, c)
      else c.refuse

/-- What a run of spaces, tabs and breaks inside quotes is read as. -/
def quotedGap (c : Cursor) : Except Fault (List Nat × Cursor) :=
  let (spaces, c) := c.span isSpace
  match c.peek with
  | none => c.refuse
  | some ch =>
    if isBreak ch then
      let (first, c) := c.lineBreak
      (quotedBreaks c.bound c).map fun (more, c) =>
        (Text.codes (foldBreaks first more), c)
    else .ok (Text.codes spaces, c)

/-- A part of what stands between quotes: its codes, and the place after it; `none` at the closing
quote. -/
def quotedPart (quote : Char) (c : Cursor) : Except Fault (Option (List Nat × Cursor)) :=
  match c.peek with
  | none => c.refuse
  | some ch =>
    if isGap (some ch) then (quotedGap c).map some
    else if ch = quote then
      if quote = '\'' && c.peekAt 1 = some '\'' then .ok (some ([ch.toNat], c.skip 2))
      else .ok none
    else if quote = '"' && ch = '\\' then (escape c.next).map some
    else .ok (some ([ch.toNat], c.next))

/-- What stands up to the closing quote, and the place after the quote.  The count bounds the
parts. -/
def quotedBody (quote : Char) : Nat → Cursor → Except Fault (List Nat × Cursor)
  | 0, c => c.refuse
  | count + 1, c =>
    match quotedPart quote c with
    | .error f => .error f
    | .ok none => .ok ([], c.next)
    | .ok (some (part, c)) => (quotedBody quote count c).map fun (more, c) => (part ++ more, c)

/-- A quoted scalar that starts here. -/
def quotedScalar (quote : Char) (c : Cursor) : Except Fault (List Nat × Cursor) :=
  quotedBody quote c.bound c.next

/-! ## Blocks -/

/-- What becomes of the breaks at the end of a block. -/
inductive Chomping where
  | strip
  | clip
  | keep
deriving DecidableEq, Repr

/-- The chomping that a character of a header stands for. -/
def chomping? : Option Char → Option Chomping
  | some '+' => some .keep
  | some '-' => some .strip
  | _ => none

/-- The depth that a character of a header stands for. -/
def depth? (c : Option Char) : Option Nat :=
  (c.filter Char.isDigit).map fun d => d.toNat - 0x30

/-- The header of a block: chomping and depth in either order, and the end of the line. -/
def blockHeader (c : Cursor) : Except Fault (Chomping × Option Nat × Cursor) :=
  let early := chomping? c.peek
  let c := if early.isSome then c.next else c
  let depth := depth? c.peek
  if depth = some 0 then c.refuse
  else
    let c := if depth.isSome then c.next else c
    let late := if early.isNone && depth.isSome then chomping? c.peek else none
    let c := if late.isSome then c.next else c
    if !endsWord c.peek then c.refuse
    else
      let c := c.afterSpaces.afterComment
      if endsLine c.peek then .ok ((early.or late).getD .clip, depth, c.lineBreak.2) else c.refuse

/-- The place after spaces, up to a column. -/
def indentTo (column : Nat) (c : Cursor) : Cursor :=
  c.skip (min (column - c.column) (c.rest.takeWhile (· = ' ')).length)

/-- The breaks before the next line of a block of a given depth.  The count bounds the lines. -/
def blockBreaks (depth : Nat) : Nat → Cursor → List Char × Cursor
  | 0, c => ([], c)
  | count + 1, c =>
    let c := indentTo depth c
    if (c.peek.map isBreak).getD false then
      let (line, c) := c.lineBreak
      let (more, c) := blockBreaks depth count c
      (line ++ more, c)
    else ([], c)

/-- The breaks before the first line of a block, and the greatest column reached by spaces.  The
count bounds the lines. -/
def blockDepth : Nat → Cursor → List Char × Nat × Cursor
  | 0, c => ([], 0, c)
  | count + 1, c =>
    let c := c.afterSpaces
    let reached := c.column
    if (c.peek.map isBreak).getD false then
      let (line, c) := c.lineBreak
      let (more, deepest, c) := blockDepth count c
      (line ++ more, max reached deepest, c)
    else ([], reached, c)

/-- The lines of a block: its content up to the last line, the break that ends that line, and the
breaks after it. -/
structure BlockLines where
  content : List Char := []
  last : List Char := []
  breaks : List Char := []
  after : Cursor

/-- The lines of a block after some breaks.  The count bounds the lines. -/
def blockLines (folded : Bool) (depth : Nat) : Nat → List Char → Cursor → BlockLines
  | 0, breaks, c => ⟨[], [], breaks, c⟩
  | count + 1, breaks, c =>
    if c.column = depth && c.peek.isSome then
      let flush := !(c.peek.map isSpace).getD false
      let (line, c) := c.span fun ch => !isBreak ch
      let (last, c) := c.lineBreak
      let (more, c) := blockBreaks depth c.bound c
      if c.column = depth && c.peek.isSome then
        let joint :=
          if folded && last = ['\n'] && flush && !(c.peek.map isSpace).getD false then
            if more.isEmpty then [' '] else []
          else last
        let lines := blockLines folded depth count more c
        { lines with content := breaks ++ line ++ joint ++ lines.content }
      else ⟨breaks ++ line, last, more, c⟩
    else ⟨[], [], breaks, c⟩

/-- A block that starts here, inside something of a given indentation. -/
def blockScalar (folded : Bool) (indent : Int) (c : Cursor) :
    Except Fault (List Char × Cursor) :=
  (blockHeader c.next).map fun (chomping, depth, c) =>
    let least := max 1 (indent + 1).toNat
    let (depth, breaks, c) :=
      match depth with
      | some depth =>
        let depth := least + depth - 1
        let (breaks, c) := blockBreaks depth c.bound c
        (depth, breaks, c)
      | none =>
        let (breaks, deepest, c) := blockDepth c.bound c
        (max least deepest, breaks, c)
    let lines := blockLines folded depth c.bound breaks c
    (lines.content ++ (if chomping = .strip then [] else lines.last) ++
      (if chomping = .keep then lines.breaks else []), lines.after)

end TextProviders.Document
