import TextProviders.Text.Split

/-!
Paths as text: parsing, joining and printing, without a look at any file system.

A path is a sequence of parts below an anchor.  Empty parts and single dots are dropped when a text
is read, double dots are kept.  One leading slash anchors a path at the root, exactly two anchor it
at a root of their own, more than two count as one.
-/

namespace TextProviders

/-- Where a path starts. -/
inductive Anchor where
  /-- The working directory. -/
  | here
  /-- The root, written with one slash. -/
  | root
  /-- The root, written with two slashes. -/
  | doubleRoot
deriving DecidableEq, Repr

/-- An anchor as it is written in front of the parts. -/
def Anchor.text : Anchor → String
  | here => ""
  | root => "/"
  | doubleRoot => "//"

/-- An anchor and the parts below it. -/
structure Path where
  anchor : Anchor := .here
  parts : List String := []
deriving DecidableEq, Repr

namespace Path

/-- The parts of a text between slashes, without the empty ones and the single dots. -/
def partsOf (s : List Char) : List String :=
  ((Text.splitOn '/' s).filter fun part => part ≠ [] ∧ part ≠ ['.']).map String.ofList

/-- The anchor that a text's leading slashes make. -/
def anchorOf (s : List Char) : Anchor :=
  match (s.takeWhile (· = '/')).length with
  | 0 => .here
  | 2 => .doubleRoot
  | _ => .root

/-- The path that a text names. -/
def ofString (s : String) : Path :=
  ⟨anchorOf s.toList, partsOf s.toList⟩

/-- A path below another one; an anchored path stands for itself. -/
def join (a b : Path) : Path :=
  match b.anchor with
  | .here => ⟨a.anchor, a.parts ++ b.parts⟩
  | _ => b

/-- The path that a text names below another one. -/
def child (a : Path) (s : String) : Path :=
  a.join (ofString s)

/-- The path without its last part, or itself if it has none. -/
def parent (p : Path) : Path :=
  ⟨p.anchor, p.parts.dropLast⟩

/-- The text of a path; a path without anchor and parts is the working directory, a dot. -/
def text (p : Path) : String :=
  if p.anchor = .here ∧ p.parts = [] then "."
  else p.anchor.text ++ "/".intercalate p.parts

end Path

end TextProviders
