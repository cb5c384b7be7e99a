import TextProviders.Document.Fault
import TextProviders.Text.Stream

/-!
The text of a document as far as it can be read, and the fault that stops it there.

A document is read while it is taken apart, so a fault of form early in a text comes before bytes
that are no text further on.  The text comes in portions.  The first two are looked at together, and
every other one on its own: a portion that holds a character which may not stand in a document is
refused as a whole.
-/

namespace TextProviders.Document

/-- Whether a character may stand in a document at all. -/
def isAllowed (c : Char) : Bool :=
  let n := c.toNat
  n = 0x09 || n = 0x0a || n = 0x0d || (0x20 ≤ n && n ≤ 0x7e) || n = 0x85 ||
    (0xa0 ≤ n && n ≤ 0xd7ff) || (0xe000 ≤ n && n ≤ 0xfffd) || 0x10000 ≤ n

/-- The text of a document up to its end, or up to where a fault stops it. -/
structure Source where
  text : List Char
  stop : Option Fault := none
deriving DecidableEq, Repr

namespace Source

/-- The text of portions that end with a fault, or with the text. -/
def ofPortions (stop : Option Fault) : List (List Char) → Source
  | [] => ⟨[], stop⟩
  | portion :: rest =>
    if portion.all isAllowed then
      let source := ofPortions stop rest
      { source with text := portion ++ source.text }
    else ⟨[], some .malformed⟩

/-- The text that bytes are.  Nothing can be read before the second portion is there. -/
def ofBytes (bytes : List UInt8) : Source :=
  let (portions, fault) := Text.portions bytes
  let stop := fault.map Fault.undecodable
  match portions with
  | first :: second :: rest => ofPortions stop ((first ++ second) :: rest)
  | portions => if stop.isSome then ⟨[], stop⟩ else ofPortions none portions

end Source

end TextProviders.Document
