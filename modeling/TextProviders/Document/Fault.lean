import TextProviders.Calendar
import TextProviders.FailureKind
import TextProviders.Number.Numeral
import TextProviders.Text.Utf8

/-!
Why a document cannot be read, as causes, and the words for each.

Most causes are faults of form, which say nothing more.  Others are bytes that are no text, and
scalars that are marked as, or look like, one of the standard types but have no value of it.
-/

namespace TextProviders.Document

/-- Why a document cannot be read. -/
inductive Fault where
  /-- The text is no document, or a part of it cannot stand where it stands. -/
  | malformed
  /-- The bytes are no text. -/
  | undecodable (f : Text.Utf8.Fault)
  /-- An escape gives a code that no character has. -/
  | code (n : Nat)
  | numeral (f : Numeral.Fault)
  /-- Nothing is left of a numeral. -/
  | emptyNumeral
  | hugeBase
  | calendar (f : Calendar.Fault)
  /-- A scalar that is marked as a date has not the form of one. -/
  | noStamp
  /-- A mapping is marked as a date. -/
  | stampOfMapping
  /-- A scalar that is marked as a flag is no word for one. -/
  | noFlag (word : List Nat)
  /-- A mapping stands for a scalar that is the mapping itself. -/
  | endless
deriving DecidableEq, Repr

namespace Fault

/-- The greatest code that fits a machine word. -/
def maxCode : Nat := 0x7fffffff

/-- The kind of a fault, if it has one of its own. -/
def kind? : Fault → Option FailureKind
  | malformed => none
  | undecodable _ => some .undecodable
  | code n => some (if maxCode < n then .overflow else .value)
  | numeral _ => some .value
  | emptyNumeral => some .missingIndex
  | hugeBase => some .overflow
  | calendar _ => some .value
  | noStamp => some .missingAttribute
  | stampOfMapping => some .wrongType
  | noFlag _ => some .missingKey
  | endless => some .endless

/-- The words for a fault; faults of form have none. -/
def message : Fault → String
  | malformed => ""
  | undecodable f => f.message
  | code n =>
    if maxCode < n then "Python int too large to convert to C int"
    else "chr() arg not in range(0x110000)"
  | numeral f => f.message
  | emptyNumeral => "string index out of range"
  | hugeBase => "int too large to convert to float"
  | calendar f => f.message
  | noStamp => "'NoneType' object has no attribute 'groupdict'"
  | stampOfMapping => "expected string or bytes-like object, got 'list'"
  | noFlag word => Text.quotedCodes word
  | endless => "maximum recursion depth exceeded"

end Fault

end TextProviders.Document
