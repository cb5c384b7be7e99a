import TextProviders.Calendar
import TextProviders.Text.Digit
import TextProviders.Text.Split

/-!
The types of nodes, and the type that a plain scalar has by its form.

A plain scalar is a flag, an integer, a real, a date or moment, nothing at all, or one of two marks
of mappings if it is written as one; otherwise it is a text.
-/

namespace TextProviders.Document

/-- The type of a node. -/
inductive Tag where
  | null
  | flag
  | whole
  | real
  | binary
  | stamp
  | text
  | sequence
  | omap
  | pairs
  | mapping
  | set
  /-- The mark of a key whose value's entries are taken over. -/
  | merge
  /-- The mark of a key whose value stands for the mapping. -/
  | value
  /-- A type that no value has. -/
  | unknown
deriving DecidableEq, Repr

namespace Tag

/-- Whether a type is one of scalars that have a value of it. -/
def isScalar : Tag → Bool
  | null | flag | whole | real | binary | stamp | text => true
  | _ => false

/-- What the names of the standard types start with. -/
def standardStart : List Char := "tag:yaml.org,2002:".toList

/-- The standard types, by the rest of their names. -/
def standard : List (String × Tag) := [
  ("null", null), ("bool", flag), ("int", whole), ("float", real), ("binary", binary),
  ("timestamp", stamp), ("str", text), ("seq", sequence), ("omap", omap), ("pairs", pairs),
  ("map", mapping), ("set", set), ("merge", merge), ("value", value)]

/-- The type of a name. -/
def ofName (name : List Char) : Tag :=
  if standardStart.isPrefixOf name then
    (standard.lookup (String.ofList (name.drop standardStart.length))).getD unknown
  else unknown

/-! ## The forms of plain scalars -/

/-- The words that are flags. -/
def flagWords : List String := [
  "yes", "Yes", "YES", "no", "No", "NO", "true", "True", "TRUE", "false", "False", "FALSE",
  "on", "On", "ON", "off", "Off", "OFF"]

/-- The words that are nothing. -/
def nullWords : List String := ["~", "null", "Null", "NULL", ""]

/-- Digits in which low lines may stand. -/
def isSpacedDigits (isDigit : Char → Bool) (s : List Char) : Bool :=
  s.all fun c => isDigit c || c = '_'

/-- A digit, and then digits in which low lines may stand. -/
def isDecimal : List Char → Bool
  | [] => false
  | c :: rest => c.isDigit && isSpacedDigits Char.isDigit rest

/-- A decimal that does not start with a zero. -/
def isCounting (s : List Char) : Bool :=
  isDecimal s && s.head? ≠ some '0'

/-- A count of minutes or seconds: one digit, or two that make less than sixty. -/
def isSixtieth : List Char → Bool
  | [c] => c.isDigit
  | [c, d] => '0' ≤ c && c ≤ '5' && d.isDigit
  | _ => false

/-- Parts between colons: a first one of a form, and at least one count of sixtieths. -/
def isSexagesimal (isFirst : List Char → Bool) (s : List Char) : Bool :=
  match Text.splitOn ':' s with
  | first :: rest@(_ :: _) => isFirst first && rest.all isSixtieth
  | _ => false

/-- The text without the sign it starts with. -/
def unsigned : List Char → List Char
  | '-' :: rest => rest
  | '+' :: rest => rest
  | s => s

/-- Whether a text without a sign has the form of an integer. -/
def isUnsignedWhole (s : List Char) : Bool :=
  match s with
  | ['0'] => true
  | '0' :: 'b' :: rest => !rest.isEmpty && isSpacedDigits (fun c => c = '0' || c = '1') rest
  | '0' :: 'x' :: rest =>
    !rest.isEmpty && isSpacedDigits (fun c => (Text.hexValue? c).isSome) rest
  | '0' :: rest => isSpacedDigits (fun c => '0' ≤ c && c ≤ '7') rest
  | _ => isCounting s || isSexagesimal isCounting s

/-- Whether a text has the form of an integer. -/
def isWhole (s : List Char) : Bool :=
  isUnsignedWhole (unsigned s)

/-- Whether a text is an exponent with a sign, or nothing. -/
def isExponent : List Char → Bool
  | [] => true
  | e :: sign :: digits =>
    (e = 'e' || e = 'E') && (sign = '-' || sign = '+') && !digits.isEmpty &&
      digits.all Char.isDigit
  | _ => false

/-- Whether a text is the digits after a point, with an exponent or without. -/
def isFraction (s : List Char) : Bool :=
  isExponent (s.dropWhile fun c => c.isDigit || c = '_')

/-- Whether a text has the form of a real. -/
def isReal (s : List Char) : Bool :=
  let body := unsigned s
  let whole := body.takeWhile (· ≠ '.')
  match body.drop whole.length with
  | [] => false
  | _ :: part =>
    (isDecimal whole && isFraction part) ||
    (isSexagesimal isDecimal whole && isSpacedDigits Char.isDigit part) ||
    (whole.isEmpty && ["inf", "Inf", "INF"].contains (String.ofList part)) ||
    (s.head? = some '.' &&
      (["nan", "NaN", "NAN"].contains (String.ofList part) ||
        ((part.head?.map Char.isDigit).getD false && isFraction part)))

/-- Whether a text has the form of a date or a moment; a date alone has two digits for both month
and day. -/
def isStamp (s : List Char) : Bool :=
  10 ≤ s.length && (Calendar.read? s).isSome

/-- A text without the line feed that it ends in. -/
def withoutLineFeed (s : List Char) : List Char :=
  if s.getLast? = some '\n' then s.dropLast else s

/-- The type that a plain scalar has by its form. -/
def ofPlain (s : List Char) : Tag :=
  if s = ['\n'] then text
  else
    let s := withoutLineFeed s
    let word := String.ofList s
    if flagWords.contains word then flag
    else if isReal s then real
    else if isWhole s then whole
    else if word = "<<" then merge
    else if nullWords.contains word then null
    else if isStamp s then stamp
    else if word = "=" then value
    else if ["!", "&", "*"].contains word then unknown
    else text

end Tag

end TextProviders.Document
