import TextProviders.Text.Digit

/-!
String literals of the generated sources.

A literal stands between double quotes on one line.  Quote and backslash, and the five controls
with a short escape, are written with a backslash; the other controls, DEL and the two separators
that end a line are written by their code in four digits; every other character stands for itself.
-/

namespace TextProviders.Literal

/-- The escape of a character that has a short one: the character after the backslash. -/
def shortEscape? : Char → Option Char
  | '\\' => some '\\'
  | '"' => some '"'
  | '\n' => some 'n'
  | '\r' => some 'r'
  | '\t' => some 't'
  | '\x08' => some 'b'
  | '\x0c' => some 'f'
  | _ => none

/-- Whether a character without a short escape has to be written by its code. -/
def needsCode (c : Char) : Bool :=
  c.toNat < 0x20 || c.toNat == 0x7f || c.toNat == 0x2028 || c.toNat == 0x2029

/-- One character as it is written between the quotes. -/
def encodeChar (c : Char) : List Char :=
  match shortEscape? c with
  | some e => ['\\', e]
  | none => if needsCode c then '\\' :: 'u' :: Text.hexDigits c.toNat 4 else [c]

/-- What stands between the quotes of the literal for a text. -/
def encode (s : List Char) : List Char :=
  s.flatMap encodeChar

/-- The literal for a text, quotes included. -/
def quoteChars (s : List Char) : List Char :=
  '"' :: encode s ++ ['"']

/-- The literal for a text, quotes included. -/
def quote (s : String) : String :=
  String.ofList (quoteChars s.toList)

end TextProviders.Literal
