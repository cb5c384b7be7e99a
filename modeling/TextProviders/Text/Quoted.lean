import TextProviders.Text.Code
import TextProviders.Text.Digit
import TextProviders.Text.Printable

/-!
Texts and byte strings as messages quote them.

Single quotes stand around, or double quotes if the text holds a single quote and no double one.
The quote that stands around and the backslash are escaped, as are tab and line ends; what has no
printed form is written by its code.  A text is given by its code points, so that it may hold a
surrogate, which no character is.
-/

namespace TextProviders.Text

/-- The quote that stands around a text with these code points. -/
def quoteFor (codes : List Nat) : Char :=
  if codes.contains '\''.toNat && !codes.contains '"'.toNat then '"' else '\''

/-- A code point by its number, with as many digits as it needs of two, four and eight. -/
def numberedCode (n : Nat) : List Char :=
  if n < 0x100 then '\\' :: 'x' :: hexDigits n 2
  else if n < 0x10000 then '\\' :: 'u' :: hexDigits n 4
  else '\\' :: 'U' :: hexDigits n 8

/-- A code point inside quotes, except where it stands for itself. -/
def escapedCode? (quote : Char) (n : Nat) : Option (List Char) :=
  if n = quote.toNat then some ['\\', quote]
  else if n = '\\'.toNat then some ['\\', '\\']
  else if n = '\t'.toNat then some ['\\', 't']
  else if n = '\n'.toNat then some ['\\', 'n']
  else if n = '\r'.toNat then some ['\\', 'r']
  else none

/-- A code point of a text inside quotes. -/
def quotedCode (quote : Char) (n : Nat) : List Char :=
  (escapedCode? quote n).getD <|
    if n.isValidChar && isPrintable (Char.ofNat n) then [Char.ofNat n] else numberedCode n

/-- The quoted form of a text given by code points. -/
def quotedCodes (codes : List Nat) : String :=
  let quote := quoteFor codes
  String.ofList (quote :: codes.flatMap (quotedCode quote) ++ [quote])

/-- The quoted form of a text. -/
def quoted (s : String) : String :=
  quotedCodes (codes s.toList)

/-- A byte inside quotes: as its ASCII character if that has a printed form. -/
def quotedByte (quote : Char) (n : Nat) : List Char :=
  (escapedCode? quote n).getD <| if 0x20 ≤ n && n < 0x7f then [Char.ofNat n] else numberedCode n

/-- The quoted form of a byte string, marked with a letter. -/
def quotedBytes (bytes : List UInt8) : String :=
  let codes := bytes.map UInt8.toNat
  let quote := quoteFor codes
  String.ofList ('b' :: quote :: codes.flatMap (quotedByte quote) ++ [quote])

end TextProviders.Text
