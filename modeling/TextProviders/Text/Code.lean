/-!
Texts as code points.

An escape can give a code point that no character has.  Where one can stand, a text is a list of
numbers.
-/

namespace TextProviders.Text

/-- The code points of characters. -/
def codes (s : List Char) : List Nat :=
  s.map Char.toNat

/-- A code point as a character; one that no character has becomes the replacement character, which
is no letter, digit, blank or mark. -/
def charOf (n : Nat) : Char :=
  if n.isValidChar then Char.ofNat n else Char.ofNat 0xfffd

/-- The characters of code points. -/
def charsOf (codes : List Nat) : List Char :=
  codes.map charOf

end TextProviders.Text
