/-!
Bytes written in base 64.

Four characters carry three bytes.  Characters that are no digits are passed over; padding counts
only where it completes a group of four, and ends the data there.
-/

namespace TextProviders.Text.Base64

/-- The value of a digit. -/
def digit? (c : Char) : Option Nat :=
  if 'A' ≤ c && c ≤ 'Z' then some (c.toNat - 0x41)
  else if 'a' ≤ c && c ≤ 'z' then some (c.toNat - 0x61 + 26)
  else if c.isDigit then some (c.toNat - 0x30 + 52)
  else if c = '+' then some 62
  else if c = '/' then some 63
  else none

/-- How far a group of four digits has come: their count, the bits not yet written, and the padding
that stands directly before. -/
structure Group where
  digits : Nat := 0
  bits : Nat := 0
  padding : Nat := 0

/-- The group after one more digit, and the byte that the digit completes. -/
def Group.add (g : Group) (n : Nat) : Group × List UInt8 :=
  match g.digits with
  | 0 => (⟨1, n, 0⟩, [])
  | 1 => (⟨2, n % 16, 0⟩, [UInt8.ofNat (g.bits * 4 + n / 16)])
  | 2 => (⟨3, n % 4, 0⟩, [UInt8.ofNat (g.bits * 16 + n / 4)])
  | _ => (⟨0, 0, 0⟩, [UInt8.ofNat (g.bits * 64 + n)])

/-- The bytes that the rest of a text carries; `none` if the last group is not complete. -/
def decodeFrom : Group → List Char → Option (List UInt8)
  | g, [] => if g.digits = 0 then some [] else none
  | g, c :: rest =>
    if c = '=' then
      if g.digits < 2 then decodeFrom g rest
      else if 4 ≤ g.digits + g.padding + 1 then some []
      else decodeFrom { g with padding := g.padding + 1 } rest
    else
      match digit? c with
      | none => decodeFrom g rest
      | some n =>
        let (g, done) := g.add n
        (decodeFrom g rest).map (done ++ ·)

/-- The bytes that a text carries; `none` if the last group is not complete. -/
def decode (s : List Char) : Option (List UInt8) :=
  decodeFrom {} s

end TextProviders.Text.Base64
