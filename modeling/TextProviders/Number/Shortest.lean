import TextProviders.Number.Double

/-!
The shortest decimal text of a number.

Of the decimals that read back as the number, those with the fewest digits are taken, and of these
the nearest.  On the grid of decimals with a given count of digits only the two neighbours of the
number need to be tried.  Seventeen digits always suffice.  Numbers from 10^-4 to below 10^16 are
written positionally and keep a digit after the point; all others have an exponent of at least two
digits.
-/

namespace TextProviders.Double

/-- The least count of tenfold steps that bring a ratio to one or more; the count is bounded. -/
def stepsToOne (num den : Nat) : Nat → Nat
  | 0 => 0
  | bound + 1 => if den ≤ num then 0 else stepsToOne (num * 10) den bound + 1

/-- The power of ten of the first digit of a ratio. -/
def leadingPower (num den : Nat) : Int :=
  if den ≤ num then ((toString (num / den)).length : Int) - 1 else -(stepsToOne num den 400 : Int)

/-- A decimal: digits as a number, and the power of ten that they are taken times. -/
structure Decimal where
  digits : Nat
  power : Int
deriving DecidableEq, Repr

/-- The nearer neighbour of a number, then the other one, among the decimals at a power of ten; of
two equally near the even one comes first. -/
def neighbours (num den : Nat) (power : Int) : List Decimal :=
  let (n, d) :=
    if 0 ≤ power then (num, den * Nat.pow 10 power.toNat)
    else (num * Nat.pow 10 (-power).toNat, den)
  let near := roundEven n d
  let low := n / d
  [⟨near, power⟩, ⟨if near = low then low + 1 else low, power⟩]

/-- The nearest decimal with as many digits as given that reads back as a number. -/
def decimalOf? (mantissa : Nat) (exponent : Int) (count : Nat) : Option Decimal :=
  let (num, den) := ratio mantissa exponent
  let power := leadingPower num den - count + 1
  (neighbours num den power).find? fun c =>
    ofDecimal false c.digits c.power = finite false mantissa exponent

/-- The shortest decimal that reads back as a number. -/
def shortest (mantissa : Nat) (exponent : Int) : Decimal :=
  ((List.range' 1 17).findSome? (decimalOf? mantissa exponent)).getD ⟨0, 0⟩

/-- Digits without the zeros that they end in. -/
def withoutZeros (digits : List Char) : List Char :=
  (digits.reverse.dropWhile (· = '0')).reverse

/-- The text of digits whose point stands after the given count of them, which may be negative or
greater than their number. -/
def positional (digits : List Char) (point : Int) : List Char :=
  if point ≤ 0 then '0' :: '.' :: List.replicate (-point).toNat '0' ++ digits
  else
    let whole := digits.take point.toNat
    let part := digits.drop point.toNat
    whole ++ List.replicate (point.toNat - whole.length) '0' ++
      '.' :: (if part.isEmpty then ['0'] else part)

/-- The text of digits with one of them before the point, and an exponent. -/
def scientific (digits : List Char) (exponent : Int) : List Char :=
  let size := (toString exponent.natAbs).toList
  digits.take 1 ++ (if digits.length ≤ 1 then [] else '.' :: digits.drop 1) ++
    'e' :: (if exponent < 0 then '-' else '+') :: (if size.length < 2 then '0' :: size else size)

/-- The text of the magnitude of a finite number. -/
def magnitude (mantissa : Nat) (exponent : Int) : List Char :=
  if mantissa = 0 then "0.0".toList
  else
    let d := shortest mantissa exponent
    let all := (toString d.digits).toList
    let point : Int := all.length + d.power
    let digits := withoutZeros all
    if -4 < point && point ≤ 16 then positional digits point else scientific digits (point - 1)

/-- The shortest text that reads back as a number. -/
def text : Double → String
  | finite negative m e =>
    String.ofList (if negative then '-' :: magnitude m e else magnitude m e)
  | infinite negative => if negative then "-inf" else "inf"
  | notANumber => "nan"

end TextProviders.Double
