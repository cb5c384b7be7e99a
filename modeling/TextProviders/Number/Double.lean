/-!
Binary floating-point numbers of double precision, as exact values.

A finite number is a mantissa below 2^53 times a power of two no smaller than 2^-1074.  `ofRatio`
rounds a ratio to the nearest such number, and to the one with the even mantissa if two are equally
near; all arithmetic is the exact result, rounded once.
-/

namespace TextProviders

/-- A number of double precision. -/
inductive Double where
  | finite (negative : Bool) (mantissa : Nat) (exponent : Int)
  | infinite (negative : Bool)
  | notANumber
deriving DecidableEq, Repr

namespace Double

/-- The smallest exponent of a finite number. -/
def minExponent : Int := -1074

/-- The greatest exponent of a finite number. -/
def maxExponent : Int := 971

/-- Mantissas lie below this bound. -/
def mantissaBound : Nat := Nat.pow 2 53

/-- A ratio divided by a power of two. -/
def scaled (num den : Nat) (exponent : Int) : Nat × Nat :=
  if 0 ≤ exponent then (num, den * Nat.pow 2 exponent.toNat)
  else (num * Nat.pow 2 (-exponent).toNat, den)

/-- The integer nearest to a ratio, and the even one of two that are equally near. -/
def roundEven (num den : Nat) : Nat :=
  let low := num / den
  let rest := num % den
  if 2 * rest < den || (2 * rest == den && low % 2 == 0) then low else low + 1

/-- The exponent at which a ratio has a mantissa of full length, or the smallest exponent if there
is none. -/
def exponentOf (num den : Nat) : Int :=
  let guess : Int := (num.log2 : Int) - den.log2 - 53
  let (n, d) := scaled num den guess
  max (if mantissaBound * d ≤ n then guess + 1 else guess) minExponent

/-- The number nearest to a ratio, with a sign. -/
def ofRatio (negative : Bool) (num den : Nat) : Double :=
  if num = 0 then finite negative 0 minExponent
  else
    let e := exponentOf num den
    let (n, d) := scaled num den e
    let m := roundEven n d
    let (m, e) := if m = mantissaBound then (m / 2, e + 1) else (m, e)
    if maxExponent < e then infinite negative else finite negative m e

/-- The number nearest to a decimal: digits, and the power of ten that they are taken times. -/
def ofDecimal (negative : Bool) (digits : Nat) (power : Int) : Double :=
  if 0 ≤ power then ofRatio negative (digits * Nat.pow 10 power.toNat) 1
  else ofRatio negative digits (Nat.pow 10 (-power).toNat)

/-- The number nearest to a natural number. -/
def ofNat (n : Nat) : Double :=
  ofRatio false n 1

/-- Zero, without a sign. -/
def zero : Double :=
  finite false 0 minExponent

/-- The magnitude of a finite number as a ratio. -/
def ratio (mantissa : Nat) (exponent : Int) : Nat × Nat :=
  scaled mantissa 1 (-exponent)

/-- The number with its sign turned. -/
def neg : Double → Double
  | finite s m e => finite (!s) m e
  | infinite s => infinite (!s)
  | notANumber => notANumber

/-- The product of two numbers. -/
def mul : Double → Double → Double
  | notANumber, _ => notANumber
  | _, notANumber => notANumber
  | infinite s, infinite t => infinite (s != t)
  | infinite s, finite t m _ => if m = 0 then notANumber else infinite (s != t)
  | finite s m _, infinite t => if m = 0 then notANumber else infinite (s != t)
  | finite s m e, finite t n f =>
    let (num, den) := ratio (m * n) (e + f)
    ofRatio (s != t) num den

/-- An integer with a sign and a magnitude. -/
def signed (negative : Bool) (n : Nat) : Int :=
  if negative then -n else n

/-- The sum of two numbers. -/
def add : Double → Double → Double
  | notANumber, _ => notANumber
  | _, notANumber => notANumber
  | infinite s, infinite t => if s = t then infinite s else notANumber
  | infinite s, finite _ _ _ => infinite s
  | finite _ _ _, infinite t => infinite t
  | finite s m e, finite t n f =>
    let (a, b) := ratio m e
    let (c, d) := ratio n f
    let sum := signed s (a * d) + signed t (c * b)
    ofRatio (if sum = 0 then s && t else sum < 0) sum.natAbs (b * d)

/-- The magnitude of a finite number without its fraction. -/
def floor : Double → Nat
  | finite _ m e =>
    let (num, den) := ratio m e
    num / den
  | _ => 0

/-- The integer that a number is, if it is one. -/
def toInt? : Double → Option Int
  | finite s m e =>
    let (num, den) := ratio m e
    if num % den = 0 then some (signed s (num / den)) else none
  | _ => none

end Double

end TextProviders
