import TextProviders.Number.Double
import TextProviders.Text.Blank
import TextProviders.Text.Quoted

/-!
Reading numerals, which are given by their code points.

White space around a numeral is passed over, digits of every script count, and a sign may stand in
front.  An integer may have single low lines between its digits, and in bases two, eight and sixteen
the customary mark of the base.  A real may have a point and an exponent, or be a word for infinity
or for no number.
-/

namespace TextProviders.Numeral

/-- Why a text is no numeral. -/
inductive Fault where
  | notInteger (base : Nat) (codes : List Nat)
  /-- The numeral has more decimal digits than are read. -/
  | tooLong (digits : Nat)
  | notReal (codes : List Nat)
deriving DecidableEq, Repr

/-- The most digits that a decimal integer may have. -/
def maxDigits : Nat := 4300

/-- What is said about an integer with too many digits, after the count of them where it is told. -/
def limitMessage (counted : String) : String :=
  "Exceeds the limit (" ++ toString maxDigits ++ " digits) for integer string conversion" ++
    counted ++ "; use sys.set_int_max_str_digits() to increase the limit"

/-- The words for why a text is no numeral; of a long text only the beginning is quoted. -/
def Fault.message : Fault → String
  | notInteger base codes =>
    "invalid literal for int() with base " ++ toString base ++ ": " ++
      String.ofList ((Text.quotedCodes codes).toList.take 200)
  | tooLong digits => limitMessage (": value has " ++ toString digits ++ " digits")
  | notReal codes => "could not convert string to float: " ++ Text.quotedCodes codes

/-- A character with digits and blanks of other scripts replaced by those of ASCII. -/
def toAscii (c : Char) : Char :=
  if c.toNat < 0x80 then c
  else if Text.isBlank c then ' '
  else
    match Text.digitValue? c with
    | some n => Char.ofNat (0x30 + n)
    | none => c

/-- White space in ASCII: from tab to carriage return, and the space. -/
def isAsciiBlank (c : Char) : Bool :=
  c == ' ' || (0x09 ≤ c.toNat && c.toNat ≤ 0x0d)

/-- A numeral in ASCII, without the white space in front of it. -/
def proper (codes : List Nat) : List Char :=
  ((Text.charsOf codes).map toAscii).dropWhile isAsciiBlank

/-- The sign in front of a numeral, and what follows it. -/
def splitSign : List Char → Bool × List Char
  | '-' :: rest => (true, rest)
  | '+' :: rest => (false, rest)
  | s => (false, s)

/-! ## Integers -/

/-- The value of a digit in bases up to sixteen, in ASCII only. -/
def digitIn? (base : Nat) (c : Char) : Option Nat :=
  (Text.hexValue? c).filter (· < base)

/-- What follows the mark of a base, where one stands; a low line may come after the mark. -/
def afterMark (base : Nat) (s : List Char) : List Char :=
  let marked : List Char :=
    if base = 2 then ['b', 'B'] else if base = 8 then ['o', 'O'] else
      if base = 16 then ['x', 'X'] else []
  match s with
  | '0' :: c :: rest =>
    if marked.contains c then
      match rest with
      | '_' :: rest => rest
      | rest => rest
    else s
  | _ => s

/-- The digits of a numeral with single low lines between them; the flag says that a digit stands
just before. -/
def digitsFrom? (base : Nat) : Bool → List Char → Option (List Nat)
  | afterDigit, [] => if afterDigit then some [] else none
  | afterDigit, c :: rest =>
    if c = '_' then if afterDigit then digitsFrom? base false rest else none
    else
      match digitIn? base c with
      | none => none
      | some d => (digitsFrom? base true rest).map (d :: ·)

/-- The number that digits make. -/
def value (base : Nat) (digits : List Nat) : Nat :=
  digits.foldl (fun n d => n * base + d) 0

/-- The integer that a numeral stands for.  Digits are counted before what follows them is looked
at. -/
def readInteger (base : Nat) (codes : List Nat) : Except Fault Int :=
  let (negative, body) := splitSign (proper codes)
  let body := afterMark base body
  let run := body.takeWhile fun c => c == '_' || (digitIn? base c).isSome
  match digitsFrom? base false run with
  | none => .error (.notInteger base codes)
  | some digits =>
    if base = 10 && maxDigits < digits.length then .error (.tooLong digits.length)
    else if (body.drop run.length).all isAsciiBlank then
      .ok (Double.signed negative (value base digits))
    else .error (.notInteger base codes)

/-! ## Reals -/

/-- The number of digits on both sides of a point, taken times a power of ten.  Powers that are out
of all range are cut, since they make zero or infinity whatever the digits. -/
def ofParts (negative : Bool) (whole part : List Char) (power : Int) : Double :=
  let digits := (whole ++ part).dropWhile (· = '0')
  let n := value 10 (digits.map fun c => c.toNat - 0x30)
  let power := power - part.length
  let top := power + digits.length
  if n = 0 then Double.ofRatio negative 0 1
  else if 400 < top then .infinite negative
  else if top < -400 then Double.ofRatio negative 0 1
  else Double.ofDecimal negative n power

/-- The exponent that ends a real; zero where none stands. -/
def exponent? : List Char → Option Int
  | [] => some 0
  | c :: rest =>
    if c = 'e' || c = 'E' then
      let (negative, digits) := splitSign rest
      if digits.isEmpty || !digits.all Char.isDigit then none
      else some (Double.signed negative (value 10 (digits.map fun c => c.toNat - 0x30)))
    else none

/-- The magnitude of a real with a sign. -/
def unsigned? (negative : Bool) (s : List Char) : Option Double :=
  let whole := s.takeWhile Char.isDigit
  let rest := s.drop whole.length
  let (part, rest) :=
    match rest with
    | '.' :: rest => (rest.takeWhile Char.isDigit, rest.dropWhile Char.isDigit)
    | rest => ([], rest)
  if whole.isEmpty && part.isEmpty then none
  else (exponent? rest).map (ofParts negative whole part)

/-- The number that a numeral stands for. -/
def readReal (codes : List Nat) : Except Fault Double :=
  let (negative, body) := splitSign (proper codes)
  let body := (body.reverse.dropWhile isAsciiBlank).reverse
  let word := String.ofList (body.map Char.toLower)
  if word = "inf" || word = "infinity" then .ok (.infinite negative)
  else if word = "nan" then .ok .notANumber
  else
    match unsigned? negative body with
    | some x => .ok x
    | none => .error (.notReal codes)

end TextProviders.Numeral
