import TextProviders.Literal

/-!
# How a string literal is read

The generated sources are Java, and a compiler of Java reads them in two phases.

1. Unicode escapes are translated, wherever in the source they stand: a backslash, one or more `u`
   and four hexadecimal digits become one UTF-16 code unit, provided that an even number of
   backslashes stands just before the backslash.  Every other character becomes its own code units.
   `translate` is this phase; it refuses a source in which an escape lacks its digits.
2. A string literal is read off the code units.  It runs from a quote to the next quote that is no
   part of an escape, on one line, and three quotes open a text block instead.  `readLiteral` is
   this phase, with the short escapes and the octal ones.

The value of a literal is a sequence of code units; `value?` gives it as the text that it encodes.
-/

namespace TextProviders.Literal

/-! ## Code units -/

/-- The UTF-16 code units of a character. -/
def units (c : Char) : List Nat :=
  if c.toNat < 0x10000 then [c.toNat]
  else [0xd800 + (c.toNat - 0x10000) / 0x400, 0xdc00 + (c.toNat - 0x10000) % 0x400]

/-- The text of code units; there is none if a surrogate stands alone. -/
def ofUnits? : List Nat → Option (List Char)
  | [] => some []
  | [u] => if u.isValidChar then some [Char.ofNat u] else none
  | u :: v :: rest =>
    if 0xd800 ≤ u ∧ u < 0xdc00 ∧ 0xdc00 ≤ v ∧ v < 0xe000 then
      (ofUnits? rest).map (Char.ofNat (0x10000 + (u - 0xd800) * 0x400 + (v - 0xdc00)) :: ·)
    else if u.isValidChar then (ofUnits? (v :: rest)).map (Char.ofNat u :: ·)
    else none

/-! ## The first phase -/

/-- The code unit of a Unicode escape, read behind its backslash and first `u`, and the text after
the escape. -/
def readUnit? : List Char → Option (Nat × List Char)
  | 'u' :: rest => readUnit? rest
  | a :: b :: c :: d :: rest => (Text.digitsValue? 16 [a, b, c, d]).map (·, rest)
  | _ => none

theorem length_of_readUnit? {s after : List Char} {u : Nat} (h : readUnit? s = some (u, after)) :
    after.length < s.length := by
  fun_induction readUnit? s with
  | case1 rest ih =>
      have := ih h
      simp only [List.length_cons]
      omega
  | case2 a b c d rest _ =>
      obtain ⟨_, -, hpair⟩ := Option.map_eq_some_iff.mp h
      cases hpair
      simp only [List.length_cons]
      omega
  | case3 => cases h

/-- The code units of a source, its Unicode escapes translated.  The flag says that an odd number of
backslashes stands just before. -/
def translate (odd : Bool) : List Char → Option (List Nat)
  | [] => some []
  | '\\' :: 'u' :: rest =>
    if odd then (translate false rest).map ([0x5c, 0x75] ++ ·)
    else
      match _h : readUnit? rest with
      | none => none
      | some (u, after) => (translate false after).map (u :: ·)
  | c :: rest => (translate (if c = '\\' then !odd else false) rest).map (units c ++ ·)
termination_by s => s.length
decreasing_by
  · simp only [List.length_cons]; omega
  · have := length_of_readUnit? _h
    simp only [List.length_cons]
    omega
  · simp only [List.length_cons]; omega

/-! ## The second phase -/

/-- What an escape with one character after the backslash stands for. -/
def shortValue? : Nat → Option Nat
  | 0x62 => some 0x08
  | 0x73 => some 0x20
  | 0x74 => some 0x09
  | 0x6e => some 0x0a
  | 0x66 => some 0x0c
  | 0x72 => some 0x0d
  | 0x22 => some 0x22
  | 0x27 => some 0x27
  | 0x5c => some 0x5c
  | _ => none

/-- Whether a code unit is an octal digit. -/
def isOctal (u : Nat) : Bool :=
  0x30 ≤ u && u ≤ 0x37

/-- Goes on with an octal escape: the digits that may still follow are taken for as long as the value
is that of a byte. -/
def readOctal (sum : Nat) : Nat → List Nat → Nat × List Nat
  | more + 1, u :: rest =>
    if isOctal u ∧ sum * 8 + (u - 0x30) ≤ 0xff then readOctal (sum * 8 + (u - 0x30)) more rest
    else (sum, u :: rest)
  | _, rest => (sum, rest)

/-- What an escape stands for, read behind its backslash, and what follows it. -/
def readEscape? : List Nat → Option (Nat × List Nat)
  | [] => none
  | u :: rest =>
    match shortValue? u with
    | some v => some (v, rest)
    | none => if isOctal u then some (readOctal (u - 0x30) 2 rest) else none

theorem length_readOctal (sum more : Nat) (us : List Nat) :
    (readOctal sum more us).2.length ≤ us.length := by
  fun_induction readOctal sum more us with
  | case1 _ _ _ _ _ ih => exact Nat.le_succ_of_le ih
  | case2 => exact Nat.le_refl _
  | case3 => exact Nat.le_refl _

theorem length_of_readEscape? {us after : List Nat} {v : Nat}
    (h : readEscape? us = some (v, after)) : after.length < us.length := by
  unfold readEscape? at h
  split at h
  · cases h
  · next u rest =>
    split at h
    · cases h; exact Nat.lt_succ_self _
    · split at h
      · have := length_readOctal (u - 0x30) 2 rest
        rw [Option.some.inj h] at this
        exact Nat.lt_succ_of_le this
      · cases h

/-- What stands before the closing quote of a literal, its escapes read, and what follows the quote.
A line end may not come first. -/
def readBody (us : List Nat) : Option (List Nat × List Nat) :=
  match us with
  | [] => none
  | u :: rest =>
    if u = 0x22 then some ([], rest)
    else if u = 0x0a ∨ u = 0x0d then none
    else if u = 0x5c then
      match _h : readEscape? rest with
      | none => none
      | some (v, after) => (readBody after).map fun (vs, behind) => (v :: vs, behind)
    else (readBody rest).map fun (vs, behind) => (u :: vs, behind)
termination_by us.length
decreasing_by
  · have := length_of_readEscape? _h
    simp only [List.length_cons]
    omega
  · exact Nat.lt_succ_self _

/-- The value of the literal that code units start with, and what follows the literal. -/
def readLiteral : List Nat → Option (List Nat × List Nat)
  | 0x22 :: 0x22 :: 0x22 :: _ => none
  | 0x22 :: rest => readBody rest
  | _ => none

/-- The text that a string literal denotes: there is one if the source is that literal and nothing
else. -/
def value? (literal : List Char) : Option (List Char) :=
  match translate false literal with
  | none => none
  | some us =>
    match readLiteral us with
    | some (body, []) => ofUnits? body
    | _ => none

end TextProviders.Literal
