/-!
White space: the class of blank characters, trimming, and the collapsed form of a text.

`collapse` writes one space for every maximal run of blanks, line ends included, and keeps every
other character.  `words` is the view that it preserves: the maximal runs of characters that are
not blank.
-/

namespace TextProviders.Text

/-- A white space character: the controls from tab to carriage return and from the file to the unit
separator, the next-line control, and the space separators of every script. -/
def isBlank (c : Char) : Bool :=
  let n := c.toNat
  (0x09 ≤ n && n ≤ 0x0d) || (0x1c ≤ n && n ≤ 0x20) || n == 0x85 || n == 0xa0 || n == 0x1680 ||
    (0x2000 ≤ n && n ≤ 0x200a) || n == 0x2028 || n == 0x2029 || n == 0x202f || n == 0x205f ||
    n == 0x3000

/-- The text without the blanks it starts with. -/
def trimStart (s : List Char) : List Char :=
  s.dropWhile isBlank

/-- The text without the blanks it ends with. -/
def trimEnd (s : List Char) : List Char :=
  (s.reverse.dropWhile isBlank).reverse

/-- The text without the blanks at either end. -/
def trim (s : List Char) : List Char :=
  trimEnd (trimStart s)

/-- The collapsed form of what follows; the flag says that a blank stands just before it, whose
run is written already. -/
def collapseAfter : Bool → List Char → List Char
  | _, [] => []
  | afterBlank, c :: rest =>
    if isBlank c then
      if afterBlank then collapseAfter true rest else ' ' :: collapseAfter true rest
    else c :: collapseAfter false rest

/-- Every run of blanks becomes one space. -/
def collapse (s : List Char) : List Char :=
  collapseAfter false s

/-- The text as the word that its first characters continue, and the words after it. -/
def wordsFrom : List Char → List Char × List (List Char)
  | [] => ([], [])
  | c :: rest =>
    let (word, more) := wordsFrom rest
    if isBlank c then ([], if word.isEmpty then more else word :: more) else (c :: word, more)

/-- The maximal runs of characters that are not blank, in order. -/
def words (s : List Char) : List (List Char) :=
  let (word, more) := wordsFrom s
  if word.isEmpty then more else word :: more

end TextProviders.Text
