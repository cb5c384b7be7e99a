/-!
The lexical parts of a source: comments, literals, and the characters of code between them.

A literal is a text block, a string or a character; what does not close is no literal, and its
quotes are code.  Each lexeme is seen in two ways, as code and masked.  In both a comment is one
space; what stands inside a literal is blanked in the masked view only.  The views are kept as one
list of cells, so that what is found in the masked view is read back from the code at its place.
-/

namespace TextProviders.Source

/-- A lexical part. -/
inductive Lexeme where
  | code (c : Char)
  /-- A literal: what stands around it, and what stands inside. -/
  | literal (quote : List Char) (body : List Char)
  | comment (text : List Char)
deriving DecidableEq, Repr

/-- A character of code, with the character that hides it in the masked view. -/
structure Cell where
  code : Char
  masked : Char
deriving DecidableEq, Repr

namespace Lexeme

/-- The characters of the source that a lexeme covers. -/
def source : Lexeme → List Char
  | code c => [c]
  | literal quote body => quote ++ body ++ quote
  | comment text => text

/-- The two views of a lexeme. -/
def cells : Lexeme → List Cell
  | code c => [⟨c, c⟩]
  | literal quote body =>
    quote.map (fun c => ⟨c, c⟩) ++ body.map (fun c => ⟨c, ' '⟩) ++ quote.map (fun c => ⟨c, c⟩)
  | comment _ => [⟨' ', ' '⟩]

end Lexeme

/-! ## Finding lexemes -/

/-- What stands before the first occurrence of a closing text; `none` if it does not occur. -/
def upTo? (close : List Char) : List Char → Option (List Char)
  | [] => none
  | c :: rest =>
    if close.isPrefixOf (c :: rest) then some [] else (upTo? close rest).map (c :: ·)

/-- What stands before the closing quote on the same line, where a backslash takes the next
character with it. -/
def quotedBody? (quote : Char) : List Char → Option (List Char)
  | [] => none
  | '\\' :: c :: rest =>
    if c = '\n' then none else (quotedBody? quote rest).map fun body => '\\' :: c :: body
  | c :: rest =>
    if c = quote then some []
    else if c = '\n' || c = '\\' then none
    else (quotedBody? quote rest).map (c :: ·)

/-- The text block that a source starts with. -/
def textBlockAt? (s : List Char) : Option Lexeme :=
  match s with
  | '"' :: '"' :: '"' :: rest =>
    (upTo? ['"', '"', '"'] rest).map (.literal ['"', '"', '"'])
  | _ => none

/-- The string that a source starts with. -/
def stringAt? (s : List Char) : Option Lexeme :=
  match s with
  | '"' :: rest => (quotedBody? '"' rest).map (.literal ['"'])
  | _ => none

/-- The character literal that a source starts with; it is not empty. -/
def characterAt? (s : List Char) : Option Lexeme :=
  match s with
  | '\'' :: rest =>
    match quotedBody? '\'' rest with
    | none => none
    | some [] => none
    | some body => some (.literal ['\''] body)
  | _ => none

/-- The comment that a source starts with: to the end of the line, or to its closing mark. -/
def commentAt? (s : List Char) : Option Lexeme :=
  match s with
  | '/' :: '/' :: rest => some (.comment ('/' :: '/' :: rest.takeWhile (· ≠ '\n')))
  | '/' :: '*' :: rest =>
    (upTo? ['*', '/'] rest).map fun body => .comment ('/' :: '*' :: body ++ ['*', '/'])
  | _ => none

/-- The literal or comment that a source starts with; text blocks come before strings. -/
def lexemeAt? (s : List Char) : Option Lexeme :=
  textBlockAt? s <|> stringAt? s <|> characterAt? s <|> commentAt? s

/-- The lexemes of a source, with the number of characters that still belong to the lexeme just
found. -/
def lexemesFrom : Nat → List Char → List Lexeme
  | _, [] => []
  | skip + 1, _ :: rest => lexemesFrom skip rest
  | 0, c :: rest =>
    match lexemeAt? (c :: rest) with
    | some l => l :: lexemesFrom (l.source.length - 1) rest
    | none => .code c :: lexemesFrom 0 rest

/-- The lexemes of a source. -/
def lexemes (s : List Char) : List Lexeme :=
  lexemesFrom 0 s

/-- The two views of a source, side by side. -/
def cells (s : List Char) : List Cell :=
  (lexemes s).flatMap Lexeme.cells

/-- The code of a source, without its comments. -/
def code (s : List Char) : List Char :=
  (cells s).map Cell.code

/-- The code of a source with the insides of its literals blanked. -/
def masked (s : List Char) : List Char :=
  (cells s).map Cell.masked

end TextProviders.Source
