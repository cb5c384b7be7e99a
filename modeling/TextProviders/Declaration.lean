import TextProviders.Text.Blank
import TextProviders.Text.Split

/-!
Marked declarations: the types that ask for providers of a text resource.

A declaration names a type by its dotted name, and binds it to a resource beside it that has the
type's simple name and the binding's extension.
-/

namespace TextProviders

/-- Who may use a type: the four levels of the language, or a word that is none of them. -/
inductive Visibility where
  | everyone
  | subtypes
  | enclosing
  | package
  | unknown (word : String)
deriving DecidableEq, Repr

namespace Visibility

/-- The word a level is declared with. -/
def word : Visibility → String
  | everyone => "public"
  | subtypes => "protected"
  | enclosing => "private"
  | package => "default"
  | unknown word => word

/-- The levels that have a word, in the order in which they are listed. -/
def levels : List Visibility := [everyone, subtypes, enclosing, package]

/-- The level that a word stands for. -/
def ofWord (word : String) : Visibility :=
  (levels.find? fun level => level.word == word).getD (unknown word)

/-- The modifier a provider of that visibility carries; none for types visible in their package. -/
def keyword : Visibility → String
  | everyone => "public"
  | subtypes => "protected"
  | enclosing => "private"
  | package => ""
  | unknown _ => ""

/-- The modifier with the space that follows it. -/
def modifier (v : Visibility) : String :=
  if v.keyword.isEmpty then "" else v.keyword ++ " "

@[simp] theorem word_ofWord (w : String) : (ofWord w).word = w := by
  unfold ofWord
  cases h : levels.find? fun level => level.word == w with
  | none => rfl
  | some level => simpa using List.find?_some h

end Visibility

/-- The resource that a type is bound to. -/
structure Binding where
  /-- The extension as it was declared, if any was. -/
  fileExtension : Option String := some "txt"
  /-- Whether runs of white space in the embedded text become one space. -/
  normalizeSpace : Bool := false
deriving DecidableEq, Repr

/-- The extension proper: without the white space around it and without one leading dot. -/
def extensionChars (declared : List Char) : List Char :=
  match Text.trim declared with
  | '.' :: rest => rest
  | trimmed => trimmed

/-- The extension proper; `none` if nothing is left of it. -/
def Binding.extension? (b : Binding) : Option String :=
  let proper := extensionChars (b.fileExtension.getD "").toList
  if proper.isEmpty then none else some (String.ofList proper)

/-- A type that asks for providers. -/
structure Declaration where
  /-- The dotted name of the type. -/
  name : String
  visibility : Visibility := .everyone
  binding : Binding := {}
deriving DecidableEq, Repr

namespace Declaration

/-- The dotted name of the package; empty for a type that is in none. -/
def package (d : Declaration) : String :=
  String.ofList (Text.splitLast '.' d.name.toList).1

/-- The name of the type within its package. -/
def simpleName (d : Declaration) : String :=
  String.ofList (Text.splitLast '.' d.name.toList).2

/-- The file name of the bound resource; `none` if the binding has no extension. -/
def resourceName? (d : Declaration) : Option String :=
  d.binding.extension?.map fun ext => d.simpleName ++ "." ++ ext

end Declaration

end TextProviders
