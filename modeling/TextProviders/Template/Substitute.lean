import TextProviders.Literal

/-!
Placeholders and their replacement.

A template is walked once from the left.  Where bound tokens start, the longest of them gives way
to its value and the walk goes on behind it; inserted values are not looked at again.  The empty
token, if it is bound, is found wherever no other one is: before each character that is copied, and
at the end.
-/

namespace TextProviders.Template

/-- A placeholder and the text that takes its place. -/
structure Binding where
  token : String
  value : String
deriving DecidableEq, Repr

/-- The placeholder for the resource's text, which is written as a string literal. -/
def textToken : String := "$TEXT"

/-- What is written where the placeholder stands: the value, quoted for the resource's text. -/
def Binding.written (b : Binding) : List Char :=
  if b.token = textToken then Literal.quoteChars b.value.toList else b.value.toList

/-- The bindings with longer tokens before shorter ones, otherwise in their order. -/
def longestFirst (bindings : List Binding) : List Binding :=
  bindings.mergeSort fun a b => b.token.length ≤ a.token.length

/-- The first binding in the list, of those with a token, whose token a text starts with. -/
def bindingAt? (bindings : List Binding) (s : List Char) : Option Binding :=
  bindings.find? fun b => !b.token.isEmpty && b.token.toList.isPrefixOf s

/-- What the empty token is replaced by; nothing if it is not bound. -/
def emptyTokenText (bindings : List Binding) : List Char :=
  ((bindings.find? fun b => b.token.isEmpty).map (·.written)).getD []

/-- The walk over a template, with the number of characters that still belong to the token just
replaced. -/
def replaceFrom (bindings : List Binding) : Nat → List Char → List Char
  | _, [] => emptyTokenText bindings
  | skip + 1, _ :: rest => replaceFrom bindings skip rest
  | 0, c :: rest =>
    match bindingAt? bindings (c :: rest) with
    | some b => b.written ++ replaceFrom bindings (b.token.length - 1) rest
    | none => emptyTokenText bindings ++ c :: replaceFrom bindings 0 rest

/-- A template with its placeholders replaced. -/
def substitute (template : String) (bindings : List Binding) : String :=
  String.ofList (replaceFrom (longestFirst bindings) 0 template.toList)

end TextProviders.Template
