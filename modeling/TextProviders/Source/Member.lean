import TextProviders.Declaration
import TextProviders.Text.Word

/-!
The members of the marker annotation.

Members are separated by commas; a comma may follow the last one.  Each has a key and a value.  The
value is a string literal if one stands there with nothing but white space before the next comma or
the end, and otherwise all that stands before the next comma.  Two keys are known, and of each the
last member counts.
-/

namespace TextProviders.Source

/-- What is wrong with annotation members. -/
inductive MemberFault where
  /-- No key and equals sign stand where a member should; all members are given. -/
  | unreadable (members : String)
  | extensionNotLiteral (value : String)
  | flagNotBoolean (value : String)
  | unknownKey (key : String)
deriving DecidableEq, Repr

/-- The words for what is wrong. -/
def MemberFault.message : MemberFault → String
  | unreadable members => "cannot read annotation arguments '" ++ members ++ "'"
  | extensionNotLiteral value => "fileExtension must be a string literal, not '" ++ value ++ "'"
  | flagNotBoolean value => "normalizeSpace must be true or false, not '" ++ value ++ "'"
  | unknownKey key => "unknown annotation member '" ++ key ++ "'"

/-- What stands before and after the closing quote of a literal, which may go over lines; a
backslash takes the next character with it, but no line end. -/
def literalBody? : List Char → Option (List Char × List Char)
  | [] => none
  | '\\' :: c :: rest =>
    if c = '\n' then none
    else (literalBody? rest).map fun (body, after) => ('\\' :: c :: body, after)
  | c :: rest =>
    if c = '"' then some ([], rest)
    else if c = '\\' then none
    else (literalBody? rest).map fun (body, after) => (c :: body, after)

/-- The contents of a text that is one string literal. -/
def literalContents? : List Char → Option (List Char)
  | '"' :: rest =>
    match literalBody? rest with
    | some (body, []) => some body
    | _ => none
  | _ => none

/-- What follows a value and the white space after it: what stands after the comma, or the end. -/
def afterValue? (s : List Char) : Option (List Char) :=
  match Text.trimStart s with
  | [] => some []
  | ',' :: rest => some rest
  | _ => none

/-- The literal that a text starts with, quotes included, if the value ends with it, and what
follows the comma. -/
def literalValue? : List Char → Option (List Char × List Char)
  | '"' :: rest =>
    match literalBody? rest with
    | none => none
    | some (body, after) =>
      (afterValue? after).map fun next => ('"' :: body ++ ['"'], next)
  | _ => none

/-- All that stands before the next comma, and what follows the comma. -/
def plainValue (s : List Char) : List Char × List Char :=
  (Text.trimEnd (s.takeWhile (· ≠ ',')), (s.dropWhile (· ≠ ',')).drop 1)

/-- The key and the value that a text starts with, and what follows the comma. -/
def memberAt? (s : List Char) : Option (List Char × List Char × List Char) :=
  let s := Text.trimStart s
  let key := s.takeWhile Text.isWord
  if key.isEmpty then none
  else
    match Text.trimStart (s.drop key.length) with
    | '=' :: rest =>
      let rest := Text.trimStart rest
      let (value, next) := (literalValue? rest).getD (plainValue rest)
      some (key, value, next)
    | _ => none

/-- A binding with a member added. -/
def addMember (b : Binding) (key value : List Char) : Except MemberFault Binding :=
  if key = "fileExtension".toList then
    match literalContents? value with
    | none => .error (.extensionNotLiteral (String.ofList value))
    | some contents => .ok { b with fileExtension := some (String.ofList contents) }
  else if key = "normalizeSpace".toList then
    if value = "true".toList then .ok { b with normalizeSpace := true }
    else if value = "false".toList then .ok { b with normalizeSpace := false }
    else .error (.flagNotBoolean (String.ofList value))
  else .error (.unknownKey (String.ofList key))

/-- Adds the members of a text to a binding, at most as many as the count allows; there are never
more members than characters. -/
def addMembers (all : List Char) : Nat → List Char → Binding → Except MemberFault Binding
  | 0, _, b => .ok b
  | count + 1, s, b =>
    if s.all Text.isBlank then .ok b
    else
      match memberAt? s with
      | none => .error (.unreadable (String.ofList (Text.trim all)))
      | some (key, value, next) =>
        match addMember b key value with
        | .error f => .error f
        | .ok b => addMembers all count next b

/-- The binding that annotation members make. -/
def parseMembers (members : List Char) : Except MemberFault Binding :=
  addMembers members (members.length + 1) members {}

end TextProviders.Source
