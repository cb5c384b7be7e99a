import TextProviders.Declaration
import TextProviders.Document.Load
import TextProviders.Path
import TextProviders.Text.Word

/-!
Manifests: documents that list declarations.

A manifest is a mapping; its entry for the declarations is a list of mappings, each with the name
of a type and, where it does not keep to the standard, a visibility, an extension and a flag.  The
first entry at fault decides.  A name may end in one line feed.
-/

namespace TextProviders

open Document (Containers Value)

/-! ## Names -/

/-- Whether a character can start a segment of a name. -/
def isNameStart (c : Char) : Bool :=
  c.isAlpha || c == '_' || c == '$'

/-- Whether a text is a segment of a name. -/
def isNameSegment : List Char → Bool
  | [] => false
  | c :: rest => isNameStart c && rest.all fun d => Text.isWord d || d == '$'

/-- Whether a text is a dotted name. -/
def isDottedName (s : List Char) : Bool :=
  (Text.splitOn '.' s).all isNameSegment

/-- Whether a text is accepted as the name of a type: a dotted name, with a line feed after it or
without. -/
def isTypeName (s : List Char) : Bool :=
  isDottedName s || (s.getLast? == some '\n' && isDottedName s.dropLast)

/-! ## Faults -/

/-- Why an entry is no declaration. -/
inductive EntryFault where
  | notMapping
  /-- The name is none; with its text. -/
  | name (shown : String)
  /-- The visibility of a type is none; with its text. -/
  | visibility (type shown : String)
  | flag (type : String)
  /-- A text would have to show an integer that is too long to be written. -/
  | unwritable
deriving DecidableEq, Repr

/-- The words for why an entry is no declaration; the index is that of the entry. -/
def EntryFault.message (index : Int) : EntryFault → String
  | notMapping => "declarations[" ++ toString index ++ "]: expected a mapping"
  | name shown => "declarations[" ++ toString index ++ "]: invalid type name " ++ shown
  | visibility type shown =>
    type ++ ": unknown visibility '" ++ shown ++ "'. Valid: " ++
      ", ".intercalate (Visibility.levels.map Visibility.word)
  | flag type => type ++ ": normalize_space must be true or false"
  | unwritable => Numeral.limitMessage ""

/-- The kind of a fault of an entry. -/
def EntryFault.kind : EntryFault → FailureKind
  | unwritable => .value
  | _ => .manifest

/-- Why a document is no manifest. -/
inductive ManifestFault where
  | document (f : Document.Fault)
  | notMapping
  | notList
  | entry (index : Nat) (f : EntryFault)
deriving DecidableEq, Repr

/-- The kind of a fault of a manifest. -/
def ManifestFault.kind : ManifestFault → FailureKind
  | document f => f.kind?.getD .manifest
  | entry _ f => f.kind
  | _ => .manifest

/-- The words for why the document at a path is no manifest; a document that is malformed has
none. -/
def ManifestFault.message? (path : Path) : ManifestFault → Option String
  | document f => f.kind?.map fun _ => f.message
  | notMapping => some (path.text ++ " is not a YAML mapping")
  | notList => some (path.text ++ ": 'declarations' must be a list")
  | entry index f => some (f.message index)

/-! ## Reading -/

/-- A fault whose words show a text, unless there is none. -/
def showing (shown : Option String) (f : String → EntryFault) : EntryFault :=
  match shown with
  | some text => f text
  | none => .unwritable

/-- The name that an entry gives. -/
def entryName (cs : Containers) (entries : List (Value × Value)) : Except EntryFault String :=
  let v := (Value.lookup entries "name").getD .null
  match v with
  | .text s => if isTypeName s.toList then .ok s else .error (showing (v.described? cs) .name)
  | v => .error (showing (v.described? cs) .name)

/-- The level that a value names. -/
def levelOf? : Value → Option Visibility
  | .text s => Visibility.levels.find? fun level => level.word == s
  | _ => none

/-- The visibility that an entry gives; without one everyone may use the type. -/
def entryVisibility (cs : Containers) (name : String) (entries : List (Value × Value)) :
    Except EntryFault Visibility :=
  match Value.lookup entries "visibility" with
  | none => .ok .everyone
  | some v =>
    match levelOf? v with
    | some level => .ok level
    | none => .error (showing (v.plain? cs) (.visibility name))

/-- Whether an entry asks for collapsed white space. -/
def entryFlag (name : String) (entries : List (Value × Value)) : Except EntryFault Bool :=
  match Value.lookup entries "normalize_space" with
  | none => .ok false
  | some (.flag b) => .ok b
  | some _ => .error (.flag name)

/-- The extension that an entry gives; an extension that is nothing is kept as an empty one. -/
def entryExtension (cs : Containers) (entries : List (Value × Value)) :
    Except EntryFault String :=
  match Value.lookup entries "file_extension" with
  | none => .ok "txt"
  | some .null => .ok ""
  | some v =>
    match v.plain? cs with
    | some text => .ok text
    | none => .error .unwritable

/-- The declaration that an entry makes. -/
def parseEntry (cs : Containers) (entry : Value) : Except EntryFault Declaration :=
  match entry.entries? cs with
  | none => .error .notMapping
  | some entries =>
    match entryName cs entries with
    | .error f => .error f
    | .ok name =>
      match entryVisibility cs name entries with
      | .error f => .error f
      | .ok visibility =>
        match entryFlag name entries with
        | .error f => .error f
        | .ok flag =>
          match entryExtension cs entries with
          | .error f => .error f
          | .ok ext => .ok ⟨name, visibility, ⟨some ext, flag⟩⟩

/-- The declarations that entries make, counted from an index on. -/
def parseEntries (cs : Containers) (index : Nat) :
    List Value → Except ManifestFault (List Declaration)
  | [] => .ok []
  | entry :: rest =>
    match parseEntry cs entry with
    | .error f => .error (.entry index f)
    | .ok d => (parseEntries cs (index + 1) rest).map (d :: ·)

namespace Manifest

/-- The declarations that the value of a document lists. -/
def ofValue (cs : Containers) (v : Value) : Except ManifestFault (List Declaration) :=
  match v.entries? cs with
  | none => .error .notMapping
  | some entries =>
    let listed := (Value.lookup entries "declarations").getD .null
    if listed.isVoid cs then .ok []
    else
      match listed.items? cs with
      | some items => parseEntries cs 0 items
      | none => .error .notList

/-- The declarations that the bytes of a manifest list. -/
def ofBytes (bytes : List UInt8) : Except ManifestFault (List Declaration) :=
  match Document.load (.ofBytes bytes) with
  | .error f => .error (.document f)
  | .ok (cs, v) => ofValue cs v

end Manifest

end TextProviders
