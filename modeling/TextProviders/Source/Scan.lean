import TextProviders.Source.Mark

/-!
Scanning one source for marked types.

The types at the top level are found with their bindings; those inside braces are passed over.  The
first type whose annotation members are not well formed ends the scan.
-/

namespace TextProviders.Source

/-! ## The package -/

/-- The package that the masked view declares here, if it does. -/
def packageAt? (s : List Char) : Option (List Char) :=
  let s := Text.trimStart s
  if "package".toList.isPrefixOf s then
    let tail := s.drop "package".length
    let named := Text.trimStart tail
    let name := named.takeWhile isNameChar
    if named.length = tail.length || name.isEmpty then none
    else
      match Text.trimStart (named.drop name.length) with
      | ';' :: _ => some name
      | _ => none
  else none

/-- The package declared at the first line that declares one; the flag says whether a line starts
here. -/
def packageFrom? : Bool → List Char → Option (List Char)
  | lineStart, s =>
    match if lineStart then packageAt? s else none with
    | some name => some name
    | none =>
      match s with
      | [] => none
      | c :: rest => packageFrom? (c = '\n') rest

/-- The package of a source; empty if it declares none. -/
def packageOf (masked : List Char) : List Char :=
  (packageFrom? true masked).getD []

/-! ## The scan -/

/-- What the scan makes of a marked type. -/
inductive Finding where
  | declared (d : Declaration)
  /-- A type inside braces is passed over. -/
  | nested (name : String)
deriving DecidableEq, Repr

/-- The declaration of a finding. -/
def Finding.declaration? : Finding → Option Declaration
  | declared d => some d
  | nested _ => none

/-- A type whose annotation members are not well formed. -/
structure ScanFault where
  name : String
  fault : MemberFault
deriving DecidableEq, Repr

/-- The words about a source that cannot be scanned. -/
def ScanFault.message (origin : String) (f : ScanFault) : String :=
  origin ++ ": " ++ f.name ++ ": " ++ f.fault.message

/-- The dotted name of a type in a package. -/
def qualify (package name : List Char) : String :=
  String.ofList (if package.isEmpty then name else package ++ '.' :: name)

/-- What the scan makes of one mark. -/
def findingOf (package : List Char) (m : Mark) : Except ScanFault Finding :=
  if m.isNested then .ok (.nested (String.ofList m.name))
  else
    let name := qualify package m.name
    match parseMembers (m.arguments.map Cell.code) with
    | .error fault => .error ⟨name, fault⟩
    | .ok binding => .ok (.declared ⟨name, m.visibility, binding⟩)

/-- What a scan has found, and the fault that ended it, if one did. -/
structure ScanResult where
  findings : List Finding := []
  fault : Option ScanFault := none
deriving DecidableEq, Repr

/-- The findings of marks up to the first fault. -/
def findingsOf (package : List Char) : List Mark → ScanResult
  | [] => {}
  | m :: rest =>
    match findingOf package m with
    | .error fault => ⟨[], some fault⟩
    | .ok finding =>
      let more := findingsOf package rest
      ⟨finding :: more.findings, more.fault⟩

/-- Scans a source. -/
def scan (text : List Char) : ScanResult :=
  let cells := cells text
  findingsOf (packageOf (cells.map Cell.masked)) (marks cells)

/-- The declarations of a source, or the first fault. -/
def declarations (text : String) : Except ScanFault (List Declaration) :=
  let result := scan text.toList
  match result.fault with
  | some fault => .error fault
  | none => .ok (result.findings.filterMap Finding.declaration?)

end TextProviders.Source
