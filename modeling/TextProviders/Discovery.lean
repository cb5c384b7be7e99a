import TextProviders.FileSystem
import TextProviders.Generation.Failure
import TextProviders.Journal
import TextProviders.Manifest
import TextProviders.Source.Scan
import TextProviders.Text.Lines

/-!
Where declarations come from: the sources below some roots, or a manifest.

The sources of a root are read in the order of the names on their paths.  Of several declarations of
one name the first counts, and the result is sorted by name.
-/

namespace TextProviders

/-! ## Failures -/

/-- Why declarations could not be read. -/
inductive InputFailure where
  | access (f : AccessFailure)
  | undecodable (f : Text.Utf8.Fault)
  /-- A source has annotation members that are not well formed. -/
  | source (origin : Path) (f : Source.ScanFault)
  | manifest (path : Path) (f : ManifestFault)
deriving Repr

namespace InputFailure

/-- The kind of a failure. -/
def kind : InputFailure → FailureKind
  | access f => f.error.kind
  | undecodable _ => .undecodable
  | source _ _ => .manifest
  | manifest _ f => f.kind

/-- The words for a failure; a manifest that is malformed has none. -/
def message? : InputFailure → Option String
  | access f => some f.message
  | undecodable f => some f.message
  | source origin f => some (f.message origin.text)
  | manifest path f => f.message? path

/-- Whether a failure is one that the user is told about as such. -/
def isForeseen (f : InputFailure) : Bool :=
  f.kind.isSystem || f.kind == .undecodable || f.kind == .manifest

end InputFailure

/-! ## Sources -/

namespace Discovery

/-- Whether a name is that of a source. -/
def isSourceName (name : String) : Bool :=
  ".java".toList.isSuffixOf name.toList

/-- The sources below a place, by the names that lead there, in order. -/
def sourcesBelow (fs : FileSystem) (top : Location) : List Location :=
  let locations := (fs.below top).map (·.1)
  (locations.filter fun loc => (loc.getLast?.map isSourceName).getD false).mergeSort
    fun a b => !b.lex a fun x y => decide (x < y)

/-- The place of the directory that a path leads to. -/
def directoryAt (fs : FileSystem) (here : Location) (p : Path) : Location :=
  match fs.locate here p with
  | .ok (.directory loc) => loc
  | .ok (.at loc) => loc
  | .error _ => here

/-- The note that a root is not there. -/
def missingNote (root : Path) : Note :=
  ⟨.debug, .discovery, "Skipping missing source root " ++ root.text⟩

/-- The note on what the scan of a source made of a marked type. -/
def findingNote (origin : Path) : Source.Finding → Note
  | .declared d => ⟨.debug, .discovery, "Found marked type " ++ d.name ++ " in " ++ origin.text⟩
  | .nested name =>
    ⟨.debug, .discovery, "Skipping nested marked type " ++ name ++ " in " ++ origin.text⟩

/-- The declarations of one source. -/
def scanFile (fs : FileSystem) (here : Location) (origin : Path) :
    List Note × Except InputFailure (List Declaration) :=
  match fs.read here origin with
  | .error f => ([], .error (.access f))
  | .ok bytes =>
    match Text.Utf8.decode bytes with
    | .error f => ([], .error (.undecodable f))
    | .ok text =>
      let result := Source.scan (Text.unifyLineEnds text)
      (result.findings.map (findingNote origin),
        match result.fault with
        | some f => .error (.source origin f)
        | none => .ok (result.findings.filterMap Source.Finding.declaration?))

/-- The declarations of sources in order, up to the first failure. -/
def scanFiles (fs : FileSystem) (here : Location) :
    List Path → List Note × Except InputFailure (List Declaration)
  | [] => ([], .ok [])
  | origin :: rest =>
    match scanFile fs here origin with
    | (notes, .error f) => (notes, .error f)
    | (notes, .ok ds) =>
      let (more, answer) := scanFiles fs here rest
      (notes ++ more, answer.map (ds ++ ·))

/-- The declarations of the sources below roots in order; a root that is not there has none. -/
def scanRoots (fs : FileSystem) (here : Location) :
    List Path → List Note × Except InputFailure (List Declaration)
  | [] => ([], .ok [])
  | root :: rest =>
    match fs.isDirectory here root with
    | .error f => ([], .error (.access f))
    | .ok false =>
      let (more, answer) := scanRoots fs here rest
      (missingNote root :: more, answer)
    | .ok true =>
      let files := (sourcesBelow fs (directoryAt fs here root)).map fun loc =>
        (⟨root.anchor, root.parts ++ loc⟩ : Path)
      match scanFiles fs here files with
      | (notes, .error f) => (notes, .error f)
      | (notes, .ok ds) =>
        let (more, answer) := scanRoots fs here rest
        (notes ++ more, answer.map (ds ++ ·))

/-- The first declaration of each name, in order. -/
def firstOfEach : List Declaration → List Declaration
  | [] => []
  | d :: rest => d :: (firstOfEach rest).filter fun e => e.name ≠ d.name

/-- The declarations of the sources below roots, each name once, sorted by name. -/
def discover (fs : FileSystem) (here : Location) (roots : List Path) :
    List Note × Except InputFailure (List Declaration) :=
  let (notes, answer) := scanRoots fs here roots
  (notes, answer.map fun ds => (firstOfEach ds).mergeSort fun a b => a.name ≤ b.name)

end Discovery

/-! ## Manifests -/

/-- The declarations of the manifest that a path leads to. -/
def Manifest.read (fs : FileSystem) (here : Location) (path : Path) :
    Except InputFailure (List Declaration) :=
  match fs.read here path with
  | .error f => .error (.access f)
  | .ok bytes => (Manifest.ofBytes bytes).mapError (.manifest path)

end TextProviders
