import TextProviders.Generation.Resolver

/-!
What a run of the generator acts on.

A `Setting` is fixed for the run: the directories, the templates, and which calls of collaborators
are going to fail.  A `World` is what the steps of a run change: the files, the registry of types
written in this run, the diagnostics, and the records of calls and notes.
-/

namespace TextProviders

/-- A point at which a collaborator can fail. -/
inductive FaultPoint where
  | resolve
  | write
  | flush
  | close
deriving DecidableEq, Repr

/-- A failure of a collaborator.  A failing write still writes the first characters. -/
structure Fault where
  point : FaultPoint
  failure : GenerationFailure
  after : Nat := 0
deriving DecidableEq, Repr

/-- What stays the same during a run. -/
structure Setting where
  layout : Layout
  /-- The working directory, from which relative paths lead on. -/
  here : Location
  templates : Template.Store := Template.standardStore
  /-- The fault of the n-th call, over the calls that can fail, if it fails. -/
  faults : Nat → Option Fault := fun _ => none

/-- A message about a declaration. -/
structure Diagnostic where
  severity : String
  message : String
deriving DecidableEq, Repr

/-- The severity of failures. -/
def Diagnostic.errorSeverity : String := "ERROR"

/-- The level at which a diagnostic is noted. -/
def Diagnostic.level (d : Diagnostic) : Level :=
  if d.severity = "WARNING" then .warning else if d.severity = "NOTE" then .info else .error

/-- What a run changes. -/
structure World where
  files : FileSystem
  /-- The names recorded as written, in the order of recording, each once. -/
  written : List String := []
  diagnostics : List Diagnostic := []
  /-- The resources asked for. -/
  calls : List ResourceName := []
  notes : List Note := []
  /-- The number of calls made so far that can fail. -/
  turn : Nat := 0

namespace World

/-- The registry's names in increasing order. -/
def registry (w : World) : List String :=
  w.written.mergeSort (· ≤ ·)

/-- The messages of failures among the diagnostics. -/
def errors (w : World) : List String :=
  (w.diagnostics.filter fun d => d.severity = Diagnostic.errorSeverity).map (·.message)

/-- The world with notes added. -/
def note (w : World) (notes : List Note) : World :=
  { w with notes := w.notes ++ notes }

/-- The world after a call that can fail. -/
def tick (w : World) : World :=
  { w with turn := w.turn + 1 }

/-- The world with a name recorded as written. -/
def record (w : World) (name : String) : World :=
  if w.written.contains name then w else { w with written := w.written ++ [name] }

/-- The world with a diagnostic added, which is noted too. -/
def report (w : World) (d : Diagnostic) : World :=
  { w with
    diagnostics := w.diagnostics ++ [d]
    notes := w.notes ++ [⟨d.level, .host, d.message⟩] }

/-- Whether a source of a name stands below one of the roots. -/
def sourceUnder (w : World) (here : Location) (name : String) :
    List Path → Except GenerationFailure Bool
  | [] => .ok false
  | root :: rest =>
    match w.files.isFile here (Layout.sourceFile root name) with
    | .error f => .error (.access f)
    | .ok true => .ok true
    | .ok false => w.sourceUnder here name rest

/-- Whether a type exists: it was written in this run, or it has a source in the output directory
or below a source root. -/
def lookup (w : World) (s : Setting) (name : String) : Except GenerationFailure Bool :=
  if w.written.contains name then .ok true
  else w.sourceUnder s.here name (s.layout.output :: s.layout.sources)

end World

/-- The fault of the current call, if it fails at the given point. -/
def Setting.faultAt? (s : Setting) (w : World) (point : FaultPoint) : Option Fault :=
  (s.faults w.turn).filter fun f => f.point = point

end TextProviders
