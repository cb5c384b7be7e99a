import TextProviders.CommandLine.Help
import TextProviders.Discovery
import TextProviders.Generation.Workers

/-!
The commands: generating providers, showing what would be generated, and listing marked types.

A command is run on a file system and answers with the changed one, with what is shown, and with how
it ends.  What is shown as an error comes after the notes that were made on the way.
-/

namespace TextProviders.CommandLine

/-- How a run ends: with a status, or with a failure that nothing handles. -/
inductive Ending where
  | exit (status : Nat)
  | failed (kind : FailureKind) (message : String)
deriving DecidableEq, Repr

/-- What a run leaves. -/
structure Answer where
  files : FileSystem
  output : String := ""
  errors : String := ""
  ending : Ending := .exit 0

/-- What a run starts from. -/
structure Start where
  files : FileSystem
  /-- The working directory. -/
  here : Location
  environment : Layout.Environment := []
  templates : Template.Store := Template.standardStore

/-- What is missing where an option has a value that is none. -/
inductive Missing where
  | directory
  | workers
deriving DecidableEq, Repr

/-- The words for what is missing. -/
def Missing.message : Missing → String
  | directory => "expected str, bytes or os.PathLike object, not list"
  | workers => "'>' not supported between instances of 'list' and 'int'"

/-- The answer where something is missing, after what is shown as errors. -/
def Missing.answer (files : FileSystem) (shown : String) (m : Missing) : Answer :=
  { files, errors := shown, ending := .failed .wrongType m.message }

/-- The directories of a kind that the options name, or else the standard one. -/
def directories (named : List (Option String)) (standard : Path) : Except Missing (List Path) :=
  if named.isEmpty then .ok [standard]
  else
    match named.mapM id with
    | some names => .ok (names.map Path.ofString)
    | none => .error .directory

/-- The directories that the options name, or else those of the environment. -/
def Settings.layout (s : Settings) (env : Layout.Environment) : Except Missing Layout := do
  let sources ← directories s.sources (Layout.sourceRoot env)
  let resources ← directories s.resources (Layout.resourceRoot env)
  return ⟨sources, resources,
    if s.output.isEmpty then Layout.outputRoot env else Path.ofString s.output⟩

/-- The level from which on notes are shown. -/
def Settings.threshold (s : Settings) : Level :=
  if s.verbose then .debug else .warning

/-- The notes that are shown. -/
def Settings.shown (s : Settings) (notes : List Note) : String :=
  Note.shown s.threshold notes

/-- The declarations of the manifest, if one is named, or else of the sources.  A manifest is read
before the directories are looked at. -/
def declarationsOf (start : Start) (s : Settings) (layout : Except Missing Layout) :
    Except Missing (List Note × Except InputFailure (List Declaration)) :=
  if s.manifest.isEmpty then
    layout.map fun layout => Discovery.discover start.files start.here layout.sources
  else .ok ([], Manifest.read start.files start.here (Path.ofString s.manifest))

/-- The words for a failure to read declarations. -/
def inputMessage (f : InputFailure) : String :=
  f.message?.getD "the document is malformed"

/-- The answer to declarations that could not be read. -/
def unread (start : Start) (shown : String) (f : InputFailure) : Answer :=
  if f.isForeseen then
    { files := start.files, errors := shown ++ "ERROR: " ++ inputMessage f ++ "\n",
      ending := .exit 1 }
  else { files := start.files, errors := shown, ending := .failed f.kind (inputMessage f) }

/-! ## Generating -/

/-- Generates the missing providers of declarations and shows the summary. -/
def generateAll (start : Start) (s : Settings) (notes : List Note) (batch : List Declaration)
    (layout : Layout) (workers : Int) : Answer :=
  let setting : Setting := { layout, here := start.here, templates := start.templates }
  let (w, report) := generateWith setting (max 1 workers) { files := start.files } batch
  let shown := s.shown (notes ++ w.notes)
  match report with
  | .error e =>
    { files := w.files
      errors := shown ++ "ERROR: broken installation: " ++ e.message ++ "\n"
      ending := .exit 2 }
  | .ok r =>
    { files := w.files, output := r.summary ++ "\n", errors := shown,
      ending := .exit (if r.ok then 0 else 1) }

/-- Generates the missing providers and shows the summary. -/
def runGenerate (start : Start) (s : Settings) : Answer :=
  let layout := s.layout start.environment
  match declarationsOf start s layout with
  | .error m => m.answer start.files ""
  | .ok (notes, .error f) => unread start (s.shown notes) f
  | .ok (notes, .ok batch) =>
    match layout, s.workers with
    | .error m, _ => m.answer start.files (s.shown notes)
    | .ok _, none => Missing.workers.answer start.files (s.shown notes)
    | .ok layout, some workers => generateAll start s notes batch layout workers

/-! ## Planning -/

/-- A text with spaces after it up to a width. -/
def column (width : Nat) (s : String) : String :=
  s ++ String.ofList (List.replicate (width - s.length) ' ')

/-- A row of the table of targets. -/
def tableRow (target strategy state : String) : String :=
  "  " ++ column 60 target ++ " " ++ column 18 strategy ++ " " ++ column 8 state ++ "\n"

/-- The head of the table of targets. -/
def tableHead : String :=
  "\n" ++ tableRow "Target" "Strategy" "State" ++ "  " ++
    String.ofList (List.replicate 86 '─') ++ "\n"

/-- The rows for targets, up to the first one that cannot be looked up. -/
def tableRows (setting : Setting) (w : World) :
    List Target → String × Option GenerationFailure
  | [] => ("", none)
  | t :: rest =>
    match w.lookup setting t.name with
    | .error f => ("", some f)
    | .ok found =>
      let (rows, failure) := tableRows setting w rest
      (tableRow t.name t.strategy.templateId (if found then "exists" else "missing") ++ rows,
        failure)

/-- Shows the targets of declarations and whether they exist. -/
def planAll (start : Start) (shown : String) (batch : List Declaration) (layout : Layout) :
    Answer :=
  if batch.isEmpty then
    { files := start.files, output := "No marked declarations found.\n", errors := shown }
  else
    let setting : Setting := { layout, here := start.here }
    let (rows, failure) :=
      tableRows setting { files := start.files } (batch.flatMap Declaration.targets)
    match failure with
    | some f =>
      { files := start.files, output := tableHead ++ rows, errors := shown,
        ending := .failed f.kind f.message }
    | none =>
      { files := start.files
        output := tableHead ++ rows ++ "\n  " ++ toString batch.length ++ " declaration(s)\n"
        errors := shown }

/-- Shows the targets and whether they exist. -/
def runPlan (start : Start) (s : Settings) : Answer :=
  let layout := s.layout start.environment
  match declarationsOf start s layout with
  | .error m => m.answer start.files ""
  | .ok (notes, .error f) => unread start (s.shown notes) f
  | .ok (notes, .ok batch) =>
    match layout with
    | .error m => m.answer start.files (s.shown notes)
    | .ok layout => planAll start (s.shown notes) batch layout

/-! ## Listing -/

/-- The line for a marked type. -/
def listLine (d : Declaration) : String :=
  let declared := d.binding.fileExtension.getD ""
  "  " ++ d.name ++ " (" ++ d.visibility.word ++ ", ." ++
    (if declared.isEmpty then "<empty>" else declared) ++
    (if d.binding.normalizeSpace then " normalizeSpace" else "") ++ ")\n"

/-- Lists the marked types of the sources. -/
def runScan (start : Start) (s : Settings) : Answer :=
  match s.layout start.environment with
  | .error m => m.answer start.files ""
  | .ok layout =>
    let (notes, input) := Discovery.discover start.files start.here layout.sources
    let shown := s.shown notes
    match input with
    | .error f => unread start shown f
    | .ok ds =>
      { files := start.files
        output := "Found " ++ toString ds.length ++ " @TextResourceAware type(s):\n\n" ++
          String.join (ds.map listLine)
        errors := shown }

/-! ## The program -/

/-- Runs the program with arguments. -/
def run (start : Start) (arguments : List String) : Answer :=
  match parse arguments with
  | .refused command r =>
    { files := start.files, errors := refusalText command r, ending := .exit 2 }
  | .help command => { files := start.files, output := helpText command }
  | .run none _ => { files := start.files, output := helpText none }
  | .run (some .generate) s => runGenerate start s
  | .run (some .plan) s => runPlan start s
  | .run (some .scan) s => runScan start s

end TextProviders.CommandLine
