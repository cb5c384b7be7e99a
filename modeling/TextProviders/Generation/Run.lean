import TextProviders.Generation.Action
import TextProviders.Generation.Report
import TextProviders.Target

/-!
Generating the missing providers of declarations.

Each declaration is checked, and its targets are taken in order: one that exists is skipped, for any
other the resource is resolved, the template filled in and the source written.  A failure ends the
declaration and is reported; the batch goes on.  Only a failure of a template ends the batch.
-/

namespace TextProviders

open Program

/-! ## Writing one source -/

/-- Closes a file after a failure.  If closing fails too, that failure is the one that counts. -/
def closeAfter (e : GenerationFailure) : Program (Except GenerationFailure Unit) := do
  match ← ofAction .close with
  | .error later => return .error later
  | .ok () => return .error e

/-- Writes a text to a file that was made, hands it over and closes the file, also after a
failure. -/
def writeText (place : Location) (text : String) : Program (Except GenerationFailure Unit) := do
  match ← ofAction (.write place text) with
  | .error e => closeAfter e
  | .ok () =>
    match ← ofAction .flush with
    | .error e => closeAfter e
    | .ok () => ofAction .close

/-- The note that a source was written. -/
def wroteNote (name : String) : Note :=
  ⟨.info, .engine, "Wrote " ++ name⟩

/-- Writes the source of a type and records the type.  After an error of the system the file is
removed again. -/
def writeSource (name source : String) : Program (Except GenerationFailure Unit) := do
  match ← ofAction (.create name) with
  | .error e => return .error e
  | .ok place =>
    match ← writeText place source with
    | .error e =>
      if e.kind.isSystem then
        match ← ofAction (.discard name) with
        | .error e => return .error e
        | .ok () => return .error (.unwritable name e.message)
      else return .error e
    | .ok () =>
      ofAction (.record name)
      ofAction (.note (wroteNote name))
      return .ok ()

/-! ## One declaration -/

/-- The file extension of a declaration whose providers can be generated. -/
def Declaration.validate (d : Declaration) : Except GenerationFailure Unit :=
  match d.binding.extension? with
  | none => .error .emptyExtension
  | some _ => if d.package.isEmpty then .error .noPackage else .ok ()

/-- Generates one provider. -/
def generateTarget (store : Template.Store) (t : Target) :
    Program (Except GenerationFailure Unit) := do
  let d := t.declaration
  match d.binding.extension? with
  | none => return .error .emptyExtension
  | some ext =>
    let resource : ResourceName := ⟨d.package, d.simpleName, ext⟩
    match ← ofAction (.resolve resource) with
    | .error e => return .error e
    | .ok text =>
      match store.render t.strategy.templateId (t.bindings resource.fileName text) with
      | .error missing => return .error (.template missing)
      | .ok source => writeSource t.name source

/-- The note that a provider exists already. -/
def skippedNote (name : String) : Note :=
  ⟨.debug, .engine, name ++ " already exists, skipping"⟩

/-- Takes targets in order, adding to an outcome, until one fails. -/
def processTargets (store : Template.Store) :
    List Target → Outcome → Program (Outcome × Option GenerationFailure)
  | [], o => return (o, none)
  | t :: rest, o => do
    match ← ofAction (.lookup t.name) with
    | .error e => return (o, some e)
    | .ok true =>
      ofAction (.note (skippedNote t.name))
      processTargets store rest { o with skipped := o.skipped ++ [t.name] }
    | .ok false =>
      match ← generateTarget store t with
      | .error e => return (o, some e)
      | .ok () => processTargets store rest { o with written := o.written ++ [t.name] }

/-- The diagnostic about a failure. -/
def failureDiagnostic (name : String) (e : GenerationFailure) : Diagnostic :=
  ⟨Diagnostic.errorSeverity, name ++ ": " ++ e.report⟩

/-- Ends an outcome with a failure: one that ends the batch is left to the caller, any other is
reported. -/
def Outcome.failWith (o : Outcome) (e : GenerationFailure) :
    Program (Except GenerationFailure Outcome) := do
  if e.endsBatch then return .error e
  else
    ofAction (.report (failureDiagnostic o.name e))
    return .ok { o with error := some e.report }

/-- Generates both providers of a declaration. -/
def processDeclaration (store : Template.Store) (d : Declaration) :
    Program (Except GenerationFailure Outcome) := do
  match d.validate with
  | .error e => Outcome.failWith ⟨d.name, [], [], none⟩ e
  | .ok () =>
    match ← processTargets store d.targets ⟨d.name, [], [], none⟩ with
    | (o, none) => return .ok o
    | (o, some e) => o.failWith e

/-! ## A batch -/

/-- Takes declarations in order until a failure ends the batch. -/
def processAll (store : Template.Store) :
    List Declaration → Program (Except GenerationFailure (List Outcome))
  | [] => return .ok []
  | d :: rest => do
    match ← processDeclaration store d with
    | .error e => return .error e
    | .ok o =>
      match ← processAll store rest with
      | .error e => return .error e
      | .ok os => return .ok (o :: os)

/-- The note that a batch is through. -/
def generatedNote (r : Report) : Note :=
  ⟨.info, .engine,
    "Generated " ++ toString r.written.length ++ " provider(s), skipped " ++
      toString r.skipped.length ++ ", " ++ toString r.errors.length ++ " declaration(s) failed"⟩

/-- Generates the missing providers of a batch, one declaration after the other. -/
def generate (store : Template.Store) (batch : List Declaration) :
    Program (Except GenerationFailure Report) := do
  match ← processAll store batch with
  | .error e => return .error e
  | .ok outcomes =>
    let r : Report := ⟨outcomes⟩
    ofAction (.note (generatedNote r))
    return .ok r

end TextProviders
