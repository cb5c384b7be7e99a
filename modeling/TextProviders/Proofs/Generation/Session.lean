import TextProviders.Proofs.Generation.Standing

/-!
# Calls on the generator, one after the other

A session is a file system and any number of contexts over the same directories, each with a
registry, diagnostics and notes of its own.  Its clients call on the generator through one context
or another, and every call can have other failures of its collaborators and other templates.

Main statement: `standing_file_survives`, a file that stands when a call starts stands with the same
bytes when it ends, and after all calls that follow.
-/

namespace TextProviders

open Program

/-- Makes the file of a type and writes a text to it, as a client of the file sink does.  Nothing is
recorded, and nothing is removed after a failure. -/
def createSource (name text : String) : Program (Except GenerationFailure Unit) := do
  match ← ofAction (.create name) with
  | .error e => return .error e
  | .ok place => writeText place text

/-- What a call asks for. -/
inductive Operation where
  /-- Generate the missing providers of a batch. -/
  | generate (workers : Int) (batch : List Declaration)
  /-- The same with several workers, whose steps come in the order of a schedule. -/
  | interleave (workers : Nat) (schedule : List Nat) (batch : List Declaration)
  /-- Write the source of a type and record the type. -/
  | writeSource (name source : String)
  /-- Make the file of a type and write a text to it. -/
  | createSource (name text : String)

/-- The world after an operation, whatever it answers. -/
def Operation.run (s : Setting) (w : World) : Operation → World
  | generate workers batch => (generateWith s workers w batch).1
  | interleave workers schedule batch =>
      (Pool.run s workers schedule w
        (Pool.ofPrograms (batch.map (processDeclaration s.templates)))).1
  | writeSource name source => ((TextProviders.writeSource name source).run s w).1
  | createSource name text => ((TextProviders.createSource name text).run s w).1

/-- One call: the context it goes through, the templates and failures it meets, and what it asks. -/
structure Call where
  context : Nat
  templates : Template.Store := Template.standardStore
  faults : Nat → Option Fault := fun _ => none
  operation : Operation

/-- A file system and what each context remembers.  The files of a context are those of the
session. -/
structure Session where
  files : FileSystem
  contexts : Nat → World

namespace Session

/-- The session after a call. -/
def call (layout : Layout) (here : Location) (σ : Session) (c : Call) : Session :=
  let s : Setting := ⟨layout, here, c.templates, c.faults⟩
  let w := c.operation.run s { σ.contexts c.context with files := σ.files }
  ⟨w.files, fun n => if n = c.context then w else σ.contexts n⟩

/-- The session after calls, one after the other. -/
def calls (layout : Layout) (here : Location) (σ : Session) (cs : List Call) : Session :=
  cs.foldl (call layout here) σ

end Session

theorem spares_createSource (s : Setting) (old : FileSystem) (name text : String) :
    (createSource name text).Spares s old fun _ => True := by
  refine (spares_create s old name).bind fun answer hmade => ?_
  cases answer with
  | error e => exact .pure trivial
  | ok place => exact spares_writeText s old (hmade place rfl).1 text

theorem Operation.keeps_run (s : Setting) (w : World) (o : Operation) :
    w.files.Keeps (o.run s w).files := by
  have hw := FileSystem.Keeps.refl w.files
  cases o with
  | generate workers batch => exact keeps_generateWith s hw workers batch
  | interleave workers schedule batch =>
      dsimp only [run]
      exact (Pool.spares_ofPrograms (spares_batch s w.files batch)).run workers schedule hw
  | writeSource name source =>
      dsimp only [run]
      exact ((spares_writeSource s w.files name source).run hw).1
  | createSource name text =>
      dsimp only [run]
      exact ((spares_createSource s w.files name text).run hw).1

namespace Session

variable (layout : Layout) (here : Location)

theorem keeps_call (σ : Session) (c : Call) : σ.files.Keeps (σ.call layout here c).files :=
  c.operation.keeps_run ⟨layout, here, c.templates, c.faults⟩
    { σ.contexts c.context with files := σ.files }

theorem keeps_calls (σ : Session) (cs : List Call) :
    σ.files.Keeps (σ.calls layout here cs).files := by
  induction cs generalizing σ with
  | nil => exact .refl _
  | cons c rest ih => exact (keeps_call layout here σ c).trans (ih _)

/-- **A file that stands when a call starts stands with the same bytes when it ends**, and after all
calls that follow, whatever was called before.  -/
theorem standing_file_survives (σ : Session) (before after : List Call) (c : Call)
    (loc : Location) (bytes : List UInt8)
    (h : (σ.calls layout here before).files.get? loc = some (.file bytes)) :
    (σ.calls layout here (before ++ [c])).files.get? loc = some (.file bytes) ∧
      (σ.calls layout here (before ++ c :: after)).files.get? loc = some (.file bytes) := by
  have hcall := keeps_call layout here (σ.calls layout here before) c
  have hrest := keeps_calls layout here ((σ.calls layout here before).call layout here c) after
  simp only [calls, List.foldl_append, List.foldl_cons, List.foldl_nil] at h hcall hrest ⊢
  exact ⟨hcall loc _ h, hrest loc _ (hcall loc _ h)⟩

/-- The file of a type that is written again, through two contexts and with a disk that is full. -/
theorem standing_file_survives_rewriting :
    let layout : Layout := ⟨[⟨.here, ["out"]⟩], [], ⟨.here, ["out"]⟩⟩
    let σ : Session :=
      ⟨⟨[(["out"], .directory), (["out", "T.java"], .file [0x54])]⟩, fun _ => { files := ⟨[]⟩ }⟩
    let c (context : Nat) : Call :=
      { context
        faults := fun _ => some ⟨.write, .raised .system "no space left", 2⟩
        operation := .writeSource "T" "class T" }
    σ.files.get? ["out", "T.java"] = some (.file [0x54]) ∧
      (σ.calls layout [] ([] ++ [c 0])).files.get? ["out", "T.java"] = some (.file [0x54]) ∧
      (σ.calls layout [] ([] ++ c 0 :: [c 1])).files.get? ["out", "T.java"] =
        some (.file [0x54]) := by
  refine ⟨rfl, ?_⟩
  exact standing_file_survives _ _ _ [] _ _ _ _ rfl

end Session

end TextProviders
