import TextProviders.Generation.World

/-!
The steps of the generator.

An action is one step on the world that nothing else comes between, such as making a file that was
not there.  A program is a tree of actions: what comes next depends on the answers so far, and on
nothing else.  The same program can be run alone, or its steps interleaved with those of others.
-/

namespace TextProviders

/-- One step. -/
inductive Action where
  /-- Ask whether a type exists. -/
  | lookup (name : String)
  /-- Read the text of a resource. -/
  | resolve (name : ResourceName)
  /-- Make the file of a type, where nothing may stand yet. -/
  | create (name : String)
  /-- Add text to a file that was made. -/
  | write (place : Location) (text : String)
  /-- Hand over what was written. -/
  | flush
  /-- Close a file. -/
  | close
  /-- Remove the file of a type. -/
  | discard (name : String)
  /-- Record a type as written. -/
  | record (name : String)
  /-- Report a diagnostic. -/
  | report (d : Diagnostic)
  /-- Make a note. -/
  | note (n : Note)
deriving Repr

/-- What a step answers. -/
abbrev Action.Answer : Action → Type
  | .lookup _ => Except GenerationFailure Bool
  | .resolve _ => Except GenerationFailure String
  | .create _ => Except GenerationFailure Location
  | .write _ _ | .flush | .close | .discard _ => Except GenerationFailure Unit
  | .record _ | .report _ | .note _ => Unit

namespace World

/-- Makes the file of a type and the missing directories above it. -/
def create (w : World) (s : Setting) (name : String) :
    World × Except GenerationFailure Location :=
  let path := Layout.sourceFile s.layout.output name
  let failure (f : AccessFailure) : GenerationFailure :=
    match f.error with
    | .alreadyThere => .recreated name
    | .nul => .access f
    | _ => .uncreatable path f
  match w.files.makeDirs s.here path.parent with
  | (files, .error f) => ({ w with files }, .error (failure f))
  | (files, .ok ()) =>
    match files.createNew s.here path (.file []) with
    | .error f => ({ w with files }, .error (failure f))
    | .ok (place, files) => ({ w with files }, .ok place)

/-- Removes the file of a type; it need not be there. -/
def discard (w : World) (s : Setting) (name : String) : World × Except GenerationFailure Unit :=
  match w.files.unlink s.here (Layout.sourceFile s.layout.output name) with
  | .ok files => ({ w with files }, .ok ())
  | .error f => (w, if f.error = .notFound then .ok () else .error (.access f))

/-- Adds text to the file at a place. -/
def append (w : World) (place : Location) (text : List Char) : World :=
  { w with files := w.files.append place (Text.Utf8.encode text) }

/-- Asks for a resource, and records the call. -/
def resolve (w : World) (s : Setting) (name : ResourceName) :
    World × Except GenerationFailure String :=
  let after := { w.tick with calls := w.calls ++ [name] }
  match s.faultAt? w .resolve with
  | some f => (after, .error f.failure)
  | none =>
    let (notes, answer) := Resolver.resolve w.files s.here s.layout name
    (after.note notes, answer)

/-- Writes text to a file that was made. -/
def write (w : World) (s : Setting) (place : Location) (text : String) :
    World × Except GenerationFailure Unit :=
  match s.faultAt? w .write with
  | some f => (w.tick.append place (text.toList.take f.after), .error f.failure)
  | none => (w.tick.append place text.toList, .ok ())

/-- A call that does nothing to the world but may fail. -/
def attempt (w : World) (s : Setting) (point : FaultPoint) :
    World × Except GenerationFailure Unit :=
  match s.faultAt? w point with
  | some f => (w.tick, .error f.failure)
  | none => (w.tick, .ok ())

/-- Takes one step. -/
def perform (s : Setting) (w : World) : (a : Action) → World × a.Answer
  | .lookup name => (w, w.lookup s name)
  | .resolve name => w.resolve s name
  | .create name => w.create s name
  | .write place text => w.write s place text
  | .flush => w.attempt s .flush
  | .close => w.attempt s .close
  | .discard name => w.discard s name
  | .record name => (w.record name, ())
  | .report d => (w.report d, ())
  | .note n => (w.note [n], ())

end World

/-- A tree of steps with an answer at each leaf. -/
inductive Program (α : Type) where
  | done (a : α)
  | step (act : Action) (next : act.Answer → Program α)

namespace Program

/-- The steps of one program, then those of another that depends on its answer. -/
def bind {α β : Type} : Program α → (α → Program β) → Program β
  | done a, f => f a
  | step act next, f => step act fun answer => (next answer).bind f

instance : Monad Program where
  pure := done
  bind := bind

/-- The program of one step. -/
def ofAction (act : Action) : Program act.Answer :=
  step act done

/-- Runs a program alone. -/
def run {α : Type} (s : Setting) : World → Program α → World × α
  | w, done a => (w, a)
  | w, step act next =>
    let (w, answer) := w.perform s act
    run s w (next answer)

theorem run_bind {α β : Type} (s : Setting) (w : World) (p : Program α) (f : α → Program β) :
    (p >>= f).run s w = (f (p.run s w).2).run s (p.run s w).1 := by
  induction p generalizing w with
  | done a => rfl
  | step act next ih => exact ih _ _

end Program

end TextProviders
