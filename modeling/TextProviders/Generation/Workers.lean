import TextProviders.Generation.Run

/-!
Several workers on one batch.

Each worker takes the next waiting program and runs it to its end before it takes another.  The
steps of the workers come in any order: a schedule says, step by step, which of the programs being
run goes on.  Only single steps are atomic.
-/

namespace TextProviders

/-- A program of a batch, by its place in it. -/
structure Job (α : Type) where
  place : Nat
  program : Program α

/-- The programs of a batch: those that wait, those that are being run, and the answers so far. -/
structure Pool (α : Type) where
  waiting : List (Job α) := []
  active : List (Job α) := []
  answers : List (Nat × α) := []

namespace Pool

variable {α : Type}

/-- A batch of programs that all wait. -/
def ofPrograms (programs : List (Program α)) : Pool α :=
  { waiting := programs.zipIdx.map fun (p, n) => ⟨n, p⟩ }

/-- Idle workers take the programs that have waited longest. -/
def assign (workers : Nat) (p : Pool α) : Pool α :=
  let idle := workers - p.active.length
  { p with active := p.active ++ p.waiting.take idle, waiting := p.waiting.drop idle }

/-- One of the programs being run takes a step; one that is at its end leaves its answer. -/
def advance (s : Setting) (w : World) (p : Pool α) (choice : Nat) : World × Pool α :=
  let n := choice % p.active.length
  match p.active[n]? with
  | none => (w, p)
  | some ⟨place, .done a⟩ =>
    (w, { p with active := p.active.eraseIdx n, answers := p.answers ++ [(place, a)] })
  | some ⟨place, .step act next⟩ =>
    let (w, answer) := w.perform s act
    (w, { p with active := p.active.set n ⟨place, next answer⟩ })

/-- Runs a batch for as long as the schedule goes. -/
def run (s : Setting) (workers : Nat) : List Nat → World → Pool α → World × Pool α
  | [], w, p => (w, p)
  | choice :: schedule, w, p =>
    let (w, p) := advance s w (p.assign workers) choice
    run s workers schedule w p

/-- Whether no program waits or is being run. -/
def isFinished (p : Pool α) : Bool :=
  p.waiting.isEmpty && p.active.isEmpty

/-- The answers in the order of the batch. -/
def inOrder (p : Pool α) : List α :=
  (p.answers.mergeSort fun a b => a.1 ≤ b.1).map (·.2)

end Pool

/-- Runs programs one after the other, each to its end. -/
def runEach {α : Type} (s : Setting) : World → List (Program α) → World × List α
  | w, [] => (w, [])
  | w, p :: rest =>
    let (w, a) := p.run s w
    let (w, as) := runEach s w rest
    (w, a :: as)

/-- Generates the missing providers of a batch with the schedule in which no worker is overtaken.
Here a failure that ends the batch does not keep the other declarations from being taken. -/
def generateTogether (s : Setting) (w : World) (batch : List Declaration) :
    World × Except GenerationFailure Report :=
  let (w, answers) := runEach s w (batch.map (processDeclaration s.templates))
  match answers.mapM id with
  | .error e => (w, .error e)
  | .ok outcomes =>
    let r : Report := ⟨outcomes⟩
    (w.note [generatedNote r], .ok r)

/-- Generates the missing providers of a batch, with several workers if there is more than one and
more than one declaration. -/
def generateWith (s : Setting) (workers : Int) (w : World) (batch : List Declaration) :
    World × Except GenerationFailure Report :=
  if 1 < workers && 1 < batch.length then generateTogether s w batch
  else (generate s.templates batch).run s w

end TextProviders
