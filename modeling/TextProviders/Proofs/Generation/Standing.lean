import TextProviders.Proofs.Generation.Pools
import TextProviders.Proofs.Generation.Steps

/-!
# What stands is left standing

The generator makes files and removes files, both by paths that it computes.  Nothing that stood
before a call of it began is ever replaced, cut short or removed by that call, whatever the call
is, whichever steps of it fail and how, and with any number of workers whose steps come in any order
(`standing_file_survives`).

The argument is about one program at a time.  `Program.Spares s old Q` says that a program takes only
steps that keep what stood in `old`, and that its answer satisfies `Q`.  The world of each of its
steps is *any* world that still has what stood in `old`: between two of its steps other programs may
have done whatever keeps `old`.  So programs that spare `old` spare it together, in any order of
their steps, and no more is to be shown about interleavings than `Pool.Spares.run`.

A program may write to a place, or discard by a name, only if nothing stood there in `old`.  It knows
that from having made the file itself: a file is made only where nothing stands, hence where nothing
stood in `old`; and a path that led to one place never leads to another, so discarding by the name
finds the place that was made.
-/

namespace TextProviders

open Program

/-! ## Programs that spare what stood -/

/-- A program that keeps what stood in `old` with each of its steps, in any world that still has it,
and whose answer satisfies `Q`. -/
inductive Program.Spares (s : Setting) (old : FileSystem) {α : Type} (Q : α → Prop) :
    Program α → Prop
  | done {a : α} : Q a → Spares s old Q (.done a)
  | step {act : Action} {next : act.Answer → Program α} :
      (∀ w : World, old.Keeps w.files → old.Keeps (w.perform s act).1.files) →
      (∀ w : World, old.Keeps w.files → Spares s old Q (next (w.perform s act).2)) →
      Spares s old Q (.step act next)

namespace Program

variable {s : Setting} {old : FileSystem} {α β : Type}

theorem Spares.run {Q : α → Prop} {p : Program α} (h : p.Spares s old Q) {w : World}
    (hw : old.Keeps w.files) : old.Keeps (p.run s w).1.files ∧ Q (p.run s w).2 := by
  induction h generalizing w with
  | done hq => exact ⟨hw, hq⟩
  | step hkeep _ ih => exact ih w hw (hkeep w hw)

theorem Spares.pure {Q : α → Prop} {a : α} (h : Q a) :
    (Pure.pure a : Program α).Spares s old Q :=
  .done h

theorem Spares.bind {Q : α → Prop} {R : β → Prop} {p : Program α} {f : α → Program β}
    (hp : p.Spares s old Q) (hf : ∀ a, Q a → (f a).Spares s old R) :
    (p >>= f).Spares s old R := by
  induction hp with
  | done hq => exact hf _ hq
  | step hkeep _ ih => exact .step hkeep fun w hw => ih w hw

theorem spares_ofAction (act : Action) {Q : act.Answer → Prop}
    (h : ∀ (w w' : World) (answer : act.Answer), old.Keeps w.files →
      w.perform s act = (w', answer) → old.Keeps w'.files ∧ Q answer) :
    (ofAction act).Spares s old Q :=
  .step (fun w hw => (h w _ _ hw rfl).1) fun w hw => .done (h w _ _ hw rfl).2

/-- A step that leaves the files alone, with any answer. -/
theorem spares_of_files_eq {act : Action}
    (h : ∀ w : World, (w.perform s act).1.files = w.files) :
    (ofAction act).Spares s old fun _ => True :=
  spares_ofAction act fun w w' answer hw hstep => by
    have hfiles := h w
    rw [hstep] at hfiles
    exact ⟨hfiles ▸ hw, trivial⟩

end Program

section

variable (s : Setting) (old : FileSystem)

/-! ## The steps that change files -/

/-- What making the file of a type answers, seen from an older state: a place at which nothing stood
then and to which the path of the name leads, or a failure. -/
def IsNewPlace (name : String) (answer : Except GenerationFailure Location) : Prop :=
  ∀ place, answer = .ok place → old.get? place = none ∧ s.placeFor name = place

variable {s old} {w w' : World}

theorem keeps_create {name : String} {answer : Except GenerationFailure Location}
    (hw : old.Keeps w.files) (hstep : w.create s name = (w', answer)) :
    old.Keeps w'.files ∧ IsNewPlace s old name answer := by
  have hdirs := (w.files.addsDirectories_makeDirs s.here (s.pathFor name).parent).keeps
  rcases w.create_cases s name with ⟨e, h⟩ | ⟨files, place, hmade, hloc, hnone, h⟩
  · obtain ⟨rfl, rfl⟩ := Prod.mk.inj (h.symm.trans hstep)
    refine ⟨?_, fun _ hok => by cases hok⟩
    dsimp only
    exact hw.trans hdirs
  · obtain ⟨rfl, rfl⟩ := Prod.mk.inj (h.symm.trans hstep)
    rw [hmade] at hdirs
    have hold : old.get? place = none := (hw.trans hdirs).eq_none hnone
    refine ⟨(hw.trans hdirs).put hold _, fun _ hok => ?_⟩
    cases hok
    exact ⟨hold, (FileSystem.eq_placeOf_of_locate hloc).symm⟩

theorem keeps_write {place : Location} {text : String} {answer : Except GenerationFailure Unit}
    (h : old.get? place = none) (hw : old.Keeps w.files)
    (hstep : w.write s place text = (w', answer)) : old.Keeps w'.files := by
  obtain ⟨bytes, hbytes, -, -⟩ := w.write_cases s place text
  rw [hstep] at hbytes
  rw [hbytes]
  exact hw.append h bytes

theorem keeps_discard {name : String} {answer : Except GenerationFailure Unit}
    (h : old.get? (s.placeFor name) = none) (hw : old.Keeps w.files)
    (hstep : w.discard s name = (w', answer)) : old.Keeps w'.files := by
  have hfiles := w.files_discard s name
  rw [hstep] at hfiles
  rcases hfiles with hsame | herased
  · rw [hsame]; exact hw
  · rw [herased]; exact hw.erase h

variable (s old)

theorem spares_create (name : String) :
    (ofAction (.create name)).Spares s old (IsNewPlace s old name) :=
  spares_ofAction (.create name) fun _ _ _ hw hstep => keeps_create hw hstep

theorem spares_write {place : Location} (h : old.get? place = none) (text : String) :
    (ofAction (.write place text)).Spares s old fun _ => True :=
  spares_ofAction (.write place text) fun _ _ _ hw hstep => ⟨keeps_write h hw hstep, trivial⟩

theorem spares_discard {name : String} (h : old.get? (s.placeFor name) = none) :
    (ofAction (.discard name)).Spares s old fun _ => True :=
  spares_ofAction (.discard name) fun _ _ _ hw hstep => ⟨keeps_discard h hw hstep, trivial⟩

theorem spares_close : (ofAction .close).Spares s old fun _ => True :=
  spares_of_files_eq fun w => w.files_attempt s .close

theorem spares_note (n : Note) : (ofAction (.note n)).Spares s old fun _ => True :=
  spares_of_files_eq fun w => w.files_note [n]

/-! ## Writing one source -/

theorem spares_closeAfter (e : GenerationFailure) :
    (closeAfter e).Spares s old fun _ => True := by
  refine (spares_close s old).bind fun answer _ => ?_
  cases answer with
  | error later => exact .pure trivial
  | ok _ => exact .pure trivial

theorem spares_writeText {place : Location} (h : old.get? place = none) (text : String) :
    (writeText place text).Spares s old fun _ => True := by
  refine (spares_write s old h text).bind fun answer _ => ?_
  cases answer with
  | error e => exact spares_closeAfter s old e
  | ok _ =>
      have hflush : (ofAction .flush).Spares s old fun _ => True :=
        spares_of_files_eq fun w => w.files_attempt s .flush
      refine hflush.bind fun answer _ => ?_
      cases answer with
      | error e => exact spares_closeAfter s old e
      | ok _ => exact spares_close s old

theorem spares_writeSource (name source : String) :
    (writeSource name source).Spares s old fun _ => True := by
  refine (spares_create s old name).bind fun answer hmade => ?_
  cases answer with
  | error e => exact .pure trivial
  | ok place =>
      obtain ⟨hplace, hname⟩ := hmade place rfl
      refine (spares_writeText s old hplace source).bind fun answer _ => ?_
      cases answer with
      | error e =>
          dsimp only
          split
          · -- the file that is discarded is the one that was made
            refine (spares_discard s old (hname ▸ hplace)).bind fun answer _ => ?_
            cases answer with
            | error e' => exact .pure trivial
            | ok _ => exact .pure trivial
          · exact .pure trivial
      | ok _ =>
          have hrecord : (ofAction (.record name)).Spares s old fun _ => True :=
            spares_of_files_eq fun w => w.files_record name
          exact hrecord.bind fun _ _ => (spares_note s old _).bind fun _ _ => .pure trivial

/-! ## Declarations and batches -/

theorem spares_generateTarget (store : Template.Store) (t : Target) :
    (generateTarget store t).Spares s old fun _ => True := by
  unfold generateTarget
  dsimp only
  split
  · exact .pure trivial
  · next ext _ =>
    have hresolve : (ofAction (.resolve ⟨t.declaration.package, t.declaration.simpleName, ext⟩)).Spares
        s old fun _ => True := spares_of_files_eq fun w => w.files_resolve s _
    refine hresolve.bind fun answer _ => ?_
    cases answer with
    | error e => exact .pure trivial
    | ok text =>
        dsimp only
        split
        · exact .pure trivial
        · exact spares_writeSource s old _ _

theorem spares_processTargets (store : Template.Store) (ts : List Target) (o : Outcome) :
    (processTargets store ts o).Spares s old fun _ => True := by
  induction ts generalizing o with
  | nil => exact .pure trivial
  | cons t rest ih =>
      have hlookup : (ofAction (.lookup t.name)).Spares s old fun _ => True :=
        spares_of_files_eq fun _ => rfl
      refine hlookup.bind fun answer _ => ?_
      match answer with
      | .error e => exact .pure trivial
      | .ok true => exact (spares_note s old _).bind fun _ _ => ih _
      | .ok false =>
          refine (spares_generateTarget s old store t).bind fun answer _ => ?_
          cases answer with
          | error e => exact .pure trivial
          | ok _ => exact ih _

theorem spares_failWith (o : Outcome) (e : GenerationFailure) :
    (o.failWith e).Spares s old fun _ => True := by
  unfold Outcome.failWith
  split
  · exact .pure trivial
  · have hreport : (ofAction (.report (failureDiagnostic o.name e))).Spares s old fun _ => True :=
      spares_of_files_eq fun w => w.files_report _
    exact hreport.bind fun _ _ => .pure trivial

theorem spares_processDeclaration (store : Template.Store) (d : Declaration) :
    (processDeclaration store d).Spares s old fun _ => True := by
  unfold processDeclaration
  split
  · exact spares_failWith s old _ _
  · refine (spares_processTargets s old store d.targets _).bind fun answer _ => ?_
    match answer with
    | (o, none) => exact .pure trivial
    | (o, some e) => exact spares_failWith s old o e

theorem spares_processAll (store : Template.Store) (batch : List Declaration) :
    (processAll store batch).Spares s old fun _ => True := by
  induction batch with
  | nil => exact .pure trivial
  | cons d rest ih =>
      refine (spares_processDeclaration s old store d).bind fun answer _ => ?_
      cases answer with
      | error e => exact .pure trivial
      | ok o =>
          refine ih.bind fun answer _ => ?_
          cases answer with
          | error e => exact .pure trivial
          | ok os => exact .pure trivial

theorem spares_generate (store : Template.Store) (batch : List Declaration) :
    (generate store batch).Spares s old fun _ => True := by
  refine (spares_processAll s old store batch).bind fun answer _ => ?_
  cases answer with
  | error e => exact .pure trivial
  | ok outcomes => exact (spares_note s old _).bind fun _ _ => .pure trivial

end

/-! ## Several programs at once

The invariant of a pool: each program that waits or is being run spares what stood.  A step of one
program keeps it, since the others say nothing about the world between their own steps. -/

namespace Pool

variable {s : Setting} {old : FileSystem} {α : Type}

/-- Every program that waits or is being run spares what stood. -/
def Spares (s : Setting) (old : FileSystem) (p : Pool α) : Prop :=
  ∀ job, job ∈ p.waiting ∨ job ∈ p.active → job.program.Spares s old fun _ => True

theorem Spares.assign {p : Pool α} (h : p.Spares s old) (workers : Nat) :
    (p.assign workers).Spares s old :=
  fun job hjob => h job (mem_assign.mp hjob)

/-- The program that takes a step keeps what stood, and what is left of it spares it as the others do. -/
theorem Spares.step {p : Pool α} (h : p.Spares s old) {w : World} (hw : old.Keeps w.files)
    {m place : Nat} {act : Action} {next : act.Answer → Program α}
    (hat : p.active[m]? = some ⟨place, .step act next⟩) :
    old.Keeps (w.perform s act).1.files ∧
      Spares s old { p with active := p.active.set m ⟨place, next (w.perform s act).2⟩ } := by
  have hchosen := h _ (.inr (List.mem_of_getElem? hat))
  cases hchosen with
  | step hkeep hrest =>
      refine ⟨hkeep w hw, fun job hjob => ?_⟩
      rcases (mem_set_iff hat _).mp hjob with rfl | hother
      · exact hrest w hw
      · exact h job ((mem_active_iff hat).mpr (.inr hother))

theorem Spares.run (workers : Nat) (schedule : List Nat) {p : Pool α} (h : p.Spares s old)
    {w : World} (hw : old.Keeps w.files) :
    old.Keeps (Pool.run s workers schedule w p).1.files := by
  refine (run_induction (P := fun w p => old.Keeps w.files ∧ p.Spares s old) ?assign ?answer ?step
    schedule ⟨hw, h⟩).1
  case assign => exact fun w p h => ⟨h.1, h.2.assign workers⟩
  case answer => exact fun w p m place a hat h =>
    ⟨h.1, fun job hjob => h.2 job ((mem_active_iff hat).mpr (.inr hjob))⟩
  case step => exact fun w p m place act next hat h => h.2.step h.1 hat

theorem spares_ofPrograms {programs : List (Program α)}
    (h : ∀ p ∈ programs, p.Spares s old fun _ => True) :
    (ofPrograms programs).Spares s old := by
  intro job hjob
  rcases hjob with hwaiting | hactive
  · obtain ⟨⟨p, n⟩, hp, rfl⟩ := List.mem_map.mp hwaiting
    exact h p (List.fst_mem_of_mem_zipIdx hp)
  · cases hactive

end Pool

theorem keeps_runEach {s : Setting} {old : FileSystem} {α : Type} {programs : List (Program α)}
    (h : ∀ p ∈ programs, p.Spares s old fun _ => True) {w : World} (hw : old.Keeps w.files) :
    old.Keeps (runEach s w programs).1.files := by
  induction programs generalizing w with
  | nil => exact hw
  | cons p rest ih =>
      have hp := ((h p List.mem_cons_self).run hw).1
      exact ih (fun q hq => h q (List.mem_cons_of_mem _ hq)) hp

theorem spares_batch (s : Setting) (old : FileSystem) (batch : List Declaration) :
    ∀ p ∈ batch.map (processDeclaration s.templates), p.Spares s old fun _ => True := by
  intro p hp
  obtain ⟨d, -, rfl⟩ := List.mem_map.mp hp
  exact spares_processDeclaration s old s.templates d

theorem keeps_generateWith (s : Setting) {old : FileSystem} {w : World} (hw : old.Keeps w.files)
    (workers : Int) (batch : List Declaration) :
    old.Keeps (generateWith s workers w batch).1.files := by
  unfold generateWith
  split
  · unfold generateTogether
    have heach := keeps_runEach (spares_batch s old batch) hw
    dsimp only
    split
    · exact heach
    · exact heach
  · exact ((spares_generate s old s.templates batch).run hw).1

end TextProviders
