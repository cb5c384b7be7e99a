import TextProviders.Proofs.FileSystem.Looking
import TextProviders.Proofs.Generation.Batch
import TextProviders.Proofs.Generation.Standing
import TextProviders.Proofs.Generation.WriteSource

/-!
# What a run records and lists stands

A type exists for the generator if its name is recorded, or if it has a source in the output
directory or below a source root.  The record is lost with the context, the source is not.  A name
*stands* in a file system if a look-up through an empty registry finds it (`Setting.Stands`).

Three facts make what a run lists last:

* what stands is found through any registry (`lookup_of_stands`), and stands on for as long as
  everything in the file system is kept (`Stands.of_keeps`); for the second the names in the paths of
  the directories have to fit, since a look-up that meets a name that is too long fails;
* a name is recorded only after its source was written as a whole, so every recorded name stands
  (`World.RecordsStand`), and this is kept by every run, whatever fails in it;
* so every name that an outcome lists stands when its declaration is through (`listed_stand`).
-/

namespace TextProviders

open Program

/-- The names in the paths of the directories in which sources are looked for fit. -/
def Setting.LooksWhereNamesFit (s : Setting) : Prop :=
  ∀ root ∈ s.layout.output :: s.layout.sources, root.NamesFit

instance (s : Setting) : Decidable s.LooksWhereNamesFit :=
  inferInstanceAs (Decidable (∀ root ∈ s.layout.output :: s.layout.sources, root.NamesFit))

/-- A look-up of the name through an empty registry finds a source. -/
def Setting.Stands (s : Setting) (fs : FileSystem) (name : String) : Prop :=
  ({ files := fs } : World).lookup s name = .ok true

/-- An outcome lists a provider: it was written, or it existed already. -/
def Outcome.Lists (o : Outcome) (name : String) : Prop :=
  name ∈ o.written ∨ name ∈ o.skipped

/-! ## Looking up what stands -/

section

variable {s : Setting} {w : World} {name : String}

/-- Only the files decide whether there is a source below a root. -/
theorem World.sourceUnder_eq (w : World) (here : Location) (name : String) (roots : List Path) :
    w.sourceUnder here name roots = ({ files := w.files } : World).sourceUnder here name roots := by
  induction roots with
  | nil => rfl
  | cons root rest ih => simp only [sourceUnder, ih]

/-- Through an empty registry, only the files are looked at. -/
theorem lookup_of_empty (s : Setting) (fs : FileSystem) (name : String) :
    ({ files := fs } : World).lookup s name = ({ files := fs } : World).sourceUnder s.here name
      (s.layout.output :: s.layout.sources) := rfl

theorem stands_iff {fs : FileSystem} :
    s.Stands fs name ↔ ({ files := fs } : World).sourceUnder s.here name
      (s.layout.output :: s.layout.sources) = .ok true := by
  rw [Setting.Stands, lookup_of_empty]

theorem lookup_of_stands (h : s.Stands w.files name) : w.lookup s name = .ok true := by
  unfold World.lookup
  split
  · rfl
  · rw [World.sourceUnder_eq]
    exact stands_iff.mp h

/-- What a look-up finds is recorded or stands. -/
theorem stands_or_recorded (h : w.lookup s name = .ok true) :
    name ∈ w.written ∨ s.Stands w.files name := by
  unfold World.lookup at h
  split at h
  · next hrecorded => exact .inl (List.contains_iff_mem.mp hrecorded)
  · rw [World.sourceUnder_eq] at h
    exact .inr (stands_iff.mpr h)

theorem stands_of_fileAt? {fs : FileSystem} {bytes : List UInt8}
    (h : fs.fileAt? s.here (s.pathFor name) = some bytes) : s.Stands fs name := by
  have hfile : fs.isFile s.here (Layout.sourceFile s.layout.output name) = .ok true :=
    FileSystem.isFile_eq_true_iff.mpr ⟨bytes, h⟩
  simp [stands_iff, World.sourceUnder, hfile]

/-- A source that is found stands below one of the roots. -/
theorem exists_fileAt?_of_sourceUnder {fs : FileSystem} {here : Location} {roots : List Path}
    (h : ({ files := fs } : World).sourceUnder here name roots = .ok true) :
    ∃ root ∈ roots, ∃ bytes, fs.fileAt? here (Layout.sourceFile root name) = some bytes := by
  induction roots with
  | nil => cases h
  | cons root rest ih =>
      unfold World.sourceUnder at h
      split at h
      · cases h
      · next hfile => exact ⟨root, List.mem_cons_self, FileSystem.isFile_eq_true_iff.mp hfile⟩
      · obtain ⟨root', hmem, hfile⟩ := ih h
        exact ⟨root', List.mem_cons_of_mem _ hmem, hfile⟩

/-- Behind a root below which a source of the name is found, the names of its path fit below every
root whose own names fit. -/
theorem sourceFile_namesFit {fs : FileSystem} {here : Location} {root other : Path}
    {bytes : List UInt8} (hother : other.NamesFit)
    (h : fs.fileAt? here (Layout.sourceFile root name) = some bytes) :
    (Layout.sourceFile other name).NamesFit := by
  obtain ⟨loc, hloc, -⟩ := FileSystem.fileAt?_eq_some_iff.mp h
  have hfits := FileSystem.namesFit_of_locate hloc
  rw [Layout.sourceFile_eq_join] at hfits ⊢
  intro part hpart
  rcases Path.mem_parts_join hpart with hroot | hrelative
  · exact hother part hroot
  · exact hfits part (Path.mem_parts_join_right hrelative)

/-- A source that was found is found again if everything is kept, unless the look-up comes before it to
a root with a name that is too long. -/
theorem sourceUnder_keeps_cases {old new : FileSystem} (hk : old.Keeps new) {here : Location}
    {roots : List Path} (h : ({ files := old } : World).sourceUnder here name roots = .ok true) :
    ({ files := new } : World).sourceUnder here name roots = .ok true ∨
      ∃ root ∈ roots, ¬root.NamesFit ∧ ({ files := new } : World).sourceUnder here name roots =
        .error (.access ⟨.nameTooLong, Layout.sourceFile root name⟩) := by
  induction roots with
  | nil => cases h
  | cons root rest ih =>
      unfold World.sourceUnder at h ⊢
      split at h
      · cases h
      · next hfile =>
        obtain ⟨bytes, hbytes⟩ := FileSystem.isFile_eq_true_iff.mp hfile
        have hfile : new.isFile here (Layout.sourceFile root name) = .ok true :=
          FileSystem.isFile_eq_true_iff.mpr ⟨bytes, hk.fileAt? hbytes⟩
        simp only [hfile]
        exact .inl trivial
      · next hnone =>
        obtain ⟨_, _, _, hfound⟩ := exists_fileAt?_of_sourceUnder h
        cases hnew : new.isFile here (Layout.sourceFile root name) with
        | error f =>
            right
            have hmet := FileSystem.isFile_of_locate_tooLong (FileSystem.isFile_eq_error hnew)
            obtain rfl := Except.error.inj (hnew.symm.trans hmet)
            refine ⟨root, List.mem_cons_self, fun hfits => ?_, rfl⟩
            obtain ⟨b, hb⟩ : ∃ b, new.isFile here (Layout.sourceFile root name) = .ok b :=
              FileSystem.isFile_of_keeps (sourceFile_namesFit hfits hfound) hnone
            cases hnew.symm.trans hb
        | ok found =>
            cases found with
            | true => exact .inl rfl
            | false =>
                exact (ih h).imp_right fun ⟨root', hmem, hlong, herror⟩ =>
                  ⟨root', List.mem_cons_of_mem _ hmem, hlong, herror⟩

theorem sourceUnder_of_keeps {old new : FileSystem} (hk : old.Keeps new) {here : Location}
    {roots : List Path} (hfit : ∀ root ∈ roots, root.NamesFit)
    (h : ({ files := old } : World).sourceUnder here name roots = .ok true) :
    ({ files := new } : World).sourceUnder here name roots = .ok true :=
  (sourceUnder_keeps_cases hk h).resolve_right fun ⟨root, hroot, hlong, _⟩ => hlong (hfit root hroot)

/-- What stands stands on for as long as everything is kept. -/
theorem Setting.Stands.of_keeps {old new : FileSystem} (h : s.Stands old name)
    (hfit : s.LooksWhereNamesFit) (hk : old.Keeps new) : s.Stands new name :=
  stands_iff.mpr (sourceUnder_of_keeps hk hfit (stands_iff.mp h))

/-! ## Recorded names -/

/-- Every recorded name stands. -/
def World.RecordsStand (w : World) (s : Setting) : Prop :=
  ∀ name ∈ w.written, s.Stands w.files name

theorem World.mem_written_record {other : String} :
    other ∈ (w.record name).written ↔ other ∈ w.written ∨ other = name := by
  unfold record
  split
  · next hmem =>
    constructor
    · exact .inl
    · rintro (h | rfl)
      · exact h
      · exact List.contains_iff_mem.mp hmem
  · simp

theorem stands_of_lookup (hw : w.RecordsStand s) (h : w.lookup s name = .ok true) :
    s.Stands w.files name :=
  (stands_or_recorded h).elim (hw name) id

/-- A world with the files of another and more recorded names only if these stand. -/
theorem World.RecordsStand.of_keeps {w' : World} (hw : w.RecordsStand s)
    (hfit : s.LooksWhereNamesFit) (hk : w.files.Keeps w'.files)
    (hnew : ∀ name ∈ w'.written, name ∈ w.written ∨ s.Stands w'.files name) :
    w'.RecordsStand s := by
  intro name hname
  rcases hnew name hname with hold | hstands
  · exact (hw name hold).of_keeps hfit hk
  · exact hstands

/-- A world that differs in neither files nor recorded names. -/
theorem World.RecordsStand.congr {w' : World} (hw : w.RecordsStand s) (hfiles : w'.files = w.files)
    (hwritten : w'.written = w.written) : w'.RecordsStand s := by
  unfold RecordsStand
  rw [hfiles, hwritten]
  exact hw

end

/-! ## Writing one source -/

section

variable {s : Setting} {store : Template.Store} {w w' : World}

/-- A source that was not written as a whole is not recorded. -/
theorem written_writeSource {name source : String} {answer : Except GenerationFailure Unit}
    (h : (writeSource name source).run s w = (w', answer)) :
    (answer = .ok () ∧ w'.written = (w.record name).written) ∨
      ((∃ e, answer = .error e) ∧ w'.written = w.written) := by
  rcases w.create_cases s name with ⟨e, hfailed⟩ | ⟨files, place, -, hloc, hnone, hmade⟩
  · rw [writeSource, run_step (World.perform_create.trans hfailed)] at h
    obtain ⟨rfl, rfl⟩ := Prod.mk.inj h
    exact .inr ⟨⟨e, rfl⟩, rfl⟩
  · obtain ⟨w'', answer', hrun, hended⟩ :=
      ended_writeSource source hloc hnone (World.perform_create.trans hmade)
    obtain ⟨rfl, rfl⟩ := Prod.mk.inj (h.symm.trans hrun)
    cases hfault : s.writingFault? w.turn with
    | none => exact .inl (hended.whole hfault)
    | some f => exact .inr (hended.failed f hfault)

theorem recordsStand_writeSource (hfit : s.LooksWhereNamesFit) (hw : w.RecordsStand s)
    {name source : String} {answer : Except GenerationFailure Unit}
    (h : (writeSource name source).run s w = (w', answer)) :
    w'.RecordsStand s ∧ (answer = .ok () → s.Stands w'.files name) := by
  have hkeeps := ((spares_writeSource s w.files name source).run (.refl _)).1
  rw [h] at hkeeps
  rcases written_writeSource h with ⟨rfl, hwritten⟩ | ⟨⟨e, rfl⟩, hwritten⟩
  · have hstands : s.Stands w'.files name := stands_of_fileAt? (fileAt?_of_writeSource h)
    refine ⟨hw.of_keeps hfit hkeeps fun other hother => ?_, fun _ => hstands⟩
    rw [hwritten, World.mem_written_record] at hother
    rcases hother with hold | rfl
    · exact .inl hold
    · exact .inr hstands
  · refine ⟨hw.of_keeps hfit hkeeps fun other hother => ?_, fun hok => by cases hok⟩
    exact .inl (hwritten ▸ hother)

/-! ## Targets -/

/-- Generating a target fails before anything is written, or it is the writing of its source. -/
theorem run_generateTarget_cases {t : Target} {answer : Except GenerationFailure Unit}
    (h : (generateTarget store t).run s w = (w', answer)) :
    (w'.files = w.files ∧ w'.written = w.written ∧ ∃ e, answer = .error e) ∨
      ∃ w₁ source, w₁.files = w.files ∧ w₁.written = w.written ∧
        (writeSource t.name source).run s w₁ = (w', answer) := by
  unfold generateTarget at h
  dsimp only at h
  split at h
  · obtain ⟨rfl, rfl⟩ := Prod.mk.inj h
    exact .inl ⟨rfl, rfl, _, rfl⟩
  · next ext _ =>
    have hfiles := w.files_resolve s ⟨t.declaration.package, t.declaration.simpleName, ext⟩
    have hwritten := w.written_resolve s ⟨t.declaration.package, t.declaration.simpleName, ext⟩
    generalize hresolved : w.resolve s ⟨t.declaration.package, t.declaration.simpleName, ext⟩ =
      resolved at hfiles hwritten
    obtain ⟨w₁, found⟩ := resolved
    have hstep : w.perform s
        (.resolve ⟨t.declaration.package, t.declaration.simpleName, ext⟩) = (w₁, found) := hresolved
    rw [run_step hstep] at h
    cases found with
    | error e =>
        obtain ⟨rfl, rfl⟩ := Prod.mk.inj h
        exact .inl ⟨hfiles, hwritten, e, rfl⟩
    | ok text =>
        dsimp only at h
        split at h
        · obtain ⟨rfl, rfl⟩ := Prod.mk.inj h
          exact .inl ⟨hfiles, hwritten, _, rfl⟩
        · next source _ => exact .inr ⟨w₁, source, hfiles, hwritten, h⟩

theorem recordsStand_generateTarget (hfit : s.LooksWhereNamesFit) (hw : w.RecordsStand s)
    {t : Target} {answer : Except GenerationFailure Unit}
    (h : (generateTarget store t).run s w = (w', answer)) :
    w'.RecordsStand s ∧ (answer = .ok () → s.Stands w'.files t.name) := by
  rcases run_generateTarget_cases h with
    ⟨hfiles, hwritten, e, rfl⟩ | ⟨w₁, source, hfiles, hwritten, hrun⟩
  · exact ⟨hw.congr hfiles hwritten, fun hok => by cases hok⟩
  · exact recordsStand_writeSource hfit (hw.congr hfiles hwritten) hrun

/-- What a run over targets lists in an outcome, beyond what was listed before, stands in the end;
and if nothing failed, every target is listed. -/
structure ListedStand (s : Setting) (ts : List Target) (o o' : Outcome) (w' : World)
    (failure? : Option GenerationFailure) : Prop where
  records : w'.RecordsStand s
  listed : ∀ name, o'.Lists name → o.Lists name ∨ s.Stands w'.files name
  kept : ∀ name, o.Lists name → o'.Lists name
  all : failure? = none → ∀ t ∈ ts, o'.Lists t.name

theorem keeps_processTargets {ts : List Target} {o : Outcome} {result : Outcome × Option GenerationFailure}
    (h : (processTargets store ts o).run s w = (w', result)) : w.files.Keeps w'.files := by
  have hkeeps := ((spares_processTargets s w.files store ts o).run (w := w) (.refl _)).1
  rwa [h] at hkeeps

/-- One more target that was listed and stands. -/
theorem ListedStand.cons {t : Target} {rest : List Target} {o o₁ o' : Outcome}
    {failure? : Option GenerationFailure} (hrest : ListedStand s rest o₁ o' w' failure?)
    (hlists : ∀ name, o₁.Lists name ↔ o.Lists name ∨ name = t.name)
    (hstands : s.Stands w'.files t.name) : ListedStand s (t :: rest) o o' w' failure? := by
  refine ⟨hrest.records, fun name hname => ?_, fun name hname => ?_, fun hnone => ?_⟩
  · rcases hrest.listed name hname with hlisted | hlater
    · rcases (hlists name).mp hlisted with hold | rfl
      · exact .inl hold
      · exact .inr hstands
    · exact .inr hlater
  · exact hrest.kept name ((hlists name).mpr (.inl hname))
  · simp only [List.mem_cons, forall_eq_or_imp]
    exact ⟨hrest.kept _ ((hlists _).mpr (.inr rfl)), hrest.all hnone⟩

theorem listedStand_processTargets (hfit : s.LooksWhereNamesFit) {ts : List Target}
    (hw : w.RecordsStand s) {o o' : Outcome} {failure? : Option GenerationFailure}
    (h : (processTargets store ts o).run s w = (w', (o', failure?))) :
    ListedStand s ts o o' w' failure? := by
  replace h := run_processTargets_iff.mp h
  induction h with
  | nil => exact ⟨hw, fun _ => .inl, fun _ => id, by simp⟩
  | unseen => exact ⟨hw, fun _ => .inl, fun _ => id, fun hnone => by cases hnone⟩
  | @skipped t rest o o' w w' failure? hlookup hrest ih =>
      have hnoted : (w.note [skippedNote t.name]).RecordsStand s := hw.congr rfl rfl
      have hkeeps := keeps_processTargets (run_processTargets_iff.mpr hrest)
      have hstands := (stands_of_lookup hw hlookup).of_keeps hfit hkeeps
      refine (ih hnoted).cons (fun name => ?_) hstands
      simp [Outcome.Lists, or_assoc]
  | failed _ hgenerated =>
      obtain ⟨hw', -⟩ := recordsStand_generateTarget hfit hw hgenerated
      exact ⟨hw', fun _ => .inl, fun _ => id, fun hnone => by cases hnone⟩
  | written _ hgenerated hrest ih =>
      obtain ⟨hw₁, hstands₁⟩ := recordsStand_generateTarget hfit hw hgenerated
      have hstands := (hstands₁ rfl).of_keeps hfit (keeps_processTargets (run_processTargets_iff.mpr hrest))
      refine (ih hw₁).cons (fun name => ?_) hstands
      simp [Outcome.Lists, or_right_comm]

/-! ## Declarations -/

/-- The outcome of a declaration whose providers all existed. -/
def Declaration.skippedOutcome (d : Declaration) : Outcome :=
  { name := d.name, skipped := d.targets.map Target.name }

/-- **What an outcome lists stands when its declaration is through**, and recorded names stand on.  An
outcome that is ok lists every target of its declaration, which was accepted. -/
theorem listed_stand (hfit : s.LooksWhereNamesFit) (hw : w.RecordsStand s) {d : Declaration}
    {o : Outcome} (h : (processDeclaration store d).run s w = (w', .ok o)) :
    w'.RecordsStand s ∧ (∀ name, o.Lists name → s.Stands w'.files name) ∧
      (o.ok = true → d.validate = .ok () ∧ ∀ t ∈ d.targets, o.Lists t.name) := by
  rcases run_processDeclaration_cases h with
    ⟨hfiles, hrecorded, hwritten, hskipped, hfailed⟩ |
    ⟨hvalid, w₁, o₁, failure?, hrun, hfiles, hrecorded, hwritten, hskipped, hok⟩
  · refine ⟨hw.congr hfiles hrecorded, fun name hname => ?_, fun hok => ?_⟩
    · simp [Outcome.Lists, hwritten, hskipped] at hname
    · rw [hfailed] at hok
      cases hok
  · have htargets := listedStand_processTargets hfit hw hrun
    have hsame : ∀ name, o.Lists name ↔ o₁.Lists name := by
      simp [Outcome.Lists, hwritten, hskipped]
    refine ⟨htargets.records.congr hfiles hrecorded, fun name hname => ?_, fun hgood => ?_⟩
    · rcases htargets.listed name ((hsame name).mp hname) with hbefore | hstands
      · simp [Outcome.Lists] at hbefore
      · rwa [hfiles]
    · exact ⟨hvalid, fun t ht => (hsame _).mpr (htargets.all (hok hgood) t ht)⟩

theorem recordsStand_processAll (hfit : s.LooksWhereNamesFit) {batch : List Declaration}
    {outcomes : List Outcome} (hw : w.RecordsStand s)
    (h : (processAll store batch).run s w = (w', .ok outcomes)) : w'.RecordsStand s := by
  induction batch generalizing w outcomes with
  | nil =>
      cases h
      exact hw
  | cons d rest ih =>
      obtain ⟨w₁, o, os, hfirst, hrest, rfl⟩ := run_processAll_cons.mp h
      exact ih (listed_stand hfit hw hfirst).1 hrest

end

end TextProviders
