import TextProviders.Proofs.Generation.Batch
import TextProviders.Proofs.Generation.Standing

/-!
# Failures that leave the batch going

Only a failure of a template ends a batch.  If both templates are in the store and no collaborator
raises a failure of that kind, a batch is taken to its end and a report is returned, whatever else
fails (`exists_report`).

Three kinds of settings matter later: in a *faultless* one no call of a collaborator fails at all; in
one that *fails softly* any call may fail, writing only with errors of the system; and one that *spares
the batch* may lack templates, and any call may fail with anything but a failure of a template.
-/

namespace TextProviders

open Program

/-- Every strategy has its template. -/
def Setting.HasTemplates (s : Setting) : Prop :=
  ∀ strategy : Strategy, ∃ text, s.templates.load strategy.templateId = .ok text

theorem Setting.hasTemplates_iff {s : Setting} : s.HasTemplates ↔
    ∀ strategy ∈ [Strategy.runtimeLoading, .embeddedLiteral],
      (s.templates.load strategy.templateId).isOk = true := by
  constructor
  · intro h strategy _
    obtain ⟨text, htext⟩ := h strategy
    rw [htext]
    rfl
  · intro h strategy
    have hok := h strategy (by cases strategy <;> simp)
    cases hload : s.templates.load strategy.templateId with
    | ok text => exact ⟨text, rfl⟩
    | error missing =>
        rw [hload] at hok
        cases hok

instance (s : Setting) : Decidable s.HasTemplates :=
  decidable_of_iff _ s.hasTemplates_iff.symm

/-- No call of a collaborator fails, and no template is missing. -/
structure Setting.Faultless (s : Setting) : Prop where
  faults : ∀ turn, s.faults turn = none
  templates : s.HasTemplates

/-- Calls may fail: those for a resource with anything but a failure of a template, those of writing
with errors of the system.  No template is missing. -/
structure Setting.FailsSoftly (s : Setting) : Prop where
  resolving : ∀ turn f, s.faults turn = some f → f.point = .resolve → f.failure.kind ≠ .template
  writing : ∀ turn f, s.faults turn = some f → f.point ≠ .resolve → f.failure.kind.isSystem = true
  templates : s.HasTemplates

/-- Calls may fail with anything but a failure of a template. -/
def Setting.SparesBatch (s : Setting) : Prop :=
  ∀ turn f, s.faults turn = some f → f.failure.kind ≠ .template

theorem Setting.FailsSoftly.sparesBatch {s : Setting} (h : s.FailsSoftly) : s.SparesBatch := by
  intro turn f hf
  by_cases hpoint : f.point = .resolve
  · exact h.resolving turn f hf hpoint
  · intro hkind
    have hsystem := h.writing turn f hf hpoint
    rw [hkind] at hsystem
    cases hsystem

theorem Setting.Faultless.failsSoftly {s : Setting} (h : s.Faultless) : s.FailsSoftly where
  resolving turn f hf := by rw [h.faults] at hf; cases hf
  writing turn f hf := by rw [h.faults] at hf; cases hf
  templates := h.templates

section

variable {s : Setting} {w : World}

theorem Setting.faultAt?_eq_some {point : FaultPoint} {f : Fault}
    (h : s.faultAt? w point = some f) : s.faults w.turn = some f ∧ f.point = point := by
  unfold faultAt? at h
  rw [Option.filter_eq_some_iff] at h
  simpa using h

theorem Setting.Faultless.faultAt? (h : s.Faultless) (w : World) (point : FaultPoint) :
    s.faultAt? w point = none := by
  simp [Setting.faultAt?, h.faults]

theorem Setting.FailsSoftly.isSystem (h : s.FailsSoftly) {point : FaultPoint} {f : Fault}
    (hpoint : point ≠ .resolve) (hf : s.faultAt? w point = some f) :
    f.failure.kind.isSystem = true := by
  obtain ⟨hfault, rfl⟩ := Setting.faultAt?_eq_some hf
  exact h.writing _ f hfault hpoint

/-- With its template in the store, the source of a provider can be filled in. -/
theorem Setting.HasTemplates.render (h : s.HasTemplates) (strategy : Strategy)
    (bindings : List Template.Binding) :
    ∃ source, s.templates.render strategy.templateId bindings = .ok source := by
  obtain ⟨text, htext⟩ := h strategy
  exact ⟨_, by rw [Template.Store.render, htext]; rfl⟩

end

/-! ## Single steps -/

/-- An answer that, if it is a failure, leaves the batch going. -/
def LeavesBatch {α : Type} (answer : Except GenerationFailure α) : Prop :=
  ∀ e, answer = .error e → e.endsBatch = false

theorem leavesBatch_ok {α : Type} (a : α) : LeavesBatch (.ok a : Except GenerationFailure α) :=
  fun _ h => by cases h

theorem leavesBatch_error {α : Type} {e : GenerationFailure} (h : e.endsBatch = false) :
    LeavesBatch (.error e : Except GenerationFailure α) := by
  rintro _ ⟨rfl⟩
  exact h

theorem endsBatch_access (f : AccessFailure) : (GenerationFailure.access f).endsBatch = false := by
  cases f with
  | mk error path => cases error <;> rfl

section

variable {s : Setting} {w : World}

theorem leavesBatch_lookup (s : Setting) (w : World) (name : String) :
    LeavesBatch (w.lookup s name) := by
  have hunder : ∀ roots, LeavesBatch (w.sourceUnder s.here name roots) := by
    intro roots
    induction roots with
    | nil => exact leavesBatch_ok false
    | cons root rest ih =>
        unfold World.sourceUnder
        split
        · exact leavesBatch_error (endsBatch_access _)
        · exact leavesBatch_ok true
        · exact ih
  unfold World.lookup
  split
  · exact leavesBatch_ok true
  · exact hunder _

theorem leavesBatch_search (fs : FileSystem) (here : Location) (name : ResourceName)
    (roots : List Path) : LeavesBatch (Resolver.search fs here name roots).2 := by
  induction roots with
  | nil => exact leavesBatch_error rfl
  | cons root rest ih =>
      unfold Resolver.search
      dsimp only
      split
      · split
        · exact leavesBatch_ok _
        · exact leavesBatch_error rfl
      · split
        · exact ih
        · exact leavesBatch_error (endsBatch_access _)
        · exact leavesBatch_error rfl

theorem leavesBatch_of_faultAt? (hs : s.SparesBatch) {α : Type} {point : FaultPoint} {f : Fault}
    (hf : s.faultAt? w point = some f) :
    LeavesBatch (.error f.failure : Except GenerationFailure α) :=
  leavesBatch_error (decide_eq_false (hs _ f (Setting.faultAt?_eq_some hf).1))

theorem leavesBatch_resolve (hs : s.SparesBatch) (name : ResourceName) :
    LeavesBatch (w.resolve s name).2 := by
  unfold World.resolve
  dsimp only
  split
  · next hf => exact leavesBatch_of_faultAt? hs hf
  · exact leavesBatch_search _ _ _ _

theorem leavesBatch_write (hs : s.SparesBatch) (place : Location) (text : String) :
    LeavesBatch (w.write s place text).2 := by
  unfold World.write
  split
  · next hf => exact leavesBatch_of_faultAt? hs hf
  · exact leavesBatch_ok ()

theorem leavesBatch_attempt (hs : s.SparesBatch) (point : FaultPoint) :
    LeavesBatch (w.attempt s point).2 := by
  unfold World.attempt
  split
  · next hf => exact leavesBatch_of_faultAt? hs hf
  · exact leavesBatch_ok ()

theorem leavesBatch_create (s : Setting) (w : World) (name : String) :
    LeavesBatch (w.create s name).2 := by
  unfold World.create
  dsimp only
  split
  · next f _ => obtain ⟨error, path⟩ := f; cases error <;> exact leavesBatch_error rfl
  · split
    · next f _ => obtain ⟨error, path⟩ := f; cases error <;> exact leavesBatch_error rfl
    · exact leavesBatch_ok _

/-- An answer that, if it is a failure, is an error of the system, from a call that failed. -/
def FailsByFault (s : Setting) {α : Type} (answer : Except GenerationFailure α) : Prop :=
  ∀ e, answer = .error e → e.kind.isSystem = true ∧ ¬s.Faultless

theorem failsByFault_of_faultAt? (hs : s.FailsSoftly) {α : Type} {point : FaultPoint}
    (hpoint : point ≠ .resolve) {f : Fault} (hf : s.faultAt? w point = some f) :
    FailsByFault s (.error f.failure : Except GenerationFailure α) := by
  rintro _ ⟨rfl⟩
  refine ⟨hs.isSystem hpoint hf, fun hfaultless => ?_⟩
  cases (hfaultless.faultAt? w point).symm.trans hf

theorem failsByFault_write (hs : s.FailsSoftly) (place : Location) (text : String) :
    FailsByFault s (w.write s place text).2 := by
  unfold World.write
  split
  · next hf => exact failsByFault_of_faultAt? hs (by decide) hf
  · exact fun _ h => by cases h

theorem failsByFault_attempt (hs : s.FailsSoftly) {point : FaultPoint} (hpoint : point ≠ .resolve) :
    FailsByFault s (w.attempt s point).2 := by
  unfold World.attempt
  split
  · next hf => exact failsByFault_of_faultAt? hs hpoint hf
  · exact fun _ h => by cases h

theorem leavesBatch_discard (s : Setting) (w : World) (name : String) :
    LeavesBatch (w.discard s name).2 := by
  unfold World.discard
  split
  · exact leavesBatch_ok ()
  · dsimp only
    split
    · exact leavesBatch_ok ()
    · exact leavesBatch_error (endsBatch_access _)

end

/-! ## Whole programs -/

/-- Whatever happens between its steps, a program ends with an answer that satisfies `Q`. -/
inductive Program.Yields (s : Setting) {α : Type} (Q : α → Prop) : Program α → Prop
  | done {a : α} : Q a → Yields s Q (.done a)
  | step {act : Action} {next : act.Answer → Program α} :
      (∀ w : World, Yields s Q (next (w.perform s act).2)) → Yields s Q (.step act next)

namespace Program

variable {s : Setting} {α β : Type}

theorem Yields.run {Q : α → Prop} {p : Program α} (h : p.Yields s Q) (w : World) :
    Q (p.run s w).2 := by
  induction h generalizing w with
  | done hq => exact hq
  | step _ ih => exact ih w _

theorem Yields.pure {Q : α → Prop} {a : α} (h : Q a) : (Pure.pure a : Program α).Yields s Q :=
  .done h

theorem Yields.bind {Q : α → Prop} {R : β → Prop} {p : Program α} {f : α → Program β}
    (hp : p.Yields s Q) (hf : ∀ a, Q a → (f a).Yields s R) : (p >>= f).Yields s R := by
  induction hp with
  | done hq => exact hf _ hq
  | step _ ih => exact .step ih

theorem yields_ofAction (act : Action) {Q : act.Answer → Prop}
    (h : ∀ w : World, Q (w.perform s act).2) : (ofAction act).Yields s Q :=
  .step fun w => .done (h w)

theorem yields_any (act : Action) : (ofAction act).Yields s fun _ => True :=
  yields_ofAction act fun _ => trivial

end Program

section

variable {s : Setting}

theorem yields_attempt (hs : s.FailsSoftly) :
    (ofAction .close).Yields s (FailsByFault s) ∧ (ofAction .flush).Yields s (FailsByFault s) :=
  ⟨yields_ofAction .close fun _ => failsByFault_attempt hs (by decide),
    yields_ofAction .flush fun _ => failsByFault_attempt hs (by decide)⟩

theorem yields_closeAfter (hs : s.FailsSoftly) {e : GenerationFailure}
    (he : e.kind.isSystem = true ∧ ¬s.Faultless) :
    (closeAfter e).Yields s (FailsByFault s) := by
  refine (yields_attempt hs).1.bind fun answer hanswer => ?_
  cases answer with
  | error later => exact .pure fun _ h => by cases h; exact hanswer later rfl
  | ok _ => exact .pure fun _ h => by cases h; exact he

theorem yields_writeText (hs : s.FailsSoftly) (place : Location) (text : String) :
    (writeText place text).Yields s (FailsByFault s) := by
  have hwrite : (ofAction (.write place text)).Yields s (FailsByFault s) :=
    yields_ofAction (.write place text) fun _ => failsByFault_write hs place text
  refine hwrite.bind fun answer hanswer => ?_
  cases answer with
  | error e => exact yields_closeAfter hs (hanswer e rfl)
  | ok _ =>
      refine (yields_attempt hs).2.bind fun answer hanswer => ?_
      cases answer with
      | error e => exact yields_closeAfter hs (hanswer e rfl)
      | ok _ => exact (yields_attempt hs).1

/-! ### Whatever ends one source leaves the batch going -/

theorem leavesBatch_closeAfter (hs : s.SparesBatch) {e : GenerationFailure} (he : e.endsBatch = false) :
    (closeAfter e).Yields s LeavesBatch := by
  have hclose : (ofAction .close).Yields s LeavesBatch :=
    yields_ofAction .close fun _ => leavesBatch_attempt hs .close
  refine hclose.bind fun answer hanswer => ?_
  cases answer with
  | error later => exact .pure (leavesBatch_error (hanswer later rfl))
  | ok _ => exact .pure (leavesBatch_error he)

theorem leavesBatch_writeText (hs : s.SparesBatch) (place : Location) (text : String) :
    (writeText place text).Yields s LeavesBatch := by
  have hwrite : (ofAction (.write place text)).Yields s LeavesBatch :=
    yields_ofAction (.write place text) fun _ => leavesBatch_write hs place text
  have hflush : (ofAction .flush).Yields s LeavesBatch :=
    yields_ofAction .flush fun _ => leavesBatch_attempt hs .flush
  refine hwrite.bind fun answer hanswer => ?_
  cases answer with
  | error e => exact leavesBatch_closeAfter hs (hanswer e rfl)
  | ok _ =>
      refine hflush.bind fun answer hanswer => ?_
      cases answer with
      | error e => exact leavesBatch_closeAfter hs (hanswer e rfl)
      | ok _ => exact yields_ofAction .close fun _ => leavesBatch_attempt hs .close

theorem yields_writeSource (hs : s.SparesBatch) (name source : String) :
    (writeSource name source).Yields s LeavesBatch := by
  have hcreate : (ofAction (.create name)).Yields s LeavesBatch :=
    yields_ofAction (.create name) fun w => leavesBatch_create s w name
  have hdiscard : (ofAction (.discard name)).Yields s LeavesBatch :=
    yields_ofAction (.discard name) fun w => leavesBatch_discard s w name
  refine hcreate.bind fun answer hanswer => ?_
  cases answer with
  | error e => exact .pure (leavesBatch_error (hanswer e rfl))
  | ok place =>
      refine (leavesBatch_writeText hs place source).bind fun answer hanswer => ?_
      cases answer with
      | error e =>
          dsimp only
          split
          · refine hdiscard.bind fun answer hanswer => ?_
            cases answer with
            | error e' => exact .pure hanswer
            | ok _ => exact .pure (leavesBatch_error rfl)
          · exact .pure (leavesBatch_error (hanswer e rfl))
      | ok _ =>
          exact (yields_any _).bind fun _ _ => (yields_any _).bind fun _ _ => .pure (leavesBatch_ok ())

/-! ### With both templates in the store -/

theorem yields_generateTarget (hs : s.FailsSoftly) (t : Target) :
    (generateTarget s.templates t).Yields s LeavesBatch := by
  unfold generateTarget
  dsimp only
  split
  · exact .pure (leavesBatch_error rfl)
  · next ext _ =>
    have hresolve : (ofAction (.resolve ⟨t.declaration.package, t.declaration.simpleName, ext⟩)).Yields
        s LeavesBatch := yields_ofAction (.resolve _) fun _ =>
        leavesBatch_resolve hs.sparesBatch _
    refine hresolve.bind fun answer hanswer => ?_
    cases answer with
    | error e => exact .pure (leavesBatch_error (hanswer e rfl))
    | ok text =>
        obtain ⟨source, hsource⟩ := hs.templates.render t.strategy
          (t.bindings (t.declaration.simpleName ++ "." ++ ext) text)
        simp only [ResourceName.fileName, hsource]
        exact yields_writeSource hs.sparesBatch t.name source

theorem yields_processTargets (hs : s.FailsSoftly) (ts : List Target) (o : Outcome) :
    (processTargets s.templates ts o).Yields s fun r => ∀ e, r.2 = some e → e.endsBatch = false := by
  induction ts generalizing o with
  | nil => exact .pure fun _ h => by cases h
  | cons t rest ih =>
      have hlookup : (ofAction (.lookup t.name)).Yields s LeavesBatch :=
        yields_ofAction (.lookup t.name) fun w => leavesBatch_lookup s w t.name
      refine hlookup.bind fun answer hanswer => ?_
      match answer with
      | .error e => exact .pure fun _ h => by cases h; exact hanswer e rfl
      | .ok true => exact (yields_any _).bind fun _ _ => ih _
      | .ok false =>
          refine (yields_generateTarget hs t).bind fun answer hanswer => ?_
          cases answer with
          | error e => exact .pure fun _ h => by cases h; exact hanswer e rfl
          | ok _ => exact ih _

theorem yields_failWith (o : Outcome) {e : GenerationFailure} (he : e.endsBatch = false) :
    (o.failWith e).Yields s fun answer => ∃ o', answer = .ok o' := by
  unfold Outcome.failWith
  rw [he]
  exact (yields_any _).bind fun _ _ => .pure ⟨_, rfl⟩

theorem leavesBatch_validate (d : Declaration) : LeavesBatch d.validate := by
  unfold Declaration.validate
  split
  · exact leavesBatch_error rfl
  · split
    · exact leavesBatch_error rfl
    · exact leavesBatch_ok ()

theorem yields_processDeclaration (hs : s.FailsSoftly) (d : Declaration) :
    (processDeclaration s.templates d).Yields s fun answer => ∃ o, answer = .ok o := by
  unfold processDeclaration
  split
  · next e he => exact yields_failWith _ (leavesBatch_validate d e he)
  · refine (yields_processTargets hs d.targets _).bind fun answer hanswer => ?_
    match answer with
    | (o, none) => exact .pure ⟨o, rfl⟩
    | (o, some e) => exact yields_failWith o (hanswer e rfl)

theorem yields_processAll (hs : s.FailsSoftly) (batch : List Declaration) :
    (processAll s.templates batch).Yields s fun answer => ∃ os, answer = .ok os := by
  induction batch with
  | nil => exact .pure ⟨[], rfl⟩
  | cons d rest ih =>
      refine (yields_processDeclaration hs d).bind fun answer hanswer => ?_
      obtain ⟨o, rfl⟩ := hanswer
      refine ih.bind fun answer hanswer => ?_
      obtain ⟨os, rfl⟩ := hanswer
      exact .pure ⟨_, rfl⟩

/-- **A batch in which calls fail softly returns a report.** -/
theorem exists_report (hs : s.FailsSoftly) (w : World) (batch : List Declaration) :
    ∃ w' r, (generate s.templates batch).run s w = (w', .ok r) := by
  obtain ⟨os, hos⟩ := (yields_processAll hs batch).run w
  rw [generate, run_bind, hos]
  exact ⟨_, _, rfl⟩

end

end TextProviders
