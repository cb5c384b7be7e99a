import TextProviders.Proofs.Generation.Faults
import TextProviders.Proofs.Generation.Ledger

/-!
# A missing template stops the batch, and nothing else does

Which template is missing is known before a batch starts, but whether it is asked for depends on the run: a
target that exists is skipped, and a declaration that is not valid or whose resource has no text fails before
its template is looked for.  A `Stop` is a place at which one is asked for: the declarations before it have
outcomes, the targets before it are skipped or written (`ComesPast`), the target does not exist, its resource
has a text, and its template is missing.

The step lemmas say of one target, of the targets of a declaration and of a batch that they end with a failure
that ends the batch exactly at such a place, with the world as it was there and one more resource asked for
(`run_generateTarget_endsBatch_iff`, `run_processTargets_endsBatch_iff`, `run_processAll_eq_error_iff`).  The
main statement, `missing_template_stops_batch`, is that of a whole batch, whichever other calls fail in it.
-/

namespace TextProviders

open Program

section

variable {s : Setting} {store : Template.Store} {w w' : World}

/-! ## One target -/

/-- The resource of a target has a text, and its template is missing. -/
structure LacksTemplate (s : Setting) (store : Template.Store) (w : World) (t : Target)
    (resource : ResourceName) (missing : Template.Missing) : Prop where
  asks : t.resource? = some resource
  resolves : ∃ text, (w.resolve s resource).2 = .ok text
  missing : store.load t.strategy.templateId = .error missing

/-- Generating a target resolves its resource, fills in its template and writes the source. -/
theorem run_generateTarget_of_resource {t : Target} {resource : ResourceName}
    (h : t.resource? = some resource) :
    (generateTarget store t).run s w =
      match (w.resolve s resource).2 with
      | .error e => ((w.resolve s resource).1, .error e)
      | .ok text =>
          match store.render t.strategy.templateId (t.bindings resource.fileName text) with
          | .error missing => ((w.resolve s resource).1, .error (.template missing))
          | .ok source => (writeSource t.name source).run s (w.resolve s resource).1 := by
  obtain ⟨ext, hext, rfl⟩ := Option.map_eq_some_iff.mp h
  unfold generateTarget
  dsimp only
  rw [hext]
  dsimp only
  generalize hresolved : w.resolve s ⟨t.declaration.package, t.declaration.simpleName, ext⟩ = resolved
  obtain ⟨w₁, answer⟩ := resolved
  have hstep : w.perform s (.resolve ⟨t.declaration.package, t.declaration.simpleName, ext⟩) =
      (w₁, answer) := hresolved
  rw [run_step hstep]
  cases answer with
  | error e => rfl
  | ok text =>
      dsimp only
      cases store.render t.strategy.templateId (t.bindings _ text) with
      | error missing => rfl
      | ok source => rfl

/-- **A target ends the batch exactly if its template is missing** when its resource has a text.  Only the
resource was asked for then. -/
theorem run_generateTarget_endsBatch_iff (hs : s.SparesBatch) {t : Target} {e : GenerationFailure} :
    (generateTarget store t).run s w = (w', .error e) ∧ e.endsBatch = true ↔
      ∃ resource missing, LacksTemplate s store w t resource missing ∧
        w' = (w.resolve s resource).1 ∧ e = .template missing := by
  constructor
  · rintro ⟨hrun, hends⟩
    cases hresource : t.resource? with
    | none =>
        have hext : t.declaration.binding.extension? = none := Option.map_eq_none_iff.mp hresource
        unfold generateTarget at hrun
        dsimp only at hrun
        rw [hext] at hrun
        obtain rfl := Except.error.inj (Prod.mk.inj hrun).2
        cases hends
    | some resource =>
        have hresolve := leavesBatch_resolve (w := w) hs resource
        rw [run_generateTarget_of_resource hresource] at hrun
        split at hrun
        · next e' hresolved =>
          obtain ⟨-, heq⟩ := Prod.mk.inj hrun
          obtain rfl := Except.error.inj heq
          exact absurd hends (by rw [hresolve _ hresolved]; decide)
        · next text hresolved =>
          split at hrun
          · next missing hrender =>
            obtain ⟨rfl, heq⟩ := Prod.mk.inj hrun
            refine ⟨resource, missing, ⟨hresource, ⟨text, hresolved⟩, ?_⟩, rfl, (Except.error.inj heq).symm⟩
            rw [Template.Store.render] at hrender
            cases hload : store.load t.strategy.templateId with
            | error missing' =>
                rw [hload] at hrender
                exact congrArg Except.error (Except.error.inj hrender)
            | ok template =>
                rw [hload] at hrender
                cases hrender
          · next source _ =>
            have hwritten := (yields_writeSource hs t.name source).run (w.resolve s resource).1 e
              (by rw [hrun])
            exact absurd hends (by rw [hwritten]; decide)
  · rintro ⟨resource, missing, ⟨hresource, ⟨text, htext⟩, hmissing⟩, rfl, rfl⟩
    rw [run_generateTarget_of_resource hresource, htext]
    dsimp only
    rw [Template.Store.render, hmissing]
    exact ⟨rfl, rfl⟩

/-! ## The targets of a declaration -/

/-- A run comes past some targets: each of them is skipped or written. -/
inductive ComesPast (s : Setting) (store : Template.Store) : List Target → World → World → Prop
  | nil (w : World) : ComesPast s store [] w w
  | skipped {t : Target} {rest : List Target} {w w' : World} (h : w.lookup s t.name = .ok true)
      (hrest : ComesPast s store rest (w.note [skippedNote t.name]) w') : ComesPast s store (t :: rest) w w'
  | written {t : Target} {rest : List Target} {w w₁ w' : World} (h : w.lookup s t.name = .ok false)
      (hrun : (generateTarget store t).run s w = (w₁, .ok ())) (hrest : ComesPast s store rest w₁ w') :
      ComesPast s store (t :: rest) w w'

/-- Nothing is reported on the way. -/
theorem ComesPast.diagnostics {ts : List Target} (h : ComesPast s store ts w w') :
    w'.diagnostics = w.diagnostics := by
  induction h with
  | nil w => rfl
  | skipped _ _ ih => exact ih
  | written _ hrun _ ih =>
      have hposts := (posts_generateTarget hrun).diagnostics
      rw [List.append_nil] at hposts
      exact ih.trans hposts

/-- **The targets of a declaration end the batch exactly where a template is missing**: at a target that does
not exist, behind targets that are skipped or written. -/
theorem run_processTargets_endsBatch_iff (hs : s.SparesBatch) {ts : List Target} {o : Outcome}
    {e : GenerationFailure} :
    (∃ o', (processTargets store ts o).run s w = (w', (o', some e)) ∧ e.endsBatch = true) ↔
      ∃ passed t later w₁, ts = passed ++ t :: later ∧ ComesPast s store passed w w₁ ∧
        w₁.lookup s t.name = .ok false ∧ ∃ resource missing,
          LacksTemplate s store w₁ t resource missing ∧ w' = (w₁.resolve s resource).1 ∧
            e = .template missing := by
  constructor
  · rintro ⟨o', hrun, hends⟩
    generalize hfailure : some e = failure? at hrun
    replace hrun := run_processTargets_iff.mp hrun
    induction hrun with
    | nil => cases hfailure
    | @unseen t _ _ w _ hlookup =>
        obtain rfl := Option.some.inj hfailure
        exact absurd hends (by rw [leavesBatch_lookup s w t.name _ hlookup]; decide)
    | @skipped t _ _ _ _ _ _ hlookup _ ih =>
        obtain ⟨passed, t', later, w₁, rfl, hpast, hrest⟩ := ih hfailure
        exact ⟨t :: passed, t', later, w₁, rfl, .skipped hlookup hpast, hrest⟩
    | @failed t rest _ w _ _ hlookup hgenerated =>
        obtain rfl := Option.some.inj hfailure
        exact ⟨[], t, rest, w, rfl, .nil w, hlookup,
          (run_generateTarget_endsBatch_iff hs).mp ⟨hgenerated, hends⟩⟩
    | @written t _ _ _ _ _ _ _ hlookup hgenerated _ ih =>
        obtain ⟨passed, t', later, w₂, rfl, hpast, hrest⟩ := ih hfailure
        exact ⟨t :: passed, t', later, w₂, rfl, .written hlookup hgenerated hpast, hrest⟩
  · rintro ⟨passed, t, later, w₁, rfl, hpast, hlookup, hlacks⟩
    obtain ⟨hgenerated, hends⟩ := (run_generateTarget_endsBatch_iff hs).mpr hlacks
    induction hpast generalizing o with
    | nil w =>
        rw [List.nil_append, run_processTargets_of_false hlookup, hgenerated]
        exact ⟨o, rfl, hends⟩
    | skipped h _ ih =>
        rw [List.cons_append, run_processTargets_of_true h]
        exact ih hlookup hlacks hgenerated
    | written h hrun _ ih =>
        rw [List.cons_append, run_processTargets_of_false h, hrun]
        exact ih hlookup hlacks hgenerated

/-- A declaration ends the batch exactly if it is valid and its targets do. -/
theorem run_processDeclaration_eq_error_iff {d : Declaration} {e : GenerationFailure} :
    (processDeclaration store d).run s w = (w', .error e) ↔ d.validate = .ok () ∧
      ∃ o', (processTargets store d.targets ⟨d.name, [], [], none⟩).run s w = (w', (o', some e)) ∧
        e.endsBatch = true := by
  have hfail {o : Outcome} {w : World} {e' : GenerationFailure} :
      (o.failWith e').run s w = (w', .error e) ↔ e'.endsBatch = true ∧ w = w' ∧ e' = e := by
    rw [run_failWith]
    split
    · next hends =>
      constructor
      · intro h
        obtain ⟨rfl, heq⟩ := Prod.mk.inj h
        exact ⟨hends, rfl, Except.error.inj heq⟩
      · rintro ⟨-, rfl, rfl⟩
        rfl
    · next hends =>
      constructor
      · intro h
        cases (Prod.mk.inj h).2
      · rintro ⟨h, -⟩
        exact absurd h hends
  cases hvalid : d.validate with
  | error e' =>
      rw [processDeclaration, hvalid]
      constructor
      · intro h
        exact absurd (hfail.mp h).1 (by rw [leavesBatch_validate d e' hvalid]; decide)
      · rintro ⟨h, -⟩
        cases h
  | ok _ =>
      rw [run_processDeclaration_of_valid hvalid]
      generalize (processTargets store d.targets ⟨d.name, [], [], none⟩).run s w = result
      obtain ⟨w₁, o, failure?⟩ := result
      cases failure? with
      | none =>
          constructor
          · intro h
            cases (Prod.mk.inj h).2
          · rintro ⟨-, o', h, -⟩
            cases (Prod.mk.inj (Prod.mk.inj h).2).2
      | some e' =>
          constructor
          · intro h
            obtain ⟨hends, rfl, rfl⟩ := hfail.mp h
            exact ⟨rfl, o, rfl, hends⟩
          · rintro ⟨-, o', h, hends⟩
            obtain ⟨rfl, hpair⟩ := Prod.mk.inj h
            obtain rfl := Option.some.inj (Prod.mk.inj hpair).2
            exact hfail.mpr ⟨hends, rfl, rfl⟩

/-! ## The batch -/

theorem error_eq_iff {α : Type} {e e' : GenerationFailure} :
    ((w, .error e) : World × Except GenerationFailure α) = (w', .error e') ↔ w = w' ∧ e = e' := by
  rw [Prod.mk.injEq, Except.error.injEq]

/-- A batch ends with a failure where one of its declarations does, behind those that have outcomes. -/
theorem run_processAll_eq_error_iff {batch : List Declaration} {e : GenerationFailure} :
    (processAll store batch).run s w = (w', .error e) ↔
      ∃ before d after w₁ outcomes, batch = before ++ d :: after ∧
        (processAll store before).run s w = (w₁, .ok outcomes) ∧
          (processDeclaration store d).run s w₁ = (w', .error e) := by
  have hcons {d : Declaration} {rest : List Declaration} {w : World} :
      (processAll store (d :: rest)).run s w = (w', .error e) ↔
        (processDeclaration store d).run s w = (w', .error e) ∨
          ∃ w₁ o, (processDeclaration store d).run s w = (w₁, .ok o) ∧
            (processAll store rest).run s w₁ = (w', .error e) := by
    rw [processAll, run_bind]
    generalize (processDeclaration store d).run s w = first
    obtain ⟨w₁, answer⟩ := first
    cases answer with
    | error e' =>
        constructor
        · intro h
          exact .inl (error_eq_iff.mpr (error_eq_iff.mp h))
        · rintro (h | ⟨_, _, h, -⟩)
          · exact error_eq_iff.mpr (error_eq_iff.mp h)
          · cases (Prod.mk.inj h).2
    | ok o =>
        show Program.run s w₁ (processAll store rest >>= _) = _ ↔ _
        rw [run_bind]
        constructor
        · intro h
          refine .inr ⟨w₁, o, rfl, ?_⟩
          generalize (processAll store rest).run s w₁ = later at h
          obtain ⟨w₂, answer⟩ := later
          cases answer with
          | error e' => exact h
          | ok os => cases (Prod.mk.inj h).2
        · rintro (h | ⟨_, _, h, hrest⟩)
          · cases (Prod.mk.inj h).2
          · obtain ⟨rfl, -⟩ := Prod.mk.inj h
            rw [hrest]
            rfl
  constructor
  · intro h
    induction batch generalizing w with
    | nil => cases (Prod.mk.inj h).2
    | cons d rest ih =>
        rcases hcons.mp h with hd | ⟨w₁, o, hd, hrest⟩
        · exact ⟨[], d, rest, w, [], rfl, rfl, hd⟩
        · obtain ⟨before, d', after, w₂, os, rfl, hbefore, hd'⟩ := ih hrest
          exact ⟨d :: before, d', after, w₂, o :: os, rfl,
            run_processAll_cons.mpr ⟨w₁, o, os, hd, hbefore, rfl⟩, hd'⟩
  · rintro ⟨before, d, after, w₁, outcomes, rfl, hbefore, hd⟩
    induction before generalizing w outcomes with
    | nil =>
        obtain ⟨rfl, -⟩ := Prod.mk.inj hbefore
        exact hcons.mpr (.inl hd)
    | cons d' before ih =>
        obtain ⟨w₂, o, os, hd', hrest, -⟩ := run_processAll_cons.mp hbefore
        exact hcons.mpr (.inr ⟨w₂, o, hd', ih os hrest⟩)

theorem run_generate_eq_error_iff {batch : List Declaration} {e : GenerationFailure} :
    (generate store batch).run s w = (w', .error e) ↔
      (processAll store batch).run s w = (w', .error e) := by
  rw [generate, run_bind]
  generalize (processAll store batch).run s w = result
  obtain ⟨w₁, answer⟩ := result
  cases answer with
  | error e' => exact error_eq_iff.trans error_eq_iff.symm
  | ok outcomes =>
      constructor
      · intro h
        cases (Prod.mk.inj h).2
      · intro h
        cases (Prod.mk.inj h).2

end

/-! ## Stops -/

/-- A place at which a template is asked for. -/
structure Stop where
  /-- The declarations before it. -/
  before : List Declaration
  declaration : Declaration
  /-- The targets before it. -/
  passed : List Target
  target : Target
  later : List Target
  /-- The world in which the declaration is taken. -/
  reached : World
  /-- The world in which the target is looked up. -/
  arrived : World
  resource : ResourceName
  missing : Template.Missing

namespace Stop

/-- A run comes to the place, and the template is missing. -/
structure Occurs (p : Stop) (s : Setting) (store : Template.Store) (w : World) : Prop where
  before : ∃ outcomes, (processAll store p.before).run s w = (p.reached, .ok outcomes)
  valid : p.declaration.validate = .ok ()
  targets : p.declaration.targets = p.passed ++ p.target :: p.later
  passed : ComesPast s store p.passed p.reached p.arrived
  absent : p.arrived.lookup s p.target.name = .ok false
  lacks : LacksTemplate s store p.arrived p.target p.resource p.missing

/-- What a run leaves that ends at the place: all is as the targets before it left it, but for one more
resource that was asked for; nothing more was reported, and the target has neither a record nor a file. -/
structure Leaves (p : Stop) (s : Setting) (w' : World) : Prop where
  files : w'.files = p.arrived.files
  written : w'.written = p.arrived.written
  diagnostics : w'.diagnostics = p.reached.diagnostics
  calls : w'.calls = p.arrived.calls ++ [p.resource]
  unrecorded : p.target.name ∉ w'.written
  absent : ∀ root ∈ s.layout.output :: s.layout.sources,
    w'.files.isFile s.here (Layout.sourceFile root p.target.name) = .ok false

end Stop

section

variable {s : Setting} {store : Template.Store} {w w' : World}

/-- A name that is not found is not recorded, and there is no source of it. -/
theorem absent_of_lookup {name : String} (h : w.lookup s name = .ok false) :
    name ∉ w.written ∧ ∀ root ∈ s.layout.output :: s.layout.sources,
      w.files.isFile s.here (Layout.sourceFile root name) = .ok false := by
  have hunder (roots : List Path) (h : w.sourceUnder s.here name roots = .ok false) :
      ∀ root ∈ roots, w.files.isFile s.here (Layout.sourceFile root name) = .ok false := by
    induction roots with
    | nil => exact fun _ hroot => (by cases hroot)
    | cons root rest ih =>
        unfold World.sourceUnder at h
        split at h
        · cases h
        · cases h
        · next hfile => exact List.forall_mem_cons.mpr ⟨hfile, ih h⟩
  unfold World.lookup at h
  split at h
  · cases h
  · next hwritten => exact ⟨fun hmem => hwritten (List.contains_iff_mem.mpr hmem), hunder _ h⟩

theorem Stop.Occurs.leaves {p : Stop} (h : p.Occurs s store w) :
    p.Leaves s (p.arrived.resolve s p.resource).1 := by
  have hfiles := p.arrived.files_resolve s p.resource
  have hwritten := p.arrived.written_resolve s p.resource
  have hposts := p.arrived.posts_resolve s p.resource
  obtain ⟨hunrecorded, habsent⟩ := absent_of_lookup h.absent
  exact {
    files := hfiles
    written := hwritten
    diagnostics := by rw [hposts.diagnostics, List.append_nil, h.passed.diagnostics]
    calls := hposts.calls
    unrecorded := hwritten ▸ hunrecorded
    absent := fun root hroot => hfiles ▸ habsent root hroot }

/-- A batch ends with a failure exactly at a stop. -/
theorem run_generate_eq_error_iff_occurs (hs : s.SparesBatch) {batch : List Declaration}
    {e : GenerationFailure} :
    (generate store batch).run s w = (w', .error e) ↔
      ∃ (p : Stop) (after : List Declaration), batch = p.before ++ p.declaration :: after ∧
        p.Occurs s store w ∧ w' = (p.arrived.resolve s p.resource).1 ∧ e = .template p.missing := by
  rw [run_generate_eq_error_iff, run_processAll_eq_error_iff]
  constructor
  · rintro ⟨before, d, after, w₁, outcomes, rfl, hbefore, hd⟩
    obtain ⟨hvalid, hstopped⟩ := run_processDeclaration_eq_error_iff.mp hd
    obtain ⟨passed, t, later, w₂, htargets, hpast, habsent, resource, missing, hlacks, rfl, rfl⟩ :=
      (run_processTargets_endsBatch_iff hs).mp hstopped
    exact ⟨⟨before, d, passed, t, later, w₁, w₂, resource, missing⟩, after, rfl,
      ⟨⟨outcomes, hbefore⟩, hvalid, htargets, hpast, habsent, hlacks⟩, rfl, rfl⟩
  · rintro ⟨p, after, rfl, ⟨⟨outcomes, hbefore⟩, hvalid, htargets, hpast, habsent, hlacks⟩, rfl, rfl⟩
    have hstopped := (run_processTargets_endsBatch_iff hs (o := ⟨p.declaration.name, [], [], none⟩)).mpr
      ⟨p.passed, p.target, p.later, p.arrived, htargets, hpast, habsent, p.resource, p.missing, hlacks,
        rfl, rfl⟩
    exact ⟨p.before, p.declaration, after, p.reached, outcomes, rfl, hbefore,
      run_processDeclaration_eq_error_iff.mpr ⟨hvalid, hstopped⟩⟩

/-- **A missing template stops the batch, and only that.**  If no other call fails with a failure of a
template, a batch ends with one exactly if a run over it comes to a place where a template is asked for and
missing.  It ends there, whatever declarations follow, and leaves what was there.  Otherwise a report is
returned, with an outcome for each declaration. -/
theorem missing_template_stops_batch (hs : s.SparesBatch) (w : World) (batch : List Declaration) :
    ((∃ e, ((generate store batch).run s w).2 = .error e ∧ e.kind = .template) ↔
        ∃ (p : Stop) (after : List Declaration), batch = p.before ++ p.declaration :: after ∧
          p.Occurs s store w) ∧
      (∀ p : Stop, p.Occurs s store w → ∃ w', p.Leaves s w' ∧ ∀ after,
        (generate store (p.before ++ p.declaration :: after)).run s w =
          (w', .error (.template p.missing))) ∧
      ((¬∃ e, ((generate store batch).run s w).2 = .error e ∧ e.kind = .template) →
        ∃ r, ((generate store batch).run s w).2 = .ok r ∧ r.outcomes.length = batch.length) := by
  have hstops {batch : List Declaration} {e : GenerationFailure}
      (h : ((generate store batch).run s w).2 = .error e) := (run_generate_eq_error_iff_occurs hs).mp
    (Prod.ext rfl h : (generate store batch).run s w = (((generate store batch).run s w).1, .error e))
  refine ⟨⟨?_, ?_⟩, ?_, ?_⟩
  · rintro ⟨e, he, -⟩
    obtain ⟨p, after, hbatch, hoccurs, -, -⟩ := hstops he
    exact ⟨p, after, hbatch, hoccurs⟩
  · rintro ⟨p, after, rfl, hoccurs⟩
    have hrun := (run_generate_eq_error_iff_occurs hs).mpr ⟨p, after, rfl, hoccurs, rfl, rfl⟩
    exact ⟨.template p.missing, by rw [hrun], rfl⟩
  · intro p hoccurs
    exact ⟨_, hoccurs.leaves, fun after =>
      (run_generate_eq_error_iff_occurs hs).mpr ⟨p, after, rfl, hoccurs, rfl, rfl⟩⟩
  · intro hnone
    cases hanswer : ((generate store batch).run s w).2 with
    | error e =>
        obtain ⟨p, -, -, -, -, rfl⟩ := hstops hanswer
        exact absurd ⟨_, hanswer, rfl⟩ hnone
    | ok r =>
        obtain ⟨w₁, hrun, -⟩ := run_generate_eq_ok
          (Prod.ext rfl hanswer : (generate store batch).run s w = (_, .ok r))
        exact ⟨r, rfl, length_of_run_processAll hrun⟩

end

/-- The template of the second provider is missing.  Both providers of the first type exist, the second
type is in no package, and the third one has its first provider written; the fourth one is not taken. -/
theorem missing_template_stops_batch_second_provider :
    let s : Setting :=
      { layout := ⟨[⟨.here, ["src"]⟩], [], ⟨.here, ["out"]⟩⟩, here := []
        faults := fun turn => if turn = 9 then some ⟨.write, .raised .runtime "broken", 2⟩ else none }
    let w : World :=
      { files := ⟨[(["src"], .directory), (["src", "a"], .directory),
          (["src", "a", "TProvider.java"], .file []), (["src", "a", "TProviderJ2cl.java"], .file []),
          (["src", "a", "U.txt"], .file [0x75]), (["src", "a", "W.txt"], .file [0x77])]⟩ }
    let store := Template.standardStore.without [Strategy.embeddedLiteral.templateId]
    let batch : List Declaration := [{ name := "a.T" }, { name := "V" }, { name := "a.U" }, { name := "a.W" }]
    let ran := (generate store batch).run s w
    s.SparesBatch ∧
      (∃ (p : Stop) (after : List Declaration), batch = p.before ++ p.declaration :: after ∧
        p.Occurs s store w ∧ p.Leaves s ran.1 ∧ ran.2 = .error (.template p.missing)) ∧
      ran.1.written = ["a.UProvider"] ∧
      ran.1.diagnostics = [⟨"ERROR", "V: types in the default package are not supported"⟩] ∧
      ran.1.calls = [⟨"a", "U", "txt"⟩, ⟨"a", "U", "txt"⟩] := by
  intro s w store batch ran
  have hs : s.SparesBatch := by
    intro turn f hf
    obtain ⟨-, rfl⟩ : turn = 9 ∧ ⟨.write, .raised .runtime "broken", 2⟩ = f := by
      simpa [s] using hf
    decide
  obtain ⟨hstops, hleaves, hreport⟩ := @missing_template_stops_batch s store hs w batch
  have hfailed : ∃ e, ran.2 = .error e ∧ e.kind = .template := by
    by_contra hnone
    obtain ⟨r, hr, -⟩ := hreport hnone
    have hnot : ran.2.isOk = false := by decide +kernel
    rw [hr] at hnot
    cases hnot
  obtain ⟨p, after, hbatch, hoccurs⟩ := hstops.mp hfailed
  obtain ⟨w', hw', hrun⟩ := hleaves p hoccurs
  have hran : ran = (w', .error (.template p.missing)) := by
    rw [← hrun after, ← hbatch]
  refine ⟨hs, ⟨p, after, hbatch, hoccurs, ?_, ?_⟩, by decide +kernel, by decide +kernel,
    by decide +kernel⟩
  · rw [hran]
    exact hw'
  · rw [hran]

end TextProviders
