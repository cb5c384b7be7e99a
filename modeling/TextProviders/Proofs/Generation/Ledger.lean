import Mathlib.Data.List.Nodup
import TextProviders.Proofs.Generation.Batch
import TextProviders.Proofs.Generation.Fate

/-!
# Five records of one run

A run keeps its records in different places: the outcomes of the declarations, with what was written and
what was skipped; the diagnostics; the resources that were asked for; and the registry of what was
written.  They are added to at different points, and a failure can come between any two of them.

`World.Posts` says what a stretch of a run adds to the records of the world.  Stretches are put together
by `Posts.trans`; only asking for a resource, recording a type and reporting a diagnostic add anything
(`posts_of_isSilent`).  From what one target adds follows what the targets of a declaration add, up to
the one at which it fails (`Passes`), and from that what a batch does.

The main statement, `batch_is_accounted_for`, is that of any batch that ends with a report the records
agree with the outcomes, whichever calls failed in it and however.
-/

namespace TextProviders

open Program

/-! ## Posting -/

/-- What was added to the records between two worlds: the resources that were asked for, the
diagnostics, and the names of types that are recorded as written. -/
structure World.Posts (w w' : World) (calls : List ResourceName) (diagnostics : List Diagnostic)
    (names : List String) : Prop where
  calls : w'.calls = w.calls ++ calls
  diagnostics : w'.diagnostics = w.diagnostics ++ diagnostics
  written : ∀ name, name ∈ w'.written ↔ name ∈ w.written ∨ name ∈ names

/-- Nothing was added to the records. -/
abbrev World.PostsNothing (w w' : World) : Prop :=
  w.Posts w' [] [] []

/-- A step that adds nothing to the records. -/
def Action.isSilent : Action → Bool
  | .resolve _ | .record _ | .report _ => false
  | _ => true

/-- Every step that a program can come to is silent. -/
inductive Program.IsSilent {α : Type} : Program α → Prop
  | done (a : α) : IsSilent (.done a)
  | step {act : Action} {next : act.Answer → Program α} (hact : act.isSilent = true)
      (hnext : ∀ answer, IsSilent (next answer)) : IsSilent (.step act next)

section

variable {s : Setting} {store : Template.Store} {w w' w'' : World}

namespace World

variable {calls calls' : List ResourceName} {diagnostics diagnostics' : List Diagnostic}
  {names names' : List String}

theorem Posts.of_eq (hcalls : w'.calls = w.calls) (hdiagnostics : w'.diagnostics = w.diagnostics)
    (hwritten : w'.written = w.written) : w.PostsNothing w' :=
  ⟨by simp [hcalls], by simp [hdiagnostics], by simp [hwritten]⟩

theorem Posts.refl (w : World) : w.PostsNothing w :=
  .of_eq rfl rfl rfl

/-- What two stretches of a run add, one after the other. -/
theorem Posts.trans (h : w.Posts w' calls diagnostics names)
    (h' : w'.Posts w'' calls' diagnostics' names') :
    w.Posts w'' (calls ++ calls') (diagnostics ++ diagnostics') (names ++ names') where
  calls := by rw [h'.calls, h.calls, List.append_assoc]
  diagnostics := by rw [h'.diagnostics, h.diagnostics, List.append_assoc]
  written name := by rw [h'.written, h.written, List.mem_append, or_assoc]

theorem posts_create (w : World) (s : Setting) (name : String) :
    w.PostsNothing (w.create s name).1 := by
  rcases w.create_cases s name with ⟨e, hfailed⟩ | ⟨files, place, -, -, -, hmade⟩
  · rw [hfailed]
    exact .of_eq rfl rfl rfl
  · rw [hmade]
    exact .of_eq rfl rfl rfl

theorem posts_write (w : World) (s : Setting) (place : Location) (text : String) :
    w.PostsNothing (w.write s place text).1 := by
  unfold write
  split
  · exact .of_eq rfl rfl rfl
  · exact .of_eq rfl rfl rfl

theorem posts_attempt (w : World) (s : Setting) (point : FaultPoint) :
    w.PostsNothing (w.attempt s point).1 := by
  unfold attempt
  split
  · exact .of_eq rfl rfl rfl
  · exact .of_eq rfl rfl rfl

theorem posts_discard (w : World) (s : Setting) (name : String) :
    w.PostsNothing (w.discard s name).1 := by
  unfold discard
  split
  · exact .of_eq rfl rfl rfl
  · exact .refl w

/-- A silent step adds nothing. -/
theorem posts_perform {act : Action} (h : act.isSilent = true) :
    w.PostsNothing (w.perform s act).1 := by
  cases act with
  | lookup name => exact .refl w
  | create name => exact w.posts_create s name
  | write place text => exact w.posts_write s place text
  | flush => exact w.posts_attempt s .flush
  | close => exact w.posts_attempt s .close
  | discard name => exact w.posts_discard s name
  | note n => exact .of_eq rfl rfl rfl
  | resolve name => cases h
  | record name => cases h
  | report d => cases h

/-- Asking for a resource adds the call, whatever is answered. -/
theorem posts_resolve (w : World) (s : Setting) (name : ResourceName) :
    w.Posts (w.resolve s name).1 [name] [] [] := by
  unfold resolve
  dsimp only
  split
  · exact ⟨rfl, by simp [tick], by simp [tick]⟩
  · exact ⟨rfl, by simp [note, tick], by simp [note, tick]⟩

theorem posts_record (w : World) (name : String) : w.Posts (w.record name) [] [] [name] where
  calls := by
    unfold record
    split <;> simp
  diagnostics := by
    unfold record
    split <;> simp
  written other := by rw [mem_written_record, List.mem_singleton]

theorem posts_report (w : World) (d : Diagnostic) : w.Posts (w.report d) [] [d] [] :=
  ⟨by simp [report], rfl, by simp [report]⟩

end World

/-- Silent programs add nothing, whatever is answered in them. -/
theorem Program.IsSilent.posts {α : Type} {p : Program α} (h : p.IsSilent) (w : World) :
    w.PostsNothing (p.run s w).1 := by
  induction h generalizing w with
  | done a => exact .refl w
  | step hact _ ih => exact (World.posts_perform hact).trans (ih _ _)

theorem Program.IsSilent.bind {α β : Type} {p : Program α} {f : α → Program β} (h : p.IsSilent)
    (hf : ∀ a, (f a).IsSilent) : (p >>= f).IsSilent := by
  induction h with
  | done a => exact hf a
  | step hact _ ih => exact .step hact ih

theorem isSilent_ofAction {act : Action} (h : act.isSilent = true) : (ofAction act).IsSilent :=
  .step h .done

/-! ## One source -/

theorem isSilent_closeAfter (e : GenerationFailure) : (closeAfter e).IsSilent := by
  refine (isSilent_ofAction rfl).bind fun answer => ?_
  cases answer with
  | error later => exact .done _
  | ok _ => exact .done _

theorem isSilent_writeText (place : Location) (text : String) : (writeText place text).IsSilent := by
  refine (isSilent_ofAction rfl).bind fun written => ?_
  cases written with
  | error e => exact isSilent_closeAfter e
  | ok _ =>
      refine (isSilent_ofAction rfl).bind fun flushed => ?_
      cases flushed with
      | error e => exact isSilent_closeAfter e
      | ok _ => exact isSilent_ofAction rfl

/-- The name that is recorded, if all went well. -/
def recorded (name : String) : Except GenerationFailure Unit → List String
  | .ok () => [name]
  | .error _ => []

/-- Writing a source records the type at the end, and adds nothing else. -/
theorem posts_writeSource {name source : String} {answer : Except GenerationFailure Unit}
    (h : (writeSource name source).run s w = (w', answer)) :
    w.Posts w' [] [] (recorded name answer) := by
  have hcreate := w.posts_create s name
  generalize hmade : w.create s name = made at hcreate
  obtain ⟨w₁, place?⟩ := made
  have hstep : w.perform s (.create name) = (w₁, place?) := hmade
  rw [writeSource, run_step hstep] at h
  cases place? with
  | error e =>
      obtain ⟨rfl, rfl⟩ := Prod.mk.inj h
      exact hcreate
  | ok place =>
      have hwrite := (isSilent_writeText place source).posts (s := s) w₁
      dsimp only at h
      rw [run_bind] at h
      generalize (writeText place source).run s w₁ = written at h hwrite
      obtain ⟨w₂, answer'⟩ := written
      have hso := hcreate.trans hwrite
      cases answer' with
      | ok _ =>
          obtain ⟨rfl, rfl⟩ := Prod.mk.inj h
          have hnote : (w₂.record name).PostsNothing ((w₂.record name).note [wroteNote name]) :=
            .of_eq rfl rfl rfl
          exact hso.trans ((w₂.posts_record name).trans hnote)
      | error e =>
          dsimp only at h
          split at h
          · have hdiscard := w₂.posts_discard s name
            generalize hgone : w₂.discard s name = discarded at hdiscard
            obtain ⟨w₃, answer''⟩ := discarded
            have hstep : w₂.perform s (.discard name) = (w₃, answer'') := hgone
            rw [run_step hstep] at h
            cases answer'' with
            | error e =>
                obtain ⟨rfl, rfl⟩ := Prod.mk.inj h
                exact hso.trans hdiscard
            | ok _ =>
                obtain ⟨rfl, rfl⟩ := Prod.mk.inj h
                exact hso.trans hdiscard
          · obtain ⟨rfl, rfl⟩ := Prod.mk.inj h
            exact hso

/-! ## One target -/

/-- The resource that a target asks for; none if the declaration has no extension. -/
def Target.resource? (t : Target) : Option ResourceName :=
  t.declaration.binding.extension?.map fun ext =>
    ⟨t.declaration.package, t.declaration.simpleName, ext⟩

/-- Generating a target asks for its resource once, and records it if it was written. -/
theorem posts_generateTarget {t : Target} {answer : Except GenerationFailure Unit}
    (h : (generateTarget store t).run s w = (w', answer)) :
    w.Posts w' t.resource?.toList [] (recorded t.name answer) := by
  unfold generateTarget at h
  unfold Target.resource?
  dsimp only at h
  cases hext : t.declaration.binding.extension? with
  | none =>
      rw [hext] at h
      obtain ⟨rfl, rfl⟩ := Prod.mk.inj h
      exact .refl w
  | some ext =>
      rw [hext] at h
      dsimp only at h
      dsimp only [Option.map_some, Option.toList_some]
      generalize (⟨t.declaration.package, t.declaration.simpleName, ext⟩ : ResourceName) = resource
        at h ⊢
      have hasked := w.posts_resolve s resource
      generalize hanswer : w.resolve s resource = answered at hasked
      obtain ⟨w₁, text?⟩ := answered
      have hstep : w.perform s (.resolve resource) = (w₁, text?) := hanswer
      rw [run_step hstep] at h
      cases text? with
      | error e =>
          obtain ⟨rfl, rfl⟩ := Prod.mk.inj h
          exact hasked
      | ok text =>
          dsimp only at h
          split at h
          · obtain ⟨rfl, rfl⟩ := Prod.mk.inj h
            exact hasked
          · exact hasked.trans (posts_writeSource h)

/-! ## The targets of a declaration -/

/-- Those of the targets that a run came past that were written. -/
def writtenOf (past : List (Target × Bool)) : List Target :=
  (past.filter fun entry => entry.2).map Prod.fst

/-- Those that were skipped. -/
def skippedOf (past : List (Target × Bool)) : List Target :=
  (past.filter fun entry => !entry.2).map Prod.fst

/-- A run over targets came past some of them, each written or skipped, and then through or to one at
which it failed; that one may have asked for its resource too. -/
structure Passes (ts : List Target) (o o' : Outcome) (failure? : Option GenerationFailure)
    (w w' : World) (past : List (Target × Bool)) (rest tried : List Target) : Prop where
  split : ts = past.map Prod.fst ++ rest
  through : failure? = none ↔ rest = []
  outcome : o' = { o with
    written := o.written ++ (writtenOf past).map Target.name
    skipped := o.skipped ++ (skippedOf past).map Target.name }
  stop : tried <+: rest.take 1
  posts : w.Posts w' ((writtenOf past ++ tried).flatMap fun t => t.resource?.toList) []
    ((writtenOf past).map Target.name)

section

variable {t : Target} {ts rest tried : List Target} {o o' : Outcome}
  {failure? : Option GenerationFailure} {past : List (Target × Bool)}

theorem Passes.fail (o : Outcome) (e : GenerationFailure) (htried : tried <+: [t])
    (hposts : w.Posts w' (tried.flatMap fun t => t.resource?.toList) [] []) :
    Passes (t :: ts) o o (some e) w w' [] (t :: ts) tried where
  split := rfl
  through := by simp
  outcome := by simp [writtenOf, skippedOf]
  stop := htried
  posts := hposts

theorem Passes.skip (hnote : w.PostsNothing w')
    (h : Passes ts { o with skipped := o.skipped ++ [t.name] } o' failure? w' w'' past rest tried) :
    Passes (t :: ts) o o' failure? w w'' ((t, false) :: past) rest tried where
  split := by rw [h.split]; rfl
  through := h.through
  outcome := by rw [h.outcome]; simp [writtenOf, skippedOf]
  stop := h.stop
  posts := hnote.trans h.posts

theorem Passes.write (hposts : w.Posts w' t.resource?.toList [] [t.name])
    (h : Passes ts { o with written := o.written ++ [t.name] } o' failure? w' w'' past rest tried) :
    Passes (t :: ts) o o' failure? w w'' ((t, true) :: past) rest tried where
  split := by rw [h.split]; rfl
  through := h.through
  outcome := by rw [h.outcome]; simp [writtenOf, skippedOf]
  stop := h.stop
  posts := by simpa [writtenOf] using hposts.trans h.posts

/-- **A run over targets adds to the records what it lists**, and what the target asked for at which it
failed. -/
theorem passes_processTargets (h : (processTargets store ts o).run s w = (w', (o', failure?))) :
    ∃ past rest tried, Passes ts o o' failure? w w' past rest tried := by
  replace h := run_processTargets_iff.mp h
  induction h with
  | @nil o w => exact ⟨[], [], [], rfl, by simp, by simp [writtenOf, skippedOf], List.prefix_rfl, .refl w⟩
  | @unseen t rest o w e => exact ⟨[], t :: rest, [], .fail o e List.nil_prefix (.refl w)⟩
  | @skipped t _ _ _ w _ _ _ _ ih =>
      have hnote : w.PostsNothing (w.note [skippedNote t.name]) := .of_eq rfl rfl rfl
      obtain ⟨past, rest, tried, hpasses⟩ := ih
      exact ⟨_, rest, tried, hpasses.skip hnote⟩
  | @failed t rest o w w' e _ hgenerated =>
      have hposts := posts_generateTarget hgenerated
      exact ⟨[], t :: rest, [t], .fail o e List.prefix_rfl (by simpa [recorded] using hposts)⟩
  | written _ hgenerated _ ih =>
      obtain ⟨past, rest, tried, hpasses⟩ := ih
      exact ⟨_, rest, tried, hpasses.write (posts_generateTarget hgenerated)⟩

end

/-! ## What an outcome says -/

/-- The diagnostic that an outcome calls for. -/
def Outcome.diagnostic? (o : Outcome) : Option Diagnostic :=
  o.error.map fun text => ⟨Diagnostic.errorSeverity, o.name ++ ": " ++ text⟩

/-- An outcome agrees with a declaration, and with the resources that were asked for on its account: the
declaration came past the first targets, so many of them, each of which was written or skipped. -/
structure Outcome.IsAccount (o : Outcome) (d : Declaration) (calls : List ResourceName)
    (count : Nat) : Prop where
  name : o.name = d.name
  count_le : count ≤ 2
  /-- It came past both targets exactly if it did not fail. -/
  through : count = 2 ↔ o.error = none
  /-- Each target that it came past is in one of the lists and not in the other. -/
  once : ∀ t ∈ d.targets.take count, t.name ∈ o.written ↔ t.name ∉ o.skipped
  /-- Nothing else is in the lists, and they are in order. -/
  written : o.written.Sublist ((d.targets.take count).map Target.name)
  skipped : o.skipped.Sublist ((d.targets.take count).map Target.name)
  /-- Each target that was written asked for its resource once, and the one at which the declaration
  failed may have. -/
  asked : ∃ tried, tried <+: (d.targets.drop count).take 1 ∧ calls.map some =
    (((d.targets.take count).filter fun t => t.name ∈ o.written) ++ tried).map Target.resource?
  /-- A declaration that is not accepted comes past none, and asks for nothing. -/
  rejected : d.validate ≠ .ok () → count = 0 ∧ calls = []

/-- A target that a run came past is listed by the kind of what became of it. -/
theorem name_mem_filter_iff {past : List (Target × Bool)} {entry : Target × Bool}
    {p : Target × Bool → Bool} (hnodup : (past.map fun entry => entry.1.name).Nodup)
    (hentry : entry ∈ past) :
    entry.1.name ∈ ((past.filter p).map Prod.fst).map Target.name ↔ p entry = true := by
  rw [List.map_map]
  constructor
  · intro hmem
    obtain ⟨other, hother, hname⟩ := List.mem_map.mp hmem
    obtain ⟨hpast, hp⟩ := List.mem_filter.mp hother
    have hsame : other = entry := List.inj_on_of_nodup_map hnodup hpast hentry hname
    exact hsame ▸ hp
  · intro hp
    exact List.mem_map_of_mem (List.mem_filter.mpr ⟨hentry, hp⟩)

/-- Targets that each have a resource ask for one each. -/
theorem map_some_flatMap_resource? {ts : List Target} (h : ∀ t ∈ ts, t.resource?.isSome) :
    (ts.flatMap fun t => t.resource?.toList).map some = ts.map Target.resource? := by
  induction ts with
  | nil => rfl
  | cons t rest ih =>
      obtain ⟨ht, hrest⟩ := List.forall_mem_cons.mp h
      obtain ⟨resource, hresource⟩ := Option.isSome_iff_exists.mp ht
      rw [List.flatMap_cons, List.map_append, ih hrest, hresource]
      simp [hresource]

theorem isSome_resource? {d : Declaration} (hvalid : d.validate = .ok ()) {t : Target}
    (ht : t ∈ d.targets) : t.resource?.isSome := by
  rw [Target.resource?, Declaration.mem_targets ht, Option.isSome_map]
  unfold Declaration.validate at hvalid
  split at hvalid
  · cases hvalid
  · next ext hext => rw [hext]; rfl

/-- The account of a declaration that is accepted, from what the run over its targets came past. -/
theorem Passes.isAccount {d : Declaration} {o o' : Outcome} {failure? : Option GenerationFailure}
    {past : List (Target × Bool)} {rest tried : List Target} (hvalid : d.validate = .ok ())
    (h : Passes d.targets ⟨d.name, [], [], none⟩ o failure? w w' past rest tried)
    (hname : o'.name = o.name) (hwritten : o'.written = o.written) (hskipped : o'.skipped = o.skipped)
    (herror : o'.error = none ↔ failure? = none) :
    o'.IsAccount d ((writtenOf past ++ tried).flatMap fun t => t.resource?.toList) past.length := by
  have htake : d.targets.take past.length = past.map Prod.fst := by
    rw [h.split, List.take_left' (List.length_map _)]
  have hdrop : d.targets.drop past.length = rest := by
    rw [h.split, List.drop_left' (List.length_map _)]
  have hlength : past.length + rest.length = 2 := by
    have htwo := congrArg List.length h.split
    rw [List.length_append, List.length_map] at htwo
    exact htwo.symm
  have hnodup : (past.map fun entry => entry.1.name).Nodup := by
    have hfront : (d.targets.take past.length).map Target.name =
        past.map fun entry => entry.1.name := by rw [htake, List.map_map]; rfl
    rw [← hfront]
    exact d.nodup_targets.sublist ((List.take_sublist _ _).map _)
  have hlistsWritten : o'.written = (writtenOf past).map Target.name := by
    rw [hwritten, h.outcome]
    rfl
  have hlistsSkipped : o'.skipped = (skippedOf past).map Target.name := by
    rw [hskipped, h.outcome]
    rfl
  refine ⟨?_, by omega, ?_, ?_, ?_, ?_, ?_, fun hrejected => absurd hvalid hrejected⟩
  · rw [hname, h.outcome]
  · rw [herror, h.through, ← List.length_eq_zero_iff]
    omega
  · intro t ht
    rw [htake] at ht
    obtain ⟨entry, hentry, rfl⟩ := List.mem_map.mp ht
    rw [hlistsWritten, hlistsSkipped, writtenOf, skippedOf, name_mem_filter_iff hnodup hentry,
      name_mem_filter_iff hnodup hentry]
    simp
  · rw [hlistsWritten, htake]
    exact (List.filter_sublist.map _).map _
  · rw [hlistsSkipped, htake]
    exact (List.filter_sublist.map _).map _
  · refine ⟨tried, hdrop ▸ h.stop, ?_⟩
    have hchosen : (d.targets.take past.length).filter (fun t => t.name ∈ o'.written) =
        writtenOf past := by
      rw [htake, hlistsWritten, List.filter_map, writtenOf]
      refine congrArg (List.map Prod.fst) (List.filter_congr fun entry hentry => ?_)
      rw [Function.comp_apply, Bool.eq_iff_iff, decide_eq_true_iff,
        name_mem_filter_iff hnodup hentry]
    rw [hchosen]
    refine map_some_flatMap_resource? fun t ht => isSome_resource? hvalid ?_
    rcases List.mem_append.mp ht with hpast | htried
    · rw [h.split]
      exact List.mem_append_left _ ((List.filter_sublist.map _).subset hpast)
    · rw [h.split]
      exact List.mem_append_right _ (List.mem_of_mem_take (h.stop.subset htried))

/-- Ending an outcome with a failure reports it, and nothing else. -/
theorem posts_failWith {o o' : Outcome} {e : GenerationFailure}
    (h : (o.failWith e).run s w = (w', .ok o')) :
    o' = { o with error := some e.report } ∧ w.Posts w' [] o'.diagnostic?.toList [] := by
  unfold Outcome.failWith at h
  split at h
  · cases (Prod.mk.inj h).2
  · obtain ⟨rfl, ho⟩ := Prod.mk.inj h
    obtain rfl := Except.ok.inj ho
    exact ⟨rfl, w.posts_report (failureDiagnostic o.name e)⟩

/-- **A declaration adds to the records what its outcome says.** -/
theorem posts_processDeclaration {d : Declaration} {o : Outcome}
    (h : (processDeclaration store d).run s w = (w', .ok o)) :
    ∃ calls count, o.IsAccount d calls count ∧
      w.Posts w' calls o.diagnostic?.toList o.written := by
  cases hvalid : d.validate with
  | error e =>
      rw [processDeclaration, hvalid] at h
      obtain ⟨rfl, hposts⟩ := posts_failWith h
      refine ⟨[], 0, ⟨rfl, by omega, by simp, by simp, List.nil_sublist _, List.nil_sublist _,
        ⟨[], List.nil_prefix, rfl⟩, fun _ => ⟨rfl, rfl⟩⟩, hposts⟩
  | ok _ =>
      rw [run_processDeclaration_of_valid hvalid] at h
      generalize hrun : (processTargets store d.targets ⟨d.name, [], [], none⟩).run s w = result at h
      obtain ⟨w₁, o₁, failure?⟩ := result
      obtain ⟨past, rest, tried, hpasses⟩ := passes_processTargets hrun
      have herror : o₁.error = none := by rw [hpasses.outcome]
      have hwritten : o₁.written = (writtenOf past).map Target.name := by rw [hpasses.outcome]; rfl
      cases failure? with
      | none =>
          obtain ⟨rfl, ho⟩ := Prod.mk.inj h
          obtain rfl := Except.ok.inj ho
          refine ⟨_, _, hpasses.isAccount hvalid rfl rfl rfl (by simp [herror]), ?_⟩
          rw [Outcome.diagnostic?, herror, hwritten]
          exact hpasses.posts
      | some e =>
          obtain ⟨rfl, hreport⟩ := posts_failWith h
          refine ⟨_, _, hpasses.isAccount hvalid rfl rfl rfl (by simp), ?_⟩
          have hposts := hpasses.posts.trans hreport
          rw [List.append_nil, List.append_nil, ← hwritten] at hposts
          exact hposts

/-! ## A batch -/

/-- An entry for each declaration, in order: its outcome, and the resources that were asked for on its
account. -/
def IsLedger (batch : List Declaration) (ledger : List (Outcome × List ResourceName)) : Prop :=
  List.Forall₂ (fun d entry => ∃ count, entry.1.IsAccount d entry.2 count) batch ledger

theorem posts_processAll {batch : List Declaration} {outcomes : List Outcome}
    (h : (processAll store batch).run s w = (w', .ok outcomes)) :
    ∃ ledger, IsLedger batch ledger ∧ outcomes = ledger.map Prod.fst ∧
      w.Posts w' (ledger.flatMap Prod.snd) (outcomes.filterMap Outcome.diagnostic?)
        (outcomes.flatMap Outcome.written) := by
  induction batch generalizing w outcomes with
  | nil =>
      obtain ⟨rfl, houtcomes⟩ := Prod.mk.inj h
      obtain rfl := Except.ok.inj houtcomes
      exact ⟨[], .nil, rfl, .refl w⟩
  | cons d rest ih =>
      obtain ⟨w₁, o, os, hfirst, hrest, rfl⟩ := run_processAll_cons.mp h
      obtain ⟨calls, count, haccount, hposts⟩ := posts_processDeclaration hfirst
      obtain ⟨ledger, hledger, rfl, hlater⟩ := ih hrest
      refine ⟨(o, calls) :: ledger, .cons ⟨count, haccount⟩ hledger, rfl, ?_⟩
      have hdiagnostics (os : List Outcome) : (o :: os).filterMap Outcome.diagnostic? =
          o.diagnostic?.toList ++ os.filterMap Outcome.diagnostic? := by
        rw [List.filterMap_cons]
        cases o.diagnostic? <;> rfl
      rw [hdiagnostics]
      exact hposts.trans hlater

/-- **The records of a batch agree.**  There is an outcome for each declaration, in order; the resources
asked for are those on the accounts of the declarations; the diagnostics are those that the outcomes call
for; and the registry has what it had, and all names that are listed as written. -/
theorem batch_is_accounted_for {workers : Int} {batch : List Declaration} {r : Report}
    (h : generateWith s workers w batch = (w', .ok r)) :
    (∃ ledger, IsLedger batch ledger ∧ r.outcomes = ledger.map Prod.fst ∧
      w'.calls = w.calls ++ ledger.flatMap Prod.snd) ∧
    w'.diagnostics = w.diagnostics ++ r.outcomes.filterMap Outcome.diagnostic? ∧
    ∀ name, name ∈ w'.registry ↔ name ∈ w.registry ∨ name ∈ r.written := by
  obtain ⟨w₁, hrun, rfl⟩ := generateWith_eq_ok h
  obtain ⟨ledger, hledger, houtcomes, hposts⟩ := posts_processAll hrun
  refine ⟨⟨ledger, hledger, houtcomes, hposts.calls⟩, hposts.diagnostics, fun name => ?_⟩
  rw [World.registry, World.registry, List.mem_mergeSort, List.mem_mergeSort]
  exact hposts.written name

end

/-- One provider stands, the disk is full when the last one is written, and one type is in no package. -/
theorem batch_is_accounted_for_full_disk :
    let s : Setting :=
      { layout := ⟨[⟨.here, ["src"]⟩], [], ⟨.here, ["out"]⟩⟩, here := []
        faults := fun turn => if turn = 9 then some ⟨.write, .raised .system "full", 2⟩ else none }
    let w : World :=
      { files := ⟨[(["src"], .directory), (["src", "a"], .directory),
          (["src", "a", "T.txt"], .file [0x74]), (["src", "a", "U.txt"], .file [0x75]),
          (["src", "a", "TProvider.java"], .file [])]⟩
        written := ["a.Old"] }
    let batch : List Declaration := [{ name := "a.T" }, { name := "a.U" }, { name := "V" }]
    let ran := generateWith s 1 w batch
    let outcomes : List Outcome := [⟨"a.T", ["a.TProviderJ2cl"], ["a.TProvider"], none⟩,
      ⟨"a.U", ["a.UProvider"], [], some "Unable to write a.UProviderJ2cl: full"⟩,
      ⟨"V", [], [], some "types in the default package are not supported"⟩]
    ran.2.toOption.map (·.outcomes) = some outcomes ∧
      (∃ ledger, IsLedger batch ledger ∧ outcomes = ledger.map Prod.fst ∧
        ran.1.calls = ledger.flatMap Prod.snd) ∧
      ran.1.calls = [⟨"a", "T", "txt"⟩, ⟨"a", "U", "txt"⟩, ⟨"a", "U", "txt"⟩] ∧
      ran.1.diagnostics = [⟨"ERROR", "a.U: Unable to write a.UProviderJ2cl: full"⟩,
        ⟨"ERROR", "V: types in the default package are not supported"⟩] ∧
      ∀ name, name ∈ ran.1.registry ↔ name ∈ ["a.Old"] ∨ name ∈ ["a.TProviderJ2cl", "a.UProvider"] := by
  intro s w batch ran outcomes
  have houtcomes : ran.2.toOption.map (·.outcomes) = some outcomes := by decide +kernel
  have hcalls : ran.1.calls = [⟨"a", "T", "txt"⟩, ⟨"a", "U", "txt"⟩, ⟨"a", "U", "txt"⟩] := by
    decide +kernel
  have hran : generateWith s 1 w batch = (ran.1, ran.2) := rfl
  generalize hanswer : ran.2 = answer at houtcomes hran
  cases answer with
  | error e => cases houtcomes
  | ok r =>
      have hr : r.outcomes = outcomes := Option.some.inj houtcomes
      obtain ⟨⟨ledger, hledger, hpairs, hasked⟩, hdiagnostics, hregistry⟩ :=
        batch_is_accounted_for hran
      have hwritten : r.written = ["a.TProviderJ2cl", "a.UProvider"] := by
        rw [Report.written, hr]
        rfl
      have hold : w.registry = ["a.Old"] := by decide +kernel
      rw [hr] at hpairs hdiagnostics
      rw [hwritten, hold] at hregistry
      exact ⟨houtcomes, ⟨ledger, hledger, hpairs, hasked⟩, hcalls, hdiagnostics, hregistry⟩

end TextProviders
