import TextProviders.Proofs.Generation.Course
import TextProviders.Proofs.Generation.Lost

/-!
# What a plan says about the run that follows it

A plan marks each target as existing or as missing: it looks the target up before anything is generated
(`Target.mark`).  The run that follows looks it up again, among directories, sources and records of
other types that have come about since.  Those do not change the answer.  A look-up that answers in the
course of the run answers as the plan did (`LeavesAlone.mark_of_lookup`); otherwise it meets a name that
is too long and fails, and then its declaration fails too.  So an outcome skips what is marked as
existing and writes what is marked as missing, as far as it comes (`AsMarked`).

After a run without failures a plan marks every target as existing.  What the run has written stands in
the output directory, which is looked at first; what it has skipped is found where it was found before,
unless a source root with a name that is too long comes before that place.  The path of such a root was
just absent as long as a directory on it was missing, and the run can have made that directory, on its
way to the output directory (`PlannedTooLong`).
-/

namespace TextProviders

open Program

/-! ## Marks -/

/-- How a plan marks a target: a look-up through an empty registry finds it or does not, or fails. -/
def Target.mark (t : Target) (s : Setting) (fs : FileSystem) : Except GenerationFailure Bool :=
  ({ files := fs } : World).lookup s t.name

/-- The names of those of some targets that are marked as existing, or as missing. -/
def Target.namesMarked (s : Setting) (fs : FileSystem) (found : Bool) (ts : List Target) :
    List String :=
  (ts.filter fun t => (t.mark s fs).toOption = some found).map Target.name

section

variable {s : Setting} {fs : FileSystem} {found : Bool} {t : Target} {ts : List Target}

theorem Target.namesMarked_cons (h : t.mark s fs = .ok found) (which : Bool) :
    Target.namesMarked s fs which (t :: ts) =
      (if found = which then [t.name] else []) ++ Target.namesMarked s fs which ts := by
  cases found <;> cases which <;> simp [namesMarked, h, Except.toOption]

theorem Target.namesMarked_append (ts ts' : List Target) :
    Target.namesMarked s fs found (ts ++ ts') =
      Target.namesMarked s fs found ts ++ Target.namesMarked s fs found ts' := by
  rw [namesMarked, List.filter_append, List.map_append, namesMarked, namesMarked]

end

/-! ## Look-ups in the course of a run -/

theorem sourceUnder_eq_or_error {old new : FileSystem} {here : Location} {name : String}
    {roots : List Path} (h : ∀ root ∈ roots,
      new.isFile here (Layout.sourceFile root name) = old.isFile here (Layout.sourceFile root name) ∨
        ∃ f, new.isFile here (Layout.sourceFile root name) = .error f) :
    ({ files := new } : World).sourceUnder here name roots =
        ({ files := old } : World).sourceUnder here name roots ∨
      ∃ e, ({ files := new } : World).sourceUnder here name roots = .error e := by
  induction roots with
  | nil => exact .inl rfl
  | cons root rest ih =>
      simp only [List.mem_cons, forall_eq_or_imp] at h
      obtain ⟨hroot, hrest⟩ := h
      unfold World.sourceUnder
      rcases hroot with hsame | ⟨f, hf⟩
      · rw [hsame]
        cases old.isFile here (Layout.sourceFile root name) with
        | error f => exact .inl rfl
        | ok found =>
            cases found with
            | true => exact .inl rfl
            | false => exact ih hrest
      · rw [hf]
        exact .inr ⟨_, rfl⟩

section

variable {s : Setting} {old new : FileSystem} {name : String} (hs : s.IsSeparate) (hc : old.Closed)

include hs hc

/-- Below a directory that is searched, the answer whether a source is there is the same, but for a name
that is too long and that was not met before. -/
theorem Grown.isFile_searched_cases (hg : Grown s old new) (hname : IsDotted name) {root : Path}
    (hroot : root ∈ s.layout.searchRoots) :
    new.isFile s.here (Layout.sourceFile root name) = old.isFile s.here (Layout.sourceFile root name) ∨
      (new.isFile s.here (Layout.sourceFile root name) =
          .error ⟨.nameTooLong, Layout.sourceFile root name⟩ ∧
        ¬(Layout.sourceFile root name).NamesFit) := by
  have hdots : ".." ∉ (Layout.sourceFile root name).parts := by
    rw [sourceFile_eq hname]
    simp [hs.roots root hroot, dots_not_mem_sourceParts]
  have hplace : FileSystem.placeOf s.here (Layout.sourceFile root name) =
      FileSystem.placeOf s.here root ++ sourceParts name := by
    rw [FileSystem.placeOf_eq hdots, FileSystem.placeOf_eq (hs.roots root hroot), sourceFile_eq hname,
      List.append_assoc]
    rfl
  refine FileSystem.isFile_cases_of_fileAt?_eq hg.keeps.keepsDirectories
    (hc.fileAt?_eq hg.keeps hdots ?_)
  rw [hplace]
  exact (hg.growsAt hs).get?_eq ((hs.apart root hroot).below _)

/-- A look-up of a type whose own source was not touched answers as before, or fails. -/
theorem Grown.lookup_eq_or_error (hg : Grown s old new) (hname : IsDotted name)
    (hplace : new.get? (s.placeFor name) = old.get? (s.placeFor name)) :
    ({ files := new } : World).lookup s name = ({ files := old } : World).lookup s name ∨
      ∃ e, ({ files := new } : World).lookup s name = .error e := by
  rw [lookup_of_empty, lookup_of_empty]
  refine sourceUnder_eq_or_error fun root hroot => ?_
  rcases List.mem_cons.mp hroot with rfl | hsource
  · exact (hg.isFile_cases hs hc hname hplace).imp_right fun ⟨hf, _⟩ => ⟨_, hf⟩
  · have hsearched : root ∈ s.layout.searchRoots := List.mem_append_left _ hsource
    exact (hg.isFile_searched_cases hs hc hname hsearched).imp_right fun ⟨hf, _⟩ => ⟨_, hf⟩

/-- What a look-up answers in the course of a run, about a target that is still to come, is what the
plan has marked. -/
theorem LeavesAlone.mark_of_lookup {names : String → Prop} {w : World} {t : Target} {found : Bool}
    (hl : LeavesAlone s old names { files := old } w) (ht : IsDotted t.name) (hnames : names t.name)
    (h : w.lookup s t.name = .ok found) : t.mark s old = .ok found := by
  have hfresh : Untouched s old t.name { files := old } := ⟨rfl, List.not_mem_nil⟩
  have huntouched : Untouched s old t.name w := hfresh.of_leavesAlone hl ht hnames
  rw [huntouched.lookup] at h
  rcases hl.grown.lookup_eq_or_error hs hc ht huntouched.entry with hsame | ⟨e, he⟩
  · exact hsame.symm.trans h
  · cases he.symm.trans h

end

/-! ## What a run does about the names of others -/

section

variable {s : Setting} {old : FileSystem} {w w' : World} (hs : s.IsSeparate) (hsoft : s.FailsSoftly)

include hs hsoft

theorem leavesAlone_writeSource {name : String} (hname : IsDotted name) (hg : Grown s old w.files)
    {source : String} {answer : Except GenerationFailure Unit}
    (h : (writeSource name source).run s w = (w', answer)) :
    LeavesAlone s old (· ≠ name) w w' := by
  have hmeets : (writeSource name source).Meets s (LeavesAlone s old fun _ => False)
      (LeavesAlone s old (· ≠ name)) _ w := meets_writeSource hs hname hsoft source nofun
  have hrun := (hmeets.run (fun _ _ _ => .trans) (fun _ _ hl => ⟨.refl hl.grown, .refl hl.grown⟩)
    (.refl hg) (.refl hg)).1
  rwa [h] at hrun

theorem leavesAlone_generateTarget {t : Target} (hd : t.declaration.IsPlain)
    (hg : Grown s old w.files) {answer : Except GenerationFailure Unit}
    (h : (generateTarget s.templates t).run s w = (w', answer)) :
    LeavesAlone s old (· ≠ t.name) w w' := by
  rcases run_generateTarget_cases h with ⟨hfiles, hwritten, -⟩ | ⟨w₁, source, hfiles, hwritten, hrun⟩
  · exact .of_eq hg hfiles hwritten
  · have hidle : LeavesAlone s old (· ≠ t.name) w w₁ := .of_eq hg hfiles hwritten
    exact hidle.trans (leavesAlone_writeSource hs hsoft hd.target_isDotted hidle.grown hrun)

omit hs hsoft in
/-- A target that was generated has its source in the output directory, whose names fit. -/
theorem fileAt?_of_generateTarget {t : Target} (hd : t.declaration.IsPlain)
    (h : (generateTarget s.templates t).run s w = (w', .ok ())) :
    (∃ bytes, w'.files.fileAt? s.here (s.pathFor t.name) = some bytes) ∧
      s.layout.output.NamesFit := by
  rcases run_generateTarget_cases h with ⟨-, -, e, he⟩ | ⟨w₁, source, -, -, hrun⟩
  · cases he
  · have hfile := fileAt?_of_writeSource hrun
    refine ⟨⟨_, hfile⟩, fun part hpart => ?_⟩
    obtain ⟨loc, hloc, -⟩ := FileSystem.fileAt?_eq_some_iff.mp hfile
    refine FileSystem.namesFit_of_locate hloc part ?_
    rw [s.pathFor_eq hd.target_isDotted]
    exact List.mem_append_left _ hpart

end

/-! ## Targets in the course of a run -/

/-- An outcome goes on with targets as they are marked, and what it lists as written stands in the output
directory. -/
structure AsMarked (s : Setting) (old : FileSystem) (done : List Target) (o o' : Outcome) (w' : World) :
    Prop where
  marked : ∀ t ∈ done, ∃ found, t.mark s old = .ok found
  skipped : o'.skipped = o.skipped ++ Target.namesMarked s old true done
  written : o'.written = o.written ++ Target.namesMarked s old false done
  made : ∀ t ∈ done, t.mark s old = .ok false →
    ∃ bytes, w'.files.fileAt? s.here (s.pathFor t.name) = some bytes

section

variable {s : Setting} {old : FileSystem} {w w' : World} {o o' : Outcome} {done : List Target}

theorem AsMarked.nil : AsMarked s old [] o o w' where
  marked := by simp
  skipped := by simp [Target.namesMarked]
  written := by simp [Target.namesMarked]
  made := by simp

theorem AsMarked.skip {t : Target} (ht : t.mark s old = .ok true)
    (h : AsMarked s old done { o with skipped := o.skipped ++ [t.name] } o' w') :
    AsMarked s old (t :: done) o o' w' where
  marked := List.forall_mem_cons.mpr ⟨⟨_, ht⟩, h.marked⟩
  skipped := by rw [h.skipped, Target.namesMarked_cons ht]; simp
  written := by rw [h.written, Target.namesMarked_cons ht]; simp
  made := List.forall_mem_cons.mpr ⟨(fun hmissing => by cases ht.symm.trans hmissing), h.made⟩

theorem AsMarked.write {t : Target} (ht : t.mark s old = .ok false)
    (hfile : ∃ bytes, w'.files.fileAt? s.here (s.pathFor t.name) = some bytes)
    (h : AsMarked s old done { o with written := o.written ++ [t.name] } o' w') :
    AsMarked s old (t :: done) o o' w' where
  marked := List.forall_mem_cons.mpr ⟨⟨_, ht⟩, h.marked⟩
  skipped := by rw [h.skipped, Target.namesMarked_cons ht]; simp
  written := by rw [h.written, Target.namesMarked_cons ht]; simp
  made := List.forall_mem_cons.mpr ⟨fun _ => hfile, h.made⟩

/-- What a run over targets comes to: the names of others are left alone, the first targets are treated as
they are marked, and if nothing failed these are all and the files are as before or the output directory has
names that fit. -/
structure RunsAsMarked (s : Setting) (old : FileSystem) (ts : List Target) (o o' : Outcome)
    (failure? : Option GenerationFailure) (w w' : World) : Prop where
  others : LeavesAlone s old (fun name => ∀ t ∈ ts, t.name ≠ name) w w'
  done : ∃ done rest, ts = done ++ rest ∧ AsMarked s old done o o' w' ∧ (failure? = none → rest = [])
  fits : failure? = none → w'.files = w.files ∨ s.layout.output.NamesFit

theorem runsAsMarked_processTargets (hs : s.IsSeparate) (hc : old.Closed) (hsoft : s.FailsSoftly)
    {ts : List Target} (hplain : ∀ t ∈ ts, t.declaration.IsPlain)
    (hdistinct : (ts.map Target.name).Nodup) {names : String → Prop}
    (hl : LeavesAlone s old names { files := old } w) (hnames : ∀ t ∈ ts, names t.name)
    {failure? : Option GenerationFailure}
    (h : (processTargets s.templates ts o).run s w = (w', (o', failure?))) :
    RunsAsMarked s old ts o o' failure? w w' := by
  replace h := run_processTargets_iff.mp h
  induction h generalizing names with
  | nil => exact ⟨.refl hl.grown, ⟨[], [], rfl, .nil, fun _ => rfl⟩, fun _ => .inl rfl⟩
  | @unseen t rest => exact ⟨.refl hl.grown, ⟨[], t :: rest, rfl, .nil, nofun⟩, nofun⟩
  | @skipped t rest o o' w w' failure? hlookup _ ih =>
      simp only [List.map_cons, List.nodup_cons] at hdistinct
      simp only [List.mem_cons, forall_eq_or_imp] at hplain hnames
      have hmark := hl.mark_of_lookup hs hc hplain.1.target_isDotted hnames.1 hlookup
      have hidle (others : String → Prop) :
          LeavesAlone s old others w (w.note [skippedNote t.name]) := .of_eq hl.grown rfl rfl
      obtain ⟨hothers, ⟨done, last, rfl, hdone, hall⟩, hfits⟩ :=
        ih hplain.2 hdistinct.2 (hl.trans (hidle names)) hnames.2
      refine ⟨?_, ⟨t :: done, last, rfl, hdone.skip hmark, hall⟩, hfits⟩
      exact (hidle _).trans (hothers.mono fun name hnot t' ht' => hnot t' (List.mem_cons_of_mem _ ht'))
  | @failed t rest o w w' e _ hgenerated =>
      have hstep := leavesAlone_generateTarget hs hsoft (hplain t List.mem_cons_self) hl.grown hgenerated
      exact ⟨hstep.mono fun name hnot => Ne.symm (hnot t List.mem_cons_self),
        ⟨[], t :: rest, rfl, .nil, nofun⟩, nofun⟩
  | @written t rest o o' w w₁ w' failure? hlookup hgenerated hrest ih =>
      simp only [List.map_cons, List.nodup_cons, List.mem_map, not_exists, not_and] at hdistinct
      simp only [List.mem_cons, forall_eq_or_imp] at hplain hnames
      have hmark := hl.mark_of_lookup hs hc hplain.1.target_isDotted hnames.1 hlookup
      have hstep := leavesAlone_generateTarget hs hsoft hplain.1 hl.grown hgenerated
      obtain ⟨⟨bytes, hfile⟩, hfitting⟩ := fileAt?_of_generateTarget hplain.1 hgenerated
      have hl₁ : LeavesAlone s old (fun name => names name ∧ name ≠ t.name) { files := old } w₁ :=
        (hl.mono fun _ hname => hname.1).trans (hstep.mono fun _ hname => hname.2)
      obtain ⟨hothers, ⟨done, last, rfl, hdone, hall⟩, -⟩ := ih hplain.2 hdistinct.2 hl₁
        fun t' ht' => ⟨hnames.2 t' ht', hdistinct.1 t' ht'⟩
      refine ⟨?_, ⟨t :: done, last, rfl, hdone.write hmark ?_, hall⟩, fun _ => .inr hfitting⟩
      · exact (hstep.mono fun name hnot => Ne.symm (hnot t List.mem_cons_self)).trans
          (hothers.mono fun name hnot t' ht' => hnot t' (List.mem_cons_of_mem _ ht'))
      · exact ⟨bytes, (keeps_processTargets (run_processTargets_iff.mpr hrest)).fileAt? hfile⟩

end

/-! ## Declarations -/

/-- An outcome follows the marks of its declaration's targets: one that is ok skips those that exist and
writes those that are missing, all of them and in order; one that failed does so with some. -/
structure Outcome.FollowsMarks (o : Outcome) (s : Setting) (fs : FileSystem) (d : Declaration) :
    Prop where
  marked : o.ok = true → ∀ t ∈ d.targets, ∃ found, t.mark s fs = .ok found
  skipped : o.ok = true → o.skipped = Target.namesMarked s fs true d.targets
  written : o.ok = true → o.written = Target.namesMarked s fs false d.targets
  failed : o.ok = false → o.skipped ⊆ Target.namesMarked s fs true d.targets ∧
    o.written ⊆ Target.namesMarked s fs false d.targets

section

variable {s : Setting} {old : FileSystem} {w w' : World} {o : Outcome} {d : Declaration}

/-- A declaration leaves alone the names of others and has an outcome that follows the marks; what that
lists as written stands. -/
structure Declaration.RunsAsMarked (s : Setting) (old : FileSystem) (d : Declaration) (o : Outcome)
    (w w' : World) : Prop where
  others : LeavesAlone s old (fun name => ¬d.Asks name) w w'
  follows : o.FollowsMarks s old d
  made : o.ok = true → ∀ t ∈ d.targets, t.mark s old = .ok false →
    ∃ bytes, w'.files.fileAt? s.here (s.pathFor t.name) = some bytes
  fits : o.ok = true → w'.files = w.files ∨ s.layout.output.NamesFit

theorem runsAsMarked_processDeclaration (hs : s.IsSeparate) (hc : old.Closed) (hsoft : s.FailsSoftly)
    (hd : d.IsPlain) {names : String → Prop} (hl : LeavesAlone s old names { files := old } w)
    (hnames : ∀ name, d.Asks name → names name)
    (h : (processDeclaration s.templates d).run s w = (w', .ok o)) : d.RunsAsMarked s old o w w' := by
  rcases run_processDeclaration_cases h with
    ⟨hfiles, hrecorded, hwritten, hskipped, hfailed⟩ |
    ⟨-, w₁, o₁, failure?, hrun, hfiles, hrecorded, hwritten, hskipped, hok⟩
  · have hnot : o.ok ≠ true := by simp [hfailed]
    refine ⟨.of_eq hl.grown hfiles hrecorded, ⟨fun hgood => (hnot hgood).elim,
      fun hgood => (hnot hgood).elim, fun hgood => (hnot hgood).elim, fun _ => ?_⟩,
      fun hgood => (hnot hgood).elim, fun hgood => (hnot hgood).elim⟩
    simp [hwritten, hskipped]
  · obtain ⟨hothers, ⟨done, rest, hall, hdone, hcomplete⟩, hfits⟩ := runsAsMarked_processTargets hs hc
      hsoft (fun t ht => hd.target ht) d.nodup_targets hl
      (fun t ht => hnames _ (Declaration.asks_of_mem ht)) hrun
    have hlater : LeavesAlone s old (fun name => ¬d.Asks name) w₁ w' :=
      .of_eq hothers.grown hfiles hrecorded
    have hlists : o.skipped = Target.namesMarked s old true done ∧
        o.written = Target.namesMarked s old false done := by
      rw [hskipped, hwritten, hdone.skipped, hdone.written]
      exact ⟨rfl, rfl⟩
    -- an outcome that is ok has come past all targets
    have htargets (hgood : o.ok = true) : done = d.targets := by
      rw [hall, hcomplete (hok hgood), List.append_nil]
    refine ⟨.trans (hothers.mono fun name hnot t ht hname => hnot ⟨t, ht, hname⟩) hlater, ?_, ?_, ?_⟩
    · refine ⟨fun hgood => ?_, fun hgood => ?_, fun hgood => ?_, fun _ => ⟨?_, ?_⟩⟩
      · exact htargets hgood ▸ hdone.marked
      · rw [hlists.1, htargets hgood]
      · rw [hlists.2, htargets hgood]
      · rw [hlists.1, hall, Target.namesMarked_append]
        exact List.subset_append_left _ _
      · rw [hlists.2, hall, Target.namesMarked_append]
        exact List.subset_append_left _ _
    · intro hgood
      rw [hfiles, ← htargets hgood]
      exact hdone.made
    · intro hgood
      rw [hfiles]
      exact hfits (hok hgood)

end

/-! ## Batches -/

section

variable {s : Setting} {old : FileSystem} {w w' : World}

/-- What a run over a batch comes to: each outcome follows the marks, and if all are ok, what was not marked
as existing stands in the output directory. -/
structure BatchRunsAsMarked (s : Setting) (old : FileSystem) (batch : List Declaration)
    (outcomes : List Outcome) (w w' : World) : Prop where
  follows : List.Forall₂ (fun d o => o.FollowsMarks s old d) batch outcomes
  made : (∀ o ∈ outcomes, o.ok = true) → ∀ d ∈ batch, ∀ t ∈ d.targets,
    t.mark s old = .ok true ∨ ∃ bytes, w'.files.fileAt? s.here (s.pathFor t.name) = some bytes
  fits : (∀ o ∈ outcomes, o.ok = true) → w'.files = w.files ∨ s.layout.output.NamesFit

theorem runsAsMarked_processAll (hs : s.IsSeparate) (hc : old.Closed) (hsoft : s.FailsSoftly)
    {batch : List Declaration} (hplain : ∀ d ∈ batch, d.IsPlain)
    (hdistinct : (batch.map Declaration.name).Nodup) {names : String → Prop}
    (hl : LeavesAlone s old names { files := old } w)
    (hnames : ∀ d ∈ batch, ∀ name, d.Asks name → names name) {outcomes : List Outcome}
    (h : (processAll s.templates batch).run s w = (w', .ok outcomes)) :
    BatchRunsAsMarked s old batch outcomes w w' := by
  induction batch generalizing w outcomes names with
  | nil =>
      cases h
      exact ⟨.nil, by simp, fun _ => .inl rfl⟩
  | cons d rest ih =>
      simp only [List.map_cons, List.nodup_cons, List.mem_map, not_exists, not_and] at hdistinct
      obtain ⟨hother, hrest⟩ := hdistinct
      simp only [List.mem_cons, forall_eq_or_imp] at hplain hnames
      obtain ⟨w₁, o, os, hfirst, hlater, rfl⟩ := run_processAll_cons.mp h
      have hd := runsAsMarked_processDeclaration hs hc hsoft hplain.1 hl hnames.1 hfirst
      have hl₁ : LeavesAlone s old (fun name => names name ∧ ¬d.Asks name) { files := old } w₁ :=
        (hl.mono fun _ hname => hname.1).trans (hd.others.mono fun _ hname => hname.2)
      have hothers (d' : Declaration) (hd' : d' ∈ rest) (name : String) (hasks : d'.Asks name) :
          names name ∧ ¬d.Asks name :=
        ⟨hnames.2 d' hd' name hasks, fun hboth => hother d' hd' (hasks.name_eq hboth)⟩
      obtain ⟨hfollows, hmade, hfits⟩ := ih hplain.2 hrest hl₁ hothers hlater
      have hkeeps : w₁.files.Keeps w'.files := by
        have hspared := ((spares_processAll s w₁.files s.templates rest).run (w := w₁) (.refl _)).1
        rwa [hlater] at hspared
      refine ⟨.cons hd.follows hfollows, fun hgood => ?_, fun hgood => ?_⟩
      · simp only [List.mem_cons, forall_eq_or_imp] at hgood
        refine List.forall_mem_cons.mpr ⟨fun t ht => ?_, hmade hgood.2⟩
        obtain ⟨found, hmark⟩ := hd.follows.marked hgood.1 t ht
        cases found with
        | true => exact .inl hmark
        | false =>
            obtain ⟨bytes, hfile⟩ := hd.made hgood.1 t ht hmark
            exact .inr ⟨bytes, hkeeps.fileAt? hfile⟩
      · simp only [List.mem_cons, forall_eq_or_imp] at hgood
        rcases hd.fits hgood.1, hfits hgood.2 with ⟨hfiles | hfit, hfiles' | hfit'⟩
        · exact .inl (hfiles'.trans hfiles)
        · exact .inr hfit'
        · exact .inr hfit
        · exact .inr hfit

end

/-! ## Plans after a run -/

/-- What is marked as existing is marked so again if everything is kept, unless the look-up comes before it
to a source root with a name that is too long. -/
theorem Target.mark_cases_of_keeps {s : Setting} {old new : FileSystem} {t : Target}
    (hk : old.Keeps new) (hfits : new = old ∨ s.layout.output.NamesFit) (h : t.mark s old = .ok true) :
    t.mark s new = .ok true ∨ ∃ root ∈ s.layout.sources, ¬root.NamesFit ∧
      t.mark s new = .error (.access ⟨.nameTooLong, Layout.sourceFile root t.name⟩) := by
  rcases hfits with rfl | hfits
  · exact .inl h
  · rw [Target.mark, lookup_of_empty] at h ⊢
    refine (sourceUnder_keeps_cases hk h).imp_right ?_
    rintro ⟨root, hroot, hlong, herror⟩
    rcases List.mem_cons.mp hroot with rfl | hsource
    · exact absurd hfits hlong
    · exact ⟨root, hsource, hlong, herror⟩

/-- **A run does what a plan has marked.**  An outcome that is ok skips the targets that were marked as
existing and writes those that were marked as missing; one that failed does so with some of them.  After a
report that is ok a plan marks every target as existing, unless a look-up comes to a source root with a name
that is too long, where it fails. -/
theorem generate_follows_plan {s : Setting} {fs : FileSystem} {batch : List Declaration}
    (hs : s.IsSeparate) (hc : fs.Closed) (hsoft : s.FailsSoftly) (hplain : ∀ d ∈ batch, d.IsPlain)
    (hdistinct : (batch.map Declaration.name).Nodup) :
    ∃ w r, (generate s.templates batch).run s { files := fs } = (w, .ok r) ∧
      List.Forall₂ (fun d o => o.FollowsMarks s fs d) batch r.outcomes ∧
      (r.ok = true → ∀ d ∈ batch, ∀ t ∈ d.targets,
        t.mark s w.files = .ok true ∨ ∃ root ∈ s.layout.sources, ¬root.NamesFit ∧
          t.mark s w.files = .error (.access ⟨.nameTooLong, Layout.sourceFile root t.name⟩)) := by
  obtain ⟨w, r, hrun⟩ := exists_report hsoft { files := fs } batch
  obtain ⟨w₁, hall, rfl⟩ := run_generate_eq_ok hrun
  have hfresh : LeavesAlone s fs (fun _ => True) { files := fs } { files := fs } := .refl (.refl s fs)
  obtain ⟨hfollows, hmade, hfits⟩ := runsAsMarked_processAll hs hc hsoft hplain hdistinct hfresh
    (fun _ _ _ _ => trivial) hall
  have hkeeps : fs.Keeps w₁.files := by
    have hspared :=
      ((spares_processAll s fs s.templates batch).run (w := { files := fs }) (.refl _)).1
    rwa [hall] at hspared
  refine ⟨_, r, hrun, hfollows, fun hok d hd t ht => ?_⟩
  have hgood : ∀ o ∈ r.outcomes, o.ok = true := List.all_eq_true.mp hok
  rcases hmade hgood d hd t ht with hmark | ⟨bytes, hfile⟩
  · exact Target.mark_cases_of_keeps hkeeps (hfits hgood) hmark
  · exact .inl (stands_of_fileAt? hfile)

/-- One provider of a type stands beside it and the other is missing; those of another type stand in the
output directory and in a source root.  A third type has no resource, and it comes last. -/
theorem generate_follows_plan_mixed :
    let s : Setting :=
      { layout := ⟨[⟨.here, ["src"]⟩], [⟨.here, ["res"]⟩], ⟨.here, ["out", "gen"]⟩⟩
        here := []
        templates := [("runtime-loading", "class $NAME"), ("embedded-literal", "class $NAME $TEXT")] }
    let fs : FileSystem := ⟨[(["src"], .directory), (["out"], .directory), (["out", "gen"], .directory),
      (["src", "com"], .directory), (["out", "gen", "com"], .directory),
      (["src", "com", "A.txt"], .file [97]), (["src", "com", "AProvider.java"], .file []),
      (["out", "gen", "com", "BProvider.java"], .file []),
      (["src", "com", "BProviderJ2cl.java"], .file [])]⟩
    let ab : List Declaration := [{ name := "com.A" }, { name := "com.B" }]
    let batch : List Declaration := ab ++ [{ name := "com.C" }]
    (s.IsSeparate ∧ fs.Closed ∧ s.FailsSoftly ∧ (∀ d ∈ batch, d.IsPlain) ∧
        (batch.map Declaration.name).Nodup) ∧
      (∃ w r, (generate s.templates batch).run s { files := fs } = (w, .ok r) ∧
        r.outcomes.map Outcome.ok = [true, true, false] ∧
        List.Forall₂ (fun d o => o.FollowsMarks s fs d) batch r.outcomes) ∧
      ∃ w r, (generate s.templates ab).run s { files := fs } = (w, .ok r) ∧
        r.ok = true ∧ ∀ d ∈ ab, ∀ t ∈ d.targets, t.mark s w.files = .ok true := by
  intro s fs ab batch
  have hs : s.IsSeparate := by decide
  have hc : fs.Closed := FileSystem.closed_of_entries (by decide)
  have hf : s.Faultless := ⟨fun _ => rfl, by decide⟩
  have hplain : ∀ d ∈ batch, d.IsPlain := by decide
  have hdistinct : (batch.map Declaration.name).Nodup := by decide
  refine ⟨⟨hs, hc, hf.failsSoftly, hplain, hdistinct⟩, ?_, ?_⟩
  · obtain ⟨w, r, hrun, hfollows, -⟩ := generate_follows_plan hs hc hf.failsSoftly hplain hdistinct
    have hok : ((generate s.templates batch).run s { files := fs }).2.toOption.map
        (fun r => r.outcomes.map Outcome.ok) = some [true, true, false] := by decide +kernel
    rw [hrun] at hok
    exact ⟨w, r, hrun, Option.some.inj hok, hfollows⟩
  · have hplain' : ∀ d ∈ ab, d.IsPlain := by decide
    obtain ⟨w, r, hrun, -, hagain⟩ := generate_follows_plan hs hc hf.failsSoftly hplain' (by decide)
    have hok : ((generate s.templates ab).run s { files := fs }).2.toOption.map Report.ok =
        some true := by decide +kernel
    rw [hrun] at hok
    refine ⟨w, r, hrun, Option.some.inj hok, fun d hd t ht => ?_⟩
    refine (hagain (Option.some.inj hok) d hd t ht).resolve_right ?_
    rintro ⟨root, hroot, hlong, -⟩
    have hfits : ∀ root ∈ s.layout.sources, root.NamesFit := by decide
    exact hlong (hfits root hroot)

/-! ## A source root whose name does not fit

The output directory and that source root stand in the same directory, which is missing in the beginning.
One provider of a type stands in a source root that comes later. -/

namespace PlannedTooLong

/-- The second of three source roots has a name that is too long. -/
def setting : Setting where
  layout := ⟨[⟨.here, ["src"]⟩, ⟨.here, ["build", TooLong.long]⟩, ⟨.here, ["gen"]⟩], [],
    ⟨.here, ["build", "out"]⟩⟩
  here := []

/-- The resource of a type, and one of its providers. -/
def files : FileSystem :=
  ⟨[(["src"], .directory), (["src", "com"], .directory), (["src", "com", "acme"], .directory),
    (["src", "com", "acme", "New.txt"], .file [0x6E]), (["gen"], .directory),
    (["gen", "com"], .directory), (["gen", "com", "acme"], .directory),
    (["gen", "com", "acme", "NewProvider.java"], .file [])]⟩

theorem isSeparate : setting.IsSeparate := by
  have hlong : TooLong.long ≠ "out" := by
    intro h
    have hsize := congrArg String.utf8ByteSize h
    rw [TooLong.utf8ByteSize_long] at hsize
    cases hsize
  refine ⟨by decide, ?_, ?_⟩
  · simp [setting, Layout.searchRoots, Ne.symm TooLong.long_ne_dots]
  · simp [setting, Layout.searchRoots, Setting.outputPlace, FileSystem.placeOf, FileSystem.walk,
      FileSystem.Apart, TooLong.long_ne_dots, hlong, Ne.symm hlong]

section

variable {fs : FileSystem} {source name : String} (hname : IsDotted name)
  (hparts : sourceParts name = ["com", "acme", source])
  (hsource : '\x00' ∉ source.toList ∧ source.utf8ByteSize ≤ FileSystem.maxName)

include hname hparts hsource

/-- Below that source root nothing is found for as long as the directory is missing. -/
theorem isFile_of_missing (hnone : fs.get? ["build"] = none) :
    fs.isFile [] (Layout.sourceFile ⟨.here, ["build", TooLong.long]⟩ name) = .ok false := by
  obtain ⟨rest, hpath, hrest, hplace⟩ := TooLong.leadsTooLong.pathFor_parts hname
  exact isFile_of_firstMissing hpath hrest (TooLong.isTaken_pathFor hname hparts hsource) (by decide)
    (by decide) (hplace ▸ hnone)

/-- Afterwards the look-up fails. -/
theorem isFile_of_there (hthere : fs.get? ["build"] = some .directory) :
    fs.isFile [] (Layout.sourceFile ⟨.here, ["build", TooLong.long]⟩ name) =
      .error ⟨.nameTooLong, Layout.sourceFile ⟨.here, ["build", TooLong.long]⟩ name⟩ := by
  obtain ⟨rest, hpath, hrest, hplace⟩ := TooLong.leadsTooLong.pathFor_parts hname
  exact isFile_of_firstThere hpath hrest (TooLong.isTaken_pathFor hname hparts hsource) (by decide)
    (by decide) TooLong.long_ne_dots TooLong.leadsTooLong.long (hplace ▸ hthere)

end

/-- The directories in the order in which they are looked at. -/
theorem lookup_setting (fs : FileSystem) (name : String) :
    ({ files := fs } : World).lookup setting name = ({ files := fs } : World).sourceUnder [] name
      [⟨.here, ["build", "out"]⟩, ⟨.here, ["src"]⟩, ⟨.here, ["build", TooLong.long]⟩, ⟨.here, ["gen"]⟩] :=
  lookup_of_empty setting fs name

section

variable {fs : FileSystem} {name : String}
  (hout : fs.isFile [] (Layout.sourceFile ⟨.here, ["build", "out"]⟩ name) = .ok false)
  (hsrc : fs.isFile [] (Layout.sourceFile ⟨.here, ["src"]⟩ name) = .ok false)

include hout hsrc

theorem lookup_of_last {found : Bool}
    (hlong : fs.isFile [] (Layout.sourceFile ⟨.here, ["build", TooLong.long]⟩ name) = .ok false)
    (hgen : fs.isFile [] (Layout.sourceFile ⟨.here, ["gen"]⟩ name) = .ok found) :
    ({ files := fs } : World).lookup setting name = .ok found := by
  rw [lookup_setting]
  cases found <;> simp only [World.sourceUnder, hlong, hout, hsrc, hgen]

theorem lookup_of_failure {f : AccessFailure}
    (hlong : fs.isFile [] (Layout.sourceFile ⟨.here, ["build", TooLong.long]⟩ name) = .error f) :
    ({ files := fs } : World).lookup setting name = .error (.access f) := by
  rw [lookup_setting]
  simp only [World.sourceUnder, hlong, hout, hsrc]

end

/-- The provider that is written in the run takes its directory with it, and the plan after the run does
not find the provider that was skipped. -/
theorem skipped_provider_is_lost_to_plan :
    let t : Target := ⟨.runtimeLoading, TooLong.new⟩
    (setting.IsSeparate ∧ files.Closed ∧ setting.Faultless ∧ TooLong.new.IsPlain) ∧
      t.mark setting files = .ok true ∧
      ∃ w r, (generate setting.templates [TooLong.new]).run setting { files } = (w, .ok r) ∧
        r.ok = true ∧ t.mark setting w.files = .error (.access ⟨.nameTooLong,
          Layout.sourceFile ⟨.here, ["build", TooLong.long]⟩ t.name⟩) := by
  intro t
  let t' : Target := ⟨.embeddedLiteral, TooLong.new⟩
  have hparts : sourceParts t.name = ["com", "acme", "NewProvider.java"] := by decide
  have hparts' : sourceParts t'.name = ["com", "acme", "NewProviderJ2cl.java"] := by decide
  have hname : IsDotted t.name := Declaration.IsPlain.target_isDotted TooLong.isPlain_new
  have hname' : IsDotted t'.name := Declaration.IsPlain.target_isDotted TooLong.isPlain_new
  -- before the run
  have hmark : t.mark setting files = .ok true :=
    lookup_of_last (by decide +kernel) (by decide +kernel)
      (isFile_of_missing hname hparts (by decide) rfl) (by decide +kernel)
  have hmark' : t'.mark setting files = .ok false :=
    lookup_of_last (by decide +kernel) (by decide +kernel)
      (isFile_of_missing hname' hparts' (by decide) rfl) (by decide +kernel)
  -- the run
  generalize hgenerated : (generateTarget setting.templates t').run setting
    (({ files } : World).note [skippedNote t.name]) = generated
  have hafter : generated.2 = .ok () ∧ generated.1.files.get? ["build"] = some .directory ∧
      generated.1.files.isFile [] (Layout.sourceFile ⟨.here, ["build", "out"]⟩ t.name) = .ok false ∧
      generated.1.files.isFile [] (Layout.sourceFile ⟨.here, ["src"]⟩ t.name) = .ok false := by
    rw [← hgenerated]
    decide +kernel
  obtain ⟨w, answer⟩ := generated
  obtain ⟨rfl, hthere, hout, hsrc⟩ := hafter
  have hlookup : ({ files } : World).lookup setting t.name = .ok true := hmark
  have hlookup' : (({ files } : World).note [skippedNote t.name]).lookup setting t'.name =
      .ok false := by
    have hfresh : Untouched setting files t'.name (({ files } : World).note [skippedNote t.name]) :=
      ⟨rfl, List.not_mem_nil⟩
    exact hfresh.lookup.trans hmark'
  have htargets : (processTargets setting.templates TooLong.new.targets
      ⟨TooLong.new.name, [], [], none⟩).run setting { files } =
        (w, (⟨TooLong.new.name, [t'.name], [t.name], none⟩, none)) := by
    rw [Declaration.targets, run_processTargets_of_true hlookup, run_processTargets_of_false hlookup',
      hgenerated]
    rfl
  have hdeclaration : (processDeclaration setting.templates TooLong.new).run setting { files } =
      (w, .ok ⟨TooLong.new.name, [t'.name], [t.name], none⟩) := by
    rw [run_processDeclaration_of_valid (by decide), htargets]
  have hall : (processAll setting.templates [TooLong.new]).run setting { files } =
      (w, .ok [⟨TooLong.new.name, [t'.name], [t.name], none⟩]) :=
    run_processAll_cons.mpr ⟨w, _, [], hdeclaration, rfl, rfl⟩
  -- the plan after it
  have hlost := lookup_of_failure hout hsrc (isFile_of_there hname hparts (by decide) hthere)
  exact ⟨⟨isSeparate, FileSystem.closed_of_entries (by decide), ⟨fun _ => rfl, by decide⟩,
    TooLong.isPlain_new⟩, hmark, _, _, run_generate_of_processAll hall, rfl, hlost⟩

end PlannedTooLong

end TextProviders
