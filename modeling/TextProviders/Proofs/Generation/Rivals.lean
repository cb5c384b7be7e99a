import TextProviders.Proofs.Generation.Accounts
import TextProviders.Proofs.Generation.Conclusion

/-!
# Declarations of one type

A batch can list a type more than once, and then several declarations work on the sources of the same
providers, so that none of them owns their names.  If no call fails, this much is true of every name
all the time: nothing was done about it, or its source is there, and some declaration of the batch
writes it if it runs alone (`Supplied`).  No step of any declaration ends this, and no source goes away
again (`Adds`).

A declaration that finds a source made by a rival between its own look-up and its own attempt to make
it fails there.  It does not matter for the sources: the rival goes on with the next target.  So in the
end the names that are listed as written are those that some declaration writes alone, however the
steps of the declarations were interleaved (`Settled.listed_iff`).
-/

namespace TextProviders

open Program

/-! ## What decides a fate -/

/-- The source of a name is not found and can be made. -/
def Setting.CanWrite (s : Setting) (fs : FileSystem) (name : String) : Prop :=
  ({ files := fs } : World).lookup s name = .ok false ∧ fs.IsClear s.here (s.pathFor name)

/-- A provider of that name is no reason to fail if its resource has a text. -/
def Setting.Admits (s : Setting) (fs : FileSystem) (name : String) : Prop :=
  s.Stands fs name ∨ s.CanWrite fs name

/-- Some declaration of a batch writes the source of a name if it runs alone. -/
def Wanted (s : Setting) (fs : FileSystem) (batch : List Declaration) (name : String) : Prop :=
  ∃ d ∈ batch, ∃ t ∈ d.passed s fs, t.name = name ∧ (t.fate s fs).isWritten = true

section

variable {s : Setting} {fs : FileSystem} {t t' : Target}

theorem Target.isWritten_iff (hs : s.IsSeparate) (ht : IsDotted t.name) :
    (t.fate s fs).isWritten = true ↔
      s.CanWrite fs t.name ∧ ∃ source, t.source? s fs = some source := by
  simp only [Fate.isWritten_iff, Target.fate_eq_written_iff hs ht, Setting.CanWrite]
  constructor
  · rintro ⟨source, hlookup, hsource, hclear⟩
    exact ⟨⟨hlookup, hclear⟩, source, hsource⟩
  · rintro ⟨⟨hlookup, hclear⟩, source, hsource⟩
    exact ⟨source, hlookup, hsource, hclear⟩

/-- The providers of a declaration have sources or none has one, as they share their resource. -/
theorem Target.exists_source (htemplates : s.HasTemplates) (h : t'.declaration = t.declaration)
    (hsource : ∃ source, t.source? s fs = some source) :
    ∃ source, t'.source? s fs = some source := by
  obtain ⟨source, hsource⟩ := hsource
  simp only [source?, Option.bind_eq_some_iff] at hsource ⊢
  obtain ⟨ext, hext, text, htext, -⟩ := hsource
  obtain ⟨source', hrendered⟩ := htemplates.render t'.strategy
    (t'.bindings (ResourceName.mk t'.declaration.package t'.declaration.simpleName ext).fileName text)
  refine ⟨source', ext, h ▸ hext, text, h ▸ htext, ?_⟩
  rw [hrendered]
  rfl

/-- With a source for it, a provider that is admitted is not failed at. -/
theorem Target.fate_ne_failed (hs : s.IsSeparate) (ht : IsDotted t.name)
    (hadmits : s.Admits fs t.name) (hsource : ∃ source, t.source? s fs = some source) :
    t.fate s fs ≠ .failed := by
  intro hfailed
  rcases hadmits with hstands | hcan
  · cases hfailed.symm.trans (Target.fate_eq_skipped_iff.mpr hstands)
  · have hwritten := (Target.isWritten_iff hs ht).mpr ⟨hcan, hsource⟩
    rw [hfailed] at hwritten
    cases hwritten

/-- A provider that is to be written is passed if those before it are admitted. -/
theorem Declaration.mem_passed (hs : s.IsSeparate) (htemplates : s.HasTemplates) {d : Declaration}
    (hplain : d.IsPlain) (hvalid : d.validate = .ok ()) {before rest : List Target}
    (htargets : d.targets = before ++ t :: rest) (hbefore : ∀ t' ∈ before, s.Admits fs t'.name)
    (hwritten : (t.fate s fs).isWritten = true) : t ∈ d.passed s fs := by
  have hmem (t' : Target) (ht' : t' ∈ before ++ t :: rest) : t' ∈ d.targets := htargets ▸ ht'
  have hdotted (t' : Target) (ht' : t' ∈ d.targets) : IsDotted t'.name :=
    (hplain.target ht').target_isDotted
  have ht : t ∈ d.targets := hmem t (by simp)
  have hsource := ((Target.isWritten_iff hs (hdotted t ht)).mp hwritten).2
  have hpassed : ∀ t' ∈ before, decide (t'.fate s fs ≠ .failed) = true := by
    intro t' ht'
    have htarget := hmem t' (List.mem_append_left _ ht')
    refine decide_eq_true (Target.fate_ne_failed hs (hdotted t' htarget) (hbefore t' ht') ?_)
    exact Target.exists_source htemplates
      ((Declaration.mem_targets htarget).trans (Declaration.mem_targets ht).symm) hsource
  have hnot : t.fate s fs ≠ .failed := fun hfailed => by
    rw [hfailed] at hwritten
    cases hwritten
  unfold Declaration.passed
  rw [hvalid]
  dsimp only
  rw [htargets, List.takeWhile_append_of_pos hpassed]
  simp [hnot]

end

/-! ## What is true all the time -/

/-- The source of a name is there, and some declaration of the batch writes it alone. -/
structure Supplied (s : Setting) (old : FileSystem) (batch : List Declaration) (name : String)
    (w : World) : Prop where
  located : w.files.locate s.here (s.pathFor name) = .ok (.at (s.placeFor name))
  file : w.HasFile (s.placeFor name)
  wanted : Wanted s old batch name

/-- From one world to the next no source went away, and of each name it is true that nothing was done
about it or that its source is there, as some declaration wants it. -/
structure Adds (s : Setting) (old : FileSystem) (batch : List Declaration) (w w' : World) : Prop where
  grown : Grown s old w'.files
  names : ∀ name, IsDotted name → Untouched s old name w' ∨ Supplied s old batch name w'
  kept : ∀ name, IsDotted name → Supplied s old batch name w → Supplied s old batch name w'

section

variable {s : Setting} {old : FileSystem} {batch : List Declaration} {name : String}
  {w w' w₁ w₂ w₃ : World}

theorem Supplied.stands (h : Supplied s old batch name w) : s.Stands w.files name := by
  obtain ⟨bytes, hfile⟩ := h.file
  exact stands_of_fileAt? (FileSystem.fileAt?_eq_some_iff.mpr ⟨_, h.located, hfile⟩)

theorem Supplied.of_leavesAlone {names : String → Prop} (h : Supplied s old batch name w)
    (hl : LeavesAlone s old names w w') (hname : IsDotted name) (hleft : names name) :
    Supplied s old batch name w' := by
  obtain ⟨bytes, hfile⟩ := h.file
  exact ⟨FileSystem.locate_of_keepsDirectories hl.directories h.located,
    ⟨bytes, (hl.entry name hname hleft).trans hfile⟩, h.wanted⟩

theorem Adds.start (s : Setting) (old : FileSystem) (batch : List Declaration) :
    Adds s old batch { files := old } { files := old } :=
  ⟨.refl s old, fun _ _ => .inl ⟨rfl, List.not_mem_nil⟩, fun _ _ => id⟩

theorem Adds.trans (h : Adds s old batch w₁ w₂) (h' : Adds s old batch w₂ w₃) :
    Adds s old batch w₁ w₃ :=
  ⟨h'.grown, h'.names, fun name hname hsupplied => h'.kept name hname (h.kept name hname hsupplied)⟩

theorem Adds.own (h : Adds s old batch w w') : Adds s old batch w' w' :=
  ⟨h.grown, h.names, fun _ _ => id⟩

/-- All declarations of a batch guarantee what all rely on. -/
theorem sharing_adds (s : Setting) (old : FileSystem) (batch : List Declaration) :
    Sharing (fun _ => Adds s old batch) (fun _ => Adds s old batch) where
  trans _ _ _ _ := Adds.trans
  own _ _ _ := Adds.own
  others _ _ _ _ _ := id

/-- A step that leaves alone all names but one. -/
theorem Adds.of_leavesAlone (h : Adds s old batch w w₁) (hl : LeavesAlone s old (· ≠ name) w₁ w₂)
    (hsame : Untouched s old name w₂ ∨ Supplied s old batch name w₂)
    (hkept : Supplied s old batch name w₁ → Supplied s old batch name w₂) :
    Adds s old batch w₁ w₂ := by
  refine ⟨hl.grown, fun other hother => ?_, fun other hother hsupplied => ?_⟩
  · by_cases hne : other = name
    · exact hne ▸ hsame
    · exact (h.names other hother).imp (fun hu => hu.of_leavesAlone hl hother hne)
        fun hsupplied => hsupplied.of_leavesAlone hl hother hne
  · by_cases hne : other = name
    · rw [hne] at hsupplied ⊢
      exact hkept hsupplied
    · exact hsupplied.of_leavesAlone hl hother hne

theorem Adds.of_eq (h : Adds s old batch w w₁) (hfiles : w₂.files = w₁.files)
    (hwritten : w₂.written = w₁.written) : Adds s old batch w₁ w₂ := by
  have hl : LeavesAlone s old (fun _ => True) w₁ w₂ := .of_eq h.grown hfiles hwritten
  refine ⟨hl.grown, fun name hname => ?_, fun name hname hsupplied => ?_⟩
  · exact (h.names name hname).imp (fun hu => hu.of_leavesAlone hl hname trivial)
      fun hsupplied => hsupplied.of_leavesAlone hl hname trivial
  · exact hsupplied.of_leavesAlone hl hname trivial

variable (hs : s.IsSeparate) (hplain : ∀ d ∈ batch, d.IsPlain)

include hs hplain

theorem Wanted.canWrite (h : Wanted s old batch name) : s.CanWrite old name := by
  obtain ⟨d, hd, t, ht, rfl, hwritten⟩ := h
  have hdotted := ((hplain d hd).target (Declaration.mem_targets_of_passed ht)).target_isDotted
  exact ((Target.isWritten_iff hs hdotted).mp hwritten).1

/-- Where a declaration wants to write nothing stood. -/
theorem Wanted.free (h : Wanted s old batch name) (hname : IsDotted name) :
    old.get? (s.placeFor name) = none := by
  have hclear := (h.canWrite hs hplain).2
  rw [← s.startOf_append_pathFor hs hname]
  exact hclear.free

end

/-! ## What the steps do -/

namespace Adds

section

variable {s : Setting} {old : FileSystem} {batch : List Declaration} {name : String} {w : World}

/-- Steps that change neither files nor records keep whatever the others keep. -/
theorem meets_rival_idle (act : Action) {P : World → Prop}
    (hfiles : ∀ w : World, (w.perform s act).1.files = w.files)
    (hwritten : ∀ w : World, (w.perform s act).1.written = w.written)
    (hstable : ∀ a b, Adds s old batch a b → P a → P b) (hP : P w) :
    (ofAction act).Meets s (Adds s old batch) (Adds s old batch) (fun w' _ => P w') w := by
  refine meets_idle act (fun w₁ hw₁ => ?_) hstable hP
  have hadds : Adds s old batch w₁ (w₁.perform s act).1 := hw₁.of_eq (hfiles w₁) (hwritten w₁)
  exact ⟨hadds, hadds⟩

variable (hs : s.IsSeparate) (hplain : ∀ d ∈ batch, d.IsPlain) (hname : IsDotted name)

include hs hplain hname

/-- The source is made by this program if its path was clear, unless another has made it. -/
theorem meets_create (hwanted : old.IsClear s.here (s.pathFor name) → Wanted s old batch name) :
    (ofAction (.create name)).Meets s (Adds s old batch) (Adds s old batch)
      (fun w' answer =>
        (∀ place, answer = .ok place → place = s.placeFor name ∧
          old.IsClear s.here (s.pathFor name)) ∧
        (old.IsClear s.here (s.pathFor name) → Supplied s old batch name w')) w := by
  refine meets_ofAction (.create name) fun w₁ hw₁ w₂ answer hstep => ?_
  rcases hw₁.names name hname with hsame | hthere
  · -- nobody has made it, so the step is the one of a program that owns the name
    have howner : (ofAction (.create name)).Meets s (LeavesAlone s old fun _ => True) _ _ w₁ :=
      TextProviders.meets_create hs hname fun _ => hsame
    obtain ⟨hleaves, hok, herror⟩ := howner.of_step (.refl hw₁.grown) hstep
    cases answer with
    | ok place =>
        obtain ⟨hplace, hmade, hholds⟩ := hok place rfl
        obtain ⟨hempty, hclear⟩ := hholds trivial
        have hsupplied : Supplied s old batch name w₂ :=
          ⟨hmade.located, ⟨[], hempty.file⟩, hwanted hclear⟩
        exact ⟨hw₁.of_leavesAlone hleaves (.inr hsupplied) fun _ => hsupplied,
          fun _ heq => ⟨Except.ok.inj heq ▸ hplace, hclear⟩, fun _ => hsupplied⟩
    | error e =>
        obtain ⟨hsame₂, hnot⟩ := herror e rfl trivial
        refine ⟨hw₁.of_leavesAlone hleaves (.inl hsame₂) fun hsupplied => ?_, nofun,
          fun hclear => absurd hclear hnot⟩
        exact absurd (hsupplied.wanted.canWrite hs hplain).2 hnot
  · -- somebody has, so it cannot be made again
    have hguest : (ofAction (.create name)).Meets s (LeavesAlone s old fun _ => False) _ _ w₁ :=
      TextProviders.meets_create hs hname False.elim
    obtain ⟨hleaves, -, -⟩ := hguest.of_step (.refl hw₁.grown) hstep
    obtain ⟨bytes, hfile⟩ := hthere.file
    have hadds := w₁.files.addsDirectories_makeDirs s.here (s.pathFor name).parent
    rcases w₁.create_isClear_cases hs hname with ⟨-, files, hmade, -, hnone, -⟩ | ⟨-, e, hfailed⟩
    · rw [hmade] at hadds
      cases hfile.symm.trans (hadds.keeps.eq_none hnone)
    · obtain ⟨hworld, hanswer⟩ := Prod.mk.inj (hfailed.symm.trans hstep)
      have hfiles : w₂.files = (w₁.files.makeDirs s.here (s.pathFor name).parent).1 := by
        rw [← hworld]
      have hsupplied : Supplied s old batch name w₂ :=
        ⟨FileSystem.locate_of_keepsDirectories hleaves.directories hthere.located,
          ⟨bytes, hfiles ▸ hadds.keeps _ _ hfile⟩, hthere.wanted⟩
      refine ⟨hw₁.of_leavesAlone hleaves (.inr hsupplied) fun _ => hsupplied, fun place hok => ?_,
        fun _ => hsupplied⟩
      cases hanswer.trans hok

/-- Writing to a source leaves it there. -/
theorem meets_write (text : String) (hw : Supplied s old batch name w) :
    (ofAction (.write (s.placeFor name) text)).Meets s (Adds s old batch) (Adds s old batch)
      (fun w' _ => Supplied s old batch name w') w := by
  refine meets_ofAction (.write (s.placeFor name) text) fun w₁ hw₁ w₂ answer hstep => ?_
  have hthere := hw₁.kept name hname hw
  obtain ⟨bytes, hfile⟩ := hthere.file
  have hmade : Made s old name w₁ := ⟨hthere.located, hthere.wanted.free hs hplain hname⟩
  have hguest : (ofAction (.write (s.placeFor name) text)).Meets s
      (LeavesAlone s old fun _ => False) _ _ w₁ :=
    TextProviders.meets_write hs hname text hmade fun h => (h.elim : Holds s name [] w₁)
  obtain ⟨hleaves, -, -⟩ := hguest.of_step (.refl hw₁.grown) hstep
  obtain ⟨more, hfiles, -, -⟩ := w₁.write_cases s (s.placeFor name) text
  rw [show w₁.write s (s.placeFor name) text = (w₂, answer) from hstep] at hfiles
  have hsupplied : Supplied s old batch name w₂ := by
    refine ⟨FileSystem.locate_of_keepsDirectories hleaves.directories hthere.located,
      ⟨bytes ++ more, ?_⟩, hthere.wanted⟩
    rw [show w₂.files = _ from hfiles]
    unfold FileSystem.append
    rw [hfile]
    exact FileSystem.get?_put_self _ (s.placeFor_ne_nil hs hname) _
  exact ⟨hw₁.of_leavesAlone hleaves (.inr hsupplied) fun _ => hsupplied, hsupplied⟩

omit hs hplain in
/-- A source that is there can be recorded. -/
theorem meets_record (hw : Supplied s old batch name w) :
    (ofAction (.record name)).Meets s (Adds s old batch) (Adds s old batch)
      (fun w' _ => Supplied s old batch name w') w := by
  refine meets_ofAction (.record name) fun w₁ hw₁ w₂ answer hstep => ?_
  have hthere := hw₁.kept name hname hw
  have hguest : (ofAction (.record name)).Meets s (LeavesAlone s old fun _ => False) _ _ w₁ :=
    TextProviders.meets_record hname fun h => (h.elim : Complete s name "" w₁)
  obtain ⟨hleaves, -⟩ := hguest.of_step (.refl hw₁.grown) hstep
  have hfiles : w₂.files = w₁.files := by
    rw [show w₂ = w₁.record name from congrArg Prod.fst hstep.symm, World.files_record]
  have hsupplied : Supplied s old batch name w₂ := by
    obtain ⟨bytes, hfile⟩ := hthere.file
    exact ⟨hfiles ▸ hthere.located, ⟨bytes, hfiles ▸ hfile⟩, hthere.wanted⟩
  exact ⟨hw₁.of_leavesAlone hleaves (.inr hsupplied) fun _ => hsupplied, hsupplied⟩

/-! ## Writing -/

omit hs hplain hname in
theorem meets_closeAfter {P : World → Prop} (e : GenerationFailure)
    (hstable : ∀ a b, Adds s old batch a b → P a → P b) (hP : P w) :
    (closeAfter e).Meets s (Adds s old batch) (Adds s old batch) (fun w' _ => P w') w := by
  refine (meets_rival_idle .close (fun w => w.files_attempt s .close)
    (fun w => w.written_attempt s .close) hstable hP).bind fun w₁ answer hw₁ => ?_
  cases answer <;> exact .pure hw₁

theorem meets_writeText (source : String) (hw : Supplied s old batch name w) :
    (writeText (s.placeFor name) source).Meets s (Adds s old batch) (Adds s old batch)
      (fun w' _ => Supplied s old batch name w') w := by
  have hstable (a b : World) (h : Adds s old batch a b) := h.kept name hname
  refine (meets_write hs hplain hname source hw).bind fun w₁ answer hw₁ => ?_
  cases answer with
  | error e => exact meets_closeAfter e hstable hw₁
  | ok _ =>
      refine (meets_rival_idle .flush (fun w => w.files_attempt s .flush)
        (fun w => w.written_attempt s .flush) hstable hw₁).bind fun w₂ answer hw₂ => ?_
      cases answer with
      | error e => exact meets_closeAfter e hstable hw₂
      | ok _ =>
          exact meets_rival_idle .close (fun w => w.files_attempt s .close)
            (fun w => w.written_attempt s .close) hstable hw₂

/-- If its path was clear the source is there in the end, whoever made it. -/
theorem meets_writeSource (hf : s.Faultless) (source : String)
    (hwanted : old.IsClear s.here (s.pathFor name) → Wanted s old batch name) :
    (writeSource name source).Meets s (Adds s old batch) (Adds s old batch)
      (fun w' answer => (answer = .ok () → old.IsClear s.here (s.pathFor name)) ∧
        (old.IsClear s.here (s.pathFor name) → Supplied s old batch name w')) w := by
  have hstable (a b : World) (h : Adds s old batch a b) := h.kept name hname
  refine (meets_create hs hplain hname hwanted).bind fun w₁ answer hw₁ => ?_
  cases answer with
  | error e => exact .pure ⟨nofun, hw₁.2⟩
  | ok place =>
      obtain ⟨hplace, hclear⟩ := hw₁.1 place rfl
      dsimp only
      rw [hplace]
      refine ((meets_writeText hs hplain hname source (hw₁.2 hclear)).and_yields
        (yields_ok_of_failsByFault hf (yields_writeText hf.failsSoftly _ source))).bind ?_
      rintro w₂ _ ⟨hw₂, rfl⟩
      refine (meets_record hname hw₂).bind fun w₃ _ hw₃ => ?_
      refine (meets_rival_idle (.note _) (fun _ => rfl) (fun _ => rfl) hstable hw₃).bind
        fun w₄ _ hw₄ => ?_
      exact .pure ⟨fun _ => hclear, fun _ => hw₄⟩

end

end Adds

/-! ## Targets -/

section

variable {s : Setting} {old : FileSystem} {batch : List Declaration} {w : World} {t : Target}
  (hs : s.IsSeparate) (hc : old.Closed) (hfit : s.NamesFit)

include hs hc hfit

/-- What a look-up tells: a provider that is found is admitted, one that is not can be written if its
path is clear, and one that cannot be looked up is failed at. -/
theorem Adds.cases_lookup (hd : t.declaration.IsPlain) (h : Adds s old batch w w) :
    (∃ e, w.lookup s t.name = .error e ∧ t.fate s old = .failed) ∨
      (w.lookup s t.name = .ok true ∧
        (t.fate s old = .skipped ∨ Supplied s old batch t.name w)) ∨
      (w.lookup s t.name = .ok false ∧ ({ files := old } : World).lookup s t.name = .ok false) := by
  rcases h.names t.name hd.target_isDotted with hsame | hthere
  · obtain ⟨herror, htrue, hfalse⟩ := fate_of_lookup hs hc hfit hd h.grown hsame
    match hlookup : w.lookup s t.name with
    | .error e => exact .inl ⟨e, rfl, herror e hlookup⟩
    | .ok true => exact .inr (.inl ⟨rfl, .inl (htrue hlookup)⟩)
    | .ok false => exact .inr (.inr ⟨rfl, hfalse hlookup⟩)
  · exact .inr (.inl ⟨lookup_of_stands hthere.stands, .inr hthere⟩)

variable (hplain : ∀ d ∈ batch, d.IsPlain) (hf : s.Faultless)

include hplain hf

/-- A provider that is to be written is there in the end, and its declaration wrote it if it does not
fail. -/
theorem Adds.meets_generateTarget (hd : t.declaration.IsPlain)
    (hfresh : ({ files := old } : World).lookup s t.name = .ok false)
    (hwanted : (t.fate s old).isWritten = true → Wanted s old batch t.name) :
    (generateTarget s.templates t).Meets s (Adds s old batch) (Adds s old batch)
      (fun w' answer => (answer = .ok () → (t.fate s old).isWritten = true) ∧
        ((t.fate s old).isWritten = true → Supplied s old batch t.name w')) w := by
  have ht : IsDotted t.name := hd.target_isDotted
  have hnone (hsource : t.source? s old = none) : (t.fate s old).isWritten ≠ true := by
    rw [Ne, Target.isWritten_iff hs ht, hsource]
    simp
  unfold generateTarget
  dsimp only
  split
  · next hext => exact .pure ⟨fun herror => (by cases herror), fun h => absurd h (hnone (by simp [Target.source?, hext]))⟩
  · next ext hext =>
    have hresolve : (ofAction (.resolve ⟨t.declaration.package, t.declaration.simpleName, ext⟩)).Meets
        s (Adds s old batch) (Adds s old batch) (fun _ answer => (Resolver.resolve old s.here s.layout
          ⟨t.declaration.package, t.declaration.simpleName, ext⟩).2 = answer) w := by
      refine meets_ofAction (.resolve _) fun w₁ hw₁ w₂ answer hstep => ?_
      have hfiles := w₁.files_resolve s ⟨t.declaration.package, t.declaration.simpleName, ext⟩
      have hwritten := w₁.written_resolve s ⟨t.declaration.package, t.declaration.simpleName, ext⟩
      change w₁.resolve s _ = _ at hstep
      rw [hstep] at hfiles hwritten
      exact ⟨hw₁.of_eq hfiles hwritten,
        hw₁.grown.answer_of_resolve hs hc hfit hd hext hstep (.inl hf)⟩
    refine hresolve.bind fun w₁ answer hanswer => ?_
    cases answer with
    | error e =>
        refine .pure ⟨fun herror => (by cases herror), fun h => absurd h (hnone ?_)⟩
        simp [Target.source?, hext, hanswer, Except.toOption]
    | ok text =>
        dsimp only
        split
        · next missing hrender =>
          refine .pure ⟨fun herror => (by cases herror), fun h => absurd h (hnone ?_)⟩
          simp [Target.source?, hext, hanswer, hrender, Except.toOption]
        · next source hrender =>
          have hsource : t.source? s old = some source := by
            simp [Target.source?, hext, hanswer, hrender, Except.toOption]
          have hiff : (t.fate s old).isWritten = true ↔ old.IsClear s.here (s.pathFor t.name) := by
            rw [Target.isWritten_iff hs ht, hsource]
            simp [Setting.CanWrite, hfresh]
          rw [hiff] at hwanted ⊢
          exact Adds.meets_writeSource hs hplain ht hf source hwanted

end

/-! ## Declarations -/

/-- How far a declaration came with some of its targets, with these names newly listed as written.  It
tried those that it came past and the next one, and of these all that are to be written are there. -/
structure Tries (s : Setting) (old : FileSystem) (batch : List Declaration)
    (ts done rest : List Target) (written : List String) (w : World) : Prop where
  all : ts = done ++ rest
  written : ∀ name ∈ written, ∃ t ∈ done, t.name = name ∧ (t.fate s old).isWritten = true
  supplied : ∀ t ∈ done ++ rest.take 1, (t.fate s old).isWritten = true →
    Supplied s old batch t.name w
  /-- It does not stop at a provider that existed before. -/
  stops : ∀ t ∈ rest.take 1, t.fate s old ≠ .skipped

section

variable {s : Setting} {old : FileSystem} {batch : List Declaration} {w w' : World} {t : Target}
  {ts done rest : List Target} {written : List String}

theorem Tries.of_adds (h : Tries s old batch ts done rest written w) (ha : Adds s old batch w w')
    (hts : ∀ t ∈ ts, t.declaration.IsPlain) : Tries s old batch ts done rest written w' := by
  refine ⟨h.all, h.written, fun t ht hwritten => ?_, h.stops⟩
  have hmem : t ∈ ts := by
    rw [h.all]
    exact (List.mem_append.mp ht).elim (List.mem_append_left _)
      fun ht => List.mem_append_right _ (List.mem_of_mem_take ht)
  exact ha.kept _ (hts t hmem).target_isDotted (h.supplied t ht hwritten)

/-- Every declaration tries its first target, -/
theorem Tries.first {d : Declaration} (h : Tries s old batch d.targets done rest written w) :
    Target.mk .runtimeLoading d ∈ done ++ rest.take 1 := by
  have hall := h.all
  unfold Declaration.targets at hall
  cases done with
  | nil =>
      obtain rfl : _ = rest := hall
      simp
  | cons t done =>
      obtain rfl := (List.cons.inj hall).1
      simp

/-- and the second if it comes past the first. -/
theorem Tries.second {d : Declaration} (h : Tries s old batch d.targets done rest written w)
    (hdone : Target.mk .runtimeLoading d ∈ done) :
    Target.mk .embeddedLiteral d ∈ done ++ rest.take 1 := by
  have hall := h.all
  unfold Declaration.targets at hall
  match done with
  | [] => cases hdone
  | [_] =>
      obtain rfl : _ = rest := (List.cons.inj hall).2
      simp
  | _ :: _ :: _ =>
      obtain rfl := (List.cons.inj (List.cons.inj hall).2).1
      simp

theorem Tries.nil : Tries s old batch [] [] [] [] w :=
  ⟨rfl, by simp, by simp, by simp⟩

/-- The declaration fails at its first target. -/
theorem Tries.fail (h : (t.fate s old).isWritten = true → Supplied s old batch t.name w)
    (hnot : t.fate s old ≠ .skipped) : Tries s old batch (t :: ts) [] (t :: ts) [] w :=
  ⟨rfl, by simp, by simpa using h, by simpa using hnot⟩

theorem Tries.skip (ht : (t.fate s old).isWritten = true → Supplied s old batch t.name w)
    (h : Tries s old batch ts done rest written w) :
    Tries s old batch (t :: ts) (t :: done) rest written w := by
  refine ⟨by rw [h.all, List.cons_append], fun name hname => ?_, ?_, h.stops⟩
  · obtain ⟨t', ht', hrest⟩ := h.written name hname
    exact ⟨t', List.mem_cons_of_mem _ ht', hrest⟩
  · rw [List.cons_append, List.forall_mem_cons]
    exact ⟨ht, h.supplied⟩

theorem Tries.write (hwritten : (t.fate s old).isWritten = true)
    (ht : Supplied s old batch t.name w) (h : Tries s old batch ts done rest written w) :
    Tries s old batch (t :: ts) (t :: done) rest (t.name :: written) w := by
  have hskip := h.skip (t := t) fun _ => ht
  refine ⟨hskip.all, ?_, hskip.supplied, h.stops⟩
  rw [List.forall_mem_cons]
  exact ⟨⟨t, List.mem_cons_self, rfl, hwritten⟩, hskip.written⟩

variable (hs : s.IsSeparate) (hc : old.Closed) (hfit : s.NamesFit)
  (hplain : ∀ d ∈ batch, d.IsPlain) (hf : s.Faultless)

include hs hc hfit hplain hf

theorem Adds.meets_processTargets {d : Declaration} (hd : d ∈ batch) (hvalid : d.validate = .ok ())
    {before : List Target} (htargets : d.targets = before ++ ts)
    (hbefore : ∀ t ∈ before, s.Admits old t.name) (o : Outcome) :
    (processTargets s.templates ts o).Meets s (Adds s old batch) (Adds s old batch)
      (fun w' result => ∃ done rest more, Tries s old batch ts done rest more w' ∧
        result.1.written = o.written ++ more ∧ result.1.error = o.error ∧
        (result.2 = none ↔ rest = [])) w := by
  induction ts generalizing before o w with
  | nil => exact .pure ⟨[], [], [], .nil, by simp, rfl, by simp⟩
  | cons t rest ih =>
      have hmem : t ∈ d.targets := by simp [htargets]
      have hdt : t.declaration.IsPlain := (hplain d hd).target hmem
      have ht : IsDotted t.name := hdt.target_isDotted
      have hrest : ∀ t' ∈ rest, t'.declaration.IsPlain := fun t' ht' =>
        (hplain d hd).target (htargets ▸ by simp [ht'])
      have htargets' : d.targets = (before ++ [t]) ++ rest := by simp [htargets]
      -- the rest, behind a target that is admitted and is there if it is to be written
      have hlater (w₁ : World) (o₁ : Outcome) (hadmits : s.Admits old t.name) :=
        ih (w := w₁) htargets' (fun t' ht' => (List.mem_append.mp ht').elim (hbefore t')
          fun ht' => List.mem_singleton.mp ht' ▸ hadmits) o₁
      have hsupplied (a b : World) (h : Adds s old batch a b)
          (hP : (t.fate s old).isWritten = true → Supplied s old batch t.name a)
          (hwritten : (t.fate s old).isWritten = true) : Supplied s old batch t.name b :=
        h.kept _ ht (hP hwritten)
      have hlookup : (ofAction (.lookup t.name)).Meets s (Adds s old batch) (Adds s old batch)
          (fun w' answer => ∃ w₁, Adds s old batch w₁ w' ∧ w'.lookup s t.name = answer) w := by
        refine meets_ofAction (.lookup t.name) fun w₁ hw₁ w₂ answer hstep => ?_
        obtain ⟨rfl, rfl⟩ := Prod.mk.inj hstep
        exact ⟨hw₁.own, w₁, hw₁.own, rfl⟩
      refine hlookup.bind fun w₁ answer hanswer => ?_
      obtain ⟨_, hw₁, rfl⟩ := hanswer
      rcases hw₁.own.cases_lookup hs hc hfit hdt with
        ⟨e, he, hfailed⟩ | ⟨htrue, hfound⟩ | ⟨hfalse, hfresh⟩
      · rw [he]
        refine .pure ⟨[], t :: rest, [], .fail ?_ ?_, by simp, rfl, by simp⟩
        · simp [hfailed, Fate.isWritten]
        · simp [hfailed]
      · rw [htrue]
        have hadmits : s.Admits old t.name := by
          rcases hfound with hskipped | hthere
          · exact .inl (Target.fate_eq_skipped_iff.mp hskipped)
          · exact .inr (hthere.wanted.canWrite hs hplain)
        have hthere : (t.fate s old).isWritten = true → Supplied s old batch t.name w₁ := by
          rcases hfound with hskipped | hthere
          · simp [hskipped, Fate.isWritten]
          · exact fun _ => hthere
        refine (Adds.meets_rival_idle (.note _) (fun _ => rfl) (fun _ => rfl) hsupplied
          hthere).bind fun w₂ _ hw₂ => ?_
        refine ((hlater w₂ { o with skipped := o.skipped ++ [t.name] } hadmits).frame hsupplied
          hsupplied hw₂).weaken (fun _ _ => id) fun w₃ result hw₃ => ?_
        obtain ⟨ht₃, done, last, more, htries, hresult⟩ := hw₃
        exact ⟨t :: done, last, more, htries.skip ht₃, hresult⟩
      · rw [hfalse]
        refine (Adds.meets_generateTarget hs hc hfit hplain hf hdt hfresh fun hwritten =>
          ⟨d, hd, t, Declaration.mem_passed hs hf.templates (hplain d hd) hvalid htargets hbefore
            hwritten, rfl, hwritten⟩).bind fun w₂ answer hw₂ => ?_
        obtain ⟨hok, hthere⟩ := hw₂
        cases answer with
        | error e =>
            refine .pure ⟨[], t :: rest, [], .fail hthere fun hskipped => ?_, by simp, rfl, by simp⟩
            cases hfresh.symm.trans (Target.fate_eq_skipped_iff.mp hskipped)
        | ok _ =>
            have hwritten := hok rfl
            have hadmits : s.Admits old t.name := .inr ((Target.isWritten_iff hs ht).mp hwritten).1
            refine ((hlater w₂ { o with written := o.written ++ [t.name] } hadmits).frame hsupplied
              hsupplied hthere).weaken (fun _ _ => id) fun w₃ result hw₃ => ?_
            obtain ⟨ht₃, done, last, more, htries, hlisted, hresult⟩ := hw₃
            refine ⟨t :: done, last, t.name :: more, htries.write hwritten (ht₃ hwritten), ?_, hresult⟩
            simp [hlisted]

omit hs hc hfit hplain hf in
theorem Adds.meets_failWith {P : World → Prop} (o : Outcome) (e : GenerationFailure)
    (hstable : ∀ a b, Adds s old batch a b → P a → P b) (hP : P w) :
    (o.failWith e).Meets s (Adds s old batch) (Adds s old batch)
      (fun w' answer => P w' ∧ ∀ o', answer = .ok o' → o' = { o with error := some e.report }) w :=
  meets_failWith_of_report o e (fun d => Adds.meets_rival_idle (.report d) (fun _ => rfl) (fun _ => rfl)
    hstable hP) hP

/-- The outcome of a declaration among rivals lists what it wrote, and it is ok if the declaration came
past all targets. -/
structure Declaration.Tried (d : Declaration) (s : Setting) (old : FileSystem)
    (batch : List Declaration) (w : World) (o : Outcome) : Prop where
  valid : d.validate = .ok () → ∃ done rest, Tries s old batch d.targets done rest o.written w ∧
    (o.ok = true ↔ rest = [])
  invalid : d.validate ≠ .ok () → o.written = [] ∧ o.ok = false

omit hs hc hfit hplain hf in
theorem Declaration.Tried.of_adds {d : Declaration} {o : Outcome} (hd : d.IsPlain)
    (h : d.Tried s old batch w o) (ha : Adds s old batch w w') : d.Tried s old batch w' o := by
  refine ⟨fun hvalid => ?_, h.invalid⟩
  obtain ⟨done, rest, htries, hok⟩ := h.valid hvalid
  exact ⟨done, rest, htries.of_adds ha fun t ht => hd.target ht, hok⟩

/-- **One declaration among rivals.**  It takes no source away, and its outcome says how far it came. -/
theorem Adds.meets_processDeclaration {d : Declaration} (hd : d ∈ batch) :
    (processDeclaration s.templates d).Meets s (Adds s old batch) (Adds s old batch)
      (fun w' answer => ∃ o, answer = .ok o ∧ d.Tried s old batch w' o) w := by
  suffices h : (processDeclaration s.templates d).Meets s (Adds s old batch) (Adds s old batch)
      (fun w' answer => ∀ o, answer = .ok o → d.Tried s old batch w' o) w by
    refine (h.and_yields (yields_processDeclaration hf.failsSoftly d)).weaken (fun _ _ => id) ?_
    rintro w' _ ⟨htried, o, rfl⟩
    exact ⟨o, rfl, htried o rfl⟩
  have htargets : ∀ t ∈ d.targets, t.declaration.IsPlain := fun t ht => (hplain d hd).target ht
  unfold processDeclaration
  split
  · next e hinvalid =>
    refine (Adds.meets_failWith (P := fun _ => True) _ e (fun _ _ _ => id) trivial).weaken
      (fun _ _ => id) fun w' answer hw' o ho => ?_
    rw [hw'.2 o ho]
    refine ⟨fun hvalid => ?_, fun _ => ⟨rfl, rfl⟩⟩
    cases hinvalid.symm.trans hvalid
  · next hvalid =>
    refine (Adds.meets_processTargets hs hc hfit hplain hf hd hvalid (List.nil_append _).symm (by simp)
      ⟨d.name, [], [], none⟩).bind fun w₁ result hw₁ => ?_
    match result with
    | (o, none) =>
        obtain ⟨done, rest, more, htries, hlisted, herror, hfailure⟩ := hw₁
        refine .pure fun o' ho' => ⟨fun _ => ⟨done, rest, ?_, ?_⟩, fun hnot => absurd hvalid hnot⟩
        · rw [← Except.ok.inj ho', show o.written = more from hlisted]
          exact htries
        · rw [← Except.ok.inj ho', ← hfailure]
          simp [Outcome.ok, show o.error = none from herror]
    | (o, some e) =>
        refine (Adds.meets_failWith (P := fun w' => ∃ done rest more,
            Tries s old batch d.targets done rest more w' ∧ o.written = more ∧ rest ≠ []) o e ?_
          ?_).weaken (fun _ _ => id) fun w' answer hw' o' ho' => ?_
        · rintro a b hab ⟨done, rest, more, htries, hend⟩
          exact ⟨done, rest, more, htries.of_adds hab htargets, hend⟩
        · obtain ⟨done, rest, more, htries, hlisted, -, hfailure⟩ := hw₁
          exact ⟨done, rest, more, htries, hlisted, fun hnil => by cases hfailure.mpr hnil⟩
        · obtain ⟨⟨done, rest, more, htries, hlisted, hrest⟩, hfailed⟩ := hw'
          rw [hfailed o' ho']
          refine ⟨fun _ => ⟨done, rest, ?_, ?_⟩, fun hnot => absurd hvalid hnot⟩
          · rw [show _ = more from hlisted]
            exact htries
          · simp [Outcome.ok, hrest]

end

end TextProviders
