import TextProviders.Proofs.FileSystem.Apart
import TextProviders.Proofs.Generation.Records
import TextProviders.Proofs.Layout.Places

/-!
# What generating for others changes, and what it does not

Generating providers adds to the output directory: directories of packages, which have no dots in
their names, and sources, which do (`Grown`).  As the directories that are searched for resources are
apart from the output directory (`Setting.IsSeparate`), nothing of this is seen but at the source of a
type itself.  For a type whose own source was not touched,

* a look-up finds it if it was found before (`Grown.stands_iff`),
* its resource is what it was (`Grown.resolve_eq`),
* and its source can be made if it could be made before (`Grown.isClear_iff`).

The first two need names that fit (`Setting.NamesFit`), as a directory that was made for another type
lets a look-up go further than before.
-/

namespace TextProviders

open FileSystem (Apart GrowsAt placeOf startOf)

/-! ## Settings and declarations -/

/-- The place of the output directory. -/
def Setting.outputPlace (s : Setting) : Location :=
  placeOf s.here s.layout.output

/-- No path of a directory has double dots, and the output directory is apart from every directory that
is searched for resources. -/
structure Setting.IsSeparate (s : Setting) : Prop where
  output : ".." ∉ s.layout.output.parts
  roots : ∀ root ∈ s.layout.searchRoots, ".." ∉ root.parts
  apart : ∀ root ∈ s.layout.searchRoots, Apart (placeOf s.here root) s.outputPlace

instance (s : Setting) : Decidable s.IsSeparate :=
  decidable_of_iff (".." ∉ s.layout.output.parts ∧
      (∀ root ∈ s.layout.searchRoots, ".." ∉ root.parts) ∧
      ∀ root ∈ s.layout.searchRoots, Apart (placeOf s.here root) s.outputPlace)
    ⟨fun ⟨output, roots, apart⟩ => ⟨output, roots, apart⟩, fun h => ⟨h.output, h.roots, h.apart⟩⟩

/-- The names in the paths of all directories fit. -/
def Setting.NamesFit (s : Setting) : Prop :=
  ∀ root ∈ s.layout.output :: s.layout.searchRoots, root.NamesFit

instance (s : Setting) : Decidable s.NamesFit :=
  inferInstanceAs (Decidable (∀ root ∈ s.layout.output :: s.layout.searchRoots, root.NamesFit))

theorem Setting.NamesFit.looksWhereNamesFit {s : Setting} (h : s.NamesFit) :
    s.LooksWhereNamesFit := by
  intro root hroot
  refine h root ?_
  rcases List.mem_cons.mp hroot with rfl | hsource
  · exact List.mem_cons_self
  · exact List.mem_cons_of_mem _ (List.mem_append_left _ hsource)

/-- A declaration as a manifest can list it, with an extension that is no path. -/
structure Declaration.IsPlain (d : Declaration) : Prop where
  name : isTypeName d.name.toList = true
  extension : ∀ ext, d.binding.extension? = some ext → '/' ∉ ext.toList

instance (d : Declaration) : Decidable d.IsPlain :=
  decidable_of_iff (isTypeName d.name.toList = true ∧
      ∀ ext ∈ d.binding.extension?, '/' ∉ ext.toList)
    ⟨fun ⟨name, extension⟩ => ⟨name, extension⟩, fun h => ⟨h.name, h.extension⟩⟩

theorem Declaration.IsPlain.isDotted {d : Declaration} (h : d.IsPlain) : IsDotted d.name :=
  isDotted_of_isTypeName h.name

theorem Declaration.IsPlain.target {d : Declaration} (h : d.IsPlain) {t : Target}
    (ht : t ∈ d.targets) : t.declaration.IsPlain :=
  Declaration.mem_targets ht ▸ h

theorem Declaration.IsPlain.target_isDotted {t : Target} (h : t.declaration.IsPlain) :
    IsDotted t.name :=
  Target.isDotted_name h.isDotted

/-! ## Places of sources and of packages -/

section

variable {s : Setting} {name other : String}

theorem dots_not_mem_sourceParts (name : String) : ".." ∉ sourceParts name := by
  intro hmem
  rcases List.mem_append.mp hmem with hpackage | hsource
  · exact not_mem_dot_of_mem_packageParts hpackage (by decide)
  · have hlength := congrArg (fun part : String => part.toList.length) (List.mem_singleton.mp hsource)
    simp [sourceName] at hlength

theorem Setting.pathFor_eq (s : Setting) (h : IsDotted name) :
    s.pathFor name = ⟨s.layout.output.anchor, s.layout.output.parts ++ sourceParts name⟩ :=
  sourceFile_eq h s.layout.output

theorem Setting.pathFor_dots (hs : s.IsSeparate) (h : IsDotted name) :
    ".." ∉ (s.pathFor name).parts := by
  rw [s.pathFor_eq h]
  simp [hs.output, dots_not_mem_sourceParts]

theorem Setting.outputPlace_eq (hs : s.IsSeparate) :
    s.outputPlace = startOf s.here s.layout.output ++ s.layout.output.parts :=
  FileSystem.placeOf_eq hs.output

theorem Setting.placeFor_eq (hs : s.IsSeparate) (h : IsDotted name) :
    s.placeFor name = s.outputPlace ++ sourceParts name := by
  have hplace : FileSystem.placeOf s.here (s.pathFor name) =
      startOf s.here (s.pathFor name) ++ (s.pathFor name).parts :=
    FileSystem.placeOf_eq (s.pathFor_dots hs h)
  rw [Setting.placeFor, hplace, s.outputPlace_eq hs, s.pathFor_eq h, List.append_assoc]
  rfl

/-- Different types have their sources at different places. -/
theorem Setting.placeFor_inj (hs : s.IsSeparate) (h : IsDotted name) (h' : IsDotted other) :
    s.placeFor name = s.placeFor other ↔ name = other := by
  constructor
  · intro hplace
    rw [s.placeFor_eq hs h, s.placeFor_eq hs h', List.append_cancel_left_eq] at hplace
    exact sourceParts_injective hplace
  · rintro rfl
    rfl

/-- A place at which a directory can be made for a source: above the output directory or a package in
it. -/
def Setting.IsPackagePlace (s : Setting) (loc : Location) : Prop :=
  loc <+: s.outputPlace ∨ ∃ q, loc = s.outputPlace ++ q ∧ ∀ part ∈ q, '.' ∉ part.toList

/-- No package stands where a source does. -/
theorem Setting.not_isPackagePlace_placeFor (hs : s.IsSeparate) (h : IsDotted name) :
    ¬s.IsPackagePlace (s.placeFor name) := by
  rw [s.placeFor_eq hs h]
  rintro (habove | ⟨q, hq, hdots⟩)
  · have := habove.length_le
    simp only [sourceParts, List.length_append, List.length_singleton] at this
    omega
  · rw [List.append_cancel_left_eq] at hq
    exact hdots (sourceName name) (hq ▸ List.mem_append_right _ (List.mem_singleton.mpr rfl))
      (mem_dot_sourceName name)

end

/-! ## Growth of the output directory -/

/-- Everything is kept, and what is new are directories of packages, those above them, and sources. -/
structure Grown (s : Setting) (old new : FileSystem) : Prop where
  keeps : old.Keeps new
  added : ∀ loc, new.get? loc = old.get? loc ∨
    (new.get? loc = some .directory ∧ s.IsPackagePlace loc) ∨
    ∃ name bytes, IsDotted name ∧ loc = s.placeFor name ∧ new.get? loc = some (.file bytes)

section

variable {s : Setting} {old new : FileSystem} {name : String}

theorem Grown.refl (s : Setting) (fs : FileSystem) : Grown s fs fs :=
  ⟨.refl fs, fun _ => .inl rfl⟩

theorem Grown.growsAt (hg : Grown s old new) (hs : s.IsSeparate) :
    GrowsAt s.outputPlace old new := by
  refine ⟨hg.keeps, fun loc hne => ?_, fun loc hne habove => ?_⟩
  · rcases hg.added loc with hsame | ⟨-, hpackage⟩ | ⟨name, _, hname, hloc, -⟩
    · exact absurd hsame hne
    · rcases hpackage with habove | ⟨q, hloc, -⟩
      · exact .inl habove
      · rw [hloc]
        exact .inr (List.prefix_append _ _)
    · rw [hloc, s.placeFor_eq hs hname]
      exact .inr (List.prefix_append _ _)
  · rcases hg.added loc with hsame | ⟨hdir, -⟩ | ⟨name, _, hname, hloc, -⟩
    · exact absurd hsame hne
    · exact hdir
    · have hpackage : s.IsPackagePlace loc := .inl habove
      rw [hloc] at hpackage
      exact (s.not_isPackagePlace_placeFor hs hname hpackage).elim

variable (hg : Grown s old new) (hs : s.IsSeparate) (hc : old.Closed) (hfit : s.NamesFit)

include hg hs hc hfit

/-- Below a directory that is searched, a path leads to what it led to. -/
theorem Grown.stat_eq {root : Path} (hroot : root ∈ s.layout.searchRoots) {parts : List String}
    (hne : parts ≠ []) (hdots : ".." ∉ parts) :
    new.stat s.here ⟨root.anchor, root.parts ++ parts⟩ =
      old.stat s.here ⟨root.anchor, root.parts ++ parts⟩ := by
  have hapart := hs.apart root hroot
  rw [FileSystem.placeOf_eq (hs.roots root hroot)] at hapart
  exact (hg.growsAt hs).stat_eq hc hne (by simp [hs.roots root hroot, hdots])
    (hfit root (List.mem_cons_of_mem _ hroot)) hapart

theorem Grown.sourceUnder_eq (hname : IsDotted name) {roots : List Path}
    (hroots : ∀ root ∈ roots, root ∈ s.layout.searchRoots) :
    ({ files := new } : World).sourceUnder s.here name roots =
      ({ files := old } : World).sourceUnder s.here name roots := by
  induction roots with
  | nil => rfl
  | cons root rest ih =>
      simp only [List.mem_cons, forall_eq_or_imp] at hroots
      have hstat := hg.stat_eq hs hc hfit hroots.1 (by simp [sourceParts])
        (dots_not_mem_sourceParts name)
      simp only [World.sourceUnder, FileSystem.isFile, sourceFile_eq hname, hstat, ih hroots.2]

/-- The resource of a declaration is what it was. -/
theorem Grown.resolve_eq {d : Declaration} (hd : d.IsPlain) {ext : String}
    (hext : d.binding.extension? = some ext) :
    Resolver.resolve new s.here s.layout ⟨d.package, d.simpleName, ext⟩ =
      Resolver.resolve old s.here s.layout ⟨d.package, d.simpleName, ext⟩ := by
  have hdots : ".." ∉ packageParts d.name ++ [d.simpleName ++ "." ++ ext] := by
    intro hmem
    rcases List.mem_append.mp hmem with hpackage | hfile
    · exact not_mem_dot_of_mem_packageParts hpackage (by decide)
    · exact d.resource_ne_dots hd.isDotted ext (List.mem_singleton.mp hfile).symm
  have hsearch (roots : List Path) (hroots : ∀ root ∈ roots, root ∈ s.layout.searchRoots) :
      Resolver.search new s.here ⟨d.package, d.simpleName, ext⟩ roots =
        Resolver.search old s.here ⟨d.package, d.simpleName, ext⟩ roots := by
    induction roots with
    | nil => rfl
    | cons root rest ih =>
        simp only [List.mem_cons, forall_eq_or_imp] at hroots
        have hstat := hg.stat_eq hs hc hfit hroots.1 (by simp) hdots
        simp only [Resolver.search, FileSystem.read,
          d.pathUnder_eq hd.isDotted root (hd.extension ext hext), hstat, ih hroots.2]
  exact hsearch s.layout.searchRoots fun _ => id

/-! ## The source of a type that was not touched -/

variable (hname : IsDotted name) (hplace : new.get? (s.placeFor name) = old.get? (s.placeFor name))

omit hfit in
include hname hplace in
theorem Grown.fileAt?_eq :
    new.fileAt? s.here (s.pathFor name) = old.fileAt? s.here (s.pathFor name) :=
  hc.fileAt?_eq hg.keeps (s.pathFor_dots hs hname) hplace

omit hfit in
include hname hplace in
/-- The answer whether the source is there is the same, but for a name that is too long and that was
not met before. -/
theorem Grown.isFile_cases :
    new.isFile s.here (s.pathFor name) = old.isFile s.here (s.pathFor name) ∨
      (new.isFile s.here (s.pathFor name) = .error ⟨.nameTooLong, s.pathFor name⟩ ∧
        ¬(s.pathFor name).NamesFit) :=
  FileSystem.isFile_cases_of_fileAt?_eq hg.keeps.keepsDirectories (hg.fileAt?_eq hs hc hname hplace)

include hname hplace

/-- A look-up through an empty registry answers as before, but for a name that is too long and that
was not met before. -/
theorem Grown.lookup_cases :
    ({ files := new } : World).lookup s name = ({ files := old } : World).lookup s name ∨
      ((∃ e, ({ files := new } : World).lookup s name = .error e) ∧
        ¬(s.pathFor name).NamesFit) := by
  have hsources : ({ files := new } : World).sourceUnder s.here name s.layout.sources =
      ({ files := old } : World).sourceUnder s.here name s.layout.sources :=
    hg.sourceUnder_eq hs hc hfit hname fun root hroot => List.mem_append_left _ hroot
  rw [lookup_of_empty, lookup_of_empty]
  unfold World.sourceUnder
  rw [hsources]
  rcases hg.isFile_cases hs hc hname hplace with hsame | ⟨hf, hlong⟩
  · left
    dsimp only [Setting.pathFor] at hsame ⊢
    rw [hsame]
  · right
    dsimp only [Setting.pathFor] at hf ⊢
    rw [hf]
    exact ⟨⟨_, rfl⟩, hlong⟩

/-- A type stands if and only if it stood. -/
theorem Grown.stands_iff : s.Stands new name ↔ s.Stands old name := by
  constructor
  · intro hnew
    rcases hg.lookup_cases hs hc hfit hname hplace with hsame | ⟨⟨e, he⟩, -⟩
    · exact hsame.symm.trans hnew
    · cases he.symm.trans hnew
  · intro hold
    exact hold.of_keeps hfit.looksWhereNamesFit hg.keeps

omit hc hfit in
/-- A source can be made if and only if it could be made. -/
theorem Grown.isClear_iff :
    new.IsClear s.here (s.pathFor name) ↔ old.IsClear s.here (s.pathFor name) := by
  have hparts : (s.pathFor name).parts.dropLast =
      s.layout.output.parts ++ packageParts name := by
    rw [s.pathFor_eq hname, sourceParts, ← List.append_assoc, List.dropLast_concat]
  have hfree : startOf s.here (s.pathFor name) ++ (s.pathFor name).parts = s.placeFor name :=
    (FileSystem.placeOf_eq (s.pathFor_dots hs hname)).symm
  constructor
  · rintro ⟨htaken, hfits, hway, hnone⟩
    refine ⟨htaken, hfits, fun q hq hne bytes hfile => ?_, ?_⟩
    · exact hway q hq hne bytes (hg.keeps _ _ hfile)
    · rwa [hfree, hplace, ← hfree] at hnone
  · rintro ⟨htaken, hfits, hway, hnone⟩
    refine ⟨htaken, hfits, fun q hq hne bytes hfile => ?_, ?_⟩
    · rcases hg.added (startOf s.here (s.pathFor name) ++ q) with
        hsame | ⟨hdir, -⟩ | ⟨other, _, hother, hloc, -⟩
      · exact hway q hq hne bytes (hsame ▸ hfile)
      · cases hdir.symm.trans hfile
      · -- the last name of a source has a dot, and no package has one
        rw [s.placeFor_eq hs hother, s.outputPlace_eq hs, List.append_assoc] at hloc
        have hq' : q = s.layout.output.parts ++ sourceParts other := by
          rw [s.pathFor_eq hname] at hloc
          exact List.append_cancel_left hloc
        rw [hparts, hq', List.prefix_append_right_inj] at hq
        have hmem : sourceName other ∈ packageParts name :=
          hq.subset (List.mem_append_right _ (List.mem_singleton.mpr rfl))
        exact not_mem_dot_of_mem_packageParts hmem (mem_dot_sourceName other)
    · rwa [hfree, hplace, ← hfree]

end

end TextProviders
