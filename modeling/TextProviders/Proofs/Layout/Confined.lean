import TextProviders.Proofs.Manifest.Entry
import TextProviders.Proofs.Source.Agreement

/-!
# Providers stay below the root and apart from each other

A name that is declared, by an entry of a manifest or in a source, has no slash in it.  So the path of
a provider consists of the parts of the root and, below it, of directories without a dot in their names
and of one file whose name ends in `.java` (`Path.LiesBelow`).  A package in a source may be any run of
words and dots; of its segments the empty ones lead nowhere, and no other can lead up.

A file always has a dot in its name and a directory never, so no provider stands where another one
needs a directory (`LiesBelow.not_isPrefix`).  For accepted names the path tells the name and the
strategy; for names found in a source it does not, since those of `a.b` and of `a..b` are the same.

A root may lead up itself, and so through any place at all.  What is said of places is said of those
below the one that the root leads to.
-/

namespace TextProviders

/-! ## Declared names -/

/-- An entry of a manifest makes this declaration. -/
def Declaration.IsEntered (d : Declaration) : Prop :=
  ∃ cs entry, parseEntry cs entry = .ok d

/-- The scan of a source reports this declaration. -/
def Declaration.IsReported (d : Declaration) : Prop :=
  ∃ text ds, Source.declarations text = .ok ds ∧ d ∈ ds

section

variable {d : Declaration}

theorem Declaration.IsEntered.isTypeName (h : d.IsEntered) : isTypeName d.name.toList = true := by
  obtain ⟨cs, entry, hparsed⟩ := h
  obtain ⟨entries, -, hname, -⟩ := parseEntry_eq_ok_iff.mp hparsed
  exact (entryName_eq_ok_iff.mp hname).2

theorem Declaration.IsEntered.slash_not_mem (h : d.IsEntered) : '/' ∉ d.name.toList :=
  slash_not_mem_of_isDotted (isDotted_of_isTypeName h.isTypeName)

/-- The words and dots of a source have no slash among them. -/
theorem Declaration.IsReported.slash_not_mem (h : d.IsReported) : '/' ∉ d.name.toList := by
  obtain ⟨text, ds, hscan, hmem⟩ := h
  intro hslash
  exact absurd (Source.isNameChar_of_reported hscan hmem '/' hslash) (by decide)

end

/-! ## Paths below a root -/

/-- A name leads one step down. -/
def LeadsDown (part : String) : Prop :=
  part ≠ "" ∧ part ≠ "." ∧ part ≠ ".." ∧ '/' ∉ part.toList

theorem leadsDown_of_slash_not_mem {part : List Char} (hne : part ≠ []) (hdot : part ≠ ['.'])
    (hdots : part ≠ ['.', '.']) (hslash : '/' ∉ part) : LeadsDown (String.ofList part) := by
  refine ⟨fun h => hne ?_, fun h => hdot ?_, fun h => hdots ?_, by rwa [String.toList_ofList]⟩
  · simpa using congrArg String.toList h
  · simpa using congrArg String.toList h
  · simpa using congrArg String.toList h

/-- The path consists of a root, of directories below it and of a source in the last of them. -/
structure Path.LiesBelow (p root : Path) (dirs : List String) (file : String) : Prop where
  eq : p = ⟨root.anchor, root.parts ++ (dirs ++ [file])⟩
  leadsDown : ∀ part ∈ dirs ++ [file], LeadsDown part
  isSource : ∃ stem, file = stem ++ ".java"
  directories : ∀ dir ∈ dirs, '.' ∉ dir.toList

/-- The source of a name without a slash lies below any root. -/
theorem sourceFile_liesBelow {name : String} (h : '/' ∉ name.toList) (root : Path) :
    (Layout.sourceFile root name).LiesBelow root (packageDirs name) (sourceName name) := by
  have hdir : ∀ dir ∈ packageDirs name, ∃ segment ∈ Text.splitOn '.' name.toList,
      segment ≠ [] ∧ dir = String.ofList segment := by
    intro dir hdir
    obtain ⟨segment, hsegment, rfl⟩ := List.mem_map.mp hdir
    obtain ⟨hmem, hne⟩ := List.mem_filter.mp hsegment
    exact ⟨segment, List.dropLast_subset _ hmem, of_decide_eq_true hne, rfl⟩
  have hdots : ∀ dir ∈ packageDirs name, '.' ∉ dir.toList := by
    intro dir hmem
    obtain ⟨segment, hsegment, -, rfl⟩ := hdir dir hmem
    rw [String.toList_ofList]
    exact Text.not_mem_of_mem_splitOn hsegment
  refine ⟨sourceFile_eq_dirs h root, List.forall_mem_append.mpr ⟨fun dir hmem => ?_, ?_⟩, ⟨_, rfl⟩,
    hdots⟩
  · obtain ⟨segment, hsegment, hne, rfl⟩ := hdir dir hmem
    have hnodot := hdots _ hmem
    rw [String.toList_ofList] at hnodot
    refine leadsDown_of_slash_not_mem hne ?_ ?_ (slash_not_mem_of_mem_splitOn h hsegment)
    · rintro rfl
      simp at hnodot
    · rintro rfl
      simp at hnodot
  · obtain ⟨front, last, hpieces⟩ := Text.exists_splitOn_eq_append '.' name.toList
    have hlast : '/' ∉ last := slash_not_mem_of_mem_splitOn h (by simp [hpieces])
    have hfile : sourceName name = String.ofList (last ++ ".java".toList) := by
      rw [sourceName_eq hpieces]
      simp [String.ofList_append]
    rw [hfile, List.forall_mem_singleton]
    refine leadsDown_of_slash_not_mem (by simp) ?_ ?_ (by simp [hlast])
    · exact fun heq => absurd (congrArg List.length heq) (by simp)
    · exact fun heq => absurd (congrArg List.length heq) (by simp)

namespace Path.LiesBelow

variable {p q root : Path} {dirs dirs' : List String} {file file' : String}

/-- A source has a dot in its name. -/
theorem dot_mem_file (h : p.LiesBelow root dirs file) : '.' ∈ file.toList := by
  obtain ⟨stem, rfl⟩ := h.isSource
  simp

/-- So it is none of the directories of a source. -/
theorem not_isPrefix_directories (h : p.LiesBelow root dirs file) (h' : q.LiesBelow root dirs' file') :
    ¬dirs ++ [file] <+: dirs' :=
  fun habove => h'.directories file (habove.subset (by simp)) h.dot_mem_file

/-- No source is a directory above another one. -/
theorem not_isPrefix (h : p.LiesBelow root dirs file) (h' : q.LiesBelow root dirs' file') :
    ¬p.parts <+: q.parent.parts := by
  have hparent : q.parent.parts = root.parts ++ dirs' := by
    rw [Path.parent, h'.eq, ← List.append_assoc, List.dropLast_concat]
  rw [hparent, h.eq, List.prefix_append_right_inj]
  exact h.not_isPrefix_directories h'

/-- The place of a source is found from the place of the root, which may lead up. -/
theorem placeOf_eq (h : p.LiesBelow root dirs file) (here : Location) :
    FileSystem.placeOf here p = FileSystem.placeOf here root ++ (dirs ++ [file]) := by
  have hdots : ".." ∉ dirs ++ [file] := fun hmem => (h.leadsDown _ hmem).2.2.1 rfl
  rw [h.eq, FileSystem.placeOf, FileSystem.walk, List.foldl_append]
  exact FileSystem.walk_eq_append hdots

/-- No source stands where another one needs a directory. -/
theorem not_isPrefix_placeOf (h : p.LiesBelow root dirs file) (h' : q.LiesBelow root dirs' file')
    (here : Location) : ¬FileSystem.placeOf here p <+: (FileSystem.placeOf here q).dropLast := by
  rw [h.placeOf_eq, h'.placeOf_eq, ← List.append_assoc _ dirs', List.dropLast_concat,
    List.prefix_append_right_inj]
  exact h.not_isPrefix_directories h'

end Path.LiesBelow

/-! ## Providers -/

section

variable {d d' : Declaration} {t t' : Target} {root : Path}

theorem Target.slash_not_mem_name (h : '/' ∉ t.declaration.name.toList) : '/' ∉ t.name.toList := by
  rw [Target.name, String.toList_append, List.mem_append, not_or]
  exact ⟨h, t.strategy.slash_not_mem_suffix⟩

/-- The path of a provider of a declared type lies below the root. -/
theorem Declaration.path_liesBelow (h : d.IsEntered ∨ d.IsReported) (ht : t ∈ d.targets) (root : Path) :
    (Layout.sourceFile root t.name).LiesBelow root (packageDirs t.name) (sourceName t.name) := by
  have hslash : '/' ∉ t.declaration.name.toList := by
    rw [Declaration.mem_targets ht]
    exact h.elim (·.slash_not_mem) (·.slash_not_mem)
  exact sourceFile_liesBelow (Target.slash_not_mem_name hslash) root

/-- The directories and the file of a provider of an accepted name tell the name and the strategy. -/
theorem Declaration.eq_of_parts_eq (h : d.IsEntered) (h' : d'.IsEntered) (ht : t ∈ d.targets)
    (ht' : t' ∈ d'.targets) (heq : packageDirs t.name ++ [sourceName t.name] =
      packageDirs t'.name ++ [sourceName t'.name]) : d.name = d'.name ∧ t.strategy = t'.strategy := by
  have hd := Declaration.mem_targets ht
  have hd' := Declaration.mem_targets ht'
  have hdotted : IsDotted t.name := Target.isDotted_name (hd ▸ isDotted_of_isTypeName h.isTypeName)
  have hdotted' : IsDotted t'.name := Target.isDotted_name (hd' ▸ isDotted_of_isTypeName h'.isTypeName)
  rw [packageDirs_eq_packageParts hdotted, packageDirs_eq_packageParts hdotted'] at heq
  have hname : t.name = t'.name := sourceParts_injective heq
  obtain ⟨hstrategy, hnames⟩ := Target.name_eq_name_iff.mp hname
  exact ⟨by rw [← hd, ← hd', hnames], hstrategy⟩

end

/-- **The paths of providers are confined and unique.**  Below any root, the path of each provider of a
declared type consists of the parts of the root, of directories and of a source; and of two such paths
none is a directory that the other one goes through.  For two accepted names equal paths, or equal
places, are those of the same name and strategy. -/
theorem provider_paths_are_confined_and_unique (root : Path) (here : Location) :
    (∀ d : Declaration, d.IsEntered ∨ d.IsReported → ∀ t ∈ d.targets,
      ∃ dirs file, (Layout.sourceFile root t.name).LiesBelow root dirs file) ∧
    (∀ d d' : Declaration, d.IsEntered ∨ d.IsReported → d'.IsEntered ∨ d'.IsReported →
      ∀ t ∈ d.targets, ∀ t' ∈ d'.targets,
        let p := Layout.sourceFile root t.name
        let q := Layout.sourceFile root t'.name
        ¬p.parts <+: q.parent.parts ∧
          ¬FileSystem.placeOf here p <+: (FileSystem.placeOf here q).dropLast) ∧
    ∀ d d' : Declaration, d.IsEntered → d'.IsEntered →
      ∀ t ∈ d.targets, ∀ t' ∈ d'.targets,
        let p := Layout.sourceFile root t.name
        let q := Layout.sourceFile root t'.name
        p = q ∨ FileSystem.placeOf here p = FileSystem.placeOf here q →
          d.name = d'.name ∧ t.strategy = t'.strategy := by
  refine ⟨fun d hd t ht => ⟨_, _, d.path_liesBelow hd ht root⟩, ?_, ?_⟩
  · intro d d' hd hd' t ht t' ht' p q
    have hp := d.path_liesBelow hd ht root
    have hq := d'.path_liesBelow hd' ht' root
    exact ⟨hp.not_isPrefix hq, hp.not_isPrefix_placeOf hq here⟩
  · intro d d' hd hd' t ht t' ht' p q heq
    have hp : p.LiesBelow root _ _ := d.path_liesBelow (.inl hd) ht root
    have hq : q.LiesBelow root _ _ := d'.path_liesBelow (.inl hd') ht' root
    refine Declaration.eq_of_parts_eq hd hd' ht ht' ?_
    rcases heq with hpath | hplace
    · have hparts : root.parts ++ _ = root.parts ++ _ :=
        congrArg Path.parts (hp.eq.symm.trans (hpath.trans hq.eq))
      exact List.append_cancel_left hparts
    · rw [hp.placeOf_eq, hq.placeOf_eq] at hplace
      exact List.append_cancel_left hplace

/-- A package of a source with empty segments, and two accepted names of which one ends with a line
feed, below a root that leads up. -/
theorem provider_paths_are_confined_and_unique_empty_segments :
    let root := Path.ofString "../out"
    let here := ["work"]
    let scanned : Declaration := { name := "..a...b.C", visibility := .package }
    let entered (name : String) : Declaration := { name := name }
    let path (d : Declaration) := Layout.sourceFile root (Target.mk .embeddedLiteral d).name
    (scanned.IsReported ∧ (entered "a.b.C$").IsEntered ∧ (entered "a.b.C$\n").IsEntered) ∧
      (∃ dirs file, (path scanned).LiesBelow root dirs file) ∧
      (¬(path scanned).parts <+: (path (entered "a.b.C$")).parent.parts ∧
        ¬FileSystem.placeOf here (path scanned) <+:
          (FileSystem.placeOf here (path (entered "a.b.C$"))).dropLast) ∧
      FileSystem.placeOf here (path (entered "a.b.C$")) ≠
        FileSystem.placeOf here (path (entered "a.b.C$\n")) := by
  intro root here scanned entered path
  have hscanned : scanned.IsReported :=
    ⟨"package ..a...b; @TextResourceAware class C {}", [scanned], by decide +kernel, by decide⟩
  have hplain : (entered "a.b.C$").IsEntered :=
    ⟨#[.mapping [(.text "name", .text "a.b.C$")]], .container 0, by decide +kernel⟩
  have hline : (entered "a.b.C$\n").IsEntered :=
    ⟨#[.mapping [(.text "name", .text "a.b.C$\n")]], .container 0, by decide +kernel⟩
  obtain ⟨hbelow, happart, hunique⟩ := provider_paths_are_confined_and_unique root here
  refine ⟨⟨hscanned, hplain, hline⟩, hbelow scanned (.inr hscanned) _ (by simp [Declaration.targets]),
    happart scanned _ (.inr hscanned) (.inl hplain) _ (by simp [Declaration.targets]) _
      (by simp [Declaration.targets]), fun heq => ?_⟩
  have hname := (hunique _ _ hplain hline _ (by simp [Declaration.targets]) _
    (by simp [Declaration.targets]) (.inr heq)).1
  exact absurd hname (by decide)

end TextProviders
