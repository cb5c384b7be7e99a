import TextProviders.Generation.Resolver
import TextProviders.Manifest
import TextProviders.Proofs.FileSystem.Looking
import TextProviders.Proofs.Text.Split
import TextProviders.Target

/-!
# The paths of dotted names

A name that is accepted as the name of a type has segments that are names of directories: none is
empty and none has a slash or a dot in it (`isDotted_of_isTypeName`).  The path of its source below a
root has the segments of its package for directories, and no others (`sourceFile_eq`); that of a
resource beside it has the same directories (`pathUnder_eq`).

So a directory of a package never has a dot in its name, a source always has one, and different names
have different paths (`sourceParts_injective`), as do the providers of different types
(`Target.name_eq_name_iff`).
-/

namespace TextProviders

/-! ## Accepted names -/

/-- Every segment of the name can stand as a part of a path. -/
def IsDotted (name : String) : Prop :=
  ∀ segment ∈ Text.splitOn '.' name.toList, segment ≠ [] ∧ '/' ∉ segment

theorem isNameSegment_iff {segment : List Char} (h : isNameSegment segment = true) :
    segment ≠ [] ∧ '/' ∉ segment := by
  cases segment with
  | nil => simp [isNameSegment] at h
  | cons c rest =>
      simp only [isNameSegment, Bool.and_eq_true, List.all_eq_true] at h
      refine ⟨List.cons_ne_nil _ _, fun hslash => ?_⟩
      rcases List.mem_cons.mp hslash with rfl | hrest
      · exact absurd h.1 (by decide)
      · exact absurd (h.2 _ hrest) (by decide)

theorem isDotted_of_isTypeName {name : String} (h : isTypeName name.toList = true) :
    IsDotted name := by
  have hsegments {s : List Char} (hs : isDottedName s = true) :
      ∀ segment ∈ Text.splitOn '.' s, segment ≠ [] ∧ '/' ∉ segment := by
    simp only [isDottedName, List.all_eq_true] at hs
    exact fun segment hsegment => isNameSegment_iff (hs segment hsegment)
  simp only [isTypeName, Bool.or_eq_true, Bool.and_eq_true, beq_iff_eq] at h
  rcases h with hdotted | ⟨hlast, hdotted⟩
  · exact hsegments hdotted
  · -- the line feed belongs to the last segment
    obtain ⟨body, hbody⟩ := List.getLast?_eq_some_iff.mp hlast
    rw [hbody, List.dropLast_concat] at hdotted
    obtain ⟨front, last, hpieces⟩ := Text.exists_splitOn_eq_append '.' body
    have hall := hsegments hdotted
    unfold IsDotted
    rw [hbody, Text.splitOn_append hpieces (by decide)]
    simp only [hpieces, List.mem_append, List.mem_singleton, or_imp, forall_and, forall_eq] at hall ⊢
    obtain ⟨⟨hne, -⟩, hslash, hlast⟩ := hall
    exact ⟨⟨hne, by simp⟩, hslash, by simp [hlast]⟩

theorem toNat_lt_of_isAlpha {c : Char} (h : c.isAlpha = true) : c.toNat < 0x80 := by
  have hletter : c.isUpper = true ∨ c.isLower = true := Bool.or_eq_true_iff.mp h
  rcases hletter with hupper | hlower
  · have hle : c.val ≤ 'Z'.val := (of_decide_eq_true hupper).2
    exact Nat.lt_of_le_of_lt (UInt32.le_iff_toNat_le.mp hle) (by decide)
  · have hle : c.val ≤ 'z'.val := of_decide_eq_true (Bool.and_eq_true_iff.mp hlower).2
    exact Nat.lt_of_le_of_lt (UInt32.le_iff_toNat_le.mp hle) (by decide)

theorem mem_of_isNameSegment {segment : List Char} (h : isNameSegment segment = true) :
    ∀ c ∈ segment, Text.isWord c = true ∨ c = '$' := by
  cases segment with
  | nil => exact fun c hc => (by cases hc)
  | cons first rest =>
      simp only [isNameSegment, isNameStart, Bool.and_eq_true, List.all_eq_true, Bool.or_eq_true,
        beq_iff_eq] at h
      obtain ⟨hfirst, hrest⟩ := h
      refine List.forall_mem_cons.mpr ⟨?_, hrest⟩
      rcases hfirst with (halpha | rfl) | hdollar
      · have halphanum : first.isAlphanum = true := by rw [Char.isAlphanum, halpha, Bool.true_or]
        exact .inl (Text.isWord_of_isAlphanum halphanum (toNat_lt_of_isAlpha halpha))
      · exact .inl (by decide)
      · exact .inr hdollar

/-- An accepted name has words, dollar signs and dots in it, and perhaps a line feed. -/
theorem mem_of_isTypeName {name : List Char} (h : isTypeName name = true) :
    ∀ c ∈ name, Text.isWord c = true ∨ c = '$' ∨ c = '.' ∨ c = '\n' := by
  have hdotted {s : List Char} (hs : isDottedName s = true) :
      ∀ c ∈ s, Text.isWord c = true ∨ c = '$' ∨ c = '.' := by
    intro c hc
    by_cases hdot : c = '.'
    · exact .inr (.inr hdot)
    · obtain ⟨segment, hsegment, hmem⟩ := Text.exists_mem_splitOn hc hdot
      rw [isDottedName, List.all_eq_true] at hs
      exact (mem_of_isNameSegment (hs segment hsegment) c hmem).imp_right .inl
  simp only [isTypeName, Bool.or_eq_true, Bool.and_eq_true, beq_iff_eq] at h
  rcases h with hname | ⟨hlast, hname⟩
  · exact fun c hc => (hdotted hname c hc).imp_right fun hc => hc.imp_right .inl
  · obtain ⟨body, rfl⟩ := List.getLast?_eq_some_iff.mp hlast
    rw [List.dropLast_concat] at hname
    refine List.forall_mem_append.mpr ⟨?_, by simp⟩
    exact fun c hc => (hdotted hname c hc).imp_right fun hc => hc.imp_right .inl

/-- The package of a type is a part of its name. -/
theorem Declaration.mem_name_of_mem_package {d : Declaration} {c : Char} (h : c ∈ d.package.toList) :
    c ∈ d.name.toList := by
  rw [Declaration.package, String.toList_ofList] at h
  exact Text.mem_of_mem_splitLast (List.mem_append_left _ h)

/-- So is its name within the package. -/
theorem Declaration.mem_name_of_mem_simpleName {d : Declaration} {c : Char}
    (h : c ∈ d.simpleName.toList) : c ∈ d.name.toList := by
  rw [Declaration.simpleName, String.toList_ofList] at h
  exact Text.mem_of_mem_splitLast (List.mem_append_right _ h)

/-! ## What stands in the code of a provider -/

/-- A character of a name or of a modifier with the blank behind it; an accepted name may end with a line
feed. -/
def isCodeChar (c : Char) : Bool :=
  Text.isWord c || c == '$' || c == '.' || c == ' ' || c == '\n'

/-- What is put into the code of a provider is made of names and modifiers. -/
structure Target.HasPlainNames (t : Target) : Prop where
  name : ∀ c ∈ t.declaration.name.toList, isCodeChar c = true
  package : ∀ c ∈ t.package.toList, isCodeChar c = true
  simpleName : ∀ c ∈ t.simpleName.toList, isCodeChar c = true
  modifier : ∀ c ∈ t.declaration.visibility.modifier.toList, isCodeChar c = true

theorem isCodeChar_suffix (strategy : Strategy) : ∀ c ∈ strategy.suffix.toList, isCodeChar c = true := by
  cases strategy with
  | runtimeLoading | embeddedLiteral => exact List.all_eq_true.mp (by decide)

theorem isCodeChar_modifier (v : Visibility) : ∀ c ∈ v.modifier.toList, isCodeChar c = true := by
  cases v with
  | everyone | subtypes | enclosing | package => exact List.all_eq_true.mp (by decide)
  | unknown word => exact fun c hc => (List.not_mem_nil hc).elim

theorem Target.hasPlainNames {t : Target} (h : isTypeName t.declaration.name.toList = true) :
    t.HasPlainNames := by
  have hname : ∀ c ∈ t.declaration.name.toList, isCodeChar c = true := by
    intro c hc
    rw [isCodeChar]
    rcases mem_of_isTypeName h c hc with hword | rfl | rfl | rfl
    · simp [hword]
    · simp
    · simp
    · simp
  refine ⟨hname, fun c hc => hname c (Declaration.mem_name_of_mem_package hc), ?_,
    isCodeChar_modifier t.declaration.visibility⟩
  rw [Target.simpleName, String.toList_append]
  exact List.forall_mem_append.mpr
    ⟨fun c hc => hname c (Declaration.mem_name_of_mem_simpleName hc), isCodeChar_suffix t.strategy⟩

/-! ## Paths of dotted names -/

/-- The segments of the package that a name is in. -/
def packageParts (name : String) : List String :=
  ((Text.splitOn '.' name.toList).dropLast).map String.ofList

/-- The file name of the source of a name. -/
def sourceName (name : String) : String :=
  String.ofList ((Text.splitOn '.' name.toList).getLastD []) ++ ".java"

/-- The parts of the path of a source below a root. -/
def sourceParts (name : String) : List String :=
  packageParts name ++ [sourceName name]

theorem packageParts_eq {name : String} {front : List (List Char)} {last : List Char}
    (h : Text.splitOn '.' name.toList = front ++ [last]) :
    packageParts name = front.map String.ofList := by
  simp [packageParts, h]

theorem sourceName_eq {name : String} {front : List (List Char)} {last : List Char}
    (h : Text.splitOn '.' name.toList = front ++ [last]) :
    sourceName name = String.ofList last ++ ".java" := by
  simp [sourceName, h]

theorem ofString_eq_part {part : List Char} (hne : part ≠ []) (hdot : part ≠ ['.'])
    (hslash : '/' ∉ part) : Path.ofString (String.ofList part) = ⟨.here, [String.ofList part]⟩ := by
  have hanchor : Path.anchorOf part = .here := by
    cases part with
    | nil => exact absurd rfl hne
    | cons c rest =>
        have hc : c ≠ '/' := by
          rintro rfl
          exact hslash List.mem_cons_self
        simp [Path.anchorOf, hc]
  have hparts : Path.partsOf part = [String.ofList part] := by
    simp [Path.partsOf, Text.splitOn_of_not_mem hslash, hne, hdot]
  rw [Path.ofString, String.toList_ofList, hanchor, hparts]

theorem child_eq {root : Path} {part : List Char} (hne : part ≠ []) (hdot : part ≠ ['.'])
    (hslash : '/' ∉ part) :
    root.child (String.ofList part) = ⟨root.anchor, root.parts ++ [String.ofList part]⟩ := by
  rw [Path.child, ofString_eq_part hne hdot hslash]
  rfl

theorem child_empty (root : Path) : root.child "" = root := by
  simp [Path.child, Path.join, Path.ofString, Path.anchorOf, Path.partsOf, Text.splitOn]

/-- Pieces lead to one directory each, but one without characters leads nowhere. -/
theorem foldl_child_eq {pieces : List (List Char)}
    (h : ∀ piece ∈ pieces, '.' ∉ piece ∧ '/' ∉ piece) (root : Path) :
    pieces.foldl (fun dir part => dir.child (String.ofList part)) root =
      ⟨root.anchor, root.parts ++ (pieces.filter (· ≠ [])).map String.ofList⟩ := by
  induction pieces generalizing root with
  | nil => simp
  | cons piece rest ih =>
      simp only [List.mem_cons, forall_eq_or_imp] at h
      obtain ⟨⟨hdot, hslash⟩, hrest⟩ := h
      rw [List.foldl_cons]
      by_cases hempty : piece = []
      · rw [hempty, String.ofList_nil, child_empty, ih hrest]
        simp
      · have hother : piece ≠ ['.'] := by
          rintro rfl
          simp at hdot
        rw [child_eq hempty hother hslash, ih hrest]
        simp [hempty]

/-- The directories of the package that a name is in; an empty segment is none. -/
def packageDirs (name : String) : List String :=
  (((Text.splitOn '.' name.toList).dropLast).filter (· ≠ [])).map String.ofList

section

variable {name : String} (hslash : '/' ∉ name.toList)

include hslash

/-- No segment of such a name has a slash in it. -/
theorem slash_not_mem_of_mem_splitOn {segment : List Char}
    (h : segment ∈ Text.splitOn '.' name.toList) : '/' ∉ segment :=
  fun hmem => hslash (Text.mem_of_mem_splitOn h hmem)

theorem packageDir_eq_dirs (root : Path) :
    Layout.packageDir root (String.ofList (Text.splitLast '.' name.toList).1) =
      ⟨root.anchor, root.parts ++ packageDirs name⟩ := by
  obtain ⟨front, last, hpieces⟩ := Text.exists_splitOn_eq_append '.' name.toList
  have hfront : ∀ segment ∈ front, '.' ∉ segment ∧ '/' ∉ segment := by
    intro segment hsegment
    have hmem : segment ∈ Text.splitOn '.' name.toList := by simp [hpieces, hsegment]
    exact ⟨Text.not_mem_of_mem_splitOn hmem, slash_not_mem_of_mem_splitOn hslash hmem⟩
  rw [packageDirs, hpieces, List.dropLast_concat, Text.splitLast_eq hpieces]
  unfold Layout.packageDir
  cases front with
  | nil => simp
  | cons first rest =>
      have hsplit : Text.splitOn '.' (['.'].intercalate (first :: rest)) = first :: rest :=
        Text.splitOn_intercalate (fun segment hsegment => (hfront segment hsegment).1) (by simp)
      split
      · -- the package has no characters: its one segment is empty
        next hempty =>
          have hnil : ['.'].intercalate (first :: rest) = [] := by simpa using hempty
          have hone : first :: rest = [[]] := by rw [← hsplit, hnil]; rfl
          simp [hone]
      · rw [String.toList_ofList, hsplit, foldl_child_eq hfront]

/-- The path of a source has the directories of its package, and the name within it for its file. -/
theorem sourceFile_eq_dirs (root : Path) :
    Layout.sourceFile root name =
      ⟨root.anchor, root.parts ++ (packageDirs name ++ [sourceName name])⟩ := by
  obtain ⟨front, last, hpieces⟩ := Text.exists_splitOn_eq_append '.' name.toList
  have hlast : '/' ∉ last := slash_not_mem_of_mem_splitOn hslash (by simp [hpieces])
  have hfile : String.ofList last ++ ".java" = String.ofList (last ++ ".java".toList) := by
    simp [String.ofList_append]
  unfold Layout.sourceFile
  dsimp only
  rw [packageDir_eq_dirs hslash, Text.splitLast_eq hpieces, hfile, child_eq, ← hfile,
    sourceName_eq hpieces]
  · simp
  · simp
  · exact fun heq => absurd (congrArg List.length heq) (by simp)
  · simp [hlast]

end

section

variable {name : String} (h : IsDotted name)

include h

/-- A dotted name has no slash. -/
theorem slash_not_mem_of_isDotted : '/' ∉ name.toList := by
  intro hslash
  obtain ⟨segment, hsegment, hmem⟩ := Text.exists_mem_splitOn hslash (by decide : '/' ≠ '.')
  exact (h segment hsegment).2 hmem

/-- Every segment of its package is a directory. -/
theorem packageDirs_eq_packageParts : packageDirs name = packageParts name := by
  rw [packageDirs, packageParts, List.filter_eq_self.mpr]
  intro segment hsegment
  simpa using (h segment (List.dropLast_subset _ hsegment)).1

theorem packageDir_eq (root : Path) :
    Layout.packageDir root (String.ofList (Text.splitLast '.' name.toList).1) =
      ⟨root.anchor, root.parts ++ packageParts name⟩ := by
  rw [packageDir_eq_dirs (slash_not_mem_of_isDotted h), packageDirs_eq_packageParts h]

/-- The path of a source has the directories of its package. -/
theorem sourceFile_eq (root : Path) :
    Layout.sourceFile root name = ⟨root.anchor, root.parts ++ sourceParts name⟩ := by
  rw [sourceFile_eq_dirs (slash_not_mem_of_isDotted h), packageDirs_eq_packageParts h, sourceParts]

omit h in
/-- The directories of a package have no dot in their names. -/
theorem not_mem_dot_of_mem_packageParts {part : String} (hpart : part ∈ packageParts name) :
    '.' ∉ part.toList := by
  obtain ⟨segment, hsegment, rfl⟩ := List.mem_map.mp hpart
  rw [String.toList_ofList]
  exact Text.not_mem_of_mem_splitOn (List.dropLast_subset _ hsegment)

end

theorem mem_dot_sourceName (name : String) : '.' ∈ (sourceName name).toList := by
  simp [sourceName]

/-- Different names have different paths. -/
theorem sourceParts_injective {name other : String} (h : sourceParts name = sourceParts other) :
    name = other := by
  obtain ⟨front, last, hpieces⟩ := Text.exists_splitOn_eq_append '.' name.toList
  obtain ⟨front', last', hpieces'⟩ := Text.exists_splitOn_eq_append '.' other.toList
  unfold sourceParts at h
  obtain ⟨hfront, hlast⟩ := List.append_inj' h rfl
  rw [packageParts_eq hpieces, packageParts_eq hpieces'] at hfront
  rw [sourceName_eq hpieces, sourceName_eq hpieces'] at hlast
  have hinj : Function.Injective String.ofList := fun a b hab => String.ofList_injective hab
  have hfronts : front = front' := (List.map_inj_right hinj).mp hfront
  have hlasts : last = last' := String.ofList_injective (by simpa using hlast)
  have hsame : Text.splitOn '.' name.toList = Text.splitOn '.' other.toList := by
    rw [hpieces, hpieces', hfronts, hlasts]
  exact String.toList_inj.mp (Text.splitOn_injective hsame)

/-! ## Targets -/

theorem Declaration.mem_targets {d : Declaration} {t : Target} (ht : t ∈ d.targets) :
    t.declaration = d := by
  simp only [targets, List.mem_cons, List.not_mem_nil, or_false] at ht
  rcases ht with rfl | rfl <;> rfl

section

variable {d : Declaration} (h : IsDotted d.name)

theorem Strategy.dot_not_mem_suffix (strategy : Strategy) : '.' ∉ strategy.suffix.toList := by
  cases strategy <;> decide

theorem Strategy.slash_not_mem_suffix (strategy : Strategy) : '/' ∉ strategy.suffix.toList := by
  cases strategy <;> decide

/-- The provider of a type has the type's name with a longer last segment. -/
theorem Target.splitOn_name (t : Target) {front : List (List Char)} {last : List Char}
    (hpieces : Text.splitOn '.' t.declaration.name.toList = front ++ [last]) :
    Text.splitOn '.' t.name.toList = front ++ [last ++ t.strategy.suffix.toList] := by
  rw [Target.name, String.toList_append]
  exact Text.splitOn_append hpieces t.strategy.dot_not_mem_suffix

theorem Target.packageParts_name (t : Target) :
    packageParts t.name = packageParts t.declaration.name := by
  obtain ⟨front, last, hpieces⟩ := Text.exists_splitOn_eq_append '.' t.declaration.name.toList
  rw [packageParts_eq (t.splitOn_name hpieces), packageParts_eq hpieces]

theorem Target.isDotted_name {t : Target} (ht : IsDotted t.declaration.name) :
    IsDotted t.name := by
  obtain ⟨front, last, hpieces⟩ := Text.exists_splitOn_eq_append '.' t.declaration.name.toList
  unfold IsDotted at ht ⊢
  rw [t.splitOn_name hpieces]
  simp only [hpieces, List.mem_append, List.mem_singleton, or_imp, forall_and, forall_eq] at ht ⊢
  obtain ⟨⟨hne, hlast⟩, hslash, hslash'⟩ := ht
  exact ⟨⟨hne, by simp [hlast]⟩, hslash, by simp [hslash', t.strategy.slash_not_mem_suffix]⟩

/-- Different types have different providers, and the two providers of a type are different. -/
theorem Target.name_eq_name_iff {t t' : Target} :
    t.name = t'.name ↔ t.strategy = t'.strategy ∧ t.declaration.name = t'.declaration.name := by
  constructor
  · intro hname
    have hlast := congrArg (fun s : String => s.toList.getLast?) hname
    have hstrategy : t.strategy = t'.strategy := by
      cases hs : t.strategy <;> cases hs' : t'.strategy <;>
        simp [Target.name, hs, hs', Strategy.suffix] at hlast ⊢
    refine ⟨hstrategy, ?_⟩
    rw [Target.name, Target.name, hstrategy] at hname
    exact (String.append_left_inj _).mp hname
  · rintro ⟨hstrategy, hname⟩
    rw [Target.name, Target.name, hstrategy, hname]

include h

theorem Declaration.exists_simpleName :
    ∃ last : List Char, d.simpleName = String.ofList last ∧ last ≠ [] ∧ '.' ∉ last ∧ '/' ∉ last := by
  obtain ⟨front, last, hpieces⟩ := Text.exists_splitOn_eq_append '.' d.name.toList
  have hmem : last ∈ Text.splitOn '.' d.name.toList := by simp [hpieces]
  refine ⟨last, ?_, (h last hmem).1, Text.not_mem_of_mem_splitOn hmem, (h last hmem).2⟩
  rw [Declaration.simpleName, Text.splitLast_eq hpieces]

/-- A name with a dot in it is made of a package and a name within it. -/
theorem Declaration.name_eq_append (hdot : '.' ∈ d.name.toList) :
    d.name.toList = d.package.toList ++ '.' :: d.simpleName.toList ∧ d.package.toList ≠ [] := by
  obtain ⟨front, last, hpieces⟩ := Text.exists_splitOn_eq_append '.' d.name.toList
  have hlast : '.' ∉ last := Text.not_mem_of_mem_splitOn (s := d.name.toList) (by simp [hpieces])
  have hwhole := Text.intercalate_splitOn '.' d.name.toList
  rw [hpieces, Text.intercalate_append_singleton] at hwhole
  rw [Declaration.package, Declaration.simpleName, Text.splitLast_eq hpieces, String.toList_ofList,
    String.toList_ofList]
  cases front with
  | nil =>
      rw [if_pos rfl] at hwhole
      exact absurd hdot (hwhole ▸ hlast)
  | cons first more =>
      rw [if_neg (List.cons_ne_nil _ _)] at hwhole
      refine ⟨hwhole.symm, ?_⟩
      have hfirst : first ≠ [] := (h first (by simp [hpieces])).1
      cases more <;> simp [hfirst]

/-- The path of a type's resource has the directories of its package. -/
theorem Declaration.pathUnder_eq (root : Path) {extension : String} (hext : '/' ∉ extension.toList) :
    Resolver.pathUnder root ⟨d.package, d.simpleName, extension⟩ =
      ⟨root.anchor, root.parts ++
        (packageParts d.name ++ [d.simpleName ++ "." ++ extension])⟩ := by
  obtain ⟨last, hsimple, hne, -, hslash⟩ := d.exists_simpleName h
  have hfile : String.ofList last ++ "." ++ extension =
      String.ofList (last ++ '.' :: extension.toList) := by
    simp [String.ofList_append, String.append_assoc]
  unfold Resolver.pathUnder ResourceName.fileName Declaration.package
  dsimp only
  rw [packageDir_eq h, hsimple, hfile, child_eq]
  · simp
  · simp
  · exact fun heq => hne (List.append_eq_nil_iff.mp (by simpa using congrArg List.dropLast heq)).1
  · simp [hslash, hext]

/-- The file of a resource is none of the names that lead up. -/
theorem Declaration.resource_ne_dots (extension : String) :
    d.simpleName ++ "." ++ extension ≠ ".." := by
  obtain ⟨last, hsimple, hne, hdot, -⟩ := d.exists_simpleName h
  intro heq
  have hchars := congrArg String.toList heq
  rw [hsimple] at hchars
  cases last with
  | nil => exact hne rfl
  | cons c rest =>
      simp only [String.toList_append, String.toList_ofList, List.cons_append] at hchars
      obtain ⟨rfl, -⟩ := List.cons.inj hchars
      exact hdot List.mem_cons_self

end

end TextProviders
