import TextProviders.Proofs.Layout.Places
import TextProviders.Proofs.Source.Arguments
import TextProviders.Proofs.Source.Visibility

/-!
# Entries of a manifest and marked types

A type is declared by an entry of a manifest, or in its source by the marker on it.  `markedSource` is
the source that states the same as a declaration.  If the declaration can be stated so, its marker carries
an extension and a flag (`carries_markedType`), and the scan finds it there and nothing else
(`declarations_markedSource`).

An entry may have a dollar sign in its name, but a name that is reported of a source never has one
(`isNameChar_of_reported`): it is read up to the first.  So the two ways agree exactly where there is
none (`entry_agrees_with_source_iff`).
-/

namespace TextProviders.Source

open Document (Containers Value)

/-! ## Reported names -/

theorem isNameChar_of_mem_packageAt? {s name : List Char} (h : packageAt? s = some name) :
    ∀ c ∈ name, isNameChar c = true := by
  unfold packageAt? at h
  dsimp only at h
  split at h
  · split at h
    · cases h
    · split at h
      · obtain rfl := Option.some.inj h
        exact fun c hc => List.all_eq_true.mp List.all_takeWhile c hc
      · cases h
  · cases h

theorem isNameChar_of_mem_packageFrom? {s name : List Char} {lineStart : Bool}
    (h : packageFrom? lineStart s = some name) : ∀ c ∈ name, isNameChar c = true := by
  have hhere {s name : List Char} {lineStart : Bool}
      (h : (if lineStart then packageAt? s else none) = some name) :
      ∀ c ∈ name, isNameChar c = true := by
    split at h
    · exact isNameChar_of_mem_packageAt? h
    · cases h
  induction s generalizing lineStart with
  | nil =>
      unfold packageFrom? at h
      split at h
      · next found hfound =>
        obtain rfl := Option.some.inj h
        exact hhere hfound
      · cases h
  | cons c rest ih =>
      unfold packageFrom? at h
      split at h
      · next found hfound =>
        obtain rfl := Option.some.inj h
        exact hhere hfound
      · exact ih h

theorem isNameChar_of_mem_packageOf {s : List Char} : ∀ c ∈ packageOf s, isNameChar c = true := by
  unfold packageOf
  cases hfound : packageFrom? true s with
  | none => exact fun c hc => (by cases hc)
  | some name => exact isNameChar_of_mem_packageFrom? hfound

theorem isWord_of_typeHeadAt? {s : List Cell} {head : TypeHead} (h : typeHeadAt? s = some head) :
    ∀ c ∈ head.name, Text.isWord c = true := by
  unfold typeHeadAt? at h
  dsimp only at h
  split at h
  · cases h
  · split at h
    · cases h
    · obtain rfl := Option.some.inj h
      intro c hc
      obtain ⟨d, hd, rfl⟩ := List.mem_map.mp hc
      exact List.all_eq_true.mp List.all_takeWhile d hd

theorem isWord_of_typeHeadWithin {s : List Cell} {head : TypeHead} {count : Nat}
    (h : typeHeadWithin count s = some head) : ∀ c ∈ head.name, Text.isWord c = true := by
  induction count generalizing s with
  | zero => exact isWord_of_typeHeadAt? h
  | succ count ih =>
      rw [typeHeadWithin] at h
      rcases Option.or_eq_some_iff.mp h with hfound | ⟨-, hhead⟩
      · obtain ⟨rest, -, hrest⟩ := List.exists_of_findSome?_eq_some hfound
        exact ih hrest
      · exact isWord_of_typeHeadAt? hhead

theorem isWord_of_mem_marksFrom {before s : List Cell} {skip : Nat} {m : Mark}
    (h : m ∈ marksFrom before skip s) : ∀ c ∈ m.name, Text.isWord c = true := by
  obtain ⟨_, _, _, -, hmark⟩ := exists_markAt?_of_mem h
  obtain ⟨_, _, head, hhead, rfl, -⟩ := eq_of_markAt? hmark
  exact isWord_of_typeHeadWithin hhead

/-- What is reported is reported of some mark. -/
theorem exists_mark_of_mem {package : List Char} {ms : List Mark} {ds : List Declaration}
    (h : List.Forall₂ (Mark.Declares package) ms ds) {d : Declaration} (hd : d ∈ ds) :
    ∃ m ∈ ms, m.Declares package d := by
  induction h with
  | nil => cases hd
  | @cons m d' ms _ hdeclares _ ih =>
      rcases List.mem_cons.mp hd with rfl | hd
      · exact ⟨m, List.mem_cons_self, hdeclares⟩
      · obtain ⟨m', hm', hdeclares'⟩ := ih hd
        exact ⟨m', List.mem_cons_of_mem _ hm', hdeclares'⟩

/-- **A name that is reported has words and dots in it**, and nothing else. -/
theorem isNameChar_of_reported {text : String} {ds : List Declaration}
    (h : declarations text = .ok ds) {d : Declaration} (hd : d ∈ ds) :
    ∀ c ∈ d.name.toList, isNameChar c = true := by
  rcases declarations_cases text with ⟨fault, hfault, -⟩ | ⟨ds', hds', hall⟩
  · cases h.symm.trans hfault
  · obtain rfl := Except.ok.inj (h.symm.trans hds')
    obtain ⟨m, hm, hdeclares⟩ := exists_mark_of_mem hall hd
    have hname : ∀ c ∈ m.name, isNameChar c = true := fun c hc =>
      Bool.or_eq_true_iff.mpr (.inl (isWord_of_mem_marksFrom (List.mem_filter.mp hm).1 c hc))
    rw [hdeclares.name, qualify, String.toList_ofList]
    split
    · exact hname
    · exact List.forall_mem_append.mpr
        ⟨isNameChar_of_mem_packageOf, List.forall_mem_cons.mpr ⟨by decide, hname⟩⟩

/-! ## The type that an entry declares -/

/-- The source of a type that states the same as a declaration. -/
def markedSource (d : Declaration) : String :=
  "package " ++ d.package ++ "; @TextResourceAware(fileExtension = \"" ++
    d.binding.fileExtension.getD "" ++ "\", normalizeSpace = " ++ toString d.binding.normalizeSpace ++
    ") " ++ d.visibility.keyword ++ " class " ++ d.simpleName ++ " \x7b\x7d"

/-- The keyword of a type, if it has one. -/
def accessItems (keyword : List Char) : List (List Lexeme × Item) :=
  if keyword = [] then [] else [([.code ' '], .word keyword)]

/-- The blanks that follow the keyword, or that stand around it if there is none. -/
def accessGap (keyword : List Char) : List Lexeme :=
  if keyword = [] then [.code ' ', .code ' '] else [.code ' ']

theorem written_accessItems (keyword : List Char) (rest : List Lexeme) :
    written (accessItems keyword) ++ (accessGap keyword ++ rest) =
      .code ' ' :: (keyword.map .code ++ .code ' ' :: rest) := by
  unfold accessItems accessGap
  split
  · next hnil => rw [hnil]; rfl
  · rw [written_cons, written_nil, List.append_nil]; rfl

/-- The members of the marker. -/
def memberLexemes (extension : List Char) (flag : Bool) : List Lexeme :=
  "fileExtension = ".toList.map .code ++ .literal ['"'] extension ::
    (", normalizeSpace = ".toList.map .code ++ (toString flag).toList.map .code)

/-- The package line of the source of a declaration. -/
def packageLine (d : Declaration) : PackageLine :=
  ⟨[], [.code ' '], d.package.toList, []⟩

/-- The parts of the source of a declaration, behind its package line. -/
def markedType (d : Declaration) : MarkedType where
  unit := []
  before := []
  gap := [.code ' ']
  marker := marker
  arguments := some ([],
    memberLexemes (d.binding.fileExtension.getD "").toList d.binding.normalizeSpace)
  after := accessItems d.visibility.keyword.toList
  kindGap := accessGap d.visibility.keyword.toList
  kind := "class".toList
  nameGap := [.code ' ']
  name := d.simpleName.toList
  rest := " \x7b\x7d".toList.map .code

/-- What stands before the extension, behind the package line. -/
def openingText : List Char :=
  ' ' :: '@' :: (marker ++ '(' :: "fileExtension = ".toList)

/-- What stands behind the extension. -/
def closingText (d : Declaration) : List Char :=
  ", normalizeSpace = ".toList ++ ((toString d.binding.normalizeSpace).toList ++ ')' :: ' ' ::
    (d.visibility.keyword.toList ++ ' ' :: ("class".toList ++ ' ' ::
      (d.simpleName.toList ++ " \x7b\x7d".toList))))

theorem lexemes_markedType (d : Declaration) : (markedType d).lexemes =
    openingText.map .code ++ .literal ['"'] (d.binding.fileExtension.getD "").toList ::
      (closingText d).map .code := by
  unfold openingText closingText markedType memberLexemes
  simp only [MarkedType.lexemes, MarkedType.front, MarkedType.head, MarkedType.markerItem, Item.lexemes,
    written_nil, List.map_append, List.map_cons, List.append_assoc, List.cons_append, List.nil_append,
    written_accessItems]

/-- The parts of the source are its text. -/
theorem markedSource_eq (d : Declaration) :
    markedSource d = textOf ((packageLine d).lexemes ++ (markedType d).lexemes) := by
  have hpackage : "package ".toList = "package".toList ++ [' '] := by decide
  have hopening : "; @TextResourceAware(fileExtension = \"".toList = ';' :: (openingText ++ ['"']) := by
    decide
  have hcomma : "\", normalizeSpace = ".toList = '"' :: ", normalizeSpace = ".toList := by decide
  have hclosing : ") ".toList = [')', ' '] := by decide
  have hclass : " class ".toList = ' ' :: ("class".toList ++ [' ']) := by decide
  refine String.toList_inj.mp ?_
  rw [lexemes_markedType]
  unfold markedSource textOf closingText packageLine
  simp only [String.toList_ofList, PackageLine.lexemes, List.flatMap_append, List.flatMap_cons,
    flatMap_source_map_code, Lexeme.source, String.toList_append, hpackage, hopening, hcomma, hclosing,
    hclass, List.append_assoc, List.cons_append, List.nil_append]

/-- A declaration that can be stated in a source as it is: its name is made of words, and its extension
can stand between quotes. -/
structure IsExpressible (d : Declaration) : Prop where
  name : d.name.toList = d.package.toList ++ '.' :: d.simpleName.toList
  package : d.package.toList ≠ [] ∧ ∀ c ∈ d.package.toList, isNameChar c = true
  simple : d.simpleName.toList ≠ [] ∧ ∀ c ∈ d.simpleName.toList, Text.isWord c = true
  level : d.visibility ∈ Visibility.levels
  stated : d.binding.fileExtension = some (d.binding.fileExtension.getD "")
  extension : ∀ c ∈ (d.binding.fileExtension.getD "").toList, c ≠ '"' ∧ c ≠ '\\' ∧ c ≠ '\n'

section

variable {d : Declaration} (hd : IsExpressible d)
include hd

omit hd in
/-- The members of the marker are an extension and a flag. -/
theorem areSpaced_memberLexemes {extension : List Char}
    (h : ∀ c ∈ extension, c ≠ '"' ∧ c ≠ '\\' ∧ c ≠ '\n') (flag : Bool) :
    AreSpaced [.extension extension, .flag flag] (memberLexemes extension flag) := by
  have hblank : Spacing [.code ' '] := .blank (by decide) .nil
  have hextension := Member.IsSpaced.mk (m := .extension extension) .nil hblank hblank .nil
    (quoted_of_forall h)
  have hflag := Member.IsSpaced.mk (m := .flag flag) hblank hblank hblank .nil True.intro
  have hkey : "fileExtension = ".toList = "fileExtension".toList ++ [' ', '=', ' '] := by decide +kernel
  have hcomma : ", normalizeSpace = ".toList =
      ',' :: ' ' :: ("normalizeSpace".toList ++ [' ', '=', ' ']) := by decide +kernel
  have hshown : (toString flag).toList = (Member.flag flag).value := by
    cases flag with
    | false => decide +kernel
    | true => decide +kernel
  have hlisted := AreSpaced.more hextension (.last hflag)
  unfold memberLexemes
  rw [hkey, hcomma, hshown]
  dsimp only [Member.key, Member.valueLexemes] at hlisted
  generalize "fileExtension".toList = first at hlisted ⊢
  generalize "normalizeSpace".toList = second at hlisted ⊢
  simpa only [List.map_append, List.map_cons, List.map_nil, List.append_assoc, List.cons_append,
    List.nil_append, List.append_nil] using hlisted

theorem carries_markedType : (markedType d).Carries
    [.extension (d.binding.fileExtension.getD "").toList, .flag d.binding.normalizeSpace] := by
  have hblank : Spacing [.code ' '] := .blank (by decide) .nil
  have hwords : ∀ level ∈ Visibility.levels, level.keyword.toList ≠ [] →
      level.keyword.toList ∈ modifierWords := by decide
  have hspaced : ∀ level ∈ Visibility.levels, Spaced false (accessItems level.keyword.toList ++
      [(accessGap level.keyword.toList, .word "class".toList)]) := by decide +kernel
  have hmarker : ∀ c ∈ marker, isNameChar c = true := by decide
  have hkind : "class".toList ∈ kindWords := by decide
  have hrest : IsNested (" \x7b\x7d".toList.map .code) ∧ '@' ∉ maskedOf (" \x7b\x7d".toList.map .code) ∧
      ∀ c ∈ (maskedOf (" \x7b\x7d".toList.map .code)).head?, Text.isWord c = false := by
    refine ⟨⟨by decide, by decide⟩, by decide, fun c hc => ?_⟩
    obtain rfl : ' ' = c := Option.some.inj hc
    decide
  have hafter : AreModifiers (accessItems d.visibility.keyword.toList) := by
    intro p hp
    unfold accessItems at hp
    split at hp
    · cases hp
    · next hne =>
      obtain rfl := List.mem_singleton.mp hp
      exact ⟨hblank, _, hwords _ hd.level hne, rfl⟩
  have hgap : Spacing (accessGap d.visibility.keyword.toList) := by
    unfold accessGap
    split
    · exact .blank (by decide) hblank
    · exact hblank
  exact {
    unit := rfl
    before := fun p hp => (by cases hp)
    gap := hblank
    marker := ⟨.inl rfl, hmarker⟩
    arguments := ⟨_, _, rfl, .nil, areSpaced_memberLexemes hd.extension _⟩
    after := hafter
    kindGap := hgap
    kind := hkind
    spaced := ⟨fun h => (by cases h), hspaced _ hd.level⟩
    nameGap := ⟨hblank, List.cons_ne_nil _ _⟩
    name := hd.simple
    rest := hrest }

theorem isDivided_markedType : IsDivided (markedType d).lexemes := by
  have hrest : IsDivided ((markedType d).rest ++ []) := by
    rw [List.append_nil]
    exact isDivided_map_code (by decide)
  simpa using isDivided_of_carries (carries_markedType hd) hrest

theorem visibility_markedType : (markedType d).mark.visibility = d.visibility := by
  have ht := isWellFormed_of_carries (carries_markedType hd) (isDivided_markedType hd)
  have hleading := leading_mark ht (fun p hp => (by cases hp)) fun p hp => (by cases hp)
  have hitems : ∀ level ∈ Visibility.levels,
      (∀ p ∈ accessItems level.keyword.toList, p.2.IsPlain ∧ p.2.KeepsReserved) ∧
        (accesses (accessItems level.keyword.toList)).length ≤ 1 ∧
        statedBy (accessItems level.keyword.toList) = level := by
    decide +kernel
  obtain ⟨hafter, hone, hstated⟩ := hitems _ hd.level
  have hvisibility := visibility_mark ht (List.suffix_refl _) hleading (fun p hp => (by cases hp))
    (fun p hp => (hafter p hp).1) (fun p hp => (hafter p hp).2) hone
  exact hvisibility.trans hstated

/-- **A declaration that can be stated in a source is found there**, and nothing else is. -/
theorem declarations_markedSource : declarations (markedSource d) = .ok [d] := by
  have hnone : IsGap [] := by decide
  have hblank : IsGap [.code ' '] ∧ [Lexeme.code ' '] ≠ [] := by decide
  have hline : (packageLine d).IsWellFormed := ⟨hnone, hblank, hd.package, hnone⟩
  have hplain : ∀ c ∈ "package".toList ++ ' ' :: (d.package.toList ++ [';']),
      c ≠ '"' ∧ c ≠ '\'' ∧ c ≠ '/' := by
    have hword : ∀ c ∈ "package".toList, c ≠ '"' ∧ c ≠ '\'' ∧ c ≠ '/' := by decide
    simp only [List.forall_mem_append, List.forall_mem_cons]
    exact ⟨hword, by decide, fun c hc => startsNothing_of_holds (by decide) (hd.package.2 c hc), by decide⟩
  have hlexed : IsLexed (packageLine d).lexemes := by
    have hlexemes : (packageLine d).lexemes =
        ("package".toList ++ ' ' :: (d.package.toList ++ [';'])).map .code := by
      simp only [PackageLine.lexemes, packageLine, List.map_append, List.map_cons, List.map_nil,
        List.cons_append, List.nil_append]
    rw [hlexemes]
    exact (isDivided_map_code hplain).lexed
  have hname : String.ofList (d.package.toList ++ '.' :: d.simpleName.toList) = d.name := by
    rw [← hd.name, String.ofList_toList]
  have hbinding : bindingOf [.extension (d.binding.fileExtension.getD "").toList,
      .flag d.binding.normalizeSpace] = d.binding := by
    show Binding.mk (some (String.ofList (d.binding.fileExtension.getD "").toList)) d.binding.normalizeSpace =
      d.binding
    rw [String.ofList_toList, ← hd.stated]
  rw [markedSource_eq, declarations_packageLine hline hlexed (isDivided_markedType hd),
    report_of_carries (carries_markedType hd) (isDivided_markedType hd) hline.name.1,
    visibility_markedType hd, hbinding]
  exact congrArg (fun name => Except.ok [Declaration.mk name d.visibility d.binding]) hname

end

/-! ## Entries and sources -/

/-- An accepted name without a dollar sign and without a line feed has only words and dots in it. -/
theorem isNameChar_of_isTypeName {name : List Char} (h : isTypeName name = true) (hline : '\n' ∉ name)
    (hdollar : '$' ∉ name) : ∀ c ∈ name, isNameChar c = true := by
  intro c hc
  rcases mem_of_isTypeName h c hc with hword | rfl | rfl | rfl
  · exact Bool.or_eq_true_iff.mpr (.inl hword)
  · exact absurd hc hdollar
  · decide
  · exact absurd hc hline

theorem isExpressible_of_isTypeName {d : Declaration} (hname : isTypeName d.name.toList = true)
    (hline : '\n' ∉ d.name.toList) (hdollar : '$' ∉ d.name.toList) (hdot : '.' ∈ d.name.toList)
    (hlevel : d.visibility ∈ Visibility.levels) {extension : String}
    (hstated : d.binding.fileExtension = some extension)
    (hextension : ∀ c ∈ extension.toList, c ≠ '"' ∧ c ≠ '\\' ∧ c ≠ '\n') : IsExpressible d := by
  have hdotted := isDotted_of_isTypeName hname
  have hchars := isNameChar_of_isTypeName hname hline hdollar
  obtain ⟨hparts, hpackage⟩ := d.name_eq_append hdotted hdot
  obtain ⟨simple, hsimple, hne, hnodot, -⟩ := d.exists_simpleName hdotted
  rw [hparts, List.forall_mem_append, List.forall_mem_cons] at hchars
  have hextension' : d.binding.fileExtension.getD "" = extension := by rw [hstated]; rfl
  refine ⟨hparts, ⟨hpackage, hchars.1⟩, ⟨?_, fun c hc => ?_⟩, hlevel, ?_, ?_⟩
  · rwa [hsimple, String.toList_ofList]
  · have hchar := hchars.2.2 c hc
    rw [isNameChar, Bool.or_eq_true, beq_iff_eq] at hchar
    refine hchar.resolve_right fun heq => hnodot ?_
    rwa [hsimple, String.toList_ofList, heq] at hc
  · rw [hextension', hstated]
  · rwa [hextension']

/-- **An entry of a manifest and a marked source that state the same declare the same**, exactly if the
name has no dollar sign in it: an entry may have one, but a name in a source is read up to it. -/
theorem entry_agrees_with_source_iff {cs : Containers} {entry : Value} {entries : List (Value × Value)}
    {name extension : String} {visibility : Visibility} {flag : Bool}
    (hentries : entry.entries? cs = some entries)
    (hname : Value.lookup entries "name" = some (.text name))
    (hvisibility : Value.lookup entries "visibility" = some (.text visibility.word))
    (hextension : Value.lookup entries "file_extension" = some (.text extension))
    (hflag : Value.lookup entries "normalize_space" = some (.flag flag))
    (haccepted : isTypeName name.toList = true) (hline : '\n' ∉ name.toList)
    (hpackage : '.' ∈ name.toList) (hlevel : visibility ∈ Visibility.levels)
    (hplain : ∀ c ∈ extension.toList, c ≠ '"' ∧ c ≠ '\\' ∧ c ≠ '\n') :
    let d : Declaration := ⟨name, visibility, ⟨some extension, flag⟩⟩
    parseEntry cs entry = .ok d ∧ (declarations (markedSource d) = .ok [d] ↔ '$' ∉ name.toList) := by
  intro d
  constructor
  · have hlevels : ∀ level ∈ Visibility.levels, levelOf? (.text level.word) = some level := by decide
    have hname' : entryName cs entries = .ok name := by
      rw [entryName, hname]
      exact if_pos haccepted
    have hvisibility' : entryVisibility cs name entries = .ok visibility := by
      rw [entryVisibility, hvisibility]
      dsimp only
      rw [hlevels _ hlevel]
    have hflag' : entryFlag name entries = .ok flag := by rw [entryFlag, hflag]
    have hextension' : entryExtension cs entries = .ok extension := by
      rw [entryExtension, hextension]
      rfl
    rw [parseEntry, hentries]
    dsimp only
    rw [hname']
    dsimp only
    rw [hvisibility']
    dsimp only
    rw [hflag']
    dsimp only
    rw [hextension']
  · constructor
    · intro hscan hdollar
      have hchar := isNameChar_of_reported hscan List.mem_cons_self '$' hdollar
      exact absurd hchar (by decide)
    · intro hdollar
      exact declarations_markedSource
        (isExpressible_of_isTypeName haccepted hline hdollar hpackage hlevel rfl hplain)

/-- A type without an access keyword, with a letter in its name that is not of the alphabet and an
extension that holds a parenthesis and an at sign. -/
theorem entry_agrees_with_source_iff_package_private :
    let d : Declaration := ⟨"com.acme.Gr\u00f6\u00dfe_1", .package, ⟨some "a) @b", true⟩⟩
    let entries : List (Value × Value) := [
      (.text "name", .text d.name), (.text "visibility", .text "default"),
      (.text "file_extension", .text "a) @b"), (.text "normalize_space", .flag true)]
    let cs : Containers := #[.mapping entries]
    (Value.entries? cs (.container 0) = some entries ∧
        Value.lookup entries "name" = some (.text d.name) ∧
        Value.lookup entries "visibility" = some (.text d.visibility.word) ∧
        Value.lookup entries "file_extension" = some (.text "a) @b") ∧
        Value.lookup entries "normalize_space" = some (.flag true) ∧
        isTypeName d.name.toList = true ∧ '\n' ∉ d.name.toList ∧ '.' ∈ d.name.toList ∧
        d.visibility ∈ Visibility.levels ∧
        ∀ c ∈ "a) @b".toList, c ≠ '"' ∧ c ≠ '\\' ∧ c ≠ '\n') ∧
      parseEntry cs (.container 0) = .ok d ∧ declarations (markedSource d) = .ok [d] := by
  intro d entries cs
  have hentries : Value.entries? cs (.container 0) = some entries := rfl
  have hname : Value.lookup entries "name" = some (.text d.name) := by decide +kernel
  have hvisibility : Value.lookup entries "visibility" = some (.text d.visibility.word) := by
    decide +kernel
  have hextension : Value.lookup entries "file_extension" = some (.text "a) @b") := by decide +kernel
  have hflag : Value.lookup entries "normalize_space" = some (.flag true) := by decide +kernel
  have haccepted : isTypeName d.name.toList = true := by decide +kernel
  have hline : '\n' ∉ d.name.toList := by decide +kernel
  have hpackage : '.' ∈ d.name.toList := by decide +kernel
  have hlevel : d.visibility ∈ Visibility.levels := by decide +kernel
  have hplain : ∀ c ∈ "a) @b".toList, c ≠ '"' ∧ c ≠ '\\' ∧ c ≠ '\n' := by decide +kernel
  obtain ⟨hparsed, hscanned⟩ := entry_agrees_with_source_iff hentries hname hvisibility hextension
    hflag haccepted hline hpackage hlevel hplain
  exact ⟨⟨hentries, hname, hvisibility, hextension, hflag, haccepted, hline, hpackage, hlevel, hplain⟩,
    hparsed, hscanned.mpr (by decide +kernel)⟩

/-- A dollar sign in the name of a type, and one in its package: the entry is accepted as it is, and in
the source a shorter name is found, without an error. -/
theorem dollar_ends_scanned_name :
    let d (name : String) : Declaration := ⟨name, .everyone, ⟨some "txt", false⟩⟩
    let cs (name : String) : Containers :=
      #[.mapping [(.text "name", .text name), (.text "visibility", .text "public"),
        (.text "file_extension", .text "txt"), (.text "normalize_space", .flag false)]]
    let parsed (name : String) := parseEntry (cs name) (.container 0)
    let scanned (name : String) := declarations (markedSource (d name))
    (parsed "com.acme.A$B" = .ok (d "com.acme.A$B") ∧
        scanned "com.acme.A$B" = .ok [d "com.acme.A"]) ∧
      parsed "com.a$b.C" = .ok (d "com.a$b.C") ∧ scanned "com.a$b.C" = .ok [d "C"] := by
  decide +kernel

end TextProviders.Source
