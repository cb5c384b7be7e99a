import Mathlib.Algebra.Group.Int.Defs
import Mathlib.Control.Monad.Basic
import TextProviders.Proofs.Document.Texts
import TextProviders.Proofs.Layout.Places

/-!
# What is accepted as an entry

An entry declares a type (`Declares`) if it is a mapping that gives a name of the grammar (`IsName`),
one of the four visibilities or none, and a flag or none.  The reader of entries accepts those that
declare a type and no others, and tells of a manifest at fault wherever it refuses one
(`parseEntry_accepts_exactly`).

Two things are left out (`ReadsAsMeant`).  A name with a line feed after it is accepted as well, so that
the declaration has a name outside the grammar.  And an integer with too many digits cannot be written,
neither for the extension nor in the words for what is wrong; that is a failure of another kind.  What is
accepted with both is `parseEntry_eq_ok_iff`.
-/

namespace TextProviders

open Document (Containers Value)

/-! ## Names -/

/-- A segment of a name: an ASCII letter, a low line or a dollar sign, with word characters and dollar
signs after it. -/
structure IsSegment (s : List Char) : Prop where
  start : ∃ first ∈ s.head?, first.isAlpha ∨ first = '_' ∨ first = '$'
  rest : ∀ c ∈ s.tail, Text.isWord c ∨ c = '$'

/-- A name: segments with single dots between them, and nothing else. -/
inductive IsName : List Char → Prop
  | segment {s : List Char} (h : IsSegment s) : IsName s
  | dot {s name : List Char} (h : IsSegment s) (hname : IsName name) : IsName (s ++ '.' :: name)

theorem isNameSegment_eq_true_iff {s : List Char} : isNameSegment s = true ↔ IsSegment s := by
  cases s with
  | nil =>
      constructor
      · intro h
        cases h
      · intro h
        obtain ⟨first, hfirst, -⟩ := h.start
        cases hfirst
  | cons first rest =>
      have hhead : isNameStart first = true ↔ first.isAlpha ∨ first = '_' ∨ first = '$' := by
        simp only [isNameStart, Bool.or_eq_true, beq_iff_eq, or_assoc]
      have hrest : (rest.all fun d => Text.isWord d || d == '$') = true ↔
          ∀ c ∈ rest, Text.isWord c ∨ c = '$' := by
        simp only [List.all_eq_true, Bool.or_eq_true, beq_iff_eq]
      rw [isNameSegment, Bool.and_eq_true, hhead, hrest]
      constructor
      · rintro ⟨hstart, hwords⟩
        exact ⟨⟨first, rfl, hstart⟩, hwords⟩
      · intro h
        obtain ⟨c, hc, hstart⟩ := h.start
        obtain rfl := Option.some.inj hc
        exact ⟨hstart, h.rest⟩

theorem IsSegment.dot_not_mem {s : List Char} (h : IsSegment s) : '.' ∉ s := by
  intro hdot
  rcases mem_of_isNameSegment (isNameSegment_eq_true_iff.mpr h) '.' hdot with hword | hdollar
  · exact absurd hword (by decide)
  · exact absurd hdollar (by decide)

/-- Segments with dots between them are a name. -/
theorem isName_intercalate {first : List Char} {more : List (List Char)}
    (h : ∀ s ∈ first :: more, IsSegment s) : IsName (['.'].intercalate (first :: more)) := by
  induction more generalizing first with
  | nil => simpa using IsName.segment (h first List.mem_cons_self)
  | cons next more ih =>
      obtain ⟨hfirst, hmore⟩ := List.forall_mem_cons.mp h
      have hjoined : ['.'].intercalate (first :: next :: more) =
          first ++ '.' :: ['.'].intercalate (next :: more) := by simp
      rw [hjoined]
      exact .dot hfirst (ih hmore)

/-- The pieces of a text are segments if and only if the text is a name. -/
theorem isDottedName_iff {s : List Char} : isDottedName s = true ↔ IsName s := by
  rw [isDottedName, List.all_eq_true]
  constructor
  · intro h
    rw [← Text.intercalate_splitOn '.' s]
    cases hpieces : Text.splitOn '.' s with
    | nil => exact absurd hpieces (Text.splitOn_ne_nil '.' s)
    | cons first more =>
        rw [hpieces] at h
        exact isName_intercalate fun piece hpiece => isNameSegment_eq_true_iff.mp (h piece hpiece)
  · intro h
    induction h with
    | segment h =>
        rw [Text.splitOn_of_not_mem h.dot_not_mem]
        exact List.forall_mem_singleton.mpr (isNameSegment_eq_true_iff.mpr h)
    | @dot s name h hname ih =>
        rw [Text.splitOn_append_cons h.dot_not_mem]
        exact List.forall_mem_cons.mpr ⟨isNameSegment_eq_true_iff.mpr h, ih⟩

/-- What is accepted is a name, or one with a line feed after it. -/
theorem isTypeName_iff {s : List Char} :
    isTypeName s = true ↔ ∃ name, IsName name ∧ (s = name ∨ s = name ++ ['\n']) := by
  simp only [isTypeName, Bool.or_eq_true, Bool.and_eq_true, beq_iff_eq, isDottedName_iff]
  constructor
  · rintro (hname | ⟨hlast, hname⟩)
    · exact ⟨s, hname, .inl rfl⟩
    · obtain ⟨body, rfl⟩ := List.getLast?_eq_some_iff.mp hlast
      rw [List.dropLast_concat] at hname
      exact ⟨body, hname, .inr rfl⟩
  · rintro ⟨name, hname, rfl | rfl⟩
    · exact .inl hname
    · exact .inr ⟨List.getLast?_concat, by rwa [List.dropLast_concat]⟩

/-! ## Entries -/

/-- What a declaration says stands in the entries of a mapping, and is of the grammar. -/
structure Declares (entries : List (Value × Value)) (d : Declaration) : Prop where
  name : Value.lookup entries "name" = some (.text d.name)
  isName : IsName d.name.toList
  visibility : (Value.lookup entries "visibility" = none ∧ d.visibility = .everyone) ∨
    (d.visibility ∈ Visibility.levels ∧
      Value.lookup entries "visibility" = some (.text d.visibility.word))
  flag : (Value.lookup entries "normalize_space" = none ∧ d.binding.normalizeSpace = false) ∨
    Value.lookup entries "normalize_space" = some (.flag d.binding.normalizeSpace)

/-- What stands at a key can be shown. -/
def IsShownAt (cs : Containers) (entries : List (Value × Value)) (key : String) : Prop :=
  ∀ v ∈ Value.lookup entries key, (v.described? cs).isSome

instance (cs : Containers) (entries : List (Value × Value)) (key : String) :
    Decidable (IsShownAt cs entries key) :=
  inferInstanceAs (Decidable (∀ v ∈ Value.lookup entries key, (v.described? cs).isSome))

/-- Neither of the two ways in which entries are read otherwise than they are meant. -/
structure ReadsAsMeant (cs : Containers) (entries : List (Value × Value)) : Prop where
  /-- The name is not one with a line feed after it. -/
  line : ∀ name, IsName name →
    Value.lookup entries "name" ≠ some (.text (String.ofList (name ++ ['\n'])))
  /-- No integer in what is shown has too many digits. -/
  shown : ∀ key ∈ ["name", "visibility", "file_extension"], IsShownAt cs entries key

section

variable {cs : Containers} {entries : List (Value × Value)} {name : String} {f : EntryFault}

/-! ### What is accepted -/

theorem entryName_eq_ok_iff : entryName cs entries = .ok name ↔
    Value.lookup entries "name" = some (.text name) ∧ isTypeName name.toList = true := by
  unfold entryName
  cases Value.lookup entries "name" with
  | none => simp
  | some v =>
      cases v with
      | text s =>
          simp only [Option.getD_some, Option.some.injEq, Value.text.injEq]
          split
          · next hs =>
            constructor
            · intro h
              obtain rfl := Except.ok.inj h
              exact ⟨rfl, hs⟩
            · rintro ⟨rfl, -⟩
              rfl
          · next hs =>
            constructor
            · intro h
              cases h
            · rintro ⟨rfl, haccepted⟩
              exact absurd haccepted hs
      | _ => simp

/-- No two levels have the same word. -/
theorem levelOf?_eq_some_iff {v : Value} {level : Visibility} :
    levelOf? v = some level ↔ level ∈ Visibility.levels ∧ v = .text level.word := by
  constructor
  · intro h
    cases v with
    | text s =>
        have hfound : (Visibility.levels.find? fun level => level.word == s) = some level := h
        have hword : level.word = s := by simpa using List.find?_some hfound
        exact ⟨List.mem_of_find?_eq_some hfound, by rw [hword]⟩
    | _ => cases h
  · rintro ⟨hlevel, rfl⟩
    have hwords : ∀ level ∈ Visibility.levels, levelOf? (.text level.word) = some level := by decide
    exact hwords level hlevel

theorem entryVisibility_eq_ok_iff {level : Visibility} : entryVisibility cs name entries = .ok level ↔
    (Value.lookup entries "visibility" = none ∧ level = .everyone) ∨
      (level ∈ Visibility.levels ∧
        Value.lookup entries "visibility" = some (.text level.word)) := by
  unfold entryVisibility
  cases Value.lookup entries "visibility" with
  | none => simp [eq_comm]
  | some v =>
      have hlevel : levelOf? v = some level ↔ _ := levelOf?_eq_some_iff
      simp only [reduceCtorEq, false_and, false_or, Option.some.injEq, ← hlevel]
      cases levelOf? v with
      | none => simp [showing]
      | some found => simp

theorem entryFlag_eq_ok_iff {flag : Bool} : entryFlag name entries = .ok flag ↔
    (Value.lookup entries "normalize_space" = none ∧ flag = false) ∨
      Value.lookup entries "normalize_space" = some (.flag flag) := by
  unfold entryFlag
  cases Value.lookup entries "normalize_space" with
  | none => simp [eq_comm]
  | some v =>
      cases v with
      | flag b => simp
      | _ => simp

/-- An entry makes a declaration if each of its parts does. -/
theorem parseEntry_eq_ok_iff {entry : Value} {d : Declaration} : parseEntry cs entry = .ok d ↔
    ∃ entries, entry.entries? cs = some entries ∧ entryName cs entries = .ok d.name ∧
      entryVisibility cs d.name entries = .ok d.visibility ∧
      entryFlag d.name entries = .ok d.binding.normalizeSpace ∧
      ∃ ext, entryExtension cs entries = .ok ext ∧ d.binding.fileExtension = some ext := by
  constructor
  · intro h
    unfold parseEntry at h
    split at h
    · cases h
    · next entries hentries =>
      split at h
      · cases h
      · next name hname =>
        split at h
        · cases h
        · next level hlevel =>
          split at h
          · cases h
          · next flag hflag =>
            split at h
            · cases h
            · next ext hext =>
              obtain rfl := Except.ok.inj h
              exact ⟨entries, hentries, hname, hlevel, hflag, ext, hext, rfl⟩
  · rintro ⟨entries, hentries, hname, hlevel, hflag, ext, hext, hbinding⟩
    simp only [parseEntry, hentries, hname, hlevel, hflag, hext, ← hbinding]

/-! ### What is said of the others -/

theorem showing_kind {shown : Option String} (h : shown.isSome) {words : String → EntryFault}
    (hwords : ∀ text, (words text).kind = .manifest) : (showing shown words).kind = .manifest := by
  obtain ⟨text, rfl⟩ := Option.isSome_iff_exists.mp h
  exact hwords text

theorem entryName_kind (hshown : IsShownAt cs entries "name")
    (h : entryName cs entries = .error f) : f.kind = .manifest := by
  have hdescribed : (((Value.lookup entries "name").getD .null).described? cs).isSome := by
    cases hlookup : Value.lookup entries "name" with
    | none => rfl
    | some v => exact hshown v hlookup
  unfold entryName at h
  dsimp only at h
  generalize (Value.lookup entries "name").getD .null = v at h hdescribed
  have hkind : (showing (v.described? cs) .name).kind = .manifest :=
    showing_kind hdescribed fun _ => rfl
  split at h
  · split at h
    · cases h
    · exact Except.error.inj h ▸ hkind
  · exact Except.error.inj h ▸ hkind

theorem entryVisibility_kind (hshown : IsShownAt cs entries "visibility")
    (h : entryVisibility cs name entries = .error f) : f.kind = .manifest := by
  unfold entryVisibility at h
  split at h
  · cases h
  · next v hv =>
    split at h
    · cases h
    · have hplain : (v.plain? cs).isSome := Value.isSome_plain? (hshown v hv)
      exact Except.error.inj h ▸ showing_kind hplain fun _ => rfl

theorem entryFlag_kind (h : entryFlag name entries = .error f) : f.kind = .manifest := by
  unfold entryFlag at h
  split at h
  · cases h
  · cases h
  · exact Except.error.inj h ▸ rfl

/-- An extension is refused only if it has no text. -/
theorem exists_entryExtension (hshown : IsShownAt cs entries "file_extension") :
    ∃ ext, entryExtension cs entries = .ok ext := by
  unfold entryExtension
  split
  · exact ⟨_, rfl⟩
  · exact ⟨_, rfl⟩
  · next v _ hv =>
    obtain ⟨text, htext⟩ := Option.isSome_iff_exists.mp (Value.isSome_plain? (hshown v hv))
    exact ⟨text, by rw [htext]⟩

/-- An entry at fault is told so, if all that is said of it can be shown. -/
theorem parseEntry_kind {entry : Value} (hshown : ∀ entries, entry.entries? cs = some entries →
      ∀ key ∈ ["name", "visibility", "file_extension"], IsShownAt cs entries key)
    (h : parseEntry cs entry = .error f) : f.kind = .manifest := by
  unfold parseEntry at h
  split at h
  · exact Except.error.inj h ▸ rfl
  · next entries hentries =>
    have hkeys := hshown entries hentries
    split at h
    · next hname => exact Except.error.inj h ▸ entryName_kind (hkeys _ (by simp)) hname
    · split at h
      · next hlevel => exact Except.error.inj h ▸ entryVisibility_kind (hkeys _ (by simp)) hlevel
      · split at h
        · next hflag => exact Except.error.inj h ▸ entryFlag_kind hflag
        · obtain ⟨ext, hext⟩ := exists_entryExtension (hkeys "file_extension" (by simp))
          rw [hext] at h
          cases h

end

/-! ## The grammar -/

theorem isTypeName_of_isName {name : String} (h : IsName name.toList) : isTypeName name.toList = true :=
  isTypeName_iff.mpr ⟨name.toList, h, .inl rfl⟩

/-- A name that is accepted is of the grammar, unless it has a line feed after it. -/
theorem isName_of_isTypeName {entries : List (Value × Value)} {name : String}
    (hline : ∀ body, IsName body →
      Value.lookup entries "name" ≠ some (.text (String.ofList (body ++ ['\n']))))
    (hlookup : Value.lookup entries "name" = some (.text name))
    (haccepted : isTypeName name.toList = true) : IsName name.toList := by
  obtain ⟨body, hbody, heq | heq⟩ := isTypeName_iff.mp haccepted
  · rwa [heq]
  · have hname : name = String.ofList (body ++ ['\n']) := by rw [← heq, String.ofList_toList]
    exact absurd (hname ▸ hlookup) (hline body hbody)

/-- **An entry is accepted if and only if it is of the grammar.**  What is accepted is a mapping, with the
name, the visibility and the flag that the declaration has; whatever is one is accepted; and of every
other value the user is told that the manifest is at fault. -/
theorem parseEntry_accepts_exactly {cs : Containers} {entry : Value}
    (hmeant : ∀ entries, entry.entries? cs = some entries → ReadsAsMeant cs entries) :
    (∀ d, parseEntry cs entry = .ok d →
      ∃ entries, entry.entries? cs = some entries ∧ Declares entries d) ∧
    (∀ entries d, entry.entries? cs = some entries → Declares entries d →
      ∃ ext, parseEntry cs entry =
        .ok ⟨d.name, d.visibility, ⟨some ext, d.binding.normalizeSpace⟩⟩) ∧
    ∀ f, parseEntry cs entry = .error f → f.kind = .manifest := by
  refine ⟨fun d hd => ?_, fun entries d hentries hdeclares => ?_, fun f hf => ?_⟩
  · obtain ⟨entries, hentries, hname, hlevel, hflag, -⟩ := parseEntry_eq_ok_iff.mp hd
    obtain ⟨hlookup, haccepted⟩ := entryName_eq_ok_iff.mp hname
    refine ⟨entries, hentries, hlookup, ?_, entryVisibility_eq_ok_iff.mp hlevel,
      entryFlag_eq_ok_iff.mp hflag⟩
    exact isName_of_isTypeName (hmeant entries hentries).line hlookup haccepted
  · obtain ⟨ext, hext⟩ :=
      exists_entryExtension ((hmeant entries hentries).shown "file_extension" (by simp))
    refine ⟨ext, parseEntry_eq_ok_iff.mpr ⟨entries, hentries, ?_, ?_, ?_, ext, hext, rfl⟩⟩
    · exact entryName_eq_ok_iff.mpr ⟨hdeclares.name, isTypeName_of_isName hdeclares.isName⟩
    · exact entryVisibility_eq_ok_iff.mpr hdeclares.visibility
    · exact entryFlag_eq_ok_iff.mpr hdeclares.flag
  · exact parseEntry_kind (fun entries hentries => (hmeant entries hentries).shown) hf

/-- A mapping with an extension that is an integer, and with something that nothing asks for. -/
theorem parseEntry_accepts_exactly_protected :
    let entries : List (Value × Value) := [(.text "name", .text "com.acme._Größe$1"),
      (.text "visibility", .text "protected"), (.text "file_extension", .whole 7),
      (.text "normalize_space", .flag true), (.text "since", .whole (10 ^ 4300))]
    let entry : Value := .container 0
    (∀ es, entry.entries? #[.mapping entries] = some es → ReadsAsMeant #[.mapping entries] es) ∧
      (∃ es, entry.entries? #[.mapping entries] = some es ∧
        Declares es ⟨"com.acme._Größe$1", .subtypes, ⟨some "7", true⟩⟩) ∧
      ∀ f, parseEntry #[.mapping entries] entry = .error f → f.kind = .manifest := by
  intro entries entry
  have hmeant (es : List (Value × Value)) (hes : entry.entries? #[.mapping entries] = some es) :
      ReadsAsMeant #[.mapping entries] es := by
    obtain rfl := Option.some.inj hes
    refine ⟨fun name _ hlookup => ?_, by decide +kernel⟩
    have hname : Value.lookup entries "name" = some (.text "com.acme._Größe$1") := by decide +kernel
    have hsame : "com.acme._Größe$1" = String.ofList (name ++ ['\n']) := by
      simpa using hname.symm.trans hlookup
    have hlast : "com.acme._Größe$1".toList.getLast? = some '\n' := by
      rw [hsame, String.toList_ofList, List.getLast?_concat]
    exact absurd hlast (by decide +kernel)
  obtain ⟨hsound, -, hkind⟩ := parseEntry_accepts_exactly hmeant
  exact ⟨hmeant, hsound _ (by decide +kernel), hkind⟩

/-- A name with a line feed after it is accepted, and where an integer with too many digits stands for
one, what is wrong cannot be said. -/
theorem line_feed_is_accepted :
    let cs : Containers := #[.mapping [(.text "name", .text "com.acme.Greeting\n")],
      .mapping [(.text "name", .whole (10 ^ 4300))]]
    parseEntry cs (.container 0) = .ok { name := "com.acme.Greeting\n" } ∧
      (¬∃ entries d, Value.entries? cs (.container 0) = some entries ∧ Declares entries d) ∧
      parseEntry cs (.container 1) = .error .unwritable ∧
      EntryFault.unwritable.kind ≠ .manifest := by
  intro cs
  refine ⟨by decide +kernel, ?_, by decide +kernel, by decide⟩
  rintro ⟨entries, d, hentries, hdeclares⟩
  obtain rfl := Option.some.inj hentries
  have hlookup : Value.lookup [(.text "name", .text "com.acme.Greeting\n")] "name" =
      some (.text "com.acme.Greeting\n") := by decide
  have hname : "com.acme.Greeting\n" = d.name := by
    simpa using hlookup.symm.trans hdeclares.name
  have hdotted : isDottedName "com.acme.Greeting\n".toList = true :=
    isDottedName_iff.mpr (hname ▸ hdeclares.isName)
  exact absurd hdotted (by decide +kernel)

end TextProviders
