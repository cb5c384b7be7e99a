import Mathlib.Data.List.TakeWhile
import TextProviders.Generation.Run
import TextProviders.Proofs.Source.Members

/-!
# The extension that a text declares

An extension is declared with blanks around it and with a dot before it, or without, and all these texts
are to mean the same: the extension in its canonical form (`IsCanonical`), which can be put after a name and
a dot as it is.

A declared text is trimmed, and then one dot is dropped from its front.  So it is enough to know what the
text starts with behind its blanks (`Opening`): nothing at all, a dot, or another character.  Only behind a
dot something can be left that should have been dropped too, another dot or more blanks (`HasMoreToDrop`),
for nothing is trimmed after the dot is gone.

This is the one thing that goes wrong.  Blanks around a text never make a difference, and each of the other
laws holds for a declared text exactly if it has not more to drop: what it means is canonical, and means
itself; a dot before it changes nothing; and if it is made of blanks and dots it means no extension
(`extension_is_canonical_iff`).
-/

namespace TextProviders

open Source (AreBlank)
open Text (isBlank trim trimStart trimEnd)

/-! ## Trimming -/

namespace Text

variable {before s t : List Char} {c : Char}

theorem areBlank_nil : AreBlank [] :=
  fun _ h => absurd h List.not_mem_nil

theorem trimEnd_eq_nil_iff : trimEnd s = [] ↔ AreBlank s := by
  rw [trimEnd, List.reverse_eq_nil_iff, List.dropWhile_eq_nil_iff]
  exact ⟨fun h c hc => h c (List.mem_reverse.mpr hc), fun h c hc => h c (List.mem_reverse.mp hc)⟩

theorem not_isBlank_of_getLast?_trimEnd : ∀ c ∈ (trimEnd s).getLast?, isBlank c = false := by
  intro c hc
  rw [trimEnd, List.getLast?_reverse] at hc
  have hhead := List.head?_dropWhile_not isBlank s.reverse
  rw [Option.mem_def.mp hc] at hhead
  exact hhead

/-- Blanks behind a text make no difference to it. -/
theorem trimEnd_append_of_areBlank (ht : AreBlank t) : trimEnd (s ++ t) = trimEnd s := by
  obtain ⟨blanks, hblanks, hs⟩ := Source.exists_trimEnd s
  calc trimEnd (s ++ t)
      = trimEnd (trimEnd s ++ (blanks ++ t)) := by rw [← List.append_assoc, ← hs]
    _ = trimEnd s := Source.trimEnd_append (hblanks.append ht) not_isBlank_of_getLast?_trimEnd

theorem trimEnd_cons (hc : isBlank c = false) (s : List Char) : trimEnd (c :: s) = c :: trimEnd s := by
  obtain ⟨blanks, hblanks, hs⟩ := Source.exists_trimEnd s
  have hlast : ∀ d ∈ (c :: trimEnd s).getLast?, isBlank d = false := by
    intro d hd
    rw [List.getLast?_cons] at hd
    obtain rfl := Option.some.inj hd
    cases h : (trimEnd s).getLast? with
    | none => exact hc
    | some d => exact not_isBlank_of_getLast?_trimEnd d h
  calc trimEnd (c :: s)
      = trimEnd (c :: trimEnd s ++ blanks) := by rw [List.cons_append, ← hs]
    _ = c :: trimEnd s := Source.trimEnd_append hblanks hlast

theorem head?_trimEnd (hs : ¬AreBlank s) : (trimEnd s).head? = s.head? := by
  obtain ⟨blanks, -, hparts⟩ := Source.exists_trimEnd s
  have hne : trimEnd s ≠ [] := fun h => hs (trimEnd_eq_nil_iff.mp h)
  conv_rhs => rw [hparts]
  exact (List.head?_append_of_ne_nil _ hne).symm

theorem length_trimEnd_le (s : List Char) : (trimEnd s).length ≤ s.length := by
  rw [trimEnd, List.length_reverse]
  exact (List.dropWhile_sublist isBlank).length_le.trans List.length_reverse.le

theorem trimStart_of_areBlank (hs : AreBlank s) : trimStart s = [] :=
  List.dropWhile_eq_nil_iff.mpr hs

theorem trim_of_areBlank (hs : AreBlank s) : trim s = [] := by
  rw [trim, trimStart_of_areBlank hs]
  rfl

theorem trimStart_append_cons (hbefore : AreBlank before) (hc : isBlank c = false) (t : List Char) :
    trimStart (before ++ c :: t) = c :: t :=
  Source.trimStart_append hbefore (by simpa using hc)

theorem trim_append_cons (hbefore : AreBlank before) (hc : isBlank c = false) (t : List Char) :
    trim (before ++ c :: t) = c :: trimEnd t := by
  rw [trim, trimStart_append_cons hbefore hc]
  exact trimEnd_cons hc t

end Text

/-! ## How a declared text starts -/

/-- How a declared text starts behind its blanks. -/
inductive Opening : List Char → Prop
  | nothing {s : List Char} (hs : AreBlank s) : Opening s
  | dot {before rest : List Char} (hbefore : AreBlank before) : Opening (before ++ '.' :: rest)
  | plain {before rest : List Char} {c : Char} (hbefore : AreBlank before) (hc : isBlank c = false)
      (hdot : c ≠ '.') : Opening (before ++ c :: rest)

/-- Behind the dot at the front there is more to drop: another dot, or blanks with something behind
them. -/
inductive HasMoreToDrop : List Char → Prop
  | mk {before rest : List Char} {c : Char} (hbefore : AreBlank before) (hc : c ∈ rest.head?)
      (hdrop : isBlank c = true ∨ c = '.') (hrest : ¬AreBlank rest) :
      HasMoreToDrop (before ++ '.' :: rest)

section

variable {before after rest s : List Char} {c : Char}

theorem opening (s : List Char) : Opening s := by
  obtain ⟨before, hbefore, hs⟩ := Source.exists_trimStart s
  have hhead := List.head?_dropWhile_not isBlank s
  rw [← trimStart] at hhead
  rw [hs]
  cases h : trimStart s with
  | nil => exact .nothing (by simpa using hbefore)
  | cons c rest =>
      rw [h] at hhead
      by_cases hdot : c = '.'
      · subst hdot
        exact .dot hbefore
      · exact .plain hbefore hhead hdot

theorem hasMoreToDrop_dot_iff (hbefore : AreBlank before) (rest : List Char) :
    HasMoreToDrop (before ++ '.' :: rest) ↔
      ¬AreBlank rest ∧ ∃ c ∈ rest.head?, isBlank c = true ∨ c = '.' := by
  constructor
  · intro h
    generalize hs : before ++ '.' :: rest = s at h
    cases h with
    | mk hbefore' hc hdrop hrest =>
        have hstart := congrArg trimStart hs
        rw [Text.trimStart_append_cons hbefore rfl, Text.trimStart_append_cons hbefore' rfl] at hstart
        obtain rfl := List.tail_eq_of_cons_eq hstart
        exact ⟨hrest, _, hc, hdrop⟩
  · rintro ⟨hrest, c, hc, hdrop⟩
    exact .mk hbefore hc hdrop hrest

theorem HasMoreToDrop.head?_trimStart (h : HasMoreToDrop s) : (trimStart s).head? = some '.' := by
  cases h with
  | mk hbefore => rw [Text.trimStart_append_cons hbefore rfl, List.head?_cons]

theorem not_hasMoreToDrop_of_areBlank (hs : AreBlank s) : ¬HasMoreToDrop s := by
  intro h
  have hdot := h.head?_trimStart
  rw [Text.trimStart_of_areBlank hs] at hdot
  cases hdot

theorem not_hasMoreToDrop_plain (hbefore : AreBlank before) (hc : isBlank c = false) (hdot : c ≠ '.') :
    ¬HasMoreToDrop (before ++ c :: rest) := by
  intro h
  have hhead := h.head?_trimStart
  rw [Text.trimStart_append_cons hbefore hc, List.head?_cons] at hhead
  exact hdot (Option.some.inj hhead)

/-! ## What a declared text means -/

theorem extensionChars_of_areBlank (hs : AreBlank s) : extensionChars s = [] := by
  rw [extensionChars, Text.trim_of_areBlank hs]

theorem extensionChars_dot (hbefore : AreBlank before) :
    extensionChars (before ++ '.' :: rest) = trimEnd rest := by
  unfold extensionChars
  rw [Text.trim_append_cons hbefore rfl]
  rfl

theorem extensionChars_plain (hbefore : AreBlank before) (hc : isBlank c = false) (hdot : c ≠ '.') :
    extensionChars (before ++ c :: rest) = c :: trimEnd rest := by
  rw [extensionChars, Text.trim_append_cons hbefore hc]
  split
  · next h => exact absurd (List.head_eq_of_cons_eq h) hdot
  · rfl

/-- **Blanks around a text make no difference.** -/
theorem extensionChars_append (hbefore : AreBlank before) (hafter : AreBlank after) (s : List Char) :
    extensionChars (before ++ s ++ after) = extensionChars s := by
  cases opening s with
  | nothing hs =>
      rw [extensionChars_of_areBlank hs, extensionChars_of_areBlank ((hbefore.append hs).append hafter)]
  | dot hs =>
      rw [extensionChars_dot hs, ← List.append_assoc, List.append_assoc, List.cons_append,
        extensionChars_dot (hbefore.append hs), Text.trimEnd_append_of_areBlank hafter]
  | plain hs hc hdot =>
      rw [extensionChars_plain hs hc hdot, ← List.append_assoc, List.append_assoc, List.cons_append,
        extensionChars_plain (hbefore.append hs) hc hdot, Text.trimEnd_append_of_areBlank hafter]

/-- Nothing is left of blanks, and of a dot among blanks. -/
theorem extensionChars_eq_nil_iff :
    extensionChars s = [] ↔ (∀ c ∈ s, isBlank c = true ∨ c = '.') ∧ ¬HasMoreToDrop s := by
  cases opening s with
  | nothing hs =>
      rw [extensionChars_of_areBlank hs]
      exact ⟨fun _ => ⟨fun c hc => .inl (hs c hc), not_hasMoreToDrop_of_areBlank hs⟩, fun _ => rfl⟩
  | @dot before rest hbefore =>
      rw [extensionChars_dot hbefore, Text.trimEnd_eq_nil_iff, hasMoreToDrop_dot_iff hbefore rest]
      constructor
      · intro hrest
        refine ⟨fun c hc => ?_, fun h => h.1 hrest⟩
        rcases List.mem_append.mp hc with hc | hc
        · exact .inl (hbefore c hc)
        · exact (List.mem_cons.mp hc).elim .inr fun hc => .inl (hrest c hc)
      · rintro ⟨hall, hmore⟩
        by_contra hrest
        refine hmore ⟨hrest, ?_⟩
        cases rest with
        | nil => exact absurd Text.areBlank_nil hrest
        | cons c rest => exact ⟨c, rfl, hall c (by simp)⟩
  | @plain before rest c hbefore hc hdot =>
      rw [extensionChars_plain hbefore hc hdot]
      refine ⟨fun h => absurd h (List.cons_ne_nil _ _), fun h => ?_⟩
      rcases h.1 c (by simp) with hblank | heq
      · exact absurd (hc.symm.trans hblank) Bool.false_ne_true
      · exact absurd heq hdot

end

/-! ## Canonical extensions -/

/-- An extension in its canonical form: it starts with a character that is neither a blank nor a dot, and
does not end with a blank. -/
structure IsCanonical (ext : List Char) : Prop where
  start : ∃ c ∈ ext.head?, isBlank c = false ∧ c ≠ '.'
  finish : ∀ c ∈ ext.getLast?, isBlank c = false

/-- The texts that are to mean an extension: it may have blanks around it, and a dot before it. -/
inductive IsDeclaredAs (ext : List Char) : List Char → Prop
  | plain {before after : List Char} (hbefore : AreBlank before) (hafter : AreBlank after) :
      IsDeclaredAs ext (before ++ ext ++ after)
  | dotted {before after : List Char} (hbefore : AreBlank before) (hafter : AreBlank after) :
      IsDeclaredAs ext (before ++ '.' :: ext ++ after)

section

variable {ext s : List Char}

theorem not_isCanonical_nil : ¬IsCanonical [] := by
  rintro ⟨⟨c, hc, -⟩, -⟩
  cases hc

/-- **What a text means is canonical** exactly if the text has not more to drop. -/
theorem isCanonical_extensionChars_iff (hne : extensionChars s ≠ []) :
    IsCanonical (extensionChars s) ↔ ¬HasMoreToDrop s := by
  cases opening s with
  | nothing hs => exact absurd (extensionChars_of_areBlank hs) hne
  | @dot before rest hbefore =>
      rw [extensionChars_dot hbefore] at hne ⊢
      have hrest : ¬AreBlank rest := fun h => hne (Text.trimEnd_eq_nil_iff.mpr h)
      have hhead := Text.head?_trimEnd hrest
      rw [hasMoreToDrop_dot_iff hbefore rest]
      constructor
      · rintro ⟨⟨c, hc, hblank, hdot⟩, -⟩ ⟨-, d, hd, hdrop⟩
        obtain rfl : c = d := Option.some.inj (hc.symm.trans (hhead.trans hd))
        exact hdrop.elim (fun h => Bool.false_ne_true (hblank.symm.trans h)) hdot
      · intro hmore
        obtain ⟨c, hc⟩ := Option.ne_none_iff_exists'.mp (mt List.head?_eq_none_iff.mp hne)
        have hkept : ¬(isBlank c = true ∨ c = '.') := fun h => hmore ⟨hrest, c, hhead ▸ hc, h⟩
        rw [not_or, Bool.not_eq_true] at hkept
        exact ⟨⟨c, hc, hkept⟩, Text.not_isBlank_of_getLast?_trimEnd⟩
  | @plain before rest c hbefore hc hdot =>
      rw [extensionChars_plain hbefore hc hdot, ← Text.trimEnd_cons hc]
      refine ⟨fun _ => not_hasMoreToDrop_plain hbefore hc hdot, fun _ => ⟨⟨c, ?_, hc, hdot⟩, ?_⟩⟩
      · rw [Text.trimEnd_cons hc]
        rfl
      · exact Text.not_isBlank_of_getLast?_trimEnd

/-- **A text means itself** exactly if it is canonical. -/
theorem extensionChars_eq_self_iff (hne : s ≠ []) : extensionChars s = s ↔ IsCanonical s := by
  constructor
  · intro hself
    have hcanonical := isCanonical_extensionChars_iff (s := s) (hself.symm ▸ hne)
    rw [hself] at hcanonical
    refine hcanonical.mpr fun hmore => ?_
    -- The dot is gone, so the text is shorter than before.
    cases hmore with
    | @mk before rest c hbefore =>
        rw [extensionChars_dot hbefore] at hself
        have hlength := congrArg List.length hself
        rw [List.length_append, List.length_cons] at hlength
        have hle := Text.length_trimEnd_le rest
        omega
  · rintro ⟨⟨c, hc, hblank, hdot⟩, hfinish⟩
    obtain ⟨rest, rfl⟩ := List.head?_eq_some_iff.mp hc
    calc extensionChars (c :: rest)
        = c :: trimEnd rest := extensionChars_plain Text.areBlank_nil hblank hdot
      _ = trimEnd (c :: rest ++ []) := by
          rw [List.append_nil]
          exact (Text.trimEnd_cons hblank rest).symm
      _ = c :: rest := Source.trimEnd_append Text.areBlank_nil hfinish

/-- **A canonical extension is what a text means** exactly if the text declares it. -/
theorem extensionChars_eq_iff (hext : IsCanonical ext) :
    extensionChars s = ext ↔ IsDeclaredAs ext s := by
  constructor
  · rintro rfl
    cases opening s with
    | nothing hs => exact absurd (extensionChars_of_areBlank hs ▸ hext) not_isCanonical_nil
    | @dot before rest hbefore =>
        rw [extensionChars_dot hbefore]
        obtain ⟨after, hafter, hrest⟩ := Source.exists_trimEnd rest
        have hparts : before ++ '.' :: rest = before ++ '.' :: trimEnd rest ++ after := by
          rw [List.append_assoc, List.cons_append, ← hrest]
        exact hparts ▸ .dotted hbefore hafter
    | @plain before rest c hbefore hc hdot =>
        rw [extensionChars_plain hbefore hc hdot]
        obtain ⟨after, hafter, hrest⟩ := Source.exists_trimEnd rest
        have hparts : before ++ c :: rest = before ++ (c :: trimEnd rest) ++ after := by
          rw [List.append_assoc, List.cons_append, ← hrest]
        exact hparts ▸ .plain hbefore hafter
  · intro h
    have hne : ext ≠ [] := fun h => not_isCanonical_nil (h ▸ hext)
    cases h with
    | plain hbefore hafter =>
        rw [extensionChars_append hbefore hafter]
        exact (extensionChars_eq_self_iff hne).mpr hext
    | dotted hbefore hafter =>
        rw [List.append_assoc, List.cons_append, extensionChars_dot hbefore]
        exact Source.trimEnd_append hafter hext.finish

/-- **A dot before a text changes nothing** exactly if there is not more to drop behind it. -/
theorem extensionChars_cons_dot_iff :
    extensionChars ('.' :: s) = extensionChars s ↔ ¬HasMoreToDrop ('.' :: s) := by
  have hdot : extensionChars ('.' :: s) = trimEnd s :=
    extensionChars_dot Text.areBlank_nil
  by_cases hs : AreBlank s
  · have hmore : ¬HasMoreToDrop ('.' :: s) := fun h =>
      ((hasMoreToDrop_dot_iff Text.areBlank_nil s).mp h).1 hs
    rw [hdot, Text.trimEnd_eq_nil_iff.mpr hs, extensionChars_of_areBlank hs]
    exact iff_of_true rfl hmore
  · have hne : trimEnd s ≠ [] := fun h => hs (Text.trimEnd_eq_nil_iff.mp h)
    obtain ⟨after, hafter, hparts⟩ := Source.exists_trimEnd s
    have hsame : extensionChars s = extensionChars (trimEnd s) := by
      conv_lhs => rw [hparts]
      exact extensionChars_append Text.areBlank_nil hafter (trimEnd s)
    calc extensionChars ('.' :: s) = extensionChars s
      _ ↔ extensionChars (trimEnd s) = trimEnd s := by rw [hdot, hsame, eq_comm]
      _ ↔ IsCanonical (trimEnd s) := extensionChars_eq_self_iff hne
      _ ↔ ¬HasMoreToDrop ('.' :: s) := by
          rw [← hdot] at hne ⊢
          exact isCanonical_extensionChars_iff hne

end

/-! ## The extension of a binding -/

/-- A binding with another text for its extension. -/
def Binding.declaring (b : Binding) (text : String) : Binding :=
  { b with fileExtension := some text }

section

variable {b : Binding} {d : Declaration} {ext text other : String}

theorem Binding.extension?_declaring_eq_none_iff :
    (b.declaring text).extension? = none ↔ extensionChars text.toList = [] := by
  simp [extension?, declaring]

theorem Binding.extension?_declaring_eq_some_iff :
    (b.declaring text).extension? = some ext ↔
      extensionChars text.toList = ext.toList ∧ ext.toList ≠ [] := by
  unfold extension? declaring
  simp only [Option.getD_some, List.isEmpty_iff, Option.ite_none_left_eq_some, Option.some.injEq]
  constructor
  · rintro ⟨hne, rfl⟩
    rw [String.toList_ofList]
    exact ⟨rfl, hne⟩
  · rintro ⟨heq, hne⟩
    rw [heq, String.ofList_toList]
    exact ⟨hne, rfl⟩

theorem Binding.extension?_declaring_eq_iff :
    (b.declaring text).extension? = (b.declaring other).extension? ↔
      extensionChars text.toList = extensionChars other.toList := by
  cases h : (b.declaring other).extension? with
  | none => rw [extension?_declaring_eq_none_iff, extension?_declaring_eq_none_iff.mp h]
  | some ext =>
      obtain ⟨heq, hne⟩ := extension?_declaring_eq_some_iff.mp h
      rw [extension?_declaring_eq_some_iff, heq, and_iff_left hne]

theorem Declaration.validate_of_extension?_eq_none (h : d.binding.extension? = none) :
    d.validate = .error .emptyExtension := by
  unfold validate
  rw [h]

end

/-- **A declared text means a canonical extension, except for what it has behind a first dot.**  Blanks
around a text make no difference.  A dot before it makes none exactly if there is not more to drop behind
this dot.  An extension that a text means is canonical, and means itself, exactly if the text has not more
to drop; and those that are canonical are meant by all texts that declare them.  No extension is meant by
texts of blanks and dots, again if they have not more to drop, and then the declaration is refused as
wrongly configured. -/
theorem extension_is_canonical_iff (b : Binding) (text : String) :
    (∀ before after : String, AreBlank before.toList → AreBlank after.toList →
      (b.declaring (before ++ text ++ after)).extension? = (b.declaring text).extension?) ∧
    ((b.declaring ("." ++ text)).extension? = (b.declaring text).extension? ↔
      ¬HasMoreToDrop ("." ++ text).toList) ∧
    (∀ ext, (b.declaring text).extension? = some ext →
      (IsCanonical ext.toList ↔ ¬HasMoreToDrop text.toList) ∧
      ((b.declaring ext).extension? = some ext ↔ ¬HasMoreToDrop text.toList)) ∧
    (∀ ext : String, IsCanonical ext.toList →
      ((b.declaring text).extension? = some ext ↔ IsDeclaredAs ext.toList text.toList)) ∧
    ((b.declaring text).extension? = none ↔
      (∀ c ∈ text.toList, isBlank c = true ∨ c = '.') ∧ ¬HasMoreToDrop text.toList) ∧
    ∀ d : Declaration, d.binding = b.declaring text → (b.declaring text).extension? = none →
      d.validate = .error .emptyExtension ∧
        GenerationFailure.emptyExtension.kind = .configuration := by
  refine ⟨fun before after hbefore hafter => ?_, ?_, fun ext hext => ?_, fun ext hext => ?_, ?_,
    fun d hbinding hnone => ?_⟩
  · rw [Binding.extension?_declaring_eq_iff, String.toList_append, String.toList_append]
    exact extensionChars_append hbefore hafter text.toList
  · rw [Binding.extension?_declaring_eq_iff, String.toList_append]
    exact extensionChars_cons_dot_iff
  · obtain ⟨heq, hne⟩ := Binding.extension?_declaring_eq_some_iff.mp hext
    have hcanonical : IsCanonical ext.toList ↔ ¬HasMoreToDrop text.toList := by
      rw [← heq] at hne ⊢
      exact isCanonical_extensionChars_iff hne
    refine ⟨hcanonical, ?_⟩
    rw [Binding.extension?_declaring_eq_some_iff, and_iff_left hne, extensionChars_eq_self_iff hne]
    exact hcanonical
  · have hne : ext.toList ≠ [] := fun h => not_isCanonical_nil (h ▸ hext)
    rw [Binding.extension?_declaring_eq_some_iff, and_iff_left hne]
    exact extensionChars_eq_iff hext
  · rw [Binding.extension?_declaring_eq_none_iff]
    exact extensionChars_eq_nil_iff
  · exact ⟨Declaration.validate_of_extension?_eq_none (hbinding ▸ hnone), rfl⟩

/-- A text with a blank behind its extension, more blanks around it or a dot before it, and one with
nothing but a dot among blanks. -/
theorem extension_is_canonical_iff_markdown :
    let b : Binding := {}
    let d : Declaration := { name := "com.acme.Legal", binding := b.declaring "\t. " }
    AreBlank "\t".toList ∧ AreBlank "\u2003".toList ∧
      (b.declaring ("\t" ++ "md " ++ "\u2003")).extension? = (b.declaring "md ").extension? ∧
      ¬HasMoreToDrop ("." ++ "md ").toList ∧
      (b.declaring ("." ++ "md ")).extension? = (b.declaring "md ").extension? ∧
      ¬HasMoreToDrop "md ".toList ∧ (b.declaring "md ").extension? = some "md" ∧
      IsCanonical "md".toList ∧ (b.declaring "md").extension? = some "md" ∧
      IsDeclaredAs "md".toList "md ".toList ∧
      (b.declaring "\t. ").extension? = none ∧ d.validate = .error .emptyExtension := by
  intro b d
  have hblank : AreBlank "\t".toList := Source.all_isBlank_iff.mp (by decide +kernel)
  have hspace : AreBlank "\u2003".toList := Source.all_isBlank_iff.mp (by decide +kernel)
  have hmd : ¬HasMoreToDrop "md ".toList :=
    not_hasMoreToDrop_plain Text.areBlank_nil (by decide) (by decide)
  have hdotted : ¬HasMoreToDrop ("." ++ "md ").toList := by
    intro h
    obtain ⟨-, c, hc, hdrop⟩ := (hasMoreToDrop_dot_iff Text.areBlank_nil "md ".toList).mp h
    obtain rfl : 'm' = c := Option.some.inj hc
    revert hdrop
    decide
  have hext : (b.declaring "md ").extension? = some "md" := by decide +kernel
  have hnone : (b.declaring "\t. ").extension? = none := by decide +kernel
  obtain ⟨haround, hdot, hmeant, hdeclared, -, -⟩ := extension_is_canonical_iff b "md "
  obtain ⟨-, -, -, -, -, hrefused⟩ := extension_is_canonical_iff b "\t. "
  have hcanonical : IsCanonical "md".toList := (hmeant "md" hext).1.mpr hmd
  exact ⟨hblank, hspace, haround _ _ hblank hspace, hdotted, hdot.mpr hdotted, hmd, hext, hcanonical,
    (hmeant "md" hext).2.mpr hmd, (hdeclared "md" hcanonical).mp hext, hnone, (hrefused d rfl hnone).1⟩

/-- A second dot is kept, and so are blanks behind the first: what is meant then is not canonical, a dot
more makes a difference, and a text of two dots means an extension. -/
theorem second_dot_is_kept :
    let b : Binding := {}
    (b.declaring "..txt").extension? = some ".txt" ∧ (b.declaring ".txt").extension? = some "txt" ∧
      ¬IsCanonical ".txt".toList ∧
      (b.declaring ". txt").extension? = some " txt" ∧ (b.declaring " txt").extension? = some "txt" ∧
      ¬IsCanonical " txt".toList ∧
      (b.declaring "..").extension? = some "." := by
  intro b
  refine ⟨by decide +kernel, by decide +kernel, ?_, by decide +kernel, by decide +kernel, ?_,
    by decide +kernel⟩
  · rintro ⟨⟨c, hc, -, hdot⟩, -⟩
    exact hdot (Option.some.inj hc).symm
  · rintro ⟨⟨c, hc, hblank, -⟩, -⟩
    obtain rfl : ' ' = c := Option.some.inj hc
    exact absurd hblank (by decide)

end TextProviders
