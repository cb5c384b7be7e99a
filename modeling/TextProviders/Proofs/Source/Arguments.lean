import TextProviders.Proofs.Source.Composition
import TextProviders.Proofs.Source.Members

/-!
# What stands in the arguments of a marker does not disturb the scan

The arguments of a marker are found in the masked view and read in the code.  White space and complete
comments may stand between their tokens (`Spacing`, `AreSpaced`).  In the masked view such a list has
neither brackets nor at signs in it, whatever its literals and comments hold (`AreSpaced.isBare`), so it is
found as it stands and nothing in it is taken for a marker.  In the code its comments are blanks and its
literals are whole, so it lists its members as they are written (`AreSpaced.areWritten`).

A type at the top level that carries the marker with such a list (`MarkedType.Carries`) is therefore the
only one that is reported, with the binding that the members make
(`declarations_of_carries`).  The main statement, `arguments_survive_the_scan`, is the case of an extension
and a flag, in either order.
-/

namespace TextProviders.Source

/-! ## The code view -/

/-- Some lexemes as they stand in the code. -/
def codeOf (ls : List Lexeme) : List Char :=
  (cellsOf ls).map Cell.code

theorem codeOf_append (ls ms : List Lexeme) : codeOf (ls ++ ms) = codeOf ls ++ codeOf ms := by
  rw [codeOf, cellsOf_append, List.map_append, codeOf, codeOf]

theorem codeOf_code (c : Char) (ls : List Lexeme) : codeOf (.code c :: ls) = c :: codeOf ls := rfl

theorem codeOf_map_code (s : List Char) : codeOf (s.map .code) = s := by
  induction s with
  | nil => rfl
  | cons c s ih => exact congrArg (c :: ·) ih

theorem codeOf_literal (quote body : List Char) :
    codeOf [.literal quote body] = quote ++ body ++ quote := by
  rw [codeOf, cellsOf, List.flatMap_singleton, Lexeme.map_code_cells]
  rfl

/-! ## Text without brackets and at signs -/

/-- Text that has neither brackets nor at signs in it. -/
def IsBare (s : List Char) : Prop :=
  ∀ c ∈ s, c ∉ ['(', ')', '{', '}', '@']

section

variable {s t : List Char}

theorem IsBare.append (hs : IsBare s) (ht : IsBare t) : IsBare (s ++ t) :=
  List.forall_mem_append.mpr ⟨hs, ht⟩

theorem isBare_of_isBlank (h : ∀ c ∈ s, Text.isBlank c = true) : IsBare s := by
  have hall : ∀ d ∈ ['(', ')', '{', '}', '@'], Text.isBlank d = false := by decide
  intro c hc hmem
  exact Bool.false_ne_true ((hall c hmem).symm.trans (h c hc))

theorem isBare_of_isNameChar (h : ∀ c ∈ s, isNameChar c = true) : IsBare s := by
  have hall : ∀ d ∈ ['(', ')', '{', '}', '@'], isNameChar d = false := by decide
  intro c hc hmem
  exact Bool.false_ne_true ((hall c hmem).symm.trans (h c hc))

theorem IsGap.isBare {gap : List Lexeme} (h : IsGap gap) : IsBare (maskedOf gap) :=
  isBare_of_isBlank h.isBlank_masked

theorem IsBare.balanced (hs : IsBare s) {opening closing : Char}
    (hopening : opening ∈ ['(', ')', '{', '}', '@']) (hclosing : closing ∈ ['(', ')', '{', '}', '@']) :
    Balanced opening closing s :=
  balanced_of_forall fun c hc => ⟨fun heq => hs c hc (heq ▸ hopening), fun heq => hs c hc (heq ▸ hclosing)⟩

end

theorem IsNested.append {ls ms : List Lexeme} (hls : IsNested ls) (hms : IsNested ms) :
    IsNested (ls ++ ms) := by
  refine ⟨?_, ?_⟩
  · rw [maskedOf_append]
    exact hls.parentheses.append hms.parentheses
  · rw [maskedOf_append]
    exact hls.braces.append hms.braces

theorem IsBare.isNested {ls : List Lexeme} (h : IsBare (maskedOf ls)) : IsNested ls :=
  ⟨h.balanced (by decide) (by decide), h.balanced (by decide) (by decide)⟩

/-- A list in parentheses without brackets in it. -/
theorem isNested_parenthesized {ls : List Lexeme} (h : IsBare (maskedOf ls)) :
    IsNested (.code '(' :: (ls ++ [.code ')'])) := by
  have hinside (n : Nat) : depthAfter? '(' ')' n (maskedOf ls) = some n := by
    generalize maskedOf ls = s at h
    induction s with
    | nil => rfl
    | cons c s ih =>
        have hc := h c List.mem_cons_self
        have hopening : c ≠ '(' := fun heq => hc (by rw [heq]; decide)
        have hclosing : c ≠ ')' := fun heq => hc (by rw [heq]; decide)
        rw [depthAfter?, if_neg hopening, if_neg hclosing]
        exact ih fun d hd => h d (List.mem_cons_of_mem _ hd)
  refine ⟨?_, ?_⟩
  · rw [maskedOf_code, maskedOf_append, Balanced, depthAfter?, if_pos rfl, depthAfter?_append, hinside]
    rfl
  · rw [maskedOf_code, maskedOf_append, ← List.singleton_append]
    have hopening : Balanced '{' '}' ['('] := by decide
    have hclosing : Balanced '{' '}' (maskedOf [.code ')']) := by decide
    exact hopening.append ((h.balanced (by decide) (by decide)).append hclosing)

/-! ## Between two tokens -/

/-- White space and complete comments. -/
inductive Spacing : List Lexeme → Prop
  | nil : Spacing []
  | blank {c : Char} {rest : List Lexeme} :
      Text.isBlank c = true → Spacing rest → Spacing (.code c :: rest)
  | block {body : List Char} {rest : List Lexeme} :
      ¬['*', '/'] <:+: body → Spacing rest →
        Spacing (.comment ('/' :: '*' :: body ++ ['*', '/']) :: rest)
  | line {body : List Char} {rest : List Lexeme} :
      '\n' ∉ body → Spacing rest → Spacing (.comment ('/' :: '/' :: body) :: .code '\n' :: rest)

/-- Lexemes that start with no quote. -/
def StartsUnquoted (ls : List Lexeme) : Prop :=
  ∀ l ∈ ls.head?, l.source.head? ≠ some '"'

namespace Spacing

variable {gap : List Lexeme}

theorem isGap (h : Spacing gap) : IsGap gap := by
  induction h with
  | nil => exact fun _ hl => (by cases hl)
  | blank hblank _ ih => exact List.forall_mem_cons.mpr ⟨hblank, ih⟩
  | block _ _ ih => exact List.forall_mem_cons.mpr ⟨trivial, ih⟩
  | line _ _ ih =>
      have hline : (Lexeme.code '\n').IsGap := by decide
      exact List.forall_mem_cons.mpr ⟨trivial, List.forall_mem_cons.mpr ⟨hline, ih⟩⟩

/-- A comment is a blank in the code. -/
theorem areBlank (h : Spacing gap) : AreBlank (codeOf gap) := by
  have hspace : Text.isBlank ' ' = true := by decide
  have hline : Text.isBlank '\n' = true := by decide
  induction h with
  | nil => exact fun _ hc => (by cases hc)
  | blank hblank _ ih => exact List.forall_mem_cons.mpr ⟨hblank, ih⟩
  | block _ _ ih => exact List.forall_mem_cons.mpr ⟨hspace, ih⟩
  | line _ _ ih =>
      exact List.forall_mem_cons.mpr ⟨hspace, List.forall_mem_cons.mpr ⟨hline, ih⟩⟩

/-- It may stand in front of anything. -/
theorem isDivided_append (h : Spacing gap) {ls : List Lexeme} (hls : IsDivided ls) :
    IsDivided (gap ++ ls) := by
  have hblank {c : Char} (hc : Text.isBlank c = true) {ls : List Lexeme} (hls : IsDivided ls) :
      IsDivided (.code c :: ls) := by
    refine IsDivided.code_append (s := [c]) (List.forall_mem_singleton.mpr ?_) hls
    exact startsNothing_of_holds (by decide) hc
  induction h with
  | nil => exact hls
  | blank hc _ ih => exact hblank hc ih
  | block hbody _ ih => exact ih.cons_comment hbody
  | @line body rest hbody _ ih =>
      have hrest : IsDivided (.code '\n' :: (rest ++ ls)) := hblank (by decide) ih
      refine ⟨⟨List.forall_mem_cons.mpr ⟨.lineComment hbody, hrest.lexed.java⟩, ?_⟩,
        List.forall_mem_cons.mpr ⟨id, hrest.blocks⟩⟩
      exact List.isChain_cons.mpr ⟨fun m hm _ => .inr (Option.some.inj hm ▸ rfl), hrest.lexed.ends⟩

theorem startsUnquoted_append (h : Spacing gap) {ls : List Lexeme} (hls : StartsUnquoted ls) :
    StartsUnquoted (gap ++ ls) := by
  have hstarts {l : Lexeme} {rest : List Lexeme} (hl : l.source.head? ≠ some '"') :
      StartsUnquoted (l :: rest) := fun m hm => Option.some.inj hm ▸ hl
  cases h with
  | nil => exact hls
  | blank hblank _ =>
      exact hstarts fun heq => ne_of_holds hblank (by decide) (Option.some.inj heq)
  | block _ _ | line _ _ => exact hstarts fun heq => absurd (Option.some.inj heq) (by decide)

end Spacing

/-! ## Argument lists -/

namespace Member

/-- The value of a member as lexemes. -/
def valueLexemes : Member → List Lexeme
  | extension contents => [.literal ['"'] contents]
  | flag value => (flag value).value.map .code

/-- An extension stands on one line. -/
def IsQuoted : Member → Prop
  | extension contents => Quoted '"' contents
  | flag _ => True

/-- A member as it may stand in a source, with white space and comments around every part. -/
inductive IsSpaced (m : Member) : List Lexeme → Prop
  | mk {before between front after : List Lexeme} (hbefore : Spacing before) (hbetween : Spacing between)
      (hfront : Spacing front) (hafter : Spacing after) (hquoted : m.IsQuoted) :
      IsSpaced m (before ++
        (m.key.map .code ++ (between ++ .code '=' :: (front ++ (m.valueLexemes ++ after)))))

end Member

/-- Members as they may stand in a source: separated by commas, and perhaps one more behind the last. -/
inductive AreSpaced : List Member → List Lexeme → Prop
  | none {ls : List Lexeme} (h : Spacing ls) : AreSpaced [] ls
  | last {m : Member} {ls : List Lexeme} (h : m.IsSpaced ls) : AreSpaced [m] ls
  | more {m : Member} {members : List Member} {ls more : List Lexeme} (h : m.IsSpaced ls)
      (hmore : AreSpaced members more) : AreSpaced (m :: members) (ls ++ .code ',' :: more)

theorem Quoted.literalText {s : List Char} (h : Quoted '"' s) : LiteralText s := by
  induction h with
  | nil => exact .nil
  | plain hquote hback _ _ ih => exact .plain hquote hback ih
  | escape hline _ ih => exact .pair hline ih

namespace Member

variable {m : Member} {ls : List Lexeme}

theorem codeOf_valueLexemes (m : Member) : codeOf m.valueLexemes = m.value := by
  cases m with
  | extension contents => exact codeOf_literal _ _
  | flag value => exact codeOf_map_code _

/-- In the code a member stands as it is written. -/
theorem IsSpaced.isWritten (h : m.IsSpaced ls) : m.IsWritten (codeOf ls) := by
  obtain ⟨hbefore, hbetween, hfront, hafter, hquoted⟩ := h
  have hformed : m.IsFormed := by
    cases m with
    | extension contents => exact Quoted.literalText hquoted
    | flag value => trivial
  have hwritten : m.IsWritten _ :=
    .mk hbefore.areBlank hbetween.areBlank hfront.areBlank hafter.areBlank hformed
  simpa only [codeOf_append, codeOf_code, codeOf_map_code, codeOf_valueLexemes] using hwritten

theorem isBare_valueLexemes (m : Member) : IsBare (maskedOf m.valueLexemes) := by
  have hflag : ∀ value, ∀ c ∈ (flag value).value, isNameChar c = true := by decide
  cases m with
  | extension contents =>
      have hquote : IsBare ['"'] := by unfold IsBare; decide
      have hblanks : IsBare (List.replicate contents.length ' ') :=
        isBare_of_isBlank fun c hc => List.eq_of_mem_replicate hc ▸ by decide
      rw [valueLexemes, maskedOf_literal, maskedOf_nil, List.append_nil]
      exact (hquote.append hblanks).append hquote
  | flag value =>
      rw [valueLexemes, maskedOf_map_code]
      exact isBare_of_isNameChar (hflag value)

/-- In the masked view a member is bare. -/
theorem IsSpaced.isBare (h : m.IsSpaced ls) : IsBare (maskedOf ls) := by
  obtain ⟨hbefore, hbetween, hfront, hafter, -⟩ := h
  have hkey : IsBare m.key := isBare_of_isNameChar fun c hc =>
    Bool.or_eq_true_iff.mpr (.inl (m.isWord_key.2 c hc))
  have hequals : '=' ∉ ['(', ')', '{', '}', '@'] := by decide
  simp only [maskedOf_append, maskedOf_code, maskedOf_map_code]
  exact hbefore.isGap.isBare.append (hkey.append (hbetween.isGap.isBare.append
    (List.forall_mem_cons.mpr ⟨hequals, hfront.isGap.isBare.append
      (m.isBare_valueLexemes.append hafter.isGap.isBare)⟩)))

/-- A value may stand in front of what starts with no quote. -/
theorem isDivided_value_append (hquoted : m.IsQuoted) (hls : IsDivided ls) (hstarts : StartsUnquoted ls) :
    IsDivided (m.valueLexemes ++ ls) := by
  cases m with
  | extension contents => exact hls.cons_string hquoted hstarts
  | flag value =>
      have hflag : ∀ value, ∀ c ∈ (flag value).value, c ≠ '"' ∧ c ≠ '\'' ∧ c ≠ '/' := by decide
      exact hls.code_append (hflag value)

theorem IsSpaced.isDivided_append (h : m.IsSpaced ls) {rest : List Lexeme} (hrest : IsDivided rest)
    (hstarts : StartsUnquoted rest) : IsDivided (ls ++ rest) := by
  obtain ⟨hbefore, hbetween, hfront, hafter, hquoted⟩ := h
  next before between front after =>
  have hkey : ∀ c ∈ m.key, c ≠ '"' ∧ c ≠ '\'' ∧ c ≠ '/' := fun c hc =>
    startsNothing_of_holds (by decide) (m.isWord_key.2 c hc)
  have hequals : ∀ c ∈ ['='], c ≠ '"' ∧ c ≠ '\'' ∧ c ≠ '/' := by decide
  have hvalue : IsDivided (m.valueLexemes ++ (after ++ rest)) :=
    isDivided_value_append hquoted (hafter.isDivided_append hrest) (hafter.startsUnquoted_append hstarts)
  have hbehind : IsDivided (['='].map .code ++ (front ++ (m.valueLexemes ++ (after ++ rest)))) :=
    (hfront.isDivided_append hvalue).code_append hequals
  have hmember := hbefore.isDivided_append ((hbetween.isDivided_append hbehind).code_append hkey)
  simpa using hmember

end Member

namespace AreSpaced

variable {members : List Member} {ls : List Lexeme}

/-- In the code a list stands as it is written. -/
theorem areWritten (h : AreSpaced members ls) : AreWritten members (codeOf ls) := by
  induction h with
  | none h => exact .none h.areBlank
  | last h => exact .last h.isWritten
  | more h _ ih =>
      rw [codeOf_append, codeOf_code]
      exact .more h.isWritten ih

/-- **In the masked view a list is bare**, whatever stands in its literals and comments. -/
theorem isBare (h : AreSpaced members ls) : IsBare (maskedOf ls) := by
  have hcomma : ',' ∉ ['(', ')', '{', '}', '@'] := by decide
  induction h with
  | none h => exact h.isGap.isBare
  | last h => exact h.isBare
  | more h _ ih =>
      rw [maskedOf_append, maskedOf_code]
      exact h.isBare.append (List.forall_mem_cons.mpr ⟨hcomma, ih⟩)

theorem isDivided_append (h : AreSpaced members ls) {rest : List Lexeme} (hrest : IsDivided rest)
    (hstarts : StartsUnquoted rest) : IsDivided (ls ++ rest) := by
  have hcomma : ∀ c ∈ [','], c ≠ '"' ∧ c ≠ '\'' ∧ c ≠ '/' := by decide
  induction h with
  | none h => exact h.isDivided_append hrest
  | last h => exact h.isDivided_append hrest hstarts
  | @more m members ls more h _ ih =>
      have hbehind : IsDivided ([','].map .code ++ (more ++ rest)) := ih.code_append hcomma
      have hunquoted : StartsUnquoted ([','].map .code ++ (more ++ rest)) := fun l hl =>
        Option.some.inj hl ▸ by decide
      rw [List.append_assoc]
      exact h.isDivided_append hbehind hunquoted

end AreSpaced

/-! ## A type with such a list -/

/-- If the marker's is the only at sign, the type's is the only mark. -/
theorem marks_of_one_marker {t : MarkedType} (ht : t.IsWellFormed) (hplain : t.markerItem.IsPlain)
    (hafter : ∀ p ∈ t.after, p.2.IsPlain) (hfront : '@' ∉ maskedOf t.front)
    (hrest : '@' ∉ (maskedOf (t.markerItem.lexemes ++ (written t.after ++ t.head))).tail) :
    marks (cellsOf t.lexemes) = [t.mark] := by
  obtain ⟨covered, hmark⟩ := markAt?_marker ht hplain hafter
  have hne {ls : List Cell} (h : '@' ∉ ls.map Cell.masked) : ∀ c ∈ ls, c.masked ≠ '@' :=
    fun c hc heq => h (heq ▸ List.mem_map_of_mem hc)
  rw [marks, MarkedType.lexemes, cellsOf_append, marksFrom_of_forall_ne (hne hfront), List.append_nil]
  rw [maskedOf, ← List.map_tail, cellsOf_append, cellsOf_append] at hrest
  rw [cellsOf_append, cellsOf_append]
  rw [MarkedType.markerItem, cellsOf_annot] at hmark hrest ⊢
  rw [marksFrom, hmark]
  exact congrArg (t.mark :: ·) (marksFrom_eq_nil (unmarked_of_forall_ne (hne hrest)) _ _)

theorem report_singleton {package : List Char} {m : Mark} {d : Declaration}
    (h : findingOf package m = .ok (.declared d)) : (findingsOf package [m]).report = .ok [d] := by
  rw [report_cons, h]
  rfl

theorem IsDivided.left {ls ms : List Lexeme} (h : IsDivided (ls ++ ms)) : IsDivided ls := by
  obtain ⟨⟨hjava, hends⟩, hblocks⟩ := h
  exact ⟨⟨(List.forall_mem_append.mp hjava).1, hends.left_of_append⟩, (List.forall_mem_append.mp hblocks).1⟩

/-- Modifiers, each behind its spacing. -/
def AreModifiers (items : List (List Lexeme × Item)) : Prop :=
  ∀ p ∈ items, Spacing p.1 ∧ ∃ w ∈ modifierWords, p.2 = .word w

namespace AreModifiers

variable {items : List (List Lexeme × Item)}

theorem isFormed (h : AreModifiers items) : ∀ p ∈ items, IsGap p.1 ∧ p.2.IsFormed := by
  intro p hp
  obtain ⟨hgap, w, hw, hitem⟩ := h p hp
  have hnone : IsGap [] := by decide
  rw [hitem]
  exact ⟨hgap.isGap, hw, hnone, rfl, rfl⟩

theorem isPlain (h : AreModifiers items) : ∀ p ∈ items, p.2.IsPlain := by
  intro p hp
  obtain ⟨-, w, -, hitem⟩ := h p hp
  rw [hitem]
  exact ⟨fun _ hc => (by cases hc), fun _ hc => (by cases hc)⟩

theorem not_isMark (h : AreModifiers items) : ∀ p ∈ items, ¬p.2.IsMark := by
  intro p hp
  obtain ⟨-, w, -, hitem⟩ := h p hp
  rw [hitem]
  exact id

theorem isBare (h : AreModifiers items) : IsBare (maskedOf (written items)) := by
  have hwords : ∀ w ∈ modifierWords, IsBare w := by unfold IsBare; decide +kernel
  induction items with
  | nil => exact fun _ hc => (by cases hc)
  | cons p items ih =>
      obtain ⟨gap, item⟩ := p
      obtain ⟨hgap, w, hw, rfl⟩ := h _ List.mem_cons_self
      rw [written_cons, maskedOf_append, maskedOf_append, Item.lexemes, maskedOf_map_code]
      exact hgap.isGap.isBare.append
        ((hwords w hw).append (ih fun p hp => h p (List.mem_cons_of_mem _ hp)))

theorem isDivided_append (h : AreModifiers items) {ls : List Lexeme} (hls : IsDivided ls) :
    IsDivided (written items ++ ls) := by
  have hwords : ∀ w ∈ modifierWords, ∀ c ∈ w, c ≠ '"' ∧ c ≠ '\'' ∧ c ≠ '/' := by decide +kernel
  induction items with
  | nil => exact hls
  | cons p items ih =>
      obtain ⟨gap, item⟩ := p
      obtain ⟨hgap, w, hw, rfl⟩ := h _ List.mem_cons_self
      have hrest := ih fun p hp => h p (List.mem_cons_of_mem _ hp)
      rw [written_cons, List.append_assoc, List.append_assoc]
      exact hgap.isDivided_append (hrest.code_append (hwords w hw))

end AreModifiers

/-- The parts are those of a type at the top level that carries the marker with some members.  The marker
may be qualified and stand among modifiers; behind the name no other annotation stands. -/
structure MarkedType.Carries (t : MarkedType) (members : List Member) : Prop where
  unit : t.unit = []
  before : AreModifiers t.before
  gap : Spacing t.gap
  marker : IsMarker t.marker ∧ ∀ c ∈ t.marker, isNameChar c = true
  arguments : ∃ gap ls, t.arguments = some (gap, ls) ∧ Spacing gap ∧ AreSpaced members ls
  after : AreModifiers t.after
  kindGap : Spacing t.kindGap
  kind : t.kind ∈ kindWords
  spaced : Spaced false
    (t.before ++ ((t.gap, t.markerItem) :: t.after ++ [(t.kindGap, .word t.kind)]))
  nameGap : Spacing t.nameGap ∧ t.nameGap ≠ []
  name : t.name ≠ [] ∧ ∀ c ∈ t.name, Text.isWord c = true
  rest : IsNested t.rest ∧ '@' ∉ maskedOf t.rest ∧ ∀ c ∈ (maskedOf t.rest).head?, Text.isWord c = false

section

variable {t : MarkedType} {members : List Member} (ht : t.Carries members)
include ht

theorem isPlain_of_carries : t.markerItem.IsPlain := by
  obtain ⟨gap, ls, harguments, -, hls⟩ := ht.arguments
  rw [MarkedType.markerItem, harguments]
  exact ⟨fun c hc heq => hls.isBare c hc (by rw [heq]; decide), ht.marker.2⟩

theorem isArranged_of_carries : t.IsArranged := by
  have hformed : t.markerItem.IsFormed := by
    obtain ⟨gap, ls, harguments, hgap, hls⟩ := ht.arguments
    have hne : t.marker ≠ [] := by
      rcases ht.marker.1 with hmarker | ⟨qualifier, -, hmarker⟩
      · rw [hmarker]
        decide
      · simp [hmarker]
    rw [MarkedType.markerItem, harguments]
    exact ⟨⟨hne, fun c hc => Bool.or_eq_true_iff.mpr (.inl (ht.marker.2 c hc))⟩, hgap.isGap,
      hls.isBare.isNested.parentheses, hls.isBare.isNested.braces⟩
  exact {
    ends := by simp [ht.unit]
    parentheses := by rw [ht.unit]; rfl
    braces := by rw [ht.unit]; rfl
    before := ht.before.isFormed
    first := ht.before.not_isMark
    gap := ht.gap.isGap
    formed := hformed
    marker := ht.marker.1
    after := ht.after.isFormed
    kindGap := ht.kindGap.isGap
    kind := ht.kind
    spaced := ht.spaced
    nameGap := ⟨ht.nameGap.1.isGap, ht.nameGap.2⟩
    name := ht.name
    rest := ht.rest.2.2 }

theorem isDivided_of_carries {behind : List Lexeme} (hbehind : IsDivided (t.rest ++ behind)) :
    IsDivided (t.lexemes ++ behind) := by
  obtain ⟨gap, ls, harguments, hgap, hls⟩ := ht.arguments
  have hkinds : ∀ w ∈ kindWords, ∀ c ∈ w, c ≠ '"' ∧ c ≠ '\'' ∧ c ≠ '/' := by decide +kernel
  have hclosing : ∀ c ∈ [')'], c ≠ '"' ∧ c ≠ '\'' ∧ c ≠ '/' := by decide
  have hopening : ∀ c ∈ ['('], c ≠ '"' ∧ c ≠ '\'' ∧ c ≠ '/' := by decide
  have hname : ∀ c ∈ t.name, c ≠ '"' ∧ c ≠ '\'' ∧ c ≠ '/' := fun c hc =>
    startsNothing_of_holds (by decide) (ht.name.2 c hc)
  have hmarker : ∀ c ∈ '@' :: t.marker, c ≠ '"' ∧ c ≠ '\'' ∧ c ≠ '/' :=
    List.forall_mem_cons.mpr ⟨by decide, fun c hc =>
      startsNothing_of_holds (by decide) (ht.marker.2 c hc)⟩
  have hnamed : IsDivided (t.nameGap ++ (t.name.map .code ++ (t.rest ++ behind))) :=
    ht.nameGap.1.isDivided_append (hbehind.code_append hname)
  have hhead : IsDivided (written t.after ++ (t.kindGap ++ (t.kind.map .code ++
      (t.nameGap ++ (t.name.map .code ++ (t.rest ++ behind)))))) :=
    ht.after.isDivided_append (ht.kindGap.isDivided_append (hnamed.code_append (hkinds _ ht.kind)))
  have hlist := (hls.isDivided_append (hhead.code_append hclosing) fun l hl =>
    Option.some.inj hl ▸ by decide).code_append hopening
  have hfront := ht.before.isDivided_append
    (ht.gap.isDivided_append ((hgap.isDivided_append hlist).code_append hmarker))
  simpa [MarkedType.lexemes, MarkedType.front, MarkedType.head, MarkedType.markerItem, Item.lexemes,
    ht.unit, harguments] using hfront

theorem isBare_front : IsBare (maskedOf t.front) := by
  rw [MarkedType.front, ht.unit, List.nil_append, maskedOf_append]
  exact ht.before.isBare.append ht.gap.isGap.isBare

/-- What stands between the argument list and the end of the name is bare. -/
theorem exists_bare_head : ∃ ls, written t.after ++ t.head = ls ++ t.rest ∧ IsBare (maskedOf ls) := by
  have hkinds : ∀ w ∈ kindWords, IsBare w := by unfold IsBare; decide +kernel
  have hname : IsBare t.name := isBare_of_isNameChar fun c hc =>
    Bool.or_eq_true_iff.mpr (.inl (ht.name.2 c hc))
  refine ⟨written t.after ++ (t.kindGap ++ (t.kind.map .code ++ (t.nameGap ++ t.name.map .code))),
    by simp [MarkedType.head], ?_⟩
  simp only [maskedOf_append, maskedOf_map_code]
  exact ht.after.isBare.append (ht.kindGap.isGap.isBare.append ((hkinds _ ht.kind).append
    (ht.nameGap.1.isGap.isBare.append hname)))

theorem isNested_of_carries : IsNested t.lexemes := by
  obtain ⟨gap, ls, harguments, hgap, hls⟩ := ht.arguments
  obtain ⟨head, hparts, hhead⟩ := exists_bare_head ht
  have hat : IsNested [.code '@'] := ⟨by decide, by decide⟩
  have hmarker : IsNested (t.marker.map .code) :=
    IsBare.isNested (by rw [maskedOf_map_code]; exact isBare_of_isNameChar ht.marker.2)
  have hitem : IsNested t.markerItem.lexemes := by
    rw [MarkedType.markerItem, harguments, Item.lexemes]
    exact hat.append (hmarker.append (hgap.isGap.isBare.isNested.append (isNested_parenthesized hls.isBare)))
  rw [MarkedType.lexemes, hparts]
  exact (isBare_front ht).isNested.append (hitem.append (hhead.isNested.append ht.rest.1))

variable (hdivided : IsDivided t.lexemes)
include hdivided

theorem isWellFormed_of_carries : t.IsWellFormed :=
  ⟨isArranged_of_carries ht, hdivided.lexed, hdivided.blocks⟩

/-- **The marker is the only one that is found**, whatever stands in its arguments. -/
theorem marks_of_carries : marks (cellsOf t.lexemes) = [t.mark] := by
  obtain ⟨gap, ls, harguments, hgap, hls⟩ := ht.arguments
  obtain ⟨head, hparts, hhead⟩ := exists_bare_head ht
  have hnone {s : List Char} (hs : IsBare s) : '@' ∉ s := fun hc => hs _ hc (by decide)
  have hmarker : IsBare t.marker := isBare_of_isNameChar ht.marker.2
  refine marks_of_one_marker (isWellFormed_of_carries ht hdivided) (isPlain_of_carries ht) ht.after.isPlain
    (hnone (isBare_front ht)) ?_
  rw [hparts, MarkedType.markerItem, harguments, Item.lexemes]
  simp only [List.cons_append, List.append_assoc, maskedOf_code, maskedOf_append, maskedOf_map_code,
    List.tail_cons, List.mem_append, List.mem_cons, not_or]
  exact ⟨hnone hmarker, hnone hgap.isGap.isBare, by decide, hnone hls.isBare, by decide,
    fun hc => (by cases hc), hnone hhead, ht.rest.2.1⟩

/-- What is found of the type: its name in the package, and the binding that its members make. -/
theorem findingOf_of_carries {package : List Char} (hpackage : package ≠ []) :
    findingOf package t.mark = .ok (.declared
      ⟨String.ofList (package ++ '.' :: t.name), t.mark.visibility, bindingOf members⟩) := by
  have hmembers : parseMembers (t.mark.arguments.map Cell.code) = .ok (bindingOf members) := by
    obtain ⟨gap, ls, harguments, -, hls⟩ := ht.arguments
    rw [MarkedType.mark, MarkedType.markerItem, harguments]
    exact parseMembers_eq_ok_iff.mpr ⟨members, hls.areWritten, rfl⟩
  rw [findingOf, isNested_mark (isWellFormed_of_carries ht hdivided), if_neg Bool.false_ne_true, hmembers]
  dsimp only
  rw [qualify, if_neg (by simpa using hpackage)]
  rfl

theorem report_of_carries {package : List Char} (hpackage : package ≠ []) :
    (findingsOf package (marks (cellsOf t.lexemes))).report =
      .ok [⟨String.ofList (package ++ '.' :: t.name), t.mark.visibility, bindingOf members⟩] := by
  rw [marks_of_carries ht hdivided]
  exact report_singleton (findingOf_of_carries ht hdivided hpackage)

end

/-- **A type that carries the marker is reported with the binding that its members make**, and nothing else
is reported, whatever its body holds. -/
theorem declarations_of_carries {h : PackageLine} (hh : h.IsWellFormed) (hlexed : IsLexed h.lexemes)
    {t : MarkedType} {members : List Member} (ht : t.Carries members) {body back : List Lexeme}
    (hbody : IsNested body) (hback : '@' ∉ maskedOf back)
    (hdivided : IsDivided (t.rest ++ .code '{' :: (body ++ .code '}' :: back))) :
    declarations (textOf (h.lexemes ++ (t.lexemes ++ .code '{' :: (body ++ .code '}' :: back)))) =
      .ok [⟨String.ofList (h.name ++ '.' :: t.name), t.mark.visibility, bindingOf members⟩] := by
  have hwhole := isDivided_of_carries ht hdivided
  have hnone : marks (cellsOf back) = [] := by
    refine marksFrom_eq_nil (unmarked_of_forall_ne fun c hc heq => hback ?_) _ _
    exact heq ▸ List.mem_map_of_mem hc
  rw [declarations_packageLine hh hlexed hwhole, report_body (isNested_of_carries ht) hbody, hnone,
    report_of_carries ht hwhole.left hh.name.1]
  rfl

/-- **Annotation members survive the scan.**  An extension without quotes, backslashes and line feeds and a
flag, in either order and with any white space and complete comments between the tokens, are what the type is
reported with, under its name in the package of the source. -/
theorem arguments_survive_the_scan {h : PackageLine} (hh : h.IsWellFormed) (hlexed : IsLexed h.lexemes)
    {t : MarkedType} {members : List Member} (ht : t.Carries members) {extension : List Char} {flag : Bool}
    (hmembers : members = [.extension extension, .flag flag] ∨ members = [.flag flag, .extension extension])
    {body back : List Lexeme} (hbody : IsNested body) (hback : '@' ∉ maskedOf back)
    (hdivided : IsDivided (t.rest ++ .code '{' :: (body ++ .code '}' :: back))) :
    declarations (textOf (h.lexemes ++ (t.lexemes ++ .code '{' :: (body ++ .code '}' :: back)))) =
      .ok [⟨String.ofList (h.name ++ '.' :: t.name), t.mark.visibility,
        ⟨some (String.ofList extension), flag⟩⟩] := by
  have hbinding : bindingOf members = ⟨some (String.ofList extension), flag⟩ := by
    rcases hmembers with rfl | rfl
    · rfl
    · rfl
  rw [declarations_of_carries hh hlexed ht hbody hback hdivided, hbinding]

/-- A literal with a parenthesis, the marks of comments, another marker and the head of a type in it, a
comment with a quote and a parenthesis before it, and a line comment behind it. -/
theorem arguments_survive_the_scan_imitation :
    let codes (s : String) : List Lexeme := s.toList.map .code
    let h : PackageLine := ⟨[], codes " ", "com.acme".toList, []⟩
    let extension := "), // /* @TextResourceAware class X \x7b".toList
    let first := (Member.flag true).key.map .code ++ (codes " " ++ .code '=' ::
      (codes " " ++ ((Member.flag true).valueLexemes ++ codes " ")))
    let second := .comment ('/' :: '*' :: " \" ) ".toList ++ ['*', '/']) ::
      ((Member.extension extension).key.map .code ++ .code '=' ::
        ((Member.extension extension).valueLexemes ++
          .comment ('/' :: '/' :: " \"".toList) :: codes "\n"))
    let t : MarkedType :=
      { unit := []
        before := []
        gap := codes "\n"
        marker := marker
        arguments := some (codes " ", first ++ .code ',' :: second)
        after := [(codes "\n", .word "public".toList)]
        kindGap := codes " "
        kind := "record".toList
        nameGap := codes " "
        name := "A".toList
        rest := codes "(int x) " }
    let body := codes " @Override int y; "
    (h.IsWellFormed ∧ IsLexed h.lexemes ∧ t.Carries [.flag true, .extension extension] ∧ IsNested body ∧
        IsDivided (t.rest ++ .code '{' :: (body ++ [.code '}']))) ∧
      textOf (h.lexemes ++ (t.lexemes ++ .code '{' :: (body ++ [.code '}']))) =
        "package com.acme;\n@TextResourceAware (normalizeSpace = true ,/* \" ) */fileExtension=" ++
          "\"), // /* @TextResourceAware class X \x7b\"// \"\n)\npublic record A(int x) " ++
          "\x7b @Override int y; \x7d" ∧
      declarations (textOf (h.lexemes ++ (t.lexemes ++ .code '{' :: (body ++ [.code '}'])))) =
        .ok [⟨"com.acme.A", .everyone, ⟨some "), // /* @TextResourceAware class X \x7b", true⟩⟩] := by
  intro codes h extension first second t body
  have hh : h.IsWellFormed :=
    ⟨by decide +kernel, by decide +kernel, by decide +kernel, by decide +kernel⟩
  have hlexed : IsLexed h.lexemes :=
    (isDivided_map_code (s := "package com.acme;".toList) (by decide +kernel)).lexed
  have hblank : Spacing (codes " ") := .blank (by decide) .nil
  have hline : Spacing (codes "\n") := .blank (by decide) .nil
  have hfirst : (Member.flag true).IsSpaced first := .mk .nil hblank hblank hblank trivial
  have hsecond : (Member.extension extension).IsSpaced second :=
    .mk (.block (by decide +kernel) .nil) .nil .nil (.line (by decide +kernel) .nil)
      (quoted_of_forall (by decide +kernel))
  have hhead : ∀ c ∈ (maskedOf t.rest).head?, Text.isWord c = false := by
    intro c hc
    obtain rfl : '(' = c := Option.some.inj hc
    decide
  have ht : t.Carries [.flag true, .extension extension] := {
    unit := rfl
    before := fun p hp => (by cases hp)
    gap := hline
    marker := ⟨.inl rfl, by decide⟩
    arguments := ⟨_, _, rfl, hblank, .more hfirst (.last hsecond)⟩
    after := List.forall_mem_singleton.mpr ⟨hline, "public".toList, by decide, rfl⟩
    kindGap := hblank
    kind := by decide
    spaced := by decide +kernel
    nameGap := ⟨hblank, by decide⟩
    name := by decide
    rest := ⟨⟨by decide +kernel, by decide +kernel⟩, by decide +kernel, hhead⟩ }
  have hbody : IsNested body := ⟨by decide +kernel, by decide +kernel⟩
  have hdivided : IsDivided (t.rest ++ .code '{' :: (body ++ [.code '}'])) :=
    isDivided_map_code (s := "(int x) \x7b @Override int y; \x7d".toList) (by decide +kernel)
  refine ⟨⟨hh, hlexed, ht, hbody, hdivided⟩, by decide +kernel, ?_⟩
  rw [arguments_survive_the_scan hh hlexed ht (.inr rfl) hbody (by decide) hdivided]
  decide +kernel

end TextProviders.Source
