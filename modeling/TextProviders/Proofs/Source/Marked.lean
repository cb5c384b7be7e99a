import TextProviders.Proofs.Source.Header
import TextProviders.Proofs.Source.Reports

/-!
# A marked type is found

A source with a type at its top level that carries the marker (`MarkedType`): what stands before the
type, the modifiers and annotations before and after the marker, the head of the type, and the rest.

If the marker and the annotations after it are plain, with no nested parentheses in their argument lists
and no dollar signs in their names, the scan finds the mark (`MarkedType.mark_mem_topMarks`), wherever it
stands and whatever else the source holds: no mark that starts before the type goes past the semicolon or
the brace before it, and none that starts in the argument list of an annotation before the marker goes
past its closing parenthesis.  So the type is reported, or the members of some marker are not well formed
(`marked_type_is_not_lost`).
-/

namespace TextProviders.Source

/-! ## Sources with a marked type -/

/-- The name of the marker, perhaps behind a qualifier. -/
def IsMarker (name : List Char) : Prop :=
  name = marker ∨ ∃ qualifier, qualifier ≠ [] ∧ name = qualifier ++ '.' :: marker

/-- An annotation that is the marker. -/
def Item.IsMark : Item → Prop
  | .word _ => False
  | .annot name _ => IsMarker name

/-- The parts of a source with a marked type. -/
structure MarkedType where
  /-- What stands before the type. -/
  unit : List Lexeme
  /-- The modifiers and annotations before the marker, each behind its gap. -/
  before : List (List Lexeme × Item)
  gap : List Lexeme
  /-- The name of the marker, as it is written. -/
  marker : List Char
  arguments : Option (List Lexeme × List Lexeme)
  /-- The modifiers and annotations after the marker. -/
  after : List (List Lexeme × Item)
  kindGap : List Lexeme
  /-- The word that starts the head of the type. -/
  kind : List Char
  nameGap : List Lexeme
  name : List Char
  /-- What stands behind the name. -/
  rest : List Lexeme

namespace MarkedType

/-- The marker with its argument list. -/
def markerItem (t : MarkedType) : Item :=
  .annot t.marker t.arguments

/-- What stands behind the modifiers and annotations. -/
def head (t : MarkedType) : List Lexeme :=
  t.kindGap ++ (t.kind.map .code ++ (t.nameGap ++ (t.name.map .code ++ t.rest)))

/-- What stands before the marker. -/
def front (t : MarkedType) : List Lexeme :=
  t.unit ++ (written t.before ++ t.gap)

def lexemes (t : MarkedType) : List Lexeme :=
  t.front ++ (t.markerItem.lexemes ++ (written t.after ++ t.head))

def text (t : MarkedType) : String :=
  String.ofList (t.lexemes.flatMap Lexeme.source)

/-- The parts are what the language allows in their places. -/
structure IsArranged (t : MarkedType) : Prop where
  /-- The type is at the top level, at the start or behind something that has come to its end. -/
  ends : t.unit.getLast? ∈ [none, some (.code ';'), some (.code '}')]
  parentheses : Balanced '(' ')' (maskedOf t.unit)
  braces : Balanced '{' '}' (maskedOf t.unit)
  before : ∀ p ∈ t.before, IsGap p.1 ∧ p.2.IsFormed
  /-- The marker is the first one of the type. -/
  first : ∀ p ∈ t.before, ¬ p.2.IsMark
  gap : IsGap t.gap
  formed : t.markerItem.IsFormed
  marker : t.markerItem.IsMark
  after : ∀ p ∈ t.after, IsGap p.1 ∧ p.2.IsFormed
  kindGap : IsGap t.kindGap
  kind : t.kind ∈ kindWords
  spaced : Spaced false
    (t.before ++ ((t.gap, t.markerItem) :: t.after ++ [(t.kindGap, .word t.kind)]))
  nameGap : IsGap t.nameGap ∧ t.nameGap ≠ []
  name : t.name ≠ [] ∧ ∀ c ∈ t.name, Text.isWord c = true
  rest : ∀ c ∈ (maskedOf t.rest).head?, Text.isWord c = false

/-- The source is divided as the language divides it, and its parts are in their places. -/
structure IsWellFormed (t : MarkedType) : Prop extends t.IsArranged where
  lexed : IsLexed t.lexemes
  /-- No text block is closed by a quote that is escaped. -/
  blocks : ∀ l ∈ t.lexemes, ¬ l.ClosesEarly

/-- The mark that the type is to have. -/
def mark (t : MarkedType) : Mark :=
  ⟨(cellsOf t.front).reverse, cellsOf t.markerItem.arguments, cellsOf (written t.after), t.name⟩

end MarkedType

/-! ## The mark at the marker -/

theorem isMarker_iff {name : List Char} :
    (name = marker || (('.' :: marker).isSuffixOf name && marker.length + 1 < name.length)) = true ↔
      IsMarker name := by
  rw [IsMarker, Bool.or_eq_true, decide_eq_true_eq, Bool.and_eq_true, List.isSuffixOf_iff_suffix,
    decide_eq_true_eq]
  refine or_congr_right ⟨?_, ?_⟩
  · rintro ⟨⟨qualifier, rfl⟩, hlong⟩
    refine ⟨qualifier, ?_, rfl⟩
    rintro rfl
    simp at hlong
  · rintro ⟨qualifier, hne, rfl⟩
    have hpos := List.length_pos_of_ne_nil hne
    refine ⟨List.suffix_append qualifier _, ?_⟩
    simp only [List.length_append, List.length_cons]
    omega

instance (name : List Char) : Decidable (IsMarker name) :=
  decidable_of_iff _ isMarker_iff

instance (item : Item) : Decidable item.IsMark :=
  match item with
  | .word _ => inferInstanceAs (Decidable False)
  | .annot name _ => inferInstanceAs (Decidable (IsMarker name))

instance (t : MarkedType) : Decidable t.IsArranged :=
  decidable_of_iff
    ((t.unit.getLast? ∈ [none, some (.code ';'), some (.code '}')] ∧
        Balanced '(' ')' (maskedOf t.unit) ∧ Balanced '{' '}' (maskedOf t.unit)) ∧
      ((∀ p ∈ t.before, IsGap p.1 ∧ p.2.IsFormed) ∧ (∀ p ∈ t.before, ¬ p.2.IsMark) ∧ IsGap t.gap) ∧
      (t.markerItem.IsFormed ∧ t.markerItem.IsMark ∧ ∀ p ∈ t.after, IsGap p.1 ∧ p.2.IsFormed) ∧
      (IsGap t.kindGap ∧ t.kind ∈ kindWords ∧
        Spaced false (t.before ++ ((t.gap, t.markerItem) :: t.after ++ [(t.kindGap, .word t.kind)]))) ∧
      (IsGap t.nameGap ∧ t.nameGap ≠ []) ∧
      (t.name ≠ [] ∧ ∀ c ∈ t.name, Text.isWord c = true) ∧
      ∀ c ∈ (maskedOf t.rest).head?.toList, Text.isWord c = false)
    ⟨fun ⟨⟨h1, h2, h3⟩, ⟨h4, h5, h6⟩, ⟨h7, h8, h9⟩, ⟨h10, h11, h12⟩, h13, h14, h15⟩ =>
        ⟨h1, h2, h3, h4, h5, h6, h7, h8, h9, h10, h11, h12, h13, h14,
          fun c hc => h15 c (Option.mem_toList.mpr hc)⟩,
      fun h => ⟨⟨h.ends, h.parentheses, h.braces⟩, ⟨h.before, h.first, h.gap⟩,
        ⟨h.formed, h.marker, h.after⟩, ⟨h.kindGap, h.kind, h.spaced⟩, h.nameGap, h.name,
        fun c hc => h.rest c (Option.mem_toList.mp hc)⟩⟩

/-- What follows the name of an annotation, if it is the marker. -/
theorem afterMarker?_name {name : List Char} (hname : ∀ c ∈ name, isNameChar c = true)
    {s : List Cell} (hs : ∀ c ∈ s.head?, isNameChar c.masked = false) :
    (IsMarker name → afterMarker? (cellsOf (name.map .code) ++ s) = some s) ∧
      (¬ IsMarker name → afterMarker? (cellsOf (name.map .code) ++ s) = none) := by
  have hmasked : (cellsOf (name.map .code)).map Cell.masked = name := maskedOf_map_code name
  unfold afterMarker?
  rw [takeWhile_name hname hs]
  dsimp only
  rw [hmasked]
  refine ⟨fun h => ?_, fun h => ?_⟩
  · rw [if_pos (isMarker_iff.mpr h), ← length_cellsOf_map_code name, List.drop_left]
  · rw [if_neg (fun hif => h (isMarker_iff.mp hif))]

/-! ## Marks before a type -/

/-- The marks that start in some cells end in them, and the search goes on behind them. -/
def Passes (a s : List Cell) : Prop :=
  ∀ before, ∃ ms, marksFrom before 0 (a ++ s) = ms ++ marksFrom (a.reverse ++ before) 0 s

theorem Passes.append {a b s : List Cell} (ha : Passes a (b ++ s)) (hb : Passes b s) :
    Passes (a ++ b) s := by
  intro before
  obtain ⟨ms, hms⟩ := ha before
  obtain ⟨ms', hms'⟩ := hb (a.reverse ++ before)
  refine ⟨ms ++ ms', ?_⟩
  rw [List.append_assoc, hms, hms', List.reverse_append, List.append_assoc, List.append_assoc]

/-- Where no mark starts, the search goes on at the next cell. -/
theorem passes_cell {c : Cell} {s : List Cell} (h : ∀ before, markAt? before (c :: s) = none) :
    Passes [c] s := by
  intro before
  refine ⟨[], ?_⟩
  rw [List.singleton_append, marksFrom, h before]
  rfl

theorem passes_of_forall_ne {a : List Cell} (h : ∀ c ∈ a, c.masked ≠ '@') (s : List Cell) :
    Passes a s := fun before => ⟨[], marksFrom_of_forall_ne h before s⟩

theorem passes_gap {gap : List Lexeme} (hgap : IsGap gap) (s : List Cell) : Passes (cellsOf gap) s :=
  passes_of_forall_ne (fun c hc => ne_of_holds (hgap.isBlank c hc) (by decide)) s

theorem afterName_eq (arguments : Option (List Lexeme × List Lexeme)) (s : List Cell) :
    afterName arguments s = afterName arguments [] ++ s := by
  cases arguments with
  | none => rfl
  | some found => simp [afterName]

/-- Marks in an argument list end in it. -/
theorem passes_afterName {name : List Char} {arguments : Option (List Lexeme × List Lexeme)}
    (h : (Item.annot name arguments).IsFormed) (s : List Cell) :
    Passes (afterName arguments []) s := by
  cases arguments with
  | none => exact fun before => ⟨[], rfl⟩
  | some found =>
      obtain ⟨gap, arguments⟩ := found
      have hclosing : Passes [⟨')', ')'⟩] s := passes_of_forall_ne (by simp) s
      have harguments : Passes (cellsOf arguments) ([⟨')', ')'⟩] ++ s) := fun before =>
        ⟨_, marksFrom_append (closes_of_balanced h.parentheses) ⟨⟨')', ')'⟩, s, rfl, by decide⟩ before⟩
      have hopening : Passes [⟨'(', '('⟩] (cellsOf arguments ++ [⟨')', ')'⟩] ++ s) :=
        passes_of_forall_ne (by simp) _
      rw [afterName, List.append_nil, cellsOf_append, cellsOf_code, cellsOf_append]
      refine (passes_gap h.gap _).append (hopening.append ?_)
      exact harguments.append hclosing

/-- At what starts neither a modifier nor the head of a type, no type head is found. -/
theorem typeHeadWithin_eq_none {c : Cell} (hblank : Text.isBlank c.masked = false)
    (hword : Text.isWord c.masked = false) (hat : c.masked ≠ '@') (s : List Cell) (count : Nat) :
    typeHeadWithin count (c :: s) = none := by
  have hskip : skipBlanks (c :: s) = c :: s := skipBlanks_cons hblank s
  have hnone {words : List (List Char)} (h : ∀ w ∈ words, w ∈ modifierWords ∨ w ∈ kindWords) :
      afterAny? words (c :: s) = none := by
    refine List.findSome?_eq_none_iff.mpr fun w hw => ?_
    obtain ⟨d, rest, rfl, hletter, -⟩ := exists_letter (h w hw)
    exact if_neg (ne_of_holds hletter hword).symm
  have hhead : typeHeadAt? (c :: s) = none := by
    rw [typeHeadAt?, hskip, hnone fun w hw => .inr hw]
  cases count with
  | zero => exact hhead
  | succ count =>
      have hend : afterModifier (c :: s) = [] := by
        unfold afterModifier
        rw [hskip]
        simp only [if_neg hat, hnone fun w hw => .inl hw]
        rfl
      rw [typeHeadWithin, hend, hhead]
      rfl

/-- Where an annotation is no marker, no mark is found. -/
theorem markAt?_annot {name : List Char} {arguments : Option (List Lexeme × List Lexeme)}
    (h : (Item.annot name arguments).IsFormed) (hmarker : ¬ IsMarker name) {s : List Cell}
    (hs : arguments = none → Clear s) (before : List Cell) :
    markAt? before (⟨'@', '@'⟩ :: (cellsOf (name.map .code) ++ afterName arguments s)) = none := by
  rw [markAt?, if_pos rfl]
  by_cases hdollar : '$' ∈ name
  · -- The name is taken up to the dollar sign, and nothing that follows the marker starts with one.
    obtain ⟨first, rest, hparts, hfirst⟩ := List.eq_append_cons_of_mem hdollar
    have hname : ∀ c ∈ first, isNameChar c = true := fun c hc => by
      have hchar := h.name.2 c (by rw [hparts]; exact List.mem_append_left _ hc)
      have hne : c ≠ '$' := fun heq => hfirst (heq ▸ hc)
      simpa [isIdentifierChar, hne] using hchar
    rw [hparts, List.map_append, cellsOf_append, List.map_cons, cellsOf_code, List.append_assoc,
      List.cons_append]
    generalize cellsOf (rest.map .code) ++ afterName arguments s = after
    have hend : ∀ c ∈ (⟨'$', '$'⟩ :: after : List Cell).head?, isNameChar c.masked = false := by
      rintro c hc
      obtain rfl := Option.some.inj hc
      decide
    obtain ⟨hmark, hnone⟩ := afterMarker?_name hname hend
    by_cases hmarked : IsMarker first
    · have harguments : arguments? (⟨'$', '$'⟩ :: after) = none := by
        rw [arguments?, skipBlanks_cons (by decide)]
        rfl
      rw [hmark hmarked]
      dsimp only
      rw [harguments]
      exact congrArg (Option.map _)
        (typeHeadWithin_eq_none (by decide) (by decide) (by decide) after _)
    · rw [hnone hmarked]
  · have hname : ∀ c ∈ name, isNameChar c = true := fun c hc => by
      have hne : c ≠ '$' := fun heq => hdollar (heq ▸ hc)
      simpa [isIdentifierChar, hne] using h.name.2 c hc
    rw [(afterMarker?_name hname (head?_afterName h.gap hs)).2 hmarker]

/-- Where an annotation is no marker, no mark starts. -/
theorem passes_annot {name : List Char} {arguments : Option (List Lexeme × List Lexeme)}
    (h : (Item.annot name arguments).IsFormed) (hmarker : ¬ IsMarker name) {s : List Cell}
    (hs : arguments = none → Clear s) :
    Passes (cellsOf (Item.annot name arguments).lexemes) s := by
  have hcells := cellsOf_annot name arguments []
  rw [List.append_nil] at hcells
  have hnone (before : List Cell) : markAt? before
      (⟨'@', '@'⟩ :: (cellsOf (name.map .code) ++ afterName arguments [] ++ s)) = none := by
    rw [List.append_assoc, ← afterName_eq]
    exact markAt?_annot h hmarker hs before
  rw [hcells]
  have hpassed : Passes (cellsOf (name.map .code)) (afterName arguments [] ++ s) :=
    passes_of_forall_ne (fun c hc => ne_of_holds (h.name.2 _ (mem_cellsOf_map_code hc)) (by decide)) _
  exact (passes_cell hnone).append (hpassed.append (passes_afterName h s))

/-- **Marks in items that are no marker end in them.** -/
theorem passes_items {items : List (List Lexeme × Item)} {joined : Bool} {s : List Cell}
    (hitems : ∀ p ∈ items, IsGap p.1 ∧ p.2.IsFormed)
    (hfirst : ∀ p ∈ items, ¬ p.2.IsMark)
    (hspaced : Spaced joined items) (hs : joinedAfter joined items = true → Clear s) :
    Passes (cellsOf (written items)) s := by
  induction items generalizing joined with
  | nil => exact fun before => ⟨[], rfl⟩
  | cons p items ih =>
      obtain ⟨gap, item⟩ := p
      obtain ⟨hgap, hitem⟩ := hitems _ List.mem_cons_self
      obtain ⟨-, hrest⟩ := hspaced
      have hitems' : ∀ p ∈ items, IsGap p.1 ∧ p.2.IsFormed := fun p hp =>
        hitems p (List.mem_cons_of_mem _ hp)
      have hclear : item.endsInWord = true → Clear (cellsOf (written items) ++ s) :=
        clear_items hitems' hrest hs
      have hpassed := ih hitems' (fun p hp => hfirst p (List.mem_cons_of_mem _ hp)) hrest hs
      rw [written_cons, cellsOf_append, cellsOf_append]
      refine (passes_gap hgap _).append (Passes.append ?_ hpassed)
      cases item with
      | word w =>
          have hword : ∀ word ∈ modifierWords, ∀ c ∈ word, c ≠ '@' := by decide +kernel
          exact passes_of_forall_ne (fun c hc => hword w hitem.word _ (mem_cellsOf_map_code hc)) _
      | annot name arguments =>
          exact passes_annot hitem (hfirst _ List.mem_cons_self)
            fun hnone => hclear (by rw [hnone]; rfl)

/-! ## The head of the type -/

section

variable {t : MarkedType} (ht : t.IsWellFormed)
include ht

/-- The cells behind the gap before the head. -/
theorem skipBlanks_head :
    skipBlanks (cellsOf t.head) =
      cellsOf (t.kind.map .code) ++ cellsOf (t.nameGap ++ (t.name.map .code ++ t.rest)) := by
  obtain ⟨c, rest, hkind, -, hblank, -⟩ := exists_letter (.inr ht.kind)
  rw [MarkedType.head, cellsOf_append, skipBlanks_gap ht.kindGap, hkind, List.map_cons,
    List.cons_append, cellsOf_code, skipBlanks_cons (c := ⟨c, c⟩) hblank, cellsOf_append, cellsOf_code,
    List.cons_append]

/-- The head of the type is found where it stands. -/
theorem typeHeadAt?_head :
    typeHeadAt? (cellsOf t.head) = some ⟨cellsOf t.head, t.name, cellsOf t.rest⟩ := by
  have hapart : ∀ word ∈ kindWords, Apart kindWords word := by decide +kernel
  have hkind := afterAny?_of_mem (hapart _ ht.kind) ht.kind
    (cellsOf (t.nameGap ++ (t.name.map .code ++ t.rest)))
  have hname := cellsOf_map_code_ne_nil ht.name.1
  have hword : ∀ c ∈ cellsOf (t.name.map .code), Text.isWord c.masked = true := fun c hc =>
    ht.name.2 _ (mem_cellsOf_map_code hc)
  have hskip : skipBlanks (cellsOf (t.nameGap ++ (t.name.map .code ++ t.rest))) =
      cellsOf (t.name.map .code) ++ cellsOf t.rest := by
    rw [cellsOf_append, skipBlanks_gap ht.nameGap.1, cellsOf_append]
    obtain ⟨c, more, hcells⟩ := List.exists_cons_of_ne_nil hname
    rw [hcells, List.cons_append]
    exact skipBlanks_cons (isBlank_of_isWord (hword c (by rw [hcells]; exact List.mem_cons_self))) _
  have hrest : ∀ c ∈ (cellsOf t.rest).head?, Text.isWord c.masked = false := fun c hc =>
    ht.rest _ (by rw [maskedOf, List.head?_map]; exact Option.mem_map_of_mem _ hc)
  have htaken : (cellsOf (t.name.map .code) ++ cellsOf t.rest).takeWhile
      (fun c => Text.isWord c.masked) = cellsOf (t.name.map .code) := by
    rw [List.takeWhile_append_of_pos hword, takeWhile_of_head? hrest, List.append_nil]
  have hgap : (cellsOf t.nameGap).length ≠ 0 := fun hzero =>
    ht.nameGap.1.cellsOf_ne_nil ht.nameGap.2 (List.length_eq_zero_iff.mp hzero)
  have hmasked : (cellsOf (t.name.map .code)).map Cell.masked = t.name := maskedOf_map_code t.name
  unfold typeHeadAt?
  rw [skipBlanks_head ht, hkind]
  dsimp only
  rw [hskip, htaken, hmasked, List.drop_left, if_neg]
  simp only [cellsOf_append, List.length_append, Bool.or_eq_true, decide_eq_true_eq,
    List.isEmpty_iff, not_or]
  exact ⟨by omega, hname⟩

theorem afterModifier_head : afterModifier (cellsOf t.head) = [] := by
  obtain ⟨c, rest, hkind, -, -, hat, -⟩ := exists_letter (.inr ht.kind)
  have hapart : ∀ word ∈ kindWords, Apart modifierWords word ∧ word ∉ modifierWords := by decide +kernel
  obtain ⟨hapart, hmem⟩ := hapart _ ht.kind
  have hnone := afterAny?_of_not_mem hapart hmem
    (cellsOf (t.nameGap ++ (t.name.map .code ++ t.rest)))
  unfold afterModifier
  rw [skipBlanks_head ht]
  rw [hkind, List.map_cons, cellsOf_code, List.cons_append] at hnone ⊢
  simp only [if_neg hat, hnone]
  rfl

theorem clear_head (hne : t.kindGap ≠ []) : Clear (cellsOf t.head) := by
  obtain ⟨c, rest, hkind, -, hblank, -, hparen⟩ := exists_letter (.inr ht.kind)
  rw [MarkedType.head, cellsOf_append]
  refine clear_gap ht.kindGap hne ?_
  rw [hkind, List.map_cons, List.cons_append, cellsOf_code, skipBlanks_cons (c := ⟨c, c⟩) hblank]
  rintro d hd
  obtain rfl := Option.some.inj hd
  exact hparen

/-! ## The mark -/

theorem spaced_before : Spaced false t.before :=
  (spaced_append.mp ht.spaced).1

theorem spaced_after :
    Spaced t.markerItem.endsInWord t.after ∧
      (joinedAfter t.markerItem.endsInWord t.after = true → t.kindGap ≠ []) := by
  have hspaced := (spaced_append.mp ht.spaced).2
  rw [List.cons_append, Spaced, spaced_append, Spaced] at hspaced
  exact ⟨hspaced.2.1, fun hjoined => hspaced.2.2.1 hjoined rfl⟩

/-- What follows the marker is clear, if the marker has no argument list. -/
theorem clear_after (hjoined : t.markerItem.endsInWord = true) :
    Clear (cellsOf (written t.after) ++ cellsOf t.head) := by
  obtain ⟨hspaced, hkind⟩ := spaced_after ht
  exact clear_items ht.after hspaced (fun h => clear_head ht (hkind h)) hjoined

/-- **The type is marked**: at the marker the mark is found. -/
theorem markAt?_marker (hplain : t.markerItem.IsPlain) (hafter : ∀ p ∈ t.after, p.2.IsPlain) :
    ∃ covered, markAt? (cellsOf t.front).reverse
      (cellsOf t.markerItem.lexemes ++ (cellsOf (written t.after) ++ cellsOf t.head)) =
        some (t.mark, covered) := by
  have hclear : t.arguments = none → Clear (cellsOf (written t.after) ++ cellsOf t.head) := fun hnone =>
    clear_after ht (by rw [MarkedType.markerItem, hnone]; rfl)
  have hgap : IsGap (Item.annot t.marker t.arguments).gap := ht.formed.gap
  have hname : ∀ c ∈ t.marker, isNameChar c = true := hplain.2
  have hmarker := (afterMarker?_name hname (head?_afterName hgap hclear)).1 ht.marker
  obtain ⟨hspaced, hkind⟩ := spaced_after ht
  have hlength : t.after.length ≤ (cellsOf (written t.after) ++ cellsOf t.head).length :=
    (length_le_written fun p hp => (ht.after p hp).2).trans
      (by rw [List.length_append]; exact Nat.le_add_right _ _)
  have hhead := typeHeadWithin_items ht.after hafter hspaced (fun h => clear_head ht (hkind h))
    (afterModifier_head ht) (typeHeadAt?_head ht) hlength
  rw [MarkedType.markerItem, cellsOf_annot, markAt?, if_pos rfl, hmarker]
  dsimp only
  rw [arguments?_afterName hgap hplain hclear]
  dsimp only
  rw [hhead]
  refine ⟨_, congrArg some (Prod.ext ?_ rfl)⟩
  simp only [MarkedType.mark, MarkedType.markerItem, List.length_append, Nat.add_sub_cancel,
    List.take_left]

/-- What stands before the type is nothing, or it ends with a semicolon or a closing brace. -/
theorem unit_cases :
    t.unit = [] ∨ ∃ first c, t.unit = first ++ [.code c] ∧ (c = ';' ∨ c = '}') := by
  rcases List.eq_nil_or_concat t.unit with hnil | ⟨first, last, hunit⟩
  · exact .inl hnil
  · have hends := ht.ends
    rw [hunit, List.concat_eq_append, List.getLast?_concat] at hends
    have hlast : last = .code ';' ∨ last = .code '}' := by simpa using hends
    rw [List.concat_eq_append] at hunit
    rcases hlast with rfl | rfl
    · exact .inr ⟨first, ';', hunit, .inl rfl⟩
    · exact .inr ⟨first, '}', hunit, .inr rfl⟩

/-- No mark that starts before the type goes past the end of what stands there. -/
theorem passes_unit (s : List Cell) : Passes (cellsOf t.unit) s := by
  rcases unit_cases ht with hnil | ⟨first, c, hunit, hc⟩
  · rw [hnil]
    exact fun before => ⟨[], rfl⟩
  · have hcloses : Closes (cellsOf t.unit) := closes_of_balanced ht.parentheses
    have hcut : c ∈ cutMarks := by rcases hc with rfl | rfl <;> decide
    rw [hunit, cellsOf_append] at hcloses ⊢
    exact fun before => ⟨_, marksFrom_append_of_cut (c := ⟨c, c⟩) hcloses hcut before s⟩

/-- **The search comes to the marker.** -/
theorem passes_front (s : List Cell) :
    Passes (cellsOf t.front) (cellsOf t.markerItem.lexemes ++ s) := by
  have hclear : Clear (cellsOf t.gap ++ (cellsOf t.markerItem.lexemes ++ s)) := by
    rw [MarkedType.markerItem, cellsOf_annot]
    exact clear_gap_at ht.gap _
  rw [MarkedType.front, cellsOf_append, cellsOf_append]
  refine (passes_unit ht _).append (Passes.append ?_ (passes_gap ht.gap _))
  exact passes_items ht.before ht.first (spaced_before ht) fun _ => hclear

/-- The type stands in no braces. -/
theorem isNested_mark : t.mark.isNested = false := by
  have hcount (c : Char) :
      t.mark.before.countP (fun d => d.masked = c) = (maskedOf t.front).count c := by
    rw [MarkedType.mark, List.countP_reverse, maskedOf, List.count, List.countP_map]
    exact List.countP_congr fun d _ => by simp
  have hgap : Balanced '{' '}' (maskedOf t.gap) := balanced_gap ht.gap
  have hbraces : Balanced '{' '}' (maskedOf t.front) := by
    rw [MarkedType.front, maskedOf_append, maskedOf_append]
    exact ht.braces.append ((balanced_written ht.before).append hgap)
  rw [Mark.isNested, hcount, hcount, hbraces.count_eq (by decide)]
  simp

/-- **The mark is found**, and it stands in no braces. -/
theorem mark_mem_topMarks (hplain : t.markerItem.IsPlain) (hafter : ∀ p ∈ t.after, p.2.IsPlain) :
    t.mark ∈ topMarks t.text.toList := by
  have hcells : cells t.text.toList = cellsOf t.front ++
      (cellsOf t.markerItem.lexemes ++ (cellsOf (written t.after) ++ cellsOf t.head)) := by
    rw [MarkedType.text, String.toList_ofList, cells, (lexemes_source_iff ht.lexed).mpr ht.blocks,
      MarkedType.lexemes]
    simp only [← cellsOf_append]
    rfl
  obtain ⟨ms, hms⟩ := passes_front ht (cellsOf (written t.after) ++ cellsOf t.head) []
  obtain ⟨covered, hmark⟩ := markAt?_marker ht hplain hafter
  refine List.mem_filter.mpr ⟨?_, by rw [isNested_mark ht]; rfl⟩
  rw [marks, hcells, hms, List.append_nil]
  refine List.mem_append_right _ ?_
  rw [MarkedType.markerItem, cellsOf_annot] at hmark ⊢
  rw [marksFrom, hmark]
  exact List.mem_cons_self

end

/-! ## The package -/

/-- A line that declares a package, with what stands before it. -/
structure PackageLine where
  opening : List Lexeme
  gap : List Lexeme
  name : List Char
  ending : List Lexeme

namespace PackageLine

def lexemes (p : PackageLine) : List Lexeme :=
  p.opening ++ ("package".toList.map .code ++
    (p.gap ++ (p.name.map .code ++ (p.ending ++ [.code ';']))))

/-- The line is the first one, apart from blanks and comments. -/
structure IsWellFormed (p : PackageLine) : Prop where
  opening : IsGap p.opening
  gap : IsGap p.gap ∧ p.gap ≠ []
  name : p.name ≠ [] ∧ ∀ c ∈ p.name, isNameChar c = true
  ending : IsGap p.ending

end PackageLine

theorem trimStart_gap {gap : List Lexeme} (h : IsGap gap) {c : Char} (hc : Text.isBlank c = false)
    (s : List Char) : Text.trimStart (maskedOf gap ++ c :: s) = c :: s := by
  rw [Text.trimStart, List.dropWhile_append_of_pos h.isBlank_masked,
    List.dropWhile_cons_of_neg (by simp [hc])]

theorem packageAt?_packageLine {p : PackageLine} (hp : p.IsWellFormed) (rest : List Char) :
    packageAt? (maskedOf p.lexemes ++ rest) = some p.name := by
  obtain ⟨c, name, hname⟩ := List.exists_cons_of_ne_nil hp.name.1
  have hchar : isNameChar c = true := hp.name.2 c (by rw [hname]; exact List.mem_cons_self)
  have hblank : Text.isBlank c = false := by
    cases hblank : Text.isBlank c with
    | false => rfl
    | true => exact absurd hchar (by rw [isNameChar_of_isBlank hblank]; decide)
  have hend : Text.trimStart (maskedOf p.ending ++ ';' :: rest) = ';' :: rest :=
    trimStart_gap hp.ending (by decide) rest
  have hnamed : Text.trimStart (maskedOf p.gap ++ (p.name ++ (maskedOf p.ending ++ ';' :: rest))) =
      p.name ++ (maskedOf p.ending ++ ';' :: rest) := by
    rw [hname, List.cons_append]
    exact trimStart_gap hp.gap.1 hblank _
  have htaken : (p.name ++ (maskedOf p.ending ++ ';' :: rest)).takeWhile isNameChar = p.name := by
    have hstop : (maskedOf p.ending ++ ';' :: rest).takeWhile isNameChar = [] := by
      cases hcells : maskedOf p.ending with
      | nil => rfl
      | cons d more =>
          have hd := hp.ending.isBlank_masked d (by rw [hcells]; exact List.mem_cons_self)
          rw [List.cons_append, List.takeWhile_cons_of_neg (by simp [isNameChar_of_isBlank hd])]
    rw [List.takeWhile_append_of_pos hp.name.2, hstop, List.append_nil]
  have hlong : 0 < (maskedOf p.gap).length := by
    rw [maskedOf, List.length_map]
    exact List.length_pos_of_ne_nil (hp.gap.1.cellsOf_ne_nil hp.gap.2)
  have hopening : Text.trimStart (maskedOf p.lexemes ++ rest) = "package".toList ++
      (maskedOf p.gap ++ (p.name ++ (maskedOf p.ending ++ ';' :: rest))) := by
    have htrim := trimStart_gap hp.opening (c := 'p') (by decide)
      ("ackage".toList ++ (maskedOf p.gap ++ (p.name ++ (maskedOf p.ending ++ ';' :: rest))))
    simpa [PackageLine.lexemes] using htrim
  have hlonger : ¬ ((p.name ++ (maskedOf p.ending ++ ';' :: rest)).length =
      (maskedOf p.gap ++ (p.name ++ (maskedOf p.ending ++ ';' :: rest))).length ||
        p.name.isEmpty) = true := by
    rw [Bool.or_eq_true, decide_eq_true_eq, List.isEmpty_iff, not_or]
    refine ⟨?_, hp.name.1⟩
    have hlength (s : List Char) : (maskedOf p.gap ++ s).length = (maskedOf p.gap).length + s.length :=
      List.length_append
    rw [hlength]
    omega
  unfold packageAt?
  dsimp only
  rw [hopening, if_pos (List.isPrefixOf_iff_prefix.mpr (List.prefix_append _ _)),
    show "package".length = "package".toList.length from rfl, List.drop_left, hnamed, htaken,
    if_neg hlonger, List.drop_left, hend]
  rfl

/-- The package is found in the first line. -/
theorem packageOf_packageLine {p : PackageLine} (hp : p.IsWellFormed) (rest : List Char) :
    packageOf (maskedOf p.lexemes ++ rest) = p.name := by
  unfold packageOf packageFrom?
  rw [if_pos rfl, packageAt?_packageLine hp]
  rfl

/-! ## Marked types are reported -/

theorem masked_text {t : MarkedType} (ht : t.IsWellFormed) :
    masked t.text.toList = maskedOf t.lexemes := by
  rw [MarkedType.text, String.toList_ofList, masked, cells, (lexemes_source_iff ht.lexed).mpr ht.blocks]
  rfl

/-- **A marked type is not lost**: it is reported, or the members of some marker are not well formed. -/
theorem marked_type_is_not_lost {t : MarkedType} (ht : t.IsWellFormed) {p : PackageLine}
    (hp : p.IsWellFormed) {body : List Lexeme} (hunit : t.unit = p.lexemes ++ body)
    (hplain : t.markerItem.IsPlain) (hafter : ∀ p ∈ t.after, p.2.IsPlain) :
    (∃ fault, declarations t.text = .error fault ∧
        ∃ m ∈ topMarks t.text.toList, ∃ f, parseMembers (m.arguments.map Cell.code) = .error f) ∨
      ∃ ds, declarations t.text = .ok ds ∧
        ∃ d ∈ ds, d.name = String.ofList (p.name ++ '.' :: t.name) := by
  rcases declarations_cases t.text with hfault | ⟨ds, hds, hall⟩
  · exact .inl hfault
  · right
    have hpackage : packageOf (masked t.text.toList) = p.name := by
      rw [masked_text ht, MarkedType.lexemes, MarkedType.front, hunit, List.append_assoc,
        List.append_assoc, maskedOf_append]
      exact packageOf_packageLine hp _
    obtain ⟨d, hd, hdeclares⟩ := exists_declares_of_mem hall (mark_mem_topMarks ht hplain hafter)
    refine ⟨ds, hds, d, hd, ?_⟩
    rw [hdeclares.name, hpackage, qualify, if_neg (by simpa using hp.name.1)]
    rfl

/-- A marker whose argument list holds a parenthesis in a literal, an annotation before it with nested
parentheses, and one after it with braces. -/
theorem marked_type_is_not_lost_literal_parenthesis :
    let codes (s : String) : List Lexeme := s.toList.map .code
    let p : PackageLine := ⟨[.comment "/* a type */".toList], codes " ", "com.acme".toList, []⟩
    let t : MarkedType :=
      { unit := p.lexemes ++ codes "\nimport java.util.List;"
        before := [(codes "\n", .annot "Foo$X".toList (some ([], codes "@Bar(1)")))]
        gap := codes " "
        marker := "TextResourceAware".toList
        arguments := some (codes " ", codes "fileExtension = " ++ [.literal ['"'] ['m', ')', 'd']])
        after := [(codes " ", .annot "A.B".toList (some ([], codes "\x7bx, y\x7d"))),
          (codes " ", .word "final".toList)]
        kindGap := codes " "
        kind := "class".toList
        nameGap := codes " "
        name := "A".toList
        rest := codes " \x7b\x7d" }
    (t.IsWellFormed ∧ p.IsWellFormed ∧ t.unit = p.lexemes ++ codes "\nimport java.util.List;" ∧
        t.markerItem.IsPlain ∧ ∀ p ∈ t.after, p.2.IsPlain) ∧
      ∃ ds, declarations t.text = .ok ds ∧ ∃ d ∈ ds, d.name = "com.acme.A" := by
  intro codes p t
  have hjava : ∀ l ∈ t.lexemes, l.IsJava := by
    have hlexemes : t.lexemes = .comment ('/' :: '*' :: " a type ".toList ++ ['*', '/']) ::
        codes ("package com.acme;\nimport java.util.List;\n@Foo$X(@Bar(1)) @TextResourceAware " ++
          "(fileExtension = ") ++ .literal ['"'] ['m', ')', 'd'] ::
        codes ") @A.B(\x7bx, y\x7d) final class A \x7b\x7d" := by decide +kernel
    rw [hlexemes]
    simp only [List.forall_mem_append, List.forall_mem_cons]
    exact ⟨⟨.blockComment (by decide +kernel), isJava_of_mem_map_code (by decide +kernel)⟩,
      .string (.plain (by decide) (by decide) (by decide) (.plain (by decide) (by decide) (by decide)
        (.plain (by decide) (by decide) (by decide) .nil))), isJava_of_mem_map_code (by decide +kernel)⟩
  have ht : t.IsWellFormed :=
    ⟨by decide +kernel, ⟨hjava, by decide +kernel⟩, by decide +kernel⟩
  have hp : p.IsWellFormed :=
    ⟨by decide +kernel, by decide +kernel, by decide +kernel, by decide +kernel⟩
  have hplain : t.markerItem.IsPlain := by decide +kernel
  have hafter : ∀ p ∈ t.after, p.2.IsPlain := by decide +kernel
  refine ⟨⟨ht, hp, rfl, hplain, hafter⟩, ?_⟩
  rcases marked_type_is_not_lost ht hp rfl hplain hafter with ⟨fault, hfault, -⟩ | hreported
  · have hok : (declarations t.text).toBool = true := by decide +kernel
    rw [hfault] at hok
    cases hok
  · exact hreported

/-- Parentheses nested in the argument list of an annotation after the marker, and likewise in that of
the marker itself: the type is lost. -/
theorem nested_parentheses_lose_type :
    let codes (s : String) : List Lexeme := s.toList.map .code
    let p : PackageLine := ⟨[], codes " ", "com.acme".toList, []⟩
    let t (arguments argument : Option (List Lexeme × List Lexeme)) : MarkedType :=
      { unit := p.lexemes
        before := []
        gap := codes "\n"
        marker := "TextResourceAware".toList
        arguments := arguments
        after := [(codes "\n", .annot "Foo".toList argument)]
        kindGap := codes "\n"
        kind := "class".toList
        nameGap := codes " "
        name := "A".toList
        rest := codes " \x7b\x7d\n" }
    let after := t none (some ([], codes "@Bar(1)"))
    let inside := t (some ([], codes "normalizeSpace = (true)")) none
    p.IsWellFormed ∧ (after.IsWellFormed ∧ declarations after.text = .ok []) ∧
      inside.IsWellFormed ∧ declarations inside.text = .ok [] := by
  intro codes p t after inside
  have hp : p.IsWellFormed :=
    ⟨by decide +kernel, by decide +kernel, by decide +kernel, by decide +kernel⟩
  have hlexed {u : MarkedType} {s : String} (hlexemes : u.lexemes = codes s)
      (hplain : ∀ c ∈ s.toList, c ≠ '"' ∧ c ≠ '\'')
      (hends : u.lexemes.IsChain fun l m => l.EndsBefore m.source.head?) : IsLexed u.lexemes :=
    ⟨by rw [hlexemes]; exact isJava_of_mem_map_code hplain, hends⟩
  have hafter : after.IsWellFormed :=
    ⟨by decide +kernel, hlexed
        (s := "package com.acme;\n@TextResourceAware\n@Foo(@Bar(1))\nclass A \x7b\x7d\n")
      (by decide +kernel) (by decide +kernel) (by decide +kernel), by decide +kernel⟩
  have hinside : inside.IsWellFormed :=
    ⟨by decide +kernel, hlexed
        (s := "package com.acme;\n@TextResourceAware(normalizeSpace = (true))\n" ++
          "@Foo\nclass A \x7b\x7d\n")
      (by decide +kernel) (by decide +kernel) (by decide +kernel), by decide +kernel⟩
  exact ⟨hp, ⟨hafter, by decide +kernel⟩, hinside, by decide +kernel⟩

end TextProviders.Source
