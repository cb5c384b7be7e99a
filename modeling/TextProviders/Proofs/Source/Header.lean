import TextProviders.Proofs.Source.Barrier

/-!
# Modifiers and annotations in front of a type

What stands in front of a type is a list of words and annotations, each behind a gap of blanks and
comments (`Item`).  Words need a gap where they would run together (`Spaced`).

An argument list is taken up to the first closing parenthesis, and a name as far as it has letters,
digits, underscores and dots.  So an argument list in which parentheses are nested is not taken whole,
and neither is a name with a dollar sign.  Where there are none (`Item.IsPlain`), each modifier and each
annotation is taken as it stands (`exists_afterModifier_item`), and the type head behind them is the one
that is found (`typeHeadWithin_items`).
-/

namespace TextProviders.Source

/-! ## Cells of lexemes -/

/-- The two views of some lexemes. -/
def cellsOf (ls : List Lexeme) : List Cell :=
  ls.flatMap Lexeme.cells

/-- Some lexemes as they stand in the masked view. -/
def maskedOf (ls : List Lexeme) : List Char :=
  (cellsOf ls).map Cell.masked

@[simp] theorem cellsOf_nil : cellsOf [] = [] := rfl

@[simp] theorem cellsOf_append (ls ms : List Lexeme) :
    cellsOf (ls ++ ms) = cellsOf ls ++ cellsOf ms :=
  List.flatMap_append

@[simp] theorem cellsOf_code (c : Char) (ls : List Lexeme) :
    cellsOf (.code c :: ls) = ⟨c, c⟩ :: cellsOf ls := rfl

@[simp] theorem maskedOf_nil : maskedOf [] = [] := rfl

@[simp] theorem maskedOf_append (ls ms : List Lexeme) :
    maskedOf (ls ++ ms) = maskedOf ls ++ maskedOf ms := by
  simp [maskedOf]

@[simp] theorem maskedOf_code (c : Char) (ls : List Lexeme) :
    maskedOf (.code c :: ls) = c :: maskedOf ls := rfl

@[simp] theorem maskedOf_map_code (s : List Char) : maskedOf (s.map .code) = s := by
  induction s with
  | nil => rfl
  | cons c s ih => rw [List.map_cons, maskedOf_code, ih]

/-- The code points that are blank. -/
def blankPoints : List Nat :=
  List.range' 0x09 5 ++ List.range' 0x1c 5 ++ [0x85, 0xa0, 0x1680] ++ List.range' 0x2000 11 ++
    [0x2028, 0x2029, 0x202f, 0x205f, 0x3000]

/-- No blank belongs to a name. -/
theorem isNameChar_of_isBlank {c : Char} (h : Text.isBlank c = true) : isNameChar c = false := by
  have hall : ∀ n ∈ blankPoints, isNameChar (Char.ofNat n) = false := by decide +kernel
  have hmem : c.toNat ∈ blankPoints := by
    simp only [Text.isBlank, Bool.or_eq_true, Bool.and_eq_true, decide_eq_true_eq, beq_iff_eq] at h
    simp only [blankPoints, List.mem_append, List.mem_range'_1, List.mem_cons, List.not_mem_nil,
      or_false]
    omega
  have hname := hall _ hmem
  rwa [Char.ofNat_toNat] at hname

/-- A character of a dotted name, dollar signs included. -/
def isIdentifierChar (c : Char) : Bool :=
  isNameChar c || c == '$'

/-- A character of a word is not blank. -/
theorem isBlank_of_isWord {c : Char} (h : Text.isWord c = true) : Text.isBlank c = false := by
  cases hblank : Text.isBlank c with
  | false => rfl
  | true =>
      have hname := isNameChar_of_isBlank hblank
      rw [isNameChar, h] at hname
      cases hname

/-- Blanks and comments. -/
def Lexeme.IsGap : Lexeme → Prop
  | .code c => Text.isBlank c = true
  | .literal _ _ => False
  | .comment _ => True

instance (l : Lexeme) : Decidable l.IsGap :=
  match l with
  | .code c => inferInstanceAs (Decidable (Text.isBlank c = true))
  | .literal _ _ => inferInstanceAs (Decidable False)
  | .comment _ => inferInstanceAs (Decidable True)

/-- What stands between the parts of a header. -/
def IsGap (ls : List Lexeme) : Prop :=
  ∀ l ∈ ls, l.IsGap

instance (ls : List Lexeme) : Decidable (IsGap ls) :=
  inferInstanceAs (Decidable (∀ l ∈ ls, l.IsGap))

theorem IsGap.isBlank {ls : List Lexeme} (h : IsGap ls) :
    ∀ c ∈ cellsOf ls, Text.isBlank c.masked = true := by
  intro c hc
  obtain ⟨l, hl, hcell⟩ := List.mem_flatMap.mp hc
  have hgap := h l hl
  cases l with
  | code d =>
      obtain rfl := List.mem_singleton.mp hcell
      exact hgap
  | literal _ _ => exact hgap.elim
  | comment _ =>
      obtain rfl := List.mem_singleton.mp hcell
      exact by decide

theorem IsGap.isBlank_masked {ls : List Lexeme} (h : IsGap ls) :
    ∀ c ∈ maskedOf ls, Text.isBlank c = true := by
  intro c hc
  obtain ⟨d, hd, rfl⟩ := List.mem_map.mp hc
  exact h.isBlank d hd

theorem IsGap.cellsOf_ne_nil {ls : List Lexeme} (h : IsGap ls) (hne : ls ≠ []) : cellsOf ls ≠ [] := by
  cases ls with
  | nil => exact absurd rfl hne
  | cons l ls =>
      have hgap := h l List.mem_cons_self
      cases l with
      | literal _ _ => exact hgap.elim
      | code _ | comment _ => exact List.cons_ne_nil _ _

theorem skipBlanks_gap {gap : List Lexeme} (h : IsGap gap) (s : List Cell) :
    skipBlanks (cellsOf gap ++ s) = skipBlanks s :=
  List.dropWhile_append_of_pos h.isBlank

theorem skipBlanks_cons {c : Cell} (h : Text.isBlank c.masked = false) (s : List Cell) :
    skipBlanks (c :: s) = c :: s := by
  simp [skipBlanks, h]

/-! ## Items -/

/-- A part of what stands in front of a type: a word, or an annotation, perhaps with a gap and an
argument list. -/
inductive Item where
  | word (w : List Char)
  | annot (name : List Char) (arguments : Option (List Lexeme × List Lexeme))

namespace Item

/-- An item as it is written. -/
def lexemes : Item → List Lexeme
  | .word w => w.map .code
  | .annot name none => .code '@' :: name.map .code
  | .annot name (some (gap, arguments)) =>
      .code '@' :: (name.map .code ++ (gap ++ .code '(' :: (arguments ++ [.code ')'])))

/-- Whether a word could go on behind an item. -/
def endsInWord : Item → Bool
  | .word _ | .annot _ none => true
  | .annot _ (some _) => false

/-- Whether an item starts with a word. -/
def isWord : Item → Bool
  | .word _ => true
  | .annot _ _ => false

/-- What stands between the parentheses of an item. -/
def arguments : Item → List Lexeme
  | .annot _ (some (_, arguments)) => arguments
  | .word _ | .annot _ none => []

/-- The gap between the name of an annotation and its argument list. -/
def gap : Item → List Lexeme
  | .annot _ (some (gap, _)) => gap
  | .word _ | .annot _ none => []

/-- The name of an annotation. -/
def name : Item → List Char
  | .annot name _ => name
  | .word _ => []

/-- A modifier, or a name for an annotation. -/
def IsNamed : Item → Prop
  | .word w => w ∈ modifierWords
  | .annot name _ => name ≠ [] ∧ ∀ c ∈ name, isIdentifierChar c = true

instance (item : Item) : Decidable item.IsNamed :=
  match item with
  | .word w => inferInstanceAs (Decidable (w ∈ modifierWords))
  | .annot name _ => inferInstanceAs (Decidable (name ≠ [] ∧ ∀ c ∈ name, isIdentifierChar c = true))

/-- A modifier, or an annotation whose argument list is balanced. -/
def IsFormed (item : Item) : Prop :=
  item.IsNamed ∧ IsGap item.gap ∧ Balanced '(' ')' (maskedOf item.arguments) ∧
    Balanced '{' '}' (maskedOf item.arguments)

/-- No parentheses are nested in the argument list, and no dollar sign stands in the name. -/
def IsPlain (item : Item) : Prop :=
  (∀ c ∈ maskedOf item.arguments, c ≠ ')') ∧ ∀ c ∈ item.name, isNameChar c = true

instance (item : Item) : Decidable item.IsFormed :=
  inferInstanceAs (Decidable (_ ∧ _ ∧ _ ∧ _))

instance (item : Item) : Decidable item.IsPlain :=
  inferInstanceAs (Decidable ((∀ c ∈ maskedOf item.arguments, c ≠ ')') ∧ ∀ c ∈ item.name, _))

section

variable {item : Item} (h : item.IsFormed)
include h

theorem IsFormed.gap : IsGap item.gap := h.2.1

theorem IsFormed.parentheses : Balanced '(' ')' (maskedOf item.arguments) := h.2.2.1

theorem IsFormed.braces : Balanced '{' '}' (maskedOf item.arguments) := h.2.2.2

end

theorem IsFormed.word {w : List Char} (h : (Item.word w).IsFormed) : w ∈ modifierWords := h.1

theorem IsFormed.name {name : List Char} {arguments : Option (List Lexeme × List Lexeme)}
    (h : (Item.annot name arguments).IsFormed) :
    name ≠ [] ∧ ∀ c ∈ name, isIdentifierChar c = true := h.1

end Item

/-- Items as they are written, each behind its gap. -/
def written (items : List (List Lexeme × Item)) : List Lexeme :=
  items.flatMap fun p => p.1 ++ p.2.lexemes

/-- A gap stands between words that would run together; the flag says whether a word goes before. -/
def Spaced : Bool → List (List Lexeme × Item) → Prop
  | _, [] => True
  | joined, (gap, item) :: rest =>
      (joined = true → item.isWord = true → gap ≠ []) ∧ Spaced item.endsInWord rest

instance decidableSpaced : (joined : Bool) → (items : List (List Lexeme × Item)) →
    Decidable (Spaced joined items)
  | _, [] => inferInstanceAs (Decidable True)
  | joined, (gap, item) :: rest =>
      have := decidableSpaced item.endsInWord rest
      inferInstanceAs (Decidable ((joined = true → item.isWord = true → gap ≠ []) ∧
        Spaced item.endsInWord rest))

/-- Whether a word goes before what follows some items. -/
def joinedAfter : Bool → List (List Lexeme × Item) → Bool
  | joined, [] => joined
  | _, (_, item) :: rest => joinedAfter item.endsInWord rest

@[simp] theorem written_nil : written [] = [] := rfl

@[simp] theorem written_cons (gap : List Lexeme) (item : Item) (rest : List (List Lexeme × Item)) :
    written ((gap, item) :: rest) = gap ++ (item.lexemes ++ written rest) := by
  simp [written]

@[simp] theorem written_append (items more : List (List Lexeme × Item)) :
    written (items ++ more) = written items ++ written more :=
  List.flatMap_append

theorem spaced_append {joined : Bool} {items more : List (List Lexeme × Item)} :
    Spaced joined (items ++ more) ↔ Spaced joined items ∧ Spaced (joinedAfter joined items) more := by
  induction items generalizing joined with
  | nil => simp [Spaced, joinedAfter]
  | cons p items ih =>
      obtain ⟨gap, item⟩ := p
      rw [List.cons_append, Spaced, Spaced, ih, joinedAfter, and_assoc]

/-! ## Words -/

/-- A word that is no beginning of another and has none as its beginning is not taken for it. -/
theorem after?_eq_none {word other : List Char} (h : ¬ other <+: word) (h' : ¬ word <+: other)
    (s : List Cell) : after? other (cellsOf (word.map .code) ++ s) = none := by
  induction other generalizing word with
  | nil => exact absurd List.nil_prefix h
  | cons c other ih =>
      cases word with
      | nil => exact absurd List.nil_prefix h'
      | cons d word =>
          rw [List.map_cons, cellsOf_code, List.cons_append, after?]
          split
          · next heq =>
            obtain rfl : d = c := heq
            exact ih (fun hp => h (List.cons_prefix_cons.mpr ⟨rfl, hp⟩))
              fun hp => h' (List.cons_prefix_cons.mpr ⟨rfl, hp⟩)
          · rfl

theorem after?_self (word : List Char) (s : List Cell) :
    after? word (cellsOf (word.map .code) ++ s) = some s := by
  induction word with
  | nil => rfl
  | cons c word ih =>
      rw [List.map_cons, cellsOf_code, List.cons_append, after?, if_pos rfl, ih]

/-- No two of several words start alike. -/
def Apart (words : List (List Char)) (word : List Char) : Prop :=
  ∀ other ∈ words, other ≠ word → ¬ other <+: word ∧ ¬ word <+: other

instance (words : List (List Char)) (word : List Char) : Decidable (Apart words word) :=
  inferInstanceAs (Decidable (∀ other ∈ words, _))

theorem afterAny?_of_mem {words : List (List Char)} {word : List Char} (h : Apart words word)
    (hmem : word ∈ words) (s : List Cell) :
    afterAny? words (cellsOf (word.map .code) ++ s) = some s := by
  unfold afterAny?
  induction words with
  | nil => cases hmem
  | cons other words ih =>
      rw [List.findSome?_cons]
      by_cases heq : other = word
      · rw [heq, after?_self]
      · obtain ⟨hp, hp'⟩ := h other List.mem_cons_self heq
        rw [after?_eq_none hp hp']
        exact ih (fun w hw => h w (List.mem_cons_of_mem _ hw))
          ((List.mem_cons.mp hmem).resolve_left fun h => heq h.symm)

theorem afterAny?_of_not_mem {words : List (List Char)} {word : List Char} (h : Apart words word)
    (hmem : word ∉ words) (s : List Cell) :
    afterAny? words (cellsOf (word.map .code) ++ s) = none := by
  refine List.findSome?_eq_none_iff.mpr fun other hother => ?_
  obtain ⟨hp, hp'⟩ := h other hother fun heq => hmem (heq ▸ hother)
  exact after?_eq_none hp hp' s

/-! ## Items as they are taken -/

/-- Cells before which an annotation without an argument list ends. -/
structure Clear (s : List Cell) : Prop where
  head : ∀ c ∈ s.head?, isNameChar c.masked = false
  skip : ∀ c ∈ (skipBlanks s).head?, c.masked ≠ '('

/-- A gap that is not empty keeps what follows it apart. -/
theorem clear_gap {gap : List Lexeme} (h : IsGap gap) (hne : gap ≠ []) {s : List Cell}
    (hs : ∀ c ∈ (skipBlanks s).head?, c.masked ≠ '(') : Clear (cellsOf gap ++ s) := by
  refine ⟨?_, by rwa [skipBlanks_gap h]⟩
  rw [List.head?_append_of_ne_nil _ (h.cellsOf_ne_nil hne)]
  exact fun c hc => isNameChar_of_isBlank (h.isBlank c (List.mem_of_head? hc))

theorem mem_cellsOf_map_code {word : List Char} {c : Cell} (hc : c ∈ cellsOf (word.map .code)) :
    c.masked ∈ word := by
  have hmem := List.mem_map_of_mem (f := Cell.masked) hc
  rwa [show (cellsOf (word.map .code)).map Cell.masked = word from maskedOf_map_code word] at hmem

theorem length_cellsOf_map_code (word : List Char) :
    (cellsOf (word.map .code)).length = word.length := by
  have hlength := congrArg List.length (maskedOf_map_code word)
  rwa [maskedOf, List.length_map] at hlength

theorem cellsOf_map_code_ne_nil {word : List Char} (h : word ≠ []) : cellsOf (word.map .code) ≠ [] := by
  rw [← List.length_pos_iff_ne_nil, length_cellsOf_map_code]
  exact List.length_pos_of_ne_nil h

theorem takeWhile_of_head? {p : Cell → Bool} {s : List Cell} (hs : ∀ c ∈ s.head?, p c = false) :
    s.takeWhile p = [] := by
  cases s with
  | nil => rfl
  | cons c s => simp [hs c rfl]

/-- A name ends before what is no part of a name. -/
theorem takeWhile_name {name : List Char} (hname : ∀ c ∈ name, isNameChar c = true) {s : List Cell}
    (hs : ∀ c ∈ s.head?, isNameChar c.masked = false) :
    (cellsOf (name.map .code) ++ s).takeWhile (fun c => isNameChar c.masked) =
      cellsOf (name.map .code) := by
  rw [List.takeWhile_append_of_pos fun c hc => hname _ (mem_cellsOf_map_code hc), takeWhile_of_head? hs,
    List.append_nil]

theorem arguments?_of_clear {s : List Cell} (h : Clear s) : arguments? s = none := by
  unfold arguments?
  cases hskip : skipBlanks s with
  | nil => rfl
  | cons c rest => exact if_neg (h.skip c (by rw [hskip]; rfl))

/-- An argument list in which no parentheses are nested is taken whole. -/
theorem arguments?_of_flat {gap arguments : List Lexeme} (hgap : IsGap gap)
    (hflat : ∀ c ∈ maskedOf arguments, c ≠ ')') (s : List Cell) :
    arguments? (cellsOf (gap ++ .code '(' :: (arguments ++ [.code ')'])) ++ s) =
      some (cellsOf arguments, s) := by
  have hinside : ∀ c ∈ cellsOf arguments, decide (c.masked ≠ ')') = true := fun c hc =>
    decide_eq_true (hflat _ (List.mem_map_of_mem hc))
  have hskip : skipBlanks (cellsOf (gap ++ .code '(' :: (arguments ++ [.code ')'])) ++ s) =
      ⟨'(', '('⟩ :: (cellsOf arguments ++ ⟨')', ')'⟩ :: s) := by
    rw [cellsOf_append, List.append_assoc, skipBlanks_gap hgap, cellsOf_code, List.cons_append,
      skipBlanks_cons (by decide)]
    simp
  unfold arguments?
  rw [hskip]
  simp only [if_true]
  rw [List.dropWhile_append_of_pos hinside, List.takeWhile_append_of_pos hinside]
  simp

/-- The cells behind the name of an annotation. -/
def afterName (arguments : Option (List Lexeme × List Lexeme)) (s : List Cell) : List Cell :=
  match arguments with
  | none => s
  | some (gap, arguments) => cellsOf (gap ++ .code '(' :: (arguments ++ [.code ')'])) ++ s

theorem cellsOf_annot (name : List Char) (arguments : Option (List Lexeme × List Lexeme))
    (s : List Cell) :
    cellsOf (Item.annot name arguments).lexemes ++ s =
      ⟨'@', '@'⟩ :: (cellsOf (name.map .code) ++ afterName arguments s) := by
  cases arguments with
  | none => rfl
  | some found => simp [Item.lexemes, afterName]

/-- The name of an annotation ends where its argument list starts, or where what follows it does. -/
theorem head?_afterName {name : List Char} {arguments : Option (List Lexeme × List Lexeme)}
    (hgap : IsGap (Item.annot name arguments).gap) {s : List Cell}
    (hs : arguments = none → Clear s) :
    ∀ c ∈ (afterName arguments s).head?, isNameChar c.masked = false := by
  cases arguments with
  | none => exact (hs rfl).head
  | some found =>
      obtain ⟨gap, arguments⟩ := found
      have hopen : ∀ c ∈ (cellsOf (gap ++ .code '(' :: (arguments ++ [.code ')'])) ++ s).head?,
          c ∈ cellsOf gap ∨ c.masked = '(' := by
        intro c hc
        rw [cellsOf_append, cellsOf_code] at hc
        cases hcells : cellsOf gap with
        | nil =>
            rw [hcells] at hc
            obtain rfl := Option.some.inj hc
            exact .inr rfl
        | cons d cells =>
            rw [hcells] at hc
            obtain rfl := Option.some.inj hc
            exact .inl List.mem_cons_self
      intro c hc
      rcases hopen c hc with hblank | hparen
      · exact isNameChar_of_isBlank (IsGap.isBlank hgap c hblank)
      · rw [hparen]
        decide

/-- What is taken behind the name of an annotation. -/
theorem arguments?_afterName {name : List Char} {arguments : Option (List Lexeme × List Lexeme)}
    (hgap : IsGap (Item.annot name arguments).gap) (hplain : (Item.annot name arguments).IsPlain)
    {s : List Cell} (hs : arguments = none → Clear s) :
    (arguments? (afterName arguments s)).getD ([], afterName arguments s) =
      (cellsOf (Item.annot name arguments).arguments, s) := by
  cases arguments with
  | none => rw [afterName, arguments?_of_clear (hs rfl)]; rfl
  | some found =>
      exact congrArg (fun taken => Option.getD taken ([], afterName (some found) s))
        (arguments?_of_flat hgap hplain.1 s)

/-- Every modifier and every word that starts a type head starts with a letter. -/
theorem exists_letter {word : List Char} (h : word ∈ modifierWords ∨ word ∈ kindWords) :
    ∃ c rest, word = c :: rest ∧ Text.isWord c = true ∧ Text.isBlank c = false ∧ c ≠ '@' ∧ c ≠ '(' := by
  have hall : ∀ word ∈ modifierWords ++ kindWords, word.head?.any Text.isWord = true := by
    decide +kernel
  have hword := hall word (List.mem_append.mpr h)
  cases word with
  | nil => cases hword
  | cons c rest =>
      have hletter : Text.isWord c = true := hword
      exact ⟨c, rest, rfl, hletter, isBlank_of_isWord hletter, ne_of_holds hletter (by decide),
        ne_of_holds hletter (by decide)⟩

/-- **An item is taken as it is written.** -/
theorem exists_afterModifier_item {gap : List Lexeme} {item : Item} (hgap : IsGap gap)
    (hitem : item.IsFormed) (hplain : item.IsPlain) {s : List Cell}
    (hs : item.endsInWord = true → Clear s) :
    ∃ more, afterModifier (cellsOf gap ++ (cellsOf item.lexemes ++ s)) = s :: more := by
  unfold afterModifier
  rw [skipBlanks_gap hgap]
  cases item with
  | word w =>
      have hmem := hitem.word
      obtain ⟨c, rest, rfl, -, hblank, hat, -⟩ := exists_letter (.inl hmem)
      have hapart : ∀ word ∈ modifierWords, Apart modifierWords word := by decide +kernel
      have htaken := afterAny?_of_mem (hapart _ hmem) hmem s
      rw [List.map_cons, cellsOf_code, List.cons_append] at htaken
      rw [Item.lexemes, List.map_cons, cellsOf_code, List.cons_append,
        skipBlanks_cons (c := ⟨c, c⟩) hblank]
      simp only [if_neg hat, htaken]
      exact ⟨[], rfl⟩
  | annot name arguments =>
      have hs' : arguments = none → Clear s := fun hnone => hs (by rw [hnone]; rfl)
      have hcells := cellsOf_map_code_ne_nil hitem.name.1
      have hname : ∀ c ∈ name, isNameChar c = true := hplain.2
      have hrest :
          ((arguments? (afterName arguments s)).map (·.2)).getD (afterName arguments s) = s := by
        have htaken := congrArg Prod.snd (arguments?_afterName hitem.gap hplain hs')
        cases hargs : arguments? (afterName arguments s) with
        | none =>
            rw [hargs] at htaken
            exact htaken
        | some found =>
            rw [hargs] at htaken
            exact htaken
      rw [cellsOf_annot, skipBlanks_cons (by decide)]
      simp only [if_true]
      unfold afterAnnotation
      rw [takeWhile_name hname (head?_afterName hitem.gap hs')]
      dsimp only
      rw [if_neg (by simpa using hcells), List.drop_left, hrest]
      exact ⟨_, rfl⟩

/-- An annotation ends before another, with a gap or without one. -/
theorem clear_gap_at {gap : List Lexeme} (h : IsGap gap) (s : List Cell) :
    Clear (cellsOf gap ++ ⟨'@', '@'⟩ :: s) := by
  have hskip : ∀ c ∈ (skipBlanks (⟨'@', '@'⟩ :: s)).head?, c.masked ≠ '(' := by
    rw [skipBlanks_cons (by decide)]
    rintro c hc
    obtain rfl := Option.some.inj hc
    decide
  by_cases hne : gap = []
  · subst hne
    refine ⟨?_, hskip⟩
    rintro c hc
    obtain rfl := Option.some.inj hc
    decide
  · exact clear_gap h hne hskip

/-- An annotation ends before a gap with nothing behind it. -/
theorem clear_gap_end {gap : List Lexeme} (h : IsGap gap) : Clear (cellsOf gap) := by
  by_cases hne : gap = []
  · subst hne
    exact ⟨fun c hc => (by cases hc), fun c hc => (by cases hc)⟩
  · rw [← List.append_nil (cellsOf gap)]
    exact clear_gap h hne fun c hc => (by cases hc)

/-- What follows a word is clear, if it is items that are spaced and then something clear. -/
theorem clear_items {items : List (List Lexeme × Item)} {joined : Bool} {s : List Cell}
    (hitems : ∀ p ∈ items, IsGap p.1 ∧ p.2.IsFormed) (hspaced : Spaced joined items)
    (hs : joinedAfter joined items = true → Clear s) (hjoined : joined = true) :
    Clear (cellsOf (written items) ++ s) := by
  cases items with
  | nil => exact hs hjoined
  | cons p items =>
      obtain ⟨gap, item⟩ := p
      obtain ⟨hgap, hitem⟩ := hitems _ List.mem_cons_self
      rw [written_cons, cellsOf_append, cellsOf_append, List.append_assoc, List.append_assoc]
      cases item with
      | word w =>
          obtain ⟨c, rest, rfl, -, hblank, -, hparen⟩ := exists_letter (.inl (hitem.word))
          refine clear_gap hgap (hspaced.1 hjoined rfl) ?_
          rw [Item.lexemes, List.map_cons, cellsOf_code, List.cons_append,
            skipBlanks_cons (c := ⟨c, c⟩) hblank]
          rintro d hd
          obtain rfl := Option.some.inj hd
          exact hparen
      | annot name arguments =>
          rw [cellsOf_annot]
          exact clear_gap_at hgap _

/-- No item is empty. -/
theorem length_le_written {items : List (List Lexeme × Item)} (hitems : ∀ p ∈ items, p.2.IsFormed) :
    items.length ≤ (cellsOf (written items)).length := by
  induction items with
  | nil => exact Nat.le_refl 0
  | cons p items ih =>
      obtain ⟨gap, item⟩ := p
      have hitem : 0 < (cellsOf item.lexemes).length := by
        cases item with
        | word w =>
            obtain ⟨c, rest, rfl, -⟩ := exists_letter (.inl (hitems _ List.mem_cons_self).word)
            exact Nat.succ_pos _
        | annot name arguments =>
            have hcells := congrArg List.length (cellsOf_annot name arguments [])
            rw [List.append_nil] at hcells
            rw [hcells]
            exact Nat.succ_pos _
      have hrest := ih fun p hp => hitems p (List.mem_cons_of_mem _ hp)
      simp only [written_cons, cellsOf_append, List.length_append, List.length_cons]
      omega

/-- **The type head behind items is the one that is found.** -/
theorem typeHeadWithin_items {items : List (List Lexeme × Item)} {joined : Bool} {s : List Cell}
    (hitems : ∀ p ∈ items, IsGap p.1 ∧ p.2.IsFormed) (hplain : ∀ p ∈ items, p.2.IsPlain)
    (hspaced : Spaced joined items) (hs : joinedAfter joined items = true → Clear s)
    (hend : afterModifier s = []) {head : TypeHead} (hhead : typeHeadAt? s = some head) {count : Nat}
    (hcount : items.length ≤ count) :
    typeHeadWithin count (cellsOf (written items) ++ s) = some head := by
  induction items generalizing joined count with
  | nil =>
      cases count with
      | zero => exact hhead
      | succ count =>
          rw [written_nil, cellsOf_nil, List.nil_append, typeHeadWithin, hend]
          exact hhead
  | cons p items ih =>
      obtain ⟨gap, item⟩ := p
      obtain ⟨hgap, hitem⟩ := hitems _ List.mem_cons_self
      obtain ⟨-, hrest⟩ := hspaced
      obtain ⟨count, rfl⟩ : ∃ n, count = n + 1 := ⟨count - 1, by rw [List.length_cons] at hcount; omega⟩
      have hitems' : ∀ p ∈ items, IsGap p.1 ∧ p.2.IsFormed := fun p hp =>
        hitems p (List.mem_cons_of_mem _ hp)
      obtain ⟨more, htaken⟩ := exists_afterModifier_item hgap hitem (hplain _ List.mem_cons_self)
        (clear_items hitems' hrest hs)
      have hfound := ih hitems' (fun p hp => hplain p (List.mem_cons_of_mem _ hp)) hrest hs
        (Nat.le_of_succ_le_succ hcount)
      rw [written_cons, cellsOf_append, cellsOf_append, List.append_assoc, List.append_assoc,
        typeHeadWithin, htaken, List.findSome?_cons, hfound]
      rfl

/-- Items and a gap hold nothing but modifiers. -/
theorem isModifiersWithin_items {items : List (List Lexeme × Item)} {joined : Bool} {gap : List Lexeme}
    (hitems : ∀ p ∈ items, IsGap p.1 ∧ p.2.IsFormed) (hplain : ∀ p ∈ items, p.2.IsPlain)
    (hspaced : Spaced joined items) (hgap : IsGap gap) {count : Nat} (hcount : items.length ≤ count) :
    isModifiersWithin count (cellsOf (written items) ++ cellsOf gap) = true := by
  have hblank : (skipBlanks (cellsOf gap)).isEmpty = true := by
    have hskip := skipBlanks_gap hgap []
    rw [List.append_nil] at hskip
    rw [hskip]
    rfl
  induction items generalizing joined count with
  | nil =>
      cases count with
      | zero => exact hblank
      | succ count => exact Bool.or_eq_true_iff.mpr (.inl hblank)
  | cons p items ih =>
      obtain ⟨gap', item⟩ := p
      obtain ⟨hgap', hitem⟩ := hitems _ List.mem_cons_self
      obtain ⟨-, hrest⟩ := hspaced
      obtain ⟨count, rfl⟩ : ∃ n, count = n + 1 := ⟨count - 1, by rw [List.length_cons] at hcount; omega⟩
      have hitems' : ∀ p ∈ items, IsGap p.1 ∧ p.2.IsFormed := fun p hp =>
        hitems p (List.mem_cons_of_mem _ hp)
      obtain ⟨more, htaken⟩ := exists_afterModifier_item hgap' hitem (hplain _ List.mem_cons_self)
        (clear_items hitems' hrest fun _ => clear_gap_end hgap)
      have hfound := ih hitems' (fun p hp => hplain p (List.mem_cons_of_mem _ hp)) hrest
        (Nat.le_of_succ_le_succ hcount)
      rw [written_cons, cellsOf_append, cellsOf_append, List.append_assoc, List.append_assoc,
        isModifiersWithin, htaken, List.any_cons, hfound, Bool.true_or, Bool.or_true]

/-! ## Braces -/

theorem balanced_gap {gap : List Lexeme} (h : IsGap gap) : Balanced '{' '}' (maskedOf gap) :=
  balanced_of_forall fun c hc =>
    ⟨ne_of_holds (h.isBlank_masked c hc) (by decide), ne_of_holds (h.isBlank_masked c hc) (by decide)⟩

theorem Item.IsFormed.balanced {item : Item} (h : item.IsFormed) :
    Balanced '{' '}' (maskedOf item.lexemes) := by
  cases item with
  | word w =>
      have hwords : ∀ word ∈ modifierWords, Balanced '{' '}' word := by decide +kernel
      rw [Item.lexemes, maskedOf_map_code]
      exact hwords w h.word
  | annot name arguments =>
      have hname : Balanced '{' '}' ('@' :: name) := balanced_of_forall fun c hc => by
        rcases List.mem_cons.mp hc with rfl | hc
        · decide
        · have hchar := h.name.2 c hc
          exact ⟨ne_of_holds hchar (by decide), ne_of_holds hchar (by decide)⟩
      cases arguments with
      | none =>
          rw [Item.lexemes, maskedOf_code, maskedOf_map_code]
          exact hname
      | some found =>
          obtain ⟨gap, arguments⟩ := found
          have hclosing : Balanced '{' '}' [')'] := by decide
          have hopening : Balanced '{' '}' ['('] := by decide
          have harguments : Balanced '{' '}' (maskedOf arguments) := h.braces
          have hlist := hopening.append (harguments.append hclosing)
          rw [Item.lexemes, maskedOf_code, maskedOf_append, maskedOf_map_code, maskedOf_append,
            maskedOf_code, maskedOf_append, ← List.cons_append]
          exact hname.append ((balanced_gap h.gap).append hlist)

/-- Braces are balanced in items, as they are in their argument lists. -/
theorem balanced_written {items : List (List Lexeme × Item)}
    (hitems : ∀ p ∈ items, IsGap p.1 ∧ p.2.IsFormed) : Balanced '{' '}' (maskedOf (written items)) := by
  induction items with
  | nil => rfl
  | cons p items ih =>
      obtain ⟨gap, item⟩ := p
      obtain ⟨hgap, hitem⟩ := hitems _ List.mem_cons_self
      rw [written_cons, maskedOf_append, maskedOf_append]
      exact (balanced_gap hgap).append
        (hitem.balanced.append (ih fun p hp => hitems p (List.mem_cons_of_mem _ hp)))

end TextProviders.Source
