import TextProviders.Proofs.Source.Marked

/-!
# The visibility of a marked type

The words that stand free in modifiers and annotations are the modifiers themselves and what stands free
in the argument lists (`freeWords_items`).  Access keywords are reserved, so they stand in no argument
list, and the visibility that some items state is that of the one that is an access keyword
(`visibilityOf_eq`).

What stands before the marker is looked for backwards, to the last semicolon or brace.  An argument list
may hold one, and then the search ends inside it: what follows its annotation is taken, and what stands
before that annotation is not (`leading_mark_of_cuts`).  So a marked type has the visibility that its
modifiers state if, and only if, no such annotation stands between an access keyword and the marker
(`visibility_of_marked_type`).
-/

namespace TextProviders.Source

/-! ## Words that stand free -/

section

variable {s t : List Char}

/-- Words that stand free end before something that is no part of a word, and start anew behind it. -/
theorem freeWords_append (h : ∀ c ∈ t.head?, Text.isWord c = false) (free : Bool) :
    freeWords free (s ++ t) = freeWords free s ++ freeWords true t := by
  have htaken (s : List Char) : (s ++ t).takeWhile Text.isWord = s.takeWhile Text.isWord := by
    have hnone : t.takeWhile Text.isWord = [] := by
      cases t with
      | nil => rfl
      | cons c t => simp [h c rfl]
    induction s with
    | nil => exact hnone
    | cons c s ih => rw [List.cons_append, List.takeWhile_cons, List.takeWhile_cons, ih]
  induction s generalizing free with
  | nil =>
      cases t with
      | nil => rfl
      | cons c t => simp [freeWords, h c rfl]
  | cons c s ih =>
      rw [List.cons_append, freeWords, freeWords, htaken, ih, ih]
      split
      · split
        · rfl
        · rfl
      · rfl

theorem freeWords_append_cons {c : Char} (h : Text.isWord c = false) (free : Bool) :
    freeWords free (s ++ c :: t) = freeWords free s ++ freeWords (c ≠ '@' && c ≠ '.') t := by
  rw [freeWords_append (by rintro d hd; obtain rfl := Option.some.inj hd; exact h), freeWords,
    if_neg (by simp [h])]

/-- No word stands free in the name of an annotation. -/
theorem freeWords_name {name : List Char} (h : ∀ c ∈ name, isNameChar c = true) (s : List Char) :
    freeWords false (name ++ s) = freeWords false s := by
  induction name with
  | nil => rfl
  | cons c name ih =>
      have hrest := ih fun d hd => h d (List.mem_cons_of_mem _ hd)
      rw [List.cons_append, freeWords]
      by_cases hc : Text.isWord c = true
      · rw [if_pos hc]
        exact hrest
      · have hname : isNameChar c = true := h c List.mem_cons_self
        have hdot : c = '.' := by simpa [isNameChar, hc] using hname
        rw [if_neg hc, hdot]
        exact hrest

end

theorem isWord_of_isBlank {c : Char} (h : Text.isBlank c = true) : Text.isWord c = false := by
  have hname := isNameChar_of_isBlank h
  rw [isNameChar, Bool.or_eq_false_iff] at hname
  exact hname.1

/-- Behind a blank a word stands free. -/
theorem freeWords_blanks {s : List Char} (h : ∀ c ∈ s, Text.isBlank c = true) {free : Bool}
    (hfree : free = true ∨ s ≠ []) (t : List Char) : freeWords free (s ++ t) = freeWords true t := by
  induction s generalizing free with
  | nil =>
      obtain rfl := hfree.resolve_right fun hne => hne rfl
      rfl
  | cons c s ih =>
      have hblank := h c List.mem_cons_self
      have hflag : (c ≠ '@' && c ≠ '.') = true := by
        rw [Bool.and_eq_true, decide_eq_true_eq, decide_eq_true_eq]
        exact ⟨ne_of_holds hblank (by decide), ne_of_holds hblank (by decide)⟩
      rw [List.cons_append, freeWords, if_neg (by simp [isWord_of_isBlank hblank]), hflag]
      exact ih (fun d hd => h d (List.mem_cons_of_mem _ hd)) (.inl rfl)

theorem freeWords_gap {gap : List Lexeme} (hgap : IsGap gap) (free : Bool) :
    freeWords free (maskedOf gap) = [] := by
  have hmasked := hgap.isBlank_masked
  cases hchars : maskedOf gap with
  | nil => rfl
  | cons c rest =>
      rw [hchars] at hmasked
      have hblanks : freeWords free (c :: rest ++ []) = freeWords true [] :=
        freeWords_blanks hmasked (.inr (List.cons_ne_nil c rest)) []
      rwa [List.append_nil] at hblanks

/-- The words that stand free in an item. -/
def Item.freeWords : Item → List (List Char)
  | .word w => Source.freeWords true w
  | .annot name arguments => Source.freeWords true (maskedOf (annot name arguments).arguments)

/-- The words that stand free in an item stand free where it is written. -/
theorem freeWords_item {gap : List Lexeme} {item : Item} {rest : List Char} {free : Bool}
    (hgap : IsGap gap) (hitem : item.IsFormed) (hplain : item.IsPlain)
    (hfree : item.isWord = true → free = true ∨ gap ≠ [])
    (hrest : item.endsInWord = true → ∀ c ∈ rest.head?, Text.isWord c = false) :
    freeWords free (maskedOf gap ++ (maskedOf item.lexemes ++ rest)) =
      item.freeWords ++ freeWords true rest := by
  cases item with
  | word w =>
      have hblanks : free = true ∨ maskedOf gap ≠ [] := by
        refine (hfree rfl).imp_right fun hne hnil => ?_
        exact hgap.cellsOf_ne_nil hne (List.map_eq_nil_iff.mp hnil)
      rw [freeWords_blanks hgap.isBlank_masked hblanks, Item.lexemes, maskedOf_map_code,
        freeWords_append (hrest rfl)]
      rfl
  | annot name arguments =>
      have hname : ∀ c ∈ name, isNameChar c = true := hplain.2
      have hat : Text.isWord '@' = false := by decide
      cases arguments with
      | none =>
          have hend : freeWords false rest = freeWords true rest :=
            freeWords_append (s := []) (hrest rfl) false
          rw [Item.lexemes, maskedOf_code, List.cons_append, freeWords_append_cons hat,
            freeWords_gap hgap, maskedOf_map_code]
          exact (freeWords_name hname _).trans hend
      | some found =>
          obtain ⟨gap', arguments⟩ := found
          have hgap' : IsGap gap' := hitem.gap
          have hopening : Text.isWord '(' = false := by decide
          have hclosing : Text.isWord ')' = false := by decide
          have hlist : maskedOf (Item.annot name (some (gap', arguments))).lexemes ++ rest =
              '@' :: (name ++ (maskedOf gap' ++ '(' :: (maskedOf arguments ++ ')' :: rest))) := by
            simp [Item.lexemes]
          rw [hlist, freeWords_append_cons hat, freeWords_gap hgap, List.nil_append]
          refine (freeWords_name hname _).trans ?_
          rw [freeWords_append_cons hopening, freeWords_gap hgap', List.nil_append,
            freeWords_append_cons hclosing]
          rfl

/-- **The words that stand free in items** are those of each of them. -/
theorem freeWords_items {items : List (List Lexeme × Item)} {joined : Bool} {gap : List Lexeme}
    (hitems : ∀ p ∈ items, IsGap p.1 ∧ p.2.IsFormed) (hplain : ∀ p ∈ items, p.2.IsPlain)
    (hspaced : Spaced joined items) (hgap : IsGap gap) {free : Bool}
    (hfree : joined = false → free = true) :
    freeWords free (maskedOf (written items ++ gap)) = items.flatMap fun p => p.2.freeWords := by
  induction items generalizing joined free with
  | nil => exact freeWords_gap hgap free
  | cons p items ih =>
      obtain ⟨gap', item⟩ := p
      obtain ⟨hgap', hitem⟩ := hitems _ List.mem_cons_self
      obtain ⟨hfirst, hrest⟩ := hspaced
      have hitems' : ∀ p ∈ items, IsGap p.1 ∧ p.2.IsFormed := fun p hp =>
        hitems p (List.mem_cons_of_mem _ hp)
      have hfree' : item.isWord = true → free = true ∨ gap' ≠ [] := fun hword => by
        cases joined with
        | false => exact .inl (hfree rfl)
        | true => exact .inr (hfirst rfl hword)
      have hend : item.endsInWord = true →
          ∀ c ∈ (maskedOf (written items ++ gap)).head?, Text.isWord c = false := by
        intro hjoined c hc
        have hclear := clear_items hitems' hrest (fun _ => clear_gap_end hgap) hjoined
        rw [maskedOf, cellsOf_append, List.head?_map] at hc
        obtain ⟨d, hd, rfl⟩ := Option.map_eq_some_iff.mp hc
        have hname := hclear.head d hd
        rw [isNameChar, Bool.or_eq_false_iff] at hname
        exact hname.1
      rw [List.flatMap_cons, written_cons, List.append_assoc, List.append_assoc, maskedOf_append,
        maskedOf_append, freeWords_item hgap' hitem (hplain _ List.mem_cons_self) hfree' hend,
        ih hitems' (fun p hp => hplain p (List.mem_cons_of_mem _ hp)) hrest fun _ => rfl]

/-! ## Access keywords -/

/-- The levels that a modifier states. -/
def accessLevels : List Visibility :=
  [.everyone, .subtypes, .enclosing]

/-- The level that an item states. -/
def Item.access? : Item → Option Visibility
  | .word w => accessLevels.find? fun level => level.word.toList = w
  | .annot _ _ => none

/-- Access keywords are reserved: none stands free in an argument list. -/
def Item.KeepsReserved (item : Item) : Prop :=
  ∀ level ∈ accessLevels, level.word.toList ∉ Source.freeWords true (maskedOf item.arguments)

instance (item : Item) : Decidable item.KeepsReserved :=
  inferInstanceAs (Decidable (∀ level ∈ accessLevels, _))

/-- The levels that some items state, in order. -/
def accesses (items : List (List Lexeme × Item)) : List Visibility :=
  items.filterMap fun p => p.2.access?

theorem accesses_append (items more : List (List Lexeme × Item)) :
    accesses (items ++ more) = accesses items ++ accesses more :=
  List.filterMap_append

theorem accesses_cons (p : List Lexeme × Item) (items : List (List Lexeme × Item)) :
    accesses (p :: items) = p.2.access?.toList ++ accesses items := by
  cases haccess : p.2.access? with
  | none => exact List.filterMap_cons_none haccess
  | some level => exact List.filterMap_cons_some haccess

/-- The visibility of a type with some modifiers: the level that the first access keyword states. -/
def statedBy (items : List (List Lexeme × Item)) : Visibility :=
  (accesses items).head?.getD .package

theorem mem_freeWords_iff {item : Item} (h : item.IsFormed) (hreserved : item.KeepsReserved)
    {level : Visibility} (hlevel : level ∈ accessLevels) :
    level.word.toList ∈ item.freeWords ↔ item.access? = some level := by
  cases item with
  | word w =>
      have hall : ∀ w ∈ modifierWords, ∀ level ∈ accessLevels,
          level.word.toList ∈ freeWords true w ↔ (Item.word w).access? = some level := by
        decide +kernel
      exact hall w h.word level hlevel
  | annot name arguments => exact iff_of_false (hreserved level hlevel) fun h => (by cases h)

theorem mem_accessLevels {items : List (List Lexeme × Item)} {level : Visibility}
    (h : level ∈ accesses items) : level ∈ accessLevels := by
  obtain ⟨p, -, hp⟩ := List.mem_filterMap.mp h
  cases hitem : p.2 with
  | word w =>
      rw [hitem, Item.access?] at hp
      exact List.mem_of_find?_eq_some hp
  | annot name arguments =>
      rw [hitem] at hp
      cases hp

/-- **The visibility that a text states** is that of its only access keyword. -/
theorem visibilityOf_eq {text : List Char} {items : List (List Lexeme × Item)}
    (hitems : ∀ p ∈ items, p.2.IsFormed ∧ p.2.KeepsReserved)
    (htext : freeWords true text = items.flatMap fun p => p.2.freeWords)
    (hone : (accesses items).length ≤ 1) : visibilityOf text = statedBy items := by
  have hstates : ∀ level ∈ accessLevels,
      (freeWords true text).contains level.word.toList = decide (level ∈ accesses items) := by
    intro level hlevel
    rw [Bool.eq_iff_iff, List.contains_iff_mem, decide_eq_true_eq, htext, List.mem_flatMap, accesses,
      List.mem_filterMap]
    exact exists_congr fun p => and_congr_right fun hp =>
      mem_freeWords_iff (hitems p hp).1 (hitems p hp).2 hlevel
  have hlevels : ∀ level ∈ accesses items, level ∈ accessLevels := fun _ => mem_accessLevels
  simp only [visibilityOf, statedBy, hstates .everyone (by decide), hstates .subtypes (by decide),
    hstates .enclosing (by decide)]
  generalize accesses items = found at hone hlevels
  cases found with
  | nil => rfl
  | cons level found =>
      obtain rfl : found = [] := List.length_eq_zero_iff.mp (by rw [List.length_cons] at hone; omega)
      have hlevel : level = .everyone ∨ level = .subtypes ∨ level = .enclosing := by
        simpa [accessLevels] using hlevels level List.mem_cons_self
      rcases hlevel with rfl | rfl | rfl
      · rfl
      · rfl
      · rfl

/-! ## What is found before the marker -/

/-- The argument list of an item holds a semicolon or a brace. -/
def Item.Cuts (item : Item) : Prop :=
  ∃ c ∈ maskedOf item.arguments, c ∈ [';', '{', '}']

instance (item : Item) : Decidable item.Cuts :=
  List.decidableBEx (fun c => c ∈ [';', '{', '}']) (maskedOf item.arguments)

/-- No semicolon and no brace in an argument list stands between an access keyword and what follows some
items. -/
def AccessInReach (items : List (List Lexeme × Item)) : Prop :=
  items.Pairwise fun p q => q.2.Cuts → p.2.access? = none

instance (items : List (List Lexeme × Item)) : Decidable (AccessInReach items) :=
  inferInstanceAs (Decidable (items.Pairwise _))

/-- The last place with some property. -/
theorem exists_last {α : Type} {p : α → Prop} {l : List α} (h : ∃ x ∈ l, p x) :
    ∃ before x after, l = before ++ x :: after ∧ p x ∧ ∀ y ∈ after, ¬ p y := by
  induction l with
  | nil =>
      obtain ⟨x, hx, -⟩ := h
      cases hx
  | cons y l ih =>
      by_cases hl : ∃ x ∈ l, p x
      · obtain ⟨before, x, after, rfl, hx, hafter⟩ := ih hl
        exact ⟨y :: before, x, after, rfl, hx, hafter⟩
      · obtain ⟨x, hx, hpx⟩ := h
        have hnone : ∀ x ∈ l, ¬ p x := fun x hx hpx => hl ⟨x, hx, hpx⟩
        rcases List.mem_cons.mp hx with rfl | hx
        · exact ⟨[], x, l, rfl, hpx, hnone⟩
        · exact absurd hpx (hnone x hx)

theorem IsGap.not_mem_cuts {gap : List Lexeme} (h : IsGap gap) :
    ∀ c ∈ maskedOf gap, c ∉ [';', '{', '}'] := by
  have hall : ∀ d ∈ [';', '{', '}'], Text.isBlank d = false := by decide
  intro c hc hmem
  have hblank := h.isBlank_masked c hc
  rw [hall c hmem] at hblank
  cases hblank

/-- An item holds no semicolon and no brace but in its argument list. -/
theorem Item.IsFormed.not_mem_cuts {item : Item} (h : item.IsFormed) (hcuts : ¬ item.Cuts) :
    ∀ c ∈ maskedOf item.lexemes, c ∉ [';', '{', '}'] := by
  have hname {c : Char} (hc : isIdentifierChar c = true) : c ∉ [';', '{', '}'] := fun hmem => by
    have hall : ∀ d ∈ [';', '{', '}'], isIdentifierChar d = false := by decide
    rw [hall c hmem] at hc
    cases hc
  have hwords : ∀ w ∈ modifierWords, ∀ c ∈ w, c ∉ [';', '{', '}'] := by decide +kernel
  cases item with
  | word w =>
      rw [Item.lexemes, maskedOf_map_code]
      exact hwords w h.word
  | annot name arguments =>
      have hat : '@' ∉ [';', '{', '}'] := by decide
      have hnamed : ∀ c ∈ name, c ∉ [';', '{', '}'] := fun c hc => hname (h.name.2 c hc)
      cases arguments with
      | none =>
          rw [Item.lexemes, maskedOf_code, maskedOf_map_code, List.forall_mem_cons]
          exact ⟨hat, hnamed⟩
      | some found =>
          obtain ⟨gap, arguments⟩ := found
          have hinside : ∀ c ∈ maskedOf arguments, c ∉ [';', '{', '}'] := fun c hc hmem =>
            hcuts ⟨c, hc, hmem⟩
          simp only [Item.lexemes, maskedOf_code, maskedOf_append, maskedOf_map_code,
            List.forall_mem_cons, List.forall_mem_append]
          exact ⟨hat, hnamed, IsGap.not_mem_cuts h.gap, by decide, hinside, by decide,
            fun c hc => (by cases hc)⟩

theorem not_mem_cuts_written {items : List (List Lexeme × Item)}
    (hitems : ∀ p ∈ items, IsGap p.1 ∧ p.2.IsFormed) (hcuts : ∀ p ∈ items, ¬ p.2.Cuts)
    {gap : List Lexeme} (hgap : IsGap gap) :
    ∀ c ∈ cellsOf (written items ++ gap), c.masked ∉ [';', '{', '}'] := by
  have hmasked : ∀ c ∈ maskedOf (written items ++ gap), c ∉ [';', '{', '}'] := by
    rw [maskedOf_append, List.forall_mem_append]
    refine ⟨?_, hgap.not_mem_cuts⟩
    induction items with
    | nil => exact fun c hc => (by cases hc)
    | cons p items ih =>
        obtain ⟨gap', item⟩ := p
        obtain ⟨hgap', hitem⟩ := hitems _ List.mem_cons_self
        rw [written_cons, maskedOf_append, maskedOf_append, List.forall_mem_append,
          List.forall_mem_append]
        exact ⟨hgap'.not_mem_cuts, hitem.not_mem_cuts (hcuts _ List.mem_cons_self),
          ih (fun p hp => hitems p (List.mem_cons_of_mem _ hp))
            fun p hp => hcuts p (List.mem_cons_of_mem _ hp)⟩
  exact fun c hc => hmasked _ (List.mem_map_of_mem hc)

/-- What is taken backwards from some cells starts behind the last one that is not to be taken. -/
theorem takeWhile_reverse {p : Cell → Bool} {a b : List Cell} (hb : ∀ c ∈ b, p c = true)
    (ha : ∀ c ∈ a.getLast?, p c = false) :
    ((a ++ b).reverse.takeWhile p).reverse = b := by
  have hnone : a.reverse.takeWhile p = [] := takeWhile_of_head? (by rwa [List.head?_reverse])
  rw [List.reverse_append, List.takeWhile_append_of_pos (by simpa using hb), hnone, List.append_nil,
    List.reverse_reverse]

/-- No modifiers start before a stop. -/
theorem trailingModifiers_append {a b : List Cell} (ha : Closes a) (hb : Stops b) :
    trailingModifiers (a ++ b) = trailingModifiers b := by
  induction a with
  | nil => rfl
  | cons c a ih =>
      have hnone : isModifiers (c :: a ++ b) = false := isModifiersWithin_append _ ha hb
      rw [List.cons_append] at hnone ⊢
      rw [trailingModifiers, if_neg (by simp [hnone])]
      exact ih (ha.of_suffix (List.suffix_cons c a))

/-- Nor do they start at one. -/
theorem trailingModifiers_cons {c : Cell} {s : List Cell} (hc : isStop c.masked = true) :
    trailingModifiers (c :: s) = trailingModifiers s := by
  have hnone : isModifiers ([] ++ c :: s) = false :=
    isModifiersWithin_append _ (closes_of_balanced (by decide)) ⟨c, s, rfl, hc⟩
  exact if_neg (by simpa using hnone)

theorem trailingModifiers_of_isModifiers {s : List Cell} (h : isModifiers s = true) :
    trailingModifiers s = s := by
  cases s with
  | nil => rfl
  | cons c s => exact if_pos h

/-- Items and a gap are taken whole. -/
theorem trailingModifiers_items {items : List (List Lexeme × Item)} {joined : Bool} {gap : List Lexeme}
    (hitems : ∀ p ∈ items, IsGap p.1 ∧ p.2.IsFormed) (hplain : ∀ p ∈ items, p.2.IsPlain)
    (hspaced : Spaced joined items) (hgap : IsGap gap) :
    trailingModifiers (cellsOf (written items ++ gap)) = cellsOf (written items ++ gap) := by
  refine trailingModifiers_of_isModifiers ?_
  rw [isModifiers, cellsOf_append]
  refine isModifiersWithin_items hitems hplain hspaced hgap ?_
  rw [List.length_append]
  exact (length_le_written fun p hp => (hitems p hp).2).trans (Nat.le_add_right _ _)

/-- The argument list of an item that holds a semicolon or a brace, and the last one in it. -/
theorem exists_cut {item : Item} (h : item.Cuts) :
    ∃ opening c inside, cellsOf item.lexemes = opening ++ c :: (inside ++ [⟨')', ')'⟩]) ∧
      c.masked ∈ [';', '{', '}'] ∧ (∀ d ∈ inside, d.masked ∉ [';', '{', '}']) ∧
      inside <:+ cellsOf item.arguments := by
  cases item with
  | word w =>
      obtain ⟨c, hc, -⟩ := h
      cases hc
  | annot name arguments =>
      cases arguments with
      | none =>
          obtain ⟨c, hc, -⟩ := h
          cases hc
      | some found =>
          obtain ⟨gap, arguments⟩ := found
          have hlast : ∃ c ∈ cellsOf arguments, c.masked ∈ [';', '{', '}'] := by
            obtain ⟨c, hc, hcut⟩ := h
            obtain ⟨d, hd, rfl⟩ := List.mem_map.mp hc
            exact ⟨d, hd, hcut⟩
          obtain ⟨before, c, inside, harguments, hcut, hinside⟩ := exists_last hlast
          refine ⟨⟨'@', '@'⟩ :: (cellsOf (name.map .code) ++ (cellsOf gap ++ ⟨'(', '('⟩ :: before)), c,
            inside, ?_, hcut, hinside, ?_⟩
          · simp [Item.lexemes, harguments]
          · exact ⟨before ++ [c], by simp [Item.arguments, harguments]⟩

section

variable {t : MarkedType} (ht : t.IsWellFormed) (hplain : ∀ p ∈ t.before, p.2.IsPlain)
include ht hplain

/-- If no argument list holds a semicolon or a brace, all that stands before the marker is found. -/
theorem leading_mark (hcuts : ∀ p ∈ t.before, ¬ p.2.Cuts) :
    t.mark.leading = cellsOf (written t.before ++ t.gap) := by
  have hunit : ∀ c ∈ (cellsOf t.unit).getLast?, decide (c.masked ∉ [';', '{', '}']) = false := by
    rcases unit_cases ht with hnil | ⟨first, c, hunit, hc⟩
    · rw [hnil]
      exact fun c hc => (by cases hc)
    · rw [hunit, cellsOf_append, cellsOf_code, cellsOf_nil, List.getLast?_concat]
      rintro d hd
      obtain rfl := Option.some.inj hd
      rcases hc with rfl | rfl
      · decide
      · decide
  have htaken : ∀ c ∈ cellsOf (written t.before ++ t.gap), decide (c.masked ∉ [';', '{', '}']) = true :=
    fun c hc => decide_eq_true (not_mem_cuts_written ht.before hcuts ht.gap c hc)
  rw [Mark.leading, MarkedType.mark, MarkedType.front, cellsOf_append, takeWhile_reverse htaken hunit]
  exact trailingModifiers_items ht.before hplain (spaced_before ht) ht.gap

/-- If one does, what follows the last one that does is found. -/
theorem leading_mark_of_cuts {lost kept : List (List Lexeme × Item)} {p : List Lexeme × Item}
    (hbefore : t.before = lost ++ p :: kept) (hp : p.2.Cuts) (hkept : ∀ q ∈ kept, ¬ q.2.Cuts) :
    t.mark.leading = cellsOf (written kept ++ t.gap) := by
  have hmem {q : List Lexeme × Item} (hq : q ∈ kept) : q ∈ t.before := by
    rw [hbefore]
    exact List.mem_append_right _ (List.mem_cons_of_mem _ hq)
  have hitems : ∀ q ∈ kept, IsGap q.1 ∧ q.2.IsFormed := fun q hq => ht.before q (hmem hq)
  have hformed : p.2.IsFormed := (ht.before p (by rw [hbefore]; simp)).2
  have hspaced : Spaced p.2.endsInWord kept := by
    have hall := spaced_before ht
    rw [hbefore] at hall
    exact (spaced_append.mp hall).2.2
  obtain ⟨opening, c, inside, hlexemes, hcut, hinside, hsuffix⟩ := exists_cut hp
  have hcells : cellsOf t.front = (cellsOf t.unit ++ (cellsOf (written lost) ++ (cellsOf p.1 ++
      (opening ++ [c])))) ++ (inside ++ ⟨')', ')'⟩ :: cellsOf (written kept ++ t.gap)) := by
    obtain ⟨gap, item⟩ := p
    rw [MarkedType.front, hbefore, written_append, written_cons]
    simp only [cellsOf_append, List.append_assoc, List.cons_append, List.nil_append, hlexemes]
  have hlast : ∀ d ∈ (cellsOf t.unit ++ (cellsOf (written lost) ++ (cellsOf p.1 ++
      (opening ++ [c])))).getLast?, decide (d.masked ∉ [';', '{', '}']) = false := by
    simp only [← List.append_assoc]
    rw [List.getLast?_concat]
    rintro d hd
    obtain rfl := Option.some.inj hd
    exact decide_eq_false fun h => h hcut
  have htaken : ∀ d ∈ inside ++ ⟨')', ')'⟩ :: cellsOf (written kept ++ t.gap),
      decide (d.masked ∉ [';', '{', '}']) = true := by
    simp only [List.forall_mem_append, List.forall_mem_cons]
    exact ⟨fun d hd => decide_eq_true (hinside d hd), by decide,
      fun d hd => decide_eq_true (not_mem_cuts_written hitems hkept ht.gap d hd)⟩
  have hcloses : Closes inside := (closes_of_balanced hformed.parentheses).of_suffix hsuffix
  rw [Mark.leading, MarkedType.mark, hcells, takeWhile_reverse htaken hlast,
    trailingModifiers_append hcloses ⟨⟨')', ')'⟩, _, rfl, by decide⟩,
    trailingModifiers_cons (by decide)]
  exact trailingModifiers_items hitems (fun q hq => hplain q (hmem hq)) hspaced ht.gap

end

/-! ## The visibility of a marked type -/

namespace MarkedType

/-- The visibility that the modifiers of the type state. -/
def stated (t : MarkedType) : Visibility :=
  statedBy (t.before ++ t.after)

end MarkedType

/-- The words around the marker are those of the items that are found before it and of those after
it. -/
theorem visibility_mark {t : MarkedType} (ht : t.IsWellFormed) {found : List (List Lexeme × Item)}
    (hfound : found <:+ t.before) (hleading : t.mark.leading = cellsOf (written found ++ t.gap))
    (hbefore : ∀ p ∈ t.before, p.2.IsPlain) (hafter : ∀ p ∈ t.after, p.2.IsPlain)
    (hreserved : ∀ p ∈ t.before ++ t.after, p.2.KeepsReserved)
    (hone : (accesses (found ++ t.after)).length ≤ 1) :
    t.mark.visibility = statedBy (found ++ t.after) := by
  obtain ⟨lost, hparts⟩ := hfound
  have hmem {p : List Lexeme × Item} (hp : p ∈ found) : p ∈ t.before := by
    rw [← hparts]
    exact List.mem_append_right _ hp
  have hspaced : Spaced (joinedAfter false lost) found := by
    have hall := spaced_before ht
    rw [← hparts] at hall
    exact (spaced_append.mp hall).2
  refine visibilityOf_eq (fun p hp => ?_) ?_ hone
  · rcases List.mem_append.mp hp with hp | hp
    · exact ⟨(ht.before p (hmem hp)).2, hreserved p (List.mem_append_left _ (hmem hp))⟩
    · exact ⟨(ht.after p hp).2, hreserved p (List.mem_append_right _ hp)⟩
  · have hfirst : freeWords true (maskedOf (written found ++ t.gap)) = _ :=
      freeWords_items (fun p hp => ht.before p (hmem hp)) (fun p hp => hbefore p (hmem hp)) hspaced
        ht.gap fun _ => rfl
    have hsecond : freeWords true (maskedOf (written t.after ++ [])) = _ :=
      freeWords_items ht.after hafter (spaced_after ht).1 (fun l hl => (by cases hl)) fun _ => rfl
    rw [List.append_nil] at hsecond
    have hspace : Text.isWord ' ' = false := by decide
    rw [hleading, freeWords_append_cons hspace, List.flatMap_append]
    exact congrArg₂ _ hfirst hsecond

/-- An access keyword is in reach of the marker if it does not stand before the last cut. -/
theorem accessInReach_iff {lost kept : List (List Lexeme × Item)} {p : List Lexeme × Item}
    (hp : p.2.Cuts) (hkept : ∀ q ∈ kept, ¬ q.2.Cuts) :
    AccessInReach (lost ++ p :: kept) ↔ accesses lost = [] := by
  rw [AccessInReach, List.pairwise_append, accesses, List.filterMap_eq_nil_iff]
  constructor
  · exact fun h q hq => h.2.2 q hq p List.mem_cons_self hp
  · intro h
    refine ⟨List.pairwise_of_forall_mem_list fun q hq _ _ _ => h q hq, ?_, fun q hq _ _ _ => h q hq⟩
    rw [List.pairwise_cons]
    exact ⟨fun q hq hcuts => absurd hcuts (hkept q hq),
      List.pairwise_of_forall_mem_list fun _ _ q hq hcuts => absurd hcuts (hkept q hq)⟩

/-- **A marked type has the visibility that its modifiers state** if and only if every access keyword is
in reach of the marker. -/
theorem visibility_mark_eq_stated_iff {t : MarkedType} (ht : t.IsWellFormed)
    (hbefore : ∀ p ∈ t.before, p.2.IsPlain) (hafter : ∀ p ∈ t.after, p.2.IsPlain)
    (hreserved : ∀ p ∈ t.before ++ t.after, p.2.KeepsReserved)
    (hone : (accesses (t.before ++ t.after)).length ≤ 1) :
    t.mark.visibility = t.stated ↔ AccessInReach t.before := by
  rw [MarkedType.stated]
  by_cases hcuts : ∃ p ∈ t.before, p.2.Cuts
  · obtain ⟨lost, p, kept, hparts, hp, hkept⟩ := exists_last hcuts
    have hword : p.2.access? = none := by
      obtain ⟨c, hc, -⟩ := hp
      cases hitem : p.2 with
      | word w =>
          rw [hitem] at hc
          cases hc
      | annot name arguments => rfl
    have hall : accesses (t.before ++ t.after) = accesses lost ++ accesses (kept ++ t.after) := by
      rw [hparts, List.append_assoc, accesses_append, List.cons_append, accesses_cons, hword]
      rfl
    have hlength : (accesses lost).length + (accesses (kept ++ t.after)).length ≤ 1 := by
      rw [hall, List.length_append] at hone
      exact hone
    have hkeeps : kept <:+ t.before := ⟨lost ++ [p], by rw [hparts]; simp⟩
    have hleading := leading_mark_of_cuts ht hbefore hparts hp hkept
    rw [visibility_mark ht hkeeps hleading hbefore hafter hreserved (by omega), statedBy, statedBy, hall,
      hparts, accessInReach_iff hp hkept]
    cases hlost : accesses lost with
    | nil => exact iff_of_true rfl rfl
    | cons level more =>
        -- The keyword stands before the cut, so it is the only one and none is found.
        have hnone : accesses (kept ++ t.after) = [] := by
          rw [hlost, List.length_cons] at hlength
          exact List.length_eq_zero_iff.mp (by omega)
        have hlevel : level ∈ accessLevels := mem_accessLevels (by rw [hlost]; exact List.mem_cons_self)
        rw [hnone]
        refine iff_of_false ?_ (List.cons_ne_nil _ _)
        rintro (rfl : Visibility.package = level)
        exact absurd hlevel (by decide)
  · have hcuts : ∀ p ∈ t.before, ¬ p.2.Cuts := fun p hp h => hcuts ⟨p, hp, h⟩
    have hleading := leading_mark ht hbefore hcuts
    rw [visibility_mark ht (List.suffix_refl _) hleading hbefore hafter hreserved hone]
    refine iff_of_true rfl ?_
    exact List.pairwise_of_forall_mem_list fun _ _ q hq h => absurd h (hcuts q hq)

/-- **A marked type is reported with the visibility that its modifiers state**, wherever the marker
stands among them, unless an argument list with a semicolon or a brace stands between an access keyword
and the marker. -/
theorem visibility_of_marked_type {t : MarkedType} (ht : t.IsWellFormed) (hplain : t.markerItem.IsPlain)
    (hbefore : ∀ p ∈ t.before, p.2.IsPlain) (hafter : ∀ p ∈ t.after, p.2.IsPlain)
    (hreserved : ∀ p ∈ t.before ++ t.after, p.2.KeepsReserved)
    (hone : (accesses (t.before ++ t.after)).length ≤ 1)
    (hmembers : ∀ m ∈ topMarks t.text.toList, ∃ b, parseMembers (m.arguments.map Cell.code) = .ok b) :
    ∃ ds, declarations t.text = .ok ds ∧
      ∃ d ∈ ds, d.name = qualify (packageOf (masked t.text.toList)) t.name ∧
        (d.visibility = t.stated ↔ AccessInReach t.before) := by
  rcases declarations_cases t.text with ⟨fault, -, m, hm, f, hf⟩ | ⟨ds, hds, hall⟩
  · obtain ⟨b, hb⟩ := hmembers m hm
    cases hf.symm.trans hb
  · obtain ⟨d, hd, hdeclares⟩ := exists_declares_of_mem hall (mark_mem_topMarks ht hplain hafter)
    refine ⟨ds, hds, d, hd, hdeclares.name, ?_⟩
    rw [hdeclares.visibility]
    exact visibility_mark_eq_stated_iff ht hbefore hafter hreserved hone

/-- A protected type: the keyword stands before the marker and behind an annotation with braces, and an
annotation with a literal that holds a parenthesis and a brace stands after the marker. -/
theorem visibility_of_marked_type_protected :
    let codes (s : String) : List Lexeme := s.toList.map .code
    let t : MarkedType :=
      { unit := codes "package com.acme;"
        before := [(codes "\n", .annot "SuppressWarnings".toList
            (some ([], codes "\x7b" ++ .literal ['"'] ['a'] :: codes "\x7d"))),
          (codes "\n", .word "protected".toList)]
        gap := .comment ['/', '/'] :: codes "\n"
        marker := "TextResourceAware".toList
        arguments := none
        after := [(codes " ", .annot "Foo".toList (some ([], [.literal ['"'] [')', '{']]))),
          ([], .word "final".toList)]
        kindGap := codes " "
        kind := "class".toList
        nameGap := codes " "
        name := "A".toList
        rest := codes " \x7b\x7d" }
    (t.IsWellFormed ∧ t.markerItem.IsPlain ∧ (∀ p ∈ t.before, p.2.IsPlain) ∧
        (∀ p ∈ t.after, p.2.IsPlain) ∧
        (∀ p ∈ t.before ++ t.after, p.2.KeepsReserved) ∧ (accesses (t.before ++ t.after)).length ≤ 1 ∧
        ∀ m ∈ topMarks t.text.toList, ∃ b, parseMembers (m.arguments.map Cell.code) = .ok b) ∧
      ∃ ds, declarations t.text = .ok ds ∧
        ∃ d ∈ ds, d.name = "com.acme.A" ∧ d.visibility = .subtypes := by
  intro codes t
  have hjava : ∀ l ∈ t.lexemes, l.IsJava := by
    have hlexemes : t.lexemes = codes "package com.acme;\n@SuppressWarnings(\x7b" ++
        .literal ['"'] ['a'] :: codes "\x7d)\nprotected" ++ .comment ('/' :: '/' :: []) ::
        codes "\n@TextResourceAware @Foo(" ++ .literal ['"'] [')', '{'] ::
        codes ")final class A \x7b\x7d" := by decide +kernel
    rw [hlexemes]
    simp only [List.forall_mem_append, List.forall_mem_cons]
    exact ⟨⟨⟨isJava_of_mem_map_code (by decide +kernel),
      .string (.plain (by decide) (by decide) (by decide) .nil),
      isJava_of_mem_map_code (by decide +kernel)⟩, .lineComment (by decide +kernel),
      isJava_of_mem_map_code (by decide +kernel)⟩,
      .string (.plain (by decide) (by decide) (by decide)
        (.plain (by decide) (by decide) (by decide) .nil)),
      isJava_of_mem_map_code (by decide +kernel)⟩
  have ht : t.IsWellFormed :=
    ⟨by decide +kernel, ⟨hjava, by decide +kernel⟩, by decide +kernel⟩
  have hplain : t.markerItem.IsPlain := by decide +kernel
  have hbefore : ∀ p ∈ t.before, p.2.IsPlain := by decide +kernel
  have hafter : ∀ p ∈ t.after, p.2.IsPlain := by decide +kernel
  have hreserved : ∀ p ∈ t.before ++ t.after, p.2.KeepsReserved := by decide +kernel
  have hone : (accesses (t.before ++ t.after)).length ≤ 1 := by decide +kernel
  have hmembers : ∀ m ∈ topMarks t.text.toList,
      ∃ b, parseMembers (m.arguments.map Cell.code) = .ok b := by
    have hmarks : topMarks t.text.toList = [t.mark] := by decide +kernel
    rw [hmarks]
    intro m hm
    obtain rfl := List.mem_singleton.mp hm
    exact ⟨{}, by decide +kernel⟩
  refine ⟨⟨ht, hplain, hbefore, hafter, hreserved, hone, hmembers⟩, ?_⟩
  obtain ⟨ds, hds, d, hd, hname, hvisibility⟩ :=
    visibility_of_marked_type ht hplain hbefore hafter hreserved hone hmembers
  have hreach : AccessInReach t.before := by decide +kernel
  exact ⟨ds, hds, d, hd, hname.trans (by decide +kernel),
    (hvisibility.mpr hreach).trans (by decide +kernel)⟩

/-- An annotation with braces between the keyword and the marker: the type is reported as one without an
access keyword. -/
theorem braces_hide_access_keyword :
    let codes (s : String) : List Lexeme := s.toList.map .code
    let t : MarkedType :=
      { unit := codes "package com.acme;"
        before := [(codes "\n", .word "public".toList), (codes " ", .annot "SuppressWarnings".toList
          (some ([], codes "\x7b" ++ .literal ['"'] ['a'] :: codes "\x7d")))]
        gap := codes " "
        marker := "TextResourceAware".toList
        arguments := none
        after := []
        kindGap := codes " "
        kind := "class".toList
        nameGap := codes " "
        name := "A".toList
        rest := codes " \x7b\x7d\n" }
    t.IsWellFormed ∧ t.markerItem.IsPlain ∧ (∀ p ∈ t.before, p.2.IsPlain) ∧
      (∀ p ∈ t.before, p.2.KeepsReserved) ∧ accesses (t.before ++ t.after) = [.everyone] ∧
      t.stated = .everyone ∧
      declarations t.text = .ok [{ name := "com.acme.A", visibility := .package }] := by
  intro codes t
  have hjava : ∀ l ∈ t.lexemes, l.IsJava := by
    have hlexemes : t.lexemes = codes "package com.acme;\npublic @SuppressWarnings(\x7b" ++
        .literal ['"'] ['a'] :: codes "\x7d) @TextResourceAware class A \x7b\x7d\n" := by decide +kernel
    rw [hlexemes]
    simp only [List.forall_mem_append, List.forall_mem_cons]
    exact ⟨isJava_of_mem_map_code (by decide +kernel),
      .string (.plain (by decide) (by decide) (by decide) .nil),
      isJava_of_mem_map_code (by decide +kernel)⟩
  exact ⟨⟨by decide +kernel, ⟨hjava, by decide +kernel⟩, by decide +kernel⟩, by decide +kernel,
    by decide +kernel, by decide +kernel, by decide +kernel, by decide +kernel, by decide +kernel⟩

end TextProviders.Source
