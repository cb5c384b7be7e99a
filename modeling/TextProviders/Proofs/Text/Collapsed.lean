import Mathlib.Data.List.Infix
import TextProviders.Text.Blank

/-!
# Collapsed texts

Collapsing is the work of a reader that goes through the text once and knows one thing of what it has
read: whether the last character was blank.  So it goes through two texts, one after the other, as
through one (`collapseAfter_append`).

What it writes is fixed by three things that it keeps: the words of the text, and whether there are
blanks at either edge (`collapse_eq`).  It writes texts with single spaces and no other blanks
(`IsCollapsed`), and these it leaves as they are (`collapseAfter_of_isCollapsed`).  The main statement,
`collapse_is_canonical`, puts this together: a collapsed text stands for all texts with its words and
its edges.
-/

namespace TextProviders.Text

/-- Whether a text starts with a blank. -/
def startsBlank (s : List Char) : Bool :=
  s.head?.any isBlank

/-- Whether a blank stands just before the end of a text; the flag says whether one stands just before
the text. -/
def blankAfter (flag : Bool) (s : List Char) : Bool :=
  (s.getLast?.map isBlank).getD flag

/-- Whether a text ends with a blank. -/
def endsBlank (s : List Char) : Bool :=
  blankAfter false s

/-- A text whose blanks are single spaces. -/
structure IsCollapsed (s : List Char) : Prop where
  space : ∀ c ∈ s, isBlank c = true → c = ' '
  single : ¬ [' ', ' '] <:+: s

/-- Words with one space before each. -/
def spaced (ws : List (List Char)) : List Char :=
  ws.flatMap (' ' :: ·)

/-- One space, if there is to be one. -/
def spaceIf (flag : Bool) : List Char :=
  if flag then [' '] else []

section

variable {c : Char} {s t : List Char}

/-! ## The reader -/

@[simp] theorem blankAfter_nil (flag : Bool) : blankAfter flag [] = flag := rfl

@[simp] theorem blankAfter_cons (flag : Bool) (c : Char) (s : List Char) :
    blankAfter flag (c :: s) = blankAfter (isBlank c) s := by
  rw [blankAfter, List.getLast?_cons]
  cases h : s.getLast? <;> simp [blankAfter, h]

@[simp] theorem startsBlank_cons (c : Char) (s : List Char) : startsBlank (c :: s) = isBlank c := rfl

@[simp] theorem collapseAfter_nil (flag : Bool) : collapseAfter flag [] = [] := by
  cases flag <;> rfl

theorem collapseAfter_blank (h : isBlank c = true) (flag : Bool) (s : List Char) :
    collapseAfter flag (c :: s) = spaceIf (!flag) ++ collapseAfter true s := by
  cases flag <;> simp [collapseAfter, spaceIf, h]

theorem collapseAfter_of_not_blank (h : isBlank c = false) (flag : Bool) (s : List Char) :
    collapseAfter flag (c :: s) = c :: collapseAfter false s := by
  simp [collapseAfter, h]

/-- **Two texts are read one after the other.** -/
theorem collapseAfter_append (flag : Bool) (s t : List Char) :
    collapseAfter flag (s ++ t) = collapseAfter flag s ++ collapseAfter (blankAfter flag s) t := by
  induction s generalizing flag with
  | nil => simp
  | cons c s ih =>
      rw [List.cons_append, blankAfter_cons]
      cases h : isBlank c with
      | true =>
          rw [collapseAfter_blank h, collapseAfter_blank h, ih, List.append_assoc]
      | false =>
          rw [collapseAfter_of_not_blank h, collapseAfter_of_not_blank h, ih, List.cons_append]

/-! ## Edges -/

theorem blankAfter_collapseAfter (flag : Bool) (s : List Char) :
    blankAfter flag (collapseAfter flag s) = blankAfter flag s := by
  induction s generalizing flag with
  | nil => simp
  | cons c s ih =>
      rw [blankAfter_cons]
      cases h : isBlank c with
      | true =>
          rw [collapseAfter_blank h, ← ih true]
          cases flag with
          | true => rfl
          | false => exact blankAfter_cons false ' ' _
      | false => rw [collapseAfter_of_not_blank h, blankAfter_cons, h, ih]

theorem endsBlank_collapse (s : List Char) : endsBlank (collapse s) = endsBlank s :=
  blankAfter_collapseAfter false s

theorem startsBlank_collapse (s : List Char) : startsBlank (collapse s) = startsBlank s := by
  cases s with
  | nil => rfl
  | cons c s =>
      rw [collapse]
      cases h : isBlank c with
      | true => rw [collapseAfter_blank h, startsBlank_cons, h]; rfl
      | false => rw [collapseAfter_of_not_blank h, startsBlank_cons, startsBlank_cons]

/-- Behind a blank no blank is written first. -/
theorem startsBlank_collapseAfter_true (s : List Char) : startsBlank (collapseAfter true s) = false := by
  induction s with
  | nil => rfl
  | cons c s ih =>
      cases h : isBlank c with
      | true => rw [collapseAfter_blank h]; exact ih
      | false => rw [collapseAfter_of_not_blank h, startsBlank_cons, h]

/-! ## Words -/

theorem wordsFrom_blank (h : isBlank c = true) (s : List Char) : wordsFrom (c :: s) = ([], words s) := by
  simp [wordsFrom, words, h]

theorem wordsFrom_of_not_blank (h : isBlank c = false) (s : List Char) :
    wordsFrom (c :: s) = (c :: (wordsFrom s).1, (wordsFrom s).2) := by
  simp [wordsFrom, h]

theorem words_blank (h : isBlank c = true) (s : List Char) : words (c :: s) = words s := by
  rw [words, wordsFrom_blank h]
  rfl

theorem words_of_not_blank (h : isBlank c = false) (s : List Char) :
    words (c :: s) = (c :: (wordsFrom s).1) :: (wordsFrom s).2 := by
  rw [words, wordsFrom_of_not_blank h]
  rfl

/-- The words are the word that the first characters continue, if they do, and those after it. -/
theorem words_eq_filter (s : List Char) : words s =
    [(wordsFrom s).1].filter (fun piece => !piece.isEmpty) ++ (wordsFrom s).2 := by
  rw [words]
  generalize wordsFrom s = parts
  obtain ⟨word, more⟩ := parts
  cases word <;> rfl

/-- The words are the pieces between the blanks that are not empty. -/
theorem words_eq_filter_splitOnP (s : List Char) :
    words s = (s.splitOnP isBlank).filter fun piece => !piece.isEmpty := by
  have hpieces : ∃ pieces, s.splitOnP isBlank = (wordsFrom s).1 :: pieces ∧
      (wordsFrom s).2 = pieces.filter fun piece => !piece.isEmpty := by
    induction s with
    | nil => exact ⟨[], rfl, rfl⟩
    | cons c s ih =>
        obtain ⟨pieces, hsplit, hmore⟩ := ih
        rw [List.splitOnP_cons_eq_if_modifyHead]
        cases h : isBlank c with
        | true =>
            rw [wordsFrom_blank h, if_pos rfl]
            refine ⟨_, rfl, ?_⟩
            rw [words_eq_filter, hmore, hsplit, ← List.filter_append, List.singleton_append]
        | false =>
            rw [wordsFrom_of_not_blank h, if_neg (by simp), hsplit]
            exact ⟨pieces, rfl, hmore⟩
  obtain ⟨pieces, hsplit, hmore⟩ := hpieces
  rw [words_eq_filter, hmore, hsplit, ← List.filter_append, List.singleton_append]

theorem words_collapse (s : List Char) : words (collapse s) = words s := by
  have hboth : wordsFrom (collapseAfter false s) = wordsFrom s ∧
      words (collapseAfter true s) = words s := by
    induction s with
    | nil => exact ⟨rfl, rfl⟩
    | cons c s ih =>
        obtain ⟨hfalse, htrue⟩ := ih
        cases h : isBlank c with
        | true =>
            rw [collapseAfter_blank h, collapseAfter_blank h, wordsFrom_blank h, words_blank h, ← htrue]
            exact ⟨wordsFrom_blank rfl _, rfl⟩
        | false =>
            rw [collapseAfter_of_not_blank h, collapseAfter_of_not_blank h, wordsFrom_of_not_blank h,
              wordsFrom_of_not_blank h, words_of_not_blank h, words_of_not_blank h, hfalse]
            exact ⟨rfl, rfl⟩
  rw [words, collapse, hboth.1, ← words]

/-! ## What is written -/

theorem collapseAfter_eq (s : List Char) :
    collapseAfter false s =
        (wordsFrom s).1 ++ spaced (wordsFrom s).2 ++ spaceIf (blankAfter false s) ∧
      ' ' :: collapseAfter true s = spaced (words s) ++ spaceIf (blankAfter true s) := by
  induction s with
  | nil => exact ⟨rfl, rfl⟩
  | cons c s ih =>
      obtain ⟨hfalse, htrue⟩ := ih
      cases h : isBlank c with
      | true =>
          rw [collapseAfter_blank h, collapseAfter_blank h, wordsFrom_blank h, words_blank h,
            blankAfter_cons, blankAfter_cons, h]
          exact ⟨htrue, htrue⟩
      | false =>
          rw [collapseAfter_of_not_blank h, collapseAfter_of_not_blank h, wordsFrom_of_not_blank h,
            words_of_not_blank h, blankAfter_cons, blankAfter_cons, h, hfalse]
          exact ⟨rfl, by simp [spaced]⟩

/-- **What is written is fixed by the words and the edges.** -/
theorem collapse_eq (s : List Char) :
    collapse s = (spaced (words s)).drop (if startsBlank s then 0 else 1) ++ spaceIf (endsBlank s) := by
  cases s with
  | nil => rfl
  | cons c s =>
      obtain ⟨hfalse, htrue⟩ := collapseAfter_eq s
      rw [collapse, endsBlank, blankAfter_cons, startsBlank_cons]
      cases h : isBlank c with
      | true => rw [collapseAfter_blank h, words_blank h]; exact htrue
      | false =>
          rw [collapseAfter_of_not_blank h, words_of_not_blank h, hfalse]
          simp [spaced]

/-! ## Collapsed texts -/

theorem isCollapsed_cons_iff : IsCollapsed (c :: s) ↔
    (isBlank c = true → c = ' ' ∧ startsBlank s = false) ∧ IsCollapsed s := by
  constructor
  · rintro ⟨hspace, hsingle⟩
    rw [List.infix_cons_iff, not_or] at hsingle
    obtain ⟨hc, hs⟩ := List.forall_mem_cons.mp hspace
    refine ⟨fun h => ⟨hc h, ?_⟩, hs, hsingle.2⟩
    obtain rfl := hc h
    cases s with
    | nil => rfl
    | cons d s =>
        rw [startsBlank_cons, Bool.eq_false_iff]
        intro hd
        obtain rfl := hs d List.mem_cons_self hd
        exact hsingle.1 (List.prefix_append [' ', ' '] s)
  · rintro ⟨hc, hspace, hsingle⟩
    refine ⟨List.forall_mem_cons.mpr ⟨fun h => (hc h).1, hspace⟩, ?_⟩
    rw [List.infix_cons_iff, not_or]
    refine ⟨fun hprefix => ?_, hsingle⟩
    obtain ⟨rfl, more, rfl⟩ := List.cons_prefix_cons.mp hprefix
    cases (hc rfl).2

theorem isCollapsed_nil : IsCollapsed [] :=
  ⟨fun _ h => (List.not_mem_nil h).elim, by decide⟩

theorem isCollapsed_collapseAfter (flag : Bool) (s : List Char) :
    IsCollapsed (collapseAfter flag s) := by
  induction s generalizing flag with
  | nil => rw [collapseAfter_nil]; exact isCollapsed_nil
  | cons c s ih =>
      cases h : isBlank c with
      | true =>
          rw [collapseAfter_blank h]
          cases flag with
          | true => exact ih true
          | false =>
              exact isCollapsed_cons_iff.mpr ⟨fun _ => ⟨rfl, startsBlank_collapseAfter_true s⟩, ih true⟩
      | false =>
          rw [collapseAfter_of_not_blank h]
          exact isCollapsed_cons_iff.mpr ⟨fun hblank => (by rw [h] at hblank; cases hblank), ih false⟩

/-- **A collapsed text is left as it is**, unless a blank stands before it and another one is its
first character. -/
theorem collapseAfter_of_isCollapsed (h : IsCollapsed s) {flag : Bool}
    (hflag : flag = true → startsBlank s = false) : collapseAfter flag s = s := by
  induction s generalizing flag with
  | nil => exact collapseAfter_nil flag
  | cons c s ih =>
      obtain ⟨hc, hs⟩ := isCollapsed_cons_iff.mp h
      cases hblank : isBlank c with
      | true =>
          obtain ⟨rfl, hstart⟩ := hc hblank
          obtain rfl : flag = false := by
            cases flag with
            | true => cases hflag rfl
            | false => rfl
          rw [collapseAfter_blank hblank, ih hs fun _ => hstart]
          rfl
      | false =>
          rw [collapseAfter_of_not_blank hblank, ih hs fun hfalse => (by cases hfalse)]

theorem collapse_eq_self_iff : collapse s = s ↔ IsCollapsed s :=
  ⟨fun h => h ▸ isCollapsed_collapseAfter false s,
    fun h => collapseAfter_of_isCollapsed h fun hfalse => (by cases hfalse)⟩

/-- What is collapsed already is read like the text itself, wherever it stands. -/
theorem collapseAfter_collapse (flag : Bool) (s : List Char) :
    collapseAfter flag (collapse s) = collapseAfter flag s := by
  cases flag with
  | false => exact collapse_eq_self_iff.mpr (isCollapsed_collapseAfter false s)
  | true =>
      have hagain (s : List Char) : collapseAfter true (collapseAfter true s) = collapseAfter true s :=
        collapseAfter_of_isCollapsed (isCollapsed_collapseAfter true s)
          fun _ => startsBlank_collapseAfter_true s
      cases s with
      | nil => rfl
      | cons c s =>
          rw [collapse]
          cases h : isBlank c with
          | true =>
              rw [collapseAfter_blank h, collapseAfter_blank h]
              exact hagain s
          | false =>
              rw [collapseAfter_of_not_blank h, ← collapseAfter_of_not_blank h true]
              exact hagain (c :: s)

end

/-- **Collapsing computes a canonical form.**  The collapsed text has single spaces for its only blanks,
the words of the text, and a space at an edge exactly if the text has a blank there.  So collapsing it
again changes nothing, two texts have the same one exactly if they have the same words and agree on
their edges, and parts may be collapsed before the whole is. -/
theorem collapse_is_canonical (s t : List Char) :
    IsCollapsed (collapse s) ∧ words (collapse s) = words s ∧
      ((collapse s).head? = some ' ' ↔ startsBlank s = true) ∧
      ((collapse s).getLast? = some ' ' ↔ endsBlank s = true) ∧
      collapse (collapse s) = collapse s ∧
      (collapse s = collapse t ↔
        words s = words t ∧ startsBlank s = startsBlank t ∧ endsBlank s = endsBlank t) ∧
      collapse (s ++ t) = collapse (collapse s ++ collapse t) := by
  have hcollapsed : IsCollapsed (collapse s) := isCollapsed_collapseAfter false s
  have hspace (c : Char) (hc : c ∈ collapse s) : c = ' ' ↔ isBlank c = true :=
    ⟨fun h => h ▸ rfl, hcollapsed.space c hc⟩
  refine ⟨hcollapsed, words_collapse s, ?_, ?_, collapse_eq_self_iff.mpr hcollapsed, ⟨?_, ?_⟩, ?_⟩
  · rw [← startsBlank_collapse, startsBlank]
    cases h : (collapse s).head? with
    | none => simp
    | some c => simpa using hspace c (List.mem_of_mem_head? h)
  · rw [← endsBlank_collapse, endsBlank, blankAfter]
    cases h : (collapse s).getLast? with
    | none => simp
    | some c => simpa using hspace c (List.mem_of_getLast? h)
  · intro h
    rw [← words_collapse s, ← words_collapse t, ← startsBlank_collapse s, ← startsBlank_collapse t,
      ← endsBlank_collapse s, ← endsBlank_collapse t, h]
    exact ⟨rfl, rfl, rfl⟩
  · rintro ⟨hwords, hstart, hend⟩
    rw [collapse_eq s, collapse_eq t, hwords, hstart, hend]
  · calc collapse (s ++ t)
        = collapse s ++ collapseAfter (endsBlank s) t := collapseAfter_append false s t
      _ = collapse (collapse s) ++ collapseAfter (endsBlank (collapse s)) (collapse t) := by
          rw [collapse_eq_self_iff.mpr hcollapsed, endsBlank_collapse, collapseAfter_collapse]
      _ = collapse (collapse s ++ collapse t) := (collapseAfter_append false _ _).symm

end TextProviders.Text
