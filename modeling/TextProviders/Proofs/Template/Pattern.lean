import TextProviders.Proofs.Template.Pieces

/-!
# Looking for tokens with a pattern

The tokens of bindings can be looked for all at once, with a pattern: the tokens escaped, longer ones first,
and bars between them.  A pattern knows nothing of bindings.  It is read as a list of alternatives; at each
place the first of them that stands there is the match, not the longest; and a search goes on behind the last
match, but after an empty one it does not match nothing at the same place again.

`replaceByPattern?_eq` says that replacing all matches of this pattern is what `substitute` does.  Whatever
marks are in the tokens, escaping keeps their meaning out (`read?_alternation`); as longer tokens stand before
shorter ones, the first alternative is the longest; and the empty one, which stands last, is matched only where
a character is going to be copied, and at the end (`alternativeAt?_alternatives`).
-/

namespace TextProviders.Template

namespace Pattern

/-! ## Patterns -/

/-- The characters that an escape stands in front of. -/
def marks : List Char :=
  ['(', ')', '[', ']', '{', '}', '?', '*', '+', '-', '|', '^', '$', '\\', '.', '&', '~', '#', ' ',
    '\t', '\n', '\r', '\x0b', '\x0c']

/-- The characters, besides bar and backslash, that mean something else than themselves in a pattern. -/
def operators : List Char :=
  ['(', ')', '[', '{', '?', '*', '+', '^', '$', '.']

/-- A text as it is written in a pattern. -/
def escape (s : List Char) : List Char :=
  s.flatMap fun c => if c ∈ marks then ['\\', c] else [c]

/-- The pattern of some texts: each escaped, with bars between them. -/
def alternation (texts : List (List Char)) : List Char :=
  ['|'].intercalate (texts.map escape)

/-- A character in front of the first alternative. -/
def prepend (c : Char) : List (List Char) → List (List Char)
  | [] => [[c]]
  | first :: more => (c :: first) :: more

/-- The alternatives of a pattern, if all that has a meaning in it are bars and escaped marks.  The flag says
that a backslash stands just before. -/
def readFrom? : Bool → List Char → Option (List (List Char))
  | false, [] => some [[]]
  | true, [] => none
  | false, c :: rest =>
    if c = '|' then (readFrom? false rest).map ([] :: ·)
    else if c = '\\' then readFrom? true rest
    else if c ∈ operators then none
    else (readFrom? false rest).map (prepend c)
  | true, c :: rest => if c.isAlphanum then none else (readFrom? false rest).map (prepend c)

/-- The alternatives of a pattern. -/
def read? (pattern : List Char) : Option (List (List Char)) :=
  readFrom? false pattern

/-! ## Searching -/

/-- The first alternative that a text starts with.  Where the search has to go on, it is not an empty one. -/
def alternativeAt? (alternatives : List (List Char)) (goesOn : Bool) (s : List Char) :
    Option (List Char) :=
  alternatives.find? fun a => a.isPrefixOf s && !(goesOn && a.isEmpty)

/-- A text around a match. -/
structure Match where
  passed : List Char
  matched : List Char
  behind : List Char

/-- The first match in a text. -/
def search? (alternatives : List (List Char)) : Bool → List Char → Option Match
  | goesOn, [] => (alternativeAt? alternatives goesOn []).map fun a => ⟨[], a, []⟩
  | goesOn, c :: rest =>
    match alternativeAt? alternatives goesOn (c :: rest) with
    | some a => some ⟨[], a, (c :: rest).drop a.length⟩
    | none => (search? alternatives false rest).map fun m => { m with passed := c :: m.passed }

section

variable {alternatives : List (List Char)} {goesOn : Bool} {s : List Char}

theorem prefix_of_alternativeAt? {a : List Char}
    (h : alternativeAt? alternatives goesOn s = some a) : a <+: s := by
  have hfound := List.find?_some h
  simp only [Bool.and_eq_true, List.isPrefixOf_iff_prefix] at hfound
  exact hfound.1

theorem ne_nil_of_alternativeAt? {a : List Char}
    (h : alternativeAt? alternatives true s = some a) : a ≠ [] := by
  rintro rfl
  have hfound := List.find?_some h
  simp at hfound

/-- A match cuts a text in three, and what is left to search gets shorter or may not match nothing. -/
theorem search?_eq_some {m : Match} (h : search? alternatives goesOn s = some m) :
    s = m.passed ++ m.matched ++ m.behind ∧ (goesOn = true → m.passed ++ m.matched ≠ []) := by
  induction s generalizing goesOn m with
  | nil =>
      obtain ⟨a, ha, rfl⟩ := Option.map_eq_some_iff.mp h
      obtain rfl := List.prefix_nil.mp (prefix_of_alternativeAt? ha)
      refine ⟨rfl, ?_⟩
      rintro rfl
      exact absurd rfl (ne_nil_of_alternativeAt? ha)
  | cons c rest ih =>
      rw [search?] at h
      split at h
      · next a ha =>
        obtain rfl := Option.some.inj h
        refine ⟨(List.prefix_iff_eq_append.mp (prefix_of_alternativeAt? ha)).symm, ?_⟩
        rintro rfl
        exact ne_nil_of_alternativeAt? ha
      · obtain ⟨m', hm', rfl⟩ := Option.map_eq_some_iff.mp h
        exact ⟨congrArg (c :: ·) (ih hm').1, fun _ => List.cons_ne_nil _ _⟩

theorem search?_decreases {m : Match} (h : search? alternatives goesOn s = some m) :
    2 * m.behind.length + (if m.matched.isEmpty then 0 else 1) <
      2 * s.length + (if goesOn then 0 else 1) := by
  obtain ⟨hs, hgoes⟩ := search?_eq_some h
  have hlength : s.length = m.passed.length + m.matched.length + m.behind.length := by
    rw [hs, List.length_append, List.length_append]
  have hsome : goesOn = true → 0 < m.passed.length + m.matched.length := by
    rw [← List.length_append, List.length_pos_iff]
    exact hgoes
  cases hmatched : m.matched with
  | nil =>
      rw [hmatched, List.length_nil] at hlength hsome
      cases goesOn with
      | true =>
          have := hsome rfl
          simp only [List.isEmpty_nil, if_true]
          omega
      | false =>
          simp only [List.isEmpty_nil, if_true, Bool.false_eq_true, if_false]
          omega
  | cons c more =>
      rw [hmatched, List.length_cons] at hlength
      simp only [List.isEmpty_cons, Bool.false_eq_true, if_false]
      split <;> omega

end

/-- A text with all matches replaced. -/
def replaceAll (alternatives : List (List Char)) (value : List Char → List Char) (goesOn : Bool)
    (s : List Char) : List Char :=
  match _h : search? alternatives goesOn s with
  | none => s
  | some m => m.passed ++ value m.matched ++ replaceAll alternatives value m.matched.isEmpty m.behind
termination_by 2 * s.length + (if goesOn then 0 else 1)
decreasing_by exact search?_decreases _h

/-! ## Escaping -/

theorem marks_not_isAlphanum : ∀ c ∈ marks, c.isAlphanum = false := by
  decide

theorem operators_subset_marks : ∀ c ∈ '|' :: '\\' :: operators, c ∈ marks := by
  decide

/-- An escaped text is read as this text, whatever is in it. -/
theorem read?_escape_append (text : List Char) {rest first : List Char}
    {more : List (List Char)} (h : read? rest = some (first :: more)) :
    read? (escape text ++ rest) = some ((text ++ first) :: more) := by
  induction text with
  | nil => exact h
  | cons c text ih =>
      have hread : (read? (escape text ++ rest)).map (prepend c) =
          some ((c :: text ++ first) :: more) := by
        rw [ih]
        rfl
      by_cases hc : c ∈ marks
      · have hescape : escape (c :: text) ++ rest = '\\' :: c :: (escape text ++ rest) := by
          simp [escape, hc]
        rw [hescape, ← hread, read?, readFrom?, if_neg (by decide), if_pos rfl, readFrom?,
          if_neg (by rw [marks_not_isAlphanum c hc]; decide)]
        rfl
      · have hescape : escape (c :: text) ++ rest = c :: (escape text ++ rest) := by
          simp [escape, hc]
        have hplain : ∀ d ∈ '|' :: '\\' :: operators, c ≠ d := by
          rintro d hd rfl
          exact hc (operators_subset_marks c hd)
        rw [hescape, ← hread, read?, readFrom?, if_neg (hplain '|' (by decide)),
          if_neg (hplain '\\' (by decide)), if_neg fun hmem => hplain c (by simp [hmem]) rfl]
        rfl

/-- **The pattern of some texts has these texts as its alternatives.** -/
theorem read?_alternation {texts : List (List Char)} (h : texts ≠ []) :
    read? (alternation texts) = some texts := by
  induction texts with
  | nil => exact absurd rfl h
  | cons text more ih =>
      cases more with
      | nil =>
          have hempty : read? [] = some [[]] := rfl
          have hread := read?_escape_append text hempty
          rw [List.append_nil, List.append_nil] at hread
          rw [← hread]
          simp [alternation, List.intercalate]
      | cons next more =>
          have hbar : read? ('|' :: alternation (next :: more)) = some ([] :: next :: more) := by
            rw [read?, readFrom?, if_pos rfl]
            exact congrArg (Option.map ([] :: ·)) (ih (List.cons_ne_nil _ _))
          have hread := read?_escape_append text hbar
          rw [List.append_nil] at hread
          rw [← hread]
          simp [alternation, List.intercalate]

/-! ## Replacing, place by place -/

section

variable {alternatives : List (List Char)} {value : List Char → List Char} {goesOn : Bool}

theorem search?_of_some {s a : List Char} (h : alternativeAt? alternatives goesOn s = some a) :
    search? alternatives goesOn s = some ⟨[], a, s.drop a.length⟩ := by
  cases s with
  | nil =>
      rw [search?, h]
      simp
  | cons c rest => rw [search?, h]

/-- At a place where an alternative stands its value is written, and the search goes on behind it. -/
theorem replaceAll_of_some {s a : List Char} (h : alternativeAt? alternatives goesOn s = some a) :
    replaceAll alternatives value goesOn s =
      value a ++ replaceAll alternatives value a.isEmpty (s.drop a.length) := by
  rw [replaceAll]
  split
  · next hnone => cases (search?_of_some h).symm.trans hnone
  · next m hm =>
    obtain rfl := Option.some.inj ((search?_of_some h).symm.trans hm)
    rfl

theorem replaceAll_nil_of_none (h : alternativeAt? alternatives goesOn [] = none) :
    replaceAll alternatives value goesOn [] = [] := by
  rw [replaceAll]
  split
  · rfl
  · next m hm =>
    rw [search?, h] at hm
    cases hm

/-- At a place where none stands a character is copied. -/
theorem replaceAll_cons_of_none {c : Char} {rest : List Char}
    (h : alternativeAt? alternatives goesOn (c :: rest) = none) :
    replaceAll alternatives value goesOn (c :: rest) =
      c :: replaceAll alternatives value false rest := by
  have hsearch : search? alternatives goesOn (c :: rest) =
      (search? alternatives false rest).map fun m => { m with passed := c :: m.passed } := by
    rw [search?, h]
  rw [replaceAll, replaceAll]
  cases hrest : search? alternatives false rest with
  | none =>
      rw [hrest] at hsearch
      split
      · rfl
      · next m hm => cases hsearch.symm.trans hm
  | some m =>
      rw [hrest] at hsearch
      split
      · next hnone => cases hsearch.symm.trans hnone
      · next m' hm' =>
        obtain rfl := Option.some.inj (hsearch.symm.trans hm')
        rfl

end

end Pattern

/-! ## The walk, place by place -/

section

variable {bindings : List Binding} {s : List Char} {b : Binding}

theorem Binding.startsText.length_pos (h : b.startsText s) : 0 < b.token.length := by
  rw [Nat.pos_iff_ne_zero]
  intro hzero
  have hempty := h.1
  rw [String.length_eq_zero_iff.mp hzero] at hempty
  cases hempty

theorem Binding.startsText.length_le (h : b.startsText s) : b.token.length ≤ s.length := by
  rw [← String.length_toList]
  exact h.2.length_le

theorem Binding.startsText.length_drop_lt (h : b.startsText s) :
    (s.drop b.token.length).length < s.length := by
  have := h.length_pos
  have := h.length_le
  rw [List.length_drop]
  omega

/-- Where a token starts its value is written, and the walk goes on behind it. -/
theorem replaceFrom_of_some (h : bindingAt? (longestFirst bindings) s = some b) :
    replaceFrom (longestFirst bindings) 0 s =
      b.written ++ replaceFrom (longestFirst bindings) 0 (s.drop b.token.length) := by
  obtain ⟨-, hstarts, -⟩ := longest_of_bindingAt? h
  cases s with
  | nil => exact absurd hstarts.length_le (Nat.not_le_of_lt hstarts.length_pos)
  | cons c rest =>
      have hdrop : (c :: rest).drop b.token.length = rest.drop (b.token.length - 1) := by
        conv => lhs; rw [← Nat.sub_add_cancel hstarts.length_pos]
        rfl
      rw [replaceFrom, h, hdrop]
      dsimp only
      rw [replaceFrom_skip]

/-- Where none starts a character is copied, behind the text of the empty token. -/
theorem replaceFrom_cons_of_none {c : Char} {rest : List Char}
    (h : bindingAt? (longestFirst bindings) (c :: rest) = none) :
    replaceFrom (longestFirst bindings) 0 (c :: rest) =
      emptyTokenText (longestFirst bindings) ++ c :: replaceFrom (longestFirst bindings) 0 rest := by
  rw [replaceFrom, h]

end

/-! ## Patterns of tokens -/

open Pattern

/-- What is written for a token. -/
def valueOf (bindings : List Binding) (token : List Char) : List Char :=
  ((bindings.find? fun b => b.token.toList = token).map (·.written)).getD []

/-- A template with the matches of the pattern of all tokens replaced. -/
def replaceByPattern? (template : String) (bindings : List Binding) : Option String :=
  if bindings.isEmpty then some template
  else
    (read? (alternation ((longestFirst bindings).map (·.token.toList)))).map fun alternatives =>
      String.ofList (replaceAll alternatives (valueOf bindings) false template.toList)

section

variable {bindings : List Binding} {s : List Char}

theorem toList_isEmpty (token : String) : token.toList.isEmpty = token.isEmpty := by
  rw [Bool.eq_iff_iff, List.isEmpty_iff, String.isEmpty_iff, String.toList_eq_nil_iff]

/-- Where longer tokens come first, the first one with which a text starts is the longest one that is not
empty, or else the empty one. -/
theorem find?_of_pairwise {sorted : List Binding}
    (h : sorted.Pairwise fun a b => b.token.length ≤ a.token.length) (s : List Char) :
    (sorted.find? fun b => b.token.toList.isPrefixOf s) =
      (bindingAt? sorted s).or (sorted.find? fun b => b.token.isEmpty) := by
  induction sorted with
  | nil => rfl
  | cons b rest ih =>
      obtain ⟨hb, hrest⟩ := List.pairwise_cons.mp h
      cases hempty : b.token.isEmpty with
      | true =>
          -- the tokens behind an empty one are empty as well
          have hnone : bindingAt? (b :: rest) s = none := by
            refine List.find?_eq_none.mpr fun b' hb' hfound => ?_
            have hshort : b'.token.length ≤ b.token.length := by
              rcases List.mem_cons.mp hb' with rfl | hlater
              · exact Nat.le_refl _
              · exact hb b' hlater
            rw [String.isEmpty_iff.mp hempty] at hshort
            have hnil : b'.token = "" := String.length_eq_zero_iff.mp (Nat.le_zero.mp hshort)
            simp [hnil] at hfound
          have htoken : b.token.toList = [] := by rw [String.isEmpty_iff.mp hempty]; rfl
          simp [hnone, htoken, hempty]
      | false =>
          by_cases hahead : b.token.toList.isPrefixOf s = true
          · have hfound : bindingAt? (b :: rest) s = some b :=
              List.find?_cons_of_pos (by simp [hempty, hahead])
            simp [List.find?_cons, hfound, hahead]
          · have hskip : bindingAt? (b :: rest) s = bindingAt? rest s :=
              List.find?_cons_of_neg (by simp [hahead])
            simp [hskip, hahead, hempty, ih hrest]

/-- The alternatives of the pattern of all tokens. -/
def alternatives (bindings : List Binding) : List (List Char) :=
  (longestFirst bindings).map (·.token.toList)

/-- Where the search has to go on, the match is the longest token that is not empty. -/
theorem alternativeAt?_of_goesOn (bindings : List Binding) (s : List Char) :
    alternativeAt? (alternatives bindings) true s =
      (bindingAt? (longestFirst bindings) s).map (·.token.toList) := by
  rw [alternativeAt?, alternatives, List.find?_map, bindingAt?]
  congr 2
  funext b
  simp [toList_isEmpty, Bool.and_comm]

theorem alternativeAt?_goesOn_eq_none (h : bindingAt? (longestFirst bindings) s = none) :
    alternativeAt? (alternatives bindings) true s = none := by
  rw [alternativeAt?_of_goesOn, h]
  rfl

/-- Elsewhere it is the empty token if there is no other one. -/
theorem alternativeAt?_alternatives (bindings : List Binding) (s : List Char) :
    alternativeAt? (alternatives bindings) false s =
      ((bindingAt? (longestFirst bindings) s).or
        ((longestFirst bindings).find? fun b => b.token.isEmpty)).map (·.token.toList) := by
  rw [← find?_of_pairwise (pairwise_longestFirst bindings) s, alternativeAt?, alternatives,
    List.find?_map]
  congr 2
  funext b
  simp

variable (honce : (bindings.map (·.token)).Nodup)

include honce

theorem valueOf_token {b : Binding} (hb : b ∈ bindings) :
    valueOf bindings b.token.toList = b.written := by
  unfold valueOf
  cases hfind : bindings.find? fun b' => b'.token.toList = b.token.toList with
  | none => exact absurd (decide_eq_true rfl) (List.find?_eq_none.mp hfind b hb)
  | some b' =>
      have hsame := List.find?_some hfind
      have htoken : b'.token = b.token := String.toList_inj.mp (of_decide_eq_true hsame)
      have hdistinct : bindings.Pairwise fun a b => a.token ≠ b.token := List.pairwise_map.mp honce
      rw [eq_of_token_eq hdistinct (List.mem_of_find?_eq_some hfind) hb htoken]
      rfl

/-- Where a token starts its value is written, and the search goes on behind it. -/
theorem replaceAll_of_bindingAt? {b : Binding} (h : bindingAt? (longestFirst bindings) s = some b) :
    replaceAll (alternatives bindings) (valueOf bindings) false s =
      b.written ++
        replaceAll (alternatives bindings) (valueOf bindings) false (s.drop b.token.length) := by
  obtain ⟨hb, hstarts, -⟩ := longest_of_bindingAt? h
  have hat : alternativeAt? (alternatives bindings) false s = some b.token.toList := by
    rw [alternativeAt?_alternatives, h]
    rfl
  rw [replaceAll_of_some hat, valueOf_token honce hb, toList_isEmpty, hstarts.1, String.length_toList]

/-- Where none starts the text of the empty token is written, and the search has to go on. -/
theorem replaceAll_of_bindingAt?_eq_none (h : bindingAt? (longestFirst bindings) s = none) :
    replaceAll (alternatives bindings) (valueOf bindings) false s =
      emptyTokenText (longestFirst bindings) ++
        replaceAll (alternatives bindings) (valueOf bindings) true s := by
  have hat := alternativeAt?_alternatives bindings s
  rw [h, Option.none_or] at hat
  cases hempty : (longestFirst bindings).find? fun b => b.token.isEmpty with
  | some e =>
      have he : e ∈ bindings := mem_longestFirst.mp (List.mem_of_find?_eq_some hempty)
      have htoken : e.token.toList = [] := by
        have hfound := List.find?_some hempty
        rw [String.isEmpty_iff.mp hfound]
        rfl
      have hvalue := valueOf_token honce he
      rw [hempty, Option.map_some, htoken] at hat
      rw [htoken] at hvalue
      rw [replaceAll_of_some hat, hvalue, emptyTokenText, hempty]
      rfl
  | none =>
      rw [hempty, Option.map_none] at hat
      have hnothing : emptyTokenText (longestFirst bindings) = [] := by
        rw [emptyTokenText, hempty]
        rfl
      have hon := alternativeAt?_goesOn_eq_none h
      rw [hnothing, List.nil_append]
      cases s with
      | nil => rw [replaceAll_nil_of_none hat, replaceAll_nil_of_none hon]
      | cons c rest => rw [replaceAll_cons_of_none hat, replaceAll_cons_of_none hon]

/-- Replacing matches is the walk over the template. -/
theorem replaceAll_eq_replaceFrom (s : List Char) :
    replaceAll (alternatives bindings) (valueOf bindings) false s =
      replaceFrom (longestFirst bindings) 0 s := by
  induction hn : s.length using Nat.strongRecOn generalizing s with
  | _ n ih =>
      cases hfound : bindingAt? (longestFirst bindings) s with
      | some b =>
          obtain ⟨-, hstarts, -⟩ := longest_of_bindingAt? hfound
          have hrest := ih _ (hn ▸ hstarts.length_drop_lt) _ rfl
          rw [replaceAll_of_bindingAt? honce hfound, hrest, replaceFrom_of_some hfound]
      | none =>
          have hon := alternativeAt?_goesOn_eq_none hfound
          rw [replaceAll_of_bindingAt?_eq_none honce hfound]
          cases s with
          | nil =>
              rw [replaceAll_nil_of_none hon, List.append_nil]
              rfl
          | cons c rest =>
              have hrest := ih rest.length (by rw [← hn]; exact Nat.lt_succ_self _) rest rfl
              rw [replaceAll_cons_of_none hon, hrest, replaceFrom_cons_of_none hfound]

/-- **Replacing the matches of the pattern of all tokens is what replacing the tokens does.** -/
theorem replaceByPattern?_eq (template : String) :
    replaceByPattern? template bindings = some (substitute template bindings) := by
  have hreplace := replaceAll_eq_replaceFrom honce template.toList
  unfold replaceByPattern?
  cases hbindings : bindings with
  | nil =>
      have hcopy (s : List Char) : replaceFrom (longestFirst []) 0 s = s := by
        induction s with
        | nil => simp [replaceFrom, longestFirst, emptyTokenText]
        | cons c rest ih =>
            rw [replaceFrom, ih]
            simp [longestFirst, bindingAt?, emptyTokenText]
      rw [substitute, hcopy, String.ofList_toList]
      rfl
  | cons b rest =>
      have hne : alternatives bindings ≠ [] := by
        have hmem : b ∈ longestFirst bindings := mem_longestFirst.mpr (by simp [hbindings])
        exact List.ne_nil_of_mem (List.mem_map_of_mem hmem)
      rw [hbindings] at hne hreplace
      rw [if_neg (by simp), show (longestFirst (b :: rest)).map (·.token.toList) =
        alternatives (b :: rest) from rfl, read?_alternation hne, Option.map_some, hreplace]
      rfl

end

end TextProviders.Template
