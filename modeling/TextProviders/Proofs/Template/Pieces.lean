import TextProviders.Template.Store

/-!
# A template with its placeholders filled in

A placeholder is a dollar with the capitals that follow it.  `pieces` cuts a template into its
placeholders and the characters between them, and knows nothing of bindings; a filled template has
each placeholder replaced by what is written for it and everything else as it was.

Replacement knows nothing of capitals: it looks for bound tokens, longest first.  The main statement,
`substitute_eq_filled`, says that the two come to the same for every template whose placeholders are
all bound.  A bound token that is a beginning of another one does not run short, since the longest
wins; and none runs long, since it has only capitals and the placeholder has all that there are.
-/

namespace TextProviders.Template

/-! ## Pieces -/

/-- A stretch of a template: a character that is kept, or a placeholder. -/
inductive Piece where
  | keep (c : Char)
  | hole (token : String)
deriving DecidableEq, Repr

/-- The capitals that a text starts with. -/
def capitals (s : List Char) : List Char :=
  s.takeWhile Char.isUpper

/-- The pieces of a template. -/
def pieces : List Char → List Piece
  | [] => []
  | c :: rest =>
    if c = '$' then
      .hole (String.ofList ('$' :: capitals rest)) :: (pieces rest).drop (capitals rest).length
    else .keep c :: pieces rest

/-- The placeholder that a piece is, if it is one. -/
def Piece.token? : Piece → Option String
  | keep _ => none
  | hole token => some token

/-- A piece as it stands in the template. -/
def Piece.source : Piece → List Char
  | keep c => [c]
  | hole token => token.toList

/-- What is written for a piece: a placeholder that is not bound stays as it is. -/
def Piece.filled (bindings : List Binding) : Piece → List Char
  | keep c => [c]
  | hole token => ((bindings.find? fun b => b.token = token).map (·.written)).getD token.toList

theorem pieces_append {front : List Char} (h : ∀ c ∈ front, c.isUpper = true) (s : List Char) :
    pieces (front ++ s) = front.map .keep ++ pieces s := by
  induction front with
  | nil => rfl
  | cons c front ih =>
      have hc : c ≠ '$' := by
        rintro rfl
        exact absurd (h '$' List.mem_cons_self) (by decide)
      show (if c = '$' then _ else Piece.keep c :: pieces (front ++ s)) = _
      rw [if_neg hc, ih fun d hd => h d (List.mem_cons_of_mem _ hd)]
      rfl

theorem pieces_dollar (rest : List Char) :
    pieces ('$' :: rest) =
      .hole (String.ofList ('$' :: capitals rest)) :: pieces (rest.drop (capitals rest).length) := by
  have hcapitals : ∀ c ∈ capitals rest, c.isUpper = true := fun c hc =>
    List.all_eq_true.mp List.all_takeWhile c hc
  have hsplit : rest = capitals rest ++ rest.drop (capitals rest).length :=
    (List.prefix_iff_eq_append.mp (List.takeWhile_prefix _)).symm
  have hrest : pieces rest = (capitals rest).map .keep ++ pieces (rest.drop (capitals rest).length) :=
    (congrArg pieces hsplit).trans (pieces_append hcapitals _)
  show Piece.hole _ :: (pieces rest).drop (capitals rest).length = _
  rw [hrest, List.drop_left' (List.length_map _)]

/-- The pieces of a template together are the template. -/
theorem flatMap_source_pieces (template : List Char) :
    (pieces template).flatMap Piece.source = template := by
  induction hn : template.length using Nat.strongRecOn generalizing template with
  | _ n ih =>
      cases template with
      | nil => rfl
      | cons c rest =>
          by_cases hc : c = '$'
          · subst hc
            have hsplit : capitals rest ++ rest.drop (capitals rest).length = rest :=
              List.prefix_iff_eq_append.mp (List.takeWhile_prefix _)
            have hlength : (rest.drop (capitals rest).length).length < n := by
              rw [← hn, List.length_drop, List.length_cons]
              omega
            rw [pieces_dollar, List.flatMap_cons, ih _ hlength _ rfl]
            show (String.ofList ('$' :: capitals rest)).toList ++ _ = _
            rw [String.toList_ofList, List.cons_append, hsplit]
          · have hlength : rest.length < n := by
              rw [← hn]
              exact Nat.lt_succ_self _
            show (if c = '$' then _ else Piece.keep c :: pieces rest).flatMap Piece.source = _
            rw [if_neg hc, List.flatMap_cons, ih _ hlength _ rfl]
            rfl

/-! ## The longest token -/

/-- Whether a binding has a token with which a text starts. -/
def Binding.startsText (b : Binding) (s : List Char) : Prop :=
  b.token.isEmpty = false ∧ b.token.toList <+: s

theorem mem_longestFirst {bindings : List Binding} {b : Binding} :
    b ∈ longestFirst bindings ↔ b ∈ bindings :=
  List.mem_mergeSort

theorem pairwise_longestFirst (bindings : List Binding) :
    (longestFirst bindings).Pairwise fun a b => b.token.length ≤ a.token.length := by
  refine (List.pairwise_mergeSort ?_ ?_ bindings).imp fun h => of_decide_eq_true h
  · intro a b c hab hbc
    simp only [decide_eq_true_eq] at hab hbc ⊢
    omega
  · intro a b
    simp only [Bool.or_eq_true, decide_eq_true_eq]
    omega

theorem bindingAt?_eq_none_iff {bindings : List Binding} {s : List Char} :
    bindingAt? (longestFirst bindings) s = none ↔ ∀ b ∈ bindings, ¬ b.startsText s := by
  rw [bindingAt?, List.find?_eq_none]
  constructor
  · intro h b hb hstarts
    refine h b (mem_longestFirst.mpr hb) ?_
    rw [hstarts.1, List.isPrefixOf_iff_prefix.mpr hstarts.2]
    rfl
  · intro h b hb hfound
    simp only [Bool.and_eq_true, Bool.not_eq_true', List.isPrefixOf_iff_prefix] at hfound
    exact h b (mem_longestFirst.mp hb) hfound

/-- The token that is replaced is the longest of those that start there. -/
theorem longest_of_bindingAt? {bindings : List Binding} {s : List Char} {b : Binding}
    (h : bindingAt? (longestFirst bindings) s = some b) :
    b ∈ bindings ∧ b.startsText s ∧
      ∀ b' ∈ bindings, b'.startsText s → b'.token.length ≤ b.token.length := by
  obtain ⟨hfound, before, after, hsplit, hbefore⟩ := List.find?_eq_some_iff_append.mp h
  simp only [Bool.and_eq_true, Bool.not_eq_true', List.isPrefixOf_iff_prefix] at hfound
  have hmem : b ∈ longestFirst bindings := by
    rw [hsplit]
    exact List.mem_append_right _ List.mem_cons_self
  refine ⟨mem_longestFirst.mp hmem, hfound, ?_⟩
  intro b' hb' hstarts
  have hb' := mem_longestFirst.mpr hb'
  have hsorted := pairwise_longestFirst bindings
  rw [hsplit] at hb' hsorted
  rcases List.mem_append.mp hb' with hearlier | hlater
  · -- an earlier one that starts there would have been found first
    have := hbefore b' hearlier
    rw [hstarts.1, List.isPrefixOf_iff_prefix.mpr hstarts.2] at this
    cases this
  · rcases List.mem_cons.mp hlater with rfl | hlater
    · exact Nat.le_refl _
    · exact (List.pairwise_cons.mp (List.pairwise_append.mp hsorted).2.1).1 b' hlater

/-! ## Replacing is filling in -/

/-- A token that a placeholder can be: a dollar and capitals. -/
def IsPlaceholder (token : String) : Prop :=
  token.toList.head? = some '$' ∧ token.toList.tail.all Char.isUpper = true

instance (token : String) : Decidable (IsPlaceholder token) :=
  inferInstanceAs (Decidable (_ ∧ _))

theorem IsPlaceholder.letters {token : String} (h : IsPlaceholder token) :
    ∃ letters, token.toList = '$' :: letters ∧ ∀ c ∈ letters, c.isUpper = true := by
  obtain ⟨hfirst, hupper⟩ := h
  cases htoken : token.toList with
  | nil => rw [htoken] at hfirst; cases hfirst
  | cons c letters =>
      rw [htoken] at hfirst hupper
      exact ⟨letters, congrArg (· :: letters) (Option.some.inj hfirst), List.all_eq_true.mp hupper⟩

/-- Bindings that can fill the placeholders of a template: their tokens are placeholders, no token is
bound twice, and every placeholder of the template is bound. -/
structure Fits (bindings : List Binding) (template : List Char) : Prop where
  placeholder : ∀ token ∈ bindings.map (·.token), IsPlaceholder token
  once : (bindings.map (·.token)).Nodup
  bound : ∀ token ∈ (pieces template).filterMap Piece.token?, token ∈ bindings.map (·.token)

theorem eq_of_token_eq {bindings : List Binding}
    (h : bindings.Pairwise fun a b => a.token ≠ b.token) {b b' : Binding} (hb : b ∈ bindings)
    (hb' : b' ∈ bindings) (heq : b.token = b'.token) : b = b' := by
  induction bindings with
  | nil => cases hb
  | cons a bindings ih =>
      obtain ⟨ha, hrest⟩ := List.pairwise_cons.mp h
      rcases List.mem_cons.mp hb with hfirst | hlater
      · rcases List.mem_cons.mp hb' with hfirst' | hlater'
        · rw [hfirst, hfirst']
        · exact absurd (hfirst ▸ heq) (ha b' hlater')
      · rcases List.mem_cons.mp hb' with hfirst' | hlater'
        · exact absurd (hfirst' ▸ heq.symm) (ha b hlater)
        · exact ih hrest hlater hlater'

/-- What is written for a placeholder that is bound. -/
theorem filled_hole {bindings : List Binding}
    (h : bindings.Pairwise fun a b => a.token ≠ b.token) {b : Binding} (hb : b ∈ bindings) :
    (Piece.hole b.token).filled bindings = b.written := by
  show ((bindings.find? fun b' => b'.token = b.token).map (·.written)).getD _ = _
  cases hfind : bindings.find? fun b' => b'.token = b.token with
  | none =>
      have := List.find?_eq_none.mp hfind b hb
      exact absurd (decide_eq_true rfl) this
  | some b' =>
      have htoken : b'.token = b.token :=
        of_decide_eq_true (List.find?_eq_some_iff_append.mp hfind).1
      rw [eq_of_token_eq h (List.mem_of_find?_eq_some hfind) hb htoken]
      rfl

theorem length_le_capitals {letters rest : List Char} (h : letters <+: rest)
    (hupper : ∀ c ∈ letters, c.isUpper = true) : letters.length ≤ (capitals rest).length := by
  obtain ⟨behind, rfl⟩ := h
  rw [capitals, List.takeWhile_append_of_pos hupper, List.length_append]
  exact Nat.le_add_right _ _

section

variable {bindings : List Binding}

theorem emptyTokenText_of_forall_ne (h : ∀ b ∈ bindings, b.token ≠ "") :
    emptyTokenText (longestFirst bindings) = [] := by
  have hnone : (longestFirst bindings).find? (fun b => b.token.isEmpty) = none := by
    rw [List.find?_eq_none]
    intro b hb hempty
    exact h b (mem_longestFirst.mp hb) (String.isEmpty_iff.mp hempty)
  rw [emptyTokenText, hnone]
  rfl

theorem emptyTokenText_eq_nil (h : ∀ b ∈ bindings, IsPlaceholder b.token) :
    emptyTokenText (longestFirst bindings) = [] := by
  refine emptyTokenText_of_forall_ne fun b hb hempty => ?_
  obtain ⟨letters, htoken, -⟩ := (h b hb).letters
  rw [hempty] at htoken
  cases htoken

theorem bindingAt?_of_ne_dollar (h : ∀ b ∈ bindings, IsPlaceholder b.token) {c : Char}
    (hc : c ≠ '$') (rest : List Char) : bindingAt? (longestFirst bindings) (c :: rest) = none := by
  rw [bindingAt?_eq_none_iff]
  intro b hb hstarts
  obtain ⟨letters, htoken, -⟩ := (h b hb).letters
  have hprefix := hstarts.2
  rw [htoken] at hprefix
  exact hc (List.cons_prefix_cons.mp hprefix).1.symm

/-- At a placeholder that is bound, the token that is replaced is the whole placeholder. -/
theorem bindingAt?_placeholder (h : ∀ b ∈ bindings, IsPlaceholder b.token) {rest : List Char}
    (hbound : ∃ b ∈ bindings, b.token = String.ofList ('$' :: capitals rest)) :
    ∃ b ∈ bindings, bindingAt? (longestFirst bindings) ('$' :: rest) = some b ∧
      b.token.toList = '$' :: capitals rest := by
  obtain ⟨b, hb, htoken⟩ := hbound
  have hlist : b.token.toList = '$' :: capitals rest := by
    rw [htoken, String.toList_ofList]
  have hwhole : '$' :: capitals rest <+: '$' :: rest :=
    List.cons_prefix_cons.mpr ⟨rfl, List.takeWhile_prefix _⟩
  have hstarts : b.startsText ('$' :: rest) := by
    refine ⟨?_, hlist ▸ hwhole⟩
    rw [Bool.eq_false_iff]
    intro hempty
    rw [String.isEmpty_iff.mp hempty] at hlist
    cases hlist
  cases hfound : bindingAt? (longestFirst bindings) ('$' :: rest) with
  | none => exact absurd hstarts (bindingAt?_eq_none_iff.mp hfound b hb)
  | some b' =>
      obtain ⟨hb', ⟨-, hprefix⟩, hlongest⟩ := longest_of_bindingAt? hfound
      obtain ⟨letters, hletters, hupper⟩ := (h b' hb').letters
      refine ⟨b', hb', rfl, ?_⟩
      rw [hletters] at hprefix ⊢
      have hlong := length_le_capitals (List.cons_prefix_cons.mp hprefix).2 hupper
      have hshort := hlongest b hb hstarts
      rw [← String.length_toList, ← String.length_toList, hlist, hletters] at hshort
      have hlength : ('$' :: letters).length = ('$' :: capitals rest).length := by
        simp only [List.length_cons] at hshort ⊢
        omega
      exact (List.prefix_of_prefix_length_le hprefix hwhole (Nat.le_of_eq hlength)).eq_of_length
        hlength

theorem replaceFrom_skip (bindings : List Binding) (skip : Nat) (s : List Char) :
    replaceFrom bindings skip s = replaceFrom bindings 0 (s.drop skip) := by
  induction skip generalizing s with
  | zero => rfl
  | succ skip ih =>
      cases s with
      | nil => rfl
      | cons c rest => exact ih rest

theorem replaceFrom_eq_filled (hplaceholder : ∀ b ∈ bindings, IsPlaceholder b.token)
    (honce : bindings.Pairwise fun a b => a.token ≠ b.token) {template : List Char}
    (hbound : ∀ token, .hole token ∈ pieces template → ∃ b ∈ bindings, b.token = token) :
    replaceFrom (longestFirst bindings) 0 template =
      (pieces template).flatMap (Piece.filled bindings) := by
  induction hn : template.length using Nat.strongRecOn generalizing template with
  | _ n ih =>
      cases template with
      | nil => exact emptyTokenText_eq_nil hplaceholder
      | cons c rest =>
          by_cases hc : c = '$'
          · subst hc
            rw [pieces_dollar] at hbound ⊢
            obtain ⟨b, hb, hfound, hlist⟩ :=
              bindingAt?_placeholder hplaceholder (hbound _ List.mem_cons_self)
            have hlength : (rest.drop (capitals rest).length).length < n := by
              rw [← hn, List.length_drop, List.length_cons]
              omega
            have hskip : b.token.length - 1 = (capitals rest).length := by
              rw [← String.length_toList, hlist]
              rfl
            have htoken : b.token = String.ofList ('$' :: capitals rest) := by
              rw [← hlist, String.ofList_toList]
            have hfilled : (Piece.hole (String.ofList ('$' :: capitals rest))).filled bindings =
                b.written := htoken ▸ filled_hole honce hb
            rw [replaceFrom, hfound]
            show b.written ++ replaceFrom _ (b.token.length - 1) rest = _
            rw [hskip, replaceFrom_skip, ih _ hlength (fun token hmem =>
              hbound token (List.mem_cons_of_mem _ hmem)) rfl, List.flatMap_cons, hfilled]
          · have hlength : rest.length < n := by
              rw [← hn]
              exact Nat.lt_succ_self _
            have hpieces : pieces (c :: rest) = .keep c :: pieces rest := if_neg hc
            rw [hpieces] at hbound ⊢
            rw [replaceFrom, bindingAt?_of_ne_dollar hplaceholder hc rest]
            show emptyTokenText _ ++ c :: replaceFrom _ 0 rest = _
            rw [emptyTokenText_eq_nil hplaceholder, ih _ hlength (fun token hmem =>
              hbound token (List.mem_cons_of_mem _ hmem)) rfl]
            rfl

/-- **Replacing the tokens of bindings that fit a template fills in its placeholders**, each by what
is written for it, and keeps every other character. -/
theorem substitute_eq_filled {template : String} (h : Fits bindings template.toList) :
    (substitute template bindings).toList =
      (pieces template.toList).flatMap (Piece.filled bindings) := by
  have hplaceholder : ∀ b ∈ bindings, IsPlaceholder b.token := fun b hb =>
    h.placeholder b.token (List.mem_map_of_mem hb)
  rw [substitute, String.toList_ofList]
  refine replaceFrom_eq_filled hplaceholder (List.pairwise_map.mp h.once) ?_
  intro token hmem
  exact List.mem_map.mp (h.bound token (List.mem_filterMap.mpr ⟨.hole token, hmem, rfl⟩))

end

end TextProviders.Template
