import TextProviders.Proofs.Template.Pattern

/-!
# A walk over a template

A template is walked from the left.  At each place the longest bound token that starts there gives way to
what is written for it, and the walk goes on behind it; where none starts, a character is copied.  `Walk` is
the relation between a template and the steps of such a walk.  It looks at the template only, so that what was
written for a token is not looked at again, and it asks which bindings there are, not in which order.

A walk can be taken in one way (`exists_walk`, `Walk.unique`), and `substitute_walks` says that replacing
tokens writes what its steps write.  The empty token, if it is bound, is no step: its value comes before each
copied character and at the end.  So the order of the bindings makes no difference, and neither does a binding
whose token does not occur.
-/

namespace TextProviders.Template

/-- What a walk does at a place of a template. -/
inductive Step where
  | copy (c : Char)
  | replace (b : Binding)
deriving DecidableEq, Repr

namespace Step

/-- What a step writes. -/
def written : Step → List Char
  | copy c => [c]
  | replace b => b.written

/-- What a step writes if a value comes before each copied character. -/
def writtenAfter (value : List Char) : Step → List Char
  | copy c => value ++ [c]
  | replace b => b.written

theorem writtenAfter_nil : writtenAfter [] = written := by
  funext step
  cases step <;> rfl

end Step

/-- A binding whose token is the longest of those that start a text. -/
structure IsLongestAt (bindings : List Binding) (s : List Char) (b : Binding) : Prop where
  bound : b ∈ bindings
  starts : b.startsText s
  longest : ∀ b' ∈ bindings, b'.startsText s → b'.token.length ≤ b.token.length

instance (b : Binding) (s : List Char) : Decidable (b.startsText s) :=
  inferInstanceAs (Decidable (_ ∧ _))

instance (bindings : List Binding) (s : List Char) (b : Binding) :
    Decidable (IsLongestAt bindings s b) :=
  decidable_of_iff (b ∈ bindings ∧ b.startsText s ∧
      ∀ b' ∈ bindings, b'.startsText s → b'.token.length ≤ b.token.length)
    ⟨fun ⟨bound, starts, longest⟩ => ⟨bound, starts, longest⟩,
      fun h => ⟨h.bound, h.starts, h.longest⟩⟩

/-- The steps of a walk over a text. -/
inductive Walk (bindings : List Binding) : List Char → List Step → Prop
  | done : Walk bindings [] []
  | replace {s : List Char} {b : Binding} {steps : List Step} :
      IsLongestAt bindings s b → Walk bindings (s.drop b.token.length) steps →
        Walk bindings s (.replace b :: steps)
  | copy {c : Char} {rest : List Char} {steps : List Step} :
      (∀ b ∈ bindings, ¬b.startsText (c :: rest)) → Walk bindings rest steps →
        Walk bindings (c :: rest) (.copy c :: steps)

/-- There is a walk over every text. -/
theorem exists_walk (bindings : List Binding) (s : List Char) : ∃ steps, Walk bindings s steps := by
  induction hn : s.length using Nat.strongRecOn generalizing s with
  | _ n ih =>
      cases hfound : bindingAt? (longestFirst bindings) s with
      | some b =>
          obtain ⟨hb, hstarts, hlongest⟩ := longest_of_bindingAt? hfound
          obtain ⟨steps, hsteps⟩ := ih _ (hn ▸ hstarts.length_drop_lt) _ rfl
          exact ⟨_, .replace ⟨hb, hstarts, hlongest⟩ hsteps⟩
      | none =>
          cases s with
          | nil => exact ⟨_, .done⟩
          | cons c rest =>
              have hshorter : rest.length < n := by
                rw [← hn]
                exact Nat.lt_succ_self _
              obtain ⟨steps, hsteps⟩ := ih _ hshorter rest rfl
              exact ⟨_, .copy (bindingAt?_eq_none_iff.mp hfound) hsteps⟩

/-- A walk is the same for other bindings if the same ones have a token that occurs in the text. -/
theorem Walk.congr {bindings other : List Binding} {s : List Char} {steps : List Step}
    (h : Walk bindings s steps)
    (hsame : ∀ b : Binding, b.token.toList <:+: s → (b ∈ other ↔ b ∈ bindings)) :
    Walk other s steps := by
  induction h with
  | done => exact .done
  | @replace s b steps hlongest _ ih =>
      have hother : IsLongestAt other s b := by
        refine ⟨(hsame b hlongest.starts.2.isInfix).mpr hlongest.bound, hlongest.starts, ?_⟩
        intro b' hb' hstarts
        exact hlongest.longest b' ((hsame b' hstarts.2.isInfix).mp hb') hstarts
      exact .replace hother (ih fun b' hb' => hsame b' (hb'.trans (List.drop_suffix _ _).isInfix))
  | copy hnone _ ih =>
      refine .copy (fun b' hb' hstarts => ?_) (ih fun b' hb' => hsame b' (List.infix_cons hb'))
      exact hnone b' ((hsame b' hstarts.2.isInfix).mp hb') hstarts

section

variable {bindings : List Binding} (honce : (bindings.map (·.token)).Nodup)

include honce

/-- At most one token is the longest, as every token is bound once. -/
theorem IsLongestAt.eq {s : List Char} {b b' : Binding} (h : IsLongestAt bindings s b)
    (h' : IsLongestAt bindings s b') : b = b' := by
  have hlength : b.token.toList.length = b'.token.toList.length := by
    rw [String.length_toList, String.length_toList]
    exact Nat.le_antisymm (h'.longest b h.bound h.starts) (h.longest b' h'.bound h'.starts)
  have htoken : b.token.toList = b'.token.toList :=
    (List.prefix_of_prefix_length_le h.starts.2 h'.starts.2 (Nat.le_of_eq hlength)).eq_of_length
      hlength
  exact eq_of_token_eq (List.pairwise_map.mp honce) h.bound h'.bound (String.toList_inj.mp htoken)

theorem IsLongestAt.bindingAt?_eq {s : List Char} {b : Binding} (h : IsLongestAt bindings s b) :
    bindingAt? (longestFirst bindings) s = some b := by
  cases hfound : bindingAt? (longestFirst bindings) s with
  | none => exact absurd h.starts (bindingAt?_eq_none_iff.mp hfound b h.bound)
  | some b' =>
      obtain ⟨hb', hstarts, hlongest⟩ := longest_of_bindingAt? hfound
      have hat : IsLongestAt bindings s b' := ⟨hb', hstarts, hlongest⟩
      rw [hat.eq honce h]

/-- A walk over a text can be taken in one way only. -/
theorem Walk.unique {s : List Char} {steps steps' : List Step} (h : Walk bindings s steps)
    (h' : Walk bindings s steps') : steps' = steps := by
  induction h generalizing steps' with
  | done =>
      cases h' with
      | done => rfl
      | replace hlongest _ =>
          exact absurd hlongest.starts.length_le (Nat.not_le_of_lt hlongest.starts.length_pos)
  | replace hlongest _ ih =>
      cases h' with
      | done => exact absurd hlongest.starts.length_le (Nat.not_le_of_lt hlongest.starts.length_pos)
      | replace hlongest' hrest' =>
          obtain rfl := hlongest.eq honce hlongest'
          rw [ih hrest']
      | copy hnone _ => exact absurd hlongest.starts (hnone _ hlongest.bound)
  | copy hnone _ ih =>
      cases h' with
      | replace hlongest _ => exact absurd hlongest.starts (hnone _ hlongest.bound)
      | copy _ hrest' => rw [ih hrest']

/-- Replacing the tokens writes what the steps of the walk write. -/
theorem Walk.replaceFrom_eq {s : List Char} {steps : List Step} (h : Walk bindings s steps) :
    replaceFrom (longestFirst bindings) 0 s =
      steps.flatMap (Step.writtenAfter (emptyTokenText (longestFirst bindings))) ++
        emptyTokenText (longestFirst bindings) := by
  induction h with
  | done => rfl
  | replace hlongest _ ih =>
      rw [replaceFrom_of_some (hlongest.bindingAt?_eq honce), ih, List.flatMap_cons, List.append_assoc]
      rfl
  | copy hnone _ ih =>
      rw [replaceFrom_cons_of_none (bindingAt?_eq_none_iff.mpr hnone), ih, List.flatMap_cons,
        Step.writtenAfter]
      simp only [List.append_assoc, List.cons_append, List.nil_append]

theorem emptyTokenText_of_mem {e : Binding} (he : e ∈ bindings) (hempty : e.token = "") :
    emptyTokenText (longestFirst bindings) = e.written := by
  unfold emptyTokenText
  cases hfind : (longestFirst bindings).find? fun b => b.token.isEmpty with
  | none =>
      have hnot := List.find?_eq_none.mp hfind e (mem_longestFirst.mpr he)
      exact absurd (String.isEmpty_iff.mpr hempty) hnot
  | some e' =>
      have he' : e' ∈ bindings := mem_longestFirst.mp (List.mem_of_find?_eq_some hfind)
      have hfound := List.find?_some hfind
      have htoken : e'.token = e.token := (String.isEmpty_iff.mp hfound).trans hempty.symm
      rw [eq_of_token_eq (List.pairwise_map.mp honce) he' he htoken]
      rfl

/-- Bindings of which the same ones have a token that occurs in the template. -/
theorem substitute_congr {other : List Binding} (honce' : (other.map (·.token)).Nodup)
    {template : String}
    (hsame : ∀ b : Binding, b.token.toList <:+: template.toList → (b ∈ other ↔ b ∈ bindings)) :
    substitute template other = substitute template bindings := by
  obtain ⟨steps, hsteps⟩ := exists_walk bindings template.toList
  have hempty : emptyTokenText (longestFirst other) = emptyTokenText (longestFirst bindings) := by
    -- the empty token occurs everywhere
    have hmem (e : Binding) (he : e.token = "") : e ∈ other ↔ e ∈ bindings := by
      refine hsame e ?_
      rw [he]
      exact List.nil_infix
    by_cases hbound : ∃ e ∈ bindings, e.token = ""
    · obtain ⟨e, he, htoken⟩ := hbound
      rw [emptyTokenText_of_mem honce he htoken,
        emptyTokenText_of_mem honce' ((hmem e htoken).mpr he) htoken]
    · rw [emptyTokenText_of_forall_ne fun e he htoken => hbound ⟨e, he, htoken⟩,
        emptyTokenText_of_forall_ne fun e he htoken => hbound ⟨e, (hmem e htoken).mp he, htoken⟩]
  unfold substitute
  rw [hsteps.replaceFrom_eq honce, (hsteps.congr hsame).replaceFrom_eq honce', hempty]

/-- **Replacing tokens is a walk from the left that takes the longest token at each place.**  The pattern of
all tokens is looked for with the same result.  There is one walk over a template, and its steps write the
result, with the value of the empty token, if that is bound, before each copied character and at the end.  The
order of the bindings makes no difference, and neither does a binding whose token does not occur in the
template. -/
theorem substitute_walks (template : String) :
    replaceByPattern? template bindings = some (substitute template bindings) ∧
      (∃ steps, (∀ steps', Walk bindings template.toList steps' ↔ steps' = steps) ∧
        ((∀ b ∈ bindings, b.token ≠ "") →
          (substitute template bindings).toList = steps.flatMap Step.written) ∧
        ∀ e ∈ bindings, e.token = "" →
          (substitute template bindings).toList =
            steps.flatMap (Step.writtenAfter e.written) ++ e.written) ∧
      (∀ other, other.Perm bindings → substitute template other = substitute template bindings) ∧
      ∀ b ∈ bindings, ¬b.token.toList <:+: template.toList →
        substitute template (bindings.erase b) = substitute template bindings := by
  obtain ⟨steps, hsteps⟩ := exists_walk bindings template.toList
  have hwritten : (substitute template bindings).toList =
      steps.flatMap (Step.writtenAfter (emptyTokenText (longestFirst bindings))) ++
        emptyTokenText (longestFirst bindings) := by
    rw [substitute, String.toList_ofList, hsteps.replaceFrom_eq honce]
  refine ⟨replaceByPattern?_eq honce template, ⟨steps, fun steps' => ?_, fun hne => ?_, ?_⟩, ?_, ?_⟩
  · constructor
    · exact hsteps.unique honce
    · rintro rfl
      exact hsteps
  · rw [hwritten, emptyTokenText_of_forall_ne hne, List.append_nil, Step.writtenAfter_nil]
  · intro e he hempty
    rw [hwritten, emptyTokenText_of_mem honce he hempty]
  · intro other hperm
    have honce' : (other.map (·.token)).Nodup := (hperm.map _).nodup_iff.mpr honce
    exact substitute_congr honce honce' fun b _ => hperm.mem_iff
  · intro b hb habsent
    have honce' : ((bindings.erase b).map (·.token)).Nodup :=
      honce.sublist (List.erase_sublist.map _)
    refine substitute_congr honce honce' fun b' hb' => List.mem_erase_of_ne ?_
    rintro rfl
    exact habsent hb'

end

/-- A token that starts another one, one that its value spells, the one for the text, and the empty one. -/
theorem substitute_walks_overlapping :
    let e : Binding := ⟨"", "-"⟩
    let short : Binding := ⟨"$A", "$AB"⟩
    let long : Binding := ⟨"$AB", "$A"⟩
    let text : Binding := ⟨textToken, "\""⟩
    let bindings := [e, short, text, long]
    let steps := [Step.replace long, .copy '$', .replace short, .replace text, .copy 'B']
    (bindings.map (·.token)).Nodup ∧
      Walk bindings "$AB$$A$TEXTB".toList steps ∧
      (substitute "$AB$$A$TEXTB" bindings).toList =
        "$A-$$AB\"\\\"\"-B-".toList ∧
      substitute "$AB$$A$TEXTB" [long, text, e, short] = substitute "$AB$$A$TEXTB" bindings := by
  intro e short long text bindings steps
  have honce : (bindings.map (·.token)).Nodup := by decide
  obtain ⟨-, ⟨steps', hwalk, -, hempty⟩, horder, -⟩ := substitute_walks honce "$AB$$A$TEXTB"
  have hsteps : Walk bindings "$AB$$A$TEXTB".toList steps := by
    have hchars : "$AB$$A$TEXTB".toList =
        ['$', 'A', 'B', '$', '$', 'A', '$', 'T', 'E', 'X', 'T', 'B'] := by decide
    have hlong : long.token.length = 3 := by decide
    have hshort : short.token.length = 2 := by decide
    have htext : text.token.length = 5 := by decide
    rw [hchars]
    refine .replace (by decide) ?_
    rw [hlong]
    refine .copy (by decide) (.replace (by decide) ?_)
    rw [hshort]
    refine .replace (by decide) ?_
    rw [htext]
    exact .copy (by decide) .done
  obtain rfl := (hwalk steps).mp hsteps
  refine ⟨honce, hsteps, ?_, horder _ (by decide)⟩
  rw [hempty e (by decide) rfl]
  decide

end TextProviders.Template
