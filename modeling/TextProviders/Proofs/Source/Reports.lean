import Mathlib.Data.List.Forall2
import TextProviders.Proofs.Source.Lexing
import TextProviders.Proofs.Source.Masked

/-!
# What a scan reports

A scan reports the marked types that stand in no braces, in the order in which they are found, or the
first of them whose annotation members are not well formed (`declarations_cases`).

What stands in comments and in literals has no part in which types these are.  Both views of a source
are what the lexical grammar makes of it (`views_of_isLexed`), so sources that differ only in their
comments and in the insides of their literals report the same types.
-/

namespace TextProviders.Source

/-! ## Reported types -/

/-- The marks of a source that stand in no braces. -/
def topMarks (text : List Char) : List Mark :=
  (marks (cells text)).filter fun m => !m.isNested

/-- What is reported of a mark. -/
structure Mark.Declares (package : List Char) (m : Mark) (d : Declaration) : Prop where
  name : d.name = qualify package m.name
  visibility : d.visibility = m.visibility
  binding : parseMembers (m.arguments.map Cell.code) = .ok d.binding

theorem findingsOf_cases (package : List Char) (ms : List Mark) :
    (∃ fault, (findingsOf package ms).fault = some fault ∧
        ∃ m ∈ ms.filter fun m => !m.isNested, ∃ f, parseMembers (m.arguments.map Cell.code) = .error f) ∨
      (findingsOf package ms).fault = none ∧
        List.Forall₂ (Mark.Declares package) (ms.filter fun m => !m.isNested)
          ((findingsOf package ms).findings.filterMap Finding.declaration?) := by
  induction ms with
  | nil => exact .inr ⟨rfl, .nil⟩
  | cons m ms ih =>
      by_cases hnested : m.isNested = true
      · have hfinding : findingOf package m = .ok (.nested (String.ofList m.name)) := by
          simp [findingOf, hnested]
        rw [List.filter_cons_of_neg (by simp [hnested]), findingsOf, hfinding]
        exact ih
      · cases hmembers : parseMembers (m.arguments.map Cell.code) with
        | error f =>
            have hfinding : findingOf package m = .error ⟨qualify package m.name, f⟩ := by
              simp [findingOf, hnested, hmembers]
            refine .inl ⟨_, by rw [findingsOf, hfinding], m, ?_, f, hmembers⟩
            simp [hnested]
        | ok b =>
            have hfinding : findingOf package m =
                .ok (.declared ⟨qualify package m.name, m.visibility, b⟩) := by
              simp [findingOf, hnested, hmembers]
            have hdeclares : m.Declares package ⟨qualify package m.name, m.visibility, b⟩ :=
              ⟨rfl, rfl, hmembers⟩
            rcases ih with ⟨fault, hfault, m', hm', hf⟩ | ⟨hfault, hall⟩
            · refine .inl ⟨fault, by rw [findingsOf, hfinding]; exact hfault, m', ?_, hf⟩
              rw [List.filter_cons_of_pos (by simp [hnested])]
              exact List.mem_cons_of_mem _ hm'
            · refine .inr ⟨by rw [findingsOf, hfinding]; exact hfault, ?_⟩
              rw [List.filter_cons_of_pos (by simp [hnested]), findingsOf, hfinding]
              exact .cons hdeclares hall

/-- **A scan reports the types that stand in no braces**, or a fault of the members of one of them. -/
theorem declarations_cases (text : String) :
    (∃ fault, declarations text = .error fault ∧
        ∃ m ∈ topMarks text.toList, ∃ f, parseMembers (m.arguments.map Cell.code) = .error f) ∨
      ∃ ds, declarations text = .ok ds ∧
        List.Forall₂ (Mark.Declares (packageOf (masked text.toList))) (topMarks text.toList) ds := by
  unfold declarations scan
  rcases findingsOf_cases (packageOf (masked text.toList)) (marks (cells text.toList)) with
    ⟨fault, hfault, hm⟩ | ⟨hfault, hall⟩
  · left
    refine ⟨fault, ?_, hm⟩
    dsimp only [masked] at hfault ⊢
    rw [hfault]
  · right
    refine ⟨_, ?_, hall⟩
    dsimp only [masked] at hfault ⊢
    rw [hfault]

/-- Each mark is reported. -/
theorem exists_declares_of_mem {package : List Char} {ms : List Mark} {ds : List Declaration}
    (h : List.Forall₂ (Mark.Declares package) ms ds) {m : Mark} (hm : m ∈ ms) :
    ∃ d ∈ ds, m.Declares package d := by
  induction h with
  | nil => cases hm
  | @cons m' d _ ds hd _ ih =>
      rcases List.mem_cons.mp hm with rfl | hm
      · exact ⟨d, List.mem_cons_self, hd⟩
      · obtain ⟨d', hd', hdeclares⟩ := ih hm
        exact ⟨d', List.mem_cons_of_mem _ hd', hdeclares⟩

/-- The names and the visibilities that are reported. -/
theorem map_of_forall₂_declares {package : List Char} {ms : List Mark} {ds : List Declaration}
    (h : List.Forall₂ (Mark.Declares package) ms ds) :
    ds.map (fun d => (d.name, d.visibility)) =
      ms.map fun m => (qualify package m.name, m.visibility) := by
  induction h with
  | nil => rfl
  | cons hd _ ih => rw [List.map_cons, List.map_cons, ih, hd.name, hd.visibility]

/-- A cell that shows no more than its masked character. -/
def Cell.hide (c : Cell) : Cell :=
  ⟨c.masked, c.masked⟩

theorem map_hide_eq {s s' : List Cell} (h : s.map Cell.masked = s'.map Cell.masked) :
    s.map Cell.hide = s'.map Cell.hide := by
  have hhide : Cell.hide = (fun c => ⟨c, c⟩) ∘ Cell.masked := rfl
  rw [hhide, ← List.map_map, ← List.map_map, h]

/-- Hiding the code changes no name and no visibility of what is at the top level. -/
theorem map_topMarks_hide (package : List Char) (s : List Cell) :
    ((marks (s.map Cell.hide)).filter fun m => !m.isNested).map
        (fun m => (qualify package m.name, m.visibility)) =
      ((marks s).filter fun m => !m.isNested).map fun m => (qualify package m.name, m.visibility) := by
  have hg : ∀ c : Cell, c.hide.masked = c.masked := fun _ => rfl
  rw [marks_map hg, List.filter_map, List.map_map]
  simp only [Function.comp_def, Mark.isNested_map hg, Mark.visibility_map hg]
  rfl

/-- **The masked view decides which types are reported.** -/
theorem map_declarations_of_masked_eq {text text' : String}
    (hmasked : masked text.toList = masked text'.toList) {ds ds' : List Declaration}
    (h : declarations text = .ok ds) (h' : declarations text' = .ok ds') :
    ds.map (fun d => (d.name, d.visibility)) = ds'.map fun d => (d.name, d.visibility) := by
  have hreported {text : String} {ds : List Declaration} (h : declarations text = .ok ds) :
      List.Forall₂ (Mark.Declares (packageOf (masked text.toList))) (topMarks text.toList) ds := by
    rcases declarations_cases text with ⟨fault, hfault, -⟩ | ⟨ds', hds', hall⟩
    · cases h.symm.trans hfault
    · obtain rfl := Except.ok.inj (h.symm.trans hds')
      exact hall
  rw [map_of_forall₂_declares (hreported h), map_of_forall₂_declares (hreported h'), hmasked, topMarks,
    topMarks, ← map_topMarks_hide _ (cells text.toList), map_hide_eq hmasked, map_topMarks_hide]

/-! ## What stands in comments and literals -/

namespace Lexeme

/-- A lexeme as it stands in the code: a comment is one space. -/
def shown : Lexeme → List Char
  | .code c => [c]
  | .literal quote body => quote ++ body ++ quote
  | .comment _ => [' ']

/-- A lexeme as it stands in the masked view: the inside of a literal is blank. -/
def blanked : Lexeme → List Char
  | .code c => [c]
  | .literal quote body => quote ++ List.replicate body.length ' ' ++ quote
  | .comment _ => [' ']

/-- Lexemes that differ at most in the text of a comment or in the inside of a literal. -/
inductive Alike : Lexeme → Lexeme → Prop
  | code (c : Char) : Alike (.code c) (.code c)
  | literal (quote : List Char) {body body' : List Char} : body.length = body'.length →
      Alike (.literal quote body) (.literal quote body')
  | comment (text text' : List Char) : Alike (.comment text) (.comment text')

theorem map_code_cells (l : Lexeme) : l.cells.map Cell.code = l.shown := by
  cases l with
  | code _ | comment _ => rfl
  | literal quote body => simp [cells, shown, Function.comp_def]

theorem map_masked_cells (l : Lexeme) : l.cells.map Cell.masked = l.blanked := by
  cases l with
  | code _ | comment _ => rfl
  | literal quote body => simp [cells, blanked, Function.comp_def]

theorem Alike.refl (l : Lexeme) : l.Alike l := by
  cases l with
  | code c => exact .code c
  | literal quote body => exact .literal quote rfl
  | comment text => exact .comment text text

theorem Alike.blanked_eq {l l' : Lexeme} (h : l.Alike l') : l.blanked = l'.blanked := by
  cases h with
  | code c => rfl
  | literal quote hlength => rw [blanked, blanked, hlength]
  | comment text text' => rfl

end Lexeme

/-- **A source is seen as the language divides it**, if no text block closes early: its code without the
comments, and the same with the insides of the literals blanked.  So what stands in comments and in
literals has no part in which types are reported. -/
theorem views_of_isLexed {ls : List Lexeme} (h : IsLexed ls) (hblocks : ∀ l ∈ ls, ¬ l.ClosesEarly) :
    code (ls.flatMap Lexeme.source) = ls.flatMap Lexeme.shown ∧
      masked (ls.flatMap Lexeme.source) = ls.flatMap Lexeme.blanked ∧
      ∀ ls', List.Forall₂ Lexeme.Alike ls ls' → IsLexed ls' → (∀ l ∈ ls', ¬ l.ClosesEarly) →
        ∀ ds ds', declarations (String.ofList (ls.flatMap Lexeme.source)) = .ok ds →
          declarations (String.ofList (ls'.flatMap Lexeme.source)) = .ok ds' →
            ds.map (fun d => (d.name, d.visibility)) = ds'.map fun d => (d.name, d.visibility) := by
  have hcode {ls : List Lexeme} (h : IsLexed ls) (hblocks : ∀ l ∈ ls, ¬ l.ClosesEarly) :
      code (ls.flatMap Lexeme.source) = ls.flatMap Lexeme.shown := by
    rw [code, cells, (lexemes_source_iff h).mpr hblocks, List.map_flatMap]
    exact congrArg (List.flatMap · ls) (funext Lexeme.map_code_cells)
  have hmasked {ls : List Lexeme} (h : IsLexed ls) (hblocks : ∀ l ∈ ls, ¬ l.ClosesEarly) :
      masked (ls.flatMap Lexeme.source) = ls.flatMap Lexeme.blanked := by
    rw [masked, cells, (lexemes_source_iff h).mpr hblocks, List.map_flatMap]
    exact congrArg (List.flatMap · ls) (funext Lexeme.map_masked_cells)
  refine ⟨hcode h hblocks, hmasked h hblocks, fun ls' halike h' hblocks' ds ds' hds hds' => ?_⟩
  refine map_declarations_of_masked_eq ?_ hds hds'
  rw [String.toList_ofList, String.toList_ofList, hmasked h hblocks, hmasked h' hblocks']
  clear hds hds' h h' hblocks hblocks'
  induction halike with
  | nil => rfl
  | cons hl _ ih => rw [List.flatMap_cons, List.flatMap_cons, hl.blanked_eq, ih]

/-- A string that holds a quote and a brace, and a comment that holds a quote, beside ones that hold
neither. -/
theorem views_of_isLexed_brace_in_string :
    let ls (body text : List Char) : List Lexeme :=
      "class B \x7b String s = ".toList.map .code ++ .literal ['"'] body ::
        "; \x7d ".toList.map .code ++ .comment ('/' :: '/' :: text) ::
        "\n@TextResourceAware class A \x7b\x7d".toList.map .code
    let odd := ls ['\\', '"', '{'] " don't".toList
    let plain := ls ['a', 'b', 'c'] []
    let report : List Declaration := [{ name := "A", visibility := .package }]
    (IsLexed odd ∧ (∀ l ∈ odd, ¬ l.ClosesEarly) ∧ List.Forall₂ Lexeme.Alike odd plain ∧ IsLexed plain ∧
        (∀ l ∈ plain, ¬ l.ClosesEarly) ∧
        declarations (String.ofList (plain.flatMap Lexeme.source)) = .ok report) ∧
      masked (odd.flatMap Lexeme.source) =
        "class B \x7b String s = \"   \"; \x7d  \n@TextResourceAware class A \x7b\x7d".toList ∧
      ∃ ds, declarations (String.ofList (odd.flatMap Lexeme.source)) = .ok ds ∧
        ds.map (fun d => (d.name, d.visibility)) = report.map fun d => (d.name, d.visibility) := by
  intro ls odd plain report
  have hlexed (body text : List Char) (hbody : Quoted '"' body) (htext : '\n' ∉ text)
      (hends : (ls body text).IsChain fun l m => l.EndsBefore m.source.head?) :
      IsLexed (ls body text) := by
    refine ⟨?_, hends⟩
    simp only [ls, List.forall_mem_append, List.forall_mem_cons]
    exact ⟨⟨isJava_of_mem_map_code (by decide +kernel), .string hbody,
      isJava_of_mem_map_code (by decide +kernel)⟩, .lineComment htext,
      isJava_of_mem_map_code (by decide +kernel)⟩
  have hopen (body text : List Char) : ∀ l ∈ ls body text, ¬ l.ClosesEarly := by
    simp only [ls, List.forall_mem_append, List.forall_mem_cons, List.forall_mem_map]
    simp [Lexeme.ClosesEarly, blockQuotes]
  have hodd : IsLexed odd := hlexed _ _
    (.escape (by decide) (.plain (by decide) (by decide) (by decide) .nil)) (by decide +kernel)
    (by decide +kernel)
  have hplain : IsLexed plain := hlexed _ _
    (.plain (by decide) (by decide) (by decide) (.plain (by decide) (by decide) (by decide)
      (.plain (by decide) (by decide) (by decide) .nil))) (by decide +kernel) (by decide +kernel)
  have hsame (s : List Lexeme) : List.Forall₂ Lexeme.Alike s s :=
    List.forall₂_same.mpr fun l _ => .refl l
  have halike : List.Forall₂ Lexeme.Alike odd plain := by
    refine List.rel_append ?_ (.cons (.comment _ _) (hsame _))
    exact List.rel_append (hsame _) (.cons (.literal _ rfl) (hsame _))
  have hreport : declarations (String.ofList (plain.flatMap Lexeme.source)) = .ok report := by
    decide +kernel
  obtain ⟨ds, hds⟩ : ∃ ds, declarations (String.ofList (odd.flatMap Lexeme.source)) = .ok ds :=
    ⟨report, by decide +kernel⟩
  obtain ⟨-, hmasked, htypes⟩ := views_of_isLexed hodd (hopen _ _)
  refine ⟨⟨hodd, hopen _ _, halike, hplain, hopen _ _, hreport⟩, ?_, ds, hds,
    htypes plain halike hplain (hopen _ _) ds report hds hreport⟩
  rw [hmasked]
  decide +kernel

/-- A text block with an escaped quote before two others is closed behind them.  The quotes that should
close it open another one, and the brace between the two is never closed: the marked type below is
lost.  With blanks in place of the quotes and the brace it is reported. -/
theorem escaped_quote_closes_text_block :
    let ls (body : List Char) : List Lexeme :=
      "package com.acme;\nclass B \x7b String s = ".toList.map .code ++ .literal blockQuotes body ::
        "; \x7d\n@TextResourceAware\nclass A \x7b\x7d\n".toList.map .code
    let escaped := ls ['\n', '\\', '"', '"', '"', ' ', '{', ' ']
    let blank := ls ['\n', ' ', ' ', ' ', ' ', ' ', ' ', ' ']
    IsLexed escaped ∧ IsLexed blank ∧ List.Forall₂ Lexeme.Alike escaped blank ∧
      masked (escaped.flatMap Lexeme.source) ≠ escaped.flatMap Lexeme.blanked ∧
      declarations (String.ofList (escaped.flatMap Lexeme.source)) = .ok [] ∧
      declarations (String.ofList (blank.flatMap Lexeme.source)) =
        .ok [{ name := "com.acme.A", visibility := .package }] := by
  intro ls escaped blank
  have hlexed (body : List Char) (hbody : BlockText 0 body)
      (hends : (ls body).IsChain fun l m => l.EndsBefore m.source.head?) : IsLexed (ls body) := by
    refine ⟨?_, hends⟩
    simp only [ls, List.forall_mem_append, List.forall_mem_cons]
    exact ⟨isJava_of_mem_map_code (by decide +kernel), .textBlock hbody,
      isJava_of_mem_map_code (by decide +kernel)⟩
  have hplain {n : Nat} {c : Char} {rest : List Char} (hc : c ≠ '"' ∧ c ≠ '\\')
      (h : BlockText 0 rest) : BlockText n (c :: rest) := .plain hc.1 hc.2 h
  have hsame (s : List Lexeme) : List.Forall₂ Lexeme.Alike s s :=
    List.forall₂_same.mpr fun l _ => .refl l
  refine ⟨hlexed _ ?_ (by decide +kernel), hlexed _ ?_ (by decide +kernel),
    List.rel_append (hsame _) (.cons (.literal _ rfl) (hsame _)), by decide +kernel, by decide +kernel,
    by decide +kernel⟩
  · exact hplain (by decide) (.escape (.quote (by decide) (.quote (by decide)
      (hplain (by decide) (hplain (by decide) (hplain (by decide) .nil))))))
  · exact hplain (by decide) (hplain (by decide) (hplain (by decide) (hplain (by decide)
      (hplain (by decide) (hplain (by decide) (hplain (by decide) (hplain (by decide) .nil)))))))

end TextProviders.Source
