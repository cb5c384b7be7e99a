import TextProviders.CommandLine.Commands
import TextProviders.Proofs.Generation.Reporting

/-!
# The views of a failed run

Whether a run failed can be seen in four ways: by the verdict and with it the status of the command, by the
list of errors, by the diagnostics, and by the lines about errors in the summary.  They do not ask the same
question.  The verdict asks whether an outcome has a text of a failure; the list, and with it the summary,
asks whether that text has a character.

The two differ for the empty text, and a failure has an empty text exactly if a collaborator raised one of
generation's own errors without words (`report_eq_empty_iff`).  So the views agree for every run in which no
declaration failed with such an error, and for no other run (`views_agree_iff`), whichever calls failed in
it, and also if several workers took the batch and their reports came in any order.
-/

namespace TextProviders

open scoped List

/-! ## Failures without words -/

/-- One of generation's own errors that a collaborator raised without words. -/
def GenerationFailure.IsWordless (e : GenerationFailure) : Prop :=
  ∃ kind : FailureKind, kind.isGeneration = true ∧ e = .raised kind ""

theorem append_ne_empty {text : String} (h : text ≠ "") (more : String) : text ++ more ≠ "" :=
  fun hempty => h (String.append_eq_empty_iff.mp hempty).1

theorem AccessError.isGeneration_kind (e : AccessError) : e.kind.isGeneration = false := by
  cases e <;> rfl

/-- The words for the causes of generation's own begin with a text that is not empty, except where a
collaborator chose them. -/
theorem GenerationFailure.message_ne_empty : ∀ {e : GenerationFailure}, e.kind.isGeneration = true →
    ¬e.IsWordless → e.message ≠ ""
  | emptyExtension, _, _ => show "fileExtension must not be empty" ≠ "" by decide
  | noPackage, _, _ => show "types in the default package are not supported" ≠ "" by decide
  | resource _ _, _, _ =>
      append_ne_empty (append_ne_empty (append_ne_empty (append_ne_empty (by decide) _) _) _) _
  | template _, _, _ => append_ne_empty (append_ne_empty (append_ne_empty (by decide) _) _) _
  | recreated _, _, _ => append_ne_empty (by decide) _
  | uncreatable _ _, _, _ => append_ne_empty (append_ne_empty (append_ne_empty (by decide) _) _) _
  | unwritable _ _, _, _ => append_ne_empty (append_ne_empty (append_ne_empty (by decide) _) _) _
  | access f, hkind, _ => absurd hkind (Bool.eq_false_iff.mp f.error.isGeneration_kind)
  | raised kind _, hkind, hwords => fun h => hwords ⟨kind, hkind, congrArg (raised kind) h⟩

/-- The text of a failure is empty exactly if it has no words and its kind is not shown. -/
theorem GenerationFailure.report_eq_empty_iff {e : GenerationFailure} :
    e.report = "" ↔ e.IsWordless := by
  constructor
  · intro h
    by_contra hwords
    unfold report at h
    split at h
    · next hkind => exact message_ne_empty hkind hwords h
    · rw [String.append_assoc] at h
      exact absurd (String.append_eq_empty_iff.mp (String.append_eq_empty_iff.mp h).2).1 (by decide)
  · rintro ⟨kind, hkind, rfl⟩
    exact if_pos hkind

/-! ## A number in a text -/

/-- A number can be read off a text that goes on with something else than a digit. -/
theorem eq_of_toString_append {m n : Nat} {rest rest' : List Char}
    (hrest : rest.takeWhile Char.isDigit = []) (hrest' : rest'.takeWhile Char.isDigit = [])
    (h : (toString m).toList ++ rest = (toString n).toList ++ rest') : m = n := by
  have hdigits (k : Nat) : ∀ c ∈ Nat.toDigits 10 k, c.isDigit = true := fun c hc =>
    Nat.isDigit_of_mem_toDigits (by decide) (by decide) hc
  rw [Nat.toString_eq_ofList_toDigits, Nat.toString_eq_ofList_toDigits, String.toList_ofList,
    String.toList_ofList] at h
  have hread := congrArg (List.takeWhile Char.isDigit) h
  rw [List.takeWhile_append_of_pos (hdigits m), List.takeWhile_append_of_pos (hdigits n), hrest,
    hrest', List.append_nil, List.append_nil] at hread
  rw [← Nat.ofDigitChars_ten_toDigits (n := m), hread, Nat.ofDigitChars_ten_toDigits]

/-! ## What a report says -/

/-- The entry of an outcome in the list of errors. -/
def Outcome.entry? (o : Outcome) : Option (String × String) :=
  match o.error with
  | some text => if text.isEmpty then none else some (o.name, text)
  | none => none

namespace Report

/-- The outcomes that are not good. -/
def failed (r : Report) : List Outcome :=
  r.outcomes.filter fun o => !o.ok

/-- The status with which the command ends that returns a report. -/
def status (r : Report) : Nat :=
  if r.ok then 0 else 1

/-- The report as it would be if nothing had failed, with the same that was written and skipped. -/
def cleared (r : Report) : Report :=
  ⟨r.outcomes.map fun o => { o with error := none }⟩

/-- After what it would show anyway, the summary has a line with a number of errors. -/
def ShowsErrors (r : Report) (n : Nat) : Prop :=
  ∃ rest, r.summary = r.cleared.summary ++ "\n\nErrors: " ++ toString n ++ rest ∧
    (rest = "" ∨ ∃ more, rest = "\n" ++ more)

/-- The diagnostic about an entry of the list of errors. -/
def diagnostic (entry : String × String) : Diagnostic :=
  ⟨Diagnostic.errorSeverity, entry.1 ++ ": " ++ entry.2⟩

/-- The views of the run from `w` to `w'` that returned a report agree. -/
structure ViewsAgree (r : Report) (w w' : World) : Prop where
  /-- The verdict is that something failed exactly if there are errors. -/
  verdict : r.ok = false ↔ r.errors ≠ []
  /-- There is an error for each diagnostic of the run, with the name of the declaration and the same
  text, and no other. -/
  diagnostics : ∃ posted, w'.diagnostics = w.diagnostics ++ posted ∧
    posted ~ r.errors.map diagnostic
  /-- The summary shows the number of outcomes that are not good exactly if the status is 1, and it shows
  no other number. -/
  summary : ∀ n, r.ShowsErrors n ↔ r.status = 1 ∧ n = r.failed.length

variable {r : Report}

theorem ok_eq_false_iff : r.ok = false ↔ r.failed ≠ [] := by
  rw [ok, List.all_eq_false, failed, Ne, List.filter_eq_nil_iff]
  simp

theorem status_eq_one_iff : r.status = 1 ↔ r.ok = false := by
  unfold status
  cases r.ok <;> simp

/-- The errors are entries of outcomes that are not good, but not all of these have one. -/
theorem errors_eq : r.errors = r.failed.filterMap Outcome.entry? := by
  show r.outcomes.filterMap Outcome.entry? = _
  rw [failed, List.filterMap_filter]
  refine List.filterMap_congr fun o _ => ?_
  unfold Outcome.ok Outcome.entry?
  cases o.error <;> rfl

theorem diagnostics_eq :
    r.outcomes.filterMap Outcome.diagnostic? = r.failed.filterMap Outcome.diagnostic? := by
  rw [failed, List.filterMap_filter]
  refine List.filterMap_congr fun o _ => ?_
  unfold Outcome.ok Outcome.diagnostic?
  cases o.error <;> rfl

/-- Every outcome that is not good calls for a diagnostic. -/
theorem length_diagnostics : (r.outcomes.filterMap Outcome.diagnostic?).length = r.failed.length := by
  rw [diagnostics_eq, List.filterMap_length_eq_length]
  intro o ho
  simpa [Outcome.ok, Outcome.diagnostic?, Option.isSome_iff_ne_none] using (List.mem_filter.mp ho).2

/-- There is an error for each outcome that is not good exactly if each of them has words. -/
theorem length_errors_iff :
    r.errors.length = r.failed.length ↔ ∀ o ∈ r.outcomes, o.error ≠ some "" := by
  rw [errors_eq, List.filterMap_length_eq_length]
  constructor
  · intro h o ho hempty
    have hentry := h o (List.mem_filter.mpr ⟨ho, by simp [Outcome.ok, hempty]⟩)
    simp [Outcome.entry?, hempty] at hentry
  · intro h o ho
    obtain ⟨hmem, hfailed⟩ := List.mem_filter.mp ho
    obtain ⟨text, htext⟩ : ∃ text, o.error = some text :=
      Option.isSome_iff_exists.mp (by simpa [Outcome.ok] using hfailed)
    have hne : text ≠ "" := fun hempty => h o hmem (hempty ▸ htext)
    simp [Outcome.entry?, htext, hne]

/-- If each of them has words, the errors are what the outcomes call for. -/
theorem map_diagnostic_errors (h : ∀ o ∈ r.outcomes, o.error ≠ some "") :
    r.errors.map diagnostic = r.outcomes.filterMap Outcome.diagnostic? := by
  show (r.outcomes.filterMap Outcome.entry?).map diagnostic = _
  rw [List.map_filterMap]
  refine List.filterMap_congr fun o ho => ?_
  unfold Outcome.entry? Outcome.diagnostic?
  cases herror : o.error with
  | none => rfl
  | some text =>
      have hne : text ≠ "" := fun hempty => h o ho (hempty ▸ herror)
      simp [hne, diagnostic]

/-! ### The summary -/

theorem toList_summary (r : Report) :
    r.summary.toList =
      r.cleared.summary.toList ++ r.errorLines.flatMap fun line => '\n' :: line.toList := by
  have hwritten : r.cleared.written = r.written := by
    simp [cleared, written, List.flatMap_map]
  have hskipped : r.cleared.skipped = r.skipped := by
    simp [cleared, skipped, List.flatMap_map]
  have hlength : r.cleared.outcomes.length = r.outcomes.length := List.length_map _
  have herrors : r.cleared.errorLines = [] := by
    have hnone : r.cleared.failed = [] := by simp [cleared, failed, Outcome.ok]
    simp [errorLines, errors_eq, hnone]
  unfold summary
  rw [hwritten, hskipped, hlength, herrors, List.append_nil, String.toList_intercalate,
    String.toList_intercalate, List.map_append,
    show "\n".toList = ['\n'] from rfl, Text.intercalate_append (by simp), List.flatMap_map]

/-- The lines about errors say how many there are, and nothing else is shown in their place. -/
theorem showsErrors_iff {n : Nat} : r.ShowsErrors n ↔ r.errors ≠ [] ∧ n = r.errors.length := by
  have hshows (rest : String) :
      r.summary = r.cleared.summary ++ "\n\nErrors: " ++ toString n ++ rest ↔
        (r.errorLines.flatMap fun line => '\n' :: line.toList) =
          "\n\nErrors: ".toList ++ ((toString n).toList ++ rest.toList) := by
    rw [← String.toList_inj, toList_summary]
    simp only [String.toList_append, List.append_assoc, List.append_cancel_left_eq]
  unfold ShowsErrors
  simp only [hshows]
  unfold errorLines
  by_cases herrors : r.errors = []
  · simp [herrors]
  · rw [if_neg (by simpa using herrors)]
    generalize r.errors.map (fun entry => "  " ++ entry.1 ++ ": " ++ entry.2) = lines
    have hhead : ((("\nErrors: " ++ toString r.errors.length) :: lines).flatMap
        fun line => '\n' :: line.toList) = "\n\nErrors: ".toList ++
          ((toString r.errors.length).toList ++ lines.flatMap fun line => '\n' :: line.toList) := by
      simp
    simp only [hhead, List.append_cancel_left_eq]
    constructor
    · rintro ⟨rest, heq, hrest⟩
      refine ⟨herrors, (eq_of_toString_append ?_ ?_ heq).symm⟩
      · cases lines <;> rfl
      · rcases hrest with rfl | ⟨more, rfl⟩
        · rfl
        · rw [String.toList_append]
          rfl
    · rintro ⟨-, rfl⟩
      cases lines with
      | nil => exact ⟨"", by simp, .inl rfl⟩
      | cons line lines =>
          refine ⟨"\n" ++ String.ofList (line.toList ++ lines.flatMap fun line => '\n' :: line.toList),
            by simp, .inr ⟨_, rfl⟩⟩

end Report

/-! ## The views of a run -/

/-- What is posted is what the outcomes call for: then the views agree exactly if every failure has
words. -/
theorem Report.viewsAgree_iff {r : Report} {w w' : World} {posted : List Diagnostic}
    (hposted : w'.diagnostics = w.diagnostics ++ posted)
    (hcalled : posted ~ r.outcomes.filterMap Outcome.diagnostic?) :
    r.ViewsAgree w w' ↔ ∀ o ∈ r.outcomes, o.error ≠ some "" := by
  constructor
  · intro hviews
    obtain ⟨posted', hposted', herrors⟩ := hviews.diagnostics
    obtain rfl := List.append_cancel_left (hposted.symm.trans hposted')
    rw [← length_errors_iff, ← length_diagnostics, ← hcalled.length_eq, herrors.length_eq,
      List.length_map]
  · intro hwords
    have hlength := length_errors_iff.mpr hwords
    have hverdict : r.ok = false ↔ r.errors ≠ [] := by
      rw [ok_eq_false_iff, ← List.length_pos_iff, ← hlength, List.length_pos_iff]
    refine ⟨hverdict, ⟨posted, hposted, map_diagnostic_errors hwords ▸ hcalled⟩, fun n => ?_⟩
    rw [showsErrors_iff, status_eq_one_iff, hverdict, hlength]

/-- A run over a batch that returned a report: in order, or by several workers, whatever the order of
their steps. -/
inductive Reported (s : Setting) (batch : List Declaration) : World → World → Report → Prop
  | generated {workers : Int} {w w' : World} {r : Report}
      (hrun : generateWith s workers w batch = (w', .ok r)) : Reported s batch w w' r
  | interleaved {workers : Nat} {schedule : List Nat} {w w' : World}
      {p : Pool (Except GenerationFailure Outcome)} {outcomes : List Outcome}
      (hrun : Pool.run s workers schedule w
        (Pool.ofPrograms (batch.map (processDeclaration s.templates))) = (w', p))
      (hfinished : p.isFinished = true) (hanswers : p.inOrder = outcomes.map .ok) :
      Reported s batch w (w'.note [generatedNote ⟨outcomes⟩]) ⟨outcomes⟩

theorem concerns_processAll {s : Setting} {store : Template.Store} {w w' : World}
    {batch : List Declaration} {outcomes : List Outcome}
    (h : (processAll store batch).run s w = (w', .ok outcomes)) :
    List.Forall₂ Outcome.Concerns outcomes batch := by
  induction batch generalizing w outcomes with
  | nil =>
      obtain rfl := Except.ok.inj (congrArg Prod.snd h)
      exact .nil
  | cons d rest ih =>
      obtain ⟨w₁, o, os, hfirst, hrest, rfl⟩ := run_processAll_cons.mp h
      exact .cons ((yields_concerns s d).run w o (congrArg Prod.snd hfirst)) (ih hrest)

section

variable {s : Setting} {batch : List Declaration} {w w' : World} {r : Report}

theorem Reported.concerns (h : Reported s batch w w' r) :
    List.Forall₂ Outcome.Concerns r.outcomes batch := by
  cases h with
  | generated hrun =>
      obtain ⟨w₁, hall, -⟩ := generateWith_eq_ok hrun
      exact concerns_processAll hall
  | interleaved hrun hfinished hanswers => exact concerns_pool hrun hfinished hanswers

theorem Reported.diagnostics (h : Reported s batch w w' r) :
    ∃ posted, w'.diagnostics = w.diagnostics ++ posted ∧
      posted ~ r.outcomes.filterMap Outcome.diagnostic? := by
  cases h with
  | generated hrun =>
      obtain ⟨w₁, hall, rfl⟩ := generateWith_eq_ok hrun
      obtain ⟨_, -, -, hposts⟩ := posts_processAll hall
      exact ⟨_, hposts.diagnostics, .refl _⟩
  | interleaved hrun hfinished hanswers =>
      obtain ⟨posted, hposted, hcalled⟩ := diagnostics_pool hrun hfinished hanswers
      exact ⟨posted, hposted, hcalled⟩

/-- The command shows the summary of the report that its run returns, and ends with its status. -/
theorem CommandLine.generateAll_of_report {start : Start} {layout : Layout} {workers : Int}
    (settings : Settings) (notes : List Note)
    (h : generateWith { layout, here := start.here, templates := start.templates } (max 1 workers)
      { files := start.files } batch = (w, .ok r)) :
    (generateAll start settings notes batch layout workers).ending = .exit r.status ∧
      (generateAll start settings notes batch layout workers).output = r.summary ++ "\n" := by
  unfold generateAll
  dsimp only
  rw [h]
  exact ⟨rfl, rfl⟩

/-- **The views of a run agree unless a declaration failed without words.**  The outcomes are those of the
declarations, in order; the command ends with the status of the report it returns, and shows its summary. -/
theorem views_agree_iff (h : Reported s batch w w' r) :
    List.Forall₂ Outcome.Concerns r.outcomes batch ∧
    (∀ (start : CommandLine.Start) (settings : CommandLine.Settings) (notes : List Note)
      (layout : Layout) (workers : Int) (left : World),
      generateWith { layout, here := start.here, templates := start.templates } (max 1 workers)
          { files := start.files } batch = (left, .ok r) →
        (CommandLine.generateAll start settings notes batch layout workers).ending = .exit r.status ∧
        (CommandLine.generateAll start settings notes batch layout workers).output =
          r.summary ++ "\n") ∧
    (r.ViewsAgree w w' ↔
      ∀ o ∈ r.outcomes, ∀ e : GenerationFailure, o.error = some e.report → ¬e.IsWordless) := by
  obtain ⟨posted, hposted, hcalled⟩ := h.diagnostics
  refine ⟨h.concerns, fun start settings notes layout workers left hreturns =>
    CommandLine.generateAll_of_report settings notes hreturns, ?_⟩
  rw [Report.viewsAgree_iff hposted hcalled]
  refine forall₂_congr fun o _ => ⟨fun hwords e he hwordless => ?_, fun hwords hempty => ?_⟩
  · exact hwords (he.trans (congrArg some (GenerationFailure.report_eq_empty_iff.mpr hwordless)))
  · exact hwords (.raised .configuration "") hempty ⟨.configuration, rfl, rfl⟩

end

/-- A resource is asked for in vain without words, but not with one of generation's own errors, and one type
is in no package.  With two workers the second declaration reports first. -/
theorem views_agree_iff_out_of_order :
    let s : Setting :=
      { layout := ⟨[⟨.here, ["src"]⟩], [], ⟨.here, ["out"]⟩⟩, here := []
        faults := fun turn => if turn = 0 then some ⟨.resolve, .raised .runtime "", 0⟩ else none }
    let batch : List Declaration := [{ name := "a.T" }, { name := "V" }]
    let w : World := { files := ⟨[]⟩ }
    let r : Report := ⟨[⟨"a.T", [], [], some "RuntimeError: "⟩,
      ⟨"V", [], [], some "types in the default package are not supported"⟩]⟩
    ∃ w', Reported s batch w w' r ∧ r.ViewsAgree w w' ∧ r.status = 1 ∧ r.ShowsErrors 2 ∧
      w'.diagnostics = [⟨"ERROR", "V: types in the default package are not supported"⟩,
        ⟨"ERROR", "a.T: RuntimeError: "⟩] := by
  intro s batch w r
  have hran : (Pool.run s 2 [1, 0, 0, 0, 0, 0] w
      (Pool.ofPrograms (batch.map (processDeclaration s.templates)))).2.isFinished = true ∧
      (Pool.run s 2 [1, 0, 0, 0, 0, 0] w
        (Pool.ofPrograms (batch.map (processDeclaration s.templates)))).2.answers =
          [(0, .ok ⟨"a.T", [], [], some "RuntimeError: "⟩),
            (1, .ok ⟨"V", [], [], some "types in the default package are not supported"⟩)] ∧
      (Pool.run s 2 [1, 0, 0, 0, 0, 0] w
        (Pool.ofPrograms (batch.map (processDeclaration s.templates)))).1.diagnostics =
          [⟨"ERROR", "V: types in the default package are not supported"⟩,
            ⟨"ERROR", "a.T: RuntimeError: "⟩] := by
    decide +kernel
  rcases hpool : Pool.run s 2 [1, 0, 0, 0, 0, 0] w
    (Pool.ofPrograms (batch.map (processDeclaration s.templates))) with ⟨w', p⟩
  rw [hpool] at hran
  obtain ⟨hfinished, hanswers, hdiagnostics⟩ := hran
  have hinOrder : p.inOrder = r.outcomes.map .ok := by
    rw [Pool.inOrder_of_sorted (by rw [hanswers]; decide), hanswers]
    rfl
  have hreported : Reported s batch w (w'.note [generatedNote r]) r :=
    .interleaved hpool hfinished hinOrder
  have hwords : ∀ o ∈ r.outcomes, ∀ e : GenerationFailure, o.error = some e.report → ¬e.IsWordless := by
    intro o ho e he hwordless
    rw [GenerationFailure.report_eq_empty_iff.mpr hwordless] at he
    revert he
    exact (show ∀ o ∈ r.outcomes, o.error ≠ some "" by decide) o ho
  have hviews := (views_agree_iff hreported).2.2.mpr hwords
  exact ⟨_, hreported, hviews, rfl, (hviews.summary 2).mpr ⟨rfl, rfl⟩, hdiagnostics⟩

/-- A collaborator raises one of generation's own errors without words.  The verdict, the status and the
diagnostics say that the declaration failed; the list of errors and the summary do not. -/
theorem wordless_failure_is_not_listed :
    let s : Setting :=
      { layout := ⟨[⟨.here, ["src"]⟩], [], ⟨.here, ["out"]⟩⟩, here := []
        faults := fun turn => if turn = 0 then some ⟨.resolve, .raised .configuration "", 0⟩ else none }
    let batch : List Declaration := [{ name := "com.acme.A" }]
    let w : World := { files := ⟨[]⟩ }
    let r : Report := ⟨[⟨"com.acme.A", [], [], some ""⟩]⟩
    ∃ w', Reported s batch w w' r ∧ r.ok = false ∧ r.status = 1 ∧
      w'.diagnostics = [⟨"ERROR", "com.acme.A: "⟩] ∧ r.errors = [] ∧
      r.summary = "Providers: 1 declarations, 0 written, 0 skipped" ∧ (∀ n, ¬r.ShowsErrors n) ∧
      ¬r.ViewsAgree w w' := by
  intro s batch w r
  have hran : (generateWith s 1 w batch).2 = .ok r ∧
      (generateWith s 1 w batch).1.diagnostics = [⟨"ERROR", "com.acme.A: "⟩] := by
    decide +kernel
  rcases hrun : generateWith s 1 w batch with ⟨w', answer⟩
  rw [hrun] at hran
  obtain ⟨rfl, hdiagnostics⟩ := hran
  have herrors : r.errors = [] := rfl
  refine ⟨w', .generated hrun, rfl, rfl, hdiagnostics, herrors, by decide +kernel, fun n hshows => ?_,
    fun hviews => ?_⟩
  · exact (Report.showsErrors_iff.mp hshows).1 herrors
  · exact hviews.verdict.mp rfl herrors

end TextProviders
