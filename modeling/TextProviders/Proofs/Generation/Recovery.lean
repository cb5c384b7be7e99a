import TextProviders.Proofs.Generation.Again
import TextProviders.Proofs.Generation.Conclusion

/-!
# A second run recovers from failed calls

Calls may fail in a first run, any of them and in any way but two: a template is there, and writing
fails with errors of the system.  A second run over the files that were left, in a fresh context and
with no call failing, then comes to the files and the verdicts of a single run in which no call fails.

The first run leaves each provider in one of two states: its source is what it was before, or it is
complete, and it was the fate of the provider to be written (`Concluded.name_cases`).  In the first case
its fate is still the same, in the second it is to be skipped (`Concluded.fate_cases`).  So a declaration
comes past the same targets as before (`Concluded.passed_eq`), and what is missing of its sources is
written.

The second run starts from what the first one left, and for that the files have to be a tree still.
-/

namespace TextProviders

open Program

/-! ## Every run keeps a tree one -/

section

variable {s : Setting} {w w' : World}

theorem isTree_create {name : String} {answer : Except GenerationFailure Location}
    (ht : w.files.IsTree s.here) (hstep : w.create s name = (w', answer)) :
    w'.files.IsTree s.here := by
  have hdirs := ht.makeDirs (s.pathFor name).parent
  rcases w.create_cases s name with ⟨e, hfailed⟩ | ⟨files, place, hmade, hloc, hnone, hcreated⟩
  · obtain ⟨hworld, -⟩ := Prod.mk.inj (hfailed.symm.trans hstep)
    have hfiles : w'.files = (w.files.makeDirs s.here (s.pathFor name).parent).1 := by rw [← hworld]
    rwa [hfiles]
  · obtain ⟨hworld, -⟩ := Prod.mk.inj (hcreated.symm.trans hstep)
    rw [hmade] at hdirs
    rw [← hworld]
    exact hdirs.put hloc hnone _

theorem isTree_discard {name : String} {answer : Except GenerationFailure Unit}
    (ht : w.files.IsTree s.here) (hstep : w.discard s name = (w', answer)) :
    w'.files.IsTree s.here := by
  unfold World.discard at hstep
  split at hstep
  · next hunlinked =>
    obtain ⟨hworld, -⟩ := Prod.mk.inj hstep
    rw [← hworld]
    exact ht.unlink hunlinked
  · obtain ⟨rfl, -⟩ := Prod.mk.inj hstep
    exact ht

theorem isTree_perform {act : Action} {answer : act.Answer} (ht : w.files.IsTree s.here)
    (hstep : w.perform s act = (w', answer)) : w'.files.IsTree s.here := by
  have hsame (hfiles : (w.perform s act).1.files = w.files) : w'.files.IsTree s.here := by
    rw [hstep] at hfiles
    rwa [show w'.files = w.files from hfiles]
  cases act with
  | create name => exact isTree_create ht (World.perform_create.symm.trans hstep)
  | write place text =>
      obtain ⟨bytes, hfiles, -, -⟩ := w.write_cases s place text
      rw [show w.write s place text = (w', answer) from hstep] at hfiles
      rw [show w'.files = w.files.append place bytes from hfiles]
      exact ht.append place bytes
  | discard name => exact isTree_discard ht hstep
  | resolve name => exact hsame (w.files_resolve s name)
  | flush => exact hsame (w.files_attempt s .flush)
  | close => exact hsame (w.files_attempt s .close)
  | record name => exact hsame (w.files_record name)
  | lookup name => exact hsame rfl
  | report d => exact hsame rfl
  | note n => exact hsame rfl

theorem isTree_run {α : Type} {p : Program α} {a : α} (ht : w.files.IsTree s.here)
    (hrun : p.run s w = (w', a)) : w'.files.IsTree s.here := by
  induction p generalizing w with
  | done a =>
      obtain ⟨rfl, -⟩ := Prod.mk.inj hrun
      exact ht
  | step act next ih => exact ih _ (isTree_perform ht rfl) hrun

end

/-! ## What the first run leaves -/

/-- The setting in which no call fails. -/
def Setting.withoutFaults (s : Setting) : Setting :=
  { s with faults := fun _ => none }

section

variable {s : Setting}

@[simp] theorem Setting.layout_withoutFaults : s.withoutFaults.layout = s.layout := rfl

@[simp] theorem Setting.here_withoutFaults : s.withoutFaults.here = s.here := rfl

@[simp] theorem Setting.templates_withoutFaults : s.withoutFaults.templates = s.templates := rfl

theorem Setting.IsSeparate.withoutFaults (hs : s.IsSeparate) : s.withoutFaults.IsSeparate :=
  ⟨hs.output, hs.roots, hs.apart⟩

theorem Setting.HasTemplates.withoutFaults (h : s.HasTemplates) : s.withoutFaults.Faultless :=
  ⟨fun _ => rfl, h⟩

/-- Calls that fail change no fate. -/
theorem Target.fate_withoutFaults (t : Target) (s : Setting) (fs : FileSystem) :
    t.fate s.withoutFaults fs = t.fate s fs := by
  simp only [fate, source?, World.lookup, World.create, Setting.layout_withoutFaults,
    Setting.here_withoutFaults, Setting.templates_withoutFaults]

theorem Declaration.passed_withoutFaults (d : Declaration) (s : Setting) (fs : FileSystem) :
    d.passed s.withoutFaults fs = d.passed s fs := by
  simp only [passed, Target.fate_withoutFaults]

theorem Declaration.writes_withoutFaults {d : Declaration} {fs : FileSystem} {loc : Location}
    {bytes : List UInt8} : d.Writes s.withoutFaults fs loc bytes ↔ d.Writes s fs loc bytes := by
  simp only [Writes, passed_withoutFaults, Target.fate_withoutFaults, Setting.placeFor,
    Setting.pathFor, Setting.layout_withoutFaults, Setting.here_withoutFaults]

end

section

variable {s : Setting} {old : FileSystem} {batch : List Declaration} {w : World}
  {outcomes : List Outcome} (h : Concluded s old batch w outcomes)
  (hnames : (batch.map (·.name)).Nodup)

theorem takeWhile_congr {α : Type} {l : List α} {p q : α → Bool} (h : ∀ a ∈ l, p a = q a) :
    l.takeWhile p = l.takeWhile q := by
  induction l with
  | nil => rfl
  | cons a rest ih =>
      simp only [List.mem_cons, forall_eq_or_imp] at h
      rw [List.takeWhile_cons, List.takeWhile_cons, h.1, ih h.2]

/-- The targets of declarations of different types have different names. -/
theorem eq_of_target_name_eq (hnames : (batch.map (·.name)).Nodup) {d d' : Declaration}
    (hd : d ∈ batch) (hd' : d' ∈ batch) {t t' : Target} (ht : t ∈ d.targets) (ht' : t' ∈ d'.targets)
    (hname : t'.name = t.name) : t' = t := by
  obtain ⟨hstrategy, hdeclared⟩ := Target.name_eq_name_iff.mp hname
  rw [Declaration.mem_targets ht, Declaration.mem_targets ht'] at hdeclared
  obtain ⟨i, hi⟩ := List.getElem?_of_mem hd
  obtain ⟨j, hj⟩ := List.getElem?_of_mem hd'
  obtain rfl := (listedOnce_of_nodup hnames hi).2 j d' hj hdeclared
  obtain rfl := Option.some.inj (hi.symm.trans hj)
  obtain ⟨strategy, declaration⟩ := t
  obtain ⟨strategy', declaration'⟩ := t'
  obtain rfl : declaration = d := Declaration.mem_targets ht
  obtain rfl : declaration' = declaration := Declaration.mem_targets ht'
  simp_all

variable (hs : s.IsSeparate) (hc : old.Closed) (hfit : s.NamesFit)
  (hplain : ∀ d ∈ batch, d.IsPlain)

include h hnames hs hc hfit hplain

/-- A provider has the fate that it had, or it was written and is skipped from now on. -/
theorem Concluded.fate_cases {d : Declaration} (hd : d ∈ batch) {t : Target} (ht : t ∈ d.targets) :
    t.fate s w.files = t.fate s old ∨
      ∃ source, t ∈ d.passed s old ∧ t.fate s old = .written source ∧
        t.fate s w.files = .skipped ∧
        w.files.get? (s.placeFor t.name) = some (.file (Text.Utf8.encode source.toList)) := by
  have hplain' : t.declaration.IsPlain := (hplain d hd).target ht
  rcases h.name_cases hnames hplain'.target_isDotted with
    hsame | ⟨d', hd', t', ht', source, hname, hfate, hcomplete⟩
  · exact .inl (h.others.grown.fate_eq hs hc hfit hplain' hsame)
  · have ht'' : t' ∈ d'.targets := Declaration.mem_targets_of_passed ht'
    obtain rfl := eq_of_target_name_eq hnames hd hd' ht ht'' hname
    obtain rfl : d = d' := (Declaration.mem_targets ht).symm.trans (Declaration.mem_targets ht'')
    exact .inr ⟨source, ht', hfate, Target.fate_eq_skipped_iff.mpr hcomplete.stands,
      (complete_iff.mp hcomplete).2⟩

/-- A declaration comes past the same targets as before. -/
theorem Concluded.passed_eq {d : Declaration} (hd : d ∈ batch) :
    d.passed s w.files = d.passed s old := by
  have hsame : ∀ t ∈ d.targets, (t.fate s w.files = .failed ↔ t.fate s old = .failed) := by
    intro t ht
    rcases h.fate_cases hnames hs hc hfit hplain hd ht with hfate | ⟨source, -, hold, hnew, -⟩
    · rw [hfate]
    · simp [hold, hnew]
  unfold Declaration.passed
  rw [takeWhile_congr fun t ht => decide_eq_decide.mpr (not_congr (hsame t ht))]

/-- What the declarations write over the files that were left, together with these, is what they write
over the files that were there before. -/
theorem Concluded.writes_iff {loc : Location} {bytes : List UInt8} :
    (w.files.get? loc = some (.file bytes) ∨ ∃ d ∈ batch, d.Writes s w.files loc bytes) ↔
      old.get? loc = some (.file bytes) ∨ ∃ d ∈ batch, d.Writes s old loc bytes := by
  have hpassed {d : Declaration} (hd : d ∈ batch) := h.passed_eq hnames hs hc hfit hplain hd
  constructor
  · rintro (hfile | ⟨d, hd, t, ht, source, hfate, hloc, hbytes⟩)
    · rcases h.others.grown.added loc with hsame | ⟨hdir, -⟩ | ⟨name, _, hname, hloc, -⟩
      · exact .inl (hsame ▸ hfile)
      · cases hdir.symm.trans hfile
      · rw [hloc] at hfile
        rcases h.name_cases hnames hname with
          hsame | ⟨d, hd, t, ht, source, htname, hfate, hcomplete⟩
        · rw [hsame, ← hloc] at hfile
          exact .inl hfile
        · rw [(complete_iff.mp hcomplete).2] at hfile
          exact .inr ⟨d, hd, t, ht, source, hfate, by rw [hloc, htname],
            (Entry.file.inj (Option.some.inj hfile)).symm⟩
    · right
      refine ⟨d, hd, t, hpassed hd ▸ ht, source, ?_, hloc, hbytes⟩
      have htargets := Declaration.mem_targets_of_passed ht
      rcases h.fate_cases hnames hs hc hfit hplain hd htargets with hsame | ⟨_, -, -, hskipped, -⟩
      · exact hsame ▸ hfate
      · cases hskipped.symm.trans hfate
  · rintro (hold | ⟨d, hd, t, ht, source, hfate, hloc, hbytes⟩)
    · exact .inl (h.others.grown.keeps _ _ hold)
    · have htargets := Declaration.mem_targets_of_passed ht
      rcases h.fate_cases hnames hs hc hfit hplain hd htargets with
        hsame | ⟨source', -, hwritten, -, hfile⟩
      · exact .inr ⟨d, hd, t, (hpassed hd).symm ▸ ht, source, hsame.trans hfate, hloc, hbytes⟩
      · left
        rw [hloc, hbytes, hfile, Fate.written.inj (hwritten.symm.trans hfate)]

end

/-! ## Two runs and one -/

/-- The verdicts of a run in which no call fails. -/
theorem Concluded.map_ok {s : Setting} {old : FileSystem} {batch : List Declaration} {w : World}
    {outcomes : List Outcome} (h : Concluded s old batch w outcomes)
    (hnames : (batch.map (·.name)).Nodup) (hf : s.Faultless) :
    outcomes.map (·.ok) = batch.map fun d => decide (d.passed s old = d.targets) := by
  refine List.ext_getElem? fun i => ?_
  rw [List.getElem?_map, List.getElem?_map]
  cases hd : batch[i]? with
  | none =>
      have hlength : batch.length ≤ i := List.getElem?_eq_none_iff.mp hd
      rw [List.getElem?_eq_none (h.length ▸ hlength)]
      rfl
  | some d =>
      obtain ⟨o, ho⟩ := h.exists_outcome hd
      rw [ho, Option.map_some, Option.map_some,
        (h.isOf_passed hf (listedOnce_of_nodup hnames hd) ho).ok]

/-- A run in which calls may fail and a second one without failures, in a fresh context, come to the
files and to the verdicts to which a single run without failures comes. -/
def Recovers (s : Setting) (fs : FileSystem) (batch : List Declaration) : Prop :=
  ∃ w₁ r₁ w₂ r₂ w r, (generate s.templates batch).run s { files := fs } = (w₁, .ok r₁) ∧
    (generate s.templates batch).run s.withoutFaults { files := w₁.files } = (w₂, .ok r₂) ∧
    (generate s.templates batch).run s.withoutFaults { files := fs } = (w, .ok r) ∧
    (∀ loc bytes, w₂.files.get? loc = some (.file bytes) ↔ w.files.get? loc = some (.file bytes)) ∧
    r₂.outcomes.map (·.ok) = r.outcomes.map (·.ok)

/-- **A second run recovers from failed calls.** -/
theorem second_run_recovers {s : Setting} {fs : FileSystem} {batch : List Declaration}
    (hs : s.IsSeparate) (hfit : s.NamesFit) (hsoft : s.FailsSoftly) (htree : fs.IsTree s.here)
    (hplain : ∀ d ∈ batch, d.IsPlain) (hnames : (batch.map (·.name)).Nodup) :
    Recovers s fs batch := by
  have hf := hsoft.templates.withoutFaults
  obtain ⟨w₁, r₁, hrun₁, h₁⟩ := concluded_generate hs htree.closed hfit hsoft hplain
  have htree₁ : w₁.files.IsTree s.here := isTree_run (w := { files := fs }) htree hrun₁
  obtain ⟨w₂, r₂, hrun₂, h₂⟩ := concluded_generate hs.withoutFaults htree₁.closed hfit hf.failsSoftly
    hplain
  obtain ⟨w, r, hrun, h⟩ := concluded_generate hs.withoutFaults htree.closed hfit hf.failsSoftly hplain
  refine ⟨w₁, r₁, w₂, r₂, w, r, hrun₁, hrun₂, hrun, fun loc bytes => ?_, ?_⟩
  · rw [h₂.file_iff hnames hf, h.file_iff hnames hf]
    simp only [Declaration.writes_withoutFaults]
    exact h₁.writes_iff hnames hs htree.closed hfit hplain
  · rw [h₂.map_ok hnames hf, h.map_ok hnames hf]
    refine List.map_congr_left fun d hd => ?_
    rw [Declaration.passed_withoutFaults, Declaration.passed_withoutFaults,
      h₁.passed_eq hnames hs htree.closed hfit hplain hd]

/-- A disk that is full while the first source is written, and a resource that cannot be read for the
last one. -/
theorem second_run_recovers_two_failures :
    let s : Setting :=
      { layout := ⟨[⟨.here, ["src"]⟩], [⟨.here, ["res"]⟩], ⟨.here, ["out", "gen"]⟩⟩
        here := []
        templates := [("runtime-loading", "class $NAME"), ("embedded-literal", "class $NAME $TEXT")]
        faults := fun turn =>
          if turn = 1 then some ⟨.write, .raised .system "no space left", 2⟩
          else if turn = 3 then some ⟨.resolve, .raised .runtime "no answer", 0⟩ else none }
    let fs : FileSystem := ⟨[(["src"], .directory), (["res"], .directory),
      (["src", "com"], .directory), (["src", "com", "A.txt"], .file [97]),
      (["src", "com", "CProvider.java"], .file []), (["res", "com"], .directory),
      (["res", "com", "C.txt"], .file [99])]⟩
    let batch : List Declaration := [{ name := "com.A" }, { name := "com.C" }]
    (s.IsSeparate ∧ s.NamesFit ∧ s.FailsSoftly ∧ fs.IsTree s.here ∧ (∀ d ∈ batch, d.IsPlain) ∧
        (batch.map (·.name)).Nodup) ∧
      ((generate s.templates batch).run s { files := fs }).2.toOption.map
        (fun r => r.outcomes.map (·.ok)) = some [false, false] ∧
      Recovers s fs batch := by
  intro s fs batch
  have hs : s.IsSeparate := by decide
  have hfit : s.NamesFit := by decide
  have hsoft : s.FailsSoftly := by
    refine ⟨fun turn f hf hpoint => ?_, fun turn f hf hpoint => ?_, by decide⟩
    · simp only [s] at hf
      grind [GenerationFailure.kind]
    · simp only [s] at hf
      grind [GenerationFailure.kind, FailureKind.isSystem]
  have htree : fs.IsTree s.here := ⟨FileSystem.closed_of_entries (by decide), by decide⟩
  have hplain : ∀ d ∈ batch, d.IsPlain := by decide
  have hnames : (batch.map (·.name)).Nodup := by decide
  exact ⟨⟨hs, hfit, hsoft, htree, hplain, hnames⟩, by decide +kernel,
    second_run_recovers hs hfit hsoft htree hplain hnames⟩

/-- With a name that is too long in the path of the output directory, a second run fails where a single
run does not, even if no call fails in the first. -/
theorem second_run_loses_provider :
    let s := TooLong.setting
    let batch := [TooLong.hand, TooLong.new]
    (s.IsSeparate ∧ s.FailsSoftly ∧ TooLong.files.IsTree s.here ∧ (∀ d ∈ batch, d.IsPlain) ∧
        (batch.map (·.name)).Nodup) ∧
      ¬Recovers s TooLong.files batch := by
  intro s batch
  refine ⟨⟨TooLong.isSeparate, TooLong.faultless.failsSoftly, ⟨TooLong.closed_files, rfl⟩, by decide,
    by decide⟩, ?_⟩
  rintro ⟨w₁, r₁, w₂, r₂, w, r, hrun₁, hrun₂, hrun, -, hverdicts⟩
  have hfaults : s.withoutFaults = s := rfl
  rw [hfaults] at hrun₂ hrun
  obtain ⟨_, o, _, _, o₂, hfirst, hsecond, hat, hfailed⟩ := TooLong.run_twice
  obtain ⟨rfl, hr₁⟩ := Prod.mk.inj (hfirst.symm.trans hrun₁)
  obtain ⟨-, hr⟩ := Prod.mk.inj (hfirst.symm.trans hrun)
  obtain ⟨-, hr₂⟩ := Prod.mk.inj (hsecond.symm.trans hrun₂)
  obtain rfl := Except.ok.inj hr
  obtain rfl := Except.ok.inj hr₂
  have hhead := congrArg (·[0]?) hverdicts
  simp only [List.getElem?_map, hat, Option.map_some, hfailed] at hhead
  cases hhead

end TextProviders
