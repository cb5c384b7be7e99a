import TextProviders.Proofs.Generation.Accounts
import TextProviders.Proofs.Generation.Interleaving
import TextProviders.Proofs.Generation.Ledger

/-!
# What several workers report

A declaration reports nothing before it fails, and then once: `Program.Reports` says of a program that has
reported so much that, whatever it is answered, it ends with an answer that calls for what it has reported
by then.  Nothing is assumed of the answers, so a call may fail in any way.

In a pool the reports of the declarations come in between each other.  The law is that what the pool has
reported is, up to order, what the programs have that are not through and what the answers call for
(`Pool.Reports`).  Each step keeps it, so when all programs are through the diagnostics are a permutation
of those that the outcomes call for (`diagnostics_pool`).
-/

namespace TextProviders

open Program
open scoped List

/-! ## One program -/

/-- The diagnostic that the answer of a declaration calls for; none if it ends the batch. -/
def calledFor : Except GenerationFailure Outcome → Option Diagnostic
  | .ok o => o.diagnostic?
  | .error _ => none

namespace Program

/-- Whatever it is answered, a program that has reported `told` reports at most once, and not again, and
ends with an answer that calls for what it has reported. -/
inductive Reports : Program (Except GenerationFailure Outcome) → Option Diagnostic → Prop
  | done (answer : Except GenerationFailure Outcome) : Reports (.done answer) (calledFor answer)
  | report {d : Diagnostic} {next : Unit → Program (Except GenerationFailure Outcome)}
      (hnext : Reports (next ()) (some d)) : Reports (.step (.report d) next) none
  | other {told : Option Diagnostic} {act : Action}
      {next : act.Answer → Program (Except GenerationFailure Outcome)}
      (hact : ∀ d, act ≠ .report d) (hnext : ∀ answer, Reports (next answer) told) :
      Reports (.step act next) told

/-- Whatever it is answered, a program reports nothing, and ends with an answer that satisfies `Q`. -/
inductive IsMute {α : Type} (Q : α → Prop) : Program α → Prop
  | done {a : α} (h : Q a) : IsMute Q (.done a)
  | step {act : Action} {next : act.Answer → Program α} (hact : ∀ d, act ≠ .report d)
      (hnext : ∀ answer, IsMute Q (next answer)) : IsMute Q (.step act next)

variable {α β : Type} {Q : α → Prop} {p : Program α}

theorem IsMute.bind {R : β → Prop} {f : α → Program β} (h : p.IsMute Q)
    (hf : ∀ a, Q a → (f a).IsMute R) : (p >>= f).IsMute R := by
  induction h with
  | done ha => exact hf _ ha
  | step hact _ ih => exact .step hact ih

theorem isMute_ofAction (act : Action) (hact : ∀ d, act ≠ .report d) :
    (ofAction act).IsMute fun _ => True :=
  .step hact fun _ => .done trivial

theorem IsSilent.isMute (h : p.IsSilent) : p.IsMute fun _ => True := by
  induction h with
  | done a => exact .done trivial
  | step hact _ ih => exact .step (fun d hd => by rw [hd] at hact; cases hact) ih

theorem IsMute.yields (h : p.IsMute Q) (s : Setting) : p.Yields s Q := by
  induction h with
  | done ha => exact .done ha
  | step _ _ ih => exact .step fun w => ih _

/-- What a program yields it also ends with among others, of which nothing is known. -/
theorem Yields.meets {s : Setting} (h : p.Yields s Q) (w : World) :
    p.Meets s (fun _ _ => True) (fun _ _ => True) (fun _ a => Q a) w := by
  induction h generalizing w with
  | done ha => exact ha
  | step _ ih => exact fun w₁ _ => ⟨trivial, ih w₁ _⟩

/-- After a program that reports nothing, another one reports as if it were alone. -/
theorem IsMute.reports {f : α → Program (Except GenerationFailure Outcome)} (h : p.IsMute Q)
    (hf : ∀ a, Q a → (f a).Reports none) : (p >>= f).Reports none := by
  induction h with
  | done ha => exact hf _ ha
  | step hact _ ih => exact .other hact ih

end Program

/-! ## One declaration -/

section

variable {store : Template.Store}

theorem isMute_writeSource (name source : String) :
    (writeSource name source).IsMute fun _ => True := by
  refine (isMute_ofAction (.create name) nofun).bind fun place? _ => ?_
  cases place? with
  | error e => exact .done trivial
  | ok place =>
      refine (isSilent_writeText place source).isMute.bind fun written _ => ?_
      cases written with
      | ok _ =>
          exact (isMute_ofAction (.record name) nofun).bind fun _ _ =>
            (isMute_ofAction (.note _) nofun).bind fun _ _ => .done trivial
      | error e =>
          dsimp only
          split
          · refine (isMute_ofAction (.discard name) nofun).bind fun gone _ => ?_
            cases gone with
            | error e => exact .done trivial
            | ok _ => exact .done trivial
          · exact .done trivial

theorem isMute_generateTarget (t : Target) : (generateTarget store t).IsMute fun _ => True := by
  unfold generateTarget
  dsimp only
  split
  · exact .done trivial
  · refine (isMute_ofAction (.resolve _) nofun).bind fun text? _ => ?_
    cases text? with
    | error e => exact .done trivial
    | ok text =>
        dsimp only
        split
        · exact .done trivial
        · exact isMute_writeSource _ _

/-- A run over targets reports nothing, and whether it fails or not it leaves it to the declaration to say
so. -/
theorem isMute_processTargets (ts : List Target) (o : Outcome) :
    (processTargets store ts o).IsMute
      fun result => result.1.name = o.name ∧ result.1.error = o.error := by
  induction ts generalizing o with
  | nil => exact .done ⟨rfl, rfl⟩
  | cons t rest ih =>
      refine (isMute_ofAction (.lookup t.name) nofun).bind fun found? _ => ?_
      match found? with
      | .error e => exact .done ⟨rfl, rfl⟩
      | .ok true =>
          exact (isMute_ofAction (.note _) nofun).bind fun _ _ =>
            ih { o with skipped := o.skipped ++ [t.name] }
      | .ok false =>
          refine (isMute_generateTarget t).bind fun answer _ => ?_
          cases answer with
          | error e => exact .done ⟨rfl, rfl⟩
          | ok _ => exact ih { o with written := o.written ++ [t.name] }

theorem reports_failWith (o : Outcome) (e : GenerationFailure) : (o.failWith e).Reports none := by
  unfold Outcome.failWith
  split
  · exact .done (.error e)
  · exact .report (.done (.ok { o with error := some e.report }))

/-- **A declaration reports what its outcome calls for**, whatever it is answered. -/
theorem reports_processDeclaration (d : Declaration) :
    (processDeclaration store d).Reports none := by
  unfold processDeclaration
  split
  · exact reports_failWith _ _
  · refine (isMute_processTargets d.targets _).reports fun result hresult => ?_
    match result with
    | (o, some e) => exact reports_failWith o e
    | (o, none) =>
        have hcalled : calledFor (.ok o) = none := by
          rw [calledFor, Outcome.diagnostic?, show o.error = none from hresult.2]
          rfl
        exact hcalled ▸ .done (.ok o)

/-- An outcome is that of a declaration: it has its name, and if it failed, the text of a failure that does
not end the batch. -/
structure Outcome.Concerns (o : Outcome) (d : Declaration) : Prop where
  name : o.name = d.name
  failure : ∀ text, o.error = some text → ∃ e : GenerationFailure, e.endsBatch = false ∧ e.report = text

theorem yields_concerns (s : Setting) (d : Declaration) :
    (processDeclaration store d).Yields s fun answer => ∀ o, answer = .ok o → o.Concerns d := by
  have hfailWith (o : Outcome) (e : GenerationFailure) (hname : o.name = d.name) :
      (o.failWith e).Yields s fun answer => ∀ o, answer = .ok o → o.Concerns d := by
    unfold Outcome.failWith
    split
    · exact .pure nofun
    · next hends =>
      refine (yields_any _).bind fun _ _ => .pure fun o' ho' => ?_
      obtain rfl := Except.ok.inj ho'
      exact ⟨hname, fun text htext => ⟨e, by simpa using hends, Option.some.inj htext⟩⟩
  unfold processDeclaration
  split
  · exact hfailWith _ _ rfl
  · refine ((isMute_processTargets d.targets _).yields s).bind fun result hresult => ?_
    match result with
    | (o, some e) => exact hfailWith o e hresult.1
    | (o, none) =>
        refine .pure fun o' ho' => ?_
        obtain rfl := Except.ok.inj ho'
        exact ⟨hresult.1, fun text htext => by cases hresult.2.symm.trans htext⟩

end

/-! ## Several workers -/

theorem World.diagnostics_perform {s : Setting} {w : World} {act : Action}
    (hact : ∀ d, act ≠ .report d) : (w.perform s act).1.diagnostics = w.diagnostics := by
  by_cases hsilent : act.isSilent = true
  · exact (World.posts_perform hsilent).diagnostics.trans (List.append_nil _)
  · cases act with
    | resolve name => exact (w.posts_resolve s name).diagnostics.trans (List.append_nil _)
    | record name => exact (w.posts_record name).diagnostics.trans (List.append_nil _)
    | report d => exact absurd rfl (hact d)
    | _ => exact absurd rfl hsilent

namespace Pool

variable {s : Setting} {w : World} {p : Pool (Except GenerationFailure Outcome)}
  {before : List Diagnostic}

/-- What the answers of a pool call for. -/
def calledFor (p : Pool (Except GenerationFailure Outcome)) : List Diagnostic :=
  p.answers.flatMap fun answer => (TextProviders.calledFor answer.2).toList

/-- What was reported since a pool was set up is what each of the programs has reported that are not
through, and what the answers call for. -/
def Reports (before : List Diagnostic) (w : World) (p : Pool (Except GenerationFailure Outcome)) :
    Prop :=
  ∃ told posted, List.Forall₂ (fun job told => job.program.Reports told) p.jobs told ∧
    w.diagnostics = before ++ posted ∧ posted ~ told.flatMap Option.toList ++ p.calledFor

/-- The law, seen from one of the programs. -/
theorem Reports.split {job : Job (Except GenerationFailure Outcome)}
    {rest : List (Job (Except GenerationFailure Outcome))} (h : p.Reports before w)
    (hjobs : job :: rest ~ p.jobs) :
    ∃ own others posted, job.program.Reports own ∧
      List.Forall₂ (fun job told => job.program.Reports told) rest others ∧
      w.diagnostics = before ++ posted ∧
      posted ~ own.toList ++ (others.flatMap Option.toList ++ p.calledFor) := by
  obtain ⟨told, posted, hreports, hposted, hlaw⟩ := h
  obtain ⟨told', hreports', htold⟩ := List.perm_comp_forall₂ hjobs hreports
  cases hreports' with
  | cons hown hothers =>
      refine ⟨_, _, posted, hown, hothers, hposted, hlaw.trans ?_⟩
      rw [← List.append_assoc, ← List.flatMap_cons]
      exact (htold.symm.flatMap_right _).append_right _

theorem Reports.join {job : Job (Except GenerationFailure Outcome)}
    {rest : List (Job (Except GenerationFailure Outcome))} {own : Option Diagnostic}
    {others : List (Option Diagnostic)} (posted : List Diagnostic) (hjobs : p.jobs ~ job :: rest)
    (hown : job.program.Reports own)
    (hothers : List.Forall₂ (fun job told => job.program.Reports told) rest others)
    (hposted : w.diagnostics = before ++ posted)
    (hlaw : posted ~ own.toList ++ (others.flatMap Option.toList ++ p.calledFor)) :
    p.Reports before w := by
  obtain ⟨told, hreports, htold⟩ := List.perm_comp_forall₂ hjobs (.cons hown hothers)
  refine ⟨told, posted, hreports, hposted, hlaw.trans ?_⟩
  rw [← List.append_assoc, ← List.flatMap_cons]
  exact (htold.symm.flatMap_right _).append_right _

theorem Reports.assign (h : p.Reports before w) (workers : Nat) :
    (p.assign workers).Reports before w := by
  obtain ⟨told, posted, hreports, hposted, hlaw⟩ := h
  obtain ⟨told', hreports', htold⟩ := List.perm_comp_forall₂ (jobs_assign p workers) hreports
  exact ⟨told', posted, hreports', hposted,
    hlaw.trans ((htold.symm.flatMap_right _).append_right _)⟩

/-- A program that leaves its answer has reported what the answer calls for. -/
theorem Reports.answer {m place : Nat} {answer : Except GenerationFailure Outcome}
    (h : p.Reports before w) (hat : p.active[m]? = some ⟨place, .done answer⟩) :
    Reports before w
      { p with active := p.active.eraseIdx m, answers := p.answers ++ [(place, answer)] } := by
  obtain ⟨own, others, posted, hown, hothers, hposted, hlaw⟩ := h.split (perm_active hat).symm
  cases hown with
  | done =>
      refine ⟨others, posted, hothers, hposted, hlaw.trans ?_⟩
      simp only [calledFor, List.flatMap_append, List.flatMap_singleton]
      exact List.perm_append_comm.trans (List.append_assoc .. ▸ .refl _)

/-- A step reports for the program that takes it, and for no other. -/
theorem Reports.step {m place : Nat} {act : Action}
    {next : act.Answer → Program (Except GenerationFailure Outcome)} (h : p.Reports before w)
    (hat : p.active[m]? = some ⟨place, .step act next⟩) :
    Reports before (w.perform s act).1
      { p with active := p.active.set m ⟨place, next (w.perform s act).2⟩ } := by
  obtain ⟨own, others, posted, hown, hothers, hposted, hlaw⟩ := h.split (perm_active hat).symm
  have hjobs := perm_set hat ⟨place, next (w.perform s act).2⟩
  cases hown with
  | other hact hnext =>
      exact .join posted hjobs (hnext _) hothers ((World.diagnostics_perform hact).trans hposted) hlaw
  | @report d _ hnext =>
      refine .join (posted ++ [d]) hjobs hnext hothers ?_ ?_
      · rw [← List.append_assoc, ← hposted]
        rfl
      · exact List.perm_append_comm.trans (hlaw.append_left [d])

theorem Reports.run (h : p.Reports before w) (workers : Nat) (schedule : List Nat) :
    (Pool.run s workers schedule w p).2.Reports before (Pool.run s workers schedule w p).1 :=
  run_induction (P := fun w p => p.Reports before w) (fun _ _ h => h.assign workers)
    (fun _ _ _ _ _ hat h => h.answer hat) (fun _ _ _ _ _ _ hat h => h.step hat) schedule h

theorem reports_ofPrograms {programs : List (Program (Except GenerationFailure Outcome))}
    (h : ∀ program ∈ programs, program.Reports none) (w : World) :
    (ofPrograms programs).Reports w.diagnostics w := by
  refine ⟨(ofPrograms programs).jobs.map fun _ => none, [], ?_, (List.append_nil _).symm, ?_⟩
  · rw [List.forall₂_map_right_iff, List.forall₂_same]
    intro job hjob
    simp only [jobs, ofPrograms, List.append_nil] at hjob
    obtain ⟨⟨program, i⟩, hmem, rfl⟩ := List.mem_map.mp hjob
    exact h program (List.fst_mem_of_mem_zipIdx hmem)
  · simp [calledFor, ofPrograms]

/-- When all programs are through, what was reported is what the outcomes call for. -/
theorem Reports.finished {outcomes : List Outcome} (h : p.Reports before w)
    (hfinished : p.isFinished = true) (hanswers : p.inOrder = outcomes.map .ok) :
    ∃ posted, w.diagnostics = before ++ posted ∧ posted ~ outcomes.filterMap Outcome.diagnostic? := by
  obtain ⟨told, posted, hreports, hposted, hlaw⟩ := h
  simp only [isFinished, Bool.and_eq_true, List.isEmpty_iff] at hfinished
  obtain rfl : told = [] := by
    rw [jobs, hfinished.1, hfinished.2] at hreports
    exact List.forall₂_nil_left_iff.mp hreports
  refine ⟨posted, hposted, hlaw.trans ?_⟩
  have hsorted : p.answers.map (·.2) ~ outcomes.map .ok :=
    hanswers ▸ ((List.mergeSort_perm p.answers _).map _).symm
  have hcalled := hsorted.flatMap_right fun answer => (TextProviders.calledFor answer).toList
  rw [List.flatMap_map, List.flatMap_map] at hcalled
  rw [List.filterMap_eq_flatMap_toList]
  exact hcalled

/-- What programs yield stands in the order of the programs, whatever the order of their steps. -/
theorem yields_inOrder {α : Type} {programs : List (Program α)} {Y : Nat → α → Prop}
    (h : ∀ i (program : Program α), programs[i]? = some program → program.Yields s (Y i)) {workers : Nat}
    {schedule : List Nat} {w' : World} {p' : Pool α}
    (hrun : Pool.run s workers schedule w (ofPrograms programs) = (w', p'))
    (hfinished : p'.isFinished = true) :
    p'.inOrder.length = programs.length ∧ ∀ i a, p'.inOrder[i]? = some a → Y i a := by
  have hsharing : Sharing (fun _ _ _ => True) fun _ _ _ => True :=
    ⟨fun _ _ _ _ _ _ => trivial, fun _ _ _ _ => trivial, fun _ _ _ _ _ _ => trivial⟩
  obtain ⟨hlength, hanswers, -⟩ := meets_run hsharing
    (fun i program hprogram => ⟨(h i program hprogram).meets w, trivial⟩) workers schedule hrun
    hfinished
  exact ⟨hlength, fun i a ha => (hanswers i a ha).elim fun _ hy => hy.1⟩

end Pool

/-- **Several workers report what the outcomes call for**, in the order in which they come to it. -/
theorem diagnostics_pool {s : Setting} {w w' : World} {batch : List Declaration} {workers : Nat}
    {schedule : List Nat} {p : Pool (Except GenerationFailure Outcome)} {outcomes : List Outcome}
    (hrun : Pool.run s workers schedule w
      (Pool.ofPrograms (batch.map (processDeclaration s.templates))) = (w', p))
    (hfinished : p.isFinished = true) (hanswers : p.inOrder = outcomes.map .ok) :
    ∃ posted, w'.diagnostics = w.diagnostics ++ posted ∧
      posted ~ outcomes.filterMap Outcome.diagnostic? := by
  have hstart : (Pool.ofPrograms (batch.map (processDeclaration s.templates))).Reports
      w.diagnostics w := by
    refine Pool.reports_ofPrograms (fun program hprogram => ?_) w
    obtain ⟨d, -, rfl⟩ := List.mem_map.mp hprogram
    exact reports_processDeclaration d
  have hend := hstart.run (s := s) workers schedule
  rw [hrun] at hend
  exact hend.finished hfinished hanswers

/-- The outcomes of several workers stand in the order of their declarations. -/
theorem concerns_pool {s : Setting} {w w' : World} {batch : List Declaration} {workers : Nat}
    {schedule : List Nat} {p : Pool (Except GenerationFailure Outcome)} {outcomes : List Outcome}
    (hrun : Pool.run s workers schedule w
      (Pool.ofPrograms (batch.map (processDeclaration s.templates))) = (w', p))
    (hfinished : p.isFinished = true) (hanswers : p.inOrder = outcomes.map .ok) :
    List.Forall₂ Outcome.Concerns outcomes batch := by
  have hyields (i : Nat) (program : Program (Except GenerationFailure Outcome))
      (hprogram : (batch.map (processDeclaration s.templates))[i]? = some program) :
      program.Yields s fun answer => ∀ d, batch[i]? = some d → ∀ o, answer = .ok o → o.Concerns d := by
    rw [List.getElem?_map, Option.map_eq_some_iff] at hprogram
    obtain ⟨d, hd, rfl⟩ := hprogram
    refine (yields_concerns s d).mono fun answer hanswer d' hd' => ?_
    obtain rfl := Option.some.inj (hd.symm.trans hd')
    exact hanswer
  obtain ⟨hlength, hconcerns⟩ := Pool.yields_inOrder hyields hrun hfinished
  rw [hanswers, List.length_map, List.length_map] at hlength
  refine List.forall₂_iff_get.mpr ⟨hlength, fun i ho hd => ?_⟩
  exact hconcerns i (.ok (outcomes.get ⟨i, ho⟩)) (by simp [hanswers, ho]) _
    (List.getElem?_eq_getElem hd) _ rfl

end TextProviders
