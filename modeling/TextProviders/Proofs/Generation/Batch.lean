import TextProviders.Generation.Workers
import TextProviders.Proofs.Generation.Steps

/-!
# Runs taken apart

A run over a batch that returns a report is the runs of its declarations, one after the other, each
from the world in which the one before it ended.  A run over a declaration's targets goes from one to
the next, and what can come of each target is said once (`TakesTargets`).  So it is taken apart at each
target that it lists as written: what came before ended without a failure, the target did not exist, it
was generated, and the rest followed.

With several workers of which none is overtaken the runs are the same; a report is returned only if
no failure ended the batch, and then it makes no difference that such a failure would not have kept
the later declarations from being taken (`generateWith_eq_ok`).
-/

namespace TextProviders

open Program

variable {s : Setting} {store : Template.Store}

/-! ## Declarations one after the other -/

theorem run_processAll_cons {w w' : World} {d : Declaration} {rest : List Declaration}
    {outcomes : List Outcome} :
    (processAll store (d :: rest)).run s w = (w', .ok outcomes) ↔
      ∃ w₁ o os, (processDeclaration store d).run s w = (w₁, .ok o) ∧
        (processAll store rest).run s w₁ = (w', .ok os) ∧ outcomes = o :: os := by
  rw [processAll, run_bind]
  generalize (processDeclaration store d).run s w = first
  obtain ⟨w₁, answer⟩ := first
  cases answer with
  | error e =>
      constructor
      · intro h
        cases (Prod.mk.inj h).2
      · rintro ⟨_, _, _, h, -⟩
        cases (Prod.mk.inj h).2
  | ok o =>
      show Program.run s w₁ (processAll store rest >>= _) = _ ↔ _
      rw [run_bind]
      generalize hrest : (processAll store rest).run s w₁ = later
      obtain ⟨w₂, answer⟩ := later
      cases answer with
      | error e =>
          constructor
          · intro h
            cases (Prod.mk.inj h).2
          · rintro ⟨_, _, os, h, h', -⟩
            obtain ⟨rfl, -⟩ := Prod.mk.inj h
            cases (Prod.mk.inj (hrest.symm.trans h')).2
      | ok os =>
          constructor
          · intro h
            obtain ⟨rfl, hos⟩ := Prod.mk.inj h
            exact ⟨w₁, o, os, rfl, hrest, (Except.ok.inj hos).symm⟩
          · rintro ⟨_, o', os', h, h', rfl⟩
            obtain ⟨rfl, ho⟩ := Prod.mk.inj h
            obtain ⟨rfl, hos⟩ := Prod.mk.inj (hrest.symm.trans h')
            rw [← Except.ok.inj ho, ← Except.ok.inj hos]
            rfl

/-- What a run over a batch does to one of its declarations. -/
theorem run_processAll_getElem? {w w' : World} {batch : List Declaration} {outcomes : List Outcome}
    (h : (processAll store batch).run s w = (w', .ok outcomes)) {i : Nat} {d : Declaration}
    (hd : batch[i]? = some d) :
    ∃ w₁ w₂ o, (processAll store (batch.take i)).run s w = (w₁, .ok (outcomes.take i)) ∧
      (processDeclaration store d).run s w₁ = (w₂, .ok o) ∧
      (processAll store (batch.drop (i + 1))).run s w₂ = (w', .ok (outcomes.drop (i + 1))) ∧
      outcomes[i]? = some o := by
  induction batch generalizing w outcomes i with
  | nil => cases hd
  | cons d' rest ih =>
      obtain ⟨w₁, o, os, hfirst, hrest, rfl⟩ := run_processAll_cons.mp h
      cases i with
      | zero =>
          obtain rfl := Option.some.inj hd
          exact ⟨w, w₁, o, rfl, hfirst, hrest, rfl⟩
      | succ i =>
          obtain ⟨w₂, w₃, o', hbefore, hat, hafter, ho'⟩ := ih hrest hd
          exact ⟨w₂, w₃, o', run_processAll_cons.mpr ⟨w₁, o, _, hfirst, hbefore, rfl⟩, hat, hafter,
            ho'⟩

theorem length_of_run_processAll {w w' : World} {batch : List Declaration}
    {outcomes : List Outcome} (h : (processAll store batch).run s w = (w', .ok outcomes)) :
    outcomes.length = batch.length := by
  induction batch generalizing w outcomes with
  | nil =>
      cases h
      rfl
  | cons d rest ih =>
      obtain ⟨_, o, os, -, hrest, rfl⟩ := run_processAll_cons.mp h
      simp [ih hrest]

/-! ## Reports -/

theorem run_generate_eq_ok {w w' : World} {batch : List Declaration} {r : Report}
    (h : (generate store batch).run s w = (w', .ok r)) :
    ∃ w₁, (processAll store batch).run s w = (w₁, .ok r.outcomes) ∧
      w' = w₁.note [generatedNote r] := by
  rw [generate, run_bind] at h
  generalize (processAll store batch).run s w = result at h ⊢
  obtain ⟨w₁, answer⟩ := result
  cases answer with
  | error e => cases (Prod.mk.inj h).2
  | ok outcomes =>
      obtain ⟨rfl, hr⟩ := Prod.mk.inj h
      obtain rfl := Except.ok.inj hr
      exact ⟨w₁, rfl, rfl⟩

theorem run_generate_of_processAll {w w' : World} {batch : List Declaration}
    {outcomes : List Outcome} (h : (processAll store batch).run s w = (w', .ok outcomes)) :
    (generate store batch).run s w = (w'.note [generatedNote ⟨outcomes⟩], .ok ⟨outcomes⟩) := by
  rw [generate, run_bind, h]
  rfl

theorem eq_map_ok_of_mapM {ε α : Type} {answers : List (Except ε α)} {as : List α}
    (h : answers.mapM id = .ok as) : answers = as.map .ok := by
  induction answers generalizing as with
  | nil =>
      obtain rfl := Except.ok.inj h
      rfl
  | cons answer answers ih =>
      rw [List.mapM_cons] at h
      cases answer with
      | error e => cases h
      | ok a =>
          change (answers.mapM id).bind (fun as => .ok (a :: as)) = .ok as at h
          cases hrest : answers.mapM id with
          | error e => rw [hrest] at h; cases h
          | ok as' =>
              rw [hrest] at h
              obtain rfl := Except.ok.inj h
              rw [ih hrest]
              rfl

theorem runEach_cons {α : Type} (w : World) (p : Program α) (rest : List (Program α)) :
    runEach s w (p :: rest) =
      ((runEach s (p.run s w).1 rest).1, (p.run s w).2 :: (runEach s (p.run s w).1 rest).2) := rfl

/-- Declarations that are each run to the end have the run of the batch, if none of them ends it. -/
theorem run_processAll_of_runEach {w w' : World} {batch : List Declaration}
    {outcomes : List Outcome}
    (h : runEach s w (batch.map (processDeclaration store)) = (w', outcomes.map .ok)) :
    (processAll store batch).run s w = (w', .ok outcomes) := by
  induction batch generalizing w outcomes with
  | nil =>
      obtain ⟨rfl, hnil⟩ := Prod.mk.inj h
      obtain rfl := List.map_eq_nil_iff.mp hnil.symm
      rfl
  | cons d rest ih =>
      rw [List.map_cons, runEach_cons] at h
      obtain ⟨hworld, hanswers⟩ := Prod.mk.inj h
      cases outcomes with
      | nil => cases hanswers
      | cons o os =>
          obtain ⟨hfirst, hrest⟩ := List.cons.inj hanswers
          exact run_processAll_cons.mpr
            ⟨_, o, os, Prod.ext rfl hfirst, ih (Prod.ext hworld hrest), rfl⟩

theorem generateWith_eq_ok {w w' : World} {workers : Int} {batch : List Declaration} {r : Report}
    (h : generateWith s workers w batch = (w', .ok r)) :
    ∃ w₁, (processAll s.templates batch).run s w = (w₁, .ok r.outcomes) ∧
      w' = w₁.note [generatedNote r] := by
  unfold generateWith at h
  split at h
  · unfold generateTogether at h
    generalize heach : runEach s w (batch.map (processDeclaration s.templates)) = each at h
    obtain ⟨w₁, answers⟩ := each
    dsimp only at h
    split at h
    · cases (Prod.mk.inj h).2
    · next outcomes hanswers =>
      obtain ⟨rfl, hr⟩ := Prod.mk.inj h
      obtain rfl := Except.ok.inj hr
      rw [eq_map_ok_of_mapM hanswers] at heach
      exact ⟨w₁, run_processAll_of_runEach heach, rfl⟩
  · exact run_generate_eq_ok h

/-! ## Targets one after the other -/

section

variable {w w' : World} {t : Target} {rest : List Target} {o : Outcome}

theorem run_processTargets_of_error {e : GenerationFailure} (h : w.lookup s t.name = .error e) :
    (processTargets store (t :: rest) o).run s w = (w, (o, some e)) := by
  have hstep : w.perform s (.lookup t.name) = (w, .error e) := congrArg (w, ·) h
  rw [processTargets, run_step hstep]
  rfl

theorem run_processTargets_of_true (h : w.lookup s t.name = .ok true) :
    (processTargets store (t :: rest) o).run s w =
      (processTargets store rest { o with skipped := o.skipped ++ [t.name] }).run s
        (w.note [skippedNote t.name]) := by
  have hstep : w.perform s (.lookup t.name) = (w, .ok true) := congrArg (w, ·) h
  rw [processTargets, run_step hstep]
  rfl

theorem run_processTargets_of_false (h : w.lookup s t.name = .ok false) :
    (processTargets store (t :: rest) o).run s w =
      match (generateTarget store t).run s w with
      | (w₁, .error e) => (w₁, (o, some e))
      | (w₁, .ok ()) =>
          (processTargets store rest { o with written := o.written ++ [t.name] }).run s w₁ := by
  have hstep : w.perform s (.lookup t.name) = (w, .ok false) := congrArg (w, ·) h
  rw [processTargets, run_step hstep]
  show Program.run s w (generateTarget store t >>= _) = _
  rw [run_bind]
  generalize (generateTarget store t).run s w = result
  obtain ⟨w₁, answer⟩ := result
  cases answer with
  | error e => rfl
  | ok _ => rfl

/-- How a run over targets goes: each target is skipped or written, until one cannot be looked up or
generated. -/
inductive TakesTargets (s : Setting) (store : Template.Store) :
    List Target → Outcome → World → World → Outcome → Option GenerationFailure → Prop
  | nil {o : Outcome} {w : World} : TakesTargets s store [] o w w o none
  | unseen {t : Target} {rest : List Target} {o : Outcome} {w : World} {e : GenerationFailure}
      (hlookup : w.lookup s t.name = .error e) : TakesTargets s store (t :: rest) o w w o (some e)
  | skipped {t : Target} {rest : List Target} {o o' : Outcome} {w w' : World}
      {failure? : Option GenerationFailure} (hlookup : w.lookup s t.name = .ok true)
      (hrest : TakesTargets s store rest { o with skipped := o.skipped ++ [t.name] }
        (w.note [skippedNote t.name]) w' o' failure?) :
      TakesTargets s store (t :: rest) o w w' o' failure?
  | failed {t : Target} {rest : List Target} {o : Outcome} {w w' : World} {e : GenerationFailure}
      (hlookup : w.lookup s t.name = .ok false)
      (hgenerated : (generateTarget store t).run s w = (w', .error e)) :
      TakesTargets s store (t :: rest) o w w' o (some e)
  | written {t : Target} {rest : List Target} {o o' : Outcome} {w w₁ w' : World}
      {failure? : Option GenerationFailure} (hlookup : w.lookup s t.name = .ok false)
      (hgenerated : (generateTarget store t).run s w = (w₁, .ok ()))
      (hrest : TakesTargets s store rest { o with written := o.written ++ [t.name] } w₁ w' o' failure?) :
      TakesTargets s store (t :: rest) o w w' o' failure?

theorem run_processTargets_iff {ts : List Target} {o' : Outcome} {failure? : Option GenerationFailure} :
    (processTargets store ts o).run s w = (w', (o', failure?)) ↔
      TakesTargets s store ts o w w' o' failure? := by
  constructor
  · intro h
    induction ts generalizing w o with
    | nil =>
        cases h
        exact .nil
    | cons t rest ih =>
        match hlookup : w.lookup s t.name with
        | .error e =>
            rw [run_processTargets_of_error hlookup] at h
            cases h
            exact .unseen hlookup
        | .ok true =>
            rw [run_processTargets_of_true hlookup] at h
            exact .skipped hlookup (ih h)
        | .ok false =>
            rw [run_processTargets_of_false hlookup] at h
            generalize hgenerated : (generateTarget store t).run s w = generated at h
            obtain ⟨w₁, answer⟩ := generated
            cases answer with
            | error e =>
                cases h
                exact .failed hlookup hgenerated
            | ok _ => exact .written hlookup hgenerated (ih h)
  · intro h
    induction h with
    | nil => rfl
    | unseen hlookup => exact run_processTargets_of_error hlookup
    | skipped hlookup _ ih =>
        rw [run_processTargets_of_true hlookup]
        exact ih
    | failed hlookup hgenerated => rw [run_processTargets_of_false hlookup, hgenerated]
    | written hlookup hgenerated _ ih =>
        rw [run_processTargets_of_false hlookup, hgenerated]
        exact ih

/-- A target that a run adds to the written ones was generated in it, from the world in which the run
over the targets before it ended. -/
theorem run_processTargets_written {ts : List Target} {o' : Outcome}
    {failure? : Option GenerationFailure}
    (h : (processTargets store ts o).run s w = (w', (o', failure?))) {name : String}
    (hname : name ∈ o'.written) (hnew : name ∉ o.written) :
    ∃ before t after w₁ o₁ w₂, ts = before ++ t :: after ∧ t.name = name ∧
      (processTargets store before o).run s w = (w₁, (o₁, none)) ∧
      (generateTarget store t).run s w₁ = (w₂, .ok ()) ∧
      (processTargets store after { o₁ with written := o₁.written ++ [t.name] }).run s w₂ =
        (w', (o', failure?)) := by
  replace h := run_processTargets_iff.mp h
  induction h with
  | nil => exact absurd hname hnew
  | unseen => exact absurd hname hnew
  | failed => exact absurd hname hnew
  | @skipped t rest o o' w w' failure? hlookup _ ih =>
      obtain ⟨before, t', after, w₁, o₁, w₂, rfl, hname', hbefore, hrest⟩ := ih hname hnew
      refine ⟨t :: before, t', after, w₁, o₁, w₂, rfl, hname', ?_, hrest⟩
      rw [run_processTargets_of_true hlookup]
      exact hbefore
  | @written t rest o o' w w₁ w' failure? hlookup hgenerated hrest ih =>
      by_cases hhere : t.name = name
      · exact ⟨[], t, rest, w, o, w₁, rfl, hhere, rfl, hgenerated, run_processTargets_iff.mpr hrest⟩
      · have hnew' : name ∉ o.written ++ [t.name] := by
          rw [List.mem_append, List.mem_singleton]
          exact not_or.mpr ⟨hnew, fun heq => hhere heq.symm⟩
        obtain ⟨before, t', after, w₂, o₂, w₃, rfl, hname', hbefore, hrest'⟩ := ih hname hnew'
        refine ⟨t :: before, t', after, w₂, o₂, w₃, rfl, hname', ?_, hrest'⟩
        rw [run_processTargets_of_false hlookup, hgenerated]
        exact hbefore

/-! ## Declarations -/

theorem run_failWith (o : Outcome) (e : GenerationFailure) (w : World) :
    (o.failWith e).run s w =
      if e.endsBatch then (w, .error e)
      else (w.report (failureDiagnostic o.name e), .ok { o with error := some e.report }) := by
  unfold Outcome.failWith
  split
  · rfl
  · rfl

/-- Ending an outcome with a failure changes neither the files and the records nor what is listed. -/
theorem run_failWith_eq_ok {e : GenerationFailure} {o' : Outcome}
    (h : (o.failWith e).run s w = (w', .ok o')) :
    w'.files = w.files ∧ w'.written = w.written ∧ o'.written = o.written ∧
      o'.skipped = o.skipped ∧ o'.ok = false := by
  rw [run_failWith] at h
  split at h
  · cases (Prod.mk.inj h).2
  · obtain ⟨rfl, ho⟩ := Prod.mk.inj h
    obtain rfl := Except.ok.inj ho
    exact ⟨rfl, rfl, rfl, rfl, rfl⟩

/-- A declaration that is accepted has the outcome of the run over its targets, ended if that failed. -/
theorem run_processDeclaration_of_valid {d : Declaration} (h : d.validate = .ok ()) (w : World) :
    (processDeclaration store d).run s w =
      match (processTargets store d.targets ⟨d.name, [], [], none⟩).run s w with
      | (w₁, (o, none)) => (w₁, .ok o)
      | (w₁, (o, some e)) => (o.failWith e).run s w₁ := by
  unfold processDeclaration
  rw [h]
  show Program.run s w (processTargets store d.targets _ >>= _) = _
  rw [run_bind]
  generalize (processTargets store d.targets ⟨d.name, [], [], none⟩).run s w = result
  obtain ⟨w₁, o, failure?⟩ := result
  cases failure? with
  | none => rfl
  | some e => rfl

/-- A declaration is refused and nothing is done for it, or its targets are taken and its outcome lists
what is listed then; it is ok if nothing failed. -/
theorem run_processDeclaration_cases {d : Declaration} {o : Outcome}
    (h : (processDeclaration store d).run s w = (w', .ok o)) :
    (w'.files = w.files ∧ w'.written = w.written ∧ o.written = [] ∧ o.skipped = [] ∧
        o.ok = false) ∨
      d.validate = .ok () ∧ ∃ w₁ o₁ failure?,
        (processTargets store d.targets ⟨d.name, [], [], none⟩).run s w = (w₁, (o₁, failure?)) ∧
        w'.files = w₁.files ∧ w'.written = w₁.written ∧ o.written = o₁.written ∧
        o.skipped = o₁.skipped ∧ (o.ok = true → failure? = none) := by
  cases hvalid : d.validate with
  | error e =>
      rw [processDeclaration, hvalid] at h
      exact .inl (run_failWith_eq_ok h)
  | ok _ =>
      rw [run_processDeclaration_of_valid hvalid] at h
      right
      refine ⟨rfl, ?_⟩
      generalize (processTargets store d.targets ⟨d.name, [], [], none⟩).run s w = result at h ⊢
      obtain ⟨w₁, o₁, failure?⟩ := result
      cases failure? with
      | none =>
          obtain ⟨rfl, ho⟩ := Prod.mk.inj h
          obtain rfl := Except.ok.inj ho
          exact ⟨w₁, o₁, none, rfl, rfl, rfl, rfl, rfl, fun _ => rfl⟩
      | some e =>
          obtain ⟨hfiles, hrecorded, hwritten, hskipped, hfailed⟩ := run_failWith_eq_ok h
          refine ⟨w₁, o₁, some e, rfl, hfiles, hrecorded, hwritten, hskipped, fun hok => ?_⟩
          rw [hfailed] at hok
          cases hok

/-- What an outcome lists as written was written in the run over the targets of a declaration that is
accepted. -/
theorem run_processDeclaration_written {d : Declaration}
    (h : (processDeclaration store d).run s w = (w', .ok o)) {name : String}
    (hname : name ∈ o.written) :
    d.validate = .ok () ∧
      ∃ w₁ o₁ failure?, (processTargets store d.targets ⟨d.name, [], [], none⟩).run s w =
          (w₁, (o₁, failure?)) ∧ name ∈ o₁.written ∧ w'.files = w₁.files := by
  rcases run_processDeclaration_cases h with
    ⟨-, -, hnone, -, -⟩ | ⟨hvalid, w₁, o₁, failure?, hrun, hfiles, -, hwritten, -, -⟩
  · rw [hnone] at hname
    cases hname
  · exact ⟨hvalid, w₁, o₁, failure?, hrun, hwritten ▸ hname, hfiles⟩

end

end TextProviders
