import Mathlib.Algebra.BigOperators.Group.List.Basic
import Mathlib.Algebra.GroupWithZero.Nat
import Mathlib.Order.Lattice.Nat
import TextProviders.Proofs.FileSystem.Trees
import TextProviders.Proofs.Generation.Settlement

/-!
# Several workers agree with order

Several workers that take a batch come to its end, whatever the order of their steps
(`Pool.isFinished_run`): each program takes a bounded number of steps, and a step of a worker uses up
one of them.  If no call fails, they come to what a run in order comes to
(`workers_agree_with_order`): the names that are listed as written are the same, and so is the outcome
of each declaration that is the only one of its type, or that finds both of its providers there.

It need not be the same for a type that is listed twice.  Between a look-up that does not find a
provider and the attempt to make its source, another worker can have made it, and the declaration
fails, though in order it would have been skipped (`rivals_disagree_with_order`).
-/

namespace TextProviders

open Program
open scoped List

/-! ## How long programs take -/

/-- Whatever the answers to its steps, a program is through after a number of steps. -/
inductive Program.EndsWithin {α : Type} : Nat → Program α → Prop
  | done {n : Nat} {a : α} : EndsWithin n (.done a)
  | step {n : Nat} {act : Action} {next : act.Answer → Program α} :
      (∀ answer, EndsWithin n (next answer)) → EndsWithin (n + 1) (.step act next)

namespace Program

variable {α β : Type} {m n : Nat}

theorem EndsWithin.pure {a : α} : (Pure.pure a : Program α).EndsWithin n :=
  .done

theorem endsWithin_ofAction (act : Action) : (ofAction act).EndsWithin 1 :=
  .step fun _ => .done

theorem EndsWithin.mono {p : Program α} (h : p.EndsWithin m) (hle : m ≤ n) : p.EndsWithin n := by
  induction h generalizing n with
  | done => exact .done
  | step _ ih =>
      obtain ⟨n, rfl⟩ : ∃ k, n = k + 1 := ⟨n - 1, by omega⟩
      exact .step fun answer => ih answer (by omega)

theorem EndsWithin.bind {p : Program α} {f : α → Program β} (hp : p.EndsWithin m)
    (hf : ∀ a, (f a).EndsWithin n) : (p >>= f).EndsWithin (m + n) := by
  induction hp with
  | done => exact (hf _).mono (by omega)
  | @step m _ _ _ ih =>
      rw [show m + 1 + n = m + n + 1 by omega]
      exact .step ih

/-- The number of steps after which a program is through at the latest. -/
noncomputable def depth (p : Program α) : Nat :=
  sInf {n | p.EndsWithin n}

theorem EndsWithin.depth_le {p : Program α} (h : p.EndsWithin n) : p.depth ≤ n :=
  Nat.sInf_le h

/-- A step uses up one of the steps that were left. -/
theorem EndsWithin.next {act : Action} {next : act.Answer → Program α}
    (h : (Program.step act next).EndsWithin n) (answer : act.Answer) :
    (∃ k, (next answer).EndsWithin k) ∧ (next answer).depth < (Program.step act next).depth := by
  have hdepth : (Program.step act next).EndsWithin (Program.step act next).depth :=
    Nat.sInf_mem (s := {n | (Program.step act next).EndsWithin n}) ⟨n, h⟩
  generalize (Program.step act next).depth = k at hdepth
  cases hdepth with
  | step hnext => exact ⟨⟨_, hnext answer⟩, Nat.lt_succ_of_le (hnext answer).depth_le⟩

end Program

section

theorem endsWithin_closeAfter (e : GenerationFailure) : (closeAfter e).EndsWithin 1 :=
  (endsWithin_ofAction .close).bind (n := 0) fun answer => by cases answer <;> exact .pure

theorem endsWithin_writeText (place : Location) (text : String) :
    (writeText place text).EndsWithin 3 := by
  refine (endsWithin_ofAction (.write place text)).bind (n := 2) fun answer => ?_
  cases answer with
  | error e => exact (endsWithin_closeAfter e).mono (by omega)
  | ok _ =>
      refine (endsWithin_ofAction .flush).bind (n := 1) fun answer => ?_
      cases answer with
      | error e => exact endsWithin_closeAfter e
      | ok _ => exact endsWithin_ofAction .close

theorem endsWithin_writeSource (name source : String) : (writeSource name source).EndsWithin 6 := by
  refine (endsWithin_ofAction (.create name)).bind (n := 5) fun answer => ?_
  cases answer with
  | error e => exact .pure
  | ok place =>
      refine (endsWithin_writeText place source).bind (n := 2) fun answer => ?_
      cases answer with
      | error e =>
          dsimp only
          split
          · refine ((endsWithin_ofAction (.discard name)).bind (n := 0) fun answer => ?_).mono
              (by omega)
            cases answer <;> exact .pure
          · exact .pure
      | ok _ =>
          exact (endsWithin_ofAction (.record name)).bind (n := 1) fun _ =>
            (endsWithin_ofAction (.note _)).bind (n := 0) fun _ => .pure

theorem endsWithin_generateTarget (store : Template.Store) (t : Target) :
    (generateTarget store t).EndsWithin 7 := by
  unfold generateTarget
  dsimp only
  split
  · exact .pure
  · refine (endsWithin_ofAction (.resolve _)).bind (n := 6) fun answer => ?_
    cases answer with
    | error e => exact .pure
    | ok text =>
        dsimp only
        split
        · exact .pure
        · exact endsWithin_writeSource _ _

theorem endsWithin_processTargets (store : Template.Store) (ts : List Target) (o : Outcome) :
    (processTargets store ts o).EndsWithin (8 * ts.length) := by
  induction ts generalizing o with
  | nil => exact .pure
  | cons t rest ih =>
      rw [List.length_cons, show 8 * (rest.length + 1) = 1 + (7 + 8 * rest.length) by omega]
      refine (endsWithin_ofAction (.lookup t.name)).bind fun answer => ?_
      match answer with
      | .error e => exact .pure
      | .ok true =>
          exact ((endsWithin_ofAction (.note _)).bind fun _ => ih _).mono (by omega)
      | .ok false =>
          refine (endsWithin_generateTarget store t).bind fun answer => ?_
          cases answer with
          | error e => exact .pure
          | ok _ => exact ih _

/-- A declaration is through after 17 steps at the latest. -/
theorem endsWithin_processDeclaration (store : Template.Store) (d : Declaration) :
    (processDeclaration store d).EndsWithin 17 := by
  have hfailWith (o : Outcome) (e : GenerationFailure) : (o.failWith e).EndsWithin 1 := by
    unfold Outcome.failWith
    split
    · exact .pure
    · exact (endsWithin_ofAction (.report _)).bind (n := 0) fun _ => .pure
  unfold processDeclaration
  split
  · exact (hfailWith _ _).mono (by omega)
  · refine (endsWithin_processTargets store d.targets _).bind (n := 1) fun result => ?_
    match result with
    | (o, none) => exact .pure
    | (o, some e) => exact hfailWith o e

end

/-! ## Several workers come to an end -/

namespace Pool

variable {α : Type} {s : Setting} {w : World} {p : Pool α}

/-- The programs that are not through. -/
def jobs (p : Pool α) : List (Job α) :=
  p.waiting ++ p.active

/-- The steps that the workers have left, one of them for leaving the answer. -/
noncomputable def work (p : Pool α) : Nat :=
  (p.jobs.map fun job => job.program.depth + 1).sum

/-- Every program that is not through ends after some number of steps. -/
def Ends (p : Pool α) : Prop :=
  ∀ job ∈ p.jobs, ∃ n, job.program.EndsWithin n

theorem work_le {n : Nat} (h : ∀ job ∈ p.jobs, job.program.EndsWithin n) :
    p.work ≤ (n + 1) * p.jobs.length := by
  unfold work
  generalize p.jobs = jobs at h
  induction jobs with
  | nil => exact Nat.le_refl 0
  | cons job rest ih =>
      simp only [List.mem_cons, forall_eq_or_imp] at h
      have hdepth := h.1.depth_le
      have hrest := ih h.2
      rw [List.map_cons, List.sum_cons, List.length_cons, Nat.mul_succ]
      omega

theorem jobs_assign (p : Pool α) (workers : Nat) : (p.assign workers).jobs ~ p.jobs :=
  perm_assign p workers

theorem work_assign (p : Pool α) (workers : Nat) : (p.assign workers).work = p.work :=
  ((jobs_assign p workers).map _).sum_eq

theorem Ends.assign (h : p.Ends) (workers : Nat) : (p.assign workers).Ends :=
  fun job hjob => h job ((jobs_assign p workers).mem_iff.mp hjob)

/-- With somebody to work, a program is being run unless all are through. -/
theorem active_assign {workers : Nat} (hworkers : 0 < workers)
    (h : (p.assign workers).active = []) : (p.assign workers).isFinished = true := by
  have hactive : p.active = [] := (List.append_eq_nil_iff.mp h).1
  have htake : p.waiting.take workers = [] := by
    have := (List.append_eq_nil_iff.mp h).2
    rwa [hactive] at this
  have hwaiting : p.waiting = [] := (List.take_eq_nil_iff.mp htake).resolve_left (by omega)
  simp [isFinished, Pool.assign, hactive, hwaiting]

/-- One of the programs being run is at its end and leaves its answer, or takes a step. -/
theorem advance_cases (s : Setting) (w : World) (hactive : p.active ≠ []) (choice : Nat) :
    ∃ place rest,
      (∃ a, p.jobs ~ ⟨place, .done a⟩ :: rest ∧ (p.advance s w choice).1 = w ∧
        (p.advance s w choice).2.jobs = rest) ∨
      ∃ act next, p.jobs ~ ⟨place, .step act next⟩ :: rest ∧
        (p.advance s w choice).1 = (w.perform s act).1 ∧
        (p.advance s w choice).2.jobs ~ ⟨place, next (w.perform s act).2⟩ :: rest := by
  have hlt : choice % p.active.length < p.active.length :=
    Nat.mod_lt _ (List.length_pos_of_ne_nil hactive)
  obtain ⟨⟨place, program⟩, hget⟩ : ∃ job, p.active[choice % p.active.length]? = some job :=
    ⟨_, List.getElem?_eq_getElem hlt⟩
  unfold Pool.advance
  dsimp only
  generalize choice % p.active.length = m at hget
  rw [hget]
  refine ⟨place, p.waiting ++ p.active.eraseIdx m, ?_⟩
  cases program with
  | done a => exact .inl ⟨a, perm_active hget, rfl, rfl⟩
  | step act next => exact .inr ⟨act, next, perm_active hget, rfl, perm_set hget _⟩

/-- A step of a program that is being run leaves less work. -/
theorem work_advance (h : p.Ends) (hactive : p.active ≠ []) (choice : Nat) :
    (p.advance s w choice).2.Ends ∧ (p.advance s w choice).2.work < p.work := by
  obtain ⟨place, rest, hcases⟩ := advance_cases s w hactive choice
  rcases hcases with ⟨a, hjobs, -, hafter⟩ | ⟨act, next, hjobs, -, hafter⟩
  · refine ⟨fun job hjob => ?_, ?_⟩
    · rw [hafter] at hjob
      exact h job (hjobs.mem_iff.mpr (List.mem_cons_of_mem _ hjob))
    · rw [work, work, hafter, (hjobs.map _).sum_eq, List.map_cons, List.sum_cons]
      dsimp only
      omega
  · obtain ⟨n, hends⟩ := h _ (hjobs.mem_iff.mpr List.mem_cons_self)
    obtain ⟨hlater, hless⟩ := EndsWithin.next hends (w.perform s act).2
    refine ⟨fun job hjob => ?_, ?_⟩
    · rcases List.mem_cons.mp (hafter.mem_iff.mp hjob) with rfl | hjob
      · exact hlater
      · exact h job (hjobs.mem_iff.mpr (List.mem_cons_of_mem _ hjob))
    · rw [work, work, (hafter.map _).sum_eq, (hjobs.map _).sum_eq, List.map_cons, List.sum_cons,
        List.map_cons, List.sum_cons]
      dsimp only
      omega

theorem isFinished_of_work (h : p.work = 0) : p.isFinished = true := by
  have hjobs : p.jobs = [] := by
    cases hjobs : p.jobs with
    | nil => rfl
    | cons job rest => simp [work, hjobs] at h
  simp [isFinished, List.append_eq_nil_iff.mp hjobs]

theorem isFinished_run_of_isFinished (workers : Nat) (schedule : List Nat)
    (h : p.isFinished = true) : (Pool.run s workers schedule w p).2.isFinished = true := by
  induction schedule generalizing w p with
  | nil => exact h
  | cons choice schedule ih =>
      have hassign : p.assign workers = p := by
        obtain ⟨waiting, active, answers⟩ := p
        simp only [isFinished, Bool.and_eq_true, List.isEmpty_iff] at h
        obtain ⟨rfl, rfl⟩ := h
        simp [Pool.assign]
      have hactive : p.active = [] := by
        simp only [isFinished, Bool.and_eq_true, List.isEmpty_iff] at h
        exact h.2
      refine ih ?_
      rw [hassign]
      simpa [advance, hactive] using h

/-- **Workers come to an end** if the schedule goes on for as long as there is work. -/
theorem isFinished_run {workers : Nat} (hworkers : 0 < workers) {schedule : List Nat} (h : p.Ends)
    (hwork : p.work ≤ schedule.length) :
    (Pool.run s workers schedule w p).2.isFinished = true := by
  induction schedule generalizing w p with
  | nil => exact isFinished_of_work (Nat.le_zero.mp hwork)
  | cons choice schedule ih =>
      by_cases hactive : (p.assign workers).active = []
      · refine isFinished_run_of_isFinished workers schedule ?_
        simpa [advance, hactive] using active_assign hworkers hactive
      · obtain ⟨hends, hless⟩ := work_advance (s := s) (w := w) (h.assign workers) hactive choice
        rw [work_assign] at hless
        exact ih hends (Nat.le_of_lt_succ (Nat.lt_of_lt_of_le hless hwork))

theorem inOrder_of_sorted (h : (p.answers.map (·.1)).Pairwise (· ≤ ·)) :
    p.inOrder = p.answers.map (·.2) := by
  unfold inOrder
  rw [List.mergeSort_of_pairwise]
  exact (List.pairwise_map.mp h).imp fun hle => decide_eq_true hle

end Pool

/-! ## Workers and order -/

/-- What a batch comes to with several workers agrees with what it comes to in order: a declaration that
is the only one of its type has the same outcome, one whose providers existed has the same verdict, the
same names are listed as written, and if no type is listed twice the files are the same. -/
structure AgreesWithOrder (s : Setting) (fs : FileSystem) (batch : List Declaration) (w : World)
    (r : Report) (w' : World) (outcomes : List Outcome) : Prop where
  length : outcomes.length = batch.length
  outcome : ∀ (i : Nat) (d : Declaration), ListedOnce batch i d →
    ∃ (o o' : Outcome), r.outcomes[i]? = some o ∧ outcomes[i]? = some o' ∧ o'.Agrees o
  verdict : ∀ (i : Nat) (d : Declaration), batch[i]? = some d →
    (∀ t ∈ d.targets, s.Stands fs t.name) →
    ∃ (o o' : Outcome), r.outcomes[i]? = some o ∧ outcomes[i]? = some o' ∧ o'.ok = o.ok
  written : ∀ name, name ∈ (Report.mk outcomes).written ↔ name ∈ r.written
  files : (batch.map (·.name)).Nodup → ∀ loc bytes,
    w'.files.get? loc = some (.file bytes) ↔ w.files.get? loc = some (.file bytes)

section

variable {s : Setting} {fs : FileSystem} {batch : List Declaration}

theorem ends_batch (s : Setting) (batch : List Declaration) :
    (Pool.ofPrograms (batch.map (processDeclaration s.templates))).Ends ∧
      (Pool.ofPrograms (batch.map (processDeclaration s.templates))).work ≤ 18 * batch.length := by
  have hends : ∀ job ∈ (Pool.ofPrograms (batch.map (processDeclaration s.templates))).jobs,
      job.program.EndsWithin 17 := by
    intro job hjob
    simp only [Pool.jobs, Pool.ofPrograms, List.append_nil] at hjob
    obtain ⟨⟨p, i⟩, hp, rfl⟩ := List.mem_map.mp hjob
    obtain ⟨d, -, rfl⟩ := List.mem_map.mp (List.fst_mem_of_mem_zipIdx hp)
    exact endsWithin_processDeclaration s.templates d
  refine ⟨fun job hjob => ⟨17, hends job hjob⟩, ?_⟩
  have hlength : (Pool.ofPrograms (batch.map (processDeclaration s.templates))).jobs.length =
      batch.length := by simp [Pool.jobs, Pool.ofPrograms]
  rw [← hlength]
  exact Pool.work_le hends

variable (hs : s.IsSeparate) (hfit : s.NamesFit) (hf : s.Faultless) (hc : fs.Closed)
  (hplain : ∀ d ∈ batch, d.IsPlain)

include hs hfit hf hc hplain

/-- **Several workers agree with order.**  A schedule that goes on for long enough brings all workers to
an end, and whenever they are at the end they have come to what the batch in order comes to. -/
theorem workers_agree_with_order {workers : Nat} (hworkers : 0 < workers) :
    ∃ w r, (generate s.templates batch).run s { files := fs } = (w, .ok r) ∧
      ∀ schedule : List Nat, ∃ w' p, Pool.run s workers schedule { files := fs }
          (Pool.ofPrograms (batch.map (processDeclaration s.templates))) = (w', p) ∧
        (18 * batch.length ≤ schedule.length → p.isFinished = true) ∧
        (p.isFinished = true → ∃ outcomes, p.inOrder = outcomes.map .ok ∧
          AgreesWithOrder s fs batch w r w' outcomes) := by
  obtain ⟨w, r, hrun, hordered⟩ := concluded_generate hs hc hfit hf.failsSoftly hplain
  obtain ⟨_, _, hrun', hsettled⟩ := settled_generate hs hc hfit hplain hf
  obtain ⟨rfl, hr⟩ := Prod.mk.inj (hrun.symm.trans hrun')
  obtain rfl := Except.ok.inj hr
  refine ⟨w, r, hrun, fun schedule => ⟨_, _, rfl, fun hlong => ?_, fun hfinished => ?_⟩⟩
  · obtain ⟨hends, hwork⟩ := ends_batch s batch
    exact Pool.isFinished_run hworkers hends (hwork.trans hlong)
  · obtain ⟨outcomes, hall, hmixed⟩ := concluded_pool hs hc hfit hf.failsSoftly hplain workers schedule
      rfl hfinished
    obtain ⟨outcomes', hall', hsettled'⟩ := settled_pool hs hc hfit hplain hf workers schedule rfl
      hfinished
    obtain rfl : outcomes = outcomes' :=
      List.map_injective_iff.mpr (fun _ _ => Except.ok.inj) (hall.symm.trans hall')
    refine ⟨outcomes, hall, hmixed.length, fun i d honce => ?_, fun i d hd hstands => ?_,
      fun name => ?_, fun hnames loc bytes => ?_⟩
    · obtain ⟨o, ho⟩ := hordered.exists_outcome honce.1
      obtain ⟨o', ho'⟩ := hmixed.exists_outcome honce.1
      exact ⟨o, o', ho, ho', (hmixed.isOf_passed hf honce ho').agrees (hordered.isOf_passed hf honce ho)⟩
    · obtain ⟨o, ho⟩ := hordered.exists_outcome hd
      obtain ⟨o', ho'⟩ := hmixed.exists_outcome hd
      refine ⟨o, o', ho, ho', Bool.eq_iff_iff.mpr ?_⟩
      rw [hsettled'.ok_iff_of_stands hd ho' hstands, hsettled.ok_iff_of_stands hd ho hstands]
    · rw [Report.written, Report.written, List.mem_flatMap, List.mem_flatMap,
        hsettled'.listed_iff hplain hs hf.templates, hsettled.listed_iff hplain hs hf.templates]
    · rw [hmixed.file_iff hnames hf, hordered.file_iff hnames hf]

end

/-- A type that is listed twice and whose providers are written by hand, one that has a resource, and
two workers. -/
theorem workers_agree_with_order_two_workers :
    let s : Setting :=
      { layout := ⟨[⟨.here, ["src"]⟩], [⟨.here, ["res"]⟩], ⟨.here, ["out", "gen"]⟩⟩
        here := []
        templates := [("runtime-loading", "class $NAME"), ("embedded-literal", "class $NAME $TEXT")] }
    let fs : FileSystem := ⟨[(["src"], .directory), (["res"], .directory),
      (["src", "com"], .directory), (["src", "com", "AProvider.java"], .file []),
      (["src", "com", "AProviderJ2cl.java"], .file []), (["res", "com"], .directory),
      (["res", "com", "C.txt"], .file [99])]⟩
    let batch : List Declaration := [{ name := "com.A" }, { name := "com.C" }, { name := "com.A" }]
    (s.IsSeparate ∧ s.NamesFit ∧ s.Faultless ∧ fs.Closed ∧ (∀ d ∈ batch, d.IsPlain)) ∧
      ∃ w r, (generate s.templates batch).run s { files := fs } = (w, .ok r) ∧
        r.outcomes.map (fun o => (o.written, o.ok)) =
          [([], true), (["com.CProvider", "com.CProviderJ2cl"], true), ([], true)] ∧
        ∃ w' p outcomes, Pool.run s 2 ((List.range 54).map (· / 3)) { files := fs }
            (Pool.ofPrograms (batch.map (processDeclaration s.templates))) = (w', p) ∧
          p.inOrder = outcomes.map .ok ∧ AgreesWithOrder s fs batch w r w' outcomes := by
  intro s fs batch
  have hs : s.IsSeparate := by decide
  have hfit : s.NamesFit := by decide
  have hf : s.Faultless := ⟨fun _ => rfl, by decide⟩
  have hc : fs.Closed := FileSystem.closed_of_entries (by decide)
  have hplain : ∀ d ∈ batch, d.IsPlain := by decide
  obtain ⟨w, r, hrun, hworkers⟩ := workers_agree_with_order hs hfit hf hc hplain
    (show 0 < 2 by decide)
  have houtcomes : ((generate s.templates batch).run s { files := fs }).2.toOption.map
      (fun r => r.outcomes.map fun o => (o.written, o.ok)) = some
        [([], true), (["com.CProvider", "com.CProviderJ2cl"], true), ([], true)] := by
    decide +kernel
  rw [hrun] at houtcomes
  obtain ⟨w', p, hpool, hlong, hagrees⟩ := hworkers ((List.range 54).map (· / 3))
  obtain ⟨outcomes, hall, hagrees⟩ := hagrees (hlong (by simp [batch]))
  exact ⟨⟨hs, hfit, hf, hc, hplain⟩, w, r, hrun, Option.some.inj houtcomes, w', p, outcomes, hpool,
    hall, hagrees⟩

/-- A type is listed twice.  In order the second declaration finds what the first has written; with two
workers that both look the first provider up before one of them makes it, it fails. -/
theorem rivals_disagree_with_order :
    let s : Setting :=
      { layout := ⟨[⟨.here, ["src"]⟩], [⟨.here, ["res"]⟩], ⟨.here, ["out", "gen"]⟩⟩
        here := []
        templates := [("runtime-loading", "class $NAME"), ("embedded-literal", "class $NAME $TEXT")] }
    let fs : FileSystem := ⟨[(["src"], .directory), (["res"], .directory),
      (["src", "com"], .directory), (["src", "com", "A.txt"], .file [97])]⟩
    let batch : List Declaration := [{ name := "com.A" }, { name := "com.A" }]
    let schedule := 0 :: 1 :: List.replicate 34 0
    (s.IsSeparate ∧ s.NamesFit ∧ s.Faultless ∧ fs.IsTree s.here ∧ (∀ d ∈ batch, d.IsPlain)) ∧
      ∃ w r w' p, ∃ outcomes : List Outcome,
        (generate s.templates batch).run s { files := fs } = (w, .ok r) ∧ r.ok = true ∧
        Pool.run s 2 schedule { files := fs }
          (Pool.ofPrograms (batch.map (processDeclaration s.templates))) = (w', p) ∧
        p.isFinished = true ∧ p.inOrder = outcomes.map .ok ∧
        outcomes.map (·.ok) = [true, false] := by
  intro s fs batch schedule
  have hs : s.IsSeparate := by decide
  have hfit : s.NamesFit := by decide
  have hf : s.Faultless := ⟨fun _ => rfl, by decide⟩
  have htree : fs.IsTree s.here := ⟨FileSystem.closed_of_entries (by decide), by decide⟩
  have hplain : ∀ d ∈ batch, d.IsPlain := by decide
  obtain ⟨w, r, hrun⟩ := exists_report hf.failsSoftly { files := fs } batch
  have hok : ((generate s.templates batch).run s { files := fs }).2.toOption.map Report.ok =
      some true := by decide +kernel
  rw [hrun] at hok
  have hfinished : (Pool.run s 2 schedule { files := fs }
      (Pool.ofPrograms (batch.map (processDeclaration s.templates)))).2.isFinished = true := by
    decide +kernel
  have hverdicts : (Pool.run s 2 schedule { files := fs }
      (Pool.ofPrograms (batch.map (processDeclaration s.templates)))).2.answers.map
        (fun answer => (answer.1, answer.2.toOption.map (·.ok))) =
          [(0, some true), (1, some false)] := by
    decide +kernel
  rcases hpool : Pool.run s 2 schedule { files := fs }
    (Pool.ofPrograms (batch.map (processDeclaration s.templates))) with ⟨w', p⟩
  rw [hpool] at hfinished hverdicts
  obtain ⟨outcomes, hall, -⟩ := settled_pool hs htree.closed hfit hplain hf 2 schedule hpool hfinished
  refine ⟨⟨hs, hfit, hf, htree, hplain⟩, w, r, w', p, outcomes, hrun, Option.some.inj hok, rfl,
    hfinished, hall, ?_⟩
  have hsorted : (p.answers.map (·.1)).Pairwise (· ≤ ·) := by
    have hplaces := congrArg (List.map Prod.fst) hverdicts
    rw [List.map_map] at hplaces
    exact hplaces ▸ (by decide : [0, 1].Pairwise (· ≤ ·))
  have hanswers := congrArg (List.map Prod.snd) hverdicts
  rw [List.map_map] at hanswers
  rw [Pool.inOrder_of_sorted hsorted] at hall
  have hoks : (p.answers.map (·.2)).map (fun answer => answer.toOption.map (·.ok)) =
      [some true, some false] := by
    rw [List.map_map]
    exact hanswers
  rw [hall, List.map_map] at hoks
  exact List.map_injective_iff.mpr (Option.some_injective _) ((List.map_map ..).trans hoks)

end TextProviders
