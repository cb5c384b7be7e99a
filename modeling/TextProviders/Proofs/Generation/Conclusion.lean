import TextProviders.Proofs.Generation.Course

/-!
# How a batch ends

The declarations of a batch share one world, whether they run one after the other or several workers
run them.  Each leaves alone what the others ask for (`sharing_batch`), and so each ends as if the
sources of its providers were its own, if no other declaration asks for them (`Owns`).

What is known in the end of the world and of the outcomes is `Concluded`.  It does not say in which
order anything happened, and it is the same for a batch that was run in order (`concluded_runEach`),
for one that several workers ran (`concluded_pool`), and for a declaration that ran alone.

If no call fails and the declarations are of different types, the files in the end are those that were
there and those that the declarations write, each by the fates of its own targets
(`Concluded.file_iff`).
-/

namespace TextProviders

open Program

/-- No declaration of a batch asks for a name but the one at a certain place. -/
def Owns (batch : List Declaration) (i : Nat) (name : String) : Prop :=
  ∀ j (d : Declaration), batch[j]? = some d → d.Asks name → j = i

/-- The declaration at a place in a batch is the only one of its type. -/
def ListedOnce (batch : List Declaration) (i : Nat) (d : Declaration) : Prop :=
  batch[i]? = some d ∧ ∀ j (d' : Declaration), batch[j]? = some d' → d'.name = d.name → j = i

theorem ListedOnce.owns {batch : List Declaration} {i : Nat} {d : Declaration}
    (h : ListedOnce batch i d) : ∀ name, d.Asks name → Owns batch i name :=
  fun _ hasks j d' hd' hasks' => h.2 j d' hd' (hasks'.name_eq hasks)

theorem listedOnce_of_nodup {batch : List Declaration} (hnames : (batch.map (·.name)).Nodup)
    {i : Nat} {d : Declaration} (hd : batch[i]? = some d) : ListedOnce batch i d := by
  refine ⟨hd, fun j d' hd' hname => ?_⟩
  have hlt : j < (batch.map (·.name)).length := by
    rw [List.length_map]
    exact (List.getElem?_eq_some_iff.mp hd').1
  exact (List.getElem?_inj hlt hnames).mp (by simp [hd, hd', hname])

/-- What is known when a batch is through that started in an older state of the file system. -/
structure Concluded (s : Setting) (old : FileSystem) (batch : List Declaration) (w : World)
    (outcomes : List Outcome) : Prop where
  length : outcomes.length = batch.length
  /-- A declaration that is the only one of its type came as far as its outcome says, -/
  outcome : ∀ i d (o : Outcome), ListedOnce batch i d → outcomes[i]? = some o →
    d.Concludes s old w o
  /-- and nothing was done about names for which no declaration asks. -/
  others : LeavesAlone s old (fun name => ∀ d ∈ batch, ¬d.Asks name) { files := old } w

section

variable {s : Setting} {old : FileSystem} {batch : List Declaration}

theorem Concluded.of_leavesAlone {w w' : World} {outcomes : List Outcome}
    (h : Concluded s old batch w outcomes) (hplain : ∀ d ∈ batch, d.IsPlain)
    (hl : LeavesAlone s old (fun _ => True) w w') : Concluded s old batch w' outcomes := by
  refine ⟨h.length, fun i d o honce ho => ?_, h.others.trans (hl.mono fun _ _ => trivial)⟩
  exact (h.outcome i d o honce ho).of_leavesAlone (hplain d (List.mem_of_getElem? honce.1)) hl
    fun _ _ => trivial

/-- What the declaration at a place does not ask for it leaves alone, and the others rely on it. -/
theorem sharing_batch (s : Setting) (old : FileSystem) (batch : List Declaration) :
    Sharing (fun i => LeavesAlone s old (Owns batch i))
      (fun i => LeavesAlone s old fun name => ∀ d, batch[i]? = some d → ¬d.Asks name) where
  trans _ _ _ _ := LeavesAlone.trans
  own _ _ _ h := .refl h.grown
  others i _ _ _ hne h := h.mono fun _ howns d hd hasks => hne (howns i d hd hasks)

theorem owns_length {name : String} (h : ∀ d ∈ batch, ¬d.Asks name) :
    Owns batch batch.length name :=
  fun _ d hd hasks => absurd hasks (h d (List.mem_of_getElem? hd))

variable (hs : s.IsSeparate) (hc : old.Closed) (hfit : s.NamesFit) (hsoft : s.FailsSoftly)
  (hplain : ∀ d ∈ batch, d.IsPlain)

include hs hc hfit hsoft hplain

theorem meets_batch (i : Nat) (p : Program (Except GenerationFailure Outcome))
    (hp : (batch.map (processDeclaration s.templates))[i]? = some p) :
    p.Meets s (LeavesAlone s old (Owns batch i))
      (LeavesAlone s old fun name => ∀ d, batch[i]? = some d → ¬d.Asks name)
      (fun w answer => ∃ o, answer = .ok o ∧
        ∀ d, ListedOnce batch i d → d.Concludes s old w o) { files := old } ∧
      LeavesAlone s old (Owns batch i) { files := old } { files := old } := by
  rw [List.getElem?_map, Option.map_eq_some_iff] at hp
  obtain ⟨d, hd, rfl⟩ := hp
  have hfresh (name : String) (_ : d.Asks name) (_ : Owns batch i name) :
      Untouched s old name { files := old } := ⟨rfl, List.not_mem_nil⟩
  have hmeets := meets_processDeclaration hs hc hfit hsoft (hplain d (List.mem_of_getElem? hd)) hfresh
  refine ⟨hmeets.weaken (fun a b hl => hl.mono fun name hnot => hnot d hd) ?_,
    .refl (Grown.refl s old)⟩
  rintro w _ ⟨o, rfl, hconcludes⟩
  refine ⟨o, rfl, fun d' honce => ?_⟩
  obtain rfl : d = d' := Option.some.inj (hd.symm.trans honce.1)
  exact hconcludes honce.owns

omit hs hc hfit hsoft in
/-- Whatever way the programs of a batch came to their ends. -/
theorem concluded_of_through {w : World} {outcomes : List Outcome}
    (h : Through (fun i => LeavesAlone s old (Owns batch i))
      (fun i w o => ∀ d, ListedOnce batch i d → d.Concludes s old w o)
      (batch.map (processDeclaration s.templates)).length { files := old } w outcomes) :
    Concluded s old batch w outcomes := by
  obtain ⟨hlength, hanswers, hothers⟩ := h
  rw [List.length_map] at hlength hothers
  have hend := hothers batch.length (Nat.le_refl _) _ (.refl (Grown.refl s old))
  refine ⟨hlength, fun i d o honce ho => ?_, hend.mono fun name => owns_length⟩
  obtain ⟨w₀, hconcludes, hleaves⟩ := hanswers i o ho
  exact (hconcludes d honce).of_leavesAlone (hplain d (List.mem_of_getElem? honce.1)) hleaves
    honce.owns

/-- A batch whose declarations run one after the other. -/
theorem concluded_runEach :
    ∃ w outcomes, runEach s { files := old } (batch.map (processDeclaration s.templates)) =
      (w, outcomes.map .ok) ∧ Concluded s old batch w outcomes := by
  obtain ⟨w, outcomes, hrun, hthrough⟩ := (sharing_batch s old batch).through_runEach
    (meets_batch hs hc hfit hsoft hplain)
  exact ⟨w, outcomes, hrun, concluded_of_through hplain hthrough⟩

/-- A batch in order. -/
theorem concluded_generate :
    ∃ w r, (generate s.templates batch).run s { files := old } = (w, .ok r) ∧
      Concluded s old batch w r.outcomes := by
  obtain ⟨w, outcomes, hrun, hconcluded⟩ := concluded_runEach hs hc hfit hsoft hplain
  exact ⟨_, ⟨outcomes⟩, run_generate_of_processAll (run_processAll_of_runEach hrun),
    hconcluded.of_leavesAlone hplain (.of_eq hconcluded.others.grown rfl rfl)⟩

/-- One declaration alone. -/
theorem concluded_alone {d : Declaration} (hd : d ∈ batch) :
    ∃ w o, (processDeclaration s.templates d).run s { files := old } = (w, .ok o) ∧
      Concluded s old [d] w [o] := by
  have hplaind : ∀ d' ∈ [d], d'.IsPlain := fun d' hd' => hplain d' (List.mem_singleton.mp hd' ▸ hd)
  obtain ⟨w, outcomes, hrun, hconcluded⟩ := concluded_runEach hs hc hfit hsoft hplaind
  obtain ⟨o, rfl⟩ := List.length_eq_one_iff.mp hconcluded.length
  refine ⟨w, o, ?_, hconcluded⟩
  rw [List.map_singleton, runEach_cons] at hrun
  obtain ⟨hw, hanswers⟩ := Prod.mk.inj hrun
  exact Prod.ext hw (List.cons.inj hanswers).1

/-- A batch that several workers ran. -/
theorem concluded_pool (workers : Nat) (schedule : List Nat) {w : World}
    {p : Pool (Except GenerationFailure Outcome)}
    (hrun : Pool.run s workers schedule { files := old }
      (Pool.ofPrograms (batch.map (processDeclaration s.templates))) = (w, p))
    (hfinished : p.isFinished = true) :
    ∃ outcomes, p.inOrder = outcomes.map .ok ∧ Concluded s old batch w outcomes := by
  obtain ⟨outcomes, hall, hthrough⟩ := (sharing_batch s old batch).through_run
    (meets_batch hs hc hfit hsoft hplain) workers schedule hrun hfinished
  exact ⟨outcomes, hall, concluded_of_through hplain hthrough⟩

end

/-! ## Outcomes -/

/-- Two outcomes say the same, but for the words of a failure. -/
structure Outcome.Agrees (o o' : Outcome) : Prop where
  name : o.name = o'.name
  written : o.written = o'.written
  skipped : o.skipped = o'.skipped
  ok : o.ok = o'.ok

theorem Outcome.IsOf.agrees {o o' : Outcome} {s : Setting} {fs : FileSystem} {d : Declaration}
    {done : List Target} (h : o.IsOf s fs d done) (h' : o'.IsOf s fs d done) : o.Agrees o' :=
  ⟨h.name.trans h'.name.symm, h.written.trans h'.written.symm, h.skipped.trans h'.skipped.symm,
    h.ok.trans h'.ok.symm⟩

section

variable {s : Setting} {old : FileSystem} {batch : List Declaration} {w : World}
  {outcomes : List Outcome} (h : Concluded s old batch w outcomes)

include h

theorem Concluded.exists_outcome {i : Nat} {d : Declaration} (hd : batch[i]? = some d) :
    ∃ o : Outcome, outcomes[i]? = some o := by
  have hlt : i < outcomes.length := by
    rw [h.length]
    exact (List.getElem?_eq_some_iff.mp hd).1
  exact ⟨_, List.getElem?_eq_getElem hlt⟩

/-- If no call fails, the fates of a declaration's own targets decide its outcome. -/
theorem Concluded.isOf_passed (hf : s.Faultless) {i : Nat} {d : Declaration}
    (honce : ListedOnce batch i d) {o : Outcome} (ho : outcomes[i]? = some o) :
    o.IsOf s old d (d.passed s old) := by
  obtain ⟨done, _, -, hisOf, -, hall⟩ := h.outcome i d o honce ho
  exact hall hf ▸ hisOf

end

/-! ## The files in the end -/

/-- A declaration writes a file with certain bytes at a place if no call fails. -/
def Declaration.Writes (d : Declaration) (s : Setting) (fs : FileSystem) (loc : Location)
    (bytes : List UInt8) : Prop :=
  ∃ t ∈ d.passed s fs, ∃ source, t.fate s fs = .written source ∧ loc = s.placeFor t.name ∧
    bytes = Text.Utf8.encode source.toList

section

variable {s : Setting} {old : FileSystem} {batch : List Declaration} {w : World}
  {outcomes : List Outcome} (h : Concluded s old batch w outcomes)
  (hnames : (batch.map (·.name)).Nodup)

include h hnames

theorem Concluded.concludes {d : Declaration} (hd : d ∈ batch) :
    ∃ (i : Nat) (o : Outcome), batch[i]? = some d ∧ outcomes[i]? = some o ∧
      d.Concludes s old w o := by
  obtain ⟨i, hi⟩ := List.getElem?_of_mem hd
  obtain ⟨o, ho⟩ := h.exists_outcome hi
  exact ⟨i, o, hi, ho, h.outcome i d o (listedOnce_of_nodup hnames hi) ho⟩

/-- The source of a name is what it was, or it was written for one of the targets that a declaration
comes past. -/
theorem Concluded.name_cases {name : String} (hname : IsDotted name) :
    w.files.get? (s.placeFor name) = old.get? (s.placeFor name) ∨
      ∃ d ∈ batch, ∃ t ∈ d.passed s old, ∃ source, t.name = name ∧
        t.fate s old = .written source ∧ Complete s name source w := by
  by_cases hasked : ∃ d ∈ batch, d.Asks name
  · obtain ⟨d, hd, t, ht, rfl⟩ := hasked
    obtain ⟨_, _, -, -, done, rest, hcomes, -, hpassed, -⟩ := h.concludes hnames hd
    rw [hcomes.all, List.mem_append] at ht
    rcases ht with ht | ht
    · have hthrough := hcomes.through t ht
      unfold Target.IsThrough at hthrough
      cases hfate : t.fate s old with
      | skipped =>
          rw [hfate] at hthrough
          exact .inl hthrough.entry
      | written source =>
          rw [hfate] at hthrough
          exact .inr ⟨d, hd, t, hpassed.subset ht, source, rfl, hfate, hthrough⟩
      | failed =>
          rw [hfate] at hthrough
          exact hthrough.elim
    · exact .inl (hcomes.untouched t ht).entry
  · left
    exact h.others.entry name hname fun d hd hasks => hasked ⟨d, hd, hasks⟩

/-- **The files of a batch.**  If no call fails, they are those that were there and those that its
declarations write. -/
theorem Concluded.file_iff (hf : s.Faultless) {loc : Location} {bytes : List UInt8} :
    w.files.get? loc = some (.file bytes) ↔
      old.get? loc = some (.file bytes) ∨ ∃ d ∈ batch, d.Writes s old loc bytes := by
  constructor
  · intro hfile
    rcases h.others.grown.added loc with hsame | ⟨hdir, -⟩ | ⟨name, _, hname, hloc, -⟩
    · exact .inl (hsame ▸ hfile)
    · cases hdir.symm.trans hfile
    · rw [hloc] at hfile
      rcases h.name_cases hnames hname with hsame | ⟨d, hd, t, ht, source, htname, hfate, hcomplete⟩
      · rw [hsame, ← hloc] at hfile
        exact .inl hfile
      · rw [(complete_iff.mp hcomplete).2] at hfile
        refine .inr ⟨d, hd, t, ht, source, hfate, by rw [hloc, htname], ?_⟩
        exact (Entry.file.inj (Option.some.inj hfile)).symm
  · rintro (hold | ⟨d, hd, t, ht, source, hfate, hloc, hbytes⟩)
    · exact h.others.grown.keeps _ _ hold
    · rw [hloc, hbytes]
      obtain ⟨_, _, -, -, done, rest, hcomes, -, -, hall⟩ := h.concludes hnames hd
      have hthrough := hcomes.through t (hall hf ▸ ht)
      unfold Target.IsThrough at hthrough
      rw [hfate] at hthrough
      exact (complete_iff.mp hthrough).2

end

end TextProviders
