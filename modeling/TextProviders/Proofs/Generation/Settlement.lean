import TextProviders.Proofs.Generation.Rivals

/-!
# What a batch with rivals comes to

When a batch is through in which no call failed, the names that its outcomes list as written are those
that some declaration of it writes alone (`Settled.listed_iff`).  Nothing here depends on the order in
which the steps of the declarations came, and a type may be listed more than once.

For one half, what is listed was wanted by the declaration that lists it.  For the other, take a
declaration that wants to write a provider.  It need not have come to it itself, as it may have failed
at the one before, where a rival was faster.  But then that one is listed by the rival, which made it
(`Settled.accounted`), and the rival went on to the provider in question.
-/

namespace TextProviders

open Program

/-- What is known when a batch is through in which no call failed. -/
structure Settled (s : Setting) (old : FileSystem) (batch : List Declaration) (w : World)
    (outcomes : List Outcome) : Prop where
  length : outcomes.length = batch.length
  tried : ∀ (i : Nat) (d : Declaration) (o : Outcome), batch[i]? = some d → outcomes[i]? = some o →
    d.Tried s old batch w o
  /-- Every source that was made is listed. -/
  accounted : ∀ loc, w.HasFile loc → World.HasFile loc { files := old } ∨
    ∃ o ∈ outcomes, ∃ name ∈ o.written, loc = s.placeFor name

section

variable {s : Setting} {old : FileSystem} {batch : List Declaration} {w w' : World}
  {outcomes : List Outcome}

theorem Settled.of_adds (h : Settled s old batch w outcomes) (hplain : ∀ d ∈ batch, d.IsPlain)
    (ha : Adds s old batch w w') (hfiles : w'.files = w.files) : Settled s old batch w' outcomes := by
  refine ⟨h.length, fun i d o hd ho => ?_, fun loc hloc => h.accounted loc ?_⟩
  · exact (h.tried i d o hd ho).of_adds (hplain d (List.mem_of_getElem? hd)) ha
  · unfold World.HasFile at hloc ⊢
    rwa [← hfiles]

theorem Settled.exists_tried (h : Settled s old batch w outcomes) {d : Declaration} (hd : d ∈ batch) :
    ∃ o ∈ outcomes, d.Tried s old batch w o := by
  obtain ⟨i, hi⟩ := List.getElem?_of_mem hd
  have hlt : i < outcomes.length := by
    rw [h.length]
    exact (List.getElem?_eq_some_iff.mp hi).1
  have ho := List.getElem?_eq_getElem hlt
  exact ⟨_, List.getElem_mem hlt, h.tried i d _ hi ho⟩

/-- What an outcome lists was wanted and is there, and its declaration tried the next one too. -/
theorem Settled.of_listed (h : Settled s old batch w outcomes) {o : Outcome} (ho : o ∈ outcomes)
    {name : String} (hname : name ∈ o.written) :
    ∃ d ∈ batch, ∃ done rest, Tries s old batch d.targets done rest o.written w ∧
      ∃ t ∈ done, t.name = name ∧ (t.fate s old).isWritten = true := by
  obtain ⟨i, hi⟩ := List.getElem?_of_mem ho
  have hlt : i < batch.length := by
    rw [← h.length]
    exact (List.getElem?_eq_some_iff.mp hi).1
  have htried := h.tried i _ o (List.getElem?_eq_getElem hlt) hi
  by_cases hvalid : batch[i].validate = .ok ()
  · obtain ⟨done, rest, htries, -⟩ := htried.valid hvalid
    exact ⟨_, List.getElem_mem hlt, done, rest, htries, htries.written name hname⟩
  · rw [(htried.invalid hvalid).1] at hname
    cases hname

variable (h : Settled s old batch w outcomes)

include h

/-- A first provider is tried by every declaration, so it is there if one wants it. -/
theorem Settled.supplied_first {d : Declaration} (hd : d ∈ batch) (hvalid : d.validate = .ok ())
    (hwritten : ((Target.mk .runtimeLoading d).fate s old).isWritten = true) :
    Supplied s old batch (Target.mk .runtimeLoading d).name w := by
  obtain ⟨o, -, htried⟩ := h.exists_tried hd
  obtain ⟨done, rest, htries, -⟩ := htried.valid hvalid
  exact htries.supplied _ htries.first hwritten

/-- A declaration all of whose providers existed before is ok if it is valid, whatever rivals it has. -/
theorem Settled.ok_iff_of_stands {i : Nat} {d : Declaration} {o : Outcome} (hd : batch[i]? = some d)
    (ho : outcomes[i]? = some o) (hstands : ∀ t ∈ d.targets, s.Stands old t.name) :
    o.ok = true ↔ d.validate = .ok () := by
  have htried := h.tried i d o hd ho
  constructor
  · intro hok
    by_contra hinvalid
    rw [(htried.invalid hinvalid).2] at hok
    cases hok
  · intro hvalid
    obtain ⟨done, rest, htries, hok⟩ := htried.valid hvalid
    rw [hok]
    cases rest with
    | nil => rfl
    | cons t rest =>
        have hmem : t ∈ d.targets := htries.all ▸ List.mem_append_right _ List.mem_cons_self
        exact absurd (Target.fate_eq_skipped_iff.mpr (hstands t hmem)) (htries.stops t (by simp))

variable (hplain : ∀ d ∈ batch, d.IsPlain)

include hplain

theorem Settled.wanted_of_listed {o : Outcome} (ho : o ∈ outcomes) {name : String}
    (hname : name ∈ o.written) : Wanted s old batch name ∧ IsDotted name := by
  obtain ⟨d, hd, done, rest, htries, t, ht, rfl, hwritten⟩ := h.of_listed ho hname
  have hmem : t ∈ d.targets := htries.all ▸ List.mem_append_left _ ht
  exact ⟨(htries.supplied t (List.mem_append_left _ ht) hwritten).wanted,
    ((hplain d hd).target hmem).target_isDotted⟩

variable (hs : s.IsSeparate)

include hs

/-- A source that is there and was wanted is listed. -/
theorem Settled.listed_of_supplied {name : String} (hname : IsDotted name)
    (hsupplied : Supplied s old batch name w) : ∃ o ∈ outcomes, name ∈ o.written := by
  rcases h.accounted _ hsupplied.file with ⟨bytes, hold⟩ | ⟨o, ho, other, hother, hplace⟩
  · cases hold.symm.trans (hsupplied.wanted.free hs hplain hname)
  · obtain ⟨-, hdotted⟩ := h.wanted_of_listed hplain ho hother
    rw [(Setting.placeFor_inj hs hname hdotted).mp hplace]
    exact ⟨o, ho, hother⟩

/-- A second provider is there if a declaration wants it, as one came past the first to try it: that
declaration itself, or the one that wrote the first. -/
theorem Settled.supplied_second (htemplates : s.HasTemplates) {d : Declaration} (hd : d ∈ batch)
    (hvalid : d.validate = .ok ()) (hfirst : (Target.mk .runtimeLoading d).fate s old ≠ .failed)
    (hwritten : ((Target.mk .embeddedLiteral d).fate s old).isWritten = true) :
    Supplied s old batch (Target.mk .embeddedLiteral d).name w := by
  have hdotted (d' : Declaration) (hd' : d' ∈ batch) (strategy : Strategy) :
      IsDotted (Target.mk strategy d').name := Target.isDotted_name (hplain d' hd').isDotted
  cases hfate : (Target.mk .runtimeLoading d).fate s old with
  | failed => exact absurd hfate hfirst
  | skipped =>
      obtain ⟨o, -, htried⟩ := h.exists_tried hd
      obtain ⟨done, rest, htries, -⟩ := htried.valid hvalid
      have hdone := (List.mem_append.mp htries.first).resolve_right fun hstop =>
        htries.stops _ hstop hfate
      exact htries.supplied _ (htries.second hdone) hwritten
  | written source =>
      have hthere := h.supplied_first hd hvalid (by rw [hfate]; rfl)
      obtain ⟨o, ho, hlisted⟩ := h.listed_of_supplied hplain hs (hdotted d hd _) hthere
      obtain ⟨rival, hrival, done, rest, htries, t, ht, hname, hmade⟩ := h.of_listed ho hlisted
      -- the rival made the first provider of this type, so it came to the second
      obtain ⟨hstrategy, hsame⟩ := Target.name_eq_name_iff.mp hname
      have hmem : t ∈ rival.targets := htries.all ▸ List.mem_append_left _ ht
      have hdeclaration := Declaration.mem_targets hmem
      obtain ⟨strategy, declaration⟩ := t
      obtain rfl : declaration = rival := hdeclaration
      obtain rfl : strategy = .runtimeLoading := hstrategy
      have hsecond : (Target.mk .embeddedLiteral declaration).name =
          (Target.mk .embeddedLiteral d).name := Target.name_eq_name_iff.mpr ⟨rfl, hsame⟩
      have hsource := ((Target.isWritten_iff hs (hdotted _ hrival _)).mp hmade).2
      have hcan := ((Target.isWritten_iff hs (hdotted d hd _)).mp hwritten).1
      rw [← hsecond] at hcan ⊢
      refine htries.supplied _ (htries.second ht) ((Target.isWritten_iff hs (hdotted _ hrival _)).mpr ?_)
      exact ⟨hcan, Target.exists_source htemplates (t := .mk .runtimeLoading declaration) rfl hsource⟩

/-- What is wanted is there in the end. -/
theorem Settled.supplied (htemplates : s.HasTemplates) {name : String}
    (hwanted : Wanted s old batch name) : Supplied s old batch name w := by
  obtain ⟨d, hd, t, ht, rfl, hwritten⟩ := hwanted
  have hvalid : d.validate = .ok () := by
    cases hcheck : d.validate with
    | ok _ => rfl
    | error e => simp [Declaration.passed, hcheck] at ht
  have hmem := Declaration.mem_targets_of_passed ht
  simp only [Declaration.targets, List.mem_cons, List.not_mem_nil, or_false] at hmem
  rcases hmem with rfl | rfl
  · exact h.supplied_first hd hvalid hwritten
  · refine h.supplied_second hplain hs htemplates hd hvalid (fun hfailed => ?_) hwritten
    -- behind a target at which the declaration fails none is passed
    simp [Declaration.passed, hvalid, Declaration.targets, hfailed] at ht

/-- **The names that are listed as written** are those that some declaration writes alone. -/
theorem Settled.listed_iff (htemplates : s.HasTemplates) {name : String} :
    (∃ o ∈ outcomes, name ∈ o.written) ↔ Wanted s old batch name := by
  constructor
  · rintro ⟨o, ho, hname⟩
    exact (h.wanted_of_listed hplain ho hname).1
  · intro hwanted
    have hthere := h.supplied hplain hs htemplates hwanted
    obtain ⟨d, hd, t, ht, rfl, -⟩ := hwanted
    have hdotted := ((hplain d hd).target (Declaration.mem_targets_of_passed ht)).target_isDotted
    exact h.listed_of_supplied hplain hs hdotted hthere

end

/-! ## Batches -/

section

variable {s : Setting} {old : FileSystem} {batch : List Declaration} (hs : s.IsSeparate)
  (hc : old.Closed) (hfit : s.NamesFit) (hplain : ∀ d ∈ batch, d.IsPlain) (hf : s.Faultless)

include hs hc hfit hplain hf

theorem Adds.meets_batch (i : Nat) (p : Program (Except GenerationFailure Outcome))
    (hp : (batch.map (processDeclaration s.templates))[i]? = some p) :
    p.Meets s (Adds s old batch) (Adds s old batch)
        (fun w answer => ∃ o, answer = .ok o ∧ ∀ d, batch[i]? = some d → d.Tried s old batch w o)
        { files := old } ∧
      Adds s old batch { files := old } { files := old } := by
  rw [List.getElem?_map, Option.map_eq_some_iff] at hp
  obtain ⟨d, hd, rfl⟩ := hp
  refine ⟨(Adds.meets_processDeclaration hs hc hfit hplain hf (List.mem_of_getElem? hd)).weaken
    (fun _ _ => id) ?_, .start s old batch⟩
  rintro w _ ⟨o, rfl, htried⟩
  exact ⟨o, rfl, fun d' hd' => Option.some.inj (hd.symm.trans hd') ▸ htried⟩

omit hs hc hfit hplain in
theorem accounts_batch : ∀ p ∈ batch.map (processDeclaration s.templates),
    p.Accounts s World.HasFile
      fun loc answer => ∀ o, answer = .ok o → ∃ name ∈ o.written, loc = s.placeFor name := by
  intro p hp
  obtain ⟨d, -, rfl⟩ := List.mem_map.mp hp
  exact accounts_processDeclaration hf d

omit hs hc hfit hf in
theorem settled_of_through {w : World} {outcomes : List Outcome}
    (h : Through (fun _ => Adds s old batch)
      (fun i w o => ∀ d, batch[i]? = some d → d.Tried s old batch w o)
      (batch.map (processDeclaration s.templates)).length { files := old } w outcomes)
    (haccounted : ∀ loc, w.HasFile loc → World.HasFile loc { files := old } ∨
      ∃ answer ∈ (outcomes.map .ok : List (Except GenerationFailure Outcome)),
        ∀ o, answer = .ok o → ∃ name ∈ o.written, loc = s.placeFor name) :
    Settled s old batch w outcomes := by
  refine ⟨h.length.trans (List.length_map _), fun i d o hd ho => ?_, fun loc hloc => ?_⟩
  · obtain ⟨w₀, htried, hadds⟩ := h.answer i o ho
    exact (htried d hd).of_adds (hplain d (List.mem_of_getElem? hd)) hadds
  · refine (haccounted loc hloc).imp_right ?_
    rintro ⟨_, hanswer, hsays⟩
    obtain ⟨o, ho, rfl⟩ := List.mem_map.mp hanswer
    exact ⟨o, ho, hsays o rfl⟩

/-- A batch in order. -/
theorem settled_generate :
    ∃ w r, (generate s.templates batch).run s { files := old } = (w, .ok r) ∧
      Settled s old batch w r.outcomes := by
  obtain ⟨w, outcomes, hrun, hthrough⟩ := (sharing_adds s old batch).through_runEach
    (Adds.meets_batch hs hc hfit hplain hf)
  have hsettled : Settled s old batch w outcomes := by
    refine settled_of_through hplain hthrough fun loc hloc => ?_
    have hloc' : World.HasFile loc
        (runEach s { files := old } (batch.map (processDeclaration s.templates))).1 := hrun ▸ hloc
    have hsays := accounts_runEach (accounts_batch hf) hloc'
    rwa [hrun] at hsays
  have hend := hthrough.others _ (Nat.le_refl _) _ (Adds.start s old batch)
  exact ⟨_, ⟨outcomes⟩, run_generate_of_processAll (run_processAll_of_runEach hrun),
    hsettled.of_adds hplain (hend.of_eq rfl rfl) rfl⟩

/-- A batch that several workers ran. -/
theorem settled_pool (workers : Nat) (schedule : List Nat) {w : World}
    {p : Pool (Except GenerationFailure Outcome)}
    (hrun : Pool.run s workers schedule { files := old }
      (Pool.ofPrograms (batch.map (processDeclaration s.templates))) = (w, p))
    (hfinished : p.isFinished = true) :
    ∃ outcomes, p.inOrder = outcomes.map .ok ∧ Settled s old batch w outcomes := by
  obtain ⟨outcomes, hall, hthrough⟩ := (sharing_adds s old batch).through_run
    (Adds.meets_batch hs hc hfit hplain hf) workers schedule hrun hfinished
  refine ⟨outcomes, hall, settled_of_through hplain hthrough fun loc hloc => ?_⟩
  rw [← hall]
  exact Pool.accounts_run (accounts_batch hf) workers schedule hrun hfinished hloc

end

end TextProviders
