import TextProviders.Proofs.Generation.Faults
import TextProviders.Proofs.Generation.Lost
import TextProviders.Proofs.Generation.Records

/-!
# Running again

What a run lists as written or skipped is there for good.  Whenever the turn of a target of that name
comes later, in the same run or in another one over the same directories, it is passed over: it is
looked up and noted as there, and nothing is resolved, made or written for it.  A declaration that
was ok is passed over as a whole.

This holds whatever failed in the first run, whatever names the declarations have, how often they are
repeated, and whatever the second run's registry holds.  It needs one thing of the layout: that the
names in the paths of the output directory and of the source roots fit
(`Setting.LooksWhereNamesFit`).  Without that a provider that was found can be lost, as in
`found_provider_is_lost`: a directory made in between lets a look-up go further, to a name that is
too long, and it fails there before it comes to the root that has the source.

Main statement: `listed_providers_are_passed_over`.
-/

namespace TextProviders

open Program

/-! ## Turns -/

/-- The world in which the turn of a declaration comes, the one at a place in a batch. -/
def World.before (s : Setting) (w : World) (batch : List Declaration) (i : Nat) : World :=
  ((processAll s.templates (batch.take i)).run s w).1

/-- The world in which the turn of a target of that declaration comes, the one at a place among
them. -/
def World.beforeTarget (s : Setting) (w : World) (batch : List Declaration) (i : Nat)
    (d : Declaration) (k : Nat) : World :=
  ((processTargets s.templates (d.targets.take k) ⟨d.name, [], [], none⟩).run s
    (w.before s batch i)).1

/-- A target whose turn comes in a world is passed over: but for a note nothing is done, and it is
listed as skipped. -/
def Target.PassedOver (t : Target) (s : Setting) (w : World) : Prop :=
  ∀ rest o, (processTargets s.templates (t :: rest) o).run s w =
    (processTargets s.templates rest { o with skipped := o.skipped ++ [t.name] }).run s
      (w.note [skippedNote t.name])

/-- A declaration whose turn comes in a world is passed over: but for notes nothing is done, and every
target is listed as skipped. -/
def Declaration.PassedOver (d : Declaration) (s : Setting) (w : World) : Prop :=
  (processDeclaration s.templates d).run s w =
    (w.note (d.targets.map fun t => skippedNote t.name), .ok d.skippedOutcome)

/-- When the turn of a declaration of a batch comes, its targets with certain names are passed
over. -/
def World.PassesOver (s : Setting) (w : World) (batch : List Declaration) (i : Nat)
    (d : Declaration) (listed : String → Prop) : Prop :=
  ∀ k (t : Target), d.targets[k]? = some t → listed t.name → t.PassedOver s (w.beforeTarget s batch i d k)

section

variable {s : Setting} {w : World} {batch : List Declaration}

theorem passedOver_of_stands {t : Target} (h : s.Stands w.files t.name) : t.PassedOver s w :=
  fun _ _ => run_processTargets_of_true (lookup_of_stands h)

theorem note_note (w : World) (first second : List Note) :
    (w.note first).note second = w.note (first ++ second) := by
  simp [World.note]

/-- Targets that all stand are passed over one after the other. -/
theorem run_processTargets_of_stand {ts : List Target} (h : ∀ t ∈ ts, s.Stands w.files t.name)
    (o : Outcome) :
    (processTargets s.templates ts o).run s w =
      (w.note (ts.map fun t => skippedNote t.name),
        ({ o with skipped := o.skipped ++ ts.map Target.name }, none)) := by
  induction ts generalizing w o with
  | nil => simp [processTargets, World.note, Pure.pure, Program.run]
  | cons t rest ih =>
      simp only [List.mem_cons, forall_eq_or_imp] at h
      have hrest : ∀ t' ∈ rest, s.Stands (w.note [skippedNote t.name]).files t'.name := h.2
      rw [passedOver_of_stands h.1, ih hrest, note_note]
      simp

theorem declaration_passedOver_of_stands {d : Declaration} (hvalid : d.validate = .ok ())
    (h : ∀ t ∈ d.targets, s.Stands w.files t.name) : d.PassedOver s w := by
  rw [Declaration.PassedOver, run_processDeclaration_of_valid hvalid, run_processTargets_of_stand h]
  rfl

theorem keeps_before (s : Setting) (w : World) (batch : List Declaration) (i : Nat) :
    w.files.Keeps (w.before s batch i).files :=
  ((spares_processAll s w.files s.templates (batch.take i)).run (.refl _)).1

theorem keeps_beforeTarget (s : Setting) (w : World) (batch : List Declaration) (i : Nat)
    (d : Declaration) (k : Nat) :
    (w.before s batch i).files.Keeps (w.beforeTarget s batch i d k).files :=
  ((spares_processTargets s (w.before s batch i).files s.templates _ _).run (.refl _)).1

/-- Names that stand when the turn of a declaration comes are passed over. -/
theorem passesOver_of_stands (hfit : s.LooksWhereNamesFit) {i : Nat} {d : Declaration}
    {listed : String → Prop}
    (h : ∀ name, listed name → s.Stands (w.before s batch i).files name) :
    w.PassesOver s batch i d listed := by
  intro k t _ hlisted
  exact passedOver_of_stands ((h _ hlisted).of_keeps hfit (keeps_beforeTarget s w batch i d k))

/-- The names of the targets depend on the name of the declaration only. -/
theorem exists_target_of_name_eq {d d' : Declaration} (hname : d'.name = d.name) {t' : Target}
    (ht' : t' ∈ d'.targets) : ∃ t ∈ d.targets, t.name = t'.name := by
  simp only [Declaration.targets, List.mem_cons, List.not_mem_nil, or_false] at ht' ⊢
  rcases ht' with rfl | rfl
  · exact ⟨⟨.runtimeLoading, d⟩, .inl rfl, by simp [Target.name, hname]⟩
  · exact ⟨⟨.embeddedLiteral, d⟩, .inr rfl, by simp [Target.name, hname]⟩

end

/-! ## What a run listed -/

section

variable {s : Setting} {w w₁ : World} {batch : List Declaration} {outcomes : List Outcome}

/-- The first declarations of a run have the first outcomes. -/
theorem run_processAll_take (h : (processAll s.templates batch).run s w = (w₁, .ok outcomes))
    (j : Nat) :
    (processAll s.templates (batch.take j)).run s w = (w.before s batch j, .ok (outcomes.take j)) := by
  rcases Nat.lt_or_ge j batch.length with hlt | hge
  · obtain ⟨w₂, _, _, hbefore, -⟩ :=
      run_processAll_getElem? h (List.getElem?_eq_getElem hlt)
    unfold World.before
    rw [hbefore]
  · have hlength : outcomes.length = batch.length := length_of_run_processAll h
    unfold World.before
    rw [List.take_of_length_le hge, List.take_of_length_le (hlength ▸ hge), h]

/-- The declaration of an outcome. -/
theorem exists_declaration (h : (processAll s.templates batch).run s w = (w₁, .ok outcomes))
    {i : Nat} {o : Outcome} (ho : outcomes[i]? = some o) : ∃ d, batch[i]? = some d := by
  have hlt : i < batch.length := by
    rw [← length_of_run_processAll h]
    exact (List.getElem?_eq_some_iff.mp ho).1
  exact ⟨_, List.getElem?_eq_getElem hlt⟩

/-- What one outcome of a run lists stands from the turn of the next declaration on. -/
theorem stands_before (hfit : s.LooksWhereNamesFit) (hw : w.RecordsStand s)
    (h : (processAll s.templates batch).run s w = (w₁, .ok outcomes)) {i j : Nat} (hij : i < j)
    {o : Outcome} (ho : outcomes[i]? = some o) :
    ∀ name, o.Lists name → s.Stands (w.before s batch j).files name := by
  intro name hname
  obtain ⟨d, hd⟩ := exists_declaration h ho
  have hfirst := run_processAll_take h j
  have hd' : (batch.take j)[i]? = some d := by rwa [List.getElem?_take_of_lt hij]
  obtain ⟨w₂, w₃, o', hbefore, hat, hafter, ho'⟩ := run_processAll_getElem? hfirst hd'
  rw [List.getElem?_take_of_lt hij, ho] at ho'
  obtain rfl := Option.some.inj ho'
  have hw₂ : w₂.RecordsStand s := recordsStand_processAll hfit hw hbefore
  have hkeeps := ((spares_processAll s w₃.files s.templates
    ((batch.take j).drop (i + 1))).run (.refl _)).1
  rw [hafter] at hkeeps
  exact ((listed_stand hfit hw₂ hat).2.1 name hname).of_keeps hfit hkeeps

/-- The outcome of a declaration that was ok lists all its targets. -/
theorem lists_of_succeedsAt (hfit : s.LooksWhereNamesFit) (hw : w.RecordsStand s)
    (h : (processAll s.templates batch).run s w = (w₁, .ok outcomes)) {i : Nat} {d : Declaration}
    (hd : batch[i]? = some d) {o : Outcome} (ho : outcomes[i]? = some o) (hgood : o.ok = true) :
    d.validate = .ok () ∧ ∀ t ∈ d.targets, o.Lists t.name := by
  obtain ⟨w₂, _, o', hbefore, hat, -, ho'⟩ := run_processAll_getElem? h hd
  obtain rfl := Option.some.inj (ho.symm.trans ho')
  exact (listed_stand hfit (recordsStand_processAll hfit hw hbefore) hat).2.2 hgood

/-- A name that stands before a run over targets is not among those that it adds to the written
ones. -/
theorem mem_written_of_stands (hfit : s.LooksWhereNamesFit) {store : Template.Store}
    {ts : List Target} {o o' : Outcome} {failure? : Option GenerationFailure}
    (h : (processTargets store ts o).run s w = (w₁, (o', failure?))) {name : String}
    (hstands : s.Stands w.files name) (hname : name ∈ o'.written) : name ∈ o.written := by
  replace h := run_processTargets_iff.mp h
  induction h with
  | nil => exact hname
  | unseen => exact hname
  | failed => exact hname
  | skipped _ _ ih => exact ih hstands hname
  | @written t rest o o' w w₂ w' failure? hlookup hgenerated _ ih =>
      have hother : name ≠ t.name := by
        rintro rfl
        rw [lookup_of_stands hstands] at hlookup
        cases hlookup
      have hkeeps := ((spares_generateTarget s w.files store t).run (w := w) (.refl _)).1
      rw [hgenerated] at hkeeps
      have hbefore := ih (hstands.of_keeps hfit hkeeps) hname
      simpa [hother] using hbefore

/-- A name that stood before a run is not written by it. -/
theorem not_written_of_stands (hfit : s.LooksWhereNamesFit)
    (h : (processAll s.templates batch).run s w = (w₁, .ok outcomes)) {name : String}
    (hstands : s.Stands w.files name) : ∀ o ∈ outcomes, name ∉ o.written := by
  intro o ho hname
  obtain ⟨i, hi⟩ := List.getElem?_of_mem ho
  obtain ⟨d, hd⟩ := exists_declaration h hi
  obtain ⟨w₂, w₃, o', hbefore, hat, -, ho'⟩ := run_processAll_getElem? h hd
  obtain rfl := Option.some.inj (hi.symm.trans ho')
  have hkeeps := ((spares_processAll s w.files s.templates (batch.take i)).run (w := w) (.refl _)).1
  rw [hbefore] at hkeeps
  obtain ⟨-, _, _, _, hrun, hnew, -⟩ := run_processDeclaration_written hat hname
  have hold := mem_written_of_stands hfit hrun (hstands.of_keeps hfit hkeeps) hnew
  exact List.not_mem_nil hold

/-- What the report of a whole run lists stands when it is over. -/
theorem stands_of_report (hfit : s.LooksWhereNamesFit) (hw : w.RecordsStand s)
    (h : (processAll s.templates batch).run s w = (w₁, .ok outcomes)) {o : Outcome}
    (ho : o ∈ outcomes) {name : String} (hname : o.Lists name) : s.Stands w₁.files name := by
  obtain ⟨i, hi⟩ := List.getElem?_of_mem ho
  obtain ⟨d, hd⟩ := exists_declaration h hi
  have hlt : i < batch.length := (List.getElem?_eq_some_iff.mp hd).1
  have hstands := stands_before hfit hw h hlt hi name hname
  unfold World.before at hstands
  rwa [List.take_length, h] at hstands

/-- A declaration that is passed over when its turn comes has all its targets skipped. -/
theorem outcome_of_passedOver (h : (processAll s.templates batch).run s w = (w₁, .ok outcomes))
    {i : Nat} {d : Declaration} (hd : batch[i]? = some d)
    (hpassed : d.PassedOver s (w.before s batch i)) : outcomes[i]? = some d.skippedOutcome := by
  obtain ⟨w₂, _, o, hbefore, hat, -, ho⟩ := run_processAll_getElem? h hd
  have hw₂ : w.before s batch i = w₂ := by
    unfold World.before
    rw [hbefore]
  unfold Declaration.PassedOver at hpassed
  rw [hw₂, hat] at hpassed
  rw [ho, Except.ok.inj (Prod.mk.inj hpassed).2]

/-- Directories alone decide what stands. -/
theorem stands_congr {s' : Setting} (hlayout : s'.layout = s.layout) (hhere : s'.here = s.here)
    {fs : FileSystem} {name : String} : s'.Stands fs name ↔ s.Stands fs name := by
  rw [stands_iff, stands_iff, hlayout, hhere]

end

/-! ## The second run -/

/-- A report lists a provider. -/
def Report.Lists (r : Report) (name : String) : Prop :=
  name ∈ r.written ∨ name ∈ r.skipped

theorem Report.lists_iff {r : Report} {name : String} :
    r.Lists name ↔ ∃ o ∈ r.outcomes, o.Lists name := by
  simp [Lists, written, skipped, Outcome.Lists, and_or_left, exists_or]

/-- The declaration at a place in the batch of a report was ok. -/
def Report.SucceedsAt (r : Report) (batch : List Declaration) (i : Nat) (d : Declaration) : Prop :=
  batch[i]? = some d ∧ ∃ o, r.outcomes[i]? = some o ∧ o.ok = true

/-- What running the batch of a report again comes to. -/
structure RunsAgain (s : Setting) (w : World) (batch : List Declaration) (r : Report) : Prop where
  /-- What the report lists is passed over at every turn, -/
  target : ∀ (i : Nat) (d : Declaration), batch[i]? = some d → w.PassesOver s batch i d r.Lists
  /-- and so is every declaration that was ok. -/
  declaration : ∀ i d, r.SucceedsAt batch i d → d.PassedOver s (w.before s batch i)
  /-- If this run returns a report too, it says so. -/
  report : ∀ w' (r' : Report), (generate s.templates batch).run s w = (w', .ok r') →
    (∀ name, r.Lists name → name ∉ r'.written) ∧
      ∀ i d, r.SucceedsAt batch i d → r'.outcomes[i]? = some d.skippedOutcome
  /-- It returns one unless a template is missing or a call fails in a way that ends the batch. -/
  returns : s.FailsSoftly → ∃ w' r', (generate s.templates batch).run s w = (w', .ok r')
  /-- Each listed provider has a source, and that keeps its bytes. -/
  bytes : ∀ name, r.Lists name → ∃ root ∈ s.layout.output :: s.layout.sources, ∃ bytes,
    w.files.fileAt? s.here (Layout.sourceFile root name) = some bytes ∧
      ((generate s.templates batch).run s w).1.files.fileAt? s.here (Layout.sourceFile root name) =
        some bytes

section

variable {s s' : Setting} {w w' w₁ : World} {batch : List Declaration} {r : Report}

theorem runsAgain_of_stand (hfit : s.LooksWhereNamesFit)
    (hstands : ∀ name, r.Lists name → s.Stands w.files name)
    (hok : ∀ i d, r.SucceedsAt batch i d →
      d.validate = .ok () ∧ ∀ t ∈ d.targets, r.Lists t.name) : RunsAgain s w batch r := by
  have hbefore (i : Nat) : ∀ name, r.Lists name → s.Stands (w.before s batch i).files name :=
    fun name hname => (hstands name hname).of_keeps hfit (keeps_before s w batch i)
  have hpassed : ∀ i d, r.SucceedsAt batch i d → d.PassedOver s (w.before s batch i) := by
    intro i d hgood
    obtain ⟨hvalid, hall⟩ := hok i d hgood
    exact declaration_passedOver_of_stands hvalid fun t ht => hbefore i _ (hall t ht)
  refine ⟨fun i d _ => passesOver_of_stands hfit (hbefore i), hpassed, ?_, ?_, ?_⟩
  · intro w' r' hrun
    obtain ⟨w₂, hall, -⟩ := run_generate_eq_ok hrun
    refine ⟨fun name hname hwritten => ?_, fun i d hgood => ?_⟩
    · obtain ⟨o, ho, hnew⟩ := List.mem_flatMap.mp hwritten
      exact not_written_of_stands hfit hall (hstands name hname) o ho hnew
    · exact outcome_of_passedOver hall hgood.1 (hpassed i d hgood)
  · intro hsoft
    exact exists_report hsoft w batch
  · intro name hname
    obtain ⟨root, hroot, bytes, hfile⟩ :=
      exists_fileAt?_of_sourceUnder (stands_iff.mp (hstands name hname))
    have hkeeps := ((spares_generate s w.files s.templates batch).run (w := w) (.refl _)).1
    exact ⟨root, hroot, bytes, hfile, hkeeps.fileAt? hfile⟩

/-- **What a run lists is passed over from then on.**

Let a run with an empty registry return a report, whatever failed in it.  Later in the same run the
targets that an earlier outcome lists are passed over, and a declaration of the same name as an
earlier one that was ok is passed over as a whole if it is accepted.  And so it is in every run of the
batch over the files that were left, with any registry, templates and failures. -/
theorem listed_providers_are_passed_over (hfit : s.LooksWhereNamesFit) (hfresh : w.written = [])
    (h : (generate s.templates batch).run s w = (w₁, .ok r)) :
    (∀ (i j : Nat) (d' : Declaration), i < j → batch[j]? = some d' →
      (∀ o, r.outcomes[i]? = some o → w.PassesOver s batch j d' o.Lists) ∧
        ∀ d, r.SucceedsAt batch i d → d'.name = d.name → d'.validate = .ok () →
          d'.PassedOver s (w.before s batch j) ∧ r.outcomes[j]? = some d'.skippedOutcome) ∧
      ∀ (s' : Setting) (w' : World), s'.layout = s.layout → s'.here = s.here →
        w'.files = w₁.files → RunsAgain s' w' batch r := by
  have hrecords : w.RecordsStand s := by
    unfold World.RecordsStand
    rw [hfresh]
    exact fun _ hname => (List.not_mem_nil hname).elim
  obtain ⟨w₂, hall, rfl⟩ := run_generate_eq_ok h
  constructor
  · intro i j d' hij hd'
    constructor
    · intro o ho
      exact passesOver_of_stands hfit (stands_before hfit hrecords hall hij ho)
    · rintro d ⟨hd, o, ho, hgood⟩ hname hvalid
      have hpassed : d'.PassedOver s (w.before s batch j) := by
        refine declaration_passedOver_of_stands hvalid fun t' ht' => ?_
        obtain ⟨t, ht, heq⟩ := exists_target_of_name_eq hname ht'
        have hlisted := (lists_of_succeedsAt hfit hrecords hall hd ho hgood).2 t ht
        exact stands_before hfit hrecords hall hij ho _ (heq ▸ hlisted)
      exact ⟨hpassed, outcome_of_passedOver hall hd' hpassed⟩
  · intro s' w' hlayout hhere hfiles
    have hfit' : s'.LooksWhereNamesFit := by
      unfold Setting.LooksWhereNamesFit
      rwa [hlayout]
    refine runsAgain_of_stand hfit' (fun name hname => ?_) ?_
    · obtain ⟨o, ho, hlists⟩ := Report.lists_iff.mp hname
      rw [stands_congr hlayout hhere, hfiles]
      exact stands_of_report hfit hrecords hall ho hlists
    · rintro i d ⟨hd, o, ho, hgood⟩
      obtain ⟨hvalid, hlisted⟩ := lists_of_succeedsAt hfit hrecords hall hd ho hgood
      exact ⟨hvalid, fun t ht =>
        Report.lists_iff.mpr ⟨o, List.mem_of_getElem? ho, hlisted t ht⟩⟩

end

/-- A disk that is full while a provider is written, a type that is declared again, and a second run
without failures. -/
theorem listed_providers_are_passed_over_full_disk :
    let s : Setting :=
      { layout := ⟨[⟨.here, ["src"]⟩], [], ⟨.here, ["out"]⟩⟩
        here := []
        templates := [("runtime-loading", "class $NAME"), ("embedded-literal", "class $NAME $TEXT")]
        faults := fun turn =>
          if turn = 5 then some ⟨.write, .raised .system "no space left", 2⟩ else none }
    let w : World := { files := TooLong.files }
    let batch := [TooLong.new, TooLong.hand, TooLong.new]
    (s.LooksWhereNamesFit ∧ w.written = []) ∧
      ∃ w₁ r, (generate s.templates batch).run s w = (w₁, .ok r) ∧
        r.outcomes.map (fun o => (o.written, o.ok)) =
          [(["com.acme.NewProvider"], false), ([], true), (["com.acme.NewProviderJ2cl"], true)] ∧
        (∀ o, r.outcomes[0]? = some o → w.PassesOver s batch 2 TooLong.new o.Lists) ∧
        RunsAgain { s with faults := fun _ => none } { files := w₁.files } batch r := by
  intro s w batch
  have hfit : s.LooksWhereNamesFit := by decide +kernel
  have hsoft : s.FailsSoftly := by
    refine ⟨fun turn f hf hpoint => ?_, fun turn f hf _ => ?_, fun strategy => ?_⟩
    · simp only [s, Option.ite_none_right_eq_some, Option.some.injEq] at hf
      simp [← hf.2] at hpoint
    · simp only [s, Option.ite_none_right_eq_some, Option.some.injEq] at hf
      simp [← hf.2, GenerationFailure.kind, FailureKind.isSystem]
    · cases strategy <;> exact ⟨_, rfl⟩
  obtain ⟨w₁, r, hrun⟩ := exists_report hsoft w batch
  have houtcomes : ((generate s.templates batch).run s w).2.toOption.map
      (fun r => r.outcomes.map fun o => (o.written, o.ok)) = some
        [(["com.acme.NewProvider"], false), ([], true), (["com.acme.NewProviderJ2cl"], true)] := by
    decide +kernel
  rw [hrun] at houtcomes
  obtain ⟨hlater, hagain⟩ := listed_providers_are_passed_over hfit rfl hrun
  exact ⟨⟨hfit, rfl⟩, w₁, r, hrun, Option.some.inj houtcomes,
    (hlater 0 2 TooLong.new (by decide) rfl).1, hagain _ _ rfl rfl rfl⟩

/-- Behind a name that is too long, what is found in a first run is not found in a second. -/
theorem TooLong.run_twice :
    ∃ w₁ o₁ w₂ r₂ o₂, (generate setting.templates [hand, new]).run setting { files } =
        (w₁, .ok ⟨[hand.skippedOutcome, o₁]⟩) ∧
      (generate setting.templates [hand, new]).run setting { files := w₁.files } = (w₂, .ok r₂) ∧
      r₂.outcomes[0]? = some o₂ ∧ o₂.ok = false := by
  have hhand : hand.PassedOver setting { files } :=
    declaration_passedOver_of_stands (by decide) stands_hand
  obtain ⟨w, o, hnew, -, -, hthere⟩ := run_new
    (w := World.note { files } (hand.targets.map fun t => skippedNote t.name)) rfl rfl
  have hfirst : (processAll setting.templates [hand, new]).run setting { files } =
      (w, .ok [hand.skippedOutcome, o]) :=
    run_processAll_cons.mpr ⟨_, _, [o], hhand, run_processAll_cons.mpr ⟨w, o, [], hnew, rfl, rfl⟩, rfl⟩
  obtain ⟨w₂, r₂, hsecond⟩ := exists_report faultless.failsSoftly { files := w.files } [hand, new]
  obtain ⟨_, hall, -⟩ := run_generate_eq_ok hsecond
  obtain ⟨_, o₂, _, hagain, -, hr₂⟩ := run_processAll_cons.mp hall
  obtain ⟨_, lost, hlost, hfailed⟩ := run_hand (w := { files := w.files }) rfl hthere
  obtain ⟨-, ho₂⟩ := Prod.mk.inj (hagain.symm.trans hlost)
  obtain rfl := Except.ok.inj ho₂
  exact ⟨_, o, w₂, r₂, o₂, run_generate_of_processAll hfirst, hsecond, by rw [hr₂]; rfl, hfailed⟩

/-- With a name that is too long in the path of the output directory, a type whose providers are written
by hand is ok in the first run, as they are found, and fails in the second. -/
theorem found_provider_is_lost :
    let s := TooLong.setting
    let batch := [TooLong.hand, TooLong.new]
    ∃ w₁ r, (generate s.templates batch).run s { files := TooLong.files } = (w₁, .ok r) ∧
      r.SucceedsAt batch 0 TooLong.hand ∧
      (∃ w₂ r₂, (generate s.templates batch).run s { files := w₁.files } = (w₂, .ok r₂) ∧
        ∃ o, r₂.outcomes[0]? = some o ∧ o.ok = false) ∧
      ¬RunsAgain s { files := w₁.files } batch r := by
  intro s batch
  obtain ⟨w₁, o, w₂, r₂, o₂, hfirst, hsecond, hat, hfailed⟩ := TooLong.run_twice
  have hgood : Report.SucceedsAt ⟨[TooLong.hand.skippedOutcome, o]⟩ batch 0 TooLong.hand :=
    ⟨rfl, _, rfl, rfl⟩
  refine ⟨w₁, _, hfirst, hgood, ⟨w₂, r₂, hsecond, o₂, hat, hfailed⟩, fun hruns => ?_⟩
  have hskipped := (hruns.report w₂ r₂ hsecond).2 0 TooLong.hand hgood
  rw [hat] at hskipped
  rw [Option.some.inj hskipped] at hfailed
  cases hfailed

end TextProviders
