import TextProviders.Proofs.Generation.Again
import TextProviders.Proofs.Generation.Conclusion

/-!
# Declarations of a batch are independent

If no call fails, each declaration of a batch has the outcome that it has alone, in a fresh context and
over the files that were there before the batch; and the files in the end are those and the ones that
each declaration writes alone.  So neither the order of a batch nor what else is in it makes a
difference to a declaration.

For this the declarations have to be of different types, the output directory apart from the
directories that are searched, and the names in the paths of the directories have to fit.  Without the
last the order makes a difference (`order_makes_a_difference`).
-/

namespace TextProviders

open Program

/-- The world and the outcome in which a declaration ends that runs alone in a fresh context. -/
def Declaration.alone (d : Declaration) (s : Setting) (fs : FileSystem) :
    World × Except GenerationFailure Outcome :=
  (processDeclaration s.templates d).run s { files := fs }

/-- What a batch in order comes to, compared with its declarations alone. -/
structure Independent (s : Setting) (fs : FileSystem) (batch : List Declaration) (w : World)
    (r : Report) : Prop where
  length : r.outcomes.length = batch.length
  outcome : ∀ (i : Nat) (d : Declaration), batch[i]? = some d →
    ∃ (o o' : Outcome), r.outcomes[i]? = some o ∧ (d.alone s fs).2 = .ok o' ∧ o.Agrees o'
  files : ∀ loc bytes, w.files.get? loc = some (.file bytes) ↔
    fs.get? loc = some (.file bytes) ∨
      ∃ d ∈ batch, (d.alone s fs).1.files.get? loc = some (.file bytes)

theorem Outcome.Agrees.symm {o o' : Outcome} (h : o.Agrees o') : o'.Agrees o :=
  ⟨h.name.symm, h.written.symm, h.skipped.symm, h.ok.symm⟩

theorem Outcome.Agrees.trans {o o' o'' : Outcome} (h : o.Agrees o') (h' : o'.Agrees o'') :
    o.Agrees o'' :=
  ⟨h.name.trans h'.name, h.written.trans h'.written, h.skipped.trans h'.skipped, h.ok.trans h'.ok⟩

section

variable {s : Setting} {fs : FileSystem} {batch : List Declaration}

theorem exists_independent (hs : s.IsSeparate) (hfit : s.NamesFit) (hf : s.Faultless)
    (hc : fs.Closed) (hplain : ∀ d ∈ batch, d.IsPlain) (hnames : (batch.map (·.name)).Nodup) :
    ∃ w r, (generate s.templates batch).run s { files := fs } = (w, .ok r) ∧
      Independent s fs batch w r := by
  obtain ⟨w, r, hrun, hbatch⟩ := concluded_generate hs hc hfit hf.failsSoftly hplain
  refine ⟨w, r, hrun, hbatch.length, fun i d hd => ?_, fun loc bytes => ?_⟩
  · obtain ⟨o, ho⟩ := hbatch.exists_outcome hd
    obtain ⟨_, o', halone, hsingle⟩ :=
      concluded_alone hs hc hfit hf.failsSoftly hplain (List.mem_of_getElem? hd)
    refine ⟨o, o', ho, congrArg Prod.snd halone, ?_⟩
    have honce : ListedOnce [d] 0 d := listedOnce_of_nodup (by simp) rfl
    exact (hbatch.isOf_passed hf (listedOnce_of_nodup hnames hd) ho).agrees
      (hsingle.isOf_passed hf honce rfl)
  · have hsingle (d : Declaration) (hd : d ∈ batch) :
        (d.alone s fs).1.files.get? loc = some (.file bytes) ↔
          fs.get? loc = some (.file bytes) ∨ d.Writes s fs loc bytes := by
      obtain ⟨w', _, halone, hsingle⟩ := concluded_alone hs hc hfit hf.failsSoftly hplain hd
      have hfile : w'.files.get? loc = some (.file bytes) ↔ _ := hsingle.file_iff (by simp) hf
      simp only [List.mem_singleton, exists_eq_left] at hfile
      rw [Declaration.alone, halone]
      exact hfile
    rw [hbatch.file_iff hnames hf]
    constructor
    · rintro (hold | ⟨d, hd, hwrites⟩)
      · exact .inl hold
      · exact .inr ⟨d, hd, (hsingle d hd).mpr (.inr hwrites)⟩
    · rintro (hold | ⟨d, hd, hfile⟩)
      · exact .inl hold
      · exact ((hsingle d hd).mp hfile).imp_right fun hwrites => ⟨d, hd, hwrites⟩

/-- **Declarations of a batch are independent.**  Each has the outcome that it has alone, and therefore
in every other batch; and the files are those that the declarations write alone. -/
theorem declarations_are_independent (hs : s.IsSeparate) (hfit : s.NamesFit) (hf : s.Faultless)
    (hc : fs.Closed) (hplain : ∀ d ∈ batch, d.IsPlain) (hnames : (batch.map (·.name)).Nodup) :
    ∃ w r, (generate s.templates batch).run s { files := fs } = (w, .ok r) ∧
      Independent s fs batch w r ∧
      ∀ others : List Declaration, (∀ d ∈ others, d.IsPlain) → (others.map (·.name)).Nodup →
        ∃ w' r', (generate s.templates others).run s { files := fs } = (w', .ok r') ∧
          (∀ (i j : Nat) (d : Declaration), batch[i]? = some d → others[j]? = some d →
            ∃ (o o' : Outcome), r.outcomes[i]? = some o ∧ r'.outcomes[j]? = some o' ∧ o.Agrees o') ∧
          (others.Perm batch → ∀ loc bytes, w'.files.get? loc = some (.file bytes) ↔
            w.files.get? loc = some (.file bytes)) := by
  obtain ⟨w, r, hrun, hindependent⟩ := exists_independent hs hfit hf hc hplain hnames
  refine ⟨w, r, hrun, hindependent, fun others hplain' hnames' => ?_⟩
  obtain ⟨w', r', hrun', hindependent'⟩ := exists_independent hs hfit hf hc hplain' hnames'
  refine ⟨w', r', hrun', fun i j d hd hd' => ?_, fun hperm loc bytes => ?_⟩
  · obtain ⟨o, alone, ho, halone, hagrees⟩ := hindependent.outcome i d hd
    obtain ⟨o', alone', ho', halone', hagrees'⟩ := hindependent'.outcome j d hd'
    obtain rfl : alone = alone' := Except.ok.inj (halone.symm.trans halone')
    exact ⟨o, o', ho, ho', hagrees.trans hagrees'.symm⟩
  · rw [hindependent'.files, hindependent.files]
    simp only [hperm.mem_iff]

end

/-- A type without a resource, one both of whose providers are written, and one of whose providers one
is written by hand. -/
theorem declarations_are_independent_three_types :
    let s : Setting :=
      { layout := ⟨[⟨.here, ["src"]⟩], [⟨.here, ["res"]⟩], ⟨.here, ["out", "gen"]⟩⟩
        here := []
        templates := [("runtime-loading", "class $NAME"), ("embedded-literal", "class $NAME $TEXT")] }
    let fs : FileSystem := ⟨[(["src"], .directory), (["res"], .directory),
      (["src", "com"], .directory), (["src", "com", "A.txt"], .file [97]),
      (["src", "com", "CProvider.java"], .file []), (["res", "com"], .directory),
      (["res", "com", "C.txt"], .file [99])]⟩
    let batch : List Declaration := [{ name := "com.B" }, { name := "com.A" }, { name := "com.C" }]
    (s.IsSeparate ∧ s.NamesFit ∧ s.Faultless ∧ fs.Closed ∧ (∀ d ∈ batch, d.IsPlain) ∧
        (batch.map (·.name)).Nodup) ∧
      ∃ w r, (generate s.templates batch).run s { files := fs } = (w, .ok r) ∧
        r.outcomes.map (fun o => (o.written, o.skipped, o.ok)) =
          [([], [], false), (["com.AProvider", "com.AProviderJ2cl"], [], true),
            (["com.CProviderJ2cl"], ["com.CProvider"], true)] ∧
        Independent s fs batch w r := by
  intro s fs batch
  have hs : s.IsSeparate := by decide
  have hfit : s.NamesFit := by decide
  have hf : s.Faultless := ⟨fun _ => rfl, by decide⟩
  have hc : fs.Closed := FileSystem.closed_of_entries (by decide)
  have hplain : ∀ d ∈ batch, d.IsPlain := by decide
  have hnames : (batch.map (·.name)).Nodup := by decide
  obtain ⟨w, r, hrun, hindependent, -⟩ := declarations_are_independent hs hfit hf hc hplain hnames
  have houtcomes : ((generate s.templates batch).run s { files := fs }).2.toOption.map
      (fun r => r.outcomes.map fun o => (o.written, o.skipped, o.ok)) = some
        [([], [], false), (["com.AProvider", "com.AProviderJ2cl"], [], true),
          (["com.CProviderJ2cl"], ["com.CProvider"], true)] := by
    decide +kernel
  rw [hrun] at houtcomes
  exact ⟨⟨hs, hfit, hf, hc, hplain, hnames⟩, w, r, hrun, Option.some.inj houtcomes, hindependent⟩

/-- With a name that is too long in the path of the output directory, a type whose providers are written
by hand is ok alone, and fails behind a type for which the first directory on that path is made. -/
theorem order_makes_a_difference :
    let s := TooLong.setting
    let batch := [TooLong.new, TooLong.hand]
    (s.IsSeparate ∧ s.Faultless ∧ TooLong.files.Closed ∧ (∀ d ∈ batch, d.IsPlain) ∧
        (batch.map (·.name)).Nodup) ∧
      ∃ w r, (generate s.templates batch).run s { files := TooLong.files } = (w, .ok r) ∧
        ¬Independent s TooLong.files batch w r := by
  intro s batch
  have hhand : TooLong.hand.PassedOver s { files := TooLong.files } :=
    declaration_passedOver_of_stands (by decide) TooLong.stands_hand
  obtain ⟨w₁, o₁, hnew, -, hfresh, hthere⟩ :=
    TooLong.run_new (w := { files := TooLong.files }) rfl rfl
  obtain ⟨w₂, o₂, hlost, hfailed⟩ := TooLong.run_hand hfresh hthere
  have hall : (processAll s.templates batch).run s { files := TooLong.files } = (w₂, .ok [o₁, o₂]) :=
    run_processAll_cons.mpr
      ⟨w₁, o₁, [o₂], hnew, run_processAll_cons.mpr ⟨w₂, o₂, [], hlost, rfl, rfl⟩, rfl⟩
  refine ⟨⟨TooLong.isSeparate, TooLong.faultless, TooLong.closed_files, by decide, by decide⟩, _, _,
    run_generate_of_processAll hall, fun hindependent => ?_⟩
  obtain ⟨o, alone, ho, halone, hagrees⟩ := hindependent.outcome 1 TooLong.hand rfl
  obtain rfl : o₂ = o := Option.some.inj ho
  rw [Declaration.alone, hhand] at halone
  have hok := hagrees.ok
  rw [← Except.ok.inj halone, hfailed] at hok
  cases hok

end TextProviders
