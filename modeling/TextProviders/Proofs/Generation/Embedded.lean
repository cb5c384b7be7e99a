import TextProviders.Proofs.Generation.Batch
import TextProviders.Proofs.Generation.Resource
import TextProviders.Proofs.Generation.Standing
import TextProviders.Proofs.Generation.WriteSource
import TextProviders.Proofs.Literal.InSource
import TextProviders.Proofs.Template.Providers

/-!
# The text that a provider carries

From the resource to the text that a compiler reads off the generated source, a text is searched for,
decoded, collapsed if the declaration asks for it, quoted, put in the place of its placeholder, encoded
and written.  The main statement, `embedded_text_read_back`, goes the whole way: for every declaration
of a batch whose provider was written, with any names and any text, the file holds the template with
its placeholders filled in, and the literal in the place of the text is read as the text again.

It assembles what the other modules show of each step: `Resolver.search_eq_ok_iff` of the search,
`render_standardStore` of the template, `fileAt?_of_writeSource` of the writing,
`Literal.readsAs_quoteChars` of the literal, and `spares_processAll` of everything that happens after.
-/

namespace TextProviders

open Program Template

/-! ## Generating one target -/

theorem run_generateTarget_eq_ok {s : Setting} {store : Template.Store} {w w' : World} {t : Target}
    (h : (generateTarget store t).run s w = (w', .ok ())) :
    ∃ ext text source w₁, t.declaration.binding.extension? = some ext ∧
      (Resolver.resolve w.files s.here s.layout
        ⟨t.declaration.package, t.declaration.simpleName, ext⟩).2 = .ok text ∧
      store.render t.strategy.templateId
        (t.bindings (t.declaration.simpleName ++ "." ++ ext) text) = .ok source ∧
      (writeSource t.name source).run s w₁ = (w', .ok ()) := by
  unfold generateTarget at h
  dsimp only at h
  cases hext : t.declaration.binding.extension? with
  | none =>
      rw [hext] at h
      cases (Prod.mk.inj h).2
  | some ext =>
      rw [hext] at h
      generalize hresolved : w.resolve s ⟨t.declaration.package, t.declaration.simpleName, ext⟩ =
        resolved
      obtain ⟨w₁, answer⟩ := resolved
      have hstep : w.perform s
          (.resolve ⟨t.declaration.package, t.declaration.simpleName, ext⟩) = (w₁, answer) :=
        hresolved
      dsimp only at h
      rw [run_step hstep] at h
      cases answer with
      | error e => cases (Prod.mk.inj h).2
      | ok text =>
          dsimp only at h
          cases hsource : store.render t.strategy.templateId
              (t.bindings (t.declaration.simpleName ++ "." ++ ext) text) with
          | error missing =>
              rw [ResourceName.fileName, hsource] at h
              cases (Prod.mk.inj h).2
          | ok source =>
              rw [ResourceName.fileName, hsource] at h
              exact ⟨ext, text, source, w₁, rfl, (World.resolve_eq_ok hresolved).1, hsource, h⟩

theorem name_runtimeLoading_ne (d : Declaration) :
    (Target.mk .runtimeLoading d).name ≠ (Target.mk .embeddedLiteral d).name := by
  intro h
  have hlength := congrArg String.length h
  rw [Target.name, Target.name, String.length_append, String.length_append] at hlength
  have hsuffix : Strategy.runtimeLoading.suffix.length = Strategy.embeddedLiteral.suffix.length :=
    Nat.add_left_cancel hlength
  exact absurd hsuffix (by decide)

/-! ## A source that carries a text -/

/-- A source is the template of the provider that carries its text, cut into pieces that are filled
in from bindings, and the literal in the one place of the text is read as a given text: alone, and
where it stands in the source. -/
structure Template.Carries (bindings : List Binding) (source text : List Char) : Prop where
  whole : (pieces embeddedLiteral.toList).flatMap Piece.source = embeddedLiteral.toList
  fits : Fits bindings embeddedLiteral.toList
  filled : source = (pieces embeddedLiteral.toList).flatMap (Piece.filled bindings)
  place : ∃ before literal after,
    pieces embeddedLiteral.toList = before ++ .hole textToken :: after ∧
    .hole textToken ∉ before ∧ .hole textToken ∉ after ∧
    source = before.flatMap (Piece.filled bindings) ++ literal ++
      after.flatMap (Piece.filled bindings) ∧
    Literal.value? literal = some text ∧
    Literal.ReadsAs (before.flatMap (Piece.filled bindings)) literal
      (after.flatMap (Piece.filled bindings)) text

theorem carries_filled (d : Declaration) (resourceName text : String) :
    let t : Target := ⟨.embeddedLiteral, d⟩
    Carries (t.bindings resourceName text) (t.filled resourceName text)
      (t.embeddedText text).toList := by
  intro t
  let fill := fun ps : List Piece => ps.flatMap (Piece.filled (t.bindings resourceName text))
  have hfront : fill (beforeText ++ [.keep ' ']) = fill beforeText ++ [' '] :=
    List.flatMap_append
  have hbehind : ∀ ps, fill (.keep ';' :: ps) = ';' :: fill ps := fun _ => rfl
  refine ⟨flatMap_source_pieces _, fits_bindings t resourceName text, rfl, ?_⟩
  refine ⟨beforeText ++ [.keep ' '], Literal.quoteChars (t.embeddedText text).toList,
    .keep ';' :: afterText, ?_, ?_, ?_, ?_, Literal.value?_quoteChars _, ?_⟩
  · rw [pieces_embeddedLiteral.1]
    simp only [List.append_assoc, List.cons_append, List.nil_append]
  · intro hmem
    rcases List.mem_append.mp hmem with hmem | hmem
    · exact pieces_embeddedLiteral.2.1 hmem
    · cases List.mem_singleton.mp hmem
  · intro hmem
    rcases List.mem_cons.mp hmem with heq | hmem
    · cases heq
    · exact pieces_embeddedLiteral.2.2 hmem
  · show t.filled resourceName text = fill _ ++ _ ++ fill _
    rw [hfront, hbehind]
    exact filled_embeddedLiteral d resourceName text
  · show Literal.ReadsAs (fill _) _ (fill _) _
    rw [hfront, hbehind]
    exact Literal.readsAs_quoteChars _ _ _

/-! ## The whole way -/

/-- The world in which the turn comes of the provider that carries the text of a declaration, the one
at a place in a batch: the declarations before it are through, and so is its other provider. -/
def World.beforeEmbedded (s : Setting) (w : World) (batch : List Declaration) (i : Nat)
    (d : Declaration) : World :=
  let w₁ := ((processAll s.templates (batch.take i)).run s w).1
  ((processTargets s.templates [⟨.runtimeLoading, d⟩] ⟨d.name, [], [], none⟩).run s w₁).1

/-- What becomes of the provider that carries the text of a declaration, the one at a place in a
batch, if it is written. -/
theorem generated_of_written {s : Setting} {w w' : World} {workers : Int}
    {batch : List Declaration} {r : Report} {i : Nat} {d : Declaration} {o : Outcome}
    (hreport : generateWith s workers w batch = (w', .ok r)) (hd : batch[i]? = some d)
    (ho : r.outcomes[i]? = some o)
    (hwritten : (Target.mk .embeddedLiteral d).name ∈ o.written) :
    d.validate = .ok () ∧
      ∃ w₁, (generateTarget s.templates ⟨.embeddedLiteral, d⟩).run s (w.beforeEmbedded s batch i d) =
          (w₁, .ok ()) ∧ w₁.files.Keeps w'.files := by
  obtain ⟨w₂, hall, rfl⟩ := generateWith_eq_ok hreport
  obtain ⟨w₃, w₄, o', hbefore, hat, hafter, ho'⟩ := run_processAll_getElem? hall hd
  obtain rfl := Option.some.inj (ho.symm.trans ho')
  obtain ⟨hvalid, w₅, o₅, failure?, htargets, hname, hfiles⟩ :=
    run_processDeclaration_written hat hwritten
  obtain ⟨before, t, behind, w₆, o₆, w₇, hsplit, htname, hfirst, hgenerated, hrest⟩ :=
    run_processTargets_written htargets hname List.not_mem_nil
  refine ⟨hvalid, ?_⟩
  -- The target of that name is the second of two.
  have hparts : before = [⟨.runtimeLoading, d⟩] ∧ t = ⟨.embeddedLiteral, d⟩ := by
    have hsplit : [⟨.runtimeLoading, d⟩, ⟨.embeddedLiteral, d⟩] = before ++ t :: behind := hsplit
    match before with
    | [] =>
        obtain ⟨rfl, -⟩ := List.cons.inj hsplit
        exact absurd htname (name_runtimeLoading_ne d)
    | [_] =>
        obtain ⟨rfl, htail⟩ := List.cons.inj hsplit
        exact ⟨rfl, (List.cons.inj htail).1.symm⟩
    | _ :: _ :: before =>
        have hlength := congrArg List.length hsplit
        simp only [List.length_append, List.length_cons, List.length_nil] at hlength
        omega
  obtain ⟨rfl, rfl⟩ := hparts
  have hturn : w.beforeEmbedded s batch i d = w₆ := by
    unfold World.beforeEmbedded
    dsimp only
    rw [hbefore, hfirst]
  have hlater := ((spares_processTargets s w₇.files s.templates behind
    { o₆ with written := o₆.written ++ [(Target.mk .embeddedLiteral d).name] }).run
      (FileSystem.Keeps.refl _)).1
  rw [hrest] at hlater
  have hbatch := ((spares_processAll s w₄.files s.templates (batch.drop (i + 1))).run
    (FileSystem.Keeps.refl _)).1
  rw [hafter] at hbatch
  refine ⟨w₇, hturn ▸ hgenerated, ?_⟩
  exact (hfiles ▸ hlater : w₇.files.Keeps w₄.files).trans hbatch

/-- **The text that a provider carries is read as the text of its resource.**  If a report lists the
provider as written, then the text of the resource was found when its turn came, and the file stands
with a source that carries this text, collapsed if the declaration asks for it. -/
theorem embedded_text_read_back {s : Setting} (hstandard : s.templates = standardStore)
    {w w' : World} {workers : Int} {batch : List Declaration} {r : Report}
    (hreport : generateWith s workers w batch = (w', .ok r)) {i : Nat} {d : Declaration}
    (hd : batch[i]? = some d) {o : Outcome} (ho : r.outcomes[i]? = some o)
    (hwritten : (Target.mk .embeddedLiteral d).name ∈ o.written) :
    d.validate = .ok () ∧
      ∃ ext text source, d.binding.extension? = some ext ∧
        let resource : ResourceName := ⟨d.package, d.simpleName, ext⟩
        let t : Target := ⟨.embeddedLiteral, d⟩
        (∀ found, Resolver.FindsUnder (w.beforeEmbedded s batch i d).files s.here resource
          s.layout.searchRoots found ↔ found = text.toList) ∧
        w'.files.fileAt? s.here (s.pathFor t.name) = some (Text.Utf8.encode source) ∧
        Carries (t.bindings resource.fileName text) source
          (if d.binding.normalizeSpace then Text.collapse text.toList else text.toList) := by
  obtain ⟨hvalid, w₁, hgenerated, hkeeps⟩ := generated_of_written hreport hd ho hwritten
  obtain ⟨ext, text, source, w₂, hext, hresolved, hrendered, hwrite⟩ :=
    run_generateTarget_eq_ok hgenerated
  rw [hstandard, render_standardStore] at hrendered
  refine ⟨hvalid, ext, text, source.toList, hext, ?_, hkeeps.fileAt? (fileAt?_of_writeSource hwrite),
    ?_⟩
  · intro found
    constructor
    · intro hfound
      rw [← String.toList_ofList (l := found)] at hfound
      have hagain := Resolver.search_eq_ok_iff.mpr hfound
      rw [← String.toList_ofList (l := found), Except.ok.inj (hagain.symm.trans hresolved)]
    · rintro rfl
      exact Resolver.search_eq_ok_iff.mp hresolved
  · rw [← Except.ok.inj hrendered, String.toList_ofList]
    have hcarries := carries_filled d (ResourceName.mk d.package d.simpleName ext).fileName text
    dsimp only at hcarries
    rw [Target.embeddedText] at hcarries
    split at hcarries
    · next hcollapse =>
      rw [if_pos hcollapse]
      rwa [String.toList_ofList] at hcarries
    · next hkept =>
      rwa [if_neg hkept]

/-- A text that holds a placeholder and a quote. -/
theorem embedded_text_read_back_placeholder :
    let s : Setting := { layout := ⟨[⟨.here, ["src"]⟩], [], ⟨.here, ["out"]⟩⟩, here := [] }
    let w : World :=
      { files := ⟨[(["src"], .directory), (["src", "a"], .directory),
          (["src", "a", "T.txt"], .file [0x24, 0x4e, 0x41, 0x4d, 0x45, 0x22])]⟩ }
    let d : Declaration := { name := "a.T" }
    let t : Target := ⟨.embeddedLiteral, d⟩
    let ran := generateWith s 1 w [d]
    ran.2.toOption.map (·.outcomes) = some [⟨"a.T", ["a.TProvider", t.name], [], none⟩] ∧
      ∃ source, ran.1.files.fileAt? [] (s.pathFor t.name) = some (Text.Utf8.encode source) ∧
        Carries (t.bindings "T.txt" "$NAME\"") source "$NAME\"".toList := by
  intro s w d t ran
  have houtcomes : ran.2.toOption.map (·.outcomes) =
      some [⟨"a.T", ["a.TProvider", t.name], [], none⟩] := by
    decide +kernel
  refine ⟨houtcomes, ?_⟩
  have hran : ran = (ran.1, ran.2) := (Prod.eta _).symm
  generalize hanswer : ran.2 = answer at houtcomes hran
  cases answer with
  | error e => cases houtcomes
  | ok r =>
      have hr : r.outcomes = [⟨"a.T", ["a.TProvider", t.name], [], none⟩] :=
        Option.some.inj houtcomes
      have ho : r.outcomes[0]? = some ⟨"a.T", ["a.TProvider", t.name], [], none⟩ := by
        rw [hr]
        rfl
      obtain ⟨-, ext, text, source, hext, hfound, hfile, hcarries⟩ :=
        embedded_text_read_back (s := s) rfl hran (i := 0) rfl ho (by decide +kernel)
      have htxt : d.binding.extension? = some "txt" := by decide +kernel
      obtain rfl := Option.some.inj (htxt.symm.trans hext)
      have hthere : (w.beforeEmbedded s [d] 0 d).files.fileAt? []
          (Resolver.pathUnder ⟨.here, ["src"]⟩ ⟨d.package, d.simpleName, "txt"⟩) =
            some (Text.Utf8.encode "$NAME\"".toList) := by
        decide +kernel
      have htext := (hfound _).mp
        ⟨[], _, [], rfl, fun _ hr => (List.not_mem_nil hr).elim, hthere⟩
      have hname : (ResourceName.mk d.package d.simpleName "txt").fileName = "T.txt" := by
        decide +kernel
      rw [← String.toList_inj.mp htext, hname] at hcarries
      exact ⟨source, hfile, hcarries⟩

end TextProviders
