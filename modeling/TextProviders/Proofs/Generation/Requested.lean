import TextProviders.Proofs.Layout.Places
import TextProviders.Proofs.Literal.Verbatim
import TextProviders.Proofs.Template.Parts

/-!
# The resource that a provider asks for

A provider names its resource in string literals, by the file name that the text was searched for when
the provider was generated.  The name is put between the quotes as it is, while the text of the
resource is escaped.  So the literal denotes the name exactly if the name holds no quote, no backslash
and no line end (`resource_literal_denotes_iff`), and an extension may hold any of them: the provider
then asks for another resource, or its source does not compile (`quote_in_extension_is_kept`).

The rest of a source has no say in this.  Its placeholders, the text included, are filled with what is
translated on its own (`exists_translatesTo_filled`).
-/

namespace TextProviders

open Program Template
open Literal (IsVerbatim ReadsAs TranslatesTo value? verbatim)

/-! ## What is translated on its own -/

theorem exists_translatesTo_value {token value : String} (htoken : token ≠ textToken)
    (hvalue : '\\' ∉ value.toList) :
    ∃ us, TranslatesTo (Template.Binding.mk token value).written us := by
  rw [Template.Binding.written, if_neg htoken]
  exact ⟨_, Literal.translatesTo_units hvalue⟩

section

variable {d : Declaration} (hname : isTypeName d.name.toList = true) {resourceName : String}
  (hresource : '\\' ∉ resourceName.toList) (strategy : Strategy) (text : String)

include hname hresource

/-- Every value of a target is translated on its own if the name of the resource has no backslash. -/
theorem exists_translatesTo_written :
    ∀ b ∈ (Target.mk strategy d).bindings resourceName text, ∃ us, TranslatesTo b.written us := by
  have hnames : (Target.mk strategy d).HasPlainNames := Target.hasPlainNames hname
  have hplain {s : List Char} (hs : ∀ c ∈ s, isCodeChar c = true) : '\\' ∉ s := fun hmem =>
    absurd (hs '\\' hmem) (by decide)
  intro b hb
  rcases List.mem_append.mp hb with hb | hb
  · simp only [List.mem_cons, List.not_mem_nil, or_false] at hb
    rcases hb with rfl | rfl | rfl | rfl | rfl
    · exact exists_translatesTo_value (by decide) (hplain hnames.package)
    · exact exists_translatesTo_value (by decide) (hplain hnames.simpleName)
    · exact exists_translatesTo_value (by decide) (hplain hnames.modifier)
    · exact exists_translatesTo_value (by decide) hresource
    · exact exists_translatesTo_value (by decide) (hplain hnames.name)
  · cases strategy with
    | runtimeLoading => cases hb
    | embeddedLiteral =>
        obtain rfl := List.mem_singleton.mp hb
        exact ⟨_, Literal.translatesTo_quoteChars _⟩

/-- Every piece of a filled template is translated on its own then. -/
theorem exists_translatesTo_filled :
    ∀ p ∈ pieces strategy.template.toList,
      ∃ us, TranslatesTo (p.filled ((Target.mk strategy d).bindings resourceName text)) us := by
  intro p hp
  have hfits := fits_bindings (Target.mk strategy d) resourceName text
  cases p with
  | keep c =>
      refine ⟨_, Literal.translatesTo_units (s := [c]) fun hmem => ?_⟩
      obtain rfl := List.mem_singleton.mp hmem
      exact backslash_not_mem_pieces strategy hp
  | hole token =>
      obtain ⟨b, hb, rfl⟩ := List.mem_map.mp
        (hfits.bound token (List.mem_filterMap.mpr ⟨.hole token, hp, rfl⟩))
      rw [filled_hole (List.pairwise_map.mp hfits.once) hb]
      exact exists_translatesTo_written hname hresource strategy text b hb

end

/-! ## The literals that name the resource -/

/-- What is written for some parts of a target's template. -/
def Target.fill (t : Target) (resourceName text : String) (ps : List Part) : List Char :=
  (ps.flatMap Part.pieces).flatMap (Piece.filled (t.bindings resourceName text))

/-- Each template has such a literal. -/
theorem exists_string (strategy : Strategy) :
    ∃ before after, partsOf strategy.template = before ++ .string [.hole "$RESOURCE"] :: after := by
  have hmem : [Piece.hole "$RESOURCE"] ∈ (partsOf strategy.template).filterMap Part.body? := by
    rw [strings_partsOf]
    cases strategy with
    | runtimeLoading | embeddedLiteral => exact List.mem_cons_of_mem _ List.mem_cons_self
  obtain ⟨p, hp, hbody⟩ := List.mem_filterMap.mp hmem
  match p with
  | .string body =>
      obtain rfl := Option.some.inj hbody
      exact List.append_of_mem hp

section

variable {strategy : Strategy} {before after : List Part} {body : List Piece}
  (hsplit : partsOf strategy.template = before ++ .string body :: after)

include hsplit

/-- A string literal that names the resource holds nothing else. -/
theorem body_eq_of_mem (hbody : .hole "$RESOURCE" ∈ body) : body = [.hole "$RESOURCE"] := by
  have hmem : body ∈ (partsOf strategy.template).filterMap Part.body? := by
    rw [hsplit]
    exact List.mem_filterMap.mpr ⟨.string body, by simp, rfl⟩
  rw [strings_partsOf] at hmem
  rcases List.mem_cons.mp hmem with rfl | hmem
  · exact absurd hbody (by decide)
  · exact (List.mem_replicate.mp hmem).2

/-- The name of the resource stands between the quotes as it is. -/
theorem filled_eq_of_string (hbody : .hole "$RESOURCE" ∈ body) (d : Declaration)
    (resourceName text : String) :
    let t : Target := ⟨strategy, d⟩
    t.filled resourceName text = t.fill resourceName text before ++ verbatim resourceName.toList ++
      t.fill resourceName text after := by
  intro t
  obtain rfl := body_eq_of_mem hsplit hbody
  have hplace : (Piece.hole "$RESOURCE").filled (t.bindings resourceName text) =
      resourceName.toList := rfl
  have hkeep (c : Char) : (Piece.keep c).filled (t.bindings resourceName text) = [c] := rfl
  rw [Target.filled, ← flatMap_pieces_partsOf, hsplit]
  simp [Target.fill, Part.pieces, hplace, hkeep, verbatim]

/-- A string literal is followed by the end of the template, or by a character that is neither a quote
nor a backslash. -/
theorem after_string_cases :
    after = [] ∨ ∃ c rest, after = .code (.keep c) :: rest ∧ c ≠ '"' ∧ c ≠ '\\' := by
  have hplaced := arePlaced_partsOf strategy
  cases after with
  | nil => exact .inl rfl
  | cons q rest =>
      have hpiece : ∀ p ∈ q.pieces, p ∈ pieces strategy.template.toList := by
        intro p hp
        rw [← flatMap_pieces_partsOf, hsplit]
        exact List.mem_flatMap.mpr ⟨q, by simp, hp⟩
      have hchain := hplaced.quotes
      rw [hsplit] at hchain
      have hkept : q.isKept = true :=
        (List.isChain_cons_cons.mp (List.isChain_append.mp hchain).2.1).1 rfl
      have hq : q.IsPlaced := hplaced.placed q (by simp [hsplit])
      match q with
      | .code (.keep c) =>
          refine .inr ⟨c, rest, rfl, hq.1, ?_⟩
          rintro rfl
          exact backslash_not_mem_pieces strategy (hpiece _ List.mem_cons_self)

/-- No quote follows a string literal of a template. -/
theorem translate_fill_ne (t : Target) (resourceName text : String) :
    ∀ us, Literal.translate false (t.fill resourceName text after) ≠ some (0x22 :: us) := by
  intro us heq
  rcases after_string_cases hsplit with rfl | ⟨c, rest, rfl, hquote, hslash⟩
  · rw [Target.fill, List.flatMap_nil, List.flatMap_nil, Literal.translate] at heq
    cases heq
  · have hfill : t.fill resourceName text (.code (.keep c) :: rest) =
        c :: t.fill resourceName text rest := rfl
    rw [hfill, Literal.translate_cons hslash] at heq
    obtain ⟨vs, -, hunits⟩ := Option.map_eq_some_iff.mp heq
    exact Literal.units_append_ne hquote hunits

end

/-- Parts of a template are translated on their own if the name of the resource has no backslash. -/
theorem exists_translatesTo_fill {d : Declaration} (hname : isTypeName d.name.toList = true)
    {resourceName : String} (hresource : '\\' ∉ resourceName.toList) {strategy : Strategy}
    (text : String) {ps : List Part} (hps : ps ⊆ partsOf strategy.template) :
    ∃ us, TranslatesTo ((Target.mk strategy d).fill resourceName text ps) us := by
  refine Literal.exists_translatesTo_flatMap fun p hp => ?_
  refine exists_translatesTo_filled hname hresource strategy text p ?_
  obtain ⟨q, hq, hmem⟩ := List.mem_flatMap.mp hp
  rw [← flatMap_pieces_partsOf]
  exact List.mem_flatMap.mpr ⟨q, hps hq, hmem⟩

/-- **A provider asks for the resource that was resolved exactly if its file name needs no escape.**  In
every string literal of a template that names the resource, the file name that was searched for stands
between the quotes as it is.  The literal denotes this name if and only if the name holds no quote, no
backslash and no line end, and then it is read so within its source, which can be read as a whole. -/
theorem resource_literal_denotes_iff {d : Declaration} (hvalid : d.validate = .ok ())
    (hname : isTypeName d.name.toList = true) (strategy : Strategy) :
    ∃ ext, d.binding.extension? = some ext ∧
      let t : Target := ⟨strategy, d⟩
      let resource : ResourceName := ⟨d.package, d.simpleName, ext⟩
      let name := resource.fileName.toList
      ∃ source : String → String,
        generateTarget standardStore t = (do
          match ← ofAction (.resolve resource) with
          | .error e => return .error e
          | .ok text => writeSource t.name (source text)) ∧
        ∀ before body after, partsOf strategy.template = before ++ .string body :: after →
          .hole "$RESOURCE" ∈ body → ∀ text,
          let fill := t.fill resource.fileName text
          (source text).toList = fill before ++ verbatim name ++ fill after ∧
            (value? (verbatim name) = some name ↔ IsVerbatim name) ∧
            (IsVerbatim name →
              (∃ us, Literal.translate false (fill before) = some us) ∧
                (∃ us, Literal.translate false (fill after) = some us) ∧
                ReadsAs (fill before) (verbatim name) (fill after) name) := by
  unfold Declaration.validate at hvalid
  cases hext : d.binding.extension? with
  | none =>
      rw [hext] at hvalid
      cases hvalid
  | some ext =>
      refine ⟨ext, rfl, ?_⟩
      intro t resource name
      refine ⟨fun text => String.ofList (t.filled resource.fileName text),
        generateTarget_eq hext strategy, ?_⟩
      intro before body after hsplit hbody text fill
      refine ⟨?_, Literal.value?_verbatim_iff name, fun hverbatim => ?_⟩
      · rw [String.toList_ofList]
        exact filled_eq_of_string hsplit hbody d resource.fileName text
      · have hslash : '\\' ∉ resource.fileName.toList := fun hmem => (hverbatim _ hmem).2.1 rfl
        have hbefore : before ⊆ partsOf strategy.template := by
          rw [hsplit]
          exact List.subset_append_left _ _
        have hafter : after ⊆ partsOf strategy.template := by
          rw [hsplit]
          exact fun q hq => List.mem_append_right _ (List.mem_cons_of_mem _ hq)
        obtain ⟨us, hus⟩ := exists_translatesTo_fill hname hslash text hbefore
        obtain ⟨vs, hvs⟩ := exists_translatesTo_fill hname hslash text hafter
        exact ⟨⟨us, hus.translate_eq⟩, ⟨vs, hvs.translate_eq⟩,
          Literal.readsAs_verbatim hverbatim hus (translate_fill_ne hsplit t resource.fileName text)⟩

/-- A resource with the customary extension. -/
theorem resource_literal_denotes_iff_text_file :
    let d : Declaration := { name := "a.T" }
    let t : Target := ⟨.runtimeLoading, d⟩
    let name := "T.txt".toList
    d.validate = .ok () ∧ isTypeName d.name.toList = true ∧ IsVerbatim name ∧
      ∃ before after, partsOf runtimeLoading = before ++ .string [.hole "$RESOURCE"] :: after ∧
        ∃ source : String → String,
          (source "$NAME").toList =
              t.fill "T.txt" "$NAME" before ++ verbatim name ++ t.fill "T.txt" "$NAME" after ∧
            value? (verbatim name) = some name ∧
            ReadsAs (t.fill "T.txt" "$NAME" before) (verbatim name) (t.fill "T.txt" "$NAME" after)
              name := by
  intro d t name
  have hvalid : d.validate = .ok () := by decide +kernel
  have hname : isTypeName d.name.toList = true := by decide +kernel
  have hverbatim : IsVerbatim name := by decide
  obtain ⟨before, after, hsplit⟩ := exists_string .runtimeLoading
  obtain ⟨ext, hext, source, -, hall⟩ := resource_literal_denotes_iff hvalid hname .runtimeLoading
  have htxt : d.binding.extension? = some "txt" := by decide +kernel
  obtain rfl := Option.some.inj (htxt.symm.trans hext)
  have hfile : (ResourceName.mk d.package d.simpleName "txt").fileName = "T.txt" := by decide +kernel
  have hthere := hall before _ after hsplit List.mem_cons_self "$NAME"
  rw [hfile] at hthere
  obtain ⟨hsource, hvalue, hreads⟩ := hthere
  exact ⟨hvalid, hname, hverbatim, before, after, hsplit, source, hsource, hvalue.mpr hverbatim,
    (hreads hverbatim).2.2⟩

/-- The extension a"b: the literal for the resource ends at its quote, where the literal for the text
would denote the name. -/
theorem quote_in_extension_is_kept :
    let d : Declaration := { name := "com.acme.A", binding := { fileExtension := some "a\"b" } }
    let t : Target := ⟨.runtimeLoading, d⟩
    let resource : ResourceName := ⟨"com.acme", "A", "a\"b"⟩
    let name := resource.fileName.toList
    d.validate = .ok () ∧ isTypeName d.name.toList = true ∧
      d.binding.extension? = some resource.extension ∧
      ∃ before after, partsOf t.strategy.template = before ++ .string [.hole "$RESOURCE"] :: after ∧
        standardStore.render t.strategy.templateId (t.bindings resource.fileName "x") =
          .ok (String.ofList (t.fill resource.fileName "x" before ++ verbatim name ++
            t.fill resource.fileName "x" after)) ∧
        value? (verbatim name) ≠ some name ∧ value? (Literal.quoteChars name) = some name := by
  intro d t resource name
  have hunclean : ¬ IsVerbatim name := by decide
  obtain ⟨before, after, hsplit⟩ := exists_string .runtimeLoading
  refine ⟨by decide +kernel, by decide +kernel, by decide +kernel, before, after, hsplit, ?_,
    fun hvalue => hunclean ((Literal.value?_verbatim_iff name).mp hvalue),
    Literal.value?_quoteChars name⟩
  rw [render_standardStore t, filled_eq_of_string hsplit List.mem_cons_self d]

end TextProviders
