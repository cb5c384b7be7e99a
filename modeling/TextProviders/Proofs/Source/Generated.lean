import TextProviders.Proofs.Layout.Places
import TextProviders.Proofs.Literal.RoundTrip
import TextProviders.Proofs.Source.Divided
import TextProviders.Proofs.Template.Parts

/-!
# Generated sources declare nothing

A filled template is divided into lexemes along the parts of the template: a comment of it is one
comment, a string literal is one literal, and so is the text, whatever it is, since it is escaped
(`quoted_encode`).  That holds for values that stay where the template puts them (`StaysPlaced`).

The at signs of code are then those of the template, and none of them starts with the marker.  So a
scan of a generated source finds nothing (`generated_source_declares_nothing`), also if the text of
the resource is a source with marked types, and the providers of one run are no declarations of the
next.
-/

namespace TextProviders.Source

open Program Template

/-! ## An escaped text is one literal -/

theorem quoted_encodeChar (c : Char) : Quoted '"' (Literal.encodeChar c) := by
  rcases Literal.encodeChar_cases c with ⟨e, hshort, hwritten⟩ | ⟨-, -, hwritten⟩ | ⟨hshort, -, hwritten⟩
  · have hline : e ≠ '\n' := by
      rcases Literal.shortEscape?_eq_some hshort with ⟨-, rfl⟩ | ⟨-, rfl⟩ | ⟨-, rfl⟩ | ⟨-, rfl⟩ |
        ⟨-, rfl⟩ | ⟨-, rfl⟩ | ⟨-, rfl⟩ <;> decide
    rw [hwritten]
    exact .escape hline .nil
  · rw [hwritten]
    refine .escape (by decide) (quoted_of_forall fun d hd => ?_)
    obtain ⟨n, hn, rfl⟩ := Text.mem_hexDigits hd
    obtain ⟨hlow, -, hslash⟩ := Text.toNat_hexDigit n hn
    refine ⟨?_, hslash, ?_⟩
    · intro hquote
      rw [hquote] at hlow
      exact absurd hlow (by decide)
    · intro hline
      rw [hline] at hlow
      exact absurd hlow (by decide)
  · obtain ⟨hslash, hquote, hline, -⟩ := Literal.shortEscape?_eq_none hshort
    rw [hwritten]
    exact .plain hquote hslash hline .nil

/-- **An escaped text does not end its literal**, whatever the text is. -/
theorem quoted_encode (s : List Char) : Quoted '"' (Literal.encode s) := by
  induction s with
  | nil => exact .nil
  | cons c s ih => exact (quoted_encodeChar c).append ih

/-! ## Filled parts -/

/-- Values that stay where the placeholders are that they replace. -/
structure StaysPlaced (bindings : List Template.Binding) : Prop where
  code : ∀ token ∈ codeTokens, ∀ c ∈ (Piece.hole token).filled bindings,
    c ≠ '"' ∧ c ≠ '\'' ∧ c ≠ '/' ∧ c ≠ '@'
  comment : ∀ token ∈ commentTokens, ¬ ['*', '/'] <:+: (Piece.hole token).filled bindings ∧
    ((Piece.hole token).filled bindings).head? ≠ some '/'
  string : ∀ token ∈ stringTokens, ∀ c ∈ (Piece.hole token).filled bindings,
    c ≠ '"' ∧ c ≠ '\\' ∧ c ≠ '\n'

section

variable {bindings : List Template.Binding} {text : List Char} {p : Part} {ps : List Part}

/-- The lexemes of a part whose placeholders are filled in. -/
def filledLexemes (bindings : List Template.Binding) (text : List Char) : Part → List Lexeme
  | .code p => (p.filled bindings).map .code
  | .comment body => [.comment ('/' :: '*' :: body.flatMap (Piece.filled bindings) ++ ['*', '/'])]
  | .string body => [.literal ['"'] (body.flatMap (Piece.filled bindings))]
  | .text => [.literal ['"'] (Literal.encode text)]

/-- The lexemes of a part are what is written for its pieces. -/
theorem source_filledLexemes
    (h : p = .text → (Piece.hole textToken).filled bindings = Literal.quoteChars text) :
    (filledLexemes bindings text p).flatMap Lexeme.source =
      p.pieces.flatMap (Piece.filled bindings) := by
  cases p with
  | code p =>
      rw [filledLexemes, flatMap_source_map_code]
      exact (List.append_nil _).symm
  | comment body =>
      simp [filledLexemes, Part.pieces, Lexeme.source, Piece.filled]
  | string body =>
      simp [filledLexemes, Part.pieces, Lexeme.source, Piece.filled]
  | text =>
      simp [filledLexemes, Part.pieces, Lexeme.source, h rfl, Literal.quoteChars]

/-- A quote or a blank is all that the masked view shows of a string. -/
theorem masked_ne_at_string {body : List Char} :
    ∀ c ∈ cellsOf [.literal ['"'] body], c.masked ≠ '@' := by
  intro c hc
  have hmasked : c.masked ∈ maskedOf [.literal ['"'] body] := List.mem_map_of_mem hc
  rw [maskedOf_literal] at hmasked
  simp only [maskedOf_nil, List.mem_append, List.mem_singleton, List.mem_replicate, List.not_mem_nil,
    or_false] at hmasked
  rcases hmasked with (hquote | ⟨-, hblank⟩) | hquote
  · exact hquote ▸ by decide
  · exact hblank ▸ by decide
  · exact hquote ▸ by decide

/-- The name that some parts start with is the one that the masked view shows. -/
theorem takeWhile_nameAt? {name : List Char} (h : nameAt? ps = some name) :
    ((cellsOf (ps.flatMap (filledLexemes bindings text))).takeWhile
      fun c => isNameChar c.masked).map Cell.masked = name := by
  fun_induction nameAt? ps generalizing name with
  | case1 c rest hc ih =>
      obtain ⟨more, hmore, rfl⟩ := Option.map_eq_some_iff.mp h
      have hcells : cellsOf ((.code (.keep c) :: rest).flatMap (filledLexemes bindings text)) =
          ⟨c, c⟩ :: cellsOf (rest.flatMap (filledLexemes bindings text)) := rfl
      rw [hcells, List.takeWhile_cons, if_pos hc, List.map_cons, ih hmore]
  | case2 c rest hc =>
      obtain rfl := Option.some.inj h
      have hcells : cellsOf ((.code (.keep c) :: rest).flatMap (filledLexemes bindings text)) =
          ⟨c, c⟩ :: cellsOf (rest.flatMap (filledLexemes bindings text)) := rfl
      rw [hcells, List.takeWhile_cons, if_neg hc]
      rfl
  | case3 => cases h

/-- The marker is not named where the template names something else. -/
theorem afterMarker?_filled (h : (nameAt? ps).any (fun name => ¬ IsMarker name) = true) :
    afterMarker? (cellsOf (ps.flatMap (filledLexemes bindings text))) = none := by
  cases hname : nameAt? ps with
  | none =>
      rw [hname] at h
      cases h
  | some name =>
      have hmarker : ¬ IsMarker name := by
        rw [hname] at h
        exact of_decide_eq_true h
      rw [afterMarker?, takeWhile_nameAt? hname]
      exact if_neg fun hif => hmarker (isMarker_iff.mp hif)

/-- No quote follows where a character of the template does. -/
theorem head?_filledLexemes (hps : ∀ q ∈ ps.head?, q.isKept = true) (hplaced : ∀ q ∈ ps, q.IsPlaced) :
    ∀ l ∈ (ps.flatMap (filledLexemes bindings text)).head?, l.source.head? ≠ some '"' := by
  intro l hl
  match ps with
  | [] => cases hl
  | q :: ps =>
      have hkept := hps q rfl
      match q with
      | .code (.keep c) =>
          obtain rfl := Option.some.inj hl
          intro hquote
          exact (hplaced _ List.mem_cons_self).1 (Option.some.inj hquote)

variable (hvalues : StaysPlaced bindings)

include hvalues

theorem plain_code {p : Piece} (h : (Part.code p).IsPlaced) :
    ∀ c ∈ p.filled bindings, c ≠ '"' ∧ c ≠ '\'' ∧ c ≠ '/' := by
  cases p with
  | keep c =>
      intro d hd
      obtain rfl := List.mem_singleton.mp hd
      exact h
  | hole token =>
      intro c hc
      obtain ⟨hdouble, hsingle, hslash, -⟩ := hvalues.code token h c hc
      exact ⟨hdouble, hsingle, hslash⟩

theorem not_closing_body {body : List Piece} (h : (Part.comment body).IsPlaced) :
    ¬ ['*', '/'] <:+: body.flatMap (Piece.filled bindings) := by
  refine (not_closing_flatten fun s hs => ?_).1
  obtain ⟨p, hp, rfl⟩ := List.mem_map.mp hs
  have hplaced := h p hp
  cases p with
  | keep c =>
      refine ⟨fun hinfix => ?_, fun hslash => hplaced (Option.some.inj hslash)⟩
      have hlength : 2 ≤ 1 := hinfix.length_le
      omega
  | hole token => exact hvalues.comment token hplaced

theorem quoted_body {body : List Piece} (h : (Part.string body).IsPlaced) :
    Quoted '"' (body.flatMap (Piece.filled bindings)) := by
  refine quoted_of_forall fun c hc => ?_
  obtain ⟨p, hp, hmem⟩ := List.mem_flatMap.mp hc
  have hplaced := h p hp
  cases p with
  | keep d =>
      obtain rfl := List.mem_singleton.mp hmem
      exact hplaced
  | hole token => exact hvalues.string token hplaced c hmem

/-- **A filled template is divided along the parts of the template.** -/
theorem isDivided_filled (hplaced : ArePlaced ps) :
    IsDivided (ps.flatMap (filledLexemes bindings text)) := by
  obtain ⟨hplaced, hquotes, -⟩ := hplaced
  induction ps with
  | nil => exact isDivided_nil
  | cons p ps ih =>
      obtain ⟨hp, hps⟩ := List.forall_mem_cons.mp hplaced
      obtain ⟨hnext, hquotes⟩ := List.isChain_cons.mp hquotes
      have hrest := ih hps hquotes
      have hbehind (hends : p.endsInQuote = true) :
          ∀ l ∈ (ps.flatMap (filledLexemes bindings text)).head?, l.source.head? ≠ some '"' :=
        head?_filledLexemes (fun q hq => hnext q hq hends) hps
      rw [List.flatMap_cons]
      cases p with
      | code p => exact hrest.code_append (plain_code hvalues hp)
      | comment body => exact hrest.cons_comment (not_closing_body hvalues hp)
      | string body => exact hrest.cons_string (quoted_body hvalues hp) (hbehind rfl)
      | text => exact hrest.cons_string (quoted_encode text) (hbehind rfl)

/-! ## No marker -/

/-- The at signs of a filled template are characters of its code. -/
theorem masked_ne_at (hplaced : p.IsPlaced) (hat : p ≠ .code (.keep '@')) :
    ∀ c ∈ cellsOf (filledLexemes bindings text p), c.masked ≠ '@' := by
  match p with
  | .code (.keep d) =>
      intro c hc hmasked
      obtain rfl := List.mem_singleton.mp hc
      exact hat (congrArg (fun d => Part.code (.keep d)) hmasked)
  | .code (.hole token) =>
      intro c hc
      exact (hvalues.code token hplaced _ (mem_cellsOf_map_code hc)).2.2.2
  | .comment body =>
      intro c hc
      obtain rfl := List.mem_singleton.mp hc
      decide
  | .string body => exact masked_ne_at_string
  | .text => exact masked_ne_at_string

theorem unmarked_filled (hplaced : ArePlaced ps) :
    Unmarked (cellsOf (ps.flatMap (filledLexemes bindings text))) := by
  obtain ⟨hplaced, -, hunmarked⟩ := hplaced
  induction ps with
  | nil => exact unmarked_nil
  | cons p ps ih =>
      obtain ⟨hp, hps⟩ := List.forall_mem_cons.mp hplaced
      rw [isUnmarked, Bool.and_eq_true] at hunmarked
      obtain ⟨hname, hunmarked⟩ := hunmarked
      have hrest := ih hps hunmarked
      rw [List.flatMap_cons, cellsOf_append]
      by_cases hat : p = .code (.keep '@')
      · subst hat
        exact hrest.cons fun _ => afterMarker?_filled (by simpa using hname)
      · exact hrest.append (masked_ne_at hvalues hp hat)

/-- **A template that is filled in scans to nothing**, if its parts are placed and the values stay where
they are put. -/
theorem declarations_filled (hplaced : ArePlaced ps)
    (htext : .text ∈ ps → (Piece.hole textToken).filled bindings = Literal.quoteChars text) :
    declarations (String.ofList (ps.flatMap Part.pieces |>.flatMap (Piece.filled bindings))) =
      .ok [] := by
  let ls := ps.flatMap (filledLexemes bindings text)
  have hsource :
      String.ofList ((ps.flatMap Part.pieces).flatMap (Piece.filled bindings)) = textOf ls := by
    rw [textOf, List.flatMap_assoc, List.flatMap_assoc]
    refine congrArg String.ofList (List.flatMap_congr fun p hp => ?_)
    exact (source_filledLexemes fun heq => htext (heq ▸ hp)).symm
  have hmarks : marks (cellsOf ls) = [] := marksFrom_eq_nil (unmarked_filled hvalues hplaced) [] 0
  rw [hsource, declarations, scan, cells_textOf (isDivided_filled hvalues hplaced), hmarks]
  rfl

end

/-! ## The values of a target -/

/-- A file name of a resource that stays within comments and string literals. -/
structure IsInsertable (resourceName : String) : Prop where
  unquoted : ∀ c ∈ resourceName.toList, c ≠ '"' ∧ c ≠ '\\' ∧ c ≠ '\n'
  inComment : ¬ ['*', '/'] <:+: resourceName.toList
  start : resourceName.toList.head? ≠ some '/'

/-- A text of a name or modifier neither has a comment's closing mark nor starts with its slash. -/
theorem not_closing_of_isCodeChar {s : List Char} (h : ∀ c ∈ s, isCodeChar c = true) :
    ¬ ['*', '/'] <:+: s ∧ s.head? ≠ some '/' := by
  constructor
  · intro hclosing
    exact absurd (h '*' (hclosing.mem List.mem_cons_self)) (by decide)
  · intro hhead
    exact absurd (h '/' (List.mem_of_head? hhead)) (by decide)

section

variable {d : Declaration} (hname : isTypeName d.name.toList = true)

include hname

/-- The resource of an accepted name may be named in comments and string literals if its extension
may. -/
theorem isInsertable_fileName (hline : '\n' ∉ d.name.toList) {ext : String}
    (hplain : ∀ c ∈ ext.toList, c ≠ '"' ∧ c ≠ '\\' ∧ c ≠ '\n')
    (hcomment : ¬ ['*', '/'] <:+: ext.toList) :
    IsInsertable (ResourceName.mk d.package d.simpleName ext).fileName := by
  have hnames : (Target.mk .runtimeLoading d).HasPlainNames := Target.hasPlainNames hname
  let front := d.simpleName.toList ++ ['.']
  have hfront : ∀ c ∈ front, isCodeChar c = true := by
    refine List.forall_mem_append.mpr ⟨fun c hc => ?_, by decide⟩
    exact hnames.name c (Declaration.mem_name_of_mem_simpleName hc)
  have hnoLine : '\n' ∉ front := by
    refine fun hmem => hline ?_
    rcases List.mem_append.mp hmem with hmem | hmem
    · exact Declaration.mem_name_of_mem_simpleName hmem
    · exact absurd hmem (by decide)
  have hfrontNil : front ≠ [] := List.append_ne_nil_of_right_ne_nil _ (List.cons_ne_nil _ _)
  have hsplit : (ResourceName.mk d.package d.simpleName ext).fileName.toList = front ++ ext.toList := by
    rw [ResourceName.fileName, String.toList_append, String.toList_append]
    rfl
  obtain ⟨hclosing, hhead⟩ := not_closing_of_isCodeChar hfront
  constructor
  · rw [hsplit]
    refine List.forall_mem_append.mpr ⟨fun c hc => ?_, hplain⟩
    exact ⟨ne_of_holds (hfront c hc) (by decide), ne_of_holds (hfront c hc) (by decide),
      fun heq => hnoLine (heq ▸ hc)⟩
  · rw [hsplit]
    refine not_closing_append hclosing hcomment fun hlast => ?_
    exact absurd (hfront '*' (List.mem_of_getLast? hlast)) (by decide)
  · rwa [hsplit, List.head?_append_of_ne_nil _ hfrontNil]

/-- The values of a target stay where they are put. -/
theorem staysPlaced {resourceName : String} (h : IsInsertable resourceName) (strategy : Strategy)
    (text : String) : StaysPlaced ((Target.mk strategy d).bindings resourceName text) := by
  let t : Target := ⟨strategy, d⟩
  have hnames : t.HasPlainNames := Target.hasPlainNames hname
  have hpackage : (Piece.hole "$PACKAGE").filled (t.bindings resourceName text) = t.package.toList := rfl
  have hsimple : (Piece.hole "$NAME").filled (t.bindings resourceName text) = t.simpleName.toList := rfl
  have hmodifier : (Piece.hole "$VISIBILITY").filled (t.bindings resourceName text) =
      d.visibility.modifier.toList := rfl
  have hresource : (Piece.hole "$RESOURCE").filled (t.bindings resourceName text) =
      resourceName.toList := rfl
  have htype : (Piece.hole "$TYPE").filled (t.bindings resourceName text) = d.name.toList := rfl
  have hcode {s : List Char} (hs : ∀ c ∈ s, isCodeChar c = true) :
      ∀ c ∈ s, c ≠ '"' ∧ c ≠ '\'' ∧ c ≠ '/' ∧ c ≠ '@' := fun c hc =>
    ⟨ne_of_holds (hs c hc) (by decide), ne_of_holds (hs c hc) (by decide),
      ne_of_holds (hs c hc) (by decide), ne_of_holds (hs c hc) (by decide)⟩
  refine ⟨?_, ?_, ?_⟩
  · simp only [codeTokens, List.forall_mem_cons]
    refine ⟨?_, ?_, ?_, fun _ hnil => (List.not_mem_nil hnil).elim⟩
    · rw [hpackage]
      exact hcode hnames.package
    · rw [hsimple]
      exact hcode hnames.simpleName
    · rw [hmodifier]
      exact hcode hnames.modifier
  · simp only [commentTokens, List.forall_mem_cons]
    refine ⟨?_, ?_, fun _ hnil => (List.not_mem_nil hnil).elim⟩
    · rw [hresource]
      exact ⟨h.inComment, h.start⟩
    · rw [htype]
      exact not_closing_of_isCodeChar hnames.name
  · simp only [stringTokens, List.forall_mem_cons]
    refine ⟨?_, fun _ hnil => (List.not_mem_nil hnil).elim⟩
    rw [hresource]
    exact h.unquoted

end

/-- **Generated sources declare nothing**, whatever the text of the resource is.  Generating a target
asks for the text, fills it in and writes the source; the template never fails, and a scan of the source
ends without a fault and finds no type. -/
theorem generated_source_declares_nothing {d : Declaration} {ext : String}
    (hname : isTypeName d.name.toList = true) (hline : '\n' ∉ d.name.toList)
    (hext : d.binding.extension? = some ext)
    (hplain : ∀ c ∈ ext.toList, c ≠ '"' ∧ c ≠ '\\' ∧ c ≠ '\n')
    (hcomment : ¬ ['*', '/'] <:+: ext.toList) (strategy : Strategy) :
    let t : Target := ⟨strategy, d⟩
    let resource : ResourceName := ⟨d.package, d.simpleName, ext⟩
    ∃ source : String → String,
      (∀ text, standardStore.render strategy.templateId (t.bindings resource.fileName text) =
          .ok (source text) ∧
        declarations (source text) = .ok []) ∧
      generateTarget standardStore t = (do
        match ← ofAction (.resolve resource) with
        | .error e => return .error e
        | .ok text => writeSource t.name (source text)) := by
  intro t resource
  have hinsertable := isInsertable_fileName hname hline hplain hcomment
  refine ⟨fun text => String.ofList (t.filled resource.fileName text), fun text => ?_, ?_⟩
  · have htext : .text ∈ partsOf strategy.template →
        (Piece.hole textToken).filled (t.bindings resource.fileName text) =
          Literal.quoteChars (t.embeddedText text).toList := by
      intro hplace
      cases strategy with
      | runtimeLoading => exact absurd hplace parts_runtimeLoading.2.2.1
      | embeddedLiteral => rfl
    refine ⟨render_standardStore t _ text, ?_⟩
    dsimp only
    rw [Target.filled, ← flatMap_pieces_partsOf]
    exact declarations_filled (staysPlaced hname hinsertable strategy text)
      (arePlaced_partsOf strategy) htext
  · exact generateTarget_eq hext strategy

/-- A text that ends its literal, if it could, and holds a marked type; and an extension that opens a
comment and holds another one. -/
theorem generated_source_declares_nothing_marked_text :
    let d : Declaration :=
      { name := "a.T$_", visibility := .enclosing,
        binding := { fileExtension := some " ./*'@TextResourceAware class E \x7b" } }
    let t : Target := ⟨.embeddedLiteral, d⟩
    let resource : ResourceName := ⟨"a", "T$_", "/*'@TextResourceAware class E \x7b"⟩
    let text := "\"; \x7d \x7d @TextResourceAware public class F \x7b /* \\u0022 \\"
    isTypeName d.name.toList = true ∧ d.binding.extension? = some resource.extension ∧
      ∃ source, standardStore.render t.strategy.templateId (t.bindings resource.fileName text) =
          .ok source ∧
        declarations source = .ok [] := by
  intro d t resource text
  have hname : isTypeName d.name.toList = true := by decide +kernel
  have hext : d.binding.extension? = some resource.extension := by decide +kernel
  have hplain : ∀ c ∈ resource.extension.toList, c ≠ '"' ∧ c ≠ '\\' ∧ c ≠ '\n' := by decide
  have hcomment : ¬ ['*', '/'] <:+: resource.extension.toList := by decide +kernel
  obtain ⟨source, hsource, -⟩ := generated_source_declares_nothing hname (by decide) hext hplain hcomment
    .embeddedLiteral
  have hresource : ResourceName.mk d.package d.simpleName resource.extension = resource := by
    decide +kernel
  rw [hresource] at hsource
  exact ⟨hname, hext, source text, hsource text⟩

end TextProviders.Source
