import TextProviders.Generation.Run
import TextProviders.Proofs.Template.Pieces

/-!
# The templates of the providers, filled in

Both templates have no placeholders but those that are bound for a target, so what is rendered for a
target is its template with the placeholders filled in (`render_standardStore`).  The text of the
resource has one place in its template, behind a blank and in front of a semicolon
(`pieces_embeddedLiteral`).
-/

namespace TextProviders

open Program Template

/-- The standard template of a strategy. -/
def Strategy.template : Strategy → String
  | .runtimeLoading => Template.runtimeLoading
  | .embeddedLiteral => Template.embeddedLiteral

/-- The tokens that are bound for a target of a strategy. -/
def Strategy.tokens : Strategy → List String
  | .runtimeLoading => ["$PACKAGE", "$NAME", "$VISIBILITY", "$RESOURCE", "$TYPE"]
  | .embeddedLiteral => ["$PACKAGE", "$NAME", "$VISIBILITY", "$RESOURCE", "$TYPE", "$TEXT"]

/-- The template of a target with its placeholders filled in. -/
def Target.filled (t : Target) (resourceName text : String) : List Char :=
  (pieces t.strategy.template.toList).flatMap (Piece.filled (t.bindings resourceName text))

namespace Template

theorem toList_unlines (lines : List String) :
    (unlines lines).toList = lines.flatMap fun line => line.toList ++ ['\n'] := by
  induction lines with
  | nil => rfl
  | cons line lines ih =>
      rw [List.flatMap_cons, ← ih, unlines, List.map_cons, String.join_cons, String.toList_append,
        String.toList_append]
      rfl

theorem placeholders_runtimeLoading :
    (pieces runtimeLoading.toList).filterMap Piece.token? =
      ["$PACKAGE", "$RESOURCE", "$TYPE", "$VISIBILITY", "$NAME", "$NAME", "$RESOURCE", "$NAME",
        "$RESOURCE"] := by
  rw [runtimeLoading, toList_unlines]
  simp only [List.flatMap_cons, List.flatMap_nil]
  -- a literal is the text of its characters, which is not to be computed
  repeat rw [String.toList_ofList]
  decide +kernel

/-- The placeholders of the template, and what stands around the one for the text. -/
theorem placeholders_embeddedLiteral :
    (pieces embeddedLiteral.toList).filterMap Piece.token? =
        ["$PACKAGE", "$RESOURCE", "$TYPE", "$VISIBILITY", "$NAME", "$NAME", "$TEXT", "$RESOURCE"] ∧
      ((pieces embeddedLiteral.toList).takeWhile (· ≠ .hole textToken)).getLast? =
        some (.keep ' ') ∧
      ((pieces embeddedLiteral.toList).dropWhile (· ≠ .hole textToken)).take 2 =
        [.hole textToken, .keep ';'] := by
  rw [embeddedLiteral, toList_unlines]
  simp only [List.flatMap_cons, List.flatMap_nil]
  -- a literal is the text of its characters, which is not to be computed
  repeat rw [String.toList_ofList]
  decide +kernel

end Template

theorem fits_bindings (t : Target) (resourceName text : String) :
    Fits (t.bindings resourceName text) t.strategy.template.toList := by
  have htokens : (t.bindings resourceName text).map (·.token) = t.strategy.tokens := by
    obtain ⟨strategy, d⟩ := t
    cases strategy <;> rfl
  constructor
  · rw [htokens]
    cases t.strategy <;> decide +kernel
  · rw [htokens]
    cases t.strategy <;> decide +kernel
  · rw [htokens]
    cases t.strategy with
    | runtimeLoading =>
        show ∀ token ∈ (pieces runtimeLoading.toList).filterMap Piece.token?, _
        rw [placeholders_runtimeLoading]
        decide +kernel
    | embeddedLiteral =>
        show ∀ token ∈ (pieces embeddedLiteral.toList).filterMap Piece.token?, _
        rw [placeholders_embeddedLiteral.1]
        decide +kernel

/-- What is rendered for a target with the standard templates. -/
theorem render_standardStore (t : Target) (resourceName text : String) :
    standardStore.render t.strategy.templateId (t.bindings resourceName text) =
      .ok (String.ofList (t.filled resourceName text)) := by
  have hload : standardStore.load t.strategy.templateId = .ok t.strategy.template := by
    cases t.strategy <;> rfl
  rw [Store.render, hload]
  show Except.ok (substitute _ _) = _
  rw [Target.filled, ← substitute_eq_filled (fits_bindings t resourceName text),
    String.ofList_toList]

/-- Generating a target asks for the text of its resource and writes the filled template. -/
theorem generateTarget_eq {d : Declaration} {ext : String} (hext : d.binding.extension? = some ext)
    (strategy : Strategy) :
    let t : Target := ⟨strategy, d⟩
    let resource : ResourceName := ⟨d.package, d.simpleName, ext⟩
    generateTarget standardStore t = (do
      match ← ofAction (.resolve resource) with
      | .error e => return .error e
      | .ok text => writeSource t.name (String.ofList (t.filled resource.fileName text))) := by
  intro t resource
  unfold generateTarget
  dsimp only
  rw [hext]
  refine congrArg (ofAction (.resolve resource) >>= ·) (funext fun found => ?_)
  cases found with
  | error e => rfl
  | ok text =>
      dsimp only
      rw [render_standardStore t resource.fileName text]

/-! ## The place of the text -/

/-- The pieces before the place of the text. -/
def Template.beforeText : List Piece :=
  ((pieces embeddedLiteral.toList).takeWhile (· ≠ .hole textToken)).dropLast

/-- The pieces behind the place of the text. -/
def Template.afterText : List Piece :=
  ((pieces embeddedLiteral.toList).dropWhile (· ≠ .hole textToken)).drop 2

/-- The text has one place in its template, behind a blank and in front of a semicolon. -/
theorem pieces_embeddedLiteral :
    pieces embeddedLiteral.toList =
        beforeText ++ [.keep ' ', .hole textToken, .keep ';'] ++ afterText ∧
      .hole textToken ∉ beforeText ∧ .hole textToken ∉ afterText := by
  obtain ⟨htokens, hlast, hnext⟩ := placeholders_embeddedLiteral
  have hcount : ((pieces embeddedLiteral.toList).filterMap Piece.token?).count textToken = 1 := by
    rw [htokens]
    decide +kernel
  obtain ⟨front, hfront⟩ := List.getLast?_eq_some_iff.mp hlast
  have hbefore : beforeText = front := by
    rw [beforeText, hfront, List.dropLast_concat]
  have hsplit : pieces embeddedLiteral.toList =
      beforeText ++ [.keep ' ', .hole textToken, .keep ';'] ++ afterText := by
    have hwhole := List.takeWhile_append_dropWhile (p := (· ≠ .hole textToken))
      (l := pieces embeddedLiteral.toList)
    have hback := List.take_append_drop 2
      ((pieces embeddedLiteral.toList).dropWhile (· ≠ .hole textToken))
    rw [hnext] at hback
    rw [← hwhole, hfront, ← hback, hbefore]
    simp only [afterText, List.append_assoc, List.cons_append, List.nil_append]
  have hzero : (beforeText.filterMap Piece.token?).count textToken +
      (afterText.filterMap Piece.token?).count textToken = 0 := by
    rw [hsplit] at hcount
    simp only [List.filterMap_append, List.count_append] at hcount
    have hone : ([Piece.keep ' ', .hole textToken, .keep ';'].filterMap Piece.token?).count
        textToken = 1 := by decide +kernel
    omega
  have hnot : ∀ ps : List Piece, (ps.filterMap Piece.token?).count textToken = 0 →
      .hole textToken ∉ ps := by
    intro ps hps hmem
    exact List.count_eq_zero.mp hps (List.mem_filterMap.mpr ⟨_, hmem, rfl⟩)
  exact ⟨hsplit, hnot _ (by omega), hnot _ (by omega)⟩

/-- The provider that carries its text has the literal of that text in its place, and the literal
is read as the text. -/
theorem filled_embeddedLiteral (d : Declaration) (resourceName text : String) :
    let t : Target := ⟨.embeddedLiteral, d⟩
    let fill := fun ps : List Piece => ps.flatMap (Piece.filled (t.bindings resourceName text))
    t.filled resourceName text =
      fill beforeText ++ [' '] ++ Literal.quoteChars (t.embeddedText text).toList ++
        ';' :: fill afterText := by
  intro t fill
  have hplace : (Piece.hole textToken).filled (t.bindings resourceName text) =
      Literal.quoteChars (t.embeddedText text).toList := by
    rfl
  show (pieces embeddedLiteral.toList).flatMap _ = _
  rw [pieces_embeddedLiteral.1, List.flatMap_append, List.flatMap_append]
  show fill beforeText ++ (' ' :: ((Piece.hole textToken).filled _ ++ [';'])) ++ fill afterText = _
  rw [hplace]
  simp only [List.append_assoc, List.cons_append, List.nil_append]

end TextProviders
