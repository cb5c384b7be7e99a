import TextProviders.Proofs.Source.Header
import TextProviders.Proofs.Source.Reports

/-!
# Sources in parts

A source that is made of lexemes as the language forms them, with no text block that closes early, is
divided into these lexemes (`IsDivided`), so its cells are theirs (`cells_textOf`).  Such parts are
put together: text without quotes and slashes is divided into its characters (`isDivided_map_code`), a
string may stand before anything but a quote (`IsDivided.cons_string`), and behind a character of code
that is no slash lexemes are divided as they are alone (`IsDivided.append`).
-/

namespace TextProviders.Source

/-- The text of some lexemes. -/
def textOf (ls : List Lexeme) : String :=
  String.ofList (ls.flatMap Lexeme.source)

/-- Lexemes that the source they make is divided into. -/
structure IsDivided (ls : List Lexeme) : Prop where
  lexed : IsLexed ls
  /-- No text block is closed by a quote that is escaped. -/
  blocks : ∀ l ∈ ls, ¬ l.ClosesEarly

theorem cells_textOf {ls : List Lexeme} (h : IsDivided ls) : cells (textOf ls).toList = cellsOf ls := by
  rw [textOf, String.toList_ofList, cells, (lexemes_source_iff h.lexed).mpr h.blocks]
  rfl

theorem isDivided_nil : IsDivided [] :=
  ⟨⟨fun _ hl => (List.not_mem_nil hl).elim, .nil⟩, fun _ hl => (List.not_mem_nil hl).elim⟩

/-- Characters that a test tells from quotes and slashes. -/
theorem startsNothing_of_holds {p : Char → Bool} (hp : ∀ d ∈ ['"', '\'', '/'], p d = false) {c : Char}
    (hc : p c = true) : c ≠ '"' ∧ c ≠ '\'' ∧ c ≠ '/' := by
  have hne : ∀ d ∈ ['"', '\'', '/'], c ≠ d := fun d hd => ne_of_holds hc (hp d hd)
  simpa using hne

/-- Text without quotes and slashes may stand in front of anything, divided into its characters. -/
theorem IsDivided.code_append {s : List Char} (h : ∀ c ∈ s, c ≠ '"' ∧ c ≠ '\'' ∧ c ≠ '/')
    {ls : List Lexeme} (hls : IsDivided ls) : IsDivided (s.map .code ++ ls) := by
  induction s with
  | nil => exact hls
  | cons c s ih =>
      obtain ⟨⟨hdouble, hsingle, hslash⟩, hs⟩ := List.forall_mem_cons.mp h
      have hrest := ih hs
      refine ⟨⟨List.forall_mem_cons.mpr ⟨.code hdouble hsingle, hrest.lexed.java⟩, ?_⟩,
        List.forall_mem_cons.mpr ⟨id, hrest.blocks⟩⟩
      exact List.isChain_cons.mpr ⟨fun _ _ heq => absurd heq hslash, hrest.lexed.ends⟩

/-- Text without quotes and slashes is divided into its characters. -/
theorem isDivided_map_code {s : List Char} (h : ∀ c ∈ s, c ≠ '"' ∧ c ≠ '\'' ∧ c ≠ '/') :
    IsDivided (s.map .code) := by
  rw [← List.append_nil (s.map Lexeme.code)]
  exact isDivided_nil.code_append h

/-- Lexemes behind a character of code that is no slash are divided as they are alone. -/
theorem IsDivided.append {ls ms : List Lexeme} (hls : IsDivided ls) (hms : IsDivided ms) {c : Char}
    (hlast : ls.getLast? = some (.code c)) (hslash : c ≠ '/') : IsDivided (ls ++ ms) := by
  have hends : (ls ++ ms).IsChain fun l m => l.EndsBefore m.source.head? := by
    refine List.IsChain.append hls.lexed.ends hms.lexed.ends fun l hl m _ => ?_
    obtain rfl := Option.some.inj (hlast.symm.trans hl)
    exact fun heq => absurd heq hslash
  exact ⟨⟨List.forall_mem_append.mpr ⟨hls.lexed.java, hms.lexed.java⟩, hends⟩,
    List.forall_mem_append.mpr ⟨hls.blocks, hms.blocks⟩⟩

theorem flatMap_source_map_code (s : List Char) : (s.map Lexeme.code).flatMap Lexeme.source = s := by
  induction s with
  | nil => rfl
  | cons c s ih => exact congrArg (c :: ·) ih

theorem quoted_of_forall {quote : Char} {s : List Char}
    (h : ∀ c ∈ s, c ≠ quote ∧ c ≠ '\\' ∧ c ≠ '\n') : Quoted quote s := by
  induction s with
  | nil => exact .nil
  | cons c s ih =>
      obtain ⟨hquote, hback, hline⟩ := h c List.mem_cons_self
      exact .plain hquote hback hline (ih fun d hd => h d (List.mem_cons_of_mem _ hd))

theorem Quoted.append {quote : Char} {s t : List Char} (hs : Quoted quote s) (ht : Quoted quote t) :
    Quoted quote (s ++ t) := by
  induction hs with
  | nil => exact ht
  | plain hquote hback hline _ ih => exact .plain hquote hback hline ih
  | escape hline _ ih => exact .escape hline ih

theorem maskedOf_literal (quote body : List Char) (ls : List Lexeme) :
    maskedOf (.literal quote body :: ls) =
      quote ++ List.replicate body.length ' ' ++ quote ++ maskedOf ls := by
  have hcells := Lexeme.map_masked_cells (.literal quote body)
  rw [maskedOf, cellsOf, List.flatMap_cons, List.map_append, hcells]
  rfl

/-- A literal may stand in front of what starts with no quote. -/
theorem IsDivided.cons_string {body : List Char} {ls : List Lexeme} (hbody : Quoted '"' body)
    (hls : IsDivided ls) (hnext : ∀ l ∈ ls.head?, l.source.head? ≠ some '"') :
    IsDivided (.literal ['"'] body :: ls) := by
  refine ⟨⟨List.forall_mem_cons.mpr ⟨.string hbody, hls.lexed.java⟩, ?_⟩,
    List.forall_mem_cons.mpr ⟨fun h => absurd h.1 (by decide), hls.blocks⟩⟩
  exact List.isChain_cons.mpr ⟨hnext, hls.lexed.ends⟩

/-- A comment with both marks may stand in front of anything. -/
theorem IsDivided.cons_comment {body : List Char} {ls : List Lexeme} (hbody : ¬ ['*', '/'] <:+: body)
    (hls : IsDivided ls) : IsDivided (.comment ('/' :: '*' :: body ++ ['*', '/']) :: ls) := by
  refine ⟨⟨List.forall_mem_cons.mpr ⟨.blockComment hbody, hls.lexed.java⟩, ?_⟩,
    List.forall_mem_cons.mpr ⟨id, hls.blocks⟩⟩
  refine List.isChain_cons.mpr ⟨fun _ _ hline => ?_, hls.lexed.ends⟩
  exact absurd (List.cons_prefix_cons.mp (List.cons_prefix_cons.mp hline).2).1 (by decide)

/-- Texts none of which has the closing mark or starts with a slash do not have the mark together. -/
theorem not_closing_flatten {parts : List (List Char)}
    (h : ∀ s ∈ parts, ¬ ['*', '/'] <:+: s ∧ s.head? ≠ some '/') :
    ¬ ['*', '/'] <:+: parts.flatten ∧ parts.flatten.head? ≠ some '/' := by
  induction parts with
  | nil => exact ⟨by decide, by decide⟩
  | cons s parts ih =>
      obtain ⟨⟨hs, hfirst⟩, hparts⟩ := List.forall_mem_cons.mp h
      obtain ⟨hrest, hnext⟩ := ih hparts
      refine ⟨not_closing_append hs hrest fun _ => hnext, ?_⟩
      cases s with
      | nil => exact hnext
      | cons c s => exact hfirst

end TextProviders.Source
