import Mathlib.Data.List.Chain
import TextProviders.Source.Lexeme

/-!
# The lexemes of a source are those of the language

A source is a sequence of lexemes: characters of code, comments, strings, characters and text blocks,
each formed by the lexical grammar (`Lexeme.IsJava`) and each followed by something before which it ends
(`Lexeme.EndsBefore`).  The lexemes that are found are these ones (`lexemes_source_iff`), provided that
no text block holds three quotes in a row: a backslash in a text block does not keep the quotes behind
it from closing it, so a block with an escaped quote before two others is closed too early.

What the grammar asks beyond this is not needed here: a line end after the opening quotes of a text
block, and which characters may follow a backslash.
-/

namespace TextProviders.Source

/-- What is to hold of all characters of a text is decided by going through the text, not through all
characters. -/
instance (priority := high) decidableForallMemText {p : Char → Prop} [DecidablePred p] (s : List Char) :
    Decidable (∀ c ∈ s, p c) :=
  List.decidableBAll p s

/-! ## The lexical grammar -/

/-- What may stand between two quotes on one line.  A backslash takes the next character with it. -/
inductive Quoted (quote : Char) : List Char → Prop
  | nil : Quoted quote []
  | plain {c : Char} {rest : List Char} :
      c ≠ quote → c ≠ '\\' → c ≠ '\n' → Quoted quote rest → Quoted quote (c :: rest)
  | escape {c : Char} {rest : List Char} :
      c ≠ '\n' → Quoted quote rest → Quoted quote ('\\' :: c :: rest)

/-- The quotes around a text block. -/
def blockQuotes : List Char := ['"', '"', '"']

/-- What may stand in a text block behind some quotes that no backslash precedes: never three of them,
and none at the end. -/
inductive BlockText : Nat → List Char → Prop
  | nil : BlockText 0 []
  | quote {n : Nat} {rest : List Char} : n < 2 → BlockText (n + 1) rest → BlockText n ('"' :: rest)
  | plain {n : Nat} {c : Char} {rest : List Char} :
      c ≠ '"' → c ≠ '\\' → BlockText 0 rest → BlockText n (c :: rest)
  | escape {n : Nat} {c : Char} {rest : List Char} : BlockText 0 rest → BlockText n ('\\' :: c :: rest)

namespace Lexeme

/-- A lexeme that is formed by the lexical grammar. -/
inductive IsJava : Lexeme → Prop
  | code {c : Char} : c ≠ '"' → c ≠ '\'' → IsJava (.code c)
  | string {body : List Char} : Quoted '"' body → IsJava (.literal ['"'] body)
  | character {body : List Char} : Quoted '\'' body → body ≠ [] → IsJava (.literal ['\''] body)
  | textBlock {body : List Char} : BlockText 0 body → IsJava (.literal blockQuotes body)
  | lineComment {body : List Char} : '\n' ∉ body → IsJava (.comment ('/' :: '/' :: body))
  | blockComment {body : List Char} :
      ¬ ['*', '/'] <:+: body → IsJava (.comment ('/' :: '*' :: body ++ ['*', '/']))

/-- A lexeme ends before a character, or before the end of the source: a slash that is code opens no
comment, no quote follows a literal, and a comment that goes to the end of its line does so. -/
def EndsBefore : Lexeme → Option Char → Prop
  | .code c, next => c = '/' → next ≠ some '/' ∧ next ≠ some '*'
  | .literal _ _, next => next ≠ some '"'
  | .comment text, next => ['/', '/'] <+: text → next = none ∨ next = some '\n'

instance (l : Lexeme) (next : Option Char) : Decidable (l.EndsBefore next) :=
  match l with
  | .code c => inferInstanceAs (Decidable (c = '/' → next ≠ some '/' ∧ next ≠ some '*'))
  | .literal _ _ => inferInstanceAs (Decidable (next ≠ some '"'))
  | .comment text =>
      inferInstanceAs (Decidable (['/', '/'] <+: text → next = none ∨ next = some '\n'))

/-- A text block in which three quotes stand in a row, the last two of them perhaps those that close
it. -/
def ClosesEarly : Lexeme → Prop
  | .literal quote body => quote = blockQuotes ∧ blockQuotes <:+: body ++ ['"', '"']
  | _ => False

instance (l : Lexeme) : Decidable l.ClosesEarly :=
  match l with
  | .literal quote body =>
      inferInstanceAs (Decidable (quote = blockQuotes ∧ blockQuotes <:+: body ++ ['"', '"']))
  | .code _ | .comment _ => inferInstanceAs (Decidable False)

end Lexeme

/-- Lexemes as the language forms them, each of which ends where the next one starts. -/
structure IsLexed (ls : List Lexeme) : Prop where
  java : ∀ l ∈ ls, l.IsJava
  ends : ls.IsChain fun l m => l.EndsBefore m.source.head?

/-- Text without quotes, each character a lexeme of its own. -/
theorem isJava_of_mem_map_code {s : List Char} (h : ∀ c ∈ s, c ≠ '"' ∧ c ≠ '\'') :
    ∀ l ∈ s.map Lexeme.code, l.IsJava := by
  intro l hl
  obtain ⟨c, hc, rfl⟩ := List.mem_map.mp hl
  exact .code (h c hc).1 (h c hc).2

/-! ## Finding one lexeme -/

/-- The first occurrence of a closing text is the one that was put there. -/
theorem upTo?_append {close body : List Char} (hclose : close ≠ []) (rest : List Char) :
    upTo? close (body ++ close ++ rest) = some body ↔ ¬ close <:+: body ++ close.dropLast := by
  induction body with
  | nil =>
      have hshort : ¬ close <:+: close.dropLast := fun hinfix => by
        have hle := hinfix.length_le
        have hpos := List.length_pos_of_ne_nil hclose
        rw [List.length_dropLast] at hle
        omega
      obtain ⟨c, more, rfl⟩ := List.exists_cons_of_ne_nil hclose
      have hprefix : (c :: more).isPrefixOf (c :: (more ++ rest)) = true :=
        List.isPrefixOf_iff_prefix.mpr (List.prefix_append (c :: more) rest)
      simp only [List.nil_append, List.cons_append, upTo?, hprefix, if_true, true_iff]
      exact hshort
  | cons c body ih =>
      have hinside : close.isPrefixOf (c :: (body ++ close ++ rest)) = true ↔
          close <+: c :: (body ++ close.dropLast) := by
        rw [List.isPrefixOf_iff_prefix]
        have hbegins : c :: (body ++ close.dropLast) <+: c :: (body ++ close ++ rest) := by
          obtain ⟨last, hlast⟩ := List.dropLast_prefix close
          refine ⟨last ++ rest, ?_⟩
          rw [List.cons_append, List.append_assoc, ← List.append_assoc close.dropLast, hlast,
            List.append_assoc]
        have hlong : close.length ≤ (c :: (body ++ close.dropLast)).length := by
          simp only [List.length_cons, List.length_append, List.length_dropLast]
          omega
        exact ⟨fun h => List.prefix_of_prefix_length_le h hbegins hlong, fun h => h.trans hbegins⟩
      rw [List.cons_append, List.cons_append, upTo?, List.cons_append, List.infix_cons_iff, ← hinside,
        not_or, ← ih]
      by_cases hfound : close.isPrefixOf (c :: (body ++ close ++ rest)) = true
      · rw [if_pos hfound]
        simp only [hfound, not_true, false_and, iff_false]
        exact fun h => List.cons_ne_nil _ _ (Option.some.inj h).symm
      · rw [if_neg hfound, and_iff_right hfound, Option.map_eq_some_iff]
        exact ⟨fun ⟨_, hrest, heq⟩ => (List.cons.inj heq).2 ▸ hrest, fun h => ⟨body, h, rfl⟩⟩

/-- What stands between two quotes is found, up to the closing one. -/
theorem quotedBody?_append {quote : Char} {body : List Char} (hquote : quote ≠ '\\')
    (h : Quoted quote body) (rest : List Char) :
    quotedBody? quote (body ++ quote :: rest) = some body := by
  induction h with
  | nil =>
      rw [List.nil_append, quotedBody?.eq_3 _ _ _ fun _ _ hback _ => hquote hback]
      simp
  | @plain c rest' hne hback hline _ ih =>
      rw [List.cons_append, quotedBody?.eq_3 _ _ _ fun _ _ hc _ => hback hc, ih]
      simp [hne, hback, hline]
  | escape hline _ ih =>
      rw [List.cons_append, List.cons_append, quotedBody?, ih]
      simp [hline]

/-- A text that starts with no three quotes starts with no text block. -/
theorem textBlockAt?_eq_none {s : List Char} (h : ¬ blockQuotes <+: s) : textBlockAt? s = none := by
  unfold textBlockAt?
  split
  · next rest => exact absurd (List.prefix_append blockQuotes rest) h
  · rfl

/-- What starts with neither a quote nor a slash is code. -/
theorem lexemeAt?_eq_none {c : Char} {rest : List Char} (hdouble : c ≠ '"') (hsingle : c ≠ '\'')
    (hslash : c = '/' → rest.head? ≠ some '/' ∧ rest.head? ≠ some '*') :
    lexemeAt? (c :: rest) = none := by
  have hblock : textBlockAt? (c :: rest) = none :=
    textBlockAt?_eq_none fun hprefix => hdouble (List.cons_prefix_cons.mp hprefix).1.symm
  have hstring : stringAt? (c :: rest) = none := by simp [stringAt?, hdouble]
  have hcharacter : characterAt? (c :: rest) = none := by simp [characterAt?, hsingle]
  have hcomment : commentAt? (c :: rest) = none := by
    unfold commentAt?
    split
    · next heq =>
      obtain ⟨hc, rfl⟩ := List.cons.inj heq
      exact absurd rfl (hslash hc).1
    · next heq =>
      obtain ⟨hc, rfl⟩ := List.cons.inj heq
      exact absurd rfl (hslash hc).2
    · rfl
  simp [lexemeAt?, hblock, hstring, hcharacter, hcomment]

theorem lexemeAt?_string {body rest : List Char} (h : Quoted '"' body) (hnext : rest.head? ≠ some '"') :
    lexemeAt? ('"' :: body ++ '"' :: rest) = some (.literal ['"'] body) := by
  have hblock : textBlockAt? ('"' :: body ++ '"' :: rest) = none := by
    refine textBlockAt?_eq_none fun hprefix => ?_
    -- Either the body starts with no quote, or it is empty and no quote follows the literal.
    have hprefix := (List.cons_prefix_cons.mp hprefix).2
    cases h with
    | nil =>
        obtain ⟨more, hmore⟩ := (List.cons_prefix_cons.mp hprefix).2
        exact hnext (by rw [← hmore]; rfl)
    | plain hne _ _ _ => exact hne (List.cons_prefix_cons.mp hprefix).1.symm
    | escape _ _ => exact absurd (List.cons_prefix_cons.mp hprefix).1 (by decide)
  have hstring : stringAt? ('"' :: body ++ '"' :: rest) = some (.literal ['"'] body) := by
    rw [List.cons_append, stringAt?, quotedBody?_append (by decide) h]
    rfl
  simp only [lexemeAt?, hblock, hstring]
  rfl

theorem lexemeAt?_character {body : List Char} (h : Quoted '\'' body) (hbody : body ≠ [])
    (rest : List Char) :
    lexemeAt? ('\'' :: body ++ '\'' :: rest) = some (.literal ['\''] body) := by
  have hblock : textBlockAt? ('\'' :: body ++ '\'' :: rest) = none :=
    textBlockAt?_eq_none fun hprefix => absurd (List.cons_prefix_cons.mp hprefix).1 (by decide)
  have hstring : stringAt? ('\'' :: body ++ '\'' :: rest) = none := rfl
  have hcharacter :
      characterAt? ('\'' :: body ++ '\'' :: rest) = some (.literal ['\''] body) := by
    rw [List.cons_append, characterAt?, quotedBody?_append (by decide) h]
    cases body with
    | nil => exact absurd rfl hbody
    | cons c body => rfl
  simp only [lexemeAt?, hblock, hstring, hcharacter]
  rfl

/-- A text block is found as it is formed exactly if it does not close early. -/
theorem lexemeAt?_textBlock (body rest : List Char) :
    lexemeAt? (blockQuotes ++ body ++ blockQuotes ++ rest) = some (.literal blockQuotes body) ↔
      ¬ (Lexeme.literal blockQuotes body).ClosesEarly := by
  have hfound : upTo? blockQuotes (body ++ blockQuotes ++ rest) = some body ↔
      ¬ blockQuotes <:+: body ++ blockQuotes.dropLast := upTo?_append (by decide) rest
  have hblock : textBlockAt? (blockQuotes ++ body ++ blockQuotes ++ rest) =
      (upTo? blockQuotes (body ++ blockQuotes ++ rest)).map (.literal blockQuotes) := rfl
  have hearly : (Lexeme.literal blockQuotes body).ClosesEarly ↔
      blockQuotes <:+: body ++ blockQuotes.dropLast := by
    simp [Lexeme.ClosesEarly, blockQuotes]
  rw [hearly, ← hfound, lexemeAt?, hblock]
  cases hup : upTo? blockQuotes (body ++ blockQuotes ++ rest) with
  | some found => simp
  | none =>
      -- Without closing quotes there would be an empty string.
      have hstring :
          stringAt? (blockQuotes ++ body ++ blockQuotes ++ rest) = some (.literal ['"'] []) := rfl
      rw [hstring]
      exact ⟨fun h => (by cases h), fun h => (by cases h)⟩

/-- What starts with a slash is no literal. -/
theorem lexemeAt?_slash (rest : List Char) : lexemeAt? ('/' :: rest) = commentAt? ('/' :: rest) := by
  have hblock : textBlockAt? ('/' :: rest) = none :=
    textBlockAt?_eq_none fun hprefix => absurd (List.cons_prefix_cons.mp hprefix).1 (by decide)
  have hstring : stringAt? ('/' :: rest) = none := rfl
  have hcharacter : characterAt? ('/' :: rest) = none := rfl
  simp [lexemeAt?, hblock, hstring, hcharacter]

theorem lexemeAt?_lineComment {body rest : List Char} (hbody : '\n' ∉ body)
    (hrest : rest.head? = none ∨ rest.head? = some '\n') :
    lexemeAt? ('/' :: '/' :: body ++ rest) = some (.comment ('/' :: '/' :: body)) := by
  have hline : (body ++ rest).takeWhile (· ≠ '\n') = body := by
    have hinside : ∀ c ∈ body, decide (c ≠ '\n') = true := fun c hc =>
      decide_eq_true fun heq => hbody (heq ▸ hc)
    rw [List.takeWhile_append_of_pos hinside]
    cases rest with
    | nil => exact List.append_nil _
    | cons c rest =>
        obtain rfl : c = '\n' := by simpa using hrest
        exact List.append_nil _
  rw [List.cons_append, List.cons_append, lexemeAt?_slash, commentAt?, hline]

/-- Two texts have the closing mark of a comment together only if one of them has it, or the first one
ends with its star and the second one starts with its slash. -/
theorem not_closing_append {s t : List Char} (hs : ¬ ['*', '/'] <:+: s) (ht : ¬ ['*', '/'] <:+: t)
    (hcut : s.getLast? = some '*' → t.head? ≠ some '/') : ¬ ['*', '/'] <:+: s ++ t := by
  induction s with
  | nil => exact ht
  | cons c s ih =>
      rw [List.infix_cons_iff, not_or] at hs
      rw [List.cons_append, List.infix_cons_iff]
      cases s with
      | nil =>
          rintro (hstart | hlater)
          · obtain ⟨rfl, behind, rfl⟩ := List.cons_prefix_cons.mp hstart
            exact hcut rfl rfl
          · exact ht hlater
      | cons d s =>
          rintro (hstart | hlater)
          · obtain ⟨rfl, hslash⟩ := List.cons_prefix_cons.mp hstart
            obtain ⟨rfl, -⟩ := List.cons_prefix_cons.mp hslash
            exact hs.1 ⟨s, rfl⟩
          · exact ih hs.2 (fun hlast => hcut (by rwa [List.getLast?_cons_cons])) hlater

theorem lexemeAt?_blockComment {body : List Char} (hbody : ¬ ['*', '/'] <:+: body)
    (rest : List Char) :
    lexemeAt? ('/' :: '*' :: body ++ ['*', '/'] ++ rest) =
      some (.comment ('/' :: '*' :: body ++ ['*', '/'])) := by
  -- The star of the closing mark begins no closing mark together with the text before it.
  have hinside : ¬ ['*', '/'] <:+: body ++ ['*'] :=
    not_closing_append hbody (by decide) fun _ => by decide
  have hup : upTo? ['*', '/'] (body ++ ['*', '/'] ++ rest) = some body :=
    (upTo?_append (by decide) rest).mpr hinside
  rw [List.cons_append, List.cons_append, List.cons_append, List.cons_append, lexemeAt?_slash,
    commentAt?, hup]
  rfl

/-! ## Finding all -/

namespace Lexeme

theorem IsJava.source_ne_nil {l : Lexeme} (h : l.IsJava) : l.source ≠ [] := by
  cases h with
  | code _ _ | string _ | character _ _ | textBlock _ | lineComment _ | blockComment _ =>
      exact List.cons_ne_nil _ _

end Lexeme

/-- What is no code is found where it starts. -/
theorem head?_lexemesFrom_iff {s : List Char} {l : Lexeme} (hl : ∀ c, l ≠ .code c) :
    (lexemesFrom 0 s).head? = some l ↔ lexemeAt? s = some l := by
  cases s with
  | nil => exact ⟨fun h => (by cases h), fun h => (by cases h)⟩
  | cons c rest =>
      rw [lexemesFrom]
      cases lexemeAt? (c :: rest) with
      | some m => simp
      | none => simpa using (hl c).symm

/-- **One lexeme is found as it is formed**, exactly if it is no text block that closes early. -/
theorem head?_lexemesFrom_source {l : Lexeme} {rest : List Char} (hjava : l.IsJava)
    (hends : l.EndsBefore rest.head?) :
    (lexemesFrom 0 (l.source ++ rest)).head? = some l ↔ ¬ l.ClosesEarly := by
  cases hjava with
  | @code c hdouble hsingle =>
      have hnone : lexemeAt? (c :: rest) = none := lexemeAt?_eq_none hdouble hsingle hends
      rw [Lexeme.source, List.singleton_append, lexemesFrom, hnone]
      simp [Lexeme.ClosesEarly]
  | string hbody =>
      rw [head?_lexemesFrom_iff fun _ h => (by cases h)]
      simpa [Lexeme.ClosesEarly, Lexeme.source, blockQuotes] using lexemeAt?_string hbody hends
  | character hbody hne =>
      rw [head?_lexemesFrom_iff fun _ h => (by cases h)]
      simpa [Lexeme.ClosesEarly, Lexeme.source, blockQuotes] using lexemeAt?_character hbody hne rest
  | textBlock _ =>
      rw [head?_lexemesFrom_iff fun _ h => (by cases h)]
      exact lexemeAt?_textBlock _ rest
  | @lineComment body hbody =>
      rw [head?_lexemesFrom_iff fun _ h => (by cases h)]
      simpa [Lexeme.ClosesEarly, Lexeme.source] using
        lexemeAt?_lineComment hbody (hends (List.prefix_append ['/', '/'] body))
  | blockComment hbody =>
      rw [head?_lexemesFrom_iff fun _ h => (by cases h)]
      simpa [Lexeme.ClosesEarly, Lexeme.source] using lexemeAt?_blockComment hbody rest

theorem lexemesFrom_append (skipped rest : List Char) :
    lexemesFrom skipped.length (skipped ++ rest) = lexemesFrom 0 rest := by
  induction skipped with
  | nil => rfl
  | cons c skipped ih => exact ih

/-- Behind the first lexeme the next ones are found. -/
theorem lexemesFrom_source {l : Lexeme} {rest : List Char} (hne : l.source ≠ [])
    (h : (lexemesFrom 0 (l.source ++ rest)).head? = some l) :
    lexemesFrom 0 (l.source ++ rest) = l :: lexemesFrom 0 rest := by
  obtain ⟨c, more, hsource⟩ := List.exists_cons_of_ne_nil hne
  rw [hsource, List.cons_append, lexemesFrom] at h ⊢
  cases hat : lexemeAt? (c :: (more ++ rest)) with
  | some m =>
      rw [hat] at h
      obtain rfl := Option.some.inj h
      simp only [hsource, List.length_cons, Nat.add_sub_cancel]
      rw [lexemesFrom_append]
  | none =>
      rw [hat] at h
      obtain rfl := Option.some.inj h
      obtain rfl := (List.cons.inj hsource).2
      rfl

/-- A lexeme ends before those that follow it. -/
theorem IsLexed.endsBefore {l : Lexeme} {ls : List Lexeme} (h : IsLexed (l :: ls)) :
    l.EndsBefore (ls.flatMap Lexeme.source).head? := by
  cases ls with
  | nil =>
      cases l with
      | code _ => exact fun _ => ⟨by simp, by simp⟩
      | literal _ _ => simp [Lexeme.EndsBefore]
      | comment _ => exact fun _ => .inl rfl
  | cons m ls =>
      have hne := (h.java m (by simp)).source_ne_nil
      rw [List.flatMap_cons, List.head?_append_of_ne_nil _ hne]
      exact (List.isChain_cons_cons.mp h.ends).1

theorem IsLexed.tail {l : Lexeme} {ls : List Lexeme} (h : IsLexed (l :: ls)) : IsLexed ls :=
  ⟨fun m hm => h.java m (List.mem_cons_of_mem _ hm), h.ends.tail⟩

/-- **The lexemes of a source are those it is made of**, exactly if no text block closes early. -/
theorem lexemes_source_iff {ls : List Lexeme} (h : IsLexed ls) :
    lexemes (ls.flatMap Lexeme.source) = ls ↔ ∀ l ∈ ls, ¬ l.ClosesEarly := by
  unfold lexemes
  induction ls with
  | nil => simp [lexemesFrom]
  | cons l ls ih =>
      have hjava := h.java l List.mem_cons_self
      have hhead := head?_lexemesFrom_source hjava h.endsBefore
      rw [List.flatMap_cons, List.forall_mem_cons, ← ih h.tail, ← hhead]
      constructor
      · intro heq
        have hl : (lexemesFrom 0 (l.source ++ ls.flatMap Lexeme.source)).head? = some l := by
          rw [heq]
          rfl
        rw [lexemesFrom_source hjava.source_ne_nil hl] at heq
        exact ⟨hl, (List.cons.inj heq).2⟩
      · rintro ⟨hl, hrest⟩
        rw [lexemesFrom_source hjava.source_ne_nil hl, hrest]

end TextProviders.Source
