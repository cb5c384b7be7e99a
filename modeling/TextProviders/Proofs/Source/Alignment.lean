import TextProviders.Proofs.Source.Arguments

/-!
# The two views of a source are aligned

The code of a source and its masked view are put together from slices of the source (`sliced`): what
stands between two tokens goes into both, a comment is one space in both, and of a literal the masked
view has the first and the last characters, its quotes, and as many spaces as are left between them.
These slices are those of the lexemes (`slicedFrom_tokensFrom`), since each token is a prefix of what is
left of the source where it was found (`lexemeAt?_eq_some`).

What a character of the views comes from is a character of the source or a comment (`Origin`).  The main
statement, `views_stay_aligned`, is that both views of any source have the same origins, in order, and
that these are the source.
-/

namespace TextProviders.Source

/-! ## Tokens are slices of the source -/

theorem prefix_of_upTo? {close s body : List Char} (h : upTo? close s = some body) :
    body ++ close <+: s := by
  induction s generalizing body with
  | nil => cases h
  | cons c rest ih =>
      unfold upTo? at h
      split at h
      · next hclose =>
        obtain rfl := Option.some.inj h
        exact List.isPrefixOf_iff_prefix.mp hclose
      · obtain ⟨more, hmore, rfl⟩ := Option.map_eq_some_iff.mp h
        exact List.cons_prefix_cons.mpr ⟨rfl, ih hmore⟩

theorem prefix_of_quotedBody? {quote : Char} {s body : List Char}
    (h : quotedBody? quote s = some body) : body ++ [quote] <+: s := by
  fun_induction quotedBody? quote s generalizing body with
  | case1 => cases h
  | case2 rest => cases h
  | case3 c rest hc ih =>
      obtain ⟨more, hmore, rfl⟩ := Option.map_eq_some_iff.mp h
      exact List.cons_prefix_cons.mpr ⟨rfl, List.cons_prefix_cons.mpr ⟨rfl, ih hmore⟩⟩
  | case4 rest =>
      obtain rfl := Option.some.inj h
      exact List.prefix_append [quote] rest
  | case5 => cases h
  | case6 c rest hquote hother hne ih =>
      obtain ⟨more, hmore, rfl⟩ := Option.map_eq_some_iff.mp h
      exact List.cons_prefix_cons.mpr ⟨rfl, ih hmore⟩

/-- A literal with the quotes that it may have, or a comment. -/
inductive Lexeme.IsToken : Lexeme → Prop
  | literal {quote : List Char} (body : List Char) (h : quote ∈ [['"'], ['\''], blockQuotes]) :
      IsToken (.literal quote body)
  | comment {text : List Char} (h : text ≠ []) : IsToken (.comment text)

theorem Lexeme.IsToken.source_ne_nil {l : Lexeme} (h : l.IsToken) : l.source ≠ [] := by
  cases h with
  | @literal quote body hquote =>
      intro hnil
      obtain rfl : quote = [] := (List.append_eq_nil_iff.mp hnil).2
      exact absurd hquote (by decide)
  | comment htext => exact htext

/-- What is found at the beginning of a source is a token, and the source begins with it. -/
theorem lexemeAt?_eq_some {s : List Char} {l : Lexeme} (h : lexemeAt? s = some l) :
    l.IsToken ∧ l.source <+: s := by
  have hcases : textBlockAt? s = some l ∨ stringAt? s = some l ∨ characterAt? s = some l ∨
      commentAt? s = some l := by
    unfold lexemeAt? at h
    cases hblock : textBlockAt? s with
    | some _ => rw [hblock] at h; exact .inl h
    | none =>
        cases hstring : stringAt? s with
        | some _ => rw [hblock, hstring] at h; exact .inr (.inl h)
        | none =>
            cases hcharacter : characterAt? s with
            | some _ => rw [hblock, hstring, hcharacter] at h; exact .inr (.inr (.inl h))
            | none => rw [hblock, hstring, hcharacter] at h; exact .inr (.inr (.inr h))
  rcases hcases with hblock | hstring | hcharacter | hcomment
  · unfold textBlockAt? at hblock
    split at hblock
    · next rest =>
      obtain ⟨body, hbody, rfl⟩ := Option.map_eq_some_iff.mp hblock
      exact ⟨.literal body (by decide),
        (List.prefix_append_right_inj blockQuotes).mpr (prefix_of_upTo? hbody)⟩
    · cases hblock
  · unfold stringAt? at hstring
    split at hstring
    · next rest =>
      obtain ⟨body, hbody, rfl⟩ := Option.map_eq_some_iff.mp hstring
      exact ⟨.literal body (by decide),
        (List.prefix_append_right_inj ['"']).mpr (prefix_of_quotedBody? hbody)⟩
    · cases hstring
  · unfold characterAt? at hcharacter
    split at hcharacter
    · next rest =>
      split at hcharacter
      · cases hcharacter
      · cases hcharacter
      · next body hne hbody =>
        obtain rfl := Option.some.inj hcharacter
        exact ⟨.literal body (by decide),
          (List.prefix_append_right_inj ['\'']).mpr (prefix_of_quotedBody? hbody)⟩
    · cases hcharacter
  · unfold commentAt? at hcomment
    split at hcomment
    · next rest =>
      obtain rfl := Option.some.inj hcomment
      exact ⟨.comment (List.cons_ne_nil _ _),
        (List.prefix_append_right_inj ['/', '/']).mpr (List.takeWhile_prefix _)⟩
    · next rest =>
      obtain ⟨body, hbody, rfl⟩ := Option.map_eq_some_iff.mp hcomment
      exact ⟨.comment (List.cons_ne_nil _ _),
        (List.prefix_append_right_inj ['/', '*']).mpr (prefix_of_upTo? hbody)⟩
    · cases hcomment

/-- The lexemes that follow the one just found make what is left of the source. -/
theorem flatMap_source_lexemesFrom (skip : Nat) (s : List Char) :
    (lexemesFrom skip s).flatMap Lexeme.source = s.drop skip := by
  induction s generalizing skip with
  | nil => cases skip <;> rfl
  | cons c rest ih =>
      cases skip with
      | succ skip => exact ih skip
      | zero =>
          rw [lexemesFrom]
          cases hfound : lexemeAt? (c :: rest) with
          | none => exact congrArg (c :: ·) (ih 0)
          | some l =>
              obtain ⟨htoken, more, hmore⟩ := lexemeAt?_eq_some hfound
              obtain ⟨d, tail, hsource⟩ := List.exists_cons_of_ne_nil htoken.source_ne_nil
              rw [hsource, List.cons_append] at hmore
              obtain ⟨rfl, rfl⟩ := List.cons.inj hmore
              dsimp only
              rw [List.flatMap_cons, ih, hsource, List.length_cons, Nat.add_sub_cancel,
                List.drop_left, List.drop_zero]
              rfl

/-- **Nothing is lost:** the lexemes of a source make the source. -/
theorem flatMap_source_lexemes (s : List Char) : (lexemes s).flatMap Lexeme.source = s :=
  flatMap_source_lexemesFrom 0 s

theorem isToken_of_mem_lexemesFrom {skip : Nat} {s : List Char} {l : Lexeme}
    (h : l ∈ lexemesFrom skip s) : l.IsToken ∨ ∃ c, l = .code c := by
  induction s generalizing skip with
  | nil => cases skip <;> cases h
  | cons c rest ih =>
      cases skip with
      | succ skip => exact ih h
      | zero =>
          rw [lexemesFrom] at h
          cases hfound : lexemeAt? (c :: rest) with
          | none =>
              rw [hfound] at h
              rcases List.mem_cons.mp h with rfl | hrest
              · exact .inr ⟨c, rfl⟩
              · exact ih hrest
          | some m =>
              rw [hfound] at h
              rcases List.mem_cons.mp h with rfl | hrest
              · exact .inl (lexemeAt?_eq_some hfound).1
              · exact ih hrest

/-! ## The views as slices -/

/-- How many characters at either end of a token are quotes. -/
def Lexeme.quotes : Lexeme → Nat
  | .literal quote _ => if quote = blockQuotes then 3 else 1
  | _ => 0

/-- A text with as many characters at either end as are quotes, and spaces for those that are left. -/
def blankInside (quotes : Nat) (token : List Char) : List Char :=
  token.take quotes ++ List.replicate (token.length - 2 * quotes) ' ' ++
    token.drop (token.length - quotes)

/-- A token where it was found in a source. -/
structure Token where
  start : Nat
  lexeme : Lexeme

/-- The tokens among lexemes, which begin at a place. -/
def tokensFrom (place : Nat) : List Lexeme → List Token
  | [] => []
  | .code _ :: ls => tokensFrom (place + 1) ls
  | l :: ls => ⟨place, l⟩ :: tokensFrom (place + l.source.length) ls

/-- The two views of a source from a place on, token by token: what stands before the token, and the
token. -/
def slicedFrom (source : List Char) (place : Nat) : List Token → List Char × List Char
  | [] => (source.drop place, source.drop place)
  | t :: ts =>
    let between := (source.drop place).take (t.start - place)
    let token := (source.drop t.start).take t.lexeme.source.length
    let (code, masked) := slicedFrom source (t.start + token.length) ts
    match t.lexeme with
    | .comment _ => (between ++ ' ' :: code, between ++ ' ' :: masked)
    | l => (between ++ token ++ code, between ++ blankInside l.quotes token ++ masked)

/-- The two views of a source, put together from slices of it. -/
def sliced (source : List Char) : List Char × List Char :=
  slicedFrom source 0 (tokensFrom 0 (lexemes source))

/-- The slices of a literal add up. -/
theorem blankInside_source {quote : List Char} (body : List Char)
    (h : quote ∈ [['"'], ['\''], blockQuotes]) :
    blankInside (Lexeme.literal quote body).quotes (quote ++ body ++ quote) =
      quote ++ List.replicate body.length ' ' ++ quote := by
  have hquotes : (Lexeme.literal quote body).quotes = quote.length := by
    have hall : ∀ q ∈ [['"'], ['\''], blockQuotes],
        (if q = blockQuotes then 3 else 1) = q.length := by decide
    exact hall quote h
  have hlength : (quote ++ body ++ quote).length = quote.length + body.length + quote.length := by
    simp only [List.length_append]
  have hinside : (quote ++ body ++ quote).length - 2 * quote.length = body.length := by omega
  have hlast : (quote ++ body ++ quote).length - quote.length = (quote ++ body).length := by
    rw [hlength, List.length_append, Nat.add_sub_cancel]
  have hfirst : (quote ++ body ++ quote).take quote.length = quote := by
    rw [List.append_assoc, List.take_left]
  rw [hquotes, blankInside, hinside, hlast, List.drop_left, hfirst]

/-- **The slices are those of the lexemes.**  Some of the code before the next token may be taken
already. -/
theorem slicedFrom_tokensFrom {source : List Char} {place : Nat} {ls : List Lexeme}
    (between : List Char) (hls : ∀ l ∈ ls, l.IsToken ∨ ∃ c, l = .code c)
    (h : source.drop place = between ++ ls.flatMap Lexeme.source) :
    slicedFrom source place (tokensFrom (place + between.length) ls) =
      (between ++ codeOf ls, between ++ maskedOf ls) := by
  induction ls generalizing place between with
  | nil => exact congrArg (fun s => (s, s)) h
  | cons l ls ih =>
      obtain ⟨hl, hrest⟩ := List.forall_mem_cons.mp hls
      have htoken : (source.drop (place + between.length)).take l.source.length = l.source := by
        rw [← List.drop_drop, h, List.drop_left, List.flatMap_cons, List.take_left]
      have hbehind : source.drop (place + between.length + l.source.length) =
          [] ++ ls.flatMap Lexeme.source := by
        rw [← List.drop_drop, ← List.drop_drop, h, List.drop_left, List.flatMap_cons, List.drop_left,
          List.nil_append]
      have hbetween : (source.drop place).take (place + between.length - place) = between := by
        rw [Nat.add_sub_cancel_left, h, List.take_left]
      have hlater := ih [] hrest hbehind
      rw [List.length_nil, Nat.add_zero] at hlater
      cases l with
      | code c =>
          have hcode := ih (between ++ [c]) hrest
            (by rw [h, List.flatMap_cons, List.append_assoc]; rfl)
          rw [List.length_append, List.length_singleton, ← Nat.add_assoc] at hcode
          rw [tokensFrom, hcode]
          simp [codeOf_code]
      | comment text =>
          show slicedFrom source place (⟨_, .comment text⟩ :: tokensFrom _ ls) = _
          rw [slicedFrom]
          dsimp only
          rw [htoken, hbetween, hlater]
          rfl
      | literal quote body =>
          have hquote : quote ∈ [['"'], ['\''], blockQuotes] := by
            rcases hl with ⟨_, hquote⟩ | ⟨c, hc⟩
            · exact hquote
            · cases hc
          show slicedFrom source place (⟨_, .literal quote body⟩ :: tokensFrom _ ls) = _
          rw [slicedFrom]
          dsimp only
          rw [htoken, hbetween, hlater, maskedOf_literal, ← List.singleton_append, codeOf_append,
            codeOf_literal, Lexeme.source, blankInside_source body hquote]
          simp only [List.nil_append, List.append_assoc]

/-- Both views are put together from slices of the source. -/
theorem sliced_eq (source : List Char) : sliced source = (code source, masked source) :=
  slicedFrom_tokensFrom [] (fun _ => isToken_of_mem_lexemesFrom)
    (flatMap_source_lexemes source).symm

/-! ## Where the characters of the views come from -/

/-- What a character of the views comes from. -/
inductive Origin where
  /-- A character that stands in both views. -/
  | plain (c : Char)
  /-- A character between the quotes of a literal. -/
  | hidden (c : Char)
  | comment (text : List Char)
deriving DecidableEq, Repr

/-- The text of the source that a character of the views comes from. -/
def Origin.source : Origin → List Char
  | plain c | hidden c => [c]
  | comment text => text

/-- The character in both views. -/
def Origin.cell : Origin → Cell
  | plain c => ⟨c, c⟩
  | hidden c => ⟨c, ' '⟩
  | comment _ => ⟨' ', ' '⟩

/-- What the characters of a lexeme come from. -/
def Lexeme.origins : Lexeme → List Origin
  | .code c => [.plain c]
  | .literal quote body => quote.map .plain ++ body.map .hidden ++ quote.map .plain
  | .comment text => [.comment text]

/-- What the characters of some lexemes come from. -/
def originsOf (ls : List Lexeme) : List Origin :=
  ls.flatMap Lexeme.origins

theorem map_cell_originsOf (ls : List Lexeme) : (originsOf ls).map Origin.cell = cellsOf ls := by
  have hone (l : Lexeme) : l.origins.map Origin.cell = l.cells := by
    cases l with
    | code _ | comment _ => rfl
    | literal quote body =>
        simp [Lexeme.origins, Lexeme.cells, Function.comp_def, Origin.cell]
  rw [originsOf, cellsOf, List.map_flatMap]
  exact congrArg (List.flatMap · ls) (funext hone)

theorem flatMap_source_originsOf (ls : List Lexeme) :
    (originsOf ls).flatMap Origin.source = ls.flatMap Lexeme.source := by
  have hone (l : Lexeme) : l.origins.flatMap Origin.source = l.source := by
    have hmap (f : Char → Origin) (hf : ∀ c, (f c).source = [c]) (s : List Char) :
        (s.map f).flatMap Origin.source = s := by simp [List.flatMap_map, hf]
    cases l with
    | code _ => rfl
    | comment text => exact List.append_nil text
    | literal quote body =>
        rw [Lexeme.origins, List.flatMap_append, List.flatMap_append, hmap _ fun _ => rfl,
          hmap _ fun _ => rfl]
        rfl
  rw [originsOf, List.flatMap_assoc]
  exact congrArg (List.flatMap · ls) (funext hone)

theorem length_codeOf (ls : List Lexeme) : (codeOf ls).length = (originsOf ls).length := by
  rw [codeOf, List.length_map, ← map_cell_originsOf, List.length_map]

/-- A place in the views of some lexemes that is between the quotes of a literal. -/
def IsHidden (ls : List Lexeme) (i : Nat) : Prop :=
  ∃ before quote body after k, ls = before ++ .literal quote body :: after ∧ k < body.length ∧
    i = (codeOf before).length + quote.length + k

theorem getElem?_origins_literal {quote body : List Char} {i : Nat} {c : Char} :
    (Lexeme.literal quote body).origins[i]? = some (.hidden c) ↔
      ∃ k, body[k]? = some c ∧ i = quote.length + k := by
  rw [Lexeme.origins, List.append_assoc]
  constructor
  · intro h
    by_cases hfirst : i < quote.length
    · rw [List.getElem?_append_left (by simpa using hfirst), List.getElem?_map] at h
      obtain ⟨_, _, hplain⟩ := Option.map_eq_some_iff.mp h
      cases hplain
    rw [List.getElem?_append_right (by simpa using hfirst), List.length_map] at h
    by_cases hinside : i - quote.length < body.length
    · rw [List.getElem?_append_left (by simpa using hinside), List.getElem?_map] at h
      obtain ⟨_, hc, heq⟩ := Option.map_eq_some_iff.mp h
      obtain rfl := Origin.hidden.inj heq
      exact ⟨i - quote.length, hc, by omega⟩
    · rw [List.getElem?_append_right (by simpa using hinside), List.getElem?_map] at h
      obtain ⟨_, _, hplain⟩ := Option.map_eq_some_iff.mp h
      cases hplain
  · rintro ⟨k, hk, rfl⟩
    have hlt : k < body.length := (List.getElem?_eq_some_iff.mp hk).1
    rw [List.getElem?_append_right (by simp), List.length_map, Nat.add_sub_cancel_left,
      List.getElem?_append_left (by simpa using hlt), List.getElem?_map, hk]
    rfl

theorem isHidden_iff {ls : List Lexeme} {i : Nat} :
    IsHidden ls i ↔ ∃ c, (originsOf ls)[i]? = some (.hidden c) := by
  constructor
  · rintro ⟨before, quote, body, after, k, rfl, hk, rfl⟩
    have hinside : (Lexeme.literal quote body).origins[quote.length + k]? = some (.hidden body[k]) :=
      getElem?_origins_literal.mpr ⟨k, List.getElem?_eq_getElem hk, rfl⟩
    refine ⟨body[k], ?_⟩
    rw [length_codeOf, Nat.add_assoc, originsOf, List.flatMap_append, ← originsOf,
      List.getElem?_append_right (Nat.le_add_right _ _), Nat.add_sub_cancel_left, List.flatMap_cons,
      List.getElem?_append_left (List.getElem?_eq_some_iff.mp hinside).1, hinside]
  · rintro ⟨c, h⟩
    induction ls generalizing i with
    | nil => cases h
    | cons l ls ih =>
        rw [originsOf, List.flatMap_cons, ← originsOf] at h
        by_cases hlt : i < l.origins.length
        · rw [List.getElem?_append_left hlt] at h
          cases l with
          | code d =>
              have hmem := List.mem_of_getElem? h
              cases List.mem_singleton.mp hmem
          | comment text =>
              have hmem := List.mem_of_getElem? h
              cases List.mem_singleton.mp hmem
          | literal quote body =>
              obtain ⟨k, hk, rfl⟩ := getElem?_origins_literal.mp h
              refine ⟨[], quote, body, ls, k, rfl, (List.getElem?_eq_some_iff.mp hk).1, ?_⟩
              rw [show codeOf [] = [] from rfl, List.length_nil, Nat.zero_add]
        · have hle : l.origins.length ≤ i := Nat.le_of_not_lt hlt
          rw [List.getElem?_append_right hle] at h
          obtain ⟨before, quote, body, after, k, rfl, hk, hi⟩ := ih h
          refine ⟨l :: before, quote, body, after, k, rfl, hk, ?_⟩
          have hlength : (codeOf (l :: before)).length = l.origins.length + (codeOf before).length := by
            rw [length_codeOf, length_codeOf, originsOf, List.flatMap_cons, List.length_append]
            rfl
          omega

/-! ## Alignment -/

/-- Two views of a source that are aligned with each other and with the source. -/
structure AreAligned (text code masked : List Char) : Prop where
  length : code.length = masked.length
  /-- Between the quotes of a literal the masked view is blank. -/
  hidden : ∀ i, IsHidden (lexemes text) i → masked[i]? = some ' '
  /-- Everywhere else the views are the same. -/
  shown : ∀ i, ¬ IsHidden (lexemes text) i → masked[i]? = code[i]?
  /-- The tokens and what stands between them are the source. -/
  source : (lexemes text).flatMap Lexeme.source = text
  /-- A comment is one space in both views. -/
  comment : ∀ before body after, lexemes text = before ++ .comment body :: after →
    code = codeOf before ++ ' ' :: codeOf after ∧ masked = maskedOf before ++ ' ' :: maskedOf after ∧
      (codeOf before).length = (maskedOf before).length
  /-- A character outside the tokens is in both views, in its place. -/
  character : ∀ before c after, lexemes text = before ++ .code c :: after →
    code = codeOf before ++ c :: codeOf after ∧ masked = maskedOf before ++ c :: maskedOf after ∧
      (codeOf before).length = (maskedOf before).length
  /-- What stands at one place in both views comes from the same part of the source. -/
  span : ∀ place n, ∃ front part back : List Origin,
    text = front.flatMap Origin.source ++ part.flatMap Origin.source ++ back.flatMap Origin.source ∧
      code.take place = front.map (fun o => o.cell.code) ∧
      (code.drop place).take n = part.map (fun o => o.cell.code) ∧
      (masked.drop place).take n = part.map fun o => o.cell.masked

theorem length_maskedOf (ls : List Lexeme) : (maskedOf ls).length = (codeOf ls).length := by
  rw [maskedOf, codeOf, List.length_map, List.length_map]

theorem code_eq_map_origins (text : List Char) :
    code text = (originsOf (lexemes text)).map fun o => o.cell.code := by
  show codeOf (lexemes text) = _
  rw [codeOf, ← map_cell_originsOf, List.map_map]
  rfl

theorem masked_eq_map_origins (text : List Char) :
    masked text = (originsOf (lexemes text)).map fun o => o.cell.masked := by
  show maskedOf (lexemes text) = _
  rw [maskedOf, ← map_cell_originsOf, List.map_map]
  rfl

/-- Before a lexeme of the source both views have come equally far. -/
theorem views_at {text : List Char} {l : Lexeme} {before after : List Lexeme}
    (h : lexemes text = before ++ l :: after) :
    code text = codeOf before ++ codeOf (l :: after) ∧
      masked text = maskedOf before ++ maskedOf (l :: after) ∧
      (codeOf before).length = (maskedOf before).length := by
  rw [show code text = codeOf (lexemes text) from rfl,
    show masked text = maskedOf (lexemes text) from rfl, h, codeOf_append, maskedOf_append]
  exact ⟨rfl, rfl, (length_maskedOf before).symm⟩

theorem exists_span (text : List Char) (place n : Nat) : ∃ front part back : List Origin,
    text = front.flatMap Origin.source ++ part.flatMap Origin.source ++ back.flatMap Origin.source ∧
      (code text).take place = front.map (fun o => o.cell.code) ∧
      ((code text).drop place).take n = part.map (fun o => o.cell.code) ∧
      ((masked text).drop place).take n = part.map fun o => o.cell.masked := by
  have hsource : (originsOf (lexemes text)).flatMap Origin.source = text := by
    rw [flatMap_source_originsOf, flatMap_source_lexemes]
  rw [code_eq_map_origins, masked_eq_map_origins]
  generalize originsOf (lexemes text) = origins at hsource
  refine ⟨origins.take place, (origins.drop place).take n, (origins.drop place).drop n, ?_, ?_, ?_, ?_⟩
  · rw [List.append_assoc, ← List.flatMap_append, List.take_append_drop, ← List.flatMap_append,
      List.take_append_drop, hsource]
  · rw [List.map_take]
  · rw [List.map_take, List.map_drop]
  · rw [List.map_take, List.map_drop]

/-- **The two views of a source stay aligned**, whatever the source, and they are the slices of it. -/
theorem views_stay_aligned (text : List Char) :
    AreAligned text (sliced text).1 (sliced text).2 ∧ sliced text = (code text, masked text) := by
  refine ⟨?_, sliced_eq text⟩
  rw [sliced_eq]
  refine ⟨(length_maskedOf (lexemes text)).symm, fun i hi => ?_, fun i hi => ?_,
    flatMap_source_lexemes text, fun before body after h => views_at h,
    fun before c after h => views_at h, exists_span text⟩
  · obtain ⟨c, hc⟩ := isHidden_iff.mp hi
    rw [masked_eq_map_origins, List.getElem?_map, hc]
    rfl
  · dsimp only
    rw [code_eq_map_origins, masked_eq_map_origins, List.getElem?_map, List.getElem?_map]
    cases ho : (originsOf (lexemes text))[i]? with
    | none => rfl
    | some o =>
        cases o with
        | plain c => rfl
        | comment body => rfl
        | hidden c => exact absurd (isHidden_iff.mpr ⟨c, ho⟩) hi

end TextProviders.Source
