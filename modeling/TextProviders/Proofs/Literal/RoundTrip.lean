import TextProviders.Proofs.Literal.Reading
import TextProviders.Proofs.Text.Digit

/-!
# A written literal is read as its text

`Literal.quote` writes a text as a string literal.  Both phases of the reading go along the text
character by character, and one law for each says what it makes of one written character in front of
anything:

* `translate_encodeChar`: the first phase takes `encodeChar c` to `translated c`, and stands behind
  an even number of backslashes again, which is what lets the next character be read on its own;
* `readBody_translated`: the second phase takes `translated c` to the code units of `c`.

The main statement, `quote_denotes`, says that a literal is one well-formed literal on one line, and
that its value is the text it was written for.
-/

namespace TextProviders.Literal

/-! ## The characters that are escaped -/

theorem shortEscape?_eq_some {c e : Char} (h : shortEscape? c = some e) :
    (c = '\\' ∧ e = '\\') ∨ (c = '"' ∧ e = '"') ∨ (c = '\n' ∧ e = 'n') ∨ (c = '\r' ∧ e = 'r') ∨
      (c = '\t' ∧ e = 't') ∨ (c = '\x08' ∧ e = 'b') ∨ (c = '\x0c' ∧ e = 'f') := by
  unfold shortEscape? at h
  split at h <;> cases h <;> simp

theorem shortEscape?_eq_none {c : Char} (h : shortEscape? c = none) :
    c ≠ '\\' ∧ c ≠ '"' ∧ c ≠ '\n' ∧ c ≠ '\r' := by
  refine ⟨?_, ?_, ?_, ?_⟩ <;> (rintro rfl; cases h)

theorem shortValue?_of_shortEscape? {c e : Char} (h : shortEscape? c = some e) :
    shortValue? e.toNat = some c.toNat ∧ units c = [c.toNat] ∧ e ≠ 'u' := by
  rcases shortEscape?_eq_some h with ⟨rfl, rfl⟩ | ⟨rfl, rfl⟩ | ⟨rfl, rfl⟩ | ⟨rfl, rfl⟩ | ⟨rfl, rfl⟩ |
    ⟨rfl, rfl⟩ | ⟨rfl, rfl⟩ <;> exact ⟨rfl, rfl, by decide⟩

/-- The three ways in which a character is written. -/
theorem encodeChar_cases (c : Char) :
    (∃ e, shortEscape? c = some e ∧ encodeChar c = ['\\', e]) ∨
      (shortEscape? c = none ∧ needsCode c = true ∧
        encodeChar c = '\\' :: 'u' :: Text.hexDigits c.toNat 4) ∨
      (shortEscape? c = none ∧ needsCode c = false ∧ encodeChar c = [c]) := by
  unfold encodeChar
  cases hshort : shortEscape? c with
  | some e => exact .inl ⟨e, rfl, rfl⟩
  | none =>
      cases hcode : needsCode c with
      | true => exact .inr (.inl ⟨rfl, rfl, rfl⟩)
      | false => exact .inr (.inr ⟨rfl, rfl, rfl⟩)

theorem lt_of_needsCode {c : Char} (h : needsCode c = true) : c.toNat < 0x10000 := by
  simp only [needsCode, Bool.or_eq_true, decide_eq_true_eq, beq_iff_eq] at h
  omega

/-! ## The first phase

Behind an even number of backslashes a plain character is taken as it stands.  The two characters of
a short escape are taken one after the other: the backslash makes the number odd, so that the
character behind it, should it be a backslash, opens no Unicode escape with a `u` that follows. -/

/-- The code units of a character as it is written between the quotes, Unicode escapes translated. -/
def translated (c : Char) : List Nat :=
  match shortEscape? c with
  | some e => [0x5c, e.toNat]
  | none => units c

theorem translate_cons {c : Char} (hc : c ≠ '\\') (odd : Bool) (rest : List Char) :
    translate odd (c :: rest) = (translate false rest).map (units c ++ ·) := by
  rw [translate, if_neg hc]
  intro _ h
  exact absurd h hc

theorem translate_slash {rest : List Char} (h : ∀ behind, rest ≠ 'u' :: behind) (odd : Bool) :
    translate odd ('\\' :: rest) = (translate (!odd) rest).map ([0x5c] ++ ·) := by
  rw [translate]
  · rfl
  · intro behind _ hbehind
    exact absurd hbehind (h behind)

theorem translate_odd_u (rest : List Char) :
    translate true ('\\' :: 'u' :: rest) = (translate false rest).map ([0x5c, 0x75] ++ ·) := by
  rw [translate, if_pos rfl]

theorem translate_second_slash (rest : List Char) :
    translate true ('\\' :: rest) = (translate false rest).map ([0x5c] ++ ·) := by
  by_cases h : ∃ behind, rest = 'u' :: behind
  · obtain ⟨behind, rfl⟩ := h
    rw [translate_odd_u, translate_cons (by decide), Option.map_map]
    rfl
  · exact translate_slash (fun behind hbehind => h ⟨behind, hbehind⟩) true

theorem readUnit?_hexDigits {n : Nat} (hn : n < 0x10000) (rest : List Char) :
    readUnit? (Text.hexDigits n 4 ++ rest) = some (n, rest) := by
  have hfirst : Text.hexDigit (n / 16 / 16 / 16 % 16) ≠ 'u' := by
    intro h
    have := (Text.toNat_hexDigit _ (Nat.mod_lt (n / 16 / 16 / 16) (by decide))).2.1
    rw [h] at this
    exact absurd this (by decide)
  have hvalue : Text.digitsValue? 16 (Text.hexDigits n 4) = some n := by
    rw [Text.digitsValue?_hexDigits]
    exact congrArg some (Nat.mod_eq_of_lt hn)
  show readUnit? (Text.hexDigit (n / 16 / 16 / 16 % 16) :: _ :: _ :: _ :: rest) = _
  rw [readUnit?]
  · show (Text.digitsValue? 16 (Text.hexDigits n 4)).map (·, rest) = _
    rw [hvalue]
    rfl
  · exact hfirst

theorem translate_code {n : Nat} (hn : n < 0x10000) (rest : List Char) :
    translate false ('\\' :: 'u' :: Text.hexDigits n 4 ++ rest) =
      (translate false rest).map (n :: ·) := by
  show translate false ('\\' :: 'u' :: (Text.hexDigits n 4 ++ rest)) = _
  rw [translate, if_neg Bool.false_ne_true, readUnit?_hexDigits hn]

theorem translate_encodeChar (c : Char) (rest : List Char) :
    translate false (encodeChar c ++ rest) = (translate false rest).map (translated c ++ ·) := by
  rcases encodeChar_cases c with ⟨e, hshort, hwritten⟩ | ⟨hshort, hcode, hwritten⟩ |
    ⟨hshort, -, hwritten⟩
  · rw [hwritten, translated, hshort]
    show translate false ('\\' :: e :: rest) = _
    have hu : ∀ behind, e :: rest ≠ 'u' :: behind := fun behind h =>
      (shortValue?_of_shortEscape? hshort).2.2 (List.cons.inj h).1
    rw [translate_slash hu false]
    show Option.map _ (translate true (e :: rest)) = _
    by_cases he : e = '\\'
    · rw [he, translate_second_slash, Option.map_map]
      rfl
    · have hunits : units e = [e.toNat] := by
        rcases shortEscape?_eq_some hshort with ⟨-, rfl⟩ | ⟨-, rfl⟩ | ⟨-, rfl⟩ | ⟨-, rfl⟩ |
          ⟨-, rfl⟩ | ⟨-, rfl⟩ | ⟨-, rfl⟩ <;> rfl
      rw [translate_cons he, Option.map_map, hunits]
      rfl
  · have hunits : units c = [c.toNat] := if_pos (lt_of_needsCode hcode)
    rw [hwritten, translated, hshort, hunits]
    exact translate_code (lt_of_needsCode hcode) rest
  · rw [hwritten, translated, hshort]
    exact translate_cons (shortEscape?_eq_none hshort).1 false rest

theorem translate_encode (s rest : List Char) :
    translate false (encode s ++ rest) =
      (translate false rest).map (s.flatMap translated ++ ·) := by
  induction s with
  | nil => exact Option.map_id'.symm ▸ rfl
  | cons c s ih =>
      show translate false (encodeChar c ++ encode s ++ rest) = _
      rw [List.append_assoc, translate_encodeChar, ih, Option.map_map]
      congr 1
      funext us
      show translated c ++ (s.flatMap translated ++ us) = (translated c ++ s.flatMap translated) ++ us
      rw [List.append_assoc]

/-! ## The second phase

No code unit of a character that is not escaped is a quote, a backslash or a line end: that holds of
the character itself, and a surrogate is larger than all of them. -/

theorem readBody_cons {u : Nat} (hquote : u ≠ 0x22) (hline : ¬(u = 0x0a ∨ u = 0x0d))
    (hslash : u ≠ 0x5c) (rest : List Nat) :
    readBody (u :: rest) = (readBody rest).map fun (vs, behind) => (u :: vs, behind) := by
  rw [readBody, if_neg hquote, if_neg hline, if_neg hslash]

theorem readBody_escape {u v : Nat} (h : shortValue? u = some v) (rest : List Nat) :
    readBody (0x5c :: u :: rest) = (readBody rest).map fun (vs, behind) => (v :: vs, behind) := by
  have hread : readEscape? (u :: rest) = some (v, rest) := by
    rw [readEscape?, h]
  rw [readBody, if_neg (by decide), if_neg (by decide), if_pos rfl, hread]

theorem readBody_units {c : Char} (h : c ≠ '\\' ∧ c ≠ '"' ∧ c ≠ '\n' ∧ c ≠ '\r') (rest : List Nat) :
    readBody (units c ++ rest) =
      (readBody rest).map fun (vs, behind) => (units c ++ vs, behind) := by
  have hne : ∀ d : Char, c ≠ d → c.toNat ≠ d.toNat := fun d hd hval => hd (Char.toNat_inj.mp hval)
  obtain ⟨hslash, hquote, hline, hreturn⟩ := h
  unfold units
  split
  · exact readBody_cons (hne _ hquote) (not_or.mpr ⟨hne _ hline, hne _ hreturn⟩) (hne _ hslash) rest
  · show readBody ((0xd800 + _) :: (0xdc00 + _) :: rest) = _
    rw [readBody_cons (by omega) (by omega) (by omega),
      readBody_cons (by omega) (by omega) (by omega), Option.map_map]
    rfl

theorem readBody_translated (c : Char) (rest : List Nat) :
    readBody (translated c ++ rest) =
      (readBody rest).map fun (vs, behind) => (units c ++ vs, behind) := by
  unfold translated
  cases h : shortEscape? c with
  | some e =>
      obtain ⟨hvalue, hunits, -⟩ := shortValue?_of_shortEscape? h
      rw [hunits]
      exact readBody_escape hvalue rest
  | none => exact readBody_units (shortEscape?_eq_none h) rest

theorem readBody_flatMap_translated (s : List Char) (rest : List Nat) :
    readBody (s.flatMap translated ++ 0x22 :: rest) = some (s.flatMap units, rest) := by
  induction s with
  | nil =>
      show readBody (0x22 :: rest) = _
      rw [readBody, if_pos rfl]
      rfl
  | cons c s ih =>
      show readBody (translated c ++ s.flatMap translated ++ 0x22 :: rest) = _
      rw [List.append_assoc, readBody_translated, ih]
      rfl

/-! ## The value -/

theorem ofUnits?_units (c : Char) (us : List Nat) :
    ofUnits? (units c ++ us) = (ofUnits? us).map (c :: ·) := by
  have hvalid : c.toNat.isValidChar := c.valid
  have hof : Char.ofNat c.toNat = c := Char.ofNat_toNat c
  unfold units
  split
  · -- A character below the supplementary ones is no surrogate, whatever stands behind it.
    have hlone : ¬(0xd800 ≤ c.toNat ∧ c.toNat < 0xdc00) := by
      rcases hvalid with h | h <;> omega
    cases us with
    | nil =>
        show (if c.toNat.isValidChar then some [Char.ofNat c.toNat] else none) = _
        rw [if_pos hvalid, hof]
        rfl
    | cons v us =>
        show ofUnits? (c.toNat :: v :: us) = _
        rw [ofUnits?, if_neg (fun h => hlone ⟨h.1, h.2.1⟩), if_pos hvalid, hof]
  · have hlast : c.toNat < 0x110000 := by
      rcases hvalid with h | h <;> omega
    have hjoin : 0x10000 + (0xd800 + (c.toNat - 0x10000) / 0x400 - 0xd800) * 0x400 +
        (0xdc00 + (c.toNat - 0x10000) % 0x400 - 0xdc00) = c.toNat := by
      omega
    show ofUnits? ((0xd800 + _) :: (0xdc00 + _) :: us) = _
    rw [ofUnits?, if_pos (by omega), hjoin, hof]

theorem ofUnits?_flatMap_units (s : List Char) : ofUnits? (s.flatMap units) = some s := by
  induction s with
  | nil => rfl
  | cons c s ih =>
      show ofUnits? (units c ++ s.flatMap units) = _
      rw [ofUnits?_units, ih]
      rfl

theorem translate_quoteChars (s rest : List Char) :
    translate false (quoteChars s ++ rest) =
      (translate false rest).map (0x22 :: s.flatMap translated ++ 0x22 :: ·) := by
  show translate false ('"' :: (encode s ++ ['"'] ++ rest)) = _
  rw [translate_cons (by decide), List.append_assoc, translate_encode]
  show Option.map _ (Option.map _ (translate false ('"' :: rest))) = _
  rw [translate_cons (by decide), Option.map_map, Option.map_map]
  rfl

/-- What is read up to a quote is the body of a literal, as long as no two quotes open a text block
together with a third one. -/
theorem readLiteral_of_readBody {us vs rest : List Nat}
    (h : readBody (us ++ 0x22 :: rest) = some (vs, rest)) (hnext : ∀ ws, rest ≠ 0x22 :: ws) :
    readLiteral (0x22 :: us ++ 0x22 :: rest) = some (vs, rest) := by
  have hfirst : ∀ ws, us ++ 0x22 :: rest ≠ 0x22 :: 0x22 :: ws := by
    intro ws heq
    cases us with
    | nil => exact hnext ws (List.cons.inj heq).2
    | cons u us =>
        -- A second quote at once would be the end of the literal, with more behind it.
        obtain rfl : u = 0x22 := (List.cons.inj heq).1
        rw [List.cons_append, readBody, if_pos rfl] at h
        have hrest : us ++ 0x22 :: rest = rest := (Prod.mk.inj (Option.some.inj h)).2
        have hlength := congrArg List.length hrest
        simp only [List.length_append, List.length_cons] at hlength
        omega
  show readLiteral (0x22 :: (us ++ 0x22 :: rest)) = _
  rw [readLiteral]
  · exact h
  · exact hfirst

theorem readLiteral_translated (s : List Char) {rest : List Nat} (h : ∀ us, rest ≠ 0x22 :: us) :
    readLiteral (0x22 :: s.flatMap translated ++ 0x22 :: rest) = some (s.flatMap units, rest) :=
  readLiteral_of_readBody (readBody_flatMap_translated s rest) h

theorem value?_quoteChars (s : List Char) : value? (quoteChars s) = some s := by
  have htranslate : translate false (quoteChars s) =
      some (0x22 :: s.flatMap translated ++ 0x22 :: []) := by
    have := translate_quoteChars s []
    rw [List.append_nil, translate] at this
    exact this
  rw [value?, htranslate]
  dsimp only
  rw [readLiteral_translated s (fun us h => by cases h)]
  exact ofUnits?_flatMap_units s

/-! ## What stands between the quotes

An escape is complete in itself: behind it, as behind every other character, an even number of
backslashes stands if one stood before it.  A quote is written behind a single backslash, and that
one more backslash makes the number odd. -/

/-- The number of backslashes at the end of a text. -/
def slashesAtEnd (s : List Char) : Nat :=
  (s.reverse.takeWhile (· = '\\')).length

theorem slashesAtEnd_concat (s : List Char) (c : Char) :
    slashesAtEnd (s ++ [c]) = if c = '\\' then slashesAtEnd s + 1 else 0 := by
  rw [slashesAtEnd, List.reverse_append]
  show (List.takeWhile _ (c :: s.reverse)).length = _
  rw [List.takeWhile_cons]
  by_cases hc : c = '\\'
  · rw [if_pos hc, if_pos (decide_eq_true hc)]
    rfl
  · rw [if_neg hc, if_neg (by rwa [decide_eq_true_eq])]
    rfl

theorem even_slashes_encodeChar {before : List Char} (h : slashesAtEnd before % 2 = 0) (c : Char) :
    slashesAtEnd (before ++ encodeChar c) % 2 = 0 := by
  rcases encodeChar_cases c with ⟨e, -, hwritten⟩ | ⟨-, -, hwritten⟩ | ⟨hshort, -, hwritten⟩
  · rw [hwritten, List.append_cons, slashesAtEnd_concat, slashesAtEnd_concat, if_pos rfl]
    split <;> omega
  · have hlast : Text.hexDigit (c.toNat % 16) ≠ '\\' :=
      (Text.toNat_hexDigit _ (Nat.mod_lt _ (by decide))).2.2
    rw [hwritten, Text.hexDigits, ← List.cons_append, ← List.cons_append, ← List.append_assoc,
      slashesAtEnd_concat, if_neg hlast]
  · rw [hwritten, slashesAtEnd_concat, if_neg (shortEscape?_eq_none hshort).1]

theorem even_slashes_encode {before : List Char} (h : slashesAtEnd before % 2 = 0)
    (s : List Char) : slashesAtEnd (before ++ encode s) % 2 = 0 := by
  induction s generalizing before with
  | nil => rwa [encode, List.flatMap_nil, List.append_nil]
  | cons c s ih =>
      show slashesAtEnd (before ++ (encodeChar c ++ encode s)) % 2 = 0
      rw [← List.append_assoc]
      exact ih (even_slashes_encodeChar h c)

/-- What is written for a character stands for itself, and a quote is written for a quote only. -/
theorem needsCode_of_mem_encodeChar {c d : Char} (hd : d ∈ encodeChar c) :
    needsCode d = false ∧ (d = '"' → encodeChar c = ['\\', '"']) := by
  rcases encodeChar_cases c with ⟨e, hshort, hwritten⟩ | ⟨-, -, hwritten⟩ | ⟨hshort, hcode, hwritten⟩
  · rw [hwritten] at hd ⊢
    rcases List.mem_cons.mp hd with rfl | hd
    · exact ⟨rfl, fun h => absurd h (by decide)⟩
    · obtain rfl := List.mem_singleton.mp hd
      refine ⟨?_, fun h => h ▸ rfl⟩
      rcases shortEscape?_eq_some hshort with ⟨-, rfl⟩ | ⟨-, rfl⟩ | ⟨-, rfl⟩ | ⟨-, rfl⟩ | ⟨-, rfl⟩ |
        ⟨-, rfl⟩ | ⟨-, rfl⟩ <;> rfl
  · rw [hwritten] at hd
    rcases List.mem_cons.mp hd with rfl | hd
    · exact ⟨rfl, fun h => absurd h (by decide)⟩
    rcases List.mem_cons.mp hd with rfl | hd
    · exact ⟨rfl, fun h => absurd h (by decide)⟩
    obtain ⟨n, hn, rfl⟩ := Text.mem_hexDigits hd
    obtain ⟨hlow, hhigh, -⟩ := Text.toNat_hexDigit n hn
    refine ⟨?_, fun h => ?_⟩
    · simp only [needsCode, Bool.or_eq_false_iff, decide_eq_false_iff_not, beq_eq_false_iff_ne]
      omega
    · rw [h] at hlow
      exact absurd hlow (by decide)
  · rw [hwritten] at hd
    obtain rfl := List.mem_singleton.mp hd
    exact ⟨hcode, fun h => absurd h (shortEscape?_eq_none hshort).2.1⟩

theorem eq_slash_of_quote {pre behind : List Char} (h : ['\\', '"'] = pre ++ '"' :: behind) :
    pre = ['\\'] := by
  cases pre with
  | nil => exact absurd (List.cons.inj h).1 (by decide)
  | cons a pre =>
      have htail : ['"'] = pre ++ '"' :: behind := (List.cons.inj h).2
      have hlength := congrArg List.length htail
      have hpre : pre.length = 0 := by
        simp only [List.length_append, List.length_cons, List.length_nil] at hlength
        omega
      rw [List.eq_nil_of_length_eq_zero hpre, (List.cons.inj h).1]

/-- A quote that is written for a character of a text has an odd number of backslashes just before
it. -/
theorem odd_slashes_before_quote {before : List Char} (h : slashesAtEnd before % 2 = 0) :
    ∀ {s pre post : List Char}, encode s = pre ++ '"' :: post →
      slashesAtEnd (before ++ pre) % 2 = 1 := by
  intro s
  induction s generalizing before with
  | nil =>
      intro pre post heq
      exact absurd heq.symm (List.append_ne_nil_of_right_ne_nil _ (List.cons_ne_nil _ _))
  | cons c s ih =>
      intro pre post heq
      have hnext := even_slashes_encodeChar h c
      rcases List.append_eq_append_iff.mp (heq : encodeChar c ++ encode s = _) with
        ⟨pre', rfl, hrest⟩ | ⟨behind, hchar, hrest⟩
      · rw [← List.append_assoc]
        exact ih hnext hrest
      · cases behind with
        | nil =>
            rw [List.append_nil] at hchar
            rw [← hchar]
            have hodd : slashesAtEnd (before ++ encodeChar c ++ []) % 2 = 1 := ih hnext hrest.symm
            rwa [List.append_nil] at hodd
        | cons d behind =>
            -- The quote is written for this character, which then is the quote itself.
            obtain ⟨rfl, -⟩ := List.cons.inj hrest
            have hmem : '"' ∈ encodeChar c := hchar ▸ List.mem_append_right _ List.mem_cons_self
            rw [(needsCode_of_mem_encodeChar hmem).2 rfl] at hchar
            rw [eq_slash_of_quote hchar, slashesAtEnd_concat, if_pos rfl]
            omega

/-! ## The literal -/

theorem needsCode_of_mem_quoteChars {s : List Char} {d : Char} (hd : d ∈ quoteChars s) :
    needsCode d = false := by
  rcases List.mem_cons.mp hd with rfl | hd
  · rfl
  rcases List.mem_append.mp hd with hd | hd
  · obtain ⟨c, -, hc⟩ := List.mem_flatMap.mp hd
    exact (needsCode_of_mem_encodeChar hc).1
  · obtain rfl := List.mem_singleton.mp hd
    rfl

/-- A quote of a literal is escaped exactly if it stands between the first and the last. -/
theorem even_slashes_before_quote_iff {s pre post : List Char}
    (h : quoteChars s = pre ++ '"' :: post) :
    slashesAtEnd pre % 2 = 0 ↔ pre = [] ∨ post = [] := by
  have hopen : slashesAtEnd ['"'] % 2 = 0 := rfl
  cases pre with
  | nil => exact ⟨fun _ => .inl rfl, fun _ => rfl⟩
  | cons a pre =>
      obtain rfl : '"' = a := (List.cons.inj h).1
      have hrest : encode s ++ ['"'] = pre ++ '"' :: post := (List.cons.inj h).2
      rcases List.eq_nil_or_concat post with rfl | ⟨post, last, rfl⟩
      · have hbody : encode s = pre := (List.append_inj' hrest rfl).1
        rw [← hbody]
        exact ⟨fun _ => .inr rfl, fun _ => even_slashes_encode hopen s⟩
      · rw [List.concat_eq_append] at hrest ⊢
        rw [← List.cons_append, ← List.append_assoc] at hrest
        have hodd : slashesAtEnd ('"' :: pre) % 2 = 1 :=
          odd_slashes_before_quote hopen (List.append_inj' hrest rfl).1
        constructor
        · intro heven
          omega
        · rintro (hnil | hnil)
          · cases hnil
          · exact absurd hnil (List.append_ne_nil_of_right_ne_nil _ (List.cons_ne_nil _ _))

/-- The literal for a text is one well-formed literal on one line, and its value is the text.  No
control and no line separator stands in it, it begins and ends with a quote, the quotes between
these two are the escaped ones, and its reading in two phases gives the text back. -/
theorem quote_denotes (s : String) :
    (∀ c ∈ (quote s).toList,
      0x20 ≤ c.toNat ∧ c.toNat ≠ 0x7f ∧ c.toNat ≠ 0x2028 ∧ c.toNat ≠ 0x2029) ∧
    (∃ body, (quote s).toList = '"' :: body ++ ['"']) ∧
    (∀ pre post, (quote s).toList = pre ++ '"' :: post →
      (slashesAtEnd pre % 2 = 0 ↔ pre = [] ∨ post = [])) ∧
    value? (quote s).toList = some s.toList := by
  have hchars : (quote s).toList = quoteChars s.toList := String.toList_ofList
  rw [hchars]
  refine ⟨?_, ⟨encode s.toList, rfl⟩, ?_, value?_quoteChars s.toList⟩
  · intro c hc
    have := needsCode_of_mem_quoteChars hc
    simp only [needsCode, Bool.or_eq_false_iff, decide_eq_false_iff_not,
      beq_eq_false_iff_ne] at this
    omega
  · intro pre post h
    exact even_slashes_before_quote_iff h

end TextProviders.Literal
