import TextProviders.Proofs.Literal.InSource

/-!
# A text between quotes as it stands

A text that is put between quotes without being escaped is read as itself exactly if it holds no
quote, no backslash and no line end (`value?_verbatim_iff`).  That it has to be so is a matter of
counting: neither phase of the reading makes more characters than there were, and each makes fewer
wherever there is an escape (`translate_eq_or_lt`, `readBody_eq_or_lt`), so a literal that denotes all
of the text between its quotes has no escape.

Within a source such a literal is read in the same way, behind anything that is translated on its own
(`readsAs_verbatim`).
-/

namespace TextProviders.Literal

/-- A text that a literal may hold as it stands. -/
def IsVerbatim (s : List Char) : Prop :=
  ∀ c ∈ s, c ≠ '"' ∧ c ≠ '\\' ∧ c ≠ '\n' ∧ c ≠ '\r'

instance (s : List Char) : Decidable (IsVerbatim s) :=
  List.decidableBAll (fun c => c ≠ '"' ∧ c ≠ '\\' ∧ c ≠ '\n' ∧ c ≠ '\r') s

/-- The literal that has a text between its quotes as it stands. -/
def verbatim (s : List Char) : List Char :=
  '"' :: s ++ ['"']

/-! ## Counting characters -/

/-- A code unit that starts a character: all but the second halves of pairs. -/
def isFirst (u : Nat) : Bool :=
  u < 0xdc00 || 0xe000 ≤ u

/-- The number of characters that code units encode. -/
def characters (us : List Nat) : Nat :=
  us.countP isFirst

theorem characters_cons (u : Nat) (us : List Nat) :
    characters (u :: us) = characters us + if isFirst u then 1 else 0 :=
  List.countP_cons

theorem characters_cons_le (u : Nat) (us : List Nat) : characters (u :: us) ≤ characters us + 1 := by
  rw [characters_cons]
  split <;> omega

theorem characters_cons_of_isFirst {u : Nat} (h : isFirst u = true) (us : List Nat) :
    characters (u :: us) = characters us + 1 := by
  rw [characters_cons, if_pos h]

theorem characters_append (us vs : List Nat) :
    characters (us ++ vs) = characters us + characters vs :=
  List.countP_append

theorem characters_le_of_suffix {us vs : List Nat} (h : us <:+ vs) : characters us ≤ characters vs :=
  h.sublist.countP_le

theorem isFirst_of_isValidChar {u : Nat} (h : u.isValidChar) : isFirst u = true := by
  simp only [isFirst, Bool.or_eq_true, decide_eq_true_eq]
  rcases h with h | h <;> omega

theorem characters_units_append (c : Char) (us : List Nat) :
    characters (units c ++ us) = characters us + 1 := by
  unfold units
  split
  · exact characters_cons_of_isFirst (isFirst_of_isValidChar c.valid) us
  · have hvalid : c.toNat.isValidChar := c.valid
    have hlast : c.toNat < 0x110000 := by
      rcases hvalid with h | h <;> omega
    have hhigh : isFirst (0xd800 + (c.toNat - 0x10000) / 0x400) = true := by
      simp only [isFirst, Bool.or_eq_true, decide_eq_true_eq]
      omega
    have hlow : isFirst (0xdc00 + (c.toNat - 0x10000) % 0x400) = false := by
      simp only [isFirst, Bool.or_eq_false_iff, decide_eq_false_iff_not]
      omega
    show characters (_ :: _ :: us) = _
    rw [characters_cons_of_isFirst hhigh, characters_cons, hlow]
    rfl

theorem characters_flatMap_units (s : List Char) : characters (s.flatMap units) = s.length := by
  induction s with
  | nil => rfl
  | cons c s ih => rw [List.flatMap_cons, characters_units_append, ih, List.length_cons]

theorem characters_of_ofUnits? {us : List Nat} {s : List Char} (h : ofUnits? us = some s) :
    characters us = s.length := by
  fun_induction ofUnits? us generalizing s with
  | case1 =>
      obtain rfl := Option.some.inj h
      rfl
  | case2 u hu =>
      obtain rfl := Option.some.inj h
      exact characters_cons_of_isFirst (isFirst_of_isValidChar hu) []
  | case3 u hu => cases h
  | case4 u v rest hpair ih =>
      obtain ⟨s, hs, rfl⟩ := Option.map_eq_some_iff.mp h
      have hhigh : isFirst u = true := by
        simp only [isFirst, Bool.or_eq_true, decide_eq_true_eq]
        omega
      have hlow : isFirst v = false := by
        simp only [isFirst, Bool.or_eq_false_iff, decide_eq_false_iff_not]
        omega
      rw [characters_cons_of_isFirst hhigh, characters_cons, hlow, ih hs]
      rfl
  | case5 u v rest hpair hu ih =>
      obtain ⟨s, hs, rfl⟩ := Option.map_eq_some_iff.mp h
      rw [characters_cons_of_isFirst (isFirst_of_isValidChar hu), ih hs]
      rfl
  | case6 u v rest hpair hu => cases h

/-! ## Neither phase makes more characters -/

/-- The first phase gives the code units of the source, or fewer characters. -/
theorem translate_eq_or_lt {odd : Bool} {s : List Char} {us : List Nat}
    (h : translate odd s = some us) : us = s.flatMap units ∨ characters us < s.length := by
  fun_induction translate odd s generalizing us with
  | case1 =>
      obtain rfl := Option.some.inj h
      exact .inl rfl
  | case2 rest ih =>
      obtain ⟨more, hmore, rfl⟩ := Option.map_eq_some_iff.mp h
      rcases ih hmore with rfl | hlt
      · exact .inl rfl
      · refine .inr ?_
        have hslash := characters_cons_le 0x5c (0x75 :: more)
        have hu := characters_cons_le 0x75 more
        show characters (0x5c :: 0x75 :: more) < rest.length + 1 + 1
        omega
  | case3 => cases h
  | case4 odd rest _ u after hread ih =>
      obtain ⟨more, hmore, rfl⟩ := Option.map_eq_some_iff.mp h
      -- The escape is one code unit, and its backslash is gone.
      have hescape := length_of_readUnit? hread
      have hu := characters_cons_le u more
      have hle : characters more ≤ after.length := by
        rcases ih hmore with rfl | hlt
        · exact Nat.le_of_eq (characters_flatMap_units after)
        · exact Nat.le_of_lt hlt
      refine .inr ?_
      simp only [List.length_cons]
      omega
  | case5 odd c rest _ ih =>
      obtain ⟨more, hmore, rfl⟩ := Option.map_eq_some_iff.mp h
      rcases ih hmore with rfl | hlt
      · exact .inl rfl
      · refine .inr ?_
        rw [characters_units_append, List.length_cons]
        omega

theorem suffix_readOctal (sum more : Nat) (us : List Nat) : (readOctal sum more us).2 <:+ us := by
  fun_induction readOctal sum more us with
  | case1 _ _ u rest _ ih => exact ih.trans (List.suffix_cons u rest)
  | case2 => exact List.suffix_rfl
  | case3 => exact List.suffix_rfl

theorem isFirst_of_shortValue? {u v : Nat} (h : shortValue? u = some v) : isFirst u = true := by
  unfold shortValue? at h
  split at h <;> first | rfl | cases h

/-- What follows an escape has fewer characters. -/
theorem characters_of_readEscape? {us after : List Nat} {v : Nat}
    (h : readEscape? us = some (v, after)) : characters after < characters us := by
  unfold readEscape? at h
  split at h
  · cases h
  · next u rest =>
    split at h
    · next hshort =>
      obtain ⟨-, rfl⟩ := Prod.mk.inj (Option.some.inj h)
      rw [characters_cons_of_isFirst (isFirst_of_shortValue? hshort)]
      exact Nat.lt_succ_self _
    · split at h
      · next hoctal =>
        have hafter : after <:+ rest := by
          have hsuffix := suffix_readOctal (u - 0x30) 2 rest
          rwa [Option.some.inj h] at hsuffix
        have hfirst : isFirst u = true := by
          simp only [isOctal, Bool.and_eq_true, decide_eq_true_eq] at hoctal
          simp only [isFirst, Bool.or_eq_true, decide_eq_true_eq]
          omega
        have hle := characters_le_of_suffix hafter
        rw [characters_cons_of_isFirst hfirst]
        omega
      · cases h

/-- The second phase stops at a quote and gives what stands before it, or fewer characters. -/
theorem readBody_eq_or_lt {us vs behind : List Nat} (h : readBody us = some (vs, behind)) :
    (us = vs ++ 0x22 :: behind ∧ ∀ v ∈ vs, v ≠ 0x22 ∧ v ≠ 0x5c ∧ v ≠ 0x0a ∧ v ≠ 0x0d) ∨
      characters vs + 1 + characters behind < characters us := by
  fun_induction readBody us generalizing vs behind with
  | case1 => cases h
  | case2 rest =>
      obtain ⟨rfl, rfl⟩ := Prod.mk.inj (Option.some.inj h)
      exact .inl ⟨rfl, fun v hv => (List.not_mem_nil hv).elim⟩
  | case3 => cases h
  | case4 => cases h
  | case5 rest v after hread _ _ ih =>
      obtain ⟨⟨more, behind'⟩, hmore, hpair⟩ := Option.map_eq_some_iff.mp h
      obtain ⟨rfl, rfl⟩ := Prod.mk.inj hpair
      have hle : characters more + 1 + characters behind' ≤ characters after := by
        rcases ih hmore with ⟨rfl, -⟩ | hlt
        · rw [characters_append, characters_cons_of_isFirst (by decide)]
          omega
        · exact Nat.le_of_lt hlt
      -- The backslash is gone, and something behind it too.
      have hescape := characters_of_readEscape? hread
      have hv := characters_cons_le v more
      refine .inr ?_
      rw [characters_cons_of_isFirst (u := 0x5c) (by decide)]
      omega
  | case6 u rest hquote hline hslash ih =>
      obtain ⟨⟨more, behind'⟩, hmore, hpair⟩ := Option.map_eq_some_iff.mp h
      obtain ⟨rfl, rfl⟩ := Prod.mk.inj hpair
      rcases ih hmore with ⟨rfl, hall⟩ | hlt
      · refine .inl ⟨rfl, List.forall_mem_cons.mpr ⟨?_, hall⟩⟩
        exact ⟨hquote, hslash, fun heq => hline (.inl heq), fun heq => hline (.inr heq)⟩
      · refine .inr ?_
        rw [characters_cons, characters_cons]
        omega

theorem readBody_of_readLiteral {us body behind : List Nat} (h : readLiteral us = some (body, behind)) :
    ∃ rest, us = 0x22 :: rest ∧ readBody rest = some (body, behind) := by
  unfold readLiteral at h
  split at h
  · cases h
  · next rest _ => exact ⟨rest, rfl, h⟩
  · cases h

/-- Only a quote has the code unit of a quote. -/
theorem units_append_ne {c : Char} (h : c ≠ '"') {us vs : List Nat} : units c ++ us ≠ 0x22 :: vs := by
  intro heq
  unfold units at heq
  split at heq
  · exact h (Char.toNat_inj.mp (List.cons.inj heq).1)
  · have hfirst := (List.cons.inj heq).1
    omega

/-! ## Texts that are translated on their own -/

/-- A text that the first phase translates alike in front of anything. -/
def TranslatesTo (s : List Char) (us : List Nat) : Prop :=
  ∀ rest, translate false (s ++ rest) = (translate false rest).map (us ++ ·)

theorem translatesTo_nil : TranslatesTo [] [] :=
  fun _ => Option.map_id'.symm

theorem TranslatesTo.append {s t : List Char} {us vs : List Nat} (hs : TranslatesTo s us)
    (ht : TranslatesTo t vs) : TranslatesTo (s ++ t) (us ++ vs) := by
  intro rest
  rw [List.append_assoc, hs, ht, Option.map_map]
  congr 1
  funext ws
  exact (List.append_assoc us vs ws).symm

theorem TranslatesTo.translate_eq {s : List Char} {us : List Nat} (h : TranslatesTo s us) :
    translate false s = some us := by
  have hwhole := h []
  rw [List.append_nil, translate] at hwhole
  rw [hwhole]
  exact congrArg some (List.append_nil us)

/-- Without a backslash there is nothing to translate. -/
theorem translatesTo_units {s : List Char} (h : '\\' ∉ s) : TranslatesTo s (s.flatMap units) := by
  induction s with
  | nil => exact translatesTo_nil
  | cons c s ih =>
      rw [List.mem_cons, not_or] at h
      have hc : TranslatesTo [c] (units c) := fun rest => translate_cons (Ne.symm h.1) false rest
      exact hc.append (ih h.2)

/-- An escaped text stands behind no backslash of what precedes it, and leaves none behind. -/
theorem translatesTo_quoteChars (s : List Char) :
    TranslatesTo (quoteChars s) (0x22 :: s.flatMap translated ++ [0x22]) := by
  intro rest
  rw [translate_quoteChars]
  congr 1
  funext us
  exact List.append_cons _ _ _

theorem exists_translatesTo_flatMap {α : Type} {f : α → List Char} {parts : List α}
    (h : ∀ a ∈ parts, ∃ us, TranslatesTo (f a) us) : ∃ us, TranslatesTo (parts.flatMap f) us := by
  induction parts with
  | nil => exact ⟨[], translatesTo_nil⟩
  | cons a parts ih =>
      obtain ⟨⟨us, hus⟩, hparts⟩ := List.forall_mem_cons.mp h
      obtain ⟨vs, hvs⟩ := ih hparts
      exact ⟨us ++ vs, hus.append hvs⟩

/-! ## The value of a text between quotes -/

theorem isVerbatim_of_units {s : List Char}
    (h : ∀ u ∈ s.flatMap units, u ≠ 0x22 ∧ u ≠ 0x5c ∧ u ≠ 0x0a ∧ u ≠ 0x0d) : IsVerbatim s := by
  intro c hc
  have hunits : ∀ u ∈ units c, u ≠ 0x22 ∧ u ≠ 0x5c ∧ u ≠ 0x0a ∧ u ≠ 0x0d := fun u hu =>
    h u (List.mem_flatMap.mpr ⟨c, hc, hu⟩)
  refine ⟨?_, ?_, ?_, ?_⟩
  · rintro rfl
    exact (hunits 0x22 List.mem_cons_self).1 rfl
  · rintro rfl
    exact (hunits 0x5c List.mem_cons_self).2.1 rfl
  · rintro rfl
    exact (hunits 0x0a List.mem_cons_self).2.2.1 rfl
  · rintro rfl
    exact (hunits 0x0d List.mem_cons_self).2.2.2 rfl

/-- A literal that denotes all characters between its quotes has them as they stand. -/
theorem isVerbatim_of_value? {s : List Char} (h : value? (verbatim s) = some s) : IsVerbatim s := by
  unfold value? at h
  split at h
  · cases h
  · next us htranslate =>
    split at h
    · next body hread =>
      obtain ⟨rest, rfl, hbody⟩ := readBody_of_readLiteral hread
      have hvalue := characters_of_ofUnits? h
      have hsource : (verbatim s).length = s.length + 2 := by simp [verbatim]
      have hopen : characters (0x22 :: rest) = characters rest + 1 :=
        characters_cons_of_isFirst (by decide) rest
      have hclose : characters body + 1 ≤ characters rest := by
        rcases readBody_eq_or_lt hbody with ⟨rfl, -⟩ | hlt
        · exact Nat.le_of_eq (characters_append body [0x22]).symm
        · exact Nat.le_of_lt (Nat.lt_of_le_of_lt (Nat.le_add_right _ _) hlt)
      -- Neither phase can have made fewer characters, so there was no escape.
      have hunits : 0x22 :: rest = (verbatim s).flatMap units :=
        (translate_eq_or_lt htranslate).resolve_right (by omega)
      have hwhole : characters (0x22 :: rest) = s.length + 2 := by
        rw [hunits, characters_flatMap_units, hsource]
      obtain ⟨rfl, hall⟩ := (readBody_eq_or_lt hbody).resolve_right (by omega)
      have hbodyUnits : body = s.flatMap units := by
        rw [verbatim, List.cons_append, List.flatMap_cons, List.flatMap_append] at hunits
        have hrest : body ++ [0x22] = s.flatMap units ++ [0x22] := (List.cons.inj hunits).2
        exact (List.append_inj' hrest rfl).1
      exact isVerbatim_of_units (hbodyUnits ▸ hall)
    · cases h

section

variable {s : List Char} (h : IsVerbatim s)

include h

theorem readBody_verbatim (rest : List Nat) :
    readBody (s.flatMap units ++ 0x22 :: rest) = some (s.flatMap units, rest) := by
  induction s with
  | nil =>
      show readBody (0x22 :: rest) = _
      rw [readBody, if_pos rfl]
      rfl
  | cons c s ih =>
      obtain ⟨⟨hquote, hslash, hline, hreturn⟩, hs⟩ := List.forall_mem_cons.mp h
      show readBody (units c ++ s.flatMap units ++ 0x22 :: rest) = _
      rw [List.append_assoc, readBody_units ⟨hslash, hquote, hline, hreturn⟩, ih hs]
      rfl

theorem translatesTo_verbatim : TranslatesTo (verbatim s) (0x22 :: s.flatMap units ++ [0x22]) := by
  have hslash : '\\' ∉ verbatim s := by
    intro hmem
    simp only [verbatim, List.mem_append, List.mem_cons, List.not_mem_nil, or_false] at hmem
    rcases hmem with (hfirst | hinside) | hlast
    · cases hfirst
    · exact (h _ hinside).2.1 rfl
    · cases hlast
  have hunits : (verbatim s).flatMap units = 0x22 :: s.flatMap units ++ [0x22] := by
    rw [verbatim, List.flatMap_append]
    rfl
  rw [← hunits]
  exact translatesTo_units hslash

/-- **Such a literal is read as its text in a source**, behind anything that is translated on its own. -/
theorem readsAs_verbatim {before : List Char} {us : List Nat} (hbefore : TranslatesTo before us)
    {after : List Char} (hafter : ∀ vs, translate false after ≠ some (0x22 :: vs)) :
    ReadsAs before (verbatim s) after s := by
  intro us' vs hus' hvs
  obtain rfl : us = us' := Option.some.inj (hbefore.translate_eq.symm.trans hus')
  have hnext : ∀ ws, vs ≠ 0x22 :: ws := fun ws heq => hafter ws (heq ▸ hvs)
  refine ⟨0x22 :: s.flatMap units ++ 0x22 :: vs, ?_, s.flatMap units,
    readLiteral_of_readBody (readBody_verbatim h vs) hnext, ofUnits?_flatMap_units s⟩
  rw [List.append_assoc, hbefore, translatesTo_verbatim h, hvs]
  simp

end

/-- **A text between quotes as it stands denotes itself exactly if it needs no escape.** -/
theorem value?_verbatim_iff (s : List Char) : value? (verbatim s) = some s ↔ IsVerbatim s := by
  refine ⟨isVerbatim_of_value?, fun h => ?_⟩
  have hread := readLiteral_of_readBody (readBody_verbatim h []) fun ws hnil => (by cases hnil)
  rw [value?, (translatesTo_verbatim h).translate_eq]
  dsimp only
  rw [hread]
  exact ofUnits?_flatMap_units s

end TextProviders.Literal
