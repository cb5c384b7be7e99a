import TextProviders.Text.Utf8

/-!
# Reading and writing UTF-8 are inverse to each other

The main statement, `decode_eq_ok_iff`, says that bytes are read as a text exactly if they are the
bytes of that text.  Both directions go along the text one character at a time: what is read from
one complete sequence is the character that is written as that sequence, and the other way round.
-/

namespace TextProviders.Text.Utf8

/-! ## The classes of bytes -/

theorem tailLength?_eq_some_iff {b : UInt8} {n : Nat} :
    tailLength? b = some n ↔
      (n = 0 ∧ b.toNat < 0x80) ∨ (n = 1 ∧ 0xc2 ≤ b.toNat ∧ b.toNat < 0xe0) ∨
        (n = 2 ∧ 0xe0 ≤ b.toNat ∧ b.toNat < 0xf0) ∨ (n = 3 ∧ 0xf0 ≤ b.toNat ∧ b.toNat < 0xf5) := by
  unfold tailLength?
  dsimp only
  repeat' split
  all_goals simp only [Option.some.injEq, reduceCtorEq, false_iff]
  all_goals omega

theorem isSecond_iff {b second : UInt8} :
    isSecond b second = true ↔
      0x80 ≤ second.toNat ∧ second.toNat ≤ 0xbf ∧ (b.toNat = 0xe0 → 0xa0 ≤ second.toNat) ∧
        (b.toNat = 0xf0 → 0x90 ≤ second.toNat) ∧ (b.toNat = 0xed → second.toNat ≤ 0x9f) ∧
        (b.toNat = 0xf4 → second.toNat ≤ 0x8f) := by
  simp only [isSecond, Bool.and_eq_true, decide_eq_true_eq]
  repeat' split
  all_goals omega

theorem isLater_iff {b : UInt8} : isLater b = true ↔ 0x80 ≤ b.toNat ∧ b.toNat ≤ 0xbf := by
  simp only [isLater, Bool.and_eq_true, decide_eq_true_eq]

/-- The second byte and the later ones are six bits behind the mark `10`. -/
theorem toNat_of_isLater {b : UInt8} (h : isLater b = true) :
    b.toNat = 0x80 + bits b ∧ bits b < 0x40 := by
  have hrange := isLater_iff.mp h
  unfold bits
  omega

theorem isLater_of_isSecond {b second : UInt8} (h : isSecond b second = true) :
    isLater second = true := by
  obtain ⟨hlow, hhigh, -⟩ := isSecond_iff.mp h
  exact isLater_iff.mpr ⟨hlow, hhigh⟩

theorem toNat_ofNat {n : Nat} (h : n < 0x100) : (UInt8.ofNat n).toNat = n := by
  rw [UInt8.toNat_ofNat']
  exact Nat.mod_eq_of_lt h

theorem ofNat_eq {n : Nat} {b : UInt8} (h : n = b.toNat) : UInt8.ofNat n = b := by
  rw [h, UInt8.ofNat_toNat]

/-! ## The bytes of a character, by their count -/

theorem encodeChar_of_lt {c : Char} (h : c.toNat < 0x80) :
    encodeChar c = [UInt8.ofNat c.toNat] :=
  if_pos h

theorem encodeChar_of_two {c : Char} (hlow : 0x80 ≤ c.toNat) (hhigh : c.toNat < 0x800) :
    encodeChar c = [UInt8.ofNat (0xc0 + c.toNat / 0x40), UInt8.ofNat (0x80 + c.toNat % 0x40)] := by
  unfold encodeChar
  rw [if_neg (by omega), if_pos hhigh]

theorem encodeChar_of_three {c : Char} (hlow : 0x800 ≤ c.toNat) (hhigh : c.toNat < 0x10000) :
    encodeChar c =
      [UInt8.ofNat (0xe0 + c.toNat / 0x1000), UInt8.ofNat (0x80 + c.toNat / 0x40 % 0x40),
        UInt8.ofNat (0x80 + c.toNat % 0x40)] := by
  unfold encodeChar
  rw [if_neg (by omega), if_neg (by omega), if_pos hhigh]

theorem encodeChar_of_four {c : Char} (hlow : 0x10000 ≤ c.toNat) :
    encodeChar c =
      [UInt8.ofNat (0xf0 + c.toNat / 0x40000), UInt8.ofNat (0x80 + c.toNat / 0x1000 % 0x40),
        UInt8.ofNat (0x80 + c.toNat / 0x40 % 0x40), UInt8.ofNat (0x80 + c.toNat % 0x40)] := by
  unfold encodeChar
  rw [if_neg (by omega), if_neg (by omega), if_neg (by omega)]

/-! ## What is read is what was written

The character that a complete sequence is read as is written as that sequence. -/

theorem toNat_char {n : Nat} (h : n.isValidChar) : (Char.ofNat n).toNat = n := by
  rw [Char.ofNat, dif_pos h]
  rfl

theorem encodeChar_one {b : UInt8} (hb : tailLength? b = some 0) :
    encodeChar (Char.ofNat b.toNat) = [b] := by
  have hfirst := tailLength?_eq_some_iff.mp hb
  have hval := toNat_char (n := b.toNat) (.inl (by omega))
  rw [encodeChar_of_lt (by omega), hval, ofNat_eq rfl]

theorem encodeChar_two {b b2 : UInt8} {n : Nat} (hn : n = (b.toNat - 0xc0) * 0x40 + bits b2)
    (hb : tailLength? b = some 1) (h2 : isSecond b b2 = true) :
    encodeChar (Char.ofNat n) = [b, b2] := by
  have hfirst : 0xc2 ≤ b.toNat ∧ b.toNat < 0xe0 := by
    have := tailLength?_eq_some_iff.mp hb
    omega
  have hbits := toNat_of_isLater (isLater_of_isSecond h2)
  have hval := toNat_char (n := n) (.inl (by omega))
  have hb : UInt8.ofNat (0xc0 + n / 0x40) = b := ofNat_eq (by omega)
  have hb2 : UInt8.ofNat (0x80 + n % 0x40) = b2 := ofNat_eq (by omega)
  rw [encodeChar_of_two (by omega) (by omega), hval, hb, hb2]

theorem encodeChar_three {b b2 b3 : UInt8} {n : Nat}
    (hn : n = (b.toNat - 0xe0) * 0x1000 + bits b2 * 0x40 + bits b3)
    (hb : tailLength? b = some 2) (h2 : isSecond b b2 = true) (h3 : isLater b3 = true) :
    encodeChar (Char.ofNat n) = [b, b2, b3] := by
  have hfirst : 0xe0 ≤ b.toNat ∧ b.toNat < 0xf0 := by
    have := tailLength?_eq_some_iff.mp hb
    omega
  have hbits2 := toNat_of_isLater (isLater_of_isSecond h2)
  have hbits3 := toNat_of_isLater h3
  -- The second byte keeps overlong forms and surrogates out.
  have hrange : 0x800 ≤ n ∧ n < 0x10000 ∧ n.isValidChar := by
    obtain ⟨-, -, hlong, -, hsurrogate, -⟩ := isSecond_iff.mp h2
    unfold Nat.isValidChar
    omega
  have hval := toNat_char hrange.2.2
  have hb : UInt8.ofNat (0xe0 + n / 0x1000) = b := ofNat_eq (by omega)
  have hb2 : UInt8.ofNat (0x80 + n / 0x40 % 0x40) = b2 := ofNat_eq (by omega)
  have hb3 : UInt8.ofNat (0x80 + n % 0x40) = b3 := ofNat_eq (by omega)
  rw [encodeChar_of_three (by omega) (by omega), hval, hb, hb2, hb3]

theorem encodeChar_four {b b2 b3 b4 : UInt8} {n : Nat}
    (hn : n = (b.toNat - 0xf0) * 0x40000 + bits b2 * 0x1000 + bits b3 * 0x40 + bits b4)
    (hb : tailLength? b = some 3) (h2 : isSecond b b2 = true) (h3 : isLater b3 = true)
    (h4 : isLater b4 = true) : encodeChar (Char.ofNat n) = [b, b2, b3, b4] := by
  have hfirst : 0xf0 ≤ b.toNat ∧ b.toNat < 0xf5 := by
    have := tailLength?_eq_some_iff.mp hb
    omega
  have hbits2 := toNat_of_isLater (isLater_of_isSecond h2)
  have hbits3 := toNat_of_isLater h3
  have hbits4 := toNat_of_isLater h4
  -- The second byte keeps overlong forms out, and what is too large.
  have hrange : 0x10000 ≤ n ∧ n < 0x110000 := by
    obtain ⟨-, -, -, hlong, -, hlarge⟩ := isSecond_iff.mp h2
    omega
  have hval := toNat_char (n := n) (.inr (by omega))
  have hb : UInt8.ofNat (0xf0 + n / 0x40000) = b := ofNat_eq (by omega)
  have hb2 : UInt8.ofNat (0x80 + n / 0x1000 % 0x40) = b2 := ofNat_eq (by omega)
  have hb3 : UInt8.ofNat (0x80 + n / 0x40 % 0x40) = b3 := ofNat_eq (by omega)
  have hb4 : UInt8.ofNat (0x80 + n % 0x40) = b4 := ofNat_eq (by omega)
  rw [encodeChar_of_four (by omega), hval, hb, hb2, hb3, hb4]

/-- One character in front of what the rest of the bytes is read as. -/
theorem eq_append_of_map {c : Char} {read rest left : List UInt8} {s : List Char}
    {result : Except Fault (List Char × List UInt8)} (hread : encodeChar c = read)
    (ih : ∀ {s left}, result = .ok (s, left) → rest = encode s ++ left)
    (h : (result.map fun (s, left) => (c :: s, left)) = .ok (s, left)) :
    read ++ rest = encode s ++ left := by
  cases result with
  | error fault => cases h
  | ok answer =>
      obtain ⟨s', left'⟩ := answer
      cases h
      rw [ih rfl, ← hread]
      exact (List.append_assoc _ _ _).symm

theorem eq_encode_append_of_decodeBlock {position : Nat} {bytes : List UInt8} {s : List Char}
    {left : List UInt8} (h : decodeBlock position bytes = .ok (s, left)) :
    bytes = encode s ++ left := by
  fun_induction decodeBlock position bytes generalizing s left with
  | case1 => cases h; rfl
  | case2 => cases h
  | case3 _ b _ hb ih => exact eq_append_of_map (encodeChar_one hb) ih h
  | case4 => cases h; rfl
  | case5 => cases h
  | case6 _ b b2 _ h2 _ hb ih =>
      rw [Bool.not_eq_true, Bool.not_eq_false'] at h2
      exact eq_append_of_map (encodeChar_two rfl hb h2) ih h
  | case7 => cases h; rfl
  | case8 => cases h
  | case9 _ b b2 h2 b3 _ h3 _ hb _ ih =>
      rw [Bool.not_eq_true, Bool.not_eq_false'] at h2 h3
      exact eq_append_of_map (encodeChar_three rfl hb h2 h3) ih h
  | case10 => cases h; rfl
  | case11 => cases h
  | case12 _ b tail hzero hb b2 h2 hone b3 h3 htwo b4 _ h4 ih =>
      rw [Bool.not_eq_true, Bool.not_eq_false'] at h2 h3 h4
      have hthree : tail = 3 := by
        have hcases := tailLength?_eq_some_iff.mp hb
        have hpositive : tail ≠ 0 := hzero
        omega
      exact eq_append_of_map (encodeChar_four rfl (hthree ▸ hb) h2 h3 h4) ih h

/-! ## What is written is read again -/

theorem decodeBlock_one (position : Nat) {b : UInt8} (hb : tailLength? b = some 0)
    (rest : List UInt8) :
    decodeBlock position (b :: rest) =
      (decodeBlock (position + 1) rest).map fun (s, left) => (Char.ofNat b.toNat :: s, left) := by
  rw [decodeBlock, hb]
  rfl

theorem decodeBlock_two (position : Nat) {b b2 : UInt8} (hb : tailLength? b = some 1)
    (h2 : isSecond b b2 = true) (rest : List UInt8) :
    decodeBlock position (b :: b2 :: rest) =
      (decodeBlock (position + 2) rest).map fun (s, left) =>
        (Char.ofNat ((b.toNat - 0xc0) * 0x40 + bits b2) :: s, left) := by
  rw [decodeBlock, hb]
  simp only [h2, Bool.not_true, Bool.false_eq_true, if_false, if_true]

theorem decodeBlock_three (position : Nat) {b b2 b3 : UInt8} (hb : tailLength? b = some 2)
    (h2 : isSecond b b2 = true) (h3 : isLater b3 = true) (rest : List UInt8) :
    decodeBlock position (b :: b2 :: b3 :: rest) =
      (decodeBlock (position + 3) rest).map fun (s, left) =>
        (Char.ofNat ((b.toNat - 0xe0) * 0x1000 + bits b2 * 0x40 + bits b3) :: s, left) := by
  rw [decodeBlock, hb]
  simp only [h2, h3, Bool.not_true, Bool.false_eq_true, if_false, if_true, Nat.reduceEqDiff]

theorem decodeBlock_four (position : Nat) {b b2 b3 b4 : UInt8} (hb : tailLength? b = some 3)
    (h2 : isSecond b b2 = true) (h3 : isLater b3 = true) (h4 : isLater b4 = true)
    (rest : List UInt8) :
    decodeBlock position (b :: b2 :: b3 :: b4 :: rest) =
      (decodeBlock (position + 4) rest).map fun (s, left) =>
        (Char.ofNat ((b.toNat - 0xf0) * 0x40000 + bits b2 * 0x1000 + bits b3 * 0x40 + bits b4) :: s,
          left) := by
  rw [decodeBlock, hb]
  simp only [h2, h3, h4, Bool.not_true, Bool.false_eq_true, if_false, Nat.reduceEqDiff]

/-- A later byte of a character. -/
theorem later_byte (n : Nat) :
    (UInt8.ofNat (0x80 + n % 0x40)).toNat = 0x80 + n % 0x40 ∧
      bits (UInt8.ofNat (0x80 + n % 0x40)) = n % 0x40 ∧
      isLater (UInt8.ofNat (0x80 + n % 0x40)) = true := by
  have hval : (UInt8.ofNat (0x80 + n % 0x40)).toNat = 0x80 + n % 0x40 := toNat_ofNat (by omega)
  refine ⟨hval, ?_, ?_⟩
  · rw [bits, hval]
    omega
  · rw [isLater_iff, hval]
    omega

section

variable (position : Nat) {c : Char} (rest : List UInt8)

theorem decodeBlock_encodeChar_one (hhigh : c.toNat < 0x80) :
    decodeBlock position (encodeChar c ++ rest) =
      (decodeBlock (position + 1) rest).map fun (s, left) => (c :: s, left) := by
  have hfirst : (UInt8.ofNat c.toNat).toNat = c.toNat := toNat_ofNat (by omega)
  have hb : tailLength? (UInt8.ofNat c.toNat) = some 0 := by
    rw [tailLength?_eq_some_iff, hfirst]
    exact .inl ⟨rfl, hhigh⟩
  rw [encodeChar_of_lt hhigh]
  refine (decodeBlock_one position hb rest).trans ?_
  rw [hfirst, Char.ofNat_toNat]

theorem decodeBlock_encodeChar_two (hlow : 0x80 ≤ c.toNat) (hhigh : c.toNat < 0x800) :
    decodeBlock position (encodeChar c ++ rest) =
      (decodeBlock (position + 2) rest).map fun (s, left) => (c :: s, left) := by
  obtain ⟨hlast, hlastBits, -⟩ := later_byte c.toNat
  have hfirst : (UInt8.ofNat (0xc0 + c.toNat / 0x40)).toNat = 0xc0 + c.toNat / 0x40 :=
    toNat_ofNat (by omega)
  have hb : tailLength? (UInt8.ofNat (0xc0 + c.toNat / 0x40)) = some 1 := by
    rw [tailLength?_eq_some_iff, hfirst]
    omega
  have h2 : isSecond (UInt8.ofNat (0xc0 + c.toNat / 0x40))
      (UInt8.ofNat (0x80 + c.toNat % 0x40)) = true := by
    rw [isSecond_iff, hfirst, hlast]
    omega
  have hval : (0xc0 + c.toNat / 0x40 - 0xc0) * 0x40 + c.toNat % 0x40 = c.toNat := by omega
  rw [encodeChar_of_two hlow hhigh]
  refine (decodeBlock_two position hb h2 rest).trans ?_
  rw [hfirst, hlastBits, hval, Char.ofNat_toNat]

theorem decodeBlock_encodeChar_three (hlow : 0x800 ≤ c.toNat) (hhigh : c.toNat < 0x10000) :
    decodeBlock position (encodeChar c ++ rest) =
      (decodeBlock (position + 3) rest).map fun (s, left) => (c :: s, left) := by
  have hvalid : c.toNat < 0xd800 ∨ 0xdfff < c.toNat ∧ c.toNat < 0x110000 := c.valid
  obtain ⟨-, hlastBits, hlastLater⟩ := later_byte c.toNat
  obtain ⟨hmid, hmidBits, -⟩ := later_byte (c.toNat / 0x40)
  have hfirst : (UInt8.ofNat (0xe0 + c.toNat / 0x1000)).toNat = 0xe0 + c.toNat / 0x1000 :=
    toNat_ofNat (by omega)
  have hb : tailLength? (UInt8.ofNat (0xe0 + c.toNat / 0x1000)) = some 2 := by
    rw [tailLength?_eq_some_iff, hfirst]
    omega
  have h2 : isSecond (UInt8.ofNat (0xe0 + c.toNat / 0x1000))
      (UInt8.ofNat (0x80 + c.toNat / 0x40 % 0x40)) = true := by
    rw [isSecond_iff, hfirst, hmid]
    omega
  have hval : (0xe0 + c.toNat / 0x1000 - 0xe0) * 0x1000 + c.toNat / 0x40 % 0x40 * 0x40 +
      c.toNat % 0x40 = c.toNat := by omega
  rw [encodeChar_of_three hlow hhigh]
  refine (decodeBlock_three position hb h2 hlastLater rest).trans ?_
  rw [hfirst, hmidBits, hlastBits, hval, Char.ofNat_toNat]

theorem decodeBlock_encodeChar_four (hlow : 0x10000 ≤ c.toNat) :
    decodeBlock position (encodeChar c ++ rest) =
      (decodeBlock (position + 4) rest).map fun (s, left) => (c :: s, left) := by
  have hvalid : c.toNat < 0xd800 ∨ 0xdfff < c.toNat ∧ c.toNat < 0x110000 := c.valid
  obtain ⟨-, hlastBits, hlastLater⟩ := later_byte c.toNat
  obtain ⟨-, hmidBits, hmidLater⟩ := later_byte (c.toNat / 0x40)
  obtain ⟨htop, htopBits, -⟩ := later_byte (c.toNat / 0x1000)
  have hfirst : (UInt8.ofNat (0xf0 + c.toNat / 0x40000)).toNat = 0xf0 + c.toNat / 0x40000 :=
    toNat_ofNat (by omega)
  have hb : tailLength? (UInt8.ofNat (0xf0 + c.toNat / 0x40000)) = some 3 := by
    rw [tailLength?_eq_some_iff, hfirst]
    omega
  have h2 : isSecond (UInt8.ofNat (0xf0 + c.toNat / 0x40000))
      (UInt8.ofNat (0x80 + c.toNat / 0x1000 % 0x40)) = true := by
    rw [isSecond_iff, hfirst, htop]
    omega
  have hval : (0xf0 + c.toNat / 0x40000 - 0xf0) * 0x40000 + c.toNat / 0x1000 % 0x40 * 0x1000 +
      c.toNat / 0x40 % 0x40 * 0x40 + c.toNat % 0x40 = c.toNat := by omega
  rw [encodeChar_of_four hlow]
  refine (decodeBlock_four position hb h2 hmidLater hlastLater rest).trans ?_
  rw [hfirst, htopBits, hmidBits, hlastBits, hval, Char.ofNat_toNat]

end

theorem decodeBlock_encodeChar (position : Nat) (c : Char) (rest : List UInt8) :
    ∃ next, decodeBlock position (encodeChar c ++ rest) =
      (decodeBlock next rest).map fun (s, left) => (c :: s, left) := by
  rcases Nat.lt_or_ge c.toNat 0x80 with hone | hone
  · exact ⟨_, decodeBlock_encodeChar_one position rest hone⟩
  rcases Nat.lt_or_ge c.toNat 0x800 with htwo | htwo
  · exact ⟨_, decodeBlock_encodeChar_two position rest hone htwo⟩
  rcases Nat.lt_or_ge c.toNat 0x10000 with hthree | hthree
  · exact ⟨_, decodeBlock_encodeChar_three position rest htwo hthree⟩
  · exact ⟨_, decodeBlock_encodeChar_four position rest hthree⟩

theorem decodeBlock_encode (position : Nat) (s : List Char) :
    decodeBlock position (encode s) = .ok (s, []) := by
  induction s generalizing position with
  | nil => exact decodeBlock_nil position
  | cons c s ih =>
      obtain ⟨next, hnext⟩ := decodeBlock_encodeChar position c (encode s)
      show decodeBlock position (encodeChar c ++ encode s) = _
      rw [hnext, ih]
      rfl

/-- **Bytes are read as a text exactly if they are the bytes of that text.** -/
theorem decode_eq_ok_iff {bytes : List UInt8} {s : List Char} :
    decode bytes = .ok s ↔ bytes = encode s := by
  constructor
  · intro h
    unfold decode at h
    split at h
    · cases h
    · next s' hblock =>
      cases h
      rw [eq_encode_append_of_decodeBlock hblock, List.append_nil]
    · cases h
  · rintro rfl
    rw [decode, decodeBlock_encode]

/-- Different texts have different bytes. -/
theorem encode_injective {s t : List Char} (h : encode s = encode t) : s = t := by
  have hs : decode (encode t) = .ok s := decode_eq_ok_iff.mpr h.symm
  have ht : decode (encode t) = .ok t := decode_eq_ok_iff.mpr rfl
  exact Except.ok.inj (hs.symm.trans ht)

end TextProviders.Text.Utf8
