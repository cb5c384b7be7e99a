import TextProviders.Proofs.Literal.RoundTrip

/-!
# A literal inside a source

The first phase of the reading runs over a whole source, so what a literal is read as could depend on
what stands around it: on backslashes just before it, or on a Unicode escape that is not at its end
yet.  A blank in front of the literal keeps both away (`endsAtBlank`), and behind the
closing quote any character but a quote will do.

Main statement: `readsAs_quoteChars`, the literal of a text that stands behind a blank and in front of
a semicolon is read as that text, in every source of which the rest can be read at all.
-/

namespace TextProviders.Literal

/-- Between two parts of a source that can be translated, a literal is translated on its own, and the
second phase reads it as a text and stops at its end. -/
def ReadsAs (before literal after s : List Char) : Prop :=
  ∀ us vs, translate false before = some us → translate false after = some vs →
    ∃ ls, translate false (before ++ literal ++ after) = some (us ++ ls) ∧
      ∃ body, readLiteral ls = some (body, vs) ∧ ofUnits? body = some s

/-! ## A blank ends what stands before it -/

theorem readUnit?_eq_none {s : List Char} (hu : ∀ rest, s ≠ 'u' :: rest) (h : ' ' ∈ s.take 4) :
    readUnit? s = none := by
  rw [readUnit?.eq_def]
  split
  · next rest => exact absurd rfl (hu rest)
  · next a b c d rest _ =>
    obtain ⟨before, after, hsplit⟩ := List.append_of_mem h
    have hdigits : [a, b, c, d] = before ++ ' ' :: after := hsplit
    rw [hdigits, Text.digitsValue?_eq_none (by decide)]
    rfl
  · rfl

/-- Whether four digits stand in front of a blank does not depend on what stands behind it. -/
theorem readUnit?_blank (s : List Char) :
    (∃ u after, after.length ≤ s.length ∧
        ∀ rest, readUnit? (s ++ ' ' :: rest) = some (u, after ++ ' ' :: rest)) ∨
      ∀ rest, readUnit? (s ++ ' ' :: rest) = none := by
  induction s with
  | nil => exact .inr fun rest => readUnit?_eq_none (by simp) (by simp)
  | cons c s ih =>
      by_cases hc : c = 'u'
      · subst hc
        rcases ih with ⟨u, after, hlength, hread⟩ | hnone
        · exact .inl ⟨u, after, Nat.le_succ_of_le hlength, fun rest => by
            rw [List.cons_append, readUnit?, hread]⟩
        · exact .inr fun rest => by rw [List.cons_append, readUnit?, hnone]
      · have hu : ∀ s rest, c :: s ≠ 'u' :: rest := fun _ _ h => hc (List.cons.inj h).1
        -- With fewer than three characters behind, the blank would be one of the digits.
        rcases s with _ | ⟨d, _ | ⟨e, _ | ⟨f, s⟩⟩⟩
        · exact .inr fun rest => readUnit?_eq_none (hu _) (by simp)
        · exact .inr fun rest => readUnit?_eq_none (hu _) (by simp)
        · exact .inr fun rest => readUnit?_eq_none (hu _) (by simp)
        · have hread : ∀ rest, readUnit? (c :: d :: e :: f :: s ++ ' ' :: rest) =
              (Text.digitsValue? 16 [c, d, e, f]).map (·, s ++ ' ' :: rest) := by
            intro rest
            show readUnit? (c :: d :: e :: f :: (s ++ ' ' :: rest)) = _
            rw [readUnit?]
            exact hc
          cases hvalue : Text.digitsValue? 16 [c, d, e, f] with
          | none => exact .inr fun rest => by rw [hread, hvalue]; rfl
          | some u =>
              refine .inl ⟨u, s, ?_, fun rest => by rw [hread, hvalue]; rfl⟩
              simp only [List.length_cons]
              omega

/-- A text in front of a blank is translated on its own. -/
def EndsAtBlank (odd : Bool) (before rest : List Char) : Prop :=
  translate odd (before ++ ' ' :: rest) =
    (translate odd (before ++ [' '])).bind fun us => (translate false rest).map (us ++ ·)

/-- What comes first is taken alike with the rest and without. -/
theorem map_append_bind (front : List Nat) (x y : Option (List Nat)) :
    ((x.bind fun us => y.map (us ++ ·)).map (front ++ ·)) =
      (x.map (front ++ ·)).bind fun us => y.map (us ++ ·) := by
  cases x with
  | none => rfl
  | some us =>
      show (y.map (us ++ ·)).map (front ++ ·) = y.map (front ++ us ++ ·)
      rw [Option.map_map]
      congr 1
      funext vs
      exact (List.append_assoc _ _ _).symm

/-- The digits of a Unicode escape stand in front of the blank, if they stand anywhere. -/
theorem endsAtBlank_escape {tail rest : List Char}
    (ih : ∀ after, after.length ≤ tail.length → EndsAtBlank false after rest) :
    EndsAtBlank false ('\\' :: 'u' :: tail) rest := by
  show translate false ('\\' :: 'u' :: (tail ++ _)) =
    (translate false ('\\' :: 'u' :: (tail ++ _))).bind _
  rw [translate, if_neg Bool.false_ne_true, translate, if_neg Bool.false_ne_true]
  rcases readUnit?_blank tail with ⟨u, after, hafter, hread⟩ | hnone
  · rw [hread, hread]
    show (translate false (after ++ ' ' :: rest)).map ([u] ++ ·) =
      ((translate false (after ++ [' '])).map ([u] ++ ·)).bind _
    rw [← map_append_bind, ih after hafter]
  · rw [hnone, hnone]
    rfl

theorem endsAtBlank (odd : Bool) (before rest : List Char) : EndsAtBlank odd before rest := by
  induction hn : before.length using Nat.strongRecOn generalizing before odd with
  | _ n ih =>
      cases before with
      | nil =>
          show translate odd (' ' :: rest) = (translate odd [' ']).bind _
          rw [translate_cons (by decide), translate_cons (by decide), translate]
          rfl
      | cons c before =>
          have hlength : before.length < n := hn ▸ Nat.lt_succ_self _
          have hlater := ih _ hlength
          unfold EndsAtBlank at hlater
          by_cases hc : c = '\\'
          · subst hc
            by_cases hu : ∃ tail, before = 'u' :: tail
            · obtain ⟨tail, rfl⟩ := hu
              have htail : tail.length < n := Nat.lt_trans (Nat.lt_succ_self _) hlength
              cases odd with
              | true =>
                  show translate true ('\\' :: 'u' :: (tail ++ _)) =
                    (translate true ('\\' :: 'u' :: (tail ++ _))).bind _
                  rw [translate_odd_u, translate_odd_u, ← map_append_bind, ih _ htail _ tail rfl]
              | false =>
                  refine endsAtBlank_escape fun after hafter => ?_
                  exact ih _ (Nat.lt_of_le_of_lt hafter htail) false after rfl
            · have hplain : ∀ s behind, before ++ ' ' :: s ≠ 'u' :: behind := by
                intro s behind h
                cases before with
                | nil => exact absurd (List.cons.inj h).1 (by decide)
                | cons d tail => exact hu ⟨tail, congrArg (· :: tail) (List.cons.inj h).1⟩
              show translate odd ('\\' :: (before ++ _)) =
                (translate odd ('\\' :: (before ++ _))).bind _
              rw [translate_slash (hplain _), translate_slash (hplain _), ← map_append_bind,
                hlater _ before rfl]
          · show translate odd (c :: (before ++ _)) = (translate odd (c :: (before ++ _))).bind _
            rw [translate_cons hc, translate_cons hc, ← map_append_bind, hlater _ before rfl]

/-! ## A literal behind a blank -/

theorem readsAs_quoteChars (before after s : List Char) :
    ReadsAs (before ++ [' ']) (quoteChars s) (';' :: after) s := by
  intro us vs hbefore hafter
  have hvs : ∀ us, vs ≠ 0x22 :: us := by
    intro us h
    rw [translate_cons (by decide)] at hafter
    obtain ⟨ws, -, hws⟩ := Option.map_eq_some_iff.mp hafter
    rw [h] at hws
    cases hws
  refine ⟨0x22 :: s.flatMap translated ++ 0x22 :: vs, ?_, s.flatMap units,
    readLiteral_translated s hvs, ofUnits?_flatMap_units s⟩
  rw [List.append_assoc, List.append_assoc]
  show translate false (before ++ ' ' :: (quoteChars s ++ ';' :: after)) = _
  rw [endsAtBlank, hbefore, translate_quoteChars, hafter]
  rfl

end TextProviders.Literal
