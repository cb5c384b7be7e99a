import TextProviders.Source.Scan

/-!
# The masked view decides which types are found

Everything that finds marked types looks at the masked view of a source.  Cells whose code is changed
while their masked character is kept therefore have the same marks, up to that change (`marks_map`), and
a mark that is changed so stands in as many braces, has the same name and states the same visibility.
-/

namespace TextProviders.Source

/-- A type head whose cells are changed. -/
def TypeHead.map (g : Cell → Cell) (h : TypeHead) : TypeHead :=
  ⟨h.head.map g, h.name, h.rest.map g⟩

/-- A mark whose cells are changed. -/
def Mark.map (g : Cell → Cell) (m : Mark) : Mark :=
  ⟨m.before.map g, m.arguments.map g, m.modifiers.map g, m.name⟩

section

variable {g : Cell → Cell} (hg : ∀ c, (g c).masked = c.masked)
include hg

/-! ## What starts here -/

theorem map_masked_map (s : List Cell) : (s.map g).map Cell.masked = s.map Cell.masked := by
  simp [hg]

theorem dropWhile_masked_map (p : Char → Bool) (s : List Cell) :
    (s.map g).dropWhile (fun c => p c.masked) = (s.dropWhile fun c => p c.masked).map g := by
  simp [List.dropWhile_map, Function.comp_def, hg]

theorem takeWhile_masked_map (p : Char → Bool) (s : List Cell) :
    (s.map g).takeWhile (fun c => p c.masked) = (s.takeWhile fun c => p c.masked).map g := by
  simp [List.takeWhile_map, Function.comp_def, hg]

theorem skipBlanks_map (s : List Cell) : skipBlanks (s.map g) = (skipBlanks s).map g :=
  dropWhile_masked_map hg Text.isBlank s

theorem after?_map (word : List Char) (s : List Cell) :
    after? word (s.map g) = (after? word s).map (List.map g) := by
  induction word generalizing s with
  | nil => rfl
  | cons c word ih =>
      cases s with
      | nil => rfl
      | cons cell s =>
          rw [List.map_cons, after?, after?, hg]
          split
          · exact ih s
          · rfl

theorem afterAny?_map (words : List (List Char)) (s : List Cell) :
    afterAny? words (s.map g) = (afterAny? words s).map (List.map g) := by
  unfold afterAny?
  induction words with
  | nil => rfl
  | cons word words ih =>
      rw [List.findSome?_cons, List.findSome?_cons, after?_map hg]
      cases after? word s with
      | none => exact ih
      | some rest => rfl

theorem arguments?_map (s : List Cell) :
    arguments? (s.map g) = (arguments? s).map (Prod.map (List.map g) (List.map g)) := by
  unfold arguments?
  rw [skipBlanks_map hg]
  cases skipBlanks s with
  | nil => rfl
  | cons c rest =>
      simp only [List.map_cons, hg]
      split
      · rw [dropWhile_masked_map hg (· ≠ ')'), takeWhile_masked_map hg (· ≠ ')')]
        cases rest.dropWhile fun c => c.masked ≠ ')' with
        | nil => rfl
        | cons _ after => rfl
      · rfl

/-! ## Modifiers and type heads -/

theorem afterAnnotation_map (s : List Cell) :
    afterAnnotation (s.map g) = ( afterAnnotation s).map (List.map g) := by
  unfold afterAnnotation
  rw [takeWhile_masked_map hg isNameChar]
  dsimp only
  rw [List.isEmpty_map, List.length_map]
  split
  · rfl
  · rw [← List.map_drop, arguments?_map hg, List.map_cons, List.map_map]
    congr 1
    · cases arguments? (s.drop (s.takeWhile fun c => isNameChar c.masked).length) with
      | none => rfl
      | some found => rfl
    · refine List.map_congr_left fun n _ => ?_
      exact (List.map_drop ..).symm

theorem afterModifier_map (s : List Cell) :
    afterModifier (s.map g) = (afterModifier s).map (List.map g) := by
  unfold afterModifier
  rw [skipBlanks_map hg]
  cases skipBlanks s with
  | nil => rfl
  | cons c rest =>
      simp only [List.map_cons, hg]
      split
      · exact afterAnnotation_map hg rest
      · rw [← List.map_cons, afterAny?_map hg, Option.toList_map]

theorem typeHeadAt?_map (s : List Cell) :
    typeHeadAt? (s.map g) = (typeHeadAt? s).map (TypeHead.map g) := by
  unfold typeHeadAt?
  rw [skipBlanks_map hg, afterAny?_map hg]
  cases afterAny? kindWords (skipBlanks s) with
  | none => rfl
  | some tail =>
      simp only [Option.map_some]
      rw [skipBlanks_map hg, takeWhile_masked_map hg Text.isWord]
      simp only [List.length_map, List.isEmpty_map]
      split
      · rfl
      · simp [TypeHead.map, hg, Function.comp_def, List.map_drop]

theorem typeHeadWithin_map (count : Nat) (s : List Cell) :
    typeHeadWithin count (s.map g) = (typeHeadWithin count s).map (TypeHead.map g) := by
  induction count generalizing s with
  | zero => exact typeHeadAt?_map hg s
  | succ count ih =>
      have hfirst : ((afterModifier s).map (List.map g)).findSome? (typeHeadWithin count) =
          ((afterModifier s).findSome? (typeHeadWithin count)).map (TypeHead.map g) := by
        rw [List.findSome?_map, List.map_findSome?]
        exact congrArg (List.findSome? · _) (funext ih)
      rw [typeHeadWithin, typeHeadWithin, afterModifier_map hg, hfirst, typeHeadAt?_map hg]
      cases (afterModifier s).findSome? (typeHeadWithin count) with
      | none => rfl
      | some head => rfl

/-! ## Marks -/

theorem afterMarker?_map (s : List Cell) :
    afterMarker? (s.map g) = (afterMarker? s).map (List.map g) := by
  unfold afterMarker?
  rw [takeWhile_masked_map hg isNameChar]
  dsimp only
  rw [map_masked_map hg]
  split
  · rw [Option.map_some, List.map_drop]
  · rfl

theorem markAt?_map (before s : List Cell) :
    markAt? (before.map g) (s.map g) = (markAt? before s).map (Prod.map (Mark.map g) id) := by
  cases s with
  | nil => rfl
  | cons c rest =>
      rw [List.map_cons, markAt?, markAt?, hg]
      split
      · rw [afterMarker?_map hg]
        cases afterMarker? rest with
        | none => rfl
        | some tail =>
            simp only [Option.map_some]
            have hargs : (arguments? (tail.map g)).getD ([], tail.map g) =
                Prod.map (List.map g) (List.map g) ((arguments? tail).getD ([], tail)) := by
              rw [arguments?_map hg]
              cases arguments? tail with
              | none => rfl
              | some found => rfl
            rw [hargs]
            generalize (arguments? tail).getD ([], tail) = found
            obtain ⟨arguments, tail⟩ := found
            simp only [Prod.map, List.length_map]
            rw [typeHeadWithin_map hg]
            cases typeHeadWithin tail.length tail with
            | none => rfl
            | some head => simp [Mark.map, TypeHead.map, List.map_take]
      · rfl

theorem marksFrom_map (before : List Cell) (skip : Nat) (s : List Cell) :
    marksFrom (before.map g) skip (s.map g) = (marksFrom before skip s).map (Mark.map g) := by
  induction s generalizing before skip with
  | nil =>
      cases skip with
      | zero => rfl
      | succ _ => rfl
  | cons c rest ih =>
      cases skip with
      | succ skip => exact ih (c :: before) skip
      | zero =>
          rw [List.map_cons, marksFrom, marksFrom, ← List.map_cons, markAt?_map hg]
          cases markAt? before (c :: rest) with
          | none => exact ih (c :: before) 0
          | some found => exact congrArg (_ :: ·) (ih (c :: before) (found.2 - 1))

/-- **The marks are found by the masked view.** -/
theorem marks_map (s : List Cell) : marks (s.map g) = (marks s).map (Mark.map g) :=
  marksFrom_map hg [] 0 s

/-! ## What a mark says -/

theorem Mark.isNested_map (m : Mark) : (m.map g).isNested = m.isNested := by
  simp [Mark.isNested, Mark.map, List.countP_map, Function.comp_def, hg]

theorem isModifiersWithin_map (count : Nat) (s : List Cell) :
    isModifiersWithin count (s.map g) = isModifiersWithin count s := by
  induction count generalizing s with
  | zero => rw [isModifiersWithin, isModifiersWithin, skipBlanks_map hg, List.isEmpty_map]
  | succ count ih =>
      rw [isModifiersWithin, isModifiersWithin, skipBlanks_map hg, List.isEmpty_map,
        afterModifier_map hg, List.any_map, show isModifiersWithin count ∘ List.map g = _ from funext ih]

theorem trailingModifiers_map (s : List Cell) :
    trailingModifiers (s.map g) = (trailingModifiers s).map g := by
  induction s with
  | nil => rfl
  | cons c rest ih =>
      have hmodifiers : isModifiers (g c :: rest.map g) = isModifiers (c :: rest) := by
        rw [← List.map_cons, isModifiers, isModifiers, List.length_map, isModifiersWithin_map hg]
      rw [List.map_cons, trailingModifiers, trailingModifiers, hmodifiers]
      split
      · rfl
      · exact ih

theorem Mark.visibility_map (m : Mark) : (m.map g).visibility = m.visibility := by
  have hleading : (m.map g).leading = m.leading.map g := by
    rw [Mark.leading, Mark.leading, ← trailingModifiers_map hg, List.map_reverse]
    exact congrArg (trailingModifiers ·.reverse)
      (takeWhile_masked_map hg (fun c => c ∉ [';', '{', '}']) m.before)
  rw [Mark.visibility, Mark.visibility, hleading, map_masked_map hg]
  exact congrArg (visibilityOf <| _ ++ ' ' :: ·) (map_masked_map hg m.modifiers)

end

end TextProviders.Source
