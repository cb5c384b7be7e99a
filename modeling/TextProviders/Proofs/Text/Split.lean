import TextProviders.Text.Split

/-!
# Cutting a text loses nothing

The pieces of a text, put together again with the separator between them, are the text; so a text is
known by its pieces (`splitOn_injective`).  What is added at the end of a text, and holds no separator,
is added to its last piece.  What stands before the last separator are all pieces but the last.
-/

namespace TextProviders.Text

section

variable {α : Type} [DecidableEq α] {sep : α} {s t : List α}

theorem splitOn_eq (sep : α) (s : List α) : splitOn sep s = s.splitOn sep := by
  induction s with
  | nil => rfl
  | cons c rest ih =>
      rw [List.splitOn_cons_eq_if_modifyHead, splitOn, ih]
      have hne := List.splitOn_ne_nil sep rest
      cases hrest : rest.splitOn sep with
      | nil => exact absurd hrest hne
      | cons piece more => simp

theorem intercalate_splitOn (sep : α) (s : List α) : [sep].intercalate (splitOn sep s) = s := by
  rw [splitOn_eq, List.intercalate_splitOn]

theorem splitOn_injective (h : splitOn sep s = splitOn sep t) : s = t := by
  rw [← intercalate_splitOn sep s, h, intercalate_splitOn]

theorem splitOn_ne_nil (sep : α) (s : List α) : splitOn sep s ≠ [] := by
  rw [splitOn_eq]
  exact List.splitOn_ne_nil sep s

theorem splitOn_intercalate {pieces : List (List α)} (hsep : ∀ piece ∈ pieces, sep ∉ piece)
    (hne : pieces ≠ []) : splitOn sep ([sep].intercalate pieces) = pieces := by
  rw [splitOn_eq, List.splitOn_intercalate sep hsep hne]

theorem splitOn_of_not_mem (h : sep ∉ s) : splitOn sep s = [s] := by
  rw [splitOn_eq, List.splitOn_eq_singleton h]

theorem not_mem_of_mem_splitOn {piece : List α} (h : piece ∈ splitOn sep s) : sep ∉ piece := by
  induction s generalizing piece with
  | nil => simp_all [splitOn]
  | cons c rest ih =>
      unfold splitOn at h
      split at h
      · simp only [List.mem_cons] at h
        rcases h with rfl | h
        · simp
        · exact ih h
      · next hc =>
        split at h
        · simp only [List.mem_singleton] at h
          simp [h, Ne.symm hc]
        · next first more hrest =>
          simp only [hrest, List.mem_cons, forall_eq_or_imp] at ih h
          rcases h with rfl | h
          · simp [ih.1, Ne.symm hc]
          · exact ih.2 piece h

/-- A text up to its first separator is its first piece. -/
theorem splitOn_append_cons (h : sep ∉ s) : splitOn sep (s ++ sep :: t) = s :: splitOn sep t := by
  have hjoined : s ++ sep :: t = [sep].intercalate (s :: splitOn sep t) := by
    cases hpieces : splitOn sep t with
    | nil => exact absurd hpieces (splitOn_ne_nil sep t)
    | cons piece more =>
        rw [← intercalate_splitOn sep t, hpieces]
        simp
  rw [hjoined]
  refine splitOn_intercalate (List.forall_mem_cons.mpr ⟨h, ?_⟩) (List.cons_ne_nil _ _)
  exact fun piece hpiece => not_mem_of_mem_splitOn hpiece

/-- What stands in a text stands in one of its pieces, if it is no separator. -/
theorem exists_mem_splitOn {c : α} (h : c ∈ s) (hc : c ≠ sep) : ∃ piece ∈ splitOn sep s, c ∈ piece := by
  induction s with
  | nil => cases h
  | cons d rest ih =>
      unfold splitOn
      split
      · next hd =>
        have hrest : c ∈ rest := (List.mem_cons.mp h).resolve_left fun heq => hc (heq.trans hd)
        obtain ⟨piece, hpiece, hmem⟩ := ih hrest
        exact ⟨piece, List.mem_cons_of_mem _ hpiece, hmem⟩
      · cases hpieces : splitOn sep rest with
        | nil => exact absurd hpieces (splitOn_ne_nil sep rest)
        | cons first more =>
            rcases List.mem_cons.mp h with rfl | hrest
            · exact ⟨c :: first, List.mem_cons_self, List.mem_cons_self⟩
            · obtain ⟨piece, hpiece, hmem⟩ := ih hrest
              rw [hpieces] at hpiece
              rcases List.mem_cons.mp hpiece with rfl | hpiece
              · exact ⟨d :: piece, List.mem_cons_self, List.mem_cons_of_mem _ hmem⟩
              · exact ⟨piece, List.mem_cons_of_mem _ hpiece, hmem⟩

/-- What stands in a piece stands in the text. -/
theorem mem_of_mem_splitOn {piece : List α} {c : α} (h : piece ∈ splitOn sep s) (hc : c ∈ piece) :
    c ∈ s := by
  induction s generalizing piece with
  | nil =>
      rw [List.mem_singleton.mp h] at hc
      exact hc
  | cons d rest ih =>
      unfold splitOn at h
      split at h
      · rcases List.mem_cons.mp h with rfl | hmore
        · cases hc
        · exact List.mem_cons_of_mem _ (ih hmore hc)
      · split at h
        · rw [List.mem_singleton.mp h] at hc
          exact List.mem_cons.mpr (.inl (List.mem_singleton.mp hc))
        · next first more hrest =>
          rw [hrest] at ih
          rcases List.mem_cons.mp h with rfl | hmore
          · rcases List.mem_cons.mp hc with rfl | hfirst
            · exact List.mem_cons_self
            · exact List.mem_cons_of_mem _ (ih List.mem_cons_self hfirst)
          · exact List.mem_cons_of_mem _ (ih (List.mem_cons_of_mem _ hmore) hc)

/-- A text ends in a piece without a separator. -/
theorem exists_splitOn_eq_append (sep : α) (s : List α) :
    ∃ front last, splitOn sep s = front ++ [last] :=
  ⟨_, _, (List.dropLast_concat_getLast (splitOn_ne_nil sep s)).symm⟩

omit [DecidableEq α] in
theorem intercalate_append_singleton (front : List (List α)) (last : List α) :
    [sep].intercalate (front ++ [last]) =
      if front = [] then last else [sep].intercalate front ++ sep :: last := by
  induction front with
  | nil => simp
  | cons piece front ih =>
      cases front with
      | nil => simp
      | cons next front => simp_all

omit [DecidableEq α] in
/-- Each piece but the first comes after a separator. -/
theorem intercalate_cons (piece : List α) (rest : List (List α)) :
    [sep].intercalate (piece :: rest) = piece ++ rest.flatMap (sep :: ·) := by
  induction rest generalizing piece with
  | nil => simp
  | cons next rest ih =>
      rw [List.intercalate_cons_cons, ih, List.flatMap_cons, List.append_assoc]
      rfl

omit [DecidableEq α] in
theorem intercalate_append {front : List (List α)} (hfront : front ≠ []) (back : List (List α)) :
    [sep].intercalate (front ++ back) = [sep].intercalate front ++ back.flatMap (sep :: ·) := by
  cases front with
  | nil => exact absurd rfl hfront
  | cons piece front =>
      rw [List.cons_append, intercalate_cons, intercalate_cons, List.flatMap_append, List.append_assoc]

omit [DecidableEq α] in
/-- Pieces put together have what the pieces have. -/
theorem mem_intercalate {c : α} (hc : c ≠ sep) (pieces : List (List α)) :
    c ∈ [sep].intercalate pieces ↔ ∃ piece ∈ pieces, c ∈ piece := by
  induction pieces with
  | nil => simp
  | cons piece rest ih =>
      cases rest with
      | nil => simp
      | cons next rest =>
          have hjoined : [sep].intercalate (piece :: next :: rest) =
              piece ++ sep :: [sep].intercalate (next :: rest) := by simp
          rw [hjoined, List.mem_append, List.mem_cons, ih]
          simp [hc]

theorem splitOn_append {front : List (List α)} {last : List α} (h : splitOn sep s = front ++ [last])
    (ht : sep ∉ t) : splitOn sep (s ++ t) = front ++ [last ++ t] := by
  have hwhole : s ++ t = [sep].intercalate (front ++ [last ++ t]) := by
    rw [← intercalate_splitOn sep s, h, intercalate_append_singleton, intercalate_append_singleton]
    split <;> simp
  rw [hwhole]
  refine splitOn_intercalate (fun piece hpiece => ?_) (by simp)
  simp only [List.mem_append, List.mem_singleton] at hpiece
  rcases hpiece with hfront | rfl
  · exact not_mem_of_mem_splitOn (s := s) (by simp [h, hfront])
  · have hlast : sep ∉ last := not_mem_of_mem_splitOn (s := s) (by simp [h])
    simp [hlast, ht]

end

section

variable {sep : Char} {s t : List Char}

theorem splitLast_of_not_mem (h : sep ∉ s) : splitLast sep s = ([], s) := by
  cases s with
  | nil => rfl
  | cons c rest =>
      simp only [List.mem_cons, not_or] at h
      simp [splitLast, h.2, Ne.symm h.1]

theorem splitLast_append (h : sep ∉ t) : splitLast sep (s ++ sep :: t) = (s, t) := by
  induction s with
  | nil => simp [splitLast, h]
  | cons c rest ih => simp [splitLast, ih]

/-- What stands before and after the last separator is a part of the text. -/
theorem mem_of_mem_splitLast {c : Char} (h : c ∈ (splitLast sep s).1 ++ (splitLast sep s).2) :
    c ∈ s := by
  induction s with
  | nil => exact h
  | cons d rest ih =>
      rw [splitLast] at h
      split at h
      · rcases List.mem_cons.mp h with rfl | hlater
        · exact List.mem_cons_self
        · exact List.mem_cons_of_mem _ (ih hlater)
      · split at h
        · exact List.mem_cons_of_mem _ h
        · exact h

/-- Before the last separator stand all pieces but the last. -/
theorem splitLast_eq {front : List (List Char)} {last : List Char}
    (h : splitOn sep s = front ++ [last]) :
    splitLast sep s = ([sep].intercalate front, last) := by
  have hlast : sep ∉ last := not_mem_of_mem_splitOn (s := s) (by simp [h])
  rw [← intercalate_splitOn sep s, h, intercalate_append_singleton]
  split
  · next hfront => simp [hfront, splitLast_of_not_mem hlast]
  · exact splitLast_append hlast

end

end TextProviders.Text
