import TextProviders.Proofs.Source.Lexing
import TextProviders.Source.Mark

/-!
# What a search for marks does not go past

Brackets are balanced if none closes what was not opened and none stays open (`Balanced`).

A semicolon, a brace or a closing parenthesis stops whatever starts before it: neither modifiers nor a
type head go past it, unless an argument list that is open there takes it in (`typeHeadWithin_append`).
So, where every parenthesis that is opened before such a character is closed before it, the marks before
it are found as if nothing followed, and the search goes on there (`marksFrom_append`).
-/

namespace TextProviders.Source

/-! ## Balanced brackets -/

/-- The depth that a text leads to from some depth, unless it closes what was not opened. -/
def depthAfter? (opening closing : Char) : Nat → List Char → Option Nat
  | n, [] => some n
  | n, c :: rest =>
    if c = opening then depthAfter? opening closing (n + 1) rest
    else if c = closing then
      if n = 0 then none else depthAfter? opening closing (n - 1) rest
    else depthAfter? opening closing n rest

/-- Every bracket that is opened is closed, and no other is. -/
def Balanced (opening closing : Char) (s : List Char) : Prop :=
  depthAfter? opening closing 0 s = some 0

instance (opening closing : Char) (s : List Char) : Decidable (Balanced opening closing s) :=
  inferInstanceAs (Decidable (_ = _))

section

variable {opening closing : Char} {s t : List Char}

theorem depthAfter?_append (n : Nat) :
    depthAfter? opening closing n (s ++ t) =
      (depthAfter? opening closing n s).bind fun m => depthAfter? opening closing m t := by
  induction s generalizing n with
  | nil => rfl
  | cons c rest ih =>
      rw [List.cons_append, depthAfter?, depthAfter?]
      split
      · exact ih (n + 1)
      · split
        · split
          · rfl
          · exact ih (n - 1)
        · exact ih n

/-- What was opened is what was closed or is open. -/
theorem count_of_depthAfter? (hne : opening ≠ closing) {n m : Nat}
    (h : depthAfter? opening closing n s = some m) :
    n + s.count opening = m + s.count closing := by
  induction s generalizing n with
  | nil =>
      obtain rfl := Option.some.inj h
      rfl
  | cons c rest ih =>
      rw [depthAfter?] at h
      split at h
      · next hc =>
        have hrest := ih h
        have hclosing : c ≠ closing := hc ▸ hne
        rw [List.count_cons, List.count_cons, if_pos (by simpa using hc),
          if_neg (by simpa using hclosing)]
        omega
      · next hopening =>
        split at h
        · next hc =>
          split at h
          · cases h
          · have hrest := ih h
            rw [List.count_cons, List.count_cons, if_neg (by simpa using hopening),
              if_pos (by simpa using hc)]
            omega
        · next hc =>
          have hrest := ih h
          rw [List.count_cons, List.count_cons, if_neg (by simpa using hopening),
            if_neg (by simpa using hc)]
          omega

theorem Balanced.append (hs : Balanced opening closing s) (ht : Balanced opening closing t) :
    Balanced opening closing (s ++ t) := by
  rw [Balanced, depthAfter?_append, hs]
  exact ht

theorem Balanced.count_eq (hne : opening ≠ closing) (h : Balanced opening closing s) :
    s.count opening = s.count closing := by
  have := count_of_depthAfter? hne h
  omega

/-- No beginning of a balanced text closes more than it opens. -/
theorem Balanced.count_le (hne : opening ≠ closing) (h : Balanced opening closing (s ++ t)) :
    s.count closing ≤ s.count opening := by
  rw [Balanced, depthAfter?_append] at h
  obtain ⟨m, hm, -⟩ := Option.bind_eq_some_iff.mp h
  have := count_of_depthAfter? hne hm
  omega

/-- A text without brackets is balanced. -/
theorem balanced_of_forall (h : ∀ c ∈ s, c ≠ opening ∧ c ≠ closing) : Balanced opening closing s := by
  unfold Balanced
  induction s with
  | nil => rfl
  | cons c rest ih =>
      obtain ⟨hopening, hclosing⟩ := h c List.mem_cons_self
      rw [depthAfter?, if_neg hopening, if_neg hclosing]
      exact ih fun d hd => h d (List.mem_cons_of_mem _ hd)

/-- What is opened in a balanced text is closed behind it. -/
theorem Balanced.closing_mem (hne : opening ≠ closing)
    (h : Balanced opening closing (s ++ opening :: t)) : closing ∈ t := by
  rw [Balanced, depthAfter?_append] at h
  obtain ⟨m, -, hm⟩ := Option.bind_eq_some_iff.mp h
  rw [depthAfter?, if_pos rfl] at hm
  have hcount := count_of_depthAfter? hne hm
  exact List.count_pos_iff.mp (by omega)

end

/-! ## Stops -/

/-- A character that ends what stands before it: no modifier and no type head goes past it. -/
def isStop (c : Char) : Bool :=
  c = ';' || c = '{' || c = '}' || c = ')'

/-- Cells that start with a stop. -/
def Stops (s : List Cell) : Prop :=
  ∃ c rest, s = c :: rest ∧ isStop c.masked = true

/-- Every parenthesis that is opened in some cells is closed in them. -/
def Closes (s : List Cell) : Prop :=
  ∀ before c after, s = before ++ c :: after → c.masked = '(' → ∃ d ∈ after, d.masked = ')'

theorem Closes.of_suffix {s t : List Cell} (h : Closes s) (ht : t <:+ s) : Closes t := by
  obtain ⟨first, rfl⟩ := ht
  intro before c after heq
  exact h (first ++ before) c after (by rw [heq, List.append_assoc])

theorem closes_of_balanced {s : List Cell} (h : Balanced '(' ')' (s.map Cell.masked)) : Closes s := by
  rintro before c after rfl hc
  rw [List.map_append, List.map_cons, hc] at h
  exact List.mem_map.mp (h.closing_mem (by decide))

/-- A cell that closes nothing can be left out at the end. -/
theorem Closes.of_append_singleton {s : List Cell} {c : Cell} (h : Closes (s ++ [c]))
    (hc : c.masked ≠ ')') : Closes s := by
  rintro before d after rfl hd
  obtain ⟨e, he, hclosing⟩ := h before d (after ++ [c]) (by simp) hd
  rcases List.mem_append.mp he with he | he
  · exact ⟨e, he, hclosing⟩
  · obtain rfl := List.mem_singleton.mp he
    exact absurd hclosing hc

theorem isStop_cases {c : Char} (h : isStop c = true) : c = ';' ∨ c = '{' ∨ c = '}' ∨ c = ')' := by
  simpa [isStop, or_assoc] using h

theorem isBlank_of_isStop {c : Char} (h : isStop c = true) : Text.isBlank c = false := by
  rcases isStop_cases h with rfl | rfl | rfl | rfl <;> decide

theorem isNameChar_of_isStop {c : Char} (h : isStop c = true) : isNameChar c = false := by
  rcases isStop_cases h with rfl | rfl | rfl | rfl <;> decide

theorem isWord_of_isStop {c : Char} (h : isStop c = true) : Text.isWord c = false := by
  rcases isStop_cases h with rfl | rfl | rfl | rfl <;> decide

/-- Characters that a test tells apart. -/
theorem ne_of_holds {p : Char → Bool} {c d : Char} (hc : p c = true) (hd : p d = false) : c ≠ d := by
  rintro rfl
  rw [hc] at hd
  cases hd

/-! ## Nothing goes past a stop -/

section

variable {a b : List Cell}

/-- What is dropped from cells ends before a stop that is not dropped. -/
theorem dropWhile_append_of_stops {p : Char → Bool} (hb : Stops b)
    (hp : ∀ c, isStop c = true → p c = false) :
    (a ++ b).dropWhile (fun c => p c.masked) = (a.dropWhile fun c => p c.masked) ++ b := by
  obtain ⟨c, rest, rfl, hc⟩ := hb
  induction a with
  | nil => simp [hp _ hc]
  | cons d a ih =>
      rw [List.cons_append, List.dropWhile_cons, List.dropWhile_cons]
      split
      · exact ih
      · rfl

theorem takeWhile_append_of_stops {p : Char → Bool} (hb : Stops b)
    (hp : ∀ c, isStop c = true → p c = false) :
    (a ++ b).takeWhile (fun c => p c.masked) = a.takeWhile fun c => p c.masked := by
  obtain ⟨c, rest, rfl, hc⟩ := hb
  induction a with
  | nil => simp [hp _ hc]
  | cons d a ih =>
      rw [List.cons_append, List.takeWhile_cons, List.takeWhile_cons, ih]

theorem skipBlanks_append (hb : Stops b) : skipBlanks (a ++ b) = skipBlanks a ++ b :=
  dropWhile_append_of_stops hb fun _ => isBlank_of_isStop

theorem after?_append {word : List Char} (hb : Stops b) (hword : ∀ c ∈ word, isStop c = false) :
    after? word (a ++ b) = (after? word a).map (· ++ b) := by
  induction word generalizing a with
  | nil => rfl
  | cons c word ih =>
      cases a with
      | nil =>
          obtain ⟨d, rest, rfl, hd⟩ := hb
          exact if_neg (ne_of_holds hd (hword c List.mem_cons_self))
      | cons d a =>
          rw [List.cons_append, after?, after?]
          split
          · exact ih fun c hc => hword c (List.mem_cons_of_mem _ hc)
          · rfl

theorem afterAny?_append {words : List (List Char)} (hb : Stops b)
    (hwords : ∀ word ∈ words, ∀ c ∈ word, isStop c = false) :
    afterAny? words (a ++ b) = (afterAny? words a).map (· ++ b) := by
  unfold afterAny?
  induction words with
  | nil => rfl
  | cons word words ih =>
      rw [List.findSome?_cons, List.findSome?_cons,
        after?_append hb (hwords word List.mem_cons_self)]
      cases after? word a with
      | some rest => rfl
      | none => exact ih fun word hword => hwords word (List.mem_cons_of_mem _ hword)

/-- What is taken and dropped from cells in which something is not dropped. -/
theorem span_append_of_mem {p : Cell → Bool} {d : Cell} (b : List Cell) (hd : d ∈ a)
    (hp : p d = false) :
    ∃ e after, a.dropWhile p = e :: after ∧ (a ++ b).dropWhile p = e :: (after ++ b) ∧
      (a ++ b).takeWhile p = a.takeWhile p := by
  induction a with
  | nil => cases hd
  | cons c a ih =>
      simp only [List.cons_append, List.dropWhile_cons, List.takeWhile_cons]
      by_cases hc : p c = true
      · have hd' : d ∈ a := by
          rcases List.mem_cons.mp hd with rfl | hd'
          · rw [hc] at hp
            cases hp
          · exact hd'
        obtain ⟨e, after, hdrop, hdrop', htake⟩ := ih hd'
        exact ⟨e, after, by simpa [hc] using hdrop, by simpa [hc] using hdrop', by simp [hc, htake]⟩
      · exact ⟨c, a, by simp [hc], by simp [hc], by simp [hc]⟩

/-- An argument list that is opened before a stop ends before it. -/
theorem arguments?_append (ha : Closes a) (hb : Stops b) :
    arguments? (a ++ b) = (arguments? a).map fun found => (found.1, found.2 ++ b) := by
  unfold arguments?
  rw [skipBlanks_append hb]
  have hsuffix : skipBlanks a <:+ a := List.dropWhile_suffix _
  cases hskip : skipBlanks a with
  | nil =>
      obtain ⟨c, rest, rfl, hc⟩ := hb
      exact if_neg (ne_of_holds hc (by decide))
  | cons c rest =>
      rw [hskip] at hsuffix
      simp only [List.cons_append]
      split
      · next hparen =>
        obtain ⟨d, hd, hclosing⟩ := ha.of_suffix hsuffix [] c rest rfl hparen
        obtain ⟨e, after, hdrop, hdrop', htake⟩ :=
          span_append_of_mem b hd (p := fun c => c.masked ≠ ')') (by simp [hclosing])
        rw [hdrop, hdrop', htake]
        rfl
      · rfl

/-- What follows an argument list is an end of what it starts in. -/
theorem suffix_of_arguments? {s found after : List Cell} (h : arguments? s = some (found, after)) :
    after <:+ s := by
  unfold arguments? at h
  have hsuffix : skipBlanks s <:+ s := List.dropWhile_suffix _
  split at h
  · cases h
  · next c rest hskip =>
    split at h
    · split at h
      · cases h
      · next e after' hdrop =>
        obtain ⟨-, rfl⟩ := Prod.mk.inj (Option.some.inj h)
        have hrest : after' <:+ rest := by
          refine (List.suffix_cons e after').trans ?_
          rw [← hdrop]
          exact List.dropWhile_suffix _
        exact (hrest.trans (List.suffix_cons c rest)).trans (hskip ▸ hsuffix)
    · cases h

theorem suffix_of_after? {word : List Char} {s rest : List Cell} (h : after? word s = some rest) :
    rest <:+ s := by
  induction word generalizing s with
  | nil =>
      obtain rfl := Option.some.inj h
      exact List.suffix_refl s
  | cons c word ih =>
      cases s with
      | nil => cases h
      | cons d s =>
          rw [after?] at h
          split at h
          · exact (ih h).trans (List.suffix_cons d s)
          · cases h

theorem suffix_of_afterAny? {words : List (List Char)} {s rest : List Cell}
    (h : afterAny? words s = some rest) : rest <:+ s := by
  obtain ⟨word, -, hword⟩ := List.exists_of_findSome?_eq_some h
  exact suffix_of_after? hword

theorem suffix_of_annotation_mem {s t : List Cell} (h : t ∈ afterAnnotation s) : t <:+ s := by
  unfold afterAnnotation at h
  dsimp only at h
  split at h
  · cases h
  · rcases List.mem_cons.mp h with rfl | h
    · cases hargs : arguments? (s.drop (s.takeWhile fun c => isNameChar c.masked).length) with
      | none => exact List.drop_suffix _ s
      | some found => exact (suffix_of_arguments? hargs).trans (List.drop_suffix _ s)
    · obtain ⟨n, -, rfl⟩ := List.mem_map.mp h
      exact List.drop_suffix n s

/-- What follows a modifier or an annotation is an end of what it starts in. -/
theorem suffix_of_mem_afterModifier {s t : List Cell} (h : t ∈ afterModifier s) : t <:+ s := by
  unfold afterModifier at h
  have hsuffix : skipBlanks s <:+ s := List.dropWhile_suffix _
  split at h
  · cases h
  · next c rest hskip =>
    rw [hskip] at hsuffix
    split at h
    · exact (suffix_of_annotation_mem h).trans ((List.suffix_cons c rest).trans hsuffix)
    · exact (suffix_of_afterAny? (Option.mem_toList.mp h)).trans hsuffix

theorem afterAnnotation_append (ha : Closes a) (hb : Stops b) :
    afterAnnotation (a ++ b) = ( afterAnnotation a).map (· ++ b) := by
  unfold afterAnnotation
  dsimp only
  rw [takeWhile_append_of_stops hb fun _ => isNameChar_of_isStop]
  have hname : (a.takeWhile fun c => isNameChar c.masked).length ≤ a.length :=
    (List.takeWhile_prefix _).length_le
  generalize a.takeWhile (fun c => isNameChar c.masked) = name at hname
  split
  · rfl
  · rw [List.drop_append_of_le_length hname, arguments?_append (ha.of_suffix (List.drop_suffix _ a)) hb,
      List.map_cons, List.map_map]
    congr 1
    · cases arguments? (a.drop name.length) with
      | none => rfl
      | some found => rfl
    · refine List.map_congr_left fun n hn => ?_
      have hlt := (List.mem_range'_1.mp (List.mem_reverse.mp hn)).2
      exact List.drop_append_of_le_length (by omega)

/-- The modifiers and annotations that start before a stop end before it. -/
theorem afterModifier_append (ha : Closes a) (hb : Stops b) :
    afterModifier (a ++ b) = (afterModifier a).map (· ++ b) := by
  unfold afterModifier
  rw [skipBlanks_append hb]
  have hsuffix : skipBlanks a <:+ a := List.dropWhile_suffix _
  cases hskip : skipBlanks a with
  | nil =>
      obtain ⟨c, rest, rfl, hc⟩ := hb
      have hnone : afterAny? modifierWords (c :: rest) = none := by
        rw [← List.nil_append (c :: rest), afterAny?_append ⟨c, rest, rfl, hc⟩ (by decide)]
        rfl
      simp [ne_of_holds hc (d := '@') (by decide), hnone]
  | cons c rest =>
      rw [hskip] at hsuffix
      simp only [List.cons_append]
      split
      · exact afterAnnotation_append (ha.of_suffix ((List.suffix_cons c rest).trans hsuffix)) hb
      · rw [← List.cons_append, afterAny?_append hb (by decide), Option.toList_map]

/-- A type head that starts before a stop ends before it. -/
theorem typeHeadAt?_append (hb : Stops b) :
    typeHeadAt? (a ++ b) = (typeHeadAt? a).map fun h => ⟨h.head ++ b, h.name, h.rest ++ b⟩ := by
  unfold typeHeadAt?
  rw [skipBlanks_append hb, afterAny?_append hb (by decide)]
  cases afterAny? kindWords (skipBlanks a) with
  | none => rfl
  | some tail =>
      simp only [Option.map_some]
      rw [skipBlanks_append hb, takeWhile_append_of_stops hb fun _ => isWord_of_isStop]
      have hname : ((skipBlanks tail).takeWhile fun c => Text.isWord c.masked).length ≤
          (skipBlanks tail).length := (List.takeWhile_prefix _).length_le
      simp only [List.length_append, Nat.add_right_cancel_iff]
      split
      · rfl
      · rw [List.drop_append_of_le_length hname]
        rfl

theorem typeHeadWithin_append (count : Nat) (ha : Closes a) (hb : Stops b) :
    typeHeadWithin count (a ++ b) =
      (typeHeadWithin count a).map fun h => ⟨h.head ++ b, h.name, h.rest ++ b⟩ := by
  induction count generalizing a with
  | zero => exact typeHeadAt?_append hb
  | succ count ih =>
      have hfirst : ((afterModifier a).map (· ++ b)).findSome? (typeHeadWithin count) =
          ((afterModifier a).findSome? (typeHeadWithin count)).map
            fun h => ⟨h.head ++ b, h.name, h.rest ++ b⟩ := by
        have hall : ∀ s ∈ afterModifier a, Closes s :=
          fun s hs => ha.of_suffix (suffix_of_mem_afterModifier hs)
        generalize afterModifier a = ends at hall
        induction ends with
        | nil => rfl
        | cons s ends ihs =>
            rw [List.map_cons, List.findSome?_cons, List.findSome?_cons, ih (hall s List.mem_cons_self)]
            cases typeHeadWithin count s with
            | some h => rfl
            | none => exact ihs fun t ht => hall t (List.mem_cons_of_mem _ ht)
      rw [typeHeadWithin, typeHeadWithin, afterModifier_append ha hb, hfirst, typeHeadAt?_append hb]
      cases (afterModifier a).findSome? (typeHeadWithin count) with
      | some h => rfl
      | none => rfl

/-- No modifiers lead over a stop to the end. -/
theorem isModifiersWithin_append (count : Nat) (ha : Closes a) (hb : Stops b) :
    isModifiersWithin count (a ++ b) = false := by
  have hblanks (a : List Cell) : (skipBlanks (a ++ b)).isEmpty = false := by
    rw [skipBlanks_append hb]
    obtain ⟨c, rest, rfl, -⟩ := hb
    simp
  induction count generalizing a with
  | zero => exact hblanks a
  | succ count ih =>
      rw [isModifiersWithin, hblanks, Bool.false_or, afterModifier_append ha hb, List.any_map,
        List.any_eq_false]
      intro s hs
      simp [ih (ha.of_suffix (suffix_of_mem_afterModifier hs))]

/-! ## Marks before a stop -/

theorem afterMarker?_append (hb : Stops b) :
    afterMarker? (a ++ b) = (afterMarker? a).map (· ++ b) := by
  unfold afterMarker?
  dsimp only
  rw [takeWhile_append_of_stops hb fun _ => isNameChar_of_isStop]
  have hname : (a.takeWhile fun c => isNameChar c.masked).length ≤ a.length :=
    (List.takeWhile_prefix _).length_le
  rw [List.length_map, List.drop_append_of_le_length hname]
  split
  · rfl
  · rfl

theorem suffix_of_afterMarker? {s rest : List Cell} (h : afterMarker? s = some rest) : rest <:+ s := by
  unfold afterMarker? at h
  dsimp only at h
  split at h
  · obtain rfl := Option.some.inj h
    exact List.drop_suffix _ s
  · cases h

/-! ## How many modifiers are looked for -/

theorem length_of_after? {word : List Char} {s rest : List Cell} (h : after? word s = some rest) :
    s.length = word.length + rest.length := by
  induction word generalizing s with
  | nil =>
      obtain rfl := Option.some.inj h
      exact (Nat.zero_add _).symm
  | cons c word ih =>
      cases s with
      | nil => cases h
      | cons d s =>
          rw [after?] at h
          split at h
          · rw [List.length_cons, List.length_cons, ih h]
            omega
          · cases h

/-- A modifier or an annotation is not empty. -/
theorem length_lt_of_mem_afterModifier {s t : List Cell} (h : t ∈ afterModifier s) :
    t.length < s.length := by
  unfold afterModifier at h
  have hskip : (skipBlanks s).length ≤ s.length := (List.dropWhile_suffix _).length_le
  split at h
  · cases h
  · next c rest heq =>
    rw [heq, List.length_cons] at hskip
    split at h
    · have hle := (suffix_of_annotation_mem h).length_le
      omega
    · obtain ⟨word, hword, htaken⟩ := List.exists_of_findSome?_eq_some (Option.mem_toList.mp h)
      have hwords : ∀ word ∈ modifierWords, 0 < word.length := by decide
      have hpos := hwords word hword
      have hlength := length_of_after? htaken
      rw [List.length_cons] at hlength
      omega

/-- The count is no bound: with as many as there are cells, all modifiers are looked for. -/
theorem typeHeadWithin_congr {m n : Nat} {s : List Cell} (hm : s.length ≤ m) (hn : s.length ≤ n) :
    typeHeadWithin m s = typeHeadWithin n s := by
  induction m generalizing n s with
  | zero =>
      obtain rfl : s = [] := List.length_eq_zero_iff.mp (Nat.le_zero.mp hm)
      cases n with
      | zero => rfl
      | succ n => rfl
  | succ m ih =>
      cases n with
      | zero =>
          obtain rfl : s = [] := List.length_eq_zero_iff.mp (Nat.le_zero.mp hn)
          rfl
      | succ n =>
          have hfirst : (afterModifier s).findSome? (typeHeadWithin m) =
              (afterModifier s).findSome? (typeHeadWithin n) := by
            have hall : ∀ t ∈ afterModifier s, typeHeadWithin m t = typeHeadWithin n t := by
              intro t ht
              have hlt := length_lt_of_mem_afterModifier ht
              exact ih (by omega) (by omega)
            generalize afterModifier s = ends at hall
            induction ends with
            | nil => rfl
            | cons t ends ihs =>
                rw [List.findSome?_cons, List.findSome?_cons, hall t List.mem_cons_self,
                  ihs fun u hu => hall u (List.mem_cons_of_mem _ hu)]
          rw [typeHeadWithin, typeHeadWithin, hfirst]

/-! ## The marks before a stop -/

/-- **A mark that starts before a stop is the same without what follows.** -/
theorem markAt?_append (before : List Cell) (ha : Closes a) (hne : a ≠ []) (hb : Stops b) :
    markAt? before (a ++ b) = markAt? before a := by
  obtain ⟨c, rest, rfl⟩ := List.exists_cons_of_ne_nil hne
  have hrest : Closes rest := ha.of_suffix (List.suffix_cons c rest)
  rw [List.cons_append, markAt?, markAt?, afterMarker?_append hb]
  split
  · cases hmarker : afterMarker? rest with
    | none => rfl
    | some tail =>
        have htail : Closes tail := hrest.of_suffix (suffix_of_afterMarker? hmarker)
        obtain ⟨found, tail', hfound, hfound', hclosed⟩ : ∃ found tail',
            (arguments? (tail ++ b)).getD ([], tail ++ b) = (found, tail' ++ b) ∧
              (arguments? tail).getD ([], tail) = (found, tail') ∧ Closes tail' := by
          rw [arguments?_append htail hb]
          cases hargs : arguments? tail with
          | none => exact ⟨[], tail, rfl, rfl, htail⟩
          | some found =>
              exact ⟨found.1, found.2, rfl, rfl, htail.of_suffix (suffix_of_arguments? hargs)⟩
        simp only [Option.map_some]
        rw [hfound, hfound']
        simp only
        have hcount : tail'.length ≤ (tail' ++ b).length := by
          rw [List.length_append]
          exact Nat.le_add_right _ _
        rw [typeHeadWithin_append _ hclosed hb, typeHeadWithin_congr hcount (Nat.le_refl _),
          Option.map_map]
        congr 1
        funext head
        simp only [Function.comp_apply, List.length_cons, List.length_append]
        have hmodifiers : tail'.length + b.length - (head.head.length + b.length) =
            tail'.length - head.head.length := by omega
        have hcovered : rest.length + b.length + 1 - (head.rest.length + b.length) =
            rest.length + 1 - head.rest.length := by omega
        rw [hmodifiers, hcovered, List.take_append_of_le_length (Nat.sub_le _ _)]
  · rfl

/-- What a mark is made of, and how far it goes. -/
theorem eq_of_markAt? {before s : List Cell} {m : Mark} {covered : Nat}
    (h : markAt? before s = some (m, covered)) :
    ∃ arguments tail head, typeHeadWithin tail.length tail = some head ∧
      m = ⟨before, arguments, tail.take (tail.length - head.head.length), head.name⟩ ∧
      covered = s.length - head.rest.length := by
  cases s with
  | nil => cases h
  | cons c rest =>
      rw [markAt?] at h
      split at h
      · cases hmarker : afterMarker? rest with
        | none =>
            rw [hmarker] at h
            cases h
        | some tail =>
            rw [hmarker] at h
            obtain ⟨head, hhead, hpair⟩ := Option.map_eq_some_iff.mp h
            obtain ⟨hmark, hcovered⟩ := Prod.mk.inj hpair
            exact ⟨_, _, head, hhead, hmark.symm, hcovered.symm⟩
      · cases h

/-- A mark is found at some place that the search comes to. -/
theorem exists_markAt?_of_mem {before s : List Cell} {skip : Nat} {m : Mark}
    (h : m ∈ marksFrom before skip s) :
    ∃ passed rest covered, s = passed ++ rest ∧
      markAt? (passed.reverse ++ before) rest = some (m, covered) := by
  induction s generalizing before skip with
  | nil =>
      cases skip with
      | zero => cases h
      | succ skip => cases h
  | cons c s ih =>
      have hnext {skip : Nat} (h : m ∈ marksFrom (c :: before) skip s) :
          ∃ passed rest covered, c :: s = passed ++ rest ∧
            markAt? (passed.reverse ++ before) rest = some (m, covered) := by
        obtain ⟨passed, rest, covered, rfl, hmark⟩ := ih h
        refine ⟨c :: passed, rest, covered, rfl, ?_⟩
        rw [List.reverse_cons, List.append_assoc]
        exact hmark
      cases skip with
      | succ skip => exact hnext h
      | zero =>
          rw [marksFrom] at h
          cases hmark : markAt? before (c :: s) with
          | none =>
              rw [hmark] at h
              exact hnext h
          | some found =>
              rw [hmark] at h
              rcases List.mem_cons.mp h with rfl | h
              · exact ⟨[], c :: s, found.2, rfl, hmark⟩
              · exact hnext h

/-- Where there is no at sign, no mark starts. -/
theorem marksFrom_of_forall_ne (h : ∀ c ∈ a, c.masked ≠ '@') (before s : List Cell) :
    marksFrom before 0 (a ++ s) = marksFrom (a.reverse ++ before) 0 s := by
  induction a generalizing before with
  | nil => rfl
  | cons c a ih =>
      have hnone : markAt? before (c :: (a ++ s)) = none := if_neg (h c List.mem_cons_self)
      have hbefore : (c :: a).reverse ++ before = a.reverse ++ c :: before := by simp
      rw [List.cons_append, marksFrom, hnone, hbefore]
      exact ih (fun d hd => h d (List.mem_cons_of_mem _ hd)) (c :: before)

/-- The name of the marker stands behind no at sign. -/
def Unmarked (s : List Cell) : Prop :=
  ∀ c rest, c :: rest <:+ s → c.masked = '@' → afterMarker? rest = none

theorem unmarked_nil : Unmarked [] :=
  fun _ _ hsuffix => absurd (List.suffix_nil.mp hsuffix) (List.cons_ne_nil _ _)

theorem Unmarked.cons {c : Cell} (hc : c.masked = '@' → afterMarker? a = none) (ha : Unmarked a) :
    Unmarked (c :: a) := by
  intro d rest hsuffix hat
  rcases List.suffix_cons_iff.mp hsuffix with heq | hlater
  · obtain ⟨rfl, rfl⟩ := List.cons.inj heq
    exact hc hat
  · exact ha d rest hlater hat

/-- What has no at sign may stand in front. -/
theorem Unmarked.append (ha : ∀ c ∈ a, c.masked ≠ '@') (hb : Unmarked b) : Unmarked (a ++ b) := by
  induction a with
  | nil => exact hb
  | cons c a ih =>
      obtain ⟨hc, ha⟩ := List.forall_mem_cons.mp ha
      exact (ih ha).cons fun hat => absurd hat hc

theorem unmarked_of_forall_ne (h : ∀ c ∈ a, c.masked ≠ '@') : Unmarked a := by
  rw [← List.append_nil a]
  exact unmarked_nil.append h

/-- Where the marker is not named, there is no mark. -/
theorem marksFrom_eq_nil (h : Unmarked a) (before : List Cell) (skip : Nat) :
    marksFrom before skip a = [] := by
  rw [List.eq_nil_iff_forall_not_mem]
  intro m hm
  obtain ⟨passed, rest, covered, rfl, hmark⟩ := exists_markAt?_of_mem hm
  cases rest with
  | nil => cases hmark
  | cons c rest =>
      rw [markAt?] at hmark
      split at hmark
      · next hat =>
        rw [h c rest (List.suffix_append _ _) hat] at hmark
        cases hmark
      · cases hmark

/-- No mark goes past the end. -/
theorem le_length_of_markAt? {before s : List Cell} {m : Mark} {covered : Nat}
    (h : markAt? before s = some (m, covered)) : covered ≤ s.length := by
  obtain ⟨-, -, head, -, -, rfl⟩ := eq_of_markAt? h
  exact Nat.sub_le _ _

/-- **The marks before a stop are found as if nothing followed**, and the search goes on at the stop. -/
theorem marksFrom_append (ha : Closes a) (hb : Stops b) (before : List Cell) :
    marksFrom before 0 (a ++ b) = marksFrom before 0 a ++ marksFrom (a.reverse ++ before) 0 b := by
  suffices h : ∀ skip ≤ a.length, marksFrom before skip (a ++ b) =
      marksFrom before skip a ++ marksFrom (a.reverse ++ before) 0 b from
    h 0 (Nat.zero_le _)
  induction a generalizing before with
  | nil =>
      intro skip hskip
      obtain rfl := Nat.le_zero.mp hskip
      rfl
  | cons c a ih =>
      have htail : Closes a := ha.of_suffix (List.suffix_cons c a)
      have hbefore : (c :: a).reverse ++ before = a.reverse ++ c :: before := by simp
      intro skip hskip
      rw [hbefore]
      cases skip with
      | succ skip => exact ih htail (c :: before) skip (Nat.le_of_succ_le_succ hskip)
      | zero =>
          rw [List.cons_append, marksFrom, marksFrom, ← List.cons_append,
            markAt?_append before ha (List.cons_ne_nil c a) hb]
          cases hmark : markAt? before (c :: a) with
          | none => exact ih htail (c :: before) 0 (Nat.zero_le _)
          | some found =>
              obtain ⟨m, covered⟩ := found
              have hle := le_length_of_markAt? hmark
              rw [List.length_cons] at hle
              exact congrArg (m :: ·) (ih htail (c :: before) (covered - 1) (by omega))

/-- The characters that something comes to its end with. -/
def cutMarks : List Char := [';', '{', '}']

theorem isStop_of_mem_cutMarks {c : Char} (h : c ∈ cutMarks) :
    isStop c = true ∧ c ≠ ')' ∧ c ≠ '@' := by
  have hall : ∀ c ∈ cutMarks, isStop c = true ∧ c ≠ ')' ∧ c ≠ '@' := by decide
  exact hall c h

/-- **No mark goes past the end of something.** -/
theorem marksFrom_append_of_cut {c : Cell} (ha : Closes (a ++ [c])) (hc : c.masked ∈ cutMarks)
    (before s : List Cell) :
    marksFrom before 0 (a ++ [c] ++ s) =
      marksFrom before 0 (a ++ [c]) ++ marksFrom ((a ++ [c]).reverse ++ before) 0 s := by
  obtain ⟨hstop, hparen, hat⟩ := isStop_of_mem_cutMarks hc
  have hfirst : Closes a := ha.of_append_singleton hparen
  have hcell (s : List Cell) : marksFrom (a.reverse ++ before) 0 ([c] ++ s) =
      marksFrom (c :: (a.reverse ++ before)) 0 s :=
    marksFrom_of_forall_ne (by simpa using hat) _ s
  have hend : marksFrom before 0 (a ++ [c]) = marksFrom before 0 a := by
    rw [marksFrom_append hfirst ⟨c, [], rfl, hstop⟩, ← List.append_nil [c], hcell]
    exact List.append_nil _
  rw [hend, List.append_assoc, marksFrom_append hfirst (b := [c] ++ s) ⟨c, s, rfl, hstop⟩, hcell,
    List.reverse_append]
  rfl

end

end TextProviders.Source
