import TextProviders.Proofs.Source.Divided
import TextProviders.Proofs.Source.Marked

/-!
# A source is scanned piece by piece

Behind its package line a source is made of pieces: brackets are nested in each of them, and each ends
with a semicolon or a closing brace.  No mark goes past such an end (`marksFrom_append_of_cut`), and
behind it the search starts anew: what stands before has come to its end and has all its braces closed
(`AtRest`), so a mark further on stands in the same braces and has the same modifiers before it as if
nothing stood before (`findingOf_behind`).  A scan therefore finds in a source what it finds in each
piece alone, and is ended by the first fault that ends one of these.

A body in braces is such a part as well, but what is found in it is passed over, whatever it is.  So the
scan does not depend on it.

Both are in the main statement, `scan_is_piecewise`.
-/

namespace TextProviders.Source

/-! ## Marks behind something -/

/-- A mark with more cells before it. -/
def Mark.behind (front : List Cell) (m : Mark) : Mark :=
  { m with before := m.before ++ front }

theorem markAt?_behind (before front s : List Cell) :
    markAt? (before ++ front) s = (markAt? before s).map (Prod.map (Mark.behind front) id) := by
  cases s with
  | nil => rfl
  | cons c rest =>
      rw [markAt?, markAt?]
      split
      · cases afterMarker? rest with
        | none => rfl
        | some tail =>
            dsimp only
            generalize (arguments? tail).getD ([], tail) = found
            obtain ⟨arguments, tail⟩ := found
            cases typeHeadWithin tail.length tail with
            | none => rfl
            | some head => rfl
      · rfl

/-- What stands before the search is carried along, and nothing else comes of it. -/
theorem marksFrom_behind (before front : List Cell) (skip : Nat) (s : List Cell) :
    marksFrom (before ++ front) skip s = (marksFrom before skip s).map (Mark.behind front) := by
  induction s generalizing before skip with
  | nil =>
      cases skip with
      | zero => rfl
      | succ skip => rfl
  | cons c rest ih =>
      cases skip with
      | succ skip => exact ih (c :: before) skip
      | zero =>
          rw [marksFrom, marksFrom, markAt?_behind]
          cases markAt? before (c :: rest) with
          | none => exact ih (c :: before) 0
          | some found => exact congrArg (_ :: ·) (ih (c :: before) (found.2 - 1))

/-! ## Behind something that has come to its end -/

/-- What a search has gone over, nearest first, has come to its end: it ends with a semicolon or a brace,
and all its braces are closed. -/
structure AtRest (front : List Cell) : Prop where
  cut : ∃ c ∈ front.head?, c.masked ∈ cutMarks
  braces : (front.countP fun c => c.masked = '}') = front.countP fun c => c.masked = '{'

theorem countP_masked (c : Char) (s : List Cell) :
    (s.countP fun d => d.masked = c) = (s.map Cell.masked).count c := by
  rw [List.count, List.countP_map]
  exact List.countP_congr fun d _ => by simp

/-- Cells that end with a semicolon or a brace and whose braces are balanced have come to their end. -/
theorem atRest_reverse {a : List Cell} (hcut : ∃ c ∈ a.getLast?, c.masked ∈ cutMarks)
    (ha : Balanced '{' '}' (a.map Cell.masked)) : AtRest a.reverse := by
  constructor
  · rwa [List.head?_reverse]
  · rw [List.countP_reverse, List.countP_reverse, countP_masked, countP_masked, ha.count_eq (by decide)]

section

variable {front : List Cell} (hfront : AtRest front)
include hfront

theorem isNested_behind (m : Mark) : (m.behind front).isNested = m.isNested := by
  simp only [Mark.isNested, Mark.behind, List.countP_append, hfront.braces]
  exact decide_eq_decide.mpr (Nat.add_lt_add_iff_right)

/-- The search backwards ends where the mark's own source starts. -/
theorem leading_behind (m : Mark) : (m.behind front).leading = m.leading := by
  obtain ⟨c, hc, hcut⟩ := hfront.cut
  have htaken : (m.before ++ front).takeWhile (fun c => c.masked ∉ cutMarks) =
      m.before.takeWhile fun c => c.masked ∉ cutMarks := by
    have hnone : front.takeWhile (fun c => c.masked ∉ cutMarks) = [] := by
      refine takeWhile_of_head? fun d hd => ?_
      obtain rfl := Option.mem_unique hc hd
      exact decide_eq_false fun h => h hcut
    rw [List.takeWhile_append, hnone]
    split
    · next hall => rw [List.append_nil, (List.takeWhile_prefix _).eq_of_length hall]
    · rfl
  exact congrArg (fun s => trailingModifiers s.reverse) htaken

/-- **What a mark says does not depend on what has come to its end before it.** -/
theorem findingOf_behind (package : List Char) (m : Mark) :
    findingOf package (m.behind front) = findingOf package m := by
  have hvisibility : (m.behind front).visibility = m.visibility := by
    rw [Mark.visibility, Mark.visibility, leading_behind hfront]
    rfl
  rw [findingOf, findingOf, isNested_behind hfront, hvisibility]
  rfl

theorem findingsOf_behind (package : List Char) (ms : List Mark) :
    findingsOf package (ms.map (Mark.behind front)) = findingsOf package ms := by
  induction ms with
  | nil => rfl
  | cons m ms ih => rw [List.map_cons, findingsOf, findingsOf, findingOf_behind hfront, ih]

/-- Behind something that has come to its end a search finds what it finds at the start of a source. -/
theorem findingsOf_marksFrom (package : List Char) (s : List Cell) :
    findingsOf package (marksFrom front 0 s) = findingsOf package (marks s) := by
  have hmarks := marksFrom_behind [] front 0 s
  rw [List.nil_append] at hmarks
  rw [hmarks, findingsOf_behind hfront, marks]

end

/-! ## Reports of one part after another -/

/-- What is reported of a scan. -/
def ScanResult.report (r : ScanResult) : Except ScanFault (List Declaration) :=
  match r.fault with
  | some fault => .error fault
  | none => .ok (r.findings.filterMap Finding.declaration?)

theorem declarations_eq_report (text : String) : declarations text = (scan text.toList).report := by
  cases hfault : (scan text.toList).fault with
  | some fault => simp only [declarations, ScanResult.report, hfault]
  | none => simp only [declarations, ScanResult.report, hfault]

theorem report_cons (package : List Char) (m : Mark) (ms : List Mark) :
    (findingsOf package (m :: ms)).report = (do
      let finding ← findingOf package m
      let ds ← (findingsOf package ms).report
      return finding.declaration?.toList ++ ds) := by
  rw [findingsOf]
  cases findingOf package m with
  | error fault => rfl
  | ok finding =>
      simp only [ScanResult.report, bind, Except.bind, pure, Except.pure]
      cases (findingsOf package ms).fault with
      | some fault => rfl
      | none =>
          cases finding with
          | declared d => rfl
          | nested name => rfl

/-- The marks of one part and then those of another are reported as each of the two is, one after the
other, unless a fault in the first part ends it. -/
theorem report_append (package : List Char) (ms ms' : List Mark) :
    (findingsOf package (ms ++ ms')).report = (do
      let ds ← (findingsOf package ms).report
      let ds' ← (findingsOf package ms').report
      return ds ++ ds') := by
  induction ms with
  | nil =>
      cases hrest : (findingsOf package ms').report with
      | error fault => exact hrest
      | ok ds => exact hrest
  | cons m ms ih =>
      rw [List.cons_append, report_cons, report_cons, ih]
      simp only [bind_assoc, pure_bind, List.append_assoc]

/-- Nothing is reported of marks in braces. -/
theorem report_of_isNested (package : List Char) {ms : List Mark} (h : ∀ m ∈ ms, m.isNested = true) :
    (findingsOf package ms).report = .ok [] := by
  induction ms with
  | nil => rfl
  | cons m ms ih =>
      have hnested : findingOf package m = .ok (.nested (String.ofList m.name)) :=
        if_pos (h m List.mem_cons_self)
      rw [report_cons, hnested, ih fun m hm => h m (List.mem_cons_of_mem _ hm)]
      rfl

/-! ## Sources in parts -/

/-- Brackets are nested in some lexemes. -/
structure IsNested (ls : List Lexeme) : Prop where
  parentheses : Balanced '(' ')' (maskedOf ls)
  braces : Balanced '{' '}' (maskedOf ls)

/-- A part of a source that has come to its end. -/
structure IsPiece (ls : List Lexeme) : Prop extends IsDivided ls, IsNested ls where
  ends : ls.getLast? ∈ [some (.code ';'), some (.code '}')]

/-! ## Behind a package line -/

section

variable {h : PackageLine} (hh : h.IsWellFormed)
include hh

theorem mem_maskedOf_packageLine :
    ∀ c ∈ maskedOf h.lexemes, Text.isBlank c = true ∨ isNameChar c = true ∨ c = ';' := by
  have hword : ∀ c ∈ "package".toList, isNameChar c = true := by decide
  simp only [PackageLine.lexemes, maskedOf_append, maskedOf_map_code, maskedOf_code, maskedOf_nil,
    List.forall_mem_append, List.forall_mem_singleton]
  exact ⟨fun c hc => .inl (hh.opening.isBlank_masked c hc), fun c hc => .inr (.inl (hword c hc)),
    fun c hc => .inl (hh.gap.1.isBlank_masked c hc), fun c hc => .inr (.inl (hh.name.2 c hc)),
    fun c hc => .inl (hh.ending.isBlank_masked c hc), .inr (.inr trivial)⟩

theorem ne_of_mem_packageLine {c d : Char} (hc : c ∈ maskedOf h.lexemes)
    (hblank : Text.isBlank d = false) (hname : isNameChar d = false) (hend : d ≠ ';') : c ≠ d := by
  rcases mem_maskedOf_packageLine hh c hc with hc | hc | rfl
  · exact ne_of_holds hc hblank
  · exact ne_of_holds hc hname
  · exact hend.symm

omit hh in
theorem exists_packageLine : ∃ first, h.lexemes = first ++ [.code ';'] :=
  ⟨h.opening ++ ("package".toList.map .code ++ (h.gap ++ (h.name.map .code ++ h.ending))), by
    simp only [PackageLine.lexemes, List.append_assoc]⟩

theorem atRest_packageLine : AtRest (cellsOf h.lexemes).reverse := by
  have hbraces : Balanced '{' '}' (maskedOf h.lexemes) := balanced_of_forall fun c hc =>
    ⟨ne_of_mem_packageLine hh hc (by decide) (by decide) (by decide),
      ne_of_mem_packageLine hh hc (by decide) (by decide) (by decide)⟩
  have hcut : ∃ c ∈ (cellsOf h.lexemes).getLast?, c.masked ∈ cutMarks := by
    obtain ⟨first, hfirst⟩ := exists_packageLine (h := h)
    exact ⟨⟨';', ';'⟩, by simp [hfirst], by decide⟩
  exact atRest_reverse hcut hbraces

theorem isDivided_packageLine (hlexed : IsLexed h.lexemes) {ls : List Lexeme} (hls : IsDivided ls) :
    IsDivided (h.lexemes ++ ls) := by
  have hlast : h.lexemes.getLast? = some (.code ';') := by
    obtain ⟨first, hfirst⟩ := exists_packageLine (h := h)
    rw [hfirst, List.getLast?_concat]
  have hgap {gap : List Lexeme} (hgap : IsGap gap) : ∀ l ∈ gap, ¬ l.ClosesEarly := fun l hl => by
    have := hgap l hl
    cases l with
    | literal _ _ => exact this.elim
    | code _ | comment _ => exact id
  have hcode (s : List Char) : ∀ l ∈ s.map Lexeme.code, ¬ l.ClosesEarly := fun l hl => by
    obtain ⟨c, -, rfl⟩ := List.mem_map.mp hl
    exact id
  have hblocks : ∀ l ∈ h.lexemes, ¬ l.ClosesEarly := by
    simp only [PackageLine.lexemes, List.forall_mem_append, List.forall_mem_singleton]
    exact ⟨hgap hh.opening, hcode _, hgap hh.gap.1, hcode _, hgap hh.ending, id⟩
  exact IsDivided.append ⟨hlexed, hblocks⟩ hls hlast (by decide)

/-- **Behind a package line a scan finds the marks of what follows it.** -/
theorem declarations_packageLine (hlexed : IsLexed h.lexemes) {ls : List Lexeme} (hls : IsDivided ls) :
    declarations (textOf (h.lexemes ++ ls)) = (findingsOf h.name (marks (cellsOf ls))).report := by
  have hcells := cells_textOf (isDivided_packageLine hh hlexed hls)
  have hpackage : packageOf ((cellsOf (h.lexemes ++ ls)).map Cell.masked) = h.name := by
    rw [← maskedOf, maskedOf_append]
    exact packageOf_packageLine hh _
  have hmarks : marks (cellsOf (h.lexemes ++ ls)) =
      marksFrom (cellsOf h.lexemes).reverse 0 (cellsOf ls) := by
    rw [marks, cellsOf_append, marksFrom_of_forall_ne, List.append_nil]
    exact fun c hc =>
      ne_of_mem_packageLine hh (List.mem_map_of_mem hc) (by decide) (by decide) (by decide)
  rw [declarations_eq_report, scan, hcells, hpackage, hmarks,
    findingsOf_marksFrom (atRest_packageLine hh)]

end

/-! ## Pieces -/

theorem exists_getLast?_cellsOf {ls : List Lexeme} (h : IsPiece ls) :
    ∃ first c, cellsOf ls = first ++ [c] ∧ c.masked ∈ cutMarks := by
  have hends := h.ends
  rcases List.eq_nil_or_concat ls with rfl | ⟨first, last, rfl⟩
  · simp at hends
  · rw [List.concat_eq_append, List.getLast?_concat] at hends
    rw [List.concat_eq_append, cellsOf_append]
    have hlast : last = .code ';' ∨ last = .code '}' := by simpa using hends
    rcases hlast with rfl | rfl
    · exact ⟨cellsOf first, ⟨';', ';'⟩, rfl, by decide⟩
    · exact ⟨cellsOf first, ⟨'}', '}'⟩, rfl, by decide⟩

theorem IsPiece.atRest {ls : List Lexeme} (h : IsPiece ls) : AtRest (cellsOf ls).reverse := by
  obtain ⟨first, c, hcells, hc⟩ := exists_getLast?_cellsOf h
  exact atRest_reverse ⟨c, by rw [hcells, List.getLast?_concat]; rfl, hc⟩ h.braces

/-- **The marks of a piece and of what follows it** are reported one after the other. -/
theorem report_piece {ls : List Lexeme} (h : IsPiece ls) (package : List Char) (s : List Cell) :
    (findingsOf package (marks (cellsOf ls ++ s))).report = (do
      let ds ← (findingsOf package (marks (cellsOf ls))).report
      let ds' ← (findingsOf package (marks s)).report
      return ds ++ ds') := by
  obtain ⟨first, c, hcells, hc⟩ := exists_getLast?_cellsOf h
  have hcloses : Closes (cellsOf ls) := closes_of_balanced h.parentheses
  have hmarks : marks (cellsOf ls ++ s) = marks (cellsOf ls) ++ marksFrom (cellsOf ls).reverse 0 s := by
    rw [hcells] at hcloses ⊢
    rw [marks, marks, marksFrom_append_of_cut hcloses hc, List.append_nil]
  rw [hmarks, report_append, findingsOf_marksFrom h.atRest]

theorem report_flatten (package : List Char) {ps : List (List Lexeme)} (h : ∀ p ∈ ps, IsPiece p) :
    (findingsOf package (marks (cellsOf ps.flatten))).report =
      List.flatten <$> ps.mapM fun p => (findingsOf package (marks (cellsOf p))).report := by
  induction ps with
  | nil => rfl
  | cons p ps ih =>
      rw [List.flatten_cons, cellsOf_append, report_piece (h p List.mem_cons_self),
        ih fun q hq => h q (List.mem_cons_of_mem _ hq), List.mapM_cons]
      simp only [map_eq_pure_bind, bind_assoc, pure_bind, List.flatten_cons]

theorem isDivided_flatten {ps : List (List Lexeme)} (h : ∀ p ∈ ps, IsPiece p) :
    IsDivided ps.flatten := by
  induction ps with
  | nil => exact ⟨⟨fun l hl => (by cases hl), .nil⟩, fun l hl => (by cases hl)⟩
  | cons p ps ih =>
      have hp := h p List.mem_cons_self
      have hps := ih fun q hq => h q (List.mem_cons_of_mem _ hq)
      have hends : p.getLast? = some (.code ';') ∨ p.getLast? = some (.code '}') := by
        simpa using hp.ends
      rcases hends with hlast | hlast
      · exact hp.toIsDivided.append hps hlast (by decide)
      · exact hp.toIsDivided.append hps hlast (by decide)

/-! ## Bodies -/

/-- The marks between braces that stand open are nested. -/
theorem isNested_of_mem_body {front body : List Cell} {m : Mark}
    (hfront : Balanced '{' '}' (front.map Cell.masked)) (hbody : Balanced '{' '}' (body.map Cell.masked))
    (hm : m ∈ marksFrom (⟨'{', '{'⟩ :: front.reverse) 0 body) : m.isNested = true := by
  obtain ⟨passed, ahead, covered, rfl, hmark⟩ := exists_markAt?_of_mem hm
  have hbefore : m.before = passed.reverse ++ ⟨'{', '{'⟩ :: front.reverse := by
    obtain ⟨_, _, _, -, rfl, -⟩ := eq_of_markAt? hmark
    rfl
  rw [List.map_append] at hbody
  have hpassed := hbody.count_le (by decide)
  have hclosed := hfront.count_eq (by decide)
  have hcount (c : Char) : (m.before.countP fun d => d.masked = c) =
      (passed.map Cell.masked).count c +
        ((front.map Cell.masked).count c + if '{' = c then 1 else 0) := by
    simp [hbefore, countP_masked, List.count_cons]
  rw [Mark.isNested, hcount, hcount, if_pos rfl, if_neg (by decide), decide_eq_true_eq]
  omega

/-- **What stands in a body is not reported**, and the search goes on behind it as at the start of a
source. -/
theorem report_body {front body : List Lexeme} (hfront : IsNested front) (hbody : IsNested body)
    (package : List Char) (back : List Lexeme) :
    (findingsOf package
        (marks (cellsOf (front ++ .code '{' :: (body ++ .code '}' :: back))))).report = (do
      let ds ← (findingsOf package (marks (cellsOf front))).report
      let ds' ← (findingsOf package (marks (cellsOf back))).report
      return ds ++ ds') := by
  have hcloses : Closes (cellsOf front) := closes_of_balanced hfront.parentheses
  have hcloses' : Closes (cellsOf body) := closes_of_balanced hbody.parentheses
  let opened : List Cell := ⟨'{', '{'⟩ :: (cellsOf front).reverse
  let closed : List Cell := ⟨'}', '}'⟩ :: ((cellsOf body).reverse ++ opened)
  have hmarks : marks (cellsOf (front ++ .code '{' :: (body ++ .code '}' :: back))) =
      marks (cellsOf front) ++
        (marksFrom opened 0 (cellsOf body) ++ marksFrom closed 0 (cellsOf back)) := by
    have hopening (s : List Cell) :
        marksFrom (cellsOf front).reverse 0 (⟨'{', '{'⟩ :: s) = marksFrom opened 0 s :=
      marksFrom_of_forall_ne (a := [⟨'{', '{'⟩]) (by decide) _ s
    have hclosing (s : List Cell) :
        marksFrom ((cellsOf body).reverse ++ opened) 0 (⟨'}', '}'⟩ :: s) = marksFrom closed 0 s :=
      marksFrom_of_forall_ne (a := [⟨'}', '}'⟩]) (by decide) _ s
    rw [cellsOf_append, cellsOf_code, cellsOf_append, cellsOf_code, marks,
      marksFrom_append hcloses ⟨_, _, rfl, by decide⟩, List.append_nil, hopening,
      marksFrom_append hcloses' ⟨_, _, rfl, by decide⟩, hclosing]
    rfl
  have hrest : AtRest closed := by
    refine ⟨⟨⟨'}', '}'⟩, rfl, by decide⟩, ?_⟩
    have hcount (c : Char) : (closed.countP fun d => d.masked = c) =
        (if '}' = c then 1 else 0) +
          ((maskedOf body).count c + ((maskedOf front).count c + if '{' = c then 1 else 0)) := by
      simp [closed, opened, countP_masked, List.count_cons, maskedOf, Nat.add_comm, Nat.add_assoc]
    have hfront' := hfront.braces.count_eq (by decide)
    have hbody' := hbody.braces.count_eq (by decide)
    rw [hcount, hcount, if_pos rfl, if_pos rfl, if_neg (by decide), if_neg (by decide)]
    omega
  rw [hmarks, report_append, report_append,
    report_of_isNested package fun m => isNested_of_mem_body hfront.braces hbody.braces,
    findingsOf_marksFrom hrest]
  simp only [bind_assoc, pure_bind]
  rfl

/-! ## The scan in pieces -/

theorem mapM_congr {ε α β : Type} {f g : α → Except ε β} {l : List α} (h : ∀ x ∈ l, f x = g x) :
    l.mapM f = l.mapM g := by
  induction l with
  | nil => rfl
  | cons x l ih =>
      rw [List.mapM_cons, List.mapM_cons, h x List.mem_cons_self,
        ih fun y hy => h y (List.mem_cons_of_mem _ hy)]

/-- A traversal fails where one of its steps does. -/
theorem mapM_eq_error_iff {ε α β : Type} {f : α → Except ε β} {l : List α} :
    (∃ e, l.mapM f = .error e) ↔ ∃ x ∈ l, ∃ e, f x = .error e := by
  induction l with
  | nil => exact ⟨fun ⟨_, h⟩ => (by cases h), fun ⟨_, h, _⟩ => (by cases h)⟩
  | cons x l ih =>
      rw [List.mapM_cons, List.exists_mem_cons_iff, ← ih]
      cases f x with
      | error e => exact ⟨fun _ => .inl ⟨e, rfl⟩, fun _ => ⟨e, rfl⟩⟩
      | ok y =>
          cases l.mapM f with
          | error e => exact ⟨fun _ => .inr ⟨e, rfl⟩, fun _ => ⟨e, rfl⟩⟩
          | ok ys =>
              refine ⟨fun ⟨_, h⟩ => (by cases h), ?_⟩
              rintro (⟨_, h⟩ | ⟨_, h⟩)
              · cases h
              · cases h

/-- **A scan is compositional over pieces and blind to bodies.**  Behind a package line it finds in some
pieces, one after the other, what it finds in each of them alone, and it fails exactly if it fails on one
of them.  What stands between two braces at the top level has no part in it, whatever it is. -/
theorem scan_is_piecewise {h : PackageLine} (hh : h.IsWellFormed) (hlexed : IsLexed h.lexemes) :
    (∀ ps : List (List Lexeme), (∀ p ∈ ps, IsPiece p) →
      declarations (textOf (h.lexemes ++ ps.flatten)) =
          List.flatten <$> ps.mapM (fun p => declarations (textOf (h.lexemes ++ p))) ∧
        ((∃ fault, declarations (textOf (h.lexemes ++ ps.flatten)) = .error fault) ↔
          ∃ p ∈ ps, ∃ fault, declarations (textOf (h.lexemes ++ p)) = .error fault)) ∧
      ∀ front body body' back : List Lexeme, IsNested front → IsNested body → IsNested body' →
        IsDivided (front ++ .code '{' :: (body ++ .code '}' :: back)) →
        IsDivided (front ++ .code '{' :: (body' ++ .code '}' :: back)) →
        declarations (textOf (h.lexemes ++ (front ++ .code '{' :: (body ++ .code '}' :: back)))) =
          declarations (textOf (h.lexemes ++ (front ++ .code '{' :: (body' ++ .code '}' :: back)))) := by
  constructor
  · intro ps hps
    have heach : (ps.mapM fun p => declarations (textOf (h.lexemes ++ p))) =
        ps.mapM fun p => (findingsOf h.name (marks (cellsOf p))).report := by
      refine mapM_congr fun p hp => ?_
      exact declarations_packageLine hh hlexed (hps p hp).toIsDivided
    have hwhole : declarations (textOf (h.lexemes ++ ps.flatten)) =
        List.flatten <$> ps.mapM (fun p => declarations (textOf (h.lexemes ++ p))) := by
      rw [heach, declarations_packageLine hh hlexed (isDivided_flatten hps), report_flatten _ hps]
    refine ⟨hwhole, ?_⟩
    rw [hwhole, ← mapM_eq_error_iff]
    cases ps.mapM fun p => declarations (textOf (h.lexemes ++ p)) with
    | error fault => exact ⟨fun _ => ⟨fault, rfl⟩, fun _ => ⟨fault, rfl⟩⟩
    | ok ds => exact ⟨fun ⟨_, h⟩ => (by cases h), fun ⟨_, h⟩ => (by cases h)⟩
  · intro front body body' back hfront hbody hbody' hdivided hdivided'
    rw [declarations_packageLine hh hlexed hdivided, declarations_packageLine hh hlexed hdivided',
      report_body hfront hbody, report_body hfront hbody']

/-- Two pieces, one with a brace and a parenthesis in a literal and a brace in a comment; and a body that
is replaced by one with a marked type whose members are not well formed. -/
theorem scan_is_piecewise_two_pieces :
    let codes (s : String) : List Lexeme := s.toList.map .code
    let h : PackageLine := ⟨[], codes " ", "com.acme".toList, []⟩
    let ps : List (List Lexeme) :=
      [codes "@TextResourceAware class A \x7b s = " ++ .literal ['"'] ['}', '('] ::
          codes "; " ++ .comment ('/' :: '/' :: " \x7b".toList) :: codes "\n\x7d",
        codes "@TextResourceAware(normalizeSpace = true) public enum B \x7b\x7d"]
    let front := codes "class C "
    let body := codes " int x; "
    let body' := codes "@TextResourceAware(oops) class N \x7b\x7d"
    let back := codes "@TextResourceAware class D \x7b\x7d"
    (h.IsWellFormed ∧ IsLexed h.lexemes ∧ (∀ p ∈ ps, IsPiece p) ∧ IsNested front ∧ IsNested body ∧
        IsNested body' ∧ IsDivided (front ++ .code '{' :: (body ++ .code '}' :: back)) ∧
        IsDivided (front ++ .code '{' :: (body' ++ .code '}' :: back))) ∧
      declarations (textOf (h.lexemes ++ ps.flatten)) =
        .ok [{ name := "com.acme.A", visibility := .package },
          { name := "com.acme.B", visibility := .everyone, binding := { normalizeSpace := true } }] ∧
      declarations (textOf (h.lexemes ++ (front ++ .code '{' :: (body' ++ .code '}' :: back)))) =
        .ok [{ name := "com.acme.D", visibility := .package }] := by
  intro codes h ps front body body' back
  have hh : h.IsWellFormed :=
    ⟨by decide +kernel, by decide +kernel, by decide +kernel, by decide +kernel⟩
  have hlexed : IsLexed h.lexemes :=
    (isDivided_map_code (s := "package com.acme;".toList) (by decide +kernel)).lexed
  have hfirst : IsPiece ps[0] := by
    refine ⟨⟨⟨?_, by decide +kernel⟩, by decide +kernel⟩, ⟨by decide +kernel, by decide +kernel⟩,
      by decide +kernel⟩
    simp only [ps, List.getElem_cons_zero, List.forall_mem_append, List.forall_mem_cons]
    exact ⟨⟨isJava_of_mem_map_code (by decide +kernel),
      .string (.plain (by decide) (by decide) (by decide)
        (.plain (by decide) (by decide) (by decide) .nil)),
      isJava_of_mem_map_code (by decide +kernel)⟩, .lineComment (by decide +kernel),
      isJava_of_mem_map_code (by decide +kernel)⟩
  have hsecond : IsPiece ps[1] :=
    ⟨isDivided_map_code (by decide +kernel), ⟨by decide +kernel, by decide +kernel⟩, by decide +kernel⟩
  have hps : ∀ p ∈ ps, IsPiece p :=
    List.forall_mem_cons.mpr ⟨hfirst, List.forall_mem_singleton.mpr hsecond⟩
  have hfront : IsNested front := ⟨by decide +kernel, by decide +kernel⟩
  have hbody : IsNested body := ⟨by decide +kernel, by decide +kernel⟩
  have hbody' : IsNested body' := ⟨by decide +kernel, by decide +kernel⟩
  have hdivided : IsDivided (front ++ .code '{' :: (body ++ .code '}' :: back)) :=
    isDivided_map_code (s := "class C \x7b int x; \x7d@TextResourceAware class D \x7b\x7d".toList)
      (by decide +kernel)
  have hdivided' : IsDivided (front ++ .code '{' :: (body' ++ .code '}' :: back)) :=
    isDivided_map_code (s := ("class C \x7b@TextResourceAware(oops) class N \x7b\x7d\x7d" ++
      "@TextResourceAware class D \x7b\x7d").toList) (by decide +kernel)
  obtain ⟨hpieces, hblind⟩ := scan_is_piecewise hh hlexed
  refine ⟨⟨hh, hlexed, hps, hfront, hbody, hbody', hdivided, hdivided'⟩, ?_, ?_⟩
  · rw [(hpieces ps hps).1]
    decide +kernel
  · rw [← hblind front body body' back hfront hbody hbody' hdivided hdivided']
    decide +kernel

end TextProviders.Source
