import TextProviders.Document.Token
import TextProviders.Proofs.Document.Steps

/-!
# The faults that stop the reading of a text

A text is taken apart into tokens, character by character.  What can stop that are faults of form, the
fault that cuts the text off, and two others: an escape can give a code that no character has, and the
number of a version can have more digits than are read (`Fault.IsOfText`).  Nothing is said about values
here, since scalars have no types yet.

The proof goes through the readers one by one.  A reader fails with such a fault if the text is cut off
by such a fault, and goes on in the same text (`Cursor.Sound`).
-/

namespace TextProviders.Document

/-- A fault that a text can be stopped by: one of form, bytes that are no text, an escape for no
character, or a number of a version with too many digits. -/
def Fault.IsOfText : Fault → Prop
  | .malformed => True
  | .undecodable _ => True
  | .code n => 0x110000 ≤ n
  | .numeral _ => True
  | _ => False

theorem Fault.IsOfText.cases {f : Fault} (h : f.IsOfText) :
    f = .malformed ∨ (∃ e, f = .undecodable e) ∨ (∃ n, f = .code n) ∨ ∃ e, f = .numeral e := by
  cases f with
  | malformed => exact .inl rfl
  | undecodable e => exact .inr (.inl ⟨e, rfl⟩)
  | code n => exact .inr (.inr (.inl ⟨n, rfl⟩))
  | numeral e => exact .inr (.inr (.inr ⟨e, rfl⟩))
  | _ => exact absurd h id

/-- The text is cut off by such a fault, if at all. -/
def Cursor.Sound (c : Cursor) : Prop :=
  ∀ f, c.stop = some f → f.IsOfText

/-- A reader fails with such a fault, or goes on at such a place. -/
abbrev Reads {α : Type} (x : Except Fault (α × Cursor)) : Prop :=
  Within Fault.IsOfText (fun r => r.2.Sound) x

namespace Cursor

/-! ## Places in a text -/

@[simp] theorem stop_next (c : Cursor) : c.next.stop = c.stop := by
  unfold next
  split
  · rfl
  · dsimp only
    split
    · rfl
    · split <;> rfl

@[simp] theorem stop_skip (c : Cursor) (n : Nat) : (c.skip n).stop = c.stop := by
  induction n generalizing c with
  | zero => rfl
  | succ n ih => rw [skip, ih, stop_next]

@[simp] theorem stop_span (p : Char → Bool) (c : Cursor) : (c.span p).2.stop = c.stop :=
  stop_skip c _

@[simp] theorem stop_afterSpaces (c : Cursor) : c.afterSpaces.stop = c.stop :=
  stop_span _ c

@[simp] theorem stop_lineEnd (c : Cursor) : c.lineEnd.stop = c.stop :=
  stop_span _ c

@[simp] theorem stop_afterComment (c : Cursor) : c.afterComment.stop = c.stop := by
  unfold afterComment
  split
  · exact stop_lineEnd c
  · rfl

@[simp] theorem stop_lineBreak (c : Cursor) : c.lineBreak.2.stop = c.stop := by
  unfold lineBreak
  split
  · rfl
  · split
    · exact stop_next c
    · rfl

variable {c : Cursor} (h : c.Sound)

include h

theorem Sound.of_stop_eq {c' : Cursor} (hstop : c'.stop = c.stop) : c'.Sound :=
  fun f hf => h f (hstop ▸ hf)

theorem Sound.next : c.next.Sound := h.of_stop_eq c.stop_next
theorem Sound.skip (n : Nat) : (c.skip n).Sound := h.of_stop_eq (c.stop_skip n)
theorem Sound.span (p : Char → Bool) : (c.span p).2.Sound := h.of_stop_eq (stop_span p c)
theorem Sound.afterSpaces : c.afterSpaces.Sound := h.of_stop_eq c.stop_afterSpaces
theorem Sound.lineEnd : c.lineEnd.Sound := h.of_stop_eq c.stop_lineEnd
theorem Sound.afterComment : c.afterComment.Sound := h.of_stop_eq c.stop_afterComment
theorem Sound.lineBreak : c.lineBreak.2.Sound := h.of_stop_eq c.stop_lineBreak

/-! ## Looking ahead -/

theorem Sound.fail {α : Type} {Q : α → Prop} (n : Nat) {f : Fault} (hf : f.IsOfText) :
    Within Fault.IsOfText Q (c.fail n f) := by
  show ((c.cut? n).getD f).IsOfText
  unfold cut?
  split
  · cases hstop : c.stop with
    | none => exact hf
    | some f' => exact h f' hstop
  · exact hf

theorem Sound.refuse {α : Type} {Q : α → Prop} : Within Fault.IsOfText Q (c.refuse (α := α)) :=
  h.fail 1 trivial

theorem Sound.ensure (n : Nat) : Within Fault.IsOfText (fun _ => True) (c.ensure n) := by
  unfold Cursor.ensure Cursor.cut?
  split
  · next f hf =>
    split at hf
    · exact h f hf
    · cases hf
  · trivial

theorem Sound.atMarker : Within Fault.IsOfText (fun _ => True) c.atMarker :=
  (h.ensure _).map fun _ _ => trivial

theorem Sound.hexNumber (count : Nat) : Reads (c.hexNumber count) := by
  unfold Cursor.hexNumber
  dsimp only
  generalize (if ((c.rest.take count).takeWhile fun ch => (Text.hexValue? ch).isSome).length < count
    then none else _) = found
  split
  · exact h.skip count
  · exact (h.skip _).refuse

end Cursor

section

variable {c : Cursor} (h : c.Sound)

include h

/-! ## Plain scalars -/

theorem plainBreaks_within (count : Nat) : Reads (plainBreaks count c) := by
  induction count generalizing c with
  | zero => exact h
  | succ count ih =>
      unfold plainBreaks
      refine h.atMarker.bind fun marked _ => ?_
      split
      · exact h
      · dsimp only
        split
        · refine (ih h.afterSpaces.lineBreak).bind fun r hr => ?_
          exact hr
        · exact h.afterSpaces

theorem plainGap_within : Within Fault.IsOfText (fun gap => gap.after.Sound) (plainGap c) := by
  unfold plainGap
  dsimp only
  split
  · exact (plainBreaks_within (h.span _).lineBreak _).map fun r hr => hr
  · exact h.span _

omit h in
theorem plainFrom_within {gap : PlainGap} (inFlow : Bool) (indent : Int) (count : Nat)
    (hgap : gap.after.Sound) :
    Within Fault.IsOfText (fun r => r.2.after.Sound) (plainFrom inFlow indent count gap) := by
  induction count generalizing gap with
  | zero => exact hgap
  | succ count ih =>
      unfold plainFrom
      dsimp only
      split
      · exact hgap
      · refine (hgap.ensure _).bind fun _ _ => ?_
        split
        · exact hgap
        · refine (plainGap_within (hgap.skip _)).bind fun next hnext => ?_
          split
          · exact hnext
          · exact (ih hnext).bind fun r hr => hr

theorem plainScalar_within (inFlow : Bool) (indent : Int) :
    Within Fault.IsOfText (fun r => r.2.2.Sound) (plainScalar inFlow indent c) := by
  have hgap : (⟨[], false, c⟩ : PlainGap).after.Sound := h
  exact (plainFrom_within inFlow indent _ hgap).map fun r hr => hr

/-! ## Quoted scalars -/

theorem quotedBreaks_within (count : Nat) : Reads (quotedBreaks count c) := by
  induction count generalizing c with
  | zero => exact h
  | succ count ih =>
      unfold quotedBreaks
      refine h.atMarker.bind fun marked _ => ?_
      split
      · exact h.refuse
      · dsimp only
        split
        · exact (ih (h.span _).lineBreak).bind fun r hr => hr
        · exact h.span _

/-- The only escapes at fault are those for no character. -/
theorem escape_within : Reads (escape c) := by
  unfold escape
  split
  · exact h.refuse
  · split
    · exact h.next
    · refine (h.next.hexNumber _).bind fun r hr => ?_
      dsimp only
      split
      · next hlarge => exact hlarge
      · exact hr
    · split
      · exact (quotedBreaks_within h.lineBreak _).map fun r hr => hr
      · exact h.refuse

theorem quotedGap_within : Reads (quotedGap c) := by
  unfold quotedGap
  dsimp only
  split
  · exact (h.span _).refuse
  · split
    · exact (quotedBreaks_within (h.span _).lineBreak _).map fun r hr => hr
    · exact h.span _

theorem quotedPart_within (quote : Char) :
    Within Fault.IsOfText (fun part? => ∀ r, part? = some r → r.2.Sound) (quotedPart quote c) := by
  have hsome {x : Except Fault (List Nat × Cursor)} (hx : Reads x) :
      Within Fault.IsOfText (fun part? => ∀ r, part? = some r → r.2.Sound) (x.map some) := by
    refine hx.map fun r hr r' hr' => ?_
    obtain rfl := Option.some.inj hr'
    exact hr
  unfold quotedPart
  split
  · exact h.refuse
  · split
    · exact hsome (quotedGap_within h)
    · split
      · split
        · exact hsome (x := .ok _) (h.skip 2)
        · exact nofun
      · split
        · exact hsome (escape_within h.next)
        · exact hsome (x := .ok _) h.next

theorem quotedBody_within (quote : Char) (count : Nat) : Reads (quotedBody quote count c) := by
  induction count generalizing c with
  | zero => exact h.refuse
  | succ count ih =>
      have hpart := quotedPart_within h quote
      unfold quotedBody
      split
      · next f hf => exact hpart.of_eq_error hf
      · exact h.next
      · next part c' hc' => exact (ih (hpart.of_eq_ok hc' _ rfl)).map fun r hr => hr

theorem quotedScalar_within (quote : Char) : Reads (quotedScalar quote c) :=
  quotedBody_within h.next quote _

/-! ## Blocks -/

omit h in
theorem sound_ite {c c' : Cursor} (h : c.Sound) (h' : c'.Sound) (b : Prop) [Decidable b] :
    (if b then c else c').Sound := by
  split
  · exact h
  · exact h'

theorem blockHeader_within :
    Within Fault.IsOfText (fun r => r.2.2.Sound) (blockHeader c) := by
  unfold blockHeader
  dsimp only
  have hearly := sound_ite h.next h ((chomping? c.peek).isSome = true)
  generalize (if (chomping? c.peek).isSome = true then c.next else c) = c₁ at hearly ⊢
  split
  · exact hearly.refuse
  · have hdepth := sound_ite hearly.next hearly ((depth? c₁.peek).isSome = true)
    generalize (if (depth? c₁.peek).isSome = true then c₁.next else c₁) = c₂ at hdepth ⊢
    generalize (if (chomping? c.peek).isNone && (depth? c₁.peek).isSome then chomping? c₂.peek
      else none) = late
    have hlate := sound_ite hdepth.next hdepth (late.isSome = true)
    generalize (if late.isSome = true then c₂.next else c₂) = c₃ at hlate ⊢
    split
    · exact hlate.refuse
    · split
      · exact hlate.afterSpaces.afterComment.lineBreak
      · exact hlate.afterSpaces.afterComment.refuse

omit h in
@[simp] theorem stop_indentTo (column : Nat) (c : Cursor) : (indentTo column c).stop = c.stop :=
  Cursor.stop_skip c _

omit h in
@[simp] theorem stop_blockBreaks (depth count : Nat) (c : Cursor) :
    (blockBreaks depth count c).2.stop = c.stop := by
  induction count generalizing c with
  | zero => rfl
  | succ count ih =>
      unfold blockBreaks
      dsimp only
      split
      · simp [ih]
      · simp

omit h in
@[simp] theorem stop_blockDepth (count : Nat) (c : Cursor) :
    (blockDepth count c).2.2.stop = c.stop := by
  induction count generalizing c with
  | zero => rfl
  | succ count ih =>
      unfold blockDepth
      dsimp only
      split
      · simp [ih]
      · simp

omit h in
@[simp] theorem stop_blockLines (folded : Bool) (depth count : Nat) (breaks : List Char) (c : Cursor) :
    (blockLines folded depth count breaks c).after.stop = c.stop := by
  induction count generalizing breaks c with
  | zero => rfl
  | succ count ih =>
      unfold blockLines
      dsimp only
      split
      · split
        · simp [ih]
        · simp
      · rfl

theorem blockScalar_within (folded : Bool) (indent : Int) : Reads (blockScalar folded indent c) := by
  refine (blockHeader_within h.next).map fun r hr => ?_
  obtain ⟨chomping, depth, c'⟩ := r
  cases depth with
  | none => exact hr.of_stop_eq (by simp)
  | some depth => exact hr.of_stop_eq (by simp)

/-! ## Properties of nodes -/

theorem anchorName_within : Reads (anchorName c) := by
  unfold anchorName
  dsimp only
  split
  · exact (h.next.span _).refuse
  · exact h.next.span _

theorem escapedBytes_within (count : Nat) : Reads (escapedBytes count c) := by
  induction count generalizing c with
  | zero => exact h
  | succ count ih =>
      have hdigits := h.next.hexNumber 2
      unfold escapedBytes
      split
      · split
        · next f hf => exact hdigits.of_eq_error hf
        · next n c' hc' => exact (ih (hdigits.of_eq_ok hc')).map fun r hr => hr
      · exact h

theorem tagText_within (count : Nat) : Reads (tagText count c) := by
  induction count generalizing c with
  | zero => exact h
  | succ count ih =>
      have hspan := h.span isTagChar
      unfold tagText
      dsimp only
      have hbytes := escapedBytes_within hspan (c.span isTagChar).2.bound
      split
      · split
        · next f hf => exact hbytes.of_eq_error hf
        · next bytes c' hc' =>
          have hafter : c'.Sound := hbytes.of_eq_ok hc'
          split
          · exact hafter.refuse
          · exact (ih hafter).map fun r hr => hr
      · exact hspan

theorem tagUri_within : Reads (tagUri c) := by
  unfold tagUri
  split
  · exact tagText_within h _
  · exact h.refuse

theorem tagHandle_within : Reads (tagHandle c) := by
  unfold tagHandle
  dsimp only
  split
  · exact h.refuse
  · split
    · exact h.next
    · split
      · exact (h.next.span _).next
      · exact (h.next.span _).refuse

theorem writtenTag_within : Reads (writtenTag c) := by
  have hend (r : WrittenTag × Cursor) (hr : r.2.Sound) :
      Reads (if endsWord r.2.peek then .ok (r.1, r.2) else r.2.refuse) := by
    split
    · exact hr
    · exact hr.refuse
  unfold writtenTag
  split
  · refine (tagUri_within (h.skip 2)).bind fun r hr => ?_
    dsimp only
    split
    · exact hr.refuse.bind hend
    · exact hend (_, _) hr.next
  · split
    · exact hend (_, _) h.next
    · have hsuffix (r : List Char × Cursor) (hr : r.2.Sound) : Reads (do
          let uri ← tagUri r.2
          if endsWord uri.2.peek then .ok ((⟨some r.1, uri.1⟩ : WrittenTag), uri.2)
          else uri.2.refuse) :=
        (tagUri_within hr).bind fun r' hr' => hend (_, r'.2) hr'
      dsimp only
      split
      · refine (h.ensure _).bind fun _ _ => ?_
        split
        · exact (tagHandle_within h).bind hsuffix
        · exact hsuffix _ h.next
      · split
        · exact (tagHandle_within h).bind hsuffix
        · exact hsuffix _ h.next

/-! ## Directives -/

theorem directiveEnd_within : Within Fault.IsOfText Cursor.Sound (directiveEnd c) := by
  unfold directiveEnd
  dsimp only
  split
  · exact h.afterSpaces.afterComment.lineBreak
  · exact h.afterSpaces.afterComment.refuse

/-- The only numbers at fault are those with too many digits. -/
theorem versionNumber_within : Reads (versionNumber c) := by
  unfold versionNumber
  dsimp only
  split
  · exact (h.span _).refuse
  · split
    · exact (h.span _).fail 1 trivial
    · exact h.span _

theorem version_within : Reads (version c) := by
  unfold version
  refine (versionNumber_within h.afterSpaces).bind fun r hr => ?_
  dsimp only
  split
  · exact hr.refuse
  · refine (versionNumber_within hr.next).bind fun r hr => ?_
    split
    · exact hr
    · exact hr.refuse

theorem handleDeclaration_within : Reads (handleDeclaration c) := by
  unfold handleDeclaration
  refine (tagHandle_within h.afterSpaces).bind fun r hr => ?_
  dsimp only
  split
  · exact hr.refuse
  · refine (tagUri_within hr.afterSpaces).bind fun r hr => ?_
    split
    · exact hr
    · exact hr.refuse

theorem directive_within : Reads (directive c) := by
  have hname := h.next.span isNameChar
  have hend (r : Directive × Cursor) (hr : r.2.Sound) :
      Reads (do .ok (r.1, ← directiveEnd r.2)) :=
    (directiveEnd_within hr).bind fun c' hc' => hc'
  unfold directive
  dsimp only
  split
  · exact hname.refuse
  · split
    · exact (version_within hname).bind hend
    · split
      · exact (handleDeclaration_within hname).bind hend
      · exact hend (.other, _) hname.lineEnd

end

/-! ## Tokens -/

namespace Scanner

/-- A step fails with such a fault, or goes on at such a place. -/
abbrev Scans (x : Except Fault Scanner) : Prop :=
  Within Fault.IsOfText (fun s => s.cursor.Sound) x

@[simp] theorem cursor_closeBlocks (s : Scanner) (column : Int) :
    (s.closeBlocks column).cursor = s.cursor := by
  unfold closeBlocks
  split <;> rfl

@[simp] theorem cursor_openBlock (s : Scanner) (column : Int) :
    (s.openBlock column).2.cursor = s.cursor := by
  unfold openBlock
  split <;> rfl

@[simp] theorem cursor_startBlock (s : Scanner) (mark : Token) :
    (s.startBlock mark).cursor = s.cursor := by
  unfold startBlock
  dsimp only
  split
  · exact cursor_openBlock s _
  · exact cursor_openBlock s _

@[simp] theorem stop_toNextToken (count : Nat) (s : Scanner) :
    (toNextToken count s).cursor.stop = s.cursor.stop := by
  induction count generalizing s with
  | zero => rfl
  | succ count ih =>
      unfold toNextToken
      dsimp only
      split
      · simp [ih, moveTo, allowKey]
      · simp [moveTo]

variable {s : Scanner}

theorem dropStale_within : Within Fault.IsOfText (fun s' => s'.cursor = s.cursor) s.dropStale := by
  unfold dropStale
  dsimp only
  split
  · exact .error trivial
  · exact .ok rfl

theorem dropCandidate_within :
    Within Fault.IsOfText (fun s' => s'.cursor = s.cursor) s.dropCandidate := by
  unfold dropCandidate
  split
  · exact .error trivial
  · exact .ok rfl

theorem addCandidate_within :
    Within Fault.IsOfText (fun s' => s'.cursor = s.cursor) s.addCandidate := by
  unfold addCandidate
  split
  · exact dropCandidate_within.bind fun s' hs' => .ok hs'
  · exact .ok rfl

variable (h : s.cursor.Sound)

include h

/-- A mark of one character. -/
theorem readMark_within {s' : Scanner} (t : Token) (hs' : s'.cursor = s.cursor) :
    Scans (do
      let s ← s'.dropCandidate
      .ok ((s.moveTo s.cursor.next).emit t)) := by
  refine dropCandidate_within.bind fun s'' hs'' => .ok ?_
  show s''.cursor.next.Sound
  rw [hs'', hs']
  exact h.next

theorem readBetween_within {read : Cursor → Except Fault (Token × Cursor)}
    (hread : ∀ c : Cursor, c.Sound → Reads (read c)) : Scans (s.readBetween read) := by
  refine dropCandidate_within.bind fun s' hs' => ?_
  rw [cursor_closeBlocks] at hs'
  exact (hread s'.cursor (hs' ▸ h)).bind fun r hr => hr

theorem openFlow_within (t : Token) : Scans (s.openFlow t) :=
  addCandidate_within.bind fun s' hs' => .ok (hs' ▸ h.next : s'.cursor.next.Sound)

theorem closeFlow_within (t : Token) : Scans (s.closeFlow t) :=
  dropCandidate_within.bind fun s' hs' => .ok (hs' ▸ h.next : s'.cursor.next.Sound)

theorem readComma_within : Scans s.readComma := by
  refine readMark_within h _ ?_
  rfl

theorem readEntry_within : Scans s.readEntry := by
  unfold readEntry
  split
  · exact .error trivial
  · dsimp only
    split
    · refine readMark_within h _ ?_
      exact cursor_startBlock s _
    · refine readMark_within h _ ?_
      rfl

theorem readKey_within : Scans s.readKey := by
  unfold readKey
  split
  · exact .error trivial
  · dsimp only
    split
    · refine readMark_within h _ ?_
      exact cursor_startBlock s _
    · refine readMark_within h _ ?_
      rfl

theorem readColon_within : Scans s.readColon := by
  unfold readColon
  split
  · dsimp only
    split
    · show (openBlock _ _).2.cursor.next.Sound
      rw [cursor_openBlock]
      exact h.next
    · exact h.next
  · split
    · exact .error trivial
    · dsimp only
      split
      · refine readMark_within h _ ?_
        exact cursor_startBlock s _
      · refine readMark_within h _ ?_
        rfl

theorem readContent_within {read : Cursor → Except Fault (Token × Cursor)}
    (hread : ∀ c : Cursor, c.Sound → Reads (read c)) : Scans (s.readContent read) := by
  refine addCandidate_within.bind fun s' hs' => ?_
  exact (hread s'.cursor (hs' ▸ h)).bind fun r hr => hr

theorem readBlock_within (folded : Bool) : Scans (s.readBlock folded) := by
  refine dropCandidate_within.bind fun s' hs' => ?_
  have hcursor : s'.cursor.Sound := hs' ▸ h
  exact (blockScalar_within hcursor folded s'.indent).bind fun r hr => hr

theorem readPlain_within : Scans s.readPlain := by
  refine addCandidate_within.bind fun s' hs' => ?_
  have hcursor : s'.cursor.Sound := hs' ▸ h
  exact (plainScalar_within hcursor _ _).bind fun r hr => hr

theorem readToken_within (ch : Char) : Scans (s.readToken ch) := by
  have hmarker (t : Token) : Scans (s.readBetween fun c => .ok (t, c.skip 3)) :=
    readBetween_within h fun c hc => hc.skip 3
  have hmap {α : Type} {read : Cursor → Except Fault (α × Cursor)}
      (hread : ∀ {c : Cursor}, c.Sound → Reads (read c)) (token : α → Token) (c : Cursor)
      (hc : c.Sound) : Reads ((read c).map fun (a, c) => (token a, c)) :=
    (hread hc).map fun r hr => hr
  rw [readToken]
  refine .ite (readBetween_within h (hmap directive_within .directive)) ?_
  refine .ite (hmarker _) ?_
  refine .ite (hmarker _) ?_
  refine .ite (openFlow_within h _) ?_
  refine .ite (openFlow_within h _) ?_
  refine .ite (closeFlow_within h _) ?_
  refine .ite (closeFlow_within h _) ?_
  refine .ite (readComma_within h) ?_
  refine .ite (readEntry_within h) ?_
  refine .ite (readKey_within h) ?_
  refine .ite (readColon_within h) ?_
  refine .ite (readContent_within h (hmap anchorName_within .reference)) ?_
  refine .ite (readContent_within h (hmap anchorName_within .anchor)) ?_
  refine .ite (readContent_within h (hmap writtenTag_within .tag)) ?_
  refine .ite (readBlock_within h false) ?_
  refine .ite (readBlock_within h true) ?_
  refine .ite (readContent_within h (hmap (fun hc => quotedScalar_within hc ch) (.scalar false))) ?_
  exact .ite (readPlain_within h) (.error trivial)

theorem readNext_within : Within Fault.IsOfText (fun r => r.2.cursor.Sound) s.readNext := by
  unfold readNext
  have hnext : (toNextToken s.cursor.bound s).cursor.Sound := h.of_stop_eq (stop_toNextToken _ s)
  generalize toNextToken s.cursor.bound s = s₁ at hnext ⊢
  refine (hnext.ensure 1).bind fun _ _ => ?_
  refine dropStale_within.bind fun s₂ hs₂ => ?_
  have hclosed : (s₂.closeBlocks s₂.cursor.column).cursor.Sound := by
    rw [cursor_closeBlocks, hs₂]
    exact hnext
  dsimp only
  generalize s₂.closeBlocks s₂.cursor.column = s₃ at hclosed ⊢
  split
  · refine dropCandidate_within.bind fun s₄ hs₄ => .ok ?_
    show s₄.cursor.Sound
    rw [hs₄, cursor_closeBlocks]
    exact hclosed
  · refine (hclosed.ensure _).bind fun _ _ => ?_
    refine (readToken_within hclosed _).bind fun s₄ hs₄ => ?_
    exact (hs₄.ensure 1).bind fun _ _ => .ok hs₄

theorem run_fault (count : Nat) {f : Fault} (hf : (run count s).2 = some f) : f.IsOfText := by
  induction count generalizing s with
  | zero =>
      obtain rfl := Option.some.inj hf
      trivial
  | succ count ih =>
      have hnext := readNext_within h
      unfold run at hf
      split at hf
      · next hread =>
        obtain rfl := Option.some.inj hf
        exact hnext.of_eq_error hread
      · cases hf
      · next s₁ hread =>
        have hs₁ : s₁.cursor.Sound := hnext.of_eq_ok hread
        split at hf
        · next hstale =>
          obtain rfl := Option.some.inj hf
          exact dropStale_within.of_eq_error hstale
        · next s₂ hstale =>
          have hs₂ : s₂.cursor = s₁.cursor := dropStale_within.of_eq_ok hstale
          exact ih (hs₂ ▸ hs₁) hf

end Scanner

/-- **What ends the tokens of a text is a fault of form, an escape for no character or a number that is
too long**, or what cuts the text off. -/
theorem tokens_fault {source : Source} (h : ∀ f, source.stop = some f → f.IsOfText) {f : Fault}
    (hf : (tokens source).2 = some f) : f.IsOfText := by
  have hstart : (Cursor.ofSource source).Sound := h
  refine Scanner.run_fault ?_ _ hf
  dsimp only
  split
  · exact hstart.next
  · exact hstart

/-! ## Texts in portions -/

namespace Source

theorem stop_ofPortions {stop : Option Fault} (h : ∀ f, stop = some f → f.IsOfText)
    (portions : List (List Char)) {f : Fault} (hf : (ofPortions stop portions).stop = some f) :
    f.IsOfText := by
  induction portions with
  | nil => exact h f hf
  | cons portion rest ih =>
      unfold ofPortions at hf
      split at hf
      · exact ih hf
      · obtain rfl := Option.some.inj hf
        trivial

theorem stop_ofBytes (bytes : List UInt8) {f : Fault} (hf : (ofBytes bytes).stop = some f) :
    f.IsOfText := by
  have hstop : ∀ f, (Text.portions bytes).2.map Fault.undecodable = some f → f.IsOfText := by
    intro f hf
    obtain ⟨e, -, rfl⟩ := Option.map_eq_some_iff.mp hf
    trivial
  unfold ofBytes at hf
  generalize Text.portions bytes = read at hstop hf
  obtain ⟨portions, fault⟩ := read
  dsimp only at hf
  split at hf
  · exact stop_ofPortions hstop _ hf
  · split at hf
    · exact hstop f hf
    · have hnone : ∀ f, (none : Option Fault) = some f → f.IsOfText := nofun
      exact stop_ofPortions hnone _ hf

end Source

end TextProviders.Document
