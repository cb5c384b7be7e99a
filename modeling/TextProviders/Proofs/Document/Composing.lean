import TextProviders.Document.Node
import TextProviders.Proofs.Document.Scanning

/-!
# The faults that stop the reading of nodes

Nodes are read off the tokens of a text.  A reader that finds a token in the wrong place fails with a
fault of form; at the end of the tokens it fails with the fault that ended them.  So reading a document
fails only with the faults that a text can be stopped by (`isOfText_of_ofBytes`), whatever is read by then.

The readers call each other; every call counts down, and the induction is on that count, for all readers
at once (`AllCompose`).
-/

namespace TextProviders.Document

/-- The tokens are ended by a fault of a text, if by a fault at all. -/
def Reading.Sound (r : Reading) : Prop :=
  ∀ f, r.fault = some f → f.IsOfText

/-- A step of reading nodes fails only with faults of a text, if such a fault ends the tokens. -/
def Composes {α : Type} (x : Read α) : Prop :=
  ∀ n, Steps Fault.IsOfText (fun _ => Reading.Sound) n (fun _ _ => True) x

namespace Composes

variable {α β : Type} {x y : Read α}

theorem pure (a : α) : Composes (Pure.pure a) :=
  fun _ => .pure trivial

theorem bind {f : α → Read β} (hx : Composes x) (hf : ∀ a, Composes (f a)) : Composes (x >>= f) :=
  fun n => (hx n).bind fun m a _ _ => hf a m

theorem ite {p : Prop} [Decidable p] (hx : Composes x) (hy : Composes y) :
    Composes (if p then x else y) := by
  split
  · exact hx
  · exact hy

theorem get : Composes MonadState.get :=
  fun _ => Steps.get.mono fun _ _ _ _ => trivial

/-- A step that changes nothing about the end of the tokens. -/
theorem of_modify {f : Reading → Reading} (h : ∀ r, (f r).fault = r.fault) : Composes (modify f) := by
  refine fun n => (Steps.modify fun r hr f' hf' => hr f' ?_).mono fun _ _ _ _ => trivial
  exact h r ▸ hf'

theorem modify_bind {f : Reading → Reading} {g : Unit → Read β} (h : ∀ r, (f r).fault = r.fault)
    (hg : ∀ u, Composes (g u)) : Composes (modify f >>= g) :=
  (of_modify h).bind hg

theorem option_mapM {f : β → Read α} (h : ∀ b, Composes (f b)) (b? : Option β) :
    Composes (b?.mapM f) := by
  cases b? with
  | none => exact pure none
  | some b => exact (h b).bind fun a => pure (some a)

end Composes

namespace Node

theorem misplaced_composes {α : Type} : Composes (misplaced : Read α) :=
  fun _ => .throw trivial

theorem peek_composes : Composes peek := by
  refine fun n => Steps.get.bind fun m r _ hr => ?_
  obtain ⟨-, hr⟩ := hr
  split
  · exact .pure trivial
  · next f _ hf => exact .throw (hr f hf)
  · exact .pure trivial

theorem advance_composes : Composes advance :=
  .of_modify fun _ => rfl

theorem accept_composes (t : Token) : Composes (accept t) :=
  peek_composes.bind fun _ => .ite (advance_composes.bind fun _ => .pure _) (.pure _)

theorem expect_composes (t : Token) : Composes (expect t) :=
  (accept_composes t).bind fun _ => .ite misplaced_composes (.pure _)

theorem isOneOf_composes (ts : List Token) : Composes (isOneOf ts) := by
  refine peek_composes.bind fun t? => ?_
  split
  · exact .pure _
  · exact .pure _

/-! ## Properties -/

theorem tagName_composes (t : WrittenTag) : Composes (tagName t) := by
  unfold tagName
  split
  · exact .pure _
  · refine Composes.get.bind fun r => ?_
    split
    · exact misplaced_composes
    · exact .pure _

theorem anchor?_composes : Composes anchor? := by
  refine peek_composes.bind fun t? => ?_
  split
  · exact advance_composes.bind fun _ => .pure _
  · exact .pure _

theorem tag?_composes : Composes tag? := by
  refine peek_composes.bind fun t? => ?_
  split
  · exact advance_composes.bind fun _ => .pure _
  · exact .pure _

theorem properties_composes : Composes properties := by
  refine anchor?_composes.bind fun early => tag?_composes.bind fun tag => ?_
  have hname (late : Option (List Char)) : Composes (do
      let name ← tag.mapM tagName
      return (⟨early.or late, name⟩ : Properties)) :=
    (Composes.option_mapM tagName_composes tag).bind fun name => .pure _
  dsimp only
  exact .ite (anchor?_composes.bind hname) ((Composes.pure none).bind hname)

/-! ## New nodes -/

theorem add_composes (anchor : Option (List Char)) (n : Node) : Composes (add anchor n) :=
  fun m _ hr => ⟨m, Nat.le_refl m, hr, trivial⟩

theorem addSequence_composes (p : Properties) {items : Read (List NodeId)} (h : Composes items) :
    Composes (addSequence p items) :=
  (add_composes _ _).bind fun _ => h.bind fun _ => .modify_bind (fun _ => rfl) fun _ => .pure _

theorem addMapping_composes (p : Properties) {entries : Read (List (NodeId × NodeId))}
    (h : Composes entries) : Composes (addMapping p entries) :=
  (add_composes _ _).bind fun _ => h.bind fun _ => .modify_bind (fun _ => rfl) fun _ => .pure _

theorem reference_composes (name : List Char) : Composes (reference name) := by
  refine Composes.get.bind fun r => ?_
  split
  · exact misplaced_composes
  · exact .pure _

/-! ## Readers -/

/-- All readers of nodes with so many calls left. -/
structure AllCompose (count : Nat) : Prop where
  read : ∀ block indentless, Composes (read block indentless count)
  content : ∀ block indentless p next, Composes (readContent block indentless p next count)
  items : Composes (readItems count)
  looseItems : Composes (readLooseItems count)
  entries : Composes (readEntries count)
  flowEntry : ∀ closing, Composes (readFlowEntry closing count)
  flowItems : ∀ first, Composes (readFlowItems first count)
  flowEntries : ∀ first, Composes (readFlowEntries first count)
  absentOr : ∀ closers block indentless, Composes (readUnless closers block indentless count)

namespace AllCompose

theorem zero : AllCompose 0 where
  read _ _ := misplaced_composes
  content _ _ _ _ := misplaced_composes
  items := misplaced_composes
  looseItems := misplaced_composes
  entries := misplaced_composes
  flowEntry _ := misplaced_composes
  flowItems _ := misplaced_composes
  flowEntries _ := misplaced_composes
  absentOr _ _ _ := misplaced_composes

variable {count : Nat} (h : AllCompose count)

include h

theorem read_succ (block indentless : Bool) : Composes (Node.read block indentless (count + 1)) := by
  unfold Node.read
  refine peek_composes.bind fun t? => ?_
  split
  · exact advance_composes.bind fun _ => reference_composes _
  · refine properties_composes.bind fun p => peek_composes.bind fun next => ?_
    exact Composes.get.bind fun r => .ite misplaced_composes (h.content _ _ _ _)

theorem content_succ (block indentless : Bool) (p : Properties) (next : Option Token) :
    Composes (readContent block indentless p next (count + 1)) := by
  unfold readContent
  split
  · exact advance_composes.bind fun _ => add_composes _ _
  · exact advance_composes.bind fun _ => addSequence_composes p (h.flowItems true)
  · exact advance_composes.bind fun _ => addMapping_composes p (h.flowEntries true)
  · refine .ite (addSequence_composes p h.looseItems) ?_
    refine .ite (advance_composes.bind fun _ => addSequence_composes p h.items) ?_
    refine .ite (advance_composes.bind fun _ => addMapping_composes p h.entries) ?_
    exact .ite (add_composes _ _) misplaced_composes

theorem items_succ : Composes (readItems (count + 1)) := by
  unfold readItems
  refine (accept_composes _).bind fun _ => .ite ?_ ?_
  · exact (h.absentOr _ _ _).bind fun _ => h.items.bind fun _ => .pure _
  · exact (expect_composes _).bind fun _ => .pure _

theorem looseItems_succ : Composes (readLooseItems (count + 1)) := by
  unfold readLooseItems
  refine (accept_composes _).bind fun _ => .ite ?_ (.pure _)
  exact (h.absentOr _ _ _).bind fun _ => h.looseItems.bind fun _ => .pure _

/-- The value of an entry, which may not be there. -/
theorem value_composes (closers : List Token) (block indentless : Bool) {α : Type}
    {f : NodeId → Read α} (hf : ∀ id, Composes (f id)) : Composes (do
      if ← accept .value then f (← readUnless closers block indentless count)
      else f (← addAbsent)) :=
  (accept_composes _).bind fun _ => .ite ((h.absentOr _ _ _).bind hf) ((add_composes _ _).bind hf)

theorem entries_succ : Composes (readEntries (count + 1)) := by
  unfold readEntries
  refine (accept_composes _).bind fun _ => .ite ?_ ?_
  · refine (h.absentOr _ _ _).bind fun key => h.value_composes _ _ _ fun value => ?_
    exact h.entries.bind fun _ => .pure _
  · exact (expect_composes _).bind fun _ => .pure _

theorem flowEntry_succ (closing : Token) : Composes (readFlowEntry closing (count + 1)) := by
  unfold readFlowEntry
  exact (h.absentOr _ _ _).bind fun key => h.value_composes _ _ _ fun value => .pure _

theorem flowItems_succ (first : Bool) : Composes (readFlowItems first (count + 1)) := by
  have hrest : Composes (do
      if ← accept .flowSequenceEnd then return []
      else if ← accept .key then
        let item ← addMapping {} (return [← readFlowEntry .flowSequenceEnd count])
        return item :: (← readFlowItems false count)
      else
        let item ← Node.read false false count
        return item :: (← readFlowItems false count)) := by
    refine (accept_composes _).bind fun _ => .ite (.pure _) ?_
    refine (accept_composes _).bind fun _ => .ite ?_ ?_
    · refine (addMapping_composes _ ((h.flowEntry _).bind fun _ => .pure _)).bind fun item => ?_
      exact (h.flowItems false).bind fun _ => .pure _
    · exact (h.read _ _).bind fun item => (h.flowItems false).bind fun _ => .pure _
  unfold readFlowItems
  refine (accept_composes _).bind fun _ => .ite (.pure _) ?_
  exact .ite ((expect_composes _).bind fun _ => hrest) hrest

theorem flowEntries_succ (first : Bool) : Composes (readFlowEntries first (count + 1)) := by
  have hrest : Composes (do
      if ← accept .flowMappingEnd then return []
      else if ← accept .key then
        let entry ← readFlowEntry .flowMappingEnd count
        return entry :: (← readFlowEntries false count)
      else
        let key ← Node.read false false count
        let value ← addAbsent
        return (key, value) :: (← readFlowEntries false count)) := by
    refine (accept_composes _).bind fun _ => .ite (.pure _) ?_
    refine (accept_composes _).bind fun _ => .ite ?_ ?_
    · exact (h.flowEntry _).bind fun _ => (h.flowEntries false).bind fun _ => .pure _
    · refine (h.read _ _).bind fun key => (add_composes _ _).bind fun value => ?_
      exact (h.flowEntries false).bind fun _ => .pure _
  unfold readFlowEntries
  refine (accept_composes _).bind fun _ => .ite (.pure _) ?_
  exact .ite ((expect_composes _).bind fun _ => hrest) hrest

theorem absentOr_succ (closers : List Token) (block indentless : Bool) :
    Composes (readUnless closers block indentless (count + 1)) := by
  unfold readUnless
  exact (isOneOf_composes _).bind fun _ => .ite (add_composes _ _) (h.read _ _)

theorem succ : AllCompose (count + 1) where
  read := h.read_succ
  content := h.content_succ
  items := h.items_succ
  looseItems := h.looseItems_succ
  entries := h.entries_succ
  flowEntry := h.flowEntry_succ
  flowItems := h.flowItems_succ
  flowEntries := h.flowEntries_succ
  absentOr := h.absentOr_succ

end AllCompose

theorem allCompose (count : Nat) : AllCompose count := by
  induction count with
  | zero => exact .zero
  | succ count ih => exact ih.succ

/-! ## Documents -/

theorem readDirectives_composes (versioned : Bool) (count : Nat) :
    Composes (readDirectives versioned count) := by
  induction count generalizing versioned with
  | zero => exact misplaced_composes
  | succ count ih =>
      unfold readDirectives
      refine peek_composes.bind fun t? => ?_
      split
      · exact .ite misplaced_composes (advance_composes.bind fun _ => ih _)
      · refine Composes.get.bind fun r => .ite misplaced_composes ?_
        exact advance_composes.bind fun _ => .modify_bind (fun _ => rfl) fun _ => ih _
      · exact advance_composes.bind fun _ => ih _
      · exact .pure _

theorem readAnnouncement_composes (count : Nat) : Composes (readAnnouncement count) := by
  refine .modify_bind (fun _ => rfl) fun _ => ?_
  refine (readDirectives_composes false count).bind fun _ => ?_
  exact .modify_bind (fun _ => rfl) fun _ => expect_composes _

theorem readAnnounced_composes (count : Nat) : Composes (readAnnounced count) := by
  refine (readAnnouncement_composes count).bind fun _ => peek_composes.bind fun t? => ?_
  split
  · exact add_composes _ _
  · exact add_composes _ _
  · exact add_composes _ _
  · exact add_composes _ _
  · exact (allCompose count).read _ _

theorem skipEnds_composes (count : Nat) : Composes (skipEnds count) := by
  induction count with
  | zero => exact misplaced_composes
  | succ count ih =>
      unfold skipEnds
      exact (accept_composes _).bind fun _ => .ite ih (.pure _)

theorem readOnly_composes (count : Nat) : Composes (readOnly count) := by
  unfold readOnly
  refine peek_composes.bind fun t? => ?_
  split
  · exact .pure _
  · extract_lets finish
    have hfinish (root : NodeId) : Composes (finish root) := by
      refine (skipEnds_composes count).bind fun _ => peek_composes.bind fun t? => ?_
      split
      · exact .pure _
      · exact (readAnnouncement_composes count).bind fun _ => misplaced_composes
    split
    · exact (readAnnounced_composes count).bind hfinish
    · exact (readAnnounced_composes count).bind hfinish
    · exact .modify_bind (fun _ => rfl) fun _ => ((allCompose count).read _ _).bind hfinish

/-- **Reading the nodes of a document fails only with the faults of a text.** -/
theorem isOfText_of_ofBytes {bytes : List UInt8} {f : Fault}
    (h : Node.ofSource (.ofBytes bytes) = .error f) : f.IsOfText := by
  unfold Node.ofSource at h
  have hfault : ∀ f, (tokens (.ofBytes bytes)).2 = some f → f.IsOfText := fun f hf =>
    tokens_fault (fun f hf => Source.stop_ofBytes bytes hf) hf
  generalize tokens (.ofBytes bytes) = read at hfault h
  have hread := readOnly_composes (4 * read.1.length + 8) 0 { tokens := read.1, fault := read.2 } hfault
  exact (hread.map fun _ _ => trivial : Within _ (fun _ => True) _).of_eq_error h

end Node

end TextProviders.Document
