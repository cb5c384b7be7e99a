import TextProviders.Document.Load
import TextProviders.Proofs.Document.Steps
import TextProviders.Proofs.Document.Texts

/-!
# Loading a document whose scalars have values

A scalar of a type can fail to have a value of it in many ways, and each fails with a fault of its own.
If every scalar of a document has a value (`Nodes.HaveValues`), loading fails with faults of form only
(`isForm_of_load`), and all that is loaded has a text (`areShown_of_load`).

Mappings come in twice.  A mapping can be marked as a scalar; then an entry of it stands for it, and that
can have any content, or be the mapping itself.  And a mapping can take over the entries of others, which
changes the nodes while they are loaded; but it changes no type except that of a mark that is read as a
key (`takeOver_steps`).
-/

namespace TextProviders.Document

/-- Faults of form, about which nothing more is said. -/
def Fault.IsForm (f : Fault) : Prop :=
  f = .malformed

instance : DecidablePred Fault.IsForm :=
  fun f => inferInstanceAs (Decidable (f = .malformed))

/-! ## Nodes with values -/

/-- A scalar has a value of its type, or its form is at fault; an integer is one that can be written.  No
mapping is marked as a scalar or as a value. -/
def Node.HasValue (id : NodeId) : Node → Prop
  | .scalar tag content => Within Fault.IsForm (Value.IsShown 0) (scalarValue id tag content)
  | .sequence _ _ => True
  | .mapping tag _ => tag.isScalar = false ∧ tag ≠ .value

instance (id : NodeId) : (n : Node) → Decidable (n.HasValue id)
  | .scalar tag content =>
    inferInstanceAs (Decidable (Within Fault.IsForm (Value.IsShown 0) (scalarValue id tag content)))
  | .sequence _ _ => .isTrue trivial
  | .mapping tag _ => inferInstanceAs (Decidable (tag.isScalar = false ∧ tag ≠ .value))

/-- Every node of a document has a value. -/
def Nodes.HaveValues (nodes : Nodes) : Prop :=
  ∀ (id : NodeId) (n : Node), nodes[id]? = some n → n.HasValue id

theorem Nodes.haveValues_iff {nodes : Nodes} :
    nodes.HaveValues ↔ ∀ i : Fin nodes.size, nodes[i].HasValue i := by
  refine ⟨fun h i => h i _ (Array.getElem?_eq_getElem i.isLt), fun h id n hn => ?_⟩
  obtain ⟨hid, rfl⟩ := Array.getElem?_eq_some_iff.mp hn
  exact h ⟨id, hid⟩

instance (nodes : Nodes) : Decidable nodes.HaveValues :=
  decidable_of_iff _ Nodes.haveValues_iff.symm

namespace Nodes

theorem content_scalar {nodes : Nodes} {id : NodeId} {tag : Tag} {content : List Nat} (count : Nat)
    (h : nodes[id]? = some (.scalar tag content)) :
    Nodes.content nodes (count + 1) id = .ok content := by
  simp only [Nodes.content, h]

theorem content_sequence {nodes : Nodes} {id : NodeId} {tag : Tag} {items : List NodeId} (count : Nat)
    (h : nodes[id]? = some (.sequence tag items)) :
    Nodes.content nodes (count + 1) id = .error .malformed := by
  simp only [Nodes.content, h]

/-- Where nodes have values, the value of one that is no collection can be shown. -/
theorem HaveValues.scalarAt {nodes : Nodes} (h : nodes.HaveValues) (id : NodeId) :
    Within Fault.IsForm (Value.IsShown 0) (nodes.scalarAt id) := by
  unfold Nodes.scalarAt
  cases hnode : nodes[id]? with
  | none => exact .error rfl
  | some n =>
      have hvalue := h id n hnode
      dsimp only
      split
      · next hscalar =>
        cases n with
        | scalar tag content =>
            rw [content_scalar nodes.size hnode]
            cases tag <;> exact hvalue
        | sequence tag items =>
            rw [content_sequence nodes.size hnode]
            exact .error rfl
        | mapping tag entries =>
            have hcollection : tag.isScalar = true := hscalar
            cases hcollection.symm.trans hvalue.1
      · exact .error rfl

/-! ## Taking over entries -/

theorem HaveValues.setEntries {nodes : Nodes} (h : nodes.HaveValues) (id : NodeId)
    (entries : List (NodeId × NodeId)) : (nodes.setEntries id entries).HaveValues := by
  intro other n hn
  unfold Nodes.setEntries at hn
  rw [Array.getElem?_modify] at hn
  split at hn
  · obtain ⟨m, hm, rfl⟩ := Option.map_eq_some_iff.mp hn
    have hvalue := h other m hm
    cases m with
    | scalar tag content => exact hvalue
    | sequence tag items => exact hvalue
    | mapping tag old => exact hvalue
  · exact h other n hn

/-- A mark that is read as a key is a text. -/
theorem HaveValues.asKey {nodes : Nodes} (h : nodes.HaveValues) (entry : NodeId × NodeId) :
    (nodes.asKey entry).HaveValues := by
  unfold Nodes.asKey
  split
  · next m hm =>
    split
    · next hmark =>
      intro other n hn
      rw [Array.getElem?_setIfInBounds] at hn
      split at hn
      · split at hn
        · obtain rfl := Option.some.inj hn
          cases m with
          | scalar tag content =>
              show (textOf content).IsShown 0
              unfold textOf
              split <;> trivial
          | sequence tag items => trivial
          | mapping tag entries => exact absurd hmark (h entry.1 _ hm).2
        · cases hn
      · exact h other n hn
    · exact h
  · exact h

theorem HaveValues.foldl_asKey {nodes : Nodes} (h : nodes.HaveValues)
    (entries : List (NodeId × NodeId)) : (entries.foldl Nodes.asKey nodes).HaveValues := by
  induction entries generalizing nodes with
  | nil => exact h
  | cons entry rest ih => exact ih (h.asKey entry)

theorem givers_within (nodes : Nodes) (id : NodeId) :
    Within Fault.IsForm (fun _ => True) (nodes.givers id) := by
  unfold Nodes.givers
  dsimp only
  split
  all_goals
    split
    · exact .ok trivial
    · exact .error rfl

/-- Taking over entries leaves nodes with values, and fails only where the form is at fault. -/
theorem takeOver_steps (count n : Nat) (id : NodeId) :
    Steps Fault.IsForm (fun _ => Nodes.HaveValues) n (fun _ _ => True) (Nodes.takeOver count id) := by
  induction count generalizing n id with
  | zero => exact .throw rfl
  | succ count ih =>
      unfold Nodes.takeOver
      refine Steps.get.bind fun m nodes _ hnodes => ?_
      obtain ⟨rfl, hvalues⟩ := hnodes
      dsimp only
      split
      · exact (Steps.set (hvalues.foldl_asKey _)).mono fun _ _ _ _ => trivial
      · next entry _ =>
        refine (Steps.set (hvalues.setEntries id _)).bind fun m _ _ _ => ?_
        have hgivers : Steps Fault.IsForm (fun _ => Nodes.HaveValues) m (fun _ _ => True)
            (liftM (nodes.givers entry.2)) := .lift (givers_within nodes entry.2)
        refine hgivers.bind fun m givers _ _ => ?_
        have htaken : Steps Fault.IsForm (fun _ => Nodes.HaveValues) m (fun _ _ => True)
            (givers.mapM fun giver => do
              Nodes.takeOver count giver
              return (← get).entries giver) := by
          refine Steps.mono (Steps.mapM (R := fun _ _ => True) (fun _ _ _ _ _ => trivial)
            fun giver _ k _ => ?_) fun _ _ _ _ => trivial
          exact (ih k giver).bind fun k _ _ _ => Steps.get.bind fun k _ _ _ => .pure trivial
        refine htaken.bind fun m taken _ _ => ?_
        refine (ih m id).bind fun m _ _ _ => ?_
        exact (Steps.modify fun s hs => HaveValues.setEntries hs id _).mono fun _ _ _ _ => trivial

end Nodes

/-! ## Loading values -/

/-- All that is loaded so far can be shown, with so many containers; the nodes that are left have
values. -/
structure Loading.IsSound (n : Nat) (l : Loading) : Prop where
  size : l.containers.size = n
  nodes : l.nodes.HaveValues
  values : ∀ (id : NodeId) (v : Value), l.values[id]? = some (some v) → v.IsShown n
  containers : ∀ (id : Nat) (c : Container), l.containers[id]? = some c → c.IsShown n

theorem grows_isShown : Grows fun m (v : Value) => v.IsShown m :=
  fun _ _ _ hle h => h.mono hle

/-- Entries that can be shown. -/
def EntriesShown (n : Nat) (entries : List (Value × Value)) : Prop :=
  ∀ e ∈ entries, e.1.IsShown n ∧ e.2.IsShown n

theorem grows_entriesShown : Grows EntriesShown :=
  fun _ _ _ hle h e he => ⟨(h e he).1.mono hle, (h e he).2.mono hle⟩

theorem EntriesShown.insert {n : Nat} {entries : List (Value × Value)} (h : EntriesShown n entries)
    {key v : Value} (hkey : key.IsShown n) (hv : v.IsShown n) :
    EntriesShown n (Value.insert entries key v) := by
  induction entries with
  | nil => exact List.forall_mem_singleton.mpr ⟨hkey, hv⟩
  | cons e rest ih =>
      obtain ⟨he, hrest⟩ := List.forall_mem_cons.mp h
      unfold Value.insert
      split
      · exact List.forall_mem_cons.mpr ⟨⟨he.1, hv⟩, hrest⟩
      · exact List.forall_mem_cons.mpr ⟨he, ih hrest⟩

namespace Load

variable {n : Nat}

theorem isShown_of_ofTag? {tag : Tag} {c : Container} (h : Container.ofTag? tag = some c) :
    c.IsShown n := by
  cases tag with
  | sequence | omap | pairs | mapping | set =>
      obtain rfl := Option.some.inj h
      exact fun x hx => absurd hx List.not_mem_nil
  | _ => cases h

/-- An empty container is one more. -/
theorem give_steps (id : NodeId) {c : Container} (hc : c.IsShown (n + 1)) :
    Steps Fault.IsForm Loading.IsSound n (fun m v => v.IsShown m) (give id c) := by
  intro l hl
  refine ⟨n + 1, Nat.le_succ n, ⟨?_, hl.nodes, ?_, ?_⟩, ?_⟩
  · exact (Array.size_push c).trans (congrArg (· + 1) hl.size)
  · exact fun id v hv => (hl.values id v hv).mono (Nat.le_succ n)
  · intro id c' hc'
    rw [Array.getElem?_push] at hc'
    split at hc'
    · obtain rfl := Option.some.inj hc'
      exact hc
    · exact (hl.containers id c' hc').mono (Nat.le_succ n)
  · show l.containers.size < n + 1
    rw [hl.size]
    exact Nat.lt_succ_self n

theorem value_steps (id : NodeId) :
    Steps Fault.IsForm Loading.IsSound n (fun m v => v.IsShown m) (value id) := by
  unfold value
  refine Steps.get.bind fun m l _ hl => ?_
  obtain ⟨rfl, hl⟩ := hl
  dsimp only
  split
  · next v hv => exact .pure (hl.values id v (Option.join_eq_some_iff.mp hv))
  · have hkeep (m : Nat) (v : Value) (hv : v.IsShown m) :
        Steps Fault.IsForm Loading.IsSound m (fun m v => v.IsShown m) (do
          modify fun l => { l with values := l.values.setIfInBounds id (some v) }
          return v : Load Value) := by
      refine (Steps.modify fun l hl => ?_).bind fun k _ _ hk => .pure (hk ▸ hv)
      refine ⟨hl.size, hl.nodes, fun other w hw => ?_, hl.containers⟩
      rw [Array.getElem?_setIfInBounds] at hw
      split at hw
      · split at hw
        · obtain rfl := Option.some.inj (Option.some.inj hw)
          exact hv
        · cases hw
      · exact hl.values other w hw
    split
    · next c hc =>
      obtain ⟨tag, -, htag⟩ := Option.bind_eq_some_iff.mp hc
      exact (give_steps id (isShown_of_ofTag? htag)).bind fun m v _ hv => hkeep m v hv
    · have hscalar : Steps Fault.IsForm Loading.IsSound m (fun m v => v.IsShown m)
          (liftM (l.nodes.scalarAt id) : Load Value) :=
        .lift ((hl.nodes.scalarAt id).mono fun v hv => hv.mono (Nat.zero_le m))
      exact hscalar.bind fun m v _ hv => hkeep m v hv

theorem pair_steps (id : NodeId) :
    Steps Fault.IsForm Loading.IsSound n (fun m v => v.IsShown m) (pair id) := by
  unfold pair
  refine Steps.get.bind fun m l _ _ => ?_
  split
  · next k v _ =>
    refine (value_steps k).bind fun m a _ ha => ?_
    refine (value_steps v).bind fun m' b hle hb => .pure ?_
    exact ⟨ha.mono hle, hb⟩
  · exact .throw rfl

theorem entries_steps (id : NodeId) :
    Steps Fault.IsForm Loading.IsSound n EntriesShown (entries id) := by
  unfold entries
  refine Steps.get.bind fun m l _ hl => ?_
  obtain ⟨rfl, hl⟩ := hl
  have htaken : Steps Fault.IsForm Loading.IsSound m (fun k r => k = m ∧ Nodes.HaveValues r.2)
      (liftM ((Nodes.takeOver (l.merges + 1) id).run l.nodes) : Load (Unit × Nodes)) := by
    refine .lift ((Nodes.takeOver_steps (l.merges + 1) 0 id l.nodes hl.nodes).mono fun r hr => ?_)
    obtain ⟨-, -, hnodes, -⟩ := hr
    exact ⟨rfl, hnodes⟩
  refine htaken.bind fun m taken _ hnodes => ?_
  obtain ⟨rfl, hnodes⟩ := hnodes
  refine (Steps.set ⟨hl.size, hnodes, hl.values, hl.containers⟩).bind fun m _ _ _ => ?_
  refine .foldlM (fun e he => absurd he List.not_mem_nil) fun e _ k filled _ hfilled => ?_
  refine (value_steps e.1).bind fun k key hle hkey => ?_
  dsimp only
  split
  · exact .throw rfl
  · refine (value_steps e.2).bind fun k' v hle' hv => .pure ?_
    have hfilled' : EntriesShown k' filled := grows_entriesShown _ _ _ (Nat.le_trans hle hle') hfilled
    exact hfilled'.insert (hkey.mono hle') hv

theorem contents_steps (id : NodeId) :
    Steps Fault.IsForm Loading.IsSound n (fun m c => c.IsShown m) (contents id) := by
  unfold contents
  refine Steps.get.bind fun m l _ _ => ?_
  have hpairs (items : List NodeId) : Steps Fault.IsForm Loading.IsSound m
      (fun m vs => ∀ v ∈ vs, v.IsShown m) (items.mapM pair) :=
    .mapM grows_isShown fun id _ _ _ => pair_steps id
  split
  · next items _ =>
    have hitems : Steps Fault.IsForm Loading.IsSound m (fun m vs => ∀ v ∈ vs, v.IsShown m)
        (items.mapM value) := .mapM grows_isShown fun id _ _ _ => value_steps id
    exact hitems.bind fun m vs _ hvs => .pure hvs
  · exact (hpairs _).bind fun m vs _ hvs => .pure hvs
  · exact (hpairs _).bind fun m vs _ hvs => .pure hvs
  · exact (entries_steps id).bind fun m entries _ hentries => .pure hentries
  · refine (entries_steps id).bind fun m entries _ hentries => .pure fun v hv => ?_
    obtain ⟨e, he, rfl⟩ := List.mem_map.mp (SetOrder.mem_of_mem_arrange hv)
    exact (hentries e he).1
  · exact .throw rfl

theorem fillFrom_steps (count k : Nat) :
    Steps Fault.IsForm Loading.IsSound n (fun _ _ => True) (fillFrom count k) := by
  induction count generalizing n k with
  | zero => exact .pure trivial
  | succ count ih =>
      unfold fillFrom
      refine Steps.get.bind fun m l _ _ => ?_
      split
      · exact .pure trivial
      · next id _ =>
        refine (contents_steps id).bind fun m c _ hc => ?_
        refine (Steps.modify fun l hl => ?_).bind fun m _ _ _ => ih (k + 1)
        refine ⟨(Array.size_setIfInBounds ..).trans hl.size, hl.nodes, hl.values, fun other c' hc' => ?_⟩
        rw [Array.getElem?_setIfInBounds] at hc'
        split at hc'
        · split at hc'
          · obtain rfl := Option.some.inj hc'
            exact hc
          · cases hc'
        · exact hl.containers other c' hc'

end Load

section

variable {source : Source}
  (hnodes : ∀ nodes root, Node.ofSource source = .ok (some (nodes, root)) → nodes.HaveValues)

include hnodes

theorem load_within : Within (fun f => f.IsForm ∨ Node.ofSource source = .error f)
    (fun r => r.1.AreShown ∧ r.2.IsShown r.1.size) (load source) := by
  unfold load
  cases hsource : Node.ofSource source with
  | error f => exact .inr rfl
  | ok found =>
      cases found with
      | none =>
          refine .ok ⟨fun id c hc => ?_, trivial⟩
          cases hc
      | some found =>
          obtain ⟨nodes, root⟩ := found
          have hall : Steps Fault.IsForm Loading.IsSound 0 (fun m v => v.IsShown m) (do
              let v ← Load.value root
              Load.fillFrom (nodes.size + 1) 0
              return v) := by
            refine (Load.value_steps root).bind fun m v _ hv => ?_
            refine (Load.fillFrom_steps _ 0).bind fun k _ hle _ => .pure (hv.mono hle)
          have hstart : Loading.IsSound 0
              { nodes, merges := nodes.mergeCount, values := Array.replicate nodes.size none } := by
            refine ⟨rfl, hnodes nodes root hsource, fun id v hv => ?_, fun id c hc => by cases hc⟩
            rw [Array.getElem?_replicate] at hv
            split at hv
            · cases hv
            · cases hv
          refine ((hall _ hstart).mono_fault fun f hf => .inl hf).bind fun r hr => ?_
          obtain ⟨m, -, hsound, hv⟩ := hr
          obtain rfl := hsound.size
          exact .ok ⟨hsound.containers, hv⟩

/-- **A document whose scalars have values is loaded, unless its form is at fault** or it cannot be read. -/
theorem isForm_of_load {f : Fault} (h : load source = .error f) :
    f.IsForm ∨ Node.ofSource source = .error f :=
  (load_within hnodes).of_eq_error h

/-- All that is loaded of such a document can be shown. -/
theorem areShown_of_load {cs : Containers} {v : Value} (h : load source = .ok (cs, v)) :
    cs.AreShown ∧ v.IsShown cs.size :=
  (load_within hnodes).of_eq_ok h

end

end TextProviders.Document
