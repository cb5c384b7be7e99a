import Mathlib.Control.Monad.Basic
import TextProviders.Discovery
import TextProviders.Proofs.Manifest.Entry

/-!
# What is accepted as a manifest

A manifest is a mapping that lists entries (`Manifest.Lists`): there is nothing for the declarations, or
null, or a list.  Its declarations are those of the entries, one each and in order
(`parseEntries_eq_ok_iff`), and if an entry declares no type, the first one that does not is the one that
the user is told about (`parseEntries_eq_error_iff`).  The main statement is `manifest_accepts_exactly`.

Two things are left out (`Manifest.ReadsAsListed`).  What counts as nothing, such as an empty mapping, the
number zero or an empty text, is read like null where a list is asked for, so that a manifest of the wrong
shape is accepted as an empty one.  And an integer with too many digits cannot be shown, so that a bad
entry is a failure of another kind.
-/

namespace TextProviders

open Document (Containers Value)

/-! ## Entries one after the other -/

section

variable {cs : Containers} {items : List Value} {index : Nat}

/-- Entries make one declaration each, in order. -/
theorem parseEntries_eq_ok_iff {ds : List Declaration} : parseEntries cs index items = .ok ds ↔
    List.Forall₂ (fun item d => parseEntry cs item = .ok d) items ds := by
  induction items generalizing index ds with
  | nil => simp [parseEntries, eq_comm]
  | cons item rest ih =>
      rw [parseEntries, List.forall₂_cons_left_iff]
      cases hitem : parseEntry cs item with
      | error f => simp
      | ok d =>
          dsimp only
          constructor
          · intro h
            cases hrest : parseEntries cs (index + 1) rest with
            | error f => rw [hrest] at h; cases h
            | ok more =>
                rw [hrest] at h
                obtain rfl := Except.ok.inj h
                exact ⟨d, more, rfl, ih.mp hrest, rfl⟩
          · rintro ⟨d', more, hd', hmore, rfl⟩
            obtain rfl := Except.ok.inj hd'
            rw [ih.mpr hmore]
            rfl

/-- The first entry that declares no type is the one that is at fault. -/
theorem parseEntries_eq_error_iff {f : ManifestFault} : parseEntries cs index items = .error f ↔
    ∃ front item rest e, items = front ++ item :: rest ∧
      (∀ before ∈ front, ∃ d, parseEntry cs before = .ok d) ∧ parseEntry cs item = .error e ∧
        f = .entry (index + front.length) e := by
  induction items generalizing index with
  | nil => simp [parseEntries]
  | cons first items ih =>
      rw [parseEntries]
      cases hfirst : parseEntry cs first with
      | error e =>
          constructor
          · intro h
            obtain rfl := Except.error.inj h
            exact ⟨[], first, items, e, rfl, by simp, hfirst, rfl⟩
          · rintro ⟨front, item, rest, e', hsplit, hfront, hitem, rfl⟩
            cases front with
            | nil =>
                obtain ⟨rfl, rfl⟩ := List.cons.inj hsplit
                obtain rfl := Except.error.inj (hfirst.symm.trans hitem)
                rfl
            | cons before front =>
                obtain ⟨rfl, -⟩ := List.cons.inj hsplit
                obtain ⟨d, hd⟩ := hfront first List.mem_cons_self
                cases hfirst.symm.trans hd
      | ok d =>
          have hlater : (parseEntries cs (index + 1) items).map (d :: ·) = .error f ↔
              parseEntries cs (index + 1) items = .error f := by
            cases parseEntries cs (index + 1) items with
            | error e => exact Iff.rfl
            | ok ds => exact ⟨fun h => (by cases h), fun h => (by cases h)⟩
          refine hlater.trans (ih.trans ⟨?_, ?_⟩)
          · rintro ⟨front, item, rest, e, rfl, hfront, hitem, rfl⟩
            refine ⟨first :: front, item, rest, e, rfl, ?_, hitem, ?_⟩
            · exact List.forall_mem_cons.mpr ⟨⟨d, hfirst⟩, hfront⟩
            · rw [List.length_cons, Nat.add_assoc, Nat.add_comm 1]
          · rintro ⟨front, item, rest, e, hsplit, hfront, hitem, rfl⟩
            cases front with
            | nil =>
                obtain ⟨rfl, -⟩ := List.cons.inj hsplit
                cases hfirst.symm.trans hitem
            | cons before front =>
                obtain ⟨rfl, rfl⟩ := List.cons.inj hsplit
                refine ⟨front, item, rest, e, rfl, (List.forall_mem_cons.mp hfront).2, hitem, ?_⟩
                rw [List.length_cons, Nat.add_assoc, Nat.add_comm 1]

end

/-! ## What a manifest lists -/

namespace Manifest

/-- What stands for the declarations in the mapping that a document is. -/
def StandsForDeclarations (cs : Containers) (v : Value) (listed? : Option Value) : Prop :=
  ∃ entries, v.entries? cs = some entries ∧ Value.lookup entries "declarations" = listed?

/-- The entries that the value of a document lists. -/
inductive Lists (cs : Containers) (v : Value) : List Value → Prop
  | absent (h : StandsForDeclarations cs v none) : Lists cs v []
  | null (h : StandsForDeclarations cs v (some .null)) : Lists cs v []
  | list {listed : Value} {items : List Value} (h : StandsForDeclarations cs v (some listed))
      (hitems : listed.items? cs = some items) : Lists cs v items

/-- What stands for the declarations counts as nothing, but is neither null nor a list. -/
def ListsNothing (cs : Containers) (v : Value) : Prop :=
  ∃ listed, StandsForDeclarations cs v (some listed) ∧ listed.isVoid cs = true ∧ listed ≠ .null ∧
    listed.items? cs = none

/-- Neither of the two ways in which a manifest is read otherwise than it is meant. -/
structure ReadsAsListed (cs : Containers) (v : Value) : Prop where
  /-- Nothing but null and lists is read as a list. -/
  listed : ¬ ListsNothing cs v
  /-- No integer in what is shown of an entry has too many digits. -/
  shown : ∀ items, Lists cs v items → ∀ item ∈ items, ∀ entries, item.entries? cs = some entries →
    ∀ key ∈ ["name", "visibility", "file_extension"], IsShownAt cs entries key

section

variable {cs : Containers} {v : Value} {items : List Value}

theorem StandsForDeclarations.unique {a b : Option Value} (ha : StandsForDeclarations cs v a)
    (hb : StandsForDeclarations cs v b) : a = b := by
  obtain ⟨entries, hentries, rfl⟩ := ha
  obtain ⟨entries', hentries', rfl⟩ := hb
  obtain rfl := Option.some.inj (hentries.symm.trans hentries')
  rfl

/-- A manifest lists its entries in one way. -/
theorem Lists.items?_eq {listed : Value} (h : Lists cs v items)
    (hstands : StandsForDeclarations cs v (some listed)) :
    (listed = .null ∧ items = []) ∨ listed.items? cs = some items := by
  cases h with
  | absent h => cases h.unique hstands
  | null h => exact .inl ⟨(Option.some.inj (h.unique hstands)).symm, rfl⟩
  | list h hitems =>
      obtain rfl := Option.some.inj (h.unique hstands)
      exact .inr hitems

/-- A manifest with a list is read as it is meant, if what is shown of its entries can be shown. -/
theorem readsAsListed_of_items? {listed : Value} (hstands : StandsForDeclarations cs v (some listed))
    (hitems : listed.items? cs = some items)
    (hshown : ∀ item ∈ items, ∀ entries ∈ item.entries? cs,
      ∀ key ∈ ["name", "visibility", "file_extension"], IsShownAt cs entries key) :
    ReadsAsListed cs v where
  listed := by
    rintro ⟨listed', hstands', -, -, hnone⟩
    obtain rfl := Option.some.inj (hstands.unique hstands')
    cases hitems.symm.trans hnone
  shown items' hlists := by
    rcases hlists.items?_eq hstands with ⟨rfl, -⟩ | hitems'
    · cases hitems
    · obtain rfl := Option.some.inj (hitems.symm.trans hitems')
      exact fun item hitem entries hentries => hshown item hitem entries hentries

/-- A list counts as nothing exactly if it is empty. -/
theorem isVoid_of_items? {listed : Value} (h : listed.items? cs = some items) :
    listed.isVoid cs = items.isEmpty := by
  cases listed with
  | container id =>
      unfold Value.items? at h
      dsimp only at h
      split at h
      · next hget =>
        obtain rfl := Option.some.inj h
        rw [Value.isVoid, hget]
        rfl
      · cases h
  | _ => cases h

/-- The entries that are listed are read one after the other. -/
theorem ofValue_of_lists (h : Lists cs v items) : ofValue cs v = parseEntries cs 0 items := by
  unfold ofValue
  cases h with
  | absent h =>
      obtain ⟨entries, hentries, hlookup⟩ := h
      rw [hentries]
      dsimp only
      rw [hlookup]
      rfl
  | null h =>
      obtain ⟨entries, hentries, hlookup⟩ := h
      rw [hentries]
      dsimp only
      rw [hlookup]
      rfl
  | @list listed _ h hitems =>
      obtain ⟨entries, hentries, hlookup⟩ := h
      rw [hentries]
      dsimp only
      rw [hlookup, Option.getD_some, isVoid_of_items? hitems, hitems]
      cases items with
      | nil => rfl
      | cons item rest => rfl

theorem ofValue_of_listsNothing (h : ListsNothing cs v) : ofValue cs v = .ok [] := by
  obtain ⟨listed, ⟨entries, hentries, hlookup⟩, hvoid, -⟩ := h
  unfold ofValue
  rw [hentries]
  dsimp only
  rw [hlookup, Option.getD_some, if_pos hvoid]

/-- What is neither null nor a list is refused, unless it counts as nothing. -/
theorem ofValue_of_stands {listed : Value} (h : StandsForDeclarations cs v (some listed))
    (hvoid : listed.isVoid cs = false) (hitems : listed.items? cs = none) :
    ofValue cs v = .error .notList := by
  obtain ⟨entries, hentries, hlookup⟩ := h
  unfold ofValue
  rw [hentries]
  dsimp only
  rw [hlookup, Option.getD_some, if_neg (by simp [hvoid]), hitems]

/-- A document lists entries, or it is no mapping, or something else stands for the declarations. -/
theorem lists_cases (cs : Containers) (v : Value) : (∃ items, Lists cs v items) ∨
    v.entries? cs = none ∨
      ∃ listed, StandsForDeclarations cs v (some listed) ∧ listed ≠ .null ∧ listed.items? cs = none := by
  cases hentries : v.entries? cs with
  | none => exact .inr (.inl rfl)
  | some entries =>
      cases hlookup : Value.lookup entries "declarations" with
      | none => exact .inl ⟨[], .absent ⟨entries, hentries, hlookup⟩⟩
      | some listed =>
          have hstands : StandsForDeclarations cs v (some listed) := ⟨entries, hentries, hlookup⟩
          cases hitems : listed.items? cs with
          | some items => exact .inl ⟨items, .list hstands hitems⟩
          | none =>
              by_cases hnull : listed = .null
              · exact .inl ⟨[], .null (hnull ▸ hstands)⟩
              · exact .inr (.inr ⟨listed, hstands, hnull, hitems⟩)

/-- A document that lists no entries is refused for its shape, unless what it lists counts as
nothing. -/
theorem ofValue_cases (h : ¬ ListsNothing cs v) : (∃ items, Lists cs v items) ∨
    ofValue cs v = .error .notMapping ∨ ofValue cs v = .error .notList := by
  rcases lists_cases cs v with hlists | hnone | ⟨listed, hstands, hnull, hitems⟩
  · exact .inl hlists
  · refine .inr (.inl ?_)
    unfold ofValue
    rw [hnone]
  · refine .inr (.inr (ofValue_of_stands hstands (Bool.eq_false_iff.mpr fun hvoid => ?_) hitems))
    exact h ⟨listed, hstands, hvoid, hnull, hitems⟩

end

/-- A file whose document has a value is read as that value is. -/
theorem read_of_load {fs : FileSystem} {here : Location} {path : Path} {bytes : List UInt8}
    {cs : Containers} {v : Value} (hfile : fs.read here path = .ok bytes)
    (hload : Document.load (.ofBytes bytes) = .ok (cs, v)) :
    Manifest.read fs here path = (ofValue cs v).mapError (.manifest path) := by
  have hbytes : ofBytes bytes = ofValue cs v := by
    unfold ofBytes
    rw [hload]
  unfold Manifest.read
  rw [hfile, ← hbytes]

end Manifest

open Manifest (Lists ListsNothing ReadsAsListed StandsForDeclarations)

/-- **A manifest is accepted if and only if it is a mapping that lists entries each of which declares a
type.**  Then the declarations are those of the entries, in order.  Any other manifest is at fault as
one.  If only entries are at fault, it is the first of them that the user is told about, at its index; and
whatever stands for the declarations that is neither null nor a list is told to be no list. -/
theorem manifest_accepts_exactly {fs : FileSystem} {here : Location} {path : Path}
    {bytes : List UInt8} {cs : Containers} {v : Value} (hfile : fs.read here path = .ok bytes)
    (hload : Document.load (.ofBytes bytes) = .ok (cs, v)) (hmeant : ReadsAsListed cs v) :
    (∀ ds, Manifest.read fs here path = .ok ds ↔ ∃ items, Lists cs v items ∧
      List.Forall₂ (fun item d => parseEntry cs item = .ok d) items ds) ∧
    (∀ f, Manifest.read fs here path = .error f → f.kind = .manifest) ∧
    (∀ front item rest e, Lists cs v (front ++ item :: rest) →
      (∀ before ∈ front, ∃ d, parseEntry cs before = .ok d) → parseEntry cs item = .error e →
        Manifest.read fs here path = .error (.manifest path (.entry front.length e)) ∧
          (InputFailure.manifest path (.entry front.length e)).message? =
            some (e.message front.length)) ∧
    ∀ listed, StandsForDeclarations cs v (some listed) → listed ≠ .null → listed.items? cs = none →
      Manifest.read fs here path = .error (.manifest path .notList) := by
  have hread := Manifest.read_of_load hfile hload
  have herror (f : ManifestFault) (h : Manifest.ofValue cs v = .error f) :
      Manifest.read fs here path = .error (.manifest path f) := by
    rw [hread, h]
    rfl
  have hrefused (f : ManifestFault) (h : Manifest.ofValue cs v = .error f) : f.kind = .manifest := by
    rcases Manifest.ofValue_cases hmeant.listed with ⟨items, hlists⟩ | hshape | hshape
    · rw [Manifest.ofValue_of_lists hlists] at h
      obtain ⟨front, item, rest, e, rfl, -, hitem, rfl⟩ := parseEntries_eq_error_iff.mp h
      exact parseEntry_kind (hmeant.shown _ hlists item (by simp)) hitem
    · exact Except.error.inj (hshape.symm.trans h) ▸ rfl
    · exact Except.error.inj (hshape.symm.trans h) ▸ rfl
  refine ⟨fun ds => ⟨fun h => ?_, ?_⟩, fun f hf => ?_, ?_, fun listed hstands hnull hitems => ?_⟩
  · cases hvalue : Manifest.ofValue cs v with
    | error f => cases h.symm.trans (herror f hvalue)
    | ok ds' =>
        rw [hread, hvalue] at h
        obtain rfl := Except.ok.inj h
        rcases Manifest.ofValue_cases hmeant.listed with ⟨items, hlists⟩ | hshape | hshape
        · rw [Manifest.ofValue_of_lists hlists] at hvalue
          exact ⟨items, hlists, parseEntries_eq_ok_iff.mp hvalue⟩
        · cases hvalue.symm.trans hshape
        · cases hvalue.symm.trans hshape
  · rintro ⟨items, hlists, hall⟩
    rw [hread, Manifest.ofValue_of_lists hlists, parseEntries_eq_ok_iff.mpr hall]
    rfl
  · cases hvalue : Manifest.ofValue cs v with
    | error e =>
        obtain rfl := Except.error.inj ((herror e hvalue).symm.trans hf)
        exact hrefused e hvalue
    | ok ds =>
        rw [hread, hvalue] at hf
        cases hf
  · intro front item rest e hlists hfront hitem
    refine ⟨herror _ ?_, rfl⟩
    rw [Manifest.ofValue_of_lists hlists]
    exact parseEntries_eq_error_iff.mpr
      ⟨front, item, rest, e, rfl, hfront, hitem, by rw [Nat.zero_add]⟩
  · refine herror _ (Manifest.ofValue_of_stands hstands (Bool.eq_false_iff.mpr fun hvoid => ?_) hitems)
    exact hmeant.listed ⟨listed, hstands, hvoid, hnull, hitems⟩

/-- Three entries, of which the second one has a visibility that there is none and the third one is no
mapping. -/
theorem manifest_accepts_exactly_second_entry :
    let text := "declarations:\n- \x7bname: a.B\x7d\n- \x7bname: a.C, visibility: friendly\x7d\n- 7\n"
    let bytes := Text.Utf8.encode text.toList
    let fs : FileSystem := ⟨[(["m.yaml"], .file bytes)]⟩
    let path := Path.ofString "m.yaml"
    let cs : Containers := #[.mapping [(.text "declarations", .container 1)],
      .list [.container 2, .container 3, .whole 7], .mapping [(.text "name", .text "a.B")],
      .mapping [(.text "name", .text "a.C"), (.text "visibility", .text "friendly")]]
    let e : EntryFault := .visibility "a.C" "friendly"
    (fs.read [] path = .ok bytes ∧ Document.load (.ofBytes bytes) = .ok (cs, .container 0) ∧
        ReadsAsListed cs (.container 0)) ∧
      Manifest.read fs [] path = .error (.manifest path (.entry 1 e)) ∧
      (InputFailure.manifest path (.entry 1 e)).message? =
        some "a.C: unknown visibility 'friendly'. Valid: public, protected, private, default" ∧
      ¬∃ ds, List.Forall₂ (fun item d => parseEntry cs item = .ok d)
        [.container 2, .container 3, .whole 7] ds := by
  intro text bytes fs path cs e
  have hfile : fs.read [] path = .ok bytes := by decide +kernel
  have hload : Document.load (.ofBytes bytes) = .ok (cs, .container 0) := by decide +kernel
  have hstands : StandsForDeclarations cs (.container 0) (some (.container 1)) :=
    ⟨[(.text "declarations", .container 1)], by decide, by decide⟩
  have hmeant : ReadsAsListed cs (.container 0) :=
    Manifest.readsAsListed_of_items? hstands rfl (by decide +kernel)
  obtain ⟨haccepts, -, hfirst, -⟩ := manifest_accepts_exactly hfile hload hmeant
  have hlists : Lists cs (.container 0) ([.container 2] ++ .container 3 :: [.whole 7]) :=
    .list hstands rfl
  have hbefore : ∀ before ∈ [Value.container 2], ∃ d, parseEntry cs before = .ok d :=
    List.forall_mem_singleton.mpr ⟨{ name := "a.B" }, by decide +kernel⟩
  obtain ⟨hread, hmessage⟩ := hfirst [.container 2] (.container 3) [.whole 7] e hlists hbefore
    (by decide +kernel)
  refine ⟨⟨hfile, hload, hmeant⟩, hread, hmessage.trans (by decide +kernel), ?_⟩
  rintro ⟨ds, hall⟩
  cases hread.symm.trans ((haccepts ds).mpr ⟨_, hlists, hall⟩)

/-- An empty mapping where the list should be is read as a list of no entries, and so are other things
that count as nothing.  And where an integer with too many digits stands for a name, what is wrong
cannot be said. -/
theorem empty_mapping_lists_no_entries :
    let text := "declarations: \x7b\x7d\n"
    let bytes := Text.Utf8.encode text.toList
    let fs : FileSystem := ⟨[(["m.yaml"], .file bytes)]⟩
    let path := Path.ofString "m.yaml"
    let cs : Containers := #[.mapping [(.text "declarations", .container 1)], .mapping []]
    let only (listed : Value) : Containers := #[.mapping [(.text "declarations", listed)],
      .list [.container 2], .mapping [(.text "name", .whole (10 ^ 4300))]]
    (fs.read [] path = .ok bytes ∧ Document.load (.ofBytes bytes) = .ok (cs, .container 0)) ∧
      Manifest.read fs [] path = .ok [] ∧ (¬∃ items, Lists cs (.container 0) items) ∧
      (∀ listed ∈ [Value.flag false, .whole 0, .text ""],
        Manifest.ofValue (only listed) (.container 0) = .ok []) ∧
      Manifest.ofValue (only (.container 1)) (.container 0) = .error (.entry 0 .unwritable) ∧
      (ManifestFault.entry 0 .unwritable).kind ≠ .manifest := by
  intro text bytes fs path cs only
  have hfile : fs.read [] path = .ok bytes := by decide +kernel
  have hload : Document.load (.ofBytes bytes) = .ok (cs, .container 0) := by decide +kernel
  have hstands : StandsForDeclarations cs (.container 0) (some (.container 1)) :=
    ⟨[(.text "declarations", .container 1)], by decide, by decide⟩
  have hnothing : ListsNothing cs (.container 0) :=
    ⟨.container 1, hstands, by decide, by decide, by decide⟩
  refine ⟨⟨hfile, hload⟩, ?_, ?_, by decide +kernel, by decide +kernel, by decide⟩
  · rw [Manifest.read_of_load hfile hload, Manifest.ofValue_of_listsNothing hnothing]
    rfl
  · rintro ⟨items, hlists⟩
    rcases hlists.items?_eq hstands with ⟨hnull, -⟩ | hitems
    · cases hnull
    · cases hitems

end TextProviders
