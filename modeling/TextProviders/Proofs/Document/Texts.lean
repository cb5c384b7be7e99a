import Mathlib.Data.List.Perm.Subperm
import TextProviders.Document.SetOrder

/-!
# The values that have a text

A value is shown with the containers in it, and a container can be inside itself.  There an ellipsis is
shown, so going down through containers meets each of them once, and as many levels as there are
containers are enough.  What has no text is an integer with too many digits.  Hence a value has a text as
soon as every integer in it and in its containers can be written (`described?_isSome`).
-/

namespace TextProviders.Document

theorem isSome_mapM {α β : Type} {f : α → Option β} {as : List α} (h : ∀ a ∈ as, (f a).isSome) :
    (as.mapM f).isSome := by
  induction as with
  | nil => rfl
  | cons a rest ih =>
      obtain ⟨b, hb⟩ := Option.isSome_iff_exists.mp (h a List.mem_cons_self)
      obtain ⟨bs, hbs⟩ := Option.isSome_iff_exists.mp (ih fun x hx => h x (List.mem_cons_of_mem _ hx))
      simp [List.mapM_cons, hb, hbs]

namespace Value

/-- Every integer in a value can be written, and every container in it has a number below a bound. -/
def IsShown (bound : Nat) : Value → Prop
  | whole n => isTooLong n = false
  | pair a b => a.IsShown bound ∧ b.IsShown bound
  | container id => id < bound
  | _ => True

instance decidableIsShown (bound : Nat) : (v : Value) → Decidable (v.IsShown bound)
  | whole n => inferInstanceAs (Decidable (isTooLong n = false))
  | pair a b =>
    have := decidableIsShown bound a
    have := decidableIsShown bound b
    inferInstanceAs (Decidable (a.IsShown bound ∧ b.IsShown bound))
  | container id => inferInstanceAs (Decidable (id < bound))
  | null | flag _ | real _ | noNumber _ | text _ | brokenText _ | bytes _ | date _ | moment _ =>
    .isTrue trivial

theorem IsShown.mono {bound more : Nat} (hle : bound ≤ more) {v : Value} (h : v.IsShown bound) :
    v.IsShown more := by
  induction v with
  | pair a b iha ihb => exact ⟨iha h.1, ihb h.2⟩
  | container id => exact Nat.lt_of_lt_of_le h hle
  | _ => exact h

/-- A value has a text if the containers in it have. -/
theorem IsShown.text? {bound : Nat} {inside : Nat → Option String}
    (hinside : ∀ id, id < bound → (inside id).isSome) {v : Value} (h : v.IsShown bound) :
    (v.text? inside).isSome := by
  induction v with
  | whole n =>
      have hshort : isTooLong n = false := h
      rw [Value.text?, hshort]
      rfl
  | pair a b iha ihb =>
      obtain ⟨s, hs⟩ := Option.isSome_iff_exists.mp (iha h.1)
      obtain ⟨t, ht⟩ := Option.isSome_iff_exists.mp (ihb h.2)
      simp [Value.text?, hs, ht]
  | container id => exact hinside id h
  | _ => rfl

end Value

namespace Container

/-- Everything in a container is shown. -/
def IsShown (bound : Nat) : Container → Prop
  | list items => ∀ v ∈ items, v.IsShown bound
  | mapping entries => ∀ e ∈ entries, e.1.IsShown bound ∧ e.2.IsShown bound
  | set members => ∀ v ∈ members, v.IsShown bound

theorem IsShown.mono {bound more : Nat} (hle : bound ≤ more) {c : Container} (h : c.IsShown bound) :
    c.IsShown more := by
  cases c with
  | list items => exact fun v hv => (h v hv).mono hle
  | mapping entries => exact fun e he => ⟨(h e he).1.mono hle, (h e he).2.mono hle⟩
  | set members => exact fun v hv => (h v hv).mono hle

theorem IsShown.text? {bound : Nat} {inside : Nat → Option String}
    (hinside : ∀ id, id < bound → (inside id).isSome) {c : Container} (h : c.IsShown bound) :
    (c.text? (Value.text? inside)).isSome := by
  cases c with
  | list items =>
      rw [Container.text?, Option.isSome_map]
      exact isSome_mapM fun v hv => (h v hv).text? hinside
  | mapping entries =>
      rw [Container.text?, Option.isSome_map]
      refine isSome_mapM fun e he => ?_
      obtain ⟨key, hkey⟩ := Option.isSome_iff_exists.mp ((h e he).1.text? hinside)
      obtain ⟨value, hvalue⟩ := Option.isSome_iff_exists.mp ((h e he).2.text? hinside)
      simp [entryText?, hkey, hvalue]
  | set members =>
      cases members with
      | nil => rfl
      | cons v rest =>
          rw [Container.text?, Option.isSome_map]
          · exact isSome_mapM fun v hv => (h v hv).text? hinside
          · exact nofun

end Container

/-- Everything in the containers of a document is shown. -/
def Containers.AreShown (cs : Containers) : Prop :=
  ∀ (id : Nat) (c : Container), cs[id]? = some c → c.IsShown cs.size

namespace Value

/-- A container has a text inside others, if the count leaves room for those that are left.  The induction
is on the count; each step puts one more container around, none twice. -/
theorem containerText?_isSome {cs : Containers} (hcs : cs.AreShown) (count : Nat) {around : List Nat}
    {id : Nat} (hid : id < cs.size) (hnodup : around.Nodup) (hbelow : ∀ i ∈ around, i < cs.size)
    (hcount : cs.size < around.length + count) : (containerText? cs count around id).isSome := by
  induction count generalizing around id with
  | zero =>
      have hsub : around ⊆ List.range cs.size := fun i hi => List.mem_range.mpr (hbelow i hi)
      have hlength := (hnodup.subperm hsub).length_le
      rw [List.length_range] at hlength
      omega
  | succ count ih =>
      have hc : cs[id]? = some cs[id] := Array.getElem?_eq_getElem hid
      rw [containerText?, hc, Option.bind_some]
      split
      · rfl
      · next haround =>
        have hnew : id ∉ around := fun hmem => haround (List.contains_iff_mem.mpr hmem)
        refine (hcs id _ hc).text? fun next hnext => ih hnext (List.nodup_cons.mpr ⟨hnew, hnodup⟩) ?_ ?_
        · exact List.forall_mem_cons.mpr ⟨hid, hbelow⟩
        · rw [List.length_cons]
          omega

/-- **A value has a text if every integer in it and in the containers can be written.** -/
theorem described?_isSome {cs : Containers} (hcs : cs.AreShown) {v : Value}
    (h : v.IsShown cs.size) : (v.described? cs).isSome := by
  refine h.text? fun id hid => containerText?_isSome hcs _ hid List.nodup_nil ?_ ?_
  · exact fun i hi => absurd hi List.not_mem_nil
  · exact Nat.lt_add_left _ (Nat.lt_succ_self _)

theorem isSome_plain? {cs : Containers} {v : Value} (h : (v.described? cs).isSome) :
    (v.plain? cs).isSome := by
  cases v with
  | text s => rfl
  | date d => rfl
  | moment m => rfl
  | _ => exact h

end Value

/-! ## Values that are put in order -/

namespace SetOrder

/-- Places in which nothing but some values stands. -/
def HoldOnly (members : List Value) (places : Places) : Prop :=
  ∀ v, some v ∈ places.toList → v ∈ members

theorem HoldOnly.put {members : List Value} {places : Places} (h : HoldOnly members places)
    {member : Value × Int} (hmember : member.1 ∈ members) :
    HoldOnly members (put places member) := by
  intro v hv
  unfold SetOrder.put at hv
  dsimp only at hv
  rw [Array.toList_setIfInBounds] at hv
  rcases List.mem_or_eq_of_mem_set hv with hold | hnew
  · exact h v hold
  · rw [Option.some.inj hnew]
    exact hmember

/-- A set lists its members and nothing else. -/
theorem mem_of_mem_arrange {members : List Value} {v : Value} (h : v ∈ arrange members) :
    v ∈ members := by
  unfold arrange at h
  split at h
  · exact h
  · next residues _ =>
    have hfold (pairs : List (Value × Int)) (hpairs : ∀ p ∈ pairs, p.1 ∈ members) (places : Places)
        (hplaces : HoldOnly members places) : HoldOnly members (pairs.foldl SetOrder.put places) := by
      induction pairs generalizing places with
      | nil => exact hplaces
      | cons p rest ih =>
          exact ih (fun q hq => hpairs q (List.mem_cons_of_mem _ hq)) _
            (hplaces.put (hpairs p List.mem_cons_self))
    have hempty : HoldOnly members (Array.replicate (placeCount members.length) none) := by
      intro w hw
      rw [Array.toList_replicate] at hw
      cases List.eq_of_mem_replicate hw
    obtain ⟨w, hw, rfl⟩ := List.mem_filterMap.mp h
    exact hfold _ (fun p hp => (List.of_mem_zip hp).1) _ hempty v hw

end SetOrder

end TextProviders.Document
