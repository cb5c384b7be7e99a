import TextProviders.Proofs.FileSystem.Making

/-!
# What is made elsewhere is not seen

A file system grows at a place if nothing is lost and what is new stands at that place, below it, or is
a directory above it (`GrowsAt`).  A path below a directory that is apart from the place leads to what
it led to before: `GrowsAt.stat_eq`.

Directories above the place can be above the path too, and if they are new the path goes further than
before.  Since nothing stood below them it still finds nothing; but it comes to names that it did not
come to before, and so these have to fit.
-/

namespace TextProviders.FileSystem

/-- Neither place is the other or stands below it. -/
def Apart (a b : Location) : Prop :=
  ¬a <+: b ∧ ¬b <+: a

instance (a b : Location) : Decidable (Apart a b) :=
  inferInstanceAs (Decidable (¬a <+: b ∧ ¬b <+: a))

/-- What is below one of two places that are apart is apart from the other. -/
theorem Apart.below {a b : Location} (h : Apart a b) (more : List String) : Apart (a ++ more) b := by
  constructor
  · intro habove
    exact h.1 ((List.prefix_append a more).trans habove)
  · intro hbelow
    rcases List.prefix_or_prefix_of_prefix hbelow (List.prefix_append a more) with hba | hab
    · exact h.2 hba
    · exact h.1 hab

/-- Everything is kept, and what is new stands at a place or below it, or is a directory above it. -/
structure GrowsAt (top : Location) (old new : FileSystem) : Prop where
  keeps : old.Keeps new
  near : ∀ loc, new.get? loc ≠ old.get? loc → loc <+: top ∨ top <+: loc
  above : ∀ loc, new.get? loc ≠ old.get? loc → loc <+: top → new.get? loc = some .directory

section

variable {old new : FileSystem} {top dir : Location} {rest : List String}

theorem GrowsAt.get?_eq (hg : GrowsAt top old new) {loc : Location} (h : Apart loc top) :
    new.get? loc = old.get? loc := by
  by_cases hsame : new.get? loc = old.get? loc
  · exact hsame
  · exact ((hg.near loc hsame).elim h.1 h.2).elim

/-- Where something is new, nothing stood. -/
theorem GrowsAt.eq_none (hg : GrowsAt top old new) {loc : Location}
    (h : new.get? loc ≠ old.get? loc) : old.get? loc = none := by
  cases hold : old.get? loc with
  | none => rfl
  | some e => exact absurd ((hg.keeps loc e hold).trans hold.symm) h

/-- A new place on the way to one that is apart is a directory. -/
theorem GrowsAt.directory (hg : GrowsAt top old new) {loc : Location}
    (h : new.get? loc ≠ old.get? loc) {more : List String} (hapart : Apart (loc ++ more) top) :
    new.get? loc = some .directory := by
  rcases hg.near loc h with habove | hbelow
  · exact hg.above loc h habove
  · exact absurd (hbelow.trans (List.prefix_append loc more)) hapart.2

theorem enterAll_congr {parts : List String} (hdots : ".." ∉ parts)
    (h : ∀ q, q <+: parts → q ≠ [] → new.get? (dir ++ q) = old.get? (dir ++ q)) :
    new.enterAll dir parts = old.enterAll dir parts := by
  induction parts generalizing dir with
  | nil => rfl
  | cons part rest ih =>
      simp only [List.mem_cons, not_or] at hdots
      have hpart := h [part] (by simp) (by simp)
      have henter : new.enter dir part = old.enter dir part := by
        simp only [enter, hpart]
      simp only [enterAll, henter]
      cases hnext : old.enter dir part with
      | error e => rfl
      | ok next =>
          obtain rfl : next = dir ++ [part] := (enter_eq hnext).trans (if_neg (Ne.symm hdots.1))
          refine ih hdots.2 fun q hq _ => ?_
          have := h (part :: q) (by simpa using hq) (by simp)
          simpa using this

/-- Below a new directory, parts that lead apart come to a name at which nothing stands. -/
theorem GrowsAt.enterAll_of_new (hg : GrowsAt top old new) (hc : old.Closed)
    (hdots : ".." ∉ rest) (hfit : ∀ part ∈ rest, part.utf8ByteSize ≤ maxName)
    (hnew : new.get? dir ≠ old.get? dir) (hapart : Apart (dir ++ rest) top) (more : List String) :
    new.enterAll dir (rest ++ more) = .error .notFound := by
  induction rest generalizing dir with
  | nil =>
      rw [List.append_nil] at hapart
      exact absurd (hg.get?_eq hapart) hnew
  | cons part rest ih =>
      simp only [List.mem_cons, not_or, forall_eq_or_imp] at hdots hfit
      rw [List.append_cons] at hapart
      have hold : old.get? (dir ++ [part]) = none := by
        cases hbelow : old.get? (dir ++ [part]) with
        | none => rfl
        | some e => cases (hg.eq_none hnew).symm.trans (hc dir part e hbelow)
      simp only [List.cons_append, enterAll, enter, if_neg (Ne.symm hdots.1),
        if_neg (Nat.not_lt.mpr hfit.1)]
      by_cases hsame : new.get? (dir ++ [part]) = old.get? (dir ++ [part])
      · rw [hsame, hold]
      · rw [hg.directory hsame hapart]
        exact ih hdots.2 hfit.2 hsame hapart

/-- Parts that lead apart, and more below them, lead where they led. -/
theorem GrowsAt.enterAll_eq (hg : GrowsAt top old new) (hc : old.Closed) {more : List String}
    (hdots : ".." ∉ rest ++ more) (hfit : ∀ part ∈ rest, part.utf8ByteSize ≤ maxName)
    (hapart : Apart (dir ++ rest) top) :
    new.enterAll dir (rest ++ more) = old.enterAll dir (rest ++ more) := by
  induction rest generalizing dir with
  | nil =>
      rw [List.append_nil] at hapart
      exact enterAll_congr hdots fun q _ _ => hg.get?_eq (hapart.below q)
  | cons part rest ih =>
      simp only [List.cons_append, List.mem_cons, not_or, forall_eq_or_imp] at hdots hfit
      rw [List.append_cons] at hapart
      simp only [List.cons_append, enterAll, enter, if_neg (Ne.symm hdots.1),
        if_neg (Nat.not_lt.mpr hfit.1)]
      by_cases hsame : new.get? (dir ++ [part]) = old.get? (dir ++ [part])
      · rw [hsame]
        cases old.get? (dir ++ [part]) with
        | none => rfl
        | some e =>
            cases e with
            | file bytes => rfl
            | directory => exact ih hdots.2 hfit.2 hapart
      · -- the directory is new: before, the path ended here, and now it ends further down
        rw [hg.eq_none hsame, hg.directory hsame hapart]
        have hrest : ".." ∉ rest := fun hmem => hdots.2 (List.mem_append_left _ hmem)
        exact hg.enterAll_of_new hc hrest hfit.2 hsame hapart more

end

/-- **What is made elsewhere is not seen.**  A path below a directory that is apart from where a file
system grew leads to what it led to. -/
theorem GrowsAt.stat_eq {old new : FileSystem} {top here : Location} (hg : GrowsAt top old new)
    (hc : old.Closed) {root : Path} {parts : List String} (hne : parts ≠ [])
    (hdots : ".." ∉ root.parts ++ parts) (hfit : root.NamesFit)
    (hapart : Apart (startOf here root ++ root.parts) top) :
    new.stat here ⟨root.anchor, root.parts ++ parts⟩ =
      old.stat here ⟨root.anchor, root.parts ++ parts⟩ := by
  obtain ⟨front, last, rfl⟩ := (List.eq_nil_or_concat parts).resolve_left hne
  rw [List.concat_eq_append] at hdots ⊢
  have hfront : ".." ∉ root.parts ++ front := by
    intro hmem
    refine hdots ?_
    rw [← List.append_assoc]
    exact List.mem_append_left _ hmem
  have hdir := hg.enterAll_eq hc hfront hfit hapart
  have hlocate : new.locate here ⟨root.anchor, root.parts ++ (front ++ [last])⟩ =
      old.locate here ⟨root.anchor, root.parts ++ (front ++ [last])⟩ := by
    unfold startOf at hdir
    simp only [locate, ← List.append_assoc, List.getLast?_concat, List.dropLast_concat, hdir]
  unfold stat
  rw [hlocate]
  cases hloc : old.locate here ⟨root.anchor, root.parts ++ (front ++ [last])⟩ with
  | error e => rfl
  | ok place =>
      cases place with
      | directory loc => rfl
      | «at» loc =>
          have hplace := eq_placeOf_of_locate hloc
          rw [placeOf_eq hdots] at hplace
          have hsame := hg.get?_eq (hapart.below (front ++ [last]))
          rw [List.append_assoc] at hsame
          rw [hplace]
          dsimp only [startOf] at hsame ⊢
          rw [hsame]

end TextProviders.FileSystem
