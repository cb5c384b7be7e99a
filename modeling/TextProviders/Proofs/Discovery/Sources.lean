import Mathlib.Data.List.Forall2
import Mathlib.Data.String.Basic
import TextProviders.Discovery

/-!
# The sources below some roots, and what is reported of them

A source below a root is a file whose name ends in `.java` and to which directories lead (`IsSource`).  These
are the ones that are scanned, in the order of the names on their paths (`mem_sourcesBelow_iff`,
`pairwise_sourcesBelow`).

A scan of a source returns what is reported of its text (`scanFile_eq_ok_iff`), a scan of a root that of its
sources one after the other, and a scan of several roots that of each of them (`scanRoots_eq_ok_iff`).
Each of these returns only if all its parts do.
-/

namespace TextProviders

namespace FileSystem

variable {fs : FileSystem}

/-- Directories lead from a place to what stands below it. -/
theorem reaches_iff {top names : Location} : fs.reaches top names = true ↔
    ∀ dir, dir ≠ [] → dir ≠ names → dir <+: names → fs.get? (top ++ dir) = some .directory := by
  induction names generalizing top with
  | nil =>
      refine ⟨fun _ dir hne _ hprefix => absurd (List.prefix_nil.mp hprefix) hne, fun _ => ?_⟩
      rw [reaches]
  | cons name rest ih =>
      cases rest with
      | nil =>
          constructor
          · intro _ dir hne hnot hprefix
            obtain ⟨more, hmore⟩ := hprefix
            cases dir with
            | nil => exact absurd rfl hne
            | cons first dir =>
                obtain ⟨rfl, hrest⟩ := List.cons.inj hmore
                exact absurd (by rw [(List.append_eq_nil_iff.mp hrest).1]) hnot
          · intro _
            rw [reaches]
      | cons next rest =>
          have hsplit (dir : Location) : top ++ name :: dir = top ++ [name] ++ dir := by simp
          rw [reaches, Bool.and_eq_true, decide_eq_true_eq, ih]
          · constructor
            · rintro ⟨hfirst, hrest⟩ dir hne hnot hprefix
              cases dir with
              | nil => exact absurd rfl hne
              | cons first dir =>
                  obtain ⟨rfl, hinner⟩ := List.cons_prefix_cons.mp hprefix
                  by_cases hdir : dir = []
                  · rw [hdir]
                    exact hfirst
                  · rw [hsplit]
                    exact hrest dir hdir (fun heq => hnot (by rw [heq])) hinner
            · intro h
              refine ⟨h [name] (by simp) (by simp) (by simp), fun dir hne hnot hprefix => ?_⟩
              rw [← hsplit]
              exact h (name :: dir) (by simp) (fun heq => hnot (List.cons.inj heq).2)
                (List.cons_prefix_cons.mpr ⟨rfl, hprefix⟩)
          · exact List.cons_ne_nil _ _

/-- What stands somewhere other than the root is an entry. -/
theorem get?_ne_none_iff {loc : Location} (h : loc ≠ []) :
    fs.get? loc ≠ none ↔ ∃ e, (loc, e) ∈ fs.entries := by
  rw [get?, if_neg h, ne_eq, Option.map_eq_none_iff, List.find?_eq_none]
  simp

/-- What is found below a place is what stands there and is reached. -/
theorem mem_below_iff {top names : Location} : names ∈ (fs.below top).map (·.1) ↔
    names ≠ [] ∧ fs.get? (top ++ names) ≠ none ∧ fs.reaches top names = true := by
  have hbelow {loc : Location} : (top.isPrefixOf loc && decide (top.length < loc.length)) = true ↔
      ∃ names, names ≠ [] ∧ loc = top ++ names := by
    rw [Bool.and_eq_true, List.isPrefixOf_iff_prefix, decide_eq_true_eq]
    constructor
    · rintro ⟨⟨names, rfl⟩, hlong⟩
      refine ⟨names, ?_, rfl⟩
      rintro rfl
      simp at hlong
    · rintro ⟨names, hne, rfl⟩
      have hpos := List.length_pos_of_ne_nil hne
      exact ⟨List.prefix_append top names, by rw [List.length_append]; omega⟩
  rw [below, List.mem_map]
  constructor
  · rintro ⟨⟨rest, e⟩, hmem, rfl⟩
    obtain ⟨⟨loc, e'⟩, hentry, hfound⟩ := List.mem_filterMap.mp hmem
    dsimp only at hfound
    split at hfound
    · next hprefix =>
      obtain ⟨names, hne, rfl⟩ := hbelow.mp hprefix
      rw [List.drop_left] at hfound
      split at hfound
      · next hreaches =>
        obtain ⟨rfl, rfl⟩ := Prod.mk.inj (Option.some.inj hfound)
        exact ⟨hne, (get?_ne_none_iff (by simp [hne])).mpr ⟨e', hentry⟩, hreaches⟩
      · cases hfound
    · cases hfound
  · rintro ⟨hne, hstands, hreaches⟩
    obtain ⟨e, hentry⟩ := (get?_ne_none_iff (by simp [hne])).mp hstands
    refine ⟨(names, e), List.mem_filterMap.mpr ⟨(top ++ names, e), hentry, ?_⟩, rfl⟩
    dsimp only
    rw [if_pos (hbelow.mpr ⟨names, hne, rfl⟩), List.drop_left, if_pos hreaches]

end FileSystem

namespace Discovery

variable {fs : FileSystem} {here : Location}

/-! ## Sources below a root -/

/-- The path of what stands below a root. -/
def pathBelow (root : Path) (names : Location) : Path :=
  ⟨root.anchor, root.parts ++ names⟩

/-- The names lead from a root that is there to a source. -/
structure IsSource (fs : FileSystem) (here : Location) (root : Path) (names : Location) : Prop where
  isDirectory : fs.isDirectory here root = .ok true
  stands : fs.get? (directoryAt fs here root ++ names) ≠ none
  /-- Each place on the way is a directory. -/
  reached : ∀ dir, dir ≠ [] → dir ≠ names → dir <+: names →
    fs.get? (directoryAt fs here root ++ dir) = some .directory
  named : ∃ name ∈ names.getLast?, isSourceName name = true

/-- **The sources that are scanned are those that are there.** -/
theorem mem_sourcesBelow_iff {root : Path} (hroot : fs.isDirectory here root = .ok true)
    {names : Location} :
    names ∈ sourcesBelow fs (directoryAt fs here root) ↔ IsSource fs here root names := by
  have hnamed : ((names.getLast?.map isSourceName).getD false) = true ↔
      ∃ name ∈ names.getLast?, isSourceName name = true := by
    cases names.getLast? with
    | none => simp
    | some name => simp
  rw [sourcesBelow, List.mem_mergeSort, List.mem_filter, FileSystem.mem_below_iff,
    FileSystem.reaches_iff, hnamed]
  constructor
  · rintro ⟨⟨-, hstands, hreached⟩, hname⟩
    exact ⟨hroot, hstands, hreached, hname⟩
  · rintro ⟨-, hstands, hreached, hname⟩
    refine ⟨⟨?_, hstands, hreached⟩, hname⟩
    rintro rfl
    obtain ⟨name, hmem, -⟩ := hname
    cases hmem

/-- The sources of a root are scanned in the order of the names that lead to them. -/
theorem pairwise_sourcesBelow (fs : FileSystem) (top : Location) :
    (sourcesBelow fs top).Pairwise fun a b => ¬b < a := by
  have hle (a b : Location) : (!b.lex a fun x y => decide (x < y)) = true ↔ a ≤ b := by
    rw [Bool.not_eq_true', ← Bool.not_eq_true, List.lex_eq_true_iff_lt, not_lt]
  have hsorted : (sourcesBelow fs top).Pairwise fun a b =>
      (!b.lex a fun x y => decide (x < y)) = true := by
    refine List.pairwise_mergeSort (fun a b c hab hbc => ?_) (fun a b => ?_) _
    · exact (hle a c).mpr (((hle a b).mp hab).trans ((hle b c).mp hbc))
    · rw [Bool.or_eq_true, hle, hle]
      exact le_total a b
  exact hsorted.imp fun h => not_lt.mpr ((hle _ _).mp h)

/-! ## Reports -/

/-- What is reported of a source: its text is read, and its line ends are unified. -/
def Reports (fs : FileSystem) (here : Location) (origin : Path) (ds : List Declaration) : Prop :=
  ∃ bytes text, fs.read here origin = .ok bytes ∧ Text.Utf8.decode bytes = .ok text ∧
    Source.declarations (String.ofList (Text.unifyLineEnds text)) = .ok ds

theorem scanFile_eq_ok_iff {origin : Path} {ds : List Declaration} :
    (scanFile fs here origin).2 = .ok ds ↔ Reports fs here origin ds := by
  constructor
  · intro h
    unfold scanFile at h
    split at h
    · cases h
    · next bytes hread =>
      split at h
      · cases h
      · next text hdecode =>
        dsimp only at h
        split at h
        · cases h
        · next hfault =>
          refine ⟨bytes, text, hread, hdecode, ?_⟩
          rw [Source.declarations, String.toList_ofList, hfault]
          exact congrArg Except.ok (Except.ok.inj h)
  · rintro ⟨bytes, text, hread, hdecode, h⟩
    rw [Source.declarations, String.toList_ofList] at h
    split at h
    · cases h
    · next hfault =>
      rw [scanFile, hread]
      dsimp only
      rw [hdecode]
      dsimp only
      rw [hfault]
      exact congrArg Except.ok (Except.ok.inj h)

/-- Two answers, one after the other. -/
theorem bind_append_eq_ok_iff {ε α : Type} {first later : Except ε (List α)} {as : List α} :
    (first.bind fun part => later.map (part ++ ·)) = .ok as ↔
      ∃ part rest, first = .ok part ∧ later = .ok rest ∧ as = part ++ rest := by
  cases first with
  | error e => exact ⟨fun h => (by cases h), fun ⟨_, _, h, _⟩ => (by cases h)⟩
  | ok part =>
      cases later with
      | error e => exact ⟨fun h => (by cases h), fun ⟨_, _, _, h, _⟩ => (by cases h)⟩
      | ok rest =>
          constructor
          · intro h
            exact ⟨part, rest, rfl, rfl, (Except.ok.inj h).symm⟩
          · rintro ⟨_, _, hpart, hrest, rfl⟩
            obtain rfl := Except.ok.inj hpart
            obtain rfl := Except.ok.inj hrest
            rfl

/-- What is made of the elements of a list one after the other is put together of what is made of each. -/
theorem iff_exists_forall₂ {α β : Type} {one : α → List β → Prop} (all : List α → List β → Prop)
    (hnil : ∀ bs, all [] bs ↔ bs = [])
    (hcons : ∀ a as bs, all (a :: as) bs ↔
      ∃ part later, one a part ∧ all as later ∧ bs = part ++ later)
    (as : List α) (bs : List β) :
    all as bs ↔ ∃ parts, List.Forall₂ one as parts ∧ bs = parts.flatten := by
  induction as generalizing bs with
  | nil =>
      rw [hnil]
      constructor
      · rintro rfl
        exact ⟨[], .nil, rfl⟩
      · rintro ⟨parts, hparts, rfl⟩
        cases hparts
        rfl
  | cons a as ih =>
      rw [hcons]
      constructor
      · rintro ⟨part, later, hpart, hlater, rfl⟩
        obtain ⟨parts, hparts, rfl⟩ := (ih later).mp hlater
        exact ⟨part :: parts, .cons hpart hparts, rfl⟩
      · rintro ⟨_, hparts, rfl⟩
        cases hparts with
        | cons hpart hparts => exact ⟨_, _, hpart, (ih _).mpr ⟨_, hparts, rfl⟩, rfl⟩

/-- The sources are scanned one after the other. -/
theorem scanFiles_eq_ok_iff {origins : List Path} {ds : List Declaration} :
    (scanFiles fs here origins).2 = .ok ds ↔
      ∃ parts, List.Forall₂ (Reports fs here) origins parts ∧ ds = parts.flatten := by
  refine iff_exists_forall₂ (fun origins ds => (scanFiles fs here origins).2 = .ok ds) ?_ ?_ origins ds
  · exact fun ds => ⟨fun h => (Except.ok.inj h).symm, fun h => congrArg Except.ok h.symm⟩
  · intro origin rest ds
    have hstep : (scanFiles fs here (origin :: rest)).2 =
        (scanFile fs here origin).2.bind fun part => (scanFiles fs here rest).2.map (part ++ ·) := by
      rw [scanFiles]
      generalize scanFile fs here origin = scanned
      obtain ⟨notes, answer⟩ := scanned
      cases answer with
      | error f => rfl
      | ok part => rfl
    rw [hstep, bind_append_eq_ok_iff]
    simp only [scanFile_eq_ok_iff]

/-- What is reported of the sources below a root; a root that is not there has none. -/
inductive ReportsUnder (fs : FileSystem) (here : Location) (root : Path) : List Declaration → Prop
  | missing (h : fs.isDirectory here root = .ok false) : ReportsUnder fs here root []
  | sources {parts : List (List Declaration)} (h : fs.isDirectory here root = .ok true)
      (hparts : List.Forall₂ (fun names ds => Reports fs here (pathBelow root names) ds)
        (sourcesBelow fs (directoryAt fs here root)) parts) : ReportsUnder fs here root parts.flatten

/-- **The roots are scanned one after the other**, and a scan returns if that of each root does. -/
theorem scanRoots_eq_ok_iff {roots : List Path} {ds : List Declaration} :
    (scanRoots fs here roots).2 = .ok ds ↔
      ∃ parts, List.Forall₂ (ReportsUnder fs here) roots parts ∧ ds = parts.flatten := by
  refine iff_exists_forall₂ (fun roots ds => (scanRoots fs here roots).2 = .ok ds) ?_ ?_ roots ds
  · exact fun ds => ⟨fun h => (Except.ok.inj h).symm, fun h => congrArg Except.ok h.symm⟩
  · intro root rest ds
    have hscanned {part : List Declaration} (hroot : fs.isDirectory here root = .ok true) :
        (scanFiles fs here ((sourcesBelow fs (directoryAt fs here root)).map (pathBelow root))).2 =
          .ok part ↔ ReportsUnder fs here root part := by
      rw [scanFiles_eq_ok_iff]
      simp only [List.forall₂_map_left_iff]
      constructor
      · rintro ⟨parts, hparts, rfl⟩
        exact .sources hroot hparts
      · intro h
        cases h with
        | missing hmissing => cases hroot.symm.trans hmissing
        | sources _ hparts => exact ⟨_, hparts, rfl⟩
    cases hroot : fs.isDirectory here root with
    | error f =>
        rw [scanRoots, hroot]
        refine ⟨fun h => (by cases h), ?_⟩
        rintro ⟨_, _, h, -⟩
        cases h with
        | missing h | sources h _ => cases hroot.symm.trans h
    | ok there =>
        cases there with
        | false =>
            rw [scanRoots, hroot]
            constructor
            · intro h
              exact ⟨[], ds, .missing hroot, h, rfl⟩
            · rintro ⟨_, later, h, hlater, rfl⟩
              cases h with
              | missing _ => exact hlater
              | sources h _ => cases hroot.symm.trans h
        | true =>
            have hstep : (scanRoots fs here (root :: rest)).2 =
                (scanFiles fs here ((sourcesBelow fs (directoryAt fs here root)).map
                  (pathBelow root))).2.bind fun part => (scanRoots fs here rest).2.map (part ++ ·) := by
              rw [scanRoots, hroot]
              unfold pathBelow
              dsimp only
              generalize scanFiles fs here (List.map _ _) = scanned
              obtain ⟨notes, answer⟩ := scanned
              cases answer with
              | error f => rfl
              | ok part => rfl
            rw [hstep, bind_append_eq_ok_iff]
            simp only [hscanned hroot]

end Discovery

end TextProviders
