import TextProviders.Proofs.FileSystem.Looking
import TextProviders.Proofs.Text.Split

/-!
# When a file can be made

A file is made below directories that are made with it.  For a path without double dots that
succeeds exactly if the path is clear (`IsClear.made`, `isClear_of_made`): the system takes the path
and the names in it, no file stands at a place above, and nothing stands at the place itself.
Directories that are missing do not matter, so whether a path is clear does not change when
directories are made.

Directories come to stand at places above the path only (`get?_makeDirsWithin`).  That they are made
one after the other shows when one of them cannot be made: the first one stays
(`makeDirsWithin_first`).
-/

namespace TextProviders

/-! ## Texts of paths -/

namespace Path

/-- The system takes the text of the path. -/
def IsTaken (p : Path) : Prop :=
  FileSystem.holdsNul p = false ∧ p.text.utf8ByteSize ≤ FileSystem.maxPath

theorem intercalate_concat (front : List String) (last : String) :
    "/".intercalate (front ++ [last]) =
      if front = [] then last else "/".intercalate front ++ "/" ++ last := by
  have h : ['/'].intercalate (front.map String.toList ++ [last.toList]) = _ :=
    Text.intercalate_append_singleton _ _
  rw [← String.toList_inj, String.toList_intercalate]
  have hsep : "/".toList = ['/'] := rfl
  rw [hsep, List.map_append, List.map_singleton, h]
  by_cases hfront : front = []
  · simp [hfront]
  · simp [hfront, String.toList_intercalate]

theorem anchor_parent (p : Path) : p.parent.anchor = p.anchor := rfl

theorem parts_parent (p : Path) : p.parent.parts = p.parts.dropLast := rfl

/-- The text of the directory above is the working directory's, or the text goes on from it. -/
theorem text_parent (p : Path) :
    p.parent.text = "." ∨ ∃ rest, p.text = p.parent.text ++ rest := by
  rcases List.eq_nil_or_concat p.parts with hparts | ⟨front, last, hparts⟩
  · right
    exact ⟨"", by simp [parent, text, hparts]⟩
  · rw [List.concat_eq_append] at hparts
    by_cases hfront : p.anchor = .here ∧ front = []
    · left
      simp [parent, text, hparts, hfront]
    · right
      have hparent : p.parent.text = p.anchor.text ++ "/".intercalate front := by
        simp [parent, text, hparts, hfront]
      have htext : p.text = p.anchor.text ++ "/".intercalate (front ++ [last]) := by
        simp [text, hparts]
      rw [hparent, htext, intercalate_concat]
      split
      · next hnil => exact ⟨last, by simp [hnil]⟩
      · exact ⟨"/" ++ last, by simp [String.append_assoc]⟩

theorem IsTaken.parent {p : Path} (h : p.IsTaken) : p.parent.IsTaken := by
  obtain ⟨hnul, hshort⟩ := h
  unfold FileSystem.holdsNul at hnul
  unfold IsTaken FileSystem.holdsNul
  rcases p.text_parent with hdot | ⟨rest, htext⟩
  · rw [hdot]
    decide
  · rw [htext] at hnul hshort
    simp only [String.toList_append, List.contains_eq_mem, List.mem_append, Bool.decide_or,
      Bool.or_eq_false_iff] at hnul
    rw [String.utf8ByteSize_append] at hshort
    exact ⟨by simpa using hnul.1, by omega⟩

end Path

namespace FileSystem

variable {fs old new : FileSystem} {here dir : Location} {p : Path} {parts : List String}

/-! ## Walking through directories -/

/-- Where the parts of a path start from. -/
def startOf (here : Location) (p : Path) : Location :=
  if p.anchor = .here then here else []

theorem startOf_parent (here : Location) (p : Path) : startOf here p.parent = startOf here p := rfl

theorem placeOf_eq (hdots : ".." ∉ p.parts) : placeOf here p = startOf here p ++ p.parts :=
  walk_eq_append hdots

theorem enterAll_of_directories (hdots : ".." ∉ parts)
    (hfit : ∀ part ∈ parts, part.utf8ByteSize ≤ maxName)
    (hdirs : ∀ q, q <+: parts → q ≠ [] → fs.get? (dir ++ q) = some .directory) :
    fs.enterAll dir parts = .ok (dir ++ parts) := by
  induction parts generalizing dir with
  | nil => simp [enterAll]
  | cons part rest ih =>
      simp only [List.mem_cons, not_or, forall_eq_or_imp] at hdots hfit
      have hpart : fs.get? (dir ++ [part]) = some .directory := hdirs [part] (by simp) (by simp)
      have henter : fs.enter dir part = .ok (dir ++ [part]) :=
        enter_eq_ok_iff.mpr (.inr ⟨Ne.symm hdots.1, hfit.1, hpart, rfl⟩)
      simp only [enterAll, henter]
      rw [ih hdots.2 hfit.2 fun q hq _ => ?_]
      · simp
      · have := hdirs (part :: q) (by simpa using hq) (by simp)
        simpa using this

theorem directories_of_enterAll (hdots : ".." ∉ parts) {last : Location}
    (h : fs.enterAll dir parts = .ok last) :
    ∀ q, q <+: parts → q ≠ [] → fs.get? (dir ++ q) = some .directory := by
  induction parts generalizing dir with
  | nil =>
      intro q hq hne
      exact absurd (List.prefix_nil.mp hq) hne
  | cons part rest ih =>
      simp only [List.mem_cons, not_or] at hdots
      obtain ⟨next, hnext, h⟩ := enterAll_cons_eq_ok_iff.mp h
      obtain ⟨rfl, -⟩ | ⟨-, -, hpart, rfl⟩ := enter_eq_ok_iff.mp hnext
      · exact absurd rfl hdots.1
      · intro q hq hne
        cases q with
        | nil => exact absurd rfl hne
        | cons first q =>
            obtain ⟨rfl, hbelow⟩ := List.cons_prefix_cons.mp hq
            by_cases hnil : q = []
            · rw [hnil]
              exact hpart
            · have := ih hdots.2 h q hbelow hnil
              simpa using this

/-- No file stands at the places that parts name, one below the other. -/
def NoFileOn (fs : FileSystem) (dir : Location) (parts : List String) : Prop :=
  ∀ q, q <+: parts → q ≠ [] → ∀ bytes, fs.get? (dir ++ q) ≠ some (.file bytes)

theorem NoFileOn.of_prefix {more : List String} (h : fs.NoFileOn dir more) (hp : parts <+: more) :
    fs.NoFileOn dir parts :=
  fun q hq => h q (hq.trans hp)

theorem NoFileOn.of_addsDirectories (h : old.NoFileOn dir parts) (hadds : old.AddsDirectories new) :
    new.NoFileOn dir parts := by
  intro q hq hne bytes hfile
  exact h q hq hne bytes ((hadds.file_iff _ _).mp hfile)

/-- Where no file is in the way, parts lead to their directory, or one of the directories is
missing. -/
theorem enterAll_of_noFileOn (hdots : ".." ∉ parts)
    (hfit : ∀ part ∈ parts, part.utf8ByteSize ≤ maxName) (h : fs.NoFileOn dir parts) :
    fs.enterAll dir parts = .ok (dir ++ parts) ∨ fs.enterAll dir parts = .error .notFound := by
  induction parts generalizing dir with
  | nil => simp [enterAll]
  | cons part rest ih =>
      simp only [List.mem_cons, not_or, forall_eq_or_imp] at hdots hfit
      have hpart := h [part] (by simp) (by simp)
      simp only [enterAll, enter, if_neg (Ne.symm hdots.1), if_neg (Nat.not_lt.mpr hfit.1)]
      cases hget : fs.get? (dir ++ [part]) with
      | none => simp
      | some e =>
          cases e with
          | file bytes => exact absurd hget (hpart bytes)
          | directory =>
              have hrest : fs.NoFileOn (dir ++ [part]) rest := by
                intro q hq _ bytes
                have := h (part :: q) (by simpa using hq) (by simp) bytes
                simpa using this
              have := ih hdots.2 hfit.2 hrest
              simpa using this

/-! ## Making one directory -/

/-- Where the last part of a path leads if its directories stand. -/
theorem locate_of_enterAll {front : List String} {last : String} (hparts : p.parts = front ++ [last])
    (htaken : p.IsTaken) (hlast : last ≠ "..") (hfit : last.utf8ByteSize ≤ maxName)
    (hdir : fs.enterAll (startOf here p) front = .ok (startOf here p ++ front)) :
    fs.locate here p = .ok (.at (startOf here p ++ p.parts)) := by
  unfold startOf at *
  simp [locate, htaken.1, Nat.not_lt.mpr htaken.2, hparts, hdir, hlast, Nat.not_lt.mpr hfit]

/-- A path leads nowhere if its directories do not. -/
theorem locate_of_error {front : List String} {last : String} {e : AccessError}
    (hparts : p.parts = front ++ [last]) (htaken : p.IsTaken)
    (hdir : fs.enterAll (startOf here p) front = .error e) : fs.locate here p = .error e := by
  unfold startOf at *
  simp [locate, htaken.1, Nat.not_lt.mpr htaken.2, hparts, hdir]

theorem makeDir_of_missing (h : fs.locate here p = .error .notFound) :
    fs.makeDir here p = (fs, .error ⟨.notFound, p⟩) := by
  simp [makeDir, createNew, h]

theorem makeDir_of_locate {loc : Location} (hloc : fs.locate here p = .ok (.at loc))
    (hnofile : ∀ bytes, fs.get? loc ≠ some (.file bytes)) :
    ∃ fs', fs.makeDir here p = (fs', .ok ()) ∧ fs'.get? loc = some .directory := by
  cases hget : fs.get? loc with
  | none =>
      exact ⟨fs.put loc .directory, by simp [makeDir, createNew, hloc, hget],
        get?_put_self fs (ne_nil_of_locate hloc) _⟩
  | some e =>
      cases e with
      | file bytes => exact absurd hget (hnofile bytes)
      | directory =>
          exact ⟨fs, by simp [makeDir, createNew, hloc, hget, isDirectory, stat], hget⟩

theorem makeDir_nil (hparts : p.parts = []) (htaken : p.IsTaken) :
    fs.makeDir here p = (fs, .ok ()) := by
  have hloc : fs.locate here p = .ok (.directory (startOf here p)) := by
    simp [locate, htaken.1, Nat.not_lt.mpr htaken.2, hparts, startOf]
  simp [makeDir, createNew, hloc, isDirectory, stat]

/-! ## Making directories -/

theorem enterAll_concat {front : List String} {last : String} (hdots : ".." ∉ front ++ [last])
    (hfit : ∀ part ∈ front ++ [last], part.utf8ByteSize ≤ maxName)
    (hfront : fs.enterAll dir front = .ok (dir ++ front))
    (hlast : fs.get? (dir ++ (front ++ [last])) = some .directory) :
    fs.enterAll dir (front ++ [last]) = .ok (dir ++ (front ++ [last])) := by
  refine enterAll_of_directories hdots hfit fun q hq hne => ?_
  rcases List.prefix_concat_iff.mp hq with rfl | hq
  · exact hlast
  · exact directories_of_enterAll (fun hmem => hdots (List.mem_append_left _ hmem)) hfront q hq hne

/-- Directories are made if no file is in the way; then they all stand. -/
theorem makeDirsWithin_ok (up : Nat) (fs : FileSystem) (p : Path) (hup : p.parts.length ≤ up)
    (hdots : ".." ∉ p.parts) (htaken : p.IsTaken) (hfit : p.NamesFit)
    (hway : fs.NoFileOn (startOf here p) p.parts) :
    ∃ fs', fs.makeDirsWithin here p up = (fs', .ok ()) ∧
      fs'.enterAll (startOf here p) p.parts = .ok (startOf here p ++ p.parts) := by
  induction up generalizing fs p with
  | zero =>
      have hparts : p.parts = [] := List.eq_nil_of_length_eq_zero (Nat.le_zero.mp hup)
      refine ⟨fs, makeDir_nil hparts htaken, ?_⟩
      simp [hparts, enterAll]
  | succ up ih =>
      rcases List.eq_nil_or_concat p.parts with hparts | ⟨front, last, hparts⟩
      · refine ⟨fs, ?_, by simp [hparts, enterAll]⟩
        simp [makeDirsWithin, makeDir_nil hparts htaken]
      · rw [List.concat_eq_append] at hparts
        have hfront : ".." ∉ front := fun hmem => hdots (by simp [hparts, hmem])
        have hlast : last ≠ ".." := fun heq => hdots (by simp [hparts, heq])
        have hfits : ∀ part ∈ front ++ [last], part.utf8ByteSize ≤ maxName := hparts ▸ hfit
        have hwayfront : fs.NoFileOn (startOf here p) front :=
          hway.of_prefix (hparts ▸ List.prefix_append _ _)
        -- with the directories above in place, the last one is made or is there
        have hmake (above : FileSystem) (hadds : fs.AddsDirectories above)
            (hdir : above.enterAll (startOf here p) front = .ok (startOf here p ++ front)) :
            ∃ fs', above.makeDir here p = (fs', .ok ()) ∧
              fs'.enterAll (startOf here p) p.parts = .ok (startOf here p ++ p.parts) := by
          have hloc := locate_of_enterAll hparts htaken hlast (hfits last (by simp)) hdir
          obtain ⟨fs', hmade, hnew⟩ := makeDir_of_locate hloc
            ((hway.of_addsDirectories hadds) _ (List.prefix_refl _) (by simp [hparts]))
          have hkept := (addsDirectories_makeDir above here p).keeps.keepsDirectories
          rw [hmade] at hkept
          rw [hparts] at hnew hdots ⊢
          exact ⟨fs', hmade,
            enterAll_concat hdots hfits (enterAll_of_keepsDirectories hkept hdir) hnew⟩
        rcases enterAll_of_noFileOn hfront (fun part hpart => hfits part (by simp [hpart]))
          hwayfront with hdir | hmissing
        · obtain ⟨fs', hmade, hthere⟩ := hmake fs (.refl fs) hdir
          exact ⟨fs', by simp [makeDirsWithin, hmade], hthere⟩
        · have hfirst := makeDir_of_missing (locate_of_error hparts htaken hmissing)
          have hparent : p.parent.parts = front := by simp [Path.parent, hparts]
          obtain ⟨above, habove, hdir⟩ := ih fs p.parent
            (by rw [hparent]; rw [hparts, List.length_append] at hup; simpa using hup)
            (hparent ▸ hfront) htaken.parent
            (by unfold Path.NamesFit; rw [hparent]; exact fun part hpart => hfits part (by simp [hpart]))
            (by rw [hparent]; exact hwayfront)
          have hadds := addsDirectories_makeDirsWithin here up fs p.parent
          rw [habove] at hadds
          rw [hparent] at hdir
          obtain ⟨fs', hmade, hthere⟩ := hmake above hadds hdir
          exact ⟨fs', by simp [makeDirsWithin, hfirst, habove, hmade], hthere⟩

theorem makeDir_single {first : String} (hparts : p.parts = [first]) (hfirst : first ≠ "..")
    (hfit : first.utf8ByteSize ≤ maxName) (htaken : p.IsTaken)
    (hnone : fs.get? (startOf here p ++ [first]) = none) :
    ∃ fs', fs.makeDir here p = (fs', .ok ()) ∧
      fs'.get? (startOf here p ++ [first]) = some .directory := by
  have hloc : fs.locate here p = .ok (.at (startOf here p ++ p.parts)) :=
    locate_of_enterAll (hparts.trans (List.nil_append _).symm) htaken hfirst hfit (by simp [enterAll])
  rw [hparts] at hloc
  exact makeDir_of_locate hloc (by simp [hnone])

/-- The first directory is made even if one below it cannot be made. -/
theorem makeDirsWithin_first (up : Nat) (p : Path) {first : String} {rest : List String}
    (hparts : p.parts = first :: rest) (hup : rest.length ≤ up) (hfirst : first ≠ "..")
    (hfit : first.utf8ByteSize ≤ maxName) (htaken : p.IsTaken)
    (hnone : fs.get? (startOf here p ++ [first]) = none) :
    (fs.makeDirsWithin here p up).1.get? (startOf here p ++ [first]) = some .directory := by
  induction up generalizing p rest with
  | zero =>
      obtain rfl : rest = [] := List.eq_nil_of_length_eq_zero (Nat.le_zero.mp hup)
      obtain ⟨fs', hmade, hnew⟩ := makeDir_single hparts hfirst hfit htaken hnone
      rwa [makeDirsWithin, hmade]
  | succ up ih =>
      rcases List.eq_nil_or_concat rest with rfl | ⟨front, last, hrest⟩
      · obtain ⟨fs', hmade, hnew⟩ := makeDir_single hparts hfirst hfit htaken hnone
        rwa [makeDirsWithin, hmade]
      · have hall : p.parts = (first :: front) ++ [last] := by simp [hparts, hrest]
        have hmissing : fs.enterAll (startOf here p) (first :: front) = .error .notFound := by
          simp [enterAll, enter, hfirst, Nat.not_lt.mpr hfit, hnone]
        have hmade := makeDir_of_missing (locate_of_error hall htaken hmissing)
        have hparent : p.parent.parts = first :: front := by
          rw [Path.parent, hall, List.dropLast_concat]
        have habove := ih p.parent hparent (by simp_all) htaken.parent hnone
        simp only [makeDirsWithin, hmade, if_true]
        generalize fs.makeDirsWithin here p.parent up = result at habove
        obtain ⟨above, answer⟩ := result
        cases answer with
        | error f => exact habove
        | ok _ => exact (addsDirectories_makeDir above here p).keeps _ _ habove

theorem makeDirs_first {first : String} {rest : List String} (hparts : p.parts = first :: rest)
    (hfirst : first ≠ "..") (hfit : first.utf8ByteSize ≤ maxName) (htaken : p.IsTaken)
    (hnone : fs.get? (startOf here p ++ [first]) = none) :
    (fs.makeDirs here p).1.get? (startOf here p ++ [first]) = some .directory :=
  makeDirsWithin_first p.parts.length p hparts (by simp [hparts]) hfirst hfit htaken hnone

theorem get?_makeDir (fs : FileSystem) {loc : Location} (h : loc ≠ placeOf here p) :
    (fs.makeDir here p).1.get? loc = fs.get? loc := by
  unfold makeDir
  split
  · next hnew =>
    obtain ⟨hat, -, rfl⟩ := createNew_ok hnew
    exact get?_put_of_ne fs (eq_placeOf_of_locate hat ▸ h) _
  · split
    · rfl
    · split <;> rfl

/-- Nothing is made but at the places above a path and at its own. -/
theorem get?_makeDirsWithin (up : Nat) (fs : FileSystem) (p : Path) {loc : Location}
    (h : ∀ q, q <+: p.parts → loc ≠ placeOf here ⟨p.anchor, q⟩) :
    (fs.makeDirsWithin here p up).1.get? loc = fs.get? loc := by
  have hone (fs : FileSystem) : (fs.makeDir here p).1.get? loc = fs.get? loc :=
    get?_makeDir fs (h p.parts (List.prefix_refl _))
  induction up generalizing fs p with
  | zero => exact hone fs
  | succ up ih =>
      have hfirst := hone fs
      unfold makeDirsWithin
      split
      · next hmade => rwa [hmade] at hfirst
      · next made f hmade =>
        rw [hmade] at hfirst
        split
        · have hfront : ∀ q, q <+: p.parent.parts → loc ≠ placeOf here ⟨p.anchor, q⟩ :=
            fun q hq => h q (hq.trans (List.dropLast_prefix _))
          have habove := ih made p.parent hfront fun fs => get?_makeDir fs (hfront _ (List.prefix_refl _))
          rw [hfirst] at habove
          split
          · next above habove' =>
            rw [habove'] at habove
            rw [hone above, habove]
          · exact habove
        · exact hfirst

/-! ## Making a file -/

/-- A new file can be made where the path leads: the system takes the path and its names, no file
stands in the way, and the place is free. -/
structure IsClear (fs : FileSystem) (here : Location) (p : Path) : Prop where
  taken : p.IsTaken
  fits : p.NamesFit
  way : fs.NoFileOn (startOf here p) p.parts.dropLast
  free : fs.get? (startOf here p ++ p.parts) = none

theorem isTaken_of_locate {place : Place} (h : fs.locate here p = .ok place) : p.IsTaken := by
  unfold locate at h
  split at h
  · cases h
  split at h
  · cases h
  · next hnul hlong => exact ⟨by simpa using hnul, Nat.not_lt.mp hlong⟩

/-! ## Directories that stand -/

/-- A directory that stands is not made again, and that is no failure. -/
theorem makeDir_of_enterAll (htaken : p.IsTaken) {last : Location}
    (h : fs.enterAll (startOf here p) p.parts = .ok last) : fs.makeDir here p = (fs, .ok ()) := by
  rcases List.eq_nil_or_concat p.parts with hparts | ⟨front, part, hparts⟩
  · exact makeDir_nil hparts htaken
  · rw [List.concat_eq_append] at hparts
    rw [hparts] at h
    obtain ⟨next, hfront, hpart⟩ := enterAll_append_eq_ok_iff.mp h
    rw [enterAll_singleton] at hpart
    unfold startOf at hfront
    obtain ⟨rfl, -⟩ | ⟨hdots, hfits, hdir, -⟩ := enter_eq_ok_iff.mp hpart
    · have hloc : fs.locate here p = .ok (.directory next.dropLast) := by
        simp [locate, htaken.1, Nat.not_lt.mpr htaken.2, hparts, hfront]
      simp [makeDir, createNew, hloc, isDirectory, stat]
    · have hloc : fs.locate here p = .ok (.at (next ++ [part])) := by
        simp [locate, htaken.1, Nat.not_lt.mpr htaken.2, hparts, hfront, hdots, Nat.not_lt.mpr hfits]
      simp [makeDir, createNew, hloc, hdir, isDirectory, stat]

/-- Where a path leads to a place, the directories above it stand. -/
theorem makeDirs_of_locate {loc : Location} (h : fs.locate here p = .ok (.at loc)) :
    fs.makeDirs here p.parent = (fs, .ok ()) := by
  obtain ⟨dir, last, hdir, -⟩ := locate_at h
  have hmade : fs.makeDir here p.parent = (fs, .ok ()) :=
    makeDir_of_enterAll (isTaken_of_locate h).parent hdir
  unfold makeDirs
  cases p.parent.parts.length with
  | zero => exact hmade
  | succ up => rw [makeDirsWithin, hmade]

theorem IsClear.made (h : fs.IsClear here p) (hne : p.parts ≠ []) (hdots : ".." ∉ p.parts) :
    ∃ files, fs.makeDirs here p.parent = (files, .ok ()) ∧
      files.locate here p = .ok (.at (startOf here p ++ p.parts)) ∧
      files.get? (startOf here p ++ p.parts) = none := by
  obtain ⟨front, last, hparts⟩ := (List.eq_nil_or_concat p.parts).resolve_left hne
  rw [List.concat_eq_append] at hparts
  have hfront : ".." ∉ front := fun hmem => hdots (by simp [hparts, hmem])
  have hlast : last ≠ ".." := fun heq => hdots (by simp [hparts, heq])
  have hfits : ∀ part ∈ front ++ [last], part.utf8ByteSize ≤ maxName := hparts ▸ h.fits
  have hparent : p.parent.parts = front := by simp [Path.parent, hparts]
  have hfitparent : p.parent.NamesFit := by
    unfold Path.NamesFit
    rw [hparent]
    exact fun part hpart => hfits part (by simp [hpart])
  obtain ⟨files, hmade, hdir⟩ := makeDirsWithin_ok p.parent.parts.length fs p.parent
    (Nat.le_refl _) (hparent ▸ hfront) h.taken.parent hfitparent h.way
  rw [hparent] at hdir
  refine ⟨files, hmade, locate_of_enterAll hparts h.taken hlast (hfits last (by simp)) hdir, ?_⟩
  -- only directories above the path were made
  have hsame : (fs.makeDirsWithin here p.parent p.parent.parts.length).1.get?
      (startOf here p ++ p.parts) = fs.get? (startOf here p ++ p.parts) :=
    get?_makeDirsWithin _ fs p.parent fun q hq hplace => ?_
  · rw [hmade] at hsame
    rw [hsame, h.free]
  · have hqdots : ".." ∉ q := fun hmem => hfront (hparent ▸ hq.subset hmem)
    have hqplace : placeOf here ⟨p.parent.anchor, q⟩ = startOf here p ++ q := placeOf_eq hqdots
    rw [hqplace, List.append_cancel_left_eq] at hplace
    have hlength := hq.length_le
    rw [← hplace, hparent, hparts, List.length_append, List.length_singleton] at hlength
    omega

theorem isClear_of_made (hdots : ".." ∉ p.parts) {files : FileSystem} {place : Location}
    (hmade : fs.makeDirs here p.parent = (files, .ok ()))
    (hloc : files.locate here p = .ok (.at place)) (hnone : files.get? place = none) :
    fs.IsClear here p := by
  have hadds := addsDirectories_makeDirs fs here p.parent
  rw [hmade] at hadds
  refine ⟨isTaken_of_locate hloc, namesFit_of_locate hloc, ?_, ?_⟩
  · obtain ⟨dir, last, hdir, -⟩ := locate_at hloc
    intro q hq hne bytes hfile
    have hfront : ".." ∉ p.parts.dropLast := fun hmem => hdots (List.dropLast_subset _ hmem)
    have hnew := directories_of_enterAll hfront hdir q hq hne
    have hold : files.get? (startOf here p ++ q) = some (.file bytes) := hadds.keeps _ _ hfile
    cases hnew.symm.trans hold
  · rw [eq_placeOf_of_locate hloc, placeOf_eq hdots] at hnone
    exact hadds.keeps.eq_none hnone

end FileSystem

end TextProviders
