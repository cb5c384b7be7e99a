import TextProviders.Layout
import TextProviders.Proofs.FileSystem.Keeping

/-!
# What looking up a path can answer

A look-up fails in four ways: the path holds a NUL, it or a name in it is too long, a directory on
the way is missing, or a file stands in the place of one.  All but the missing directory stay as they
are for as long as everything that stands is kept.  A missing directory can be made later, and then
the look-up goes further: it may lead to a place, or fail at a name behind it that is too long.

So asking whether a path leads to a file can turn from *no* into a failure.  `isFile_of_keeps` says
that this is the only way an answer is lost, and that it needs a name that is too long: in a path
whose names fit, a *no* stays a *no* or becomes a *yes*.
-/

namespace TextProviders

namespace Path

/-- Every name in a path is one that a file system takes. -/
def NamesFit (p : Path) : Prop :=
  ∀ part ∈ p.parts, part.utf8ByteSize ≤ FileSystem.maxName

instance (p : Path) : Decidable p.NamesFit :=
  inferInstanceAs (Decidable (∀ part ∈ p.parts, part.utf8ByteSize ≤ FileSystem.maxName))

theorem join_assoc (a b c : Path) : (a.join b).join c = a.join (b.join c) := by
  cases hc : c.anchor <;> cases hb : b.anchor <;> simp [join, hb, hc]

theorem join_empty (a : Path) : a.join {} = a := by
  simp [join]

/-- A part of a joined path is one of either path. -/
theorem mem_parts_join {a b : Path} {part : String} (h : part ∈ (a.join b).parts) :
    part ∈ a.parts ∨ part ∈ b.parts := by
  cases hb : b.anchor <;> simp_all [join]

theorem mem_parts_join_right {a b : Path} {part : String} (h : part ∈ b.parts) :
    part ∈ (a.join b).parts := by
  cases hb : b.anchor <;> simp_all [join]

end Path

namespace Layout

/-- The path of a type's source from a root on. -/
def relativeSource (name : String) : Path :=
  sourceFile {} name

theorem foldl_child_join (pieces : List (List Char)) (root dir : Path) :
    pieces.foldl (fun dir part => dir.child (String.ofList part)) (root.join dir) =
      root.join (pieces.foldl (fun dir part => dir.child (String.ofList part)) dir) := by
  induction pieces generalizing dir with
  | nil => rfl
  | cons piece rest ih =>
      simp only [List.foldl_cons]
      rw [Path.child, Path.join_assoc]
      exact ih (dir.child (String.ofList piece))

theorem packageDir_eq_join (root : Path) (package : String) :
    packageDir root package = root.join (packageDir {} package) := by
  unfold packageDir
  split
  · exact root.join_empty.symm
  · have h := foldl_child_join (Text.splitOn '.' package.toList) root {}
    rwa [root.join_empty] at h

theorem sourceFile_eq_join (root : Path) (name : String) :
    sourceFile root name = root.join (relativeSource name) := by
  unfold relativeSource sourceFile
  dsimp only
  rw [packageDir_eq_join root, Path.child, Path.join_assoc]
  rfl

end Layout

namespace FileSystem

variable {fs old new : FileSystem} {here : Location} {p : Path}

/-! ## Which failures there are -/

theorem enter_eq_error {dir : Location} {part : String} {e : AccessError}
    (h : fs.enter dir part = .error e) :
    (e = .nameTooLong ∧ maxName < part.utf8ByteSize) ∨ e = .notFound ∨ e = .notDirectory := by
  obtain ⟨-, ⟨hlong, rfl⟩ | ⟨-, -, rfl⟩ | ⟨-, -, rfl⟩⟩ := enter_eq_error_iff.mp h
  · exact .inl ⟨rfl, hlong⟩
  · exact .inr (.inl rfl)
  · exact .inr (.inr rfl)

theorem enterAll_eq_error {dir : Location} {parts : List String} {e : AccessError}
    (h : fs.enterAll dir parts = .error e) :
    (e = .nameTooLong ∧ ∃ part ∈ parts, maxName < part.utf8ByteSize) ∨
      e = .notFound ∨ e = .notDirectory := by
  induction parts generalizing dir with
  | nil => cases h
  | cons part rest ih =>
      rcases enterAll_cons_eq_error_iff.mp h with hnext | ⟨next, -, hrest⟩
      · rcases enter_eq_error hnext with ⟨rfl, hlong⟩ | hother
        · exact .inl ⟨rfl, part, List.mem_cons_self, hlong⟩
        · exact .inr hother
      · rcases ih hrest with ⟨rfl, part', hmem, hlong⟩ | hother
        · exact .inl ⟨rfl, part', List.mem_cons_of_mem _ hmem, hlong⟩
        · exact .inr hother

/-- Why a path leads nowhere. -/
theorem locate_eq_error {e : AccessError} (h : fs.locate here p = .error e) :
    (e = .nul ∧ holdsNul p = true) ∨
      (e = .nameTooLong ∧ holdsNul p = false ∧ maxPath < p.text.utf8ByteSize) ∨
      (e = .nameTooLong ∧ ∃ part ∈ p.parts, maxName < part.utf8ByteSize) ∨
      e = .notFound ∨ e = .notDirectory := by
  unfold locate at h
  split at h
  · next hnul => cases h; exact .inl ⟨rfl, hnul⟩
  next hnul =>
  have hnul : holdsNul p = false := Bool.eq_false_iff.mpr hnul
  split at h
  · next hlong => cases h; exact .inr (.inl ⟨rfl, hnul, hlong⟩)
  dsimp only at h
  split at h
  · cases h
  · next last hlast =>
    have hlast : last ∈ p.parts := List.mem_of_getLast? hlast
    split at h
    · next e' hdir =>
      cases h
      rcases enterAll_eq_error hdir with ⟨rfl, part, hmem, hlong⟩ | hother
      · exact .inr (.inr (.inl ⟨rfl, part, List.dropLast_subset _ hmem, hlong⟩))
      · exact .inr (.inr (.inr hother))
    · split at h
      · cases h
      · split at h
        · next hlong => cases h; exact .inr (.inr (.inl ⟨rfl, last, hlast, hlong⟩))
        · cases h

/-- Asking whether a path leads to a file fails only at something that is too long. -/
theorem isFile_eq_error {f : AccessFailure} (h : fs.isFile here p = .error f) :
    fs.locate here p = .error .nameTooLong := by
  unfold isFile stat at h
  cases hloc : fs.locate here p with
  | ok place =>
      rw [hloc] at h
      cases place with
      | directory loc => cases h
      | «at» loc => cases hget : fs.get? loc with
        | none => simp [hget, AccessError.isAbsence] at h
        | some e => cases e <;> simp [hget] at h
  | error e =>
      rw [hloc] at h
      rcases locate_eq_error hloc with ⟨rfl, -⟩ | ⟨rfl, -⟩ | ⟨rfl, -⟩ | rfl | rfl
      · simp [AccessError.isAbsence] at h
      · rfl
      · rfl
      · simp [AccessError.isAbsence] at h
      · simp [AccessError.isAbsence] at h

theorem isFile_of_locate_tooLong (h : fs.locate here p = .error .nameTooLong) :
    fs.isFile here p = .error ⟨.nameTooLong, p⟩ := by
  simp [isFile, stat, h, AccessError.isAbsence]

theorem isFile_eq_true_iff :
    fs.isFile here p = .ok true ↔ ∃ bytes, fs.fileAt? here p = some bytes := by
  unfold isFile fileAt?
  cases fs.stat here p with
  | ok e => cases e <;> simp
  | error e => by_cases habsent : AccessError.isAbsence e <;> simp [habsent]

/-! ## Names that fit -/

theorem names_fit_of_enterAll {dir last : Location} {parts : List String}
    (h : fs.enterAll dir parts = .ok last) : ∀ part ∈ parts, part.utf8ByteSize ≤ maxName := by
  induction parts generalizing dir with
  | nil => simp
  | cons part rest ih =>
      obtain ⟨next, hnext, hrest⟩ := enterAll_cons_eq_ok_iff.mp h
      have hpart : part.utf8ByteSize ≤ maxName := by
        rcases enter_eq_ok_iff.mp hnext with ⟨rfl, -⟩ | ⟨-, hfits, -⟩
        · decide
        · exact hfits
      simp only [List.mem_cons, forall_eq_or_imp]
      exact ⟨hpart, ih hrest⟩

/-- A path that leads to a place has names that fit. -/
theorem namesFit_of_locate {loc : Location} (h : fs.locate here p = .ok (.at loc)) :
    p.NamesFit := by
  obtain ⟨-, -, dir, last, hdir, hlast, -, hfits, -⟩ := locate_eq_at_iff.mp h
  obtain ⟨front, hparts⟩ := List.getLast?_eq_some_iff.mp hlast
  have hfront := names_fit_of_enterAll hdir
  intro part hpart
  rw [hparts, List.mem_append, List.mem_singleton] at hpart
  rcases hpart with hpart | rfl
  · exact hfront part (by rwa [hparts, List.dropLast_concat])
  · exact hfits

theorem enterAll_tooLong_of_keeps (hk : old.KeepsDirectories new) {dir : Location}
    {parts : List String} (h : old.enterAll dir parts = .error .nameTooLong) :
    new.enterAll dir parts = .error .nameTooLong := by
  induction parts generalizing dir with
  | nil => cases h
  | cons part rest ih =>
      rw [enterAll_cons_eq_error_iff] at h ⊢
      rcases h with hnext | ⟨next, hnext, hrest⟩
      · obtain ⟨hdown, ⟨hlong, -⟩ | ⟨-, -, he⟩ | ⟨-, -, he⟩⟩ := enter_eq_error_iff.mp hnext
        · exact .inl (enter_eq_error_iff.mpr ⟨hdown, .inl ⟨hlong, rfl⟩⟩)
        · cases he
        · cases he
      · exact .inr ⟨next, enter_of_keepsDirectories hk hnext, ih hrest⟩

/-- A look-up that met something too long meets it for as long as directories are kept. -/
theorem locate_tooLong_of_keeps (hk : old.KeepsDirectories new)
    (h : old.locate here p = .error .nameTooLong) : new.locate here p = .error .nameTooLong := by
  unfold locate at h ⊢
  split at h
  · cases h
  next hnul =>
  rw [if_neg hnul]
  split at h
  · next hlong => rw [if_pos hlong]
  next hlong =>
  rw [if_neg hlong]
  dsimp only at h ⊢
  split at h
  · cases h
  · split at h
    · next e hdir =>
      cases h
      rw [enterAll_tooLong_of_keeps hk hdir]
    · next dir hdir =>
      rw [enterAll_of_keepsDirectories hk hdir]
      exact h

/-- **An answer that there is no file is lost only at a name that is too long.**  In a path whose
names fit it stays, or a file came to stand there. -/
theorem isFile_of_keeps (hfits : p.NamesFit)
    (h : old.isFile here p = .ok false) : ∃ b, new.isFile here p = .ok b := by
  cases hnew : new.isFile here p with
  | ok b => exact ⟨b, rfl⟩
  | error f =>
      have hlocate := isFile_eq_error hnew
      rcases locate_eq_error hlocate with ⟨hnul, -⟩ | ⟨-, hnul, hlong⟩ | ⟨-, part, hmem, hlong⟩ | he | he
      · cases hnul
      · -- the length of the path does not depend on the state
        have hold : old.locate here p = .error .nameTooLong := by
          simp [locate, hnul, hlong]
        rw [isFile_of_locate_tooLong hold] at h
        cases h
      · exact absurd (hfits part hmem) (Nat.not_le_of_lt hlong)
      · cases he
      · cases he

/-- The answer whether a path leads to a file is the same if it leads to the same file, but for a name
that is too long and that was not met before. -/
theorem isFile_cases_of_fileAt?_eq (hk : old.KeepsDirectories new)
    (hfile : new.fileAt? here p = old.fileAt? here p) :
    new.isFile here p = old.isFile here p ∨
      (new.isFile here p = .error ⟨.nameTooLong, p⟩ ∧ ¬p.NamesFit) := by
  cases hold : old.isFile here p with
  | error f =>
      left
      have hmet := isFile_eq_error hold
      rw [isFile_of_locate_tooLong hmet] at hold
      rw [isFile_of_locate_tooLong (locate_tooLong_of_keeps hk hmet), hold]
  | ok found =>
      cases hnew : new.isFile here p with
      | error f =>
          right
          have hmet := isFile_of_locate_tooLong (isFile_eq_error hnew)
          refine ⟨hnew.symm.trans hmet, fun hfits => ?_⟩
          cases found with
          | true =>
              rw [isFile_eq_true_iff, ← hfile, ← isFile_eq_true_iff] at hold
              cases hnew.symm.trans hold
          | false =>
              obtain ⟨b, hb⟩ : ∃ b, new.isFile here p = .ok b := isFile_of_keeps hfits hold
              cases hnew.symm.trans hb
      | ok found' =>
          left
          have hiff : found' = true ↔ found = true := by
            have hnow : new.isFile here p = .ok true ↔ ∃ bytes, new.fileAt? here p = some bytes :=
              isFile_eq_true_iff
            rw [hfile, ← isFile_eq_true_iff, hold, hnew] at hnow
            simpa using hnow
          rw [Bool.eq_iff_iff.mpr hiff]

end FileSystem

end TextProviders
