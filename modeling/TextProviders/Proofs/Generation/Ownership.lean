import TextProviders.Proofs.Generation.Fate
import TextProviders.Proofs.Generation.Interference

/-!
# Whose source is whose

A program works on the sources of certain names: it makes them, writes to them, discards them and
records them.  Whatever it does, it leaves the sources of all other names alone (`LeavesAlone`), and so
it can own its names if all others leave them alone.

The relation is seen from an older state of the file system: what is new since then are sources and
the directories for them (`Grown`).  Seen from there the source of a name is `Untouched` in the
beginning, `Made` and held with certain bytes in between, and in the end `Complete` or untouched again.

This module says what the single steps do.  Each of them guarantees to leave other names alone, whoever
owns its own; and what it does to the source of its own name is known if the name is owned.
-/

namespace TextProviders

open FileSystem (placeOf startOf)

/-! ## The output directory grows step by step -/

section

variable {s : Setting} {old fs : FileSystem} {name : String} (hs : s.IsSeparate)
  (hname : IsDotted name)

include hs hname

theorem Setting.isPackagePlace_of_prefix {q : List String}
    (hq : q <+: (s.pathFor name).parent.parts) :
    s.IsPackagePlace (placeOf s.here ⟨(s.pathFor name).parent.anchor, q⟩) := by
  have hparent : (s.pathFor name).parent.parts = s.layout.output.parts ++ packageParts name := by
    rw [Path.parts_parent, s.pathFor_eq hname, sourceParts, ← List.append_assoc, List.dropLast_concat]
  have hanchor : (s.pathFor name).parent.anchor = s.layout.output.anchor := by
    rw [Path.anchor_parent, s.pathFor_eq hname]
  have hdots : ".." ∉ q := by
    intro hmem
    have habove := hq.subset hmem
    rw [Path.parts_parent] at habove
    exact s.pathFor_dots hs hname (List.dropLast_subset _ habove)
  have hplace : placeOf s.here ⟨s.layout.output.anchor, q⟩ = startOf s.here s.layout.output ++ q :=
    FileSystem.placeOf_eq hdots
  rw [hparent] at hq
  rw [hanchor, hplace]
  rcases List.prefix_or_prefix_of_prefix hq (List.prefix_append _ _) with habove | ⟨r, rfl⟩
  · left
    rw [s.outputPlace_eq hs]
    exact (List.prefix_append_right_inj _).mpr habove
  · right
    refine ⟨r, by rw [s.outputPlace_eq hs, List.append_assoc], fun part hpart => ?_⟩
    exact not_mem_dot_of_mem_packageParts
      (((List.prefix_append_right_inj _).mp hq).subset hpart)

/-- Only directories of packages are made for a source. -/
theorem get?_makeDirs_cases (fs : FileSystem) (loc : Location) :
    (fs.makeDirs s.here (s.pathFor name).parent).1.get? loc = fs.get? loc ∨
      ((fs.makeDirs s.here (s.pathFor name).parent).1.get? loc = some .directory ∧
        s.IsPackagePlace loc) := by
  by_cases hpackage : s.IsPackagePlace loc
  · rcases fs.addsDirectories_makeDirs s.here (s.pathFor name).parent loc with hsame | ⟨-, hdir⟩
    · exact .inl hsame
    · exact .inr ⟨hdir, hpackage⟩
  · left
    refine FileSystem.get?_makeDirsWithin _ fs _ fun q hq hplace => hpackage ?_
    rw [hplace]
    exact s.isPackagePlace_of_prefix hs hname hq

theorem Setting.placeFor_ne_nil : s.placeFor name ≠ [] := by
  rw [s.placeFor_eq hs hname]
  simp [sourceParts]

theorem Grown.makeDirs (hg : Grown s old fs) :
    Grown s old (fs.makeDirs s.here (s.pathFor name).parent).1 := by
  have hadds := fs.addsDirectories_makeDirs s.here (s.pathFor name).parent
  refine ⟨hg.keeps.trans hadds.keeps, fun loc => ?_⟩
  rcases get?_makeDirs_cases hs hname fs loc with hsame | hdir
  · rw [hsame]
    exact hg.added loc
  · exact .inr (.inl hdir)

/-- At the place of a source there is no directory but one that was there before. -/
theorem Grown.not_directory (hg : Grown s old fs) (hnone : old.get? (s.placeFor name) = none) :
    fs.get? (s.placeFor name) ≠ some .directory := by
  intro hdir
  rcases hg.added (s.placeFor name) with hsame | ⟨-, hpackage⟩ | ⟨_, _, _, _, hfile⟩
  · cases hnone.symm.trans (hsame.symm.trans hdir)
  · exact s.not_isPackagePlace_placeFor hs hname hpackage
  · cases hdir.symm.trans hfile

theorem Grown.put (hg : Grown s old fs) (hnone : old.get? (s.placeFor name) = none)
    (bytes : List UInt8) : Grown s old (fs.put (s.placeFor name) (.file bytes)) := by
  refine ⟨hg.keeps.put hnone _, fun loc => ?_⟩
  by_cases hloc : loc = s.placeFor name
  · rw [hloc]
    exact .inr (.inr ⟨name, bytes, hname, rfl,
      FileSystem.get?_put_self fs (s.placeFor_ne_nil hs hname) _⟩)
  · rw [FileSystem.get?_put_of_ne fs hloc]
    exact hg.added loc

theorem Grown.append (hg : Grown s old fs) (hnone : old.get? (s.placeFor name) = none)
    (bytes : List UInt8) : Grown s old (fs.append (s.placeFor name) bytes) := by
  unfold FileSystem.append
  split
  · exact hg.put hs hname hnone _
  · exact hg

theorem Grown.erase (hg : Grown s old fs) (hnone : old.get? (s.placeFor name) = none) :
    Grown s old (fs.erase (s.placeFor name)) := by
  refine ⟨hg.keeps.erase hnone, fun loc => ?_⟩
  by_cases hloc : loc = s.placeFor name
  · left
    rw [hloc, FileSystem.get?_erase_self fs (s.placeFor_ne_nil hs hname), hnone]
  · rw [FileSystem.get?_erase_of_ne fs hloc]
    exact hg.added loc

end

/-! ## Leaving names alone -/

/-- From one world to the next nothing was done about certain names, and all that came about since an
older state are sources and directories for them. -/
structure LeavesAlone (s : Setting) (old : FileSystem) (names : String → Prop) (w w' : World) :
    Prop where
  grown : Grown s old w'.files
  directories : w.files.KeepsDirectories w'.files
  entry : ∀ name, IsDotted name → names name →
    w'.files.get? (s.placeFor name) = w.files.get? (s.placeFor name)
  record : ∀ name, names name → (name ∈ w'.written ↔ name ∈ w.written)

namespace LeavesAlone

variable {s : Setting} {old : FileSystem} {names others : String → Prop} {w w' w₁ w₂ w₃ : World}

theorem refl (hg : Grown s old w.files) : LeavesAlone s old names w w :=
  ⟨hg, fun _ => id, fun _ _ _ => rfl, fun _ _ => Iff.rfl⟩

theorem trans (h : LeavesAlone s old names w₁ w₂) (h' : LeavesAlone s old names w₂ w₃) :
    LeavesAlone s old names w₁ w₃ where
  grown := h'.grown
  directories := h.directories.trans h'.directories
  entry name hname hmem := (h'.entry name hname hmem).trans (h.entry name hname hmem)
  record name hmem := (h'.record name hmem).trans (h.record name hmem)

theorem mono (h : LeavesAlone s old names w w') (hsub : ∀ name, others name → names name) :
    LeavesAlone s old others w w' :=
  ⟨h.grown, h.directories, fun name hname hmem => h.entry name hname (hsub name hmem),
    fun name hmem => h.record name (hsub name hmem)⟩

/-- A world with the same files and records. -/
theorem of_eq (hg : Grown s old w.files) (hfiles : w'.files = w.files)
    (hwritten : w'.written = w.written) : LeavesAlone s old names w w' := by
  refine ⟨hfiles ▸ hg, ?_, fun _ _ _ => by rw [hfiles], fun _ _ => by rw [hwritten]⟩
  rw [hfiles]
  exact fun _ => id

/-- Files that differ at the source of one name and at directories of packages only. -/
theorem of_source (hs : s.IsSeparate) {name : String} (hname : IsDotted name)
    (hg : Grown s old w'.files) (hdirs : w.files.KeepsDirectories w'.files)
    (hsame : ∀ loc, loc ≠ s.placeFor name → ¬s.IsPackagePlace loc →
      w'.files.get? loc = w.files.get? loc)
    (hwritten : w'.written = w.written) : LeavesAlone s old (· ≠ name) w w' := by
  refine ⟨hg, hdirs, fun other hother hne => hsame _ ?_ ?_, fun other _ => by rw [hwritten]⟩
  · exact fun hplace => hne ((Setting.placeFor_inj hs hother hname).mp hplace)
  · exact s.not_isPackagePlace_placeFor hs hother

end LeavesAlone

/-! ## States of a source -/

/-- Nothing was done about a name: it is not recorded, and at the place of its source stands what stood
there in the older state. -/
structure Untouched (s : Setting) (old : FileSystem) (name : String) (w : World) : Prop where
  entry : w.files.get? (s.placeFor name) = old.get? (s.placeFor name)
  record : name ∉ w.written

/-- The source of a name was made where nothing stood, and the path still leads there. -/
structure Made (s : Setting) (old : FileSystem) (name : String) (w : World) : Prop where
  located : w.files.locate s.here (s.pathFor name) = .ok (.at (s.placeFor name))
  free : old.get? (s.placeFor name) = none

/-- The source of a name has certain bytes and is not recorded. -/
structure Holds (s : Setting) (name : String) (bytes : List UInt8) (w : World) : Prop where
  file : w.files.get? (s.placeFor name) = some (.file bytes)
  record : name ∉ w.written

/-- The path of a name leads to a file with the whole of a source. -/
def Complete (s : Setting) (name source : String) (w : World) : Prop :=
  w.files.fileAt? s.here (s.pathFor name) = some (Text.Utf8.encode source.toList)

section

variable {s : Setting} {old : FileSystem} {names : String → Prop} {name source : String}
  {w w' : World}

theorem complete_iff : Complete s name source w ↔
    w.files.locate s.here (s.pathFor name) = .ok (.at (s.placeFor name)) ∧
      w.files.get? (s.placeFor name) = some (.file (Text.Utf8.encode source.toList)) := by
  rw [Complete, FileSystem.fileAt?_eq_some_iff]
  constructor
  · rintro ⟨loc, hloc, hfile⟩
    have hplace : loc = s.placeFor name := FileSystem.eq_placeOf_of_locate hloc
    exact hplace ▸ ⟨hloc, hfile⟩
  · rintro ⟨hloc, hfile⟩
    exact ⟨_, hloc, hfile⟩

theorem Complete.stands (h : Complete s name source w) : s.Stands w.files name :=
  stands_of_fileAt? h

theorem Made.complete (h : Made s old name w)
    (hholds : Holds s name (Text.Utf8.encode source.toList) w) : Complete s name source w :=
  complete_iff.mpr ⟨h.located, hholds.file⟩

theorem Made.of_leavesAlone (h : Made s old name w) (hl : LeavesAlone s old names w w') :
    Made s old name w' :=
  ⟨FileSystem.locate_of_keepsDirectories hl.directories h.located, h.free⟩

variable (hl : LeavesAlone s old names w w') (hname : IsDotted name) (howned : names name)

include hl hname howned

theorem Untouched.of_leavesAlone (h : Untouched s old name w) : Untouched s old name w' :=
  ⟨(hl.entry name hname howned).trans h.entry, fun hmem => h.record ((hl.record name howned).mp hmem)⟩

theorem Holds.of_leavesAlone {bytes : List UInt8} (h : Holds s name bytes w) :
    Holds s name bytes w' :=
  ⟨(hl.entry name hname howned).trans h.file, fun hmem => h.record ((hl.record name howned).mp hmem)⟩

theorem Complete.of_leavesAlone (h : Complete s name source w) : Complete s name source w' := by
  obtain ⟨hloc, hfile⟩ := complete_iff.mp h
  exact complete_iff.mpr ⟨FileSystem.locate_of_keepsDirectories hl.directories hloc,
    (hl.entry name hname howned).trans hfile⟩

end

/-! ## What the steps do -/

section

open Program

variable {s : Setting} {old : FileSystem} {own : String → Prop} {w : World}

/-- Steps that change neither files nor records keep whatever leaving the owned names alone keeps. -/
theorem meets_owner_idle (act : Action) {names : String → Prop} {P : World → Prop}
    (hfiles : ∀ w : World, (w.perform s act).1.files = w.files)
    (hwritten : ∀ w : World, (w.perform s act).1.written = w.written)
    (hstable : ∀ a b, LeavesAlone s old own a b → P a → P b) (hP : P w) :
    (ofAction act).Meets s (LeavesAlone s old own) (LeavesAlone s old names)
      (fun w' _ => P w') w := by
  refine meets_idle act (fun w₁ hw₁ => ⟨?_, ?_⟩) hstable hP
  · exact .of_eq hw₁.grown (hfiles w₁) (hwritten w₁)
  · exact .of_eq hw₁.grown (hfiles w₁) (hwritten w₁)

variable {name : String} (hs : s.IsSeparate) (hname : IsDotted name)

include hs hname

/-- The source is made if its path is clear, and only then; it is empty then. -/
theorem meets_create (hw : own name → Untouched s old name w) :
    (ofAction (.create name)).Meets s (LeavesAlone s old own) (LeavesAlone s old (· ≠ name))
      (fun w' answer =>
        (∀ place, answer = .ok place → place = s.placeFor name ∧ Made s old name w' ∧
          (own name → Holds s name [] w' ∧ old.IsClear s.here (s.pathFor name))) ∧
        (∀ e, answer = .error e → own name →
          Untouched s old name w' ∧ ¬old.IsClear s.here (s.pathFor name))) w := by
  refine meets_ofAction (.create name) fun w₁ hw₁ w₂ answer hstep => ?_
  have hadds := w₁.files.addsDirectories_makeDirs s.here (s.pathFor name).parent
  have hdirs := get?_makeDirs_cases hs hname w₁.files
  have hgrown := hw₁.grown.makeDirs hs hname
  have hsame (loc : Location) (hloc : ¬s.IsPackagePlace loc) :
      (w₁.files.makeDirs s.here (s.pathFor name).parent).1.get? loc = w₁.files.get? loc :=
    (hdirs loc).resolve_right fun hdir => hloc hdir.2
  have hplace := s.not_isPackagePlace_placeFor hs hname
  have hclear (howned : own name) :
      w₁.files.IsClear s.here (s.pathFor name) ↔ old.IsClear s.here (s.pathFor name) :=
    hw₁.grown.isClear_iff hs hname
      ((hw howned).of_leavesAlone hw₁ hname howned).entry
  change w₁.create s name = _ at hstep
  rcases w₁.create_isClear_cases hs hname with
    ⟨hfree, files, hmade, hloc, hnone, hcreated⟩ | ⟨hnot, e, hfailed⟩
  · obtain ⟨rfl, rfl⟩ := Prod.mk.inj (hcreated.symm.trans hstep)
    rw [hmade] at hadds hgrown hsame
    have hold : old.get? (s.placeFor name) = none := hgrown.keeps.eq_none hnone
    have hkeeps : files.KeepsDirectories (files.put (s.placeFor name) (.file [])) :=
      ((FileSystem.Keeps.refl files).put hnone _).keepsDirectories
    refine ⟨.of_source hs hname (hgrown.put hs hname hold []) ?_ (fun loc hne hloc => ?_) rfl, ?_, ?_⟩
    · exact hadds.keeps.keepsDirectories.trans hkeeps
    · exact (FileSystem.get?_put_of_ne files hne _).trans (hsame loc hloc)
    · intro place hok
      refine ⟨(Except.ok.inj hok).symm, ⟨FileSystem.locate_of_keepsDirectories hkeeps hloc, hold⟩, fun howned => ?_⟩
      refine ⟨⟨FileSystem.get?_put_self files (s.placeFor_ne_nil hs hname) _, ?_⟩,
        (hclear howned).mp hfree⟩
      exact ((hw howned).of_leavesAlone hw₁ hname howned).record
    · intro e he
      cases he
  · obtain ⟨hworld, -⟩ := Prod.mk.inj (hfailed.symm.trans hstep)
    have hfiles : w₂.files = (w₁.files.makeDirs s.here (s.pathFor name).parent).1 := by rw [← hworld]
    have hwritten : w₂.written = w₁.written := by rw [← hworld]
    rw [← hfiles] at hadds hgrown hsame
    refine ⟨.of_source hs hname hgrown hadds.keeps.keepsDirectories (fun loc _ => hsame loc) hwritten,
      fun place hok => ?_, fun _ _ howned => ⟨⟨?_, ?_⟩, fun h => hnot ((hclear howned).mpr h)⟩⟩
    · rw [← (Prod.mk.inj (hfailed.symm.trans hstep)).2] at hok
      cases hok
    · exact (hsame _ hplace).trans ((hw howned).of_leavesAlone hw₁ hname howned).entry
    · rw [hwritten]
      exact ((hw howned).of_leavesAlone hw₁ hname howned).record

/-- Writing adds to the source, and if it does not fail the whole text. -/
theorem meets_write {bytes : List UInt8} (text : String) (hmade : Made s old name w)
    (hw : own name → Holds s name bytes w) :
    (ofAction (.write (s.placeFor name) text)).Meets s (LeavesAlone s old own)
      (LeavesAlone s old (· ≠ name))
      (fun w' answer => Made s old name w' ∧ (own name → ∃ more, Holds s name (bytes ++ more) w' ∧
        (answer = .ok () → more = Text.Utf8.encode text.toList))) w := by
  refine meets_ofAction (.write (s.placeFor name) text) fun w₁ hw₁ w₂ answer hstep => ?_
  have hmade₁ := hmade.of_leavesAlone hw₁
  obtain ⟨more, hfiles, hwritten, hwhole⟩ := w₁.write_cases s (s.placeFor name) text
  rw [show w₁.write s (s.placeFor name) text = (w₂, answer) from hstep] at hfiles hwritten hwhole
  dsimp only at hfiles hwritten hwhole
  have hleaves : LeavesAlone s old (· ≠ name) w₁ w₂ := by
    refine .of_source hs hname ?_ (fun loc hdir => ?_) (fun loc hne _ => ?_) hwritten
    · rw [hfiles]
      exact hw₁.grown.append hs hname hmade.free more
    · have hne : loc ≠ s.placeFor name := fun hloc =>
        hw₁.grown.not_directory hs hname hmade.free (hloc ▸ hdir)
      rw [hfiles, FileSystem.get?_append_of_ne _ hne]
      exact hdir
    · rw [hfiles, FileSystem.get?_append_of_ne _ hne]
  refine ⟨hleaves, hmade₁.of_leavesAlone hleaves, fun howned => ⟨more, ⟨?_, ?_⟩, hwhole⟩⟩
  · have hfile := ((hw howned).of_leavesAlone hw₁ hname howned).file
    rw [hfiles]
    unfold FileSystem.append
    rw [hfile]
    exact FileSystem.get?_put_self _ (s.placeFor_ne_nil hs hname) _
  · rw [hwritten]
    exact ((hw howned).of_leavesAlone hw₁ hname howned).record

/-- A source that is discarded is gone. -/
theorem meets_discard (hmade : Made s old name w)
    (hw : own name → ∃ bytes, Holds s name bytes w) :
    (ofAction (.discard name)).Meets s (LeavesAlone s old own) (LeavesAlone s old (· ≠ name))
      (fun w' _ => own name → Untouched s old name w') w := by
  refine meets_ofAction (.discard name) fun w₁ hw₁ w₂ answer hstep => ?_
  have hmade₁ := hmade.of_leavesAlone hw₁
  have hwritten := w₁.written_discard s name
  rw [show w₁.discard s name = (w₂, answer) from hstep] at hwritten
  refine ⟨?_, fun howned => ⟨?_, ?_⟩⟩
  · have hfiles := w₁.files_discard s name
    rw [show w₁.discard s name = _ from hstep] at hfiles
    rcases hfiles with hsame | herased
    · exact .of_eq hw₁.grown hsame hwritten
    · refine .of_source hs hname ?_ (fun loc hdir => ?_) (fun loc hne _ => ?_) hwritten
      · exact herased ▸ hw₁.grown.erase hs hname hmade.free
      · have hne : loc ≠ s.placeFor name := fun hloc =>
          hw₁.grown.not_directory hs hname hmade.free (hloc ▸ hdir)
        rw [herased, FileSystem.get?_erase_of_ne _ hne]
        exact hdir
      · rw [herased, FileSystem.get?_erase_of_ne _ hne]
  · obtain ⟨bytes, hholds⟩ := hw howned
    have hfile := (hholds.of_leavesAlone hw₁ hname howned).file
    have hdiscarded := discard_made (w := w₁) hmade₁.located (fun _ => id) hfile
    obtain ⟨rfl, -⟩ := Prod.mk.inj (hdiscarded.symm.trans hstep)
    exact (FileSystem.get?_erase_self _ (s.placeFor_ne_nil hs hname)).trans hmade.free.symm
  · obtain ⟨bytes, hholds⟩ := hw howned
    rw [hwritten]
    exact (hholds.of_leavesAlone hw₁ hname howned).record

omit hs in
/-- A source that is recorded is complete for as long as it is owned. -/
theorem meets_record {source : String} (hw : own name → Complete s name source w) :
    (ofAction (.record name)).Meets s (LeavesAlone s old own) (LeavesAlone s old (· ≠ name))
      (fun w' _ => own name → Complete s name source w') w := by
  refine meets_ofAction (.record name) fun w₁ hw₁ w₂ answer hstep => ?_
  obtain rfl : w₂ = w₁.record name := congrArg Prod.fst hstep.symm
  refine ⟨⟨?_, ?_, fun _ _ _ => ?_, fun other hne => ?_⟩, fun howned => ?_⟩
  · rw [World.files_record]
    exact hw₁.grown
  · rw [World.files_record]
    exact fun _ => id
  · rw [World.files_record]
  · rw [World.mem_written_record]
    simp [hne]
  · unfold Complete
    rw [World.files_record]
    exact (hw howned).of_leavesAlone hw₁ hname howned

end

end TextProviders
