import TextProviders.Proofs.FileSystem.Making
import TextProviders.Proofs.Generation.Resource

/-!
# Two states that differ at one place

Two states differ only at a place if everything else stands the same, and at the place stands a directory
in both or in neither (`DifferAt`).  Paths are looked up through directories, so a path leads to the same
place in both; but where it leads nowhere the reason can differ, since a file in the way and nothing at
all are different reasons.  Whether a path leads to a file does not depend on that reason, and the answer
is the same unless the path leads to the place itself (`DifferAt.isFile_eq`).  A search for a resource
does depend on it: it goes on behind a root under which nothing is found, and ends at one under which a
file is in the way.  So two searches that find a text find the same (`Resolver.findsUnder_eq`), but one of
them can fail.

If also nothing stands at the place in both or in neither, the states are `Alike`, and no look-up can tell
them apart but one that reads the file at the place.
-/

namespace TextProviders.FileSystem

/-- Two states have the same entries but at one place, where a directory stands in both or in neither. -/
structure DifferAt (place : Location) (a b : FileSystem) : Prop where
  elsewhere : ∀ loc, loc ≠ place → b.get? loc = a.get? loc
  directory : b.get? place = some .directory ↔ a.get? place = some .directory

/-- At the place, too, stands the same kind of thing in both states. -/
structure Alike (place : Location) (a b : FileSystem) : Prop extends DifferAt place a b where
  nothing : b.get? place = none ↔ a.get? place = none

section

variable {place here : Location} {a b c : FileSystem} {p : Path}

theorem DifferAt.refl (place : Location) (a : FileSystem) : DifferAt place a a :=
  ⟨fun _ _ => rfl, Iff.rfl⟩

theorem DifferAt.symm (h : DifferAt place a b) : DifferAt place b a :=
  ⟨fun loc hne => (h.elsewhere loc hne).symm, h.directory.symm⟩

theorem DifferAt.trans (hab : DifferAt place a b) (hbc : DifferAt place b c) : DifferAt place a c :=
  ⟨fun loc hne => (hbc.elsewhere loc hne).trans (hab.elsewhere loc hne),
    hbc.directory.trans hab.directory⟩

/-! ## Where paths lead -/

theorem DifferAt.keepsDirectories (h : DifferAt place a b) : a.KeepsDirectories b := by
  intro loc hdir
  by_cases hloc : loc = place
  · subst hloc
    exact h.directory.mpr hdir
  · rw [h.elsewhere loc hloc]
    exact hdir

/-- A path leads to the same place in both states. -/
theorem DifferAt.locate_eq_ok_iff (h : DifferAt place a b) {pl : Place} :
    b.locate here p = .ok pl ↔ a.locate here p = .ok pl :=
  ⟨locate_of_keepsDirectories h.symm.keepsDirectories, locate_of_keepsDirectories h.keepsDirectories⟩

theorem DifferAt.locate_tooLong_iff (h : DifferAt place a b) :
    b.locate here p = .error .nameTooLong ↔ a.locate here p = .error .nameTooLong :=
  ⟨locate_tooLong_of_keeps h.symm.keepsDirectories, locate_tooLong_of_keeps h.keepsDirectories⟩

/-- A path leads nowhere for something too long, or because there is nothing of the kind. -/
theorem isAbsence_of_locate {e : AccessError} (h : a.locate here p = .error e)
    (hlong : e ≠ .nameTooLong) : AccessError.isAbsence e = true := by
  rcases locate_eq_error h with ⟨rfl, -⟩ | ⟨rfl, -⟩ | ⟨rfl, -⟩ | rfl | rfl
  · rfl
  · exact absurd rfl hlong
  · exact absurd rfl hlong
  · rfl
  · rfl

/-- If a path does not lead to the same in both states, it leads to nothing in either. -/
theorem DifferAt.locate_cases (h : DifferAt place a b) (here : Location) (p : Path) :
    b.locate here p = a.locate here p ∨
      ∃ e e', a.locate here p = .error e ∧ b.locate here p = .error e' ∧
        AccessError.isAbsence e = true ∧ AccessError.isAbsence e' = true := by
  cases ha : a.locate here p with
  | ok pl => exact .inl (h.locate_eq_ok_iff.mpr ha)
  | error e =>
      cases hb : b.locate here p with
      | ok pl => cases ha.symm.trans (h.locate_eq_ok_iff.mp hb)
      | error e' =>
          by_cases hlong : e = .nameTooLong
          · left
            rw [← hb, h.locate_tooLong_iff.mpr (hlong ▸ ha), hlong]
          · have hlong' : e' ≠ .nameTooLong := by
              rintro rfl
              exact hlong (Except.error.inj (ha.symm.trans (h.locate_tooLong_iff.mp hb)))
            exact .inr ⟨e, e', rfl, rfl, isAbsence_of_locate ha hlong, isAbsence_of_locate hb hlong'⟩

/-! ## What stands there -/

/-- A path that does not lead to the place finds the same in both states, or nothing in either. -/
theorem DifferAt.stat_cases (h : DifferAt place a b) (hp : a.locate here p ≠ .ok (.at place)) :
    b.stat here p = a.stat here p ∨
      ∃ e e', a.stat here p = .error e ∧ b.stat here p = .error e' ∧
        AccessError.isAbsence e = true ∧ AccessError.isAbsence e' = true := by
  unfold stat
  rcases h.locate_cases here p with hsame | ⟨e, e', ha, hb, he, he'⟩
  · left
    rw [hsame]
    cases hloc : a.locate here p with
    | error e => rfl
    | ok pl =>
        cases pl with
        | directory loc => rfl
        | «at» loc =>
            have hne : loc ≠ place := fun heq => hp (heq ▸ hloc)
            dsimp only
            rw [h.elsewhere loc hne]
  · right
    rw [ha, hb]
    exact ⟨e, e', rfl, rfl, he, he'⟩

/-- Whether a path leads to a file is the same in both states, unless it leads to the place. -/
theorem DifferAt.isFile_eq (h : DifferAt place a b) (hp : a.locate here p ≠ .ok (.at place)) :
    b.isFile here p = a.isFile here p := by
  unfold isFile
  rcases h.stat_cases hp with hsame | ⟨e, e', ha, hb, he, he'⟩
  · rw [hsame]
  · rw [ha, hb]
    simp only [he, he', if_true]

/-! ## States alike -/

/-- Where the entries are not the same, files stand. -/
theorem Alike.get?_cases (h : Alike place a b) (loc : Location) :
    b.get? loc = a.get? loc ∨
      ∃ bytes bytes', a.get? loc = some (.file bytes) ∧ b.get? loc = some (.file bytes') := by
  by_cases hloc : loc = place
  · subst hloc
    cases ha : a.get? loc with
    | none => exact .inl (h.nothing.mpr ha)
    | some e =>
        cases hb : b.get? loc with
        | none => cases (h.nothing.mp hb).symm.trans ha
        | some e' =>
            cases e with
            | directory => exact .inl (hb.symm.trans (h.directory.mpr ha))
            | file bytes =>
                cases e' with
                | directory => cases (h.directory.mp hb).symm.trans ha
                | file bytes' => exact .inr ⟨bytes, bytes', rfl, rfl⟩
  · exact .inl (h.elsewhere loc hloc)

theorem Alike.enter_eq (h : Alike place a b) (dir : Location) (part : String) :
    b.enter dir part = a.enter dir part := by
  unfold enter
  rcases h.get?_cases (dir ++ [part]) with hsame | ⟨bytes, bytes', ha, hb⟩
  · rw [hsame]
  · rw [ha, hb]

theorem Alike.enterAll_eq (h : Alike place a b) (dir : Location) (parts : List String) :
    b.enterAll dir parts = a.enterAll dir parts := by
  induction parts generalizing dir with
  | nil => rfl
  | cons part rest ih =>
      simp only [enterAll, h.enter_eq]
      cases a.enter dir part with
      | error e => rfl
      | ok next => exact ih next

theorem Alike.locate_eq (h : Alike place a b) (here : Location) (p : Path) :
    b.locate here p = a.locate here p := by
  unfold locate
  simp only [h.enterAll_eq]

/-- A path that does not lead to the place finds the same. -/
theorem Alike.stat_eq (h : Alike place a b) (hp : a.locate here p ≠ .ok (.at place)) :
    b.stat here p = a.stat here p := by
  unfold stat
  rw [h.locate_eq]
  cases hloc : a.locate here p with
  | error e => rfl
  | ok pl =>
      cases pl with
      | directory loc => rfl
      | «at» loc =>
          have hne : loc ≠ place := fun heq => hp (heq ▸ hloc)
          dsimp only
          rw [h.elsewhere loc hne]

/-- Whether a path leads to a file is the same, also at the place. -/
theorem Alike.isFile_eq (h : Alike place a b) (here : Location) (p : Path) :
    b.isFile here p = a.isFile here p := by
  unfold isFile stat
  rw [h.locate_eq]
  cases a.locate here p with
  | error e => rfl
  | ok pl =>
      cases pl with
      | directory loc => rfl
      | «at» loc =>
          dsimp only
          rcases h.get?_cases loc with hsame | ⟨bytes, bytes', ha, hb⟩
          · rw [hsame]
          · rw [ha, hb]

end

end TextProviders.FileSystem

namespace TextProviders.Resolver

open FileSystem

variable {place here : Location} {a b : FileSystem} {name : ResourceName} {roots : List Path}

/-- The resource is not looked for at the place, below whichever root. -/
def LooksElsewhere (a : FileSystem) (here place : Location) (name : ResourceName)
    (roots : List Path) : Prop :=
  ∀ root ∈ roots, a.locate here (pathUnder root name) ≠ .ok (.at place)

theorem LooksElsewhere.of_differAt (h : LooksElsewhere a here place name roots)
    (hd : DifferAt place a b) : LooksElsewhere b here place name roots :=
  fun root hroot hloc => h root hroot (hd.locate_eq_ok_iff.mp hloc)

/-- Searches that find a text find the same text. -/
theorem findsUnder_eq (hd : DifferAt place a b) (h : LooksElsewhere a here place name roots)
    {text text' : List Char} (ha : FindsUnder a here name roots text)
    (hb : FindsUnder b here name roots text') : text' = text := by
  induction roots with
  | nil => exact (not_findsUnder_nil ha).elim
  | cons root rest ih =>
      have hrest : LooksElsewhere a here place name rest :=
        fun r hr => h r (List.mem_cons_of_mem _ hr)
      rw [findsUnder_cons] at ha hb
      have hfile {fs : FileSystem} {bytes : List UInt8}
          (hfs : fs.fileAt? here (pathUnder root name) = some bytes) :
          fs.stat here (pathUnder root name) = .ok (.file bytes) :=
        stat_eq_file_iff.mpr (fileAt?_eq_some_iff.mp hfs)
      rcases hd.stat_cases (h root List.mem_cons_self) with hsame | ⟨e, e', hstat, hstat', -, -⟩
      · rcases ha with ha | ⟨ha, hmore⟩
        · rcases hb with hb | ⟨hb, -⟩
          · have hbytes := (hfile hb).symm.trans (hsame.trans (hfile ha))
            exact Text.Utf8.encode_injective (Entry.file.inj (Except.ok.inj hbytes))
          · cases (hfile ha).symm.trans (hsame.symm.trans hb)
        · rcases hb with hb | ⟨-, hmore'⟩
          · cases ha.symm.trans (hsame.symm.trans (hfile hb))
          · exact ih hrest hmore hmore'
      · -- nothing is there in either state, so both searches go on
        rcases ha with ha | ⟨-, hmore⟩
        · cases hstat.symm.trans (hfile ha)
        · rcases hb with hb | ⟨-, hmore'⟩
          · cases hstat'.symm.trans (hfile hb)
          · exact ih hrest hmore hmore'

/-- In states that are alike, searches answer the same. -/
theorem search_eq_of_alike (hd : Alike place a b) (h : LooksElsewhere a here place name roots) :
    search b here name roots = search a here name roots := by
  induction roots with
  | nil => rfl
  | cons root rest ih =>
      have hrest : LooksElsewhere a here place name rest :=
        fun r hr => h r (List.mem_cons_of_mem _ hr)
      simp only [search, FileSystem.read, hd.stat_eq (h root List.mem_cons_self), ih hrest]

end TextProviders.Resolver
