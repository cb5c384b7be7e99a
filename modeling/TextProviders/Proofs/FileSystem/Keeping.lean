import TextProviders.FileSystem

/-!
# What the operations of a file system leave alone

Three relations between an older and a newer state of a file system, from the weakest to the
strongest:

* `KeepsDirectories`: every directory is still one.  Paths are looked up through directories only,
  so a path that led somewhere leads to the same place (`locate_of_keepsDirectories`).
* `Keeps`: every entry stands unchanged, files with their bytes.
* `AddsDirectories`: nothing changed but that directories came to stand where nothing stood.

Where a path leads does not depend on what stands where: `locate` either fails or answers the place
that `placeOf` reads off the path (`eq_placeOf_of_locate`).  So a path that is looked up twice, with
anything happening in between, cannot lead to two places.
-/

namespace TextProviders.FileSystem

/-! ## One name after the other -/

section

variable {fs : FileSystem} {dir last : Location} {part : String} {front rest : List String}

theorem enter_eq_ok_iff {next : Location} : fs.enter dir part = .ok next ↔
    (part = ".." ∧ next = dir.dropLast) ∨ (part ≠ ".." ∧ part.utf8ByteSize ≤ maxName ∧
      fs.get? (dir ++ [part]) = some .directory ∧ next = dir ++ [part]) := by
  unfold enter
  by_cases hup : part = ".."
  · simp [hup, eq_comm]
  · by_cases hlong : maxName < part.utf8ByteSize
    · simp [hup, hlong, Nat.not_le_of_lt hlong]
    · cases hget : fs.get? (dir ++ [part]) with
      | none => simp [hup, hlong]
      | some e => cases e <;> simp [hup, hlong, Nat.le_of_not_lt hlong, eq_comm]

/-- Why a name leads no further. -/
theorem enter_eq_error_iff {e : AccessError} : fs.enter dir part = .error e ↔
    part ≠ ".." ∧ ((maxName < part.utf8ByteSize ∧ e = .nameTooLong) ∨
      (part.utf8ByteSize ≤ maxName ∧ fs.get? (dir ++ [part]) = none ∧ e = .notFound) ∨
      (part.utf8ByteSize ≤ maxName ∧ (∃ bytes, fs.get? (dir ++ [part]) = some (.file bytes)) ∧
        e = .notDirectory)) := by
  unfold enter
  by_cases hup : part = ".."
  · simp [hup]
  · by_cases hlong : maxName < part.utf8ByteSize
    · simp [hup, hlong, Nat.not_le_of_lt hlong, eq_comm]
    · cases hget : fs.get? (dir ++ [part]) with
      | none => simp [hup, hlong, Nat.le_of_not_lt hlong, eq_comm]
      | some entry => cases entry <;> simp [hup, hlong, Nat.le_of_not_lt hlong, eq_comm]

theorem enter_eq {next : Location} (h : fs.enter dir part = .ok next) :
    next = if part = ".." then dir.dropLast else dir ++ [part] := by
  rcases enter_eq_ok_iff.mp h with ⟨rfl, rfl⟩ | ⟨hdown, -, -, rfl⟩
  · rfl
  · rw [if_neg hdown]

theorem enterAll_singleton : fs.enterAll dir [part] = fs.enter dir part := by
  rw [enterAll]
  cases fs.enter dir part with
  | error e => rfl
  | ok next => rfl

theorem enterAll_cons_eq_ok_iff : fs.enterAll dir (part :: rest) = .ok last ↔
    ∃ next, fs.enter dir part = .ok next ∧ fs.enterAll next rest = .ok last := by
  rw [enterAll]
  cases fs.enter dir part with
  | error e => simp
  | ok next => simp

theorem enterAll_cons_eq_error_iff {e : AccessError} : fs.enterAll dir (part :: rest) = .error e ↔
    fs.enter dir part = .error e ∨
      ∃ next, fs.enter dir part = .ok next ∧ fs.enterAll next rest = .error e := by
  rw [enterAll]
  cases fs.enter dir part with
  | error e' => simp
  | ok next => simp

/-- Names lead on from where those before them led. -/
theorem enterAll_append_of_ok {mid : Location} (h : fs.enterAll dir front = .ok mid) :
    fs.enterAll dir (front ++ rest) = fs.enterAll mid rest := by
  induction front generalizing dir with
  | nil =>
      obtain rfl : dir = mid := Except.ok.inj h
      rfl
  | cons part front ih =>
      obtain ⟨next, hpart, hfront⟩ := enterAll_cons_eq_ok_iff.mp h
      rw [List.cons_append, enterAll, hpart]
      exact ih hfront

theorem enterAll_append_eq_ok_iff : fs.enterAll dir (front ++ rest) = .ok last ↔
    ∃ mid, fs.enterAll dir front = .ok mid ∧ fs.enterAll mid rest = .ok last := by
  constructor
  · intro h
    induction front generalizing dir with
    | nil => exact ⟨dir, rfl, h⟩
    | cons part front ih =>
        obtain ⟨next, hpart, hbehind⟩ := enterAll_cons_eq_ok_iff.mp h
        obtain ⟨mid, hfront, hrest⟩ := ih hbehind
        exact ⟨mid, enterAll_cons_eq_ok_iff.mpr ⟨next, hpart, hfront⟩, hrest⟩
  · rintro ⟨mid, hfront, hrest⟩
    rw [enterAll_append_of_ok hfront, hrest]

end

/-! ## Where a path leads, if it leads anywhere -/

/-- The place that parts lead to from a directory, one part after the other. -/
def walk (dir : Location) (parts : List String) : Location :=
  parts.foldl (fun d part => if part = ".." then d.dropLast else d ++ [part]) dir

/-- The place that a path leads to from a working directory, if it leads anywhere. -/
def placeOf (here : Location) (p : Path) : Location :=
  walk (if p.anchor = .here then here else []) p.parts

theorem walk_of_enterAll {fs : FileSystem} {dir last : Location} {parts : List String}
    (h : fs.enterAll dir parts = .ok last) : last = walk dir parts := by
  induction parts generalizing dir with
  | nil => cases h; rfl
  | cons part rest ih =>
      obtain ⟨next, hpart, hrest⟩ := enterAll_cons_eq_ok_iff.mp h
      rw [ih hrest, enter_eq hpart]
      rfl

/-- A path leads to a place if it can be looked up at all, its directories exist, and its last part is a
name below them. -/
theorem locate_eq_at_iff {fs : FileSystem} {here : Location} {p : Path} {loc : Location} :
    fs.locate here p = .ok (.at loc) ↔ holdsNul p = false ∧ p.text.utf8ByteSize ≤ maxPath ∧
      ∃ dir last, fs.enterAll (if p.anchor = .here then here else []) p.parts.dropLast = .ok dir ∧
        p.parts.getLast? = some last ∧ last ≠ ".." ∧ last.utf8ByteSize ≤ maxName ∧
        loc = dir ++ [last] := by
  constructor
  · intro h
    unfold locate at h
    split at h
    · cases h
    next hnul =>
    split at h
    · cases h
    next hlong =>
    dsimp only at h
    split at h
    · cases h
    next last hlast =>
    split at h
    · cases h
    next dir hdir =>
    split at h
    · cases h
    next hdots =>
    split at h
    · cases h
    next hfits =>
    cases h
    exact ⟨Bool.eq_false_iff.mpr hnul, Nat.not_lt.mp hlong, dir, last, hdir, hlast, hdots,
      Nat.not_lt.mp hfits, rfl⟩
  · rintro ⟨hnul, hshort, dir, last, hdir, hlast, hdots, hfits, rfl⟩
    simp [locate, hnul, Nat.not_lt.mpr hshort, hdir, hlast, hdots, Nat.not_lt.mpr hfits]

theorem locate_at {fs : FileSystem} {here : Location} {p : Path} {loc : Location}
    (h : fs.locate here p = .ok (.at loc)) :
    ∃ dir last, fs.enterAll (if p.anchor = .here then here else []) p.parts.dropLast = .ok dir ∧
      p.parts.getLast? = some last ∧ last ≠ ".." ∧ loc = dir ++ [last] := by
  obtain ⟨-, -, dir, last, hdir, hlast, hdots, -, hloc⟩ := locate_eq_at_iff.mp h
  exact ⟨dir, last, hdir, hlast, hdots, hloc⟩

theorem eq_placeOf_of_locate {fs : FileSystem} {here : Location} {p : Path} {loc : Location}
    (h : fs.locate here p = .ok (.at loc)) : loc = placeOf here p := by
  obtain ⟨dir, last, hdir, hlast, hdots, rfl⟩ := locate_at h
  obtain ⟨front, hparts⟩ := List.getLast?_eq_some_iff.mp hlast
  have hfront : p.parts.dropLast = front := by rw [hparts]; simp
  rw [hfront] at hdir
  rw [walk_of_enterAll hdir]
  simp [placeOf, walk, hparts, hdots]

theorem ne_nil_of_locate {fs : FileSystem} {here : Location} {p : Path} {loc : Location}
    (h : fs.locate here p = .ok (.at loc)) : loc ≠ [] := by
  obtain ⟨dir, last, -, -, -, rfl⟩ := locate_at h
  simp

/-! ## The file to which a path leads -/

/-- The bytes of the file to which a path leads. -/
def fileAt? (fs : FileSystem) (here : Location) (p : Path) : Option (List UInt8) :=
  match fs.stat here p with
  | .ok (.file bytes) => some bytes
  | _ => none

theorem stat_eq_file_iff {fs : FileSystem} {here : Location} {p : Path} {bytes : List UInt8} :
    fs.stat here p = .ok (.file bytes) ↔
      ∃ loc, fs.locate here p = .ok (.at loc) ∧ fs.get? loc = some (.file bytes) := by
  unfold stat
  constructor
  · intro h
    split at h
    · cases h
    · cases h
    · next loc hloc =>
      split at h
      · cases h
      · next e he =>
        cases h
        exact ⟨loc, hloc, he⟩
  · rintro ⟨loc, hloc, hfile⟩
    simp only [hloc, hfile]

theorem fileAt?_eq_some_iff {fs : FileSystem} {here : Location} {p : Path} {bytes : List UInt8} :
    fs.fileAt? here p = some bytes ↔
      ∃ loc, fs.locate here p = .ok (.at loc) ∧ fs.get? loc = some (.file bytes) := by
  rw [← stat_eq_file_iff]
  unfold fileAt?
  constructor
  · intro h
    split at h
    · next hstat => cases h; exact hstat
    · cases h
  · intro h
    rw [h]

/-! ## Keeping directories -/

/-- Every directory of the older state is one in the newer. -/
def KeepsDirectories (old new : FileSystem) : Prop :=
  ∀ loc, old.get? loc = some .directory → new.get? loc = some .directory

theorem KeepsDirectories.trans {a b c : FileSystem} (hab : a.KeepsDirectories b)
    (hbc : b.KeepsDirectories c) : a.KeepsDirectories c :=
  fun loc h => hbc loc (hab loc h)

theorem enter_of_keepsDirectories {old new : FileSystem} (hk : old.KeepsDirectories new)
    {dir next : Location} {part : String} (h : old.enter dir part = .ok next) :
    new.enter dir part = .ok next := by
  rw [enter_eq_ok_iff] at h ⊢
  exact h.imp_right fun ⟨hdown, hfits, hdir, hnext⟩ => ⟨hdown, hfits, hk _ hdir, hnext⟩

theorem enterAll_of_keepsDirectories {old new : FileSystem} (hk : old.KeepsDirectories new)
    {dir last : Location} {parts : List String} (h : old.enterAll dir parts = .ok last) :
    new.enterAll dir parts = .ok last := by
  induction parts generalizing dir with
  | nil => exact h
  | cons part rest ih =>
      obtain ⟨next, hpart, hrest⟩ := enterAll_cons_eq_ok_iff.mp h
      exact enterAll_cons_eq_ok_iff.mpr ⟨next, enter_of_keepsDirectories hk hpart, ih hrest⟩

/-- A path that led somewhere leads to the same place for as long as directories are kept. -/
theorem locate_of_keepsDirectories {old new : FileSystem} (hk : old.KeepsDirectories new)
    {here : Location} {p : Path} {pl : Place} (h : old.locate here p = .ok pl) :
    new.locate here p = .ok pl := by
  unfold locate at h ⊢
  split at h
  · cases h
  split at h
  · cases h
  next hnul hlong =>
  rw [if_neg hnul, if_neg hlong]
  dsimp only at h ⊢
  split at h
  · exact h
  · split at h
    · cases h
    · next dir hdir =>
      rw [enterAll_of_keepsDirectories hk hdir]
      exact h

/-! ## Keeping entries -/

/-- Every entry of the older state stands unchanged in the newer. -/
def Keeps (old new : FileSystem) : Prop :=
  ∀ loc e, old.get? loc = some e → new.get? loc = some e

theorem Keeps.refl (fs : FileSystem) : fs.Keeps fs :=
  fun _ _ h => h

theorem Keeps.trans {a b c : FileSystem} (hab : a.Keeps b) (hbc : b.Keeps c) : a.Keeps c :=
  fun loc e h => hbc loc e (hab loc e h)

theorem Keeps.keepsDirectories {old new : FileSystem} (h : old.Keeps new) :
    old.KeepsDirectories new :=
  fun loc hd => h loc .directory hd

/-- Where nothing stands now, nothing stood before. -/
theorem Keeps.eq_none {old new : FileSystem} (h : old.Keeps new) {loc : Location}
    (hnone : new.get? loc = none) : old.get? loc = none := by
  cases hold : old.get? loc with
  | none => rfl
  | some e => rw [h loc e hold] at hnone; cases hnone

/-- A file to which a path led is still there for as long as everything is kept. -/
theorem Keeps.fileAt? {old new : FileSystem} (h : old.Keeps new) {here : Location} {p : Path}
    {bytes : List UInt8} (hfile : old.fileAt? here p = some bytes) :
    new.fileAt? here p = some bytes := by
  obtain ⟨loc, hloc, hold⟩ := fileAt?_eq_some_iff.mp hfile
  exact fileAt?_eq_some_iff.mpr
    ⟨loc, locate_of_keepsDirectories h.keepsDirectories hloc, h loc _ hold⟩

theorem Keeps.put {old new : FileSystem} (h : old.Keeps new) {loc : Location}
    (hnone : old.get? loc = none) (e : Entry) : old.Keeps (new.put loc e) := by
  intro other e' hother
  have hne : other ≠ loc := fun he => by rw [he, hnone] at hother; cases hother
  rw [get?_put_of_ne new hne]
  exact h other e' hother

theorem Keeps.erase {old new : FileSystem} (h : old.Keeps new) {loc : Location}
    (hnone : old.get? loc = none) : old.Keeps (new.erase loc) := by
  intro other e' hother
  have hne : other ≠ loc := fun he => by rw [he, hnone] at hother; cases hother
  rw [get?_erase_of_ne new hne]
  exact h other e' hother

/-- Adding bytes at a place keeps what stood elsewhere. -/
theorem Keeps.append {old new : FileSystem} (h : old.Keeps new) {loc : Location}
    (hnone : old.get? loc = none) (bytes : List UInt8) : old.Keeps (new.append loc bytes) := by
  unfold FileSystem.append
  split
  · exact h.put hnone _
  · exact h

/-! ## Only adding directories -/

/-- The newer state has the entries of the older, and directories where nothing stood. -/
def AddsDirectories (old new : FileSystem) : Prop :=
  ∀ loc, new.get? loc = old.get? loc ∨ (old.get? loc = none ∧ new.get? loc = some .directory)

theorem AddsDirectories.refl (fs : FileSystem) : fs.AddsDirectories fs :=
  fun _ => .inl rfl

theorem AddsDirectories.trans {a b c : FileSystem} (hab : a.AddsDirectories b)
    (hbc : b.AddsDirectories c) : a.AddsDirectories c := by
  intro loc
  rcases hab loc with hb | ⟨hnone, hb⟩
  · rw [← hb]
    exact hbc loc
  · rcases hbc loc with hc | ⟨hc, -⟩
    · exact .inr ⟨hnone, by rw [hc, hb]⟩
    · rw [hb] at hc
      cases hc

theorem AddsDirectories.keeps {old new : FileSystem} (h : old.AddsDirectories new) :
    old.Keeps new := by
  intro loc e he
  rcases h loc with hsame | ⟨hnone, -⟩
  · rw [hsame]; exact he
  · rw [hnone] at he; cases he

theorem AddsDirectories.file_iff {old new : FileSystem} (h : old.AddsDirectories new)
    (loc : Location) (bytes : List UInt8) :
    new.get? loc = some (.file bytes) ↔ old.get? loc = some (.file bytes) := by
  rcases h loc with hsame | ⟨hnone, hdir⟩
  · rw [hsame]
  · simp [hnone, hdir]

theorem createNew_ok {fs new : FileSystem} {here : Location} {p : Path} {e : Entry}
    {loc : Location} (h : fs.createNew here p e = .ok (loc, new)) :
    fs.locate here p = .ok (.at loc) ∧ fs.get? loc = none ∧ new = fs.put loc e := by
  unfold createNew at h
  split at h
  · cases h
  · cases h
  · next place hplace =>
    split at h
    · cases h
    · next hnone =>
      cases h
      exact ⟨hplace, hnone, rfl⟩

theorem addsDirectories_createNew {fs new : FileSystem} {here : Location} {p : Path}
    {loc : Location} (h : fs.createNew here p .directory = .ok (loc, new)) :
    fs.AddsDirectories new := by
  obtain ⟨hloc, hnone, rfl⟩ := createNew_ok h
  intro other
  by_cases he : other = loc
  · subst he
    exact .inr ⟨hnone, get?_put_self fs (ne_nil_of_locate hloc) _⟩
  · exact .inl (get?_put_of_ne fs he _)

theorem addsDirectories_makeDir (fs : FileSystem) (here : Location) (p : Path) :
    fs.AddsDirectories (fs.makeDir here p).1 := by
  unfold makeDir
  split
  · next h => exact addsDirectories_createNew h
  · split
    · exact .refl fs
    · split <;> exact .refl fs

theorem addsDirectories_makeDirsWithin (here : Location) (up : Nat) (fs : FileSystem) (p : Path) :
    fs.AddsDirectories (fs.makeDirsWithin here p up).1 := by
  induction up generalizing fs p with
  | zero => exact addsDirectories_makeDir fs here p
  | succ up ih =>
      have hfirst := addsDirectories_makeDir fs here p
      unfold makeDirsWithin
      split
      · next hmade => rw [hmade] at hfirst; exact hfirst
      · next made f hmade =>
        rw [hmade] at hfirst
        split
        · have habove := hfirst.trans (ih made p.parent)
          split
          · next above habove' =>
            rw [habove'] at habove
            exact habove.trans (addsDirectories_makeDir above here p)
          · exact habove
        · exact hfirst

theorem addsDirectories_makeDirs (fs : FileSystem) (here : Location) (p : Path) :
    fs.AddsDirectories (fs.makeDirs here p).1 :=
  addsDirectories_makeDirsWithin here p.parts.length fs p

theorem unlink_ok {fs new : FileSystem} {here : Location} {p : Path}
    (h : fs.unlink here p = .ok new) : new = fs.erase (placeOf here p) := by
  unfold unlink at h
  split at h
  · cases h
  · cases h
  · next loc hloc =>
    split at h
    · cases h
    · cases h
    · cases h
      rw [eq_placeOf_of_locate hloc]

theorem unlink_of_locate {fs : FileSystem} {here : Location} {p : Path} {loc : Location}
    {bytes : List UInt8} (hloc : fs.locate here p = .ok (.at loc))
    (hfile : fs.get? loc = some (.file bytes)) : fs.unlink here p = .ok (fs.erase loc) := by
  unfold unlink
  simp only [hloc, hfile]

/-! ## Trees

If everything stands in a directory, a path without double dots leads to what stands somewhere as
soon as it leads there in any other state: the directories it goes through are those above. -/

/-- Everything stands in a directory. -/
def Closed (fs : FileSystem) : Prop :=
  ∀ dir name e, fs.get? (dir ++ [name]) = some e → fs.get? dir = some .directory

theorem Closed.above {fs : FileSystem} (hc : fs.Closed) {dir below : Location}
    (h : fs.get? (dir ++ below) = some .directory) : fs.get? dir = some .directory := by
  induction below generalizing dir with
  | nil => rwa [List.append_nil] at h
  | cons name below ih =>
      rw [List.append_cons] at h
      exact hc dir name .directory (ih h)

theorem walk_eq_append {dir : Location} {parts : List String} (hdots : ".." ∉ parts) :
    walk dir parts = dir ++ parts := by
  induction parts generalizing dir with
  | nil => exact (List.append_nil dir).symm
  | cons part rest ih =>
      obtain ⟨hpart, hrest⟩ := not_or.mp ((not_congr List.mem_cons).mp hdots)
      show walk (if part = ".." then dir.dropLast else dir ++ [part]) rest = _
      rw [if_neg (Ne.symm hpart), ih hrest, ← List.append_cons]

theorem Closed.enterAll {old new : FileSystem} (hc : old.Closed) {dir last : Location}
    {parts : List String} (hdots : ".." ∉ parts) (h : new.enterAll dir parts = .ok last)
    (hlast : old.get? last = some .directory) : old.enterAll dir parts = .ok last := by
  induction parts generalizing dir with
  | nil => exact h
  | cons part rest ih =>
      obtain ⟨hpart, hrest⟩ := not_or.mp ((not_congr List.mem_cons).mp hdots)
      obtain ⟨next, hnext, h⟩ := enterAll_cons_eq_ok_iff.mp h
      refine enterAll_cons_eq_ok_iff.mpr ⟨next, enter_eq_ok_iff.mpr (.inr ?_), ih hrest h⟩
      obtain ⟨rfl, -⟩ | ⟨hdown, hfits, -, rfl⟩ := enter_eq_ok_iff.mp hnext
      · exact absurd rfl hpart
      · rw [walk_of_enterAll h, walk_eq_append hrest] at hlast
        exact ⟨hdown, hfits, hc.above hlast, rfl⟩

theorem Closed.locate {old new : FileSystem} (hc : old.Closed) {here loc : Location} {p : Path}
    {e : Entry} (hdots : ".." ∉ p.parts) (h : new.locate here p = .ok (.at loc))
    (he : old.get? loc = some e) : old.locate here p = .ok (.at loc) := by
  have hfront : ".." ∉ p.parts.dropLast := fun hmem => hdots (List.dropLast_subset _ hmem)
  obtain ⟨hnul, hshort, dir, last, hdir, hlast, hdown, hfits, hloc⟩ := locate_eq_at_iff.mp h
  have hold := hc.enterAll hfront hdir (hc dir last e (hloc ▸ he))
  exact locate_eq_at_iff.mpr ⟨hnul, hshort, dir, last, hold, hlast, hdown, hfits, hloc⟩

/-- A path leads to the file to which it led, if what stands at its place is the same. -/
theorem Closed.fileAt?_eq {old new : FileSystem} (hc : old.Closed) (hk : old.Keeps new)
    {here : Location} {p : Path} (hdots : ".." ∉ p.parts)
    (hplace : new.get? (placeOf here p) = old.get? (placeOf here p)) :
    new.fileAt? here p = old.fileAt? here p := by
  cases hold : old.fileAt? here p with
  | some bytes => exact hk.fileAt? hold
  | none =>
      cases hnew : new.fileAt? here p with
      | none => rfl
      | some bytes =>
          obtain ⟨loc, hloc, hfile⟩ := fileAt?_eq_some_iff.mp hnew
          obtain rfl : loc = placeOf here p := eq_placeOf_of_locate hloc
          rw [hplace] at hfile
          have hthere := hc.locate hdots hloc hfile
          rw [fileAt?_eq_some_iff.mpr ⟨_, hthere, hfile⟩] at hold
          cases hold

/-! ## A file that was made and filled -/

theorem get?_append_of_ne (fs : FileSystem) {loc other : Location} (hne : other ≠ loc)
    (bytes : List UInt8) : (fs.append loc bytes).get? other = fs.get? other := by
  unfold append
  split
  · exact get?_put_of_ne fs hne _
  · rfl

theorem get?_append_put (fs : FileSystem) {loc : Location} (h : loc ≠ []) (bytes : List UInt8) :
    ((fs.put loc (.file [])).append loc bytes).get? loc = some (.file bytes) := by
  unfold append
  rw [get?_put_self fs h]
  exact get?_put_self _ h _

theorem get?_append_put_of_ne (fs : FileSystem) {loc other : Location} (h : loc ≠ [])
    (hne : other ≠ loc) (bytes : List UInt8) :
    ((fs.put loc (.file [])).append loc bytes).get? other = fs.get? other := by
  unfold append
  rw [get?_put_self fs h]
  show ((fs.put loc _).put loc _).get? other = _
  rw [get?_put_of_ne _ hne, get?_put_of_ne fs hne]

/-- The files of both states are the same ones with the same bytes, at one place excepted. -/
def SameFilesBut (loc : Location) (old new : FileSystem) : Prop :=
  ∀ other, other ≠ loc → ∀ bytes,
    new.get? other = some (.file bytes) ↔ old.get? other = some (.file bytes)

end TextProviders.FileSystem
