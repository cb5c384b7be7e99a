import TextProviders.Proofs.FileSystem.Keeping

/-!
# Trees

Seen from a working directory, a file system is a tree if everything stands in a directory and the
working directory is one (`IsTree`).  A path that leads to a place leads into a directory then, so that
what is made there has something to stand in; and below a file nothing stands, so that a file can be
removed.  All operations keep a tree one.
-/

namespace TextProviders.FileSystem

/-- Everything stands in a directory, and the working directory is one. -/
structure IsTree (fs : FileSystem) (here : Location) : Prop where
  closed : fs.Closed
  here : fs.get? here = some .directory

theorem closed_of_entries {fs : FileSystem}
    (h : ∀ entry ∈ fs.entries, fs.get? entry.1.dropLast = some .directory) : fs.Closed := by
  intro dir name e he
  unfold get? at he
  rw [if_neg (by simp), Option.map_eq_some_iff] at he
  obtain ⟨entry, hfound, -⟩ := he
  have hentry := h entry (List.mem_of_find?_eq_some hfound)
  have hloc : entry.1 = dir ++ [name] := by simpa using List.find?_some hfound
  rwa [hloc, List.dropLast_concat] at hentry

section

variable {fs new : FileSystem} {here dir loc : Location} {p : Path} {name : String}

theorem Closed.dropLast (hc : fs.Closed) (hdir : fs.get? dir = some .directory) :
    fs.get? dir.dropLast = some .directory := by
  rcases List.eq_nil_or_concat dir with rfl | ⟨front, last, rfl⟩
  · exact hdir
  · rw [List.concat_eq_append] at hdir ⊢
    rw [List.dropLast_concat]
    exact hc front last .directory hdir

theorem Closed.directory_of_enterAll (hc : fs.Closed) (hdir : fs.get? dir = some .directory)
    {parts : List String} {last : Location} (h : fs.enterAll dir parts = .ok last) :
    fs.get? last = some .directory := by
  induction parts generalizing dir with
  | nil =>
      cases h
      exact hdir
  | cons part rest ih =>
      obtain ⟨next, hnext, hrest⟩ := enterAll_cons_eq_ok_iff.mp h
      refine ih ?_ hrest
      rcases enter_eq_ok_iff.mp hnext with ⟨rfl, rfl⟩ | ⟨-, -, hthere, rfl⟩
      · exact hc.dropLast hdir
      · exact hthere

/-- A path that leads to a place leads into a directory. -/
theorem IsTree.parent_of_locate (ht : fs.IsTree here) (h : fs.locate here p = .ok (.at loc)) :
    ∃ dir name, loc = dir ++ [name] ∧ fs.get? dir = some .directory := by
  obtain ⟨dir, last, hdir, -, -, hloc⟩ := locate_at h
  refine ⟨dir, last, hloc, ht.closed.directory_of_enterAll ?_ hdir⟩
  split
  · exact ht.here
  · rfl

/-! ## Changes -/

theorem Closed.put (hc : fs.Closed) (hdir : fs.get? dir = some .directory)
    (hnone : fs.get? (dir ++ [name]) = none) (e : Entry) : (fs.put (dir ++ [name]) e).Closed := by
  have hkeep (d : Location) (hd : fs.get? d = some .directory) :
      (fs.put (dir ++ [name]) e).get? d = some .directory := by
    have hne : d ≠ dir ++ [name] := fun heq => by rw [heq, hnone] at hd; cases hd
    rwa [get?_put_of_ne fs hne]
  intro d n e' he'
  by_cases heq : d ++ [n] = dir ++ [name]
  · obtain ⟨rfl, -⟩ := List.append_inj' heq rfl
    exact hkeep d hdir
  · rw [get?_put_of_ne fs heq] at he'
    exact hkeep d (hc d n e' he')

/-- Below a file nothing stands, so what becomes of the file changes nothing for others. -/
theorem Closed.of_file {bytes : List UInt8} (hc : fs.Closed) (hfile : fs.get? loc = some (.file bytes))
    (hsame : ∀ other, other ≠ loc → new.get? other = fs.get? other) : new.Closed := by
  intro d n e he
  by_cases hd : d = loc
  · rw [hsame (d ++ [n]) (by simp [← hd])] at he
    have hdir := hc d n e he
    rw [hd, hfile] at hdir
    cases hdir
  · rw [hsame d hd]
    by_cases heq : d ++ [n] = loc
    · exact hc d n (.file bytes) (heq ▸ hfile)
    · rw [hsame _ heq] at he
      exact hc d n e he

theorem IsTree.of_file {bytes : List UInt8} (ht : fs.IsTree here)
    (hfile : fs.get? loc = some (.file bytes))
    (hsame : ∀ other, other ≠ loc → new.get? other = fs.get? other) : new.IsTree here := by
  refine ⟨ht.closed.of_file hfile hsame, ?_⟩
  have hne : here ≠ loc := fun heq => by
    have hdir := ht.here
    rw [heq, hfile] at hdir
    cases hdir
  rw [hsame here hne]
  exact ht.here

theorem IsTree.put (ht : fs.IsTree here) (h : fs.locate here p = .ok (.at loc))
    (hnone : fs.get? loc = none) (e : Entry) : (fs.put loc e).IsTree here := by
  obtain ⟨dir, name, rfl, hdir⟩ := ht.parent_of_locate h
  exact ⟨ht.closed.put hdir hnone e, (Keeps.refl fs).put hnone e here .directory ht.here⟩

theorem IsTree.makeDir (ht : fs.IsTree here) (p : Path) : (fs.makeDir here p).1.IsTree here := by
  unfold FileSystem.makeDir
  split
  · next hnew =>
    obtain ⟨hloc, hnone, rfl⟩ := createNew_ok hnew
    exact ht.put hloc hnone _
  · split
    · exact ht
    · split <;> exact ht

theorem IsTree.makeDirsWithin (up : Nat) (ht : fs.IsTree here) (p : Path) :
    (fs.makeDirsWithin here p up).1.IsTree here := by
  induction up generalizing fs p with
  | zero => exact ht.makeDir p
  | succ up ih =>
      have hfirst := ht.makeDir p
      unfold FileSystem.makeDirsWithin
      split
      · next hmade => rwa [hmade] at hfirst
      · next made f hmade =>
        rw [hmade] at hfirst
        split
        · have habove := ih hfirst p.parent
          split
          · next above habove' =>
            rw [habove'] at habove
            exact habove.makeDir p
          · exact habove
        · exact hfirst

theorem IsTree.makeDirs (ht : fs.IsTree here) (p : Path) : (fs.makeDirs here p).1.IsTree here :=
  ht.makeDirsWithin p.parts.length p

theorem IsTree.append (ht : fs.IsTree here) (loc : Location) (bytes : List UInt8) :
    (fs.append loc bytes).IsTree here := by
  unfold FileSystem.append
  split
  · next hfile => exact ht.of_file hfile fun other hne => get?_put_of_ne fs hne _
  · exact ht

theorem IsTree.unlink (ht : fs.IsTree here) (h : fs.unlink here p = .ok new) : new.IsTree here := by
  unfold FileSystem.unlink at h
  split at h
  · cases h
  · cases h
  · split at h
    · cases h
    · cases h
    · next hfile =>
      cases h
      exact ht.of_file hfile fun other hne => get?_erase_of_ne fs hne

end

end TextProviders.FileSystem
