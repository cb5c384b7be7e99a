import Mathlib.Control.Monad.Basic
import TextProviders.Proofs.FileSystem.Making

/-!
# What opening a path comes to

A path is followed name by name, each below the directory that the names before it lead to
(`Leads`).  Opening it comes to the bytes of a file, or to one of four errors, and for each there is one
thing in the file system that says why (`Opens`): a name at which nothing stands, a file with more names
behind it, a directory where the path ends, a name or a path that is too long.

For a path without NUL there always is exactly one of these, and it is what reading the path answers
(`opens_iff`).  Only the places of the names that the path comes to are looked at (`Opens.congr`).
-/

namespace TextProviders.FileSystem

variable {fs fs' : FileSystem} {here dir last : Location} {p : Path} {part : String}
  {front behind parts : List String}

/-! ## The way of a path -/

/-- Names lead from a directory to one; every name is that of a directory, or goes up. -/
inductive Leads (fs : FileSystem) : Location → List String → Location → Prop
  | stay {dir : Location} : Leads fs dir [] dir
  | up {dir last : Location} {rest : List String} (h : Leads fs dir.dropLast rest last) :
      Leads fs dir (".." :: rest) last
  | down {dir last : Location} {part : String} {rest : List String} (hdown : part ≠ "..")
      (hfits : part.utf8ByteSize ≤ maxName) (hdir : fs.get? (dir ++ [part]) = some .directory)
      (h : Leads fs (dir ++ [part]) rest last) : Leads fs dir (part :: rest) last

/-- A path comes to a name below a directory, with others behind it. -/
structure ComesTo (fs : FileSystem) (here : Location) (p : Path) (dir : Location) (part : String)
    (behind : List String) : Prop where
  short : p.text.utf8ByteSize ≤ maxPath
  down : part ≠ ".."
  way : ∃ front, p.parts = front ++ part :: behind ∧ fs.Leads (startOf here p) front dir

/-- What opening a path comes to. -/
inductive Opens (fs : FileSystem) (here : Location) (p : Path) :
    Except AccessError (List UInt8) → Prop
  | file {dir : Location} {part : String} {bytes : List UInt8} (h : fs.ComesTo here p dir part [])
      (hfits : part.utf8ByteSize ≤ maxName)
      (hfile : fs.get? (dir ++ [part]) = some (.file bytes)) : Opens fs here p (.ok bytes)
  /-- There is a directory. -/
  | directory {dir : Location} (hshort : p.text.utf8ByteSize ≤ maxPath)
      (h : fs.Leads (startOf here p) p.parts dir) : Opens fs here p (.error .isDirectory)
  /-- A name is that of nothing. -/
  | missing {dir : Location} {part : String} {behind : List String}
      (h : fs.ComesTo here p dir part behind) (hfits : part.utf8ByteSize ≤ maxName)
      (hnone : fs.get? (dir ++ [part]) = none) : Opens fs here p (.error .notFound)
  /-- A file stands in the place of a directory. -/
  | blocked {dir : Location} {part next : String} {behind : List String} {bytes : List UInt8}
      (h : fs.ComesTo here p dir part (next :: behind)) (hfits : part.utf8ByteSize ≤ maxName)
      (hfile : fs.get? (dir ++ [part]) = some (.file bytes)) : Opens fs here p (.error .notDirectory)
  | longName {dir : Location} {part : String} {behind : List String}
      (h : fs.ComesTo here p dir part behind) (hlong : maxName < part.utf8ByteSize) :
      Opens fs here p (.error .nameTooLong)
  | longPath (hlong : maxPath < p.text.utf8ByteSize) : Opens fs here p (.error .nameTooLong)

/-! ## Following names -/

theorem leads_iff : fs.Leads dir parts last ↔ fs.enterAll dir parts = .ok last := by
  constructor
  · intro h
    induction h with
    | stay => rfl
    | up _ ih =>
        rw [enterAll, enter_eq_ok_iff.mpr (.inl ⟨rfl, rfl⟩)]
        exact ih
    | down hdown hfits hdir _ ih =>
        rw [enterAll, enter_eq_ok_iff.mpr (.inr ⟨hdown, hfits, hdir, rfl⟩)]
        exact ih
  · intro h
    induction parts generalizing dir with
    | nil =>
        obtain rfl : dir = last := Except.ok.inj h
        exact .stay
    | cons part rest ih =>
        obtain ⟨next, hpart, h⟩ := enterAll_cons_eq_ok_iff.mp h
        rcases enter_eq_ok_iff.mp hpart with ⟨rfl, rfl⟩ | ⟨hdown, hfits, hdir, rfl⟩
        · exact .up (ih h)
        · exact .down hdown hfits hdir (ih h)

/-- Names that lead nowhere come to one that leads no further. -/
theorem exists_leads_of_enterAll_error {e : AccessError} (h : fs.enterAll dir parts = .error e) :
    ∃ front part behind mid, parts = front ++ part :: behind ∧ fs.Leads dir front mid ∧
      fs.enter mid part = .error e := by
  induction parts generalizing dir with
  | nil => cases h
  | cons part rest ih =>
      rcases enterAll_cons_eq_error_iff.mp h with hpart | ⟨next, hpart, h⟩
      · exact ⟨[], part, rest, dir, rfl, .stay, hpart⟩
      · obtain ⟨front, stop, behind, mid, rfl, hlead, hstop⟩ := ih h
        refine ⟨part :: front, stop, behind, mid, rfl, ?_, hstop⟩
        exact leads_iff.mpr (enterAll_cons_eq_ok_iff.mpr ⟨next, hpart, leads_iff.mp hlead⟩)

/-! ## Reading -/

theorem locate_of_comesTo (hnul : holdsNul p = false) (h : fs.ComesTo here p dir part []) :
    fs.locate here p =
      if maxName < part.utf8ByteSize then .error .nameTooLong else .ok (.at (dir ++ [part])) := by
  obtain ⟨front, hparts, hlead⟩ := h.way
  have hdir : fs.enterAll (startOf here p) front = .ok dir := leads_iff.mp hlead
  unfold startOf at hdir
  simp [locate, hnul, Nat.not_lt.mpr h.short, hparts, hdir, h.down]

/-- What stands at the last name of a path is read. -/
theorem read_of_comesTo (hnul : holdsNul p = false) (h : fs.ComesTo here p dir part [])
    (hfits : part.utf8ByteSize ≤ maxName) : fs.read here p =
      match fs.get? (dir ++ [part]) with
      | none => .error ⟨.notFound, p⟩
      | some .directory => .error ⟨.isDirectory, p⟩
      | some (.file bytes) => .ok bytes := by
  unfold read stat
  rw [locate_of_comesTo hnul h, if_neg (Nat.not_lt.mpr hfits)]
  dsimp only
  cases fs.get? (dir ++ [part]) with
  | none => rfl
  | some e => cases e <;> rfl

/-- A path is not read if one of its names leads no further, but for a last one that is of a file. -/
theorem read_of_stop (hnul : holdsNul p = false) (h : fs.ComesTo here p dir part behind)
    {e : AccessError} (hstop : fs.enter dir part = .error e)
    (hlast : behind = [] → e ≠ .notDirectory) : fs.read here p = .error ⟨e, p⟩ := by
  rcases List.eq_nil_or_concat behind with rfl | ⟨mid, name, rfl⟩
  · obtain ⟨-, ⟨hlong, rfl⟩ | ⟨hfits, hnone, rfl⟩ | ⟨-, -, rfl⟩⟩ := enter_eq_error_iff.mp hstop
    · simp [read, stat, locate_of_comesTo hnul h, hlong]
    · rw [read_of_comesTo hnul h hfits, hnone]
    · exact absurd rfl (hlast rfl)
  · obtain ⟨front, hparts, hlead⟩ := h.way
    have hdirs : fs.enterAll (startOf here p) (front ++ part :: mid) = .error e := by
      rw [enterAll_append_of_ok (leads_iff.mp hlead), enterAll, hstop]
    have hwhole : p.parts = (front ++ part :: mid) ++ [name] := by simp [hparts]
    simp [read, stat, locate_of_error hwhole ⟨hnul, h.short⟩ hdirs]

/-- A path that leads to a directory is not read. -/
theorem read_of_leads (htaken : p.IsTaken) (h : fs.Leads (startOf here p) p.parts last) :
    fs.read here p = .error ⟨.isDirectory, p⟩ := by
  rcases List.eq_nil_or_concat p.parts with hparts | ⟨front, part, hparts⟩
  · simp [read, stat, locate, htaken.1, Nat.not_lt.mpr htaken.2, hparts]
  · rw [List.concat_eq_append] at hparts
    have hwhole := leads_iff.mp h
    rw [hparts] at hwhole
    obtain ⟨mid, hfront, hpart⟩ := enterAll_append_eq_ok_iff.mp hwhole
    rw [enterAll_singleton] at hpart
    rcases enter_eq_ok_iff.mp hpart with ⟨rfl, -⟩ | ⟨hdown, hfits, hdir, -⟩
    · unfold startOf at hfront
      simp [read, stat, locate, htaken.1, Nat.not_lt.mpr htaken.2, hparts, hfront]
    · have hcomes : fs.ComesTo here p mid part [] :=
        ⟨htaken.2, hdown, front, hparts, leads_iff.mpr hfront⟩
      rw [read_of_comesTo htaken.1 hcomes hfits, hdir]

/-! ## What opening a path comes to is what reading it answers -/

theorem Opens.read {answer : Except AccessError (List UInt8)} (h : fs.Opens here p answer)
    (hnul : holdsNul p = false) : fs.read here p = answer.mapError fun e => ⟨e, p⟩ := by
  cases h with
  | file h hfits hfile => rw [read_of_comesTo hnul h hfits, hfile]; rfl
  | directory hshort h => exact read_of_leads ⟨hnul, hshort⟩ h
  | missing h hfits hnone =>
      refine read_of_stop hnul h (enter_eq_error_iff.mpr ⟨h.down, .inr (.inl ⟨hfits, hnone, rfl⟩)⟩) ?_
      exact fun _ => nofun
  | blocked h hfits hfile =>
      have hstop : fs.enter _ _ = .error .notDirectory :=
        enter_eq_error_iff.mpr ⟨h.down, .inr (.inr ⟨hfits, ⟨_, hfile⟩, rfl⟩)⟩
      exact read_of_stop hnul h hstop nofun
  | longName h hlong =>
      refine read_of_stop hnul h (enter_eq_error_iff.mpr ⟨h.down, .inl ⟨hlong, rfl⟩⟩) ?_
      exact fun _ => nofun
  | longPath hlong => simp [FileSystem.read, stat, locate, hnul, hlong, Except.mapError]

/-- Opening a path comes to something. -/
theorem exists_opens (fs : FileSystem) (here : Location) (p : Path) :
    ∃ answer, fs.Opens here p answer := by
  by_cases hshort : p.text.utf8ByteSize ≤ maxPath
  · cases hdirs : fs.enterAll (startOf here p) p.parts with
    | ok dir => exact ⟨_, .directory hshort (leads_iff.mpr hdirs)⟩
    | error e =>
        obtain ⟨front, part, behind, dir, hparts, hlead, hstop⟩ := exists_leads_of_enterAll_error hdirs
        obtain ⟨hdown, hwhy⟩ := enter_eq_error_iff.mp hstop
        have hcomes : fs.ComesTo here p dir part behind := ⟨hshort, hdown, front, hparts, hlead⟩
        rcases hwhy with ⟨hlong, -⟩ | ⟨hfits, hnone, -⟩ | ⟨hfits, ⟨bytes, hfile⟩, -⟩
        · exact ⟨_, .longName hcomes hlong⟩
        · exact ⟨_, .missing hcomes hfits hnone⟩
        · cases behind with
          | nil => exact ⟨_, .file hcomes hfits hfile⟩
          | cons next behind => exact ⟨_, .blocked hcomes hfits hfile⟩
  · exact ⟨_, .longPath (Nat.lt_of_not_le hshort)⟩

/-- **Reading a path answers what opening it comes to.** -/
theorem opens_iff (hnul : holdsNul p = false) {answer : Except AccessError (List UInt8)} :
    fs.Opens here p answer ↔ fs.read here p = answer.mapError fun e => ⟨e, p⟩ := by
  constructor
  · exact fun h => h.read hnul
  · intro h
    obtain ⟨other, hother⟩ := fs.exists_opens here p
    have hsame := (hother.read hnul).symm.trans h
    have heq : other = answer := by
      cases other <;> cases answer <;> simp_all [Except.mapError]
    exact heq ▸ hother

/-! ## Nothing else is looked at -/

/-- The places of the names that a path comes to. -/
def Visits (fs : FileSystem) (here : Location) (p : Path) (loc : Location) : Prop :=
  ∃ dir part behind, fs.ComesTo here p dir part behind ∧ loc = dir ++ [part]

theorem ComesTo.visits (h : fs.ComesTo here p dir part behind) :
    fs.Visits here p (dir ++ [part]) :=
  ⟨dir, part, behind, h, rfl⟩

/-- A path without double dots comes to places above its own, and to that. -/
theorem Visits.isPrefix {loc : Location} (hdots : ".." ∉ p.parts) (h : fs.Visits here p loc) :
    loc <+: startOf here p ++ p.parts := by
  obtain ⟨dir, part, behind, hcomes, rfl⟩ := h
  obtain ⟨front, hparts, hlead⟩ := hcomes.way
  have hfront : ".." ∉ front := fun hmem => hdots (by rw [hparts]; exact List.mem_append_left _ hmem)
  have hdir : dir = startOf here p ++ front :=
    (walk_of_enterAll (leads_iff.mp hlead)).trans (walk_eq_append hfront)
  rw [hdir, hparts]
  exact ⟨behind, by simp⟩

theorem Leads.congr (h : fs.Leads dir parts last)
    (hsame : ∀ before part behind mid, parts = before ++ part :: behind → part ≠ ".." →
      fs.Leads dir before mid → fs'.get? (mid ++ [part]) = fs.get? (mid ++ [part])) :
    fs'.Leads dir parts last := by
  induction h with
  | stay => exact .stay
  | up _ ih =>
      refine .up (ih fun before part behind mid hparts hdown hlead => ?_)
      exact hsame (".." :: before) part behind mid (by rw [hparts]; rfl) hdown (.up hlead)
  | @down dir last name rest hname hfits hdir _ ih =>
      have hhere : fs'.get? (dir ++ [name]) = fs.get? (dir ++ [name]) :=
        hsame [] name rest dir rfl hname .stay
      refine .down hname hfits (hhere.trans hdir) (ih fun before part behind mid hparts hdown hlead => ?_)
      exact hsame (name :: before) part behind mid (by rw [hparts]; rfl) hdown
        (.down hname hfits hdir hlead)

/-- The names of a path lead where they led, if nothing changed that they come to. -/
theorem Leads.congr_of_visits (hshort : p.text.utf8ByteSize ≤ maxPath)
    (hparts : p.parts = front ++ behind) (h : fs.Leads (startOf here p) front dir)
    (hsame : ∀ loc, fs.Visits here p loc → fs'.get? loc = fs.get? loc) :
    fs'.Leads (startOf here p) front dir := by
  refine h.congr fun before part between mid hfront hdown hlead => hsame _ ?_
  have hwhole : p.parts = before ++ part :: (between ++ behind) := by simp [hparts, hfront]
  have hcomes : fs.ComesTo here p mid part (between ++ behind) := ⟨hshort, hdown, before, hwhole, hlead⟩
  exact hcomes.visits

theorem ComesTo.congr (h : fs.ComesTo here p dir part behind)
    (hsame : ∀ loc, fs.Visits here p loc → fs'.get? loc = fs.get? loc) :
    fs'.ComesTo here p dir part behind := by
  obtain ⟨front, hparts, hlead⟩ := h.way
  exact ⟨h.short, h.down, front, hparts, hlead.congr_of_visits h.short hparts hsame⟩

/-- **Whatever else changes, opening a path comes to the same.** -/
theorem Opens.congr {answer : Except AccessError (List UInt8)} (h : fs.Opens here p answer)
    (hsame : ∀ loc, fs.Visits here p loc → fs'.get? loc = fs.get? loc) :
    fs'.Opens here p answer := by
  cases h with
  | file h hfits hfile => exact .file (h.congr hsame) hfits ((hsame _ h.visits).trans hfile)
  | directory hshort h =>
      exact .directory hshort (h.congr_of_visits hshort (List.append_nil _).symm hsame)
  | missing h hfits hnone => exact .missing (h.congr hsame) hfits ((hsame _ h.visits).trans hnone)
  | blocked h hfits hfile => exact .blocked (h.congr hsame) hfits ((hsame _ h.visits).trans hfile)
  | longName h hlong => exact .longName (h.congr hsame) hlong
  | longPath hlong => exact .longPath hlong

/-- So reading it answers the same. -/
theorem read_congr (hnul : holdsNul p = false)
    (hsame : ∀ loc, fs.Visits here p loc → fs'.get? loc = fs.get? loc) :
    fs'.read here p = fs.read here p := by
  obtain ⟨answer, hanswer⟩ := fs.exists_opens here p
  rw [(hanswer.congr hsame).read hnul, hanswer.read hnul]

end TextProviders.FileSystem
