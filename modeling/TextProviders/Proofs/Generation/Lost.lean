import Mathlib.Algebra.GroupWithZero.Nat
import Mathlib.Data.List.Induction
import TextProviders.Proofs.FileSystem.Trees
import TextProviders.Proofs.Generation.Fate

/-!
# Providers that are lost at a name that is too long

A path is looked up part by part, and a directory that is missing ends the look-up before any name
behind it is looked at.  So a path with a name that is too long is just absent for as long as a
directory above that name is missing; and when that directory is made, looking up the path becomes a
failure.

If the path of the output directory is of that kind, the first declaration for which a source is to be
made makes the directory, fails (`run_processDeclaration_of_long`), and from then on no provider is
found any more whose name is not recorded (`lookup_of_made`): the look-up fails at the output directory
and never comes to the roots below which there are sources written by hand.
-/

namespace TextProviders

open Program
open FileSystem (startOf)

/-! ## Paths with a name that is too long -/

section

variable {p : Path} {fs : FileSystem} {here : Location}

theorem Path.isTaken_of_parts (hnul : ∀ part ∈ p.parts, '\x00' ∉ part.toList)
    (hsize : (p.parts.map fun part => part.utf8ByteSize + 1).sum + 2 ≤ FileSystem.maxPath) :
    p.IsTaken := by
  have hparts (parts : List String) (h : ∀ part ∈ parts, '\x00' ∉ part.toList) :
      '\x00' ∉ ("/".intercalate parts).toList ∧ ("/".intercalate parts).utf8ByteSize ≤
        (parts.map fun part => part.utf8ByteSize + 1).sum := by
    induction parts using List.reverseRecOn with
    | nil => simp
    | append_singleton front last ih =>
        obtain ⟨hfront, hshort⟩ := ih fun part hpart => h part (by simp [hpart])
        have hlast := h last (by simp)
        rw [Path.intercalate_concat]
        split
        · next hnil => simp [hnil, hlast]
        · have hslash : "/".utf8ByteSize = 1 := rfl
          constructor
          · simp only [String.toList_append, List.mem_append, not_or]
            exact ⟨⟨hfront, by decide⟩, hlast⟩
          simp only [String.utf8ByteSize_append, hslash, List.map_append, List.map_singleton,
            List.sum_append, List.sum_singleton]
          omega
  obtain ⟨hfree, hshort⟩ := hparts p.parts hnul
  unfold Path.IsTaken FileSystem.holdsNul Path.text
  split
  · decide
  · rw [String.toList_append, String.utf8ByteSize_append]
    have hanchor : '\x00' ∉ p.anchor.text.toList ∧ p.anchor.text.utf8ByteSize ≤ 2 := by
      cases p.anchor <;> decide
    refine ⟨?_, by omega⟩
    rw [List.contains_eq_mem, decide_eq_false_iff_not, List.mem_append, not_or]
    exact ⟨hanchor.1, hfree⟩

variable {first long : String} {rest : List String} (hparts : p.parts = first :: long :: rest)
  (hrest : rest ≠ []) (htaken : p.IsTaken) (hfirst : first ≠ "..")
  (hfits : first.utf8ByteSize ≤ FileSystem.maxName)

include hparts hrest htaken hfirst hfits

/-- A path is absent if its first directory is missing, whatever comes behind it. -/
theorem isFile_of_firstMissing (hnone : fs.get? (startOf here p ++ [first]) = none) :
    fs.isFile here p = .ok false := by
  obtain ⟨front, last, hconcat⟩ := (List.eq_nil_or_concat rest).resolve_left hrest
  have hdir : fs.enterAll (startOf here p) (first :: long :: front) = .error .notFound := by
    simp [FileSystem.enterAll, FileSystem.enter, hfirst, Nat.not_lt.mpr hfits, hnone]
  have hsplit : p.parts = (first :: long :: front) ++ [last] := by simp [hparts, hconcat]
  have hloc := FileSystem.locate_of_error hsplit htaken hdir
  simp [FileSystem.isFile, FileSystem.stat, hloc, FileSystem.AccessError.isAbsence]

/-- Looking up a path fails if its first directory is there and the next name is too long. -/
theorem isFile_of_firstThere (hdots : long ≠ "..") (hlong : FileSystem.maxName < long.utf8ByteSize)
    (hthere : fs.get? (startOf here p ++ [first]) = some .directory) :
    fs.isFile here p = .error ⟨.nameTooLong, p⟩ := by
  obtain ⟨front, last, hconcat⟩ := (List.eq_nil_or_concat rest).resolve_left hrest
  have hdir : fs.enterAll (startOf here p) (first :: long :: front) = .error .nameTooLong := by
    simp [FileSystem.enterAll, FileSystem.enter, hfirst, Nat.not_lt.mpr hfits, hthere, hdots, hlong]
  have hsplit : p.parts = (first :: long :: front) ++ [last] := by simp [hparts, hconcat]
  exact FileSystem.isFile_of_locate_tooLong (FileSystem.locate_of_error hsplit htaken hdir)

end

/-! ## Output directories with a name that is too long -/

/-- The path of the output directory leads through a first directory to a name that does not fit. -/
structure Setting.LeadsTooLong (s : Setting) (first long : String) : Prop where
  parts : ∃ rest, s.layout.output.parts = first :: long :: rest
  dots : first ≠ ".." ∧ long ≠ ".."
  fits : first.utf8ByteSize ≤ FileSystem.maxName
  long : FileSystem.maxName < long.utf8ByteSize

/-- The place of the first directory on the way to the output directory. -/
def Setting.firstPlace (s : Setting) (first : String) : Location :=
  startOf s.here s.layout.output ++ [first]

section

variable {s : Setting} {first long name : String} (hl : s.LeadsTooLong first long)
  (hname : IsDotted name) {w : World}

include hl hname

theorem Setting.LeadsTooLong.pathFor_parts :
    ∃ rest, (s.pathFor name).parts = first :: long :: rest ∧ rest ≠ [] ∧
      startOf s.here (s.pathFor name) ++ [first] = s.firstPlace first := by
  obtain ⟨rest, hrest⟩ := hl.parts
  refine ⟨rest ++ sourceParts name, ?_, by simp [sourceParts], ?_⟩
  · rw [s.pathFor_eq hname, hrest]
    rfl
  · rw [s.pathFor_eq hname]
    rfl

theorem Setting.LeadsTooLong.not_isClear : ¬w.files.IsClear s.here (s.pathFor name) := by
  obtain ⟨rest, hparts, -, -⟩ := hl.pathFor_parts hname
  intro hclear
  have hfits := hclear.fits long (by simp [hparts])
  exact absurd hl.long (Nat.not_lt.mpr hfits)

/-- While the first directory is missing, a look-up comes to the source roots. -/
theorem lookup_of_missing (htaken : (s.pathFor name).IsTaken) (hrecord : name ∉ w.written)
    (hnone : w.files.get? (s.firstPlace first) = none) :
    w.lookup s name = w.sourceUnder s.here name s.layout.sources := by
  obtain ⟨rest, hparts, hrest, hplace⟩ := hl.pathFor_parts hname
  have hfile : w.files.isFile s.here (Layout.sourceFile s.layout.output name) = .ok false :=
    isFile_of_firstMissing hparts hrest htaken hl.dots.1 hl.fits (hplace ▸ hnone)
  unfold World.lookup
  rw [if_neg (mt List.contains_iff_mem.mp hrecord), World.sourceUnder, hfile]

/-- **Once the first directory is there, every look-up fails** that is not answered by the
registry. -/
theorem lookup_of_made (htaken : (s.pathFor name).IsTaken) (hrecord : name ∉ w.written)
    (hthere : w.files.get? (s.firstPlace first) = some .directory) :
    w.lookup s name = .error (.access ⟨.nameTooLong, s.pathFor name⟩) := by
  obtain ⟨rest, hparts, hrest, hplace⟩ := hl.pathFor_parts hname
  have hfile : w.files.isFile s.here (Layout.sourceFile s.layout.output name) =
      .error ⟨.nameTooLong, s.pathFor name⟩ :=
    isFile_of_firstThere hparts hrest htaken hl.dots.1 hl.fits hl.dots.2 hl.long (hplace ▸ hthere)
  unfold World.lookup
  rw [if_neg (mt List.contains_iff_mem.mp hrecord), World.sourceUnder, hfile]

end

/-! ## Declarations -/

section

variable {s : Setting} {w : World} {d : Declaration} {t : Target} {rest : List Target}

/-- A declaration fails at its first target. -/
theorem run_processDeclaration_of_failure (hvalid : d.validate = .ok ())
    {e : GenerationFailure} {w₁ : World} (he : e.endsBatch = false)
    (hrun : (processTargets s.templates d.targets ⟨d.name, [], [], none⟩).run s w =
      (w₁, (⟨d.name, [], [], none⟩, some e))) :
    (processDeclaration s.templates d).run s w =
      (w₁.report (failureDiagnostic d.name e), .ok ⟨d.name, [], [], some e.report⟩) := by
  rw [run_processDeclaration_of_valid hvalid, hrun]
  dsimp only
  rw [run_failWith, he]
  rfl

/-- A declaration whose first provider cannot be looked up fails. -/
theorem run_processDeclaration_of_error (htargets : d.targets = t :: rest)
    (hvalid : d.validate = .ok ()) {e : GenerationFailure} (hlookup : w.lookup s t.name = .error e) :
    ∃ w' o, (processDeclaration s.templates d).run s w = (w', .ok o) ∧ o.ok = false := by
  have he := leavesBatch_lookup s w t.name e hlookup
  have hrun : (processTargets s.templates d.targets ⟨d.name, [], [], none⟩).run s w =
      (w, (⟨d.name, [], [], none⟩, some e)) := by
    rw [htargets]
    exact run_processTargets_of_error hlookup
  exact ⟨_, _, run_processDeclaration_of_failure hvalid he hrun, rfl⟩

/-- A declaration whose first provider is not found and whose source cannot be made, as a name on the
way to it is too long, makes the first directory on that way and fails. -/
theorem run_processDeclaration_of_long {first long : String} (hl : s.LeadsTooLong first long)
    (hs : s.IsSeparate) (htemplates : s.HasTemplates) (hd : d.IsPlain) {strategy : Strategy}
    (htargets : d.targets = ⟨strategy, d⟩ :: rest) (hvalid : d.validate = .ok ())
    {ext text : String} (hext : d.binding.extension? = some ext) {w₁ : World}
    (hresolve : w.resolve s ⟨d.package, d.simpleName, ext⟩ = (w₁, .ok text))
    (hlookup : w.lookup s (Target.mk strategy d).name = .ok false)
    (htaken : (s.pathFor (Target.mk strategy d).name).IsTaken)
    (hnone : w.files.get? (s.firstPlace first) = none) :
    ∃ w' o, (processDeclaration s.templates d).run s w = (w', .ok o) ∧ o.ok = false ∧
      w'.written = w.written ∧ w'.files.get? (s.firstPlace first) = some .directory := by
  have hname : IsDotted (Target.mk strategy d).name := Declaration.IsPlain.target_isDotted hd
  have hfiles : w₁.files = w.files := (World.resolve_eq_ok hresolve).2
  have hwritten : w₁.written = w.written := by
    have := w.written_resolve s ⟨d.package, d.simpleName, ext⟩
    rwa [hresolve] at this
  obtain ⟨source, hsource⟩ := htemplates.render strategy
    ((Target.mk strategy d).bindings (ResourceName.mk d.package d.simpleName ext).fileName text)
  -- the source is not made, but the first directory is
  obtain ⟨e, hcreate⟩ := ((w₁.create_isClear_cases hs hname).resolve_left
    fun h => hl.not_isClear hname h.1).2
  have hthere : (w₁.files.makeDirs s.here (s.pathFor (Target.mk strategy d).name).parent).1.get?
      (s.firstPlace first) = some .directory := by
    obtain ⟨more, hparts, -, hplace⟩ := hl.pathFor_parts hname
    have hparent : (s.pathFor (Target.mk strategy d).name).parent.parts =
        first :: (long :: more).dropLast := by
      rw [Path.parts_parent, hparts]
      rfl
    rw [← hplace, ← FileSystem.startOf_parent]
    refine FileSystem.makeDirs_first hparent hl.dots.1 hl.fits htaken.parent ?_
    rw [FileSystem.startOf_parent, hplace, hfiles]
    exact hnone
  generalize (w₁.files.makeDirs s.here (s.pathFor (Target.mk strategy d).name).parent).1 = files
    at hcreate hthere
  have hfailed : (generateTarget s.templates ⟨strategy, d⟩).run s w =
      ({ w₁ with files := files }, .error e) := by
    have hresolve' : w.perform s (.resolve ⟨d.package, d.simpleName, ext⟩) = (w₁, .ok text) :=
      hresolve
    unfold generateTarget
    simp only [hext]
    rw [run_step hresolve']
    simp only [hsource]
    rw [writeSource, run_step (World.perform_create.trans hcreate)]
    rfl
  have he : e.endsBatch = false := by
    have hleaves := leavesBatch_create s w₁ (Target.mk strategy d).name
    rw [hcreate] at hleaves
    exact hleaves e rfl
  have hrun : (processTargets s.templates d.targets ⟨d.name, [], [], none⟩).run s w =
      ({ w₁ with files := files }, (⟨d.name, [], [], none⟩, some e)) := by
    rw [htargets, run_processTargets_of_false hlookup, hfailed]
  exact ⟨_, _, run_processDeclaration_of_failure hvalid he hrun, rfl, hwritten, hthere⟩

end

/-! ## An output directory whose name does not fit

Two directories down, so that nothing is asked of its name before the first one is made.  Both
providers of one type are written by hand, another type has a resource. -/

namespace TooLong

/-- A name that is one byte too long. -/
@[irreducible] def long : String :=
  String.ofList (List.replicate 256 'x')

theorem nul_not_mem_long : '\x00' ∉ long.toList := by
  intro hmem
  unfold long at hmem
  rw [String.toList_ofList] at hmem
  exact absurd (List.eq_of_mem_replicate hmem) (by decide)

theorem utf8ByteSize_long : long.utf8ByteSize = 256 := by
  have hsize (n : Nat) : (String.ofList (List.replicate n 'x')).utf8ByteSize = n := by
    induction n with
    | zero => rfl
    | succ n ih =>
        have hone : (String.ofList ['x']).utf8ByteSize = 1 := rfl
        rw [List.replicate_succ', String.ofList_append, String.utf8ByteSize_append, ih, hone]
  unfold long
  exact hsize 256

/-- Sources are written below a directory whose name is too long. -/
def layout : Layout :=
  ⟨[⟨.here, ["src"]⟩], [], ⟨.here, ["build", long]⟩⟩

/-- Both providers of one type, and the resource of another. -/
def files : FileSystem :=
  ⟨[(["src"], .directory), (["src", "com"], .directory), (["src", "com", "acme"], .directory),
    (["src", "com", "acme", "HandProvider.java"], .file []),
    (["src", "com", "acme", "HandProviderJ2cl.java"], .file []),
    (["src", "com", "acme", "New.txt"], .file (Text.Utf8.encode ['n', 'e', 'w']))]⟩

/-- The type whose providers are written by hand. -/
def hand : Declaration := { name := "com.acme.Hand" }

/-- The type that has a resource only. -/
def new : Declaration := { name := "com.acme.New" }

/-- A run over that layout in which no call fails. -/
def setting : Setting := { layout, here := [] }

theorem long_ne_dots : long ≠ ".." := by
  intro h
  have := congrArg String.utf8ByteSize h
  rw [utf8ByteSize_long] at this
  cases this

theorem leadsTooLong : setting.LeadsTooLong "build" long where
  parts := ⟨[], rfl⟩
  dots := ⟨by decide, long_ne_dots⟩
  fits := by decide
  long := by
    rw [utf8ByteSize_long]
    decide

theorem isSeparate : setting.IsSeparate := by
  have hdots : ".." ∉ setting.layout.output.parts := by
    simp [setting, layout, Ne.symm long_ne_dots]
  have houtput : setting.outputPlace = ["build", long] := by
    rw [Setting.outputPlace, FileSystem.placeOf_eq hdots]
    rfl
  refine ⟨hdots, by decide, ?_⟩
  rw [houtput]
  simp [setting, layout, Layout.searchRoots, FileSystem.placeOf, FileSystem.walk, FileSystem.Apart]

theorem closed_files : files.Closed :=
  FileSystem.closed_of_entries (by decide)

theorem faultless : setting.Faultless :=
  ⟨fun _ => rfl, by decide⟩

theorem isPlain_hand : hand.IsPlain := by decide

theorem isPlain_new : new.IsPlain := by decide

section

variable {name source : String} (hname : IsDotted name)
  (hparts : sourceParts name = ["com", "acme", source])
  (hsource : '\x00' ∉ source.toList ∧ source.utf8ByteSize ≤ FileSystem.maxName)

include hname hparts hsource

/-- The system takes the path of a source, long as it is. -/
theorem isTaken_pathFor : (setting.pathFor name).IsTaken := by
  have hpath : (setting.pathFor name).parts = ["build", long, "com", "acme", source] := by
    rw [setting.pathFor_eq hname, hparts]
    rfl
  refine Path.isTaken_of_parts ?_ ?_
  · rw [hpath]
    simp [nul_not_mem_long, hsource.1]
  · have hsize := hsource.2
    have hbuild : "build".utf8ByteSize = 5 := rfl
    have hcom : "com".utf8ByteSize = 3 := rfl
    have hacme : "acme".utf8ByteSize = 4 := rfl
    simp only [hpath, List.map_cons, List.map_nil, List.sum_cons, List.sum_nil, utf8ByteSize_long,
      hbuild, hcom, hacme, FileSystem.maxName, FileSystem.maxPath] at hsize ⊢
    omega

/-- In the beginning the source roots decide. -/
theorem lookup_first {w : World} (hfiles : w.files = files) (hfresh : w.written = []) :
    w.lookup setting name = ({ files } : World).sourceUnder [] name setting.layout.sources := by
  have hrecord : name ∉ w.written := by
    rw [hfresh]
    exact List.not_mem_nil
  rw [lookup_of_missing leadsTooLong hname (isTaken_pathFor hname hparts hsource) hrecord
    (hfiles ▸ by decide), World.sourceUnder_eq, hfiles]
  rfl

end

theorem stands_hand : ∀ t ∈ hand.targets, setting.Stands files t.name := by
  intro t ht
  have hname : IsDotted t.name := (isPlain_hand.target ht).target_isDotted
  simp only [Declaration.targets, List.mem_cons, List.not_mem_nil, or_false] at ht
  rcases ht with rfl | rfl
  · have hparts : sourceParts (Target.mk .runtimeLoading hand).name =
        ["com", "acme", "HandProvider.java"] := by decide
    exact (lookup_first hname hparts (by decide) rfl rfl).trans (by decide +kernel)
  · have hparts : sourceParts (Target.mk .embeddedLiteral hand).name =
        ["com", "acme", "HandProviderJ2cl.java"] := by decide
    exact (lookup_first hname hparts (by decide) rfl rfl).trans (by decide +kernel)

/-- The type that has a resource makes the first directory. -/
theorem run_new {w : World} (hfiles : w.files = files) (hfresh : w.written = []) : ∃ w' o,
    (processDeclaration setting.templates new).run setting w = (w', .ok o) ∧ o.ok = false ∧
      w'.written = [] ∧ w'.files.get? (setting.firstPlace "build") = some .directory := by
  have hname : IsDotted (Target.mk .runtimeLoading new).name :=
    Declaration.IsPlain.target_isDotted isPlain_new
  have hparts : sourceParts (Target.mk .runtimeLoading new).name =
      ["com", "acme", "NewProvider.java"] := by decide
  have hlookup : w.lookup setting (Target.mk .runtimeLoading new).name = .ok false :=
    (lookup_first hname hparts (by decide) hfiles hfresh).trans (by decide +kernel)
  have hresolve : (w.resolve setting ⟨new.package, new.simpleName, "txt"⟩).2 = .ok "new" := by
    have hfound : (Resolver.resolve files [] layout ⟨new.package, new.simpleName, "txt"⟩).2 =
        .ok "new" := by decide +kernel
    unfold World.resolve
    rw [faultless.faultAt?, hfiles]
    exact hfound
  rw [← hfresh]
  exact run_processDeclaration_of_long leadsTooLong isSeparate faultless.templates isPlain_new rfl
    (by decide) (by decide) (Prod.ext rfl hresolve) hlookup
    (isTaken_pathFor hname hparts (by decide)) (hfiles ▸ by decide)

/-- Then the providers that are written by hand are not found any more. -/
theorem run_hand {w : World} (hfresh : w.written = [])
    (hthere : w.files.get? (setting.firstPlace "build") = some .directory) :
    ∃ w' o, (processDeclaration setting.templates hand).run setting w = (w', .ok o) ∧
      o.ok = false := by
  have hname : IsDotted (Target.mk .runtimeLoading hand).name :=
    Declaration.IsPlain.target_isDotted isPlain_hand
  have hparts : sourceParts (Target.mk .runtimeLoading hand).name =
      ["com", "acme", "HandProvider.java"] := by decide
  refine run_processDeclaration_of_error rfl (by decide) (lookup_of_made leadsTooLong hname
    (isTaken_pathFor hname hparts (by decide)) ?_ hthere)
  rw [hfresh]
  exact List.not_mem_nil

end TooLong

end TextProviders
