import TextProviders.Proofs.Generation.Faults
import TextProviders.Proofs.Generation.Growth

/-!
# What becomes of a provider

If no call fails, a file system alone decides what becomes of a provider (`Target.fate`): it is skipped
if it stands; if it does not, its resource has a text and its source can be made, it is written; and in
all other cases its declaration fails at it.  The targets of a declaration before the first one that
fails are passed (`Declaration.passed`), and the lists of the declaration's outcome are read off them
(`Outcome.IsOf`).

A fate does not change when the output directory grows, as long as the source of the provider itself is
left alone (`Grown.fate_eq`).  So it does not matter in which of many states of the file system it is
read off.
-/

namespace TextProviders

open FileSystem (startOf placeOf)

/-! ## Making a source -/

section

variable {s : Setting} {w : World} {name : String}

theorem Setting.startOf_append_pathFor (hs : s.IsSeparate) (hname : IsDotted name) :
    startOf s.here (s.pathFor name) ++ (s.pathFor name).parts = s.placeFor name :=
  (FileSystem.placeOf_eq (s.pathFor_dots hs hname)).symm

theorem Setting.pathFor_parts_ne_nil (s : Setting) (hname : IsDotted name) :
    (s.pathFor name).parts ≠ [] := by
  simp [s.pathFor_eq hname, sourceParts]

/-- The source of a type is made if and only if its path is clear.  If it is not, at most directories
are made. -/
theorem World.create_isClear_cases (hs : s.IsSeparate) (hname : IsDotted name) :
    (w.files.IsClear s.here (s.pathFor name) ∧ ∃ files,
        w.files.makeDirs s.here (s.pathFor name).parent = (files, .ok ()) ∧
        files.locate s.here (s.pathFor name) = .ok (.at (s.placeFor name)) ∧
        files.get? (s.placeFor name) = none ∧
        w.create s name =
          ({ w with files := files.put (s.placeFor name) (.file []) }, .ok (s.placeFor name))) ∨
      (¬w.files.IsClear s.here (s.pathFor name) ∧ ∃ e, w.create s name =
        ({ w with files := (w.files.makeDirs s.here (s.pathFor name).parent).1 }, .error e)) := by
  have hdots := s.pathFor_dots hs hname
  rcases w.create_cases s name with ⟨e, hfailed⟩ | ⟨files, place, hmade, hloc, hnone, hcreated⟩
  · right
    refine ⟨fun hclear => ?_, e, hfailed⟩
    obtain ⟨files, hmade, hloc, hnone⟩ := hclear.made (s.pathFor_parts_ne_nil hname) hdots
    simp only [Setting.pathFor] at hmade hloc hnone
    simp [World.create, FileSystem.createNew, hmade, hloc, hnone] at hfailed
  · left
    have hplace : place = s.placeFor name := FileSystem.eq_placeOf_of_locate hloc
    rw [hplace] at hloc hnone hcreated
    exact ⟨FileSystem.isClear_of_made hdots hmade hloc hnone, files, hmade, hloc, hnone, hcreated⟩

theorem World.create_eq_ok_iff (hs : s.IsSeparate) (hname : IsDotted name) :
    (∃ place, (w.create s name).2 = .ok place) ↔ w.files.IsClear s.here (s.pathFor name) := by
  rcases w.create_isClear_cases hs hname with
    ⟨hclear, files, -, -, -, hcreated⟩ | ⟨hclear, e, hfailed⟩
  · simp [hclear, hcreated]
  · simp [hclear, hfailed]

end

/-! ## Fates of targets -/

/-- What becomes of a provider. -/
inductive Fate where
  /-- It exists already. -/
  | skipped
  /-- It is written, with a certain source. -/
  | written (source : String)
  /-- The declaration fails at it. -/
  | failed
deriving DecidableEq, Repr

/-- Whether a provider is written. -/
def Fate.isWritten : Fate → Bool
  | written _ => true
  | skipped | failed => false

theorem Fate.isWritten_iff {fate : Fate} :
    fate.isWritten = true ↔ ∃ source, fate = .written source := by
  cases fate <;> simp [isWritten]

namespace Target

/-- The source of a provider: its template, filled in with the text of its resource. -/
def source? (t : Target) (s : Setting) (fs : FileSystem) : Option String :=
  t.declaration.binding.extension?.bind fun ext =>
    let resource : ResourceName := ⟨t.declaration.package, t.declaration.simpleName, ext⟩
    (Resolver.resolve fs s.here s.layout resource).2.toOption.bind fun text =>
      (s.templates.render t.strategy.templateId (t.bindings resource.fileName text)).toOption

/-- What becomes of a provider in a file system if nothing was written before. -/
def fate (t : Target) (s : Setting) (fs : FileSystem) : Fate :=
  match ({ files := fs } : World).lookup s t.name with
  | .error _ => .failed
  | .ok true => .skipped
  | .ok false =>
    match t.source? s fs, (({ files := fs } : World).create s t.name).2 with
    | some source, .ok _ => .written source
    | _, _ => .failed

section

variable {t : Target} {s : Setting} {fs : FileSystem} {source : String}

theorem fate_eq_skipped_iff : t.fate s fs = .skipped ↔ s.Stands fs t.name := by
  unfold fate Setting.Stands
  split
  · next hlookup => simp [hlookup]
  · next hlookup => simp [hlookup]
  · next hlookup =>
    split <;> simp [hlookup]

theorem fate_eq_written_iff (hs : s.IsSeparate) (ht : IsDotted t.name) :
    t.fate s fs = .written source ↔
      ({ files := fs } : World).lookup s t.name = .ok false ∧ t.source? s fs = some source ∧
        fs.IsClear s.here (s.pathFor t.name) := by
  have hclear := World.create_eq_ok_iff (w := { files := fs }) hs ht
  unfold fate
  split
  · next hlookup => simp [hlookup]
  · next hlookup => simp [hlookup]
  · next hlookup =>
    rw [← hclear]
    split
    · next found place hsource hcreated => simp [hlookup, hsource, hcreated]
    · next hnot =>
      simp only [hlookup, reduceCtorEq, true_and, false_iff, not_and, not_exists]
      exact fun hsource place hcreated => hnot source place hsource hcreated

theorem fate_eq_failed_iff (hs : s.IsSeparate) (ht : IsDotted t.name) :
    t.fate s fs = .failed ↔ ¬s.Stands fs t.name ∧ ∀ source,
      ¬(({ files := fs } : World).lookup s t.name = .ok false ∧ t.source? s fs = some source ∧
        fs.IsClear s.here (s.pathFor t.name)) := by
  simp only [← fate_eq_skipped_iff, ← fate_eq_written_iff hs ht]
  cases t.fate s fs <;> simp

end

end Target

/-! ## The output directory grows -/

section

variable {s : Setting} {old new : FileSystem} {t : Target} (hg : Grown s old new)
  (hs : s.IsSeparate) (hc : old.Closed) (hfit : s.NamesFit)

include hg hs hc hfit

theorem Grown.source?_eq (hd : t.declaration.IsPlain) : t.source? s new = t.source? s old := by
  unfold Target.source?
  cases hext : t.declaration.binding.extension? with
  | none => rfl
  | some ext =>
      simp only [Option.bind_some]
      rw [hg.resolve_eq hs hc hfit hd hext]

variable {name : String} (hname : IsDotted name)
  (hplace : new.get? (s.placeFor name) = old.get? (s.placeFor name))

include hname hplace in
/-- What is not found now was not found before. -/
theorem Grown.lookup_false (h : ({ files := new } : World).lookup s name = .ok false) :
    ({ files := old } : World).lookup s name = .ok false := by
  rcases hg.lookup_cases hs hc hfit hname hplace with hsame | ⟨⟨e, he⟩, -⟩
  · exact hsame.symm.trans h
  · cases he.symm.trans h

/-- **Only its own source changes the fate of a provider.** -/
theorem Grown.fate_eq (hd : t.declaration.IsPlain)
    (hplace : new.get? (s.placeFor t.name) = old.get? (s.placeFor t.name)) :
    t.fate s new = t.fate s old := by
  have ht : IsDotted t.name := hd.target_isDotted
  have hstands := hg.stands_iff hs hc hfit ht hplace
  have hclear := hg.isClear_iff hs ht hplace
  have hsource := hg.source?_eq hs hc hfit hd
  have hlookup : new.IsClear s.here (s.pathFor t.name) →
      (({ files := new } : World).lookup s t.name = .ok false ↔
        ({ files := old } : World).lookup s t.name = .ok false) := by
    intro hfree
    rcases hg.lookup_cases hs hc hfit ht hplace with hsame | ⟨-, hlong⟩
    · rw [hsame]
    · exact absurd hfree.fits hlong
  have hwritten (source : String) :
      t.fate s new = .written source ↔ t.fate s old = .written source := by
    rw [Target.fate_eq_written_iff hs ht, Target.fate_eq_written_iff hs ht, hsource, ← hclear]
    constructor
    · rintro ⟨hfresh, hrendered, hfree⟩
      exact ⟨(hlookup hfree).mp hfresh, hrendered, hfree⟩
    · rintro ⟨hfresh, hrendered, hfree⟩
      exact ⟨(hlookup hfree).mpr hfresh, hrendered, hfree⟩
  cases hold : t.fate s old with
  | skipped => rwa [Target.fate_eq_skipped_iff, hstands, ← Target.fate_eq_skipped_iff]
  | written source => exact (hwritten source).mpr hold
  | failed =>
      cases hnew : t.fate s new with
      | skipped =>
          rw [Target.fate_eq_skipped_iff, hstands, ← Target.fate_eq_skipped_iff, hold] at hnew
          cases hnew
      | written source =>
          rw [hwritten, hold] at hnew
          cases hnew
      | failed => rfl

end

/-! ## Declarations -/

namespace Declaration

/-- The targets that a declaration comes past: those before the first at which it fails. -/
def passed (d : Declaration) (s : Setting) (fs : FileSystem) : List Target :=
  match d.validate with
  | .ok () => d.targets.takeWhile fun t => t.fate s fs ≠ .failed
  | .error _ => []

theorem mem_targets_of_passed {d : Declaration} {s : Setting} {fs : FileSystem} {t : Target}
    (ht : t ∈ d.passed s fs) : t ∈ d.targets := by
  unfold passed at ht
  split at ht
  · exact (List.takeWhile_prefix _).subset ht
  · exact (List.not_mem_nil ht).elim

theorem nodup_targets (d : Declaration) : (d.targets.map Target.name).Nodup := by
  simp [targets, Target.name_eq_name_iff]

/-- A declaration asks for a provider of that name. -/
def Asks (d : Declaration) (name : String) : Prop :=
  ∃ t ∈ d.targets, t.name = name

theorem asks_of_mem {d : Declaration} {t : Target} (ht : t ∈ d.targets) : d.Asks t.name :=
  ⟨t, ht, rfl⟩

/-- Declarations of different types ask for different providers. -/
theorem Asks.name_eq {d d' : Declaration} {name : String} (h : d.Asks name) (h' : d'.Asks name) :
    d.name = d'.name := by
  obtain ⟨t, ht, htname⟩ := h
  obtain ⟨t', ht', htname'⟩ := h'
  rw [← mem_targets ht, ← mem_targets ht']
  exact (Target.name_eq_name_iff.mp (htname.trans htname'.symm)).2

end Declaration

/-- The outcome that a declaration has if it comes past certain targets and fails at the next one. -/
structure Outcome.IsOf (o : Outcome) (s : Setting) (fs : FileSystem) (d : Declaration)
    (done : List Target) : Prop where
  name : o.name = d.name
  written : o.written = (done.filter fun t => (t.fate s fs).isWritten).map Target.name
  skipped : o.skipped = (done.filter fun t => t.fate s fs = .skipped).map Target.name
  ok : o.ok = decide (done = d.targets)

end TextProviders
