import TextProviders.Generation.Run
import TextProviders.Proofs.Generation.Steps

/-!
# Writing one source, exactly

A source is written by making its file, writing the text, handing it over and closing the file.
Each of the last three can fail, and of two failures the later one counts (`writingFault?`).  After
an error of the system the file is removed again; after a failure of any other kind it is not.

`WholeOrNone` says what a caller would like to rely on: a call that fails leaves no file and records
nothing, and one that does not leaves the whole text.  The main statement, `wholeOrNone_iff`, says
exactly when that holds: no file may stand where the path of the type leads once the directories
above it are made, and if the file is made, no failure but an error of the system may count.

`partial_source_stays` is a run on which it does not hold.  What was written before the failure stays
behind, and is taken for a provider from then on.
-/

namespace TextProviders

open Program

/-! ## The failure that counts -/

/-- The fault of the n-th call, if it fails at the given point. -/
def Setting.faultOn? (s : Setting) (turn : Nat) (point : FaultPoint) : Option Fault :=
  (s.faults turn).filter fun f => f.point = point

/-- The failure of writing a source whose first call is the n-th: that of closing the file, or else
that of writing or handing over. -/
def Setting.writingFault? (s : Setting) (turn : Nat) : Option Fault :=
  match s.faultOn? turn .write with
  | some f => some ((s.faultOn? (turn + 1) .close).getD f)
  | none =>
    match s.faultOn? (turn + 1) .flush with
    | some f => some ((s.faultOn? (turn + 2) .close).getD f)
    | none => s.faultOn? (turn + 2) .close

/-- What is written of a text. -/
def Setting.writtenPart (s : Setting) (turn : Nat) (text : String) : List Char :=
  match s.faultOn? turn .write with
  | some f => text.toList.take f.after
  | none => text.toList

/-- What a call answers that fails with a fault, if there is one. -/
def Fault.answer : Option Fault → Except GenerationFailure Unit
  | some f => .error f.failure
  | none => .ok ()

theorem writtenPart_of_no_fault {s : Setting} {turn : Nat} (h : s.writingFault? turn = none)
    (text : String) : s.writtenPart turn text = text.toList := by
  unfold Setting.writingFault? at h
  unfold Setting.writtenPart
  cases hwrite : s.faultOn? turn .write with
  | none => rfl
  | some f =>
      rw [hwrite] at h
      cases h

/-! ## Writing and closing -/

section

variable {s : Setting} {w : World}

theorem World.attempt_eq (point : FaultPoint) :
    w.attempt s point = (w.tick, Fault.answer (s.faultOn? w.turn point)) := by
  show (match s.faultOn? w.turn point with | some f => _ | none => _) = _
  cases s.faultOn? w.turn point with
  | none => rfl
  | some f => rfl

theorem World.perform_close :
    w.perform s .close = (w.tick, Fault.answer (s.faultOn? w.turn .close)) :=
  World.attempt_eq .close

theorem World.perform_flush :
    w.perform s .flush = (w.tick, Fault.answer (s.faultOn? w.turn .flush)) :=
  World.attempt_eq .flush

theorem World.perform_write (place : Location) (text : String) :
    w.perform s (.write place text) =
      (w.tick.append place (s.writtenPart w.turn text),
        Fault.answer (s.faultOn? w.turn .write)) := by
  show (match s.faultOn? w.turn .write with | some f => _ | none => _) = _
  unfold Setting.writtenPart
  cases s.faultOn? w.turn .write with
  | none => rfl
  | some f => rfl

theorem run_closeAfter (f : Fault) :
    (closeAfter f.failure).run s w =
      (w.tick, Fault.answer (some ((s.faultOn? w.turn .close).getD f))) := by
  rw [closeAfter, run_step World.perform_close]
  cases s.faultOn? w.turn .close with
  | none => rfl
  | some later => rfl

theorem run_writeText (place : Location) (text : String) :
    ∃ closed, (writeText place text).run s w =
        (closed, Fault.answer (s.writingFault? w.turn)) ∧
      closed.files = w.files.append place (Text.Utf8.encode (s.writtenPart w.turn text)) ∧
      closed.written = w.written := by
  rw [writeText, run_step (World.perform_write place text)]
  unfold Setting.writingFault?
  cases s.faultOn? w.turn .write with
  | some f => exact ⟨_, run_closeAfter f, rfl, rfl⟩
  | none =>
      show ∃ closed, Program.run s _ (ofAction .flush >>= _) = (closed, _) ∧ _
      have hturn : (w.tick.append place (s.writtenPart w.turn text)).turn = w.turn + 1 := rfl
      rw [run_step World.perform_flush, hturn]
      dsimp only
      cases s.faultOn? (w.turn + 1) .flush with
      | some f => exact ⟨_, run_closeAfter f, rfl, rfl⟩
      | none => exact ⟨_, World.perform_close, rfl, rfl⟩

end

/-! ## The whole call -/

/-- What stands in the end where the file of a source was made. -/
def Setting.leftover (s : Setting) (turn : Nat) (source : String) : Option Entry :=
  match s.writingFault? turn with
  | none => some (.file (Text.Utf8.encode source.toList))
  | some f =>
    if f.failure.kind.isSystem then none
    else some (.file (Text.Utf8.encode (s.writtenPart turn source)))

/-- A call that made the file at a place among `files` ends with the leftover there and everything
else as in `files`; the type is recorded if nothing failed. -/
structure Ended (s : Setting) (w : World) (name source : String) (files : FileSystem)
    (place : Location) (w' : World) (answer : Except GenerationFailure Unit) : Prop where
  here : w'.files.get? place = s.leftover w.turn source
  elsewhere : ∀ other, other ≠ place → w'.files.get? other = files.get? other
  whole : s.writingFault? w.turn = none →
    answer = .ok () ∧ w'.written = (w.record name).written
  failed : ∀ f, s.writingFault? w.turn = some f →
    (∃ e, answer = .error e) ∧ w'.written = w.written

section

variable {s : Setting} {w : World} {name : String}

theorem World.perform_create : w.perform s (.create name) = w.create s name := rfl

theorem discard_made {files : FileSystem} {place : Location} {bytes : List UInt8}
    (hloc : files.locate s.here (s.pathFor name) = .ok (.at place))
    (hkeep : files.KeepsDirectories w.files) (hfile : w.files.get? place = some (.file bytes)) :
    w.perform s (.discard name) = ({ w with files := w.files.erase place }, .ok ()) := by
  have hnow := FileSystem.locate_of_keepsDirectories hkeep hloc
  have hunlink := FileSystem.unlink_of_locate hnow hfile
  show w.discard s name = _
  unfold World.discard
  rw [show w.files.unlink s.here (Layout.sourceFile s.layout.output name) = _ from hunlink]

theorem written_record (w w' : World) (h : w'.written = w.written) (name : String) :
    (w'.record name).written = (w.record name).written := by
  unfold World.record
  rw [h]
  split
  · exact h
  · rfl

/-- A file was made at a place among `files`, written as far as it went, and closed. -/
structure Wrote (s : Setting) (w : World) (source : String) (files : FileSystem) (place : Location)
    (closed : World) : Prop where
  here : closed.files.get? place = some (.file (Text.Utf8.encode (s.writtenPart w.turn source)))
  elsewhere : ∀ other, other ≠ place → closed.files.get? other = files.get? other
  written : closed.written = w.written

theorem wrote_writeText (files : FileSystem) {place : Location} (hroot : place ≠ [])
    (source : String) :
    ∃ closed, (writeText place source).run s { w with files := files.put place (.file []) } =
        (closed, Fault.answer (s.writingFault? w.turn)) ∧ Wrote s w source files place closed := by
  obtain ⟨closed, hrun, hfiles, hwritten⟩ := run_writeText (s := s)
    (w := { w with files := files.put place (.file []) }) place source
  refine ⟨closed, hrun, ?_, ?_, hwritten⟩
  · rw [hfiles]
    exact FileSystem.get?_append_put files hroot _
  · intro other hne
    rw [hfiles]
    exact FileSystem.get?_append_put_of_ne files hroot hne _

section

variable {files : FileSystem} {place : Location} {source : String} {closed : World}
  (h : Wrote s w source files place closed)

include h

/-- Nothing failed, so the type is recorded. -/
theorem Wrote.ended_of_whole (hfault : s.writingFault? w.turn = none) :
    Ended s w name source files place ((closed.record name).note [wroteNote name]) (.ok ()) := by
  refine ⟨?_, ?_, ?_, ?_⟩
  · rw [Setting.leftover, hfault, ← writtenPart_of_no_fault hfault, World.files_note,
      World.files_record]
    exact h.here
  · intro other hne
    rw [World.files_note, World.files_record]
    exact h.elsewhere other hne
  · intro _
    exact ⟨rfl, written_record w closed h.written name⟩
  · intro f hf
    cases hfault.symm.trans hf

variable {f : Fault} (hfault : s.writingFault? w.turn = some f)

include hfault

/-- The system failed, so the file is removed again. -/
theorem Wrote.ended_of_removed (hroot : place ≠ []) (hsystem : f.failure.kind.isSystem = true)
    (e : GenerationFailure) :
    Ended s w name source files place { closed with files := closed.files.erase place }
      (.error e) := by
  refine ⟨?_, ?_, ?_, ?_⟩
  · rw [Setting.leftover, hfault]
    exact (FileSystem.get?_erase_self _ hroot).trans (if_pos hsystem).symm
  · intro other hne
    show (closed.files.erase place).get? other = _
    rw [FileSystem.get?_erase_of_ne _ hne]
    exact h.elsewhere other hne
  · intro hnone
    cases hfault.symm.trans hnone
  · intro _ _
    exact ⟨⟨e, rfl⟩, h.written⟩

/-- Something else failed, and the file stays. -/
theorem Wrote.ended_of_kept (hsystem : f.failure.kind.isSystem ≠ true) (e : GenerationFailure) :
    Ended s w name source files place closed (.error e) := by
  refine ⟨?_, h.elsewhere, ?_, ?_⟩
  · rw [Setting.leftover, hfault]
    exact h.here.trans (if_neg hsystem).symm
  · intro hnone
    cases hfault.symm.trans hnone
  · intro _ _
    exact ⟨⟨e, rfl⟩, h.written⟩

end

theorem ended_writeSource {files : FileSystem} {place : Location} (source : String)
    (hloc : files.locate s.here (s.pathFor name) = .ok (.at place))
    (hnone : files.get? place = none)
    (hmade : w.perform s (.create name) =
      ({ w with files := files.put place (.file []) }, .ok place)) :
    ∃ w' answer, (writeSource name source).run s w = (w', answer) ∧
      Ended s w name source files place w' answer := by
  have hroot := FileSystem.ne_nil_of_locate hloc
  rw [writeSource, run_step hmade]
  show ∃ w' answer, Program.run s _ (writeText place source >>= _) = (w', answer) ∧ _
  obtain ⟨closed, hrun, hwrote⟩ := wrote_writeText (s := s) (w := w) files hroot source
  rw [run_bind, hrun]
  dsimp only
  cases hfault : s.writingFault? w.turn with
  | none => exact ⟨_, _, rfl, hwrote.ended_of_whole hfault⟩
  | some f =>
      show ∃ w' answer, Program.run s closed (if f.failure.kind.isSystem then _ else _) =
        (w', answer) ∧ _
      by_cases hsystem : f.failure.kind.isSystem = true
      · -- The path still leads to the file, so discarding the type removes it.
        have hkeep : files.KeepsDirectories closed.files := by
          intro loc hdir
          have hne : loc ≠ place := fun heq => by rw [heq, hnone] at hdir; cases hdir
          rw [hwrote.elsewhere loc hne]
          exact hdir
        rw [if_pos hsystem, run_step (discard_made hloc hkeep hwrote.here)]
        exact ⟨_, _, rfl, hwrote.ended_of_removed hfault hroot hsystem _⟩
      · rw [if_neg hsystem]
        exact ⟨_, _, rfl, hwrote.ended_of_kept hfault hsystem _⟩

end

/-- The path of the type still leads to the place where the file was made. -/
theorem Ended.locate {s : Setting} {w w' : World} {name source : String} {files : FileSystem}
    {place : Location} {answer : Except GenerationFailure Unit}
    (h : Ended s w name source files place w' answer)
    (hloc : files.locate s.here (s.pathFor name) = .ok (.at place))
    (hnone : files.get? place = none) :
    w'.files.locate s.here (s.pathFor name) = .ok (.at place) := by
  refine FileSystem.locate_of_keepsDirectories (fun loc hdir => ?_) hloc
  have hne : loc ≠ place := fun heq => by rw [heq, hnone] at hdir; cases hdir
  rw [h.elsewhere loc hne]
  exact hdir

/-! ## All or nothing -/

/-- What a caller would like to rely on after a call that ended in a world with an answer.  If it
succeeded, the file of the type holds the whole source and the type is recorded; if it failed, the
type has no file and nothing is recorded.  Every other file is as before in either case. -/
def LeavesWholeOrNone (s : Setting) (w : World) (name source : String) (w' : World)
    (answer : Except GenerationFailure Unit) : Prop :=
  w.files.SameFilesBut (s.placeFor name) w'.files ∧
    match answer with
    | .ok () =>
        w'.files.fileAt? s.here (s.pathFor name) = some (Text.Utf8.encode source.toList) ∧
          w'.written = (w.record name).written
    | .error _ =>
        w'.files.fileAt? s.here (s.pathFor name) = none ∧ w'.written = w.written

/-- A call of writing a source is all or nothing. -/
def WholeOrNone (s : Setting) (w : World) (name source : String) : Prop :=
  ∀ w' answer, (writeSource name source).run s w = (w', answer) →
    LeavesWholeOrNone s w name source w' answer

theorem wholeOrNone_iff_of_run {s : Setting} {w w' : World} {name source : String}
    {answer : Except GenerationFailure Unit}
    (hrun : (writeSource name source).run s w = (w', answer)) :
    WholeOrNone s w name source ↔ LeavesWholeOrNone s w name source w' answer := by
  constructor
  · intro h
    exact h w' answer hrun
  · intro h w'' answer' hrun'
    obtain ⟨rfl, rfl⟩ := Prod.mk.inj (hrun.symm.trans hrun')
    exact h

theorem LeavesWholeOrNone.file {s : Setting} {w w' : World} {name source : String}
    {answer : Except GenerationFailure Unit} (h : LeavesWholeOrNone s w name source w' answer) :
    w'.files.fileAt? s.here (s.pathFor name) = some (Text.Utf8.encode source.toList) ∨
      w'.files.fileAt? s.here (s.pathFor name) = none := by
  have hend := h.2
  cases answer with
  | error e => exact .inr hend.1
  | ok _ => exact .inl hend.1

theorem WholeOrNone.file {s : Setting} {w : World} {name source : String}
    (h : WholeOrNone s w name source) :
    ((writeSource name source).run s w).1.files.fileAt? s.here (s.pathFor name) =
        some (Text.Utf8.encode source.toList) ∨
      ((writeSource name source).run s w).1.files.fileAt? s.here (s.pathFor name) = none :=
  (h _ _ (Prod.eta _).symm).file

/-- No file stands where the path of a type leads, once the directories above it are made.  Only
through a double dot behind a directory that is missing can a path lead to a file then and to none
before. -/
def Setting.IsFree (s : Setting) (w : World) (name : String) : Prop :=
  (w.files.makeDirs s.here (s.pathFor name).parent).1.fileAt? s.here (s.pathFor name) = none

/-- If the file of a type is made, no failure of writing it counts but an error of the system. -/
def Setting.FailsBySystem (s : Setting) (w : World) (name : String) : Prop :=
  ∀ w' place, w.create s name = (w', .ok place) →
    ∀ f, s.writingFault? w.turn = some f → f.failure.kind.isSystem = true

section

variable {s : Setting} {w : World} {name : String}

theorem FileSystem.AddsDirectories.sameFilesBut {old new : FileSystem}
    (h : old.AddsDirectories new) (loc : Location) : old.SameFilesBut loc new :=
  fun other _ bytes => h.file_iff other bytes

theorem FileSystem.fileAt?_of_locate {fs : FileSystem} {here : Location} {p : Path}
    {loc : Location} (hloc : fs.locate here p = .ok (.at loc)) {bytes : List UInt8} :
    fs.fileAt? here p = some bytes ↔ fs.get? loc = some (.file bytes) := by
  rw [fileAt?_eq_some_iff]
  constructor
  · rintro ⟨loc', hloc', hfile⟩
    cases hloc.symm.trans hloc'
    exact hfile
  · intro hfile
    exact ⟨loc, hloc, hfile⟩

theorem FileSystem.fileAt?_eq_none_of_locate {fs : FileSystem} {here : Location} {p : Path}
    {loc : Location} (hloc : fs.locate here p = .ok (.at loc)) (hnone : fs.get? loc = none) :
    fs.fileAt? here p = none := by
  cases hfile : fs.fileAt? here p with
  | none => rfl
  | some bytes =>
      rw [fileAt?_of_locate hloc, hnone] at hfile
      cases hfile

/-- In a tree, a path without double dots is free as soon as it leads to no file. -/
theorem isFree_of_absent (hc : w.files.Closed) (hdots : ".." ∉ (s.pathFor name).parts)
    (habsent : w.files.fileAt? s.here (s.pathFor name) = none) : s.IsFree w name := by
  have hadds := w.files.addsDirectories_makeDirs s.here (s.pathFor name).parent
  unfold Setting.IsFree
  generalize (w.files.makeDirs s.here (s.pathFor name).parent).1 = files at hadds ⊢
  cases hfile : files.fileAt? s.here (s.pathFor name) with
  | none => rfl
  | some bytes =>
      obtain ⟨loc, hloc, hnew⟩ := FileSystem.fileAt?_eq_some_iff.mp hfile
      have hold := (hadds.file_iff loc bytes).mp hnew
      have := (FileSystem.fileAt?_of_locate (hc.locate hdots hloc hold)).mpr hold
      rw [habsent] at this
      cases this

/-- A call that could not make the file leaves at most directories behind. -/
theorem wholeOrNone_iff_of_create_error {files : FileSystem} {e : GenerationFailure}
    (source : String) (hadds : w.files.AddsDirectories files)
    (h : w.perform s (.create name) = ({ w with files }, .error e)) :
    WholeOrNone s w name source ↔ files.fileAt? s.here (s.pathFor name) = none := by
  have hrun : (writeSource name source).run s w = ({ w with files }, .error e) := by
    rw [writeSource, run_step h]
    rfl
  rw [wholeOrNone_iff_of_run hrun]
  constructor
  · intro ⟨_, hnone, _⟩
    exact hnone
  · intro hfree
    exact ⟨hadds.sameFilesBut _, hfree, rfl⟩

/-- A call that made the file ends with nothing but the whole source there exactly if no failure
counts, or one after which the file is removed. -/
theorem wholeOrNone_iff_of_create {files : FileSystem} {place : Location} (source : String)
    (hdirs : w.files.AddsDirectories files)
    (hloc : files.locate s.here (s.pathFor name) = .ok (.at place))
    (hnone : files.get? place = none)
    (hmade : w.perform s (.create name) =
      ({ w with files := files.put place (.file []) }, .ok place)) :
    WholeOrNone s w name source ↔
      ∀ f, s.writingFault? w.turn = some f → f.failure.kind.isSystem = true := by
  obtain ⟨w', answer, hrun, hended⟩ := ended_writeSource source hloc hnone hmade
  have hplace : s.placeFor name = place := (FileSystem.eq_placeOf_of_locate hloc).symm
  have hothers : w.files.SameFilesBut (s.placeFor name) w'.files := by
    intro other hne bytes
    rw [hended.elsewhere other (hplace ▸ hne)]
    exact hdirs.file_iff other bytes
  have hnow := hended.locate hloc hnone
  have hhere := hended.here
  rw [wholeOrNone_iff_of_run hrun]
  unfold Setting.leftover at hhere
  cases hfault : s.writingFault? w.turn with
  | none =>
      obtain ⟨rfl, hrecorded⟩ := hended.whole hfault
      rw [hfault] at hhere
      constructor
      · intro _ f h
        cases h
      · intro _
        exact ⟨hothers, (FileSystem.fileAt?_of_locate hnow).mpr hhere, hrecorded⟩
  | some f =>
      obtain ⟨⟨e, rfl⟩, hrecorded⟩ := hended.failed f hfault
      rw [hfault] at hhere
      constructor
      · intro ⟨_, hgone, _⟩ g hg
        cases hg
        cases hsystem : f.failure.kind.isSystem with
        | true => rfl
        | false =>
            simp only [hsystem, Bool.false_eq_true, if_false] at hhere
            rw [← FileSystem.fileAt?_of_locate hnow, hgone] at hhere
            cases hhere
      · intro hsystem
        have hgone : w'.files.get? place = none := hhere.trans (if_pos (hsystem f rfl))
        exact ⟨hothers, FileSystem.fileAt?_eq_none_of_locate hnow hgone, hrecorded⟩

/-- A call that succeeds leaves the whole source in the file of the type. -/
theorem fileAt?_of_writeSource {w' : World} {source : String}
    (h : (writeSource name source).run s w = (w', .ok ())) :
    w'.files.fileAt? s.here (s.pathFor name) = some (Text.Utf8.encode source.toList) := by
  rcases w.create_cases s name with ⟨e, hfailed⟩ | ⟨files, place, -, hloc, hnone, hmade⟩
  · rw [writeSource, run_step (World.perform_create.trans hfailed)] at h
    cases (Prod.mk.inj h).2
  · obtain ⟨_, _, hrun, hended⟩ :=
      ended_writeSource source hloc hnone (World.perform_create.trans hmade)
    obtain ⟨rfl, rfl⟩ := Prod.mk.inj (h.symm.trans hrun)
    cases hfault : s.writingFault? w.turn with
    | none =>
        have hhere := hended.here
        rw [Setting.leftover, hfault] at hhere
        exact (FileSystem.fileAt?_of_locate (hended.locate hloc hnone)).mpr hhere
    | some f =>
        obtain ⟨⟨e, herror⟩, -⟩ := hended.failed f hfault
        cases herror

/-- **When writing a source is all or nothing**: exactly if no file stands where the path of the type
leads once its directories are made, and no failure counts after the file was made but an error of
the system. -/
theorem wholeOrNone_iff (s : Setting) (w : World) (name source : String) :
    WholeOrNone s w name source ↔ s.IsFree w name ∧ s.FailsBySystem w name := by
  have hadds := w.files.addsDirectories_makeDirs s.here (s.pathFor name).parent
  rcases w.create_cases s name with ⟨e, h⟩ | ⟨files, place, hdirs, hloc, hnone, hmade⟩
  · rw [wholeOrNone_iff_of_create_error source hadds (World.perform_create.trans h)]
    constructor
    · intro hfree
      refine ⟨hfree, fun _ _ hok => ?_⟩
      cases (Prod.mk.inj (h.symm.trans hok)).2
    · exact And.left
  · rw [hdirs] at hadds
    have hfree : s.IsFree w name := by
      rw [Setting.IsFree, hdirs]
      exact FileSystem.fileAt?_eq_none_of_locate hloc hnone
    rw [wholeOrNone_iff_of_create source hadds hloc hnone (World.perform_create.trans hmade)]
    constructor
    · intro hsystem
      exact ⟨hfree, fun _ _ _ => hsystem⟩
    · intro ⟨_, hsystem⟩
      exact hsystem _ place hmade

end

/-- A write that stops after two characters with an error that is none of the system's.  The file of
the type stays with these two, which is not all or nothing, and the type counts as generated. -/
theorem partial_source_stays :
    let s : Setting :=
      { layout := ⟨[⟨.here, ["classes"]⟩], [], ⟨.here, ["out"]⟩⟩
        here := []
        faults := fun turn => if turn = 0 then some ⟨.write, .raised .value "boom", 2⟩ else none }
    let w : World := { files := ⟨[]⟩ }
    let w' := ((writeSource "com.acme.A" "hello").run s w).1
    w.files.fileAt? [] (s.pathFor "com.acme.A") = none ∧
      w'.files.fileAt? [] (s.pathFor "com.acme.A") = some [0x68, 0x65] ∧
      (w'.lookup s "com.acme.A").toOption = some true ∧
      ¬ WholeOrNone s w "com.acme.A" "hello" := by
  intro s w w'
  have hleft : w'.files.fileAt? [] (s.pathFor "com.acme.A") = some [0x68, 0x65] := by
    decide +kernel
  refine ⟨by decide +kernel, hleft, by decide +kernel, ?_⟩
  intro h
  refine Or.elim h.file (fun hwhole => ?_) (fun hgone => ?_)
  · exact absurd (hleft.symm.trans hwhole) (by decide +kernel)
  · exact absurd (hleft.symm.trans hgone) (Option.some_ne_none _)

end TextProviders
