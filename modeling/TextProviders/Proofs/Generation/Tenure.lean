import TextProviders.Generation.Run
import TextProviders.Proofs.Generation.Steps

/-!
# The tenure of a call that writes a source

A call that writes a source has no file yet, has one with certain bytes, has recorded its type, or is
over (`Tenure`).  What its program may do in which state is a discipline on program trees
(`SourceCall.Keeps`), and `writeSource` keeps to it.

One step of such a program, which the system may fail with any error, turns the tenure by its effect
(`SourceCall.Turns`), and what it does to the files concerns the file of the call alone
(`SourceCall.Changes`).  This says all that other calls need to know of it.
-/

namespace TextProviders

open Program

/-! ## Sources to be written -/

/-- A source to be written. -/
structure SourceCall where
  name : String
  source : String
deriving DecidableEq, Repr

namespace SourceCall

variable (s : Setting) (c : SourceCall)

/-- The steps of a call. -/
def program : Program (Except GenerationFailure Unit) :=
  writeSource c.name c.source

/-- The place to which the path of a call leads.  Which one it is matters to no proof below. -/
@[irreducible] def place : Location :=
  s.placeFor c.name

theorem place_eq : c.place s = s.placeFor c.name := by
  unfold place
  rfl

/-- What the file of a call holds when it is complete. -/
def bytes : List UInt8 :=
  Text.Utf8.encode c.source.toList

/-- The path of a call leads to a file with certain bytes. -/
def Stands (fs : FileSystem) (bytes : List UInt8) : Prop :=
  fs.fileAt? s.here (s.pathFor c.name) = some bytes

end SourceCall

/-- The system fails a step, with any error.  Directories may be made for a file that is not, and a part
of a text may be written. -/
def World.Refuses (w : World) : (act : Action) → World → act.Answer → Prop
  | .create _, w', answer =>
      (∃ files, w.files.AddsDirectories files ∧ w' = { w with files }) ∧ ∃ e, answer = .error e
  | .write place text, w', answer =>
      (∃ part, part <+: Text.Utf8.encode text.toList ∧
        w' = { w with files := w.files.append place part }) ∧ ∃ e, answer = .error e
  | .flush, w', answer | .close, w', answer | .discard _, w', answer =>
      w' = w ∧ ∃ e, answer = .error e
  | _, _, _ => False

/-- What a step can come to: what it does by itself, or that the system fails it. -/
def World.ComesTo (s : Setting) (w : World) (act : Action) (w' : World) (answer : act.Answer) : Prop :=
  w.perform s act = (w', answer) ∨ w.Refuses act w' answer

/-- What a step means for the file of its call. -/
inductive Effect where
  | made (place : Location)
  | discarded
  | recorded (name : String)
  | other
deriving DecidableEq, Repr

/-- The effect of a step with its answer. -/
def Action.effect : (act : Action) → act.Answer → Effect
  | .create _, .ok place => .made place
  | .discard _, _ => .discarded
  | .record name, _ => .recorded name
  | _, _ => .other

/-! ## Tenure -/

/-- How far a call is with its file. -/
inductive Tenure where
  /-- It has made no file. -/
  | ahead
  /-- It has a file with certain bytes. -/
  | holds (bytes : List UInt8)
  /-- It has recorded its type. -/
  | recorded
  /-- It could not make the file, or discarded it. -/
  | ended
deriving DecidableEq, Repr

/-- What a call has in its file. -/
def Tenure.file? (c : SourceCall) : Tenure → Option (List UInt8)
  | .holds bytes => some bytes
  | .recorded => some c.bytes
  | .ahead | .ended => none

/-- Whether a step leaves files and records alone. -/
def Action.isIdle : Action → Bool
  | .create _ | .write _ _ | .discard _ | .record _ => false
  | _ => true

/-- A program that acts for a call as its tenure allows.  It makes the file of the call and no other,
writes to it and discards it only while it has it, and records the type of the call only when the file
is complete; afterwards it leaves everything alone. -/
inductive SourceCall.Keeps (s : Setting) (c : SourceCall) {α : Type} : Tenure → Program α → Prop
  | done {t : Tenure} {a : α} : Keeps s c t (.done a)
  | idle {t : Tenure} {act : Action} {next : act.Answer → Program α} : act.isIdle = true →
      (∀ answer, Keeps s c t (next answer)) → Keeps s c t (.step act next)
  | create {next : (Action.create c.name).Answer → Program α} :
      (∀ e, Keeps s c .ended (next (.error e))) →
      Keeps s c (.holds []) (next (.ok (c.place s))) →
      Keeps s c .ahead (.step (.create c.name) next)
  | write {bytes : List UInt8} {text : String}
      {next : (Action.write (c.place s) text).Answer → Program α} :
      (∀ e part, Keeps s c (.holds (bytes ++ part)) (next (.error e))) →
      Keeps s c (.holds (bytes ++ Text.Utf8.encode text.toList)) (next (.ok ())) →
      Keeps s c (.holds bytes) (.step (.write (c.place s) text) next)
  | discard {bytes : List UInt8} {next : (Action.discard c.name).Answer → Program α} :
      (∀ answer, Keeps s c .ended (next answer)) →
      Keeps s c (.holds bytes) (.step (.discard c.name) next)
  | record {next : (Action.record c.name).Answer → Program α} :
      Keeps s c .recorded (next ()) →
      Keeps s c (.holds c.bytes) (.step (.record c.name) next)

section

variable (s : Setting) (c : SourceCall) {α : Type} {f : Except GenerationFailure Unit → Program α}

theorem keeps_closeAfter {bytes : List UInt8} (hfailed : ∀ e, c.Keeps s (.holds bytes) (f (.error e)))
    (e : GenerationFailure) : c.Keeps s (.holds bytes) (closeAfter e >>= f) := by
  refine .idle rfl fun answer => ?_
  cases answer with
  | error later => exact hfailed later
  | ok _ => exact hfailed e

/-- The text of a call is written to its file, and what follows finds the file complete if nothing
failed. -/
theorem keeps_writeText (hfailed : ∀ bytes e, c.Keeps s (.holds bytes) (f (.error e)))
    (hwritten : c.Keeps s (.holds c.bytes) (f (.ok ()))) :
    c.Keeps s (.holds []) (writeText (c.place s) c.source >>= f) := by
  refine .write (fun e part => keeps_closeAfter s c (hfailed _) e) (.idle rfl fun answer => ?_)
  cases answer with
  | error e => exact keeps_closeAfter s c (hfailed _) e
  | ok _ =>
      refine .idle rfl fun answer => ?_
      cases answer with
      | error e => exact hfailed _ e
      | ok _ => exact hwritten

/-- Writing a source keeps to its tenure. -/
theorem keeps_program : c.Keeps s .ahead c.program := by
  refine .create (fun _ => .done) (keeps_writeText s c (fun bytes e => ?_) ?_)
  · dsimp only
    split
    · refine .discard fun answer => ?_
      cases answer with
      | error e => exact .done
      | ok _ => exact .done
    · exact .done
  · exact .record (.idle rfl fun _ => .done)

end

/-! ## What a step does -/

/-- How a step of a call with a certain effect turns its tenure.  A file is made only where nothing
stands. -/
inductive SourceCall.Turns (s : Setting) (c : SourceCall) (fs : FileSystem) :
    Tenure → Effect → Tenure → Prop
  | make : fs.get? (c.place s) = none → Turns s c fs .ahead (.made (c.place s)) (.holds [])
  | miss : Turns s c fs .ahead .other .ended
  | write {bytes bytes' : List UInt8} : Turns s c fs (.holds bytes) .other (.holds bytes')
  | discard {bytes : List UInt8} : Turns s c fs (.holds bytes) .discarded .ended
  | record : Turns s c fs (.holds c.bytes) (.recorded c.name) .recorded
  | idle {t : Tenure} : Turns s c fs t .other t

/-- What a step of a call does to the files: what the call has afterwards stands, and all that stood
still stands, except that what the call had can change. -/
structure SourceCall.Changes (s : Setting) (c : SourceCall) (t t' : Tenure) (effect : Effect)
    (old new : FileSystem) : Prop where
  stands : ∀ bytes, t'.file? c = some bytes → c.Stands s new bytes
  directories : old.KeepsDirectories new
  entries : ∀ loc e, (loc = c.place s → t.file? c = none) → old.get? loc = some e →
    new.get? loc = some e
  removed : effect = .discarded → ∀ loc, new.get? loc ≠ old.get? loc →
    loc = c.place s ∧ new.get? loc = none

section

variable {s : Setting} {c : SourceCall} {w w' : World} {bytes : List UInt8}

theorem files_perform_of_isIdle {act : Action} (h : act.isIdle = true) :
    (w.perform s act).1.files = w.files := by
  cases act with
  | lookup name => rfl
  | resolve name => exact w.files_resolve s name
  | flush => exact w.files_attempt s .flush
  | close => exact w.files_attempt s .close
  | report d => rfl
  | note n => rfl
  | create _ | write _ _ | discard _ | record _ => cases h

theorem World.ComesTo.files_of_isIdle {act : Action} {answer : act.Answer}
    (h : w.ComesTo s act w' answer) (hidle : act.isIdle = true) : w'.files = w.files := by
  rcases h with hperform | hrefused
  · have hfiles := files_perform_of_isIdle (s := s) (w := w) hidle
    rwa [hperform] at hfiles
  · cases act with
    | create _ | write _ _ | discard _ => cases hidle
    | flush | close => rw [hrefused.1]
    | lookup _ | resolve _ | record _ | report _ | note _ => exact hrefused.elim

theorem effect_of_isIdle {act : Action} (h : act.isIdle = true) (answer : act.Answer) :
    act.effect answer = .other := by
  cases act with
  | create _ | write _ _ | discard _ | record _ => cases h
  | lookup _ | resolve _ | flush | close | report _ | note _ => rfl

theorem SourceCall.eq_place {fs : FileSystem} {loc : Location}
    (h : fs.locate s.here (s.pathFor c.name) = .ok (.at loc)) : loc = c.place s :=
  (FileSystem.eq_placeOf_of_locate h).trans (c.place_eq s).symm

theorem SourceCall.Stands.get? {fs : FileSystem} (h : c.Stands s fs bytes) :
    fs.get? (c.place s) = some (.file bytes) := by
  obtain ⟨loc, hloc, hfile⟩ := FileSystem.fileAt?_eq_some_iff.mp h
  obtain rfl := c.eq_place hloc
  exact hfile

theorem SourceCall.Stands.of_keepsDirectories {old new : FileSystem} {bytes' : List UInt8}
    (h : c.Stands s old bytes) (hdirs : old.KeepsDirectories new)
    (hfile : new.get? (c.place s) = some (.file bytes')) : c.Stands s new bytes' := by
  obtain ⟨loc, hloc, -⟩ := FileSystem.fileAt?_eq_some_iff.mp h
  obtain rfl := c.eq_place hloc
  exact FileSystem.fileAt?_eq_some_iff.mpr
    ⟨_, FileSystem.locate_of_keepsDirectories hdirs hloc, hfile⟩

theorem SourceCall.Stands.ne_nil {fs : FileSystem} (h : c.Stands s fs bytes) : c.place s ≠ [] := by
  obtain ⟨loc, hloc, -⟩ := FileSystem.fileAt?_eq_some_iff.mp h
  obtain rfl := c.eq_place hloc
  exact FileSystem.ne_nil_of_locate hloc

/-- Nothing changes. -/
theorem SourceCall.Changes.of_eq {t : Tenure} {effect : Effect}
    (hstands : ∀ bytes, t.file? c = some bytes → c.Stands s w.files bytes)
    (hfiles : w'.files = w.files) : c.Changes s t t effect w.files w'.files := by
  rw [hfiles]
  exact ⟨hstands, fun _ => id, fun _ _ _ => id, fun _ _ hne => absurd rfl hne⟩

theorem changes_of_addsDirectories {old new : FileSystem} (h : old.AddsDirectories new) :
    c.Changes s .ahead .ended .other old new := by
  refine ⟨fun _ hhas => ?_, h.keeps.keepsDirectories, fun loc e _ => h.keeps loc e, fun hgone => ?_⟩
  · cases hhas
  · cases hgone

/-- Making the file of a call. -/
theorem changes_create {old files : FileSystem} (hdirs : old.AddsDirectories files)
    (hloc : files.locate s.here (s.pathFor c.name) = .ok (.at (c.place s)))
    (hnone : files.get? (c.place s) = none) :
    c.Changes s .ahead (.holds []) (.made (c.place s)) old
      (files.put (c.place s) (.file [])) := by
  have hkeeps : files.Keeps (files.put (c.place s) (.file [])) := (FileSystem.Keeps.refl _).put hnone _
  refine ⟨?_, (hdirs.keeps.trans hkeeps).keepsDirectories, ?_, fun hgone => by cases hgone⟩
  · rintro _ ⟨⟩
    exact FileSystem.fileAt?_eq_some_iff.mpr
      ⟨_, FileSystem.locate_of_keepsDirectories hkeeps.keepsDirectories hloc,
        FileSystem.get?_put_self _ (FileSystem.ne_nil_of_locate hloc) _⟩
  · intro loc e _
    exact hdirs.keeps.trans hkeeps loc e

/-- Writing to the file of a call. -/
theorem changes_write {old : FileSystem} (h : c.Stands s old bytes) (more : List UInt8) :
    c.Changes s (.holds bytes) (.holds (bytes ++ more)) .other old
      (old.append (c.place s) more) := by
  have hdirs : old.KeepsDirectories (old.append (c.place s) more) := by
    intro loc hdir
    have hne : loc ≠ c.place s := fun heq => by rw [heq, h.get?] at hdir; cases hdir
    rwa [FileSystem.get?_append_of_ne _ hne]
  refine ⟨?_, hdirs, fun loc e hfree hold => ?_, fun hgone => by cases hgone⟩
  · rintro _ ⟨⟩
    refine h.of_keepsDirectories hdirs ?_
    unfold FileSystem.append
    rw [h.get?]
    exact FileSystem.get?_put_self _ h.ne_nil _
  · have hne : loc ≠ c.place s := fun heq => by cases hfree heq
    rwa [FileSystem.get?_append_of_ne _ hne]

/-- Discarding what a call has, which may fail. -/
theorem changes_discard {old new : FileSystem} (h : c.Stands s old bytes)
    (hnew : new = old ∨ new = old.erase (c.place s)) :
    c.Changes s (.holds bytes) .ended .discarded old new := by
  rcases hnew with rfl | rfl
  · exact ⟨fun _ hhas => (by cases hhas), fun _ => id, fun _ _ _ => id, fun _ _ hne => absurd rfl hne⟩
  · refine ⟨fun _ hhas => (by cases hhas), fun loc hdir => ?_, fun loc e hfree hold => ?_,
      fun _ loc hne => ?_⟩
    · have hne : loc ≠ c.place s := fun heq => by rw [heq, h.get?] at hdir; cases hdir
      rwa [FileSystem.get?_erase_of_ne _ hne]
    · have hne : loc ≠ c.place s := fun heq => by cases hfree heq
      rwa [FileSystem.get?_erase_of_ne _ hne]
    · have heq : loc = c.place s := by
        refine Classical.byContradiction fun hother => hne ?_
        exact FileSystem.get?_erase_of_ne old hother
      rw [heq]
      exact ⟨rfl, FileSystem.get?_erase_self old h.ne_nil⟩

/-- A file is made where nothing stands, or at most directories are made. -/
theorem World.ComesTo.create_cases {answer : Except GenerationFailure Location}
    (h : w.ComesTo s (.create c.name) w' answer) :
    (∃ e, answer = .error e ∧ w.files.AddsDirectories w'.files) ∨
      ∃ files, answer = .ok (c.place s) ∧ w.files.AddsDirectories files ∧
        files.locate s.here (s.pathFor c.name) = .ok (.at (c.place s)) ∧
        files.get? (c.place s) = none ∧ w'.files = files.put (c.place s) (.file []) := by
  have hadds := w.files.addsDirectories_makeDirs s.here (s.pathFor c.name).parent
  rcases h with hperform | ⟨⟨files, hdirs, rfl⟩, e, rfl⟩
  · change w.create s c.name = _ at hperform
    rcases w.create_cases s c.name with ⟨e, hcreate⟩ | ⟨files, place, hdirs, hloc, hnone, hcreate⟩
    · obtain ⟨hworld, hanswer⟩ := Prod.mk.inj (hcreate.symm.trans hperform)
      have hfiles : w'.files = (w.files.makeDirs s.here (s.pathFor c.name).parent).1 := by
        rw [← hworld]
      rw [← hfiles] at hadds
      exact .inl ⟨e, hanswer.symm, hadds⟩
    · obtain ⟨hworld, hanswer⟩ := Prod.mk.inj (hcreate.symm.trans hperform)
      have hfiles : w'.files = files.put place (.file []) := by rw [← hworld]
      rw [hdirs] at hadds
      obtain rfl := c.eq_place hloc
      exact .inr ⟨files, hanswer.symm, hadds, hloc, hnone, hfiles⟩
  · exact .inl ⟨e, rfl, hdirs⟩

/-- **One step of one call**: a program that keeps to the tenure of its call does so after the step,
with the tenure turned by the effect of the step. -/
theorem SourceCall.Keeps.step {α : Type} {t : Tenure} {act : Action}
    {next : act.Answer → Program α} {answer : act.Answer} (h : c.Keeps s t (.step act next))
    (hstands : ∀ bytes, t.file? c = some bytes → c.Stands s w.files bytes)
    (hstep : w.ComesTo s act w' answer) :
    ∃ t', c.Keeps s t' (next answer) ∧ c.Turns s w.files t (act.effect answer) t' ∧
      c.Changes s t t' (act.effect answer) w.files w'.files := by
  cases h with
  | idle hidle hnext =>
      rw [effect_of_isIdle hidle]
      exact ⟨t, hnext answer, .idle, .of_eq hstands (hstep.files_of_isIdle hidle)⟩
  | create hfailed hmade =>
      rcases hstep.create_cases with ⟨e, rfl, hdirs⟩ | ⟨files, rfl, hdirs, hloc, hnone, hfiles⟩
      · exact ⟨.ended, hfailed e, .miss, changes_of_addsDirectories hdirs⟩
      · refine ⟨.holds [], hmade, .make (hdirs.keeps.eq_none hnone), ?_⟩
        rw [hfiles]
        exact changes_create hdirs hloc hnone
  | @write bytes text _ hfailed hwritten =>
      rcases hstep with hperform | hrefused
      · change w.write s (c.place s) text = _ at hperform
        obtain ⟨more, hfiles, -, hwhole⟩ := w.write_cases s (c.place s) text
        rw [hperform] at hfiles hwhole
        have hchanges := changes_write (hstands bytes rfl) more
        rw [← hfiles] at hchanges
        cases answer with
        | error e => exact ⟨.holds (bytes ++ more), hfailed e more, .write, hchanges⟩
        | ok _ =>
            obtain rfl := hwhole rfl
            exact ⟨_, hwritten, .write, hchanges⟩
      · obtain ⟨⟨part, -, hworld⟩, e, rfl⟩ := hrefused
        have hfiles : w'.files = w.files.append (c.place s) part := by rw [hworld]
        rw [hfiles]
        exact ⟨.holds (bytes ++ part), hfailed e part, .write, changes_write (hstands bytes rfl) part⟩
  | @discard bytes _ hnext =>
      refine ⟨.ended, hnext answer, .discard, changes_discard (hstands bytes rfl) ?_⟩
      rcases hstep with hperform | ⟨rfl, -⟩
      · change w.discard s c.name = _ at hperform
        have hfiles := w.files_discard s c.name
        rwa [hperform, ← c.place_eq s] at hfiles
      · exact .inl rfl
  | record hnext =>
      refine ⟨.recorded, hnext, .record, ?_⟩
      rcases hstep with hperform | hrefused
      · have hfiles : w'.files = w.files := by
          rw [← w.files_record c.name]
          exact congrArg (·.1.files) hperform.symm
        rw [hfiles]
        exact ⟨hstands, fun _ => id, fun _ _ _ => id, fun hgone => by cases hgone⟩
      · exact hrefused.elim

end

section

variable {s : Setting} {c : SourceCall} {fs : FileSystem} {t t' : Tenure} {effect : Effect}
variable {place : Location}

theorem SourceCall.Turns.of_made (h : c.Turns s fs t (.made place) t') :
    place = c.place s ∧ fs.get? place = none ∧ t' = .holds [] := by
  cases h with
  | make hnone => exact ⟨rfl, hnone, rfl⟩

theorem SourceCall.Turns.of_discarded (h : c.Turns s fs t .discarded t') :
    ∃ bytes, t = .holds bytes := by
  cases h with
  | discard => exact ⟨_, rfl⟩

theorem SourceCall.Turns.of_recorded {name : String} (h : c.Turns s fs t (.recorded name) t') :
    c.name = name ∧ t' = .recorded := by
  cases h with
  | record => exact ⟨rfl, rfl⟩

/-- A call that has a file has just made it, or had it before. -/
theorem SourceCall.Turns.file?_cases {bytes : List UInt8} (h : c.Turns s fs t effect t')
    (hhas : t'.file? c = some bytes) :
    effect = .made (c.place s) ∨ (∃ had, t.file? c = some had) ∧ ∀ loc, effect ≠ .made loc := by
  cases h with
  | make _ => exact .inl rfl
  | miss | discard => cases hhas
  | write => exact .inr ⟨⟨_, rfl⟩, fun _ hmade => by cases hmade⟩
  | record => exact .inr ⟨⟨_, rfl⟩, fun _ hmade => by cases hmade⟩
  | idle => exact .inr ⟨⟨_, hhas⟩, fun _ hmade => by cases hmade⟩

/-- A call that made its file does not make one again, and gives it up only by discarding it. -/
theorem SourceCall.Turns.past (h : c.Turns s fs t effect t') (ht : t ≠ .ahead) :
    t' ≠ .ahead ∧ (t' = .ended → t = .ended ∨ effect = .discarded) := by
  cases h with
  | make _ | miss => exact absurd rfl ht
  | write | record => exact ⟨fun h => (by cases h), fun h => (by cases h)⟩
  | discard => exact ⟨fun h => (by cases h), fun _ => .inr rfl⟩
  | idle => exact ⟨ht, .inl⟩

theorem SourceCall.Turns.eq_recorded (h : c.Turns s fs .recorded effect t') : t' = .recorded := by
  cases h with
  | idle => rfl

end

end TextProviders
