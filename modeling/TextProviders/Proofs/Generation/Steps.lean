import TextProviders.Generation.Action
import TextProviders.Proofs.FileSystem.Keeping

/-!
# What one step does to the world

One statement for each action, about everything that later modules ask of it.  Only three actions
touch the files: making the file of a type, writing to a file that was made, and discarding the file
of a type.  All others leave them as they are.
-/

namespace TextProviders

/-- The path of a type's source in the output directory. -/
def Setting.pathFor (s : Setting) (name : String) : Path :=
  Layout.sourceFile s.layout.output name

/-- The place to which the path of a type's source leads, if it leads anywhere. -/
def Setting.placeFor (s : Setting) (name : String) : Location :=
  FileSystem.placeOf s.here (s.pathFor name)

/-- A program that starts with a step goes on from the world and the answer of that step. -/
theorem Program.run_step {s : Setting} {w w' : World} {act : Action} {answer : act.Answer}
    {α : Type} {f : act.Answer → Program α} (h : w.perform s act = (w', answer)) :
    (ofAction act >>= f).run s w = (f answer).run s w' := by
  rw [run_bind, ofAction, run, h]
  rfl

namespace World

/-! ## Steps that leave the files alone -/

@[simp] theorem files_note (w : World) (notes : List Note) : (w.note notes).files = w.files := rfl

@[simp] theorem files_report (w : World) (d : Diagnostic) : (w.report d).files = w.files := rfl

@[simp] theorem files_record (w : World) (name : String) : (w.record name).files = w.files := by
  unfold record
  split <;> rfl

@[simp] theorem files_attempt (w : World) (s : Setting) (point : FaultPoint) :
    (w.attempt s point).1.files = w.files := by
  unfold attempt
  split <;> rfl

@[simp] theorem written_attempt (w : World) (s : Setting) (point : FaultPoint) :
    (w.attempt s point).1.written = w.written := by
  unfold attempt
  split <;> rfl

@[simp] theorem files_resolve (w : World) (s : Setting) (name : ResourceName) :
    (w.resolve s name).1.files = w.files := by
  unfold resolve
  dsimp only
  split <;> rfl

@[simp] theorem written_resolve (w : World) (s : Setting) (name : ResourceName) :
    (w.resolve s name).1.written = w.written := by
  unfold resolve
  dsimp only
  split <;> rfl

/-- A resource that is answered is the one that the search finds. -/
theorem resolve_eq_ok {w w' : World} {s : Setting} {name : ResourceName} {text : String}
    (h : w.resolve s name = (w', .ok text)) :
    (Resolver.resolve w.files s.here s.layout name).2 = .ok text ∧ w'.files = w.files := by
  unfold resolve at h
  dsimp only at h
  split at h
  · cases (Prod.mk.inj h).2
  · obtain ⟨rfl, htext⟩ := Prod.mk.inj h
    exact ⟨htext, rfl⟩

/-! ## Steps that change the files -/

/-- Making the file of a type either fails, and then at most directories were made; or the path
leads, once they are made, to a place where nothing stands, and an empty file is put there. -/
theorem create_cases (w : World) (s : Setting) (name : String) :
    (∃ e, w.create s name =
        ({ w with files := (w.files.makeDirs s.here (s.pathFor name).parent).1 }, .error e)) ∨
    (∃ files place, w.files.makeDirs s.here (s.pathFor name).parent = (files, .ok ()) ∧
        files.locate s.here (s.pathFor name) = .ok (.at place) ∧ files.get? place = none ∧
        w.create s name = ({ w with files := files.put place (.file []) }, .ok place)) := by
  simp only [Setting.pathFor]
  unfold create
  dsimp only
  split
  · next files f hdirs =>
    left
    rw [hdirs]
    exact ⟨_, rfl⟩
  · next files hdirs =>
    split
    · left
      rw [hdirs]
      exact ⟨_, rfl⟩
    · next place made hnew =>
      obtain ⟨hloc, hnone, rfl⟩ := FileSystem.createNew_ok hnew
      exact .inr ⟨files, place, hdirs, hloc, hnone, rfl⟩

/-- A write adds a part of its text to the file, the whole text if it does not fail. -/
theorem write_cases (w : World) (s : Setting) (place : Location) (text : String) :
    ∃ bytes, (w.write s place text).1.files = w.files.append place bytes ∧
      (w.write s place text).1.written = w.written ∧
      ((w.write s place text).2 = .ok () → bytes = Text.Utf8.encode text.toList) := by
  unfold write
  split
  · exact ⟨_, rfl, rfl, fun hok => by cases hok⟩
  · exact ⟨_, rfl, rfl, fun _ => rfl⟩

theorem written_discard (w : World) (s : Setting) (name : String) :
    (w.discard s name).1.written = w.written := by
  unfold discard
  split
  · rfl
  · rfl

/-- Discarding changes nothing or erases what stands where the path of the type leads. -/
theorem files_discard (w : World) (s : Setting) (name : String) :
    (w.discard s name).1.files = w.files ∨
      (w.discard s name).1.files = w.files.erase (s.placeFor name) := by
  unfold discard
  split
  · next files h => exact .inr (FileSystem.unlink_ok h)
  · exact .inl rfl

end World

end TextProviders
