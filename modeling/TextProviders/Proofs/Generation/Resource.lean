import TextProviders.Generation.Resolver
import TextProviders.Proofs.FileSystem.Keeping
import TextProviders.Proofs.Text.Utf8

/-!
# The resource that a search finds

A search goes through the roots in order and stops at the first one under which the path of the
resource leads to anything.  The main statement, `search_eq_ok_iff`, says when it answers a text: that
first root has a file there, and its bytes are those of the text.
-/

namespace TextProviders.Resolver

open FileSystem

/-- The search stops at the first root under which the resource is not absent, and finds a file with
the bytes of a text there. -/
def FindsUnder (fs : FileSystem) (here : Location) (name : ResourceName) (roots : List Path)
    (text : List Char) : Prop :=
  ∃ absent root behind, roots = absent ++ root :: behind ∧
    (∀ r ∈ absent, fs.stat here (pathUnder r name) = .error .notFound) ∧
    fs.fileAt? here (pathUnder root name) = some (Text.Utf8.encode text)

section

variable {fs : FileSystem} {here : Location} {name : ResourceName}

theorem not_findsUnder_nil {text : List Char} : ¬FindsUnder fs here name [] text := by
  rintro ⟨absent, root, behind, hroots, -⟩
  exact List.append_ne_nil_of_right_ne_nil _ (List.cons_ne_nil _ _) hroots.symm

theorem findsUnder_cons {root : Path} {rest : List Path} {text : List Char} :
    FindsUnder fs here name (root :: rest) text ↔
      fs.fileAt? here (pathUnder root name) = some (Text.Utf8.encode text) ∨
        (fs.stat here (pathUnder root name) = .error .notFound ∧
          FindsUnder fs here name rest text) := by
  constructor
  · rintro ⟨absent, first, behind, hroots, habsent, hfile⟩
    cases absent with
    | nil =>
        obtain ⟨rfl, -⟩ := List.cons.inj hroots
        exact .inl hfile
    | cons r absent =>
        obtain ⟨rfl, hrest⟩ := List.cons.inj hroots
        exact .inr ⟨habsent _ List.mem_cons_self, absent, first, behind, hrest,
          fun r hr => habsent r (List.mem_cons_of_mem _ hr), hfile⟩
  · rintro (hfile | ⟨hnone, absent, first, behind, rfl, habsent, hfile⟩)
    · exact ⟨[], root, rest, rfl, fun r hr => (List.not_mem_nil hr).elim, hfile⟩
    · refine ⟨root :: absent, first, behind, rfl, fun r hr => ?_, hfile⟩
      rcases List.mem_cons.mp hr with rfl | hr
      · exact hnone
      · exact habsent r hr

/-! ## What one root decides -/

variable {root : Path} {rest : List Path}

theorem search_of_absent (h : fs.stat here (pathUnder root name) = .error .notFound) :
    (search fs here name (root :: rest)).2 = (search fs here name rest).2 := by
  rw [search, FileSystem.read, h]

theorem search_of_file {bytes : List UInt8} {text : String}
    (h : fs.stat here (pathUnder root name) = .ok (.file bytes)) :
    (search fs here name (root :: rest)).2 = .ok text ↔ bytes = Text.Utf8.encode text.toList := by
  rw [← Text.Utf8.decode_eq_ok_iff, search, FileSystem.read, h]
  dsimp only
  cases Text.Utf8.decode bytes with
  | ok s =>
      constructor
      · intro hanswer
        rw [← Except.ok.inj hanswer, String.toList_ofList]
      · intro hs
        rw [Except.ok.inj hs]
        exact congrArg Except.ok String.ofList_toList
  | error f =>
      constructor
      · intro hanswer
        cases hanswer
      · intro hs
        cases hs

theorem search_of_other (hfile : ∀ bytes, fs.stat here (pathUnder root name) ≠ .ok (.file bytes))
    (habsent : fs.stat here (pathUnder root name) ≠ .error .notFound) :
    ∃ e, (search fs here name (root :: rest)).2 = .error e := by
  rw [search, FileSystem.read]
  cases hstat : fs.stat here (pathUnder root name) with
  | ok entry =>
      cases entry with
      | file bytes => exact absurd hstat (hfile bytes)
      | directory => exact ⟨_, rfl⟩
  | error e =>
      cases e with
      | notFound => exact absurd hstat habsent
      | _ => exact ⟨_, rfl⟩

/-- **A search answers a text** exactly if the first root under which the resource is not absent has a
file with the bytes of that text. -/
theorem search_eq_ok_iff {roots : List Path} {text : String} :
    (search fs here name roots).2 = .ok text ↔ FindsUnder fs here name roots text.toList := by
  induction roots with
  | nil =>
      constructor
      · intro h
        cases h
      · intro h
        exact (not_findsUnder_nil h).elim
  | cons root rest ih =>
      rw [findsUnder_cons, fileAt?_eq_some_iff, ← stat_eq_file_iff]
      by_cases habsent : fs.stat here (pathUnder root name) = .error .notFound
      · rw [search_of_absent habsent, ih, habsent]
        constructor
        · intro h
          exact .inr ⟨rfl, h⟩
        · rintro (h | ⟨-, h⟩)
          · cases h
          · exact h
      · by_cases hfile : ∃ bytes, fs.stat here (pathUnder root name) = .ok (.file bytes)
        · obtain ⟨bytes, hstat⟩ := hfile
          rw [search_of_file hstat, hstat]
          constructor
          · intro hbytes
            exact .inl (congrArg (Except.ok ∘ Entry.file) hbytes)
          · rintro (h | ⟨h, -⟩)
            · exact Entry.file.inj (Except.ok.inj h)
            · cases h
        · have hno : ∀ bytes, fs.stat here (pathUnder root name) ≠ .ok (.file bytes) :=
            fun bytes h => hfile ⟨bytes, h⟩
          have hother : ∃ e, (search fs here name (root :: rest)).2 = .error e :=
            search_of_other hno habsent
          obtain ⟨e, he⟩ := hother
          rw [he]
          constructor
          · intro h
            cases h
          · rintro (h | ⟨h, -⟩)
            · exact absurd h (hno _)
            · exact absurd h habsent

end

end TextProviders.Resolver
