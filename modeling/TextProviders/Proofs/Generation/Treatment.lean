import Mathlib.Control.Monad.Basic
import TextProviders.Proofs.FileSystem.Alike
import TextProviders.Proofs.Generation.Faults
import TextProviders.Proofs.Generation.Records
import TextProviders.Proofs.Layout.Beside

/-!
# One provider's file does not decide about the other

Two runs over the same declaration, from states that differ only in what stands where the provider goes
that loads its resource.  The main statement says that the other provider, the one that carries the text, is
treated alike (`TreatAlike`): it is skipped in both runs or in neither, and written in both or in neither,
with the same bytes.

The two providers are taken one after the other, and a failure at the first ends the declaration.  So the
states must not differ in whether the first one fails.  There are two such failures:

* a directory stands where the file of the first provider is to be made.  That is no file, so the provider
  counts as missing, and then it cannot be made (`InTheWay`);
* the look-up of the first provider meets a name that is too long, which it does not come to if the file
  is found before.

Apart from these nothing is asked of the first provider.  Below whichever root, the look-up of the second
never leads to the place of the first (`Target.locate_ne`), and if the first one is written, then what
stands at its place afterwards is a file in both states.
-/

namespace TextProviders

open Program FileSystem

/-- The provider that loads the resource when it is used. -/
def Declaration.loading (d : Declaration) : Target :=
  ⟨.runtimeLoading, d⟩

/-- The provider that carries the text of the resource. -/
def Declaration.embedding (d : Declaration) : Target :=
  ⟨.embeddedLiteral, d⟩

/-- The resource that the providers of a declaration with an extension are about. -/
def Declaration.resource (d : Declaration) (extension : String) : ResourceName :=
  ⟨d.package, d.simpleName, extension⟩

/-! ## Generating a target without faults -/

/-- The run added a file with the given bytes at a place where nothing stood, to which the path of the
name leads, and recorded the name. -/
structure PutsSource (s : Setting) (name : String) (bytes : List UInt8) (place : Location) (w w' : World) :
    Prop where
  located : w.files.locate s.here (s.pathFor name) = .ok (.at place)
  free : w.files.get? place = none
  here : w'.files.get? place = some (.file bytes)
  elsewhere : ∀ loc, loc ≠ place → w'.files.get? loc = w.files.get? loc
  written : w'.written = (w.record name).written

section

variable {s : Setting} {w w' : World} {name : String} {bytes : List UInt8} {place : Location}

/-- No directory is made or lost. -/
theorem PutsSource.differAt (h : PutsSource s name bytes place w w') : DifferAt place w.files w'.files := by
  refine ⟨h.elsewhere, ?_⟩
  rw [h.here, h.free]
  simp

/-- The name has a file with these bytes. -/
theorem PutsSource.fileAt? (h : PutsSource s name bytes place w w') :
    w'.files.fileAt? s.here (s.pathFor name) = some bytes :=
  fileAt?_eq_some_iff.mpr ⟨place, h.differAt.locate_eq_ok_iff.mpr h.located, h.here⟩

theorem PutsSource.of_files_eq {v : World} (h : PutsSource s name bytes place v w') (hfiles : v.files = w.files)
    (hwritten : v.written = w.written) : PutsSource s name bytes place w w' :=
  ⟨hfiles ▸ h.located, hfiles ▸ h.free, h.here, hfiles ▸ h.elsewhere,
    h.written.trans (written_record w v hwritten name)⟩

theorem writingFault?_eq_none (hs : s.Faultless) (turn : Nat) : s.writingFault? turn = none := by
  simp [Setting.writingFault?, Setting.faultOn?, hs.faults]

/-- A source is written where its path leads to a place at which nothing stands. -/
theorem run_writeSource_of_free (hs : s.Faultless) (source : String)
    (hloc : w.files.locate s.here (s.pathFor name) = .ok (.at place))
    (hnone : w.files.get? place = none) :
    ∃ w', (writeSource name source).run s w = (w', .ok ()) ∧
      PutsSource s name (Text.Utf8.encode source.toList) place w w' := by
  have hcreate : w.perform s (.create name) =
      ({ w with files := w.files.put place (.file []) }, .ok place) := by
    rw [World.perform_create]
    unfold World.create
    dsimp only
    rw [show w.files.makeDirs s.here (Layout.sourceFile s.layout.output name).parent =
        (w.files, .ok ()) from makeDirs_of_locate hloc]
    dsimp only
    rw [createNew, show w.files.locate s.here (Layout.sourceFile s.layout.output name) =
        .ok (.at place) from hloc]
    simp only [hnone]
  obtain ⟨w', answer, hrun, hended⟩ := ended_writeSource source hloc hnone hcreate
  have hfault := writingFault?_eq_none hs w.turn
  obtain ⟨rfl, hwritten⟩ := hended.whole hfault
  refine ⟨w', hrun, hloc, hnone, ?_, hended.elsewhere, hwritten⟩
  rw [hended.here, Setting.leftover, hfault]

end

/-! ## Two runs side by side -/

/-- What two runs find is the same as far as making the file of a name goes: the directories above it
stand, its path leads to the same, and nothing stands there in both states or in neither. -/
structure FoundAlike (s : Setting) (name : String) (a b : FileSystem) : Prop where
  above : a.makeDirs s.here (s.pathFor name).parent = (a, .ok ())
  above' : b.makeDirs s.here (s.pathFor name).parent = (b, .ok ())
  located : b.locate s.here (s.pathFor name) = a.locate s.here (s.pathFor name)
  nothing : ∀ loc, a.locate s.here (s.pathFor name) = .ok (.at loc) →
    (b.get? loc = none ↔ a.get? loc = none)

/-- What two runs find is the same as far as a target goes. -/
structure SeenAlike (s : Setting) (t : Target) (extension : String) (w₁ w₂ : World) : Prop where
  looked : w₂.lookup s t.name = w₁.lookup s t.name
  resolved : (Resolver.resolve w₂.files s.here s.layout (t.declaration.resource extension)).2 =
    (Resolver.resolve w₁.files s.here s.layout (t.declaration.resource extension)).2
  found : FoundAlike s t.name w₁.files w₂.files

/-- Two runs added the same file. -/
def AddAlike (s : Setting) (name : String) (w₁ w₁' w₂ w₂' : World) : Prop :=
  ∃ bytes place, PutsSource s name bytes place w₁ w₁' ∧ PutsSource s name bytes place w₂ w₂'

section

variable {s : Setting} {w₁ w₂ : World} {name : String}

theorem FoundAlike.createNew_error {a b : FileSystem} (h : FoundAlike s name a b)
    (hfree : ∀ loc, a.locate s.here (s.pathFor name) = .ok (.at loc) → a.get? loc ≠ none) (e : Entry) :
    ∃ f, a.createNew s.here (s.pathFor name) e = .error f ∧
      b.createNew s.here (s.pathFor name) e = .error f := by
  simp only [createNew, h.located]
  cases hloc : a.locate s.here (s.pathFor name) with
  | error f => exact ⟨_, rfl, rfl⟩
  | ok pl =>
      cases pl with
      | directory loc => exact ⟨_, rfl, rfl⟩
      | «at» loc =>
          dsimp only
          cases ha : a.get? loc with
          | none => exact absurd ha (hfree loc hloc)
          | some entry =>
              cases hb : b.get? loc with
              | none => cases ((h.nothing loc hloc).mp hb).symm.trans ha
              | some entry' => exact ⟨_, rfl, rfl⟩

/-- The file of a name cannot be made, for the same reason in both runs. -/
theorem FoundAlike.create_error (h : FoundAlike s name w₁.files w₂.files)
    (hfree : ∀ loc, w₁.files.locate s.here (s.pathFor name) = .ok (.at loc) →
      w₁.files.get? loc ≠ none) :
    ∃ e, w₁.create s name = (w₁, .error e) ∧ w₂.create s name = (w₂, .error e) := by
  obtain ⟨f, hnew₁, hnew₂⟩ := h.createNew_error hfree (.file [])
  have habove₁ := h.above
  have habove₂ := h.above'
  unfold Setting.pathFor at hnew₁ hnew₂ habove₁ habove₂
  unfold World.create
  simp only [habove₁, habove₂, hnew₁, hnew₂]
  exact ⟨_, rfl, rfl⟩

theorem FoundAlike.run_writeSource (hs : s.Faultless) (h : FoundAlike s name w₁.files w₂.files)
    (source : String) :
    ∃ w₁' w₂' answer, (writeSource name source).run s w₁ = (w₁', answer) ∧
      (writeSource name source).run s w₂ = (w₂', answer) ∧
      (answer = .ok () → AddAlike s name w₁ w₁' w₂ w₂') := by
  by_cases hfree : ∃ loc, w₁.files.locate s.here (s.pathFor name) = .ok (.at loc) ∧
      w₁.files.get? loc = none
  · obtain ⟨loc, hloc, hnone⟩ := hfree
    obtain ⟨w₁', hrun₁, hadds₁⟩ := run_writeSource_of_free hs source hloc hnone
    obtain ⟨w₂', hrun₂, hadds₂⟩ := run_writeSource_of_free hs source (h.located.trans hloc)
      ((h.nothing loc hloc).mpr hnone)
    exact ⟨w₁', w₂', .ok (), hrun₁, hrun₂, fun _ => ⟨_, loc, hadds₁, hadds₂⟩⟩
  · obtain ⟨e, hcreate₁, hcreate₂⟩ :=
      h.create_error fun loc hloc hnone => hfree ⟨loc, hloc, hnone⟩
    refine ⟨w₁, w₂, .error e, ?_, ?_, fun hok => by cases hok⟩
    · rw [writeSource, run_step (World.perform_create.trans hcreate₁)]
      rfl
    · rw [writeSource, run_step (World.perform_create.trans hcreate₂)]
      rfl

variable {t : Target} {extension : String}

/-- Without faults, generating a target is resolving its resource and writing its source. -/
theorem run_generateTarget_of_faultless (hs : s.Faultless)
    (hext : t.declaration.binding.extension? = some extension) (w : World) :
    ∃ w', w'.files = w.files ∧ w'.written = w.written ∧
      ∀ answer, (Resolver.resolve w.files s.here s.layout (t.declaration.resource extension)).2 =
          answer →
        (generateTarget s.templates t).run s w =
          match answer with
          | .error e => (w', .error e)
          | .ok text =>
              match s.templates.render t.strategy.templateId
                (t.bindings (t.declaration.resource extension).fileName text) with
              | .error missing => (w', .error (.template missing))
              | .ok source => (writeSource t.name source).run s w' := by
  refine ⟨(w.resolve s (t.declaration.resource extension)).1, w.files_resolve s _,
    w.written_resolve s _, fun answer hanswer => ?_⟩
  have hresolve : w.perform s (.resolve (t.declaration.resource extension)) =
      ((w.resolve s (t.declaration.resource extension)).1, answer) := by
    show w.resolve s _ = _
    rw [← hanswer]
    unfold World.resolve
    rw [hs.faultAt?]
  unfold Declaration.resource at hresolve ⊢
  unfold generateTarget
  dsimp only
  rw [hext]
  dsimp only
  rw [run_step hresolve]
  cases answer with
  | error e => rfl
  | ok text =>
      cases hsource : s.templates.render t.strategy.templateId
          (t.bindings (ResourceName.fileName ⟨t.declaration.package, t.declaration.simpleName,
            extension⟩) text) with
      | error missing =>
          simp only [hsource]
          rfl
      | ok source => simp only [hsource]

/-- **Runs that find the same generate the same.** -/
theorem SeenAlike.run_generateTarget (hs : s.Faultless)
    (hext : t.declaration.binding.extension? = some extension)
    (h : SeenAlike s t extension w₁ w₂) :
    ∃ w₁' w₂' answer, (generateTarget s.templates t).run s w₁ = (w₁', answer) ∧
      (generateTarget s.templates t).run s w₂ = (w₂', answer) ∧
      (answer = .ok () → AddAlike s t.name w₁ w₁' w₂ w₂') := by
  obtain ⟨v₁, hfiles₁, hwritten₁, hrun₁⟩ := run_generateTarget_of_faultless hs hext w₁
  obtain ⟨v₂, hfiles₂, hwritten₂, hrun₂⟩ := run_generateTarget_of_faultless hs hext w₂
  rw [hrun₁ _ rfl, hrun₂ _ h.resolved]
  cases (Resolver.resolve w₁.files s.here s.layout (t.declaration.resource extension)).2 with
  | error e => exact ⟨v₁, v₂, .error e, rfl, rfl, fun hok => by cases hok⟩
  | ok text =>
      dsimp only
      cases s.templates.render t.strategy.templateId
        (t.bindings (t.declaration.resource extension).fileName text) with
      | error missing => exact ⟨v₁, v₂, .error _, rfl, rfl, fun hok => by cases hok⟩
      | ok source =>
          have hfound : FoundAlike s t.name v₁.files v₂.files := by
            rw [hfiles₁, hfiles₂]
            exact h.found
          obtain ⟨w₁', w₂', answer, hw₁, hw₂, hadds⟩ := hfound.run_writeSource hs source
          refine ⟨w₁', w₂', answer, hw₁, hw₂, fun hok => ?_⟩
          obtain ⟨bytes, place, hadds₁, hadds₂⟩ := hadds hok
          exact ⟨bytes, place, hadds₁.of_files_eq hfiles₁ hwritten₁,
            hadds₂.of_files_eq hfiles₂ hwritten₂⟩

end

/-! ## The second provider, once the first is through -/

section

variable {s : Setting} {d : Declaration} {extension name : String} {place : Location}
  {a b : FileSystem} {w w₁ w₂ : World}

/-- Below roots where the path of a name does not lead to the place, sources are found alike. -/
theorem sourceUnder_eq_of_differAt (hd : DifferAt place w₁.files w₂.files) {roots : List Path}
    (hroots : ∀ root ∈ roots,
      w₁.files.locate s.here (Layout.sourceFile root name) ≠ .ok (.at place)) :
    w₂.sourceUnder s.here name roots = w₁.sourceUnder s.here name roots := by
  induction roots with
  | nil => rfl
  | cons root rest ih =>
      simp only [World.sourceUnder, hd.isFile_eq (hroots root List.mem_cons_self),
        ih fun r hr => hroots r (List.mem_cons_of_mem _ hr)]

/-- Where the path of the first provider leads to the place at which the states differ, they are the same
for the second. -/
theorem foundAlike_embedding (hd : DifferAt place a b)
    (hleads : a.locate s.here (s.pathFor d.loading.name) = .ok (.at place)) :
    FoundAlike s d.embedding.name a b := by
  have hparent : (s.pathFor d.embedding.name).parent = (s.pathFor d.loading.name).parent := by
    unfold Setting.pathFor
    rw [Target.sourceFile_beside, Target.sourceFile_beside, Path.parent, Path.parent,
      List.dropLast_concat, List.dropLast_concat]
    rfl
  have hleads' := hd.locate_eq_ok_iff.mpr hleads
  have hlocate : b.locate s.here (s.pathFor d.embedding.name) =
      a.locate s.here (s.pathFor d.embedding.name) := by
    obtain ⟨dir, -, hdir, -⟩ := locate_at hleads
    obtain ⟨hanchor, hparts⟩ := Path.mk.inj hparent
    have hdir' := enterAll_of_keepsDirectories hd.keepsDirectories hdir
    rw [← hparts, ← hanchor] at hdir hdir'
    unfold locate
    dsimp only
    rw [hdir, hdir']
  refine ⟨?_, ?_, hlocate, fun loc hloc => ?_⟩
  · rw [hparent]
    exact makeDirs_of_locate hleads
  · rw [hparent]
    exact makeDirs_of_locate hleads'
  · have hne : loc ≠ place := by
      rintro rfl
      have hembedding : a.locate s.here (s.pathFor d.embedding.name) ≠ .ok (.at loc) :=
        Target.locate_ne (by decide) hleads
      exact hembedding hloc
    rw [hd.elsewhere loc hne]

theorem seenAlike_embedding (hd : DifferAt place w₁.files w₂.files)
    (hleads : w₁.files.locate s.here (s.pathFor d.loading.name) = .ok (.at place))
    (hrecorded : w₂.written.contains d.embedding.name = w₁.written.contains d.embedding.name)
    (hresolved : (Resolver.resolve w₂.files s.here s.layout (d.resource extension)).2 =
      (Resolver.resolve w₁.files s.here s.layout (d.resource extension)).2) :
    SeenAlike s d.embedding extension w₁ w₂ := by
  refine ⟨?_, hresolved, foundAlike_embedding hd hleads⟩
  have hunder : w₂.sourceUnder s.here d.embedding.name (s.layout.output :: s.layout.sources) =
      w₁.sourceUnder s.here d.embedding.name (s.layout.output :: s.layout.sources) :=
    sourceUnder_eq_of_differAt hd fun root _ => Target.locate_ne (by decide) hleads
  simp only [World.lookup, hrecorded, hunder]

/-- States that are alike are the same for the first provider too. -/
theorem seenAlike_loading (hd : Alike place a b)
    (hleads : a.locate s.here (s.pathFor d.loading.name) = .ok (.at place))
    (helsewhere : Resolver.LooksElsewhere a s.here place (d.resource extension) s.layout.searchRoots) :
    SeenAlike s d.loading extension { w with files := a } { w with files := b } := by
  have hleads' := hd.locate_eq_ok_iff.mpr hleads
  refine ⟨?_, ?_, makeDirs_of_locate hleads, makeDirs_of_locate hleads', hd.locate_eq _ _, ?_⟩
  · have hunder (roots : List Path) :
        ({ w with files := b } : World).sourceUnder s.here d.loading.name roots =
          ({ w with files := a } : World).sourceUnder s.here d.loading.name roots := by
      induction roots with
      | nil => rfl
      | cons root rest ih => simp only [World.sourceUnder, hd.isFile_eq, ih]
    simp only [World.lookup, hunder]
  · exact congrArg Prod.snd (Resolver.search_eq_of_alike hd helsewhere)
  · intro loc hloc
    obtain rfl : place = loc := by
      have hplace := Except.ok.inj (hleads.symm.trans hloc)
      exact Place.at.inj hplace
    exact hd.nothing

end

/-! ## Targets -/

/-- Two runs list a name alike: it is skipped in both or in neither, written in both or in neither with
the same bytes, and the outcomes carry the same error if any. -/
structure ListAlike (s : Setting) (name : String) (w₁ w₂ : World) (o₁ o₂ : Outcome) : Prop where
  error : o₂.error = o₁.error
  skipped : name ∈ o₂.skipped ↔ name ∈ o₁.skipped
  written : name ∈ o₂.written ↔ name ∈ o₁.written
  contents : name ∈ o₁.written → ∃ bytes,
    w₁.files.fileAt? s.here (s.pathFor name) = some bytes ∧
      w₂.files.fileAt? s.here (s.pathFor name) = some bytes

/-- Two runs over targets list a name alike, and fail alike; without a failure the name is listed. -/
structure ComeAlike (s : Setting) (name : String)
    (r₁ r₂ : World × Outcome × Option GenerationFailure) : Prop
    extends ListAlike s name r₁.1 r₂.1 r₁.2.1 r₂.2.1 where
  failure : r₂.2.2 = r₁.2.2
  listed : r₁.2.2 = none → r₁.2.1.Lists name

/-- Two outcomes that are the same but for what they list, and do not list a name. -/
structure OmitAlike (name : String) (o₁ o₂ : Outcome) : Prop where
  error : o₂.error = o₁.error
  skipped : name ∉ o₁.skipped ∧ name ∉ o₂.skipped
  written : name ∉ o₁.written ∧ name ∉ o₂.written

section

variable {s : Setting} {name : String} {w₁ w₂ : World} {o₁ o₂ : Outcome}

theorem ComeAlike.symm {r₁ r₂ : World × Outcome × Option GenerationFailure}
    (h : ComeAlike s name r₁ r₂) : ComeAlike s name r₂ r₁ := by
  refine ⟨⟨h.error.symm, h.skipped.symm, h.written.symm, fun hname => ?_⟩, h.failure.symm,
    fun hnone => ?_⟩
  · obtain ⟨bytes, h₁, h₂⟩ := h.contents (h.written.mp hname)
    exact ⟨bytes, h₂, h₁⟩
  · exact (h.listed (h.failure.symm.trans hnone)).imp h.written.mpr h.skipped.mpr

/-- Runs that fail before they come to the name. -/
theorem OmitAlike.comeAlike (h : OmitAlike name o₁ o₂) (e : GenerationFailure) :
    ComeAlike s name (w₁, o₁, some e) (w₂, o₂, some e) :=
  ⟨⟨h.error, iff_of_false h.skipped.2 h.skipped.1, iff_of_false h.written.2 h.written.1,
    fun hname => absurd hname h.written.1⟩, rfl, nofun⟩

/-- **The last target is treated alike if what is found for it is the same.** -/
theorem SeenAlike.comeAlike (hs : s.Faultless) {t : Target} {extension : String}
    (hext : t.declaration.binding.extension? = some extension)
    (h : SeenAlike s t extension w₁ w₂) (ho : OmitAlike t.name o₁ o₂) :
    ComeAlike s t.name ((processTargets s.templates [t] o₁).run s w₁)
      ((processTargets s.templates [t] o₂).run s w₂) := by
  match hlookup : w₁.lookup s t.name with
  | .error e =>
      rw [run_processTargets_of_error hlookup, run_processTargets_of_error (h.looked.trans hlookup)]
      exact ho.comeAlike e
  | .ok true =>
      rw [run_processTargets_of_true hlookup, run_processTargets_of_true (h.looked.trans hlookup)]
      have hlisted (o : Outcome) : t.name ∈ o.skipped ++ [t.name] := by simp
      exact ⟨⟨ho.error, iff_of_true (hlisted o₂) (hlisted o₁),
        iff_of_false ho.written.2 ho.written.1, fun hname => absurd hname ho.written.1⟩, rfl,
        fun _ => .inr (hlisted o₁)⟩
  | .ok false =>
      rw [run_processTargets_of_false hlookup, run_processTargets_of_false (h.looked.trans hlookup)]
      obtain ⟨w₁', w₂', answer, hrun₁, hrun₂, hadds⟩ := h.run_generateTarget hs hext
      rw [hrun₁, hrun₂]
      cases answer with
      | error e => exact ho.comeAlike e
      | ok _ =>
          obtain ⟨bytes, place, hadds₁, hadds₂⟩ := hadds rfl
          have hlisted (o : Outcome) : t.name ∈ o.written ++ [t.name] := by simp
          exact ⟨⟨ho.error, iff_of_false ho.skipped.2 ho.skipped.1,
            iff_of_true (hlisted o₂) (hlisted o₁),
            fun _ => ⟨bytes, hadds₁.fileAt?, hadds₂.fileAt?⟩⟩, rfl, fun _ => .inl (hlisted o₁)⟩

end

/-! ## Both targets -/

section

variable {s : Setting} {d : Declaration} {extension : String} {place : Location}
  {a b : FileSystem} {w : World}

theorem embedding_name_ne (d : Declaration) : d.embedding.name ≠ d.loading.name := by
  intro h
  have hstrategy := (Target.name_eq_name_iff.mp h).1
  cases hstrategy

/-- The outcome of a declaration before its first target. -/
def Declaration.untaken (d : Declaration) : Outcome :=
  ⟨d.name, [], [], none⟩

/-- As long as only the first provider is listed, the second is not. -/
theorem omitAlike_embedding {o₁ o₂ : Outcome} (herror : o₂.error = o₁.error)
    (h : ∀ name ∈ o₁.skipped ++ o₂.skipped ++ o₁.written ++ o₂.written, name = d.loading.name) :
    OmitAlike d.embedding.name o₁ o₂ := by
  have hnot : d.embedding.name ∉ o₁.skipped ++ o₂.skipped ++ o₁.written ++ o₂.written :=
    fun hmem => embedding_name_ne d (h _ hmem)
  simp only [List.mem_append, not_or] at hnot
  obtain ⟨⟨⟨hskipped₁, hskipped₂⟩, hwritten₁⟩, hwritten₂⟩ := hnot
  exact ⟨herror, ⟨hskipped₁, hskipped₂⟩, ⟨hwritten₁, hwritten₂⟩⟩

/-- Recording the first provider does not record the second. -/
theorem PutsSource.contains_embedding {w w' : World} {bytes : List UInt8}
    (h : PutsSource s d.loading.name bytes place w w') :
    w'.written.contains d.embedding.name = w.written.contains d.embedding.name := by
  rw [h.written, Bool.eq_iff_iff, List.contains_iff_mem, List.contains_iff_mem,
    World.mem_written_record]
  exact or_iff_left (embedding_name_ne d)

/-- **From states that are alike, both targets are treated alike.** -/
theorem comeAlike_of_alike (hs : s.Faultless) (hext : d.binding.extension? = some extension)
    (hd : Alike place a b)
    (hleads : a.locate s.here (s.pathFor d.loading.name) = .ok (.at place))
    (helsewhere : Resolver.LooksElsewhere a s.here place (d.resource extension)
      s.layout.searchRoots) :
    ComeAlike s d.embedding.name
      ((processTargets s.templates d.targets d.untaken).run s { w with files := a })
      ((processTargets s.templates d.targets d.untaken).run s { w with files := b }) := by
  have hloading : SeenAlike s d.loading extension { w with files := a } { w with files := b } :=
    seenAlike_loading hd hleads helsewhere
  have htargets : d.targets = d.loading :: [d.embedding] := rfl
  rw [htargets]
  match hlookup : ({ w with files := a } : World).lookup s d.loading.name with
  | .error e =>
      rw [run_processTargets_of_error hlookup,
        run_processTargets_of_error (hloading.looked.trans hlookup)]
      exact (omitAlike_embedding rfl (by simp [Declaration.untaken])).comeAlike e
  | .ok true =>
      rw [run_processTargets_of_true hlookup,
        run_processTargets_of_true (hloading.looked.trans hlookup)]
      have hseen : SeenAlike s d.embedding extension
          (({ w with files := a } : World).note [skippedNote d.loading.name])
          (({ w with files := b } : World).note [skippedNote d.loading.name]) :=
        seenAlike_embedding hd.toDifferAt hleads rfl
          (congrArg Prod.snd (Resolver.search_eq_of_alike hd helsewhere))
      exact hseen.comeAlike hs hext (omitAlike_embedding rfl (by simp [Declaration.untaken]))
  | .ok false =>
      rw [run_processTargets_of_false hlookup,
        run_processTargets_of_false (hloading.looked.trans hlookup)]
      have hext' : d.loading.declaration.binding.extension? = some extension := hext
      have hgenerated := hloading.run_generateTarget hs hext'
      obtain ⟨w₁, w₂, answer, hrun₁, hrun₂, hadds⟩ := hgenerated
      rw [hrun₁, hrun₂]
      cases answer with
      | error e => exact (omitAlike_embedding rfl (by simp [Declaration.untaken])).comeAlike e
      | ok _ =>
          obtain ⟨bytes, loc, hadds₁, hadds₂⟩ := hadds rfl
          obtain rfl : place = loc :=
            Place.at.inj (Except.ok.inj (hleads.symm.trans hadds₁.located))
          have hdiffer : DifferAt place w₁.files w₂.files :=
            hadds₁.differAt.symm.trans (hd.toDifferAt.trans hadds₂.differAt)
          have hnow : Alike place w₁.files w₂.files :=
            ⟨hdiffer, by rw [hadds₁.here, hadds₂.here]⟩
          have hseen : SeenAlike s d.embedding extension w₁ w₂ :=
            seenAlike_embedding hdiffer (hadds₁.differAt.locate_eq_ok_iff.mpr hleads)
              (hadds₂.contains_embedding.trans hadds₁.contains_embedding.symm)
              (congrArg Prod.snd (Resolver.search_eq_of_alike hnow
                (helsewhere.of_differAt hadds₁.differAt)))
          exact hseen.comeAlike hs hext (omitAlike_embedding rfl (by simp [Declaration.untaken]))

/-- A target is generated where its resource has a text and nothing stands at its place. -/
theorem run_generateTarget_of_free (hs : s.Faultless) {t : Target}
    (hext : t.declaration.binding.extension? = some extension) {text : String}
    (hresolved : (Resolver.resolve w.files s.here s.layout (t.declaration.resource extension)).2 =
      .ok text)
    (hloc : w.files.locate s.here (s.pathFor t.name) = .ok (.at place))
    (hnone : w.files.get? place = none) :
    ∃ w' bytes, (generateTarget s.templates t).run s w = (w', .ok ()) ∧
      PutsSource s t.name bytes place w w' := by
  obtain ⟨v, hfiles, hwritten, hrun⟩ := run_generateTarget_of_faultless hs hext w
  obtain ⟨source, hsource⟩ := hs.templates.render t.strategy
    (t.bindings (t.declaration.resource extension).fileName text)
  obtain ⟨w', hwrite, hadds⟩ := run_writeSource_of_free (w := v) hs source (hfiles ▸ hloc)
    (hfiles ▸ hnone)
  refine ⟨w', _, ?_, hadds.of_files_eq hfiles hwritten⟩
  rw [hrun _ hresolved]
  simp only [hsource]
  exact hwrite

/-- **Where nothing stands in one state and a file in the other, the second target is treated alike.** -/
theorem comeAlike_of_missing (hs : s.Faultless) (hext : d.binding.extension? = some extension)
    (hd : DifferAt place a b)
    (hleads : a.locate s.here (s.pathFor d.loading.name) = .ok (.at place))
    (hnone : a.get? place = none) {bytes : List UInt8} (hfile : b.get? place = some (.file bytes))
    (helsewhere : Resolver.LooksElsewhere a s.here place (d.resource extension)
      s.layout.searchRoots)
    {text text' : String}
    (hresolved : (Resolver.resolve a s.here s.layout (d.resource extension)).2 = .ok text)
    (hresolved' : (Resolver.resolve b s.here s.layout (d.resource extension)).2 = .ok text')
    (hlooked : ∃ found, ({ w with files := a } : World).lookup s d.loading.name = .ok found) :
    ComeAlike s d.embedding.name
      ((processTargets s.templates d.targets d.untaken).run s { w with files := a })
      ((processTargets s.templates d.targets d.untaken).run s { w with files := b }) := by
  have hleads' := hd.locate_eq_ok_iff.mpr hleads
  have hfound : ({ w with files := b } : World).lookup s d.loading.name = .ok true :=
    lookup_of_stands (stands_of_fileAt? (fileAt?_eq_some_iff.mpr ⟨place, hleads', hfile⟩))
  have htargets : d.targets = d.loading :: [d.embedding] := rfl
  rw [htargets, run_processTargets_of_true hfound]
  obtain ⟨found, hlookup⟩ := hlooked
  cases found with
  | true =>
      -- the first provider is recorded, or has a source below another root
      rw [run_processTargets_of_true hlookup]
      have htext : text' = text := String.toList_inj.mp
        (Resolver.findsUnder_eq hd helsewhere (Resolver.search_eq_ok_iff.mp hresolved)
          (Resolver.search_eq_ok_iff.mp hresolved'))
      have hseen : SeenAlike s d.embedding extension
          (({ w with files := a } : World).note [skippedNote d.loading.name])
          (({ w with files := b } : World).note [skippedNote d.loading.name]) :=
        seenAlike_embedding hd hleads rfl (hresolved'.trans (htext ▸ hresolved.symm))
      exact hseen.comeAlike hs hext (omitAlike_embedding rfl (by simp [Declaration.untaken]))
  | false =>
      -- the first provider is written, and then a file stands there in both states
      rw [run_processTargets_of_false hlookup]
      obtain ⟨w₁, written, hrun, hadds⟩ :=
        run_generateTarget_of_free (w := { w with files := a }) (t := d.loading) hs hext hresolved
          hleads hnone
      rw [hrun]
      have hdiffer : DifferAt place w₁.files b := hadds.differAt.symm.trans hd
      have hnow : Alike place w₁.files b := ⟨hdiffer, by rw [hadds.here, hfile]; simp⟩
      have hseen : SeenAlike s d.embedding extension w₁
          (({ w with files := b } : World).note [skippedNote d.loading.name]) :=
        seenAlike_embedding hdiffer (hadds.differAt.locate_eq_ok_iff.mpr hleads)
          hadds.contains_embedding.symm
          (congrArg Prod.snd (Resolver.search_eq_of_alike hnow
            (helsewhere.of_differAt hadds.differAt)))
      exact hseen.comeAlike hs hext (omitAlike_embedding rfl (by simp [Declaration.untaken]))

end

/-! ## Whole declarations -/

/-- Two states differ at most in what stands where the first provider of a declaration goes. -/
structure Declaration.DifferAtLoading (d : Declaration) (s : Setting) (a b : FileSystem) : Prop where
  leads : a.locate s.here (s.pathFor d.loading.name) = .ok (.at (s.placeFor d.loading.name))
  elsewhere : ∀ loc, loc ≠ s.placeFor d.loading.name → b.get? loc = a.get? loc

/-- Two runs of a declaration treat a provider alike: it is listed alike, and it is listed unless the
outcomes carry an error. -/
structure TreatAlike (s : Setting) (name : String) (w₁ w₂ : World) (o₁ o₂ : Outcome) : Prop
    extends ListAlike s name w₁ w₂ o₁ o₂ where
  listed : o₁.error = none → o₁.Lists name

section

variable {s : Setting} {d : Declaration} {extension : String} {a b : FileSystem} {w : World}

/-- What targets come to alike, the declaration comes to alike. -/
theorem ComeAlike.run_processDeclaration (hs : s.Faultless) (hvalid : d.validate = .ok ())
    {name : String} {w₁ w₂ : World}
    (h : ComeAlike s name ((processTargets s.templates d.targets d.untaken).run s w₁)
      ((processTargets s.templates d.targets d.untaken).run s w₂)) :
    ∃ w₁' w₂' o₁ o₂, (processDeclaration s.templates d).run s w₁ = (w₁', .ok o₁) ∧
      (processDeclaration s.templates d).run s w₂ = (w₂', .ok o₂) ∧
      TreatAlike s name w₁' w₂' o₁ o₂ := by
  have hgoes := (yields_processTargets hs.failsSoftly d.targets d.untaken).run w₁
  rw [run_processDeclaration_of_valid hvalid, run_processDeclaration_of_valid hvalid]
  unfold Declaration.untaken at h hgoes
  generalize (processTargets s.templates d.targets ⟨d.name, [], [], none⟩).run s w₁ = r₁ at h hgoes ⊢
  generalize (processTargets s.templates d.targets ⟨d.name, [], [], none⟩).run s w₂ = r₂ at h ⊢
  obtain ⟨v₁, o₁, failure?⟩ := r₁
  obtain ⟨v₂, o₂, failure?'⟩ := r₂
  obtain ⟨hlist, rfl, hlisted⟩ : ListAlike s name v₁ v₂ o₁ o₂ ∧ failure?' = failure? ∧
      (failure? = none → o₁.Lists name) := ⟨h.toListAlike, h.failure, h.listed⟩
  cases failure?' with
  | none => exact ⟨v₁, v₂, o₁, o₂, rfl, rfl, hlist, fun _ => hlisted rfl⟩
  | some e =>
      have hends : e.endsBatch = false := hgoes e rfl
      have hfails (v : World) (o : Outcome) : (o.failWith e).run s v =
          (v.report (failureDiagnostic o.name e), .ok { o with error := some e.report }) := by
        rw [run_failWith, hends]
        rfl
      exact ⟨_, _, _, _, hfails v₁ o₁, hfails v₂ o₂,
        ⟨⟨rfl, hlist.skipped, hlist.written, hlist.contents⟩, nofun⟩⟩

/-- **The file of the provider that loads its resource does not decide about the provider that carries the
text**, unless it decides whether the first one fails.  Two states are the same but for what stands where
the first provider goes, a directory in both or in neither, and the look-up of the first provider fails in
both or in neither.  The resource has a text in both and is not looked for at that place.  Then the
declaration is taken through from both, whatever else stands in them, and its second provider is treated
alike. -/
theorem embedding_treated_alike (hs : s.Faultless) (hvalid : d.validate = .ok ())
    (hext : d.binding.extension? = some extension) (hdiffer : d.DifferAtLoading s a b)
    (hdirectory : b.get? (s.placeFor d.loading.name) = some .directory ↔
      a.get? (s.placeFor d.loading.name) = some .directory)
    (hlooked : (∃ found, ({ w with files := a } : World).lookup s d.loading.name = .ok found) ↔
      ∃ found, ({ w with files := b } : World).lookup s d.loading.name = .ok found)
    (hresolved : ∃ text, (Resolver.resolve a s.here s.layout (d.resource extension)).2 = .ok text)
    (hresolved' : ∃ text, (Resolver.resolve b s.here s.layout (d.resource extension)).2 = .ok text)
    (helsewhere : Resolver.LooksElsewhere a s.here (s.placeFor d.loading.name)
      (d.resource extension) s.layout.searchRoots) :
    ∃ w₁ w₂ o₁ o₂,
      (processDeclaration s.templates d).run s { w with files := a } = (w₁, .ok o₁) ∧
      (processDeclaration s.templates d).run s { w with files := b } = (w₂, .ok o₂) ∧
      TreatAlike s d.embedding.name w₁ w₂ o₁ o₂ := by
  obtain ⟨hleads, hothers⟩ := hdiffer
  have hd : DifferAt (s.placeFor d.loading.name) a b := ⟨hothers, hdirectory⟩
  have hleads' := hd.locate_eq_ok_iff.mpr hleads
  obtain ⟨text, htext⟩ := hresolved
  obtain ⟨text', htext'⟩ := hresolved'
  -- where a file stands, the first provider is found
  have hfound {fs : FileSystem} {bytes : List UInt8}
      (hloc : fs.locate s.here (s.pathFor d.loading.name) = .ok (.at (s.placeFor d.loading.name)))
      (hfile : fs.get? (s.placeFor d.loading.name) = some (.file bytes)) :
      ({ w with files := fs } : World).lookup s d.loading.name = .ok true :=
    lookup_of_stands (stands_of_fileAt? (fileAt?_eq_some_iff.mpr ⟨_, hloc, hfile⟩))
  cases ha : a.get? (s.placeFor d.loading.name) with
  | none =>
      cases hb : b.get? (s.placeFor d.loading.name) with
      | none =>
          have halike : Alike (s.placeFor d.loading.name) a b := ⟨hd, by rw [ha, hb]⟩
          exact (comeAlike_of_alike hs hext halike hleads helsewhere).run_processDeclaration hs hvalid
      | some e =>
          cases e with
          | directory => cases (hdirectory.mp hb).symm.trans ha
          | file bytes =>
              exact (comeAlike_of_missing hs hext hd hleads ha hb helsewhere htext htext'
                (hlooked.mpr ⟨true, hfound hleads' hb⟩)).run_processDeclaration hs hvalid
  | some e =>
      cases hb : b.get? (s.placeFor d.loading.name) with
      | none =>
          cases e with
          | directory => cases (hdirectory.mpr ha).symm.trans hb
          | file bytes =>
              have hmissing := comeAlike_of_missing (w := w) hs hext hd.symm hleads' hb ha
                (helsewhere.of_differAt hd) htext' htext (hlooked.mp ⟨true, hfound hleads ha⟩)
              exact hmissing.symm.run_processDeclaration hs hvalid
      | some e' =>
          have halike : Alike (s.placeFor d.loading.name) a b := ⟨hd, by rw [ha, hb]; simp⟩
          exact (comeAlike_of_alike hs hext halike hleads helsewhere).run_processDeclaration hs hvalid

end

/-! ## A provider in the way, and a directory in the way -/

namespace InTheWay

/-- One root for sources and one for what is generated. -/
def setting : Setting :=
  { layout := ⟨[⟨.here, ["src"]⟩], [], ⟨.here, ["out"]⟩⟩, here := [] }

/-- A type with its resource, of which nothing is generated yet. -/
def declaration : Declaration :=
  { name := "com.acme.A" }

/-- Where its first provider goes. -/
def place : Location :=
  ["out", "com", "acme", "AProvider.java"]

/-- The resource, and the directories for the providers. -/
def files : FileSystem :=
  ⟨[(["src"], .directory), (["src", "com"], .directory), (["src", "com", "acme"], .directory),
    (["src", "com", "acme", "A.txt"], .file [0x68, 0x69]), (["out"], .directory),
    (["out", "com"], .directory), (["out", "com", "acme"], .directory)]⟩

theorem differAtLoading (e : Entry) :
    declaration.DifferAtLoading setting files (files.put place e) := by
  have hplace : setting.placeFor declaration.loading.name = place := by decide +kernel
  refine ⟨?_, fun loc hne => ?_⟩
  · rw [hplace]
    decide +kernel
  · rw [hplace] at hne
    exact get?_put_of_ne files hne e

theorem faultless : setting.Faultless :=
  ⟨fun _ => rfl, by decide⟩

/-- Nothing stands there in one state, in the other a file that somebody wrote. -/
theorem embedding_treated_alike_handwritten :
    declaration.DifferAtLoading setting files (files.put place (.file [])) ∧
    ∃ w₁ w₂ o₁ o₂,
      (processDeclaration setting.templates declaration).run setting { files } = (w₁, .ok o₁) ∧
      (processDeclaration setting.templates declaration).run setting
        { files := files.put place (.file []) } = (w₂, .ok o₂) ∧
      TreatAlike setting declaration.embedding.name w₁ w₂ o₁ o₂ := by
  have hext : declaration.binding.extension? = some "txt" := by decide
  have hdiffer := differAtLoading (.file [])
  refine ⟨hdiffer, ?_⟩
  exact embedding_treated_alike (w := { files }) faultless (by decide) hext hdiffer
    (by decide +kernel) ⟨fun _ => ⟨true, by decide +kernel⟩, fun _ => ⟨false, by decide +kernel⟩⟩
    ⟨"hi", by decide +kernel⟩ ⟨"hi", by decide +kernel⟩
    fun _ _ => Declaration.locate_resource_ne hext (by decide) hdiffer.leads

/-- A directory stands there in one state.  The second provider could be made, but it is not come to. -/
theorem directory_decides_about_embedding :
    let blocked := files.put place .directory
    (setting.Faultless ∧ declaration.validate = .ok () ∧
      declaration.DifferAtLoading setting files blocked) ∧
    (Resolver.resolve files [] setting.layout (declaration.resource "txt")).2 = .ok "hi" ∧
    (Resolver.resolve blocked [] setting.layout (declaration.resource "txt")).2 = .ok "hi" ∧
    (({ files := blocked } : World).create setting declaration.embedding.name).2 =
      .ok ["out", "com", "acme", "AProviderJ2cl.java"] ∧
    ¬∃ w₁ w₂ o₁ o₂,
      (processDeclaration setting.templates declaration).run setting { files } = (w₁, .ok o₁) ∧
      (processDeclaration setting.templates declaration).run setting { files := blocked } =
        (w₂, .ok o₂) ∧
      TreatAlike setting declaration.embedding.name w₁ w₂ o₁ o₂ := by
  intro blocked
  refine ⟨⟨faultless, by decide, differAtLoading .directory⟩, by decide +kernel, by decide +kernel,
    by decide +kernel, ?_⟩
  rintro ⟨w₁, w₂, o₁, o₂, hrun₁, hrun₂, htreated⟩
  have hwritten : ((processDeclaration setting.templates declaration).run setting
      { files }).2.toOption.map (·.written) =
        some ["com.acme.AProvider", "com.acme.AProviderJ2cl"] := by decide +kernel
  have hblocked : ((processDeclaration setting.templates declaration).run setting
      { files := blocked }).2.toOption.map (·.written) = some [] := by decide +kernel
  rw [hrun₁] at hwritten
  rw [hrun₂] at hblocked
  have hwritten : o₁.written = ["com.acme.AProvider", "com.acme.AProviderJ2cl"] :=
    Option.some.inj hwritten
  have hblocked : o₂.written = [] := Option.some.inj hblocked
  have hmem := htreated.written.mpr (by rw [hwritten]; decide)
  rw [hblocked] at hmem
  cases hmem

end InTheWay

end TextProviders
