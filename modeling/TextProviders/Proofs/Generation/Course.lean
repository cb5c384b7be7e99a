import TextProviders.Proofs.Generation.Ownership

/-!
# The course of a declaration

What the programs of a declaration do to the sources of its providers, whatever others do to other
sources in between, and what they need for it: that the others leave alone the names that are owned.
The statements are about a program that starts in any world and are put together from those about its
steps; a program that owns none of its names still leaves all others alone.

A target at which a declaration came past is through (`Target.IsThrough`): its provider existed and
nothing was done about it, or it was written as a whole.  The declaration fails at the next one, if
there is one, and nothing was done about that and about those behind it (`Comes`).  Calls may fail
softly here; if no call fails, the targets that a declaration comes past are those that are passed by
their fates (`meets_processDeclaration`).
-/

namespace TextProviders

open Program

/-! ## Writing -/

section

variable {s : Setting} {old : FileSystem} {own : String → Prop} {name : String} {w : World}

/-- A source that was made is being written: its bytes are known if its name is owned. -/
def Writing (s : Setting) (old : FileSystem) (own : String → Prop) (name : String)
    (known : List UInt8 → Prop) (w : World) : Prop :=
  Made s old name w ∧ (own name → ∃ bytes, Holds s name bytes w ∧ known bytes)

theorem Writing.of_leavesAlone (hname : IsDotted name) {known : List UInt8 → Prop} {a b : World}
    (hl : LeavesAlone s old own a b) (h : Writing s old own name known a) :
    Writing s old own name known b := by
  refine ⟨h.1.of_leavesAlone hl, fun howned => ?_⟩
  obtain ⟨bytes, hholds, hknown⟩ := h.2 howned
  exact ⟨bytes, hholds.of_leavesAlone hl hname howned, hknown⟩

theorem meets_flush {P : World → Prop} {names : String → Prop}
    (hstable : ∀ a b, LeavesAlone s old own a b → P a → P b) (hP : P w) :
    (ofAction .flush).Meets s (LeavesAlone s old own) (LeavesAlone s old names)
      (fun w' _ => P w') w :=
  meets_owner_idle .flush (fun w => w.files_attempt s .flush) (fun w => w.written_attempt s .flush)
    hstable hP

theorem meets_close {P : World → Prop} {names : String → Prop}
    (hstable : ∀ a b, LeavesAlone s old own a b → P a → P b) (hP : P w) :
    (ofAction .close).Meets s (LeavesAlone s old own) (LeavesAlone s old names)
      (fun w' _ => P w') w :=
  meets_owner_idle .close (fun w => w.files_attempt s .close) (fun w => w.written_attempt s .close)
    hstable hP

theorem meets_note {P : World → Prop} {names : String → Prop} (n : Note)
    (hstable : ∀ a b, LeavesAlone s old own a b → P a → P b) (hP : P w) :
    (ofAction (.note n)).Meets s (LeavesAlone s old own) (LeavesAlone s old names)
      (fun w' _ => P w') w :=
  meets_owner_idle (.note n) (fun _ => rfl) (fun _ => rfl) hstable hP

theorem meets_report {P : World → Prop} {names : String → Prop} (d : Diagnostic)
    (hstable : ∀ a b, LeavesAlone s old own a b → P a → P b) (hP : P w) :
    (ofAction (.report d)).Meets s (LeavesAlone s old own) (LeavesAlone s old names)
      (fun w' _ => P w') w :=
  meets_owner_idle (.report d) (fun _ => rfl) (fun _ => rfl) hstable hP

/-- Closing after a failure answers with a failure. -/
theorem meets_closeAfter {P : World → Prop} {names : String → Prop} (e : GenerationFailure)
    (hstable : ∀ a b, LeavesAlone s old own a b → P a → P b) (hP : P w) :
    (closeAfter e).Meets s (LeavesAlone s old own) (LeavesAlone s old names)
      (fun w' answer => P w' ∧ answer ≠ .ok ()) w := by
  refine (meets_close hstable hP).bind fun w₁ answer hw₁ => ?_
  cases answer with
  | error later => exact .pure ⟨hw₁, nofun⟩
  | ok _ => exact .pure ⟨hw₁, nofun⟩

variable (hs : s.IsSeparate) (hname : IsDotted name)

include hs hname

/-- The text of a source is written to the file that was made: the whole of it, unless a call
fails. -/
theorem meets_writeText (source : String)
    (hw : Writing s old own name (· = []) w) :
    (writeText (s.placeFor name) source).Meets s (LeavesAlone s old own)
      (LeavesAlone s old (· ≠ name))
      (fun w' answer => Writing s old own name
        (fun bytes => answer = .ok () → bytes = Text.Utf8.encode source.toList) w') w := by
  have hholds (howned : own name) : Holds s name [] w := by
    obtain ⟨_, hholds, rfl⟩ := hw.2 howned
    exact hholds
  have hwrite := meets_write hs hname source hw.1 hholds
  simp only [List.nil_append] at hwrite
  have hstable (known : List UInt8 → Prop) (a b : World) (hl : LeavesAlone s old own a b) :
      Writing s old own name known a → Writing s old own name known b :=
    Writing.of_leavesAlone hname hl
  -- what a failed call leaves is closed, and the answer is a failure
  have hfailed (w₁ : World) (e : GenerationFailure)
      (hw₁ : Writing s old own name (fun _ => True) w₁) :
      (closeAfter e).Meets s (LeavesAlone s old own) (LeavesAlone s old (· ≠ name))
        (fun w' answer => Writing s old own name
          (fun bytes => answer = .ok () → bytes = Text.Utf8.encode source.toList) w') w₁ := by
    refine (meets_closeAfter e (hstable _) hw₁).weaken (fun _ _ => id) fun w₂ answer hw₂ => ?_
    refine ⟨hw₂.1.1, fun howned => ?_⟩
    obtain ⟨bytes, hholds, -⟩ := hw₂.1.2 howned
    exact ⟨bytes, hholds, fun hok => absurd hok hw₂.2⟩
  refine hwrite.bind fun w₁ answer hw₁ => ?_
  cases answer with
  | error e =>
      refine hfailed w₁ e ⟨hw₁.1, fun howned => ?_⟩
      obtain ⟨bytes, hholds, -⟩ := hw₁.2 howned
      exact ⟨bytes, hholds, trivial⟩
  | ok _ =>
      have hwhole : Writing s old own name (· = Text.Utf8.encode source.toList) w₁ := by
        refine ⟨hw₁.1, fun howned => ?_⟩
        obtain ⟨bytes, hholds, hknown⟩ := hw₁.2 howned
        exact ⟨bytes, hholds, hknown rfl⟩
      refine (meets_flush (hstable _) hwhole).bind fun w₂ answer hw₂ => ?_
      cases answer with
      | error e =>
          refine hfailed w₂ e ⟨hw₂.1, fun howned => ?_⟩
          obtain ⟨bytes, hholds, -⟩ := hw₂.2 howned
          exact ⟨bytes, hholds, trivial⟩
      | ok _ =>
          refine (meets_close (hstable _) hw₂).weaken (fun _ _ => id) fun w₃ answer hw₃ => ?_
          refine ⟨hw₃.1, fun howned => ?_⟩
          obtain ⟨bytes, hholds, hknown⟩ := hw₃.2 howned
          exact ⟨bytes, hholds, fun _ => hknown⟩

/-- A source that is owned is complete in the end, or nothing was done about it.  If no call fails it
is complete if and only if its path was clear. -/
theorem meets_writeSource (hsoft : s.FailsSoftly) (source : String)
    (hw : own name → Untouched s old name w) :
    (writeSource name source).Meets s (LeavesAlone s old own) (LeavesAlone s old (· ≠ name))
      (fun w' answer =>
        (answer = .ok () → own name →
          Complete s name source w' ∧ old.IsClear s.here (s.pathFor name)) ∧
        (∀ e, answer = .error e → own name →
          Untouched s old name w' ∧ (s.Faultless → ¬old.IsClear s.here (s.pathFor name)))) w := by
  have huntouched (a b : World) (hl : LeavesAlone s old own a b)
      (h : own name → Untouched s old name a) (howned : own name) : Untouched s old name b :=
    (h howned).of_leavesAlone hl hname howned
  have hcomplete (a b : World) (hl : LeavesAlone s old own a b)
      (h : own name → Complete s name source a) (howned : own name) : Complete s name source b :=
    (h howned).of_leavesAlone hl hname howned
  refine (meets_create hs hname hw).bind fun w₁ answer hw₁ => ?_
  cases answer with
  | error e =>
      refine .pure ⟨nofun, fun _ _ howned => ?_⟩
      obtain ⟨hsame, hclear⟩ := hw₁.2 e rfl howned
      exact ⟨hsame, fun _ => hclear⟩
  | ok place =>
      obtain ⟨hplace, hmade, hholds⟩ := hw₁.1 place rfl
      dsimp only
      rw [hplace]
      have hwriting : Writing s old own name (· = []) w₁ :=
        ⟨hmade, fun howned => ⟨[], (hholds howned).1, rfl⟩⟩
      refine ((meets_writeText hs hname source hwriting).and_yields
        (yields_writeText hsoft _ source)).bind fun w₂ answer hw₂ => ?_
      obtain ⟨⟨hmade₂, hbytes⟩, hfault⟩ := hw₂
      cases answer with
      | error e =>
          obtain ⟨hsystem, hnot⟩ := hfault e rfl
          dsimp only
          rw [if_pos hsystem]
          have hheld (howned : own name) : ∃ bytes, Holds s name bytes w₂ := by
            obtain ⟨bytes, hheld, -⟩ := hbytes howned
            exact ⟨bytes, hheld⟩
          refine (meets_discard hs hname hmade₂ hheld).bind fun w₃ answer hw₃ => ?_
          cases answer with
          | error _ =>
              exact .pure ⟨nofun, fun _ _ howned => ⟨hw₃ howned, fun h => absurd h hnot⟩⟩
          | ok _ =>
              exact .pure ⟨nofun, fun _ _ howned => ⟨hw₃ howned, fun h => absurd h hnot⟩⟩
      | ok _ =>
          have hwhole (howned : own name) : Complete s name source w₂ := by
            obtain ⟨bytes, hheld, hknown⟩ := hbytes howned
            exact hmade₂.complete (hknown rfl ▸ hheld)
          refine (meets_record hname hwhole).bind fun w₃ _ hw₃ => ?_
          refine (meets_note (wroteNote name) hcomplete hw₃).bind fun w₄ _ hw₄ => ?_
          exact .pure ⟨fun _ howned => ⟨hw₄ howned, (hholds howned).2⟩, nofun⟩

end

/-! ## Targets -/

/-- A declaration came past a target: the provider was there, or it was written as a whole. -/
def Target.IsThrough (t : Target) (s : Setting) (old : FileSystem) (w : World) : Prop :=
  match t.fate s old with
  | .skipped => Untouched s old t.name w
  | .written source => Complete s t.name source w
  | .failed => False

section

variable {s : Setting} {old : FileSystem} {own names : String → Prop} {t : Target} {w w' : World}

theorem Target.IsThrough.of_leavesAlone (hl : LeavesAlone s old names w w')
    (ht : IsDotted t.name) (howned : names t.name) (h : t.IsThrough s old w) :
    t.IsThrough s old w' := by
  unfold IsThrough at h ⊢
  split
  · next hfate =>
    rw [hfate] at h
    exact Untouched.of_leavesAlone hl ht howned h
  · next hfate =>
    rw [hfate] at h
    exact Complete.of_leavesAlone hl ht howned h
  · next hfate =>
    rw [hfate] at h
    exact h

theorem Target.isThrough_of_skipped (hfate : t.fate s old = .skipped)
    (h : Untouched s old t.name w) : t.IsThrough s old w := by
  unfold IsThrough
  rw [hfate]
  exact h

theorem Target.isThrough_of_written {source : String} (hfate : t.fate s old = .written source)
    (h : Complete s t.name source w) : t.IsThrough s old w := by
  unfold IsThrough
  rw [hfate]
  exact h

/-- A name that is not recorded is looked up in the files only. -/
theorem Untouched.lookup {name : String} (h : Untouched s old name w) :
    w.lookup s name = ({ files := w.files } : World).lookup s name := by
  unfold World.lookup
  rw [if_neg (mt List.contains_iff_mem.mp h.record), World.sourceUnder_eq]
  rfl

variable (hs : s.IsSeparate) (hc : old.Closed) (hfit : s.NamesFit) (hd : t.declaration.IsPlain)

include hs hc hfit hd

/-- A look-up of a name about which nothing was done tells the fate of its provider. -/
theorem fate_of_lookup (hg : Grown s old w.files) (h : Untouched s old t.name w) :
    (∀ e, w.lookup s t.name = .error e → t.fate s old = .failed) ∧
      (w.lookup s t.name = .ok true → t.fate s old = .skipped) ∧
      (w.lookup s t.name = .ok false → ({ files := old } : World).lookup s t.name = .ok false) := by
  have hfate := hg.fate_eq hs hc hfit hd h.entry
  rw [h.lookup]
  refine ⟨fun e he => ?_, fun htrue => ?_, fun hfalse => ?_⟩
  · rw [← hfate, Target.fate, he]
  · rw [← hfate, Target.fate, htrue]
  · exact hg.lookup_false hs hc hfit hd.target_isDotted h.entry hfalse

/-- The answer to a call for a resource, if the call does not fail, is what the search found before. -/
theorem Grown.answer_of_resolve (hg : Grown s old w.files) {ext : String}
    (hext : t.declaration.binding.extension? = some ext) {answer : Except GenerationFailure String}
    (hstep : w.resolve s ⟨t.declaration.package, t.declaration.simpleName, ext⟩ = (w', answer))
    (hgood : s.Faultless ∨ answer.isOk = true) :
    (Resolver.resolve old s.here s.layout
      ⟨t.declaration.package, t.declaration.simpleName, ext⟩).2 = answer := by
  rw [← hg.resolve_eq hs hc hfit hd hext]
  unfold World.resolve at hstep
  dsimp only at hstep
  split at hstep
  · next f hf =>
    obtain ⟨-, rfl⟩ := Prod.mk.inj hstep
    rcases hgood with hfaultless | hok
    · cases (hfaultless.faultAt? w .resolve).symm.trans hf
    · cases hok
  · exact (Prod.mk.inj hstep).2

/-- The resource is what it was. -/
theorem meets_resolve {names : String → Prop} {ext : String}
    (hext : t.declaration.binding.extension? = some ext) {P : World → Prop}
    (hstable : ∀ a b, LeavesAlone s old own a b → P a → P b) (hP : P w) :
    (ofAction (.resolve ⟨t.declaration.package, t.declaration.simpleName, ext⟩)).Meets s
      (LeavesAlone s old own) (LeavesAlone s old names)
      (fun w' answer => P w' ∧ (s.Faultless ∨ answer.isOk = true →
        (Resolver.resolve old s.here s.layout
          ⟨t.declaration.package, t.declaration.simpleName, ext⟩).2 = answer)) w := by
  refine meets_ofAction (.resolve _) fun w₁ hw₁ w₂ answer hstep => ?_
  have hfiles := w₁.files_resolve s ⟨t.declaration.package, t.declaration.simpleName, ext⟩
  have hwritten := w₁.written_resolve s ⟨t.declaration.package, t.declaration.simpleName, ext⟩
  change w₁.resolve s _ = _ at hstep
  rw [hstep] at hfiles hwritten
  have hidle (some : String → Prop) : LeavesAlone s old some w₁ w₂ :=
    .of_eq hw₁.grown hfiles hwritten
  exact ⟨hidle names, hstable _ _ (hidle own) (hstable _ _ hw₁ hP),
    hw₁.grown.answer_of_resolve hs hc hfit hd hext hstep⟩

/-- A provider that was not found is written, or nothing is done about it.  If no call fails, its fate
decides. -/
theorem meets_generateTarget (hsoft : s.FailsSoftly)
    (hw : own t.name → Untouched s old t.name w)
    (hfresh : own t.name → ({ files := old } : World).lookup s t.name = .ok false) :
    (generateTarget s.templates t).Meets s (LeavesAlone s old own) (LeavesAlone s old (· ≠ t.name))
      (fun w' answer =>
        (answer = .ok () → own t.name → (t.fate s old).isWritten = true ∧ t.IsThrough s old w') ∧
        (∀ e, answer = .error e → own t.name →
          Untouched s old t.name w' ∧ (s.Faultless → t.fate s old = .failed))) w := by
  have ht : IsDotted t.name := hd.target_isDotted
  have hfailed (howned : own t.name)
      (hnot : ∀ source, t.source? s old = some source → ¬old.IsClear s.here (s.pathFor t.name)) :
      t.fate s old = .failed := by
    refine (Target.fate_eq_failed_iff hs ht).mpr ⟨fun hstands => ?_, fun source h => ?_⟩
    · cases (hfresh howned).symm.trans hstands
    · exact hnot source h.2.1 h.2.2
  have huntouched (a b : World) (hl : LeavesAlone s old own a b)
      (h : own t.name → Untouched s old t.name a) (howned : own t.name) :
      Untouched s old t.name b :=
    (h howned).of_leavesAlone hl ht howned
  unfold generateTarget
  dsimp only
  split
  · next hext =>
    refine .pure ⟨nofun, fun _ _ howned => ⟨hw howned, fun _ => hfailed howned ?_⟩⟩
    simp [Target.source?, hext]
  · next ext hext =>
    refine (meets_resolve hs hc hfit hd hext huntouched hw).bind fun w₁ answer hw₁ => ?_
    obtain ⟨hw₁, hresolved⟩ := hw₁
    cases answer with
    | error e =>
        refine .pure ⟨nofun, fun _ _ howned => ⟨hw₁ howned, fun hf => hfailed howned ?_⟩⟩
        simp [Target.source?, hext, hresolved (.inl hf), Except.toOption]
    | ok text =>
        have hfound := hresolved (.inr rfl)
        dsimp only
        split
        · next missing hrender =>
          refine .pure ⟨nofun, fun _ _ howned => ⟨hw₁ howned, fun _ => hfailed howned ?_⟩⟩
          simp [Target.source?, hext, hfound, hrender, Except.toOption]
        · next source hrender =>
          have hsource : t.source? s old = some source := by
            simp [Target.source?, hext, hfound, hrender, Except.toOption]
          refine (meets_writeSource hs ht hsoft source hw₁).weaken (fun _ _ => id) ?_
          intro w₂ answer hw₂
          refine ⟨fun hok howned => ?_, fun e he howned => ?_⟩
          · obtain ⟨hcomplete, hclear⟩ := hw₂.1 hok howned
            have hfate : t.fate s old = .written source :=
              (Target.fate_eq_written_iff hs ht).mpr ⟨hfresh howned, hsource, hclear⟩
            exact ⟨by rw [hfate]; rfl, Target.isThrough_of_written hfate hcomplete⟩
          · obtain ⟨hsame, hclear⟩ := hw₂.2 e he howned
            exact ⟨hsame, fun hf => hfailed howned fun _ _ => hclear hf⟩

end

/-- Of some targets a declaration came past the first ones, and nothing was done about the others. -/
structure Comes (s : Setting) (old : FileSystem) (ts done rest : List Target) (w : World) : Prop where
  all : ts = done ++ rest
  through : ∀ t ∈ done, t.IsThrough s old w
  untouched : ∀ t ∈ rest, Untouched s old t.name w

/-- The lists of an outcome go on with the targets that a declaration came past. -/
structure Outcome.GoesOn (o o' : Outcome) (s : Setting) (old : FileSystem) (done : List Target) :
    Prop where
  name : o'.name = o.name
  written : o'.written = o.written ++ (done.filter fun t => (t.fate s old).isWritten).map Target.name
  skipped : o'.skipped = o.skipped ++ (done.filter fun t => t.fate s old = .skipped).map Target.name
  error : o'.error = o.error

/-- What a run over targets comes to if all their names are owned. -/
structure Ends (s : Setting) (old : FileSystem) (ts : List Target) (o o' : Outcome)
    (failure? : Option GenerationFailure) (done rest : List Target) (w : World) : Prop where
  comes : Comes s old ts done rest w
  lists : o.GoesOn o' s old done
  failure : failure? = none ↔ rest = []
  fails : s.Faultless → ∀ t ∈ rest.head?, t.fate s old = .failed

section

variable {s : Setting} {old : FileSystem} {own : String → Prop} {ts : List Target} {w : World}

theorem Ends.nil (o : Outcome) : Ends s old [] o o none [] [] w :=
  ⟨⟨rfl, by simp, by simp⟩, ⟨rfl, by simp, by simp, rfl⟩, by simp, by simp⟩

/-- The first target was not come past. -/
theorem Ends.fail {t : Target} {rest : List Target} (o : Outcome) (e : GenerationFailure)
    (h : ∀ t' ∈ t :: rest, Untouched s old t'.name w) (hfate : s.Faultless → t.fate s old = .failed) :
    Ends s old (t :: rest) o o (some e) [] (t :: rest) w :=
  ⟨⟨rfl, by simp, h⟩, ⟨rfl, by simp, by simp, rfl⟩, by simp, by simpa using hfate⟩

theorem Ends.skip {t : Target} {ts done rest : List Target} {o o' : Outcome}
    {failure? : Option GenerationFailure} (hfate : t.fate s old = .skipped)
    (ht : t.IsThrough s old w)
    (h : Ends s old ts { o with skipped := o.skipped ++ [t.name] } o' failure? done rest w) :
    Ends s old (t :: ts) o o' failure? (t :: done) rest w := by
  obtain ⟨⟨hall, hthrough, hrest⟩, ⟨hname, hwritten, hskipped, herror⟩, hfailure, hfails⟩ := h
  refine ⟨⟨by simp [hall], ?_, hrest⟩, ⟨hname, ?_, ?_, herror⟩, hfailure, hfails⟩
  · simpa [ht] using hthrough
  · simp [hwritten, hfate, Fate.isWritten]
  · simp [hskipped, hfate]

theorem Ends.write {t : Target} {ts done rest : List Target} {o o' : Outcome}
    {failure? : Option GenerationFailure} (hfate : (t.fate s old).isWritten = true)
    (ht : t.IsThrough s old w)
    (h : Ends s old ts { o with written := o.written ++ [t.name] } o' failure? done rest w) :
    Ends s old (t :: ts) o o' failure? (t :: done) rest w := by
  obtain ⟨⟨hall, hthrough, hrest⟩, ⟨hname, hwritten, hskipped, herror⟩, hfailure, hfails⟩ := h
  have hnot : t.fate s old ≠ .skipped := by
    intro hskip
    rw [hskip] at hfate
    cases hfate
  refine ⟨⟨by simp [hall], ?_, hrest⟩, ⟨hname, ?_, ?_, herror⟩, hfailure, hfails⟩
  · simpa [ht] using hthrough
  · simp [hwritten, hfate]
  · simp [hskipped, hnot]

variable (hs : s.IsSeparate) (hc : old.Closed) (hfit : s.NamesFit) (hsoft : s.FailsSoftly)

include hs hc hfit hsoft

/-- A run over targets of different names. -/
theorem meets_processTargets (hplain : ∀ t ∈ ts, t.declaration.IsPlain)
    (hnames : (ts.map Target.name).Nodup) (o : Outcome)
    (hw : ∀ t ∈ ts, own t.name → Untouched s old t.name w) :
    (processTargets s.templates ts o).Meets s (LeavesAlone s old own)
      (LeavesAlone s old fun name => ∀ t ∈ ts, t.name ≠ name)
      (fun w' result => (∀ t ∈ ts, own t.name) →
        ∃ done rest, Ends s old ts o result.1 result.2 done rest w') w := by
  induction ts generalizing o w with
  | nil => exact .pure fun _ => ⟨[], [], .nil o⟩
  | cons t rest ih =>
      simp only [List.map_cons, List.nodup_cons, List.mem_map, not_exists, not_and] at hnames
      obtain ⟨hother, hrest⟩ := hnames
      have hplain' : ∀ t' ∈ rest, t'.declaration.IsPlain := fun t' ht' =>
        hplain t' (List.mem_cons_of_mem _ ht')
      have hd : t.declaration.IsPlain := hplain t List.mem_cons_self
      have ht : IsDotted t.name := hd.target_isDotted
      have hstable (a b : World) (hl : LeavesAlone s old own a b)
          (h : ∀ t' ∈ t :: rest, own t'.name → Untouched s old t'.name a) :
          ∀ t' ∈ t :: rest, own t'.name → Untouched s old t'.name b :=
        fun t' ht' howned => (h t' ht' howned).of_leavesAlone hl (hplain t' ht').target_isDotted howned
      -- the rest, behind a target that was come past
      have hlater (w₁ : World) (o₁ : Outcome) (hthrough : own t.name → t.IsThrough s old w₁)
          (hw₁ : ∀ t' ∈ rest, own t'.name → Untouched s old t'.name w₁) :
          (processTargets s.templates rest o₁).Meets s (LeavesAlone s old own)
            (LeavesAlone s old fun name => ∀ t' ∈ t :: rest, t'.name ≠ name)
            (fun w' result => (own t.name → t.IsThrough s old w') ∧ ((∀ t' ∈ rest, own t'.name) →
              ∃ done last, Ends s old rest o₁ result.1 result.2 done last w')) w₁ := by
        have hmeets := ((ih hplain' hrest o₁ hw₁).frame (P := fun w => own t.name → t.IsThrough s old w)
          (fun a b hl h howned => (h howned).of_leavesAlone hl ht howned)
          (fun a b hl h howned => (h howned).of_leavesAlone hl ht hother) hthrough)
        refine hmeets.weaken (fun a b hl => hl.mono fun name hnot t' ht' => ?_) fun _ _ => id
        exact hnot t' (List.mem_cons_of_mem _ ht')
      have hlookup : (ofAction (.lookup t.name)).Meets s (LeavesAlone s old own)
          (LeavesAlone s old fun name => ∀ t' ∈ t :: rest, t'.name ≠ name)
          (fun w' answer => (∀ t' ∈ t :: rest, own t'.name → Untouched s old t'.name w') ∧
            (own t.name → (∀ e, answer = .error e → t.fate s old = .failed) ∧
              (answer = .ok true → t.fate s old = .skipped) ∧
              (answer = .ok false → ({ files := old } : World).lookup s t.name = .ok false))) w := by
        refine meets_ofAction (.lookup t.name) fun w₁ hw₁ w₂ answer hstep => ?_
        obtain ⟨rfl, rfl⟩ := Prod.mk.inj hstep
        have huntouched := hstable w w₁ hw₁ hw
        exact ⟨.refl hw₁.grown, huntouched, fun howned =>
          fate_of_lookup hs hc hfit hd hw₁.grown (huntouched t List.mem_cons_self howned)⟩
      refine hlookup.bind fun w₁ answer hw₁ => ?_
      obtain ⟨huntouched, hfate⟩ := hw₁
      match answer with
      | .error e =>
          refine .pure fun howned => ⟨[], t :: rest, .fail o e (fun t' ht' => ?_) fun _ => ?_⟩
          · exact huntouched t' ht' (howned t' ht')
          · exact (hfate (howned t List.mem_cons_self)).1 e rfl
      | .ok true =>
          refine (meets_note (skippedNote t.name) hstable huntouched).bind fun w₂ _ hw₂ => ?_
          have hskipped (howned : own t.name) : t.fate s old = .skipped :=
            (hfate howned).2.1 rfl
          refine (hlater w₂ _ (fun howned => Target.isThrough_of_skipped (hskipped howned)
            (hw₂ t List.mem_cons_self howned)) fun t' ht' => hw₂ t' (List.mem_cons_of_mem _ ht')).weaken
            (fun _ _ => id) fun w₃ result hw₃ howned => ?_
          simp only [List.mem_cons, forall_eq_or_imp] at howned
          obtain ⟨done, last, hends⟩ := hw₃.2 howned.2
          exact ⟨t :: done, last, hends.skip (hskipped howned.1) (hw₃.1 howned.1)⟩
      | .ok false =>
          have hgenerate := meets_generateTarget hs hc hfit hd hsoft
            (huntouched t List.mem_cons_self) fun howned => (hfate howned).2.2 rfl
          have hframed := hgenerate.frame
            (P := fun w => ∀ t' ∈ rest, own t'.name → Untouched s old t'.name w)
            (fun a b hl h t' ht' howned => (h t' ht' howned).of_leavesAlone hl
              (hplain' t' ht').target_isDotted howned)
            (fun a b hl h t' ht' howned => (h t' ht' howned).of_leavesAlone hl
              (hplain' t' ht').target_isDotted (hother t' ht'))
            (fun t' ht' => huntouched t' (List.mem_cons_of_mem _ ht'))
          refine (hframed.weaken (fun a b hl => hl.mono fun name hnot => ?_) fun _ _ => id).bind
            fun w₂ answer hw₂ => ?_
          · exact (hnot t List.mem_cons_self).symm
          obtain ⟨hw₂, hok, herror⟩ := hw₂
          cases answer with
          | error e =>
              refine .pure fun howned => ⟨[], t :: rest, .fail o e (fun t' ht' => ?_) ?_⟩
              · rcases List.mem_cons.mp ht' with rfl | ht'
                · exact (herror e rfl (howned _ List.mem_cons_self)).1
                · exact hw₂ t' ht' (howned t' (List.mem_cons_of_mem _ ht'))
              · exact (herror e rfl (howned t List.mem_cons_self)).2
          | ok _ =>
              refine (hlater w₂ _ (fun howned => (hok rfl howned).2) hw₂).weaken (fun _ _ => id)
                fun w₃ result hw₃ howned => ?_
              simp only [List.mem_cons, forall_eq_or_imp] at howned
              obtain ⟨done, last, hends⟩ := hw₃.2 howned.2
              exact ⟨t :: done, last, hends.write (hok rfl howned.1).1 (hw₃.1 howned.1)⟩

end

/-! ## Declarations -/

section

variable {s : Setting} {old : FileSystem} {own names : String → Prop} {d : Declaration}
  {done rest : List Target} {w w' : World}

theorem Comes.of_leavesAlone (hd : d.IsPlain) (hl : LeavesAlone s old names w w')
    (howned : ∀ name, d.Asks name → names name) (h : Comes s old d.targets done rest w) :
    Comes s old d.targets done rest w' := by
  obtain ⟨hall, hthrough, hrest⟩ := h
  have hmem (t : Target) (ht : t ∈ done ++ rest) : t ∈ d.targets := hall ▸ ht
  refine ⟨hall, fun t ht => ?_, fun t ht => ?_⟩
  · have htarget := hmem t (List.mem_append_left _ ht)
    exact (hthrough t ht).of_leavesAlone hl (hd.target htarget).target_isDotted
      (howned _ (Declaration.asks_of_mem htarget))
  · have htarget := hmem t (List.mem_append_right _ ht)
    exact (hrest t ht).of_leavesAlone hl (hd.target htarget).target_isDotted
      (howned _ (Declaration.asks_of_mem htarget))

theorem Target.IsThrough.fate_ne_failed {t : Target} (h : t.IsThrough s old w) :
    t.fate s old ≠ .failed := by
  intro hfate
  unfold IsThrough at h
  rw [hfate] at h
  exact h

/-- A declaration comes past none but the targets before the first one whose fate it is to fail, and
if no call fails past all of these. -/
theorem Ends.done_prefix {ts : List Target} {o o' : Outcome} {failure? : Option GenerationFailure}
    (h : Ends s old ts o o' failure? done rest w) :
    done <+: (ts.takeWhile fun t => t.fate s old ≠ .failed) ∧
      (s.Faultless → done = ts.takeWhile fun t => t.fate s old ≠ .failed) := by
  have hdone : ∀ t ∈ done, decide (t.fate s old ≠ .failed) = true := fun t ht =>
    decide_eq_true (h.comes.through t ht).fate_ne_failed
  rw [h.comes.all, List.takeWhile_append_of_pos hdone]
  refine ⟨List.prefix_append _ _, fun hf => ?_⟩
  have hfails := h.fails hf
  cases rest with
  | nil => simp
  | cons t rest => simp [hfails t rfl]

/-- The outcome of a run over the targets of a declaration. -/
theorem Ends.isOf {o o' : Outcome} {failure? : Option GenerationFailure}
    (h : Ends s old d.targets ⟨d.name, [], [], none⟩ o failure? done rest w)
    (ho' : o' = { o with error := failure?.map GenerationFailure.report }) :
    o'.IsOf s old d done := by
  have hok : o'.ok = decide (done = d.targets) := by
    rw [ho', h.comes.all, Bool.eq_iff_iff]
    cases failure? with
    | none => simp [Outcome.ok, h.failure.mp rfl]
    | some e =>
        have hrest : rest ≠ [] := fun hnil => by cases h.failure.mpr hnil
        simp [Outcome.ok, hrest]
  refine ⟨?_, ?_, ?_, hok⟩
  · rw [ho']
    exact h.lists.name
  · rw [ho']
    exact h.lists.written
  · rw [ho']
    exact h.lists.skipped

theorem meets_failWith {P : World → Prop} (o : Outcome) (e : GenerationFailure)
    (hstable : ∀ a b, LeavesAlone s old own a b → P a → P b) (hP : P w) :
    (o.failWith e).Meets s (LeavesAlone s old own) (LeavesAlone s old names)
      (fun w' answer => P w' ∧ ∀ o', answer = .ok o' → o' = { o with error := some e.report }) w :=
  meets_failWith_of_report o e (fun d => meets_report d hstable hP) hP

/-- The outcome of a declaration that owns the names of its providers says how far it came: never
further than the fates of its targets let it come, and as far as that if no call fails. -/
def Declaration.Concludes (d : Declaration) (s : Setting) (old : FileSystem) (w : World)
    (o : Outcome) : Prop :=
  ∃ done rest, Comes s old d.targets done rest w ∧ o.IsOf s old d done ∧
    done <+: d.passed s old ∧ (s.Faultless → done = d.passed s old)

theorem Declaration.Concludes.of_leavesAlone {o : Outcome} (hd : d.IsPlain)
    (hl : LeavesAlone s old names w w') (howned : ∀ name, d.Asks name → names name)
    (h : d.Concludes s old w o) : d.Concludes s old w' o := by
  obtain ⟨done, rest, hcomes, hrest⟩ := h
  exact ⟨done, rest, hcomes.of_leavesAlone hd hl howned, hrest⟩

/-- **One declaration among others.**  It leaves alone all names but those of its own providers, it has
an outcome, and if it owns those names the outcome says what was done about them. -/
theorem meets_processDeclaration (hs : s.IsSeparate) (hc : old.Closed) (hfit : s.NamesFit)
    (hsoft : s.FailsSoftly) (hd : d.IsPlain)
    (hw : ∀ name, d.Asks name → own name → Untouched s old name w) :
    (processDeclaration s.templates d).Meets s (LeavesAlone s old own)
      (LeavesAlone s old fun name => ¬d.Asks name)
      (fun w' answer => ∃ o, answer = .ok o ∧
        ((∀ name, d.Asks name → own name) → d.Concludes s old w' o)) w := by
  have hplain : ∀ t ∈ d.targets, t.declaration.IsPlain := fun t ht => hd.target ht
  suffices h : (processDeclaration s.templates d).Meets s (LeavesAlone s old own)
      (LeavesAlone s old fun name => ¬d.Asks name)
      (fun w' answer => ∀ o, answer = .ok o →
        (∀ name, d.Asks name → own name) → d.Concludes s old w' o) w by
    refine (h.and_yields (yields_processDeclaration hsoft d)).weaken (fun _ _ => id) ?_
    rintro w' _ ⟨hconcludes, o, rfl⟩
    exact ⟨o, rfl, hconcludes o rfl⟩
  unfold processDeclaration
  split
  · next e hinvalid =>
    -- nothing is done about an invalid declaration
    have huntouched (howned : ∀ name, d.Asks name → own name) : ∀ t ∈ d.targets,
        Untouched s old t.name w := fun t ht =>
      hw _ (Declaration.asks_of_mem ht) (howned _ (Declaration.asks_of_mem ht))
    refine (meets_failWith (P := fun w => (∀ name, d.Asks name → own name) →
      Comes s old d.targets [] d.targets w) ⟨d.name, [], [], none⟩ e (fun a b hl h howned => ?_)
      fun howned => ⟨rfl, by simp, huntouched howned⟩).weaken (fun _ _ => id) ?_
    · exact (h howned).of_leavesAlone hd hl howned
    · intro w' answer hw' o ho howned
      refine ⟨[], d.targets, hw'.1 howned, ?_, List.nil_prefix,
        fun _ => by simp [Declaration.passed, hinvalid]⟩
      rw [hw'.2 o ho]
      exact ⟨rfl, rfl, rfl, by simp [Outcome.ok, Declaration.targets]⟩
  · next hvalid =>
    have hpassed : d.passed s old = d.targets.takeWhile fun t => t.fate s old ≠ .failed := by
      simp [Declaration.passed, hvalid]
    have htargets := meets_processTargets hs hc hfit hsoft hplain d.nodup_targets
      ⟨d.name, [], [], none⟩ fun t ht howned => hw t.name (Declaration.asks_of_mem ht) howned
    refine (htargets.weaken (fun a b hl => hl.mono fun name hnot t ht hname => ?_) fun _ _ => id).bind
      fun w₁ result hw₁ => ?_
    · exact hnot ⟨t, ht, hname⟩
    have hends (howned : ∀ name, d.Asks name → own name) :=
      hw₁ fun t ht => howned _ (Declaration.asks_of_mem ht)
    obtain ⟨o, failure⟩ := result
    cases failure with
    | none =>
        refine .pure fun o' ho' howned => ?_
        obtain ⟨done, rest, h⟩ := hends howned
        obtain rfl := Except.ok.inj ho'
        refine ⟨done, rest, h.comes, h.isOf ?_, hpassed ▸ h.done_prefix⟩
        have herror : o.error = none := h.lists.error
        cases o
        simp_all
    | some e =>
        refine (meets_failWith (P := fun w => (∀ name, d.Asks name → own name) →
          ∃ done rest, Ends s old d.targets ⟨d.name, [], [], none⟩ o (some e) done rest w) o e
          (fun a b hl h howned => ?_) hends).weaken (fun _ _ => id) ?_
        · obtain ⟨done, rest, hcomes, hlists, hfailure, hfails⟩ := h howned
          exact ⟨done, rest, hcomes.of_leavesAlone hd hl howned, hlists, hfailure, hfails⟩
        · intro w' answer hw' o' ho' howned
          obtain ⟨done, rest, h⟩ := hw'.1 howned
          exact ⟨done, rest, h.comes, h.isOf (hw'.2 o' ho'), hpassed ▸ h.done_prefix⟩

end

end TextProviders
