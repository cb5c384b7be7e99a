import TextProviders.Proofs.Generation.Interference

/-!
# What came about, and whose answer says so

Programs that run together may work on the same things, so that none of them can know alone what there
is in the end.  But what comes about is brought about by a step, and the program that took the step can
be held to it: from there on it only ends with an answer that says so (`Program.Accounts`).

In between it is owed.  Of a pool everything that came about is in an answer or owed by a program that
is not through (`Pool.Accounts`), so in the end it is in an answer.

The files of sources are accounted for in this way.  If no call fails, a declaration that made the file
of a source ends with an outcome that lists its name as written.
-/

namespace TextProviders

open Program

/-- If a step of a program brings something about, the rest of the program ends with an answer that
says so. -/
def Program.Accounts (s : Setting) {κ α : Type} (Came : κ → World → Prop) (Says : κ → α → Prop) :
    Program α → Prop
  | done _ => True
  | step act next => ∀ w : World,
      (∀ k, Came k (w.perform s act).1 →
        Came k w ∨ (next (w.perform s act).2).Yields s (Says k)) ∧
        Accounts s Came Says (next (w.perform s act).2)

namespace Program

variable {s : Setting} {κ α β : Type} {Came : κ → World → Prop} {Says : κ → α → Prop} {w : World}

theorem Yields.mono {Q Q' : α → Prop} {p : Program α} (h : p.Yields s Q) (hQ : ∀ a, Q a → Q' a) :
    p.Yields s Q' := by
  induction h with
  | done hq => exact .done (hQ _ hq)
  | step _ ih => exact .step ih

theorem yields_true (p : Program α) : p.Yields s fun _ => True := by
  induction p with
  | done a => exact .done trivial
  | step act next ih => exact .step fun _ => ih _

theorem Yields.next {Q : α → Prop} {act : Action} {next : act.Answer → Program α}
    (h : (Program.step act next).Yields s Q) (w : World) : (next (w.perform s act).2).Yields s Q := by
  cases h with
  | step hnext => exact hnext w

theorem Yields.answer {Q : α → Prop} {a : α} (h : (Program.done a).Yields s Q) : Q a := by
  cases h with
  | done hq => exact hq

theorem Accounts.pure {a : α} : (Pure.pure a : Program α).Accounts s Came Says :=
  trivial

theorem Accounts.bind {Owes : κ → α → Prop} {Says : κ → β → Prop} {p : Program α}
    {f : α → Program β} (hp : p.Accounts s Came Owes)
    (howes : ∀ k a, Owes k a → (f a).Yields s (Says k)) (hf : ∀ a, (f a).Accounts s Came Says) :
    (p >>= f).Accounts s Came Says := by
  induction p with
  | done a => exact hf a
  | step act next ih =>
      intro w
      obtain ⟨hcame, hnext⟩ := hp w
      refine ⟨fun k hk => ?_, ih _ hnext⟩
      exact (hcame k hk).imp_right fun hyields => hyields.bind (howes k)

theorem accounts_ofAction (act : Action) {Says : κ → act.Answer → Prop}
    (h : ∀ (w w' : World) answer, w.perform s act = (w', answer) →
      ∀ k, Came k w' → Came k w ∨ Says k answer) :
    (ofAction act).Accounts s Came Says :=
  fun w => ⟨fun k hk => (h w _ _ rfl k hk).imp_right .done, trivial⟩

/-- A program that runs alone. -/
theorem Accounts.run {p : Program α} (h : p.Accounts s Came Says) {k : κ}
    (hk : Came k (p.run s w).1) : Came k w ∨ Says k (p.run s w).2 := by
  induction p generalizing w with
  | done a => exact .inl hk
  | step act next ih =>
      obtain ⟨hcame, hnext⟩ := h w
      rcases ih _ hnext hk with hbefore | hsays
      · exact (hcame k hbefore).imp_right fun hyields => hyields.run _
      · exact .inr hsays

end Program

section

variable {s : Setting} {κ α : Type} {Came : κ → World → Prop} {Says : κ → α → Prop}

/-- Programs that run one after the other. -/
theorem accounts_runEach {programs : List (Program α)} (h : ∀ p ∈ programs, p.Accounts s Came Says)
    {w : World} {k : κ} (hk : Came k (runEach s w programs).1) :
    Came k w ∨ ∃ a ∈ (runEach s w programs).2, Says k a := by
  induction programs generalizing w with
  | nil => exact .inl hk
  | cons p rest ih =>
      simp only [List.mem_cons, forall_eq_or_imp] at h
      rw [runEach_cons] at hk ⊢
      rcases ih h.2 hk with hbefore | ⟨a, ha, hsays⟩
      · rcases h.1.run hbefore with hfirst | hsays
        · exact .inl hfirst
        · exact .inr ⟨_, List.mem_cons_self, hsays⟩
      · exact .inr ⟨a, List.mem_cons_of_mem _ ha, hsays⟩

end

/-! ## Several workers -/

namespace Pool

variable {s : Setting} {κ α : Type} {Came : κ → World → Prop} {Says : κ → α → Prop}
  {Before : κ → Prop} {w : World} {p : Pool α}

/-- What came about in a pool was there before, or it is owed by one of the programs, or it is in one of
the answers. -/
structure Accounts (s : Setting) (Came : κ → World → Prop) (Says : κ → α → Prop) (Before : κ → Prop)
    (w : World) (p : Pool α) : Prop where
  jobs : ∀ job, job ∈ p.waiting ∨ job ∈ p.active → job.program.Accounts s Came Says
  came : ∀ k, Came k w → Before k ∨
    (∃ job, (job ∈ p.waiting ∨ job ∈ p.active) ∧ job.program.Yields s (Says k)) ∨
    ∃ i a, (i, a) ∈ p.answers ∧ Says k a

theorem Accounts.assign (h : p.Accounts s Came Says Before w) (workers : Nat) :
    (p.assign workers).Accounts s Came Says Before w := by
  refine ⟨fun job hjob => h.jobs job (mem_assign.mp hjob), fun k hk => ?_⟩
  rcases h.came k hk with hbefore | ⟨job, hjob, hyields⟩ | hanswers
  · exact .inl hbefore
  · exact .inr (.inl ⟨job, mem_assign.mpr hjob, hyields⟩)
  · exact .inr (.inr hanswers)

/-- What a program owed that is through is in its answer. -/
theorem Accounts.answer (h : p.Accounts s Came Says Before w) {m place : Nat} {a : α}
    (hat : p.active[m]? = some ⟨place, .done a⟩) :
    Accounts s Came Says Before w
      { p with active := p.active.eraseIdx m, answers := p.answers ++ [(place, a)] } := by
  refine ⟨fun job hjob => h.jobs job ((mem_active_iff hat).mpr (.inr hjob)), fun k hk => ?_⟩
  rcases h.came k hk with hbefore | ⟨job, hjob, hyields⟩ | ⟨i, b, hb, hsays⟩
  · exact .inl hbefore
  · rcases (mem_active_iff hat).mp hjob with rfl | hother
    · exact .inr (.inr ⟨place, a, List.mem_append_right _ List.mem_cons_self, hyields.answer⟩)
    · exact .inr (.inl ⟨job, hother, hyields⟩)
  · exact .inr (.inr ⟨i, b, List.mem_append_left _ hb, hsays⟩)

/-- What comes about by a step is owed by the program that took it. -/
theorem Accounts.step (h : p.Accounts s Came Says Before w) {m place : Nat} {act : Action}
    {next : act.Answer → Program α} (hat : p.active[m]? = some ⟨place, .step act next⟩) :
    Accounts s Came Says Before (w.perform s act).1
      { p with active := p.active.set m ⟨place, next (w.perform s act).2⟩ } := by
  obtain ⟨hcame, hnext⟩ := h.jobs _ (.inr (List.mem_of_getElem? hat)) w
  let later : Job α := ⟨place, next (w.perform s act).2⟩
  have hjobs (job : Job α) : (job ∈ p.waiting ∨ job ∈ p.active.set m later) ↔
      job = later ∨ job ∈ p.waiting ∨ job ∈ p.active.eraseIdx m := mem_set_iff hat later
  refine ⟨fun job hjob => ?_, fun k hk => ?_⟩
  · rcases (hjobs job).mp hjob with rfl | hother
    · exact hnext
    · exact h.jobs job ((mem_active_iff hat).mpr (.inr hother))
  · rcases hcame k hk with hold | hyields
    · rcases h.came k hold with hbefore | ⟨job, hjob, hyields⟩ | hanswers
      · exact .inl hbefore
      · rcases (mem_active_iff hat).mp hjob with rfl | hother
        · exact .inr (.inl ⟨_, (hjobs _).mpr (.inl rfl), hyields.next w⟩)
        · exact .inr (.inl ⟨job, (hjobs job).mpr (.inr hother), hyields⟩)
      · exact .inr (.inr hanswers)
    · exact .inr (.inl ⟨_, (hjobs _).mpr (.inl rfl), hyields⟩)

theorem Accounts.run (h : p.Accounts s Came Says Before w) (workers : Nat) (schedule : List Nat) :
    (Pool.run s workers schedule w p).2.Accounts s Came Says Before
      (Pool.run s workers schedule w p).1 :=
  run_induction (P := fun w p => p.Accounts s Came Says Before w) (fun _ _ h => h.assign workers)
    (fun _ _ _ _ _ hat h => h.answer hat) (fun _ _ _ _ _ _ hat h => h.step hat) schedule h

/-- **When all programs are through, their answers account for all that came about.** -/
theorem accounts_run {programs : List (Program α)} (h : ∀ p ∈ programs, p.Accounts s Came Says)
    (workers : Nat) (schedule : List Nat) {w' : World} {p' : Pool α}
    (hrun : Pool.run s workers schedule w (ofPrograms programs) = (w', p'))
    (hfinished : p'.isFinished = true) {k : κ} (hk : Came k w') :
    Came k w ∨ ∃ a ∈ p'.inOrder, Says k a := by
  have hstart : (ofPrograms programs).Accounts s Came Says (fun k => Came k w) w := by
    refine ⟨fun job hjob => ?_, fun k hk => .inl hk⟩
    rcases hjob with hwaiting | hactive
    · obtain ⟨⟨p, i⟩, hp, rfl⟩ := List.mem_map.mp hwaiting
      exact h p (List.fst_mem_of_mem_zipIdx hp)
    · cases hactive
  have hend := hstart.run workers schedule
  rw [hrun] at hend
  simp only [isFinished, Bool.and_eq_true, List.isEmpty_iff] at hfinished
  rcases hend.came k hk with hbefore | ⟨job, hjob, -⟩ | ⟨i, a, hia, hsays⟩
  · exact .inl hbefore
  · simp [hfinished] at hjob
  · refine .inr ⟨a, ?_, hsays⟩
    exact List.mem_map.mpr ⟨(i, a), (List.mergeSort_perm _ _).mem_iff.mpr hia, rfl⟩

end Pool

/-! ## The files of sources -/

/-- At a place stands a file. -/
def World.HasFile (loc : Location) (w : World) : Prop :=
  ∃ bytes, w.files.get? loc = some (.file bytes)

open World (HasFile)

section

variable {s : Setting} {w : World} {loc : Location}

theorem hasFile_of_append {place : Location} {bytes : List UInt8} {w' : World}
    (hfiles : w'.files = w.files.append place bytes) (h : HasFile loc w') : HasFile loc w := by
  obtain ⟨after, hafter⟩ := h
  rw [hfiles] at hafter
  unfold FileSystem.append at hafter
  split at hafter
  · next before hbefore =>
    by_cases hloc : loc = place
    · exact ⟨before, hloc ▸ hbefore⟩
    · rw [FileSystem.get?_put_of_ne _ hloc] at hafter
      exact ⟨after, hafter⟩
  · exact ⟨after, hafter⟩

/-- Only making a source makes a file. -/
theorem hasFile_create {name : String} {w' : World} {answer : Except GenerationFailure Location}
    (hstep : w.create s name = (w', answer)) (h : HasFile loc w') :
    HasFile loc w ∨ (∃ place, answer = .ok place) ∧ loc = s.placeFor name := by
  have hdirs := w.files.addsDirectories_makeDirs s.here (s.pathFor name).parent
  obtain ⟨bytes, hbytes⟩ := h
  rcases w.create_cases s name with ⟨e, hfailed⟩ | ⟨files, place, hmade, hloc, -, hcreated⟩
  · obtain ⟨hworld, -⟩ := Prod.mk.inj (hfailed.symm.trans hstep)
    have hfiles : w'.files = (w.files.makeDirs s.here (s.pathFor name).parent).1 := by rw [← hworld]
    rw [← hfiles] at hdirs
    exact .inl ⟨bytes, (hdirs.file_iff loc bytes).mp hbytes⟩
  · obtain ⟨hworld, hanswer⟩ := Prod.mk.inj (hcreated.symm.trans hstep)
    rw [hmade] at hdirs
    by_cases hplace : loc = place
    · refine .inr ⟨⟨place, hanswer.symm⟩, ?_⟩
      rw [hplace]
      exact FileSystem.eq_placeOf_of_locate hloc
    · have hfiles : w'.files = files.put place (.file []) := by rw [← hworld]
      rw [hfiles, FileSystem.get?_put_of_ne _ hplace] at hbytes
      exact .inl ⟨bytes, (hdirs.file_iff loc bytes).mp hbytes⟩

theorem hasFile_discard {name : String} {w' : World} {answer : Except GenerationFailure Unit}
    (hstep : w.discard s name = (w', answer)) (h : HasFile loc w') : HasFile loc w := by
  obtain ⟨bytes, hbytes⟩ := h
  have hfiles := w.files_discard s name
  rw [hstep] at hfiles
  rcases hfiles with hsame | herased
  · exact ⟨bytes, hsame ▸ hbytes⟩
  · rw [show w'.files = _ from herased] at hbytes
    generalize s.placeFor name = place at hbytes
    by_cases hloc : loc = place
    · rw [hloc] at hbytes
      by_cases hroot : place = []
      · simp [hroot, FileSystem.get?] at hbytes
      · rw [FileSystem.get?_erase_self _ hroot] at hbytes
        cases hbytes
    · rw [FileSystem.get?_erase_of_ne _ hloc] at hbytes
      exact ⟨bytes, hbytes⟩

theorem accounts_of_files_eq {act : Action} {Says : Location → act.Answer → Prop}
    (hfiles : ∀ w : World, (w.perform s act).1.files = w.files) :
    (ofAction act).Accounts s HasFile Says := by
  refine accounts_ofAction act fun w w' answer hstep loc h => .inl ?_
  have hsame : w'.files = w.files := by
    rw [← hfiles w, hstep]
  unfold HasFile at h
  rwa [hsame] at h

theorem accounts_close {Says : Location → Except GenerationFailure Unit → Prop} :
    (ofAction .close).Accounts s HasFile Says :=
  accounts_of_files_eq fun w => w.files_attempt s .close

theorem accounts_writeText (place : Location) (text : String)
    {Says : Location → Except GenerationFailure Unit → Prop} :
    (writeText place text).Accounts s HasFile Says := by
  have hclose (e : GenerationFailure) : (closeAfter e).Accounts s HasFile Says := by
    have hclosed : (ofAction .close).Accounts s HasFile fun _ _ => False := accounts_close
    refine hclosed.bind (fun _ _ => False.elim) fun answer => ?_
    cases answer <;> exact .pure
  have hwrite : (ofAction (.write place text)).Accounts s HasFile fun _ _ => False := by
    refine accounts_ofAction (.write place text) fun w w' answer hstep loc h => .inl ?_
    obtain ⟨bytes, hfiles, -, -⟩ := w.write_cases s place text
    rw [show w.write s place text = (w', answer) from hstep] at hfiles
    exact hasFile_of_append hfiles h
  have hflush : (ofAction .flush).Accounts s HasFile fun _ _ => False :=
    accounts_of_files_eq fun w => w.files_attempt s .flush
  refine hwrite.bind (fun _ _ => False.elim) fun answer => ?_
  cases answer with
  | error e => exact hclose e
  | ok _ =>
      refine hflush.bind (fun _ _ => False.elim) fun answer => ?_
      cases answer with
      | error e => exact hclose e
      | ok _ => exact accounts_close

variable (hf : s.Faultless)

include hf

theorem yields_ok_of_failsByFault {p : Program (Except GenerationFailure Unit)}
    (h : p.Yields s (FailsByFault s)) : p.Yields s (· = .ok ()) := by
  refine h.mono fun answer hanswer => ?_
  cases answer with
  | error e => exact absurd hf (hanswer e rfl).2
  | ok _ => rfl

/-- A program that makes the file of a source ends well. -/
theorem accounts_writeSource (name source : String) :
    (writeSource name source).Accounts s HasFile
      fun loc answer => answer = .ok () ∧ loc = s.placeFor name := by
  have hcreate : (ofAction (.create name)).Accounts s HasFile
      fun loc answer => (∃ place, answer = .ok place) ∧ loc = s.placeFor name :=
    accounts_ofAction (.create name) fun w w' answer hstep loc h =>
      hasFile_create (show w.create s name = (w', answer) from hstep) h
  have hdiscard : (ofAction (.discard name)).Accounts s HasFile fun _ _ => False :=
    accounts_ofAction (.discard name) fun w w' answer hstep loc h => .inl (hasFile_discard hstep h)
  have hrecord : (ofAction (.record name)).Accounts s HasFile fun _ _ => False :=
    accounts_of_files_eq fun w => w.files_record name
  have hnote : (ofAction (.note (wroteNote name))).Accounts s HasFile fun _ _ => False :=
    accounts_of_files_eq fun _ => rfl
  refine hcreate.bind ?_ fun answer => ?_
  · rintro loc _ ⟨⟨place, rfl⟩, hloc⟩
    refine (yields_ok_of_failsByFault hf (yields_writeText hf.failsSoftly place source)).bind ?_
    rintro _ rfl
    exact (yields_any _).bind fun _ _ => (yields_any _).bind fun _ _ => .pure ⟨rfl, hloc⟩
  · cases answer with
    | error e => exact .pure
    | ok place =>
        have hwrite : (writeText place source).Accounts s HasFile fun _ _ => False :=
          accounts_writeText place source
        refine hwrite.bind (fun _ _ => False.elim) fun answer => ?_
        cases answer with
        | error e =>
            dsimp only
            split
            · refine hdiscard.bind (fun _ _ => False.elim) fun answer => ?_
              cases answer <;> exact .pure
            · exact .pure
        | ok _ =>
            refine hrecord.bind (fun _ _ => False.elim) fun _ => ?_
            exact hnote.bind (fun _ _ => False.elim) fun _ => .pure

theorem accounts_generateTarget (t : Target) :
    (generateTarget s.templates t).Accounts s HasFile
      fun loc answer => answer = .ok () ∧ loc = s.placeFor t.name := by
  unfold generateTarget
  dsimp only
  split
  · exact .pure
  · next ext _ =>
    have hresolve : (ofAction (.resolve ⟨t.declaration.package, t.declaration.simpleName,
        ext⟩)).Accounts s HasFile fun _ _ => False :=
      accounts_of_files_eq fun w => w.files_resolve s _
    refine hresolve.bind (fun _ _ => False.elim) fun answer => ?_
    cases answer with
    | error e => exact .pure
    | ok text =>
        dsimp only
        split
        · exact .pure
        · exact accounts_writeSource hf t.name _

omit hf in
/-- What is listed as written stays listed. -/
theorem yields_listed (ts : List Target) (o : Outcome) :
    (processTargets s.templates ts o).Yields s
      fun result => ∀ name ∈ o.written, name ∈ result.1.written := by
  induction ts generalizing o with
  | nil => exact .pure fun _ => id
  | cons t rest ih =>
      refine (yields_any (.lookup t.name)).bind fun answer _ => ?_
      match answer with
      | .error e => exact .pure fun _ => id
      | .ok true =>
          exact (yields_any _).bind fun _ _ => ih { o with skipped := o.skipped ++ [t.name] }
      | .ok false =>
          refine (yields_true (generateTarget s.templates t)).bind fun answer _ => ?_
          cases answer with
          | error e => exact .pure fun _ => id
          | ok _ => exact (ih _).mono fun result hlisted name hname =>
              hlisted name (List.mem_append_left _ hname)

theorem accounts_processTargets (ts : List Target) (o : Outcome) :
    (processTargets s.templates ts o).Accounts s HasFile
      fun loc result => ∃ name ∈ result.1.written, loc = s.placeFor name := by
  induction ts generalizing o with
  | nil => exact .pure
  | cons t rest ih =>
      have hlookup : (ofAction (.lookup t.name)).Accounts s HasFile fun _ _ => False :=
        accounts_of_files_eq fun _ => rfl
      have hnote : (ofAction (.note (skippedNote t.name))).Accounts s HasFile fun _ _ => False :=
        accounts_of_files_eq fun _ => rfl
      refine hlookup.bind (fun _ _ => False.elim) fun answer => ?_
      match answer with
      | .error e => exact .pure
      | .ok true => exact hnote.bind (fun _ _ => False.elim) fun _ => ih _
      | .ok false =>
          refine (accounts_generateTarget hf t).bind ?_ fun answer => ?_
          · rintro loc _ ⟨rfl, hloc⟩
            exact (yields_listed rest _).mono fun result hlisted =>
              ⟨t.name, hlisted t.name (List.mem_append_right _ List.mem_cons_self), hloc⟩
          · cases answer with
            | error e => exact .pure
            | ok _ => exact ih _

/-- **Whoever made the file of a source lists its name as written.** -/
theorem accounts_processDeclaration (d : Declaration) :
    (processDeclaration s.templates d).Accounts s HasFile
      fun loc answer => ∀ o, answer = .ok o → ∃ name ∈ o.written, loc = s.placeFor name := by
  have hfailWith (o : Outcome) (e : GenerationFailure) {Says} :
      (o.failWith e).Accounts s HasFile Says := by
    unfold Outcome.failWith
    split
    · exact .pure
    · have hreport : (ofAction (.report (failureDiagnostic o.name e))).Accounts s HasFile
          fun _ _ => False := accounts_of_files_eq fun _ => rfl
      exact hreport.bind (fun _ _ => False.elim) fun _ => .pure
  unfold processDeclaration
  split
  · exact hfailWith _ _
  · refine (accounts_processTargets hf d.targets _).bind ?_ fun result => ?_
    · rintro loc ⟨o, failure?⟩ hlisted
      cases failure? with
      | none => exact .pure fun o' ho' => Except.ok.inj ho' ▸ hlisted
      | some e =>
          dsimp only
          unfold Outcome.failWith
          split
          · exact .pure nofun
          · exact (yields_any _).bind fun _ _ => .pure fun o' ho' => Except.ok.inj ho' ▸ hlisted
    · match result with
      | (o, none) => exact .pure
      | (o, some e) => exact hfailWith o e

end

end TextProviders
