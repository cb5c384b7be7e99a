import TextProviders.Proofs.Generation.Interleaving
import TextProviders.Proofs.Generation.Tenure

/-!
# One writer to a place

Any number of calls write sources at once, and their steps come in any order.  Names may be repeated,
and two names may have one path.  The system may fail any step with any error, a write after any part of
its text.  Nothing else touches the files.

`SingleWriter` says what holds then: at most one call is at work on a file, a call discards no file but
the one it made, and the source of a call that recorded its type stands complete from then on, so that
no two calls record for one path.

The invariant (`Tenancy`) is that every call follows a tenure, that what a call has stands where its
path leads, and that the call is the maker of what stands there.  Two calls that have a file at one place
are both its maker, hence the same.

Workers that take calls from a list, as a pool runs them, are such an interleaving
(`Interleaving.pool_run`).
-/

namespace TextProviders

open Program
open scoped List

/-! ## Calls at once -/

/-- A step that one of several calls took. -/
structure Move where
  call : Nat
  before : World
  act : Action
  answer : act.Answer
  after : World

/-- The effect of a step. -/
def Move.effect (m : Move) : Effect :=
  m.act.effect m.answer

/-- Calls that run at once, up to some moment: the steps taken so far, the world, and what is left of
each call.  Any call that is not at its end can take the next step. -/
inductive Interleaving (s : Setting) (w : World) (calls : List SourceCall) :
    List Move → World → List (Program (Except GenerationFailure Unit)) → Prop
  | start : Interleaving s w calls [] w (calls.map SourceCall.program)
  | move {moves : List Move} {w₁ w₂ : World}
      {programs : List (Program (Except GenerationFailure Unit))} {i : Nat} {act : Action}
      {next : act.Answer → Program (Except GenerationFailure Unit)} {answer : act.Answer} :
      Interleaving s w calls moves w₁ programs → programs[i]? = some (.step act next) →
      w₁.ComesTo s act w₂ answer →
      Interleaving s w calls (moves ++ [⟨i, w₁, act, answer, w₂⟩]) w₂ (programs.set i (next answer))

/-! ## What is to hold -/

/-- A call is at work on the file at a place: it made the file, it did not discard it, and it has not
come to its end. -/
structure AtWork (moves : List Move) (programs : List (Program (Except GenerationFailure Unit)))
    (i : Nat) (place : Location) : Prop where
  made : ∃ m ∈ moves, m.call = i ∧ m.effect = .made place
  kept : ∀ m ∈ moves, m.call = i → m.effect ≠ .discarded
  unfinished : ∃ act next, programs[i]? = some (.step act next)

/-- The call that made what stands at a place: the last one that made a file there, unless nothing
stands there any more. -/
def maker? (place : Location) (moves : List Move) : Option Nat :=
  moves.foldl (fun maker m =>
    if m.effect = .made place then some m.call
    else if m.after.files.get? place = none then none else maker) none

/-- What holds of calls that run at once. -/
structure SingleWriter (s : Setting) (calls : List SourceCall) (moves : List Move)
    (programs : List (Program (Except GenerationFailure Unit))) : Prop where
  /-- At most one call is at work on a file. -/
  alone : ∀ i j place, AtWork moves programs i place → AtWork moves programs j place → i = j
  /-- A step that discards changes nothing, or removes what the call itself made. -/
  discards_own : ∀ earlier m later, moves = earlier ++ m :: later → m.effect = .discarded →
    ∀ place, m.after.files.get? place ≠ m.before.files.get? place →
      m.after.files.get? place = none ∧ maker? place earlier = some m.call
  /-- What is recorded stands complete from then on. -/
  complete : ∀ earlier m later name, moves = earlier ++ m :: later → m.effect = .recorded name →
    ∃ c : SourceCall, calls[m.call]? = some c ∧ c.name = name ∧
      ∀ m' ∈ m :: later, c.Stands s m'.after.files c.bytes
  /-- For one path at most one call records. -/
  records_once : ∀ m ∈ moves, ∀ m' ∈ moves, ∀ name name', m.effect = .recorded name →
    m'.effect = .recorded name' → s.placeFor name = s.placeFor name' → m.call = m'.call

/-! ## The tenures of all calls -/

theorem maker?_of_made {place : Location} {moves : List Move} {m : Move}
    (h : m.effect = .made place) : maker? place (moves ++ [m]) = some m.call := by
  simp [maker?, h]

/-- The maker of what stands remains while nothing is made there and something stands. -/
theorem maker?_of_ne {place : Location} {moves : List Move} {m : Move}
    (hmade : m.effect ≠ .made place) (hstands : m.after.files.get? place ≠ none) :
    maker? place (moves ++ [m]) = maker? place moves := by
  simp [maker?, hmade, hstands]

/-- The tenures of calls that run at once. -/
structure Tenancy (s : Setting) (calls : List SourceCall) (moves : List Move) (w : World)
    (programs : List (Program (Except GenerationFailure Unit))) (tenure : Nat → Tenure) : Prop where
  /-- What is left of a call keeps to its tenure. -/
  keeps : ∀ i p, programs[i]? = some p → ∃ c : SourceCall, calls[i]? = some c ∧ c.Keeps s (tenure i) p
  /-- What a call has stands, and the call is its maker. -/
  has : ∀ i (c : SourceCall) bytes, calls[i]? = some c → (tenure i).file? c = some bytes →
    c.Stands s w.files bytes ∧ maker? (c.place s) moves = some i
  /-- A call that made a file has it, unless it discarded it. -/
  made : ∀ m ∈ moves, ∀ place, m.effect = .made place → ∃ c : SourceCall, calls[m.call]? = some c ∧
    place = c.place s ∧ tenure m.call ≠ .ahead ∧
    (tenure m.call = .ended → ∃ m' ∈ moves, m'.call = m.call ∧ m'.effect = .discarded)
  /-- A call that recorded a type did so for its own. -/
  recorded : ∀ m ∈ moves, ∀ name, m.effect = .recorded name → ∃ c : SourceCall,
    calls[m.call]? = some c ∧ c.name = name ∧ tenure m.call = .recorded

section

variable {s : Setting} {calls : List SourceCall} {moves : List Move} {w : World}
variable {programs : List (Program (Except GenerationFailure Unit))} {tenure : Nat → Tenure}

theorem tenancy_start (s : Setting) (calls : List SourceCall) (w : World) :
    Tenancy s calls [] w (calls.map SourceCall.program) fun _ => .ahead where
  keeps i p hp := by
    rw [List.getElem?_map] at hp
    obtain ⟨c, hc, rfl⟩ := Option.map_eq_some_iff.mp hp
    exact ⟨c, hc, keeps_program s c⟩
  has _ _ _ _ hhas := by cases hhas
  made _ hm := absurd hm List.not_mem_nil
  recorded _ hm := absurd hm List.not_mem_nil

/-- Two calls that have their files at one place are one. -/
theorem Tenancy.eq_of_place (h : Tenancy s calls moves w programs tenure) {i j : Nat}
    {c d : SourceCall} {bytes bytes' : List UInt8} (hc : calls[i]? = some c) (hd : calls[j]? = some d)
    (hi : (tenure i).file? c = some bytes) (hj : (tenure j).file? d = some bytes')
    (hplace : c.place s = d.place s) : i = j := by
  have hmaker := (h.has i c bytes hc hi).2
  rw [hplace, (h.has j d bytes' hd hj).2] at hmaker
  exact (Option.some.inj hmaker).symm

/-- What another call has is not touched by a step. -/
theorem Tenancy.has_of_ne (h : Tenancy s calls moves w programs tenure) {m : Move} {c d : SourceCall}
    {t' : Tenure} {j : Nat} {bytes : List UInt8} (hc : calls[m.call]? = some c)
    (hd : calls[j]? = some d) (hne : j ≠ m.call)
    (hturns : c.Turns s w.files (tenure m.call) m.effect t')
    (hchanges : c.Changes s (tenure m.call) t' m.effect w.files m.after.files)
    (hhas : (tenure j).file? d = some bytes) :
    d.Stands s m.after.files bytes ∧ maker? (d.place s) (moves ++ [m]) = some j := by
  obtain ⟨hstands, hmaker⟩ := h.has j d bytes hd hhas
  have hfree : d.place s = c.place s → (tenure m.call).file? c = none := by
    intro hplace
    cases hfile : (tenure m.call).file? c with
    | none => rfl
    | some _ => exact absurd (h.eq_of_place hd hc hhas hfile hplace) hne
  have hentry := hchanges.entries _ _ hfree hstands.get?
  refine ⟨hstands.of_keepsDirectories hchanges.directories hentry, ?_⟩
  rw [maker?_of_ne (fun hmade => ?_) (by rw [hentry]; exact Option.some_ne_none _), hmaker]
  rw [hmade] at hturns
  have hnone := hturns.of_made.2.1
  rw [hstands.get?] at hnone
  cases hnone

/-- What the call that took a step has stands, and the call is its maker. -/
theorem Tenancy.has_self (h : Tenancy s calls moves w programs tenure) {m : Move} {c : SourceCall}
    {t' : Tenure} {bytes : List UInt8} (hc : calls[m.call]? = some c)
    (hturns : c.Turns s w.files (tenure m.call) m.effect t')
    (hchanges : c.Changes s (tenure m.call) t' m.effect w.files m.after.files)
    (hhas : t'.file? c = some bytes) :
    c.Stands s m.after.files bytes ∧ maker? (c.place s) (moves ++ [m]) = some m.call := by
  have hstands := hchanges.stands bytes hhas
  refine ⟨hstands, ?_⟩
  rcases hturns.file?_cases hhas with hmade | ⟨⟨had, hhad⟩, hmade⟩
  · exact maker?_of_made hmade
  · rw [maker?_of_ne (hmade _) (by rw [hstands.get?]; exact Option.some_ne_none _)]
    exact (h.has _ c had hc hhad).2

/-- A call that made a file and took a step has the file still, unless it discarded it. -/
theorem Tenancy.made_of_call (h : Tenancy s calls moves w programs tenure) {m m' : Move}
    {c : SourceCall} {t' : Tenure} {place : Location}
    (hturns : c.Turns s w.files (tenure m.call) m.effect t') (hm' : m' ∈ moves)
    (hmade : m'.effect = .made place) (hcall : m'.call = m.call) :
    ∃ d : SourceCall, calls[m.call]? = some d ∧ place = d.place s ∧ t' ≠ .ahead ∧
      (t' = .ended → ∃ m'' ∈ moves ++ [m], m''.call = m.call ∧ m''.effect = .discarded) := by
  obtain ⟨d, hd, hplace, hahead, hended⟩ := h.made m' hm' place hmade
  rw [hcall] at hd hahead hended
  obtain ⟨hpast, hgone⟩ := hturns.past hahead
  refine ⟨d, hd, hplace, hpast, fun h' => ?_⟩
  rcases hgone h' with hwas | hdiscarded
  · obtain ⟨m'', hm'', hdone⟩ := hended hwas
    exact ⟨m'', List.mem_append_left _ hm'', hdone⟩
  · exact ⟨m, List.mem_append_right _ (List.mem_singleton.mpr rfl), rfl, hdiscarded⟩

/-- **One step of any call preserves the tenancy.** -/
theorem Tenancy.move (h : Tenancy s calls moves w programs tenure) {i : Nat} {act : Action}
    {next : act.Answer → Program (Except GenerationFailure Unit)} {answer : act.Answer} {w' : World}
    (hp : programs[i]? = some (.step act next)) (hstep : w.ComesTo s act w' answer) :
    ∃ t', Tenancy s calls (moves ++ [⟨i, w, act, answer, w'⟩]) w' (programs.set i (next answer))
      fun j => if j = i then t' else tenure j := by
  obtain ⟨c, hc, hkeeps⟩ := h.keeps i _ hp
  obtain ⟨t', hkeeps', hturns, hchanges⟩ :=
    hkeeps.step (fun bytes hhas => (h.has i c bytes hc hhas).1) hstep
  let m : Move := ⟨i, w, act, answer, w'⟩
  refine ⟨t', ⟨?keeps, ?has, ?made, ?recorded⟩⟩
  case keeps =>
    intro j p hj
    by_cases hji : j = i
    · subst hji
      rw [List.getElem?_set_self (List.getElem?_eq_some_iff.mp hp).1] at hj
      obtain rfl := Option.some.inj hj
      exact ⟨c, hc, by rwa [if_pos rfl]⟩
    · rw [List.getElem?_set_ne (Ne.symm hji)] at hj
      rw [if_neg hji]
      exact h.keeps j p hj
  case has =>
    intro j d bytes hd hhas
    by_cases hji : j = i
    · subst hji
      obtain rfl := Option.some.inj (hc.symm.trans hd)
      rw [if_pos rfl] at hhas
      exact h.has_self (m := m) hc hturns hchanges hhas
    · rw [if_neg hji] at hhas
      exact h.has_of_ne (m := m) hc hd hji hturns hchanges hhas
  case made =>
    intro m' hm' place hmade
    rcases List.mem_append.mp hm' with hold | hnew
    · by_cases hcall : m'.call = i
      · rw [if_pos hcall, hcall]
        exact h.made_of_call (m := m) hturns hold hmade hcall
      · obtain ⟨d, hd, hplace, hahead, hended⟩ := h.made m' hold place hmade
        rw [if_neg hcall]
        refine ⟨d, hd, hplace, hahead, fun h' => ?_⟩
        obtain ⟨m'', hm'', hdone⟩ := hended h'
        exact ⟨m'', List.mem_append_left _ hm'', hdone⟩
    · obtain rfl := List.mem_singleton.mp hnew
      rw [show act.effect answer = .made place from hmade] at hturns
      obtain ⟨hplace, -, rfl⟩ := hturns.of_made
      exact ⟨c, hc, hplace, by simp, by simp⟩
  case recorded =>
    intro m' hm' name hrecorded
    rcases List.mem_append.mp hm' with hold | hnew
    · obtain ⟨d, hd, hname, htenure⟩ := h.recorded m' hold name hrecorded
      refine ⟨d, hd, hname, ?_⟩
      by_cases hcall : m'.call = i
      · rw [if_pos hcall]
        rw [← hcall, htenure] at hturns
        exact hturns.eq_recorded
      · rwa [if_neg hcall]
    · obtain rfl := List.mem_singleton.mp hnew
      rw [show act.effect answer = .recorded name from hrecorded] at hturns
      obtain ⟨hname, rfl⟩ := hturns.of_recorded
      exact ⟨c, hc, hname, if_pos rfl⟩

/-- **Whatever the order of the steps, there are tenures that they follow.** -/
theorem Interleaving.tenancy {w w' : World} (h : Interleaving s w calls moves w' programs) :
    ∃ tenure, Tenancy s calls moves w' programs tenure := by
  induction h with
  | start => exact ⟨_, tenancy_start s calls w⟩
  | move _ hp hstep ih =>
      obtain ⟨tenure, htenancy⟩ := ih
      obtain ⟨t', hmoved⟩ := htenancy.move hp hstep
      exact ⟨_, hmoved⟩

/-- Every step that was taken was the next one of its call. -/
theorem Interleaving.split {w w' : World} (h : Interleaving s w calls moves w' programs)
    {earlier later : List Move} {m : Move} (hmoves : moves = earlier ++ m :: later) :
    ∃ programs' next, Interleaving s w calls earlier m.before programs' ∧
      programs'[m.call]? = some (.step m.act next) ∧ m.before.ComesTo s m.act m.after m.answer := by
  induction h generalizing later with
  | start => exact absurd hmoves (by simp)
  | move hrun hp hstep ih =>
      rcases List.eq_nil_or_concat later with rfl | ⟨later', last, rfl⟩
      · obtain ⟨rfl, hm⟩ := List.append_inj' hmoves rfl
        obtain rfl := (List.cons.inj hm).1
        exact ⟨_, _, hrun, hp, hstep⟩
      · rw [List.concat_eq_append, ← List.cons_append, ← List.append_assoc] at hmoves
        exact ih (List.append_inj' hmoves rfl).1

/-- Up to any step, with that step, the calls ran at once. -/
theorem Interleaving.upTo {w w' : World} (h : Interleaving s w calls moves w' programs)
    {earlier later : List Move} {m : Move} (hmoves : moves = earlier ++ m :: later) :
    ∃ programs', Interleaving s w calls (earlier ++ [m]) m.after programs' := by
  obtain ⟨programs', next, hrun, hp, hstep⟩ := h.split hmoves
  exact ⟨_, .move hrun hp hstep⟩

/-- A call at work on a file has it. -/
theorem Tenancy.maker?_of_atWork (h : Tenancy s calls moves w programs tenure) {i : Nat}
    {place : Location} (hwork : AtWork moves programs i place) : maker? place moves = some i := by
  obtain ⟨m, hm, rfl, hmade⟩ := hwork.made
  obtain ⟨c, hc, rfl, hahead, hended⟩ := h.made m hm place hmade
  have hhas : ∃ bytes, (tenure m.call).file? c = some bytes := by
    cases htenure : tenure m.call with
    | ahead => exact absurd htenure hahead
    | holds bytes => exact ⟨bytes, rfl⟩
    | recorded => exact ⟨c.bytes, rfl⟩
    | ended =>
        obtain ⟨m', hm', hcall, hdiscarded⟩ := hended htenure
        exact absurd hdiscarded (hwork.kept m' hm' hcall)
  obtain ⟨bytes, hhas⟩ := hhas
  exact (h.has _ c bytes hc hhas).2

/-- What a call recorded stands complete, and the call is its maker. -/
theorem Tenancy.has_of_recorded (h : Tenancy s calls moves w programs tenure) {m : Move}
    {name : String} (hm : m ∈ moves) (hrecorded : m.effect = .recorded name) :
    ∃ c : SourceCall, calls[m.call]? = some c ∧ c.name = name ∧ c.Stands s w.files c.bytes ∧
      maker? (s.placeFor name) moves = some m.call := by
  obtain ⟨c, hc, rfl, htenure⟩ := h.recorded m hm name hrecorded
  obtain ⟨hstands, hmaker⟩ := h.has m.call c c.bytes hc (by rw [htenure]; rfl)
  rw [c.place_eq s] at hmaker
  exact ⟨c, hc, rfl, hstands, hmaker⟩

end

/-! ## Workers -/

namespace Pool

variable {α : Type}

/-- The jobs of a pool that are not through are among programs, each at its place. -/
structure Holds (programs : List (Program α)) (jobs : List (Job α)) : Prop where
  distinct : (jobs.map Job.place).Nodup
  program : ∀ job ∈ jobs, programs[job.place]? = some job.program

variable {programs : List (Program α)} {jobs jobs' : List (Job α)}

theorem Holds.perm (h : Holds programs jobs) (hperm : jobs ~ jobs') : Holds programs jobs' :=
  ⟨(hperm.map _).nodup_iff.mp h.distinct, fun job hjob => h.program job (hperm.mem_iff.mpr hjob)⟩

theorem Holds.tail {job : Job α} (h : Holds programs (job :: jobs)) : Holds programs jobs :=
  ⟨(List.nodup_cons.mp h.distinct).2, fun job' hjob' => h.program job' (List.mem_cons_of_mem _ hjob')⟩

/-- The job at the head goes on. -/
theorem Holds.set {place : Nat} {p : Program α} (h : Holds programs (⟨place, p⟩ :: jobs))
    (q : Program α) : Holds (programs.set place q) (⟨place, q⟩ :: jobs) := by
  refine ⟨h.distinct, fun job hjob => ?_⟩
  have hlt := (List.getElem?_eq_some_iff.mp (h.program _ List.mem_cons_self)).1
  rcases List.mem_cons.mp hjob with rfl | hjob
  · exact List.getElem?_set_self hlt
  · have hne : place ≠ job.place := fun heq =>
      (List.nodup_cons.mp h.distinct).1 (List.mem_map.mpr ⟨job, hjob, heq.symm⟩)
    rw [List.getElem?_set_ne hne]
    exact h.program job (List.mem_cons_of_mem _ hjob)

theorem holds_ofPrograms (programs : List (Program α)) : Holds programs (ofPrograms programs).jobs := by
  have hjobs : (ofPrograms programs).jobs = programs.zipIdx.map fun q => ⟨q.2, q.1⟩ :=
    List.append_nil _
  rw [hjobs]
  refine ⟨?_, fun job hjob => ?_⟩
  · rw [List.map_map]
    have hplaces : programs.zipIdx.map (Job.place ∘ fun q => (⟨q.2, q.1⟩ : Job α)) =
        List.range programs.length := by
      rw [List.range_eq_range', ← List.zipIdx_map_snd 0 programs]
      rfl
    rw [hplaces]
    exact List.nodup_range
  · obtain ⟨⟨p, n⟩, hmem, rfl⟩ := List.mem_map.mp hjob
    exact List.mem_zipIdx_iff_getElem?.mp hmem

end Pool

/-- **Workers interleave calls**: however many workers take calls from a list, and whatever the order of
their steps. -/
theorem Interleaving.pool_run (s : Setting) (workers : Nat) (schedule : List Nat) (w : World)
    (calls : List SourceCall) :
    ∃ moves programs, Interleaving s w calls moves
        (Pool.run s workers schedule w (.ofPrograms (calls.map SourceCall.program))).1 programs ∧
      Pool.Holds programs
        (Pool.run s workers schedule w (.ofPrograms (calls.map SourceCall.program))).2.jobs := by
  refine Pool.run_induction (P := fun w' p => ∃ moves programs, Interleaving s w calls moves w' programs ∧
    Pool.Holds programs p.jobs) ?assign ?answer ?step schedule ⟨[], _, .start, Pool.holds_ofPrograms _⟩
  case assign =>
    rintro w' p ⟨moves, programs, h, hp⟩
    exact ⟨moves, programs, h, hp.perm (Pool.jobs_assign p workers).symm⟩
  case answer =>
    rintro w' p m place a hat ⟨moves, programs, h, hp⟩
    exact ⟨moves, programs, h, (hp.perm (Pool.perm_active hat)).tail⟩
  case step =>
    -- a worker's step is a step of one of the calls
    rintro w' p m place act next hat ⟨moves, programs, h, hp⟩
    have hholds := hp.perm (Pool.perm_active hat)
    exact ⟨_, _, .move h (hholds.program _ List.mem_cons_self) (.inl rfl),
      (hholds.set _).perm (Pool.perm_set hat _).symm⟩

/-! ## One writer -/

/-- **One writer to a place.**  However the steps of calls that write sources are interleaved, and
whatever fails in them, at most one call is at work on a file, no call removes the file of another, what
was recorded stands complete from then on, and at most one call records for one path. -/
theorem singleWriter_of_interleaving {s : Setting} {calls : List SourceCall} {moves : List Move}
    {w w' : World} {programs : List (Program (Except GenerationFailure Unit))}
    (h : Interleaving s w calls moves w' programs) : SingleWriter s calls moves programs := by
  obtain ⟨tenure, htenancy⟩ := h.tenancy
  refine ⟨?alone, ?discards_own, ?complete, ?records_once⟩
  case alone =>
    intro i j place hi hj
    exact Option.some.inj ((htenancy.maker?_of_atWork hi).symm.trans (htenancy.maker?_of_atWork hj))
  case discards_own =>
    intro earlier m later hmoves hdiscarded place hne
    obtain ⟨programs', next, hrun, hp, hstep⟩ := h.split hmoves
    obtain ⟨tenure', htenancy'⟩ := hrun.tenancy
    obtain ⟨c, hc, hkeeps⟩ := htenancy'.keeps _ _ hp
    obtain ⟨t', -, hturns, hchanges⟩ :=
      hkeeps.step (fun bytes hhas => (htenancy'.has _ c bytes hc hhas).1) hstep
    obtain ⟨rfl, hgone⟩ := hchanges.removed hdiscarded place hne
    rw [show m.act.effect m.answer = .discarded from hdiscarded] at hturns
    obtain ⟨bytes, hholds⟩ := hturns.of_discarded
    exact ⟨hgone, (htenancy'.has _ c bytes hc (by rw [hholds]; rfl)).2⟩
  case complete =>
    intro earlier m later name hmoves hrecorded
    obtain ⟨c, hc, hname, -⟩ :=
      htenancy.has_of_recorded (hmoves ▸ List.mem_append_right _ List.mem_cons_self) hrecorded
    refine ⟨c, hc, hname, fun m' hm' => ?_⟩
    obtain ⟨between, later', hlater⟩ := List.append_of_mem hm'
    rw [hlater, ← List.append_assoc] at hmoves
    obtain ⟨programs', hrun⟩ := h.upTo hmoves
    obtain ⟨tenure', htenancy'⟩ := hrun.tenancy
    have hm : m ∈ earlier ++ between ++ [m'] := by
      cases between with
      | nil => simp [(List.cons.inj hlater).1]
      | cons first rest => simp [(List.cons.inj hlater).1]
    obtain ⟨c', hc', -, hstands, -⟩ := htenancy'.has_of_recorded hm hrecorded
    obtain rfl := Option.some.inj (hc.symm.trans hc')
    exact hstands
  case records_once =>
    intro m hm m' hm' name name' hrecorded hrecorded' hplace
    obtain ⟨-, -, -, -, hmaker⟩ := htenancy.has_of_recorded hm hrecorded
    obtain ⟨-, -, -, -, hmaker'⟩ := htenancy.has_of_recorded hm' hrecorded'
    rw [hplace, hmaker'] at hmaker
    exact (Option.some.inj hmaker).symm

/-- Three calls write a source of one type.  The second comes while the file of the first stands, the
disk is full when the first writes, and the third comes after the first has discarded its file. -/
theorem singleWriter_three_calls :
    let s : Setting :=
      { layout := ⟨[], [], ⟨.here, ["out"]⟩⟩
        here := []
        faults := fun turn =>
          if turn = 0 then some ⟨.write, .raised .system "no space left", 1⟩ else none }
    let w : World := { files := ⟨[]⟩ }
    let calls : List SourceCall := [⟨"com.A", "one"⟩, ⟨"com.A", "two"⟩, ⟨"com.A", "three"⟩]
    let run := Pool.run s 3 ([0, 1, 1] ++ List.replicate 10 0) w
      (.ofPrograms (calls.map SourceCall.program))
    (run.2.answers.map fun answer => (answer.1, answer.2.toBool)) = [(1, false), (0, false)] ∧
      run.1.written = ["com.A"] ∧
      ∃ moves programs, Interleaving s w calls moves run.1 programs ∧
        SingleWriter s calls moves programs := by
  intro s w calls run
  obtain ⟨moves, programs, hrun, -⟩ :=
    Interleaving.pool_run s 3 ([0, 1, 1] ++ List.replicate 10 0) w calls
  exact ⟨by decide +kernel, by decide +kernel, moves, programs, hrun,
    singleWriter_of_interleaving hrun⟩

end TextProviders
