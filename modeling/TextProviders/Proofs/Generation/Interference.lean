import TextProviders.Proofs.Generation.Faults

/-!
# Programs among others

A program that does not run alone finds between its steps what others have done.  `Program.Meets`
says what it does for others and what it needs of them: between two of its steps it relies on `R`, each
of its steps guarantees `G`, and its answer and the world in which it ends satisfy `Q`.  The statement
is about one program and one world in which it starts; of the others only `R` is known.

Programs can run together if what each of them guarantees is what the others rely on (`Sharing`).  Then
each ends as it would among others that keep to its rely, whether they run one after the other
(`meets_runEach`) or several workers run them, with their steps in any order (`Pool.meets_run`).
-/

namespace TextProviders

open Program
open scoped List

/-- From a world on, and with what is relied on between its steps, a program guarantees each of its
steps, and ends with an answer and in a world as the postcondition says. -/
def Program.Meets (s : Setting) (R G : World → World → Prop) {α : Type} (Q : World → α → Prop) :
    Program α → World → Prop
  | done a, w => Q w a
  | step act next, w => ∀ w₁, R w w₁ →
      G w₁ (w₁.perform s act).1 ∧
        Meets s R G Q (next (w₁.perform s act).2) (w₁.perform s act).1

namespace Program

variable {s : Setting} {R G : World → World → Prop} {α β : Type} {w : World}

theorem Meets.pure {Q : World → α → Prop} {a : α} (h : Q w a) :
    (Pure.pure a : Program α).Meets s R G Q w :=
  h

theorem Meets.bind {Q : World → α → Prop} {T : World → β → Prop} {p : Program α}
    {f : α → Program β} (hp : p.Meets s R G Q w)
    (hf : ∀ w a, Q w a → (f a).Meets s R G T w) : (p >>= f).Meets s R G T w := by
  induction p generalizing w with
  | done a => exact hf w a hp
  | step act next ih =>
      intro w₁ hw₁
      obtain ⟨hstep, hnext⟩ := hp w₁ hw₁
      exact ⟨hstep, ih _ hnext⟩

theorem meets_ofAction (act : Action) {Q : World → act.Answer → Prop}
    (h : ∀ w₁, R w w₁ → ∀ w₂ answer, w₁.perform s act = (w₂, answer) → G w₁ w₂ ∧ Q w₂ answer) :
    (ofAction act).Meets s R G Q w := by
  intro w₁ hw₁
  exact h w₁ hw₁ _ _ rfl

theorem Meets.of_step {act : Action} {Q : World → act.Answer → Prop}
    (h : (ofAction act).Meets s R G Q w) {w₁ w₂ : World} {answer : act.Answer} (hw₁ : R w w₁)
    (hstep : w₁.perform s act = (w₂, answer)) : G w₁ w₂ ∧ Q w₂ answer := by
  have hmeets := h w₁ hw₁
  rw [hstep] at hmeets
  exact hmeets

/-- A step that whatever is relied on outlives, and that keeps what it is to guarantee. -/
theorem meets_idle (act : Action) {P : World → Prop}
    (hown : ∀ w₁, R w w₁ → R w₁ (w₁.perform s act).1 ∧ G w₁ (w₁.perform s act).1)
    (hstable : ∀ a b, R a b → P a → P b) (hP : P w) :
    (ofAction act).Meets s R G (fun w' _ => P w') w := by
  refine meets_ofAction act fun w₁ hw₁ w₂ answer hstep => ?_
  obtain rfl : w₂ = (w₁.perform s act).1 := congrArg Prod.fst hstep.symm
  obtain ⟨hkept, hguaranteed⟩ := hown w₁ hw₁
  exact ⟨hguaranteed, hstable _ _ hkept (hstable _ _ hw₁ hP)⟩

theorem Meets.weaken {G' : World → World → Prop} {Q Q' : World → α → Prop} {p : Program α}
    (h : p.Meets s R G Q w) (hG : ∀ a b, G a b → G' a b) (hQ : ∀ w a, Q w a → Q' w a) :
    p.Meets s R G' Q' w := by
  induction p generalizing w with
  | done a => exact hQ w a h
  | step act next ih =>
      intro w₁ hw₁
      obtain ⟨hstep, hnext⟩ := h w₁ hw₁
      exact ⟨hG _ _ hstep, ih _ hnext⟩

/-- What neither the others nor the program itself can change holds in the end. -/
theorem Meets.frame {P : World → Prop} {Q : World → α → Prop} {p : Program α}
    (h : p.Meets s R G Q w) (hR : ∀ a b, R a b → P a → P b) (hG : ∀ a b, G a b → P a → P b)
    (hP : P w) : p.Meets s R G (fun w a => P w ∧ Q w a) w := by
  induction p generalizing w with
  | done a => exact ⟨hP, h⟩
  | step act next ih =>
      intro w₁ hw₁
      obtain ⟨hstep, hnext⟩ := h w₁ hw₁
      exact ⟨hstep, ih _ hnext (hG _ _ hstep (hR _ _ hw₁ hP))⟩

/-- A declaration that fails is left in the world that the report of its failure leaves, and the failure is
in its outcome. -/
theorem meets_failWith_of_report {P : World → Prop} (o : Outcome) (e : GenerationFailure)
    (hreport : ∀ d, (ofAction (.report d)).Meets s R G (fun w' _ => P w') w) (hP : P w) :
    (o.failWith e).Meets s R G
      (fun w' answer => P w' ∧ ∀ o', answer = .ok o' → o' = { o with error := some e.report }) w := by
  unfold Outcome.failWith
  split
  · exact .pure ⟨hP, nofun⟩
  · refine (hreport _).bind fun w₁ _ hw₁ => .pure ⟨hw₁, fun o' ho' => ?_⟩
    exact (Except.ok.inj ho').symm

theorem Meets.and_yields {Q : World → α → Prop} {Y : α → Prop} {p : Program α}
    (h : p.Meets s R G Q w) (hy : p.Yields s Y) : p.Meets s R G (fun w a => Q w a ∧ Y a) w := by
  induction hy generalizing w with
  | done ha => exact ⟨h, ha⟩
  | step _ ih =>
      intro w₁ hw₁
      obtain ⟨hstep, hnext⟩ := h w₁ hw₁
      exact ⟨hstep, ih w₁ hnext⟩

/-- A program that runs alone: its own steps are all that it finds done. -/
theorem Meets.run {Q : World → α → Prop} {p : Program α} (h : p.Meets s R G Q w)
    (htrans : ∀ a b c, G a b → G b c → G a c) (hown : ∀ a b, G a b → R b b ∧ G b b) (hR : R w w)
    (hG : G w w) : G w (p.run s w).1 ∧ Q (p.run s w).1 (p.run s w).2 := by
  induction p generalizing w with
  | done a => exact ⟨hG, h⟩
  | step act next ih =>
      obtain ⟨hstep, hnext⟩ := h w hR
      obtain ⟨hR', hG'⟩ := hown _ _ hstep
      obtain ⟨hrun, hend⟩ := ih _ hnext hR' hG'
      exact ⟨htrans _ _ _ hstep hrun, hend⟩

end Program

/-! ## Programs that share a world -/

/-- What each program guarantees is what the others rely on. -/
structure Sharing (R G : Nat → World → World → Prop) : Prop where
  trans : ∀ i a b c, R i a b → R i b c → R i a c
  own : ∀ i a b, G i a b → R i b b
  others : ∀ i j a b, i ≠ j → G i a b → R j a b

section

variable {s : Setting} {R G : Nat → World → World → Prop} {α : Type}

/-- A program that runs alone for a while, after others. -/
theorem Sharing.meets_run (hs : Sharing R G) {i : Nat} {Q : World → α → Prop} {p : Program α}
    {w w₁ : World} (h : p.Meets s (R i) (G i) Q w) (hw : R i w w₁) :
    (∃ w₀, Q w₀ (p.run s w₁).2 ∧ R i w₀ (p.run s w₁).1) ∧
      ∀ j, j ≠ i → ∀ w₀, R j w₀ w₁ → R j w₀ (p.run s w₁).1 := by
  induction p generalizing w w₁ with
  | done a => exact ⟨⟨w, h, hw⟩, fun _ _ _ hj => hj⟩
  | step act next ih =>
      obtain ⟨hstep, hnext⟩ := h w₁ hw
      obtain ⟨hend, hothers⟩ := ih _ hnext (hs.own i _ _ hstep)
      refine ⟨hend, fun j hj w₀ hw₀ => hothers j hj w₀ ?_⟩
      exact hs.trans j _ _ _ hw₀ (hs.others i j _ _ (Ne.symm hj) hstep)

/-- Programs that run one after the other, each from the world in which the one before it ended. -/
theorem Sharing.meets_runEach (hs : Sharing R G) (Q : Nat → World → α → Prop)
    {programs : List (Program α)} (first : Nat) {w : World}
    (h : ∀ i p, programs[i]? = some p →
      ∃ w₀, p.Meets s (R (first + i)) (G (first + i)) (Q (first + i)) w₀ ∧ R (first + i) w₀ w) :
    (∀ i a, (runEach s w programs).2[i]? = some a →
      ∃ w₀, Q (first + i) w₀ a ∧ R (first + i) w₀ (runEach s w programs).1) ∧
      ∀ j, j < first ∨ first + programs.length ≤ j →
        ∀ w₀, R j w₀ w → R j w₀ (runEach s w programs).1 := by
  induction programs generalizing first w with
  | nil => exact ⟨fun i a ha => by simp [runEach] at ha, fun _ _ _ hj => hj⟩
  | cons p rest ih =>
      obtain ⟨w₀, hp, hw₀⟩ := h 0 p rfl
      obtain ⟨⟨w₁, hq, hw₁⟩, hothers⟩ := hs.meets_run hp hw₀
      have hrest : ∀ i q, rest[i]? = some q → ∃ w₀,
          q.Meets s (R (first + 1 + i)) (G (first + 1 + i)) (Q (first + 1 + i)) w₀ ∧
            R (first + 1 + i) w₀ (p.run s w).1 := by
        intro i q hq
        obtain ⟨w₀, hmeets, hw₀⟩ := h (i + 1) q (by simpa using hq)
        have hshift : first + (i + 1) = first + 1 + i := by omega
        rw [hshift] at hmeets hw₀
        exact ⟨w₀, hmeets, hothers _ (by omega) _ hw₀⟩
      obtain ⟨hanswers, hlater⟩ := ih (first + 1) hrest
      rw [runEach_cons]
      refine ⟨fun i a ha => ?_, fun j hj w₀ hw₀ => ?_⟩
      · cases i with
        | zero =>
            obtain rfl := Option.some.inj ha
            exact ⟨w₁, hq, hlater _ (.inl (by omega)) _ hw₁⟩
        | succ i =>
            have hshift : first + (i + 1) = first + 1 + i := by omega
            rw [hshift]
            exact hanswers i a (by simpa using ha)
      · rw [List.length_cons] at hj
        exact hlater j (by omega) w₀ (hothers j (by omega) w₀ hw₀)

end

/-! ## Several workers -/

namespace Pool

variable {s : Setting} {R G : Nat → World → World → Prop} {α : Type} {Q : Nat → World → α → Prop}

/-- The places of the programs of a pool, wherever they are. -/
def places (p : Pool α) : List Nat :=
  p.waiting.map (·.place) ++ p.active.map (·.place) ++ p.answers.map (·.1)

/-- Each program that waits or is being run has met its specification so far, and each that is through
has met it. -/
structure Meets (s : Setting) (R G : Nat → World → World → Prop) (Q : Nat → World → α → Prop)
    (n : Nat) (w : World) (p : Pool α) : Prop where
  places : p.places.Perm (List.range n)
  jobs : ∀ job, job ∈ p.waiting ∨ job ∈ p.active →
    ∃ w₀, job.program.Meets s (R job.place) (G job.place) (Q job.place) w₀ ∧ R job.place w₀ w
  answers : ∀ i a, (i, a) ∈ p.answers → ∃ w₀, Q i w₀ a ∧ R i w₀ w

theorem places_assign (p : Pool α) (workers : Nat) : (p.assign workers).places.Perm p.places := by
  have hjobs := (perm_assign p workers).map (·.place)
  rw [List.map_append, List.map_append] at hjobs
  exact hjobs.append_right _

theorem Meets.assign {n : Nat} {w : World} {p : Pool α} (h : p.Meets s R G Q n w)
    (workers : Nat) : (p.assign workers).Meets s R G Q n w :=
  ⟨(places_assign p workers).trans h.places, fun job hjob => h.jobs job (mem_assign.mp hjob), h.answers⟩

/-- A program that is through leaves its answer. -/
theorem Meets.answer {n m : Nat} {w : World} {p : Pool α} (h : p.Meets s R G Q n w) {place : Nat}
    {a : α} (hat : p.active[m]? = some ⟨place, .done a⟩) :
    Meets s R G Q n w
      { p with active := p.active.eraseIdx m, answers := p.answers ++ [(place, a)] } := by
  obtain ⟨hm, hget⟩ := List.getElem?_eq_some_iff.mp hat
  refine ⟨?_, fun job hjob => h.jobs job (hjob.imp_right List.mem_of_mem_eraseIdx), ?_⟩
  · refine List.Perm.trans ?_ h.places
    have herase : (p.active.map (·.place)).Perm (place :: (p.active.eraseIdx m).map (·.place)) := by
      have := (List.getElem_cons_eraseIdx_perm hm).symm.map (·.place)
      rwa [hget] at this
    unfold Pool.places
    dsimp only
    rw [List.append_assoc, List.append_assoc, List.map_append]
    refine List.Perm.append_left _ ?_
    calc (p.active.eraseIdx m).map (·.place) ++ (p.answers.map (·.1) ++ [place])
        _ ~ place :: ((p.active.eraseIdx m).map (·.place) ++ p.answers.map (·.1)) := by
          rw [← List.append_assoc]
          exact List.perm_append_singleton place _
        _ ~ p.active.map (·.place) ++ p.answers.map (·.1) := herase.symm.append_right _
  · intro i b hmem
    rcases List.mem_append.mp hmem with hbefore | hnew
    · exact h.answers i b hbefore
    · obtain ⟨rfl, rfl⟩ := Prod.mk.inj (List.mem_singleton.mp hnew)
      exact h.jobs _ (.inr (List.mem_of_getElem? hat))

theorem mem_set_of_nodup {β : Type} {l : List β} {f : β → Nat} {m : Nat} {a b x : β}
    (hnodup : (l.map f).Nodup) (ha : l[m]? = some a) (hb : b ∈ l.set m x) :
    b = x ∨ (b ∈ l ∧ f b ≠ f a) := by
  induction l generalizing m with
  | nil => simp at ha
  | cons c rest ih =>
      simp only [List.map_cons, List.nodup_cons] at hnodup
      obtain ⟨hc, hrest⟩ := hnodup
      cases m with
      | zero =>
          obtain rfl : c = a := by simpa using ha
          rcases List.mem_cons.mp hb with rfl | hb
          · exact .inl rfl
          · refine .inr ⟨List.mem_cons_of_mem _ hb, fun heq => hc ?_⟩
            rw [← heq]
            exact List.mem_map_of_mem hb
      | succ m =>
          have ha' : rest[m]? = some a := by simpa using ha
          rcases List.mem_cons.mp hb with rfl | hb
          · refine .inr ⟨List.mem_cons_self, fun heq => hc ?_⟩
            rw [heq]
            exact List.mem_map_of_mem (List.mem_of_getElem? ha')
          · rcases ih hrest ha' hb with hx | ⟨hmem, hne⟩
            · exact .inl hx
            · exact .inr ⟨List.mem_cons_of_mem _ hmem, hne⟩

/-- One of the programs takes a step, and the others find what they rely on. -/
theorem Meets.step (hs : Sharing R G) {n m : Nat} {w : World} {p : Pool α}
    (h : p.Meets s R G Q n w) {place : Nat} {act : Action} {next : act.Answer → Program α}
    (hat : p.active[m]? = some ⟨place, .step act next⟩) :
    Meets s R G Q n (w.perform s act).1
        { p with active := p.active.set m ⟨place, next (w.perform s act).2⟩ } ∧
      ∀ j, n ≤ j → ∀ w₀, R j w₀ w → R j w₀ (w.perform s act).1 := by
  obtain ⟨w₀, hmeets, hw₀⟩ := h.jobs _ (.inr (List.mem_of_getElem? hat))
  obtain ⟨hstep, hnext⟩ := hmeets w hw₀
  have hothers (j : Nat) (hj : place ≠ j) : ∀ w₀, R j w₀ w → R j w₀ (w.perform s act).1 :=
    fun w₀ hw₀ => hs.trans j _ _ _ hw₀ (hs.others place j _ _ hj hstep)
  have hnodup : p.places.Nodup := h.places.nodup_iff.mpr List.nodup_range
  have hmem : place ∈ p.active.map (·.place) := List.mem_map_of_mem (List.mem_of_getElem? hat)
  unfold Pool.places at hnodup
  obtain ⟨hjobs, -, hanswers⟩ := List.nodup_append.mp hnodup
  obtain ⟨-, hactive, hwaiting⟩ := List.nodup_append.mp hjobs
  have hplaces : (p.active.set m ⟨place, next (w.perform s act).2⟩).map (·.place) =
      p.active.map (·.place) := by
    obtain ⟨hm, hget⟩ := List.getElem?_eq_some_iff.mp hat
    have hself : (p.active.map (·.place)).get ⟨m, by simpa using hm⟩ = place := by simp [hget]
    rw [List.map_set]
    dsimp only
    rw [← hself]
    exact List.set_getElem_self _
  refine ⟨⟨?_, fun job hjob => ?_, fun i a hia => ?_⟩, fun j hj => hothers j ?_⟩
  · have := h.places
    unfold Pool.places at this ⊢
    rwa [hplaces]
  · rcases hjob with hjob | hjob
    · obtain ⟨w₁, hjobmeets, hw₁⟩ := h.jobs job (.inl hjob)
      have hne : job.place ≠ place := hwaiting _ (List.mem_map_of_mem hjob) _ hmem
      exact ⟨w₁, hjobmeets, hothers _ (Ne.symm hne) w₁ hw₁⟩
    · rcases mem_set_of_nodup hactive hat hjob with rfl | ⟨hjob, hne⟩
      · exact ⟨_, hnext, hs.own place _ _ hstep⟩
      · obtain ⟨w₁, hjobmeets, hw₁⟩ := h.jobs job (.inr hjob)
        exact ⟨w₁, hjobmeets, hothers _ (Ne.symm hne) w₁ hw₁⟩
  · obtain ⟨w₁, hq, hw₁⟩ := h.answers i a hia
    have hne : place ≠ i := hanswers _ (List.mem_append_right _ hmem) _ (List.mem_map_of_mem hia)
    exact ⟨w₁, hq, hothers i hne w₁ hw₁⟩
  · have hrange : place ∈ List.range n :=
      h.places.subset (by unfold Pool.places; simp only [List.mem_append]; exact .inl (.inr hmem))
    have := List.mem_range.mp hrange
    omega

theorem Meets.run (hs : Sharing R G) (workers : Nat) (schedule : List Nat) {n : Nat} {w : World}
    {p : Pool α} (h : p.Meets s R G Q n w) :
    (Pool.run s workers schedule w p).2.Meets s R G Q n (Pool.run s workers schedule w p).1 ∧
      ∀ j, n ≤ j → ∀ w₀, R j w₀ w → R j w₀ (Pool.run s workers schedule w p).1 := by
  refine run_induction (P := fun w' p => p.Meets s R G Q n w' ∧ ∀ j, n ≤ j → ∀ w₀, R j w₀ w → R j w₀ w')
    ?assign ?answer ?step schedule ⟨h, fun _ _ _ hj => hj⟩
  case assign => exact fun w' p h => ⟨h.1.assign workers, h.2⟩
  case answer => exact fun w' p m place a hat h => ⟨h.1.answer hat, h.2⟩
  case step =>
    intro w' p m place act next hat ⟨hmeets, hothers⟩
    obtain ⟨hnext, hlater⟩ := hmeets.step hs hat
    exact ⟨hnext, fun j hj w₀ hw₀ => hlater j hj w₀ (hothers j hj w₀ hw₀)⟩

theorem meets_ofPrograms {programs : List (Program α)} {w : World}
    (h : ∀ i p, programs[i]? = some p → p.Meets s (R i) (G i) (Q i) w ∧ R i w w) :
    (ofPrograms programs).Meets s R G Q programs.length w := by
  refine ⟨?_, fun job hjob => ?_, fun i a hia => (List.not_mem_nil hia).elim⟩
  · have : (ofPrograms programs).places = List.range programs.length := by
      simp only [places, ofPrograms, List.map_map, List.map_nil, List.append_nil]
      exact (List.zipIdx_map_snd 0 programs).trans List.range_eq_range'.symm
    rw [this]
  · rcases hjob with hwaiting | hactive
    · obtain ⟨⟨p, i⟩, hp, rfl⟩ := List.mem_map.mp hwaiting
      obtain ⟨hmeets, hw⟩ := h i p (by simpa [List.mem_zipIdx_iff_getElem?] using hp)
      exact ⟨w, hmeets, hw⟩
    · cases hactive

/-- When all programs are through, the answers stand in the order of the programs. -/
theorem Meets.inOrder {n : Nat} {w : World} {p : Pool α} (h : p.Meets s R G Q n w)
    (hfinished : p.isFinished = true) :
    p.inOrder.length = n ∧ ∀ i a, p.inOrder[i]? = some a → ∃ w₀, Q i w₀ a ∧ R i w₀ w := by
  simp only [isFinished, Bool.and_eq_true, List.isEmpty_iff] at hfinished
  have hplaces : (p.answers.map (·.1)).Perm (List.range n) := by
    simpa [Pool.places, hfinished] using h.places
  generalize hsorted : p.answers.mergeSort (fun a b => a.1 ≤ b.1) = sorted
  have hperm : sorted.Perm p.answers := hsorted ▸ List.mergeSort_perm _ _
  have hkeys : sorted.map (·.1) = List.range n := by
    have hpairwise : (p.answers.mergeSort fun a b => a.1 ≤ b.1).Pairwise
        fun a b => decide (a.1 ≤ b.1) = true :=
      List.pairwise_mergeSort (fun a b c => by simpa using Nat.le_trans)
        (fun a b => by simpa using Nat.le_total a.1 b.1) p.answers
    rw [hsorted] at hpairwise
    have hkeys : (sorted.map (·.1)).Pairwise (· ≤ ·) :=
      List.pairwise_map.mpr (hpairwise.imp fun hle => of_decide_eq_true hle)
    exact List.Perm.eq_of_pairwise (fun a b _ _ => Nat.le_antisymm) hkeys List.pairwise_le_range
      ((hperm.map _).trans hplaces)
  have hinOrder : p.inOrder = sorted.map (·.2) := by rw [Pool.inOrder, hsorted]
  constructor
  · rw [hinOrder, List.length_map, ← List.length_map (·.1), hkeys, List.length_range]
  · intro i a hia
    rw [hinOrder, List.getElem?_map, Option.map_eq_some_iff] at hia
    obtain ⟨⟨k, b⟩, hkb, rfl⟩ := hia
    have hk : (sorted.map (·.1))[i]? = some k := by simp [hkb]
    rw [hkeys] at hk
    obtain ⟨hi, rfl⟩ := List.getElem?_eq_some_iff.mp hk
    rw [List.getElem_range] at hkb
    exact h.answers i b (hperm.mem_iff.mp (List.mem_of_getElem? hkb))

/-- **Programs that share a world, run by several workers.** -/
theorem meets_run (hs : Sharing R G) {programs : List (Program α)} {w : World}
    (h : ∀ i p, programs[i]? = some p → p.Meets s (R i) (G i) (Q i) w ∧ R i w w)
    (workers : Nat) (schedule : List Nat) {w' : World} {p' : Pool α}
    (hrun : Pool.run s workers schedule w (ofPrograms programs) = (w', p'))
    (hfinished : p'.isFinished = true) :
    p'.inOrder.length = programs.length ∧
      (∀ i a, p'.inOrder[i]? = some a → ∃ w₀, Q i w₀ a ∧ R i w₀ w') ∧
      ∀ j, programs.length ≤ j → ∀ w₀, R j w₀ w → R j w₀ w' := by
  obtain ⟨hend, hothers⟩ := (meets_ofPrograms h).run hs workers schedule
  rw [hrun] at hend hothers
  obtain ⟨hlength, hanswers⟩ := hend.inOrder hfinished
  exact ⟨hlength, hanswers, hothers⟩

end Pool

/-! ## Programs that end well -/

theorem exists_map_ok {ε α : Type} {answers : List (Except ε α)}
    (h : ∀ answer ∈ answers, ∃ a, answer = .ok a) : ∃ as : List α, answers = as.map .ok := by
  induction answers with
  | nil => exact ⟨[], rfl⟩
  | cons answer rest ih =>
      simp only [List.mem_cons, forall_eq_or_imp] at h
      obtain ⟨⟨a, rfl⟩, hrest⟩ := h
      obtain ⟨as, rfl⟩ := ih hrest
      exact ⟨a :: as, rfl⟩

theorem length_runEach {s : Setting} {α : Type} (w : World) (programs : List (Program α)) :
    (runEach s w programs).2.length = programs.length := by
  induction programs generalizing w with
  | nil => rfl
  | cons p rest ih => simp [runEach_cons, ih]

/-- What is known of programs that share a world when all of them are through and have ended well: of
each answer what the program says about it, and of the world what others rely on. -/
structure Through {α : Type} (R : Nat → World → World → Prop) (Q : Nat → World → α → Prop) (n : Nat)
    (w w' : World) (as : List α) : Prop where
  length : as.length = n
  answer : ∀ i a, as[i]? = some a → ∃ w₀, Q i w₀ a ∧ R i w₀ w'
  others : ∀ j, n ≤ j → ∀ w₀, R j w₀ w → R j w₀ w'

section

variable {s : Setting} {R G : Nat → World → World → Prop} {ε α : Type} {Q : Nat → World → α → Prop}
  {programs : List (Program (Except ε α))} {w : World}

theorem through_of_answers {n : Nat} {w' : World} {answers : List (Except ε α)}
    (hlength : answers.length = n)
    (hanswers : ∀ i answer, answers[i]? = some answer →
      ∃ w₀, (∃ a, answer = .ok a ∧ Q i w₀ a) ∧ R i w₀ w')
    (hothers : ∀ j, n ≤ j → ∀ w₀, R j w₀ w → R j w₀ w') :
    ∃ as, answers = as.map .ok ∧ Through R Q n w w' as := by
  obtain ⟨as, hall⟩ : ∃ as : List α, answers = as.map .ok := by
    refine exists_map_ok fun answer hmem => ?_
    obtain ⟨i, hi⟩ := List.getElem?_of_mem hmem
    obtain ⟨_, ⟨a, ha, -⟩, -⟩ := hanswers i answer hi
    exact ⟨a, ha⟩
  refine ⟨as, hall, ?_, fun i a ha => ?_, hothers⟩
  · rw [← hlength, hall, List.length_map]
  · obtain ⟨w₀, ⟨a', ha', hq⟩, hr⟩ := hanswers i (.ok a) (by simp [hall, ha])
    exact ⟨w₀, Except.ok.inj ha' ▸ hq, hr⟩

/-- One after the other. -/
theorem Sharing.through_runEach (hs : Sharing R G)
    (h : ∀ i p, programs[i]? = some p →
      p.Meets s (R i) (G i) (fun w answer => ∃ a, answer = .ok a ∧ Q i w a) w ∧ R i w w) :
    ∃ w' as, runEach s w programs = (w', as.map .ok) ∧ Through R Q programs.length w w' as := by
  obtain ⟨hanswers, hothers⟩ := hs.meets_runEach
    (fun i w (answer : Except ε α) => ∃ a, answer = .ok a ∧ Q i w a) 0 fun i p hp => by
      rw [Nat.zero_add]
      exact ⟨w, h i p hp⟩
  simp only [Nat.zero_add] at hanswers hothers
  obtain ⟨as, hall, hthrough⟩ := through_of_answers (length_runEach w programs) hanswers
    fun j hj => hothers j (.inr hj)
  exact ⟨_, as, Prod.ext rfl hall, hthrough⟩

/-- With several workers. -/
theorem Sharing.through_run (hs : Sharing R G)
    (h : ∀ i p, programs[i]? = some p →
      p.Meets s (R i) (G i) (fun w answer => ∃ a, answer = .ok a ∧ Q i w a) w ∧ R i w w)
    (workers : Nat) (schedule : List Nat) {w' : World} {p' : Pool (Except ε α)}
    (hrun : Pool.run s workers schedule w (Pool.ofPrograms programs) = (w', p'))
    (hfinished : p'.isFinished = true) :
    ∃ as, p'.inOrder = as.map .ok ∧ Through R Q programs.length w w' as := by
  obtain ⟨hlength, hanswers, hothers⟩ := Pool.meets_run hs h workers schedule hrun hfinished
  exact through_of_answers hlength hanswers hothers

end

end TextProviders
