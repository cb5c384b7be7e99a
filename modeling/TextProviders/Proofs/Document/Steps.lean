import TextProviders.Document.Fault

/-!
# How a reading can end

Reading a document fails with a fault or ends with a result.  `Within P Q` says of a reading that its
faults satisfy `P` and its results `Q`; `Steps` says it of a reading with a state, of which an invariant
holds.  The invariant and what is said of results can depend on a number that only grows, such as how much
is read already.  Each way to put readings together has one lemma.
-/

namespace TextProviders.Document

variable {α β σ : Type} {P : Fault → Prop}

/-- The reading fails only with faults of one kind, and ends only with results of one kind. -/
def Within (P : Fault → Prop) (Q : α → Prop) : Except Fault α → Prop
  | .error f => P f
  | .ok a => Q a

instance [DecidablePred P] {Q : α → Prop} [DecidablePred Q] :
    (x : Except Fault α) → Decidable (Within P Q x)
  | .error f => inferInstanceAs (Decidable (P f))
  | .ok a => inferInstanceAs (Decidable (Q a))

section

variable {Q : α → Prop} {R : β → Prop} {x : Except Fault α}

theorem Within.ok {a : α} (h : Q a) : Within P Q (.ok a) := h

theorem Within.error {f : Fault} (h : P f) : Within P Q (.error f : Except Fault α) := h

theorem Within.bind {f : α → Except Fault β} (hx : Within P Q x)
    (hf : ∀ a, Q a → Within P R (f a)) : Within P R (x >>= f) := by
  cases x with
  | error e => exact hx
  | ok a => exact hf a hx

theorem Within.map {f : α → β} (hx : Within P Q x) (hf : ∀ a, Q a → R (f a)) :
    Within P R (x.map f) := by
  cases x with
  | error e => exact hx
  | ok a => exact hf a hx

theorem Within.mono {Q' : α → Prop} (hx : Within P Q x) (h : ∀ a, Q a → Q' a) : Within P Q' x := by
  cases x with
  | error e => exact hx
  | ok a => exact h a hx

theorem Within.mono_fault {P' : Fault → Prop} (hx : Within P Q x) (h : ∀ f, P f → P' f) :
    Within P' Q x := by
  cases x with
  | error e => exact h e hx
  | ok a => exact hx

theorem Within.ite {y : Except Fault α} {p : Prop} [Decidable p] (hx : Within P Q x)
    (hy : Within P Q y) : Within P Q (if p then x else y) := by
  split
  · exact hx
  · exact hy

theorem Within.of_eq_error {f : Fault} (hx : Within P Q x) (h : x = .error f) : P f := by
  rw [h] at hx
  exact hx

theorem Within.of_eq_ok {a : α} (hx : Within P Q x) (h : x = .ok a) : Q a := by
  rw [h] at hx
  exact hx

end

/-- From a state of which the invariant holds, the reading fails only with faults of one kind, or ends in
such a state with a result of one kind.  The number has not become less. -/
def Steps (P : Fault → Prop) (I : Nat → σ → Prop) (n : Nat) (Q : Nat → α → Prop)
    (x : StateT σ (Except Fault) α) : Prop :=
  ∀ s, I n s → Within P (fun r => ∃ m, n ≤ m ∧ I m r.2 ∧ Q m r.1) (x.run s)

section

variable {I : Nat → σ → Prop} {n : Nat} {Q : Nat → α → Prop} {R : Nat → β → Prop}
  {x : StateT σ (Except Fault) α}

theorem Steps.pure {a : α} (h : Q n a) : Steps P I n Q (Pure.pure a) :=
  fun _ hs => ⟨n, Nat.le_refl n, hs, h⟩

theorem Steps.throw {f : Fault} (h : P f) : Steps P I n Q (MonadExcept.throw f) :=
  fun _ _ => h

theorem Steps.bind {f : α → StateT σ (Except Fault) β} (hx : Steps P I n Q x)
    (hf : ∀ m a, n ≤ m → Q m a → Steps P I m R (f a)) : Steps P I n R (x >>= f) := by
  intro s hs
  refine (hx s hs).bind fun r hr => ?_
  obtain ⟨m, hle, hm, hq⟩ := hr
  refine (hf m r.1 hle hq r.2 hm).mono fun r' hr' => ?_
  obtain ⟨k, hle', hk⟩ := hr'
  exact ⟨k, Nat.le_trans hle hle', hk⟩

theorem Steps.get : Steps P I n (fun m s => m = n ∧ I n s) (MonadState.get : StateT σ (Except Fault) σ) :=
  fun _ hs => ⟨n, Nat.le_refl n, hs, rfl, hs⟩

theorem Steps.modify {f : σ → σ} (h : ∀ s, I n s → I n (f s)) :
    Steps P I n (fun m _ => m = n) (modify f : StateT σ (Except Fault) PUnit) :=
  fun s hs => ⟨n, Nat.le_refl n, h s hs, rfl⟩

theorem Steps.set {s : σ} (h : I n s) :
    Steps P I n (fun m _ => m = n) (MonadStateOf.set s : StateT σ (Except Fault) PUnit) :=
  fun _ _ => ⟨n, Nat.le_refl n, h, rfl⟩

/-- A step that does not change the state. -/
theorem Steps.lift {y : Except Fault α} (h : Within P (Q n) y) :
    Steps P I n Q (liftM y : StateT σ (Except Fault) α) := by
  intro s hs
  cases y with
  | error e => exact h
  | ok a => exact ⟨n, Nat.le_refl n, hs, h⟩

theorem Steps.mono {Q' : Nat → α → Prop} (hx : Steps P I n Q x)
    (h : ∀ m a, n ≤ m → Q m a → Q' m a) : Steps P I n Q' x := by
  intro s hs
  refine (hx s hs).mono fun r hr => ?_
  obtain ⟨m, hle, hm, hq⟩ := hr
  exact ⟨m, hle, hm, h m r.1 hle hq⟩

/-- What is said of results goes on to hold. -/
def Grows (Q : Nat → α → Prop) : Prop :=
  ∀ m k a, m ≤ k → Q m a → Q k a

theorem Steps.mapM (hgrows : Grows R) {f : α → StateT σ (Except Fault) β} {as : List α}
    (h : ∀ a ∈ as, ∀ m, n ≤ m → Steps P I m R (f a)) :
    Steps P I n (fun m bs => ∀ b ∈ bs, R m b) (as.mapM f) := by
  induction as generalizing n with
  | nil => exact .pure fun b hb => absurd hb List.not_mem_nil
  | cons a rest ih =>
      rw [List.mapM_cons]
      refine (h a List.mem_cons_self n (Nat.le_refl n)).bind fun m b hle hb => ?_
      have hrest : Steps P I m (fun k bs => ∀ b ∈ bs, R k b) (rest.mapM f) :=
        ih fun x hx k hk => h x (List.mem_cons_of_mem _ hx) k (Nat.le_trans hle hk)
      refine hrest.bind fun k bs hk hbs => .pure ?_
      exact List.forall_mem_cons.mpr ⟨hgrows m k b hk hb, hbs⟩

theorem Steps.foldlM {f : β → α → StateT σ (Except Fault) β} {as : List α} {b : β}
    (hb : R n b) (h : ∀ a ∈ as, ∀ m b, n ≤ m → R m b → Steps P I m R (f b a)) :
    Steps P I n R (as.foldlM f b) := by
  induction as generalizing n b with
  | nil => exact .pure hb
  | cons a rest ih =>
      rw [List.foldlM_cons]
      refine (h a List.mem_cons_self n b (Nat.le_refl n) hb).bind fun m b' hle hb' => ?_
      exact ih hb' fun x hx k c hk hc => h x (List.mem_cons_of_mem _ hx) k c (Nat.le_trans hle hk) hc

end

end TextProviders.Document
