import Mathlib.Data.List.Perm.Basic
import TextProviders.Generation.Workers

/-!
# Steps of a pool

The laws of a pool that do not depend on what its programs do.  When workers take up programs, those that
are not through only come in another order (`perm_assign`).  A program that leaves its answer or takes a
step leaves the others as they are (`perm_active`, `perm_set`).  These are all the changes there are, so
what each of them preserves holds along every schedule (`run_induction`).
-/

namespace TextProviders.Pool

open scoped List

variable {α : Type} {p : Pool α}

/-! ## The programs that are not through -/

theorem perm_assign (p : Pool α) (workers : Nat) :
    (p.assign workers).waiting ++ (p.assign workers).active ~ p.waiting ++ p.active := by
  unfold assign
  dsimp only
  generalize workers - p.active.length = idle
  calc p.waiting.drop idle ++ (p.active ++ p.waiting.take idle)
      _ ~ (p.active ++ p.waiting.take idle) ++ p.waiting.drop idle := List.perm_append_comm
      _ = p.active ++ p.waiting := by rw [List.append_assoc, List.take_append_drop]
      _ ~ p.waiting ++ p.active := List.perm_append_comm

theorem mem_assign {workers : Nat} {job : Job α} :
    (job ∈ (p.assign workers).waiting ∨ job ∈ (p.assign workers).active) ↔
      job ∈ p.waiting ∨ job ∈ p.active := by
  rw [← List.mem_append, ← List.mem_append]
  exact (perm_assign p workers).mem_iff

section

variable {m : Nat} {job other : Job α} (hat : p.active[m]? = some job)

include hat

/-- One of the programs that are being run, and the others. -/
theorem perm_active : p.waiting ++ p.active ~ job :: (p.waiting ++ p.active.eraseIdx m) := by
  obtain ⟨hlt, rfl⟩ := List.getElem?_eq_some_iff.mp hat
  exact ((List.getElem_cons_eraseIdx_perm hlt).symm.append_left _).trans List.perm_middle

/-- What is left of it after a step, and the others. -/
theorem perm_set (later : Job α) :
    p.waiting ++ p.active.set m later ~ later :: (p.waiting ++ p.active.eraseIdx m) := by
  obtain ⟨hlt, -⟩ := List.getElem?_eq_some_iff.mp hat
  exact ((List.set_perm_cons_eraseIdx hlt _).append_left _).trans List.perm_middle

theorem mem_active_iff : (other ∈ p.waiting ∨ other ∈ p.active) ↔
    other = job ∨ other ∈ p.waiting ∨ other ∈ p.active.eraseIdx m := by
  rw [← List.mem_append, ← List.mem_append, (perm_active hat).mem_iff, List.mem_cons]

theorem mem_set_iff (later : Job α) : (other ∈ p.waiting ∨ other ∈ p.active.set m later) ↔
    other = later ∨ other ∈ p.waiting ∨ other ∈ p.active.eraseIdx m := by
  rw [← List.mem_append, ← List.mem_append, (perm_set hat later).mem_iff, List.mem_cons]

end

/-! ## Along a schedule -/

/-- **What the changes of a pool preserve holds along every schedule**: that workers take up programs, that
a program leaves its answer, and that one takes a step. -/
theorem run_induction {s : Setting} {workers : Nat} {P : World → Pool α → Prop}
    (hassign : ∀ w p, P w p → P w (p.assign workers))
    (hanswer : ∀ w p m place a, p.active[m]? = some ⟨place, .done a⟩ → P w p →
      P w { p with active := p.active.eraseIdx m, answers := p.answers ++ [(place, a)] })
    (hstep : ∀ w p m place act next, p.active[m]? = some ⟨place, .step act next⟩ → P w p →
      P (w.perform s act).1 { p with active := p.active.set m ⟨place, next (w.perform s act).2⟩ })
    (schedule : List Nat) {w : World} {p : Pool α} (h : P w p) :
    P (run s workers schedule w p).1 (run s workers schedule w p).2 := by
  induction schedule generalizing w p with
  | nil => exact h
  | cons choice schedule ih =>
      have hassigned := hassign w p h
      have hnext : P (advance s w (p.assign workers) choice).1
          (advance s w (p.assign workers) choice).2 := by
        unfold advance
        dsimp only
        split
        · exact hassigned
        · next hat => exact hanswer _ _ _ _ _ hat hassigned
        · next hat => exact hstep _ _ _ _ _ _ hat hassigned
      exact ih hnext

end TextProviders.Pool
