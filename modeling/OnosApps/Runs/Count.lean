import Mathlib.Algebra.BigOperators.Group.Finset.Piecewise
import Mathlib.Algebra.Order.BigOperators.Group.Finset
import OnosApps.Runs.Run

/-!
# Counting the steps of a run

The number of steps of a run that meet a condition. A count is bounded by an invariant that
speaks of the count so far, by the sum of the counts of finer conditions, and by a potential.

## Main definitions

* `countSteps next C s es`: the number of events of `es` that meet `C` in the state in which
  they are handled

## Main results

* `Along.run_count_invariant`, `run_count_invariant`: what every step (every step that meets a
  condition) keeps, with the count moved on, holds of a run and its count
* `countSteps_le_sum`, `sum_countSteps_le`: steps that each meet one of finitely many conditions
* `countSteps_add_le`: the steps that raise a potential, against those that lower it
* `countSteps_eq_length`: a run in which every step counts
-/

namespace Runs

open Finset

variable {σ ε ι : Type*}

section Count

variable (next : σ → ε → σ) (C : σ → ε → Prop) [∀ s e, Decidable (C s e)]

/-- The number of events of `es` that meet `C` in the state in which they are handled. -/
def countSteps : σ → List ε → ℕ
  | _, [] => 0
  | s, e :: es => (if C s e then 1 else 0) + countSteps (next s e) es

variable {next C} {s : σ}

theorem countSteps_append (es fs : List ε) :
    countSteps next C s (es ++ fs) =
      countSteps next C s es + countSteps next C (run next s es) fs := by
  induction es generalizing s with
  | nil => simp [countSteps]
  | cons e es ih => simp only [List.cons_append, countSteps, run_cons, ih, Nat.add_assoc]

theorem countSteps_snoc (es : List ε) (e : ε) :
    countSteps next C s (es ++ [e]) =
      countSteps next C s es + if C (run next s es) e then 1 else 0 := by
  rw [countSteps_append]
  rfl

/-- **The invariant rule with a count**: what every step that meets `D` keeps, with one more
counted if the step meets `C`, holds of a run whose steps all meet `D` and the number of its
steps that meet `C`. -/
theorem Along.run_count_invariant {D : σ → ε → Prop} {P : σ → ℕ → Prop}
    (hstep : ∀ s e n, P s n → D s e → P (next s e) (n + if C s e then 1 else 0)) {es : List ε}
    (hes : Along next D s es) (hs : P s 0) : P (run next s es) (countSteps next C s es) := by
  induction es using List.reverseRecOn with
  | nil => exact hs
  | append_singleton es e ih =>
    obtain ⟨hes, he⟩ := along_snoc.mp hes
    rw [run_snoc, countSteps_snoc]
    exact hstep _ e _ (ih hes) he

/-- The same for steps without a condition. -/
theorem run_count_invariant {P : σ → ℕ → Prop}
    (hstep : ∀ s e n, P s n → P (next s e) (n + if C s e then 1 else 0)) (hs : P s 0)
    (es : List ε) : P (run next s es) (countSteps next C s es) :=
  (along_of_forall (A := fun _ => True) fun _ _ => trivial).run_count_invariant
    (fun s e n h _ => hstep s e n h) hs

/-- If every step meets `C`, the count is the number of events. -/
theorem countSteps_eq_length {es : List ε} (h : Along next C s es) :
    countSteps next C s es = es.length := by
  induction es generalizing s with
  | nil => rfl
  | cons e es ih =>
    rw [countSteps, if_pos h.1, ih h.2, List.length_cons, Nat.add_comm]

/-- **A count is at most the sum of the counts of finer conditions**, if every step that meets
`C` meets one of them. -/
theorem countSteps_le_sum {D : ι → σ → ε → Prop} [∀ i s e, Decidable (D i s e)] {I : Finset ι}
    {es : List ε} (h : Along next (fun s e => C s e → ∃ i ∈ I, D i s e) s es) :
    countSteps next C s es ≤ ∑ i ∈ I, countSteps next (D i) s es := by
  induction es generalizing s with
  | nil => exact Nat.zero_le _
  | cons e es ih =>
    simp only [countSteps, sum_add_distrib]
    refine Nat.add_le_add ?_ (ih h.2)
    split_ifs with hC
    · obtain ⟨i, hi, hD⟩ := h.1 hC
      -- the condition that the first step meets contributes one
      calc 1 = if D i s e then 1 else 0 := (if_pos hD).symm
        _ ≤ ∑ j ∈ I, if D j s e then 1 else 0 :=
          single_le_sum (f := fun j => if D j s e then 1 else 0) (fun j _ => Nat.zero_le _) hi
    · exact Nat.zero_le _

/-- **A count is at least the sum of the counts of conditions that exclude each other**, if every
step that meets one of them meets `C`. -/
theorem sum_countSteps_le {D : ι → σ → ε → Prop} [∀ i s e, Decidable (D i s e)] {I : Finset ι}
    (hsub : ∀ i s e, D i s e → C s e) (hone : ∀ i j s e, D i s e → D j s e → i = j)
    (es : List ε) : ∑ i ∈ I, countSteps next (D i) s es ≤ countSteps next C s es := by
  induction es generalizing s with
  | nil => simp [countSteps]
  | cons e es ih =>
    simp only [countSteps, sum_add_distrib]
    refine Nat.add_le_add ?_ ih
    rw [← card_filter]
    split_ifs with hC
    · refine card_le_one.mpr fun i hi j hj => ?_
      exact hone i j s e (mem_filter.mp hi).2 (mem_filter.mp hj).2
    · rw [Nat.le_zero, card_eq_zero, filter_eq_empty_iff]
      exact fun i _ hD => hC (hsub i s e hD)

/-- **The potential rule**: if every step that meets `C` raises the potential, and only a step that
meets `D` lowers it, and by one at most, then the steps that meet `C` are at most as many as those
that meet `D` and the rise of the potential. -/
theorem countSteps_add_le {D : σ → ε → Prop} [∀ s e, Decidable (D s e)] {φ : σ → ℕ} {es : List ε}
    (h : Along next (fun s e => φ s + (if C s e then 1 else 0) ≤
      φ (next s e) + if D s e then 1 else 0) s es) :
    φ s + countSteps next C s es ≤ φ (run next s es) + countSteps next D s es := by
  induction es generalizing s with
  | nil => exact Nat.le_refl _
  | cons e es ih =>
    have hhead := h.1
    have htail := ih h.2
    rw [run_cons, countSteps, countSteps]
    omega

end Count

end Runs
