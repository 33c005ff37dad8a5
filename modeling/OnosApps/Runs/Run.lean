import Mathlib.Data.List.Induction
import Mathlib.Data.List.Infix

/-!
# Runs of an event-driven system

A system handles one event at a time: `next s e` is the state after the event `e` in the
state `s`. A run handles a list of events in order. This module has the rules by which a
property of one step becomes a property of every state of a run.

## Main definitions

* `run next s es`: the state after the events `es`
* `Along next C s es`: every event of `es` meets the condition `C` in the state in which it
  is handled
* `Sometime next C s es`: some event of `es` does
* `outputs next out s es`: the outputs of the events of `es`, in order

## Main results

* `run_invariant`, `Along.run_invariant`, `Along.run_invariant_throughout`: what every step
  (every step that meets `C`) keeps, every run keeps
* `forall_prefix_iff_along`: if a step from a good state leads to a good state exactly when
  it meets `C`, a run stays in good states exactly when all its steps meet `C`
* `run_iff_sometime`: what a step brings about exactly if it meets `C`, and never undoes, holds
  after a run exactly when some step meets `C`
* `outputs_eq_of_simulation`: related states give related runs with equal outputs
* `map_run_of_invariant`: a refinement mapping takes runs to runs
-/

namespace Runs

variable {σ τ ε ο : Type*}

/-- The state after the events `es` from `s`. -/
def run (next : σ → ε → σ) (s : σ) (es : List ε) : σ :=
  es.foldl next s

section Run

variable (next : σ → ε → σ) (s : σ)

@[simp] theorem run_nil : run next s [] = s := rfl

@[simp] theorem run_cons (e : ε) (es : List ε) :
    run next s (e :: es) = run next (next s e) es := rfl

theorem run_append (es fs : List ε) : run next s (es ++ fs) = run next (run next s es) fs :=
  List.foldl_append

@[simp] theorem run_snoc (es : List ε) (e : ε) :
    run next s (es ++ [e]) = next (run next s es) e := by
  simp [run]

end Run

/-! ## Invariants -/

section Invariant

variable {next : σ → ε → σ}

/-- **The invariant rule**: what every step keeps holds after every run. -/
theorem run_invariant {P : σ → Prop} (hstep : ∀ s e, P s → P (next s e)) {s : σ} (hs : P s)
    (es : List ε) : P (run next s es) := by
  induction es using List.reverseRecOn with
  | nil => exact hs
  | append_singleton es e ih =>
    rw [run_snoc]
    exact hstep _ e ih

/-- Every event of `es` meets `C` in the state in which it is handled. -/
def Along (next : σ → ε → σ) (C : σ → ε → Prop) : σ → List ε → Prop
  | _, [] => True
  | s, e :: es => C s e ∧ Along next C (next s e) es

variable {C : σ → ε → Prop} {s : σ}

@[simp] theorem along_nil : Along next C s [] := trivial

@[simp] theorem along_cons {e : ε} {es : List ε} :
    Along next C s (e :: es) ↔ C s e ∧ Along next C (next s e) es := Iff.rfl

theorem along_append {es fs : List ε} :
    Along next C s (es ++ fs) ↔ Along next C s es ∧ Along next C (run next s es) fs := by
  induction es generalizing s with
  | nil => simp
  | cons e es ih => simp [ih, and_assoc]

theorem along_snoc {es : List ε} {e : ε} :
    Along next C s (es ++ [e]) ↔ Along next C s es ∧ C (run next s es) e := by
  simp [along_append]

instance Along.decidable [∀ s e, Decidable (C s e)] : ∀ s es, Decidable (Along next C s es)
  | _, [] => .isTrue trivial
  | s, e :: es =>
    haveI := Along.decidable (next s e) es
    inferInstanceAs (Decidable (C s e ∧ _))

/-- A condition on events alone. -/
theorem along_of_forall {A : ε → Prop} {es : List ε} (h : ∀ e ∈ es, A e) :
    Along next (fun _ e => A e) s es := by
  induction es generalizing s with
  | nil => trivial
  | cons e es ih => exact ⟨h e (by simp), ih fun e' he' => h e' (by simp [he'])⟩

theorem Along.and {D : σ → ε → Prop} {es : List ε} (h : Along next C s es)
    (h' : Along next D s es) : Along next (fun s e => C s e ∧ D s e) s es := by
  induction es generalizing s with
  | nil => trivial
  | cons e es ih => exact ⟨⟨h.1, h'.1⟩, ih h.2 h'.2⟩

theorem Along.mono {es fs : List ε} (h : Along next C s fs) (hp : es <+: fs) :
    Along next C s es := by
  obtain ⟨gs, rfl⟩ := hp
  exact (along_append.mp h).1

/-- **The invariant rule under a condition**: what every step that meets `C` keeps holds
after every run whose steps all meet `C`. -/
theorem Along.run_invariant {P : σ → Prop} (hstep : ∀ s e, P s → C s e → P (next s e))
    {es : List ε} (hes : Along next C s es) (hs : P s) : P (run next s es) := by
  induction es using List.reverseRecOn with
  | nil => exact hs
  | append_singleton es e ih =>
    obtain ⟨hes, he⟩ := along_snoc.mp hes
    rw [run_snoc]
    exact hstep _ e (ih hes) he

/-- The same for all states of the run. -/
theorem Along.run_invariant_throughout {P : σ → Prop} (hstep : ∀ s e, P s → C s e → P (next s e))
    {es : List ε} (hes : Along next C s es) (hs : P s) :
    ∀ es', es' <+: es → P (run next s es') :=
  fun _ hp => (hes.mono hp).run_invariant hstep hs

/-- A condition that an invariant gives holds of every step. -/
theorem along_of_invariant {P : σ → Prop} (hstep : ∀ s e, P s → P (next s e))
    (hC : ∀ s e, P s → C s e) (hs : P s) (es : List ε) : Along next C s es := by
  induction es generalizing s with
  | nil => trivial
  | cons e es ih => exact ⟨hC s e hs, ih (hstep s e hs)⟩

/-- **The exact condition of a run.** Let `U` hold in every state, and let a step from a good
state lead to a good state exactly when it meets `C`. A run from a good state then stays in
good states exactly when all its steps meet `C`. -/
theorem forall_prefix_iff_along {U P : σ → Prop} (hU : ∀ s e, U s → U (next s e))
    (hstep : ∀ s e, U s → P s → (P (next s e) ↔ C s e)) (hu : U s) (hp : P s) (es : List ε) :
    (∀ es', es' <+: es → P (run next s es')) ↔ Along next C s es := by
  induction es generalizing s with
  | nil => simpa [List.prefix_nil] using hp
  | cons e es ih =>
    rw [along_cons]
    constructor
    · intro h
      -- the run of the first event alone is good, so the first step meets `C`
      have he : P (next s e) := h [e] (by simp)
      refine ⟨(hstep s e hu hp).mp he, (ih (hU s e hu) he).mp fun es' hes' => ?_⟩
      exact h (e :: es') (by simpa using hes')
    · rintro ⟨hC, hes⟩ es' hes'
      have he : P (next s e) := (hstep s e hu hp).mpr hC
      -- a nonempty start of the run begins with the first event
      rcases es' with - | ⟨e', es'⟩
      · exact hp
      · obtain ⟨rfl, htail⟩ := List.cons_prefix_cons.mp hes'
        exact (ih (hU s _ hu) he).mpr hes es' htail

/-- Some event of `es` meets `C` in the state in which it is handled. -/
def Sometime (next : σ → ε → σ) (C : σ → ε → Prop) : σ → List ε → Prop
  | _, [] => False
  | s, e :: es => C s e ∨ Sometime next C (next s e) es

/-- **What is never lost.** If a property holds after a step exactly when it held before or the step
meets `C`, it holds after a run exactly when it held before or some step meets `C`. -/
theorem run_iff_sometime {P : σ → Prop} (hstep : ∀ s e, P (next s e) ↔ P s ∨ C s e)
    (es : List ε) : P (run next s es) ↔ P s ∨ Sometime next C s es := by
  induction es generalizing s with
  | nil => simp [Sometime]
  | cons e es ih => rw [run_cons, ih, hstep, Sometime, or_assoc]

end Invariant

/-! ## Outputs and simulation -/

section Simulation

/-- The outputs of the events `es`, each taken in the state in which it is handled. -/
def outputs (next : σ → ε → σ) (out : σ → ε → ο) : σ → List ε → List ο
  | _, [] => []
  | s, e :: es => out s e :: outputs next out (next s e) es

variable {next : σ → ε → σ} {out : σ → ε → ο} {next' : τ → ε → τ} {out' : τ → ε → ο}
  {R : σ → τ → Prop} {A : ε → Prop}

/-- **Simulation**: if related states answer every admitted event alike and step to related
states, they answer every run of admitted events alike and end in related states. -/
theorem outputs_eq_of_simulation
    (hsim : ∀ s t e, A e → R s t → R (next s e) (next' t e) ∧ out s e = out' t e) {s : σ} {t : τ}
    (hst : R s t) {es : List ε} (hes : ∀ e ∈ es, A e) :
    R (run next s es) (run next' t es) ∧ outputs next out s es = outputs next' out' t es := by
  -- induction on the events: the first one leads to related states again
  induction es generalizing s t with
  | nil => exact ⟨hst, rfl⟩
  | cons e es ih =>
    obtain ⟨hR, ho⟩ := hsim s t e (hes e (by simp)) hst
    obtain ⟨hR', hos⟩ := ih hR fun e' he' => hes e' (by simp [he'])
    exact ⟨hR', by simp only [outputs, ho, hos]⟩

/-- **Refinement mapping**: if `f` takes every step from a state with `P` to a step of the other
system, or to none for the events that `keep` leaves out, it takes runs to runs. -/
theorem map_run_of_invariant {P : σ → Prop} {f : σ → τ} {keep : ε → Bool}
    (hP : ∀ s e, P s → P (next s e))
    (hstep : ∀ s e, P s → f (next s e) = if keep e then next' (f s) e else f s)
    {s : σ} (hs : P s) (es : List ε) :
    f (run next s es) = run next' (f s) (es.filter keep) := by
  induction es generalizing s with
  | nil => rfl
  | cons e es ih =>
    rw [run_cons, ih (hP s e hs), hstep s e hs]
    cases hk : keep e <;> simp [hk]

end Simulation

end Runs
