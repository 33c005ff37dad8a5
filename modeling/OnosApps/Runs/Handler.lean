import Mathlib.Data.List.Basic

/-!
# Handlers that may throw

A handler reads and writes a state and may throw. What it wrote before it threw stays: an
exception abandons the rest of the handler, it does not undo anything. Handlers are written
in `EStateM`; the rules below are for what a handler keeps in both cases, and for the values it
returns.

## Main definitions

* `finalState x s`: the state the handler leaves, whether it returns or throws
* `orThrow e o`: the value of `o`, or the exception `e`
* `Keeps R x Q`: the handler keeps `R`, and returns a value with `Q`

## Main results

* `Keeps.bind`, `keeps_foldlM`, `keeps_foldlM_done`, `keeps_forM`: composition, and loops with
  an invariant
* `Keeps.finalState`: the state left
-/

namespace Runs

variable {ε σ α β γ : Type}

/-- The state a handler leaves, whether it returns or throws. -/
def finalState (x : EStateM ε σ α) (s : σ) : σ :=
  match x s with
  | .ok _ s' => s'
  | .error _ s' => s'

/-- The value of an `Option`, or an exception: a dereference, a lookup that may fail. -/
def orThrow (e : ε) : Option α → EStateM ε σ α
  | some a => pure a
  | none => throw e

section Evaluation

@[simp] theorem pure_apply (a : α) (s : σ) : (pure a : EStateM ε σ α) s = .ok a s := rfl

@[simp] theorem throw_apply (e : ε) (s : σ) : (throw e : EStateM ε σ α) s = .error e s := rfl

@[simp] theorem get_apply (s : σ) : (get : EStateM ε σ σ) s = .ok s s := rfl

@[simp] theorem modify_apply (f : σ → σ) (s : σ) :
    (modify f : EStateM ε σ PUnit) s = .ok ⟨⟩ (f s) := rfl

@[simp] theorem orThrow_some_apply (e : ε) (a : α) (s : σ) :
    (orThrow e (some a) : EStateM ε σ α) s = .ok a s := rfl

@[simp] theorem orThrow_none_apply (e : ε) (s : σ) :
    (orThrow e none : EStateM ε σ α) s = .error e s := rfl

@[simp] theorem bind_apply (x : EStateM ε σ α) (f : α → EStateM ε σ β) (s : σ) :
    (x >>= f) s = match x s with
      | .ok a s' => f a s'
      | .error e s' => .error e s' := rfl

@[simp] theorem map_apply (f : α → β) (x : EStateM ε σ α) (s : σ) :
    (f <$> x) s = match x s with
      | .ok a s' => .ok (f a) s'
      | .error e s' => .error e s' := rfl

theorem bind_eq_ok {x : EStateM ε σ α} {f : α → EStateM ε σ β} {s s' : σ} {b : β} :
    (x >>= f) s = .ok b s' ↔ ∃ a t, x s = .ok a t ∧ f a t = .ok b s' := by
  rw [bind_apply]
  cases x s <;> simp

theorem orThrow_eq_ok {e : ε} {o : Option α} {a : α} {s s' : σ} :
    (orThrow e o : EStateM ε σ α) s = .ok a s' ↔ o = some a ∧ s = s' := by
  cases o <;> simp

end Evaluation

/-- Started in a state with `R`, the handler leaves a state with `R`, whether it returns or
throws, and if it returns, it returns a value with `Q`. -/
def Keeps (R : σ → Prop) (x : EStateM ε σ α) (Q : α → Prop) : Prop :=
  ∀ s, R s → match x s with
    | .ok a s' => Q a ∧ R s'
    | .error _ s' => R s'

section Rules

variable {R : σ → Prop} {Q : α → Prop} {x : EStateM ε σ α}

theorem keeps_pure {a : α} (h : Q a) : Keeps R (pure a : EStateM ε σ α) Q :=
  fun _ hs => ⟨h, hs⟩

theorem keeps_throw {e : ε} : Keeps R (throw e : EStateM ε σ α) Q :=
  fun _ hs => hs

theorem keeps_modify {f : σ → σ} (h : ∀ s, R s → R (f s)) :
    Keeps R (modify f : EStateM ε σ PUnit) fun _ => True :=
  fun s hs => ⟨trivial, h s hs⟩

theorem keeps_orThrow {e : ε} (o : Option α) :
    Keeps R (orThrow e o : EStateM ε σ α) fun a => o = some a := by
  cases o with
  | none => exact keeps_throw
  | some a => exact keeps_pure rfl

theorem Keeps.mono {Q' : α → Prop} (h : Keeps R x Q) (hQ : ∀ a, Q a → Q' a) : Keeps R x Q' := by
  intro s hs
  have hx := h s hs
  cases hr : x s with
  | ok a s' =>
    rw [hr] at hx
    exact ⟨hQ a hx.1, hx.2⟩
  | error e s' =>
    rw [hr] at hx
    exact hx

theorem Keeps.bind {S : β → Prop} {f : α → EStateM ε σ β} (hx : Keeps R x Q)
    (hf : ∀ a, Q a → Keeps R (f a) S) : Keeps R (x >>= f) S := by
  intro s hs
  have h := hx s hs
  rw [bind_apply]
  cases hr : x s with
  | ok a s' =>
    rw [hr] at h
    exact hf a h.1 s' h.2
  | error e s' =>
    -- the rest is abandoned
    rw [hr] at h
    exact h

theorem keeps_ite {c : Prop} [Decidable c] {y : EStateM ε σ α} (hx : c → Keeps R x Q)
    (hy : ¬ c → Keeps R y Q) : Keeps R (if c then x else y) Q := by
  split_ifs with h
  · exact hx h
  · exact hy h

/-- **Loops with an accumulator.** What every iteration keeps, also when it throws, the loop
keeps. -/
theorem keeps_foldlM {I : β → Prop} {f : β → γ → EStateM ε σ β} {xs : List γ}
    (hf : ∀ b, ∀ c ∈ xs, I b → Keeps R (f b c) I) {b : β} (hb : I b) :
    Keeps R (xs.foldlM f b) I := by
  induction xs generalizing b with
  | nil => exact keeps_pure hb
  | cons c xs ih =>
    rw [List.foldlM_cons]
    refine (hf b c (by simp) hb).bind fun b' hb' => ?_
    exact ih (fun b c' hc' => hf b c' (by simp [hc'])) hb'

/-- **Loops, with the elements done so far** in the invariant of the accumulator. -/
theorem keeps_foldlM_done {I : List γ → β → Prop} {f : β → γ → EStateM ε σ β}
    (hf : ∀ done c b, I done b → Keeps R (f b c) (I (done ++ [c]))) (done : List γ) {b : β}
    (hb : I done b) (xs : List γ) : Keeps R (xs.foldlM f b) (I (done ++ xs)) := by
  induction xs generalizing done b with
  | nil =>
    rw [List.append_nil]
    exact keeps_pure hb
  | cons c xs ih =>
    rw [List.foldlM_cons]
    refine (hf done c b hb).bind fun b' hb' => ?_
    -- one element further: `done ++ [c]` then `xs` is `done` then `c :: xs`
    have hrest := ih (done ++ [c]) hb'
    rwa [List.append_assoc, List.singleton_append] at hrest

/-- **Loops.** What every iteration keeps, also when it throws, the loop keeps. -/
theorem keeps_forM {f : γ → EStateM ε σ PUnit} {xs : List γ}
    (hf : ∀ c ∈ xs, Keeps R (f c) fun _ => True) : Keeps R (xs.forM f) fun _ => True := by
  induction xs with
  | nil => exact keeps_pure trivial
  | cons c xs ih => exact (hf c (by simp)).bind fun _ _ => ih fun c' hc' => hf c' (by simp [hc'])

theorem Keeps.of_ok (h : Keeps R x Q) {s s' : σ} {a : α} (hs : R s) (hx : x s = .ok a s') :
    Q a ∧ R s' := by
  have h' := h s hs
  rwa [hx] at h'

theorem Keeps.finalState (h : Keeps R x Q) {s : σ} (hs : R s) : R (finalState x s) := by
  have hx := h s hs
  unfold Runs.finalState
  cases hr : x s with
  | ok a s' =>
    rw [hr] at hx
    exact hx.2
  | error e s' =>
    rw [hr] at hx
    exact hx

end Rules

/-- Nested loops with one accumulator are one loop over all elements. -/
theorem foldlM_flatten (f : β → γ → EStateM ε σ β) (xss : List (List γ)) (b : β) :
    xss.foldlM (fun b xs => xs.foldlM f b) b = xss.flatten.foldlM f b := by
  induction xss generalizing b with
  | nil => rfl
  | cons xs xss ih =>
    rw [List.foldlM_cons, List.flatten_cons, List.foldlM_append]
    exact congrArg _ (funext ih)

end Runs
