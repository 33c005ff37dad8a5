import OnosApps.Runs.Handler

/-!
# Handlers that append to a log

A handler that only reads, and appends to a log, makes a list of attempts that does not depend
on the log. It appends the entries of the attempts up to the first one that fails, and throws
there; if none fails, it returns. So the whole effect of such a handler is in the list of its
attempts, and the list of a composed handler is composed from those of its parts.

## Main definitions

* `Log σ ω`: a log of entries in `ω` in the states of `σ`
* `succeeded os`: the entries of the attempts `os` up to the first that fails
* `Reads x o`: the handler only reads; it returns the value of `o`, or throws if there is none
* `Tries log x os`: the handler makes the attempts `os`
* `Log.updates σ`: the updates of a state as the entries of a log

## Main results

* `Reads.bind`, `reads_foldlM`: composition of handlers that read
* `Tries.bind`, `Reads.bind_tries`, `tries_forM`: composition of attempts
* `Tries.finalState`: what a handler leaves in the log
-/

namespace Runs

variable {ε σ ω α β γ : Type}

/-- A log in the states of `σ`: entries are appended to it, and appending twice is appending
once. -/
structure Log (σ ω : Type) where
  append : σ → List ω → σ
  append_nil : ∀ s, append s [] = s
  append_append : ∀ s ws ws', append (append s ws) ws' = append s (ws ++ ws')

/-- The entries of a list of attempts up to the first one that fails. -/
def succeeded : List (Option ω) → List ω
  | [] => []
  | none :: _ => []
  | some w :: os => w :: succeeded os

section Succeeded

variable {os os' : List (Option ω)} {w : ω}

@[simp] theorem succeeded_nil : succeeded ([] : List (Option ω)) = [] := rfl

@[simp] theorem succeeded_none_cons : succeeded (none :: os) = [] := rfl

@[simp] theorem succeeded_some_cons : succeeded (some w :: os) = w :: succeeded os := rfl

theorem succeeded_append_of_mem (h : none ∈ os) : succeeded (os ++ os') = succeeded os := by
  induction os with
  | nil => cases h
  | cons o os ih =>
    cases o with
    | none => rfl
    | some w =>
      rw [List.cons_append, succeeded_some_cons, succeeded_some_cons, ih (by simpa using h)]

theorem succeeded_append_of_notMem (h : none ∉ os) :
    succeeded (os ++ os') = succeeded os ++ succeeded os' := by
  induction os with
  | nil => rfl
  | cons o os ih =>
    cases o with
    | none => simp at h
    | some w =>
      rw [List.cons_append, succeeded_some_cons, succeeded_some_cons, List.cons_append,
        ih (by simpa using h)]

theorem mem_of_mem_succeeded (h : w ∈ succeeded os) : some w ∈ os := by
  induction os with
  | nil => cases h
  | cons o os ih =>
    cases o with
    | none => cases h
    | some w' =>
      rcases List.mem_cons.mp h with rfl | h
      · exact List.mem_cons_self
      · exact List.mem_cons_of_mem _ (ih h)

/-- If no attempt fails, every one of them has its entry. -/
theorem map_some_succeeded (h : none ∉ os) : (succeeded os).map some = os := by
  induction os with
  | nil => rfl
  | cons o os ih =>
    cases o with
    | none => simp at h
    | some w => rw [succeeded_some_cons, List.map_cons, ih (by simpa using h)]

/-- The entries that attempts for a list of elements get to. -/
theorem mem_succeeded_map {f : α → Option ω} {xs : List α} :
    w ∈ succeeded (xs.map f) ↔ ∃ x ∈ xs.takeWhile (f · |>.isSome), f x = some w := by
  induction xs with
  | nil => simp
  | cons x xs ih =>
    cases hx : f x with
    | none => simp [hx]
    | some w' =>
      rw [List.map_cons, hx, succeeded_some_cons, List.mem_cons, ih,
        List.takeWhile_cons_of_pos (by simp [hx]), List.exists_mem_cons_iff, hx,
        Option.some.injEq, eq_comm]

/-- Attempts at the entries `ws` get to an initial part of them, and to all if none fails. -/
theorem succeeded_of_forall₂ {ws : List ω}
    (h : List.Forall₂ (fun o w => ∀ w', o = some w' → w' = w) os ws) :
    succeeded os <+: ws ∧ (none ∉ os → succeeded os = ws) := by
  induction h with
  | nil => exact ⟨List.prefix_rfl, fun _ => rfl⟩
  | @cons o w os ws ho hos ih =>
    cases o with
    | none => exact ⟨List.nil_prefix, fun h => absurd List.mem_cons_self h⟩
    | some w' =>
      obtain rfl := ho w' rfl
      rw [succeeded_some_cons]
      refine ⟨List.cons_prefix_cons.mpr ⟨rfl, ih.1⟩, fun h => ?_⟩
      rw [ih.2 fun hos => h (List.mem_cons_of_mem _ hos)]

end Succeeded

/-! ## Handlers that read -/

/-- The handler leaves the state as it is, and returns the value of `o`, or throws if there is
none. -/
def Reads (x : EStateM ε σ α) (o : Option α) : Prop :=
  ∀ s, (∀ a, o = some a → x s = .ok a s) ∧ (o = none → ∃ e, x s = .error e s)

section Reads

variable {x : EStateM ε σ α} {o : Option α}

theorem reads_pure (a : α) : Reads (pure a : EStateM ε σ α) (some a) := by
  intro s
  refine ⟨fun b hb => ?_, fun h => by cases h⟩
  rw [pure_apply, Option.some.inj hb]

theorem reads_orThrow (e : ε) (o : Option α) : Reads (orThrow e o : EStateM ε σ α) o := by
  intro s
  refine ⟨fun a ha => ?_, fun hnone => ⟨e, ?_⟩⟩
  · rw [ha, orThrow_some_apply]
  · rw [hnone, orThrow_none_apply]

theorem Reads.bind {f : α → EStateM ε σ β} {g : α → Option β} (hx : Reads x o)
    (hf : ∀ a, Reads (f a) (g a)) : Reads (x >>= f) (o.bind g) := by
  intro s
  rw [bind_apply]
  cases ho : o with
  | none =>
    obtain ⟨e, he⟩ := (hx s).2 ho
    rw [he]
    exact ⟨fun b hb => (by cases hb), fun _ => ⟨e, rfl⟩⟩
  | some a =>
    rw [(hx s).1 a ho]
    exact hf a s

theorem Reads.map (f : α → β) (hx : Reads x o) :
    Reads (x >>= fun a => pure (f a)) (o.map f) := by
  rw [Option.map_eq_bind]
  exact hx.bind fun a => reads_pure (f a)

/-- A loop of iterations that read. -/
theorem reads_foldlM {f : β → γ → EStateM ε σ β} {g : β → γ → Option β}
    (hf : ∀ b c, Reads (f b c) (g b c)) (xs : List γ) (b : β) :
    Reads (xs.foldlM f b) (xs.foldlM g b) := by
  induction xs generalizing b with
  | nil => exact reads_pure b
  | cons c xs ih =>
    rw [List.foldlM_cons, List.foldlM_cons]
    exact (hf b c).bind ih

end Reads

/-! ## Handlers that append -/

/-- The handler makes the attempts `os`: it appends their entries up to the first one that fails,
and throws there; it returns if none fails. -/
def Tries (log : Log σ ω) (x : EStateM ε σ α) (os : List (Option ω)) : Prop :=
  ∀ s, (none ∉ os → ∃ a, x s = .ok a (log.append s (succeeded os))) ∧
    (none ∈ os → ∃ e, x s = .error e (log.append s (succeeded os)))

section Tries

variable {log : Log σ ω} {x : EStateM ε σ α} {os os' : List (Option ω)}

theorem tries_pure (a : α) : Tries log (pure a : EStateM ε σ α) [] := by
  intro s
  refine ⟨fun _ => ⟨a, ?_⟩, fun h => by cases h⟩
  rw [succeeded_nil, log.append_nil, pure_apply]

theorem tries_throw (e : ε) : Tries log (throw e : EStateM ε σ α) [none] := by
  intro s
  refine ⟨fun h => by simp at h, fun _ => ⟨e, ?_⟩⟩
  rw [succeeded_none_cons, log.append_nil, throw_apply]

/-- What comes after a list of attempts is attempted only if none of them fails. -/
theorem Tries.bind {f : α → EStateM ε σ β} (hx : Tries log x os)
    (hf : ∀ a, Tries log (f a) os') : Tries log (x >>= f) (os ++ os') := by
  intro s
  by_cases hos : none ∈ os
  · -- the first part throws, and the rest is abandoned
    obtain ⟨e, he⟩ := (hx s).2 hos
    refine ⟨fun h => absurd (List.mem_append_left _ hos) h, fun _ => ⟨e, ?_⟩⟩
    rw [bind_apply, he, succeeded_append_of_mem hos]
  · obtain ⟨a, ha⟩ := (hx s).1 hos
    have hrest := hf a (log.append s (succeeded os))
    rw [succeeded_append_of_notMem hos, ← log.append_append, bind_apply, ha]
    refine ⟨fun h => hrest.1 fun h' => h (List.mem_append_right _ h'), fun h => hrest.2 ?_⟩
    exact (List.mem_append.mp h).resolve_left hos

/-- Attempts that depend on what is read before them: if it cannot be read, that is the one
attempt, and it fails. -/
theorem Reads.bind_tries {o : Option α} {f : α → EStateM ε σ β} {g : α → List (Option ω)}
    (hx : Reads x o) (hf : ∀ a, Tries log (f a) (g a)) :
    Tries log (x >>= f) (o.elim [none] g) := by
  intro s
  rw [bind_apply]
  cases ho : o with
  | none =>
    obtain ⟨e, he⟩ := (hx s).2 ho
    refine ⟨fun h => by simp at h, fun _ => ⟨e, ?_⟩⟩
    rw [he, Option.elim_none, succeeded_none_cons, log.append_nil]
  | some a =>
    rw [(hx s).1 a ho]
    exact hf a s

/-- The same with one attempt. -/
theorem Reads.bind_try {o : Option α} {f : α → EStateM ε σ β} {g : α → Option ω}
    (hx : Reads x o) (hf : ∀ a, Tries log (f a) [g a]) : Tries log (x >>= f) [o.bind g] := by
  have h := hx.bind_tries hf
  cases o with
  | none => exact h
  | some a => exact h

/-- A value that is read and then written: one attempt, before those of the rest. -/
theorem Reads.bind_cons {o : Option α} {f : α → EStateM ε σ β} {g : α → ω} (hx : Reads x o)
    (hf : ∀ a, o = some a → Tries log (f a) (some (g a) :: os)) :
    Tries log (x >>= f) (o.map g :: os) := by
  intro s
  rw [bind_apply]
  cases ho : o with
  | none =>
    obtain ⟨e, he⟩ := (hx s).2 ho
    refine ⟨fun h => by simp at h, fun _ => ⟨e, ?_⟩⟩
    rw [he, Option.map_none, succeeded_none_cons, log.append_nil]
  | some a =>
    rw [(hx s).1 a ho]
    exact hf a ho s

theorem tries_ite {c : Prop} [Decidable c] {y : EStateM ε σ α} (hx : Tries log x os)
    (hy : Tries log y os') : Tries log (if c then x else y) (if c then os else os') := by
  split_ifs
  · exact hx
  · exact hy

/-- A loop makes the attempts of its iterations, one after the other. -/
theorem tries_forM {f : γ → EStateM ε σ PUnit} {g : γ → List (Option ω)}
    (hf : ∀ c, Tries log (f c) (g c)) (xs : List γ) : Tries log (xs.forM f) (xs.flatMap g) := by
  induction xs with
  | nil => exact tries_pure _
  | cons c xs ih =>
    rw [List.flatMap_cons]
    exact (hf c).bind fun _ => ih

/-- What a handler leaves, whether it returns or throws. -/
theorem Tries.finalState (h : Tries log x os) (s : σ) :
    finalState x s = log.append s (succeeded os) := by
  unfold Runs.finalState
  by_cases hos : none ∈ os
  · obtain ⟨e, he⟩ := (h s).2 hos
    rw [he]
  · obtain ⟨a, ha⟩ := (h s).1 hos
    rw [ha]

end Tries

/-! ## Updates as entries -/

/-- The log of the updates of a state. -/
def Log.updates (σ : Type) : Log σ (σ → σ) where
  append s fs := fs.foldl (fun s f => f s) s
  append_nil _ := rfl
  append_append _ _ _ := List.foldl_append.symm

section Updates

variable {log : Log σ ω} {x : EStateM ε σ α} {os : List (Option ω)}

theorem tries_modify (f : σ → σ) :
    Tries (Log.updates σ) (modify f : EStateM ε σ PUnit) [some f] := by
  intro s
  exact ⟨fun _ => ⟨⟨⟩, rfl⟩, fun h => by simp at h⟩

/-- What every update keeps, a sequence of updates keeps. -/
theorem Log.updates_append_eq (v : σ → α) {fs : List (σ → σ)}
    (hfs : ∀ f ∈ fs, ∀ s, v (f s) = v s) (s : σ) : v ((Log.updates σ).append s fs) = v s := by
  induction fs generalizing s with
  | nil => rfl
  | cons f fs ih =>
    exact (ih (fun f' hf' => hfs f' (by simp [hf'])) (f s)).trans (hfs f (by simp) s)

/-- The update that appends one entry. -/
def Log.update (log : Log σ ω) (w : ω) (s : σ) : σ := log.append s [w]

theorem Log.updates_append_map (log : Log σ ω) (ws : List ω) (s : σ) :
    (Log.updates σ).append s (ws.map log.update) = log.append s ws := by
  induction ws generalizing s with
  | nil => exact (log.append_nil s).symm
  | cons w ws ih => exact (ih _).trans (log.append_append s [w] ws)

theorem succeeded_map (f : ω → α) (os : List (Option ω)) :
    succeeded (os.map (Option.map f)) = (succeeded os).map f := by
  induction os with
  | nil => rfl
  | cons o os ih =>
    cases o with
    | none => rfl
    | some w => exact congrArg (f w :: ·) ih

/-- Attempts to append are attempts to update. -/
theorem Tries.updates (h : Tries log x os) :
    Tries (Log.updates σ) x (os.map (Option.map log.update)) := by
  have hnone : none ∈ os.map (Option.map log.update) ↔ none ∈ os := by simp
  intro s
  rw [hnone, succeeded_map, log.updates_append_map]
  exact h s

end Updates

end Runs
