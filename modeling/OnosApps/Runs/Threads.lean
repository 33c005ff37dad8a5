import Mathlib.Data.List.Perm.Basic
import OnosApps.Runs.Run

/-!
# Calls in progress

A method is called several times over, and the calls work on shared data at the same time. What a
call does next depends on how far it has come, so a call is the point it has reached, with what it
holds there. One operation of one call changes the shared data and takes that call to its next
point, or to its end; the operations of all calls interleave in any order.

## Main definitions

* `Threads σ κ`: the shared data and the calls in progress
* `Threads.call operate s k`: the call `k` makes its next operation
* `Threads.carried f s`: what the calls have with them

## Main results

* `Threads.carried_perm`, `Threads.countP_calls`: what is carried, and a count of calls, with one
  call taken out
* `Threads.forall_calls`: the calls can go on relying on what they relied on
* `Threads.call_only`: a call that is alone
-/

namespace Runs

variable {σ κ α : Type}

/-- The shared data and the calls in progress. -/
structure Threads (σ κ : Type) where
  shared : σ
  calls : List κ

namespace Threads

/-- What the calls have with them. -/
def carried (f : κ → Option α) (s : Threads σ κ) : List α :=
  s.calls.filterMap f

variable [DecidableEq κ] (operate : σ → κ → σ × Option κ)

/-- The call `k` makes its next operation. -/
def call (s : Threads σ κ) (k : κ) : Threads σ κ :=
  if k ∈ s.calls then
    ⟨(operate s.shared k).1, (operate s.shared k).2.toList ++ s.calls.erase k⟩
  else s

variable {operate} {s : Threads σ κ} {k : κ}

theorem call_of_mem (hk : k ∈ s.calls) :
    s.call operate k =
      ⟨(operate s.shared k).1, (operate s.shared k).2.toList ++ s.calls.erase k⟩ :=
  if_pos hk

theorem call_of_notMem (hk : k ∉ s.calls) : s.call operate k = s :=
  if_neg hk

/-- An operation of the only call there is. -/
theorem call_only (x : σ) (k : κ) :
    (⟨x, [k]⟩ : Threads σ κ).call operate k = ⟨(operate x k).1, (operate x k).2.toList⟩ := by
  rw [call_of_mem (List.mem_singleton_self k), List.erase_cons_head, List.append_nil]

theorem carried_perm (f : κ → Option α) (hk : k ∈ s.calls) :
    (s.carried f).Perm ((f k).toList ++ (s.calls.erase k).filterMap f) := by
  refine ((List.perm_cons_erase hk).filterMap f).trans ?_
  rw [List.filterMap_cons]
  cases f k <;> exact List.Perm.refl _

theorem countP_calls (p : κ → Bool) (hk : k ∈ s.calls) :
    s.calls.countP p = (s.calls.erase k).countP p + if p k then 1 else 0 := by
  rw [(List.perm_cons_erase hk).countP_eq, List.countP_cons]

/-- What every call relies on holds after an operation that keeps it for the others, and sets it up
for the call that makes it. -/
theorem forall_calls {P Q : κ → Prop} (next : Option κ) (hs : ∀ k ∈ s.calls, P k)
    (hothers : ∀ k, P k → Q k) (hnext : ∀ k ∈ next, Q k) :
    ∀ k' ∈ next.toList ++ s.calls.erase k, Q k' := by
  intro k' hk'
  rcases List.mem_append.mp hk' with hk' | hk'
  · exact hnext k' (Option.mem_toList.mp hk')
  · exact hothers k' (hs k' (List.mem_of_mem_erase hk'))

end Threads

end Runs
