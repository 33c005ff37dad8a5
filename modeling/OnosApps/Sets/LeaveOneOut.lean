import Mathlib.Data.Finset.Basic

/-!
# Leaving out one element at a time

A loop over a list of elements keeps one set: each iteration takes its element out, uses what is
left, and puts the element in again. If the element was not in the set to begin with, it is
from then on.

## Main definitions

* `others s as`: the sets that the iterations use, from the set `s`

## Main results

* `others_eq_map_erase_iff`: when every iteration uses the first set without its element
-/

namespace Sets

variable {α : Type*} [DecidableEq α]

/-- The sets that the iterations for `as` use, from the set `s`. -/
def others : Finset α → List α → List (Finset α)
  | _, [] => []
  | s, a :: as => s.erase a :: others (insert a s) as

theorem erase_eq_erase_iff {s t : Finset α} (hst : s ⊆ t) {a : α} :
    t.erase a = s.erase a ↔ ∀ b ∈ t, b ∈ s ∨ b = a := by
  constructor
  · intro h b hb
    by_cases hba : b = a
    · exact .inr hba
    · have hmem : b ∈ s.erase a := h ▸ Finset.mem_erase.mpr ⟨hba, hb⟩
      exact .inl (Finset.mem_of_mem_erase hmem)
  · intro h
    refine Finset.Subset.antisymm (fun b hb => ?_) (Finset.erase_subset_erase a hst)
    obtain ⟨hba, hb⟩ := Finset.mem_erase.mp hb
    exact Finset.mem_erase.mpr ⟨hba, (h b hb).resolve_right hba⟩

/-- The same from a set `t` that has grown: what is in it besides `s` disturbs as well. -/
theorem others_eq_map_erase_iff_of_subset {s t : Finset α} (hst : s ⊆ t) (as : List α) :
    others t as = as.map s.erase ↔
      (∀ a ∈ as, ∀ b ∈ t, b ∈ s ∨ b = a) ∧ as.Pairwise fun a b => a ∈ s ∨ a = b := by
  induction as generalizing t with
  | nil => simp [others]
  | cons a as ih =>
    rw [others, List.map_cons, List.cons.injEq, erase_eq_erase_iff hst,
      ih (hst.trans (Finset.subset_insert a t)), List.pairwise_cons]
    -- the element of this iteration is in the set of every later one
    simp only [Finset.forall_mem_insert, forall_and, List.forall_mem_cons]
    tauto

/-- **Leaving out one at a time.** Every iteration uses the first set without its own element
exactly when each element is in the first set, or is the element of all later iterations. -/
theorem others_eq_map_erase_iff (s : Finset α) (as : List α) :
    others s as = as.map s.erase ↔ as.Pairwise fun a b => a ∈ s ∨ a = b := by
  rw [others_eq_map_erase_iff_of_subset (Finset.Subset.refl s)]
  exact and_iff_right fun a _ b hb => .inl hb

end Sets
