import Mathlib.Combinatorics.SimpleGraph.Acyclic

/-!
# The first step of a path in an acyclic graph

In an acyclic graph the path from `u` to `v` is unique, so it has one first step. An edge
splits the vertices reachable from it in two: those towards which it is the first step in
one direction, and those towards which it is the first step in the other.

## Main definitions

* `FirstStep G u w v`: the path from `u` to `v` starts with the edge from `u` to `w`

## Main results

* `FirstStep.unique`, `exists_firstStep`: the first step exists and is unique
* `firstStep_or_firstStep`, `FirstStep.not_symm`: an edge is the first step towards `v` in
  exactly one of its directions
* `FirstStep.through`: paths that leave a vertex by different edges join to one path
-/

namespace AcyclicGraph

open SimpleGraph

variable {V : Type*} {G : SimpleGraph V} {u v w : V}

/-- The path from `u` to `v` starts with the edge from `u` to `w`. -/
def FirstStep (G : SimpleGraph V) (u w v : V) : Prop :=
  ∃ (h : G.Adj u w) (p : G.Walk w v), (Walk.cons h p).IsPath

theorem FirstStep.adj (h : FirstStep G u w v) : G.Adj u w := h.1

theorem FirstStep.ne (h : FirstStep G u w v) : u ≠ v := by
  rintro rfl
  obtain ⟨_, p, hp⟩ := h
  exact (Walk.cons_isPath_iff _ _).mp hp |>.2 p.end_mem_support

theorem exists_firstStep (hr : G.Reachable u v) (hne : u ≠ v) : ∃ w, FirstStep G u w v := by
  obtain ⟨p, hp⟩ := hr.exists_isPath
  cases p with
  | nil => exact absurd rfl hne
  | cons h p => exact ⟨_, h, p, hp⟩

section Acyclic

variable (hG : G.IsAcyclic)
include hG

/-- The first step is unique. -/
theorem FirstStep.unique {w' : V} (h : FirstStep G u w v) (h' : FirstStep G u w' v) : w = w' := by
  obtain ⟨e, p, hp⟩ := h
  obtain ⟨e', p', hp'⟩ := h'
  -- there is one path from `u` to `v`, so both walks are it
  have heq := congrArg Subtype.val ((hG.subsingleton_path u v).elim ⟨_, hp⟩ ⟨_, hp'⟩)
  simp only [Walk.cons.injEq] at heq
  exact heq.1

/-- An edge is the first step towards `v` in one of its directions. -/
theorem firstStep_or_firstStep (h : G.Adj u w) (hr : G.Reachable w v) :
    FirstStep G u w v ∨ FirstStep G w u v := by
  obtain ⟨p, hp⟩ := hr.exists_isPath
  by_cases hu : u ∈ p.support
  · -- the path from `w` passes through the neighbour `u`, so it starts with it
    have hsnd : u = p.snd := hG.eq_snd_of_adj_start hp h.symm hu
    cases p with
    | nil => exact absurd (by simpa using hu) h.ne
    | cons e p =>
      obtain rfl : u = _ := by simpa using hsnd
      exact Or.inr ⟨e, p, hp⟩
  · exact Or.inl ⟨h, p, (Walk.cons_isPath_iff _ _).mpr ⟨hp, hu⟩⟩

/-- An edge is not the first step towards `v` in both directions. -/
theorem FirstStep.not_symm (h : FirstStep G u w v) : ¬ FirstStep G w u v := by
  rintro ⟨e', p', hp'⟩
  obtain ⟨e, p, hp⟩ := h
  obtain ⟨hp, hu⟩ := (Walk.cons_isPath_iff _ _).mp hp
  -- the path from `w` to `v` would pass through `u`, which the path from `u` has left
  have heq := congrArg Subtype.val ((hG.subsingleton_path w v).elim ⟨p, hp⟩ ⟨_, hp'⟩)
  simp only at heq
  exact hu (by simp [heq])

/-- **Paths that leave `u` by different edges join to one path**: the path from `v` to `x` goes
through `u`, so it starts as the path from `v` to `u` does. -/
theorem FirstStep.through {s x w' : V} (hs : FirstStep G v s u) (hv : FirstStep G u w v)
    (hx : FirstStep G u w' x) (hne : w ≠ w') : FirstStep G v s x := by
  obtain ⟨e, p, hp⟩ := hs
  obtain ⟨e₁, p₁, hp₁⟩ := hv
  obtain ⟨e₂, p₂, hp₂⟩ := hx
  -- the path from `v` to `u` is the path from `u` to `v` backwards
  have hback : Walk.cons e p = (Walk.cons e₁ p₁).reverse :=
    congrArg Subtype.val ((hG.subsingleton_path v u).elim ⟨_, hp⟩ ⟨_, hp₁.reverse⟩)
  refine ⟨e, p.append (Walk.cons e₂ p₂), ?_⟩
  rw [← Walk.cons_append, hG.isPath_iff_isChain, Walk.edges_append, List.isChain_append]
  refine ⟨(hG.isPath_iff_isChain _).mp hp, (hG.isPath_iff_isChain _).mp hp₂, ?_⟩
  -- at `u` the walk turns from the edge to `w` to the edge to `w'`
  rw [hback, Walk.edges_reverse, List.getLast?_reverse]
  simp [hne, e₂.ne]

end Acyclic

end AcyclicGraph
