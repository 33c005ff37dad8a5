import OnosApps.Maps.ConcurrentMap

/-!
# Maps of maps, with references

A Java `Map<K, Map<L, V>>` as the heap has it: the outer map holds references to inner maps, and an
inner map is read and written through a reference, by whoever holds one. No two keys share an inner
map, and no reference dangles.

## Main definitions

* `NestedMap K L V`: the outer map and the inner maps
* `NestedMap.putIfAbsentNew`, `NestedMap.get`, `NestedMap.putAt`, `NestedMap.getAt`: the operations
* `NestedMap.entry m k l`: the value under `k` and `l`, by way of the outer map

## Main results

* `NestedMap.entry_putIfAbsentNew`, `NestedMap.entry_putAt`: what the operations do to the entries
* `NestedMap.getAt_eq_entry`: reading through a reference
* `NestedMap.get_putIfAbsentNew_of_some`: a reference to the inner map of a key stays one
-/

/-- An outer map of references, and the inner maps they refer to. -/
structure NestedMap (K L V : Type) [DecidableEq K] where
  outer : ConcurrentMap K ℕ
  inner : List (ConcurrentMap L V)
  outer_lt : ∀ k r, outer.lookup k = some r → r < inner.length
  outer_injective : ∀ k k' r, outer.lookup k = some r → outer.lookup k' = some r → k = k'

namespace NestedMap

variable {K L V : Type} [DecidableEq K] [DecidableEq L]

/-- No inner map at all. -/
def empty : NestedMap K L V where
  outer := ∅
  inner := []
  outer_lt k r h := by simp at h
  outer_injective k k' r h := by simp at h

/-- `map.get(k)`: a reference. -/
def get (m : NestedMap K L V) (k : K) : Option ℕ :=
  m.outer.lookup k

theorem outer_putIfAbsent_cases {outer : ConcurrentMap K ℕ} {n : ℕ} {k k' : K} {r : ℕ}
    (h : (outer.putIfAbsent k n).lookup k' = some r) :
    outer.lookup k' = some r ∨ k' = k ∧ r = n := by
  rw [ConcurrentMap.lookup_putIfAbsent] at h
  split_ifs at h with hk
  · subst hk
    cases hr : outer.lookup k' with
    | none => exact Or.inr ⟨rfl, by simpa [hr] using h.symm⟩
    | some r' => exact Or.inl (by simpa [hr] using h)
  · exact Or.inl h

/-- `map.putIfAbsent(k, new)`: a new inner map is made in any case, and it is the one of `k` if `k`
has none. -/
def putIfAbsentNew (m : NestedMap K L V) (k : K) : NestedMap K L V where
  outer := m.outer.putIfAbsent k m.inner.length
  inner := m.inner ++ [∅]
  outer_lt k' r h := by
    rw [List.length_append, List.length_singleton]
    rcases outer_putIfAbsent_cases h with h | ⟨-, rfl⟩
    · exact Nat.lt_succ_of_lt (m.outer_lt k' r h)
    · exact Nat.lt_succ_self _
  outer_injective k₁ k₂ r h₁ h₂ := by
    -- a reference that was there before is not the new one
    have hold : ∀ k' r, m.outer.lookup k' = some r → r ≠ m.inner.length :=
      fun k' r h => Nat.ne_of_lt (m.outer_lt k' r h)
    rcases outer_putIfAbsent_cases h₁ with hold₁ | ⟨hk₁, hr₁⟩ <;>
      rcases outer_putIfAbsent_cases h₂ with hold₂ | ⟨hk₂, hr₂⟩
    · exact m.outer_injective _ _ r hold₁ hold₂
    · exact absurd hr₂ (hold _ r hold₁)
    · exact absurd hr₁ (hold _ r hold₂)
    · rw [hk₁, hk₂]

/-- `table.put(l, v)` on the inner map that `r` refers to. -/
def putAt (m : NestedMap K L V) (r : ℕ) (l : L) (v : V) : NestedMap K L V where
  outer := m.outer
  inner := m.inner.modify r fun table => table.put l v
  outer_lt k r' h := by
    rw [List.length_modify]
    exact m.outer_lt k r' h
  outer_injective := m.outer_injective

/-- `table.get(l)` on the inner map that `r` refers to. -/
def getAt (m : NestedMap K L V) (r : ℕ) (l : L) : Option V :=
  (m.inner[r]?).bind fun table => table.lookup l

/-- The value under `k` and `l`. -/
def entry (m : NestedMap K L V) (k : K) (l : L) : Option V :=
  (m.get k).bind fun r => m.getAt r l

variable {m : NestedMap K L V} {k k' : K} {l l' : L} {r : ℕ} {v : V}

@[simp] theorem entry_empty : (empty : NestedMap K L V).entry k l = none := by
  simp [entry, get, empty]

theorem getAt_eq_entry (h : m.get k = some r) : m.getAt r l = m.entry k l := by
  rw [entry, h, Option.bind_some]

omit [DecidableEq L] in
/-- A reference to the inner map of a key stays one. -/
theorem get_putIfAbsentNew_of_some (h : m.get k' = some r) :
    (m.putIfAbsentNew k).get k' = some r := by
  rw [get, putIfAbsentNew, ConcurrentMap.lookup_putIfAbsent]
  split_ifs with hk
  · subst hk
    rw [show m.outer.lookup k' = some r from h, Option.getD_some]
  · exact h

omit [DecidableEq L] in
theorem get_putIfAbsentNew_isSome : ((m.putIfAbsentNew k).get k).isSome := by
  rw [get, putIfAbsentNew, ConcurrentMap.lookup_putIfAbsent, if_pos rfl]
  rfl

/-- A new inner map is empty, as a missing one is. -/
theorem entry_putIfAbsentNew : (m.putIfAbsentNew k).entry k' l = m.entry k' l := by
  have hold : ∀ r, m.get k' = some r → (m.putIfAbsentNew k).getAt r l = m.getAt r l := by
    intro r hr
    rw [getAt, getAt, putIfAbsentNew, List.getElem?_append_left (m.outer_lt k' r hr)]
  cases hget : m.get k' with
  | some r =>
    rw [entry, get_putIfAbsentNew_of_some hget, entry, hget, Option.bind_some, Option.bind_some,
      hold r hget]
  | none =>
    rw [entry, entry, hget, Option.bind_none]
    cases hnew : (m.putIfAbsentNew k).get k' with
    | none => rfl
    | some r =>
      rcases outer_putIfAbsent_cases hnew with h | ⟨-, rfl⟩
      · rw [get, h] at hget
        simp at hget
      · simp [getAt, putIfAbsentNew]

@[simp] theorem get_putAt : (m.putAt r l v).get k = m.get k := rfl

/-- A write through the reference of `k` writes the entry under `k`, and no other. -/
theorem entry_putAt (h : m.get k = some r) :
    (m.putAt r l v).entry k' l' = if k' = k ∧ l' = l then some v else m.entry k' l' := by
  rw [entry, entry, get_putAt]
  cases hget : m.get k' with
  | none =>
    rw [if_neg]
    · rfl
    · rintro ⟨rfl, -⟩
      rw [h] at hget
      simp at hget
  | some r' =>
    have hlt : r' < m.inner.length := m.outer_lt k' r' hget
    -- two keys have different inner maps
    have hkey : r = r' ↔ k' = k := by
      constructor
      · rintro rfl
        exact m.outer_injective _ _ _ hget h
      · rintro rfl
        rw [h] at hget
        exact Option.some.inj hget
    rw [Option.bind_some, Option.bind_some, getAt, getAt, putAt, List.getElem?_modify,
      List.getElem?_eq_getElem hlt, Option.map_eq_map, Option.map_some, Option.bind_some,
      Option.bind_some]
    by_cases hk : k' = k
    · rw [if_pos (hkey.mpr hk), ConcurrentMap.lookup_put]
      simp only [hk, true_and]
    · rw [if_neg fun hr => hk (hkey.mp hr), if_neg fun hkl => hk hkl.1]

end NestedMap
