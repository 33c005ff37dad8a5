import Mathlib.Data.Finmap

/-!
# Concurrent maps

A Java `ConcurrentMap` as a finite map, with the two ways of writing an entry: `put`
overwrites (`Finmap.insert`), `putIfAbsent` keeps the entry that is there.

## Main definitions

* `ConcurrentMap K V`: finite maps from `K` to `V`
* `ConcurrentMap.putIfAbsent`
* `ConcurrentMap.writes k ws`: the values a sequence of writes has for one key

## Main results

* `ConcurrentMap.lookup_put`, `ConcurrentMap.lookup_putIfAbsent`: the entries after a write
* `ConcurrentMap.lookup_foldl_putIfAbsent`: after a sequence of `putIfAbsent`, an entry is the
  first value written for its key
-/

/-- The finite maps from `K` to `V`. -/
abbrev ConcurrentMap (K V : Type) := Finmap fun _ : K => V

namespace ConcurrentMap

variable {K V : Type} [DecidableEq K]

/-- `map.put(k, v)`. -/
def put (m : ConcurrentMap K V) (k : K) (v : V) : ConcurrentMap K V :=
  m.insert k v

/-- `map.putIfAbsent(k, v)`: the entry for `k` stays if there is one. -/
def putIfAbsent (m : ConcurrentMap K V) (k : K) (v : V) : ConcurrentMap K V :=
  if k ∈ m then m else m.put k v

theorem lookup_put (m : ConcurrentMap K V) (k k' : K) (v : V) :
    (m.put k v).lookup k' = if k' = k then some v else m.lookup k' := by
  unfold put
  split_ifs with h
  · subst h
    exact Finmap.lookup_insert m
  · exact Finmap.lookup_insert_of_ne m h

theorem lookup_putIfAbsent (m : ConcurrentMap K V) (k k' : K) (v : V) :
    (m.putIfAbsent k v).lookup k' =
      if k' = k then some ((m.lookup k).getD v) else m.lookup k' := by
  unfold putIfAbsent
  split_ifs with hk h h
  -- an entry for `k` is there and stays
  · obtain ⟨w, hw⟩ := Finmap.mem_iff.mp hk
    rw [h, hw, Option.getD_some]
  · rfl
  -- there is none, and `put` writes it
  · rw [lookup_put, if_pos h, Finmap.lookup_eq_none.mpr hk, Option.getD_none]
  · rw [lookup_put, if_neg h]

theorem mem_putIfAbsent {m : ConcurrentMap K V} {k k' : K} {v : V} :
    k' ∈ m.putIfAbsent k v ↔ k' = k ∨ k' ∈ m := by
  rw [← Finmap.lookup_isSome, lookup_putIfAbsent, ← Finmap.lookup_isSome]
  split_ifs with h <;> simp [h]

section Writes

/-- The values of the writes to `k`, in their order. -/
def writes (k : K) (ws : List (K × V)) : List V :=
  ws.filterMap fun w => if w.1 = k then some w.2 else none

@[simp] theorem writes_nil (k : K) : writes k ([] : List (K × V)) = [] := rfl

@[simp] theorem writes_append (k : K) (ws ws' : List (K × V)) :
    writes k (ws ++ ws') = writes k ws ++ writes k ws' :=
  List.filterMap_append

@[simp] theorem writes_singleton (k : K) (w : K × V) :
    writes k [w] = if w.1 = k then [w.2] else [] := by
  unfold writes
  split_ifs with h <;> simp [h]

theorem lookup_foldl_putIfAbsent (ws : List (K × V)) (k : K) :
    (ws.foldl (fun m w => putIfAbsent m w.1 w.2) ∅).lookup k = (writes k ws).head? := by
  induction ws using List.reverseRecOn with
  | nil => simp
  | append_singleton ws w ih =>
    rw [List.foldl_append, List.foldl_cons, List.foldl_nil, lookup_putIfAbsent, writes_append,
      writes_singleton, List.head?_append]
    by_cases hk : k = w.1
    · subst hk
      rw [if_pos rfl, if_pos rfl, ih]
      -- the last write takes effect only if it is also the first for its key
      cases (writes w.1 ws).head? <;> rfl
    · rw [if_neg hk, if_neg fun h => hk h.symm, ih, List.head?_nil, Option.or_none]

end Writes

end ConcurrentMap
