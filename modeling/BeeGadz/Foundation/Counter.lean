import Mathlib.Data.List.AList

/-!
# Counting in a map

A map from keys to counters that wrap around, next to the list of the keys that
were counted in it.
-/

namespace BeeGadz
namespace Foundation
namespace Counter

variable {κ : Type} [DecidableEq κ]

def value (m : AList fun _ : κ => Nat) (k : κ) : Nat :=
  (m.lookup k).getD 0

variable {m : AList fun _ : κ => Nat}

theorem value_empty (k : κ) : value (∅ : AList fun _ : κ => Nat) k = 0 := rfl

theorem value_insert (m : AList fun _ : κ => Nat) (k j : κ) (n : Nat) :
    value (m.insert k n) j = if j = k then n else value m j := by
  unfold value
  by_cases h : j = k
  · rw [h, AList.lookup_insert, if_pos rfl, Option.getD_some]
  · rw [AList.lookup_insert_ne h, if_neg h]

theorem mem_entries {k : κ} {n : Nat} (h : (⟨k, n⟩ : Sigma _) ∈ m.entries) :
    k ∈ m ∧ value m k = n := by
  have hlookup : m.lookup k = some n := AList.mem_lookup_iff.mpr h
  refine ⟨?_, by rw [value, hlookup, Option.getD_some]⟩
  rw [← AList.lookup_isSome, hlookup]
  rfl

/-- The map holds the keys of the list, each with the number of its occurrences
up to the width of a counter. -/
structure Tallies (N : Nat) (m : AList fun _ : κ => Nat) (l : List κ) :
    Prop where
  keys : forall k, k ∈ m <-> k ∈ l
  counts : forall k, value m k = l.count k % N

variable {N : Nat} {l : List κ}

theorem tallies_empty (N : Nat) :
    Tallies N (∅ : AList fun _ : κ => Nat) [] where
  keys := fun k => by simp
  counts := fun k => by simp [value_empty]

theorem Tallies.add (h : Tallies N m l) (k : κ) :
    Tallies N (m.insert k ((value m k + 1) % N)) (l ++ [k]) where
  keys := by
    intro j
    rw [AList.mem_insert, h.keys, List.mem_append, List.mem_singleton]
    exact or_comm
  counts := by
    intro j
    rw [value_insert, List.count_append]
    by_cases hj : j = k
    · subst hj
      rw [if_pos rfl, h.counts, Nat.mod_add_mod, List.count_singleton_self]
    · have hnone : [k].count j = 0 := by
        rw [List.count_eq_zero, List.mem_singleton]
        exact hj
      rw [if_neg hj, h.counts, hnone, Nat.add_zero]

theorem Tallies.exact (h : Tallies N m l) {k : κ} (hlt : l.count k < N) :
    value m k = l.count k := by
  rw [h.counts, Nat.mod_eq_of_lt hlt]

theorem Tallies.positive (h : Tallies N m l) {k : κ} (hk : k ∈ m)
    (hlt : l.count k < N) : 0 < value m k := by
  rw [h.exact hlt]
  exact List.count_pos_iff.mpr ((h.keys k).mp hk)

theorem Tallies.eq_empty (h : Tallies N m []) : m = ∅ := by
  apply AList.ext
  apply List.eq_nil_iff_forall_not_mem.mpr
  intro e he
  exact absurd ((h.keys e.1).mp (mem_entries he).left) List.not_mem_nil

end Counter
end Foundation
end BeeGadz
