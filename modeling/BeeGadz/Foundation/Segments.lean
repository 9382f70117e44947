import Mathlib.Algebra.BigOperators.Group.Finset.Basic
import Mathlib.Algebra.Order.BigOperators.Group.Finset

/-!
# Segments laid out one after the other

Segments of given sizes fill the numbers from 0 on without a gap.  Where a
segment starts is the sum of the sizes before it, and every number below the
total is at one place in one segment.
-/

namespace BeeGadz
namespace Foundation

/-- The first number of segment `s`. -/
def segmentStart (size : Nat -> Nat) (s : Nat) : Nat :=
  ∑ i ∈ Finset.range s, size i

section Segments

variable {size : Nat -> Nat}

@[simp] theorem segmentStart_zero : segmentStart size 0 = 0 :=
  Finset.sum_range_zero size

theorem segmentStart_succ (s : Nat) :
    segmentStart size (s + 1) = segmentStart size s + size s :=
  Finset.sum_range_succ size s

theorem segmentStart_mono {s t : Nat} (h : s ≤ t) :
    segmentStart size s ≤ segmentStart size t :=
  Finset.sum_le_sum_of_subset (Finset.range_mono h)

theorem segmentStart_add_size {s t : Nat} (h : s < t) :
    segmentStart size s + size s ≤ segmentStart size t := by
  rw [← segmentStart_succ]
  exact segmentStart_mono h

/-- The sizes with the first one left out give the starts with the first size
replaced by the one at the start. -/
theorem segmentStart_tail (s : Nat) :
    segmentStart (fun i => size (i + 1)) s + size 0 =
      segmentStart size s + size s := by
  rw [← segmentStart_succ]
  exact (Finset.sum_range_succ' size s).symm

theorem segmentStart_eq_mul {n : Nat} (s : Nat)
    (h : forall i, i < s -> size i = n) : segmentStart size s = n * s := by
  rw [segmentStart,
    Finset.sum_const_nat fun i hi => h i (Finset.mem_range.mp hi),
    Finset.card_range, Nat.mul_comm]

theorem exists_segment {n b : Nat} (h : b < segmentStart size n) :
    exists s k, s < n ∧ k < size s ∧ segmentStart size s + k = b := by
  induction n with
  | zero =>
      rw [segmentStart_zero] at h
      exact absurd h (Nat.not_lt_zero b)
  | succ n ih =>
      by_cases hb : b < segmentStart size n
      · rcases ih hb with ⟨s, k, hs, hk, hsum⟩
        exact ⟨s, k, Nat.lt_succ_of_lt hs, hk, hsum⟩
      · rw [segmentStart_succ] at h
        exact ⟨n, b - segmentStart size n, Nat.lt_succ_self n, by omega,
          by omega⟩

end Segments

end Foundation
end BeeGadz
