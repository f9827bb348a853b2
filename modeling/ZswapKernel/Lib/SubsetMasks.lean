import Mathlib.Algebra.BigOperators.Intervals
import Mathlib.Algebra.Order.BigOperators.Group.Finset
import Mathlib.Data.Nat.Bitwise
import Mathlib.Tactic.Ring

/-!
# Searching the subsets of a finite set by their masks

A search that extends a mask bit by bit, and gives up on a mask at most once, tries at most
`n * 2 ^ (n - 1)` extensions: the number of pairs of a mask below `2 ^ n` and a bit it leaves free.

* `sum_free` — that number.
* `sum_free_le` — any set of masks has at most as many.
-/

namespace SubsetMasks

/-- The bits below `n` that a mask leaves free. -/
def free (n mask : Nat) : Nat := ((List.range n).filter (!mask.testBit ·)).length

theorem free_succ (n mask : Nat) :
    free (n + 1) mask = free n mask + if mask.testBit n then 0 else 1 := by
  unfold free
  rw [List.range_succ, List.filter_append, List.length_append]
  cases h : mask.testBit n <;> simp [h]

theorem free_two_pow_add {n mask : Nat} : free n (2 ^ n + mask) = free n mask := by
  unfold free
  congr 1
  refine List.filter_congr fun i hi => ?_
  rw [Nat.testBit_two_pow_add_gt (List.mem_range.mp hi)]

/-- The extensions of all masks below `2 ^ n`. -/
theorem sum_free (n : Nat) :
    2 * ∑ mask ∈ Finset.range (2 ^ n), free n mask = n * 2 ^ n := by
  induction n with
  | zero => simp [free]
  | succ n ih =>
    have hlow : ∑ mask ∈ Finset.range (2 ^ n), free (n + 1) mask =
        ∑ mask ∈ Finset.range (2 ^ n), free n mask + 2 ^ n := by
      have hstep : ∀ mask ∈ Finset.range (2 ^ n), free (n + 1) mask = free n mask + 1 := by
        intro mask hmask
        rw [free_succ, Nat.testBit_lt_two_pow (Finset.mem_range.mp hmask), if_neg nofun]
      rw [Finset.sum_congr rfl hstep, Finset.sum_add_distrib]
      simp
    have hhigh : ∑ mask ∈ Finset.range (2 ^ n), free (n + 1) (2 ^ n + mask) =
        ∑ mask ∈ Finset.range (2 ^ n), free n mask := by
      refine Finset.sum_congr rfl fun mask hmask => ?_
      have hbit : (2 ^ n + mask).testBit n = true := by
        rw [Nat.testBit_two_pow_add_eq, Nat.testBit_lt_two_pow (Finset.mem_range.mp hmask)]
        rfl
      rw [free_succ, hbit, if_pos rfl, free_two_pow_add, Nat.add_zero]
    have hsplit : 2 ^ (n + 1) = 2 ^ n + 2 ^ n := by ring
    rw [hsplit, Finset.sum_range_add, hlow, hhigh]
    calc 2 * (∑ mask ∈ Finset.range (2 ^ n), free n mask + 2 ^ n +
          ∑ mask ∈ Finset.range (2 ^ n), free n mask)
        = 2 * (2 * ∑ mask ∈ Finset.range (2 ^ n), free n mask) + 2 * 2 ^ n := by ring
      _ = 2 * (n * 2 ^ n) + 2 * 2 ^ n := by rw [ih]
      _ = (n + 1) * (2 ^ n + 2 ^ n) := by ring

/-- Any set of masks has no more extensions. -/
theorem sum_free_le {n : Nat} {masks : Finset Nat} (h : masks ⊆ Finset.range (2 ^ n)) :
    2 * ∑ mask ∈ masks, free n mask ≤ n * 2 ^ n := by
  rw [← sum_free]
  exact Nat.mul_le_mul_left 2 (Finset.sum_le_sum_of_subset h)

end SubsetMasks
