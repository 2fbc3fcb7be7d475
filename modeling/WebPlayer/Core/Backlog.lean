import Mathlib.Algebra.BigOperators.Group.Finset.Basic
import Mathlib.Algebra.Order.Group.Defs
import Mathlib.Algebra.Order.Monoid.Unbundled.Basic
import Mathlib.Order.Lattice

/-!
# Jobs one after another

Job `k` comes at `t k` and takes `d k`. It begins when it has come and the job
before it has ended.

* `begins_eq_iff`: the jobs up to `k` run without a gap iff each has come by
  the end of the ones before it.
-/
namespace WebPlayer.Core
open Finset

variable {α : Type} [AddCommGroup α] [LinearOrder α] [IsOrderedAddMonoid α]

def begins (t d : Nat → α) : Nat → α
  | 0 => t 0
  | k + 1 => max (begins t d k + d k) (t (k + 1))

omit [IsOrderedAddMonoid α] in
theorem le_begins (t d : Nat → α) (k : Nat) : t k ≤ begins t d k := by
  cases k with
  | zero => exact le_refl _
  | succ k => exact le_max_right _ _

/-- A job never begins before the work ahead of it is done. -/
theorem work_le_begins (t d : Nat → α) (k : Nat) : t 0 + ∑ i ∈ range k, d i ≤ begins t d k := by
  induction k with
  | zero => simp [begins]
  | succ k ih =>
    rw [sum_range_succ, ← add_assoc]
    exact le_trans (add_le_add_left ih _) (le_max_left _ _)

theorem begins_eq_iff (t d : Nat → α) (k : Nat) :
    begins t d k = t 0 + ∑ i ∈ range k, d i ↔ ∀ j, j ≤ k → t j ≤ t 0 + ∑ i ∈ range j, d i := by
  induction k with
  | zero =>
    refine iff_of_true (by simp [begins]) fun j hj => ?_
    rw [Nat.le_zero.mp hj]
    simp
  | succ k ih =>
    constructor
    · intro h j hj
      have hprev : begins t d k = t 0 + ∑ i ∈ range k, d i := by
        refine le_antisymm ?_ (work_le_begins t d k)
        have hle : begins t d k + d k ≤ t 0 + ∑ i ∈ range k, d i + d k := by
          calc begins t d k + d k ≤ begins t d (k + 1) := le_max_left _ _
            _ = t 0 + ∑ i ∈ range k, d i + d k := by rw [h, sum_range_succ, ← add_assoc]
        exact le_of_add_le_add_right hle
      rcases Nat.lt_or_eq_of_le hj with hlt | rfl
      · exact ih.mp hprev j (Nat.le_of_lt_succ hlt)
      · rw [← h]
        exact le_begins t d _
    · intro h
      have hprev := ih.mpr fun j hj => h j (Nat.le_succ_of_le hj)
      have hlast := h (k + 1) (Nat.le_refl _)
      rw [begins, hprev, add_assoc, ← sum_range_succ]
      exact max_eq_left hlast

end WebPlayer.Core
