import Mathlib.Algebra.BigOperators.Group.Finset.Piecewise

/-!
# Counts over any number of threads

A shared counter is at least the sum of what single threads count, taken over any
finite set of them, so no bound on the threads is needed.
-/

namespace BbtFramework.Library

variable {Index : Type} [DecidableEq Index]

/-- `total` covers what the indices of every finite set count together. -/
def Tallied (count : Index → Nat) (total : Nat) : Prop :=
  ∀ indices : Finset Index, ∑ index ∈ indices, count index ≤ total

namespace Tallied

variable {count : Index → Nat} {total : Nat}

omit [DecidableEq Index] in
theorem zero (hcount : ∀ index, count index = 0) : Tallied count total := by
  intro indices
  rw [Finset.sum_eq_zero (fun index _ => hcount index)]
  exact Nat.zero_le _

omit [DecidableEq Index] in
theorem eq_zero (htally : Tallied count 0) (index : Index) : count index = 0 := by
  have hone := htally {index}
  rw [Finset.sum_singleton] at hone
  exact Nat.le_zero.mp hone

omit [DecidableEq Index] in
theorem congr {other : Index → Nat} (htally : Tallied count total)
    (hsame : ∀ index, other index = count index) : Tallied other total := by
  intro indices
  rw [Finset.sum_congr rfl (fun index _ => hsame index)]
  exact htally indices

theorem raise (htally : Tallied count total) (index : Index) :
    Tallied (Function.update count index (count index + 1)) (total + 1) := by
  intro indices
  have hsum := htally indices
  by_cases hmem : index ∈ indices
  · rw [← Finset.add_sum_erase indices count hmem, Finset.erase_eq] at hsum
    rw [Finset.sum_update_of_mem hmem]
    omega
  · rw [Finset.sum_update_of_notMem hmem]
    omega

theorem lower (htally : Tallied count total) {index : Index} {rest : Nat}
    (hcount : count index = rest + 1) :
    Tallied (Function.update count index rest) (total - 1) := by
  intro indices
  have hsum := htally (insert index indices)
  rw [← Finset.add_sum_erase _ count (Finset.mem_insert_self index indices), hcount,
    Finset.erase_insert_eq_erase] at hsum
  by_cases hmem : index ∈ indices
  · rw [Finset.erase_eq] at hsum
    rw [Finset.sum_update_of_mem hmem]
    omega
  · rw [Finset.erase_eq_of_notMem hmem] at hsum
    rw [Finset.sum_update_of_notMem hmem]
    omega

end Tallied

end BbtFramework.Library
