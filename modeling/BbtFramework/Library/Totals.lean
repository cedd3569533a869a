import BbtFramework.Library.Table
import Mathlib.Algebra.BigOperators.Group.Finset.Piecewise
import Mathlib.Algebra.Order.BigOperators.Group.Finset
import Mathlib.Algebra.GroupWithZero.Nat

/-!
# Sums over a table

What the values of a table count together, and how it follows from what becomes of the
single rows, whatever their order.
-/

namespace BbtFramework.Library.Table

universe u v

variable {Key : Type u} {Value : Type v}

def total (table : Table Key Value) (count : Value → Nat) : Nat :=
  (table.entries.map (fun row => count row.2)).sum

variable [DecidableEq Key]

def countAt (table : Table Key Value) (count : Value → Nat) (key : Key) : Nat :=
  (table.lookup key).elim 0 count

theorem total_eq_sum (table : Table Key Value) (count : Value → Nat) :
    table.total count = ∑ key ∈ table.keys.toFinset, table.countAt count key := by
  rw [List.sum_toFinset _ table.keys_nodup, total, AList.keys, List.keys, List.map_map]
  congr 1
  apply List.map_congr_left
  intro row hmem
  have hlookup : table.lookup row.1 = some row.2 := AList.mem_lookup_iff.mpr hmem
  rw [Function.comp_apply, countAt, hlookup]
  rfl

/-- Rows that go count no more, and those that stay no more than before but for one key. -/
theorem total_le_add {before after : Table Key Value} {count : Value → Nat} (key : Key)
    (more : Nat)
    (hrows : ∀ other later, after.lookup other = some later →
      ∃ earlier, before.lookup other = some earlier ∧
        count later ≤ count earlier + if other = key then more else 0) :
    after.total count ≤ before.total count + more := by
  have hkeys : after.keys.toFinset ⊆ before.keys.toFinset := by
    intro other hmem
    rw [List.mem_toFinset, ← AList.mem_keys] at hmem ⊢
    obtain ⟨later, hlater⟩ := exists_lookup_of_mem hmem
    obtain ⟨earlier, hearlier, -⟩ := hrows other later hlater
    exact mem_of_lookup hearlier
  have hrow : ∀ other ∈ after.keys.toFinset, after.countAt count other ≤
      before.countAt count other + if other = key then more else 0 := by
    intro other hmem
    rw [List.mem_toFinset, ← AList.mem_keys] at hmem
    obtain ⟨later, hlater⟩ := exists_lookup_of_mem hmem
    obtain ⟨earlier, hearlier, hle⟩ := hrows other later hlater
    rw [countAt, countAt, hlater, hearlier]
    exact hle
  have hmore : ∑ other ∈ after.keys.toFinset, (if other = key then more else 0) ≤ more := by
    rw [Finset.sum_ite_eq' after.keys.toFinset key (fun _ => more)]
    split
    · exact Nat.le_refl _
    · exact Nat.zero_le _
  rw [total_eq_sum, total_eq_sum]
  calc ∑ other ∈ after.keys.toFinset, after.countAt count other
      ≤ ∑ other ∈ after.keys.toFinset,
          (before.countAt count other + if other = key then more else 0) :=
        Finset.sum_le_sum hrow
    _ = ∑ other ∈ after.keys.toFinset, before.countAt count other +
          ∑ other ∈ after.keys.toFinset, (if other = key then more else 0) :=
        Finset.sum_add_distrib
    _ ≤ ∑ other ∈ before.keys.toFinset, before.countAt count other + more :=
        Nat.add_le_add (Finset.sum_le_sum_of_subset hkeys) hmore

theorem total_le {before after : Table Key Value} {count : Value → Nat}
    (hrows : ∀ key later, after.lookup key = some later →
      ∃ earlier, before.lookup key = some earlier ∧ count later ≤ count earlier) :
    after.total count ≤ before.total count := by
  by_cases hempty : after.keys = []
  · have hnone : after.entries = [] := List.map_eq_nil_iff.mp hempty
    rw [total, hnone]
    exact Nat.zero_le _
  · obtain ⟨key, -⟩ := List.exists_mem_of_ne_nil _ hempty
    apply total_le_add key 0
    intro other later hlater
    obtain ⟨earlier, hearlier, hle⟩ := hrows other later hlater
    exact ⟨earlier, hearlier, Nat.le_trans hle (Nat.le_add_right _ _)⟩

theorem total_insert {table : Table Key Value} {key : Key} (count : Value → Nat)
    (value : Value) (hfresh : key ∉ table) :
    total (table.insert key value) count = count value + table.total count := by
  rw [total, AList.insert_of_notMem hfresh, List.map_cons, List.sum_cons, total]

omit [DecidableEq Key] in
/-- One row for each key. -/
theorem total_one (table : Table Key Value) :
    table.total (fun _ => 1) = table.keys.length := by
  rw [total, AList.keys, List.keys, List.length_map, List.map_const',
    List.sum_replicate_nat, Nat.mul_one]

end BbtFramework.Library.Table
