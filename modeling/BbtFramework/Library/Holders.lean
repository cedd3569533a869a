import Mathlib.Data.List.Basic
import Mathlib.Data.List.Perm.Basic

/-!
# Items held by numbered holders

Holders carry items; together they hold a multiset.  When one of them changes, what
it gives away or takes on is the whole difference.
-/

namespace BbtFramework.Library

variable {Holder Item : Type}

def held (items : Holder → List Item) (holders : List Holder) : List Item :=
  holders.flatMap items

variable {items : Holder → List Item} {holders : List Holder}

theorem mem_held {item : Item} :
    item ∈ held items holders ↔ ∃ holder ∈ holders, item ∈ items holder :=
  List.mem_flatMap

theorem held_concat (holder : Holder) :
    held items (holders ++ [holder]) = held items holders ++ items holder := by
  simp [held]

theorem held_concat_empty {holder : Holder} (hempty : items holder = []) :
    held items (holders ++ [holder]) = held items holders := by
  rw [held_concat, hempty, List.append_nil]

theorem held_split {index : Nat} {holder : Holder} (hholder : holders[index]? = some holder) :
    (held items holders).Perm (items holder ++ held items (holders.eraseIdx index)) := by
  obtain ⟨hlt, rfl⟩ := List.getElem?_eq_some_iff.mp hholder
  have hsplit : holders = holders.take index ++ holders[index] :: holders.drop (index + 1) := by
    rw [← List.drop_eq_getElem_cons hlt, List.take_append_drop]
  calc held items holders
      = held items (holders.take index) ++
          (items holders[index] ++ held items (holders.drop (index + 1))) := by
        refine (congrArg (held items) hsplit).trans ?_
        simp only [held, List.flatMap_append, List.flatMap_cons]
    _ |>.Perm (items holders[index] ++
          (held items (holders.take index) ++ held items (holders.drop (index + 1)))) :=
        List.perm_append_comm_assoc _ _ _
    _ = items holders[index] ++ held items (holders.eraseIdx index) := by
        rw [List.eraseIdx_eq_take_drop_succ]
        simp [held]

theorem eraseIdx_set {index : Nat} (holder : Holder) :
    (holders.set index holder).eraseIdx index = holders.eraseIdx index := by
  rw [List.eraseIdx_eq_take_drop_succ, List.eraseIdx_eq_take_drop_succ, List.take_set_of_le
    (Nat.le_refl index), List.drop_set_of_lt (Nat.lt_succ_self index)]

/-- One holder gives `given` away and changes to what is left. -/
theorem held_give {index : Nat} {before after : Holder} {given : List Item}
    (hbefore : holders[index]? = some before)
    (hitems : (items before).Perm (given ++ items after)) :
    (held items holders).Perm (given ++ held items (holders.set index after)) := by
  have hlt : index < holders.length := (List.getElem?_eq_some_iff.mp hbefore).1
  have hafter : (holders.set index after)[index]? = some after := by
    rw [List.getElem?_set_self hlt]
  have hsplit : (held items (holders.set index after)).Perm
      (items after ++ held items (holders.eraseIdx index)) := by
    rw [← eraseIdx_set after]
    exact held_split hafter
  calc held items holders
      |>.Perm (items before ++ held items (holders.eraseIdx index)) := held_split hbefore
    _ |>.Perm (given ++ items after ++ held items (holders.eraseIdx index)) :=
        hitems.append_right _
    _ = given ++ (items after ++ held items (holders.eraseIdx index)) :=
        List.append_assoc _ _ _
    _ |>.Perm (given ++ held items (holders.set index after)) := hsplit.symm.append_left _

theorem held_same {index : Nat} {before after : Holder}
    (hbefore : holders[index]? = some before) (hitems : items after = items before) :
    (held items (holders.set index after)).Perm (held items holders) := by
  have hgiven : (items before).Perm ([] ++ items after) := by
    rw [hitems]
    exact .refl _
  exact (held_give hbefore hgiven).symm

end BbtFramework.Library
