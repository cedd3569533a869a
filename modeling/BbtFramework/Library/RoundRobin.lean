import Mathlib.Data.List.Nodup
import Mathlib.Data.List.Rotate

/-!
# Going round a list

A cursor that only counts up, reduced modulo the length of a list, visits the list lap after
lap.  One lap from any position is a rotation of the list, so whole laps visit every element
equally often, wherever they start.
-/

namespace BbtFramework.Library

universe u

/-- What `count` turns from `cursor` on give. -/
def turns {Item : Type u} (items : List Item) (cursor count : Nat) : List Item :=
  (List.range count).filterMap (fun turn => items[(cursor + turn) % items.length]?)

section

variable {Item : Type u} (items : List Item)

@[simp]
theorem turns_zero (cursor : Nat) : turns items cursor 0 = [] := rfl

theorem turns_succ (cursor count : Nat) :
    turns items cursor (count + 1) =
      turns items cursor count ++ (items[(cursor + count) % items.length]?).toList := by
  unfold turns
  rw [List.range_succ, List.filterMap_append]
  congr 1

theorem turns_add (cursor first second : Nat) :
    turns items cursor (first + second) =
      turns items cursor first ++ turns items (cursor + first) second := by
  induction second with
  | zero => simp
  | succ second ih =>
      rw [← Nat.add_assoc, turns_succ, ih, turns_succ, List.append_assoc, Nat.add_assoc cursor]

/-- Reading a list at each of its indices gives the list. -/
theorem filterMap_range_length :
    (List.range items.length).filterMap (fun index => items[index]?) = items := by
  induction items with
  | nil => rfl
  | cons first rest ih =>
      rw [List.length_cons, List.range_succ_eq_map]
      simpa [List.filterMap_map, Function.comp_def] using ih

theorem turns_lap (cursor : Nat) : turns items cursor items.length = items.rotate cursor := by
  have hall : ∀ turn ∈ List.range items.length,
      items[(cursor + turn) % items.length]? = (items.rotate cursor)[turn]? := by
    intro turn hturn
    rw [List.getElem?_rotate (List.mem_range.mp hturn), Nat.add_comm]
  have hlap : turns items cursor items.length =
      (List.range items.length).filterMap (fun turn => (items.rotate cursor)[turn]?) :=
    List.filterMap_congr hall
  rw [hlap, ← List.length_rotate items cursor]
  exact filterMap_range_length _

variable [DecidableEq Item]

/-- Whole laps visit an element as often as the list holds it, once for each lap. -/
theorem count_turns_laps (item : Item) (laps cursor : Nat) :
    (turns items cursor (laps * items.length)).count item = laps * items.count item := by
  induction laps generalizing cursor with
  | zero => simp
  | succ laps ih =>
      rw [Nat.succ_mul, turns_add, List.count_append, ih, turns_lap,
        (List.rotate_perm items _).count_eq, Nat.succ_mul]

variable {items}

/-- The laps of a list without repetition visit each of its elements once. -/
theorem count_turns_of_nodup (hnodup : items.Nodup) {item : Item} (hmem : item ∈ items)
    (laps cursor : Nat) :
    (turns items cursor (laps * items.length)).count item = laps := by
  rw [count_turns_laps, List.count_eq_one_of_mem hnodup hmem, Nat.mul_one]

end

end BbtFramework.Library
