import BbtFramework.Library.Table
import Mathlib.Data.List.Induction
import Mathlib.Data.List.Nodup

/-!
# Rows with an index, and bounded rings

A sequence of rows may keep an index from the key of a row to its position.  A
row appended at the end adds one entry to the index; a row taken out of the
middle moves the later ones, and the index is built again.  The second part is a
ring that keeps the last values put into it.
-/

namespace BbtFramework.Library

universe u v

namespace IndexedRows

variable {Key : Type u} {Row : Type v} [DecidableEq Key] (keyOf : Row → Key)

def reindex (rows : List Row) : Table Key Nat :=
  rows.zipIdx.foldl (fun index row => Table.emplace index (keyOf row.1) row.2) ∅

def IndexOf (index : Table Key Nat) (rows : List Row) : Prop :=
  ∀ key position, index.lookup key = some position ↔
    ∃ row, rows[position]? = some row ∧ keyOf row = key

variable {keyOf}

theorem IndexOf.empty : IndexOf keyOf ∅ [] := by
  intro key position
  exact ⟨nofun, fun ⟨_, hrow, _⟩ => nomatch hrow⟩

/-- Rows that have an index have distinct keys. -/
theorem IndexOf.position_eq {index : Table Key Nat} {rows : List Row}
    (hindex : IndexOf keyOf index rows) {first later : Nat} {row other : Row}
    (hrow : rows[first]? = some row) (hother : rows[later]? = some other)
    (hkey : keyOf row = keyOf other) : first = later := by
  have hfirst := (hindex (keyOf row) first).mpr ⟨row, hrow, rfl⟩
  have hlater := (hindex (keyOf row) later).mpr ⟨other, hother, hkey.symm⟩
  rw [hfirst] at hlater
  exact Option.some.inj hlater

theorem IndexOf.nodup {index : Table Key Nat} {rows : List Row}
    (hindex : IndexOf keyOf index rows) : (rows.map keyOf).Nodup := by
  refine List.nodup_iff_getElem?_ne_getElem?.mpr fun first later hlt hlength heq => ?_
  rw [List.length_map] at hlength
  have hfirst := List.getElem?_eq_getElem (Nat.lt_trans hlt hlength)
  have hlater := List.getElem?_eq_getElem hlength
  rw [List.getElem?_map, List.getElem?_map, hfirst, hlater] at heq
  exact Nat.ne_of_lt hlt (hindex.position_eq hfirst hlater (Option.some.inj heq))

theorem IndexOf.mem_iff {index : Table Key Nat} {rows : List Row}
    (hindex : IndexOf keyOf index rows) (key : Key) :
    key ∈ index ↔ key ∈ rows.map keyOf := by
  constructor
  · intro hmem
    obtain ⟨position, hlookup⟩ := Table.exists_lookup_of_mem hmem
    obtain ⟨row, hrow, rfl⟩ := (hindex key position).mp hlookup
    exact List.mem_map_of_mem (List.mem_of_getElem? hrow)
  · intro hmem
    obtain ⟨row, hrow, rfl⟩ := List.mem_map.mp hmem
    obtain ⟨position, hposition⟩ := List.getElem?_of_mem hrow
    exact Table.mem_of_lookup ((hindex (keyOf row) position).mpr ⟨row, hposition, rfl⟩)

/-- A row with a new key is appended. -/
theorem IndexOf.push {index : Table Key Nat} {rows : List Row}
    (hindex : IndexOf keyOf index rows) {row : Row} (hfresh : keyOf row ∉ rows.map keyOf) :
    IndexOf keyOf (Table.emplace index (keyOf row) rows.length) (rows ++ [row]) := by
  intro key position
  rw [Table.emplace_of_notMem _ (mt (hindex.mem_iff _).mp hfresh), Table.lookup_insert_eq,
    List.getElem?_append]
  by_cases hkey : key = keyOf row
  · subst hkey
    rw [if_pos rfl]
    constructor
    · rintro hlength
      cases hlength
      exact ⟨row, by simp⟩
    · rintro ⟨other, hother, hsame⟩
      split at hother
      case isTrue =>
        refine absurd ?_ hfresh
        rw [← hsame]
        exact List.mem_map_of_mem (List.mem_of_getElem? hother)
      case isFalse hpast =>
        have hlt : position - rows.length < [row].length :=
          (List.getElem?_eq_some_iff.mp hother).1
        rw [List.length_singleton] at hlt
        exact congrArg some (by omega)
  · rw [if_neg hkey, hindex key position]
    constructor
    · rintro ⟨other, hother, hsame⟩
      have hlt : position < rows.length := (List.getElem?_eq_some_iff.mp hother).1
      exact ⟨other, by rw [if_pos hlt]; exact hother, hsame⟩
    · rintro ⟨other, hother, hsame⟩
      split at hother
      case isTrue => exact ⟨other, hother, hsame⟩
      case isFalse =>
        have hmem := List.mem_of_getElem? hother
        rw [List.mem_singleton] at hmem
        exact absurd (hmem ▸ hsame).symm hkey

theorem reindex_append (rows : List Row) (row : Row) :
    reindex keyOf (rows ++ [row]) =
      Table.emplace (reindex keyOf rows) (keyOf row) rows.length := by
  unfold reindex
  rw [List.zipIdx_append, List.foldl_append, Nat.zero_add]
  rfl

/-- An index built from rows with distinct keys is theirs. -/
theorem indexOf_reindex {rows : List Row} (hnodup : (rows.map keyOf).Nodup) :
    IndexOf keyOf (reindex keyOf rows) rows := by
  induction rows using List.reverseRecOn with
  | nil => exact .empty
  | append_singleton rows row ih =>
      rw [List.map_append, List.map_singleton] at hnodup
      rw [reindex_append]
      refine (ih hnodup.of_append_left).push fun hmem => ?_
      exact List.disjoint_of_nodup_append hnodup hmem (List.mem_singleton_self _)

theorem IndexOf.of_keys_eq {index : Table Key Nat} {rows changed : List Row}
    (hindex : IndexOf keyOf index rows) (hkeys : changed.map keyOf = rows.map keyOf) :
    IndexOf keyOf index changed := by
  have hrows : ∀ (position : Nat) (key : Key),
      (∃ row, changed[position]? = some row ∧ keyOf row = key) ↔
        ∃ row, rows[position]? = some row ∧ keyOf row = key := by
    intro position key
    have hat := congrArg (fun keys : List Key => keys[position]? = some key) hkeys
    simpa only [List.getElem?_map, Option.map_eq_some_iff, eq_iff_iff] using hat
  intro key position
  rw [hrows position key]
  exact hindex key position

end IndexedRows

namespace BoundedRing

variable {Value : Type u}

/-- A full ring loses its oldest value. -/
def push (capacity : Nat) (ring : List Value) (value : Value) : List Value :=
  if capacity ≤ ring.length then ring.tail ++ [value] else ring ++ [value]

/-- The last `capacity` of the values. -/
def latest (capacity : Nat) (values : List Value) : List Value :=
  values.drop (values.length - capacity)

theorem length_latest (capacity : Nat) (values : List Value) :
    (latest capacity values).length = min values.length capacity := by
  rw [latest, List.length_drop]
  omega

theorem push_latest {capacity : Nat} (hpos : 0 < capacity) (values : List Value)
    (value : Value) :
    push capacity (latest capacity values) value = latest capacity (values ++ [value]) := by
  have hlength := length_latest capacity values
  unfold push
  rw [hlength]
  unfold latest
  rw [List.length_append, List.length_singleton]
  by_cases hfull : capacity ≤ values.length
  · rw [if_pos (le_min hfull le_rfl), List.tail_drop, List.drop_append_of_le_length (by omega)]
    congr 2
    omega
  · rw [if_neg (by omega), List.drop_append_of_le_length (by omega)]
    congr 2
    omega

end BoundedRing

end BbtFramework.Library
