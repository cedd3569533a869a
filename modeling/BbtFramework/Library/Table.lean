import Mathlib.Data.List.AList

/-!
# Hash tables with unique keys

`Table` is Mathlib's association list: the uniqueness of keys is a field, and
the order of the entries stands for the unspecified order of a hash table.
The file adds the one operation it lacks, the insertion that keeps a value
already stored, and the lookup rules the models compute with.
-/

namespace BbtFramework.Library

universe u v

/-- A finite map; `AList` carries the proof that its keys are distinct. -/
abbrev Table (Key : Type u) (Value : Type v) := AList (fun _ : Key => Value)

namespace Table

variable {Key : Type u} {Value : Type v} [DecidableEq Key]

instance (key : Key) (table : Table Key Value) : Decidable (key ∈ table) :=
  inferInstanceAs (Decidable (key ∈ table.keys))

/-- Insertion that leaves a stored value alone. -/
def emplace (table : Table Key Value) (key : Key) (value : Value) :
    Table Key Value :=
  if key ∈ table then table else table.insert key value

theorem emplace_of_mem {table : Table Key Value} {key : Key} (value : Value)
    (hmem : key ∈ table) : emplace table key value = table :=
  if_pos hmem

theorem emplace_of_notMem {table : Table Key Value} {key : Key} (value : Value)
    (hmem : key ∉ table) : emplace table key value = table.insert key value :=
  if_neg hmem

@[simp]
theorem mem_emplace {table : Table Key Value} {key other : Key}
    {value : Value} :
    other ∈ emplace table key value ↔ other = key ∨ other ∈ table := by
  unfold emplace
  split
  case isTrue hmem =>
    constructor
    · exact Or.inr
    · rintro (rfl | hother)
      · exact hmem
      · exact hother
  case isFalse => exact AList.mem_insert table

theorem lookup_emplace_ne {table : Table Key Value} {key other : Key}
    {value : Value} (hne : other ≠ key) :
    (emplace table key value).lookup other = table.lookup other := by
  unfold emplace
  split
  · rfl
  · exact AList.lookup_insert_ne hne

theorem mem_of_lookup {table : Table Key Value} {key : Key} {value : Value}
    (hlookup : table.lookup key = some value) : key ∈ table :=
  AList.lookup_isSome.mp (by rw [hlookup]; rfl)

theorem exists_lookup_of_mem {table : Table Key Value} {key : Key}
    (hmem : key ∈ table) : ∃ value, table.lookup key = some value :=
  Option.isSome_iff_exists.mp (AList.lookup_isSome.mpr hmem)

theorem lookup_insert_eq (table : Table Key Value) (key other : Key)
    (value : Value) :
    (table.insert key value).lookup other =
      if other = key then some value else table.lookup other := by
  split
  case isTrue heq => rw [heq]; exact AList.lookup_insert table
  case isFalse hne => exact AList.lookup_insert_ne hne

theorem lookup_erase_eq (table : Table Key Value) (key other : Key) :
    (table.erase key).lookup other =
      if other = key then none else table.lookup other := by
  split
  case isTrue heq => rw [heq]; exact AList.lookup_erase key table
  case isFalse hne => exact AList.lookup_erase_ne hne

def mapValues (table : Table Key Value) (change : Key → Value → Value) :
    Table Key Value where
  entries := table.entries.map (fun row => ⟨row.1, change row.1 row.2⟩)
  nodupKeys := by
    have hkeys : List.keys (table.entries.map
        (fun row => (⟨row.1, change row.1 row.2⟩ : Sigma fun _ : Key => Value))) =
        table.entries.keys := by
      simp only [List.keys, List.map_map]
      rfl
    rw [List.NodupKeys, hkeys]
    exact table.nodupKeys

omit [DecidableEq Key] in
@[simp]
theorem keys_mapValues (table : Table Key Value) (change : Key → Value → Value) :
    (mapValues table change).keys = table.keys := by
  simp only [mapValues, AList.keys, List.keys, List.map_map]
  rfl

omit [DecidableEq Key] in
@[simp]
theorem mem_mapValues {table : Table Key Value} {key : Key}
    {change : Key → Value → Value} : key ∈ mapValues table change ↔ key ∈ table := by
  rw [AList.mem_keys, AList.mem_keys, keys_mapValues]

theorem lookup_mapValues (table : Table Key Value) (key : Key)
    (change : Key → Value → Value) :
    (mapValues table change).lookup key = (table.lookup key).map (change key) := by
  simp only [mapValues, AList.lookup]
  induction table.entries with
  | nil => simp
  | cons row rest ih =>
      obtain ⟨name, value⟩ := row
      rw [List.map_cons]
      by_cases hname : key = name
      · subst hname
        simp
      · rw [List.dlookup_cons_ne _ ⟨name, _⟩ hname,
          List.dlookup_cons_ne _ ⟨name, _⟩ hname]
        exact ih

def order (table : Table Key Value) : List Key :=
  table.keys.reverse

omit [DecidableEq Key] in
theorem mem_order {table : Table Key Value} {key : Key} :
    key ∈ order table ↔ key ∈ table := by
  rw [order, List.mem_reverse, ← AList.mem_keys]

omit [DecidableEq Key] in
theorem nodup_order (table : Table Key Value) : (order table).Nodup :=
  List.nodup_reverse.mpr table.keys_nodup

theorem keys_insert_of_notMem {table : Table Key Value} {key : Key} (value : Value)
    (hfresh : key ∉ table) : (table.insert key value).keys = key :: table.keys := by
  rw [AList.insert_of_notMem hfresh]
  rfl

theorem order_insert {table : Table Key Value} {key : Key} (value : Value)
    (hfresh : key ∉ table) : order (table.insert key value) = order table ++ [key] := by
  rw [order, keys_insert_of_notMem value hfresh, List.reverse_cons]
  rfl

theorem order_erase (table : Table Key Value) (key : Key) :
    order (table.erase key) = (order table).erase key := by
  rw [order, AList.keys_erase, table.keys_nodup.erase_eq_filter,
    (nodup_order table).erase_eq_filter, order, List.filter_reverse]

end Table

end BbtFramework.Library
