import BbtFramework.Library.Table

/-!
# Stacks by key

A table of non-empty stacks.  An entry is pushed on the stack of its key and may
be taken out at any depth; a stack that becomes empty leaves the table.  Such a
table says for every key which entries are there and in which order they came.
-/

namespace BbtFramework.Library

universe u v

abbrev KeyedStacks (Key : Type u) (Entry : Type v) := Table Key (List Entry)

namespace KeyedStacks

variable {Key : Type u} {Entry : Type v} [DecidableEq Key]

def push (table : KeyedStacks Key Entry) (key : Key) (entry : Entry) :
    KeyedStacks Key Entry :=
  table.insert key ((table.lookup key).getD [] ++ [entry])

/-- The stack without its topmost entry that satisfies `chosen`. -/
def eraseTopmost (chosen : Entry → Bool) (stack : List Entry) : List Entry :=
  (stack.reverse.eraseP chosen).reverse

def remove (table : KeyedStacks Key Entry) (key : Key) (chosen : Entry → Bool) :
    KeyedStacks Key Entry :=
  match table.lookup key with
  | none => table
  | some stack =>
      let rest := eraseTopmost chosen stack
      if rest.isEmpty then table.erase key else table.insert key rest

def top (table : KeyedStacks Key Entry) (key : Key) : Option Entry :=
  (table.lookup key).bind List.getLast?

def entriesOf (rows : List (Key × Entry)) (key : Key) : List Entry :=
  rows.filterMap fun row => if row.1 = key then some row.2 else none

def Holds (table : KeyedStacks Key Entry) (rows : List (Key × Entry)) : Prop :=
  ∀ key, table.lookup key =
    if entriesOf rows key = [] then none else some (entriesOf rows key)

theorem entriesOf_append (first later : List (Key × Entry)) (key : Key) :
    entriesOf (first ++ later) key = entriesOf first key ++ entriesOf later key :=
  List.filterMap_append

theorem entriesOf_cons (row : Key × Entry) (rows : List (Key × Entry)) (key : Key) :
    entriesOf (row :: rows) key =
      (if row.1 = key then [row.2] else []) ++ entriesOf rows key := by
  unfold entriesOf
  rw [List.filterMap_cons]
  split
  case h_1 hnone =>
    by_cases hkey : row.1 = key
    · rw [if_pos hkey] at hnone
      cases hnone
    · rw [if_neg hkey, List.nil_append]
  case h_2 entry hsome =>
    by_cases hkey : row.1 = key
    · rw [if_pos hkey] at hsome ⊢
      cases hsome
      rfl
    · rw [if_neg hkey] at hsome
      cases hsome

theorem mem_entriesOf {rows : List (Key × Entry)} {key : Key} {entry : Entry}
    (hmem : entry ∈ entriesOf rows key) : (key, entry) ∈ rows := by
  obtain ⟨row, hrow, hsome⟩ := List.mem_filterMap.mp hmem
  split at hsome
  case isTrue hkey =>
    cases hsome
    rw [← hkey]
    exact hrow
  case isFalse => cases hsome

theorem Holds.empty : Holds (∅ : KeyedStacks Key Entry) [] :=
  fun _ => rfl

theorem Holds.eq_empty {table : KeyedStacks Key Entry} (hholds : Holds table []) :
    table = ∅ := by
  have hkeys : table.keys = [] := by
    refine List.eq_nil_iff_forall_not_mem.mpr fun key hkey => ?_
    have hsome := AList.lookup_isSome.mpr (AList.mem_keys.mpr hkey)
    rw [hholds key] at hsome
    cases hsome
  exact AList.ext (List.map_eq_nil_iff.mp hkeys)

theorem Holds.top {table : KeyedStacks Key Entry} {rows : List (Key × Entry)}
    (hholds : Holds table rows) (key : Key) :
    table.top key = (entriesOf rows key).getLast? := by
  rw [KeyedStacks.top, hholds key]
  by_cases hnone : entriesOf rows key = []
  · rw [if_pos hnone, hnone]
    rfl
  · rw [if_neg hnone]
    rfl

theorem Holds.lookup_getD {table : KeyedStacks Key Entry} {rows : List (Key × Entry)}
    (hholds : Holds table rows) (key : Key) :
    (table.lookup key).getD [] = entriesOf rows key := by
  rw [hholds key]
  by_cases hnone : entriesOf rows key = []
  · rw [if_pos hnone, hnone]
    rfl
  · rw [if_neg hnone]
    rfl

theorem Holds.push {table : KeyedStacks Key Entry} {rows : List (Key × Entry)}
    (hholds : Holds table rows) (key : Key) (entry : Entry) :
    Holds (table.push key entry) (rows ++ [(key, entry)]) := by
  intro other
  rw [KeyedStacks.push, Table.lookup_insert_eq, hholds.lookup_getD, entriesOf_append,
    entriesOf_cons]
  by_cases hkey : other = key
  · subst hkey
    simp [entriesOf]
  · have hnone : entriesOf ([] : List (Key × Entry)) other = [] := rfl
    rw [if_neg hkey, if_neg (Ne.symm hkey), hnone, List.append_nil, List.append_nil]
    exact hholds other

theorem eraseTopmost_append {chosen : Entry → Bool} {below above : List Entry}
    {entry : Entry} (hchosen : chosen entry = true) (habove : ∀ e ∈ above, ¬chosen e = true) :
    eraseTopmost chosen (below ++ entry :: above) = below ++ above := by
  have hreverse : ∀ e ∈ above.reverse, ¬chosen e = true := fun e he =>
    habove e (List.mem_reverse.mp he)
  unfold eraseTopmost
  rw [List.reverse_append, List.reverse_cons, List.append_assoc,
    List.eraseP_append_right _ hreverse, List.singleton_append,
    List.eraseP_cons_of_pos hchosen, List.reverse_append, List.reverse_reverse,
    List.reverse_reverse]

/-- One row goes, wherever it stands, when it is the only chosen one of its key. -/
theorem Holds.remove {table : KeyedStacks Key Entry} {before after : List (Key × Entry)}
    {key : Key} {entry : Entry} {chosen : Entry → Bool}
    (hholds : Holds table (before ++ (key, entry) :: after)) (hchosen : chosen entry = true)
    (hafter : ∀ row ∈ after, row.1 = key → ¬chosen row.2 = true) :
    Holds (table.remove key chosen) (before ++ after) := by
  have hentries : entriesOf (before ++ (key, entry) :: after) key =
      entriesOf before key ++ entry :: entriesOf after key := by
    rw [entriesOf_append, entriesOf_cons, if_pos rfl, List.singleton_append]
  have hlookup : table.lookup key =
      some (entriesOf before key ++ entry :: entriesOf after key) := by
    rw [hholds key, hentries]
    exact if_neg (by simp)
  have hrest : eraseTopmost chosen (entriesOf before key ++ entry :: entriesOf after key) =
      entriesOf (before ++ after) key := by
    rw [eraseTopmost_append hchosen fun e he => hafter _ (mem_entriesOf he) rfl,
      entriesOf_append]
  have hothers : ∀ other, other ≠ key →
      entriesOf (before ++ (key, entry) :: after) other = entriesOf (before ++ after) other := by
    intro other hother
    rw [entriesOf_append, entriesOf_cons, if_neg (Ne.symm hother), List.nil_append,
      entriesOf_append]
  intro other
  simp only [KeyedStacks.remove, hlookup, hrest, List.isEmpty_iff]
  by_cases hother : other = key
  · subst hother
    by_cases hempty : entriesOf (before ++ after) other = []
    · rw [if_pos hempty, if_pos hempty, AList.lookup_erase]
    · rw [if_neg hempty, if_neg hempty, AList.lookup_insert]
  · rw [← hothers other hother, ← hholds other]
    split
    · exact AList.lookup_erase_ne hother
    · exact AList.lookup_insert_ne hother

end KeyedStacks

end BbtFramework.Library
