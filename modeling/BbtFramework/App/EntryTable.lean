import BbtFramework.App.Registry
import BbtFramework.Library.IndexedRows
import BbtFramework.Library.Machine
import Mathlib.Data.List.InsertIdx

/-!
# The table behind the registry

`detail::Registry` keeps its entries in a deque, in the order of their creation,
and a hash table from ids to positions.  Ids are texts with a running number;
generations have a counter of their own.  Failures go to a bounded ring.
-/

namespace BbtFramework.App

open BbtFramework.Library

def kindPrefix : ObjectKind → String
  | .app => "app"
  | .service => "service"
  | .actor => "actor"
  | .component => "component"

/-- The text of an id, `kind:number`. -/
def idText (kind : ObjectKind) (number : Nat) : String :=
  kindPrefix kind ++ ":" ++ toString number

/-- What creating, finding and destroying read and write of an entry; the object is an
address. -/
structure DequeEntry where
  id : String
  generation : Nat
  kind : ObjectKind
  typeName : String
  name : String
  scope : ComponentScope
  ownerId : String
  state : ObjectState
  revision : Nat
  object : Option Nat
  objectType : String
  deriving DecidableEq, Repr

/-- An observer registered for one object, as far as a state change looks at it. -/
structure ObserverRow where
  token : Nat
  targetId : String
  targetGeneration : Nat
  active : Bool
  deriving DecidableEq, Repr

/-- An event for one observer shows the entry after the change. -/
structure ObjectStateEvent where
  token : Nat
  entry : DequeEntry
  deriving DecidableEq, Repr

structure EntryTable (Failure : Type) where
  entries : List DequeEntry
  index : Table String Nat
  observers : List ObserverRow
  nextGeneration : Nat
  nextIdSeq : Nat
  maxObjects : Nat
  failures : List Failure
  failuresDropped : Nat

/-- What the caller of `CreateEntryLocked` says about the new entry. -/
structure EntrySpec where
  kind : ObjectKind
  typeName : String
  name : String
  scope : ComponentScope
  ownerId : String
  objectType : String
  object : Option Nat
  deriving DecidableEq, Repr

/-- A creation is refused, leaves through an exception, or ends with the position of the
entry. -/
inductive Creation where
  | refused (reason : Error)
  | threw
  | made (position : Nat)

namespace EntryTable

variable {Failure : Type} (table : EntryTable Failure)

def newEntry (spec : EntrySpec) : DequeEntry where
  id := idText spec.kind table.nextIdSeq
  generation := table.nextGeneration
  kind := spec.kind
  typeName := spec.typeName
  name := spec.name
  scope := spec.scope
  ownerId := spec.ownerId
  state := .created
  revision := 0
  object := spec.object
  objectType := spec.objectType

/-- `indexThrows` says whether there is no memory left for the entry of the index; the id and
the generation are used up all the same. -/
def createEntryLocked [Infra] (spec : EntrySpec) (indexThrows : Bool) :
    Creation × EntryTable Failure :=
  if table.maxObjects ≤ table.entries.length then
    (.refused (makeError .overloaded "registry: object limit reached"), table)
  else
    let entry := table.newEntry spec
    let counted :=
      { table with
        nextIdSeq := table.nextIdSeq + 1
        nextGeneration := table.nextGeneration + 1 }
    if indexThrows then (.threw, counted)
    else
      (.made table.entries.length,
        { counted with
          entries := table.entries ++ [entry]
          index := Table.emplace table.index entry.id table.entries.length })

def findEntryLocked (id : String) : Option DequeEntry :=
  (table.index.lookup id).bind fun position => table.entries[position]?

/-- `SetStateLocked`: the entry after the change and the events for its observers. -/
def setStateLocked (entry : DequeEntry) (state : ObjectState) :
    List ObjectStateEvent × DequeEntry :=
  let changed := { entry with state := state, revision := entry.revision + 1 }
  let seen := table.observers.filter fun row =>
    row.active && row.targetId == changed.id && row.targetGeneration == changed.generation
  (seen.map fun row => ⟨row.token, changed⟩, changed)

/-- The entry is given by its position; there is no such call for a position behind the last
entry. -/
def finishDestroyLocked (position : Nat) :
    Option ((Option Nat × List ObjectStateEvent) × EntryTable Failure) :=
  match table.entries[position]? with
  | none => none
  | some entry =>
      let (events, entry) := table.setStateLocked entry .destroyed
      let entries := table.entries.set position entry
      let object := (entries.find? fun row => row.id == entry.id).bind DequeEntry.object
      let entries := entries.eraseP fun row => row.id == entry.id
      some ((object, events),
        { table with
          entries := entries
          index := IndexedRows.reindex DequeEntry.id entries })

def recordFailure (failure : Failure) : EntryTable Failure :=
  if table.maxObjects ≤ table.failures.length then
    { table with
      failures := table.failures.tail ++ [failure]
      failuresDropped := table.failuresDropped + 1 }
  else { table with failures := table.failures ++ [failure] }

end EntryTable

/-- The table with the id and the generation of every entry created so far, and every failure
recorded so far. -/
structure TableWorld (Failure : Type) where
  table : EntryTable Failure
  created : List (String × Nat)
  recorded : List Failure

inductive TableStep (Failure : Type) where
  | create (spec : EntrySpec) (indexThrows : Bool)
  | finishDestroy (position : Nat)
  | modify (position : Nat) (change : DequeEntry → DequeEntry)
  | observe (observers : List ObserverRow)
  | takeGeneration
  | recordFailure (failure : Failure)

section

variable {Failure : Type}

/-- The row a creation adds to the record. -/
def createdRow (outcome : Creation × EntryTable Failure) : List (String × Nat) :=
  match outcome.1 with
  | .made position =>
      (outcome.2.entries[position]?.map fun entry => (entry.id, entry.generation)).toList
  | _ => []

/-- Entries are created and destroyed; in between any operation may change an entry, all but
its id and its generation, register observers and take a generation for an edge. -/
def tableMachine [Infra] (Failure : Type) : Machine (TableWorld Failure) (TableStep Failure) where
  init world := ∃ maxObjects, 0 < maxObjects ∧
    world =
      { table :=
          { entries := [], index := ∅, observers := [], nextGeneration := 1, nextIdSeq := 0
            maxObjects := maxObjects, failures := [], failuresDropped := 0 }
        created := []
        recorded := [] }
  next world
    | .create spec indexThrows =>
        let outcome := world.table.createEntryLocked spec indexThrows
        some { world with table := outcome.2, created := world.created ++ createdRow outcome }
    | .finishDestroy position =>
        (world.table.finishDestroyLocked position).map fun outcome =>
          { world with table := outcome.2 }
    | .modify position change =>
        some { world with table := { world.table with
          entries := world.table.entries.modify position fun entry =>
            { change entry with id := entry.id, generation := entry.generation } } }
    | .observe observers => some { world with table := { world.table with observers := observers } }
    | .takeGeneration =>
        some { world with table := { world.table with
          nextGeneration := world.table.nextGeneration + 1 } }
    | .recordFailure failure =>
        some { world with
          table := world.table.recordFailure failure
          recorded := world.recorded ++ [failure] }

end

theorem colon_notMem_kindPrefix (kind : ObjectKind) : ':' ∉ (kindPrefix kind).toList := by
  cases kind <;> decide

theorem idText_toList (kind : ObjectKind) (number : Nat) :
    (idText kind number).toList = (kindPrefix kind).toList ++ ':' :: Nat.toDigits 10 number := by
  simp [idText, String.toList_append]

theorem colon_notMem_toDigits (number : Nat) : ':' ∉ Nat.toDigits 10 number := by
  intro hmem
  have hdigit := Nat.isDigit_of_mem_toDigits (by decide) (by decide) hmem
  revert hdigit
  decide

theorem kindPrefix_injective {kind other : ObjectKind}
    (hkinds : (kindPrefix kind).toList = (kindPrefix other).toList) : kind = other := by
  have htext := String.toList_inj.mp hkinds
  revert htext
  cases kind <;> cases other <;> decide

/-- Ids tell kinds and numbers apart. -/
theorem idText_injective {kind other : ObjectKind} {number later : Nat}
    (htext : idText kind number = idText other later) : kind = other ∧ number = later := by
  have hlist := congrArg String.toList htext
  rw [idText_toList, idText_toList] at hlist
  obtain ⟨hkinds, -, hdigits⟩ := (List.append_cons_inj_of_notMem
    (colon_notMem_kindPrefix kind) (colon_notMem_toDigits number)).mp hlist
  have hnumber := congrArg (fun digits => Nat.ofDigitChars 10 digits 0) hdigits
  exact ⟨kindPrefix_injective hkinds, by simpa using hnumber⟩

section

variable [Infra] {Failure : Type}

/-- A creation appends one new entry at most. -/
inductive Creates (table : EntryTable Failure) (spec : EntrySpec) :
    Creation × EntryTable Failure → Prop where
  | refused (reason : Error) (hfull : table.maxObjects ≤ table.entries.length) :
      Creates table spec (.refused reason, table)
  | threw : Creates table spec
      (.threw, { table with
        nextIdSeq := table.nextIdSeq + 1, nextGeneration := table.nextGeneration + 1 })
  | made (hroom : table.entries.length < table.maxObjects) : Creates table spec
      (.made table.entries.length, { table with
        nextIdSeq := table.nextIdSeq + 1
        nextGeneration := table.nextGeneration + 1
        entries := table.entries ++ [table.newEntry spec]
        index := Table.emplace table.index (idText spec.kind table.nextIdSeq)
          table.entries.length })

theorem createEntryLocked_creates (table : EntryTable Failure) (spec : EntrySpec)
    (indexThrows : Bool) :
    Creates table spec (table.createEntryLocked spec indexThrows) := by
  unfold EntryTable.createEntryLocked
  split
  case isTrue hfull => exact .refused _ hfull
  case isFalse hroom =>
    cases indexThrows with
    | true => exact .threw
    | false => exact .made (by omega)

omit [Infra] in
/-- With distinct ids, the entry taken out is the given one. -/
theorem finishDestroyLocked_eq {table : EntryTable Failure}
    (hindex : IndexedRows.IndexOf DequeEntry.id table.index table.entries) {position : Nat}
    {entry : DequeEntry} (hentry : table.entries[position]? = some entry) :
    ∃ events, table.finishDestroyLocked position =
      some ((entry.object, events), { table with
        entries := table.entries.eraseIdx position
        index := IndexedRows.reindex DequeEntry.id (table.entries.eraseIdx position) }) := by
  have hlt : position < table.entries.length := (List.getElem?_eq_some_iff.mp hentry).1
  have hbefore : ∀ row ∈ table.entries.take position, ¬(row.id == entry.id) = true := by
    intro row hrow heq
    obtain ⟨earlier, hearlier⟩ := List.getElem?_of_mem hrow
    have hbound : earlier < position := by
      have hlength := (List.getElem?_eq_some_iff.mp hearlier).1
      rw [List.length_take] at hlength
      omega
    rw [List.getElem?_take_of_lt hbound] at hearlier
    exact Nat.ne_of_lt hbound (hindex.position_eq hearlier hentry (beq_iff_eq.mp heq))
  let destroyed := { entry with state := .destroyed, revision := entry.revision + 1 }
  have hset : table.entries.set position destroyed =
      table.entries.take position ++ destroyed :: table.entries.drop (position + 1) := by
    rw [List.set_eq_take_append_cons_drop, if_pos hlt]
  have hmatch : (destroyed.id == entry.id) = true := beq_self_eq_true entry.id
  have hfind : (table.entries.set position destroyed).find? (fun row => row.id == entry.id) =
      some destroyed := by
    rw [hset, List.find?_append, List.find?_eq_none.mpr hbefore, Option.none_or,
      List.find?_cons_of_pos (p := fun row : DequeEntry => row.id == entry.id) hmatch]
  have herase : (table.entries.set position destroyed).eraseP (fun row => row.id == entry.id) =
      table.entries.eraseIdx position := by
    rw [hset, List.eraseP_append_right _ hbefore,
      List.eraseP_cons_of_pos (p := fun row : DequeEntry => row.id == entry.id) hmatch,
      List.eraseIdx_eq_take_drop_succ]
  refine ⟨(table.setStateLocked entry .destroyed).1, ?_⟩
  unfold EntryTable.finishDestroyLocked
  rw [hentry]
  change some ((((table.entries.set position destroyed).find? _).bind _, _), _) = _
  change _ = some ((destroyed.object, _), _)
  rw [← herase]
  exact congrArg (fun found : Option DequeEntry =>
    some ((found.bind DequeEntry.object, (table.setStateLocked entry .destroyed).1), _)) hfind

/-! ## Any history keeps the table -/

/-- The index leads to the entries, ids and generations are used once, and the ring holds the
latest failures. -/
structure TableKept (world : TableWorld Failure) : Prop where
  index : IndexedRows.IndexOf DequeEntry.id world.table.index world.table.entries
  recorded : ∀ entry ∈ world.table.entries, (entry.id, entry.generation) ∈ world.created
  numbered : ∀ row ∈ world.created, ∃ kind number, row.1 = idText kind number ∧
    number < world.table.nextIdSeq
  ids : (world.created.map Prod.fst).Nodup
  aged : ∀ row ∈ world.created, row.2 < world.table.nextGeneration
  generations : (world.created.map Prod.snd).Nodup
  bounded : world.table.entries.length ≤ world.table.maxObjects
  positive : 0 < world.table.maxObjects
  ring : world.table.failures = BoundedRing.latest world.table.maxObjects world.recorded

omit [Infra] in
theorem TableKept.fresh {world : TableWorld Failure} (hkept : TableKept world) (kind : ObjectKind) :
    idText kind world.table.nextIdSeq ∉ world.created.map Prod.fst := by
  intro hmem
  obtain ⟨row, hrow, hid⟩ := List.mem_map.mp hmem
  obtain ⟨other, number, htext, hlt⟩ := hkept.numbered row hrow
  rw [htext] at hid
  exact Nat.ne_of_lt hlt (idText_injective hid).2

omit [Infra] in
/-- Counters may run ahead. -/
theorem TableKept.count {world : TableWorld Failure} (hkept : TableKept world) (ids generations : Nat) :
    TableKept { world with table := { world.table with
      nextIdSeq := world.table.nextIdSeq + ids
      nextGeneration := world.table.nextGeneration + generations } } :=
  { hkept with
    numbered := fun row hrow => by
      obtain ⟨kind, number, htext, hlt⟩ := hkept.numbered row hrow
      exact ⟨kind, number, htext, Nat.lt_add_right ids hlt⟩
    aged := fun row hrow => Nat.lt_add_right generations (hkept.aged row hrow) }

omit [Infra] in
theorem TableKept.create {world : TableWorld Failure} (hkept : TableKept world) (spec : EntrySpec)
    (hroom : world.table.entries.length < world.table.maxObjects) :
    TableKept
      { world with
        table := { world.table with
          nextIdSeq := world.table.nextIdSeq + 1
          nextGeneration := world.table.nextGeneration + 1
          entries := world.table.entries ++ [world.table.newEntry spec]
          index := Table.emplace world.table.index (idText spec.kind world.table.nextIdSeq)
            world.table.entries.length }
        created := world.created ++
          [(idText spec.kind world.table.nextIdSeq, world.table.nextGeneration)] } := by
  have hfresh := hkept.fresh spec.kind
  have hlive : (world.table.newEntry spec).id ∉ world.table.entries.map DequeEntry.id := by
    intro hmem
    obtain ⟨entry, hentry, hid⟩ := List.mem_map.mp hmem
    refine hfresh ?_
    change (world.table.newEntry spec).id ∈ _
    rw [← hid]
    exact List.mem_map.mpr ⟨_, hkept.recorded entry hentry, rfl⟩
  exact
    { index := hkept.index.push hlive
      recorded := fun entry hentry => by
        rcases List.mem_append.mp hentry with hold | hnew
        · exact List.mem_append_left _ (hkept.recorded entry hold)
        · rw [List.mem_singleton.mp hnew]
          exact List.mem_append_right _ (List.mem_singleton_self _)
      numbered := fun row hrow => by
        rcases List.mem_append.mp hrow with hold | hnew
        · obtain ⟨kind, number, htext, hlt⟩ := hkept.numbered row hold
          exact ⟨kind, number, htext, Nat.lt_succ_of_lt hlt⟩
        · rw [List.mem_singleton.mp hnew]
          exact ⟨spec.kind, world.table.nextIdSeq, rfl, Nat.lt_succ_self _⟩
      ids := by
        rw [List.map_append, List.map_singleton, ← List.concat_eq_append]
        exact List.Nodup.concat hfresh hkept.ids
      aged := fun row hrow => by
        rcases List.mem_append.mp hrow with hold | hnew
        · exact Nat.lt_succ_of_lt (hkept.aged row hold)
        · rw [List.mem_singleton.mp hnew]
          exact Nat.lt_succ_self _
      generations := by
        rw [List.map_append, List.map_singleton, ← List.concat_eq_append]
        refine List.Nodup.concat (fun hmem => ?_) hkept.generations
        obtain ⟨row, hrow, hgeneration⟩ := List.mem_map.mp hmem
        exact Nat.ne_of_lt (hkept.aged row hrow) hgeneration
      bounded := by
        change (world.table.entries ++ [_]).length ≤ _
        rw [List.length_append, List.length_singleton]
        exact hroom
      positive := hkept.positive
      ring := hkept.ring }

omit [Infra] in
theorem TableKept.destroy {world : TableWorld Failure} (hkept : TableKept world) (position : Nat) :
    TableKept { world with table := { world.table with
      entries := world.table.entries.eraseIdx position
      index := IndexedRows.reindex DequeEntry.id (world.table.entries.eraseIdx position) } } := by
  have hsublist := List.eraseIdx_sublist world.table.entries position
  refine { hkept with index := ?_, recorded := ?_, bounded := ?_ }
  · exact IndexedRows.indexOf_reindex (hkept.index.nodup.sublist (hsublist.map _))
  · exact fun entry hentry => hkept.recorded entry (hsublist.subset hentry)
  · exact hsublist.length_le.trans hkept.bounded

omit [Infra] in
/-- A change that leaves ids and generations alone. -/
theorem TableKept.modify {world : TableWorld Failure} (hkept : TableKept world) (position : Nat)
    (change : DequeEntry → DequeEntry)
    (hsame : ∀ entry, (change entry).id = entry.id ∧
      (change entry).generation = entry.generation) :
    TableKept { world with table := { world.table with
      entries := world.table.entries.modify position change } } := by
  have hkeys : (world.table.entries.modify position change).map
      (fun entry => (entry.id, entry.generation)) =
      world.table.entries.map fun entry => (entry.id, entry.generation) := by
    refine List.ext_getElem? fun at' => ?_
    rw [List.getElem?_map, List.getElem?_map, List.getElem?_modify]
    cases world.table.entries[at']? with
    | none => rfl
    | some entry =>
        by_cases hat : position = at'
        · simp [hat, (hsame entry).1, (hsame entry).2]
        · simp [hat]
  refine { hkept with index := ?_, recorded := ?_, bounded := ?_ }
  · refine hkept.index.of_keys_eq ?_
    have hids := congrArg (List.map Prod.fst) hkeys
    rwa [List.map_map, List.map_map] at hids
  · intro entry hentry
    have hmem : (entry.id, entry.generation) ∈
        world.table.entries.map fun entry => (entry.id, entry.generation) := by
      rw [← hkeys]
      exact List.mem_map_of_mem hentry
    obtain ⟨old, hold, heq⟩ := List.mem_map.mp hmem
    rw [← heq]
    exact hkept.recorded old hold
  · rw [List.length_modify]
    exact hkept.bounded

omit [Infra] in
theorem recordFailure_eq (table : EntryTable Failure) (failure : Failure) :
    ∃ dropped, table.recordFailure failure = { table with
      failures := BoundedRing.push table.maxObjects table.failures failure
      failuresDropped := dropped } := by
  unfold EntryTable.recordFailure BoundedRing.push
  split
  · exact ⟨table.failuresDropped + 1, rfl⟩
  · exact ⟨table.failuresDropped, rfl⟩

omit [Infra] in
theorem TableKept.record {world : TableWorld Failure} (hkept : TableKept world) (failure : Failure) :
    TableKept { world with
      table := world.table.recordFailure failure
      recorded := world.recorded ++ [failure] } := by
  obtain ⟨dropped, hrecord⟩ := recordFailure_eq world.table failure
  rw [hrecord, hkept.ring, BoundedRing.push_latest hkept.positive]
  exact { hkept with ring := rfl }

theorem reachable_kept {world : TableWorld Failure}
    (hreach : (tableMachine Failure).Reachable world) : TableKept world := by
  refine Machine.ReachableWhere.induct ?_ ?_ hreach
  · rintro world ⟨maxObjects, hpositive, rfl⟩
    exact
      { index := .empty
        recorded := nofun
        numbered := nofun
        ids := List.nodup_nil
        aged := nofun
        generations := List.nodup_nil
        bounded := Nat.zero_le _
        positive := hpositive
        ring := List.drop_nil.symm }
  · intro world label next _ hkept _ hnext
    cases label with
    | create spec indexThrows =>
        have hcreates := createEntryLocked_creates world.table spec indexThrows
        simp only [tableMachine] at hnext
        generalize world.table.createEntryLocked spec indexThrows = outcome at hnext hcreates
        cases hnext
        cases hcreates with
        | refused reason =>
            rw [createdRow, List.append_nil]
            exact hkept
        | threw =>
            rw [createdRow, List.append_nil]
            exact hkept.count 1 1
        | made hroom =>
            simp only [createdRow, List.getElem?_append_right (Nat.le_refl _), Nat.sub_self]
            exact hkept.create spec hroom
    | finishDestroy position =>
        simp only [tableMachine] at hnext
        cases hentry : world.table.entries[position]? with
        | none =>
            rw [EntryTable.finishDestroyLocked, hentry] at hnext
            cases hnext
        | some entry =>
            obtain ⟨events, hdestroy⟩ := finishDestroyLocked_eq hkept.index hentry
            rw [hdestroy] at hnext
            cases hnext
            exact hkept.destroy position
    | modify position change =>
        cases hnext
        exact hkept.modify position _ fun _ => ⟨rfl, rfl⟩
    | observe observers =>
        cases hnext
        exact { hkept with }
    | takeGeneration =>
        cases hnext
        exact hkept.count 0 1
    | recordFailure failure =>
        cases hnext
        exact hkept.record failure

/-- In every state of every run: the index, the ids, the generations, the limit, what a
destruction takes out, and the ring. -/
theorem table_kept {world : TableWorld Failure} (hreach : (tableMachine Failure).Reachable world) :
    (∀ id position, world.table.index.lookup id = some position ↔
      ∃ entry, world.table.entries[position]? = some entry ∧ entry.id = id) ∧
    (world.created.map Prod.fst).Nodup ∧ (world.created.map Prod.snd).Nodup ∧
    (∀ entry ∈ world.table.entries, (entry.id, entry.generation) ∈ world.created) ∧
    world.table.entries.length ≤ world.table.maxObjects ∧
    (∀ position entry, world.table.entries[position]? = some entry →
      ∃ events after, world.table.finishDestroyLocked position =
          some ((entry.object, events), after) ∧
        after.entries = world.table.entries.eraseIdx position) ∧
    world.table.failures = BoundedRing.latest world.table.maxObjects world.recorded ∧
    world.table.failures.length = min world.recorded.length world.table.maxObjects := by
  have hkept := reachable_kept hreach
  refine ⟨hkept.index, hkept.ids, hkept.generations, hkept.recorded, hkept.bounded,
    fun position entry hentry => ?_, hkept.ring, ?_⟩
  · obtain ⟨events, hdestroy⟩ := finishDestroyLocked_eq hkept.index hentry
    exact ⟨events, _, hdestroy, rfl⟩
  · rw [hkept.ring, BoundedRing.length_latest]

end

/-- The middle one of three entries goes, and a failure is pushed out of a ring of three. -/
theorem table_kept_middle :
    letI := permissiveInfra
    ∃ world : TableWorld String, (tableMachine String).Reachable world ∧
      world.table.entries.map DequeEntry.id = ["app:0", "component:2"] ∧
      world.table.index.lookup "component:2" = some 1 ∧
      world.table.failures = ["b", "c", "d"] := by
  let _ := permissiveInfra
  let spec (kind : ObjectKind) : EntrySpec :=
    { kind := kind, typeName := "", name := "", scope := .app, ownerId := "", objectType := ""
      object := none }
  have hstart : (tableMachine String).Reachable
      { table :=
          { entries := [], index := ∅, observers := [], nextGeneration := 1, nextIdSeq := 0
            maxObjects := 3, failures := [], failuresDropped := 0 }
        created := []
        recorded := [] } := .start ⟨3, by decide, rfl⟩
  obtain ⟨world, hreach, htest⟩ := hstart.exec_any (fun _ _ => true) (fun _ _ _ => trivial)
    [.create (spec .app) false, .create (spec .service) false, .create (spec .component) false,
      .finishDestroy 1, .recordFailure "a", .recordFailure "b", .recordFailure "c",
      .recordFailure "d"]
    (fun world => decide (world.table.entries.map DequeEntry.id = ["app:0", "component:2"] ∧
      world.table.maxObjects = 3 ∧ world.recorded = ["a", "b", "c", "d"])) (by decide)
  obtain ⟨hids, hlimit, hrecorded⟩ := of_decide_eq_true htest
  obtain ⟨hindex, -, -, -, -, -, hring, -⟩ := table_kept hreach
  refine ⟨world, hreach, hids, (hindex _ _).mpr ?_, ?_⟩
  · have hsecond := congrArg (fun ids => ids[1]?) hids
    rw [List.getElem?_map] at hsecond
    exact Option.map_eq_some_iff.mp hsecond
  · rw [hring, hlimit, hrecorded]
    rfl

/-! ## The table behind the registry of the model -/

def ObjectId.text (id : ObjectId) : String := idText id.kind id.number

section

variable {Failure : Type}

/-- The deque lists the ids of the registry, oldest first, and the counters are the same. -/
structure Represents (table : EntryTable Failure) (registry : Registry) : Prop where
  ids : table.entries.map DequeEntry.id = registry.listIdsLocked.map ObjectId.text
  nextIdSeq : table.nextIdSeq = registry.nextIdSeq
  nextGeneration : table.nextGeneration = registry.nextGeneration
  maxObjects : table.maxObjects = registry.maxObjects

theorem ObjectId.text_injective : Function.Injective ObjectId.text := by
  intro id other htext
  obtain ⟨hkind, hnumber⟩ := idText_injective htext
  cases id
  cases other
  cases hkind
  cases hnumber
  rfl

/-- A new entry comes last on both sides. -/
theorem Represents.create {table : EntryTable Failure} {registry : Registry}
    (hrepresents : Represents table registry) (spec : EntrySpec)
    (entry : Nat → RegistryEntry) :
    Represents
      { table with
        nextIdSeq := table.nextIdSeq + 1
        nextGeneration := table.nextGeneration + 1
        entries := table.entries ++ [table.newEntry spec]
        index := Table.emplace table.index (idText spec.kind table.nextIdSeq)
          table.entries.length }
      (registry.append spec.kind entry) where
  ids := by
    have hfresh : (⟨spec.kind, registry.nextIdSeq⟩ : ObjectId) ∉ registry.entries :=
      fun hmem => Nat.lt_irrefl _ (registry.ids_lt _ hmem)
    have hlist : (registry.append spec.kind entry).listIdsLocked =
        registry.listIdsLocked ++ [⟨spec.kind, registry.nextIdSeq⟩] :=
      Table.order_insert _ hfresh
    rw [hlist, List.map_append, List.map_append, hrepresents.ids]
    simp only [List.map_singleton, EntryTable.newEntry, hrepresents.nextIdSeq, ObjectId.text]
  nextIdSeq := congrArg (· + 1) hrepresents.nextIdSeq
  nextGeneration := congrArg (· + 1) hrepresents.nextGeneration
  maxObjects := hrepresents.maxObjects

/-- The same entry goes on both sides. -/
theorem Represents.destroy {table : EntryTable Failure} {registry : Registry}
    (hrepresents : Represents table registry) {position : Nat} {id : ObjectId}
    (hposition : registry.listIdsLocked[position]? = some id) :
    Represents
      { table with
        entries := table.entries.eraseIdx position
        index := IndexedRows.reindex DequeEntry.id (table.entries.eraseIdx position) }
      (registry.remove id) where
  ids := by
    have hlist : (registry.remove id).listIdsLocked = registry.listIdsLocked.eraseIdx position := by
      obtain ⟨hlt, rfl⟩ := List.getElem?_eq_some_iff.mp hposition
      exact (Table.order_erase registry.entries _).trans
        ((Table.nodup_order registry.entries).erase_getElem position hlt)
    rw [hlist, ← List.eraseIdx_map, ← List.eraseIdx_map, hrepresents.ids]
  nextIdSeq := hrepresents.nextIdSeq
  nextGeneration := hrepresents.nextGeneration
  maxObjects := hrepresents.maxObjects

/-- Both find an entry under the same ids. -/
theorem Represents.find [Infra] {world : TableWorld Failure} {registry : Registry}
    (hreach : (tableMachine Failure).Reachable world)
    (hrepresents : Represents world.table registry) (id : ObjectId) :
    (world.table.findEntryLocked id.text).isSome = (registry.findEntryLocked id).isSome := by
  have hindex := (reachable_kept hreach).index
  have hfound : (world.table.findEntryLocked id.text).isSome = true ↔
      id.text ∈ world.table.entries.map DequeEntry.id := by
    rw [← hindex.mem_iff]
    constructor
    · intro hsome
      obtain ⟨entry, hfind⟩ := Option.isSome_iff_exists.mp hsome
      obtain ⟨position, hlookup, -⟩ := Option.bind_eq_some_iff.mp hfind
      exact Table.mem_of_lookup hlookup
    · intro hmem
      obtain ⟨position, hlookup⟩ := Table.exists_lookup_of_mem hmem
      obtain ⟨entry, hentry, -⟩ := (hindex _ _).mp hlookup
      rw [EntryTable.findEntryLocked, hlookup, Option.bind_some, hentry]
      rfl
  rw [Bool.eq_iff_iff, hfound, hrepresents.ids, List.mem_map_of_injective ObjectId.text_injective,
    Registry.listIdsLocked, Table.mem_order]
  exact AList.lookup_isSome.symm

end

end BbtFramework.App
