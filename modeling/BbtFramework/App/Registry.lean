import BbtFramework.Error
import BbtFramework.Library.DepthFirst
import BbtFramework.Library.Table

/-!
# The object registry

The data of `detail::Registry` and its operations, each one critical section
under `m_mtx`.  An entry is kept under its id, whose number is never used again;
`entries` carries the proof that ids are distinct and `ids_lt` that they are
older than the next one.
-/

namespace BbtFramework.App

open BbtFramework.Library

inductive ObjectKind where
  | app
  | service
  | actor
  | component
  deriving DecidableEq, Repr

inductive ObjectState where
  | created
  | installing
  | installed
  | starting
  | running
  | paused
  | stopping
  | stopped
  | installFailed
  | failed
  | stopIncomplete
  | uninstalling
  | uninstallIncomplete
  | destroyed
  | invalidated
  | unknown
  deriving DecidableEq, Repr

inductive ComponentScope where
  | app
  | service
  | actor
  deriving DecidableEq, Repr

/-- The id string `kind:number`; `NextIdLocked` takes the prefix from the kind
of the entry, so an entry has no kind of its own here. -/
structure ObjectId where
  kind : ObjectKind
  number : Nat
  deriving DecidableEq, Repr

/-- A handle; `owned` tells whether it belongs to this registry. -/
structure ObjectHandle where
  owned : Bool
  id : ObjectId
  generation : Nat
  deriving DecidableEq, Repr

structure Binding where
  subjectId : ObjectId
  generation : Nat
  active : Bool
  retiring : Bool
  borrows : Nat
  deriving DecidableEq, Repr

/-- A row of the component table in `detail::ObjectBase`. -/
structure BoundComponent where
  type : String
  name : String
  object : ObjectHandle
  bindingGeneration : Nat
  deriving DecidableEq, Repr

/-- What the control plane reads and writes of an object: the component types a
service declares and the table of bound components. -/
structure ObjectBase where
  allowed : List String
  boundComponents : List BoundComponent
  deriving DecidableEq, Repr

structure RegistryEntry where
  generation : Nat
  typeName : String
  name : String
  scope : ComponentScope
  ownerId : Option ObjectId
  state : ObjectState
  object : Option ObjectBase
  bindings : List Binding
  componentBorrows : Nat
  hooksInFlight : Nat
  opInProgress : Bool
  gateClosed : Bool
  destroyPhase : String
  deriving DecidableEq, Repr

/-- The entry `CreateEntryLocked` makes with the next generation. -/
def RegistryEntry.created (typeName name : String) (scope : ComponentScope)
    (ownerId : Option ObjectId) (state : ObjectState) (object : Option ObjectBase)
    (generation : Nat) : RegistryEntry where
  generation := generation
  typeName := typeName
  name := name
  scope := scope
  ownerId := ownerId
  state := state
  object := object
  bindings := []
  componentBorrows := 0
  hooksInFlight := 0
  opInProgress := false
  gateClosed := false
  destroyPhase := ""

/-- A lease counts one borrow through one edge until it is released. -/
structure BindingLease where
  componentId : ObjectId
  subjectId : ObjectId
  bindingGeneration : Nat
  deriving DecidableEq, Repr

structure CleanupInfo where
  objectId : ObjectId
  generation : Nat
  phase : String
  pendingBorrows : Nat
  pendingTasks : Nat
  deriving DecidableEq, Repr

structure Registry where
  entries : Table ObjectId RegistryEntry
  nextIdSeq : Nat
  nextGeneration : Nat
  maxObjects : Nat
  maxBindings : Nat
  ids_lt : ∀ id ∈ entries, id.number < nextIdSeq

namespace ObjectBase

def bindComponentEntry (base : ObjectBase) (type name : String)
    (object : ObjectHandle) (generation : Nat) : ObjectBase :=
  if base.boundComponents.any (fun row => row.type = type ∧ row.name = name) then
    { base with
      boundComponents := base.boundComponents.map (fun row =>
        if row.type = type ∧ row.name = name then
          { row with object := object, bindingGeneration := generation }
        else row) }
  else
    { base with
      boundComponents := base.boundComponents ++ [⟨type, name, object, generation⟩] }

def unbindComponentEntry (base : ObjectBase) (type name : String) : ObjectBase :=
  { base with
    boundComponents := base.boundComponents.eraseP
      (fun row => row.type = type ∧ row.name = name) }

def invalidateComponentEntries (base : ObjectBase) : ObjectBase :=
  { base with boundComponents := [] }

end ObjectBase

namespace Registry

variable (registry : Registry)

def findEntryLocked (id : ObjectId) : Option RegistryEntry :=
  registry.entries.lookup id

def listIdsLocked : List ObjectId :=
  Table.order registry.entries

def listIdsByKindLocked (kind : ObjectKind) : List ObjectId :=
  registry.listIdsLocked.filter (fun id => id.kind = kind)

/-- The ids of a kind whose entries satisfy `test`, oldest first. -/
def listWhere (kind : ObjectKind) (test : RegistryEntry → Bool) : List ObjectId :=
  (registry.listIdsByKindLocked kind).filter
    (fun id => (registry.findEntryLocked id).any test)

def listIdsInStateLocked (kind : ObjectKind) (state : ObjectState) :
    List ObjectId :=
  registry.listWhere kind (fun entry => entry.state = state)

def findComponentLocked (scope : ComponentScope) (ownerId : Option ObjectId)
    (type name : String) : Option ObjectId :=
  (registry.listWhere .component (fun entry =>
    entry.scope = scope ∧ (scope = .app ∨ entry.ownerId = ownerId) ∧
      entry.typeName = type ∧ entry.name = name)).head?

def findByTypeNameLocked (kind : ObjectKind) (typeName : String) :
    Option ObjectId :=
  (registry.listWhere kind (fun entry => entry.typeName = typeName)).head?

def countObjectsLocked : Nat :=
  registry.listIdsLocked.length

def countBindingsLocked : Nat :=
  ((registry.entries.entries).map (fun row => row.2.bindings.length)).sum

def makeHandle (id : ObjectId) (entry : RegistryEntry) : ObjectHandle :=
  ⟨true, id, entry.generation⟩

def modifyAll (change : ObjectId → RegistryEntry → RegistryEntry) : Registry where
  entries := Table.mapValues registry.entries change
  nextIdSeq := registry.nextIdSeq
  nextGeneration := registry.nextGeneration
  maxObjects := registry.maxObjects
  maxBindings := registry.maxBindings
  ids_lt := fun other hmem => registry.ids_lt other (Table.mem_mapValues.mp hmem)

def modify (id : ObjectId) (change : RegistryEntry → RegistryEntry) : Registry :=
  registry.modifyAll (fun other entry => if other = id then change entry else entry)

/-- The row `CreateEntryLocked` appends, with the next id and generation. -/
def append (kind : ObjectKind) (entry : Nat → RegistryEntry) : Registry where
  entries := registry.entries.insert ⟨kind, registry.nextIdSeq⟩
    (entry registry.nextGeneration)
  nextIdSeq := registry.nextIdSeq + 1
  nextGeneration := registry.nextGeneration + 1
  maxObjects := registry.maxObjects
  maxBindings := registry.maxBindings
  ids_lt := by
    intro id hmem
    rcases (AList.mem_insert registry.entries).mp hmem with rfl | hmem
    · exact Nat.lt_succ_self _
    · exact Nat.lt_succ_of_lt (registry.ids_lt id hmem)

/-- Take one entry out of the table. -/
def remove (id : ObjectId) : Registry where
  entries := registry.entries.erase id
  nextIdSeq := registry.nextIdSeq
  nextGeneration := registry.nextGeneration
  maxObjects := registry.maxObjects
  maxBindings := registry.maxBindings
  ids_lt := fun other hmem => registry.ids_lt other (AList.mem_erase.mp hmem).2

/-- The next binding generation is used up. -/
def bumpGeneration : Registry :=
  { registry with nextGeneration := registry.nextGeneration + 1 }

section

variable [Infra]

/-- `CreateEntryLocked` and the `SetStateLocked` that follows it in the same
critical section. -/
def createEntryLocked (kind : ObjectKind) (typeName name : String)
    (scope : ComponentScope) (ownerId : Option ObjectId) (state : ObjectState)
    (object : Option ObjectBase) : Except Error (ObjectId × Registry) :=
  if registry.maxObjects ≤ registry.countObjectsLocked then
    .error (makeError .overloaded "registry: object limit reached")
  else
    .ok (⟨kind, registry.nextIdSeq⟩,
      registry.append kind (.created typeName name scope ownerId state object))

end

def setStateLocked (id : ObjectId) (state : ObjectState) : Registry :=
  registry.modify id (fun entry => { entry with state := state })

/-- `BeginOpLocked`: refused while an operation is in progress. -/
def beginOpLocked (entry : RegistryEntry) : Option RegistryEntry :=
  if entry.opInProgress then none else some { entry with opInProgress := true }

/-- States in which a subject accepts no new binding. -/
def closing : ObjectState → Bool
  | .stopping | .stopped | .uninstalling | .destroyed | .invalidated
  | .stopIncomplete | .uninstallIncomplete => true
  | _ => false

section

variable [Infra]

/-- `BindLocked` for a target that is a component. -/
def bindLocked (component : RegistryEntry) (subject : RegistryEntry)
    (subjectId : ObjectId) : Except Error Binding :=
  if component.gateClosed then
    .error (makeError .closed "BindComponent: component gate closed")
  else if subject.gateClosed ∨ subject.opInProgress ∨ closing subject.state then
    .error (makeError .closed "BindComponent: subject is closing")
  else if registry.maxBindings ≤ registry.countBindingsLocked then
    .error (makeError .overloaded "BindComponent: binding limit reached")
  else if component.bindings.any
      (fun edge => edge.subjectId = subjectId ∧ ¬edge.retiring) then
    .error (makeError .invalidArgument "BindComponent: duplicate binding")
  else
    .ok
      { subjectId := subjectId
        generation := registry.nextGeneration
        active := true
        retiring := false
        borrows := 0 }

end

def openEdge (subjectId : ObjectId) (edges : List Binding) : Option Binding :=
  edges.find? (fun edge => edge.subjectId = subjectId ∧ ¬edge.retiring)

/-- Seal the edge `BeginUnbindLocked` finds. -/
def sealEdge (subjectId : ObjectId) : List Binding → List Binding
  | [] => []
  | edge :: rest =>
      if edge.subjectId = subjectId ∧ ¬edge.retiring then
        { edge with active := false, retiring := true } :: rest
      else edge :: sealEdge subjectId rest

section

variable [Infra]

/-- `BeginUnbindLocked`: the sealed edge's generation and the entry. -/
def beginUnbindLocked (component : RegistryEntry) (subjectId : ObjectId) :
    Except Error (Nat × RegistryEntry) :=
  match openEdge subjectId component.bindings with
  | some edge =>
      .ok (edge.generation,
        { component with bindings := sealEdge subjectId component.bindings })
  | none => .error (makeError .notFound "UnbindComponent: binding not found")

end

def findRetiringBindingLocked (component : RegistryEntry) (subjectId : ObjectId) :
    Option Nat :=
  (component.bindings.find? (fun edge =>
    edge.subjectId = subjectId ∧ edge.retiring)).map Binding.generation

def eraseBindingLocked (component : RegistryEntry) (subjectId : ObjectId)
    (generation : Nat) : RegistryEntry :=
  { component with
    bindings := component.bindings.eraseP (fun edge =>
      edge.subjectId = subjectId ∧ edge.generation = generation ∧ edge.retiring) }

def eraseSubjectBindingsLocked (component : RegistryEntry)
    (subjectId : ObjectId) : RegistryEntry :=
  { component with
    bindings := component.bindings.filter (fun edge =>
      ¬(edge.subjectId = subjectId ∧ edge.retiring)) }

def modifyEdge (subjectId : ObjectId) (generation : Nat)
    (change : Binding → Binding) : List Binding → List Binding
  | [] => []
  | edge :: rest =>
      if edge.subjectId = subjectId ∧ edge.generation = generation then
        change edge :: rest
      else edge :: modifyEdge subjectId generation change rest

def releaseBorrow (lease : BindingLease) : Registry :=
  registry.modify lease.componentId (fun entry =>
    { entry with
      componentBorrows := entry.componentBorrows - 1
      bindings := modifyEdge lease.subjectId lease.bindingGeneration
        (fun edge => { edge with borrows := edge.borrows - 1 }) entry.bindings })

section

variable [Infra]

def stateRefusal (state : ObjectState) : Error :=
  makeError
    (match state with
      | .installing | .starting | .paused | .created | .installed => .overloaded
      | _ => .closed)
    "Borrow: component not borrowable in current state"

def acquireBorrowLocked (component : RegistryEntry) (componentId subjectId : ObjectId)
    (generation : Nat) (allowInstallingBorrow : Bool) :
    Except Error (BindingLease × Registry) :=
  if component.gateClosed then
    .error (makeError .closed "Borrow: component gate closed")
  else
    let installingBorrow := allowInstallingBorrow ||
      (registry.findEntryLocked subjectId).any
        (fun subject => subject.state = .installing)
    if component.state = .running ∨
        (installingBorrow ∧ component.state = .installed) then
      match component.bindings.find? (fun edge =>
        edge.subjectId = subjectId ∧ edge.generation = generation) with
      | none => .error (makeError .closed "Borrow: binding invalidated")
      | some edge =>
          if ¬edge.active ∨ edge.retiring then
            .error (makeError .closed "Borrow: binding invalidated")
          else
            .ok (⟨componentId, subjectId, generation⟩,
              registry.modify componentId (fun entry =>
                { entry with
                  componentBorrows := entry.componentBorrows + 1
                  bindings := modifyEdge subjectId generation
                    (fun edge => { edge with borrows := edge.borrows + 1 })
                    entry.bindings }))
    else .error (stateRefusal component.state)

/-- `BorrowImpl`: the subject is the one recorded in the edge of the
generation the handle carries. -/
def borrowImpl (object : ObjectHandle) (bindingGeneration : Nat)
    (allowInstallingBorrow : Bool) : Except Error (BindingLease × Registry) :=
  match registry.findEntryLocked object.id with
  | none => .error (makeError .closed "Borrow: object destroyed")
  | some entry =>
      if entry.generation ≠ object.generation then
        .error (makeError .closed "Borrow: generation stale")
      else
        match entry.bindings.find?
          (fun edge => edge.generation = bindingGeneration) with
        | none => .error (makeError .closed "Borrow: binding invalidated")
        | some edge =>
            registry.acquireBorrowLocked entry object.id edge.subjectId
              bindingGeneration allowInstallingBorrow

end

/-- The predicate of `WaitBorrowsDrained`. -/
def borrowsDrained (componentId : ObjectId) : Bool :=
  match registry.findEntryLocked componentId with
  | none => true
  | some entry => entry.componentBorrows = 0

/-- The predicate of `WaitBindingDrained`. -/
def bindingDrained (componentId subjectId : ObjectId) (generation : Nat) : Bool :=
  match registry.findEntryLocked componentId with
  | none => true
  | some entry =>
      match entry.bindings.find? (fun edge =>
        edge.subjectId = subjectId ∧ edge.generation = generation) with
      | none => true
      | some edge => edge.borrows = 0

/-- `NoteHookSettled`, its critical section; the flag tells whether the count
has reached zero. -/
def noteHookSettled (id : ObjectId) : Bool × Registry :=
  let after := registry.modify id (fun entry =>
    { entry with hooksInFlight := entry.hooksInFlight - 1 })
  ((after.findEntryLocked id).any (fun entry => entry.hooksInFlight = 0), after)

/-- What `WaitHooksSettledCo` tests. -/
def hooksSettled (id : ObjectId) : Bool :=
  match registry.findEntryLocked id with
  | none => true
  | some entry => entry.hooksInFlight = 0

/-- The components that `id` depends on: those with an edge whose subject it
is, once for each such edge. -/
def dependencies (id : ObjectId) : List ObjectId :=
  (registry.listIdsByKindLocked .component).flatMap (fun target =>
    match registry.findEntryLocked target with
    | none => []
    | some entry =>
        (entry.bindings.filter (fun edge => edge.subjectId = id)).map
          (fun _ => target))

/-- The search marks an id when it comes to it and lists it when it has been
through its dependencies; a marked id that is not listed is on the stack.  The
flag of the result is `had_cycle`. -/
def componentStartOrderLocked : Search ObjectId :=
  postOrder registry.dependencies (registry.listIdsByKindLocked .component)

/-- `_WouldFormCycleLocked`: the search follows the dependencies of the target. -/
def wouldFormCycleLocked (subjectId targetId : ObjectId) : Bool :=
  if subjectId = targetId then true
  else
    (reach registry.dependencies subjectId
      ((registry.listIdsByKindLocked .component).length + 1) targetId ([], false)).2

section

variable [Infra]

/-- `BeginDestroyLocked` of the entry found under `id`. -/
def beginDestroyLocked (id : ObjectId) : Except Error RegistryEntry :=
  match registry.findEntryLocked id with
  | none => .error (makeError .notFound "BeginDestroy: object not found")
  | some entry =>
      if id.kind = .component ∧ entry.bindings ≠ [] then
        .error (makeError .overloaded "UninstallComponent: active bindings remain")
      else if entry.opInProgress then
        .error (makeError .overloaded "BeginDestroy: operation in progress")
      else .ok { entry with gateClosed := true, opInProgress := true }

end

/-- `FinishDestroyLocked`; an entry that is gone is left alone. -/
def finishDestroyLocked (id : ObjectId) : Registry :=
  registry.remove id

def pendingCleanup : List CleanupInfo :=
  registry.listIdsLocked.filterMap (fun id =>
    (registry.findEntryLocked id).bind (fun entry =>
      if 0 < entry.componentBorrows ∨ 0 < entry.hooksInFlight ∨
          entry.destroyPhase ≠ "" ∨ entry.state = .stopIncomplete ∨
          entry.state = .uninstallIncomplete then
        some
          { objectId := id
            generation := entry.generation
            phase := entry.destroyPhase
            pendingBorrows := entry.componentBorrows
            pendingTasks := entry.hooksInFlight }
      else none))

/-! ## Lookups after a change -/

theorem findEntryLocked_modifyAll (id : ObjectId)
    (change : ObjectId → RegistryEntry → RegistryEntry) :
    (registry.modifyAll change).findEntryLocked id =
      (registry.findEntryLocked id).map (change id) :=
  Table.lookup_mapValues registry.entries id change

theorem findEntryLocked_modify (id other : ObjectId)
    (change : RegistryEntry → RegistryEntry) :
    (registry.modify id change).findEntryLocked other =
      if other = id then (registry.findEntryLocked id).map change
      else registry.findEntryLocked other := by
  rw [modify, findEntryLocked_modifyAll]
  split
  case isTrue heq => rw [heq]
  case isFalse => exact Option.map_id'

theorem findEntryLocked_append (kind : ObjectKind) (entry : Nat → RegistryEntry)
    (other : ObjectId) :
    (registry.append kind entry).findEntryLocked other =
      if other = ⟨kind, registry.nextIdSeq⟩ then some (entry registry.nextGeneration)
      else registry.findEntryLocked other :=
  Table.lookup_insert_eq registry.entries _ other _

theorem findEntryLocked_remove (id other : ObjectId) :
    (registry.remove id).findEntryLocked other =
      if other = id then none else registry.findEntryLocked other :=
  Table.lookup_erase_eq registry.entries id other

theorem number_lt_of_find {registry : Registry} {id : ObjectId}
    {entry : RegistryEntry} (hfind : registry.findEntryLocked id = some entry) :
    id.number < registry.nextIdSeq :=
  registry.ids_lt id (Table.mem_of_lookup hfind)

theorem findEntryLocked_next (kind : ObjectKind) :
    registry.findEntryLocked ⟨kind, registry.nextIdSeq⟩ = none := by
  cases hfind : registry.findEntryLocked ⟨kind, registry.nextIdSeq⟩ with
  | none => rfl
  | some entry => exact absurd (number_lt_of_find hfind) (Nat.lt_irrefl _)

theorem mem_listWhere {registry : Registry} {kind : ObjectKind}
    {test : RegistryEntry → Bool} {id : ObjectId} :
    id ∈ registry.listWhere kind test ↔
      id.kind = kind ∧ ∃ entry, registry.findEntryLocked id = some entry ∧
        test entry = true := by
  rw [listWhere, listIdsByKindLocked, List.mem_filter, List.mem_filter,
    Option.any_eq_true, decide_eq_true_iff]
  constructor
  · rintro ⟨⟨-, hkind⟩, hentry⟩
    exact ⟨hkind, hentry⟩
  · rintro ⟨hkind, entry, hfind, htest⟩
    exact ⟨⟨Table.mem_order.mpr (Table.mem_of_lookup hfind), hkind⟩,
      entry, hfind, htest⟩

/-- What `FindComponentLocked` returns is a registered component. -/
theorem findComponentLocked_some {registry : Registry} {scope : ComponentScope}
    {ownerId : Option ObjectId} {type name : String} {id : ObjectId}
    (hfind : registry.findComponentLocked scope ownerId type name = some id) :
    id.kind = .component ∧ ∃ entry, registry.findEntryLocked id = some entry := by
  obtain ⟨hkind, entry, hentry, -⟩ := mem_listWhere.mp (List.mem_of_head? hfind)
  exact ⟨hkind, entry, hentry⟩

/-- And it has the type and the name it was asked for. -/
theorem findComponentLocked_key {registry : Registry} {scope : ComponentScope}
    {ownerId : Option ObjectId} {type name : String} {id : ObjectId} {entry : RegistryEntry}
    (hfound : registry.findComponentLocked scope ownerId type name = some id)
    (hfind : registry.findEntryLocked id = some entry) :
    entry.typeName = type ∧ entry.name = name := by
  obtain ⟨-, other, hother, htest⟩ := mem_listWhere.mp (List.mem_of_head? hfound)
  obtain rfl := Option.some.inj (hfind.symm.trans hother)
  exact (of_decide_eq_true htest).2.2

theorem findComponentLocked_placed {registry : Registry} {scope : ComponentScope}
    {ownerId : Option ObjectId} {type name : String} {id : ObjectId} {entry : RegistryEntry}
    (hfound : registry.findComponentLocked scope ownerId type name = some id)
    (hfind : registry.findEntryLocked id = some entry) :
    entry.scope = scope ∧ (scope = .app ∨ entry.ownerId = ownerId) := by
  obtain ⟨-, other, hother, htest⟩ := mem_listWhere.mp (List.mem_of_head? hfound)
  obtain rfl := Option.some.inj (hfind.symm.trans hother)
  obtain ⟨hscope, howner, -⟩ := of_decide_eq_true htest
  exact ⟨hscope, howner⟩

theorem findByTypeNameLocked_some {registry : Registry} {kind : ObjectKind}
    {typeName : String} {id : ObjectId}
    (hfind : registry.findByTypeNameLocked kind typeName = some id) :
    id.kind = kind ∧ ∃ entry, registry.findEntryLocked id = some entry := by
  obtain ⟨hkind, entry, hentry, -⟩ := mem_listWhere.mp (List.mem_of_head? hfind)
  exact ⟨hkind, entry, hentry⟩

end Registry

end BbtFramework.App
