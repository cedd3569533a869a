import BbtFramework.App.Registry
import BbtFramework.Coroutine
import Mathlib.Logic.Function.Basic

/-!
# The control plane of `v2::CoApp`

The state the operations of one application share, and the actions they are
made of.  An action is one critical section under the registry mutex, one
access to an atomic, one scheduler call, or the end of a wait; between two of
them every other operation, hook task and borrower may act.
-/

namespace BbtFramework.App

open BbtFramework.Library

inductive AppState where
  | created
  | starting
  | running
  | paused
  | stopping
  | stopIncomplete
  | stopped
  deriving DecidableEq, Repr

inductive Hook where
  | onInstall
  | onStart
  | onPause
  | onResume
  | onStop
  | onUninstall
  | onDestroy
  deriving DecidableEq, Repr

/-- How the body of a hook ends. -/
inductive HookOutcome where
  | returned (result : Except Error Unit)
  | threw (what : String)
  | threwOther
  deriving DecidableEq

/-- Where a hook task stands.  `noted` carries whether `NoteHookSettled` has
taken the waiter it must notify; a task the scheduler refuses is `rejected`
until its caller has called `NoteHookSettled` for it, and then `dropped`. -/
inductive TaskPhase where
  | taken
  | submitted
  | rejected
  | dropped
  | executing
  | ended (result : Except Error Unit)
  | noted (notify : Bool) (result : Except Error Unit)
  | notified (result : Except Error Unit)
  | settled (result : Except Error Unit)
  deriving DecidableEq

/-- A hook handed to the scheduler, with its `CoHookSlot`. -/
structure HookTask where
  object : ObjectId
  hook : Hook
  phase : TaskPhase
  deriving DecidableEq

/-- The `hook_settled_waiter` of an entry; it outlives the entry for those who
already hold it. -/
structure SettleWaiter where
  created : Bool
  waiting : Bool
  notified : Bool
  deriving DecidableEq, Repr

structure AppWorld where
  state : AppState
  lifecycleActive : Bool
  options : Except Error Unit
  registry : Registry
  tasks : List HookTask
  waiters : ObjectId → SettleWaiter
  leases : List BindingLease
  /-- A null object was dereferenced; nothing happens afterwards. -/
  crashed : Bool

/-- `ComponentOptions`. -/
structure ComponentOptions where
  scope : ComponentScope
  owner : Option ObjectHandle
  deriving DecidableEq, Repr

/-- The way an operation names a component. -/
structure ComponentKey where
  type : String
  name : String
  scope : ComponentScope
  ownerId : Option ObjectId
  deriving DecidableEq, Repr

/-- The answer of `RegistCoroutineTask`. -/
inductive Submission where
  | accepted
  | rejected
  | threw (what : String)
  | threwOther
  deriving DecidableEq, Repr

/-! ## Actions -/

/-- The actions that only read. -/
inductive Query where
  | loadState
  | validateOptions
  | validateOwner (placement : ComponentOptions)
  /-- `MakeCoObject`; the text is the message prefix of a failure. -/
  | construct (operation : String)
  | findService (id : ObjectId)
  | findActor (id : ObjectId)
  | enterHook (id : ObjectId) (hook : Hook)
  | leaveHook
  | awaitSlot (task : Nat)
  | borrowsDrained (component : ObjectId)
  | awaitBorrows (component : ObjectId)
  | bindingDrained (component subject : ObjectId) (generation : Nat)
  | awaitBinding (component subject : ObjectId) (generation : Nat)
  | hookInFlight (id : ObjectId)
  | retiringEdges (subject : ObjectId)
  | startLists
  | listServices (state : ObjectState)
  | stopLists
  | pendingCleanup

/-- The actions that write. -/
inductive Command where
  | storeState (state : AppState)
  | exchangeLifecycle
  | releaseLifecycle
  | createComponent (key : ComponentKey)
  | createService (name : String) (allowed : List String)
  | createActorType (type : String)
  | setState (id : ObjectId) (state : ObjectState)
  | checkSettled (id : ObjectId) (hook : Hook)
  | registerSettled (id : ObjectId)
  | recheckSettled (id : ObjectId)
  | awaitSettled (id : ObjectId)
  | takeHook (id : ObjectId) (hook : Hook)
  | submitHook (task : Nat)
  | noteRejected (task : Nat)
  | notifyRejected (task : Nat)
  | beginStopService (id : ObjectId)
  | beginStopComponent (id : ObjectId)
  | beginUninstallComponent (key : ComponentKey)
  | beginUninstallService (name : String)
  | beginUninstallActorType (type : String)
  | sealSubjectEdges (subject : ObjectId)
  | eraseSubjectEdges (subject : ObjectId)
  | eraseSubjectEdgesOn (subject : ObjectId) (components : List ObjectId)
  | finishDestroy (id : ObjectId)
  | abortDestroy (id : ObjectId) (phase : String) (incomplete : ObjectState)
  | bindComponent (subject : ObjectHandle) (key : ComponentKey)
  | recordBinding (subject : ObjectId) (type name : String) (object : ObjectHandle)
      (generation : Nat)
  | beginUnbind (subject : ObjectId) (key : ComponentKey)
  | finishUnbind (component subject : ObjectId) (generation : Nat)
      (type name : String)

inductive Action where
  | query (query : Query)
  | command (command : Command)

/-- A component and the generation of one of its edges. -/
abbrev EdgeName := ObjectId × Nat

/-- The lists `_StopAll` works through, in its order. -/
structure StopLists where
  services : List ObjectId
  actors : List ObjectId
  scopedComponents : List ObjectId
  appComponents : List ObjectId
  deriving DecidableEq, Repr

def Query.Answer : Query → Type
  | .loadState => AppState
  | .validateOptions => Except Error Unit
  | .validateOwner _ => Except Error (Option ObjectId)
  | .construct _ => Except Error Unit
  | .findService _ => Option ObjectBase
  | .findActor _ => Bool
  | .enterHook _ _ => Bool
  | .leaveHook => Except Error Unit
  | .awaitSlot _ => Except Error Unit
  | .borrowsDrained _ => Bool
  | .awaitBorrows _ => Except Error Unit
  | .bindingDrained _ _ _ => Bool
  | .awaitBinding _ _ _ => Except Error Unit
  | .hookInFlight _ => Bool
  | .retiringEdges _ => List EdgeName
  | .startLists => List ObjectId × List ObjectId
  | .listServices _ => List ObjectId
  | .stopLists => StopLists
  | .pendingCleanup => List CleanupInfo

def Command.Answer : Command → Type
  | .storeState _ => Unit
  | .exchangeLifecycle => Bool
  | .releaseLifecycle => Unit
  | .createComponent _ => Except Error ObjectId
  | .createService _ _ => Except Error ObjectHandle
  | .createActorType _ => Except Error Unit
  | .setState _ _ => Unit
  | .checkSettled _ _ => Bool
  | .registerSettled _ => Bool
  | .recheckSettled _ => Unit
  | .awaitSettled _ => Except Error Unit
  | .takeHook _ _ => Option Nat
  | .submitHook _ => Submission
  | .noteRejected _ => Bool
  | .notifyRejected _ => Unit
  | .beginStopService _ => Bool
  | .beginStopComponent _ => Bool
  | .beginUninstallComponent _ => Except Error ObjectId
  | .beginUninstallService _ => Except Error ObjectId
  | .beginUninstallActorType _ => Except Error ObjectId
  | .sealSubjectEdges _ => List EdgeName
  | .eraseSubjectEdges _ => Unit
  | .eraseSubjectEdgesOn _ _ => Unit
  | .finishDestroy _ => Unit
  | .abortDestroy _ _ _ => Unit
  | .bindComponent _ _ => Except Error (ObjectHandle × Nat)
  | .recordBinding _ _ _ _ _ => Unit
  | .beginUnbind _ _ => Except Error EdgeName
  | .finishUnbind _ _ _ _ _ => Unit

def Action.Answer : Action → Type
  | .query read => read.Answer
  | .command write => write.Answer

/-- What the environment decides in an action: how a constructor or a hook
ends, what the scheduler answers, and how a wait ends. -/
inductive Choice where
  | proceed
  | wait (status : WaitStatus)
  | hook (outcome : HookOutcome)
  | submission (submission : Submission)
  deriving DecidableEq

/-- What happens outside the operations: the steps of the hook tasks, borrows
and the release of leases. -/
inductive Event where
  | beginHook (task : Nat)
  | endHook (task : Nat) (outcome : HookOutcome)
  | noteHook (task : Nat)
  | notifyHook (task : Nat)
  | settleHook (task : Nat)
  | borrow (object : ObjectHandle) (bindingGeneration : Nat)
      (allowInstallingBorrow : Bool)
  | release (lease : BindingLease)

/-! ## The meaning of the reading actions -/

namespace AppWorld

variable (world : AppWorld)

section

variable [Infra]

/-- `RunHookCaught`. -/
def runHookCaught : HookOutcome → Except Error Unit
  | .returned result => result
  | .threw what =>
      .error { makeError .internalError ("hook threw: " ++ what) with
        domain := "framework" }
  | .threwOther =>
      .error { makeError .internalError "hook threw (non-std)" with
        domain := "framework" }

/-- `_ValidateOwner`. -/
def validateOwner (placement : ComponentOptions) :
    Except Error (Option ObjectId) :=
  match placement.scope, placement.owner with
  | .app, some _ =>
      .error (makeError .invalidArgument
        "ComponentOptions: App scope does not allow an explicit owner")
  | .app, none => .ok none
  | _, none =>
      .error (makeError .invalidArgument
        "ComponentOptions: Service/Actor scope requires an explicit owner")
  | scope, some owner =>
      if ¬owner.owned then
        .error (makeError .invalidArgument
          "ComponentOptions: owner handle belongs to another Registry")
      else if ¬(world.registry.findEntryLocked owner.id).any
          (fun entry => entry.generation = owner.generation) then
        .error (makeError .notFound
          "ComponentOptions: owner is not registered or its generation changed")
      else if scope = .service ∧ owner.id.kind ≠ .service then
        .error (makeError .invalidArgument
          "ComponentOptions: Service scope owner must be a Service")
      else if scope = .actor ∧ owner.id.kind ≠ .actor then
        .error (makeError .invalidArgument
          "ComponentOptions: Actor scope owner must be an Actor")
      else .ok (some owner.id)

/-- The error of a drain wait that ends without `Completed`. -/
def borrowWaitError : WaitStatus → Error
  | .timedOut => makeError .timedOut "borrow wait did not complete"
  | .cancelled => makeError .cancelled "borrow wait did not complete"
  | _ => makeError .runtimeUnavailable "borrow wait did not complete"

/-- A wait of `_WaitBorrows`: it returns once the predicate holds, or with the
status of a wait that was not completed. -/
def awaitDrained (ready : Bool) : Choice → Option (Except Error Unit)
  | .proceed => if ready then some (.ok ()) else none
  | .wait status =>
      if status = .completed then none else some (.error (borrowWaitError status))
  | _ => none

/-- The error `FinishCoHookWait` makes of a wait that was not completed. -/
def slotWaitError : WaitStatus → Error
  | .timedOut => makeError .timedOut "lifecycle hook deadline exceeded"
  | .cancelled => makeError .cancelled "lifecycle hook wait cancelled"
  | .invalidContext =>
      makeError .invalidContext
        "lifecycle: CoWaiter must be awaited from a managed coroutine"
  | .alreadyWaiting _ =>
      makeError .overloaded "lifecycle: hook wait slot already occupied"
  | .runtimeUnavailable =>
      makeError .runtimeUnavailable
        "lifecycle: coroutine wait runtime unavailable"
  | _ => makeError .internalError "lifecycle: unknown wait status"

/-- The wait on a `CoHookSlot`, completed only after the slot was settled. -/
def awaitSlot (task : Nat) : Choice → Option (Except Error Unit)
  | .wait .completed =>
      match world.tasks[task]? with
      | some ⟨_, _, .settled result⟩ => some result
      | _ => none
  | .wait status => some (.error (slotWaitError status))
  | _ => none

def retiringEdges (subject : ObjectId) : List EdgeName :=
  (world.registry.listIdsByKindLocked .component).flatMap (fun id =>
    match world.registry.findEntryLocked id with
    | none => []
    | some entry =>
        (entry.bindings.filter (fun edge => edge.subjectId = subject ∧ edge.retiring)).map
          (fun edge => (id, edge.generation)))

/-- The lists of the critical section in `_StartImpl`. -/
def startLists : List ObjectId × List ObjectId :=
  (world.registry.componentStartOrderLocked.order.filter (fun id =>
      (world.registry.findEntryLocked id).any
        (fun entry => entry.state = .installed)),
    world.registry.listIdsInStateLocked .service .installed)

/-- The lists of the critical section in `_StopAll`. -/
def stopLists : StopLists :=
  let order := world.registry.componentStartOrderLocked.order.reverse
  let inScope := fun (appScope : Bool) => order.filter (fun id =>
    (world.registry.findEntryLocked id).any
      (fun entry => decide (entry.scope = .app) = appScope))
  { services := world.registry.listIdsByKindLocked .service
    actors := world.registry.listIdsByKindLocked .actor
    scopedComponents := inScope false
    appComponents := inScope true }

/-- The answer of a reading action, when it can be given. -/
def answer : (query : Query) → Choice → Option query.Answer
  | .loadState, _ => some world.state
  | .validateOptions, _ => some world.options
  | .validateOwner placement, _ => some (world.validateOwner placement)
  | .construct operation, choice =>
      match choice with
      | .hook (.threw what) =>
          some (.error (makeError .internalError
            (operation ++ ": ctor threw: " ++ what)))
      | .hook .threwOther =>
          some (.error (makeError .internalError
            (operation ++ ": ctor threw (non-std)")))
      | _ => some (.ok ())
  | .findService id, _ =>
      some ((world.registry.findEntryLocked id).bind RegistryEntry.object)
  | .findActor id, _ =>
      some (((world.registry.findEntryLocked id).bind RegistryEntry.object).isSome)
  | .enterHook id _, _ => some (world.registry.findEntryLocked id).isSome
  | .leaveHook, choice =>
      match choice with
      | .hook outcome => some (runHookCaught outcome)
      | _ => none
  | .awaitSlot task, choice => world.awaitSlot task choice
  | .borrowsDrained component, _ => some (world.registry.borrowsDrained component)
  | .awaitBorrows component, choice =>
      awaitDrained (world.registry.borrowsDrained component) choice
  | .bindingDrained component subject generation, _ =>
      some (world.registry.bindingDrained component subject generation)
  | .awaitBinding component subject generation, choice =>
      awaitDrained (world.registry.bindingDrained component subject generation) choice
  | .hookInFlight id, _ => some (!world.registry.hooksSettled id)
  | .retiringEdges subject, _ => some (world.retiringEdges subject)
  | .startLists, _ => some world.startLists
  | .listServices state, _ =>
      some (world.registry.listIdsInStateLocked .service state)
  | .stopLists, _ => some world.stopLists
  | .pendingCleanup, _ => some world.registry.pendingCleanup

end

/-! ## The meaning of the writing actions -/

section

variable [Infra]

/-- The critical section of `_InstallComponentImpl`. -/
def createComponent (key : ComponentKey) : Except Error ObjectId × AppWorld :=
  if (world.registry.findComponentLocked key.scope key.ownerId key.type
      key.name).isSome then
    (.error (makeError .invalidArgument
      ("InstallComponent: duplicate component '" ++ key.name ++ "'")), world)
  else
    match world.registry.createEntryLocked .component key.type key.name key.scope
      key.ownerId .installing (some ⟨[], []⟩) with
    | .error error => (.error error, world)
    | .ok (id, registry) => (.ok id, { world with registry := registry })

/-- The critical section of `_InstallServiceImpl`. -/
def createService (name : String) (allowed : List String) :
    Except Error ObjectHandle × AppWorld :=
  if (world.registry.findByTypeNameLocked .service name).isSome then
    (.error (makeError .invalidArgument
      ("InstallService: duplicate service '" ++ name ++ "'")), world)
  else
    match world.registry.createEntryLocked .service name name .app none .installing
      (some ⟨allowed, []⟩) with
    | .error error => (.error error, world)
    | .ok (id, registry) =>
        (.ok ⟨true, id, world.registry.nextGeneration⟩,
          { world with registry := registry })

/-- `_InstallActorTypeImpl` registers a type without an instance. -/
def createActorType (type : String) : Except Error Unit × AppWorld :=
  if (world.registry.findByTypeNameLocked .actor type).isSome then
    (.error (makeError .invalidArgument
      ("InstallActor: duplicate actor type '" ++ type ++ "'")), world)
  else
    match world.registry.createEntryLocked .actor type "" .app none .installed
      none with
    | .error error => (.error error, world)
    | .ok (_, registry) => (.ok (), { world with registry := registry })

def setWaiter (id : ObjectId) (change : SettleWaiter → SettleWaiter) : AppWorld :=
  { world with
    waiters := Function.update world.waiters id (change (world.waiters id)) }

/-- `Notify` on the waiter of an object; nobody is woken unless one waits. -/
def notifyWaiter (id : ObjectId) : AppWorld :=
  world.setWaiter id (fun waiter => { waiter with notified := waiter.waiting })

/-- The first critical section of `WaitHooksSettledCo`. -/
def checkSettled (id : ObjectId) : Bool × AppWorld :=
  if world.registry.hooksSettled id then (true, world)
  else (false, world.setWaiter id (fun waiter => { waiter with created := true }))

/-- The registration of `WaitWithCallback`; one coroutine at a time. -/
def registerSettled (id : ObjectId) : Bool × AppWorld :=
  if (world.waiters id).waiting then (false, world)
  else
    (true, world.setWaiter id
      (fun waiter => { waiter with waiting := true, notified := false }))

/-- The callback that looks again once the wait is registered. -/
def recheckSettled (id : ObjectId) : AppWorld :=
  if world.registry.hooksSettled id then world.notifyWaiter id else world

def settleWaitError : WaitStatus → Error
  | .timedOut =>
      makeError .timedOut "lifecycle: prior hook still in flight at deadline"
  | .cancelled => makeError .cancelled "lifecycle: hook-settle wait cancelled"
  | .invalidContext =>
      makeError .invalidContext
        "lifecycle: hook-settle wait requires a managed coroutine"
  | .alreadyWaiting _ =>
      makeError .overloaded
        "lifecycle: another coroutine is already waiting for this object’s hooks to settle"
  | .runtimeUnavailable =>
      makeError .runtimeUnavailable
        "lifecycle: coroutine wait runtime unavailable"
  | _ => makeError .internalError "lifecycle: unknown wait status"

/-- The end of a settle wait.  `Completed` needs a notification and nothing
else: the count of hooks in flight is not read again. -/
def awaitSettled (id : ObjectId) : Choice → Option (Except Error Unit × AppWorld)
  | .wait status =>
      let released := world.setWaiter id
        (fun waiter => { waiter with waiting := false, notified := false })
      if status = .completed then
        if (world.waiters id).notified then some (.ok (), released) else none
      else some (.error (settleWaitError status), released)
  | _ => none

/-- The critical section that counts a hook before it is submitted. -/
def takeHook (id : ObjectId) (hook : Hook) : Option Nat × AppWorld :=
  match world.registry.findEntryLocked id with
  | none => (none, world)
  | some _ =>
      (some world.tasks.length,
        { world with
          registry := world.registry.modify id (fun entry =>
            { entry with hooksInFlight := entry.hooksInFlight + 1 })
          tasks := world.tasks ++ [⟨id, hook, .taken⟩] })

def setPhase (index : Nat) (task : HookTask) (phase : TaskPhase) : AppWorld :=
  { world with tasks := world.tasks.set index { task with phase := phase } }

/-- `RegistCoroutineTask`. -/
def submitHook (index : Nat) : Choice → Option (Submission × AppWorld)
  | .submission submission =>
      match world.tasks[index]? with
      | some ⟨object, hook, .taken⟩ =>
          some (submission, world.setPhase index ⟨object, hook, .taken⟩
            (if submission = .accepted then .submitted else .rejected))
      | _ => none
  | _ => none

/-- `NoteHookSettled` for one task: the count falls, and the waiter is taken to
be notified when it has reached zero. -/
def noteHookSettled (index : Nat) (task : HookTask) (phase : Bool → TaskPhase) :
    Bool × AppWorld :=
  let noted := world.registry.noteHookSettled task.object
  let notify := noted.1 && (world.waiters task.object).created
  (notify, { world.setPhase index task (phase notify) with registry := noted.2 })

/-- Replace the entry of an id. -/
def store (id : ObjectId) (entry : RegistryEntry) : AppWorld :=
  { world with registry := world.registry.modify id (fun _ => entry) }

def modifyComponents (change : ObjectId → RegistryEntry → RegistryEntry) :
    AppWorld :=
  { world with
    registry := world.registry.modifyAll (fun id entry =>
      if id.kind = .component then change id entry else entry) }

/-- The first critical section of `_DestroyComponent`. -/
def beginStopComponent (id : ObjectId) : Bool × AppWorld :=
  match (world.registry.findEntryLocked id).bind Registry.beginOpLocked with
  | none => (false, world)
  | some entry =>
      (true, world.store id { entry with destroyPhase := "stop", state := .stopping })

/-- The first critical section of `_DestroyService`, which also seals the edges
of which the service is the subject. -/
def beginStopService (id : ObjectId) : Bool × AppWorld :=
  match (world.registry.findEntryLocked id).bind Registry.beginOpLocked with
  | none => (false, world)
  | some entry =>
      (true, (world.store id
        { entry with destroyPhase := "stop", state := .stopping }).modifyComponents
          (fun _ component =>
            { component with bindings := Registry.sealEdge id component.bindings }))

/-- The first critical section of the three uninstall operations, for the entry
found under `id`. -/
def beginUninstall (phase : String) (missing : String) :
    Option ObjectId → Except Error ObjectId × AppWorld
  | none => (.error (makeError .notFound missing), world)
  | some id =>
      match world.registry.beginDestroyLocked id with
      | .error error => (.error error, world)
      | .ok entry =>
          (.ok id, world.store id
            { entry with destroyPhase := phase, state := .uninstalling })

def beginUninstallComponent (key : ComponentKey) :
    Except Error ObjectId × AppWorld :=
  world.beginUninstall "uninstall" "UninstallComponent: not found"
    (world.registry.findComponentLocked key.scope key.ownerId key.type key.name)

def beginUninstallService (name : String) : Except Error ObjectId × AppWorld :=
  world.beginUninstall "uninstall" "UninstallService: not found"
    (world.registry.findByTypeNameLocked .service name)

/-- Unlike its siblings this one leaves `destroy_phase` empty, and it is refused
while instances of the type are registered. -/
def beginUninstallActorType (type : String) : Except Error ObjectId × AppWorld :=
  let found := world.registry.findByTypeNameLocked .actor type
  let instances := world.registry.listWhere .actor (fun entry =>
    entry.typeName = type ∧ entry.name ≠ "")
  if found.any (fun id => instances.any (fun other => other ≠ id)) then
    (.error (makeError .overloaded "UninstallActor: live actor instances remain"),
      world)
  else world.beginUninstall "" "UninstallActor: type not registered" found

/-- The edges `_UninstallServiceImpl` collects while it seals them: on each
component the one it has just sealed and those sealed before. -/
def edgesToDrain (subject : ObjectId) : List EdgeName :=
  (world.registry.listIdsByKindLocked .component).flatMap (fun id =>
    match world.registry.findEntryLocked id with
    | none => []
    | some entry =>
        ((Registry.openEdge subject entry.bindings).toList ++
          entry.bindings.filter (fun edge =>
            edge.subjectId = subject ∧ edge.retiring)).map
          (fun edge => (id, edge.generation)))

def sealSubjectEdges (subject : ObjectId) : List EdgeName × AppWorld :=
  (world.edgesToDrain subject,
    { world with
      registry := world.registry.modifyAll (fun id entry =>
        if id.kind = .component then
          { entry with bindings := Registry.sealEdge subject entry.bindings }
        else if id = subject then
          { entry with object := entry.object.map ObjectBase.invalidateComponentEntries }
        else entry) })

def eraseSubjectEdges (subject : ObjectId) : AppWorld :=
  world.modifyComponents (fun _ component =>
    Registry.eraseSubjectBindingsLocked component subject)

def eraseSubjectEdgesOn (subject : ObjectId) (components : List ObjectId) :
    AppWorld :=
  world.modifyComponents (fun id component =>
    if id ∈ components then Registry.eraseSubjectBindingsLocked component subject
    else component)

/-- The critical section of `_AbortDestroy`. -/
def abortDestroy (id : ObjectId) (phase : String) (incomplete : ObjectState) :
    AppWorld :=
  { world with
    registry := world.registry.modify id (fun entry =>
      { entry with
        destroyPhase := phase, opInProgress := false, state := incomplete }) }

/-- The component table of a subject is changed through its object pointer,
which is null for an actor type. -/
def changeSubject (subject : ObjectId) (change : ObjectBase → ObjectBase) :
    AppWorld :=
  match world.registry.findEntryLocked subject with
  | none => world
  | some entry =>
      if entry.object.isNone then { world with crashed := true }
      else
        { world with
          registry := world.registry.modify subject (fun entry =>
            { entry with object := entry.object.map change }) }

/-- The checks of `_BindComponentImpl` under the lock: the component, its entry
and the new edge. -/
def bindChecks (subject : ObjectHandle) (key : ComponentKey) :
    Except Error (ObjectId × RegistryEntry × Binding) :=
  match world.registry.findEntryLocked subject.id with
  | none => .error (makeError .notFound "BindComponent: subject stale")
  | some entry =>
      if entry.generation ≠ subject.generation then
        .error (makeError .notFound "BindComponent: subject stale")
      else if subject.id.kind = .app then
        .error (makeError .invalidArgument
          "BindComponent: subject cannot be an App handle")
      else if subject.id.kind = .service ∧
          ¬entry.object.any (fun base => key.type ∈ base.allowed) then
        .error (makeError .invalidArgument
          "BindComponent: component type is not declared in this Service’s allowed set")
      else
        match world.registry.findComponentLocked key.scope key.ownerId key.type
          key.name with
        | none => .error (makeError .notFound "BindComponent: component not found")
        | some id =>
            match world.registry.findEntryLocked id with
            | none => .error (makeError .notFound "BindComponent: component not found")
            | some component =>
                if subject.id.kind = .component ∧
                    world.registry.wouldFormCycleLocked subject.id id then
                  .error (makeError .invalidArgument
                    "BindComponent: dependency would form a cycle")
                else
                  match world.registry.bindLocked component entry subject.id with
                  | .error error => .error error
                  | .ok edge => .ok (id, component, edge)

def bindComponent (subject : ObjectHandle) (key : ComponentKey) :
    Except Error (ObjectHandle × Nat) × AppWorld :=
  match world.bindChecks subject key with
  | .error error => (.error error, world)
  | .ok (id, component, edge) =>
      let handle := Registry.makeHandle id component
      let bound : AppWorld := { world with
        registry := world.registry.bumpGeneration.modify id (fun entry =>
          { entry with bindings := entry.bindings ++ [edge] }) }
      (.ok (handle, edge.generation),
        bound.changeSubject subject.id (fun base =>
          base.bindComponentEntry key.type key.name handle edge.generation))

/-- The critical section in which `_UnbindComponentImpl` seals its edge, or
finds the one an earlier attempt has sealed. -/
def beginUnbind (subject : ObjectId) (key : ComponentKey) :
    Except Error EdgeName × AppWorld :=
  match world.registry.findComponentLocked key.scope key.ownerId key.type
    key.name with
  | none =>
      (.error (makeError .notFound "UnbindComponent: component not found"), world)
  | some id =>
      match world.registry.findEntryLocked id with
      | none =>
          (.error (makeError .notFound "UnbindComponent: component not found"), world)
      | some component =>
          match Registry.beginUnbindLocked component subject with
          | .ok (generation, sealed) => (.ok (id, generation), world.store id sealed)
          | .error error =>
              match Registry.findRetiringBindingLocked component subject with
              | some generation => (.ok (id, generation), world)
              | none => (.error error, world)

/-- The critical section that erases a drained edge. -/
def finishUnbind (component subject : ObjectId) (generation : Nat)
    (type name : String) : AppWorld :=
  let erased : AppWorld := { world with
    registry := world.registry.modify component (fun entry =>
      Registry.eraseBindingLocked entry subject generation) }
  erased.changeSubject subject (fun base => base.unbindComponentEntry type name)

def apply : (command : Command) → Choice → Option (command.Answer × AppWorld)
  | .storeState state, _ => some ((), { world with state := state })
  | .exchangeLifecycle, _ =>
      some (world.lifecycleActive, { world with lifecycleActive := true })
  | .releaseLifecycle, _ => some ((), { world with lifecycleActive := false })
  | .createComponent key, _ => some (world.createComponent key)
  | .createService name allowed, _ => some (world.createService name allowed)
  | .createActorType type, _ => some (world.createActorType type)
  | .setState id state, _ =>
      some ((), { world with registry := world.registry.setStateLocked id state })
  | .checkSettled id _, _ => some (world.checkSettled id)
  | .registerSettled id, _ => some (world.registerSettled id)
  | .recheckSettled id, _ => some ((), world.recheckSettled id)
  | .awaitSettled id, choice => world.awaitSettled id choice
  | .takeHook id hook, _ => some (world.takeHook id hook)
  | .submitHook task, choice => world.submitHook task choice
  | .noteRejected task, _ =>
      match world.tasks[task]? with
      | some ⟨object, hook, .rejected⟩ =>
          some (world.noteHookSettled task ⟨object, hook, .rejected⟩
            (fun _ => .dropped))
      | _ => none
  | .notifyRejected task, _ =>
      (world.tasks[task]?).map (fun task => ((), world.notifyWaiter task.object))
  | .beginStopService id, _ => some (world.beginStopService id)
  | .beginStopComponent id, _ => some (world.beginStopComponent id)
  | .beginUninstallComponent key, _ => some (world.beginUninstallComponent key)
  | .beginUninstallService name, _ => some (world.beginUninstallService name)
  | .beginUninstallActorType type, _ => some (world.beginUninstallActorType type)
  | .sealSubjectEdges subject, _ => some (world.sealSubjectEdges subject)
  | .eraseSubjectEdges subject, _ => some ((), world.eraseSubjectEdges subject)
  | .eraseSubjectEdgesOn subject components, _ =>
      some ((), world.eraseSubjectEdgesOn subject components)
  | .finishDestroy id, _ =>
      some ((), { world with registry := world.registry.finishDestroyLocked id })
  | .abortDestroy id phase incomplete, _ =>
      some ((), world.abortDestroy id phase incomplete)
  | .bindComponent subject key, _ => some (world.bindComponent subject key)
  | .recordBinding subject type name object generation, _ =>
      some ((), world.changeSubject subject (fun base =>
        base.bindComponentEntry type name object generation))
  | .beginUnbind subject key, _ => some (world.beginUnbind subject key)
  | .finishUnbind component subject generation type name, _ =>
      some ((), world.finishUnbind component subject generation type name)

/-- One action of an operation. -/
def perform : (act : Action) → Choice → Option (act.Answer × AppWorld)
  | .query read, choice =>
      if world.crashed then none
      else (world.answer read choice).map (fun answer => (answer, world))
  | .command write, choice =>
      if world.crashed then none else world.apply write choice

/-! ## Events -/

def event : Event → Option AppWorld
  | .beginHook index =>
      match world.tasks[index]? with
      | some ⟨object, hook, .submitted⟩ =>
          some (world.setPhase index ⟨object, hook, .submitted⟩ .executing)
      | _ => none
  | .endHook index outcome =>
      match world.tasks[index]? with
      | some ⟨object, hook, .executing⟩ =>
          some (world.setPhase index ⟨object, hook, .executing⟩
            (.ended (runHookCaught outcome)))
      | _ => none
  | .noteHook index =>
      match world.tasks[index]? with
      | some ⟨object, hook, .ended result⟩ =>
          some (world.noteHookSettled index ⟨object, hook, .ended result⟩
            (fun notify => .noted notify result)).2
      | _ => none
  | .notifyHook index =>
      match world.tasks[index]? with
      | some ⟨object, hook, .noted notify result⟩ =>
          let notified := if notify then world.notifyWaiter object else world
          some (notified.setPhase index ⟨object, hook, .noted notify result⟩
            (.notified result))
      | _ => none
  | .settleHook index =>
      match world.tasks[index]? with
      | some ⟨object, hook, .notified result⟩ =>
          some (world.setPhase index ⟨object, hook, .notified result⟩
            (.settled result))
      | _ => none
  | .borrow object bindingGeneration allow =>
      match world.registry.borrowImpl object bindingGeneration allow with
      | .error _ => some world
      | .ok (lease, registry) =>
          some { world with registry := registry, leases := lease :: world.leases }
  | .release lease =>
      if lease ∈ world.leases then
        some { world with
          registry := world.registry.releaseBorrow lease
          leases := world.leases.erase lease }
      else none

/-- `event` once nothing has crashed. -/
def react (event : Event) : Option AppWorld :=
  if world.crashed then none else world.event event

end

/-- The registry of a new application holds the entry of the application. -/
def freshRegistry (maxObjects maxBindings : Nat) : Registry :=
  { entries := ∅
    nextIdSeq := 0
    nextGeneration := 1
    maxObjects
    maxBindings
    ids_lt := fun _ hmem => absurd hmem (AList.notMem_empty _) : Registry }.append .app
      (.created "app" "" .app none .running none)

/-- The application as its constructor leaves it. -/
def fresh (options : Except Error Unit) (maxObjects maxBindings : Nat) :
    AppWorld where
  state := .created
  lifecycleActive := false
  options := options
  registry := freshRegistry maxObjects maxBindings
  tasks := []
  waiters := fun _ => ⟨false, false, false⟩
  leases := []
  crashed := false

/-- The constructor throws when the limit leaves no room for its own entry. -/
def Start (world : AppWorld) : Prop :=
  ∃ options maxObjects maxBindings, 0 < maxObjects ∧
    world = fresh options maxObjects maxBindings

end AppWorld

end BbtFramework.App
