import BbtFramework.App.World
import BbtFramework.Library.Program

/-!
# The operations of `v2::CoApp`

Each operation is the program of its critical sections, in the order of the
source.  What runs between them and changes nothing the operations share is
left out: observer events, failure records, `OnBindingChanged` and deadlines,
which only decide how a wait ends.
-/

namespace BbtFramework.App

open BbtFramework.Library

/-- Programs over the actions of the control plane. -/
abbrev Op := Program Action Action.Answer

def read (query : Query) : Op query.Answer :=
  Program.ask (Action.query query)

def write (command : Command) : Op command.Answer :=
  Program.ask (Action.command command)

/-- A declaration of `ServiceOptions::BindComponent`. -/
structure ComponentBindingDecl where
  componentType : String
  name : String
  deriving DecidableEq, Repr

/-- What an operation returns. -/
inductive Outcome where
  | control (result : Except Error Unit)
  | bound (result : Except Error (ObjectHandle × Nat))
  deriving DecidableEq

section

variable [Infra]

def waitHooksSettledCo (id : ObjectId) (hook : Hook) : Op (Except Error Unit) := do
  let settled : Bool ← write (.checkSettled id hook)
  if settled then
    return .ok ()
  else
    let registered : Bool ← write (.registerSettled id)
    if registered then
      write (.recheckSettled id)
      write (.awaitSettled id)
    else
      return .error (AppWorld.settleWaitError (.alreadyWaiting 0))

def submissionError : Submission → Error
  | .threw what =>
      makeError .runtimeUnavailable
        ("lifecycle: hook task regist failed: " ++ what)
  | .threwOther =>
      makeError .runtimeUnavailable
        "lifecycle: hook task regist failed (non-std)"
  | _ => makeError .runtimeUnavailable "lifecycle: hook task rejected"

/-- `NoteHookSettled` for a task that was not accepted. -/
def noteRejected (task : Nat) : Op Unit := do
  let notify : Bool ← write (.noteRejected task)
  if notify then
    write (.notifyRejected task)
  else
    return ()

/-- The common body of `_RunServiceHookCo` and `_RunComponentHookCo`, which
differ in the static type of the hook. -/
def runHookCo (id : ObjectId) (hook : Hook) : Op (Except Error Unit) := do
  let settled : Except Error Unit ← waitHooksSettledCo id hook
  match settled with
  | .error error => return .error error
  | .ok () =>
      let taken : Option Nat ← write (.takeHook id hook)
      match taken with
      | none => return .ok ()
      | some task =>
          let submission : Submission ← write (.submitHook task)
          if submission = .accepted then
            read (.awaitSlot task)
          else
            noteRejected task
            return .error (submissionError submission)

def runServiceHookCo (id : ObjectId) (hook : Hook) : Op (Except Error Unit) :=
  runHookCo id hook

/-- The common body of `_RunServiceHook`, `_RunComponentHook` and their variants
for hooks without a result: the hook runs in the calling coroutine. -/
def runHook (id : ObjectId) (hook : Hook) : Op (Except Error Unit) := do
  let found : Bool ← read (.enterHook id hook)
  if found then
    read .leaveHook
  else
    return .ok ()

def runServiceHook (id : ObjectId) (hook : Hook) : Op (Except Error Unit) :=
  runHook id hook

def runComponentHook (id : ObjectId) (hook : Hook) : Op (Except Error Unit) :=
  runHook id hook

/-- `_RunServiceVoidHook` and `_RunComponentVoidHook` record what is thrown. -/
def runVoidHook (id : ObjectId) (hook : Hook) : Op Unit := do
  let _ ← runHook id hook
  return ()

/-- `_RunActorDestroy`; an entry without an instance has no hook to run. -/
def runActorDestroy (id : ObjectId) : Op Unit := do
  let present : Bool ← read (.findActor id)
  if present then
    let _ ← read .leaveHook
    return ()
  else
    return ()

def waitBorrowsDrained (component : ObjectId) : Op (Except Error Unit) := do
  let drained : Bool ← read (.borrowsDrained component)
  if drained then
    return .ok ()
  else
    read (.awaitBorrows component)

def waitBindingDrained (component subject : ObjectId) (generation : Nat) :
    Op (Except Error Unit) := do
  let drained : Bool ← read (.bindingDrained component subject generation)
  if drained then
    return .ok ()
  else
    read (.awaitBinding component subject generation)

/-- The loop over the sealed edges of a subject. -/
def drainEdges (subject : ObjectId) : List EdgeName → Op (Except Error Unit)
  | [] => return .ok ()
  | edge :: rest => do
      let drained : Except Error Unit ← waitBindingDrained edge.1 subject edge.2
      match drained with
      | .error error => return .error error
      | .ok () => drainEdges subject rest

/-- `OnStop` and the check for hooks still in flight, with the failure exits
that the four teardown paths share. -/
def stopHook (id : ObjectId) (operation : String) (incomplete : ObjectState) :
    Op (Except Error Unit) := do
  let stopped : Except Error Unit ← runHookCo id .onStop
  match stopped with
  | .error error =>
      write (.abortDestroy id "onstop" incomplete)
      return .error error
  | .ok () =>
      let inFlight : Bool ← read (.hookInFlight id)
      if inFlight then
        write (.abortDestroy id "hook_in_flight" incomplete)
        return .error (makeError .timedOut
          (operation ++ ": prior hook still in flight"))
      else
        return .ok ()

/-- `OnUninstall` and the final critical section. -/
def finishDestroy (id : ObjectId) : Op Unit := do
  runVoidHook id .onUninstall
  write (.finishDestroy id)

def destroyService (id : ObjectId) : Op Unit := do
  let begun : Bool ← write (.beginStopService id)
  if begun then
    let edges : List EdgeName ← read (.retiringEdges id)
    let drained : Except Error Unit ← drainEdges id edges
    match drained with
    | .error _ => write (.abortDestroy id "borrow_drain" .stopIncomplete)
    | .ok () =>
        let stopped : Except Error Unit ← stopHook id "stop" .stopIncomplete
        match stopped with
        | .error _ => return ()
        | .ok () =>
            write (.eraseSubjectEdges id)
            finishDestroy id
  else
    return ()

def destroyActor (id : ObjectId) : Op Unit := do
  runActorDestroy id
  write (.finishDestroy id)

def destroyComponent (id : ObjectId) : Op Unit := do
  let begun : Bool ← write (.beginStopComponent id)
  if begun then
    let drained : Except Error Unit ← waitBorrowsDrained id
    match drained with
    | .error _ => write (.abortDestroy id "borrow_drain" .stopIncomplete)
    | .ok () =>
        let stopped : Except Error Unit ← stopHook id "stop" .stopIncomplete
        match stopped with
        | .error _ => return ()
        | .ok () => finishDestroy id
  else
    return ()

def forEach (body : ObjectId → Op Unit) : List ObjectId → Op Unit
  | [] => return ()
  | id :: rest => do
      body id
      forEach body rest

def stopAll : Op Unit := do
  let lists : StopLists ← read .stopLists
  forEach destroyService lists.services
  forEach destroyActor lists.actors
  forEach destroyComponent lists.scopedComponents
  forEach destroyComponent lists.appComponents

/-- The conflict check of the four transitions and the release of the flag. -/
def withLifecycle (operation : String) (body : Op (Except Error Unit)) :
    Op (Except Error Unit) := do
  let active : Bool ← write .exchangeLifecycle
  if active then
    return .error (makeError .overloaded
      (operation ++ ": lifecycle transition in progress"))
  else
    let result : Except Error Unit ← body
    write .releaseLifecycle
    return result

/-- One of the two loops of `_StartImpl`. -/
def startObjects : List ObjectId → Op (Except Error Unit)
  | [] => return .ok ()
  | id :: rest => do
      write (.setState id .starting)
      let started : Except Error Unit ← runHookCo id .onStart
      match started with
      | .error error =>
          write (.setState id .failed)
          write (.storeState .running)
          return .error error
      | .ok () =>
          write (.setState id .running)
          startObjects rest

def startImpl : Op (Except Error Unit) :=
  withLifecycle "Start" (do
    let state : AppState ← read .loadState
    if state = .stopped ∨ state = .stopIncomplete then
      return .error (makeError .closed "Start: app already stopped")
    else if state ≠ .created ∧ state ≠ .paused then
      return .error (makeError .overloaded
        "Start: app not in Created/Paused state")
    else
      let valid : Except Error Unit ← read .validateOptions
      match valid with
      | .error error => return .error error
      | .ok () =>
          write (.storeState .starting)
          let lists : List ObjectId × List ObjectId ← read .startLists
          let components : Except Error Unit ← startObjects lists.1
          match components with
          | .error error => return .error error
          | .ok () =>
              let services : Except Error Unit ← startObjects lists.2
              match services with
              | .error error => return .error error
              | .ok () =>
                  write (.storeState .running)
                  return .ok ())

/-- The loop of `_PauseImpl` and `_ResumeImpl`. -/
def switchServices (hook : Hook) (next : ObjectState) :
    List ObjectId → Op (Except Error Unit)
  | [] => return .ok ()
  | id :: rest => do
      let switched : Except Error Unit ← runServiceHookCo id hook
      match switched with
      | .error error =>
          write (.setState id .failed)
          return .error error
      | .ok () =>
          write (.setState id next)
          switchServices hook next rest

/-- `_PauseImpl` and `_ResumeImpl` with their states, hook and texts. -/
def switchImpl (operation required : String) (hook : Hook)
    (appFrom appTo : AppState) (objectFrom objectTo : ObjectState) :
    Op (Except Error Unit) :=
  withLifecycle operation (do
    let state : AppState ← read .loadState
    if state ≠ appFrom then
      return .error (makeError .invalidArgument
        (operation ++ ": app not " ++ required))
    else
      let services : List ObjectId ← read (.listServices objectFrom)
      let switched : Except Error Unit ← switchServices hook objectTo services
      match switched with
      | .error error => return .error error
      | .ok () =>
          write (.storeState appTo)
          return .ok ())

def pauseImpl : Op (Except Error Unit) :=
  switchImpl "Pause" "Running" .onPause .running .paused .running .paused

def resumeImpl : Op (Except Error Unit) :=
  switchImpl "Resume" "Paused" .onResume .paused .running .paused .running

def stopImpl : Op (Except Error Unit) :=
  withLifecycle "Stop" (do
    let state : AppState ← read .loadState
    if state = .stopped then
      return .ok ()
    else
      write (.storeState .stopping)
      stopAll
      let pending : List CleanupInfo ← read .pendingCleanup
      write (.storeState (if pending = [] then .stopped else .stopIncomplete))
      return .ok ())

def bindComponentImpl (type : String) (subject : ObjectHandle) (name : String)
    (placement : ComponentOptions) : Op (Except Error (ObjectHandle × Nat)) :=
  if ¬subject.owned then
    return .error (makeError .invalidArgument
      "BindComponent: subject handle belongs to another Registry")
  else do
    let owner : Except Error (Option ObjectId) ← read (.validateOwner placement)
    match owner with
    | .error error => return .error error
    | .ok ownerId =>
        write (.bindComponent subject ⟨type, name, placement.scope, ownerId⟩)

def unbindComponentImpl (type : String) (subject : ObjectHandle) (name : String)
    (placement : ComponentOptions) : Op (Except Error Unit) :=
  if ¬subject.owned then
    return .error (makeError .invalidArgument
      "UnbindComponent: subject handle belongs to another Registry")
  else do
    let owner : Except Error (Option ObjectId) ← read (.validateOwner placement)
    match owner with
    | .error error => return .error error
    | .ok ownerId =>
        let begun : Except Error EdgeName ←
          write (.beginUnbind subject.id ⟨type, name, placement.scope, ownerId⟩)
        match begun with
        | .error error => return .error error
        | .ok edge =>
            let drained : Except Error Unit ←
              waitBindingDrained edge.1 subject.id edge.2
            match drained with
            | .error error => return .error error
            | .ok () =>
                write (.finishUnbind edge.1 subject.id edge.2 type name)
                return .ok ()

def startInstalled (id : ObjectId) : Op (Except Error Unit) := do
  write (.setState id .installed)
  let state : AppState ← read .loadState
  if state = .running then
    write (.setState id .starting)
    let started : Except Error Unit ← runHookCo id .onStart
    match started with
    | .error error =>
        write (.setState id .failed)
        return .error error
    | .ok () =>
        write (.setState id .running)
        return .ok ()
  else
    return .ok ()

def installComponentImpl (type name : String) (placement : ComponentOptions) :
    Op (Except Error Unit) := do
  let state : AppState ← read .loadState
  if state = .stopped then
    return .error (makeError .closed "InstallComponent: app stopped")
  else if name = "" then
    return .error (makeError .invalidArgument "InstallComponent: empty name")
  else
    let owner : Except Error (Option ObjectId) ← read (.validateOwner placement)
    match owner with
    | .error error => return .error error
    | .ok ownerId =>
        let made : Except Error Unit ← read (.construct "InstallComponent")
        match made with
        | .error error => return .error error
        | .ok () =>
            let created : Except Error ObjectId ←
              write (.createComponent ⟨type, name, placement.scope, ownerId⟩)
            match created with
            | .error error => return .error error
            | .ok id =>
                let installed : Except Error Unit ← runComponentHook id .onInstall
                match installed with
                | .error error =>
                    write (.setState id .installFailed)
                    return .error error
                | .ok () => startInstalled id

/-- The bindings done so far are undone, whatever the answers. -/
def unbindDone (service : ObjectHandle) : List ComponentBindingDecl → Op Unit
  | [] => return ()
  | decl :: rest => do
      let _ ← unbindComponentImpl decl.componentType service decl.name ⟨.app, none⟩
      unbindDone service rest

/-- The loop of `_ApplyServiceBindings`. -/
def bindDeclared (service : ObjectHandle) (base : ObjectBase) :
    List ComponentBindingDecl → List ComponentBindingDecl → Op (Except Error Unit)
  | [], _ => return .ok ()
  | decl :: rest, done => do
      if decl.componentType ∉ base.allowed then
        unbindDone service done
        return .error (makeError .invalidArgument
          "BindComponent: component type is not declared in this Service’s allowed set")
      else
        let bound : Except Error (ObjectHandle × Nat) ←
          bindComponentImpl decl.componentType service decl.name ⟨.app, none⟩
        match bound with
        | .error error =>
            unbindDone service done
            return .error error
        | .ok (object, generation) =>
            write (.recordBinding service.id decl.componentType decl.name object
              generation)
            bindDeclared service base rest (done ++ [decl])

def applyServiceBindings (service : ObjectHandle)
    (decls : List ComponentBindingDecl) : Op (Except Error Unit) := do
  let base : Option ObjectBase ← read (.findService service.id)
  match base with
  | none =>
      return .error (makeError .internalError
        "_ApplyServiceBindings: service entry vanished")
  | some base => bindDeclared service base decls []

def installServiceImpl (name : String) (allowed : List String)
    (decls : List ComponentBindingDecl) : Op (Except Error Unit) := do
  let state : AppState ← read .loadState
  if state = .stopped then
    return .error (makeError .closed "InstallService: app stopped")
  else
    let made : Except Error Unit ← read (.construct "InstallService")
    match made with
    | .error error => return .error error
    | .ok () =>
        let created : Except Error ObjectHandle ← write (.createService name allowed)
        match created with
        | .error error => return .error error
        | .ok service =>
            let bound : Except Error Unit ← applyServiceBindings service decls
            match bound with
            | .error error =>
                write (.setState service.id .installFailed)
                return .error error
            | .ok () =>
                let installed : Except Error Unit ←
                  runServiceHook service.id .onInstall
                match installed with
                | .error error =>
                    write (.setState service.id .installFailed)
                    return .error error
                | .ok () => startInstalled service.id

/-- `CoInstallService`; `valid` is the answer of `ServiceOptions::Validate`. -/
def coInstallService (valid : Except Error Unit) (name : String)
    (allowed : List String) (decls : List ComponentBindingDecl) :
    Op (Except Error Unit) :=
  match valid with
  | .error error => return .error error
  | .ok () =>
      if name = "" then
        return .error (makeError .invalidArgument
          "CoInstallService: S must declare a non-empty kServiceName")
      else installServiceImpl name allowed decls

def installActorTypeImpl (type : String) : Op (Except Error Unit) := do
  let state : AppState ← read .loadState
  if state = .stopped then
    return .error (makeError .closed "InstallActor: app stopped")
  else
    write (.createActorType type)

/-- `CoInstallActor`; `valid` is the answer of `ActorOptions::Validate`. -/
def coInstallActor (valid : Except Error Unit) (type : String) :
    Op (Except Error Unit) :=
  match valid with
  | .error error => return .error error
  | .ok () =>
      if type = "" then
        return .error (makeError .invalidArgument
          "CoInstallActor: A must declare a non-empty kActorType")
      else installActorTypeImpl type

def uninstallComponentImpl (type name : String) (placement : ComponentOptions) :
    Op (Except Error Unit) := do
  let owner : Except Error (Option ObjectId) ← read (.validateOwner placement)
  match owner with
  | .error error => return .error error
  | .ok ownerId =>
      let begun : Except Error ObjectId ←
        write (.beginUninstallComponent ⟨type, name, placement.scope, ownerId⟩)
      match begun with
      | .error error => return .error error
      | .ok id =>
          let drained : Except Error Unit ← waitBorrowsDrained id
          match drained with
          | .error error =>
              write (.abortDestroy id "borrow_drain" .uninstallIncomplete)
              return .error error
          | .ok () =>
              let stopped : Except Error Unit ←
                stopHook id "uninstall" .uninstallIncomplete
              match stopped with
              | .error error => return .error error
              | .ok () =>
                  finishDestroy id
                  return .ok ()

def uninstallServiceImpl (name : String) : Op (Except Error Unit) := do
  let begun : Except Error ObjectId ← write (.beginUninstallService name)
  match begun with
  | .error error => return .error error
  | .ok id =>
      let edges : List EdgeName ← write (.sealSubjectEdges id)
      let drained : Except Error Unit ← drainEdges id edges
      match drained with
      | .error error =>
          write (.abortDestroy id "borrow_drain" .uninstallIncomplete)
          return .error error
      | .ok () =>
          write (.eraseSubjectEdgesOn id (edges.map Prod.fst))
          let stopped : Except Error Unit ←
            stopHook id "uninstall" .uninstallIncomplete
          match stopped with
          | .error error => return .error error
          | .ok () =>
              finishDestroy id
              return .ok ()

def coUninstallService (name : String) : Op (Except Error Unit) :=
  if name = "" then
    return .error (makeError .invalidArgument
      "CoUninstallService: S must declare kServiceName")
  else uninstallServiceImpl name

def uninstallActorTypeImpl (type : String) : Op (Except Error Unit) := do
  let begun : Except Error ObjectId ← write (.beginUninstallActorType type)
  match begun with
  | .error error => return .error error
  | .ok id =>
      write (.finishDestroy id)
      return .ok ()

def coUninstallActor (type : String) : Op (Except Error Unit) :=
  if type = "" then
    return .error (makeError .invalidArgument
      "CoUninstallActor: A must declare kActorType")
  else uninstallActorTypeImpl type

/-! ## Entry points -/

/-- The calls of the public interface, each with its arguments. -/
inductive Entry where
  | coStart
  | coPause
  | coResume
  | coStop
  | coInstallComponent (type name : String) (placement : ComponentOptions)
  | coUninstallComponent (type name : String) (placement : ComponentOptions)
  | coInstallService (valid : Except Error Unit) (name : String)
      (allowed : List String) (decls : List ComponentBindingDecl)
  | coUninstallService (name : String)
  | coInstallActor (valid : Except Error Unit) (type : String)
  | coUninstallActor (type : String)
  | coBindComponent (type : String) (subject : ObjectHandle) (name : String)
      (placement : ComponentOptions)
  | coUnbindComponent (type : String) (subject : ObjectHandle) (name : String)
      (placement : ComponentOptions)

def control (program : Op (Except Error Unit)) : Op Outcome := do
  let result : Except Error Unit ← program
  return .control result

def Entry.main : Entry → Op Outcome
  | .coStart => control startImpl
  | .coPause => control pauseImpl
  | .coResume => control resumeImpl
  | .coStop => control stopImpl
  | .coInstallComponent type name placement =>
      control (installComponentImpl type name placement)
  | .coUninstallComponent type name placement =>
      control (uninstallComponentImpl type name placement)
  | .coInstallService valid name allowed decls =>
      control (App.coInstallService valid name allowed decls)
  | .coUninstallService name => control (App.coUninstallService name)
  | .coInstallActor valid type => control (App.coInstallActor valid type)
  | .coUninstallActor type => control (App.coUninstallActor type)
  | .coBindComponent type subject name placement => do
      let result : Except Error (ObjectHandle × Nat) ←
        bindComponentImpl type subject name placement
      return .bound result
  | .coUnbindComponent type subject name placement =>
      control (unbindComponentImpl type subject name placement)

end

end BbtFramework.App
