import BbtFramework.Host.Lifecycle
import BbtFramework.Rpc.RuntimeSend

/-!
# The application around a host

`CoApp::run` checks the configuration and runs the lifecycle with its own hooks: the
resources start before the host, and they are closed once the handlers have drained,
or at the release when something has kept them open.  Handlers come and go by
themselves while the host accepts them.
-/

namespace BbtFramework.Host

open BbtFramework.Library BbtFramework.Rpc

inductive RpcInboundBridge where
  | legacyHeaders
  | protoWireV1
  | tcpV1
  deriving DecidableEq, Repr

structure StaticRoute where
  serviceName : String
  address : RpcAddress
  deriving DecidableEq, Repr

/-- The options that are checked before a run; `networkLimits` is the verdict of infra
on the network limits. -/
structure CoAppOptions where
  networkLimits : Except Error Unit
  listenHost : String
  staticRoutes : List StaticRoute
  shutdownStepBudget : Int
  inboundBridge : RpcInboundBridge

/-- What the build has been configured with. -/
structure BuildFlags where
  hasRpcWire : Bool
  hasRpcTcp : Bool

structure ResourceSpec where
  name : String
  factory : Bool
  start : Bool
  asCloseable : Bool
  deriving DecidableEq, Repr

/-- A `CoApp` with what was registered before its run. -/
structure CoApp where
  options : CoAppOptions
  build : BuildFlags
  hasHost : Bool
  resourceSpecs : List ResourceSpec

namespace CoApp

/-- The routes of the constructor; a repeated name keeps its first address. -/
def routes (app : CoApp) : Table String RpcAddress :=
  app.options.staticRoutes.foldl
    (fun routes route => Table.emplace routes route.serviceName route.address) ∅

section

variable [Infra]

def failInvalid (what : String) : Except Error Unit :=
  .error (makeError .invalidArgument what)

def validateRoutes : List StaticRoute → Except Error Unit
  | [] => .ok ()
  | route :: rest =>
      if route.serviceName = "" then
        failInvalid "CoApp: static route with empty service_name"
      else if route.address.transport = "" ∨ route.address.endpoint = "" then
        failInvalid ("CoApp: static route '" ++ route.serviceName ++
          "' has empty transport/endpoint")
      else validateRoutes rest

/-- `_ValidateConfig`. -/
def validateConfig (app : CoApp) : Except Error Unit :=
  if ¬app.hasHost then failInvalid "CoApp: network host is not configured"
  else
    match app.options.networkLimits with
    | .error reason => .error reason
    | .ok () =>
        if app.options.listenHost = "" then failInvalid "CoApp: listen host is empty"
        else if app.options.shutdownStepBudget ≤ 0 then
          failInvalid "CoApp: shutdown_step_budget must be > 0"
        else if ¬app.build.hasRpcWire ∧ app.options.inboundBridge ≠ .legacyHeaders then
          failInvalid ("CoApp: ProtoWireV1/TcpV1 inbound bridge requires bbt::infra_rpc_net " ++
            "(BBT_INFRA_RPC_NET + protobuf prefix not configured); refusing to silently fall back")
        else if app.build.hasRpcWire ∧ ¬app.build.hasRpcTcp ∧
            app.options.inboundBridge = .tcpV1 then
          failInvalid ("CoApp: TcpV1 inbound bridge requires bbt::infra_rpc_tcp " ++
            "(BBT_INFRA_RPC_TCP not configured); refusing to silently fall back")
        else
          match validateRoutes app.options.staticRoutes with
          | .error reason => .error reason
          | .ok () =>
              if app.routes.entries.length ≠ app.options.staticRoutes.length then
                failInvalid "CoApp: duplicate static route service_name"
              else .ok ()

end

end CoApp

/-- The atomic steps of `CoApp::run`: the process-wide claim, the calls to the host,
and what the hooks do to the resources. -/
inductive CoCall where
  | claimActive
  | releaseActive
  | exchangeRanOnce
  | host (call : HostCall)
  | factory (index : Nat)
  | startInstance (index : Nat)
  | keepInstance (index : Nat)
  | bindServices
  | collectCloseables
  | closeResource (index : Nat)
  | releaseServices
  deriving DecidableEq, Repr

/-- A factory may give a null instance. -/
@[reducible]
def CoCall.Answer : CoCall → Type
  | .claimActive | .exchangeRanOnce => Bool
  | .host call => call.Answer
  | .factory _ => CallEnd (Except Error Bool)
  | .startInstance _ | .bindServices => CallEnd (Except Error Unit)
  | .collectCloseables => List Nat
  | _ => Unit

abbrev CoOp :=
  Program CoCall CoCall.Answer

def act (call : CoCall) : CoOp call.Answer :=
  Program.ask call

namespace CoApp

section

variable [Infra]

def threwError (step name what : String) : Error :=
  makeError .internalError ("add_resource " ++ step ++ " threw for '" ++ name ++ "': " ++ what)

def threwOtherError (step name : String) : Error :=
  makeError .internalError
    ("add_resource " ++ step ++ " threw for '" ++ name ++ "' (non-std::exception)")

def startInstance (spec : ResourceSpec) (index : Nat) : CoOp (CallEnd (Except Error Unit)) :=
  if spec.start then act (.startInstance index) else return .returned (.ok ())

/-- `_StartResources`, from the resource at `index` on.  The instance of a failed start
is kept for the close. -/
def startResources (index : Nat) : List ResourceSpec → CoOp (Except Error Unit)
  | [] => return .ok ()
  | spec :: rest =>
      if ¬spec.factory then startResources (index + 1) rest
      else do
        let created : CallEnd (Except Error Bool) ← act (.factory index)
        match created with
        | .threw what => return .error (threwError "factory" spec.name what)
        | .threwOther => return .error (threwOtherError "factory" spec.name)
        | .returned (.error reason) => return .error reason
        | .returned (.ok false) =>
            return .error (makeError .internalError "add_resource factory returned null")
        | .returned (.ok true) =>
            let started : CallEnd (Except Error Unit) ← startInstance spec index
            act (.keepInstance index)
            match started with
            | .threw what => return .error (threwError "Start" spec.name what)
            | .threwOther => return .error (threwOtherError "Start" spec.name)
            | .returned (.error reason) => return .error reason
            | .returned (.ok ()) => startResources (index + 1) rest

end

def closeAll : List Nat → CoOp Unit
  | [] => return ()
  | index :: rest => do
      act (.closeResource index)
      closeAll rest

/-- `_CloseResources`. -/
def closeResources : CoOp Unit := do
  let closeables : List Nat ← act .collectCloseables
  closeAll closeables

section

variable [Infra]

/-- What stands behind the calls of the lifecycle: the hooks of `run`, and the host. -/
def serve (app : CoApp) : (call : HostCall) → CoOp call.Answer
  | .onSchedulerStarted => do
      let started : Except Error Unit ← startResources 0 app.resourceSpecs
      match started with
      | .error reason => return .returned (.error reason)
      | .ok () => act .bindServices
  | .onHandlersDrained => do
      closeResources
      return .returned ()
  | .onRelease => do
      closeResources
      act .releaseServices
      return .returned ()
  | call => act (.host call)

def hooks : Hooks where
  onSchedulerStarted := true
  onHandlersDrained := true
  onRelease := true

/-- The run of the lifecycle inside `run`. -/
def hosted (app : CoApp) : CoOp (CallEnd Nat × HostLifecycle) :=
  (HostLifecycle.run hooks
    (.fresh app.hasHost app.options.shutdownStepBudget)).interpret app.serve

/-- `CoApp::run`; an exception of the lifecycle leaves it. -/
def run (app : CoApp) : CoOp (CallEnd Nat) := do
  let active : Bool ← act .claimActive
  if ¬active then return .returned exitRejected
  else
    let once : Bool ← act .exchangeRanOnce
    if ¬once then
      act .releaseActive
      return .returned exitRejected
    else
      match app.validateConfig with
      | .error _ =>
          act .releaseActive
          return .returned exitRejected
      | .ok () =>
          let ended : CallEnd Nat × HostLifecycle ← app.hosted
          act .releaseActive
          return ended.1

end

end CoApp

/-- A resource with the part of its record that changes. -/
structure Resource where
  spec : ResourceSpec
  hasInstance : Bool
  closed : Bool
  deriving DecidableEq, Repr

def Resource.isCloseable (resource : Resource) : Bool :=
  !resource.closed && resource.hasInstance && resource.spec.asCloseable

def Resource.collect (resource : Resource) : Resource :=
  { resource with closed := resource.closed || resource.isCloseable }

/-- The state a run shares with the host: whether a run is active, whether this object
has run, its resources, whether the host accepts handlers, and how many of the accepted
ones are still running. -/
structure CoWorld where
  active : Bool
  ranOnce : Bool
  resources : List Resource
  accepting : Bool
  handlers : Nat
  deriving DecidableEq, Repr

namespace CoWorld

/-- Before the run the instances are those that came without a factory. -/
def fresh (specs : List ResourceSpec) : CoWorld where
  active := false
  ranOnce := false
  resources := specs.map (fun spec => ⟨spec, !spec.factory, false⟩)
  accepting := false
  handlers := 0

def closeables (world : CoWorld) : List Nat :=
  (List.range world.resources.length).filter
    (fun index => (world.resources[index]?).any Resource.isCloseable)

def keepInstance (world : CoWorld) (index : Nat) : CoWorld :=
  { world with
    resources := world.resources.modify index
      (fun resource => { resource with hasInstance := true }) }

end CoWorld

/-- How the host, the factories and the starts end. -/
inductive CoChoice where
  | unit
  | ended (result : CallEnd Unit)
  | result (result : CallEnd (Except Error Unit))
  | created (result : CallEnd (Except Error Bool))
  | reason (reason : Option Error)
  deriving DecidableEq

namespace CoWorld

/-- The calls to the host.  It accepts handlers from `Start` on, whatever `Start`
returns, until `StopAccepting`; a wait that returns without an error has seen every
accepted handler end. -/
def host : (call : HostCall) → CoChoice → CoWorld → Option (call.Answer × CoWorld)
  | .startScheduler, .ended result, world => some (result, world)
  | .create, .result result, world => some (result, world)
  | .start, .result result, world => some (result, { world with accepting := true })
  | .waitShutdownRequest, _, world => some ((), world)
  | .stopAccepting, _, world => some ((), { world with accepting := false })
  | .waitHandlersDone _, .result result, world =>
      if result = .returned (.ok ()) ∧ world.handlers ≠ 0 then none
      else some (result, world)
  | .closeReason, .reason reason, world => some (reason, world)
  | .close, _, world => some ((), world)
  | _, _, _ => none

def perform : (call : CoCall) → CoChoice → CoWorld → Option (call.Answer × CoWorld)
  | .claimActive, _, world => some (!world.active, { world with active := true })
  | .releaseActive, _, world => some ((), { world with active := false })
  | .exchangeRanOnce, _, world => some (!world.ranOnce, { world with ranOnce := true })
  | .host call, choice, world => world.host call choice
  | .factory _, .created result, world => some (result, world)
  | .startInstance _, .result result, world => some (result, world)
  | .keepInstance index, _, world => some ((), world.keepInstance index)
  | .bindServices, .result result, world => some (result, world)
  | .collectCloseables, _, world =>
      some (world.closeables,
        { world with resources := world.resources.map Resource.collect })
  | .closeResource _, _, world => some ((), world)
  | .releaseServices, _, world => some ((), world)
  | _, _, _ => none

end CoWorld

inductive HandlerEvent where
  | accepted
  | ended
  deriving DecidableEq, Repr

def HandlerEvent.apply : HandlerEvent → CoWorld → Option CoWorld
  | .accepted, world =>
      if world.accepting then some { world with handlers := world.handlers + 1 } else none
  | .ended, world =>
      if world.handlers = 0 then none
      else some { world with handlers := world.handlers - 1 }

end BbtFramework.Host
