import BbtFramework.Host.CoApp
import BbtFramework.Library.Methods

/-!
# The engine threads of a host

`InfraHttpHost` owns two engines of infra and a thread that drives each.  `Create` makes the
engines, `Start` their threads, `Close` asks the engines to close and joins what ends soon,
and the destructor joins the rest.  The methods below make the calls of the source and keep
its fields; what infra answers, and what throws, is left open.  They serve a whole
`HostLifecycle::Run`, in which other threads close the host between any two of its calls,
and the destruction after it.
-/

namespace BbtFramework.Host

open BbtFramework.Library

/-- The engine that accepts, `m_engine`, and the one for clients only, `m_egress_engine`. -/
inductive EngineSlot where
  | ingress
  | egress
  deriving DecidableEq, Repr

/-- `m_server`, `m_rpc_server`, `m_client` and `m_rpc_http_client`. -/
inductive NetPart where
  | httpServer
  | rpcServer
  | httpClient
  | rpcClient
  deriving DecidableEq, Repr

/-- The phases of an engine the host tells apart. -/
inductive EnginePhase where
  | idle
  | running
  | stopped
  | other
  deriving DecidableEq, Repr

/-- How the wait of `RunEngine` ends; `message` is the text of the error code. -/
inductive EngineStartup where
  | running
  | finished
  | timedOut (message : String)
  deriving DecidableEq, Repr

/-- What the host does with infra, with its threads and with their engines.  `othersClose`
asks whether another thread closes the host before a call of `Run`, `outside` makes the
calls of `Run` the engines have no part in.  The last time to close the host is before its
destruction. -/
inductive NetCall where
  | validateLimits
  | createEngine (slot : EngineSlot)
  | createTransport (bridge : RpcInboundBridge)
  | createPart (part : NetPart)
  | keepEngine (slot : EngineSlot)
  | makePromise (slot : EngineSlot)
  | startThread (slot : EngineSlot)
  | awaitRunning (slot : EngineSlot)
  | makeAddress
  | localAddresses
  | startPart (part : NetPart)
  | closeOnce
  | publishReason
  | copyReason
  | closePart (part : NetPart)
  | requestClose (slot : EngineSlot)
  | finishedWithin (slot : EngineSlot)
  | join (slot : EngineSlot)
  | finished (slot : EngineSlot)
  | phase (slot : EngineSlot)
  | makeCloseError
  | resetEngine (slot : EngineSlot)
  | destroyMembers
  | othersClose (before : Option HostCall)
  | outside (call : HostCall)

/-- An error code of infra is its message, or `none`. -/
@[reducible]
def NetCall.Answer : NetCall → Type
  | .validateLimits | .createTransport _ | .createPart _ | .startPart _ =>
      CallEnd (Except Error Unit)
  | .createEngine _ | .makePromise _ | .startThread _ => CallEnd Unit
  | .awaitRunning _ => EngineStartup
  | .makeAddress | .finished _ => CallEnd (Option String)
  | .localAddresses => CallEnd (Option String × Option Nat)
  | .publishReason | .copyReason | .closePart _ | .requestClose _ | .makeCloseError =>
      CallEnd Unit
  | .finishedWithin _ => Bool
  | .phase _ => EnginePhase
  | .keepEngine _ | .closeOnce | .join _ | .resetEngine _ | .destroyMembers => Unit
  | .othersClose _ => Option Error
  | .outside call => call.Answer

abbrev NetOp :=
  Program NetCall NetCall.Answer

def NetCall.ask (act : NetCall) : NetOp act.Answer :=
  Program.ask act

/-- The fields of `InfraHttpHost`.  `http` and `rpc` say which handlers are installed,
`closeOnce` that the once flag is used, `owner` which engines the host holds, `joinable`
which of its threads are, and `promised` which results are valid. -/
structure InfraHttpHost where
  build : BuildFlags
  listenHost : String
  inboundBridge : RpcInboundBridge
  http : Bool
  rpc : Bool
  closeOnce : Bool
  created : Bool
  boundReady : Bool
  bound : String × Nat
  closeReason : Option Error
  closeError : Option Error
  parts : NetPart → Bool
  owner : EngineSlot → Bool
  joinable : EngineSlot → Bool
  promised : EngineSlot → Bool

/-- A method is left early by an error it returns or by an exception. -/
abbrev HostMethod (Value : Type) :=
  Method NetCall NetCall.Answer InfraHttpHost (CallEnd Error) Value

def CallEnd.ofMethod {Value : Type} :
    Except (CallEnd Error) Value → CallEnd (Except Error Value)
  | .ok value => .returned (.ok value)
  | .error (.returned error) => .returned (.error error)
  | .error (.threw what) => .threw what
  | .error .threwOther => .threwOther

namespace InfraHttpHost

/-- A host with its handlers installed. -/
def fresh (build : BuildFlags) (listenHost : String) (inboundBridge : RpcInboundBridge)
    (http rpc : Bool) : InfraHttpHost where
  build := build
  listenHost := listenHost
  inboundBridge := inboundBridge
  http := http
  rpc := rpc
  closeOnce := false
  created := false
  boundReady := false
  bound := ("", 0)
  closeReason := none
  closeError := none
  parts := fun _ => false
  owner := fun _ => false
  joinable := fun _ => false
  promised := fun _ => false

def setPart (part : NetPart) (host : InfraHttpHost) : InfraHttpHost :=
  { host with parts := Function.update host.parts part true }

def setOwner (slot : EngineSlot) (owned : Bool) (host : InfraHttpHost) : InfraHttpHost :=
  { host with owner := Function.update host.owner slot owned }

def setJoinable (slot : EngineSlot) (joinable : Bool) (host : InfraHttpHost) :
    InfraHttpHost :=
  { host with joinable := Function.update host.joinable slot joinable }

def setPromised (slot : EngineSlot) (host : InfraHttpHost) : InfraHttpHost :=
  { host with promised := Function.update host.promised slot true }

def call (act : NetCall) : HostMethod act.Answer :=
  Method.perform act

/-- A call may throw. -/
def passed {Value : Type} : CallEnd Value → HostMethod Value
  | .returned value => pure value
  | .threw what => Method.leave (.threw what)
  | .threwOther => Method.leave .threwOther

/-- A failed `result` is returned. -/
def checked {Value : Type} (ended : CallEnd (Except Error Value)) : HostMethod Value := do
  let result : Except Error Value ← passed ended
  match result with
  | .ok value => return value
  | .error error => Method.leave (.returned error)

section

variable [Infra]

def engineError (code : Option String) (what : String) : Error :=
  makeError .runtimeUnavailable (what ++ ": " ++ code.getD "invalid engine phase")

/-- `RunEngine`; the thread runs the engine and keeps its promise when the engine ends. -/
def runEngine (slot : EngineSlot) : HostMethod Unit := do
  call (.makePromise slot) >>= passed
  Method.modify (setPromised slot)
  call (.startThread slot) >>= passed
  Method.modify (setJoinable slot true)
  let startup : EngineStartup ← call (.awaitRunning slot)
  match startup with
  | .running => return ()
  | .finished =>
      Method.leave (.returned (engineError none "Engine Run failed before Running"))
  | .timedOut message => Method.leave (.returned (engineError (some message) "Engine startup"))

def createTransport : HostMethod Unit := do
  let host : InfraHttpHost ← Method.get
  if host.inboundBridge = .tcpV1 ∧ ¬host.build.hasRpcTcp then
    Method.leave (.returned
      (makeError .runtimeUnavailable "TcpV1 requires bbt::infra_rpc_tcp"))
  else call (.createTransport host.inboundBridge) >>= checked

/-- The servers of `Create`. -/
def createServer : HostMethod Unit := do
  let host : InfraHttpHost ← Method.get
  if host.http ∧ ¬host.rpc then do
    call (.createPart .httpServer) >>= checked
    Method.modify (setPart .httpServer)
  else if ¬host.build.hasRpcWire then
    Method.leave (.returned
      (makeError .runtimeUnavailable "RPC wire requires bbt::infra_rpc_net"))
  else do
    createTransport
    call (.createPart .rpcServer) >>= checked
    Method.modify (setPart .rpcServer)

/-- The accepting engine; a host without handlers has none. -/
def createIngress : HostMethod Unit := do
  let host : InfraHttpHost ← Method.get
  if host.http ∨ host.rpc then do
    call (.createEngine .ingress) >>= passed
    createServer
    call (.keepEngine .ingress)
    Method.modify (setOwner .ingress true)
  else return ()

def createRpcClient : HostMethod Unit := do
  let host : InfraHttpHost ← Method.get
  if host.build.hasRpcWire then do
    call (.createPart .rpcClient) >>= checked
    Method.modify (setPart .rpcClient)
  else return ()

def create : HostMethod Unit := do
  call .validateLimits >>= checked
  call (.createEngine .egress) >>= passed
  call (.createPart .httpClient) >>= checked
  createIngress
  call (.keepEngine .egress)
  Method.modify (setOwner .egress true)
  Method.modify (setPart .httpClient)
  createRpcClient
  Method.modify (fun host => { host with created := true })

def startPart (part : NetPart) : HostMethod Unit := do
  let host : InfraHttpHost ← Method.get
  if host.parts part then call (.startPart part) >>= checked
  else return ()

/-- The rest of `Start`, for a host that accepts. -/
def startIngress : HostMethod Unit := do
  let code : Option String ← call .makeAddress >>= passed
  if code.isSome then Method.leave (.returned (engineError code "invalid listen address"))
  else do
    runEngine .ingress
    let addresses : Option String × Option Nat ← call .localAddresses >>= passed
    match addresses with
    | (none, some port) =>
        startPart .httpServer
        startPart .rpcServer
        Method.modify (fun host =>
          { host with bound := (host.listenHost, port), boundReady := true })
    | (code, _) => Method.leave (.returned (engineError code "LocalAddresses failed"))

def start : HostMethod Unit := do
  let host : InfraHttpHost ← Method.get
  if ¬host.created then
    Method.leave (.returned (makeError .runtimeUnavailable "network host not created"))
  else do
    runEngine .egress
    let host : InfraHttpHost ← Method.get
    if ¬host.owner .ingress then return ()
    else startIngress

/-- The end of `_JoinEngine`, after the join. -/
def afterJoin (slot : EngineSlot) : HostMethod Bool := do
  let host : InfraHttpHost ← Method.get
  if ¬host.promised slot then do
    let phase : EnginePhase ← call (.phase slot)
    return phase = .idle ∨ phase = .stopped
  else do
    let code : Option String ← call (.finished slot) >>= passed
    let phase : EnginePhase ← call (.phase slot)
    if code.isSome ∨ phase ≠ .stopped then do
      call .makeCloseError >>= passed
      Method.modify (fun host =>
        { host with closeError := some (engineError code "Engine did not reach Stopped") })
      return false
    else return true

def joinThread (slot : EngineSlot) : HostMethod Unit := do
  call (.join slot)
  Method.modify (setJoinable slot false)

/-- The wait before the join; a result that is not valid is not waited for. -/
def awaitFinished (slot : EngineSlot) : HostMethod Bool := do
  let host : InfraHttpHost ← Method.get
  if host.promised slot then call (.finishedWithin slot)
  else return true

/-- `_JoinEngine`; a thread that does not end soon is left to the destructor. -/
def joinEngine (slot : EngineSlot) : HostMethod Bool := do
  let host : InfraHttpHost ← Method.get
  if ¬host.owner slot then return true
  else do
    call (.requestClose slot) >>= passed
    if ¬host.joinable slot then return true
    else do
      let ready : Bool ← awaitFinished slot
      if ¬ready then return false
      else do
        joinThread slot
        afterJoin slot

def closePart (part : NetPart) : HostMethod Unit := do
  let host : InfraHttpHost ← Method.get
  if host.parts part then call (.closePart part) >>= passed
  else return ()

/-- `m_engine.reset()`, where the engine has stopped. -/
def resetEngine (slot : EngineSlot) (stopped : Bool) : HostMethod Unit :=
  if stopped then do
    call (.resetEngine slot)
    Method.modify (setOwner slot false)
  else return ()

/-- The first part of `_Close`: the reason is published, and everything is told to close.
It returns which engines have stopped. -/
def closeAll (reason : Error) : HostMethod (Bool × Bool) := do
  call .publishReason >>= passed
  call .copyReason >>= passed
  Method.modify (fun host => { host with closeReason := host.closeReason <|> some reason })
  call (.outside .stopAccepting)
  closePart .httpServer
  closePart .rpcServer
  closePart .httpClient
  closePart .rpcClient
  let inboundStopped : Bool ← joinEngine .ingress
  let outboundStopped : Bool ← joinEngine .egress
  return (inboundStopped, outboundStopped)

/-- The rest of `_Close`. -/
def releaseAll (inboundStopped outboundStopped : Bool) : HostMethod Unit := do
  Method.modify (fun host => { host with parts := fun _ => false })
  resetEngine .ingress inboundStopped
  resetEngine .egress outboundStopped
  Method.modify (fun host =>
    { host with boundReady := false, bound := ("", 0), created := false })

/-- The `try` block of `_Close`. -/
def tryClose (reason : Error) : HostMethod Unit := do
  let stopped : Bool × Bool ← closeAll reason
  releaseAll stopped.1 stopped.2

/-- `Close`; the first one closes, and no exception leaves it. -/
def close (reason : Error) (host : InfraHttpHost) : NetOp InfraHttpHost := do
  let _ : Unit ← NetCall.ask .closeOnce
  if host.closeOnce then return host
  else
    let ended : Except (CallEnd Error) Unit × InfraHttpHost ←
      tryClose reason { host with closeOnce := true }
    return ended.2

def ownerReason : Error :=
  makeError .closed "framework host: closed by owner"

def joinIfJoinable (slot : EngineSlot) (host : InfraHttpHost) : NetOp InfraHttpHost :=
  if host.joinable slot then do
    let _ : Unit ← NetCall.ask (.join slot)
    return host.setJoinable slot false
  else return host

def destroy (host : InfraHttpHost) : NetOp Unit := do
  let closed : InfraHttpHost ← close ownerReason host
  let half : InfraHttpHost ← joinIfJoinable .ingress closed
  let _ : InfraHttpHost ← joinIfJoinable .egress half
  let _ : Unit ← NetCall.ask .destroyMembers
  return ()

def method {Value : Type} (body : HostMethod Value) (host : InfraHttpHost) :
    NetOp (CallEnd (Except Error Value) × InfraHttpHost) := do
  let ended : Except (CallEnd Error) Value × InfraHttpHost ← body host
  return (.ofMethod ended.1, ended.2)

/-- The calls of `Run` on the host. -/
def serve : (call : HostCall) → InfraHttpHost → NetOp (call.Answer × InfraHttpHost)
  | .create, host => method create host
  | .start, host => method start host
  | .close, host => do
      let closed : InfraHttpHost ← close ownerReason host
      return ((), closed)
  | .closeReason, host => return (host.closeReason, host)
  | call, host => do
      let answer : call.Answer ← NetCall.ask (.outside call)
      return (answer, host)

/-- Another thread may close the host before a call, or before the destruction. -/
def hearClose (before : Option HostCall) (host : InfraHttpHost) : NetOp InfraHttpHost := do
  let heard : Option Error ← NetCall.ask (.othersClose before)
  match heard with
  | none => return host
  | some reason => close reason host

def serveShared (call : HostCall) (host : InfraHttpHost) :
    NetOp (call.Answer × InfraHttpHost) := do
  let heard : InfraHttpHost ← hearClose (some call) host
  serve call heard

/-- A whole `Run` on the host, and the destruction of the host after it. -/
def life (hooks : Hooks) (lifecycle : HostLifecycle) (host : InfraHttpHost) :
    NetOp (CallEnd Nat × HostLifecycle) := do
  let ended : (CallEnd Nat × HostLifecycle) × InfraHttpHost ←
    (lifecycle.run hooks).interpretOn serveShared host
  let heard : InfraHttpHost ← hearClose none ended.2
  destroy heard
  return ended.1

end

end InfraHttpHost

end BbtFramework.Host
