import BbtFramework.Coroutine
import BbtFramework.Inbound.Mailbox
import BbtFramework.Inbound.Request
import BbtFramework.Library.Machine
import BbtFramework.Ordered.IngressRun
import Mathlib.Logic.Function.Basic

/-!
# Concurrent dispatches

Any number of `InboundDispatcher::Dispatch` calls run against one service.  A
call is a sequence of critical sections: the admission count, the ordered
ingress, the actor registry, the mailbox table, the mailbox and the ingress
again.  Between two of them any other call and any mailbox may act.
-/

namespace BbtFramework.Inbound

open BbtFramework.Library
open BbtFramework.Ordered
open BbtFramework.Rpc

/-- What the registered factory does when it is asked for an instance. -/
inductive FactoryOutcome where
  | made
  | threw
  | null
  deriving DecidableEq, Repr

/-- The part of `ActorRegistry` one service uses: the limit it was registered
with, if it was, and the keys of its live actors. -/
structure ActorRegistry where
  maxActors : Option Nat
  actors : List String
  deriving DecidableEq, Repr

section

variable [Infra]

/-- `GetOrCreate`, one critical section. -/
def ActorRegistry.getOrCreate (registry : ActorRegistry) (service key : String)
    (outcome : FactoryOutcome) : Except Error Unit × ActorRegistry :=
  if key = "" then
    (.error (makeError .invalidArgument "ActorRegistry: empty actor_key"), registry)
  else if key ∈ registry.actors then (.ok (), registry)
  else
    match registry.maxActors with
    | none =>
        (.error (makeError .notFound
          ("ActorRegistry: service '" ++ service ++ "' not registered")), registry)
    | some limit =>
        if limit ≤ registry.actors.length then
          (.error (makeError .overloaded
            ("ActorRegistry: service '" ++ service ++
              "' reached max_actors limit")), registry)
        else
          match outcome with
          | .made => (.ok (), { registry with actors := registry.actors ++ [key] })
          | .threw =>
              (.error (makeError .internalError
                ("ActorRegistry: factory threw while activating actor '" ++ key ++
                  "'")), registry)
          | .null =>
              (.error (makeError .internalError
                ("ActorRegistry: factory returned null for actor '" ++ key ++
                  "'")), registry)

end

/-- The task a call hands to the mailbox, named by the call and its ticket. -/
structure ActorTask where
  dispatch : Nat
  ticket : Option Admission
  deriving DecidableEq, Repr

/-- The result slot of a call and whether its waiter was notified. -/
structure Slot where
  result : Except Error Bytes
  notified : Bool

/-- The locals of one call once its checks have passed. -/
structure DispatchCall where
  incoming : IncomingCallContext
  request : RpcEnvelope
  accepted : Accepted
  key : String
  ticket : Option Admission

def DispatchCall.ordered (call : DispatchCall) : OrderedIngressRequest :=
  orderedRequest call.incoming call.request call.accepted.facts call.key

/-- Where one call stands; each position names the action that comes next. -/
inductive DispatchPc where
  | idle
  | check (incoming : IncomingCallContext) (request : RpcEnvelope)
  | read (incoming : IncomingCallContext) (request : RpcEnvelope)
      (accepted : Accepted)
  | invoke (call : DispatchCall)
  | admitting (call : DispatchCall)
  | activate (call : DispatchCall)
  | findMailbox (call : DispatchCall)
  | createWaiter (call : DispatchCall)
  | enqueue (call : DispatchCall)
  | suspended (call : DispatchCall)
  | complete (call : DispatchCall) (outcome : Except Error Bytes)
  | leave (result : Except Error RpcEnvelope)
  | unwind
  | returned (result : Except Error RpcEnvelope)
  | thrown

/-- One service of a dispatcher.  `count` is the number of calls made so far;
`started` lists the tasks the mailboxes have started, in that order. -/
structure DispatchWorld where
  services : Table String ServiceEntry
  service : String
  inflight : Nat
  ingress : OrderedIngress
  registry : ActorRegistry
  mailboxes : String → Option (ActorMailbox ActorTask)
  count : Nat
  dispatches : Nat → DispatchPc
  slots : Nat → Slot
  started : List ActorTask

/-- One action of a call or of a mailbox, with the choices of what lies outside:
the clock, factories, the scheduler, waiters and handlers. -/
inductive DispatchStep where
  | call (incoming : IncomingCallContext) (request : RpcEnvelope)
  | check (dispatch : Nat)
  | read (dispatch : Nat) (now : Deadline)
  | invoke (dispatch : Nat) (outcome : Except Error Bytes)
  | admitting (dispatch : Nat)
  | activate (dispatch : Nat) (outcome : FactoryOutcome)
  | findMailbox (dispatch : Nat)
  | createWaiter (dispatch : Nat) (created : Bool)
  | enqueue (dispatch : Nat) (registration : Registration)
  | failWait (dispatch : Nat) (status : WaitStatus)
  | resume (dispatch : Nat) (status : WaitStatus)
  | complete (dispatch : Nat)
  | leave (dispatch : Nat)
  | drain (key : String)
  | endTask (key : String) (outcome : Option (Except Error Bytes))

def stringToBytes (text : String) : Bytes :=
  text.toList.map (fun c => UInt8.ofNat c.toNat)

/-- A payload kept in the reply cache comes back as it was. -/
theorem stringToBytes_bytesToString (bytes : Bytes) :
    stringToBytes (bytesToString bytes) = bytes := by
  have hbyte : ∀ byte : UInt8, UInt8.ofNat (byteToChar byte).toNat = byte := by
    intro byte
    have hlt := byte.toNat_lt
    have hvalid : byte.toNat.isValidChar := Or.inl (by omega)
    rw [byteToChar, Char.ofNat, dif_pos hvalid]
    exact UInt8.ofNat_toNat
  unfold stringToBytes bytesToString
  rw [String.toList_ofList, List.map_map]
  exact List.map_id'' hbyte bytes

/-- The reply with its association fields filled in from the request. -/
def replyEnvelope (request : RpcEnvelope) (method : RpcMethod) (payload : Bytes) :
    RpcEnvelope where
  service := request.service
  method := request.method
  requestSchema := method.requestSchema
  responseSchema := method.responseSchema
  payload := payload
  requestId := request.requestId
  metadata := []

section

variable [Infra]

/-- The error a caller may see: the error itself or the refusal of it. -/
def safeError (error : Error) : Error :=
  match validateErrorAtBoundary error with
  | .ok () => error
  | .error reason => reason

def waitError : WaitStatus → Option Error
  | .completed => none
  | .timedOut =>
      some (makeError .timedOut
        "actor handler did not finish within request budget")
  | .cancelled =>
      some (makeError .cancelled
        "inbound request cancelled while queued/running")
  | .runtimeUnavailable =>
      some (makeError .runtimeUnavailable
        "runtime unavailable while waiting actor result")
  | .invalidContext =>
      some (makeError .runtimeUnavailable
        "inbound dispatch requires a coroutine context")
  | .alreadyWaiting number | .unknown number =>
      some (makeError .internalError
        ("unexpected wait status " ++ toString number))

def replayReply (call : DispatchCall) (reply : OrderedTerminalReply) :
    Except Error RpcEnvelope :=
  if reply.isOk then
    .ok (replyEnvelope call.request call.accepted.method
      (stringToBytes reply.payload))
  else .error (safeError reply.error)

/-- The terminal reply passed to `Complete`. -/
def terminalOf : Except Error Bytes → OrderedTerminalReply
  | .ok payload =>
      ⟨true, bytesToString payload, makeError .internalError ""⟩
  | .error error => ⟨false, "", safeError error⟩

/-- What the call returns for an outcome. -/
def resultOf (call : DispatchCall) : Except Error Bytes → Except Error RpcEnvelope
  | .ok payload =>
      .ok (replyEnvelope call.request call.accepted.method payload)
  | .error error => .error (safeError error)

def emptySlot : Slot :=
  ⟨.error (makeError .internalError "actor task produced no result"), false⟩

namespace DispatchWorld

omit [Infra] in
def goto (world : DispatchWorld) (dispatch : Nat) (pc : DispatchPc) :
    DispatchWorld :=
  { world with dispatches := Function.update world.dispatches dispatch pc }

/-- Steps 1 to 4: the checks and `fetch_add`.  A refused count is taken back
before the call returns. -/
def check (world : DispatchWorld) (dispatch : Nat) : Option DispatchWorld :=
  match world.dispatches dispatch with
  | .check incoming request =>
      match checkRequest world.services request with
      | .error reason => some (world.goto dispatch (.returned (.error reason)))
      | .ok accepted =>
          let counted := { world with inflight := world.inflight + 1 }
          if accepted.entry.options.maxInflight ≤ world.inflight then
            some (counted.goto dispatch (.leave (.error (overloadedError request))))
          else some (counted.goto dispatch (.read incoming request accepted))
  | _ => none

def afterRead (incoming : IncomingCallContext) (request : RpcEnvelope)
    (accepted : Accepted) (now : Deadline) : DispatchPc :=
  if handlerDeadline incoming ≤ now then .leave (.error expiredError)
  else if !accepted.method.actorKeyed then
    .invoke ⟨incoming, request, accepted, "", none⟩
  else
    match accepted.method.extractKey request.payload with
    | .error reason => .leave (.error reason)
    | .ok key =>
        let call : DispatchCall := ⟨incoming, request, accepted, key, none⟩
        if !accepted.entry.options.orderedIngress then .activate call
        else if !accepted.entry.ingressBound then
          .leave (.error (ingressUnboundError request))
        else .admitting call

def read (world : DispatchWorld) (dispatch : Nat) (now : Deadline) :
    Option DispatchWorld :=
  match world.dispatches dispatch with
  | .read incoming request accepted =>
      some (world.goto dispatch (afterRead incoming request accepted now))
  | _ => none

/-- A concurrent method runs inside the call; `outcome` is what its instance
answers. -/
def invoke (world : DispatchWorld) (dispatch : Nat)
    (outcome : Except Error Bytes) : Option DispatchWorld :=
  match world.dispatches dispatch with
  | .invoke call =>
      some (world.goto dispatch (.leave
        (match outcome with
          | .ok payload =>
              .ok (replyEnvelope call.request call.accepted.method payload)
          | .error reason => .error reason)))
  | _ => none

/-- `Admit` and the branch taken on its decision. -/
def admitting (world : DispatchWorld) (dispatch : Nat) : Option DispatchWorld :=
  match world.dispatches dispatch with
  | .admitting call =>
      let decided := { world with
        ingress := (world.ingress.admitRequest call.ordered).2 }
      match (world.ingress.admitRequest call.ordered).1 with
      | .error reason => some (decided.goto dispatch (.leave (.error reason)))
      | .ok ticket =>
          match ticket.kind, ticket.replay with
          | .replay, some reply =>
              some (decided.goto dispatch (.leave (replayReply call reply)))
          | _, _ =>
              some (decided.goto dispatch
                (.activate { call with ticket := some ticket }))
  | _ => none

def activate (world : DispatchWorld) (dispatch : Nat)
    (outcome : FactoryOutcome) : Option DispatchWorld :=
  match world.dispatches dispatch with
  | .activate call =>
      let found := world.registry.getOrCreate call.request.service call.key outcome
      let looked := { world with registry := found.2 }
      match found.1 with
      | .error reason => some (looked.goto dispatch (.complete call (.error reason)))
      | .ok () => some (looked.goto dispatch (.findMailbox call))
  | _ => none

/-- `_MailboxFor`: the mailbox of the key, created when it is missing. -/
def findMailbox (world : DispatchWorld) (dispatch : Nat) : Option DispatchWorld :=
  match world.dispatches dispatch with
  | .findMailbox call =>
      match world.mailboxes call.key with
      | some _ => some (world.goto dispatch (.createWaiter call))
      | none =>
          let created := { world with
            mailboxes := Function.update world.mailboxes call.key
              (some (.create call.accepted.entry.options.mailboxCapacity)) }
          some (created.goto dispatch (.createWaiter call))
  | _ => none

def createWaiter (world : DispatchWorld) (dispatch : Nat) (created : Bool) :
    Option DispatchWorld :=
  match world.dispatches dispatch with
  | .createWaiter call =>
      if created then some (world.goto dispatch (.enqueue call))
      else
        some (world.goto dispatch (.complete call
          (.error (makeError .runtimeUnavailable "co waiter unavailable"))))
  | _ => none

omit [Infra] in
def setSlot (world : DispatchWorld) (dispatch : Nat) (slot : Slot) :
    DispatchWorld :=
  { world with slots := Function.update world.slots dispatch slot }

omit [Infra] in
def setMailbox (world : DispatchWorld) (key : String)
    (mailbox : ActorMailbox ActorTask) : DispatchWorld :=
  { world with mailboxes := Function.update world.mailboxes key (some mailbox) }

/-- The wait is registered and its callback enqueues the task.  A refusal fills
the slot and notifies the waiter; an exception unwinds the call. -/
def enqueue (world : DispatchWorld) (dispatch : Nat)
    (registration : Registration) : Option DispatchWorld :=
  match world.dispatches dispatch with
  | .enqueue call =>
      match world.mailboxes call.key with
      | none => none
      | some mailbox =>
          let offered := mailbox.tryEnqueue ⟨dispatch, call.ticket⟩ registration
          let after := world.setMailbox call.key offered.2
          match offered.1 with
          | some (.ok ()) => some (after.goto dispatch (.suspended call))
          | some (.error reason) =>
              some ((after.setSlot dispatch ⟨.error reason, true⟩).goto dispatch
                (.suspended call))
          | none => some (after.goto dispatch .unwind)
  | _ => none

def failWait (world : DispatchWorld) (dispatch : Nat) (status : WaitStatus) :
    Option DispatchWorld :=
  match world.dispatches dispatch, waitError status with
  | .enqueue call, some reason =>
      some (world.goto dispatch (.complete call (.error reason)))
  | _, _ => none

def resume (world : DispatchWorld) (dispatch : Nat) (status : WaitStatus) :
    Option DispatchWorld :=
  match world.dispatches dispatch with
  | .suspended call =>
      match waitError status with
      | some reason =>
          some (world.goto dispatch (.complete call (.error reason)))
      | none =>
          if (world.slots dispatch).notified then
            some (world.goto dispatch
              (.complete call (world.slots dispatch).result))
          else none
  | _ => none

def complete (world : DispatchWorld) (dispatch : Nat) : Option DispatchWorld :=
  match world.dispatches dispatch with
  | .complete call outcome =>
      match call.ticket with
      | none => some (world.goto dispatch (.leave (resultOf call outcome)))
      | some ticket =>
          let completed := world.ingress.complete ticket (terminalOf outcome)
          let ended := { world with ingress := completed.2 }
          match completed.1 with
          | .error reason => some (ended.goto dispatch (.leave (.error reason)))
          | .ok () => some (ended.goto dispatch (.leave (resultOf call outcome)))
  | _ => none

omit [Infra] in
/-- The admission count is taken back, on return and on an exception. -/
def leave (world : DispatchWorld) (dispatch : Nat) : Option DispatchWorld :=
  match world.dispatches dispatch with
  | .leave result =>
      some ({ world with inflight := world.inflight - 1 }.goto dispatch
        (.returned result))
  | .unwind =>
      some ({ world with inflight := world.inflight - 1 }.goto dispatch .thrown)
  | _ => none

omit [Infra] in
def drain (world : DispatchWorld) (key : String) : Option DispatchWorld :=
  match world.mailboxes key with
  | none => none
  | some mailbox =>
      match mailbox.takeNext with
      | none => none
      | some (taken, after) =>
          some { world.setMailbox key after with
            started := world.started ++ taken.toList }

omit [Infra] in
/-- The running task of a mailbox ends; a handler that threw leaves the slot
and the waiter alone. -/
def endTask (world : DispatchWorld) (key : String)
    (outcome : Option (Except Error Bytes)) : Option DispatchWorld :=
  match world.mailboxes key with
  | none => none
  | some mailbox =>
      match mailbox.endTask with
      | none => none
      | some (task, after) =>
          match outcome with
          | none => some (world.setMailbox key after)
          | some result =>
              some ((world.setMailbox key after).setSlot task.dispatch
                ⟨result, true⟩)

def call (world : DispatchWorld) (incoming : IncomingCallContext)
    (request : RpcEnvelope) : Option DispatchWorld :=
  if request.service = world.service then
    some (({ world with count := world.count + 1 }.goto world.count
      (.check incoming request)).setSlot world.count emptySlot)
  else none

def next (world : DispatchWorld) : DispatchStep → Option DispatchWorld
  | .call incoming request => world.call incoming request
  | .check dispatch => world.check dispatch
  | .read dispatch now => world.read dispatch now
  | .invoke dispatch outcome => world.invoke dispatch outcome
  | .admitting dispatch => world.admitting dispatch
  | .activate dispatch outcome => world.activate dispatch outcome
  | .findMailbox dispatch => world.findMailbox dispatch
  | .createWaiter dispatch created => world.createWaiter dispatch created
  | .enqueue dispatch registration => world.enqueue dispatch registration
  | .failWait dispatch status => world.failWait dispatch status
  | .resume dispatch status => world.resume dispatch status
  | .complete dispatch => world.complete dispatch
  | .leave dispatch => world.leave dispatch
  | .drain key => world.drain key
  | .endTask key outcome => world.endTask key outcome

end DispatchWorld

/-- Every interleaving of calls on one service, whose ingress has any history of
grants, admissions and completions behind it. -/
def dispatchMachine : Machine DispatchWorld DispatchStep where
  init world :=
    (∃ history, ingressMachine.Reachable history ∧
      world.ingress = history.ingress) ∧
    world.inflight = 0 ∧ world.count = 0 ∧ world.started = [] ∧
    (∀ key, world.mailboxes key = none) ∧
    ∀ dispatch, world.dispatches dispatch = .idle
  next := DispatchWorld.next

end

end BbtFramework.Inbound
