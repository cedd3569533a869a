import BbtFramework.Library.Table
import BbtFramework.Rpc.Envelope

/-!
# Sending through the runtime state

`AppRuntimeState::Send` finds the route of a service, asks the policy, and gives the
envelope to the default egress or to the seam.  Everything before the transport can
refuse the envelope.
-/

namespace BbtFramework.Rpc

open BbtFramework.Library

structure RpcAddress where
  transport : String
  endpoint : String
  deriving DecidableEq, Repr

structure DynamicRouteSnapshot where
  revision : UInt64
  observedAt : Deadline
  endpoints : List RpcAddress
  deriving DecidableEq, Repr

/-- A service's view with its round-robin cursor. -/
structure DynamicRoute where
  snapshot : DynamicRouteSnapshot
  next : UInt64
  unavailable : Bool
  deriving DecidableEq, Repr

/-- The limit is in milliseconds, the clock in nanoseconds. -/
structure DynamicRouteTable where
  staleLimit : Int
  entries : Table String DynamicRoute

namespace DynamicRouteTable

def hasService (table : DynamicRouteTable) (service : String) : Bool :=
  (table.entries.lookup service).isSome

section

variable [Infra]

def notPublishedError (service : String) : Error :=
  makeError .notFound ("DynamicRouteTable::Resolve: service '" ++ service ++
    "' is not published by any provider")

def unavailableError (service : String) : Error :=
  makeError .runtimeUnavailable ("DynamicRouteTable::Resolve: service '" ++ service ++
    "' view was marked unavailable")

def noInstanceError (service : String) : Error :=
  makeError .notFound ("DynamicRouteTable::Resolve: service '" ++ service ++
    "' currently has no healthy instance")

def staleError (service : String) (staleLimit : Int) : Error :=
  makeError .runtimeUnavailable ("DynamicRouteTable::Resolve: service '" ++ service ++
    "' view is stale (no successful discovery within " ++ toString staleLimit ++ "ms)")

/-- One resolution, round-robin; the cursor moves only when an endpoint is given. -/
def resolve (table : DynamicRouteTable) (now : Deadline) (service : String) :
    Except Error RpcAddress × DynamicRouteTable :=
  match table.entries.lookup service with
  | none => (.error (notPublishedError service), table)
  | some entry =>
      if entry.unavailable then (.error (unavailableError service), table)
      else
        match entry.snapshot.endpoints with
        | [] => (.error (noInstanceError service), table)
        | first :: rest =>
            if table.staleLimit * 1000000 < now - entry.snapshot.observedAt then
              (.error (staleError service table.staleLimit), table)
            else
              let index := entry.next.toNat % (first :: rest).length
              (.ok ((first :: rest).getD index first), { table with
                entries := table.entries.insert service
                  { entry with next := entry.next + 1 } })

end

end DynamicRouteTable

structure RpcCallView where
  target : RpcAddress
  request : RpcEnvelope
  deadline : Deadline

/-- What a policy decides: it lets the call pass, with a tighter deadline if it
likes, or rejects it. -/
inductive RpcPolicyDecision where
  | allow (tightenedDeadline : Option Deadline)
  | reject (rejectError : Error)
  deriving DecidableEq

abbrev RpcPolicy :=
  RpcCallView → Except Error RpcPolicyDecision

/-- What the transport is given. -/
structure Delivery where
  target : RpcAddress
  envelope : RpcEnvelope
  deadline : Deadline

abbrev Transport :=
  Delivery → Except Error RpcEnvelope

/-- The outgoing half of the runtime state. -/
structure AppRuntimeState where
  routes : Table String RpcAddress
  dynamicRoutes : Option DynamicRouteTable
  rpcPolicy : Option RpcPolicy
  defaultEgress : Option Transport
  seamSend : Option Transport

/-- The two times the clock is read during a send. -/
structure SendClock where
  resolving : Deadline
  leaving : Deadline

namespace AppRuntimeState

section

variable [Infra]

def noTargetError (service : String) : Error :=
  makeError .notFound
    ("find_route: no configured target for service '" ++ service ++ "'")

/-- A service with a dynamic view does not fall back to its static address. -/
def findRoute (runtime : AppRuntimeState) (now : Deadline) (service : String) :
    Except Error RpcAddress × AppRuntimeState :=
  let static : Except Error RpcAddress :=
    match runtime.routes.lookup service with
    | none => .error (noTargetError service)
    | some address => .ok address
  match runtime.dynamicRoutes with
  | none => (static, runtime)
  | some table =>
      if table.hasService service then
        let (result, table) := table.resolve now service
        (result, { runtime with dynamicRoutes := some table })
      else (static, runtime)

def tightenedError : Error :=
  makeError .timedOut "rpc policy tightened deadline already expired"

def notConfiguredError : Error :=
  makeError .runtimeUnavailable "CoApp: rpc_send egress not configured"

def preflight (runtime : AppRuntimeState) (now : Deadline) (view : RpcCallView) :
    Except Error Deadline :=
  match runtime.rpcPolicy with
  | none => .ok view.deadline
  | some policy =>
      match policy view with
      | .error reason => .error reason
      | .ok (.reject rejectError) => .error rejectError
      | .ok (.allow tightenedDeadline) =>
          let deadline :=
            match tightenedDeadline with
            | some tightened => min view.deadline tightened
            | none => view.deadline
          if deadline ≤ now then .error tightenedError else .ok deadline

def transport (runtime : AppRuntimeState) : Except Error Transport :=
  match runtime.defaultEgress with
  | some egress => .ok egress
  | none =>
      match runtime.seamSend with
      | none => .error notConfiguredError
      | some seam => .ok seam

def beforeTransport (runtime : AppRuntimeState) (clock : SendClock) (envelope : RpcEnvelope)
    (deadline : Deadline) : Except Error (Transport × Delivery) :=
  match (runtime.findRoute clock.resolving envelope.service).1 with
  | .error reason => .error reason
  | .ok target =>
      match runtime.preflight clock.leaving ⟨target, envelope, deadline⟩ with
      | .error reason => .error reason
      | .ok tightened =>
          match runtime.transport with
          | .error reason => .error reason
          | .ok send => .ok (send, ⟨target, envelope, tightened⟩)

/-- `AppRuntimeState::Send`: its reply, what the transport was given, and the state
after it. -/
def send (runtime : AppRuntimeState) (clock : SendClock) (envelope : RpcEnvelope)
    (deadline : Deadline) :
    Except Error RpcEnvelope × Option Delivery × AppRuntimeState :=
  let after := (runtime.findRoute clock.resolving envelope.service).2
  match runtime.beforeTransport clock envelope deadline with
  | .error reason => (.error reason, none, after)
  | .ok (send, delivery) => (send delivery, some delivery, after)

end

end AppRuntimeState

end BbtFramework.Rpc
