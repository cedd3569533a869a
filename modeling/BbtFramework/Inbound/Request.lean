import BbtFramework.Library.Decimal
import BbtFramework.Library.Table
import BbtFramework.Ordered.Ingress
import BbtFramework.Rpc.Envelope

/-!
# What dispatch reads from an envelope

The checks `Dispatch` makes before it takes up a call, in their order: the
envelope's own fields, the metadata, the service, the method and its schema.
For an actor method of a service with ordered ingress they end in the request
the ingress is asked to admit.
-/

namespace BbtFramework.Inbound

open BbtFramework.Library
open BbtFramework.Ordered
open BbtFramework.Rpc

/-- One method of a service's table.  `extractKey` is present for actor methods
only and reads the actor key from the payload. -/
structure RpcMethod where
  name : String
  requestSchema : String
  responseSchema : String
  actorKeyed : Bool
  extractKey : Bytes → Except Error String

structure ServiceOptions where
  maxInflight : Nat
  mailboxCapacity : Nat
  orderedIngress : Bool
  deriving DecidableEq, Repr

/-- A dispatch table entry; `ingressBound` says whether its ordered ingress
pointer is set. -/
structure ServiceEntry where
  options : ServiceOptions
  table : List RpcMethod
  ingressBound : Bool

def maxRouteFieldCount : Nat := 16
def maxRouteKeyBytes : Nat := 64
def maxRouteValueBytes : Nat := 256

/-- The time kept back from the handler's budget to deliver the reply. -/
def replyDeliveryReserve : Int := 20 * 1000 * 1000

def isOrderedFwKey (key : String) : Bool :=
  key == fwProducerId || key == fwProducerEpoch || key == fwSequence ||
    key == fwReceiverEpoch

/-- Decimal text of a 64-bit number; the reader refuses what would overflow. -/
def parseUnsignedDecimal (text : String) : Option UInt64 :=
  if isUnsignedDecimal text then
    (Decimal.readDigits (2 ^ 64 - 1) text.toList).map UInt64.ofNat
  else none

theorem isUnsignedDecimal_toString (number : UInt64) :
    isUnsignedDecimal (toString number.toNat) = true := by
  simp only [isUnsignedDecimal, Nat.toString_eq_repr, Nat.toList_repr,
    Bool.and_eq_true, Bool.not_eq_true', List.isEmpty_eq_false_iff,
    List.all_eq_true]
  refine ⟨Nat.toDigits_ne_nil, fun c hc => ?_⟩
  have hdigit := Nat.isDigit_of_mem_toDigits (by decide) (by decide) hc
  simpa [Char.isDigit, Char.le_def] using hdigit

/-- The text of a 64-bit number is read back. -/
theorem parseUnsignedDecimal_toString (number : UInt64) :
    parseUnsignedDecimal (toString number.toNat) = some number := by
  have hlt := number.toNat_lt
  rw [parseUnsignedDecimal, if_pos (isUnsignedDecimal_toString number), Nat.toString_eq_repr,
    Nat.toList_repr, Decimal.readDigits_toDigits (by decide) _ (by omega)]
  simp

/-- The digest names its three parts with their lengths, so that no part can
run into the next. -/
def orderedRequestDigest (method actorKey : String) (payload : Bytes) : String :=
  let append (digest text : String) : String :=
    digest ++ toString text.length ++ ":" ++ text ++ "|"
  append (append (append "" method) actorKey) (bytesToString payload)

/-- What the metadata loop has collected. -/
structure MetadataFacts where
  custom : List (String × String) := []
  traceId : Option String := none
  producerId : String := ""
  producerEpoch : String := ""
  receiverEpoch : String := ""
  sequence : UInt64 := 0
  hasSequenceField : Bool := false
  deriving DecidableEq, Repr

section

variable [Infra]

def errInvalid (what : String) : Error := makeError .invalidArgument what

def readRouteField (facts : MetadataFacts) (key value : String) :
    Except Error MetadataFacts :=
  let name := String.ofList (key.toList.drop 6)
  if name = "" ∨ maxRouteKeyBytes < name.length ∨
      maxRouteValueBytes < value.length then
    .error (errInvalid "route.* field out of bounds")
  else if maxRouteFieldCount ≤ facts.custom.length then
    .error (errInvalid "too many route.* fields")
  else .ok { facts with custom := facts.custom ++ [(name, value)] }

def readSequenceField (facts : MetadataFacts) (value : String) :
    Except Error MetadataFacts :=
  if !isUnsignedDecimal value then
    .error (errInvalid "fw.sequence must be unsigned decimal")
  else
    match parseUnsignedDecimal value with
    | none => .error (errInvalid "fw.sequence exceeds uint64 range")
    | some sequence =>
        .ok { facts with sequence := sequence, hasSequenceField := true }

/-- The text fields of the ordered stamp. -/
def setOrderedField (facts : MetadataFacts) (key value : String) : MetadataFacts :=
  if key = fwProducerId then { facts with producerId := value }
  else if key = fwProducerEpoch then { facts with producerEpoch := value }
  else if key = fwReceiverEpoch then { facts with receiverEpoch := value }
  else facts

def readOrderedField (facts : MetadataFacts) (key value : String) :
    Except Error MetadataFacts :=
  if value = "" then .error (errInvalid ("malformed " ++ key))
  else if key = fwSequence then readSequenceField facts value
  else .ok (setOrderedField facts key value)

/-- One round of the metadata loop. -/
def readField (facts : MetadataFacts) (field : String × String) :
    Except Error MetadataFacts :=
  let key := field.1
  let value := field.2
  if isRouteKey key then readRouteField facts key value
  else if key = fwTraceId then .ok { facts with traceId := some value }
  else if isOrderedFwKey key then readOrderedField facts key value
  else .error (errInvalid ("metadata key outside route.*: " ++ key))

def readMetadata (metadata : List (String × String)) :
    Except Error MetadataFacts :=
  metadata.foldlM readField {}

def findMethod (table : List RpcMethod) (name : String) : Option RpcMethod :=
  table.find? (fun method => method.name == name)

/-- The facts a call is dispatched with. -/
structure Accepted where
  entry : ServiceEntry
  method : RpcMethod
  facts : MetadataFacts

/-- Steps 1 to 3 of `Dispatch`. -/
def checkRequest (services : Table String ServiceEntry) (request : RpcEnvelope) :
    Except Error Accepted :=
  if request.service = "" ∨ request.method = "" then
    .error (errInvalid "inbound envelope missing service/method")
  else if request.requestId = "" then
    .error (errInvalid "inbound envelope missing request_id")
  else
    match readMetadata request.metadata with
    | .error reason => .error reason
    | .ok facts =>
        match services.lookup request.service with
        | none =>
            .error (makeError .notFound
              ("inbound dispatch: unregistered service '" ++ request.service ++ "'"))
        | some entry =>
            match findMethod entry.table request.method with
            | none =>
                .error (makeError .notFound
                  ("inbound dispatch: unknown method '" ++ request.method ++
                    "' on service '" ++ request.service ++ "'"))
            | some method =>
                if request.requestSchema ≠ method.requestSchema then
                  .error (makeError .typeMismatch
                    ("inbound dispatch: request schema mismatch on '" ++
                      request.service ++ "." ++ request.method ++ "'"))
                else .ok ⟨entry, method, facts⟩

/-- The request the ingress is asked to admit. -/
def orderedRequest (incoming : IncomingCallContext) (request : RpcEnvelope)
    (facts : MetadataFacts) (key : String) : OrderedIngressRequest where
  method := request.method
  actorKey := key
  peerPrincipal := incoming.peerPrincipal
  hasOrderedStamp := facts.hasSequenceField
  producerId := facts.producerId
  producerEpoch := facts.producerEpoch
  receiverEpoch := facts.receiverEpoch
  sequence := facts.sequence
  requestId := request.requestId
  requestDigest := orderedRequestDigest request.method key request.payload

def handlerDeadline (incoming : IncomingCallContext) : Deadline :=
  incoming.deadline - replyDeliveryReserve

def overloadedError (request : RpcEnvelope) : Error :=
  makeError .overloaded
    ("inbound dispatch: service '" ++ request.service ++ "' reached max_inflight")

def expiredError : Error :=
  makeError .timedOut
    "inbound request budget already expired before handler entry"

def ingressUnboundError (request : RpcEnvelope) : Error :=
  makeError .runtimeUnavailable
    ("ordered ingress is not bound for service '" ++ request.service ++ "'")

/-- The part of `Dispatch` that leads to the ingress.  The service's admission
count and the clock are the caller's; a call that needs no admission yields
`none`. -/
def admissionRequest (services : Table String ServiceEntry)
    (incoming : IncomingCallContext) (hasRoom : Bool) (now : Deadline)
    (request : RpcEnvelope) : Except Error (Option OrderedIngressRequest) :=
  match checkRequest services request with
  | .error reason => .error reason
  | .ok accepted =>
      if !hasRoom then .error (overloadedError request)
      else if handlerDeadline incoming ≤ now then .error expiredError
      else if !accepted.method.actorKeyed then .ok none
      else
        match accepted.method.extractKey request.payload with
        | .error reason => .error reason
        | .ok key =>
            if !accepted.entry.options.orderedIngress then .ok none
            else if !accepted.entry.ingressBound then
              .error (ingressUnboundError request)
            else .ok (some (orderedRequest incoming request accepted.facts key))

end

end BbtFramework.Inbound
