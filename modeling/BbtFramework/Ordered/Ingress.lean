import BbtFramework.Library.Table
import BbtFramework.Ordered.Grant

/-!
# The receiving side of ordered calls

`OrderedIngress` decides which ordered requests a service executes.  It keeps
the granted streams, one sequence state for each stream, and one cache of
terminal replies shared by all streams and evicted in completion order.  Every
method below is one critical section of the source.
-/

namespace BbtFramework.Ordered

open BbtFramework.Library

/-- The terminal reply kept for duplicates: `payload` when `isOk`, else `error`. -/
structure OrderedTerminalReply where
  isOk : Bool
  payload : String
  error : Error
  deriving DecidableEq, Repr

/-- The ordered facts an inbound adapter extracts from one envelope. -/
structure OrderedIngressRequest where
  method : String
  actorKey : String
  peerPrincipal : String
  hasOrderedStamp : Bool
  producerId : String
  producerEpoch : String
  receiverEpoch : String
  sequence : UInt64
  requestId : String
  requestDigest : String
  deriving DecidableEq, Repr

def OrderedIngressRequest.streamKey (request : OrderedIngressRequest) : StreamKey :=
  ⟨request.actorKey, request.producerId, request.producerEpoch⟩

structure OrderedIngressConfig where
  service : String
  maxOrderedStreams : Nat
  maxCachedResults : Nat
  maxCachedResultBytes : Nat
  deriving DecidableEq, Repr

inductive DecisionKind where
  | execute
  | replay
  deriving DecidableEq, Repr

/-- What `admitRequest` hands to its caller and `complete` takes back.  It names the
stream and the sequence, and carries no receiver epoch. -/
structure Admission where
  kind : DecisionKind
  sequence : UInt64
  actorKey : String
  producerId : String
  producerEpoch : String
  replay : Option OrderedTerminalReply
  deriving DecidableEq, Repr

def Admission.streamKey (admission : Admission) : StreamKey :=
  ⟨admission.actorKey, admission.producerId, admission.producerEpoch⟩

structure InFlight where
  requestId : String
  digest : String
  deriving DecidableEq, Repr

/-- Sequences repeat across streams, so a cache key names both. -/
structure CachedKey where
  stream : StreamKey
  sequence : UInt64
  deriving DecidableEq, Repr

structure CachedResult where
  stream : StreamKey
  sequence : UInt64
  requestId : String
  digest : String
  reply : OrderedTerminalReply
  bytes : Nat
  deriving DecidableEq, Repr

/-- The sequence state of one stream.  `nextSequence` is the 64-bit counter of
the source and wraps; `cachedSeqs` repeats the stream's keys of the cache. -/
structure StreamState where
  nextSequence : UInt64 := 1
  inFlight : Table UInt64 InFlight := ∅
  cachedSeqs : Table UInt64 Unit := ∅

structure OrderedIngress where
  config : OrderedIngressConfig
  grants : List OrderedGrant := []
  streams : Table StreamKey StreamState := ∅
  cached : Table CachedKey CachedResult := ∅
  cachedOrder : List CachedKey := []
  cachedBytes : Nat := 0

def sameProducerStream (a b : OrderedGrant) : Bool :=
  a.actorKey == b.actorKey && a.producerId == b.producerId &&
    a.producerEpoch == b.producerEpoch

/-- The text bytes a kept reply counts for. -/
def replyBytes (reply : OrderedTerminalReply) : Nat :=
  if reply.isOk then reply.payload.length
  else
    reply.payload.length + reply.error.domain.length +
      reply.error.domainCode.length + reply.error.message.length +
      (reply.error.details.map (fun kv => kv.1.length + kv.2.length)).sum

section

variable [Infra]

def gapError (nextSequence : UInt64) : Error :=
  sequenceGapError "ordered sequence gap: future sequence not buffered"
    nextSequence

/-- The reply `complete` keeps: an error the boundary check refuses is replaced
by the refusal without details. -/
def terminalReply (reply : OrderedTerminalReply) : OrderedTerminalReply :=
  if reply.isOk then reply
  else
    match validateErrorAtBoundary reply.error with
    | .ok () => reply
    | .error safe => { reply with error := { safe with details := [] } }

end

namespace OrderedIngress

/-- `streams_[key]`: the state of a stream, created when it is missing. -/
def touchStream (ingress : OrderedIngress) (key : StreamKey) : OrderedIngress :=
  { ingress with streams := Table.emplace ingress.streams key {} }

def streamState (ingress : OrderedIngress) (key : StreamKey) : StreamState :=
  (ingress.streams.lookup key).getD {}

def setStream (ingress : OrderedIngress) (key : StreamKey)
    (state : StreamState) : OrderedIngress :=
  { ingress with streams := ingress.streams.insert key state }

def forgetCachedSeq (ingress : OrderedIngress) (key : CachedKey) :
    OrderedIngress :=
  match ingress.streams.lookup key.stream with
  | none => ingress
  | some state =>
      ingress.setStream key.stream
        { state with cachedSeqs := state.cachedSeqs.erase key.sequence }

/-- `_RemoveCached` with its key by value.  Eviction passes a reference to the element it
erases, which `TracedIngress.removeCached` models. -/
def removeCached (ingress : OrderedIngress) (key : CachedKey) : OrderedIngress :=
  match ingress.cached.lookup key with
  | none => ingress
  | some entry =>
      { ingress with
        cachedBytes := ingress.cachedBytes - entry.bytes
        cached := ingress.cached.erase key
        cachedOrder := ingress.cachedOrder.erase key }.forgetCachedSeq key

def dropStreamCache (ingress : OrderedIngress) (key : StreamKey) :
    OrderedIngress :=
  match ingress.streams.lookup key with
  | none => ingress
  | some state =>
      state.cachedSeqs.keys.foldl
        (fun ingress sequence => ingress.removeCached ⟨key, sequence⟩) ingress

def overLimits (ingress : OrderedIngress) : Bool :=
  ingress.config.maxCachedResults < ingress.cached.keys.length ||
    ingress.config.maxCachedResultBytes < ingress.cachedBytes

def evictLoop : Nat → OrderedIngress → OrderedIngress
  | 0, ingress => ingress
  | rounds + 1, ingress =>
      match ingress.cachedOrder with
      | [] => ingress
      | oldest :: _ =>
          if ingress.overLimits then evictLoop rounds (ingress.removeCached oldest)
          else ingress

/-- One round removes one key, so as many rounds as there are keys are enough. -/
def evictToLimits (ingress : OrderedIngress) : OrderedIngress :=
  evictLoop ingress.cachedOrder.length ingress

section

variable [Infra]

def create (config : OrderedIngressConfig) : Except Error OrderedIngress :=
  if config.service = "" then
    .error (makeError .invalidArgument "ordered ingress: empty service name")
  else if config.maxOrderedStreams = 0 ∨ config.maxCachedResults = 0 ∨
      config.maxCachedResultBytes = 0 then
    .error (makeError .invalidArgument
      "ordered ingress: max_ordered_streams, max_cached_results and max_cached_result_bytes must all be > 0")
  else .ok { config := config }

def supersededBy (grant old : OrderedGrant) : Bool :=
  sameProducerStream old grant && old.receiverEpoch != grant.receiverEpoch

/-- Revoke one grant: its cached replies and its sequence state go. -/
def revoke (ingress : OrderedIngress) (old : OrderedGrant) : OrderedIngress :=
  let ingress := ingress.dropStreamCache old.streamKey
  { ingress with streams := ingress.streams.erase old.streamKey }

def revokeSuperseded (ingress : OrderedIngress) (grant : OrderedGrant) :
    OrderedIngress :=
  let revoked :=
    (ingress.grants.filter (supersededBy grant)).foldl revoke ingress
  { revoked with
    grants := ingress.grants.filter (fun old => !supersededBy grant old) }

def install (ingress : OrderedIngress) (grant : OrderedGrant) : OrderedIngress :=
  let ingress := { ingress with grants := ingress.grants ++ [grant] }
  let ingress := ingress.touchStream grant.streamKey
  ingress.setStream grant.streamKey
    { ingress.streamState grant.streamKey with nextSequence := 1 }

def grantStream (ingress : OrderedIngress) (grant : OrderedGrant) :
    Except Error Unit × OrderedIngress :=
  if grant.service ≠ ingress.config.service then
    (.error (makeError .invalidArgument
      "ordered ingress: grant service does not match this ingress"), ingress)
  else if grant.service = "" ∨ grant.actorKey = "" ∨ grant.producerId = "" ∨
      grant.producerEpoch = "" ∨ grant.receiverEpoch = "" then
    (.error (makeError .invalidArgument
      "ordered ingress: grant has empty field; refusing to install"), ingress)
  else
    match ingress.grants.find? (fun entry => sameOrderedStreamId entry grant) with
    | some entry =>
        if entry = grant then (.ok (), ingress)
        else
          (.error (orderedDomainError OrderedDomainCode.streamRejected
            "ordered stream grant conflicts with the installed grant"), ingress)
    | none =>
        let revoked := ingress.revokeSuperseded grant
        if revoked.config.maxOrderedStreams ≤ revoked.grants.length then
          (.error (makeError .overloaded
            "ordered ingress: max_ordered_streams reached"), revoked)
        else (.ok (), revoked.install grant)

def authorized (ingress : OrderedIngress) (request : OrderedIngressRequest) :
    Bool :=
  match ingress.grants.find? (fun grant => grant.streamKey == request.streamKey) with
  | none => false
  | some grant =>
      grant.receiverEpoch == request.receiverEpoch &&
        grant.peerPrincipal == request.peerPrincipal

def sequenceConflictError : Error :=
  orderedDomainError OrderedDomainCode.sequenceConflict
    "ordered sequence already bound to a different request"

/-- The answer to a sequence already consumed; nothing is executed again. -/
def answerConsumed (ingress : OrderedIngress) (request : OrderedIngressRequest)
    (state : StreamState) : Except Error Admission :=
  match state.inFlight.lookup request.sequence with
  | some entry =>
      if entry.requestId = request.requestId ∧
          entry.digest = request.requestDigest then
        .error (orderedDomainError OrderedDomainCode.inProgress
          "ordered request of this sequence is still in progress")
      else .error sequenceConflictError
  | none =>
      match ingress.cached.lookup ⟨request.streamKey, request.sequence⟩ with
      | some entry =>
          if entry.requestId ≠ request.requestId ∨
              entry.digest ≠ request.requestDigest then
            .error sequenceConflictError
          else
            .ok
              { kind := .replay
                sequence := request.sequence
                actorKey := request.actorKey
                producerId := request.producerId
                producerEpoch := request.producerEpoch
                replay := some entry.reply }
      | none =>
          .error (orderedDomainError OrderedDomainCode.resultExpired
            "ordered result of this sequence was evicted from the cache")

def consume (ingress : OrderedIngress) (request : OrderedIngressRequest)
    (state : StreamState) : OrderedIngress :=
  ingress.setStream request.streamKey
    { state with
      inFlight := Table.emplace state.inFlight request.sequence
        ⟨request.requestId, request.requestDigest⟩
      nextSequence := state.nextSequence + 1 }

def executeAdmission (request : OrderedIngressRequest) : Admission where
  kind := .execute
  sequence := request.sequence
  actorKey := request.actorKey
  producerId := request.producerId
  producerEpoch := request.producerEpoch
  replay := none

def admitRequest (ingress : OrderedIngress) (request : OrderedIngressRequest) :
    Except Error Admission × OrderedIngress :=
  if !request.hasOrderedStamp then
    (.error (orderedDomainError OrderedDomainCode.orderedStampRequired
      "ordered ingress requires an ordered stamp on this target"), ingress)
  else if request.producerId = "" ∨ request.producerEpoch = "" ∨
      request.receiverEpoch = "" then
    (.error (orderedDomainError OrderedDomainCode.streamRejected
      "ordered stamp fields incomplete"), ingress)
  else if !ingress.authorized request then
    (.error (orderedDomainError OrderedDomainCode.streamRejected
      "ordered stream not authorized for this actor/producer/epoch/peer"), ingress)
  else
    let ingress := ingress.touchStream request.streamKey
    let state := ingress.streamState request.streamKey
    if request.sequence = 0 then (.error (gapError state.nextSequence), ingress)
    else if state.nextSequence < request.sequence then
      (.error (gapError state.nextSequence), ingress)
    else if request.sequence < state.nextSequence then
      (ingress.answerConsumed request state, ingress)
    else (.ok (executeAdmission request), ingress.consume request state)

/-- Keep a terminal reply unless it is too large on its own, then evict. -/
def store (ingress : OrderedIngress) (key : CachedKey) (entry : InFlight)
    (reply : OrderedTerminalReply) : OrderedIngress :=
  let bytes := replyBytes reply
  if ingress.config.maxCachedResultBytes < bytes then ingress
  else
    let state := ingress.streamState key.stream
    { ingress with
      cached := Table.emplace ingress.cached key
        ⟨key.stream, key.sequence, entry.requestId, entry.digest, reply, bytes⟩
      cachedOrder := ingress.cachedOrder ++ [key]
      cachedBytes := ingress.cachedBytes + bytes
      streams := ingress.streams.insert key.stream
        { state with
          cachedSeqs := Table.emplace state.cachedSeqs key.sequence () } }.evictToLimits

def complete (ingress : OrderedIngress) (admission : Admission)
    (reply : OrderedTerminalReply) : Except Error Unit × OrderedIngress :=
  if admission.kind ≠ .execute then
    (.error (makeError .invalidArgument
      "ordered ingress: complete requires an execute admission"), ingress)
  else
    match ingress.streams.lookup admission.streamKey with
    | none =>
        (.error (makeError .invalidArgument
          "ordered ingress: admission does not reference a live stream"), ingress)
    | some state =>
        match state.inFlight.lookup admission.sequence with
        | none =>
            (.error (makeError .invalidArgument
              "ordered ingress: admission is not in flight (already completed or not issued by this ingress)"),
              ingress)
        | some entry =>
            let ended := ingress.setStream admission.streamKey
              { state with inFlight := state.inFlight.erase admission.sequence }
            (.ok (), ended.store ⟨admission.streamKey, admission.sequence⟩ entry
              (terminalReply reply))

end

end OrderedIngress

end BbtFramework.Ordered
