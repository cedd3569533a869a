import BbtFramework.Error

/-!
# Envelopes, route fields and request contexts

The value types shared by the sending and the receiving side of a call.  A
byte vector is a list of bytes; where the source copies bytes into a string,
`bytesToString` gives each byte its own character.
-/

namespace BbtFramework.Rpc

abbrev Bytes := List UInt8

def byteToChar (byte : UInt8) : Char := Char.ofNat byte.toNat

def bytesToString (bytes : Bytes) : String :=
  String.ofList (bytes.map byteToChar)

theorem byteToChar_injective : Function.Injective byteToChar := by
  intro left right heq
  have htoNat : ∀ byte : UInt8, (byteToChar byte).toNat = byte.toNat := by
    intro byte
    have hlt := byte.toNat_lt
    have hvalid : byte.toNat.isValidChar := Or.inl (by omega)
    rw [byteToChar, Char.ofNat, dif_pos hvalid]
    rfl
  rw [← UInt8.toNat_inj, ← htoNat left, ← htoNat right, heq]

theorem bytesToString_injective : Function.Injective bytesToString := by
  intro left right heq
  exact List.map_injective_iff.mpr byteToChar_injective (String.ofList_injective heq)

structure RpcEnvelope where
  service : String
  method : String
  requestSchema : String
  responseSchema : String
  payload : Bytes
  requestId : String
  metadata : List (String × String)
  deriving DecidableEq, Repr

/-- Route fields chosen by the caller. -/
structure RouteFields where
  values : List (String × String)

/-- A point of the monotonic clock, in nanoseconds. -/
abbrev Deadline := Int

/-- The deadline that stands for no finite budget. -/
def Deadline.max : Deadline := 2 ^ 63 - 1

structure RequestContext where
  requestId : String
  actorKey : Option String
  deadline : Deadline
  peerPrincipal : String
  traceId : Option String
  deriving DecidableEq, Repr

/-- What infra verified about an incoming call. -/
structure IncomingCallContext where
  deadline : Deadline
  peerPrincipal : String
  deriving DecidableEq, Repr

def routePrefix : String := "route."
def fwTraceId : String := "fw.trace_id"
def fwProducerId : String := "fw.producer_id"
def fwProducerEpoch : String := "fw.producer_epoch"
def fwReceiverEpoch : String := "fw.receiver_epoch"
def fwSequence : String := "fw.sequence"

/-- `k.compare(0, 6, "route.") == 0`. -/
def isRouteKey (key : String) : Bool :=
  key.toList.take 6 == routePrefix.toList

theorem isRouteKey_append (name : String) : isRouteKey (routePrefix ++ name) = true := by
  simp [isRouteKey, String.toList_append, routePrefix]

end BbtFramework.Rpc
