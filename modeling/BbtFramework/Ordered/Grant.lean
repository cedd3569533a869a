import BbtFramework.Error

/-!
# Ordered stream grants

The authorised stream identity shared by the sending session and the receiving
ingress, and the six domain codes of ordered errors.
-/

namespace BbtFramework.Ordered

structure OrderedGrant where
  service : String
  actorKey : String
  producerId : String
  producerEpoch : String
  receiverEpoch : String
  peerPrincipal : String
  deriving DecidableEq, Repr

/-- The five fields that identify a stream; grants that agree on them and
differ in `peerPrincipal` conflict. -/
def sameOrderedStreamId (a b : OrderedGrant) : Bool :=
  a.service == b.service && a.actorKey == b.actorKey &&
    a.producerId == b.producerId && a.producerEpoch == b.producerEpoch &&
    a.receiverEpoch == b.receiverEpoch

def orderedErrorDomain : String := "framework.actor"

namespace OrderedDomainCode

def sequenceGap : String := "SequenceGap"
def inProgress : String := "InProgress"
def sequenceConflict : String := "SequenceConflict"
def resultExpired : String := "ResultExpired"
def orderedStampRequired : String := "OrderedStampRequired"
def streamRejected : String := "StreamRejected"

end OrderedDomainCode

/-- Ordered errors are `RemoteError`s of the actor domain. -/
def orderedDomainError [Infra] (domainCode message : String) : Error :=
  { makeError .remoteError message with
    domain := orderedErrorDomain
    domainCode := domainCode }

/-- An ordered error with details passes the boundary check where it is built;
an error the check refuses is replaced by the refusal. -/
def orderedDomainErrorWithDetails [Infra] (domainCode message : String)
    (details : List (String × String)) : Error :=
  let error := { orderedDomainError domainCode message with details := details }
  match validateErrorAtBoundary error with
  | .error reason => reason
  | .ok () => error

def sequenceGapError [Infra] (message : String) (expected : UInt64) : Error :=
  orderedDomainErrorWithDetails OrderedDomainCode.sequenceGap message
    [(errorDetailExpectedSequence, toString expected.toNat)]

/-- The answer to a sequence bound to another request. -/
def IsSequenceConflict (error : Error) : Prop :=
  error.code = .remoteError ∧ error.domainCode = OrderedDomainCode.sequenceConflict

instance (error : Error) : Decidable (IsSequenceConflict error) :=
  inferInstanceAs (Decidable (_ ∧ _))

/-- A sequence gap that the boundary did not refuse says so. -/
theorem sequenceGapError_domainCode [Infra] {message : String} {expected : UInt64}
    (hcode : (sequenceGapError message expected).code = .remoteError) :
    (sequenceGapError message expected).domainCode = OrderedDomainCode.sequenceGap := by
  unfold sequenceGapError orderedDomainErrorWithDetails at hcode ⊢
  dsimp only at hcode ⊢
  split at hcode
  case h_1 reason hrefused =>
    rw [validateErrorAtBoundary_code hrefused] at hcode
    cases hcode
  case h_2 => rfl

theorem sequenceGapError_not_conflict [Infra] (message : String)
    (expected : UInt64) : ¬ IsSequenceConflict (sequenceGapError message expected) := by
  rintro ⟨hcode, hdomain⟩
  rw [sequenceGapError_domainCode hcode] at hdomain
  exact absurd hdomain (by decide)

/-- The stream a sequence number counts in: one producer incarnation towards
one actor.  The receiver epoch is not part of it. -/
structure StreamKey where
  actorKey : String
  producerId : String
  producerEpoch : String
  deriving DecidableEq, Repr

def OrderedGrant.streamKey (grant : OrderedGrant) : StreamKey :=
  ⟨grant.actorKey, grant.producerId, grant.producerEpoch⟩

theorem sameOrderedStreamId_iff {a b : OrderedGrant} :
    sameOrderedStreamId a b = true ↔
      a.service = b.service ∧ a.streamKey = b.streamKey ∧
        a.receiverEpoch = b.receiverEpoch := by
  simp only [sameOrderedStreamId, OrderedGrant.streamKey, Bool.and_eq_true,
    beq_iff_eq, StreamKey.mk.injEq]
  tauto

theorem sameOrderedStreamId_comm (a b : OrderedGrant) :
    sameOrderedStreamId a b = sameOrderedStreamId b a := by
  rw [Bool.eq_iff_iff, sameOrderedStreamId_iff, sameOrderedStreamId_iff]
  constructor
  · rintro ⟨hservice, hkey, hepoch⟩
    exact ⟨hservice.symm, hkey.symm, hepoch.symm⟩
  · rintro ⟨hservice, hkey, hepoch⟩
    exact ⟨hservice.symm, hkey.symm, hepoch.symm⟩

theorem sameOrderedStreamId_trans {a b c : OrderedGrant}
    (hleft : sameOrderedStreamId a b = true) (hright : sameOrderedStreamId b c = true) :
    sameOrderedStreamId a c = true := by
  rw [sameOrderedStreamId_iff] at hleft hright ⊢
  exact ⟨hleft.1.trans hright.1, hleft.2.1.trans hright.2.1, hleft.2.2.trans hright.2.2⟩

end BbtFramework.Ordered
