import BbtFramework.Library.Table
import BbtFramework.Ordered.Grant

/-!
# The sending side of ordered calls

`OrderedSession` hands out tickets with the sequences 1, 2, 3, and so on, and
binds each ticket to the content of its first send.  Tickets are shared objects:
the list `heap` holds them all, and a stamp is the index of its ticket.
-/

namespace BbtFramework.Ordered

open BbtFramework.Library

/-- The content a ticket is bound to at its first send. -/
structure BoundContent where
  service : String
  method : String
  actorKey : String
  custom : String
  requestBytes : String
  deriving DecidableEq, Repr

structure OrderedTicket where
  sequence : UInt64
  requestId : String
  bound : Option BoundContent := none
  deriving DecidableEq, Repr

def OrderedTicket.isSent (ticket : OrderedTicket) : Bool := ticket.bound.isSome

/-- Bind an unbound ticket, or compare with the content already bound. -/
def OrderedTicket.bindOrCheck (ticket : OrderedTicket) (content : BoundContent) :
    Bool × OrderedTicket :=
  match ticket.bound with
  | none => (true, { ticket with bound := some content })
  | some bound => (bound == content, ticket)

/-- A stamp refers to a ticket of the heap. -/
abbrev OrderedStamp := Nat

/-- A session with the tickets it issued.  `live` is false once the last shared
pointer to the session is gone. -/
structure OrderedSession where
  grant : OrderedGrant
  instanceId : UInt64
  nextSequence : UInt64
  exhausted : Bool := false
  bindWatermark : UInt64 := 0
  tickets : Table String OrderedStamp := ∅
  heap : List OrderedTicket := []
  live : Bool := true

namespace OrderedSession

/-- A new incarnation of the grant's stream. -/
def openSession (grant : OrderedGrant) (instanceId : UInt64) : OrderedSession where
  grant := grant
  instanceId := instanceId
  nextSequence := 1

def makeRequestId (session : OrderedSession) (sequence : UInt64) : String :=
  session.grant.producerId ++ "/" ++ session.grant.producerEpoch ++ "/" ++
    session.grant.receiverEpoch ++ "/" ++ toString session.instanceId.toNat ++
    "/" ++ toString sequence.toNat

section

variable [Infra]

def prepare (session : OrderedSession) :
    Except Error OrderedStamp × OrderedSession :=
  if session.exhausted then
    (.error (makeError .internalError
      "ordered sequence space exhausted; refusing to wrap"), session)
  else
    let sequence := session.nextSequence
    let last := sequence == UInt64.ofNat (2 ^ 64 - 1)
    let ticket : OrderedTicket :=
      { sequence := sequence, requestId := session.makeRequestId sequence }
    (.ok session.heap.length,
      { session with
        exhausted := last
        nextSequence := if last then sequence else sequence + 1
        heap := session.heap ++ [ticket]
        tickets := Table.emplace session.tickets ticket.requestId
          session.heap.length })

def notIssuedError : Error :=
  makeError .invalidArgument "ordered stamp not issued by this session"

def ticketConflictError : Error :=
  orderedDomainError OrderedDomainCode.sequenceConflict
    "ordered ticket already bound to a different request"

/-- The binding step of a send: a first send must be the next in order, a
repeated send must carry the content already bound. -/
def bindForSend (session : OrderedSession) (stamp : OrderedStamp)
    (content : BoundContent) : Except Error Unit × OrderedSession :=
  match session.heap[stamp]? with
  | none => (.error (makeError .invalidArgument "empty ordered stamp"), session)
  | some ticket =>
      if session.tickets.lookup ticket.requestId ≠ some stamp then
        (.error notIssuedError, session)
      else if ticket.isSent then
        if (ticket.bindOrCheck content).1 then (.ok (), session)
        else (.error ticketConflictError, session)
      else if ticket.sequence ≠ session.bindWatermark + 1 then
        (.error (sequenceGapError "first send would skip an unsent ticket"
          (session.bindWatermark + 1)), session)
      else
        (.ok (),
          { session with
            heap := session.heap.set stamp (ticket.bindOrCheck content).2
            bindWatermark := session.bindWatermark + 1 })

end

def Numbered (session : OrderedSession) : Prop :=
  (∀ stamp ticket, session.heap[stamp]? = some ticket →
    ticket.sequence.toNat = stamp + 1) ∧
  (session.exhausted = false →
    session.nextSequence.toNat = session.heap.length + 1)

/-- Every ticket of `before` is still there, and what it was bound to it still
is. -/
def Extends (before after : OrderedSession) : Prop :=
  after.grant = before.grant ∧
  ∀ (stamp : OrderedStamp) ticket, before.heap[stamp]? = some ticket →
    ∃ later, after.heap[stamp]? = some later ∧
      later.sequence = ticket.sequence ∧ later.requestId = ticket.requestId ∧
      (∀ content, ticket.bound = some content → later.bound = some content)

theorem Extends.refl (session : OrderedSession) : Extends session session :=
  ⟨rfl, fun _ ticket hticket => ⟨ticket, hticket, rfl, rfl, fun _ h => h⟩⟩

theorem Numbered.stamp_unique {session : OrderedSession}
    (hnumbered : session.Numbered) {left right : OrderedStamp}
    {leftTicket rightTicket : OrderedTicket}
    (hleft : session.heap[left]? = some leftTicket)
    (hright : session.heap[right]? = some rightTicket)
    (hsame : leftTicket.sequence = rightTicket.sequence) : left = right := by
  have hleftNumber := hnumbered.1 left leftTicket hleft
  have hrightNumber := hnumbered.1 right rightTicket hright
  rw [hsame] at hleftNumber
  exact Nat.add_right_cancel (hleftNumber.symm.trans hrightNumber)

theorem numbered_open (grant : OrderedGrant) (instanceId : UInt64) :
    (openSession grant instanceId).Numbered := by
  refine ⟨fun stamp ticket hticket => ?_, fun _ => rfl⟩
  simp [openSession] at hticket

section

variable [Infra]

theorem Numbered.prepare {session : OrderedSession}
    (hnumbered : session.Numbered) : session.prepare.2.Numbered := by
  unfold OrderedSession.prepare
  split
  · exact hnumbered
  · rename_i hopen
    have hnext := hnumbered.2 (by simpa using hopen)
    refine ⟨fun stamp ticket hticket => ?_, fun hlive => ?_⟩
    · simp only [List.getElem?_append] at hticket
      split at hticket
      · exact hnumbered.1 stamp ticket hticket
      · rename_i hge
        rw [List.getElem?_singleton] at hticket
        split at hticket
        · cases hticket
          rw [hnext]
          omega
        · cases hticket
    · have hne : session.nextSequence ≠ UInt64.ofNat (2 ^ 64 - 1) := by
        simpa using hlive
      have hlt := session.nextSequence.toNat_lt
      have hmax : session.nextSequence.toNat ≠ 2 ^ 64 - 1 := by
        intro heq
        refine hne (UInt64.toNat_inj.mp ?_)
        rw [heq]
        rfl
      have hadd : (session.nextSequence + 1).toNat =
          (session.nextSequence.toNat + 1) % 2 ^ 64 := by
        simp [UInt64.toNat_add]
      simp only [beq_iff_eq, if_neg hne, List.length_append, List.length_singleton]
      omega

theorem extends_prepare (session : OrderedSession) :
    Extends session session.prepare.2 := by
  unfold OrderedSession.prepare
  split
  · exact .refl session
  · refine ⟨rfl, fun stamp ticket hticket => ⟨ticket, ?_, rfl, rfl, fun _ h => h⟩⟩
    have hlt := (List.getElem?_eq_some_iff.mp hticket).1
    simp only [List.getElem?_append_left hlt, hticket]

theorem bindForSend_ok {session after : OrderedSession} {stamp : OrderedStamp}
    {content : BoundContent}
    (hbind : session.bindForSend stamp content = (.ok (), after)) :
    ∃ ticket, session.heap[stamp]? = some ticket ∧
      after.heap[stamp]? = some { ticket with bound := some content } := by
  unfold bindForSend at hbind
  cases hticket : session.heap[stamp]? with
  | none => simp [hticket] at hbind
  | some ticket =>
      refine ⟨ticket, rfl, ?_⟩
      simp only [hticket] at hbind
      split at hbind
      · cases hbind
      · split at hbind
        case isTrue hsent =>
          split at hbind
          case isTrue hsame =>
            cases hbind
            unfold OrderedTicket.bindOrCheck at hsame
            cases hbound : ticket.bound with
            | none => simp [OrderedTicket.isSent, hbound] at hsent
            | some bound =>
                simp only [hbound, beq_iff_eq] at hsame
                rw [hticket, ← hsame, ← hbound]
          case isFalse => cases hbind
        case isFalse hunsent =>
          split at hbind
          · cases hbind
          · cases hbind
            have hnone : ticket.bound = none := by
              simpa [OrderedTicket.isSent] using hunsent
            have hlt := (List.getElem?_eq_some_iff.mp hticket).1
            simp [List.getElem?_set_self hlt, OrderedTicket.bindOrCheck, hnone]

theorem extends_bindForSend (session : OrderedSession) (stamp : OrderedStamp)
    (content : BoundContent) :
    Extends session (session.bindForSend stamp content).2 := by
  unfold bindForSend
  cases hticket : session.heap[stamp]? with
  | none => exact .refl session
  | some ticket =>
      dsimp only
      split
      · exact .refl session
      · split
        · split
          · exact .refl session
          · exact .refl session
        case isFalse hunsent =>
          split
          · exact .refl session
          · refine ⟨rfl, fun other old hold => ?_⟩
            have hnone : ticket.bound = none := by
              simpa [OrderedTicket.isSent] using hunsent
            by_cases hsame : stamp = other
            · subst hsame
              have hlt := (List.getElem?_eq_some_iff.mp hticket).1
              rw [hticket] at hold
              cases hold
              refine ⟨{ ticket with bound := some content }, ?_, rfl, rfl, ?_⟩
              · simp [List.getElem?_set_self hlt, OrderedTicket.bindOrCheck, hnone]
              · intro bound hbound
                rw [hnone] at hbound
                cases hbound
            · refine ⟨old, ?_, rfl, rfl, fun _ h => h⟩
              simp only [List.getElem?_set_ne hsame, hold]

/-- Binding numbers no ticket anew. -/
theorem Numbered.bindForSend {session : OrderedSession}
    (hnumbered : session.Numbered) (stamp : OrderedStamp)
    (content : BoundContent) :
    (session.bindForSend stamp content).2.Numbered := by
  unfold OrderedSession.bindForSend
  cases hticket : session.heap[stamp]? with
  | none => exact hnumbered
  | some ticket =>
      dsimp only
      split
      · exact hnumbered
      · split
        · split <;> exact hnumbered
        case isFalse hunsent =>
          split
          · exact hnumbered
          · have hnone : ticket.bound = none := by
              simpa [OrderedTicket.isSent] using hunsent
            refine ⟨fun other old hold => ?_, fun hlive => ?_⟩
            · by_cases hsame : stamp = other
              · subst hsame
                have hlt := (List.getElem?_eq_some_iff.mp hticket).1
                simp only [List.getElem?_set_self hlt,
                  OrderedTicket.bindOrCheck, hnone, Option.some.injEq] at hold
                subst hold
                exact hnumbered.1 stamp ticket hticket
              · simp only [List.getElem?_set_ne hsame] at hold
                exact hnumbered.1 other old hold
            · simpa using hnumbered.2 hlive

end

end OrderedSession

end BbtFramework.Ordered
