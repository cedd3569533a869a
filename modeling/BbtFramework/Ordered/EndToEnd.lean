import BbtFramework.Inbound.Request
import BbtFramework.Ordered.IngressLedger
import BbtFramework.Rpc.CallSend

/-!
# Ordered calls end to end

One session opened with a grant, one ingress holding the same grant, and a
network between them that keeps every envelope ever sent and may deliver it at
any time, any number of times, or never.  The admissions for execution on the
stream are the tickets 1, 2, 3, and so on, with the content of their first
send, and no delivered envelope is answered with a sequence conflict.
-/

namespace BbtFramework.Ordered

open BbtFramework.Inbound
open BbtFramework.Library
open BbtFramework.Rpc
open OrderedIngress

/-- Both ends and the network.  `executed` lists the envelopes admitted for
execution on the granted stream, in the order of the decisions. -/
structure EndToEndWorld where
  sender : Sender
  sent : List RpcEnvelope := []
  receiver : IngressWorld
  executed : List (RpcEnvelope × OrderedIngressRequest) := []

/-- The steps: the caller prepares and sends, the network delivers any sent
envelope, handlers complete, and other producers use the same ingress. -/
inductive EndToEndStep where
  | prepare
  | send (environment : SendEnvironment) (arguments : SendArguments)
  | dropSession
  | deliver (envelope : RpcEnvelope) (incoming : IncomingCallContext)
      (hasRoom : Bool) (now : Deadline)
  | complete (issue : Issued) (reply : OrderedTerminalReply)
  | otherGrant (grant : OrderedGrant)
  | otherAdmit (request : OrderedIngressRequest)

/-- The producer incarnation a grant or a request names. -/
def OrderedGrant.producer (grant : OrderedGrant) : String × String :=
  (grant.producerId, grant.producerEpoch)

def OrderedIngressRequest.producer (request : OrderedIngressRequest) :
    String × String :=
  (request.producerId, request.producerEpoch)

section

variable [Infra]

def receive (services : Table String ServiceEntry) (grant : OrderedGrant)
    (envelope : RpcEnvelope) (incoming : IncomingCallContext) (hasRoom : Bool)
    (now : Deadline) : Option OrderedIngressRequest :=
  if envelope.service = grant.service then
    match admissionRequest services incoming hasRoom now envelope with
    | .ok request => request
    | .error _ => none
  else none

/-- The decision the ingress takes on a request. -/
def executes (ingress : OrderedIngress) (request : OrderedIngressRequest) : Bool :=
  match (ingress.admitRequest request).1 with
  | .ok ticket => ticket.kind = .execute
  | .error _ => false

def EndToEndWorld.deliver (services : Table String ServiceEntry)
    (grant : OrderedGrant) (world : EndToEndWorld) (envelope : RpcEnvelope)
    (incoming : IncomingCallContext) (hasRoom : Bool) (now : Deadline) :
    EndToEndWorld :=
  match receive services grant envelope incoming hasRoom now with
  | none => world
  | some request =>
      { world with
        receiver := world.receiver.next (.admitRequest request)
        executed :=
          if executes world.receiver.ingress request then
            world.executed ++ [(envelope, request)]
          else world.executed }

def endToEnd (services : Table String ServiceEntry) (grant : OrderedGrant) :
    Machine EndToEndWorld EndToEndStep where
  init world := ∃ config instanceId ingress,
    OrderedIngress.create config = .ok ingress ∧
    (ingress.grantStream grant).1 = .ok () ∧
    world =
      { sender := { session := OrderedSession.openSession grant instanceId }
        receiver := IngressWorld.next { ingress := ingress } (.grant grant) }
  next world
    | .prepare =>
        some { world with
          sender :=
            { world.sender with session := world.sender.session.prepare.2 } }
    | .send environment arguments =>
        let outcome := (callSend environment arguments world.sender).2
        some { world with
          sender := outcome.sender
          sent := world.sent ++ outcome.sent.toList }
    | .dropSession =>
        some { world with
          sender :=
            { world.sender with
              session := { world.sender.session with live := false } } }
    | .deliver envelope incoming hasRoom now =>
        if envelope ∈ world.sent then
          some (world.deliver services grant envelope incoming hasRoom now)
        else none
    | .complete issue reply =>
        some { world with receiver := world.receiver.next (.complete issue reply) }
    | .otherGrant other =>
        if other.producer ≠ grant.producer then
          some { world with receiver := world.receiver.next (.grant other) }
        else none
    | .otherAdmit request =>
        if request.producer ≠ grant.producer then
          some { world with receiver := world.receiver.next (.admitRequest request) }
        else none

omit [Infra] in
theorem bind_ok {α β : Type} {first : Except Error α} {rest : α → Except Error β}
    {result : β} (hbind : first >>= rest = .ok result) :
    ∃ value, first = .ok value ∧ rest value = .ok result := by
  cases first with
  | error reason => cases hbind
  | ok value => exact ⟨value, rfl, hbind⟩

theorem readField_route {facts next : MetadataFacts} {field : String × String}
    (hkey : isRouteKey field.1 = true) (hread : readField facts field = .ok next) :
    ∃ custom, next = { facts with custom := custom } := by
  unfold readField at hread
  simp only [hkey, if_true, readRouteField] at hread
  split at hread
  · cases hread
  · split at hread
    · cases hread
    · cases hread
      exact ⟨_, rfl⟩

theorem readMetadata_route {facts next : MetadataFacts}
    {route : List (String × String)}
    (hkeys : ∀ field ∈ route, isRouteKey field.1 = true)
    (hread : route.foldlM readField facts = .ok next) :
    ∃ custom, next = { facts with custom := custom } := by
  induction route generalizing facts with
  | nil =>
      refine ⟨next.custom, ?_⟩
      cases hread
      rfl
  | cons field rest ih =>
      rw [List.foldlM_cons] at hread
      obtain ⟨middle, hfield, hrest⟩ := bind_ok hread
      obtain ⟨custom, rfl⟩ := readField_route (hkeys field List.mem_cons_self) hfield
      obtain ⟨last, hlast⟩ :=
        ih (fun other hother => hkeys other (List.mem_cons_of_mem _ hother)) hrest
      exact ⟨last, hlast⟩

theorem readField_fw {facts : MetadataFacts} {key value : String}
    (hkey : key ∈ [fwProducerId, fwProducerEpoch, fwReceiverEpoch, fwSequence]) :
    readField facts (key, value) = readOrderedField facts key value := by
  have hfields : ∀ key ∈ [fwProducerId, fwProducerEpoch, fwReceiverEpoch, fwSequence],
      isRouteKey key = false ∧ key ≠ fwTraceId ∧ isOrderedFwKey key = true := by
    decide
  obtain ⟨hroute, htrace, hordered⟩ := hfields key hkey
  simp only [readField, hroute, htrace, hordered, Bool.false_eq_true, if_true,
    if_false]

theorem readField_text_of_ne {facts : MetadataFacts} {key value : String}
    (hkey : key ∈ [fwProducerId, fwProducerEpoch, fwReceiverEpoch]) (hvalue : value ≠ "") :
    readField facts (key, value) = .ok (setOrderedField facts key value) := by
  have hne : ∀ key ∈ [fwProducerId, fwProducerEpoch, fwReceiverEpoch],
      key ≠ fwSequence := by decide
  rw [readField_fw (List.mem_append_left [fwSequence] hkey), readOrderedField, if_neg hvalue,
    if_neg (hne key hkey)]

theorem readField_text {facts next : MetadataFacts} {key value : String}
    (hkey : key ∈ [fwProducerId, fwProducerEpoch, fwReceiverEpoch])
    (hread : readField facts (key, value) = .ok next) :
    next = setOrderedField facts key value := by
  by_cases hvalue : value = ""
  · rw [readField_fw (List.mem_append_left [fwSequence] hkey), readOrderedField,
      if_pos hvalue] at hread
    cases hread
  · rw [readField_text_of_ne hkey hvalue] at hread
    exact (Except.ok.inj hread).symm

/-- A sequence written in decimal is read back. -/
theorem readField_sequence_eq {facts : MetadataFacts} (sequence : UInt64) :
    readField facts (fwSequence, toString sequence.toNat) =
      .ok { facts with sequence := sequence, hasSequenceField := true } := by
  have hdecimal := isUnsignedDecimal_toString sequence
  have hnonempty : toString sequence.toNat ≠ "" := by
    intro hempty
    rw [hempty] at hdecimal
    cases hdecimal
  rw [readField_fw (by simp), readOrderedField, if_neg hnonempty, if_pos rfl]
  simp only [readSequenceField, hdecimal, parseUnsignedDecimal_toString, Bool.not_true,
    Bool.false_eq_true, if_false]

theorem readField_sequence {facts next : MetadataFacts} {sequence : UInt64}
    (hread : readField facts (fwSequence, toString sequence.toNat) = .ok next) :
    next = { facts with sequence := sequence, hasSequenceField := true } := by
  rw [readField_sequence_eq] at hread
  exact (Except.ok.inj hread).symm

theorem readMetadata_ordered {route : List (String × String)}
    {grant : OrderedGrant} {sequence : UInt64} {facts : MetadataFacts}
    (hkeys : ∀ field ∈ route, isRouteKey field.1 = true)
    (hread : readMetadata (route ++ orderedMetadata grant sequence) = .ok facts) :
    ∃ custom, facts =
      { custom := custom
        producerId := grant.producerId
        producerEpoch := grant.producerEpoch
        receiverEpoch := grant.receiverEpoch
        sequence := sequence
        hasSequenceField := true } := by
  unfold readMetadata at hread
  rw [List.foldlM_append] at hread
  obtain ⟨start, hroute, hread⟩ := bind_ok hread
  obtain ⟨custom, rfl⟩ := readMetadata_route hkeys hroute
  obtain ⟨producer, hproducer, hread⟩ := bind_ok hread
  obtain ⟨epoch, hepoch, hread⟩ := bind_ok hread
  obtain ⟨receiver, hreceiver, hread⟩ := bind_ok hread
  obtain ⟨last, hsequence, hread⟩ := bind_ok hread
  cases hread
  refine ⟨custom, ?_⟩
  rw [readField_sequence hsequence, readField_text (by simp) hreceiver,
    readField_text (by simp) hepoch, readField_text (by simp) hproducer]
  rfl

/-- A delivered envelope asks for the admission of what its metadata says. -/
theorem receive_some {services : Table String ServiceEntry}
    {grant : OrderedGrant} {envelope : RpcEnvelope}
    {incoming : IncomingCallContext} {hasRoom : Bool} {now : Deadline}
    {request : OrderedIngressRequest}
    (hreceive : receive services grant envelope incoming hasRoom now =
      some request) :
    ∃ facts key, readMetadata envelope.metadata = .ok facts ∧
      request = orderedRequest incoming envelope facts key := by
  unfold receive at hreceive
  split at hreceive
  case isFalse => cases hreceive
  case isTrue =>
    cases hadmission : admissionRequest services incoming hasRoom now envelope with
    | error reason => simp [hadmission] at hreceive
    | ok found =>
        rw [hadmission] at hreceive
        cases hreceive
        unfold admissionRequest at hadmission
        cases hcheck : checkRequest services envelope with
        | error reason => simp [hcheck] at hadmission
        | ok accepted =>
            have hfacts : readMetadata envelope.metadata = .ok accepted.facts := by
              unfold checkRequest at hcheck
              split at hcheck
              · cases hcheck
              · split at hcheck
                · cases hcheck
                · split at hcheck
                  · cases hcheck
                  case _ facts hread =>
                    split at hcheck
                    · cases hcheck
                    · split at hcheck
                      · cases hcheck
                      · split at hcheck
                        · cases hcheck
                        · cases hcheck
                          exact hread
            simp only [hcheck] at hadmission
            refine ⟨accepted.facts, request.actorKey, hfacts, ?_⟩
            split at hadmission
            · cases hadmission
            · split at hadmission
              · cases hadmission
              · split at hadmission
                · cases hadmission
                · split at hadmission
                  · cases hadmission
                  · split at hadmission
                    · cases hadmission
                    · split at hadmission
                      · cases hadmission
                      · cases hadmission
                        rfl

/-! ## The invariant -/

def SentEnvelope (session : OrderedSession) (envelope : RpcEnvelope) : Prop :=
  (∀ field ∈ envelope.metadata, isRouteKey field.1 = true) ∨
  ∃ (stamp : OrderedStamp) (ticket : OrderedTicket) (route : List (String × String)),
    session.heap[stamp]? = some ticket ∧
    ticket.bound = some (boundContent session.grant envelope) ∧
    envelope.requestId = ticket.requestId ∧
    (∀ field ∈ route, isRouteKey field.1 = true) ∧
    envelope.metadata = route ++ orderedMetadata session.grant ticket.sequence

omit [Infra] in
theorem SentEnvelope.extends {before after : OrderedSession}
    {envelope : RpcEnvelope} (hsent : SentEnvelope before envelope)
    (hextends : OrderedSession.Extends before after) :
    SentEnvelope after envelope := by
  rcases hsent with hroute | ⟨stamp, ticket, route, hticket, hbound, hid, hkeys, hmeta⟩
  · exact .inl hroute
  · obtain ⟨later, hlater, hsequence, hlaterId, hkeep⟩ := hextends.2 stamp ticket hticket
    refine .inr ⟨stamp, later, route, hlater, ?_, hid.trans hlaterId.symm, hkeys, ?_⟩
    · rw [hextends.1]
      exact hkeep _ hbound
    · rw [hmeta, hextends.1, hsequence]

structure RequestOfTicket (session : OrderedSession) (envelope : RpcEnvelope)
    (request : OrderedIngressRequest) (ticket : OrderedTicket) : Prop where
  sequence : request.sequence = ticket.sequence
  requestId : request.requestId = ticket.requestId
  envelopeId : envelope.requestId = ticket.requestId
  method : request.method = envelope.method
  bound : ticket.bound = some (boundContent session.grant envelope)
  digest : request.requestDigest =
    orderedRequestDigest envelope.method request.actorKey envelope.payload

theorem SentEnvelope.request {services : Table String ServiceEntry}
    {grant : OrderedGrant} {session : OrderedSession} {envelope : RpcEnvelope}
    {incoming : IncomingCallContext} {hasRoom : Bool} {now : Deadline}
    {request : OrderedIngressRequest} (hsent : SentEnvelope session envelope)
    (hreceive : receive services grant envelope incoming hasRoom now =
      some request) (hstamp : request.hasOrderedStamp = true) :
    request.producer = session.grant.producer ∧
    ∃ (stamp : OrderedStamp) (ticket : OrderedTicket),
      session.heap[stamp]? = some ticket ∧
      RequestOfTicket session envelope request ticket := by
  obtain ⟨facts, key, hread, rfl⟩ := receive_some hreceive
  rcases hsent with hroute | ⟨stamp, ticket, route, hticket, hbound, hid, hkeys, hmeta⟩
  · obtain ⟨custom, rfl⟩ := readMetadata_route hroute hread
    cases hstamp
  · rw [hmeta] at hread
    obtain ⟨custom, rfl⟩ := readMetadata_ordered hkeys hread
    exact ⟨rfl, stamp, ticket, hticket, rfl, hid, hid, rfl, hbound, rfl⟩

/-- What holds of every reachable state of the system. -/
structure EndToEndInvariant (grant : OrderedGrant) (world : EndToEndWorld) :
    Prop where
  receiver : ingressMachine.Reachable world.receiver
  present : grant ∈ world.receiver.ingress.grants
  alone : ∀ other ∈ world.receiver.ingress.grants,
    other.producer = grant.producer → other = grant
  sessionGrant : world.sender.session.grant = grant
  numbered : world.sender.session.Numbered
  sent : ∀ envelope ∈ world.sent, SentEnvelope world.sender.session envelope
  log : (world.receiver.executions grant.streamKey).map Issued.request =
    world.executed.map Prod.snd
  executed : ∀ entry ∈ world.executed,
    ∃ (stamp : OrderedStamp) (ticket : OrderedTicket),
      world.sender.session.heap[stamp]? = some ticket ∧
      RequestOfTicket world.sender.session entry.1 entry.2 ticket

omit [Infra] in
theorem streamKey_ne {grant other : OrderedGrant}
    (hproducer : other.producer ≠ grant.producer) :
    grant.streamKey ≠ other.streamKey := by
  intro hkey
  refine hproducer ?_
  simp only [OrderedGrant.streamKey, StreamKey.mk.injEq] at hkey
  simp only [OrderedGrant.producer, hkey]

def ForeignCall (grant : OrderedGrant) : IngressCall → Prop
  | .grant other => other.producer ≠ grant.producer
  | .admitRequest request => request.producer ≠ grant.producer
  | .complete _ _ => True

theorem foreign_step {grant : OrderedGrant} {before after : IngressWorld}
    {call : IngressCall} (hledger : Ledger before)
    (hforeign : ForeignCall grant call)
    (heffect : IngressEffect before call after)
    (hpresent : grant ∈ before.ingress.grants)
    (halone : ∀ other ∈ before.ingress.grants,
      other.producer = grant.producer → other = grant) :
    grant ∈ after.ingress.grants ∧
    (∀ other ∈ after.ingress.grants,
      other.producer = grant.producer → other = grant) ∧
    after.executions grant.streamKey = before.executions grant.streamKey := by
  cases heffect with
  | unchanged => exact ⟨hpresent, halone, rfl⟩
  | refused => exact ⟨hpresent, halone, rfl⟩
  | @installed other _ hnew hinstalls hlist _ hissued =>
      have hne := streamKey_ne hforeign
      have hkept : supersededBy other grant = false := by
        rw [Bool.eq_false_iff]
        exact fun hsuper => hne (supersededBy_iff.mp hsuper).1
      refine ⟨?_, ?_, ?_⟩
      · rw [hinstalls.grants]
        exact List.mem_append_left _
          (List.mem_filter.mpr ⟨hpresent, by simp [hkept]⟩)
      · intro current hcurrent hproducer
        rw [hinstalls.grants] at hcurrent
        rcases List.mem_append.mp hcurrent with hold | hsame
        · exact halone current (List.mem_filter.mp hold).1 hproducer
        · rw [List.mem_singleton.mp hsame] at hproducer
          exact absurd hproducer hforeign
      · rw [hledger.executions_installed hissued hlist, if_neg hne]
  | @executed request found _ hgrant hconsumes hissued hlist =>
      rw [hconsumes.grants]
      refine ⟨hpresent, halone, ?_⟩
      rw [IngressWorld.executions_executed hissued hlist, if_neg]
      intro hkey
      refine hforeign ?_
      simp only [OrderedGrant.streamKey, OrderedIngressRequest.streamKey,
        StreamKey.mk.injEq] at hkey
      simp only [OrderedIngressRequest.producer, OrderedGrant.producer, hkey]
  | ended hends hissued hlist =>
      rw [hends.grants]
      exact ⟨hpresent, halone, IngressWorld.executions_congr hissued hlist _⟩

theorem admit_step {world : IngressWorld} (hconsistent : Consistent world.ingress)
    (request : OrderedIngressRequest) :
    (executes world.ingress request = false ∧
      world.next (.admitRequest request) = world) ∨
    (executes world.ingress request = true ∧ request.hasOrderedStamp = true ∧
      ∃ grant, world.ingress.Authorizes request grant ∧
        (world.next (.admitRequest request)).ingress.grants = world.ingress.grants ∧
        (world.next (.admitRequest request)).installs = world.installs ∧
        (world.next (.admitRequest request)).issued = world.issued ++
          [⟨executeAdmission request, request,
            world.session request.streamKey⟩]) := by
  rcases admit_cases hconsistent request with
    ⟨error, hadmitted⟩ | ⟨ticket, entry, grant, hadmitted, hkind, -⟩ |
    ⟨grant, hgrant, hresult, hconsumes, -⟩
  · refine .inl ⟨by simp [executes, hadmitted], ?_⟩
    simp [IngressWorld.next, IngressWorld.afterAdmit, hadmitted]
  · refine .inl ⟨by simp [executes, hadmitted, hkind], ?_⟩
    simp [IngressWorld.next, IngressWorld.afterAdmit, hadmitted, hkind]
  · have hstamp : request.hasOrderedStamp = true := by
      by_contra hnot
      unfold admitRequest at hresult
      rw [if_pos (by simpa using hnot)] at hresult
      cases hresult
    refine .inr ⟨?_, hstamp, grant, hgrant, ?_⟩
    · simp [executes, hresult, executeAdmission]
    · rw [next_admit_execute hresult]
      exact ⟨hconsumes.grants, rfl, rfl⟩

/-- No step takes a ticket away or changes what it is bound to. -/
theorem session_extends {services : Table String ServiceEntry}
    {grant : OrderedGrant} {before after : EndToEndWorld} {step : EndToEndStep}
    (hnext : (endToEnd services grant).next before step = some after) :
    OrderedSession.Extends before.sender.session after.sender.session := by
  cases step with
  | prepare =>
      cases hnext
      exact OrderedSession.extends_prepare _
  | send environment arguments =>
      cases hnext
      exact callSend_extends environment arguments before.sender
  | dropSession =>
      cases hnext
      exact ⟨rfl, fun _ ticket hticket =>
        ⟨ticket, hticket, rfl, rfl, fun _ hbound => hbound⟩⟩
  | deliver envelope incoming hasRoom now =>
      simp only [endToEnd] at hnext
      split at hnext
      · cases hnext
        unfold EndToEndWorld.deliver
        split <;> exact .refl _
      · cases hnext
  | complete issue reply =>
      cases hnext
      exact .refl _
  | otherGrant other =>
      simp only [endToEnd] at hnext
      split at hnext
      · cases hnext
        exact .refl _
      · cases hnext
  | otherAdmit request =>
      simp only [endToEnd] at hnext
      split at hnext
      · cases hnext
        exact .refl _
      · cases hnext

theorem EndToEndInvariant.initial {services : Table String ServiceEntry}
    {grant : OrderedGrant} {world : EndToEndWorld}
    (hinit : (endToEnd services grant).init world) :
    EndToEndInvariant grant world := by
  obtain ⟨config, instanceId, ingress, hcreate, hgranted, rfl⟩ := hinit
  have hstart : ingressMachine.init { ingress := ingress } :=
    ⟨config, ingress, hcreate, rfl⟩
  obtain ⟨found, hworld⟩ := init_eq hstart
  have hingress : ingress = { config := found } :=
    congrArg IngressWorld.ingress hworld
  subst hingress
  have hconsistent := Consistent.initial found
  have hreach : ingressMachine.Reachable
      (IngressWorld.next { ingress := { config := found } } (.grant grant)) :=
    reachable_next (.start hstart) _
  have hgrants : (IngressWorld.next { ingress := { config := found } }
      (.grant grant)).ingress.grants = [grant] := by
    rcases grantStream_cases hconsistent grant with
      ⟨-, hmem⟩ | ⟨-, -, hinstalls, -⟩
    · cases hmem hgranted
    · exact hinstalls.grants
  refine ⟨hreach, ?_, ?_, rfl, OrderedSession.numbered_open grant instanceId,
    by simp, ?_, by simp⟩
  · rw [hgrants]
    exact List.mem_singleton.mpr rfl
  · intro other hother _
    rw [hgrants] at hother
    exact List.mem_singleton.mp hother
  · rfl

theorem EndToEndInvariant.extend {grant : OrderedGrant}
    {before after : EndToEndWorld} (hinv : EndToEndInvariant grant before)
    (hextends : OrderedSession.Extends before.sender.session after.sender.session)
    (hnumbered : after.sender.session.Numbered)
    (hsent : ∀ envelope ∈ after.sent,
      envelope ∈ before.sent ∨ SentEnvelope after.sender.session envelope)
    (hreceiver : after.receiver = before.receiver)
    (hexecuted : after.executed = before.executed) :
    EndToEndInvariant grant after := by
  refine ⟨hreceiver ▸ hinv.receiver, hreceiver ▸ hinv.present,
    hreceiver ▸ hinv.alone, hextends.1.trans hinv.sessionGrant, hnumbered, ?_,
    by rw [hreceiver, hexecuted]; exact hinv.log, ?_⟩
  · intro envelope henvelope
    rcases hsent envelope henvelope with hold | hnew
    · exact (hinv.sent envelope hold).extends hextends
    · exact hnew
  · intro entry hentry
    rw [hexecuted] at hentry
    obtain ⟨stamp, ticket, hticket, hrequest⟩ := hinv.executed entry hentry
    obtain ⟨later, hlater, hsequence, hid, hkeep⟩ :=
      hextends.2 stamp ticket hticket
    refine ⟨stamp, later, hlater, hrequest.sequence.trans hsequence.symm,
      hrequest.requestId.trans hid.symm, hrequest.envelopeId.trans hid.symm,
      hrequest.method, ?_, hrequest.digest⟩
    rw [hextends.1]
    exact hkeep _ hrequest.bound

/-- A step of the receiver that serves no request of the grant's producer. -/
theorem EndToEndInvariant.foreign {grant : OrderedGrant}
    {world : EndToEndWorld} (hinv : EndToEndInvariant grant world)
    {call : IngressCall} (hforeign : ForeignCall grant call) :
    EndToEndInvariant grant { world with receiver := world.receiver.next call } := by
  have heffect := (next_effect (reachable_consistent hinv.receiver) call).1
  obtain ⟨hpresent, halone, hexecutions⟩ := foreign_step
    (reachable_ledger hinv.receiver) hforeign heffect hinv.present hinv.alone
  exact ⟨reachable_next hinv.receiver call, hpresent, halone, hinv.sessionGrant,
    hinv.numbered, hinv.sent, by rw [hexecutions]; exact hinv.log, hinv.executed⟩

theorem EndToEndInvariant.deliver {services : Table String ServiceEntry}
    {grant : OrderedGrant} {world : EndToEndWorld}
    (hinv : EndToEndInvariant grant world) {envelope : RpcEnvelope}
    (hsent : envelope ∈ world.sent) (incoming : IncomingCallContext)
    (hasRoom : Bool) (now : Deadline) :
    EndToEndInvariant grant
      (world.deliver services grant envelope incoming hasRoom now) := by
  unfold EndToEndWorld.deliver
  cases hreceive : receive services grant envelope incoming hasRoom now with
  | none => exact hinv
  | some request =>
      dsimp only
      rcases admit_step (reachable_consistent hinv.receiver) request with
        ⟨hrefused, hsame⟩ | ⟨hexecutes, hstamp, found, hfound, hgrants, hlist, hissued⟩
      · rw [hrefused, hsame]
        exact hinv
      · obtain ⟨hproducer, stamp, ticket, hticket, hrequest⟩ :=
          (hinv.sent envelope hsent).request hreceive hstamp
        rw [hinv.sessionGrant] at hproducer
        have hsameGrant : found = grant := by
          refine hinv.alone found hfound.1 ?_
          have hkey := hfound.2.1
          simp only [OrderedGrant.streamKey, OrderedIngressRequest.streamKey,
            StreamKey.mk.injEq] at hkey
          rw [← hproducer]
          simp only [OrderedGrant.producer, OrderedIngressRequest.producer, hkey]
        subst hsameGrant
        rw [hexecutes, if_pos rfl]
        have hreach := reachable_next hinv.receiver (.admitRequest request)
        refine ⟨hreach, ?_, ?_, hinv.sessionGrant,
          hinv.numbered, hinv.sent, ?_, ?_⟩
        · exact hgrants ▸ hinv.present
        · exact hgrants ▸ hinv.alone
        · rw [IngressWorld.executions_executed hissued hlist, if_pos hfound.2.1,
            List.map_append, List.map_append, hinv.log]
          rfl
        · intro entry hentry
          rcases List.mem_append.mp hentry with hold | hnew
          · exact hinv.executed entry hold
          · rw [List.mem_singleton.mp hnew]
            exact ⟨stamp, ticket, hticket, hrequest⟩

/-- What a send adds to the network is an envelope of a bound ticket. -/
theorem EndToEndInvariant.send {grant : OrderedGrant} {world : EndToEndWorld}
    (hinv : EndToEndInvariant grant world) (environment : SendEnvironment)
    (arguments : SendArguments) :
    EndToEndInvariant grant
      { world with
        sender := (callSend environment arguments world.sender).2.sender
        sent := world.sent ++
          (callSend environment arguments world.sender).2.sent.toList } := by
  have hextends := callSend_extends environment arguments world.sender
  have heffect := callSend_effect environment arguments world.sender
  generalize (callSend environment arguments world.sender).2 = state
    at hextends heffect ⊢
  cases heffect with
  | refused hsent hsession =>
      have hnumbered : state.sender.session.Numbered := by
        rcases hsession with hsame | ⟨stamp, content, hbind⟩
        · exact hsame ▸ hinv.numbered
        · exact hbind ▸ hinv.numbered.bindForSend stamp content
      refine hinv.extend hextends hnumbered (fun envelope henvelope => .inl ?_)
        rfl rfl
      simpa [hsent] using henvelope
  | @sent envelope hsent hsentAs =>
      have hnew : state.sender.session.Numbered ∧
          SentEnvelope state.sender.session envelope := by
        cases hsentAs with
        | unordered _ hsame hroute => exact ⟨hsame ▸ hinv.numbered, .inl hroute⟩
        | @ordered stamp route _ hbind hid hroute hmetadata =>
            have hnumbered := hinv.numbered.bindForSend stamp
              (boundContent world.sender.session.grant envelope)
            rw [hbind] at hnumbered
            obtain ⟨ticket, hticket, hafter⟩ := OrderedSession.bindForSend_ok hbind
            rw [← hextends.1] at hafter hmetadata
            simp only [stampRequestId, stampSequence, hticket] at hid hmetadata
            exact ⟨hnumbered, .inr ⟨stamp, _, route, hafter, rfl, hid, hroute, hmetadata⟩⟩
      refine hinv.extend hextends hnew.1 (fun other hother => ?_) rfl rfl
      simp only [hsent, Option.toList_some, List.mem_append,
        List.mem_singleton] at hother
      rcases hother with hold | rfl
      · exact .inl hold
      · exact .inr hnew.2

/-- Every step keeps the invariant. -/
theorem reachable_endToEndInvariant {services : Table String ServiceEntry}
    {grant : OrderedGrant} {world : EndToEndWorld}
    (hreach : (endToEnd services grant).Reachable world) :
    EndToEndInvariant grant world := by
  refine hreach.induct (fun _ hinit => EndToEndInvariant.initial hinit) ?_
  intro before step after _ hinv _ hnext
  cases step with
  | prepare =>
      cases hnext
      exact hinv.extend (OrderedSession.extends_prepare _) hinv.numbered.prepare
        (fun _ henvelope => .inl henvelope) rfl rfl
  | send environment arguments =>
      cases hnext
      exact hinv.send environment arguments
  | dropSession =>
      cases hnext
      exact hinv.extend ⟨rfl, fun _ ticket hticket =>
        ⟨ticket, hticket, rfl, rfl, fun _ h => h⟩⟩ hinv.numbered
        (fun _ henvelope => .inl henvelope) rfl rfl
  | deliver envelope incoming hasRoom now =>
      simp only [endToEnd] at hnext
      split at hnext
      · cases hnext
        exact hinv.deliver ‹_› incoming hasRoom now
      · cases hnext
  | complete issue reply =>
      cases hnext
      exact hinv.foreign (show ForeignCall grant (.complete issue reply) from trivial)
  | otherGrant other =>
      simp only [endToEnd] at hnext
      split at hnext
      · cases hnext
        exact hinv.foreign (show ForeignCall grant (.grant other) from ‹_›)
      · cases hnext
  | otherAdmit request =>
      simp only [endToEnd] at hnext
      split at hnext
      · cases hnext
        exact hinv.foreign (show ForeignCall grant (.admitRequest request) from ‹_›)
      · cases hnext

/-! ## Exactly once and in order -/

theorem EndToEndInvariant.same_request {services : Table String ServiceEntry}
    {grant : OrderedGrant} {world : EndToEndWorld}
    (hinv : EndToEndInvariant grant world) {envelope : RpcEnvelope}
    (hsent : envelope ∈ world.sent) {incoming : IncomingCallContext}
    {hasRoom : Bool} {now : Deadline} {request : OrderedIngressRequest}
    (hreceive : receive services grant envelope incoming hasRoom now =
      some request) (hstamp : request.hasOrderedStamp = true)
    {found : OrderedGrant}
    (hfound : world.receiver.ingress.Authorizes request found) {issue : Issued}
    (hissue : issue ∈ world.receiver.executions request.streamKey)
    (hsequence : issue.ticket.sequence = request.sequence) :
    issue.request.requestId = request.requestId ∧
      issue.request.requestDigest = request.requestDigest := by
  obtain ⟨hproducer, stamp, ticket, hticket, hrequest⟩ :=
    (hinv.sent envelope hsent).request hreceive hstamp
  rw [hinv.sessionGrant] at hproducer
  have hkey := hfound.2.1
  have hsameGrant : found = grant := by
    refine hinv.alone found hfound.1 ?_
    simp only [OrderedGrant.streamKey, OrderedIngressRequest.streamKey,
      StreamKey.mk.injEq] at hkey
    rw [← hproducer]
    simp only [OrderedGrant.producer, OrderedIngressRequest.producer, hkey]
  rw [hsameGrant] at hkey
  have hlogged : issue.request ∈ world.executed.map Prod.snd := by
    rw [← hinv.log, hkey]
    exact List.mem_map_of_mem hissue
  obtain ⟨entry, hentry, hentryRequest⟩ := List.mem_map.mp hlogged
  obtain ⟨otherStamp, otherTicket, hotherTicket, hother⟩ :=
    hinv.executed entry hentry
  rw [hentryRequest] at hother
  obtain ⟨hissued, hissueKey, -⟩ := IngressWorld.mem_executions.mp hissue
  have hwell := ((reachable_ledger hinv.receiver).wellFormed issue hissued).1
  rw [hwell] at hsequence hissueKey
  have hstamps : otherStamp = stamp :=
    hinv.numbered.stamp_unique hotherTicket hticket
      (hother.sequence.symm.trans (hsequence.trans hrequest.sequence))
  subst hstamps
  rw [hticket] at hotherTicket
  cases hotherTicket
  have hbound := hother.bound.symm.trans hrequest.bound
  simp only [boundContent, Option.some.injEq, BoundContent.mk.injEq] at hbound
  obtain ⟨-, hmethod, -, -, hbytes⟩ := hbound
  have hactor : issue.request.actorKey = request.actorKey :=
    congrArg StreamKey.actorKey hissueKey
  refine ⟨hother.requestId.trans hrequest.requestId.symm, ?_⟩
  rw [hother.digest, hrequest.digest, hmethod, hactor,
    bytesToString_injective hbytes]

/-- In every run the admissions for execution on the granted stream are the
session's tickets in order, each with the content its ticket is bound to; what
a ticket is bound to never changes; and no envelope in the network is answered
with a sequence conflict. -/
theorem executed_are_tickets_in_order {services : Table String ServiceEntry}
    {grant : OrderedGrant} {world : EndToEndWorld}
    (hreach : (endToEnd services grant).Reachable world) :
    (∀ (index : Nat) entry, world.executed[index]? = some entry →
      ∃ ticket, world.sender.session.heap[index]? = some ticket ∧
        ticket.sequence.toNat = index + 1 ∧
        RequestOfTicket world.sender.session entry.1 entry.2 ticket) ∧
    (∀ step after, (endToEnd services grant).next world step = some after →
      OrderedSession.Extends world.sender.session after.sender.session) ∧
    (∀ envelope ∈ world.sent, ∀ incoming hasRoom now request error,
      receive services grant envelope incoming hasRoom now = some request →
      (world.receiver.ingress.admitRequest request).1 = .error error →
      ¬ IsSequenceConflict error) := by
  have hinv := reachable_endToEndInvariant hreach
  have hconsistent := reachable_consistent hinv.receiver
  have hledger := reachable_ledger hinv.receiver
  refine ⟨fun index entry hentry => ?_, fun step after hnext => ?_, ?_⟩
  · obtain ⟨stamp, ticket, hticket, hrequest⟩ :=
      hinv.executed entry (List.mem_of_getElem? hentry)
    have hnumber := hinv.numbered.1 stamp ticket hticket
    obtain ⟨view, hview⟩ := hconsistent.exists_window hinv.present
    have hcounted := hledger.counted grant.streamKey view.1 (by simp [nextAt, hview])
    -- The sequences of the log are the sequences of the session's executions.
    have hsequences : world.executed.map (fun entry => entry.2.sequence.toNat) =
        List.range' 1 (span view.1 - 1) := by
      rw [← hcounted]
      have hlog := congrArg (List.map fun request : OrderedIngressRequest =>
        request.sequence.toNat) hinv.log
      rw [List.map_map, List.map_map] at hlog
      refine (hlog.symm.trans (List.map_congr_left fun issue hissue => ?_))
      have hissued := (IngressWorld.mem_executions.mp hissue).1
      rw [(hledger.wellFormed issue hissued).1]
      rfl
    have hat := congrArg (fun sequences : List Nat => sequences[index]?) hsequences
    simp only [List.getElem?_map, hentry, Option.map_some] at hat
    obtain ⟨hlt, hvalue⟩ := List.getElem?_eq_some_iff.mp hat.symm
    rw [List.getElem_range'] at hvalue
    rw [hrequest.sequence, hnumber] at hvalue
    have hindex : stamp = index := by
      rw [Nat.one_mul, Nat.add_comm] at hvalue
      exact (Nat.add_right_cancel hvalue).symm
    subst hindex
    exact ⟨ticket, hticket, hnumber, hrequest⟩
  · exact session_extends hnext
  · intro envelope hsent incoming hasRoom now request error hreceive hadmitted hconflict
    obtain ⟨found, hfound, hstamp, hremembered⟩ :=
      admit_conflict hconsistent hadmitted hconflict
    rcases hremembered with ⟨entry, hentry, hdiffers⟩ | ⟨kept, hkept, hdiffers⟩
    · obtain ⟨issue, hissue, hsequence, hid, hdigest⟩ :=
        hledger.flight _ _ entry hentry
      obtain ⟨hsameId, hsameDigest⟩ :=
        hinv.same_request hsent hreceive hstamp hfound hissue hsequence
      exact hdiffers ⟨hid.trans hsameId, hdigest.trans hsameDigest⟩
    · obtain ⟨issue, hissue, hsequence, hid, hdigest⟩ :=
        hledger.cached _ _ kept hkept
      obtain ⟨hsameId, hsameDigest⟩ :=
        hinv.same_request hsent hreceive hstamp hfound hissue hsequence
      exact hdiffers ⟨hid.trans hsameId, hdigest.trans hsameDigest⟩

end

def sampleServices : Table String ServiceEntry :=
  (∅ : Table String ServiceEntry).insert "chat"
    { options := ⟨4, 4, true⟩
      table := [⟨"say", "in", "out", true, fun _ => .ok "room"⟩]
      ingressBound := true }

def sampleEnvelope : RpcEnvelope where
  service := "chat"
  method := "say"
  requestSchema := "in"
  responseSchema := "out"
  payload := [104, 105]
  requestId := "producer/p1/r1/1/1"
  metadata := [("fw.producer_id", "producer"), ("fw.producer_epoch", "p1"),
    ("fw.receiver_epoch", "r1"), ("fw.sequence", "1")]

def sampleSteps : List EndToEndStep :=
  [.prepare,
    .send ⟨1, .ok ⟨"", none, 100, "", none⟩, 0, some (.error ⟨.timedOut, "", "", "", []⟩)⟩
      ⟨"chat", "say", "in", "out", [104, 105], ⟨[]⟩, ⟨none, some 0⟩⟩,
    .deliver sampleEnvelope ⟨10 ^ 9, "peer"⟩ true 0,
    .deliver sampleEnvelope ⟨10 ^ 9, "peer"⟩ true 0]

theorem executed_are_tickets_in_order_sample :
    letI := permissiveInfra
    ∃ world, (endToEnd sampleServices (sampleGrant "r1")).Reachable world ∧
      world.executed.length = 1 ∧
      ∀ (index : Nat) entry, world.executed[index]? = some entry →
        ∃ ticket, world.sender.session.heap[index]? = some ticket ∧
          ticket.sequence.toNat = index + 1 ∧
          RequestOfTicket world.sender.session entry.1 entry.2 ticket := by
  let _ := permissiveInfra
  let start : EndToEndWorld :=
    { sender := { session := OrderedSession.openSession (sampleGrant "r1") 1 }
      receiver := sampleWorld.next (.grant (sampleGrant "r1")) }
  have hstart : (endToEnd sampleServices (sampleGrant "r1")).init start :=
    ⟨⟨"chat", 4, 4, 100⟩, 1, _, rfl, by decide, rfl⟩
  have hlength : ((endToEnd sampleServices (sampleGrant "r1")).exec
      (fun _ _ => true) start sampleSteps).map (fun world => world.executed.length) =
      some 1 := by decide
  obtain ⟨world, hexec, hcount⟩ := Option.map_eq_some_iff.mp hlength
  have hreach : (endToEnd sampleServices (sampleGrant "r1")).Reachable world :=
    (Machine.ReachableWhere.start hstart).exec (fun _ _ _ => trivial) hexec
  exact ⟨world, hreach, hcount, (executed_are_tickets_in_order hreach).1⟩

end BbtFramework.Ordered
