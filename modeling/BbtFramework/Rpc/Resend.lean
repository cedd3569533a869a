import BbtFramework.Library.FieldText
import BbtFramework.Ordered.TicketNumbering
import BbtFramework.Rpc.CallAtomicity

/-!
# Sending a ticket again

A ticket that was sent may be sent again with the same request, and the session
compares requests by the content bound at the first send.  The route fields are
part of the content as one text, in which the marks between the fields may also
stand inside names and values, so that two different lists of fields may count
as one request.
-/

namespace BbtFramework.Rpc

open BbtFramework.Library BbtFramework.Ordered

def SameRequest (first later : SendArguments) : Prop :=
  first.serviceName = later.serviceName ∧ first.methodName = later.methodName ∧
    first.custom.values = later.custom.values ∧ first.payload = later.payload

/-- The route fields of a call, letter by letter. -/
def routeFieldsOf (arguments : SendArguments) : List (FieldText.Field Char) :=
  arguments.custom.values.map fun field => (field.1.toList, field.2.toList)

/-- The requests differ in nothing but the route fields, and there in nothing but where a
list of fields is split: at which `=` of a field its name ends, and whether a newline
followed by `route.` ends a field. -/
def LookAlike (first later : SendArguments) : Prop :=
  first.serviceName = later.serviceName ∧ first.methodName = later.methodName ∧
    first.payload = later.payload ∧ first.custom.values ≠ later.custom.values ∧
    FieldText.Resplits routePrefix.toList '=' '\n' (routeFieldsOf first) (routeFieldsOf later)

/-- A call whose route fields hold no marks: no `=` in a name and no newline at all. -/
def PlainRoute (arguments : SendArguments) : Prop :=
  ∀ field ∈ routeFieldsOf arguments, FieldText.Plain '=' '\n' field

theorem PlainRoute.not_lookAlike {first later : SendArguments} (hfirst : PlainRoute first)
    (hlater : PlainRoute later) : ¬LookAlike first later := by
  rintro ⟨-, -, -, hfields, hresplits⟩
  have hsame := FieldText.eq_of_text_plain (by decide) (by decide) hfirst hlater
    (FieldText.text_of_resplits hresplits)
  refine hfields (List.map_injective_iff.mpr ?_ hsame)
  intro field other heq
  exact Prod.ext (String.toList_inj.mp (Prod.mk.inj heq).1)
    (String.toList_inj.mp (Prod.mk.inj heq).2)

theorem customText_loop (text : String) (metadata : List (String × String)) :
    (metadata.foldl (fun text field =>
      if isRouteKey field.1 then text ++ field.1 ++ "=" ++ field.2 ++ "\n" else text)
        text).toList =
      text.toList ++ (metadata.filter fun field => isRouteKey field.1).flatMap
        fun field => field.1.toList ++ '=' :: field.2.toList ++ ['\n'] := by
  induction metadata generalizing text with
  | nil => simp
  | cons field rest ih =>
      rw [List.foldl_cons, ih]
      by_cases hroute : isRouteKey field.1 = true
      · simp [hroute, String.toList_append]
      · simp [hroute]

theorem orderedMetadata_not_route (grant : OrderedGrant) (sequence : UInt64) :
    (orderedMetadata grant sequence).filter (fun field => isRouteKey field.1) = [] := by
  simp only [orderedMetadata, List.filter_cons, List.filter_nil]
  rw [if_neg (by decide), if_neg (by decide), if_neg (by decide), if_neg (by decide)]

/-- What a call binds its ticket to, read off its arguments. -/
structure ContentOf (arguments : SendArguments) (content : BoundContent) : Prop where
  service : content.service = arguments.serviceName
  method : content.method = arguments.methodName
  custom : content.custom.toList =
    FieldText.text routePrefix.toList '=' '\n' (routeFieldsOf arguments)
  payload : content.requestBytes = bytesToString arguments.payload

theorem content_eq_iff {first later : SendArguments} {bound content : BoundContent}
    (hfirst : ContentOf first bound) (hlater : ContentOf later content)
    (hactor : bound.actorKey = content.actorKey) :
    bound = content ↔ SameRequest first later ∨ LookAlike first later := by
  have hparts : bound = content ↔ first.serviceName = later.serviceName ∧
      first.methodName = later.methodName ∧ first.payload = later.payload ∧
      FieldText.Resplits routePrefix.toList '=' '\n' (routeFieldsOf first)
        (routeFieldsOf later) := by
    rw [← FieldText.text_eq_iff, ← hfirst.custom, ← hlater.custom, String.toList_inj,
      ← bytesToString_injective.eq_iff, ← hfirst.payload, ← hlater.payload,
      ← hfirst.service, ← hlater.service, ← hfirst.method, ← hlater.method]
    cases bound
    cases content
    simp only [BoundContent.mk.injEq]
    simp only at hactor
    tauto
  rw [hparts]
  constructor
  · rintro ⟨hservice, hmethod, hpayload, hresplits⟩
    by_cases hfields : first.custom.values = later.custom.values
    · exact .inl ⟨hservice, hmethod, hfields, hpayload⟩
    · exact .inr ⟨hservice, hmethod, hpayload, hfields, hresplits⟩
  · rintro (⟨hservice, hmethod, hfields, hpayload⟩ |
      ⟨hservice, hmethod, hpayload, -, hresplits⟩)
    · refine ⟨hservice, hmethod, hpayload, ?_⟩
      rw [routeFieldsOf, hfields]
      exact .refl _
    · exact ⟨hservice, hmethod, hpayload, hresplits⟩

def BoundTo (session : OrderedSession) (stamp : OrderedStamp) (arguments : SendArguments) :
    Prop :=
  ∃ ticket content, session.heap[stamp]? = some ticket ∧ ticket.bound = some content ∧
    content.actorKey = session.grant.actorKey ∧ ContentOf arguments content

theorem BoundTo.extends {before after : OrderedSession} {stamp : OrderedStamp}
    {arguments : SendArguments} (hbound : BoundTo before stamp arguments)
    (hextends : OrderedSession.Extends before after) : BoundTo after stamp arguments := by
  obtain ⟨ticket, content, hticket, hcontent, hactor, hof⟩ := hbound
  obtain ⟨hgrant, hkept⟩ := hextends
  obtain ⟨later, hlater, -, -, hsame⟩ := hkept stamp ticket hticket
  exact ⟨later, content, hlater, hsame content hcontent, by rw [hgrant]; exact hactor, hof⟩

section

variable [Infra]

theorem routeMetadata_eq {metadata fields result : List (String × String)}
    (hroute : routeMetadata metadata fields = .ok result) :
    result = metadata ++ fields.map fun field => (routePrefix ++ field.1, field.2) := by
  induction fields generalizing metadata with
  | nil =>
      cases hroute
      simp
  | cons field rest ih =>
      simp only [routeMetadata] at hroute
      split at hroute
      · cases hroute
      · rw [ih hroute]
        simp

theorem contentOf_assembled {environment : SendEnvironment} {arguments : SendArguments}
    {sender : Sender} {envelope : RpcEnvelope} (grant : OrderedGrant)
    (hassembled : assembleEnvelope environment arguments sender = .ok envelope) :
    ContentOf arguments (boundContent grant envelope) := by
  unfold assembleEnvelope at hassembled
  split at hassembled
  · cases hassembled
  case h_2 route hroute =>
    split at hassembled
    · cases hassembled
    case h_2 metadata hmetadata =>
      cases hassembled
      refine ⟨rfl, rfl, ?_, rfl⟩
      have hfields : metadata.filter (fun field => isRouteKey field.1) =
          arguments.custom.values.map fun field => (routePrefix ++ field.1, field.2) := by
        have hkeys : (arguments.custom.values.map fun field =>
            (routePrefix ++ field.1, field.2)).filter (fun field => isRouteKey field.1) =
            arguments.custom.values.map fun field => (routePrefix ++ field.1, field.2) := by
          rw [List.filter_eq_self]
          intro field hfield
          obtain ⟨source, -, rfl⟩ := List.mem_map.mp hfield
          exact isRouteKey_append source.1
        have hroute := routeMetadata_eq hroute
        rw [List.nil_append] at hroute
        rcases sendMetadata_ok hmetadata with ⟨-, rfl⟩ | ⟨stamp, -, rfl⟩
        · rw [hroute, hkeys]
        · rw [List.filter_append, orderedMetadata_not_route, List.append_nil, hroute, hkeys]
      change (customText metadata).toList = _
      rw [customText, customText_loop, hfields]
      simp [routeFieldsOf, FieldText.text, FieldText.fieldText, List.flatMap_map,
        String.toList_append]

/-! ## One sender over time -/

/-- What happens to a session: tickets are handed out, calls are sent, a stamp is bound by
hand, and the last reference to the session goes. -/
inductive SenderStep where
  | prepare
  | send (environment : SendEnvironment) (arguments : SendArguments)
  | bind (stamp : OrderedStamp) (content : BoundContent)
  | expire

def senderMachine : Machine Sender SenderStep where
  init sender := ∃ grant instanceId first,
    sender.session = { OrderedSession.openSession grant instanceId with nextSequence := first }
  next sender
    | .prepare => some { sender with session := sender.session.prepare.2 }
    | .send environment arguments => some (callSend environment arguments sender).2.sender
    | .bind stamp content =>
        some { sender with session := (sender.session.bindForSend stamp content).2 }
    | .expire => some { sender with session := { sender.session with live := false } }

/-- A send binds one ticket at most. -/
theorem callSend_session (environment : SendEnvironment) (arguments : SendArguments)
    (sender : Sender) :
    (callSend environment arguments sender).2.sender.session = sender.session ∨
      ∃ stamp content, (callSend environment arguments sender).2.sender.session =
        (sender.session.bindForSend stamp content).2 := by
  cases callSend_effect environment arguments sender with
  | refused _ hsession => exact hsession
  | sent _ hsentAs =>
      cases hsentAs with
      | unordered _ hsame => exact .inl hsame
      | ordered _ hbind => exact .inr ⟨_, _, by rw [hbind]⟩

theorem ticketsFrom_of_reachable {sender : Sender} (hreach : senderMachine.Reachable sender) :
    ∃ first, sender.session.TicketsFrom first := by
  refine hreach.induct (motive := fun sender => ∃ first, sender.session.TicketsFrom first) ?_ ?_
  · rintro sender ⟨grant, instanceId, first, hsession⟩
    rw [hsession]
    exact ⟨_, OrderedSession.ticketsFrom_open grant instanceId first⟩
  · rintro before step after - ⟨first, htickets⟩ - hnext
    cases step with
    | prepare =>
        cases hnext
        exact ⟨first, htickets.prepare⟩
    | send environment arguments =>
        cases hnext
        refine ⟨first, ?_⟩
        rcases callSend_session environment arguments before with
          hsame | ⟨stamp, content, hbind⟩
        · rw [hsame]
          exact htickets
        · rw [hbind]
          exact htickets.bindForSend stamp content
    | bind stamp content =>
        cases hnext
        exact ⟨first, htickets.bindForSend stamp content⟩
    | expire =>
        cases hnext
        exact ⟨first, htickets.numbered, htickets.counting, htickets.closed, htickets.named,
          htickets.found, htickets.listed⟩

/-- A sent ticket stays bound as it is. -/
theorem BoundTo.run {before after : Sender} {stamp : OrderedStamp} {arguments : SendArguments}
    {steps : List SenderStep} {guard : Sender → SenderStep → Prop}
    (hbound : BoundTo before.session stamp arguments)
    (hrun : senderMachine.Run guard before steps after) :
    BoundTo after.session stamp arguments := by
  induction hrun with
  | refl => exact hbound
  | @tail _ middle last step _ _ hnext ih =>
      cases step with
      | prepare =>
          cases hnext
          exact ih.extends (OrderedSession.extends_prepare _)
      | send environment arguments =>
          cases hnext
          exact ih.extends (callSend_extends environment arguments _)
      | bind stamp content =>
          cases hnext
          exact ih.extends (OrderedSession.extends_bindForSend _ stamp content)
      | expire =>
          cases hnext
          exact ih.extends (OrderedSession.Extends.refl middle.session)

def FirstSentBy (environment : SendEnvironment) (arguments : SendArguments)
    (before : Sender) (stamp : OrderedStamp) : Prop :=
  arguments.options.ordered = some stamp ∧
  (∃ ticket, before.session.heap[stamp]? = some ticket ∧ ticket.isSent = false) ∧
  ∃ ticket, (callSend environment arguments before).2.sender.session.heap[stamp]? =
    some ticket ∧ ticket.isSent = true

theorem bindAndSend_session (sender : Sender) (stamp : OrderedStamp) (envelope : RpcEnvelope)
    (reply : Except Error RpcEnvelope) :
    (bindAndSend sender stamp envelope reply).2.sender.session =
      (sender.session.bindForSend stamp (boundContent sender.session.grant envelope)).2 := by
  unfold bindAndSend
  cases sender.session.bindForSend stamp (boundContent sender.session.grant envelope) with
  | mk result session =>
      cases result with
      | error reason => rfl
      | ok done =>
          cases reply with
          | error reason => rfl
          | ok reply => rfl

theorem FirstSentBy.boundTo {environment : SendEnvironment} {arguments : SendArguments}
    {before : Sender} {stamp : OrderedStamp}
    (hfirst : FirstSentBy environment arguments before stamp) :
    BoundTo (callSend environment arguments before).2.sender.session stamp arguments := by
  obtain ⟨hordered, ⟨ticket, hticket, hunsent⟩, sent, hsent, hissent⟩ := hfirst
  have hunchanged : (callSend environment arguments before).2.sender.session ≠
      before.session := by
    intro hsame
    rw [hsame, hticket] at hsent
    cases hsent
    rw [hunsent] at hissent
    cases hissent
  by_cases hbinds : ∃ envelope outcome, Binds environment arguments before envelope outcome
  case neg =>
    refine absurd (callSend_of_not_binds fun envelope outcome hbinds' => ?_).2.2 hunchanged
    exact hbinds ⟨envelope, outcome, hbinds'⟩
  obtain ⟨envelope, outcome, hbinds⟩ := hbinds
  have hcall := callSend_of_binds hbinds hordered
  have hsession := bindAndSend_session before stamp envelope outcome
  rw [hcall] at hunchanged ⊢
  rw [hsession] at hunchanged ⊢
  rcases OrderedSession.bindForSend_cases before.session stamp
      (boundContent before.session.grant envelope) with
    ⟨reason, hbind⟩ | ⟨found, -, -, hbind⟩ | ⟨found, hfound, -, -, hbind⟩
  · rw [hbind] at hunchanged
    exact absurd rfl hunchanged
  · rw [hbind] at hunchanged
    exact absurd rfl hunchanged
  · rw [hbind]
    exact ⟨_, _, List.getElem?_set_self (List.getElem?_eq_some_iff.mp hfound).1, rfl, rfl,
      contentOf_assembled before.session.grant hbinds.assembled⟩

theorem bindForSend_bound {session : OrderedSession} {first : Nat}
    (htickets : session.TicketsFrom first) {stamp : OrderedStamp} {ticket : OrderedTicket}
    (hticket : session.heap[stamp]? = some ticket) {bound : BoundContent}
    (hbound : ticket.bound = some bound) (content : BoundContent) :
    session.bindForSend stamp content =
      if bound = content then (.ok (), session)
      else (.error OrderedSession.ticketConflictError, session) := by
  have hsent : ticket.isSent = true := by rw [OrderedTicket.isSent, hbound]; rfl
  unfold OrderedSession.bindForSend
  rw [hticket]
  dsimp only
  rw [if_neg (not_not.mpr (htickets.found stamp ticket hticket)), if_pos hsent,
    OrderedTicket.bindOrCheck, hbound]
  simp only [beq_iff_eq]

def ResendsSame (environment : SendEnvironment) (first later : SendArguments)
    (sender : Sender) (stamp : OrderedStamp) : Prop :=
  (∀ envelope outcome, Binds environment later sender envelope outcome →
    ((sender.session.bindForSend stamp (boundContent sender.session.grant envelope)).1 =
      .ok () ↔ SameRequest first later)) ∧
  (¬SameRequest first later →
    (callSend environment later sender).2.sent = none ∧
    ∀ envelope outcome, Binds environment later sender envelope outcome →
      (callSend environment later sender).1 = .error OrderedSession.ticketConflictError)

/-- Whatever happened since the first send of a ticket, a later send with it keeps to the
first request exactly when it does not get to the binding step with a request that looks
alike. -/
theorem resends_same_iff {before sender : Sender} {environment : SendEnvironment}
    {first : SendArguments} {stamp : OrderedStamp} {steps : List SenderStep}
    (hreach : senderMachine.Reachable before)
    (hfirst : FirstSentBy environment first before stamp)
    (hrun : senderMachine.Run (fun _ _ => True)
      (callSend environment first before).2.sender steps sender)
    (now : SendEnvironment) (later : SendArguments)
    (hordered : later.options.ordered = some stamp) :
    ResendsSame now first later sender stamp ↔
      ¬((∃ envelope outcome, Binds now later sender envelope outcome) ∧
        LookAlike first later) := by
  have hsend : senderMachine.next before (.send environment first) =
      some (callSend environment first before).2.sender := rfl
  have hmiddle := hreach.step trivial hsend
  obtain ⟨start, htickets⟩ := ticketsFrom_of_reachable (hmiddle.run hrun)
  obtain ⟨ticket, bound, hticket, hbound, hactor, hof⟩ := hfirst.boundTo.run hrun
  have hbind := fun envelope =>
    bindForSend_bound htickets hticket hbound (boundContent sender.session.grant envelope)
  have hcontent : ∀ envelope outcome, Binds now later sender envelope outcome →
      (bound = boundContent sender.session.grant envelope ↔
        SameRequest first later ∨ LookAlike first later) := fun envelope outcome hbinds =>
    content_eq_iff hof (contentOf_assembled sender.session.grant hbinds.assembled) hactor
  constructor
  · rintro ⟨haccepts, -⟩ ⟨⟨envelope, outcome, hbinds⟩, halike⟩
    have hsame := (haccepts envelope outcome hbinds).mp (by
      rw [hbind, if_pos ((hcontent envelope outcome hbinds).mpr (.inr halike))])
    exact halike.2.2.2.1 hsame.2.2.1
  · intro hclear
    have hdecides : ∀ envelope outcome, Binds now later sender envelope outcome →
        (bound = boundContent sender.session.grant envelope ↔ SameRequest first later) := by
      intro envelope outcome hbinds
      rw [hcontent envelope outcome hbinds]
      constructor
      · rintro (hsame | halike)
        · exact hsame
        · exact absurd ⟨⟨envelope, outcome, hbinds⟩, halike⟩ hclear
      · exact .inl
    constructor
    · intro envelope outcome hbinds
      rw [← hdecides envelope outcome hbinds, hbind]
      constructor
      · intro hok
        by_contra hother
        rw [if_neg hother] at hok
        cases hok
      · intro hsame
        rw [if_pos hsame]
    · intro hother
      have hrefused : ∀ envelope outcome, Binds now later sender envelope outcome →
          callSend now later sender =
            (.error OrderedSession.ticketConflictError, { sender := sender }) := by
        intro envelope outcome hbinds
        rw [callSend_of_binds hbinds hordered, bindAndSend, hbind,
          if_neg (fun hsame => hother ((hdecides envelope outcome hbinds).mp hsame))]
      constructor
      · by_cases hbinds : ∃ envelope outcome, Binds now later sender envelope outcome
        · obtain ⟨envelope, outcome, hbinds⟩ := hbinds
          rw [hrefused envelope outcome hbinds]
        · exact (callSend_of_not_binds fun envelope outcome hbinds' =>
            hbinds ⟨envelope, outcome, hbinds'⟩).2.1
      · intro envelope outcome hbinds
        rw [hrefused envelope outcome hbinds]

end

def oneTicket [Infra] : Sender where
  session := (OrderedSession.openSession
    ⟨"chat", "room", "producer", "p1", "r1", "peer"⟩ 1).prepare.2

/-- A service whose calls the peer does not answer. -/
def silentPeer : SendEnvironment where
  objectId := 1
  context := .ok ⟨"", none, 100, "", none⟩
  now := 0
  egress := some (.error ⟨.timedOut, "", "", "", []⟩)

def routedCall (fields : List (String × String)) : SendArguments where
  serviceName := "chat"
  methodName := "say"
  requestSchema := "in"
  responseSchema := "out"
  payload := [104, 105]
  custom := ⟨fields⟩
  options := ⟨none, some 0⟩

section

variable [Infra]

theorem oneTicket_reachable : senderMachine.Reachable oneTicket := by
  have hopen : senderMachine.Reachable
      { session := OrderedSession.openSession
          ⟨"chat", "room", "producer", "p1", "r1", "peer"⟩ 1 } :=
    .start ⟨_, 1, 1, rfl⟩
  have hprepare : senderMachine.next
      { session := OrderedSession.openSession
          ⟨"chat", "room", "producer", "p1", "r1", "peer"⟩ 1 } .prepare = some oneTicket := rfl
  exact hopen.step trivial hprepare

end

/-- The first call is repeated, and then another one is tried with its ticket. -/
theorem resends_same_iff_repeated :
    letI := permissiveInfra
    let first := routedCall [("a", "1"), ("b", "2")]
    let sender := (callSend silentPeer first oneTicket).2.sender
    (callSend silentPeer first sender).2.sent.isSome = true ∧
      ResendsSame silentPeer first first sender 0 ∧
      ResendsSame silentPeer first (routedCall [("a", "2"), ("b", "1")]) sender 0 := by
  let _ := permissiveInfra
  intro first sender
  have hfirst : FirstSentBy silentPeer first oneTicket 0 :=
    ⟨rfl, ⟨_, rfl, rfl⟩, _, rfl, rfl⟩
  have hiff := resends_same_iff oneTicket_reachable hfirst .refl silentPeer
  refine ⟨by decide, (hiff first rfl).mpr ?_, (hiff _ rfl).mpr ?_⟩
  · rintro ⟨-, halike⟩
    exact halike.2.2.2.1 rfl
  · have hplain : PlainRoute first := by unfold PlainRoute FieldText.Plain; decide
    rintro ⟨-, halike⟩
    exact hplain.not_lookAlike (by unfold PlainRoute FieldText.Plain; decide) halike

/-- Two fields, and one field whose value spells the second, have one text: the other
request is sent under the ticket of the first. -/
theorem other_request_resent :
    letI := permissiveInfra
    let first := routedCall [("a", "1"), ("b", "2")]
    let later := routedCall [("a", "1\nroute.b=2")]
    let sender := (callSend silentPeer first oneTicket).2.sender
    senderMachine.Reachable oneTicket ∧ FirstSentBy silentPeer first oneTicket 0 ∧
      later.options.ordered = some 0 ∧ ¬SameRequest first later ∧
      (callSend silentPeer later sender).2.sent.isSome = true ∧
      ¬ResendsSame silentPeer first later sender 0 := by
  let _ := permissiveInfra
  intro first later sender
  have hfirst : FirstSentBy silentPeer first oneTicket 0 :=
    ⟨rfl, ⟨_, rfl, rfl⟩, _, rfl, rfl⟩
  have hother : ¬SameRequest first later := by
    rintro ⟨-, -, hfields, -⟩
    revert hfields
    decide
  refine ⟨oneTicket_reachable, hfirst, rfl, hother, by decide, ?_⟩
  rintro ⟨-, hrefuses⟩
  have hsent := (hrefuses hother).1
  revert hsent
  decide

end BbtFramework.Rpc
