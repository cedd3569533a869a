import BbtFramework.Ordered.Session
import BbtFramework.Rpc.Envelope

/-!
# Sending a call

`_CallSend` assembles the envelope, writes the ordered fields from the session
that issued the stamp, and lets `AdaptCallOptions` fix the deadline, bind the
stamp and start the I/O.  A send acts on the sender's state; the envelope it
hands to the network is part of its outcome.
-/

namespace BbtFramework.Rpc

open BbtFramework.Ordered

structure CallOptions where
  deadline : Option Deadline
  ordered : Option OrderedStamp

/-- The two actions of a call that are visible outside, over the state they
act on. -/
structure CallEgressHooks (State : Type) where
  consumeSequence : Option (OrderedStamp → State → Except Error Unit × State)
  initiateIo : Option (Deadline → State → Except Error Unit × State)

section

variable [Infra]

def effectiveDeadline (parent : Option RequestContext) (options : CallOptions) :
    Except Error Deadline :=
  match parent with
  | none =>
      match options.deadline with
      | some deadline =>
          if deadline = Deadline.max then
            .error (makeError .invalidArgument
              "top-level call requires a finite deadline")
          else .ok deadline
      | none =>
          .error (makeError .invalidArgument
            "top-level call requires a finite deadline")
  | some parent =>
      let effective :=
        match options.deadline with
        | some deadline => min deadline parent.deadline
        | none => parent.deadline
      if effective = Deadline.max then
        .error (makeError .invalidArgument
          "no finite call budget inherited from parent request")
      else .ok effective

def runConsume {State : Type} (options : CallOptions)
    (hooks : CallEgressHooks State) (state : State) : Except Error Unit × State :=
  match options.ordered, hooks.consumeSequence with
  | some stamp, some consume => consume stamp state
  | _, _ => (.ok (), state)

def adaptCallOptions {State : Type} (parent : Option RequestContext)
    (options : CallOptions) (hooks : CallEgressHooks State) (now : Deadline)
    (state : State) : Except Error Deadline × State :=
  match effectiveDeadline parent options with
  | .error reason => (.error reason, state)
  | .ok effective =>
      if effective ≤ now then
        (.error (makeError .timedOut "call budget already expired before egress io"),
          state)
      else
        match hooks.initiateIo with
        | none =>
            (.error (makeError .runtimeUnavailable "egress io hook not installed"),
              state)
        | some initiate =>
            if options.ordered.isSome && hooks.consumeSequence.isNone then
              (.error (makeError .invalidArgument
                "ordered call requires a sequence consumer hook"), state)
            else
              match runConsume options hooks state with
              | (.error reason, state) => (.error reason, state)
              | (.ok (), state) =>
                  match initiate effective state with
                  | (.error reason, state) => (.error reason, state)
                  | (.ok (), state) => (.ok effective, state)

def routeFieldError : Error :=
  makeError .invalidArgument "call: custom route field out of bounds"

/-- The loop over the custom route fields. -/
def routeMetadata (metadata : List (String × String)) :
    List (String × String) → Except Error (List (String × String))
  | [] => .ok metadata
  | (key, value) :: rest =>
      if key = "" ∨ 64 < key.length ∨ 256 < value.length ∨
          16 ≤ metadata.length then .error routeFieldError
      else routeMetadata (metadata ++ [(routePrefix ++ key, value)]) rest

/-- The ordered fields of an envelope, from the session's own grant. -/
def orderedMetadata (grant : OrderedGrant) (sequence : UInt64) :
    List (String × String) :=
  [(fwProducerId, grant.producerId), (fwProducerEpoch, grant.producerEpoch),
    (fwReceiverEpoch, grant.receiverEpoch),
    (fwSequence, toString sequence.toNat)]

def customText (metadata : List (String × String)) : String :=
  metadata.foldl
    (fun text field =>
      if isRouteKey field.1 then text ++ field.1 ++ "=" ++ field.2 ++ "\n" else text)
    ""

/-- The content a send of `envelope` binds its ticket to. -/
def boundContent (grant : OrderedGrant) (envelope : RpcEnvelope) :
    BoundContent where
  service := envelope.service
  method := envelope.method
  actorKey := grant.actorKey
  custom := customText envelope.metadata
  requestBytes := bytesToString envelope.payload

/-- The calling side of one process: its session and the counter behind the
request ids of unordered calls. -/
structure Sender where
  session : OrderedSession
  callSeq : UInt64 := 0

/-- What a call passes to `_CallSend`. -/
structure SendArguments where
  serviceName : String
  methodName : String
  requestSchema : String
  responseSchema : String
  payload : Bytes
  custom : RouteFields
  options : CallOptions

/-- What `_CallSend` finds outside the sender: the hosting object, the current
request, the clock, and the reply of the egress, when one is installed. -/
structure SendEnvironment where
  objectId : UInt64
  context : Except Error RequestContext
  now : Deadline
  egress : Option (Except Error RpcEnvelope)

/-- The state `_CallSend` acts on: the sender, the envelope given to the egress
and the reply it produced. -/
structure SendState where
  sender : Sender
  sent : Option RpcEnvelope := none
  reply : Option RpcEnvelope := none

def nextRequestId (environment : SendEnvironment) (sender : Sender) : String :=
  "req-" ++ toString environment.objectId.toNat ++ "-" ++
    toString (sender.callSeq + 1).toNat

/-- The ticket a stamp refers to; `request_id()` and `sequence()` of an empty
stamp are empty and 0. -/
def stampRequestId (session : OrderedSession) (stamp : OrderedStamp) : String :=
  match session.heap[stamp]? with
  | some ticket => ticket.requestId
  | none => ""

def stampSequence (session : OrderedSession) (stamp : OrderedStamp) : UInt64 :=
  match session.heap[stamp]? with
  | some ticket => ticket.sequence
  | none => 0

def consumeHook (envelope : RpcEnvelope) (stamp : OrderedStamp)
    (state : SendState) : Except Error Unit × SendState :=
  let session := state.sender.session
  let (result, session) :=
    session.bindForSend stamp (boundContent session.grant envelope)
  (result, { state with sender := { state.sender with session := session } })

/-- The hook that gives the envelope to the egress. -/
def ioHook (envelope : RpcEnvelope) (outcome : Except Error RpcEnvelope)
    (_ : Deadline) (state : SendState) : Except Error Unit × SendState :=
  match outcome with
  | .error reason => (.error reason, { state with sent := some envelope })
  | .ok reply =>
      (.ok (), { state with sent := some envelope, reply := some reply })

def egressHooks (environment : SendEnvironment) (options : CallOptions)
    (envelope : RpcEnvelope) : CallEgressHooks SendState where
  consumeSequence :=
    if options.ordered.isSome then some (consumeHook envelope) else none
  initiateIo := environment.egress.map (ioHook envelope)

def checkReply (envelope : RpcEnvelope) : Option RpcEnvelope → Except Error Bytes
  | none =>
      .error (makeError .internalError "call: egress produced no reply envelope")
  | some reply =>
      if reply.requestId ≠ envelope.requestId ∨
          reply.responseSchema ≠ envelope.responseSchema then
        .error (makeError .protocolError "call: reply envelope mismatch")
      else .ok reply.payload

def sendMetadata (session : OrderedSession) (options : CallOptions)
    (metadata : List (String × String)) : Except Error (List (String × String)) :=
  match options.ordered with
  | none => .ok metadata
  | some stamp =>
      if !session.live then
        .error (makeError .invalidArgument "call: ordered stamp has no live session")
      else
        .ok (metadata ++
          orderedMetadata session.grant (stampSequence session stamp))

/-- The request id of a call: its ticket's, or a fresh one. -/
def requestIdFor (environment : SendEnvironment) (options : CallOptions)
    (sender : Sender) : String :=
  match options.ordered with
  | some stamp => stampRequestId sender.session stamp
  | none => nextRequestId environment sender

/-- Only an unordered call takes a number from the counter. -/
def afterRequestId (options : CallOptions) (sender : Sender) : Sender :=
  if options.ordered.isSome then sender
  else { sender with callSeq := sender.callSeq + 1 }

def assembleEnvelope (environment : SendEnvironment) (arguments : SendArguments)
    (sender : Sender) : Except Error RpcEnvelope :=
  match routeMetadata [] arguments.custom.values with
  | .error reason => .error reason
  | .ok route =>
      match sendMetadata sender.session arguments.options route with
      | .error reason => .error reason
      | .ok metadata =>
          .ok
            { service := arguments.serviceName
              method := arguments.methodName
              requestSchema := arguments.requestSchema
              responseSchema := arguments.responseSchema
              payload := arguments.payload
              requestId := requestIdFor environment arguments.options sender
              metadata := metadata }

/-- `ICoService::_CallSend`. -/
def callSend (environment : SendEnvironment) (arguments : SendArguments)
    (sender : Sender) : Except Error Bytes × SendState :=
  if environment.objectId = 0 then
    (.error (makeError .runtimeUnavailable "call: service is not hosted by CoApp"),
      { sender := sender })
  else
    match environment.context with
    | .error reason => (.error reason, { sender := sender })
    | .ok context =>
        let state : SendState :=
          { sender := afterRequestId arguments.options sender }
        match assembleEnvelope environment arguments sender with
        | .error reason => (.error reason, state)
        | .ok envelope =>
            match adaptCallOptions (some context) arguments.options
                (egressHooks environment arguments.options envelope)
                environment.now state with
            | (.error reason, state) => (.error reason, state)
            | (.ok _, state) => (checkReply envelope state.reply, state)

/-! ## What a send can do -/

theorem routeMetadata_ok {metadata fields result : List (String × String)}
    (hroute : routeMetadata metadata fields = .ok result) :
    ∃ route, result = metadata ++ route ∧
      ∀ field ∈ route, isRouteKey field.1 = true := by
  induction fields generalizing metadata with
  | nil =>
      cases hroute
      exact ⟨[], by simp, by simp⟩
  | cons field rest ih =>
      obtain ⟨key, value⟩ := field
      simp only [routeMetadata] at hroute
      split at hroute
      · cases hroute
      · obtain ⟨route, heq, hkeys⟩ := ih hroute
        refine ⟨(routePrefix ++ key, value) :: route, by simp [heq], ?_⟩
        intro other hother
        rcases List.mem_cons.mp hother with rfl | hmem
        · exact isRouteKey_append key
        · exact hkeys other hmem

/-- The envelope of a send that reached the egress, as it leaves the sender. -/
inductive SentAs (session : OrderedSession) (options : CallOptions)
    (after : OrderedSession) (envelope : RpcEnvelope) : Prop where
  | unordered (hordered : options.ordered = none) (hsame : after = session)
      (hroute : ∀ field ∈ envelope.metadata, isRouteKey field.1 = true) :
      SentAs session options after envelope
  | ordered {stamp : OrderedStamp} {route : List (String × String)}
      (hordered : options.ordered = some stamp)
      (hbind : session.bindForSend stamp (boundContent session.grant envelope) =
        (.ok (), after))
      (hid : envelope.requestId = stampRequestId session stamp)
      (hroute : ∀ field ∈ route, isRouteKey field.1 = true)
      (hmetadata : envelope.metadata =
        route ++ orderedMetadata session.grant (stampSequence session stamp)) :
      SentAs session options after envelope

inductive SendEffect (session : OrderedSession) (options : CallOptions)
    (state : SendState) : Prop where
  | refused (hsent : state.sent = none)
      (hsession : state.sender.session = session ∨
        ∃ stamp content,
          state.sender.session = (session.bindForSend stamp content).2) :
      SendEffect session options state
  | sent {envelope : RpcEnvelope} (hsent : state.sent = some envelope)
      (hsentAs : SentAs session options state.sender.session envelope) :
      SendEffect session options state

theorem sendMetadata_ok {session : OrderedSession} {options : CallOptions}
    {route metadata : List (String × String)}
    (hsend : sendMetadata session options route = .ok metadata) :
    (options.ordered = none ∧ metadata = route) ∨
    ∃ stamp, options.ordered = some stamp ∧
      metadata = route ++
        orderedMetadata session.grant (stampSequence session stamp) := by
  unfold sendMetadata at hsend
  cases hordered : options.ordered with
  | none =>
      rw [hordered] at hsend
      cases hsend
      exact .inl ⟨rfl, rfl⟩
  | some stamp =>
      rw [hordered] at hsend
      dsimp only at hsend
      split at hsend
      · cases hsend
      · cases hsend
        exact .inr ⟨stamp, rfl, rfl⟩

omit [Infra] in
@[simp]
theorem afterRequestId_session (options : CallOptions) (sender : Sender) :
    (afterRequestId options sender).session = sender.session := by
  unfold afterRequestId
  split <;> rfl

/-- The egress sees the envelope only after the binding step succeeded. -/
theorem adaptCallOptions_effect {environment : SendEnvironment}
    {options : CallOptions} {envelope : RpcEnvelope} {sender : Sender}
    {parent : Option RequestContext} {result : Except Error Deadline}
    {state : SendState}
    (hadapt : adaptCallOptions parent options
      (egressHooks environment options envelope) environment.now
      { sender := sender } = (result, state)) :
    (state.sent = none ∧ (state.sender.session = sender.session ∨
      ∃ stamp content,
        state.sender.session = (sender.session.bindForSend stamp content).2)) ∨
    (state.sent = some envelope ∧
      ((options.ordered = none ∧ state.sender.session = sender.session) ∨
        ∃ stamp, options.ordered = some stamp ∧
          sender.session.bindForSend stamp (boundContent sender.session.grant envelope) =
            (.ok (), state.sender.session))) := by
  unfold adaptCallOptions at hadapt
  split at hadapt
  · cases hadapt
    exact .inl ⟨rfl, .inl rfl⟩
  · split at hadapt
    · cases hadapt
      exact .inl ⟨rfl, .inl rfl⟩
    · cases hegress : environment.egress with
      | none =>
          simp only [egressHooks, hegress, Option.map_none] at hadapt
          cases hadapt
          exact .inl ⟨rfl, .inl rfl⟩
      | some outcome =>
          cases hordered : options.ordered with
          | none =>
              simp only [egressHooks, hegress, hordered, Option.map_some,
                Option.isSome_none, Bool.false_and, Bool.false_eq_true, if_false,
                runConsume] at hadapt
              cases outcome with
              | error reason =>
                  cases hadapt
                  exact .inr ⟨rfl, .inl ⟨rfl, rfl⟩⟩
              | ok reply =>
                  cases hadapt
                  exact .inr ⟨rfl, .inl ⟨rfl, rfl⟩⟩
          | some stamp =>
              simp only [egressHooks, hegress, hordered, Option.map_some,
                Option.isSome_some, if_true, Option.isNone_some, Bool.and_false,
                Bool.false_eq_true, if_false, runConsume, consumeHook] at hadapt
              cases hbind : sender.session.bindForSend stamp
                  (boundContent sender.session.grant envelope) with
              | mk bindResult session =>
                  rw [hbind] at hadapt
                  cases bindResult with
                  | error reason =>
                      cases hadapt
                      exact .inl ⟨rfl, .inr ⟨stamp, _, by rw [hbind]⟩⟩
                  | ok done =>
                      cases outcome with
                      | error reason =>
                          cases hadapt
                          exact .inr ⟨rfl, .inr ⟨stamp, rfl, hbind⟩⟩
                      | ok reply =>
                          cases hadapt
                          exact .inr ⟨rfl, .inr ⟨stamp, rfl, hbind⟩⟩

theorem callSend_effect (environment : SendEnvironment)
    (arguments : SendArguments) (sender : Sender) :
    SendEffect sender.session arguments.options
      (callSend environment arguments sender).2 := by
  unfold callSend
  split
  · exact .refused rfl (.inl rfl)
  · split
    · exact .refused rfl (.inl rfl)
    · dsimp only
      split
      · exact .refused rfl (.inl (afterRequestId_session _ _))
      case _ context _ _ envelope hassemble =>
        cases hadapt : adaptCallOptions (some context) arguments.options
            (egressHooks environment arguments.options envelope) environment.now
            { sender := afterRequestId arguments.options sender } with
        | mk result state =>
            have heffect := adaptCallOptions_effect hadapt
            rw [afterRequestId_session] at heffect
            have hstate : SendEffect sender.session arguments.options state := by
              unfold assembleEnvelope at hassemble
              split at hassemble
              · cases hassemble
              case _ route hroute =>
                obtain ⟨fields, hfields, hkeys⟩ := routeMetadata_ok hroute
                rw [List.nil_append] at hfields
                subst hfields
                split at hassemble
                · cases hassemble
                case _ metadata hmetadata =>
                  cases hassemble
                  rcases heffect with ⟨hsent, hsession⟩ |
                    ⟨hsent, ⟨hordered, hsession⟩ | ⟨stamp, hordered, hbind⟩⟩
                  · exact .refused hsent hsession
                  · rcases sendMetadata_ok hmetadata with
                      ⟨-, rfl⟩ | ⟨stamp, hstamp, -⟩
                    · exact .sent hsent (.unordered hordered hsession hkeys)
                    · rw [hordered] at hstamp
                      cases hstamp
                  · rcases sendMetadata_ok hmetadata with
                      ⟨hnone, -⟩ | ⟨found, hfound, rfl⟩
                    · rw [hordered] at hnone
                      cases hnone
                    · rw [hordered] at hfound
                      cases hfound
                      refine .sent hsent (.ordered hordered hbind ?_ hkeys rfl)
                      simp only [requestIdFor, hordered]
            cases result with
            | error reason => exact hstate
            | ok deadline => exact hstate

/-- A send keeps every ticket and what it is bound to. -/
theorem callSend_extends (environment : SendEnvironment)
    (arguments : SendArguments) (sender : Sender) :
    OrderedSession.Extends sender.session
      (callSend environment arguments sender).2.sender.session := by
  cases callSend_effect environment arguments sender with
  | refused _ hsession =>
      rcases hsession with hsame | ⟨stamp, content, hbind⟩
      · rw [hsame]
        exact .refl _
      · rw [hbind]
        exact OrderedSession.extends_bindForSend _ stamp content
  | @sent envelope _ hsentAs =>
      cases hsentAs with
      | unordered _ hsame =>
          rw [hsame]
          exact .refl _
      | @ordered stamp _ _ hbind =>
          have hextends := OrderedSession.extends_bindForSend sender.session stamp
            (boundContent sender.session.grant envelope)
          rw [hbind] at hextends
          exact hextends

/-- The call passes every check before the binding step, and its egress is installed. -/
structure Binds (environment : SendEnvironment) (arguments : SendArguments)
    (sender : Sender) (envelope : RpcEnvelope) (outcome : Except Error RpcEnvelope) :
    Prop where
  hosted : environment.objectId ≠ 0
  budget : ∃ context deadline, environment.context = .ok context ∧
    effectiveDeadline (some context) arguments.options = .ok deadline ∧
    environment.now < deadline
  assembled : assembleEnvelope environment arguments sender = .ok envelope
  installed : environment.egress = some outcome

/-- From the binding step on. -/
def bindAndSend (sender : Sender) (stamp : OrderedStamp) (envelope : RpcEnvelope)
    (reply : Except Error RpcEnvelope) : Except Error Bytes × SendState :=
  match sender.session.bindForSend stamp (boundContent sender.session.grant envelope) with
  | (.error reason, session) =>
      (.error reason, { sender := { sender with session := session } })
  | (.ok (), session) =>
      match reply with
      | .error reason =>
          (.error reason,
            { sender := { sender with session := session }, sent := some envelope })
      | .ok reply =>
          (checkReply envelope (some reply),
            { sender := { sender with session := session }
              sent := some envelope
              reply := some reply })

theorem callSend_of_binds {environment : SendEnvironment} {arguments : SendArguments}
    {sender : Sender} {envelope : RpcEnvelope} {outcome : Except Error RpcEnvelope}
    {stamp : OrderedStamp} (hbinds : Binds environment arguments sender envelope outcome)
    (hordered : arguments.options.ordered = some stamp) :
    callSend environment arguments sender = bindAndSend sender stamp envelope outcome := by
  obtain ⟨context, deadline, hcontext, hbudget, halive⟩ := hbinds.budget
  have halive : ¬deadline ≤ environment.now := Int.not_le.mpr halive
  have hkept : afterRequestId arguments.options sender = sender := by
    simp [afterRequestId, hordered]
  unfold callSend
  rw [hbinds.assembled, hkept]
  simp only [hcontext, hbinds.hosted, if_false, hbinds.installed, Option.map_some,
    adaptCallOptions, hbudget, halive, egressHooks, hordered, Option.isSome_some, if_true,
    Option.isNone_some, Bool.and_false, Bool.false_eq_true, runConsume, consumeHook,
    bindAndSend]
  cases sender.session.bindForSend stamp (boundContent sender.session.grant envelope) with
  | mk result session =>
      cases result with
      | error reason => rfl
      | ok done =>
          cases outcome with
          | error reason => rfl
          | ok reply => rfl

/-- An unordered call goes to the egress at once. -/
theorem callSend_unordered {environment : SendEnvironment} {arguments : SendArguments}
    {sender : Sender} {envelope : RpcEnvelope} {outcome : Except Error RpcEnvelope}
    (hbinds : Binds environment arguments sender envelope outcome)
    (hordered : arguments.options.ordered = none) :
    (callSend environment arguments sender).2.sent = some envelope ∧
      ∀ reason, outcome = .error reason →
        (callSend environment arguments sender).1 = .error reason := by
  obtain ⟨context, deadline, hcontext, hbudget, halive⟩ := hbinds.budget
  have halive : ¬deadline ≤ environment.now := Int.not_le.mpr halive
  unfold callSend
  rw [hbinds.assembled]
  simp only [hcontext, hbinds.hosted, if_false, hbinds.installed, Option.map_some,
    adaptCallOptions, hbudget, halive, egressHooks, hordered, Option.isSome_none,
    Bool.false_and, Bool.false_eq_true, runConsume]
  cases outcome with
  | error reason =>
      refine ⟨rfl, fun other hother => ?_⟩
      cases hother
      rfl
  | ok reply =>
      refine ⟨rfl, fun other hother => ?_⟩
      cases hother

/-- A call that stops before the binding step fails, sends nothing and changes no ticket. -/
theorem callSend_of_not_binds {environment : SendEnvironment} {arguments : SendArguments}
    {sender : Sender}
    (hstops : ∀ envelope outcome, ¬Binds environment arguments sender envelope outcome) :
    (∃ reason, (callSend environment arguments sender).1 = .error reason) ∧
      (callSend environment arguments sender).2.sent = none ∧
      (callSend environment arguments sender).2.sender.session = sender.session := by
  unfold callSend
  split
  case isTrue => exact ⟨⟨_, rfl⟩, rfl, rfl⟩
  case isFalse hhosted =>
    split
    case h_1 => exact ⟨⟨_, rfl⟩, rfl, rfl⟩
    case h_2 context hcontext =>
      dsimp only
      split
      case h_1 => exact ⟨⟨_, rfl⟩, rfl, afterRequestId_session _ _⟩
      case h_2 envelope hmade =>
        unfold adaptCallOptions
        cases hbudget : effectiveDeadline (some context) arguments.options with
        | error reason => exact ⟨⟨_, rfl⟩, rfl, afterRequestId_session _ _⟩
        | ok deadline =>
            by_cases halive : deadline ≤ environment.now
            · simp only [halive, if_true]
              exact ⟨⟨_, rfl⟩, trivial, afterRequestId_session _ _⟩
            · cases hegress : environment.egress with
              | some outcome =>
                  exact absurd
                    { hosted := hhosted
                      budget := ⟨context, deadline, hcontext, hbudget, Int.not_le.mp halive⟩
                      assembled := hmade
                      installed := hegress } (hstops envelope outcome)
              | none =>
                  simp only [halive, if_false, egressHooks, hegress, Option.map_none]
                  exact ⟨⟨_, rfl⟩, trivial, afterRequestId_session _ _⟩

end

end BbtFramework.Rpc
