import BbtFramework.Rpc.CallSend
import BbtFramework.Rpc.RuntimeSend

/-!
# Calls that never leave the process

A call binds its ordered ticket before the runtime state looks for a route, asks the
policy and picks the transport.  A call that fails without the transport leaves the
session as it was, unless one of these refuses the first send of the ticket.
-/

namespace BbtFramework.Rpc

open BbtFramework.Library BbtFramework.Ordered

/-- What a call finds outside the sender: the runtime state, when the service is
hosted by one, and the times of its clock. -/
structure CallEnvironment where
  objectId : UInt64
  context : Except Error RequestContext
  now : Deadline
  runtime : Option AppRuntimeState
  clock : SendClock

section

variable [Infra]

def CallEnvironment.toSend (environment : CallEnvironment)
    (egress : Option (Except Error RpcEnvelope)) : SendEnvironment where
  objectId := environment.objectId
  context := environment.context
  now := environment.now
  egress := egress

def CallEnvironment.assembled (environment : CallEnvironment) (arguments : SendArguments)
    (sender : Sender) : Except Error (RpcEnvelope × Deadline) :=
  match environment.context with
  | .error reason => .error reason
  | .ok context =>
      match assembleEnvelope (environment.toSend none) arguments sender with
      | .error reason => .error reason
      | .ok envelope =>
          match effectiveDeadline (some context) arguments.options with
          | .error reason => .error reason
          | .ok deadline => .ok (envelope, deadline)

/-- What the egress of the call, `AppRuntimeState::Send`, makes of them. -/
def CallEnvironment.outcome (environment : CallEnvironment) (arguments : SendArguments)
    (sender : Sender) :
    Option (Except Error RpcEnvelope × Option Delivery × AppRuntimeState) :=
  match environment.runtime, environment.assembled arguments sender with
  | some runtime, .ok (envelope, deadline) =>
      some (runtime.send environment.clock envelope deadline)
  | _, _ => none

/-- `_CallSend` of a service whose egress is the runtime state. -/
def runtimeCall (environment : CallEnvironment) (arguments : SendArguments)
    (sender : Sender) : Except Error Bytes × SendState :=
  callSend (environment.toSend ((environment.outcome arguments sender).map Prod.fst))
    arguments sender

/-- What the transport was given by a call. -/
def delivered (environment : CallEnvironment) (arguments : SendArguments)
    (sender : Sender) : Option Delivery :=
  if (runtimeCall environment arguments sender).2.sent.isSome then
    (environment.outcome arguments sender).bind (fun outcome => outcome.2.1)
  else none

/-- The call passes every check before the binding step. -/
structure Reaches (environment : CallEnvironment) (arguments : SendArguments)
    (sender : Sender) (runtime : AppRuntimeState) (envelope : RpcEnvelope)
    (deadline : Deadline) : Prop where
  hosted : environment.objectId ≠ 0
  installed : environment.runtime = some runtime
  assembled : environment.assembled arguments sender = .ok (envelope, deadline)
  alive : environment.now < deadline

theorem assembled_ok {environment : CallEnvironment} {arguments : SendArguments}
    {sender : Sender} {envelope : RpcEnvelope} {deadline : Deadline}
    (hassembled : environment.assembled arguments sender = .ok (envelope, deadline)) :
    ∃ context, environment.context = .ok context ∧
      assembleEnvelope (environment.toSend none) arguments sender = .ok envelope ∧
      effectiveDeadline (some context) arguments.options = .ok deadline := by
  unfold CallEnvironment.assembled at hassembled
  split at hassembled
  case h_1 => cases hassembled
  case h_2 context hcontext =>
    split at hassembled
    case h_1 => cases hassembled
    case h_2 made hmade =>
      split at hassembled
      case h_1 => cases hassembled
      case h_2 found hfound =>
        obtain ⟨rfl, rfl⟩ := Prod.mk.inj (Except.ok.inj hassembled)
        exact ⟨context, hcontext, hmade, hfound⟩

/-- What egress the call finds, when it gets to the binding step. -/
theorem outcome_of_assembled {environment : CallEnvironment}
    {arguments : SendArguments} {sender : Sender} {envelope : RpcEnvelope}
    {deadline : Deadline}
    (hassembled : environment.assembled arguments sender = .ok (envelope, deadline)) :
    environment.outcome arguments sender =
      environment.runtime.map
        (fun runtime => runtime.send environment.clock envelope deadline) := by
  unfold CallEnvironment.outcome
  rw [hassembled]
  cases environment.runtime <;> rfl

theorem Reaches.binds {environment : CallEnvironment} {arguments : SendArguments}
    {sender : Sender} {runtime : AppRuntimeState} {envelope : RpcEnvelope}
    {deadline : Deadline}
    (hreaches : Reaches environment arguments sender runtime envelope deadline) :
    Binds (environment.toSend ((environment.outcome arguments sender).map Prod.fst))
      arguments sender envelope (runtime.send environment.clock envelope deadline).1 := by
  obtain ⟨context, hcontext, hmade, hbudget⟩ := assembled_ok hreaches.assembled
  constructor
  · exact hreaches.hosted
  · exact ⟨context, deadline, hcontext, hbudget, hreaches.alive⟩
  · exact hmade
  · change (environment.outcome arguments sender).map Prod.fst = _
    rw [outcome_of_assembled hreaches.assembled, hreaches.installed]
    rfl

/-- A call that stops before the binding step fails, sends nothing and changes no ticket. -/
theorem runtimeCall_of_not_reaches {environment : CallEnvironment}
    {arguments : SendArguments} {sender : Sender}
    (hstops : ∀ runtime envelope deadline,
      ¬Reaches environment arguments sender runtime envelope deadline) :
    (∃ reason, (runtimeCall environment arguments sender).1 = .error reason) ∧
      (runtimeCall environment arguments sender).2.sent = none ∧
      (runtimeCall environment arguments sender).2.sender.session = sender.session := by
  refine callSend_of_not_binds fun envelope outcome hbinds => ?_
  obtain ⟨context, deadline, hcontext, hbudget, halive⟩ := hbinds.budget
  have hmade : assembleEnvelope (environment.toSend none) arguments sender = .ok envelope :=
    hbinds.assembled
  have hcontext : environment.context = .ok context := hcontext
  have hassembled : environment.assembled arguments sender = .ok (envelope, deadline) := by
    simp only [CallEnvironment.assembled, hcontext, hmade, hbudget]
  have hegress : (environment.outcome arguments sender).map Prod.fst = some outcome :=
    hbinds.installed
  rw [outcome_of_assembled hassembled] at hegress
  cases hruntime : environment.runtime with
  | none => simp [hruntime] at hegress
  | some runtime =>
      exact hstops runtime envelope deadline
        { hosted := hbinds.hosted
          installed := hruntime
          assembled := hassembled
          alive := halive }

theorem runtimeCall_of_reaches {environment : CallEnvironment}
    {arguments : SendArguments} {sender : Sender} {runtime : AppRuntimeState}
    {envelope : RpcEnvelope} {deadline : Deadline} {stamp : OrderedStamp}
    (hreaches : Reaches environment arguments sender runtime envelope deadline)
    (hordered : arguments.options.ordered = some stamp) :
    runtimeCall environment arguments sender = bindAndSend sender stamp envelope
      (runtime.send environment.clock envelope deadline).1 :=
  callSend_of_binds hreaches.binds hordered

def FirstSend (session : OrderedSession) (stamp : OrderedStamp) : Prop :=
  ∃ ticket, session.heap[stamp]? = some ticket ∧
    session.tickets.lookup ticket.requestId = some stamp ∧
    ticket.isSent = false ∧
    ticket.sequence = session.bindWatermark + 1

theorem bindForSend_firstSend {session : OrderedSession} {stamp : OrderedStamp}
    (hfirst : FirstSend session stamp) (content : BoundContent) :
    (session.bindForSend stamp content).1 = .ok () ∧
      (session.bindForSend stamp content).2.bindWatermark = session.bindWatermark + 1 := by
  obtain ⟨ticket, hticket, hissued, hunsent, hnext⟩ := hfirst
  unfold OrderedSession.bindForSend
  simp [hticket, hissued, hunsent, hnext]

theorem bindForSend_of_not_firstSend {session : OrderedSession} {stamp : OrderedStamp}
    (hlater : ¬FirstSend session stamp) (content : BoundContent) :
    (session.bindForSend stamp content).2 = session := by
  unfold OrderedSession.bindForSend
  cases hticket : session.heap[stamp]? with
  | none => rfl
  | some ticket =>
      dsimp only
      split
      · rfl
      case isFalse hissued =>
        split
        · split <;> rfl
        case isFalse hunsent =>
          split
          · rfl
          case isFalse hnext =>
            exact absurd ⟨ticket, hticket, not_not.mp hissued, by simpa using hunsent,
              not_not.mp hnext⟩ hlater

/-- The first send of a ticket takes the session one step on. -/
theorem bindAndSend_firstSend {sender : Sender} {stamp : OrderedStamp}
    (hfirst : FirstSend sender.session stamp) (envelope : RpcEnvelope)
    (reply : Except Error RpcEnvelope) :
    (bindAndSend sender stamp envelope reply).2.sent = some envelope ∧
      (bindAndSend sender stamp envelope reply).2.sender.session.bindWatermark =
        sender.session.bindWatermark + 1 ∧
      ∀ reason, reply = .error reason →
        (bindAndSend sender stamp envelope reply).1 = .error reason := by
  obtain ⟨hok, hwatermark⟩ :=
    bindForSend_firstSend hfirst (boundContent sender.session.grant envelope)
  unfold bindAndSend
  cases hbind : sender.session.bindForSend stamp
      (boundContent sender.session.grant envelope) with
  | mk result session =>
      rw [hbind] at hok hwatermark
      cases hok
      cases reply with
      | error reason =>
          exact ⟨rfl, hwatermark, fun _ hreply => by cases hreply; rfl⟩
      | ok reply => exact ⟨rfl, hwatermark, fun _ hreply => nomatch hreply⟩

theorem bindAndSend_of_not_firstSend {sender : Sender} {stamp : OrderedStamp}
    (hlater : ¬FirstSend sender.session stamp) (envelope : RpcEnvelope)
    (reply : Except Error RpcEnvelope) :
    (bindAndSend sender stamp envelope reply).2.sender.session = sender.session := by
  have hkept :=
    bindForSend_of_not_firstSend hlater (boundContent sender.session.grant envelope)
  unfold bindAndSend
  cases hbind : sender.session.bindForSend stamp
      (boundContent sender.session.grant envelope) with
  | mk result session =>
      rw [hbind] at hkept
      cases result with
      | error reason => exact hkept
      | ok done =>
          cases reply with
          | error reason => exact hkept
          | ok reply => exact hkept

/-- No unsent ticket was sent, the watermark stays, and a later send is refused or
let through as before. -/
structure Unmoved (session later : OrderedSession) : Prop where
  unsent : ∀ (stamp : OrderedStamp) ticket, session.heap[stamp]? = some ticket →
    ticket.isSent = false →
    ∃ kept, later.heap[stamp]? = some kept ∧ kept.isSent = false
  watermark : later.bindWatermark = session.bindWatermark
  verdicts : ∀ (stamp : OrderedStamp) content,
    (later.bindForSend stamp content).1 = (session.bindForSend stamp content).1

theorem Unmoved.refl (session : OrderedSession) : Unmoved session session where
  unsent _ ticket hticket hunsent := ⟨ticket, hticket, hunsent⟩
  watermark := rfl
  verdicts _ _ := rfl

/-- An ordered call that fails without the transport leaves the session unmoved. -/
def Atomic (environment : CallEnvironment) (arguments : SendArguments)
    (sender : Sender) : Prop :=
  ∀ stamp reason, arguments.options.ordered = some stamp →
    (runtimeCall environment arguments sender).1 = .error reason →
    delivered environment arguments sender = none →
    Unmoved sender.session (runtimeCall environment arguments sender).2.sender.session

def BoundInVain (environment : CallEnvironment) (arguments : SendArguments)
    (sender : Sender) : Prop :=
  ∃ runtime envelope deadline stamp reason,
    Reaches environment arguments sender runtime envelope deadline ∧
    arguments.options.ordered = some stamp ∧
    FirstSend sender.session stamp ∧
    runtime.beforeTransport environment.clock envelope deadline = .error reason

theorem AppRuntimeState.send_refused {runtime : AppRuntimeState} {clock : SendClock}
    {envelope : RpcEnvelope} {deadline : Deadline} {reason : Error}
    (hrefused : runtime.beforeTransport clock envelope deadline = .error reason) :
    (runtime.send clock envelope deadline).1 = .error reason ∧
      (runtime.send clock envelope deadline).2.1 = none := by
  unfold AppRuntimeState.send
  rw [hrefused]
  exact ⟨rfl, rfl⟩

theorem AppRuntimeState.send_delivered {runtime : AppRuntimeState} {clock : SendClock}
    {envelope : RpcEnvelope} {deadline : Deadline} {send : Transport}
    {delivery : Delivery}
    (hready : runtime.beforeTransport clock envelope deadline = .ok (send, delivery)) :
    (runtime.send clock envelope deadline).2.1 = some delivery := by
  unfold AppRuntimeState.send
  rw [hready]

/-- What the transport is given by the first send of a ticket. -/
theorem delivered_firstSend {environment : CallEnvironment} {arguments : SendArguments}
    {sender : Sender} {runtime : AppRuntimeState} {envelope : RpcEnvelope}
    {deadline : Deadline} {stamp : OrderedStamp}
    (hreaches : Reaches environment arguments sender runtime envelope deadline)
    (hordered : arguments.options.ordered = some stamp)
    (hfirst : FirstSend sender.session stamp) :
    delivered environment arguments sender =
      (runtime.send environment.clock envelope deadline).2.1 := by
  unfold delivered
  rw [runtimeCall_of_reaches hreaches hordered, (bindAndSend_firstSend hfirst _ _).1,
    outcome_of_assembled hreaches.assembled, hreaches.installed]
  rfl

/-- A call is atomic exactly when it binds no ticket in vain. -/
theorem atomic_iff (environment : CallEnvironment) (arguments : SendArguments)
    (sender : Sender) :
    Atomic environment arguments sender ↔
      ¬BoundInVain environment arguments sender := by
  constructor
  · rintro hatomic
      ⟨runtime, envelope, deadline, stamp, reason, hreaches, hordered, hfirst, hrefused⟩
    obtain ⟨hreply, hnothing⟩ := AppRuntimeState.send_refused hrefused
    have hcall := runtimeCall_of_reaches hreaches hordered
    obtain ⟨-, hmoved, herror⟩ := bindAndSend_firstSend hfirst envelope
      (runtime.send environment.clock envelope deadline).1
    have hunmoved := hatomic stamp reason hordered (by rw [hcall, herror reason hreply])
      (by rw [delivered_firstSend hreaches hordered hfirst, hnothing])
    have hsame := hunmoved.watermark
    rw [hcall, hmoved] at hsame
    simp at hsame
  · intro hsafe stamp reason hordered hfails hnothing
    by_cases hreach : ∃ runtime envelope deadline,
        Reaches environment arguments sender runtime envelope deadline
    · obtain ⟨runtime, envelope, deadline, hreaches⟩ := hreach
      by_cases hfirst : FirstSend sender.session stamp
      · cases hready : runtime.beforeTransport environment.clock envelope deadline with
        | error refusal =>
            exact absurd ⟨runtime, envelope, deadline, stamp, refusal, hreaches, hordered,
              hfirst, hready⟩ hsafe
        | ok ready =>
            rw [delivered_firstSend hreaches hordered hfirst,
              AppRuntimeState.send_delivered hready] at hnothing
            cases hnothing
      · rw [runtimeCall_of_reaches hreaches hordered,
          bindAndSend_of_not_firstSend hfirst]
        exact .refl _
    · have hstopped := runtimeCall_of_not_reaches fun runtime envelope deadline hreaches =>
        hreach ⟨runtime, envelope, deadline, hreaches⟩
      rw [hstopped.2.2]
      exact .refl _

def twoTickets : Sender where
  session := (OrderedSession.openSession
    ⟨"chat", "room", "producer", "p1", "r1", "peer"⟩ 1).prepare.2.prepare.2

end

def callThrough (routes : Table String RpcAddress) : CallEnvironment where
  objectId := 1
  context := .ok ⟨"", none, 100, "", none⟩
  now := 0
  runtime := some ⟨routes, none, none, some fun _ => .error ⟨.timedOut, "", "", "", []⟩, none⟩
  clock := ⟨0, 0⟩

def callWith (stamp : OrderedStamp) : SendArguments where
  serviceName := "chat"
  methodName := "say"
  requestSchema := "in"
  responseSchema := "out"
  payload := [104, 105]
  custom := ⟨[]⟩
  options := ⟨none, some stamp⟩

/-- The first ticket is bound by a call that finds no route.  The second, which had to
wait for it, then goes out first. -/
theorem unrouted_call_binds :
    letI := permissiveInfra
    let sender := (runtimeCall (callThrough ∅) (callWith 0) twoTickets).2.sender
    let routes := (∅ : Table String RpcAddress).insert "chat" ⟨"http", "peer:80"⟩
    (runtimeCall (callThrough ∅) (callWith 0) twoTickets).1 =
        .error (AppRuntimeState.noTargetError "chat") ∧
      delivered (callThrough ∅) (callWith 0) twoTickets = none ∧
      (delivered (callThrough routes) (callWith 1) twoTickets).isSome = false ∧
      (delivered (callThrough routes) (callWith 1) sender).isSome = true ∧
      ¬Atomic (callThrough ∅) (callWith 0) twoTickets := by
  have hfails :
      letI := permissiveInfra
      (runtimeCall (callThrough ∅) (callWith 0) twoTickets).1 =
        .error (AppRuntimeState.noTargetError "chat") := by decide
  have hnothing :
      letI := permissiveInfra
      delivered (callThrough ∅) (callWith 0) twoTickets = none :=
    Option.isNone_iff_eq_none.mp (by decide)
  refine ⟨hfails, hnothing, by decide, by decide, ?_⟩
  intro hatomic
  obtain ⟨-, hsame, -⟩ := hatomic 0 _ rfl hfails hnothing
  revert hsame
  decide

end BbtFramework.Rpc
