import BbtFramework.Inbound.Dispatch
import BbtFramework.Rpc.CallAtomicity

/-!
# Budgets along a call chain

A handler runs under the deadline of its request less the reply reserve, a call
it makes under the least of that, its own deadline and the policy's.  The
sentinel for no finite deadline is tested in the call, after the reserve has
been taken off: the request without a deadline gives its calls a budget that
is as good as none, and no test sees it.
-/

namespace BbtFramework.Inbound

open BbtFramework.Library BbtFramework.Ordered BbtFramework.Rpc

def DispatchCall.context (call : DispatchCall) : RequestContext where
  requestId := call.request.requestId
  actorKey := if call.accepted.method.actorKeyed then some call.key else none
  deadline := handlerDeadline call.incoming
  peerPrincipal := call.incoming.peerPrincipal
  traceId := call.accepted.facts.traceId

def Finite (deadline : Option Deadline) : Prop :=
  ∃ found, deadline = some found ∧ found < Deadline.max

/-- The least of a deadline and one that may be missing. -/
def tighten (deadline : Deadline) : Option Deadline → Deadline
  | none => deadline
  | some other => min deadline other

theorem tighten_of_not_finite {deadline : Deadline} {other : Option Deadline}
    (hlt : deadline < Deadline.max) (hother : ¬Finite other) :
    tighten deadline other = deadline := by
  cases other with
  | none => rfl
  | some found =>
      have hle : Deadline.max ≤ found := Int.not_lt.mp fun hfinite =>
        hother ⟨found, rfl, hfinite⟩
      exact min_eq_left (hlt.le.trans hle)

theorem handlerDeadline_lt (incoming : IncomingCallContext)
    (hunbounded : incoming.deadline = Deadline.max) :
    handlerDeadline incoming < Deadline.max := by
  rw [handlerDeadline, hunbounded]
  decide

section

variable [Infra]

def policyDecision (environment : CallEnvironment) (arguments : SendArguments)
    (sender : Sender) : Option (Except Error RpcPolicyDecision) :=
  match environment.runtime, environment.assembled arguments sender with
  | some runtime, .ok (envelope, deadline) =>
      match (runtime.findRoute environment.clock.resolving envelope.service).1,
          runtime.rpcPolicy with
      | .ok target, some policy => some (policy ⟨target, envelope, deadline⟩)
      | _, _ => none
  | _, _ => none

def tightenedDeadline (environment : CallEnvironment) (arguments : SendArguments)
    (sender : Sender) : Option Deadline :=
  match policyDecision environment arguments sender with
  | some (.ok (.allow tightened)) => tightened
  | _ => none

end

def lastCheck (environment : CallEnvironment) : Deadline :=
  match environment.runtime.bind AppRuntimeState.rpcPolicy with
  | some _ => environment.clock.leaving
  | none => environment.now

theorem lastCheck_of_installed {environment : CallEnvironment} {runtime : AppRuntimeState}
    (hinstalled : environment.runtime = some runtime) :
    lastCheck environment =
      match runtime.rpcPolicy with
      | some _ => environment.clock.leaving
      | none => environment.now := by
  rw [lastCheck, hinstalled, Option.bind_some]

section

variable [Infra]

/-- The transport gets the least of the deadlines, which is still to come; and a call with
no finite deadline on either side is refused. -/
def BudgetKept (call : DispatchCall) (environment : CallEnvironment)
    (arguments : SendArguments) (sender : Sender) : Prop :=
  (∀ delivery, delivered environment arguments sender = some delivery →
    delivery.deadline =
        tighten (tighten (handlerDeadline call.incoming) arguments.options.deadline)
          (tightenedDeadline environment arguments sender) ∧
      lastCheck environment < delivery.deadline) ∧
  (call.incoming.deadline = Deadline.max → ¬Finite arguments.options.deadline →
    ¬Finite (tightenedDeadline environment arguments sender) →
    delivered environment arguments sender = none ∧
      ∃ reason, (runtimeCall environment arguments sender).1 = .error reason)

/-- No deadline of the call is finite, and nothing else holds it back: the service is
hosted, the envelope is assembled, the ticket binds, the route is known, the policy lets
the call pass, a transport is there, and the clock is short of the end of time. -/
structure Unbounded (call : DispatchCall) (environment : CallEnvironment)
    (arguments : SendArguments) (sender : Sender) (runtime : AppRuntimeState)
    (envelope : RpcEnvelope) (target : RpcAddress) : Prop where
  incoming : call.incoming.deadline = Deadline.max
  explicit : ¬Finite arguments.options.deadline
  reaches : Reaches environment arguments sender runtime envelope
    (handlerDeadline call.incoming)
  ticket : ∀ stamp, arguments.options.ordered = some stamp →
    (sender.session.bindForSend stamp (boundContent sender.session.grant envelope)).1 = .ok ()
  route : (runtime.findRoute environment.clock.resolving envelope.service).1 = .ok target
  policy : ∀ policy, runtime.rpcPolicy = some policy →
    environment.clock.leaving < handlerDeadline call.incoming ∧
    ∃ tightened, ¬Finite tightened ∧
      policy ⟨target, envelope, handlerDeadline call.incoming⟩ = .ok (.allow tightened)
  transport : runtime.defaultEgress.isSome = true ∨ runtime.seamSend.isSome = true

theorem effectiveDeadline_ok {context : RequestContext} {options : CallOptions}
    {deadline : Deadline}
    (hbudget : effectiveDeadline (some context) options = .ok deadline) :
    deadline = tighten context.deadline options.deadline := by
  unfold effectiveDeadline at hbudget
  cases hexplicit : options.deadline with
  | none =>
      simp only [hexplicit] at hbudget
      split at hbudget
      · cases hbudget
      · exact (Except.ok.inj hbudget).symm
  | some explicit =>
      simp only [hexplicit] at hbudget
      split at hbudget
      · cases hbudget
      · rw [← Except.ok.inj hbudget]
        exact min_comm explicit context.deadline

theorem preflight_ok {runtime : AppRuntimeState} {now : Deadline} {view : RpcCallView}
    {deadline : Deadline} (hpassed : runtime.preflight now view = .ok deadline) :
    (runtime.rpcPolicy = none ∧ deadline = view.deadline) ∨
    ∃ policy tightened, runtime.rpcPolicy = some policy ∧
      policy view = .ok (.allow tightened) ∧ deadline = tighten view.deadline tightened ∧
      now < deadline := by
  unfold AppRuntimeState.preflight at hpassed
  cases hpolicy : runtime.rpcPolicy with
  | none =>
      rw [hpolicy] at hpassed
      exact .inl ⟨rfl, (Except.ok.inj hpassed).symm⟩
  | some policy =>
      rw [hpolicy] at hpassed
      dsimp only at hpassed
      split at hpassed
      · cases hpassed
      · cases hpassed
      case h_3 tightened hallowed =>
        have hpassed : (if tighten view.deadline tightened ≤ now then
            .error AppRuntimeState.tightenedError
            else .ok (tighten view.deadline tightened)) = Except.ok deadline := by
          rw [← hpassed]
          cases tightened <;> rfl
        split at hpassed
        · cases hpassed
        case isFalse halive =>
          obtain rfl := Except.ok.inj hpassed
          exact .inr ⟨policy, tightened, rfl, hallowed, rfl, Int.not_le.mp halive⟩

/-- A policy that does not tighten a deadline to a time past passes it on. -/
theorem preflight_of_allow {runtime : AppRuntimeState} {now : Deadline} {view : RpcCallView}
    (hpolicy : ∀ policy, runtime.rpcPolicy = some policy →
      ∃ tightened, policy view = .ok (.allow tightened) ∧
        tighten view.deadline tightened = view.deadline ∧ now < view.deadline) :
    runtime.preflight now view = .ok view.deadline := by
  unfold AppRuntimeState.preflight
  cases hinstalled : runtime.rpcPolicy with
  | none => rfl
  | some policy =>
      obtain ⟨tightened, hallowed, hsame, halive⟩ := hpolicy policy hinstalled
      dsimp only
      rw [hallowed]
      have halive : ¬tighten view.deadline tightened ≤ now := by
        rw [hsame]
        exact Int.not_le.mpr halive
      cases tightened with
      | none => exact if_neg halive
      | some other => exact (if_neg halive).trans (congrArg Except.ok hsame)

theorem beforeTransport_ok {runtime : AppRuntimeState} {clock : SendClock}
    {envelope : RpcEnvelope} {deadline : Deadline} {send : Transport} {delivery : Delivery}
    (hready : runtime.beforeTransport clock envelope deadline = .ok (send, delivery)) :
    ∃ target, (runtime.findRoute clock.resolving envelope.service).1 = .ok target ∧
      runtime.preflight clock.leaving ⟨target, envelope, deadline⟩ = .ok delivery.deadline ∧
      runtime.transport = .ok send := by
  unfold AppRuntimeState.beforeTransport at hready
  split at hready
  · cases hready
  case h_2 target hroute =>
    split at hready
    · cases hready
    case h_2 tightened hpassed =>
      split at hready
      · cases hready
      case h_2 found htransport =>
        cases hready
        exact ⟨target, hroute, hpassed, htransport⟩

theorem transport_ok_iff {runtime : AppRuntimeState} :
    (∃ send, runtime.transport = .ok send) ↔
      runtime.defaultEgress.isSome = true ∨ runtime.seamSend.isSome = true := by
  unfold AppRuntimeState.transport
  cases runtime.defaultEgress with
  | some egress => simp
  | none => cases runtime.seamSend <;> simp

/-! ## Calls that are delivered -/

/-- A delivered call reached the binding step, its ticket was bound, and the runtime state
let it pass. -/
theorem delivered_some {environment : CallEnvironment} {arguments : SendArguments}
    {sender : Sender} {delivery : Delivery}
    (hdelivered : delivered environment arguments sender = some delivery) :
    ∃ runtime envelope deadline send,
      Reaches environment arguments sender runtime envelope deadline ∧
      (∀ stamp, arguments.options.ordered = some stamp →
        (sender.session.bindForSend stamp
          (boundContent sender.session.grant envelope)).1 = .ok ()) ∧
      runtime.beforeTransport environment.clock envelope deadline = .ok (send, delivery) := by
  unfold delivered at hdelivered
  split at hdelivered
  case isFalse => cases hdelivered
  case isTrue hsent =>
    by_cases hreach : ∃ runtime envelope deadline,
        Reaches environment arguments sender runtime envelope deadline
    case neg =>
      have hstopped := runtimeCall_of_not_reaches fun runtime envelope deadline hreaches =>
        hreach ⟨runtime, envelope, deadline, hreaches⟩
      rw [hstopped.2.1] at hsent
      cases hsent
    obtain ⟨runtime, envelope, deadline, hreaches⟩ := hreach
    rw [outcome_of_assembled hreaches.assembled, hreaches.installed, Option.map_some,
      Option.bind_some] at hdelivered
    cases hready : runtime.beforeTransport environment.clock envelope deadline with
    | error reason =>
        rw [(AppRuntimeState.send_refused hready).2] at hdelivered
        cases hdelivered
    | ok ready =>
        rw [AppRuntimeState.send_delivered hready] at hdelivered
        refine ⟨runtime, envelope, deadline, ready.1, hreaches, fun stamp hordered => ?_, ?_⟩
        · rw [runtimeCall_of_reaches hreaches hordered, bindAndSend] at hsent
          cases hbind : sender.session.bindForSend stamp
              (boundContent sender.session.grant envelope) with
          | mk result session =>
              cases result with
              | ok done => rfl
              | error reason =>
                  rw [hbind] at hsent
                  cases hsent
        · rw [hready, ← Option.some.inj hdelivered]

theorem sent_of_reaches {environment : CallEnvironment} {arguments : SendArguments}
    {sender : Sender} {runtime : AppRuntimeState} {envelope : RpcEnvelope}
    {deadline : Deadline}
    (hreaches : Reaches environment arguments sender runtime envelope deadline)
    (hticket : ∀ stamp, arguments.options.ordered = some stamp →
      (sender.session.bindForSend stamp
        (boundContent sender.session.grant envelope)).1 = .ok ()) :
    (runtimeCall environment arguments sender).2.sent = some envelope ∧
      ∀ reason, (runtime.send environment.clock envelope deadline).1 = .error reason →
        (runtimeCall environment arguments sender).1 = .error reason := by
  cases hordered : arguments.options.ordered with
  | none => exact callSend_unordered hreaches.binds hordered
  | some stamp =>
      have hbind := hticket stamp hordered
      rw [runtimeCall_of_reaches hreaches hordered, bindAndSend]
      cases hresult : sender.session.bindForSend stamp
          (boundContent sender.session.grant envelope) with
      | mk result session =>
          rw [hresult] at hbind
          cases hbind
          cases (runtime.send environment.clock envelope deadline).1 with
          | error reason =>
              refine ⟨rfl, fun other hother => ?_⟩
              cases hother
              rfl
          | ok reply =>
              refine ⟨rfl, fun other hother => ?_⟩
              cases hother

theorem fails_of_not_delivered {environment : CallEnvironment} {arguments : SendArguments}
    {sender : Sender} (hnothing : delivered environment arguments sender = none) :
    ∃ reason, (runtimeCall environment arguments sender).1 = .error reason := by
  by_cases hreach : ∃ runtime envelope deadline,
      Reaches environment arguments sender runtime envelope deadline
  case neg =>
    exact (runtimeCall_of_not_reaches fun runtime envelope deadline hreaches =>
      hreach ⟨runtime, envelope, deadline, hreaches⟩).1
  obtain ⟨runtime, envelope, deadline, hreaches⟩ := hreach
  by_cases hticket : ∀ stamp, arguments.options.ordered = some stamp →
      (sender.session.bindForSend stamp
        (boundContent sender.session.grant envelope)).1 = .ok ()
  · obtain ⟨hsent, hfails⟩ := sent_of_reaches hreaches hticket
    cases hready : runtime.beforeTransport environment.clock envelope deadline with
    | error reason => exact ⟨reason, hfails reason (AppRuntimeState.send_refused hready).1⟩
    | ok ready =>
        rw [delivered, hsent, outcome_of_assembled hreaches.assembled, hreaches.installed]
          at hnothing
        have hdelivery := AppRuntimeState.send_delivered hready
        rw [show (runtime.send environment.clock envelope deadline).2.1 = none from hnothing]
          at hdelivery
        cases hdelivery
  · obtain ⟨stamp, hstamp⟩ := not_forall.mp hticket
    obtain ⟨hordered, hrefused⟩ := Classical.not_imp.mp hstamp
    rw [runtimeCall_of_reaches hreaches hordered, bindAndSend]
    cases hresult : sender.session.bindForSend stamp
        (boundContent sender.session.grant envelope) with
    | mk result session =>
        cases result with
        | error reason => exact ⟨reason, rfl⟩
        | ok done =>
            rw [hresult] at hrefused
            exact absurd rfl hrefused

theorem tightenedDeadline_of_reaches {environment : CallEnvironment}
    {arguments : SendArguments} {sender : Sender} {runtime : AppRuntimeState}
    {envelope : RpcEnvelope} {deadline : Deadline} {target : RpcAddress}
    (hreaches : Reaches environment arguments sender runtime envelope deadline)
    (hroute : (runtime.findRoute environment.clock.resolving envelope.service).1 =
      .ok target) :
    tightenedDeadline environment arguments sender =
      match runtime.rpcPolicy.map (fun policy => policy ⟨target, envelope, deadline⟩) with
      | some (.ok (.allow tightened)) => tightened
      | _ => none := by
  have hdecision : policyDecision environment arguments sender =
      runtime.rpcPolicy.map (fun policy => policy ⟨target, envelope, deadline⟩) := by
    unfold policyDecision
    rw [hreaches.installed, hreaches.assembled]
    dsimp only
    rw [hroute]
    cases runtime.rpcPolicy <;> rfl
  rw [tightenedDeadline, hdecision]

theorem delivered_deadline {call : DispatchCall} {environment : CallEnvironment}
    {arguments : SendArguments} {sender : Sender} {delivery : Delivery}
    (hcontext : environment.context = .ok call.context)
    (hdelivered : delivered environment arguments sender = some delivery) :
    delivery.deadline =
        tighten (tighten (handlerDeadline call.incoming) arguments.options.deadline)
          (tightenedDeadline environment arguments sender) ∧
      lastCheck environment < delivery.deadline := by
  obtain ⟨runtime, envelope, deadline, send, hreaches, -, hready⟩ :=
    delivered_some hdelivered
  obtain ⟨target, hroute, hpassed, -⟩ := beforeTransport_ok hready
  obtain ⟨context, hfound, -, hbudget⟩ := assembled_ok hreaches.assembled
  rw [hcontext] at hfound
  cases hfound
  have hdeadline : deadline =
      tighten (handlerDeadline call.incoming) arguments.options.deadline :=
    effectiveDeadline_ok hbudget
  rw [tightenedDeadline_of_reaches hreaches hroute, lastCheck_of_installed hreaches.installed]
  rcases preflight_ok hpassed with
    ⟨hnone, hsame⟩ | ⟨policy, tightened, hsome, hallowed, hsame, halive⟩
  · rw [hnone, hsame, hdeadline]
    exact ⟨rfl, hdeadline ▸ hreaches.alive⟩
  · rw [hsome, Option.map_some, hallowed, ← hdeadline]
    exact ⟨hsame, halive⟩

/-- Nothing holds back a call all of whose deadlines are infinite. -/
theorem Unbounded.delivered {call : DispatchCall} {environment : CallEnvironment}
    {arguments : SendArguments} {sender : Sender} {runtime : AppRuntimeState}
    {envelope : RpcEnvelope} {target : RpcAddress}
    (hunbounded : Unbounded call environment arguments sender runtime envelope target) :
    ¬Finite (tightenedDeadline environment arguments sender) ∧
      delivered environment arguments sender ≠ none := by
  have hlt := handlerDeadline_lt call.incoming hunbounded.incoming
  constructor
  · rw [tightenedDeadline_of_reaches hunbounded.reaches hunbounded.route]
    cases hpolicy : runtime.rpcPolicy with
    | none => simp [Finite]
    | some policy =>
        obtain ⟨-, tightened, hinfinite, hallowed⟩ := hunbounded.policy policy hpolicy
        rw [Option.map_some, hallowed]
        exact hinfinite
  · obtain ⟨send, htransport⟩ := transport_ok_iff.mpr hunbounded.transport
    have hpassed : runtime.preflight environment.clock.leaving
        ⟨target, envelope, handlerDeadline call.incoming⟩ =
          .ok (handlerDeadline call.incoming) := by
      refine preflight_of_allow fun policy hpolicy => ?_
      obtain ⟨halive, tightened, hinfinite, hallowed⟩ := hunbounded.policy policy hpolicy
      exact ⟨tightened, hallowed, tighten_of_not_finite hlt hinfinite, halive⟩
    have hready : runtime.beforeTransport environment.clock envelope
        (handlerDeadline call.incoming) =
          .ok (send, ⟨target, envelope, handlerDeadline call.incoming⟩) := by
      unfold AppRuntimeState.beforeTransport
      rw [hunbounded.route]
      dsimp only
      rw [hpassed]
      dsimp only
      rw [htransport]
    have hsent := (sent_of_reaches hunbounded.reaches hunbounded.ticket).1
    rw [Rpc.delivered, hsent, outcome_of_assembled hunbounded.reaches.assembled,
      hunbounded.reaches.installed]
    intro hnothing
    have hdelivery := AppRuntimeState.send_delivered hready
    rw [show (runtime.send environment.clock envelope (handlerDeadline call.incoming)).2.1 =
      none from hnothing] at hdelivery
    cases hdelivery

theorem unbounded_of_delivered {call : DispatchCall} {environment : CallEnvironment}
    {arguments : SendArguments} {sender : Sender} {delivery : Delivery}
    (hcontext : environment.context = .ok call.context)
    (hincoming : call.incoming.deadline = Deadline.max)
    (hexplicit : ¬Finite arguments.options.deadline)
    (htightened : ¬Finite (tightenedDeadline environment arguments sender))
    (hdelivered : delivered environment arguments sender = some delivery) :
    ∃ runtime envelope target,
      Unbounded call environment arguments sender runtime envelope target := by
  obtain ⟨runtime, envelope, deadline, send, hreaches, hticket, hready⟩ :=
    delivered_some hdelivered
  obtain ⟨target, hroute, hpassed, htransport⟩ := beforeTransport_ok hready
  obtain ⟨context, hfound, -, hbudget⟩ := assembled_ok hreaches.assembled
  rw [hcontext] at hfound
  cases hfound
  have hlt := handlerDeadline_lt call.incoming hincoming
  have hdeadline : deadline = handlerDeadline call.incoming :=
    (effectiveDeadline_ok hbudget).trans (tighten_of_not_finite hlt hexplicit)
  subst hdeadline
  refine ⟨runtime, envelope, target, hincoming, hexplicit, hreaches, hticket, hroute, ?_,
    transport_ok_iff.mp ⟨send, htransport⟩⟩
  intro policy hpolicy
  rw [tightenedDeadline_of_reaches hreaches hroute, hpolicy, Option.map_some] at htightened
  rcases preflight_ok hpassed with
    ⟨hnone, -⟩ | ⟨found, tightened, hsome, hallowed, hsame, halive⟩
  · rw [hpolicy] at hnone
    cases hnone
  · rw [hpolicy] at hsome
    cases hsome
    rw [hallowed] at htightened
    rw [hsame, tighten_of_not_finite hlt htightened] at halive
    exact ⟨halive, tightened, htightened, hallowed⟩

/-- A call from a handler keeps the budget exactly when it is not one without a finite
deadline that nothing else holds back. -/
theorem budget_kept_iff {call : DispatchCall} {environment : CallEnvironment}
    (hcontext : environment.context = .ok call.context) (arguments : SendArguments)
    (sender : Sender) :
    BudgetKept call environment arguments sender ↔
      ¬∃ runtime envelope target,
        Unbounded call environment arguments sender runtime envelope target := by
  constructor
  · rintro ⟨-, hrefused⟩ ⟨runtime, envelope, target, hunbounded⟩
    obtain ⟨htightened, hdelivered⟩ := hunbounded.delivered
    exact hdelivered (hrefused hunbounded.incoming hunbounded.explicit htightened).1
  · intro hbounded
    refine ⟨fun delivery => delivered_deadline hcontext, ?_⟩
    intro hincoming hexplicit htightened
    have hnothing : delivered environment arguments sender = none := by
      cases hdelivered : delivered environment arguments sender with
      | none => rfl
      | some delivery =>
          exact absurd (unbounded_of_delivered hcontext hincoming hexplicit htightened
            hdelivered) hbounded
    exact ⟨hnothing, fails_of_not_delivered hnothing⟩

end

def callWithin (deadline : Deadline) : DispatchCall where
  incoming := ⟨deadline, "peer"⟩
  request := ⟨"chat", "say", "in", "out", [], "request", []⟩
  accepted :=
    ⟨⟨⟨4, 4, false⟩, [], false⟩, ⟨"say", "in", "out", true, fun _ => .ok "room"⟩, {}⟩
  key := "room"
  ticket := none

/-- The call's handler calls a service with a static route, under this policy. -/
def callFrom (call : DispatchCall) (policy : Option RpcPolicy) : CallEnvironment where
  objectId := 1
  context := .ok call.context
  now := 5
  runtime := some
    { routes := (∅ : Table String RpcAddress).insert "chat" ⟨"http", "peer:80"⟩
      dynamicRoutes := none
      rpcPolicy := policy
      defaultEgress := some fun _ => .error ⟨.timedOut, "", "", "", []⟩
      seamSend := none }
  clock := ⟨6, 7⟩

def callUntil (deadline : Option Deadline) : SendArguments :=
  { callWith 0 with options := ⟨deadline, none⟩ }

/-- The request leaves 100 to the handler, the call asks for 90, and the policy grants
50. -/
theorem budget_kept_tightened :
    letI := permissiveInfra
    let call := callWithin (replyDeliveryReserve + 100)
    let environment := callFrom call (some fun _ => .ok (.allow (some 50)))
    (delivered environment (callUntil (some 90)) twoTickets).map Delivery.deadline = some 50 ∧
      BudgetKept call environment (callUntil (some 90)) twoTickets := by
  let _ := permissiveInfra
  intro call environment
  refine ⟨by decide, (budget_kept_iff rfl _ _).mpr ?_⟩
  rintro ⟨runtime, envelope, target, hunbounded⟩
  exact absurd hunbounded.incoming (by decide)

/-- A request without a deadline: its call goes out with the end of time less the reply
reserve for a deadline. -/
theorem unbounded_call_delivered :
    letI := permissiveInfra
    let call := callWithin Deadline.max
    let environment := callFrom call none
    (delivered environment (callUntil none) twoTickets).map Delivery.deadline =
        some (Deadline.max - replyDeliveryReserve) ∧
      ¬BudgetKept call environment (callUntil none) twoTickets := by
  let _ := permissiveInfra
  intro call environment
  have hdelivered : (delivered environment (callUntil none) twoTickets).map Delivery.deadline =
      some (Deadline.max - replyDeliveryReserve) := by decide
  refine ⟨hdelivered, ?_⟩
  rintro ⟨-, hrefused⟩
  have hinfinite : ¬Finite none := by simp [Finite]
  rw [(hrefused rfl hinfinite hinfinite).1] at hdelivered
  cases hdelivered

end BbtFramework.Inbound
