import BbtFramework.Inbound.DispatchTickets

/-!
# Ordered tasks and the mailbox

As long as no call enqueues past another one of its stream with a lower sequence, the
tasks of a stream start in the order of their sequences.
-/

namespace BbtFramework.Inbound

open BbtFramework.Library
open BbtFramework.Ordered
open OrderedIngress

theorem queueOf_setMailbox (world : DispatchWorld) (key actorKey : String)
    (mailbox : ActorMailbox ActorTask) :
    (world.setMailbox key mailbox).queueOf actorKey =
      if actorKey = key then mailbox.queue else world.queueOf actorKey := by
  by_cases hkey : actorKey = key
  · simp [DispatchWorld.queueOf, DispatchWorld.setMailbox, hkey]
  · simp [DispatchWorld.queueOf, DispatchWorld.setMailbox, hkey]

theorem queueOf_of_mailbox {world : DispatchWorld} {key : String}
    {mailbox : ActorMailbox ActorTask}
    (hmailbox : world.mailboxes key = some mailbox) :
    world.queueOf key = mailbox.queue := by
  unfold DispatchWorld.queueOf
  rw [hmailbox]

/-- A call that takes its turn with nothing but its own position. -/
theorem InLine.goto {before : DispatchWorld} {dispatch : Nat} {pc : DispatchPc}
    (hline : InLine before) (hbusy : before.dispatches dispatch ≠ .idle)
    (hpending : ∀ call ticket, pc.pendingCall = some call →
      call.ticket = some ticket →
      ∃ old, (before.dispatches dispatch).pendingCall = some old ∧
        old.key = call.key ∧ old.ticket = some ticket) :
    InLine (before.goto dispatch pc) :=
  hline.quiet hline.consistent (fun _ => rfl) (Nat.le_refl _)
    (hline.lt_count hbusy) rfl hpending rfl (fun _ => rfl)

/-- A call that moves to a position without a pending ticket. -/
theorem InLine.stop {before : DispatchWorld} {dispatch : Nat} {pc : DispatchPc}
    (hline : InLine before) (hbusy : before.dispatches dispatch ≠ .idle)
    (hpending : pc.pendingCall = none) : InLine (before.goto dispatch pc) := by
  apply hline.goto hbusy
  intro call ticket hcall
  rw [hpending] at hcall
  cases hcall

/-- What a step changes beside positions, queues, history and ingress does not
matter. -/
theorem InLine.congr {before after : DispatchWorld} (hline : InLine before)
    (hingress : after.ingress = before.ingress)
    (hcount : after.count = before.count)
    (hdispatches : after.dispatches = before.dispatches)
    (hstarted : after.started = before.started)
    (hqueues : ∀ actorKey, after.queueOf actorKey = before.queueOf actorKey) :
    InLine after := by
  have hnone : (none : Option ActorTask).toList = [] := rfl
  refine hline.drain "" none hingress hcount hdispatches ?_ ?_
    (fun other _ => hqueues other)
  · rw [hstarted, hnone, List.append_nil]
  · rw [hqueues, hnone, List.nil_append]

/-- The ingress may change as long as its counters do not. -/
theorem InLine.counters {before : DispatchWorld} {ingress : OrderedIngress}
    (hline : InLine before) (hconsistent : Consistent ingress)
    (hnext : ∀ key, ingress.nextAt key = before.ingress.nextAt key) :
    InLine { before with ingress := ingress } := by
  refine ⟨hconsistent, hline.fresh, hline.placed, hline.keyed, ?_,
    hline.distinct, hline.ahead, hline.sorted⟩
  intro key
  rw [hnext]
  exact hline.below key

section

variable [Infra]

theorem check_inLine {before after : DispatchWorld} {dispatch : Nat}
    (hline : InLine before) (hnext : before.check dispatch = some after) :
    InLine after := by
  cases hat : before.dispatches dispatch with
  | check incoming request =>
      have hbusy : before.dispatches dispatch ≠ .idle := by simp [hat]
      simp only [DispatchWorld.check, hat] at hnext
      split at hnext
      · obtain rfl := Option.some.inj hnext
        exact hline.stop hbusy rfl
      · have hcounted : InLine { before with inflight := before.inflight + 1 } :=
          hline.congr rfl rfl rfl rfl (fun _ => rfl)
        split at hnext
        · obtain rfl := Option.some.inj hnext
          exact hcounted.stop hbusy rfl
        · obtain rfl := Option.some.inj hnext
          exact hcounted.stop hbusy rfl
  | _ => simp [DispatchWorld.check, hat] at hnext

theorem afterRead_ticket {incoming : Rpc.IncomingCallContext}
    {request : Rpc.RpcEnvelope} {accepted : Accepted} {now : Rpc.Deadline}
    {call : DispatchCall}
    (hpending : (DispatchWorld.afterRead incoming request accepted now).pendingCall =
      some call) : call.ticket = none := by
  unfold DispatchWorld.afterRead at hpending
  split at hpending
  · cases hpending
  · split at hpending
    · cases hpending
    · split at hpending
      · cases hpending
      · simp only at hpending
        split at hpending
        · obtain rfl := Option.some.inj hpending
          rfl
        · split at hpending <;> cases hpending

theorem read_inLine {before after : DispatchWorld} {dispatch : Nat}
    {now : Rpc.Deadline} (hline : InLine before)
    (hnext : before.read dispatch now = some after) : InLine after := by
  cases hat : before.dispatches dispatch with
  | read incoming request accepted =>
      simp only [DispatchWorld.read, hat] at hnext
      obtain rfl := Option.some.inj hnext
      apply hline.goto (by simp [hat])
      intro call ticket hcall hticket
      rw [afterRead_ticket hcall] at hticket
      cases hticket
  | _ => simp [DispatchWorld.read, hat] at hnext

omit [Infra] in
theorem invoke_inLine {before after : DispatchWorld} {dispatch : Nat}
    {outcome : Except Error Rpc.Bytes} (hline : InLine before)
    (hnext : before.invoke dispatch outcome = some after) : InLine after := by
  cases hat : before.dispatches dispatch with
  | invoke call =>
      simp only [DispatchWorld.invoke, hat] at hnext
      obtain rfl := Option.some.inj hnext
      exact hline.stop (by simp [hat]) rfl
  | _ => simp [DispatchWorld.invoke, hat] at hnext

theorem admitting_inLine {before after : DispatchWorld} {dispatch : Nat}
    (hline : InLine before) (hnext : before.admitting dispatch = some after) :
    InLine after := by
  cases hat : before.dispatches dispatch with
  | admitting call =>
      have hbusy : before.dispatches dispatch ≠ .idle := by simp [hat]
      rcases admit_cases hline.consistent call.ordered with
        ⟨error, hadmitted⟩ | ⟨ticket, entry, -, hadmitted, hkind, hreplay, -⟩ |
        ⟨-, -, hresult, hconsumes, hconsistent⟩
      · simp only [DispatchWorld.admitting, hat, hadmitted] at hnext
        obtain rfl := Option.some.inj hnext
        exact hline.stop hbusy rfl
      · simp only [DispatchWorld.admitting, hat, hadmitted, hkind, hreplay]
          at hnext
        obtain rfl := Option.some.inj hnext
        exact hline.stop hbusy rfl
      · simp only [DispatchWorld.admitting, hat, hresult] at hnext
        obtain rfl := Option.some.inj hnext
        exact hline.execute hat hconsumes hconsistent rfl rfl rfl (fun _ => rfl)
  | _ => simp [DispatchWorld.admitting, hat] at hnext

theorem activate_inLine {before after : DispatchWorld} {dispatch : Nat}
    {outcome : FactoryOutcome} (hline : InLine before)
    (hnext : before.activate dispatch outcome = some after) : InLine after := by
  cases hat : before.dispatches dispatch with
  | activate call =>
      have hlooked : ∀ registry, InLine { before with registry := registry } :=
        fun _ => hline.congr rfl rfl rfl rfl (fun _ => rfl)
      simp only [DispatchWorld.activate, hat] at hnext
      split at hnext
      · obtain rfl := Option.some.inj hnext
        exact (hlooked _).stop (by simp [hat]) rfl
      · obtain rfl := Option.some.inj hnext
        apply (hlooked _).goto (by simp [hat])
        rintro held ticket ⟨⟩ hticket
        exact ⟨call, by simp [hat, DispatchPc.pendingCall], rfl, hticket⟩
  | _ => simp [DispatchWorld.activate, hat] at hnext

omit [Infra] in
theorem findMailbox_inLine {before after : DispatchWorld} {dispatch : Nat}
    (hline : InLine before) (hnext : before.findMailbox dispatch = some after) :
    InLine after := by
  cases hat : before.dispatches dispatch with
  | findMailbox call =>
      have hstays : ∀ world : DispatchWorld, InLine world →
          world.dispatches = before.dispatches →
          InLine (world.goto dispatch (.createWaiter call)) := by
        intro world hworld hsame
        apply hworld.goto (by simp [hsame, hat])
        rintro held ticket ⟨⟩ hticket
        exact ⟨call, by simp [hsame, hat, DispatchPc.pendingCall], rfl, hticket⟩
      simp only [DispatchWorld.findMailbox, hat] at hnext
      split at hnext
      · obtain rfl := Option.some.inj hnext
        exact hstays before hline rfl
      · next hmissing =>
          obtain rfl := Option.some.inj hnext
          refine hstays (before.setMailbox call.key _) ?_ rfl
          refine hline.congr rfl rfl rfl rfl ?_
          intro actorKey
          rw [queueOf_setMailbox]
          split
          case isTrue heq =>
            subst heq
            simp [DispatchWorld.queueOf, hmissing, ActorMailbox.create]
          case isFalse => rfl
  | _ => simp [DispatchWorld.findMailbox, hat] at hnext

theorem createWaiter_inLine {before after : DispatchWorld} {dispatch : Nat}
    {created : Bool} (hline : InLine before)
    (hnext : before.createWaiter dispatch created = some after) :
    InLine after := by
  cases hat : before.dispatches dispatch with
  | createWaiter call =>
      simp only [DispatchWorld.createWaiter, hat] at hnext
      split at hnext
      · obtain rfl := Option.some.inj hnext
        apply hline.goto (by simp [hat])
        rintro held ticket ⟨⟩ hticket
        exact ⟨call, by simp [hat, DispatchPc.pendingCall], rfl, hticket⟩
      · obtain rfl := Option.some.inj hnext
        exact hline.stop (by simp [hat]) rfl
  | _ => simp [DispatchWorld.createWaiter, hat] at hnext

theorem enqueue_inLine {before after : DispatchWorld} {dispatch : Nat}
    {registration : Registration} (hline : InLine before)
    (hguard : EnqueuesInTurn before (.enqueue dispatch registration))
    (hnext : before.enqueue dispatch registration = some after) :
    InLine after := by
  cases hat : before.dispatches dispatch with
  | enqueue call =>
      simp only [DispatchWorld.enqueue, hat] at hnext
      split at hnext
      · cases hnext
      · next mailbox hmailbox =>
          have hbusy : before.dispatches dispatch ≠ .idle := by simp [hat]
          rcases ActorMailbox.tryEnqueue_cases mailbox
              ⟨dispatch, call.ticket⟩ registration with
            ⟨error, hrefused⟩ | ⟨haccepted, hqueue⟩
          · simp only [hrefused] at hnext
            obtain rfl := Option.some.inj hnext
            have hsame : InLine ((before.setMailbox call.key mailbox).setSlot
                dispatch ⟨.error error, true⟩) := by
              refine hline.congr rfl rfl rfl rfl ?_
              intro actorKey
              refine (queueOf_setMailbox before call.key actorKey mailbox).trans ?_
              split
              case isTrue heq => rw [heq, queueOf_of_mailbox hmailbox]
              case isFalse => rfl
            exact hsame.stop hbusy rfl
          · have hjoined : ∀ actorKey, (before.setMailbox call.key
                (mailbox.tryEnqueue ⟨dispatch, call.ticket⟩ registration).2).queueOf
                  actorKey =
                if actorKey = call.key then
                  before.queueOf actorKey ++ [⟨dispatch, call.ticket⟩]
                else before.queueOf actorKey := by
              intro actorKey
              rw [queueOf_setMailbox]
              split
              case isTrue heq => rw [heq, queueOf_of_mailbox hmailbox, hqueue]
              case isFalse => rfl
            rcases haccepted with hok | hthrew
            · simp only [hok] at hnext
              obtain rfl := Option.some.inj hnext
              exact hline.accept hat hguard rfl rfl rfl rfl rfl hjoined
            · simp only [hthrew] at hnext
              obtain rfl := Option.some.inj hnext
              exact hline.accept hat hguard rfl rfl rfl rfl rfl hjoined
  | _ => simp [DispatchWorld.enqueue, hat] at hnext

theorem failWait_inLine {before after : DispatchWorld} {dispatch : Nat}
    {status : WaitStatus} (hline : InLine before)
    (hnext : before.failWait dispatch status = some after) : InLine after := by
  cases hat : before.dispatches dispatch with
  | enqueue call =>
      cases hstatus : waitError status with
      | none => simp [DispatchWorld.failWait, hat, hstatus] at hnext
      | some reason =>
          simp only [DispatchWorld.failWait, hat, hstatus] at hnext
          obtain rfl := Option.some.inj hnext
          exact hline.stop (by simp [hat]) rfl
  | _ => simp [DispatchWorld.failWait, hat] at hnext

theorem resume_inLine {before after : DispatchWorld} {dispatch : Nat}
    {status : WaitStatus} (hline : InLine before)
    (hnext : before.resume dispatch status = some after) : InLine after := by
  cases hat : before.dispatches dispatch with
  | suspended call =>
      have hbusy : before.dispatches dispatch ≠ .idle := by simp [hat]
      simp only [DispatchWorld.resume, hat] at hnext
      split at hnext
      · obtain rfl := Option.some.inj hnext
        exact hline.stop hbusy rfl
      · split at hnext
        · obtain rfl := Option.some.inj hnext
          exact hline.stop hbusy rfl
        · cases hnext
  | _ => simp [DispatchWorld.resume, hat] at hnext

theorem complete_inLine {before after : DispatchWorld} {dispatch : Nat}
    (hline : InLine before) (hnext : before.complete dispatch = some after) :
    InLine after := by
  cases hat : before.dispatches dispatch with
  | complete call outcome =>
      have hbusy : before.dispatches dispatch ≠ .idle := by simp [hat]
      simp only [DispatchWorld.complete, hat] at hnext
      split at hnext
      · obtain rfl := Option.some.inj hnext
        exact hline.stop hbusy rfl
      · next ticket hticket =>
          rcases complete_cases hline.consistent ticket (terminalOf outcome) with
            ⟨error, hrefused⟩ | ⟨entry, -, hok, hends, hconsistent⟩
          · simp only [hrefused] at hnext
            obtain rfl := Option.some.inj hnext
            exact hline.stop hbusy rfl
          · simp only [hok] at hnext
            obtain rfl := Option.some.inj hnext
            have hended : InLine { before with
                ingress := (before.ingress.complete ticket (terminalOf outcome)).2 } :=
              hline.counters hconsistent hends.next
            exact hended.stop hbusy rfl
  | _ => simp [DispatchWorld.complete, hat] at hnext

omit [Infra] in
theorem leave_inLine {before after : DispatchWorld} {dispatch : Nat}
    (hline : InLine before) (hnext : before.leave dispatch = some after) :
    InLine after := by
  cases hat : before.dispatches dispatch with
  | leave result =>
      simp only [DispatchWorld.leave, hat] at hnext
      obtain rfl := Option.some.inj hnext
      have hcounted : InLine { before with inflight := before.inflight - 1 } :=
        hline.congr rfl rfl rfl rfl (fun _ => rfl)
      exact hcounted.stop (by simp [hat]) rfl
  | unwind =>
      simp only [DispatchWorld.leave, hat] at hnext
      obtain rfl := Option.some.inj hnext
      have hcounted : InLine { before with inflight := before.inflight - 1 } :=
        hline.congr rfl rfl rfl rfl (fun _ => rfl)
      exact hcounted.stop (by simp [hat]) rfl
  | _ => simp [DispatchWorld.leave, hat] at hnext

omit [Infra] in
theorem drain_inLine {before after : DispatchWorld} {key : String}
    (hline : InLine before) (hnext : before.drain key = some after) :
    InLine after := by
  unfold DispatchWorld.drain at hnext
  split at hnext
  · cases hnext
  · next mailbox hmailbox =>
      split at hnext
      · cases hnext
      · next taken rest htake =>
          obtain rfl := Option.some.inj hnext
          refine hline.drain key taken rfl rfl rfl rfl ?_ ?_
          · refine (queueOf_of_mailbox hmailbox).trans ?_
            have hrest : DispatchWorld.queueOf { before.setMailbox key rest with
                started := before.started ++ taken.toList } key = rest.queue :=
              queueOf_of_mailbox (Function.update_self ..)
            rw [hrest]
            rcases ActorMailbox.takeNext_cases htake with
              ⟨rfl, hqueue, hafter⟩ | ⟨task, rfl, hqueue⟩
            · simp [hqueue, hafter]
            · simp [hqueue]
          · intro other hother
            exact (queueOf_setMailbox before key other rest).trans
              (if_neg hother)

omit [Infra] in
theorem endTask_inLine {before after : DispatchWorld} {key : String}
    {outcome : Option (Except Error Rpc.Bytes)} (hline : InLine before)
    (hnext : before.endTask key outcome = some after) : InLine after := by
  unfold DispatchWorld.endTask at hnext
  split at hnext
  · cases hnext
  · next mailbox hmailbox =>
      split at hnext
      · cases hnext
      · next task rest hend =>
          have hended : InLine (before.setMailbox key rest) := by
            refine hline.congr rfl rfl rfl rfl ?_
            intro actorKey
            rw [queueOf_setMailbox]
            split
            case isTrue heq =>
              rw [heq, queueOf_of_mailbox hmailbox,
                ActorMailbox.endTask_queue hend]
            case isFalse => rfl
          split at hnext
          · obtain rfl := Option.some.inj hnext
            exact hended
          · obtain rfl := Option.some.inj hnext
            exact hended.congr rfl rfl rfl rfl (fun _ => rfl)

theorem call_inLine {before after : DispatchWorld}
    {incoming : Rpc.IncomingCallContext} {request : Rpc.RpcEnvelope}
    (hline : InLine before)
    (hnext : before.call incoming request = some after) : InLine after := by
  simp only [DispatchWorld.call, Option.ite_none_right_eq_some,
    Option.some.injEq] at hnext
  obtain ⟨-, rfl⟩ := hnext
  refine hline.quiet hline.consistent (fun _ => rfl) (Nat.le_succ _)
    (Nat.lt_succ_self before.count) rfl ?_ rfl (fun _ => rfl)
  intro call ticket hcall
  cases hcall

theorem next_inLine {before after : DispatchWorld} {step : DispatchStep}
    (hline : InLine before) (hguard : EnqueuesInTurn before step)
    (hnext : before.next step = some after) : InLine after := by
  cases step with
  | call incoming request => exact call_inLine hline hnext
  | check dispatch => exact check_inLine hline hnext
  | read dispatch now => exact read_inLine hline hnext
  | invoke dispatch outcome => exact invoke_inLine hline hnext
  | admitting dispatch => exact admitting_inLine hline hnext
  | activate dispatch outcome => exact activate_inLine hline hnext
  | findMailbox dispatch => exact findMailbox_inLine hline hnext
  | createWaiter dispatch created => exact createWaiter_inLine hline hnext
  | enqueue dispatch registration => exact enqueue_inLine hline hguard hnext
  | failWait dispatch status => exact failWait_inLine hline hnext
  | resume dispatch status => exact resume_inLine hline hnext
  | complete dispatch => exact complete_inLine hline hnext
  | leave dispatch => exact leave_inLine hline hnext
  | drain key => exact drain_inLine hline hnext
  | endTask key outcome => exact endTask_inLine hline hnext

theorem reachable_inLine {world : DispatchWorld}
    (hreach : dispatchMachine.ReachableWhere EnqueuesInTurn world) :
    InLine world := by
  refine hreach.induct ?_ ?_
  · rintro world ⟨⟨history, hhistory, hingress⟩, -, -, hstarted, hmailboxes, hidle⟩
    have hline : ∀ key, world.lineOn key = [] := by
      intro key
      simp [DispatchWorld.lineOn, DispatchWorld.startedOn,
        DispatchWorld.queuedOn, DispatchWorld.queueOf, hstarted, hmailboxes]
    have hpending : ∀ dispatch, (world.dispatches dispatch).pendingCall = none := by
      intro dispatch
      rw [hidle]
      rfl
    constructor
    · rw [hingress]
      exact reachable_consistent hhistory
    · intro dispatch _
      exact hidle dispatch
    · simp [DispatchWorld.queueOf, hmailboxes]
    · simp [hpending]
    · simp [hline, DispatchWorld.pendingOn, DispatchPc.pendingTicket, hpending,
        sequenceOn]
    · simp [DispatchWorld.pendingOn, DispatchPc.pendingTicket, hpending,
        sequenceOn]
    · simp [hline]
    · simp [hline]
  · intro before step after _ hline hguard hnext
    exact next_inLine hline hguard hnext

/-- In every run in which calls enqueue in turn, the tasks of each stream are
started in the order of their sequences. -/
theorem stream_starts_in_order {world : DispatchWorld}
    (hreach : dispatchMachine.ReachableWhere EnqueuesInTurn world) :
    StartsInOrder world := by
  intro key
  have hsorted := (reachable_inLine hreach).sorted key
  exact (List.pairwise_append.mp hsorted).1

end

def sampleDispatch [Infra] : DispatchWorld where
  services := (∅ : Table String ServiceEntry).insert "chat"
    { options := ⟨4, 4, true⟩
      table := [⟨"say", "in", "out", true, fun _ => .ok "room"⟩]
      ingressBound := true }
  service := "chat"
  inflight := 0
  ingress := (sampleWorld.after [.grant (sampleGrant "r1")]).ingress
  registry := ⟨some 4, []⟩
  mailboxes := fun _ => none
  count := 0
  dispatches := fun _ => .idle
  slots := fun _ => emptySlot
  started := []

theorem sampleDispatch_init [Infra] : dispatchMachine.init sampleDispatch :=
  ⟨⟨_, sample_reachable _, rfl⟩, rfl, rfl, rfl, fun _ => rfl, fun _ => rfl⟩

def sampleAdmit (dispatch : Nat) (sequence : String) : List DispatchStep :=
  [.call ⟨10 ^ 9, "peer"⟩
      { service := "chat"
        method := "say"
        requestSchema := "in"
        responseSchema := "out"
        payload := [104, 105]
        requestId := "request/" ++ sequence
        metadata := [("fw.producer_id", "producer"), ("fw.producer_epoch", "p1"),
          ("fw.receiver_epoch", "r1"), ("fw.sequence", sequence)] },
    .check dispatch, .read dispatch 0, .admitting dispatch]

/-- From the admission to the mailbox. -/
def sampleEnqueue (dispatch : Nat) : List DispatchStep :=
  [.activate dispatch .made, .findMailbox dispatch, .createWaiter dispatch true,
    .enqueue dispatch .done]

def sampleStream : StreamKey := ⟨"room", "producer", "p1"⟩

/-- Both calls are admitted before either enqueues, and they enqueue in turn. -/
theorem stream_starts_in_order_sample :
    letI := permissiveInfra
    ∃ world, world.startedOn sampleStream = [1, 2] ∧ StartsInOrder world := by
  let _ := permissiveInfra
  have hreach : dispatchMachine.ReachableWhere EnqueuesInTurn sampleDispatch :=
    .start sampleDispatch_init
  obtain ⟨world, hworld, hstarted⟩ := hreach.exec_any
    (fun world step => decide (EnqueuesInTurn world step))
    (fun _ _ => of_decide_eq_true)
    (sampleAdmit 0 "1" ++ sampleAdmit 1 "2" ++ sampleEnqueue 0 ++
      sampleEnqueue 1 ++ [.drain "room", .endTask "room" none, .drain "room"])
    (fun world => world.startedOn sampleStream = [1, 2]) (by decide)
  exact ⟨world, of_decide_eq_true hstarted, stream_starts_in_order hworld⟩

/-- The call of sequence 2 reaches the mailbox first and its handler is started
before the one of sequence 1. -/
theorem overtaken_call_starts_late :
    letI := permissiveInfra
    ∃ world, dispatchMachine.Reachable world ∧
      world.startedOn sampleStream = [2, 1] ∧ ¬ StartsInOrder world := by
  let _ := permissiveInfra
  have hreach : dispatchMachine.Reachable sampleDispatch :=
    .start sampleDispatch_init
  obtain ⟨world, hworld, hstarted⟩ := hreach.exec_any
    (fun _ _ => true) (fun _ _ _ => trivial)
    (sampleAdmit 0 "1" ++ sampleAdmit 1 "2" ++ sampleEnqueue 1 ++
      sampleEnqueue 0 ++ [.drain "room", .endTask "room" none, .drain "room"])
    (fun world => world.startedOn sampleStream = [2, 1]) (by decide)
  have hstarts := of_decide_eq_true hstarted
  refine ⟨world, hworld, hstarts, fun horder => ?_⟩
  have hpair := horder sampleStream
  rw [hstarts] at hpair
  exact absurd hpair (by decide)

end BbtFramework.Inbound
