import BbtFramework.Inbound.DispatchOrder
import BbtFramework.Inbound.TracedSettlement
import BbtFramework.Ordered.SequenceEnd

/-!
# A duplicate gets the first reply

The first caller's reply and the cached terminal go through the boundary check on different
paths, and a replay checks the terminal once more.  The check is idempotent, so that all of
them agree, and an admission that was completed answers every duplicate admitted later in its
session, for as long as the cache has the reply and its erased fronts last.
-/

namespace BbtFramework.Inbound

open BbtFramework.Library
open BbtFramework.Ordered
open BbtFramework.Rpc
open OrderedIngress

section

variable [Infra]

/-- The error a caller sees passes the boundary check. -/
theorem safeError_valid (hinfra : Infra.ChecksDetails) (error : Error) :
    validateErrorAtBoundary (safeError error) = .ok () := by
  unfold safeError
  split
  · next hvalid => exact hvalid
  · next reason hrefused =>
      exact validateErrorAtBoundary_plain hinfra (refusal_details hinfra hrefused)

/-- So it is not checked into another one. -/
theorem safeError_safeError (hinfra : Infra.ChecksDetails) (error : Error) :
    safeError (safeError error) = safeError error := by
  have hvalid := safeError_valid hinfra error
  rw [safeError, hvalid]

/-- The terminal of a call is cached as it was passed to `Complete`. -/
theorem terminalReply_terminalOf (hinfra : Infra.ChecksDetails)
    (outcome : Except Error Bytes) : terminalReply (terminalOf outcome) = terminalOf outcome := by
  apply terminalReply_eq
  cases outcome with
  | error error => exact Or.inr (safeError_valid hinfra error)
  | ok payload => exact Or.inl rfl

theorem checkRequest_method {services : Table String ServiceEntry} {request : RpcEnvelope}
    {accepted : Accepted} (hcheck : checkRequest services request = .ok accepted) :
    ∃ entry, services.lookup request.service = some entry ∧
      findMethod entry.table request.method = some accepted.method := by
  unfold checkRequest at hcheck
  split at hcheck
  · cases hcheck
  · split at hcheck
    · cases hcheck
    · split at hcheck
      · cases hcheck
      · split at hcheck
        · cases hcheck
        · next entry hentry =>
            split at hcheck
            · cases hcheck
            · next method hmethod =>
                split at hcheck
                · cases hcheck
                · cases hcheck
                  exact ⟨entry, hentry, hmethod⟩

theorem replyEnvelope_eq {world : DispatchWorld} {call other : DispatchCall}
    (hcall : call.Genuine world) (hother : other.Genuine world)
    (hordered : other.ordered = call.ordered) (payload : Bytes) :
    replyEnvelope other.request other.accepted.method payload =
      replyEnvelope call.request call.accepted.method payload := by
  have hservice : other.request.service = call.request.service :=
    hother.1.trans hcall.1.symm
  have hname : other.request.method = call.request.method :=
    congrArg OrderedIngressRequest.method hordered
  have hid : other.request.requestId = call.request.requestId :=
    congrArg OrderedIngressRequest.requestId hordered
  obtain ⟨entry, hentry, hmethod⟩ := checkRequest_method hcall.2
  obtain ⟨found, hfound, hsame⟩ := checkRequest_method hother.2
  rw [hservice] at hfound
  obtain rfl : entry = found := Option.some.inj (hentry.symm.trans hfound)
  rw [hname] at hsame
  have haccepted : other.accepted.method = call.accepted.method :=
    Option.some.inj (hsame.symm.trans hmethod)
  unfold replyEnvelope
  rw [hservice, hname, hid, haccepted]

theorem replayReply_eq (hinfra : Infra.ChecksDetails) {world : DispatchWorld}
    {call other : DispatchCall} (hcall : call.Genuine world) (hother : other.Genuine world)
    (hordered : other.ordered = call.ordered) (outcome : Except Error Bytes) :
    replayReply other (terminalReply (terminalOf outcome)) = resultOf call outcome := by
  rw [terminalReply_terminalOf hinfra]
  cases outcome with
  | error error =>
      change Except.error (safeError (safeError error)) = Except.error (safeError error)
      rw [safeError_safeError hinfra]
  | ok payload =>
      change Except.ok (replyEnvelope _ _ (stringToBytes (bytesToString payload))) = _
      rw [stringToBytes_bytesToString, replyEnvelope_eq hcall hother hordered]
      rfl

def ValidReply : Except Error RpcEnvelope → Prop
  | .ok _ => True
  | .error reason => validateErrorAtBoundary reason = .ok ()

theorem resultOf_valid (hinfra : Infra.ChecksDetails) (call : DispatchCall)
    (outcome : Except Error Bytes) : ValidReply (resultOf call outcome) := by
  cases outcome with
  | error error => exact safeError_valid hinfra error
  | ok payload => exact trivial

theorem admit_replay {ingress : OrderedIngress} {request : OrderedIngressRequest}
    {reply : OrderedTerminalReply} {kept : CachedResult}
    (hconsistent : Consistent ingress) (hremembered : Remembered ingress request)
    (hkept : Kept ingress request reply)
    (hcached : ingress.cachedAt request.streamKey request.sequence = some kept)
    (hcounter : ingress.nextAt request.streamKey ≠ some 0) :
    ∃ ticket, ingress.admitRequest request = (.ok ticket, ingress) ∧
      ticket.kind = .replay ∧ ticket.replay = some reply := by
  obtain ⟨hstamped, ⟨grant, hgrant⟩, ⟨next, hnext, hpos, hlt⟩, -⟩ := hremembered
  have hne : next ≠ 0 := by
    rintro rfl
    exact hcounter hnext
  rw [span_eq hne] at hlt
  obtain ⟨view, hview, rfl⟩ := Option.map_eq_some_iff.mp hnext
  obtain ⟨state, hlookup, rfl⟩ := Option.map_eq_some_iff.mp hview
  have hflight : state.inFlight.lookup request.sequence = none := by
    have hnone := hkept.1
    rw [inFlightAt, hview] at hnone
    exact hnone
  have hzero : request.sequence ≠ 0 := by
    intro hzero
    rw [hzero] at hpos
    exact absurd hpos (by decide)
  have hpast : request.sequence < state.nextSequence := UInt64.lt_iff_toNat_lt.mpr hlt
  have hentry := hkept.2 kept hcached
  have hlookupCached : ingress.cached.lookup ⟨request.streamKey, request.sequence⟩ =
      some kept := hcached
  have hanswer : ingress.answerConsumed request state =
      .ok ⟨.replay, request.sequence, request.actorKey, request.producerId,
        request.producerEpoch, some reply⟩ := by
    unfold answerConsumed
    simp only [hflight, hlookupCached, hentry, keptResult, ne_eq, not_true_eq_false, or_self,
      if_false]
  rw [admitRequest_of_lookup hstamped.1 hstamped.2 (hconsistent.authorized hgrant) hlookup,
    if_neg hzero, if_neg (UInt64.not_lt.mpr (UInt64.le_of_lt hpast)), if_pos hpast, hanswer]
  exact ⟨_, rfl, rfl, rfl⟩

/-- A call that admission answers from the cache returns the kept reply. -/
theorem admitting_replay {world : DispatchWorld} {dispatch : Nat} {call : DispatchCall}
    {ticket : Admission} {reply : OrderedTerminalReply}
    (hat : world.dispatches dispatch = .admitting call)
    (hadmitted : world.ingress.admitRequest call.ordered = (.ok ticket, world.ingress))
    (hkind : ticket.kind = .replay) (hreplay : ticket.replay = some reply) :
    world.admitting dispatch =
      some (world.goto dispatch (.leave (replayReply call reply))) := by
  simp only [DispatchWorld.admitting, hat, hadmitted, hkind, hreplay]

/-! ## The steps of one call -/

/-- The call the step moves; a mailbox moves none, which the next index stands for. -/
def DispatchStep.subject (world : DispatchWorld) : DispatchStep → Nat
  | .call _ _ => world.count
  | .check dispatch => dispatch
  | .read dispatch _ => dispatch
  | .invoke dispatch _ => dispatch
  | .admitting dispatch => dispatch
  | .activate dispatch _ => dispatch
  | .findMailbox dispatch => dispatch
  | .createWaiter dispatch _ => dispatch
  | .enqueue dispatch _ => dispatch
  | .failWait dispatch _ => dispatch
  | .resume dispatch _ => dispatch
  | .complete dispatch => dispatch
  | .leave dispatch => dispatch
  | .drain _ => world.count
  | .endTask _ _ => world.count

/-- The positions at which a step is enabled. -/
def DispatchStep.acts : DispatchStep → DispatchPc → Bool
  | .call _ _, .idle => true
  | .check _, .check _ _ => true
  | .read _ _, .read _ _ _ => true
  | .invoke _ _, .invoke _ => true
  | .admitting _, .admitting _ => true
  | .activate _ _, .activate _ => true
  | .findMailbox _, .findMailbox _ => true
  | .createWaiter _ _, .createWaiter _ => true
  | .enqueue _ _, .enqueue _ => true
  | .failWait _ _, .enqueue _ => true
  | .resume _ _, .suspended _ => true
  | .complete _, .complete _ _ => true
  | .leave _, .leave _ => true
  | .leave _, .unwind => true
  | .drain _, .idle => true
  | .endTask _ _, .idle => true
  | _, _ => false

namespace DispatchWorld

variable {before after : DispatchWorld} {step : DispatchStep}

/-- No other call moves. -/
theorem next_apart (hcounted : before.Counted) (hconsistent : Consistent before.ingress)
    (hnext : before.next step = some after) {other : Nat}
    (hne : other ≠ step.subject before) : after.dispatches other = before.dispatches other := by
  have hmoves : ∀ {pc}, Moves before after (step.subject before) pc →
      after.dispatches other = before.dispatches other := by
    intro pc hmoves
    rw [hmoves.dispatches, Function.update_of_ne hne]
  cases step with
  | call incoming request => exact hmoves (call_moves hcounted hnext)
  | check dispatch => exact (check_moves hcounted hnext).elim fun _ => hmoves
  | read dispatch now => exact (read_moves hcounted hnext).elim fun _ => hmoves
  | invoke dispatch outcome => exact (invoke_moves hcounted hnext).elim fun _ => hmoves
  | admitting dispatch =>
      obtain ⟨result, hleave⟩ | ⟨call, grant, -, -, -, -, -, rfl⟩ :=
        admitting_cases hcounted hconsistent hnext
      · exact hmoves hleave
      · exact goto_of_ne _ hne
  | activate dispatch outcome => exact (activate_moves hcounted hnext).elim fun _ => hmoves
  | findMailbox dispatch => exact (findMailbox_moves hcounted hnext).elim fun _ => hmoves
  | createWaiter dispatch created =>
      exact (createWaiter_moves hcounted hnext).elim fun _ => hmoves
  | enqueue dispatch registration => exact (enqueue_moves hcounted hnext).elim fun _ => hmoves
  | failWait dispatch status => exact (failWait_moves hcounted hnext).elim fun _ => hmoves
  | resume dispatch status => exact (resume_moves hcounted hnext).elim fun _ => hmoves
  | complete dispatch =>
      obtain ⟨call, outcome, -, ⟨-, rfl⟩ | ⟨ticket, -, rfl⟩⟩ := complete_cases hnext
      · exact goto_of_ne _ hne
      · exact goto_of_ne _ hne
  | leave dispatch => exact (leave_moves hcounted hnext).elim fun _ => hmoves
  | drain key => exact hmoves (drain_moves hcounted hnext)
  | endTask key outcome => exact hmoves (endTask_moves hcounted hnext)

theorem acts_next (hcounted : before.Counted) (hnext : before.next step = some after) :
    step.acts (before.dispatches (step.subject before)) = true := by
  have hidle := hcounted before.count (Nat.le_refl _)
  cases step with
  | call incoming request =>
      rw [DispatchStep.subject, hidle]
      rfl
  | check dispatch =>
      cases hat : before.dispatches dispatch with
      | check => rw [DispatchStep.subject, hat]; rfl
      | _ => simp [DispatchWorld.next, DispatchWorld.check, hat] at hnext
  | read dispatch now =>
      cases hat : before.dispatches dispatch with
      | read => rw [DispatchStep.subject, hat]; rfl
      | _ => simp [DispatchWorld.next, DispatchWorld.read, hat] at hnext
  | invoke dispatch outcome =>
      cases hat : before.dispatches dispatch with
      | invoke => rw [DispatchStep.subject, hat]; rfl
      | _ => simp [DispatchWorld.next, DispatchWorld.invoke, hat] at hnext
  | admitting dispatch =>
      cases hat : before.dispatches dispatch with
      | admitting => rw [DispatchStep.subject, hat]; rfl
      | _ => simp [DispatchWorld.next, DispatchWorld.admitting, hat] at hnext
  | activate dispatch outcome =>
      cases hat : before.dispatches dispatch with
      | activate => rw [DispatchStep.subject, hat]; rfl
      | _ => simp [DispatchWorld.next, DispatchWorld.activate, hat] at hnext
  | findMailbox dispatch =>
      cases hat : before.dispatches dispatch with
      | findMailbox => rw [DispatchStep.subject, hat]; rfl
      | _ => simp [DispatchWorld.next, DispatchWorld.findMailbox, hat] at hnext
  | createWaiter dispatch created =>
      cases hat : before.dispatches dispatch with
      | createWaiter => rw [DispatchStep.subject, hat]; rfl
      | _ => simp [DispatchWorld.next, DispatchWorld.createWaiter, hat] at hnext
  | enqueue dispatch registration =>
      cases hat : before.dispatches dispatch with
      | enqueue => rw [DispatchStep.subject, hat]; rfl
      | _ => simp [DispatchWorld.next, DispatchWorld.enqueue, hat] at hnext
  | failWait dispatch status =>
      cases hat : before.dispatches dispatch with
      | enqueue => rw [DispatchStep.subject, hat]; rfl
      | _ => simp [DispatchWorld.next, DispatchWorld.failWait, hat] at hnext
  | resume dispatch status =>
      cases hat : before.dispatches dispatch with
      | suspended => rw [DispatchStep.subject, hat]; rfl
      | _ => simp [DispatchWorld.next, DispatchWorld.resume, hat] at hnext
  | complete dispatch =>
      cases hat : before.dispatches dispatch with
      | complete => rw [DispatchStep.subject, hat]; rfl
      | _ => simp [DispatchWorld.next, DispatchWorld.complete, hat] at hnext
  | leave dispatch =>
      cases hat : before.dispatches dispatch with
      | leave => rw [DispatchStep.subject, hat]; rfl
      | unwind => rw [DispatchStep.subject, hat]; rfl
      | _ => simp [DispatchWorld.next, DispatchWorld.leave, hat] at hnext
  | drain key =>
      rw [DispatchStep.subject, hidle]
      rfl
  | endTask key outcome =>
      rw [DispatchStep.subject, hidle]
      rfl

/-- A reading that led to an admission leads there again, unless the budget has expired. -/
theorem afterRead_again {incoming : IncomingCallContext} {request : RpcEnvelope}
    {accepted : Accepted} {now : Deadline} {call : DispatchCall}
    (hread : afterRead incoming request accepted now = .admitting call)
    (other : IncomingCallContext) (later : Deadline) :
    afterRead other request accepted later = .leave (.error expiredError) ∨
      afterRead other request accepted later =
        .admitting ⟨other, request, accepted, call.key, none⟩ := by
  unfold afterRead at hread ⊢
  split at hread
  · cases hread
  · split at hread
    · cases hread
    · next hkeyed =>
        split at hread
        · cases hread
        · next key hkey =>
            dsimp only at hread
            split at hread
            · cases hread
            · next hordered =>
                split at hread
                · cases hread
                · next hbound =>
                    cases hread
                    by_cases hlate : handlerDeadline other ≤ later
                    · exact Or.inl (if_pos hlate)
                    · right
                      rw [if_neg hlate, if_neg hkeyed]
                      dsimp only
                      rw [if_neg hordered, if_neg hbound]

end DispatchWorld

namespace SettleWorld

variable {world last : SettleWorld}

theorem Standing.settled_once (hstanding : world.Standing) {dispatch : Nat}
    {admitted : Admitted} {result : Except Error RpcEnvelope}
    (hadmitted : world.admitted dispatch = some admitted)
    (hanswer : (world.calls.dispatches dispatch).answer = some result) :
    ∃ outcome done, world.settledOf dispatch =
        [⟨dispatch, executeAdmission admitted.call.ordered, outcome, done⟩] ∧
      result = answerOf admitted.call outcome done := by
  obtain ⟨hnone, -⟩ | ⟨call, session, outcome, done, hsome, hsettled, hresult⟩ :=
    (hstanding.stands dispatch).answer result hanswer
  · cases hnone.symm.trans hadmitted
  · cases hsome.symm.trans hadmitted
    exact ⟨outcome, done, hsettled, hresult⟩

def Cached (world : SettleWorld) (dispatch : Nat) : Prop :=
  ∃ admitted ∈ world.admitted dispatch,
    admitted.session = world.sessions admitted.call.ordered.streamKey ∧
    (world.calls.ingress.cachedAt admitted.call.ordered.streamKey
      admitted.call.ordered.sequence).isSome = true ∧
    ∃ settled ∈ world.settledOf dispatch, settled.result = .ok ()

def Counting (world : SettleWorld) (dispatch : Nat) : Prop :=
  ∀ admitted ∈ world.admitted dispatch,
    world.calls.ingress.nextAt admitted.call.ordered.streamKey ≠ some 0

theorem Settling.result_kept (hsettling : world.Settling) {dispatch : Nat}
    {admitted : Admitted} {result : Except Error RpcEnvelope}
    (hadmitted : world.admitted dispatch = some admitted)
    (hanswer : (world.calls.dispatches dispatch).answer = some result)
    (hcached : world.Cached dispatch) :
    ∃ outcome kept, result = resultOf admitted.call outcome ∧
      Remembered world.calls.ingress admitted.call.ordered ∧
      Kept world.calls.ingress admitted.call.ordered (terminalReply (terminalOf outcome)) ∧
      world.calls.ingress.cachedAt admitted.call.ordered.streamKey
        admitted.call.ordered.sequence = some kept := by
  obtain ⟨outcome, done, hsettled, hresult⟩ :=
    hsettling.standing.settled_once hadmitted hanswer
  obtain ⟨found, hfound, hsession, hsome, settled, hmem, hdone⟩ := hcached
  obtain rfl : admitted = found := Option.some.inj (hadmitted.symm.trans hfound)
  obtain ⟨kept, hkept⟩ := Option.isSome_iff_exists.mp hsome
  have hall : settled ∈ world.settled := (List.mem_filter.mp hmem).1
  rw [hsettled, List.mem_singleton] at hmem
  subst hmem
  obtain rfl : done = .ok () := hdone
  exact ⟨outcome, kept, hresult, hsettling.remembered dispatch admitted hadmitted hsession,
    hsettling.kept _ hall rfl admitted hadmitted hsession, hkept⟩

/-! ## Where a duplicate stands -/

inductive DuplicateAt (call : DispatchCall) (incoming : IncomingCallContext)
    (result : Except Error RpcEnvelope) : DispatchPc → Prop where
  | check : DuplicateAt call incoming result (.check incoming call.request)
  | read (accepted : Accepted) :
      DuplicateAt call incoming result (.read incoming call.request accepted)
  | admitting : DuplicateAt call incoming result
      (.admitting ⟨incoming, call.request, call.accepted, call.key, none⟩)
  | answered {pc : DispatchPc} {reply : Except Error RpcEnvelope}
      (hanswer : pc.answer = some reply)
      (hreply : reply = result ∨ reply = .error (overloadedError call.request) ∨
        reply = .error expiredError) : DuplicateAt call incoming result pc

variable {dispatch duplicate : Nat} {admitted : Admitted} {incoming : IncomingCallContext}
  {result : Except Error RpcEnvelope}

theorem Settling.duplicate_check (hsettling : world.Settling) {after : DispatchWorld}
    (hadmitted : world.admitted dispatch = some admitted)
    (hat : world.calls.dispatches duplicate = .check incoming admitted.call.request)
    (hnext : world.calls.check duplicate = some after) :
    DuplicateAt admitted.call incoming result (after.dispatches duplicate) := by
  have hcheck := (hsettling.checked dispatch admitted hadmitted).1.2
  simp only [DispatchWorld.check, hat, hcheck] at hnext
  split at hnext
  · cases hnext
    rw [DispatchWorld.goto_self]
    exact .answered rfl (Or.inr (Or.inl rfl))
  · cases hnext
    rw [DispatchWorld.goto_self]
    exact .read _

theorem Settling.duplicate_read (hsettling : world.Settling) {after : DispatchWorld}
    {accepted : Accepted} {now : Deadline}
    (hadmitted : world.admitted dispatch = some admitted)
    (hat : world.calls.dispatches duplicate = .read incoming admitted.call.request accepted)
    (hnext : world.calls.read duplicate now = some after) :
    DuplicateAt admitted.call incoming result (after.dispatches duplicate) := by
  obtain ⟨⟨-, hcheck⟩, before, hread⟩ := hsettling.checked dispatch admitted hadmitted
  have hgenuine := hsettling.genuine duplicate
  rw [hat] at hgenuine
  obtain rfl : accepted = admitted.call.accepted :=
    Except.ok.inj (hgenuine.2.symm.trans hcheck)
  simp only [DispatchWorld.read, hat] at hnext
  cases hnext
  rw [DispatchWorld.goto_self]
  obtain hexpired | hagain := DispatchWorld.afterRead_again hread incoming now
  · rw [hexpired]
    exact .answered rfl (Or.inr (Or.inr rfl))
  · rw [hagain]
    exact .admitting

/-- At its admission: the ingress replays what the first caller got. -/
theorem Settling.duplicate_admitting (hsettling : world.Settling)
    (hinfra : Infra.ChecksDetails) {after : DispatchWorld}
    (hpeer : incoming.peerPrincipal = admitted.call.incoming.peerPrincipal)
    (hadmitted : world.admitted dispatch = some admitted)
    (hanswer : (world.calls.dispatches dispatch).answer = some result)
    (hcached : world.Cached dispatch) (hcounting : world.Counting dispatch)
    (hat : world.calls.dispatches duplicate = .admitting
      ⟨incoming, admitted.call.request, admitted.call.accepted, admitted.call.key, none⟩)
    (hnext : world.calls.admitting duplicate = some after) :
    DuplicateAt admitted.call incoming result (after.dispatches duplicate) := by
  obtain ⟨outcome, kept, rfl, hremembered, hkept, hstored⟩ :=
    hsettling.result_kept hadmitted hanswer hcached
  obtain ⟨ticket, hticket, hkind, hreplay⟩ := admit_replay hsettling.consistent hremembered
    hkept hstored (hcounting admitted hadmitted)
  have hgenuine := hsettling.genuine duplicate
  rw [hat] at hgenuine
  have hordered : DispatchCall.ordered ⟨incoming, admitted.call.request,
      admitted.call.accepted, admitted.call.key, none⟩ = admitted.call.ordered := by
    unfold DispatchCall.ordered orderedRequest
    dsimp only
    rw [hpeer]
  rw [← hordered] at hticket
  rw [admitting_replay hat hticket hkind hreplay] at hnext
  cases hnext
  rw [DispatchWorld.goto_self]
  refine .answered rfl (Or.inl ?_)
  exact replayReply_eq hinfra (hsettling.checked dispatch admitted hadmitted).1 hgenuine.1
    hordered outcome

/-- Until the duplicate has its answer, the reply stays cached in its session. -/
def StaysCached (dispatch duplicate : Nat) (world : SettleWorld) (_ : SettleStep) : Prop :=
  (world.calls.dispatches duplicate).answer.isNone = true → world.Cached dispatch

/-- And the counter of its stream does not wrap. -/
def StaysCounting (dispatch duplicate : Nat) (world : SettleWorld) (step : SettleStep) : Prop :=
  StaysCached dispatch duplicate world step ∧
    ((world.calls.dispatches duplicate).answer.isNone = true → world.Counting dispatch)

/-- No step leads a duplicate astray. -/
theorem Settling.duplicate_next (hsettling : world.Settling) (hinfra : Infra.ChecksDetails)
    {step : SettleStep} (hpeer : incoming.peerPrincipal = admitted.call.incoming.peerPrincipal)
    (hadmitted : world.admitted dispatch = some admitted)
    (hanswer : (world.calls.dispatches dispatch).answer = some result)
    (hstays : StaysCounting dispatch duplicate world step)
    (hduplicate : DuplicateAt admitted.call incoming result (world.calls.dispatches duplicate))
    (hnext : world.next step = some last) :
    DuplicateAt admitted.call incoming result (last.calls.dispatches duplicate) := by
  cases step with
  | grant grant =>
      cases hnext
      exact hduplicate
  | dispatch step =>
      have hworld := hnext
      obtain ⟨after, hafter, rfl⟩ := Option.map_eq_some_iff.mp hnext
      by_cases hsubject : duplicate = step.subject world.calls
      case neg =>
        change DuplicateAt admitted.call incoming result (after.dispatches duplicate)
        rw [DispatchWorld.next_apart hsettling.counted hsettling.consistent hafter hsubject]
        exact hduplicate
      have hacts := DispatchWorld.acts_next hsettling.counted hafter
      rw [← hsubject] at hacts
      generalize hat : world.calls.dispatches duplicate = pc at hduplicate hacts
      cases hduplicate with
      | check =>
          cases step with
          | check other =>
              obtain rfl : duplicate = other := hsubject
              exact hsettling.duplicate_check hadmitted hat hafter
          | _ => cases hacts
      | read accepted =>
          cases step with
          | read other now =>
              obtain rfl : duplicate = other := hsubject
              exact hsettling.duplicate_read hadmitted hat hafter
          | _ => cases hacts
      | admitting =>
          cases step with
          | admitting other =>
              obtain rfl : duplicate = other := hsubject
              have hnone : (world.calls.dispatches duplicate).answer.isNone = true := by
                rw [hat]
                rfl
              exact hsettling.duplicate_admitting hinfra hpeer hadmitted hanswer
                (hstays.1 hnone) (hstays.2 hnone) hat hafter
          | _ => cases hacts
      | answered hreplied hreply =>
          refine .answered ?_ hreply
          exact hsettling.answer_next hworld (by rw [hat]; exact hreplied)

theorem duplicate_run (hinfra : Infra.ChecksDetails) {labels : List SettleStep}
    (hreach : settleMachine.Reachable world)
    (hpeer : incoming.peerPrincipal = admitted.call.incoming.peerPrincipal)
    (hadmitted : world.admitted dispatch = some admitted)
    (hanswer : (world.calls.dispatches dispatch).answer = some result)
    (hduplicate : DuplicateAt admitted.call incoming result (world.calls.dispatches duplicate))
    (hrun : settleMachine.Run (StaysCounting dispatch duplicate) world labels last) :
    DuplicateAt admitted.call incoming result (last.calls.dispatches duplicate) := by
  suffices hall : settleMachine.Reachable last ∧ last.admitted dispatch = some admitted ∧
      (last.calls.dispatches dispatch).answer = some result ∧
      DuplicateAt admitted.call incoming result (last.calls.dispatches duplicate) from
    hall.2.2.2
  induction hrun with
  | refl => exact ⟨hreach, hadmitted, hanswer, hduplicate⟩
  | tail _ hstays hnext ih =>
      obtain ⟨hmiddle, hsome, hkeeps, hat⟩ := ih
      have hsettling := settling_of_reachable hmiddle
      exact ⟨hmiddle.step trivial hnext, hsettling.admitted_next hnext hsome,
        hsettling.answer_next hnext hkeeps,
        hsettling.duplicate_next hinfra hpeer hsome hkeeps hstays hat hnext⟩

end SettleWorld

/-- Over keys by value, as long as its reply is cached, a later duplicate of a call returns
that reply, unless it is refused before its own admission. -/
theorem replayed_by_value (hinfra : Infra.ChecksDetails) {world : SettleWorld}
    (hreach : settleMachine.Reachable world) {dispatch : Nat} {admitted : Admitted}
    {result : Except Error RpcEnvelope} (hadmitted : world.admitted dispatch = some admitted)
    (hanswer : (world.calls.dispatches dispatch).answer = some result)
    {incoming : IncomingCallContext} {labels : List SettleStep} {last : SettleWorld}
    {reply : Except Error RpcEnvelope}
    (hpeer : incoming.peerPrincipal = admitted.call.incoming.peerPrincipal)
    (hrun : settleMachine.Run (SettleWorld.StaysCounting dispatch world.calls.count) world
      (.dispatch (.call incoming admitted.call.request) :: labels) last)
    (hlast : last.calls.dispatches world.calls.count = .returned reply) :
    reply = result ∨ reply = .error (overloadedError admitted.call.request) ∨
      reply = .error expiredError := by
  have hsettling := SettleWorld.settling_of_reachable hreach
  obtain ⟨middle, hstays, hnext, hrest⟩ := hrun.uncons
  have hbegun : world.next (.dispatch (.call incoming admitted.call.request)) =
      some middle := hnext
  have hbegins : SettleWorld.DuplicateAt admitted.call incoming result
      (middle.calls.dispatches world.calls.count) := by
    obtain ⟨after, hafter, rfl⟩ := Option.map_eq_some_iff.mp hnext
    have hmoves := DispatchWorld.call_moves hsettling.counted hafter
    change SettleWorld.DuplicateAt _ _ _ (after.dispatches world.calls.count)
    rw [hmoves.dispatches, Function.update_self]
    exact .check
  have hends := SettleWorld.duplicate_run hinfra (hreach.step trivial hnext) hpeer
    (hsettling.admitted_next hbegun hadmitted) (hsettling.answer_next hbegun hanswer) hbegins
    hrest
  rw [hlast] at hends
  cases hends with
  | answered hreplied hreply =>
      cases hreplied
      exact hreply

/-- The calls of a service with any history of its ingress behind it in which the fronts
lasted. -/
def lastingMachine : Machine TracedSettle TracedStep :=
  tracedSettleMachine (cacheMachine.ReachableWhere FrontsLast)

/-- The fronts last, and the calls meet a condition of their own. -/
def LastingWhere (guard : SettleWorld → SettleStep → Prop) (world : TracedSettle)
    (step : TracedStep) : Prop :=
  world.KeepsFronts step ∧ guard world.settle step.settleStep

instance (guard : SettleWorld → SettleStep → Prop)
    [∀ world step, Decidable (guard world step)] (world : TracedSettle) (step : TracedStep) :
    Decidable (LastingWhere guard world step) :=
  inferInstanceAs (Decidable (_ ∧ _))

/-- An admitted call that has returned completed its admission once, whatever the erased fronts
read as.  While they last, and as long as its reply is cached, a later duplicate of the request
returns that reply, unless it is refused before its own admission. -/
theorem settled_once_and_replayed (hinfra : Infra.ChecksDetails) {world : TracedSettle}
    (hreach : (tracedSettleMachine cacheMachine.Reachable).Reachable world) {dispatch : Nat}
    {admitted : Admitted} {result : Except Error RpcEnvelope}
    (hadmitted : world.settle.admitted dispatch = some admitted)
    (hreturned : world.settle.calls.dispatches dispatch = .returned result) :
    (∃ outcome done, world.settle.settledOf dispatch =
      [⟨dispatch, executeAdmission admitted.call.ordered, outcome, done⟩]) ∧
    (lastingMachine.ReachableWhere TracedSettle.KeepsFronts world →
      (world.settle.Cached dispatch → ValidReply result) ∧
      ∀ incoming stale labels last reply,
        incoming.peerPrincipal = admitted.call.incoming.peerPrincipal →
        lastingMachine.Run
          (LastingWhere (SettleWorld.StaysCounting dispatch world.settle.calls.count)) world
          (.dispatch (.call incoming admitted.call.request) stale :: labels) last →
        last.settle.calls.dispatches world.settle.calls.count = .returned reply →
        reply = result ∨ reply = .error (overloadedError admitted.call.request) ∨
          reply = .error expiredError) := by
  have hanswer : (world.settle.calls.dispatches dispatch).answer = some result := by
    rw [hreturned]
    rfl
  have hstanding := TracedSettle.standing_of_reachable hreach
  obtain ⟨outcome, done, hsettled, -⟩ := hstanding.settled_once hadmitted hanswer
  refine ⟨⟨outcome, done, hsettled⟩, fun hlasting => ?_⟩
  obtain ⟨hsound, hvalue⟩ := TracedSettle.reachable_settle hlasting
  constructor
  · intro hcached
    have hsettling := SettleWorld.settling_of_reachable hvalue
    obtain ⟨outcome, kept, rfl, -⟩ := hsettling.result_kept hadmitted hanswer hcached
    exact resultOf_valid hinfra _ outcome
  · intro incoming stale labels last reply hpeer hrun hlast
    obtain ⟨-, hplain⟩ := TracedSettle.simulates.run hsound hrun
    exact replayed_by_value hinfra hvalue hadmitted hanswer hpeer hplain hlast

end

/-! ## Calls of one small service -/

theorem permissive_checksDetails : letI := permissiveInfra; Infra.ChecksDetails := by
  let _ := permissiveInfra
  constructor
  · exact fun _ _ => rfl
  · intro error reason hrefused
    cases hrefused

section

variable [Infra]

def sampleCalls (maxInflight : Nat) (ingress : OrderedIngress) : DispatchWorld :=
  { sampleDispatch with
    services := (∅ : Table String ServiceEntry).insert "chat"
      { options := ⟨maxInflight, 4, true⟩
        table := [⟨"say", "in", "out", true, fun _ => .ok "room"⟩]
        ingressBound := true }
    ingress := ingress }

def sampleSettle (maxInflight : Nat) (past : TracedIngress) : TracedSettle :=
  ⟨⟨sampleCalls maxInflight past.ingress, fun _ => 0, fun _ => none, []⟩, past.removals⟩

theorem sampleSettle_init {maxInflight : Nat} {past : CacheWorld → Prop} {history : CacheWorld}
    (hhistory : past history) :
    (tracedSettleMachine past).init (sampleSettle maxInflight history.traced) :=
  ⟨⟨history, hhistory, rfl⟩, rfl, rfl, rfl, fun _ => rfl, fun _ => rfl, fun _ => rfl,
    fun _ => rfl, rfl⟩

def sampleIncoming : IncomingCallContext := ⟨10 ^ 9, "peer"⟩

def sampleEnvelope (receiverEpoch sequence : String) : RpcEnvelope where
  service := "chat"
  method := "say"
  requestSchema := "in"
  responseSchema := "out"
  payload := [104, 105]
  requestId := "request/" ++ sequence
  metadata := [("fw.producer_id", "producer"), ("fw.producer_epoch", "p1"),
    ("fw.receiver_epoch", receiverEpoch), ("fw.sequence", sequence)]

def sampleCall (receiverEpoch sequence : String) : DispatchStep :=
  .call sampleIncoming (sampleEnvelope receiverEpoch sequence)

/-- The first call, from its beginning to its return with the payload of its handler. -/
def sampleFirst (receiverEpoch sequence : String) : List DispatchStep :=
  [sampleCall receiverEpoch sequence, .check 0, .read 0 0, .admitting 0] ++ sampleEnqueue 0 ++
    [.drain "room", .endTask "room" (some (.ok [33])), .resume 0 .completed, .complete 0,
      .leave 0]

/-- Whatever these steps erase reads as this key. -/
def sampleSteps (steps : List DispatchStep) : List TracedStep :=
  steps.map fun step => .dispatch step fun _ => sampleKey 1

instance (world : SettleWorld) (dispatch : Nat) : Decidable (world.Cached dispatch) :=
  inferInstanceAs (Decidable (∃ admitted ∈ world.admitted dispatch, _))

instance (world : SettleWorld) (dispatch : Nat) : Decidable (world.Counting dispatch) :=
  inferInstanceAs (Decidable (∀ admitted ∈ world.admitted dispatch, _))

instance (dispatch duplicate : Nat) (world : SettleWorld) (step : SettleStep) :
    Decidable (SettleWorld.StaysCached dispatch duplicate world step) :=
  inferInstanceAs (Decidable (_ → _))

instance (dispatch duplicate : Nat) (world : SettleWorld) (step : SettleStep) :
    Decidable (SettleWorld.StaysCounting dispatch duplicate world step) :=
  inferInstanceAs (Decidable (_ ∧ (_ → _)))

/-- The first call has returned a payload, and its reply is cached. -/
def sampleReturned (receiverEpoch sequence : String) (world : SettleWorld) : Bool :=
  match world.admitted 0, world.calls.dispatches 0 with
  | some admitted, .returned (.ok _) =>
      decide (world.calls.count = 1 ∧ world.Cached 0 ∧
        admitted.call.incoming = sampleIncoming ∧
        admitted.call.request = sampleEnvelope receiverEpoch sequence)
  | _, _ => false

omit [Infra] in
theorem of_sampleReturned {receiverEpoch sequence : String} {world : SettleWorld}
    (hreturned : sampleReturned receiverEpoch sequence world = true) :
    ∃ admitted reply, world.admitted 0 = some admitted ∧
      world.calls.dispatches 0 = .returned (.ok reply) ∧ world.calls.count = 1 ∧
      world.Cached 0 ∧ admitted.call.incoming = sampleIncoming ∧
      admitted.call.request = sampleEnvelope receiverEpoch sequence := by
  unfold sampleReturned at hreturned
  split at hreturned
  · next admitted reply hadmitted hat =>
      exact ⟨admitted, reply, hadmitted, hat, of_decide_eq_true hreturned⟩
  · cases hreturned

def returnedResult : DispatchPc → Option (Except Error RpcEnvelope)
  | .returned result => some result
  | _ => none

omit [Infra] in
theorem of_returnedResult {pc : DispatchPc} {result : Except Error RpcEnvelope}
    (hresult : returnedResult pc = some result) : pc = .returned result := by
  cases pc with
  | returned found =>
      cases hresult
      rfl
  | _ => cases hresult

/-- The histories of two streams, the second in its second session. -/
def crossedPast (stale : CachedKey) : TracedWorld :=
  (crossedCalls stale "b").dropLast.foldl TracedWorld.next (sampleTraced 2)

end

theorem lastingPast_reachable :
    letI := permissiveInfra
    cacheMachine.ReachableWhere FrontsLast
      (crossedPast ⟨(hallRequest 1 "h").streamKey, 1⟩).cache := by
  let _ := permissiveInfra
  refine reachable_cache (traced_after
    (fun world call => decide (FrontsLast world.cache call.cacheCall))
    (fun _ _ => of_decide_eq_true) (sampleTraced_reachable (by decide)) _ ?_)
  decide

/-- A reply is evicted before the first caller gets a payload, and the duplicate gets it too. -/
theorem settled_once_and_replayed_sample :
    letI := permissiveInfra
    ∃ (world last : TracedSettle) (admitted : Admitted) (result : Except Error RpcEnvelope),
      world.settle.admitted 0 = some admitted ∧
      world.settle.calls.dispatches 0 = .returned result ∧
      world.removals.length = 2 ∧ world.settle.Cached 0 ∧ ValidReply result ∧
      (∃ outcome done, world.settle.settledOf 0 =
        [⟨0, executeAdmission admitted.call.ordered, outcome, done⟩]) ∧
      last.settle.calls.dispatches 1 = .returned result := by
  let _ := permissiveInfra
  have hboot : lastingMachine.ReachableWhere TracedSettle.KeepsFronts
      (sampleSettle 4 (crossedPast ⟨(hallRequest 1 "h").streamKey, 1⟩).cache.traced) :=
    .start (sampleSettle_init lastingPast_reachable)
  obtain ⟨world, last, hreach, hrun, htest⟩ := hboot.exec_then
    (fun world step => decide (world.KeepsFronts step)) (fun _ _ => of_decide_eq_true)
    (fun world step => decide (LastingWhere (SettleWorld.StaysCounting 0 1) world step))
    (fun _ _ => of_decide_eq_true)
    (sampleSteps (sampleFirst "r2" "1"))
    (sampleSteps [sampleCall "r2" "1", .check 1, .read 1 0, .admitting 1, .leave 1])
    (fun world last => sampleReturned "r2" "1" world.settle &&
      decide (world.removals.length = 2 ∧ returnedResult (last.settle.calls.dispatches 1) =
        some (.ok (replyEnvelope (sampleEnvelope "r2" "1") ⟨"say", "in", "out", true,
          fun _ => .ok "room"⟩ [33]))))
    (by decide)
  obtain ⟨hfirst, hsecond⟩ := Bool.and_eq_true_iff.mp htest
  obtain ⟨admitted, reply, hadmitted, hreturned, hcount, hcached, hincoming, hrequest⟩ :=
    of_sampleReturned hfirst
  obtain ⟨hremovals, hresult⟩ := of_decide_eq_true hsecond
  have hlast := of_returnedResult hresult
  obtain ⟨hsettled, hlasts⟩ :=
    settled_once_and_replayed permissive_checksDetails
      (TracedSettle.reachable_of_past (fun _ hpast => hpast.reachable) hreach) hadmitted hreturned
  obtain ⟨hvalid, hreplays⟩ := hlasts hreach
  rw [hcount] at hreplays
  refine ⟨world, last, admitted, _, hadmitted, hreturned, hremovals, hcached, hvalid hcached,
    hsettled, ?_⟩
  obtain hsame | hbad | hbad :=
    hreplays sampleIncoming _ _ last _ (congrArg _ hincoming.symm)
      (by rw [hrequest]; exact hrun) hlast
  · rw [hlast, hsame]
  · cases hbad
  · cases hbad

section

variable [Infra]

def EveryDuplicateReplayed : Prop :=
  ∀ (world last : TracedSettle) (dispatch : Nat) (admitted : Admitted)
    (result reply : Except Error RpcEnvelope) (stale : Nat → CachedKey)
    (labels : List TracedStep),
    lastingMachine.ReachableWhere TracedSettle.KeepsFronts world →
    world.settle.admitted dispatch = some admitted →
    world.settle.calls.dispatches dispatch = .returned result →
    lastingMachine.Run
      (LastingWhere (SettleWorld.StaysCached dispatch world.settle.calls.count)) world
      (.dispatch (.call admitted.call.incoming admitted.call.request) stale :: labels) last →
    last.settle.calls.dispatches world.settle.calls.count = .returned reply → reply = result

/-- The first caller got a payload and the duplicate gets `reason`. -/
def DuplicateGets (past : CacheWorld → Prop) (guard : Nat → SettleWorld → SettleStep → Prop)
    (reason : Error) : Prop :=
  ∃ (world last : TracedSettle) (admitted : Admitted) (reply : RpcEnvelope)
    (stale : Nat → CachedKey) (labels : List TracedStep),
    (tracedSettleMachine past).ReachableWhere TracedSettle.KeepsFronts world ∧
    world.settle.admitted 0 = some admitted ∧
    world.settle.calls.dispatches 0 = .returned (.ok reply) ∧
    (tracedSettleMachine past).Run (LastingWhere (guard world.settle.calls.count)) world
      (.dispatch (.call admitted.call.incoming admitted.call.request) stale :: labels) last ∧
    last.settle.calls.dispatches world.settle.calls.count = .returned (.error reason)

theorem DuplicateGets.not_every {reason : Error}
    (hgets : DuplicateGets (cacheMachine.ReachableWhere FrontsLast)
      (SettleWorld.StaysCached 0) reason) : ¬ EveryDuplicateReplayed := by
  intro hevery
  obtain ⟨world, last, admitted, reply, stale, labels, hreach, hadmitted, hreturned, hrun,
    hlast⟩ := hgets
  cases hevery world last 0 admitted _ _ stale labels hreach hadmitted hreturned hrun hlast

theorem duplicateGets_of_exec (maxInflight : Nat) (receiverEpoch sequence : String)
    (rest : List DispatchStep) {past : CacheWorld → Prop} {history : CacheWorld}
    {guard : Nat → SettleWorld → SettleStep → Prop}
    [∀ duplicate world step, Decidable (guard duplicate world step)] {reason : Error}
    (hhistory : past history)
    (hexec : ((tracedSettleMachine past).exec
      (fun world step => decide (world.KeepsFronts step))
      (sampleSettle maxInflight history.traced)
      (sampleSteps (sampleFirst receiverEpoch sequence))).any (fun world =>
        ((tracedSettleMachine past).exec
          (fun world step => decide (LastingWhere (guard 1) world step)) world
          (sampleSteps (sampleCall receiverEpoch sequence :: rest))).any (fun last =>
            sampleReturned receiverEpoch sequence world.settle &&
              decide (returnedResult (last.settle.calls.dispatches 1) =
                some (.error reason)))) = true) : DuplicateGets past guard reason := by
  have hboot : (tracedSettleMachine past).ReachableWhere TracedSettle.KeepsFronts
      (sampleSettle maxInflight history.traced) := .start (sampleSettle_init hhistory)
  obtain ⟨world, last, hreach, hrun, htest⟩ := hboot.exec_then
    (fun world step => decide (world.KeepsFronts step)) (fun _ _ => of_decide_eq_true)
    (fun world step => decide (LastingWhere (guard 1) world step))
    (fun _ _ => of_decide_eq_true) _ _ _ hexec
  obtain ⟨hfirst, hlast⟩ := Bool.and_eq_true_iff.mp htest
  obtain ⟨admitted, reply, hadmitted, hreturned, hcount, -, hincoming, hrequest⟩ :=
    of_sampleReturned hfirst
  refine ⟨world, last, admitted, reply, fun _ => sampleKey 1, sampleSteps rest, hreach,
    hadmitted, hreturned, ?_⟩
  rw [hcount, hincoming, hrequest]
  exact ⟨hrun, of_returnedResult (of_decide_eq_true hlast)⟩

end

/-- With one call admitted at a time, a duplicate that comes during another call is refused
as overloaded; once the last sequence is spent the counter is 0, and every duplicate runs into
a gap; and behind an eviction that read the key of another reply, a duplicate conflicts with a
request of a revoked session. -/
theorem not_every_duplicate_replayed :
    letI := permissiveInfra
    Infra.ChecksDetails ∧ ¬ EveryDuplicateReplayed ∧
      DuplicateGets (cacheMachine.ReachableWhere FrontsLast) (SettleWorld.StaysCached 0)
        (overloadedError (sampleEnvelope "r2" "1")) ∧
      DuplicateGets (cacheMachine.ReachableWhere FrontsLast) (SettleWorld.StaysCached 0)
        (gapError 0) ∧
      DuplicateGets cacheMachine.Reachable (SettleWorld.StaysCounting 0)
        sequenceConflictError := by
  let _ := permissiveInfra
  have hoverloaded : DuplicateGets (cacheMachine.ReachableWhere FrontsLast)
      (SettleWorld.StaysCached 0) (overloadedError (sampleEnvelope "r2" "1")) := by
    apply duplicateGets_of_exec 1 "r2" "1" [sampleCall "r2" "2", .check 2, .check 1, .leave 1]
      lastingPast_reachable
    decide
  have hgap : DuplicateGets (cacheMachine.ReachableWhere FrontsLast)
      (SettleWorld.StaysCached 0) (gapError 0) := by
    obtain ⟨world, hworld, htraced⟩ := spent_reachable (2 ^ 64 - 2) (by omega)
    apply duplicateGets_of_exec 4 "r1" "18446744073709551615"
      [.check 1, .read 1 0, .admitting 1, .leave 1] (reachable_cache hworld)
    rw [htraced]
    decide
  have hconflict : DuplicateGets cacheMachine.Reachable (SettleWorld.StaysCounting 0)
      sequenceConflictError := by
    have hpast : cacheMachine.Reachable (crossedPast (sampleKey 1)).cache :=
      reachable_cache (traced_after (fun _ _ => true) (fun _ _ _ => trivial)
        (sampleTraced_reachable (by decide)) _ (by decide))
    apply duplicateGets_of_exec 4 "r2" "1" [.check 1, .read 1 0, .admitting 1, .leave 1] hpast
    decide
  exact ⟨permissive_checksDetails, hoverloaded.not_every, hoverloaded, hgap, hconflict⟩

end BbtFramework.Inbound
