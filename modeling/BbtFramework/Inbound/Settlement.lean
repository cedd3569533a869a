import BbtFramework.Inbound.SettlementMoves

/-!
# Ordered admissions and their replies

A call that the ordered ingress admits for execution has to complete its admission before
it returns, and a duplicate of its request has to get its reply.  Grants may come at any
time.
-/

namespace BbtFramework.Inbound

open BbtFramework.Library
open BbtFramework.Ordered
open BbtFramework.Rpc
open OrderedIngress

section

variable [Infra]

def Stamped (request : OrderedIngressRequest) : Prop :=
  request.hasOrderedStamp = true ∧ ¬(request.producerId = "" ∨
    request.producerEpoch = "" ∨ request.receiverEpoch = "")

/-- Within its session an admitted request stays authorized and consumed, and only it can
be in flight under its sequence. -/
structure Remembered (ingress : OrderedIngress) (request : OrderedIngressRequest) : Prop where
  stamped : Stamped request
  granted : ∃ grant, ingress.Authorizes request grant
  consumed : ingress.Consumed request.streamKey request.sequence
  flight : ∀ entry, ingress.inFlightAt request.streamKey request.sequence = some entry →
    entry = ⟨request.requestId, request.requestDigest⟩

def Kept (ingress : OrderedIngress) (request : OrderedIngressRequest)
    (reply : OrderedTerminalReply) : Prop :=
  ingress.inFlightAt request.streamKey request.sequence = none ∧
    ∀ kept, ingress.cachedAt request.streamKey request.sequence = some kept →
      kept = keptResult request.streamKey request.sequence
        ⟨request.requestId, request.requestDigest⟩ reply

section

omit [Infra]

variable {before after : OrderedIngress} {request other : OrderedIngressRequest}
  {reply : OrderedTerminalReply} {grant : OrderedGrant}

theorem Remembered.installs (hremembered : Remembered before request)
    (hinstalls : Installs grant before after) (hkey : request.streamKey ≠ grant.streamKey) :
    Remembered after request := by
  obtain ⟨hstamped, ⟨old, hmem, hold, hauthorized⟩, ⟨next, hnext, hspan⟩, hflight⟩ :=
    hremembered
  have hwindow := hinstalls.windowKept request.streamKey hkey
  refine ⟨hstamped, ⟨old, ?_, hold, hauthorized⟩, ⟨next, ?_, hspan⟩, ?_⟩
  · rw [hinstalls.grants]
    refine List.mem_append_left _ (List.mem_filter.mpr ⟨hmem, ?_⟩)
    rw [Bool.not_eq_true', Bool.eq_false_iff]
    exact fun hsuper => hkey (hold ▸ (supersededBy_iff.mp hsuper).1)
  · rw [nextAt, hwindow]
    exact hnext
  · rw [inFlightAt, hwindow]
    exact hflight

theorem Kept.installs (hkept : Kept before request reply)
    (hinstalls : Installs grant before after) (hkey : request.streamKey ≠ grant.streamKey) :
    Kept after request reply := by
  unfold Kept
  rw [inFlightAt, hinstalls.windowKept request.streamKey hkey,
    hinstalls.cachedKept request.streamKey request.sequence hkey]
  exact hkept

theorem Remembered.apart (hremembered : Remembered before request)
    (hconsumes : Consumes other before after) :
    ¬(request.streamKey = other.streamKey ∧ request.sequence = other.sequence) := by
  rintro ⟨hkey, hsequence⟩
  refine not_consumed_next hconsumes.expected hconsumes.valid ?_
  rw [← hkey, ← hsequence]
  exact hremembered.consumed

theorem Remembered.consumes (hremembered : Remembered before request)
    (hconsumes : Consumes other before after) : Remembered after request := by
  refine ⟨hremembered.stamped, ?_, hconsumes.consumed.mpr (Or.inl hremembered.consumed), ?_⟩
  · unfold Authorizes
    rw [hconsumes.grants]
    exact hremembered.granted
  · rw [hconsumes.inFlight, if_neg (hremembered.apart hconsumes)]
    exact hremembered.flight

theorem Kept.consumes (hkept : Kept before request reply)
    (hremembered : Remembered before request) (hconsumes : Consumes other before after) :
    Kept after request reply := by
  unfold Kept
  rw [hconsumes.inFlight, if_neg (hremembered.apart hconsumes), cachedAt, hconsumes.cached]
  exact hkept

theorem remembered_of_consumes (hstamped : Stamped request)
    (hgrant : before.Authorizes request grant)
    (hconsumes : Consumes request before after) : Remembered after request := by
  refine ⟨hstamped, ⟨grant, ?_⟩, hconsumes.consumed.mpr (Or.inr ⟨rfl, rfl⟩), ?_⟩
  · unfold Authorizes
    rw [hconsumes.grants]
    exact hgrant
  · intro entry hentry
    rw [hconsumes.inFlight, if_pos ⟨rfl, rfl⟩] at hentry
    exact (Option.some.inj hentry).symm

theorem Remembered.ends {key : StreamKey} {sequence : UInt64} {entry : InFlight}
    (hremembered : Remembered before request)
    (hends : Ends key sequence entry reply before after) : Remembered after request := by
  refine ⟨hremembered.stamped, ?_, ?_, ?_⟩
  · unfold Authorizes
    rw [hends.grants]
    exact hremembered.granted
  · obtain ⟨next, hnext, hspan⟩ := hremembered.consumed
    exact ⟨next, (hends.next _).trans hnext, hspan⟩
  · intro found hfound
    rw [hends.inFlight] at hfound
    split at hfound
    · cases hfound
    · exact hremembered.flight found hfound

theorem Kept.ends {key : StreamKey} {sequence : UInt64} {entry : InFlight}
    {last : OrderedTerminalReply} (hkept : Kept before request reply)
    (hends : Ends key sequence entry last before after) : Kept after request reply := by
  have hother : ¬(request.streamKey = key ∧ request.sequence = sequence) := by
    rintro ⟨hkey, hsequence⟩
    have hended := hends.ended
    rw [← hkey, ← hsequence, hkept.1] at hended
    cases hended
  constructor
  · rw [hends.inFlight, if_neg hother]
    exact hkept.1
  · intro kept hcached
    obtain hold | ⟨hkey, hsequence, -⟩ := hends.cached _ _ kept hcached
    · exact hkept.2 kept hold
    · exact absurd ⟨hkey, hsequence⟩ hother

/-- The request's own completion. -/
theorem kept_of_ends {entry : InFlight} (hconsistent : Consistent before)
    (hremembered : Remembered before request)
    (hends : Ends request.streamKey request.sequence entry reply before after) :
    Kept after request reply := by
  constructor
  · rw [hends.inFlight, if_pos ⟨rfl, rfl⟩]
  · intro kept hcached
    obtain hold | ⟨-, -, hnew⟩ := hends.cached _ _ kept hcached
    · have hnone := (hconsistent.flight _ _ entry hends.ended).2
      rw [hold] at hnone
      cases hnone
    · rw [hnew, hremembered.flight entry hends.ended]

theorem stamped_of_ticket [Infra] {ingress : OrderedIngress} {ticket : Admission}
    (hresult : (ingress.admitRequest request).1 = .ok ticket) : Stamped request := by
  unfold admitRequest at hresult
  split at hresult
  · cases hresult
  · next hstamp =>
      split at hresult
      · cases hresult
      · next hfields =>
          exact ⟨by simpa using hstamp, hfields⟩

end

/-! ## Where a call stands -/

omit [Infra] in
theorem DispatchPc.early_views {pc : DispatchPc} (hearly : pc.early = true) :
    pc.carried = none ∧ pc.answer = none := by
  cases pc <;> first | exact ⟨rfl, rfl⟩ | cases hearly

omit [Infra] in
theorem DispatchPc.carried_views {pc : DispatchPc} {call : DispatchCall}
    (hcarried : pc.carried = some call) : pc.early = false ∧ pc.answer = none := by
  cases pc <;> first | exact ⟨rfl, rfl⟩ | cases hcarried

omit [Infra] in
theorem DispatchPc.answer_views {pc : DispatchPc} {result : Except Error RpcEnvelope}
    (hanswer : pc.answer = some result) : pc.early = false ∧ pc.carried = none := by
  cases pc <;> first | exact ⟨rfl, rfl⟩ | cases hanswer

omit [Infra] in
/-- No move takes an answer away. -/
theorem Passes.keeps {before after : DispatchPc} {result : Except Error RpcEnvelope}
    (hpasses : Passes before after) (hanswer : before.answer = some result) :
    after.answer = some result := by
  obtain ⟨hearly, hcarried⟩ := DispatchPc.answer_views hanswer
  cases hpasses with
  | early hbefore _ => cases hearly.symm.trans hbefore
  | begins hbefore _ _ => cases hearly.symm.trans hbefore
  | refused hbefore _ => cases hearly.symm.trans hbefore
  | carries hbefore _ => cases hcarried.symm.trans hbefore
  | unordered hbefore _ _ => cases hcarried.symm.trans hbefore
  | unwinds hbefore _ _ _ => cases hanswer.symm.trans hbefore
  | answers hbefore hafter =>
      cases hanswer.symm.trans hbefore
      exact hafter

def SettleWorld.Answered (world : SettleWorld) (dispatch : Nat)
    (result : Except Error RpcEnvelope) : Prop :=
  (world.admitted dispatch = none ∧ world.settledOf dispatch = []) ∨
    ∃ call session outcome done, world.admitted dispatch = some ⟨call, session⟩ ∧
      world.settledOf dispatch =
        [⟨dispatch, executeAdmission call.ordered, outcome, done⟩] ∧
      result = answerOf call outcome done

structure SettleWorld.Stands (world : SettleWorld) (dispatch : Nat) (pc : DispatchPc) :
    Prop where
  early : pc.early = true → world.admitted dispatch = none ∧ world.settledOf dispatch = []
  carried : ∀ call, pc.carried = some call → world.settledOf dispatch = [] ∧
    ((call.ticket = none ∧ world.admitted dispatch = none) ∨
      ∃ session, call.ticket = some (executeAdmission call.ordered) ∧
        world.admitted dispatch = some ⟨call, session⟩)
  answer : ∀ result, pc.answer = some result → world.Answered dispatch result

namespace SettleWorld

variable {world last : SettleWorld}

theorem Stands.congr {dispatch : Nat} {pc : DispatchPc} (hstands : world.Stands dispatch pc)
    (hadmitted : last.admitted dispatch = world.admitted dispatch)
    (hsettled : last.settledOf dispatch = world.settledOf dispatch) :
    last.Stands dispatch pc := by
  obtain ⟨hearly, hcarried, hanswer⟩ := hstands
  unfold Answered at hanswer
  rw [← hadmitted, ← hsettled] at hearly hcarried hanswer
  exact ⟨hearly, hcarried, hanswer⟩

theorem stands_of_early {dispatch : Nat} {pc : DispatchPc} (hpc : pc.early = true)
    (hnone : world.admitted dispatch = none ∧ world.settledOf dispatch = []) :
    world.Stands dispatch pc := by
  obtain ⟨hcarried, hanswer⟩ := DispatchPc.early_views hpc
  constructor
  · exact fun _ => hnone
  · intro call hcall
    cases hcarried.symm.trans hcall
  · intro result hresult
    cases hanswer.symm.trans hresult

theorem stands_of_carried {dispatch : Nat} {pc : DispatchPc} {call : DispatchCall}
    (hpc : pc.carried = some call) (hnone : world.settledOf dispatch = [])
    (hticket : (call.ticket = none ∧ world.admitted dispatch = none) ∨
      ∃ session, call.ticket = some (executeAdmission call.ordered) ∧
        world.admitted dispatch = some ⟨call, session⟩) :
    world.Stands dispatch pc := by
  obtain ⟨hearly, hanswer⟩ := DispatchPc.carried_views hpc
  constructor
  · intro hbad
    cases hearly.symm.trans hbad
  · intro found hfound
    cases hpc.symm.trans hfound
    exact ⟨hnone, hticket⟩
  · intro result hresult
    cases hanswer.symm.trans hresult

theorem stands_of_answer {dispatch : Nat} {pc : DispatchPc}
    {result : Except Error RpcEnvelope} (hpc : pc.answer = some result)
    (hanswered : world.Answered dispatch result) : world.Stands dispatch pc := by
  obtain ⟨hearly, hcarried⟩ := DispatchPc.answer_views hpc
  constructor
  · intro hbad
    cases hearly.symm.trans hbad
  · intro call hcall
    cases hcarried.symm.trans hcall
  · intro found hfound
    cases hpc.symm.trans hfound
    exact hanswered

/-- A move leaves the history of the call as its new position wants it. -/
theorem Stands.passes {dispatch : Nat} {before after : DispatchPc}
    (hstands : world.Stands dispatch before) (hpasses : Passes before after) :
    world.Stands dispatch after := by
  cases hpasses with
  | early hbefore hafter => exact stands_of_early hafter (hstands.early hbefore)
  | begins hbefore hafter hticket =>
      obtain ⟨hadmitted, hsettled⟩ := hstands.early hbefore
      exact stands_of_carried hafter hsettled (Or.inl ⟨hticket, hadmitted⟩)
  | refused hbefore hafter =>
      obtain ⟨result, hanswer⟩ := Option.isSome_iff_exists.mp hafter
      exact stands_of_answer hanswer (Or.inl (hstands.early hbefore))
  | @carries call hbefore hafter =>
      obtain ⟨hsettled, hticket⟩ := hstands.carried call hbefore
      exact stands_of_carried hafter hsettled hticket
  | @unordered call hbefore hticket hafter =>
      obtain ⟨result, hanswer⟩ := Option.isSome_iff_exists.mp hafter
      obtain ⟨hsettled, ⟨-, hadmitted⟩ | ⟨session, hsome, -⟩⟩ := hstands.carried call hbefore
      · exact stands_of_answer hanswer (Or.inl ⟨hadmitted, hsettled⟩)
      · cases hticket.symm.trans hsome
  | unwinds _ hearly hcarried hanswer =>
      constructor
      · intro hbad
        cases hearly.symm.trans hbad
      · intro call hcall
        cases hcarried.symm.trans hcall
      · intro result hresult
        cases hanswer.symm.trans hresult
  | @answers result hbefore hafter =>
      exact stands_of_answer hafter (hstands.answer result hbefore)

/-- Every call stands where its history says, whatever the ingress does. -/
structure Standing (world : SettleWorld) : Prop where
  counted : world.calls.Counted
  stands : ∀ dispatch, world.Stands dispatch (world.calls.dispatches dispatch)

namespace Standing

theorem shifts (hstanding : world.Standing) {after : DispatchWorld} {dispatch : Nat}
    {pc : DispatchPc} (hshifts : Shifts world.calls after dispatch pc) :
    ({ world with calls := after } : SettleWorld).Standing := by
  constructor
  · intro other hother
    obtain ⟨hold, hidle⟩ := hshifts.fresh other hother
    rw [hshifts.dispatches, Function.update_apply]
    split
    case isTrue heq => exact hidle heq
    case isFalse => exact hstanding.counted other hold
  · intro other
    rw [hshifts.dispatches, Function.update_apply]
    split
    case isTrue heq =>
      subst heq
      exact ((hstanding.stands other).passes hshifts.passes).congr rfl rfl
    case isFalse => exact (hstanding.stands other).congr rfl rfl

/-- No call moves, and its history stays. -/
theorem aside (hstanding : world.Standing) (hcount : last.calls.count = world.calls.count)
    (hdispatches : last.calls.dispatches = world.calls.dispatches)
    (hadmitted : last.admitted = world.admitted) (hsettled : last.settled = world.settled) :
    last.Standing := by
  constructor
  · intro other hother
    rw [hdispatches]
    exact hstanding.counted other (hcount ▸ hother)
  · intro other
    rw [hdispatches]
    refine (hstanding.stands other).congr (by rw [hadmitted]) ?_
    unfold settledOf
    rw [hsettled]

theorem executed (hstanding : world.Standing) {dispatch : Nat} {call executing : DispatchCall}
    {session : Nat} (hat : world.calls.dispatches dispatch = .admitting call)
    (hticket : executing.ticket = some (executeAdmission executing.ordered))
    (hcount : last.calls.count = world.calls.count)
    (hdispatches : last.calls.dispatches =
      Function.update world.calls.dispatches dispatch (.activate executing))
    (hadmitted : last.admitted =
      Function.update world.admitted dispatch (some ⟨executing, session⟩))
    (hsettled : last.settled = world.settled) : last.Standing := by
  have hearly := (hstanding.stands dispatch).early (by rw [hat]; rfl)
  constructor
  · intro other hother
    rw [hcount] at hother
    rw [hdispatches, Function.update_of_ne]
    · exact hstanding.counted other hother
    · rintro rfl
      have hidle := hstanding.counted other hother
      rw [hat] at hidle
      cases hidle
  · intro other
    rw [hdispatches]
    by_cases heq : other = dispatch
    · subst heq
      rw [Function.update_self]
      refine stands_of_carried rfl ?_ (Or.inr ⟨session, hticket, ?_⟩)
      · unfold settledOf
        rw [hsettled]
        exact hearly.2
      · rw [hadmitted, Function.update_self]
    · rw [Function.update_of_ne heq]
      refine (hstanding.stands other).congr ?_ ?_
      · rw [hadmitted, Function.update_of_ne heq]
      · unfold settledOf
        rw [hsettled]

omit [Infra] in
theorem settledOf_append {new : Settled} (hsettled : last.settled = world.settled ++ [new])
    (dispatch : Nat) :
    last.settledOf dispatch =
      world.settledOf dispatch ++ if new.dispatch = dispatch then [new] else [] := by
  unfold settledOf
  rw [hsettled, List.filter_append, List.filter_singleton]
  by_cases heq : new.dispatch = dispatch
  · simp [heq]
  · simp [heq]

theorem ticket_eq (hstanding : world.Standing) {dispatch : Nat} {call : DispatchCall}
    {outcome : Except Error Bytes} {ticket : Admission}
    (hat : world.calls.dispatches dispatch = .complete call outcome)
    (hticket : call.ticket = some ticket) :
    ticket = executeAdmission call.ordered ∧ world.settledOf dispatch = [] ∧
      ∃ session, world.admitted dispatch = some ⟨call, session⟩ := by
  obtain ⟨hnone, ⟨hbad, -⟩ | ⟨session, hissued, hadmitted⟩⟩ :=
    (hstanding.stands dispatch).carried call (by rw [hat]; rfl)
  · cases hticket.symm.trans hbad
  · exact ⟨Option.some.inj (hticket.symm.trans hissued), hnone, session, hadmitted⟩

theorem settles (hstanding : world.Standing) {dispatch : Nat} {call : DispatchCall}
    {outcome : Except Error Bytes} {ticket : Admission} {done : Except Error Unit}
    (hat : world.calls.dispatches dispatch = .complete call outcome)
    (hticket : call.ticket = some ticket) (hcount : last.calls.count = world.calls.count)
    (hdispatches : last.calls.dispatches = Function.update world.calls.dispatches dispatch
      (.leave (answerOf call outcome done)))
    (hadmitted : last.admitted = world.admitted)
    (hsettled : last.settled = world.settled ++ [⟨dispatch, ticket, outcome, done⟩]) :
    last.Standing := by
  obtain ⟨rfl, hnone, session, hissued⟩ := hstanding.ticket_eq hat hticket
  constructor
  · intro other hother
    rw [hcount] at hother
    rw [hdispatches, Function.update_of_ne]
    · exact hstanding.counted other hother
    · rintro rfl
      have hidle := hstanding.counted other hother
      rw [hat] at hidle
      cases hidle
  · intro other
    rw [hdispatches]
    have hof := settledOf_append hsettled other
    by_cases heq : other = dispatch
    · subst heq
      rw [Function.update_self]
      rw [hnone, if_pos rfl, List.nil_append] at hof
      refine stands_of_answer rfl (Or.inr ⟨call, session, outcome, done, ?_, hof, rfl⟩)
      rw [hadmitted, hissued]
    · rw [Function.update_of_ne heq]
      rw [if_neg (Ne.symm heq), List.append_nil] at hof
      exact (hstanding.stands other).congr (by rw [hadmitted]) hof

end Standing

/-- The invariant: every call stands where its history says, and the ingress remembers the
admissions of the current sessions. -/
structure Settling (world : SettleWorld) : Prop where
  consistent : Consistent world.calls.ingress
  counted : world.calls.Counted
  genuine : ∀ dispatch, (world.calls.dispatches dispatch).Genuine world.calls
  stands : ∀ dispatch, world.Stands dispatch (world.calls.dispatches dispatch)
  checked : ∀ dispatch admitted, world.admitted dispatch = some admitted →
    admitted.call.Admissible world.calls
  earlier : ∀ dispatch admitted, world.admitted dispatch = some admitted →
    admitted.session ≤ world.sessions admitted.call.ordered.streamKey
  remembered : ∀ dispatch admitted, world.admitted dispatch = some admitted →
    admitted.session = world.sessions admitted.call.ordered.streamKey →
    Remembered world.calls.ingress admitted.call.ordered
  kept : ∀ settled ∈ world.settled, settled.result = .ok () → ∀ admitted,
    world.admitted settled.dispatch = some admitted →
    admitted.session = world.sessions admitted.call.ordered.streamKey →
    Kept world.calls.ingress admitted.call.ordered (terminalReply (terminalOf settled.outcome))

namespace Settling

theorem genuine_of_same {before after : DispatchWorld}
    (hservices : after.services = before.services) (hservice : after.service = before.service)
    {pc : DispatchPc} (hgenuine : pc.Genuine before) : pc.Genuine after := by
  cases pc <;> simpa only [DispatchPc.Genuine, DispatchCall.Admissible, DispatchCall.Genuine,
    hservices, hservice] using hgenuine

theorem standing (hsettling : world.Settling) : world.Standing :=
  ⟨hsettling.counted, hsettling.stands⟩

/-- A move changes the position of one call and nothing the ingress remembers. -/
theorem moves (hsettling : world.Settling) {after : DispatchWorld} {dispatch : Nat}
    {pc : DispatchPc} (hmoves : Moves world.calls after dispatch pc) :
    ({ world with calls := after } : SettleWorld).Settling := by
  obtain ⟨hcounted, hstands⟩ := hsettling.standing.shifts hmoves.shifts
  constructor
  · rw [hmoves.ingress]
    exact hsettling.consistent
  · exact hcounted
  · intro other
    refine genuine_of_same hmoves.services hmoves.service ?_
    rw [hmoves.dispatches, Function.update_apply]
    split
    · exact hmoves.genuine (hsettling.genuine dispatch)
    · exact hsettling.genuine other
  · exact hstands
  · intro other admitted hadmitted
    have hcall := hsettling.checked other admitted hadmitted
    unfold DispatchCall.Admissible DispatchCall.Genuine at hcall ⊢
    rw [hmoves.services, hmoves.service]
    exact hcall
  · exact hsettling.earlier
  · intro other admitted hadmitted hsession
    rw [hmoves.ingress]
    exact hsettling.remembered other admitted hadmitted hsession
  · intro settled hmem hdone admitted hadmitted hsession
    rw [hmoves.ingress]
    exact hsettling.kept settled hmem hdone admitted hadmitted hsession

/-- A grant begins a new session of its stream, and leaves the others alone. -/
theorem afterGrant (hsettling : world.Settling) (grant : OrderedGrant) :
    (world.afterGrant grant).Settling := by
  obtain ⟨hconsistent, hcounted, hgenuine, hstands, hchecked, hearlier, hremembered, hkept⟩ :=
    hsettling
  obtain ⟨hsame, -⟩ | ⟨-, hnew, hinstalls, hafter⟩ := grantStream_cases hconsistent grant
  · have hworld : world.afterGrant grant = world := by
      unfold SettleWorld.afterGrant
      dsimp only
      rw [hsame, if_neg (fun hboth => hboth.2 hboth.1)]
    rw [hworld]
    exact ⟨hconsistent, hcounted, hgenuine, hstands, hchecked, hearlier, hremembered, hkept⟩
  · have hmem : grant ∈ (world.calls.ingress.grantStream grant).2.grants := by
      rw [hinstalls.grants]
      exact List.mem_append_right _ List.mem_cons_self
    have hsessions : (world.afterGrant grant).sessions = Function.update world.sessions
        grant.streamKey (world.sessions grant.streamKey + 1) :=
      if_pos ⟨hmem, hnew⟩
    have hold : ∀ dispatch admitted, world.admitted dispatch = some admitted →
        admitted.session =
          (world.afterGrant grant).sessions admitted.call.ordered.streamKey →
        admitted.call.ordered.streamKey ≠ grant.streamKey ∧
          admitted.session = world.sessions admitted.call.ordered.streamKey := by
      intro dispatch admitted hadmitted hsession
      have hle := hearlier dispatch admitted hadmitted
      rw [hsessions] at hsession
      by_cases hkey : admitted.call.ordered.streamKey = grant.streamKey
      · rw [hkey, Function.update_self] at hsession
        rw [hkey] at hle
        omega
      · rw [Function.update_of_ne hkey] at hsession
        exact ⟨hkey, hsession⟩
    constructor
    · exact hafter
    · exact hcounted
    · intro other
      exact genuine_of_same rfl rfl (hgenuine other)
    · intro other
      exact (hstands other).congr rfl rfl
    · exact hchecked
    · intro other admitted hadmitted
      have hle := hearlier other admitted hadmitted
      rw [hsessions, Function.update_apply]
      split
      case isTrue hkey =>
        rw [hkey] at hle
        exact Nat.le_succ_of_le hle
      case isFalse => exact hle
    · intro other admitted hadmitted hsession
      obtain ⟨hkey, hcurrent⟩ := hold other admitted hadmitted hsession
      exact (hremembered other admitted hadmitted hcurrent).installs hinstalls hkey
    · intro settled hmem hdone admitted hadmitted hsession
      obtain ⟨hkey, hcurrent⟩ := hold settled.dispatch admitted hadmitted hsession
      exact (hkept settled hmem hdone admitted hadmitted hcurrent).installs hinstalls hkey

/-- One call was placed anew, and the ingress changed. -/
structure Places (before after : DispatchWorld) (dispatch : Nat) (pc : DispatchPc) : Prop where
  services : after.services = before.services
  service : after.service = before.service
  count : after.count = before.count
  dispatches : after.dispatches = Function.update before.dispatches dispatch pc

omit [Infra] in
theorem places_goto (before : DispatchWorld) (ingress : OrderedIngress) (dispatch : Nat)
    (pc : DispatchPc) :
    Places before ({ before with ingress := ingress }.goto dispatch pc) dispatch pc :=
  ⟨rfl, rfl, rfl, rfl⟩

namespace Places

variable {before after : DispatchWorld} {dispatch : Nat} {pc : DispatchPc}

omit [Infra] in
theorem counted (hplaces : Places before after dispatch pc) (hcounted : before.Counted)
    (hbusy : before.dispatches dispatch ≠ .idle) : after.Counted := by
  intro other hother
  rw [hplaces.count] at hother
  rw [hplaces.dispatches, Function.update_of_ne]
  · exact hcounted other hother
  · rintro rfl
    exact hbusy (hcounted other hother)

theorem genuine (hplaces : Places before after dispatch pc)
    (hgenuine : ∀ other, (before.dispatches other).Genuine before)
    (hpc : pc.Genuine before) (other : Nat) : (after.dispatches other).Genuine after := by
  refine genuine_of_same hplaces.services hplaces.service ?_
  rw [hplaces.dispatches, Function.update_apply]
  split
  · exact hpc
  · exact hgenuine other

theorem checked (hplaces : Places before after dispatch pc) {call : DispatchCall}
    (hcall : call.Admissible before) : call.Admissible after := by
  unfold DispatchCall.Admissible DispatchCall.Genuine at hcall ⊢
  rw [hplaces.services, hplaces.service]
  exact hcall

end Places

theorem executed (hsettling : world.Settling) {after : DispatchWorld} {dispatch : Nat}
    {call executing : DispatchCall} {grant : OrderedGrant}
    (hat : world.calls.dispatches dispatch = .admitting call)
    (hexecuting : executing = { call with ticket := some (executeAdmission call.ordered) })
    (hgrant : world.calls.ingress.Authorizes call.ordered grant)
    (hresult : (world.calls.ingress.admitRequest call.ordered).1 =
      .ok (executeAdmission call.ordered))
    (hconsumes : Consumes call.ordered world.calls.ingress after.ingress)
    (hconsistent : Consistent after.ingress)
    (hplaces : Places world.calls after dispatch (.activate executing)) :
    (world.advance (.admitting dispatch) after).Settling := by
  have hordered : executing.ordered = call.ordered := by rw [hexecuting]; rfl
  have hticket : executing.ticket = some (executeAdmission executing.ordered) := by
    rw [hordered, hexecuting]
  have hearly := (hsettling.stands dispatch).early (by rw [hat]; rfl)
  have hcall : executing.Admissible world.calls := by
    have hgenuine := hsettling.genuine dispatch
    rw [hat] at hgenuine
    rw [hexecuting]
    exact hgenuine
  have hself : after.dispatches dispatch = .activate executing := by
    rw [hplaces.dispatches, Function.update_self]
  have hadmitted : (world.advance (.admitting dispatch) after).admitted =
      Function.update world.admitted dispatch
        (some ⟨executing, world.sessions executing.ordered.streamKey⟩) := by
    simp only [advance, admittedBy, hself]
  have hsettled : (world.advance (.admitting dispatch) after).settled = world.settled :=
    List.append_nil _
  have hcases : ∀ other admitted,
      (world.advance (.admitting dispatch) after).admitted other = some admitted →
      (other = dispatch ∧
        admitted = ⟨executing, world.sessions executing.ordered.streamKey⟩) ∨
      world.admitted other = some admitted := by
    intro other admitted hother
    rw [hadmitted, Function.update_apply] at hother
    split at hother
    case isTrue heq => exact Or.inl ⟨heq, (Option.some.inj hother).symm⟩
    case isFalse => exact Or.inr hother
  obtain ⟨hcounted, hstands⟩ := hsettling.standing.executed hat hticket hplaces.count
    hplaces.dispatches hadmitted hsettled
  constructor
  · exact hconsistent
  · exact hcounted
  · refine hplaces.genuine hsettling.genuine ?_
    exact (DispatchWorld.genuine_of_carried rfl).mpr hcall.1
  · exact hstands
  · intro other admitted hother
    obtain ⟨-, rfl⟩ | hold := hcases other admitted hother
    · exact hplaces.checked hcall
    · exact hplaces.checked (hsettling.checked other admitted hold)
  · intro other admitted hother
    obtain ⟨-, rfl⟩ | hold := hcases other admitted hother
    · exact Nat.le_refl _
    · exact hsettling.earlier other admitted hold
  · intro other admitted hother hsession
    obtain ⟨-, rfl⟩ | hold := hcases other admitted hother
    · rw [hordered]
      exact remembered_of_consumes (stamped_of_ticket hresult) hgrant hconsumes
    · exact (hsettling.remembered other admitted hold hsession).consumes hconsumes
  · intro settled hmem hdone admitted hother hsession
    rw [hsettled] at hmem
    obtain ⟨heq, -⟩ | hold := hcases settled.dispatch admitted hother
    · have hnone : settled ∈ world.settledOf dispatch :=
        List.mem_filter.mpr ⟨hmem, decide_eq_true heq⟩
      rw [hearly.2] at hnone
      cases hnone
    · exact (hsettling.kept settled hmem hdone admitted hold hsession).consumes
        (hsettling.remembered settled.dispatch admitted hold hsession) hconsumes

theorem settles (hsettling : world.Settling) {after : DispatchWorld} {dispatch : Nat}
    {call : DispatchCall} {outcome : Except Error Bytes} {ticket : Admission}
    (hat : world.calls.dispatches dispatch = .complete call outcome)
    (hticket : call.ticket = some ticket)
    (hingress : after.ingress =
      (world.calls.ingress.complete ticket (terminalOf outcome)).2)
    (hplaces : Places world.calls after dispatch (.leave (answerOf call outcome
      (world.calls.ingress.complete ticket (terminalOf outcome)).1))) :
    (world.advance (.complete dispatch) after).Settling := by
  obtain ⟨rfl, -, session, hadmitted⟩ := hsettling.standing.ticket_eq hat hticket
  have hsettled : (world.advance (.complete dispatch) after).settled =
      world.settled ++ [⟨dispatch, executeAdmission call.ordered, outcome,
        (world.calls.ingress.complete (executeAdmission call.ordered)
          (terminalOf outcome)).1⟩] := by
    simp only [advance, settledBy, hat, hticket, Option.map_some, Option.toList_some]
  obtain ⟨hcounted, hstands⟩ : (world.advance (.complete dispatch) after).Standing :=
    hsettling.standing.settles hat hticket hplaces.count hplaces.dispatches rfl hsettled
  have hgenuine := hplaces.genuine hsettling.genuine (fun _ hsome => by cases hsome)
  have hchecked := fun other admitted hother =>
    hplaces.checked (hsettling.checked other admitted hother)
  obtain ⟨reason, hrefused⟩ | ⟨entry, -, hdone, hends, hconsistent⟩ :=
    OrderedIngress.complete_cases hsettling.consistent (executeAdmission call.ordered)
      (terminalOf outcome)
  · rw [hrefused] at hingress hsettled
    constructor
    · exact hingress ▸ hsettling.consistent
    · exact hcounted
    · exact hgenuine
    · exact hstands
    · exact hchecked
    · exact hsettling.earlier
    · intro other admitted hother hsession
      change Remembered after.ingress _
      rw [hingress]
      exact hsettling.remembered other admitted hother hsession
    · intro settled hmem hok admitted hother hsession
      change Kept after.ingress _ _
      rw [hingress]
      rw [hsettled] at hmem
      obtain hold | hnew := List.mem_append.mp hmem
      · exact hsettling.kept settled hold hok admitted hother hsession
      · rw [List.mem_singleton.mp hnew] at hok
        cases hok
  · rw [← hingress] at hends hconsistent
    constructor
    · exact hconsistent
    · exact hcounted
    · exact hgenuine
    · exact hstands
    · exact hchecked
    · exact hsettling.earlier
    · intro other admitted hother hsession
      exact (hsettling.remembered other admitted hother hsession).ends hends
    · intro settled hmem hok admitted hother hsession
      rw [hsettled] at hmem
      obtain hold | hnew := List.mem_append.mp hmem
      · exact (hsettling.kept settled hold hok admitted hother hsession).ends hends
      · rw [List.mem_singleton.mp hnew] at hother ⊢
        obtain rfl : (⟨call, session⟩ : Admitted) = admitted :=
          Option.some.inj (hadmitted.symm.trans hother)
        exact kept_of_ends hsettling.consistent
          (hsettling.remembered dispatch _ hadmitted hsession) hends

end Settling

theorem Settling.advance (hsettling : world.Settling) {step : DispatchStep}
    {after : DispatchWorld} (hnext : world.calls.next step = some after) :
    (world.advance step after).Settling := by
  obtain ⟨hadmitted, hsettled, dispatch, pc, hmoves⟩ |
      ⟨dispatch, call, grant, rfl, hat, hgrant, hresult, hconsumes, hconsistent, hafter⟩ |
      ⟨dispatch, call, outcome, ticket, rfl, hat, hticket, hafter⟩ :=
    DispatchWorld.next_cases hsettling.counted hsettling.consistent hnext
  · have hquiet : world.advance step after = { world with calls := after } := by
      simp only [SettleWorld.advance, hadmitted, hsettled, Option.toList_none, List.append_nil]
    rw [hquiet]
    exact hsettling.moves hmoves
  · refine hsettling.executed hat rfl hgrant hresult hconsumes hconsistent ?_
    rw [hafter]
    exact Settling.places_goto _ _ _ _
  · refine hsettling.settles hat hticket ?_ ?_
    · rw [hafter]
      rfl
    · rw [hafter]
      exact Settling.places_goto _ _ _ _

theorem Settling.next (hsettling : world.Settling) {step : SettleStep}
    (hnext : world.next step = some last) : last.Settling := by
  cases step with
  | dispatch step =>
      obtain ⟨after, hafter, rfl⟩ := Option.map_eq_some_iff.mp hnext
      exact hsettling.advance hafter
  | grant grant =>
      cases hnext
      exact hsettling.afterGrant grant

/-- An admission stays in the history. -/
theorem Settling.admitted_next (hsettling : world.Settling) {step : SettleStep}
    {dispatch : Nat} {admitted : Admitted} (hnext : world.next step = some last)
    (hadmitted : world.admitted dispatch = some admitted) :
    last.admitted dispatch = some admitted := by
  cases step with
  | grant grant =>
      cases hnext
      exact hadmitted
  | dispatch step =>
      obtain ⟨after, hafter, rfl⟩ := Option.map_eq_some_iff.mp hnext
      obtain ⟨hnone, -⟩ | ⟨other, call, grant, rfl, hat, -, -, -, -, rfl⟩ |
          ⟨other, call, outcome, ticket, rfl, -⟩ :=
        DispatchWorld.next_cases hsettling.counted hsettling.consistent hafter
      · simp only [SettleWorld.advance, hnone]
        exact hadmitted
      · have hne : dispatch ≠ other := by
          rintro rfl
          have hearly := (hsettling.stands dispatch).early (by rw [hat]; rfl)
          cases hearly.1.symm.trans hadmitted
        simp only [SettleWorld.advance, admittedBy, DispatchWorld.goto, Function.update_self]
        rw [Function.update_of_ne hne]
        exact hadmitted
      · exact hadmitted

theorem Settling.answer_next (hsettling : world.Settling) {step : SettleStep} {dispatch : Nat}
    {result : Except Error RpcEnvelope} (hnext : world.next step = some last)
    (hanswer : (world.calls.dispatches dispatch).answer = some result) :
    (last.calls.dispatches dispatch).answer = some result := by
  cases step with
  | grant grant =>
      cases hnext
      exact hanswer
  | dispatch step =>
      obtain ⟨after, hafter, rfl⟩ := Option.map_eq_some_iff.mp hnext
      change (after.dispatches dispatch).answer = some result
      obtain ⟨-, -, other, pc, hmoves⟩ | ⟨other, call, grant, -, hat, -, -, -, -, rfl⟩ |
          ⟨other, call, outcome, ticket, -, hat, -, rfl⟩ :=
        DispatchWorld.next_cases hsettling.counted hsettling.consistent hafter
      · rw [hmoves.dispatches, Function.update_apply]
        split
        case isTrue heq =>
          rw [heq] at hanswer
          exact hmoves.passes.keeps hanswer
        case isFalse => exact hanswer
      · rw [DispatchWorld.goto_of_ne]
        · exact hanswer
        · rintro rfl
          rw [hat] at hanswer
          cases hanswer
      · rw [DispatchWorld.goto_of_ne]
        · exact hanswer
        · rintro rfl
          rw [hat] at hanswer
          cases hanswer

theorem settling_of_reachable (hreach : settleMachine.Reachable world) : world.Settling := by
  refine hreach.induct ?_ ?_
  · rintro start ⟨⟨⟨history, hhistory, hingress⟩, -, -, -, -, hidle⟩, -, hadmitted, hsettled⟩
    have hnone : ∀ dispatch, start.settledOf dispatch = [] := by
      intro dispatch
      unfold settledOf
      rw [hsettled, List.filter_nil]
    constructor
    · rw [hingress]
      exact reachable_consistent hhistory
    · exact fun dispatch _ => hidle dispatch
    · intro dispatch
      rw [hidle]
      intro call hcall
      cases hcall
    · intro dispatch
      rw [hidle]
      exact stands_of_early rfl ⟨hadmitted dispatch, hnone dispatch⟩
    · intro dispatch admitted hsome
      cases (hadmitted dispatch).symm.trans hsome
    · intro dispatch admitted hsome
      cases (hadmitted dispatch).symm.trans hsome
    · intro dispatch admitted hsome
      cases (hadmitted dispatch).symm.trans hsome
    · intro settled hmem
      rw [hsettled] at hmem
      cases hmem
  · intro _ _ _ _ hsettling _ hnext
    exact hsettling.next hnext

end SettleWorld

end

end BbtFramework.Inbound
