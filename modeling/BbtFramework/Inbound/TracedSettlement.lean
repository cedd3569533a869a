import BbtFramework.Inbound.Settlement
import BbtFramework.Ordered.TracedRun

/-!
# Settling calls over the references of the cache

The calls of a service and their history, over the ingress whose evictions read the erased
fronts through the references of the source.  Which calls of `Complete` are made does not
depend on what they read.  While the fronts last, the calls run as they do over the ingress
with keys by value.
-/

namespace BbtFramework.Inbound

open BbtFramework.Library
open BbtFramework.Ordered
open BbtFramework.Rpc
open OrderedIngress

structure TracedSettle where
  settle : SettleWorld
  removals : List Removal := []

/-- The fronts a call of `Complete` erases read as `stale` afterwards. -/
inductive TracedStep where
  | dispatch (step : DispatchStep) (stale : Nat → CachedKey)
  | grant (grant : OrderedGrant)

def TracedStep.settleStep : TracedStep → SettleStep
  | .dispatch step _ => .dispatch step
  | .grant new => .grant new

namespace TracedSettle

def traced (world : TracedSettle) : TracedIngress :=
  ⟨world.settle.calls.ingress, world.removals⟩

section

variable [Infra]

def complete (world : TracedSettle) (dispatch : Nat) (stale : Nat → CachedKey) :
    Option TracedSettle :=
  match world.settle.calls.dispatches dispatch with
  | .complete call outcome =>
      match call.ticket with
      | none =>
          some { world with settle := { world.settle with
            calls := world.settle.calls.goto dispatch (.leave (resultOf call outcome)) } }
      | some ticket =>
          let completed := world.traced.complete ticket (terminalOf outcome) stale
          let ended := { world.settle.calls with ingress := completed.2.ingress }
          some
            { settle := { world.settle with
                calls := ended.goto dispatch (.leave (answerOf call outcome completed.1))
                settled := world.settle.settled ++ [⟨dispatch, ticket, outcome, completed.1⟩] }
              removals := completed.2.removals }
  | _ => none

def afterGrant (world : TracedSettle) (grant : OrderedGrant) : TracedSettle :=
  let after := (world.traced.grantStream grant).2
  { settle := { world.settle with
      calls := { world.settle.calls with ingress := after.ingress }
      sessions :=
        if grant ∈ after.ingress.grants ∧ grant ∉ world.settle.calls.ingress.grants then
          Function.update world.settle.sessions grant.streamKey
            (world.settle.sessions grant.streamKey + 1)
        else world.settle.sessions }
    removals := after.removals }

def next (world : TracedSettle) : TracedStep → Option TracedSettle
  | .dispatch (.complete dispatch) stale => world.complete dispatch stale
  | .dispatch step _ => (world.settle.calls.next step).map fun after =>
      { world with settle := world.settle.advance step after }
  | .grant new => some (world.afterGrant new)

/-- The call of `Complete` that the step makes. -/
def completes (world : TracedSettle) : TracedStep → Option CacheCall
  | .dispatch (.complete dispatch) stale =>
      match world.settle.calls.dispatches dispatch with
      | .complete call outcome => call.ticket.map fun ticket =>
          .complete ticket (terminalOf outcome) stale
      | _ => none
  | _ => none

/-- The fronts the step erases still read as their keys. -/
def KeepsFronts (world : TracedSettle) (step : TracedStep) : Prop :=
  ∀ call ∈ world.completes step, FrontsLast { traced := world.traced } call

instance (world : TracedSettle) (step : TracedStep) : Decidable (world.KeepsFronts step) :=
  inferInstanceAs (Decidable (∀ call ∈ world.completes step, _))

end

end TracedSettle

section

variable [Infra]

/-- The calls of a service whose ingress has a history of this kind behind it. -/
def tracedSettleMachine (past : CacheWorld → Prop) : Machine TracedSettle TracedStep where
  init world := (∃ history, past history ∧ world.traced = history.traced) ∧
    world.settle.calls.inflight = 0 ∧ world.settle.calls.count = 0 ∧
    world.settle.calls.started = [] ∧
    (∀ key, world.settle.calls.mailboxes key = none) ∧
    (∀ dispatch, world.settle.calls.dispatches dispatch = .idle) ∧
    (∀ key, world.settle.sessions key = 0) ∧
    (∀ dispatch, world.settle.admitted dispatch = none) ∧ world.settle.settled = []
  next := TracedSettle.next

namespace DispatchWorld

variable {before after : DispatchWorld}

theorem admitRequest_answers (ingress : OrderedIngress) (request : OrderedIngressRequest) :
    (∃ reason, (ingress.admitRequest request).1 = .error reason) ∨
    (∃ ticket reply, (ingress.admitRequest request).1 = .ok ticket ∧
      ticket.kind = .replay ∧ ticket.replay = some reply) ∨
    (ingress.admitRequest request).1 = .ok (executeAdmission request) := by
  unfold admitRequest
  split
  · exact .inl ⟨_, rfl⟩
  · split
    · exact .inl ⟨_, rfl⟩
    · split
      · exact .inl ⟨_, rfl⟩
      · dsimp only
        split
        · exact .inl ⟨_, rfl⟩
        · split
          · exact .inl ⟨_, rfl⟩
          · split
            · unfold answerConsumed
              split
              · split
                · exact .inl ⟨_, rfl⟩
                · exact .inl ⟨_, rfl⟩
              · split
                · split
                  · exact .inl ⟨_, rfl⟩
                  · exact .inr (.inl ⟨_, _, rfl, rfl, rfl⟩)
                · exact .inl ⟨_, rfl⟩
            · exact .inr (.inr rfl)

omit [Infra] in
theorem shifts_leave (hcounted : before.Counted) {dispatch : Nat} {call : DispatchCall}
    {result : Except Error RpcEnvelope} (hat : before.dispatches dispatch = .admitting call)
    (hcount : after.count = before.count)
    (hdispatches : after.dispatches =
      Function.update before.dispatches dispatch (.leave result)) :
    Shifts before after dispatch (.leave result) := by
  refine ⟨fun other hother => ?_, hdispatches, ?_⟩
  · rw [hcount] at hother
    refine ⟨hother, ?_⟩
    rintro rfl
    have hidle := hcounted other hother
    rw [hat] at hidle
    cases hidle
  · rw [hat]
    exact .refused rfl rfl

theorem admitting_shifts (hcounted : before.Counted) {dispatch : Nat}
    (hnext : before.admitting dispatch = some after) :
    (∃ result, Shifts before after dispatch (.leave result)) ∨
    ∃ call, before.dispatches dispatch = .admitting call ∧
      after.count = before.count ∧ after.dispatches = Function.update before.dispatches dispatch
        (.activate { call with ticket := some (executeAdmission call.ordered) }) := by
  cases hat : before.dispatches dispatch with
  | admitting call =>
      obtain ⟨reason, hrefused⟩ | ⟨ticket, reply, hreplayed, hkind, hreply⟩ | hexecute :=
        admitRequest_answers before.ingress call.ordered
      · simp only [DispatchWorld.admitting, hat, hrefused] at hnext
        cases hnext
        exact .inl ⟨_, shifts_leave hcounted hat rfl rfl⟩
      · simp only [DispatchWorld.admitting, hat, hreplayed, hkind, hreply] at hnext
        cases hnext
        exact .inl ⟨_, shifts_leave hcounted hat rfl rfl⟩
      · simp only [DispatchWorld.admitting, hat, hexecute] at hnext
        cases hnext
        exact .inr ⟨call, rfl, rfl, rfl⟩
  | _ => simp [DispatchWorld.admitting, hat] at hnext

theorem next_shifts (hcounted : before.Counted) {step : DispatchStep}
    (hnext : before.next step = some after)
    (hother : ∀ dispatch, step ≠ .complete dispatch) :
    SettleWorld.settledBy before step = none ∧
    ((admittedBy after step = none ∧ ∃ dispatch pc, Shifts before after dispatch pc) ∨
    ∃ dispatch call, step = .admitting dispatch ∧
      before.dispatches dispatch = .admitting call ∧ after.count = before.count ∧
      after.dispatches = Function.update before.dispatches dispatch
        (.activate { call with ticket := some (executeAdmission call.ordered) })) := by
  by_cases hadmits : ∃ dispatch, step = .admitting dispatch
  · obtain ⟨dispatch, rfl⟩ := hadmits
    obtain ⟨result, hshifts⟩ | ⟨call, hexecuted⟩ := admitting_shifts hcounted hnext
    · refine ⟨rfl, .inl ⟨?_, _, _, hshifts⟩⟩
      rw [admittedBy, hshifts.dispatches, Function.update_self]
    · exact ⟨rfl, .inr ⟨dispatch, call, rfl, hexecuted⟩⟩
  · obtain ⟨hnone, hunsettled, dispatch, pc, hmoves⟩ := quiet_moves hcounted hnext
      (fun dispatch hstep => hadmits ⟨dispatch, hstep⟩) hother
    exact ⟨hunsettled, .inl ⟨hnone, dispatch, pc, hmoves.shifts⟩⟩

theorem next_ingress (hcounted : before.Counted) {step : DispatchStep}
    (hnext : before.next step = some after) (hother : ∀ dispatch, step ≠ .complete dispatch) :
    after.ingress = before.ingress ∨
      ∃ request, after.ingress = (before.ingress.admitRequest request).2 := by
  by_cases hadmits : ∃ dispatch, step = .admitting dispatch
  · obtain ⟨dispatch, rfl⟩ := hadmits
    replace hnext : before.admitting dispatch = some after := hnext
    right
    cases hat : before.dispatches dispatch with
    | admitting call =>
        refine ⟨call.ordered, ?_⟩
        simp only [DispatchWorld.admitting, hat] at hnext
        split at hnext
        · cases hnext
          rfl
        · split at hnext
          · cases hnext
            rfl
          · cases hnext
            rfl
    | _ => simp [DispatchWorld.admitting, hat] at hnext
  · obtain ⟨-, -, dispatch, pc, hmoves⟩ := quiet_moves hcounted hnext
      (fun dispatch hstep => hadmits ⟨dispatch, hstep⟩) hother
    exact .inl hmoves.ingress

theorem complete_of_ticket {dispatch : Nat} {call : DispatchCall} {outcome : Except Error Bytes}
    {ticket : Admission} (hat : before.dispatches dispatch = .complete call outcome)
    (hticket : call.ticket = some ticket) :
    before.complete dispatch = some ({ before with
      ingress := (before.ingress.complete ticket (terminalOf outcome)).2 }.goto dispatch
        (.leave (answerOf call outcome
          (before.ingress.complete ticket (terminalOf outcome)).1))) := by
  simp only [DispatchWorld.complete, hat, hticket]
  cases (before.ingress.complete ticket (terminalOf outcome)).1 with
  | error reason => rfl
  | ok done => rfl

end DispatchWorld

namespace TracedSettle

variable {world last : TracedSettle}

theorem next_cases {step : TracedStep} (hnext : world.next step = some last) :
    (∃ new, step = .grant new ∧ last = world.afterGrant new) ∨
    (∃ dispatch stale, step = .dispatch (.complete dispatch) stale ∧
      world.complete dispatch stale = some last) ∨
    ∃ inner stale after, step = .dispatch inner stale ∧
      (∀ dispatch, inner ≠ .complete dispatch) ∧ world.settle.calls.next inner = some after ∧
      last = { world with settle := world.settle.advance inner after } := by
  cases step with
  | grant new => exact .inl ⟨new, rfl, (Option.some.inj hnext).symm⟩
  | dispatch inner stale =>
      by_cases hcompletes : ∃ dispatch, inner = .complete dispatch
      · obtain ⟨dispatch, rfl⟩ := hcompletes
        exact .inr (.inl ⟨dispatch, stale, rfl, hnext⟩)
      · have hother : ∀ dispatch, inner ≠ .complete dispatch :=
          fun dispatch hinner => hcompletes ⟨dispatch, hinner⟩
        have hmapped : world.next (.dispatch inner stale) =
            (world.settle.calls.next inner).map fun after =>
              { world with settle := world.settle.advance inner after } := by
          cases inner with
          | complete dispatch => exact absurd rfl (hother dispatch)
          | _ => rfl
        obtain ⟨after, hafter, rfl⟩ := Option.map_eq_some_iff.mp (hmapped.symm.trans hnext)
        exact .inr (.inr ⟨inner, stale, after, rfl, hother, hafter, rfl⟩)

theorem complete_cases {dispatch : Nat} {stale : Nat → CachedKey}
    (hnext : world.complete dispatch stale = some last) :
    ∃ call outcome, world.settle.calls.dispatches dispatch = .complete call outcome ∧
      ((call.ticket = none ∧ last = { world with settle := { world.settle with
        calls := world.settle.calls.goto dispatch (.leave (resultOf call outcome)) } }) ∨
      ∃ ticket, call.ticket = some ticket ∧
        last.settle = { world.settle with
          calls := { world.settle.calls with ingress :=
              (world.traced.complete ticket (terminalOf outcome) stale).2.ingress }.goto dispatch
            (.leave (answerOf call outcome
              (world.traced.complete ticket (terminalOf outcome) stale).1))
          settled := world.settle.settled ++ [⟨dispatch, ticket, outcome,
            (world.traced.complete ticket (terminalOf outcome) stale).1⟩] } ∧
        last.removals = (world.traced.complete ticket (terminalOf outcome) stale).2.removals) := by
  cases hat : world.settle.calls.dispatches dispatch with
  | complete call outcome =>
      refine ⟨call, outcome, rfl, ?_⟩
      simp only [TracedSettle.complete, hat] at hnext
      cases hticket : call.ticket with
      | none =>
          simp only [hticket] at hnext
          exact .inl ⟨rfl, (Option.some.inj hnext).symm⟩
      | some ticket =>
          simp only [hticket] at hnext
          cases hnext
          exact .inr ⟨ticket, rfl, rfl, rfl⟩
  | _ => simp [TracedSettle.complete, hat] at hnext

theorem standing_next (hstanding : world.settle.Standing) {step : TracedStep}
    (hnext : world.next step = some last) : last.settle.Standing := by
  obtain ⟨new, rfl, rfl⟩ | ⟨dispatch, stale, rfl, hcomplete⟩ |
    ⟨inner, stale, after, rfl, hother, hafter, rfl⟩ := next_cases hnext
  · exact hstanding.aside rfl rfl rfl rfl
  · obtain ⟨call, outcome, hat, ⟨hticket, rfl⟩ | ⟨ticket, hticket, hsettle, -⟩⟩ :=
      complete_cases hcomplete
    · refine hstanding.shifts ⟨fun other hother => ⟨hother, ?_⟩, rfl, ?_⟩
      · rintro rfl
        have hidle := hstanding.counted other hother
        rw [hat] at hidle
        cases hidle
      · rw [hat]
        exact .unordered rfl hticket rfl
    · rw [hsettle]
      exact hstanding.settles hat hticket rfl rfl rfl rfl
  · obtain ⟨hunsettled, ⟨hnone, dispatch, pc, hshifts⟩ |
      ⟨dispatch, call, rfl, hat, hcount, hdispatches⟩⟩ :=
        DispatchWorld.next_shifts hstanding.counted hafter hother
    · have hquiet : world.settle.advance inner after = { world.settle with calls := after } := by
        simp only [SettleWorld.advance, hnone, hunsettled, Option.toList_none, List.append_nil]
      change (world.settle.advance inner after).Standing
      rw [hquiet]
      exact hstanding.shifts hshifts
    · have hself : after.dispatches dispatch =
          .activate { call with ticket := some (executeAdmission call.ordered) } := by
        rw [hdispatches, Function.update_self]
      have hadmitted : (world.settle.advance (.admitting dispatch) after).admitted =
          Function.update world.settle.admitted dispatch (some
            ⟨{ call with ticket := some (executeAdmission call.ordered) },
              world.settle.sessions call.ordered.streamKey⟩) := by
        simp only [SettleWorld.advance, admittedBy, hself]
        rfl
      refine hstanding.executed hat rfl hcount hdispatches hadmitted ?_
      simp only [SettleWorld.advance, hunsettled, Option.toList_none, List.append_nil]

theorem standing_of_reachable {past : CacheWorld → Prop}
    (hreach : (tracedSettleMachine past).Reachable world) : world.settle.Standing := by
  refine hreach.induct (motive := fun world => world.settle.Standing) ?_ ?_
  · rintro start ⟨-, -, -, -, -, hidle, -, hadmitted, hsettled⟩
    refine ⟨fun dispatch _ => hidle dispatch, fun dispatch => ?_⟩
    rw [hidle]
    refine SettleWorld.stands_of_early rfl ⟨hadmitted dispatch, ?_⟩
    unfold SettleWorld.settledOf
    rw [hsettled, List.filter_nil]
  · intro _ _ _ _ hstanding _ hnext
    exact standing_next hstanding hnext

/-- The cache of the ingress stands as a run whose fronts last leaves it. -/
structure Sound (world : TracedSettle) : Prop where
  standing : world.settle.Standing
  cache : ∃ cache : CacheWorld, cache.Holds ∧ cache.traced = world.traced

theorem Sound.next (hsound : world.Sound) {step : TracedStep} (hkeeps : world.KeepsFronts step)
    (hnext : world.next step = some last) :
    last.Sound ∧ world.settle.next step.settleStep = some last.settle := by
  have hstanding := standing_next hsound.standing hnext
  obtain ⟨cache, hholds, htraced⟩ := hsound.cache
  have hingress : cache.traced.ingress = world.settle.calls.ingress :=
    congrArg TracedIngress.ingress htraced
  obtain ⟨new, rfl, rfl⟩ | ⟨dispatch, stale, rfl, hcomplete⟩ |
    ⟨inner, stale, after, rfl, hother, hafter, rfl⟩ := next_cases hnext
  · obtain ⟨-, hvalue⟩ := hholds.tracked.grantStream hholds.consistent new
    rw [htraced] at hvalue
    refine ⟨⟨hstanding, _, hholds.grant new, ?_⟩, ?_⟩
    · change (cache.traced.grantStream new).2 = _
      rw [htraced]
      rfl
    · have hsame : (world.traced.grantStream new).2.ingress =
          (world.settle.calls.ingress.grantStream new).2 := hvalue
      refine congrArg some ?_
      unfold SettleWorld.afterGrant TracedSettle.afterGrant
      dsimp only
      rw [hsame]
  · obtain ⟨call, outcome, hat, ⟨hticket, rfl⟩ | ⟨ticket, hticket, hsettle, hremovals⟩⟩ :=
      complete_cases hcomplete
    · refine ⟨⟨hstanding, cache, hholds, htraced⟩, ?_⟩
      simp only [TracedStep.settleStep, SettleWorld.next, DispatchWorld.next,
        DispatchWorld.complete, hat, hticket, Option.map_some, SettleWorld.advance, admittedBy,
        SettleWorld.settledBy, Option.map_none, Option.toList_none, List.append_nil]
    · have hlasts : FrontsLast cache (.complete ticket (terminalOf outcome) stale) := by
        have hcompletes : .complete ticket (terminalOf outcome) stale ∈
            world.completes (.dispatch (.complete dispatch) stale) := by
          simp only [completes, hat, hticket, Option.map_some, Option.mem_some]
        have hfronts := hkeeps _ hcompletes
        unfold FrontsLast at hfronts ⊢
        rw [htraced]
        exact hfronts
      obtain ⟨hanswer, hvalue⟩ := hholds.complete_value hlasts
      rw [htraced] at hanswer hvalue
      refine ⟨⟨hstanding, _, hholds.next hlasts, ?_⟩, ?_⟩
      · rw [CacheWorld.next_complete, htraced]
        unfold traced
        rw [hsettle, hremovals]
        rfl
      · simp only [TracedStep.settleStep, SettleWorld.next, DispatchWorld.next,
          DispatchWorld.complete_of_ticket hat hticket, Option.map_some, SettleWorld.advance,
          admittedBy, SettleWorld.settledBy, hat, hticket, Option.toList_some]
        rw [hsettle, hanswer, hvalue]
        rfl
  · refine ⟨⟨hstanding, ?_⟩, ?_⟩
    · obtain hsame | ⟨request, hadmitted⟩ :=
        DispatchWorld.next_ingress hsound.standing.counted hafter hother
      · refine ⟨cache, hholds, htraced.trans ?_⟩
        exact congrArg (fun ingress => TracedIngress.mk ingress world.removals) hsame.symm
      · refine ⟨_, hholds.admitRequest request, ?_⟩
        change TracedIngress.mk (cache.traced.ingress.admitRequest request).2
          cache.traced.removals = TracedIngress.mk after.ingress world.removals
        rw [hadmitted, htraced]
        rfl
    · change (world.settle.calls.next inner).map _ = _
      rw [hafter]
      rfl

theorem reachable_of_past {past other : CacheWorld → Prop}
    {guard : TracedSettle → TracedStep → Prop}
    (hpast : ∀ history, past history → other history)
    (hreach : (tracedSettleMachine past).ReachableWhere guard world) :
    (tracedSettleMachine other).Reachable world := by
  refine hreach.induct (motive := (tracedSettleMachine other).Reachable) ?_ ?_
  · rintro start ⟨⟨history, hhistory, htraced⟩, hrest⟩
    exact .start ⟨⟨history, hpast history hhistory, htraced⟩, hrest⟩
  · intro _ _ _ _ hbefore _ hnext
    exact hbefore.step trivial hnext

theorem simulates {guard : SettleWorld → SettleStep → Prop} {past : CacheWorld → Prop} :
    (tracedSettleMachine past).Simulates settleMachine
      (fun world step => world.KeepsFronts step ∧ guard world.settle step.settleStep) guard
      Sound TracedSettle.settle TracedStep.settleStep := by
  rintro world step last hsound ⟨hkeeps, hguard⟩ hnext
  obtain ⟨hlast, hsettle⟩ := hsound.next hkeeps hnext
  exact ⟨hlast, hguard, hsettle⟩

/-- Every run whose fronts last is a run over keys by value. -/
theorem reachable_settle
    (hreach : (tracedSettleMachine (cacheMachine.ReachableWhere FrontsLast)).ReachableWhere
      KeepsFronts world) :
    world.Sound ∧ settleMachine.Reachable world.settle := by
  have hsim : (tracedSettleMachine (cacheMachine.ReachableWhere FrontsLast)).Simulates
      settleMachine KeepsFronts (fun _ _ => True) Sound settle TracedStep.settleStep := by
    intro before step after hsound hkeeps hnext
    obtain ⟨hafter, hsettle⟩ := hsound.next hkeeps hnext
    exact ⟨hafter, trivial, hsettle⟩
  refine hsim.reachable ?_ hreach
  intro start hstart
  have hstanding := standing_of_reachable (Machine.ReachableWhere.start hstart)
  obtain ⟨⟨past, hpast, htraced⟩, hinflight, hcount, hstarted, hmailboxes, hidle, hsessions,
    hadmitted, hsettled⟩ := hstart
  obtain ⟨history, hhistory, hingress⟩ := exists_history hpast
  refine ⟨⟨hstanding, past, holds_of_reachable hpast, htraced.symm⟩, .start ⟨⟨⟨history,
    hhistory, ?_⟩, hinflight, hcount, hstarted, hmailboxes, hidle⟩, hsessions, hadmitted,
    hsettled⟩⟩
  rw [hingress, ← htraced]
  rfl

end TracedSettle

end

end BbtFramework.Inbound
