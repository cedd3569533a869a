import BbtFramework.Inbound.DispatchOrder
import BbtFramework.Inbound.Settlement
import BbtFramework.Library.Gate

/-!
# The admission count of a service

`Dispatch` adds one to `inflight` before it compares with `max_inflight`, and takes it
back when there was no room; `InflightGuard` takes it back for a call that was let in,
however the call ends.  The count is a gate without a lock.
-/

namespace BbtFramework.Inbound

open BbtFramework.Library
open BbtFramework.Ordered
open BbtFramework.Rpc

namespace DispatchPc

/-- After `fetch_add` and before `fetch_sub`. -/
def counted : DispatchPc → Bool
  | .idle | .check _ _ | .returned _ | .thrown => false
  | _ => true

/-- All that is left of the call is its `fetch_sub`. -/
def exits : DispatchPc → Bool
  | .leave _ | .unwind => true
  | _ => false

end DispatchPc

/-- The calls with those the gate has let in and those it has turned away. -/
structure AdmissionWorld where
  dispatch : DispatchWorld
  inside : Finset Nat
  turned : Finset Nat

/-- A call or a mailbox acts, or what a call that was let in does throws. -/
inductive AdmissionStep where
  | dispatch (step : DispatchStep)
  | throw (dispatch : Nat)

namespace AdmissionWorld

/-- The calls on both sides of the gate after a step. -/
def record (world : AdmissionWorld) (step : DispatchStep) (last : DispatchWorld) :
    AdmissionWorld :=
  match step with
  | .check dispatch =>
      match last.dispatches dispatch with
      | .read _ _ _ => ⟨last, insert dispatch world.inside, world.turned⟩
      | .leave _ => ⟨last, world.inside, insert dispatch world.turned⟩
      | _ => ⟨last, world.inside, world.turned⟩
  | .leave dispatch => ⟨last, world.inside.erase dispatch, world.turned.erase dispatch⟩
  | _ => ⟨last, world.inside, world.turned⟩

/-- `max_inflight` of the service. -/
def limit (world : AdmissionWorld) : Nat :=
  ((world.dispatch.services.lookup world.dispatch.service).map
    (fun entry => entry.options.maxInflight)).getD 0

def gate (world : AdmissionWorld) : Gate Nat where
  limit := world.limit
  counter := world.dispatch.inflight
  inside := world.inside
  turned := world.turned

def next [Infra] (world : AdmissionWorld) : AdmissionStep → Option AdmissionWorld
  | .dispatch step => (world.dispatch.next step).map (world.record step)
  | .throw dispatch =>
      if (world.dispatch.dispatches dispatch).counted = true ∧
          (world.dispatch.dispatches dispatch).exits = false then
        some { world with dispatch := world.dispatch.goto dispatch .unwind }
      else none

end AdmissionWorld

/-- Every interleaving of calls, with exceptions wherever a call may throw. -/
def admissionMachine [Infra] : Machine AdmissionWorld AdmissionStep where
  init := fun world => dispatchMachine.init world.dispatch ∧
    world.inside = ∅ ∧ world.turned = ∅
  next := AdmissionWorld.next

section

variable [Infra]

/-- One call moves, and neither the services nor the count change; nothing but `fetch_sub`
moves a call that is about to leave. -/
structure Steady (before after : DispatchWorld) (dispatch : Nat) (pc : DispatchPc) :
    Prop where
  services : after.services = before.services
  service : after.service = before.service
  inflight : after.inflight = before.inflight
  fresh : ∀ other, after.count ≤ other →
    before.count ≤ other ∧ (other = dispatch → pc = .idle)
  dispatches : after.dispatches = Function.update before.dispatches dispatch pc
  counted : pc.counted = (before.dispatches dispatch).counted
  exits : (before.dispatches dispatch).exits = true → pc = before.dispatches dispatch
  named : ∀ incoming request, pc = .check incoming request →
    request.service = before.service

namespace DispatchWorld

variable {before after : DispatchWorld} {dispatch : Nat}

omit [Infra] in
/-- A call that was let in goes on. -/
theorem steady_goto {middle : DispatchWorld} {place pc : DispatchPc}
    (hcounted : before.Counted) (hat : before.dispatches dispatch = place)
    (hservices : middle.services = before.services)
    (hservice : middle.service = before.service)
    (hinflight : middle.inflight = before.inflight) (hcount : middle.count = before.count)
    (hdispatches : middle.dispatches = before.dispatches)
    (hinside : place.counted = true) (hstays : place.exits = false)
    (hpc : pc.counted = true) : Steady before (middle.goto dispatch pc) dispatch pc where
  services := hservices
  service := hservice
  inflight := hinflight
  fresh := by
    intro other hother
    replace hother : before.count ≤ other := hcount ▸ hother
    refine ⟨hother, ?_⟩
    rintro rfl
    rw [← hat, hcounted other hother] at hinside
    cases hinside
  dispatches := by
    change Function.update middle.dispatches dispatch pc = _
    rw [hdispatches]
  counted := by rw [hpc, hat, hinside]
  exits := by
    rw [hat, hstays]
    exact nofun
  named := by
    rintro incoming request rfl
    cases hpc

omit [Infra] in
/-- No call moves. -/
theorem steady_aside (hcounted : before.Counted) (hservices : after.services = before.services)
    (hservice : after.service = before.service)
    (hinflight : after.inflight = before.inflight) (hcount : after.count = before.count)
    (hdispatches : after.dispatches = before.dispatches)
    (hnamed : ∀ incoming request, before.dispatches dispatch = .check incoming request →
      request.service = before.service) :
    Steady before after dispatch (before.dispatches dispatch) where
  services := hservices
  service := hservice
  inflight := hinflight
  fresh := by
    intro other hother
    replace hother : before.count ≤ other := hcount ▸ hother
    refine ⟨hother, ?_⟩
    rintro rfl
    exact hcounted other hother
  dispatches := by rw [hdispatches, Function.update_eq_self]
  counted := rfl
  exits := fun _ => rfl
  named := hnamed

theorem afterRead_counted (incoming : IncomingCallContext) (request : RpcEnvelope)
    (accepted : Accepted) (now : Deadline) :
    (afterRead incoming request accepted now).counted = true := by
  unfold afterRead
  split
  · rfl
  split
  · rfl
  split
  · rfl
  dsimp only
  split
  · rfl
  split
  · rfl
  · rfl

/-- The checks of a call refuse it, or it adds one to the count and finds room or none. -/
theorem check_cases (hnext : before.check dispatch = some after) :
    ∃ incoming request, before.dispatches dispatch = .check incoming request ∧
      ((∃ reason, checkRequest before.services request = .error reason ∧
          after = before.goto dispatch (.returned (.error reason))) ∨
        ∃ accepted, checkRequest before.services request = .ok accepted ∧
          ((accepted.entry.options.maxInflight ≤ before.inflight ∧
              after = { before with inflight := before.inflight + 1 }.goto dispatch
                (.leave (.error (overloadedError request)))) ∨
            (before.inflight < accepted.entry.options.maxInflight ∧
              after = { before with inflight := before.inflight + 1 }.goto dispatch
                (.read incoming request accepted)))) := by
  cases hat : before.dispatches dispatch with
  | check incoming request =>
      refine ⟨incoming, request, rfl, ?_⟩
      simp only [DispatchWorld.check, hat] at hnext
      cases hcheck : checkRequest before.services request with
      | error reason =>
          rw [hcheck] at hnext
          cases hnext
          exact Or.inl ⟨reason, rfl, rfl⟩
      | ok accepted =>
          rw [hcheck] at hnext
          dsimp only at hnext
          split at hnext
          case isTrue hfull =>
            cases hnext
            exact Or.inr ⟨accepted, rfl, Or.inl ⟨hfull, rfl⟩⟩
          case isFalse hroom =>
            cases hnext
            exact Or.inr ⟨accepted, rfl, Or.inr ⟨Nat.lt_of_not_le hroom, rfl⟩⟩
  | _ => simp [DispatchWorld.check, hat] at hnext

omit [Infra] in
theorem leave_cases (hnext : before.leave dispatch = some after) :
    (before.dispatches dispatch).exits = true ∧ ∃ pc, pc.counted = false ∧
      (∀ incoming request, pc ≠ .check incoming request) ∧
      after = { before with inflight := before.inflight - 1 }.goto dispatch pc := by
  cases hat : before.dispatches dispatch with
  | leave result =>
      simp only [DispatchWorld.leave, hat] at hnext
      cases hnext
      exact ⟨rfl, .returned result, rfl, by rintro _ _ ⟨⟩, rfl⟩
  | unwind =>
      simp only [DispatchWorld.leave, hat] at hnext
      cases hnext
      exact ⟨rfl, .thrown, rfl, by rintro _ _ ⟨⟩, rfl⟩
  | _ => simp [DispatchWorld.leave, hat] at hnext

/-- Between `fetch_add` and `fetch_sub` no action touches the count. -/
theorem next_steady (hcounted : before.Counted)
    (hnamed : ∀ dispatch incoming request,
      before.dispatches dispatch = .check incoming request →
      request.service = before.service) {step : DispatchStep}
    (hcheck : ∀ dispatch, step ≠ .check dispatch)
    (hleave : ∀ dispatch, step ≠ .leave dispatch)
    (hnext : before.next step = some after) :
    ∃ dispatch pc, Steady before after dispatch pc := by
  cases step with
  | check dispatch => exact absurd rfl (hcheck dispatch)
  | leave dispatch => exact absurd rfl (hleave dispatch)
  | call incoming request =>
      simp only [DispatchWorld.next, DispatchWorld.call] at hnext
      split at hnext
      case isFalse => cases hnext
      case isTrue hservice =>
        cases hnext
        refine ⟨before.count, .check incoming request, rfl, rfl, rfl, ?_, rfl, ?_, ?_, ?_⟩
        · intro other hother
          refine ⟨Nat.le_of_succ_le hother, ?_⟩
          rintro rfl
          exact absurd hother (Nat.not_succ_le_self _)
        · rw [hcounted before.count (Nat.le_refl _)]
          rfl
        · rw [hcounted before.count (Nat.le_refl _)]
          intro hexits
          cases hexits
        · intro _ _ heq
          cases heq
          exact hservice
  | read dispatch now =>
      cases hat : before.dispatches dispatch with
      | read incoming request accepted =>
          simp only [DispatchWorld.next, DispatchWorld.read, hat] at hnext
          cases hnext
          exact ⟨dispatch, _, steady_goto hcounted hat rfl rfl rfl rfl rfl rfl rfl
            (afterRead_counted incoming request accepted now)⟩
      | _ => simp [DispatchWorld.next, DispatchWorld.read, hat] at hnext
  | invoke dispatch outcome =>
      cases hat : before.dispatches dispatch with
      | invoke call =>
          simp only [DispatchWorld.next, DispatchWorld.invoke, hat] at hnext
          cases hnext
          exact ⟨dispatch, _, steady_goto hcounted hat rfl rfl rfl rfl rfl rfl rfl rfl⟩
      | _ => simp [DispatchWorld.next, DispatchWorld.invoke, hat] at hnext
  | admitting dispatch =>
      cases hat : before.dispatches dispatch with
      | admitting call =>
          simp only [DispatchWorld.next, DispatchWorld.admitting, hat] at hnext
          have hgo : ∀ {pc : DispatchPc}, pc.counted = true → Steady before
              ({ before with ingress := (before.ingress.admitRequest call.ordered).2 }.goto
                dispatch pc) dispatch pc :=
            steady_goto hcounted hat rfl rfl rfl rfl rfl rfl rfl
          split at hnext
          · cases hnext
            exact ⟨dispatch, _, hgo rfl⟩
          · split at hnext
            · cases hnext
              exact ⟨dispatch, _, hgo rfl⟩
            · cases hnext
              exact ⟨dispatch, _, hgo rfl⟩
      | _ => simp [DispatchWorld.next, DispatchWorld.admitting, hat] at hnext
  | activate dispatch outcome =>
      cases hat : before.dispatches dispatch with
      | activate call =>
          simp only [DispatchWorld.next, DispatchWorld.activate, hat] at hnext
          split at hnext
          · cases hnext
            exact ⟨dispatch, _, steady_goto hcounted hat rfl rfl rfl rfl rfl rfl rfl rfl⟩
          · cases hnext
            exact ⟨dispatch, _, steady_goto hcounted hat rfl rfl rfl rfl rfl rfl rfl rfl⟩
      | _ => simp [DispatchWorld.next, DispatchWorld.activate, hat] at hnext
  | findMailbox dispatch =>
      cases hat : before.dispatches dispatch with
      | findMailbox call =>
          simp only [DispatchWorld.next, DispatchWorld.findMailbox, hat] at hnext
          split at hnext
          · cases hnext
            exact ⟨dispatch, _, steady_goto hcounted hat rfl rfl rfl rfl rfl rfl rfl rfl⟩
          · cases hnext
            exact ⟨dispatch, _, steady_goto hcounted hat rfl rfl rfl rfl rfl rfl rfl rfl⟩
      | _ => simp [DispatchWorld.next, DispatchWorld.findMailbox, hat] at hnext
  | createWaiter dispatch created =>
      cases hat : before.dispatches dispatch with
      | createWaiter call =>
          simp only [DispatchWorld.next, DispatchWorld.createWaiter, hat] at hnext
          split at hnext
          · cases hnext
            exact ⟨dispatch, _, steady_goto hcounted hat rfl rfl rfl rfl rfl rfl rfl rfl⟩
          · cases hnext
            exact ⟨dispatch, _, steady_goto hcounted hat rfl rfl rfl rfl rfl rfl rfl rfl⟩
      | _ => simp [DispatchWorld.next, DispatchWorld.createWaiter, hat] at hnext
  | enqueue dispatch registration =>
      cases hat : before.dispatches dispatch with
      | enqueue call =>
          simp only [DispatchWorld.next, DispatchWorld.enqueue, hat] at hnext
          split at hnext
          · cases hnext
          · split at hnext
            · cases hnext
              exact ⟨dispatch, _, steady_goto hcounted hat rfl rfl rfl rfl rfl rfl rfl rfl⟩
            · cases hnext
              exact ⟨dispatch, _, steady_goto hcounted hat rfl rfl rfl rfl rfl rfl rfl rfl⟩
            · cases hnext
              exact ⟨dispatch, _, steady_goto hcounted hat rfl rfl rfl rfl rfl rfl rfl rfl⟩
      | _ => simp [DispatchWorld.next, DispatchWorld.enqueue, hat] at hnext
  | failWait dispatch status =>
      cases hat : before.dispatches dispatch with
      | enqueue call =>
          simp only [DispatchWorld.next, DispatchWorld.failWait, hat] at hnext
          split at hnext
          case h_1 _ _ other reason hother _ =>
            cases hnext
            exact ⟨dispatch, _, steady_goto hcounted hat rfl rfl rfl rfl rfl rfl rfl rfl⟩
          case h_2 => cases hnext
      | _ => simp [DispatchWorld.next, DispatchWorld.failWait, hat] at hnext
  | resume dispatch status =>
      cases hat : before.dispatches dispatch with
      | suspended call =>
          simp only [DispatchWorld.next, DispatchWorld.resume, hat] at hnext
          split at hnext
          · cases hnext
            exact ⟨dispatch, _, steady_goto hcounted hat rfl rfl rfl rfl rfl rfl rfl rfl⟩
          · split at hnext
            · cases hnext
              exact ⟨dispatch, _, steady_goto hcounted hat rfl rfl rfl rfl rfl rfl rfl rfl⟩
            · cases hnext
      | _ => simp [DispatchWorld.next, DispatchWorld.resume, hat] at hnext
  | complete dispatch =>
      cases hat : before.dispatches dispatch with
      | complete call outcome =>
          simp only [DispatchWorld.next, DispatchWorld.complete, hat] at hnext
          split at hnext
          · cases hnext
            exact ⟨dispatch, _, steady_goto hcounted hat rfl rfl rfl rfl rfl rfl rfl rfl⟩
          · split at hnext
            · cases hnext
              exact ⟨dispatch, _, steady_goto hcounted hat rfl rfl rfl rfl rfl rfl rfl rfl⟩
            · cases hnext
              exact ⟨dispatch, _, steady_goto hcounted hat rfl rfl rfl rfl rfl rfl rfl rfl⟩
      | _ => simp [DispatchWorld.next, DispatchWorld.complete, hat] at hnext
  | drain key =>
      simp only [DispatchWorld.next, DispatchWorld.drain] at hnext
      split at hnext
      · cases hnext
      · split at hnext
        · cases hnext
        · cases hnext
          exact ⟨0, _, steady_aside hcounted rfl rfl rfl rfl rfl (hnamed 0)⟩
  | endTask key outcome =>
      simp only [DispatchWorld.next, DispatchWorld.endTask] at hnext
      split at hnext
      · cases hnext
      · split at hnext
        · cases hnext
        · split at hnext
          · cases hnext
            exact ⟨0, _, steady_aside hcounted rfl rfl rfl rfl rfl (hnamed 0)⟩
          · cases hnext
            exact ⟨0, _, steady_aside hcounted rfl rfl rfl rfl rfl (hnamed 0)⟩

end DispatchWorld

/-- The checks read the options of the service the request names. -/
theorem checkRequest_entry {services : Table String ServiceEntry} {request : RpcEnvelope}
    {accepted : Accepted} (hcheck : checkRequest services request = .ok accepted) :
    services.lookup request.service = some accepted.entry := by
  unfold checkRequest at hcheck
  split at hcheck
  · cases hcheck
  split at hcheck
  · cases hcheck
  split at hcheck
  · cases hcheck
  split at hcheck
  · cases hcheck
  next entry hentry =>
    split at hcheck
    · cases hcheck
    split at hcheck
    · cases hcheck
    cases hcheck
    exact hentry

/-! ## The count as a gate -/

namespace AdmissionWorld

/-- The gate holds the calls between `fetch_add` and `fetch_sub`, and one it turned away
has nothing left to do but its `fetch_sub`. -/
structure Tracked (world : AdmissionWorld) : Prop where
  counted : world.dispatch.Counted
  named : ∀ dispatch incoming request,
    world.dispatch.dispatches dispatch = .check incoming request →
    request.service = world.dispatch.service
  holds : ∀ dispatch, world.gate.Holds dispatch ↔
    (world.dispatch.dispatches dispatch).counted = true
  exits : ∀ dispatch ∈ world.turned, (world.dispatch.dispatches dispatch).exits = true

variable {world last : AdmissionWorld}

omit [Infra] in
/-- A step that leaves the count alone leaves the gate alone. -/
theorem Tracked.steady (htracked : world.Tracked) {after : DispatchWorld} {dispatch : Nat}
    {pc : DispatchPc} (hsteady : Steady world.dispatch after dispatch pc) :
    AdmissionWorld.Tracked ⟨after, world.inside, world.turned⟩ ∧
      AdmissionWorld.gate ⟨after, world.inside, world.turned⟩ = world.gate := by
  refine ⟨⟨?_, ?_, ?_, ?_⟩, ?_⟩
  · intro other hother
    obtain ⟨hfree, hidle⟩ := hsteady.fresh other hother
    simp only [hsteady.dispatches, Function.update_apply]
    split
    case isTrue heq => exact hidle heq
    case isFalse => exact htracked.counted other hfree
  · intro other incoming request hat
    simp only [hsteady.dispatches, Function.update_apply] at hat
    simp only [hsteady.service]
    split at hat
    case isTrue => exact hsteady.named incoming request hat
    case isFalse => exact htracked.named other incoming request hat
  · intro other
    simp only [hsteady.dispatches, Function.update_apply]
    split
    case isTrue heq =>
      rw [hsteady.counted, ← heq]
      exact htracked.holds other
    case isFalse => exact htracked.holds other
  · intro other hmem
    have hexits := htracked.exits other hmem
    simp only [hsteady.dispatches, Function.update_apply]
    split
    case isTrue heq =>
      subst heq
      rw [hsteady.exits hexits]
      exact hexits
    case isFalse => exact hexits
  · unfold gate limit
    rw [hsteady.services, hsteady.service, hsteady.inflight]

omit [Infra] in
/-- One call moves, and the gate counts it or does not by where it is now. -/
theorem Tracked.goto (htracked : world.Tracked) {middle : DispatchWorld} {dispatch : Nat}
    {pc : DispatchPc} {inside turned : Finset Nat}
    (hservice : middle.service = world.dispatch.service)
    (hcount : middle.count = world.dispatch.count)
    (hdispatches : middle.dispatches = world.dispatch.dispatches)
    (hbusy : world.dispatch.dispatches dispatch ≠ .idle)
    (hpc : ∀ incoming request, pc ≠ .check incoming request)
    (hself : (dispatch ∈ inside ∨ dispatch ∈ turned) ↔ pc.counted = true)
    (hothers : ∀ other, other ≠ dispatch →
      (other ∈ inside ↔ other ∈ world.inside) ∧ (other ∈ turned ↔ other ∈ world.turned))
    (hexits : dispatch ∈ turned → pc.exits = true) :
    AdmissionWorld.Tracked ⟨middle.goto dispatch pc, inside, turned⟩ := by
  have hpcs : ∀ other, (middle.goto dispatch pc).dispatches other =
      if other = dispatch then pc else world.dispatch.dispatches other := by
    intro other
    rw [← hdispatches]
    exact Function.update_apply _ _ _ _
  refine ⟨?_, ?_, ?_, ?_⟩
  · intro other hother
    have hidle := htracked.counted other (hcount ▸ hother)
    rw [hpcs, if_neg, hidle]
    rintro rfl
    exact hbusy hidle
  · intro other incoming request hat
    rw [hpcs] at hat
    split at hat
    case isTrue => exact absurd hat (hpc incoming request)
    case isFalse => exact (htracked.named other incoming request hat).trans hservice.symm
  · intro other
    rw [hpcs]
    split
    case isTrue heq =>
      subst heq
      exact hself
    case isFalse hne =>
      obtain ⟨hinside, hturned⟩ := hothers other hne
      exact (or_congr hinside hturned).trans (htracked.holds other)
  · intro other hmem
    rw [hpcs]
    split
    case isTrue heq =>
      subst heq
      exact hexits hmem
    case isFalse hne => exact htracked.exits other ((hothers other hne).2.mp hmem)

/-- A call leaves the gate alone when its checks refuse it, and arrives at it when they
do not. -/
theorem Tracked.check (htracked : world.Tracked) {dispatch : Nat}
    (hnext : world.next (.dispatch (.check dispatch)) = some last) :
    last.Tracked ∧ ∃ incoming request,
      world.dispatch.dispatches dispatch = .check incoming request ∧
      ((∃ reason, checkRequest world.dispatch.services request = .error reason ∧
          last.gate = world.gate) ∨
        ∃ accepted, checkRequest world.dispatch.services request = .ok accepted ∧
          accepted.entry.options.maxInflight = world.limit ∧
          world.gate.next (.arrive dispatch) = some last.gate) := by
  obtain ⟨after, hafter, rfl⟩ := Option.map_eq_some_iff.mp hnext
  obtain ⟨incoming, request, hat, hcases⟩ := DispatchWorld.check_cases hafter
  have hbusy : world.dispatch.dispatches dispatch ≠ .idle := by
    rw [hat]
    exact nofun
  have houtside : ¬world.gate.Holds dispatch := by
    rw [htracked.holds, hat]
    exact Bool.false_ne_true
  obtain ⟨hinside, hturned⟩ := not_or.mp houtside
  obtain ⟨reason, hcheck, rfl⟩ | ⟨accepted, hcheck, hcases⟩ := hcases
  · have hrecord : world.record (.check dispatch)
        (world.dispatch.goto dispatch (.returned (.error reason))) =
        ⟨world.dispatch.goto dispatch (.returned (.error reason)), world.inside,
          world.turned⟩ := by
      simp only [record, DispatchWorld.goto_self]
    rw [hrecord]
    refine ⟨?_, incoming, request, hat, Or.inl ⟨reason, hcheck, rfl⟩⟩
    refine htracked.goto rfl rfl rfl hbusy (by rintro _ _ ⟨⟩) ?_ (fun _ _ => ⟨Iff.rfl, Iff.rfl⟩)
      (fun hmem => absurd hmem hturned)
    exact ⟨fun hmem => absurd hmem houtside, Bool.false_ne_true.elim⟩
  have hlimit : accepted.entry.options.maxInflight = world.limit := by
    have hentry := checkRequest_entry hcheck
    rw [htracked.named dispatch incoming request hat] at hentry
    unfold limit
    rw [hentry]
    rfl
  obtain ⟨hfull, rfl⟩ | ⟨hroom, rfl⟩ := hcases
  · have hrecord : ∀ middle : DispatchWorld, world.record (.check dispatch)
        (middle.goto dispatch (.leave (.error (overloadedError request)))) =
        ⟨middle.goto dispatch (.leave (.error (overloadedError request))), world.inside,
          insert dispatch world.turned⟩ := by
      intro middle
      simp only [record, DispatchWorld.goto_self]
    rw [hrecord]
    refine ⟨?_, incoming, request, hat, Or.inr ⟨accepted, hcheck, hlimit, ?_⟩⟩
    · refine htracked.goto rfl rfl rfl hbusy (by rintro _ _ ⟨⟩) ?_ ?_ (fun _ => rfl)
      · exact ⟨fun _ => rfl, fun _ => Or.inr (Finset.mem_insert_self _ _)⟩
      · intro other hne
        exact ⟨Iff.rfl, by rw [Finset.mem_insert, or_iff_right hne]⟩
    · rw [hlimit] at hfull
      simp only [Gate.next, if_neg houtside]
      exact if_pos hfull
  · have hrecord : ∀ middle : DispatchWorld, world.record (.check dispatch)
        (middle.goto dispatch (.read incoming request accepted)) =
        ⟨middle.goto dispatch (.read incoming request accepted),
          insert dispatch world.inside, world.turned⟩ := by
      intro middle
      simp only [record, DispatchWorld.goto_self]
    rw [hrecord]
    refine ⟨?_, incoming, request, hat, Or.inr ⟨accepted, hcheck, hlimit, ?_⟩⟩
    · refine htracked.goto rfl rfl rfl hbusy (by rintro _ _ ⟨⟩) ?_ ?_ (fun hmem => absurd hmem hturned)
      · exact ⟨fun _ => rfl, fun _ => Or.inl (Finset.mem_insert_self _ _)⟩
      · intro other hne
        exact ⟨by rw [Finset.mem_insert, or_iff_right hne], Iff.rfl⟩
    · rw [hlimit] at hroom
      simp only [Gate.next, if_neg houtside]
      exact if_neg (Nat.not_le_of_lt hroom)

/-- A call about to leave is counted, and the gate lets it go from the side it stood on. -/
theorem Tracked.leave (htracked : world.Tracked) (hsound : world.gate.Sound) {dispatch : Nat}
    (hnext : world.next (.dispatch (.leave dispatch)) = some last) :
    last.Tracked ∧ world.gate.Holds dispatch ∧
      (last.dispatch.dispatches dispatch).counted = false ∧
      last.dispatch.inflight = world.dispatch.inflight - 1 ∧
      ∃ move, world.gate.next move = some last.gate := by
  obtain ⟨after, hafter, rfl⟩ := Option.map_eq_some_iff.mp hnext
  obtain ⟨hexits, pc, hpc, hchecks, rfl⟩ := DispatchWorld.leave_cases hafter
  have hbusy : world.dispatch.dispatches dispatch ≠ .idle := by
    intro hidle
    rw [hidle] at hexits
    cases hexits
  have hholds : world.gate.Holds dispatch := by
    rw [htracked.holds]
    generalize world.dispatch.dispatches dispatch = place at hexits
    cases place with
    | leave _ => rfl
    | unwind => rfl
    | _ => cases hexits
  refine ⟨?_, hholds, ?_, rfl, ?_⟩
  · refine htracked.goto rfl rfl rfl hbusy hchecks ?_ ?_ ?_
    · rw [hpc]
      simp only [Finset.mem_erase, ne_eq, not_true_eq_false, false_and, or_self,
        Bool.false_eq_true]
    · intro other hne
      simp only [Finset.mem_erase, ne_eq, hne, not_false_eq_true, true_and, and_self]
    · exact fun hmem => absurd hmem (Finset.notMem_erase _ _)
  · refine (congrArg DispatchPc.counted ?_).trans hpc
    exact DispatchWorld.goto_self _ _ _
  · obtain hinside | hturned := hholds
    · have hfree : dispatch ∉ world.turned := Finset.disjoint_left.mp hsound.apart hinside
      refine ⟨.leave dispatch, ?_⟩
      simp only [Gate.next, if_pos hinside]
      simp only [gate, record, Finset.erase_eq_of_notMem hfree]
      rfl
    · have hfree : dispatch ∉ world.inside := Finset.disjoint_right.mp hsound.apart hturned
      refine ⟨.takeBack dispatch, ?_⟩
      simp only [Gate.next, if_pos hturned]
      simp only [gate, record, Finset.erase_eq_of_notMem hfree]
      rfl

omit [Infra] in
/-- An exception leaves the call counted. -/
theorem Tracked.throw (htracked : world.Tracked) {dispatch : Nat}
    (hcounted : (world.dispatch.dispatches dispatch).counted = true) :
    AdmissionWorld.Tracked
      { world with dispatch := world.dispatch.goto dispatch .unwind } := by
  have hbusy : world.dispatch.dispatches dispatch ≠ .idle := by
    intro hidle
    rw [hidle] at hcounted
    cases hcounted
  refine htracked.goto rfl rfl rfl hbusy (by rintro _ _ ⟨⟩) ?_ (fun _ _ => ⟨Iff.rfl, Iff.rfl⟩)
    (fun _ => rfl)
  exact ⟨fun _ => rfl, fun _ => (htracked.holds dispatch).mpr hcounted⟩

theorem Tracked.next (htracked : world.Tracked) (hsound : world.gate.Sound)
    {step : AdmissionStep} (hnext : world.next step = some last) :
    last.Tracked ∧ (last.gate = world.gate ∨ ∃ move, world.gate.next move = some last.gate) := by
  cases step with
  | throw dispatch =>
      simp only [AdmissionWorld.next] at hnext
      split at hnext
      case isFalse => cases hnext
      case isTrue hthrows =>
        cases hnext
        exact ⟨htracked.throw hthrows.1, Or.inl rfl⟩
  | dispatch step =>
      by_cases hcheck : ∃ dispatch, step = .check dispatch
      · obtain ⟨dispatch, rfl⟩ := hcheck
        obtain ⟨hlast, -, -, -, ⟨-, -, hsame⟩ | ⟨-, -, -, hmove⟩⟩ := htracked.check hnext
        · exact ⟨hlast, Or.inl hsame⟩
        · exact ⟨hlast, Or.inr ⟨_, hmove⟩⟩
      by_cases hleave : ∃ dispatch, step = .leave dispatch
      · obtain ⟨dispatch, rfl⟩ := hleave
        obtain ⟨hlast, -, -, -, hmove⟩ := htracked.leave hsound hnext
        exact ⟨hlast, Or.inr hmove⟩
      obtain ⟨after, hafter, rfl⟩ := Option.map_eq_some_iff.mp hnext
      have hrecord : world.record step after = ⟨after, world.inside, world.turned⟩ := by
        cases step with
        | check dispatch => exact absurd ⟨dispatch, rfl⟩ hcheck
        | leave dispatch => exact absurd ⟨dispatch, rfl⟩ hleave
        | _ => rfl
      rw [hrecord]
      obtain ⟨dispatch, pc, hsteady⟩ := DispatchWorld.next_steady htracked.counted
        htracked.named (fun dispatch heq => hcheck ⟨dispatch, heq⟩)
        (fun dispatch heq => hleave ⟨dispatch, heq⟩) hafter
      obtain ⟨hlast, hsame⟩ := htracked.steady hsteady
      exact ⟨hlast, Or.inl hsame⟩

end AdmissionWorld

/-- A run of calls is a run of the gate. -/
theorem reachable_tracked {world : AdmissionWorld}
    (hreach : admissionMachine.Reachable world) :
    world.Tracked ∧ Gate.machine.Reachable world.gate := by
  refine hreach.induct (motive := fun world => world.Tracked ∧
    Gate.machine.Reachable world.gate) ?_ ?_
  · rintro world ⟨⟨-, hinflight, -, -, -, hidle⟩, hinside, hturned⟩
    refine ⟨⟨fun dispatch _ => hidle dispatch, ?_, ?_, ?_⟩, .start ⟨hinflight, hinside, hturned⟩⟩
    · intro dispatch incoming request hat
      rw [hidle] at hat
      cases hat
    · intro dispatch
      rw [hidle]
      simp only [Gate.Holds, AdmissionWorld.gate, hinside, hturned, Finset.notMem_empty,
        or_self, DispatchPc.counted, Bool.false_eq_true]
    · intro dispatch hmem
      rw [hturned] at hmem
      exact absurd hmem (Finset.notMem_empty _)
  · rintro world step last - ⟨htracked, hgate⟩ - hnext
    obtain ⟨hlast, hsame | ⟨move, hmove⟩⟩ :=
      htracked.next (Gate.sound_of_reachable hgate) hnext
    · exact ⟨hlast, hsame ▸ hgate⟩
    · exact ⟨hlast, hgate.step trivial hmove⟩

/-! ## The limit -/

/-- What the count is worth in one state: those inside are within the limit, the counter is
those inside and those turned away, each between its `fetch_add` and its `fetch_sub`. -/
structure AdmissionWorld.Balanced (world : AdmissionWorld) : Prop where
  within : world.inside.card ≤ world.limit
  balance : world.dispatch.inflight = world.inside.card + world.turned.card
  apart : Disjoint world.inside world.turned
  members : ∀ dispatch, (dispatch ∈ world.inside ∨ dispatch ∈ world.turned) ↔
    (world.dispatch.dispatches dispatch).counted = true
  positive : ∀ dispatch, (world.dispatch.dispatches dispatch).counted = true →
    0 < world.dispatch.inflight

/-- In every interleaving those inside stay within `max_inflight`, and the counter is those
inside with those turned away that have not taken their count back.  A call whose checks
pass is let in exactly if these are fewer than `max_inflight`; a call that may throw can do
so at any time; and returned or unwound, it takes back exactly its own count. -/
theorem admission_counted {world : AdmissionWorld}
    (hreach : admissionMachine.Reachable world) :
    world.Balanced ∧
    (∀ dispatch incoming request accepted last,
      world.dispatch.dispatches dispatch = .check incoming request →
      checkRequest world.dispatch.services request = .ok accepted →
      world.next (.dispatch (.check dispatch)) = some last →
      last.dispatch.inflight = world.dispatch.inflight + 1 ∧
      (dispatch ∈ last.inside ↔
        world.inside.card + world.turned.card < accepted.entry.options.maxInflight)) ∧
    (∀ dispatch, (world.dispatch.dispatches dispatch).counted = true →
      (world.dispatch.dispatches dispatch).exits = false →
      ∃ last, world.next (.throw dispatch) = some last ∧
        last.dispatch.dispatches dispatch = .unwind ∧
        last.dispatch.inflight = world.dispatch.inflight) ∧
    (∀ dispatch, (world.dispatch.dispatches dispatch).exits = true →
      ∃ last, world.next (.dispatch (.leave dispatch)) = some last ∧
        last.dispatch.inflight + 1 = world.dispatch.inflight ∧
        (last.dispatch.dispatches dispatch).counted = false) := by
  obtain ⟨htracked, hgate⟩ := reachable_tracked hreach
  have hsound := Gate.sound_of_reachable hgate
  have hpositive : ∀ dispatch, (world.dispatch.dispatches dispatch).counted = true →
      0 < world.dispatch.inflight :=
    fun dispatch hcounted => hsound.pos ((htracked.holds dispatch).mpr hcounted)
  refine ⟨⟨hsound.bounded, hsound.counted, hsound.apart, htracked.holds, hpositive⟩,
    ?_, ?_, ?_⟩
  · intro dispatch incoming request accepted last hat haccepted hnext
    obtain ⟨-, _, _, hsame, hcases⟩ := htracked.check hnext
    cases hat.symm.trans hsame
    obtain ⟨reason, hrefused, -⟩ | ⟨found, hfound, hlimit, hmove⟩ := hcases
    · rw [haccepted] at hrefused
      cases hrefused
    cases haccepted.symm.trans hfound
    refine ⟨?_, ?_⟩
    · obtain ⟨-, ⟨-, hlast⟩ | ⟨-, hlast⟩⟩ := Gate.arrive_eq hmove
      · exact congrArg Gate.counter hlast
      · exact congrArg Gate.counter hlast
    · rw [hlimit]
      exact hsound.lets_in_iff hmove
  · intro dispatch hcounted hstays
    exact ⟨_, if_pos ⟨hcounted, hstays⟩, DispatchWorld.goto_self _ _ _, rfl⟩
  · intro dispatch hexits
    obtain ⟨after, hafter⟩ : ∃ after, world.dispatch.leave dispatch = some after := by
      cases hat : world.dispatch.dispatches dispatch with
      | leave result => exact ⟨_, by rw [DispatchWorld.leave, hat]⟩
      | unwind => exact ⟨_, by rw [DispatchWorld.leave, hat]⟩
      | _ =>
          rw [hat] at hexits
          cases hexits
    have hnext : world.next (.dispatch (.leave dispatch)) =
        some (world.record (.leave dispatch) after) :=
      congrArg (Option.map (world.record (.leave dispatch))) hafter
    obtain ⟨-, hholds, hgone, hinflight, -⟩ := htracked.leave hsound hnext
    refine ⟨_, hnext, ?_, hgone⟩
    rw [hinflight]
    exact Nat.sub_add_cancel (hsound.pos hholds)

end

/-- The service of `sampleDispatch` with room for one call. -/
def narrowDispatch [Infra] : DispatchWorld :=
  { sampleDispatch with
    services := (∅ : Table String ServiceEntry).insert "chat"
      { options := ⟨1, 4, true⟩
        table := [⟨"say", "in", "out", true, fun _ => .ok "room"⟩]
        ingressBound := true } }

theorem narrowDispatch_start [Infra] :
    admissionMachine.Reachable ⟨narrowDispatch, ∅, ∅⟩ :=
  .start ⟨sampleDispatch_init, rfl, rfl⟩

/-- A call of the stream, made and checked. -/
def sampleArrive (dispatch : Nat) (sequence : String) : List AdmissionStep :=
  ((sampleAdmit dispatch sequence).take 2).map .dispatch

/-- One call is inside and the other has been turned away. -/
theorem admission_counted_sample :
    letI := permissiveInfra
    ∃ world : AdmissionWorld, world.inside = {0} ∧ world.turned = {1} ∧
      world.dispatch.inflight = 2 ∧ world.Balanced := by
  let _ := permissiveInfra
  obtain ⟨world, hworld, htest⟩ := narrowDispatch_start.exec_any
    (fun _ _ => true) (fun _ _ _ => trivial)
    (sampleArrive 0 "1" ++ sampleArrive 1 "2")
    (fun world => world.inside = {0} ∧ world.turned = {1} ∧ world.dispatch.inflight = 2)
    (by decide)
  obtain ⟨hinside, hturned, hinflight⟩ := of_decide_eq_true htest
  exact ⟨world, hinside, hturned, hinflight, (admission_counted hworld).1⟩

/-- The call inside leaves before the one turned away has taken its count back.  The next
call finds nobody inside and is turned away too. -/
theorem empty_gate_turns_away :
    letI := permissiveInfra
    ∃ world, admissionMachine.Reachable world ∧ world.inside = ∅ ∧ world.limit = 1 ∧
      ∃ incoming request accepted last,
        world.dispatch.dispatches 2 = .check incoming request ∧
        checkRequest world.dispatch.services request = .ok accepted ∧
        world.next (.dispatch (.check 2)) = some last ∧ 2 ∉ last.inside := by
  let _ := permissiveInfra
  obtain ⟨world, hworld, htest⟩ := narrowDispatch_start.exec_any
    (fun _ _ => true) (fun _ _ _ => trivial)
    (sampleArrive 0 "1" ++ sampleArrive 1 "2" ++
      [.dispatch (.read 0 (10 ^ 9)), .dispatch (.leave 0)] ++ (sampleArrive 2 "3").take 1)
    (fun world => world.inside = ∅ ∧ world.limit = 1 ∧
      ∃ last ∈ world.next (.dispatch (.check 2)),
        last.dispatch.inflight = world.dispatch.inflight + 1 ∧ 2 ∉ last.inside)
    (by decide)
  obtain ⟨hinside, hlimit, last, hnext, hinflight, hturned⟩ := of_decide_eq_true htest
  obtain ⟨-, incoming, request, hat, ⟨_, -, hsame⟩ | ⟨accepted, haccepted, -⟩⟩ :=
    (reachable_tracked hworld).1.check hnext
  · have hcounter := congrArg Gate.counter hsame
    exact absurd (hinflight.symm.trans hcounter) (Nat.succ_ne_self _)
  · exact ⟨world, hworld, hinside, hlimit, incoming, request, accepted, last, hat, haccepted,
      hnext, hturned⟩

end BbtFramework.Inbound
