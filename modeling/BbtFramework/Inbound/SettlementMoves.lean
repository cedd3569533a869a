import BbtFramework.Inbound.Dispatch

/-!
# The positions of a call

A call of `Dispatch` goes through its positions one at a time, and each step of the machine
moves one call, installs a grant or starts a task.  Beside the calls the run keeps a history
the code does not have: which calls were admitted and in which session of their stream, and
which calls of `Complete` were made.
-/

namespace BbtFramework.Inbound

open BbtFramework.Library
open BbtFramework.Ordered
open BbtFramework.Rpc
open OrderedIngress

/-- A call admitted for execution; the session is the number of grants installed for its
stream by then. -/
structure Admitted where
  call : DispatchCall
  session : Nat

/-- One call of `Complete`, with the outcome it was made for and its result. -/
structure Settled where
  dispatch : Nat
  ticket : Admission
  outcome : Except Error Bytes
  result : Except Error Unit

structure SettleWorld where
  calls : DispatchWorld
  sessions : StreamKey → Nat
  admitted : Nat → Option Admitted
  settled : List Settled

inductive SettleStep where
  | dispatch (step : DispatchStep)
  | grant (grant : OrderedGrant)

def admittedBy (after : DispatchWorld) : DispatchStep → Option (Nat × DispatchCall)
  | .admitting dispatch =>
      match after.dispatches dispatch with
      | .activate call => some (dispatch, call)
      | _ => none
  | _ => none

namespace SettleWorld

/-- The calls of `Complete` one dispatch made. -/
def settledOf (world : SettleWorld) (dispatch : Nat) : List Settled :=
  world.settled.filter (fun settled => settled.dispatch = dispatch)

section

variable [Infra]

/-- The call of `Complete` that the step makes. -/
def settledBy (before : DispatchWorld) : DispatchStep → Option Settled
  | .complete dispatch =>
      match before.dispatches dispatch with
      | .complete call outcome => call.ticket.map fun ticket =>
          ⟨dispatch, ticket, outcome, (before.ingress.complete ticket (terminalOf outcome)).1⟩
      | _ => none
  | _ => none

def advance (world : SettleWorld) (step : DispatchStep) (after : DispatchWorld) :
    SettleWorld where
  calls := after
  sessions := world.sessions
  admitted :=
    match admittedBy after step with
    | some (dispatch, call) => Function.update world.admitted dispatch
        (some ⟨call, world.sessions call.ordered.streamKey⟩)
    | none => world.admitted
  settled := world.settled ++ (settledBy world.calls step).toList

def afterGrant (world : SettleWorld) (grant : OrderedGrant) : SettleWorld :=
  let after := (world.calls.ingress.grantStream grant).2
  { world with
    calls := { world.calls with ingress := after }
    sessions :=
      if grant ∈ after.grants ∧ grant ∉ world.calls.ingress.grants then
        Function.update world.sessions grant.streamKey (world.sessions grant.streamKey + 1)
      else world.sessions }

def next (world : SettleWorld) : SettleStep → Option SettleWorld
  | .dispatch step => (world.calls.next step).map (world.advance step)
  | .grant grant => some (world.afterGrant grant)

end

end SettleWorld

section

variable [Infra]

def settleMachine : Machine SettleWorld SettleStep where
  init world := dispatchMachine.init world.calls ∧ (∀ key, world.sessions key = 0) ∧
    (∀ dispatch, world.admitted dispatch = none) ∧ world.settled = []
  next := SettleWorld.next

end

/-- The call is one of the service and has passed its checks. -/
def DispatchCall.Genuine [Infra] (world : DispatchWorld) (call : DispatchCall) : Prop :=
  call.request.service = world.service ∧
    checkRequest world.services call.request = .ok call.accepted

/-- And the reading of its deadline and key has led it to its admission. -/
def DispatchCall.Admissible [Infra] (world : DispatchWorld) (call : DispatchCall) : Prop :=
  call.Genuine world ∧
    ∃ now, DispatchWorld.afterRead call.incoming call.request call.accepted now =
      .admitting { call with ticket := none }

namespace DispatchPc

def early : DispatchPc → Bool
  | .idle => true
  | .check _ _ => true
  | .read _ _ _ => true
  | .invoke _ => true
  | .admitting _ => true
  | _ => false

/-- Between the admission and the answer. -/
def carried : DispatchPc → Option DispatchCall
  | .activate call => some call
  | .findMailbox call => some call
  | .createWaiter call => some call
  | .enqueue call => some call
  | .suspended call => some call
  | .complete call _ => some call
  | _ => none

def answer : DispatchPc → Option (Except Error RpcEnvelope)
  | .leave result => some result
  | .returned result => some result
  | _ => none

/-- The facts of a call come from its checks. -/
def Genuine [Infra] (world : DispatchWorld) : DispatchPc → Prop
  | .check _ request => request.service = world.service
  | .read _ request accepted => request.service = world.service ∧
      checkRequest world.services request = .ok accepted
  | .invoke call => call.Genuine world
  | .admitting call => call.Admissible world
  | pc => ∀ call, pc.carried = some call → call.Genuine world

end DispatchPc

/-- The moves that neither admit a call nor settle it. -/
inductive Passes : DispatchPc → DispatchPc → Prop where
  | early {before after : DispatchPc} (hbefore : before.early = true)
      (hafter : after.early = true) : Passes before after
  | begins {before after : DispatchPc} {call : DispatchCall} (hbefore : before.early = true)
      (hafter : after.carried = some call) (hticket : call.ticket = none) :
      Passes before after
  | refused {before after : DispatchPc} (hbefore : before.early = true)
      (hafter : after.answer.isSome = true) : Passes before after
  | carries {before after : DispatchPc} {call : DispatchCall}
      (hbefore : before.carried = some call) (hafter : after.carried = some call) :
      Passes before after
  | unordered {before after : DispatchPc} {call : DispatchCall}
      (hbefore : before.carried = some call) (hticket : call.ticket = none)
      (hafter : after.answer.isSome = true) : Passes before after
  | unwinds {before after : DispatchPc} (hbefore : before.answer = none)
      (hearly : after.early = false) (hcarried : after.carried = none)
      (hanswer : after.answer = none) : Passes before after
  | answers {before after : DispatchPc} {result : Except Error RpcEnvelope}
      (hbefore : before.answer = some result) (hafter : after.answer = some result) :
      Passes before after

section

variable [Infra]

structure Moves (before after : DispatchWorld) (dispatch : Nat) (pc : DispatchPc) :
    Prop where
  ingress : after.ingress = before.ingress
  services : after.services = before.services
  service : after.service = before.service
  fresh : ∀ other, after.count ≤ other →
    before.count ≤ other ∧ (other = dispatch → pc = .idle)
  dispatches : after.dispatches = Function.update before.dispatches dispatch pc
  passes : Passes (before.dispatches dispatch) pc
  genuine : (before.dispatches dispatch).Genuine before → pc.Genuine before

/-- One call moved, whatever the ingress did. -/
structure Shifts (before after : DispatchWorld) (dispatch : Nat) (pc : DispatchPc) : Prop where
  fresh : ∀ other, after.count ≤ other →
    before.count ≤ other ∧ (other = dispatch → pc = .idle)
  dispatches : after.dispatches = Function.update before.dispatches dispatch pc
  passes : Passes (before.dispatches dispatch) pc

theorem Moves.shifts {before after : DispatchWorld} {dispatch : Nat} {pc : DispatchPc}
    (hmoves : Moves before after dispatch pc) : Shifts before after dispatch pc :=
  ⟨hmoves.fresh, hmoves.dispatches, hmoves.passes⟩

namespace DispatchWorld

variable {before after : DispatchWorld}

/-- Positions that are not idle belong to calls that were made. -/
def Counted (world : DispatchWorld) : Prop :=
  ∀ dispatch, world.count ≤ dispatch → world.dispatches dispatch = .idle

omit [Infra] in
theorem goto_self (world : DispatchWorld) (dispatch : Nat) (pc : DispatchPc) :
    (world.goto dispatch pc).dispatches dispatch = pc :=
  Function.update_self _ _ _

omit [Infra] in
theorem goto_of_ne {world : DispatchWorld} {dispatch other : Nat} (pc : DispatchPc)
    (hne : other ≠ dispatch) : (world.goto dispatch pc).dispatches other = world.dispatches other :=
  Function.update_of_ne hne _ _

theorem moves_goto (hcounted : before.Counted) {dispatch : Nat} {pc : DispatchPc}
    (hbusy : before.dispatches dispatch ≠ .idle) (hingress : after.ingress = before.ingress)
    (hservices : after.services = before.services) (hservice : after.service = before.service)
    (hcount : after.count = before.count)
    (hdispatches : after.dispatches = before.dispatches)
    (hpasses : Passes (before.dispatches dispatch) pc)
    (hgenuine : (before.dispatches dispatch).Genuine before → pc.Genuine before) :
    Moves before (after.goto dispatch pc) dispatch pc := by
  refine ⟨hingress, hservices, hservice, ?_, ?_, hpasses, hgenuine⟩
  · intro other hother
    replace hother : before.count ≤ other := hcount ▸ hother
    refine ⟨hother, ?_⟩
    rintro rfl
    exact absurd (hcounted other hother) hbusy
  · change Function.update after.dispatches dispatch pc = _
    rw [hdispatches]

/-- No call moves. -/
theorem moves_aside (hcounted : before.Counted) (hingress : after.ingress = before.ingress)
    (hservices : after.services = before.services) (hservice : after.service = before.service)
    (hcount : after.count = before.count)
    (hdispatches : after.dispatches = before.dispatches) :
    Moves before after before.count .idle := by
  have hidle := hcounted before.count (Nat.le_refl _)
  refine ⟨hingress, hservices, hservice, ?_, ?_, ?_, fun _ => ?_⟩
  · intro other hother
    exact ⟨hcount ▸ hother, fun _ => rfl⟩
  · rw [hdispatches, ← hidle, Function.update_eq_self]
  · rw [hidle]
    exact .early rfl rfl
  · intro call hcall
    cases hcall

theorem genuine_of_carried {pc : DispatchPc} {call : DispatchCall}
    (hcarried : pc.carried = some call) : pc.Genuine before ↔ call.Genuine before := by
  cases pc with
  | activate found =>
      cases hcarried
      exact ⟨fun hall => hall _ rfl, fun hcall other hother => by cases hother; exact hcall⟩
  | findMailbox found =>
      cases hcarried
      exact ⟨fun hall => hall _ rfl, fun hcall other hother => by cases hother; exact hcall⟩
  | createWaiter found =>
      cases hcarried
      exact ⟨fun hall => hall _ rfl, fun hcall other hother => by cases hother; exact hcall⟩
  | enqueue found =>
      cases hcarried
      exact ⟨fun hall => hall _ rfl, fun hcall other hother => by cases hother; exact hcall⟩
  | suspended found =>
      cases hcarried
      exact ⟨fun hall => hall _ rfl, fun hcall other hother => by cases hother; exact hcall⟩
  | complete found outcome =>
      cases hcarried
      exact ⟨fun hall => hall _ rfl, fun hcall other hother => by cases hother; exact hcall⟩
  | _ => cases hcarried

/-- A call that carries its admission, or none, from one position to another. -/
theorem moves_carry (hcounted : before.Counted) {dispatch : Nat} {pc : DispatchPc}
    {call : DispatchCall} (hat : (before.dispatches dispatch).carried = some call)
    (hcarried : pc.carried = some call) (hingress : after.ingress = before.ingress)
    (hservices : after.services = before.services) (hservice : after.service = before.service)
    (hcount : after.count = before.count)
    (hdispatches : after.dispatches = before.dispatches) :
    Moves before (after.goto dispatch pc) dispatch pc := by
  refine moves_goto hcounted ?_ hingress hservices hservice hcount hdispatches
    (.carries hat hcarried) ?_
  · intro hidle
    rw [hidle] at hat
    cases hat
  · rw [genuine_of_carried hat, genuine_of_carried hcarried]
    exact id

/-! ## The moves -/

theorem call_moves (hcounted : before.Counted) {incoming : IncomingCallContext}
    {request : RpcEnvelope} (hnext : before.call incoming request = some after) :
    Moves before after before.count (.check incoming request) := by
  unfold DispatchWorld.call at hnext
  split at hnext
  case isFalse => cases hnext
  case isTrue hservice =>
    cases hnext
    refine ⟨rfl, rfl, rfl, ?_, rfl, ?_, fun _ => hservice⟩
    · intro other hother
      refine ⟨Nat.le_of_succ_le hother, ?_⟩
      rintro rfl
      exact absurd hother (Nat.not_succ_le_self _)
    · rw [hcounted before.count (Nat.le_refl _)]
      exact .early rfl rfl

theorem check_moves (hcounted : before.Counted) {dispatch : Nat}
    (hnext : before.check dispatch = some after) :
    ∃ pc, Moves before after dispatch pc := by
  cases hat : before.dispatches dispatch with
  | check incoming request =>
      have hbusy : before.dispatches dispatch ≠ .idle := by simp [hat]
      simp only [DispatchWorld.check, hat] at hnext
      split at hnext
      · cases hnext
        refine ⟨_, moves_goto hcounted hbusy rfl rfl rfl rfl rfl ?_ ?_⟩
        · rw [hat]
          exact .refused rfl rfl
        · intro _ call hcall
          cases hcall
      · next accepted haccepted =>
          split at hnext
          · cases hnext
            refine ⟨_, moves_goto hcounted hbusy rfl rfl rfl rfl rfl ?_ ?_⟩
            · rw [hat]
              exact .refused rfl rfl
            · intro _ call hcall
              cases hcall
          · cases hnext
            refine ⟨_, moves_goto hcounted hbusy rfl rfl rfl rfl rfl ?_ ?_⟩
            · rw [hat]
              exact .early rfl rfl
            · rw [hat]
              exact fun hservice => ⟨hservice, haccepted⟩
  | _ => simp [DispatchWorld.check, hat] at hnext

theorem afterRead_cases (incoming : IncomingCallContext) (request : RpcEnvelope)
    (accepted : Accepted) (now : Deadline) :
    (∃ result, afterRead incoming request accepted now = .leave result) ∨
      ∃ key, afterRead incoming request accepted now =
          .invoke ⟨incoming, request, accepted, key, none⟩ ∨
        afterRead incoming request accepted now =
          .activate ⟨incoming, request, accepted, key, none⟩ ∨
        afterRead incoming request accepted now =
          .admitting ⟨incoming, request, accepted, key, none⟩ := by
  unfold afterRead
  split
  · exact Or.inl ⟨_, rfl⟩
  · split
    · exact Or.inr ⟨"", Or.inl rfl⟩
    · split
      · exact Or.inl ⟨_, rfl⟩
      · next key _ =>
          dsimp only
          split
          · exact Or.inr ⟨key, Or.inr (Or.inl rfl)⟩
          · split
            · exact Or.inl ⟨_, rfl⟩
            · exact Or.inr ⟨key, Or.inr (Or.inr rfl)⟩

theorem read_moves (hcounted : before.Counted) {dispatch : Nat} {now : Deadline}
    (hnext : before.read dispatch now = some after) :
    ∃ pc, Moves before after dispatch pc := by
  cases hat : before.dispatches dispatch with
  | read incoming request accepted =>
      have hbusy : before.dispatches dispatch ≠ .idle := by simp [hat]
      simp only [DispatchWorld.read, hat] at hnext
      obtain ⟨result, hafter⟩ | ⟨key, hafter | hafter | hafter⟩ :=
        afterRead_cases incoming request accepted now
      · rw [hafter] at hnext
        cases hnext
        refine ⟨_, moves_goto hcounted hbusy rfl rfl rfl rfl rfl ?_ ?_⟩
        · rw [hat]
          exact .refused rfl rfl
        · intro _ call hcall
          cases hcall
      · rw [hafter] at hnext
        cases hnext
        refine ⟨_, moves_goto hcounted hbusy rfl rfl rfl rfl rfl ?_ ?_⟩
        · rw [hat]
          exact .early rfl rfl
        · rw [hat]
          exact id
      · rw [hafter] at hnext
        cases hnext
        refine ⟨_, moves_goto hcounted hbusy rfl rfl rfl rfl rfl ?_ ?_⟩
        · rw [hat]
          exact .begins rfl rfl rfl
        · rw [hat]
          intro hgenuine call hcall
          cases hcall
          exact hgenuine
      · rw [hafter] at hnext
        cases hnext
        refine ⟨_, moves_goto hcounted hbusy rfl rfl rfl rfl rfl ?_ ?_⟩
        · rw [hat]
          exact .early rfl rfl
        · rw [hat]
          exact fun hgenuine => ⟨hgenuine, now, hafter⟩
  | _ => simp [DispatchWorld.read, hat] at hnext

omit [Infra] in
theorem invoke_eq {dispatch : Nat} {outcome : Except Error Bytes}
    (hnext : before.invoke dispatch outcome = some after) :
    ∃ call result, before.dispatches dispatch = .invoke call ∧
      after = before.goto dispatch (.leave result) := by
  cases hat : before.dispatches dispatch with
  | invoke call =>
      simp only [DispatchWorld.invoke, hat] at hnext
      cases hnext
      exact ⟨call, _, rfl, rfl⟩
  | _ => simp [DispatchWorld.invoke, hat] at hnext

theorem invoke_moves (hcounted : before.Counted) {dispatch : Nat}
    {outcome : Except Error Bytes} (hnext : before.invoke dispatch outcome = some after) :
    ∃ pc, Moves before after dispatch pc := by
  obtain ⟨call, result, hat, rfl⟩ := invoke_eq hnext
  refine ⟨_, moves_goto hcounted (by simp [hat]) rfl rfl rfl rfl rfl ?_ ?_⟩
  · rw [hat]
    exact .refused rfl rfl
  · intro _ other hother
    cases hother

theorem activate_moves (hcounted : before.Counted) {dispatch : Nat}
    {outcome : FactoryOutcome} (hnext : before.activate dispatch outcome = some after) :
    ∃ pc, Moves before after dispatch pc := by
  cases hat : before.dispatches dispatch with
  | activate call =>
      have hcarried : (before.dispatches dispatch).carried = some call := by rw [hat]; rfl
      simp only [DispatchWorld.activate, hat] at hnext
      split at hnext
      · cases hnext
        exact ⟨_, moves_carry hcounted hcarried rfl rfl rfl rfl rfl rfl⟩
      · cases hnext
        exact ⟨_, moves_carry hcounted hcarried rfl rfl rfl rfl rfl rfl⟩
  | _ => simp [DispatchWorld.activate, hat] at hnext

theorem findMailbox_moves (hcounted : before.Counted) {dispatch : Nat}
    (hnext : before.findMailbox dispatch = some after) :
    ∃ pc, Moves before after dispatch pc := by
  cases hat : before.dispatches dispatch with
  | findMailbox call =>
      have hcarried : (before.dispatches dispatch).carried = some call := by rw [hat]; rfl
      simp only [DispatchWorld.findMailbox, hat] at hnext
      split at hnext
      · cases hnext
        exact ⟨_, moves_carry hcounted hcarried rfl rfl rfl rfl rfl rfl⟩
      · cases hnext
        exact ⟨_, moves_carry hcounted hcarried rfl rfl rfl rfl rfl rfl⟩
  | _ => simp [DispatchWorld.findMailbox, hat] at hnext

theorem createWaiter_moves (hcounted : before.Counted) {dispatch : Nat} {created : Bool}
    (hnext : before.createWaiter dispatch created = some after) :
    ∃ pc, Moves before after dispatch pc := by
  cases hat : before.dispatches dispatch with
  | createWaiter call =>
      have hcarried : (before.dispatches dispatch).carried = some call := by rw [hat]; rfl
      simp only [DispatchWorld.createWaiter, hat] at hnext
      split at hnext
      · cases hnext
        exact ⟨_, moves_carry hcounted hcarried rfl rfl rfl rfl rfl rfl⟩
      · cases hnext
        exact ⟨_, moves_carry hcounted hcarried rfl rfl rfl rfl rfl rfl⟩
  | _ => simp [DispatchWorld.createWaiter, hat] at hnext

theorem enqueue_moves (hcounted : before.Counted) {dispatch : Nat}
    {registration : Registration}
    (hnext : before.enqueue dispatch registration = some after) :
    ∃ pc, Moves before after dispatch pc := by
  cases hat : before.dispatches dispatch with
  | enqueue call =>
      have hcarried : (before.dispatches dispatch).carried = some call := by rw [hat]; rfl
      simp only [DispatchWorld.enqueue, hat] at hnext
      split at hnext
      · cases hnext
      · split at hnext
        · cases hnext
          exact ⟨_, moves_carry hcounted hcarried rfl rfl rfl rfl rfl rfl⟩
        · cases hnext
          exact ⟨_, moves_carry hcounted hcarried rfl rfl rfl rfl rfl rfl⟩
        · cases hnext
          refine ⟨_, moves_goto hcounted (by simp [hat]) rfl rfl rfl rfl rfl ?_ ?_⟩
          · rw [hat]
            exact .unwinds rfl rfl rfl rfl
          · intro _ other hother
            cases hother
  | _ => simp [DispatchWorld.enqueue, hat] at hnext

theorem failWait_moves (hcounted : before.Counted) {dispatch : Nat} {status : WaitStatus}
    (hnext : before.failWait dispatch status = some after) :
    ∃ pc, Moves before after dispatch pc := by
  cases hat : before.dispatches dispatch with
  | enqueue call =>
      have hcarried : (before.dispatches dispatch).carried = some call := by rw [hat]; rfl
      cases hstatus : waitError status with
      | none => simp [DispatchWorld.failWait, hat, hstatus] at hnext
      | some reason =>
          simp only [DispatchWorld.failWait, hat, hstatus] at hnext
          cases hnext
          exact ⟨_, moves_carry hcounted hcarried rfl rfl rfl rfl rfl rfl⟩
  | _ => simp [DispatchWorld.failWait, hat] at hnext

theorem resume_moves (hcounted : before.Counted) {dispatch : Nat} {status : WaitStatus}
    (hnext : before.resume dispatch status = some after) :
    ∃ pc, Moves before after dispatch pc := by
  cases hat : before.dispatches dispatch with
  | suspended call =>
      have hcarried : (before.dispatches dispatch).carried = some call := by rw [hat]; rfl
      simp only [DispatchWorld.resume, hat] at hnext
      split at hnext
      · cases hnext
        exact ⟨_, moves_carry hcounted hcarried rfl rfl rfl rfl rfl rfl⟩
      · split at hnext
        · cases hnext
          exact ⟨_, moves_carry hcounted hcarried rfl rfl rfl rfl rfl rfl⟩
        · cases hnext
  | _ => simp [DispatchWorld.resume, hat] at hnext

theorem leave_moves (hcounted : before.Counted) {dispatch : Nat}
    (hnext : before.leave dispatch = some after) :
    ∃ pc, Moves before after dispatch pc := by
  cases hat : before.dispatches dispatch with
  | leave result =>
      simp only [DispatchWorld.leave, hat] at hnext
      cases hnext
      refine ⟨_, moves_goto hcounted (by simp [hat]) rfl rfl rfl rfl rfl ?_ ?_⟩
      · rw [hat]
        exact .answers rfl rfl
      · intro _ other hother
        cases hother
  | unwind =>
      simp only [DispatchWorld.leave, hat] at hnext
      cases hnext
      refine ⟨_, moves_goto hcounted (by simp [hat]) rfl rfl rfl rfl rfl ?_ ?_⟩
      · rw [hat]
        exact .unwinds rfl rfl rfl rfl
      · intro _ other hother
        cases hother
  | _ => simp [DispatchWorld.leave, hat] at hnext

theorem drain_moves (hcounted : before.Counted) {key : String}
    (hnext : before.drain key = some after) :
    Moves before after before.count .idle := by
  unfold DispatchWorld.drain at hnext
  split at hnext
  · cases hnext
  · split at hnext
    · cases hnext
    · cases hnext
      exact moves_aside hcounted rfl rfl rfl rfl rfl

theorem endTask_moves (hcounted : before.Counted) {key : String}
    {outcome : Option (Except Error Bytes)} (hnext : before.endTask key outcome = some after) :
    Moves before after before.count .idle := by
  unfold DispatchWorld.endTask at hnext
  split at hnext
  · cases hnext
  · split at hnext
    · cases hnext
    · split at hnext
      · cases hnext
        exact moves_aside hcounted rfl rfl rfl rfl rfl
      · cases hnext
        exact moves_aside hcounted rfl rfl rfl rfl rfl

/-- An admission is refused, is answered from the cache, or is one for execution. -/
theorem admitting_cases (hcounted : before.Counted) (hconsistent : Consistent before.ingress)
    {dispatch : Nat} (hnext : before.admitting dispatch = some after) :
    (∃ result, Moves before after dispatch (.leave result)) ∨
    (∃ call grant, before.dispatches dispatch = .admitting call ∧
      before.ingress.Authorizes call.ordered grant ∧
      (before.ingress.admitRequest call.ordered).1 = .ok (executeAdmission call.ordered) ∧
      Consumes call.ordered before.ingress after.ingress ∧ Consistent after.ingress ∧
      after = { before with ingress := (before.ingress.admitRequest call.ordered).2 }.goto
        dispatch (.activate { call with ticket := some (executeAdmission call.ordered) })) := by
  cases hat : before.dispatches dispatch with
  | admitting call =>
      have hleaves : ∀ result, Moves before (before.goto dispatch (.leave result))
          dispatch (.leave result) := by
        intro result
        refine moves_goto hcounted (by simp [hat]) rfl rfl rfl rfl rfl ?_ ?_
        · rw [hat]
          exact .refused rfl rfl
        · intro _ other hother
          cases hother
      obtain ⟨error, hadmitted⟩ | ⟨ticket, entry, -, hadmitted, hkind, hreplay, -⟩ |
          ⟨grant, hgrant, hresult, hconsumes, hafter⟩ :=
        admit_cases hconsistent call.ordered
      · simp only [DispatchWorld.admitting, hat, hadmitted] at hnext
        cases hnext
        exact Or.inl ⟨_, hleaves _⟩
      · simp only [DispatchWorld.admitting, hat, hadmitted, hkind, hreplay] at hnext
        cases hnext
        exact Or.inl ⟨_, hleaves _⟩
      · simp only [DispatchWorld.admitting, hat, hresult] at hnext
        cases hnext
        exact Or.inr ⟨call, grant, rfl, hgrant, hresult, hconsumes, hafter, rfl⟩
  | _ => simp [DispatchWorld.admitting, hat] at hnext

end DispatchWorld

/-- What a call returns once `Complete` has answered. -/
def answerOf (call : DispatchCall) (outcome : Except Error Bytes) :
    Except Error Unit → Except Error RpcEnvelope
  | .ok () => resultOf call outcome
  | .error reason => .error reason

namespace DispatchWorld

variable {before after : DispatchWorld}

theorem complete_cases {dispatch : Nat} (hnext : before.complete dispatch = some after) :
    ∃ call outcome, before.dispatches dispatch = .complete call outcome ∧
      ((call.ticket = none ∧
          after = before.goto dispatch (.leave (resultOf call outcome))) ∨
        ∃ ticket, call.ticket = some ticket ∧
          after = { before with
            ingress := (before.ingress.complete ticket (terminalOf outcome)).2 }.goto dispatch
              (.leave (answerOf call outcome
                (before.ingress.complete ticket (terminalOf outcome)).1))) := by
  cases hat : before.dispatches dispatch with
  | complete call outcome =>
      refine ⟨call, outcome, rfl, ?_⟩
      simp only [DispatchWorld.complete, hat] at hnext
      cases hticket : call.ticket with
      | none =>
          simp only [hticket] at hnext
          exact Or.inl ⟨rfl, (Option.some.inj hnext).symm⟩
      | some ticket =>
          simp only [hticket] at hnext
          refine Or.inr ⟨ticket, rfl, ?_⟩
          cases hdone : (before.ingress.complete ticket (terminalOf outcome)).1 with
          | error reason =>
              simp only [hdone] at hnext
              exact (Option.some.inj hnext).symm
          | ok done =>
              simp only [hdone] at hnext
              exact (Option.some.inj hnext).symm
  | _ => simp [DispatchWorld.complete, hat] at hnext

theorem quiet_moves (hcounted : before.Counted) {step : DispatchStep}
    (hnext : before.next step = some after) (hadmits : ∀ dispatch, step ≠ .admitting dispatch)
    (hcompletes : ∀ dispatch, step ≠ .complete dispatch) :
    admittedBy after step = none ∧ SettleWorld.settledBy before step = none ∧
      ∃ dispatch pc, Moves before after dispatch pc := by
  cases step with
  | call incoming request => exact ⟨rfl, rfl, _, _, call_moves hcounted hnext⟩
  | check dispatch => exact ⟨rfl, rfl, dispatch, check_moves hcounted hnext⟩
  | read dispatch now => exact ⟨rfl, rfl, dispatch, read_moves hcounted hnext⟩
  | invoke dispatch outcome => exact ⟨rfl, rfl, dispatch, invoke_moves hcounted hnext⟩
  | admitting dispatch => exact absurd rfl (hadmits dispatch)
  | activate dispatch outcome => exact ⟨rfl, rfl, dispatch, activate_moves hcounted hnext⟩
  | findMailbox dispatch => exact ⟨rfl, rfl, dispatch, findMailbox_moves hcounted hnext⟩
  | createWaiter dispatch created =>
      exact ⟨rfl, rfl, dispatch, createWaiter_moves hcounted hnext⟩
  | enqueue dispatch registration => exact ⟨rfl, rfl, dispatch, enqueue_moves hcounted hnext⟩
  | failWait dispatch status => exact ⟨rfl, rfl, dispatch, failWait_moves hcounted hnext⟩
  | resume dispatch status => exact ⟨rfl, rfl, dispatch, resume_moves hcounted hnext⟩
  | complete dispatch => exact absurd rfl (hcompletes dispatch)
  | leave dispatch => exact ⟨rfl, rfl, dispatch, leave_moves hcounted hnext⟩
  | drain key => exact ⟨rfl, rfl, _, _, drain_moves hcounted hnext⟩
  | endTask key outcome => exact ⟨rfl, rfl, _, _, endTask_moves hcounted hnext⟩

theorem next_cases (hcounted : before.Counted) (hconsistent : Consistent before.ingress)
    {step : DispatchStep} (hnext : before.next step = some after) :
    (admittedBy after step = none ∧ SettleWorld.settledBy before step = none ∧
      ∃ dispatch pc, Moves before after dispatch pc) ∨
    (∃ dispatch call grant, step = .admitting dispatch ∧
      before.dispatches dispatch = .admitting call ∧
      before.ingress.Authorizes call.ordered grant ∧
      (before.ingress.admitRequest call.ordered).1 = .ok (executeAdmission call.ordered) ∧
      Consumes call.ordered before.ingress after.ingress ∧ Consistent after.ingress ∧
      after = { before with ingress := (before.ingress.admitRequest call.ordered).2 }.goto
        dispatch (.activate { call with ticket := some (executeAdmission call.ordered) })) ∨
    (∃ dispatch call outcome ticket, step = .complete dispatch ∧
      before.dispatches dispatch = .complete call outcome ∧ call.ticket = some ticket ∧
      after = { before with
        ingress := (before.ingress.complete ticket (terminalOf outcome)).2 }.goto dispatch
          (.leave (answerOf call outcome
            (before.ingress.complete ticket (terminalOf outcome)).1))) := by
  cases step with
  | admitting dispatch =>
      obtain ⟨result, hmoves⟩ | ⟨call, grant, hexecuted⟩ :=
        admitting_cases hcounted hconsistent hnext
      · refine Or.inl ⟨?_, rfl, dispatch, _, hmoves⟩
        rw [admittedBy, hmoves.dispatches, Function.update_self]
      · exact Or.inr (Or.inl ⟨dispatch, call, grant, rfl, hexecuted⟩)
  | complete dispatch =>
      obtain ⟨call, outcome, hat, ⟨hticket, rfl⟩ | ⟨ticket, hticket, hafter⟩⟩ :=
        complete_cases hnext
      · refine Or.inl ⟨rfl, ?_, dispatch, _, moves_goto hcounted (by simp [hat]) rfl rfl rfl
          rfl rfl ?_ ?_⟩
        · rw [SettleWorld.settledBy, hat]
          dsimp only
          rw [hticket]
          rfl
        · rw [hat]
          exact .unordered rfl hticket rfl
        · intro _ other hother
          cases hother
      · exact Or.inr (Or.inr ⟨dispatch, call, outcome, ticket, rfl, hat, hticket, hafter⟩)
  | _ =>
      refine Or.inl (quiet_moves hcounted hnext ?_ ?_)
      · rintro dispatch ⟨⟩
      · rintro dispatch ⟨⟩

end DispatchWorld

end

end BbtFramework.Inbound
