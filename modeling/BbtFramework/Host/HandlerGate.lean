import BbtFramework.Host.HandlerDrain

/-!
# The gate of the inbound handlers

`_InvokeHttp` and `_InvokeRpc` count themselves in when the gate is open, and a scope guard
counts them out whether the handler returns or throws.  `StopAccepting` closes the gate,
`WaitHandlersDone` waits for the count.  Any number of these calls run here one critical
section at a time, next to the one run of `_Close`.
-/

namespace BbtFramework.Host

open BbtFramework.Library

/-- Which of the two wrappers the server of infra calls. -/
inductive HandlerKind where
  | http
  | rpc
  deriving DecidableEq, Repr

/-- Where an invocation stands.  The scope guard has two actions, the decrement under the
mutex and the notification outside it. -/
inductive InvokePc where
  | entering
  | running
  | leaving (threw : Bool)
  | notifying (threw : Bool)
  | finished (threw : Bool)
  | refused (reason : Error)
  deriving DecidableEq, Repr

/-- Past the gate and not yet counted out. -/
def InvokePc.inside : InvokePc → Bool
  | .running => true
  | .leaving _ => true
  | .entering => false
  | .notifying _ => false
  | .finished _ => false
  | .refused _ => false

structure Invocation where
  kind : HandlerKind
  pc : InvokePc
  deriving DecidableEq, Repr

/-- `StopAccepting` closes the gate before it tells the servers. -/
inductive StopPc where
  | entering
  | tellServers
  | returned
  deriving DecidableEq, Repr

/-- Whether the critical section of `StopAccepting` is behind. -/
def StopPc.closed : StopPc → Bool
  | .entering => false
  | .tellServers => true
  | .returned => true

/-- `refused` is an error of the drain phase; what comes after that phase is the answer of
the servers. -/
inductive WaitPc where
  | entering
  | waiting
  | refused (reason : Error)
  | stopServers
  | finished (result : Except Error Unit)
  deriving DecidableEq

/-- The drain phase is behind, without an error. -/
def WaitPc.drained : WaitPc → Bool
  | .stopServers => true
  | .finished _ => true
  | .entering => false
  | .waiting => false
  | .refused _ => false

/-- `HandlerState`, the part of the host `_Close` writes, and all callers.  The counter is
an integer so that a decrement too many would show. -/
structure GateWorld where
  opened : Bool
  inflight : Int
  closeReason : Option Error
  hostReason : Option Error
  closer : ClosePc
  invocations : List Invocation
  stops : List StopPc
  waits : List WaitPc

/-- One action of one caller, picked by its position. -/
inductive GateStep where
  | callInvoke (kind : HandlerKind)
  | enter (caller : Nat)
  | handlerEnds (caller : Nat) (threw : Bool)
  | leave (caller : Nat)
  | notify (caller : Nat)
  | callStop
  | closeGate (caller : Nat)
  | stopReturns (caller : Nat)
  | callWait
  | startWait (caller : Nat)
  | wake (caller : Nat)
  | deadline (caller : Nat)
  | serversStopped (caller : Nat) (result : Except Error Unit)
  | callClose (reason : Error)
  | close (throws : Bool)
  deriving DecidableEq

namespace GateWorld

/-- How many handlers passed the gate and have not left. -/
def handlersInside (world : GateWorld) : Nat :=
  world.invocations.countP (fun invocation => invocation.pc.inside)

/-- An invocation goes on. -/
def moveCall (world : GateWorld) (caller : Nat) (kind : HandlerKind) (pc : InvokePc) :
    GateWorld :=
  { world with invocations := world.invocations.set caller ⟨kind, pc⟩ }

def moveStop (world : GateWorld) (caller : Nat) (pc : StopPc) : GateWorld :=
  { world with stops := world.stops.set caller pc }

def moveWait (world : GateWorld) (caller : Nat) (pc : WaitPc) : GateWorld :=
  { world with waits := world.waits.set caller pc }

/-- The guard of an invocation: the count goes down whatever the handler did. -/
def leave (world : GateWorld) (caller : Nat) (kind : HandlerKind) (threw : Bool) :
    GateWorld :=
  { world.moveCall caller kind (.notifying threw) with inflight := world.inflight - 1 }

/-- The next action of `_Close`; copying the reason can throw, and the exception ends
`_Close`. -/
def closeNext (world : GateWorld) (throws : Bool) : Option GateWorld :=
  match world.closer with
  | .idle => none
  | .publishHandler reason =>
      if throws then some { world with opened := false, closer := .finished }
      else
        some { world with
          opened := false
          closeReason := some (world.closeReason.getD reason)
          closer := .notify reason }
  | .notify reason =>
      if throws then none else some { world with closer := .publishHost reason }
  | .publishHost reason =>
      if throws then some { world with closer := .finished }
      else
        some { world with
          hostReason := some (world.hostReason.getD reason)
          closer := .closeServers }
  -- `StopAccepting` once more, and the servers
  | .closeServers => some { world with opened := false, closer := .finished }
  | .finished => none

section

variable [Infra]

def gateClosedError : HandlerKind → Error
  | .http => makeError .runtimeUnavailable "inbound handler: host closed"
  | .rpc => makeError .runtimeUnavailable "inbound rpc handler: host closed"

def stillRunningError : Error :=
  makeError .timedOut "inbound handlers still running"

/-- The first critical section of an invocation. -/
def enter (world : GateWorld) (caller : Nat) (kind : HandlerKind) : GateWorld :=
  if world.opened then
    { world.moveCall caller kind .running with inflight := world.inflight + 1 }
  else
    world.moveCall caller kind (.refused (world.closeReason.getD (gateClosedError kind)))

/-- The end of the wait, still under the mutex. -/
def afterWait (world : GateWorld) (caller : Nat) : GateWorld :=
  if world.inflight ≠ 0 then
    world.moveWait caller (.refused (world.closeReason.getD stillRunningError))
  else world.moveWait caller .stopServers

/-- The entry check of `WaitHandlersDone` and its first look at the predicate. -/
def startWait (world : GateWorld) (caller : Nat) : GateWorld :=
  match world.closeReason with
  | some reason => world.moveWait caller (.refused reason)
  | none =>
      if world.inflight = 0 then world.afterWait caller
      else world.moveWait caller .waiting

/-- A waiter looks at its predicate again. -/
def wake (world : GateWorld) (caller : Nat) : GateWorld :=
  if world.inflight = 0 ∨ world.closeReason.isSome then world.afterWait caller else world

/-- The step a label selects; a caller that is not where the label says does not move. -/
def next (world : GateWorld) : GateStep → Option GateWorld
  | .callInvoke kind =>
      some { world with invocations := world.invocations ++ [⟨kind, .entering⟩] }
  | .enter caller =>
      match world.invocations[caller]? with
      | some ⟨kind, .entering⟩ => some (world.enter caller kind)
      | _ => none
  | .handlerEnds caller threw =>
      match world.invocations[caller]? with
      | some ⟨kind, .running⟩ => some (world.moveCall caller kind (.leaving threw))
      | _ => none
  | .leave caller =>
      match world.invocations[caller]? with
      | some ⟨kind, .leaving threw⟩ => some (world.leave caller kind threw)
      | _ => none
  | .notify caller =>
      match world.invocations[caller]? with
      | some ⟨kind, .notifying threw⟩ => some (world.moveCall caller kind (.finished threw))
      | _ => none
  | .callStop => some { world with stops := world.stops ++ [.entering] }
  | .closeGate caller =>
      if world.stops[caller]? = some .entering then
        some { world.moveStop caller .tellServers with opened := false }
      else none
  | .stopReturns caller =>
      if world.stops[caller]? = some .tellServers then some (world.moveStop caller .returned)
      else none
  | .callWait => some { world with waits := world.waits ++ [.entering] }
  | .startWait caller =>
      if world.waits[caller]? = some .entering then some (world.startWait caller) else none
  | .wake caller =>
      if world.waits[caller]? = some .waiting then some (world.wake caller) else none
  | .deadline caller =>
      if world.waits[caller]? = some .waiting then some (world.afterWait caller) else none
  | .serversStopped caller result =>
      if world.waits[caller]? = some .stopServers then
        some (world.moveWait caller (.finished result))
      else none
  -- `call_once`: a later call of `Close` waits for the first one and does nothing
  | .callClose reason =>
      if world.closer = .idle then some { world with closer := .publishHandler reason }
      else none
  | .close throws => world.closeNext throws

end

end GateWorld

/-! ## What a step does to the gate -/

namespace GateWorld

theorem handlersInside_append (world : GateWorld) (kind : HandlerKind) :
    GateWorld.handlersInside { world with
      invocations := world.invocations ++ [⟨kind, .entering⟩] } = world.handlersInside := by
  unfold handlersInside
  rw [List.countP_append]
  rfl

/-- An invocation that moves counts as what it becomes instead of what it was. -/
theorem handlersInside_moveCall {world : GateWorld} {caller : Nat} {old : Invocation}
    (hcall : world.invocations[caller]? = some old) (kind : HandlerKind) (pc : InvokePc) :
    (world.moveCall caller kind pc).handlersInside + (if old.pc.inside then 1 else 0) =
      world.handlersInside + (if pc.inside then 1 else 0) := by
  obtain ⟨hbound, hget⟩ := List.getElem?_eq_some_iff.mp hcall
  have hcounted : (if old.pc.inside then 1 else 0) ≤ world.handlersInside := by
    split
    case isTrue hinside =>
      exact List.countP_pos_iff.mpr ⟨old, List.mem_of_getElem? hcall, hinside⟩
    case isFalse => exact Nat.zero_le _
  have hset : (world.moveCall caller kind pc).handlersInside =
      world.handlersInside - (if old.pc.inside then 1 else 0) +
        (if pc.inside then 1 else 0) := by
    rw [← hget]
    exact List.countP_set hbound
  omega

/-- The wait of a caller is past its drain phase, without an error. -/
def Drained (world : GateWorld) (caller : Nat) : Prop :=
  ∃ pc, world.waits[caller]? = some pc ∧ pc.drained = true

theorem drained_moveWait {world : GateWorld} {caller other : Nat} {pc : WaitPc}
    (hdrained : (world.moveWait other pc).Drained caller) :
    world.Drained caller ∨ caller = other ∧ pc.drained = true := by
  obtain ⟨found, hfound, hpast⟩ := hdrained
  unfold moveWait at hfound
  by_cases heq : other = caller
  · subst heq
    rw [List.getElem?_set_self' ] at hfound
    obtain ⟨old, -, rfl⟩ := Option.map_eq_some_iff.mp hfound
    exact Or.inr ⟨rfl, hpast⟩
  · rw [List.getElem?_set_ne heq] at hfound
    exact Or.inl ⟨found, hfound, hpast⟩

theorem drained_callWait {world : GateWorld} {caller : Nat}
    (hdrained : GateWorld.Drained { world with waits := world.waits ++ [.entering] } caller) :
    world.Drained caller := by
  obtain ⟨found, hfound, hpast⟩ := hdrained
  by_cases hbound : caller < world.waits.length
  · rw [List.getElem?_append_left hbound] at hfound
    exact ⟨found, hfound, hpast⟩
  · rw [List.getElem?_append_right (not_lt.mp hbound)] at hfound
    rw [List.mem_singleton.mp (List.mem_of_getElem? hfound)] at hpast
    cases hpast

/-- The count of a step: nothing, one in through the open gate, or one out. -/
inductive Counts (before after : GateWorld) : Prop where
  | same : after.inflight = before.inflight →
      after.handlersInside = before.handlersInside → Counts before after
  | entered : before.opened = true → after.inflight = before.inflight + 1 →
      after.handlersInside = before.handlersInside + 1 → Counts before after
  | left : after.inflight = before.inflight - 1 →
      before.handlersInside = after.handlersInside + 1 → Counts before after

/-- What every step does to the gate: it counts, it never opens, a `StopAccepting` that is
past its critical section was so before or has just closed the gate, and a wait passes its
drain phase only at a count of zero. -/
structure Effect (before after : GateWorld) : Prop where
  counts : Counts before after
  shut : after.opened = true → before.opened = true
  stops : ∀ stop ∈ after.stops, stop.closed = true →
    (∃ old ∈ before.stops, old.closed = true) ∨ after.opened = false
  waits : ∀ caller, after.Drained caller →
    before.Drained caller ∨ after.handlersInside = before.handlersInside ∧ before.inflight = 0

/-- A step that does not touch the gate, nor the `StopAccepting` calls. -/
theorem Effect.of_waits {before after : GateWorld} (hopened : after.opened = before.opened)
    (hinflight : after.inflight = before.inflight)
    (hinvocations : after.invocations = before.invocations)
    (hstops : after.stops = before.stops)
    (hwaits : ∀ caller, after.Drained caller → before.Drained caller ∨ before.inflight = 0) :
    Effect before after := by
  have hinside : after.handlersInside = before.handlersInside := by
    unfold handlersInside
    rw [hinvocations]
  constructor
  · exact .same hinflight hinside
  · rw [hopened]
    exact id
  · rw [hstops]
    exact fun stop hstop hclosed => Or.inl ⟨stop, hstop, hclosed⟩
  · intro caller hdrained
    rcases hwaits caller hdrained with hold | hzero
    · exact Or.inl hold
    · exact Or.inr ⟨hinside, hzero⟩

/-- A step that changes neither the gate nor its callers. -/
theorem Effect.aside {before after : GateWorld} (hopened : after.opened = before.opened)
    (hinflight : after.inflight = before.inflight)
    (hinvocations : after.invocations = before.invocations)
    (hstops : after.stops = before.stops) (hwaits : after.waits = before.waits) :
    Effect before after := by
  refine .of_waits hopened hinflight hinvocations hstops ?_
  unfold Drained
  rw [hwaits]
  exact fun _ hdrained => Or.inl hdrained

/-- A step of an invocation. -/
theorem Effect.of_call {before after : GateWorld} (hcounts : Counts before after)
    (hopened : after.opened = before.opened) (hstops : after.stops = before.stops)
    (hwaits : after.waits = before.waits) : Effect before after := by
  constructor
  · exact hcounts
  · rw [hopened]
    exact id
  · rw [hstops]
    exact fun stop hstop hclosed => Or.inl ⟨stop, hstop, hclosed⟩
  · unfold Drained
    rw [hwaits]
    exact fun _ hdrained => Or.inl hdrained

theorem Effect.of_closed {before after : GateWorld} (hopened : after.opened = false)
    (hinflight : after.inflight = before.inflight)
    (hinvocations : after.invocations = before.invocations)
    (hwaits : after.waits = before.waits) : Effect before after := by
  constructor
  · refine .same hinflight ?_
    unfold handlersInside
    rw [hinvocations]
  · rw [hopened]
    intro hopen
    cases hopen
  · exact fun _ _ _ => Or.inr hopened
  · unfold Drained
    rw [hwaits]
    exact fun _ hdrained => Or.inl hdrained

/-- A wait that moves, past its drain phase only at a count of zero. -/
theorem Effect.of_moveWait {world : GateWorld} {caller : Nat} {pc : WaitPc}
    (hpc : pc.drained = true → world.Drained caller ∨ world.inflight = 0) :
    Effect world (world.moveWait caller pc) := by
  refine .of_waits rfl rfl rfl rfl ?_
  intro other hdrained
  rcases drained_moveWait hdrained with hold | ⟨rfl, hpast⟩
  · exact Or.inl hold
  · exact hpc hpast

theorem closeNext_effect {before after : GateWorld} {throws : Bool}
    (hnext : before.closeNext throws = some after) : Effect before after := by
  unfold closeNext at hnext
  cases hcloser : before.closer with
  | idle | finished =>
      rw [hcloser] at hnext
      cases hnext
  | publishHandler reason =>
      rw [hcloser] at hnext
      cases throws with
      | true =>
          cases hnext
          exact .of_closed rfl rfl rfl rfl
      | false =>
          cases hnext
          exact .of_closed rfl rfl rfl rfl
  | notify reason =>
      rw [hcloser] at hnext
      cases throws with
      | true => cases hnext
      | false =>
          cases hnext
          exact .aside rfl rfl rfl rfl rfl
  | publishHost reason =>
      rw [hcloser] at hnext
      cases throws with
      | true =>
          cases hnext
          exact .aside rfl rfl rfl rfl rfl
      | false =>
          cases hnext
          exact .aside rfl rfl rfl rfl rfl
  | closeServers =>
      rw [hcloser] at hnext
      cases hnext
      exact .of_closed rfl rfl rfl rfl

section

variable [Infra]

theorem afterWait_effect (world : GateWorld) (caller : Nat) :
    Effect world (world.afterWait caller) := by
  unfold afterWait
  split
  case isTrue =>
    refine .of_moveWait (fun hpast => ?_)
    cases hpast
  case isFalse hzero => exact .of_moveWait (fun _ => Or.inr (not_not.mp hzero))

theorem startWait_effect (world : GateWorld) (caller : Nat) :
    Effect world (world.startWait caller) := by
  unfold startWait
  split
  case h_1 =>
    refine .of_moveWait (fun hpast => ?_)
    cases hpast
  case h_2 =>
    split
    case isTrue => exact world.afterWait_effect caller
    case isFalse =>
      refine .of_moveWait (fun hpast => ?_)
      cases hpast

theorem enter_effect {world : GateWorld} {caller : Nat} {kind : HandlerKind}
    (hcall : world.invocations[caller]? = some ⟨kind, .entering⟩) :
    Effect world (world.enter caller kind) := by
  unfold enter
  split
  case isTrue hopened =>
    exact .of_call (.entered hopened rfl (handlersInside_moveCall hcall kind .running))
      rfl rfl rfl
  case isFalse =>
    exact .of_call (.same rfl (handlersInside_moveCall hcall kind (.refused _))) rfl rfl rfl

theorem next_effect {before after : GateWorld} {step : GateStep}
    (hnext : before.next step = some after) : Effect before after := by
  cases step with
  | callInvoke kind =>
      cases hnext
      exact .of_call (.same rfl (before.handlersInside_append kind)) rfl rfl rfl
  | enter caller =>
      simp only [next] at hnext
      split at hnext
      case h_1 kind hcall =>
        cases hnext
        exact enter_effect hcall
      case h_2 => cases hnext
  | handlerEnds caller threw =>
      simp only [next] at hnext
      split at hnext
      case h_1 kind hcall =>
        cases hnext
        refine .of_call (.same rfl ?_) rfl rfl rfl
        exact Nat.succ_injective (handlersInside_moveCall hcall kind (.leaving threw))
      case h_2 => cases hnext
  | leave caller =>
      simp only [next] at hnext
      split at hnext
      case h_1 kind threw hcall =>
        cases hnext
        refine .of_call (.left rfl ?_) rfl rfl rfl
        exact (handlersInside_moveCall hcall kind (.notifying threw)).symm
      case h_2 => cases hnext
  | notify caller =>
      simp only [next] at hnext
      split at hnext
      case h_1 kind threw hcall =>
        cases hnext
        refine .of_call (.same rfl ?_) rfl rfl rfl
        exact handlersInside_moveCall hcall kind (.finished threw)
      case h_2 => cases hnext
  | callStop =>
      cases hnext
      refine ⟨.same rfl rfl, id, ?_, fun _ hdrained => Or.inl hdrained⟩
      intro stop hstop hclosed
      rcases List.mem_append.mp hstop with hold | hnew
      · exact Or.inl ⟨stop, hold, hclosed⟩
      · rw [List.mem_singleton.mp hnew] at hclosed
        cases hclosed
  | closeGate caller =>
      simp only [next] at hnext
      split at hnext
      case isTrue =>
        cases hnext
        exact .of_closed rfl rfl rfl rfl
      case isFalse => cases hnext
  | stopReturns caller =>
      simp only [next] at hnext
      split at hnext
      case isTrue hcaller =>
        cases hnext
        refine ⟨.same rfl rfl, id, ?_, fun _ hdrained => Or.inl hdrained⟩
        intro stop hstop hclosed
        rcases List.mem_or_eq_of_mem_set hstop with hold | hnew
        · exact Or.inl ⟨stop, hold, hclosed⟩
        · exact Or.inl ⟨_, List.mem_of_getElem? hcaller, rfl⟩
      case isFalse => cases hnext
  | callWait =>
      cases hnext
      exact .of_waits rfl rfl rfl rfl (fun _ hdrained => Or.inl (drained_callWait hdrained))
  | startWait caller =>
      simp only [next] at hnext
      split at hnext
      case isTrue =>
        cases hnext
        exact before.startWait_effect caller
      case isFalse => cases hnext
  | wake caller =>
      simp only [next] at hnext
      split at hnext
      case isTrue =>
        cases hnext
        unfold wake
        split
        case isTrue => exact before.afterWait_effect caller
        case isFalse => exact .aside rfl rfl rfl rfl rfl
      case isFalse => cases hnext
  | deadline caller =>
      simp only [next] at hnext
      split at hnext
      case isTrue =>
        cases hnext
        exact before.afterWait_effect caller
      case isFalse => cases hnext
  | serversStopped caller result =>
      simp only [next] at hnext
      split at hnext
      case isTrue hcaller =>
        cases hnext
        exact .of_moveWait (fun _ => Or.inl ⟨_, hcaller, rfl⟩)
      case isFalse => cases hnext
  | callClose reason =>
      simp only [next] at hnext
      split at hnext
      case isTrue =>
        cases hnext
        exact .aside rfl rfl rfl rfl rfl
      case isFalse => cases hnext
  | close throws => exact closeNext_effect hnext

end

end GateWorld

/-- Every interleaving of any number of invocations, `StopAccepting` and
`WaitHandlersDone` calls with `Close`, from a new host. -/
def gateMachine [Infra] : Machine GateWorld GateStep where
  init := fun world => world = ⟨true, 0, none, none, .idle, [], [], []⟩
  next := GateWorld.next

/-! ## The count -/

/-- The counter is the number of handlers inside, and a `StopAccepting` that is past its
critical section has closed the gate. -/
structure GateWorld.Tight (world : GateWorld) : Prop where
  counted : world.inflight = world.handlersInside
  stopped : ∀ stop ∈ world.stops, stop.closed = true → world.opened = false

namespace GateWorld

theorem Tight.effect {before after : GateWorld} (htight : before.Tight)
    (heffect : Effect before after) : after.Tight := by
  constructor
  · have hbefore := htight.counted
    cases heffect.counts with
    | same hinflight hinside => omega
    | entered hopened hinflight hinside => omega
    | left hinflight hinside => omega
  · intro stop hstop hclosed
    rcases heffect.stops stop hstop hclosed with ⟨old, hold, hpast⟩ | hshut
    · have hbefore := htight.stopped old hold hpast
      rw [← Bool.not_eq_true] at hbefore ⊢
      exact fun hopened => hbefore (heffect.shut hopened)
    · exact hshut

/-- Closed and empty. -/
def Sealed (world : GateWorld) : Prop :=
  world.opened = false ∧ world.handlersInside = 0

/-- A closed and empty gate stays so. -/
theorem Sealed.effect {before after : GateWorld} (hsealed : before.Sealed)
    (heffect : Effect before after) : after.Sealed := by
  obtain ⟨hclosed, hempty⟩ := hsealed
  constructor
  · rw [← Bool.not_eq_true]
    intro hopened
    rw [heffect.shut hopened] at hclosed
    cases hclosed
  · cases heffect.counts with
    | same _ hinside => omega
    | entered hopened =>
        rw [hopened] at hclosed
        cases hclosed
    | left _ hinside => omega

/-- No handler is inside. -/
theorem Sealed.not_inside {world : GateWorld} (hsealed : world.Sealed) :
    ∀ invocation ∈ world.invocations, invocation.pc.inside = false := by
  intro invocation hmem
  rw [← Bool.not_eq_true]
  exact List.countP_eq_zero.mp hsealed.2 invocation hmem

section

variable [Infra]

theorem tight_of_reachable {world : GateWorld} (hreach : gateMachine.Reachable world) :
    world.Tight := by
  refine hreach.induct (motive := fun world => world.Tight) ?_ ?_
  · rintro first rfl
    exact ⟨rfl, fun stop hstop => absurd hstop List.not_mem_nil⟩
  · intro before step after _ ih _ hnext
    exact ih.effect (next_effect hnext)

theorem Sealed.run {first last : GateWorld} {labels : List GateStep}
    (hsealed : first.Sealed)
    (hrun : gateMachine.Run (fun _ _ => True) first labels last) : last.Sealed := by
  induction hrun with
  | refl => exact hsealed
  | tail _ _ hnext ih => exact ih.effect (next_effect hnext)

/-- A wait that passes its drain phase after the gate was closed finds it empty. -/
theorem sealed_of_drained {first last : GateWorld} {labels : List GateStep} {wait : Nat}
    (htight : first.Tight) (hclosed : first.opened = false) (hnotYet : ¬ first.Drained wait)
    (hrun : gateMachine.Run (fun _ _ => True) first labels last)
    (hdrained : last.Drained wait) : last.Sealed := by
  have hall : last.Tight ∧ last.opened = false ∧ (last.Drained wait → last.Sealed) := by
    clear hdrained
    induction hrun with
    | refl => exact ⟨htight, hclosed, fun h => absurd h hnotYet⟩
    | @tail _ before after _ _ _ hnext ih =>
        obtain ⟨hbefore, hshut, hsealed⟩ := ih
        have heffect : Effect before after := next_effect hnext
        have hstill : after.opened = false := by
          rw [← Bool.not_eq_true] at hshut ⊢
          exact fun hopened => hshut (heffect.shut hopened)
        refine ⟨hbefore.effect heffect, hstill, ?_⟩
        intro hdrained
        rcases heffect.waits wait hdrained with hold | ⟨hsame, hzero⟩
        · exact (hsealed hold).effect heffect
        · refine ⟨hstill, ?_⟩
          have hcounted := hbefore.counted
          omega
  exact hall.2.2 hdrained

end

end GateWorld

section

variable [Infra]

/-- In every interleaving the counter is the number of handlers inside and never negative;
and when a `StopAccepting` has returned and a `WaitHandlersDone` passes its drain phase
after that, no handler is inside then or at any later time. -/
theorem handler_gate_tight {world : GateWorld} (hreach : gateMachine.Reachable world) :
    world.inflight = world.handlersInside ∧ 0 ≤ world.inflight ∧
      ∀ stop : Nat, world.stops[stop]? = some .returned →
        ∀ wait labels drained, ¬ world.Drained wait →
          gateMachine.Run (fun _ _ => True) world labels drained → drained.Drained wait →
          ∀ rest later, gateMachine.Run (fun _ _ => True) drained rest later →
            ∀ invocation ∈ later.invocations, invocation.pc.inside = false := by
  have htight := GateWorld.tight_of_reachable hreach
  refine ⟨htight.counted, ?_, ?_⟩
  · rw [htight.counted]
    exact Int.natCast_nonneg _
  · intro stop hstop wait labels drained hnotYet hrun hdrained rest later hrest
    have hclosed : world.opened = false :=
      htight.stopped .returned (List.mem_of_getElem? hstop) rfl
    have hsealed : drained.Sealed :=
      GateWorld.sealed_of_drained htight hclosed hnotYet hrun hdrained
    exact (hsealed.run hrest).not_inside

end

instance (world : GateWorld) (caller : Nat) : Decidable (world.Drained caller) :=
  decidable_of_iff ((world.waits[caller]?).any WaitPc.drained = true)
    (Option.any_eq_true _ _)

/-- A handler that throws after the gate was closed behind it, with a caller that comes too
late before the drain and one after it. -/
theorem handler_gate_tight_throw :
    letI := permissiveInfra
    ∃ world drained later labels rest, gateMachine.Reachable world ∧ world.inflight = 1 ∧
      world.stops[0]? = some .returned ∧ ¬ world.Drained 0 ∧
      gateMachine.Run (fun _ _ => True) world labels drained ∧ drained.Drained 0 ∧
      gateMachine.Run (fun _ _ => True) drained rest later ∧ later.invocations.length = 3 ∧
      ∀ invocation ∈ later.invocations, invocation.pc.inside = false := by
  let _ := permissiveInfra
  have hboot : gateMachine.Reachable ⟨true, 0, none, none, .idle, [], [], []⟩ := .start rfl
  obtain ⟨world, drained, hreach, hrun, htest⟩ := hboot.exec_both
    (fun _ _ => true) (fun _ _ _ => trivial)
    [.callInvoke .http, .callInvoke .rpc, .enter 0, .callStop, .closeGate 0, .stopReturns 0]
    [.callWait, .startWait 0, .enter 1, .handlerEnds 0 true, .leave 0, .wake 0]
    (fun world drained => decide (world.inflight = 1 ∧
      world.stops[0]? = some StopPc.returned ∧ ¬ world.Drained 0 ∧ drained.Drained 0 ∧
      (gateMachine.exec (fun _ _ => true) drained
        [.notify 0, .callInvoke .http, .enter 2]).any
          (fun later => later.invocations.length = 3) = true)) (by decide)
  obtain ⟨hinflight, hstop, hnotYet, hdrained, hlater⟩ := of_decide_eq_true htest
  obtain ⟨later, hexec, hlength⟩ := (Option.any_eq_true _ _).mp hlater
  have hrest : gateMachine.Run (fun _ _ => True) drained _ later :=
    .exec (fun _ _ _ => trivial) hexec
  exact ⟨world, drained, later, _, _, hreach, hinflight, hstop, hnotYet, hrun, hdrained, hrest,
    of_decide_eq_true hlength,
    (handler_gate_tight hreach).2.2 0 hstop 0 _ drained hnotYet hrun hdrained _ later hrest⟩

end BbtFramework.Host
