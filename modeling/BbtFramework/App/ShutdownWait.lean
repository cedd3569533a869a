import BbtFramework.Coroutine
import BbtFramework.Error
import BbtFramework.Library.Machine
import BbtFramework.Library.Waiter
import Mathlib.Logic.Function.Basic

/-!
# Waiting for a shutdown request

`RequestShutdown` stores a flag and reads the slot of the waiter under `m_run_mtx`, and
notifies outside it.  `CoWaitShutdownRequest` fills the slot under the same mutex, but its
registration callback reads the flag without it.  Any number of calls of both run here one
action at a time.
-/

namespace BbtFramework.App

open BbtFramework.Library

/-- Where a call of `RequestShutdown` stands; between the two actions on the flag and on the
slot it holds the mutex. -/
inductive RequestPc where
  | idle
  | readSlot
  | notify (waiter : Option Nat)
  | returned
  deriving DecidableEq, Repr

/-- The flag has been stored. -/
def RequestPc.made : RequestPc → Bool
  | .idle => false
  | .readSlot => true
  | .notify _ => true
  | .returned => true

/-- Where a call of `CoWaitShutdownRequest` stands.  `suspended` begins when the callback
has looked at the flag; the mutex is taken at `entering` and at `resetting`. -/
inductive AwaitPc where
  | idle
  | entering
  | registering
  | callback
  | notifySelf
  | suspended
  | resetting (status : WaitStatus)
  | finished (result : Except Error Unit)
  deriving DecidableEq

/-- The call has put its waiter into `m_shutdown_waiter` and not taken it out. -/
def AwaitPc.inSlot : AwaitPc → Bool
  | .idle => false
  | .entering => false
  | .registering => true
  | .callback => true
  | .notifySelf => true
  | .suspended => true
  | .resetting _ => true
  | .finished _ => false

structure AwaitCall where
  pc : AwaitPc
  waiter : Waiter
  deriving DecidableEq

def AwaitCall.Stuck (call : AwaitCall) : Prop :=
  call.pc = .suspended ∧ call.waiter.signalled = false

/-- `m_shutdown_req`, `m_shutdown_waiter`, the request that holds `m_run_mtx` and all calls;
a waiter is named by the call that made it. -/
structure SignalWorld where
  requested : Bool
  slot : Option Nat
  holder : Option Nat
  requests : Nat → RequestPc
  waits : Nat → AwaitCall

/-- One action of one call.  `context` is the answer of `_CheckCoContext`, `keep` what
becomes of a notification that comes before the registration. -/
inductive SignalStep where
  | store (request : Nat)
  | readSlot (request : Nat)
  | notify (request : Nat) (keep : Bool)
  | callWait (wait : Nat) (context : Except Error Unit)
  | enter (wait : Nat)
  | register (wait : Nat) (keep : Bool)
  | readFlag (wait : Nat)
  | notifySelf (wait : Nat)
  | resume (wait : Nat)
  | giveUp (wait : Nat) (status : WaitStatus)
  | reset (wait : Nat)

namespace SignalWorld

def setRequest (world : SignalWorld) (request : Nat) (pc : RequestPc) : SignalWorld :=
  { world with requests := Function.update world.requests request pc }

def setWait (world : SignalWorld) (wait : Nat) (call : AwaitCall) : SignalWorld :=
  { world with waits := Function.update world.waits wait call }

/-- A call of `CoWaitShutdownRequest` goes on. -/
def moveWait (world : SignalWorld) (wait : Nat) (pc : AwaitPc) : SignalWorld :=
  world.setWait wait ⟨pc, (world.waits wait).waiter⟩

/-- `Notify` on the waiter a call made. -/
def signal (world : SignalWorld) (wait : Nat) (keep : Bool) : SignalWorld :=
  world.setWait wait ⟨(world.waits wait).pc, (world.waits wait).waiter.notify keep⟩

section

variable [Infra]

def alreadyAwaitedError : Error :=
  makeError .overloaded "shutdown request already has a waiter"

def shutdownAnswer : WaitStatus → Except Error Unit
  | .completed => .ok ()
  | .timedOut => .error (makeError .timedOut "shutdown request timed out")
  | .cancelled => .error (makeError .cancelled "shutdown request cancelled")
  | .runtimeUnavailable | .invalidContext | .alreadyWaiting _ | .unknown _ =>
      .error (makeError .runtimeUnavailable "shutdown request wait unavailable")

/-- The critical section at the entry of `CoWaitShutdownRequest`. -/
def enter (world : SignalWorld) (wait : Nat) : SignalWorld :=
  if world.slot.isSome then world.moveWait wait (.finished (.error alreadyAwaitedError))
  else if world.requested then world.moveWait wait (.finished (.ok ()))
  else { world.moveWait wait .registering with slot := some wait }

/-- The step a label selects; a call that is not where the label says does not move. -/
def next (world : SignalWorld) : SignalStep → Option SignalWorld
  | .store request =>
      if world.requests request = .idle ∧ world.holder = none then
        some { world.setRequest request .readSlot with
          requested := true
          holder := some request }
      else none
  | .readSlot request =>
      if world.requests request = .readSlot then
        some { world.setRequest request (.notify world.slot) with holder := none }
      else none
  | .notify request keep =>
      match world.requests request with
      | .notify none => some (world.setRequest request .returned)
      | .notify (some wait) => some ((world.signal wait keep).setRequest request .returned)
      | _ => none
  | .callWait wait context =>
      if (world.waits wait).pc = .idle then
        match context with
        | .error reason => some (world.moveWait wait (.finished (.error reason)))
        | .ok () => some (world.setWait wait ⟨.entering, .create⟩)
      else none
  | .enter wait =>
      if (world.waits wait).pc = .entering ∧ world.holder = none then some (world.enter wait)
      else none
  | .register wait keep =>
      if (world.waits wait).pc = .registering then
        some (world.setWait wait ⟨.callback, (world.waits wait).waiter.register keep⟩)
      else none
  | .readFlag wait =>
      if (world.waits wait).pc = .callback then
        some (world.moveWait wait (if world.requested then .notifySelf else .suspended))
      else none
  | .notifySelf wait =>
      if (world.waits wait).pc = .notifySelf then
        some (world.setWait wait ⟨.suspended, (world.waits wait).waiter.notify true⟩)
      else none
  | .resume wait =>
      if (world.waits wait).pc = .suspended ∧ (world.waits wait).waiter.signalled = true then
        some (world.moveWait wait (.resetting .completed))
      else none
  -- the deadline, the cancellation or the runtime ends the wait, before or after it began
  | .giveUp wait status =>
      if ((world.waits wait).pc = .registering ∨ (world.waits wait).pc = .suspended) ∧
          status ≠ .completed then
        some (world.moveWait wait (.resetting status))
      else none
  | .reset wait =>
      match (world.waits wait).pc with
      | .resetting status =>
          if world.holder = none then
            some { world.moveWait wait (.finished (shutdownAnswer status)) with slot := none }
          else none
      | _ => none

end

end SignalWorld

/-- Every interleaving of any number of requests and waits, from an application that was
not asked to shut down. -/
def signalMachine [Infra] : Machine SignalWorld SignalStep where
  init := fun world =>
    world = ⟨false, none, none, fun _ => .idle, fun _ => ⟨.idle, .create⟩⟩
  next := SignalWorld.next

/-! ## The invariant -/

def AwaitPc.afterRegistration : AwaitPc → Bool
  | .callback => true
  | .notifySelf => true
  | .suspended => true
  | .idle => false
  | .entering => false
  | .registering => false
  | .resetting _ => false
  | .finished _ => false

def AwaitPc.afterRequest : AwaitPc → Bool
  | .notifySelf => true
  | .resetting .completed => true
  | .finished (.ok _) => true
  | _ => false

/-- A request that has stored the flag and has not read the slot holds the mutex; it will
notify the call.  One that has read the slot found the call there. -/
def RequestPc.WillNotify (wait : Nat) : RequestPc → Prop
  | .idle => True
  | .readSlot => True
  | .notify waiter => waiter = some wait
  | .returned => False

structure SignalWorld.Sound (world : SignalWorld) : Prop where
  made : ∀ request, (world.requests request).made = true → world.requested = true
  asked : world.requested = true → ∃ request, (world.requests request).made = true
  slot : ∀ wait, (world.waits wait).pc.inSlot = true ↔ world.slot = some wait
  registered : ∀ wait, (world.waits wait).pc.afterRegistration = true →
    (world.waits wait).waiter.registered = true
  signalled : ∀ wait, (world.waits wait).waiter.signalled = true → world.requested = true
  completed : ∀ wait, (world.waits wait).pc.afterRequest = true → world.requested = true
  pending : ∀ wait, (world.waits wait).Stuck →
    ∀ request, (world.requests request).WillNotify wait

namespace SignalWorld

@[simp]
theorem waits_setWait (world : SignalWorld) (wait : Nat) (call : AwaitCall) :
    (world.setWait wait call).waits wait = call := by
  simp [setWait]

@[simp]
theorem requests_setWait (world : SignalWorld) (wait : Nat) (call : AwaitCall) :
    (world.setWait wait call).requests = world.requests := rfl

@[simp]
theorem requested_setWait (world : SignalWorld) (wait : Nat) (call : AwaitCall) :
    (world.setWait wait call).requested = world.requested := rfl

theorem waits_setWait_ne (world : SignalWorld) {wait other : Nat} (call : AwaitCall)
    (hne : other ≠ wait) : (world.setWait wait call).waits other = world.waits other := by
  simp [setWait, hne]

/-- One call of `CoWaitShutdownRequest` moves: what has to be shown of it alone. -/
theorem Sound.setWait {world : SignalWorld} (hsound : world.Sound) {wait : Nat}
    {call : AwaitCall} (slot : Option Nat)
    (hself : call.pc.inSlot = true ↔ slot = some wait)
    (hothers : ∀ other, other ≠ wait → (slot = some other ↔ world.slot = some other))
    (hregistered : call.pc.afterRegistration = true → call.waiter.registered = true)
    (hsignalled : call.waiter.signalled = true → world.requested = true)
    (hcompleted : call.pc.afterRequest = true → world.requested = true)
    (hpending : call.Stuck → ∀ request, (world.requests request).WillNotify wait) :
    SignalWorld.Sound { world.setWait wait call with slot := slot } := by
  constructor
  · exact hsound.made
  · exact hsound.asked
  · intro other
    by_cases heq : other = wait
    · subst heq
      simpa using hself
    · simp only [waits_setWait_ne world call heq, hsound.slot other, hothers other heq]
  · intro other
    by_cases heq : other = wait
    · subst heq
      simpa using hregistered
    · simpa [waits_setWait_ne world call heq] using hsound.registered other
  · intro other
    by_cases heq : other = wait
    · subst heq
      simpa using hsignalled
    · simpa [waits_setWait_ne world call heq] using hsound.signalled other
  · intro other
    by_cases heq : other = wait
    · subst heq
      simpa using hcompleted
    · simpa [waits_setWait_ne world call heq] using hsound.completed other
  · intro other
    by_cases heq : other = wait
    · subst heq
      simpa using hpending
    · simpa [waits_setWait_ne world call heq] using hsound.pending other

/-- A call that moves and leaves the slot alone. -/
theorem Sound.keepSlot {world : SignalWorld} (hsound : world.Sound) {wait : Nat}
    {call : AwaitCall} (hslot : call.pc.inSlot = (world.waits wait).pc.inSlot)
    (hregistered : call.pc.afterRegistration = true → call.waiter.registered = true)
    (hsignalled : call.waiter.signalled = true → world.requested = true)
    (hcompleted : call.pc.afterRequest = true → world.requested = true)
    (hpending : call.Stuck → ∀ request, (world.requests request).WillNotify wait) :
    (world.setWait wait call).Sound := by
  refine hsound.setWait world.slot ?_ (fun _ _ => Iff.rfl) hregistered hsignalled
    hcompleted hpending
  rw [hslot]
  exact hsound.slot wait

theorem Sound.setRequest {world : SignalWorld} (hsound : world.Sound) {request : Nat}
    {pc : RequestPc} (holder : Option Nat) (flag : Bool) (hflag : flag = true)
    (hmade : pc.made = true) (hpending : ∀ wait, (world.waits wait).Stuck → pc.WillNotify wait) :
    SignalWorld.Sound { world.setRequest request pc with
      requested := flag
      holder := holder } := by
  constructor
  · exact fun _ _ => hflag
  · refine fun _ => ⟨request, ?_⟩
    simpa [SignalWorld.setRequest] using hmade
  · exact hsound.slot
  · exact hsound.registered
  · exact fun _ _ => hflag
  · exact fun _ _ => hflag
  · intro wait hstuck other
    by_cases heq : other = request
    · subst heq
      simpa [SignalWorld.setRequest] using hpending wait hstuck
    · simpa [SignalWorld.setRequest, Function.update_of_ne heq] using
        hsound.pending wait hstuck other

/-- A notification reaches a suspended call, whose waiter is registered. -/
theorem Sound.signal {world : SignalWorld} (hsound : world.Sound)
    (hrequested : world.requested = true) (wait : Nat) (keep : Bool) :
    (world.signal wait keep).Sound ∧ ¬((world.signal wait keep).waits wait).Stuck := by
  have hawake : ¬((world.signal wait keep).waits wait).Stuck := by
    unfold SignalWorld.signal
    rw [waits_setWait]
    rintro ⟨hpc, hsilent⟩
    have hregistered : (world.waits wait).waiter.registered = true :=
      hsound.registered wait (by rw [hpc]; rfl)
    rw [Waiter.signalled_notify hregistered] at hsilent
    cases hsilent
  refine ⟨?_, hawake⟩
  unfold SignalWorld.signal at hawake ⊢
  rw [waits_setWait] at hawake
  exact hsound.keepSlot rfl (hsound.registered wait) (fun _ => hrequested)
    (fun _ => hrequested) (fun hstuck => absurd hstuck hawake)

theorem Sound.readFlag {world : SignalWorld} (hsound : world.Sound) {wait : Nat}
    (hcallback : (world.waits wait).pc = .callback) :
    (world.moveWait wait (if world.requested then .notifySelf else .suspended)).Sound := by
  have hregistered : (world.waits wait).waiter.registered = true :=
    hsound.registered wait (by rw [hcallback]; rfl)
  split
  case isTrue hrequested =>
    apply hsound.keepSlot
    · rw [hcallback]
      rfl
    · exact fun _ => hregistered
    · exact hsound.signalled wait
    · exact fun _ => hrequested
    · simp [AwaitCall.Stuck]
  case isFalse hquiet =>
    apply hsound.keepSlot
    · rw [hcallback]
      rfl
    · exact fun _ => hregistered
    · exact hsound.signalled wait
    · simp [AwaitPc.afterRequest]
    · intro _ request
      cases hrequest : world.requests request with
      | idle | readSlot => trivial
      | notify waiter | returned =>
          exact absurd (hsound.made request (by rw [hrequest]; rfl)) hquiet

theorem Sound.notify {world : SignalWorld} (hsound : world.Sound) {request wait : Nat}
    (hnotify : world.requests request = .notify (some wait)) (keep : Bool) :
    ((world.signal wait keep).setRequest request .returned).Sound := by
  have hrequested : world.requested = true :=
    hsound.made request (by rw [hnotify]; rfl)
  obtain ⟨hsignalled, hawake⟩ := hsound.signal hrequested wait keep
  refine hsignalled.setRequest world.holder world.requested hrequested rfl ?_
  intro other hstuck
  by_cases heq : other = wait
  · subst heq
    exact hawake hstuck
  · -- another suspended call would have been in the slot
    rw [SignalWorld.signal, waits_setWait_ne world _ heq] at hstuck
    have hother := hsound.pending other hstuck request
    rw [hnotify] at hother
    exact heq (Option.some.inj hother).symm

section

variable [Infra]

theorem Sound.enter {world : SignalWorld} (hsound : world.Sound) {wait : Nat}
    (hentering : (world.waits wait).pc = .entering) : (world.enter wait).Sound := by
  unfold SignalWorld.enter
  split
  case isTrue =>
    apply hsound.keepSlot
    · rw [hentering]
      rfl
    · simp [AwaitPc.afterRegistration]
    · exact hsound.signalled wait
    · simp [AwaitPc.afterRequest]
    · simp [AwaitCall.Stuck]
  case isFalse hfree =>
    split
    case isTrue hrequested =>
      apply hsound.keepSlot
      · rw [hentering]
        rfl
      · simp [AwaitPc.afterRegistration]
      · exact hsound.signalled wait
      · exact fun _ => hrequested
      · simp [AwaitCall.Stuck]
    case isFalse =>
      have hnone : world.slot = none := by simpa using hfree
      apply hsound.setWait
      · simp [AwaitPc.inSlot]
      · intro other hne
        simp [hnone, Ne.symm hne]
      · simp [AwaitPc.afterRegistration]
      · exact hsound.signalled wait
      · simp [AwaitPc.afterRequest]
      · simp [AwaitCall.Stuck]

/-- Every step keeps the invariant. -/
theorem Sound.next {before after : SignalWorld} {step : SignalStep} (hsound : before.Sound)
    (hnext : before.next step = some after) : after.Sound := by
  cases step with
  | store request =>
      simp only [SignalWorld.next, Option.ite_none_right_eq_some, Option.some.injEq] at hnext
      obtain ⟨-, rfl⟩ := hnext
      exact hsound.setRequest (some request) true rfl rfl (fun _ _ => trivial)
  | readSlot request =>
      simp only [SignalWorld.next, Option.ite_none_right_eq_some, Option.some.injEq] at hnext
      obtain ⟨hreading, rfl⟩ := hnext
      have hrequested : before.requested = true :=
        hsound.made request (by rw [hreading]; rfl)
      refine hsound.setRequest none before.requested hrequested rfl ?_
      intro wait hstuck
      exact (hsound.slot wait).mp (by rw [hstuck.1]; rfl)
  | notify request keep =>
      simp only [SignalWorld.next] at hnext
      split at hnext
      case h_1 hnotify =>
        cases hnext
        have hrequested : before.requested = true :=
          hsound.made request (by rw [hnotify]; rfl)
        refine hsound.setRequest before.holder before.requested hrequested rfl ?_
        intro wait hstuck
        have hwait := hsound.pending wait hstuck request
        rw [hnotify] at hwait
        cases hwait
      case h_2 wait hnotify =>
        cases hnext
        exact hsound.notify hnotify keep
      case h_3 => cases hnext
  | callWait wait context =>
      simp only [SignalWorld.next, Option.ite_none_right_eq_some] at hnext
      obtain ⟨hidle, hnext⟩ := hnext
      cases context with
      | error reason =>
          cases hnext
          apply hsound.keepSlot
          · rw [hidle]
            rfl
          · simp [AwaitPc.afterRegistration]
          · exact hsound.signalled wait
          · simp [AwaitPc.afterRequest]
          · simp [AwaitCall.Stuck]
      | ok done =>
          cases hnext
          apply hsound.keepSlot
          · rw [hidle]
            rfl
          · simp [AwaitPc.afterRegistration]
          · simp [Waiter.create]
          · simp [AwaitPc.afterRequest]
          · simp [AwaitCall.Stuck]
  | enter wait =>
      simp only [SignalWorld.next, Option.ite_none_right_eq_some, Option.some.injEq] at hnext
      obtain ⟨⟨hentering, -⟩, rfl⟩ := hnext
      exact hsound.enter hentering
  | register wait keep =>
      simp only [SignalWorld.next, Option.ite_none_right_eq_some, Option.some.injEq] at hnext
      obtain ⟨hregistering, rfl⟩ := hnext
      apply hsound.keepSlot
      · rw [hregistering]
        rfl
      · exact fun _ => rfl
      · exact fun hsignalled => hsound.signalled wait (Waiter.signalled_of_register hsignalled)
      · simp [AwaitPc.afterRequest]
      · simp [AwaitCall.Stuck]
  | readFlag wait =>
      simp only [SignalWorld.next, Option.ite_none_right_eq_some, Option.some.injEq] at hnext
      obtain ⟨hcallback, rfl⟩ := hnext
      exact hsound.readFlag hcallback
  | notifySelf wait =>
      simp only [SignalWorld.next, Option.ite_none_right_eq_some, Option.some.injEq] at hnext
      obtain ⟨hself, rfl⟩ := hnext
      have hregistered : (before.waits wait).waiter.registered = true :=
        hsound.registered wait (by rw [hself]; rfl)
      have hrequested : before.requested = true := hsound.completed wait (by rw [hself]; rfl)
      apply hsound.keepSlot
      · rw [hself]
        rfl
      · exact fun _ => hregistered
      · exact fun _ => hrequested
      · simp [AwaitPc.afterRequest]
      · rintro ⟨-, hsilent⟩
        rw [Waiter.signalled_notify hregistered] at hsilent
        cases hsilent
  | resume wait =>
      simp only [SignalWorld.next, Option.ite_none_right_eq_some, Option.some.injEq] at hnext
      obtain ⟨⟨hsuspended, hsignalled⟩, rfl⟩ := hnext
      apply hsound.keepSlot
      · rw [hsuspended]
        rfl
      · simp [AwaitPc.afterRegistration]
      · exact hsound.signalled wait
      · exact fun _ => hsound.signalled wait hsignalled
      · simp [AwaitCall.Stuck]
  | giveUp wait status =>
      simp only [SignalWorld.next, Option.ite_none_right_eq_some, Option.some.injEq] at hnext
      obtain ⟨⟨hwaiting, hstatus⟩, rfl⟩ := hnext
      apply hsound.keepSlot
      · rcases hwaiting with hpc | hpc
        · rw [hpc]
          rfl
        · rw [hpc]
          rfl
      · simp [AwaitPc.afterRegistration]
      · exact hsound.signalled wait
      · cases status with
        | completed => exact absurd rfl hstatus
        | _ => simp [AwaitPc.afterRequest]
      · simp [AwaitCall.Stuck]
  | reset wait =>
      simp only [SignalWorld.next] at hnext
      split at hnext
      case h_1 status hresetting =>
        simp only [Option.ite_none_right_eq_some, Option.some.injEq] at hnext
        obtain ⟨-, rfl⟩ := hnext
        have hslot : before.slot = some wait :=
          (hsound.slot wait).mp (by rw [hresetting]; rfl)
        apply hsound.setWait
        · simp [AwaitPc.inSlot]
        · intro other hne
          simp [hslot, Ne.symm hne]
        · simp [AwaitPc.afterRegistration]
        · exact hsound.signalled wait
        · cases status with
          | completed => exact fun _ => hsound.completed wait (by rw [hresetting]; rfl)
          | _ => simp [shutdownAnswer, AwaitPc.afterRequest]
        · simp [AwaitCall.Stuck]
      case h_2 => cases hnext

theorem sound_of_reachable {world : SignalWorld} (hreach : signalMachine.Reachable world) :
    world.Sound := by
  refine hreach.induct (motive := fun world => world.Sound) ?_ ?_
  · rintro first rfl
    constructor
    · simp [RequestPc.made]
    · simp
    · simp [AwaitPc.inSlot]
    · simp [AwaitPc.afterRegistration]
    · simp [Waiter.create]
    · simp [AwaitPc.afterRequest]
    · simp [AwaitCall.Stuck]
  · intro before step after _ ih _ hnext
    exact ih.next hnext

/-- No step takes a request back. -/
theorem requested_of_next {before after : SignalWorld} {step : SignalStep}
    (hnext : before.next step = some after) (hrequested : before.requested = true) :
    after.requested = true := by
  cases step with
  | enter wait =>
      simp only [SignalWorld.next, Option.ite_none_right_eq_some, Option.some.injEq] at hnext
      obtain ⟨-, rfl⟩ := hnext
      unfold SignalWorld.enter
      split
      · exact hrequested
      · exact hrequested
  | callWait wait context =>
      simp only [SignalWorld.next, Option.ite_none_right_eq_some] at hnext
      obtain ⟨-, hnext⟩ := hnext
      cases context with
      | error reason =>
          cases hnext
          exact hrequested
      | ok done =>
          cases hnext
          exact hrequested
  | _ =>
      grind [SignalWorld.next, SignalWorld.setRequest, SignalWorld.setWait,
        SignalWorld.moveWait, SignalWorld.signal]

theorem requested_of_run {first last : SignalWorld} {labels : List SignalStep}
    (hrun : signalMachine.Run (fun _ _ => True) first labels last)
    (hrequested : first.requested = true) : last.requested = true := by
  induction hrun with
  | refl => exact hrequested
  | tail _ _ hnext ih => exact requested_of_next hnext ih

end

end SignalWorld

section

variable [Infra]

/-- In every interleaving: a request that has returned leaves no call suspended; an `ok`
answers a request; a request stays for the next wait, whatever became of earlier ones; and
one call at most has its waiter in the slot. -/
theorem shutdown_requests_never_lost {world : SignalWorld}
    (hreach : signalMachine.Reachable world) :
    (∀ request, world.requests request = .returned → ∀ wait, ¬(world.waits wait).Stuck) ∧
      (∀ wait, (world.waits wait).pc = .finished (.ok ()) →
        ∃ request, (world.requests request).made = true) ∧
      (∀ request, (world.requests request).made = true →
        ∀ labels last, signalMachine.Run (fun _ _ => True) world labels last →
          last.requested = true ∧
            ∀ wait, (last.waits wait).pc = .entering → last.holder = none →
              (∀ other, (last.waits other).pc.inSlot = false) →
              last.next (.enter wait) = some (last.moveWait wait (.finished (.ok ())))) ∧
      ∀ first second, (world.waits first).pc.inSlot = true →
        (world.waits second).pc.inSlot = true → first = second := by
  have hsound := SignalWorld.sound_of_reachable hreach
  refine ⟨?_, ?_, ?_, ?_⟩
  · intro request hreturned wait hstuck
    have hpending := hsound.pending wait hstuck request
    rwa [hreturned] at hpending
  · intro wait hok
    exact hsound.asked (hsound.completed wait (by rw [hok]; rfl))
  · intro request hmade labels last hrun
    have hlast := SignalWorld.sound_of_reachable (hreach.run hrun)
    have hrequested : last.requested = true :=
      SignalWorld.requested_of_run hrun (hsound.made request hmade)
    refine ⟨hrequested, ?_⟩
    intro wait hentering hfree hothers
    have hslot : last.slot = none := by
      rw [Option.eq_none_iff_forall_ne_some]
      intro other hin
      have hother := (hlast.slot other).mpr hin
      rw [hothers other] at hother
      cases hother
    have henter : last.enter wait = last.moveWait wait (.finished (.ok ())) := by
      simp [SignalWorld.enter, hslot, hrequested]
    simp only [SignalWorld.next, hentering, hfree, and_self, if_true, henter]
  · intro first second hfirst hsecond
    have hboth := (hsound.slot first).mp hfirst
    rw [(hsound.slot second).mp hsecond] at hboth
    exact (Option.some.inj hboth).symm

end

/-- A request that falls into a wait that times out: the next wait has it. -/
theorem shutdown_requests_never_lost_timeout :
    letI := permissiveInfra
    ∃ world after, signalMachine.Reachable world ∧ world.requests 0 = .returned ∧
      (world.waits 0).pc = .finished (SignalWorld.shutdownAnswer .timedOut) ∧
      ¬(world.waits 0).Stuck ∧ world.requested = true ∧
      (world.waits 1).pc = .entering ∧ world.next (.enter 1) = some after ∧
      (after.waits 1).pc = .finished (.ok ()) := by
  let _ := permissiveInfra
  have hboot : signalMachine.Reachable
      ⟨false, none, none, fun _ => .idle, fun _ => ⟨.idle, .create⟩⟩ := .start rfl
  obtain ⟨world, hreach, htest⟩ := hboot.exec_any
    (fun _ _ => true) (fun _ _ _ => trivial)
    [.callWait 0 (.ok ()), .enter 0, .register 0 false, .readFlag 0, .giveUp 0 .timedOut,
      .store 0, .readSlot 0, .reset 0, .notify 0 false, .callWait 1 (.ok ())]
    (fun world => decide (world.requests 0 = .returned ∧
      (world.waits 0).pc = .finished (SignalWorld.shutdownAnswer .timedOut) ∧
      (world.waits 1).pc = .entering ∧ world.holder = none ∧ world.slot = none))
    (by decide)
  obtain ⟨hreturned, htimedOut, hentering, hfree, hslot⟩ := of_decide_eq_true htest
  obtain ⟨hawake, -, hstays, -⟩ := shutdown_requests_never_lost hreach
  obtain ⟨hrequested, hnextWait⟩ := hstays 0 (by rw [hreturned]; rfl) [] world .refl
  have hothers : ∀ other, (world.waits other).pc.inSlot = false := by
    intro other
    rw [← Bool.not_eq_true, (SignalWorld.sound_of_reachable hreach).slot other, hslot]
    simp
  refine ⟨world, _, hreach, hreturned, htimedOut, hawake 0 hreturned 0, hrequested, hentering,
    hnextWait 1 hentering hfree hothers, ?_⟩
  simp [SignalWorld.moveWait]

end BbtFramework.App
