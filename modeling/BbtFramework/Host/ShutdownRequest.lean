import BbtFramework.Library.Machine
import Mathlib.Logic.Function.Basic

/-!
# Shutdown requests

The thread in `HostLifecycle::Run` waits for a request under `m_mtx`, while
`RequestShutdown` stores its flag and notifies without that mutex.  A
notification that falls between the false reading of the predicate and the
block wakes nobody.  This module runs the two sides one atomic action at a
time and shows that this window is the only way to lose a request.
-/

namespace BbtFramework.Host

open BbtFramework.Library

/-- Who holds one of the two mutexes. -/
inductive Holder where
  | run
  | request (caller : Nat)
  | observer
  deriving DecidableEq, Repr

/-- Where the thread in `CoApp::run` and `HostLifecycle::Run` stands.  Each
position names the atomic action that comes next. -/
inductive RunPc where
  | publishLock
  | publishWrite
  | publishUnlock
  | startUp
  | fastRequest
  | fastExternal
  | waitLock
  | evalRequest
  | evalExternal
  | block
  | blocked
  | woken
  | waitUnlock
  | shutDown
  | revokeLock
  | revokeWrite
  | revokeUnlock
  | finished
  deriving DecidableEq, Repr

/-- A request goes to the lifecycle itself or through the application. -/
inductive Entry where
  | direct
  | coApp
  deriving DecidableEq, Repr

/-- Where one call of `RequestShutdown` or `CoApp::request_shutdown` stands. -/
inductive RequestPc where
  | idle
  | storeExternal
  | lockLifecycle
  | readLifecycle
  | store (entry : Entry)
  | notify (entry : Entry)
  | unlockLifecycle
  | returned
  deriving DecidableEq, Repr

/-- The shared state.  `externalRequest` is `none` for a lifecycle built without
an external flag; `lifecycle` tells whether `m_lifecycle` is non-null. -/
structure ShutdownWorld where
  shutdownReq : Bool
  externalRequest : Option Bool
  lifecycle : Bool
  lifecycleMtx : Option Holder
  mtx : Option Holder
  run : RunPc
  requests : Nat → RequestPc

/-- The two mutexes of this protocol. -/
inductive Mutex where
  | lifecycleMtx
  | mtx
  deriving DecidableEq, Repr

/-- One atomic action.  `run` carries the outcome of `_StartUp`, which only the
start-up position reads; observers are the readers of phase and failures. -/
inductive ShutdownStep where
  | run (started : Bool)
  | call (caller : Nat) (entry : Entry)
  | request (caller : Nat)
  | observe (mutex : Mutex)
  deriving DecidableEq, Repr

namespace ShutdownWorld

/-- The next action of the run thread. -/
def runNext (world : ShutdownWorld) (started : Bool) : Option ShutdownWorld :=
  match world.run with
  | .publishLock =>
      if world.lifecycleMtx = none then
        some { world with lifecycleMtx := some .run, run := .publishWrite }
      else none
  | .publishWrite =>
      some { world with lifecycle := true, run := .publishUnlock }
  | .publishUnlock =>
      some { world with lifecycleMtx := none, run := .startUp }
  | .startUp =>
      some { world with run := if started then .fastRequest else .shutDown }
  | .fastRequest =>
      some { world with
        run := if world.shutdownReq then .shutDown else .fastExternal }
  | .fastExternal =>
      some { world with
        run := if world.externalRequest = some true then .shutDown
          else .waitLock }
  | .waitLock =>
      if world.mtx = none then
        some { world with mtx := some .run, run := .evalRequest }
      else none
  -- The predicate of `m_cv.wait` is two loads under `m_mtx`.
  | .evalRequest =>
      some { world with
        run := if world.shutdownReq then .waitUnlock else .evalExternal }
  | .evalExternal =>
      some { world with
        run := if world.externalRequest = some true then .waitUnlock
          else .block }
  | .block => some { world with mtx := none, run := .blocked }
  | .blocked => none
  | .woken =>
      if world.mtx = none then
        some { world with mtx := some .run, run := .evalRequest }
      else none
  | .waitUnlock => some { world with mtx := none, run := .shutDown }
  | .shutDown => some { world with run := .revokeLock }
  | .revokeLock =>
      if world.lifecycleMtx = none then
        some { world with lifecycleMtx := some .run, run := .revokeWrite }
      else none
  | .revokeWrite =>
      some { world with lifecycle := false, run := .revokeUnlock }
  | .revokeUnlock =>
      some { world with lifecycleMtx := none, run := .finished }
  | .finished => none

/-- `world` with the given call at another position. -/
def setRequest (world : ShutdownWorld) (caller : Nat) (pc : RequestPc) :
    ShutdownWorld :=
  { world with requests := Function.update world.requests caller pc }

/-- `notify_all` wakes the run thread when it is blocked and nobody else. -/
def notifyAll (world : ShutdownWorld) : ShutdownWorld :=
  { world with run := if world.run = .blocked then .woken else world.run }

/-- A fresh call; the application's entry exists with its external flag only. -/
def call (world : ShutdownWorld) (caller : Nat) (entry : Entry) :
    Option ShutdownWorld :=
  match world.requests caller, entry with
  | .idle, .direct => some (world.setRequest caller (.store .direct))
  | .idle, .coApp =>
      if world.externalRequest.isSome then
        some (world.setRequest caller .storeExternal)
      else none
  | _, _ => none

def requestNext (world : ShutdownWorld) (caller : Nat) : Option ShutdownWorld :=
  match world.requests caller with
  | .idle => none
  | .storeExternal =>
      some ({ world with externalRequest := some true }.setRequest caller
        .lockLifecycle)
  | .lockLifecycle =>
      if world.lifecycleMtx = none then
        some ({ world with lifecycleMtx := some (.request caller) }.setRequest
          caller .readLifecycle)
      else none
  | .readLifecycle =>
      some (world.setRequest caller
        (if world.lifecycle then .store .coApp else .unlockLifecycle))
  | .store entry =>
      some ({ world with shutdownReq := true }.setRequest caller (.notify entry))
  | .notify .direct => some (world.notifyAll.setRequest caller .returned)
  | .notify .coApp => some (world.notifyAll.setRequest caller .unlockLifecycle)
  | .unlockLifecycle =>
      some ({ world with lifecycleMtx := none }.setRequest caller .returned)
  | .returned => none

/-- An observer takes or gives back a mutex. -/
def observe (world : ShutdownWorld) : Mutex → Option ShutdownWorld
  | .lifecycleMtx =>
      match world.lifecycleMtx with
      | none => some { world with lifecycleMtx := some .observer }
      | some .observer => some { world with lifecycleMtx := none }
      | some _ => none
  | .mtx =>
      match world.mtx with
      | none => some { world with mtx := some .observer }
      | some .observer => some { world with mtx := none }
      | some _ => none

end ShutdownWorld

/-- Every interleaving of one run thread, any number of calls and observers. -/
def shutdownMachine : Machine ShutdownWorld ShutdownStep where
  init world :=
    world.shutdownReq = false ∧ world.externalRequest ≠ some true ∧
    world.lifecycle = false ∧ world.lifecycleMtx = none ∧ world.mtx = none ∧
    world.run = .publishLock ∧ ∀ caller, world.requests caller = .idle
  next world
    | .run started => world.runNext started
    | .call caller entry => world.call caller entry
    | .request caller => world.requestNext caller
    | .observe mutex => world.observe mutex

/-- `RequestShutdown` has returned; a call through the application may still
have to give back `m_lifecycle_mtx`. -/
def RequestPc.HasReturned : RequestPc → Prop
  | .unlockLifecycle => True
  | .returned => True
  | _ => False

/-- The run thread is blocked, nobody woke it and some request has returned. -/
def LostRequest (world : ShutdownWorld) : Prop :=
  world.run = .blocked ∧ ∃ caller, (world.requests caller).HasReturned

/-- The run thread has read every flag it looks at as false and has not blocked
yet: a notification would reach nobody. -/
def InWindow (world : ShutdownWorld) : Prop :=
  world.run = .block ∨
    (world.run = .evalExternal ∧ world.externalRequest ≠ some true)

instance (world : ShutdownWorld) : Decidable (InWindow world) :=
  inferInstanceAs (Decidable (_ ∨ _))

def NotifiesOutsideWindow (world : ShutdownWorld) : ShutdownStep → Prop
  | .request caller =>
      (world.requests caller = .notify .direct ∨
        world.requests caller = .notify .coApp) → ¬ InWindow world
  | _ => True

instance (world : ShutdownWorld) :
    (step : ShutdownStep) → Decidable (NotifiesOutsideWindow world step)
  | .request _ => inferInstanceAs (Decidable (_ → _))
  | .run _ => inferInstanceAs (Decidable True)
  | .call _ _ => inferInstanceAs (Decidable True)
  | .observe _ => inferInstanceAs (Decidable True)

/-! ## The invariant -/

/-- The flags a call has raised by the position it reached. -/
def Raised (world : ShutdownWorld) : RequestPc → Prop
  | .idle => True
  | .storeExternal => True
  | .lockLifecycle => world.externalRequest = some true
  | .readLifecycle => world.externalRequest = some true
  | .store .direct => True
  | .store .coApp => world.externalRequest = some true
  | .notify .direct => world.shutdownReq = true
  | .notify .coApp =>
      world.shutdownReq = true ∧ world.externalRequest = some true
  | .unlockLifecycle =>
      world.shutdownReq = true ∨ world.externalRequest = some true
  | .returned => world.shutdownReq = true ∨ world.externalRequest = some true

/-- The positions at which `m_lifecycle` points to the lifecycle. -/
def RunPc.isPublished : RunPc → Bool
  | .publishLock => false
  | .publishWrite => false
  | .revokeUnlock => false
  | .finished => false
  | _ => true

/-- The positions after a false reading of `m_shutdown_req` in the predicate up
to the next evaluation. -/
def RunPc.hasReadFalse : RunPc → Bool
  | .evalExternal => true
  | .block => true
  | .blocked => true
  | _ => false

/-- What flags, pointer and positions agree on in every state. -/
structure Handshake (world : ShutdownWorld) : Prop where
  raised : ∀ caller, Raised world (world.requests caller)
  published : world.lifecycle = world.run.isPublished
  pending : world.run.hasReadFalse = true →
    ∀ caller, (world.requests caller).HasReturned →
      world.run = .evalExternal ∧ world.externalRequest = some true

theorem Raised.mono {before after : ShutdownWorld} {pc : RequestPc}
    (hraised : Raised before pc)
    (hrequest : before.shutdownReq = true → after.shutdownReq = true)
    (hexternal : before.externalRequest = some true →
      after.externalRequest = some true) : Raised after pc := by
  cases pc with
  | idle => trivial
  | storeExternal => trivial
  | lockLifecycle => exact hexternal hraised
  | readLifecycle => exact hexternal hraised
  | store entry =>
      cases entry with
      | direct => trivial
      | coApp => exact hexternal hraised
  | notify entry =>
      cases entry with
      | direct => exact hrequest hraised
      | coApp => exact ⟨hrequest hraised.1, hexternal hraised.2⟩
  | unlockLifecycle => exact hraised.imp hrequest hexternal
  | returned => exact hraised.imp hrequest hexternal

theorem Raised.flag {world : ShutdownWorld} {pc : RequestPc}
    (hraised : Raised world pc) (hreturned : pc.HasReturned) :
    world.shutdownReq = true ∨ world.externalRequest = some true := by
  cases pc with
  | unlockLifecycle => exact hraised
  | returned => exact hraised
  | _ => exact hreturned.elim

/-- A step of the run thread that keeps the flags and the calls keeps the
invariant when the pointer follows its position and it does not move on past
a flag. -/
theorem Handshake.run {before after : ShutdownWorld} (hshake : Handshake before)
    (hrequest : after.shutdownReq = before.shutdownReq)
    (hexternal : after.externalRequest = before.externalRequest)
    (hrequests : after.requests = before.requests)
    (hpublished : after.lifecycle = after.run.isPublished)
    (hmoves : after.run.hasReadFalse = true →
      (before.run = .evalRequest ∧ before.shutdownReq = false ∧
        after.run = .evalExternal) ∨
      (before.run = .evalExternal ∧ before.externalRequest ≠ some true) ∨
      before.run = .block) : Handshake after := by
  constructor
  · intro caller
    rw [hrequests]
    apply (hshake.raised caller).mono
    · rw [hrequest]
      exact id
    · rw [hexternal]
      exact id
  · exact hpublished
  · intro hread caller hreturned
    rw [hrequests] at hreturned
    rw [hexternal]
    rcases hmoves hread with ⟨hrun, hfalse, hafter⟩ | ⟨hrun, hfalse⟩ | hrun
    · -- The reading is false, so the returned call raised the other flag.
      rcases (hshake.raised caller).flag hreturned with htrue | htrue
      · rw [hfalse] at htrue
        cases htrue
      · exact ⟨hafter, htrue⟩
    · exact absurd (hshake.pending (by rw [hrun]; rfl) caller hreturned).2 hfalse
    · have hearlier := (hshake.pending (by rw [hrun]; rfl) caller hreturned).1
      rw [hrun] at hearlier
      cases hearlier

/-- A step of one call keeps the invariant when it raises the flags of its new
position and, on its return, the run thread is not past a false reading. -/
theorem Handshake.request {before after : ShutdownWorld} {caller : Nat}
    {pc : RequestPc} (hshake : Handshake before)
    (hrequest : before.shutdownReq = true → after.shutdownReq = true)
    (hexternal : before.externalRequest = some true →
      after.externalRequest = some true)
    (hlifecycle : after.lifecycle = before.lifecycle)
    (hrun : after.run = before.run ∨
      (before.run = .blocked ∧ after.run = .woken))
    (hrequests : after.requests = Function.update before.requests caller pc)
    (hraised : Raised after pc)
    (hreturns : pc.HasReturned → (before.requests caller).HasReturned ∨
      (after.run.hasReadFalse = true →
        after.run = .evalExternal ∧ after.externalRequest = some true)) :
    Handshake after := by
  constructor
  · intro other
    rw [hrequests, Function.update_apply]
    split
    · exact hraised
    · exact (hshake.raised other).mono hrequest hexternal
  · rw [hlifecycle, hshake.published]
    rcases hrun with hsame | ⟨hblocked, hwoken⟩
    · rw [hsame]
    · rw [hblocked, hwoken]
      rfl
  · intro hread other hreturned
    have hsame : after.run = before.run := by
      rcases hrun with hsame | ⟨-, hwoken⟩
      · exact hsame
      · rw [hwoken] at hread
        cases hread
    rw [hrequests, Function.update_apply] at hreturned
    have hearlier : (before.requests other).HasReturned →
        after.run = .evalExternal ∧ after.externalRequest = some true := by
      intro hreturned
      rw [hsame] at hread ⊢
      exact (hshake.pending hread other hreturned).imp id hexternal
    split at hreturned
    case isFalse => exact hearlier hreturned
    case isTrue heq =>
      subst heq
      rcases hreturns hreturned with hold | hnew
      · exact hearlier hold
      · exact hnew hread

theorem runNext_handshake {before after : ShutdownWorld} {started : Bool}
    (hshake : Handshake before) (hnext : before.runNext started = some after) :
    Handshake after := by
  have hpublished := hshake.published
  unfold ShutdownWorld.runNext at hnext
  cases hrun : before.run with
  | publishLock | waitLock | woken | revokeLock =>
      simp only [hrun, Option.ite_none_right_eq_some, Option.some.injEq] at hnext
      obtain ⟨-, rfl⟩ := hnext
      apply hshake.run <;> simp_all [RunPc.isPublished, RunPc.hasReadFalse]
  | startUp =>
      simp only [hrun, Option.some.injEq] at hnext
      subst hnext
      cases started <;>
        apply hshake.run <;> simp_all [RunPc.isPublished, RunPc.hasReadFalse]
  | fastRequest | evalRequest =>
      simp only [hrun, Option.some.injEq] at hnext
      subst hnext
      cases hflag : before.shutdownReq <;>
        apply hshake.run <;> simp_all [RunPc.isPublished, RunPc.hasReadFalse]
  | fastExternal | evalExternal =>
      simp only [hrun, Option.some.injEq] at hnext
      subst hnext
      by_cases hflag : before.externalRequest = some true <;>
        apply hshake.run <;> simp_all [RunPc.isPublished, RunPc.hasReadFalse]
  | blocked | finished => simp [hrun] at hnext
  | _ =>
      simp only [hrun, Option.some.injEq] at hnext
      subst hnext
      apply hshake.run <;> simp_all [RunPc.isPublished, RunPc.hasReadFalse]

theorem call_handshake {before after : ShutdownWorld} {caller : Nat}
    {entry : Entry} (hshake : Handshake before)
    (hnext : before.call caller entry = some after) : Handshake after := by
  cases hpc : before.requests caller with
  | idle =>
      cases entry with
      | direct =>
          simp only [ShutdownWorld.call, hpc, Option.some.injEq] at hnext
          subst hnext
          exact hshake.request id id rfl (.inl rfl) rfl trivial False.elim
      | coApp =>
          simp only [ShutdownWorld.call, hpc, Option.ite_none_right_eq_some,
            Option.some.injEq] at hnext
          obtain ⟨-, rfl⟩ := hnext
          exact hshake.request id id rfl (.inl rfl) rfl trivial False.elim
  | _ => simp [ShutdownWorld.call, hpc] at hnext

/-- A notification outside the window wakes the run thread or comes before it
reads the flags that make it block. -/
theorem Handshake.notify {before : ShutdownWorld} {caller : Nat}
    {pc : RequestPc} (hshake : Handshake before)
    (hraised : Raised before pc) (hwindow : ¬ InWindow before) :
    Handshake (before.notifyAll.setRequest caller pc) := by
  have hmono : Raised (before.notifyAll.setRequest caller pc) pc :=
    hraised.mono id id
  by_cases hblocked : before.run = .blocked
  · have hrun : (before.notifyAll.setRequest caller pc).run = .woken := by
      simp [ShutdownWorld.notifyAll, ShutdownWorld.setRequest, hblocked]
    refine hshake.request id id rfl (.inr ⟨hblocked, hrun⟩) rfl hmono ?_
    intro _
    right
    rw [hrun]
    intro hread
    cases hread
  · have hrun : (before.notifyAll.setRequest caller pc).run = before.run := by
      simp [ShutdownWorld.notifyAll, ShutdownWorld.setRequest, hblocked]
    refine hshake.request id id rfl (.inl hrun) rfl hmono ?_
    intro _
    right
    rw [hrun]
    intro hread
    by_cases hexternal : before.run = .evalExternal
    · refine ⟨hexternal, ?_⟩
      by_contra hunset
      exact hwindow (.inr ⟨hexternal, hunset⟩)
    · have hblock : before.run = .block := by
        cases hpc : before.run <;> simp_all [RunPc.hasReadFalse]
      exact absurd (.inl hblock) hwindow

theorem requestNext_handshake {before after : ShutdownWorld} {caller : Nat}
    (hshake : Handshake before)
    (hguard : NotifiesOutsideWindow before (.request caller))
    (hnext : before.requestNext caller = some after) : Handshake after := by
  have hraised := hshake.raised caller
  unfold ShutdownWorld.requestNext at hnext
  cases hpc : before.requests caller with
  | idle | returned => simp [hpc] at hnext
  | storeExternal =>
      simp only [hpc, Option.some.injEq] at hnext
      subst hnext
      exact hshake.request id (fun _ => rfl) rfl (.inl rfl) rfl rfl False.elim
  | lockLifecycle =>
      simp only [hpc, Option.ite_none_right_eq_some, Option.some.injEq] at hnext
      obtain ⟨-, rfl⟩ := hnext
      rw [hpc] at hraised
      exact hshake.request id id rfl (.inl rfl) rfl hraised False.elim
  | readLifecycle =>
      simp only [hpc, Option.some.injEq] at hnext
      subst hnext
      rw [hpc] at hraised
      cases hlifecycle : before.lifecycle with
      | true => exact hshake.request id id rfl (.inl rfl) rfl hraised False.elim
      | false =>
          have hflag : Raised before .unlockLifecycle := Or.inr hraised
          refine hshake.request id id rfl (.inl rfl) rfl hflag ?_
          intro _
          right
          -- A lifecycle that waits is published, so the pointer is not null.
          intro hread
          have hpublished := hshake.published
          cases hrun : before.run <;>
            simp_all [RunPc.hasReadFalse, RunPc.isPublished,
              ShutdownWorld.setRequest]
  | store entry =>
      simp only [hpc, Option.some.injEq] at hnext
      subst hnext
      rw [hpc] at hraised
      cases entry with
      | direct =>
          exact hshake.request (fun _ => rfl) id rfl (.inl rfl) rfl rfl False.elim
      | coApp =>
          exact hshake.request (fun _ => rfl) id rfl (.inl rfl) rfl ⟨rfl, hraised⟩
            False.elim
  | notify entry =>
      rw [hpc] at hraised
      cases entry with
      | direct =>
          simp only [hpc, Option.some.injEq] at hnext
          subst hnext
          exact hshake.notify (.inl hraised) (hguard (.inl hpc))
      | coApp =>
          simp only [hpc, Option.some.injEq] at hnext
          subst hnext
          exact hshake.notify (.inl hraised.1) (hguard (.inr hpc))
  | unlockLifecycle =>
      simp only [hpc, Option.some.injEq] at hnext
      subst hnext
      rw [hpc] at hraised
      have hflag : Raised before .returned := hraised
      refine hshake.request id id rfl (.inl rfl) rfl hflag ?_
      intro _
      left
      rw [hpc]
      trivial

theorem observe_handshake {before after : ShutdownWorld} {mutex : Mutex}
    (hshake : Handshake before) (hnext : before.observe mutex = some after) :
    Handshake after := by
  cases mutex with
  | lifecycleMtx =>
      simp only [ShutdownWorld.observe] at hnext
      split at hnext
      · obtain rfl := Option.some.inj hnext
        exact ⟨hshake.raised, hshake.published, hshake.pending⟩
      · obtain rfl := Option.some.inj hnext
        exact ⟨hshake.raised, hshake.published, hshake.pending⟩
      · cases hnext
  | mtx =>
      simp only [ShutdownWorld.observe] at hnext
      split at hnext
      · obtain rfl := Option.some.inj hnext
        exact ⟨hshake.raised, hshake.published, hshake.pending⟩
      · obtain rfl := Option.some.inj hnext
        exact ⟨hshake.raised, hshake.published, hshake.pending⟩
      · cases hnext

theorem reachable_handshake {world : ShutdownWorld}
    (hreach : shutdownMachine.ReachableWhere NotifiesOutsideWindow world) :
    Handshake world := by
  refine hreach.induct ?_ ?_
  · rintro world ⟨-, -, hlifecycle, -, -, hrun, hidle⟩
    constructor
    · intro caller
      rw [hidle]
      trivial
    · rw [hlifecycle, hrun]
      rfl
    · intro hread
      rw [hrun] at hread
      cases hread
  · intro before step after _ hshake hguard hnext
    cases step with
    | run started => exact runNext_handshake hshake hnext
    | call caller entry => exact call_handshake hshake hnext
    | request caller => exact requestNext_handshake hshake hguard hnext
    | observe mutex => exact observe_handshake hshake hnext

/-- No request is lost in a run without a notification inside the window. -/
theorem request_not_lost {world : ShutdownWorld}
    (hreach : shutdownMachine.ReachableWhere NotifiesOutsideWindow world) :
    ¬ LostRequest world := by
  intro ⟨hblocked, caller, hreturned⟩
  have hearlier := ((reachable_handshake hreach).pending
    (by rw [hblocked]; rfl) caller hreturned).1
  rw [hblocked] at hearlier
  cases hearlier

/-- The condition cannot be weakened: a notification inside the window is lost
by the next actions of the run thread alone. -/
theorem window_loses_request {world : ShutdownWorld} {caller : Nat}
    (hat : world.requests caller = .notify .direct ∨
      world.requests caller = .notify .coApp)
    (hwindow : InWindow world) :
    ∃ rest last,
      shutdownMachine.exec (fun _ _ => true) world (.request caller :: rest) =
        some last ∧ LostRequest last := by
  have hreturns : ∃ pc : RequestPc, pc.HasReturned ∧
      world.requestNext caller = some (world.notifyAll.setRequest caller pc) := by
    rcases hat with hat | hat
    · exact ⟨.returned, trivial, by simp [ShutdownWorld.requestNext, hat]⟩
    · exact ⟨.unlockLifecycle, trivial, by simp [ShutdownWorld.requestNext, hat]⟩
  obtain ⟨pc, hreturned, hnotify⟩ := hreturns
  have hlost : LostRequest { world.setRequest caller pc with
      mtx := none, run := .blocked } := by
    refine ⟨rfl, caller, ?_⟩
    simpa [ShutdownWorld.setRequest] using hreturned
  rcases hwindow with hrun | ⟨hrun, hunset⟩
  · refine ⟨[.run true], _, ?_, hlost⟩
    simp [Machine.exec, shutdownMachine, hnotify, ShutdownWorld.runNext,
      ShutdownWorld.notifyAll, ShutdownWorld.setRequest, hrun]
  · refine ⟨[.run true, .run true], _, ?_, hlost⟩
    simp [Machine.exec, shutdownMachine, hnotify, ShutdownWorld.runNext,
      ShutdownWorld.notifyAll, ShutdownWorld.setRequest, hrun, hunset]

/-- A lifecycle of an application before `run`. -/
def sampleShutdown : ShutdownWorld :=
  ⟨false, some false, false, none, none, .publishLock, fun _ => .idle⟩

theorem sampleShutdown_init : shutdownMachine.init sampleShutdown :=
  ⟨rfl, by decide, rfl, rfl, rfl, rfl, fun _ => rfl⟩

/-- A request through the application wakes the blocked run thread. -/
theorem request_not_lost_sample :
    ∃ world, world.run = .woken ∧ world.requests 0 = .returned ∧
      ¬ LostRequest world := by
  have hreach : shutdownMachine.ReachableWhere NotifiesOutsideWindow
      sampleShutdown := .start sampleShutdown_init
  obtain ⟨world, hworld, hstate⟩ := hreach.exec_any
    (fun world step => decide (NotifiesOutsideWindow world step))
    (fun _ _ => of_decide_eq_true)
    (List.replicate 10 (.run true) ++
      .call 0 .coApp :: List.replicate 6 (.request 0))
    (fun world => world.run = .woken ∧ world.requests 0 = .returned) (by decide)
  obtain ⟨hrun, hreturned⟩ := of_decide_eq_true hstate
  exact ⟨world, hrun, hreturned, request_not_lost hworld⟩

/-- A request whose notification falls between the false predicate and the
block returns and leaves the run thread blocked. -/
theorem request_lost_in_window :
    ∃ world, shutdownMachine.Reachable world ∧ LostRequest world := by
  have hreach : shutdownMachine.Reachable sampleShutdown :=
    .start sampleShutdown_init
  obtain ⟨world, hworld, hstate⟩ := hreach.exec_any
    (fun _ _ => true) (fun _ _ _ => trivial)
    (List.replicate 9 (.run true) ++
      .call 0 .coApp :: List.replicate 6 (.request 0) ++ [.run true])
    (fun world => world.run = .blocked ∧ world.requests 0 = .returned)
    (by decide)
  obtain ⟨hrun, hreturned⟩ := of_decide_eq_true hstate
  refine ⟨world, hworld, hrun, 0, ?_⟩
  rw [hreturned]
  trivial

end BbtFramework.Host
