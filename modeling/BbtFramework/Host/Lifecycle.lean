import BbtFramework.Host.HandlerDrain
import BbtFramework.Library.Program

/-!
# The lifecycle of a host

`HostLifecycle::Run` starts the runtime and the host, waits for the request to
shut down and takes everything down in a fixed order.  The program below makes
the calls of the source; what the host and the hooks answer, and whether they
throw, is left open.
-/

namespace BbtFramework.Host

open BbtFramework.Library

/-- How a call that may throw ends. -/
inductive CallEnd (Value : Type) where
  | returned (value : Value)
  | threw (what : String)
  | threwOther
  deriving DecidableEq

/-- The calls `Run` makes: the scheduler, the hooks and the methods of
`INetworkHost`. -/
inductive HostCall where
  | startScheduler
  | onSchedulerStarted
  | create
  | start
  | waitShutdownRequest
  | stopAccepting
  | waitHandlersDone (round : Round)
  | closeReason
  | parkUndrained
  | onHandlersDrained
  | close
  | onRelease
  deriving DecidableEq, Repr

/-- `StopAccepting`, `Close` and `CloseReason` are `noexcept`; the park never
returns. -/
@[reducible]
def HostCall.Answer : HostCall → Type
  | .startScheduler => CallEnd Unit
  | .onSchedulerStarted | .create | .start => CallEnd (Except Error Unit)
  | .waitShutdownRequest | .stopAccepting | .close => Unit
  | .waitHandlersDone _ => CallEnd (Except Error Unit)
  | .closeReason => Option Error
  | .parkUndrained => Empty
  | .onHandlersDrained | .onRelease => CallEnd Unit

abbrev HostOp :=
  Program HostCall HostCall.Answer

def perform (call : HostCall) : HostOp call.Answer :=
  Program.ask call

/-- Which of the hooks are set. -/
structure Hooks where
  onSchedulerStarted : Bool
  onHandlersDrained : Bool
  onRelease : Bool
  deriving DecidableEq, Repr

inductive Phase where
  | idle
  | starting
  | running
  | closing
  | shutdownIncomplete
  | closed
  | failed
  deriving DecidableEq, Repr

inductive ShutdownState where
  | running
  | closing
  | shutdownIncomplete
  | closed
  deriving DecidableEq, Repr

structure HostLifecycle where
  hasHost : Bool
  stepBudget : Int
  started : Bool
  hostCreated : Bool
  exceededBudget : Bool
  phase : Phase
  state : ShutdownState
  incomplete : List String
  failures : List String

def exitOk : Nat := 0
def exitRejected : Nat := 1
def exitStartFailed : Nat := 2
def exitShutdownLate : Nat := 3
def exitShutdownFailed : Nat := 4

namespace HostLifecycle

/-- A new lifecycle. -/
def fresh (hasHost : Bool) (stepBudget : Int) : HostLifecycle where
  hasHost := hasHost
  stepBudget := stepBudget
  started := false
  hostCreated := false
  exceededBudget := false
  phase := .idle
  state := .running
  incomplete := []
  failures := []

def addFailure (life : HostLifecycle) (what : String) : HostLifecycle :=
  { life with failures := life.failures ++ [what] }

def setPhase (life : HostLifecycle) (phase : Phase) : HostLifecycle :=
  { life with
    phase := phase
    state := match phase with
      | .closing => .closing
      | .shutdownIncomplete => .shutdownIncomplete
      | .closed | .failed => .closed
      | _ => .running }

def enterIncomplete (life : HostLifecycle) (step : String) : HostLifecycle :=
  { life with incomplete := life.incomplete ++ [step] }.setPhase .shutdownIncomplete

def leaveIncomplete (life : HostLifecycle) (step : String) : HostLifecycle :=
  { life with incomplete := life.incomplete.erase step }

section

variable (life : HostLifecycle) (text : String) (phase : Phase)

@[simp]
theorem failures_addFailure : (life.addFailure text).failures = life.failures ++ [text] :=
  rfl

@[simp]
theorem exceededBudget_addFailure :
    (life.addFailure text).exceededBudget = life.exceededBudget :=
  rfl

@[simp]
theorem failures_setPhase : (life.setPhase phase).failures = life.failures :=
  rfl

@[simp]
theorem exceededBudget_setPhase :
    (life.setPhase phase).exceededBudget = life.exceededBudget :=
  rfl

@[simp]
theorem hostCreated_setPhase : (life.setPhase phase).hostCreated = life.hostCreated :=
  rfl

@[simp]
theorem failures_enterIncomplete : (life.enterIncomplete text).failures = life.failures :=
  rfl

@[simp]
theorem exceededBudget_enterIncomplete :
    (life.enterIncomplete text).exceededBudget = life.exceededBudget :=
  rfl

@[simp]
theorem failures_leaveIncomplete : (life.leaveIncomplete text).failures = life.failures :=
  rfl

@[simp]
theorem exceededBudget_leaveIncomplete :
    (life.leaveIncomplete text).exceededBudget = life.exceededBudget :=
  rfl

end

def callHook {Value : Type} (given : Bool) (call : HostOp (CallEnd Value))
    (skipped : Value) : HostOp (CallEnd Value) :=
  if given then call else return .returned skipped

theorem callHook_follows {View Value : Type} {discipline : Discipline HostCall HostCall.Answer View}
    {given : Bool} {call : HostOp (CallEnd Value)} {skipped : Value} {view : View}
    {post : CallEnd Value → View → Prop}
    (hcall : given = true → Program.Follows discipline call view post)
    (hskipped : given = false → post (.returned skipped) view) :
    Program.Follows discipline (callHook given call skipped) view post := by
  cases given with
  | false => exact .pure (hskipped rfl)
  | true => exact hcall rfl

/-- `_StartUp`; an exception ends it where it is thrown. -/
def startUp (hooks : Hooks) (life : HostLifecycle) :
    HostOp (CallEnd (Except Error Unit) × HostLifecycle) := do
  let prepared : CallEnd (Except Error Unit) ←
    callHook hooks.onSchedulerStarted (perform .onSchedulerStarted) (.ok ())
  match prepared with
  | .returned (.ok ()) =>
      let created : CallEnd (Except Error Unit) ← perform .create
      match created with
      | .returned (.ok ()) =>
          let hosted := { life with hostCreated := true }
          let started : CallEnd (Except Error Unit) ← perform .start
          return (started, hosted)
      | _ => return (created, life)
  | _ => return (prepared, life)

/-- The `try` block of `Run`. -/
def tryStartUp (hooks : Hooks) (life : HostLifecycle) :
    HostOp (CallEnd (Except Error Unit) × HostLifecycle) := do
  let scheduler : CallEnd Unit ← perform .startScheduler
  match scheduler with
  | .returned () => startUp hooks life
  | .threw what => return (.threw what, life)
  | .threwOther => return (.threwOther, life)

section

variable [Infra]

/-- The handlers of the `try` block. -/
def caughtStartUp : CallEnd (Except Error Unit) → Except Error Unit
  | .returned result => result
  | .threw what => .error (makeError .internalError ("startup threw: " ++ what))
  | .threwOther =>
      .error (makeError .internalError "startup threw (non-std::exception)")

theorem caughtStartUp_ok {ended : CallEnd (Except Error Unit)} :
    caughtStartUp ended = .ok () ↔ ended = .returned (.ok ()) := by
  cases ended <;> simp [caughtStartUp]

end

/-- `_WaitHandlersDone`; nothing catches what the host throws. -/
def waitHandlersDone (life : HostLifecycle) :
    HostOp (CallEnd DrainOutcome × HostLifecycle) := do
  let first : CallEnd (Except Error Unit) ← perform (.waitHandlersDone .first)
  match first with
  | .threw what => return (.threw what, life)
  | .threwOther => return (.threwOther, life)
  | .returned (.ok ()) => return (.returned .drained, life)
  | .returned (.error error) =>
      let reason : Option Error ← perform .closeReason
      if reason.isSome then return (.returned .interrupted, life)
      else
        let timedOut : Bool := error.code = .timedOut
        let noted := if timedOut then life
          else life.addFailure ("WaitHandlersDone: " ++ error.message)
        let waiting := noted.enterIncomplete "WaitHandlersDone"
        let second : CallEnd (Except Error Unit) ← perform (.waitHandlersDone .second)
        let left := waiting.leaveIncomplete "WaitHandlersDone"
        let late := { left with exceededBudget := left.exceededBudget || timedOut }
        match second with
        | .threw what => return (.threw what, waiting)
        | .threwOther => return (.threwOther, waiting)
        | .returned (.ok ()) => return (.returned .drained, late)
        | .returned (.error again) =>
            let reason : Option Error ← perform .closeReason
            if reason.isSome then return (.returned .interrupted, late)
            else return (.returned .undrained,
              waiting.addFailure ("WaitHandlersDone: " ++ again.message))

/-- A hook that has thrown is recorded. -/
def noteDrained (life : HostLifecycle) : CallEnd Unit → HostLifecycle
  | .returned () => life
  | .threw what => life.addFailure ("on_handlers_drained: " ++ what)
  | .threwOther => life.addFailure "on_handlers_drained threw"

def noteRelease (life : HostLifecycle) : CallEnd Unit → HostLifecycle
  | .returned () => life
  | _ => life.addFailure "on_release hook threw"

/-- The end of `_ShutDown`. -/
def exitCode (life : HostLifecycle) (interrupted : Bool) : Nat :=
  if life.failures ≠ [] then
    if interrupted && life.exceededBudget then exitShutdownLate else exitShutdownFailed
  else if life.exceededBudget then exitShutdownLate
  else exitOk

def release (hooks : Hooks) (life : HostLifecycle) (interrupted : Bool) :
    HostOp (CallEnd Nat × HostLifecycle) := do
  let released : CallEnd Unit ← callHook hooks.onRelease (perform .onRelease) ()
  let last := life.noteRelease released
  return (.returned (last.exitCode interrupted), last)

def closeHost (hooks : Hooks) (life : HostLifecycle) (interrupted : Bool) :
    HostOp (CallEnd Nat × HostLifecycle) := do
  perform .close
  release hooks life interrupted

def shutDown (hooks : Hooks) (life : HostLifecycle) :
    HostOp (CallEnd Nat × HostLifecycle) := do
  let closing := life.setPhase .closing
  if closing.hostCreated then
    perform .stopAccepting
    let drained : CallEnd DrainOutcome × HostLifecycle ← closing.waitHandlersDone
    match drained with
    | (.threw what, life) => return (.threw what, life)
    | (.threwOther, life) => return (.threwOther, life)
    | (.returned .undrained, _) =>
        let never : Empty ← perform .parkUndrained
        never.elim
    | (.returned .interrupted, life) =>
        closeHost hooks
          (life.addFailure "WaitHandlersDone: interrupted by host close") true
    | (.returned .drained, life) =>
        let noted : CallEnd Unit ←
          callHook hooks.onHandlersDrained (perform .onHandlersDrained) ()
        closeHost hooks (life.noteDrained noted) false
  else release hooks closing false

section

variable [Infra]

/-- `Run`; its result is the exit code or the exception that leaves it. -/
def run (hooks : Hooks) (life : HostLifecycle) :
    HostOp (CallEnd Nat × HostLifecycle) := do
  if life.started then return (.returned exitRejected, life)
  else
    let once := { life with started := true }
    if ¬once.hasHost then
      return (.returned exitRejected,
        (once.addFailure "network host is not configured").setPhase .failed)
    else if once.stepBudget ≤ 0 then
      return (.returned exitRejected,
        (once.addFailure "step_budget must be > 0").setPhase .failed)
    else
      let started : CallEnd (Except Error Unit) × HostLifecycle ←
        tryStartUp hooks (once.setPhase .starting)
      match caughtStartUp started.1 with
      | .error error =>
          let ended : CallEnd Nat × HostLifecycle ←
            shutDown hooks (started.2.addFailure ("startup: " ++ error.message))
          match ended with
          | (.returned _, last) =>
              return (.returned exitStartFailed, last.setPhase .failed)
          | thrown => return thrown
      | .ok () =>
          perform .waitShutdownRequest
          let ended : CallEnd Nat × HostLifecycle ←
            shutDown hooks (started.2.setPhase .running)
          match ended with
          | (.returned code, last) =>
              return (.returned code, last.setPhase
                (if code = exitShutdownFailed then .failed else .closed))
          | thrown => return thrown

end

end HostLifecycle

end BbtFramework.Host
