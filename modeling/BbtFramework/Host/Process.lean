import BbtFramework.Host.LifeMoves
import BbtFramework.Library.Exclusive
import BbtFramework.Library.Reading

/-!
# Applications and the threads around them

Threads run the applications, ask them to shut down and ask for their state, in any
interleaving of the actions below.  The lifecycle of a run is published to the other threads
under a mutex.
-/

namespace BbtFramework.Host

open BbtFramework.Library

inductive ProcessAct where
  | claimActive (app : Nat)
  | releaseActive
  | exchangeRanOnce (app : Nat)
  | appendEarly (app : Nat) (failures : List String)
  | construct (app : Nat) (hasHost : Bool) (stepBudget : Int)
  | lock (app : Nat)
  | unlock (app : Nat)
  | setLifecycle (app : Nat) (pointer : Option Nat)
  | readLifecycle (app : Nat)
  | enterRun (life : Nat)
  | leaveRun (life : Nat)
  | collectFailures (app life : Nat)
  | park (app life : Nat)
  | destroy (life : Nat)
  | setShutdownReq (app : Nat)
  | requestShutdown (life : Nat)
  | state (life : Nat)
  | incompleteSteps (life : Nat)
  | failures (life : Nat)
  | parkClosing (app : Nat)
  | parkedState (app : Nat)
  | earlyFailures (app : Nat)
  deriving DecidableEq, Repr

@[reducible]
def ProcessAct.Answer : ProcessAct → Type
  | .claimActive _ | .exchangeRanOnce _ => Bool
  | .construct _ _ _ => Nat
  | .readLifecycle _ => Option Nat
  | .leaveRun _ => CallEnd Nat
  | .state _ | .parkedState _ => ShutdownState
  | .incompleteSteps _ | .failures _ | .earlyFailures _ => List String
  | _ => Unit

/-- The lifecycle object an action reads or writes. -/
def ProcessAct.object : ProcessAct → Option Nat
  | .enterRun life | .leaveRun life | .collectFailures _ life | .park _ life
  | .destroy life | .requestShutdown life | .state life | .incompleteSteps life
  | .failures life => some life
  | _ => none

namespace ProcessWorld

def fresh : ProcessWorld where
  active := none
  shells := fun _ => .fresh
  objects := []

variable (world : ProcessWorld)

def lifecycleAt (life : Nat) : Option RunObject :=
  world.objects[life]?

def modifyShell (app : Nat) (change : Shell → Shell) : ProcessWorld :=
  { world with shells := Function.update world.shells app (change (world.shells app)) }

def modifyObject (life : Nat) (change : RunObject → RunObject) : ProcessWorld :=
  { world with objects := world.objects.modify life change }

/-- A thread waits at a taken mutex; the claim, the two exchanges and what is done under
`m_mtx` are atomic.  `RequestShutdown` sets its own flag. -/
def perform : (act : ProcessAct) → CallEnd Nat → Option (act.Answer × ProcessWorld)
  | .claimActive app, _ =>
      match world.active with
      | some _ => some (false, world)
      | none => some (true, { world with active := some app })
  | .releaseActive, _ => some ((), { world with active := none })
  | .exchangeRanOnce app, _ =>
      some ((world.shells app).ranOnce,
        world.modifyShell app (fun shell => { shell with ranOnce := true }))
  | .appendEarly app failures, _ =>
      some ((), world.modifyShell app (fun shell =>
        { shell with earlyFailures := shell.earlyFailures ++ failures }))
  | .construct app hasHost stepBudget, _ =>
      some (world.objects.length, { world with
        objects := world.objects ++
          [⟨app, true, false, false, .fresh hasHost stepBudget⟩] })
  | .lock app, _ =>
      if (world.shells app).locked then none
      else some ((), world.modifyShell app (fun shell => { shell with locked := true }))
  | .unlock app, _ =>
      some ((), world.modifyShell app (fun shell => { shell with locked := false }))
  | .setLifecycle app pointer, _ =>
      some ((), world.modifyShell app (fun shell => { shell with lifecycle := pointer }))
  | .readLifecycle app, _ => some ((world.shells app).lifecycle, world)
  | .enterRun life, _ =>
      some ((), world.modifyObject life (fun object => { object with running := true }))
  | .leaveRun life, ended =>
      if (world.lifecycleAt life).any (fun object => object.mayEnd ended) then
        some (ended, world.modifyObject life (fun object => { object with running := false }))
      else none
  | .collectFailures app life, _ =>
      (world.lifecycleAt life).map (fun object =>
        ((), world.modifyShell app (fun shell =>
          { shell with earlyFailures := shell.earlyFailures ++ object.life.failures })))
  | .park app life, _ =>
      (world.lifecycleAt life).map (fun object =>
        ((), world.modifyShell app (fun shell =>
          { shell with parkedState := object.life.state })))
  | .destroy life, _ =>
      some ((), world.modifyObject life (fun object => { object with alive := false }))
  | .setShutdownReq app, _ =>
      some ((), world.modifyShell app (fun shell => { shell with shutdownReq := true }))
  | .requestShutdown life, _ =>
      some ((), world.modifyObject life (fun object => { object with requested := true }))
  | .state life, _ =>
      (world.lifecycleAt life).map (fun object => (object.life.state, world))
  | .incompleteSteps life, _ =>
      (world.lifecycleAt life).map (fun object => (object.life.incomplete, world))
  | .failures life, _ =>
      (world.lifecycleAt life).map (fun object => (object.life.failures, world))
  | .parkClosing app, _ =>
      some ((), world.modifyShell app (fun shell =>
        if shell.parkedState = .running then { shell with parkedState := .closing }
        else shell))
  | .parkedState app, _ => some ((world.shells app).parkedState, world)
  | .earlyFailures app, _ => some ((world.shells app).earlyFailures, world)

/-- A step of the `Run` of an object. -/
def progress (life : Nat) (move : LifeMove) : Option ProcessWorld :=
  match world.lifecycleAt life with
  | none => none
  | some object =>
      if object.running then
        (object.progress (world.shells object.app).shutdownReq move).map (fun moved =>
          { world with objects := world.objects.set life moved })
      else none

end ProcessWorld

abbrev ProcessOp :=
  Program ProcessAct ProcessAct.Answer

def asks (act : ProcessAct) : ProcessOp act.Answer :=
  Program.ask act

def setLifecycle (app : Nat) (pointer : Option Nat) : ProcessOp Unit := do
  asks (.lock app)
  asks (.setLifecycle app pointer)
  asks (.unlock app)

/-- The failures and the last state are kept when the lifecycle has returned. -/
def keepResults (app life : Nat) : CallEnd Nat → ProcessOp Unit
  | .returned _ => do
      asks (.collectFailures app life)
      asks (.park app life)
  | _ => return ()

/-- The life of the lifecycle object; an exception of `Run` unwinds through the guards. -/
def withLifecycle (app : Nat) (config : CoApp) : ProcessOp (CallEnd Nat) := do
  let life : Nat ← asks (.construct app config.hasHost config.options.shutdownStepBudget)
  setLifecycle app (some life)
  asks (.enterRun life)
  let ended : CallEnd Nat ← asks (.leaveRun life)
  keepResults app life ended
  setLifecycle app none
  asks (.destroy life)
  return ended

section

variable [Infra]

/-- `run` once it has the place of the active application. -/
def runClaimed (app : Nat) (config : CoApp) : ProcessOp (CallEnd Nat) := do
  let ran : Bool ← asks (.exchangeRanOnce app)
  if ran then return .returned exitRejected
  else
    match config.validateConfig with
    | .error error =>
        asks (.appendEarly app [error.message])
        return .returned exitRejected
    | .ok () => withLifecycle app config

def runApp (app : Nat) (config : CoApp) : ProcessOp (CallEnd Nat) := do
  let claimed : Bool ← asks (.claimActive app)
  if ¬claimed then return .returned exitRejected
  else
    let ended : CallEnd Nat ← runClaimed app config
    asks .releaseActive
    return ended

end

/-- What is done with the published lifecycle, or without one, under `m_lifecycle_mtx`. -/
def observe {Value : Type} (app : Nat) (published : Nat → ProcessOp Value)
    (parked : ProcessOp Value) : ProcessOp Value := do
  asks (.lock app)
  let pointer : Option Nat ← asks (.readLifecycle app)
  let value : Value ←
    match pointer with
    | some life => published life
    | none => parked
  asks (.unlock app)
  return value

def requestShutdown (app : Nat) : ProcessOp Unit := do
  asks (.setShutdownReq app)
  observe app (fun life => asks (.requestShutdown life)) (asks (.parkClosing app))

def shutdownState (app : Nat) : ProcessOp ShutdownState :=
  observe app (fun life => asks (.state life)) (asks (.parkedState app))

def pendingCleanup (app : Nat) : ProcessOp (List String) :=
  observe app (fun life => asks (.incompleteSteps life)) (return [])

def lifecycleFailures (app : Nat) : ProcessOp (List String) :=
  observe app (fun life => asks (.failures life)) (asks (.earlyFailures app))

inductive ProcessEntry where
  | run (app : Nat)
  | requestShutdown (app : Nat)
  | shutdownState (app : Nat)
  | pendingCleanup (app : Nat)
  | lifecycleFailures (app : Nat)
  deriving DecidableEq, Repr

inductive ProcessResult where
  | ran (app : Nat) (ended : CallEnd Nat)
  | requested (app : Nat)
  | state (app : Nat) (state : ShutdownState)
  | steps (app : Nat) (steps : List String)
  | failures (app : Nat) (failures : List String)
  deriving DecidableEq

def processMain [Infra] (apps : Nat → CoApp) : ProcessEntry → ProcessOp ProcessResult
  | .run app => do
      let ended : CallEnd Nat ← runApp app (apps app)
      return .ran app ended
  | .requestShutdown app => do
      requestShutdown app
      return .requested app
  | .shutdownState app => do
      let state : ShutdownState ← shutdownState app
      return .state app state
  | .pendingCleanup app => do
      let steps : List String ← pendingCleanup app
      return .steps app steps
  | .lifecycleFailures app => do
      let failures : List String ← lifecycleFailures app
      return .failures app failures

/-- How far a published lifecycle has come. -/
inductive ShownPhase where
  | waiting
  | running
  | returned
  | collected
  | parked
  | threw
  deriving DecidableEq, Repr

def ShownPhase.ofEnd : CallEnd Nat → ShownPhase
  | .returned _ => .returned
  | _ => .threw

/-- Where a thread stands in `run`. -/
inductive RunnerStage where
  | outside
  | claimed (app : Nat)
  | first (app : Nat)
  | built (app life : Nat)
  | shown (app life : Nat) (phase : ShownPhase)
  | hidden (app life : Nat)
  | finished (app : Nat)
  deriving DecidableEq, Repr

def RunnerStage.slot : RunnerStage → Option Unit
  | .outside => none
  | _ => some ()

/-- The application a thread has the place for. -/
def RunnerStage.app : RunnerStage → Option Nat
  | .outside => none
  | .claimed app | .first app | .built app _ | .shown app _ _ | .hidden app _ | .finished app =>
      some app

/-- The lifecycle a thread has built and not yet destroyed. -/
def RunnerStage.life : RunnerStage → Option Nat
  | .built _ life | .shown _ life _ | .hidden _ life => some life
  | _ => none

theorem RunnerStage.slot_of_app {stage : RunnerStage} {app : Nat} (happ : stage.app = some app) :
    stage.slot = some () := by
  cases stage with
  | outside => cases happ
  | _ => rfl

theorem RunnerStage.slot_eq_none {stage : RunnerStage} (hslot : stage.slot = none) :
    stage = .outside := by
  cases stage with
  | outside => rfl
  | _ => cases hslot

def RunnerStage.goto (stage : RunnerStage) (phase : ShownPhase) : RunnerStage :=
  match stage with
  | .shown app life _ => .shown app life phase
  | stage => stage

/-- After the pointer has been written. -/
def RunnerStage.point (stage : RunnerStage) : Option Nat → RunnerStage
  | some _ =>
      match stage with
      | .built app life => .shown app life .waiting
      | stage => stage
  | none =>
      match stage with
      | .shown app life _ => .hidden app life
      | stage => stage

def RunnerStage.finish (stage : RunnerStage) : RunnerStage :=
  match stage with
  | .first app | .hidden app _ => .finished app
  | stage => stage

/-- What a call has learned of an application. -/
inductive Heard where
  | state (app : Nat) (state : ShutdownState)
  | failures (app : Nat) (failures : List String)
  deriving DecidableEq

/-- `seen` is the pointer read under the mutex that is held, `owned` the application that
the thread is the first to run. -/
structure ProcessView where
  holding : Option Nat
  seen : Option (Option Nat)
  stage : RunnerStage
  owned : Option Nat
  told : Option Heard

namespace ProcessView

def fresh : ProcessView where
  holding := none
  seen := none
  stage := .outside
  owned := none
  told := none

def after (view : ProcessView) : (act : ProcessAct) → act.Answer → ProcessView
  | .claimActive app, (claimed : Bool) =>
      if claimed then { view with stage := .claimed app } else view
  | .releaseActive, _ => { view with stage := .outside }
  | .exchangeRanOnce app, (ran : Bool) =>
      if ran then view else { view with stage := .first app, owned := some app }
  | .appendEarly _ _, _ => { view with stage := view.stage.finish }
  | .construct app _ _, (life : Nat) =>
      { view with stage := .built app life }
  | .lock app, _ => { view with holding := some app, seen := none }
  | .unlock _, _ => { view with holding := none, seen := none }
  | .setLifecycle _ pointer, _ =>
      { view with seen := none, stage := view.stage.point pointer }
  | .readLifecycle _, (pointer : Option Nat) => { view with seen := some pointer }
  | .enterRun _, _ => { view with stage := view.stage.goto .running }
  | .leaveRun _, (ended : CallEnd Nat) =>
      { view with stage := view.stage.goto (.ofEnd ended) }
  | .collectFailures _ _, _ => { view with stage := view.stage.goto .collected }
  | .park app _, _ =>
      { view with stage := view.stage.goto .parked, told := some (.state app .closed) }
  | .destroy _, _ => { view with stage := view.stage.finish }
  | .state _, (state : ShutdownState) =>
      { view with told := view.holding.map (fun app => .state app state) }
  | .parkedState app, (state : ShutdownState) => { view with told := some (.state app state) }
  | .failures _, (failures : List String) =>
      { view with told := view.holding.map (fun app => .failures app failures) }
  | .earlyFailures app, (failures : List String) =>
      { view with told := some (.failures app failures) }
  | _, _ => view

/-- The pointer the thread has read is one to this object. -/
def Sees (view : ProcessView) (life : Nat) : Prop :=
  ∃ app, view.holding = some app ∧ view.seen = some (some life)

def SeesNone (view : ProcessView) (app : Nat) : Prop :=
  view.holding = some app ∧ view.seen = some none

def allows (view : ProcessView) : ProcessAct → Prop
  | .claimActive _ => view.stage = .outside ∧ view.owned = none
  | .releaseActive => ∃ app, view.stage = .claimed app ∨ view.stage = .finished app
  | .exchangeRanOnce app => view.stage = .claimed app ∧ view.owned = none
  | .appendEarly app _ => view.stage = .first app
  | .construct app _ _ => view.stage = .first app
  | .lock _ => view.holding = none
  | .unlock app => view.holding = some app
  | .setLifecycle app (some life) => view.holding = some app ∧ view.stage = .built app life
  | .setLifecycle app none => view.holding = some app ∧ ∃ life,
      view.stage = .shown app life .parked ∨ view.stage = .shown app life .threw
  | .readLifecycle app => view.holding = some app
  | .enterRun life => ∃ app, view.stage = .shown app life .waiting
  | .leaveRun life => ∃ app, view.stage = .shown app life .running
  | .collectFailures app life => view.stage = .shown app life .returned
  | .park app life => view.stage = .shown app life .collected
  | .destroy life => ∃ app, view.stage = .hidden app life
  | .setShutdownReq _ => True
  | .requestShutdown life | .state life | .incompleteSteps life | .failures life =>
      view.Sees life
  | .parkClosing app | .parkedState app | .earlyFailures app => view.SeesNone app

end ProcessView

def processDiscipline : Discipline ProcessAct ProcessAct.Answer ProcessView where
  allows := fun act view => view.allows act
  possible := fun _ _ => True
  after := fun act answer view => view.after act answer

def processSystem [Infra] (apps : Nat → CoApp) :
    System ProcessAct ProcessAct.Answer ProcessResult ProcessWorld ProcessView ProcessEntry
      (CallEnd Nat) (Nat × LifeMove) where
  start := fun world => world = .fresh
  idle := .requested 0
  main := processMain apps
  perform := fun act ended world => world.perform act ended
  env := fun event world => world.progress event.1 event.2
  fresh := .fresh
  discipline := processDiscipline

end BbtFramework.Host
