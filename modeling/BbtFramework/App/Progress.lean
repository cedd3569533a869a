import BbtFramework.App.System

/-!
# How far a transition has come

The second ghost of a thread: what the transition it performs knows of the
application state, which objects of its list are still to be served, and what a
stop has done.  An installation is followed from its registration to the last
state it writes.
-/

namespace BbtFramework.App

open BbtFramework.Library

/-- What a stop does with one object: its turn, with whether the teardown was
begun, and `OnStop` with the task that is to invoke it. -/
inductive StopStep where
  | turn (id : ObjectId) (begun : Bool)
  | onStop (id : ObjectId) (task : Nat)
  deriving DecidableEq, Repr

/-- Where a thread stands.  A transition that has looked at the application
state knows it; the lists hold the objects that are still to be served. -/
inductive Stage where
  | idle
  | knows (state : AppState)
  | installing (id : ObjectId)
  | placed (id : ObjectId)
  | launching (id : ObjectId)
  | starting (remaining : List ObjectId)
  | pausing (remaining : List ObjectId)
  | resuming (remaining : List ObjectId)
  | stopping (pending : List ObjectId) (clean : Bool)
  deriving DecidableEq, Repr

structure Progress where
  lifecycle : Bool
  stage : Stage
  log : List StopStep
  failed : Bool
  deriving DecidableEq, Repr

def StopLists.order (lists : StopLists) : List ObjectId :=
  lists.services ++ lists.actors ++ lists.scopedComponents ++ lists.appComponents

namespace Progress

def fresh : Progress :=
  ⟨false, .idle, [], false⟩

def move (progress : Progress) (stage : Stage) : Progress :=
  { progress with stage := stage }

/-- A hook of a transition has failed. -/
def fail (progress : Progress) (state : AppState) : Progress :=
  { progress with stage := .knows state, failed := true }

/-- A stop has come to the next object. -/
def turn (progress : Progress) (id : ObjectId) (begun : Bool) : Progress :=
  match progress.stage with
  | .stopping (_ :: rest) clean =>
      { progress with
        stage := .stopping rest clean, log := progress.log ++ [.turn id begun] }
  | _ => progress

def afterQuery : (query : Query) → query.Answer → Progress → Progress
  | .loadState, (state : AppState), progress =>
      match progress.stage with
      | .placed id =>
          progress.move (if state = .running then .launching id else .idle)
      | .idle => if progress.lifecycle then progress.move (.knows state) else progress
      | _ => progress
  | .startLists, (lists : List ObjectId × List ObjectId), progress =>
      progress.move (.starting (lists.1 ++ lists.2))
  | .listServices state, (services : List ObjectId), progress =>
      progress.move (if state = .running then .pausing services else .resuming services)
  | .stopLists, (lists : StopLists), progress =>
      progress.move (.stopping lists.order false)
  | .pendingCleanup, (pending : List CleanupInfo), progress =>
      match progress.stage with
      | .stopping rest _ => progress.move (.stopping rest (pending = []))
      | _ => progress
  | _, _, progress => progress

def afterState (state : ObjectState) (progress : Progress) : Progress :=
  match progress.stage with
  | .installing id => progress.move (if state = .installed then .placed id else .idle)
  | .launching _ => if state = .starting then progress else progress.move .idle
  | .starting remaining =>
      if state = .running then progress.move (.starting remaining.tail)
      else if state = .failed then progress.fail .starting
      else progress
  | .pausing remaining =>
      if state = .failed then progress.fail .running
      else progress.move (.pausing remaining.tail)
  | .resuming remaining =>
      if state = .failed then progress.fail .paused
      else progress.move (.resuming remaining.tail)
  | _ => progress

def afterCommand : (command : Command) → command.Answer → Progress → Progress
  | .exchangeLifecycle, (active : Bool), progress =>
      if active then progress else { progress with lifecycle := true }
  | .releaseLifecycle, _, progress =>
      { progress with lifecycle := false, stage := .idle }
  | .storeState state, _, progress => progress.move (.knows state)
  | .createComponent _, (created : Except Error ObjectId), progress =>
      match created with
      | .ok id => progress.move (.installing id)
      | .error _ => progress
  | .createService _ _, (created : Except Error ObjectHandle), progress =>
      match created with
      | .ok handle => progress.move (.installing handle.id)
      | .error _ => progress
  | .setState _ state, _, progress => progress.afterState state
  | .beginStopService id, (begun : Bool), progress
  | .beginStopComponent id, (begun : Bool), progress => progress.turn id begun
  | .takeHook id hook, (taken : Option Nat), progress =>
      match progress.stage, taken with
      | .stopping _ _, some task =>
          if hook = .onStop then
            { progress with log := progress.log ++ [.onStop id task] }
          else progress
      | _, _ => progress
  | .finishDestroy id, _, progress =>
      if id.kind = .actor then progress.turn id true else progress
  | _, _, progress => progress

def after : (act : Action) → act.Answer → Progress → Progress
  | .query read, answer, progress => afterQuery read answer progress
  | .command write, answer, progress => afterCommand write answer progress

def allowsQuery : Query → Progress → Prop
  | .startLists, progress => progress.stage = .knows .starting
  | .listServices state, progress =>
      (state = .running ∧ progress.stage = .knows .running) ∨
        (state = .paused ∧ progress.stage = .knows .paused)
  | .stopLists, progress => progress.stage = .knows .stopping ∧ progress.log = []
  | .pendingCleanup, progress => ∃ clean, progress.stage = .stopping [] clean
  | _, _ => True

def writes (id : ObjectId) (state : ObjectState) : Stage → Prop
  | .installing other => id = other ∧ (state = .installed ∨ state = .installFailed)
  | .launching other =>
      id = other ∧ (state = .starting ∨ state = .running ∨ state = .failed)
  | .starting remaining =>
      remaining.head? = some id ∧
        (state = .starting ∨ state = .running ∨ state = .failed)
  | .pausing remaining =>
      remaining.head? = some id ∧ id.kind = .service ∧
        (state = .paused ∨ state = .failed)
  | .resuming remaining =>
      remaining.head? = some id ∧ (state = .running ∨ state = .failed)
  | _ => False

/-- The application states a transition stores. -/
def stores (progress : Progress) : AppState → Prop
  | .created => False
  | .starting => progress.stage = .knows .created ∨ progress.stage = .knows .paused
  | .running =>
      progress.stage = .starting [] ∨ progress.stage = .resuming [] ∨
        (progress.stage = .knows .starting ∧ progress.failed = true)
  | .paused => progress.stage = .pausing []
  | .stopping => ∃ state, state ≠ .stopped ∧ progress.stage = .knows state
  | .stopIncomplete => ∃ clean, progress.stage = .stopping [] clean
  | .stopped => progress.stage = .stopping [] true

def allowsCommand : Command → Progress → Prop
  | .exchangeLifecycle, progress => progress.lifecycle = false ∧ progress.stage = .idle
  | .releaseLifecycle, progress =>
      progress.lifecycle = true ∧ ∃ state, progress.stage = .knows state
  | .storeState state, progress => progress.lifecycle = true ∧ progress.stores state
  | .createComponent _, progress | .createService _ _, progress =>
      progress.lifecycle = false ∧ progress.stage = .idle
  | .setState id state, progress => writes id state progress.stage
  | .beginStopService id, progress | .beginStopComponent id, progress =>
      id.kind ≠ .actor ∧ ∃ rest clean, progress.stage = .stopping (id :: rest) clean
  | .takeHook id hook, progress =>
      hook = .onStop → ∀ pending clean, progress.stage = .stopping pending clean →
        progress.log.getLast? = some (.turn id true)
  | .finishDestroy id, progress =>
      id.kind = .actor → ∀ pending clean, progress.stage = .stopping pending clean →
        pending.head? = some id
  | .abortDestroy _ phase incomplete, _ =>
      phase ≠ "" ∧ (incomplete = .stopIncomplete ∨ incomplete = .uninstallIncomplete)
  | _, _ => True

def allows : Action → Progress → Prop
  | .query read, progress => allowsQuery read progress
  | .command write, progress => allowsCommand write progress

end Progress

/-- The order in which the transitions and the installations proceed. -/
def progressDiscipline : Discipline Action Action.Answer Progress where
  allows := Progress.allows
  possible := Role.possible
  after := Progress.after

end BbtFramework.App
