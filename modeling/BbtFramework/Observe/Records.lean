import BbtFramework.App.Registry
import BbtFramework.Library.Program

/-!
# Observer records

A state change is dispatched to the observers of its object: each callback runs
under a lease of its record.  A revocation marks records inactive, waits for their
leases and erases them, in separate critical sections.  A callback may itself
revoke, drain and dispatch.
-/

namespace BbtFramework.Observe

open BbtFramework.App
open BbtFramework.Library

/-- Tokens are numbered from 1 in the order of their registration. -/
abbrev TokenId := Nat

structure ObserverRecord where
  observerId : ObjectId
  targetId : ObjectId
  targetGeneration : Nat
  active : Bool
  inFlight : Nat
  deriving DecidableEq, Repr

/-- A pending event carries a copy of its record. -/
structure PendingEvent where
  token : TokenId
  targetId : ObjectId
  targetGeneration : Nat
  deriving DecidableEq, Repr

structure LifecycleFailure where
  targetId : ObjectId
  targetGeneration : Nat
  operation : String
  phase : String
  message : String
  deriving DecidableEq, Repr

structure Observers where
  records : TokenId → Option ObserverRecord
  nextObserverId : TokenId
  maxObservers : Nat
  failures : List LifecycleFailure
  failuresDropped : Nat
  maxObjects : Nat

namespace Observers

def fresh (maxObservers maxObjects : Nat) : Observers where
  records := fun _ => none
  nextObserverId := 1
  maxObservers := maxObservers
  failures := []
  failuresDropped := 0
  maxObjects := maxObjects

def leases (observers : Observers) (token : TokenId) : Nat :=
  (observers.records token).elim 0 ObserverRecord.inFlight

def observerActive (observers : Observers) (token : TokenId) : Bool :=
  (observers.records token).any ObserverRecord.active

def update (observers : Observers) (token : TokenId) (record : Option ObserverRecord) :
    Observers :=
  { observers with records := Function.update observers.records token record }

def activeCount (observers : Observers) : Nat :=
  ((List.range observers.nextObserverId).filter observers.observerActive).length

/-- The registration `Observe` ends with, when the limit allows it. -/
def observe (observers : Observers) (observerId targetId : ObjectId)
    (targetGeneration : Nat) : Option Observers :=
  if observers.maxObservers ≤ observers.activeCount then none
  else
    let made := observers.update observers.nextObserverId
      (some ⟨observerId, targetId, targetGeneration, true, 0⟩)
    some { made with nextObserverId := observers.nextObserverId + 1 }

/-- The lease of a dispatch. -/
def acquire (observers : Observers) (token : TokenId) : Bool × Observers :=
  match observers.records token with
  | none => (false, observers)
  | some record =>
      if record.active then
        (true, observers.update token
          (some { record with inFlight := record.inFlight + 1 }))
      else (false, observers)

def release (observers : Observers) (token : TokenId) : Observers :=
  match observers.records token with
  | none => observers
  | some record =>
      if 0 < record.inFlight then
        observers.update token (some { record with inFlight := record.inFlight - 1 })
      else observers

/-- Failures are kept in a bounded ring. -/
def recordFailure (observers : Observers) (failure : LifecycleFailure) : Observers :=
  if observers.maxObjects ≤ observers.failures.length then
    { observers with
      failures := observers.failures.tail ++ [failure]
      failuresDropped := observers.failuresDropped + 1 }
  else { observers with failures := observers.failures ++ [failure] }

/-- The first critical section of `RevokeObserver`. -/
def markInactive (observers : Observers) (token : TokenId) : Bool × Observers :=
  match observers.records token with
  | none => (false, observers)
  | some record => (true, observers.update token (some { record with active := false }))

def revokeObserversOfLocked (observers : Observers) (observerId : ObjectId) : Observers :=
  { observers with
    records := fun token => (observers.records token).map (fun record =>
      if record.observerId = observerId then { record with active := false }
      else record) }

/-- The first pass of a drain. -/
def eraseIdle (observers : Observers) : Observers :=
  { observers with
    records := fun token => (observers.records token).filter (fun record =>
      record.active || record.inFlight ≠ 0) }

/-- The last pass of a drain. -/
def eraseInactive (observers : Observers) : Observers :=
  { observers with
    records := fun token => (observers.records token).filter ObserverRecord.active }

/-- What a drain waits for. -/
def Drained (observers : Observers) : Prop :=
  ∀ token < observers.nextObserverId, ∀ record ∈ observers.records token,
    record.active = false → record.inFlight = 0

instance (observers : Observers) : Decidable observers.Drained :=
  inferInstanceAs (Decidable (∀ token < observers.nextObserverId,
    ∀ record ∈ observers.records token, record.active = false → record.inFlight = 0))

end Observers

/-- What a running callback does next. -/
inductive CallbackStep where
  | finish (threw : Bool)
  | revoke (token : TokenId)
  | revokeOf (observerId : ObjectId)
  | drain
  | dispatch (events : List PendingEvent)
  deriving DecidableEq, Repr

/-- The critical sections of the observers, the waits, and the steps of a running
callback. -/
inductive ObserverAct where
  | acquire (token : TokenId)
  | proceed (token : TokenId)
  | recordFailure (failure : LifecycleFailure)
  | release (token : TokenId)
  | markInactive (token : TokenId)
  | awaitGone (token : TokenId)
  | erase (token : TokenId)
  | markOf (observerId : ObjectId)
  | eraseIdle
  | awaitDrained
  | eraseInactive
  deriving DecidableEq, Repr

@[reducible]
def ObserverAct.Answer : ObserverAct → Type
  | .acquire _ | .markInactive _ => Bool
  | .proceed _ => CallbackStep
  | _ => Unit

/-- A wait goes on when its predicate holds, in either waiting domain.  A token is
revoked by who was given it. -/
def Observers.perform (observers : Observers) :
    (act : ObserverAct) → CallbackStep → Option (act.Answer × Observers)
  | .acquire token, _ => some (observers.acquire token)
  | .proceed _, next => some (next, observers)
  | .recordFailure failure, _ => some ((), observers.recordFailure failure)
  | .release token, _ => some ((), observers.release token)
  | .markInactive token, _ =>
      if token < observers.nextObserverId then some (observers.markInactive token)
      else none
  | .awaitGone token, _ =>
      if observers.leases token = 0 then some ((), observers) else none
  | .erase token, _ => some ((), observers.update token none)
  | .markOf observerId, _ => some ((), observers.revokeObserversOfLocked observerId)
  | .eraseIdle, _ => some ((), observers.eraseIdle)
  | .awaitDrained, _ => if observers.Drained then some ((), observers) else none
  | .eraseInactive, _ => some ((), observers.eraseInactive)

abbrev ObserverOp :=
  Program ObserverAct ObserverAct.Answer

def perform (act : ObserverAct) : ObserverOp act.Answer :=
  Program.ask act

def revokeObserver (token : TokenId) : ObserverOp Unit := do
  let found : Bool ← perform (.markInactive token)
  if found then
    perform (.awaitGone token)
    perform (.erase token)
  else return ()

def drainInactiveObservers : ObserverOp Unit := do
  perform .eraseIdle
  perform .awaitDrained
  perform .eraseInactive

def revokeObserversOf (observerId : ObjectId) : ObserverOp Unit := do
  perform (.markOf observerId)
  drainInactiveObservers

/-- `DispatchEvents` over the events not dispatched yet; `callback` runs the
callback of a token and tells whether it has thrown. -/
def dispatchEvents (callback : TokenId → ObserverOp Bool) :
    List PendingEvent → ObserverOp Unit
  | [] => return ()
  | event :: rest => do
      let leased : Bool ← perform (.acquire event.token)
      if leased then
        let threw : Bool ← callback event.token
        if threw then
          perform (.recordFailure ⟨event.targetId, event.targetGeneration, "observe",
            "dispatch", "observer callback threw"⟩)
        perform (.release event.token)
        dispatchEvents callback rest
      else dispatchEvents callback rest

/-- A running callback that makes at most `fuel` steps, and so do the callbacks it
dispatches to: every run of it has such a bound. -/
def runCallback : Nat → TokenId → ObserverOp Bool
  | 0, _ => return false
  | fuel + 1, token => do
      let next : CallbackStep ← perform (.proceed token)
      match next with
      | .finish threw => return threw
      | .revoke other =>
          revokeObserver other
          runCallback fuel token
      | .revokeOf observerId =>
          revokeObserversOf observerId
          runCallback fuel token
      | .drain =>
          drainInactiveObservers
          runCallback fuel token
      | .dispatch events =>
          dispatchEvents (runCallback fuel) events
          runCallback fuel token

inductive ObserverEntry where
  | dispatch (fuel : Nat) (events : List PendingEvent)
  | revoke (token : TokenId)
  | mark (observerId : ObjectId)
  | drain
  | revokeOf (observerId : ObjectId)
  deriving DecidableEq, Repr

/-- What an entry point has done when it returns. -/
inductive ObserverDone where
  | dispatched
  | revoked (token : TokenId)
  | marked
  | drained
  deriving DecidableEq, Repr

def ObserverEntry.main : ObserverEntry → ObserverOp ObserverDone
  | .dispatch fuel events => do
      dispatchEvents (runCallback fuel) events
      return .dispatched
  | .revoke token => do
      revokeObserver token
      return .revoked token
  | .mark observerId => do
      perform (.markOf observerId)
      return .marked
  | .drain => do
      drainInactiveObservers
      return .drained
  | .revokeOf observerId => do
      revokeObserversOf observerId
      return .drained

inductive ObserverEvent where
  | observe (observerId targetId : ObjectId) (targetGeneration : Nat)
  deriving DecidableEq, Repr

/-- What a thread knows: the callbacks it runs, innermost first, the tokens it has
seen inactive or erased, those it has seen without leases after that, whether it is
at the wait of a drain, whether a drain of it has waited, and whether it has revoked
a token whose callback it runs. -/
structure ObserverView where
  running : List TokenId
  revoked : List TokenId
  gone : List TokenId
  draining : Bool
  waited : Bool
  ownRevoked : Bool

def ObserverView.fresh : ObserverView where
  running := []
  revoked := []
  gone := []
  draining := false
  waited := false
  ownRevoked := false

def ObserverView.after (view : ObserverView) :
    (act : ObserverAct) → act.Answer → ObserverView
  | .acquire token, (leased : Bool) =>
      if leased then { view with running := token :: view.running } else view
  | .release _, _ => { view with running := view.running.tail }
  | .markInactive token, (found : Bool) =>
      { view with
        revoked := token :: view.revoked
        gone := if found then view.gone else token :: view.gone
        ownRevoked := view.ownRevoked || decide (token ∈ view.running) }
  | .awaitGone token, _ => { view with gone := token :: view.gone }
  | .eraseIdle, _ => { view with draining := true }
  | .awaitDrained, _ => { view with draining := false, waited := true }
  | _, _ => view

def ObserverView.allows (view : ObserverView) : ObserverAct → Prop
  | .acquire _ => view.draining = false
  | .release token => ∃ rest, view.running = token :: rest
  | .awaitGone token =>
      token ∈ view.revoked ∧ (token ∈ view.running → view.ownRevoked = true)
  | .erase token => token ∈ view.gone
  | .awaitDrained => view.draining = true
  | _ => True

def observerDiscipline : Discipline ObserverAct ObserverAct.Answer ObserverView where
  allows := fun act view => view.allows act
  possible := fun _ _ => True
  after := fun act answer view => view.after act answer

def observerSystem : System ObserverAct ObserverAct.Answer ObserverDone Observers
    ObserverView ObserverEntry CallbackStep ObserverEvent where
  start := fun observers => ∃ maxObservers maxObjects,
    observers = .fresh maxObservers maxObjects
  idle := .marked
  main := ObserverEntry.main
  perform := fun act choice observers => observers.perform act choice
  env
    | .observe observerId targetId targetGeneration, observers =>
        observers.observe observerId targetId targetGeneration
  fresh := .fresh
  discipline := observerDiscipline

abbrev ObserverPool :=
  Pool ObserverAct ObserverAct.Answer ObserverDone Observers ObserverView

abbrev ObserverStep :=
  PoolStep ObserverEntry CallbackStep ObserverEvent

end BbtFramework.Observe
