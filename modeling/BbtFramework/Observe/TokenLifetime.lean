import BbtFramework.App.Aging
import BbtFramework.Observe.Barrier

/-!
# Observer tokens and their objects

The observers of one application: a teardown revokes the tokens of the object as
observer in the critical section that destroys it, and then drains them; the teardown
of an actor type does neither.  The state changes an operation dispatches are threads
of their own, and so are the revocations of single tokens.
-/

namespace BbtFramework.Observe

open BbtFramework.App
open BbtFramework.Library

/-- A record holds the generation of its observer besides. -/
structure Watched where
  world : AppWorld
  observers : Observers
  observerGeneration : TokenId → Nat

def registered (world : AppWorld) (id : ObjectId) (generation : Nat) : Bool :=
  (world.registry.findEntryLocked id).any (fun entry => entry.generation = generation)

section

variable [Infra]

/-- `Registry::Observe`; `callback` tells whether a callback was given. -/
def Watched.observe (watched : Watched) (observer target : ObjectHandle)
    (callback : Bool) : Except Error (TokenId × Watched) :=
  if ¬callback then
    .error (makeError .invalidArgument "Observe: null callback")
  else if ¬observer.owned ∨ ¬target.owned then
    .error (makeError .invalidArgument "Observe: handle belongs to another registry")
  else
    match watched.observers.observe observer.id target.id target.generation with
    | none => .error (makeError .overloaded "Observe: observer limit reached")
    | some made =>
        if ¬registered watched.world observer.id observer.generation then
          .error (makeError .notFound "Observe: observer not found or generation stale")
        else if ¬registered watched.world target.id target.generation then
          .error (makeError .notFound "Observe: target not found or generation stale")
        else
          .ok (watched.observers.nextObserverId, { watched with
            observers := made
            observerGeneration := Function.update watched.observerGeneration
              watched.observers.nextObserverId observer.generation })

end

/-- The critical sections of the application and those of the observers; `destroy` is the
one of both that ends a teardown. -/
inductive WatchAct where
  | app (act : Action)
  | destroy (id : ObjectId)
  | observers (act : ObserverAct)

@[reducible]
def WatchAct.Answer : WatchAct → Type
  | .app act => act.Answer
  | .destroy _ => Unit
  | .observers act => act.Answer

abbrev WatchOp :=
  Program WatchAct WatchAct.Answer

def onObservers (act : ObserverAct) : WatchOp act.Answer :=
  @Program.ask _ WatchAct.Answer (.observers act)

def onApp (act : Action) : WatchOp act.Answer :=
  @Program.ask _ WatchAct.Answer (.app act)

def destroySection (entry : Entry) (id : ObjectId) : WatchOp Unit :=
  match entry with
  | .coUninstallActor _ => onApp (.command (.finishDestroy id))
  | _ => do
      @Program.ask _ WatchAct.Answer (.destroy id)
      drainInactiveObservers.interpret onObservers

def criticalSection (entry : Entry) : (act : Action) → WatchOp act.Answer
  | .command (.finishDestroy id) => destroySection entry id
  | .command command => onApp (.command command)
  | .query query => onApp (.query query)

/-- A call on the application, or one that works on observers alone. -/
inductive WatchEntry where
  | call (entry : Entry)
  | observers (entry : ObserverEntry)

inductive WatchDone where
  | call (outcome : Outcome)
  | observers (done : ObserverDone)

inductive WatchEvent where
  | app (event : Event)
  | observe (observer target : ObjectHandle) (callback : Bool)

section

variable [Infra]

def WatchEntry.main : WatchEntry → WatchOp WatchDone
  | .call entry => do
      let outcome : Outcome ← entry.main.interpret (criticalSection entry)
      return .call outcome
  | .observers entry => do
      let done : ObserverDone ← entry.main.interpret onObservers
      return .observers done

namespace Watched

def perform (watched : Watched) : (act : WatchAct) → Choice × CallbackStep →
    Option (act.Answer × Watched)
  | .app act, choice =>
      (watched.world.perform act choice.1).map (fun result =>
        (result.1, { watched with world := result.2 }))
  | .destroy id, choice =>
      (watched.world.perform (.command (.finishDestroy id)) choice.1).map (fun result =>
        ((), { watched with
          world := result.2
          observers := watched.observers.revokeObserversOfLocked id }))
  | .observers act, choice =>
      (watched.observers.perform act choice.2).map (fun result =>
        (result.1, { watched with observers := result.2 }))

def react (watched : Watched) : WatchEvent → Option Watched
  | .app event =>
      (watched.world.react event).map (fun world => { watched with world := world })
  | .observe observer target callback =>
      match watched.observe observer target callback with
      | .error _ => none
      | .ok observed => some observed.2

end Watched

def watchedSystem : System WatchAct WatchAct.Answer WatchDone Watched Unit WatchEntry
    (Choice × CallbackStep) WatchEvent where
  start := fun watched => AppWorld.Start watched.world ∧
    ∃ maxObservers maxObjects, watched.observers = .fresh maxObservers maxObjects
  idle := .observers .marked
  main := WatchEntry.main
  perform := fun act choice watched => watched.perform act choice
  env := fun event watched => watched.react event
  fresh := ()
  discipline := Program.free

abbrev WatchedPool :=
  Pool WatchAct WatchAct.Answer WatchDone Watched Unit

abbrev WatchedStep :=
  PoolStep WatchEntry (Choice × CallbackStep) WatchEvent

def Watched.live (watched : Watched) (token : TokenId) : Bool :=
  (watched.observers.records token).any (fun record =>
    registered watched.world record.observerId (watched.observerGeneration token) ∧
      registered watched.world record.targetId record.targetGeneration)

def destroyedBy : Action → Option ObjectId
  | .command (.finishDestroy id) => some id
  | _ => none

/-- The object that is destroyed has no observer but itself, and where its tokens are not
revoked it observes nothing either. -/
def WatchAct.Spares (watched : Watched) : WatchAct → Prop
  | .destroy id => ∀ token < watched.observers.nextObserverId,
      ∀ record ∈ watched.observers.records token, record.active = true →
        record.targetId = id → record.observerId = id
  | .app act => ∀ id ∈ destroyedBy act, ∀ token < watched.observers.nextObserverId,
      ∀ record ∈ watched.observers.records token, record.active = true →
        record.observerId ≠ id ∧ record.targetId ≠ id
  | .observers _ => True

def SparesObservers (pool : WatchedPool) (label : WatchedStep) : Prop :=
  ∀ act ∈ pool.asked label, act.Spares pool.shared

instance (watched : Watched) : (act : WatchAct) → Decidable (act.Spares watched)
  | .destroy _ => inferInstanceAs (Decidable (∀ token < _, ∀ record ∈ _, _ → _ → _))
  | .app _ => inferInstanceAs (Decidable (∀ id ∈ _, ∀ token < _, ∀ record ∈ _, _ → _ ∧ _))
  | .observers _ => inferInstanceAs (Decidable True)

instance (pool : WatchedPool) (label : WatchedStep) : Decidable (SparesObservers pool label) :=
  inferInstanceAs (Decidable (∀ act ∈ _, WatchAct.Spares pool.shared act))

omit [Infra] in
theorem Observers.Becomes.kept {token : TokenId} {record made : ObserverRecord}
    {act : ObserverAct} (hbecomes : Observers.Becomes token record act made)
    (hactive : made.active = true) :
    record.active = true ∧ made.observerId = record.observerId ∧
      made.targetId = record.targetId ∧
      made.targetGeneration = record.targetGeneration := by
  cases hbecomes with
  | same => exact ⟨hactive, rfl, rfl, rfl⟩
  | leased hbefore => exact ⟨hbefore, rfl, rfl, rfl⟩
  | returned => exact ⟨hactive, rfl, rfl, rfl⟩
  | marked => cases hactive
  | markedOf => cases hactive

structure Watched.Tied (watched : Watched) : Prop where
  issued : watched.observers.Issued
  live : ∀ token, watched.observers.observerActive token = true →
    watched.live token = true

namespace Watched

variable {watched last : Watched} {world : AppWorld} {token : TokenId}

omit [Infra] in
theorem live_of_record {record : ObserverRecord}
    (hrecord : watched.observers.records token = some record)
    (hobserver : registered watched.world record.observerId
      (watched.observerGeneration token) = true)
    (htarget : registered watched.world record.targetId record.targetGeneration = true) :
    watched.live token = true := by
  rw [live, hrecord, Option.any_some]
  exact decide_eq_true ⟨hobserver, htarget⟩

omit [Infra] in
theorem Tied.record (htied : watched.Tied) {record : ObserverRecord}
    (hrecord : watched.observers.records token = some record)
    (hactive : record.active = true) :
    token < watched.observers.nextObserverId ∧
      registered watched.world record.observerId (watched.observerGeneration token) = true ∧
      registered watched.world record.targetId record.targetGeneration = true := by
  have hlive := htied.live token (by
    rw [Observers.observerActive, hrecord, Option.any_some]
    exact hactive)
  rw [Watched.live, hrecord, Option.any_some] at hlive
  refine ⟨?_, of_decide_eq_true hlive⟩
  by_contra hlt
  rw [htied.issued token (Nat.le_of_not_lt hlt)] at hrecord
  cases hrecord

omit [Infra] in
/-- The tokens keep their objects through what takes no active record's objects away. -/
theorem Tied.step (htied : watched.Tied) (hissued : last.observers.Issued)
    (hrecords : ∀ token made, last.observers.records token = some made →
      made.active = true →
      ∃ record, watched.observers.records token = some record ∧ record.active = true ∧
        made.observerId = record.observerId ∧ made.targetId = record.targetId ∧
        made.targetGeneration = record.targetGeneration ∧
        last.observerGeneration token = watched.observerGeneration token)
    (hstays : ∀ token made, last.observers.records token = some made →
      made.active = true → ∀ id generation, id = made.observerId ∨ id = made.targetId →
        registered watched.world id generation = true →
          registered last.world id generation = true) :
    last.Tied := by
  refine ⟨hissued, ?_⟩
  intro token hactive
  rw [Observers.observerActive, Option.any_eq_true] at hactive
  obtain ⟨made, hmade, hactive⟩ := hactive
  obtain ⟨record, hrecord, hbefore, hobserver, htarget, hgeneration, hheld⟩ :=
    hrecords token made hmade hactive
  obtain ⟨-, hobserves, hwatches⟩ := htied.record hrecord hbefore
  refine live_of_record hmade ?_ ?_
  · rw [hheld]
    refine hstays token made hmade hactive _ _ (Or.inl rfl) ?_
    rw [hobserver]
    exact hobserves
  · refine hstays token made hmade hactive _ _ (Or.inr rfl) ?_
    rw [htarget, hgeneration]
    exact hwatches

theorem registered_perform (act : Action) {choice : Choice} {answer : act.Answer}
    (hperform : watched.world.perform act choice = some (answer, world)) {id : ObjectId}
    {generation : Nat} (hregistered : registered watched.world id generation = true) :
    registered world id generation = true ∨ destroyedBy act = some id := by
  obtain ⟨entry, hfind, hgeneration⟩ := (Option.any_eq_true _ _).mp hregistered
  replace hgeneration := of_decide_eq_true hgeneration
  cases act with
  | query query =>
      obtain ⟨-, rfl⟩ := AppWorld.perform_query hperform
      exact Or.inl hregistered
  | command command =>
      obtain ⟨later, hlater, hsame⟩ | rfl :=
        AppWorld.apply_stays (AppWorld.perform_command hperform) hfind
      · left
        rw [registered, hlater]
        exact decide_eq_true (hsame.trans hgeneration)
      · exact Or.inr rfl

theorem registered_event {event : Event} (hevent : watched.world.event event = some world)
    {id : ObjectId} {generation : Nat}
    (hregistered : registered watched.world id generation = true) :
    registered world id generation = true := by
  obtain ⟨entry, hfind, hgeneration⟩ := (Option.any_eq_true _ _).mp hregistered
  have hagree : Registry.Agree RegistryEntry.generation watched.world.registry
      world.registry := (AppWorld.event_undisturbed hevent).agree (fun _ _ _ _ => rfl)
  obtain ⟨later, hlater, hsame⟩ := hagree.find_some' hfind
  rw [registered, hlater]
  exact decide_eq_true (hsame.trans (of_decide_eq_true hgeneration))

theorem Tied.app (htied : watched.Tied) {act : Action} {choice : Choice × CallbackStep}
    {answer : act.Answer} (hspares : (WatchAct.app act).Spares watched)
    (hperform : watched.perform (.app act) choice = some (answer, last)) : last.Tied := by
  obtain ⟨⟨given, world⟩, hworld, heq⟩ := Option.map_eq_some_iff.mp hperform
  cases heq
  refine htied.step htied.issued ?_ ?_
  · intro token made hmade hactive
    exact ⟨made, hmade, hactive, rfl, rfl, rfl, rfl⟩
  · intro token made hmade hactive id generation hnames hregistered
    obtain hstays | hdestroys := registered_perform act hworld hregistered
    · exact hstays
    · obtain ⟨hobserver, htarget⟩ := hspares id hdestroys token
        (htied.record hmade hactive).1 made hmade hactive
      obtain rfl | rfl := hnames
      · exact absurd rfl hobserver
      · exact absurd rfl htarget

theorem Tied.destroy (htied : watched.Tied) {id : ObjectId} {choice : Choice × CallbackStep}
    {answer : Unit} (hspares : (WatchAct.destroy id).Spares watched)
    (hperform : watched.perform (.destroy id) choice = some (answer, last)) :
    last.Tied := by
  obtain ⟨⟨given, world⟩, hworld, heq⟩ := Option.map_eq_some_iff.mp hperform
  cases heq
  -- A record that is active after the revocation is another observer's, as it was.
  have hkept : ∀ token made,
      (watched.observers.revokeObserversOfLocked id).records token = some made →
      made.active = true → watched.observers.records token = some made ∧
        made.observerId ≠ id := by
    intro token made hmade hactive
    obtain ⟨record, hrecord, rfl⟩ := Option.map_eq_some_iff.mp hmade
    split at hactive
    · cases hactive
    case isFalse hother =>
      rw [if_neg hother]
      exact ⟨hrecord, hother⟩
  refine htied.step ?_ ?_ ?_
  · intro token hle
    exact congrArg (Option.map _) (htied.issued token hle)
  · intro token made hmade hactive
    obtain ⟨hrecord, -⟩ := hkept token made hmade hactive
    exact ⟨made, hrecord, hactive, rfl, rfl, rfl, rfl⟩
  · intro token made hmade hactive other generation hnames hregistered
    obtain ⟨hrecord, hobserver⟩ := hkept token made hmade hactive
    obtain hstays | hdestroys :=
      registered_perform (.command (.finishDestroy id)) hworld hregistered
    · exact hstays
    · cases hdestroys
      obtain rfl | htarget := hnames
      · exact absurd rfl hobserver
      · exact absurd (hspares token (htied.record hrecord hactive).1 made hrecord hactive
          htarget.symm) hobserver

theorem Tied.observers (htied : watched.Tied) {act : ObserverAct}
    {choice : Choice × CallbackStep} {answer : act.Answer}
    (hperform : watched.perform (.observers act) choice = some (answer, last)) :
    last.Tied := by
  obtain ⟨⟨given, later⟩, hlater, heq⟩ := Option.map_eq_some_iff.mp hperform
  cases heq
  refine htied.step ((Observers.advances_perform hlater).issued htied.issued) ?_ ?_
  · intro token made hmade hactive
    obtain ⟨record, hrecord, hbecomes⟩ := (Observers.records_perform hlater).2 token made hmade
    obtain ⟨hbefore, hobserver, htarget, hgeneration⟩ := hbecomes.kept hactive
    exact ⟨record, hrecord, hbefore, hobserver, htarget, hgeneration, rfl⟩
  · exact fun _ _ _ _ _ _ _ hregistered => hregistered

theorem observe_ok {observer target : ObjectHandle} {callback : Bool}
    (hobserve : watched.observe observer target callback = .ok (token, last)) :
    token = watched.observers.nextObserverId ∧
      registered watched.world observer.id observer.generation = true ∧
      registered watched.world target.id target.generation = true ∧
      ∃ made, watched.observers.observe observer.id target.id target.generation = some made ∧
        last = { watched with
          observers := made
          observerGeneration := Function.update watched.observerGeneration
            watched.observers.nextObserverId observer.generation } := by
  unfold observe at hobserve
  split at hobserve
  · cases hobserve
  split at hobserve
  · cases hobserve
  split at hobserve
  · cases hobserve
  case h_2 made hmade =>
    split at hobserve
    · cases hobserve
    case isFalse hobserver =>
      split at hobserve
      · cases hobserve
      case isFalse htarget =>
        cases hobserve
        exact ⟨rfl, not_not.mp hobserver, not_not.mp htarget, made, hmade, rfl⟩

omit [Infra] in
theorem records_of_observe {observers made : Observers} {observerId targetId : ObjectId}
    {targetGeneration : Nat}
    (hmade : observers.observe observerId targetId targetGeneration = some made)
    (token : TokenId) : made.records token = if token = observers.nextObserverId then
      some ⟨observerId, targetId, targetGeneration, true, 0⟩
      else observers.records token := by
  simp only [Observers.observe] at hmade
  split at hmade
  case isTrue => cases hmade
  case isFalse =>
    cases hmade
    exact Observers.records_update _ _

theorem Tied.observe (htied : watched.Tied) {observer target : ObjectHandle}
    {callback : Bool}
    (hobserve : watched.observe observer target callback = .ok (token, last)) :
    last.Tied := by
  obtain ⟨-, hobserver, htarget, made, hmade, rfl⟩ := observe_ok hobserve
  refine ⟨(Observers.advances_observe hmade).issued htied.issued, ?_⟩
  intro token hactive
  rw [Observers.observerActive, Option.any_eq_true] at hactive
  obtain ⟨record, hrecord, hactive⟩ := hactive
  have hafter := hrecord
  rw [records_of_observe hmade] at hrecord
  split at hrecord
  case isTrue heq =>
    cases hrecord
    subst heq
    refine live_of_record hafter ?_ htarget
    dsimp only
    rw [Function.update_self]
    exact hobserver
  case isFalse hother =>
    obtain ⟨-, hobserves, hwatches⟩ := htied.record hrecord hactive
    refine live_of_record hafter ?_ hwatches
    dsimp only
    rw [Function.update_of_ne hother]
    exact hobserves

end Watched

/-! ## Over runs -/

variable {pool : WatchedPool}

theorem tied_of_reachable
    (hreach : watchedSystem.machine.ReachableWhere SparesObservers pool) :
    pool.shared.Tied := by
  refine hreach.induct (motive := fun pool => pool.shared.Tied) ?_ ?_
  · rintro pool ⟨watched, ⟨-, maxObservers, maxObjects, hfresh⟩, rfl⟩
    change watched.Tied
    refine ⟨?_, ?_⟩
    · rw [hfresh]
      exact fun _ _ => rfl
    · intro token hactive
      rw [hfresh] at hactive
      cases hactive
  · intro pool label last _ htied hguard hnext
    cases label with
    | spawn entry =>
        cases hnext
        exact htied
    | step thread choice =>
        obtain ⟨-, act, rest, answer, shared, hthread, hperform, rfl⟩ :=
          System.next_step hnext
        have hspares : act.Spares pool.shared := by
          apply hguard
          rw [Pool.asked_call hthread]
          rfl
        cases act with
        | app act => exact htied.app hspares hperform
        | destroy id => exact htied.destroy hspares hperform
        | observers act => exact htied.observers hperform
    | env event =>
        obtain ⟨shared, hreact, rfl⟩ := Option.map_eq_some_iff.mp hnext
        cases event with
        | app event =>
            obtain ⟨world, hworld, rfl⟩ := Option.map_eq_some_iff.mp hreact
            refine htied.step htied.issued ?_ ?_
            · intro token made hmade hactive
              exact ⟨made, hmade, hactive, rfl, rfl, rfl, rfl⟩
            · intro token made _ _ id generation _ hregistered
              exact Watched.registered_event (AppWorld.react_event hworld) hregistered
        | observe observer target callback =>
            replace hreact : pool.shared.react (.observe observer target callback) =
              some shared := hreact
            simp only [Watched.react] at hreact
            split at hreact
            · cases hreact
            case h_2 observed hobserve =>
              cases hreact
              exact htied.observe hobserve

/-- In every state both objects of an active token are registered with their recorded
generations, and only tokens with both objects count against the limit. -/
theorem active_tokens_live
    (hreach : watchedSystem.machine.ReachableWhere SparesObservers pool) :
    (∀ token, pool.shared.observers.observerActive token = true →
      ∃ record, pool.shared.observers.records token = some record ∧
        registered pool.shared.world record.observerId
          (pool.shared.observerGeneration token) = true ∧
        registered pool.shared.world record.targetId record.targetGeneration = true) ∧
      pool.shared.observers.activeCount =
        ((List.range pool.shared.observers.nextObserverId).filter (fun token =>
          pool.shared.observers.observerActive token ∧ pool.shared.live token = true)).length := by
  have htied := tied_of_reachable hreach
  constructor
  · intro token hactive
    obtain ⟨record, hrecord, hboth⟩ :=
      (Option.any_eq_true _ _).mp (htied.live token hactive)
    exact ⟨record, hrecord, of_decide_eq_true hboth⟩
  · unfold Observers.activeCount
    refine congrArg List.length (List.filter_congr ?_)
    intro token _
    cases hactive : pool.shared.observers.observerActive token with
    | false => simp
    | true => simp [htied.live token hactive]

end

/-- A step of the application alone. -/
def onCalls : AppStep → WatchedStep
  | .spawn entry => .spawn (.call entry)
  | .step thread choice => .step thread (choice, .finish false)
  | .env event => .env (.app event)

def installSteps : List AppStep :=
  [.spawn (.coInstallComponent "A" "a" ⟨.app, none⟩)] ++ List.replicate 8 (smoothStep 0)

def uninstallSteps : List AppStep :=
  [.spawn (.coUninstallComponent "A" "a" ⟨.app, none⟩)] ++
    List.replicate 5 (smoothStep 1) ++ hookSteps 1 0 ++ List.replicate 7 (smoothStep 1)

def observedComponent (observer target : ObjectHandle) : List WatchedStep :=
  installSteps.map onCalls ++ [.env (.observe observer target true)] ++
    uninstallSteps.map onCalls

/-- The component observes the application; its token is gone with it. -/
theorem active_tokens_live_observer :
    letI := permissiveInfra
    ∃ pool, watchedSystem.machine.ReachableWhere SparesObservers pool ∧
      pool.shared.observers.nextObserverId = 2 ∧
      registered pool.shared.world ⟨.component, 1⟩ 2 = false ∧
      pool.shared.observers.activeCount = 0 ∧
      ∀ token, pool.shared.observers.observerActive token = true →
        ∃ record, pool.shared.observers.records token = some record ∧
          registered pool.shared.world record.observerId
            (pool.shared.observerGeneration token) = true ∧
          registered pool.shared.world record.targetId record.targetGeneration = true := by
  let _ := permissiveInfra
  have hboot : watchedSystem.machine.ReachableWhere SparesObservers
      (watchedSystem.boot ⟨AppWorld.fresh (.ok ()) 10 10, .fresh 10 10, fun _ => 0⟩) :=
    .start ⟨_, ⟨start_fresh 10 10 (by decide), 10, 10, rfl⟩, rfl⟩
  obtain ⟨pool, hreach, htest⟩ := hboot.exec_any
    (fun pool label => decide (SparesObservers pool label)) (fun _ _ => of_decide_eq_true)
    (observedComponent ⟨true, ⟨.component, 1⟩, 2⟩ ⟨true, ⟨.app, 0⟩, 1⟩)
    (fun pool => pool.shared.observers.nextObserverId = 2 ∧
      registered pool.shared.world ⟨.component, 1⟩ 2 = false ∧
      pool.shared.observers.activeCount = 0) (by decide)
  obtain ⟨hnext, hgone, hcount⟩ := of_decide_eq_true htest
  exact ⟨pool, hreach, hnext, hgone, hcount, (active_tokens_live hreach).1⟩

/-- The application observes the component; the token stays active when it is gone. -/
theorem active_token_not_live :
    letI := permissiveInfra
    ¬∀ pool, watchedSystem.machine.Reachable pool →
      (∀ thread < pool.count, (pool.threads thread).returned.isSome = true) →
      ∀ token, pool.shared.observers.observerActive token = true →
        ∃ record, pool.shared.observers.records token = some record ∧
          registered pool.shared.world record.observerId
            (pool.shared.observerGeneration token) = true ∧
          registered pool.shared.world record.targetId record.targetGeneration = true := by
  let _ := permissiveInfra
  intro hclaim
  have hboot : watchedSystem.machine.Reachable
      (watchedSystem.boot ⟨AppWorld.fresh (.ok ()) 10 10, .fresh 10 10, fun _ => 0⟩) :=
    .start ⟨_, ⟨start_fresh 10 10 (by decide), 10, 10, rfl⟩, rfl⟩
  obtain ⟨pool, hreach, htest⟩ := hboot.exec_any (fun _ _ => true) (fun _ _ _ => trivial)
    (observedComponent ⟨true, ⟨.app, 0⟩, 1⟩ ⟨true, ⟨.component, 1⟩, 2⟩)
    (fun pool => (∀ thread < pool.count, (pool.threads thread).returned.isSome = true) ∧
      pool.shared.observers.observerActive 1 = true ∧
      (pool.shared.observers.records 1).any (fun record =>
        record.targetId = ⟨.component, 1⟩ ∧ record.targetGeneration = 2) = true ∧
      registered pool.shared.world ⟨.component, 1⟩ 2 = false)
    (by decide)
  obtain ⟨hquiet, hactive, hrecord, hgone⟩ := of_decide_eq_true htest
  obtain ⟨record, hrecord, htarget⟩ := (Option.any_eq_true _ _).mp hrecord
  obtain ⟨htarget, hgeneration⟩ := of_decide_eq_true htarget
  obtain ⟨other, hother, -, hwatched⟩ := hclaim pool hreach hquiet 1 hactive
  cases hrecord.symm.trans hother
  rw [htarget, hgeneration, hgone] at hwatched
  cases hwatched

end BbtFramework.Observe
