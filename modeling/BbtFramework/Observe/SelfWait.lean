import BbtFramework.Observe.Barrier

/-!
# Callbacks that wait for themselves

A callback may revoke tokens and drain, and it waits then for running callbacks.
It waits for itself when it revokes its own token, and when the token of a callback
it runs is inactive while it drains.
-/

namespace BbtFramework.Observe

open BbtFramework.App
open BbtFramework.Library

/-- A thread waits for the leases of a callback that it is executing itself. -/
def SelfWaits (pool : ObserverPool) (thread : Nat) : Prop :=
  (∃ token ∈ (pool.views thread).running, 0 < pool.shared.leases token ∧
    (pool.threads thread).asks = some (.awaitGone token)) ∨
  ((pool.threads thread).asks = some .awaitDrained ∧
    ∃ token ∈ (pool.views thread).running, ∃ record ∈ pool.shared.records token,
      record.active = false ∧ 0 < record.inFlight)

/-- The callbacks run by threads that wait in a drain. -/
def DrainsUnder (views : Nat → ObserverView) (count : Nat) (token : TokenId) : Prop :=
  ∃ thread < count, (views thread).draining = true ∧ token ∈ (views thread).running

instance (views : Nat → ObserverView) (count : Nat) (token : TokenId) :
    Decidable (DrainsUnder views count token) :=
  inferInstanceAs (Decidable (∃ thread < count, _ ∧ _))

/-- What is asked of an action of a thread with the view `view`: no callback revokes
its own token, none drains under an inactive token, and no token is marked under
whose callback a thread waits in a drain. -/
def WaitsForOthers (observers : Observers) (views : Nat → ObserverView) (count : Nat)
    (view : ObserverView) : ObserverAct → Prop
  | .markInactive token => token ∉ view.running ∧ ¬DrainsUnder views count token
  | .markOf observerId => ∀ token < observers.nextObserverId,
      ∀ record ∈ observers.records token, record.observerId = observerId →
        ¬DrainsUnder views count token
  | .eraseIdle => ∀ token ∈ view.running, ∀ record ∈ observers.records token,
      record.active = true
  | _ => True

instance (observers : Observers) (views : Nat → ObserverView) (count : Nat)
    (view : ObserverView) (act : ObserverAct) :
    Decidable (WaitsForOthers observers views count view act) :=
  match act with
  | .markInactive _ => inferInstanceAs (Decidable (_ ∧ _))
  | .markOf observerId => inferInstanceAs (Decidable
      (∀ token < observers.nextObserverId, ∀ record ∈ observers.records token,
        record.observerId = observerId → ¬DrainsUnder views count token))
  | .eraseIdle => inferInstanceAs (Decidable (∀ token ∈ view.running,
      ∀ record ∈ observers.records token, record.active = true))
  | .acquire _ | .proceed _ | .recordFailure _ | .release _ | .awaitGone _ | .erase _
  | .awaitDrained | .eraseInactive => isTrue trivial

def NoOwnWait (pool : ObserverPool) (label : ObserverStep) : Prop :=
  ∀ thread ∈ label.actor, ∀ act ∈ pool.asked label,
    WaitsForOthers pool.shared pool.views pool.count (pool.views thread) act

instance (pool : ObserverPool) (label : ObserverStep) : Decidable (NoOwnWait pool label) :=
  inferInstanceAs (Decidable (∀ thread ∈ label.actor, ∀ act ∈ pool.asked label,
    WaitsForOthers pool.shared pool.views pool.count (pool.views thread) act))

structure Outward (observers : Observers) (views : Nat → ObserverView) : Prop where
  issued : observers.Issued
  notOwn : ∀ thread, (views thread).ownRevoked = false
  active : ∀ thread, (views thread).draining = true →
    ∀ token ∈ (views thread).running, ∀ record ∈ observers.records token,
      record.active = true

/-- A thread is at the wait of a drain after an action only if it was there before or
the action is the first pass of the drain. -/
theorem ObserverView.draining_after {view : ObserverView} {act : ObserverAct}
    (hallows : view.allows act) {answer : act.Answer}
    (hdraining : (view.after act answer).draining = true) {token : TokenId}
    (hmem : token ∈ (view.after act answer).running) :
    token ∈ view.running ∧ (view.draining = true ∨ act = .eraseIdle) := by
  cases act with
  | acquire other =>
      have hfree : view.draining = false := hallows
      change Bool at answer
      cases answer with
      | false => cases hfree.symm.trans hdraining
      | true => cases hfree.symm.trans hdraining
  | release other => exact ⟨List.mem_of_mem_tail hmem, Or.inl hdraining⟩
  | awaitDrained => cases hdraining
  | eraseIdle => exact ⟨hmem, Or.inr rfl⟩
  | _ => exact ⟨hmem, Or.inl hdraining⟩

namespace Outward

variable {observers later : Observers} {views : Nat → ObserverView}

/-- An allowed action of the run keeps the invariant. -/
theorem perform (houtward : Outward observers views) {thread count : Nat}
    {act : ObserverAct} {choice : CallbackStep} {answer : act.Answer}
    (hfresh : ∀ other, count ≤ other → views other = .fresh)
    (hallows : (views thread).allows act)
    (hwaits : WaitsForOthers observers views count (views thread) act)
    (hperform : observers.perform act choice = some (answer, later)) :
    Outward later (Function.update views thread ((views thread).after act answer)) := by
  have hadvances := Observers.advances_perform hperform
  have hrecords := (Observers.records_perform hperform).2
  have hunder : ∀ other, (views other).draining = true →
      ∀ token ∈ (views other).running, DrainsUnder views count token := by
    intro other hdraining token hmem
    refine ⟨other, ?_, hdraining, hmem⟩
    by_contra hge
    rw [hfresh other (Nat.le_of_not_lt hge)] at hdraining
    cases hdraining
  -- a record under a wait was active, and the action does not mark it
  have hkept : ∀ token, (∀ record ∈ observers.records token, record.active = true) →
      DrainsUnder views count token ∨ act = .eraseIdle →
      ∀ made ∈ later.records token, made.active = true := by
    intro token hall hdrains made hmade
    obtain ⟨record, hrecord, hbecomes⟩ := hrecords token made hmade
    have hactive := hall record hrecord
    cases hbecomes with
    | same => exact hactive
    | leased => exact hactive
    | returned => exact hactive
    | marked =>
        obtain hunder | herase := hdrains
        · exact absurd hunder hwaits.2
        · cases herase
    | markedOf =>
        obtain hunder | herase := hdrains
        · have hlt : token < observers.nextObserverId := by
            by_contra hge
            cases (houtward.issued token (Nat.le_of_not_lt hge)).symm.trans hrecord
          exact absurd hunder (hwaits token hlt _ hrecord rfl)
        · cases herase
  constructor
  case issued => exact hadvances.issued houtward.issued
  case notOwn =>
    intro other
    by_cases heq : other = thread
    · subst heq
      rw [Function.update_self]
      have hown := houtward.notOwn other
      cases act with
      | acquire token =>
          change Bool at answer
          cases answer with
          | false => exact hown
          | true => exact hown
      | markInactive token => simp [ObserverView.after, hown, hwaits.1]
      | _ => exact hown
    · rw [Function.update_of_ne heq]
      exact houtward.notOwn other
  case active =>
    intro other hdraining token hmem
    by_cases heq : other = thread
    · subst heq
      rw [Function.update_self] at hdraining hmem
      obtain ⟨hrunning, hbefore | rfl⟩ :=
        ObserverView.draining_after hallows hdraining hmem
      · exact hkept token (houtward.active other hbefore token hrunning)
          (Or.inl (hunder other hbefore token hrunning))
      · exact hkept token (hwaits token hrunning) (Or.inr rfl)
    · rw [Function.update_of_ne heq] at hdraining hmem
      exact hkept token (houtward.active other hdraining token hmem)
        (Or.inl (hunder other hdraining token hmem))

end Outward

theorem outward_of_reachable {pool : ObserverPool}
    (hreach : observerSystem.machine.ReachableWhere NoOwnWait pool) :
    Outward pool.shared pool.views := by
  refine observers_disciplined.invariant
    (motive := fun observers views => Outward observers views) ?_ ?_ ?_ hreach
  · rintro observers ⟨maxObservers, maxObjects, rfl⟩
    exact ⟨fun _ _ => rfl, fun _ => rfl, fun _ => nofun⟩
  · intro pool thread choice act answer observers hacts houtward
    exact houtward.perform (System.views_of_ge hacts.reach) hacts.allowed
      (hacts.guarded thread rfl act (asked_of_acts hacts)) hacts.performed
  · rintro pool ⟨observerId, targetId, targetGeneration⟩ observers - - henv houtward
    refine ⟨(Observers.advances_observe henv).issued houtward.issued, houtward.notOwn, ?_⟩
    intro thread hdraining token hmem made hmade
    obtain rfl | hrecord := Observers.records_observe henv hmade
    · rfl
    · exact houtward.active thread hdraining token hmem made hrecord

/-- In every run whose callbacks wait for others only, no thread waits for a callback
that it is executing itself. -/
theorem no_self_wait {pool : ObserverPool}
    (hreach : observerSystem.machine.ReachableWhere NoOwnWait pool) (thread : Nat) :
    ¬SelfWaits pool thread := by
  have houtward := outward_of_reachable hreach
  have hallowed : ∀ act, (pool.threads thread).asks = some act →
      (pool.views thread).allows act :=
    fun act hasks => observers_disciplined.allowed hreach hasks
  rintro (⟨token, hrunning, -, hasks⟩ | ⟨hasks, token, hrunning, record, hrecord, hinactive, -⟩)
  · have hown := (hallowed _ hasks).2 hrunning
    cases hown.symm.trans (houtward.notOwn thread)
  · have hactive := houtward.active thread (hallowed _ hasks) token hrunning record hrecord
    cases hactive.symm.trans hinactive

/-- A callback revokes the token of another one and ends. -/
theorem no_self_wait_other :
    ∃ pool : ObserverPool, observerSystem.machine.ReachableWhere NoOwnWait pool ∧
      (pool.threads 0).asks = some (.awaitGone 2) ∧ (pool.views 0).running = [1] ∧
      ¬SelfWaits pool 0 := by
  have hboot : observerSystem.machine.ReachableWhere NoOwnWait
      (observerSystem.boot (.fresh 10 10)) := .start ⟨_, ⟨10, 10, rfl⟩, rfl⟩
  obtain ⟨pool, hreach, htest⟩ := hboot.exec_any
    (fun pool label => decide (NoOwnWait pool label)) (fun _ _ => of_decide_eq_true)
    [observed, observed, .spawn (.dispatch 2 [pendingEvent]), .step 0 (.revoke 2),
      .step 0 (.revoke 2), .step 0 (.revoke 2)]
    (fun pool => (pool.threads 0).asks = some (.awaitGone 2) ∧
      (pool.views 0).running = [1]) (by decide)
  obtain ⟨hasks, hrunning⟩ := of_decide_eq_true htest
  exact ⟨pool, hreach, hasks, hrunning, no_self_wait hreach 0⟩

theorem callback_waits_for_itself :
    ¬∀ pool : ObserverPool, observerSystem.machine.Reachable pool →
      ∀ thread, ¬SelfWaits pool thread := by
  intro hclaim
  have hboot : observerSystem.machine.Reachable (observerSystem.boot (.fresh 10 10)) :=
    .start ⟨_, ⟨10, 10, rfl⟩, rfl⟩
  obtain ⟨pool, hreach, htest⟩ := hboot.exec_any (fun _ _ => true) (fun _ _ _ => trivial)
    [observed, .spawn (.dispatch 2 [pendingEvent]), .step 0 (.revoke 1),
      .step 0 (.revoke 1), .step 0 (.revoke 1)]
    (fun pool => (1 : TokenId) ∈ (pool.views 0).running ∧ 0 < pool.shared.leases 1 ∧
      (pool.threads 0).asks = some (.awaitGone 1)) (by decide)
  exact hclaim pool hreach 0 (Or.inl ⟨1, of_decide_eq_true htest⟩)

end BbtFramework.Observe
