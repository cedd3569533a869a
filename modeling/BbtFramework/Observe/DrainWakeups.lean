import BbtFramework.App.BorrowWaits
import BbtFramework.Observe.Barrier

/-!
# Drain waits lose no wake-up

`_WaitObserversDone` and the end of a round of `DispatchEvents` action by action, around the
programs of the observers.  A round gives its lease back and takes the list of waiters in one
critical section and notifies outside it; the list it swaps in is the one of the round
before.  Erasing a record notifies nobody: a record is erased without leases, except by the
last pass of a drain.
-/

namespace BbtFramework.Observe

open BbtFramework.App
open BbtFramework.Library

/-- What a wait of the observers waits for, when the action is one. -/
def Observers.awaited (observers : Observers) : ObserverAct → Option Bool
  | .awaitGone token => some (observers.leases token = 0)
  | .awaitDrained => some observers.Drained
  | _ => none

def ObserverAct.givesBack : ObserverAct → Bool
  | .release _ => true
  | _ => false

/-- The observers, `m_observer_waiters` and the lists of the calls of `DispatchEvents`; a
call is named by its thread and the number of callbacks it runs under. -/
structure ObserverWorld where
  pool : ObserverPool
  waits : WaitList (Nat × Nat) WaitStatus

/-- One action of the observers, the actions at the end of a round of `DispatchEvents`, and
those of `_WaitObserversDone`.  Whether a round is the first of its batch, with a new list,
and whether a wait is in a coroutine is left open. -/
inductive ObserverWaitStep where
  | run (step : ObserverStep)
  | release (thread : Nat) (reuse : Bool)
  | notify (thread : Nat) (keep : Bool)
  | notifyAll (thread : Nat)
  | enterWait (thread : Nat)
  | wait (thread : Nat) (step : SleepStep WaitStatus)

def ofObserverWait : SleepStep WaitStatus → Bool
  | .giveUp status => status ≠ .completed
  | _ => true

namespace ObserverWorld

def condition (world : ObserverWorld) (thread : Nat) : Option Bool :=
  (world.pool.threads thread).asks.bind world.pool.shared.awaited

/-- The call of `DispatchEvents` a thread is in. -/
def call (pool : ObserverPool) (thread : Nat) : Nat × Nat :=
  (thread, (pool.views thread).running.length)

variable (world : ObserverWorld)

/-- The thread has notified everybody it has to. -/
def Free (thread : Nat) : Prop :=
  ∀ depth < (world.pool.views thread).running.length + 1,
    (world.waits.couriers (thread, depth)).Done

instance (thread : Nat) : Decidable (world.Free thread) :=
  inferInstanceAs (Decidable (∀ depth < _, _))

def runNext : ObserverStep → Option ObserverWorld
  | .step thread choice =>
      if world.Free thread ∧
          ((world.condition thread).isNone ∨ world.waits.pc thread = .looking) ∧
          ¬(world.pool.threads thread).asks.any ObserverAct.givesBack then
        (observerSystem.next world.pool (.step thread choice)).map (fun pool =>
          ⟨pool, world.waits.move thread .awake⟩)
      else none
  | .env event => (observerSystem.next world.pool (.env event)).map (fun pool =>
      ⟨pool, world.waits⟩)
  | .spawn entry => (observerSystem.next world.pool (.spawn entry)).map (fun pool =>
      ⟨pool, world.waits⟩)

def next : ObserverWaitStep → Option ObserverWorld
  | .run step => world.runNext step
  | .release thread reuse =>
      if world.Free thread ∧ (world.pool.threads thread).asks.any ObserverAct.givesBack then
        (observerSystem.next world.pool (.step thread (.finish false))).map (fun pool =>
          ⟨pool, world.waits.swap (call pool thread) reuse⟩)
      else none
  | .notify thread keep =>
      (world.waits.notify (call world.pool thread) keep).map (fun waits =>
        { world with waits := waits })
  | .notifyAll thread =>
      (world.waits.notifyAll (call world.pool thread)).map (fun waits =>
        { world with waits := waits })
  | .enterWait thread =>
      if thread < world.pool.count ∧ (world.condition thread).isSome ∧
          world.waits.pc thread = .awake then
        some { world with waits := world.waits.enter thread .looking }
      else none
  | .wait thread step =>
      match world.condition thread with
      | none => none
      | some ready =>
          if ofObserverWait step then
            (world.waits.act thread ready step).map (fun waits =>
              { world with waits := waits })
          else none

def LastPass : ObserverWaitStep → Prop
  | .run step => world.pool.asked step = some .eraseInactive
  | _ => False

instance (label : ObserverWaitStep) : Decidable (world.LastPass label) :=
  match label with
  | .run step => inferInstanceAs (Decidable (world.pool.asked step = some .eraseInactive))
  | .release _ _ | .notify _ _ | .notifyAll _ | .enterWait _ | .wait _ _ =>
      inferInstanceAs (Decidable False)

end ObserverWorld

/-- Every interleaving of dispatches, revocations and drains with the waits in them. -/
def observerMachine : Machine ObserverWorld ObserverWaitStep where
  init := fun world => ∃ maxObservers maxObjects,
    world = ⟨observerSystem.boot (.fresh maxObservers maxObjects), .empty⟩
  next := ObserverWorld.next

/-- When a drain makes its last pass, there is for every thread that sleeps with a false
condition another thread that runs a callback. -/
def LastPassAmidOthers (world : ObserverWorld) (label : ObserverWaitStep) : Prop :=
  world.LastPass label → ∀ thread < world.pool.count, world.waits.Asleep thread →
    world.condition thread = some false →
    ∃ other < world.pool.count, other ≠ thread ∧ (world.pool.views other).running ≠ []

instance (world : ObserverWorld) (label : ObserverWaitStep) :
    Decidable (LastPassAmidOthers world label) :=
  inferInstanceAs (Decidable (_ → _))

/-- What the threads know of the tokens they have revoked. -/
structure Observers.Knows (observers : Observers) (views : Nat → ObserverView) : Prop where
  issued : observers.Issued
  revoked : ∀ thread, ∀ token ∈ (views thread).revoked, observers.Revoked token
  gone : ∀ thread, ∀ token ∈ (views thread).gone, observers.Gone token

/-- It is true in every run. -/
theorem knows_of_reachable {pool : ObserverPool}
    (hreach : observerSystem.machine.Reachable pool) : pool.shared.Knows pool.views := by
  refine observers_disciplined.invariant
    (motive := fun observers views => observers.Knows views) ?_ ?_ ?_ hreach
  · rintro observers ⟨maxObservers, maxObjects, rfl⟩
    constructor
    · exact fun _ _ => rfl
    · exact fun _ _ hmem => absurd hmem List.not_mem_nil
    · exact fun _ _ hmem => absurd hmem List.not_mem_nil
  · intro pool thread choice act answer observers hacts hknows
    have hadvances := Observers.advances_perform hacts.performed
    obtain ⟨hrevoked, hgone⟩ := Observers.knows_perform (hknows.revoked thread)
      (hknows.gone thread) hacts.allowed hacts.performed
    constructor
    · exact hadvances.issued hknows.issued
    · intro other token hmem
      by_cases heq : other = thread
      · subst heq
        rw [Function.update_self] at hmem
        exact hrevoked token hmem
      · rw [Function.update_of_ne heq] at hmem
        exact hadvances.revoked (hknows.revoked other token hmem)
    · intro other token hmem
      by_cases heq : other = thread
      · subst heq
        rw [Function.update_self] at hmem
        exact hgone token hmem
      · rw [Function.update_of_ne heq] at hmem
        exact hadvances.gone (hknows.gone other token hmem)
  · rintro pool ⟨observerId, targetId, targetGeneration⟩ observers - - henv hknows
    have hadvances := Observers.advances_observe henv
    constructor
    · exact hadvances.issued hknows.issued
    · exact fun thread token hmem => hadvances.revoked (hknows.revoked thread token hmem)
    · exact fun thread token hmem => hadvances.gone (hknows.gone thread token hmem)

/-- A thread that has returned runs no callback. -/
theorem observers_settled :
    observerSystem.Disciplined (fun _ later => later.running = []) where
  main := by
    intro entry
    cases entry with
    | dispatch fuel events =>
        refine (dispatchEvents_settles (runCallback_settles fuel) events .fresh rfl).andThen ?_
        rintro _ later ⟨hrunning, -⟩
        exact hrunning
    | revoke token =>
        refine (revokeObserver_follows token .fresh).andThen ?_
        rintro _ later ⟨hrunning, -⟩
        exact hrunning
    | mark observerId => exact ⟨trivial, fun _ _ => rfl⟩
    | drain =>
        refine (drainInactiveObservers_follows .fresh).andThen ?_
        rintro _ later ⟨hrunning, -⟩
        exact hrunning
    | revokeOf observerId =>
        refine (revokeObserversOf_follows observerId .fresh).andThen ?_
        rintro _ later ⟨hrunning, -⟩
        exact hrunning
  idle := rfl
  answers := fun _ _ _ _ _ _ => trivial

section

variable {observers later : Observers}

/-- Leases that are not given back keep a condition false, as long as no token is taken back
and none is revived. -/
theorem Observers.Advances.awaited_false (hadvances : observers.Advances later)
    (hleases : ∀ token, observers.leases token ≤ later.leases token) {act : ObserverAct}
    (hfalse : observers.awaited act = some false) : later.awaited act = some false := by
  cases act with
  | awaitGone token =>
      have hleased : observers.leases token ≠ 0 :=
        of_decide_eq_false (Option.some.inj hfalse)
      have hle := hleases token
      exact congrArg some (decide_eq_false (by omega))
  | awaitDrained =>
      have hwaits : ¬observers.Drained := of_decide_eq_false (Option.some.inj hfalse)
      refine congrArg some (decide_eq_false ?_)
      intro hdrained
      refine hwaits ?_
      intro token hlt record hrecord hinactive
      have hrevoked : observers.Revoked token := ⟨hlt, by simp [Observers.observerActive,
        Option.mem_def.mp hrecord, hinactive]⟩
      have hgone := (hdrained.gone (hadvances.revoked hrevoked)).2
      have hle := hleases token
      rw [hgone, Observers.leases, Option.mem_def.mp hrecord] at hle
      exact Nat.le_zero.mp hle
  | _ => cases hfalse

theorem leases_le_acquire {token : TokenId} (other : TokenId) :
    observers.leases other ≤ (observers.acquire token).2.leases other := by
  unfold Observers.acquire
  split
  case h_1 => exact Nat.le_refl _
  case h_2 record hrecord =>
    split
    · rw [Observers.leases_update]
      split
      case isTrue heq =>
        rw [heq, Observers.leases, hrecord]
        exact Nat.le_succ _
      case isFalse => exact Nat.le_refl _
    · exact Nat.le_refl _

end

/-- A step that gives no lease back and is not the last pass of a drain makes no condition
true: what it erases has no leases. -/
theorem Observers.awaited_stays {pool last : ObserverPool} {step : ObserverStep}
    (hreach : observerSystem.machine.Reachable pool)
    (hnext : observerSystem.next pool step = some last)
    (hkeeps : ∀ token, pool.asked step ≠ some (.release token))
    (hlast : pool.asked step ≠ some .eraseInactive) {act : ObserverAct}
    (hfalse : pool.shared.awaited act = some false) :
    last.shared.awaited act = some false := by
  have hknows := knows_of_reachable hreach
  refine (advances_of_next hnext).awaited_false ?_ hfalse
  intro token
  cases step with
  | spawn entry =>
      cases hnext
      exact Nat.le_refl _
  | env event =>
      obtain ⟨observers, henv, rfl⟩ := Option.map_eq_some_iff.mp hnext
      rw [Observers.leases_observe hknows.issued henv]
  | step thread choice =>
      have hfollows := observers_disciplined.follows hreach thread
      obtain ⟨-, performed, rest, answer, observers, hthread, hperform, rfl⟩ :=
        System.next_step hnext
      rw [hthread] at hfollows
      have hasked : pool.asked (.step thread choice : ObserverStep) = some performed :=
        Pool.asked_call hthread
      rw [hasked] at hkeeps hlast
      by_cases hacquire : ∃ other, performed = .acquire other
      · obtain ⟨other, rfl⟩ := hacquire
        have hmade : (pool.shared.acquire other).2 = observers :=
          congrArg Prod.snd (Option.some.inj hperform)
        exact hmade ▸ leases_le_acquire token
      · refine Nat.le_of_eq (Observers.leases_perform hperform hknows.issued ?_ ?_ ?_ ?_
          token).symm
        · exact fun other heq => hacquire ⟨other, heq⟩
        · exact fun other heq => hkeeps other (congrArg some heq)
        · rintro other rfl
          exact (hknows.gone thread other hfollows.1).2
        · exact fun heq => absurd (congrArg some heq) hlast

/-- A callback that runs goes on running until its lease is given back. -/
theorem running_after {view : ObserverView} {act : ObserverAct} (answer : act.Answer)
    (hkeeps : ∀ token, act ≠ .release token) (hrunning : view.running ≠ []) :
    (view.after act answer).running ≠ [] := by
  cases act with
  | acquire token =>
      change Bool at answer
      cases answer with
      | false => exact hrunning
      | true => exact List.cons_ne_nil _ _
  | release token => exact absurd rfl (hkeeps token)
  | _ => exact hrunning

theorem running_of_next {pool last : ObserverPool} {step : ObserverStep}
    (hnext : observerSystem.next pool step = some last)
    (hkeeps : ∀ token, pool.asked step ≠ some (.release token)) (thread : Nat)
    (hrunning : (pool.views thread).running ≠ []) : (last.views thread).running ≠ [] := by
  cases step with
  | spawn entry =>
      cases hnext
      exact hrunning
  | env event =>
      obtain ⟨observers, -, rfl⟩ := Option.map_eq_some_iff.mp hnext
      exact hrunning
  | step actor choice =>
      obtain ⟨-, act, rest, answer, observers, hthread, -, rfl⟩ := System.next_step hnext
      dsimp only
      by_cases heq : thread = actor
      · subst heq
        rw [Function.update_self]
        refine running_after answer ?_ hrunning
        rintro token rfl
        exact hkeeps token (Pool.asked_call hthread)
      · rw [Function.update_of_ne heq]
        exact hrunning

/-! ## Every run -/

theorem isSome_awaited (observers later : Observers) (act : ObserverAct) :
    (observers.awaited act).isSome = (later.awaited act).isSome := by
  cases act <;> rfl

namespace ObserverWorld

/-- A thread whose program has not moved is at the same wait. -/
theorem isSome_condition (world : ObserverWorld) {last : ObserverWorld} {thread : Nat}
    (hsame : last.pool.threads thread = world.pool.threads thread) :
    (last.condition thread).isSome = (world.condition thread).isSome := by
  rw [condition, condition, hsame, Option.isSome_bind, Option.isSome_bind]
  exact congrArg (fun test => Option.any test (world.pool.threads thread).asks)
    (funext (isSome_awaited _ _))

/-- The thread need not be woken by a callback of another thread. -/
def Ready (world : ObserverWorld) (thread : Nat) : Prop :=
  world.condition thread ≠ some false ∧
    ∀ other, other ≠ thread → (world.pool.views other).running = []

/-- What holds in every run whose drains make their last pass amid callbacks of others. -/
structure Sound (world : ObserverWorld) : Prop where
  reach : observerSystem.machine.Reachable world.pool
  waiting : ∀ thread, world.waits.pc thread ≠ .awake →
    thread < world.pool.count ∧ (world.condition thread).isSome = true
  waits : world.waits.Sound world.Ready

variable {world : ObserverWorld} {last : ObserverPool} {step : ObserverStep}
variable {waits : WaitList (Nat × Nat) WaitStatus}

/-- A step of the observers that gives no lease back, with those threads in a wait that were
in one before and have not moved. -/
theorem Sound.run (hsound : world.Sound)
    (hnext : observerSystem.next world.pool step = some last)
    (hkeeps : ∀ token, world.pool.asked step ≠ some (.release token))
    (hamid : LastPassAmidOthers world (.run step))
    (hcount : world.pool.count ≤ last.count)
    (hwaiting : ∀ thread, waits.pc thread ≠ .awake → world.waits.pc thread ≠ .awake ∧
      last.threads thread = world.pool.threads thread)
    (hasleep : ∀ thread, waits.Asleep thread → world.waits.Asleep thread)
    (hwaits : waits.Sound world.Ready) : ObserverWorld.Sound ⟨last, waits⟩ := by
  have hrunning := running_of_next hnext hkeeps
  constructor
  · exact hsound.reach.step trivial hnext
  · intro thread hpc
    obtain ⟨hbefore, hsame⟩ := hwaiting thread hpc
    obtain ⟨hlt, hcondition⟩ := hsound.waiting thread hbefore
    refine ⟨Nat.lt_of_lt_of_le hlt hcount, ?_⟩
    rw [isSome_condition world hsame]
    exact hcondition
  · refine hwaits.mono ?_
    rintro thread hthread ⟨hcondition, hothers⟩
    obtain ⟨hbefore, hsame⟩ := hwaiting thread hthread.ne_awake
    refine ⟨?_, ?_⟩
    · intro hfalse
      by_cases hlast : world.pool.asked step = some .eraseInactive
      · obtain ⟨other, -, hne, hother⟩ := hamid hlast thread (hsound.waiting thread hbefore).1
          (hasleep thread hthread) hfalse
        exact hrunning other hother (hothers other hne)
      · refine hcondition ?_
        obtain ⟨act, hasks, hawaited⟩ := Option.bind_eq_some_iff.mp hfalse
        rw [condition, hsame, hasks, Option.bind_some]
        exact Observers.awaited_stays hsound.reach hnext hkeeps hlast hawaited
    · intro other hne
      by_contra hother
      exact hrunning other hother (hothers other hne)

theorem Sound.runNext {after : ObserverWorld} (hsound : world.Sound)
    (hamid : LastPassAmidOthers world (.run step))
    (hnext : world.runNext step = some after) : after.Sound := by
  cases step with
  | spawn entry =>
      simp only [ObserverWorld.runNext] at hnext
      obtain ⟨last, hlast, rfl⟩ := Option.map_eq_some_iff.mp hnext
      refine hsound.run hlast (by simp [Pool.asked]) hamid ?_ ?_ (fun _ hasleep => hasleep)
        hsound.waits
      · cases hlast
        exact Nat.le_succ _
      · intro thread hpc
        cases hlast
        refine ⟨hpc, Function.update_of_ne ?_ _ _⟩
        exact Nat.ne_of_lt (hsound.waiting thread hpc).1
  | step thread choice =>
      simp only [ObserverWorld.runNext, Option.ite_none_right_eq_some] at hnext
      obtain ⟨⟨-, -, hkeeps⟩, hnext⟩ := hnext
      obtain ⟨last, hlast, rfl⟩ := Option.map_eq_some_iff.mp hnext
      have hcount : world.pool.count = last.count ∧ ∀ other, other ≠ thread →
          last.threads other = world.pool.threads other := by
        obtain ⟨-, act, rest, answer, observers, -, -, rfl⟩ := System.next_step hlast
        exact ⟨rfl, fun other hne => Function.update_of_ne hne _ _⟩
      refine hsound.run hlast ?_ hamid (Nat.le_of_eq hcount.1) ?_ ?_
        (hsound.waits.rest thread rfl (by simp))
      · intro token hasked
        refine hkeeps ?_
        rw [show (world.pool.threads thread).asks = some (.release token) from hasked]
        rfl
      · intro other hpc
        have hne : other ≠ thread := by
          rintro rfl
          exact hpc (WaitList.pc_move _ _)
        rw [WaitList.pc_move_ne _ hne] at hpc
        exact ⟨hpc, hcount.2 other hne⟩
      · exact fun other hasleep => (WaitList.asleep_of_move_awake hasleep).2
  | env event =>
      simp only [ObserverWorld.runNext] at hnext
      obtain ⟨last, hlast, rfl⟩ := Option.map_eq_some_iff.mp hnext
      have hsame : last.count = world.pool.count ∧ last.threads = world.pool.threads := by
        obtain ⟨state, -, rfl⟩ := Option.map_eq_some_iff.mp hlast
        exact ⟨rfl, rfl⟩
      exact hsound.run hlast (by simp [Pool.asked]) hamid (Nat.le_of_eq hsame.1.symm)
        (fun thread hpc => ⟨hpc, congrFun hsame.2 thread⟩) (fun _ hasleep => hasleep)
        hsound.waits

/-- The end of a round: who sleeps is on its list. -/
theorem Sound.release {thread : Nat} {reuse : Bool} (hsound : world.Sound)
    (hfree : world.Free thread)
    (hgives : (world.pool.threads thread).asks.any ObserverAct.givesBack = true)
    (hnext : observerSystem.next world.pool (.step thread (.finish false)) = some last) :
    ObserverWorld.Sound ⟨last, world.waits.swap (call last thread) reuse⟩ := by
  have hstep : observerSystem.machine.next world.pool (.step thread (.finish false)) =
      some last := hnext
  obtain ⟨-, act, rest, answer, observers, hthread, -, hlast⟩ := System.next_step hnext
  rw [hthread] at hgives
  obtain ⟨token, rfl⟩ : ∃ token, act = .release token := by
    cases act with
    | release token => exact ⟨token, rfl⟩
    | _ => cases hgives
  have hawake : world.waits.pc thread = .awake := by
    by_contra hwaiting
    have hcondition := (hsound.waiting thread hwaiting).2
    rw [condition, hthread] at hcondition
    cases hcondition
  have hdepth : (last.views thread).running.length <
      (world.pool.views thread).running.length + 1 := by
    have hviews : last.views = Function.update world.pool.views thread
        { world.pool.views thread with
          running := (world.pool.views thread).running.tail } := by
      rw [hlast]
      rfl
    rw [hviews, Function.update_self]
    have hle : (world.pool.views thread).running.tail.length ≤
        (world.pool.views thread).running.length := by
      rw [List.length_tail]
      exact Nat.sub_le _ _
    exact Nat.lt_succ_of_le hle
  constructor
  · exact hsound.reach.step trivial hstep
  · intro other hpc
    have hne : other ≠ thread := by
      rintro rfl
      exact hpc hawake
    obtain ⟨hlt, hcondition⟩ := hsound.waiting other hpc
    have hsame : last.threads other = world.pool.threads other := by
      rw [hlast]
      exact Function.update_of_ne hne _ _
    refine ⟨by rw [hlast]; exact hlt, ?_⟩
    rw [isSome_condition world hsame]
    exact hcondition
  · exact hsound.waits.swap _ (hfree _ hdepth).1 reuse

/-- A step of the waits and the notifications alone. -/
theorem Sound.within (hsound : world.Sound)
    (hwaiting : ∀ thread, waits.pc thread ≠ .awake → world.waits.pc thread ≠ .awake ∨
      thread < world.pool.count ∧ (world.condition thread).isSome = true)
    (hwaits : waits.Sound world.Ready) :
    ObserverWorld.Sound { world with waits := waits } := by
  constructor
  · exact hsound.reach
  · intro thread hpc
    rcases hwaiting thread hpc with hbefore | hnew
    · exact hsound.waiting thread hbefore
    · exact hnew
  · exact hwaits

theorem Sound.next {label : ObserverWaitStep} {after : ObserverWorld} (hsound : world.Sound)
    (hamid : LastPassAmidOthers world label) (hnext : world.next label = some after) :
    after.Sound := by
  cases label with
  | run step => exact hsound.runNext hamid hnext
  | release thread reuse =>
      simp only [ObserverWorld.next, Option.ite_none_right_eq_some] at hnext
      obtain ⟨⟨hfree, hgives⟩, hnext⟩ := hnext
      obtain ⟨last, hlast, rfl⟩ := Option.map_eq_some_iff.mp hnext
      exact hsound.release hfree hgives hlast
  | notify thread keep =>
      obtain ⟨waits, hwaits, rfl⟩ := Option.map_eq_some_iff.mp hnext
      refine hsound.within (fun thread hpc => Or.inl ?_) (hsound.waits.notify hwaits)
      obtain ⟨-, -, -, -, hsleepers, -⟩ := WaitList.notify_cases hwaits
      rwa [WaitList.pc, hsleepers] at hpc
  | notifyAll thread =>
      obtain ⟨waits, hwaits, rfl⟩ := Option.map_eq_some_iff.mp hnext
      refine hsound.within (fun thread hpc => Or.inl ?_) (hsound.waits.notifyAll hwaits)
      intro hawake
      rw [WaitList.pc_notifyAll hwaits, hawake] at hpc
      exact hpc rfl
  | enterWait thread =>
      simp only [ObserverWorld.next, Option.ite_none_right_eq_some, Option.some.injEq] at hnext
      obtain ⟨⟨hlt, hcondition, -⟩, rfl⟩ := hnext
      refine hsound.within ?_ (hsound.waits.enter thread rfl (by simp))
      intro other hpc
      by_cases heq : other = thread
      · subst heq
        exact Or.inr ⟨hlt, hcondition⟩
      · rw [WaitList.pc_enter_ne _ heq] at hpc
        exact Or.inl hpc
  | wait thread step =>
      simp only [ObserverWorld.next] at hnext
      split at hnext
      case h_1 => cases hnext
      case h_2 ready hready =>
        simp only [Option.ite_none_right_eq_some] at hnext
        obtain ⟨waits, hwaits, rfl⟩ := Option.map_eq_some_iff.mp hnext.2
        obtain ⟨hthread, -, hothers⟩ := WaitList.act_frame hwaits
        refine hsound.within ?_ (hsound.waits.act ?_ hwaits)
        · intro other hpc
          by_cases heq : other = thread
          · subst heq
            exact Or.inl hthread
          · rw [WaitList.pc, hothers other heq] at hpc
            exact Or.inl hpc
        · rintro rfl ⟨hcondition, -⟩
          exact hcondition hready

theorem sound_of_reachable
    (hreach : observerMachine.ReachableWhere LastPassAmidOthers world) : world.Sound := by
  refine hreach.induct ?_ ?_
  · rintro world ⟨maxObservers, maxObjects, rfl⟩
    exact ⟨.start ⟨_, ⟨maxObservers, maxObjects, rfl⟩, rfl⟩, fun _ hpc => absurd rfl hpc,
      WaitList.sound_empty _⟩
  · exact fun world label after _ hsound hamid hnext => hsound.next hamid hnext

/-- A thread that has returned runs no callback. -/
theorem Sound.running_nil (hsound : world.Sound) {thread : Nat}
    (hdone : (world.pool.threads thread).asks = none) :
    (world.pool.views thread).running = [] := by
  cases hthread : world.pool.threads thread with
  | done value =>
      have hreturned : (world.pool.threads thread).returned = some value := by
        rw [hthread]
        rfl
      exact observers_settled.returned hsound.reach hreturned
  | call act rest =>
      rw [hthread] at hdone
      cases hdone

/-- The end of a round of `DispatchEvents`. -/
def takesList : ObserverWaitStep → Bool
  | .release _ _ => true
  | _ => false

/-- Until somebody takes the list there is nobody to notify. -/
theorem quiet_next {label : ObserverWaitStep} {after : ObserverWorld}
    (hquiet : world.waits.Quiet) (htakes : takesList label = false)
    (hnext : world.next label = some after) : after.waits.Quiet := by
  cases label with
  | run step =>
      cases step with
      | step thread choice =>
          simp only [ObserverWorld.next, ObserverWorld.runNext,
            Option.ite_none_right_eq_some] at hnext
          obtain ⟨last, -, rfl⟩ := Option.map_eq_some_iff.mp hnext.2
          exact hquiet
      | _ =>
          simp only [ObserverWorld.next, ObserverWorld.runNext] at hnext
          obtain ⟨last, -, rfl⟩ := Option.map_eq_some_iff.mp hnext
          exact hquiet
  | release thread reuse => cases htakes
  | notify thread keep => simp [ObserverWorld.next, hquiet.notify_none] at hnext
  | notifyAll thread => simp [ObserverWorld.next, hquiet.notifyAll_none] at hnext
  | enterWait thread =>
      simp only [ObserverWorld.next, Option.ite_none_right_eq_some, Option.some.injEq] at hnext
      obtain ⟨-, rfl⟩ := hnext
      exact hquiet
  | wait thread step =>
      simp only [ObserverWorld.next] at hnext
      split at hnext
      case h_1 => cases hnext
      case h_2 =>
        simp only [Option.ite_none_right_eq_some] at hnext
        obtain ⟨waits, hwaits, rfl⟩ := Option.map_eq_some_iff.mp hnext.2
        intro key
        rw [(WaitList.act_frame hwaits).2.1]
        exact hquiet key

theorem quiet_of_reachable
    (hreach : observerMachine.ReachableWhere (fun _ label => takesList label = false) world) :
    world.waits.Quiet := by
  refine hreach.induct (motive := fun world => world.waits.Quiet) ?_ ?_
  · rintro world ⟨maxObservers, maxObjects, rfl⟩
    exact WaitList.quiet_empty
  · exact fun world label after _ hquiet htakes hnext => quiet_next hquiet htakes hnext

end ObserverWorld

/-! ## The two waits -/

/-- In every run that destroys no component while somebody sleeps on its borrows, and in
every run whose drains make their last pass amid the callbacks of other threads: when
nobody is left to notify, and for the observers no other thread is in a callback, whoever
sleeps does so because the condition is false. -/
theorem drain_waits_keep_wakeups [Infra] :
    (∀ world, borrowMachine.ReachableWhere SparesSleepers world → world.waits.Quiet →
      ∀ thread, world.waits.Asleep thread → world.condition thread = some false) ∧
    ∀ world, observerMachine.ReachableWhere LastPassAmidOthers world → world.waits.Quiet →
      ∀ thread, (∀ other, other ≠ thread → (world.pool.threads other).asks = none ∨
        (world.pool.views other).running = []) →
        world.waits.Asleep thread → world.condition thread = some false := by
  constructor
  · intro world hreach hquiet thread hasleep
    have hsound := BorrowWorld.sound_of_reachable hreach
    have hready := hsound.waits.not_ready hquiet hasleep
    exact not_not.mp hready
  · intro world hreach hquiet thread hothers hasleep
    have hsound := ObserverWorld.sound_of_reachable hreach
    have hready := hsound.waits.not_ready hquiet hasleep
    by_contra hcondition
    refine hready ⟨hcondition, ?_⟩
    intro other hne
    rcases hothers other hne with hdone | hrunning
    · exact hsound.running_nil hdone
    · exact hrunning

/-- An application with the component `A`, whose installation is at its hook while a stop has
listed it and a service that has bound it is at its own hook. -/
def borrowerSteps : List BorrowStep :=
  [.app (.spawn (.coInstallComponent "A" "a" ⟨.app, none⟩))] ++
    List.replicate 5 (.app (smoothStep 0)) ++
    [.app (.spawn .coStop)] ++ List.replicate 4 (.app (smoothStep 1)) ++
    [.app (.spawn (.coInstallService (.ok ()) "S" ["A"] [⟨"A", "a"⟩]))] ++
    List.replicate 8 (.app (smoothStep 2))

/-- The stop has seen the component drained when its installation makes it borrowable; the
service borrows it and is unbound from it. -/
def sleepSteps : List BorrowStep :=
  List.replicate 3 (.app (smoothStep 1)) ++ List.replicate 3 (.app (smoothStep 0)) ++
    [.app (.env (.borrow ⟨true, ⟨.component, 1⟩, 2⟩ 4 false)),
      .app (.spawn (.coUnbindComponent "A" ⟨true, ⟨.service, 2⟩, 3⟩ "a" ⟨.app, none⟩))] ++
    List.replicate 3 (.app (smoothStep 3)) ++
    [.enterWait 3, .wait 3 (.register false), .wait 3 .callback]

/-- The stop destroys the component, and everybody but the unbinding returns. -/
def vanishSteps : List BorrowStep :=
  [.app (smoothStep 1)] ++ (hookSteps 1 0).map .app ++
    List.replicate 4 (.app (smoothStep 1)) ++
    [.release 0 ⟨⟨.component, 1⟩, ⟨.service, 2⟩, 4⟩] ++
    List.replicate 3 (.app (smoothStep 1)) ++ List.replicate 3 (.app (smoothStep 2))

def ownRevocation (thread : Nat) : List ObserverWaitStep :=
  [.run (.step thread (.finish false)), .run (.step thread (.revoke 1)),
    .run (.step thread (.finish false)), .enterWait thread, .wait thread (.look false),
    .wait thread (.register false), .wait thread .callback]

/-- An unbinding sleeps on an edge that is borrowed, and a callback on its own token. -/
theorem drain_waits_keep_wakeups_asleep :
    letI := permissiveInfra
    (∃ world, borrowMachine.ReachableWhere SparesSleepers world ∧ world.waits.Asleep 3 ∧
      world.condition 3 = some false) ∧
    ∃ world, observerMachine.ReachableWhere LastPassAmidOthers world ∧
      world.waits.Asleep 0 ∧ world.condition 0 = some false := by
  let _ := permissiveInfra
  constructor
  · have hboot : borrowMachine.ReachableWhere (fun world label =>
        SparesSleepers world label ∧ world.takesList label = false)
        ⟨plainSystem.boot (AppWorld.fresh (.ok ()) 10 10), .empty⟩ :=
      .start ⟨_, start_fresh 10 10 (by decide), rfl⟩
    obtain ⟨world, hreach, hasleep⟩ := hboot.exec_any
      (fun world label => decide (SparesSleepers world label ∧ world.takesList label = false))
      (fun _ _ => of_decide_eq_true) (borrowerSteps ++ sleepSteps)
      (fun world => decide (world.waits.Asleep 3)) (by decide +kernel)
    replace hasleep := of_decide_eq_true hasleep
    have hspares := hreach.mono (fun _ _ => And.left)
    have hquiet := BorrowWorld.quiet_of_reachable (hreach.mono (fun _ _ => And.right))
    exact ⟨world, hspares, hasleep,
      drain_waits_keep_wakeups.1 world hspares hquiet 3 hasleep⟩
  · have hboot : observerMachine.ReachableWhere (fun world label =>
        LastPassAmidOthers world label ∧ ObserverWorld.takesList label = false)
        ⟨observerSystem.boot (.fresh 10 10), .empty⟩ :=
      .start ⟨10, 10, rfl⟩
    obtain ⟨world, hreach, htest⟩ := hboot.exec_any
      (fun world label =>
        decide (LastPassAmidOthers world label ∧ ObserverWorld.takesList label = false))
      (fun _ _ => of_decide_eq_true)
      ([.run observed, .run (.spawn (.dispatch 2 [pendingEvent]))] ++ ownRevocation 0)
      (fun world => decide (world.waits.Asleep 0 ∧ world.pool.count = 1)) (by decide)
    obtain ⟨hasleep, hcount⟩ := of_decide_eq_true htest
    have hamid := hreach.mono (fun _ _ => And.left)
    have hquiet := ObserverWorld.quiet_of_reachable (hreach.mono (fun _ _ => And.right))
    refine ⟨world, hamid, hasleep,
      drain_waits_keep_wakeups.2 world hamid hquiet 0 ?_ hasleep⟩
    intro other hne
    right
    rw [System.views_of_ge (ObserverWorld.sound_of_reachable hamid).reach other (by omega)]
    rfl

/-- A component is destroyed while it is borrowed and an unbinding sleeps on its edge, and the
release that comes then wakes nobody; the last pass of a drain erases the record of a token
that its own callback is revoking. -/
theorem drain_wakeups_lost :
    letI := permissiveInfra
    (∃ world, borrowMachine.Reachable world ∧ world.waits.Quiet ∧
      (∀ other < world.pool.count, other ≠ 3 → (world.pool.threads other).asks = none) ∧
      world.pool.shared.leases = [] ∧ world.waits.Asleep 3 ∧ world.condition 3 = some true) ∧
    ∃ world, observerMachine.Reachable world ∧ world.waits.Quiet ∧
      (∀ other < world.pool.count, other ≠ 1 → (world.pool.threads other).asks = none) ∧
      world.waits.Asleep 1 ∧ world.condition 1 = some true := by
  let _ := permissiveInfra
  constructor
  · have hboot : borrowMachine.ReachableWhere
        (fun world label => world.takesList label = false)
        ⟨plainSystem.boot (AppWorld.fresh (.ok ()) 10 10), .empty⟩ :=
      .start ⟨_, start_fresh 10 10 (by decide), rfl⟩
    obtain ⟨world, hreach, htest⟩ := hboot.exec_any
      (fun world label => decide (world.takesList label = false))
      (fun _ _ => of_decide_eq_true) (borrowerSteps ++ sleepSteps ++ vanishSteps)
      (fun world => decide
        ((∀ other < world.pool.count, other ≠ 3 → (world.pool.threads other).asks.isNone) ∧
          world.pool.shared.leases = [] ∧ world.waits.Asleep 3 ∧
          world.condition 3 = some true)) (by decide +kernel)
    obtain ⟨hothers, hrest⟩ := of_decide_eq_true htest
    exact ⟨world, hreach.reachable, BorrowWorld.quiet_of_reachable hreach,
      fun other hlt hne => Option.isNone_iff_eq_none.mp (hothers other hlt hne), hrest⟩
  · have hboot : observerMachine.ReachableWhere
        (fun _ label => ObserverWorld.takesList label = false)
        ⟨observerSystem.boot (.fresh 10 10), .empty⟩ :=
      .start ⟨10, 10, rfl⟩
    obtain ⟨world, hreach, htest⟩ := hboot.exec_any
      (fun _ label => decide (ObserverWorld.takesList label = false))
      (fun _ _ => of_decide_eq_true)
      ([.run observed, .run (.spawn .drain), .run (.spawn (.dispatch 2 [pendingEvent])),
        .run (.step 0 (.finish false)), .enterWait 0, .run (.step 0 (.finish false))] ++
        ownRevocation 1 ++ [.run (.step 0 (.finish false))])
      (fun world => decide
        ((∀ other < world.pool.count, other ≠ 1 → (world.pool.threads other).asks.isNone) ∧
          world.waits.Asleep 1 ∧ world.condition 1 = some true)) (by decide)
    obtain ⟨hothers, hrest⟩ := of_decide_eq_true htest
    exact ⟨world, hreach.reachable, ObserverWorld.quiet_of_reachable hreach,
      fun other hlt hne => Option.isNone_iff_eq_none.mp (hothers other hlt hne), hrest⟩

end BbtFramework.Observe
