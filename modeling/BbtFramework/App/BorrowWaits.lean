import BbtFramework.App.BorrowAccounting
import BbtFramework.Library.WaitList

/-!
# Waiting for borrows

`_WaitBorrows` and `ReleaseBorrow` action by action, around the operations of the
application.  A wait puts its waiter into `m_borrow_waiters` in its registration callback;
a release takes the whole list with it and notifies outside the critical section.  Erasing an
edge or an entry notifies nobody: an edge is drained when it is erased, but a component may
still be borrowed when it is destroyed.
-/

namespace BbtFramework.App

open BbtFramework.Library

def AppWorld.awaited (world : AppWorld) : Action → Option Bool
  | .query (.awaitBorrows component) => some (world.registry.borrowsDrained component)
  | .query (.awaitBinding component subject generation) =>
      some (world.registry.bindingDrained component subject generation)
  | _ => none

/-- The component a drain wait is about. -/
def Action.awaitsOn : Action → Option ObjectId
  | .query (.awaitBorrows component) => some component
  | .query (.awaitBinding component _ _) => some component
  | _ => none

/-- The application, `m_borrow_waiters` and the calls of `ReleaseBorrow`, each under the
number of its caller. -/
structure BorrowWorld where
  pool : AppPool Unit
  waits : WaitList Nat WaitStatus

/-- One action of an operation or of the environment, the actions of `ReleaseBorrow`, and
those of a `_WaitBorrows` that has found its condition false. -/
inductive BorrowStep where
  | app (step : AppStep)
  | release (caller : Nat) (lease : BindingLease)
  | notify (caller : Nat) (keep : Bool)
  | notifyAll (caller : Nat)
  | enterWait (thread : Nat)
  | wait (thread : Nat) (step : SleepStep WaitStatus)

/-- The steps of `_WaitBorrows`: it is never blocked outside a coroutine, and a wait that was
not completed is its last. -/
def ofBorrowWait : SleepStep WaitStatus → Bool
  | .look blocking => !blocking
  | .giveUp status => status ≠ .completed
  | .retry => false
  | _ => true

/-- What the wait returns is decided by where it stands. -/
def mayReturn (pc : SleepPc WaitStatus) : Choice → Bool
  | .proceed => pc = .looking
  | .wait status => pc = .failed status
  | _ => false

namespace BorrowWorld

/-- The condition of the drain wait a thread is at. -/
def condition (world : BorrowWorld) (thread : Nat) : Option Bool :=
  (world.pool.threads thread).asks.bind world.pool.shared.awaited

section

variable [Infra] (world : BorrowWorld)

def appNext : AppStep → Option BorrowWorld
  | .step thread choice =>
      if (world.condition thread).isNone ∨ mayReturn (world.waits.pc thread) choice then
        (plainSystem.next world.pool (.step thread choice)).map (fun pool =>
          ⟨pool, world.waits.move thread .awake⟩)
      else none
  | .env (.release _) => none
  | .env event => (plainSystem.next world.pool (.env event)).map (fun pool =>
      ⟨pool, world.waits⟩)
  | .spawn entry => (plainSystem.next world.pool (.spawn entry)).map (fun pool =>
      ⟨pool, world.waits⟩)

def next : BorrowStep → Option BorrowWorld
  | .app step => world.appNext step
  | .release caller lease =>
      if (world.waits.couriers caller).Done then
        (plainSystem.next world.pool (.env (.release lease))).map (fun pool =>
          -- an entry that is gone ends the call before the swap
          ⟨pool,
            if (world.pool.shared.registry.findEntryLocked lease.componentId).isSome then
              world.waits.swap caller false
            else world.waits⟩)
      else none
  | .notify caller keep =>
      (world.waits.notify caller keep).map (fun waits => { world with waits := waits })
  | .notifyAll caller =>
      (world.waits.notifyAll caller).map (fun waits => { world with waits := waits })
  | .enterWait thread =>
      if thread < world.pool.count ∧ (world.condition thread).isSome ∧
          world.waits.pc thread = .awake then
        some { world with waits := world.waits.enter thread .registering }
      else none
  | .wait thread step =>
      match world.condition thread with
      | none => none
      | some ready =>
          if ofBorrowWait step then
            (world.waits.act thread ready step).map (fun waits =>
              { world with waits := waits })
          else none

end

end BorrowWorld

/-- Every interleaving of the operations of one application with any number of drain waits
and releases. -/
def borrowMachine [Infra] : Machine BorrowWorld BorrowStep where
  init := fun world =>
    ∃ state, AppWorld.Start state ∧ world = ⟨plainSystem.boot state, .empty⟩
  next := BorrowWorld.next

def Action.destroyed : Action → Option ObjectId
  | .command (.finishDestroy id) => some id
  | _ => none

/-- The object a step takes out of the registry. -/
def BorrowWorld.destroyed (world : BorrowWorld) : BorrowStep → Option ObjectId
  | .app step => (world.pool.asked step).bind Action.destroyed
  | _ => none

/-- No component is destroyed while a thread sleeps on its borrows, or on those of one of its
edges, that are not drained. -/
def SparesSleepers (world : BorrowWorld) (label : BorrowStep) : Prop :=
  ∀ id ∈ world.destroyed label, ∀ thread < world.pool.count, world.waits.Asleep thread →
    world.condition thread = some false →
    (world.pool.threads thread).asks.bind Action.awaitsOn ≠ some id

instance (world : BorrowWorld) (label : BorrowStep) : Decidable (SparesSleepers world label) :=
  inferInstanceAs (Decidable (∀ id ∈ world.destroyed label,
    ∀ thread < world.pool.count, world.waits.Asleep thread →
      world.condition thread = some false →
      (world.pool.threads thread).asks.bind Action.awaitsOn ≠ some id))

theorem borrowsDrained_eq_false {registry : Registry} {component : ObjectId}
    (hfalse : registry.borrowsDrained component = false) :
    ∃ entry, registry.findEntryLocked component = some entry ∧ entry.componentBorrows ≠ 0 := by
  unfold Registry.borrowsDrained at hfalse
  split at hfalse
  case h_1 => cases hfalse
  case h_2 entry hfind => exact ⟨entry, hfind, of_decide_eq_false hfalse⟩

theorem bindingDrained_eq_false {registry : Registry} {component subject : ObjectId}
    {generation : Nat}
    (hfalse : registry.bindingDrained component subject generation = false) :
    ∃ entry edge, registry.findEntryLocked component = some entry ∧
      edge ∈ entry.bindings ∧ edge.subjectId = subject ∧ edge.generation = generation ∧
      edge.borrows ≠ 0 := by
  unfold Registry.bindingDrained at hfalse
  split at hfalse
  case h_1 => cases hfalse
  case h_2 entry hfind =>
    split at hfalse
    case h_1 => cases hfalse
    case h_2 edge hfound =>
      have hnamed := List.find?_some hfound
      simp only [decide_eq_true_eq] at hnamed
      exact ⟨entry, edge, hfind, List.mem_of_find?_eq_some hfound, hnamed.1, hnamed.2,
        of_decide_eq_false hfalse⟩

section

variable [Infra] {pool last : AppPool Unit} {step : AppStep}

/-- Only a release takes a lease back. -/
theorem leases_sublist (hnext : plainSystem.next pool step = some last)
    (hkeeps : ∀ lease, step ≠ .env (.release lease)) :
    pool.shared.leases.Sublist last.shared.leases := by
  cases step with
  | spawn entry =>
      cases hnext
      exact .refl _
  | step thread choice =>
      obtain ⟨-, act, rest, answer, world, -, hperform, rfl⟩ := System.next_step hnext
      cases act with
      | query query =>
          obtain ⟨-, rfl⟩ := AppWorld.perform_query hperform
          exact .refl _
      | command command =>
          rw [(AppWorld.apply_framed (AppWorld.perform_command hperform)).leases]
  | env event =>
      obtain ⟨world, hreact, rfl⟩ := Option.map_eq_some_iff.mp hnext
      have hevent := AppWorld.react_event hreact
      by_cases hquiet : event.quiet = true
      · rw [(AppWorld.event_quiet hquiet hevent).1]
      · cases event with
        | borrow object generation allow =>
            simp only [AppWorld.event] at hevent
            split at hevent
            · cases hevent
              exact .refl _
            · cases hevent
              exact List.sublist_cons_self _ _
        | release lease => exact absurd rfl (hkeeps lease)
        | _ => exact absurd rfl hquiet

theorem AppWorld.perform_stays {world last : AppWorld} {act : Action} {choice : Choice}
    {answer : act.Answer} (hperform : world.perform act choice = some (answer, last))
    {id : ObjectId} (hpresent : (world.registry.findEntryLocked id).isSome = true) :
    (last.registry.findEntryLocked id).isSome = true ∨ act.destroyed = some id := by
  cases act with
  | query query =>
      obtain ⟨-, rfl⟩ := perform_query hperform
      exact Or.inl hpresent
  | command command =>
      obtain ⟨entry, hfind⟩ := Option.isSome_iff_exists.mp hpresent
      obtain ⟨later, hlater, -⟩ | rfl := apply_stays (perform_command hperform) hfind
      · exact Or.inl (Option.isSome_of_eq_some hlater)
      · exact Or.inr rfl

theorem entry_stays (hnext : plainSystem.next pool step = some last) {id : ObjectId}
    {entry : RegistryEntry} (hfind : pool.shared.registry.findEntryLocked id = some entry)
    (hspared : (pool.asked step).bind Action.destroyed ≠ some id) :
    ∃ later, last.shared.registry.findEntryLocked id = some later := by
  have hpresent := Option.isSome_of_eq_some hfind
  cases step with
  | spawn call =>
      cases hnext
      exact ⟨entry, hfind⟩
  | step thread choice =>
      obtain ⟨-, act, rest, answer, world, hthread, hperform, rfl⟩ := System.next_step hnext
      rw [Pool.asked_call hthread, Option.bind_some] at hspared
      obtain hstays | hdestroyed := AppWorld.perform_stays hperform hpresent
      · exact Option.isSome_iff_exists.mp hstays
      · exact absurd hdestroyed hspared
  | env event =>
      obtain ⟨world, hreact, rfl⟩ := Option.map_eq_some_iff.mp hnext
      exact Option.isSome_iff_exists.mp
        (AppWorld.event_stays (AppWorld.react_event hreact) hpresent)

/-- A step that neither takes a lease back nor destroys the component makes no drain
condition true: a component that stays keeps its leases, and an edge that is borrowed is not
erased. -/
theorem awaited_stays (hreach : plainSystem.machine.Reachable pool)
    (hnext : plainSystem.next pool step = some last)
    (hkeeps : ∀ lease, step ≠ .env (.release lease)) {act : Action}
    (hspared : ∀ id, act.awaitsOn = some id →
      (pool.asked step).bind Action.destroyed ≠ some id)
    (hfalse : pool.shared.awaited act = some false) :
    last.shared.awaited act = some false := by
  have hleases := leases_sublist hnext hkeeps
  have hbefore := balanced_of_reachable hreach
  have hafter := balanced_of_reachable (hreach.step trivial hnext)
  cases act with
  | command command => cases hfalse
  | query query =>
      cases query with
      | awaitBorrows component =>
          obtain ⟨entry, hfind, hborrowed⟩ :=
            borrowsDrained_eq_false (Option.some.inj hfalse)
          obtain ⟨later, hlater⟩ := entry_stays hnext hfind (hspared component rfl)
          have hle : entry.componentBorrows ≤ later.componentBorrows := by
            rw [(hbefore.balanced component entry hfind).total,
              (hafter.balanced component later hlater).total]
            exact hleases.countP_le
          refine congrArg some ?_
          unfold Registry.borrowsDrained
          rw [hlater]
          exact decide_eq_false (by omega)
      | awaitBinding component subject generation =>
          obtain ⟨entry, edge, hfind, hmem, hsubject, hgeneration, hborrowed⟩ :=
            bindingDrained_eq_false (Option.some.inj hfalse)
          obtain ⟨later, hlater⟩ := entry_stays hnext hfind (hspared component rfl)
          obtain ⟨kept, hkept, hages⟩ := retains_of_reachable hreach hnext component entry later
            hfind hlater edge hmem (Nat.pos_of_ne_zero hborrowed)
          have hle : edge.borrows ≤ kept.borrows := by
            rw [(hbefore.balanced component entry hfind).through edge hmem,
              (hafter.balanced component later hlater).through kept hkept,
              AppWorld.leasesThrough, AppWorld.leasesThrough, hages.subject,
              hages.generation]
            exact hleases.count_le _
          refine congrArg some (eq_false_of_ne_true ?_)
          intro hdrained
          have hzero := hafter.numbered.drained hdrained hlater hkept
            (hages.subject.trans hsubject) (hages.generation.trans hgeneration)
          omega
      | _ => cases hfalse

end

/-! ## Every run -/

theorem isSome_awaited (world last : AppWorld) (act : Action) :
    (world.awaited act).isSome = (last.awaited act).isSome := by
  cases act with
  | command command => rfl
  | query query => cases query <;> rfl

/-- Drain conditions look at the entries only. -/
theorem awaited_congr {world last : AppWorld}
    (hsame : ∀ id, last.registry.findEntryLocked id = world.registry.findEntryLocked id)
    (act : Action) : last.awaited act = world.awaited act := by
  cases act with
  | command command => rfl
  | query query =>
      cases query with
      | awaitBorrows component =>
          refine congrArg some ?_
          unfold Registry.borrowsDrained
          rw [hsame]
      | awaitBinding component subject generation =>
          refine congrArg some ?_
          unfold Registry.bindingDrained
          rw [hsame]
      | _ => rfl

namespace BorrowWorld

/-- A thread whose program has not moved is at the same wait. -/
theorem isSome_condition (world : BorrowWorld) {last : BorrowWorld} {thread : Nat}
    (hsame : last.pool.threads thread = world.pool.threads thread) :
    (last.condition thread).isSome = (world.condition thread).isSome := by
  rw [condition, condition, hsame, Option.isSome_bind, Option.isSome_bind]
  exact congrArg (fun test => Option.any test (world.pool.threads thread).asks)
    (funext (isSome_awaited _ _))

variable [Infra]

/-- What holds in every run that spares the sleepers. -/
structure Sound (world : BorrowWorld) : Prop where
  reach : plainSystem.machine.Reachable world.pool
  waiting : ∀ thread, world.waits.pc thread ≠ .awake →
    thread < world.pool.count ∧ (world.condition thread).isSome = true
  waits : world.waits.Sound (fun thread => world.condition thread ≠ some false)

variable {world : BorrowWorld} {last : AppPool Unit} {step : AppStep}
variable {waits : WaitList Nat WaitStatus}

theorem Sound.run (hsound : world.Sound) (hnext : plainSystem.next world.pool step = some last)
    (hkeeps : ∀ lease, step ≠ .env (.release lease))
    (hspares : SparesSleepers world (.app step))
    (hcount : world.pool.count ≤ last.count)
    (hwaiting : ∀ thread, waits.pc thread ≠ .awake → world.waits.pc thread ≠ .awake ∧
      last.threads thread = world.pool.threads thread)
    (hasleep : ∀ thread, waits.Asleep thread → world.waits.Asleep thread)
    (hwaits : waits.Sound (fun thread => world.condition thread ≠ some false)) :
    BorrowWorld.Sound ⟨last, waits⟩ := by
  constructor
  · exact hsound.reach.step trivial hnext
  · intro thread hpc
    obtain ⟨hbefore, hsame⟩ := hwaiting thread hpc
    obtain ⟨hlt, hcondition⟩ := hsound.waiting thread hbefore
    refine ⟨Nat.lt_of_lt_of_le hlt hcount, ?_⟩
    rw [isSome_condition world hsame]
    exact hcondition
  · refine hwaits.mono ?_
    intro thread hthread hafter hfalse
    refine hafter ?_
    obtain ⟨hbefore, hsame⟩ := hwaiting thread hthread.ne_awake
    obtain ⟨act, hasks, hawaited⟩ := Option.bind_eq_some_iff.mp hfalse
    rw [condition, hsame, hasks, Option.bind_some]
    refine awaited_stays hsound.reach hnext hkeeps ?_ hawaited
    intro id hid hdestroyed
    refine hspares id hdestroyed thread (hsound.waiting thread hbefore).1
      (hasleep thread hthread) hfalse ?_
    rw [hasks]
    exact hid

/-- A step of the application. -/
theorem Sound.appNext {after : BorrowWorld} (hsound : world.Sound)
    (hspares : SparesSleepers world (.app step)) (hnext : world.appNext step = some after) :
    after.Sound := by
  cases step with
  | spawn entry =>
      simp only [BorrowWorld.appNext] at hnext
      obtain ⟨last, hlast, rfl⟩ := Option.map_eq_some_iff.mp hnext
      refine hsound.run hlast (by simp) hspares ?_ ?_ (fun _ hasleep => hasleep) hsound.waits
      · cases hlast
        exact Nat.le_succ _
      · intro thread hpc
        cases hlast
        refine ⟨hpc, Function.update_of_ne ?_ _ _⟩
        exact Nat.ne_of_lt (hsound.waiting thread hpc).1
  | step thread choice =>
      simp only [BorrowWorld.appNext, Option.ite_none_right_eq_some] at hnext
      obtain ⟨last, hlast, rfl⟩ := Option.map_eq_some_iff.mp hnext.2
      have hmoved : ∀ other,
          (world.waits.move thread .awake).pc other ≠ .awake → other ≠ thread := by
        rintro other hpc rfl
        exact hpc (WaitList.pc_move _ _)
      refine hsound.run hlast (by simp) hspares ?_ ?_ ?_
        (hsound.waits.rest thread rfl (by simp))
      · obtain ⟨-, act, rest, answer, state, -, -, rfl⟩ := System.next_step hlast
        exact Nat.le_refl _
      · intro other hpc
        have hne := hmoved other hpc
        obtain ⟨-, act, rest, answer, state, -, -, rfl⟩ := System.next_step hlast
        rw [WaitList.pc_move_ne _ hne] at hpc
        exact ⟨hpc, Function.update_of_ne hne _ _⟩
      · exact fun other hasleep => (WaitList.asleep_of_move_awake hasleep).2
  | env event =>
      have hevent : (∀ lease, event ≠ .release lease) ∧
          (plainSystem.next world.pool (.env event)).map (fun pool =>
            BorrowWorld.mk pool world.waits) = some after := by
        cases event with
        | release lease => simp [BorrowWorld.appNext] at hnext
        | _ => exact ⟨by simp, by simpa only [BorrowWorld.appNext] using hnext⟩
      obtain ⟨last, hlast, rfl⟩ := Option.map_eq_some_iff.mp hevent.2
      have hsame : last.count = world.pool.count ∧ last.threads = world.pool.threads := by
        obtain ⟨state, -, rfl⟩ := Option.map_eq_some_iff.mp hlast
        exact ⟨rfl, rfl⟩
      refine hsound.run hlast ?_ hspares (Nat.le_of_eq hsame.1.symm) ?_
        (fun _ hasleep => hasleep) hsound.waits
      · rintro lease heq
        exact hevent.1 lease (PoolStep.env.inj heq)
      · exact fun thread hpc => ⟨hpc, congrFun hsame.2 thread⟩

/-- `ReleaseBorrow`: who sleeps is on its list, unless the entry is gone and nothing has
become true. -/
theorem Sound.release {caller : Nat} {lease : BindingLease} (hsound : world.Sound)
    (hdone : (world.waits.couriers caller).Done)
    (hnext : plainSystem.next world.pool (.env (.release lease)) = some last)
    (hwaits : waits =
      if (world.pool.shared.registry.findEntryLocked lease.componentId).isSome then
        world.waits.swap caller false
      else world.waits) : BorrowWorld.Sound ⟨last, waits⟩ := by
  have hstep : plainSystem.machine.next world.pool (.env (.release lease)) = some last := hnext
  obtain ⟨state, hreact, hlast⟩ := Option.map_eq_some_iff.mp hnext
  have hthreads : last.threads = world.pool.threads := by rw [← hlast]
  have hcount : last.count = world.pool.count := by rw [← hlast]
  have hpc : ∀ thread, waits.pc thread = world.waits.pc thread := by
    intro thread
    rw [hwaits]
    split
    · rfl
    · rfl
  constructor
  · exact hsound.reach.step trivial hstep
  · intro thread hawake
    rw [hpc] at hawake
    obtain ⟨hlt, hcondition⟩ := hsound.waiting thread hawake
    refine ⟨hcount ▸ hlt, ?_⟩
    rw [isSome_condition world (congrFun hthreads thread)]
    exact hcondition
  · split at hwaits
    case isTrue =>
      rw [hwaits]
      exact hsound.waits.swap _ hdone.1 false
    case isFalse hgone =>
      have hevent := AppWorld.react_event hreact
      simp only [AppWorld.event] at hevent
      split at hevent
      case isFalse => cases hevent
      case isTrue =>
        cases hevent
        have hsame : ∀ id, (world.pool.shared.registry.releaseBorrow lease).findEntryLocked id =
            world.pool.shared.registry.findEntryLocked id := by
          intro id
          rw [Registry.releaseBorrow, Registry.findEntryLocked_modify]
          split
          case isTrue heq =>
            rw [heq, Option.not_isSome_iff_eq_none.mp hgone]
            rfl
          case isFalse => rfl
        have hcondition : ∀ thread, BorrowWorld.condition ⟨last, waits⟩ thread =
            world.condition thread := by
          intro thread
          rw [condition, condition, hthreads, ← hlast]
          exact Option.bind_congr (fun act _ => awaited_congr hsame act)
        rw [hwaits]
        refine hsound.waits.mono ?_
        intro thread _ hafter
        rw [hwaits] at hcondition
        rwa [hcondition] at hafter

/-- A step of the waits and the notifications alone. -/
theorem Sound.within (hsound : world.Sound)
    (hwaiting : ∀ thread, waits.pc thread ≠ .awake → world.waits.pc thread ≠ .awake ∨
      thread < world.pool.count ∧ (world.condition thread).isSome = true)
    (hwaits : waits.Sound (fun thread => world.condition thread ≠ some false)) :
    BorrowWorld.Sound { world with waits := waits } := by
  constructor
  · exact hsound.reach
  · intro thread hpc
    rcases hwaiting thread hpc with hbefore | hnew
    · exact hsound.waiting thread hbefore
    · exact hnew
  · exact hwaits

theorem Sound.next {label : BorrowStep} {after : BorrowWorld} (hsound : world.Sound)
    (hspares : SparesSleepers world label) (hnext : world.next label = some after) :
    after.Sound := by
  cases label with
  | app step => exact hsound.appNext hspares hnext
  | release caller lease =>
      simp only [BorrowWorld.next, Option.ite_none_right_eq_some] at hnext
      obtain ⟨hdone, hnext⟩ := hnext
      obtain ⟨last, hlast, rfl⟩ := Option.map_eq_some_iff.mp hnext
      exact hsound.release hdone hlast rfl
  | notify caller keep =>
      obtain ⟨waits, hwaits, rfl⟩ := Option.map_eq_some_iff.mp hnext
      refine hsound.within (fun thread hpc => Or.inl ?_) (hsound.waits.notify hwaits)
      obtain ⟨-, -, -, -, hsleepers, -⟩ := WaitList.notify_cases hwaits
      rwa [WaitList.pc, hsleepers] at hpc
  | notifyAll caller =>
      obtain ⟨waits, hwaits, rfl⟩ := Option.map_eq_some_iff.mp hnext
      refine hsound.within (fun thread hpc => Or.inl ?_) (hsound.waits.notifyAll hwaits)
      intro hawake
      rw [WaitList.pc_notifyAll hwaits, hawake] at hpc
      exact hpc rfl
  | enterWait thread =>
      simp only [BorrowWorld.next, Option.ite_none_right_eq_some, Option.some.injEq] at hnext
      obtain ⟨⟨hlt, hcondition, -⟩, rfl⟩ := hnext
      refine hsound.within ?_ (hsound.waits.enter thread rfl (by simp))
      intro other hpc
      by_cases heq : other = thread
      · subst heq
        exact Or.inr ⟨hlt, hcondition⟩
      · rw [WaitList.pc_enter_ne _ heq] at hpc
        exact Or.inl hpc
  | wait thread step =>
      simp only [BorrowWorld.next] at hnext
      split at hnext
      case h_1 => cases hnext
      case h_2 ready hready =>
        simp only [Option.ite_none_right_eq_some] at hnext
        obtain ⟨waits, hwaits, rfl⟩ := Option.map_eq_some_iff.mp hnext.2
        obtain ⟨hthread, -, hothers⟩ := WaitList.act_frame hwaits
        refine hsound.within ?_ (hsound.waits.act ?_ hwaits)
        · intro other hpc
          by_cases heq : other = thread
          · subst heq
            exact Or.inl hthread
          · rw [WaitList.pc, hothers other heq] at hpc
            exact Or.inl hpc
        · rintro rfl hfalse
          exact hfalse hready

theorem sound_of_reachable
    (hreach : borrowMachine.ReachableWhere SparesSleepers world) : world.Sound := by
  refine hreach.induct ?_ ?_
  · rintro world ⟨state, hstart, rfl⟩
    exact ⟨.start ⟨state, hstart, rfl⟩, fun _ hpc => absurd rfl hpc, WaitList.sound_empty _⟩
  · exact fun world label after _ hsound hspares hnext => hsound.next hspares hnext

def takesList (world : BorrowWorld) : BorrowStep → Bool
  | .release _ lease =>
      (world.pool.shared.registry.findEntryLocked lease.componentId).isSome
  | _ => false

/-- Until somebody takes the list there is nobody to notify. -/
theorem quiet_next {label : BorrowStep} {after : BorrowWorld} (hquiet : world.waits.Quiet)
    (htakes : world.takesList label = false) (hnext : world.next label = some after) :
    after.waits.Quiet := by
  cases label with
  | app step =>
      cases step with
      | step thread choice =>
          simp only [BorrowWorld.next, BorrowWorld.appNext,
            Option.ite_none_right_eq_some] at hnext
          obtain ⟨last, -, rfl⟩ := Option.map_eq_some_iff.mp hnext.2
          exact hquiet
      | spawn entry =>
          simp only [BorrowWorld.next, BorrowWorld.appNext] at hnext
          obtain ⟨last, -, rfl⟩ := Option.map_eq_some_iff.mp hnext
          exact hquiet
      | env event =>
          cases event with
          | release lease => simp [BorrowWorld.next, BorrowWorld.appNext] at hnext
          | _ =>
              simp only [BorrowWorld.next, BorrowWorld.appNext] at hnext
              obtain ⟨last, -, rfl⟩ := Option.map_eq_some_iff.mp hnext
              exact hquiet
  | release caller lease =>
      simp only [BorrowWorld.next, Option.ite_none_right_eq_some] at hnext
      obtain ⟨last, -, rfl⟩ := Option.map_eq_some_iff.mp hnext.2
      rw [show (world.pool.shared.registry.findEntryLocked lease.componentId).isSome = false
        from htakes]
      exact hquiet
  | notify caller keep => simp [BorrowWorld.next, hquiet.notify_none] at hnext
  | notifyAll caller => simp [BorrowWorld.next, hquiet.notifyAll_none] at hnext
  | enterWait thread =>
      simp only [BorrowWorld.next, Option.ite_none_right_eq_some, Option.some.injEq] at hnext
      obtain ⟨-, rfl⟩ := hnext
      exact hquiet
  | wait thread step =>
      simp only [BorrowWorld.next] at hnext
      split at hnext
      case h_1 => cases hnext
      case h_2 =>
        simp only [Option.ite_none_right_eq_some] at hnext
        obtain ⟨waits, hwaits, rfl⟩ := Option.map_eq_some_iff.mp hnext.2
        intro key
        rw [(WaitList.act_frame hwaits).2.1]
        exact hquiet key

theorem quiet_of_reachable
    (hreach : borrowMachine.ReachableWhere
      (fun world label => world.takesList label = false) world) : world.waits.Quiet := by
  refine hreach.induct (motive := fun world => world.waits.Quiet) ?_ ?_
  · rintro world ⟨state, -, rfl⟩
    exact WaitList.quiet_empty
  · exact fun world label after _ hquiet htakes hnext => quiet_next hquiet htakes hnext

end BorrowWorld

end BbtFramework.App
