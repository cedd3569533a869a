import BbtFramework.App.Steps

/-!
# The running application

The system that runs any number of calls together, each under the ghost view of
a discipline.  Whatever the view, the transitions that hold `m_lifecycle_active`
are alone.
-/

namespace BbtFramework.App

open BbtFramework.Library

/-- A step of the application. -/
abbrev AppStep :=
  PoolStep Entry Choice Event

/-- The answers of a run in which everything goes well. -/
def smoothStep (thread : Nat) : AppStep :=
  .step thread (.hook (.returned (.ok ())))

def hookSteps (thread task : Nat) : List AppStep :=
  [.step thread (.submission .accepted), .env (.beginHook task),
    .env (.endHook task (.returned (.ok ()))), .env (.noteHook task),
    .env (.notifyHook task), .env (.settleHook task),
    .step thread (.wait .completed)]

theorem start_fresh (maxObjects maxBindings : Nat) (hroom : 0 < maxObjects) :
    AppWorld.Start (AppWorld.fresh (.ok ()) maxObjects maxBindings) :=
  ⟨.ok (), maxObjects, maxBindings, hroom, rfl⟩

variable [Infra]

/-- One `CoApp` with its callers, hook tasks and borrowers. -/
def appSystem {View : Type} (view : View)
    (discipline : Discipline Action Action.Answer View) :
    System Action Action.Answer Outcome AppWorld View Entry Choice Event where
  start := AppWorld.Start
  idle := .control (.ok ())
  main := Entry.main
  perform := fun act choice world => world.perform act choice
  env := fun event world => world.react event
  fresh := view
  discipline := discipline

/-- A pool of calls on one application. -/
abbrev AppPool (View : Type) :=
  Pool Action Action.Answer Outcome AppWorld View

/-- The application without ghosts. -/
def plainSystem :
    System Action Action.Answer Outcome AppWorld Unit Entry Choice Event :=
  appSystem () Program.free

namespace AppWorld

variable {world last : AppWorld}

/-- A reading action leaves the state alone. -/
theorem perform_query {query : Query} {choice : Choice} {answer : query.Answer}
    (hperform : world.perform (.query query) choice = some (answer, last)) :
    world.answer query choice = some answer ∧ last = world := by
  simp only [perform] at hperform
  split at hperform
  · cases hperform
  · obtain ⟨given, hgiven, heq⟩ := Option.map_eq_some_iff.mp hperform
    cases heq
    exact ⟨hgiven, rfl⟩

theorem perform_command {command : Command} {choice : Choice}
    {answer : command.Answer}
    (hperform : world.perform (.command command) choice = some (answer, last)) :
    world.apply command choice = some (answer, last) := by
  have hcases : (if world.crashed = true then none else world.apply command choice) =
      some (answer, last) := hperform
  by_cases hcrashed : world.crashed = true
  · rw [if_pos hcrashed] at hcases
    cases hcases
  · rw [if_neg hcrashed] at hcases
    exact hcases

theorem react_event {event : Event} (hreact : world.react event = some last) :
    world.event event = some last := by
  unfold react at hreact
  split at hreact
  · cases hreact
  · exact hreact

omit [Infra] in
theorem kind_of_mem_startLists {world : AppWorld} :
    (∀ id ∈ world.startLists.1, id.kind = .component) ∧
      ∀ id ∈ world.startLists.2, id.kind = .service := by
  constructor
  · intro id hmem
    exact Registry.kind_of_mem_startOrder (List.mem_filter.mp hmem).1
  · intro id hmem
    exact (Registry.mem_listWhere.mp hmem).1

omit [Infra] in
theorem kind_of_mem_stopLists {world : AppWorld} :
    (∀ id ∈ world.stopLists.services, id.kind = .service) ∧
      (∀ id ∈ world.stopLists.actors, id.kind = .actor) ∧
      (∀ id ∈ world.stopLists.scopedComponents, id.kind = .component) ∧
      ∀ id ∈ world.stopLists.appComponents, id.kind = .component := by
  have horder : ∀ appScope : Bool, ∀ id ∈
      world.registry.componentStartOrderLocked.order.reverse.filter (fun id =>
        (world.registry.findEntryLocked id).any
          (fun entry => decide (entry.scope = .app) = appScope)),
      id.kind = .component := by
    intro appScope id hmem
    exact Registry.kind_of_mem_startOrder
      (List.mem_reverse.mp (List.mem_filter.mp hmem).1)
  exact ⟨fun _ hmem => (Registry.mem_listIdsByKind.mp hmem).1,
    fun _ hmem => (Registry.mem_listIdsByKind.mp hmem).1, horder false, horder true⟩

theorem answer_possible {query : Query} {choice : Choice} {answer : query.Answer}
    (hanswer : world.answer query choice = some answer) :
    Role.possibleQuery query answer := by
  cases query with
  | startLists =>
      cases hanswer
      exact kind_of_mem_startLists
  | listServices state =>
      cases hanswer
      exact fun id hmem => (Registry.mem_listWhere.mp hmem).1
  | stopLists =>
      cases hanswer
      exact kind_of_mem_stopLists
  | _ => trivial

omit [Infra] in
theorem TakesDown.kind {kind : ObjectKind} {phase : String}
    {answer : Except Error ObjectId}
    (hresult : world.TakesDown kind phase (answer, last)) :
    ∀ id, answer = .ok id → id.kind = kind := by
  rintro id rfl
  obtain ⟨error, ⟨⟩⟩ | ⟨found, entry, hkind, -, -, -, heq⟩ := hresult
  cases heq
  exact hkind

theorem apply_possible {command : Command} {choice : Choice}
    {answer : command.Answer}
    (happly : world.apply command choice = some (answer, last)) :
    Role.possibleCommand command answer := by
  cases command with
  | createComponent key =>
      replace happly := Option.some.inj happly
      obtain ⟨error, heq⟩ | ⟨made, heq, -⟩ := world.createComponent_cases key
      · cases heq.symm.trans happly
        rintro id ⟨⟩
      · cases heq.symm.trans happly
        rintro id ⟨⟩
        rfl
  | createService name allowed =>
      replace happly := Option.some.inj happly
      obtain ⟨error, heq⟩ | ⟨made, heq, -⟩ := world.createService_cases name allowed
      · cases heq.symm.trans happly
        rintro handle ⟨⟩
      · cases heq.symm.trans happly
        rintro handle ⟨⟩
        rfl
  | beginUninstallComponent key =>
      have hresult := world.beginUninstallComponent_takesDown key
      rw [Option.some.inj happly] at hresult
      exact hresult.kind
  | beginUninstallService name =>
      have hresult := world.beginUninstallService_takesDown name
      rw [Option.some.inj happly] at hresult
      exact hresult.kind
  | beginUninstallActorType type =>
      have hresult := world.beginUninstallActorType_takesDown type
      rw [Option.some.inj happly] at hresult
      exact hresult.kind
  | _ => trivial

theorem perform_possible {act : Action} {choice : Choice} {answer : act.Answer}
    (hperform : world.perform act choice = some (answer, last)) :
    Role.possible act answer := by
  cases act with
  | query query => exact answer_possible (perform_query hperform).1
  | command command => exact apply_possible (perform_command hperform)

end AppWorld

/-- A view tells whether its thread holds `m_lifecycle_active`. -/
structure TracksLifecycle {View : Type} (view : View)
    (discipline : Discipline Action Action.Answer View) (holds : View → Bool) :
    Prop where
  fresh : holds view = false
  taken : ∀ held, holds (discipline.after (.command .exchangeLifecycle) false held) = true
  refused : ∀ held,
    holds (discipline.after (.command .exchangeLifecycle) true held) = holds held
  released : ∀ held, holds (discipline.after (.command .releaseLifecycle) () held) = false
  release : ∀ held, discipline.allows (.command .releaseLifecycle) held →
    holds held = true
  query : ∀ query answer held,
    holds (discipline.after (.query query) answer held) = holds held
  command : ∀ command answer held, command.writesLifecycle = false →
    holds (discipline.after (.command command) answer held) = holds held

/-- The flag is set while a thread holds it, and one thread holds it. -/
structure LifecycleAlone {View : Type} (holds : View → Bool) (world : AppWorld)
    (views : Nat → View) : Prop where
  active : ∀ thread, holds (views thread) = true → world.lifecycleActive = true
  alone : ∀ thread other, holds (views thread) = true → holds (views other) = true →
    thread = other

namespace LifecycleAlone

variable {View : Type} {holds : View → Bool} {world last : AppWorld}
variable {views : Nat → View}

omit [Infra] in
/-- Neither the flag nor what the threads know about it changes. -/
theorem keep {thread : Nat} {view : View} (halone : LifecycleAlone holds world views)
    (hflag : last.lifecycleActive = world.lifecycleActive)
    (hview : holds view = holds (views thread)) :
    LifecycleAlone holds last (Function.update views thread view) := by
  have hviews : ∀ other,
      holds (Function.update views thread view other) = holds (views other) := by
    intro other
    by_cases heq : other = thread
    · rw [heq, Function.update_self, hview]
    · rw [Function.update_of_ne heq]
  constructor
  · intro other hother
    rw [hflag]
    exact halone.active other ((hviews other).symm.trans hother)
  · intro first second hfirst hsecond
    exact halone.alone first second ((hviews first).symm.trans hfirst)
      ((hviews second).symm.trans hsecond)

omit [Infra] in
/-- The flag was free, and one thread takes it. -/
theorem take {thread : Nat} {view : View} (halone : LifecycleAlone holds world views)
    (hfree : world.lifecycleActive = false) (hflag : last.lifecycleActive = true) :
    LifecycleAlone holds last (Function.update views thread view) := by
  have hothers : ∀ other, other ≠ thread →
      holds (Function.update views thread view other) = false := by
    intro other hne
    rw [Function.update_of_ne hne]
    by_contra hheld
    have hactive := halone.active other (by simpa using hheld)
    rw [hfree] at hactive
    cases hactive
  have honly : ∀ other,
      holds (Function.update views thread view other) = true → other = thread := by
    intro other hheld
    by_contra hne
    rw [hothers other hne] at hheld
    cases hheld
  exact ⟨fun _ _ => hflag, fun first second hfirst hsecond =>
    (honly first hfirst).trans (honly second hsecond).symm⟩

omit [Infra] in
theorem giveUp {thread : Nat} {view : View} (halone : LifecycleAlone holds world views)
    (hheld : holds (views thread) = true) (hview : holds view = false) :
    LifecycleAlone holds last (Function.update views thread view) := by
  have hnobody : ∀ other,
      holds (Function.update views thread view other) = false := by
    intro other
    by_cases heq : other = thread
    · rw [heq, Function.update_self, hview]
    · rw [Function.update_of_ne heq]
      by_contra hother
      exact heq (halone.alone other thread (by simpa using hother) hheld)
  constructor
  · intro other hother
    rw [hnobody] at hother
    cases hother
  · intro first second hfirst
    rw [hnobody] at hfirst
    cases hfirst

end LifecycleAlone

section

variable {View : Type} {view : View}
variable {discipline : Discipline Action Action.Answer View} {holds : View → Bool}
variable {post : Outcome → View → Prop} {guard : AppPool View → AppStep → Prop}

theorem lifecycleAlone_event {world last : AppWorld} {views : Nat → View}
    {event : Event} (hevent : world.event event = some last)
    (halone : LifecycleAlone holds world views) : LifecycleAlone holds last views := by
  have hflag := (AppWorld.event_undisturbed hevent).lifecycle
  exact ⟨fun thread hthread => hflag.trans (halone.active thread hthread), halone.alone⟩

/-- In every run the transitions are alone. -/
theorem lifecycle_alone (hsys : (appSystem view discipline).Disciplined post)
    (htracks : TracksLifecycle view discipline holds) {pool : AppPool View}
    (hreach : (appSystem view discipline).machine.ReachableWhere guard pool) :
    LifecycleAlone holds pool.shared pool.views := by
  refine hsys.invariant (motive := LifecycleAlone holds) ?_ ?_ ?_ hreach
  · intro world _
    exact ⟨fun _ hheld => absurd (htracks.fresh.symm.trans hheld) nofun,
      fun _ _ hheld => absurd (htracks.fresh.symm.trans hheld) nofun⟩
  · intro pool thread choice act answer last hacts halone
    cases act with
    | query query =>
        obtain ⟨-, rfl⟩ := AppWorld.perform_query hacts.performed
        exact halone.keep rfl (htracks.query query answer _)
    | command command =>
        have happly := AppWorld.perform_command hacts.performed
        by_cases hwrites : command.writesLifecycle = false
        · exact halone.keep ((AppWorld.apply_framed happly).lifecycle hwrites)
            (htracks.command command answer _ hwrites)
        · cases command with
          | exchangeLifecycle =>
              cases happly
              cases hactive : pool.shared.lifecycleActive with
              | false => exact halone.take hactive rfl
              | true => exact halone.keep hactive.symm (htracks.refused _)
          | releaseLifecycle =>
              cases happly
              exact halone.giveUp (htracks.release _ hacts.allowed) (htracks.released _)
          | _ => exact absurd rfl hwrites
  · intro pool event last _ _ hreact halone
    exact lifecycleAlone_event (AppWorld.react_event hreact) halone

end

end BbtFramework.App
