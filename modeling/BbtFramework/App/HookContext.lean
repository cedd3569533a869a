import BbtFramework.App.System

/-!
# Hooks and the calls they make

One cell of an application holds the coroutine of the hook task that began last, and
the end of any hook task clears it.  Every call on the application first compares the
cell with its own coroutine, so that a hook does not wait for itself.
-/

namespace BbtFramework.App

open BbtFramework.Library

/-- The application with `m_hook_co` and the coroutines its hook tasks run on. -/
structure HookWorld where
  world : AppWorld
  hookCo : Nat
  coroutine : Nat → Nat

/-- The hook of the task is being executed. -/
def AppWorld.executing (world : AppWorld) (task : Nat) : Bool :=
  (world.tasks[task]?).any (fun found => found.phase = .executing)

namespace HookWorld

def executes (hooks : HookWorld) (co : Nat) : Bool :=
  (List.range hooks.world.tasks.length).any (fun task =>
    hooks.world.executing task ∧ hooks.coroutine task = co)

def idle (hooks : HookWorld) : Bool :=
  (List.range hooks.world.tasks.length).all (fun task => ¬hooks.world.executing task)

section

variable [Infra]

/-- `_CheckCoContext` in coroutine `co`; 0 is no coroutine. -/
def checkCoContext (hooks : HookWorld) (co : Nat) : Except Error Unit :=
  if co = 0 then
    .error (makeError .invalidContext
      "lifecycle: Co* entry points require a managed coroutine context")
  else if hooks.hookCo = co then
    .error (makeError .invalidContext
      "lifecycle: a lifecycle entry point called by its own hook would wait on itself")
  else .ok ()

/-- An event of the application; `co` is the coroutine a hook task is begun on, which no
other one runs on. -/
def react (hooks : HookWorld) (co : Nat) : Event → Option HookWorld
  | .beginHook task =>
      if co = 0 ∨ hooks.executes co then none
      else (hooks.world.react (.beginHook task)).map (fun world =>
        { world := world
          hookCo := co
          coroutine := Function.update hooks.coroutine task co })
  | .endHook task outcome =>
      (hooks.world.react (.endHook task outcome)).map (fun world =>
        { hooks with world := world, hookCo := 0 })
  | event => (hooks.world.react event).map (fun world => { hooks with world := world })

end

end HookWorld

/-- The actions of the application, and the check that comes before them. -/
inductive CallAct where
  | app (act : Action)
  | checkCoContext (co : Nat)

@[reducible]
def CallAct.Answer : CallAct → Type
  | .app act => act.Answer
  | .checkCoContext _ => Except Error Unit

abbrev CallOp :=
  Program CallAct CallAct.Answer

def asCall (act : Action) : CallOp act.Answer :=
  @Program.ask _ CallAct.Answer (.app act)

/-- What a call returns that is refused at once. -/
def Entry.refused (error : Error) : Entry → Outcome
  | .coBindComponent _ _ _ _ => .bound (.error error)
  | _ => .control (.error error)

/-- A call in the coroutine `co`. -/
structure CoCall where
  co : Nat
  entry : Entry

def HookStep.beginsHook : PoolStep CoCall Choice (Event × Nat) → Bool
  | .env (.beginHook _, _) => true
  | _ => false

section

variable [Infra]

def CoCall.main (call : CoCall) : CallOp Outcome := do
  let context : Except Error Unit ←
    @Program.ask _ CallAct.Answer (.checkCoContext call.co)
  match context with
  | .error error => return call.entry.refused error
  | .ok () => call.entry.main.interpret asCall

def HookWorld.perform (hooks : HookWorld) : (act : CallAct) → Choice →
    Option (act.Answer × HookWorld)
  | .app act, choice =>
      (hooks.world.perform act choice).map (fun result =>
        (result.1, { hooks with world := result.2 }))
  | .checkCoContext co, _ => some (hooks.checkCoContext co, hooks)

def hookSystem :
    System CallAct CallAct.Answer Outcome HookWorld Unit CoCall Choice (Event × Nat) where
  start := fun hooks => AppWorld.Start hooks.world ∧ hooks.hookCo = 0
  idle := .control (.ok ())
  main := CoCall.main
  perform := fun act choice hooks => hooks.perform act choice
  env := fun event hooks => hooks.react event.2 event.1
  fresh := ()
  discipline := Program.free

abbrev HookPool :=
  Pool CallAct CallAct.Answer Outcome HookWorld Unit

abbrev HookStep :=
  PoolStep CoCall Choice (Event × Nat)

/-- A hook begins when no other one is being executed. -/
def HooksApart (pool : HookPool) (label : HookStep) : Prop :=
  HookStep.beginsHook label = true → pool.shared.idle = true

instance (pool : HookPool) (label : HookStep) : Decidable (HooksApart pool label) :=
  inferInstanceAs (Decidable (_ = true → _ = true))

omit [Infra] in
theorem AppWorld.executing_iff {world : AppWorld} {task : Nat} :
    world.executing task = true ↔
      ∃ found, world.tasks[task]? = some found ∧ found.phase = .executing := by
  simp [executing, Option.any_eq_true]

omit [Infra] in
theorem AppWorld.lt_of_executing {world : AppWorld} {task : Nat}
    (hexecuting : world.executing task = true) : task < world.tasks.length := by
  obtain ⟨found, hfound, -⟩ := executing_iff.mp hexecuting
  exact (List.getElem?_eq_some_iff.mp hfound).1

namespace HookWorld

variable {hooks : HookWorld} {co : Nat}

omit [Infra] in
theorem executes_iff : hooks.executes co = true ↔
    ∃ task, hooks.world.executing task = true ∧ hooks.coroutine task = co := by
  simp only [executes, List.any_eq_true, List.mem_range, decide_eq_true_eq]
  constructor
  · rintro ⟨task, -, hboth⟩
    exact ⟨task, hboth⟩
  · rintro ⟨task, hexecuting, hco⟩
    exact ⟨task, AppWorld.lt_of_executing hexecuting, hexecuting, hco⟩

omit [Infra] in
theorem not_executing_of_idle (hidle : hooks.idle = true) (task : Nat) :
    hooks.world.executing task = false := by
  by_contra hexecuting
  replace hexecuting := eq_true_of_ne_false hexecuting
  simp only [idle, List.all_eq_true, List.mem_range, decide_eq_true_eq] at hidle
  exact hidle task (AppWorld.lt_of_executing hexecuting) hexecuting

end HookWorld

omit [Infra] in
theorem executing_set {tasks : List HookTask} {index : Nat} {found : HookTask}
    (hfind : tasks[index]? = some found) (later : HookTask) (task : Nat) :
    ((tasks.set index later)[task]?).any (fun found => found.phase = .executing) =
      if task = index then decide (later.phase = .executing)
      else (tasks[task]?).any (fun found => found.phase = .executing) := by
  split
  case isTrue heq =>
    rw [heq, List.getElem?_set_self (List.getElem?_eq_some_iff.mp hfind).1]
    rfl
  case isFalse hne => rw [List.getElem?_set_ne (Ne.symm hne)]

namespace AppWorld

variable {world last : AppWorld}

omit [Infra] in
/-- A task that is not being executed, before and after, changes nothing. -/
theorem executing_same {index : Nat} {found : HookTask} (later : HookTask)
    (hfind : world.tasks[index]? = some found) (hbefore : found.phase ≠ .executing)
    (hafter : later.phase ≠ .executing) (hlast : last.tasks = world.tasks.set index later)
    (task : Nat) : last.executing task = world.executing task := by
  rw [executing, hlast, executing_set hfind]
  split
  case isTrue heq =>
    rw [executing, heq, hfind, Option.any_some, decide_eq_false hbefore,
      decide_eq_false hafter]
  case isFalse => rfl

/-- A call never begins or ends a hook itself. -/
theorem apply_executing {command : Command} {choice : Choice} {answer : command.Answer}
    (happly : world.apply command choice = some (answer, last)) (task : Nat) :
    last.executing task = world.executing task := by
  by_cases hwrites : command.writesTasks = false
  · rw [executing, executing, (apply_framed happly).tasks hwrites]
  · cases command with
    | takeHook id hook =>
        replace happly := Option.some.inj happly
        cases hfind : world.registry.findEntryLocked id with
        | none =>
            rw [takeHook, hfind] at happly
            cases happly
            rfl
        | some entry =>
            rw [takeHook, hfind] at happly
            cases happly
            unfold executing
            dsimp only
            rw [List.getElem?_append]
            split
            · rfl
            case isFalse hge =>
              rw [List.getElem?_eq_none (Nat.le_of_not_lt hge)]
              cases task - world.tasks.length with
              | zero => rfl
              | succ later => rfl
    | submitHook index =>
        simp only [apply, submitHook] at happly
        split at happly
        · split at happly
          case h_1 object hook hfind =>
            cases happly
            refine executing_same _ hfind (fun h => by cases h) ?_ rfl task
            dsimp only
            split
            · exact fun h => by cases h
            · exact fun h => by cases h
          · cases happly
        · cases happly
    | noteRejected index =>
        simp only [apply] at happly
        split at happly
        case h_1 object hook hfind =>
          cases happly
          exact executing_same _ hfind (fun h => by cases h) (fun h => by cases h) rfl task
        · cases happly
    | _ => exact absurd rfl hwrites

inductive HookMove (world last : AppWorld) : Event → Prop where
  | began (task : Nat) (hbefore : world.executing task = false)
      (hmove : ∀ other, last.executing other =
        if other = task then true else world.executing other) :
      HookMove world last (.beginHook task)
  | ended (task : Nat) (outcome : HookOutcome) (hbefore : world.executing task = true)
      (hmove : ∀ other, last.executing other =
        if other = task then false else world.executing other) :
      HookMove world last (.endHook task outcome)
  | still (event : Event) (hbegin : ∀ task, event ≠ .beginHook task)
      (hend : ∀ task outcome, event ≠ .endHook task outcome)
      (hmove : ∀ other, last.executing other = world.executing other) :
      HookMove world last event

theorem event_hookMove {event : Event} (hevent : world.event event = some last) :
    HookMove world last event := by
  cases event with
  | beginHook index =>
      simp only [AppWorld.event] at hevent
      split at hevent
      case h_1 object hook hfind =>
        cases hevent
        refine .began index ?_ ?_
        · rw [executing, hfind]
          rfl
        · exact executing_set hfind _
      · cases hevent
  | endHook index outcome =>
      simp only [AppWorld.event] at hevent
      split at hevent
      case h_1 object hook hfind =>
        cases hevent
        refine .ended index outcome ?_ ?_
        · rw [executing, hfind]
          rfl
        · exact executing_set hfind _
      · cases hevent
  | noteHook index =>
      refine .still _ (fun _ h => by cases h) (fun _ _ h => by cases h) ?_
      simp only [AppWorld.event] at hevent
      split at hevent
      case h_1 object hook result hfind =>
        cases hevent
        exact executing_same _ hfind (fun h => by cases h) (fun h => by cases h) rfl
      · cases hevent
  | notifyHook index =>
      refine .still _ (fun _ h => by cases h) (fun _ _ h => by cases h) ?_
      simp only [AppWorld.event] at hevent
      split at hevent
      case h_1 object hook notify result hfind =>
        cases hevent
        refine executing_same ⟨object, hook, .notified result⟩ hfind (fun h => by cases h)
          (fun h => by cases h) ?_
        cases notify
        · rfl
        · rfl
      · cases hevent
  | settleHook index =>
      refine .still _ (fun _ h => by cases h) (fun _ _ h => by cases h) ?_
      simp only [AppWorld.event] at hevent
      split at hevent
      case h_1 object hook result hfind =>
        cases hevent
        exact executing_same _ hfind (fun h => by cases h) (fun h => by cases h) rfl
      · cases hevent
  | borrow object generation allow =>
      refine .still _ (fun _ h => by cases h) (fun _ _ h => by cases h) ?_
      simp only [AppWorld.event] at hevent
      split at hevent
      · cases hevent
        exact fun _ => rfl
      · cases hevent
        exact fun _ => rfl
  | release lease =>
      refine .still _ (fun _ h => by cases h) (fun _ _ h => by cases h) ?_
      simp only [AppWorld.event] at hevent
      split at hevent
      · cases hevent
        exact fun _ => rfl
      · cases hevent

end AppWorld

/-- What a step does to the cell and to the hooks being executed; the index tells whether
it begins a hook. -/
inductive CellMove (hooks last : HookWorld) : Bool → Prop where
  | began (task : Nat) (hco : last.hookCo ≠ 0)
      (hcoroutine : last.coroutine = Function.update hooks.coroutine task last.hookCo)
      (hmove : ∀ other, last.world.executing other =
        if other = task then true else hooks.world.executing other) :
      CellMove hooks last true
  | ended (task : Nat) (hbefore : hooks.world.executing task = true)
      (hcell : last.hookCo = 0)
      (hmove : ∀ other, last.world.executing other =
        if other = task then false else hooks.world.executing other) :
      CellMove hooks last false
  | still (hcell : last.hookCo = hooks.hookCo)
      (hcoroutine : last.coroutine = hooks.coroutine)
      (hmove : ∀ other, last.world.executing other = hooks.world.executing other) :
      CellMove hooks last false

variable {pool next : HookPool} {label : HookStep}

theorem HookWorld.perform_cellMove {hooks last : HookWorld} {act : CallAct}
    {choice : Choice} {answer : act.Answer}
    (hperform : hooks.perform act choice = some (answer, last)) :
    CellMove hooks last false := by
  cases act with
  | app act =>
      obtain ⟨⟨given, world⟩, hworld, heq⟩ := Option.map_eq_some_iff.mp hperform
      cases heq
      refine .still rfl rfl ?_
      intro other
      cases act with
      | query query =>
          obtain ⟨-, rfl⟩ := AppWorld.perform_query hworld
          rfl
      | command command =>
          exact AppWorld.apply_executing (AppWorld.perform_command hworld) other
  | checkCoContext co =>
      cases hperform
      exact .still rfl rfl (fun _ => rfl)

theorem HookWorld.react_cellMove {hooks last : HookWorld} {co : Nat} {event : Event}
    (hreact : hooks.react co event = some last) :
    CellMove hooks last (HookStep.beginsHook (.env (event, co))) := by
  have hstill : ∀ {world : AppWorld}, AppWorld.HookMove hooks.world world event →
      (∀ task, event ≠ .beginHook task) → (∀ task outcome, event ≠ .endHook task outcome) →
      CellMove hooks { hooks with world := world } false := by
    intro world hmove hbegin hend
    cases hmove with
    | began task _ _ => exact absurd rfl (hbegin task)
    | ended task outcome _ _ => exact absurd rfl (hend task outcome)
    | still _ _ _ hmove => exact .still rfl rfl hmove
  cases event with
  | beginHook task =>
      simp only [react] at hreact
      split at hreact
      case isTrue => cases hreact
      case isFalse hfree =>
        obtain ⟨world, hworld, rfl⟩ := Option.map_eq_some_iff.mp hreact
        cases AppWorld.event_hookMove (AppWorld.react_event hworld) with
        | began _ _ hmove =>
            exact .began task (fun hzero => hfree (Or.inl hzero)) rfl hmove
        | still _ hbegin _ _ => exact absurd rfl (hbegin task)
  | endHook task outcome =>
      obtain ⟨world, hworld, rfl⟩ := Option.map_eq_some_iff.mp hreact
      cases AppWorld.event_hookMove (AppWorld.react_event hworld) with
      | ended _ _ hbefore hmove => exact .ended task hbefore rfl hmove
      | still _ _ hend _ => exact absurd rfl (hend task outcome)
  | _ =>
      obtain ⟨world, hworld, rfl⟩ := Option.map_eq_some_iff.mp hreact
      exact hstill (AppWorld.event_hookMove (AppWorld.react_event hworld))
        (fun _ heq => by cases heq) (fun _ _ heq => by cases heq)

theorem next_cellMove (hnext : hookSystem.next pool label = some next) :
    CellMove pool.shared next.shared (HookStep.beginsHook label) := by
  cases label with
  | spawn call =>
      cases hnext
      exact .still rfl rfl (fun _ => rfl)
  | step thread choice =>
      obtain ⟨-, act, rest, answer, shared, -, hperform, rfl⟩ := System.next_step hnext
      exact HookWorld.perform_cellMove hperform
  | env event =>
      obtain ⟨shared, hreact, rfl⟩ := Option.map_eq_some_iff.mp hnext
      exact HookWorld.react_cellMove hreact

/-! ## Over runs -/

def HookWorld.CellExecutes (hooks : HookWorld) : Prop :=
  hooks.hookCo ≠ 0 →
    ∃ task, hooks.world.executing task = true ∧ hooks.coroutine task = hooks.hookCo

omit [Infra] in
theorem not_executing_start {world : AppWorld} (hstart : AppWorld.Start world) (task : Nat) :
    world.executing task = false := by
  obtain ⟨options, maxObjects, maxBindings, -, rfl⟩ := hstart
  rfl

theorem cellExecutes_of_reachable {guard : HookPool → HookStep → Prop}
    (hreach : hookSystem.machine.ReachableWhere guard pool) : pool.shared.CellExecutes := by
  refine hreach.induct (motive := fun pool => pool.shared.CellExecutes) ?_ ?_
  · rintro pool ⟨hooks, ⟨-, hcell⟩, rfl⟩ hco
    exact absurd hcell hco
  · intro pool label last _ ih _ hnext hco
    have hmoves := next_cellMove hnext
    generalize HookStep.beginsHook label = begins at hmoves
    cases hmoves with
    | began task _ hcoroutine hmove =>
        refine ⟨task, ?_, ?_⟩
        · rw [hmove task, if_pos rfl]
        · rw [hcoroutine, Function.update_self]
    | ended task _ hcell _ => exact absurd hcell hco
    | still hcell hcoroutine hmove =>
        rw [hcell] at hco
        obtain ⟨task, hexecuting, hsame⟩ := ih hco
        refine ⟨task, (hmove task).trans hexecuting, ?_⟩
        rw [hcoroutine, hcell]
        exact hsame

structure HookWorld.Alone (hooks : HookWorld) : Prop where
  one : ∀ task other, hooks.world.executing task = true →
    hooks.world.executing other = true → task = other
  cell : ∀ task, hooks.world.executing task = true →
    hooks.coroutine task = hooks.hookCo ∧ hooks.hookCo ≠ 0

theorem alone_of_reachable (hreach : hookSystem.machine.ReachableWhere HooksApart pool) :
    pool.shared.Alone := by
  refine hreach.induct (motive := fun pool => pool.shared.Alone) ?_ ?_
  · rintro pool ⟨hooks, ⟨hstart, -⟩, rfl⟩
    have hnone : ∀ task, hooks.world.executing task ≠ true := fun task hexecuting => by
      rw [not_executing_start hstart task] at hexecuting
      cases hexecuting
    exact ⟨fun task _ hexecuting => absurd hexecuting (hnone task),
      fun task hexecuting => absurd hexecuting (hnone task)⟩
  · intro pool label last _ ih hguard hnext
    have hmoves := next_cellMove hnext
    unfold HooksApart at hguard
    cases hbegins : HookStep.beginsHook label with
    | true =>
        rw [hbegins] at hmoves hguard
        cases hmoves with
        | began task hco hcoroutine hmove =>
            have hidle := HookWorld.not_executing_of_idle (hguard rfl)
            have honly : ∀ other, last.shared.world.executing other = true →
                other = task := by
              intro other hexecuting
              by_contra hne
              rw [hmove other, if_neg hne, hidle other] at hexecuting
              cases hexecuting
            constructor
            · intro first second hfirst hsecond
              rw [honly first hfirst, honly second hsecond]
            · intro other hexecuting
              rw [honly other hexecuting, hcoroutine, Function.update_self]
              exact ⟨rfl, hco⟩
    | false =>
        rw [hbegins] at hmoves
        cases hmoves with
        | ended task hbefore hcell hmove =>
            have hnone : ∀ other, last.shared.world.executing other ≠ true := by
              intro other hexecuting
              rw [hmove other] at hexecuting
              split at hexecuting
              · cases hexecuting
              case isFalse hne => exact hne (ih.one other task hexecuting hbefore)
            exact ⟨fun other _ hexecuting => absurd hexecuting (hnone other),
              fun other hexecuting => absurd hexecuting (hnone other)⟩
        | still hcell hcoroutine hmove =>
            constructor
            · intro first second hfirst hsecond
              exact ih.one first second (hmove first ▸ hfirst) (hmove second ▸ hsecond)
            · intro other hexecuting
              rw [hcoroutine, hcell]
              exact ih.cell other (hmove other ▸ hexecuting)

/-- What a call is told that comes from the coroutine of a hook. -/
def ownHook : Error :=
  makeError .invalidContext
    "lifecycle: a lifecycle entry point called by its own hook would wait on itself"

/-- While hooks do not overlap, a call from the coroutine that is executing a hook is refused,
and one from any other coroutine is not. -/
theorem hook_calls_refused (hreach : hookSystem.machine.ReachableWhere HooksApart pool)
    {co : Nat} (hco : co ≠ 0) :
    (pool.shared.executes co = true → pool.shared.checkCoContext co = .error ownHook) ∧
      (pool.shared.executes co = false → pool.shared.checkCoContext co = .ok ()) := by
  constructor
  · intro hexecutes
    obtain ⟨task, hexecuting, rfl⟩ := HookWorld.executes_iff.mp hexecutes
    have hcell := ((alone_of_reachable hreach).cell task hexecuting).1
    rw [HookWorld.checkCoContext, if_neg hco, if_pos hcell.symm]
    rfl
  · intro hexecutes
    have hcell : pool.shared.hookCo ≠ co := by
      rintro rfl
      have hcalls := HookWorld.executes_iff.mpr (cellExecutes_of_reachable hreach hco)
      rw [hexecutes] at hcalls
      cases hcalls
    rw [HookWorld.checkCoContext, if_neg hco, if_neg hcell]

end

def callStep (thread : Nat) : HookStep :=
  .step thread (.hook (.returned (.ok ())))

/-- A component is installed by one call and uninstalled by the next one, in coroutines
`co` and `co + 1`, up to the submission of its last hook. -/
def stoppingComponent (thread co : Nat) (type : String) : List HookStep :=
  [.spawn ⟨co, .coInstallComponent type "a" ⟨.app, none⟩⟩] ++
    List.replicate 9 (callStep thread) ++
    [.spawn ⟨co + 1, .coUninstallComponent type "a" ⟨.app, none⟩⟩] ++
    List.replicate 6 (callStep (thread + 1)) ++ [.step (thread + 1) (.submission .accepted)]

/-- While the hook of one component is executed on coroutine 7. -/
theorem hook_calls_refused_one :
    letI := permissiveInfra
    ∃ pool, hookSystem.machine.ReachableWhere HooksApart pool ∧
      pool.shared.executes 7 = true ∧ pool.shared.executes 1 = false ∧
      pool.shared.checkCoContext 7 = .error ownHook ∧
      pool.shared.checkCoContext 1 = .ok () := by
  let _ := permissiveInfra
  have hboot : hookSystem.machine.ReachableWhere HooksApart
      (hookSystem.boot ⟨AppWorld.fresh (.ok ()) 10 10, 0, fun _ => 0⟩) :=
    .start ⟨_, ⟨start_fresh 10 10 (by decide), rfl⟩, rfl⟩
  obtain ⟨pool, hreach, htest⟩ := hboot.exec_any
    (fun pool label => decide (HooksApart pool label)) (fun _ _ => of_decide_eq_true)
    (stoppingComponent 0 1 "A" ++ [.env (.beginHook 0, 7)])
    (fun pool => pool.shared.executes 7 = true ∧ pool.shared.executes 1 = false)
    (by decide)
  obtain ⟨hhook, hother⟩ := of_decide_eq_true htest
  exact ⟨pool, hreach, hhook, hother, (hook_calls_refused hreach (by decide)).1 hhook,
    (hook_calls_refused hreach (by decide)).2 hother⟩

/-- The hooks of two components overlap, and the first one is not refused. -/
theorem hook_call_not_refused :
    letI := permissiveInfra
    ¬∀ pool co, hookSystem.machine.Reachable pool → co ≠ 0 →
      pool.shared.executes co = true → pool.shared.checkCoContext co = .error ownHook := by
  let _ := permissiveInfra
  intro hclaim
  have hboot : hookSystem.machine.Reachable
      (hookSystem.boot ⟨AppWorld.fresh (.ok ()) 10 10, 0, fun _ => 0⟩) :=
    .start ⟨_, ⟨start_fresh 10 10 (by decide), rfl⟩, rfl⟩
  obtain ⟨pool, hreach, htest⟩ := hboot.exec_any (fun _ _ => true) (fun _ _ _ => trivial)
    (stoppingComponent 0 1 "A" ++ stoppingComponent 2 3 "B" ++
      [.env (.beginHook 0, 7), .env (.beginHook 1, 8)])
    (fun pool => pool.shared.executes 7 = true ∧ pool.shared.hookCo = 8) (by decide)
  obtain ⟨hhook, hcell⟩ := of_decide_eq_true htest
  have hrefused := hclaim pool 7 hreach (by decide) hhook
  rw [HookWorld.checkCoContext, if_neg (by decide), hcell, if_neg (by decide)] at hrefused
  cases hrefused

end BbtFramework.App
