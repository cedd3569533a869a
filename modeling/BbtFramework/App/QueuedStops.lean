import BbtFramework.App.BorrowAccounting
import BbtFramework.App.StopOrder
import BbtFramework.App.Subjects

/-!
# Stops that wait to begin

A teardown counts `OnStop` of a service when it has seen every edge of the service
drained, and hands it to the scheduler, which begins it at a time of its own; the teardown
may have given up by then.  Unless a bind gives the service a new edge in between, no edge
of the service is borrowed when `OnStop` begins.
-/

namespace BbtFramework.App

open BbtFramework.Library

/-- The edge is sealed and nobody has borrowed through it. -/
def Binding.Idle (edge : Binding) : Prop :=
  edge.retiring = true ∧ edge.borrows = 0

theorem Binding.Idle.settles {later earlier : Binding} (hidle : earlier.Idle)
    (hsettles : later.Settles earlier) : later.Idle := by
  refine ⟨hsettles.1.retiring hidle.1, ?_⟩
  have hle := hsettles.2 hidle.1
  rw [hidle.2] at hle
  exact Nat.le_zero.mp hle

/-- No edge of the subject is open or borrowed. -/
def Registry.AllIdle (registry : Registry) (subject : ObjectId) : Prop :=
  registry.EdgesOf subject (fun _ edge => edge.Idle)

theorem Operation.Informed.idle {world : AppWorld} {op : Operation}
    (hinformed : op.Informed world) {all : List EdgeName} (hlisted : op.edges = .listed all []) :
    world.registry.AllIdle op.object := by
  have hsealed : op.edges ≠ .untouched := by
    rw [hlisted]
    intro hphase
    cases hphase
  intro id entry hkind hfind edge hmem hsubject
  exact ⟨hinformed.sealed hsealed id entry hkind hfind edge hmem hsubject,
    (hinformed.listed all [] hlisted id entry hkind hfind edge hmem hsubject).2
      List.not_mem_nil⟩

namespace AppWorld

variable {world last : AppWorld} {subject : ObjectId}

def accepts [Infra] (world : AppWorld) (subject : ObjectHandle) (key : ComponentKey) :
    Bool :=
  (world.bindChecks subject key).isOk

/-- Idle edges stay idle, as long as their subject gets no new one. -/
theorem Settling.allIdle [Infra] {released : Option ObjectId} {asked : Option Action}
    (hsettling : world.Settling released last) (hstep : world.AgeStep asked last)
    (hnumbered : world.registry.Numbered)
    (hspared : ∀ object key, asked = some (.command (.bindComponent object key)) →
      object.id = subject → world.accepts object key = false)
    (hidle : world.registry.AllIdle subject) : last.registry.AllIdle subject := by
  intro id later hkind hfind edge hmem hsubject
  obtain ⟨earlier, hearlier, known, hknown, hsettles⟩ | ⟨hnew, -⟩ :=
    hsettling.edges id later hfind edge hmem
  · have hsame : known.subjectId = subject := hsettles.1.subject.symm.trans hsubject
    exact (hidle id earlier hkind hearlier known hknown hsame).settles hsettles
  -- Only a bind makes an edge with a generation that was not used before.
  have hold : ∀ earlier, world.registry.findEntryLocked id = some earlier →
      ∀ known ∈ earlier.bindings, edge.generation ≠ known.generation := by
    intro earlier hearlier known hknown heq
    have hlt := hnumbered.edges_lt id earlier hearlier known hknown
    omega
  cases hstep with
  | ages hids hgenerations hages =>
      obtain ⟨earlier, hearlier, hage⟩ := hages id later hfind
      obtain ⟨known, hknown, hsame⟩ := hage.edges edge hmem
      exact absurd hsame.generation (hold earlier hearlier known hknown)
  | created kind hcreated =>
      obtain hbefore | ⟨-, _, _, _, _, _, rfl⟩ := hcreated.find hfind
      · exact absurd rfl (hold later hbefore edge hmem)
      · cases hmem
  | bound object key target component made change hasked hchecks hlast =>
      rw [hlast] at hfind
      obtain ⟨earlier, hearlier, hage⟩ := find_bound hfind
      obtain ⟨known, hknown, hsame⟩ := hage.edges edge hmem
      have hother : object.id ≠ subject := by
        intro heq
        have hrefused := hspared object key hasked heq
        rw [accepts, hchecks] at hrefused
        cases hrefused
      split at hknown
      · rcases List.mem_append.mp hknown with hknown | hknown
        · exact absurd hsame.generation (hold earlier hearlier known hknown)
        · obtain rfl := List.mem_singleton.mp hknown
          exact absurd (hsame.subject.symm.trans hsubject) hother
      · exact absurd hsame.generation (hold earlier hearlier known hknown)

end AppWorld

def Action.erases : Action → Bool
  | .command (.eraseSubjectEdges _) | .command (.eraseSubjectEdgesOn _ _) => true
  | _ => false

structure Operation.HadCleared (later earlier : Operation) : Prop where
  object : earlier.object = later.object
  kind : earlier.kind = later.kind
  edges : earlier.edges = .cleared

namespace Role

variable {role : Role} {later : Operation}

theorem hadCleared_change {update : Operation → Operation}
    (hlater : (role.change update).operation = some later) (hcleared : later.edges = .cleared)
    (hupdate : ∀ op, (update op).object = op.object ∧ (update op).kind = op.kind ∧
      (update op).edges = op.edges) :
    ∃ op, role.operation = some op ∧ later.HadCleared op := by
  obtain ⟨op, hop, rfl⟩ := Option.map_eq_some_iff.mp hlater
  obtain ⟨hobject, hkind, hedges⟩ := hupdate op
  exact ⟨op, hop, hobject.symm, hkind.symm, hedges.symm.trans hcleared⟩

theorem hadCleared_drainEdge {component subject : ObjectId} {generation : Nat}
    (hlater : (role.drainEdge component subject generation).operation = some later)
    (hcleared : later.edges = .cleared) :
    ∃ op, role.operation = some op ∧ later.HadCleared op := by
  obtain ⟨op, hop, rfl⟩ := Option.map_eq_some_iff.mp hlater
  refine ⟨op, hop, rfl, rfl, ?_⟩
  dsimp only at hcleared
  split at hcleared
  · cases hcleared
  · exact hcleared

theorem hadCleared_query {query : Query} (answer : query.Answer)
    (hlater : (afterQuery query answer role).operation = some later)
    (hcleared : later.edges = .cleared) :
    ∃ op, role.operation = some op ∧ later.HadCleared op := by
  have hsame : role.operation = some later →
      ∃ op, role.operation = some op ∧ later.HadCleared op :=
    fun hlater => ⟨later, hlater, rfl, rfl, hcleared⟩
  unfold afterQuery at hlater
  cases query with
  | loadState =>
      dsimp only at hlater
      split at hlater
      · split at hlater
        · cases hlater
        · exact hsame hlater
      · exact hsame hlater
  | findActor id =>
      cases hlater
      cases hcleared
  | enterHook id hook =>
      dsimp only at hlater
      split at hlater
      · exact hadCleared_change hlater hcleared (fun _ => ⟨rfl, rfl, rfl⟩)
      · exact hsame hlater
  | leaveHook => exact hadCleared_change hlater hcleared (fun _ => ⟨rfl, rfl, rfl⟩)
  | borrowsDrained id =>
      dsimp only at hlater
      split at hlater
      · exact hadCleared_change hlater hcleared (fun _ => ⟨rfl, rfl, rfl⟩)
      · exact hsame hlater
  | awaitBorrows id =>
      dsimp only at hlater
      split at hlater
      · exact hadCleared_change hlater hcleared (fun _ => ⟨rfl, rfl, rfl⟩)
      · exact hsame hlater
  | bindingDrained component subject generation =>
      dsimp only at hlater
      split at hlater
      · exact hadCleared_drainEdge hlater hcleared
      · exact hsame hlater
  | awaitBinding component subject generation =>
      dsimp only at hlater
      split at hlater
      · exact hadCleared_drainEdge hlater hcleared
      · exact hsame hlater
  | hookInFlight id =>
      dsimp only at hlater
      split at hlater
      · exact hsame hlater
      · exact hadCleared_change hlater hcleared (fun _ => ⟨rfl, rfl, rfl⟩)
  | retiringEdges subject =>
      obtain ⟨op, -, rfl⟩ := Option.map_eq_some_iff.mp hlater
      cases hcleared
  | _ => exact hsame hlater

theorem hadCleared_command {command : Command} (answer : command.Answer)
    (herases : (Action.command command).erases = false)
    (hlater : (afterCommand command answer role).operation = some later)
    (hcleared : later.edges = .cleared) :
    ∃ op, role.operation = some op ∧ later.HadCleared op := by
  have hsame : role.operation = some later →
      ∃ op, role.operation = some op ∧ later.HadCleared op :=
    fun hlater => ⟨later, hlater, rfl, rfl, hcleared⟩
  have hbegun : ∀ {op : Operation}, op.edges ≠ .cleared → some op = some later →
      ∃ op, role.operation = some op ∧ later.HadCleared op := by
    rintro op hnever ⟨⟩
    exact absurd hcleared hnever
  unfold afterCommand at hlater
  cases command with
  | exchangeLifecycle =>
      dsimp only at hlater
      split at hlater
      · exact hsame hlater
      · exact hsame hlater
  | createComponent key =>
      dsimp only at hlater
      split at hlater
      · exact hbegun (by rintro ⟨⟩) hlater
      · exact hsame hlater
  | createService name allowed =>
      dsimp only at hlater
      split at hlater
      · exact hbegun (by rintro ⟨⟩) hlater
      · exact hsame hlater
  | setState id state =>
      dsimp only at hlater
      split at hlater
      · split at hlater
        · exact hbegun (by rintro ⟨⟩) hlater
        · exact hsame hlater
      · split at hlater
        · cases hlater
        · exact hsame hlater
  | checkSettled id hook =>
      dsimp only at hlater
      split at hlater
      · exact hbegun (by rintro ⟨⟩) hlater
      case h_2 op hop =>
        cases hlater
        exact ⟨op, hop, rfl, rfl, hcleared⟩
  | awaitSettled id =>
      dsimp only at hlater
      split at hlater
      · exact hadCleared_change hlater hcleared (fun _ => ⟨rfl, rfl, rfl⟩)
      · exact hsame hlater
  | takeHook id hook =>
      dsimp only at hlater
      split at hlater
      · exact hadCleared_change hlater hcleared (fun _ => ⟨rfl, rfl, rfl⟩)
      · exact hsame hlater
  | beginStopService id =>
      dsimp only at hlater
      split at hlater
      · exact hbegun (by rintro ⟨⟩) hlater
      · exact hsame hlater
  | beginStopComponent id =>
      dsimp only at hlater
      split at hlater
      · exact hbegun (by rintro ⟨⟩) hlater
      · exact hsame hlater
  | beginUninstallComponent key =>
      dsimp only at hlater
      split at hlater
      · exact hbegun (by rintro ⟨⟩) hlater
      · exact hsame hlater
  | beginUninstallService name =>
      dsimp only at hlater
      split at hlater
      · exact hbegun (by rintro ⟨⟩) hlater
      · exact hsame hlater
  | beginUninstallActorType type =>
      dsimp only at hlater
      split at hlater
      · exact hbegun (by rintro ⟨⟩) hlater
      · exact hsame hlater
  | sealSubjectEdges subject =>
      obtain ⟨op, -, rfl⟩ := Option.map_eq_some_iff.mp hlater
      cases hcleared
  | eraseSubjectEdges subject => cases herases
  | eraseSubjectEdgesOn subject components => cases herases
  | finishDestroy id => cases hlater
  | abortDestroy id phase incomplete => cases hlater
  | beginUnbind subject key =>
      dsimp only at hlater
      split at hlater
      · exact hsame hlater
      · exact hsame hlater
  | _ => exact hsame hlater

theorem cleared_after {act : Action} (answer : act.Answer) (hallowed : allows act role)
    (hlater : (after act answer role).operation = some later)
    (hmarks : later.marks = true) (hcleared : later.edges = .cleared) :
    ∃ op, role.operation = some op ∧ op.object = later.object ∧ op.marks = true ∧
      (op.edges = .cleared ∨ (act.erases = true ∧ ∃ all, op.edges = .listed all [])) := by
  have hkept : (∃ op, role.operation = some op ∧ later.HadCleared op) →
      ∃ op, role.operation = some op ∧ op.object = later.object ∧ op.marks = true ∧
        (op.edges = .cleared ∨ (act.erases = true ∧ ∃ all, op.edges = .listed all [])) := by
    rintro ⟨op, hop, hobject, hkind, hedges⟩
    refine ⟨op, hop, hobject, ?_, Or.inl hedges⟩
    rw [Operation.marks, hobject, hkind]
    exact hmarks
  cases act with
  | query query => exact hkept (hadCleared_query answer hlater hcleared)
  | command command =>
      by_cases herases : (Action.command command).erases = false
      · exact hkept (hadCleared_command answer herases hlater hcleared)
      cases command with
      | eraseSubjectEdges subject =>
          obtain ⟨known, hknown, -, hmarked, hlisted⟩ := hallowed
          obtain ⟨op, hop, rfl⟩ := Option.map_eq_some_iff.mp hlater
          obtain rfl := Option.some.inj (hknown.symm.trans hop)
          exact ⟨known, hknown, rfl, hmarked, Or.inr ⟨rfl, hlisted⟩⟩
      | eraseSubjectEdgesOn subject components =>
          obtain ⟨known, hknown, -, hmarked, all, hlisted, -⟩ := hallowed
          obtain ⟨op, hop, rfl⟩ := Option.map_eq_some_iff.mp hlater
          obtain rfl := Option.some.inj (hknown.symm.trans hop)
          exact ⟨known, hknown, rfl, hmarked, Or.inr ⟨rfl, all, hlisted⟩⟩
      | _ => exact absurd rfl herases

end Role

/-- A task that waits to begin waited before, or its hook has just been counted. -/
theorem TaskMove.queued {asked : Option Action} {before after : List HookTask}
    (hmove : TaskMove asked before after) {task : HookTask} (hmem : task ∈ after)
    (hqueued : task.phase.queued = true) :
    (∃ known ∈ before, known.object = task.object ∧ known.hook = task.hook ∧
      known.phase.queued = true) ∨
      asked = some (.command (.takeHook task.object task.hook)) := by
  cases hmove with
  | same => exact Or.inl ⟨task, hmem, rfl, rfl, hqueued⟩
  | taken id hook hasked =>
      rcases List.mem_append.mp hmem with hmem | hmem
      · exact Or.inl ⟨task, hmem, rfl, rfl, hqueued⟩
      · obtain rfl := List.mem_singleton.mp hmem
        exact Or.inr hasked
  | moved index found phase hfind hphase =>
      rcases List.mem_or_eq_of_mem_set hmem with hmem | rfl
      · exact Or.inl ⟨task, hmem, rfl, rfl, hqueued⟩
      · refine Or.inl ⟨found, List.mem_of_getElem? hfind, rfl, rfl, ?_⟩
        by_contra hbegun
        rw [hphase (eq_false_of_ne_true hbegun)] at hqueued
        cases hqueued

/-- `OnStop` of the object is with the scheduler and has not begun. -/
def AppWorld.stopQueued (world : AppWorld) (id : ObjectId) : Bool :=
  world.tasks.any (fun task => task.object = id ∧ task.hook = .onStop ∧ task.phase.queued)

theorem AppWorld.stopQueued_of_move {world last : AppWorld} {asked : Option Action}
    {id : ObjectId} (hmove : TaskMove asked world.tasks last.tasks)
    (hqueued : last.stopQueued id = true) :
    world.stopQueued id = true ∨ asked = some (.command (.takeHook id .onStop)) := by
  obtain ⟨task, hmem, htest⟩ := List.any_eq_true.mp hqueued
  obtain ⟨rfl, hhook, hphase⟩ := of_decide_eq_true htest
  obtain ⟨known, hknown, hobject, hsame, hbefore⟩ | hasked := hmove.queued hmem hphase
  · exact Or.inl (List.any_eq_true.mpr
      ⟨known, hknown, decide_eq_true ⟨hobject, hsame.trans hhook, hbefore⟩⟩)
  · exact Or.inr (hhook ▸ hasked)

section

variable [Infra] {View : Type}

/-- No service is bound while its `OnStop` waits to begin. -/
def BindsInTime (pool : AppPool View) (label : AppStep) : Prop :=
  ∀ request ∈ (pool.asked label).bind Action.bindRequest,
    request.1.id.kind = .service → pool.shared.stopQueued request.1.id = true →
      pool.shared.accepts request.1 request.2 = false

instance (pool : AppPool View) (label : AppStep) : Decidable (BindsInTime pool label) :=
  inferInstanceAs (Decidable (∀ request ∈ _, _ → _ → _ = false))

end

/-- A teardown that has erased the edges of its object leaves it none that is borrowed, and
neither has a service whose `OnStop` waits to begin. -/
structure StopsIdle (world : AppWorld) (views : Nat → Role) : Prop where
  cleared : ∀ thread op, (views thread).operation = some op → op.marks = true →
    op.edges = .cleared → world.registry.AllIdle op.object
  queued : ∀ id : ObjectId, id.kind = .service → world.stopQueued id = true →
    world.registry.AllIdle id

section

variable [Infra] {world last : AppWorld}

/-- A subject that is torn down is not bound. -/
theorem Operation.Informed.refuses {op : Operation} (hinformed : op.Informed world)
    {subject : ObjectHandle} (key : ComponentKey) (hsubject : subject.id = op.object) :
    world.accepts subject key = false := by
  unfold AppWorld.accepts
  cases hchecks : world.bindChecks subject key with
  | error error => rfl
  | ok made =>
      obtain ⟨id, component, edge⟩ := made
      obtain ⟨-, -, -, -, ⟨entry, hentry, hfree⟩, -⟩ := AppWorld.bindChecks_ok hchecks
      rw [hsubject] at hentry
      rw [hinformed.busy entry hentry] at hfree
      cases hfree

omit [Infra] in
theorem StopsIdle.known {views : Nat → Role} (hidle : StopsIdle world views)
    (hdrained : Drained world views) {thread : Nat} {op : Operation}
    (hop : (views thread).operation = some op) (hmarks : op.marks = true)
    (hedges : op.EdgesDrained) : world.registry.AllIdle op.object := by
  obtain ⟨all, hlisted⟩ | hcleared := hedges
  · exact (hdrained.operations thread op hop hmarks).idle hlisted
  · exact hidle.cleared thread op hop hmarks hcleared

omit [Infra] in
/-- `OnStop` of a service is counted when no edge of the service is borrowed. -/
theorem StopsIdle.takeHook {views : Nat → Role} (hidle : StopsIdle world views)
    (hdrained : Drained world views) {thread : Nat} {id : ObjectId}
    (hheeds : Role.heeds (.command (.takeHook id .onStop)) (views thread))
    (hkind : id.kind = .service) :
    ∃ op, (views thread).operation = some op ∧ op.marks = true ∧ op.object = id ∧
      world.registry.AllIdle id := by
  obtain ⟨⟨op, hop, rfl, -, -, hstop⟩, hedges⟩ := hheeds
  obtain ⟨known, hknown, hseen⟩ := hedges rfl hkind
  obtain rfl := Option.some.inj (hop.symm.trans hknown)
  have hmarks := Operation.marks_of_closes (hstop rfl).1 (by rw [hkind]; decide)
  exact ⟨op, hop, hmarks, rfl, hidle.known hdrained hop hmarks hseen⟩

/-! ## Over runs -/

theorem perform_moves {act : Action} {choice : Choice} {answer : act.Answer}
    (hperform : world.perform act choice = some (answer, last)) :
    ∃ released, world.Settling released last ∧ world.AgeStep (some act) last ∧
      TaskMove (some act) world.tasks last.tasks := by
  cases act with
  | query query =>
      obtain ⟨-, rfl⟩ := AppWorld.perform_query hperform
      exact ⟨none, .refl last, .same last _, .same⟩
  | command command =>
      have happly := AppWorld.perform_command hperform
      exact ⟨_, AppWorld.apply_settling happly, AppWorld.apply_ageStep happly,
        apply_taskMove happly⟩

theorem stopsIdle_of_reachable {pool : AppPool Role}
    (hreach : carefulSystem.machine.ReachableWhere BindsInTime pool) :
    Drained pool.shared pool.views ∧ StopsIdle pool.shared pool.views := by
  have hdrained : ∀ {pool : AppPool Role},
      carefulSystem.machine.ReachableWhere BindsInTime pool → Drained pool.shared pool.views :=
    fun hreach => drained_of_reachable hreach
  refine ⟨hdrained hreach, ?_⟩
  refine carefulSystem_disciplined.invariant (motive := StopsIdle) ?_ ?_ ?_ hreach
  · rintro world ⟨options, maxObjects, maxBindings, -, rfl⟩
    refine ⟨?_, by rintro _ _ ⟨⟩⟩
    intro thread op hop
    cases hop
  · intro pool thread choice act answer last hacts hidle
    have hdrained := hdrained hacts.reach
    obtain ⟨released, hsettling, hstep, hmove⟩ := perform_moves hacts.performed
    have hkeep : ∀ {op : Operation} {owner : Nat},
        (pool.views owner).operation = some op → op.marks = true →
        pool.shared.registry.AllIdle op.object → last.registry.AllIdle op.object := by
      intro op owner hop hmarks
      refine hsettling.allIdle hstep hdrained.accounted.numbered ?_
      exact fun _ key _ => (hdrained.operations owner op hop hmarks).refuses key
    constructor
    · intro other op hop hmarks hcleared
      by_cases hsame : other = thread
      · rw [hsame, Function.update_self] at hop
        obtain ⟨known, hknown, hobject, hbefore, hseen⟩ := Role.cleared_after answer
          (Role.heeds_allows hacts.allowed) hop hmarks hcleared
        rw [← hobject]
        exact hkeep hknown hbefore (hidle.known hdrained hknown hbefore
          (hseen.symm.imp_left And.right))
      · rw [Function.update_of_ne hsame] at hop
        exact hkeep hop hmarks (hidle.cleared other op hop hmarks hcleared)
    · intro id hkind hqueued
      obtain hbefore | hasked := AppWorld.stopQueued_of_move hmove hqueued
      · refine hsettling.allIdle hstep hdrained.accounted.numbered ?_
          (hidle.queued id hkind hbefore)
        rintro object key hasked rfl
        obtain ⟨rest, hthread⟩ := hacts.asked
        refine hacts.guarded (object, key) ?_ hkind hbefore
        rw [Pool.asked_call hthread, hasked]
        rfl
      · obtain rfl := Option.some.inj hasked
        obtain ⟨op, hop, hmarks, rfl, hnow⟩ := hidle.takeHook hdrained hacts.allowed hkind
        exact hkeep hop hmarks hnow
  · intro pool event last hreach _ hreact hidle
    have hevent := AppWorld.react_event hreact
    have hdrained := hdrained hreach
    have hnumbered := hdrained.accounted.numbered
    have hkeep : ∀ {id : ObjectId}, pool.shared.registry.AllIdle id →
        last.registry.AllIdle id := by
      have hstep : pool.shared.AgeStep none last := AppWorld.event_ageStep hevent
      intro id
      exact (AppWorld.event_settling hnumbered hevent).allIdle hstep hnumbered
        (by rintro _ _ ⟨⟩)
    constructor
    · exact fun thread op hop hmarks hcleared =>
        hkeep (hidle.cleared thread op hop hmarks hcleared)
    · intro id hkind hqueued
      have hmove : TaskMove none pool.shared.tasks last.tasks := event_taskMove hevent
      obtain hbefore | hasked := AppWorld.stopQueued_of_move hmove hqueued
      · exact hkeep (hidle.queued id hkind hbefore)
      · cases hasked

/-- In a run that binds in time, `OnStop` of a service finds no edge of the service open or
borrowed, neither when it is counted nor when it begins. -/
theorem stops_idle {pool : AppPool Unit}
    (hreach : plainSystem.machine.ReachableWhere BindsInTime pool) {id : ObjectId}
    (hkind : id.kind = .service) :
    (∀ label : AppStep, pool.asked label = some (.command (.takeHook id .onStop)) →
      pool.shared.registry.AllIdle id) ∧
    (pool.shared.stopQueued id = true → pool.shared.registry.AllIdle id) := by
  obtain ⟨views, hviews⟩ := System.reachable_under Role.fresh carefulDiscipline hreach
  have hcareful : carefulSystem.machine.ReachableWhere BindsInTime
      (System.viewed pool views) := hviews.mono (fun _ _ ⟨_, hguard⟩ => hguard)
  obtain ⟨hdrained, hidle⟩ := stopsIdle_of_reachable hcareful
  refine ⟨?_, hidle.queued id hkind⟩
  intro label hasked
  obtain ⟨thread, hheeds⟩ := heeds_asked hcareful hasked
  obtain ⟨-, -, -, -, hnow⟩ := hidle.takeHook hdrained hheeds hkind
  exact hnow

end

end BbtFramework.App
