import BbtFramework.App.BorrowAccounting
import BbtFramework.App.OperationStems

/-!
# One operation on an object

`m_lifecycle_active` keeps the transitions apart, and `op_in_progress` the teardowns.
Nothing keeps an installation and a teardown apart, or a transition and a teardown, or an
installation and a transition.  As long as no operation takes up an object from which the
flags do not keep it, and no wait for a hook ends before the hook does, at most one
operation is in progress on an object and at most one of its hooks is being executed.
-/

namespace BbtFramework.App

open BbtFramework.Library

section

variable [Infra]

/-- The operation has not been told wrongly that no hook is in flight, and none is while it
runs a hook itself.  `OnDestroy` belongs to actors and is not among the lifecycle hooks. -/
structure Operation.Quiet (world : AppWorld) (op : Operation) : Prop where
  settled : op.settled = true → world.registry.hooksSettled op.object = true
  hook : ∀ hook, op.hook = some hook → hook ≠ .onDestroy → world.liveHooks op.object = 0

/-- Operations work on objects of their own, and an object has at most one hook in
flight. -/
structure Apart (world : AppWorld) (views : Nat → Role) : Prop where
  counted : world.Counted
  single : ∀ id, world.liveHooks id ≤ 1
  alone : ∀ thread other op op', (views thread).operation = some op →
    (views other).operation = some op' → op.object = op'.object → thread = other
  quiet : ∀ thread op, (views thread).operation = some op → op.Quiet world

def Action.settleWait : Action → Option ObjectId
  | .command (.awaitSettled id) => some id
  | _ => none

def AppStep.completes : AppStep → Bool
  | .step _ (.wait .completed) => true
  | _ => false

/-- Where an operation takes up an object, none is in progress on it but one from which the
flags keep it. -/
def TakesUpApart (pool : AppPool Role) (label : AppStep) : Prop :=
  ∀ thread ∈ label.actor, ∀ op ∈ (pool.asked label).bind
      (Action.takesUp pool.shared (pool.views thread)),
    ∀ other < pool.count, other ≠ thread → ∀ known ∈ (pool.views other).operation,
      known.object = op.object → op.excludes known = true

/-- A settle wait that completes finds no hook of its object in flight. -/
def WaitsOut (pool : AppPool Role) (label : AppStep) : Prop :=
  AppStep.completes label = true → ∀ id ∈ (pool.asked label).bind Action.settleWait,
    pool.shared.registry.hooksSettled id = true

def OneAtATime (pool : AppPool Role) (label : AppStep) : Prop :=
  TakesUpApart pool label ∧ WaitsOut pool label

instance (pool : AppPool Role) (label : AppStep) : Decidable (OneAtATime pool label) :=
  inferInstanceAs (Decidable ((∀ thread ∈ _, ∀ op ∈ _, ∀ other < pool.count, _ → ∀ known ∈ _,
    _ → _ = true) ∧ (_ → ∀ id ∈ _, _ = true)))

namespace Operation.Quiet

variable {world last : AppWorld} {op later : Operation}

omit [Infra] in
/-- A step that counts no hook for the object leaves it quiet. -/
theorem step {asked : Option Action} (hquiet : op.Quiet world)
    (hstep : TaskStep asked world last)
    (hother : ∀ hook, asked ≠ some (.command (.takeHook op.object hook))) :
    op.Quiet last := by
  refine ⟨fun hsettled => hstep.settled hother (hquiet.settled hsettled), ?_⟩
  intro hook hhook hcounts
  obtain hle | ⟨-, -, hook, hasked⟩ := hstep.liveHooks op.object
  · rw [hquiet.hook hook hhook hcounts] at hle
    exact Nat.le_zero.mp hle
  · exact absurd hasked (hother hook)

/-- So does the step of its own thread. -/
theorem stems {act : Action} {choice : Choice} {role : Role}
    (hquiet : ∀ op, role.operation = some op → op.Quiet world) (hcounted : world.Counted)
    (hstep : TaskStep (some act) world last)
    (hwaits : ∀ id, act = .command (.awaitSettled id) → choice = .wait .completed →
      world.registry.hooksSettled id = true)
    (hstems : later.Stems world last act choice role) : later.Quiet last := by
  have hstays : ∀ {op : Operation}, role.operation = some op →
      (∀ id hook, act ≠ .command (.takeHook id hook)) → op.Quiet last := by
    intro op hop hact
    exact (hquiet op hop).step hstep
      (fun hook hasked => hact op.object hook (Option.some.inj hasked))
  cases hstems with
  | kept op hop hgoes hact hsettled hhook =>
      have hlast := hstays hop hact
      constructor
      · rw [hgoes.object]
        exact fun hknown => hlast.settled (hsettled hknown)
      · rw [hgoes.object]
        intro hook hruns hcounts
        obtain hsame | hnone := hhook
        · exact hlast.hook hook (hsame ▸ hruns) hcounts
        · rw [hnone] at hruns
          cases hruns
  | counted op hop hgoes hsettled hhook =>
      constructor
      · rw [hgoes.object]
        intro hknown
        obtain ⟨hbefore, rfl⟩ := hsettled hknown
        exact (hquiet op hop).settled hbefore
      · rw [hhook]
        intro hook hruns
        cases hruns
  | learned op hop hgoes hact hregistry hsettled hhook =>
      constructor
      · rw [hgoes.object, hregistry]
        intro hknown
        obtain hsettled | ⟨hact, hchoice⟩ := hsettled hknown
        · exact hsettled
        · exact hwaits op.object hact hchoice
      · rw [hgoes.object, hhook]
        exact (hstays hop hact).hook
  | entered op hop hgoes hlast hsettled hfound =>
      subst hlast
      have hknown := (hquiet op hop).settled hsettled
      constructor
      · rw [hgoes.object]
        exact fun _ => hknown
      · rw [hgoes.object]
        exact fun _ _ _ => hcounted.liveHooks hknown hfound
  | begun op htakes hobject hkind hdrained hsettled hhook =>
      constructor
      · rw [hobject]
        exact hsettled
      · intro hook hruns hcounts
        exact absurd (hhook hook hruns) hcounts

end Operation.Quiet

section

variable {pool : AppPool Role} {guard : AppPool Role → AppStep → Prop}

theorem flags_of_reachable (hreach : knowingSystem.machine.ReachableWhere guard pool) :
    LifecycleAlone Role.lifecycle pool.shared pool.views ∧
      ∀ thread, (pool.views thread).HoldsFlag := by
  refine ⟨lifecycle_alone knowingSystem_disciplined Role.tracksLifecycle hreach, ?_⟩
  refine knowingSystem_disciplined.invariant
    (motive := fun _ views => ∀ thread, (views thread).HoldsFlag) ?_ ?_ ?_ hreach
  · intro world _ thread op hop
    cases hop
  · intro pool thread choice act answer last hacts hholds other
    by_cases hsame : other = thread
    · rw [hsame, Function.update_self]
      exact (hholds thread).after hacts.allowed hacts.performed
    · rw [Function.update_of_ne hsame]
      exact hholds other
  · exact fun _ _ _ _ _ _ hholds => hholds

theorem not_excludes (hreach : knowingSystem.machine.ReachableWhere guard pool)
    {act : Action} {thread other : Nat} {op known : Operation}
    (hallowed : Role.allows act (pool.views thread))
    (htakes : act.takesUp pool.shared (pool.views thread) = some op)
    (hknown : (pool.views other).operation = some known)
    (hobject : known.object = op.object) (hexcludes : op.excludes known = true) :
    thread = other := by
  obtain ⟨hop, hother⟩ | ⟨hop, hother⟩ := of_decide_eq_true hexcludes
  · obtain ⟨halone, hholds⟩ := flags_of_reachable hreach
    exact halone.alone thread other (Role.lifecycle_of_takesUp hallowed htakes hop)
      (hholds other known hknown hother)
  · have hinformed := (drained_of_reachable hreach).operations other known hknown hother
    obtain ⟨entry, hfind, hfree⟩ := Role.free_of_takesUp hallowed htakes hop
    rw [hinformed.busy entry (hobject ▸ hfind)] at hfree
    cases hfree

theorem apart_of_reachable (hreach : knowingSystem.machine.ReachableWhere OneAtATime pool) :
    Apart pool.shared pool.views := by
  refine knowingSystem_disciplined.invariant (motive := Apart) ?_ ?_ ?_ hreach
  · rintro world ⟨options, maxObjects, maxBindings, -, rfl⟩
    refine ⟨⟨?_, fun _ hmem => absurd hmem List.not_mem_nil⟩, fun _ => Nat.zero_le _, ?_, ?_⟩
    · intro id entry hfind
      change (AppWorld.freshRegistry maxObjects maxBindings).findEntryLocked id = some entry
        at hfind
      rw [AppWorld.freshRegistry, Registry.findEntryLocked_append] at hfind
      split at hfind
      · cases hfind
        rfl
      · cases hfind
    · intro thread other op op' hop
      cases hop
    · intro thread op hop
      cases hop
  · intro pool thread choice act answer last hacts hapart
    have hstep := AppWorld.perform_taskStep hacts.performed
    obtain ⟨rest, hthread⟩ := hacts.asked
    have hasked : pool.asked (.step thread choice : AppStep) = some act :=
      Pool.asked_call hthread
    -- Who counts a hook works on its object and has seen no hook in flight.
    have htaker : ∀ id hook, act = .command (.takeHook id hook) → ∃ op,
        (pool.views thread).operation = some op ∧ op.object = id ∧ op.settled = true := by
      rintro id hook rfl
      obtain ⟨op, hop, hobject, hsettled, -⟩ := hacts.allowed
      exact ⟨op, hop, hobject, hsettled⟩
    have hclash : ∀ later, (Role.after act answer (pool.views thread)).operation = some later →
        ∀ other, other ≠ thread → ∀ known, (pool.views other).operation = some known →
        later.object ≠ known.object := by
      intro later hlater other hne known hknown hobject
      obtain ⟨op, hop | htakes, hsame, -⟩ :=
        (Role.stems hacts.allowed hacts.performed hlater).earlier
      · exact hne (hapart.alone thread other op known hop hknown
          (hsame.symm.trans hobject)).symm
      · have hlt : other < pool.count := by
          by_contra hge
          rw [System.views_of_ge hacts.reach other (Nat.le_of_not_lt hge)] at hknown
          cases hknown
        have hmem : op ∈ (pool.asked (.step thread choice : AppStep)).bind
            (Action.takesUp pool.shared (pool.views thread)) := by
          rw [hasked]
          exact htakes
        have hexcludes := hacts.guarded.1 thread rfl op hmem other hlt hne known hknown
          (hobject.symm.trans hsame)
        exact hne (not_excludes hacts.reach hacts.allowed htakes hknown
          (hobject.symm.trans hsame) hexcludes).symm
    refine ⟨hstep.counted hapart.counted, ?_, ?_, ?_⟩
    · intro id
      obtain hle | ⟨heq, hfound, hook, hcounts⟩ := hstep.liveHooks id
      · exact Nat.le_trans hle (hapart.single id)
      · obtain ⟨op, hop, rfl, hsettled⟩ := htaker id hook (Option.some.inj hcounts)
        rw [heq, hapart.counted.liveHooks ((hapart.quiet thread op hop).settled hsettled) hfound]
    · intro first second op op' hop hop' hobject
      by_cases hfirst : first = thread
      · by_cases hsecond : second = thread
        · rw [hfirst, hsecond]
        · rw [hfirst, Function.update_self] at hop
          rw [Function.update_of_ne hsecond] at hop'
          exact absurd hobject (hclash op hop second hsecond op' hop')
      · rw [Function.update_of_ne hfirst] at hop
        by_cases hsecond : second = thread
        · rw [hsecond, Function.update_self] at hop'
          exact absurd hobject.symm (hclash op' hop' first hfirst op hop)
        · rw [Function.update_of_ne hsecond] at hop'
          exact hapart.alone first second op op' hop hop' hobject
    · intro other op hop
      by_cases hsame : other = thread
      · rw [hsame, Function.update_self] at hop
        refine .stems (hapart.quiet thread) hapart.counted hstep ?_
          (Role.stems hacts.allowed hacts.performed hop)
        rintro id rfl rfl
        refine hacts.guarded.2 rfl id ?_
        rw [hasked]
        rfl
      · rw [Function.update_of_ne hsame] at hop
        refine (hapart.quiet other op hop).step hstep ?_
        intro hook hcounts
        obtain ⟨taker, htaker, hobject, -⟩ := htaker op.object hook (Option.some.inj hcounts)
        exact hsame (hapart.alone thread other taker op htaker hop hobject).symm
  · intro pool event last hreach _ hreact hapart
    have hstep : TaskStep none pool.shared last :=
      AppWorld.event_taskStep (AppWorld.react_event hreact)
    refine ⟨hstep.counted hapart.counted, ?_, hapart.alone, ?_⟩
    · intro id
      obtain hle | ⟨-, -, hook, hcounts⟩ := hstep.liveHooks id
      · exact Nat.le_trans hle (hapart.single id)
      · cases hcounts
    · intro thread op hop
      refine (hapart.quiet thread op hop).step hstep ?_
      intro hook hcounts
      cases hcounts

end

/-- Where a hook is executed: on a task of its own, or by the call itself. -/
inductive HookSite where
  | task (index : Nat)
  | caller (thread : Nat)

def AppWorld.ExecutesAt (world : AppWorld) (views : Nat → Role) (id : ObjectId) :
    HookSite → Prop
  | .task index => ∃ hook, world.tasks[index]? = some ⟨id, hook, .executing⟩
  | .caller thread => ∃ op hook, (views thread).operation = some op ∧ op.object = id ∧
      op.hook = some hook ∧ hook ≠ .onDestroy

structure HooksExclusive (world : AppWorld) (views : Nat → Role) (id : ObjectId) : Prop where
  operations : ∀ thread other op op', (views thread).operation = some op →
    (views other).operation = some op' → op.object = id → op'.object = id → thread = other
  inFlight : ∀ entry, world.registry.findEntryLocked id = some entry → entry.hooksInFlight ≤ 1
  executing : ∀ site other, world.ExecutesAt views id site → world.ExecutesAt views id other →
    site = other

omit [Infra] in
theorem Apart.exclusive {world : AppWorld} {views : Nat → Role} (hapart : Apart world views)
    (id : ObjectId) : HooksExclusive world views id := by
  -- A task that executes is in flight, and a call that executes saw none.
  have hapartFrom : ∀ {index thread : Nat}, world.ExecutesAt views id (.task index) →
      ¬world.ExecutesAt views id (.caller thread) := by
    rintro index thread ⟨hook, hfind⟩ ⟨op, own, hop, rfl, hruns, hcounts⟩
    have hpos : 0 < world.liveHooks op.object := AppWorld.liveHooks_pos hfind rfl
    rw [(hapart.quiet thread op hop).hook own hruns hcounts] at hpos
    exact Nat.lt_irrefl _ hpos
  refine ⟨?_, ?_, ?_⟩
  · intro thread other op op' hop hop' hobject hobject'
    exact hapart.alone thread other op op' hop hop' (hobject.trans hobject'.symm)
  · intro entry hfind
    rw [hapart.counted.count id entry hfind]
    exact hapart.single id
  · intro site other hsite hother
    cases site with
    | task index =>
        cases other with
        | task second =>
            obtain ⟨hook, hfind⟩ := hsite
            obtain ⟨hook', hfind'⟩ := hother
            exact congrArg HookSite.task (index_eq_of_countP (hapart.single id) hfind hfind'
              (decide_eq_true ⟨rfl, rfl⟩) (decide_eq_true ⟨rfl, rfl⟩))
        | caller thread => exact absurd hother (hapartFrom hsite)
    | caller thread =>
        cases other with
        | task index => exact absurd hsite (hapartFrom hother)
        | caller second =>
            obtain ⟨op, hook, hop, hobject, -, -⟩ := hsite
            obtain ⟨op', hook', hop', hobject', -, -⟩ := hother
            exact congrArg HookSite.caller (hapart.alone thread second op op' hop hop'
              (hobject.trans hobject'.symm))

/-- In a run in which operations take up objects one at a time, the hooks of an object are
mutually exclusive. -/
theorem hooks_exclusive {pool : AppPool Role}
    (hreach : knowingSystem.machine.ReachableWhere OneAtATime pool) (id : ObjectId) :
    HooksExclusive pool.shared pool.views id :=
  (apart_of_reachable hreach).exclusive id

end

/-- A service is installed as far as the steps go; an uninstall takes it up, and its `OnStop`
begins. -/
def uninstallAfter (steps : Nat) : List AppStep :=
  [.spawn (.coInstallService (.ok ()) "s" [] [])] ++ List.replicate steps (smoothStep 0) ++
    [.spawn (.coUninstallService "s")] ++ List.replicate 5 (smoothStep 1) ++
    [.step 1 (.submission .accepted), .env (.beginHook 0)]

/-- The installation has returned when the uninstall begins. -/
theorem hooks_exclusive_uninstalled :
    letI := permissiveInfra
    ∃ pool, knowingSystem.machine.ReachableWhere OneAtATime pool ∧
      pool.shared.tasks[0]? = some ⟨⟨.service, 1⟩, .onStop, .executing⟩ ∧
      HooksExclusive pool.shared pool.views ⟨.service, 1⟩ := by
  let _ := permissiveInfra
  have hboot : knowingSystem.machine.ReachableWhere OneAtATime
      (knowingSystem.boot (AppWorld.fresh (.ok ()) 10 10)) :=
    .start ⟨_, start_fresh 10 10 (by decide), rfl⟩
  obtain ⟨pool, hreach, htest⟩ := hboot.exec_any
    (fun pool label => decide (OneAtATime pool label)) (fun _ _ => of_decide_eq_true)
    (uninstallAfter 8)
    (fun pool => pool.shared.tasks[0]? = some ⟨⟨.service, 1⟩, .onStop, .executing⟩)
    (by decide)
  exact ⟨pool, hreach, of_decide_eq_true htest, hooks_exclusive hreach _⟩

/-- `OnInstall` of the service is still being executed when the uninstall begins. -/
theorem hooks_not_exclusive :
    letI := permissiveInfra
    ¬∀ pool, knowingSystem.machine.Reachable pool →
      ∀ id, HooksExclusive pool.shared pool.views id := by
  let _ := permissiveInfra
  intro hexclusive
  have hboot : knowingSystem.machine.Reachable
      (knowingSystem.boot (AppWorld.fresh (.ok ()) 10 10)) :=
    .start ⟨_, start_fresh 10 10 (by decide), rfl⟩
  obtain ⟨pool, hreach, htest⟩ := hboot.exec_any (fun _ _ => true) (fun _ _ _ => trivial)
    (uninstallAfter 5)
    (fun pool => pool.shared.tasks[0]? = some ⟨⟨.service, 1⟩, .onStop, .executing⟩ ∧
      (pool.views 0).operation = some { Operation.install ⟨.service, 1⟩ with
        hook := some .onInstall })
    (by decide)
  obtain ⟨hstop, hinstall⟩ := of_decide_eq_true htest
  have hsame := (hexclusive pool hreach ⟨.service, 1⟩).executing (.task 0) (.caller 0)
    ⟨_, hstop⟩ ⟨_, .onInstall, hinstall, rfl, rfl, by decide⟩
  cases hsame

end BbtFramework.App
