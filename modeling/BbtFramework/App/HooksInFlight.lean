import BbtFramework.App.Aging

/-!
# Hooks in flight

`hooks_in_flight` of an entry counts its hook tasks from the critical section that counts
the hook to the one that notes its end, and no call but the one that counts a hook raises
it.
-/

namespace BbtFramework.App

open BbtFramework.Library

/-- Of two places that satisfy a test there is one, when at most one is counted. -/
theorem index_eq_of_countP {Value : Type} {test : Value → Bool} {values : List Value}
    (hcount : values.countP test ≤ 1) {first second : Nat} {one other : Value}
    (hfirst : values[first]? = some one) (hsecond : values[second]? = some other)
    (hone : test one = true) (hother : test other = true) : first = second := by
  induction values generalizing first second with
  | nil => cases hfirst
  | cons value rest ih =>
      rw [List.countP_cons] at hcount
      have hrest : ∀ {index : Nat} {found : Value}, rest[index]? = some found →
          test found = true → 0 < rest.countP test :=
        fun hfind htest => List.countP_pos_iff.mpr ⟨_, List.mem_of_getElem? hfind, htest⟩
      cases first with
      | zero =>
          obtain rfl := Option.some.inj hfirst
          rw [if_pos hone] at hcount
          cases second with
          | zero => rfl
          | succ second =>
              have hmore := hrest hsecond hother
              omega
      | succ first =>
          cases second with
          | zero =>
              obtain rfl := Option.some.inj hsecond
              rw [if_pos hother] at hcount
              have hmore := hrest hfirst hone
              omega
          | succ second => exact congrArg Nat.succ (ih (by omega) hfirst hsecond)

/-- The task is counted in `hooks_in_flight`. -/
def TaskPhase.live : TaskPhase → Bool
  | .taken | .submitted | .rejected | .executing | .ended _ => true
  | _ => false

def HookTask.liveOn (id : ObjectId) (task : HookTask) : Bool :=
  task.object = id ∧ task.phase.live

def AppWorld.liveHooks (world : AppWorld) (id : ObjectId) : Nat :=
  world.tasks.countP (HookTask.liveOn id)

structure AppWorld.Counted (world : AppWorld) : Prop where
  count : ∀ id entry, world.registry.findEntryLocked id = some entry →
    entry.hooksInFlight = world.liveHooks id
  old : ∀ task ∈ world.tasks, task.object.number < world.registry.nextIdSeq

structure Registry.CountsKept (before after : Registry) : Prop where
  ids : before.nextIdSeq ≤ after.nextIdSeq
  entries : ∀ id later, after.findEntryLocked id = some later →
    (∃ earlier, before.findEntryLocked id = some earlier ∧
      later.hooksInFlight = earlier.hooksInFlight) ∨
    (later.hooksInFlight = 0 ∧ before.nextIdSeq ≤ id.number)

inductive TaskStep (asked : Option Action) (world last : AppWorld) : Prop where
  | still (htasks : last.tasks = world.tasks)
      (hcounts : world.registry.CountsKept last.registry)
  | moved (index : Nat) (found : HookTask) (phase : TaskPhase)
      (hfind : world.tasks[index]? = some found) (hlive : phase.live = found.phase.live)
      (htasks : last.tasks = world.tasks.set index { found with phase := phase })
      (hregistry : last.registry = world.registry)
  | noted (index : Nat) (found : HookTask) (phase : TaskPhase)
      (hfind : world.tasks[index]? = some found) (hlive : found.phase.live = true)
      (hphase : phase.live = false)
      (htasks : last.tasks = world.tasks.set index { found with phase := phase })
      (hregistry : last.registry = (world.registry.noteHookSettled found.object).2)
  | taken (id : ObjectId) (hook : Hook) (entry : RegistryEntry)
      (hasked : asked = some (.command (.takeHook id hook)))
      (hfind : world.registry.findEntryLocked id = some entry)
      (htasks : last.tasks = world.tasks ++ [⟨id, hook, .taken⟩])
      (hregistry : last.registry = world.registry.modify id (fun entry =>
        { entry with hooksInFlight := entry.hooksInFlight + 1 }))

namespace Registry

variable {before after : Registry}

theorem CountsKept.of_agree (hids : before.nextIdSeq ≤ after.nextIdSeq)
    (hagree : Agree RegistryEntry.hooksInFlight before after) : before.CountsKept after := by
  refine ⟨hids, fun id later hfind => Or.inl ?_⟩
  obtain ⟨earlier, hearlier, hsame⟩ := hagree.find_some hfind
  exact ⟨earlier, hearlier, hsame.symm⟩

theorem CountsKept.refl (registry : Registry) : registry.CountsKept registry :=
  .of_agree (Nat.le_refl _) (.refl registry)

end Registry

namespace AppWorld

variable {world last : AppWorld}

/-- A counted task is one of those its object counts. -/
theorem liveHooks_pos {index : Nat} {task : HookTask}
    (hfind : world.tasks[index]? = some task) (hlive : task.phase.live = true) :
    0 < world.liveHooks task.object :=
  List.countP_pos_iff.mpr ⟨task, List.mem_of_getElem? hfind, decide_eq_true ⟨rfl, hlive⟩⟩

theorem liveHooks_set {index : Nat} {found : HookTask} {phase : TaskPhase}
    (hfind : world.tasks[index]? = some found)
    (htasks : last.tasks = world.tasks.set index { found with phase := phase })
    (id : ObjectId) :
    last.liveHooks id =
      world.liveHooks id - (if found.liveOn id then 1 else 0) +
        if HookTask.liveOn id { found with phase := phase } then 1 else 0 := by
  obtain ⟨hlt, hget⟩ := List.getElem?_eq_some_iff.mp hfind
  rw [liveHooks, htasks, List.countP_set hlt, hget]
  rfl

theorem liveHooks_moved {index : Nat} {found : HookTask} {phase : TaskPhase}
    (hfind : world.tasks[index]? = some found) (hlive : phase.live = found.phase.live)
    (htasks : last.tasks = world.tasks.set index { found with phase := phase })
    (id : ObjectId) : last.liveHooks id = world.liveHooks id := by
  have hsame : HookTask.liveOn id { found with phase := phase } = found.liveOn id := by
    rw [HookTask.liveOn, HookTask.liveOn, hlive]
  rw [liveHooks_set hfind htasks, hsame]
  split
  case isTrue hon =>
    have hpos : 0 < world.liveHooks id :=
      List.countP_pos_iff.mpr ⟨found, List.mem_of_getElem? hfind, hon⟩
    omega
  case isFalse => rfl

/-- The end of a task that was counted. -/
theorem liveHooks_noted {index : Nat} {found : HookTask} {phase : TaskPhase}
    (hfind : world.tasks[index]? = some found) (hlive : found.phase.live = true)
    (hphase : phase.live = false)
    (htasks : last.tasks = world.tasks.set index { found with phase := phase })
    (id : ObjectId) :
    last.liveHooks id = world.liveHooks id - if id = found.object then 1 else 0 := by
  have hoff : HookTask.liveOn id { found with phase := phase } = false := by
    rw [HookTask.liveOn, hphase]
    exact decide_eq_false (fun hboth => Bool.false_ne_true hboth.2)
  rw [liveHooks_set hfind htasks, hoff]
  by_cases hsame : id = found.object
  · have hon : found.liveOn id = true := decide_eq_true ⟨hsame.symm, hlive⟩
    rw [if_pos hon, if_pos hsame]
    rfl
  · have hon : found.liveOn id = false := decide_eq_false (fun hboth => hsame hboth.1.symm)
    rw [hon, if_neg hsame]
    rfl

theorem liveHooks_taken {id other : ObjectId} {hook : Hook}
    (htasks : last.tasks = world.tasks ++ [⟨id, hook, .taken⟩]) :
    last.liveHooks other = world.liveHooks other + if other = id then 1 else 0 := by
  rw [liveHooks, htasks, List.countP_append, List.countP_singleton]
  by_cases hsame : other = id
  · have hon : HookTask.liveOn other ⟨id, hook, .taken⟩ = true :=
      decide_eq_true ⟨hsame.symm, rfl⟩
    rw [hon, if_pos hsame]
    rfl
  · have hon : HookTask.liveOn other ⟨id, hook, .taken⟩ = false :=
      decide_eq_false (fun hboth => hsame hboth.1.symm)
    rw [hon, if_neg hsame]
    rfl

end AppWorld

namespace TaskStep

variable {asked : Option Action} {world last : AppWorld}

theorem ids (hstep : TaskStep asked world last) :
    world.registry.nextIdSeq ≤ last.registry.nextIdSeq := by
  cases hstep with
  | still _ hcounts => exact hcounts.ids
  | moved _ _ _ _ _ _ hregistry =>
      rw [hregistry]
  | noted _ _ _ _ _ _ _ hregistry =>
      rw [hregistry]
      exact Nat.le_refl _
  | taken _ _ _ _ _ _ hregistry =>
      rw [hregistry]
      exact Nat.le_refl _

/-- Only the action that counts a hook raises the number of hooks of its object. -/
theorem liveHooks (hstep : TaskStep asked world last) (id : ObjectId) :
    last.liveHooks id ≤ world.liveHooks id ∨
      (last.liveHooks id = world.liveHooks id + 1 ∧
        (world.registry.findEntryLocked id).isSome = true ∧
        ∃ hook, asked = some (.command (.takeHook id hook))) := by
  cases hstep with
  | still htasks _ =>
      rw [AppWorld.liveHooks, htasks]
      exact Or.inl (Nat.le_refl _)
  | moved index found phase hfind hlive htasks _ =>
      exact Or.inl (Nat.le_of_eq (AppWorld.liveHooks_moved hfind hlive htasks id))
  | noted index found phase hfind hlive hphase htasks _ =>
      rw [AppWorld.liveHooks_noted hfind hlive hphase htasks]
      exact Or.inl (Nat.sub_le _ _)
  | taken other hook entry hasked hfind htasks _ =>
      rw [AppWorld.liveHooks_taken htasks]
      by_cases hsame : id = other
      · subst hsame
        rw [if_pos rfl]
        exact Or.inr ⟨rfl, Option.isSome_of_eq_some hfind, hook, hasked⟩
      · rw [if_neg hsame]
        exact Or.inl (Nat.le_refl _)

/-- A task was there for its hook before, or it has just been counted. -/
theorem mem (hstep : TaskStep asked world last) {task : HookTask} (hmem : task ∈ last.tasks) :
    (∃ earlier ∈ world.tasks, earlier.object = task.object ∧ earlier.hook = task.hook) ∨
      asked = some (.command (.takeHook task.object task.hook)) := by
  have hset : ∀ {index : Nat} {found : HookTask} {phase : TaskPhase},
      world.tasks[index]? = some found →
      last.tasks = world.tasks.set index { found with phase := phase } →
      ∃ earlier ∈ world.tasks, earlier.object = task.object ∧ earlier.hook = task.hook := by
    intro index found phase hfind htasks
    rw [htasks] at hmem
    obtain hold | rfl := List.mem_or_eq_of_mem_set hmem
    · exact ⟨task, hold, rfl, rfl⟩
    · exact ⟨found, List.mem_of_getElem? hfind, rfl, rfl⟩
  cases hstep with
  | still htasks _ => exact Or.inl ⟨task, htasks ▸ hmem, rfl, rfl⟩
  | moved _ _ _ hfind _ htasks _ => exact Or.inl (hset hfind htasks)
  | noted _ _ _ hfind _ _ htasks _ => exact Or.inl (hset hfind htasks)
  | taken id hook _ hasked _ htasks _ =>
      rw [htasks] at hmem
      obtain hold | hnew := List.mem_append.mp hmem
      · exact Or.inl ⟨task, hold, rfl, rfl⟩
      · obtain rfl := List.mem_singleton.mp hnew
        exact Or.inr hasked

theorem counted (hstep : TaskStep asked world last) (hcounted : world.Counted) :
    last.Counted := by
  have hids := hstep.ids
  have hold : ∀ task ∈ world.tasks, task.object.number < last.registry.nextIdSeq :=
    fun task hmem => Nat.lt_of_lt_of_le (hcounted.old task hmem) hids
  have hset : ∀ {index : Nat} {found : HookTask} {phase : TaskPhase},
      world.tasks[index]? = some found →
      last.tasks = world.tasks.set index { found with phase := phase } →
      ∀ task ∈ last.tasks, task.object.number < last.registry.nextIdSeq := by
    intro index found phase hfind htasks task hmem
    rw [htasks] at hmem
    rcases List.mem_or_eq_of_mem_set hmem with hmem | rfl
    · exact hold task hmem
    · exact hold found (List.mem_of_getElem? hfind)
  cases hstep with
  | still htasks hcounts =>
      refine ⟨?_, fun task hmem => hold task (htasks ▸ hmem)⟩
      intro id entry hentry
      rw [AppWorld.liveHooks, htasks]
      obtain ⟨earlier, hearlier, hsame⟩ | ⟨hzero, hnew⟩ := hcounts.entries id entry hentry
      · exact hsame.trans (hcounted.count id earlier hearlier)
      · refine hzero.trans (List.countP_eq_zero.mpr ?_).symm
        intro task hmem hon
        have hobject : task.object = id := (of_decide_eq_true hon).1
        have hlt := hcounted.old task hmem
        rw [hobject] at hlt
        exact Nat.not_lt.mpr hnew hlt
  | moved index found phase hfind hlive htasks hregistry =>
      refine ⟨?_, hset hfind htasks⟩
      intro id entry hentry
      rw [hregistry] at hentry
      rw [AppWorld.liveHooks_moved hfind hlive htasks]
      exact hcounted.count id entry hentry
  | noted index found phase hfind hlive hphase htasks hregistry =>
      refine ⟨?_, hset hfind htasks⟩
      intro id entry hentry
      rw [hregistry, Registry.noteHookSettled, Registry.findEntryLocked_modify] at hentry
      rw [AppWorld.liveHooks_noted hfind hlive hphase htasks]
      split at hentry
      case isTrue hsame =>
        obtain ⟨earlier, hearlier, rfl⟩ := Option.map_eq_some_iff.mp hentry
        rw [if_pos hsame, hsame, ← hcounted.count _ earlier hearlier]
      case isFalse hother =>
        rw [if_neg hother]
        exact hcounted.count id entry hentry
  | taken other hook earlier hasked hfind htasks hregistry =>
      constructor
      · intro id entry hentry
        rw [hregistry, Registry.findEntryLocked_modify] at hentry
        rw [AppWorld.liveHooks_taken htasks]
        split at hentry
        case isTrue hsame =>
          obtain ⟨known, hknown, rfl⟩ := Option.map_eq_some_iff.mp hentry
          rw [if_pos hsame, hsame, ← hcounted.count _ known hknown]
        case isFalse hother =>
          rw [if_neg hother]
          exact hcounted.count id entry hentry
      · intro task hmem
        rw [htasks] at hmem
        rcases List.mem_append.mp hmem with hmem | hmem
        · exact hold task hmem
        · rw [List.mem_singleton.mp hmem]
          exact Nat.lt_of_lt_of_le (Registry.number_lt_of_find hfind) hids

end TaskStep

theorem Registry.hooksSettled_iff {registry : Registry} {id : ObjectId} :
    registry.hooksSettled id = true ↔
      ∀ entry, registry.findEntryLocked id = some entry → entry.hooksInFlight = 0 := by
  unfold hooksSettled
  cases registry.findEntryLocked id with
  | none => simp
  | some entry => simp

theorem AppWorld.Counted.liveHooks {world : AppWorld} (hcounted : world.Counted)
    {id : ObjectId} (hsettled : world.registry.hooksSettled id = true)
    (hfound : (world.registry.findEntryLocked id).isSome = true) : world.liveHooks id = 0 := by
  obtain ⟨entry, hfind⟩ := Option.isSome_iff_exists.mp hfound
  rw [← hcounted.count id entry hfind]
  exact Registry.hooksSettled_iff.mp hsettled entry hfind

/-- An object without a hook in flight stays so, unless the step counts one for it. -/
theorem TaskStep.settled {asked : Option Action} {world last : AppWorld}
    (hstep : TaskStep asked world last) {id : ObjectId}
    (hother : ∀ hook, asked ≠ some (.command (.takeHook id hook)))
    (hsettled : world.registry.hooksSettled id = true) :
    last.registry.hooksSettled id = true := by
  rw [Registry.hooksSettled_iff] at hsettled ⊢
  intro entry hfind
  cases hstep with
  | still _ hcounts =>
      obtain ⟨earlier, hearlier, hsame⟩ | ⟨hzero, -⟩ := hcounts.entries id entry hfind
      · exact hsame.trans (hsettled earlier hearlier)
      · exact hzero
  | moved _ _ _ _ _ _ hregistry =>
      rw [hregistry] at hfind
      exact hsettled entry hfind
  | noted _ found _ _ _ _ _ hregistry =>
      rw [hregistry, Registry.noteHookSettled, Registry.findEntryLocked_modify] at hfind
      split at hfind
      case isTrue hsame =>
        obtain ⟨earlier, hearlier, rfl⟩ := Option.map_eq_some_iff.mp hfind
        have hzero := hsettled earlier (hsame ▸ hearlier)
        dsimp only
        rw [hzero]
      case isFalse => exact hsettled entry hfind
  | taken other hook _ hasked _ _ hregistry =>
      rw [hregistry, Registry.findEntryLocked_modify] at hfind
      split at hfind
      case isTrue hsame => exact absurd (hsame ▸ hasked) (hother hook)
      case isFalse => exact hsettled entry hfind

namespace AppWorld

variable {world last : AppWorld}

theorem Created.countsKept {kind : ObjectKind} (hcreated : world.Created kind last) :
    world.registry.CountsKept last.registry ∧ last.tasks = world.tasks := by
  obtain ⟨typeName, name, scope, ownerId, object, rfl⟩ := hcreated
  refine ⟨⟨Nat.le_succ _, ?_⟩, rfl⟩
  intro id later hfind
  rw [Registry.findEntryLocked_append] at hfind
  split at hfind
  case isTrue hnew =>
    cases hfind
    exact Or.inr ⟨rfl, Nat.le_of_eq (congrArg ObjectId.number hnew).symm⟩
  case isFalse => exact Or.inl ⟨later, hfind, rfl⟩

variable [Infra]

theorem apply_taskStep {command : Command} {choice : Choice} {answer : command.Answer}
    (happly : world.apply command choice = some (answer, last)) :
    TaskStep (some (.command command)) world last := by
  have hframed := apply_framed happly
  have hagree : command.writesTasks = false → command.Keeps RegistryEntry.hooksInFlight →
      TaskStep (some (.command command)) world last := fun hwrites hkeeps =>
    .still (hframed.tasks hwrites) (.of_agree hframed.ids (hframed.agree hkeeps))
  by_cases hgrows : command.grows = true
  · obtain rfl | ⟨kind, hcreated⟩ | ⟨subject, key, id, component, edge, change, rfl, -, -⟩ :=
      apply_grows hgrows happly
    · exact .still rfl (.refl _)
    · exact .still hcreated.countsKept.2 hcreated.countsKept.1
    · exact hagree rfl (by simp [Command.Keeps])
  cases command with
  | createComponent key => exact absurd rfl hgrows
  | createService name allowed => exact absurd rfl hgrows
  | createActorType type => exact absurd rfl hgrows
  | finishDestroy id =>
      refine .still (hframed.tasks rfl) ⟨hframed.ids, ?_⟩
      cases happly
      intro other later hfind
      have hfind : (world.registry.remove id).findEntryLocked other = some later := hfind
      rw [Registry.findEntryLocked_remove] at hfind
      split at hfind
      case isTrue => cases hfind
      case isFalse => exact Or.inl ⟨later, hfind, rfl⟩
  | takeHook id hook =>
      replace happly := Option.some.inj happly
      unfold takeHook at happly
      cases hfind : world.registry.findEntryLocked id with
      | none =>
          rw [hfind] at happly
          cases happly
          exact .still rfl (.refl _)
      | some entry =>
          rw [hfind] at happly
          cases happly
          exact .taken id hook entry rfl hfind rfl rfl
  | submitHook task =>
      simp only [apply, submitHook] at happly
      split at happly
      · split at happly
        case h_1 object hook hfind =>
          cases happly
          refine .moved task _ _ hfind ?_ rfl rfl
          split
          · rfl
          · rfl
        · cases happly
      · cases happly
  | noteRejected task =>
      simp only [apply] at happly
      split at happly
      case h_1 object hook hfind =>
        cases happly
        exact .noted task _ _ hfind rfl rfl rfl rfl
      · cases happly
  | _ => exact hagree rfl (by simp [Command.Keeps])

theorem event_taskStep {event : Event} {asked : Option Action}
    (hevent : world.event event = some last) : TaskStep asked world last := by
  cases event with
  | borrow object generation allow =>
      simp only [AppWorld.event] at hevent
      split at hevent
      · cases hevent
        exact .still rfl (.refl _)
      case h_2 lease registry hborrow =>
        cases hevent
        obtain ⟨entry, edge, -, -, -, -, -, -, -, -, rfl⟩ := Registry.borrowImpl_ok hborrow
        exact .still rfl (.of_agree (Nat.le_refl _) (Registry.agree_modify (fun _ _ => rfl)))
  | release lease =>
      simp only [AppWorld.event] at hevent
      split at hevent
      · cases hevent
        exact .still rfl (.of_agree (Nat.le_refl _) (Registry.agree_modify (fun _ _ => rfl)))
      · cases hevent
  | beginHook index =>
      simp only [AppWorld.event] at hevent
      split at hevent
      case h_1 object hook hfind =>
        cases hevent
        exact .moved index _ .executing hfind rfl rfl rfl
      · cases hevent
  | endHook index outcome =>
      simp only [AppWorld.event] at hevent
      split at hevent
      case h_1 object hook hfind =>
        cases hevent
        exact .moved index _ (.ended (runHookCaught outcome)) hfind rfl rfl rfl
      · cases hevent
  | settleHook index =>
      simp only [AppWorld.event] at hevent
      split at hevent
      case h_1 object hook result hfind =>
        cases hevent
        exact .moved index _ (.settled result) hfind rfl rfl rfl
      · cases hevent
  | noteHook index =>
      simp only [AppWorld.event] at hevent
      split at hevent
      case h_1 object hook result hfind =>
        cases hevent
        exact .noted index _ _ hfind rfl rfl rfl rfl
      · cases hevent
  | notifyHook index =>
      simp only [AppWorld.event] at hevent
      split at hevent
      case h_1 object hook notify result hfind =>
        cases hevent
        refine .moved index _ (.notified result) hfind rfl ?_ ?_
        · cases notify
          · rfl
          · rfl
        · cases notify
          · rfl
          · rfl
      · cases hevent

theorem perform_taskStep {act : Action} {choice : Choice} {answer : act.Answer}
    (hperform : world.perform act choice = some (answer, last)) :
    TaskStep (some act) world last := by
  cases act with
  | query query =>
      obtain ⟨-, rfl⟩ := perform_query hperform
      exact .still rfl (.refl _)
  | command command => exact apply_taskStep (perform_command hperform)

end AppWorld

end BbtFramework.App
