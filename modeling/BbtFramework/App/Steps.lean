import BbtFramework.App.Effects

/-!
# What the actions leave alone

The frame lemmas of the actions, and of what goes on beside the calls.
-/

namespace BbtFramework.App

open BbtFramework.Library

/-- Every entry looks the same through `field`. -/
def Registry.Agree {α : Type} (field : RegistryEntry → α) (before after : Registry) :
    Prop :=
  ∀ id, (after.findEntryLocked id).map field = (before.findEntryLocked id).map field

namespace Registry

variable {α : Type} {field : RegistryEntry → α} {before middle after : Registry}

theorem Agree.refl (registry : Registry) : Agree field registry registry :=
  fun _ => rfl

theorem Agree.trans (hfirst : Agree field before middle)
    (hsecond : Agree field middle after) : Agree field before after :=
  fun id => (hsecond id).trans (hfirst id)

theorem agree_modifyAll {change : ObjectId → RegistryEntry → RegistryEntry}
    (hchange : ∀ id entry, before.findEntryLocked id = some entry →
      field (change id entry) = field entry) :
    Agree field before (before.modifyAll change) := by
  intro id
  rw [findEntryLocked_modifyAll, Option.map_map]
  apply Option.map_congr
  intro entry hfind
  exact hchange id entry hfind

theorem agree_modify {id : ObjectId} {change : RegistryEntry → RegistryEntry}
    (hchange : ∀ entry, before.findEntryLocked id = some entry →
      field (change entry) = field entry) :
    Agree field before (before.modify id change) := by
  apply agree_modifyAll
  intro other entry hfind
  split
  case isTrue heq => exact hchange entry (heq ▸ hfind)
  case isFalse => rfl

/-- What looks the same looks the same in every respect. -/
theorem Agree.comp {β : Type} (hagree : Agree field before after) (aspect : α → β) :
    Agree (fun entry => aspect (field entry)) before after := by
  intro id
  have hmap := congrArg (Option.map aspect) (hagree id)
  rw [Option.map_map, Option.map_map] at hmap
  exact hmap

theorem agree_bump (registry : Registry) :
    Agree field registry registry.bumpGeneration :=
  fun _ => rfl

/-- An entry after the change was there before and looks the same. -/
theorem Agree.find_some (hagree : Agree field before after) {id : ObjectId}
    {entry : RegistryEntry} (hfind : after.findEntryLocked id = some entry) :
    ∃ old, before.findEntryLocked id = some old ∧ field old = field entry := by
  have hmap := hagree id
  rw [hfind] at hmap
  exact Option.map_eq_some_iff.mp hmap.symm

/-- An entry before the change is there afterwards and looks the same. -/
theorem Agree.find_some' (hagree : Agree field before after) {id : ObjectId}
    {entry : RegistryEntry} (hfind : before.findEntryLocked id = some entry) :
    ∃ new, after.findEntryLocked id = some new ∧ field new = field entry := by
  have hmap := hagree id
  rw [hfind] at hmap
  exact Option.map_eq_some_iff.mp hmap

end Registry

/-- The parts of an entry a command may write are invisible to `field`. -/
def Command.Keeps {α : Type} (field : RegistryEntry → α) : Command → Prop
  | .createComponent _ | .createService _ _ | .createActorType _
  | .finishDestroy _ => False
  | .setState _ _ => ∀ entry state, field { entry with state := state } = field entry
  | .takeHook _ _ | .noteRejected _ =>
      ∀ entry count, field { entry with hooksInFlight := count } = field entry
  | .beginStopComponent _ | .beginUninstallComponent _ | .beginUninstallService _
  | .beginUninstallActorType _ | .abortDestroy _ _ _ =>
      ∀ entry gate busy phase state, field { entry with
        gateClosed := gate, opInProgress := busy
        destroyPhase := phase, state := state } = field entry
  | .beginStopService _ =>
      ∀ entry gate busy phase state bindings, field { entry with
        gateClosed := gate, opInProgress := busy
        destroyPhase := phase, state := state, bindings := bindings } = field entry
  | .sealSubjectEdges _ | .eraseSubjectEdges _ | .eraseSubjectEdgesOn _ _
  | .bindComponent _ _ | .beginUnbind _ _ | .finishUnbind _ _ _ _ _ =>
      ∀ entry bindings object, field { entry with
        bindings := bindings, object := object } = field entry
  | .recordBinding _ _ _ _ _ =>
      ∀ entry object, field { entry with object := object } = field entry
  | _ => True

def Command.writesTasks : Command → Bool
  | .takeHook _ _ | .submitHook _ | .noteRejected _ => true
  | _ => false

def Command.writesState : Command → Bool
  | .storeState _ => true
  | _ => false

/-- The commands that write `m_lifecycle_active`. -/
def Command.writesLifecycle : Command → Bool
  | .exchangeLifecycle | .releaseLifecycle => true
  | _ => false

/-- What a command leaves alone. -/
structure Framed (command : Command) (world last : AppWorld) : Prop where
  leases : last.leases = world.leases
  tasks : command.writesTasks = false → last.tasks = world.tasks
  lifecycle : command.writesLifecycle = false →
    last.lifecycleActive = world.lifecycleActive
  state : command.writesState = false → last.state = world.state
  ids : world.registry.nextIdSeq ≤ last.registry.nextIdSeq
  generations : world.registry.nextGeneration ≤ last.registry.nextGeneration
  agree : ∀ {α : Type} {field : RegistryEntry → α}, command.Keeps field →
    Registry.Agree field world.registry last.registry

namespace AppWorld

variable [Infra] {world last : AppWorld}

omit [Infra] in
theorem Framed.same (command : Command) (world : AppWorld) :
    Framed command world world :=
  ⟨rfl, fun _ => rfl, fun _ => rfl, fun _ => rfl, Nat.le_refl _, Nat.le_refl _,
    fun _ => Registry.Agree.refl _⟩

omit [Infra] in
theorem Framed.modifyAll {command : Command} {world : AppWorld}
    {change : ObjectId → RegistryEntry → RegistryEntry}
    (hchange : ∀ {α : Type} {field : RegistryEntry → α}, command.Keeps field →
      ∀ id entry, world.registry.findEntryLocked id = some entry →
        field (change id entry) = field entry) :
    Framed command world
      { world with registry := world.registry.modifyAll change } :=
  ⟨rfl, fun _ => rfl, fun _ => rfl, fun _ => rfl, Nat.le_refl _, Nat.le_refl _,
    fun hkeeps => Registry.agree_modifyAll (hchange hkeeps)⟩

omit [Infra] in
theorem Framed.modify {command : Command} {world : AppWorld} {id : ObjectId}
    {change : RegistryEntry → RegistryEntry}
    (hchange : ∀ {α : Type} {field : RegistryEntry → α}, command.Keeps field →
      ∀ entry, world.registry.findEntryLocked id = some entry →
        field (change entry) = field entry) :
    Framed command world
      { world with registry := world.registry.modify id change } :=
  ⟨rfl, fun _ => rfl, fun _ => rfl, fun _ => rfl, Nat.le_refl _, Nat.le_refl _,
    fun hkeeps => Registry.agree_modify (hchange hkeeps)⟩

omit [Infra] in
theorem Framed.created {command : Command} {world : AppWorld} {kind : ObjectKind}
    {last : AppWorld} (hcreated : world.Created kind last)
    (hkeeps : ∀ {α : Type} {field : RegistryEntry → α}, ¬command.Keeps field) :
    Framed command world last := by
  obtain ⟨typeName, name, scope, ownerId, object, rfl⟩ := hcreated
  exact ⟨rfl, fun _ => rfl, fun _ => rfl, fun _ => rfl, Nat.le_succ _, Nat.le_succ _,
    fun h => absurd h hkeeps⟩

omit [Infra] in
theorem Framed.setWaiter (command : Command) (world : AppWorld) (id : ObjectId)
    (change : SettleWaiter → SettleWaiter) :
    Framed command world (world.setWaiter id change) :=
  ⟨rfl, fun _ => rfl, fun _ => rfl, fun _ => rfl, Nat.le_refl _, Nat.le_refl _,
    fun _ => Registry.Agree.refl _⟩

omit [Infra] in
/-- Another change of a subject's table is a frame too. -/
theorem Framed.changeSubject {command : Command} {middle : AppWorld}
    (hframed : Framed command world middle) (subject : ObjectId)
    (change : ObjectBase → ObjectBase)
    (hobject : ∀ {α : Type} {field : RegistryEntry → α}, command.Keeps field →
      ∀ entry object, field { entry with object := object } = field entry) :
    Framed command world (middle.changeSubject subject change) := by
  obtain heq | ⟨heq, -⟩ | ⟨heq, -⟩ := middle.changeSubject_cases subject change
  · rw [heq]
    exact hframed
  · rw [heq]
    exact ⟨hframed.leases, hframed.tasks, hframed.lifecycle, hframed.state, hframed.ids,
      hframed.generations, hframed.agree⟩
  · rw [heq]
    exact ⟨hframed.leases, hframed.tasks, hframed.lifecycle, hframed.state, hframed.ids,
      hframed.generations, fun hkeeps => (hframed.agree hkeeps).trans
        (Registry.agree_modify (fun entry _ => hobject hkeeps entry _))⟩

omit [Infra] in
theorem Framed.takesDown {command : Command} {kind : ObjectKind} {phase : String}
    {result : Except Error ObjectId × AppWorld}
    (hresult : world.TakesDown kind phase result)
    (hkeeps : ∀ {α : Type} {field : RegistryEntry → α}, command.Keeps field →
      ∀ entry gate busy phase state, field { entry with
        gateClosed := gate, opInProgress := busy
        destroyPhase := phase, state := state } = field entry) :
    Framed command world result.2 := by
  obtain ⟨error, rfl⟩ | ⟨id, entry, -, hfind, -, -, rfl⟩ := hresult
  · exact Framed.same command world
  · apply Framed.modify
    intro α field hfield old hold
    obtain rfl := Option.some.inj (hfind.symm.trans hold)
    exact hkeeps hfield _ _ _ _ _

/-- The frame of every writing action. -/
theorem apply_framed {command : Command} {choice : Choice} {answer : command.Answer}
    (happly : world.apply command choice = some (answer, last)) :
    Framed command world last := by
  cases command with
  | storeState state =>
      cases happly
      exact ⟨rfl, fun _ => rfl, fun _ => rfl, nofun, Nat.le_refl _, Nat.le_refl _,
        fun _ => Registry.Agree.refl _⟩
  | exchangeLifecycle =>
      cases happly
      exact ⟨rfl, fun _ => rfl, nofun, fun _ => rfl, Nat.le_refl _, Nat.le_refl _,
        fun _ => Registry.Agree.refl _⟩
  | releaseLifecycle =>
      cases happly
      exact ⟨rfl, fun _ => rfl, nofun, fun _ => rfl, Nat.le_refl _, Nat.le_refl _,
        fun _ => Registry.Agree.refl _⟩
  | createComponent key =>
      replace happly := Option.some.inj happly
      obtain ⟨error, heq⟩ | ⟨made, heq, hcreated⟩ := world.createComponent_cases key
      · cases heq.symm.trans happly
        exact Framed.same _ world
      · cases heq.symm.trans happly
        exact Framed.created hcreated nofun
  | createService name allowed =>
      replace happly := Option.some.inj happly
      obtain ⟨error, heq⟩ | ⟨made, heq, hcreated⟩ :=
        world.createService_cases name allowed
      · cases heq.symm.trans happly
        exact Framed.same _ world
      · cases heq.symm.trans happly
        exact Framed.created hcreated nofun
  | createActorType type =>
      replace happly := Option.some.inj happly
      obtain ⟨error, heq⟩ | ⟨made, heq, hcreated⟩ := world.createActorType_cases type
      · cases heq.symm.trans happly
        exact Framed.same _ world
      · cases heq.symm.trans happly
        exact Framed.created hcreated nofun
  | setState id state =>
      cases happly
      exact Framed.modify (fun hkeeps entry _ => hkeeps entry _)
  | checkSettled id hook =>
      replace happly := Option.some.inj happly
      unfold checkSettled at happly
      split at happly
      · cases happly
        exact Framed.same _ world
      · cases happly
        exact Framed.setWaiter _ world id _
  | registerSettled id =>
      replace happly := Option.some.inj happly
      unfold registerSettled at happly
      split at happly
      · cases happly
        exact Framed.same _ world
      · cases happly
        exact Framed.setWaiter _ world id _
  | recheckSettled id =>
      cases happly
      unfold recheckSettled
      split
      · exact Framed.setWaiter _ world id _
      · exact Framed.same _ world
  | awaitSettled id =>
      replace happly : world.awaitSettled id choice = some (answer, last) := happly
      unfold awaitSettled at happly
      split at happly
      · dsimp only at happly
        split at happly
        · split at happly
          · cases happly
            exact Framed.setWaiter _ world id _
          · cases happly
        · cases happly
          exact Framed.setWaiter _ world id _
      · cases happly
  | takeHook id hook =>
      replace happly := Option.some.inj happly
      unfold takeHook at happly
      split at happly
      · cases happly
        exact Framed.same _ world
      · cases happly
        exact ⟨rfl, nofun, fun _ => rfl, fun _ => rfl, Nat.le_refl _, Nat.le_refl _,
          fun hkeeps => Registry.agree_modify (fun entry _ => hkeeps entry _)⟩
  | submitHook task =>
      replace happly : world.submitHook task choice = some (answer, last) := happly
      unfold submitHook at happly
      split at happly
      · split at happly
        · cases happly
          exact ⟨rfl, nofun, fun _ => rfl, fun _ => rfl, Nat.le_refl _, Nat.le_refl _,
            fun _ => Registry.Agree.refl _⟩
        · cases happly
      · cases happly
  | noteRejected task =>
      simp only [apply] at happly
      split at happly
      · cases happly
        exact ⟨rfl, nofun, fun _ => rfl, fun _ => rfl, Nat.le_refl _, Nat.le_refl _,
          fun hkeeps => Registry.agree_modify (fun entry _ => hkeeps entry _)⟩
      · cases happly
  | notifyRejected task =>
      obtain ⟨found, -, hlast⟩ := Option.map_eq_some_iff.mp happly
      cases hlast
      exact Framed.setWaiter _ world _ _
  | beginStopService id =>
      replace happly := Option.some.inj happly
      obtain heq | ⟨entry, hfind, -, heq⟩ := world.beginStopService_cases id
      · cases heq.symm.trans happly
        exact Framed.same _ world
      · cases heq.symm.trans happly
        refine ⟨rfl, fun _ => rfl, fun _ => rfl, fun _ => rfl, Nat.le_refl _, Nat.le_refl _, ?_⟩
        intro α field hkeeps
        have hbegun : Registry.Agree field world.registry (world.store id
            { entry with opInProgress := true, destroyPhase := "stop"
                         state := .stopping }).registry := by
          apply Registry.agree_modify
          intro old hold
          obtain rfl := Option.some.inj (hfind.symm.trans hold)
          exact hkeeps entry _ _ _ _ _
        refine hbegun.trans (Registry.agree_modifyAll (fun other old _ => ?_))
        split
        · exact hkeeps old old.gateClosed old.opInProgress old.destroyPhase old.state _
        · rfl
  | beginStopComponent id =>
      replace happly := Option.some.inj happly
      obtain heq | ⟨entry, hfind, -, heq⟩ := world.beginStopComponent_cases id
      · cases heq.symm.trans happly
        exact Framed.same _ world
      · cases heq.symm.trans happly
        apply Framed.modify
        intro α field hkeeps old hold
        obtain rfl := Option.some.inj (hfind.symm.trans hold)
        exact hkeeps entry _ _ _ _
  | beginUninstallComponent key =>
      have hframed : Framed (.beginUninstallComponent key) world
          (world.beginUninstallComponent key).2 :=
        Framed.takesDown (world.beginUninstallComponent_takesDown key)
          (fun hkeeps => hkeeps)
      rw [Option.some.inj happly] at hframed
      exact hframed
  | beginUninstallService name =>
      have hframed : Framed (.beginUninstallService name) world
          (world.beginUninstallService name).2 :=
        Framed.takesDown (world.beginUninstallService_takesDown name)
          (fun hkeeps => hkeeps)
      rw [Option.some.inj happly] at hframed
      exact hframed
  | beginUninstallActorType type =>
      have hframed : Framed (.beginUninstallActorType type) world
          (world.beginUninstallActorType type).2 :=
        Framed.takesDown (world.beginUninstallActorType_takesDown type)
          (fun hkeeps => hkeeps)
      rw [Option.some.inj happly] at hframed
      exact hframed
  | sealSubjectEdges subject =>
      cases happly
      apply Framed.modifyAll
      intro α field hkeeps id entry _
      split
      · exact hkeeps entry _ _
      · split
        · exact hkeeps entry _ _
        · rfl
  | eraseSubjectEdges subject =>
      cases happly
      apply Framed.modifyAll
      intro α field hkeeps id entry _
      split
      · exact hkeeps entry _ _
      · rfl
  | eraseSubjectEdgesOn subject components =>
      cases happly
      apply Framed.modifyAll
      intro α field hkeeps id entry _
      dsimp only
      split
      · split
        · exact hkeeps entry _ entry.object
        · rfl
      · rfl
  | finishDestroy id =>
      cases happly
      exact ⟨rfl, fun _ => rfl, fun _ => rfl, fun _ => rfl, Nat.le_refl _, Nat.le_refl _, nofun⟩
  | abortDestroy id phase incomplete =>
      cases happly
      exact Framed.modify (fun hkeeps entry _ => hkeeps entry _ _ _ _)
  | bindComponent subject key =>
      replace happly := Option.some.inj happly
      obtain ⟨error, heq⟩ | ⟨id, component, edge, -, change, heq⟩ :=
        world.bindComponent_cases subject key
      · cases heq.symm.trans happly
        exact Framed.same _ world
      · cases heq.symm.trans happly
        refine Framed.changeSubject ?_ subject.id change
          (fun hkeeps entry object => hkeeps entry entry.bindings object)
        exact ⟨rfl, fun _ => rfl, fun _ => rfl, fun _ => rfl, Nat.le_refl _, Nat.le_succ _,
          fun hkeeps => Registry.Agree.trans (Registry.agree_bump world.registry)
            (Registry.agree_modify (fun entry _ => hkeeps entry _ entry.object))⟩
  | recordBinding subject type name object generation =>
      cases happly
      exact Framed.changeSubject (Framed.same _ world) subject _
        (fun hkeeps entry object => hkeeps entry object)
  | beginUnbind subject key =>
      replace happly := Option.some.inj happly
      obtain ⟨error, heq⟩ | ⟨id, component, -, hfind, hcases⟩ :=
        world.beginUnbind_cases subject key
      · cases heq.symm.trans happly
        exact Framed.same _ world
      · obtain ⟨edge, -, heq⟩ | ⟨generation, -, heq⟩ := hcases
        · cases heq.symm.trans happly
          apply Framed.modify
          intro α field hkeeps old hold
          obtain rfl := Option.some.inj (hfind.symm.trans hold)
          exact hkeeps component _ component.object
        · cases heq.symm.trans happly
          exact Framed.same _ world
  | finishUnbind component subject generation type name =>
      cases happly
      have hframed : Framed (.finishUnbind component subject generation type name)
          world { world with
            registry := world.registry.modify component (fun entry =>
              Registry.eraseBindingLocked entry subject generation) } :=
        Framed.modify (fun hkeeps entry _ => hkeeps entry _ entry.object)
      exact Framed.changeSubject hframed subject _
        (fun hkeeps entry object => hkeeps entry entry.bindings object)

/-- What no event touches: hook tasks, borrows and releases write the counts and
the edges of an entry only. -/
structure Undisturbed (world last : AppWorld) : Prop where
  state : last.state = world.state
  lifecycle : last.lifecycleActive = world.lifecycleActive
  ids : last.registry.nextIdSeq = world.registry.nextIdSeq
  generations : last.registry.nextGeneration = world.registry.nextGeneration
  agree : ∀ {α : Type} {field : RegistryEntry → α},
    (∀ entry hooks borrows bindings, field { entry with
      hooksInFlight := hooks, componentBorrows := borrows, bindings := bindings } =
        field entry) →
    Registry.Agree field world.registry last.registry

theorem event_undisturbed {event : Event} (hevent : world.event event = some last) :
    Undisturbed world last := by
  cases event with
  | noteHook task =>
      simp only [AppWorld.event] at hevent
      split at hevent
      · cases hevent
        exact ⟨rfl, rfl, rfl, rfl, fun hkeeps => Registry.agree_modify
          (fun entry _ => hkeeps entry _ entry.componentBorrows entry.bindings)⟩
      · cases hevent
  | notifyHook task =>
      simp only [AppWorld.event] at hevent
      split at hevent
      · cases hevent
        split
        · exact ⟨rfl, rfl, rfl, rfl, fun _ => Registry.Agree.refl _⟩
        · exact ⟨rfl, rfl, rfl, rfl, fun _ => Registry.Agree.refl _⟩
      · cases hevent
  | borrow object generation allow =>
      simp only [AppWorld.event] at hevent
      split at hevent
      · cases hevent
        exact ⟨rfl, rfl, rfl, rfl, fun _ => Registry.Agree.refl _⟩
      case h_2 lease registry hborrow =>
        cases hevent
        obtain ⟨entry, edge, -, -, -, -, -, -, -, -, rfl⟩ := Registry.borrowImpl_ok hborrow
        exact ⟨rfl, rfl, rfl, rfl, fun hkeeps => Registry.agree_modify
          (fun entry _ => hkeeps entry entry.hooksInFlight _ _)⟩
  | release lease =>
      simp only [AppWorld.event] at hevent
      split at hevent
      · cases hevent
        exact ⟨rfl, rfl, rfl, rfl, fun hkeeps => Registry.agree_modify
          (fun entry _ => hkeeps entry entry.hooksInFlight _ _)⟩
      · cases hevent
  | _ =>
      simp only [AppWorld.event] at hevent
      split at hevent
      · cases hevent
        exact ⟨rfl, rfl, rfl, rfl, fun _ => Registry.Agree.refl _⟩
      · cases hevent

end AppWorld

end BbtFramework.App
