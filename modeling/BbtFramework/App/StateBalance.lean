import BbtFramework.App.Edges
import BbtFramework.App.Transitions

/-!
# Object states and the stages of the calls

While calls are in progress, an object may be in a state that does not fit the
application's; then some thread will still write it.  Each thread is at a stage that says
which states it accounts for.
-/

namespace BbtFramework.App

open BbtFramework.Library

def ObjectId.startable (id : ObjectId) : Bool :=
  id.kind = .service ∨ id.kind = .component

namespace Stage

/-- An installation that has not written `Installed` yet. -/
def installs (stage : Stage) (id : ObjectId) : Bool :=
  stage = .installing id

/-- An installation that has written `Installed` and not yet its last state. -/
def places (stage : Stage) (id : ObjectId) : Bool :=
  stage = .placed id ∨ stage = .launching id

/-- A thread that will write the state after `Starting`. -/
def starts (stage : Stage) (id : ObjectId) : Bool :=
  match stage with
  | .launching other => id = other
  | .starting remaining => id ∈ remaining
  | _ => false

def pauses : Stage → Bool
  | .pausing _ => true
  | _ => false

/-- The list of a transition does not have an object that is `Installed`. -/
def misses (stage : Stage) (id : ObjectId) : Bool :=
  match stage with
  | .starting remaining => id ∉ remaining
  | .resuming _ => true
  | _ => false

/-- The list of a transition does not have an object that is `Paused`. -/
def forgets (stage : Stage) (id : ObjectId) : Bool :=
  match stage with
  | .starting _ => true
  | .resuming remaining => id ∉ remaining
  | _ => false

end Stage

def Stage.placed? : Stage → Option ObjectId
  | .placed id => some id
  | _ => none

def Action.takesInstalled : Action → Bool
  | .query .startLists => true
  | _ => false

def Action.takesPaused : Action → Bool
  | .query (.listServices state) => state = .paused
  | _ => false

def Action.looks : Action → Bool
  | .query .loadState => true
  | _ => false

def Registry.inState (registry : Registry) (id : ObjectId) (state : ObjectState) :
    Bool :=
  (registry.findEntryLocked id).any (fun entry => entry.state = state)

section

variable [Infra]

/-- The lists of the transitions leave nothing behind: a start finds no object
`Paused`; a resume finds no object `Installed`, except where its installation is
still to look at the application state; and an installation that finds the
application not running is on the list of every transition that has taken one. -/
def ListsComplete (pool : StagedPool) (label : AppStep) : Prop :=
  ∀ act ∈ pool.asked label,
    (act.takesInstalled = true → ∀ id ∈ pool.shared.registry.listIdsLocked,
      pool.shared.registry.inState id .paused = false) ∧
    (act.takesPaused = true → ∀ id ∈ pool.shared.registry.listIdsLocked,
      id.startable = true → pool.shared.registry.inState id .installed = true →
        ∃ other < pool.count, (pool.views other).stage.places id = true) ∧
    (act.looks = true → ∀ thread ∈ label.actor,
      ∀ id ∈ (pool.views thread).stage.placed?, pool.shared.state = .running ∨
        pool.shared.registry.inState id .installed = false ∨
          ∀ other < pool.count, (pool.views other).stage.misses id = false)

instance (pool : StagedPool) (label : AppStep) : Decidable (ListsComplete pool label) :=
  inferInstanceAs (Decidable (∀ act ∈ _, (_ → _) ∧ (_ → _) ∧ (_ → _)))

end

/-- Why an object is in its state: a thread will still write it, or the
application does not run and no list misses the object. -/
def Explained (state : AppState) (stages : Nat → Stage) (id : ObjectId) :
    ObjectState → Prop
  | .created => False
  | .installing => ∃ thread, (stages thread).installs id = true
  | .installed =>
      (∃ thread, (stages thread).places id = true) ∨
        (state ≠ .running ∧ ∀ thread, (stages thread).misses id = false)
  | .starting => ∃ thread, (stages thread).starts id = true
  | .paused =>
      id.kind = .service ∧ ((∃ thread, (stages thread).pauses = true) ∨
        (state ≠ .running ∧ ∀ thread, (stages thread).forgets id = false))
  | _ => True

/-- A thread that goes from one stage to another still explains what it did. -/
structure Stage.Preserves (before after : Stage) (id : ObjectId) (object : ObjectState) :
    Prop where
  installs : object = .installing → before.installs id = true → after.installs id = true
  places : object = .installed → before.places id = true → after.places id = true
  starts : object = .starting → before.starts id = true → after.starts id = true
  pauses : object = .paused → before.pauses = true → after.pauses = true
  misses : object = .installed → before.misses id = false → after.misses id = false
  forgets : object = .paused → before.forgets id = false → after.forgets id = false

theorem Stage.Preserves.refl (stage : Stage) (id : ObjectId) (object : ObjectState) :
    stage.Preserves stage id object :=
  ⟨fun _ h => h, fun _ h => h, fun _ h => h, fun _ h => h, fun _ h => h, fun _ h => h⟩

def Stage.neutral : Stage → Bool
  | .idle | .knows _ | .stopping _ _ => true
  | _ => false

theorem Stage.Preserves.of_neutral {before after : Stage} {id : ObjectId}
    {object : ObjectState} (hbefore : before.neutral = true)
    (hafter : after.neutral = true) : before.Preserves after id object := by
  have hnothing : ∀ stage : Stage, stage.neutral = true → stage.installs id = false ∧
      stage.places id = false ∧ stage.starts id = false ∧ stage.pauses = false ∧
      stage.misses id = false ∧ stage.forgets id = false := by
    intro stage hneutral
    cases stage with
    | idle => simp [Stage.installs, Stage.places, Stage.starts, Stage.pauses, Stage.misses,
        Stage.forgets]
    | knows state =>
        simp [Stage.installs, Stage.places, Stage.starts, Stage.pauses, Stage.misses,
        Stage.forgets]
    | stopping pending clean =>
        simp [Stage.installs, Stage.places, Stage.starts, Stage.pauses, Stage.misses,
        Stage.forgets]
    | _ => cases hneutral
  obtain ⟨h1, h2, h3, h4, -, -⟩ := hnothing before hbefore
  obtain ⟨-, -, -, -, h5, h6⟩ := hnothing after hafter
  refine ⟨?_, ?_, ?_, ?_, fun _ _ => h5, fun _ _ => h6⟩
  · exact fun _ htrue => absurd htrue (by simp [h1])
  · exact fun _ htrue => absurd htrue (by simp [h2])
  · exact fun _ htrue => absurd htrue (by simp [h3])
  · exact fun _ htrue => absurd htrue (by simp [h4])

section

variable {state last : AppState} {stages : Nat → Stage} {id : ObjectId}
variable {object : ObjectState} {thread : Nat} {stage : Stage}

/-- A witness among the threads stays one. -/
theorem exists_update (test : Stage → Bool)
    (hexists : ∃ other, test (stages other) = true)
    (hkeep : test (stages thread) = true → test stage = true) :
    ∃ other, test (Function.update stages thread stage other) = true := by
  obtain ⟨other, hother⟩ := hexists
  refine ⟨other, ?_⟩
  by_cases heq : other = thread
  · subst heq
    rw [Function.update_self]
    exact hkeep hother
  · rwa [Function.update_of_ne heq]

theorem forall_update (test : Stage → Bool)
    (hall : ∀ other, test (stages other) = false)
    (hkeep : test (stages thread) = false → test stage = false) (other : Nat) :
    test (Function.update stages thread stage other) = false :=
  (Function.forall_update_iff stages (fun _ stage => test stage = false)).mpr
    ⟨hkeep (hall thread), fun other _ => hall other⟩ other

theorem Explained.update (hexplained : Explained state stages id object)
    (hrunning : last = .running → state = .running)
    (hpreserves : (stages thread).Preserves stage id object) :
    Explained last (Function.update stages thread stage) id object := by
  cases object with
  | created => exact hexplained
  | installing =>
      exact exists_update (fun stage => stage.installs id) hexplained
        (hpreserves.installs rfl)
  | starting =>
      exact exists_update (fun stage => stage.starts id) hexplained
        (hpreserves.starts rfl)
  | installed =>
      obtain hplaces | ⟨hstate, hmisses⟩ := hexplained
      · exact Or.inl (exists_update (fun stage => stage.places id) hplaces
          (hpreserves.places rfl))
      · exact Or.inr ⟨fun hlast => hstate (hrunning hlast),
          forall_update (fun stage => stage.misses id) hmisses
            (hpreserves.misses rfl)⟩
  | paused =>
      refine ⟨hexplained.1, ?_⟩
      obtain hpauses | ⟨hstate, hforgets⟩ := hexplained.2
      · exact Or.inl (exists_update Stage.pauses hpauses
          (hpreserves.pauses rfl))
      · exact Or.inr ⟨fun hlast => hstate (hrunning hlast),
          forall_update (fun stage => stage.forgets id) hforgets
            (hpreserves.forgets rfl)⟩
  | _ => trivial

end

/-- The states a teardown writes. -/
def ObjectState.down : ObjectState → Bool
  | .stopping | .uninstalling | .stopIncomplete | .uninstallIncomplete => true
  | _ => false

theorem Explained.of_down {state : AppState} {stages : Nat → Stage} {id : ObjectId}
    {object : ObjectState} (hdown : object.down = true) :
    Explained state stages id object := by
  cases object <;> trivial

def Registry.Sinks (before after : Registry) : Prop :=
  ∀ id later, after.findEntryLocked id = some later →
    ∃ earlier, before.findEntryLocked id = some earlier ∧
      (later.state = earlier.state ∨ later.state.down = true)

namespace Registry

variable {before middle after : Registry}

theorem Sinks.refl (registry : Registry) : Sinks registry registry :=
  fun _ later hfind => ⟨later, hfind, Or.inl rfl⟩

theorem Agree.sinks (hagree : Agree RegistryEntry.state before after) :
    Sinks before after := by
  intro id later hfind
  obtain ⟨earlier, hearlier, heq⟩ := hagree.find_some hfind
  exact ⟨earlier, hearlier, Or.inl heq.symm⟩

theorem Sinks.agree (hfirst : Sinks before middle)
    (hsecond : Agree RegistryEntry.state middle after) : Sinks before after := by
  intro id later hfind
  obtain ⟨between, hbetween, heq⟩ := hsecond.find_some hfind
  rw [← heq]
  exact hfirst id between hbetween

theorem sinks_modify {id : ObjectId} {change : RegistryEntry → RegistryEntry}
    (hchange : ∀ entry, (change entry).state.down = true) :
    Sinks before (before.modify id change) := by
  intro other later hfind
  rw [findEntryLocked_modify] at hfind
  split at hfind
  case isTrue heq =>
    subst heq
    obtain ⟨earlier, hearlier, rfl⟩ := Option.map_eq_some_iff.mp hfind
    exact ⟨earlier, hearlier, Or.inr (hchange earlier)⟩
  case isFalse => exact ⟨later, hfind, Or.inl rfl⟩

end Registry

/-- The commands that make an entry or write its state in a transition. -/
def Command.raises : Command → Bool
  | .createComponent _ | .createService _ _ | .createActorType _ | .setState _ _ => true
  | _ => false

section

variable [Infra] {world last : AppWorld}

omit [Infra] in
theorem takesDown_sinks {kind : ObjectKind} {phase : String}
    {result : Except Error ObjectId × AppWorld}
    (hresult : world.TakesDown kind phase result) :
    Registry.Sinks world.registry result.2.registry := by
  obtain ⟨error, rfl⟩ | ⟨id, entry, -, -, -, -, rfl⟩ := hresult
  · exact .refl _
  · exact Registry.sinks_modify (fun _ => rfl)

theorem apply_sinks {command : Command} {choice : Choice} {answer : command.Answer}
    {progress : Progress} (hraises : command.raises = false)
    (hallowed : Progress.allowsCommand command progress)
    (happly : world.apply command choice = some (answer, last)) :
    Registry.Sinks world.registry last.registry := by
  have hagree : command.Keeps RegistryEntry.state →
      Registry.Sinks world.registry last.registry :=
    fun hkeeps => Registry.Agree.sinks ((AppWorld.apply_framed happly).agree hkeeps)
  cases command with
  | createComponent key => cases hraises
  | createService name allowed => cases hraises
  | createActorType type => cases hraises
  | setState id state => cases hraises
  | finishDestroy id =>
      cases happly
      intro other later hfind
      change (world.registry.remove id).findEntryLocked other = some later at hfind
      rw [Registry.findEntryLocked_remove] at hfind
      split at hfind
      · cases hfind
      · exact ⟨later, hfind, Or.inl rfl⟩
  | abortDestroy id phase incomplete =>
      cases happly
      apply Registry.sinks_modify
      intro entry
      obtain ⟨-, rfl | rfl⟩ := hallowed
      · rfl
      · rfl
  | beginStopComponent id =>
      replace happly := Option.some.inj happly
      obtain heq | ⟨entry, -, -, heq⟩ := world.beginStopComponent_cases id
      · cases heq.symm.trans happly
        exact .refl _
      · cases heq.symm.trans happly
        exact Registry.sinks_modify (fun _ => rfl)
  | beginStopService id =>
      replace happly := Option.some.inj happly
      obtain heq | ⟨entry, -, -, heq⟩ := world.beginStopService_cases id
      · cases heq.symm.trans happly
        exact .refl _
      · cases heq.symm.trans happly
        refine Registry.Sinks.agree (Registry.sinks_modify (fun _ => rfl))
          (Registry.agree_modifyAll ?_)
        intro other component _
        split
        · rfl
        · rfl
  | beginUninstallComponent key =>
      have hresult := takesDown_sinks (world.beginUninstallComponent_takesDown key)
      rw [Option.some.inj happly] at hresult
      exact hresult
  | beginUninstallService name =>
      have hresult := takesDown_sinks (world.beginUninstallService_takesDown name)
      rw [Option.some.inj happly] at hresult
      exact hresult
  | beginUninstallActorType type =>
      have hresult := takesDown_sinks (world.beginUninstallActorType_takesDown type)
      rw [Option.some.inj happly] at hresult
      exact hresult
  | _ => exact hagree (by simp [Command.Keeps])

end

/-! ## Balance -/

/-- Every service and component is in a state that is explained. -/
def Balanced (state : AppState) (registry : Registry) (stages : Nat → Stage) : Prop :=
  ∀ id entry, registry.findEntryLocked id = some entry → id.startable = true →
    Explained state stages id entry.state

namespace Balanced

variable {state last : AppState} {before after : Registry} {stages : Nat → Stage}
variable {thread : Nat} {stage : Stage}

/-- Nothing is raised, and the stages still explain what they did. -/
theorem sinks (hbalanced : Balanced state before stages)
    (hsinks : Registry.Sinks before after) (hrunning : last = .running → state = .running)
    (hpreserves : ∀ id entry, before.findEntryLocked id = some entry →
      id.startable = true → (stages thread).Preserves stage id entry.state) :
    Balanced last after (Function.update stages thread stage) := by
  intro id later hfind hstartable
  obtain ⟨earlier, hearlier, hsame | hdown⟩ := hsinks id later hfind
  · rw [hsame]
    exact (hbalanced id earlier hearlier hstartable).update hrunning
      (hpreserves id earlier hearlier hstartable)
  · exact .of_down hdown

end Balanced

theorem inState_of_find {registry : Registry} {id : ObjectId} {entry : RegistryEntry}
    (hfind : registry.findEntryLocked id = some entry) :
    registry.inState id entry.state = true := by
  rw [Registry.inState, hfind, Option.any_some, decide_eq_true_eq]

/-- An installation that goes on to start its object. -/
theorem preserves_launching (placed id : ObjectId) (object : ObjectState) :
    (Stage.placed placed).Preserves (.launching placed) id object := by
  refine ⟨nofun, ?_, nofun, nofun, fun _ _ => rfl, fun _ _ => rfl⟩
  intro _ hplaces
  simpa [Stage.places] using hplaces

theorem preserves_of_idle {before after : Stage} {id : ObjectId} {object : ObjectState}
    (hbefore : before.neutral = true)
    (hmisses : object = .installed → after.misses id = false)
    (hforgets : object = .paused → after.forgets id = false) :
    before.Preserves after id object := by
  have hneutral : before.Preserves .idle id object := .of_neutral hbefore rfl
  exact ⟨fun hobject h => absurd (hneutral.installs hobject h) nofun,
    fun hobject h => absurd (hneutral.places hobject h) nofun,
    fun hobject h => absurd (hneutral.starts hobject h) nofun,
    fun hobject h => absurd (hneutral.pauses hobject h) nofun,
    fun hobject _ => hmisses hobject, fun hobject _ => hforgets hobject⟩

section

variable [Infra] {world : AppWorld} {stages : Nat → Stage} {thread : Nat}
variable {progress : Progress}

omit [Infra] in
theorem mem_startLists {id : ObjectId} {entry : RegistryEntry}
    (hfind : world.registry.findEntryLocked id = some entry)
    (hstartable : id.startable = true) (hinstalled : entry.state = .installed) :
    id ∈ world.startLists.1 ++ world.startLists.2 := by
  have hkind : id.kind = .service ∨ id.kind = .component := by
    simpa [ObjectId.startable] using hstartable
  obtain hkind | hkind := hkind
  · refine List.mem_append_right _ (Registry.mem_listWhere.mpr ⟨hkind, entry, hfind, ?_⟩)
    exact decide_eq_true hinstalled
  · refine List.mem_append_left _ (List.mem_filter.mpr ⟨?_, ?_⟩)
    · exact Registry.mem_startOrder.mpr
        (Registry.mem_listIdsByKind.mpr ⟨hkind, entry, hfind⟩)
    · rw [hfind, Option.any_some]
      exact decide_eq_true hinstalled

omit [Infra] in
theorem balanced_look {placed : ObjectId} (hrunning : world.state ≠ .running)
    (hstage : stages thread = .placed placed)
    (hlook : world.registry.inState placed .installed = false ∨
      ∀ other, (stages other).misses placed = false)
    (hbalanced : Balanced world.state world.registry stages) :
    Balanced world.state world.registry (Function.update stages thread .idle) := by
  intro id entry hfind hstartable
  have hexplained := hbalanced id entry hfind hstartable
  by_cases hleft : id = placed ∧ entry.state = .installed
  · obtain ⟨rfl, hinstalled⟩ := hleft
    have hmisses : ∀ other, (stages other).misses id = false := by
      obtain hnot | hmisses := hlook
      · have hin := inState_of_find hfind
        rw [hinstalled, hnot] at hin
        cases hin
      · exact hmisses
    rw [hinstalled]
    exact Or.inr ⟨hrunning, forall_update (fun stage => stage.misses id) hmisses
      (fun _ => rfl)⟩
  · refine hexplained.update (fun h => h) ?_
    rw [hstage]
    refine ⟨nofun, ?_, nofun, nofun, fun _ _ => rfl, fun _ _ => rfl⟩
    intro hinstalled hplaces
    have heq : placed = id := by simpa [Stage.places] using hplaces
    exact absurd ⟨heq.symm, hinstalled⟩ hleft

omit [Infra] in
theorem balanced_resume (hstage : stages thread = .knows .paused)
    (hinstalled : ∀ id, id.startable = true →
      world.registry.inState id .installed = true →
        ∃ other, (stages other).places id = true)
    (hbalanced : Balanced world.state world.registry stages) :
    Balanced world.state world.registry (Function.update stages thread
      (.resuming (world.registry.listIdsInStateLocked .service .paused))) := by
  intro id entry hfind hstartable
  have hexplained := hbalanced id entry hfind hstartable
  have hin := inState_of_find hfind
  by_cases hstate : entry.state = .installed
  · rw [hstate] at hin ⊢
    refine Or.inl (exists_update (fun stage => stage.places id)
      (hinstalled id hstartable hin) ?_)
    rw [hstage]
    exact nofun
  · refine hexplained.update (fun h => h) ?_
    rw [hstage]
    refine preserves_of_idle rfl (fun h => absurd h hstate) ?_
    intro hpaused
    rw [hpaused] at hexplained
    have hmem : id ∈ world.registry.listIdsInStateLocked .service .paused :=
      Registry.mem_listWhere.mpr ⟨hexplained.1, entry, hfind, decide_eq_true hpaused⟩
    exact decide_eq_false (not_not_intro hmem)

theorem balanced_query {query : Query} {choice : Choice} {answer : query.Answer}
    (hallowed : Progress.allowsQuery query progress)
    (hanswer : world.answer query choice = some answer)
    (hstage : stages thread = progress.stage)
    (hpaused : (Action.query query).takesInstalled = true →
      ∀ id, world.registry.inState id .paused = false)
    (hinstalled : (Action.query query).takesPaused = true →
      ∀ id, id.startable = true → world.registry.inState id .installed = true →
        ∃ other, (stages other).places id = true)
    (hlook : (Action.query query).looks = true → ∀ id, progress.stage = .placed id →
      world.state = .running ∨ world.registry.inState id .installed = false ∨
        ∀ other, (stages other).misses id = false)
    (hbalanced : Balanced world.state world.registry stages) :
    Balanced world.state world.registry (Function.update stages thread
      (Progress.afterQuery query answer progress).stage) := by
  have hkeep : ∀ stage : Stage, (∀ id entry,
      world.registry.findEntryLocked id = some entry → id.startable = true →
      progress.stage.Preserves stage id entry.state) →
      Balanced world.state world.registry (Function.update stages thread stage) := by
    intro stage hpreserves
    exact hbalanced.sinks (.refl _) id (by rwa [hstage])
  obtain ⟨lifecycle, stage, log, failed⟩ := progress
  cases query with
  | loadState =>
      cases hanswer
      cases stage with
      | idle =>
          cases lifecycle with
          | false => exact hkeep .idle (fun _ _ _ _ => .refl _ _ _)
          | true => exact hkeep _ (fun _ _ _ _ => .of_neutral rfl rfl)
      | placed id =>
          change Balanced _ _ (Function.update stages thread
            (if world.state = .running then Stage.launching id else .idle))
          split
          case isTrue => exact hkeep _ (fun _ _ _ _ => preserves_launching _ _ _)
          case isFalse hrunning =>
            exact balanced_look hrunning hstage
              ((hlook rfl id rfl).resolve_left hrunning) hbalanced
      | _ => exact hkeep _ (fun _ _ _ _ => .refl _ _ _)
  | startLists =>
      cases hanswer
      obtain rfl : stage = .knows .starting := hallowed
      refine hkeep _ ?_
      intro id entry hfind hstartable
      refine preserves_of_idle rfl ?_ ?_
      · intro hstate
        have hmem := mem_startLists hfind hstartable hstate
        change decide (id ∉ world.startLists.1 ++ world.startLists.2) = false
        exact decide_eq_false (not_not_intro hmem)
      · intro hstate
        have hin := inState_of_find hfind
        rw [hstate, hpaused rfl id] at hin
        cases hin
  | listServices state =>
      cases hanswer
      obtain ⟨rfl, hknows⟩ | ⟨rfl, hknows⟩ := hallowed
      · obtain rfl : stage = .knows .running := hknows
        exact hkeep _ (fun _ _ _ _ => preserves_of_idle rfl (fun _ => rfl) (fun _ => rfl))
      · obtain rfl : stage = .knows .paused := hknows
        exact balanced_resume hstage (hinstalled rfl) hbalanced
  | stopLists =>
      obtain rfl : stage = .knows .stopping := hallowed.1
      exact hkeep _ (fun _ _ _ _ => .of_neutral rfl rfl)
  | pendingCleanup =>
      obtain ⟨clean, hstop⟩ := hallowed
      obtain rfl : stage = .stopping [] clean := hstop
      exact hkeep _ (fun _ _ _ _ => .of_neutral rfl rfl)
  | _ => exact hkeep _ (fun _ _ _ _ => .refl _ _ _)

end

end BbtFramework.App
