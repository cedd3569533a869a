import BbtFramework.App.ProgressConduct

/-!
# What the transitions know

The transition that holds `m_lifecycle_active` is alone, so what it has read of
the application state stays true until it writes it.  A stopped application
stays stopped.
-/

namespace BbtFramework.App

open BbtFramework.Library

def Stage.appState : Stage → Option AppState
  | .knows state => some state
  | .starting _ => some .starting
  | .pausing _ => some .running
  | .resuming _ => some .paused
  | .stopping _ _ => some .stopping
  | _ => none

def Stage.isStopping : Stage → Bool
  | .stopping _ _ => true
  | _ => false

namespace Progress

/-- The progress of a transition matches the application state. -/
def Informed (world : AppWorld) (progress : Progress) : Prop :=
  ∀ state, progress.stage.appState = some state →
    world.state = state ∧ progress.lifecycle = true

@[simp]
theorem lifecycle_move (progress : Progress) (stage : Stage) :
    (progress.move stage).lifecycle = progress.lifecycle :=
  rfl

@[simp]
theorem stage_move (progress : Progress) (stage : Stage) :
    (progress.move stage).stage = stage :=
  rfl

theorem lifecycle_turn (progress : Progress) (id : ObjectId) (begun : Bool) :
    (progress.turn id begun).lifecycle = progress.lifecycle := by
  unfold turn
  split
  · rfl
  · rfl

theorem lifecycle_afterState (state : ObjectState) (progress : Progress) :
    (progress.afterState state).lifecycle = progress.lifecycle := by
  obtain ⟨lifecycle, stage, log, failed⟩ := progress
  cases stage <;> simp only [afterState, fail] <;> split_ifs <;> rfl

/-- Serving one object does not change what is known of the application. -/
theorem appState_turn (progress : Progress) (id : ObjectId) (begun : Bool) :
    (progress.turn id begun).stage.appState = progress.stage.appState := by
  obtain ⟨lifecycle, stage, log, failed⟩ := progress
  cases stage with
  | stopping pending clean =>
      cases pending with
      | nil => rfl
      | cons head rest => rfl
  | _ => rfl

theorem appState_afterState (state : ObjectState) (progress : Progress) :
    (progress.afterState state).stage.appState = progress.stage.appState := by
  obtain ⟨lifecycle, stage, log, failed⟩ := progress
  cases stage <;> simp only [afterState, fail, move] <;> split_ifs <;> rfl

theorem Informed.of_same {world last : AppWorld} {progress other : Progress}
    (hinformed : progress.Informed world) (hstate : last.state = world.state)
    (hstage : other.stage.appState = progress.stage.appState)
    (hlifecycle : other.lifecycle = progress.lifecycle) : other.Informed last := by
  intro state hknown
  rw [hstate, hlifecycle]
  exact hinformed state (hstage.symm.trans hknown)

theorem Informed.of_none {world : AppWorld} {progress : Progress}
    (hnone : progress.stage.appState = none) : progress.Informed world := by
  intro state hknown
  rw [hnone] at hknown
  cases hknown

/-- Nothing is stored once the application is stopped. -/
theorem Informed.stores {world : AppWorld} {progress : Progress} {state : AppState}
    (hinformed : progress.Informed world) (hstores : progress.stores state) :
    world.state ≠ .stopped := by
  have hknown : ∀ known stage, progress.stage = stage →
      stage.appState = some known → known ≠ .stopped → world.state ≠ .stopped := by
    rintro known stage rfl happ hne
    rw [(hinformed known happ).1]
    exact hne
  cases state with
  | created => exact hstores.elim
  | starting =>
      obtain hstage | hstage := hstores
      · exact hknown _ _ hstage rfl nofun
      · exact hknown _ _ hstage rfl nofun
  | running =>
      obtain hstage | hstage | ⟨hstage, -⟩ := hstores
      · exact hknown _ _ hstage rfl nofun
      · exact hknown _ _ hstage rfl nofun
      · exact hknown _ _ hstage rfl nofun
  | paused => exact hknown _ _ hstores rfl nofun
  | stopping =>
      obtain ⟨before, hne, hstage⟩ := hstores
      exact hknown _ _ hstage rfl hne
  | stopIncomplete =>
      obtain ⟨clean, hstage⟩ := hstores
      exact hknown _ _ hstage rfl nofun
  | stopped => exact hknown _ _ hstores rfl nofun

end Progress

section

variable [Infra] {world last : AppWorld} {progress : Progress}

omit [Infra] in
theorem stagedSystem_tracks :
    TracksLifecycle .fresh progressDiscipline Progress.lifecycle where
  fresh := rfl
  taken := fun _ => rfl
  refused := fun _ => rfl
  released := fun _ => rfl
  release := fun _ hallowed => hallowed.1
  query := by
    rintro query answer ⟨lifecycle, stage, log, failed⟩
    cases query with
    | loadState => cases stage <;> cases lifecycle <;> rfl
    | pendingCleanup => cases stage <;> rfl
    | _ => rfl
  command := by
    rintro command answer progress hwrites
    cases command with
    | createComponent key =>
        change Except Error ObjectId at answer
        cases answer <;> rfl
    | createService name allowed =>
        change Except Error ObjectHandle at answer
        cases answer <;> rfl
    | setState id state => exact Progress.lifecycle_afterState state progress
    | beginStopService id => exact Progress.lifecycle_turn progress id answer
    | beginStopComponent id => exact Progress.lifecycle_turn progress id answer
    | takeHook id hook =>
        obtain ⟨log, heq⟩ := takeHook_log id hook answer progress
        change (Progress.afterCommand (.takeHook id hook) answer progress).lifecycle = _
        rw [heq]
    | finishDestroy id =>
        change (if id.kind = .actor then progress.turn id true else progress).lifecycle = _
        split
        · exact Progress.lifecycle_turn progress id true
        · rfl
    | exchangeLifecycle => cases hwrites
    | releaseLifecycle => cases hwrites
    | _ => rfl

theorem informed_query {query : Query} {choice : Choice} {answer : query.Answer}
    (hallowed : Progress.allowsQuery query progress)
    (hanswer : world.answer query choice = some answer)
    (hinformed : progress.Informed world) :
    (Progress.afterQuery query answer progress).Informed world := by
  obtain ⟨lifecycle, stage, log, failed⟩ := progress
  cases query with
  | loadState =>
      cases hanswer
      cases stage with
      | idle =>
          cases lifecycle with
          | false => exact hinformed
          | true =>
              rintro state ⟨⟩
              exact ⟨rfl, rfl⟩
      | placed id =>
          refine .of_none ?_
          change (if world.state = .running then Stage.launching id else .idle).appState =
            none
          split
          · rfl
          · rfl
      | _ => exact hinformed
  | startLists =>
      obtain rfl : stage = .knows .starting := hallowed
      exact hinformed.of_same rfl rfl rfl
  | listServices state =>
      obtain ⟨rfl, hstage⟩ | ⟨rfl, hstage⟩ := hallowed
      · obtain rfl : stage = .knows .running := hstage
        exact hinformed.of_same rfl rfl rfl
      · obtain rfl : stage = .knows .paused := hstage
        exact hinformed.of_same rfl rfl rfl
  | stopLists =>
      obtain rfl : stage = .knows .stopping := hallowed.1
      exact hinformed.of_same rfl rfl rfl
  | pendingCleanup =>
      obtain ⟨clean, hstage⟩ := hallowed
      obtain rfl : stage = .stopping [] clean := hstage
      exact hinformed.of_same rfl rfl rfl
  | _ => exact hinformed

theorem informed_command {command : Command} {choice : Choice}
    {answer : command.Answer} (hallowed : Progress.allowsCommand command progress)
    (happly : world.apply command choice = some (answer, last))
    (hinformed : progress.Informed world) :
    (Progress.afterCommand command answer progress).Informed last := by
  have hframed := AppWorld.apply_framed happly
  cases command with
  | storeState state =>
      cases happly
      rintro known ⟨⟩
      exact ⟨rfl, hallowed.1⟩
  | exchangeLifecycle =>
      obtain ⟨-, hidle⟩ := hallowed
      change Bool at answer
      cases answer with
      | false => exact .of_none (by rw [Progress.afterCommand, if_neg nofun, hidle]; rfl)
      | true => exact hinformed.of_same (hframed.state rfl) rfl rfl
  | releaseLifecycle => exact .of_none rfl
  | createComponent key =>
      change Except Error ObjectId at answer
      cases answer with
      | error error => exact hinformed.of_same (hframed.state rfl) rfl rfl
      | ok id => exact .of_none rfl
  | createService name allowed =>
      change Except Error ObjectHandle at answer
      cases answer with
      | error error => exact hinformed.of_same (hframed.state rfl) rfl rfl
      | ok handle => exact .of_none rfl
  | setState id state =>
      exact hinformed.of_same (hframed.state rfl)
        (Progress.appState_afterState state progress)
        (Progress.lifecycle_afterState state progress)
  | beginStopService id =>
      exact hinformed.of_same (hframed.state rfl)
        (Progress.appState_turn progress id answer)
        (Progress.lifecycle_turn progress id answer)
  | beginStopComponent id =>
      exact hinformed.of_same (hframed.state rfl)
        (Progress.appState_turn progress id answer)
        (Progress.lifecycle_turn progress id answer)
  | takeHook id hook =>
      obtain ⟨log, heq⟩ := takeHook_log id hook answer progress
      rw [heq]
      exact hinformed.of_same (hframed.state rfl) rfl rfl
  | finishDestroy id =>
      have hturn := Progress.appState_turn progress id true
      have hlifecycle := Progress.lifecycle_turn progress id true
      refine hinformed.of_same (hframed.state rfl) ?_ ?_
      · change (if id.kind = .actor then progress.turn id true else progress).stage.appState
          = _
        split
        · exact hturn
        · rfl
      · change (if id.kind = .actor then progress.turn id true else progress).lifecycle = _
        split
        · exact hlifecycle
        · rfl
  | _ => exact hinformed.of_same (hframed.state rfl) rfl rfl

/-- A pool of calls with the progress of their transitions. -/
abbrev StagedPool :=
  AppPool Progress

variable {guard : StagedPool → AppStep → Prop} {pool : StagedPool}

theorem stagedSystem_alone
    (hreach : stagedSystem.machine.ReachableWhere guard pool) :
    LifecycleAlone Progress.lifecycle pool.shared pool.views :=
  lifecycle_alone stagedSystem_disciplined stagedSystem_tracks hreach

/-- What every transition has read of the application state is still true. -/
theorem stagedSystem_informed
    (hreach : stagedSystem.machine.ReachableWhere guard pool) :
    ∀ thread, (pool.views thread).Informed pool.shared := by
  refine stagedSystem_disciplined.invariant
    (motive := fun world views => ∀ thread, (views thread).Informed world) ?_ ?_ ?_ hreach
  · exact fun _ _ _ => .of_none rfl
  · intro pool thread choice act answer last hacts hinformed
    refine (Function.forall_update_iff pool.views
      (fun _ progress => progress.Informed last)).mpr ?_
    cases act with
    | query query =>
        obtain ⟨hanswer, rfl⟩ := AppWorld.perform_query hacts.performed
        exact ⟨informed_query hacts.allowed hanswer (hinformed thread),
          fun other _ => hinformed other⟩
    | command command =>
        have happly := AppWorld.perform_command hacts.performed
        refine ⟨informed_command hacts.allowed happly (hinformed thread), ?_⟩
        intro other hne
        by_cases hwrites : command.writesState = false
        · exact (hinformed other).of_same
            ((AppWorld.apply_framed happly).state hwrites) rfl rfl
        · -- Only the transition that is alone writes the application state.
          cases command with
          | storeState state =>
              intro known hknown
              have hother := (hinformed other known hknown).2
              exact absurd ((stagedSystem_alone hacts.reach).alone other thread hother
                hacts.allowed.1) hne
          | _ => exact absurd rfl hwrites
  · intro pool event last _ _ hreact hinformed thread
    have hstate := (AppWorld.event_undisturbed (AppWorld.react_event hreact)).state
    exact (hinformed thread).of_same hstate rfl rfl

theorem stopped_stays {label : AppStep} {next : StagedPool}
    (hreach : stagedSystem.machine.ReachableWhere guard pool)
    (hnext : stagedSystem.machine.next pool label = some next)
    (hstopped : pool.shared.state = .stopped) : next.shared.state = .stopped := by
  cases label with
  | spawn entry =>
      cases hnext
      exact hstopped
  | env event =>
      obtain ⟨last, hreact, rfl⟩ := Option.map_eq_some_iff.mp hnext
      exact (AppWorld.event_undisturbed (AppWorld.react_event hreact)).state.trans hstopped
  | step thread choice =>
      obtain ⟨-, act, rest, answer, last, hthread, hperform, rfl⟩ :=
        System.next_step hnext
      cases act with
      | query query =>
          obtain ⟨-, rfl⟩ := AppWorld.perform_query hperform
          exact hstopped
      | command command =>
          have happly := AppWorld.perform_command hperform
          by_cases hwrites : command.writesState = false
          · exact ((AppWorld.apply_framed happly).state hwrites).trans hstopped
          · cases command with
            | storeState state =>
                have hfollows := stagedSystem_disciplined.follows hreach thread
                rw [hthread] at hfollows
                have hstores : (pool.views thread).stores state := hfollows.1.2
                exact absurd hstopped
                  ((stagedSystem_informed hreach thread).stores hstores)
            | _ => exact absurd rfl hwrites

end

end BbtFramework.App
