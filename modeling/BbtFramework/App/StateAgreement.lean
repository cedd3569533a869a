import BbtFramework.App.StateBalance

/-!
# The application state and the object states

An object whose state does not fit the application's is accounted for by some thread.  The
transitions work on lists taken at one instant, so an object that comes into its state
after the list, or that the list does not look for, is left behind.
-/

namespace BbtFramework.App

open BbtFramework.Library

section

variable [Infra] {world : AppWorld} {stages : Nat → Stage} {thread : Nat}
variable {progress : Progress}

omit [Infra] in
theorem preserves_command {command : Command} {answer : command.Answer}
    (hallowed : Progress.allowsCommand command progress)
    (hraises : command.raises = false) (hstores : command.writesState = false)
    (id : ObjectId) (object : ObjectState) :
    progress.stage.Preserves (Progress.afterCommand command answer progress).stage id
      object := by
  have hturn : ∀ other begun,
      progress.stage.Preserves (progress.turn other begun).stage id object := by
    intro other begun
    obtain ⟨lifecycle, stage, log, failed⟩ := progress
    cases stage with
    | stopping pending clean =>
        cases pending with
        | nil => exact .refl _ _ _
        | cons head rest => exact .of_neutral rfl rfl
    | _ => exact .refl _ _ _
  cases command with
  | createComponent key => cases hraises
  | createService name allowed => cases hraises
  | setState other state => cases hraises
  | storeState state => cases hstores
  | exchangeLifecycle =>
      change Bool at answer
      cases answer with
      | false => exact .refl _ _ _
      | true => exact .refl _ _ _
  | releaseLifecycle =>
      obtain ⟨-, state, hstage⟩ := hallowed
      rw [hstage]
      exact .of_neutral rfl rfl
  | beginStopService other => exact hturn other answer
  | beginStopComponent other => exact hturn other answer
  | takeHook other hook =>
      obtain ⟨log, heq⟩ := takeHook_log other hook answer progress
      rw [heq]
      exact .refl _ _ _
  | finishDestroy other =>
      change progress.stage.Preserves
        (if other.kind = .actor then progress.turn other true else progress).stage id object
      split
      · exact hturn other true
      · exact .refl _ _ _
  | _ => exact .refl _ _ _

omit [Infra] in
/-- A transition explains nothing as an installation would. -/
theorem appState_stage {stage : Stage} {known : AppState}
    (hknown : stage.appState = some known) (id : ObjectId) :
    stage.installs id = false ∧ stage.places id = false := by
  cases stage with
  | installing other => cases hknown
  | placed other => cases hknown
  | launching other => cases hknown
  | _ => simp [Stage.installs, Stage.places]

omit [Infra] in
/-- A thread that stores an application state has served its list. -/
theorem stores_stage {state : AppState} (hstores : progress.stores state) :
    ∃ known, progress.stage.appState = some known ∧
      ∀ id, progress.stage.starts id = false := by
  obtain ⟨lifecycle, stage, log, failed⟩ := progress
  have hstage : ∀ known : Stage, (∃ state, known.appState = some state) →
      (∀ id, known.starts id = false) → stage = known →
      ∃ state, stage.appState = some state ∧ ∀ id, stage.starts id = false := by
    rintro known ⟨state, happ⟩ hstarts rfl
    exact ⟨state, happ, hstarts⟩
  cases state with
  | created => exact hstores.elim
  | starting =>
      obtain h | h := hstores
      · exact hstage _ ⟨_, rfl⟩ (fun _ => rfl) h
      · exact hstage _ ⟨_, rfl⟩ (fun _ => rfl) h
  | running =>
      obtain h | h | ⟨h, -⟩ := hstores
      · exact hstage _ ⟨_, rfl⟩ (fun _ => rfl) h
      · exact hstage _ ⟨_, rfl⟩ (fun _ => rfl) h
      · exact hstage _ ⟨_, rfl⟩ (fun _ => rfl) h
  | paused => exact hstage _ ⟨_, rfl⟩ (fun _ => rfl) hstores
  | stopping =>
      obtain ⟨before, -, h⟩ := hstores
      exact hstage _ ⟨_, rfl⟩ (fun _ => rfl) h
  | stopIncomplete =>
      obtain ⟨clean, h⟩ := hstores
      exact hstage _ ⟨_, rfl⟩ (fun _ => rfl) h
  | stopped => exact hstage _ ⟨_, rfl⟩ (fun _ => rfl) hstores

omit [Infra] in
theorem stores_running (hstores : progress.stores .running)
    (hfailed : progress.failed = false) (id : ObjectId) :
    progress.stage.misses id = true ∧ progress.stage.forgets id = true := by
  obtain ⟨lifecycle, stage, log, failed⟩ := progress
  obtain h | h | ⟨-, h⟩ := hstores
  · obtain rfl : stage = .starting [] := h
    have hmisses : (Stage.starting []).misses id = true := by simp [Stage.misses]
    exact ⟨hmisses, rfl⟩
  · obtain rfl : stage = .resuming [] := h
    have hforgets : (Stage.resuming []).forgets id = true := by simp [Stage.forgets]
    exact ⟨rfl, hforgets⟩
  · rw [hfailed] at h
    cases h

omit [Infra] in
/-- The transition that leaves services `Paused` stores `Paused`. -/
theorem stores_pauses {state : AppState} (hstores : progress.stores state)
    (hpauses : progress.stage.pauses = true) : state = .paused := by
  obtain ⟨lifecycle, stage, log, failed⟩ := progress
  cases stage with
  | pausing remaining =>
      cases state with
      | paused => rfl
      | created => exact hstores.elim
      | starting => obtain h | h := hstores <;> cases h
      | running => obtain h | h | ⟨h, -⟩ := hstores <;> cases h
      | stopping => obtain ⟨before, -, h⟩ := hstores; cases h
      | stopIncomplete => obtain ⟨clean, h⟩ := hstores; cases h
      | stopped => cases hstores
  | _ => cases hpauses

omit [Infra] in
theorem balanced_store {state : AppState} (hstores : progress.stores state)
    (hfailed : progress.failed = false) (hstage : stages thread = progress.stage)
    (hothers : ∀ other, other ≠ thread → (stages other).appState = none)
    (hbalanced : Balanced world.state world.registry stages) :
    Balanced state world.registry (Function.update stages thread (.knows state)) := by
  intro id entry hfind hstartable
  have hexplained := hbalanced id entry hfind hstartable
  obtain ⟨known, hknown, hstarts⟩ := stores_stage hstores
  obtain ⟨hinstalls, hplaces⟩ := appState_stage hknown id
  cases hstate : entry.state with
  | created => rwa [hstate] at hexplained
  | installing =>
      rw [hstate] at hexplained
      refine exists_update (fun stage => stage.installs id) hexplained ?_
      rw [hstage, hinstalls]
      exact nofun
  | starting =>
      rw [hstate] at hexplained
      refine exists_update (fun stage => stage.starts id) hexplained ?_
      rw [hstage, hstarts id]
      exact nofun
  | installed =>
      rw [hstate] at hexplained
      obtain hplaced | ⟨-, hmisses⟩ := hexplained
      · refine Or.inl (exists_update (fun stage => stage.places id) hplaced ?_)
        rw [hstage, hplaces]
        exact nofun
      · refine Or.inr ⟨?_, forall_update (fun stage => stage.misses id) hmisses
          (fun _ => rfl)⟩
        rintro rfl
        have hmissed := hmisses thread
        rw [hstage, (stores_running hstores hfailed id).1] at hmissed
        cases hmissed
  | paused =>
      rw [hstate] at hexplained
      refine ⟨hexplained.1, Or.inr ?_⟩
      obtain ⟨other, hpauses⟩ | ⟨-, hforgets⟩ := hexplained.2
      · by_cases heq : other = thread
        · subst heq
          rw [hstage] at hpauses
          obtain rfl := stores_pauses hstores hpauses
          refine ⟨nofun, ?_⟩
          intro other'
          by_cases heq' : other' = other
          · rw [heq', Function.update_self]
            rfl
          · rw [Function.update_of_ne heq']
            have hnone := hothers other' heq'
            cases hcase : stages other' with
            | starting remaining => rw [hcase] at hnone; cases hnone
            | resuming remaining => rw [hcase] at hnone; cases hnone
            | _ => rfl
        · have hnone := hothers other heq
          cases hcase : stages other with
          | pausing remaining => rw [hcase] at hnone; cases hnone
          | _ => rw [hcase] at hpauses; cases hpauses
      · refine ⟨?_, forall_update (fun stage => stage.forgets id) hforgets
          (fun _ => rfl)⟩
        rintro rfl
        have hforgot := hforgets thread
        rw [hstage, (stores_running hstores hfailed id).2] at hforgot
        cases hforgot
  | _ => trivial

omit [Infra] in
theorem preserves_setState {id other : ObjectId} {state object : ObjectState}
    (hwrites : Progress.writes id state progress.stage) (hne : other ≠ id)
    (hfailed : (progress.afterState state).failed = false) :
    progress.stage.Preserves (progress.afterState state).stage other object := by
  obtain ⟨lifecycle, stage, log, failed⟩ := progress
  have htail : ∀ remaining : List ObjectId, remaining.head? = some id →
      other ∈ remaining → other ∈ remaining.tail := by
    intro remaining hhead hmem
    cases remaining with
    | nil => cases hmem
    | cons first rest =>
        obtain rfl := Option.some.inj hhead
        exact (List.mem_cons.mp hmem).resolve_left hne
  have hnever : ∀ {given shown : Prop}, given → false = true → shown :=
    fun _ h => absurd h Bool.false_ne_true
  have halways : ∀ {given shown : Prop}, given → true = false → shown :=
    fun _ h => absurd h.symm Bool.false_ne_true
  cases stage with
  | installing placed =>
      obtain ⟨rfl, rfl | rfl⟩ := hwrites
      · refine ⟨?_, hnever, hnever, hnever, fun _ _ => rfl, fun _ _ => rfl⟩
        intro _ hinstalls
        have heq : id = other := by simpa [Stage.installs] using hinstalls
        exact absurd heq.symm hne
      · refine ⟨?_, hnever, hnever, hnever, fun _ _ => rfl, fun _ _ => rfl⟩
        intro _ hinstalls
        have heq : id = other := by simpa [Stage.installs] using hinstalls
        exact absurd heq.symm hne
  | launching placed =>
      have hidle : (Stage.launching placed).Preserves .idle other object := by
        refine ⟨hnever, ?_, ?_, hnever, fun _ _ => rfl, fun _ _ => rfl⟩
        · intro _ hplaces
          have heq : placed = other := by simpa [Stage.places] using hplaces
          exact absurd (heq.symm.trans hwrites.1.symm) hne
        · intro _ hstarts
          exact absurd ((of_decide_eq_true hstarts).trans hwrites.1.symm) hne
      obtain ⟨-, rfl | rfl | rfl⟩ := hwrites
      · exact .refl _ _ _
      · exact hidle
      · exact hidle
  | starting remaining =>
      obtain ⟨hhead, rfl | rfl | rfl⟩ := hwrites
      · exact .refl _ _ _
      · refine ⟨hnever, hnever, ?_, hnever, ?_, halways⟩
        · exact fun _ hmem => decide_eq_true
            (htail remaining hhead (of_decide_eq_true hmem))
        · intro _ hmem
          exact decide_eq_false (not_not_intro
            (htail remaining hhead (not_not.mp (of_decide_eq_false hmem))))
      · cases hfailed
  | pausing remaining =>
      obtain ⟨hhead, -, rfl | rfl⟩ := hwrites
      · exact ⟨hnever, hnever, hnever, fun _ _ => rfl, fun _ _ => rfl, fun _ _ => rfl⟩
      · cases hfailed
  | resuming remaining =>
      obtain ⟨hhead, rfl | rfl⟩ := hwrites
      · refine ⟨hnever, hnever, hnever, hnever, halways, ?_⟩
        intro _ hmem
        exact decide_eq_false (not_not_intro
          (htail remaining hhead (not_not.mp (of_decide_eq_false hmem))))
      · cases hfailed
  | _ => exact hwrites.elim

omit [Infra] in
theorem explained_setState {id : ObjectId} {state : ObjectState} {app : AppState}
    (hwrites : Progress.writes id state progress.stage)
    (hfailed : (progress.afterState state).failed = false) :
    Explained app (Function.update stages thread (progress.afterState state).stage) id
      state := by
  have hwitness : ∀ (test : Stage → Bool) (stage : Stage), test stage = true →
      ∃ other, test (Function.update stages thread stage other) = true := by
    intro test stage htest
    exact ⟨thread, by rwa [Function.update_self]⟩
  obtain ⟨lifecycle, stage, log, failed⟩ := progress
  cases stage with
  | installing placed =>
      obtain ⟨rfl, rfl | rfl⟩ := hwrites
      · exact Or.inl (hwitness (fun stage => stage.places id) (.placed id)
          (decide_eq_true (Or.inl rfl)))
      · trivial
  | launching placed =>
      obtain ⟨rfl, rfl | rfl | rfl⟩ := hwrites
      · exact hwitness (fun stage => stage.starts id) (.launching id) (decide_eq_true rfl)
      · trivial
      · trivial
  | starting remaining =>
      obtain ⟨hhead, rfl | rfl | rfl⟩ := hwrites
      · exact hwitness (fun stage => stage.starts id) (.starting remaining)
          (decide_eq_true (List.mem_of_head? hhead))
      · trivial
      · trivial
  | pausing remaining =>
      obtain ⟨hhead, hkind, rfl | rfl⟩ := hwrites
      · exact ⟨hkind, Or.inl (hwitness Stage.pauses _ rfl)⟩
      · trivial
  | resuming remaining =>
      obtain ⟨hhead, rfl | rfl⟩ := hwrites
      · trivial
      · trivial
  | _ => exact hwrites.elim

omit [Infra] in
theorem balanced_setState {id : ObjectId} {state : ObjectState}
    (hwrites : Progress.writes id state progress.stage)
    (hfailed : (progress.afterState state).failed = false)
    (hstage : stages thread = progress.stage)
    (hbalanced : Balanced world.state world.registry stages) :
    Balanced world.state (world.registry.setStateLocked id state)
      (Function.update stages thread (progress.afterState state).stage) := by
  intro other later hfind hstartable
  rw [Registry.setStateLocked, Registry.findEntryLocked_modify] at hfind
  split at hfind
  case isTrue heq =>
    subst heq
    obtain ⟨earlier, -, rfl⟩ := Option.map_eq_some_iff.mp hfind
    exact explained_setState hwrites hfailed
  case isFalse hne =>
    refine (hbalanced other later hfind hstartable).update (fun h => h) ?_
    rw [hstage]
    exact preserves_setState hwrites hne hfailed

namespace Progress

omit [Infra] in
theorem failed_turn (progress : Progress) (id : ObjectId) (begun : Bool) :
    (progress.turn id begun).failed = progress.failed := by
  unfold turn
  split
  · rfl
  · rfl

omit [Infra] in
theorem failed_afterState (state : ObjectState) (progress : Progress)
    (hfailed : progress.failed = true) : (progress.afterState state).failed = true := by
  obtain ⟨lifecycle, stage, log, failed⟩ := progress
  unfold afterState
  repeat' split
  all_goals first | exact hfailed | rfl

omit [Infra] in
/-- A transition whose hook has failed stays failed. -/
theorem failed_after (act : Action) (answer : act.Answer) (progress : Progress)
    (hfailed : progress.failed = true) : (after act answer progress).failed = true := by
  obtain ⟨lifecycle, stage, log, failed⟩ := progress
  cases act with
  | query query =>
      cases query with
      | loadState =>
          cases stage with
          | idle => cases lifecycle <;> exact hfailed
          | _ => exact hfailed
      | pendingCleanup => cases stage <;> exact hfailed
      | _ => exact hfailed
  | command command =>
      cases command with
      | exchangeLifecycle =>
          change Bool at answer
          cases answer <;> exact hfailed
      | createComponent key =>
          change Except Error ObjectId at answer
          cases answer <;> exact hfailed
      | createService name allowed =>
          change Except Error ObjectHandle at answer
          cases answer <;> exact hfailed
      | setState id state => exact failed_afterState state _ hfailed
      | beginStopService id => exact (failed_turn _ id answer).trans hfailed
      | beginStopComponent id => exact (failed_turn _ id answer).trans hfailed
      | takeHook id hook =>
          obtain ⟨log', heq⟩ := takeHook_log id hook answer ⟨lifecycle, stage, log, failed⟩
          exact (congrArg Progress.failed heq).trans hfailed
      | finishDestroy id =>
          change (if id.kind = .actor then turn ⟨lifecycle, stage, log, failed⟩ id true
            else ⟨lifecycle, stage, log, failed⟩).failed = true
          split
          · exact (failed_turn _ id true).trans hfailed
          · exact hfailed
      | _ => exact hfailed

end Progress

omit [Infra] in
theorem stage_update (views : Nat → Progress) (progress : Progress) :
    (fun other => (Function.update views thread progress other).stage) =
      Function.update (fun other => (views other).stage) thread progress.stage := by
  funext other
  by_cases heq : other = thread
  · rw [heq, Function.update_self, Function.update_self]
  · rw [Function.update_of_ne heq, Function.update_of_ne heq]

omit [Infra] in
theorem balanced_register {last : AppWorld} {kind : ObjectKind} {stage : Stage}
    (hcreated : world.Created kind last)
    (hstage : kind = .actor ∧ stage = stages thread ∨
      (stages thread).neutral = true ∧
        stage = .installing ⟨kind, world.registry.nextIdSeq⟩)
    (hbalanced : Balanced world.state world.registry stages) :
    Balanced last.state last.registry (Function.update stages thread stage) := by
  have hstate : last.state = world.state := by
    obtain ⟨typeName, name, scope, ownerId, object, rfl⟩ := hcreated
    rfl
  have hpreserves : ∀ id object, (stages thread).Preserves stage id object := by
    intro id object
    obtain ⟨-, rfl⟩ | ⟨hneutral, rfl⟩ := hstage
    · exact .refl _ _ _
    · exact preserves_of_idle hneutral (fun _ => rfl) (fun _ => rfl)
  intro id later hfind hstartable
  rw [hstate]
  obtain hfound | ⟨rfl, _, _, _, _, _, rfl⟩ := hcreated.find hfind
  · exact (hbalanced id later hfound hstartable).update (fun h => h)
      (hpreserves id later.state)
  · obtain ⟨rfl, -⟩ | ⟨-, rfl⟩ := hstage
    · cases hstartable
    · have hinstalling : kind.installState = .installing := by
        cases kind with
        | actor => cases hstartable
        | _ => rfl
      change Explained _ _ _ kind.installState
      rw [hinstalling]
      exact ⟨thread, by rw [Function.update_self]; exact decide_eq_true rfl⟩

theorem balanced_command {last : AppWorld} {command : Command} {choice : Choice}
    {answer : command.Answer} (hallowed : Progress.allowsCommand command progress)
    (happly : world.apply command choice = some (answer, last))
    (hfailed : (Progress.afterCommand command answer progress).failed = false)
    (hstage : stages thread = progress.stage)
    (hothers : progress.lifecycle = true →
      ∀ other, other ≠ thread → (stages other).appState = none)
    (hbalanced : Balanced world.state world.registry stages) :
    Balanced last.state last.registry (Function.update stages thread
      (Progress.afterCommand command answer progress).stage) := by
  have hsame : Balanced world.state world.registry
      (Function.update stages thread progress.stage) := by
    rw [← hstage, Function.update_eq_self]
    exact hbalanced
  cases command with
  | storeState state =>
      cases happly
      have hstored : Balanced state world.registry
          (Function.update stages thread (.knows state)) :=
        balanced_store hallowed.2 hfailed hstage (hothers hallowed.1) hbalanced
      exact hstored
  | setState id state =>
      cases happly
      exact balanced_setState hallowed hfailed hstage hbalanced
  | createComponent key =>
      have hneutral : (stages thread).neutral = true := by
        rw [hstage, hallowed.2]
        rfl
      replace happly := Option.some.inj happly
      obtain ⟨error, heq⟩ | ⟨made, heq, hcreated⟩ := world.createComponent_cases key
      · cases heq.symm.trans happly
        exact hsame
      · cases heq.symm.trans happly
        exact balanced_register hcreated (Or.inr ⟨hneutral, rfl⟩) hbalanced
  | createService name allowed =>
      have hneutral : (stages thread).neutral = true := by
        rw [hstage, hallowed.2]
        rfl
      replace happly := Option.some.inj happly
      obtain ⟨error, heq⟩ | ⟨made, heq, hcreated⟩ :=
        world.createService_cases name allowed
      · cases heq.symm.trans happly
        exact hsame
      · cases heq.symm.trans happly
        exact balanced_register hcreated (Or.inr ⟨hneutral, rfl⟩) hbalanced
  | createActorType type =>
      replace happly := Option.some.inj happly
      obtain ⟨error, heq⟩ | ⟨made, heq, hcreated⟩ := world.createActorType_cases type
      · cases heq.symm.trans happly
        exact hsame
      · cases heq.symm.trans happly
        exact balanced_register hcreated (Or.inl ⟨rfl, hstage.symm⟩) hbalanced
  | _ =>
      refine hbalanced.sinks (apply_sinks rfl hallowed happly) ?_ ?_
      · rw [(AppWorld.apply_framed happly).state rfl]
        exact fun h => h
      · intro id entry _ _
        rw [hstage]
        exact preserves_command hallowed rfl rfl id entry.state

/-! ## Over runs -/

/-- While no transition has failed, everything is explained. -/
def Accounted (world : AppWorld) (views : Nat → Progress) : Prop :=
  (∀ thread, (views thread).failed = false) →
    Balanced world.state world.registry (fun thread => (views thread).stage)

omit [Infra] in
theorem mem_of_inState {registry : Registry} {id : ObjectId} {state : ObjectState}
    (hin : registry.inState id state = true) : id ∈ registry.listIdsLocked := by
  cases hfind : registry.findEntryLocked id with
  | none =>
      rw [Registry.inState, hfind] at hin
      cases hin
  | some entry => exact Table.mem_order.mpr (Table.mem_of_lookup hfind)

variable {pool : StagedPool}

theorem listsComplete_query {query : Query} {choice : Choice} {answer : query.Answer}
    {last : AppWorld}
    (hacts : stagedSystem.Acts ListsComplete pool thread choice (.query query) answer last) :
    ((Action.query query).takesInstalled = true →
      ∀ id, pool.shared.registry.inState id .paused = false) ∧
    ((Action.query query).takesPaused = true → ∀ id, id.startable = true →
      pool.shared.registry.inState id .installed = true →
        ∃ other, (pool.views other).stage.places id = true) ∧
    ((Action.query query).looks = true →
      ∀ id, (pool.views thread).stage = .placed id →
        pool.shared.state = .running ∨
          pool.shared.registry.inState id .installed = false ∨
            ∀ other, (pool.views other).stage.misses id = false) := by
  have hasked : pool.asked (.step thread choice : AppStep) = some (.query query) := by
    obtain ⟨rest, hrest⟩ := hacts.asked
    rw [Pool.asked, hrest, Program.asks]
  obtain ⟨hstart, hresume, hlook⟩ := hacts.guarded _ hasked
  refine ⟨?_, ?_, ?_⟩
  · intro htakes id
    by_contra hpaused
    have hin := (Bool.not_eq_false _).mp hpaused
    exact hpaused (hstart htakes id (mem_of_inState hin))
  · intro htakes id hstartable hin
    obtain ⟨other, -, hplaces⟩ := hresume htakes id (mem_of_inState hin) hstartable hin
    exact ⟨other, hplaces⟩
  · intro hlooks id hstage
    have hplaced : (pool.views thread).stage.placed? = some id := by rw [hstage]; rfl
    refine (hlook hlooks thread rfl id hplaced).imp_right (Or.imp_right ?_)
    intro hmisses other
    by_cases hlt : other < pool.count
    · exact hmisses other hlt
    · rw [System.views_of_ge hacts.reach other (Nat.le_of_not_lt hlt)]
      rfl

theorem accounted_of_reachable
    (hreach : stagedSystem.machine.ReachableWhere ListsComplete pool) :
    Accounted pool.shared pool.views := by
  refine stagedSystem_disciplined.invariant (motive := Accounted) ?_ ?_ ?_ hreach
  · rintro world ⟨options, maxObjects, maxBindings, -, rfl⟩ _ id entry hfind hstartable
    change (AppWorld.freshRegistry maxObjects maxBindings).findEntryLocked id =
      some entry at hfind
    rw [AppWorld.freshRegistry, Registry.findEntryLocked_append] at hfind
    split at hfind
    case isTrue heq =>
      rw [heq] at hstartable
      cases hstartable
    case isFalse => cases hfind
  · intro pool thread choice act answer last hacts haccounted hfailed
    have hthread := hfailed thread
    rw [Function.update_self] at hthread
    have hbefore : ∀ other, (pool.views other).failed = false := by
      intro other
      by_cases heq : other = thread
      · subst heq
        by_contra hset
        have hafter := Progress.failed_after act answer _ ((Bool.not_eq_false _).mp hset)
        cases hthread.symm.trans hafter
      · have hother := hfailed other
        rwa [Function.update_of_ne heq] at hother
    have hbalanced := haccounted hbefore
    rw [stage_update]
    cases act with
    | query query =>
        obtain ⟨hanswer, rfl⟩ := AppWorld.perform_query hacts.performed
        obtain ⟨hstart, hresume, hlook⟩ := listsComplete_query hacts
        exact balanced_query hacts.allowed hanswer rfl hstart hresume hlook hbalanced
    | command command =>
        have happly := AppWorld.perform_command hacts.performed
        refine balanced_command hacts.allowed happly hthread rfl ?_ hbalanced
        -- The transition that stores the application state is alone.
        intro hheld other hne
        by_contra hknows
        obtain ⟨state, hstate⟩ := Option.ne_none_iff_exists'.mp hknows
        have hother := (stagedSystem_informed hacts.reach other state hstate).2
        exact hne ((stagedSystem_alone hacts.reach).alone other thread hother hheld)
  · intro pool event last _ _ hreact haccounted hfailed
    have hundisturbed := AppWorld.event_undisturbed (AppWorld.react_event hreact)
    intro id later hfind hstartable
    have hagree : Registry.Agree RegistryEntry.state pool.shared.registry last.registry :=
      hundisturbed.agree (fun _ _ _ _ => rfl)
    obtain ⟨earlier, hearlier, heq⟩ := hagree.find_some hfind
    rw [hundisturbed.state, ← heq]
    exact haccounted hfailed id earlier hearlier hstartable

def ObjectState.unsettled : ObjectState → Bool
  | .created | .installing | .installed | .starting | .paused => true
  | _ => false

omit [Infra] in
/-- At rest nothing explains such a state while the application runs. -/
theorem Explained.settled {id : ObjectId} {object : ObjectState}
    (hidle : ∀ thread, stages thread = .idle)
    (hexplained : Explained .running stages id object) : object.unsettled = false := by
  cases object with
  | created => exact hexplained.elim
  | installing =>
      obtain ⟨thread, hinstalls⟩ := hexplained
      rw [hidle] at hinstalls
      cases hinstalls
  | installed =>
      obtain ⟨thread, hplaces⟩ | ⟨hrunning, -⟩ := hexplained
      · rw [hidle] at hplaces
        cases hplaces
      · exact absurd rfl hrunning
  | starting =>
      obtain ⟨thread, hstarts⟩ := hexplained
      rw [hidle] at hstarts
      cases hstarts
  | paused =>
      obtain ⟨thread, hpauses⟩ | ⟨hrunning, -⟩ := hexplained.2
      · rw [hidle] at hpauses
        cases hpauses
      · exact absurd rfl hrunning
  | _ => rfl

omit [Infra] in
/-- No operation is in progress, and all calls have returned ok. -/
def AllOk (pool : StagedPool) : Prop :=
  ∀ thread < pool.count, (pool.threads thread).returned.any Outcome.isOk = true

instance (pool : StagedPool) : Decidable (AllOk pool) :=
  inferInstanceAs (Decidable (∀ thread < _, _ = _))

/-- Once all calls have returned ok and the application runs, every service and
component was started, and none is paused. -/
theorem running_settled
    (hreach : stagedSystem.machine.ReachableWhere ListsComplete pool)
    (hreturned : AllOk pool) (hrunning : pool.shared.state = .running) :
    ∀ id entry, pool.shared.registry.findEntryLocked id = some entry →
      id.startable = true → entry.state.unsettled = false := by
  have hrest : ∀ thread,
      (pool.views thread).stage = .idle ∧ (pool.views thread).failed = false := by
    intro thread
    by_cases hlt : thread < pool.count
    · obtain ⟨outcome, hdone, hok⟩ := (Option.any_eq_true _ _).mp (hreturned thread hlt)
      obtain ⟨-, hidle, hfailed⟩ := stagedSystem_disciplined.returned hreach hdone
      exact ⟨hidle, hfailed hok⟩
    · rw [System.views_of_ge hreach thread (Nat.le_of_not_lt hlt)]
      exact ⟨rfl, rfl⟩
  intro id entry hfind hstartable
  have hexplained := accounted_of_reachable hreach (fun thread => (hrest thread).2)
    id entry hfind hstartable
  rw [hrunning] at hexplained
  exact hexplained.settled (fun thread => (hrest thread).1)

end

/-- The calls the agreement is about. -/
def Entry.raises : Entry → Bool
  | .coInstallComponent _ _ _ | .coInstallService _ _ _ _ => true
  | .coStart | .coPause | .coResume => true
  | _ => false

/-- Only such calls are made. -/
def OnlyRaises (_ : StagedPool) (label : AppStep) : Prop :=
  ∀ entry ∈ label.spawned, entry.raises = true

instance (pool : StagedPool) (label : AppStep) : Decidable (OnlyRaises pool label) :=
  inferInstanceAs (Decidable (∀ entry ∈ _, _ = _))

def pauseSteps : List AppStep :=
  [.spawn (.coInstallService (.ok ()) "s" [] []), .spawn .coStart, .spawn .coPause] ++
    List.replicate 8 (smoothStep 0) ++
    List.replicate 8 (smoothStep 1) ++ hookSteps 1 0 ++ List.replicate 3 (smoothStep 1) ++
    List.replicate 5 (smoothStep 2) ++ hookSteps 2 1 ++ List.replicate 3 (smoothStep 2)

/-- The paused service is resumed. -/
theorem running_settled_resumed :
    letI := permissiveInfra
    ∃ pool, stagedSystem.machine.ReachableWhere ListsComplete pool ∧ AllOk pool ∧
      pool.shared.state = .running ∧ pool.count = 4 ∧
      ∀ id entry, pool.shared.registry.findEntryLocked id = some entry →
        id.startable = true → entry.state.unsettled = false := by
  let _ := permissiveInfra
  have hboot : stagedSystem.machine.ReachableWhere ListsComplete
      (stagedSystem.boot (AppWorld.fresh (.ok ()) 10 10)) :=
    .start ⟨_, start_fresh 10 10 (by decide), rfl⟩
  obtain ⟨pool, hreach, htest⟩ := hboot.exec_any
    (fun pool label => decide (ListsComplete pool label))
    (fun _ _ => of_decide_eq_true)
    (pauseSteps ++ [.spawn .coResume] ++ List.replicate 5 (smoothStep 3) ++
      hookSteps 3 2 ++ List.replicate 3 (smoothStep 3))
    (fun pool => AllOk pool ∧ pool.shared.state = .running ∧ pool.count = 4)
    (by decide)
  obtain ⟨hreturned, hrunning, hcount⟩ := of_decide_eq_true htest
  exact ⟨pool, hreach, hreturned, hrunning, hcount,
    running_settled hreach hreturned hrunning⟩

/-- A start accepts the paused application, and does not find the service. -/
theorem running_unsettled :
    letI := permissiveInfra
    ¬∀ pool, stagedSystem.machine.ReachableWhere OnlyRaises pool → AllOk pool →
      pool.shared.state = .running →
      ∀ id entry, pool.shared.registry.findEntryLocked id = some entry →
        id.startable = true → entry.state.unsettled = false := by
  let _ := permissiveInfra
  intro hclaim
  have hboot : stagedSystem.machine.ReachableWhere OnlyRaises
      (stagedSystem.boot (AppWorld.fresh (.ok ()) 10 10)) :=
    .start ⟨_, start_fresh 10 10 (by decide), rfl⟩
  obtain ⟨pool, hreach, htest⟩ := hboot.exec_any
    (fun pool label => decide (OnlyRaises pool label))
    (fun _ _ => of_decide_eq_true)
    (pauseSteps ++ [.spawn .coStart] ++ List.replicate 7 (smoothStep 3))
    (fun pool => AllOk pool ∧ pool.shared.state = .running ∧
      pool.shared.registry.inState ⟨.service, 1⟩ .paused = true)
    (by decide)
  obtain ⟨hreturned, hrunning, hpaused⟩ := of_decide_eq_true htest
  obtain ⟨entry, hfind, hstate⟩ := (Option.any_eq_true _ _).mp hpaused
  have hsettled := hclaim pool hreach hreturned hrunning ⟨.service, 1⟩ entry hfind rfl
  rw [of_decide_eq_true hstate] at hsettled
  cases hsettled

end BbtFramework.App
