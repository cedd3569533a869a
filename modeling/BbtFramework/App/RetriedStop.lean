import BbtFramework.App.QueuedStops
import BbtFramework.App.StopComplete
import BbtFramework.Library.Interference

/-!
# Stops that are tried again

A teardown that fails leaves its object registered.  A later `CoStop` that takes the object
on, waits for its borrows and its hooks with success and gets `ok` from `OnStop` removes it,
whatever the earlier attempts have left behind and whatever the other calls do meanwhile.
-/

namespace BbtFramework.App

open BbtFramework.Library

namespace AppWorld

def objectOf (world : AppWorld) (task : Nat) : Option ObjectId :=
  (world.tasks[task]?).map HookTask.object

/-- Ids are not given a second time, and tasks keep their object. -/
structure GoesOn (world last : AppWorld) : Prop where
  ids : world.registry.nextIdSeq ≤ last.registry.nextIdSeq
  gone : ∀ id : ObjectId, id.number < world.registry.nextIdSeq →
    world.registry.findEntryLocked id = none → last.registry.findEntryLocked id = none
  tasks : ∀ task object, world.objectOf task = some object →
    last.objectOf task = some object

/-- The id was given to an object. -/
def Known (id : ObjectId) (world : AppWorld) : Prop :=
  id.number < world.registry.nextIdSeq

def Gone (id : ObjectId) (world : AppWorld) : Prop :=
  world.Known id ∧ world.registry.findEntryLocked id = none

variable {world last : AppWorld} {id : ObjectId} {task : Nat} {object : ObjectId}

theorem GoesOn.known (hgoes : world.GoesOn last) (hknown : Known id world) : Known id last :=
  Nat.lt_of_lt_of_le hknown hgoes.ids

theorem GoesOn.stays (hgoes : world.GoesOn last) (hgone : Gone id world) : Gone id last :=
  ⟨hgoes.known hgone.1, hgoes.gone id hgone.1 hgone.2⟩

theorem objectOf_move {asked : Option Action} {before after : List HookTask}
    (hmove : TaskMove asked before after)
    (hobject : (before[task]?).map HookTask.object = some object) :
    (after[task]?).map HookTask.object = some object := by
  obtain ⟨found, hfound, rfl⟩ := Option.map_eq_some_iff.mp hobject
  cases hmove with
  | same => exact hobject
  | taken id hook hasked =>
      rw [List.getElem?_append_left (List.getElem?_eq_some_iff.mp hfound).1]
      exact hobject
  | moved index other phase hother hphase =>
      by_cases heq : index = task
      · subst heq
        obtain rfl := Option.some.inj (hfound.symm.trans hother)
        rw [List.getElem?_set_self (List.getElem?_eq_some_iff.mp hfound).1]
        rfl
      · rw [List.getElem?_set_ne heq]
        exact hobject

variable [Infra]

theorem GoesOn.of_moves {asked : Option Action} (hstep : world.AgeStep asked last)
    (hmove : TaskMove asked world.tasks last.tasks) : world.GoesOn last where
  ids := hstep.inherits.ids
  gone := by
    intro id hknown hnone
    cases hlater : last.registry.findEntryLocked id with
    | none => rfl
    | some later =>
        obtain ⟨earlier, hearlier, -⟩ | ⟨hnew, -⟩ := hstep.inherits.entries id later hlater
        · rw [hnone] at hearlier
          cases hearlier
        · exact absurd hknown (Nat.not_lt.mpr hnew)
  tasks := fun _ _ => objectOf_move hmove

theorem perform_goesOn {act : Action} {choice : Choice} {answer : act.Answer}
    (hperform : world.perform act choice = some (answer, last)) : world.GoesOn last := by
  obtain ⟨-, -, hstep, hmove⟩ := perform_moves hperform
  exact .of_moves hstep hmove

end AppWorld

section

variable [Infra]

/-- The stop takes the object on: no other transition is running, the application is not
stopped, and no other teardown of the object is in progress when its turn comes. -/
def TakesOn (id : ObjectId) (world : AppWorld) : Action → Bool
  | .command .exchangeLifecycle => !world.lifecycleActive
  | .query .loadState => world.state ≠ .stopped
  | .command (.beginStopService object) | .command (.beginStopComponent object) =>
      object = id → ((world.registry.findEntryLocked id).all
        (fun entry => !entry.opInProgress)) = true
  | _ => true

/-- The borrows of the object are returned, none of its earlier hooks is running, and its
`OnStop` returns `ok`. -/
def Cooperates (id : ObjectId) (world : AppWorld) (choice : Choice) : Action → Bool
  | .query (.awaitBorrows component) => component = id → choice = .proceed
  | .query (.awaitBinding _ subject _) => subject = id → choice = .proceed
  | .command (.checkSettled object _) | .query (.hookInFlight object) =>
      object = id → world.registry.hooksSettled id = true
  | .command (.submitHook task) =>
      world.objectOf task = some id → choice = .submission .accepted
  | .query (.awaitSlot task) =>
      world.objectOf task = some id → choice = .wait .completed ∧
        (world.tasks[task]?).any (fun found => found.phase = .settled (.ok ())) = true
  | _ => true

/-- The answers that follow. -/
def Promised (id : ObjectId) (world : AppWorld) : (act : Action) → act.Answer → Prop
  | .command .exchangeLifecycle, (active : Bool) => active = false
  | .query .loadState, (state : AppState) => state ≠ .stopped
  | .command (.beginStopService object), (begun : Bool)
  | .command (.beginStopComponent object), (begun : Bool) =>
      object = id → begun = false → world.registry.findEntryLocked id = none
  | .query (.awaitBorrows component), (result : Except Error Unit) =>
      component = id → result = .ok ()
  | .query (.awaitBinding _ subject _), (result : Except Error Unit) =>
      subject = id → result = .ok ()
  | .command (.checkSettled object _), (settled : Bool) => object = id → settled = true
  | .query (.hookInFlight object), (inFlight : Bool) => object = id → inFlight = false
  | .command (.submitHook task), (submission : Submission) =>
      world.objectOf task = some id → submission = .accepted
  | .query (.awaitSlot task), (result : Except Error Unit) =>
      world.objectOf task = some id → result = .ok ()
  | _, _ => True

variable {world last : AppWorld} {id : ObjectId} {choice : Choice}

omit [Infra] in
theorem gone_of_not_begun
    (hfree : ((world.registry.findEntryLocked id).all
      (fun entry => !entry.opInProgress)) = true)
    (hbegun : (world.registry.findEntryLocked id).bind Registry.beginOpLocked = none) :
    world.registry.findEntryLocked id = none := by
  cases hfind : world.registry.findEntryLocked id with
  | none => rfl
  | some entry =>
      rw [hfind] at hfree hbegun
      have hidle : entry.opInProgress = false := by simpa using hfree
      rw [Option.bind_some, Registry.beginOpLocked, hidle] at hbegun
      cases hbegun

theorem AppWorld.awaitDrained_proceed {ready : Bool} {result : Except Error Unit}
    (hresult : AppWorld.awaitDrained ready .proceed = some result) : result = .ok () := by
  rw [AppWorld.awaitDrained] at hresult
  split at hresult
  · exact (Option.some.inj hresult).symm
  · cases hresult

theorem promised_query {query : Query} {answer : query.Answer}
    (htakes : TakesOn id world (.query query) = true)
    (hcooperates : Cooperates id world choice (.query query) = true)
    (hanswer : world.answer query choice = some answer) :
    Promised id world (.query query) answer := by
  cases query with
  | loadState =>
      cases hanswer
      have hstate : world.state ≠ .stopped := of_decide_eq_true htakes
      exact hstate
  | awaitBorrows component =>
      intro heq
      obtain rfl := of_decide_eq_true hcooperates heq
      exact AppWorld.awaitDrained_proceed hanswer
  | awaitBinding component subject generation =>
      intro heq
      obtain rfl := of_decide_eq_true hcooperates heq
      exact AppWorld.awaitDrained_proceed hanswer
  | hookInFlight object =>
      rintro rfl
      cases hanswer
      rw [of_decide_eq_true hcooperates rfl, Bool.not_true]
  | awaitSlot task =>
      intro hobject
      obtain ⟨rfl, hsettled⟩ := of_decide_eq_true hcooperates hobject
      obtain ⟨⟨object, hook, phase⟩, hfind, hphase⟩ := (Option.any_eq_true _ _).mp hsettled
      obtain rfl : phase = .settled (.ok ()) := of_decide_eq_true hphase
      simp only [AppWorld.answer, AppWorld.awaitSlot, hfind] at hanswer
      exact (Option.some.inj hanswer).symm
  | _ => trivial

theorem promised_command {command : Command} {answer : command.Answer}
    (htakes : TakesOn id world (.command command) = true)
    (hcooperates : Cooperates id world choice (.command command) = true)
    (happly : world.apply command choice = some (answer, last)) :
    Promised id world (.command command) answer := by
  cases command with
  | exchangeLifecycle =>
      cases happly
      exact Bool.not_eq_true' _ |>.mp htakes
  | beginStopService object =>
      rintro rfl rfl
      refine gone_of_not_begun (of_decide_eq_true htakes rfl) ?_
      replace happly := Option.some.inj happly
      unfold AppWorld.beginStopService at happly
      split at happly
      case h_1 hnone => exact hnone
      case h_2 => cases happly
  | beginStopComponent object =>
      rintro rfl rfl
      refine gone_of_not_begun (of_decide_eq_true htakes rfl) ?_
      replace happly := Option.some.inj happly
      unfold AppWorld.beginStopComponent at happly
      split at happly
      case h_1 hnone => exact hnone
      case h_2 => cases happly
  | checkSettled object hook =>
      rintro rfl
      replace happly := Option.some.inj happly
      rw [AppWorld.checkSettled, if_pos (of_decide_eq_true hcooperates rfl)] at happly
      exact (congrArg Prod.fst happly).symm
  | submitHook task =>
      intro hobject
      obtain rfl := of_decide_eq_true hcooperates hobject
      simp only [AppWorld.apply, AppWorld.submitHook] at happly
      split at happly
      · exact (congrArg Prod.fst (Option.some.inj happly)).symm
      · cases happly
  | _ => trivial

theorem promised {act : Action} {answer : act.Answer} (htakes : TakesOn id world act = true)
    (hcooperates : Cooperates id world choice act = true)
    (hperform : world.perform act choice = some (answer, last)) :
    Promised id world act answer := by
  cases act with
  | query query =>
      exact promised_query htakes hcooperates (AppWorld.perform_query hperform).1
  | command command =>
      exact promised_command htakes hcooperates (AppWorld.perform_command hperform)

/-! ## The stop removes the object -/

/-- The others go on, and the stop gets the answers it may count on. -/
def retryContract (id : ObjectId) : Contract Action Action.Answer AppWorld Unit where
  rely := fun _ world last => world.GoesOn last
  grants := fun act answer _ world => Promised id world act answer
  asserts := fun _ _ _ => True

open AppWorld (Known Gone)

omit [Infra] in
theorem knownId_stable (view : Unit) : (retryContract id).Stable view (Known id) :=
  fun _ _ hknown hgoes => AppWorld.GoesOn.known hgoes hknown

omit [Infra] in
theorem goneId_stable (view : Unit) : (retryContract id).Stable view (Gone id) :=
  fun _ _ hgone hgoes => AppWorld.GoesOn.stays hgoes hgone

/-- From `world` on the program does what `post` says of its result. -/
abbrev Retries {Inner : Type} (id : ObjectId) (program : Op Inner) (world : AppWorld)
    (post : Inner → AppWorld → Prop) : Prop :=
  plainSystem.Secures (retryContract id) program () world (fun value _ last => post value last)

variable {Inner : Type} {post : Inner → AppWorld → Prop}

/-- One action, and then the rest; nobody undoes `motive`. -/
theorem retry_step {motive : AppWorld → Prop}
    (hstable : ∀ world last : AppWorld, world.GoesOn last → motive world → motive last)
    {act : Action} {next : act.Answer → Op Inner} (hmotive : motive world)
    (hnext : ∀ middle choice answer last, motive middle → motive last →
      middle.perform act choice = some (answer, last) → Promised id middle act answer →
      Retries id (next answer) last post) :
    Retries id (Program.ask act >>= next) world post := by
  refine System.Secures.step (fun _ _ hmotive hgoes => hstable _ _ hgoes hmotive) hmotive
    (fun _ _ => trivial) ?_
  intro middle choice answer last hmiddle hperform hpromised
  have hlast := hstable middle last (AppWorld.perform_goesOn hperform) hmiddle
  exact hnext middle choice answer last hmiddle hlast hperform hpromised

theorem known_step {act : Action} {next : act.Answer → Op Inner} (hknown : Known id world)
    (hnext : ∀ middle choice answer last, Known id middle → Known id last →
      middle.perform act choice = some (answer, last) → Promised id middle act answer →
      Retries id (next answer) last post) :
    Retries id (Program.ask act >>= next) world post :=
  retry_step (fun _ _ => AppWorld.GoesOn.known) hknown hnext

theorem known_done {value : Inner} (hknown : Known id world)
    (hpost : ∀ last, Known id last → post value last) :
    Retries id (pure value) world post :=
  .done (knownId_stable ()) hknown hpost

theorem gone_step {act : Action} {next : act.Answer → Op Inner} (hgone : Gone id world)
    (hnext : ∀ middle choice answer last, Gone id middle → Gone id last →
      middle.perform act choice = some (answer, last) → Promised id middle act answer →
      Retries id (next answer) last post) :
    Retries id (Program.ask act >>= next) world post :=
  retry_step (fun _ _ => AppWorld.GoesOn.stays) hgone hnext

/-- Whatever is done, an object that is gone stays so. -/
theorem gone_keeps {program : Op Inner} (hgone : Gone id world) :
    Retries id program world (fun _ => Gone id) :=
  .keeps goneId_stable (fun _ _ _ => trivial)
    (fun _ _ _ _ _ hperform => (AppWorld.perform_goesOn hperform).stays) hgone

theorem known_keeps {program : Op Inner} (hknown : Known id world) :
    Retries id program world (fun _ => Known id) :=
  .keeps knownId_stable (fun _ _ _ => trivial)
    (fun _ _ _ _ _ hperform => (AppWorld.perform_goesOn hperform).known) hknown

/-- The result is `ok`. -/
def Succeeds (id : ObjectId) (result : Except Error Unit) (last : AppWorld) : Prop :=
  result = .ok () ∧ Known id last

theorem succeeds_done (hknown : Known id world) :
    Retries id (pure (.ok ())) world (Succeeds id) :=
  known_done hknown (fun _ hlast => ⟨rfl, hlast⟩)

theorem waitBorrowsDrained_retries (hknown : Known id world) :
    Retries id (waitBorrowsDrained id) world (Succeeds id) := by
  refine known_step hknown ?_
  rintro middle choice (_ | _) last - hlast - -
  · refine known_step hlast ?_
    rintro middle choice (result : Except Error Unit) last - hlast - hpromised
    obtain rfl : result = .ok () := hpromised rfl
    exact succeeds_done hlast
  · exact succeeds_done hlast

theorem drainEdges_retries (edges : List EdgeName) (hknown : Known id world) :
    Retries id (drainEdges id edges) world (Succeeds id) := by
  induction edges generalizing world with
  | nil => exact succeeds_done hknown
  | cons edge rest ih =>
      have hfirst : Retries id (waitBindingDrained edge.1 id edge.2) world (Succeeds id) := by
        refine known_step hknown ?_
        rintro middle choice (_ | _) last - hlast - -
        · refine known_step hlast ?_
          rintro middle choice (result : Except Error Unit) last - hlast - hpromised
          obtain rfl : result = .ok () := hpromised rfl
          exact succeeds_done hlast
        · exact succeeds_done hlast
      refine hfirst.andThen ?_
      rintro _ - last ⟨rfl, hlast⟩
      exact ih hlast

/-- A hook that is handed to the scheduler succeeds. -/
theorem submitted_retries {task : Nat} (hknown : Known id world)
    (hobject : world.objectOf task = some id) :
    Retries id (do
      let submission : Submission ← write (.submitHook task)
      if submission = .accepted then
        read (.awaitSlot task)
      else
        noteRejected task
        return .error (submissionError submission)) world (Succeeds id) := by
  have hstable : ∀ world last : AppWorld, world.GoesOn last →
      (Known id world ∧ world.objectOf task = some id) →
      (Known id last ∧ last.objectOf task = some id) :=
    fun _ _ hgoes hmotive => ⟨hgoes.known hmotive.1, hgoes.tasks task id hmotive.2⟩
  refine retry_step hstable ⟨hknown, hobject⟩ ?_
  rintro middle choice (submission : Submission) last hmiddle hlast - hpromised
  obtain rfl : submission = .accepted := hpromised hmiddle.2
  refine retry_step hstable hlast ?_
  rintro middle choice (result : Except Error Unit) last hmiddle hlast - hpromised
  obtain rfl : result = .ok () := hpromised hmiddle.2
  exact succeeds_done hlast.1

theorem runHookCo_retries (hook : Hook) (hknown : Known id world) :
    Retries id (runHookCo id hook) world (Succeeds id) := by
  have hsettled : Retries id (waitHooksSettledCo id hook) world (Succeeds id) := by
    refine known_step hknown ?_
    rintro middle choice (settled : Bool) last - hlast - hpromised
    obtain rfl : settled = true := hpromised rfl
    exact succeeds_done hlast
  refine hsettled.andThen ?_
  rintro _ - last ⟨rfl, hlast⟩
  refine known_step hlast ?_
  rintro middle choice (taken : Option Nat) last hmiddle hlast hperform -
  cases taken with
  | none => exact succeeds_done hlast
  | some task =>
      refine submitted_retries hlast ?_
      have htaken := Option.some.inj (AppWorld.perform_command hperform)
      unfold AppWorld.takeHook at htaken
      split at htaken
      · cases htaken
      · cases htaken
        simp [AppWorld.objectOf]

theorem stopHook_retries (operation : String) (incomplete : ObjectState)
    (hknown : Known id world) :
    Retries id (stopHook id operation incomplete) world (Succeeds id) := by
  refine (runHookCo_retries .onStop hknown).andThen ?_
  rintro _ - last ⟨rfl, hlast⟩
  refine known_step hlast ?_
  rintro middle choice (inFlight : Bool) last - hlast - hpromised
  obtain rfl : inFlight = false := hpromised rfl
  exact succeeds_done hlast

theorem finishDestroy_retries (hknown : Known id world) :
    Retries id (finishDestroy id) world (fun _ => Gone id) := by
  have hhook : Retries id (runVoidHook id .onUninstall) world (fun _ => Known id) :=
    known_keeps hknown
  refine hhook.andThen ?_
  rintro _ - last hlast
  refine System.Secures.step (knownId_stable ()) hlast (fun _ _ => trivial) ?_
  rintro middle choice answer last hmiddle hperform -
  cases AppWorld.perform_command hperform
  refine .done (goneId_stable ()) ⟨hmiddle, ?_⟩ (fun _ hlast => hlast)
  exact Registry.findEntryLocked_remove middle.registry id id |>.trans (if_pos rfl)

theorem destroyService_retries (hknown : Known id world) :
    Retries id (destroyService id) world (fun _ => Gone id) := by
  refine known_step hknown ?_
  rintro middle choice (begun : Bool) last hmiddle hlast hperform hpromised
  cases begun with
  | false =>
      have hgone : Gone id middle := ⟨hmiddle, hpromised rfl rfl⟩
      exact gone_keeps ((AppWorld.perform_goesOn hperform).stays hgone)
  | true =>
      refine known_step hlast ?_
      rintro middle choice (edges : List EdgeName) last - hlast - -
      refine (drainEdges_retries edges hlast).andThen ?_
      rintro _ - last ⟨rfl, hlast⟩
      refine (stopHook_retries "stop" .stopIncomplete hlast).andThen ?_
      rintro _ - last ⟨rfl, hlast⟩
      refine known_step hlast ?_
      rintro middle choice _ last - hlast - -
      exact finishDestroy_retries hlast

theorem destroyComponent_retries (hknown : Known id world) :
    Retries id (destroyComponent id) world (fun _ => Gone id) := by
  refine known_step hknown ?_
  rintro middle choice (begun : Bool) last hmiddle hlast hperform hpromised
  cases begun with
  | false =>
      have hgone : Gone id middle := ⟨hmiddle, hpromised rfl rfl⟩
      exact gone_keeps ((AppWorld.perform_goesOn hperform).stays hgone)
  | true =>
      refine (waitBorrowsDrained_retries hlast).andThen ?_
      rintro _ - last ⟨rfl, hlast⟩
      refine (stopHook_retries "stop" .stopIncomplete hlast).andThen ?_
      rintro _ - last ⟨rfl, hlast⟩
      exact finishDestroy_retries hlast

/-- The turn of the object comes. -/
theorem forEach_retries {body : ObjectId → Op Unit} {ids : List ObjectId} (hmem : id ∈ ids)
    (hbody : ∀ world, Known id world → Retries id (body id) world (fun _ => Gone id))
    (hknown : Known id world) :
    Retries id (forEach body ids) world (fun _ => Gone id) := by
  induction ids generalizing world with
  | nil => cases hmem
  | cons first rest ih =>
      rcases List.mem_cons.mp hmem with rfl | hmem
      · exact (hbody world hknown).andThen (fun _ _ last hgone => gone_keeps hgone)
      · have hfirst : Retries id (body first) world (fun _ => Known id) := known_keeps hknown
        exact hfirst.andThen (fun _ _ last hlast => ih hmem hlast)

theorem stopAll_retries (hkind : id.kind = .service ∨ id.kind = .component)
    (hknown : Known id world) : Retries id stopAll world (fun _ => Gone id) := by
  refine known_step hknown ?_
  rintro middle choice (lists : StopLists) last hmiddle hlast hperform -
  obtain ⟨hanswer, rfl⟩ := AppWorld.perform_query hperform
  obtain rfl : last.stopLists = lists := Option.some.inj hanswer
  cases hfind : last.registry.findEntryLocked id with
  | none => exact gone_keeps ⟨hlast, hfind⟩
  | some entry =>
      have happ : id.kind ≠ .app := by
        rcases hkind with hkind | hkind <;> simp [hkind]
      have hactor : id.kind ≠ .actor := by
        rcases hkind with hkind | hkind <;> simp [hkind]
      have hlisted := mem_stopLists hfind happ
      simp only [StopLists.order, List.mem_append] at hlisted
      have hservices : Retries id (forEach destroyService last.stopLists.services) last
          (fun _ => Known id) := known_keeps hlast
      have hactors : ∀ world, Known id world →
          Retries id (forEach destroyActor last.stopLists.actors) world
            (fun _ => Known id) := fun _ hknown => known_keeps hknown
      obtain ((hmem | hmem) | hmem) | hmem := hlisted
      · exact (forEach_retries hmem (fun _ => destroyService_retries) hlast).andThen
          (fun _ _ _ hgone => gone_keeps hgone)
      · exact absurd (AppWorld.kind_of_mem_stopLists.2.1 id hmem) hactor
      · refine hservices.andThen (fun _ _ middle hmiddle => ?_)
        refine (hactors middle hmiddle).andThen (fun _ _ middle hmiddle => ?_)
        exact (forEach_retries hmem (fun _ => destroyComponent_retries) hmiddle).andThen
          (fun _ _ _ hgone => gone_keeps hgone)
      · refine hservices.andThen (fun _ _ middle hmiddle => ?_)
        refine (hactors middle hmiddle).andThen (fun _ _ middle hmiddle => ?_)
        have hscoped : Retries id
            (forEach destroyComponent last.stopLists.scopedComponents) middle
            (fun _ => Known id) := known_keeps hmiddle
        refine hscoped.andThen (fun _ _ middle hmiddle => ?_)
        exact forEach_retries hmem (fun _ => destroyComponent_retries) hmiddle

/-- `CoStop` returns `ok`, and the object is gone. -/
def Removes (id : ObjectId) (outcome : Outcome) (last : AppWorld) : Prop :=
  outcome = .control (.ok ()) ∧ Gone id last

theorem stopImpl_retries (hkind : id.kind = .service ∨ id.kind = .component)
    (hknown : Known id world) :
    Retries id stopImpl world (fun result last => result = .ok () ∧ Gone id last) := by
  have hbody : ∀ world, Known id world →
      Retries id (do
        write (.storeState .stopping)
        stopAll
        let pending : List CleanupInfo ← read .pendingCleanup
        write (.storeState (if pending = [] then .stopped else .stopIncomplete))
        return (.ok () : Except Error Unit)) world
        (fun result last => result = .ok () ∧ Gone id last) := by
    intro world hknown
    refine known_step hknown ?_
    rintro middle choice _ last - hlast - -
    refine (stopAll_retries hkind hlast).andThen (fun _ _ last hgone => ?_)
    refine gone_step hgone ?_
    rintro middle choice pending last - hgone - -
    refine gone_step hgone ?_
    rintro middle choice _ last - hgone - -
    exact .done (goneId_stable ()) hgone (fun _ hlast => ⟨rfl, hlast⟩)
  refine known_step hknown ?_
  rintro middle choice (active : Bool) last - hlast - hpromised
  obtain rfl : active = false := hpromised
  refine known_step hlast ?_
  rintro middle choice (state : AppState) last - hlast - hpromised
  have hstate : state ≠ .stopped := hpromised
  change Retries id ((if state = .stopped then _ else _) >>= _) last _
  rw [if_neg hstate]
  refine (hbody last hlast).andThen ?_
  rintro _ - last ⟨rfl, hgone⟩
  refine gone_step hgone ?_
  rintro middle choice _ last - hgone - -
  exact .done (goneId_stable ()) hgone (fun _ hlast => ⟨rfl, hlast⟩)

theorem coStop_retries (hkind : id.kind = .service ∨ id.kind = .component)
    (hknown : Known id world) : Retries id Entry.coStop.main world (Removes id) := by
  refine (stopImpl_retries hkind hknown).andThen ?_
  rintro _ - last ⟨rfl, hgone⟩
  exact .done (goneId_stable ()) hgone (fun _ hlast => ⟨rfl, hlast⟩)

/-! ## Over runs -/

/-- The test is passed whenever the thread takes a step. -/
def AtTurns (thread : Nat) (test : AppWorld → Choice → Action → Bool)
    (pool : AppPool Unit) (label : AppStep) : Prop :=
  ∀ choice act, label = .step thread choice → (pool.threads thread).asks = some act →
    test pool.shared choice act = true

def TakenOn (thread : Nat) (id : ObjectId) : AppPool Unit → AppStep → Prop :=
  AtTurns thread (fun world _ act => TakesOn id world act)

/-- The others cooperate with the thread. -/
def Aided (thread : Nat) (id : ObjectId) : AppPool Unit → AppStep → Prop :=
  AtTurns thread (Cooperates id)

/-- Both of them. -/
def StopServed (thread : Nat) (id : ObjectId) (pool : AppPool Unit) (label : AppStep) :
    Prop :=
  TakenOn thread id pool label ∧ Aided thread id pool label

variable {pool last : AppPool Unit} {entry : RegistryEntry}

/-- The object is gone when a stop that was started after it returns. -/
theorem stop_removes {labels : List AppStep} (hkind : id.kind = .service ∨ id.kind = .component)
    (hfind : pool.shared.registry.findEntryLocked id = some entry)
    (hrun : plainSystem.machine.Run (StopServed pool.count id) pool
      (.spawn .coStop :: labels) last) {outcome : Outcome}
    (hreturned : (last.threads pool.count).returned = some outcome) :
    Removes id outcome last.shared := by
  obtain ⟨first, -, hspawn, hrest⟩ := hrun.uncons
  obtain rfl := Option.some.inj hspawn
  have hknown : Known id pool.shared := Registry.number_lt_of_find hfind
  have hsecures : plainSystem.Secures (retryContract id) (last.threads pool.count)
      (last.views pool.count) last.shared (fun outcome _ last => Removes id outcome last) := by
    refine System.Secures.run (Nat.lt_succ_self _) ?_ ?_ ?_ hrest
    · dsimp only
      rw [Function.update_self]
      exact coStop_retries hkind hknown
    · intro performed middle label after _ _ _ hnext
      exact .of_moves (AppWorld.next_ageStep hnext) (next_taskMove hnext)
    · intro performed middle choice act answer state _ hguard hasks hperform
      exact promised (hguard.1 choice act rfl hasks) (hguard.2 choice act rfl hasks) hperform
  exact hsecures.returned hreturned

/-- A stop that gets its turns returns, and from then on the object is gone. -/
theorem stop_returns {pools : Nat → AppPool Unit} {labels : Nat → AppStep}
    (hkind : id.kind = .service ∨ id.kind = .component)
    (hfind : (pools 0).shared.registry.findEntryLocked id = some entry)
    (hspawn : labels 0 = .spawn .coStop)
    (hendless : plainSystem.machine.Endless (StopServed (pools 0).count id) pools labels)
    (hserves : System.Serves (pools 0).count pools labels) :
    ∃ time, ∀ later, time ≤ later →
      ((pools later).threads (pools 0).count).returned = some (.control (.ok ())) ∧
        Gone id (pools later).shared := by
  have hstarted : (pools 0).count < (pools 1).count := by
    have hnext := hendless.next 0
    rw [hspawn] at hnext
    have hcount : (pools 0).count + 1 = (pools 1).count :=
      congrArg Pool.count (Option.some.inj hnext)
    omega
  obtain ⟨time, outcome, hle, hreturned⟩ :=
    System.returns_of_endless hendless hserves hstarted
  refine ⟨time, fun later hlater => ?_⟩
  have hrun := hendless.run later
  obtain ⟨length, rfl⟩ : ∃ length, later = length + 1 := ⟨later - 1, by omega⟩
  rw [List.range_succ_eq_map, List.map_cons, hspawn] at hrun
  obtain ⟨rfl, hgone⟩ := stop_removes hkind hfind hrun (hreturned _ hlater)
  exact ⟨hreturned _ hlater, hgone⟩

/-- `OnStop` of a service that begins finds none of the edges of the service borrowed. -/
def StopsDrained (pool : AppPool Unit) : Prop :=
  ∀ (index : Nat) (task : HookTask), pool.shared.tasks[index]? = some task →
    task.hook = .onStop → task.object.kind = .service →
    (plainSystem.next pool (.env (.beginHook index))).isSome = true →
    pool.shared.registry.EdgesOf task.object (fun _ edge => edge.borrows = 0)

theorem stopQueued_of_begins {index : Nat} {task : HookTask}
    (htask : pool.shared.tasks[index]? = some task) (hhook : task.hook = .onStop)
    (hnext : (plainSystem.next pool (.env (.beginHook index))).isSome = true) :
    pool.shared.stopQueued task.object = true := by
  obtain ⟨next, hnext⟩ := Option.isSome_iff_exists.mp hnext
  obtain ⟨last, hreact, -⟩ := Option.map_eq_some_iff.mp hnext
  have hevent := AppWorld.react_event hreact
  simp only [AppWorld.event] at hevent
  split at hevent
  case h_1 object hook hfind =>
    obtain rfl := Option.some.inj (htask.symm.trans hfind)
    exact List.any_eq_true.mpr
      ⟨_, List.mem_of_getElem? htask, decide_eq_true ⟨rfl, hhook, rfl⟩⟩
  · cases hevent

/-- A service or component that is registered, in whatever state earlier attempts have left
it, is removed by a later `CoStop` that takes it on, if its borrows are returned, no earlier
hook of it is running and its `OnStop` returns `ok`; such a stop returns if it gets its
turns.  As long as no service is bound while its `OnStop` waits to begin, `OnStop` of a
service begins when no edge of the service is borrowed. -/
theorem incomplete_teardown_finishes
    (hreach : plainSystem.machine.ReachableWhere BindsInTime pool) :
    (∀ id entry, pool.shared.registry.findEntryLocked id = some entry →
      id.kind = .service ∨ id.kind = .component →
      (∀ labels last outcome, plainSystem.machine.Run (StopServed pool.count id) pool
          (.spawn .coStop :: labels) last →
        (last.threads pool.count).returned = some outcome →
        outcome = .control (.ok ()) ∧ last.shared.registry.findEntryLocked id = none) ∧
      ∀ pools labels, pools 0 = pool → labels 0 = .spawn .coStop →
        plainSystem.machine.Endless (StopServed pool.count id) pools labels →
        System.Serves pool.count pools labels →
        ∃ time, ∀ later, time ≤ later →
          ((pools later).threads pool.count).returned = some (.control (.ok ())) ∧
            (pools later).shared.registry.findEntryLocked id = none) ∧
    StopsDrained pool := by
  refine ⟨?_, ?_⟩
  · intro id entry hfind hkind
    constructor
    · intro labels last outcome hrun hreturned
      obtain ⟨houtcome, hgone⟩ := stop_removes hkind hfind hrun hreturned
      exact ⟨houtcome, hgone.2⟩
    · rintro pools labels rfl hspawn hendless hserves
      obtain ⟨time, hremoved⟩ := stop_returns hkind hfind hspawn hendless hserves
      exact ⟨time, fun later hle => ⟨(hremoved later hle).1, (hremoved later hle).2.2⟩⟩
  · intro index task htask hhook hkind hnext
    have hqueued := stopQueued_of_begins htask hhook hnext
    intro id entry hcomponent hfind edge hmem hsubject
    exact ((stops_idle hreach hkind).2 hqueued id entry hcomponent hfind edge hmem hsubject).2

end

instance (thread : Nat) (test : AppWorld → Choice → Action → Bool) (pool : AppPool Unit)
    (label : AppStep) : Decidable (AtTurns thread test pool label) :=
  match label with
  | .spawn _ => isTrue (fun _ _ hlabel => nomatch hlabel)
  | .env _ => isTrue (fun _ _ hlabel => nomatch hlabel)
  | .step actor choice =>
      decidable_of_iff (actor = thread → ∀ act ∈ (pool.threads thread).asks,
          test pool.shared choice act = true)
        ⟨fun hturn _ act hlabel hasks => by
            obtain ⟨rfl, rfl⟩ := PoolStep.step.inj hlabel
            exact hturn rfl act hasks,
          fun hturn heq act hasks => hturn choice act (heq ▸ rfl) hasks⟩

instance [Infra] (thread : Nat) (id : ObjectId) (pool : AppPool Unit) (label : AppStep) :
    Decidable (StopServed thread id pool label) :=
  inferInstanceAs (Decidable (AtTurns _ _ _ _ ∧ AtTurns _ _ _ _))

/-- A service borrows while it is installed, and a stop gives up on it; what it has borrowed
is given back, and it is stopped once more. -/
theorem incomplete_teardown_finishes_borrowed :
    letI := permissiveInfra
    ∃ pool last : AppPool Unit, ∃ id, plainSystem.machine.ReachableWhere BindsInTime pool ∧
      (pool.shared.registry.findEntryLocked id).any
        (fun entry => entry.state = .stopIncomplete) = true ∧
      last.shared.registry.findEntryLocked id = none ∧ StopsDrained pool := by
  let _ := permissiveInfra
  let service : ObjectId := ⟨.service, 2⟩
  have hboot : plainSystem.machine.ReachableWhere BindsInTime
      (plainSystem.boot (AppWorld.fresh (.ok ()) 10 10)) :=
    .start ⟨_, start_fresh 10 10 (by decide), rfl⟩
  obtain ⟨pool, last, hreach, hrun, htest⟩ := hboot.exec_then
    (fun pool label => decide (BindsInTime pool label)) (fun _ _ => of_decide_eq_true)
    (fun pool label => decide (StopServed 3 service pool label))
    (fun _ _ => of_decide_eq_true)
    ([.spawn (.coInstallComponent "A" "a" ⟨.app, none⟩),
      .spawn (.coInstallService (.ok ()) "S" ["A"] [⟨"A", "a"⟩]), .spawn .coStop] ++
      List.replicate 8 (smoothStep 0) ++ List.replicate 8 (smoothStep 1) ++
      [.env (.borrow ⟨true, ⟨.component, 1⟩, 2⟩ 4 false)] ++
      List.replicate 3 (smoothStep 1) ++ List.replicate 7 (smoothStep 2) ++
      [.step 2 (.wait .timedOut)] ++ List.replicate 3 (smoothStep 2) ++
      [.step 2 (.wait .timedOut)] ++ List.replicate 4 (smoothStep 2) ++
      [.env (.release ⟨⟨.component, 1⟩, service, 4⟩)])
    (.spawn .coStop :: (List.replicate 9 (smoothStep 3) ++ hookSteps 3 0 ++
      List.replicate 9 (smoothStep 3) ++ hookSteps 3 1 ++ List.replicate 7 (smoothStep 3)))
    (fun pool last => pool.count = 3 ∧ (last.threads 3).returned.isSome = true ∧
      (pool.shared.registry.findEntryLocked service).any
        (fun entry => entry.state = .stopIncomplete) = true)
    (by decide)
  obtain ⟨hcount, hreturned, hstate⟩ := of_decide_eq_true htest
  rw [← hcount] at hrun hreturned
  obtain ⟨entry, hfind, -⟩ := (Option.any_eq_true _ _).mp hstate
  obtain ⟨outcome, houtcome⟩ := Option.isSome_iff_exists.mp hreturned
  obtain ⟨hfinishes, hdrained⟩ := incomplete_teardown_finishes hreach
  obtain ⟨-, hgone⟩ :=
    (hfinishes service entry hfind (Or.inl rfl)).1 _ last outcome hrun houtcome
  exact ⟨pool, last, service, hreach, hstate, hgone, hdrained⟩

/-- A component that was registered after the application had stopped, and whose
uninstallation failed, is left by every later stop; and a service that is being installed
while it is stopped is bound again, and borrows, before its `OnStop` begins. -/
theorem incomplete_teardown_left :
    letI := permissiveInfra
    (¬∀ pool, plainSystem.machine.Reachable pool →
      ∀ id entry, pool.shared.registry.findEntryLocked id = some entry →
        entry.state = .stopIncomplete ∨ entry.state = .uninstallIncomplete →
        entry.componentBorrows = 0 → entry.hooksInFlight = 0 →
        ∀ labels last, plainSystem.machine.Run (Aided pool.count id) pool
            (.spawn .coStop :: labels) last →
          (last.threads pool.count).returned = some (.control (.ok ())) →
          last.shared.registry.findEntryLocked id = none) ∧
    ¬∀ pool, plainSystem.machine.Reachable pool → StopsDrained pool := by
  let _ := permissiveInfra
  have hboot : plainSystem.machine.Reachable
      (plainSystem.boot (AppWorld.fresh (.ok ()) 10 10)) :=
    .start ⟨_, start_fresh 10 10 (by decide), rfl⟩
  constructor
  · intro hclaim
    let component : ObjectId := ⟨.component, 1⟩
    obtain ⟨pool, last, hreach, hrun, htest⟩ := hboot.exec_then
      (fun _ _ => true) (fun _ _ _ => trivial)
      (fun pool label => decide (AtTurns 3 (Cooperates component) pool label))
      (fun _ _ => of_decide_eq_true)
      ([.spawn (.coInstallComponent "A" "a" ⟨.app, none⟩), .spawn .coStop,
        .spawn (.coUninstallComponent "A" "a" ⟨.app, none⟩), smoothStep 0] ++
        List.replicate 7 (smoothStep 1) ++ List.replicate 7 (smoothStep 0) ++
        List.replicate 5 (smoothStep 2) ++
        [.step 2 (.submission .accepted), .env (.beginHook 0), .env (.endHook 0 .threwOther),
          .env (.noteHook 0), .env (.notifyHook 0), .env (.settleHook 0),
          .step 2 (.wait .completed), smoothStep 2])
      (.spawn .coStop :: List.replicate 3 (smoothStep 3))
      (fun pool last => pool.count = 3 ∧
        (last.threads 3).returned = some (.control (.ok ())) ∧
        (pool.shared.registry.findEntryLocked component).any
          (fun entry => entry.state = .uninstallIncomplete ∧ entry.componentBorrows = 0 ∧
            entry.hooksInFlight = 0) = true ∧
        (last.shared.registry.findEntryLocked component).isSome = true)
      (by decide)
    obtain ⟨hcount, hreturned, hstate, hleft⟩ := of_decide_eq_true htest
    rw [← hcount] at hrun hreturned
    obtain ⟨entry, hfind, hincomplete⟩ := (Option.any_eq_true _ _).mp hstate
    obtain ⟨huninstall, hborrows, hhooks⟩ := of_decide_eq_true hincomplete
    rw [hclaim pool hreach component entry hfind (Or.inr huninstall) hborrows hhooks _ last hrun
      hreturned] at hleft
    cases hleft
  · intro hclaim
    let service : ObjectId := ⟨.service, 2⟩
    obtain ⟨pool, hreach, htest⟩ := hboot.exec_any (fun _ _ => true) (fun _ _ _ => trivial)
      ([.spawn .coStart, .spawn (.coInstallComponent "A" "a" ⟨.app, none⟩),
        .spawn (.coInstallService (.ok ()) "S" ["A"] []), .spawn .coStop,
        .spawn (.coBindComponent "A" ⟨true, service, 3⟩ "a" ⟨.app, none⟩)] ++
        List.replicate 7 (smoothStep 0) ++ List.replicate 11 (smoothStep 1) ++
        hookSteps 1 0 ++ [smoothStep 1] ++ List.replicate 6 (smoothStep 2) ++
        List.replicate 8 (smoothStep 3) ++
        [.step 3 (.submission .accepted), .step 3 (.wait .timedOut), smoothStep 3,
          smoothStep 2, smoothStep 4, smoothStep 4,
          .env (.borrow ⟨true, ⟨.component, 1⟩, 2⟩ 4 false)])
      (fun pool => pool.shared.tasks[1]? = some ⟨service, .onStop, .submitted⟩ ∧
        (plainSystem.next pool (.env (.beginHook 1))).isSome = true ∧
        (pool.shared.registry.findEntryLocked ⟨.component, 1⟩).any (fun entry =>
          entry.bindings.any (fun edge => edge.subjectId = service ∧ edge.borrows = 1)) = true)
      (by decide)
    obtain ⟨htask, hbegins, hborrowed⟩ := of_decide_eq_true htest
    obtain ⟨entry, hfind, hedge⟩ := (Option.any_eq_true _ _).mp hborrowed
    obtain ⟨edge, hmem, hparts⟩ := List.any_eq_true.mp hedge
    obtain ⟨hsubject, hone⟩ := of_decide_eq_true hparts
    have hzero : edge.borrows = 0 := hclaim pool hreach 1 _ htask rfl rfl hbegins
      ⟨.component, 1⟩ entry rfl hfind edge hmem hsubject
    rw [hone] at hzero
    cases hzero

end BbtFramework.App
