import BbtFramework.Host.CoApp

/-!
# Resources and running handlers

The lifecycle knows from its own calls whether a handler can be running: none before
the start of the host and none after a proven drain.  Only an interrupted drain leaves
it open, and the release closes the resources all the same.
-/

namespace BbtFramework.Host

open BbtFramework.Library

/-- What the calls so far tell about the handlers: none is running, new ones are
accepted, no more are accepted, or a close has interrupted the wait for them. -/
inductive DrainView where
  | quiet
  | accepting
  | stopped
  | interrupted
  deriving DecidableEq, Repr

def draining : Discipline HostCall HostCall.Answer DrainView where
  allows := fun call view =>
    match call with
    | .startScheduler | .onSchedulerStarted | .create | .start => view = .quiet
    | .waitShutdownRequest | .stopAccepting => view = .accepting
    | .waitHandlersDone _ | .closeReason | .parkUndrained => view = .stopped
    | .onHandlersDrained => view = .quiet
    | .close | .onRelease => view = .quiet ∨ view = .interrupted
  possible := fun _ _ => True
  after := fun call answer view =>
    match call, answer with
    | .start, _ => .accepting
    | .stopAccepting, _ => .stopped
    | .waitHandlersDone _, .returned (.ok ()) => .quiet
    | .closeReason, some _ => .interrupted
    | _, _ => view

namespace HostLifecycle

theorem waitHandlersDone_draining (life : HostLifecycle) :
    Program.Follows draining life.waitHandlersDone .stopped (fun ended view =>
      match ended.1 with
      | .returned .drained => view = .quiet
      | .returned .interrupted => view = .interrupted
      | .returned .undrained => view = .stopped
      | _ => True) := by
  refine .step rfl ?_
  rintro (⟨error | ⟨⟩⟩ | what | -) -
  · refine .step rfl ?_
    rintro (- | reason) -
    · refine .step rfl ?_
      rintro (⟨again | ⟨⟩⟩ | what | -) -
      · refine .step rfl ?_
        rintro (- | reason) -
        · exact .pure rfl
        · exact .pure rfl
      · exact .pure rfl
      · exact .pure trivial
      · exact .pure trivial
    · exact .pure rfl
  · exact .pure rfl
  · exact .pure trivial
  · exact .pure trivial

theorem release_draining (hooks : Hooks) (life : HostLifecycle) (interrupted : Bool)
    {view : DrainView} (hview : view = .quiet ∨ view = .interrupted) :
    Program.Follows draining (release hooks life interrupted) view (fun _ _ => True) := by
  have hreleased : Program.Follows draining (callHook hooks.onRelease (perform .onRelease) ())
      view (fun _ _ => True) :=
    callHook_follows (fun _ => ⟨hview, fun _ _ => trivial⟩) (fun _ => trivial)
  exact hreleased.andThen (fun _ _ _ => .pure trivial)

theorem closeHost_draining (hooks : Hooks) (life : HostLifecycle) (interrupted : Bool)
    {view : DrainView} (hview : view = .quiet ∨ view = .interrupted) :
    Program.Follows draining (closeHost hooks life interrupted) view (fun _ _ => True) :=
  .step hview (fun _ _ => release_draining hooks life interrupted hview)

theorem shutDown_draining (hooks : Hooks) {life : HostLifecycle} {view : DrainView}
    (hview : view = if life.hostCreated then .accepting else .quiet) :
    Program.Follows draining (shutDown hooks life) view (fun _ _ => True) := by
  unfold shutDown
  dsimp only [hostCreated_setPhase]
  refine .ite ?_ ?_
  · intro hcreated
    rw [if_pos hcreated] at hview
    refine .step hview ?_
    rintro - -
    refine .andThen (waitHandlersDone_draining _) ?_
    rintro ⟨⟨⟨⟩⟩ | what | -, last⟩ view hended
    · have hnoted : Program.Follows draining
          (callHook hooks.onHandlersDrained (perform .onHandlersDrained) ()) view
          (fun _ last => last = view) :=
        callHook_follows (fun _ => ⟨hended, fun _ _ => rfl⟩) (fun _ => rfl)
      refine hnoted.andThen ?_
      rintro noted _ rfl
      exact closeHost_draining hooks _ false (.inl hended)
    · exact closeHost_draining hooks _ true (.inr hended)
    · exact .step hended (fun never => never.elim)
    · exact .pure trivial
    · exact .pure trivial
  · intro hcreated
    rw [if_neg hcreated] at hview
    exact release_draining hooks _ false (.inl hview)

/-- The host accepts handlers exactly when it was created, and so started. -/
def Opened (life : HostLifecycle) (view : DrainView) : Prop :=
  view = if life.hostCreated then .accepting else .quiet

theorem startUp_draining (hooks : Hooks) {life : HostLifecycle}
    (hcreated : life.hostCreated = false) :
    Program.Follows draining (startUp hooks life) .quiet (fun ended view =>
      ended.2.Opened view ∧ (ended.1 = .returned (.ok ()) → view = .accepting)) := by
  have hclosed : ∀ ended : CallEnd (Except Error Unit), ended ≠ .returned (.ok ()) →
      Program.Follows draining (pure (ended, life) : HostOp _) .quiet (fun ended view =>
        ended.2.Opened view ∧ (ended.1 = .returned (.ok ()) → view = .accepting)) := by
    intro ended hended
    refine .pure ⟨?_, fun hok => absurd hok hended⟩
    simp [Opened, hcreated]
  have hprepared : Program.Follows draining
      (callHook hooks.onSchedulerStarted (perform .onSchedulerStarted) (.ok ())) .quiet
      (fun _ view => view = .quiet) :=
    callHook_follows (fun _ => ⟨rfl, fun _ _ => rfl⟩) (fun _ => rfl)
  refine hprepared.andThen ?_
  rintro (⟨error | ⟨⟩⟩ | what | -) _ rfl
  · exact hclosed _ (by simp)
  · refine .step rfl ?_
    rintro (⟨error | ⟨⟩⟩ | what | -) -
    · exact hclosed _ (by simp)
    · exact .step rfl (fun _ _ => .pure ⟨rfl, fun _ => rfl⟩)
    · exact hclosed _ (by simp)
    · exact hclosed _ (by simp)
  · exact hclosed _ (by simp)
  · exact hclosed _ (by simp)

theorem tryStartUp_draining (hooks : Hooks) {life : HostLifecycle}
    (hcreated : life.hostCreated = false) :
    Program.Follows draining (tryStartUp hooks life) .quiet (fun ended view =>
      ended.2.Opened view ∧ (ended.1 = .returned (.ok ()) → view = .accepting)) := by
  have hclosed : life.Opened .quiet := by
    simp [Opened, hcreated]
  refine .step rfl ?_
  rintro (⟨⟨⟩⟩ | what | -) -
  · exact startUp_draining hooks hcreated
  · exact .pure ⟨hclosed, fun hok => nomatch hok⟩
  · exact .pure ⟨hclosed, fun hok => nomatch hok⟩

section

variable [Infra]

/-- `Run` knows what it does with the handlers. -/
theorem run_draining (hooks : Hooks) {life : HostLifecycle}
    (hcreated : life.hostCreated = false) :
    Program.Follows draining (run hooks life) .quiet (fun _ _ => True) := by
  unfold run
  refine .ite (fun _ => .pure trivial) (fun _ => ?_)
  refine .ite (fun _ => .pure trivial) (fun _ => ?_)
  refine .ite (fun _ => .pure trivial) (fun _ => ?_)
  refine .andThen (tryStartUp_draining hooks (by exact hcreated)) ?_
  rintro ⟨ended, last⟩ view ⟨hopened, haccepting⟩
  cases hcaught : caughtStartUp ended with
  | error error =>
      refine .andThen (shutDown_draining hooks (by exact hopened)) ?_
      rintro ⟨result | what | -, final⟩ view -
      · exact .pure trivial
      · exact .pure trivial
      · exact .pure trivial
  | ok done =>
      refine .step (haccepting (caughtStartUp_ok.mp hcaught)) ?_
      rintro - -
      refine .andThen (shutDown_draining hooks (by exact hopened)) ?_
      rintro ⟨result | what | -, final⟩ view -
      · exact .pure trivial
      · exact .pure trivial
      · exact .pure trivial

end

end HostLifecycle

/-- Whether the thread is the one that runs the object, and what its lifecycle knows. -/
structure CoView where
  claimed : Bool
  drain : DrainView
  deriving DecidableEq, Repr

/-- The lifecycle belongs to the thread with the claim.  What a collection finds to
close is closed when no handler is running, also after an interrupted drain. -/
def closing : Discipline CoCall CoCall.Answer CoView where
  allows := fun call view =>
    match call with
    | .host call => view.claimed = true ∧ draining.allows call view.drain
    | .collectCloseables =>
        view.claimed = true ∧ (view.drain = .quiet ∨ view.drain = .interrupted)
    | .keepInstance _ | .closeResource _ => view.claimed = true ∧ view.drain = .quiet
    | _ => True
  possible := fun _ _ => True
  after := fun call answer view =>
    match call, answer with
    | .exchangeRanOnce, true => { view with claimed := true }
    | .host call, answer => { view with drain := draining.after call answer view.drain }
    | .collectCloseables, _ :: _ => { view with drain := .quiet }
    | _, _ => view

/-- The run knows what its lifecycle knows, or that no handler is left after all. -/
def Knows (drain : DrainView) (view : CoView) : Prop :=
  view.claimed = true ∧
    (view.drain = drain ∨ (drain = .interrupted ∧ view.drain = .quiet))

namespace CoApp

theorem closeAll_closing (closeables : List Nat) {view : CoView}
    (hclaimed : view.claimed = true) (hquiet : view.drain = .quiet) :
    Program.Follows closing (closeAll closeables) view (fun _ last => last = view) := by
  induction closeables with
  | nil => exact .pure rfl
  | cons index rest ih => exact .step ⟨hclaimed, hquiet⟩ (fun _ _ => ih)

theorem closeResources_closing {drain : DrainView} {view : CoView}
    (hknows : Knows drain view) (hended : drain = .quiet ∨ drain = .interrupted) :
    Program.Follows closing closeResources view (fun _ last => Knows drain last) := by
  obtain ⟨hclaimed, hdrain⟩ := hknows
  have hview : view.drain = .quiet ∨ view.drain = .interrupted := by
    obtain hsame | ⟨-, hquiet⟩ := hdrain
    · rwa [hsame]
    · exact .inl hquiet
  refine .step ⟨hclaimed, hview⟩ ?_
  rintro (- | ⟨index, rest⟩) -
  · exact .pure ⟨hclaimed, hdrain⟩
  · refine (closeAll_closing (index :: rest) (by exact hclaimed) rfl).mono ?_
    rintro - last rfl
    refine ⟨hclaimed, ?_⟩
    obtain rfl | rfl := hended
    · exact .inl rfl
    · exact .inr ⟨rfl, rfl⟩

/-- A call to the host is made as the lifecycle asks for it. -/
theorem host_closing {call : HostCall} {drain : DrainView} {view : CoView}
    (hallows : draining.allows call drain) (hknows : Knows drain view)
    (hhost : drain = .interrupted → call = .close) :
    Program.Follows closing (act (.host call)) view (fun answer last =>
      draining.possible call answer ∧ Knows (draining.after call answer drain) last) := by
  obtain ⟨hclaimed, hsame | ⟨hdrain, hquiet⟩⟩ := hknows
  · refine ⟨⟨hclaimed, by rwa [hsame]⟩, ?_⟩
    intro answer _
    exact ⟨trivial, hclaimed, .inl (by rw [← hsame]; rfl)⟩
  · obtain rfl := hhost hdrain
    refine ⟨⟨hclaimed, .inl hquiet⟩, ?_⟩
    intro answer _
    exact ⟨trivial, hclaimed, .inr ⟨hdrain, hquiet⟩⟩

section

variable [Infra]

theorem startResources_closing (specs : List ResourceSpec) (index : Nat) {view : CoView}
    (hclaimed : view.claimed = true) (hquiet : view.drain = .quiet) :
    Program.Follows closing (startResources index specs) view
      (fun _ last => last = view) := by
  induction specs generalizing index with
  | nil => exact .pure rfl
  | cons spec rest ih =>
      unfold startResources
      refine .ite (fun _ => ih (index + 1)) (fun _ => ?_)
      refine .step trivial ?_
      rintro (⟨reason | - | -⟩ | what | -) -
      · exact .pure rfl
      · exact .pure rfl
      · have hinstance : Program.Follows closing (startInstance spec index) view
            (fun _ last => last = view) :=
          .ite (fun _ => ⟨trivial, fun _ _ => rfl⟩) (fun _ => .pure rfl)
        refine hinstance.andThen ?_
        rintro started last rfl
        refine .step ⟨hclaimed, hquiet⟩ ?_
        rintro - -
        obtain ⟨reason | ⟨⟩⟩ | what | - := started
        · exact .pure rfl
        · exact ih (index + 1)
        · exact .pure rfl
        · exact .pure rfl
      · exact .pure rfl
      · exact .pure rfl

theorem serve_closing (app : CoApp) (call : HostCall) (drain : DrainView) (view : CoView)
    (hallows : draining.allows call drain) (hknows : Knows drain view) :
    Program.Follows closing (app.serve call) view (fun answer last =>
      draining.possible call answer ∧ Knows (draining.after call answer drain) last) := by
  cases call with
  | onSchedulerStarted =>
      obtain rfl : drain = .quiet := hallows
      have hquiet : view.drain = .quiet := by
        obtain hsame | ⟨hinterrupted, -⟩ := hknows.2
        · exact hsame
        · cases hinterrupted
      refine .andThen (startResources_closing app.resourceSpecs 0 hknows.1 hquiet) ?_
      rintro (reason | ⟨⟩) last rfl
      · exact .pure ⟨trivial, hknows⟩
      · exact ⟨trivial, fun _ _ => ⟨trivial, hknows⟩⟩
  | onHandlersDrained =>
      refine .andThen (closeResources_closing hknows (.inl hallows)) ?_
      intro _ last hlast
      exact .pure ⟨trivial, hlast⟩
  | onRelease =>
      refine .andThen (closeResources_closing hknows hallows) ?_
      intro _ last hlast
      exact .step trivial (fun _ _ => .pure ⟨trivial, hlast⟩)
  | close => exact host_closing hallows hknows (fun _ => rfl)
  | startScheduler | create | start | waitShutdownRequest | stopAccepting | closeReason
  | parkUndrained | waitHandlersDone =>
      refine host_closing hallows hknows (fun hdrain => ?_)
      subst hdrain
      cases hallows

/-- `run` knows what it does with the resources. -/
theorem run_closing (app : CoApp) :
    Program.Follows closing app.run ⟨false, .quiet⟩ (fun _ _ => True) := by
  refine .step trivial ?_
  rintro active -
  refine .ite (fun _ => .pure trivial) (fun _ => ?_)
  refine .step trivial ?_
  rintro (- | -) -
  · exact .step trivial (fun _ _ => .pure trivial)
  · have hclaimed : Knows .quiet ⟨true, .quiet⟩ := ⟨rfl, .inl rfl⟩
    rw [if_neg (by decide)]
    cases app.validateConfig with
    | error reason => exact .step trivial (fun _ _ => .pure trivial)
    | ok done =>
        refine .andThen (Program.Follows.interpret app.serve_closing
          (HostLifecycle.run_draining hooks rfl) hclaimed) ?_
        intro ended last _
        exact .step trivial (fun _ _ => .pure trivial)

end

end CoApp

/-! ## The runs of an application -/

/-- Any number of threads may call `run`. -/
def coSystem [Infra] (app : CoApp) : System CoCall CoCall.Answer (CallEnd Nat) CoWorld
    CoView Unit CoChoice HandlerEvent where
  start := fun world => world = .fresh app.resourceSpecs
  idle := .returned exitRejected
  main := fun _ => app.run
  perform := CoWorld.perform
  env := HandlerEvent.apply
  fresh := ⟨false, .quiet⟩
  discipline := closing

/-- What the lifecycle knows is so. -/
def DrainView.Holds (world : CoWorld) : DrainView → Prop
  | .quiet => world.accepting = false ∧ world.handlers = 0
  | .accepting => True
  | .stopped => world.accepting = false
  | .interrupted => world.accepting = false ∧ (world.closeables ≠ [] → world.handlers = 0)

structure Knowing (world : CoWorld) (views : Nat → CoView) : Prop where
  before : world.ranOnce = false →
    DrainView.quiet.Holds world ∧ ∀ thread, (views thread).claimed = false
  sole : ∀ thread other, (views thread).claimed = true → (views other).claimed = true →
    thread = other
  resting : ∀ thread, (views thread).claimed = false → (views thread).drain = .quiet
  holds : ∀ thread, (views thread).claimed = true → (views thread).drain.Holds world

def toldReason : PoolStep Unit CoChoice HandlerEvent → Option Error
  | .step _ (.reason reason) => reason
  | _ => none

/-- The host reports a close reason only when no accepted handler is running or nothing
is left to close. -/
def ClosesQuietly (pool : Pool CoCall CoCall.Answer (CallEnd Nat)
    CoWorld CoView) (label : PoolStep Unit CoChoice HandlerEvent) : Prop :=
  pool.asked label = some (.host .closeReason) → toldReason label ≠ none →
    pool.shared.handlers = 0 ∨ pool.shared.closeables = []

theorem Resource.isCloseable_collect (resource : Resource) :
    resource.collect.isCloseable = false := by
  cases hclosed : resource.closed <;> cases hinstance : resource.hasInstance <;>
    cases hspec : resource.spec.asCloseable <;>
    simp [collect, isCloseable, hclosed, hinstance, hspec]

theorem CoWorld.closeables_collect (world : CoWorld) :
    { world with resources := world.resources.map Resource.collect }.closeables = [] := by
  rw [closeables, List.filter_eq_nil_iff]
  intro index _
  rw [List.getElem?_map, Option.any_map]
  cases world.resources[index]? with
  | none => exact Bool.false_ne_true
  | some resource => simp [Resource.isCloseable_collect]

theorem CoWorld.wait_holds {round : Round} {choice : CoChoice} {world later : CoWorld}
    {answer : CallEnd (Except Error Unit)} (haccepting : world.accepting = false)
    (hhost : world.host (.waitHandlersDone round) choice = some (answer, later)) :
    later = world ∧
      (draining.after (.waitHandlersDone round) answer .stopped).Holds world := by
  cases choice with
  | result result =>
      change (if result = .returned (.ok ()) ∧ world.handlers ≠ 0 then none
        else some (result, world)) = some (answer, later) at hhost
      by_cases hrunning : result = .returned (.ok ()) ∧ world.handlers ≠ 0
      · rw [if_pos hrunning] at hhost
        cases hhost
      · rw [if_neg hrunning] at hhost
        cases hhost
        refine ⟨rfl, ?_⟩
        obtain ⟨error | ⟨⟩⟩ | what | - := answer
        · exact haccepting
        · exact ⟨haccepting, by simpa using hrunning⟩
        · exact haccepting
        · exact haccepting
  | unit | ended | created | reason => cases hhost

/-- A call to the host keeps what its lifecycle knows true. -/
theorem CoWorld.host_holds {call : HostCall} {choice : CoChoice} {world later : CoWorld}
    {answer : call.Answer} {drain : DrainView} (hholds : drain.Holds world)
    (hallows : draining.allows call drain)
    (hguard : ∀ reason, call = .closeReason → choice = .reason (some reason) →
      world.handlers = 0 ∨ world.closeables = [])
    (hhost : world.host call choice = some (answer, later)) :
    later.ranOnce = world.ranOnce ∧ (draining.after call answer drain).Holds later := by
  cases call with
  | waitHandlersDone round =>
      obtain rfl : drain = .stopped := hallows
      obtain ⟨rfl, hafter⟩ := CoWorld.wait_holds hholds hhost
      exact ⟨rfl, hafter⟩
  | closeReason =>
      obtain rfl : drain = .stopped := hallows
      cases choice with
      | reason given =>
          change Option Error at answer
          cases hhost
          cases given with
          | none => exact ⟨rfl, hholds⟩
          | some reason =>
              refine ⟨rfl, hholds, fun hleft => ?_⟩
              exact (hguard reason rfl rfl).resolve_right hleft
      | unit | ended | result | created => cases hhost
  | startScheduler =>
      cases choice with
      | ended result => cases hhost; exact ⟨rfl, hholds⟩
      | unit | result | created | reason => cases hhost
  | create =>
      cases choice with
      | result result => cases hhost; exact ⟨rfl, hholds⟩
      | unit | ended | created | reason => cases hhost
  | start =>
      cases choice with
      | result result => cases hhost; exact ⟨rfl, trivial⟩
      | unit | ended | created | reason => cases hhost
  | stopAccepting => cases hhost; exact ⟨rfl, rfl⟩
  | waitShutdownRequest | close => cases hhost; exact ⟨rfl, hholds⟩
  | parkUndrained => cases answer
  | onSchedulerStarted | onHandlersDrained | onRelease => cases hhost

namespace Knowing

variable {world later : CoWorld} {views : Nat → CoView}

theorem start (specs : List ResourceSpec) :
    Knowing (.fresh specs) (fun _ => ⟨false, .quiet⟩) where
  before := fun _ => ⟨⟨rfl, rfl⟩, fun _ => rfl⟩
  sole := fun _ _ hclaimed => nomatch hclaimed
  resting := fun _ _ => rfl
  holds := fun _ hclaimed => nomatch hclaimed

theorem claimed_step (hknowing : Knowing world views) {thread : Nat} {view : CoView}
    (hclaimed : (views thread).claimed = true) (hview : view.claimed = true)
    (honce : later.ranOnce = world.ranOnce) (hholds : view.drain.Holds later) :
    Knowing later (Function.update views thread view) := by
  have hsole : ∀ other, (Function.update views thread view other).claimed = true →
      other = thread := by
    intro other hother
    by_cases hsame : other = thread
    · exact hsame
    · rw [Function.update_of_ne hsame] at hother
      exact hknowing.sole other thread hother hclaimed
  constructor
  · intro hbefore
    rw [honce] at hbefore
    rw [(hknowing.before hbefore).2 thread] at hclaimed
    cases hclaimed
  · intro first second hfirst hsecond
    rw [hsole first hfirst, hsole second hsecond]
  · intro other hother
    by_cases hsame : other = thread
    · rw [hsame, Function.update_self, hview] at hother
      cases hother
    · rw [Function.update_of_ne hsame] at hother ⊢
      exact hknowing.resting other hother
  · intro other hother
    rw [hsole other hother, Function.update_self]
    exact hholds

/-- A change that leaves everything known true. -/
theorem mono (hknowing : Knowing world views) (honce : later.ranOnce = world.ranOnce)
    (hholds : ∀ drain : DrainView, drain.Holds world → drain.Holds later) :
    Knowing later views := by
  constructor
  · intro hbefore
    rw [honce] at hbefore
    exact ⟨hholds _ (hknowing.before hbefore).1, (hknowing.before hbefore).2⟩
  · exact hknowing.sole
  · exact hknowing.resting
  · intro other hother
    exact hholds _ (hknowing.holds other hother)

/-- A step that concerns neither the host nor the claim. -/
theorem quiet_step (hknowing : Knowing world views) {thread : Nat} {view : CoView}
    (hview : view = views thread) (honce : later.ranOnce = world.ranOnce)
    (hholds : ∀ drain : DrainView, drain.Holds world → drain.Holds later) :
    Knowing later (Function.update views thread view) := by
  rw [hview, Function.update_eq_self]
  exact hknowing.mono honce hholds

/-- The first thread that gets through takes the claim. -/
theorem claim (hknowing : Knowing world views) (thread : Nat) :
    Knowing { world with ranOnce := true } (Function.update views thread
      (closing.after .exchangeRanOnce (!world.ranOnce) (views thread))) := by
  cases honce : world.ranOnce with
  | true => exact hknowing.quiet_step rfl honce.symm (fun _ hholds => hholds)
  | false =>
      obtain ⟨hquiet, hnone⟩ := hknowing.before honce
      have hsole : ∀ other, (Function.update views thread
          { views thread with claimed := true } other).claimed = true →
          other = thread := by
        intro other hother
        by_contra hsame
        rw [Function.update_of_ne hsame, hnone other] at hother
        cases hother
      constructor
      · intro hbefore
        cases hbefore
      · intro first second hfirst hsecond
        rw [hsole first hfirst, hsole second hsecond]
      · intro other hother
        by_cases hsame : other = thread
        · rw [hsame, Function.update_self] at hother
          cases hother
        · rw [Function.update_of_ne hsame]
          exact hknowing.resting other (hnone other)
      · intro other hother
        rw [hsole other hother, Function.update_self]
        change (views thread).drain.Holds _
        rw [hknowing.resting thread (hnone thread)]
        exact hquiet

/-- A collection finds no handler running or nothing to close. -/
theorem collect (hknowing : Knowing world views) {thread : Nat}
    (hclaimed : (views thread).claimed = true)
    (hdrain : (views thread).drain = .quiet ∨ (views thread).drain = .interrupted) :
    Knowing { world with resources := world.resources.map Resource.collect }
      (Function.update views thread
        (closing.after .collectCloseables world.closeables (views thread))) := by
  have hholds := hknowing.holds thread hclaimed
  cases hfound : world.closeables with
  | nil =>
      refine hknowing.quiet_step rfl rfl ?_
      rintro (- | - | - | -) hdrain
      · exact hdrain
      · trivial
      · exact hdrain
      · exact ⟨hdrain.1, fun hleft => absurd world.closeables_collect hleft⟩
  | cons index rest =>
      refine hknowing.claimed_step hclaimed (by exact hclaimed) rfl ?_
      obtain hquiet | hinterrupted := hdrain
      · rw [hquiet] at hholds
        exact hholds
      · rw [hinterrupted] at hholds
        exact ⟨hholds.1, hholds.2 (by rw [hfound]; exact List.cons_ne_nil _ _)⟩

/-- The thread that starts the resources runs before any handler is accepted. -/
theorem keep (hknowing : Knowing world views) {thread : Nat} (index : Nat)
    (hclaimed : (views thread).claimed = true) (hquiet : (views thread).drain = .quiet) :
    Knowing (world.keepInstance index) (Function.update views thread (views thread)) := by
  have hholds := hknowing.holds thread hclaimed
  refine hknowing.claimed_step hclaimed hclaimed rfl ?_
  rw [hquiet] at hholds ⊢
  exact hholds

theorem perform (hknowing : Knowing world views) {thread : Nat} {call : CoCall}
    {choice : CoChoice} {answer : call.Answer} (hallows : closing.allows call (views thread))
    (hguard : ∀ reason, call = .host .closeReason → choice = .reason (some reason) →
      world.handlers = 0 ∨ world.closeables = [])
    (hperform : world.perform call choice = some (answer, later)) :
    Knowing later (Function.update views thread (closing.after call answer (views thread))) := by
  cases call with
  | host call =>
      obtain ⟨honce, hafter⟩ := CoWorld.host_holds
        (hknowing.holds thread hallows.1) hallows.2
        (fun reason hcall hchoice => hguard reason (congrArg CoCall.host hcall) hchoice) hperform
      exact hknowing.claimed_step hallows.1 hallows.1 honce hafter
  | exchangeRanOnce =>
      cases hperform
      exact hknowing.claim thread
  | collectCloseables =>
      cases hperform
      exact hknowing.collect hallows.1 hallows.2
  | keepInstance index =>
      cases hperform
      exact hknowing.keep index hallows.1 hallows.2
  | claimActive | releaseActive | closeResource | releaseServices =>
      cases hperform
      exact hknowing.quiet_step rfl rfl (fun drain hdrain => by cases drain <;> exact hdrain)
  | factory index =>
      cases choice with
      | created result =>
          cases hperform
          exact hknowing.quiet_step rfl rfl (fun _ hholds => hholds)
      | unit | ended | result | reason => cases hperform
  | startInstance | bindServices =>
      cases choice with
      | result result =>
          cases hperform
          exact hknowing.quiet_step rfl rfl (fun _ hholds => hholds)
      | unit | ended | created | reason => cases hperform

/-- Handlers come only while the host accepts them. -/
theorem event (hknowing : Knowing world views) {event : HandlerEvent}
    (happly : event.apply world = some later) : Knowing later views := by
  cases event with
  | accepted =>
      simp only [HandlerEvent.apply] at happly
      split at happly
      case isFalse => cases happly
      case isTrue haccepting =>
        cases happly
        refine hknowing.mono rfl ?_
        rintro (- | - | - | -) hholds
        · rw [hholds.1] at haccepting
          cases haccepting
        · trivial
        · rw [show world.accepting = false from hholds] at haccepting
          cases haccepting
        · rw [hholds.1] at haccepting
          cases haccepting
  | ended =>
      simp only [HandlerEvent.apply] at happly
      split at happly
      case isTrue => cases happly
      case isFalse hrunning =>
        cases happly
        refine hknowing.mono rfl ?_
        rintro (- | - | - | -) hholds
        · exact absurd hholds.2 hrunning
        · trivial
        · exact hholds
        · exact ⟨hholds.1, fun hleft => absurd (hholds.2 hleft) hrunning⟩

end Knowing

section

variable [Infra] {app : CoApp}

theorem coSystem_disciplined : (coSystem app).Disciplined (fun _ _ => True) where
  main := fun _ => app.run_closing
  idle := trivial
  answers := fun _ _ _ _ _ _ => trivial

theorem knowing_of_reachable
    {pool : Pool CoCall CoCall.Answer (CallEnd Nat) CoWorld CoView}
    (hreach : (coSystem app).machine.ReachableWhere ClosesQuietly pool) :
    Knowing pool.shared pool.views := by
  refine coSystem_disciplined.invariant
    (motive := fun world views => Knowing world views) ?_ ?_ ?_ hreach
  · rintro world rfl
    exact .start app.resourceSpecs
  · intro pool thread choice call answer world hacts hknowing
    refine hknowing.perform hacts.allowed ?_ hacts.performed
    rintro reason rfl rfl
    obtain ⟨rest, hasked⟩ := hacts.asked
    exact hacts.guarded (by rw [Pool.asked, hasked]; rfl) (by exact Option.some_ne_none reason)
  · intro pool event world _ _ hevent hknowing
    exact hknowing.event hevent

/-- No resource is closed while a handler is running. -/
theorem resources_close_quietly
    {pool : Pool CoCall CoCall.Answer (CallEnd Nat) CoWorld CoView}
    (hreach : (coSystem app).machine.ReachableWhere ClosesQuietly pool)
    {label : PoolStep Unit CoChoice HandlerEvent} {index : Nat}
    (hasked : pool.asked label = some (.closeResource index)) :
    pool.shared.handlers = 0 := by
  obtain ⟨thread, hclaimed, hquiet⟩ := coSystem_disciplined.asked_allowed hreach hasked
  have hholds := (knowing_of_reachable hreach).holds thread hclaimed
  rw [hquiet] at hholds
  exact hholds.2

end

instance (pool : Pool CoCall CoCall.Answer (CallEnd Nat) CoWorld CoView)
    (label : PoolStep Unit CoChoice HandlerEvent) : Decidable (ClosesQuietly pool label) :=
  inferInstanceAs (Decidable (_ → _ → _))

/-- An application with one resource. -/
def oneResource : CoApp where
  options := ⟨.ok (), "127.0.0.1", [], 10, .legacyHeaders⟩
  build := ⟨false, false⟩
  hasHost := true
  resourceSpecs := [⟨"db", false, false, true⟩]

/-- The application has started, and one handler is accepted before the shutdown. -/
def untilDrain : List (PoolStep Unit CoChoice HandlerEvent) :=
  [.spawn (), .step 0 .unit, .step 0 .unit, .step 0 (.ended (.returned ())),
    .step 0 (.result (.returned (.ok ()))), .step 0 (.result (.returned (.ok ()))),
    .step 0 (.result (.returned (.ok ()))), .env .accepted, .step 0 .unit, .step 0 .unit]

theorem resources_close_quietly_interrupted :
    letI := permissiveInfra
    ∃ pool, (coSystem oneResource).machine.ReachableWhere ClosesQuietly pool ∧
      pool.asked (.step 0 .unit : PoolStep Unit CoChoice HandlerEvent) =
        some (.closeResource 0) ∧ pool.shared.handlers = 0 := by
  let _ := permissiveInfra
  have hboot : (coSystem oneResource).machine.ReachableWhere ClosesQuietly
      ((coSystem oneResource).boot (.fresh oneResource.resourceSpecs)) := .start ⟨_, rfl, rfl⟩
  obtain ⟨pool, hreach, htest⟩ := hboot.exec_any
    (fun pool label => decide (ClosesQuietly pool label)) (fun _ _ => of_decide_eq_true)
    (untilDrain ++ [.step 0 (.result (.returned (.error ⟨.closed, "", "", "", []⟩))), .env .ended,
      .step 0 (.reason (some ⟨.closed, "", "", "", []⟩)), .step 0 .unit, .step 0 .unit])
    (fun pool => pool.asked (.step 0 .unit : PoolStep Unit CoChoice HandlerEvent) =
      some (.closeResource 0)) (by decide)
  have hasked := of_decide_eq_true htest
  exact ⟨pool, hreach, hasked, resources_close_quietly hreach hasked⟩

/-- A close of the host interrupts the drain, and the release closes the resource under
the handler that is still running. -/
theorem resource_closes_under_handler :
    letI := permissiveInfra
    ¬∀ pool, (coSystem oneResource).machine.Reachable pool →
      ∀ (label : PoolStep Unit CoChoice HandlerEvent) index,
        pool.asked label = some (.closeResource index) → pool.shared.handlers = 0 := by
  let _ := permissiveInfra
  intro hclaim
  have hboot : (coSystem oneResource).machine.Reachable
      ((coSystem oneResource).boot (.fresh oneResource.resourceSpecs)) := .start ⟨_, rfl, rfl⟩
  obtain ⟨pool, hreach, htest⟩ := hboot.exec_any (fun _ _ => true) (fun _ _ _ => trivial)
    (untilDrain ++ [.step 0 (.result (.returned (.error ⟨.closed, "", "", "", []⟩))),
      .step 0 (.reason (some ⟨.closed, "", "", "", []⟩)), .step 0 .unit, .step 0 .unit])
    (fun pool => pool.asked (.step 0 .unit : PoolStep Unit CoChoice HandlerEvent) =
      some (.closeResource 0) ∧ pool.shared.handlers = 1) (by decide)
  obtain ⟨hasked, hrunning⟩ := of_decide_eq_true htest
  have hnone := hclaim pool hreach _ 0 hasked
  rw [hrunning] at hnone
  cases hnone

end BbtFramework.Host
