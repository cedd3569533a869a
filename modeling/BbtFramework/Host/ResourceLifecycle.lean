import BbtFramework.Host.CoApp

/-!
# The life of the resources

`_StartResources` runs the factories and the starts in the order of the map and stops at
the first failure; `_CloseResources` closes what has an instance and was not closed.  The
records below carry what the sources' maps hold of a resource, with how its factory and its
start end, so that a run of the lifecycle says what became of every instance.
-/

namespace BbtFramework.Host

open BbtFramework.Library

/-- A registered resource, and how its factory and its `Start` end when they are called. -/
structure PlannedResource where
  spec : ResourceSpec
  onFactory : CallEnd (Except Error Bool)
  onStart : CallEnd (Except Error Unit)

/-- A resource of a run.  `hasInstance` and `closed` are fields of its spec, `visible` says
that `m_resources` has its key; `created`, `started` and `closes` record that the factory
gave an instance, how `Start` ended, and how often `Close` was called. -/
structure HeldResource where
  plan : PlannedResource
  hasInstance : Bool
  closed : Bool
  visible : Bool
  created : Bool
  started : Option (CallEnd (Except Error Unit))
  closes : Nat

namespace HeldResource

/-- After the registration; an instance that came without a factory is visible at once. -/
def registered (plan : PlannedResource) : HeldResource where
  plan := plan
  hasInstance := !plan.spec.factory
  closed := false
  visible := !plan.spec.factory
  created := false
  started := none
  closes := 0

/-- `spec.instance = instance`. -/
def keep (resource : HeldResource) : HeldResource :=
  { resource with hasInstance := true }

/-- `m_resources->emplace`. -/
def publish (resource : HeldResource) : HeldResource :=
  { resource with visible := true }

end HeldResource

/-- The handlers of a `try` block. -/
def CallEnd.caught {Value : Type} (ended : CallEnd Value)
    (handler : String → CallEnd Value) (other : CallEnd Value) : CallEnd Value :=
  match ended with
  | .returned value => .returned value
  | .threw what => handler what
  | .threwOther => other

section

variable [Infra]

/-- The `try` block around a factory or a `Start`. -/
def tryCall {Value : Type} (step name : String) (ended : CallEnd (Except Error Value)) :
    CallEnd (Except Error Value) :=
  ended.caught (fun what => .returned (.error (CoApp.threwError step name what)))
    (.returned (.error (CoApp.threwOtherError step name)))

def nullFactoryError : Error :=
  makeError .internalError "add_resource factory returned null"

namespace HeldResource

/-- The call of `Start`, for an instance that has one.  A failure keeps the instance out of
`m_resources`; an exception that nothing caught would lose it. -/
def start (made : HeldResource) : Option (CallEnd (Except Error Unit)) × HeldResource :=
  if ¬made.plan.spec.start then (none, made.keep.publish)
  else
    let called := { made with started := some made.plan.onStart }
    match tryCall "Start" made.plan.spec.name made.plan.onStart with
    | .threw what => (some (.threw what), called)
    | .threwOther => (some .threwOther, called)
    | .returned (.error reason) => (some (.returned (.error reason)), called.keep)
    | .returned (.ok ()) => (none, called.keep.publish)

/-- One round of the loop: what it returns, unless it goes on. -/
def startUp (resource : HeldResource) :
    Option (CallEnd (Except Error Unit)) × HeldResource :=
  if ¬resource.plan.spec.factory then (none, resource)
  else
    match tryCall "factory" resource.plan.spec.name resource.plan.onFactory with
    | .threw what => (some (.threw what), resource)
    | .threwOther => (some .threwOther, resource)
    | .returned (.error reason) => (some (.returned (.error reason)), resource)
    | .returned (.ok false) => (some (.returned (.error nullFactoryError)), resource)
    | .returned (.ok true) => { resource with created := true }.start

end HeldResource

/-- `_StartResources`; the resources after the failing one are left alone. -/
def startResources : List HeldResource → CallEnd (Except Error Unit) × List HeldResource
  | [] => (.returned (.ok ()), [])
  | resource :: rest =>
      match resource.startUp with
      | (some ended, resource) => (ended, resource :: rest)
      | (none, resource) =>
          let after := startResources rest
          (after.1, resource :: after.2)

end

def HeldResource.close (resource : HeldResource) : HeldResource :=
  if resource.closed || !resource.hasInstance || !resource.plan.spec.asCloseable then resource
  else { resource with closed := true, closes := resource.closes + 1 }

/-- `_CloseResources`. -/
def closeResources (resources : List HeldResource) : List HeldResource :=
  resources.map HeldResource.close

/-- The resources, and whether `on_release` has let go of the services. -/
structure ResourceWorld where
  resources : List HeldResource
  released : Bool

namespace ResourceWorld

/-- At the end of the registration. -/
def fresh (plans : List PlannedResource) : ResourceWorld where
  resources := plans.map HeldResource.registered
  released := false

/-- What the hooks of `run` do for the calls of the lifecycle.  `_BindServices` and the
host answer what they like. -/
def Serves [Infra] : (call : HostCall) → ResourceWorld → call.Answer → ResourceWorld → Prop
  | .onSchedulerStarted, before, answer, after =>
      after = { before with resources := (startResources before.resources).2 } ∧
        ((startResources before.resources).1 = .returned (.ok ()) ∨
          answer = (startResources before.resources).1)
  | .onHandlersDrained, before, answer, after =>
      answer = .returned () ∧
        after = { before with resources := closeResources before.resources }
  | .onRelease, before, answer, after =>
      answer = .returned () ∧
        after = { resources := closeResources before.resources, released := true }
  | _, before, _, after => after = before

end ResourceWorld

namespace HeldResource

/-- The instance was registered, or the factory has given it. -/
def Owned (resource : HeldResource) : Prop :=
  resource.plan.spec.factory = false ∨ resource.created = true

/-- The records agree with each other. -/
structure Sound (resource : HeldResource) : Prop where
  closes : resource.closes = if resource.closed then 1 else 0
  closed : resource.closed = true →
    resource.hasInstance = true ∧ resource.plan.spec.asCloseable = true
  instances : resource.hasInstance = true ↔ resource.Owned
  visible : resource.visible = true ↔
    resource.Owned ∧ (resource.started = none ∨ resource.started = some (.returned (.ok ())))
  begun : resource.started ≠ none → resource.Owned

/-- Sound, and its factory has not run. -/
structure Fresh (resource : HeldResource) : Prop extends Sound resource where
  created : resource.created = false
  started : resource.started = none

theorem fresh_registered (plan : PlannedResource) : (registered plan).Fresh := by
  constructor
  · constructor
    · rfl
    · simp [registered]
    · simp [registered, Owned]
    · simp [registered, Owned]
    · simp [registered]
  · rfl
  · rfl

theorem Sound.close {resource : HeldResource} (hsound : resource.Sound) :
    resource.close.Sound := by
  unfold HeldResource.close
  split
  case isTrue => exact hsound
  case isFalse hopen =>
    simp only [Bool.or_eq_true, Bool.not_eq_true', not_or, Bool.not_eq_true,
      Bool.not_eq_false] at hopen
    obtain ⟨⟨hclosed, hinstance⟩, hcloseable⟩ := hopen
    constructor
    · have hcloses := hsound.closes
      rw [hclosed] at hcloses
      simp [hcloses]
    · exact fun _ => ⟨hinstance, hcloseable⟩
    · exact hsound.instances
    · exact hsound.visible
    · exact hsound.begun

theorem Fresh.close {resource : HeldResource} (hfresh : resource.Fresh) :
    resource.close.Fresh := by
  refine ⟨hfresh.toSound.close, ?_, ?_⟩
  · unfold HeldResource.close
    split
    · exact hfresh.created
    · exact hfresh.created
  · unfold HeldResource.close
    split
    · exact hfresh.started
    · exact hfresh.started

theorem Sound.closed_close {resource : HeldResource} (hsound : resource.Sound)
    (howned : resource.Owned) (hcloseable : resource.plan.spec.asCloseable = true) :
    resource.close.closed = true := by
  unfold HeldResource.close
  rw [hsound.instances.mpr howned, hcloseable]
  cases hclosed : resource.closed with
  | true => simp [hclosed]
  | false => simp

@[simp]
theorem plan_close (resource : HeldResource) : resource.close.plan = resource.plan := by
  unfold HeldResource.close
  split
  · rfl
  · rfl

@[simp]
theorem created_close (resource : HeldResource) :
    resource.close.created = resource.created := by
  unfold HeldResource.close
  split
  · rfl
  · rfl

section

variable [Infra]

theorem tryCall_returned {Value : Type} (step name : String)
    (ended : CallEnd (Except Error Value)) :
    ∃ result, tryCall step name ended = .returned result := by
  cases ended with
  | returned result => exact ⟨result, rfl⟩
  | threw what => exact ⟨_, rfl⟩
  | threwOther => exact ⟨_, rfl⟩

/-- Only a `Start` that has returned `ok` passes its `try` block as `ok`. -/
theorem tryCall_eq_ok {Value : Type} {step name : String}
    {ended : CallEnd (Except Error Value)} {value : Value} :
    tryCall step name ended = .returned (.ok value) ↔ ended = .returned (.ok value) := by
  cases ended with
  | returned result => rfl
  | threw what => simp [tryCall, CallEnd.caught]
  | threwOther => simp [tryCall, CallEnd.caught]

/-- The instance the factory has just given is started and kept. -/
theorem Fresh.start {resource : HeldResource} (hfresh : resource.Fresh)
    (hfactory : resource.plan.spec.factory = true) :
    ({ resource with created := true } : HeldResource).start.2.Sound := by
  have hnot : resource.closed = false := by
    rw [← Bool.not_eq_true]
    intro hclosed
    have howned := hfresh.instances.mp (hfresh.closed hclosed).1
    simp [Owned, hfactory, hfresh.created] at howned
  have hcloses : resource.closes = 0 := by
    rw [hfresh.closes, hnot]
    rfl
  have hhidden : resource.visible = false := by
    rw [← Bool.not_eq_true, hfresh.visible]
    simp [Owned, hfactory, hfresh.created]
  unfold HeldResource.start
  split
  case isTrue hnone =>
    constructor
    · simp [keep, publish, hnot, hcloses]
    · simp [keep, publish, hnot]
    · simp [keep, publish, Owned]
    · simp [keep, publish, Owned, hfresh.started]
    · exact fun _ => Or.inr rfl
  case isFalse hstart =>
    obtain ⟨result, hended⟩ :=
      tryCall_returned "Start" resource.plan.spec.name resource.plan.onStart
    simp only [hended]
    cases result with
    | error reason =>
        have hfailed : resource.plan.onStart ≠ .returned (.ok ()) := by
          intro hok
          rw [tryCall_eq_ok.mpr hok] at hended
          cases hended
        constructor
        · simp [keep, hnot, hcloses]
        · simp [keep, hnot]
        · simp [keep, Owned]
        · simp [keep, Owned, hhidden, hfailed]
        · exact fun _ => Or.inr rfl
    | ok done =>
        have hok : resource.plan.onStart = .returned (.ok ()) := tryCall_eq_ok.mp hended
        constructor
        · simp [keep, publish, hnot, hcloses]
        · simp [keep, publish, hnot]
        · simp [keep, publish, Owned]
        · simp [keep, publish, Owned, hok]
        · exact fun _ => Or.inr rfl

theorem Fresh.startUp {resource : HeldResource} (hfresh : resource.Fresh) :
    resource.startUp.2.Sound := by
  unfold HeldResource.startUp
  split
  case isTrue => exact hfresh.toSound
  case isFalse hfactory =>
    split
    · exact hfresh.toSound
    · exact hfresh.toSound
    · exact hfresh.toSound
    · exact hfresh.toSound
    · exact hfresh.start (by simpa using hfactory)

/-- A round leaves the plan alone. -/
@[simp]
theorem plan_startUp (resource : HeldResource) : resource.startUp.2.plan = resource.plan := by
  unfold HeldResource.startUp
  split
  · rfl
  · split
    · rfl
    · rfl
    · rfl
    · rfl
    · unfold HeldResource.start
      split
      · rfl
      · dsimp only
        split
        · rfl
        · rfl
        · rfl
        · rfl

end

end HeldResource

/-! ## The loops -/

section

variable [Infra]

theorem startResources_sound {resources : List HeldResource}
    (hfresh : ∀ resource ∈ resources, resource.Fresh) :
    ∀ resource ∈ (startResources resources).2, resource.Sound := by
  induction resources with
  | nil => exact fun _ hmem => absurd hmem List.not_mem_nil
  | cons resource rest ih =>
      obtain ⟨hfirst, hrest⟩ := List.forall_mem_cons.mp hfresh
      have hround := hfirst.startUp
      unfold startResources
      cases hstarted : resource.startUp with
      | mk ended after =>
          rw [hstarted] at hround
          cases ended with
          | none => exact List.forall_mem_cons.mpr ⟨hround, ih hrest⟩
          | some ended =>
              exact List.forall_mem_cons.mpr ⟨hround, fun other hother =>
                (hrest other hother).toSound⟩

theorem plans_startResources (resources : List HeldResource) :
    (startResources resources).2.map HeldResource.plan = resources.map HeldResource.plan := by
  induction resources with
  | nil => rfl
  | cons resource rest ih =>
      have hplan := resource.plan_startUp
      unfold startResources
      cases hstarted : resource.startUp with
      | mk ended after =>
          rw [hstarted] at hplan
          cases ended with
          | none => rw [List.map_cons, List.map_cons, ih, hplan]
          | some ended => rw [List.map_cons, List.map_cons, hplan]

end

theorem plans_closeResources (resources : List HeldResource) :
    (closeResources resources).map HeldResource.plan = resources.map HeldResource.plan := by
  unfold closeResources
  rw [List.map_map]
  exact List.map_congr_left (fun resource _ => resource.plan_close)

theorem forall_mem_closeResources {resources : List HeldResource}
    {before after : HeldResource → Prop}
    (hclose : ∀ resource, before resource → after resource.close)
    (hbefore : ∀ resource ∈ resources, before resource) :
    ∀ resource ∈ closeResources resources, after resource := by
  intro resource hmem
  obtain ⟨old, hold, rfl⟩ := List.mem_map.mp hmem
  exact hclose old (hbefore old hold)

section

variable [Infra]

def afterFactory (spec : ResourceSpec) (index : Nat) (rest : List ResourceSpec) :
    CoOp (Except Error Unit) := do
  let started : CallEnd (Except Error Unit) ← CoApp.startInstance spec index
  act (.keepInstance index)
  match started with
  | .threw what => return .error (CoApp.threwError "Start" spec.name what)
  | .threwOther => return .error (CoApp.threwOtherError "Start" spec.name)
  | .returned (.error reason) => return .error reason
  | .returned (.ok ()) => CoApp.startResources (index + 1) rest

def Continues (round : Option (CallEnd (Except Error Unit))) (program : CoOp (Except Error Unit))
    (index : Nat) (rest : List ResourceSpec) : Prop :=
  match round with
  | some ended => ∃ result performed, ended = .returned result ∧
      Program.Path program performed (.done result)
  | none => ∃ performed,
      Program.Path program performed (CoApp.startResources (index + 1) rest)

theorem Continues.call {round : Option (CallEnd (Except Error Unit))} {call : CoCall}
    (answer : call.Answer) {next : call.Answer → CoOp (Except Error Unit)} {index : Nat}
    {rest : List ResourceSpec} (hnext : Continues round (next answer) index rest) :
    Continues round (.call call next) index rest := by
  cases round with
  | none =>
      obtain ⟨performed, hpath⟩ := hnext
      exact ⟨_, .call hpath⟩
  | some ended =>
      obtain ⟨result, performed, hended, hpath⟩ := hnext
      exact ⟨result, _, hended, .call hpath⟩

theorem start_continues (made : HeldResource) (index : Nat) (rest : List ResourceSpec) :
    Continues made.start.1 (afterFactory made.plan.spec index rest) index rest := by
  unfold HeldResource.start afterFactory CoApp.startInstance
  by_cases hstart : made.plan.spec.start = true
  · rw [if_neg (by simp [hstart]), if_pos hstart]
    rcases hended : made.plan.onStart with (reason | ⟨⟩) | what | -
    · exact ⟨_, [⟨.startInstance index, .returned (.error reason)⟩, ⟨.keepInstance index, ()⟩],
        rfl, .call (.call (.refl _))⟩
    · exact ⟨[⟨.startInstance index, .returned (.ok ())⟩, ⟨.keepInstance index, ()⟩],
        .call (.call (.refl _))⟩
    · exact ⟨_, [⟨.startInstance index, .threw what⟩, ⟨.keepInstance index, ()⟩],
        rfl, .call (.call (.refl _))⟩
    · exact ⟨_, [⟨.startInstance index, .threwOther⟩, ⟨.keepInstance index, ()⟩],
        rfl, .call (.call (.refl _))⟩
  · rw [if_pos hstart, if_neg hstart]
    exact ⟨[⟨.keepInstance index, ()⟩], .call (.refl _)⟩

theorem startUp_continues (resource : HeldResource) (index : Nat) (rest : List ResourceSpec) :
    Continues resource.startUp.1
      (CoApp.startResources index (resource.plan.spec :: rest)) index rest := by
  unfold HeldResource.startUp
  rw [CoApp.startResources]
  by_cases hfactory : resource.plan.spec.factory = true
  · rw [if_neg (by simp [hfactory]), if_neg (by simp [hfactory])]
    rcases hended : resource.plan.onFactory with (reason | (- | -)) | what | -
    · exact ⟨_, [⟨.factory index, .returned (.error reason)⟩], rfl, .call (.refl _)⟩
    · exact ⟨_, [⟨.factory index, .returned (.ok false)⟩], rfl, .call (.refl _)⟩
    · have hmade := start_continues { resource with created := true } index rest
      exact @Continues.call _ _ (.factory index) (.returned (.ok true)) _ _ _ hmade
    · exact ⟨_, [⟨.factory index, .threw what⟩], rfl, .call (.refl _)⟩
    · exact ⟨_, [⟨.factory index, .threwOther⟩], rfl, .call (.refl _)⟩
  · rw [if_pos hfactory, if_pos hfactory]
    exact ⟨[], .refl _⟩

/-- The loop over the records is a path of the program of the application; no exception
leaves it. -/
theorem startResources_path (resources : List HeldResource) (index : Nat) :
    ∃ result performed, (startResources resources).1 = .returned result ∧
      Program.Path
        (CoApp.startResources index (resources.map (fun resource => resource.plan.spec)))
        performed (.done result) := by
  induction resources generalizing index with
  | nil => exact ⟨.ok (), [], rfl, .refl _⟩
  | cons resource rest ih =>
      have hround := startUp_continues resource index
        (rest.map (fun resource => resource.plan.spec))
      unfold startResources
      cases hstarted : resource.startUp with
      | mk ended after =>
          rw [hstarted] at hround
          cases ended with
          | none =>
              obtain ⟨performed, hpath⟩ := hround
              obtain ⟨result, more, hresult, hmore⟩ := ih (index + 1)
              exact ⟨result, _, hresult, hpath.trans hmore⟩
          | some ended => exact hround

end

/-! ## The order of the hooks -/

/-- Where a run of the lifecycle stands with its hooks. -/
inductive HookStage where
  | fresh
  | begun
  | released
  deriving DecidableEq, Repr

/-- The resources start once at most, and nothing is called after the release. -/
def staging : Discipline HostCall HostCall.Answer HookStage where
  allows := fun call stage =>
    match call with
    | .onSchedulerStarted => stage = .fresh
    | _ => stage ≠ .released
  possible := fun _ _ => True
  after := fun call _ stage =>
    match call with
    | .onSchedulerStarted => .begun
    | .onRelease => .released
    | _ => stage

namespace HostLifecycle

theorem waitHandlersDone_staging (life : HostLifecycle) {stage : HookStage}
    (hstage : stage ≠ .released) :
    Program.Follows staging life.waitHandlersDone stage (fun _ last => last = stage) := by
  refine .step hstage ?_
  rintro (⟨error | ⟨⟩⟩ | what | -) -
  · refine .step hstage ?_
    rintro (- | reason) -
    · refine .step hstage ?_
      rintro (⟨again | ⟨⟩⟩ | what | -) -
      · refine .step hstage ?_
        rintro (- | reason) -
        · exact .pure rfl
        · exact .pure rfl
      · exact .pure rfl
      · exact .pure rfl
      · exact .pure rfl
    · exact .pure rfl
  · exact .pure rfl
  · exact .pure rfl
  · exact .pure rfl

theorem release_staging (hooks : Hooks) (life : HostLifecycle) (interrupted : Bool)
    {stage : HookStage} (hstage : stage ≠ .released) :
    Program.Follows staging (release hooks life interrupted) stage (fun _ _ => True) := by
  have hreleased : Program.Follows staging (callHook hooks.onRelease (perform .onRelease) ())
      stage (fun _ _ => True) :=
    callHook_follows (fun _ => ⟨hstage, fun _ _ => trivial⟩) (fun _ => trivial)
  exact hreleased.andThen (fun _ _ _ => .pure trivial)

theorem shutDown_staging (hooks : Hooks) (life : HostLifecycle) {stage : HookStage}
    (hstage : stage ≠ .released) :
    Program.Follows staging (shutDown hooks life) stage (fun _ _ => True) := by
  have hclosed : ∀ life interrupted,
      Program.Follows staging (closeHost hooks life interrupted) stage (fun _ _ => True) :=
    fun life interrupted => .step hstage (fun _ _ => release_staging hooks life interrupted hstage)
  unfold shutDown
  refine .ite (fun _ => ?_) (fun _ => release_staging hooks _ false hstage)
  refine .step hstage ?_
  rintro - -
  refine .andThen (waitHandlersDone_staging _ hstage) ?_
  intro ended after hafter
  rw [hafter]
  rcases ended with ⟨⟨⟨⟩⟩ | what | -, last⟩
  · have hnoted : Program.Follows staging
        (callHook hooks.onHandlersDrained (perform .onHandlersDrained) ()) stage
        (fun _ last => last = stage) :=
      callHook_follows (fun _ => ⟨hstage, fun _ _ => rfl⟩) (fun _ => rfl)
    refine hnoted.andThen ?_
    intro noted after hafter
    rw [hafter]
    exact hclosed _ false
  · exact hclosed _ true
  · exact .step hstage (fun never => never.elim)
  · exact .pure trivial
  · exact .pure trivial

theorem startUp_staging (hooks : Hooks) (life : HostLifecycle) :
    Program.Follows staging (startUp hooks life) .fresh (fun _ last => last ≠ .released) := by
  have hprepared : Program.Follows staging
      (callHook hooks.onSchedulerStarted (perform .onSchedulerStarted) (.ok ())) .fresh
      (fun _ last => last ≠ .released) :=
    callHook_follows (fun _ => ⟨rfl, fun _ _ hsame => by cases hsame⟩)
      (fun _ hsame => by cases hsame)
  refine hprepared.andThen ?_
  rintro (⟨error | ⟨⟩⟩ | what | -) stage hstage
  · exact .pure hstage
  · refine .step hstage ?_
    rintro (⟨error | ⟨⟩⟩ | what | -) -
    · exact .pure hstage
    · exact .step hstage (fun _ _ => .pure hstage)
    · exact .pure hstage
    · exact .pure hstage
  · exact .pure hstage
  · exact .pure hstage

theorem tryStartUp_staging (hooks : Hooks) (life : HostLifecycle) :
    Program.Follows staging (tryStartUp hooks life) .fresh (fun _ last => last ≠ .released) := by
  have hfresh : HookStage.fresh ≠ .released := by decide
  refine .step hfresh ?_
  rintro (⟨⟨⟩⟩ | what | -) -
  · exact startUp_staging hooks life
  · exact .pure hfresh
  · exact .pure hfresh

theorem run_staging [Infra] (hooks : Hooks) (life : HostLifecycle) :
    Program.Follows staging (run hooks life) .fresh (fun _ _ => True) := by
  unfold run
  refine .ite (fun _ => .pure trivial) (fun _ => ?_)
  refine .ite (fun _ => .pure trivial) (fun _ => ?_)
  refine .ite (fun _ => .pure trivial) (fun _ => ?_)
  refine .andThen (tryStartUp_staging hooks _) ?_
  rintro ⟨ended, last⟩ stage hstage
  cases hcaught : caughtStartUp ended with
  | error error =>
      refine .andThen (shutDown_staging hooks _ hstage) ?_
      rintro ⟨result | what | -, final⟩ _ -
      · exact .pure trivial
      · exact .pure trivial
      · exact .pure trivial
  | ok done =>
      refine .step hstage ?_
      rintro - -
      refine .andThen (shutDown_staging hooks _ hstage) ?_
      rintro ⟨result | what | -, final⟩ _ -
      · exact .pure trivial
      · exact .pure trivial
      · exact .pure trivial

end HostLifecycle

structure ResourceWorld.Kept (plans : List PlannedResource) (world : ResourceWorld)
    (stage : HookStage) : Prop where
  plans : world.resources.map HeldResource.plan = plans
  sound : ∀ resource ∈ world.resources, resource.Sound
  fresh : stage = .fresh → ∀ resource ∈ world.resources, resource.Fresh
  reached : world.released = true → stage = .released
  settled : world.released = true → ∀ resource ∈ world.resources,
    resource.Owned → resource.plan.spec.asCloseable = true → resource.closed = true

namespace ResourceWorld

variable {plans : List PlannedResource}

theorem Kept.start (plans : List PlannedResource) :
    (ResourceWorld.fresh plans).Kept plans .fresh := by
  have hfresh : ∀ resource ∈ (ResourceWorld.fresh plans).resources, resource.Fresh := by
    intro resource hmem
    obtain ⟨plan, -, rfl⟩ := List.mem_map.mp hmem
    exact HeldResource.fresh_registered plan
  constructor
  · simp [ResourceWorld.fresh, HeldResource.registered, Function.comp_def]
  · exact fun resource hmem => (hfresh resource hmem).toSound
  · exact fun _ => hfresh
  · exact fun hreleased => by cases hreleased
  · exact fun hreleased => by cases hreleased

theorem Kept.not_released {world : ResourceWorld} {stage : HookStage}
    (hkept : world.Kept plans stage) (hstage : stage ≠ .released) : world.released = false := by
  rw [← Bool.not_eq_true]
  exact fun hreleased => hstage (hkept.reached hreleased)

theorem sound_closeResources {resources : List HeldResource}
    (hsound : ∀ resource ∈ resources, resource.Sound) :
    ∀ resource ∈ closeResources resources, resource.Sound :=
  forall_mem_closeResources (fun _ hresource => hresource.close) hsound

theorem closed_closeResources {resources : List HeldResource}
    (hsound : ∀ resource ∈ resources, resource.Sound) :
    ∀ resource ∈ closeResources resources, resource.Owned →
      resource.plan.spec.asCloseable = true → resource.closed = true := by
  refine forall_mem_closeResources (fun resource hresource howned hcloseable => ?_) hsound
  rw [HeldResource.plan_close] at hcloseable
  refine hresource.closed_close ?_ hcloseable
  unfold HeldResource.Owned at howned ⊢
  rwa [HeldResource.plan_close, HeldResource.created_close] at howned

/-- Every call the lifecycle makes keeps the account. -/
theorem Kept.serve [Infra] {before after : ResourceWorld} {stage : HookStage} {call : HostCall}
    {answer : call.Answer} (hkept : before.Kept plans stage) (hallows : staging.allows call stage)
    (hserves : Serves call before answer after) :
    after.Kept plans (staging.after call answer stage) := by
  cases call with
  | onSchedulerStarted =>
      obtain ⟨rfl, -⟩ := hserves
      have hopen := hkept.not_released (by rw [hallows]; decide)
      constructor
      · exact (plans_startResources before.resources).trans hkept.plans
      · exact startResources_sound (hkept.fresh hallows)
      · exact fun hsame => by cases hsame
      · exact fun hreleased => absurd hreleased (Bool.eq_false_iff.mp hopen)
      · exact fun hreleased => absurd hreleased (Bool.eq_false_iff.mp hopen)
  | onHandlersDrained =>
      obtain ⟨-, rfl⟩ := hserves
      have hopen := hkept.not_released hallows
      constructor
      · exact (plans_closeResources before.resources).trans hkept.plans
      · exact sound_closeResources hkept.sound
      · exact fun hfresh => forall_mem_closeResources (fun _ hresource => hresource.close)
          (hkept.fresh hfresh)
      · exact hkept.reached
      · exact fun hreleased => absurd hreleased (Bool.eq_false_iff.mp hopen)
  | onRelease =>
      obtain ⟨-, rfl⟩ := hserves
      constructor
      · exact (plans_closeResources before.resources).trans hkept.plans
      · exact sound_closeResources hkept.sound
      · exact fun hsame => by cases hsame
      · exact fun _ => rfl
      · exact fun _ => closed_closeResources hkept.sound
  | startScheduler | create | start | waitShutdownRequest | stopAccepting | waitHandlersDone
  | closeReason | parkUndrained | close =>
      obtain rfl : after = before := hserves
      exact hkept

/-- The account of a run. -/
theorem kept_of_served [Infra] {life : HostLifecycle}
    {last : HostOp (CallEnd Nat × HostLifecycle)} {world : ResourceWorld}
    (hserved : Program.Served Serves (HostLifecycle.run CoApp.hooks life) (fresh plans)
      last world) :
    ∃ stage, world.Kept plans stage :=
  (HostLifecycle.run_staging CoApp.hooks life).served (fun _ _ => trivial)
    (fun _ _ _ _ _ hallows hserves hkept => hkept.serve hallows hserves) hserved
    (.start plans)

end ResourceWorld

/-- Whatever the factories, the starts and the host do: no exception leaves
`_StartResources`; a failed `Start` keeps its resource out of `m_resources` and a successful
one puts it there; and once `on_release` was called, every instance with a close, registered
or made, has been closed once. -/
theorem resources_closed_exactly_once [Infra] {plans : List PlannedResource}
    {life : HostLifecycle} {last : HostOp (CallEnd Nat × HostLifecycle)}
    {world : ResourceWorld}
    (hserved : Program.Served ResourceWorld.Serves (HostLifecycle.run CoApp.hooks life)
      (.fresh plans) last world) :
    (∀ resources, ∃ result, (startResources resources).1 = .returned result) ∧
      world.resources.map HeldResource.plan = plans ∧
      ∀ resource ∈ world.resources,
        (∀ ended, resource.started = some ended →
          (resource.visible = true ↔ ended = .returned (.ok ()))) ∧
        (world.released = true → resource.Owned →
          resource.plan.spec.asCloseable = true → resource.closes = 1) := by
  obtain ⟨stage, hkept⟩ := ResourceWorld.kept_of_served hserved
  have hreturned : ∀ resources, ∃ result, (startResources resources).1 = .returned result := by
    intro resources
    obtain ⟨result, -, hresult, -⟩ := startResources_path resources 0
    exact ⟨result, hresult⟩
  refine ⟨hreturned, hkept.plans, fun resource hmem => ⟨?_, ?_⟩⟩
  · intro ended hended
    have hsound := hkept.sound resource hmem
    have howned : resource.Owned := hsound.begun (by rw [hended]; simp)
    rw [hsound.visible, hended]
    simp [howned]
  · intro hreleased howned hcloseable
    have hclosed := hkept.settled hreleased resource hmem howned hcloseable
    rw [(hkept.sound resource hmem).closes, if_pos hclosed]

/-- An instance that was registered, one whose `Start` throws, and a factory that is not
called after it. -/
def samplePlans : List PlannedResource :=
  [⟨⟨"cache", false, false, true⟩, .threwOther, .threwOther⟩,
    ⟨⟨"store", true, true, true⟩, .returned (.ok true), .threw "down"⟩,
    ⟨⟨"queue", true, false, true⟩, .returned (.ok true), .threwOther⟩]

/-- A failed start-up: both instances are closed once, the failed one was never visible. -/
theorem resources_closed_exactly_once_failed :
    letI := permissiveInfra
    ∃ last world, Program.Served ResourceWorld.Serves
        (HostLifecycle.run CoApp.hooks (.fresh true 10)) (.fresh samplePlans) last world ∧
      ∃ cache store queue, world.resources = [cache, store, queue] ∧
        cache.closes = 1 ∧ store.closes = 1 ∧ store.visible = false ∧ ¬queue.Owned := by
  let _ := permissiveInfra
  let first := ResourceWorld.fresh samplePlans
  let failed : ResourceWorld := { first with resources := (startResources first.resources).2 }
  let final : ResourceWorld := ⟨closeResources failed.resources, true⟩
  have hscheduler : ResourceWorld.Serves .startScheduler first (.returned ()) first := rfl
  have hstarted : ResourceWorld.Serves .onSchedulerStarted first
      (startResources first.resources).1 failed := ⟨rfl, Or.inr rfl⟩
  have hreleased : ResourceWorld.Serves .onRelease failed (.returned ()) final := ⟨rfl, rfl⟩
  have hserved : ∃ last, Program.Served ResourceWorld.Serves
      (HostLifecycle.run CoApp.hooks (.fresh true 10)) first last final :=
    ⟨_, .call hscheduler (.call hstarted (.call hreleased (.refl _ _)))⟩
  obtain ⟨last, hrun⟩ := hserved
  obtain ⟨-, -, hresources⟩ := resources_closed_exactly_once hrun
  have hcache := hresources _ (List.mem_of_getElem? (rfl : final.resources[0]? = some _))
  have hstore := hresources _ (List.mem_of_getElem? (rfl : final.resources[1]? = some _))
  refine ⟨last, final, hrun, _, _, _, rfl, ?_, ?_, ?_, ?_⟩
  · exact hcache.2 rfl (Or.inl rfl) rfl
  · exact hstore.2 rfl (Or.inr rfl) rfl
  · rw [← Bool.not_eq_true, hstore.1 (.threw "down") rfl]
    simp
  · rintro (hgiven | hmade)
    · cases hgiven
    · cases hmade

end BbtFramework.Host
