import BbtFramework.Host.ProcessLifecycle

/-!
# What the monitors report

The state and the failures that an application reports are read from its lifecycle while one
is published, and from the application else.  A closed application stays closed, and a
reported failure stays reported.
-/

namespace BbtFramework.Host

open BbtFramework.Library

namespace ProcessWorld

variable {world later : ProcessWorld} {views : Nat → ProcessView} {thread : Nat}

/-- What `shutdown_state` of an application reads. -/
def reportedState (world : ProcessWorld) (app : Nat) : Option ShutdownState :=
  match (world.shells app).lifecycle with
  | some life => (world.lifecycleAt life).map (fun object => object.life.state)
  | none => some (world.shells app).parkedState

/-- What `lifecycle_failures` of an application reads. -/
def reportedFailures (world : ProcessWorld) (app : Nat) : Option (List String) :=
  match (world.shells app).lifecycle with
  | some life => (world.lifecycleAt life).map (fun object => object.life.failures)
  | none => some (world.shells app).earlyFailures

/-- A closed application stays closed. -/
def KeepsClosed (world later : ProcessWorld) : Prop :=
  ∀ app state, world.reportedState app = some state →
    ∃ more, later.reportedState app = some more ∧ (state = .closed → more = .closed)

def KeepsFailures (world later : ProcessWorld) : Prop :=
  ∀ app failures, world.reportedFailures app = some failures →
    ∃ more, later.reportedFailures app = some more ∧ failures <+: more

/-- A step that leaves the pointers and the lifecycles alone, and adds to what an
application without a lifecycle reports. -/
structure Steady (world later : ProcessWorld) : Prop where
  lifecycle : ∀ app, (later.shells app).lifecycle = (world.shells app).lifecycle
  lives : ∀ life object, world.lifecycleAt life = some object →
    ∃ next, later.lifecycleAt life = some next ∧ next.life = object.life
  parked : ∀ app, (world.shells app).lifecycle = none →
    (world.shells app).parkedState = .closed → (later.shells app).parkedState = .closed
  early : ∀ app, (world.shells app).lifecycle = none →
    (world.shells app).earlyFailures <+: (later.shells app).earlyFailures

theorem Aside.steady (haside : world.Aside later) : world.Steady later where
  lifecycle := haside.lifecycle
  lives := by
    intro life object hfound
    obtain ⟨next, hnext, hsame⟩ := haside.keeps hfound
    exact ⟨next, hnext, hsame.life⟩
  parked := fun app _ hclosed => (haside.parked app).mpr hclosed
  early := by
    intro app _
    rw [haside.early]

theorem Steady.of_eq (hshells : later.shells = world.shells)
    (hobjects : later.objects = world.objects) : world.Steady later where
  lifecycle := fun _ => by rw [hshells]
  lives := by
    intro life object hfound
    refine ⟨object, ?_, rfl⟩
    rw [lifecycleAt, hobjects]
    exact hfound
  parked := by
    intro app _ hclosed
    rw [hshells]
    exact hclosed
  early := by
    intro app _
    rw [hshells]

theorem Steady.modifyShell {app : Nat} {change : Shell → Shell}
    (hlifecycle : (change (world.shells app)).lifecycle = (world.shells app).lifecycle)
    (hparked : (world.shells app).lifecycle = none → (world.shells app).parkedState = .closed →
      (change (world.shells app)).parkedState = .closed)
    (hearly : (world.shells app).earlyFailures <+: (change (world.shells app)).earlyFailures) :
    world.Steady (world.modifyShell app change) where
  lifecycle := fun _ => shells_modifyShell_same Shell.lifecycle hlifecycle
  lives := fun _ object hfound => ⟨object, hfound, rfl⟩
  parked := by
    intro other hnone hclosed
    by_cases heq : other = app
    · rw [heq] at hnone hclosed ⊢
      rw [shells_modifyShell_self]
      exact hparked hnone hclosed
    · rw [shells_modifyShell_ne heq]
      exact hclosed
  early := by
    intro other _
    by_cases heq : other = app
    · rw [heq, shells_modifyShell_self]
      exact hearly
    · rw [shells_modifyShell_ne heq]

theorem Steady.modifyObject {life : Nat} {move : RunObject → RunObject}
    (hmove : ∀ object, (move object).life = object.life) :
    world.Steady (world.modifyObject life move) where
  lifecycle := fun _ => rfl
  lives := by
    intro other object hfound
    rcases lifecycleAt_modifyObject_of hfound with hsame | hmoved
    · exact ⟨object, hsame, rfl⟩
    · exact ⟨move object, hmoved, hmove object⟩
  parked := fun _ _ hclosed => hclosed
  early := fun _ _ => List.prefix_rfl

theorem Steady.keepsClosed (hsteady : world.Steady later) : world.KeepsClosed later := by
  intro app state hreported
  unfold reportedState at hreported ⊢
  rw [hsteady.lifecycle]
  cases hpointer : (world.shells app).lifecycle with
  | none =>
      rw [hpointer] at hreported
      cases hreported
      exact ⟨_, rfl, hsteady.parked app hpointer⟩
  | some life =>
      rw [hpointer] at hreported
      obtain ⟨object, hfound, rfl⟩ := Option.map_eq_some_iff.mp hreported
      obtain ⟨next, hnext, hlife⟩ := hsteady.lives life object hfound
      refine ⟨next.life.state, Option.map_eq_some_iff.mpr ⟨next, hnext, rfl⟩, ?_⟩
      rw [hlife]
      exact id

theorem Steady.keepsFailures (hsteady : world.Steady later) : world.KeepsFailures later := by
  intro app failures hreported
  unfold reportedFailures at hreported ⊢
  rw [hsteady.lifecycle]
  cases hpointer : (world.shells app).lifecycle with
  | none =>
      rw [hpointer] at hreported
      cases hreported
      exact ⟨_, rfl, hsteady.early app hpointer⟩
  | some life =>
      rw [hpointer] at hreported
      obtain ⟨object, hfound, rfl⟩ := Option.map_eq_some_iff.mp hreported
      obtain ⟨next, hnext, hlife⟩ := hsteady.lives life object hfound
      refine ⟨next.life.failures, Option.map_eq_some_iff.mpr ⟨next, hnext, rfl⟩, ?_⟩
      rw [hlife]

/-- Every action but the write of a pointer is steady. -/
theorem Sound.steady {act : ProcessAct} {ended : CallEnd Nat} {answer : act.Answer}
    (hsound : world.Sound views) (hallowed : (views thread).allows act)
    (hperform : world.perform act ended = some (answer, later))
    (hpointer : ∀ app pointer, act ≠ .setLifecycle app pointer) : world.Steady later := by
  have hstands := hsound.stands thread
  cases act with
  | claimActive app =>
      dsimp only [ProcessWorld.perform] at hperform
      cases hactive : world.active with
      | some claimed =>
          rw [hactive] at hperform
          cases hperform
          exact .of_eq rfl rfl
      | none =>
          rw [hactive] at hperform
          cases hperform
          exact .of_eq rfl rfl
  | releaseActive =>
      cases hperform
      exact .of_eq rfl rfl
  | exchangeRanOnce app =>
      cases hperform
      exact .modifyShell rfl (fun _ hclosed => hclosed) List.prefix_rfl
  | appendEarly app failures =>
      cases hperform
      exact .modifyShell rfl (fun _ hclosed => hclosed) (List.prefix_append _ _)
  | construct app hasHost stepBudget =>
      cases hperform
      refine ⟨fun _ => rfl, ?_, fun _ _ hclosed => hclosed, fun _ _ => List.prefix_rfl⟩
      intro life object hfound
      have hlt : life < world.objects.length := (List.getElem?_eq_some_iff.mp hfound).1
      exact ⟨object, (List.getElem?_append_left hlt).trans hfound, rfl⟩
  | lock app =>
      dsimp only [ProcessWorld.perform] at hperform
      split at hperform <;> cases hperform
      exact .modifyShell rfl (fun _ hclosed => hclosed) List.prefix_rfl
  | unlock app =>
      cases hperform
      exact .modifyShell rfl (fun _ hclosed => hclosed) List.prefix_rfl
  | setLifecycle app pointer => exact absurd rfl (hpointer app pointer)
  | readLifecycle app =>
      cases hperform
      exact (Aside.refl world).steady
  | enterRun life =>
      cases hperform
      exact .modifyObject (fun _ => rfl)
  | leaveRun life =>
      dsimp only [ProcessWorld.perform] at hperform
      split at hperform <;> cases hperform
      exact .modifyObject (fun _ => rfl)
  | collectFailures app life =>
      obtain ⟨object, -, heq⟩ := Option.map_eq_some_iff.mp hperform
      cases heq
      exact .modifyShell rfl (fun _ hclosed => hclosed) (List.prefix_append _ _)
  | park app life =>
      obtain ⟨object, -, heq⟩ := Option.map_eq_some_iff.mp hperform
      cases heq
      rw [show (views thread).stage = _ from hallowed] at hstands
      refine .modifyShell rfl ?_ List.prefix_rfl
      intro hnone
      cases hnone.symm.trans hstands.1
  | destroy life =>
      cases hperform
      exact .modifyObject (fun _ => rfl)
  | setShutdownReq app =>
      cases hperform
      exact .modifyShell rfl (fun _ hclosed => hclosed) List.prefix_rfl
  | requestShutdown life =>
      cases hperform
      exact .modifyObject (fun _ => rfl)
  | state life =>
      obtain ⟨object, -, heq⟩ := Option.map_eq_some_iff.mp hperform
      cases heq
      exact (Aside.refl world).steady
  | incompleteSteps life =>
      obtain ⟨object, -, heq⟩ := Option.map_eq_some_iff.mp hperform
      cases heq
      exact (Aside.refl world).steady
  | failures life =>
      obtain ⟨object, -, heq⟩ := Option.map_eq_some_iff.mp hperform
      cases heq
      exact (Aside.refl world).steady
  | parkClosing app =>
      cases hperform
      exact Aside.parkClosing.steady
  | parkedState app =>
      cases hperform
      exact (Aside.refl world).steady
  | earlyFailures app =>
      cases hperform
      exact (Aside.refl world).steady

section

variable {app life : Nat}

theorem reportedState_published {object : RunObject}
    (hpublished : (world.shells app).lifecycle = some life)
    (hfound : world.lifecycleAt life = some object) :
    world.reportedState app = some object.life.state := by
  rw [reportedState, hpublished]
  exact congrArg (Option.map _) hfound

theorem reportedFailures_published {object : RunObject}
    (hpublished : (world.shells app).lifecycle = some life)
    (hfound : world.lifecycleAt life = some object) :
    world.reportedFailures app = some object.life.failures := by
  rw [reportedFailures, hpublished]
  exact congrArg (Option.map _) hfound

theorem reportedState_parked (hnone : (world.shells app).lifecycle = none) :
    world.reportedState app = some (world.shells app).parkedState := by
  rw [reportedState, hnone]

theorem reportedFailures_parked (hnone : (world.shells app).lifecycle = none) :
    world.reportedFailures app = some (world.shells app).earlyFailures := by
  rw [reportedFailures, hnone]

/-- The write of a pointer matters to its application only. -/
theorem keepsClosed_pointer {pointer : Option Nat}
    (hat : ∀ state, world.reportedState app = some state → ∃ more,
      (world.modifyShell app (fun shell => { shell with lifecycle := pointer })).reportedState
        app = some more ∧ (state = .closed → more = .closed)) :
    world.KeepsClosed
      (world.modifyShell app (fun shell => { shell with lifecycle := pointer })) := by
  intro other state hreported
  by_cases heq : other = app
  · rw [heq] at hreported ⊢
    exact hat state hreported
  · refine ⟨state, ?_, id⟩
    unfold reportedState at hreported ⊢
    rw [shells_modifyShell_ne heq]
    exact hreported

theorem keepsFailures_pointer {pointer : Option Nat}
    (hat : ∀ failures, world.reportedFailures app = some failures → ∃ more,
      (world.modifyShell app (fun shell => { shell with lifecycle := pointer })).reportedFailures
        app = some more ∧ failures <+: more) :
    world.KeepsFailures
      (world.modifyShell app (fun shell => { shell with lifecycle := pointer })) := by
  intro other failures hreported
  by_cases heq : other = app
  · rw [heq] at hreported ⊢
    exact hat failures hreported
  · refine ⟨failures, ?_, List.prefix_rfl⟩
    unfold reportedFailures at hreported ⊢
    rw [shells_modifyShell_ne heq]
    exact hreported

/-- A lifecycle that has been built is not published yet, and nothing of the application
has been closed. -/
theorem Sound.built_before (hsound : world.Sound views)
    (hstage : (views thread).stage = .built app life) :
    (world.shells app).lifecycle = none ∧ (world.shells app).parkedState ≠ .closed ∧
      (world.shells app).earlyFailures = [] := by
  have hslot : (views thread).stage.slot = some () := by
    rw [hstage]
    rfl
  have hstands := hsound.stands thread
  rw [hstage] at hstands
  obtain ⟨object, hhas, -, hrunning, -, hearly⟩ := hstands
  refine ⟨?_, ?_, hearly⟩
  · cases hpointer : (world.shells app).lifecycle with
    | none => rfl
    | some other =>
        obtain ⟨phase, hshown⟩ := hsound.shown hslot hpointer
        cases hstage.symm.trans hshown
  · intro hparked
    obtain ⟨other, found, hfound, happ, hclosed⟩ := hsound.history.parked app hparked
    cases hsound.history.single other life found object hfound hhas.found
      (happ.trans hhas.app.symm)
    cases Option.some.inj (hfound.symm.trans hhas.found)
    cases hclosed.symm.trans hrunning

theorem Sound.publish_keepsClosed (hsound : world.Sound views)
    (hstage : (views thread).stage = .built app life) :
    world.KeepsClosed
      (world.modifyShell app (fun shell => { shell with lifecycle := some life })) := by
  obtain ⟨hnone, hopen, -⟩ := hsound.built_before hstage
  have hstands := hsound.stands thread
  rw [hstage] at hstands
  obtain ⟨object, hhas, -⟩ := hstands
  refine keepsClosed_pointer ?_
  intro state hreported
  rw [reportedState_parked hnone] at hreported
  refine ⟨object.life.state, ?_, ?_⟩
  · refine reportedState_published ?_ hhas.found
    rw [shells_modifyShell_self]
  · rintro rfl
    exact absurd (Option.some.inj hreported) hopen

theorem Sound.publish_keepsFailures (hsound : world.Sound views)
    (hstage : (views thread).stage = .built app life) :
    world.KeepsFailures
      (world.modifyShell app (fun shell => { shell with lifecycle := some life })) := by
  obtain ⟨hnone, -, hearly⟩ := hsound.built_before hstage
  have hstands := hsound.stands thread
  rw [hstage] at hstands
  obtain ⟨object, hhas, -⟩ := hstands
  refine keepsFailures_pointer ?_
  intro failures hreported
  rw [reportedFailures_parked hnone, hearly] at hreported
  cases hreported
  refine ⟨object.life.failures, ?_, List.nil_prefix⟩
  refine reportedFailures_published ?_ hhas.found
  rw [shells_modifyShell_self]

/-- What a lifecycle has reported is in the application when its publication ends, but for
an exception, which does not come after the end. -/
theorem Sound.revoke_keepsClosed (hsound : world.Sound views)
    (hstage : (views thread).stage = .shown app life .parked ∨
      (views thread).stage = .shown app life .threw) :
    world.KeepsClosed
      (world.modifyShell app (fun shell => { shell with lifecycle := none })) := by
  have hstands := hsound.stands thread
  refine keepsClosed_pointer ?_
  intro state hreported
  refine ⟨(world.shells app).parkedState, ?_, ?_⟩
  · rw [reportedState_parked] <;> rw [shells_modifyShell_self]
  · rintro rfl
    rcases hstage with hstage | hstage
    · rw [hstage] at hstands
      obtain ⟨-, object, -, -, -, -, hparked⟩ := hstands
      exact hparked
    · rw [hstage] at hstands
      obtain ⟨hpublished, object, hhas, -, hopen⟩ := hstands
      rw [reportedState_published hpublished hhas.found] at hreported
      exact absurd (Option.some.inj hreported) hopen

theorem Sound.revoke_keepsFailures (hsound : world.Sound views)
    (hstage : (views thread).stage = .shown app life .parked) :
    world.KeepsFailures
      (world.modifyShell app (fun shell => { shell with lifecycle := none })) := by
  have hstands := hsound.stands thread
  rw [hstage] at hstands
  obtain ⟨hpublished, object, hhas, -, -, hearly, -⟩ := hstands
  refine keepsFailures_pointer ?_
  intro failures hreported
  rw [reportedFailures_published hpublished hhas.found] at hreported
  cases hreported
  refine ⟨(world.shells app).earlyFailures, ?_, ?_⟩
  · rw [reportedFailures_parked] <;> rw [shells_modifyShell_self]
  · rw [hearly]

end

section

variable {life : Nat} {move : LifeMove}

theorem progress_keepsClosed (hprogress : world.progress life move = some later) :
    world.KeepsClosed later := by
  obtain ⟨object, moved, hfound, -, hmoves, rfl⟩ := progress_some hprogress
  obtain ⟨hopen, -, -⟩ := RunObject.progress_some hmoves
  intro app state hreported
  cases hpointer : (world.shells app).lifecycle with
  | none =>
      rw [reportedState_parked hpointer] at hreported
      refine ⟨state, Eq.trans ?_ hreported, id⟩
      exact reportedState_parked hpointer
  | some other =>
      by_cases heq : other = life
      · cases heq
        rw [reportedState_published hpointer hfound] at hreported
        refine ⟨moved.life.state, ?_, ?_⟩
        · refine reportedState_published hpointer ?_
          rw [lifecycleAt_set hfound, if_pos rfl]
        · rintro rfl
          exact absurd (Option.some.inj hreported) hopen
      · refine ⟨state, ?_, id⟩
        unfold reportedState at hreported ⊢
        rw [hpointer] at hreported ⊢
        dsimp only at hreported ⊢
        rw [lifecycleAt_set hfound, if_neg heq]
        exact hreported

theorem progress_keepsFailures (hprogress : world.progress life move = some later) :
    world.KeepsFailures later := by
  obtain ⟨object, moved, hfound, -, hmoves, rfl⟩ := progress_some hprogress
  obtain ⟨-, -, hmore⟩ := RunObject.progress_some hmoves
  intro app failures hreported
  cases hpointer : (world.shells app).lifecycle with
  | none =>
      rw [reportedFailures_parked hpointer] at hreported
      refine ⟨failures, Eq.trans ?_ hreported, List.prefix_rfl⟩
      exact reportedFailures_parked hpointer
  | some other =>
      by_cases heq : other = life
      · cases heq
        rw [reportedFailures_published hpointer hfound] at hreported
        cases hreported
        refine ⟨moved.life.failures, ?_, hmore⟩
        refine reportedFailures_published hpointer ?_
        rw [lifecycleAt_set hfound, if_pos rfl]
      · refine ⟨failures, ?_, List.prefix_rfl⟩
        unfold reportedFailures at hreported ⊢
        rw [hpointer] at hreported ⊢
        dsimp only at hreported ⊢
        rw [lifecycleAt_set hfound, if_neg heq]
        exact hreported

end

theorem Sound.perform_keepsClosed {act : ProcessAct} {ended : CallEnd Nat} {answer : act.Answer}
    (hsound : world.Sound views) (hallowed : (views thread).allows act)
    (hperform : world.perform act ended = some (answer, later)) : world.KeepsClosed later := by
  by_cases hpointer : ∃ app pointer, act = .setLifecycle app pointer
  · obtain ⟨app, pointer, rfl⟩ := hpointer
    cases hperform
    cases pointer with
    | some life => exact hsound.publish_keepsClosed hallowed.2
    | none =>
        obtain ⟨-, life, hstage⟩ := hallowed
        exact hsound.revoke_keepsClosed hstage
  · refine (hsound.steady hallowed hperform ?_).keepsClosed
    exact fun app pointer heq => hpointer ⟨app, pointer, heq⟩

/-- Unless the publication ends with an exception. -/
theorem Sound.perform_keepsFailures {act : ProcessAct} {ended : CallEnd Nat}
    {answer : act.Answer} (hsound : world.Sound views)
    (hnever : ∀ app life, (views thread).stage ≠ .shown app life .threw)
    (hallowed : (views thread).allows act)
    (hperform : world.perform act ended = some (answer, later)) : world.KeepsFailures later := by
  by_cases hpointer : ∃ app pointer, act = .setLifecycle app pointer
  · obtain ⟨app, pointer, rfl⟩ := hpointer
    cases hperform
    cases pointer with
    | some life => exact hsound.publish_keepsFailures hallowed.2
    | none =>
        obtain ⟨-, life, hstage | hstage⟩ := hallowed
        · exact hsound.revoke_keepsFailures hstage
        · exact absurd hstage (hnever app life)
  · refine (hsound.steady hallowed hperform ?_).keepsFailures
    exact fun app pointer heq => hpointer ⟨app, pointer, heq⟩

/-- What an action tells its thread is what the monitors report then. -/
theorem Sound.told {act : ProcessAct} {ended : CallEnd Nat} {answer : act.Answer}
    (hsound : world.Sound views) (hallowed : (views thread).allows act)
    (hperform : world.perform act ended = some (answer, later)) :
    ((views thread).after act answer).told = (views thread).told ∨
      (∃ app state, ((views thread).after act answer).told = some (.state app state) ∧
        later.reportedState app = some state) ∨
      ∃ app failures, ((views thread).after act answer).told = some (.failures app failures) ∧
        later.reportedFailures app = some failures := by
  have hstands := hsound.stands thread
  cases act with
  | claimActive app =>
      left
      change (if answer = true then _ else views thread : ProcessView).told = _
      cases answer <;> rfl
  | exchangeRanOnce app =>
      left
      change (if answer = true then views thread else _ : ProcessView).told = _
      cases answer <;> rfl
  | park app life =>
      right
      left
      obtain ⟨object, hfound, heq⟩ := Option.map_eq_some_iff.mp hperform
      cases heq
      rw [show (views thread).stage = _ from hallowed] at hstands
      obtain ⟨hpublished, found, hhas, -, hclosed, -⟩ := hstands
      refine ⟨app, .closed, rfl, ?_⟩
      rw [← hclosed]
      refine reportedState_published ?_ hhas.found
      rw [shells_modifyShell_self]
      exact hpublished
  | state life =>
      right
      left
      obtain ⟨object, hfound, heq⟩ := Option.map_eq_some_iff.mp hperform
      cases heq
      obtain ⟨app, hheld, hseen⟩ := hallowed
      refine ⟨app, object.life.state, ?_, ?_⟩
      · change (views thread).holding.map _ = _
        rw [hheld]
        rfl
      · exact reportedState_published (hsound.seen thread app (some life) hheld hseen) hfound
  | parkedState app =>
      right
      left
      cases hperform
      obtain ⟨hheld, hseen⟩ := hallowed
      exact ⟨app, _, rfl, reportedState_parked (hsound.seen thread app none hheld hseen)⟩
  | failures life =>
      right
      right
      obtain ⟨object, hfound, heq⟩ := Option.map_eq_some_iff.mp hperform
      cases heq
      obtain ⟨app, hheld, hseen⟩ := hallowed
      refine ⟨app, object.life.failures, ?_, ?_⟩
      · change (views thread).holding.map _ = _
        rw [hheld]
        rfl
      · exact reportedFailures_published (hsound.seen thread app (some life) hheld hseen) hfound
  | earlyFailures app =>
      right
      right
      cases hperform
      obtain ⟨hheld, hseen⟩ := hallowed
      exact ⟨app, _, rfl, reportedFailures_parked (hsound.seen thread app none hheld hseen)⟩
  | _ => exact Or.inl rfl

end ProcessWorld

/-! ## Readings -/

def Heard.stateOf (app : Nat) : Heard → Option ShutdownState
  | .state other reported => if other = app then some reported else none
  | .failures _ _ => none

def Heard.failuresOf (app : Nat) : Heard → Option (List String)
  | .state _ _ => none
  | .failures other reported => if other = app then some reported else none

theorem Heard.stateOf_eq_some {app other : Nat} {reported state : ShutdownState} :
    Heard.stateOf app (.state other reported) = some state ↔ other = app ∧ reported = state := by
  simp [stateOf]

theorem Heard.failuresOf_eq_some {app other : Nat} {reported failures : List String} :
    Heard.failuresOf app (.failures other reported) = some failures ↔
      other = app ∧ reported = failures := by
  simp [failuresOf]

/-- The state of an application, for which only `Closed` is final. -/
def stateReading (app : Nat) : Reading ProcessWorld ProcessView ShutdownState where
  read := fun world => world.reportedState app
  told := fun view => view.told.bind (Heard.stateOf app)
  le := fun low high => low = .closed → high = .closed

def failuresReading (app : Nat) : Reading ProcessWorld ProcessView (List String) where
  read := fun world => world.reportedFailures app
  told := fun view => view.told.bind (Heard.failuresOf app)
  le := fun low high => low <+: high

theorem stateReading_told {app : Nat} {state : ShutdownState} {view : ProcessView}
    (htold : view.told = some (.state app state)) :
    (stateReading app).told view = some state := by
  change view.told.bind (Heard.stateOf app) = _
  rw [htold]
  exact Heard.stateOf_eq_some.mpr ⟨rfl, rfl⟩

theorem failuresReading_told {app : Nat} {failures : List String} {view : ProcessView}
    (htold : view.told = some (.failures app failures)) :
    (failuresReading app).told view = some failures := by
  change view.told.bind (Heard.failuresOf app) = _
  rw [htold]
  exact Heard.failuresOf_eq_some.mpr ⟨rfl, rfl⟩

abbrev ProcessPool :=
  Pool ProcessAct ProcessAct.Answer ProcessResult ProcessWorld ProcessView

abbrev ProcessStep :=
  PoolStep ProcessEntry (CallEnd Nat) (Nat × LifeMove)

/-- A step in which no exception leaves `Run`. -/
def RunReturns (pool : ProcessPool) : ProcessStep → Prop
  | .step thread ended => ∀ life, (pool.threads thread).asks = some (.leaveRun life) →
      ∃ code, ended = .returned code
  | _ => True

section

variable [Infra] {apps : Nat → CoApp} {guard : ProcessPool → ProcessStep → Prop}
variable {pool last : ProcessPool}

theorem shared_step {motive : ProcessWorld → Prop}
    (hreach : (processSystem apps).machine.ReachableWhere guard pool) {label : ProcessStep}
    (hguard : guard pool label) (hnext : (processSystem apps).next pool label = some last)
    (hsame : motive pool.shared)
    (hact : ∀ thread ended act answer,
      (processSystem apps).Acts guard pool thread ended act answer last.shared →
      motive last.shared)
    (hmove : ∀ life move, pool.shared.progress life move = some last.shared →
      motive last.shared) : motive last.shared := by
  cases label with
  | spawn entry =>
      cases hnext
      exact hsame
  | step thread ended =>
      obtain ⟨hlt, act, rest, answer, state, hthread, hperform, rfl⟩ := System.next_step hnext
      have hfollows := (processes_disciplined apps).follows hreach thread
      rw [hthread] at hfollows
      exact hact thread ended act answer ⟨hreach, hguard, hlt, ⟨rest, hthread⟩, hfollows.1,
        hperform⟩
  | env event =>
      obtain ⟨state, hprogress, rfl⟩ := Option.map_eq_some_iff.mp hnext
      exact hmove event.1 event.2 hprogress

theorem stateReading_kept (app : Nat) : (stateReading app).Kept (processSystem apps) guard where
  refl := fun _ => id
  trans := fun _ _ _ hlow hhigh => hhigh ∘ hlow
  fresh := rfl
  keeps := by
    intro pool label last hreach hguard hnext
    refine shared_step (motive := fun world => ∀ state, pool.shared.reportedState app = some state →
      ∃ more, world.reportedState app = some more ∧ (state = .closed → more = .closed))
      hreach hguard hnext ?_ ?_ ?_
    · exact fun state hreported => ⟨state, hreported, id⟩
    · intro thread ended act answer hacts
      exact (ProcessWorld.sound_of_reachable hreach).perform_keepsClosed hacts.allowed
        hacts.performed app
    · exact fun life move hprogress => ProcessWorld.progress_keepsClosed hprogress app
  told := by
    intro pool thread ended act answer state hacts value hvalue
    have hafter : ((pool.views thread).after act answer).told.bind (Heard.stateOf app) =
        some value := hvalue
    rcases (ProcessWorld.sound_of_reachable hacts.reach).told hacts.allowed hacts.performed with
      hsame | ⟨other, reported, htold, hreported⟩ | ⟨other, reported, htold, -⟩
    · rw [hsame] at hafter
      exact Or.inl hafter
    · rw [htold] at hafter
      obtain ⟨rfl, rfl⟩ := Heard.stateOf_eq_some.mp hafter
      exact Or.inr hreported
    · rw [htold] at hafter
      cases hafter

omit [Infra] in
theorem RunnerStage.threw_of_finish {stage : RunnerStage} {app life : Nat}
    (hthrew : stage.finish = .shown app life .threw) : stage = .shown app life .threw := by
  cases stage with
  | shown _ _ _ => exact hthrew
  | _ => cases hthrew

omit [Infra] in
theorem RunnerStage.threw_of_point {stage : RunnerStage} {pointer : Option Nat} {app life : Nat}
    (hthrew : stage.point pointer = .shown app life .threw) :
    stage = .shown app life .threw := by
  cases pointer with
  | some other =>
      cases stage with
      | shown _ _ _ => exact hthrew
      | _ => cases hthrew
  | none => cases stage <;> cases hthrew

omit [Infra] in
theorem RunnerStage.threw_of_goto {stage : RunnerStage} {phase : ShownPhase} {app life : Nat}
    (hthrew : stage.goto phase = .shown app life .threw) : phase = .threw := by
  cases stage with
  | shown _ _ _ =>
      cases hthrew
      rfl
  | _ => cases hthrew

/-- No lifecycle is left by an exception. -/
theorem never_threw (hreach : (processSystem apps).machine.ReachableWhere RunReturns pool) :
    ∀ thread app life, (pool.views thread).stage ≠ .shown app life .threw := by
  refine (processes_disciplined apps).invariant (motive := fun _ views =>
    ∀ thread app life, (views thread).stage ≠ .shown app life .threw) ?_ ?_ ?_ hreach
  · rintro _ rfl thread app life hthrew
    cases hthrew
  · intro pool thread ended act answer state hacts ih other app life hthrew
    by_cases heq : other = thread
    · rw [heq, Function.update_self] at hthrew
      obtain ⟨rest, hthread⟩ := hacts.asked
      have hperformed := hacts.performed
      cases act with
      | claimActive claimed =>
          change (if answer = true then _ else pool.views thread : ProcessView).stage = _ at hthrew
          cases answer with
          | true => cases hthrew
          | false => exact ih thread app life hthrew
      | releaseActive => cases hthrew
      | exchangeRanOnce run =>
          change (if answer = true then pool.views thread else _ : ProcessView).stage = _ at hthrew
          cases answer with
          | true => exact ih thread app life hthrew
          | false => cases hthrew
      | appendEarly _ _ => exact ih thread app life (RunnerStage.threw_of_finish hthrew)
      | construct _ _ _ => cases hthrew
      | setLifecycle _ _ => exact ih thread app life (RunnerStage.threw_of_point hthrew)
      | enterRun _ => cases RunnerStage.threw_of_goto hthrew
      | leaveRun left =>
          have hphase := RunnerStage.threw_of_goto hthrew
          obtain ⟨code, rfl⟩ := hacts.guarded left (by rw [hthread]; rfl)
          dsimp only [processSystem, ProcessWorld.perform] at hperformed
          split at hperformed <;> cases hperformed
          cases hphase
      | collectFailures _ _ => cases RunnerStage.threw_of_goto hthrew
      | park _ _ => cases RunnerStage.threw_of_goto hthrew
      | destroy _ => exact ih thread app life (RunnerStage.threw_of_finish hthrew)
      | _ => exact ih thread app life hthrew
    · rw [Function.update_of_ne heq] at hthrew
      exact ih other app life hthrew
  · exact fun _ _ _ _ _ _ ih => ih

theorem failuresReading_kept (app : Nat) :
    (failuresReading app).Kept (processSystem apps) RunReturns where
  refl := fun _ => List.prefix_rfl
  trans := fun _ _ _ hlow hhigh => hlow.trans hhigh
  fresh := rfl
  keeps := by
    intro pool label last hreach hguard hnext
    refine shared_step (motive := fun world => ∀ failures,
      pool.shared.reportedFailures app = some failures →
        ∃ more, world.reportedFailures app = some more ∧ failures <+: more)
      hreach hguard hnext ?_ ?_ ?_
    · exact fun failures hreported => ⟨failures, hreported, List.prefix_rfl⟩
    · intro thread ended act answer hacts
      exact (ProcessWorld.sound_of_reachable hreach).perform_keepsFailures
        (never_threw hreach thread) hacts.allowed hacts.performed app
    · exact fun life move hprogress => ProcessWorld.progress_keepsFailures hprogress app
  told := by
    intro pool thread ended act answer state hacts value hvalue
    have hafter : ((pool.views thread).after act answer).told.bind (Heard.failuresOf app) =
        some value := hvalue
    rcases (ProcessWorld.sound_of_reachable hacts.reach).told hacts.allowed hacts.performed with
      hsame | ⟨other, reported, htold, -⟩ | ⟨other, reported, htold, hreported⟩
    · rw [hsame] at hafter
      exact Or.inl hafter
    · rw [htold] at hafter
      cases hafter
    · rw [htold] at hafter
      obtain ⟨rfl, rfl⟩ := Heard.failuresOf_eq_some.mp hafter
      exact Or.inr hreported

theorem told_of_returned (hreach : (processSystem apps).machine.ReachableWhere guard pool)
    {thread : Nat} {result : ProcessResult} {told : Heard}
    (hreturned : (pool.threads thread).returned = some result)
    (htells : result.tells = some told) : (pool.views thread).told = some told :=
  ((processes_disciplined apps).returned hreach hreturned).told told htells

end

end BbtFramework.Host
