import BbtFramework.Host.ProcessDiscipline

/-!
# What holds of the process

One application is active at a time, and what a thread knows of it is so.  A step beside the
run leaves all of it true.
-/

namespace BbtFramework.Host

open BbtFramework.Library

/-- What the phase of a published lifecycle says of its object and its application. -/
def ShownPhase.Holds (phase : ShownPhase) (shell : Shell) (object : RunObject) : Prop :=
  match phase with
  | .waiting => object.running = false ∧ object.life.state = .running ∧
      object.life.failures = [] ∧ shell.earlyFailures = []
  | .running => object.running = true ∧ shell.earlyFailures = []
  | .returned => object.running = false ∧ object.life.state = .closed ∧
      shell.earlyFailures = []
  | .collected => object.running = false ∧ object.life.state = .closed ∧
      shell.earlyFailures = object.life.failures
  | .parked => object.running = false ∧ object.life.state = .closed ∧
      shell.earlyFailures = object.life.failures ∧ shell.parkedState = .closed
  | .threw => object.running = false ∧ object.life.state ≠ .closed

namespace ProcessWorld

/-- The live lifecycle of an application. -/
structure Has (world : ProcessWorld) (app life : Nat) (object : RunObject) : Prop where
  found : world.lifecycleAt life = some object
  app : object.app = app
  alive : object.alive = true

def Stands (world : ProcessWorld) : RunnerStage → Prop
  | .outside | .claimed _ | .finished _ => True
  | .first app => (world.shells app).ranOnce = true ∧ (world.shells app).earlyFailures = [] ∧
      ∀ life object, world.lifecycleAt life = some object → object.app ≠ app
  | .built app life => ∃ object, world.Has app life object ∧
      ShownPhase.waiting.Holds (world.shells app) object
  | .shown app life phase => (world.shells app).lifecycle = some life ∧
      ∃ object, world.Has app life object ∧ phase.Holds (world.shells app) object
  | .hidden app life => ∃ object, world.Has app life object

/-- What is true of the objects and of the shells, whatever the threads do. -/
structure History (world : ProcessWorld) : Prop where
  single : ∀ left right first second, world.lifecycleAt left = some first →
    world.lifecycleAt right = some second → first.app = second.app → left = right
  ran : ∀ life object, world.lifecycleAt life = some object →
    (world.shells object.app).ranOnce = true
  early : ∀ app, (world.shells app).ranOnce = false → (world.shells app).earlyFailures = []
  parked : ∀ app, (world.shells app).parkedState = .closed → ∃ life object,
    world.lifecycleAt life = some object ∧ object.app = app ∧ object.life.state = .closed

structure Sound (world : ProcessWorld) (views : Nat → ProcessView) : Prop where
  slot : Exclusive (fun view : ProcessView => view.stage.slot)
    (fun _ => world.active.isSome) views
  mutex : Exclusive ProcessView.holding (fun app => (world.shells app).locked) views
  makers : Exclusive ProcessView.owned (fun app => (world.shells app).ranOnce) views
  stands : ∀ thread, world.Stands (views thread).stage
  seen : ∀ thread app pointer, (views thread).holding = some app →
    (views thread).seen = some pointer → (world.shells app).lifecycle = pointer
  published : ∀ app life, (world.shells app).lifecycle = some life →
    ∃ thread phase, (views thread).stage = .shown app life phase
  claims : ∀ thread app, (views thread).stage.app = some app → world.active = some app
  living : ∀ life object, world.lifecycleAt life = some object → object.alive = true →
    ∃ thread, (views thread).stage.life = some life
  history : world.History

variable {world later : ProcessWorld} {views : Nat → ProcessView} {thread : Nat}
variable {view : ProcessView}

theorem Sound.fresh : ProcessWorld.fresh.Sound (fun _ => .fresh) where
  slot := .fresh rfl
  mutex := .fresh rfl
  makers := .fresh rfl
  stands := fun _ => trivial
  seen := by
    intro thread app pointer hholding
    cases hholding
  published := by
    intro app life hpublished
    cases hpublished
  claims := by
    intro thread app hclaims
    cases hclaims
  living := by
    intro life object hobject
    cases hobject
  history :=
    { single := by
        intro left right first second hfirst
        cases hfirst
      ran := by
        intro life object hobject
        cases hobject
      early := fun _ _ => rfl
      parked := by
        intro app hparked
        cases hparked }

theorem Sound.outside (hsound : world.Sound views) (hslot : (views thread).stage.slot = some ())
    {other : Nat} (hne : other ≠ thread) : (views other).stage = .outside := by
  cases hother : (views other).stage.slot with
  | none => exact RunnerStage.slot_eq_none hother
  | some key => exact absurd (hsound.slot.alone other thread key hother hslot) hne

/-- A published lifecycle is that of the thread that has the place. -/
theorem Sound.shown (hsound : world.Sound views)
    (hslot : (views thread).stage.slot = some ()) {app life : Nat}
    (hpublished : (world.shells app).lifecycle = some life) :
    ∃ phase, (views thread).stage = .shown app life phase := by
  obtain ⟨other, phase, hstage⟩ := hsound.published app life hpublished
  by_cases heq : other = thread
  · exact ⟨phase, heq ▸ hstage⟩
  · rw [hsound.outside hslot heq] at hstage
    cases hstage

section

variable {app other life : Nat} {change : Shell → Shell} {move : RunObject → RunObject}

theorem shells_modifyShell_self :
    (world.modifyShell app change).shells app = change (world.shells app) :=
  Function.update_self app _ world.shells

theorem shells_modifyShell_ne (hne : other ≠ app) :
    (world.modifyShell app change).shells other = world.shells other :=
  Function.update_of_ne hne _ world.shells

/-- A member the change leaves alone. -/
theorem shells_modifyShell_same {Field : Type} (field : Shell → Field)
    (hsame : field (change (world.shells app)) = field (world.shells app)) :
    field ((world.modifyShell app change).shells other) = field (world.shells other) := by
  by_cases heq : other = app
  · rw [heq, shells_modifyShell_self, hsame]
  · rw [shells_modifyShell_ne heq]

theorem lifecycleAt_modifyObject_self :
    (world.modifyObject life move).lifecycleAt life = (world.lifecycleAt life).map move := by
  exact List.getElem?_modify_eq move life world.objects

theorem lifecycleAt_modifyObject_ne (hne : other ≠ life) :
    (world.modifyObject life move).lifecycleAt other = world.lifecycleAt other := by
  exact List.getElem?_modify_ne move world.objects (Ne.symm hne)

/-- What the move leaves alone of every object. -/
theorem map_lifecycleAt_modifyObject {Field : Type} (field : RunObject → Field)
    (hsame : ∀ object, field (move object) = field object) :
    ((world.modifyObject life move).lifecycleAt other).map field =
      (world.lifecycleAt other).map field := by
  by_cases heq : other = life
  · rw [heq, lifecycleAt_modifyObject_self, Option.map_map]
    exact Option.map_congr (fun object _ => hsame object)
  · rw [lifecycleAt_modifyObject_ne heq]

theorem length_modifyObject :
    (world.modifyObject life move).objects.length = world.objects.length :=
  List.length_modify _ _ _

end

end ProcessWorld

/-- The object without the flag that `RequestShutdown` sets. -/
def RunObject.core (object : RunObject) : RunObject :=
  { object with requested := false }

structure RunObject.SameRun (before after : RunObject) : Prop where
  app : after.app = before.app
  alive : after.alive = before.alive
  running : after.running = before.running
  life : after.life = before.life

theorem RunObject.sameRun_of_core {before after : RunObject} (hcore : after.core = before.core) :
    before.SameRun after := by
  obtain ⟨happ, halive, hrunning, -, hlife⟩ := RunObject.mk.inj hcore
  exact ⟨happ, halive, hrunning, hlife⟩

namespace ProcessWorld

variable {world later : ProcessWorld} {views : Nat → ProcessView} {thread : Nat}
variable {view : ProcessView}

/-- A step that touches neither the run nor what it has left. -/
structure Aside (world later : ProcessWorld) : Prop where
  active : later.active = world.active
  count : later.objects.length = world.objects.length
  objects : ∀ life, (later.lifecycleAt life).map RunObject.core =
    (world.lifecycleAt life).map RunObject.core
  ranOnce : ∀ app, (later.shells app).ranOnce = (world.shells app).ranOnce
  lifecycle : ∀ app, (later.shells app).lifecycle = (world.shells app).lifecycle
  early : ∀ app, (later.shells app).earlyFailures = (world.shells app).earlyFailures
  parked : ∀ app, (later.shells app).parkedState = .closed ↔
    (world.shells app).parkedState = .closed

namespace Aside

theorem refl (world : ProcessWorld) : world.Aside world :=
  ⟨rfl, rfl, fun _ => rfl, fun _ => rfl, fun _ => rfl, fun _ => rfl, fun _ => Iff.rfl⟩

/-- A write to the mutex, the request or an open parked state. -/
theorem modifyShell {app : Nat} {change : Shell → Shell}
    (hran : (change (world.shells app)).ranOnce = (world.shells app).ranOnce)
    (hlifecycle : (change (world.shells app)).lifecycle = (world.shells app).lifecycle)
    (hearly : (change (world.shells app)).earlyFailures = (world.shells app).earlyFailures)
    (hparked : (change (world.shells app)).parkedState = .closed ↔
      (world.shells app).parkedState = .closed) : world.Aside (world.modifyShell app change) where
  active := rfl
  count := rfl
  objects := fun _ => rfl
  ranOnce := fun _ => shells_modifyShell_same Shell.ranOnce hran
  lifecycle := fun _ => shells_modifyShell_same Shell.lifecycle hlifecycle
  early := fun _ => shells_modifyShell_same Shell.earlyFailures hearly
  parked := by
    intro other
    by_cases heq : other = app
    · rw [heq, shells_modifyShell_self]
      exact hparked
    · rw [shells_modifyShell_ne heq]

variable (haside : world.Aside later)

include haside

theorem found {life : Nat} {object : RunObject} (hfound : later.lifecycleAt life = some object) :
    ∃ earlier, world.lifecycleAt life = some earlier ∧ earlier.SameRun object := by
  have hmap := haside.objects life
  rw [hfound] at hmap
  obtain ⟨earlier, hearlier, hcore⟩ := Option.map_eq_some_iff.mp hmap.symm
  exact ⟨earlier, hearlier, RunObject.sameRun_of_core hcore.symm⟩

theorem keeps {life : Nat} {object : RunObject} (hfound : world.lifecycleAt life = some object) :
    ∃ next, later.lifecycleAt life = some next ∧ object.SameRun next := by
  have hmap := haside.objects life
  rw [hfound] at hmap
  obtain ⟨next, hnext, hcore⟩ := Option.map_eq_some_iff.mp hmap
  exact ⟨next, hnext, RunObject.sameRun_of_core hcore⟩

theorem has {app life : Nat} {object : RunObject} (hhas : world.Has app life object) :
    ∃ next, later.Has app life next ∧ object.SameRun next := by
  obtain ⟨next, hnext, hsame⟩ := haside.keeps hhas.found
  exact ⟨next, ⟨hnext, hsame.app.trans hhas.app, hsame.alive.trans hhas.alive⟩, hsame⟩

theorem holds {phase : ShownPhase} {app : Nat} {object next : RunObject}
    (hsame : object.SameRun next) (hholds : phase.Holds (world.shells app) object) :
    phase.Holds (later.shells app) next := by
  obtain ⟨-, -, hrunning, hlife⟩ := hsame
  cases phase with
  | waiting =>
      rw [ShownPhase.Holds, hrunning, hlife, haside.early]
      exact hholds
  | running =>
      rw [ShownPhase.Holds, hrunning, haside.early]
      exact hholds
  | returned =>
      rw [ShownPhase.Holds, hrunning, hlife, haside.early]
      exact hholds
  | collected =>
      rw [ShownPhase.Holds, hrunning, hlife, haside.early]
      exact hholds
  | parked =>
      rw [ShownPhase.Holds, hrunning, hlife, haside.early, haside.parked]
      exact hholds
  | threw =>
      rw [ShownPhase.Holds, hrunning, hlife]
      exact hholds

theorem stands {stage : RunnerStage} (hstands : world.Stands stage) : later.Stands stage := by
  cases stage with
  | outside => trivial
  | claimed app => trivial
  | finished app => trivial
  | first app =>
      obtain ⟨hran, hearly, hnone⟩ := hstands
      refine ⟨(haside.ranOnce app).trans hran, (haside.early app).trans hearly, ?_⟩
      intro life object hfound
      obtain ⟨earlier, hearlier, hsame⟩ := haside.found hfound
      rw [hsame.app]
      exact hnone life earlier hearlier
  | built app life =>
      obtain ⟨object, hhas, hholds⟩ := hstands
      obtain ⟨next, hnext, hsame⟩ := haside.has hhas
      exact ⟨next, hnext, haside.holds hsame hholds⟩
  | shown app life phase =>
      obtain ⟨hpublished, object, hhas, hholds⟩ := hstands
      obtain ⟨next, hnext, hsame⟩ := haside.has hhas
      exact ⟨(haside.lifecycle app).trans hpublished, next, hnext, haside.holds hsame hholds⟩
  | hidden app life =>
      obtain ⟨object, hhas⟩ := hstands
      obtain ⟨next, hnext, -⟩ := haside.has hhas
      exact ⟨next, hnext⟩

theorem history (hhistory : world.History) : later.History where
  single := by
    intro left right first second hfirst hsecond happ
    obtain ⟨former, hformer, hsame⟩ := haside.found hfirst
    obtain ⟨latter, hlatter, halike⟩ := haside.found hsecond
    rw [hsame.app, halike.app] at happ
    exact hhistory.single left right former latter hformer hlatter happ
  ran := by
    intro life object hfound
    obtain ⟨earlier, hearlier, hsame⟩ := haside.found hfound
    rw [hsame.app, haside.ranOnce]
    exact hhistory.ran life earlier hearlier
  early := by
    intro app hran
    rw [haside.early]
    exact hhistory.early app ((haside.ranOnce app).symm.trans hran)
  parked := by
    intro app hparked
    obtain ⟨life, object, hfound, happ, hclosed⟩ :=
      hhistory.parked app ((haside.parked app).mp hparked)
    obtain ⟨next, hnext, hsame⟩ := haside.keeps hfound
    refine ⟨life, next, hnext, hsame.app.trans happ, ?_⟩
    rw [hsame.life]
    exact hclosed

end Aside

/-- A step beside the run, whatever becomes of the mutexes. -/
theorem Sound.aside (hsound : world.Sound views) (haside : world.Aside later)
    (hmutex : Exclusive ProcessView.holding (fun app => (later.shells app).locked)
      (Function.update views thread view))
    (hstage : view.stage = (views thread).stage) (howned : view.owned = (views thread).owned)
    (hseen : ∀ app pointer, view.holding = some app → view.seen = some pointer →
      (later.shells app).lifecycle = pointer) :
    later.Sound (Function.update views thread view) where
  slot := by
    refine hsound.slot.keep (congrArg RunnerStage.slot hstage) ?_
    rw [haside.active]
  mutex := hmutex
  makers := by
    refine hsound.makers.keep howned (funext ?_)
    exact haside.ranOnce
  stands := by
    intro other
    by_cases heq : other = thread
    · rw [heq, Function.update_self, hstage]
      exact haside.stands (hsound.stands thread)
    · rw [Function.update_of_ne heq]
      exact haside.stands (hsound.stands other)
  seen := by
    intro other app pointer hholding hread
    by_cases heq : other = thread
    · rw [heq, Function.update_self] at hholding hread
      exact hseen app pointer hholding hread
    · rw [Function.update_of_ne heq] at hholding hread
      rw [haside.lifecycle]
      exact hsound.seen other app pointer hholding hread
  published := by
    intro app life hpublished
    rw [haside.lifecycle] at hpublished
    obtain ⟨other, phase, hshown⟩ := hsound.published app life hpublished
    refine ⟨other, phase, ?_⟩
    by_cases heq : other = thread
    · rw [heq, Function.update_self, hstage, ← heq]
      exact hshown
    · rw [Function.update_of_ne heq]
      exact hshown
  claims := by
    intro other app hclaims
    rw [haside.active]
    by_cases heq : other = thread
    · rw [heq, Function.update_self, hstage] at hclaims
      exact hsound.claims thread app hclaims
    · rw [Function.update_of_ne heq] at hclaims
      exact hsound.claims other app hclaims
  living := by
    intro life object hfound halive
    obtain ⟨earlier, hearlier, hsame⟩ := haside.found hfound
    obtain ⟨other, hlife⟩ := hsound.living life earlier hearlier (hsame.alive.symm.trans halive)
    refine ⟨other, ?_⟩
    by_cases heq : other = thread
    · rw [heq, Function.update_self, hstage, ← heq]
      exact hlife
    · rw [Function.update_of_ne heq]
      exact hlife
  history := haside.history hsound.history

end ProcessWorld

end BbtFramework.Host
