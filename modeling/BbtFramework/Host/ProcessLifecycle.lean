import BbtFramework.Host.ProcessSteps

/-!
# The lifecycle in the process

A lifecycle is made, published, run and withdrawn by its thread; the requests of the others
and the writes of `Run` itself come in between.
-/

namespace BbtFramework.Host

open BbtFramework.Library

namespace ProcessWorld

variable {world later : ProcessWorld} {views : Nat → ProcessView} {thread : Nat}
variable {view : ProcessView}

theorem Sound.construct {app : Nat} {hasHost : Bool} {stepBudget : Int}
    (hsound : world.Sound views) (hstage : (views thread).stage = .first app) :
    ({ world with objects := world.objects ++
      [⟨app, true, false, false, .fresh hasHost stepBudget⟩] } : ProcessWorld).Sound
      (Function.update views thread ((views thread).after (.construct app hasHost stepBudget)
        world.objects.length)) := by
  have hstands := hsound.stands thread
  rw [hstage] at hstands
  obtain ⟨hran, hearly, hnone⟩ := hstands
  have hslot : (views thread).stage.slot = some () := by
    rw [hstage]
    rfl
  have hfound : ∀ life object, (world.objects ++
      [⟨app, true, false, false, .fresh hasHost stepBudget⟩])[life]? = some object →
      world.lifecycleAt life = some object ∨ life = world.objects.length ∧ object.app = app := by
    intro life object hobject
    rcases Nat.lt_or_ge life world.objects.length with hlt | hge
    · rw [List.getElem?_append_left hlt] at hobject
      exact Or.inl hobject
    · rw [List.getElem?_append_right hge] at hobject
      obtain ⟨hzero, rfl⟩ := List.getElem?_eq_some_iff.mp hobject
      rw [List.length_singleton] at hzero
      refine Or.inr ⟨by omega, ?_⟩
      rw [List.getElem_singleton]
  refine hsound.working rfl hslot ?_ rfl rfl (fun _ => rfl) (fun _ => rfl)
    (hsound.makers.keep rfl rfl) ?_ ?_ ?_ ?_
  · rw [hstage]
    rfl
  · refine ⟨_, ⟨List.getElem?_concat_length, rfl, rfl⟩, rfl, rfl, rfl, hearly⟩
  · intro other life phase hshown
    rw [hstage] at hshown
    cases hshown
  · intro life object hobject halive
    rcases hfound life object hobject with hold | ⟨rfl, -⟩
    · have hlife := hsound.alive_life hslot hold halive
      rw [hstage] at hlife
      cases hlife
    · rfl
  · constructor
    · intro left right first second hfirst hsecond happ
      rcases hfound left first hfirst with hl | ⟨rfl, hl⟩ <;>
        rcases hfound right second hsecond with hr | ⟨rfl, hr⟩
      · exact hsound.history.single left right first second hl hr happ
      · exact absurd (happ.trans hr) (hnone left first hl)
      · exact absurd (happ.symm.trans hl) (hnone right second hr)
      · rfl
    · intro life object hobject
      rcases hfound life object hobject with hold | ⟨-, happ⟩
      · exact hsound.history.ran life object hold
      · rw [happ]
        exact hran
    · exact hsound.history.early
    · intro other hparked
      obtain ⟨life, object, hold, happ, hclosed⟩ := hsound.history.parked other hparked
      refine ⟨life, object, ?_, happ, hclosed⟩
      have hlt : life < world.objects.length := (List.getElem?_eq_some_iff.mp hold).1
      exact (List.getElem?_append_left hlt).trans hold

/-- The pointer of an application is written under its mutex. -/
theorem Sound.setLifecycle {app : Nat} {pointer : Option Nat} {stage : RunnerStage}
    (hsound : world.Sound views) (hheld : (views thread).holding = some app)
    (happ : (views thread).stage.app = some app)
    (hstage : (views thread).stage.point pointer = stage) (hafter : stage.app = some app)
    (hlife : stage.life = (views thread).stage.life)
    (hstands : (world.modifyShell app (fun shell => { shell with lifecycle := pointer })).Stands
      stage)
    (hshown : ∀ life, pointer = some life → ∃ phase, stage = .shown app life phase) :
    (world.modifyShell app (fun shell => { shell with lifecycle := pointer })).Sound
      (Function.update views thread ((views thread).after (.setLifecycle app pointer) ())) := by
  have hslot := RunnerStage.slot_of_app happ
  have hhistory :
      (world.modifyShell app (fun shell => { shell with lifecycle := pointer })).History :=
    hsound.history.modifyShell id (hsound.history.early app) Or.inl
  cases hstage
  refine hsound.running rfl hslot (hafter.trans happ.symm) ?_ ?_ hstands ?_ ?_ ?_ ?_ hhistory
  · refine hsound.mutex.keep rfl (funext ?_)
    exact fun _ => shells_modifyShell_same Shell.locked rfl
  · refine hsound.makers.keep rfl (funext ?_)
    exact fun _ => shells_modifyShell_same Shell.ranOnce rfl
  · intro other read _ hread
    cases hread
  · intro other held hne hholding
    have hothers : held ≠ app := by
      rintro rfl
      exact hne (hsound.mutex.alone other thread held hholding hheld)
    rw [shells_modifyShell_ne hothers]
  · intro other life hpublished
    by_cases heq : other = app
    · rw [heq, shells_modifyShell_self] at hpublished
      rw [heq]
      exact hshown life hpublished
    · rw [shells_modifyShell_ne heq] at hpublished
      obtain ⟨phase, hother⟩ := hsound.shown hslot hpublished
      rw [hother] at happ
      exact absurd (Option.some.inj happ) heq
  · intro life object hfound halive
    exact hlife.trans (hsound.alive_life hslot hfound halive)

theorem Sound.publish {app life : Nat} (hsound : world.Sound views)
    (hheld : (views thread).holding = some app) (hstage : (views thread).stage = .built app life) :
    (world.modifyShell app (fun shell => { shell with lifecycle := some life })).Sound
      (Function.update views thread
        ((views thread).after (.setLifecycle app (some life)) ())) := by
  have hstands := hsound.stands thread
  rw [hstage] at hstands
  obtain ⟨object, hhas, hholds⟩ := hstands
  have hpoint : (views thread).stage.point (some life) = .shown app life .waiting := by
    rw [hstage]
    rfl
  refine hsound.setLifecycle hheld ?_ hpoint rfl ?_ ?_ ?_
  · rw [hstage]
    rfl
  · rw [hstage]
    rfl
  · refine ⟨?_, object, ⟨hhas.found, hhas.app, hhas.alive⟩, ?_⟩
    · rw [shells_modifyShell_self]
    · rw [shells_modifyShell_self]
      exact hholds
  · rintro other ⟨⟩
    exact ⟨.waiting, rfl⟩

theorem Sound.revoke {app life : Nat} {phase : ShownPhase} (hsound : world.Sound views)
    (hheld : (views thread).holding = some app)
    (hstage : (views thread).stage = .shown app life phase) :
    (world.modifyShell app (fun shell => { shell with lifecycle := none })).Sound
      (Function.update views thread ((views thread).after (.setLifecycle app none) ())) := by
  have hstands := hsound.stands thread
  rw [hstage] at hstands
  obtain ⟨-, object, hhas, -⟩ := hstands
  have hpoint : (views thread).stage.point none = .hidden app life := by
    rw [hstage]
    rfl
  refine hsound.setLifecycle hheld ?_ hpoint rfl ?_ ?_ ?_
  · rw [hstage]
    rfl
  · rw [hstage]
    rfl
  · exact ⟨object, hhas.found, hhas.app, hhas.alive⟩
  · intro other hsome
    cases hsome

/-- The thread that has the place writes to its lifecycle. -/
theorem Sound.modifyObject {app life : Nat} {move : RunObject → RunObject}
    (hsound : world.Sound views) (happ : (views thread).stage.app = some app)
    (hafter : view.stage.app = some app) (hlife : (views thread).stage.life = some life)
    (hheld : view.holding = (views thread).holding) (hread : view.seen = (views thread).seen)
    (howned : view.owned = (views thread).owned)
    (hstands : (world.modifyObject life move).Stands view.stage)
    (hshown : ∀ app life phase, (views thread).stage = .shown app life phase →
      ∃ next, view.stage = .shown app life next)
    (hliving : ∀ object, (move object).alive = true →
      object.alive = true ∧ view.stage.life = some life)
    (hmoveApp : ∀ object, (move object).app = object.app)
    (hmoveLife : ∀ object, (move object).life = object.life) :
    (world.modifyObject life move).Sound (Function.update views thread view) := by
  have hslot := RunnerStage.slot_of_app happ
  refine hsound.working rfl hslot (hafter.trans happ.symm) hheld hread (fun _ => rfl)
    (fun _ => rfl) ?_ hstands hshown ?_ (hsound.history.modifyObject hmoveApp hmoveLife)
  · exact hsound.makers.keep howned rfl
  · intro other object hfound halive
    obtain ⟨earlier, hearlier, ⟨hne, rfl⟩ | ⟨rfl, rfl⟩⟩ := lifecycleAt_of_modifyObject hfound
    · have hother := hsound.alive_life hslot hearlier halive
      exact absurd (Option.some.inj (hother.symm.trans hlife)) hne
    · exact (hliving earlier halive).2

theorem Sound.enterRun {app life : Nat} (hsound : world.Sound views)
    (hstage : (views thread).stage = .shown app life .waiting) :
    (world.modifyObject life (fun object => { object with running := true })).Sound
      (Function.update views thread ((views thread).after (.enterRun life) ())) := by
  have hstands := hsound.stands thread
  rw [hstage] at hstands
  obtain ⟨hpublished, object, hhas, -, -, -, hearly⟩ := hstands
  have hafter : ((views thread).after (.enterRun life) ()).stage = .shown app life .running := by
    change (views thread).stage.goto .running = _
    rw [hstage]
    rfl
  have happ : (views thread).stage.app = some app := by
    rw [hstage]
    rfl
  refine hsound.modifyObject happ ?_ ?_ rfl rfl rfl ?_ ?_ ?_ (fun _ => rfl) (fun _ => rfl)
  · rw [hafter]
    rfl
  · rw [hstage]
    rfl
  · rw [hafter]
    refine ⟨hpublished, { object with running := true }, ⟨?_, hhas.app, hhas.alive⟩, rfl, hearly⟩
    rw [lifecycleAt_modifyObject_self, hhas.found]
    rfl
  · intro other shown phase hbefore
    rw [hstage] at hbefore
    cases hbefore
    exact ⟨.running, hafter⟩
  · intro other halive
    refine ⟨halive, ?_⟩
    rw [hafter]
    rfl

theorem Sound.leaveRun {app life : Nat} {ended : CallEnd Nat} (hsound : world.Sound views)
    (hstage : (views thread).stage = .shown app life .running)
    (hends : (world.lifecycleAt life).any (fun object => object.mayEnd ended) = true) :
    (world.modifyObject life (fun object => { object with running := false })).Sound
      (Function.update views thread ((views thread).after (.leaveRun life) ended)) := by
  have hstands := hsound.stands thread
  rw [hstage] at hstands
  obtain ⟨hpublished, object, hhas, -, hearly⟩ := hstands
  have hafter : ((views thread).after (.leaveRun life) ended).stage =
      .shown app life (.ofEnd ended) := by
    change (views thread).stage.goto (.ofEnd ended) = _
    rw [hstage]
    rfl
  rw [hhas.found] at hends
  have happ : (views thread).stage.app = some app := by
    rw [hstage]
    rfl
  refine hsound.modifyObject happ ?_ ?_ rfl rfl rfl ?_ ?_ ?_ (fun _ => rfl) (fun _ => rfl)
  · rw [hafter]
    rfl
  · rw [hstage]
    rfl
  · rw [hafter]
    refine ⟨hpublished, { object with running := false }, ⟨?_, hhas.app, hhas.alive⟩, ?_⟩
    · rw [lifecycleAt_modifyObject_self, hhas.found]
      rfl
    · cases ended with
      | returned code => exact ⟨rfl, of_decide_eq_true hends, hearly⟩
      | threw what => exact ⟨rfl, of_decide_eq_true hends⟩
      | threwOther => exact ⟨rfl, of_decide_eq_true hends⟩
  · intro other shown phase hbefore
    rw [hstage] at hbefore
    cases hbefore
    exact ⟨.ofEnd ended, hafter⟩
  · intro other halive
    refine ⟨halive, ?_⟩
    rw [hafter]
    rfl

theorem Sound.destroy {app life : Nat} (hsound : world.Sound views)
    (hstage : (views thread).stage = .hidden app life) :
    (world.modifyObject life (fun object => { object with alive := false })).Sound
      (Function.update views thread ((views thread).after (.destroy life) ())) := by
  have hafter : ((views thread).after (.destroy life) ()).stage = .finished app := by
    change (views thread).stage.finish = _
    rw [hstage]
    rfl
  have happ : (views thread).stage.app = some app := by
    rw [hstage]
    rfl
  refine hsound.modifyObject happ ?_ ?_ rfl rfl rfl ?_ ?_ ?_ (fun _ => rfl) (fun _ => rfl)
  · rw [hafter]
    rfl
  · rw [hstage]
    rfl
  · rw [hafter]
    trivial
  · intro other shown phase hbefore
    rw [hstage] at hbefore
    cases hbefore
  · intro other halive
    cases halive

/-- Something of a published lifecycle is kept in the application. -/
theorem Sound.keep {app life : Nat} {before after : ShownPhase} {change : Shell → Shell}
    (hsound : world.Sound views) (hstage : (views thread).stage = .shown app life before)
    (hafter : view.stage = .shown app life after)
    (hheld : view.holding = (views thread).holding) (hread : view.seen = (views thread).seen)
    (howned : view.owned = (views thread).owned)
    (hran : (change (world.shells app)).ranOnce = (world.shells app).ranOnce)
    (hlocked : (change (world.shells app)).locked = (world.shells app).locked)
    (hlifecycle : (change (world.shells app)).lifecycle = (world.shells app).lifecycle)
    (hholds : ∀ object, world.Has app life object → before.Holds (world.shells app) object →
      after.Holds (change (world.shells app)) object)
    (hhistory : ∀ object, world.Has app life object → before.Holds (world.shells app) object →
      (world.modifyShell app change).History) :
    (world.modifyShell app change).Sound (Function.update views thread view) := by
  have hstands := hsound.stands thread
  rw [hstage] at hstands
  obtain ⟨hpublished, object, hhas, hbefore⟩ := hstands
  have hslot : (views thread).stage.slot = some () := by
    rw [hstage]
    rfl
  refine hsound.working rfl hslot ?_ hheld hread ?_ ?_ ?_ ?_ ?_ ?_ (hhistory object hhas hbefore)
  · rw [hstage, hafter]
    rfl
  · exact fun _ => shells_modifyShell_same Shell.locked hlocked
  · exact fun _ => shells_modifyShell_same Shell.lifecycle hlifecycle
  · refine hsound.makers.keep howned (funext ?_)
    exact fun _ => shells_modifyShell_same Shell.ranOnce hran
  · rw [hafter]
    refine ⟨?_, object, ⟨hhas.found, hhas.app, hhas.alive⟩, ?_⟩
    · rw [shells_modifyShell_self, hlifecycle]
      exact hpublished
    · rw [shells_modifyShell_self]
      exact hholds object hhas hbefore
  · intro other shown phase hshown
    rw [hstage] at hshown
    cases hshown
    exact ⟨after, hafter⟩
  · intro other found hfound halive
    have hlife := hsound.alive_life hslot hfound halive
    rw [hstage] at hlife
    rw [hafter]
    exact hlife

theorem Sound.collectFailures {app life : Nat} {object : RunObject} (hsound : world.Sound views)
    (hstage : (views thread).stage = .shown app life .returned)
    (hfound : world.lifecycleAt life = some object) :
    (world.modifyShell app (fun shell =>
      { shell with earlyFailures := shell.earlyFailures ++ object.life.failures })).Sound
      (Function.update views thread
        ((views thread).after (.collectFailures app life) ())) := by
  have hafter : ((views thread).after (.collectFailures app life) ()).stage =
      .shown app life .collected := by
    change (views thread).stage.goto .collected = _
    rw [hstage]
    rfl
  refine hsound.keep hstage hafter rfl rfl rfl rfl rfl rfl ?_ ?_
  · rintro other hhas ⟨hstopped, hclosed, hearly⟩
    cases Option.some.inj (hhas.found.symm.trans hfound)
    refine ⟨hstopped, hclosed, ?_⟩
    change (world.shells app).earlyFailures ++ object.life.failures = object.life.failures
    rw [hearly, List.nil_append]
  · intro other hhas _
    refine hsound.history.modifyShell id ?_ Or.inl
    intro hran
    have hbefore := hsound.history.ran life other hhas.found
    rw [hhas.app] at hbefore
    cases hbefore.symm.trans hran

theorem Sound.park {app life : Nat} {object : RunObject} (hsound : world.Sound views)
    (hstage : (views thread).stage = .shown app life .collected)
    (hfound : world.lifecycleAt life = some object) :
    (world.modifyShell app (fun shell =>
      { shell with parkedState := object.life.state })).Sound
      (Function.update views thread ((views thread).after (.park app life) ())) := by
  have hafter : ((views thread).after (.park app life) ()).stage =
      .shown app life .parked := by
    change (views thread).stage.goto .parked = _
    rw [hstage]
    rfl
  refine hsound.keep hstage hafter rfl rfl rfl rfl rfl rfl ?_ ?_
  · rintro other hhas ⟨hstopped, hclosed, hearly⟩
    cases Option.some.inj (hhas.found.symm.trans hfound)
    exact ⟨hstopped, hclosed, hearly, hclosed⟩
  · rintro other hhas ⟨-, hclosed, -⟩
    refine hsound.history.modifyShell id (hsound.history.early app) ?_
    exact fun _ => Or.inr ⟨life, other, hhas.found, hhas.app, hclosed⟩

theorem Sound.lock {app : Nat} (hsound : world.Sound views)
    (hfree : (world.shells app).locked = false) :
    (world.modifyShell app (fun shell => { shell with locked := true })).Sound
      (Function.update views thread ((views thread).after (.lock app) ())) := by
  refine hsound.aside (.modifyShell rfl rfl rfl Iff.rfl) ?_ rfl rfl ?_
  · refine hsound.mutex.take hfree rfl ?_ ?_
    · rw [shells_modifyShell_self]
    · intro other hne
      rw [shells_modifyShell_ne hne]
  · intro other pointer _ hread
    cases hread

theorem Sound.unlock {app : Nat} (hsound : world.Sound views)
    (hheld : (views thread).holding = some app) :
    (world.modifyShell app (fun shell => { shell with locked := false })).Sound
      (Function.update views thread ((views thread).after (.unlock app) ())) := by
  refine hsound.aside (.modifyShell rfl rfl rfl Iff.rfl) ?_ rfl rfl ?_
  · refine hsound.mutex.give hheld rfl ?_
    intro other hne
    rw [shells_modifyShell_ne hne]
  · intro other pointer hholding
    cases hholding

theorem Sound.readLifecycle {app : Nat} (hsound : world.Sound views)
    (hheld : (views thread).holding = some app) :
    world.Sound (Function.update views thread
      ((views thread).after (.readLifecycle app) (world.shells app).lifecycle)) := by
  refine hsound.aside (.refl world) (hsound.mutex.keep rfl rfl) rfl rfl ?_
  intro other pointer hholding hread
  cases Option.some.inj (hheld.symm.trans hholding)
  exact Option.some.inj hread

/-- A step beside the run that leaves the mutexes alone. -/
theorem Sound.beside (hsound : world.Sound views) (haside : world.Aside later)
    (hlocked : ∀ app, (later.shells app).locked = (world.shells app).locked)
    (hheld : view.holding = (views thread).holding) (hread : view.seen = (views thread).seen)
    (hstage : view.stage = (views thread).stage) (howned : view.owned = (views thread).owned) :
    later.Sound (Function.update views thread view) := by
  refine hsound.aside haside (hsound.mutex.keep hheld (funext hlocked)) hstage howned ?_
  intro app pointer hholding hpointer
  rw [haside.lifecycle]
  exact hsound.seen thread app pointer (hheld ▸ hholding) (hread ▸ hpointer)

theorem Aside.requestShutdown {life : Nat} :
    world.Aside (world.modifyObject life (fun object => { object with requested := true })) where
  active := rfl
  count := length_modifyObject
  objects := fun _ => map_lifecycleAt_modifyObject RunObject.core (fun _ => rfl)
  ranOnce := fun _ => rfl
  lifecycle := fun _ => rfl
  early := fun _ => rfl
  parked := fun _ => Iff.rfl

/-- The exchange of `request_shutdown` leaves a parked `Closed` alone. -/
theorem Aside.parkClosing {app : Nat} :
    world.Aside (world.modifyShell app (fun shell =>
      if shell.parkedState = .running then { shell with parkedState := .closing } else shell)) := by
  by_cases hrunning : (world.shells app).parkedState = .running
  · refine .modifyShell ?_ ?_ ?_ ?_
    · rw [if_pos hrunning]
    · rw [if_pos hrunning]
    · rw [if_pos hrunning]
    · rw [if_pos hrunning, hrunning]
      constructor <;> intro hclosed <;> cases hclosed
  · refine .modifyShell ?_ ?_ ?_ ?_ <;> rw [if_neg hrunning]

theorem locked_parkClosing {app other : Nat} :
    ((world.modifyShell app (fun shell =>
      if shell.parkedState = .running then { shell with parkedState := .closing }
      else shell)).shells other).locked = (world.shells other).locked := by
  refine shells_modifyShell_same Shell.locked ?_
  split <;> rfl

/-! ## `Run` at work -/

end ProcessWorld

/-- A step of `Run` comes before its end and takes no failure back. -/
theorem HostLifecycle.move_some {life moved : HostLifecycle} {asked : Bool} {move : LifeMove}
    (hmove : life.move asked move = some moved) :
    life.state ≠ .closed ∧ life.failures <+: moved.failures := by
  unfold HostLifecycle.move at hmove
  split at hmove
  case isTrue => cases hmove
  case isFalse hopen =>
    refine ⟨hopen, ?_⟩
    cases move with
    | setFlags started hostCreated exceededBudget =>
        cases hmove
        exact List.prefix_rfl
    | setPhase phase =>
        dsimp only at hmove
        split at hmove <;> cases hmove
        exact List.prefix_rfl
    | addFailure what =>
        cases hmove
        exact List.prefix_append _ _
    | enterIncomplete step =>
        dsimp only at hmove
        split at hmove <;> cases hmove
        exact List.prefix_rfl
    | leaveIncomplete step =>
        cases hmove
        exact List.prefix_rfl

theorem RunObject.progress_some {object moved : RunObject} {external : Bool} {move : LifeMove}
    (hprogress : object.progress external move = some moved) :
    object.life.state ≠ .closed ∧ moved = { object with life := moved.life } ∧
      object.life.failures <+: moved.life.failures := by
  obtain ⟨life, hlife, rfl⟩ := Option.map_eq_some_iff.mp hprogress
  obtain ⟨hopen, hmore⟩ := HostLifecycle.move_some hlife
  exact ⟨hopen, rfl, hmore⟩

namespace ProcessWorld

variable {world later : ProcessWorld} {views : Nat → ProcessView} {thread : Nat}

/-- What a step of `Run` does to the process. -/
theorem progress_some {life : Nat} {move : LifeMove}
    (hprogress : world.progress life move = some later) :
    ∃ object moved, world.lifecycleAt life = some object ∧ object.running = true ∧
      object.progress (world.shells object.app).shutdownReq move = some moved ∧
      later = { world with objects := world.objects.set life moved } := by
  unfold progress at hprogress
  cases hfound : world.lifecycleAt life with
  | none =>
      rw [hfound] at hprogress
      cases hprogress
  | some object =>
      rw [hfound] at hprogress
      dsimp only at hprogress
      split at hprogress
      case isFalse => cases hprogress
      case isTrue hrunning =>
        obtain ⟨moved, hmoved, rfl⟩ := Option.map_eq_some_iff.mp hprogress
        exact ⟨object, moved, rfl, hrunning, hmoved, rfl⟩

section

variable {life : Nat} {object moved : RunObject}

theorem lifecycleAt_set (hfound : world.lifecycleAt life = some object) (other : Nat) :
    ({ world with objects := world.objects.set life moved } : ProcessWorld).lifecycleAt other =
      if other = life then some moved else world.lifecycleAt other := by
  have hlt : life < world.objects.length := (List.getElem?_eq_some_iff.mp hfound).1
  unfold lifecycleAt
  rw [List.getElem?_set]
  by_cases heq : other = life
  · rw [if_pos heq.symm, if_pos heq, if_pos hlt]
  · rw [if_neg (Ne.symm heq), if_neg heq]

/-- A thread that shows a lifecycle at work still shows it, and one that shows another
thing is not touched. -/
theorem Stands.progress {stage : RunnerStage} (hfound : world.lifecycleAt life = some object)
    (hrunning : object.running = true) (hmoved : moved = { object with life := moved.life })
    (hstands : world.Stands stage) :
    ({ world with objects := world.objects.set life moved } : ProcessWorld).Stands stage := by
  have hsame : moved.app = object.app ∧ moved.alive = object.alive ∧ moved.running = true := by
    rw [hmoved]
    exact ⟨rfl, rfl, hrunning⟩
  have hhas : ∀ app other found, world.Has app other found → other ≠ life →
      ({ world with objects := world.objects.set life moved } : ProcessWorld).Has app other
        found := by
    intro app other found hhas hne
    refine ⟨?_, hhas.app, hhas.alive⟩
    rw [lifecycleAt_set hfound, if_neg hne]
    exact hhas.found
  have hthis : ∀ app found, world.Has app life found →
      ({ world with objects := world.objects.set life moved } : ProcessWorld).Has app life
        moved ∧ found = object := by
    intro app found hhas
    cases Option.some.inj (hhas.found.symm.trans hfound)
    refine ⟨⟨?_, hsame.1.trans hhas.app, hsame.2.1.trans hhas.alive⟩, rfl⟩
    rw [lifecycleAt_set hfound, if_pos rfl]
  cases stage with
  | outside => trivial
  | claimed app => trivial
  | finished app => trivial
  | first app =>
      obtain ⟨hran, hearly, hnone⟩ := hstands
      refine ⟨hran, hearly, ?_⟩
      intro other found hother
      rw [lifecycleAt_set hfound] at hother
      split at hother
      · cases hother
        rw [hsame.1]
        exact hnone life object hfound
      · exact hnone other found hother
  | built app other =>
      obtain ⟨found, hother, hstopped, hholds⟩ := hstands
      have hne : other ≠ life := by
        rintro rfl
        cases Option.some.inj (hother.found.symm.trans hfound)
        cases hstopped.symm.trans hrunning
      exact ⟨found, hhas app other found hother hne, hstopped, hholds⟩
  | shown app other phase =>
      obtain ⟨hpublished, found, hother, hholds⟩ := hstands
      by_cases heq : other = life
      · cases heq
        obtain ⟨hmovedHas, rfl⟩ := hthis app found hother
        refine ⟨hpublished, moved, hmovedHas, ?_⟩
        cases phase with
        | running => exact ⟨hsame.2.2, hholds.2⟩
        | _ => cases hholds.1.symm.trans hrunning
      · exact ⟨hpublished, found, hhas app other found hother heq, hholds⟩
  | hidden app other =>
      obtain ⟨found, hother⟩ := hstands
      by_cases heq : other = life
      · cases heq
        exact ⟨moved, (hthis app found hother).1⟩
      · exact ⟨found, hhas app other found hother heq⟩

theorem Sound.progress {move : LifeMove} (hsound : world.Sound views)
    (hprogress : world.progress life move = some later) : later.Sound views := by
  obtain ⟨object, moved, hfound, hrunning, hmoves, rfl⟩ := progress_some hprogress
  obtain ⟨hopen, hmoved, -⟩ := RunObject.progress_some hmoves
  have hsame : moved.app = object.app ∧ moved.alive = object.alive := by
    rw [hmoved]
    exact ⟨rfl, rfl⟩
  refine ⟨hsound.slot, hsound.mutex, hsound.makers, ?_, hsound.seen, hsound.published,
    hsound.claims, ?_, ?_⟩
  · exact fun thread => (hsound.stands thread).progress hfound hrunning hmoved
  · intro other found hother halive
    rw [lifecycleAt_set hfound] at hother
    split at hother
    case isTrue heq =>
      cases hother
      rw [heq]
      exact hsound.living life object hfound (hsame.2.symm.trans halive)
    case isFalse => exact hsound.living other found hother halive
  · refine hsound.history.objects rfl ?_ ?_
    · intro other found hother
      rw [lifecycleAt_set hfound] at hother
      split at hother
      case isTrue heq =>
        cases hother
        exact ⟨object, heq ▸ hfound, hsame.1⟩
      case isFalse => exact ⟨found, hother, rfl⟩
    · intro other found hother hclosed
      have hne : other ≠ life := by
        rintro rfl
        cases Option.some.inj (hother.symm.trans hfound)
        exact hopen hclosed
      refine ⟨found, ?_, rfl, hclosed⟩
      rw [lifecycleAt_set hfound, if_neg hne]
      exact hother

end

theorem Sound.perform {act : ProcessAct} {ended : CallEnd Nat} {answer : act.Answer}
    (hsound : world.Sound views) (hallowed : (views thread).allows act)
    (hperform : world.perform act ended = some (answer, later)) :
    later.Sound (Function.update views thread ((views thread).after act answer)) := by
  cases act with
  | claimActive app =>
      dsimp only [ProcessWorld.perform] at hperform
      cases hactive : world.active with
      | some claimed =>
          rw [hactive] at hperform
          cases hperform
          exact hsound.beside (.refl world) (fun _ => rfl) rfl rfl rfl rfl
      | none =>
          rw [hactive] at hperform
          cases hperform
          exact hsound.claimActive hallowed.1 hactive
  | releaseActive =>
      cases hperform
      obtain ⟨app, hstage⟩ := hallowed
      exact hsound.releaseActive hstage
  | exchangeRanOnce app =>
      cases hperform
      cases hran : (world.shells app).ranOnce with
      | true =>
          refine hsound.beside (.exchangeRanOnce hran) ?_ rfl rfl rfl rfl
          exact fun _ => shells_modifyShell_same Shell.locked rfl
      | false => exact hsound.exchangeRanOnce hallowed.1 hran
  | appendEarly app failures =>
      cases hperform
      exact hsound.appendEarly hallowed
  | construct app hasHost stepBudget =>
      cases hperform
      exact hsound.construct hallowed
  | lock app =>
      dsimp only [ProcessWorld.perform] at hperform
      split at hperform
      case isTrue => cases hperform
      case isFalse hfree =>
        cases hperform
        exact hsound.lock (Bool.eq_false_iff.mpr hfree)
  | unlock app =>
      cases hperform
      exact hsound.unlock hallowed
  | setLifecycle app pointer =>
      cases hperform
      cases pointer with
      | some life => exact hsound.publish hallowed.1 hallowed.2
      | none =>
          obtain ⟨hheld, life, hstage | hstage⟩ := hallowed
          · exact hsound.revoke hheld hstage
          · exact hsound.revoke hheld hstage
  | readLifecycle app =>
      cases hperform
      exact hsound.readLifecycle hallowed
  | enterRun life =>
      cases hperform
      obtain ⟨app, hstage⟩ := hallowed
      exact hsound.enterRun hstage
  | leaveRun life =>
      dsimp only [ProcessWorld.perform] at hperform
      split at hperform
      case isFalse => cases hperform
      case isTrue hends =>
        cases hperform
        obtain ⟨app, hstage⟩ := hallowed
        exact hsound.leaveRun hstage hends
  | collectFailures app life =>
      obtain ⟨object, hfound, heq⟩ := Option.map_eq_some_iff.mp hperform
      cases heq
      exact hsound.collectFailures hallowed hfound
  | park app life =>
      obtain ⟨object, hfound, heq⟩ := Option.map_eq_some_iff.mp hperform
      cases heq
      exact hsound.park hallowed hfound
  | destroy life =>
      cases hperform
      obtain ⟨app, hstage⟩ := hallowed
      exact hsound.destroy hstage
  | setShutdownReq app =>
      cases hperform
      refine hsound.beside (.modifyShell rfl rfl rfl Iff.rfl) ?_ rfl rfl rfl rfl
      exact fun _ => shells_modifyShell_same Shell.locked rfl
  | requestShutdown life =>
      cases hperform
      exact hsound.beside .requestShutdown (fun _ => rfl) rfl rfl rfl rfl
  | state life =>
      obtain ⟨object, -, heq⟩ := Option.map_eq_some_iff.mp hperform
      cases heq
      exact hsound.beside (.refl world) (fun _ => rfl) rfl rfl rfl rfl
  | incompleteSteps life =>
      obtain ⟨object, -, heq⟩ := Option.map_eq_some_iff.mp hperform
      cases heq
      exact hsound.beside (.refl world) (fun _ => rfl) rfl rfl rfl rfl
  | failures life =>
      obtain ⟨object, -, heq⟩ := Option.map_eq_some_iff.mp hperform
      cases heq
      exact hsound.beside (.refl world) (fun _ => rfl) rfl rfl rfl rfl
  | parkClosing app =>
      cases hperform
      exact hsound.beside .parkClosing (fun _ => locked_parkClosing) rfl rfl rfl rfl
  | parkedState app =>
      cases hperform
      exact hsound.beside (.refl world) (fun _ => rfl) rfl rfl rfl rfl
  | earlyFailures app =>
      cases hperform
      exact hsound.beside (.refl world) (fun _ => rfl) rfl rfl rfl rfl

/-- In every interleaving, whatever the guard of the run. -/
theorem sound_of_reachable [Infra] {apps : Nat → CoApp}
    {guard : Pool ProcessAct ProcessAct.Answer ProcessResult ProcessWorld ProcessView →
      PoolStep ProcessEntry (CallEnd Nat) (Nat × LifeMove) → Prop}
    {pool : Pool ProcessAct ProcessAct.Answer ProcessResult ProcessWorld ProcessView}
    (hreach : (processSystem apps).machine.ReachableWhere guard pool) :
    pool.shared.Sound pool.views := by
  refine (processes_disciplined apps).invariant ?_ ?_ ?_ hreach
  · rintro _ rfl
    exact Sound.fresh
  · intro pool thread ended act answer state hacts hsound
    exact hsound.perform hacts.allowed hacts.performed
  · intro pool event state _ _ hprogress hsound
    exact hsound.progress hprogress

end ProcessWorld

end BbtFramework.Host
