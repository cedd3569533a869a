import BbtFramework.Host.ProcessInvariant

/-!
# The steps of the thread that runs

The thread that has the place of the active application is the only one inside; the others
keep what they know.
-/

namespace BbtFramework.Host

open BbtFramework.Library

namespace ProcessWorld

variable {world later : ProcessWorld} {views : Nat → ProcessView} {thread : Nat}
variable {view : ProcessView}

/-- A step of the thread that has the place; the others are outside. -/
theorem Sound.running (hsound : world.Sound views) (hactive : later.active = world.active)
    (hslot : (views thread).stage.slot = some ())
    (happ : view.stage.app = (views thread).stage.app)
    (hmutex : Exclusive ProcessView.holding (fun app => (later.shells app).locked)
      (Function.update views thread view))
    (hmakers : Exclusive ProcessView.owned (fun app => (later.shells app).ranOnce)
      (Function.update views thread view))
    (hstands : later.Stands view.stage)
    (hseen : ∀ app pointer, view.holding = some app → view.seen = some pointer →
      (later.shells app).lifecycle = pointer)
    (hothers : ∀ other app, other ≠ thread → (views other).holding = some app →
      (later.shells app).lifecycle = (world.shells app).lifecycle)
    (hpublished : ∀ app life, (later.shells app).lifecycle = some life →
      ∃ phase, view.stage = .shown app life phase)
    (hliving : ∀ life object, later.lifecycleAt life = some object → object.alive = true →
      view.stage.life = some life)
    (hhistory : later.History) : later.Sound (Function.update views thread view) where
  slot := by
    refine hsound.slot.keep ?_ ?_
    · rw [hslot]
      cases hstage : view.stage with
      | outside =>
          rw [hstage] at happ
          cases hbefore : (views thread).stage with
          | outside =>
              rw [hbefore] at hslot
              cases hslot
          | _ =>
              rw [hbefore] at happ
              cases happ
      | _ => rfl
    · rw [hactive]
  mutex := hmutex
  makers := hmakers
  stands := by
    intro other
    by_cases heq : other = thread
    · rw [heq, Function.update_self]
      exact hstands
    · rw [Function.update_of_ne heq, hsound.outside hslot heq]
      trivial
  seen := by
    intro other app pointer hholding hread
    by_cases heq : other = thread
    · rw [heq, Function.update_self] at hholding hread
      exact hseen app pointer hholding hread
    · rw [Function.update_of_ne heq] at hholding hread
      rw [hothers other app heq hholding]
      exact hsound.seen other app pointer hholding hread
  published := by
    intro app life hshown
    obtain ⟨phase, hstage⟩ := hpublished app life hshown
    refine ⟨thread, phase, ?_⟩
    rw [Function.update_self]
    exact hstage
  claims := by
    intro other app hclaims
    rw [hactive]
    by_cases heq : other = thread
    · rw [heq, Function.update_self, happ] at hclaims
      exact hsound.claims thread app hclaims
    · rw [Function.update_of_ne heq] at hclaims
      exact hsound.claims other app hclaims
  living := by
    intro life object hfound halive
    refine ⟨thread, ?_⟩
    rw [Function.update_self]
    exact hliving life object hfound halive
  history := hhistory

/-- A step of the run that leaves the mutexes and the published pointers alone. -/
theorem Sound.working (hsound : world.Sound views) (hactive : later.active = world.active)
    (hslot : (views thread).stage.slot = some ())
    (happ : view.stage.app = (views thread).stage.app)
    (hheld : view.holding = (views thread).holding) (hread : view.seen = (views thread).seen)
    (hlocked : ∀ app, (later.shells app).locked = (world.shells app).locked)
    (hlifecycle : ∀ app, (later.shells app).lifecycle = (world.shells app).lifecycle)
    (hmakers : Exclusive ProcessView.owned (fun app => (later.shells app).ranOnce)
      (Function.update views thread view))
    (hstands : later.Stands view.stage)
    (hshown : ∀ app life phase, (views thread).stage = .shown app life phase →
      ∃ next, view.stage = .shown app life next)
    (hliving : ∀ life object, later.lifecycleAt life = some object → object.alive = true →
      view.stage.life = some life)
    (hhistory : later.History) : later.Sound (Function.update views thread view) := by
  refine hsound.running hactive hslot happ ?_ hmakers hstands ?_ ?_ ?_ hliving hhistory
  · exact hsound.mutex.keep hheld (funext hlocked)
  · intro app pointer hholding hpointer
    rw [hlifecycle]
    exact hsound.seen thread app pointer (hheld ▸ hholding) (hread ▸ hpointer)
  · exact fun _ app _ _ => hlifecycle app
  · intro app life hpublished
    rw [hlifecycle] at hpublished
    obtain ⟨phase, hstage⟩ := hsound.shown hslot hpublished
    exact hshown app life phase hstage

/-- The live lifecycle is the one of the thread that has the place. -/
theorem Sound.alive_life (hsound : world.Sound views)
    (hslot : (views thread).stage.slot = some ()) {life : Nat} {object : RunObject}
    (hfound : world.lifecycleAt life = some object) (halive : object.alive = true) :
    (views thread).stage.life = some life := by
  obtain ⟨other, hlife⟩ := hsound.living life object hfound halive
  by_cases heq : other = thread
  · exact heq ▸ hlife
  · rw [hsound.outside hslot heq] at hlife
    cases hlife

theorem Sound.stands_life (hsound : world.Sound views) {life : Nat}
    (hlife : (views thread).stage.life = some life) :
    ∃ app, (views thread).stage.app = some app ∧ ∃ object, world.Has app life object := by
  have hstands := hsound.stands thread
  cases hstage : (views thread).stage with
  | built app other =>
      rw [hstage] at hlife hstands
      cases hlife
      obtain ⟨object, hhas, -⟩ := hstands
      exact ⟨app, rfl, object, hhas⟩
  | shown app other phase =>
      rw [hstage] at hlife hstands
      cases hlife
      obtain ⟨-, object, hhas, -⟩ := hstands
      exact ⟨app, rfl, object, hhas⟩
  | hidden app other =>
      rw [hstage] at hlife hstands
      cases hlife
      exact ⟨app, rfl, hstands⟩
  | _ =>
      rw [hstage] at hlife
      cases hlife

/-- A write to a shell that forgets nothing of the past. -/
theorem History.modifyShell {app : Nat} {change : Shell → Shell} (hhistory : world.History)
    (hran : (world.shells app).ranOnce = true → (change (world.shells app)).ranOnce = true)
    (hearly : (change (world.shells app)).ranOnce = false →
      (change (world.shells app)).earlyFailures = [])
    (hparked : (change (world.shells app)).parkedState = .closed →
      (world.shells app).parkedState = .closed ∨ ∃ life object,
        world.lifecycleAt life = some object ∧ object.app = app ∧ object.life.state = .closed) :
    (world.modifyShell app change).History where
  single := hhistory.single
  ran := by
    intro life object hfound
    have hbefore := hhistory.ran life object hfound
    by_cases heq : object.app = app
    · rw [heq] at hbefore ⊢
      rw [shells_modifyShell_self]
      exact hran hbefore
    · rw [shells_modifyShell_ne heq]
      exact hbefore
  early := by
    intro other hother
    by_cases heq : other = app
    · rw [heq, shells_modifyShell_self] at hother ⊢
      exact hearly hother
    · rw [shells_modifyShell_ne heq] at hother ⊢
      exact hhistory.early other hother
  parked := by
    intro other hother
    by_cases heq : other = app
    · rw [heq, shells_modifyShell_self] at hother
      rcases hparked hother with hold | hclosed
      · exact heq ▸ hhistory.parked app hold
      · exact heq ▸ hclosed
    · rw [shells_modifyShell_ne heq] at hother
      exact hhistory.parked other hother

/-- A write to an object that leaves its application and its end alone. -/
theorem History.objects (hhistory : world.History) (hshells : later.shells = world.shells)
    (hback : ∀ life object, later.lifecycleAt life = some object →
      ∃ earlier, world.lifecycleAt life = some earlier ∧ object.app = earlier.app)
    (hclosed : ∀ life object, world.lifecycleAt life = some object →
      object.life.state = .closed → ∃ next, later.lifecycleAt life = some next ∧
        next.app = object.app ∧ next.life.state = .closed) : later.History where
  single := by
    intro left right first second hfirst hsecond happ
    obtain ⟨former, hformer, hsame⟩ := hback left first hfirst
    obtain ⟨latter, hlatter, halike⟩ := hback right second hsecond
    rw [hsame, halike] at happ
    exact hhistory.single left right former latter hformer hlatter happ
  ran := by
    intro life object hfound
    obtain ⟨earlier, hearlier, hsame⟩ := hback life object hfound
    rw [hshells, hsame]
    exact hhistory.ran life earlier hearlier
  early := by
    intro app hran
    rw [hshells] at hran ⊢
    exact hhistory.early app hran
  parked := by
    intro app hparked
    rw [hshells] at hparked
    obtain ⟨life, object, hfound, happ, hend⟩ := hhistory.parked app hparked
    obtain ⟨next, hnext, hsame, hlast⟩ := hclosed life object hfound hend
    exact ⟨life, next, hnext, hsame.trans happ, hlast⟩

section

variable {life other : Nat} {move : RunObject → RunObject}

/-- An object after a write, and what it was. -/
theorem lifecycleAt_of_modifyObject {object : RunObject}
    (hfound : (world.modifyObject life move).lifecycleAt other = some object) :
    ∃ earlier, world.lifecycleAt other = some earlier ∧
      (other ≠ life ∧ object = earlier ∨ other = life ∧ object = move earlier) := by
  by_cases heq : other = life
  · rw [heq, lifecycleAt_modifyObject_self] at hfound
    obtain ⟨earlier, hearlier, hmove⟩ := Option.map_eq_some_iff.mp hfound
    exact ⟨earlier, heq ▸ hearlier, Or.inr ⟨heq, hmove.symm⟩⟩
  · rw [lifecycleAt_modifyObject_ne heq] at hfound
    exact ⟨object, hfound, Or.inl ⟨heq, rfl⟩⟩

theorem lifecycleAt_modifyObject_of {object : RunObject}
    (hfound : world.lifecycleAt other = some object) :
    (world.modifyObject life move).lifecycleAt other = some object ∨
      (world.modifyObject life move).lifecycleAt other = some (move object) := by
  by_cases heq : other = life
  · right
    rw [heq, lifecycleAt_modifyObject_self, ← heq, hfound]
    rfl
  · left
    rw [lifecycleAt_modifyObject_ne heq]
    exact hfound

theorem History.modifyObject (hhistory : world.History)
    (happ : ∀ object, (move object).app = object.app)
    (hlife : ∀ object, (move object).life = object.life) :
    (world.modifyObject life move).History := by
  refine hhistory.objects rfl ?_ ?_
  · intro other object hfound
    obtain ⟨earlier, hearlier, ⟨-, rfl⟩ | ⟨-, rfl⟩⟩ := lifecycleAt_of_modifyObject hfound
    · exact ⟨object, hearlier, rfl⟩
    · exact ⟨earlier, hearlier, happ earlier⟩
  · intro other object hfound hclosed
    rcases lifecycleAt_modifyObject_of hfound with hsame | hmoved
    · exact ⟨object, hsame, rfl, hclosed⟩
    · refine ⟨move object, hmoved, happ object, ?_⟩
      rw [hlife]
      exact hclosed

end

/-- The place of the active application is taken or given back. -/
theorem Sound.gate {active : Option Nat} (hsound : world.Sound views)
    (houtside : ∀ other, other ≠ thread → (views other).stage = .outside)
    (hbefore : (views thread).stage.life = none)
    (hheld : view.holding = (views thread).holding) (hread : view.seen = (views thread).seen)
    (howned : view.owned = (views thread).owned)
    (hstands : ({ world with active := active } : ProcessWorld).Stands view.stage)
    (hslot : Exclusive (fun view : ProcessView => view.stage.slot) (fun _ => active.isSome)
      (Function.update views thread view))
    (hclaims : ∀ app, view.stage.app = some app → active = some app) :
    ({ world with active := active } : ProcessWorld).Sound
      (Function.update views thread view) := by
  have hnone : ∀ other, (views other).stage.life = none := by
    intro other
    by_cases heq : other = thread
    · exact heq ▸ hbefore
    · rw [houtside other heq]
      rfl
  have hhistory : ({ world with active := active } : ProcessWorld).History :=
    hsound.history.objects rfl (fun _ object hfound => ⟨object, hfound, rfl⟩)
      (fun _ object hfound hclosed => ⟨object, hfound, rfl, hclosed⟩)
  refine ⟨hslot, hsound.mutex.keep hheld rfl, hsound.makers.keep howned rfl, ?_, ?_, ?_, ?_, ?_,
    hhistory⟩
  · intro other
    by_cases heq : other = thread
    · rw [heq, Function.update_self]
      exact hstands
    · rw [Function.update_of_ne heq, houtside other heq]
      trivial
  · intro other app pointer hholding hpointer
    by_cases heq : other = thread
    · rw [heq, Function.update_self] at hholding hpointer
      exact hsound.seen thread app pointer (hheld ▸ hholding) (hread ▸ hpointer)
    · rw [Function.update_of_ne heq] at hholding hpointer
      exact hsound.seen other app pointer hholding hpointer
  · intro app life hpublished
    obtain ⟨other, phase, hstage⟩ := hsound.published app life hpublished
    have hlife := hnone other
    rw [hstage] at hlife
    cases hlife
  · intro other app happ
    by_cases heq : other = thread
    · rw [heq, Function.update_self] at happ
      exact hclaims app happ
    · rw [Function.update_of_ne heq, houtside other heq] at happ
      cases happ
  · intro life object hfound halive
    obtain ⟨other, hlife⟩ := hsound.living life object hfound halive
    cases (hnone other).symm.trans hlife

theorem Sound.claimActive {app : Nat} (hsound : world.Sound views)
    (hstage : (views thread).stage = .outside) (hactive : world.active = none) :
    ({ world with active := some app } : ProcessWorld).Sound
      (Function.update views thread ((views thread).after (.claimActive app) true)) := by
  have houtside : ∀ other, (views other).stage = .outside := by
    intro other
    cases hother : (views other).stage.slot with
    | none => exact RunnerStage.slot_eq_none hother
    | some key =>
        have htaken := hsound.slot.taken other key hother
        rw [hactive] at htaken
        cases htaken
  refine hsound.gate (fun other _ => houtside other) ?_ rfl rfl rfl trivial ?_ ?_
  · rw [hstage]
    rfl
  · refine hsound.slot.take ?_ rfl rfl ?_
    · rw [hactive]
      rfl
    · exact fun other hne => absurd rfl hne
  · exact fun _ happ => happ

theorem Sound.releaseActive {app : Nat} (hsound : world.Sound views)
    (hstage : (views thread).stage = .claimed app ∨ (views thread).stage = .finished app) :
    ({ world with active := none } : ProcessWorld).Sound
      (Function.update views thread ((views thread).after .releaseActive ())) := by
  have hslot : (views thread).stage.slot = some () := by
    rcases hstage with hstage | hstage <;> rw [hstage] <;> rfl
  refine hsound.gate (fun other hne => hsound.outside hslot hne) ?_ rfl rfl rfl trivial ?_ ?_
  · rcases hstage with hstage | hstage <;> rw [hstage] <;> rfl
  · refine hsound.slot.give hslot rfl ?_
    exact fun other hne => absurd rfl hne
  · intro app happ
    cases happ

/-- The first `run` of an application finds nothing of an earlier one. -/
theorem Sound.exchangeRanOnce {app : Nat} (hsound : world.Sound views)
    (hstage : (views thread).stage = .claimed app) (hran : (world.shells app).ranOnce = false) :
    (world.modifyShell app (fun shell => { shell with ranOnce := true })).Sound
      (Function.update views thread ((views thread).after (.exchangeRanOnce app) false)) := by
  have hslot : (views thread).stage.slot = some () := by
    rw [hstage]
    rfl
  refine hsound.working rfl hslot ?_ rfl rfl ?_ ?_ ?_ ?_ ?_ ?_ ?_
  · rw [hstage]
    rfl
  · exact fun _ => shells_modifyShell_same Shell.locked rfl
  · exact fun _ => shells_modifyShell_same Shell.lifecycle rfl
  · refine hsound.makers.take hran rfl ?_ ?_
    · rw [shells_modifyShell_self]
    · intro other hne
      rw [shells_modifyShell_ne hne]
  · refine ⟨?_, ?_, ?_⟩
    · rw [shells_modifyShell_self]
    · rw [shells_modifyShell_self]
      exact hsound.history.early app hran
    · intro life object hfound happ
      have hbefore := hsound.history.ran life object hfound
      rw [happ, hran] at hbefore
      cases hbefore
  · intro other life phase hshown
    rw [hstage] at hshown
    cases hshown
  · intro life object hfound halive
    have hlife := hsound.alive_life hslot hfound halive
    rw [hstage] at hlife
    cases hlife
  · refine hsound.history.modifyShell (fun _ => rfl) ?_ Or.inl
    intro hnot
    cases hnot

/-- An application that has run before is left as it is. -/
theorem Aside.exchangeRanOnce {app : Nat} (hran : (world.shells app).ranOnce = true) :
    world.Aside (world.modifyShell app (fun shell => { shell with ranOnce := true })) :=
  .modifyShell hran.symm rfl rfl Iff.rfl

theorem Sound.appendEarly {app : Nat} {failures : List String} (hsound : world.Sound views)
    (hstage : (views thread).stage = .first app) :
    (world.modifyShell app (fun shell =>
      { shell with earlyFailures := shell.earlyFailures ++ failures })).Sound
      (Function.update views thread ((views thread).after (.appendEarly app failures) ())) := by
  have hslot : (views thread).stage.slot = some () := by
    rw [hstage]
    rfl
  have hafter : ((views thread).after (.appendEarly app failures) ()).stage = .finished app := by
    change (views thread).stage.finish = _
    rw [hstage]
    rfl
  have hstands := hsound.stands thread
  rw [hstage] at hstands
  refine hsound.working rfl hslot ?_ rfl rfl ?_ ?_ ?_ ?_ ?_ ?_ ?_
  · rw [hafter, hstage]
    rfl
  · exact fun _ => shells_modifyShell_same Shell.locked rfl
  · exact fun _ => shells_modifyShell_same Shell.lifecycle rfl
  · refine hsound.makers.keep rfl (funext ?_)
    exact fun _ => shells_modifyShell_same Shell.ranOnce rfl
  · rw [hafter]
    trivial
  · intro other life phase hshown
    rw [hstage] at hshown
    cases hshown
  · intro life object hfound halive
    have hlife := hsound.alive_life hslot hfound halive
    rw [hstage] at hlife
    cases hlife
  · refine hsound.history.modifyShell id ?_ Or.inl
    intro hnot
    cases hstands.1.symm.trans hnot

end ProcessWorld

end BbtFramework.Host
