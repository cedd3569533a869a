import BbtFramework.Host.Process

/-!
# The discipline of the threads

Every call makes its actions in the order its thread may make them: it writes to a lifecycle
only as its run, and looks at one only under the mutex.
-/

namespace BbtFramework.Host

open BbtFramework.Library

/-- What the result of a call says; a `run` that is not rejected returns after the end. -/
def ProcessResult.tells : ProcessResult → Option Heard
  | .ran app (.returned code) => if code = exitRejected then none else some (.state app .closed)
  | .state app reported => some (.state app reported)
  | .failures app reported => some (.failures app reported)
  | _ => none

/-- What a thread has when it returns. -/
structure ProcessResult.Leaves (result : ProcessResult) (view : ProcessView) : Prop where
  holding : view.holding = none
  stage : view.stage = .outside
  owned : ∀ app ended, result = .ran app ended → ended ≠ .returned exitRejected →
    view.owned = some app
  told : ∀ told, result.tells = some told → view.told = some told

/-- A call that is not a `run`. -/
theorem ProcessResult.Leaves.call {result : ProcessResult} {view : ProcessView}
    (hheld : view.holding = none) (hstage : view.stage = .outside)
    (hcall : ∀ app ended, result ≠ .ran app ended)
    (htold : ∀ told, result.tells = some told → view.told = some told) :
    result.Leaves view where
  holding := hheld
  stage := hstage
  owned := fun app ended hran => absurd hran (hcall app ended)
  told := htold

theorem observe_follows {Value : Type} {app : Nat} {published : Nat → ProcessOp Value}
    {parked : ProcessOp Value} {view : ProcessView} (told : Value → Option Heard)
    (hfree : view.holding = none)
    (hpublished : ∀ life, Program.Follows processDiscipline (published life)
      { view with holding := some app, seen := some (some life) }
      (fun value later => later =
        { view with holding := some app, seen := some (some life), told := told value }))
    (hparked : Program.Follows processDiscipline parked
      { view with holding := some app, seen := some none }
      (fun value later => later =
        { view with holding := some app, seen := some none, told := told value })) :
    Program.Follows processDiscipline (observe app published parked) view
      (fun value later => later = { view with seen := none, told := told value }) := by
  have hunlock : ∀ pointer (value : Value), Program.Follows processDiscipline
      (do asks (.unlock app); return value)
      { view with holding := some app, seen := some pointer, told := told value }
      (fun value later => later = { view with seen := none, told := told value }) := by
    intro pointer value
    refine Program.Follows.step rfl ?_
    intro _ _
    change ({ view with holding := none, seen := none, told := told value } : ProcessView) =
      { view with seen := none, told := told value }
    rw [← hfree]
  refine Program.Follows.step hfree ?_
  intro _ _
  refine Program.Follows.step rfl ?_
  intro (pointer : Option Nat) _
  cases pointer with
  | none =>
      refine hparked.andThen ?_
      rintro value later rfl
      exact hunlock none value
  | some life =>
      refine (hpublished life).andThen ?_
      rintro value later rfl
      exact hunlock (some life) value

theorem setLifecycle_follows {app : Nat} {pointer : Option Nat} {view : ProcessView}
    (hfree : view.holding = none)
    (hallows : ProcessView.allows { view with holding := some app, seen := none }
      (.setLifecycle app pointer)) :
    Program.Follows processDiscipline (setLifecycle app pointer) view
      (fun _ later => later = { view with seen := none, stage := view.stage.point pointer }) := by
  refine Program.Follows.step hfree ?_
  intro _ _
  refine Program.Follows.step hallows ?_
  intro _ _
  refine ⟨rfl, ?_⟩
  intro _ _
  change ({ view with holding := none, seen := none, stage := _ } : ProcessView) = _
  rw [← hfree]
  rfl

theorem keepResults_follows {app life : Nat} {ended : CallEnd Nat} {view : ProcessView}
    (hstage : view.stage = .shown app life (.ofEnd ended)) :
    Program.Follows processDiscipline (keepResults app life ended) view
      (fun _ later => later.holding = view.holding ∧ later.owned = view.owned ∧
        (later.stage = .shown app life .parked ∨ later.stage = .shown app life .threw) ∧
        ∀ code, ended = .returned code → later.told = some (.state app .closed)) := by
  cases ended with
  | returned code =>
      refine Program.Follows.step hstage ?_
      intro _ _
      have hcollected : view.stage.goto .collected = .shown app life .collected := by
        rw [hstage]
        rfl
      refine ⟨hcollected, ?_⟩
      intro _ _
      refine ⟨rfl, rfl, Or.inl ?_, fun _ _ => rfl⟩
      change (view.stage.goto .collected).goto .parked = _
      rw [hcollected]
      rfl
  | threw what =>
      refine Program.Follows.pure ⟨rfl, rfl, Or.inr hstage, ?_⟩
      intro code hcode
      cases hcode
  | threwOther =>
      refine Program.Follows.pure ⟨rfl, rfl, Or.inr hstage, ?_⟩
      intro code hcode
      cases hcode

/-- From the construction of the lifecycle to its end. -/
theorem withLifecycle_follows {app : Nat} {config : CoApp} {view : ProcessView}
    (hfree : view.holding = none) (hstage : view.stage = .first app)
    (howned : view.owned = some app) :
    Program.Follows processDiscipline (withLifecycle app config) view
      (fun ended later => later.holding = none ∧ later.stage = .finished app ∧
        later.owned = some app ∧
        ∀ code, ended = .returned code → later.told = some (.state app .closed)) := by
  refine Program.Follows.step hstage ?_
  intro (life : Nat) _
  have hbuilt : (view.after (.construct app config.hasHost config.options.shutdownStepBudget)
      life).holding = none := hfree
  refine (setLifecycle_follows hbuilt ?_).andThen ?_
  · exact ⟨rfl, rfl⟩
  rintro - _ rfl
  refine Program.Follows.step ⟨app, rfl⟩ ?_
  intro _ _
  refine Program.Follows.step ⟨app, rfl⟩ ?_
  intro (ended : CallEnd Nat) _
  refine (keepResults_follows rfl).andThen ?_
  rintro - later ⟨hheld, hfirst, hlast, htold⟩
  have hhidden : later.stage.point none = .hidden app life := by
    rcases hlast with hphase | hphase <;> rw [hphase] <;> rfl
  refine (setLifecycle_follows (hheld.trans hfree) ?_).andThen ?_
  · exact ⟨rfl, life, hlast⟩
  rintro - _ rfl
  refine Program.Follows.step ⟨app, hhidden⟩ ?_
  intro _ _
  refine ⟨hheld.trans hfree, ?_, hfirst.trans howned, htold⟩
  change (later.stage.point none).finish = _
  rw [hhidden]
  rfl

section

variable [Infra]

theorem runClaimed_follows {app : Nat} {config : CoApp} {view : ProcessView}
    (hfree : view.holding = none) (hstage : view.stage = .claimed app)
    (howned : view.owned = none) :
    Program.Follows processDiscipline (runClaimed app config) view
      (fun ended later => later.holding = none ∧
        (later.stage = .claimed app ∨ later.stage = .finished app) ∧
        (ended ≠ .returned exitRejected → later.owned = some app ∧
          ∀ code, ended = .returned code → later.told = some (.state app .closed))) := by
  refine Program.Follows.step ⟨hstage, howned⟩ ?_
  intro (ran : Bool) _
  cases ran with
  | true => exact Program.Follows.pure ⟨hfree, Or.inl hstage, absurd rfl⟩
  | false =>
      rw [if_neg Bool.false_ne_true]
      cases config.validateConfig with
      | error error =>
          refine Program.Follows.step rfl ?_
          intro _ _
          exact ⟨hfree, Or.inr rfl, absurd rfl⟩
      | ok _ =>
          have hfirst : (view.after (.exchangeRanOnce app) false).holding = none := hfree
          refine (withLifecycle_follows hfirst rfl rfl).mono ?_
          rintro ended later ⟨hheld, hover, hafter⟩
          exact ⟨hheld, Or.inr hover, fun _ => hafter⟩

theorem runApp_follows (app : Nat) (config : CoApp) :
    Program.Follows processDiscipline (runApp app config) .fresh
      (fun ended later => later.holding = none ∧ later.stage = .outside ∧
        (ended ≠ .returned exitRejected → later.owned = some app ∧
          ∀ code, ended = .returned code → later.told = some (.state app .closed))) := by
  refine Program.Follows.step ⟨rfl, rfl⟩ ?_
  intro (claimed : Bool) _
  cases claimed with
  | false => exact Program.Follows.pure ⟨rfl, rfl, absurd rfl⟩
  | true =>
      rw [if_neg (not_not.mpr rfl)]
      refine (runClaimed_follows rfl rfl rfl).andThen ?_
      rintro ended later ⟨hheld, hstage, hafter⟩
      refine Program.Follows.step ⟨app, hstage⟩ ?_
      intro _ _
      exact ⟨hheld, rfl, hafter⟩

theorem processes_disciplined (apps : Nat → CoApp) :
    (processSystem apps).Disciplined ProcessResult.Leaves where
  main := by
    intro entry
    cases entry with
    | run app =>
        refine (runApp_follows app (apps app)).andThen ?_
        rintro ended later ⟨hheld, hstage, hafter⟩
        refine Program.Follows.pure ⟨hheld, hstage, ?_, ?_⟩
        · rintro other last ⟨⟩ hnot
          exact (hafter hnot).1
        · intro told htells
          cases ended with
          | returned code =>
              dsimp only [ProcessResult.tells] at htells
              split at htells
              case isTrue => cases htells
              case isFalse hcode =>
                cases htells
                refine (hafter ?_).2 code rfl
                rintro ⟨⟩
                exact hcode rfl
          | threw what => cases htells
          | threwOther => cases htells
    | requestShutdown app =>
        refine Program.Follows.bind ?_
        refine Program.Follows.step trivial ?_
        intro _ _
        refine (observe_follows (fun _ => none) rfl ?_ ?_).mono ?_
        · exact fun life => ⟨⟨app, rfl, rfl⟩, fun _ _ => rfl⟩
        · exact ⟨⟨rfl, rfl⟩, fun _ _ => rfl⟩
        rintro - _ rfl
        refine .call rfl rfl ?_ ?_
        · rintro _ _ ⟨⟩
        · rintro _ ⟨⟩
    | shutdownState app =>
        refine (observe_follows (fun state => some (.state app state)) rfl ?_ ?_).andThen ?_
        · exact fun life => ⟨⟨app, rfl, rfl⟩, fun _ _ => rfl⟩
        · exact ⟨⟨rfl, rfl⟩, fun _ _ => rfl⟩
        rintro state _ rfl
        refine .call rfl rfl ?_ (fun _ htells => htells)
        rintro _ _ ⟨⟩
    | pendingCleanup app =>
        refine (observe_follows (fun _ => none) rfl ?_ ?_).andThen ?_
        · exact fun life => ⟨⟨app, rfl, rfl⟩, fun _ _ => rfl⟩
        · exact Program.Follows.pure rfl
        rintro steps _ rfl
        refine .call rfl rfl ?_ ?_
        · rintro _ _ ⟨⟩
        · rintro _ ⟨⟩
    | lifecycleFailures app =>
        refine (observe_follows (fun failures => some (.failures app failures)) rfl
          ?_ ?_).andThen ?_
        · exact fun life => ⟨⟨app, rfl, rfl⟩, fun _ _ => rfl⟩
        · exact ⟨⟨rfl, rfl⟩, fun _ _ => rfl⟩
        rintro failures _ rfl
        refine .call rfl rfl ?_ (fun _ htells => htells)
        rintro _ _ ⟨⟩
  idle := by
    refine .call rfl rfl ?_ ?_
    · rintro _ _ ⟨⟩
    · rintro _ ⟨⟩
  answers := fun _ _ _ _ _ _ => trivial

end

end BbtFramework.Host
