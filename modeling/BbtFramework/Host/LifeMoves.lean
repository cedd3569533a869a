import BbtFramework.Host.CoApp
import Mathlib.Data.List.Infix
import Mathlib.Logic.Relation

/-!
# The writes of a run

Any number of applications live in one process.  The lifecycle that `run` keeps on its stack
is written to by `Run` alone, step by step: the phase moves forward only, and every failure
stays.
-/

namespace BbtFramework.Host

open BbtFramework.Library

/-- A lifecycle object; `running` says that its `Run` is in progress, `requested` that
`RequestShutdown` has been called on it. -/
structure RunObject where
  app : Nat
  alive : Bool
  running : Bool
  requested : Bool
  life : HostLifecycle

/-- The members of an application that outlive its run; `locked` is `m_lifecycle_mtx`. -/
structure Shell where
  ranOnce : Bool
  locked : Bool
  lifecycle : Option Nat
  shutdownReq : Bool
  parkedState : ShutdownState
  earlyFailures : List String

def Shell.fresh : Shell where
  ranOnce := false
  locked := false
  lifecycle := none
  shutdownReq := false
  parkedState := .running
  earlyFailures := []

structure ProcessWorld where
  active : Option Nat
  shells : Nat → Shell
  objects : List RunObject

def Phase.rank : Phase → Nat
  | .idle => 0
  | .starting => 1
  | .running => 2
  | .closing => 3
  | .shutdownIncomplete => 4
  | .closed | .failed => 5

/-- A write of `Run` to the object. -/
inductive LifeMove where
  | setFlags (started hostCreated exceededBudget : Bool)
  | setPhase (phase : Phase)
  | addFailure (what : String)
  | enterIncomplete (step : String)
  | leaveIncomplete (step : String)
  deriving DecidableEq, Repr

/-- `Run` moves the phase forward only, leaves `Running` on a request, and does nothing
after its last phase. -/
def HostLifecycle.move (life : HostLifecycle) (asked : Bool) (move : LifeMove) :
    Option HostLifecycle :=
  if life.state = .closed then none
  else
    match move with
    | .setFlags started hostCreated exceededBudget =>
        some { life with
          started := started, hostCreated := hostCreated, exceededBudget := exceededBudget }
    | .setPhase phase =>
        if life.phase.rank < phase.rank ∧ (life.phase = .running → asked = true) then
          some (life.setPhase phase)
        else none
    | .addFailure what => some (life.addFailure what)
    | .enterIncomplete step =>
        if life.phase = .closing then some (life.enterIncomplete step) else none
    | .leaveIncomplete step => some (life.leaveIncomplete step)

/-- The request is the flag of the object or the one of its application. -/
def RunObject.progress (object : RunObject) (external : Bool) (move : LifeMove) :
    Option RunObject :=
  (object.life.move (object.requested || external) move).map (fun life =>
    { object with life := life })

/-- `Run` returns from its last phase, and an exception leaves it before that. -/
def RunObject.mayEnd (object : RunObject) : CallEnd Nat → Bool
  | .returned _ => object.life.state = .closed
  | _ => object.life.state ≠ .closed

/-- A sequence of writes that the order allows, once a shutdown is asked for. -/
def HostLifecycle.Moves : HostLifecycle → HostLifecycle → Prop :=
  Relation.ReflTransGen (fun life moved => ∃ move, life.move true move = some moved)

namespace HostLifecycle

variable {life moved last : HostLifecycle} {hooks : Hooks}

theorem follows_free {Value : Type} (program : HostOp Value) :
    Program.Follows Program.free program () (fun _ _ => True) := by
  induction program with
  | done value => trivial
  | call act next ih => exact ⟨trivial, fun answer _ => ih answer⟩

/-- Between the start of the shutdown and its last phase. -/
structure Closing (life : HostLifecycle) : Prop where
  opened : life.state ≠ .closed
  phase : life.phase = .closing ∨ life.phase = .shutdownIncomplete

theorem Closing.rank (hclosing : life.Closing) : life.phase.rank < 5 := by
  rcases hclosing.phase with hphase | hphase <;> rw [hphase] <;> decide

theorem Closing.addFailure {what : String} (hclosing : life.Closing) :
    (life.addFailure what).Closing :=
  ⟨hclosing.opened, hclosing.phase⟩

theorem Moves.write (move : LifeMove) (hmoves : life.Moves moved)
    (hmove : moved.move true move = some last) : life.Moves last :=
  hmoves.tail ⟨move, hmove⟩

theorem Moves.addFailure {what : String} (hmoves : life.Moves moved)
    (hopen : moved.state ≠ .closed) : life.Moves (moved.addFailure what) := by
  refine hmoves.write (.addFailure what) ?_
  rw [move, if_neg hopen]

theorem Moves.setFlags {started hostCreated exceededBudget : Bool} (hmoves : life.Moves moved)
    (hopen : moved.state ≠ .closed) : life.Moves { moved with
      started := started, hostCreated := hostCreated, exceededBudget := exceededBudget } := by
  refine hmoves.write (.setFlags started hostCreated exceededBudget) ?_
  rw [move, if_neg hopen]

theorem Moves.setPhase {phase : Phase} (hmoves : life.Moves moved)
    (hopen : moved.state ≠ .closed) (hrank : moved.phase.rank < phase.rank) :
    life.Moves (moved.setPhase phase) := by
  refine hmoves.write (.setPhase phase) ?_
  rw [move, if_neg hopen, if_pos ⟨hrank, fun _ => rfl⟩]

theorem Moves.enterIncomplete (timedOut : Bool) (what step : String) (hmoves : life.Moves moved)
    (hphase : moved.phase = .closing) (hopen : moved.state ≠ .closed) :
    let waiting := (if timedOut then moved else moved.addFailure what).enterIncomplete step
    life.Moves waiting ∧ waiting.Closing ∧ life.Moves (waiting.leaveIncomplete step) := by
  intro waiting
  have hnoted : life.Moves (if timedOut then moved else moved.addFailure what) ∧
      (if timedOut then moved else moved.addFailure what).phase = .closing ∧
      (if timedOut then moved else moved.addFailure what).state ≠ .closed := by
    cases timedOut with
    | true => exact ⟨hmoves, hphase, hopen⟩
    | false => exact ⟨hmoves.addFailure hopen, hphase, hopen⟩
  have hwaiting : life.Moves waiting := by
    refine hnoted.1.write (.enterIncomplete step) ?_
    rw [move, if_neg hnoted.2.2, if_pos hnoted.2.1]
  have hclosing : waiting.Closing := ⟨fun hclosed => ShutdownState.noConfusion hclosed, Or.inr rfl⟩
  refine ⟨hwaiting, hclosing, ?_⟩
  refine hwaiting.write (.leaveIncomplete step) ?_
  rw [move, if_neg hclosing.opened]

/-- The wait for the handlers starts in `Closing` and ends before the last phase. -/
theorem waitHandlersDone_moves (hmoves : life.Moves moved) (hphase : moved.phase = .closing)
    (hopen : moved.state ≠ .closed) :
    Program.Follows Program.free moved.waitHandlersDone ()
      (fun result _ => life.Moves result.2 ∧ result.2.Closing) := by
  have hclosing : moved.Closing := ⟨hopen, Or.inl hphase⟩
  refine Program.Follows.step trivial ?_
  intro (first : CallEnd (Except Error Unit)) _
  cases first with
  | threw what => exact Program.Follows.pure ⟨hmoves, hclosing⟩
  | threwOther => exact Program.Follows.pure ⟨hmoves, hclosing⟩
  | returned answer =>
      cases answer with
      | ok _ => exact Program.Follows.pure ⟨hmoves, hclosing⟩
      | error error =>
          refine Program.Follows.step trivial ?_
          intro (reason : Option Error) _
          refine Program.Follows.ite (fun _ => Program.Follows.pure ⟨hmoves, hclosing⟩) ?_
          intro _
          obtain ⟨hwaiting, hincomplete, hleft⟩ :=
            hmoves.enterIncomplete (decide (error.code = .timedOut))
              ("WaitHandlersDone: " ++ error.message) "WaitHandlersDone" hphase hopen
          refine Program.Follows.step trivial ?_
          intro (second : CallEnd (Except Error Unit)) _
          cases second with
          | threw what => exact Program.Follows.pure ⟨hwaiting, hincomplete⟩
          | threwOther => exact Program.Follows.pure ⟨hwaiting, hincomplete⟩
          | returned answer =>
              cases answer with
              | ok _ =>
                  exact Program.Follows.pure ⟨hleft.setFlags hincomplete.opened,
                    ⟨hincomplete.opened, hincomplete.phase⟩⟩
              | error again =>
                  refine Program.Follows.step trivial ?_
                  intro (reason : Option Error) _
                  refine Program.Follows.ite ?_ ?_
                  · intro _
                    exact Program.Follows.pure ⟨hleft.setFlags hincomplete.opened,
                      ⟨hincomplete.opened, hincomplete.phase⟩⟩
                  · intro _
                    exact Program.Follows.pure ⟨hwaiting.addFailure hincomplete.opened,
                      hincomplete.addFailure⟩

theorem release_moves {interrupted : Bool} (hmoves : life.Moves moved)
    (hclosing : moved.Closing) :
    Program.Follows Program.free (release hooks moved interrupted) ()
      (fun result _ => life.Moves result.2 ∧ result.2.Closing) := by
  have hnoted : ∀ released, life.Moves (moved.noteRelease released) ∧
      (moved.noteRelease released).Closing := by
    intro released
    cases released with
    | returned _ => exact ⟨hmoves, hclosing⟩
    | threw what => exact ⟨hmoves.addFailure hclosing.opened, hclosing.addFailure⟩
    | threwOther => exact ⟨hmoves.addFailure hclosing.opened, hclosing.addFailure⟩
  refine (follows_free _).andThen ?_
  exact fun released _ _ => Program.Follows.pure (hnoted released)

theorem closeHost_moves {interrupted : Bool} (hmoves : life.Moves moved)
    (hclosing : moved.Closing) :
    Program.Follows Program.free (closeHost hooks moved interrupted) ()
      (fun result _ => life.Moves result.2 ∧ result.2.Closing) :=
  Program.Follows.step trivial (fun _ _ => release_moves hmoves hclosing)

theorem shutDown_moves (hmoves : life.Moves moved) (hopen : moved.state ≠ .closed)
    (hrank : moved.phase.rank < Phase.closing.rank) :
    Program.Follows Program.free (shutDown hooks moved) ()
      (fun result _ => life.Moves result.2 ∧ result.2.Closing) := by
  have hsets : life.Moves (moved.setPhase .closing) := hmoves.setPhase hopen hrank
  have hstays : (moved.setPhase .closing).state ≠ .closed :=
    fun hclosed => ShutdownState.noConfusion hclosed
  refine Program.Follows.ite ?_ ?_
  · intro _
    refine Program.Follows.step trivial ?_
    intro _ _
    refine (waitHandlersDone_moves hsets rfl hstays).andThen ?_
    rintro ⟨drained, waited⟩ _ ⟨hwaited, hclosing⟩
    cases drained with
    | threw what => exact Program.Follows.pure ⟨hwaited, hclosing⟩
    | threwOther => exact Program.Follows.pure ⟨hwaited, hclosing⟩
    | returned outcome =>
        cases outcome with
        | undrained => exact Program.Follows.step trivial (fun never _ => never.elim)
        | interrupted =>
            exact closeHost_moves (hwaited.addFailure hclosing.opened) hclosing.addFailure
        | drained =>
            have hnoted : ∀ noted, life.Moves (waited.noteDrained noted) ∧
                (waited.noteDrained noted).Closing := by
              intro noted
              cases noted with
              | returned _ => exact ⟨hwaited, hclosing⟩
              | threw what => exact ⟨hwaited.addFailure hclosing.opened, hclosing.addFailure⟩
              | threwOther => exact ⟨hwaited.addFailure hclosing.opened, hclosing.addFailure⟩
            refine (follows_free _).andThen ?_
            exact fun noted _ _ => closeHost_moves (hnoted noted).1 (hnoted noted).2
  · intro _
    exact release_moves hsets ⟨hstays, Or.inl rfl⟩

theorem tryStartUp_moves (hmoves : life.Moves moved) (hopen : moved.state ≠ .closed) :
    Program.Follows Program.free (tryStartUp hooks moved) ()
      (fun result _ => life.Moves result.2 ∧ result.2.state ≠ .closed ∧
        result.2.phase = moved.phase) := by
  refine Program.Follows.step trivial ?_
  intro (scheduler : CallEnd Unit) _
  cases scheduler with
  | threw what => exact Program.Follows.pure ⟨hmoves, hopen, rfl⟩
  | threwOther => exact Program.Follows.pure ⟨hmoves, hopen, rfl⟩
  | returned _ =>
      refine (follows_free _).andThen ?_
      intro (prepared : CallEnd (Except Error Unit)) _ _
      split
      · refine Program.Follows.step trivial ?_
        intro (created : CallEnd (Except Error Unit)) _
        split
        · refine Program.Follows.step trivial ?_
          exact fun _ _ => Program.Follows.pure ⟨hmoves.setFlags hopen, hopen, rfl⟩
        · exact Program.Follows.pure ⟨hmoves, hopen, rfl⟩
      · exact Program.Follows.pure ⟨hmoves, hopen, rfl⟩

/-- What `Run` writes is in the order, and it returns from the last phase only. -/
theorem run_moves [Infra] (hidle : life.phase = .idle) (hopen : life.state ≠ .closed)
    (hnew : life.started = false) :
    Program.Follows Program.free (life.run hooks) ()
      (fun result _ => life.Moves result.2 ∧
        ((∃ code, result.1 = .returned code) ↔ result.2.state = .closed)) := by
  have honce : life.Moves { life with started := true } :=
    Moves.setFlags Relation.ReflTransGen.refl hopen
  have hended : ∀ {last : HostLifecycle} {ended : CallEnd Nat}, last.state ≠ .closed →
      (∀ code, ended ≠ .returned code) →
      ((∃ code, ended = .returned code) ↔ last.state = .closed) := by
    intro last ended hlast hthrew
    constructor
    · rintro ⟨code, hcode⟩
      exact absurd hcode (hthrew code)
    · exact fun hclosed => absurd hclosed hlast
  have hfinished : ∀ {last : HostLifecycle} {code : Nat} {phase : Phase}, life.Moves last →
      last.Closing → phase.rank = 5 → (last.setPhase phase).state = .closed →
      Program.Follows Program.free (Pure.pure (.returned code, last.setPhase phase) :
        HostOp (CallEnd Nat × HostLifecycle)) () (fun result _ => life.Moves result.2 ∧
        ((∃ code, result.1 = .returned code) ↔ result.2.state = .closed)) := by
    intro last code phase hlast hclosing hrank hclosed
    refine Program.Follows.pure ⟨hlast.setPhase hclosing.opened ?_, ?_⟩
    · rw [hrank]
      exact hclosing.rank
    · exact ⟨fun _ => hclosed, fun _ => ⟨code, rfl⟩⟩
  refine Program.Follows.ite ?_ ?_
  · intro hstarted
    cases hnew.symm.trans hstarted
  intro _
  refine Program.Follows.ite ?_ ?_
  · intro _
    refine Program.Follows.pure ⟨(honce.addFailure hopen).setPhase hopen ?_, ?_⟩
    · change life.phase.rank < _
      rw [hidle]
      decide
    · exact ⟨fun _ => rfl, fun _ => ⟨_, rfl⟩⟩
  intro _
  refine Program.Follows.ite ?_ ?_
  · intro _
    refine Program.Follows.pure ⟨(honce.addFailure hopen).setPhase hopen ?_, ?_⟩
    · change life.phase.rank < _
      rw [hidle]
      decide
    · exact ⟨fun _ => rfl, fun _ => ⟨_, rfl⟩⟩
  intro _
  have hstarting : life.Moves ({ life with started := true }.setPhase .starting) := by
    refine honce.setPhase hopen ?_
    change life.phase.rank < _
    rw [hidle]
    decide
  refine (tryStartUp_moves hstarting (fun hclosed => ShutdownState.noConfusion hclosed)).andThen ?_
  rintro ⟨started, prepared⟩ _ ⟨hprepared, hstill, hphase⟩
  have hrank : prepared.phase.rank = 1 := by
    rw [hphase]
    rfl
  dsimp only
  cases caughtStartUp started with
  | error error =>
      refine (shutDown_moves (hprepared.addFailure hstill) hstill ?_).andThen ?_
      · change prepared.phase.rank < _
        rw [hrank]
        decide
      rintro ⟨ended, last⟩ _ ⟨hlast, hclosing⟩
      cases ended with
      | returned code => exact hfinished hlast hclosing rfl rfl
      | _ =>
          refine Program.Follows.pure ⟨hlast, hended hclosing.opened ?_⟩
          rintro code ⟨⟩
  | ok _ =>
      refine Program.Follows.step trivial ?_
      intro _ _
      refine (shutDown_moves (hprepared.setPhase hstill ?_) ?_ ?_).andThen ?_
      · rw [hrank]
        decide
      · exact fun hclosed => ShutdownState.noConfusion hclosed
      · exact Nat.lt_succ_self 2
      rintro ⟨ended, last⟩ _ ⟨hlast, hclosing⟩
      cases ended with
      | returned code =>
          dsimp only
          split
          · exact hfinished hlast hclosing rfl rfl
          · exact hfinished hlast hclosing rfl rfl
      | _ =>
          refine Program.Follows.pure ⟨hlast, hended hclosing.opened ?_⟩
          rintro code ⟨⟩

end HostLifecycle

end BbtFramework.Host
