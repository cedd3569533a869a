import BbtFramework.Error
import BbtFramework.Library.Machine

/-!
# Draining a host that is closed meanwhile

`HostLifecycle::_WaitHandlersDone` waits for the handlers in two rounds and
after each failed wait asks the host whether it was closed.  `_Close` publishes
its reason first where the wait sees it and later where the question looks for
it.  This module runs both threads one critical section at a time and shows
that a question between the two publications is the only way for a closed host
to be taken for one that does not drain.
-/

namespace BbtFramework.Host

open BbtFramework.Library

/-- The wait within the step budget and the unbounded wait after it. -/
inductive Round where
  | first
  | second
  deriving DecidableEq, Repr

inductive DrainOutcome where
  | drained
  | interrupted
  | undrained
  deriving DecidableEq, Repr

/-- Where the run thread stands between `StopAccepting` and the outcome of
`_WaitHandlersDone`.  `query` keeps the error of the failed wait and whether
the handler state had a close reason when the wait returned. -/
inductive DrainPc where
  | stopAccepting
  | enterWait (round : Round)
  | waiting (round : Round)
  | stopServers (round : Round)
  | query (round : Round) (error : Error) (hostClosed : Bool)
  | extend (error : Error)
  | decided (outcome : DrainOutcome)
  deriving DecidableEq, Repr

/-- Where the thread in `InfraHttpHost::Close` stands. -/
inductive ClosePc where
  | idle
  | publishHandler (reason : Error)
  | notify (reason : Error)
  | publishHost (reason : Error)
  | closeServers
  | finished
  deriving DecidableEq, Repr

/-- One answer of `CloseReason`, with the close state of the wait before it. -/
structure CloseQuery where
  hostClosed : Bool
  answer : Option Error
  deriving DecidableEq, Repr

/-- Handler state, host and lifecycle.  `closeReason` is the reason in the
handler state and `hostReason` is `m_close_reason`; `timedOut` is the local of
`_WaitHandlersDone`.  `queries` records the answers of `CloseReason`. -/
structure DrainWorld where
  opened : Bool
  inflight : Nat
  closeReason : Option Error
  hostReason : Option Error
  closer : ClosePc
  run : DrainPc
  timedOut : Bool
  exceededBudget : Bool
  incomplete : List String
  failures : List String
  queries : List CloseQuery

/-- One critical section of either thread or of a handler.  `wake` is a return
of the condition variable before the deadline; `serversStopped` carries what
the servers of infra answer to shutdown, drain and stop. -/
inductive DrainStep where
  | run
  | wake
  | deadline
  | serversStopped (result : Except Error Unit)
  | callClose (reason : Error)
  | close (throws : Bool)
  | invoke
  | finish
  deriving DecidableEq

namespace DrainWorld

/-- `WaitHandlersDone` returns an error. -/
def failWait (world : DrainWorld) (round : Round) (error : Error) : DrainWorld :=
  { world with run := .query round error world.closeReason.isSome }

/-- `WaitHandlersDone` returns without an error. -/
def succeedWait (world : DrainWorld) : Round → DrainWorld
  | .first => { world with run := .decided .drained }
  | .second =>
      { world with
        incomplete := world.incomplete.erase "WaitHandlersDone"
        exceededBudget := world.exceededBudget || world.timedOut
        run := .decided .drained }

/-- `CloseReason` and the branch taken on it. -/
def queryClose (world : DrainWorld) (round : Round) (error : Error)
    (hostClosed : Bool) : DrainWorld :=
  let asked : DrainWorld := { world with
    queries := world.queries ++ [⟨hostClosed, world.hostReason⟩] }
  match round, world.hostReason with
  | .first, some _ => { asked with run := .decided .interrupted }
  | .first, none => { asked with run := .extend error }
  | .second, some _ =>
      { asked with
        incomplete := world.incomplete.erase "WaitHandlersDone"
        exceededBudget := world.exceededBudget || world.timedOut
        run := .decided .interrupted }
  | .second, none =>
      { asked with
        failures := world.failures ++ ["WaitHandlersDone: " ++ error.message]
        run := .decided .undrained }

/-- The failed first wait is recorded and the unbounded one begins. -/
def extendWait (world : DrainWorld) (error : Error) : DrainWorld :=
  let timedOut := decide (error.code = .timedOut)
  { world with
    timedOut := timedOut
    failures := if timedOut then world.failures
      else world.failures ++ ["WaitHandlersDone: " ++ error.message]
    incomplete := world.incomplete ++ ["WaitHandlersDone"]
    run := .enterWait .second }

/-- The next action of the thread in `_Close`; copying the reason can throw,
and the exception ends `_Close`. -/
def closeNext (world : DrainWorld) (throws : Bool) : Option DrainWorld :=
  match world.closer with
  | .idle => none
  | .publishHandler reason =>
      if throws then some { world with opened := false, closer := .finished }
      else
        some { world with
          opened := false
          closeReason := some (world.closeReason.getD reason)
          closer := .notify reason }
  | .notify reason =>
      if throws then none else some { world with closer := .publishHost reason }
  | .publishHost reason =>
      if throws then some { world with closer := .finished }
      else
        some { world with
          hostReason := some (world.hostReason.getD reason)
          closer := .closeServers }
  | .closeServers => some { world with closer := .finished }
  | .finished => none

section

variable [Infra]

/-- The end of the wait in the handler state, under its mutex. -/
def afterWait (world : DrainWorld) (round : Round) : DrainWorld :=
  if world.inflight ≠ 0 then
    match world.closeReason with
    | some reason => world.failWait round reason
    | none =>
        world.failWait round
          (makeError .timedOut "inbound handlers still running")
  else { world with run := .stopServers round }

/-- The next action of the run thread that depends on no outside event. -/
def runNext (world : DrainWorld) : Option DrainWorld :=
  match world.run with
  | .stopAccepting =>
      some { world with opened := false, run := .enterWait .first }
  | .enterWait round =>
      match world.closeReason with
      | some reason => some (world.failWait round reason)
      | none =>
          if world.inflight = 0 then some (world.afterWait round)
          else some { world with run := .waiting round }
  | .query round error hostClosed =>
      some (world.queryClose round error hostClosed)
  | .extend error => some (world.extendWait error)
  | _ => none

/-- The waiting thread evaluates its predicate. -/
def wake (world : DrainWorld) : Option DrainWorld :=
  match world.run with
  | .waiting round =>
      if world.inflight = 0 ∨ world.closeReason.isSome then
        some (world.afterWait round)
      else some world
  | _ => none

def deadline (world : DrainWorld) : Option DrainWorld :=
  match world.run with
  | .waiting .first => some (world.afterWait .first)
  | _ => none

end

/-- The servers answer once the handlers are done. -/
def serversStopped (world : DrainWorld) (result : Except Error Unit) :
    Option DrainWorld :=
  match world.run with
  | .stopServers round =>
      match result with
      | .ok () => some (world.succeedWait round)
      | .error error => some (world.failWait round error)
  | _ => none

end DrainWorld

def drainMachine [Infra] : Machine DrainWorld DrainStep where
  init world :=
    world.opened = true ∧ world.closeReason = none ∧ world.hostReason = none ∧
    world.closer = .idle ∧ world.run = .stopAccepting ∧ world.queries = []
  next world
    | .run => world.runNext
    | .wake => world.wake
    | .deadline => world.deadline
    | .serversStopped result => world.serversStopped result
    | .callClose reason =>
        if world.closer = .idle then
          some { world with closer := .publishHandler reason }
        else none
    | .close throws => world.closeNext throws
    | .invoke =>
        if world.opened then
          some { world with inflight := world.inflight + 1 }
        else none
    | .finish =>
        if world.inflight = 0 then none
        else some { world with inflight := world.inflight - 1 }

/-- Whenever a wait failed on a closed host, the question after it was answered
with a reason and the drain ended as interrupted. -/
def CloseInterrupts (world : DrainWorld) : Prop :=
  ∀ query ∈ world.queries, query.hostClosed = true →
    query.answer.isSome = true ∧ world.run = .decided .interrupted

/-- The run thread is about to ask after a wait that failed on a closed host. -/
def DrainPc.asksAfterClose : DrainPc → Bool
  | .query _ _ hostClosed => hostClosed
  | _ => false

/-- `_Close` stands between its two publications. -/
def ClosePc.isPublishing : ClosePc → Bool
  | .notify _ => true
  | .publishHost _ => true
  | _ => false

/-- No question after a wait that failed on a closed host falls between the two
publications, and the second publication happens. -/
def AsksOutsidePublication (world : DrainWorld) : DrainStep → Prop
  | .run => world.run.asksAfterClose = true → world.closer.isPublishing = false
  | .close throws => throws = true → world.closer.isPublishing = false
  | _ => True

instance (world : DrainWorld) :
    (step : DrainStep) → Decidable (AsksOutsidePublication world step)
  | .run => inferInstanceAs (Decidable (_ → _))
  | .close _ => inferInstanceAs (Decidable (_ → _))
  | .wake => inferInstanceAs (Decidable True)
  | .deadline => inferInstanceAs (Decidable True)
  | .serversStopped _ => inferInstanceAs (Decidable True)
  | .callClose _ => inferInstanceAs (Decidable True)
  | .invoke => inferInstanceAs (Decidable True)
  | .finish => inferInstanceAs (Decidable True)

/-! ## The invariant -/

/-- A reason in the handler state reaches the host, and the run thread's view of
it is never ahead of the handler state. -/
structure Publication (world : DrainWorld) : Prop where
  published : world.closeReason.isSome = true →
    world.closer.isPublishing = true ∨ world.hostReason.isSome = true
  seen : world.run.asksAfterClose = true → world.closeReason.isSome = true
  interrupts : CloseInterrupts world

/-- A step of the run thread that asks nothing keeps the invariant. -/
theorem Publication.waits {before after : DrainWorld} (hpub : Publication before)
    (hreason : after.closeReason = before.closeReason)
    (hhost : after.hostReason = before.hostReason)
    (hcloser : after.closer = before.closer)
    (hqueries : after.queries = before.queries)
    (hseen : after.run.asksAfterClose = true →
      after.closeReason.isSome = true)
    (hopen : before.run ≠ .decided .interrupted) : Publication after := by
  constructor
  · rw [hreason, hhost, hcloser]
    exact hpub.published
  · exact hseen
  · intro query hquery hclosed
    rw [hqueries] at hquery
    exact absurd (hpub.interrupts query hquery hclosed).2 hopen

/-- A step outside the run thread keeps the invariant when the reason in the
handler state stays covered. -/
theorem Publication.outside {before after : DrainWorld}
    (hpub : Publication before) (hrun : after.run = before.run)
    (hqueries : after.queries = before.queries)
    (hreason : before.closeReason.isSome = true →
      after.closeReason.isSome = true)
    (hpublished : after.closeReason.isSome = true →
      after.closer.isPublishing = true ∨ after.hostReason.isSome = true) :
    Publication after := by
  constructor
  · exact hpublished
  · rw [hrun]
    exact hreason ∘ hpub.seen
  · intro query hquery hclosed
    rw [hqueries] at hquery
    rw [hrun]
    exact hpub.interrupts query hquery hclosed

theorem queryClose_publication {before : DrainWorld} {round : Round}
    {error : Error} {hostClosed : Bool} (hpub : Publication before)
    (hrun : before.run = .query round error hostClosed)
    (hguard : hostClosed = true → before.closer.isPublishing = false) :
    Publication (before.queryClose round error hostClosed) := by
  have hanswer : hostClosed = true → before.hostReason.isSome = true := by
    intro hclosed
    have hseen : before.closeReason.isSome = true := by
      apply hpub.seen
      rw [hrun]
      exact hclosed
    rcases hpub.published hseen with hpublishing | hhost
    · rw [hguard hclosed] at hpublishing
      cases hpublishing
    · exact hhost
  have hold : ∀ query ∈ before.queries, query.hostClosed = false := by
    intro query hquery
    rw [← Bool.not_eq_true]
    intro hclosed
    have hdecided := (hpub.interrupts query hquery hclosed).2
    rw [hrun] at hdecided
    cases hdecided
  have hnew : ∀ outcome, (hostClosed = true → outcome = .decided .interrupted) →
      ∀ query ∈ before.queries ++ [⟨hostClosed, before.hostReason⟩],
        query.hostClosed = true →
        query.answer.isSome = true ∧ outcome = DrainPc.decided .interrupted := by
    intro outcome houtcome query hquery hclosed
    rcases List.mem_append.mp hquery with hin | hin
    · rw [hold query hin] at hclosed
      cases hclosed
    · obtain rfl := List.mem_singleton.mp hin
      exact ⟨hanswer hclosed, houtcome hclosed⟩
  cases hhost : before.hostReason with
  | some reason =>
      cases round with
      | first =>
          simp only [DrainWorld.queryClose, hhost]
          rw [hhost] at hnew
          exact ⟨fun _ => .inr (by simp), nofun, hnew _ (fun _ => rfl)⟩
      | second =>
          simp only [DrainWorld.queryClose, hhost]
          rw [hhost] at hnew
          exact ⟨fun _ => .inr (by simp), nofun, hnew _ (fun _ => rfl)⟩
  | none =>
      have hopen : hostClosed = true → False := by
        intro hclosed
        have hsome := hanswer hclosed
        rw [hhost] at hsome
        cases hsome
      cases round with
      | first =>
          simp only [DrainWorld.queryClose, hhost]
          rw [hhost] at hnew
          exact ⟨by simpa [hhost] using hpub.published, nofun,
            hnew _ (fun hclosed => (hopen hclosed).elim)⟩
      | second =>
          simp only [DrainWorld.queryClose, hhost]
          rw [hhost] at hnew
          exact ⟨by simpa [hhost] using hpub.published, nofun,
            hnew _ (fun hclosed => (hopen hclosed).elim)⟩

theorem closeNext_publication {before after : DrainWorld} {throws : Bool}
    (hpub : Publication before)
    (hguard : AsksOutsidePublication before (.close throws))
    (hnext : before.closeNext throws = some after) : Publication after := by
  cases hcloser : before.closer with
  | idle | finished => simp [DrainWorld.closeNext, hcloser] at hnext
  | publishHandler reason =>
      simp only [DrainWorld.closeNext, hcloser] at hnext
      cases throws with
      | true =>
          obtain rfl := Option.some.inj hnext
          have hpublished := hpub.published
          rw [hcloser] at hpublished
          exact hpub.outside rfl rfl id
            (fun hreason => .inr ((hpublished hreason).resolve_left nofun))
      | false =>
          obtain rfl := Option.some.inj hnext
          exact hpub.outside rfl rfl (fun _ => rfl) (fun _ => .inl rfl)
  | notify reason =>
      cases throws with
      | true => simp [DrainWorld.closeNext, hcloser] at hnext
      | false =>
          simp only [DrainWorld.closeNext, hcloser] at hnext
          obtain rfl := Option.some.inj hnext
          exact hpub.outside rfl rfl id (fun _ => .inl rfl)
  | publishHost reason =>
      cases throws with
      | true =>
          have hoff := hguard rfl
          rw [hcloser] at hoff
          cases hoff
      | false =>
          simp only [DrainWorld.closeNext, hcloser] at hnext
          obtain rfl := Option.some.inj hnext
          exact hpub.outside rfl rfl id (fun _ => .inr rfl)
  | closeServers =>
      simp only [DrainWorld.closeNext, hcloser] at hnext
      obtain rfl := Option.some.inj hnext
      have hpublished := hpub.published
      rw [hcloser] at hpublished
      exact hpub.outside rfl rfl id
        (fun hreason => .inr ((hpublished hreason).resolve_left nofun))

theorem Publication.failWait {before : DrainWorld} (hpub : Publication before)
    (hopen : before.run ≠ .decided .interrupted) (round : Round) (error : Error) :
    Publication (before.failWait round error) :=
  hpub.waits rfl rfl rfl rfl id hopen

theorem serversStopped_publication {before after : DrainWorld}
    {result : Except Error Unit} (hpub : Publication before)
    (hnext : before.serversStopped result = some after) : Publication after := by
  cases hrun : before.run with
  | stopServers round =>
      have hopen : before.run ≠ .decided .interrupted := by simp [hrun]
      cases result with
      | error error =>
          simp only [DrainWorld.serversStopped, hrun] at hnext
          obtain rfl := Option.some.inj hnext
          exact hpub.failWait hopen round error
      | ok done =>
          simp only [DrainWorld.serversStopped, hrun] at hnext
          obtain rfl := Option.some.inj hnext
          cases round with
          | first => exact hpub.waits rfl rfl rfl rfl nofun hopen
          | second => exact hpub.waits rfl rfl rfl rfl nofun hopen
  | _ => simp [DrainWorld.serversStopped, hrun] at hnext

section

variable [Infra]

theorem Publication.afterWait {before : DrainWorld} (hpub : Publication before)
    (hopen : before.run ≠ .decided .interrupted) (round : Round) :
    Publication (before.afterWait round) := by
  unfold DrainWorld.afterWait
  split
  · split
    · exact hpub.failWait hopen round _
    · exact hpub.failWait hopen round _
  · exact hpub.waits rfl rfl rfl rfl nofun hopen

theorem wake_publication {before after : DrainWorld} (hpub : Publication before)
    (hnext : before.wake = some after) : Publication after := by
  cases hrun : before.run with
  | waiting round =>
      simp only [DrainWorld.wake, hrun] at hnext
      split at hnext
      · obtain rfl := Option.some.inj hnext
        exact hpub.afterWait (by simp [hrun]) round
      · obtain rfl := Option.some.inj hnext
        exact hpub
  | _ => simp [DrainWorld.wake, hrun] at hnext

theorem deadline_publication {before after : DrainWorld}
    (hpub : Publication before) (hnext : before.deadline = some after) :
    Publication after := by
  unfold DrainWorld.deadline at hnext
  split at hnext
  · next hrun =>
      obtain rfl := Option.some.inj hnext
      exact hpub.afterWait (by simp [hrun]) .first
  · cases hnext

theorem runNext_publication {before after : DrainWorld}
    (hpub : Publication before) (hguard : AsksOutsidePublication before .run)
    (hnext : before.runNext = some after) : Publication after := by
  cases hrun : before.run with
  | stopAccepting =>
      simp only [DrainWorld.runNext, hrun] at hnext
      obtain rfl := Option.some.inj hnext
      exact hpub.waits rfl rfl rfl rfl nofun (by simp [hrun])
  | enterWait round =>
      have hopen : before.run ≠ .decided .interrupted := by simp [hrun]
      simp only [DrainWorld.runNext, hrun] at hnext
      split at hnext
      · obtain rfl := Option.some.inj hnext
        exact hpub.failWait hopen round _
      · split at hnext
        · obtain rfl := Option.some.inj hnext
          exact hpub.afterWait hopen round
        · obtain rfl := Option.some.inj hnext
          exact hpub.waits rfl rfl rfl rfl nofun hopen
  | query round error hostClosed =>
      simp only [DrainWorld.runNext, hrun] at hnext
      obtain rfl := Option.some.inj hnext
      apply queryClose_publication hpub hrun
      intro hclosed
      apply hguard
      rw [hrun]
      exact hclosed
  | extend error =>
      simp only [DrainWorld.runNext, hrun] at hnext
      obtain rfl := Option.some.inj hnext
      exact hpub.waits rfl rfl rfl rfl nofun (by simp [hrun])
  | waiting round | stopServers round | decided outcome =>
      simp [DrainWorld.runNext, hrun] at hnext

theorem reachable_publication {world : DrainWorld}
    (hreach : drainMachine.ReachableWhere AsksOutsidePublication world) :
    Publication world := by
  refine hreach.induct ?_ ?_
  · rintro world ⟨-, hreason, -, -, hrun, hqueries⟩
    constructor
    · simp [hreason]
    · simp [hrun, DrainPc.asksAfterClose]
    · simp [CloseInterrupts, hqueries]
  · intro before step after _ hpub hguard hnext
    cases step with
    | run => exact runNext_publication hpub hguard hnext
    | wake => exact wake_publication hpub hnext
    | deadline => exact deadline_publication hpub hnext
    | serversStopped result => exact serversStopped_publication hpub hnext
    | close throws => exact closeNext_publication hpub hguard hnext
    | callClose reason =>
        simp only [drainMachine, Option.ite_none_right_eq_some,
          Option.some.injEq] at hnext
        obtain ⟨hidle, rfl⟩ := hnext
        have hpublished := hpub.published
        rw [hidle] at hpublished
        exact hpub.outside rfl rfl id
          (fun hreason => .inr ((hpublished hreason).resolve_left nofun))
    | invoke =>
        simp only [drainMachine, Option.ite_none_right_eq_some,
          Option.some.injEq] at hnext
        obtain ⟨-, rfl⟩ := hnext
        exact hpub.outside rfl rfl id hpub.published
    | finish =>
        simp only [drainMachine, Option.ite_none_left_eq_some,
          Option.some.injEq] at hnext
        obtain ⟨-, rfl⟩ := hnext
        exact hpub.outside rfl rfl id hpub.published

/-- In every run that asks outside the publication, a drain that fails on a
closed host ends as interrupted. -/
theorem close_interrupts_drain {world : DrainWorld}
    (hreach : drainMachine.ReachableWhere AsksOutsidePublication world) :
    CloseInterrupts world :=
  (reachable_publication hreach).interrupts

end

/-- A host with one handler running and no close yet. -/
def sampleDrain : DrainWorld :=
  ⟨true, 1, none, none, .idle, .stopAccepting, false, false, [], [], []⟩

def sampleReason : Error := ⟨.closed, "infra", "", "closed by owner", []⟩

/-- A close that publishes both reasons before the question is asked. -/
theorem close_interrupts_drain_sample :
    letI := permissiveInfra
    ∃ world, world.run = .decided .interrupted ∧ world.queries ≠ [] ∧
      CloseInterrupts world := by
  let _ := permissiveInfra
  have hreach : drainMachine.ReachableWhere AsksOutsidePublication sampleDrain :=
    .start ⟨rfl, rfl, rfl, rfl, rfl, rfl⟩
  obtain ⟨world, hworld, hstate⟩ := hreach.exec_any
    (fun world step => decide (AsksOutsidePublication world step))
    (fun _ _ => of_decide_eq_true)
    [.run, .run, .callClose sampleReason, .close false, .wake, .close false,
      .close false, .run]
    (fun world => world.run = .decided .interrupted ∧
      world.queries = [⟨true, some sampleReason⟩]) (by decide)
  obtain ⟨hrun, hqueries⟩ := of_decide_eq_true hstate
  exact ⟨world, hrun, by simp [hqueries], close_interrupts_drain hworld⟩

/-- Both rounds of wait and question fit between the two publications: the run
thread parks although the host was closed. -/
theorem closed_host_undrained :
    letI := permissiveInfra
    ∃ world, drainMachine.Reachable world ∧ ¬ CloseInterrupts world ∧
      world.closeReason = some sampleReason ∧
      world.run = .decided .undrained := by
  let _ := permissiveInfra
  have hreach : drainMachine.Reachable sampleDrain :=
    .start ⟨rfl, rfl, rfl, rfl, rfl, rfl⟩
  obtain ⟨world, hworld, hstate⟩ := hreach.exec_any
    (fun _ _ => true) (fun _ _ _ => trivial)
    [.run, .run, .callClose sampleReason, .close false, .wake, .run, .run, .run,
      .run]
    (fun world => world.run = .decided .undrained ∧
      world.closeReason = some sampleReason ∧
      world.queries = [⟨true, none⟩, ⟨true, none⟩]) (by decide)
  obtain ⟨hrun, hreason, hqueries⟩ := of_decide_eq_true hstate
  refine ⟨world, hworld, fun hinterrupts => ?_, hreason, hrun⟩
  have hasked := hinterrupts ⟨true, none⟩ (by simp [hqueries]) rfl
  cases hasked.1

end BbtFramework.Host
