import BbtFramework.Host.MonitorReports

/-!
# Runs and their monitors

One application runs at a time, and each at most once; its lifecycle is never looked at after
its end.  What the monitors have told is true of everything they tell later.
-/

namespace BbtFramework.Host

open BbtFramework.Library

section

variable [Infra] {apps : Nat → CoApp} {guard : ProcessPool → ProcessStep → Prop}
variable {pool last : ProcessPool}

/-- An application with nothing in it. -/
def bareApp : CoApp where
  options := ⟨.ok (), "127.0.0.1", [], 10, .legacyHeaders⟩
  build := ⟨false, false⟩
  hasHost := true
  resourceSpecs := []

/-- A thread goes on. -/
def onward (thread : Nat) (steps : Nat) : List ProcessStep :=
  List.replicate steps (.step thread (.returned exitOk))

/-- A step whose choice is a normal return. -/
def stepReturns : ProcessStep → Bool
  | .step _ (.returned _) => true
  | .step _ _ => false
  | _ => true

omit [Infra] in
theorem runReturns_of_stepReturns {pool : ProcessPool} {label : ProcessStep}
    (hreturns : stepReturns label = true) : RunReturns pool label := by
  cases label with
  | step thread ended =>
      intro life _
      cases ended with
      | returned code => exact ⟨code, rfl⟩
      | _ => cases hreturns
  | _ => trivial

/-- The lifecycle of the first thread is published and at work. -/
def untilRunning : List ProcessStep :=
  .spawn (.run 0) :: onward 0 7 ++ [.env (0, .setPhase .starting), .env (0, .setPhase .running)]

/-- The run of the first thread from then on to its end, once a shutdown is asked for. -/
def untilReturned : List ProcessStep :=
  [.env (0, .setPhase .closing), .env (0, .addFailure "late"), .env (0, .setPhase .failed)] ++
    onward 0 8

/-- One lifecycle is alive at a time, and it is the one of the active application. -/
theorem one_lifecycle_alive (hreach : (processSystem apps).machine.Reachable pool)
    {left right : Nat} {first second : RunObject}
    (hfirst : pool.shared.lifecycleAt left = some first)
    (hsecond : pool.shared.lifecycleAt right = some second)
    (hleft : first.alive = true) (hright : second.alive = true) :
    left = right ∧ pool.shared.active = some first.app := by
  have hsound := ProcessWorld.sound_of_reachable hreach
  obtain ⟨thread, hlife⟩ := hsound.living left first hfirst hleft
  obtain ⟨app, happ, object, hhas⟩ := hsound.stands_life hlife
  have hslot := RunnerStage.slot_of_app happ
  constructor
  · have hother := hsound.alive_life hslot hsecond hright
    exact Option.some.inj (hlife.symm.trans hother)
  · cases Option.some.inj (hhas.found.symm.trans hfirst)
    rw [hhas.app]
    exact hsound.claims thread app happ

omit [Infra] in
/-- The lifecycle of a second application, after that of the first. -/
theorem one_lifecycle_alive_second :
    letI := permissiveInfra
    ∃ pool object, (processSystem (fun _ => bareApp)).machine.Reachable pool ∧
      pool.shared.lifecycleAt 1 = some object ∧ object.alive = true ∧
      pool.shared.active = some object.app := by
  let _ := permissiveInfra
  have hboot : (processSystem (fun _ => bareApp)).machine.Reachable
      ((processSystem (fun _ => bareApp)).boot .fresh) := .start ⟨.fresh, rfl, rfl⟩
  obtain ⟨pool, hreach, htest⟩ := hboot.exec_any (fun _ _ => true) (fun _ _ _ => trivial)
    (untilRunning ++ .spawn (.requestShutdown 0) :: onward 1 1 ++ untilReturned ++
      .spawn (.run 1) :: onward 2 4)
    (fun pool => (pool.shared.lifecycleAt 1).any (fun object => object.alive)) (by decide)
  obtain ⟨object, hfound, halive⟩ := (Option.any_eq_true _ _).mp htest
  exact ⟨pool, object, hreach, hfound, halive,
    (one_lifecycle_alive hreach hfound hfound halive halive).2⟩

/-- Two calls of `run` on one application that were not rejected are the same call. -/
theorem runs_once (hreach : (processSystem apps).machine.Reachable pool) {left right app : Nat}
    {first second : CallEnd Nat}
    (hleft : (pool.threads left).returned = some (.ran app first))
    (hright : (pool.threads right).returned = some (.ran app second))
    (hfirst : first ≠ .returned exitRejected) (hsecond : second ≠ .returned exitRejected) :
    left = right := by
  have hsys := processes_disciplined apps
  exact (ProcessWorld.sound_of_reachable hreach).makers.alone left right app
    ((hsys.returned hreach hleft).owned app first rfl hfirst)
    ((hsys.returned hreach hright).owned app second rfl hsecond)

omit [Infra] in
/-- The first `run` ends, and a second one is rejected. -/
theorem runs_once_second :
    letI := permissiveInfra
    ∃ pool, (processSystem (fun _ => bareApp)).machine.Reachable pool ∧
      (pool.threads 0).returned = some (.ran 0 (.returned exitShutdownFailed)) ∧
      (pool.threads 2).returned = some (.ran 0 (.returned exitRejected)) ∧
      ∀ thread ended, (pool.threads thread).returned = some (.ran 0 ended) →
        ended ≠ .returned exitRejected → thread = 0 := by
  let _ := permissiveInfra
  have hboot : (processSystem (fun _ => bareApp)).machine.Reachable
      ((processSystem (fun _ => bareApp)).boot .fresh) := .start ⟨.fresh, rfl, rfl⟩
  obtain ⟨pool, hreach, htest⟩ := hboot.exec_any (fun _ _ => true) (fun _ _ _ => trivial)
    (untilRunning ++ .spawn (.requestShutdown 0) :: onward 1 1 ++
      [.env (0, .setPhase .closing), .env (0, .setPhase .closed),
        .step 0 (.returned exitShutdownFailed)] ++ onward 0 7 ++ .spawn (.run 0) :: onward 2 3)
    (fun pool =>
      (pool.threads 0).returned = some (.ran 0 (.returned exitShutdownFailed)) ∧
        (pool.threads 2).returned = some (.ran 0 (.returned exitRejected))) (by decide)
  obtain ⟨hfirst, hsecond⟩ := of_decide_eq_true htest
  refine ⟨pool, hreach, hfirst, hsecond, ?_⟩
  intro thread ended hreturned hnot
  exact runs_once hreach hreturned hfirst hnot (by decide)

/-- No thread uses a lifecycle after its end. -/
theorem lifecycle_alive_when_used (hreach : (processSystem apps).machine.Reachable pool)
    {thread life : Nat} {act : ProcessAct} (hasks : (pool.threads thread).asks = some act)
    (hobject : act.object = some life) :
    ∃ object, pool.shared.lifecycleAt life = some object ∧ object.alive = true := by
  have hsound := ProcessWorld.sound_of_reachable hreach
  have hallowed : (pool.views thread).allows act :=
    (processes_disciplined apps).allowed hreach hasks
  have hmine : (pool.views thread).stage.life = some life →
      ∃ object, pool.shared.lifecycleAt life = some object ∧ object.alive = true := by
    intro hlife
    obtain ⟨app, -, object, hhas⟩ := hsound.stands_life hlife
    exact ⟨object, hhas.found, hhas.alive⟩
  have hseen : (pool.views thread).Sees life →
      ∃ object, pool.shared.lifecycleAt life = some object ∧ object.alive = true := by
    rintro ⟨app, hheld, hread⟩
    obtain ⟨other, phase, hstage⟩ :=
      hsound.published app life (hsound.seen thread app (some life) hheld hread)
    have hlife : (pool.views other).stage.life = some life := by
      rw [hstage]
      rfl
    obtain ⟨owner, -, object, hhas⟩ := hsound.stands_life hlife
    exact ⟨object, hhas.found, hhas.alive⟩
  cases act with
  | enterRun other =>
      cases hobject
      obtain ⟨app, hstage⟩ := hallowed
      exact hmine (congrArg RunnerStage.life hstage)
  | leaveRun other =>
      cases hobject
      obtain ⟨app, hstage⟩ := hallowed
      exact hmine (congrArg RunnerStage.life hstage)
  | collectFailures app other =>
      cases hobject
      exact hmine (congrArg RunnerStage.life hallowed)
  | park app other =>
      cases hobject
      exact hmine (congrArg RunnerStage.life hallowed)
  | destroy other =>
      cases hobject
      obtain ⟨app, hstage⟩ := hallowed
      exact hmine (congrArg RunnerStage.life hstage)
  | requestShutdown other =>
      cases hobject
      exact hseen hallowed
  | state other =>
      cases hobject
      exact hseen hallowed
  | incompleteSteps other =>
      cases hobject
      exact hseen hallowed
  | failures other =>
      cases hobject
      exact hseen hallowed
  | _ => cases hobject

omit [Infra] in
/-- A monitor between the pointer and the object, while the run waits to hide it. -/
theorem lifecycle_alive_when_used_state :
    letI := permissiveInfra
    ∃ pool object, (processSystem (fun _ => bareApp)).machine.Reachable pool ∧
      (pool.threads 1).asks = some (.state 0) ∧
      pool.shared.lifecycleAt 0 = some object ∧ object.alive = true := by
  let _ := permissiveInfra
  have hboot : (processSystem (fun _ => bareApp)).machine.Reachable
      ((processSystem (fun _ => bareApp)).boot .fresh) := .start ⟨.fresh, rfl, rfl⟩
  obtain ⟨pool, hreach, htest⟩ := hboot.exec_any (fun _ _ => true) (fun _ _ _ => trivial)
    (untilRunning ++ .spawn (.shutdownState 0) :: onward 1 2)
    (fun pool => (pool.threads 1).asks = some (.state 0)) (by decide)
  have hasks := of_decide_eq_true htest
  obtain ⟨object, hfound, halive⟩ := lifecycle_alive_when_used hreach hasks rfl
  exact ⟨pool, object, hreach, hasks, hfound, halive⟩

/-- After a `run` that was not rejected has returned, or `shutdown_state` has given
`Closed`, every later `shutdown_state` of the application gives `Closed`. -/
theorem closed_is_final (hreach : (processSystem apps).machine.Reachable pool)
    {first second app : Nat} {result : ProcessResult} {reported : ShutdownState}
    {steps : List ProcessStep}
    (hreturned : (pool.threads first).returned = some result)
    (hcloses : result = .state app .closed ∨
      ∃ code, result = .ran app (.returned code) ∧ code ≠ exitRejected)
    (hrun : (processSystem apps).machine.Run (fun _ _ => True) pool steps last)
    (hnew : pool.count ≤ second)
    (hlater : (last.threads second).returned = some (.state app reported)) :
    reported = .closed := by
  have htells : result.tells = some (.state app .closed) := by
    rcases hcloses with rfl | ⟨code, rfl, hcode⟩
    · rfl
    · exact if_neg hcode
  have hfirst : (stateReading app).told (pool.views first) = some .closed :=
    stateReading_told (told_of_returned hreach hreturned htells)
  have hsecond : (stateReading app).told (last.views second) = some reported :=
    stateReading_told (told_of_returned (hreach.run hrun) hlater rfl)
  exact (stateReading_kept app).never_back (processes_disciplined apps) hreach hrun hfirst hnew
    hsecond rfl

omit [Infra] in
/-- The monitor starts after the run. -/
theorem closed_is_final_returned :
    letI := permissiveInfra
    ∃ pool last steps, (processSystem (fun _ => bareApp)).machine.Reachable pool ∧
      (pool.threads 0).returned = some (.ran 0 (.returned exitOk)) ∧
      (processSystem (fun _ => bareApp)).machine.Run (fun _ _ => True) pool steps last ∧
      (last.threads 2).returned = some (.state 0 .closed) := by
  let _ := permissiveInfra
  have hboot : (processSystem (fun _ => bareApp)).machine.Reachable
      ((processSystem (fun _ => bareApp)).boot .fresh) := .start ⟨.fresh, rfl, rfl⟩
  obtain ⟨pool, last, hreach, hrun, htest⟩ := hboot.exec_both (fun _ _ => true)
    (fun _ _ _ => trivial)
    (untilRunning ++ .spawn (.requestShutdown 0) :: onward 1 1 ++ untilReturned)
    (.spawn (.shutdownState 0) :: onward 2 4)
    (fun pool last => pool.count = 2 ∧
      (pool.threads 0).returned = some (.ran 0 (.returned exitOk)) ∧
      ∃ reported ∈ [ShutdownState.running, .closing, .shutdownIncomplete, .closed],
        (last.threads 2).returned = some (.state 0 reported)) (by decide)
  obtain ⟨hcount, hreturned, reported, -, hlater⟩ := of_decide_eq_true htest
  cases closed_is_final hreach hreturned (Or.inr ⟨exitOk, rfl, by decide⟩) hrun
    (Nat.le_of_eq hcount) hlater
  exact ⟨pool, last, _, hreach, hreturned, hrun, hlater⟩

/-- What `lifecycle_failures` has given is at the head of what it gives later, as long as no
exception leaves `Run`. -/
theorem failures_never_lost
    (hreach : (processSystem apps).machine.ReachableWhere RunReturns pool)
    {first second app : Nat} {reported more : List String} {steps : List ProcessStep}
    (hreturned : (pool.threads first).returned = some (.failures app reported))
    (hrun : (processSystem apps).machine.Run RunReturns pool steps last)
    (hnew : pool.count ≤ second)
    (hlater : (last.threads second).returned = some (.failures app more)) : reported <+: more := by
  have hfirst : (failuresReading app).told (pool.views first) = some reported :=
    failuresReading_told (told_of_returned hreach hreturned rfl)
  have hsecond : (failuresReading app).told (last.views second) = some more :=
    failuresReading_told (told_of_returned (hreach.run hrun) hlater rfl)
  exact (failuresReading_kept app).never_back (processes_disciplined apps) hreach hrun hfirst hnew
    hsecond

omit [Infra] in
/-- One failure is read from the lifecycle at work, two after its end. -/
theorem failures_never_lost_two :
    letI := permissiveInfra
    ∃ pool last steps more, (processSystem (fun _ => bareApp)).machine.ReachableWhere RunReturns
        pool ∧
      (pool.threads 1).returned = some (.failures 0 ["first"]) ∧
      (processSystem (fun _ => bareApp)).machine.Run RunReturns pool steps last ∧
      (last.threads 3).returned = some (.failures 0 more) ∧ more.length = 2 ∧
      ["first"] <+: more := by
  let _ := permissiveInfra
  have hboot : (processSystem (fun _ => bareApp)).machine.ReachableWhere RunReturns
      ((processSystem (fun _ => bareApp)).boot .fresh) := .start ⟨.fresh, rfl, rfl⟩
  obtain ⟨pool, last, hreach, hrun, htest⟩ := hboot.exec_both
    (fun _ label => stepReturns label) (fun _ _ => runReturns_of_stepReturns)
    (untilRunning ++ [.env (0, .addFailure "first")] ++ .spawn (.lifecycleFailures 0) ::
      onward 1 4)
    (.spawn (.requestShutdown 0) :: onward 2 1 ++ untilReturned ++
      .spawn (.lifecycleFailures 0) :: onward 3 4)
    (fun pool last => pool.count = 2 ∧
      (pool.threads 1).returned = some (.failures 0 ["first"]) ∧
      ∃ more ∈ [["first", "late"]], (last.threads 3).returned = some (.failures 0 more)) (by decide)
  obtain ⟨hcount, hreturned, more, hmore, hlater⟩ := of_decide_eq_true htest
  refine ⟨pool, last, _, more, hreach, hreturned, hrun, hlater, ?_, ?_⟩
  · rw [List.mem_singleton.mp hmore]
    rfl
  · exact failures_never_lost hreach hreturned hrun (by omega) hlater

end

end BbtFramework.Host
