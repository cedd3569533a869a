import BbtFramework.App.StopLog

/-!
# The order of a stop

A stop reverses the start order, so that the users come first, and splits it by scope:
where no App-scope component depends on a scoped one, the users still come first.
-/

namespace BbtFramework.App

open BbtFramework.Library

def Action.takesStopLists : Action → Bool
  | .query .stopLists => true
  | _ => false

theorem Action.eq_stopLists {act : Action} (htakes : act.takesStopLists = true) :
    act = .query .stopLists := by
  cases act with
  | query query =>
      cases query with
      | stopLists => rfl
      | _ => cases htakes
  | command command => cases htakes

def Action.takesHook : Action → Bool
  | .command (.takeHook _ _) => true
  | _ => false

section

variable [Infra]

/-- A stop takes its lists where the scopes descend, and goes on to the next
`OnStop` when the scheduler holds none of its earlier ones back. -/
def StopsInOrder (pool : StagedPool) (label : AppStep) : Prop :=
  ∀ act ∈ pool.asked label,
    (act.takesStopLists = true → pool.shared.registry.ScopesDescend) ∧
    (act.takesHook = true → ∀ thread ∈ label.actor,
      ∀ step ∈ (pool.views thread).log, ∀ task ∈ step.task?,
        pool.shared.queued task = false)

instance (pool : StagedPool) (label : AppStep) : Decidable (StopsInOrder pool label) :=
  inferInstanceAs (Decidable (∀ act ∈ _, (_ → _) ∧ (_ → _)))

end

/-- A stop on its course, none of whose earlier `OnStop` is still queued. -/
structure Attended (order : List ObjectId) (world : AppWorld) (progress : Progress) :
    Prop where
  course : OnCourse order progress
  known : ∀ id task, .onStop id task ∈ progress.log → ∃ found, world.tasks[task]? = some found
  begun : ∀ id task other later,
    [StopStep.onStop id task, .onStop other later].Sublist progress.log →
      world.queued task = false

theorem queued_advance {world last : AppWorld} {task : Nat} {found : HookTask}
    (hadvance : TasksAdvance world.tasks last.tasks) (hfind : world.tasks[task]? = some found)
    (hqueued : world.queued task = false) : last.queued task = false := by
  obtain ⟨later, hlater, hkeep⟩ := hadvance task found hfind
  rw [AppWorld.queued, hfind] at hqueued
  rw [AppWorld.queued, hlater]
  exact hkeep hqueued

/-- What a step appends to the log of its thread. -/
theorem log_after (act : Action) (answer : act.Answer) (progress : Progress) :
    (Progress.after act answer progress).log = progress.log ∨
      (∃ id begun, (Progress.after act answer progress).log =
        progress.log ++ [.turn id begun]) ∨
      ∃ id task, act = .command (.takeHook id .onStop) ∧ HEq answer (some task) ∧
        (Progress.after act answer progress).log = progress.log ++ [.onStop id task] := by
  obtain ⟨lifecycle, stage, log, failed⟩ := progress
  have hturn : ∀ id begun,
      (Progress.turn ⟨lifecycle, stage, log, failed⟩ id begun).log = log ∨
        (Progress.turn ⟨lifecycle, stage, log, failed⟩ id begun).log =
          log ++ [.turn id begun] := by
    intro id begun
    unfold Progress.turn
    split
    · exact Or.inr rfl
    · exact Or.inl rfl
  cases act with
  | query query =>
      left
      cases query with
      | loadState =>
          cases stage with
          | idle => cases lifecycle <;> rfl
          | _ => rfl
      | pendingCleanup => cases stage <;> rfl
      | _ => rfl
  | command command =>
      cases command with
      | exchangeLifecycle =>
          change Bool at answer
          cases answer <;> exact Or.inl rfl
      | createComponent key =>
          change Except Error ObjectId at answer
          cases answer <;> exact Or.inl rfl
      | createService name allowed =>
          change Except Error ObjectHandle at answer
          cases answer <;> exact Or.inl rfl
      | setState id state =>
          left
          change (Progress.afterState state ⟨lifecycle, stage, log, failed⟩).log = log
          unfold Progress.afterState
          repeat' split
          all_goals rfl
      | beginStopService id =>
          exact (hturn id answer).imp_right (fun h => Or.inl ⟨id, answer, h⟩)
      | beginStopComponent id =>
          exact (hturn id answer).imp_right (fun h => Or.inl ⟨id, answer, h⟩)
      | finishDestroy id =>
          by_cases hactor : id.kind = .actor
          · have heq : Progress.after (.command (.finishDestroy id)) answer
                ⟨lifecycle, stage, log, failed⟩ =
                  Progress.turn ⟨lifecycle, stage, log, failed⟩ id true := if_pos hactor
            rw [heq]
            exact (hturn id true).imp_right (fun h => Or.inl ⟨id, true, h⟩)
          · exact Or.inl (congrArg Progress.log (if_neg hactor))
      | takeHook id hook =>
          change Option Nat at answer
          cases stage with
          | stopping pending clean =>
              cases answer with
              | none => exact Or.inl rfl
              | some task =>
                  cases hook with
                  | onStop => exact Or.inr (Or.inr ⟨id, task, rfl, .rfl, rfl⟩)
                  | _ => exact Or.inl rfl
          | _ => exact Or.inl rfl
      | _ => exact Or.inl rfl

namespace Attended

variable {order : List ObjectId} {world last : AppWorld} {progress : Progress}

/-- The steps of the others. -/
theorem advance (hattended : Attended order world progress)
    (hadvance : TasksAdvance world.tasks last.tasks) : Attended order last progress := by
  refine ⟨hattended.course, ?_, ?_⟩
  · intro id task hmem
    obtain ⟨found, hfind⟩ := hattended.known id task hmem
    obtain ⟨later, hlater, -⟩ := hadvance task found hfind
    exact ⟨later, hlater⟩
  · intro id task other later hpair
    obtain ⟨found, hfind⟩ := hattended.known id task (hpair.subset (by simp))
    exact queued_advance hadvance hfind (hattended.begun id task other later hpair)

theorem pair_of_concat {α : Type} {first second new : α} {items : List α}
    (hpair : [first, second].Sublist (items ++ [new])) :
    [first, second].Sublist items ∨ (second = new ∧ first ∈ items) := by
  obtain ⟨early, late, hsplit, hearly, hlate⟩ := List.sublist_append_iff.mp hpair
  rcases List.eq_nil_or_concat late with rfl | ⟨before, last, rfl⟩
  · rw [List.append_nil] at hsplit
    rw [hsplit]
    exact Or.inl hearly
  · rw [List.concat_eq_append] at hsplit hlate
    have hlast : last = new := List.mem_singleton.mp (hlate.subset (by simp))
    obtain rfl : before = [] := by
      have hlength := hlate.length_le
      simp at hlength
      exact hlength
    obtain ⟨hfirst, hsecond⟩ := List.append_inj' (show [first] ++ [second] = _ from hsplit) rfl
    refine Or.inr ⟨?_, ?_⟩
    · exact (List.head_eq_of_cons_eq hsecond).trans hlast
    · exact hearly.subset (by rw [← hfirst]; exact List.mem_singleton_self first)

variable [Infra]

theorem step {pool : StagedPool} {thread : Nat} {choice : Choice} {act : Action}
    {answer : act.Answer} (horder : order ≠ [])
    (hacts : stagedSystem.Acts StopsInOrder pool thread choice act answer last)
    (hattended : Attended order pool.shared (pool.views thread)) :
    Attended order last (Progress.after act answer (pool.views thread)) := by
  have hcourse : OnCourse order (Progress.after act answer (pool.views thread)) :=
    hattended.course.after horder hacts.allowed
  have hadvance : TasksAdvance pool.shared.tasks last.tasks := by
    cases act with
    | query query =>
        obtain ⟨-, rfl⟩ := AppWorld.perform_query hacts.performed
        exact .refl _
    | command command => exact (apply_taskMove (AppWorld.perform_command hacts.performed)).advance
  have hlater := hattended.advance hadvance
  obtain hlog | ⟨id, begun, hlog⟩ | ⟨id, task, rfl, hanswer, hlog⟩ :=
    log_after act answer (pool.views thread)
  · refine ⟨hcourse, ?_, ?_⟩
    · rw [hlog]
      exact hlater.known
    · rw [hlog]
      exact hlater.begun
  · refine ⟨hcourse, ?_, ?_⟩
    · intro other task hmem
      rw [hlog] at hmem
      rcases List.mem_append.mp hmem with hmem | hmem
      · exact hlater.known other task hmem
      · cases List.mem_singleton.mp hmem
    · intro other task third later hpair
      rw [hlog] at hpair
      obtain hpair | ⟨⟨⟩, -⟩ := pair_of_concat hpair
      exact hlater.begun other task third later hpair
  · -- The guard has seen the earlier tasks of this stop leave the queue.
    obtain rfl := eq_of_heq hanswer
    have hasked : pool.asked (.step thread choice : AppStep) =
        some (.command (.takeHook id .onStop)) := by
      obtain ⟨rest, hrest⟩ := hacts.asked
      rw [Pool.asked, hrest, Program.asks]
    have hfree := (hacts.guarded _ hasked).2 rfl thread rfl
    have happly := Option.some.inj (AppWorld.perform_command hacts.performed)
    refine ⟨hcourse, ?_, ?_⟩
    · intro other number hmem
      rw [hlog] at hmem
      rcases List.mem_append.mp hmem with hmem | hmem
      · exact hlater.known other number hmem
      · cases List.mem_singleton.mp hmem
        cases hfind : pool.shared.registry.findEntryLocked id with
        | none =>
            rw [AppWorld.takeHook, hfind] at happly
            cases happly
        | some entry =>
            rw [AppWorld.takeHook, hfind] at happly
            cases happly
            exact ⟨_, List.getElem?_concat_length⟩
    · intro other number third later hpair
      rw [hlog] at hpair
      obtain hpair | ⟨-, hmem⟩ := pair_of_concat hpair
      · exact hlater.begun other number third later hpair
      · obtain ⟨found, hfind⟩ := hattended.known other number hmem
        exact queued_advance hadvance hfind (hfree _ hmem number rfl)

end Attended

section

variable [Infra] {pool later : StagedPool} {thread : Nat} {labels : List AppStep}
variable {order : List ObjectId}

theorem attended_of_run (hreach : stagedSystem.machine.ReachableWhere StopsInOrder pool)
    (horder : order ≠ []) (hattended : Attended order pool.shared (pool.views thread))
    (hrun : stagedSystem.machine.Run StopsInOrder pool labels later) :
    Attended order later.shared (later.views thread) := by
  induction hrun with
  | refl => exact hattended
  | tail hprefix hguard hnext ih =>
      obtain heq | ⟨choice, act, answer, hacts, heq⟩ :=
        stagedSystem_disciplined.view_step (hreach.run hprefix) hguard hnext thread
      · rw [heq]
        exact ih.advance ((next_taskMove hnext).advance)
      · rw [heq]
        exact ih.step horder hacts

/-- A stop that takes its lists is on its course. -/
theorem attended_stopLists {choice : Choice} {middle : StagedPool}
    (hreach : stagedSystem.machine.ReachableWhere StopsInOrder pool)
    (hasked : pool.asked (.step thread choice : AppStep) = some (.query .stopLists))
    (hnext : stagedSystem.next pool (.step thread choice) = some middle) :
    Attended pool.shared.stopLists.order middle.shared (middle.views thread) := by
  obtain ⟨-, act, rest, answer, last, hthread, hperform, rfl⟩ := System.next_step hnext
  obtain rfl : act = .query .stopLists := by
    rw [Pool.asked, hthread] at hasked
    exact Option.some.inj hasked
  obtain ⟨hanswer, rfl⟩ := AppWorld.perform_query hperform
  cases hanswer
  have hfollows := stagedSystem_disciplined.follows hreach thread
  rw [hthread] at hfollows
  obtain ⟨-, hlog⟩ : (pool.views thread).stage = .knows .stopping ∧
      (pool.views thread).log = [] := hfollows.1
  dsimp only
  rw [Function.update_self]
  have hempty : (stagedSystem.discipline.after (.query .stopLists) pool.shared.stopLists
      (pool.views thread)).log = [] := hlog
  refine ⟨⟨?_, ?_⟩, ?_, ?_⟩
  · rw [hempty]
    exact .start
  · rw [hempty]
    exact ⟨_, List.nil_append _, Or.inl ⟨false, rfl⟩⟩
  · rw [hempty]
    intro id task hmem
    cases hmem
  · rw [hempty]
    intro id task other later hpair
    cases hpair

/-- What a stop does with two components, one of which depends on the other: the turn
of the user comes first, and its `OnStop` has left the queue before that of the other
is handed over. -/
structure UserFirst (world : AppWorld) (log : List StopStep) (user used : ObjectId) :
    Prop where
  turn : used ∈ turns log → [user, used].Sublist (turns log)
  onStop : ∀ task later, .onStop user task ∈ log → .onStop used later ∈ log →
    [StopStep.onStop user task, .onStop used later].Sublist log ∧
      world.queued task = false

/-- The users of a component are stopped before it. -/
theorem users_stop_first {choice : Choice} {user used : ObjectId}
    (hreach : stagedSystem.machine.ReachableWhere StopsInOrder pool)
    (hasked : pool.asked (.step thread choice : AppStep) = some (.query .stopLists))
    (hrun : stagedSystem.machine.Run StopsInOrder pool
      (.step thread choice :: labels) later)
    (huser : user ∈ pool.shared.registry.listIdsByKindLocked .component)
    (hdepends : used ∈ pool.shared.registry.dependencies user) :
    UserFirst later.shared (later.views thread).log user used := by
  obtain ⟨middle, hguard, hnext, hrest⟩ := hrun.uncons
  have hscopes := (hguard _ hasked).1 rfl
  have hpair : [user, used].Sublist pool.shared.stopLists.order :=
    (stopComponents_sublist (dependencies_acyclic hreach) hscopes huser hdepends).trans
      (components_sublist _)
  have horder : pool.shared.stopLists.order ≠ [] :=
    List.ne_nil_of_mem (hpair.subset List.mem_cons_self)
  have hattended := attended_of_run (hreach.step hguard hnext) horder
    (attended_stopLists hreach hasked hnext) hrest
  obtain ⟨pending, hturns, -⟩ := hattended.course.turned
  have hnodup : (turns (later.views thread).log ++ pending).Nodup := by
    rw [hturns]
    exact nodup_stopLists
  have hturn : used ∈ turns (later.views thread).log →
      [user, used].Sublist (turns (later.views thread).log) :=
    sublist_of_prefix hnodup (by rwa [hturns])
  refine ⟨hturn, ?_⟩
  intro task number huserStop husedStop
  have hsublist := hattended.course.served.onStops_sublist
  have hused : used ∈ turns (later.views thread).log :=
    hsublist.subset (List.mem_filterMap.mpr ⟨_, husedStop, rfl⟩)
  have hbefore := idxOf_lt_of_sublist (List.Nodup.of_append_left hnodup) (hturn hused)
  have hne : StopStep.onStop user task ≠ .onStop used number := by
    rintro ⟨⟩
    exact Nat.lt_irrefl _ hbefore
  obtain hfirst | hback := sublist_or_sublist hne huserStop husedStop
  · exact ⟨hfirst, hattended.begun _ _ _ _ hfirst⟩
  · have hstops : [used, user].Sublist (turns (later.views thread).log) :=
      (hback.filterMap StopStep.onStop?).trans hsublist
    exact absurd (idxOf_lt_of_sublist (List.Nodup.of_append_left hnodup) hstops)
      (Nat.lt_asymm hbefore)

end

/-- A component of the application is bound to another one, and a stop begins. -/
def boundStop : List AppStep :=
  [.spawn (.coInstallComponent "A" "a" ⟨.app, none⟩),
    .spawn (.coInstallComponent "B" "b" ⟨.app, none⟩),
    .spawn (.coBindComponent "B" ⟨true, ⟨.component, 1⟩, 2⟩ "b" ⟨.app, none⟩),
    .spawn .coStop] ++
    List.replicate 8 (smoothStep 0) ++ List.replicate 8 (smoothStep 1) ++
    List.replicate 2 (smoothStep 2) ++ List.replicate 3 (smoothStep 3)

/-- Both are stopped, the user first. -/
theorem users_stop_first_bound :
    letI := permissiveInfra
    ∃ later : StagedPool,
      .onStop ⟨.component, 2⟩ 1 ∈ (later.views 3).log ∧
        UserFirst later.shared (later.views 3).log ⟨.component, 1⟩ ⟨.component, 2⟩ := by
  let _ := permissiveInfra
  have hboot : stagedSystem.machine.ReachableWhere StopsInOrder
      (stagedSystem.boot (AppWorld.fresh (.ok ()) 10 10)) :=
    .start ⟨_, start_fresh 10 10 (by decide), rfl⟩
  obtain ⟨pool, later, hreach, hrun, htest⟩ := hboot.exec_both
    (fun pool label => decide (StopsInOrder pool label))
    (fun _ _ => of_decide_eq_true) boundStop
    (smoothStep 3 :: (List.replicate 4 (smoothStep 3) ++ hookSteps 3 0 ++
      List.replicate 8 (smoothStep 3)))
    (fun pool later => (pool.asked (smoothStep 3)).any Action.takesStopLists ∧
      ⟨.component, 1⟩ ∈ pool.shared.registry.listIdsByKindLocked .component ∧
      ⟨.component, 2⟩ ∈ pool.shared.registry.dependencies ⟨.component, 1⟩ ∧
      .onStop ⟨.component, 2⟩ 1 ∈ (later.views 3).log)
    (by decide)
  obtain ⟨hasks, huser, hdepends, hlog⟩ := of_decide_eq_true htest
  have hasked : pool.asked (smoothStep 3) = some (.query .stopLists) := by
    obtain ⟨act, hact, htakes⟩ := (Option.any_eq_true _ _).mp hasks
    rw [hact]
    exact congrArg some (Action.eq_stopLists htakes)
  exact ⟨later, hlog, users_stop_first hreach hasked hrun huser hdepends⟩

/-- A component of the application depends on one in the scope of a service, and
the stop comes to the latter first. -/
theorem users_not_first :
    letI := permissiveInfra
    ¬∀ (pool later : StagedPool) thread choice labels user used,
      stagedSystem.machine.Reachable pool →
      pool.asked (.step thread choice : AppStep) = some (.query .stopLists) →
      stagedSystem.machine.Run (fun _ _ => True) pool (.step thread choice :: labels) later →
      user ∈ pool.shared.registry.listIdsByKindLocked .component →
      used ∈ pool.shared.registry.dependencies user →
        UserFirst later.shared (later.views thread).log user used := by
  let _ := permissiveInfra
  intro hclaim
  have hboot : stagedSystem.machine.Reachable
      (stagedSystem.boot (AppWorld.fresh (.ok ()) 10 10)) :=
    .start ⟨_, start_fresh 10 10 (by decide), rfl⟩
  obtain ⟨pool, later, hreach, hrun, htest⟩ := hboot.exec_both
    (fun _ _ => true) (fun _ _ _ => trivial)
    (scopedBind ⟨true, ⟨.component, 2⟩, 3⟩ ++ [.spawn .coStop] ++
      List.replicate 3 (smoothStep 4))
    (smoothStep 4 :: (List.replicate 4 (smoothStep 4) ++ hookSteps 4 0 ++
      List.replicate 6 (smoothStep 4)))
    (fun pool later => (pool.asked (smoothStep 4)).any Action.takesStopLists ∧
      ⟨.component, 2⟩ ∈ pool.shared.registry.listIdsByKindLocked .component ∧
      ⟨.component, 3⟩ ∈ pool.shared.registry.dependencies ⟨.component, 2⟩ ∧
      turns (later.views 4).log = [⟨.service, 1⟩, ⟨.component, 3⟩])
    (by decide)
  obtain ⟨hasks, huser, hdepends, hlog⟩ := of_decide_eq_true htest
  have hasked : pool.asked (smoothStep 4) = some (.query .stopLists) := by
    obtain ⟨act, hact, htakes⟩ := (Option.any_eq_true _ _).mp hasks
    rw [hact]
    exact congrArg some (Action.eq_stopLists htakes)
  have hfirst := (hclaim pool later 4 _ _ _ _ hreach hasked hrun huser hdepends).turn
    (by rw [hlog]; decide)
  rw [hlog] at hfirst
  exact absurd hfirst (by decide)

end BbtFramework.App
