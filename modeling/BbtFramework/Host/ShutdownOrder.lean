import BbtFramework.Host.ShutdownTrace

/-!
# The exit code of a shutdown

The exit code says what has happened, unless the host throws while it drains or a failed
release is hidden behind the code of a late shutdown.
-/

namespace BbtFramework.Host

open BbtFramework.Library

namespace HostLifecycle

/-- The waits of a drain that parks nobody: whether a close has interrupted it, and
the error of the bounded wait when the unbounded one was made. -/
inductive Waited : List HostEvent → Bool → Option Error → Prop where
  | inTime : Waited [.waitHandlersDone .first (.returned (.ok ()))] false none
  | closed (error reason : Error) : Waited
      [.waitHandlersDone .first (.returned (.error error)), .closeReason (some reason)]
      true none
  | late (error : Error) : Waited
      [.waitHandlersDone .first (.returned (.error error)), .closeReason none,
        .waitHandlersDone .second (.returned (.ok ()))] false (some error)
  | lateClosed (error again reason : Error) : Waited
      [.waitHandlersDone .first (.returned (.error error)), .closeReason none,
        .waitHandlersDone .second (.returned (.error again)),
        .closeReason (some reason)] true (some error)

def shutdownEvents (hooks : Hooks) (waits : List HostEvent) (interrupted : Bool)
    (noted released : CallEnd Unit) : List HostEvent :=
  .stopAccepting :: (waits ++
    (optional (!interrupted && hooks.onHandlersDrained) (.onHandlersDrained noted) ++
      .close :: optional hooks.onRelease (.onRelease released)))

section

variable {trace waits : List HostEvent} {hooks : Hooks} {interrupted : Bool}
variable {extended : Option Error} {noted released : CallEnd Unit}

theorem inOrder_shutdownEvents (hprelude : Prelude trace)
    (hwaited : Waited waits interrupted extended) :
    InOrder (calls (trace ++ shutdownEvents hooks waits interrupted noted released)) := by
  rw [calls_append]
  refine (hprelude.inOrder _).mpr ?_
  have hnoted : calls (optional (!interrupted && hooks.onHandlersDrained)
      (.onHandlersDrained noted)) = [] ∨ calls (optional
        (!interrupted && hooks.onHandlersDrained) (.onHandlersDrained noted)) =
          [.onHandlersDrained] := by
    cases (!interrupted && hooks.onHandlersDrained)
    · exact Or.inl rfl
    · exact Or.inr rfl
  have hreleased : calls (optional hooks.onRelease (.onRelease released)) = [] ∨
      calls (optional hooks.onRelease (.onRelease released)) = [.onRelease] := by
    cases hooks.onRelease
    · exact Or.inl rfl
    · exact Or.inr rfl
  obtain hnoted | hnoted := hnoted <;> obtain hreleased | hreleased := hreleased <;>
    cases hwaited <;> simp only [shutdownEvents, calls_cons, calls_append, calls_nil,
      HostEvent.call, hnoted, hreleased] <;> decide

theorem performed_shutdownEvents (hprelude : Prelude trace) (hcreated : Created trace)
    (hwaited : Waited waits interrupted extended) :
    Performed hooks (trace ++ shutdownEvents hooks waits interrupted noted released) := by
  have hcalls : ∀ call ∈ shutdownCalls, call ∉ calls trace :=
    fun call hcall => hprelude.not_mem_calls hcall
  simp only [shutdownCalls, List.forall_mem_cons] at hcalls
  obtain ⟨h1, h2, h3, h4, h5, h6, -⟩ := hcalls
  have hcreate : HostEvent.create (.returned (.ok ())) ∈ trace := hcreated
  cases hwaited <;> constructor <;> simp [shutdownEvents, Created, Drained,
    ClosePublished, hcreate, h1, h2, h4, h5, h6, hprelude.not_wait,
    hprelude.not_closeReason]

theorem not_waitThrew_shutdownEvents (hprelude : Prelude trace)
    (hwaited : Waited waits interrupted extended) :
    ¬WaitThrew (trace ++ shutdownEvents hooks waits interrupted noted released) := by
  rintro ⟨round, result, hthrew, hmem⟩
  cases hwaited <;> simp [shutdownEvents, hprelude.not_wait] at hmem
  all_goals grind

theorem releaseThrew_shutdownEvents (hprelude : Prelude trace)
    (hwaited : Waited waits interrupted extended)
    (hreleased : hooks.onRelease = false → released = .returned ()) :
    ReleaseThrew (trace ++ shutdownEvents hooks waits interrupted noted released) ↔
      released ≠ .returned () := by
  have hrelease : ∀ result, .onRelease result ∈
      trace ++ shutdownEvents hooks waits interrupted noted released ↔
        hooks.onRelease = true ∧ result = released := by
    intro result
    cases hwaited <;> simp [shutdownEvents, hprelude.not_onRelease]
  simp only [ReleaseThrew, hrelease]
  constructor
  · rintro ⟨result, hthrew, -, rfl⟩
    exact hthrew
  · intro hthrew
    refine ⟨released, hthrew, ?_, rfl⟩
    by_contra hunset
    exact hthrew (hreleased ((Bool.not_eq_true _).mp hunset))

theorem hookThrew_shutdownEvents (hprelude : Prelude trace)
    (hwaited : Waited waits interrupted extended)
    (hreleased : hooks.onRelease = false → released = .returned ())
    (hnoted : hooks.onHandlersDrained = false → noted = .returned ()) :
    HookThrew (trace ++ shutdownEvents hooks waits interrupted noted released) ↔
      (interrupted = false ∧ noted ≠ .returned ()) ∨ released ≠ .returned () := by
  have hdrained : ∀ result, .onHandlersDrained result ∈
      trace ++ shutdownEvents hooks waits interrupted noted released ↔
        (interrupted = false ∧ hooks.onHandlersDrained = true) ∧ result = noted := by
    intro result
    cases hwaited <;> simp [shutdownEvents, hprelude.not_onHandlersDrained]
  rw [HookThrew, releaseThrew_shutdownEvents hprelude hwaited hreleased]
  simp only [hdrained]
  refine or_congr ?_ Iff.rfl
  constructor
  · rintro ⟨result, hthrew, ⟨hdone, -⟩, rfl⟩
    exact ⟨hdone, hthrew⟩
  · rintro ⟨hdone, hthrew⟩
    refine ⟨noted, hthrew, ⟨hdone, ?_⟩, rfl⟩
    by_contra hunset
    exact hthrew (hnoted ((Bool.not_eq_true _).mp hunset))

theorem told_shutdownEvents (hprelude : Prelude trace) {life : HostLifecycle}
    (hwaited : Waited waits interrupted extended)
    (hreleased : hooks.onRelease = false → released = .returned ())
    (hnoted : hooks.onHandlersDrained = false → noted = .returned ())
    (hfailures : life.failures = [] ↔ interrupted = false ∧
      (∀ error ∈ extended, error.code = .timedOut) ∧
        noted = .returned () ∧ released = .returned ())
    (hexceeded : life.exceededBudget =
      extended.any (fun error => error.code = .timedOut)) :
    Told (trace ++ shutdownEvents hooks waits interrupted noted released)
        (life.exitCode interrupted) ↔
      ¬HiddenRelease (trace ++ shutdownEvents hooks waits interrupted noted released) ∧
        ¬HiddenLateness
          (trace ++ shutdownEvents hooks waits interrupted noted released) := by
  have hthrew := hookThrew_shutdownEvents hprelude hwaited hreleased hnoted
  have hrelease : ReleaseThrew
      (trace ++ shutdownEvents hooks waits interrupted noted released) ↔ released ≠ .returned () :=
    releaseThrew_shutdownEvents hprelude hwaited hreleased
  apply told_exitCode
  · rw [hfailures, StepFailed, hthrew]
    cases hwaited <;> simp [shutdownEvents, hprelude.not_wait]
  · rw [hexceeded]
    cases hwaited <;> simp [shutdownEvents, ExceededBudget, ClosedAtOnce, ClosePublished,
      hprelude.not_wait, hprelude.not_closeReason]
  · cases hwaited <;> simp [shutdownEvents, ClosePublished, hprelude.not_closeReason]
  · cases hwaited <;> simp [shutdownEvents, InTime, ExceededBudget, hprelude.not_wait]
  · rw [StepFailed, hthrew]
    cases hwaited <;> simp [shutdownEvents, InTime, ExceededBudget, hprelude.not_wait]
    exact fun htimed _ _ => htimed
  · rw [StepFailed, hthrew, hrelease]
    cases hwaited <;> simp [shutdownEvents, ExceededBudget, hprelude.not_wait]
    all_goals exact fun htimed hother => absurd htimed hother

/-- What is known when the shutdown of a lifecycle has ended: `trace` was called
before it. -/
def ShutReport (hooks : Hooks) (life : HostLifecycle) (trace : List HostEvent) :
    CallEnd Nat × HostLifecycle → List HostEvent → Prop
  | (.returned code, _), later =>
      InOrder (calls later) ∧ Performed hooks later ∧ ¬WaitThrew later ∧
        (Started later → Started trace) ∧
        (life.hostCreated = true → life.failures = [] → life.exceededBudget = false →
          (Told later code ↔ ¬HiddenRelease later ∧ ¬HiddenLateness later))
  | _, later => WaitThrew later

theorem closed_follows (hprelude : Prelude trace) (hcreated : Created trace)
    {first life : HostLifecycle} (hwaited : Waited waits interrupted extended)
    (hnoted : hooks.onHandlersDrained = false → noted = .returned ())
    (hfailures : first.failures = [] → (life.failures = [] ↔ interrupted = false ∧
      (∀ error ∈ extended, error.code = .timedOut) ∧ noted = .returned ()))
    (hexceeded : first.exceededBudget = false →
      life.exceededBudget = extended.any (fun error => error.code = .timedOut)) :
    Program.Follows recording (closeHost hooks life interrupted)
      (trace ++ .stopAccepting :: (waits ++
        optional (!interrupted && hooks.onHandlersDrained) (.onHandlersDrained noted)))
      (ShutReport hooks first trace) := by
  have hwaits : ∀ round result, .waitHandlersDone round result ∈
      .stopAccepting :: (waits ++ optional (!interrupted && hooks.onHandlersDrained)
        (.onHandlersDrained noted)) → ∃ value, result = .returned value := by
    intro round result hmem
    cases hwaited <;> simp at hmem
    all_goals grind
  have horder : ∀ last ∈ [[HostCall.close], [.close, .onRelease]],
      InOrder (calls (.stopAccepting :: (waits ++
        optional (!interrupted && hooks.onHandlersDrained)
          (.onHandlersDrained noted))) ++ last) := by
    have hshape : calls (optional (!interrupted && hooks.onHandlersDrained)
        (.onHandlersDrained noted)) = [] ∨ calls (optional
          (!interrupted && hooks.onHandlersDrained) (.onHandlersDrained noted)) =
            [.onHandlersDrained] := by
      cases (!interrupted && hooks.onHandlersDrained)
      · exact Or.inl rfl
      · exact Or.inr rfl
    obtain hshape | hshape := hshape <;> cases hwaited <;>
      simp only [calls_cons, calls_append, calls_nil, HostEvent.call, hshape] <;> decide
  refine (closeHost_follows hprelude hooks life interrupted (horder _ (by simp))
    (horder _ (by simp)) hwaits).mono ?_
  rintro ⟨_, last⟩ later ⟨released, rfl, hreleased, rfl⟩
  have heq : trace ++ (.stopAccepting :: (waits ++
      optional (!interrupted && hooks.onHandlersDrained) (.onHandlersDrained noted)) ++
        .close :: optional hooks.onRelease (.onRelease released)) =
      trace ++ shutdownEvents hooks waits interrupted noted released := by
    simp [shutdownEvents]
  rw [heq]
  refine ⟨inOrder_shutdownEvents hprelude hwaited,
    performed_shutdownEvents hprelude hcreated hwaited,
    not_waitThrew_shutdownEvents hprelude hwaited, ?_, ?_⟩
  · intro hstarted
    cases hwaited <;> simpa [Started, shutdownEvents] using hstarted
  · intro _ hclean hunder
    refine told_shutdownEvents hprelude hwaited hreleased hnoted ?_ ?_
    · rw [noteRelease_failures, hfailures hclean, and_assoc, and_assoc]
    · rw [noteRelease_exceededBudget, hexceeded hunder]

theorem drained_follows (hprelude : Prelude trace) (hcreated : Created trace)
    {first life : HostLifecycle} (hwaited : Waited waits false extended)
    (horder : InOrder (calls (.stopAccepting :: waits) ++ [.onHandlersDrained]))
    (hfailures : first.failures = [] → (life.failures = [] ↔
      ∀ error ∈ extended, error.code = .timedOut))
    (hexceeded : first.exceededBudget = false →
      life.exceededBudget = extended.any (fun error => error.code = .timedOut)) :
    Program.Follows recording
      (do
        let noted : CallEnd Unit ←
          callHook hooks.onHandlersDrained (perform .onHandlersDrained) ()
        closeHost hooks (life.noteDrained noted) false)
      (trace ++ .stopAccepting :: waits) (ShutReport hooks first trace) := by
  have hclosed : ∀ noted, (hooks.onHandlersDrained = false → noted = .returned ()) →
      Program.Follows recording (closeHost hooks (life.noteDrained noted) false)
        (trace ++ .stopAccepting :: (waits ++
          optional (!false && hooks.onHandlersDrained) (.onHandlersDrained noted)))
        (ShutReport hooks first trace) := by
    intro noted hnoted
    refine closed_follows hprelude hcreated hwaited hnoted ?_ ?_
    · intro hclean
      rw [noteDrained_failures, hfailures hclean]
      simp
    · intro hunder
      rw [noteDrained_exceededBudget, hexceeded hunder]
  cases hgiven : hooks.onHandlersDrained with
  | false =>
      refine Program.Follows.of_eq ?_ (hclosed (.returned ()) (fun _ => rfl))
      simp [hgiven, optional]
  | true =>
      refine Program.Follows.step (allows_of_quiet hprelude horder (by rintro ⟨⟩) ?_) ?_
      · intro round result hmem
        cases hwaited <;> simp at hmem
        all_goals grind
      intro (noted : CallEnd Unit) _
      have hgave : hooks.onHandlersDrained = false → noted = .returned () := by
        intro hnone
        cases hgiven.symm.trans hnone
      refine Program.Follows.of_eq ?_ (hclosed noted hgave)
      simp [hgiven, optional]

theorem shutDown_follows (hprelude : Prelude trace) (life : HostLifecycle)
    (hcreated : life.hostCreated = true ↔ Created trace) :
    Program.Follows recording (shutDown hooks life) trace
      (ShutReport hooks life trace) := by
  rw [shutDown]
  refine Program.Follows.ite ?_ ?_
  · intro hhost
    have hmade : Created trace := hcreated.mp hhost
    refine Program.Follows.step ?_ ?_
    · exact allows_first hprelude (by decide) (by rintro ⟨⟩)
    intro _ _
    refine (waitHandlersDone_follows hprelude _).andThen ?_
    rintro ⟨ended, last⟩ later ⟨rest, rfl, hend⟩
    cases hend with
    | threw rest ended last hended hthrew =>
        have hlater : WaitThrew (trace ++ .stopAccepting :: rest) := by
          obtain ⟨round, result, hresult, hmem⟩ := hthrew
          exact ⟨round, result, hresult, by simp [hmem]⟩
        cases ended with
        | returned outcome => exact absurd rfl (hended outcome)
        | threw what => exact hlater
        | threwOther => exact hlater
    | inTime =>
        refine drained_follows hprelude hmade .inTime (by decide) ?_ ?_
        · intro hclean
          simp [hclean]
        · intro hunder
          simp [hunder]
    | closed error reason =>
        refine Program.Follows.of_eq ?_ (closed_follows hprelude hmade
          (.closed error reason) (fun _ => (rfl : CallEnd.returned () = .returned ())) ?_ ?_)
        · simp [optional]
        · simp
        · intro hunder
          simp [hunder]
    | extended error rest outcome last hlate hfailures hrest =>
        obtain ⟨rfl, rfl⟩ | ⟨again, reason, rfl, rfl⟩ := hrest
        · refine drained_follows hprelude hmade (.late error) ?_ ?_ ?_
          · exact (by decide : InOrder [.stopAccepting, .waitHandlersDone .first,
              .closeReason, .waitHandlersDone .second, .onHandlersDrained])
          · intro hclean
            simp [hfailures, hclean]
          · intro hunder
            simpa [hunder] using hlate
        · refine Program.Follows.of_eq ?_ (closed_follows hprelude hmade
            (.lateClosed error again reason)
            (fun _ => (rfl : CallEnd.returned () = .returned ())) ?_ ?_)
          · simp [optional]
          · simp
          · intro hunder
            simpa [hunder] using hlate
    | undrained error again last =>
        refine Program.Follows.step (allows_of_quiet hprelude ?_ ?_ ?_) ?_
        · exact (by decide : InOrder [.stopAccepting, .waitHandlersDone .first,
            .closeReason, .waitHandlersDone .second, .closeReason, .parkUndrained])
        · simp
        · simp +contextual [or_imp]
        · intro (answer : Empty) _
          exact answer.elim
  · intro hhost
    have hnone : ¬Created trace := fun h => hhost (hcreated.mpr h)
    refine (release_follows hooks _ false ?_).mono ?_
    · exact fun _ => allows_first hprelude (by decide) (by rintro ⟨⟩)
    rintro ⟨_, last⟩ later ⟨released, rfl, -, rfl⟩
    have hcalls : ∀ call ∈ shutdownCalls, call ∉ calls trace :=
      fun call hcall => hprelude.not_mem_calls hcall
    simp only [shutdownCalls, List.forall_mem_cons] at hcalls
    obtain ⟨h1, h2, -, h4, h5, h6, -⟩ := hcalls
    refine ⟨?_, ?_, ?_, ?_, ?_⟩
    · rw [calls_append]
      refine (hprelude.inOrder _).mpr ?_
      cases hooks.onRelease
      · exact (by decide : InOrder [])
      · exact (by decide : InOrder [.onRelease])
    · have hnocreate : HostEvent.create (.returned (.ok ())) ∉ trace := hnone
      constructor <;> simp [Created, Drained, ClosePublished, hnocreate, h1, h2, h4, h5, h6]
    · rintro ⟨round, result, -, hmem⟩
      simp [hprelude.not_wait] at hmem
    · intro hstarted
      simpa [Started] using hstarted
    · intro hhosted
      exact absurd hhosted hhost

end

theorem allows_of_prelude {trace : List HostEvent} {call : HostCall}
    (hprelude : Prelude trace) (hcall : call ∉ shutdownCalls) (hpark : call ≠ .parkUndrained) :
    recording.allows call trace := by
  refine allows_first hprelude ?_ hpark
  simp [InOrder, hcall]

structure StartReport (life : HostLifecycle)
    (ended : CallEnd (Except Error Unit) × HostLifecycle) (later : List HostEvent) :
    Prop where
  prelude : Prelude later
  created : ended.2.hostCreated = true ↔ Created later
  started : Started later ↔ ended.1 = .returned (.ok ())
  hosted : ended.1 = .returned (.ok ()) → ended.2.hostCreated = true
  failures : ended.2.failures = life.failures
  exceededBudget : ended.2.exceededBudget = life.exceededBudget

theorem startUp_follows {trace : List HostEvent} (hprelude : Prelude trace)
    (hcreate : .create (.returned (.ok ())) ∉ trace)
    (hstart : .start (.returned (.ok ())) ∉ trace) (hooks : Hooks) (life : HostLifecycle)
    (hhost : life.hostCreated = false) :
    Program.Follows recording (startUp hooks life) trace (StartReport life) := by
  have hprepared : Program.Follows recording
      (callHook hooks.onSchedulerStarted (perform .onSchedulerStarted) (.ok ())) trace
      (fun prepared middle => Prelude middle ∧ .create (.returned (.ok ())) ∉ middle ∧
        .start (.returned (.ok ())) ∉ middle ∧
        (prepared ≠ .returned (.ok ()) → StartReport life (prepared, life) middle)) := by
    refine callHook_follows ?_ ?_
    · intro _
      refine ⟨allows_of_prelude hprelude (by decide) nofun, ?_⟩
      intro (prepared : CallEnd (Except Error Unit)) _
      have hmiddle : Prelude (trace ++ [.onSchedulerStarted prepared]) :=
        hprelude.snoc .onSchedulerStarted prepared (by decide)
      refine ⟨hmiddle, by simp [hcreate], by simp [hstart], fun hfailed => ?_⟩
      refine ⟨hmiddle, ?_, ?_, fun h => absurd h hfailed, rfl, rfl⟩
      · simp [Created, hhost, hcreate]
      · simp [Started, hstart, hfailed]
    · intro _
      exact ⟨hprelude, hcreate, hstart, fun hfailed => absurd rfl hfailed⟩
  refine hprepared.andThen ?_
  intro prepared middle ⟨hmiddle, hcreate, hstart, hstopped⟩
  obtain (error | _) | what | _ := prepared
  case returned.error => exact .pure (hstopped (by simp))
  case threw => exact .pure (hstopped (by simp))
  case threwOther => exact .pure (hstopped (by simp))
  case returned.ok =>
    refine Program.Follows.step (allows_of_prelude hmiddle (by decide) (by simp)) ?_
    intro (created : CallEnd (Except Error Unit)) _
    have hended : created ≠ .returned (.ok ()) →
        StartReport life (created, life) (middle ++ [.create created]) := by
      intro hfailed
      refine ⟨hmiddle.snoc .create created (by decide), ?_, ?_,
        fun h => absurd h hfailed, rfl, rfl⟩
      · simp [Created, hhost, hcreate, Ne.symm hfailed]
      · simp [Started, hstart, hfailed]
    obtain (error | _) | what | _ := created
    case returned.ok =>
      refine Program.Follows.step (allows_of_prelude (hmiddle.snoc .create (.returned (.ok ()))
        (by decide)) (by decide) (by simp)) ?_
      intro (started : CallEnd (Except Error Unit)) _
      refine ⟨(hmiddle.snoc .create (.returned (.ok ())) (by decide)).snoc .start started
        (by decide), ?_, ?_, fun _ => rfl, rfl, rfl⟩
      · simp [Created]
      · simp [Started, hstart, eq_comm]
    case returned.error => exact hended (by simp)
    case threw => exact hended (by simp)
    case threwOther => exact hended (by simp)

theorem tryStartUp_follows (hooks : Hooks) (life : HostLifecycle)
    (hhost : life.hostCreated = false) :
    Program.Follows recording (tryStartUp hooks life) [] (StartReport life) := by
  have hempty : Prelude [] := fun _ => nofun
  refine Program.Follows.step (allows_of_prelude hempty (by decide) nofun) ?_
  intro (scheduler : CallEnd Unit) _
  have hprelude : Prelude [.startScheduler scheduler] :=
    hempty.snoc .startScheduler scheduler (by decide)
  have hstopped : ∀ ended, ended ≠ .returned (.ok ()) →
      StartReport life (ended, life) [.startScheduler scheduler] := by
    intro ended hended
    exact ⟨hprelude, by simp [hhost, Created], by simp [Started, hended],
      fun h => absurd h hended, rfl, rfl⟩
  cases scheduler with
  | returned _ => exact startUp_follows hprelude (by simp) (by simp) hooks life hhost
  | threw what => exact hstopped _ nofun
  | threwOther => exact hstopped _ nofun

/-! ## A whole run -/

section

variable [Infra]

/-- What is known when `Run` has ended. -/
def RunReport (hooks : Hooks) : CallEnd Nat × HostLifecycle → List HostEvent → Prop
  | (.returned code, _), later =>
      InOrder (calls later) ∧ Performed hooks later ∧ ¬WaitThrew later ∧
        (Started later → (Told later code ↔ ¬HiddenRelease later ∧ ¬HiddenLateness later))
  | _, later => WaitThrew later

theorem run_follows (hooks : Hooks) (budget : Int) (hbudget : 0 < budget) :
    Program.Follows recording (run hooks (fresh true budget)) [] (RunReport hooks) := by
  have hpositive : ¬budget ≤ 0 := Int.not_le.mpr hbudget
  simp only [run, fresh, hpositive, Bool.false_eq_true, if_false, not_true]
  refine (tryStartUp_follows hooks _ rfl).andThen ?_
  rintro ⟨started, life⟩ trace ⟨hprelude, hcreated, hstarted, hhosted, hfailures, hexceeded⟩
  dsimp only at hcreated hstarted hhosted hfailures hexceeded ⊢
  cases hcaught : caughtStartUp started with
  | error error =>
    have hfailed : started ≠ .returned (.ok ()) := by
      intro hok
      rw [caughtStartUp_ok.mpr hok] at hcaught
      cases hcaught
    have hdown : Program.Follows recording
        (shutDown hooks (life.addFailure ("startup: " ++ error.message))) trace
        (ShutReport hooks (life.addFailure ("startup: " ++ error.message)) trace) :=
      shutDown_follows hprelude _ hcreated
    refine hdown.andThen ?_
    rintro ⟨(code | what | _), last⟩ later hreport
    · obtain ⟨horder, hperformed, hwaits, hsame, -⟩ := hreport
      exact ⟨horder, hperformed, hwaits, fun h => absurd (hstarted.mp (hsame h)) hfailed⟩
    · exact hreport
    · exact hreport
  | ok done =>
    obtain rfl := caughtStartUp_ok.mp hcaught
    have hsnoc : Prelude (trace ++ [.waitShutdownRequest]) :=
      hprelude.snoc .waitShutdownRequest () (by decide)
    have hkept : Created (trace ++ [.waitShutdownRequest]) ↔ Created trace := by
      simp [Created]
    refine Program.Follows.step (allows_of_prelude hprelude (by decide) nofun) ?_
    intro _ _
    refine (shutDown_follows hsnoc _ (hcreated.trans hkept.symm)).andThen ?_
    rintro ⟨(code | what | _), last⟩ later hreport
    · obtain ⟨horder, hperformed, hwaits, -, htold⟩ := hreport
      exact ⟨horder, hperformed, hwaits, fun _ => htold (hhosted rfl) hfailures hexceeded⟩
    · exact hreport
    · exact hreport

/-- At any time of a run of a host with a positive budget, what is promised of the
run holds if and only if the host has not thrown while it drains and the exit code
hides neither a failed release nor a late shutdown. -/
theorem run_promised (hooks : Hooks) (budget : Int) (hbudget : 0 < budget)
    {performed : List ((call : HostCall) × call.Answer)}
    {rest : HostOp (CallEnd Nat × HostLifecycle)}
    (hpath : Program.Path (run hooks (fresh true budget)) performed rest) :
    Promised hooks (recorded performed) rest ↔ Harmless (recorded performed) rest := by
  have hrest := (run_follows hooks budget hbudget).path hpath (fun _ _ => trivial)
  rw [replay_recording, List.nil_append] at hrest
  cases rest with
  | call call next =>
      obtain ⟨⟨horder, hwaits, hpark⟩, -⟩ := hrest
      exact ⟨fun _ => hwaits, fun _ => ⟨horder.of_append, hpark⟩⟩
  | done ended =>
      have hreport : RunReport hooks ended (recorded performed) := hrest
      obtain ⟨code | what | _, last⟩ := ended
      case returned =>
        obtain ⟨horder, hperformed, hwaits, htold⟩ := hreport
        constructor
        · rintro ⟨-, -, hcode⟩
          exact ⟨hwaits, fun hstarted => (htold hstarted).mp (hcode hstarted)⟩
        · rintro ⟨-, hshown⟩
          exact ⟨horder, hperformed, fun hstarted =>
            (htold hstarted).mpr (hshown hstarted)⟩
      case threw => exact ⟨nofun, fun hharmless => absurd hreport hharmless.1⟩
      case threwOther => exact ⟨nofun, fun hharmless => absurd hreport hharmless.1⟩

def runToWait (waited : CallEnd (Except Error Unit)) :
    List ((call : HostCall) × call.Answer) :=
  [⟨.startScheduler, .returned ()⟩, ⟨.create, .returned (.ok ())⟩,
    ⟨.start, .returned (.ok ())⟩, ⟨.waitShutdownRequest, ()⟩, ⟨.stopAccepting, ()⟩,
    ⟨.waitHandlersDone .first, waited⟩]

def interruptedRun (released : CallEnd Unit) : List ((call : HostCall) × call.Answer) :=
  runToWait (.returned (.error (makeError .timedOut "late"))) ++
    [⟨.closeReason, none⟩,
      ⟨.waitHandlersDone .second, .returned (.error (makeError .closed "closed"))⟩,
      ⟨.closeReason, some (makeError .closed "closed")⟩, ⟨.close, ()⟩, ⟨.onRelease, released⟩]

/-- A run whose host is closed between the end of its budget and the question for a
close reason. -/
def closedRun : List ((call : HostCall) × call.Answer) :=
  runToWait (.returned (.error (makeError .timedOut "late"))) ++
    [⟨.closeReason, some (makeError .closed "closed")⟩, ⟨.close, ()⟩,
      ⟨.onRelease, .returned ()⟩]

end

def onlyRelease : Hooks where
  onSchedulerStarted := false
  onHandlersDrained := false
  onRelease := true

/-- However the release ends, the run reports a late shutdown. -/
theorem interruptedRun_path (released : CallEnd Unit) :
    letI := permissiveInfra
    ∃ last, Program.Path (run onlyRelease (fresh true 10)) (interruptedRun released)
      (.done (.returned exitShutdownLate, last)) := by
  let _ := permissiveInfra
  have hpath : ∀ released : CallEnd Unit, ∃ rest,
      Program.Path (run onlyRelease (fresh true 10)) (interruptedRun released) rest ∧
        ∃ last, rest = .done (.returned exitShutdownLate, last) := by
    intro released
    refine ⟨_, .call (.call (.call (.call (.call (.call (.call (.call (.call (.call
      (.call (.refl _))))))))))), ?_⟩
    cases released <;> exact ⟨_, rfl⟩
  obtain ⟨_, hpath, last, rfl⟩ := hpath released
  exact ⟨last, hpath⟩

theorem closedRun_path :
    letI := permissiveInfra
    ∃ last, Program.Path (run onlyRelease (fresh true 10)) closedRun
      (.done (.returned exitShutdownFailed, last)) := by
  let _ := permissiveInfra
  exact ⟨_, .call (.call (.call (.call (.call (.call (.call (.call (.call
    (.refl _)))))))))⟩

theorem run_promised_interrupted :
    letI := permissiveInfra
    ∃ rest, Program.Path (run onlyRelease (fresh true 10))
        (interruptedRun (.returned ())) rest ∧
      (Promised onlyRelease (recorded (interruptedRun (.returned ()))) rest ↔
        Harmless (recorded (interruptedRun (.returned ()))) rest) := by
  let _ := permissiveInfra
  obtain ⟨last, hpath⟩ := interruptedRun_path (.returned ())
  exact ⟨_, hpath, run_promised onlyRelease 10 (by decide) hpath⟩

/-- A host that throws while it drains, a release that is hidden, and a late shutdown
that is. -/
theorem run_breaks_promise :
    letI := permissiveInfra
    (∃ performed rest, Program.Path (run onlyRelease (fresh true 10)) performed rest ∧
        WaitThrew (recorded performed) ∧ ¬Promised onlyRelease (recorded performed) rest) ∧
      (∃ rest, Program.Path (run onlyRelease (fresh true 10))
          (interruptedRun (.threw "release")) rest ∧
        ¬Promised onlyRelease (recorded (interruptedRun (.threw "release"))) rest) ∧
      ∃ rest, Program.Path (run onlyRelease (fresh true 10)) closedRun rest ∧
        ¬Promised onlyRelease (recorded closedRun) rest := by
  let _ := permissiveInfra
  refine ⟨?_, ?_, ?_⟩
  · refine ⟨runToWait (.threw "socket"), _,
      .call (.call (.call (.call (.call (.call (.refl _)))))), ?_, id⟩
    exact ⟨.first, .threw "socket", nofun, by simp [recorded, runToWait]⟩
  · obtain ⟨last, hpath⟩ := interruptedRun_path (.threw "release")
    refine ⟨_, hpath, ?_⟩
    rintro ⟨-, -, htold⟩
    have hstarted : Started (recorded (interruptedRun (.threw "release"))) := by
      simp [Started, recorded, interruptedRun, runToWait]
    have hfailed : StepFailed (recorded (interruptedRun (.threw "release"))) := by
      simp [StepFailed, HookThrew, ReleaseThrew, recorded, interruptedRun, runToWait]
    exact ((htold hstarted).late.mp rfl).2 hfailed
  · obtain ⟨last, hpath⟩ := closedRun_path
    refine ⟨_, hpath, ?_⟩
    rintro ⟨-, -, htold⟩
    have hstarted : Started (recorded closedRun) := by
      simp [Started, recorded, closedRun, runToWait]
    have hover : ExceededBudget (recorded closedRun) := by
      simp [ExceededBudget, recorded, closedRun, runToWait, makeError]
    have hclean : ¬StepFailed (recorded closedRun) := by
      simp [StepFailed, HookThrew, ReleaseThrew, recorded, closedRun, runToWait, makeError]
    exact ((htold hstarted).failed.mp rfl).2 ⟨hover, hclean⟩

end HostLifecycle

end BbtFramework.Host
