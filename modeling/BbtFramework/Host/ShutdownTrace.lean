import BbtFramework.Host.Lifecycle

/-!
# The calls of a shutdown

The calls of one `Run` are recorded with their ends.  They come in the order of the
source, each at most once.
-/

namespace BbtFramework.Host

open BbtFramework.Library

/-- A call of `Run` with its end. -/
inductive HostEvent where
  | startScheduler (result : CallEnd Unit)
  | onSchedulerStarted (result : CallEnd (Except Error Unit))
  | create (result : CallEnd (Except Error Unit))
  | start (result : CallEnd (Except Error Unit))
  | waitShutdownRequest
  | stopAccepting
  | waitHandlersDone (round : Round) (result : CallEnd (Except Error Unit))
  | closeReason (reason : Option Error)
  | parkUndrained
  | onHandlersDrained (result : CallEnd Unit)
  | close
  | onRelease (result : CallEnd Unit)
  deriving DecidableEq

@[simp]
def HostCall.event : (call : HostCall) → call.Answer → HostEvent
  | .startScheduler, result => .startScheduler result
  | .onSchedulerStarted, result => .onSchedulerStarted result
  | .create, result => .create result
  | .start, result => .start result
  | .waitShutdownRequest, _ => .waitShutdownRequest
  | .stopAccepting, _ => .stopAccepting
  | .waitHandlersDone round, result => .waitHandlersDone round result
  | .closeReason, reason => .closeReason reason
  | .parkUndrained, _ => .parkUndrained
  | .onHandlersDrained, result => .onHandlersDrained result
  | .close, _ => .close
  | .onRelease, result => .onRelease result

@[simp]
def HostEvent.call : HostEvent → HostCall
  | .startScheduler _ => .startScheduler
  | .onSchedulerStarted _ => .onSchedulerStarted
  | .create _ => .create
  | .start _ => .start
  | .waitShutdownRequest => .waitShutdownRequest
  | .stopAccepting => .stopAccepting
  | .waitHandlersDone round _ => .waitHandlersDone round
  | .closeReason _ => .closeReason
  | .parkUndrained => .parkUndrained
  | .onHandlersDrained _ => .onHandlersDrained
  | .close => .close
  | .onRelease _ => .onRelease

@[simp]
theorem HostCall.event_call (call : HostCall) (answer : call.Answer) :
    (call.event answer).call = call := by
  cases call <;> rfl

def shutdownCalls : List HostCall :=
  [.stopAccepting, .waitHandlersDone .first, .waitHandlersDone .second,
    .onHandlersDrained, .close, .onRelease]

/-- The calls of a shutdown come in their order, each at most once. -/
def InOrder (calls : List HostCall) : Prop :=
  (calls.filter (fun call => call ∈ shutdownCalls)).Sublist shutdownCalls

instance (calls : List HostCall) : Decidable (InOrder calls) :=
  inferInstanceAs (Decidable (List.Sublist _ _))

theorem InOrder.of_append {made : List HostCall} {call : HostCall}
    (horder : InOrder (made ++ [call])) : InOrder made := by
  refine List.Sublist.trans ?_ horder
  rw [List.filter_append]
  exact List.sublist_append_left _ _

/-- What the calls of a run were. -/
def calls (trace : List HostEvent) : List HostCall :=
  trace.map HostEvent.call

section

variable (trace : List HostEvent)

def Created : Prop :=
  .create (.returned (.ok ())) ∈ trace

def Started : Prop :=
  .start (.returned (.ok ())) ∈ trace

/-- The bounded wait has proven the drain. -/
def InTime : Prop :=
  .waitHandlersDone .first (.returned (.ok ())) ∈ trace

def Drained : Prop :=
  ∃ round, .waitHandlersDone round (.returned (.ok ())) ∈ trace

def ClosePublished : Prop :=
  ∃ reason, .closeReason (some reason) ∈ trace

/-- The host had published its close reason when it was first asked for it. -/
def ClosedAtOnce : Prop :=
  ClosePublished trace ∧ .closeReason none ∉ trace

def ExceededBudget : Prop :=
  ∃ error, error.code = .timedOut ∧
    .waitHandlersDone .first (.returned (.error error)) ∈ trace

def ReleaseThrew : Prop :=
  ∃ result, result ≠ .returned () ∧ .onRelease result ∈ trace

/-- A hook has thrown. -/
def HookThrew : Prop :=
  (∃ result, result ≠ .returned () ∧ .onHandlersDrained result ∈ trace) ∨
    ReleaseThrew trace

/-- Something has failed that is neither a wait beyond the budget nor the
interruption by a close. -/
def StepFailed : Prop :=
  (∃ error, error.code ≠ .timedOut ∧
    .waitHandlersDone .first (.returned (.error error)) ∈ trace) ∨ HookThrew trace

/-- A wait of the host has thrown. -/
def WaitThrew : Prop :=
  ∃ round result, (∀ value, result ≠ .returned value) ∧
    .waitHandlersDone round result ∈ trace

end

/-- What a run that has returned has done. -/
structure Performed (hooks : Hooks) (trace : List HostEvent) : Prop where
  stopAccepting : .stopAccepting ∈ calls trace ↔ Created trace
  bounded : .waitHandlersDone .first ∈ calls trace ↔ Created trace
  drained : .onHandlersDrained ∈ calls trace → Drained trace
  close : .close ∈ calls trace ↔ Created trace ∧ (Drained trace ∨ ClosePublished trace)
  release : .onRelease ∈ calls trace ↔ hooks.onRelease = true

/-- What the exit code of a run that had started says. -/
structure Told (trace : List HostEvent) (code : Nat) : Prop where
  ok : code = exitOk ↔ InTime trace ∧ ¬StepFailed trace
  late : code = exitShutdownLate ↔ ExceededBudget trace ∧ ¬StepFailed trace
  failed : code = exitShutdownFailed ↔
    ¬(InTime trace ∧ ¬StepFailed trace) ∧ ¬(ExceededBudget trace ∧ ¬StepFailed trace)

def Promised (hooks : Hooks) (trace : List HostEvent) :
    HostOp (CallEnd Nat × HostLifecycle) → Prop
  | .done (.returned code, _) =>
      InOrder (calls trace) ∧ Performed hooks trace ∧ (Started trace → Told trace code)
  | .done _ => False
  | .call call _ => InOrder (calls trace) ∧ (call = .parkUndrained →
      .close ∉ calls trace ∧ .onRelease ∉ calls trace)

/-- A release has thrown after a close has interrupted the unbounded wait of a drain
beyond the budget. -/
def HiddenRelease (trace : List HostEvent) : Prop :=
  ExceededBudget trace ∧ ClosePublished trace ∧ ¬ClosedAtOnce trace ∧ ReleaseThrew trace

/-- Nothing has failed after a bounded wait that has timed out, and the host was
closed before it was asked whether it is. -/
def HiddenLateness (trace : List HostEvent) : Prop :=
  ExceededBudget trace ∧ ClosedAtOnce trace ∧ ¬ReleaseThrew trace

/-- The host does not throw while it drains, and the code of a run that has ended
hides neither a failed release nor a late shutdown. -/
def Harmless (trace : List HostEvent) : HostOp (CallEnd Nat × HostLifecycle) → Prop
  | .done _ => ¬WaitThrew trace ∧
      (Started trace → ¬HiddenRelease trace ∧ ¬HiddenLateness trace)
  | .call _ _ => ¬WaitThrew trace

def recording : Discipline HostCall HostCall.Answer (List HostEvent) where
  allows := fun call trace => InOrder (calls trace ++ [call]) ∧ ¬WaitThrew trace ∧
    (call = .parkUndrained → .close ∉ calls trace ∧ .onRelease ∉ calls trace)
  possible := fun _ _ => True
  after := fun call answer trace => trace ++ [call.event answer]

@[simp]
theorem recording_after (call : HostCall) (answer : call.Answer) (trace : List HostEvent) :
    recording.after call answer trace = trace ++ [call.event answer] :=
  rfl

/-- What `Run` has called up to some time, with the ends. -/
def recorded (performed : List ((call : HostCall) × call.Answer)) : List HostEvent :=
  performed.map (fun made => made.1.event made.2)

theorem replay_recording (performed : List ((call : HostCall) × call.Answer))
    (trace : List HostEvent) :
    Program.replay recording trace performed = trace ++ recorded performed := by
  induction performed generalizing trace with
  | nil => exact (List.append_nil _).symm
  | cons made performed ih =>
      rw [Program.replay, ih, recording_after, List.append_assoc]
      rfl

@[simp]
theorem calls_append (trace rest : List HostEvent) :
    calls (trace ++ rest) = calls trace ++ calls rest :=
  List.map_append

@[simp]
theorem calls_cons (event : HostEvent) (rest : List HostEvent) :
    calls (event :: rest) = event.call :: calls rest :=
  rfl

@[simp]
theorem calls_nil : calls [] = [] :=
  rfl

def Prelude (trace : List HostEvent) : Prop :=
  ∀ event ∈ trace, event.call ∉ shutdownCalls ∧ event.call ≠ .closeReason

namespace Prelude

variable {trace rest : List HostEvent}

theorem not_mem (hprelude : Prelude trace) {event : HostEvent}
    (hcall : event.call ∈ shutdownCalls) : event ∉ trace :=
  fun hmem => (hprelude event hmem).1 hcall

theorem not_wait (hprelude : Prelude trace) (round : Round)
    (result : CallEnd (Except Error Unit)) : .waitHandlersDone round result ∉ trace :=
  hprelude.not_mem (show HostCall.waitHandlersDone round ∈ shutdownCalls by
    cases round <;> decide)

theorem not_onHandlersDrained (hprelude : Prelude trace) (result : CallEnd Unit) :
    .onHandlersDrained result ∉ trace :=
  hprelude.not_mem (show HostCall.onHandlersDrained ∈ shutdownCalls by decide)

theorem not_onRelease (hprelude : Prelude trace) (result : CallEnd Unit) :
    .onRelease result ∉ trace :=
  hprelude.not_mem (show HostCall.onRelease ∈ shutdownCalls by decide)

theorem not_closeReason (hprelude : Prelude trace) (reason : Option Error) :
    .closeReason reason ∉ trace :=
  fun hmem => (hprelude _ hmem).2 rfl

theorem not_mem_calls (hprelude : Prelude trace) {call : HostCall}
    (hcall : call ∈ shutdownCalls) : call ∉ calls trace := by
  intro hmem
  obtain ⟨event, hevent, rfl⟩ := List.mem_map.mp hmem
  exact (hprelude event hevent).1 hcall

theorem snoc (hprelude : Prelude trace) (call : HostCall) (answer : call.Answer)
    (hcall : call ∉ shutdownCalls ∧ call ≠ .closeReason) :
    Prelude (trace ++ [call.event answer]) := by
  intro other hmem
  obtain hmem | hmem := List.mem_append.mp hmem
  · exact hprelude other hmem
  · rw [List.mem_singleton.mp hmem, HostCall.event_call]
    exact hcall

theorem inOrder (hprelude : Prelude trace) (more : List HostCall) :
    InOrder (calls trace ++ more) ↔ InOrder more := by
  have hnone : (calls trace).filter (fun call => call ∈ shutdownCalls) = [] := by
    refine List.filter_eq_nil_iff.mpr ?_
    intro call hmem
    simpa using fun hcall => hprelude.not_mem_calls hcall hmem
  rw [InOrder, List.filter_append, hnone, List.nil_append]
  rfl

end Prelude

theorem not_waitThrew {trace : List HostEvent}
    (hwaits : ∀ round result, .waitHandlersDone round result ∈ trace →
      ∃ value, result = .returned value) : ¬WaitThrew trace := by
  rintro ⟨round, result, hthrew, hmem⟩
  obtain ⟨value, rfl⟩ := hwaits round result hmem
  exact hthrew value rfl

namespace HostLifecycle

inductive DrainEnd (life : HostLifecycle) :
    List HostEvent → CallEnd DrainOutcome → HostLifecycle → Prop where
  | threw (rest : List HostEvent) (ended : CallEnd DrainOutcome) (last : HostLifecycle)
      (hended : ∀ outcome, ended ≠ .returned outcome) (hthrew : WaitThrew rest) :
      DrainEnd life rest ended last
  | inTime : DrainEnd life [.waitHandlersDone .first (.returned (.ok ()))]
      (.returned .drained) life
  | closed (error reason : Error) : DrainEnd life
      [.waitHandlersDone .first (.returned (.error error)), .closeReason (some reason)]
      (.returned .interrupted) life
  | extended (error : Error) (rest : List HostEvent) (outcome : DrainOutcome)
      (last : HostLifecycle)
      (hlate : last.exceededBudget = (life.exceededBudget || decide (error.code = .timedOut)))
      (hfailures : last.failures = [] ↔ life.failures = [] ∧ error.code = .timedOut)
      (hrest : (outcome = .drained ∧ rest = [.waitHandlersDone .second (.returned (.ok ()))]) ∨
        ∃ again reason, outcome = .interrupted ∧ rest = [.waitHandlersDone .second
          (.returned (.error again)), .closeReason (some reason)]) :
      DrainEnd life (.waitHandlersDone .first (.returned (.error error)) ::
        .closeReason none :: rest) (.returned outcome) last
  | undrained (error again : Error) (last : HostLifecycle) : DrainEnd life
      [.waitHandlersDone .first (.returned (.error error)), .closeReason none,
        .waitHandlersDone .second (.returned (.error again)), .closeReason none]
      (.returned .undrained) last

theorem allows_of_quiet {trace rest : List HostEvent} {call : HostCall}
    (hprelude : Prelude trace) (horder : InOrder (calls rest ++ [call]))
    (hpark : call = .parkUndrained → .close ∉ calls rest ∧ .onRelease ∉ calls rest)
    (hwaits : ∀ round result, .waitHandlersDone round result ∈ rest →
      ∃ value, result = .returned value) :
    recording.allows call (trace ++ rest) := by
  refine ⟨?_, ?_, ?_⟩
  · rw [calls_append, List.append_assoc]
    exact (hprelude.inOrder _).mpr horder
  · apply not_waitThrew
    intro round result hmem
    exact hwaits round result
      ((List.mem_append.mp hmem).resolve_left (hprelude.not_wait round result))
  · intro heq
    obtain ⟨hclose, hreleased⟩ := hpark heq
    rw [calls_append, List.mem_append, List.mem_append, not_or, not_or]
    exact ⟨⟨hprelude.not_mem_calls (by decide), hclose⟩,
      hprelude.not_mem_calls (by decide), hreleased⟩

theorem allows_first {trace : List HostEvent} {call : HostCall} (hprelude : Prelude trace)
    (horder : InOrder [call]) (hpark : call ≠ .parkUndrained) :
    recording.allows call trace := by
  have hallows : recording.allows call (trace ++ []) :=
    allows_of_quiet hprelude horder (fun heq => absurd heq hpark) (by simp)
  rwa [List.append_nil] at hallows

theorem waitHandlersDone_follows {trace : List HostEvent} (hprelude : Prelude trace)
    (life : HostLifecycle) :
    Program.Follows recording life.waitHandlersDone (trace ++ [.stopAccepting])
      (fun ended later => ∃ rest, later = trace ++ (.stopAccepting :: rest) ∧
        DrainEnd life rest ended.1 ended.2) := by
  have hthrew : ∀ (rest : List HostEvent) (round : Round)
      (result : CallEnd (Except Error Unit)), (∀ value, result ≠ .returned value) →
      .waitHandlersDone round result ∈ rest → WaitThrew rest :=
    fun rest round result hended hmem => ⟨round, result, hended, hmem⟩
  refine Program.Follows.step (allows_of_quiet hprelude (by decide) nofun (by simp)) ?_
  rintro ((error | _) | what | _) _
  case returned.ok =>
    exact ⟨_, List.append_assoc _ _ _, .inTime⟩
  case threw =>
    exact ⟨_, List.append_assoc _ _ _, .threw _ _ _ nofun
      (hthrew _ .first (.threw what) nofun List.mem_cons_self)⟩
  case threwOther =>
    exact ⟨_, List.append_assoc _ _ _, .threw _ _ _ nofun
      (hthrew _ .first .threwOther nofun List.mem_cons_self)⟩
  case returned.error =>
    refine Program.Follows.of_eq (List.append_assoc _ _ _) ?_
    refine Program.Follows.step
      (allows_of_quiet hprelude ?_ nofun (by simp)) ?_
    · exact (by decide : InOrder [.stopAccepting, .waitHandlersDone .first, .closeReason])
    intro (reason : Option Error) _
    cases reason with
    | some reason => exact ⟨_, List.append_assoc _ _ _, .closed error reason⟩
    | none =>
        refine Program.Follows.of_eq (List.append_assoc _ _ _) ?_
        refine Program.Follows.step
          (allows_of_quiet hprelude ?_ nofun (by simp)) ?_
        · exact (by decide : InOrder [.stopAccepting, .waitHandlersDone .first,
            .closeReason, .waitHandlersDone .second])
        have hfailures : (if error.code = .timedOut then life
            else life.addFailure ("WaitHandlersDone: " ++ error.message)).failures = [] ↔
              life.failures = [] ∧ error.code = .timedOut := by
          split
          case isTrue htimed => simp [htimed]
          case isFalse htimed => simp [htimed, addFailure]
        have hexceeded : (if error.code = .timedOut then life
            else life.addFailure ("WaitHandlersDone: " ++ error.message)).exceededBudget =
              life.exceededBudget := by
          split
          · rfl
          · rfl
        rintro ((again | _) | what | _) _
        case returned.ok =>
          refine ⟨_, List.append_assoc _ _ _,
            .extended error _ .drained _ ?_ ?_ (Or.inl ⟨rfl, rfl⟩)⟩
          · simp [hexceeded]
          · simpa using hfailures
        case threw =>
          exact ⟨_, List.append_assoc _ _ _, .threw _ _ _ nofun
            (hthrew _ .second (.threw what) nofun (by simp))⟩
        case threwOther =>
          exact ⟨_, List.append_assoc _ _ _, .threw _ _ _ nofun
            (hthrew _ .second .threwOther nofun (by simp))⟩
        case returned.error =>
          refine Program.Follows.of_eq (List.append_assoc _ _ _) ?_
          refine Program.Follows.step
            (allows_of_quiet hprelude ?_ nofun (by simp +contextual [or_imp])) ?_
          · exact (by decide : InOrder [.stopAccepting, .waitHandlersDone .first,
              .closeReason, .waitHandlersDone .second, .closeReason])
          intro (reason : Option Error) _
          cases reason with
          | none => exact ⟨_, List.append_assoc _ _ _, .undrained error again _⟩
          | some reason =>
              refine ⟨_, List.append_assoc _ _ _, .extended error _ .interrupted _ ?_ ?_
                (Or.inr ⟨again, reason, rfl, rfl⟩)⟩
              · simp [hexceeded]
              · simpa using hfailures

/-- The event of a hook that may not be set. -/
def optional (given : Bool) (event : HostEvent) : List HostEvent :=
  if given then [event] else []

@[simp]
theorem mem_optional {given : Bool} {event other : HostEvent} :
    other ∈ optional given event ↔ given = true ∧ other = event := by
  cases given <;> simp [optional]

@[simp]
theorem mem_calls_optional {given : Bool} {event : HostEvent} {call : HostCall} :
    call ∈ calls (optional given event) ↔ given = true ∧ call = event.call := by
  cases given <;> simp [optional, calls]

theorem release_follows {trace : List HostEvent} (hooks : Hooks) (life : HostLifecycle)
    (interrupted : Bool)
    (hallows : hooks.onRelease = true → recording.allows .onRelease trace) :
    Program.Follows recording (release hooks life interrupted) trace
      (fun ended later => ∃ result, later = trace ++ optional hooks.onRelease
        (.onRelease result) ∧ (hooks.onRelease = false → result = .returned ()) ∧
        ended.1 = .returned ((life.noteRelease result).exitCode interrupted)) := by
  obtain ⟨onStarted, onDrained, onRelease⟩ := hooks
  cases onRelease with
  | false => exact ⟨.returned (), (List.append_nil _).symm, fun _ => rfl, rfl⟩
  | true =>
      refine Program.Follows.step (hallows rfl) ?_
      intro (result : CallEnd Unit) _
      exact ⟨result, rfl, nofun, rfl⟩

/-- The exit code tells what has happened unless it hides a failed release or a late
shutdown. -/
theorem told_exitCode {trace : List HostEvent} {life : HostLifecycle}
    {interrupted : Bool}
    (hfailures : life.failures = [] ↔ ¬StepFailed trace ∧ interrupted = false)
    (hexceeded : life.exceededBudget = true ↔ ExceededBudget trace ∧ ¬ClosedAtOnce trace)
    (hclosed : interrupted = true ↔ ClosePublished trace)
    (hinTime : InTime trace → ¬ExceededBudget trace ∧ interrupted = false)
    (hslow : ¬InTime trace → interrupted = false → ¬StepFailed trace →
      ExceededBudget trace)
    (hthrew : ExceededBudget trace → interrupted = true →
      (StepFailed trace ↔ ReleaseThrew trace)) :
    Told trace (life.exitCode interrupted) ↔
      ¬HiddenRelease trace ∧ ¬HiddenLateness trace := by
  have htold : ∀ code, Told trace code ↔ ((code = 0 ↔ InTime trace ∧ ¬StepFailed trace) ∧
      (code = 3 ↔ ExceededBudget trace ∧ ¬StepFailed trace) ∧
      (code = 4 ↔ ¬(InTime trace ∧ ¬StepFailed trace) ∧
        ¬(ExceededBudget trace ∧ ¬StepFailed trace))) :=
    fun code => ⟨fun h => ⟨h.ok, h.late, h.failed⟩, fun h => ⟨h.1, h.2.1, h.2.2⟩⟩
  rw [htold, exitCode, exitOk, exitShutdownLate, exitShutdownFailed, HiddenRelease,
    HiddenLateness]
  cases interrupted with
  | false =>
      -- Without a published reason the code says it all.
      have hopen : ¬ClosePublished trace := fun h => nomatch hclosed.mpr h
      have hnotOnce : ¬ClosedAtOnce trace := fun h => hopen h.1
      have hlate : life.exceededBudget = true ↔ ExceededBudget trace := by
        simp [hexceeded, hnotOnce]
      by_cases hfailed : StepFailed trace
      · have hsome : life.failures ≠ [] := fun h => (hfailures.mp h).1 hfailed
        simp [hsome, hfailed, hopen, hnotOnce]
      · have hnone : life.failures = [] := hfailures.mpr ⟨hfailed, rfl⟩
        by_cases hover : ExceededBudget trace
        · have hnotInTime : ¬InTime trace := fun h => (hinTime h).1 hover
          simp [hnone, hlate.mpr hover, hfailed, hover, hnotInTime, hopen, hnotOnce]
        · have hunder : life.exceededBudget = false :=
            (Bool.not_eq_true _).mp (fun h => hover (hlate.mp h))
          have htime : InTime trace := by
            by_contra hnotInTime
            exact hover (hslow hnotInTime rfl hfailed)
          simp [hnone, hunder, hfailed, hover, htime, hopen]
  | true =>
      have hpublished : ClosePublished trace := hclosed.mp rfl
      have hsome : life.failures ≠ [] := fun h => nomatch (hfailures.mp h).2
      have hnotInTime : ¬InTime trace := fun h => nomatch (hinTime h).2
      by_cases hover : ExceededBudget trace
      · -- The code is that of a late shutdown unless the first question was answered.
        have hfailed : StepFailed trace ↔ ReleaseThrew trace := hthrew hover rfl
        by_cases honce : ClosedAtOnce trace
        · have hunder : life.exceededBudget = false :=
            (Bool.not_eq_true _).mp (fun h => (hexceeded.mp h).2 honce)
          simp [hsome, hunder, hfailed, hover, hnotInTime, honce]
        · have hlate : life.exceededBudget = true := hexceeded.mpr ⟨hover, honce⟩
          simp [hsome, hlate, hfailed, hover, hnotInTime, honce, hpublished]
      · have hunder : life.exceededBudget = false :=
          (Bool.not_eq_true _).mp (fun h => hover (hexceeded.mp h).1)
        simp [hsome, hunder, hover, hnotInTime]

/-- The end of a shutdown whose drain was proven or interrupted: `rest` was called
between the prelude and the close. -/
theorem closeHost_follows {trace rest : List HostEvent} (hprelude : Prelude trace)
    (hooks : Hooks) (life : HostLifecycle) (interrupted : Bool)
    (hclose : InOrder (calls rest ++ [.close]))
    (hrelease : InOrder (calls rest ++ [.close, .onRelease]))
    (hwaits : ∀ round result, .waitHandlersDone round result ∈ rest →
      ∃ value, result = .returned value) :
    Program.Follows recording (closeHost hooks life interrupted) (trace ++ rest)
      (fun ended later => ∃ result, later = trace ++ (rest ++ .close ::
          optional hooks.onRelease (.onRelease result)) ∧
        (hooks.onRelease = false → result = .returned ()) ∧
        ended.1 = .returned ((life.noteRelease result).exitCode interrupted)) := by
  refine Program.Follows.step (allows_of_quiet hprelude hclose nofun hwaits) ?_
  intro _ _
  refine Program.Follows.of_eq (List.append_assoc _ _ _) ?_
  refine (release_follows hooks life interrupted ?_).mono ?_
  · intro _
    refine allows_of_quiet hprelude ?_ nofun ?_
    · rw [calls_append, List.append_assoc]
      exact hrelease
    · intro round result hmem
      exact hwaits round result (by simpa using hmem)
  · rintro ended later ⟨result, rfl, hskipped, hcode⟩
    refine ⟨result, ?_, hskipped, hcode⟩
    simp

theorem noteRelease_failures (life : HostLifecycle) (result : CallEnd Unit) :
    (life.noteRelease result).failures = [] ↔
      life.failures = [] ∧ result = .returned () := by
  cases result <;> simp [noteRelease]

theorem noteDrained_failures (life : HostLifecycle) (result : CallEnd Unit) :
    (life.noteDrained result).failures = [] ↔
      life.failures = [] ∧ result = .returned () := by
  cases result <;> simp [noteDrained]

@[simp]
theorem noteRelease_exceededBudget (life : HostLifecycle) (result : CallEnd Unit) :
    (life.noteRelease result).exceededBudget = life.exceededBudget := by
  cases result <;> rfl

@[simp]
theorem noteDrained_exceededBudget (life : HostLifecycle) (result : CallEnd Unit) :
    (life.noteDrained result).exceededBudget = life.exceededBudget := by
  cases result <;> rfl

end HostLifecycle

end BbtFramework.Host
