import BbtFramework.Host.EngineSteps

/-!
# The threads of a host over its life

`Run` creates the host at most once and starts it at most once after that, and other threads
may close it between any two calls.  Whatever infra answers and whatever throws, every thread
of the host is joined by the time its members are destroyed.
-/

namespace BbtFramework.Host

open BbtFramework.Library

/-- How far `Run` has come with the host. -/
inductive HostStage where
  | assembling
  | created
  | running
  deriving DecidableEq, Repr

def HostCall.reaches : HostCall → HostStage → HostStage
  | .startScheduler, stage | .onSchedulerStarted, stage => stage
  | .create, _ => .created
  | _, _ => .running

/-- The stage a call is made in; only the first calls tell the stages apart. -/
def HostCall.enters : HostCall → HostStage → HostStage
  | .startScheduler, stage | .onSchedulerStarted, stage | .create, stage | .start, stage => stage
  | _, _ => .running

/-- The host is created at most once, and it is started once after that. -/
def stages : Discipline HostCall HostCall.Answer HostStage where
  allows := fun call stage =>
    match call with
    | .startScheduler | .onSchedulerStarted | .create => stage = .assembling
    | .start => stage = .created
    | _ => True
  possible := fun _ _ => True
  after := fun call _ stage => call.reaches stage

namespace HostLifecycle

theorem startUp_stages (hooks : Hooks) (life : HostLifecycle) :
    Program.Follows stages (startUp hooks life) .assembling (fun _ _ => True) := by
  have hprepared : Program.Follows stages
      (callHook hooks.onSchedulerStarted (perform .onSchedulerStarted) (.ok ())) .assembling
      (fun _ stage => stage = .assembling) :=
    callHook_follows (fun _ => ⟨rfl, fun _ _ => rfl⟩) (fun _ => rfl)
  refine hprepared.andThen ?_
  rintro ((error | _) | what | _) _ rfl
  case returned.error => exact trivial
  case threw => exact trivial
  case threwOther => exact trivial
  case returned.ok =>
    refine .step rfl ?_
    rintro ((error | _) | what | _) _
    case returned.error => exact trivial
    case threw => exact trivial
    case threwOther => exact trivial
    case returned.ok => exact ⟨rfl, fun _ _ => trivial⟩

theorem tryStartUp_stages (hooks : Hooks) (life : HostLifecycle) :
    Program.Follows stages (tryStartUp hooks life) .assembling (fun _ _ => True) := by
  refine .step rfl ?_
  rintro (_ | what | _) _
  case returned => exact startUp_stages hooks life
  case threw => exact trivial
  case threwOther => exact trivial

theorem waitHandlersDone_stages (life : HostLifecycle) (stage : HostStage) :
    Program.Follows stages life.waitHandlersDone stage (fun _ _ => True) := by
  refine .step trivial ?_
  rintro ((error | _) | what | _) _
  case returned.ok => exact trivial
  case threw => exact trivial
  case threwOther => exact trivial
  case returned.error =>
    refine .step trivial ?_
    intro (reason : Option Error) _
    cases reason with
    | some reason => exact trivial
    | none =>
        refine .step trivial ?_
        rintro ((again | _) | what | _) _
        case returned.ok => exact trivial
        case threw => exact trivial
        case threwOther => exact trivial
        case returned.error =>
          refine .step trivial ?_
          intro (reason : Option Error) _
          cases reason with
          | some reason => exact trivial
          | none => exact trivial

theorem release_stages (hooks : Hooks) (life : HostLifecycle) (interrupted : Bool)
    (stage : HostStage) :
    Program.Follows stages (release hooks life interrupted) stage (fun _ _ => True) := by
  have hreleased : Program.Follows stages (callHook hooks.onRelease (perform .onRelease) ())
      stage (fun _ _ => True) :=
    callHook_follows (fun _ => ⟨trivial, fun _ _ => trivial⟩) (fun _ => trivial)
  exact hreleased.andThen (fun _ _ _ => trivial)

theorem shutDown_stages (hooks : Hooks) (life : HostLifecycle) (stage : HostStage) :
    Program.Follows stages (shutDown hooks life) stage (fun _ _ => True) := by
  have hclose : ∀ (life : HostLifecycle) (interrupted : Bool) (stage : HostStage),
      Program.Follows stages (closeHost hooks life interrupted) stage (fun _ _ => True) :=
    fun life interrupted stage =>
      .step trivial (fun _ _ => release_stages hooks life interrupted _)
  refine .ite ?_ (fun _ => release_stages hooks _ _ _)
  intro _
  refine .step trivial ?_
  intro _ _
  refine (waitHandlersDone_stages _ _).andThen ?_
  rintro ⟨(_ | _ | _) | what | _, life⟩ stage _
  case threw => exact trivial
  case threwOther => exact trivial
  case returned.undrained => exact .step trivial (fun (never : Empty) _ => never.elim)
  case returned.interrupted => exact hclose _ _ _
  case returned.drained =>
    have hnoted : Program.Follows stages
        (callHook hooks.onHandlersDrained (perform .onHandlersDrained) ()) stage
        (fun _ _ => True) :=
      callHook_follows (fun _ => ⟨trivial, fun _ _ => trivial⟩) (fun _ => trivial)
    exact hnoted.andThen (fun _ _ _ => hclose _ _ _)

theorem run_stages [Infra] (hooks : Hooks) (life : HostLifecycle) :
    Program.Follows stages (run hooks life) .assembling (fun _ _ => True) := by
  refine .ite (fun _ => trivial) ?_
  intro _
  refine .ite (fun _ => trivial) ?_
  intro _
  refine .ite (fun _ => trivial) ?_
  intro _
  refine (tryStartUp_stages hooks _).andThen ?_
  rintro ⟨started, life⟩ stage _
  dsimp only
  cases caughtStartUp started with
  | error error =>
      refine (shutDown_stages hooks _ _).andThen ?_
      rintro ⟨_ | _ | _, _⟩ _ _
      case returned => exact trivial
      case threw => exact trivial
      case threwOther => exact trivial
  | ok _ =>
      refine .step trivial ?_
      intro _ _
      refine (shutDown_stages hooks _ _).andThen ?_
      rintro ⟨_ | _ | _, _⟩ _ _
      case returned => exact trivial
      case threw => exact trivial
      case threwOther => exact trivial

end HostLifecycle

namespace InfraHttpHost

/-- How the host stands between two calls of `Run`. -/
structure Stands (stage : HostStage) (host : InfraHttpHost) (view : EngineView) : Prop
    extends Tracks view host where
  egress : host.created = true → host.owner .egress = true
  asked : AllAsked view host
  idle : stage ≠ .running → ∀ slot, host.joinable slot = false
  early : stage = .assembling → host.closeOnce = true → view.orderly = false

section

variable {stage : HostStage} {host : InfraHttpHost} {view : EngineView}

/-- Of a host that has come far nothing more is known. -/
theorem Stands.running (htracks : Tracks view host)
    (hegress : host.created = true → host.owner .egress = true) (hasked : AllAsked view host) :
    Stands .running host view :=
  ⟨htracks, hegress, hasked, fun hrunning => absurd rfl hrunning,
    fun hassembling => absurd hassembling (by decide)⟩

theorem Stands.unstarted (hstands : Stands .assembling host view) : Unstarted view host :=
  ⟨hstands.toTracks, hstands.egress, hstands.idle (by decide), hstands.early rfl⟩

theorem Unstarted.stands (hhost : Unstarted view host) : Stands .created host view :=
  ⟨hhost.toTracks, hhost.egress,
    fun horderly honce => absurd horderly (by simp [hhost.early honce]),
    fun _ => hhost.idle, fun hassembling => absurd hassembling (by decide)⟩

theorem Startable.stands (hhost : Startable view host) : Stands .running host view :=
  .running hhost.toTracks hhost.egress
    (fun horderly honce => absurd honce (by simp [hhost.unclosed horderly]))

theorem Stands.startable (hstands : Stands stage host view) (hcreated : host.created = true) :
    Startable view host :=
  ⟨hstands.toTracks, hstands.egress, fun horderly =>
    Bool.of_not_eq_true (fun honce =>
      absurd hcreated (by simp [(hstands.asked horderly honce).1]))⟩

/-- Of a later stage less is known. -/
theorem Stands.run (hstands : Stands stage host view) : Stands .running host view :=
  .running hstands.toTracks hstands.egress hstands.asked

theorem Shut.stands {last : EngineView} {after : InfraHttpHost}
    (hshut : Shut view host last after)
    (hidle : stage ≠ .running → ∀ slot, host.joinable slot = false)
    (hearly : stage = .assembling → view.orderly = false) : Stands stage after last where
  toTracks := hshut.tracks
  egress := hshut.egress
  asked := fun horderly _ => hshut.asked horderly
  idle := fun hstage slot => Bool.of_not_eq_true
    (fun hlive => absurd (hshut.joinable slot hlive) (by simp [hidle hstage slot]))
  early := fun hstage _ => Bool.of_not_eq_true
    (fun horderly => absurd (hshut.orderly horderly) (by simp [hearly hstage]))

theorem method_follows {Value : Type} {body : HostMethod Value}
    {post : InfraHttpHost → EngineView → Prop}
    (hbody : Method.Meets engines body view host (fun _ last after => post after last)
      (fun last after => post after last)) :
    Program.Follows engines (method body host) view (fun ended last => post ended.2 last) := by
  refine Program.Follows.andThen hbody ?_
  rintro ⟨_ | _, after⟩ last hended
  · exact hended
  · exact hended

variable [Infra]

theorem start_stands (hstands : Stands .created host view) :
    Program.Follows engines (method start host) view
      (fun ended last => Stands .running ended.2 last) := by
  refine method_follows ?_
  by_cases hcreated : host.created = true
  · exact (start_meets (hstands.startable hcreated) hcreated (hstands.idle (by decide))).mono
      (fun _ _ _ hhost => hhost.stands) (fun _ _ hhost => hhost.stands)
  · exact .read (.ite (fun _ => .leave hstands.run) (fun hnot => absurd hcreated hnot))

/-- Between two calls another thread may close the host; `next` is the stage of the second. -/
theorem hearClose_follows {before : Option HostCall} {next : HostStage}
    (hnext : next ≠ .running → next = stage)
    (hearly : next = .assembling → before.any HostCall.beforeStart = true)
    (hstands : Stands stage host view) :
    Program.Follows engines (hearClose before host) view
      (fun after last => Stands next after last) := by
  refine .step ⟨trivial, fun _ => trivial⟩ ?_
  intro (heard : Option Error) _
  cases heard with
  | none =>
      have hsame : engineAfter (.othersClose before) none view = view := by
        simp [engineAfter, NetCall.disturbs]
      refine .of_eq hsame (.pure ?_)
      by_cases hrunning : next = .running
      · exact hrunning ▸ hstands.run
      · exact (hnext hrunning).symm ▸ hstands
  | some reason =>
      let heard : EngineView :=
        { view with orderly := view.orderly && !before.any HostCall.beforeStart }
      have hafter : engineAfter (.othersClose before) (some reason) view = heard := by
        simp only [engineAfter, NetCall.disturbs, Option.isSome_some, Bool.and_true, heard]
        cases before.any HostCall.beforeStart <;> simp
      have htracks : Tracks heard host :=
        ⟨hstands.live, hstands.owned, hstands.closed, hstands.held⟩
      have hasked : AllAsked heard host :=
        fun horderly => hstands.asked (Bool.and_eq_true_iff.mp horderly).1
      refine .of_eq hafter
        ((close_follows reason htracks hstands.egress hasked).mono ?_)
      intro after last hshut
      refine hshut.stands ?_ ?_
      · intro hrunning
        exact hstands.idle (hnext hrunning ▸ hrunning)
      · intro hassembling
        simp [heard, hearly hassembling]

theorem serve_follows {call : HostCall} (hallows : stages.allows call stage)
    (hstands : Stands (call.enters stage) host view) :
    Program.Follows engines (serve call host) view
      (fun answer last => Stands (call.reaches stage) answer.2 last) := by
  cases call with
  | create =>
      obtain rfl : stage = .assembling := hallows
      refine method_follows ((create_meets hstands.unstarted).mono ?_ ?_)
      · exact fun _ _ _ hhost => hhost.stands
      · exact fun _ _ hhost => hhost.stands
  | start =>
      obtain rfl : stage = .created := hallows
      exact start_stands hstands
  | close =>
      refine (close_follows ownerReason hstands.toTracks hstands.egress hstands.asked).andThen ?_
      intro after last hshut
      exact .pure (.running hshut.tracks hshut.egress (fun horderly _ => hshut.asked horderly))
  | closeReason => exact .pure hstands
  | _ => exact ⟨⟨trivial, fun _ => trivial⟩, fun _ _ => hstands⟩

theorem serveShared_follows {call : HostCall} (hallows : stages.allows call stage)
    (hstands : Stands stage host view) :
    Program.Follows engines (serveShared call host) view
      (fun answer last => Stands (call.reaches stage) answer.2 last) := by
  have hnext : call.enters stage ≠ .running → call.enters stage = stage := by
    cases call <;> simp [HostCall.enters]
  have hearly : call.enters stage = .assembling →
      (some call).any HostCall.beforeStart = true := by
    cases call <;> simp_all [HostCall.enters, HostCall.beforeStart, stages]
  exact (hearClose_follows hnext hearly hstands).andThen
    (fun _ _ hheard => serve_follows hallows hheard)

omit [Infra] in
theorem joinIfJoinable_follows {slot : EngineSlot} (htracks : Tracks view host)
    (hasked : view.orderly = true → host.joinable slot = true → view.asked slot = true) :
    Program.Follows engines (joinIfJoinable slot host) view (fun after last =>
      Tracks last after ∧ after.joinable = Function.update host.joinable slot false ∧
        last.orderly = view.orderly ∧ last.asked = view.asked) := by
  refine .ite ?_ ?_
  · intro hlive
    have hjoinable : view.live slot = true := htracks.live ▸ hlive
    refine .step ⟨hjoinable, fun horderly => hasked horderly hlive⟩ ?_
    intro _ _
    exact .pure ⟨htracks.joined, rfl, rfl, rfl⟩
  · intro hidle
    refine .pure ⟨htracks, ?_, rfl, rfl⟩
    rw [← Bool.of_not_eq_true hidle, Function.update_eq_self]

theorem destroy_follows (hstands : Stands stage host view) :
    Program.Follows engines (destroy host) view (fun _ _ => True) := by
  refine (close_follows ownerReason hstands.toTracks hstands.egress hstands.asked).andThen ?_
  intro closed last hshut
  have hasked : ∀ slot, last.orderly = true → closed.joinable slot = true →
      last.asked slot = true := fun slot horderly => (hshut.asked horderly).2 slot
  refine (joinIfJoinable_follows hshut.tracks (hasked .ingress)).andThen ?_
  rintro half last' ⟨hhalf, hjoinable, horderly, hsame⟩
  have hegress : half.joinable .egress = closed.joinable .egress := by
    rw [hjoinable, Function.update_of_ne (by decide)]
  refine (joinIfJoinable_follows hhalf ?_).andThen ?_
  · rw [horderly, hsame, hegress]
    exact hasked .egress
  rintro gone final ⟨hgone, hjoinable', -, -⟩
  refine ⟨⟨?_, fun _ => trivial⟩, fun _ _ => trivial⟩
  intro slot
  rw [hgone.live, hjoinable']
  cases slot with
  | egress => exact Function.update_self _ _ _
  | ingress => rw [Function.update_of_ne (by decide), hjoinable, Function.update_self]

theorem life_follows (hooks : Hooks) (lifecycle : HostLifecycle) (build : BuildFlags)
    (listenHost : String) (bridge : RpcInboundBridge) (http rpc : Bool) :
    Program.Follows engines
      (life hooks lifecycle (fresh build listenHost bridge http rpc)) .initial
      (fun _ _ => True) := by
  have hfresh : Stands .assembling (fresh build listenHost bridge http rpc) .initial :=
    ⟨⟨rfl, rfl, rfl, fun _ h => absurd h Bool.false_ne_true⟩, fun h => absurd h Bool.false_ne_true,
      fun _ h => absurd h Bool.false_ne_true, fun _ _ => rfl,
      fun _ h => absurd h Bool.false_ne_true⟩
  have hserve : ∀ call stage host view, stages.allows call stage → Stands stage host view →
      Program.Follows engines (serveShared call host) view (fun answer last =>
        stages.possible call answer.1 ∧
          Stands (stages.after call answer.1 stage) answer.2 last) :=
    fun _ _ _ _ hallows hstands =>
      (serveShared_follows hallows hstands).mono (fun _ _ hlast => ⟨trivial, hlast⟩)
  refine ((HostLifecycle.run_stages hooks lifecycle).interpretOn hserve hfresh).andThen ?_
  rintro ended last ⟨stage, hstands, -⟩
  have hheard : Program.Follows engines (hearClose none ended.2) last (Stands .running) :=
    hearClose_follows (fun hrunning => absurd rfl hrunning)
      (fun hassembling => absurd hassembling (by decide)) hstands
  refine hheard.andThen ?_
  intro _ _ hstands
  exact (destroy_follows hstands).andThen (fun _ _ _ => trivial)

/-- How the threads and their engines stand after what was done. -/
def standing (performed : List ((act : NetCall) × act.Answer)) : EngineView :=
  Program.replay engines .initial performed

/-- In every life of a host, whatever infra answers, whatever throws and whenever other
threads close it between two calls: no thread is started over one that was not joined, or
without its engine, none is joined twice, no engine is let go under its thread, and none
runs when the members are destroyed. -/
theorem threads_safe (hooks : Hooks) (lifecycle : HostLifecycle) (build : BuildFlags)
    (listenHost : String) (bridge : RpcInboundBridge) (http rpc : Bool)
    {performed : List ((act : NetCall) × act.Answer)}
    {last : NetOp (CallEnd Nat × HostLifecycle)} {act : NetCall}
    (hpath : Program.Path (life hooks lifecycle (fresh build listenHost bridge http rpc))
      performed last)
    (hasks : last.asks = some act) : ThreadSafe act (standing performed) := by
  have hrest := (life_follows hooks lifecycle build listenHost bridge http rpc).path hpath
    (fun _ _ => trivial)
  cases last with
  | done _ => cases hasks
  | call next rest =>
      obtain rfl : next = act := Option.some.inj hasks
      exact hrest.1.1

end

def noHooks : Hooks where
  onSchedulerStarted := false
  onHandlersDrained := false
  onRelease := false

/-- A host for clients only, up to the join of its thread. -/
def clientLife : List ((act : NetCall) × act.Answer) :=
  [⟨.othersClose (some .startScheduler), none⟩, ⟨.outside .startScheduler, .returned ()⟩,
    ⟨.othersClose (some .create), none⟩, ⟨.validateLimits, .returned (.ok ())⟩,
    ⟨.createEngine .egress, .returned ()⟩, ⟨.createPart .httpClient, .returned (.ok ())⟩,
    ⟨.keepEngine .egress, ()⟩, ⟨.othersClose (some .start), none⟩,
    ⟨.makePromise .egress, .returned ()⟩, ⟨.startThread .egress, .returned ()⟩,
    ⟨.awaitRunning .egress, .running⟩, ⟨.othersClose (some .waitShutdownRequest), none⟩,
    ⟨.outside .waitShutdownRequest, ()⟩, ⟨.othersClose (some .stopAccepting), none⟩,
    ⟨.outside .stopAccepting, ()⟩, ⟨.othersClose (some (.waitHandlersDone .first)), none⟩,
    ⟨.outside (.waitHandlersDone .first), .returned (.ok ())⟩, ⟨.othersClose (some .close), none⟩,
    ⟨.closeOnce, ()⟩, ⟨.publishReason, .returned ()⟩, ⟨.copyReason, .returned ()⟩,
    ⟨.outside .stopAccepting, ()⟩, ⟨.closePart .httpClient, .returned ()⟩,
    ⟨.requestClose .egress, .returned ()⟩, ⟨.finishedWithin .egress, true⟩]

def clientHost : InfraHttpHost :=
  fresh ⟨false, false⟩ "127.0.0.1" .legacyHeaders false false

theorem clientLife_path :
    letI := permissiveInfra
    ∃ last, Program.Path (life noHooks (HostLifecycle.fresh true 10) clientHost) clientLife
      last ∧ last.asks = some (.join .egress) := by
  let _ := permissiveInfra
  refine ⟨_, .call (.call (.call (.call (.call (.call (.call (.call (.call (.call (.call (.call
    (.call (.call (.call (.call (.call (.call (.call (.call (.call (.call (.call (.call
    (.call (.refl _))))))))))))))))))))))))), rfl⟩

theorem threads_safe_client :
    letI := permissiveInfra
    ∃ last, Program.Path (life noHooks (HostLifecycle.fresh true 10) clientHost) clientLife
      last ∧ ThreadSafe (.join .egress) (standing clientLife) := by
  let _ := permissiveInfra
  obtain ⟨last, hpath, hasks⟩ := clientLife_path
  exact ⟨last, hpath, threads_safe noHooks _ _ _ _ _ _ hpath hasks⟩

section

variable {view : EngineView}

theorem orderly_engineAfter {act : NetCall} {answer : act.Answer}
    (hquiet : act.disturbs answer = false) :
    (engineAfter act answer view).orderly = view.orderly := by
  unfold engineAfter
  split <;> simp_all [EngineView.setOwned, EngineView.setAsked, EngineView.setLive]

theorem orderly_standing {performed : List ((act : NetCall) × act.Answer)}
    (hquiet : ∀ step ∈ performed, step.1.disturbs step.2 = false) :
    (standing performed).orderly = true := by
  have hkept : ∀ view, (Program.replay engines view performed).orderly = view.orderly := by
    induction performed with
    | nil => exact fun _ => rfl
    | cons step performed ih =>
        intro view
        rw [Program.replay, ih (fun other hmem => hquiet other (List.mem_cons_of_mem _ hmem))]
        exact orderly_engineAfter (hquiet step List.mem_cons_self)
  exact hkept _

/-- Unless an exception has stopped a close half way or a close has come before `Create`, every
thread that is joined has had its engine asked to close, and no thread is started once a
close has begun. -/
theorem joins_asked [Infra] (hooks : Hooks) (lifecycle : HostLifecycle) (build : BuildFlags)
    (listenHost : String) (bridge : RpcInboundBridge) (http rpc : Bool)
    {performed : List ((act : NetCall) × act.Answer)}
    {last : NetOp (CallEnd Nat × HostLifecycle)} {act : NetCall}
    (hpath : Program.Path (life hooks lifecycle (fresh build listenHost bridge http rpc))
      performed last)
    (hasks : last.asks = some act)
    (hquiet : ∀ step ∈ performed, step.1.disturbs step.2 = false) :
    AskedFirst act (standing performed) := by
  have hrest := (life_follows hooks lifecycle build listenHost bridge http rpc).path hpath
    (fun _ _ => trivial)
  cases last with
  | done _ => cases hasks
  | call next rest =>
      obtain rfl : next = act := Option.some.inj hasks
      exact hrest.1.2 (orderly_standing hquiet)

end

theorem joins_asked_client :
    letI := permissiveInfra
    ∃ last, Program.Path (life noHooks (HostLifecycle.fresh true 10) clientHost) clientLife
      last ∧ AskedFirst (.join .egress) (standing clientLife) := by
  let _ := permissiveInfra
  obtain ⟨last, hpath, hasks⟩ := clientLife_path
  exact ⟨last, hpath, joins_asked noHooks _ _ _ _ _ _ hpath hasks (by decide)⟩

end InfraHttpHost

end BbtFramework.Host
