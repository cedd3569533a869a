import BbtFramework.App.Progress

/-!
# The conduct of the transitions

Every operation follows the progress discipline.  Most operations leave the
progress of their thread alone; the transitions serve their lists from the head.
-/

namespace BbtFramework.App

open BbtFramework.Library
open BbtFramework.Library.Program (Follows)

/-- `program`, called in `progress`, keeps to the discipline and returns in a
progress that `post` accepts. -/
abbrev Advances {Value : Type} (program : Op Value) (progress : Progress)
    (post : Value → Progress → Prop) : Prop :=
  Follows progressDiscipline program progress post

/-- `program` leaves the progress of its thread alone. -/
abbrev Steady {Value : Type} (program : Op Value) (progress : Progress) : Prop :=
  Advances program progress (fun _ last => last = progress)

theorem Steady.andThen {Value Other : Type} {program : Op Value}
    {next : Value → Op Other} (progress : Progress) {post : Other → Progress → Prop}
    (hprogram : Steady program progress)
    (hnext : ∀ value, Advances (next value) progress post) :
    Advances (program >>= next) progress post := by
  refine Follows.andThen hprogram ?_
  rintro value last rfl
  exact hnext value

section

variable [Infra] {progress : Progress}

theorem waitHooksSettledCo_steady (id : ObjectId) (hook : Hook) :
    Steady (waitHooksSettledCo id hook) progress := by
  refine Follows.step trivial ?_
  intro (settled : Bool) _
  cases settled with
  | true => exact Follows.pure rfl
  | false =>
      refine Follows.step trivial ?_
      intro (registered : Bool) _
      cases registered with
      | false => exact Follows.pure rfl
      | true =>
          refine Follows.step trivial ?_
          intro _ _
          exact ⟨trivial, fun _ _ => rfl⟩

omit [Infra] in
theorem noteRejected_steady (task : Nat) : Steady (noteRejected task) progress := by
  refine Follows.step trivial ?_
  intro (notify : Bool) _
  cases notify with
  | false => exact Follows.pure rfl
  | true => exact ⟨trivial, fun _ _ => rfl⟩

/-- A hook leaves the progress as counting it does. -/
theorem runHookCo_advances {id : ObjectId} {hook : Hook}
    (hallows : Progress.allowsCommand (.takeHook id hook) progress) :
    Advances (runHookCo id hook) progress (fun _ last => last = progress ∨
      ∃ taken, last = Progress.afterCommand (.takeHook id hook) taken progress) := by
  refine Steady.andThen _ (waitHooksSettledCo_steady id hook) ?_
  rintro (_ | _)
  case error error => exact Follows.pure (Or.inl rfl)
  case ok =>
    refine Follows.step hallows ?_
    intro (taken : Option Nat) _
    cases taken with
    | none => exact Follows.pure (Or.inr ⟨none, rfl⟩)
    | some task =>
        refine Follows.step trivial ?_
        intro (submission : Submission) _
        apply Follows.ite
        · intro _
          exact ⟨trivial, fun _ _ => Or.inr ⟨some task, rfl⟩⟩
        · intro _
          refine Steady.andThen _ (noteRejected_steady task) ?_
          exact fun _ => Follows.pure (Or.inr ⟨some task, rfl⟩)

omit [Infra] in
/-- Counting a hook changes nothing but the log of a stop. -/
theorem takeHook_log (id : ObjectId) (hook : Hook) (taken : Option Nat)
    (progress : Progress) : ∃ log,
      Progress.afterCommand (.takeHook id hook) taken progress =
        { progress with log := log } := by
  obtain ⟨lifecycle, stage, log, failed⟩ := progress
  cases stage with
  | stopping pending clean =>
      cases taken with
      | none => exact ⟨log, rfl⟩
      | some task =>
          cases hook with
          | onStop => exact ⟨log ++ [.onStop id task], rfl⟩
          | _ => exact ⟨log, rfl⟩
  | _ => exact ⟨log, rfl⟩

omit [Infra] in
/-- Only a stop records the hooks it invokes. -/
theorem afterCommand_takeHook {id : ObjectId} {hook : Hook} {taken : Option Nat}
    (hstage : ∀ pending clean, progress.stage ≠ .stopping pending clean) :
    Progress.afterCommand (.takeHook id hook) taken progress = progress := by
  obtain ⟨lifecycle, stage, log, failed⟩ := progress
  cases stage with
  | stopping pending clean => exact absurd rfl (hstage pending clean)
  | _ => rfl

theorem runHookCo_steady {id : ObjectId} {hook : Hook}
    (hstage : ∀ pending clean, progress.stage ≠ .stopping pending clean) :
    Steady (runHookCo id hook) progress := by
  refine (runHookCo_advances
    (fun _ pending clean hstop => absurd hstop (hstage pending clean))).mono ?_
  rintro _ last (rfl | ⟨taken, rfl⟩)
  · rfl
  · exact afterCommand_takeHook hstage

omit [Infra] in
theorem runHook_steady (id : ObjectId) (hook : Hook) :
    Steady (runHook id hook) progress := by
  refine Follows.step trivial ?_
  intro (found : Bool) _
  cases found with
  | false => exact Follows.pure rfl
  | true => exact ⟨trivial, fun _ _ => rfl⟩

omit [Infra] in
theorem runActorDestroy_steady (id : ObjectId) :
    Steady (runActorDestroy id) progress := by
  refine Follows.step trivial ?_
  intro (present : Bool) _
  cases present with
  | false => exact Follows.pure rfl
  | true =>
      refine Follows.step trivial ?_
      exact fun _ _ => Follows.pure rfl

omit [Infra] in
theorem waitBorrowsDrained_steady (id : ObjectId) :
    Steady (waitBorrowsDrained id) progress := by
  refine Follows.step trivial ?_
  intro (drained : Bool) _
  cases drained with
  | true => exact Follows.pure rfl
  | false => exact ⟨trivial, fun _ _ => rfl⟩

omit [Infra] in
theorem waitBindingDrained_steady (component subject : ObjectId) (generation : Nat) :
    Steady (waitBindingDrained component subject generation) progress := by
  refine Follows.step trivial ?_
  intro (drained : Bool) _
  cases drained with
  | true => exact Follows.pure rfl
  | false => exact ⟨trivial, fun _ _ => rfl⟩

omit [Infra] in
theorem drainEdges_steady (subject : ObjectId) (edges : List EdgeName) :
    Steady (drainEdges subject edges) progress := by
  induction edges with
  | nil => exact Follows.pure rfl
  | cons edge rest ih =>
      refine Steady.andThen _ (waitBindingDrained_steady edge.1 subject edge.2) ?_
      rintro (_ | _)
      case error error => exact Follows.pure rfl
      case ok => exact ih

/-- The end of a teardown, whichever way it takes: at most `OnStop` was recorded. -/
def Torn (progress : Progress) (id : ObjectId) (last : Progress) : Prop :=
  last = progress ∨
    ∃ taken, last = Progress.afterCommand (.takeHook id .onStop) taken progress

theorem stopHook_advances {id : ObjectId} {operation : String}
    {incomplete : ObjectState}
    (hallows : Progress.allowsCommand (.takeHook id .onStop) progress)
    (hincomplete : incomplete = .stopIncomplete ∨ incomplete = .uninstallIncomplete) :
    Advances (stopHook id operation incomplete) progress
      (fun _ last => Torn progress id last) := by
  refine Follows.andThen (runHookCo_advances hallows) ?_
  rintro (_ | _) last hlast
  case error error =>
    refine Follows.step ⟨by decide, hincomplete⟩ ?_
    exact fun _ _ => Follows.pure hlast
  case ok =>
    refine Follows.step trivial ?_
    intro (inFlight : Bool) _
    cases inFlight with
    | true =>
        refine Follows.step ⟨by decide, hincomplete⟩ ?_
        exact fun _ _ => Follows.pure hlast
    | false => exact Follows.pure hlast

omit [Infra] in
theorem finishDestroy_steady {id : ObjectId} (hkind : id.kind ≠ .actor) :
    Steady (finishDestroy id) progress := by
  have hvoid : Steady (runVoidHook id .onUninstall) progress := by
    refine Steady.andThen _ (runHook_steady id .onUninstall) ?_
    exact fun _ => Follows.pure rfl
  refine Steady.andThen _ hvoid ?_
  intro _
  refine ⟨fun hactor => absurd hactor hkind, fun _ _ => ?_⟩
  exact if_neg hkind

/-- A stop that still has `pending` to serve. -/
def Stopping (pending : List ObjectId) (progress : Progress) : Prop :=
  progress.lifecycle = true ∧ progress.stage = .stopping pending false ∧
    progress.failed = false

def turned (rest : List ObjectId) (log : List StopStep) (id : ObjectId)
    (begun : Bool) : Progress :=
  ⟨true, .stopping rest false, log ++ [.turn id begun], false⟩

omit [Infra] in
theorem allows_turned (rest : List ObjectId) (log : List StopStep) (id : ObjectId) :
    Progress.allowsCommand (.takeHook id .onStop) (turned rest log id true) := by
  intro _ _ _ _
  simp [turned]

omit [Infra] in
theorem Torn.stopping {rest : List ObjectId} {log : List StopStep} {id : ObjectId}
    {last : Progress} (hlast : Torn (turned rest log id true) id last) :
    Stopping rest last := by
  obtain rfl | ⟨taken, rfl⟩ := hlast
  · exact ⟨rfl, rfl, rfl⟩
  · change Option Nat at taken
    cases taken with
    | none => exact ⟨rfl, rfl, rfl⟩
    | some task => exact ⟨rfl, rfl, rfl⟩

theorem destroyService_advances {id : ObjectId} {rest : List ObjectId}
    (hkind : id.kind ≠ .actor) (hstop : Stopping (id :: rest) progress) :
    Advances (destroyService id) progress (fun _ last => Stopping rest last) := by
  obtain ⟨lifecycle, stage, log, failed⟩ := progress
  obtain ⟨rfl, rfl, rfl⟩ := hstop
  refine Follows.step ⟨hkind, rest, false, rfl⟩ ?_
  intro (begun : Bool) _
  cases begun with
  | false => exact Follows.pure ⟨rfl, rfl, rfl⟩
  | true =>
      refine Follows.step trivial ?_
      intro (edges : List EdgeName) _
      refine Steady.andThen (turned rest log id true)
        (drainEdges_steady id edges) ?_
      rintro (_ | _)
      case error error =>
        exact ⟨⟨by decide, Or.inl rfl⟩, fun _ _ => ⟨rfl, rfl, rfl⟩⟩
      case ok =>
        refine Follows.andThen
          (stopHook_advances (allows_turned rest log id) (Or.inl rfl)) ?_
        rintro (_ | _) last hlast
        case error error => exact Follows.pure hlast.stopping
        case ok =>
          refine Follows.step trivial ?_
          intro _ _
          refine (finishDestroy_steady hkind).mono ?_
          rintro _ _ rfl
          exact hlast.stopping

theorem destroyComponent_advances {id : ObjectId} {rest : List ObjectId}
    (hkind : id.kind ≠ .actor) (hstop : Stopping (id :: rest) progress) :
    Advances (destroyComponent id) progress (fun _ last => Stopping rest last) := by
  obtain ⟨lifecycle, stage, log, failed⟩ := progress
  obtain ⟨rfl, rfl, rfl⟩ := hstop
  refine Follows.step ⟨hkind, rest, false, rfl⟩ ?_
  intro (begun : Bool) _
  cases begun with
  | false => exact Follows.pure ⟨rfl, rfl, rfl⟩
  | true =>
      refine Steady.andThen (turned rest log id true)
        (waitBorrowsDrained_steady id) ?_
      rintro (_ | _)
      case error error =>
        exact ⟨⟨by decide, Or.inl rfl⟩, fun _ _ => ⟨rfl, rfl, rfl⟩⟩
      case ok =>
        refine Follows.andThen
          (stopHook_advances (allows_turned rest log id) (Or.inl rfl)) ?_
        rintro (_ | _) last hlast
        case error error => exact Follows.pure hlast.stopping
        case ok =>
          refine (finishDestroy_steady hkind).mono ?_
          rintro _ _ rfl
          exact hlast.stopping

omit [Infra] in
/-- The turn of an actor ends with its destruction. -/
theorem destroyActor_advances {id : ObjectId} {rest : List ObjectId}
    (hkind : id.kind = .actor) (hstop : Stopping (id :: rest) progress) :
    Advances (destroyActor id) progress (fun _ last => Stopping rest last) := by
  obtain ⟨lifecycle, stage, log, failed⟩ := progress
  obtain ⟨rfl, rfl, rfl⟩ := hstop
  refine Steady.andThen _ (runActorDestroy_steady id) ?_
  intro _
  refine ⟨?_, fun _ _ => ?_⟩
  · rintro _ _ _ ⟨⟩
    rfl
  · change Stopping rest (if id.kind = .actor then turned rest log id true else _)
    rw [if_pos hkind]
    exact ⟨rfl, rfl, rfl⟩

omit [Infra] in
/-- A loop serves its list and leaves the rest. -/
theorem forEach_advances {body : ObjectId → Op Unit} {ids rest : List ObjectId}
    (hbody : ∀ id ∈ ids, ∀ pending progress, Stopping (id :: pending) progress →
      Advances (body id) progress (fun _ last => Stopping pending last))
    (hstop : Stopping (ids ++ rest) progress) :
    Advances (forEach body ids) progress (fun _ last => Stopping rest last) := by
  induction ids generalizing progress with
  | nil => exact Follows.pure hstop
  | cons id others ih =>
      refine Follows.andThen
        (hbody id List.mem_cons_self (others ++ rest) progress hstop) ?_
      intro _ last hlast
      exact ih (fun other hmem => hbody other (List.mem_cons_of_mem id hmem)) hlast

theorem stopAll_advances :
    Advances stopAll ⟨true, .knows .stopping, [], false⟩
      (fun _ last => Stopping [] last) := by
  refine Follows.step ⟨rfl, rfl⟩ ?_
  rintro (lists : StopLists) ⟨hservices, hactors, hscoped, happ⟩
  have hstart : Stopping (lists.services ++ (lists.actors ++ (lists.scopedComponents ++
      (lists.appComponents ++ [])))) ⟨true, .stopping lists.order false, [], false⟩ := by
    refine ⟨rfl, ?_, rfl⟩
    simp only [StopLists.order, List.append_nil, List.append_assoc]
  refine Follows.andThen (forEach_advances
    (fun id hmem _ _ => destroyService_advances (by simp [hservices id hmem]))
    hstart) ?_
  intro _ last hlast
  refine Follows.andThen (forEach_advances
    (fun id hmem _ _ => destroyActor_advances (hactors id hmem)) hlast) ?_
  intro _ last hlast
  refine Follows.andThen (forEach_advances
    (fun id hmem _ _ => destroyComponent_advances (by simp [hscoped id hmem]))
    hlast) ?_
  intro _ last hlast
  exact forEach_advances
    (fun id hmem _ _ => destroyComponent_advances (by simp [happ id hmem])) hlast

/-- How a call returns: at rest, and without a failed transition if it succeeds. -/
def Rests (value : Except Error Unit) (last : Progress) : Prop :=
  last.lifecycle = false ∧ last.stage = .idle ∧ (value = .ok () → last.failed = false)

/-- How the body of a transition ends. -/
def Held (value : Except Error Unit) (last : Progress) : Prop :=
  (last.lifecycle = true ∧ ∃ state, last.stage = .knows state) ∧
    (value = .ok () → last.failed = false)

theorem withLifecycle_advances {operation : String} {body : Op (Except Error Unit)}
    (hbody : Advances body ⟨true, .idle, [], false⟩ Held) :
    Advances (withLifecycle operation body) .fresh Rests := by
  refine Follows.step ⟨rfl, rfl⟩ ?_
  intro (active : Bool) _
  cases active with
  | true => exact Follows.pure ⟨rfl, rfl, nofun⟩
  | false =>
      refine Follows.andThen hbody ?_
      rintro result last ⟨hheld, hfailed⟩
      refine Follows.step hheld ?_
      exact fun _ _ => Follows.pure ⟨rfl, rfl, hfailed⟩

/-- A loop that serves `served` and then leaves `last`, or fails. -/
def Served (left : Progress) (value : Except Error Unit) (last : Progress) : Prop :=
  (value = .ok () ∧ last = left) ∨
    (value ≠ .ok () ∧ last.lifecycle = true ∧ ∃ state, last.stage = .knows state)

theorem startObjects_advances (ids rest : List ObjectId) (log : List StopStep) :
    Advances (startObjects ids) ⟨true, .starting (ids ++ rest), log, false⟩
      (Served ⟨true, .starting rest, log, false⟩) := by
  induction ids with
  | nil => exact Follows.pure (Or.inl ⟨rfl, rfl⟩)
  | cons id others ih =>
      refine Follows.step ⟨rfl, Or.inl rfl⟩ ?_
      intro _ _
      refine Steady.andThen ⟨true, .starting (id :: others ++ rest), log, false⟩
        (runHookCo_steady nofun) ?_
      rintro (_ | _)
      case error error =>
        refine Follows.step ⟨rfl, Or.inr (Or.inr rfl)⟩ ?_
        intro _ _
        refine Follows.step ⟨rfl, Or.inr (Or.inr ⟨rfl, rfl⟩)⟩ ?_
        exact fun _ _ => Follows.pure (Or.inr ⟨nofun, rfl, _, rfl⟩)
      case ok =>
        refine Follows.step ⟨rfl, Or.inr (Or.inl rfl)⟩ ?_
        exact fun _ _ => ih

theorem startImpl_advances : Advances startImpl .fresh Rests := by
  refine withLifecycle_advances ?_
  refine Follows.step trivial ?_
  intro (state : AppState) _
  apply Follows.ite
  · exact fun _ => Follows.pure ⟨⟨rfl, _, rfl⟩, nofun⟩
  intro _
  apply Follows.ite
  · exact fun _ => Follows.pure ⟨⟨rfl, _, rfl⟩, nofun⟩
  intro hstate
  have hknows : state = .created ∨ state = .paused := by
    by_contra hneither
    exact hstate (not_or.mp hneither)
  refine Follows.step trivial ?_
  rintro (_ | _) _
  case error error => exact Follows.pure ⟨⟨rfl, _, rfl⟩, nofun⟩
  refine Follows.step ⟨rfl, ?_⟩ ?_
  · rcases hknows with rfl | rfl
    · exact Or.inl rfl
    · exact Or.inr rfl
  intro _ _
  refine Follows.step rfl ?_
  intro (lists : List ObjectId × List ObjectId) _
  refine Follows.andThen (startObjects_advances lists.1 lists.2 []) ?_
  rintro (_ | _) last (⟨hvalue, hlast⟩ | ⟨hvalue, hlast⟩)
  · cases hvalue
  · exact Follows.pure ⟨hlast, nofun⟩
  · subst hlast
    have hservices := startObjects_advances lists.2 [] []
    rw [List.append_nil] at hservices
    refine Follows.andThen hservices ?_
    rintro (_ | _) last (⟨hvalue, hlast⟩ | ⟨hvalue, hlast⟩)
    · cases hvalue
    · exact Follows.pure ⟨hlast, nofun⟩
    · subst hlast
      refine Follows.step ⟨rfl, Or.inl rfl⟩ ?_
      exact fun _ _ => Follows.pure ⟨⟨rfl, _, rfl⟩, fun _ => rfl⟩
    · exact absurd rfl hvalue
  · exact absurd rfl hvalue

/-- The two loops of `switchImpl`, each with the stage it goes through. -/
inductive Switches : Hook → AppState → AppState → ObjectState → ObjectState →
    (List ObjectId → Stage) → Prop where
  | pause : Switches .onPause .running .paused .running .paused .pausing
  | resume : Switches .onResume .paused .running .paused .running .resuming

theorem switchServices_advances {hook : Hook} {appFrom appTo : AppState}
    {objectFrom objectTo : ObjectState} {stage : List ObjectId → Stage}
    (hswitch : Switches hook appFrom appTo objectFrom objectTo stage)
    (ids : List ObjectId) (log : List StopStep)
    (hkinds : ∀ id ∈ ids, id.kind = .service) :
    Advances (switchServices hook objectTo ids) ⟨true, stage ids, log, false⟩
      (Served ⟨true, stage [], log, false⟩) := by
  induction ids with
  | nil => exact Follows.pure (Or.inl ⟨rfl, rfl⟩)
  | cons id others ih =>
      have hothers := fun other hmem => hkinds other (List.mem_cons_of_mem id hmem)
      have hstage : ∀ pending clean, (⟨true, stage (id :: others), log, false⟩ :
          Progress).stage ≠ .stopping pending clean := by
        cases hswitch with
        | pause => exact nofun
        | resume => exact nofun
      refine Steady.andThen _ (runHookCo_steady hstage) ?_
      rintro (_ | _)
      case error error =>
        cases hswitch with
        | pause =>
            refine Follows.step ⟨rfl, hkinds id List.mem_cons_self, Or.inr rfl⟩ ?_
            exact fun _ _ => Follows.pure (Or.inr ⟨nofun, rfl, _, rfl⟩)
        | resume =>
            refine Follows.step ⟨rfl, Or.inr rfl⟩ ?_
            exact fun _ _ => Follows.pure (Or.inr ⟨nofun, rfl, _, rfl⟩)
      case ok =>
        cases hswitch with
        | pause =>
            refine Follows.step ⟨rfl, hkinds id List.mem_cons_self, Or.inl rfl⟩ ?_
            exact fun _ _ => ih hothers
        | resume =>
            refine Follows.step ⟨rfl, Or.inl rfl⟩ ?_
            exact fun _ _ => ih hothers

theorem switchImpl_advances {operation required : String} {hook : Hook}
    {appFrom appTo : AppState} {objectFrom objectTo : ObjectState}
    {stage : List ObjectId → Stage}
    (hswitch : Switches hook appFrom appTo objectFrom objectTo stage) :
    Advances (switchImpl operation required hook appFrom appTo objectFrom objectTo)
      .fresh Rests := by
  refine withLifecycle_advances ?_
  refine Follows.step trivial ?_
  intro (state : AppState) _
  apply Follows.ite
  · exact fun _ => Follows.pure ⟨⟨rfl, _, rfl⟩, nofun⟩
  intro hstate
  obtain rfl : state = appFrom := by simpa using hstate
  have hlist : Progress.allowsQuery (.listServices objectFrom)
      ⟨true, .knows state, [], false⟩ ∧ ∀ services : List ObjectId,
        Progress.afterQuery (.listServices objectFrom) services
          ⟨true, .knows state, [], false⟩ = ⟨true, stage services, [], false⟩ := by
    cases hswitch with
    | pause => exact ⟨Or.inl ⟨rfl, rfl⟩, fun _ => rfl⟩
    | resume => exact ⟨Or.inr ⟨rfl, rfl⟩, fun _ => rfl⟩
  refine Follows.step hlist.1 ?_
  intro (services : List ObjectId) hservices
  refine Follows.andThen ((switchServices_advances hswitch services [] hservices).of_eq
    (hlist.2 services)) ?_
  rintro (_ | _) last (⟨hvalue, hlast⟩ | ⟨hvalue, hlast⟩)
  · cases hvalue
  · exact Follows.pure ⟨hlast, nofun⟩
  · subst hlast
    refine Follows.step ⟨rfl, ?_⟩ ?_
    · cases hswitch with
      | pause => exact rfl
      | resume => exact Or.inr (Or.inl rfl)
    · exact fun _ _ => Follows.pure ⟨⟨rfl, _, rfl⟩, fun _ => rfl⟩
  · exact absurd rfl hvalue

theorem stopImpl_advances : Advances stopImpl .fresh Rests := by
  refine withLifecycle_advances ?_
  refine Follows.step trivial ?_
  intro (state : AppState) _
  apply Follows.ite
  · exact fun _ => Follows.pure ⟨⟨rfl, _, rfl⟩, fun _ => rfl⟩
  intro hstate
  refine Follows.step ⟨rfl, state, hstate, rfl⟩ ?_
  intro _ _
  refine Follows.andThen stopAll_advances ?_
  rintro _ ⟨lifecycle, stage, log, failed⟩ ⟨rfl, rfl, rfl⟩
  refine Follows.step ⟨false, rfl⟩ ?_
  intro (pending : List CleanupInfo) _
  refine Follows.step ⟨rfl, ?_⟩ ?_
  · by_cases hempty : pending = []
    · rw [if_pos hempty]
      simp [Progress.stores, progressDiscipline, Progress.after, Progress.afterQuery,
        Progress.move, hempty]
    · rw [if_neg hempty]
      exact ⟨_, rfl⟩
  · exact fun _ _ => Follows.pure ⟨⟨rfl, _, rfl⟩, fun _ => rfl⟩

theorem bindComponentImpl_steady (type : String) (subject : ObjectHandle)
    (name : String) (placement : ComponentOptions) :
    Steady (bindComponentImpl type subject name placement) progress := by
  apply Follows.ite
  · exact fun _ => Follows.pure rfl
  intro _
  refine Follows.step trivial ?_
  rintro (_ | ownerId) _
  case error error => exact Follows.pure rfl
  exact ⟨trivial, fun _ _ => rfl⟩

theorem unbindComponentImpl_steady (type : String) (subject : ObjectHandle)
    (name : String) (placement : ComponentOptions) :
    Steady (unbindComponentImpl type subject name placement) progress := by
  apply Follows.ite
  · exact fun _ => Follows.pure rfl
  intro _
  refine Follows.step trivial ?_
  rintro (_ | ownerId) _
  case error error => exact Follows.pure rfl
  refine Follows.step trivial ?_
  rintro (_ | edge) _
  case error error => exact Follows.pure rfl
  refine Steady.andThen progress
    (waitBindingDrained_steady edge.1 subject.id edge.2) ?_
  rintro (_ | _)
  case error error => exact Follows.pure rfl
  refine Follows.step trivial ?_
  exact fun _ _ => Follows.pure rfl

theorem unbindDone_steady (service : ObjectHandle) (done : List ComponentBindingDecl) :
    Steady (unbindDone service done) progress := by
  induction done with
  | nil => exact Follows.pure rfl
  | cons decl rest ih =>
      refine Steady.andThen _
        (unbindComponentImpl_steady decl.componentType service decl.name ⟨.app, none⟩) ?_
      exact fun _ => ih

theorem bindDeclared_steady (service : ObjectHandle) (base : ObjectBase)
    (decls done : List ComponentBindingDecl) :
    Steady (bindDeclared service base decls done) progress := by
  induction decls generalizing done with
  | nil => exact Follows.pure rfl
  | cons decl rest ih =>
      apply Follows.ite
      · intro _
        refine Steady.andThen _ (unbindDone_steady service done) ?_
        exact fun _ => Follows.pure rfl
      intro _
      refine Steady.andThen _
        (bindComponentImpl_steady decl.componentType service decl.name ⟨.app, none⟩) ?_
      rintro (_ | bound)
      case error error =>
        refine Steady.andThen _ (unbindDone_steady service done) ?_
        exact fun _ => Follows.pure rfl
      case ok =>
        refine Follows.step trivial ?_
        exact fun _ _ => ih (done ++ [decl])

theorem applyServiceBindings_steady (service : ObjectHandle)
    (decls : List ComponentBindingDecl) :
    Steady (applyServiceBindings service decls) progress := by
  refine Follows.step trivial ?_
  rintro (_ | base) _
  case none => exact Follows.pure rfl
  case some => exact bindDeclared_steady service base decls []

theorem startInstalled_advances (id : ObjectId) :
    Advances (startInstalled id) ⟨false, .installing id, [], false⟩
      (fun _ last => last = .fresh) := by
  refine Follows.step ⟨rfl, Or.inl rfl⟩ ?_
  intro _ _
  refine Follows.step trivial ?_
  intro (state : AppState) _
  apply Follows.ite
  · intro hrunning
    subst hrunning
    refine Follows.step ⟨rfl, Or.inl rfl⟩ ?_
    intro _ _
    refine Steady.andThen ⟨false, .launching id, [], false⟩
      (runHookCo_steady nofun) ?_
    rintro (_ | _)
    case error error =>
      refine Follows.step ⟨rfl, Or.inr (Or.inr rfl)⟩ ?_
      exact fun _ _ => Follows.pure rfl
    case ok =>
      refine Follows.step ⟨rfl, Or.inr (Or.inl rfl)⟩ ?_
      exact fun _ _ => Follows.pure rfl
  · intro hrunning
    refine Follows.pure ?_
    change (⟨false, if state = .running then .launching id else .idle, [], false⟩ :
      Progress) = .fresh
    rw [if_neg hrunning]
    rfl

omit [Infra] in
theorem installFailed_advances (id : ObjectId) (error : Error) :
    Advances (do write (.setState id .installFailed); return .error error)
      ⟨false, .installing id, [], false⟩
      (fun (_ : Except Error Unit) last => last = .fresh) := by
  refine Follows.step ⟨rfl, Or.inr rfl⟩ ?_
  exact fun _ _ => Follows.pure rfl

theorem installComponentImpl_advances (type name : String)
    (placement : ComponentOptions) :
    Advances (installComponentImpl type name placement) .fresh
      (fun _ last => last = .fresh) := by
  refine Follows.step trivial ?_
  intro (state : AppState) _
  apply Follows.ite
  · exact fun _ => Follows.pure rfl
  intro _
  apply Follows.ite
  · exact fun _ => Follows.pure rfl
  intro _
  refine Follows.step trivial ?_
  rintro (_ | ownerId) _
  case error error => exact Follows.pure rfl
  refine Follows.step trivial ?_
  rintro (_ | _) _
  case error error => exact Follows.pure rfl
  refine Follows.step ⟨rfl, rfl⟩ ?_
  rintro (_ | id) _
  case error error => exact Follows.pure rfl
  refine Steady.andThen ⟨false, .installing id, [], false⟩
    (runHook_steady id .onInstall) ?_
  rintro (_ | _)
  case error error => exact installFailed_advances id error
  case ok => exact startInstalled_advances id

theorem installServiceImpl_advances (name : String) (allowed : List String)
    (decls : List ComponentBindingDecl) :
    Advances (installServiceImpl name allowed decls) .fresh
      (fun _ last => last = .fresh) := by
  refine Follows.step trivial ?_
  intro (state : AppState) _
  apply Follows.ite
  · exact fun _ => Follows.pure rfl
  intro _
  refine Follows.step trivial ?_
  rintro (_ | _) _
  case error error => exact Follows.pure rfl
  refine Follows.step ⟨rfl, rfl⟩ ?_
  rintro (_ | service) _
  case error error => exact Follows.pure rfl
  refine Steady.andThen ⟨false, .installing service.id, [], false⟩
    (applyServiceBindings_steady service decls) ?_
  rintro (_ | _)
  case error error => exact installFailed_advances service.id error
  case ok =>
    refine Steady.andThen ⟨false, .installing service.id, [], false⟩
      (runHook_steady service.id .onInstall) ?_
    rintro (_ | _)
    case error error => exact installFailed_advances service.id error
    case ok => exact startInstalled_advances service.id

theorem coInstallService_advances (valid : Except Error Unit) (name : String)
    (allowed : List String) (decls : List ComponentBindingDecl) :
    Advances (coInstallService valid name allowed decls) .fresh
      (fun _ last => last = .fresh) := by
  rcases valid with error | _
  · exact Follows.pure rfl
  apply Follows.ite
  · exact fun _ => Follows.pure rfl
  · exact fun _ => installServiceImpl_advances name allowed decls

theorem coInstallActor_steady (valid : Except Error Unit) (type : String) :
    Steady (coInstallActor valid type) .fresh := by
  rcases valid with error | _
  · exact Follows.pure rfl
  apply Follows.ite
  · exact fun _ => Follows.pure rfl
  intro _
  refine Follows.step trivial ?_
  intro (state : AppState) _
  apply Follows.ite
  · exact fun _ => Follows.pure rfl
  · exact fun _ => ⟨trivial, fun _ _ => rfl⟩

theorem stopHook_steady (id : ObjectId) (operation : String) :
    Steady (stopHook id operation .uninstallIncomplete) .fresh := by
  refine (stopHook_advances (by rintro _ _ _ ⟨⟩) (Or.inr rfl)).mono ?_
  rintro _ last (rfl | ⟨taken, rfl⟩)
  · rfl
  · exact afterCommand_takeHook (fun _ _ => nofun)

theorem uninstallComponentImpl_steady (type name : String)
    (placement : ComponentOptions) :
    Steady (uninstallComponentImpl type name placement) .fresh := by
  refine Follows.step trivial ?_
  rintro (_ | ownerId) _
  case error error => exact Follows.pure rfl
  refine Follows.step trivial ?_
  rintro (_ | id) hpossible
  case error error => exact Follows.pure rfl
  have hkind : id.kind = .component := hpossible id rfl
  refine Steady.andThen .fresh (waitBorrowsDrained_steady id) ?_
  rintro (_ | _)
  case error error =>
    refine Follows.step ⟨by decide, Or.inr rfl⟩ ?_
    exact fun _ _ => Follows.pure rfl
  refine Steady.andThen _ (stopHook_steady id "uninstall") ?_
  rintro (_ | _)
  case error error => exact Follows.pure rfl
  refine Steady.andThen _ (finishDestroy_steady (by simp [hkind])) ?_
  exact fun _ => Follows.pure rfl

theorem coUninstallService_steady (name : String) :
    Steady (coUninstallService name) .fresh := by
  apply Follows.ite
  · exact fun _ => Follows.pure rfl
  intro _
  refine Follows.step trivial ?_
  rintro (_ | id) hpossible
  case error error => exact Follows.pure rfl
  have hkind : id.kind = .service := hpossible id rfl
  refine Follows.step trivial ?_
  intro (edges : List EdgeName) _
  refine Steady.andThen .fresh (drainEdges_steady id edges) ?_
  rintro (_ | _)
  case error error =>
    refine Follows.step ⟨by decide, Or.inr rfl⟩ ?_
    exact fun _ _ => Follows.pure rfl
  refine Follows.step trivial ?_
  intro _ _
  refine Steady.andThen _ (stopHook_steady id "uninstall") ?_
  rintro (_ | _)
  case error error => exact Follows.pure rfl
  refine Steady.andThen _ (finishDestroy_steady (by simp [hkind])) ?_
  exact fun _ => Follows.pure rfl

theorem coUninstallActor_steady (type : String) :
    Steady (coUninstallActor type) .fresh := by
  apply Follows.ite
  · exact fun _ => Follows.pure rfl
  intro _
  refine Follows.step trivial ?_
  rintro (_ | id) _
  case error error => exact Follows.pure rfl
  refine Follows.step (by rintro _ _ _ ⟨⟩) ?_
  intro _ _
  refine Follows.pure ?_
  change (if id.kind = .actor then Progress.turn .fresh id true else .fresh) =
    Progress.fresh
  split
  · rfl
  · rfl

/-! ## Entry points -/

/-- Whether a call succeeded. -/
def Outcome.isOk : Outcome → Bool
  | .control result => result.isOk
  | .bound result => result.isOk

/-- How every call returns. -/
def Returned (outcome : Outcome) (last : Progress) : Prop :=
  last.lifecycle = false ∧ last.stage = .idle ∧
    (outcome.isOk = true → last.failed = false)

omit [Infra] in
theorem control_advances {program : Op (Except Error Unit)}
    (hprogram : Advances program .fresh Rests) :
    Advances (control program) .fresh Returned := by
  refine Follows.andThen hprogram ?_
  rintro value last ⟨hlifecycle, hstage, hfailed⟩
  refine Follows.pure ⟨hlifecycle, hstage, ?_⟩
  intro hok
  rcases value with error | _
  · cases hok
  · exact hfailed rfl

theorem main_advances (entry : Entry) : Advances entry.main .fresh Returned := by
  have hfresh : ∀ (value : Except Error Unit) (last : Progress),
      last = .fresh → Rests value last := by
    rintro _ last rfl
    exact ⟨rfl, rfl, fun _ => rfl⟩
  cases entry with
  | coStart => exact control_advances startImpl_advances
  | coPause => exact control_advances (switchImpl_advances .pause)
  | coResume => exact control_advances (switchImpl_advances .resume)
  | coStop => exact control_advances stopImpl_advances
  | coInstallComponent type name placement =>
      exact control_advances
        ((installComponentImpl_advances type name placement).mono hfresh)
  | coUninstallComponent type name placement =>
      exact control_advances
        ((uninstallComponentImpl_steady type name placement).mono hfresh)
  | coInstallService valid name allowed decls =>
      exact control_advances
        ((coInstallService_advances valid name allowed decls).mono hfresh)
  | coUninstallService name =>
      exact control_advances ((coUninstallService_steady name).mono hfresh)
  | coInstallActor valid type =>
      exact control_advances ((coInstallActor_steady valid type).mono hfresh)
  | coUninstallActor type =>
      exact control_advances ((coUninstallActor_steady type).mono hfresh)
  | coBindComponent type subject name placement =>
      refine Steady.andThen _ (bindComponentImpl_steady type subject name placement) ?_
      exact fun _ => Follows.pure ⟨rfl, rfl, fun _ => rfl⟩
  | coUnbindComponent type subject name placement =>
      exact control_advances
        ((unbindComponentImpl_steady type subject name placement).mono hfresh)

/-- The application with the progress of its transitions. -/
def stagedSystem :
    System Action Action.Answer Outcome AppWorld Progress Entry Choice Event :=
  appSystem .fresh progressDiscipline

theorem stagedSystem_disciplined : stagedSystem.Disciplined Returned where
  main := main_advances
  idle := ⟨rfl, rfl, fun _ => rfl⟩
  answers := fun _ _ _ _ _ => AppWorld.perform_possible

end

end BbtFramework.App
