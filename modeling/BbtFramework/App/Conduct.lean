import BbtFramework.App.Role

/-!
# The conduct of the operations

Every operation follows the discipline.  A lemma about an operation says in
which role it may be called and in which role it returns.
-/

namespace BbtFramework.App

open BbtFramework.Library
open BbtFramework.Library.Program (Follows)

/-- `program`, called in `role`, keeps to the discipline and returns in a role
that `post` accepts. -/
abbrev Keeps {Value : Type} (program : Op Value) (role : Role)
    (post : Value → Role → Prop) : Prop :=
  Follows appDiscipline program role post

/-- The same for the discipline with more needs. -/
abbrev Heeds {Value : Type} (program : Op Value) (role : Role)
    (post : Value → Role → Prop) : Prop :=
  Follows carefulDiscipline program role post

/-- The role of an operation that has learned whether hooks are in flight. -/
def Operation.seen (op : Operation) (settled : Bool) : Operation :=
  { op with settled := settled }

section

variable [Infra]
variable {lifecycle : Bool} {op : Operation} {edge : Option Unbinding}

theorem waitHooksSettledCo_heeds {id : ObjectId} {hook : Hook} {role : Role}
    (hallows : Role.allowsCommand (.checkSettled id hook) role)
    (hafter : ∀ settled : Bool,
      Role.afterCommand (.checkSettled id hook) settled role =
        ⟨lifecycle, some (op.seen settled), edge⟩)
    (hobject : op.object = id) :
    Heeds (waitHooksSettledCo id hook) role (fun result last =>
      ∃ settled, last = ⟨lifecycle, some (op.seen settled), edge⟩ ∧
        (result = .ok () → settled = true)) := by
  refine Follows.step hallows ?_
  intro (settled : Bool) _
  have hrole : carefulDiscipline.after (.command (.checkSettled id hook)) settled role =
      ⟨lifecycle, some (op.seen settled), edge⟩ := hafter settled
  rw [hrole]
  cases settled with
  | true => exact Follows.pure ⟨true, rfl, fun _ => rfl⟩
  | false =>
      refine Follows.step trivial ?_
      intro (registered : Bool) _
      cases registered with
      | false => exact Follows.pure ⟨false, rfl, nofun⟩
      | true =>
          refine Follows.step trivial ?_
          intro _ _
          refine ⟨⟨op.seen false, rfl, hobject⟩, ?_⟩
          intro (result : Except Error Unit) _
          cases result with
          | error error => exact ⟨false, rfl, nofun⟩
          | ok => exact ⟨true, rfl, fun _ => rfl⟩

omit [Infra] in
theorem noteRejected_heeds {task : Nat} {role : Role} :
    Heeds (noteRejected task) role (fun _ last => last = role) := by
  refine Follows.step trivial ?_
  intro (notify : Bool) _
  cases notify with
  | false => exact Follows.pure rfl
  | true => exact ⟨trivial, fun _ _ => rfl⟩

/-- What `OnStop` needs besides a settled object. -/
def MayStop (op : Operation) (hook : Hook) : Prop :=
  hook = .onStop → op.kind.closes = true ∧
    (op.object.kind = .component → op.drained = true)

/-- What `OnStop` of a service needs besides. -/
def EdgesFirst (op : Operation) (hook : Hook) : Prop :=
  hook = .onStop → op.object.kind = .service → op.EdgesDrained

theorem runHookCo_heeds_of {id : ObjectId} {hook : Hook} {role : Role}
    (hallows : Role.allowsCommand (.checkSettled id hook) role)
    (hafter : ∀ settled : Bool,
      Role.afterCommand (.checkSettled id hook) settled role =
        ⟨lifecycle, some (op.seen settled), edge⟩)
    (hobject : op.object = id) (hhook : op.hook = none) (hstop : MayStop op hook)
    (hedges : EdgesFirst op hook) :
    Heeds (runHookCo id hook) role (fun _ last =>
      ∃ settled, last = ⟨lifecycle, some (op.seen settled), edge⟩) := by
  refine Follows.andThen (waitHooksSettledCo_heeds hallows hafter hobject) ?_
  rintro (_ | _) last ⟨settled, rfl, hsettled⟩
  case error error => exact Follows.pure ⟨settled, rfl⟩
  case ok =>
    obtain rfl := hsettled rfl
    refine Follows.step ⟨⟨op.seen true, rfl, hobject, rfl, hhook, ?_⟩, ?_⟩ ?_
    · subst hobject
      exact hstop
    · subst hobject
      exact fun heq hkind => ⟨op.seen true, rfl, hedges heq hkind⟩
    · intro (taken : Option Nat) _
      cases taken with
      | none => exact Follows.pure ⟨true, rfl⟩
      | some task =>
          refine Follows.step trivial ?_
          intro (submission : Submission) _
          apply Follows.ite
          · intro _
            exact ⟨trivial, fun _ _ => ⟨false, rfl⟩⟩
          · intro _
            refine Follows.andThen noteRejected_heeds ?_
            rintro _ last rfl
            exact Follows.pure ⟨false, rfl⟩

/-- A hook of an object the operation already works on. -/
theorem runHookCo_heeds {id : ObjectId} {hook : Hook} (hobject : op.object = id)
    (hhook : op.hook = none) (hstop : MayStop op hook) (hedges : EdgesFirst op hook) :
    Heeds (runHookCo id hook) ⟨lifecycle, some op, edge⟩ (fun _ last =>
      ∃ settled, last = ⟨lifecycle, some (op.seen settled), edge⟩) :=
  runHookCo_heeds_of ⟨hobject, hhook⟩ (fun _ => rfl) hobject hhook hstop hedges

omit [Infra] in
/-- A direct hook of a settled object leaves the role as it was. -/
theorem runHook_heeds {id : ObjectId} {hook : Hook} (hobject : op.object = id)
    (hsettled : op.settled = true) (hhook : op.hook = none) :
    Heeds (runHook id hook) ⟨lifecycle, some op, edge⟩ (fun _ last =>
      last = ⟨lifecycle, some op, edge⟩) := by
  have hrestore : { op with hook := none } = op := by rw [← hhook]
  refine Follows.step ⟨op, rfl, hobject, hsettled, hhook⟩ ?_
  intro (found : Bool) _
  cases found with
  | false => exact Follows.pure rfl
  | true =>
      refine ⟨trivial, fun _ _ => ?_⟩
      change (⟨lifecycle, some { op with hook := none }, edge⟩ : Role) = _
      rw [hrestore]

def byResult (done failed : Role) : Except Error Unit → Role
  | .ok () => done
  | .error _ => failed

omit [Infra] in
theorem waitBorrowsDrained_heeds {id : ObjectId} (hobject : op.object = id)
    (hkind : op.kind.closes = true) :
    Heeds (waitBorrowsDrained id) ⟨lifecycle, some op, edge⟩ (fun result last =>
      last = byResult ⟨lifecycle, some { op with drained := true }, edge⟩
        ⟨lifecycle, some op, edge⟩ result) := by
  refine Follows.step ⟨op, rfl, hobject, hkind⟩ ?_
  intro (drained : Bool) _
  cases drained with
  | true => exact Follows.pure rfl
  | false =>
      refine ⟨⟨op, rfl, hobject, hkind⟩, ?_⟩
      intro (result : Except Error Unit) _
      cases result <;> rfl

omit [Infra] in
theorem waitBindingDrained_heeds {component subject : ObjectId} {generation : Nat}
    {role : Role} (hsubject : ∀ op, role.operation = some op →
      op.edges = .untouched ∨ op.object = subject) :
    Heeds (waitBindingDrained component subject generation) role
      (fun result last =>
        last = byResult (role.drainEdge component subject generation) role result) := by
  refine Follows.step hsubject ?_
  intro (drained : Bool) _
  cases drained with
  | true => exact Follows.pure rfl
  | false =>
      refine ⟨hsubject, ?_⟩
      intro (result : Except Error Unit) _
      cases result <;> rfl

omit [Infra] in
theorem drainEdge_untouched {component subject : ObjectId} {generation : Nat}
    {role : Role} (hedges : ∀ op, role.operation = some op → op.edges = .untouched) :
    (role.drainEdge component subject generation).operation = role.operation := by
  cases hop : role.operation with
  | none => simp [Role.drainEdge, hop]
  | some op =>
      have huntouched := hedges op hop
      cases op
      simp_all [Role.drainEdge]

omit [Infra] in
/-- The loop leaves no edge pending, or stops at the first failed wait. -/
theorem drainEdges_heeds {subject : ObjectId} {all : List EdgeName}
    (hobject : op.object = subject) (pending : List EdgeName)
    (hedges : op.edges = .listed all pending) :
    Heeds (drainEdges subject pending) ⟨lifecycle, some op, none⟩
      (fun result last => ∃ rest,
        last = ⟨lifecycle, some { op with edges := .listed all rest }, none⟩ ∧
          (result = .ok () → rest = [])) := by
  induction pending generalizing op with
  | nil =>
      refine Follows.pure ⟨[], ?_, fun _ => rfl⟩
      rw [← hedges]
  | cons edge rest ih =>
      have hsubject : ∀ other,
          (⟨lifecycle, some op, none⟩ : Role).operation = some other →
            other.edges = .untouched ∨ other.object = subject := by
        rintro _ ⟨⟩
        exact Or.inr hobject
      refine Follows.andThen (waitBindingDrained_heeds hsubject) ?_
      rintro (_ | _) last rfl
      case error error =>
        refine Follows.pure ⟨edge :: rest, ?_, nofun⟩
        rw [← hedges]
        rfl
      case ok =>
        have hdrained : (⟨lifecycle, some op, none⟩ : Role).drainEdge edge.1 subject
            edge.2 = ⟨lifecycle, some { op with edges := .listed all rest }, none⟩ := by
          simp [Role.drainEdge, hedges]
        rw [byResult, hdrained]
        exact ih hobject rfl

theorem stopHook_heeds {id : ObjectId} {operation : String}
    {incomplete : ObjectState} (hobject : op.object = id) (hhook : op.hook = none)
    (hmarks : op.marks = true) (hkind : op.kind.closes = true)
    (hdrained : op.object.kind = .component → op.drained = true)
    (hedges : op.object.kind = .service → op.EdgesDrained)
    (hincomplete : incomplete = .stopIncomplete ∨ incomplete = .uninstallIncomplete) :
    Heeds (stopHook id operation incomplete) ⟨lifecycle, some op, edge⟩
      (fun result last => last = byResult ⟨lifecycle, some (op.seen true), edge⟩
        ⟨lifecycle, none, edge⟩ result) := by
  refine Follows.andThen
    (runHookCo_heeds hobject hhook (fun _ => ⟨hkind, hdrained⟩) (fun _ => hedges)) ?_
  rintro (_ | _) last ⟨settled, rfl⟩
  case error error =>
    refine Follows.step
      ⟨⟨op.seen settled, rfl, hobject, hmarks, hhook⟩, by decide, hincomplete⟩ ?_
    exact fun _ _ => Follows.pure rfl
  case ok =>
    refine Follows.step ⟨op.seen settled, rfl, hobject⟩ ?_
    intro (inFlight : Bool) _
    cases inFlight with
    | true =>
        refine Follows.step
          ⟨⟨op.seen settled, rfl, hobject, hmarks, hhook⟩, by decide, hincomplete⟩ ?_
        exact fun _ _ => Follows.pure rfl
    | false => exact Follows.pure rfl

omit [Infra] in
theorem finishDestroy_heeds {id : ObjectId} (hobject : op.object = id)
    (hkind : op.kind.closes = true) (hsettled : op.settled = true)
    (hhook : op.hook = none) (hedges : id.kind = .service → op.edges = .cleared)
    (hdrained : id.kind = .component → op.drained = true) (happ : id.kind ≠ .app) :
    Heeds (finishDestroy id) ⟨lifecycle, some op, edge⟩ (fun _ last =>
      last = ⟨lifecycle, none, edge⟩) := by
  have hvoid : Heeds (runVoidHook id .onUninstall) ⟨lifecycle, some op, edge⟩
      (fun _ last => last = ⟨lifecycle, some op, edge⟩) := by
    refine Follows.andThen (runHook_heeds hobject hsettled hhook) ?_
    rintro _ last rfl
    exact Follows.pure rfl
  refine Follows.andThen hvoid ?_
  rintro _ last rfl
  exact ⟨⟨⟨op, rfl, hobject, hkind, hhook, hedges, hdrained⟩, happ⟩, fun _ _ => rfl⟩

/-- The role of a transition between two objects. -/
def Role.transition : Role :=
  ⟨true, none, none⟩

theorem destroyService_heeds {id : ObjectId} (hkind : id.kind = .service) :
    Heeds (destroyService id) .transition (fun _ last => last = .transition) := by
  have hmarks : ∀ op : Operation, op.object = id → op.kind = .stop →
      op.marks = true := by
    rintro op rfl hstop
    simp [Operation.marks, hstop, hkind]
  have hcomponent : id.kind = .component → False := by simp [hkind]
  refine Follows.step ⟨rfl, rfl, hkind⟩ ?_
  intro (begun : Bool) _
  cases begun with
  | false => exact Follows.pure rfl
  | true =>
      refine Follows.step ⟨_, rfl, rfl, rfl⟩ ?_
      intro (edges : List EdgeName) _
      have hdrain : Heeds (drainEdges id edges)
          ⟨true, some ⟨id, .stop, false, false, .listed edges edges, none⟩, none⟩ _ :=
        drainEdges_heeds (by rfl) edges (by rfl)
      refine Follows.andThen hdrain ?_
      rintro (_ | _) last ⟨rest, rfl, hrest⟩
      case error error =>
        refine ⟨⟨⟨_, rfl, rfl, hmarks _ rfl rfl, rfl⟩, by decide, Or.inl rfl⟩, ?_⟩
        exact fun _ _ => rfl
      case ok =>
        obtain rfl := hrest rfl
        refine Follows.andThen (stopHook_heeds rfl rfl (hmarks _ rfl rfl) rfl
          (fun hkind' => (hcomponent hkind').elim) (fun _ => Or.inl ⟨edges, rfl⟩)
          (Or.inl rfl)) ?_
        rintro (_ | _) last rfl
        case error error => exact Follows.pure rfl
        case ok =>
          refine Follows.step ⟨_, rfl, rfl, hmarks _ rfl rfl, edges, rfl⟩ ?_
          intro _ _
          exact finishDestroy_heeds rfl rfl rfl rfl (fun _ => rfl)
            (fun hkind' => (hcomponent hkind').elim) (by simp [hkind])

omit [Infra] in
theorem destroyActor_heeds {id : ObjectId} (hkind : id.kind = .actor) :
    Heeds (destroyActor id) .transition (fun _ last => last = .transition) := by
  have hfinish : Role.allowsCommand (.finishDestroy id)
      ⟨true, some (.begin id .stop), none⟩ :=
    ⟨⟨_, rfl, rfl, rfl, rfl, by simp [hkind], by simp [hkind]⟩, by simp [hkind]⟩
  have hdestroy : Heeds (runActorDestroy id) .transition
      (fun _ last => last = ⟨true, some (.begin id .stop), none⟩) := by
    refine Follows.step ⟨rfl, rfl, hkind⟩ ?_
    intro (present : Bool) _
    cases present with
    | false => exact Follows.pure rfl
    | true =>
        refine Follows.step trivial ?_
        exact fun _ _ => Follows.pure rfl
  refine Follows.andThen hdestroy ?_
  rintro _ last rfl
  exact ⟨hfinish, fun _ _ => rfl⟩

theorem destroyComponent_heeds {id : ObjectId} (hkind : id.kind = .component) :
    Heeds (destroyComponent id) .transition (fun _ last => last = .transition) := by
  have hmarks : ∀ op : Operation, op.object = id → op.kind = .stop →
      op.marks = true := by
    rintro op rfl hstop
    simp [Operation.marks, hstop, hkind]
  refine Follows.step ⟨rfl, rfl, hkind⟩ ?_
  intro (begun : Bool) _
  cases begun with
  | false => exact Follows.pure rfl
  | true =>
      refine Follows.andThen (waitBorrowsDrained_heeds rfl rfl) ?_
      rintro (_ | _) last rfl
      case error error =>
        refine ⟨⟨⟨_, rfl, rfl, hmarks _ rfl rfl, rfl⟩, by decide, Or.inl rfl⟩, ?_⟩
        exact fun _ _ => rfl
      case ok =>
        refine Follows.andThen (stopHook_heeds rfl rfl (hmarks _ rfl rfl) rfl
          (fun _ => rfl) (fun hkind' => by cases hkind.symm.trans hkind') (Or.inl rfl)) ?_
        rintro (_ | _) last rfl
        case error error => exact Follows.pure rfl
        case ok =>
          exact finishDestroy_heeds rfl rfl rfl rfl (by simp [hkind]) (fun _ => rfl)
            (by simp [hkind])

omit [Infra] in
theorem forEach_heeds {body : ObjectId → Op Unit} {ids : List ObjectId}
    (hbody : ∀ id ∈ ids,
      Heeds (body id) .transition (fun _ last => last = .transition)) :
    Heeds (forEach body ids) .transition (fun _ last => last = .transition) := by
  induction ids with
  | nil => exact Follows.pure rfl
  | cons id rest ih =>
      refine Follows.andThen (hbody id List.mem_cons_self) ?_
      rintro _ last rfl
      exact ih (fun other hmem => hbody other (List.mem_cons_of_mem id hmem))

theorem stopAll_heeds :
    Heeds stopAll .transition (fun _ last => last = .transition) := by
  refine Follows.step trivial ?_
  rintro (lists : StopLists) ⟨hservices, hactors, hscoped, happ⟩
  refine Follows.andThen
    (forEach_heeds (fun id hmem => destroyService_heeds (hservices id hmem))) ?_
  rintro _ last rfl
  refine Follows.andThen
    (forEach_heeds (fun id hmem => destroyActor_heeds (hactors id hmem))) ?_
  rintro _ last rfl
  refine Follows.andThen
    (forEach_heeds (fun id hmem => destroyComponent_heeds (hscoped id hmem))) ?_
  rintro _ last rfl
  exact forEach_heeds (fun id hmem => destroyComponent_heeds (happ id hmem))

theorem withLifecycle_heeds {operation : String} {body : Op (Except Error Unit)}
    (hbody : Heeds body .transition (fun _ last => last = .transition)) :
    Heeds (withLifecycle operation body) .fresh (fun _ last => last = .fresh) := by
  refine Follows.step rfl ?_
  intro (active : Bool) _
  cases active with
  | true => exact Follows.pure rfl
  | false =>
      refine Follows.andThen hbody ?_
      rintro result last rfl
      refine Follows.step ⟨rfl, rfl⟩ ?_
      exact fun _ _ => Follows.pure rfl

theorem startObjects_heeds (ids : List ObjectId) :
    Heeds (startObjects ids) .transition (fun _ last => last = .transition) := by
  induction ids with
  | nil => exact Follows.pure rfl
  | cons id rest ih =>
      refine Follows.step ⟨rfl, rfl⟩ ?_
      intro _ _
      have hhook : Heeds (runHookCo id .onStart)
          ⟨true, some (.begin id .start), none⟩ _ :=
        runHookCo_heeds (by rfl) (by rfl) nofun nofun
      refine Follows.andThen hhook ?_
      rintro (_ | _) last ⟨settled, rfl⟩
      case error error =>
        refine Follows.step ⟨rfl, rfl, rfl⟩ ?_
        intro _ _
        refine Follows.step trivial ?_
        exact fun _ _ => Follows.pure rfl
      case ok =>
        refine Follows.step ⟨rfl, rfl, rfl⟩ ?_
        exact fun _ _ => ih

theorem startImpl_heeds : Heeds startImpl .fresh (fun _ last => last = .fresh) := by
  refine withLifecycle_heeds ?_
  refine Follows.step trivial ?_
  intro (state : AppState) _
  apply Follows.ite
  · exact fun _ => Follows.pure rfl
  intro _
  apply Follows.ite
  · exact fun _ => Follows.pure rfl
  intro _
  refine Follows.step trivial ?_
  rintro (_ | _) _
  case error error => exact Follows.pure rfl
  refine Follows.step trivial ?_
  intro _ _
  refine Follows.step trivial ?_
  intro (lists : List ObjectId × List ObjectId) _
  refine Follows.andThen (startObjects_heeds lists.1) ?_
  rintro (_ | _) last rfl
  case error error => exact Follows.pure rfl
  refine Follows.andThen (startObjects_heeds lists.2) ?_
  rintro (_ | _) last rfl
  case error error => exact Follows.pure rfl
  refine Follows.step trivial ?_
  exact fun _ _ => Follows.pure rfl

theorem switchServices_heeds {hook : Hook} {next : ObjectState}
    (hhook : hook = .onPause ∨ hook = .onResume) (hnext : Role.final next = true)
    (ids : List ObjectId) :
    Heeds (switchServices hook next ids) .transition
      (fun _ last => last = .transition) := by
  induction ids with
  | nil => exact Follows.pure rfl
  | cons id rest ih =>
      have hstop : hook ≠ .onStop := by
        rcases hhook with rfl | rfl <;> decide
      have hclose : ∀ state, Role.final state = true → ∀ settled,
          Role.afterCommand (.setState id state) ()
            ⟨true, some ((Operation.begin id
              (if hook = .onPause then .pause else .resume)).seen settled), none⟩ =
            .transition := by
        intro state hstate settled
        simp [Role.afterCommand, hstate, Role.transition]
      have hallows : ∀ state settled, Role.allowsCommand (.setState id state)
          ⟨true, some ((Operation.begin id
            (if hook = .onPause then .pause else .resume)).seen settled), none⟩ := by
        intro state settled
        refine ⟨rfl, ?_, rfl⟩
        rcases hhook with rfl | rfl <;> rfl
      refine Follows.andThen (runHookCo_heeds_of ⟨hhook, rfl⟩ (fun _ => rfl) rfl rfl
        (fun heq => absurd heq hstop) (fun heq => absurd heq hstop)) ?_
      rintro (_ | _) last ⟨settled, rfl⟩
      case error error =>
        refine Follows.step (hallows .failed settled) ?_
        intro _ _
        exact Follows.pure (hclose .failed rfl settled)
      case ok =>
        refine Follows.step (hallows next settled) ?_
        exact fun _ _ => Follows.of_eq (hclose next hnext settled) ih

theorem switchImpl_heeds {operation required : String} {hook : Hook}
    {appFrom appTo : AppState} {objectFrom objectTo : ObjectState}
    (hhook : hook = .onPause ∨ hook = .onResume)
    (hto : Role.final objectTo = true) :
    Heeds (switchImpl operation required hook appFrom appTo objectFrom objectTo)
      .fresh (fun _ last => last = .fresh) := by
  refine withLifecycle_heeds ?_
  refine Follows.step trivial ?_
  intro (state : AppState) _
  apply Follows.ite
  · exact fun _ => Follows.pure rfl
  intro _
  refine Follows.step trivial ?_
  intro (services : List ObjectId) _
  refine Follows.andThen (switchServices_heeds hhook hto services) ?_
  rintro (_ | _) last rfl
  case error error => exact Follows.pure rfl
  refine Follows.step trivial ?_
  exact fun _ _ => Follows.pure rfl

theorem stopImpl_heeds : Heeds stopImpl .fresh (fun _ last => last = .fresh) := by
  refine withLifecycle_heeds ?_
  refine Follows.step trivial ?_
  intro (state : AppState) _
  apply Follows.ite
  · exact fun _ => Follows.pure rfl
  intro _
  refine Follows.step trivial ?_
  intro _ _
  refine Follows.andThen stopAll_heeds ?_
  rintro _ last rfl
  refine Follows.step trivial ?_
  intro (pending : List CleanupInfo) _
  refine Follows.step trivial ?_
  exact fun _ _ => Follows.pure rfl

theorem bindComponentImpl_heeds {type name : String} {subject : ObjectHandle}
    {placement : ComponentOptions} {role : Role} :
    Heeds (bindComponentImpl type subject name placement) role
      (fun _ last => last = role) := by
  apply Follows.ite
  · exact fun _ => Follows.pure rfl
  intro _
  refine Follows.step trivial ?_
  rintro (_ | _) _
  case error error => exact Follows.pure rfl
  exact ⟨trivial, fun _ _ => rfl⟩

/-- An unbind within another operation leaves it as it was. -/
theorem unbindComponentImpl_heeds {type name : String} {subject : ObjectHandle}
    {placement : ComponentOptions} {role : Role}
    (hedges : ∀ op, role.operation = some op → op.edges = .untouched) :
    Heeds (unbindComponentImpl type subject name placement) role (fun _ last =>
      last.lifecycle = role.lifecycle ∧ last.operation = role.operation) := by
  apply Follows.ite
  · exact fun _ => Follows.pure ⟨rfl, rfl⟩
  intro _
  refine Follows.step trivial ?_
  rintro (_ | ownerId) _
  case error error => exact Follows.pure ⟨rfl, rfl⟩
  refine Follows.step trivial ?_
  rintro (_ | edge) _
  case error error => exact Follows.pure ⟨rfl, rfl⟩
  refine Follows.andThen (waitBindingDrained_heeds
    (fun op hop => Or.inl (hedges op hop))) ?_
  rintro (_ | _) last rfl
  case error error => exact Follows.pure ⟨rfl, rfl⟩
  have hedge : (Role.drainEdge { role with
        unbinding := some ⟨edge.1, subject.id, edge.2, false⟩ } edge.1 subject.id
          edge.2).unbinding = some ⟨edge.1, subject.id, edge.2, true⟩ := by
    simp [Role.drainEdge]
  refine Follows.step hedge ?_
  exact fun _ _ => Follows.pure ⟨rfl, @drainEdge_untouched _ subject.id _ _ hedges⟩

theorem startInstalled_heeds {id : ObjectId} (hobject : op.object = id)
    (hkind : op.kind = .install) (hhook : op.hook = none) :
    Heeds (startInstalled id) ⟨lifecycle, some op, edge⟩ (fun _ last =>
      last.operation = none) := by
  have hcloses : op.kind.closes = false := by rw [hkind]; rfl
  refine Follows.step ⟨hobject, hcloses, hhook⟩ ?_
  intro _ _
  refine Follows.step trivial ?_
  intro (state : AppState) _
  apply Follows.ite
  · intro hrunning
    subst hrunning
    have hrole : carefulDiscipline.after (.query .loadState) AppState.running
        ⟨lifecycle, some op, edge⟩ = ⟨lifecycle, some op, edge⟩ := by
      simp [carefulDiscipline, appDiscipline, Role.after, Role.afterQuery]
    refine Follows.of_eq hrole ?_
    refine Follows.step ⟨hobject, hcloses, hhook⟩ ?_
    intro _ _
    refine Follows.andThen (runHookCo_heeds hobject hhook nofun nofun) ?_
    rintro (_ | _) last ⟨settled, rfl⟩
    case error error =>
      refine Follows.step ⟨hobject, hcloses, hhook⟩ ?_
      exact fun _ _ => Follows.pure rfl
    case ok =>
      refine Follows.step ⟨hobject, hcloses, hhook⟩ ?_
      exact fun _ _ => Follows.pure rfl
  · intro hrunning
    refine Follows.pure ?_
    simp [carefulDiscipline, appDiscipline, Role.after, Role.afterQuery, Role.afterCommand, Role.final,
      hkind, hrunning]

theorem installComponentImpl_heeds {type name : String}
    {placement : ComponentOptions} :
    Heeds (installComponentImpl type name placement) .fresh (fun _ last =>
      last.operation = none) := by
  refine Follows.step trivial ?_
  intro (state : AppState) _
  apply Follows.ite
  · exact fun _ => Follows.pure rfl
  intro _
  apply Follows.ite
  · exact fun _ => Follows.pure rfl
  intro _
  refine Follows.step trivial ?_
  rintro (_ | ownerId) _
  case error error => exact Follows.pure rfl
  refine Follows.step trivial ?_
  rintro (_ | _) _
  case error error => exact Follows.pure rfl
  refine Follows.step rfl ?_
  rintro (_ | id) _
  case error error => exact Follows.pure rfl
  have hhook : Heeds (runComponentHook id .onInstall)
      ⟨false, some (.install id), none⟩ _ :=
    runHook_heeds (by rfl) (by rfl) (by rfl)
  refine Follows.andThen hhook ?_
  rintro (_ | _) last rfl
  case error error =>
    refine Follows.step ⟨rfl, rfl, rfl⟩ ?_
    exact fun _ _ => Follows.pure rfl
  case ok => exact startInstalled_heeds rfl rfl rfl

/-- The role of an installation between its hooks. -/
def Installs (id : ObjectId) (role : Role) : Prop :=
  role.lifecycle = false ∧ role.operation = some (.install id)

theorem unbindDone_heeds {id : ObjectId} {service : ObjectHandle}
    (decls : List ComponentBindingDecl) {role : Role} (hrole : Installs id role) :
    Heeds (unbindDone service decls) role (fun _ last => Installs id last) := by
  induction decls generalizing role with
  | nil => exact Follows.pure hrole
  | cons decl rest ih =>
      have hedges : ∀ op, role.operation = some op → op.edges = .untouched := by
        intro op hop
        rw [hrole.2] at hop
        cases hop
        rfl
      refine Follows.andThen (unbindComponentImpl_heeds hedges) ?_
      rintro _ last ⟨hlifecycle, hoperation⟩
      exact ih ⟨hlifecycle.trans hrole.1, hoperation.trans hrole.2⟩

theorem bindDeclared_heeds {id : ObjectId} {service : ObjectHandle}
    {base : ObjectBase} (hkind : service.id.kind = .service)
    (decls done : List ComponentBindingDecl) {role : Role} (hrole : Installs id role) :
    Heeds (bindDeclared service base decls done) role
      (fun _ last => Installs id last) := by
  induction decls generalizing done role with
  | nil => exact Follows.pure hrole
  | cons decl rest ih =>
      apply Follows.ite
      · intro _
        refine Follows.andThen (unbindDone_heeds done hrole) ?_
        exact fun _ last hlast => Follows.pure hlast
      intro _
      refine Follows.andThen bindComponentImpl_heeds ?_
      rintro (_ | ⟨object, generation⟩) last rfl
      case error error =>
        refine Follows.andThen (unbindDone_heeds done hrole) ?_
        exact fun _ last hlast => Follows.pure hlast
      case ok =>
        refine Follows.step hkind ?_
        exact fun _ _ => ih _ hrole

theorem installServiceImpl_heeds {name : String} {allowed : List String}
    {decls : List ComponentBindingDecl} :
    Heeds (installServiceImpl name allowed decls) .fresh (fun _ last =>
      last.operation = none) := by
  refine Follows.step trivial ?_
  intro (state : AppState) _
  apply Follows.ite
  · exact fun _ => Follows.pure rfl
  intro _
  refine Follows.step trivial ?_
  rintro (_ | _) _
  case error error => exact Follows.pure rfl
  refine Follows.step rfl ?_
  rintro (_ | service) hpossible
  case error error => exact Follows.pure rfl
  have hbindings : Heeds (applyServiceBindings service decls)
      ⟨false, some (.install service.id), none⟩
      (fun _ last => Installs service.id last) := by
    refine Follows.step trivial ?_
    rintro (_ | base) _
    case none => exact Follows.pure ⟨rfl, rfl⟩
    case some => exact bindDeclared_heeds (hpossible service rfl) decls [] ⟨rfl, rfl⟩
  refine Follows.andThen hbindings ?_
  rintro (_ | _) ⟨lifecycle, operation, edge⟩ ⟨rfl, rfl⟩
  case error error =>
    refine Follows.step ⟨rfl, rfl, rfl⟩ ?_
    exact fun _ _ => Follows.pure rfl
  case ok =>
    have hhook : Heeds (runServiceHook service.id .onInstall)
        ⟨false, some (.install service.id), edge⟩ _ :=
      runHook_heeds (by rfl) (by rfl) (by rfl)
    refine Follows.andThen hhook ?_
    rintro (_ | _) last rfl
    case error error =>
      refine Follows.step ⟨rfl, rfl, rfl⟩ ?_
      exact fun _ _ => Follows.pure rfl
    case ok => exact startInstalled_heeds rfl rfl rfl

theorem coInstallService_heeds {valid : Except Error Unit} {name : String}
    {allowed : List String} {decls : List ComponentBindingDecl} :
    Heeds (coInstallService valid name allowed decls) .fresh (fun _ last =>
      last.operation = none) := by
  rcases valid with _ | _
  case error error => exact Follows.pure rfl
  apply Follows.ite
  · exact fun _ => Follows.pure rfl
  · exact fun _ => installServiceImpl_heeds

theorem coInstallActor_heeds {valid : Except Error Unit} {type : String} :
    Heeds (coInstallActor valid type) .fresh (fun _ last =>
      last.operation = none) := by
  rcases valid with _ | _
  case error error => exact Follows.pure rfl
  apply Follows.ite
  · exact fun _ => Follows.pure rfl
  intro _
  refine Follows.step trivial ?_
  intro (state : AppState) _
  apply Follows.ite
  · exact fun _ => Follows.pure rfl
  · exact fun _ => ⟨trivial, fun _ _ => rfl⟩

theorem uninstallComponentImpl_heeds {type name : String}
    {placement : ComponentOptions} :
    Heeds (uninstallComponentImpl type name placement) .fresh
      (fun _ last =>
      last.operation = none) := by
  refine Follows.step trivial ?_
  rintro (_ | ownerId) _
  case error error => exact Follows.pure rfl
  refine Follows.step rfl ?_
  rintro (_ | id) hpossible
  case error error => exact Follows.pure rfl
  have hkind : id.kind = .component := hpossible id rfl
  refine Follows.andThen (waitBorrowsDrained_heeds rfl rfl) ?_
  rintro (_ | _) last rfl
  case error error =>
    refine Follows.step ⟨⟨_, rfl, rfl, rfl, rfl⟩, by decide, Or.inr rfl⟩ ?_
    exact fun _ _ => Follows.pure rfl
  refine Follows.andThen
    (stopHook_heeds rfl rfl rfl rfl (fun _ => rfl)
      (fun hkind' => by cases hkind.symm.trans hkind') (Or.inr rfl)) ?_
  rintro (_ | _) last rfl
  case error error => exact Follows.pure rfl
  refine Follows.andThen
    (finishDestroy_heeds rfl rfl rfl rfl (by simp [hkind]) (fun _ => rfl)
      (by simp [hkind])) ?_
  rintro _ last rfl
  exact Follows.pure rfl

theorem uninstallServiceImpl_heeds {name : String} :
    Heeds (uninstallServiceImpl name) .fresh (fun _ last =>
      last.operation = none) := by
  refine Follows.step rfl ?_
  rintro (_ | id) hpossible
  case error error => exact Follows.pure rfl
  have hkind : id.kind = .service := hpossible id rfl
  have hcomponent : id.kind = .component → False := by simp [hkind]
  refine Follows.step ⟨_, rfl, rfl, rfl⟩ ?_
  intro (edges : List EdgeName) _
  have hdrain : Heeds (drainEdges id edges)
      ⟨false, some ⟨id, .uninstall, false, false, .listed edges edges, none⟩, none⟩ _ :=
    drainEdges_heeds (by rfl) edges (by rfl)
  refine Follows.andThen hdrain ?_
  rintro (_ | _) last ⟨rest, rfl, hrest⟩
  case error error =>
    refine Follows.step ⟨⟨_, rfl, rfl, rfl, rfl⟩, by decide, Or.inr rfl⟩ ?_
    exact fun _ _ => Follows.pure rfl
  obtain rfl := hrest rfl
  refine Follows.step
    ⟨_, rfl, rfl, rfl, edges, rfl, fun edge hmem => List.mem_map_of_mem hmem⟩ ?_
  intro _ _
  refine Follows.andThen (stopHook_heeds rfl rfl rfl rfl
    (fun hkind' => (hcomponent hkind').elim) (fun _ => Or.inr rfl) (Or.inr rfl)) ?_
  rintro (_ | _) last rfl
  case error error => exact Follows.pure rfl
  refine Follows.andThen (finishDestroy_heeds rfl rfl rfl rfl (fun _ => rfl)
    (fun hkind' => (hcomponent hkind').elim) (by simp [hkind])) ?_
  rintro _ last rfl
  exact Follows.pure rfl

theorem coUninstallService_heeds {name : String} :
    Heeds (coUninstallService name) .fresh (fun _ last =>
      last.operation = none) := by
  apply Follows.ite
  · exact fun _ => Follows.pure rfl
  · exact fun _ => uninstallServiceImpl_heeds

theorem coUninstallActor_heeds {type : String} :
    Heeds (coUninstallActor type) .fresh (fun _ last =>
      last.operation = none) := by
  apply Follows.ite
  · exact fun _ => Follows.pure rfl
  intro _
  refine Follows.step rfl ?_
  rintro (_ | id) hpossible
  case error error => exact Follows.pure rfl
  have hkind : id.kind = .actor := hpossible id rfl
  refine Follows.step ⟨⟨_, rfl, rfl, rfl, rfl, by simp [hkind], by simp [hkind]⟩,
    by simp [hkind]⟩ ?_
  exact fun _ _ => Follows.pure rfl

/-! ## Entry points -/

omit [Infra] in
theorem control_heeds {program : Op (Except Error Unit)} {role : Role}
    (hprogram : Heeds program role (fun _ last =>
      last.operation = none)) :
    Heeds (control program) role (fun _ last =>
      last.operation = none) := by
  refine Follows.andThen hprogram ?_
  exact fun _ _ hlast => Follows.pure hlast

theorem main_heeds (entry : Entry) :
    Heeds entry.main .fresh (fun _ last =>
      last.operation = none) := by
  have hfresh : ∀ (_ : Except Error Unit) (last : Role),
      last = .fresh → last.operation = none := by
    rintro _ last rfl
    rfl
  cases entry with
  | coStart => exact control_heeds (startImpl_heeds.mono hfresh)
  | coPause => exact control_heeds ((switchImpl_heeds (Or.inl rfl) rfl).mono hfresh)
  | coResume => exact control_heeds ((switchImpl_heeds (Or.inr rfl) rfl).mono hfresh)
  | coStop => exact control_heeds (stopImpl_heeds.mono hfresh)
  | coInstallComponent type name placement =>
      exact control_heeds installComponentImpl_heeds
  | coUninstallComponent type name placement =>
      exact control_heeds uninstallComponentImpl_heeds
  | coInstallService valid name allowed decls =>
      exact control_heeds coInstallService_heeds
  | coUninstallService name => exact control_heeds coUninstallService_heeds
  | coInstallActor valid type => exact control_heeds coInstallActor_heeds
  | coUninstallActor type => exact control_heeds coUninstallActor_heeds
  | coBindComponent type subject name placement =>
      refine Follows.andThen bindComponentImpl_heeds ?_
      rintro _ last rfl
      exact Follows.pure rfl
  | coUnbindComponent type subject name placement =>
      refine control_heeds ((unbindComponentImpl_heeds ?_).mono
        (fun _ _ hlast => hlast.2))
      rintro op ⟨⟩

/-- Every call returns with no operation in progress. -/
theorem main_keeps (entry : Entry) :
    Keeps entry.main .fresh (fun _ last =>
      last.operation = none) :=
  Follows.relax (fun _ _ => Role.heeds_allows) (main_heeds entry)

end

end BbtFramework.App
