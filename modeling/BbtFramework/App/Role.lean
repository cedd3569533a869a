import BbtFramework.App.Operations

/-!
# What an operation knows

The role of a thread records which object its operation works on and what its
critical sections have told it so far: that no hook was in flight, that the
borrows were drained, which edges are still to be drained.  The discipline
states the order in which the operations perform their critical sections, and
every operation is shown to follow it.
-/

namespace BbtFramework.App

open BbtFramework.Library

inductive OperationKind where
  | install
  | start
  | pause
  | resume
  | stop
  | uninstall
  deriving DecidableEq, Repr

namespace OperationKind

/-- The kinds that `m_lifecycle_active` keeps apart. -/
def inLifecycle : OperationKind → Bool
  | .start | .pause | .resume | .stop => true
  | _ => false

/-- The kinds that end in the destruction of the object. -/
def closes : OperationKind → Bool
  | .stop | .uninstall => true
  | _ => false

end OperationKind

/-- How far a teardown has come with the edges of its subject: sealed, listed
with those not yet seen drained, or erased. -/
inductive EdgePhase where
  | untouched
  | sealed
  | listed (all pending : List EdgeName)
  | cleared
  deriving DecidableEq, Repr

/-- An operation on one object: whether no hook was in flight when it looked
last, whether the borrows were drained, and the hook it runs itself. -/
structure Operation where
  object : ObjectId
  kind : OperationKind
  settled : Bool
  drained : Bool
  edges : EdgePhase
  hook : Option Hook
  deriving DecidableEq, Repr

namespace Operation

def begin (object : ObjectId) (kind : OperationKind) : Operation where
  object := object
  kind := kind
  settled := false
  drained := false
  edges := .untouched
  hook := none

/-- A new object has no hook in flight. -/
def install (object : ObjectId) : Operation :=
  { begin object .install with settled := true }

/-- The kinds that go through `op_in_progress`; the teardown of an actor by
`CoStop` does not. -/
def marks (op : Operation) : Bool :=
  op.kind = .uninstall ∨ (op.kind = .stop ∧ op.object.kind ≠ .actor)

theorem marks_of_closes {op : Operation} (hcloses : op.kind.closes = true)
    (hkind : op.object.kind ≠ .actor) : op.marks = true := by
  cases hop : op.kind with
  | uninstall => simp [marks, hop]
  | stop => simp [marks, hop, hkind]
  | _ =>
      rw [hop] at hcloses
      cases hcloses

/-- The code itself keeps two operations on one object apart. -/
def excludes (op other : Operation) : Bool :=
  (op.kind.inLifecycle ∧ other.kind.inLifecycle) ∨ (op.marks ∧ other.marks)

end Operation

/-- The edge an unbind works on. -/
structure Unbinding where
  component : ObjectId
  subject : ObjectId
  generation : Nat
  drained : Bool
  deriving DecidableEq, Repr

structure Role where
  lifecycle : Bool
  operation : Option Operation
  unbinding : Option Unbinding
  deriving DecidableEq, Repr

namespace Role

def fresh : Role :=
  ⟨false, none, none⟩

def change (role : Role) (update : Operation → Operation) : Role :=
  { role with operation := role.operation.map update }

def drainEdge (role : Role) (component subject : ObjectId) (generation : Nat) :
    Role where
  lifecycle := role.lifecycle
  operation := role.operation.map (fun op =>
    { op with
      edges := match op.edges with
        | .listed all pending => .listed all (pending.erase (component, generation))
        | phase => phase })
  unbinding := role.unbinding.map (fun edge =>
    if edge.component = component ∧ edge.subject = subject ∧
        edge.generation = generation then
      { edge with drained := true }
    else edge)

def afterQuery : (query : Query) → query.Answer → Role → Role
  -- An installation is over when the application does not run.
  | .loadState, (state : AppState), role =>
      match role.operation with
      | some op =>
          if op.kind = .install ∧ state ≠ .running then
            { role with operation := none }
          else role
      | none => role
  | .findActor id, (present : Bool), role =>
      { role with
        operation := some { Operation.begin id .stop with
          hook := if present then some .onDestroy else none } }
  | .enterHook _ hook, (found : Bool), role =>
      if found then role.change (fun op => { op with hook := some hook }) else role
  | .leaveHook, _, role => role.change (fun op => { op with hook := none })
  | .borrowsDrained _, (drained : Bool), role =>
      if drained then role.change (fun op => { op with drained := true }) else role
  | .awaitBorrows _, (result : Except Error Unit), role =>
      match result with
      | .ok () => role.change (fun op => { op with drained := true })
      | .error _ => role
  | .bindingDrained component subject generation, (drained : Bool), role =>
      if drained then role.drainEdge component subject generation else role
  | .awaitBinding component subject generation, (result : Except Error Unit), role =>
      match result with
      | .ok () => role.drainEdge component subject generation
      | .error _ => role
  | .hookInFlight _, (inFlight : Bool), role =>
      if inFlight then role else role.change (fun op => { op with settled := true })
  | .retiringEdges _, (edges : List EdgeName), role =>
      role.change (fun op => { op with edges := .listed edges edges })
  | _, _, role => role

/-- The state a transition ends in. -/
def final : ObjectState → Bool
  | .running | .paused | .failed | .installFailed => true
  | _ => false

def afterCommand : (command : Command) → command.Answer → Role → Role
  | .exchangeLifecycle, (active : Bool), role =>
      if active then role else { role with lifecycle := true }
  | .releaseLifecycle, _, role => { role with lifecycle := false }
  | .createComponent _, (created : Except Error ObjectId), role =>
      match created with
      | .ok id => { role with operation := some (.install id) }
      | .error _ => role
  | .createService _ _, (created : Except Error ObjectHandle), role =>
      match created with
      | .ok handle => { role with operation := some (.install handle.id) }
      | .error _ => role
  | .setState id state, _, role =>
      match role.operation with
      | none =>
          if state = .starting then
            { role with operation := some (.begin id .start) }
          else role
      | some _ => if final state then { role with operation := none } else role
  | .checkSettled id hook, (settled : Bool), role =>
      match role.operation with
      | none =>
          { role with
            operation := some { Operation.begin id
              (if hook = .onPause then .pause else .resume) with
                settled := settled } }
      | some op => { role with operation := some { op with settled := settled } }
  | .awaitSettled _, (result : Except Error Unit), role =>
      match result with
      | .ok () => role.change (fun op => { op with settled := true })
      | .error _ => role
  | .takeHook _ _, (taken : Option Nat), role =>
      match taken with
      | some _ => role.change (fun op => { op with settled := false })
      | none => role
  | .beginStopService id, (begun : Bool), role =>
      if begun then
        { role with operation := some { Operation.begin id .stop with
          edges := .sealed } }
      else role
  | .beginStopComponent id, (begun : Bool), role =>
      if begun then { role with operation := some (.begin id .stop) } else role
  | .beginUninstallComponent _, (begun : Except Error ObjectId), role
  | .beginUninstallService _, (begun : Except Error ObjectId), role
  | .beginUninstallActorType _, (begun : Except Error ObjectId), role =>
      match begun with
      | .ok id => { role with operation := some (.begin id .uninstall) }
      | .error _ => role
  | .sealSubjectEdges _, (edges : List EdgeName), role =>
      role.change (fun op => { op with edges := .listed edges edges })
  | .eraseSubjectEdges _, _, role
  | .eraseSubjectEdgesOn _ _, _, role =>
      role.change (fun op => { op with edges := .cleared })
  | .finishDestroy _, _, role
  | .abortDestroy _ _ _, _, role => { role with operation := none }
  | .beginUnbind subject _, (begun : Except Error EdgeName), role =>
      match begun with
      | .ok edge =>
          { role with unbinding := some ⟨edge.1, subject, edge.2, false⟩ }
      | .error _ => role
  | .finishUnbind _ _ _ _ _, _, role => { role with unbinding := none }
  | _, _, role => role

def after : (act : Action) → act.Answer → Role → Role
  | .query read, answer, role => afterQuery read answer role
  | .command write, answer, role => afterCommand write answer role

def Works (role : Role) (test : Operation → Prop) : Prop :=
  ∃ op, role.operation = some op ∧ test op

def allowsQuery : Query → Role → Prop
  | .findActor id, role =>
      role.operation = none ∧ role.lifecycle = true ∧ id.kind = .actor
  | .enterHook id _, role =>
      role.Works (fun op => op.object = id ∧ op.settled = true ∧ op.hook = none)
  | .borrowsDrained id, role | .awaitBorrows id, role =>
      role.Works (fun op => op.object = id ∧ op.kind.closes = true)
  | .bindingDrained _ subject _, role | .awaitBinding _ subject _, role =>
      ∀ op, role.operation = some op → op.edges = .untouched ∨ op.object = subject
  | .hookInFlight id, role => role.Works (fun op => op.object = id)
  | .retiringEdges subject, role =>
      role.Works (fun op => op.object = subject ∧ op.edges = .sealed)
  | _, _ => True

def allowsCommand : Command → Role → Prop
  | .exchangeLifecycle, role => role = fresh
  | .releaseLifecycle, role => role.operation = none ∧ role.lifecycle = true
  | .createComponent _, role | .createService _ _, role => role.operation = none
  | .setState id state, role =>
      match role.operation with
      | none => state = .starting ∧ role.lifecycle = true
      | some op => op.object = id ∧ op.kind.closes = false ∧ op.hook = none
  | .checkSettled id hook, role =>
      match role.operation with
      | none => (hook = .onPause ∨ hook = .onResume) ∧ role.lifecycle = true
      | some op => op.object = id ∧ op.hook = none
  | .awaitSettled id, role =>
      role.Works (fun op => op.object = id)
  | .takeHook id hook, role =>
      role.Works (fun op => op.object = id ∧ op.settled = true ∧ op.hook = none ∧
        (hook = .onStop → op.kind.closes = true ∧
          (id.kind = .component → op.drained = true)))
  | .beginStopService id, role =>
      role.operation = none ∧ role.lifecycle = true ∧ id.kind = .service
  | .beginStopComponent id, role =>
      role.operation = none ∧ role.lifecycle = true ∧ id.kind = .component
  | .beginUninstallComponent _, role | .beginUninstallService _, role
  | .beginUninstallActorType _, role => role.operation = none
  | .sealSubjectEdges subject, role =>
      role.Works (fun op => op.object = subject ∧ op.marks = true)
  | .eraseSubjectEdges subject, role =>
      role.Works (fun op => op.object = subject ∧ op.marks = true ∧
        ∃ all, op.edges = .listed all [])
  | .eraseSubjectEdgesOn subject components, role =>
      role.Works (fun op => op.object = subject ∧ op.marks = true ∧
        ∃ all, op.edges = .listed all [] ∧ ∀ edge ∈ all, edge.1 ∈ components)
  | .finishDestroy id, role =>
      role.Works (fun op => op.object = id ∧ op.kind.closes = true ∧ op.hook = none ∧
        (id.kind = .service → op.edges = .cleared) ∧
        (id.kind = .component → op.drained = true)) ∧ id.kind ≠ .app
  | .abortDestroy id phase incomplete, role =>
      role.Works (fun op => op.object = id ∧ op.marks = true ∧ op.hook = none) ∧
        phase ≠ "" ∧ (incomplete = .stopIncomplete ∨ incomplete = .uninstallIncomplete)
  | .finishUnbind component subject generation _ _, role =>
      role.unbinding = some ⟨component, subject, generation, true⟩
  | _, _ => True

def allows : Action → Role → Prop
  | .query read, role => allowsQuery read role
  | .command write, role => allowsCommand write role

def possibleQuery : (query : Query) → query.Answer → Prop
  | .startLists, (lists : List ObjectId × List ObjectId) =>
      (∀ id ∈ lists.1, id.kind = .component) ∧ ∀ id ∈ lists.2, id.kind = .service
  | .listServices _, (services : List ObjectId) => ∀ id ∈ services, id.kind = .service
  | .stopLists, (lists : StopLists) =>
      (∀ id ∈ lists.services, id.kind = .service) ∧
        (∀ id ∈ lists.actors, id.kind = .actor) ∧
        (∀ id ∈ lists.scopedComponents, id.kind = .component) ∧
        ∀ id ∈ lists.appComponents, id.kind = .component
  | _, _ => True

def possibleCommand : (command : Command) → command.Answer → Prop
  | .createComponent _, (created : Except Error ObjectId) =>
      ∀ id, created = .ok id → id.kind = .component
  | .createService _ _, (created : Except Error ObjectHandle) =>
      ∀ handle, created = .ok handle → handle.id.kind = .service
  | .beginUninstallComponent _, (begun : Except Error ObjectId) =>
      ∀ id, begun = .ok id → id.kind = .component
  | .beginUninstallService _, (begun : Except Error ObjectId) =>
      ∀ id, begun = .ok id → id.kind = .service
  | .beginUninstallActorType _, (begun : Except Error ObjectId) =>
      ∀ id, begun = .ok id → id.kind = .actor
  | _, _ => True

def possible : (act : Action) → act.Answer → Prop
  | .query read, answer => possibleQuery read answer
  | .command write, answer => possibleCommand write answer

end Role

/-- The order of critical sections that all operations keep to. -/
def appDiscipline : Discipline Action Action.Answer Role where
  allows := Role.allows
  possible := Role.possible
  after := Role.after

/-- All edges of the object were seen drained, or erased after that. -/
def Operation.EdgesDrained (op : Operation) : Prop :=
  (∃ all, op.edges = .listed all []) ∨ op.edges = .cleared

namespace Role

/-- A declared binding is recorded for a service, and `OnStop` of a service needs the
edges of the service drained. -/
def heeds : Action → Role → Prop
  | .command (.recordBinding subject _ _ _ _), _ => subject.kind = .service
  | .command (.takeHook id hook), role =>
      allowsCommand (.takeHook id hook) role ∧
        (hook = .onStop → id.kind = .service → role.Works Operation.EdgesDrained)
  | act, role => allows act role

theorem heeds_allows {act : Action} {role : Role} (hheeds : heeds act role) :
    allows act role := by
  cases act with
  | query query => exact hheeds
  | command command =>
      cases command with
      | recordBinding subject type name object generation => trivial
      | takeHook id hook => exact hheeds.1
      | _ => exact hheeds

end Role

/-- The order of critical sections with these needs. -/
def carefulDiscipline : Discipline Action Action.Answer Role :=
  { appDiscipline with allows := Role.heeds }

end BbtFramework.App
