import BbtFramework.App.HooksInFlight

/-!
# Where operations come from

An operation goes on from one action of its thread to the next, or the action takes up its
object.  `m_lifecycle_active` is held by every transition, and an object is taken up by a
marked teardown only while `op_in_progress` is not set.
-/

namespace BbtFramework.App

open BbtFramework.Library

section

variable [Infra]

def Action.takesUp (world : AppWorld) (role : Role) : Action → Option Operation
  | .query (.findActor id) => some (.begin id .stop)
  | .command (.createComponent key) =>
      (world.createComponent key).1.toOption.map Operation.install
  | .command (.createService name allowed) =>
      (world.createService name allowed).1.toOption.map
        (fun service => .install service.id)
  | .command (.setState id _) =>
      if role.operation = none then some (.begin id .start) else none
  | .command (.checkSettled id hook) =>
      if role.operation = none then
        some (.begin id (if hook = .onPause then .pause else .resume))
      else none
  | .command (.beginStopService id) =>
      if (world.beginStopService id).1 then some (.begin id .stop) else none
  | .command (.beginStopComponent id) =>
      if (world.beginStopComponent id).1 then some (.begin id .stop) else none
  | .command (.beginUninstallComponent key) =>
      (world.beginUninstallComponent key).1.toOption.map (fun id => .begin id .uninstall)
  | .command (.beginUninstallService name) =>
      (world.beginUninstallService name).1.toOption.map (fun id => .begin id .uninstall)
  | .command (.beginUninstallActorType type) =>
      (world.beginUninstallActorType type).1.toOption.map (fun id => .begin id .uninstall)
  | _ => none

structure Operation.Goes (world last : AppWorld) (later earlier : Operation) : Prop where
  object : later.object = earlier.object
  kind : later.kind = earlier.kind
  drained : later.drained = true → earlier.drained = true ∨
    (last = world ∧ world.registry.borrowsDrained earlier.object = true)

/-- Where the operation of a role comes from after an action: it goes on, it has counted its
hook, it has learned that no hook is in flight, it has entered a hook itself, or the action
has taken up its object. -/
inductive Operation.Stems (world last : AppWorld) (act : Action) (choice : Choice)
    (role : Role) (later : Operation) : Prop where
  | kept (op : Operation) (hop : role.operation = some op)
      (hgoes : later.Goes world last op)
      (hact : ∀ id hook, act ≠ .command (.takeHook id hook))
      (hsettled : later.settled = true → op.settled = true)
      (hhook : later.hook = op.hook ∨ later.hook = none)
  | counted (op : Operation) (hop : role.operation = some op)
      (hgoes : later.Goes world last op)
      (hsettled : later.settled = true → op.settled = true ∧ last = world)
      (hhook : later.hook = none)
  | learned (op : Operation) (hop : role.operation = some op)
      (hgoes : later.Goes world last op)
      (hact : ∀ id hook, act ≠ .command (.takeHook id hook))
      (hregistry : last.registry = world.registry)
      (hsettled : later.settled = true → world.registry.hooksSettled op.object = true ∨
        (act = .command (.awaitSettled op.object) ∧ choice = .wait .completed))
      (hhook : later.hook = op.hook)
  | entered (op : Operation) (hop : role.operation = some op)
      (hgoes : later.Goes world last op)
      (hlast : last = world) (hsettled : op.settled = true)
      (hfound : (world.registry.findEntryLocked op.object).isSome = true)
  | begun (op : Operation) (htakes : act.takesUp world role = some op)
      (hobject : later.object = op.object) (hkind : later.kind = op.kind)
      (hdrained : later.drained = false)
      (hsettled : later.settled = true → last.registry.hooksSettled op.object = true)
      (hhook : ∀ hook, later.hook = some hook → hook = .onDestroy)

namespace AppWorld

variable {world last : AppWorld} {id : ObjectId}

omit [Infra] in
theorem checkSettled_answer {settled : Bool}
    (hcheck : world.checkSettled id = (settled, last)) :
    last.registry = world.registry ∧
      (settled = true → world.registry.hooksSettled id = true) := by
  unfold checkSettled at hcheck
  split at hcheck
  case isTrue hsettled =>
    cases hcheck
    exact ⟨rfl, fun _ => hsettled⟩
  case isFalse =>
    cases hcheck
    refine ⟨rfl, ?_⟩
    intro hnever
    cases hnever

theorem awaitSettled_answer {choice : Choice} {result : Except Error Unit}
    (hawait : world.awaitSettled id choice = some (result, last)) :
    last.registry = world.registry ∧ (result = .ok () → choice = .wait .completed) := by
  cases choice with
  | wait status =>
      simp only [awaitSettled] at hawait
      split at hawait
      case isTrue hcompleted =>
        split at hawait
        · cases hawait
          exact ⟨rfl, fun _ => congrArg Choice.wait hcompleted⟩
        · cases hawait
      case isFalse =>
        cases hawait
        refine ⟨rfl, ?_⟩
        intro hnever
        cases hnever
  | _ => cases hawait

theorem awaitDrained_ready {ready : Bool} {choice : Choice} {result : Except Error Unit}
    (hawait : awaitDrained ready choice = some result) : result = .ok () → ready = true := by
  rintro rfl
  cases choice with
  | proceed =>
      simp only [awaitDrained] at hawait
      split at hawait
      case isTrue hready => exact hready
      case isFalse => cases hawait
  | wait status =>
      simp only [awaitDrained] at hawait
      split at hawait
      · cases hawait
      · cases hawait
  | _ => cases hawait

end AppWorld

namespace Operation.Stems

variable {world last : AppWorld} {act : Action} {choice : Choice} {role : Role}

/-- The operation is as it was. -/
theorem same {later : Operation} (hact : ∀ id hook, act ≠ .command (.takeHook id hook))
    (hlater : role.operation = some later) : later.Stems world last act choice role :=
  .kept later hlater ⟨rfl, rfl, Or.inl⟩ hact id (Or.inl rfl)

/-- It is changed in what does not concern hooks. -/
theorem change {later : Operation} {update : Operation → Operation}
    (hact : ∀ id hook, act ≠ .command (.takeHook id hook))
    (hupdate : ∀ op, (update op).object = op.object ∧ (update op).kind = op.kind ∧
      (update op).drained = op.drained ∧ (update op).settled = op.settled ∧
      ((update op).hook = op.hook ∨ (update op).hook = none))
    (hlater : (role.change update).operation = some later) :
    later.Stems world last act choice role := by
  obtain ⟨op, hop, rfl⟩ := Option.map_eq_some_iff.mp hlater
  obtain ⟨hobject, hkind, hdrained, hsettled, hhook⟩ := hupdate op
  refine .kept op hop ⟨hobject, hkind, ?_⟩ hact ?_ hhook
  · rw [hdrained]
    exact Or.inl
  · rw [hsettled]
    exact id

theorem drainEdge {later : Operation} {component subject : ObjectId} {generation : Nat}
    (hact : ∀ id hook, act ≠ .command (.takeHook id hook))
    (hlater : (role.drainEdge component subject generation).operation = some later) :
    later.Stems world last act choice role := by
  obtain ⟨op, hop, rfl⟩ := Option.map_eq_some_iff.mp hlater
  exact .kept op hop ⟨rfl, rfl, Or.inl⟩ hact id (Or.inl rfl)

theorem drainBorrows {op later : Operation}
    (hact : ∀ id hook, act ≠ .command (.takeHook id hook)) (hop : role.operation = some op)
    (hdrained : world.registry.borrowsDrained op.object = true)
    (hlater : (role.change (fun op => { op with drained := true })).operation = some later) :
    later.Stems world world act choice role := by
  obtain ⟨known, hknown, rfl⟩ := Option.map_eq_some_iff.mp hlater
  obtain rfl := Option.some.inj (hop.symm.trans hknown)
  exact .kept op hop ⟨rfl, rfl, fun _ => Or.inr ⟨rfl, hdrained⟩⟩ hact id (Or.inl rfl)

/-- It goes on, or it begins and has seen no drain. -/
theorem traced {later : Operation} (hstems : later.Stems world last act choice role) :
    (∃ op, role.operation = some op ∧ later.Goes world last op) ∨
      ∃ op, act.takesUp world role = some op ∧ later.object = op.object ∧
        later.kind = op.kind ∧ later.drained = false := by
  cases hstems with
  | kept op hop hgoes => exact Or.inl ⟨op, hop, hgoes⟩
  | counted op hop hgoes => exact Or.inl ⟨op, hop, hgoes⟩
  | learned op hop hgoes => exact Or.inl ⟨op, hop, hgoes⟩
  | entered op hop hgoes => exact Or.inl ⟨op, hop, hgoes⟩
  | begun op htakes hobject hkind hdrained =>
      exact Or.inr ⟨op, htakes, hobject, hkind, hdrained⟩

/-- It has the object and the kind of an operation before, or of the one that begins. -/
theorem earlier {later : Operation} (hstems : later.Stems world last act choice role) :
    ∃ op, (role.operation = some op ∨ act.takesUp world role = some op) ∧
      later.object = op.object ∧ later.kind = op.kind := by
  obtain ⟨op, hop, hgoes⟩ | ⟨op, htakes, hobject, hkind, -⟩ := hstems.traced
  · exact ⟨op, Or.inl hop, hgoes.object, hgoes.kind⟩
  · exact ⟨op, Or.inr htakes, hobject, hkind⟩

end Operation.Stems

namespace Role

variable {world last : AppWorld} {choice : Choice} {role : Role} {later : Operation}

theorem stems_query {query : Query} {answer : query.Answer}
    (hallowed : allowsQuery query role) (hanswer : world.answer query choice = some answer)
    (hlater : (afterQuery query answer role).operation = some later) :
    later.Stems world world (.query query) choice role := by
  have hact : ∀ id hook, Action.query query ≠ .command (.takeHook id hook) := by
    rintro id hook ⟨⟩
  cases query with
  | loadState =>
      unfold afterQuery at hlater
      dsimp only at hlater
      split at hlater
      case h_1 op hop =>
        split at hlater
        · cases hlater
        · exact .same hact hlater
      case h_2 => exact .same hact hlater
  | findActor id =>
      cases hlater
      refine .begun _ rfl rfl rfl rfl ?_ ?_
      · intro hsettled
        cases hsettled
      · intro hook hhook
        dsimp only at hhook
        split at hhook
        · exact (Option.some.inj hhook).symm
        · cases hhook
  | enterHook id hook =>
      obtain ⟨op, hop, rfl, hsettled, -⟩ := hallowed
      obtain rfl := Option.some.inj hanswer
      unfold afterQuery at hlater
      dsimp only at hlater
      split at hlater
      case isTrue hfound =>
        obtain ⟨known, hknown, rfl⟩ := Option.map_eq_some_iff.mp hlater
        obtain rfl := Option.some.inj (hop.symm.trans hknown)
        exact .entered op hop ⟨rfl, rfl, Or.inl⟩ rfl hsettled hfound
      case isFalse => exact .same hact hlater
  | leaveHook =>
      refine .change hact ?_ hlater
      exact fun _ => ⟨rfl, rfl, rfl, rfl, Or.inr rfl⟩
  | borrowsDrained id =>
      obtain ⟨op, hop, rfl, -⟩ := hallowed
      obtain rfl := Option.some.inj hanswer
      unfold afterQuery at hlater
      dsimp only at hlater
      split at hlater
      case isTrue hdrained => exact .drainBorrows hact hop hdrained hlater
      case isFalse => exact .same hact hlater
  | awaitBorrows id =>
      obtain ⟨op, hop, rfl, -⟩ := hallowed
      have hwaited := AppWorld.awaitDrained_ready hanswer
      unfold afterQuery at hlater
      dsimp only at hlater
      split at hlater
      case h_1 => exact .drainBorrows hact hop (hwaited rfl) hlater
      case h_2 => exact .same hact hlater
  | bindingDrained component subject generation =>
      unfold afterQuery at hlater
      dsimp only at hlater
      split at hlater
      · exact .drainEdge hact hlater
      · exact .same hact hlater
  | awaitBinding component subject generation =>
      unfold afterQuery at hlater
      dsimp only at hlater
      split at hlater
      · exact .drainEdge hact hlater
      · exact .same hact hlater
  | hookInFlight id =>
      obtain ⟨op, hop, rfl⟩ := hallowed
      obtain rfl := Option.some.inj hanswer
      unfold afterQuery at hlater
      dsimp only at hlater
      split at hlater
      · exact .same hact hlater
      case isFalse hsettled =>
        obtain ⟨known, hknown, rfl⟩ := Option.map_eq_some_iff.mp hlater
        obtain rfl := Option.some.inj (hop.symm.trans hknown)
        refine .learned op hop ⟨rfl, rfl, Or.inl⟩ hact rfl (fun _ => Or.inl ?_) rfl
        simpa using hsettled
  | retiringEdges subject =>
      refine .change hact ?_ hlater
      exact fun _ => ⟨rfl, rfl, rfl, rfl, Or.inl rfl⟩
  | _ => exact .same hact hlater

omit [Infra] in
/-- The object of a new operation is the one that was made. -/
theorem install_settled {kind : ObjectKind} (hcreated : world.Created kind last) :
    last.registry.hooksSettled ⟨kind, world.registry.nextIdSeq⟩ = true := by
  obtain ⟨typeName, name, scope, ownerId, object, rfl⟩ := hcreated
  rw [Registry.hooksSettled_iff]
  intro entry hfind
  rw [Registry.findEntryLocked_append, if_pos rfl] at hfind
  cases hfind
  rfl

/-- An accepted teardown takes up its object. -/
theorem stems_begun {act : Action} (op : Operation) (htakes : act.takesUp world role = some op)
    (hsettled : op.settled = false) (hhook : op.hook = none)
    (hlater : later.object = op.object ∧ later.kind = op.kind ∧ later.drained = false ∧
      later.settled = op.settled ∧ later.hook = op.hook) :
    later.Stems world last act choice role := by
  obtain ⟨hobject, hkind, hdrained, hsame, hnone⟩ := hlater
  refine .begun op htakes hobject hkind hdrained ?_ ?_
  · rw [hsame, hsettled]
    intro hnever
    cases hnever
  · rw [hnone, hhook]
    intro hook hnever
    cases hnever

theorem stems_command {command : Command} {answer : command.Answer}
    (hallowed : allowsCommand command role)
    (happly : world.apply command choice = some (answer, last))
    (hlater : (afterCommand command answer role).operation = some later) :
    later.Stems world last (.command command) choice role := by
  by_cases htakes : ∃ id hook, command = .takeHook id hook
  · obtain ⟨id, hook, rfl⟩ := htakes
    obtain ⟨op, hop, rfl, -, hnone, -⟩ := hallowed
    replace happly := Option.some.inj happly
    unfold AppWorld.takeHook at happly
    split at happly
    · cases happly
      obtain rfl := Option.some.inj (hop.symm.trans hlater)
      exact .counted op hop ⟨rfl, rfl, Or.inl⟩ (fun hsettled => ⟨hsettled, rfl⟩) hnone
    · cases happly
      obtain ⟨known, hknown, rfl⟩ := Option.map_eq_some_iff.mp hlater
      obtain rfl := Option.some.inj (hop.symm.trans hknown)
      refine .counted op hop ⟨rfl, rfl, Or.inl⟩ ?_ hnone
      intro hsettled
      cases hsettled
  have hact : ∀ id hook, Action.command command ≠ .command (.takeHook id hook) := by
    rintro id hook ⟨⟩
    exact htakes ⟨id, hook, rfl⟩
  cases command with
  | takeHook id hook => exact absurd ⟨id, hook, rfl⟩ htakes
  | exchangeLifecycle =>
      unfold afterCommand at hlater
      dsimp only at hlater
      split at hlater
      · exact .same hact hlater
      · exact .same hact hlater
  | createComponent key =>
      replace happly := Option.some.inj happly
      obtain ⟨error, heq⟩ | ⟨made, heq, hcreated⟩ := world.createComponent_cases key
      · cases heq.symm.trans happly
        exact .same hact hlater
      · cases heq.symm.trans happly
        cases hlater
        refine .begun (.install ⟨.component, world.registry.nextIdSeq⟩) ?_ rfl rfl rfl
          (fun _ => install_settled hcreated) ?_
        · simp [Action.takesUp, heq, Except.toOption]
        · intro hook hnever
          cases hnever
  | createService name allowed =>
      replace happly := Option.some.inj happly
      obtain ⟨error, heq⟩ | ⟨made, heq, hcreated⟩ := world.createService_cases name allowed
      · cases heq.symm.trans happly
        exact .same hact hlater
      · cases heq.symm.trans happly
        cases hlater
        refine .begun (.install ⟨.service, world.registry.nextIdSeq⟩) ?_ rfl rfl rfl
          (fun _ => install_settled hcreated) ?_
        · simp [Action.takesUp, heq, Except.toOption]
        · intro hook hnever
          cases hnever
  | setState id state =>
      unfold afterCommand at hlater
      dsimp only at hlater
      cases hop : role.operation with
      | none =>
          rw [hop] at hlater
          dsimp only at hlater
          split at hlater
          · cases hlater
            exact stems_begun (.begin id .start) (if_pos hop) rfl rfl ⟨rfl, rfl, rfl, rfl, rfl⟩
          · exact .same hact hlater
      | some op =>
          rw [hop] at hlater
          dsimp only at hlater
          split at hlater
          · cases hlater
          · exact .same hact hlater
  | checkSettled id hook =>
      obtain ⟨hregistry, hanswer⟩ := AppWorld.checkSettled_answer (Option.some.inj happly)
      unfold afterCommand at hlater
      dsimp only at hlater
      cases hop : role.operation with
      | none =>
          rw [hop] at hlater
          cases hlater
          refine .begun _ (if_pos hop) rfl rfl rfl ?_ ?_
          · intro hsettled
            rw [hregistry]
            exact hanswer hsettled
          · intro hook hnever
            cases hnever
      | some op =>
          rw [hop] at hlater
          cases hlater
          have hobject : op.object = id := by
            simp only [allowsCommand, hop] at hallowed
            exact hallowed.1
          refine .learned op hop ⟨rfl, rfl, Or.inl⟩ hact hregistry (fun hsettled => Or.inl ?_) rfl
          rw [hobject]
          exact hanswer hsettled
  | awaitSettled id =>
      obtain ⟨op, hop, rfl⟩ := hallowed
      obtain ⟨hregistry, hwaited⟩ := AppWorld.awaitSettled_answer happly
      unfold afterCommand at hlater
      dsimp only at hlater
      split at hlater
      case h_1 =>
        obtain ⟨known, hknown, rfl⟩ := Option.map_eq_some_iff.mp hlater
        obtain rfl := Option.some.inj (hop.symm.trans hknown)
        exact .learned op hop ⟨rfl, rfl, Or.inl⟩ hact hregistry
          (fun _ => Or.inr ⟨rfl, hwaited rfl⟩) rfl
      case h_2 => exact .same hact hlater
  | beginStopService id =>
      replace happly := Option.some.inj happly
      unfold afterCommand at hlater
      dsimp only at hlater
      split at hlater
      case isTrue hbegun =>
        cases hlater
        refine stems_begun (.begin id .stop) ?_ rfl rfl ⟨rfl, rfl, rfl, rfl, rfl⟩
        simp [Action.takesUp, happly, hbegun]
      case isFalse => exact .same hact hlater
  | beginStopComponent id =>
      replace happly := Option.some.inj happly
      unfold afterCommand at hlater
      dsimp only at hlater
      split at hlater
      case isTrue hbegun =>
        cases hlater
        refine stems_begun (.begin id .stop) ?_ rfl rfl ⟨rfl, rfl, rfl, rfl, rfl⟩
        simp [Action.takesUp, happly, hbegun]
      case isFalse => exact .same hact hlater
  | beginUninstallComponent key =>
      replace happly := Option.some.inj happly
      change Except Error ObjectId at answer
      cases answer with
      | error error => exact .same hact hlater
      | ok id =>
          cases hlater
          refine stems_begun (.begin id .uninstall) ?_ rfl rfl ⟨rfl, rfl, rfl, rfl, rfl⟩
          simp [Action.takesUp, happly, Except.toOption]
  | beginUninstallService name =>
      replace happly := Option.some.inj happly
      change Except Error ObjectId at answer
      cases answer with
      | error error => exact .same hact hlater
      | ok id =>
          cases hlater
          refine stems_begun (.begin id .uninstall) ?_ rfl rfl ⟨rfl, rfl, rfl, rfl, rfl⟩
          simp [Action.takesUp, happly, Except.toOption]
  | beginUninstallActorType type =>
      replace happly := Option.some.inj happly
      change Except Error ObjectId at answer
      cases answer with
      | error error => exact .same hact hlater
      | ok id =>
          cases hlater
          refine stems_begun (.begin id .uninstall) ?_ rfl rfl ⟨rfl, rfl, rfl, rfl, rfl⟩
          simp [Action.takesUp, happly, Except.toOption]
  | sealSubjectEdges subject =>
      refine .change hact ?_ hlater
      exact fun _ => ⟨rfl, rfl, rfl, rfl, Or.inl rfl⟩
  | eraseSubjectEdges subject =>
      refine .change hact ?_ hlater
      exact fun _ => ⟨rfl, rfl, rfl, rfl, Or.inl rfl⟩
  | eraseSubjectEdgesOn subject components =>
      refine .change hact ?_ hlater
      exact fun _ => ⟨rfl, rfl, rfl, rfl, Or.inl rfl⟩
  | finishDestroy id => cases hlater
  | abortDestroy id phase incomplete => cases hlater
  | beginUnbind subject key =>
      unfold afterCommand at hlater
      dsimp only at hlater
      split at hlater
      · exact .same hact hlater
      · exact .same hact hlater
  | _ => exact .same hact hlater

theorem stems {act : Action} {answer : act.Answer} (hallowed : allows act role)
    (hperform : world.perform act choice = some (answer, last))
    (hlater : (after act answer role).operation = some later) :
    later.Stems world last act choice role := by
  cases act with
  | query query =>
      obtain ⟨hanswer, rfl⟩ := AppWorld.perform_query hperform
      exact stems_query hallowed hanswer hlater
  | command command =>
      exact stems_command hallowed (AppWorld.perform_command hperform) hlater

/-! ## The flags -/

omit [Infra] in
theorem tracksLifecycle : TracksLifecycle .fresh appDiscipline Role.lifecycle where
  fresh := rfl
  taken := fun _ => rfl
  refused := fun _ => rfl
  released := fun _ => rfl
  release := fun _ hallowed => hallowed.2
  query := by
    rintro query answer ⟨lifecycle, operation, unbinding⟩
    cases query with
    | loadState =>
        cases operation with
        | none => rfl
        | some op =>
            change AppState at answer
            change (if op.kind = OperationKind.install ∧ answer ≠ AppState.running then
              (⟨lifecycle, none, unbinding⟩ : Role)
              else ⟨lifecycle, some op, unbinding⟩).lifecycle = lifecycle
            split
            · rfl
            · rfl
    | enterHook id hook => cases (show Bool from answer) <;> rfl
    | borrowsDrained id => cases (show Bool from answer) <;> rfl
    | awaitBorrows id => cases (show Except Error Unit from answer) <;> rfl
    | bindingDrained component subject generation =>
        cases (show Bool from answer) <;> rfl
    | awaitBinding component subject generation =>
        cases (show Except Error Unit from answer) <;> rfl
    | hookInFlight id => cases (show Bool from answer) <;> rfl
    | _ => rfl
  command := by
    rintro command answer ⟨lifecycle, operation, unbinding⟩ hwrites
    cases command with
    | exchangeLifecycle => cases hwrites
    | releaseLifecycle => cases hwrites
    | createComponent key => cases (show Except Error ObjectId from answer) <;> rfl
    | createService name allowed =>
        cases (show Except Error ObjectHandle from answer) <;> rfl
    | setState id state => cases operation <;> cases state <;> rfl
    | checkSettled id hook => cases operation <;> rfl
    | awaitSettled id => cases (show Except Error Unit from answer) <;> rfl
    | takeHook id hook => cases (show Option Nat from answer) <;> rfl
    | beginStopService id => cases (show Bool from answer) <;> rfl
    | beginStopComponent id => cases (show Bool from answer) <;> rfl
    | beginUninstallComponent key => cases (show Except Error ObjectId from answer) <;> rfl
    | beginUninstallService name => cases (show Except Error ObjectId from answer) <;> rfl
    | beginUninstallActorType type =>
        cases (show Except Error ObjectId from answer) <;> rfl
    | beginUnbind subject key => cases (show Except Error EdgeName from answer) <;> rfl
    | _ => rfl

/-- A transition holds `m_lifecycle_active`. -/
def HoldsFlag (role : Role) : Prop :=
  ∀ op, role.operation = some op → op.kind.inLifecycle = true → role.lifecycle = true

omit [Infra] in
/-- Neither an installation nor an uninstall is a transition. -/
theorem not_inLifecycle {Value : Type} {made : Except Error Value} {begun : Value → Operation}
    {op : Operation} (hbegun : ∀ value, (begun value).kind.inLifecycle = false)
    (htakes : made.toOption.map begun = some op) : op.kind.inLifecycle = false := by
  obtain ⟨value, -, rfl⟩ := Option.map_eq_some_iff.mp htakes
  exact hbegun value

theorem lifecycle_of_takesUp {act : Action} {op : Operation} (hallowed : allows act role)
    (htakes : act.takesUp world role = some op) (hkind : op.kind.inLifecycle = true) :
    role.lifecycle = true := by
  have hnever : op.kind.inLifecycle = false → role.lifecycle = true := by
    intro hother
    rw [hkind] at hother
    cases hother
  cases act with
  | query query =>
      cases query with
      | findActor id => exact hallowed.2.1
      | _ => cases htakes
  | command command =>
      cases command with
      | createComponent key => exact hnever (not_inLifecycle (fun _ => rfl) htakes)
      | createService name allowed => exact hnever (not_inLifecycle (fun _ => rfl) htakes)
      | setState id state =>
          cases hop : role.operation with
          | none =>
              simp only [allows, allowsCommand, hop] at hallowed
              exact hallowed.2
          | some known => simp [Action.takesUp, hop] at htakes
      | checkSettled id hook =>
          cases hop : role.operation with
          | none =>
              simp only [allows, allowsCommand, hop] at hallowed
              exact hallowed.2
          | some known => simp [Action.takesUp, hop] at htakes
      | beginStopService id => exact hallowed.2.1
      | beginStopComponent id => exact hallowed.2.1
      | beginUninstallComponent key => exact hnever (not_inLifecycle (fun _ => rfl) htakes)
      | beginUninstallService name => exact hnever (not_inLifecycle (fun _ => rfl) htakes)
      | beginUninstallActorType type => exact hnever (not_inLifecycle (fun _ => rfl) htakes)
      | _ => cases htakes

omit [Infra] in
/-- The flag is taken and given up without an operation. -/
theorem lifecycle_after {act : Action} {answer : act.Answer} (hallowed : allows act role)
    (hlater : (after act answer role).operation = some later) :
    (after act answer role).lifecycle = role.lifecycle := by
  cases act with
  | query query => exact tracksLifecycle.query query answer role
  | command command =>
      cases command with
      | exchangeLifecycle =>
          obtain rfl : role = fresh := hallowed
          change Bool at answer
          cases answer with
          | true => cases hlater
          | false => cases hlater
      | releaseLifecycle =>
          have hnone : role.operation = none := hallowed.1
          have hsome : role.operation = some later := hlater
          rw [hnone] at hsome
          cases hsome
      | _ => exact tracksLifecycle.command _ answer role rfl

theorem HoldsFlag.after {act : Action} {answer : act.Answer} (hholds : role.HoldsFlag)
    (hallowed : allows act role)
    (hperform : world.perform act choice = some (answer, last)) :
    (after act answer role).HoldsFlag := by
  intro later hlater hkind
  rw [lifecycle_after hallowed hlater]
  obtain ⟨op, hop | htakes, -, hsame⟩ := (stems hallowed hperform hlater).earlier
  · exact hholds op hop (hsame ▸ hkind)
  · exact lifecycle_of_takesUp hallowed htakes (hsame ▸ hkind)

omit [Infra] in
theorem free_of_takesDown {kind : ObjectKind} {phase : String}
    {result : Except Error ObjectId × AppWorld} {op : Operation}
    (hresult : world.TakesDown kind phase result)
    (htakes : result.1.toOption.map (fun id => Operation.begin id .uninstall) = some op) :
    ∃ entry, world.registry.findEntryLocked op.object = some entry ∧
      entry.opInProgress = false := by
  obtain ⟨error, rfl⟩ | ⟨id, entry, -, hfind, hfree, -, rfl⟩ := hresult
  · cases htakes
  · cases htakes
    exact ⟨entry, hfind, hfree⟩

theorem free_of_takesUp {act : Action} {op : Operation} (hallowed : allows act role)
    (htakes : act.takesUp world role = some op) (hmarks : op.marks = true) :
    ∃ entry, world.registry.findEntryLocked op.object = some entry ∧
      entry.opInProgress = false := by
  cases act with
  | query query =>
      cases query with
      | findActor id =>
          cases htakes
          simp [Operation.marks, Operation.begin, hallowed.2.2] at hmarks
      | _ => cases htakes
  | command command =>
      cases command with
      | createComponent key =>
          obtain ⟨id, -, rfl⟩ := Option.map_eq_some_iff.mp htakes
          cases hmarks
      | createService name allowed =>
          obtain ⟨service, -, rfl⟩ := Option.map_eq_some_iff.mp htakes
          cases hmarks
      | setState id state =>
          simp only [Action.takesUp] at htakes
          split at htakes
          · cases htakes
            cases hmarks
          · cases htakes
      | checkSettled id hook =>
          simp only [Action.takesUp] at htakes
          split at htakes
          · cases htakes
            split at hmarks
            · cases hmarks
            · cases hmarks
          · cases htakes
      | beginStopService id =>
          simp only [Action.takesUp] at htakes
          obtain heq | ⟨entry, hfind, hfree, heq⟩ := world.beginStopService_cases id
          · rw [heq] at htakes
            cases htakes
          · rw [heq] at htakes
            cases htakes
            exact ⟨entry, hfind, hfree⟩
      | beginStopComponent id =>
          simp only [Action.takesUp] at htakes
          obtain heq | ⟨entry, hfind, hfree, heq⟩ := world.beginStopComponent_cases id
          · rw [heq] at htakes
            cases htakes
          · rw [heq] at htakes
            cases htakes
            exact ⟨entry, hfind, hfree⟩
      | beginUninstallComponent key =>
          exact free_of_takesDown (world.beginUninstallComponent_takesDown key) htakes
      | beginUninstallService name =>
          exact free_of_takesDown (world.beginUninstallService_takesDown name) htakes
      | beginUninstallActorType type =>
          exact free_of_takesDown (world.beginUninstallActorType_takesDown type) htakes
      | _ => cases htakes

end Role

end

end BbtFramework.App
