import BbtFramework.App.Conduct

/-!
# What the actions do

One lemma for each writing action says what it answers and how it changes the state.
-/

namespace BbtFramework.App

open BbtFramework.Library

namespace Registry

variable {registry : Registry}

theorem mem_listIdsByKind {kind : ObjectKind} {id : ObjectId} :
    id ∈ registry.listIdsByKindLocked kind ↔
      id.kind = kind ∧ ∃ entry, registry.findEntryLocked id = some entry := by
  rw [listIdsByKindLocked, List.mem_filter, decide_eq_true_iff, listIdsLocked,
    Table.mem_order]
  constructor
  · rintro ⟨hmem, hkind⟩
    exact ⟨hkind, Table.exists_lookup_of_mem hmem⟩
  · rintro ⟨hkind, entry, hfind⟩
    exact ⟨Table.mem_of_lookup hfind, hkind⟩

theorem mem_dependencies {id target : ObjectId} :
    target ∈ registry.dependencies id ↔ target.kind = .component ∧
      ∃ entry, registry.findEntryLocked target = some entry ∧
        ∃ edge ∈ entry.bindings, edge.subjectId = id := by
  simp only [dependencies, List.mem_flatMap, mem_listIdsByKind]
  constructor
  · rintro ⟨component, ⟨hkind, entry, hfind⟩, hmem⟩
    rw [hfind] at hmem
    obtain ⟨edge, hedge, rfl⟩ := List.mem_map.mp hmem
    rw [List.mem_filter, decide_eq_true_eq] at hedge
    exact ⟨hkind, entry, hfind, edge, hedge⟩
  · rintro ⟨hkind, entry, hfind, edge, hedge, hsubject⟩
    refine ⟨target, ⟨hkind, entry, hfind⟩, ?_⟩
    rw [hfind]
    exact List.mem_map.mpr
      ⟨edge, List.mem_filter.mpr ⟨hedge, decide_eq_true hsubject⟩, rfl⟩

theorem closed_dependencies (registry : Registry) :
    Closed registry.dependencies (registry.listIdsByKindLocked .component) := by
  intro id _ target htarget
  obtain ⟨hkind, entry, hfind, -⟩ := mem_dependencies.mp htarget
  exact mem_listIdsByKind.mpr ⟨hkind, entry, hfind⟩

theorem mem_startOrder {id : ObjectId} :
    id ∈ registry.componentStartOrderLocked.order ↔
      id ∈ registry.listIdsByKindLocked .component :=
  ⟨fun hmem => postOrder_subset registry.closed_dependencies hmem,
    mem_postOrder registry.closed_dependencies⟩

theorem kind_of_mem_startOrder {id : ObjectId}
    (hmem : id ∈ registry.componentStartOrderLocked.order) :
    id.kind = .component :=
  (mem_listIdsByKind.mp (mem_startOrder.mp hmem)).1

variable [Infra]

theorem createEntryLocked_cases (registry : Registry) (kind : ObjectKind)
    (typeName name : String) (scope : ComponentScope) (ownerId : Option ObjectId)
    (state : ObjectState) (object : Option ObjectBase) :
    (∃ error, registry.createEntryLocked kind typeName name scope ownerId state
      object = .error error) ∨
      registry.createEntryLocked kind typeName name scope ownerId state object =
        .ok (⟨kind, registry.nextIdSeq⟩, registry.append kind
          (.created typeName name scope ownerId state object)) := by
  unfold createEntryLocked
  split
  · exact Or.inl ⟨_, rfl⟩
  · exact Or.inr rfl

theorem beginDestroyLocked_cases (registry : Registry) (id : ObjectId) :
    (∃ error, registry.beginDestroyLocked id = .error error) ∨
      ∃ entry, registry.findEntryLocked id = some entry ∧
        entry.opInProgress = false ∧ (id.kind = .component → entry.bindings = []) ∧
        registry.beginDestroyLocked id =
          .ok { entry with gateClosed := true, opInProgress := true } := by
  unfold beginDestroyLocked
  cases hfind : registry.findEntryLocked id with
  | none => exact Or.inl ⟨_, rfl⟩
  | some entry =>
      dsimp only
      split
      · exact Or.inl ⟨_, rfl⟩
      case isFalse hbound =>
        split
        · exact Or.inl ⟨_, rfl⟩
        case isFalse hbusy =>
          refine Or.inr ⟨entry, rfl, by simpa using hbusy, ?_, rfl⟩
          intro hkind
          by_contra hbindings
          exact hbound ⟨hkind, hbindings⟩

end Registry

def ObjectKind.installState : ObjectKind → ObjectState
  | .actor => .installed
  | _ => .installing

namespace AppWorld

variable [Infra] {world last : AppWorld}

/-- The state after a new entry was made. -/
def Created (world : AppWorld) (kind : ObjectKind) (last : AppWorld) : Prop :=
  ∃ typeName name scope ownerId object, last = { world with
    registry := world.registry.append kind
      (.created typeName name scope ownerId kind.installState object) }

theorem createComponent_cases (world : AppWorld) (key : ComponentKey) :
    (∃ error, world.createComponent key = (.error error, world)) ∨
      ∃ last, world.createComponent key =
        (.ok ⟨.component, world.registry.nextIdSeq⟩, last) ∧
          world.Created .component last := by
  unfold createComponent
  split
  · exact Or.inl ⟨_, rfl⟩
  · obtain ⟨error, hcreate⟩ | hcreate := world.registry.createEntryLocked_cases
      .component key.type key.name key.scope key.ownerId .installing (some ⟨[], []⟩)
    · rw [hcreate]
      exact Or.inl ⟨error, rfl⟩
    · rw [hcreate]
      exact Or.inr ⟨_, rfl, _, _, _, _, _, rfl⟩

theorem createService_cases (world : AppWorld) (name : String)
    (allowed : List String) :
    (∃ error, world.createService name allowed = (.error error, world)) ∨
      ∃ last, world.createService name allowed =
        (.ok ⟨true, ⟨.service, world.registry.nextIdSeq⟩,
          world.registry.nextGeneration⟩, last) ∧ world.Created .service last := by
  unfold createService
  split
  · exact Or.inl ⟨_, rfl⟩
  · obtain ⟨error, hcreate⟩ | hcreate := world.registry.createEntryLocked_cases
      .service name name .app none .installing (some ⟨allowed, []⟩)
    · rw [hcreate]
      exact Or.inl ⟨error, rfl⟩
    · rw [hcreate]
      exact Or.inr ⟨_, rfl, _, _, _, _, _, rfl⟩

theorem createActorType_cases (world : AppWorld) (type : String) :
    (∃ error, world.createActorType type = (.error error, world)) ∨
      ∃ last, world.createActorType type = (.ok (), last) ∧
        world.Created .actor last := by
  unfold createActorType
  split
  · exact Or.inl ⟨_, rfl⟩
  · obtain ⟨error, hcreate⟩ | hcreate := world.registry.createEntryLocked_cases
      .actor type "" .app none .installed none
    · rw [hcreate]
      exact Or.inl ⟨error, rfl⟩
    · rw [hcreate]
      exact Or.inr ⟨_, rfl, _, _, _, _, _, rfl⟩

omit [Infra] in
theorem bind_beginOpLocked_some {id : ObjectId} {begun : RegistryEntry}
    (hbegin : (world.registry.findEntryLocked id).bind Registry.beginOpLocked =
      some begun) :
    ∃ entry, world.registry.findEntryLocked id = some entry ∧
      entry.opInProgress = false ∧ begun = { entry with opInProgress := true } := by
  obtain ⟨entry, hfind, hop⟩ := Option.bind_eq_some_iff.mp hbegin
  unfold Registry.beginOpLocked at hop
  split at hop
  · cases hop
  case isFalse hfree =>
    cases hop
    exact ⟨entry, hfind, by simpa using hfree, rfl⟩

omit [Infra] in
theorem beginStopComponent_cases (world : AppWorld) (id : ObjectId) :
    world.beginStopComponent id = (false, world) ∨
      ∃ entry, world.registry.findEntryLocked id = some entry ∧
        entry.opInProgress = false ∧
        world.beginStopComponent id = (true, world.store id
          { entry with opInProgress := true, destroyPhase := "stop"
                       state := .stopping }) := by
  unfold beginStopComponent
  split
  · exact Or.inl rfl
  case h_2 begun hbegin =>
    obtain ⟨entry, hfind, hfree, rfl⟩ := bind_beginOpLocked_some hbegin
    exact Or.inr ⟨entry, hfind, hfree, rfl⟩

omit [Infra] in
theorem beginStopService_cases (world : AppWorld) (id : ObjectId) :
    world.beginStopService id = (false, world) ∨
      ∃ entry, world.registry.findEntryLocked id = some entry ∧
        entry.opInProgress = false ∧
        world.beginStopService id = (true, (world.store id
          { entry with opInProgress := true, destroyPhase := "stop"
                       state := .stopping }).modifyComponents
            (fun _ component =>
              { component with
                bindings := Registry.sealEdge id component.bindings })) := by
  unfold beginStopService
  split
  · exact Or.inl rfl
  case h_2 begun hbegin =>
    obtain ⟨entry, hfind, hfree, rfl⟩ := bind_beginOpLocked_some hbegin
    exact Or.inr ⟨entry, hfind, hfree, rfl⟩

/-- What the first critical section of an uninstall leaves: it is refused, or it
takes up an entry on which no operation is in progress. -/
def TakesDown (world : AppWorld) (kind : ObjectKind) (phase : String)
    (result : Except Error ObjectId × AppWorld) : Prop :=
  (∃ error, result = (.error error, world)) ∨
    ∃ id entry, id.kind = kind ∧ world.registry.findEntryLocked id = some entry ∧
      entry.opInProgress = false ∧ (id.kind = .component → entry.bindings = []) ∧
      result = (.ok id, world.store id
        { entry with gateClosed := true, opInProgress := true
                     destroyPhase := phase, state := .uninstalling })

theorem beginUninstall_takesDown (world : AppWorld) {kind : ObjectKind}
    (phase missing : String) {found : Option ObjectId}
    (hfound : ∀ id, found = some id → id.kind = kind) :
    world.TakesDown kind phase (world.beginUninstall phase missing found) := by
  cases found with
  | none => exact Or.inl ⟨_, rfl⟩
  | some id =>
      obtain ⟨error, hbegin⟩ | ⟨entry, hfind, hfree, hbindings, hbegin⟩ :=
        world.registry.beginDestroyLocked_cases id
      · rw [beginUninstall, hbegin]
        exact Or.inl ⟨error, rfl⟩
      · rw [beginUninstall, hbegin]
        exact Or.inr ⟨id, entry, hfound id rfl, hfind, hfree, hbindings, rfl⟩

theorem beginUninstallComponent_takesDown (world : AppWorld) (key : ComponentKey) :
    world.TakesDown .component "uninstall" (world.beginUninstallComponent key) :=
  world.beginUninstall_takesDown _ _
    (fun _ hfound => (Registry.findComponentLocked_some hfound).1)

theorem beginUninstallService_takesDown (world : AppWorld) (name : String) :
    world.TakesDown .service "uninstall" (world.beginUninstallService name) :=
  world.beginUninstall_takesDown _ _
    (fun _ hfound => (Registry.findByTypeNameLocked_some hfound).1)

theorem beginUninstallActorType_takesDown (world : AppWorld) (type : String) :
    world.TakesDown .actor "" (world.beginUninstallActorType type) := by
  unfold beginUninstallActorType
  dsimp only
  split
  · exact Or.inl ⟨_, rfl⟩
  · exact world.beginUninstall_takesDown _ _
      (fun _ hfound => (Registry.findByTypeNameLocked_some hfound).1)

def newEdge (world : AppWorld) (subject : ObjectId) : Binding where
  subjectId := subject
  generation := world.registry.nextGeneration
  active := true
  retiring := false
  borrows := 0

/-- The state after a bind before the subject's table is changed. -/
def withEdge (world : AppWorld) (component subject : ObjectId) : AppWorld :=
  { world with
    registry := world.registry.bumpGeneration.modify component (fun entry =>
      { entry with bindings := entry.bindings ++ [world.newEdge subject] }) }

/-- What refuses an edge from `component` to a registered subject: the subject is stale
or an App handle, its service has not declared the type, the edge would close a cycle, one
of the two is being torn down, the table is full, or the edge is there already. -/
def BindRefused (world : AppWorld) (subject : ObjectHandle) (key : ComponentKey)
    (entry : RegistryEntry) (id : ObjectId) (component : RegistryEntry) : Prop :=
  entry.generation ≠ subject.generation ∨ subject.id.kind = .app ∨
    (subject.id.kind = .service ∧ ¬entry.object.any (fun base => key.type ∈ base.allowed)) ∨
    (subject.id.kind = .component ∧ world.registry.wouldFormCycleLocked subject.id id) ∨
    component.gateClosed ∨ entry.gateClosed ∨ entry.opInProgress ∨
    Registry.closing entry.state ∨
    world.registry.maxBindings ≤ world.registry.countBindingsLocked ∨
    ∃ edge ∈ component.bindings, edge.subjectId = subject.id ∧ ¬edge.retiring

instance (world : AppWorld) (subject : ObjectHandle) (key : ComponentKey)
    (entry : RegistryEntry) (id : ObjectId) (component : RegistryEntry) :
    Decidable (world.BindRefused subject key entry id component) :=
  inferInstanceAs (Decidable (_ ∨ _))

omit [Infra] in
/-- A check that comes before others. -/
theorem ite_error_eq_ok {ε α : Type} {p : Prop} [Decidable p] {error : ε}
    {rest : Except ε α} {value : α} :
    (if p then .error error else rest) = .ok value ↔ ¬p ∧ rest = .ok value := by
  by_cases hp : p <;> simp [hp]

theorem bindLocked_ok_iff {registry : Registry} {component subject : RegistryEntry}
    {subjectId : ObjectId} {edge : Binding} :
    registry.bindLocked component subject subjectId = .ok edge ↔
      ¬(component.gateClosed ∨ subject.gateClosed ∨ subject.opInProgress ∨
        Registry.closing subject.state ∨
        registry.maxBindings ≤ registry.countBindingsLocked ∨
        ∃ other ∈ component.bindings, other.subjectId = subjectId ∧ ¬other.retiring) ∧
      edge = ⟨subjectId, registry.nextGeneration, true, false, 0⟩ := by
  have hduplicate : component.bindings.any
      (fun other => other.subjectId = subjectId ∧ ¬other.retiring) = true ↔
        ∃ other ∈ component.bindings, other.subjectId = subjectId ∧ ¬other.retiring := by
    simp
  simp only [Registry.bindLocked, ite_error_eq_ok, hduplicate, Except.ok.injEq, not_or,
    and_assoc]
  rw [eq_comm (a := edge)]

theorem bindChecks_ok_iff {subject : ObjectHandle} {key : ComponentKey} {id : ObjectId}
    {component : RegistryEntry} {edge : Binding} :
    world.bindChecks subject key = .ok (id, component, edge) ↔
      (world.registry.findComponentLocked key.scope key.ownerId key.type key.name = some id ∧
        world.registry.findEntryLocked id = some component) ∧
      (∃ entry, world.registry.findEntryLocked subject.id = some entry ∧
        ¬world.BindRefused subject key entry id component) ∧
      edge = world.newEdge subject.id := by
  unfold bindChecks
  cases hentry : world.registry.findEntryLocked subject.id with
  | none => simp
  | some entry =>
      cases hfound : world.registry.findComponentLocked key.scope key.ownerId key.type
          key.name with
      | none =>
          simp only [ite_error_eq_ok, reduceCtorEq, and_false, false_and]
      | some found =>
          obtain ⟨-, target, htarget⟩ := Registry.findComponentLocked_some hfound
          simp only [htarget, ite_error_eq_ok, Option.some.injEq, exists_eq_left']
          constructor
          · rintro ⟨hcurrent, happ, hdeclared, hacyclic, hbound⟩
            cases hbind : world.registry.bindLocked target entry subject.id with
            | error error =>
                rw [hbind] at hbound
                cases hbound
            | ok made =>
                rw [hbind] at hbound
                cases hbound
                obtain ⟨hopen, hedge⟩ := bindLocked_ok_iff.mp hbind
                refine ⟨⟨rfl, htarget⟩, ?_, hedge⟩
                simp only [BindRefused, not_or] at hopen ⊢
                exact ⟨hcurrent, happ, hdeclared, hacyclic, hopen⟩
          · rintro ⟨⟨rfl, hcomponent⟩, hpasses, rfl⟩
            obtain rfl := Option.some.inj (htarget.symm.trans hcomponent)
            simp only [BindRefused, not_or] at hpasses
            obtain ⟨hcurrent, happ, hdeclared, hacyclic, hopen⟩ := hpasses
            refine ⟨hcurrent, happ, hdeclared, hacyclic, ?_⟩
            rw [bindLocked_ok_iff.mpr ⟨by simpa only [not_or] using hopen, rfl⟩]
            rfl

/-- A bind that passes its checks: the subject is registered, is not being torn
down and has no open edge on the component. -/
theorem bindChecks_ok {subject : ObjectHandle} {key : ComponentKey} {id : ObjectId}
    {component : RegistryEntry} {edge : Binding}
    (hchecks : world.bindChecks subject key = .ok (id, component, edge)) :
    id.kind = .component ∧ world.registry.findEntryLocked id = some component ∧
      component.gateClosed = false ∧ subject.id.kind ≠ .app ∧
      (∃ entry, world.registry.findEntryLocked subject.id = some entry ∧
        entry.opInProgress = false) ∧
      (∀ other ∈ component.bindings,
        other.subjectId = subject.id → other.retiring = true) ∧
      edge = world.newEdge subject.id := by
  obtain ⟨⟨hfound, hcomponent⟩, ⟨entry, hentry, hpasses⟩, hedge⟩ :=
    bindChecks_ok_iff.mp hchecks
  simp only [BindRefused, not_or, not_exists, not_and] at hpasses
  obtain ⟨-, happ, -, -, hgate, -, hfree, -, -, hopen⟩ := hpasses
  refine ⟨(Registry.findComponentLocked_some hfound).1, hcomponent,
    (Bool.not_eq_true _).mp hgate, happ, ⟨entry, hentry, (Bool.not_eq_true _).mp hfree⟩, ?_,
    hedge⟩
  intro other hmem hsubject
  exact not_not.mp (hopen other hmem hsubject)

theorem bindChecks_found {subject : ObjectHandle} {key : ComponentKey} {id : ObjectId}
    {component : RegistryEntry} {edge : Binding}
    (hchecks : world.bindChecks subject key = .ok (id, component, edge)) :
    world.registry.findComponentLocked key.scope key.ownerId key.type key.name =
      some id ∧ world.registry.findEntryLocked id = some component :=
  (bindChecks_ok_iff.mp hchecks).1

theorem bindChecks_acyclic {subject : ObjectHandle} {key : ComponentKey} {id : ObjectId}
    {component : RegistryEntry} {edge : Binding}
    (hchecks : world.bindChecks subject key = .ok (id, component, edge))
    (hkind : subject.id.kind = .component) :
    world.registry.wouldFormCycleLocked subject.id id = false := by
  obtain ⟨-, ⟨entry, -, hpasses⟩, -⟩ := bindChecks_ok_iff.mp hchecks
  simp only [BindRefused, not_or] at hpasses
  obtain ⟨-, -, -, hacyclic, -⟩ := hpasses
  exact (Bool.not_eq_true _).mp (fun hcycle => hacyclic ⟨hkind, hcycle⟩)

theorem bindComponent_writes (world : AppWorld) (subject : ObjectHandle)
    (key : ComponentKey) :
    (∃ error, world.bindComponent subject key = (.error error, world)) ∨
      ∃ id component edge, world.bindChecks subject key = .ok (id, component, edge) ∧
        world.bindComponent subject key =
          (.ok (Registry.makeHandle id component, world.registry.nextGeneration),
            (world.withEdge id subject.id).changeSubject subject.id (fun base =>
              base.bindComponentEntry key.type key.name (Registry.makeHandle id component)
                world.registry.nextGeneration)) := by
  unfold bindComponent
  cases hchecks : world.bindChecks subject key with
  | error error => exact Or.inl ⟨error, rfl⟩
  | ok made =>
      obtain ⟨id, component, edge⟩ := made
      obtain ⟨-, -, -, -, -, -, rfl⟩ := bindChecks_ok hchecks
      exact Or.inr ⟨id, component, _, rfl, rfl⟩

theorem bindComponent_cases (world : AppWorld) (subject : ObjectHandle)
    (key : ComponentKey) :
    (∃ error, world.bindComponent subject key = (.error error, world)) ∨
      ∃ id component edge, world.bindChecks subject key = .ok (id, component, edge) ∧
        ∃ change, world.bindComponent subject key =
          (.ok (Registry.makeHandle id component, world.registry.nextGeneration),
            (world.withEdge id subject.id).changeSubject subject.id change) := by
  obtain hrefused | ⟨id, component, edge, hchecks, heq⟩ :=
    world.bindComponent_writes subject key
  · exact Or.inl hrefused
  · exact Or.inr ⟨id, component, edge, hchecks, _, heq⟩

omit [Infra] in
theorem changeSubject_cases (world : AppWorld) (subject : ObjectId)
    (change : ObjectBase → ObjectBase) :
    world.changeSubject subject change = world ∨
      (world.changeSubject subject change = { world with crashed := true } ∧
        ∃ entry, world.registry.findEntryLocked subject = some entry ∧
          entry.object = none) ∨
      (world.changeSubject subject change = { world with
        registry := world.registry.modify subject (fun entry =>
          { entry with object := entry.object.map change }) } ∧
        ∃ entry, world.registry.findEntryLocked subject = some entry ∧
          entry.object ≠ none) := by
  unfold changeSubject
  cases hentry : world.registry.findEntryLocked subject with
  | none => exact Or.inl rfl
  | some entry =>
      dsimp only
      split
      case isTrue hnone =>
        exact Or.inr (Or.inl ⟨rfl, entry, rfl, Option.isNone_iff_eq_none.mp hnone⟩)
      case isFalse hsome =>
        exact Or.inr (Or.inr ⟨rfl, entry, rfl,
          fun hnone => hsome (Option.isNone_iff_eq_none.mpr hnone)⟩)

theorem beginUnbind_cases (world : AppWorld) (subject : ObjectId)
    (key : ComponentKey) :
    (∃ error, world.beginUnbind subject key = (.error error, world)) ∨
      ∃ id component, id.kind = .component ∧
        world.registry.findEntryLocked id = some component ∧
        ((∃ edge, Registry.openEdge subject component.bindings = some edge ∧
          world.beginUnbind subject key = (.ok (id, edge.generation), world.store id
            { component with
              bindings := Registry.sealEdge subject component.bindings })) ∨
        ∃ generation,
          Registry.findRetiringBindingLocked component subject = some generation ∧
          world.beginUnbind subject key = (.ok (id, generation), world)) := by
  unfold beginUnbind
  cases hfound : world.registry.findComponentLocked key.scope key.ownerId key.type
    key.name with
  | none => exact Or.inl ⟨_, rfl⟩
  | some id =>
      obtain ⟨hkind, component, hcomponent⟩ :=
        Registry.findComponentLocked_some hfound
      dsimp only
      rw [hcomponent]
      dsimp only
      cases hopen : Registry.openEdge subject component.bindings with
      | some edge =>
          have hbegin : Registry.beginUnbindLocked component subject =
              .ok (edge.generation, { component with
                bindings := Registry.sealEdge subject component.bindings }) := by
            rw [Registry.beginUnbindLocked, hopen]
          rw [hbegin]
          exact Or.inr ⟨id, component, hkind, hcomponent, Or.inl ⟨edge, hopen, rfl⟩⟩
      | none =>
          have hbegin : Registry.beginUnbindLocked component subject =
              .error (makeError .notFound "UnbindComponent: binding not found") := by
            rw [Registry.beginUnbindLocked, hopen]
          rw [hbegin]
          dsimp only
          cases hretiring : Registry.findRetiringBindingLocked component subject with
          | none => exact Or.inl ⟨_, rfl⟩
          | some generation =>
              exact Or.inr ⟨id, component, hkind, hcomponent,
                Or.inr ⟨generation, hretiring, rfl⟩⟩

end AppWorld

def BindingLease.take (lease : BindingLease) (entry : RegistryEntry) : RegistryEntry :=
  { entry with
    componentBorrows := entry.componentBorrows + 1
    bindings := Registry.modifyEdge lease.subjectId lease.bindingGeneration
      (fun edge => { edge with borrows := edge.borrows + 1 }) entry.bindings }

/-- A borrow that succeeds: the gate is open, the component runs or is being
installed, and the edge of the given generation is open. -/
theorem Registry.borrowImpl_ok [Infra] {registry last : Registry}
    {object : ObjectHandle} {generation : Nat} {allow : Bool} {lease : BindingLease}
    (hborrow : registry.borrowImpl object generation allow = .ok (lease, last)) :
    ∃ entry edge, registry.findEntryLocked object.id = some entry ∧
      entry.gateClosed = false ∧
      (entry.state = .running ∨ entry.state = .installed) ∧
      edge ∈ entry.bindings ∧ edge.generation = generation ∧
      edge.active = true ∧ edge.retiring = false ∧
      lease = ⟨object.id, edge.subjectId, generation⟩ ∧
      last = registry.modify object.id lease.take := by
  unfold borrowImpl at hborrow
  cases hfind : registry.findEntryLocked object.id with
  | none => simp [hfind] at hborrow
  | some entry =>
      rw [hfind] at hborrow
      dsimp only at hborrow
      split at hborrow
      · cases hborrow
      split at hborrow
      · cases hborrow
      case h_2 named hnamed =>
        unfold acquireBorrowLocked at hborrow
        split at hborrow
        · cases hborrow
        case isFalse hgate =>
          dsimp only at hborrow
          split at hborrow
          case isFalse => cases hborrow
          case isTrue hstate =>
            split at hborrow
            · cases hborrow
            case h_2 edge hedge =>
              split at hborrow
              · cases hborrow
              case isFalse hopen =>
                cases hborrow
                have hmem := List.mem_of_find?_eq_some hedge
                have hsame := List.find?_some hedge
                simp only [decide_eq_true_eq] at hsame
                refine ⟨entry, edge, rfl, by simpa using hgate, hstate.imp_right And.right,
                  hmem, hsame.2, ?_, ?_, ?_, rfl⟩
                · by_contra hactive
                  exact hopen (Or.inl hactive)
                · by_contra hretiring
                  exact hopen (Or.inr (by simpa using hretiring))
                · rw [hsame.1]

end BbtFramework.App
