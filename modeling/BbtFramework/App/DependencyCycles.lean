import BbtFramework.App.StopOrder

/-!
# The dependency order of components

A bind of a component is refused for a cycle exactly when its edge would close one,
so the dependencies of the components never have a cycle.  On any registry the search
for the start order returns, lists every component once, after what it depends on, and
reports a cycle exactly when there is one.
-/

namespace BbtFramework.App

open BbtFramework.Library

section

variable {world : AppWorld} {id : ObjectId} {component : RegistryEntry}

theorem leads_withEdge {subject user used : ObjectId} (hkind : id.kind = .component)
    (hfind : world.registry.findEntryLocked id = some component) :
    Leads (world.withEdge id subject).registry.dependencies user used ↔
      Leads world.registry.dependencies user used ∨ (user = subject ∧ used = id) := by
  have hbumped : ∀ other, world.registry.bumpGeneration.findEntryLocked other =
      world.registry.findEntryLocked other := fun _ => rfl
  unfold Leads
  rw [Registry.mem_dependencies, Registry.mem_dependencies, AppWorld.withEdge,
    Registry.findEntryLocked_modify, hbumped, hbumped]
  by_cases hused : used = id
  · subst hused
    rw [if_pos rfl, hfind]
    constructor
    · rintro ⟨-, _, ⟨⟩, edge, hmem, hsubject⟩
      rcases List.mem_append.mp hmem with hmem | hmem
      · exact Or.inl ⟨hkind, component, rfl, edge, hmem, hsubject⟩
      · obtain rfl := List.mem_singleton.mp hmem
        exact Or.inr ⟨hsubject.symm, rfl⟩
    · rintro (⟨-, _, ⟨⟩, edge, hmem, hsubject⟩ | ⟨rfl, -⟩)
      · exact ⟨hkind, _, rfl, edge, List.mem_append_left _ hmem, hsubject⟩
      · exact ⟨hkind, _, rfl, world.newEdge user,
          List.mem_append_right _ List.mem_cons_self, rfl⟩
  · rw [if_neg hused]
    constructor
    · exact Or.inl
    · rintro (hold | ⟨-, heq⟩)
      · exact hold
      · exact absurd heq hused

/-- The search of a bind finds out whether the new edge closes a cycle. -/
theorem wouldFormCycleLocked_iff {subject : ObjectId}
    (hacyclic : Acyclic world.registry.dependencies) (hkind : id.kind = .component)
    (hfind : world.registry.findEntryLocked id = some component) :
    world.registry.wouldFormCycleLocked subject id = true ↔
      ¬Acyclic (world.withEdge id subject).registry.dependencies := by
  have hsearch : world.registry.wouldFormCycleLocked subject id = true ↔
      Relation.ReflTransGen (Leads world.registry.dependencies) id subject := by
    unfold Registry.wouldFormCycleLocked
    split
    case isTrue heq =>
      rw [heq]
      exact ⟨fun _ => .refl, fun _ => rfl⟩
    case isFalse =>
      exact reach_iff world.registry.closed_dependencies
        (Registry.mem_listIdsByKind.mpr ⟨hkind, component, hfind⟩) (Nat.le_succ _)
  rw [hsearch]
  constructor
  · intro hpath hafter
    refine hafter id (.tail' (b := subject) ?_ ((leads_withEdge hkind hfind).mpr
      (Or.inr ⟨rfl, rfl⟩)))
    exact Relation.ReflTransGen.mono
      (fun _ _ hlead => (leads_withEdge hkind hfind).mpr (Or.inl hlead)) _ _ hpath
  · intro hcycle
    by_contra hback
    exact hcycle (hacyclic.insert (fun _ _ => (leads_withEdge hkind hfind).mp) hback)

end

section

variable [Infra]

def cycleRefusal : Error :=
  makeError .invalidArgument "BindComponent: dependency would form a cycle"

theorem bindLocked_ne_cycleRefusal {registry : Registry}
    {component subject : RegistryEntry} {subjectId : ObjectId} :
    registry.bindLocked component subject subjectId ≠ .error cycleRefusal := by
  unfold Registry.bindLocked
  split_ifs <;> simp [cycleRefusal, makeError]

variable {world : AppWorld}

theorem bindComponent_cycle_iff {subject : ObjectHandle} {key : ComponentKey}
    {entry component : RegistryEntry} {id : ObjectId}
    (hentry : world.registry.findEntryLocked subject.id = some entry)
    (hgeneration : entry.generation = subject.generation)
    (hsubject : subject.id.kind = .component)
    (hfound : world.registry.findComponentLocked key.scope key.ownerId key.type key.name =
      some id)
    (hfind : world.registry.findEntryLocked id = some component) :
    (world.bindComponent subject key).1 = .error cycleRefusal ↔
      world.registry.wouldFormCycleLocked subject.id id = true := by
  have hchecks : world.bindChecks subject key =
      if world.registry.wouldFormCycleLocked subject.id id then .error cycleRefusal
      else (world.registry.bindLocked component entry subject.id).map
        (fun edge => (id, component, edge)) := by
    unfold AppWorld.bindChecks
    rw [hentry]
    dsimp only
    rw [if_neg (not_not.mpr hgeneration), if_neg (by simp [hsubject]),
      if_neg (by simp [hsubject]), hfound]
    dsimp only
    rw [hfind]
    simp only [hsubject, true_and]
    split
    · rfl
    · cases world.registry.bindLocked component entry subject.id <;> rfl
  have hresult : (world.bindComponent subject key).1 = .error cycleRefusal ↔
      world.bindChecks subject key = .error cycleRefusal := by
    unfold AppWorld.bindComponent
    cases world.bindChecks subject key with
    | error error => simp
    | ok made => simp
  rw [hresult, hchecks]
  split
  case isTrue hcycle => simp [hcycle]
  case isFalse hfree =>
    have hbind := @bindLocked_ne_cycleRefusal _ world.registry component entry subject.id
    cases hbound : world.registry.bindLocked component entry subject.id with
    | error error =>
        rw [hbound] at hbind
        simpa [Except.map, hfree] using hbind
    | ok edge => simp [Except.map, hfree]

end

namespace Registry

/-- What the search for the start order guarantees: it returns, it lists every
registered component once, and it reports a cycle exactly when there is one; where there
is none, a dependency is listed before its users. -/
structure StartsInOrder (registry : Registry) (search : Search ObjectId) : Prop where
  returns : Orders registry.dependencies (registry.listIdsByKindLocked .component)
    ⟨[], [], false⟩ search
  once : search.order.Nodup
  listed : ∀ id, id ∈ search.order ↔
    id.kind = .component ∧ ∃ entry, registry.findEntryLocked id = some entry
  cycle : search.hadCycle = true ↔ ¬Acyclic registry.dependencies
  dependenciesFirst : Acyclic registry.dependencies → ∀ user ∈ search.order,
    ∀ used ∈ registry.dependencies user, [used, user].Sublist search.order

theorem startOrder_startsInOrder (registry : Registry) :
    registry.StartsInOrder registry.componentStartOrderLocked where
  returns := postOrder_orders registry.closed_dependencies
  once := nodup_postOrder registry.closed_dependencies
  listed := fun _ => mem_startOrder.trans mem_listIdsByKind
  cycle := postOrder_hadCycle (fun _ _ hleads => mem_of_leads hleads)
  dependenciesFirst := fun hacyclic _ huser _ hused =>
    (postOrder_sorted registry.closed_dependencies hacyclic).sublist huser hused

end Registry

section

variable [Infra] {pool : AppPool Unit}

/-- In every state the dependencies have no cycle, and a component is refused for one
exactly when its edge would close it; the start order of any registry is in order. -/
theorem dependencies_in_order (hreach : plainSystem.machine.Reachable pool) :
    Acyclic pool.shared.registry.dependencies ∧
      (∀ subject key entry id component,
        pool.shared.registry.findEntryLocked subject.id = some entry →
        entry.generation = subject.generation →
        subject.id.kind = .component →
        pool.shared.registry.findComponentLocked key.scope key.ownerId key.type
          key.name = some id →
        pool.shared.registry.findEntryLocked id = some component →
        ((pool.shared.bindComponent subject key).1 = .error cycleRefusal ↔
          ¬Acyclic (pool.shared.withEdge id subject.id).registry.dependencies)) ∧
      ∀ registry : Registry, registry.StartsInOrder registry.componentStartOrderLocked := by
  have hacyclic := dependencies_acyclic hreach
  refine ⟨hacyclic, ?_, Registry.startOrder_startsInOrder⟩
  intro subject key entry id component hentry hgeneration hsubject hfound hfind
  rw [bindComponent_cycle_iff hentry hgeneration hsubject hfound hfind]
  exact wouldFormCycleLocked_iff hacyclic (Registry.findComponentLocked_some hfound).1 hfind

end

/-- Two components, the second of which is bound to the first. -/
def dependentPair : List AppStep :=
  [.spawn (.coInstallComponent "A" "a" ⟨.app, none⟩),
    .spawn (.coInstallComponent "B" "b" ⟨.app, none⟩),
    .spawn (.coBindComponent "A" ⟨true, ⟨.component, 2⟩, 3⟩ "a" ⟨.app, none⟩)] ++
    List.replicate 8 (smoothStep 0) ++ List.replicate 8 (smoothStep 1) ++
    List.replicate 2 (smoothStep 2)

/-- The first component can no longer be bound to the second. -/
theorem dependencies_in_order_pair :
    letI := permissiveInfra
    ∃ pool, plainSystem.machine.Reachable pool ∧
      (pool.shared.bindComponent ⟨true, ⟨.component, 1⟩, 2⟩
        ⟨"B", "b", .app, none⟩).1 = .error cycleRefusal ∧
      Acyclic pool.shared.registry.dependencies := by
  let _ := permissiveInfra
  have hboot : plainSystem.machine.Reachable
      (plainSystem.boot (AppWorld.fresh (.ok ()) 10 10)) :=
    .start ⟨_, start_fresh 10 10 (by decide), rfl⟩
  obtain ⟨pool, hreach, htest⟩ := hboot.exec_any (fun _ _ => true) (fun _ _ _ => trivial)
    dependentPair (fun pool => decide ((pool.shared.bindComponent
      ⟨true, ⟨.component, 1⟩, 2⟩ ⟨"B", "b", .app, none⟩).1 = .error cycleRefusal))
    (by decide)
  exact ⟨pool, hreach, of_decide_eq_true htest, (dependencies_in_order hreach).1⟩

end BbtFramework.App
