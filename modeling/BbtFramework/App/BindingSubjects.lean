import BbtFramework.App.BorrowGate
import BbtFramework.App.BorrowWaits
import BbtFramework.App.QueuedStops

/-!
# The subjects of edges

An edge lives on its component and names its subject by id.  The teardown of a service seals
the edges of the service, sees them drained and erases them before the service is destroyed;
those of a component and of an actor do not look at the edges of which they are the subject.
As long as these destroy their object only when it has no such edge and is not borrowed, every
edge has a registered subject, and nothing is destroyed while a borrow through one of its
edges is left.
-/

namespace BbtFramework.App

open BbtFramework.Library

theorem Registry.dependencies_eq_nil {registry : Registry} {subject : ObjectId} :
    registry.dependencies subject = [] ↔ registry.EdgesOf subject (fun _ _ => False) := by
  rw [List.eq_nil_iff_forall_not_mem]
  constructor
  · intro hnone id entry hkind hfind edge hmem hsubject
    exact hnone id (mem_dependencies.mpr ⟨hkind, entry, hfind, edge, hmem, hsubject⟩)
  · intro hnone id hmem
    obtain ⟨hkind, entry, hfind, edge, hedge, hsubject⟩ := mem_dependencies.mp hmem
    exact hnone id entry hkind hfind edge hedge hsubject

/-- An object that is torn down stays without edges. -/
theorem Operation.Informed.unbound {world last : AppWorld} {released : Option ObjectId}
    {op : Operation} (hinformed : op.Informed world) (hsettling : world.Settling released last)
    (hnone : world.registry.dependencies op.object = []) :
    last.registry.dependencies op.object = [] := by
  rw [Registry.dependencies_eq_nil] at hnone ⊢
  intro id entry hkind hfind edge hmem hsubject
  obtain ⟨earlier, hearlier, known, hknown, hsame, -⟩ :=
    hinformed.settles hsettling hfind hmem hsubject
  exact hnone id earlier hkind hearlier known hknown hsame

namespace AppWorld

variable {world last : AppWorld} {subject : ObjectId}

/-- Sealed edges are gone when those that stay are not sealed. -/
theorem unbound_of_erased {change : ObjectId → RegistryEntry → RegistryEntry}
    (hsealed : world.registry.EdgesOf subject (fun _ edge => edge.retiring = true))
    (hchange : ∀ id entry, id.kind = .component →
      world.registry.findEntryLocked id = some entry →
      ∀ edge ∈ (change id entry).bindings, edge ∈ entry.bindings ∧
        ¬(edge.subjectId = subject ∧ edge.retiring = true)) :
    (world.modifyComponents change).registry.dependencies subject = [] := by
  rw [Registry.dependencies_eq_nil]
  intro id later hkind hfind edge hmem hsubject
  rw [modifyComponents, Registry.findEntryLocked_modifyAll] at hfind
  obtain ⟨entry, hentry, rfl⟩ := Option.map_eq_some_iff.mp hfind
  rw [if_pos hkind] at hmem
  obtain ⟨hknown, hopen⟩ := hchange id entry hkind hentry edge hmem
  exact hopen ⟨hsubject, hsealed id entry hkind hentry edge hknown hsubject⟩

theorem mem_eraseSubjectBindings {entry : RegistryEntry} {edge : Binding}
    (hmem : edge ∈ (Registry.eraseSubjectBindingsLocked entry subject).bindings) :
    edge ∈ entry.bindings ∧ ¬(edge.subjectId = subject ∧ edge.retiring = true) := by
  obtain ⟨hknown, htest⟩ := List.mem_filter.mp hmem
  exact ⟨hknown, of_decide_eq_true htest⟩

theorem unbound_eraseSubjectEdges
    (hsealed : world.registry.EdgesOf subject (fun _ edge => edge.retiring = true)) :
    (world.eraseSubjectEdges subject).registry.dependencies subject = [] :=
  unbound_of_erased hsealed (fun _ _ _ _ _ hmem => mem_eraseSubjectBindings hmem)

/-- Edges on other components than the given ones are none of the subject. -/
theorem unbound_eraseSubjectEdgesOn {components : List ObjectId}
    (hsealed : world.registry.EdgesOf subject (fun _ edge => edge.retiring = true))
    (hlisted : world.registry.EdgesOf subject (fun id _ => id ∈ components)) :
    (world.eraseSubjectEdgesOn subject components).registry.dependencies subject = [] := by
  refine unbound_of_erased hsealed ?_
  intro id entry hkind hfind edge hmem
  split at hmem
  case isTrue => exact mem_eraseSubjectBindings hmem
  case isFalse hother =>
    refine ⟨hmem, ?_⟩
    rintro ⟨hsubject, -⟩
    exact hother (hlisted id entry hkind hfind edge hmem hsubject)

end AppWorld

namespace AppWorld

variable {world last : AppWorld}

def EdgesKnown (world : AppWorld) : Prop :=
  ∀ id entry, world.registry.findEntryLocked id = some entry → ∀ edge ∈ entry.bindings,
    id.kind = .component ∧ (world.registry.findEntryLocked edge.subjectId).isSome = true

def LeasesKnown (world : AppWorld) : Prop :=
  ∀ lease ∈ world.leases, (world.registry.findEntryLocked lease.componentId).isSome = true

theorem EdgesKnown.lease (hedges : world.EdgesKnown) (haccounted : world.Accounted)
    (hleases : world.LeasesKnown) {lease : BindingLease} (hmem : lease ∈ world.leases) :
    lease.componentId.kind = .component ∧
      world.registry.dependencies lease.subjectId ≠ [] := by
  obtain ⟨entry, hfind⟩ := Option.isSome_iff_exists.mp (hleases lease hmem)
  obtain ⟨edge, hedge, hsubject, -⟩ :=
    (haccounted.balanced _ entry hfind).edge lease hmem rfl
  obtain ⟨hkind, -⟩ := hedges _ entry hfind edge hedge
  refine ⟨hkind, ?_⟩
  intro hnone
  exact Registry.dependencies_eq_nil.mp hnone _ entry hkind hfind edge hedge hsubject

variable [Infra]

theorem AgeStep.edge {asked : Option Action} (hstep : world.AgeStep asked last)
    {id : ObjectId} {later : RegistryEntry}
    (hfind : last.registry.findEntryLocked id = some later) {edge : Binding}
    (hmem : edge ∈ later.bindings) :
    (∃ earlier, world.registry.findEntryLocked id = some earlier ∧
      ∃ known ∈ earlier.bindings, known.subjectId = edge.subjectId) ∨
    (id.kind = .component ∧
      (∃ object key, asked = some (.command (.bindComponent object key))) ∧
      (world.registry.findEntryLocked edge.subjectId).isSome = true) := by
  cases hstep with
  | ages hids hgenerations hages =>
      obtain ⟨earlier, hearlier, hage⟩ := hages id later hfind
      obtain ⟨known, hknown, hsame⟩ := hage.edges edge hmem
      exact Or.inl ⟨earlier, hearlier, known, hknown, hsame.subject.symm⟩
  | created kind hcreated =>
      obtain hbefore | ⟨-, _, _, _, _, _, rfl⟩ := hcreated.find hfind
      · exact Or.inl ⟨later, hbefore, edge, hmem, rfl⟩
      · cases hmem
  | bound object key target component made change hasked hchecks hlast =>
      rw [hlast] at hfind
      obtain ⟨earlier, hearlier, -, -, hedges⟩ := find_withEdge hfind
      obtain hknown | ⟨rfl, hsubject⟩ := hedges edge hmem
      · exact Or.inl ⟨earlier, hearlier, hknown⟩
      · obtain ⟨hkind, -, -, -, ⟨entry, hentry, -⟩, -⟩ := bindChecks_ok hchecks
        refine Or.inr ⟨hkind, ⟨object, key, hasked⟩, ?_⟩
        rw [hsubject]
        exact Option.isSome_of_eq_some hentry

theorem event_lease {event : Event} (hevent : world.event event = some last)
    {lease : BindingLease} (hmem : lease ∈ last.leases) : lease ∈ world.leases ∨
      (world.registry.findEntryLocked lease.componentId).isSome = true := by
  cases event with
  | borrow object generation allow =>
      simp only [AppWorld.event] at hevent
      split at hevent
      · cases hevent
        exact Or.inl hmem
      case h_2 made registry hborrow =>
        cases hevent
        obtain ⟨entry, edge, hfind, -, -, -, -, -, -, rfl, -⟩ :=
          Registry.borrowImpl_ok hborrow
        rcases List.mem_cons.mp hmem with rfl | hold
        · exact Or.inr (Option.isSome_of_eq_some hfind)
        · exact Or.inl hold
  | release released =>
      simp only [AppWorld.event] at hevent
      split at hevent
      · cases hevent
        exact Or.inl (List.mem_of_mem_erase hmem)
      · cases hevent
  | notifyHook task =>
      simp only [AppWorld.event] at hevent
      split at hevent
      case h_1 object hook notify result hfind =>
        cases hevent
        cases notify
        · exact Or.inl hmem
        · exact Or.inl hmem
      · cases hevent
  | _ =>
      simp only [AppWorld.event] at hevent
      split at hevent
      · cases hevent
        exact Or.inl hmem
      · cases hevent

end AppWorld

/-- Edges and leases are known, and a teardown that has erased the edges of its object leaves
it none. -/
structure SubjectsHeld (world : AppWorld) (views : Nat → Role) : Prop where
  edges : world.EdgesKnown
  leases : world.LeasesKnown
  cleared : ∀ thread op, (views thread).operation = some op → op.marks = true →
    op.edges = .cleared → world.registry.dependencies op.object = []

section

variable [Infra]

/-- An object other than a service is destroyed only while it is the subject of no edge and
not borrowed. -/
def DestroysFree {View : Type} (pool : AppPool View) (label : AppStep) : Prop :=
  ∀ id ∈ (pool.asked label).bind Action.destroyed, id.kind ≠ .service →
    pool.shared.registry.dependencies id = [] ∧ pool.shared.leasesOn id = 0

instance {View : Type} (pool : AppPool View) (label : AppStep) :
    Decidable (DestroysFree pool label) :=
  inferInstanceAs (Decidable (∀ id ∈ _, _ → _ ∧ _))

namespace SubjectsHeld

variable {world last : AppWorld} {views : Nat → Role} {thread : Nat}

omit [Infra] in
theorem destroyed (hheld : SubjectsHeld world views) {act : Action} {id : ObjectId}
    (hallowed : Role.allows act (views thread)) (hdestroyed : act.destroyed = some id)
    (hfree : id.kind ≠ .service → world.registry.dependencies id = []) :
    world.registry.dependencies id = [] := by
  cases act with
  | query query => cases hdestroyed
  | command command =>
      cases command with
      | finishDestroy other =>
          cases hdestroyed
          by_cases hkind : id.kind = .service
          · obtain ⟨⟨op, hop, rfl, hcloses, -, hcleared, -⟩, -⟩ := hallowed
            have hmarks := Operation.marks_of_closes hcloses (by rw [hkind]; decide)
            exact hheld.cleared thread op hop hmarks (hcleared hkind)
          · exact hfree hkind
      | _ => cases hdestroyed

theorem perform_edges (hheld : SubjectsHeld world views) {act : Action} {choice : Choice}
    {answer : act.Answer} (hperform : world.perform act choice = some (answer, last))
    (hunbound : ∀ id, act.destroyed = some id → world.registry.dependencies id = []) :
    last.EdgesKnown := by
  obtain ⟨released, hsettling, hstep, hmove⟩ := perform_moves hperform
  intro id later hfind edge hmem
  obtain ⟨earlier, hearlier, known, hknown, hsubject⟩ | ⟨hkind, ⟨object, key, hasked⟩,
    hpresent⟩ := hstep.edge hfind hmem
  · obtain ⟨hkind, hpresent⟩ := hheld.edges id earlier hearlier known hknown
    refine ⟨hkind, ?_⟩
    obtain hstays | hdestroyed := AppWorld.perform_stays hperform (hsubject ▸ hpresent)
    · exact hstays
    · exact absurd hsubject (Registry.dependencies_eq_nil.mp (hunbound _ hdestroyed) id earlier
        hkind hearlier known hknown)
  · refine ⟨hkind, ?_⟩
    obtain hstays | hdestroyed := AppWorld.perform_stays hperform hpresent
    · exact hstays
    · obtain rfl := Option.some.inj hasked
      cases hdestroyed

/-- An action destroys no component that is borrowed. -/
theorem perform_leases (hheld : SubjectsHeld world views) (haccounted : world.Accounted)
    {act : Action} {choice : Choice} {answer : act.Answer}
    (hperform : world.perform act choice = some (answer, last))
    (hfree : ∀ id, act.destroyed = some id → id.kind ≠ .service → world.leasesOn id = 0) :
    last.LeasesKnown := by
  intro lease hmem
  rw [AppWorld.perform_leases hperform] at hmem
  obtain hstays | hdestroyed := AppWorld.perform_stays hperform (hheld.leases lease hmem)
  · exact hstays
  · obtain ⟨hkind, -⟩ := hheld.edges.lease haccounted hheld.leases hmem
    have hnone := hfree _ hdestroyed (by rw [hkind]; decide)
    rw [AppWorld.leasesOn, List.countP_eq_zero] at hnone
    exact absurd (decide_eq_true rfl) (hnone lease hmem)

theorem erased (hdrained : Drained world views) {act : Action} {choice : Choice}
    {answer : act.Answer} (hallowed : Role.allows act (views thread))
    (hperform : world.perform act choice = some (answer, last)) {op : Operation}
    (hop : (views thread).operation = some op) (hmarks : op.marks = true)
    (herases : act.erases = true) {all : List EdgeName} (hlisted : op.edges = .listed all []) :
    last.registry.dependencies op.object = [] := by
  have hinformed := hdrained.operations thread op hop hmarks
  have hsealed : world.registry.EdgesOf op.object (fun _ edge => edge.retiring = true) :=
    fun id entry hkind hfind edge hmem hsubject =>
      (hinformed.idle hlisted id entry hkind hfind edge hmem hsubject).1
  cases act with
  | query query => cases herases
  | command command =>
      have happly := AppWorld.perform_command hperform
      cases command with
      | eraseSubjectEdges subject =>
          cases happly
          obtain ⟨known, hknown, rfl, -⟩ := hallowed
          obtain rfl := Option.some.inj (hop.symm.trans hknown)
          exact AppWorld.unbound_eraseSubjectEdges hsealed
      | eraseSubjectEdgesOn subject components =>
          cases happly
          obtain ⟨known, hknown, rfl, -, edges, hedges, hcomponents⟩ := hallowed
          obtain rfl := Option.some.inj (hop.symm.trans hknown)
          refine AppWorld.unbound_eraseSubjectEdgesOn hsealed ?_
          intro id entry hkind hfind edge hmem hsubject
          obtain ⟨hall, -⟩ :=
            hinformed.listed edges [] hedges id entry hkind hfind edge hmem hsubject
          exact hcomponents _ hall
      | _ => cases herases

end SubjectsHeld

theorem subjectsHeld_of_reachable {pool : AppPool Role}
    (hreach : knowingSystem.machine.ReachableWhere DestroysFree pool) :
    SubjectsHeld pool.shared pool.views := by
  refine knowingSystem_disciplined.invariant (motive := SubjectsHeld) ?_ ?_ ?_ hreach
  · rintro world ⟨options, maxObjects, maxBindings, -, rfl⟩
    refine ⟨?_, fun _ hmem => absurd hmem List.not_mem_nil, ?_⟩
    · intro id entry hfind edge hmem
      change (AppWorld.freshRegistry maxObjects maxBindings).findEntryLocked id = some entry
        at hfind
      rw [AppWorld.freshRegistry, Registry.findEntryLocked_append] at hfind
      split at hfind
      · cases hfind
        cases hmem
      · cases hfind
    · intro thread op hop
      cases hop
  · intro pool thread choice act answer last hacts hheld
    have hdrained := drained_of_reachable hacts.reach
    obtain ⟨released, hsettling, -, -⟩ := perform_moves hacts.performed
    obtain ⟨rest, hthread⟩ := hacts.asked
    have hfree : ∀ id, act.destroyed = some id → id.kind ≠ .service →
        pool.shared.registry.dependencies id = [] ∧ pool.shared.leasesOn id = 0 := by
      intro id hdestroyed
      refine hacts.guarded id ?_
      rw [Pool.asked_call hthread]
      exact hdestroyed
    refine ⟨?_, ?_, ?_⟩
    · exact hheld.perform_edges hacts.performed (fun id hdestroyed =>
        hheld.destroyed hacts.allowed hdestroyed
          (fun hkind => (hfree id hdestroyed hkind).1))
    · exact hheld.perform_leases hdrained.accounted hacts.performed
        (fun id hdestroyed hkind => (hfree id hdestroyed hkind).2)
    · intro other op hop hmarks hcleared
      by_cases hsame : other = thread
      · rw [hsame, Function.update_self] at hop
        obtain ⟨known, hknown, hobject, hbefore, hseen⟩ := Role.cleared_after answer
          hacts.allowed hop hmarks hcleared
        rw [← hobject]
        obtain hedges | ⟨herases, all, hlisted⟩ := hseen
        · exact (hdrained.operations thread known hknown hbefore).unbound hsettling
            (hheld.cleared thread known hknown hbefore hedges)
        · exact SubjectsHeld.erased hdrained hacts.allowed hacts.performed hknown hbefore
            herases hlisted
      · rw [Function.update_of_ne hsame] at hop
        exact (hdrained.operations other op hop hmarks).unbound hsettling
          (hheld.cleared other op hop hmarks hcleared)
  · intro pool event last hreach _ hreact hheld
    have hevent := AppWorld.react_event hreact
    have hdrained := drained_of_reachable hreach
    refine ⟨?_, ?_, ?_⟩
    · intro id later hfind edge hmem
      obtain ⟨earlier, hearlier, hage⟩ := AppWorld.event_ages hevent id later hfind
      obtain ⟨known, hknown, hsame⟩ := hage.edges edge hmem
      obtain ⟨hkind, hpresent⟩ := hheld.edges id earlier hearlier known hknown
      rw [hsame.subject]
      exact ⟨hkind, AppWorld.event_stays hevent hpresent⟩
    · intro lease hmem
      obtain hold | hpresent := AppWorld.event_lease hevent hmem
      · exact AppWorld.event_stays hevent (hheld.leases lease hold)
      · exact AppWorld.event_stays hevent hpresent
    · intro thread op hop hmarks hcleared
      exact (hdrained.operations thread op hop hmarks).unbound
        (AppWorld.event_settling hdrained.accounted.numbered hevent)
        (hheld.cleared thread op hop hmarks hcleared)

omit [Infra] in
def Registry.SubjectsRegistered (registry : Registry) : Prop :=
  ∀ (id : ObjectId) entry, id.kind = .component →
    registry.findEntryLocked id = some entry → ∀ edge ∈ entry.bindings,
      (registry.findEntryLocked edge.subjectId).isSome = true

/-- The subjects of all edges are registered, and a step destroys no object while a borrow
through one of its edges is left. -/
def NoDangling (guard : AppPool Unit → AppStep → Prop) (pool : AppPool Unit) : Prop :=
  pool.shared.registry.SubjectsRegistered ∧
    ∀ label next id, guard pool label → plainSystem.machine.next pool label = some next →
      (pool.asked label).bind Action.destroyed = some id →
      ∀ lease ∈ pool.shared.leases, lease.subjectId ≠ id

/-- In a run that destroys components and actors only while they are the subject of no edge
and not borrowed, no edge dangles. -/
theorem no_dangling_edges {pool : AppPool Unit}
    (hreach : plainSystem.machine.ReachableWhere DestroysFree pool) :
    NoDangling DestroysFree pool := by
  obtain ⟨views, hviews⟩ := System.reachable_under Role.fresh appDiscipline hreach
  have hknowing : knowingSystem.machine.ReachableWhere DestroysFree
      (System.viewed pool views) :=
    hviews.mono (fun _ _ hheld => hheld.elim (fun _ hstep => hstep))
  have hheld : SubjectsHeld pool.shared views := subjectsHeld_of_reachable hknowing
  have hdrained : Drained pool.shared views := drained_of_reachable hknowing
  constructor
  · intro id entry _ hfind edge hmem
    exact (hheld.edges id entry hfind edge hmem).2
  · intro label next id hguard hnext hdestroyed lease hlease hsubject
    obtain ⟨-, hbound⟩ := hheld.edges.lease hdrained.accounted hheld.leases hlease
    refine hbound ?_
    rw [hsubject]
    obtain ⟨act, hasked, hdestroys⟩ := Option.bind_eq_some_iff.mp hdestroyed
    have hviewed : (System.viewed pool views).asked label = some act := hasked
    obtain ⟨thread, hallowed⟩ := knowingSystem_disciplined.asked_allowed hknowing hviewed
    exact hheld.destroyed hallowed hdestroys (fun hkind => (hguard id hdestroyed hkind).1)

end

/-- Two services have bound the component `A`; the second one borrows it while the first one
is uninstalled, up to the action that destroys it. -/
def sharedSteps : List AppStep :=
  [.spawn (.coInstallComponent "A" "a" ⟨.app, none⟩)] ++ List.replicate 8 (smoothStep 0) ++
    [.spawn (.coInstallService (.ok ()) "S" ["A"] [⟨"A", "a"⟩])] ++
    List.replicate 11 (smoothStep 1) ++
    [.spawn (.coInstallService (.ok ()) "T" ["A"] [⟨"A", "a"⟩])] ++
    List.replicate 11 (smoothStep 2) ++
    [.env (.borrow ⟨true, ⟨.component, 1⟩, 2⟩ 6 true), .spawn (.coUninstallService "S")] ++
    List.replicate 6 (smoothStep 3) ++ hookSteps 3 0 ++ List.replicate 3 (smoothStep 3)

/-- The service that is about to be destroyed has no edge, and the lease is not through one of
its own. -/
theorem no_dangling_edges_shared :
    letI := permissiveInfra
    ∃ pool : AppPool Unit, plainSystem.machine.ReachableWhere DestroysFree pool ∧
      (pool.asked (smoothStep 3)).bind Action.destroyed = some ⟨.service, 2⟩ ∧
      pool.shared.leases = [⟨⟨.component, 1⟩, ⟨.service, 3⟩, 6⟩] ∧
      NoDangling DestroysFree pool := by
  let _ := permissiveInfra
  have hboot : plainSystem.machine.ReachableWhere DestroysFree
      (plainSystem.boot (AppWorld.fresh (.ok ()) 10 10)) :=
    .start ⟨_, start_fresh 10 10 (by decide), rfl⟩
  obtain ⟨pool, hreach, htest⟩ := hboot.exec_any
    (fun pool label => decide (DestroysFree pool label)) (fun _ _ => of_decide_eq_true)
    sharedSteps
    (fun pool => decide
      ((pool.asked (smoothStep 3)).bind Action.destroyed = some ⟨.service, 2⟩ ∧
        pool.shared.leases = [⟨⟨.component, 1⟩, ⟨.service, 3⟩, 6⟩]))
    (by decide)
  obtain ⟨hdestroyed, hleases⟩ := of_decide_eq_true htest
  exact ⟨pool, hreach, hdestroyed, hleases, no_dangling_edges hreach⟩

/-- The component `B` has bound the component `A` and is uninstalled. -/
def danglingSteps : List AppStep :=
  [.spawn (.coInstallComponent "A" "a" ⟨.app, none⟩)] ++ List.replicate 8 (smoothStep 0) ++
    [.spawn (.coInstallComponent "B" "b" ⟨.app, none⟩)] ++ List.replicate 8 (smoothStep 1) ++
    [.spawn (.coBindComponent "A" ⟨true, ⟨.component, 2⟩, 3⟩ "a" ⟨.app, none⟩)] ++
    List.replicate 2 (smoothStep 2) ++
    [.spawn (.coUninstallComponent "B" "b" ⟨.app, none⟩)] ++
    List.replicate 5 (smoothStep 3) ++ hookSteps 3 0 ++ List.replicate 4 (smoothStep 3)

/-- The edge of `B` is still on `A` when `B` is destroyed. -/
theorem edge_dangles :
    letI := permissiveInfra
    ¬∀ pool, plainSystem.machine.Reachable pool → NoDangling (fun _ _ => True) pool := by
  let _ := permissiveInfra
  intro hdangling
  have hboot : plainSystem.machine.Reachable
      (plainSystem.boot (AppWorld.fresh (.ok ()) 10 10)) :=
    .start ⟨_, start_fresh 10 10 (by decide), rfl⟩
  obtain ⟨pool, hreach, htest⟩ := hboot.exec_any (fun _ _ => true) (fun _ _ _ => trivial)
    danglingSteps
    (fun pool => decide
      ((pool.shared.registry.findEntryLocked ⟨.component, 1⟩).map RegistryEntry.bindings =
          some [⟨⟨.component, 2⟩, 4, true, false, 0⟩] ∧
        pool.shared.registry.findEntryLocked ⟨.component, 2⟩ = none))
    (by decide)
  obtain ⟨hbindings, hgone⟩ := of_decide_eq_true htest
  obtain ⟨entry, hfind, hedges⟩ := Option.map_eq_some_iff.mp hbindings
  have hpresent := (hdangling pool hreach).1 ⟨.component, 1⟩ entry rfl hfind
    ⟨⟨.component, 2⟩, 4, true, false, 0⟩ (hedges ▸ List.mem_singleton.mpr rfl)
  rw [hgone] at hpresent
  cases hpresent

end BbtFramework.App
