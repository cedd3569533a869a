import BbtFramework.App.ComponentTable

/-!
# Tables and handles

A bind that returned a handle has written the row of the new edge.  As long as the edge is
open the row stays, unless a bind, a recorded binding or a late unbind writes the row of
its type and name for another edge.
-/

namespace BbtFramework.App

open BbtFramework.Library

section

variable [Infra]

/-- No write takes the row of an open edge away. -/
def SparesRows (pool : AppPool Unit) (label : AppStep) : Prop :=
  ∀ write ∈ (pool.asked label).bind Action.tableWrite, write.Spares pool.shared

instance (pool : AppPool Unit) (label : AppStep) : Decidable (SparesRows pool label) :=
  inferInstanceAs (Decidable (∀ write ∈ _, TableWrite.Spares _ write))

theorem tabled_of_reachable {pool : AppPool Unit}
    (hreach : plainSystem.machine.ReachableWhere SparesRows pool) :
    pool.shared.registry.Tabled := by
  refine hreach.induct (motive := fun pool => pool.shared.registry.Tabled) ?_ ?_
  · rintro pool ⟨world, ⟨options, maxObjects, maxBindings, -, rfl⟩, rfl⟩
    exact (Registry.Tabled.of_empty (fun _ => rfl)).created .app (fun _ => rfl)
      (fun _ _ hobject => by cases hobject)
  · intro pool label next hpool htabled hguard hnext
    cases label with
    | spawn entry =>
        cases hnext
        exact htabled
    | step thread choice =>
        obtain ⟨-, act, rest, answer, last, hthread, hperform, rfl⟩ :=
          System.next_step hnext
        cases act with
        | query query =>
            obtain ⟨-, rfl⟩ := AppWorld.perform_query hperform
            exact htabled
        | command command =>
            refine AppWorld.apply_tabled ?_ (AppWorld.perform_command hperform)
              (balanced_of_reachable hpool.reachable) htabled
            intro write hwrite
            apply hguard write
            rw [Pool.asked_call hthread]
            exact hwrite
    | env event =>
        obtain ⟨last, hreact, rfl⟩ := Option.map_eq_some_iff.mp hnext
        exact AppWorld.event_tabled (AppWorld.react_event hreact) htabled

end

structure Registry.Certifies (registry : Registry) (subject : ObjectId)
    (row : BoundComponent) : Prop where
  id : row.object.id.number < registry.nextIdSeq
  generation : row.bindingGeneration < registry.nextGeneration
  edge : ∀ component edge, registry.findEntryLocked row.object.id = some component →
    edge ∈ component.bindings → edge.generation = row.bindingGeneration →
      component.row row.object.id edge = row ∧ edge.subjectId = subject

section

variable [Infra] {world last : AppWorld} {subject : ObjectId} {row : BoundComponent}

theorem AppWorld.AgeStep.certifies {asked : Option Action}
    (hstep : world.AgeStep asked last) (hcertifies : world.registry.Certifies subject row) :
    last.registry.Certifies subject row := by
  have hinherits := hstep.inherits
  refine ⟨Nat.lt_of_lt_of_le hcertifies.id hinherits.ids,
    Nat.lt_of_lt_of_le hcertifies.generation hinherits.generations, ?_⟩
  intro component edge hfind hmem hgeneration
  have haged : ∀ earlier : RegistryEntry,
      world.registry.findEntryLocked row.object.id = some earlier →
      component.generation = earlier.generation → component.typeName = earlier.typeName →
      component.name = earlier.name →
      (∃ known ∈ earlier.bindings, edge.Ages known) →
      component.row row.object.id edge = row ∧ edge.subjectId = subject := by
    rintro earlier hearlier hsame htype hname ⟨known, hknown, hages⟩
    obtain ⟨hrow, hsubject⟩ := hcertifies.edge earlier known hearlier hknown
      (hages.generation.symm.trans hgeneration)
    refine ⟨Eq.trans ?_ hrow, hages.subject.trans hsubject⟩
    rw [RegistryEntry.row, RegistryEntry.row, Registry.makeHandle, Registry.makeHandle,
      htype, hname, hages.generation, hsame]
  cases hstep with
  | ages hids hgenerations hages =>
      obtain ⟨earlier, hearlier, hage⟩ := hages _ component hfind
      exact haged earlier hearlier hage.generation hage.typeName hage.name
        (hage.edges edge hmem)
  | created kind hcreated =>
      obtain hold | ⟨hnew, -⟩ := hcreated.find hfind
      · exact haged component hold rfl rfl rfl ⟨edge, hmem, .refl edge⟩
      · have hlt := hcertifies.id
        rw [hnew] at hlt
        exact absurd hlt (Nat.lt_irrefl _)
  | bound handle key id found made change hasked hchecks hlast =>
      rw [hlast] at hfind
      obtain ⟨earlier, hearlier, hage⟩ := AppWorld.find_bound hfind
      obtain ⟨known, hknown, hedge⟩ := hage.edges edge hmem
      split at hage
      case isTrue heq =>
        rw [if_pos heq] at hknown
        rcases List.mem_append.mp hknown with hknown | hknown
        · exact haged earlier hearlier hage.generation hage.typeName hage.name
            ⟨known, hknown, hedge⟩
        · obtain rfl := List.mem_singleton.mp hknown
          have hlt := hcertifies.generation
          rw [← hgeneration, hedge.generation] at hlt
          exact absurd hlt (Nat.lt_irrefl _)
      case isFalse hne =>
        rw [if_neg hne] at hknown
        exact haged earlier hearlier hage.generation hage.typeName hage.name
          ⟨known, hknown, hedge⟩

end

/-- What an unbind or a bind of another edge leaves of an edge. -/
def Binding.face (edge : Binding) : ObjectId × Nat × Bool :=
  (edge.subjectId, edge.generation, edge.retiring)

def Registry.HasOpen (registry : Registry) (subject : ObjectId) (row : BoundComponent) :
    Prop :=
  ∃ component edge, registry.findEntryLocked row.object.id = some component ∧
    edge ∈ component.bindings ∧ edge.retiring = false ∧ edge.subjectId = subject ∧
    component.row row.object.id edge = row

def Registry.HasBase (registry : Registry) (subject : ObjectId) : Prop :=
  ∃ owner base, registry.findEntryLocked subject = some owner ∧ owner.object = some base

/-- The commands of `CoBindComponent` and `CoUnbindComponent`; none of them takes up the
edge with the generation. -/
def Command.LeavesOpen [Infra] (world : AppWorld) (generation : Nat) : Command → Prop
  | .bindComponent _ _ | .finishUnbind _ _ _ _ _ => True
  | .beginUnbind subject key =>
      ∀ edge, (world.beginUnbind subject key).1 = .ok edge → edge.2 ≠ generation
  | _ => False

def Command.registers : Command → Bool
  | .createComponent _ | .createService _ _ | .createActorType _
  | .finishDestroy _ => true
  | _ => false

namespace Registry

variable {subject other : ObjectId} {edges : List Binding} {edge sealed : Binding}

theorem mem_sealEdge_of_ne (hmem : edge ∈ edges) (hopen : openEdge other edges = some sealed)
    (hne : sealed.generation ≠ edge.generation) : edge ∈ sealEdge other edges := by
  induction edges with
  | nil => cases hmem
  | cons head rest ih =>
      rw [openEdge, List.find?_cons] at hopen
      rw [sealEdge]
      split
      case isTrue htest =>
        rw [decide_eq_true htest] at hopen
        obtain rfl := Option.some.inj hopen
        rcases List.mem_cons.mp hmem with rfl | hmem
        · exact absurd rfl hne
        · exact List.mem_cons_of_mem _ hmem
      case isFalse htest =>
        rw [decide_eq_false htest] at hopen
        rcases List.mem_cons.mp hmem with rfl | hmem
        · exact List.mem_cons_self
        · exact List.mem_cons_of_mem _ (ih hmem hopen)

variable {before after : Registry} {row : BoundComponent}

theorem HasOpen.step (hopen : before.HasOpen subject row)
    (hstep : ∀ component, before.findEntryLocked row.object.id = some component →
      ∀ edge ∈ component.bindings, edge.retiring = false → edge.subjectId = subject →
        edge.generation = row.bindingGeneration →
        ∃ later kept, after.findEntryLocked row.object.id = some later ∧
          kept ∈ later.bindings ∧ kept.face = edge.face ∧
          later.generation = component.generation ∧ later.typeName = component.typeName ∧
          later.name = component.name) :
    after.HasOpen subject row := by
  obtain ⟨component, edge, hfind, hmem, hretiring, hsubject, hrow⟩ := hopen
  obtain ⟨later, kept, hlater, hkept, hface, hgeneration, htype, hname⟩ :=
    hstep component hfind edge hmem hretiring hsubject (hrow ▸ rfl)
  obtain ⟨hsubject', hgeneration', hretiring'⟩ : kept.subjectId = edge.subjectId ∧
      kept.generation = edge.generation ∧ kept.retiring = edge.retiring := by
    simpa [Binding.face] using hface
  refine ⟨later, kept, hlater, hkept, hretiring'.trans hretiring, hsubject'.trans hsubject,
    Eq.trans ?_ hrow⟩
  rw [RegistryEntry.row, RegistryEntry.row, makeHandle, makeHandle, htype, hname,
    hgeneration, hgeneration']

theorem HasOpen.modify {id : ObjectId} {change : RegistryEntry → RegistryEntry}
    (hopen : before.HasOpen subject row)
    (hfields : ∀ entry, before.findEntryLocked id = some entry →
      (change entry).generation = entry.generation ∧
        (change entry).typeName = entry.typeName ∧ (change entry).name = entry.name)
    (hedges : ∀ entry, before.findEntryLocked id = some entry →
      ∀ edge ∈ entry.bindings, edge.retiring = false →
        edge.generation = row.bindingGeneration → edge ∈ (change entry).bindings) :
    (before.modify id change).HasOpen subject row := by
  refine hopen.step ?_
  intro component hfind edge hmem hretiring _ hgeneration
  by_cases heq : row.object.id = id
  · refine ⟨change component, edge, ?_,
      hedges component (heq ▸ hfind) edge hmem hretiring hgeneration, rfl,
      hfields component (heq ▸ hfind)⟩
    rw [findEntryLocked_modify, if_pos heq, ← heq, hfind]
    rfl
  · refine ⟨component, edge, ?_, hmem, rfl, rfl, rfl, rfl⟩
    rw [findEntryLocked_modify, if_neg heq]
    exact hfind

/-- Objects that are there stay there, with or without a table. -/
def SameBases (before after : Registry) : Prop :=
  Agree (fun entry => entry.object.isSome) before after

theorem HasBase.step (hbase : before.HasBase subject) (hsame : before.SameBases after) :
    after.HasBase subject := by
  obtain ⟨owner, base, howner, hobject⟩ := hbase
  obtain ⟨later, hlater, hsome⟩ := hsame.find_some' howner
  have hsome : later.object.isSome = true := by
    rw [hsome, hobject]
    rfl
  obtain ⟨after, hafter⟩ := Option.isSome_iff_exists.mp hsome
  exact ⟨later, after, hlater, hafter⟩

end Registry

namespace AppWorld

variable {world last : AppWorld} {subject : ObjectId} {row : BoundComponent}

theorem sameBases_changeSubject (world : AppWorld) (other : ObjectId)
    (change : ObjectBase → ObjectBase) :
    world.registry.SameBases (world.changeSubject other change).registry := by
  intro id
  rw [findEntryLocked_changeSubject, Option.map_map]
  congr 1
  funext entry
  simp only [Function.comp]
  split
  · exact Option.isSome_map
  · rfl

theorem hasOpen_changeSubject {other : ObjectId} {change : ObjectBase → ObjectBase}
    (hopen : world.registry.HasOpen subject row) :
    (world.changeSubject other change).registry.HasOpen subject row := by
  refine hopen.step ?_
  intro component hfind edge hmem _ _ _
  refine ⟨if row.object.id = other then
    { component with object := component.object.map change } else component, edge, ?_, ?_, rfl,
    ?_⟩
  · rw [findEntryLocked_changeSubject, hfind]
    rfl
  · split
    · exact hmem
    · exact hmem
  · split
    · exact ⟨rfl, rfl, rfl⟩
    · exact ⟨rfl, rfl, rfl⟩

variable [Infra]

/-- What makes or destroys no entry leaves every object its instance. -/
theorem apply_sameBases {command : Command} {choice : Choice} {answer : command.Answer}
    (hregisters : command.registers = false)
    (happly : world.apply command choice = some (answer, last)) :
    world.registry.SameBases last.registry := by
  cases command with
  | createComponent key => cases hregisters
  | createService name allowed => cases hregisters
  | createActorType type => cases hregisters
  | finishDestroy id => cases hregisters
  | sealSubjectEdges other =>
      cases happly
      apply Registry.agree_modifyAll
      intro id entry _
      split
      · rfl
      · split
        · exact Option.isSome_map
        · rfl
  | eraseSubjectEdges other =>
      cases happly
      apply Registry.agree_modifyAll
      intro id entry _
      split
      · rfl
      · rfl
  | eraseSubjectEdgesOn other components =>
      cases happly
      apply Registry.agree_modifyAll
      intro id entry _
      dsimp only
      split
      · split
        · rfl
        · rfl
      · rfl
  | bindComponent handle key =>
      replace happly := Option.some.inj happly
      obtain ⟨error, heq⟩ | ⟨id, component, edge, -, heq⟩ :=
        world.bindComponent_writes handle key
      · cases heq.symm.trans happly
        exact .refl _
      · cases heq.symm.trans happly
        have hbound : world.registry.SameBases (world.withEdge id handle.id).registry :=
          (Registry.agree_bump _).trans (Registry.agree_modify (fun _ _ => rfl))
        exact hbound.trans (sameBases_changeSubject _ _ _)
  | recordBinding other type name object generation =>
      cases happly
      exact sameBases_changeSubject _ _ _
  | beginUnbind other key =>
      replace happly := Option.some.inj happly
      obtain ⟨error, heq⟩ | ⟨id, component, -, hfind, hcases⟩ :=
        world.beginUnbind_cases other key
      · cases heq.symm.trans happly
        exact .refl _
      · obtain ⟨sealed, -, heq⟩ | ⟨generation, -, heq⟩ := hcases
        · cases heq.symm.trans happly
          apply Registry.agree_modify
          intro entry hfound
          obtain rfl := Option.some.inj (hfind.symm.trans hfound)
          rfl
        · cases heq.symm.trans happly
          exact .refl _
  | finishUnbind component other generation type name =>
      cases happly
      have hbases : world.registry.SameBases (world.registry.modify component (fun entry =>
          Registry.eraseBindingLocked entry other generation)) :=
        Registry.agree_modify (fun _ _ => rfl)
      let erased : AppWorld := { world with
        registry := world.registry.modify component (fun entry =>
          Registry.eraseBindingLocked entry other generation) }
      exact hbases.trans (erased.sameBases_changeSubject _ _)
  | _ => exact (apply_framed happly).agree (by simp [Command.Keeps])

/-- A bind or an unbind of another edge leaves the open edge and the subject. -/
theorem apply_leavesOpen {command : Command} {choice : Choice} {answer : command.Answer}
    (hleaves : command.LeavesOpen world row.bindingGeneration)
    (happly : world.apply command choice = some (answer, last))
    (hopen : world.registry.HasOpen subject row) :
    last.registry.HasOpen subject row ∧ world.registry.SameBases last.registry := by
  have hbases : command.registers = false := by
    cases command with
    | createComponent key => exact hleaves.elim
    | createService name allowed => exact hleaves.elim
    | createActorType type => exact hleaves.elim
    | finishDestroy id => exact hleaves.elim
    | _ => rfl
  refine ⟨?_, apply_sameBases hbases happly⟩
  cases command with
  | bindComponent handle key =>
      replace happly := Option.some.inj happly
      obtain ⟨error, heq⟩ | ⟨id, component, edge, -, heq⟩ :=
        world.bindComponent_writes handle key
      · cases heq.symm.trans happly
        exact hopen
      · cases heq.symm.trans happly
        have hbumped : world.registry.bumpGeneration.HasOpen subject row := hopen
        have hedge : (world.withEdge id handle.id).registry.HasOpen subject row :=
          hbumped.modify (fun _ _ => ⟨rfl, rfl, rfl⟩)
            (fun _ _ _ hmem _ _ => List.mem_append_left _ hmem)
        exact hasOpen_changeSubject hedge
  | finishUnbind component other generation type name =>
      cases happly
      have herased : (world.registry.modify component (fun entry =>
          Registry.eraseBindingLocked entry other generation)).HasOpen subject row := by
        refine hopen.modify (fun _ _ => ⟨rfl, rfl, rfl⟩) ?_
        intro entry _ edge hmem hretiring _
        refine (List.mem_eraseP_of_neg ?_).mpr hmem
        simp [hretiring]
      let erased : AppWorld := { world with
        registry := world.registry.modify component (fun entry =>
          Registry.eraseBindingLocked entry other generation) }
      replace herased : erased.registry.HasOpen subject row := herased
      exact hasOpen_changeSubject herased
  | beginUnbind other key =>
      replace happly := Option.some.inj happly
      obtain ⟨error, heq⟩ | ⟨id, component, -, hfind, hcases⟩ :=
        world.beginUnbind_cases other key
      · cases heq.symm.trans happly
        exact hopen
      · obtain ⟨sealed, hsealed, heq⟩ | ⟨generation, -, heq⟩ := hcases
        · have hne : sealed.generation ≠ row.bindingGeneration :=
            hleaves _ (congrArg Prod.fst heq)
          cases heq.symm.trans happly
          have hentry : ∀ entry, world.registry.findEntryLocked id = some entry →
              component = entry := fun _ hentry => Option.some.inj (hfind.symm.trans hentry)
          refine hopen.modify ?_ ?_
          · intro entry hfound
            obtain rfl := hentry entry hfound
            exact ⟨rfl, rfl, rfl⟩
          · intro entry hfound edge hmem _ hgeneration
            obtain rfl := hentry entry hfound
            exact Registry.mem_sealEdge_of_ne hmem hsealed (hgeneration ▸ hne)
        · cases heq.symm.trans happly
          exact hopen
  | _ => exact hleaves.elim

/-- Borrows and hooks leave the faces of all edges. -/
theorem event_faces {event : Event} (hevent : world.event event = some last) :
    Registry.Agree (fun entry => entry.bindings.map Binding.face) world.registry
      last.registry := by
  by_cases hquiet : event.quiet = true
  · exact (event_quiet hquiet hevent).2.comp (fun identity =>
      identity.2.2.2.2.2.2.map Binding.face)
  · cases event with
    | borrow object generation allow =>
        simp only [AppWorld.event] at hevent
        split at hevent
        · cases hevent
          exact .refl _
        case h_2 lease registry hborrow =>
          cases hevent
          obtain ⟨entry, edge, -, -, -, -, -, -, -, -, rfl⟩ := Registry.borrowImpl_ok hborrow
          have hface : ∀ edge : Binding,
              Binding.face { edge with borrows := edge.borrows + 1 } = edge.face :=
            fun _ => rfl
          exact Registry.agree_modify (fun entry _ => map_modifyEdge hface entry.bindings)
    | release lease =>
        simp only [AppWorld.event] at hevent
        split at hevent
        · cases hevent
          have hface : ∀ edge : Binding,
              Binding.face { edge with borrows := edge.borrows - 1 } = edge.face :=
            fun _ => rfl
          exact Registry.agree_modify (fun entry _ => map_modifyEdge hface entry.bindings)
        · cases hevent
    | _ => exact absurd rfl hquiet

theorem event_leavesOpen {event : Event} (hevent : world.event event = some last)
    (hopen : world.registry.HasOpen subject row) :
    last.registry.HasOpen subject row ∧ world.registry.SameBases last.registry := by
  have hundisturbed := event_undisturbed hevent
  refine ⟨hopen.step ?_, hundisturbed.agree (fun _ _ _ _ => rfl)⟩
  intro component hfind edge hmem _ _ _
  obtain ⟨later, hlater, hfaces⟩ := (event_faces hevent).find_some' hfind
  have hface : edge.face ∈ later.bindings.map Binding.face := by
    rw [hfaces]
    exact List.mem_map_of_mem hmem
  obtain ⟨kept, hkept, hsame⟩ := List.mem_map.mp hface
  have hnames : Registry.Agree (fun entry => (entry.generation, entry.typeName, entry.name))
      world.registry last.registry := hundisturbed.agree (fun _ _ _ _ => rfl)
  obtain ⟨other, hother, hfields⟩ := hnames.find_some' hfind
  obtain rfl := Option.some.inj (hlater.symm.trans hother)
  simp only [Prod.mk.injEq] at hfields
  exact ⟨later, kept, hlater, hkept, hsame, hfields⟩

end AppWorld

section

variable [Infra] {pool bound held : AppPool Unit} {label : AppStep} {labels : List AppStep}
variable {subject object : ObjectHandle} {key : ComponentKey} {generation : Nat}

/-- The step belongs to a bind, or to an unbind of another edge. -/
def OnlyBinds (generation : Nat) (pool : AppPool Unit) (label : AppStep) : Prop :=
  ∀ command, pool.asked label = some (.command command) →
    command.LeavesOpen pool.shared generation

theorem hasOpen_of_run {row : BoundComponent} {id : ObjectId}
    (hrun : plainSystem.machine.Run (OnlyBinds row.bindingGeneration) bound labels held)
    (hopen : bound.shared.registry.HasOpen id row)
    (hbase : bound.shared.registry.HasBase id) :
    held.shared.registry.HasOpen id row ∧ held.shared.registry.HasBase id := by
  induction hrun with
  | refl => exact ⟨hopen, hbase⟩
  | @tail labels pool next label _ hguard hnext ih =>
      obtain ⟨hopen, hbase⟩ := ih
      cases label with
      | spawn entry =>
          cases hnext
          exact ⟨hopen, hbase⟩
      | step thread choice =>
          obtain ⟨-, act, rest, answer, last, hthread, hperform, rfl⟩ :=
            System.next_step hnext
          cases act with
          | query query =>
              obtain ⟨-, rfl⟩ := AppWorld.perform_query hperform
              exact ⟨hopen, hbase⟩
          | command command =>
              have hleaves : command.LeavesOpen pool.shared row.bindingGeneration := by
                apply hguard
                rw [Pool.asked_call hthread]
              obtain ⟨hlater, hsame⟩ := AppWorld.apply_leavesOpen hleaves
                (AppWorld.perform_command hperform) hopen
              exact ⟨hlater, hbase.step hsame⟩
      | env event =>
          obtain ⟨last, hreact, rfl⟩ := Option.map_eq_some_iff.mp hnext
          obtain ⟨hlater, hsame⟩ :=
            AppWorld.event_leavesOpen (AppWorld.react_event hreact) hopen
          exact ⟨hlater, hbase.step hsame⟩

theorem certifies_of_run {row : BoundComponent} {id : ObjectId}
    {guard : AppPool Unit → AppStep → Prop}
    (hrun : plainSystem.machine.Run guard bound labels held)
    (hcertifies : bound.shared.registry.Certifies id row) :
    held.shared.registry.Certifies id row := by
  induction hrun with
  | refl => exact hcertifies
  | tail _ _ hnext ih => exact (AppWorld.next_ageStep hnext).certifies ih

/-- What a bind has written when it returns a handle. -/
theorem Issues.row (hissues : Issues pool label subject object generation bound)
    (hasked : pool.asked label = some (.command (.bindComponent subject key)))
    (hreach : plainSystem.machine.Reachable pool) :
    object.id.kind = .component ∧
      bound.shared.registry.Certifies subject.id ⟨key.type, key.name, object, generation⟩ ∧
      bound.shared.registry.HasOpen subject.id ⟨key.type, key.name, object, generation⟩ ∧
      (bound.shared.crashed = false → bound.shared.registry.HasBase subject.id) := by
  obtain ⟨hlt, hsubject⟩ := hissues.edges hreach
  obtain ⟨id, component, edge, hchecks, rfl, rfl, hshared⟩ := hissues.writes hasked
  obtain ⟨hkind, hcomponent, -, -, ⟨owner, howner, -⟩, -, -⟩ :=
    AppWorld.bindChecks_ok hchecks
  obtain ⟨htype, hname⟩ := Registry.findComponentLocked_key
    (AppWorld.bindChecks_found hchecks).1 hcomponent
  have hedge : (pool.shared.withEdge id subject.id).registry.findEntryLocked id =
      some { component with
        bindings := component.bindings ++ [pool.shared.newEdge subject.id] } := by
    rw [AppWorld.withEdge, Registry.findEntryLocked_modify, if_pos rfl]
    exact congrArg (Option.map _) hcomponent
  have hmade : (pool.shared.withEdge id subject.id).registry.HasOpen subject.id
      ⟨key.type, key.name, Registry.makeHandle id component,
        pool.shared.registry.nextGeneration⟩ := by
    refine ⟨_, pool.shared.newEdge subject.id, hedge,
      List.mem_append_right _ (List.mem_singleton.mpr rfl), rfl, rfl, ?_⟩
    rw [RegistryEntry.row, htype, hname]
    rfl
  refine ⟨hkind, ⟨?_, hlt, ?_⟩, ?_, ?_⟩
  · rw [hshared, AppWorld.nextIdSeq_changeSubject]
    exact Registry.number_lt_of_find hedge
  · intro later other hlater hmem hgeneration
    refine ⟨?_, hsubject later hlater other hmem hgeneration⟩
    rw [hshared] at hlater
    obtain ⟨middle, hmiddle, rfl⟩ := AppWorld.find_changeSubject hlater
    obtain rfl := Option.some.inj (hedge.symm.trans hmiddle)
    rw [RegistryEntry.row, hgeneration]
    split
    · rw [← htype, ← hname]
      rfl
    · rw [← htype, ← hname]
      rfl
  · rw [hshared]
    exact AppWorld.hasOpen_changeSubject hmade
  · intro hcrashed
    rw [hshared] at hcrashed ⊢
    have hbefore : ∃ entry, (pool.shared.withEdge id subject.id).registry.findEntryLocked
        subject.id = some entry := by
      rw [AppWorld.withEdge, Registry.findEntryLocked_modify]
      split
      case isTrue heq => exact ⟨_, congrArg (Option.map _) (heq ▸ howner)⟩
      case isFalse => exact ⟨owner, howner⟩
    obtain ⟨entry, hentry⟩ := hbefore
    cases hobject : entry.object with
    | none =>
        rw [AppWorld.changeSubject, hentry] at hcrashed
        dsimp only at hcrashed
        rw [if_pos (Option.isNone_iff_eq_none.mpr hobject)] at hcrashed
        cases hcrashed
    | some base =>
        have hafter := (pool.shared.withEdge id subject.id).findEntryLocked_changeSubject
          subject.id (fun base => base.bindComponentEntry key.type key.name
            (Registry.makeHandle id component) pool.shared.registry.nextGeneration)
          subject.id
        rw [hentry, Option.map_some, if_pos rfl] at hafter
        exact ⟨_, _, hafter, congrArg (Option.map _) hobject⟩

/-- While no write takes the row of an open edge away, the subject's table has exactly the
row of an edge that was made by a bind that returned ok, as long as the edge is open; and
it is open as long as nothing but binds and unbinds of other edges goes on. -/
theorem table_agrees
    (hreach : plainSystem.machine.ReachableWhere SparesRows pool)
    (hspares : SparesRows pool label)
    (hasked : pool.asked label = some (.command (.bindComponent subject key)))
    (hissues : Issues pool label subject object generation bound)
    (hrun : plainSystem.machine.Run SparesRows bound labels held) :
    (∀ component edge owner base,
      held.shared.registry.findEntryLocked object.id = some component →
      edge ∈ component.bindings → edge.generation = generation → edge.retiring = false →
      held.shared.registry.findEntryLocked subject.id = some owner →
      owner.object = some base →
      base.rowsOf key.type key.name = [⟨key.type, key.name, object, generation⟩]) ∧
      (bound.shared.crashed = false →
        plainSystem.machine.Run (OnlyBinds generation) bound labels held →
        ∃ owner base, held.shared.registry.findEntryLocked subject.id = some owner ∧
          owner.object = some base ∧
          base.rowsOf key.type key.name = [⟨key.type, key.name, object, generation⟩]) := by
  obtain ⟨hkind, hcertifies, hopen, hbase⟩ := hissues.row hasked hreach.reachable
  have hheld : plainSystem.machine.ReachableWhere SparesRows held :=
    (hreach.step hspares hissues.next).run hrun
  have hrows : ∀ component edge owner base,
      held.shared.registry.findEntryLocked object.id = some component →
      edge ∈ component.bindings → edge.generation = generation → edge.retiring = false →
      held.shared.registry.findEntryLocked subject.id = some owner →
      owner.object = some base →
      base.rowsOf key.type key.name = [⟨key.type, key.name, object, generation⟩] := by
    intro component edge owner base hfind hmem hgeneration hretiring howner hobject
    obtain ⟨hrow, hsubject⟩ :=
      (certifies_of_run hrun hcertifies).edge component edge hfind hmem hgeneration
    have hshows := (tabled_of_reachable hheld).rows object.id component edge hkind hfind hmem
      hretiring (fun hfalse => hfalse) owner base (hsubject ▸ howner) hobject
    rw [hrow] at hshows
    exact hshows
  refine ⟨hrows, ?_⟩
  intro hcrashed honly
  obtain ⟨⟨component, edge, hfind, hmem, hretiring, -, hrow⟩, owner, base, howner, hobject⟩ :=
    hasOpen_of_run honly hopen (hbase hcrashed)
  exact ⟨owner, base, howner, hobject, hrows component edge owner base hfind hmem
    (congrArg BoundComponent.bindingGeneration hrow) hretiring howner hobject⟩

end

/-! ## A bind after an unbind, and one before its end -/

/-- What `OnlyBinds` asks of the action of a step. -/
def Action.leavesOpen [Infra] (world : AppWorld) (generation : Nat) : Action → Bool
  | .query _ | .command (.bindComponent _ _) | .command (.finishUnbind _ _ _ _ _) => true
  | .command (.beginUnbind subject key) =>
      match (world.beginUnbind subject key).1 with
      | .ok edge => edge.2 ≠ generation
      | .error _ => true
  | _ => false

theorem onlyBinds_of_leavesOpen [Infra] {generation : Nat} {pool : AppPool Unit}
    {label : AppStep}
    (hleaves : (pool.asked label).all (Action.leavesOpen pool.shared generation) = true) :
    OnlyBinds generation pool label := by
  intro command hasked
  rw [hasked] at hleaves
  cases command with
  | bindComponent handle key => trivial
  | finishUnbind component subject generation type name => trivial
  | beginUnbind subject key =>
      intro edge hedge
      change Action.leavesOpen pool.shared generation (.command (.beginUnbind subject key)) =
        true at hleaves
      rw [Action.leavesOpen, hedge] at hleaves
      exact of_decide_eq_true hleaves
  | _ => cases hleaves

/-- Two components; the second binds the first one. -/
def bindPair (subject : ObjectHandle) : List AppStep :=
  [.spawn (.coInstallComponent "A" "a" ⟨.app, none⟩),
    .spawn (.coInstallComponent "B" "b" ⟨.app, none⟩),
    .spawn (.coBindComponent "A" subject "a" ⟨.app, none⟩)] ++
    List.replicate 8 (smoothStep 0) ++ List.replicate 8 (smoothStep 1) ++ [smoothStep 2]

/-- The edge is taken up again, a third component is installed, and the first one is about to
be bound for the second time. -/
def rebindSteps (subject : ObjectHandle) : List AppStep :=
  bindPair subject ++ [smoothStep 2,
    .spawn (.coUnbindComponent "A" subject "a" ⟨.app, none⟩),
    .spawn (.coInstallComponent "C" "c" ⟨.app, none⟩),
    .spawn (.coBindComponent "A" subject "a" ⟨.app, none⟩)] ++
    List.replicate 4 (smoothStep 3) ++ List.replicate 8 (smoothStep 4) ++ [smoothStep 5]

/-- The third component is bound and unbound, and the edge of the first is borrowed. -/
def besideSteps (subject object : ObjectHandle) (generation : Nat) : List AppStep :=
  [.spawn (.coBindComponent "C" subject "c" ⟨.app, none⟩),
    .spawn (.coUnbindComponent "C" subject "c" ⟨.app, none⟩)] ++
    List.replicate 2 (smoothStep 6) ++ List.replicate 4 (smoothStep 7) ++
    [.env (.borrow object generation true)]

/-- The edge of the second bind is borrowed while another one has come and gone, and its row
is there. -/
theorem table_agrees_rebound :
    letI := permissiveInfra
    let subject : ObjectHandle := ⟨true, ⟨.component, 2⟩, 3⟩
    let object : ObjectHandle := ⟨true, ⟨.component, 1⟩, 2⟩
    ∃ pool bound held labels, plainSystem.machine.Reachable pool ∧
      Issues pool (smoothStep 5) subject object 6 bound ∧
      plainSystem.machine.Run SparesRows bound labels held ∧
      held.shared.leasesOn object.id = 1 ∧
      held.shared.registry.nextGeneration = 8 ∧
      held.shared.registry.countBindingsLocked = 1 ∧
      ∃ owner base, held.shared.registry.findEntryLocked subject.id = some owner ∧
        owner.object = some base ∧ base.rowsOf "A" "a" = [⟨"A", "a", object, 6⟩] := by
  let _ := permissiveInfra
  intro subject object
  let check : AppPool Unit → AppStep → Bool := fun pool label =>
    decide (SparesRows pool label) && (pool.asked label).all (Action.leavesOpen pool.shared 6)
  have hcheck : ∀ pool label, check pool label = true →
      SparesRows pool label ∧ OnlyBinds 6 pool label := by
    intro pool label htrue
    obtain ⟨hspares, hleaves⟩ := Bool.and_eq_true_iff.mp htrue
    exact ⟨of_decide_eq_true hspares, onlyBinds_of_leavesOpen hleaves⟩
  have hboot : plainSystem.machine.ReachableWhere SparesRows
      (plainSystem.boot (AppWorld.fresh (.ok ()) 10 10)) :=
    .start ⟨_, start_fresh 10 10 (by decide), rfl⟩
  obtain ⟨pool, hreach, htest⟩ := hboot.exec_any
    (fun pool label => decide (SparesRows pool label)) (fun _ _ => of_decide_eq_true)
    (rebindSteps subject)
    (fun pool => decide (SparesRows pool (smoothStep 5)) ∧
      (pool.asked (smoothStep 5)).bind Action.bindRequest =
        some (subject, ⟨"A", "a", .app, none⟩) ∧
      (pool.shared.bindComponent subject ⟨"A", "a", .app, none⟩).1 = .ok (object, 6) ∧
      (plainSystem.next pool (smoothStep 5)).any (fun bound => decide
        (bound.shared.crashed = false ∧
        (plainSystem.machine.exec check bound (besideSteps subject object 6)).any (fun held =>
          decide (held.shared.leasesOn object.id = 1 ∧
            held.shared.registry.nextGeneration = 8 ∧
            held.shared.registry.countBindingsLocked = 1)))) = true)
    (by decide)
  obtain ⟨hspares, hasked, hresult, hnext⟩ := of_decide_eq_true htest
  obtain ⟨bound, hbound, hrest⟩ := (Option.any_eq_true _ _).mp hnext
  obtain ⟨hcrashed, hrest⟩ := of_decide_eq_true hrest
  obtain ⟨held, hexec, hlast⟩ := (Option.any_eq_true _ _).mp hrest
  obtain ⟨hleases, hgeneration, hedges⟩ := of_decide_eq_true hlast
  have hissues : Issues pool (smoothStep 5) subject object 6 bound :=
    ⟨⟨_, Action.asked_bindRequest hasked, hresult⟩, hbound⟩
  have hrun : plainSystem.machine.Run SparesRows bound _ held :=
    Machine.Run.exec (fun pool label htrue => (hcheck pool label htrue).1) hexec
  have honly : plainSystem.machine.Run (OnlyBinds 6) bound _ held :=
    Machine.Run.exec (fun pool label htrue => (hcheck pool label htrue).2) hexec
  exact ⟨pool, bound, held, _, hreach.reachable, hissues, hrun, hleases, hgeneration, hedges,
    (table_agrees hreach (of_decide_eq_true hspares) (Action.asked_bindRequest hasked) hissues
      hrun).2 hcrashed honly⟩

/-- An unbind has sealed its edge when the pair is bound again; it ends after that bind
and takes the row of the new edge. -/
theorem table_disagrees :
    letI := permissiveInfra
    ¬∀ pool label subject object key generation bound labels held,
      plainSystem.machine.Reachable pool →
      pool.asked label = some (.command (.bindComponent subject key)) →
      Issues pool label subject object generation bound → bound.shared.crashed = false →
      plainSystem.machine.Run (OnlyBinds generation) bound labels held →
      ∃ owner base, held.shared.registry.findEntryLocked subject.id = some owner ∧
        owner.object = some base ∧
        base.rowsOf key.type key.name = [⟨key.type, key.name, object, generation⟩] := by
  let _ := permissiveInfra
  intro hclaim
  let subject : ObjectHandle := ⟨true, ⟨.component, 2⟩, 3⟩
  let object : ObjectHandle := ⟨true, ⟨.component, 1⟩, 2⟩
  let key : ComponentKey := ⟨"A", "a", .app, none⟩
  let check : AppPool Unit → AppStep → Bool := fun pool label =>
    (pool.asked label).all (Action.leavesOpen pool.shared 5)
  have hboot : plainSystem.machine.Reachable
      (plainSystem.boot (AppWorld.fresh (.ok ()) 10 10)) :=
    .start ⟨_, start_fresh 10 10 (by decide), rfl⟩
  obtain ⟨pool, hreach, htest⟩ := hboot.exec_any (fun _ _ => true) (fun _ _ _ => trivial)
    (bindPair subject ++ [smoothStep 2,
      .spawn (.coUnbindComponent "A" subject "a" ⟨.app, none⟩),
      .spawn (.coBindComponent "A" subject "a" ⟨.app, none⟩),
      smoothStep 3, smoothStep 3, smoothStep 4])
    (fun pool => (pool.asked (smoothStep 4)).bind Action.bindRequest = some (subject, key) ∧
      (pool.shared.bindComponent subject key).1 = .ok (object, 5) ∧
      (plainSystem.next pool (smoothStep 4)).any (fun bound => decide
        (bound.shared.crashed = false ∧
        (plainSystem.machine.exec check bound [smoothStep 3, smoothStep 3]).any (fun held =>
          (held.shared.registry.findEntryLocked subject.id).any (fun owner =>
            owner.object.any (fun base => base.rowsOf "A" "a" = []))))) = true)
    (by decide)
  obtain ⟨hasked, hresult, hnext⟩ := of_decide_eq_true htest
  obtain ⟨bound, hbound, hrest⟩ := (Option.any_eq_true _ _).mp hnext
  obtain ⟨hcrashed, hrest⟩ := of_decide_eq_true hrest
  obtain ⟨held, hexec, hrows⟩ := (Option.any_eq_true _ _).mp hrest
  obtain ⟨owner, howner, hrows⟩ := (Option.any_eq_true _ _).mp hrows
  obtain ⟨base, hobject, hempty⟩ := (Option.any_eq_true _ _).mp hrows
  obtain ⟨found, other, hfound, hother, hshows⟩ := hclaim pool (smoothStep 4) subject object
    key 5 bound _ held hreach (Action.asked_bindRequest hasked)
    ⟨⟨_, Action.asked_bindRequest hasked, hresult⟩, hbound⟩ hcrashed
    (.exec (fun _ _ => onlyBinds_of_leavesOpen) hexec)
  obtain rfl := Option.some.inj (howner.symm.trans hfound)
  obtain rfl := Option.some.inj (hobject.symm.trans hother)
  rw [of_decide_eq_true hempty] at hshows
  cases hshows

end BbtFramework.App
