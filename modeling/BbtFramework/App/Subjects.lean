import BbtFramework.App.TableAgreement

/-!
# The instances behind subjects

Services and components are registered with an instance, the application and actor types
without one.  A bind and the end of an unbind reach the table of the subject through its
instance.  No check of a bind keeps an actor type out: the edge is made first, and the
null pointer is dereferenced after it.
-/

namespace BbtFramework.App

open BbtFramework.Library

/-- The kinds of which every entry holds an instance. -/
def ObjectKind.hasInstance : ObjectKind → Bool
  | .service | .component => true
  | .app | .actor => false

namespace Registry

structure Instanced (registry : Registry) : Prop where
  objects : ∀ id entry, registry.findEntryLocked id = some entry →
    entry.object.isSome = id.kind.hasInstance
  subjects : ∀ id entry, registry.findEntryLocked id = some entry →
    ∀ edge ∈ entry.bindings, edge.subjectId.kind.hasInstance = true

variable {before after : Registry}

theorem Instanced.of_empty (hempty : ∀ id, before.findEntryLocked id = none) :
    before.Instanced := by
  constructor
  · intro id entry hfind
    cases (hempty id).symm.trans hfind
  · intro id entry hfind
    cases (hempty id).symm.trans hfind

theorem Instanced.append (hinstanced : before.Instanced) {kind : ObjectKind}
    {typeName name : String} {scope : ComponentScope} {ownerId : Option ObjectId}
    {state : ObjectState} {object : Option ObjectBase}
    (hobject : object.isSome = kind.hasInstance) :
    (before.append kind
      (.created typeName name scope ownerId state object)).Instanced := by
  constructor
  · intro id entry hfind
    rw [findEntryLocked_append] at hfind
    split at hfind
    case isTrue heq =>
      cases hfind
      rw [heq]
      exact hobject
    case isFalse => exact hinstanced.objects id entry hfind
  · intro id entry hfind edge hmem
    rw [findEntryLocked_append] at hfind
    split at hfind
    · cases hfind
      cases hmem
    · exact hinstanced.subjects id entry hfind edge hmem

theorem Instanced.remove (hinstanced : before.Instanced) (id : ObjectId) :
    (before.remove id).Instanced := by
  have hkept : ∀ other entry, (before.remove id).findEntryLocked other = some entry →
      before.findEntryLocked other = some entry := by
    intro other entry hfind
    rw [findEntryLocked_remove] at hfind
    split at hfind
    · cases hfind
    · exact hfind
  exact ⟨fun other entry hfind => hinstanced.objects other entry (hkept other entry hfind),
    fun other entry hfind => hinstanced.subjects other entry (hkept other entry hfind)⟩

theorem Instanced.some_object (hinstanced : before.Instanced) {id : ObjectId}
    (hkind : id.kind.hasInstance = true) {entry : RegistryEntry}
    (hfind : before.findEntryLocked id = some entry) : entry.object ≠ none := by
  have hsome := (hinstanced.objects id entry hfind).trans hkind
  exact Option.isSome_iff_ne_none.mp hsome

end Registry

section

variable [Infra]

/-- The command reaches into the instance of the subject: for the types a service allows,
or for its table of bound components. -/
def Command.Reaches (world : AppWorld) (subject : ObjectId) : Command → Prop
  | .bindComponent handle key => handle.id = subject ∧
      (subject.kind = .service ∨ (world.bindChecks handle key).toOption.isSome = true)
  | .recordBinding other _ _ _ _ | .finishUnbind _ other _ _ _ => other = subject
  | _ => False

namespace AppWorld

variable {world last : AppWorld}

omit [Infra] in
theorem crashed_changeSubject {subject : ObjectId} {change : ObjectBase → ObjectBase}
    (hobject : ∀ entry, world.registry.findEntryLocked subject = some entry →
      entry.object ≠ none) :
    (world.changeSubject subject change).crashed = world.crashed := by
  obtain heq | ⟨-, entry, hfind, hnone⟩ | ⟨heq, -⟩ := world.changeSubject_cases subject change
  · rw [heq]
  · exact absurd hnone (hobject entry hfind)
  · rw [heq]

omit [Infra] in
theorem crashed_takesDown {kind : ObjectKind} {phase : String}
    {result : Except Error ObjectId × AppWorld}
    (hresult : world.TakesDown kind phase result) : result.2.crashed = world.crashed := by
  obtain ⟨error, rfl⟩ | ⟨id, entry, -, -, -, -, rfl⟩ := hresult
  · rfl
  · rfl

/-- The commands that change no table dereference nothing. -/
theorem apply_harmless {command : Command} {choice : Choice} {answer : command.Answer}
    (hwrites : command.writesTable = false)
    (happly : world.apply command choice = some (answer, last)) :
    last.crashed = world.crashed := by
  cases command with
  | createComponent key =>
      replace happly := Option.some.inj happly
      obtain ⟨error, heq⟩ | ⟨made, heq, _, _, _, _, _, rfl⟩ := world.createComponent_cases key
      · cases heq.symm.trans happly
        rfl
      · cases heq.symm.trans happly
        rfl
  | createService name allowed =>
      replace happly := Option.some.inj happly
      obtain ⟨error, heq⟩ | ⟨made, heq, _, _, _, _, _, rfl⟩ :=
        world.createService_cases name allowed
      · cases heq.symm.trans happly
        rfl
      · cases heq.symm.trans happly
        rfl
  | createActorType type =>
      replace happly := Option.some.inj happly
      obtain ⟨error, heq⟩ | ⟨made, heq, _, _, _, _, _, rfl⟩ := world.createActorType_cases type
      · cases heq.symm.trans happly
        rfl
      · cases heq.symm.trans happly
        rfl
  | checkSettled id hook =>
      replace happly := Option.some.inj happly
      unfold checkSettled at happly
      split at happly
      · cases happly
        rfl
      · cases happly
        rfl
  | registerSettled id =>
      replace happly := Option.some.inj happly
      unfold registerSettled at happly
      split at happly
      · cases happly
        rfl
      · cases happly
        rfl
  | recheckSettled id =>
      cases happly
      unfold recheckSettled
      split
      · rfl
      · rfl
  | awaitSettled id =>
      replace happly : world.awaitSettled id choice = some (answer, last) := happly
      unfold awaitSettled at happly
      split at happly
      · dsimp only at happly
        split at happly
        · split at happly
          · cases happly
            rfl
          · cases happly
        · cases happly
          rfl
      · cases happly
  | takeHook id hook =>
      replace happly := Option.some.inj happly
      unfold takeHook at happly
      split at happly
      · cases happly
        rfl
      · cases happly
        rfl
  | submitHook task =>
      replace happly : world.submitHook task choice = some (answer, last) := happly
      unfold submitHook at happly
      split at happly
      · split at happly
        · cases happly
          rfl
        · cases happly
      · cases happly
  | noteRejected task =>
      simp only [apply] at happly
      split at happly
      · cases happly
        rfl
      · cases happly
  | notifyRejected task =>
      obtain ⟨found, -, hlast⟩ := Option.map_eq_some_iff.mp happly
      cases hlast
      rfl
  | beginStopService id =>
      replace happly := Option.some.inj happly
      obtain heq | ⟨entry, -, -, heq⟩ := world.beginStopService_cases id
      · cases heq.symm.trans happly
        rfl
      · cases heq.symm.trans happly
        rfl
  | beginStopComponent id =>
      replace happly := Option.some.inj happly
      obtain heq | ⟨entry, -, -, heq⟩ := world.beginStopComponent_cases id
      · cases heq.symm.trans happly
        rfl
      · cases heq.symm.trans happly
        rfl
  | beginUninstallComponent key =>
      have hresult := crashed_takesDown (world.beginUninstallComponent_takesDown key)
      rw [Option.some.inj happly] at hresult
      exact hresult
  | beginUninstallService name =>
      have hresult := crashed_takesDown (world.beginUninstallService_takesDown name)
      rw [Option.some.inj happly] at hresult
      exact hresult
  | beginUninstallActorType type =>
      have hresult := crashed_takesDown (world.beginUninstallActorType_takesDown type)
      rw [Option.some.inj happly] at hresult
      exact hresult
  | beginUnbind subject key =>
      replace happly := Option.some.inj happly
      obtain ⟨error, heq⟩ | ⟨id, component, -, -, ⟨edge, -, heq⟩ | ⟨generation, -, heq⟩⟩ :=
        world.beginUnbind_cases subject key
      · cases heq.symm.trans happly
        rfl
      · cases heq.symm.trans happly
        rfl
      · cases heq.symm.trans happly
        rfl
  | bindComponent subject key => cases hwrites
  | recordBinding subject type name object generation => cases hwrites
  | finishUnbind component subject generation type name => cases hwrites
  | sealSubjectEdges subject => cases hwrites
  | _ =>
      cases happly
      rfl

/-- A command that reaches only into instances that are there dereferences no null
pointer. -/
theorem apply_uncrashed {command : Command} {choice : Choice} {answer : command.Answer}
    (hinstanced : world.registry.Instanced)
    (hreaches : ∀ subject, command.Reaches world subject →
      subject.kind.hasInstance = true)
    (happly : world.apply command choice = some (answer, last)) :
    last.crashed = world.crashed := by
  cases command with
  | bindComponent handle key =>
      replace happly := Option.some.inj happly
      obtain ⟨error, heq⟩ | ⟨id, component, edge, hchecks, heq⟩ :=
        world.bindComponent_writes handle key
      · cases heq.symm.trans happly
        rfl
      · cases heq.symm.trans happly
        have hsame : Registry.Agree RegistryEntry.object world.registry
            (world.withEdge id handle.id).registry :=
          (Registry.agree_bump _).trans (Registry.agree_modify (fun _ _ => rfl))
        refine (crashed_changeSubject ?_).trans rfl
        intro entry hfind
        obtain ⟨old, hold, hobject⟩ := hsame.find_some hfind
        rw [← hobject]
        refine hinstanced.some_object (hreaches handle.id ⟨rfl, Or.inr ?_⟩) hold
        rw [hchecks]
        rfl
  | recordBinding other type name object generation =>
      cases happly
      exact crashed_changeSubject (fun _ hfind =>
        hinstanced.some_object (hreaches other rfl) hfind)
  | finishUnbind component other generation type name =>
      cases happly
      have hsame : Registry.Agree RegistryEntry.object world.registry
          (world.registry.modify component (fun entry =>
            Registry.eraseBindingLocked entry other generation)) :=
        Registry.agree_modify (fun _ _ => rfl)
      refine (crashed_changeSubject ?_).trans rfl
      intro entry hfind
      obtain ⟨old, hold, hobject⟩ := hsame.find_some hfind
      rw [← hobject]
      exact hinstanced.some_object (hreaches other rfl) hold
  | sealSubjectEdges other =>
      cases happly
      rfl
  | _ => exact apply_harmless rfl happly

theorem event_uncrashed {event : Event} (hevent : world.event event = some last) :
    last.crashed = world.crashed := by
  cases event with
  | notifyHook task =>
      simp only [AppWorld.event] at hevent
      split at hevent
      · cases hevent
        split
        · rfl
        · rfl
      · cases hevent
  | borrow object generation allow =>
      simp only [AppWorld.event] at hevent
      split at hevent
      · cases hevent
        rfl
      · cases hevent
        rfl
  | _ =>
      simp only [AppWorld.event] at hevent
      split at hevent
      · cases hevent
        rfl
      · cases hevent

/-- What makes an entry makes it with the instance of its kind. -/
theorem apply_registers {command : Command} {choice : Choice} {answer : command.Answer}
    (hinstanced : world.registry.Instanced) (hregisters : command.registers = true)
    (happly : world.apply command choice = some (answer, last)) :
    last.registry.Instanced := by
  have hmade : ∀ {kind : ObjectKind} {typeName name : String} {scope : ComponentScope}
      {ownerId : Option ObjectId} {state : ObjectState} {object : Option ObjectBase},
      object.isSome = kind.hasInstance → ∀ {id : ObjectId} {made : Registry},
        world.registry.createEntryLocked kind typeName name scope ownerId state object =
          .ok (id, made) → made.Instanced := by
    intro kind typeName name scope ownerId state object hobject id made hcreate
    obtain ⟨error, heq⟩ | heq := world.registry.createEntryLocked_cases kind typeName name
      scope ownerId state object
    · cases heq.symm.trans hcreate
    · cases heq.symm.trans hcreate
      exact hinstanced.append hobject
  cases command with
  | createComponent key =>
      replace happly := Option.some.inj happly
      unfold createComponent at happly
      split at happly
      · cases happly
        exact hinstanced
      · split at happly
        · cases happly
          exact hinstanced
        case h_2 id made hcreate =>
          cases happly
          exact hmade rfl hcreate
  | createService name allowed =>
      replace happly := Option.some.inj happly
      unfold createService at happly
      split at happly
      · cases happly
        exact hinstanced
      · split at happly
        · cases happly
          exact hinstanced
        case h_2 id made hcreate =>
          cases happly
          exact hmade rfl hcreate
  | createActorType type =>
      replace happly := Option.some.inj happly
      unfold createActorType at happly
      split at happly
      · cases happly
        exact hinstanced
      · split at happly
        · cases happly
          exact hinstanced
        case h_2 id made hcreate =>
          cases happly
          exact hmade rfl hcreate
  | finishDestroy id =>
      cases happly
      exact hinstanced.remove id
  | _ => cases hregisters

/-- A bind that passes its checks does not have the application as its subject; the others
without an instance are actor types. -/
theorem bindChecks_hasInstance {subject : ObjectHandle} {key : ComponentKey}
    (hchecks : (world.bindChecks subject key).toOption.isSome = true)
    (hactor : subject.id.kind ≠ .actor) : subject.id.kind.hasInstance = true := by
  cases hresult : world.bindChecks subject key with
  | error error =>
      rw [hresult] at hchecks
      cases hchecks
  | ok made =>
      obtain ⟨id, component, edge⟩ := made
      obtain ⟨-, -, -, happ, -⟩ := bindChecks_ok hresult
      cases hkind : subject.id.kind with
      | app => exact absurd hkind happ
      | actor => exact absurd hkind hactor
      | service => rfl
      | component => rfl

/-- While binds reach only into instances, objects and edges stay as they should be. -/
theorem apply_instanced {command : Command} {choice : Choice} {answer : command.Answer}
    (hinstanced : world.registry.Instanced)
    (hreaches : ∀ subject, command.Reaches world subject →
      subject.kind.hasInstance = true)
    (happly : world.apply command choice = some (answer, last)) :
    last.registry.Instanced := by
  by_cases hregisters : command.registers = true
  · exact apply_registers hinstanced hregisters happly
  · constructor
    · intro id entry hfind
      obtain ⟨old, hold, hsame⟩ :=
        (apply_sameBases (eq_false_of_ne_true hregisters) happly).find_some hfind
      exact hsame.symm.trans (hinstanced.objects id old hold)
    · intro id entry hfind edge hmem
      cases apply_ageStep happly with
      | ages _ _ hages =>
          obtain ⟨old, hold, hage⟩ := hages id entry hfind
          obtain ⟨known, hknown, hedge⟩ := hage.edges edge hmem
          rw [hedge.subject]
          exact hinstanced.subjects id old hold known hknown
      | created kind hcreated =>
          obtain hold | ⟨-, _, _, _, _, _, rfl⟩ := hcreated.find hfind
          · exact hinstanced.subjects id entry hold edge hmem
          · cases hmem
      | bound subject key component target made change hasked hchecks hlast =>
          rw [hlast] at hfind
          obtain ⟨old, hold, -, -, hedges⟩ := find_withEdge hfind
          obtain ⟨known, hknown, hsame⟩ | ⟨-, hnew⟩ := hedges edge hmem
          · rw [← hsame]
            exact hinstanced.subjects id old hold known hknown
          · cases hasked
            rw [hnew]
            refine hreaches subject.id ⟨rfl, Or.inr ?_⟩
            rw [hchecks]
            rfl

end AppWorld

namespace Role

variable {role : Role} {later : Unbinding}

omit [Infra] in
/-- Only the seal of an unbind sets the subject it works on. -/
theorem unbinding_after {act : Action} (answer : act.Answer) (hallowed : allows act role)
    (hother : ∀ subject key, act ≠ .command (.beginUnbind subject key))
    (hlater : (after act answer role).unbinding = some later) :
    ∃ earlier, role.unbinding = some earlier ∧ earlier.subject = later.subject := by
  have hdrain : ∀ {component subject : ObjectId} {generation : Nat},
      (role.drainEdge component subject generation).unbinding = some later →
      ∃ earlier, role.unbinding = some earlier ∧ earlier.subject = later.subject := by
    intro component subject generation hunbinding
    obtain ⟨earlier, hearlier, rfl⟩ := Option.map_eq_some_iff.mp hunbinding
    refine ⟨earlier, hearlier, ?_⟩
    split
    · rfl
    · rfl
  have hkept : role.unbinding = some later →
      ∃ earlier, role.unbinding = some earlier ∧ earlier.subject = later.subject :=
    fun hunbinding => ⟨later, hunbinding, rfl⟩
  by_cases hlearns : act.learns = false
  · cases act with
    | query query =>
        exact hkept ((afterQuery_resumes answer hallowed hlearns).unbinding _ hlater)
    | command command =>
        exact hkept ((afterCommand_resumes answer hallowed hlearns).unbinding _ hlater)
  cases act with
  | query query =>
      cases query with
      | bindingDrained component subject generation =>
          unfold after afterQuery at hlater
          dsimp only at hlater
          split at hlater
          · exact hdrain hlater
          · exact hkept hlater
      | awaitBinding component subject generation =>
          unfold after afterQuery at hlater
          dsimp only at hlater
          split at hlater
          · exact hdrain hlater
          · exact hkept hlater
      | retiringEdges subject => exact hkept hlater
      | _ => exact absurd rfl hlearns
  | command command =>
      cases command with
      | beginUnbind subject key => exact absurd rfl (hother subject key)
      | beginStopService id =>
          unfold after afterCommand at hlater
          dsimp only at hlater
          split at hlater
          · exact hkept hlater
          · exact hkept hlater
      | beginStopComponent id =>
          unfold after afterCommand at hlater
          dsimp only at hlater
          split at hlater
          · exact hkept hlater
          · exact hkept hlater
      | beginUninstallComponent key =>
          cases answer with
          | error error => exact hkept hlater
          | ok id => exact hkept hlater
      | beginUninstallService name =>
          cases answer with
          | error error => exact hkept hlater
          | ok id => exact hkept hlater
      | beginUninstallActorType type =>
          cases answer with
          | error error => exact hkept hlater
          | ok id => exact hkept hlater
      | sealSubjectEdges subject => exact hkept hlater
      | _ => exact absurd rfl hlearns

end Role

/-! ## Over runs -/

/-- Nothing was dereferenced that is not there, and the subjects of edges and unbinds are
services and components. -/
structure SubjectsKept (world : AppWorld) (views : Nat → Role) : Prop where
  uncrashed : world.crashed = false
  instanced : world.registry.Instanced
  unbindings : ∀ thread unbinding, (views thread).unbinding = some unbinding →
    unbinding.subject.kind.hasInstance = true

def AppWorld.bindsActorType (world : AppWorld) (subject : ObjectHandle)
    (key : ComponentKey) : Bool :=
  subject.id.kind = .actor ∧
    (world.registry.findEntryLocked subject.id).any (fun entry =>
      entry.generation = subject.generation ∧
        (world.registry.findComponentLocked key.scope key.ownerId key.type key.name).any
          (fun id => (world.registry.findEntryLocked id).any (fun component =>
            (world.registry.bindLocked component entry subject.id).toOption.isSome)))

def SparesActorTypes (pool : AppPool Unit) (label : AppStep) : Prop :=
  ∀ request ∈ (pool.asked label).bind Action.bindRequest,
    pool.shared.bindsActorType request.1 request.2 = false

instance (pool : AppPool Unit) (label : AppStep) : Decidable (SparesActorTypes pool label) :=
  inferInstanceAs (Decidable (∀ request ∈ _, _ = false))

theorem AppWorld.bindsActorType_eq {world : AppWorld} {subject : ObjectHandle}
    {key : ComponentKey} (hactor : subject.id.kind = .actor) :
    world.bindsActorType subject key = (world.bindChecks subject key).toOption.isSome := by
  unfold bindsActorType bindChecks
  cases hentry : world.registry.findEntryLocked subject.id with
  | none => simp [Except.toOption]
  | some entry =>
      by_cases hgeneration : entry.generation = subject.generation
      · cases hfound : world.registry.findComponentLocked key.scope key.ownerId key.type
          key.name with
        | none => simp [Except.toOption, hactor, hgeneration]
        | some id =>
            cases hcomponent : world.registry.findEntryLocked id with
            | none => simp [Except.toOption, hactor, hgeneration, hcomponent]
            | some component =>
                cases hbind : world.registry.bindLocked component entry subject.id with
                | error error => simp [Except.toOption, hactor, hgeneration, hcomponent, hbind]
                | ok edge => simp [Except.toOption, hactor, hgeneration, hcomponent, hbind]
      · simp [Except.toOption, hgeneration]

theorem SubjectsKept.reaches {world : AppWorld} {views : Nat → Role} {thread : Nat}
    {command : Command} (hkept : SubjectsKept world views)
    (hheeds : Role.heeds (.command command) (views thread))
    (hspares : ∀ handle key, command = .bindComponent handle key →
      world.bindsActorType handle key = false) {subject : ObjectId}
    (hreaches : command.Reaches world subject) : subject.kind.hasInstance = true := by
  cases command with
  | bindComponent handle key =>
      obtain ⟨rfl, hkind | hchecks⟩ := hreaches
      · rw [hkind]
        rfl
      · refine AppWorld.bindChecks_hasInstance hchecks ?_
        intro hactor
        rw [← AppWorld.bindsActorType_eq hactor, hspares handle key rfl] at hchecks
        cases hchecks
  | recordBinding other type name object generation =>
      obtain rfl : other = subject := hreaches
      have hkind : other.kind = .service := hheeds
      rw [hkind]
      rfl
  | finishUnbind component other generation type name =>
      obtain rfl : other = subject := hreaches
      exact hkept.unbindings thread _ hheeds
  | _ => exact hreaches.elim

theorem subjectsKept_of_reachable {pool : AppPool Role}
    (hreach : carefulSystem.machine.ReachableWhere
      (fun ghost label => ∃ views, SparesActorTypes (System.viewed ghost views) label) pool) :
    SubjectsKept pool.shared pool.views := by
  refine carefulSystem_disciplined.invariant (motive := SubjectsKept) ?_ ?_ ?_ hreach
  · rintro world ⟨options, maxObjects, maxBindings, -, rfl⟩
    exact ⟨rfl, (Registry.Instanced.of_empty (fun _ => rfl)).append rfl, by rintro _ _ ⟨⟩⟩
  · intro pool thread choice act answer last hacts hkept
    have hallowed : Role.allows act (pool.views thread) := Role.heeds_allows hacts.allowed
    -- What the thread knows afterwards, and what the others do.
    have hviews : ∀ (role : Role), (∀ unbinding, role.unbinding = some unbinding →
        unbinding.subject.kind.hasInstance = true) →
        ∀ other unbinding, (Function.update pool.views thread role other).unbinding =
          some unbinding → unbinding.subject.kind.hasInstance = true := by
      intro role hrole other unbinding hunbinding
      by_cases heq : other = thread
      · rw [heq, Function.update_self] at hunbinding
        exact hrole unbinding hunbinding
      · rw [Function.update_of_ne heq] at hunbinding
        exact hkept.unbindings other unbinding hunbinding
    have hsame : (∀ subject key, act ≠ .command (.beginUnbind subject key)) →
        ∀ unbinding, (Role.after act answer (pool.views thread)).unbinding =
          some unbinding → unbinding.subject.kind.hasInstance = true := by
      intro hother unbinding hunbinding
      obtain ⟨earlier, hearlier, hsubject⟩ :=
        Role.unbinding_after answer hallowed hother hunbinding
      rw [← hsubject]
      exact hkept.unbindings thread earlier hearlier
    cases act with
    | query query =>
        obtain ⟨-, rfl⟩ := AppWorld.perform_query hacts.performed
        exact ⟨hkept.uncrashed, hkept.instanced, hviews _ (hsame (by rintro _ _ ⟨⟩))⟩
    | command command =>
        have happly := AppWorld.perform_command hacts.performed
        have hreaches : ∀ subject, command.Reaches pool.shared subject →
            subject.kind.hasInstance = true := by
          intro subject
          refine hkept.reaches hacts.allowed ?_
          rintro handle key rfl
          obtain ⟨rest, hthread⟩ := hacts.asked
          obtain ⟨views, hspares⟩ := hacts.guarded
          refine hspares (handle, key) ?_
          rw [Pool.asked, System.viewed, hthread]
          rfl
        refine ⟨(AppWorld.apply_uncrashed hkept.instanced hreaches happly).trans
          hkept.uncrashed, AppWorld.apply_instanced hkept.instanced hreaches happly,
          hviews _ ?_⟩
        cases command with
        | beginUnbind subject key =>
            replace happly := Option.some.inj happly
            obtain ⟨error, heq⟩ | ⟨id, component, -, hfind, hcases⟩ :=
              pool.shared.beginUnbind_cases subject key
            · cases heq.symm.trans happly
              exact hkept.unbindings thread
            · have hedge : ∃ edge ∈ component.bindings, edge.subjectId = subject := by
                obtain ⟨edge, hopen, -⟩ | ⟨generation, hretiring, -⟩ := hcases
                · have htest := List.find?_some hopen
                  exact ⟨edge, List.mem_of_find?_eq_some hopen, (of_decide_eq_true htest).1⟩
                · obtain ⟨edge, hfound, -⟩ := Option.map_eq_some_iff.mp hretiring
                  have htest := List.find?_some hfound
                  exact ⟨edge, List.mem_of_find?_eq_some hfound, (of_decide_eq_true htest).1⟩
              obtain ⟨edge, hmem, hsubject⟩ := hedge
              have hkind := hkept.instanced.subjects id component hfind edge hmem
              rw [hsubject] at hkind
              obtain ⟨edge, -, heq⟩ | ⟨generation, -, heq⟩ := hcases
              · cases heq.symm.trans happly
                rintro unbinding ⟨⟩
                exact hkind
              · cases heq.symm.trans happly
                rintro unbinding ⟨⟩
                exact hkind
        | _ => exact hsame (by rintro _ _ ⟨⟩)
  · intro pool event last _ _ hreact hkept
    have hevent := AppWorld.react_event hreact
    refine ⟨(AppWorld.event_uncrashed hevent).trans hkept.uncrashed, ?_, hkept.unbindings⟩
    constructor
    · intro id entry hfind
      have hagree : Registry.SameBases pool.shared.registry last.registry :=
        (AppWorld.event_undisturbed hevent).agree (fun _ _ _ _ => rfl)
      obtain ⟨old, hold, hsame⟩ := hagree.find_some hfind
      exact hsame.symm.trans (hkept.instanced.objects id old hold)
    · intro id entry hfind edge hmem
      obtain ⟨old, hold, hage⟩ := AppWorld.event_ages hevent id entry hfind
      obtain ⟨known, hknown, hedge⟩ := hage.edges edge hmem
      rw [hedge.subject]
      exact hkept.instanced.subjects id old hold known hknown

/-- At a step that reaches into a registered subject the instance is there, and a bind of a
subject without one is refused without a change. -/
structure SubjectsReal (pool : AppPool Unit) (label : AppStep) : Prop where
  present : ∀ command subject entry, pool.asked label = some (.command command) →
    command.Reaches pool.shared subject →
    pool.shared.registry.findEntryLocked subject = some entry → entry.object ≠ none
  refused : ∀ subject key entry,
    pool.asked label = some (.command (.bindComponent subject key)) →
    pool.shared.registry.findEntryLocked subject.id = some entry → entry.object = none →
    ∃ error, pool.shared.bindComponent subject key = (.error error, pool.shared)

variable {pool : AppPool Unit}

/-- The discipline holds for whatever a thread asks for. -/
theorem heeds_asked {views : Nat → Role} {guard : AppPool Role → AppStep → Prop}
    (hreach : carefulSystem.machine.ReachableWhere guard (System.viewed pool views))
    {label : AppStep} {act : Action} (hasked : pool.asked label = some act) :
    ∃ thread, Role.heeds act (views thread) := by
  have hviewed : (System.viewed pool views).asked label = some act := hasked
  exact carefulSystem_disciplined.asked_allowed hreach hviewed

/-- In a run that binds no actor type no null pointer was dereferenced and no edge has a
subject without an instance; such a run goes on as it should exactly if the next step
binds no actor type either. -/
theorem subjects_real (hreach : plainSystem.machine.ReachableWhere SparesActorTypes pool) :
    pool.shared.crashed = false ∧
      (∀ id component, pool.shared.registry.findEntryLocked id = some component →
        ∀ edge ∈ component.bindings, ∀ entry,
          pool.shared.registry.findEntryLocked edge.subjectId = some entry →
          entry.object ≠ none) ∧
      ∀ label, SubjectsReal pool label ↔ SparesActorTypes pool label := by
  obtain ⟨views, hviews⟩ := System.reachable_under Role.fresh carefulDiscipline hreach
  have hkept : SubjectsKept pool.shared views := subjectsKept_of_reachable hviews
  refine ⟨hkept.uncrashed, ?_, ?_⟩
  · intro id component hfind edge hmem entry hentry
    exact hkept.instanced.some_object (hkept.instanced.subjects id component hfind edge hmem)
      hentry
  intro label
  constructor
  · rintro hreal ⟨subject, key⟩ hrequest
    have hasked := Action.asked_bindRequest hrequest
    by_contra hbinds
    have hbinds : pool.shared.bindsActorType subject key = true := eq_true_of_ne_false hbinds
    have hparts := of_decide_eq_true hbinds
    obtain ⟨entry, hentry, -⟩ := (Option.any_eq_true _ _).mp hparts.2
    refine hreal.present _ subject.id entry hasked ⟨rfl, Or.inr ?_⟩ hentry ?_
    · rw [← AppWorld.bindsActorType_eq hparts.1]
      exact hbinds
    · have hobject := hkept.instanced.objects subject.id entry hentry
      rw [hparts.1] at hobject
      exact Option.isSome_eq_false_iff.mp hobject |> Option.isNone_iff_eq_none.mp
  · intro hspares
    have hspared : ∀ handle key, pool.asked label =
        some (.command (.bindComponent handle key)) →
        pool.shared.bindsActorType handle key = false := by
      intro handle key hasked
      refine hspares (handle, key) ?_
      rw [hasked]
      rfl
    constructor
    · intro command subject entry hasked hreaches hentry
      obtain ⟨thread, hheeds⟩ := heeds_asked hviews hasked
      refine hkept.instanced.some_object (hkept.reaches hheeds ?_ hreaches) hentry
      rintro handle key rfl
      exact hspared handle key hasked
    · intro subject key entry hasked hentry hnone
      obtain hrefused | ⟨id, component, edge, hchecks, -⟩ :=
        pool.shared.bindComponent_writes subject key
      · exact hrefused
      · obtain ⟨thread, hheeds⟩ := heeds_asked hviews hasked
        have hreaches : Command.Reaches pool.shared subject.id (.bindComponent subject key) := by
          refine ⟨rfl, Or.inr ?_⟩
          rw [hchecks]
          rfl
        have hkind : subject.id.kind.hasInstance = true := by
          refine hkept.reaches hheeds ?_ hreaches
          rintro _ _ ⟨⟩
          exact hspared subject key hasked
        exact absurd hnone (hkept.instanced.some_object hkind hentry)

end

/-- The second component is bound to the first one, which has an instance. -/
theorem subjects_real_component :
    letI := permissiveInfra
    ∃ pool, plainSystem.machine.ReachableWhere SparesActorTypes pool ∧
      (pool.asked (smoothStep 2)).bind Action.bindRequest =
        some (⟨true, ⟨.component, 2⟩, 3⟩, ⟨"A", "a", .app, none⟩) ∧
      SubjectsReal pool (smoothStep 2) := by
  let _ := permissiveInfra
  have hboot : plainSystem.machine.ReachableWhere SparesActorTypes
      (plainSystem.boot (AppWorld.fresh (.ok ()) 10 10)) :=
    .start ⟨_, start_fresh 10 10 (by decide), rfl⟩
  obtain ⟨pool, hreach, htest⟩ := hboot.exec_any
    (fun pool label => decide (SparesActorTypes pool label)) (fun _ _ => of_decide_eq_true)
    (bindPair ⟨true, ⟨.component, 2⟩, 3⟩)
    (fun pool => (pool.asked (smoothStep 2)).bind Action.bindRequest =
        some (⟨true, ⟨.component, 2⟩, 3⟩, ⟨"A", "a", .app, none⟩) ∧
      SparesActorTypes pool (smoothStep 2)) (by decide)
  obtain ⟨hrequest, hspares⟩ := of_decide_eq_true htest
  exact ⟨pool, hreach, hrequest, ((subjects_real hreach).2.2 _).mpr hspares⟩

/-! ## Handles a caller can have -/

/-- `FindActorLocked`. -/
def Registry.findActorLocked (registry : Registry) (type key : String) : Option ObjectId :=
  (registry.listWhere .actor (fun entry =>
    entry.typeName = type ∧ entry.name = key)).head?

/-- The calls that give a caller a handle: `FindService`, `FindComponent`, `FindActor` and
`Handle`. -/
inductive Lookup where
  | service (name : String)
  | component (type name : String) (placement : ComponentOptions)
  | actor (type key : String)
  | app

def AppWorld.lookup [Infra] (world : AppWorld) : Lookup → Option ObjectHandle
  | .service name => handleOf (world.registry.findByTypeNameLocked .service name)
  | .component type name placement =>
      match world.validateOwner placement with
      | .error _ => none
      | .ok ownerId =>
          handleOf (world.registry.findComponentLocked placement.scope ownerId type name)
  | .actor type key => handleOf (world.registry.findActorLocked type key)
  | .app => handleOf (some ⟨.app, 0⟩)
where
  handleOf (found : Option ObjectId) : Option ObjectHandle :=
    found.bind (fun id =>
      (world.registry.findEntryLocked id).map (Registry.makeHandle id))

def Entry.subject : Entry → Option ObjectHandle
  | .coBindComponent _ subject _ _ | .coUnbindComponent _ subject _ _ => some subject
  | _ => none

def SubjectsObtained [Infra] (pool : AppPool Unit) (label : AppStep) : Prop :=
  ∀ subject ∈ label.spawned.bind Entry.subject, ∃ call, pool.shared.lookup call = some subject

/-- An actor type and a component are installed; `FindActor` with an empty key gives the
handle of the type, and the component is bound to it. -/
def actorTypeSteps : List AppStep :=
  [.spawn (.coInstallActor (.ok ()) "A"),
    .spawn (.coInstallComponent "C" "c" ⟨.app, none⟩)] ++
    List.replicate 2 (smoothStep 0) ++ List.replicate 8 (smoothStep 1) ++
    [.spawn (.coBindComponent "C" ⟨true, ⟨.actor, 1⟩, 2⟩ "c" ⟨.app, none⟩), smoothStep 2]

/-- The bind reaches for the instance of the actor type; the edge is there by then. -/
theorem actor_type_reached :
    letI := permissiveInfra
    ∃ pool last, plainSystem.machine.ReachableWhere SubjectsObtained pool ∧
      ¬SubjectsReal pool (smoothStep 2) ∧
      plainSystem.machine.next pool (smoothStep 2) = some last ∧
      last.shared.crashed = true ∧
      (last.shared.registry.findEntryLocked ⟨.component, 2⟩).any (fun component =>
        component.bindings.any (fun edge => edge.subjectId = ⟨.actor, 1⟩)) = true := by
  let _ := permissiveInfra
  let subject : ObjectHandle := ⟨true, ⟨.actor, 1⟩, 2⟩
  let key : ComponentKey := ⟨"C", "c", .app, none⟩
  let check : AppPool Unit → AppStep → Bool := fun pool label =>
    decide (∀ handle ∈ label.spawned.bind Entry.subject,
      pool.shared.lookup (.actor "A" "") = some handle)
  have hcheck : ∀ pool label, check pool label = true → SubjectsObtained pool label :=
    fun _ _ htest handle hmem => ⟨_, of_decide_eq_true htest handle hmem⟩
  have hboot : plainSystem.machine.ReachableWhere SubjectsObtained
      (plainSystem.boot (AppWorld.fresh (.ok ()) 10 10)) :=
    .start ⟨_, start_fresh 10 10 (by decide), rfl⟩
  obtain ⟨pool, hreach, htest⟩ := hboot.exec_any check hcheck actorTypeSteps
    (fun pool => (pool.asked (smoothStep 2)).bind Action.bindRequest = some (subject, key) ∧
      pool.shared.bindsActorType subject key = true ∧
      (pool.shared.registry.findEntryLocked subject.id).any (fun entry =>
        entry.object = none) = true ∧
      (plainSystem.next pool (smoothStep 2)).any (fun last => last.shared.crashed ∧
        (last.shared.registry.findEntryLocked ⟨.component, 2⟩).any (fun component =>
          component.bindings.any (fun edge => edge.subjectId = ⟨.actor, 1⟩)))) (by decide)
  obtain ⟨hrequest, hbinds, hentry, hnext⟩ := of_decide_eq_true htest
  obtain ⟨entry, hfind, hnone⟩ := (Option.any_eq_true _ _).mp hentry
  obtain ⟨last, hlast, hafter⟩ := (Option.any_eq_true _ _).mp hnext
  obtain ⟨hcrashed, hedge⟩ := of_decide_eq_true hafter
  refine ⟨pool, last, hreach, ?_, hlast, hcrashed, hedge⟩
  intro hreal
  refine hreal.present _ subject.id entry (Action.asked_bindRequest hrequest)
    ⟨rfl, Or.inr ?_⟩ hfind (of_decide_eq_true hnone)
  rw [← AppWorld.bindsActorType_eq rfl]
  exact hbinds

end BbtFramework.App
