import BbtFramework.App.Aging
import BbtFramework.Library.Totals

/-!
# What the registry admits

An object is made under a free key while there is room for it, and an edge while there is
room for one more.  So no two objects of a kind ever answer to one key, the searches find
the object they are asked for and no other, and the limits hold in every state.
-/

namespace BbtFramework.App

open BbtFramework.Library

/-- What an object is found by among those of its kind: a component by its scope, the owner
of that scope, type and name, any other object by its type name. -/
def RegistryEntry.lookupKey (entry : RegistryEntry) :
    ObjectKind → ComponentScope × Option ObjectId × String × String
  | .component =>
      (entry.scope, if entry.scope = .app then none else entry.ownerId, entry.typeName,
        entry.name)
  | _ => (.app, none, entry.typeName, "")

/-- The key `FindComponentLocked` is asked for. -/
def componentLookupKey (scope : ComponentScope) (ownerId : Option ObjectId)
    (type name : String) : ComponentScope × Option ObjectId × String × String :=
  (scope, if scope = .app then none else ownerId, type, name)

theorem RegistryEntry.Ages.lookupKey {later earlier : RegistryEntry}
    (hages : later.Ages earlier) (kind : ObjectKind) :
    later.lookupKey kind = earlier.lookupKey kind := by
  cases kind with
  | component =>
      rw [RegistryEntry.lookupKey, hages.scope, hages.owner, hages.typeName, hages.name]
      rfl
  | _ => simp only [RegistryEntry.lookupKey, hages.typeName]

namespace Registry

variable {registry before after : Registry}

/-- No two objects of a kind answer to one key. -/
def Keyed (registry : Registry) : Prop :=
  ∀ id other entry entry', registry.findEntryLocked id = some entry →
    registry.findEntryLocked other = some entry' → id.kind = other.kind →
    entry.lookupKey id.kind = entry'.lookupKey id.kind → id = other

def KeyFree (registry : Registry) (kind : ObjectKind)
    (key : ComponentScope × Option ObjectId × String × String) : Prop :=
  ∀ id entry, registry.findEntryLocked id = some entry → id.kind = kind →
    entry.lookupKey kind ≠ key

structure WithinLimits (registry : Registry) : Prop where
  objects : registry.countObjectsLocked ≤ registry.maxObjects
  bindings : registry.countBindingsLocked ≤ registry.maxBindings

structure SameLimits (before after : Registry) : Prop where
  objects : after.maxObjects = before.maxObjects
  bindings : after.maxBindings = before.maxBindings

theorem SameLimits.refl (registry : Registry) : SameLimits registry registry :=
  ⟨rfl, rfl⟩

theorem SameLimits.trans {middle : Registry} (hfirst : SameLimits before middle)
    (hsecond : SameLimits middle after) : SameLimits before after :=
  ⟨hsecond.objects.trans hfirst.objects, hsecond.bindings.trans hfirst.bindings⟩

/-- The entry passes the test of `FindComponentLocked`. -/
theorem matches_iff_lookupKey {entry : RegistryEntry} {scope : ComponentScope}
    {ownerId : Option ObjectId} {type name : String} :
    (entry.scope = scope ∧ (scope = .app ∨ entry.ownerId = ownerId) ∧
        entry.typeName = type ∧ entry.name = name) ↔
      entry.lookupKey .component = componentLookupKey scope ownerId type name := by
  simp only [RegistryEntry.lookupKey, componentLookupKey, Prod.mk.injEq]
  constructor
  · rintro ⟨rfl, howner, rfl, rfl⟩
    refine ⟨rfl, ?_, rfl, rfl⟩
    rcases howner with happ | rfl
    · rw [if_pos happ, if_pos happ]
    · rfl
  · rintro ⟨rfl, howner, rfl, rfl⟩
    refine ⟨rfl, ?_, rfl, rfl⟩
    by_cases happ : entry.scope = .app
    · exact Or.inl happ
    · rw [if_neg happ, if_neg happ] at howner
      exact Or.inr howner

theorem test_of_not_isSome {kind : ObjectKind} {test : RegistryEntry → Bool}
    (hnone : ¬(registry.listWhere kind test).head?.isSome = true) {id : ObjectId}
    {entry : RegistryEntry} (hfind : registry.findEntryLocked id = some entry)
    (hkind : id.kind = kind) : ¬test entry = true := by
  intro htest
  have hmem : id ∈ registry.listWhere kind test :=
    mem_listWhere.mpr ⟨hkind, entry, hfind, htest⟩
  rw [List.isSome_head?, not_not] at hnone
  rw [hnone] at hmem
  cases hmem

theorem keyFree_of_component {scope : ComponentScope} {ownerId : Option ObjectId}
    {type name : String}
    (hnone : ¬(registry.findComponentLocked scope ownerId type name).isSome = true) :
    registry.KeyFree .component (componentLookupKey scope ownerId type name) := by
  intro id entry hfind hkind hkey
  exact test_of_not_isSome hnone hfind hkind (decide_eq_true (matches_iff_lookupKey.mpr hkey))

theorem keyFree_of_typeName {kind : ObjectKind} {typeName : String}
    (hother : kind ≠ .component)
    (hnone : ¬(registry.findByTypeNameLocked kind typeName).isSome = true) :
    registry.KeyFree kind (.app, none, typeName, "") := by
  intro id entry hfind hkind hkey
  apply test_of_not_isSome hnone hfind hkind
  cases kind with
  | component => exact absurd rfl hother
  | _ =>
      simp only [RegistryEntry.lookupKey, Prod.mk.injEq] at hkey
      exact decide_eq_true hkey.2.2.1

/-! ## What a step admits -/

/-- What a step does to the registry, with what its critical section has checked. -/
inductive Admits (before after : Registry) : Prop where
  | ages (hlimits : SameLimits before after)
      (hages : Relates RegistryEntry.Ages before after)
  | created (kind : ObjectKind) (made : Nat → RegistryEntry)
      (hroom : before.countObjectsLocked < before.maxObjects)
      (hempty : ∀ generation, (made generation).bindings = [])
      (hname : kind = .actor → ∀ generation, (made generation).name = "")
      (hfree : before.KeyFree kind ((made before.nextGeneration).lookupKey kind))
      (hafter : after = before.append kind made)
  | bound (component : ObjectId) (edge : Binding)
      (hroom : before.countBindingsLocked < before.maxBindings)
      (hlimits : SameLimits before after)
      (hages : Relates RegistryEntry.Ages (before.bumpGeneration.modify component
        (fun entry => { entry with bindings := entry.bindings ++ [edge] })) after)

variable [Infra]

theorem createEntryLocked_ok {kind : ObjectKind} {typeName name : String}
    {scope : ComponentScope} {ownerId : Option ObjectId} {state : ObjectState}
    {object : Option ObjectBase} {id : ObjectId}
    (hcreate : registry.createEntryLocked kind typeName name scope ownerId state object =
      .ok (id, after)) :
    registry.countObjectsLocked < registry.maxObjects ∧
      after = registry.append kind (.created typeName name scope ownerId state object) := by
  unfold createEntryLocked at hcreate
  split at hcreate
  · cases hcreate
  case isFalse hroom =>
    cases hcreate
    exact ⟨Nat.not_le.mp hroom, rfl⟩

end Registry

namespace AppWorld

open Registry

variable {world last : AppWorld}

theorem sameLimits_changeSubject (world : AppWorld) (subject : ObjectId)
    (change : ObjectBase → ObjectBase) :
    SameLimits world.registry (world.changeSubject subject change).registry := by
  rcases world.changeSubject_cases subject change with heq | ⟨heq, -⟩ | ⟨heq, -⟩
  all_goals rw [heq]; exact ⟨rfl, rfl⟩

variable [Infra]

omit [Infra] in
theorem sameLimits_takesDown {kind : ObjectKind} {phase : String}
    {result : Except Error ObjectId × AppWorld} (hresult : world.TakesDown kind phase result) :
    SameLimits world.registry result.2.registry := by
  rcases hresult with ⟨error, rfl⟩ | ⟨id, entry, -, -, -, -, rfl⟩
  · exact .refl _
  · exact ⟨rfl, rfl⟩

theorem apply_sameLimits {command : Command} {choice : Choice} {answer : command.Answer}
    (hgrows : command.grows = false)
    (happly : world.apply command choice = some (answer, last)) :
    SameLimits world.registry last.registry := by
  cases command with
  | createComponent key => cases hgrows
  | createService name allowed => cases hgrows
  | createActorType type => cases hgrows
  | bindComponent subject key => cases hgrows
  | checkSettled id hook =>
      replace happly := Option.some.inj happly
      unfold checkSettled at happly
      split at happly
      all_goals cases happly; exact ⟨rfl, rfl⟩
  | registerSettled id =>
      replace happly := Option.some.inj happly
      unfold registerSettled at happly
      split at happly
      all_goals cases happly; exact ⟨rfl, rfl⟩
  | recheckSettled id =>
      cases happly
      unfold recheckSettled
      split
      all_goals exact ⟨rfl, rfl⟩
  | awaitSettled id =>
      replace happly : world.awaitSettled id choice = some (answer, last) := happly
      unfold awaitSettled at happly
      split at happly
      · dsimp only at happly
        split at happly
        · split at happly
          · cases happly
            exact ⟨rfl, rfl⟩
          · cases happly
        · cases happly
          exact ⟨rfl, rfl⟩
      · cases happly
  | takeHook id hook =>
      replace happly := Option.some.inj happly
      unfold takeHook at happly
      split at happly
      all_goals cases happly; exact ⟨rfl, rfl⟩
  | submitHook task =>
      replace happly : world.submitHook task choice = some (answer, last) := happly
      unfold submitHook at happly
      split at happly
      · split at happly
        · cases happly
          exact ⟨rfl, rfl⟩
        · cases happly
      · cases happly
  | noteRejected task =>
      simp only [apply] at happly
      split at happly
      · cases happly
        exact ⟨rfl, rfl⟩
      · cases happly
  | notifyRejected task =>
      obtain ⟨found, -, hlast⟩ := Option.map_eq_some_iff.mp happly
      cases hlast
      exact ⟨rfl, rfl⟩
  | beginStopService id =>
      replace happly := Option.some.inj happly
      rcases world.beginStopService_cases id with heq | ⟨entry, -, -, heq⟩
      all_goals cases heq.symm.trans happly; exact ⟨rfl, rfl⟩
  | beginStopComponent id =>
      replace happly := Option.some.inj happly
      rcases world.beginStopComponent_cases id with heq | ⟨entry, -, -, heq⟩
      all_goals cases heq.symm.trans happly; exact ⟨rfl, rfl⟩
  | beginUninstallComponent key =>
      have hlimits := sameLimits_takesDown (world.beginUninstallComponent_takesDown key)
      rw [Option.some.inj happly] at hlimits
      exact hlimits
  | beginUninstallService name =>
      have hlimits := sameLimits_takesDown (world.beginUninstallService_takesDown name)
      rw [Option.some.inj happly] at hlimits
      exact hlimits
  | beginUninstallActorType type =>
      have hlimits := sameLimits_takesDown (world.beginUninstallActorType_takesDown type)
      rw [Option.some.inj happly] at hlimits
      exact hlimits
  | recordBinding subject type name object generation =>
      cases happly
      exact sameLimits_changeSubject world subject _
  | beginUnbind subject key =>
      replace happly := Option.some.inj happly
      rcases world.beginUnbind_cases subject key with
        ⟨error, heq⟩ | ⟨id, component, -, -, ⟨edge, -, heq⟩ | ⟨generation, -, heq⟩⟩
      all_goals cases heq.symm.trans happly; exact ⟨rfl, rfl⟩
  | finishUnbind component subject generation type name =>
      cases happly
      have herased : SameLimits world.registry (world.registry.modify component (fun entry =>
          eraseBindingLocked entry subject generation)) := ⟨rfl, rfl⟩
      exact herased.trans (sameLimits_changeSubject { world with
        registry := world.registry.modify component (fun entry =>
          eraseBindingLocked entry subject generation) } subject
        (fun base => base.unbindComponentEntry type name))
  | _ =>
      cases happly
      exact ⟨rfl, rfl⟩

theorem event_sameLimits {event : Event} (hevent : world.event event = some last) :
    SameLimits world.registry last.registry := by
  cases event with
  | notifyHook task =>
      simp only [AppWorld.event] at hevent
      split at hevent
      · cases hevent
        split
        all_goals exact ⟨rfl, rfl⟩
      · cases hevent
  | borrow object generation allow =>
      simp only [AppWorld.event] at hevent
      split at hevent
      · cases hevent
        exact .refl _
      case h_2 lease registry hborrow =>
        cases hevent
        obtain ⟨entry, edge, -, -, -, -, -, -, -, -, rfl⟩ := Registry.borrowImpl_ok hborrow
        exact ⟨rfl, rfl⟩
  | _ =>
      simp only [AppWorld.event] at hevent
      split at hevent
      · cases hevent
        exact ⟨rfl, rfl⟩
      · cases hevent

theorem createComponent_admits (world : AppWorld) (key : ComponentKey) :
    (world.createComponent key).2 = world ∨
      world.registry.Admits (world.createComponent key).2.registry := by
  unfold createComponent
  split
  · exact Or.inl rfl
  case isFalse hfree =>
    split
    · exact Or.inl rfl
    case h_2 id registry hcreate =>
      obtain ⟨hroom, rfl⟩ := createEntryLocked_ok hcreate
      exact Or.inr (.created .component _ hroom (fun _ => rfl)
        (fun heq => ObjectKind.noConfusion heq) (keyFree_of_component hfree) rfl)

theorem createService_admits (world : AppWorld) (name : String) (allowed : List String) :
    (world.createService name allowed).2 = world ∨
      world.registry.Admits (world.createService name allowed).2.registry := by
  unfold createService
  split
  · exact Or.inl rfl
  case isFalse hfree =>
    split
    · exact Or.inl rfl
    case h_2 id registry hcreate =>
      obtain ⟨hroom, rfl⟩ := createEntryLocked_ok hcreate
      exact Or.inr (.created .service _ hroom (fun _ => rfl)
        (fun heq => ObjectKind.noConfusion heq)
        (keyFree_of_typeName (fun heq => ObjectKind.noConfusion heq) hfree) rfl)

theorem createActorType_admits (world : AppWorld) (type : String) :
    (world.createActorType type).2 = world ∨
      world.registry.Admits (world.createActorType type).2.registry := by
  unfold createActorType
  split
  · exact Or.inl rfl
  case isFalse hfree =>
    split
    · exact Or.inl rfl
    case h_2 id registry hcreate =>
      obtain ⟨hroom, rfl⟩ := createEntryLocked_ok hcreate
      exact Or.inr (.created .actor _ hroom (fun _ => rfl) (fun _ _ => rfl)
        (keyFree_of_typeName (fun heq => ObjectKind.noConfusion heq) hfree) rfl)

theorem bindChecks_room {subject : ObjectHandle} {key : ComponentKey} {id : ObjectId}
    {component : RegistryEntry} {edge : Binding}
    (hchecks : world.bindChecks subject key = .ok (id, component, edge)) :
    world.registry.countBindingsLocked < world.registry.maxBindings := by
  obtain ⟨-, ⟨entry, -, hpasses⟩, -⟩ := bindChecks_ok_iff.mp hchecks
  simp only [BindRefused, not_or] at hpasses
  obtain ⟨-, -, -, -, -, -, -, -, hroom, -⟩ := hpasses
  exact Nat.not_le.mp hroom

theorem bindComponent_admits (world : AppWorld) (subject : ObjectHandle) (key : ComponentKey) :
    (world.bindComponent subject key).2 = world ∨
      world.registry.Admits (world.bindComponent subject key).2.registry := by
  rcases world.bindComponent_cases subject key with
    ⟨error, heq⟩ | ⟨id, component, edge, hchecks, change, heq⟩
  · rw [heq]
    exact Or.inl rfl
  · rw [heq]
    have hedge : SameLimits world.registry (world.withEdge id subject.id).registry := ⟨rfl, rfl⟩
    exact Or.inr (.bound id (world.newEdge subject.id) (bindChecks_room hchecks)
      (hedge.trans (sameLimits_changeSubject _ _ _))
      (ages_changeSubject (world.withEdge id subject.id) subject.id change))

theorem apply_admits {command : Command} {choice : Choice} {answer : command.Answer}
    (happly : world.apply command choice = some (answer, last)) :
    world.registry.Admits last.registry := by
  have hsame : ∀ {result : AppWorld}, result = last →
      result = world ∨ world.registry.Admits result.registry →
      world.registry.Admits last.registry := by
    rintro result rfl (rfl | hadmits)
    · exact .ages (.refl _) (.refl .refl _)
    · exact hadmits
  cases command with
  | createComponent key =>
      exact hsame (congrArg Prod.snd (Option.some.inj happly)) (world.createComponent_admits key)
  | createService name allowed =>
      exact hsame (congrArg Prod.snd (Option.some.inj happly))
        (world.createService_admits name allowed)
  | createActorType type =>
      exact hsame (congrArg Prod.snd (Option.some.inj happly)) (world.createActorType_admits type)
  | bindComponent subject key =>
      exact hsame (congrArg Prod.snd (Option.some.inj happly))
        (world.bindComponent_admits subject key)
  | _ => exact .ages (apply_sameLimits rfl happly) (apply_ages rfl happly)

theorem next_admits {View : Type} {view : View}
    {discipline : Discipline Action Action.Answer View} {pool next : AppPool View}
    {label : AppStep} (hnext : (appSystem view discipline).next pool label = some next) :
    pool.shared.registry.Admits next.shared.registry := by
  cases label with
  | spawn entry =>
      cases hnext
      exact .ages (.refl _) (.refl .refl _)
  | step thread choice =>
      obtain ⟨-, act, rest, answer, last, -, hperform, rfl⟩ := System.next_step hnext
      cases act with
      | query query =>
          obtain ⟨-, rfl⟩ := perform_query hperform
          exact .ages (.refl _) (.refl .refl _)
      | command command => exact apply_admits (perform_command hperform)
  | env event =>
      obtain ⟨last, hreact, rfl⟩ := Option.map_eq_some_iff.mp hnext
      have hevent := react_event hreact
      exact .ages (event_sameLimits hevent) (event_ages hevent)

end AppWorld

namespace Registry

variable {registry before after : Registry}

/-- Entries that keep their keys stay apart by them. -/
theorem Keyed.of_kept (hkeyed : before.Keyed)
    (hkept : ∀ id later, after.findEntryLocked id = some later →
      ∃ earlier, before.findEntryLocked id = some earlier ∧
        ∀ kind, later.lookupKey kind = earlier.lookupKey kind) : after.Keyed := by
  intro id other later later' hfind hfind' hkind hkey
  obtain ⟨earlier, hearlier, hsame⟩ := hkept id later hfind
  obtain ⟨earlier', hearlier', hsame'⟩ := hkept other later' hfind'
  rw [hsame, hsame'] at hkey
  exact hkeyed id other earlier earlier' hearlier hearlier' hkind hkey

theorem Keyed.ages (hkeyed : before.Keyed)
    (hages : Relates RegistryEntry.Ages before after) : after.Keyed := by
  apply hkeyed.of_kept
  intro id later hfind
  obtain ⟨earlier, hearlier, hage⟩ := hages id later hfind
  exact ⟨earlier, hearlier, hage.lookupKey⟩

/-- A new edge is not in the key. -/
theorem Keyed.withEdge (hkeyed : before.Keyed) (component : ObjectId) (edge : Binding) :
    (before.bumpGeneration.modify component (fun entry =>
      { entry with bindings := entry.bindings ++ [edge] })).Keyed := by
  apply hkeyed.of_kept
  intro id later hfind
  rw [findEntryLocked_modify] at hfind
  split at hfind
  case isTrue heq =>
    obtain ⟨earlier, hearlier, rfl⟩ := Option.map_eq_some_iff.mp hfind
    exact ⟨earlier, heq ▸ hearlier, fun kind => by cases kind <;> rfl⟩
  case isFalse => exact ⟨later, hfind, fun _ => rfl⟩

theorem Keyed.append (hkeyed : before.Keyed) {kind : ObjectKind}
    {made : Nat → RegistryEntry}
    (hfree : before.KeyFree kind ((made before.nextGeneration).lookupKey kind)) :
    (before.append kind made).Keyed := by
  have hfound : ∀ id entry, (before.append kind made).findEntryLocked id = some entry →
      (id = ⟨kind, before.nextIdSeq⟩ ∧ entry = made before.nextGeneration) ∨
        before.findEntryLocked id = some entry := by
    intro id entry hfind
    rw [findEntryLocked_append] at hfind
    split at hfind
    case isTrue heq => exact Or.inl ⟨heq, (Option.some.inj hfind).symm⟩
    case isFalse => exact Or.inr hfind
  intro id other entry entry' hfind hfind' hkind hkey
  rcases hfound id entry hfind with ⟨rfl, rfl⟩ | hold
  · rcases hfound other entry' hfind' with ⟨rfl, -⟩ | hold'
    · rfl
    · exact absurd hkey.symm (hfree other entry' hold' hkind.symm)
  · rcases hfound other entry' hfind' with ⟨rfl, rfl⟩ | hold'
    · dsimp only at hkind
      rw [hkind] at hkey
      exact absurd hkey (hfree id entry hold hkind)
    · exact hkeyed id other entry entry' hold hold' hkind hkey

theorem Admits.keyed (hadmits : before.Admits after) (hkeyed : before.Keyed) :
    after.Keyed := by
  cases hadmits with
  | ages _ hages => exact hkeyed.ages hages
  | created kind made _ _ _ hfree hafter =>
      subst hafter
      exact hkeyed.append hfree
  | bound component edge _ _ hages => exact (hkeyed.withEdge component edge).ages hages

theorem countObjectsLocked_eq (registry : Registry) :
    registry.countObjectsLocked = Table.total registry.entries (fun _ => 1) := by
  rw [Table.total_one, countObjectsLocked, listIdsLocked, Table.order, List.length_reverse]

theorem countBindingsLocked_eq (registry : Registry) :
    registry.countBindingsLocked =
      Table.total registry.entries (fun entry => entry.bindings.length) :=
  rfl

theorem edges_le {later earlier : RegistryEntry} (hages : later.Ages earlier) :
    later.bindings.length ≤ earlier.bindings.length := by
  have hle := hages.generations.length_le
  rw [List.length_map, List.length_map] at hle
  exact hle

theorem countObjects_ages (hages : Relates RegistryEntry.Ages before after) :
    after.countObjectsLocked ≤ before.countObjectsLocked := by
  rw [countObjectsLocked_eq, countObjectsLocked_eq]
  apply Table.total_le
  intro id later hfind
  obtain ⟨earlier, hearlier, -⟩ := hages id later hfind
  exact ⟨earlier, hearlier, Nat.le_refl _⟩

theorem countBindings_ages (hages : Relates RegistryEntry.Ages before after) :
    after.countBindingsLocked ≤ before.countBindingsLocked := by
  rw [countBindingsLocked_eq, countBindingsLocked_eq]
  apply Table.total_le
  intro id later hfind
  obtain ⟨earlier, hearlier, hage⟩ := hages id later hfind
  exact ⟨earlier, hearlier, edges_le hage⟩

theorem next_notMem (registry : Registry) (kind : ObjectKind) :
    (⟨kind, registry.nextIdSeq⟩ : ObjectId) ∉ registry.entries :=
  fun hmem => Nat.lt_irrefl _ (registry.ids_lt _ hmem)

theorem countObjects_append (registry : Registry) (kind : ObjectKind)
    (made : Nat → RegistryEntry) :
    (registry.append kind made).countObjectsLocked = 1 + registry.countObjectsLocked := by
  rw [countObjectsLocked_eq, countObjectsLocked_eq]
  exact Table.total_insert _ _ (registry.next_notMem kind)

theorem countBindings_append (registry : Registry) (kind : ObjectKind)
    {made : Nat → RegistryEntry} (hempty : ∀ generation, (made generation).bindings = []) :
    (registry.append kind made).countBindingsLocked = registry.countBindingsLocked := by
  have htotal := Table.total_insert (fun entry : RegistryEntry => entry.bindings.length)
    (made registry.nextGeneration) (registry.next_notMem kind)
  rw [hempty, List.length_nil, Nat.zero_add] at htotal
  exact htotal

theorem countBindings_withEdge (registry : Registry) (component : ObjectId) (edge : Binding) :
    (registry.bumpGeneration.modify component (fun entry =>
      { entry with bindings := entry.bindings ++ [edge] })).countBindingsLocked ≤
        registry.countBindingsLocked + 1 := by
  rw [countBindingsLocked_eq, countBindingsLocked_eq]
  apply Table.total_le_add component 1
  intro id later hfind
  replace hfind : (registry.bumpGeneration.modify component (fun entry =>
    { entry with bindings := entry.bindings ++ [edge] })).findEntryLocked id = some later := hfind
  rw [findEntryLocked_modify] at hfind
  split at hfind
  case isTrue heq =>
    obtain ⟨earlier, hearlier, rfl⟩ := Option.map_eq_some_iff.mp hfind
    refine ⟨earlier, heq ▸ hearlier, ?_⟩
    rw [if_pos heq, List.length_append, List.length_singleton]
  case isFalse => exact ⟨later, hfind, Nat.le_add_right _ _⟩

theorem countObjects_withEdge (registry : Registry) (component : ObjectId) (edge : Binding) :
    (registry.bumpGeneration.modify component (fun entry =>
      { entry with bindings := entry.bindings ++ [edge] })).countObjectsLocked =
        registry.countObjectsLocked := by
  simp only [countObjectsLocked, listIdsLocked, Table.order, modify, modifyAll,
    Table.keys_mapValues, List.length_reverse, bumpGeneration]

theorem Admits.withinLimits (hadmits : before.Admits after) (hwithin : before.WithinLimits) :
    SameLimits before after ∧ after.WithinLimits := by
  cases hadmits with
  | ages hlimits hages =>
      refine ⟨hlimits, ?_, ?_⟩
      · rw [hlimits.objects]
        exact Nat.le_trans (countObjects_ages hages) hwithin.objects
      · rw [hlimits.bindings]
        exact Nat.le_trans (countBindings_ages hages) hwithin.bindings
  | created kind made hroom hempty _ _ hafter =>
      subst hafter
      refine ⟨⟨rfl, rfl⟩, ?_, ?_⟩
      · rw [countObjects_append, Nat.add_comm]
        exact hroom
      · rw [countBindings_append before kind hempty]
        exact hwithin.bindings
  | bound component edge hroom hlimits hages =>
      refine ⟨hlimits, ?_, ?_⟩
      · rw [hlimits.objects]
        exact Nat.le_trans ((countObjects_ages hages).trans_eq
          (countObjects_withEdge before component edge)) hwithin.objects
      · rw [hlimits.bindings]
        exact Nat.le_trans ((countBindings_ages hages).trans
          (countBindings_withEdge before component edge)) hroom

end Registry

/-! ## Over runs -/

namespace AppWorld

open Registry

variable {world : AppWorld}

theorem find_start (hstart : AppWorld.Start world) {id : ObjectId} {entry : RegistryEntry}
    (hfind : world.registry.findEntryLocked id = some entry) : id = ⟨.app, 0⟩ := by
  obtain ⟨options, maxObjects, maxBindings, -, rfl⟩ := hstart
  simp only [fresh, freshRegistry, findEntryLocked_append] at hfind
  split at hfind
  case isTrue heq => exact heq
  case isFalse => cases hfind

theorem keyed_start (hstart : AppWorld.Start world) : world.registry.Keyed :=
  fun _ _ _ _ hfind hfind' _ _ =>
    (find_start hstart hfind).trans (find_start hstart hfind').symm

theorem withinLimits_fresh (options : Except Error Unit) {maxObjects : Nat}
    (maxBindings : Nat) (hroom : 0 < maxObjects) :
    (AppWorld.fresh options maxObjects maxBindings).registry.WithinLimits :=
  ⟨hroom, Nat.zero_le _⟩

end AppWorld

section

variable [Infra] {View : Type} {view : View}
variable {discipline : Discipline Action Action.Answer View}
variable {guard : AppPool View → AppStep → Prop} {pool : AppPool View}

theorem keyed_of_reachable
    (hreach : (appSystem view discipline).machine.ReachableWhere guard pool) :
    pool.shared.registry.Keyed := by
  refine hreach.induct (motive := fun pool => pool.shared.registry.Keyed) ?_ ?_
  · rintro pool ⟨world, hstart, rfl⟩
    exact AppWorld.keyed_start hstart
  · intro pool label next _ ih _ hnext
    exact (AppWorld.next_admits hnext).keyed ih

/-- In every state of every run a search finds an object exactly when it is registered and
answers to what was asked for; in particular no other object does. -/
theorem searches_exact
    (hreach : (appSystem view discipline).machine.ReachableWhere guard pool) :
    (∀ scope ownerId type name id,
      pool.shared.registry.findComponentLocked scope ownerId type name = some id ↔
        id.kind = .component ∧ ∃ entry, pool.shared.registry.findEntryLocked id = some entry ∧
          entry.scope = scope ∧ (scope = .app ∨ entry.ownerId = ownerId) ∧
            entry.typeName = type ∧ entry.name = name) ∧
      ∀ kind typeName id, kind ≠ .component →
        (pool.shared.registry.findByTypeNameLocked kind typeName = some id ↔
          id.kind = kind ∧ ∃ entry, pool.shared.registry.findEntryLocked id = some entry ∧
            entry.typeName = typeName) := by
  have hkeyed := keyed_of_reachable hreach
  -- a list without two different elements begins with any element it has
  have honly : ∀ {ids : List ObjectId} {id : ObjectId},
      (∀ first ∈ ids, ∀ second ∈ ids, first = second) → (ids.head? = some id ↔ id ∈ ids) := by
    intro ids id hsame
    cases ids with
    | nil => simp
    | cons first rest =>
        rw [List.head?_cons, Option.some.injEq]
        constructor
        · rintro rfl
          exact List.mem_cons_self
        · intro hmem
          exact hsame first List.mem_cons_self id hmem
  constructor
  · intro scope ownerId type name id
    rw [Registry.findComponentLocked, honly, Registry.mem_listWhere]
    · simp only [decide_eq_true_eq]
    · intro first hfirst second hsecond
      obtain ⟨hkind, entry, hfind, htest⟩ := Registry.mem_listWhere.mp hfirst
      obtain ⟨hkind', entry', hfind', htest'⟩ := Registry.mem_listWhere.mp hsecond
      apply hkeyed first second entry entry' hfind hfind' (hkind.trans hkind'.symm)
      rw [hkind, Registry.matches_iff_lookupKey.mp (of_decide_eq_true htest),
        Registry.matches_iff_lookupKey.mp (of_decide_eq_true htest')]
  · intro kind typeName id hother
    rw [Registry.findByTypeNameLocked, honly, Registry.mem_listWhere]
    · simp only [decide_eq_true_eq]
    · intro first hfirst second hsecond
      obtain ⟨hkind, entry, hfind, htest⟩ := Registry.mem_listWhere.mp hfirst
      obtain ⟨hkind', entry', hfind', htest'⟩ := Registry.mem_listWhere.mp hsecond
      apply hkeyed first second entry entry' hfind hfind' (hkind.trans hkind'.symm)
      rw [hkind]
      cases kind with
      | component => exact absurd rfl hother
      | _ =>
          simp only [RegistryEntry.lookupKey, of_decide_eq_true htest,
            of_decide_eq_true htest']

end

/-- Two calls install a component under one key: the second is refused, and the key finds
the object of the first. -/
theorem searches_exact_refused :
    letI := permissiveInfra
    ∃ pool, plainSystem.machine.Reachable pool ∧ pool.count = 2 ∧
      pool.shared.registry.countObjectsLocked = 2 ∧
      pool.shared.registry.findComponentLocked .app none "A" "a" = some ⟨.component, 1⟩ := by
  let _ := permissiveInfra
  have hboot : plainSystem.machine.Reachable
      (plainSystem.boot (AppWorld.fresh (.ok ()) 10 10)) :=
    .start ⟨_, start_fresh 10 10 (by decide), rfl⟩
  obtain ⟨pool, hreach, htest⟩ := hboot.exec_any (fun _ _ => true) (fun _ _ _ => trivial)
    ([.spawn (.coInstallComponent "A" "a" ⟨.app, none⟩),
      .spawn (.coInstallComponent "A" "a" ⟨.app, none⟩)] ++
      (List.replicate 4 [smoothStep 0, smoothStep 1]).flatten)
    (fun pool => pool.count = 2 ∧ pool.shared.registry.countObjectsLocked = 2 ∧
      (pool.shared.registry.findEntryLocked ⟨.component, 1⟩).any (fun entry =>
        entry.scope = .app ∧ entry.typeName = "A" ∧ entry.name = "a") = true)
    (by decide)
  obtain ⟨hcount, hobjects, hany⟩ := of_decide_eq_true htest
  obtain ⟨entry, hfind, hentry⟩ := (Option.any_eq_true _ _).mp hany
  obtain ⟨hscope, htype, hname⟩ := of_decide_eq_true hentry
  exact ⟨pool, hreach, hcount, hobjects,
    ((searches_exact hreach).1 .app none "A" "a" ⟨.component, 1⟩).mpr
      ⟨rfl, entry, hfind, hscope, Or.inl rfl, htype, hname⟩⟩

section

variable [Infra] {View : Type} {view : View}
variable {discipline : Discipline Action Action.Answer View}
variable {guard : AppPool View → AppStep → Prop} {pool : AppPool View}

/-- In every state of every run the registry holds at most `max_objects` objects, that of the
application counted, and at most `max_bindings` edges, the sealed ones counted. -/
theorem limits_kept {options : Except Error Unit} {maxObjects maxBindings : Nat}
    {labels : List AppStep} (hroom : 0 < maxObjects)
    (hrun : (appSystem view discipline).machine.Run guard
      ((appSystem view discipline).boot (AppWorld.fresh options maxObjects maxBindings))
      labels pool) :
    pool.shared.registry.countObjectsLocked ≤ maxObjects ∧
      pool.shared.registry.countBindingsLocked ≤ maxBindings := by
  have hwithin : Registry.SameLimits
      (AppWorld.fresh options maxObjects maxBindings).registry pool.shared.registry ∧
      pool.shared.registry.WithinLimits := by
    induction hrun with
    | refl => exact ⟨.refl _, AppWorld.withinLimits_fresh options maxBindings hroom⟩
    | tail _ _ hnext ih =>
        obtain ⟨hlimits, hwithin⟩ := (AppWorld.next_admits hnext).withinLimits ih.2
        exact ⟨ih.1.trans hlimits, hwithin⟩
  obtain ⟨⟨hobjects, hbindings⟩, hwithin⟩ := hwithin
  constructor
  · exact hwithin.objects.trans_eq hobjects
  · exact hwithin.bindings.trans_eq hbindings

end

/-- With room for three components and one edge, four calls that install a component and two
that bind one fill the registry, whichever of them come first. -/
theorem limits_kept_full :
    letI := permissiveInfra
    ∃ pool labels, plainSystem.machine.Run (fun _ _ => True)
        (plainSystem.boot (AppWorld.fresh (.ok ()) 4 1)) labels pool ∧
      pool.count = 6 ∧ (∀ thread ∈ List.range 6, (pool.threads thread).returned.isSome) ∧
      (pool.shared.registry.countObjectsLocked ≤ 4 ∧
        pool.shared.registry.countBindingsLocked ≤ 1) ∧
      ¬pool.shared.registry.countObjectsLocked < 4 ∧
      ¬pool.shared.registry.countBindingsLocked < 1 := by
  let _ := permissiveInfra
  let subject : ObjectHandle := ⟨true, ⟨.component, 3⟩, 4⟩
  let labels : List AppStep :=
    [.spawn (.coInstallComponent "A" "a" ⟨.app, none⟩),
      .spawn (.coInstallComponent "B" "b" ⟨.app, none⟩),
      .spawn (.coInstallComponent "C" "c" ⟨.app, none⟩),
      .spawn (.coInstallComponent "D" "d" ⟨.app, none⟩),
      .spawn (.coBindComponent "A" subject "a" ⟨.app, none⟩),
      .spawn (.coBindComponent "B" subject "b" ⟨.app, none⟩)] ++
      (List.replicate 4 [smoothStep 0, smoothStep 1, smoothStep 2, smoothStep 3]).flatten ++
      (List.replicate 4 [smoothStep 0, smoothStep 1, smoothStep 2]).flatten ++
      (List.replicate 2 [smoothStep 4, smoothStep 5]).flatten
  have hany : (plainSystem.machine.exec (fun _ _ => true)
      (plainSystem.boot (AppWorld.fresh (.ok ()) 4 1)) labels).any (fun pool =>
        decide (pool.count = 6 ∧ (∀ thread ∈ List.range 6, (pool.threads thread).returned.isSome) ∧
          ¬pool.shared.registry.countObjectsLocked < 4 ∧
          ¬pool.shared.registry.countBindingsLocked < 1)) = true := by
    decide
  obtain ⟨pool, hexec, htest⟩ := (Option.any_eq_true _ _).mp hany
  obtain ⟨hcount, hreturned, hfull⟩ := of_decide_eq_true htest
  have hrun : plainSystem.machine.Run (fun _ _ => True)
      (plainSystem.boot (AppWorld.fresh (.ok ()) 4 1)) labels pool :=
    .exec (fun _ _ _ => trivial) hexec
  exact ⟨pool, labels, hrun, hcount, hreturned, limits_kept (by decide) hrun, hfull⟩

end BbtFramework.App
