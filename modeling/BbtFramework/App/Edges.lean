import BbtFramework.App.Aging

/-!
# Where edges come from

Apart from a bind, no step gives a component an edge to a new subject, and no
step moves an object to another scope or owner.
-/

namespace BbtFramework.App

open BbtFramework.Library

namespace Registry

/-- The subjects of `later` are among those of `earlier`. -/
def SubjectsWithin (later earlier : List Binding) : Prop :=
  ∀ edge ∈ later, ∃ known ∈ earlier, known.subjectId = edge.subjectId

/-- An entry that stays where it is and gets no edge to a new subject. -/
structure Descends (later earlier : RegistryEntry) : Prop where
  scope : later.scope = earlier.scope
  owner : later.ownerId = earlier.ownerId
  subjects : SubjectsWithin later.bindings earlier.bindings

structure Carries (before after : Registry) : Prop where
  ids : before.nextIdSeq ≤ after.nextIdSeq
  entries : ∀ id later, after.findEntryLocked id = some later →
    ∃ earlier, before.findEntryLocked id = some earlier ∧ Descends later earlier

variable {before after : Registry}

theorem Carries.of_ages (hids : before.nextIdSeq ≤ after.nextIdSeq)
    (hages : Relates RegistryEntry.Ages before after) : Carries before after := by
  refine ⟨hids, ?_⟩
  intro id later hfind
  obtain ⟨earlier, hearlier, hage⟩ := hages id later hfind
  refine ⟨earlier, hearlier, hage.scope, hage.owner, ?_⟩
  intro edge hmem
  obtain ⟨known, hknown, hedge⟩ := hage.edges edge hmem
  exact ⟨known, hknown, hedge.subject.symm⟩

end Registry

namespace AppWorld

variable {world last : AppWorld}

theorem carries_changeSubject (world : AppWorld) (subject : ObjectId)
    (change : ObjectBase → ObjectBase) :
    Registry.Carries world.registry (world.changeSubject subject change).registry :=
  .of_ages (Nat.le_of_eq (nextIdSeq_changeSubject world subject change).symm)
    (ages_changeSubject world subject change)

variable [Infra]

inductive EdgeStep (world : AppWorld) (asked : Option Action) (last : AppWorld) :
    Prop where
  | carries (hcarries : Registry.Carries world.registry last.registry)
  | created (kind : ObjectKind) (hcreated : world.Created kind last)
  | bound (subject : ObjectHandle) (key : ComponentKey) (id : ObjectId)
      (component : RegistryEntry) (edge : Binding) (change : ObjectBase → ObjectBase)
      (hasked : asked = some (.command (.bindComponent subject key)))
      (hchecks : world.bindChecks subject key = .ok (id, component, edge))
      (hlast : last = (world.withEdge id subject.id).changeSubject subject.id change)

theorem next_edgeStep {View : Type} {view : View}
    {discipline : Discipline Action Action.Answer View} {pool next : AppPool View}
    {label : AppStep} (hnext : (appSystem view discipline).next pool label = some next) :
    pool.shared.EdgeStep (pool.asked label) next.shared := by
  cases next_ageStep hnext with
  | ages hids _ hages => exact .carries (.of_ages hids hages)
  | created kind hcreated => exact .created kind hcreated
  | bound subject key id component edge change hasked hchecks hlast =>
      exact .bound subject key id component edge change hasked hchecks hlast

omit [Infra] in
/-- A new object is as it was made, and the others are what they were. -/
theorem Created.find {kind : ObjectKind} (hcreated : world.Created kind last)
    {id : ObjectId} {later : RegistryEntry}
    (hfind : last.registry.findEntryLocked id = some later) :
    world.registry.findEntryLocked id = some later ∨
      (id = ⟨kind, world.registry.nextIdSeq⟩ ∧
        ∃ typeName name scope ownerId object, later = .created typeName name scope
          ownerId kind.installState object world.registry.nextGeneration) := by
  obtain ⟨typeName, name, scope, ownerId, object, rfl⟩ := hcreated
  rw [Registry.findEntryLocked_append] at hfind
  split at hfind
  case isTrue heq =>
    cases hfind
    exact Or.inr ⟨heq, _, _, _, _, _, rfl⟩
  case isFalse => exact Or.inl hfind

omit [Infra] in
theorem find_withEdge {id target subject : ObjectId} {later : RegistryEntry}
    {change : ObjectBase → ObjectBase}
    (hfind : ((world.withEdge id subject).changeSubject subject
      change).registry.findEntryLocked target = some later) :
    ∃ earlier, world.registry.findEntryLocked target = some earlier ∧
      later.scope = earlier.scope ∧ later.ownerId = earlier.ownerId ∧
      ∀ edge ∈ later.bindings, (∃ known ∈ earlier.bindings,
        known.subjectId = edge.subjectId) ∨ (target = id ∧ edge.subjectId = subject) := by
  obtain ⟨middle, hmiddle, hdescends⟩ :=
    (carries_changeSubject (world.withEdge id subject) subject change).entries _ _ hfind
  rw [withEdge, Registry.findEntryLocked_modify] at hmiddle
  split at hmiddle
  case isTrue heq =>
    obtain ⟨earlier, hearlier, rfl⟩ := Option.map_eq_some_iff.mp hmiddle
    refine ⟨earlier, heq ▸ hearlier, hdescends.scope, hdescends.owner, ?_⟩
    intro edge hmem
    obtain ⟨known, hknown, hsubject⟩ := hdescends.subjects edge hmem
    rcases List.mem_append.mp hknown with hknown | hknown
    · exact Or.inl ⟨known, hknown, hsubject⟩
    · obtain rfl := List.mem_singleton.mp hknown
      exact Or.inr ⟨heq, hsubject.symm⟩
  case isFalse =>
    exact ⟨middle, hmiddle, hdescends.scope, hdescends.owner,
      fun edge hmem => Or.inl (hdescends.subjects edge hmem)⟩

end AppWorld

end BbtFramework.App
