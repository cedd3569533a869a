import BbtFramework.App.ScopeConfinement

/-!
# Generations

Objects and edges take their generations from one counter.  No two of them share one,
not even after the first is gone, so a handle finds the edge it was issued for or none:
once that edge is sealed no later state lets a borrow through the handle.
-/

namespace BbtFramework.App

open BbtFramework.Library

namespace Registry

/-- What an older id or generation names in `after` it named in `before`; what is new
has a generation that was not used before. -/
structure Inherits (before after : Registry) : Prop where
  ids : before.nextIdSeq ≤ after.nextIdSeq
  generations : before.nextGeneration ≤ after.nextGeneration
  entries : ∀ id later, after.findEntryLocked id = some later →
    (∃ earlier, before.findEntryLocked id = some earlier ∧
      later.generation = earlier.generation ∧
      ∀ edge ∈ later.bindings, (∃ known ∈ earlier.bindings, edge.Ages known) ∨
        before.nextGeneration ≤ edge.generation) ∨
    (before.nextIdSeq ≤ id.number ∧ before.nextGeneration ≤ later.generation ∧
      ∀ edge ∈ later.bindings, before.nextGeneration ≤ edge.generation)

namespace Inherits

variable {first second third : Registry}

theorem refl (registry : Registry) : Inherits registry registry :=
  ⟨Nat.le_refl _, Nat.le_refl _, fun _ later hfind => Or.inl ⟨later, hfind, rfl,
    fun edge hmem => Or.inl ⟨edge, hmem, .refl edge⟩⟩⟩

theorem trans (hfirst : Inherits first second) (hsecond : Inherits second third) :
    Inherits first third := by
  refine ⟨Nat.le_trans hfirst.ids hsecond.ids,
    Nat.le_trans hfirst.generations hsecond.generations, ?_⟩
  intro id later hfind
  obtain ⟨middle, hmiddle, hgeneration, hedges⟩ | ⟨hid, hnew, hedges⟩ :=
    hsecond.entries id later hfind
  · obtain ⟨earlier, hearlier, hsame, hknown⟩ | ⟨hid, hnew, hknown⟩ :=
      hfirst.entries id middle hmiddle
    · refine Or.inl ⟨earlier, hearlier, hgeneration.trans hsame, ?_⟩
      intro edge hmem
      obtain ⟨between, hbetween, hages⟩ | hlate := hedges edge hmem
      · obtain ⟨known, hmem', hages'⟩ | hold := hknown between hbetween
        · exact Or.inl ⟨known, hmem', hages'.trans hages⟩
        · exact Or.inr (hages.generation.symm ▸ hold)
      · exact Or.inr (Nat.le_trans hfirst.generations hlate)
    · refine Or.inr ⟨hid, hgeneration.symm ▸ hnew, ?_⟩
      intro edge hmem
      obtain ⟨between, hbetween, hages⟩ | hlate := hedges edge hmem
      · exact hages.generation.symm ▸ hknown between hbetween
      · exact Nat.le_trans hfirst.generations hlate
  · exact Or.inr ⟨Nat.le_trans hfirst.ids hid, Nat.le_trans hfirst.generations hnew,
      fun edge hmem => Nat.le_trans hfirst.generations (hedges edge hmem)⟩

theorem edge {id : ObjectId} {later : RegistryEntry} {edge : Binding}
    (hinherits : Inherits first second)
    (hfind : second.findEntryLocked id = some later) (hmem : edge ∈ later.bindings)
    (hold : edge.generation < first.nextGeneration) :
    ∃ earlier, first.findEntryLocked id = some earlier ∧
      ∃ known ∈ earlier.bindings, edge.Ages known := by
  obtain ⟨earlier, hearlier, -, hedges⟩ | ⟨-, -, hedges⟩ :=
    hinherits.entries id later hfind
  · obtain ⟨known, hknown, hages⟩ | hlate := hedges edge hmem
    · exact ⟨earlier, hearlier, known, hknown, hages⟩
    · exact absurd hold (Nat.not_lt.mpr hlate)
  · exact absurd hold (Nat.not_lt.mpr (hedges edge hmem))

end Inherits

end Registry

namespace AppWorld

variable {world last : AppWorld}

theorem find_bound {id target subject : ObjectId} {later : RegistryEntry}
    {change : ObjectBase → ObjectBase}
    (hfind : ((world.withEdge id subject).changeSubject subject
      change).registry.findEntryLocked target = some later) :
    ∃ earlier, world.registry.findEntryLocked target = some earlier ∧
      later.Ages (if target = id then
        { earlier with bindings := earlier.bindings ++ [world.newEdge subject] }
      else earlier) := by
  obtain ⟨middle, hmiddle, hages⟩ :=
    ages_changeSubject (world.withEdge id subject) subject change target later hfind
  rw [withEdge, Registry.findEntryLocked_modify] at hmiddle
  split at hmiddle
  case isTrue heq =>
    obtain ⟨earlier, hearlier, rfl⟩ := Option.map_eq_some_iff.mp hmiddle
    refine ⟨earlier, heq ▸ hearlier, ?_⟩
    rw [if_pos heq]
    exact hages
  case isFalse hne =>
    refine ⟨middle, hmiddle, ?_⟩
    rw [if_neg hne]
    exact hages

variable [Infra]

theorem AgeStep.inherits {asked : Option Action} (hstep : world.AgeStep asked last) :
    Registry.Inherits world.registry last.registry := by
  cases hstep with
  | ages hids hgenerations hages =>
      refine ⟨hids, hgenerations, ?_⟩
      intro id later hfind
      obtain ⟨earlier, hearlier, hage⟩ := hages id later hfind
      exact Or.inl ⟨earlier, hearlier, hage.generation,
        fun edge hmem => Or.inl (hage.edges edge hmem)⟩
  | created kind hcreated =>
      obtain ⟨typeName, name, scope, ownerId, object, rfl⟩ := hcreated
      refine ⟨Nat.le_succ _, Nat.le_succ _, ?_⟩
      intro id later hfind
      rw [Registry.findEntryLocked_append] at hfind
      split at hfind
      case isTrue heq =>
        cases hfind
        exact Or.inr ⟨heq ▸ Nat.le_refl _, Nat.le_refl _, nofun⟩
      case isFalse =>
        exact Or.inl ⟨later, hfind, rfl, fun edge hmem => Or.inl ⟨edge, hmem, .refl edge⟩⟩
  | bound subject key id component edge change hasked hchecks hlast =>
      subst hlast
      refine ⟨?_, ?_, ?_⟩
      · rw [nextIdSeq_changeSubject]
        exact Nat.le_refl _
      · rw [nextGeneration_changeSubject]
        exact Nat.le_succ _
      · intro target later hfind
        obtain ⟨earlier, hearlier, hages⟩ := find_bound hfind
        refine Or.inl ⟨earlier, hearlier, ?_, ?_⟩
        · rw [hages.generation]
          split
          · rfl
          · rfl
        · intro other hmem
          obtain ⟨known, hknown, hother⟩ := hages.edges other hmem
          split at hknown
          · rcases List.mem_append.mp hknown with hknown | hknown
            · exact Or.inl ⟨known, hknown, hother⟩
            · obtain rfl := List.mem_singleton.mp hknown
              exact Or.inr (hother.generation ▸ Nat.le_refl _)
          · exact Or.inl ⟨known, hknown, hother⟩

end AppWorld

section

variable [Infra] {View : Type} {view : View}
variable {discipline : Discipline Action Action.Answer View}
variable {guard : AppPool View → AppStep → Prop} {first pool : AppPool View}
variable {labels : List AppStep}

theorem inherits_of_run (hrun : (appSystem view discipline).machine.Run guard first labels pool) :
    Registry.Inherits first.shared.registry pool.shared.registry := by
  induction hrun with
  | refl => exact .refl _
  | tail _ _ hnext ih => exact ih.trans (AppWorld.next_ageStep hnext).inherits

end

/-! ## Unique generations -/

/-- No two objects or edges share a generation. -/
structure Registry.Numbered (registry : Registry) : Prop where
  entries_lt : ∀ id entry, registry.findEntryLocked id = some entry →
    entry.generation < registry.nextGeneration
  edges_lt : ∀ id entry, registry.findEntryLocked id = some entry →
    ∀ edge ∈ entry.bindings, edge.generation < registry.nextGeneration
  entries : ∀ id other entry entry', registry.findEntryLocked id = some entry →
    registry.findEntryLocked other = some entry' →
    entry.generation = entry'.generation → id = other
  nodup : ∀ id entry, registry.findEntryLocked id = some entry →
    (entry.bindings.map Binding.generation).Nodup
  edges : ∀ id other entry entry', registry.findEntryLocked id = some entry →
    registry.findEntryLocked other = some entry' →
    ∀ edge ∈ entry.bindings, ∀ edge' ∈ entry'.bindings,
      edge.generation = edge'.generation → id = other
  apart : ∀ id other entry entry', registry.findEntryLocked id = some entry →
    registry.findEntryLocked other = some entry' →
    ∀ edge ∈ entry.bindings, edge.generation ≠ entry'.generation

namespace Registry.Numbered

variable {registry after : Registry} {id : ObjectId} {entry : RegistryEntry}

theorem edge_eq (hnumbered : registry.Numbered)
    (hfind : registry.findEntryLocked id = some entry) {edge other : Binding}
    (hedge : edge ∈ entry.bindings) (hother : other ∈ entry.bindings)
    (heq : edge.generation = other.generation) : edge = other :=
  List.inj_on_of_nodup_map (hnumbered.nodup id entry hfind) hedge hother heq

theorem of_empty (hempty : ∀ id, registry.findEntryLocked id = none) :
    registry.Numbered := by
  have hnone : ∀ {id entry}, registry.findEntryLocked id ≠ some entry := by
    intro id entry hfind
    rw [hempty id] at hfind
    cases hfind
  exact ⟨fun _ _ hfind => absurd hfind hnone, fun _ _ hfind => absurd hfind hnone,
    fun _ _ _ _ hfind => absurd hfind hnone, fun _ _ hfind => absurd hfind hnone,
    fun _ _ _ _ hfind => absurd hfind hnone, fun _ _ _ _ hfind => absurd hfind hnone⟩

theorem ages (hnumbered : registry.Numbered)
    (hgenerations : registry.nextGeneration ≤ after.nextGeneration)
    (hages : Relates RegistryEntry.Ages registry after) : after.Numbered where
  entries_lt := by
    intro id later hfind
    obtain ⟨earlier, hearlier, hage⟩ := hages id later hfind
    rw [hage.generation]
    exact Nat.lt_of_lt_of_le (hnumbered.entries_lt id earlier hearlier) hgenerations
  edges_lt := by
    intro id later hfind edge hmem
    obtain ⟨earlier, hearlier, hage⟩ := hages id later hfind
    obtain ⟨known, hknown, hedge⟩ := hage.edges edge hmem
    rw [hedge.generation]
    exact Nat.lt_of_lt_of_le (hnumbered.edges_lt id earlier hearlier known hknown)
      hgenerations
  entries := by
    intro id other later later' hfind hfind' heq
    obtain ⟨earlier, hearlier, hage⟩ := hages id later hfind
    obtain ⟨earlier', hearlier', hage'⟩ := hages other later' hfind'
    rw [hage.generation, hage'.generation] at heq
    exact hnumbered.entries id other earlier earlier' hearlier hearlier' heq
  nodup := by
    intro id later hfind
    obtain ⟨earlier, hearlier, hage⟩ := hages id later hfind
    exact hage.generations.nodup (hnumbered.nodup id earlier hearlier)
  edges := by
    intro id other later later' hfind hfind' edge hmem edge' hmem' heq
    obtain ⟨earlier, hearlier, hage⟩ := hages id later hfind
    obtain ⟨earlier', hearlier', hage'⟩ := hages other later' hfind'
    obtain ⟨known, hknown, hedge⟩ := hage.edges edge hmem
    obtain ⟨known', hknown', hedge'⟩ := hage'.edges edge' hmem'
    rw [hedge.generation, hedge'.generation] at heq
    exact hnumbered.edges id other earlier earlier' hearlier hearlier' known hknown
      known' hknown' heq
  apart := by
    intro id other later later' hfind hfind' edge hmem
    obtain ⟨earlier, hearlier, hage⟩ := hages id later hfind
    obtain ⟨earlier', hearlier', hage'⟩ := hages other later' hfind'
    obtain ⟨known, hknown, hedge⟩ := hage.edges edge hmem
    rw [hedge.generation, hage'.generation]
    exact hnumbered.apart id other earlier earlier' hearlier hearlier' known hknown

/-- A new entry without edges takes the next generation. -/
theorem append (hnumbered : registry.Numbered) (kind : ObjectKind)
    {made : Nat → RegistryEntry} (hgeneration : ∀ generation,
      (made generation).generation = generation)
    (hempty : ∀ generation, (made generation).bindings = []) :
    (registry.append kind made).Numbered := by
  have hfound : ∀ id entry, (registry.append kind made).findEntryLocked id = some entry →
      (id = ⟨kind, registry.nextIdSeq⟩ ∧ entry.generation = registry.nextGeneration ∧
        entry.bindings = []) ∨ registry.findEntryLocked id = some entry := by
    intro id entry hfind
    rw [findEntryLocked_append] at hfind
    split at hfind
    case isTrue heq =>
      cases hfind
      exact Or.inl ⟨heq, hgeneration _, hempty _⟩
    case isFalse => exact Or.inr hfind
  constructor
  · intro id entry hfind
    obtain ⟨-, hnew, -⟩ | hold := hfound id entry hfind
    · exact hnew ▸ Nat.lt_succ_self _
    · exact Nat.lt_succ_of_lt (hnumbered.entries_lt id entry hold)
  · intro id entry hfind edge hmem
    obtain ⟨-, -, hnone⟩ | hold := hfound id entry hfind
    · rw [hnone] at hmem
      cases hmem
    · exact Nat.lt_succ_of_lt (hnumbered.edges_lt id entry hold edge hmem)
  · intro id other entry entry' hfind hfind' heq
    obtain ⟨hid, hnew, -⟩ | hold := hfound id entry hfind
    · obtain ⟨hid', -, -⟩ | hold' := hfound other entry' hfind'
      · exact hid.trans hid'.symm
      · have hlt := hnumbered.entries_lt other entry' hold'
        omega
    · obtain ⟨hid', hnew', -⟩ | hold' := hfound other entry' hfind'
      · have hlt := hnumbered.entries_lt id entry hold
        omega
      · exact hnumbered.entries id other entry entry' hold hold' heq
  · intro id entry hfind
    obtain ⟨-, -, hnone⟩ | hold := hfound id entry hfind
    · rw [hnone]
      exact List.nodup_nil
    · exact hnumbered.nodup id entry hold
  · intro id other entry entry' hfind hfind' edge hmem edge' hmem' heq
    obtain ⟨-, -, hnone⟩ | hold := hfound id entry hfind
    · rw [hnone] at hmem
      cases hmem
    · obtain ⟨-, -, hnone⟩ | hold' := hfound other entry' hfind'
      · rw [hnone] at hmem'
        cases hmem'
      · exact hnumbered.edges id other entry entry' hold hold' edge hmem edge' hmem' heq
  · intro id other entry entry' hfind hfind' edge hmem
    obtain ⟨-, -, hnone⟩ | hold := hfound id entry hfind
    · rw [hnone] at hmem
      cases hmem
    · obtain ⟨-, hnew, -⟩ | hold' := hfound other entry' hfind'
      · have hlt := hnumbered.edges_lt id entry hold edge hmem
        omega
      · exact hnumbered.apart id other entry entry' hold hold' edge hmem

end Registry.Numbered

/-- The state after the new edge of a bind. -/
theorem AppWorld.numbered_withEdge {world : AppWorld} {id subject : ObjectId}
    (hnumbered : world.registry.Numbered) :
    (world.withEdge id subject).registry.Numbered := by
  have hfound : ∀ target later,
      (world.withEdge id subject).registry.findEntryLocked target = some later →
      ∃ earlier, world.registry.findEntryLocked target = some earlier ∧
        later.generation = earlier.generation ∧
        ((target = id ∧ later.bindings = earlier.bindings ++ [world.newEdge subject]) ∨
          later.bindings = earlier.bindings) := by
    intro target later hfind
    rw [withEdge, Registry.findEntryLocked_modify] at hfind
    split at hfind
    case isTrue heq =>
      obtain ⟨earlier, hearlier, rfl⟩ := Option.map_eq_some_iff.mp hfind
      exact ⟨earlier, heq ▸ hearlier, rfl, Or.inl ⟨heq, rfl⟩⟩
    case isFalse => exact ⟨later, hfind, rfl, Or.inr rfl⟩
  have hedge : ∀ {target : ObjectId} {later earlier : RegistryEntry} {edge : Binding},
      world.registry.findEntryLocked target = some earlier →
      ((target = id ∧ later.bindings = earlier.bindings ++ [world.newEdge subject]) ∨
        later.bindings = earlier.bindings) → edge ∈ later.bindings →
      edge ∈ earlier.bindings ∨
        (target = id ∧ edge.generation = world.registry.nextGeneration) := by
    rintro target later earlier edge - (⟨heq, hedges⟩ | hedges) hmem
    · rw [hedges] at hmem
      rcases List.mem_append.mp hmem with hmem | hmem
      · exact Or.inl hmem
      · obtain rfl := List.mem_singleton.mp hmem
        exact Or.inr ⟨heq, rfl⟩
    · exact Or.inl (hedges ▸ hmem)
  have hnext : (world.withEdge id subject).registry.nextGeneration =
      world.registry.nextGeneration + 1 := rfl
  constructor
  · intro target later hfind
    obtain ⟨earlier, hearlier, hgeneration, -⟩ := hfound target later hfind
    rw [hgeneration]
    exact Nat.lt_succ_of_lt (hnumbered.entries_lt target earlier hearlier)
  · intro target later hfind edge hmem
    obtain ⟨earlier, hearlier, -, hcases⟩ := hfound target later hfind
    obtain hold | ⟨-, hnew⟩ := hedge hearlier hcases hmem
    · exact Nat.lt_succ_of_lt (hnumbered.edges_lt target earlier hearlier edge hold)
    · omega
  · intro target other later later' hfind hfind' heq
    obtain ⟨earlier, hearlier, hgeneration, -⟩ := hfound target later hfind
    obtain ⟨earlier', hearlier', hgeneration', -⟩ := hfound other later' hfind'
    rw [hgeneration, hgeneration'] at heq
    exact hnumbered.entries target other earlier earlier' hearlier hearlier' heq
  · intro target later hfind
    obtain ⟨earlier, hearlier, -, ⟨-, hedges⟩ | hedges⟩ := hfound target later hfind
    · rw [hedges, List.map_append]
      refine List.nodup_append.mpr
        ⟨hnumbered.nodup target earlier hearlier, List.nodup_singleton _, ?_⟩
      rintro generation hmem other hother rfl
      obtain ⟨edge, hold, rfl⟩ := List.mem_map.mp hmem
      have hlt := hnumbered.edges_lt target earlier hearlier edge hold
      rw [List.mem_singleton.mp hother] at hlt
      exact Nat.lt_irrefl _ hlt
    · rw [hedges]
      exact hnumbered.nodup target earlier hearlier
  · intro target other later later' hfind hfind' edge hmem edge' hmem' heq
    obtain ⟨earlier, hearlier, -, hcases⟩ := hfound target later hfind
    obtain ⟨earlier', hearlier', -, hcases'⟩ := hfound other later' hfind'
    obtain hold | ⟨hid, hnew⟩ := hedge hearlier hcases hmem
    · obtain hold' | ⟨-, hnew'⟩ := hedge hearlier' hcases' hmem'
      · exact hnumbered.edges target other earlier earlier' hearlier hearlier' edge hold
          edge' hold' heq
      · have hlt := hnumbered.edges_lt target earlier hearlier edge hold
        omega
    · obtain hold' | ⟨hid', -⟩ := hedge hearlier' hcases' hmem'
      · have hlt := hnumbered.edges_lt other earlier' hearlier' edge' hold'
        omega
      · exact hid.trans hid'.symm
  · intro target other later later' hfind hfind' edge hmem
    obtain ⟨earlier, hearlier, -, hcases⟩ := hfound target later hfind
    obtain ⟨earlier', hearlier', hgeneration', -⟩ := hfound other later' hfind'
    rw [hgeneration']
    obtain hold | ⟨-, hnew⟩ := hedge hearlier hcases hmem
    · exact hnumbered.apart target other earlier earlier' hearlier hearlier' edge hold
    · have hlt := hnumbered.entries_lt other earlier' hearlier'
      omega

theorem AppWorld.AgeStep.numbered [Infra] {world last : AppWorld} {asked : Option Action}
    (hstep : world.AgeStep asked last) (hnumbered : world.registry.Numbered) :
    last.registry.Numbered := by
  cases hstep with
  | ages _ hgenerations hages => exact hnumbered.ages hgenerations hages
  | created kind hcreated =>
      obtain ⟨typeName, name, scope, ownerId, object, rfl⟩ := hcreated
      exact hnumbered.append kind (fun _ => rfl) (fun _ => rfl)
  | bound subject key id component edge change hasked hchecks hlast =>
      subst hlast
      exact (numbered_withEdge hnumbered).ages
        (Nat.le_of_eq (nextGeneration_changeSubject _ _ _).symm)
        (ages_changeSubject _ _ _)

theorem AppWorld.numbered_start {world : AppWorld} (hstart : AppWorld.Start world) :
    world.registry.Numbered := by
  obtain ⟨options, maxObjects, maxBindings, -, rfl⟩ := hstart
  exact (Registry.Numbered.of_empty (fun _ => rfl)).append .app (fun _ => rfl)
    (fun _ => rfl)

section

variable [Infra] {View : Type} {view : View}
variable {discipline : Discipline Action Action.Answer View}
variable {guard : AppPool View → AppStep → Prop} {pool : AppPool View}

theorem generations_unique
    (hreach : (appSystem view discipline).machine.ReachableWhere guard pool) :
    pool.shared.registry.Numbered := by
  refine hreach.induct (motive := fun pool => pool.shared.registry.Numbered) ?_ ?_
  · rintro pool ⟨world, hstart, rfl⟩
    exact AppWorld.numbered_start hstart
  · intro pool label next _ ih _ hnext
    exact (AppWorld.next_ageStep hnext).numbered ih

end

/-! ## Sealed handles -/

def Registry.Sealed (registry : Registry) (component : ObjectId) (generation : Nat) :
    Prop :=
  ∀ entry, registry.findEntryLocked component = some entry →
    ∀ edge ∈ entry.bindings, edge.generation = generation → edge.retiring = true

instance (registry : Registry) (component : ObjectId) (generation : Nat) :
    Decidable (registry.Sealed component generation) :=
  inferInstanceAs (Decidable (∀ entry ∈ registry.findEntryLocked component,
    ∀ edge ∈ entry.bindings, _ → _))

theorem Action.asked_bindRequest {asked : Option Action} {subject : ObjectHandle}
    {key : ComponentKey} (hrequest : asked.bind Action.bindRequest = some (subject, key)) :
    asked = some (.command (.bindComponent subject key)) := by
  obtain ⟨act, rfl, hact⟩ := Option.bind_eq_some_iff.mp hrequest
  cases act with
  | query query => cases hact
  | command command =>
      cases command with
      | bindComponent other key' =>
          cases hact
          rfl
      | _ => cases hact

structure Issues [Infra] (pool : AppPool Unit) (label : AppStep) (subject object : ObjectHandle)
    (generation : Nat) (bound : AppPool Unit) : Prop where
  asked : ∃ key, pool.asked label = some (.command (.bindComponent subject key)) ∧
    (pool.shared.bindComponent subject key).1 = .ok (object, generation)
  next : plainSystem.next pool label = some bound

section

variable [Infra] {pool bound : AppPool Unit} {label : AppStep}
variable {subject object : ObjectHandle} {generation : Nat}

/-- What a bind that returns a handle has done. -/
theorem Issues.writes (hissues : Issues pool label subject object generation bound)
    {key : ComponentKey}
    (hasked : pool.asked label = some (.command (.bindComponent subject key))) :
    ∃ id component edge, pool.shared.bindChecks subject key = .ok (id, component, edge) ∧
      object = Registry.makeHandle id component ∧
      generation = pool.shared.registry.nextGeneration ∧
      bound.shared = (pool.shared.withEdge id subject.id).changeSubject subject.id
        (fun base => base.bindComponentEntry key.type key.name object generation) := by
  obtain ⟨⟨asked, hasked', hresult⟩, hnext⟩ := hissues
  obtain rfl : key = asked := by
    rw [hasked] at hasked'
    cases hasked'
    rfl
  cases label with
  | spawn entry => cases hasked
  | env event => cases hasked
  | step thread choice =>
      obtain ⟨-, act, rest, answer, last, hthread, hperform, rfl⟩ := System.next_step hnext
      rw [Pool.asked_call hthread] at hasked
      obtain rfl := Option.some.inj hasked
      have happly := Option.some.inj (AppWorld.perform_command hperform)
      obtain ⟨error, heq⟩ | ⟨id, component, edge, hchecks, heq⟩ :=
        pool.shared.bindComponent_writes subject key
      · rw [heq] at hresult
        cases hresult
      · rw [heq] at hresult
        cases hresult
        cases heq.symm.trans happly
        exact ⟨id, component, edge, hchecks, rfl, rfl, rfl⟩

theorem Issues.edges (hissues : Issues pool label subject object generation bound)
    (hreach : plainSystem.machine.Reachable pool) :
    generation < bound.shared.registry.nextGeneration ∧
      ∀ entry, bound.shared.registry.findEntryLocked object.id = some entry →
        ∀ edge ∈ entry.bindings, edge.generation = generation →
          edge.subjectId = subject.id := by
  obtain ⟨key, hasked, -⟩ := hissues.asked
  obtain ⟨id, component, edge, hchecks, rfl, rfl, hshared⟩ := hissues.writes hasked
  have hnumbered := generations_unique hreach
  rw [hshared]
  constructor
  · rw [AppWorld.nextGeneration_changeSubject]
    exact Nat.lt_succ_self _
  · intro entry hfind edge hmem hgeneration
    dsimp only [Registry.makeHandle] at hfind
    obtain ⟨earlier, hearlier, hages⟩ := AppWorld.find_bound hfind
    obtain ⟨known, hknown, hedge⟩ := hages.edges edge hmem
    rw [if_pos rfl] at hknown
    rcases List.mem_append.mp hknown with hknown | hknown
    · have hlt := hnumbered.edges_lt id earlier hearlier known hknown
      rw [← hedge.generation, hgeneration] at hlt
      exact absurd hlt (Nat.lt_irrefl _)
    · obtain rfl := List.mem_singleton.mp hknown
      exact hedge.subject

/-- A borrow through a handle is that of the subject it was issued to; once the edge of
the handle is sealed, erased or gone, no later state lets a borrow through it. -/
theorem sealed_handle_stays_sealed {held : AppPool Unit} {labels : List AppStep}
    (hreach : plainSystem.machine.Reachable pool)
    (hissues : Issues pool label subject object generation bound)
    (hrun : plainSystem.machine.Run (fun _ _ => True) bound labels held) :
    (∀ allow lease registry, held.shared.registry.borrowImpl object generation allow =
        .ok (lease, registry) →
      lease = ⟨object.id, subject.id, generation⟩ ∧
        registry = held.shared.registry.modify object.id lease.take) ∧
      (held.shared.registry.Sealed object.id generation →
        ∀ later rest, plainSystem.machine.Run (fun _ _ => True) held rest later →
          ∀ allow, ∃ error,
            later.shared.registry.borrowImpl object generation allow = .error error) := by
  obtain ⟨hlt, hsubject⟩ := hissues.edges hreach
  have hheld := inherits_of_run hrun
  constructor
  · intro allow lease registry hborrow
    obtain ⟨entry, edge, hfind, -, -, hmem, hgeneration, -, -, rfl, rfl⟩ :=
      Registry.borrowImpl_ok hborrow
    obtain ⟨earlier, hearlier, known, hknown, hages⟩ :=
      hheld.edge hfind hmem (hgeneration ▸ hlt)
    refine ⟨?_, rfl⟩
    rw [hages.subject, hsubject earlier hearlier known hknown
      (hages.generation.symm.trans hgeneration)]
  · intro hsealed later rest hrest allow
    cases hborrow : later.shared.registry.borrowImpl object generation allow with
    | error error => exact ⟨error, rfl⟩
    | ok made =>
        obtain ⟨entry, edge, hfind, -, -, hmem, hgeneration, -, hopen, -⟩ :=
          Registry.borrowImpl_ok hborrow
        have hold := Nat.lt_of_lt_of_le hlt hheld.generations
        obtain ⟨earlier, hearlier, known, hknown, hages⟩ :=
          (inherits_of_run hrest).edge hfind hmem (hgeneration ▸ hold)
        have hretiring := hages.retiring (hsealed earlier hearlier known hknown
          (hages.generation.symm.trans hgeneration))
        rw [hopen] at hretiring
        cases hretiring

end

/-- A component is bound to another one and unbound. -/
theorem sealed_handle_stays_sealed_unbound :
    letI := permissiveInfra
    let subject : ObjectHandle := ⟨true, ⟨.component, 2⟩, 3⟩
    let object : ObjectHandle := ⟨true, ⟨.component, 1⟩, 2⟩
    ∃ pool bound held labels, plainSystem.machine.Reachable pool ∧
      Issues pool (smoothStep 2) subject object 4 bound ∧
      plainSystem.machine.Run (fun _ _ => True) bound labels held ∧
      ∀ later rest, plainSystem.machine.Run (fun _ _ => True) held rest later →
        ∀ allow, ∃ error,
          later.shared.registry.borrowImpl object 4 allow = .error error := by
  let _ := permissiveInfra
  intro subject object
  let unbind : List AppStep :=
    .spawn (.coUnbindComponent "A" subject "a" ⟨.app, none⟩) :: List.replicate 2 (smoothStep 3)
  have hboot : plainSystem.machine.Reachable
      (plainSystem.boot (AppWorld.fresh (.ok ()) 10 10)) :=
    .start ⟨_, start_fresh 10 10 (by decide), rfl⟩
  obtain ⟨pool, hreach, htest⟩ := hboot.exec_any (fun _ _ => true) (fun _ _ _ => trivial)
    ([.spawn (.coInstallComponent "A" "a" ⟨.app, none⟩),
      .spawn (.coInstallComponent "B" "b" ⟨.app, none⟩),
      .spawn (.coBindComponent "A" subject "a" ⟨.app, none⟩)] ++
      List.replicate 8 (smoothStep 0) ++ List.replicate 8 (smoothStep 1) ++ [smoothStep 2])
    (fun pool => (pool.asked (smoothStep 2)).bind Action.bindRequest =
        some (subject, ⟨"A", "a", .app, none⟩) ∧
      (pool.shared.bindComponent subject ⟨"A", "a", .app, none⟩).1 = .ok (object, 4) ∧
      (plainSystem.next pool (smoothStep 2)).any (fun bound =>
        (plainSystem.machine.exec (fun _ _ => true) bound unbind).any (fun held =>
          decide (held.shared.registry.Sealed object.id 4))) = true)
    (by decide)
  obtain ⟨hasked, hresult, hnext⟩ := of_decide_eq_true htest
  obtain ⟨bound, hbound, hrest⟩ := (Option.any_eq_true _ _).mp hnext
  obtain ⟨held, hexec, hsealed⟩ := (Option.any_eq_true _ _).mp hrest
  have hissues : Issues pool (smoothStep 2) subject object 4 bound :=
    ⟨⟨_, Action.asked_bindRequest hasked, hresult⟩, hbound⟩
  have hrun : plainSystem.machine.Run (fun _ _ => True) bound unbind held :=
    Machine.Run.exec (fun _ _ _ => trivial) hexec
  exact ⟨pool, bound, held, unbind, hreach, hissues, hrun,
    (sealed_handle_stays_sealed hreach hissues hrun).2 (of_decide_eq_true hsealed)⟩

end BbtFramework.App
