import BbtFramework.App.Edges

/-!
# Scope confinement

The contract lets a component in the scope of a service or an actor be bound by
its owner and by components of the same scope and owner only.  No check of a
bind relates the subject to the scope of the target, so the rule holds as long
as the callers keep to it.
-/

namespace BbtFramework.App

open BbtFramework.Library

/-- The scope rule for an edge from `target` to `subject`. -/
def Confined (registry : Registry) (target : RegistryEntry) (subject : ObjectId) :
    Prop :=
  target.scope = .app ∨ target.ownerId = some subject ∨
    (subject.kind = .component ∧ (registry.findEntryLocked subject).any (fun entry =>
      entry.scope = target.scope ∧ entry.ownerId = target.ownerId) = true)

instance (registry : Registry) (target : RegistryEntry) (subject : ObjectId) :
    Decidable (Confined registry target subject) :=
  inferInstanceAs (Decidable (_ ∨ _ ∨ (_ ∧ _)))

/-- The arguments of a bind. -/
def Action.bindRequest : Action → Option (ObjectHandle × ComponentKey)
  | .command (.bindComponent subject key) => some (subject, key)
  | _ => none

/-- The scope rule for a bind of `subject` under `key`, whatever is found there. -/
def ComponentKey.KeepsScope (key : ComponentKey) (registry : Registry) (subject : ObjectId) :
    Prop :=
  key.scope = .app ∨ key.ownerId = some subject ∨
    (subject.kind = .component ∧ (registry.findEntryLocked subject).any (fun entry =>
      entry.scope = key.scope ∧ entry.ownerId = key.ownerId) = true)

instance (key : ComponentKey) (registry : Registry) (subject : ObjectId) :
    Decidable (key.KeepsScope registry subject) :=
  inferInstanceAs (Decidable (_ ∨ _ ∨ (_ ∧ _)))

/-- A bind of a registered subject under a key with a component keeps to the scope rule,
unless the state refuses every edge between the two. -/
def ScopeRespected (pool : AppPool Unit) (label : AppStep) : Prop :=
  ∀ request ∈ (pool.asked label).bind Action.bindRequest,
    ∀ entry ∈ pool.shared.registry.findEntryLocked request.1.id,
      ∀ id ∈ pool.shared.registry.findComponentLocked request.2.scope request.2.ownerId
          request.2.type request.2.name,
        ∀ component ∈ pool.shared.registry.findEntryLocked id,
          request.2.KeepsScope pool.shared.registry request.1.id ∨
            pool.shared.BindRefused request.1 request.2 entry id component

instance (pool : AppPool Unit) (label : AppStep) : Decidable (ScopeRespected pool label) :=
  inferInstanceAs
    (Decidable (∀ request ∈ _, ∀ entry ∈ _, ∀ id ∈ _, ∀ component ∈ _, _ ∨ _))

/-- An object registered before stays in its scope and with its owner. -/
structure Placed (before after : Registry) : Prop where
  ids : before.nextIdSeq ≤ after.nextIdSeq
  same : ∀ id later, after.findEntryLocked id = some later →
    id.number < before.nextIdSeq →
    ∃ earlier, before.findEntryLocked id = some earlier ∧
      later.scope = earlier.scope ∧ later.ownerId = earlier.ownerId

namespace Placed

variable {before middle after : Registry}

theorem refl (registry : Registry) : Placed registry registry :=
  ⟨Nat.le_refl _, fun _ later hfind _ => ⟨later, hfind, rfl, rfl⟩⟩

theorem trans (hfirst : Placed before middle) (hsecond : Placed middle after) :
    Placed before after := by
  refine ⟨Nat.le_trans hfirst.ids hsecond.ids, ?_⟩
  intro id later hfind hlt
  obtain ⟨between, hbetween, hscope, howner⟩ :=
    hsecond.same id later hfind (Nat.lt_of_lt_of_le hlt hfirst.ids)
  obtain ⟨earlier, hearlier, hscope', howner'⟩ := hfirst.same id between hbetween hlt
  exact ⟨earlier, hearlier, hscope.trans hscope', howner.trans howner'⟩

theorem of_carries (hcarries : Registry.Carries before after) :
    Placed before after := by
  refine ⟨hcarries.ids, ?_⟩
  intro id later hfind _
  obtain ⟨earlier, hearlier, hdescends⟩ := hcarries.entries id later hfind
  exact ⟨earlier, hearlier, hdescends.scope, hdescends.owner⟩

end Placed

section

variable [Infra] {world last : AppWorld}

theorem placed_of_edgeStep {asked : Option Action}
    (hstep : world.EdgeStep asked last) : Placed world.registry last.registry := by
  cases hstep with
  | carries hcarries => exact .of_carries hcarries
  | created kind hcreated =>
      have hids : world.registry.nextIdSeq ≤ last.registry.nextIdSeq := by
        obtain ⟨typeName, name, scope, ownerId, object, rfl⟩ := hcreated
        exact Nat.le_succ _
      refine ⟨hids, ?_⟩
      intro id later hfind hlt
      obtain hold | ⟨rfl, -⟩ := hcreated.find hfind
      · exact ⟨later, hold, rfl, rfl⟩
      · exact absurd hlt (Nat.lt_irrefl _)
  | bound subject key id component edge change hasked hchecks hlast =>
      subst hlast
      have hids := (AppWorld.carries_changeSubject (world.withEdge id subject.id)
        subject.id change).ids
      refine ⟨hids, ?_⟩
      intro other later hfind _
      obtain ⟨earlier, hearlier, hscope, howner, -⟩ := AppWorld.find_withEdge hfind
      exact ⟨earlier, hearlier, hscope, howner⟩

variable {guard : AppPool Unit → AppStep → Prop} {first pool next : AppPool Unit}
variable {labels : List AppStep}

theorem placed_of_run (hrun : plainSystem.machine.Run guard first labels pool) :
    Placed first.shared.registry pool.shared.registry := by
  induction hrun with
  | refl => exact .refl _
  | tail _ _ hnext ih =>
      exact ih.trans (placed_of_edgeStep (AppWorld.next_edgeStep hnext))

end

theorem Confined.of_same {registry : Registry} {target later : RegistryEntry}
    {subject : ObjectId} (hconfined : Confined registry target subject)
    (hscope : later.scope = target.scope) (howner : later.ownerId = target.ownerId) :
    Confined registry later subject := by
  unfold Confined
  rw [hscope, howner]
  exact hconfined

/-- The rule still holds of a subject that is still registered. -/
theorem Confined.placed {before after : Registry} {target entry : RegistryEntry}
    {subject : ObjectId} (hconfined : Confined before target subject)
    (hplaced : Placed before after) (hfind : after.findEntryLocked subject = some entry) :
    Confined after target subject := by
  obtain happ | howner | ⟨hkind, hany⟩ := hconfined
  · exact Or.inl happ
  · exact Or.inr (Or.inl howner)
  · obtain ⟨earlier, hearlier, hsame⟩ := (Option.any_eq_true _ _).mp hany
    obtain ⟨found, hfound, hscope, howner⟩ :=
      hplaced.same subject entry hfind (Registry.number_lt_of_find hearlier)
    obtain rfl := Option.some.inj (hfound.symm.trans hearlier)
    refine Or.inr (Or.inr ⟨hkind, ?_⟩)
    rw [hfind, Option.any_some, hscope, howner]
    exact hsame

theorem confined_iff_keepsScope {registry : Registry} {key : ComponentKey} {id subject : ObjectId}
    {component : RegistryEntry}
    (hfound : registry.findComponentLocked key.scope key.ownerId key.type key.name = some id)
    (hcomponent : registry.findEntryLocked id = some component) :
    Confined registry component subject ↔ key.KeepsScope registry subject := by
  obtain ⟨hscope, howner⟩ := Registry.findComponentLocked_placed hfound hcomponent
  rw [Confined, ComponentKey.KeepsScope, hscope]
  by_cases happ : key.scope = .app
  · simp [happ]
  · rw [howner.resolve_left happ]

section

variable [Infra] {pool : AppPool Unit}

theorem ScopeRespected.confined {label : AppStep} {subject : ObjectHandle}
    {key : ComponentKey} {id : ObjectId} {component : RegistryEntry} {edge : Binding}
    (hrespected : ScopeRespected pool label)
    (hasked : pool.asked label = some (.command (.bindComponent subject key)))
    (hchecks : pool.shared.bindChecks subject key = .ok (id, component, edge)) :
    Confined pool.shared.registry component subject.id := by
  obtain ⟨⟨hfound, hcomponent⟩, ⟨entry, hentry, hpasses⟩, -⟩ :=
    AppWorld.bindChecks_ok_iff.mp hchecks
  refine (confined_iff_keepsScope hfound hcomponent).mpr ?_
  refine (hrespected (subject, key) ?_ entry hentry id hfound component hcomponent).resolve_right
    hpasses
  rw [hasked]
  rfl

/-- The requests that respect the scopes are those that are refused, without a change,
where the edge would break the rule. -/
theorem scopeRespected_iff {label : AppStep} {subject : ObjectHandle} {key : ComponentKey}
    (hasked : pool.asked label = some (.command (.bindComponent subject key))) :
    ScopeRespected pool label ↔ ∀ id component,
      pool.shared.registry.findComponentLocked key.scope key.ownerId key.type key.name =
        some id →
      pool.shared.registry.findEntryLocked id = some component →
      ¬Confined pool.shared.registry component subject.id →
      ∃ error, pool.shared.bindComponent subject key = (.error error, pool.shared) := by
  constructor
  · intro hrespected id component hfound hcomponent hbreaks
    obtain hrefused | ⟨other, made, edge, hchecks, -⟩ :=
      pool.shared.bindComponent_cases subject key
    · exact hrefused
    · obtain ⟨hother, hmade⟩ := AppWorld.bindChecks_found hchecks
      obtain rfl := Option.some.inj (hfound.symm.trans hother)
      obtain rfl := Option.some.inj (hcomponent.symm.trans hmade)
      exact absurd (hrespected.confined hasked hchecks) hbreaks
  · intro hrefuses request hrequest entry hentry id hfound component hcomponent
    rw [hasked] at hrequest
    obtain rfl := Option.some.inj hrequest
    by_contra hpasses
    rw [not_or] at hpasses
    obtain ⟨hbreaks, hpasses⟩ := hpasses
    rw [← confined_iff_keepsScope hfound hcomponent] at hbreaks
    obtain ⟨error, hrefused⟩ := hrefuses id component hfound hcomponent hbreaks
    have hchecks : pool.shared.bindChecks subject key =
        .ok (id, component, pool.shared.newEdge subject.id) :=
      AppWorld.bindChecks_ok_iff.mpr ⟨⟨hfound, hcomponent⟩, ⟨entry, hentry, hpasses⟩, rfl⟩
    rw [AppWorld.bindComponent, hchecks] at hrefused
    cases congrArg Prod.fst hrefused

/-- The rule held of an edge at a state the run has passed. -/
def ConfinedSince (pool : AppPool Unit) (target : RegistryEntry)
    (subject : ObjectId) : Prop :=
  ∃ earlier labels, plainSystem.machine.ReachableWhere ScopeRespected earlier ∧
    plainSystem.machine.Run ScopeRespected earlier labels pool ∧
    Confined earlier.shared.registry target subject

theorem confinedSince_of_reachable
    (hreach : plainSystem.machine.ReachableWhere ScopeRespected pool) :
    ∀ id target, pool.shared.registry.findEntryLocked id = some target →
      ∀ edge ∈ target.bindings, ConfinedSince pool target edge.subjectId := by
  refine hreach.induct (motive := fun pool =>
    ∀ id target, pool.shared.registry.findEntryLocked id = some target →
      ∀ edge ∈ target.bindings, ConfinedSince pool target edge.subjectId) ?_ ?_
  · rintro pool ⟨world, ⟨options, maxObjects, maxBindings, -, rfl⟩, rfl⟩ id target hfind
    have hempty : target.bindings = [] := by
      replace hfind : (AppWorld.freshRegistry maxObjects maxBindings).findEntryLocked id =
        some target := hfind
      rw [AppWorld.freshRegistry, Registry.findEntryLocked_append] at hfind
      split at hfind
      · cases hfind
        rfl
      · cases hfind
    rw [hempty]
    exact nofun
  · intro pool label next hpool ih hguard hnext id target hfind edge hmem
    have hextend : ∀ {entry subject}, ConfinedSince pool entry subject →
        ConfinedSince next entry subject := by
      rintro entry subject ⟨earlier, labels, hearlier, hrun, hconfined⟩
      exact ⟨earlier, labels ++ [label], hearlier, hrun.tail hguard hnext, hconfined⟩
    have hcarry : ∀ {earlier known}, pool.shared.registry.findEntryLocked id = some earlier →
        target.scope = earlier.scope → target.ownerId = earlier.ownerId →
        known ∈ earlier.bindings → ConfinedSince next target known.subjectId := by
      intro earlier known hearlier hscope howner hknown
      obtain ⟨first, labels, hfirst, hrun, hconfined⟩ := ih id earlier hearlier known hknown
      exact hextend ⟨first, labels, hfirst, hrun, hconfined.of_same hscope howner⟩
    cases AppWorld.next_edgeStep hnext with
    | carries hcarries =>
        obtain ⟨earlier, hearlier, hdescends⟩ := hcarries.entries id target hfind
        obtain ⟨known, hknown, hsubject⟩ := hdescends.subjects edge hmem
        rw [← hsubject]
        exact hcarry hearlier hdescends.scope hdescends.owner hknown
    | created kind hcreated =>
        obtain hold | ⟨-, _, _, _, _, _, rfl⟩ := hcreated.find hfind
        · exact hcarry hold rfl rfl hmem
        · cases hmem
    | bound subject key found component made change hasked hchecks hlast =>
        rw [hlast] at hfind
        obtain ⟨earlier, hearlier, hscope, howner, hedges⟩ :=
          AppWorld.find_withEdge hfind
        obtain ⟨known, hknown, hsubject⟩ | ⟨rfl, hsubject⟩ := hedges edge hmem
        · rw [← hsubject]
          exact hcarry hearlier hscope howner hknown
        · obtain ⟨-, hcomponent, -⟩ := AppWorld.bindChecks_ok hchecks
          obtain rfl := Option.some.inj (hcomponent.symm.trans hearlier)
          have hconfined := hguard.confined hasked hchecks
          rw [hsubject]
          exact hextend ⟨pool, [], hpool, .refl, hconfined.of_same hscope howner⟩

/-- While every bind keeps to the scope rule or is refused anyway, every edge keeps to it.
At every state the requests that do so are those that are refused, without a change, where
the edge would break the rule. -/
theorem edges_confined
    (hreach : plainSystem.machine.ReachableWhere ScopeRespected pool) :
    (∀ id target, pool.shared.registry.findEntryLocked id = some target →
      ∀ edge ∈ target.bindings, ConfinedSince pool target edge.subjectId ∧
        ∀ entry, pool.shared.registry.findEntryLocked edge.subjectId = some entry →
          Confined pool.shared.registry target edge.subjectId) ∧
      ∀ label subject key,
        pool.asked label = some (.command (.bindComponent subject key)) →
        (ScopeRespected pool label ↔ ∀ id component,
          pool.shared.registry.findComponentLocked key.scope key.ownerId key.type key.name =
            some id →
          pool.shared.registry.findEntryLocked id = some component →
          ¬Confined pool.shared.registry component subject.id →
          ∃ error, pool.shared.bindComponent subject key = (.error error, pool.shared)) := by
  constructor
  · intro id target hfind edge hmem
    have hsince := confinedSince_of_reachable hreach id target hfind edge hmem
    refine ⟨hsince, ?_⟩
    intro entry hentry
    obtain ⟨earlier, labels, -, hrun, hconfined⟩ := hsince
    exact hconfined.placed (placed_of_run hrun) hentry
  · intro label subject key hasked
    exact scopeRespected_iff hasked

end

/-- A service, a component of the application and one in the scope of the
service; then `subject` is bound to the latter. -/
def scopedBind (subject : ObjectHandle) : List AppStep :=
  let service : ObjectHandle := ⟨true, ⟨.service, 1⟩, 2⟩
  [.spawn (.coInstallService (.ok ()) "S" ["B"] []),
    .spawn (.coInstallComponent "A" "a" ⟨.app, none⟩),
    .spawn (.coInstallComponent "B" "b" ⟨.service, some service⟩),
    .spawn (.coBindComponent "B" subject "b" ⟨.service, some service⟩)] ++
    List.replicate 8 (smoothStep 0) ++ List.replicate 8 (smoothStep 1) ++
    List.replicate 8 (smoothStep 2) ++ List.replicate 2 (smoothStep 3)

/-- The service binds the component in its scope. -/
theorem edges_confined_service :
    letI := permissiveInfra
    ∃ pool, plainSystem.machine.ReachableWhere ScopeRespected pool ∧
      (pool.shared.registry.findEntryLocked ⟨.component, 3⟩).any (fun target =>
        target.bindings ≠ []) = true ∧
      ∀ id target, pool.shared.registry.findEntryLocked id = some target →
        ∀ edge ∈ target.bindings, ConfinedSince pool target edge.subjectId := by
  let _ := permissiveInfra
  have hboot : plainSystem.machine.ReachableWhere ScopeRespected
      (plainSystem.boot (AppWorld.fresh (.ok ()) 10 10)) :=
    .start ⟨_, start_fresh 10 10 (by decide), rfl⟩
  obtain ⟨pool, hreach, htest⟩ := hboot.exec_any
    (fun pool label => decide (ScopeRespected pool label))
    (fun _ _ => of_decide_eq_true) (scopedBind ⟨true, ⟨.service, 1⟩, 2⟩)
    (fun pool => (pool.shared.registry.findEntryLocked ⟨.component, 3⟩).any (fun target =>
      target.bindings ≠ [])) (by decide)
  exact ⟨pool, hreach, htest, fun id target hfind edge hmem =>
    ((edges_confined hreach).1 id target hfind edge hmem).1⟩

/-- A component of the application is bound to one in the scope of a service. -/
theorem edges_not_confined :
    letI := permissiveInfra
    ¬∀ pool, plainSystem.machine.Reachable pool →
      ∀ id target, pool.shared.registry.findEntryLocked id = some target →
        ∀ edge ∈ target.bindings,
          Confined pool.shared.registry target edge.subjectId := by
  let _ := permissiveInfra
  intro hclaim
  have hboot : plainSystem.machine.Reachable
      (plainSystem.boot (AppWorld.fresh (.ok ()) 10 10)) :=
    .start ⟨_, start_fresh 10 10 (by decide), rfl⟩
  obtain ⟨pool, hreach, htest⟩ := hboot.exec_any (fun _ _ => true) (fun _ _ _ => trivial)
    (scopedBind ⟨true, ⟨.component, 2⟩, 3⟩)
    (fun pool => (pool.shared.registry.findEntryLocked ⟨.component, 3⟩).any (fun target =>
      target.bindings.any (fun edge =>
        ¬Confined pool.shared.registry target edge.subjectId))) (by decide)
  obtain ⟨target, hfind, hedges⟩ := (Option.any_eq_true _ _).mp htest
  obtain ⟨edge, hmem, hbreaks⟩ := List.any_eq_true.mp hedges
  exact of_decide_eq_true hbreaks (hclaim pool hreach _ target hfind edge hmem)

end BbtFramework.App
