import BbtFramework.App.Generations

/-!
# Accounts of borrows

A component counts the borrows on it twice, in all and for each of its edges.  Both
counts are those of the live leases, as long as no edge goes while it is borrowed.
-/

namespace BbtFramework.App

open BbtFramework.Library

namespace Registry

variable {subject : ObjectId} {generation : Nat} {change : Binding → Binding}
variable {edges : List Binding}

theorem mem_modifyEdge (hnodup : (edges.map Binding.generation).Nodup) {later : Binding}
    (hmem : later ∈ modifyEdge subject generation change edges) :
    (later ∈ edges ∧ ¬(later.subjectId = subject ∧ later.generation = generation)) ∨
      ∃ edge ∈ edges, edge.subjectId = subject ∧ edge.generation = generation ∧
        later = change edge := by
  induction edges with
  | nil => cases hmem
  | cons head rest ih =>
      obtain ⟨hhead, hrest⟩ := List.nodup_cons.mp hnodup
      rw [modifyEdge] at hmem
      split at hmem
      case isTrue heq =>
        rcases List.mem_cons.mp hmem with rfl | hmem
        · exact Or.inr ⟨head, List.mem_cons_self, heq.1, heq.2, rfl⟩
        · refine Or.inl ⟨List.mem_cons_of_mem _ hmem, ?_⟩
          intro hsame
          exact hhead (List.mem_map.mpr ⟨later, hmem, hsame.2.trans heq.2.symm⟩)
      case isFalse hne =>
        rcases List.mem_cons.mp hmem with rfl | hmem
        · exact Or.inl ⟨List.mem_cons_self, hne⟩
        · obtain ⟨hold, hother⟩ | ⟨edge, hedge, hchanged⟩ := ih hrest hmem
          · exact Or.inl ⟨List.mem_cons_of_mem _ hold, hother⟩
          · exact Or.inr ⟨edge, List.mem_cons_of_mem _ hedge, hchanged⟩

/-- An edge that has been there is there afterwards. -/
theorem exists_modifyEdge (hchange : ∀ edge, (change edge).Ages edge) {edge : Binding}
    (hmem : edge ∈ edges) :
    ∃ later ∈ modifyEdge subject generation change edges, later.Ages edge := by
  induction edges with
  | nil => cases hmem
  | cons head rest ih =>
      rw [modifyEdge]
      split
      · rcases List.mem_cons.mp hmem with rfl | hmem
        · exact ⟨_, List.mem_cons_self, hchange edge⟩
        · exact ⟨edge, List.mem_cons_of_mem _ hmem, .refl edge⟩
      · rcases List.mem_cons.mp hmem with rfl | hmem
        · exact ⟨edge, List.mem_cons_self, .refl edge⟩
        · obtain ⟨later, hlater, hages⟩ := ih hmem
          exact ⟨later, List.mem_cons_of_mem _ hlater, hages⟩

theorem sum_modifyEdge (change : Binding → Binding)
    (hnodup : (edges.map Binding.generation).Nodup) {edge : Binding} (hmem : edge ∈ edges)
    (hsubject : edge.subjectId = subject) (hgeneration : edge.generation = generation) :
    ((modifyEdge subject generation change edges).map Binding.borrows).sum + edge.borrows =
      (edges.map Binding.borrows).sum + (change edge).borrows := by
  induction edges with
  | nil => cases hmem
  | cons head rest ih =>
      obtain ⟨hhead, hrest⟩ := List.nodup_cons.mp hnodup
      rw [modifyEdge]
      split
      case isTrue heq =>
        obtain rfl : edge = head := by
          rcases List.mem_cons.mp hmem with rfl | hmem
          · rfl
          · exact absurd (List.mem_map.mpr ⟨edge, hmem, hgeneration.trans heq.2.symm⟩) hhead
        simp only [List.map_cons, List.sum_cons]
        omega
      case isFalse hne =>
        rcases List.mem_cons.mp hmem with rfl | hmem
        · exact absurd ⟨hsubject, hgeneration⟩ hne
        · have hsum := ih hrest hmem
          simp only [List.map_cons, List.sum_cons]
          omega

end Registry

def BindingLease.giveBack (lease : BindingLease) (entry : RegistryEntry) : RegistryEntry :=
  { entry with
    componentBorrows := entry.componentBorrows - 1
    bindings := Registry.modifyEdge lease.subjectId lease.bindingGeneration
      (fun edge => { edge with borrows := edge.borrows - 1 }) entry.bindings }

/-! ## The accounts -/

def AppWorld.leasesOn (world : AppWorld) (id : ObjectId) : Nat :=
  world.leases.countP (fun lease => lease.componentId = id)

def AppWorld.leasesThrough (world : AppWorld) (id : ObjectId) (edge : Binding) : Nat :=
  world.leases.count ⟨id, edge.subjectId, edge.generation⟩

/-- A subject has at most one open edge. -/
def Alone (edges : List Binding) : Prop :=
  ∀ edge ∈ edges, ∀ other ∈ edges, edge.subjectId = other.subjectId →
    edge.retiring = false → other.retiring = false → edge = other

theorem Alone.ages {laters earliers : List Binding} (halone : Alone earliers)
    (hnodup : (laters.map Binding.generation).Nodup)
    (hages : ∀ later ∈ laters, ∃ known ∈ earliers, later.Ages known) : Alone laters := by
  have hbefore : ∀ {later earlier : Binding}, later.Ages earlier →
      later.retiring = false → earlier.retiring = false := by
    intro later earlier hage hlater
    by_contra hearlier
    rw [hage.retiring (eq_true_of_ne_false hearlier)] at hlater
    cases hlater
  intro edge hmem other hother hsubject hopen hopen'
  obtain ⟨known, hknown, hage⟩ := hages edge hmem
  obtain ⟨known', hknown', hage'⟩ := hages other hother
  obtain rfl := halone known hknown known' hknown'
    (hage.subject.symm.trans (hsubject.trans hage'.subject))
    (hbefore hage hopen) (hbefore hage' hopen')
  exact List.inj_on_of_nodup_map hnodup hmem hother
    (hage.generation.trans hage'.generation.symm)

/-- The counts of a component are those of the leases, and a subject has at most one open
edge on it. -/
structure RegistryEntry.Balanced (world : AppWorld) (id : ObjectId)
    (entry : RegistryEntry) : Prop where
  total : entry.componentBorrows = world.leasesOn id
  sum : entry.componentBorrows = (entry.bindings.map Binding.borrows).sum
  through : ∀ edge ∈ entry.bindings, edge.borrows = world.leasesThrough id edge
  edge : ∀ lease ∈ world.leases, lease.componentId = id → ∃ edge ∈ entry.bindings,
    edge.subjectId = lease.subjectId ∧ edge.generation = lease.bindingGeneration
  alone : Alone entry.bindings

structure AppWorld.Accounted (world : AppWorld) : Prop where
  numbered : world.registry.Numbered
  balanced : ∀ id entry, world.registry.findEntryLocked id = some entry →
    entry.Balanced world id
  known : ∀ lease ∈ world.leases, lease.componentId.number < world.registry.nextIdSeq

namespace RegistryEntry.Balanced

variable {world last : AppWorld} {id : ObjectId} {later earlier : RegistryEntry}

theorem borrows_pos (hbalanced : earlier.Balanced world id) {edge : Binding}
    (hmem : edge ∈ earlier.bindings) {lease : BindingLease} (hlease : lease ∈ world.leases)
    (hcomponent : lease.componentId = id) (hsubject : edge.subjectId = lease.subjectId)
    (hgeneration : edge.generation = lease.bindingGeneration) : 0 < edge.borrows := by
  rw [hbalanced.through edge hmem, AppWorld.leasesThrough, hsubject, hgeneration,
    ← hcomponent]
  exact List.count_pos_iff.mpr hlease

/-- Nothing but idle edges goes. -/
theorem keeps (hbalanced : earlier.Balanced world id)
    (hkeeps : RegistryEntry.Keeps (fun borrows => borrows = 0) later earlier)
    (hnodup : (later.bindings.map Binding.generation).Nodup)
    (hleases : last.leases = world.leases) : later.Balanced last id where
  total := by
    rw [hkeeps.borrows, hbalanced.total, AppWorld.leasesOn, AppWorld.leasesOn, hleases]
  sum := by rw [hkeeps.borrows, hbalanced.sum, hkeeps.edges.sum_borrows]
  through := by
    intro edge hmem
    obtain ⟨known, hknown, hkept⟩ := hkeeps.edges.known hmem
    rw [hkept.borrows, hbalanced.through known hknown, AppWorld.leasesThrough,
      AppWorld.leasesThrough, hleases, hkept.subject, hkept.generation]
  edge := by
    intro lease hlease hcomponent
    rw [hleases] at hlease
    obtain ⟨edge, hmem, hsubject, hgeneration⟩ := hbalanced.edge lease hlease hcomponent
    have hpos := hbalanced.borrows_pos hmem hlease hcomponent hsubject hgeneration
    obtain ⟨later, hlater, hkept⟩ := hkeeps.edges.survives hmem (Nat.ne_of_gt hpos)
    exact ⟨later, hlater, hkept.subject.trans hsubject, hkept.generation.trans hgeneration⟩
  alone := hbalanced.alone.ages hnodup (fun _ hmem =>
    have ⟨known, hknown, hkept⟩ := hkeeps.edges.known hmem
    ⟨known, hknown, hkept.toAges⟩)

/-- Only leases on other components have come or gone. -/
theorem other (hbalanced : earlier.Balanced world id)
    (hleases : (last.leases.filter (fun lease => lease.componentId = id)).Perm
      (world.leases.filter (fun lease => lease.componentId = id))) :
    earlier.Balanced last id where
  total := by
    rw [hbalanced.total, AppWorld.leasesOn, AppWorld.leasesOn, List.countP_eq_length_filter,
      List.countP_eq_length_filter, hleases.length_eq]
  sum := hbalanced.sum
  through := by
    intro edge hmem
    have hcount := hleases.count_eq ⟨id, edge.subjectId, edge.generation⟩
    rw [List.count_filter (by simp), List.count_filter (by simp)] at hcount
    rw [hbalanced.through edge hmem, AppWorld.leasesThrough, AppWorld.leasesThrough, hcount]
  edge := by
    intro lease hlease hcomponent
    have hmem : lease ∈ world.leases.filter (fun lease => lease.componentId = id) :=
      hleases.mem_iff.mp (List.mem_filter.mpr ⟨hlease, decide_eq_true hcomponent⟩)
    exact hbalanced.edge lease (List.mem_filter.mp hmem).1 hcomponent
  alone := hbalanced.alone

theorem take (hbalanced : earlier.Balanced world id)
    (hnodup : (earlier.bindings.map Binding.generation).Nodup) {lease : BindingLease}
    {edge : Binding} (hid : lease.componentId = id) (hmem : edge ∈ earlier.bindings)
    (hsubject : edge.subjectId = lease.subjectId)
    (hgeneration : edge.generation = lease.bindingGeneration)
    (hleases : last.leases = lease :: world.leases) :
    (lease.take earlier).Balanced last id := by
  have hages : ∀ edge : Binding, Binding.Ages { edge with borrows := edge.borrows + 1 } edge :=
    fun edge => .withBorrows edge _
  constructor
  · change earlier.componentBorrows + 1 = _
    rw [hbalanced.total, AppWorld.leasesOn, AppWorld.leasesOn, hleases,
      List.countP_cons_of_pos (by simpa using hid)]
  · have hsum := Registry.sum_modifyEdge
      (fun edge => { edge with borrows := edge.borrows + 1 }) hnodup hmem hsubject
      hgeneration
    have hbefore := hbalanced.sum
    change earlier.componentBorrows + 1 = ((Registry.modifyEdge lease.subjectId
      lease.bindingGeneration (fun edge => { edge with borrows := edge.borrows + 1 })
      earlier.bindings).map Binding.borrows).sum
    dsimp only at hsum
    omega
  · intro later hlater
    rw [AppWorld.leasesThrough, hleases]
    obtain ⟨hold, hother⟩ | ⟨known, hknown, hsubject', hgeneration', rfl⟩ :=
      Registry.mem_modifyEdge hnodup hlater
    · rw [hbalanced.through later hold, AppWorld.leasesThrough, List.count_cons_of_ne]
      intro heq
      exact hother ⟨(congrArg BindingLease.subjectId heq).symm,
        (congrArg BindingLease.bindingGeneration heq).symm⟩
    · change known.borrows + 1 = _
      rw [hbalanced.through known hknown, AppWorld.leasesThrough, hsubject', hgeneration',
        ← hid]
      exact List.count_cons_self.symm
  · intro given hgiven hcomponent
    have hedge : ∃ known ∈ earlier.bindings, known.subjectId = given.subjectId ∧
        known.generation = given.bindingGeneration := by
      rw [hleases] at hgiven
      rcases List.mem_cons.mp hgiven with rfl | hgiven
      · exact ⟨edge, hmem, hsubject, hgeneration⟩
      · exact hbalanced.edge given hgiven hcomponent
    obtain ⟨known, hknown, hsubject', hgeneration'⟩ := hedge
    obtain ⟨later, hlater, hage⟩ := Registry.exists_modifyEdge hages hknown
    exact ⟨later, hlater, hage.subject.trans hsubject', hage.generation.trans hgeneration'⟩
  · refine hbalanced.alone.ages ?_ (fun _ hmem => AppWorld.ages_modifyEdge hages hmem)
    rw [BindingLease.take, AppWorld.generations_modifyEdge hages]
    exact hnodup

theorem giveBack (hbalanced : earlier.Balanced world id)
    (hnodup : (earlier.bindings.map Binding.generation).Nodup) {lease : BindingLease}
    (hid : lease.componentId = id) (hheld : lease ∈ world.leases)
    (hleases : last.leases = world.leases.erase lease) :
    (lease.giveBack earlier).Balanced last id := by
  have hages : ∀ edge : Binding, Binding.Ages { edge with borrows := edge.borrows - 1 } edge :=
    fun edge => .withBorrows edge _
  obtain ⟨edge, hmem, hsubject, hgeneration⟩ := hbalanced.edge lease hheld hid
  have hpos := hbalanced.borrows_pos hmem hheld hid hsubject hgeneration
  constructor
  · have hcount := (List.perm_cons_erase hheld).countP_eq
      (fun lease => decide (lease.componentId = id))
    rw [List.countP_cons_of_pos (by simpa using hid)] at hcount
    have hbefore := hbalanced.total
    change earlier.componentBorrows - 1 =
      last.leases.countP (fun lease => decide (lease.componentId = id))
    unfold AppWorld.leasesOn at hbefore
    rw [hleases]
    omega
  · have hsum := Registry.sum_modifyEdge
      (fun edge => { edge with borrows := edge.borrows - 1 }) hnodup hmem hsubject
      hgeneration
    have hbefore := hbalanced.sum
    change earlier.componentBorrows - 1 = ((Registry.modifyEdge lease.subjectId
      lease.bindingGeneration (fun edge => { edge with borrows := edge.borrows - 1 })
      earlier.bindings).map Binding.borrows).sum
    dsimp only at hsum
    omega
  · intro later hlater
    rw [AppWorld.leasesThrough, hleases]
    obtain ⟨hold, hother⟩ | ⟨known, hknown, hsubject', hgeneration', rfl⟩ :=
      Registry.mem_modifyEdge hnodup hlater
    · rw [hbalanced.through later hold, AppWorld.leasesThrough, List.count_erase_of_ne]
      intro heq
      exact hother ⟨congrArg BindingLease.subjectId heq,
        congrArg BindingLease.bindingGeneration heq⟩
    · change known.borrows - 1 = _
      rw [hbalanced.through known hknown, AppWorld.leasesThrough, hsubject', hgeneration',
        ← hid]
      exact List.count_erase_self.symm
  · intro given hgiven hcomponent
    rw [hleases] at hgiven
    obtain ⟨known, hknown, hsubject', hgeneration'⟩ :=
      hbalanced.edge given (List.mem_of_mem_erase hgiven) hcomponent
    obtain ⟨later, hlater, hage⟩ := Registry.exists_modifyEdge hages hknown
    exact ⟨later, hlater, hage.subject.trans hsubject', hage.generation.trans hgeneration'⟩
  · refine hbalanced.alone.ages ?_ (fun _ hmem => AppWorld.ages_modifyEdge hages hmem)
    rw [BindingLease.giveBack, AppWorld.generations_modifyEdge hages]
    exact hnodup

end RegistryEntry.Balanced

namespace AppWorld.Accounted

variable {world last : AppWorld}

theorem keeps (haccounted : world.Accounted)
    (hkeeps : Registry.Relates (RegistryEntry.Keeps (fun borrows => borrows = 0))
      world.registry last.registry)
    (hnumbered : last.registry.Numbered) (hleases : last.leases = world.leases)
    (hids : world.registry.nextIdSeq ≤ last.registry.nextIdSeq) : last.Accounted where
  numbered := hnumbered
  balanced := by
    intro id later hfind
    obtain ⟨earlier, hearlier, hkept⟩ := hkeeps id later hfind
    exact (haccounted.balanced id earlier hearlier).keeps hkept
      (hnumbered.nodup id later hfind) hleases
  known := by
    intro lease hlease
    rw [hleases] at hlease
    exact Nat.lt_of_lt_of_le (haccounted.known lease hlease) hids

/-- Nothing is borrowed of a new object. -/
theorem created [Infra] (haccounted : world.Accounted) {kind : ObjectKind}
    (hcreated : world.Created kind last) : last.Accounted := by
  have hstep : world.AgeStep none last := .created kind hcreated
  have hnumbered : last.registry.Numbered := hstep.numbered haccounted.numbered
  obtain ⟨typeName, name, scope, ownerId, object, rfl⟩ := hcreated
  refine ⟨hnumbered, ?_, fun lease hlease =>
    Nat.lt_succ_of_lt (haccounted.known lease hlease)⟩
  intro id entry hfind
  have hfind : (world.registry.append kind (.created typeName name scope ownerId
    kind.installState object)).findEntryLocked id = some entry := hfind
  rw [Registry.findEntryLocked_append] at hfind
  split at hfind
  case isTrue hid =>
    cases hfind
    have hnone : ∀ lease ∈ world.leases, lease.componentId ≠ id := by
      intro lease hlease heq
      have hlt := haccounted.known lease hlease
      rw [heq, hid] at hlt
      exact Nat.lt_irrefl _ hlt
    refine ⟨?_, rfl, nofun, ?_, nofun⟩
    · refine (List.countP_eq_zero.mpr ?_).symm
      intro lease hlease heq
      exact hnone lease hlease (of_decide_eq_true heq)
    · intro lease hlease heq
      exact absurd heq (hnone lease hlease)
  case isFalse =>
    obtain ⟨htotal, hsum, hthrough, hedge, halone⟩ := haccounted.balanced id entry hfind
    exact ⟨htotal, hsum, hthrough, hedge, halone⟩

/-- A new edge is not borrowed, and it is the only open one of its subject. -/
theorem withEdge (haccounted : world.Accounted) {id subject : ObjectId}
    {component : RegistryEntry}
    (hfind : world.registry.findEntryLocked id = some component)
    (hopen : ∀ other ∈ component.bindings, other.subjectId = subject →
      other.retiring = true) : (world.withEdge id subject).Accounted := by
  refine ⟨AppWorld.numbered_withEdge haccounted.numbered, ?_, haccounted.known⟩
  intro target later hlater
  rw [AppWorld.withEdge, Registry.findEntryLocked_modify] at hlater
  split at hlater
  case isFalse =>
    obtain ⟨htotal, hsum, hthrough, hedge, halone⟩ := haccounted.balanced target later hlater
    exact ⟨htotal, hsum, hthrough, hedge, halone⟩
  case isTrue heq =>
    subst heq
    obtain ⟨earlier, hearlier, rfl⟩ := Option.map_eq_some_iff.mp hlater
    obtain rfl := Option.some.inj (hfind.symm.trans hearlier)
    obtain ⟨htotal, hsum, hthrough, hedge, halone⟩ :=
      haccounted.balanced target component hfind
    constructor
    · exact htotal
    · change component.componentBorrows =
        ((component.bindings ++ [world.newEdge subject]).map Binding.borrows).sum
      rw [List.map_append, List.sum_append, ← hsum]
      rfl
    · intro edge hmem
      rcases List.mem_append.mp hmem with hmem | hmem
      · exact hthrough edge hmem
      · obtain rfl := List.mem_singleton.mp hmem
        refine (List.count_eq_zero_of_not_mem ?_).symm
        intro hlease
        obtain ⟨known, hknown, -, hgeneration⟩ := hedge _ hlease rfl
        have hlt := haccounted.numbered.edges_lt target component hfind known hknown
        rw [hgeneration] at hlt
        exact Nat.lt_irrefl _ hlt
    · intro lease hlease hcomponent
      obtain ⟨edge, hmem, hsame⟩ := hedge lease hlease hcomponent
      exact ⟨edge, List.mem_append_left _ hmem, hsame⟩
    · intro edge hmem other hother hsubject hedge' hother'
      rcases List.mem_append.mp hmem with hmem | hmem
      · rcases List.mem_append.mp hother with hother | hother
        · exact halone edge hmem other hother hsubject hedge' hother'
        · obtain rfl := List.mem_singleton.mp hother
          rw [hopen edge hmem hsubject] at hedge'
          cases hedge'
      · obtain rfl := List.mem_singleton.mp hmem
        rcases List.mem_append.mp hother with hother | hother
        · rw [hopen other hother hsubject.symm] at hother'
          cases hother'
        · exact (List.mem_singleton.mp hother).symm

theorem borrow (haccounted : world.Accounted) {lease : BindingLease}
    {entry : RegistryEntry} {edge : Binding}
    (hfind : world.registry.findEntryLocked lease.componentId = some entry)
    (hmem : edge ∈ entry.bindings) (hsubject : edge.subjectId = lease.subjectId)
    (hgeneration : edge.generation = lease.bindingGeneration)
    (hregistry : last.registry = world.registry.modify lease.componentId lease.take)
    (hleases : last.leases = lease :: world.leases) : last.Accounted := by
  constructor
  · rw [hregistry]
    exact haccounted.numbered.ages (Nat.le_refl _) (Registry.relates_modify .refl
      (fun entry _ => AppWorld.ages_borrows (fun edge => .withBorrows edge _) entry))
  · intro target later hlater
    rw [hregistry, Registry.findEntryLocked_modify] at hlater
    split at hlater
    case isTrue heq =>
      obtain ⟨earlier, hearlier, rfl⟩ := Option.map_eq_some_iff.mp hlater
      obtain rfl := Option.some.inj (hfind.symm.trans hearlier)
      rw [heq]
      exact (haccounted.balanced _ entry hfind).take (haccounted.numbered.nodup _ entry hfind)
        rfl hmem hsubject hgeneration hleases
    case isFalse hne =>
      refine (haccounted.balanced target later hlater).other ?_
      rw [hleases, List.filter_cons_of_neg (by simpa using fun heq => hne heq.symm)]
  · intro other hother
    have hids : last.registry.nextIdSeq = world.registry.nextIdSeq := by rw [hregistry]; rfl
    rw [hids]
    rw [hleases] at hother
    rcases List.mem_cons.mp hother with rfl | hother
    · exact Registry.number_lt_of_find hfind
    · exact haccounted.known other hother

theorem release (haccounted : world.Accounted) {lease : BindingLease}
    (hheld : lease ∈ world.leases)
    (hregistry : last.registry = world.registry.modify lease.componentId lease.giveBack)
    (hleases : last.leases = world.leases.erase lease) : last.Accounted := by
  constructor
  · rw [hregistry]
    exact haccounted.numbered.ages (Nat.le_refl _) (Registry.relates_modify .refl
      (fun entry _ => AppWorld.ages_borrows (fun edge => .withBorrows edge _) entry))
  · intro target later hlater
    rw [hregistry, Registry.findEntryLocked_modify] at hlater
    split at hlater
    case isTrue heq =>
      obtain ⟨earlier, hearlier, rfl⟩ := Option.map_eq_some_iff.mp hlater
      rw [heq]
      exact (haccounted.balanced _ earlier hearlier).giveBack
        (haccounted.numbered.nodup _ earlier hearlier) rfl hheld hleases
    case isFalse hne =>
      refine (haccounted.balanced target later hlater).other ?_
      have hperm := (List.perm_cons_erase hheld).filter
        (fun lease => lease.componentId = target)
      rw [List.filter_cons_of_neg (by simpa using fun heq => hne heq.symm)] at hperm
      rw [hleases]
      exact hperm.symm
  · intro other hother
    rw [hregistry]
    rw [hleases] at hother
    exact haccounted.known other (List.mem_of_mem_erase hother)

end AppWorld.Accounted

def Event.quiet : Event → Bool
  | .borrow _ _ _ | .release _ => false
  | _ => true

namespace AppWorld

variable [Infra] {world last : AppWorld}

omit [Infra] in
theorem accounted_start (hstart : AppWorld.Start world) : world.Accounted := by
  have hnumbered := numbered_start hstart
  obtain ⟨options, maxObjects, maxBindings, -, rfl⟩ := hstart
  refine ⟨hnumbered, ?_, fun _ hlease => (List.not_mem_nil hlease).elim⟩
  intro id entry hfind
  have hfind : (freshRegistry maxObjects maxBindings).findEntryLocked id = some entry := hfind
  rw [freshRegistry, Registry.findEntryLocked_append] at hfind
  split at hfind
  · cases hfind
    refine ⟨rfl, rfl, ?_, ?_, ?_⟩
    · exact fun _ hmem => (List.not_mem_nil hmem).elim
    · exact fun _ hmem => (List.not_mem_nil hmem).elim
    · exact fun _ hmem => (List.not_mem_nil hmem).elim
  · cases hfind

/-- The accounts are right after a command, provided the edges it erases are idle. -/
theorem apply_accounted {command : Command} {choice : Choice} {answer : command.Answer}
    (hdrops : command.Drops (fun borrows => borrows = 0) world)
    (happly : world.apply command choice = some (answer, last))
    (haccounted : world.Accounted) : last.Accounted := by
  have hframed := apply_framed happly
  have hnumbered := (apply_ageStep happly).numbered haccounted.numbered
  by_cases hgrows : command.grows = false
  · exact haccounted.keeps (apply_keeps hgrows hdrops happly) hnumbered hframed.leases
      hframed.ids
  · obtain rfl | ⟨kind, hcreated⟩ | ⟨subject, key, id, component, edge, change, -, hchecks,
      rfl⟩ := apply_grows (eq_true_of_ne_false hgrows) happly
    · exact haccounted
    · exact haccounted.created hcreated
    · obtain ⟨-, hfind, -, -, -, hopen, -⟩ := bindChecks_ok hchecks
      refine (haccounted.withEdge hfind hopen).keeps (keeps_changeSubject _ _ _) hnumbered
        hframed.leases ?_
      exact Nat.le_of_eq (nextIdSeq_changeSubject _ _ _).symm

theorem event_quiet {event : Event} (hquiet : event.quiet = true)
    (hevent : world.event event = some last) : last.leases = world.leases ∧
      Registry.Agree Registry.identity world.registry last.registry := by
  cases event with
  | borrow object generation allow => cases hquiet
  | release lease => cases hquiet
  | noteHook task =>
      simp only [AppWorld.event] at hevent
      split at hevent
      · cases hevent
        exact ⟨rfl, Registry.agree_modify (fun _ _ => rfl)⟩
      · cases hevent
  | notifyHook task =>
      simp only [AppWorld.event] at hevent
      split at hevent
      · cases hevent
        split
        · exact ⟨rfl, .refl _⟩
        · exact ⟨rfl, .refl _⟩
      · cases hevent
  | _ =>
      simp only [AppWorld.event] at hevent
      split at hevent
      · cases hevent
        exact ⟨rfl, .refl _⟩
      · cases hevent

theorem event_accounted {event : Event} (hevent : world.event event = some last)
    (haccounted : world.Accounted) : last.Accounted := by
  by_cases hquiet : event.quiet = true
  · obtain ⟨hleases, hagree⟩ := event_quiet hquiet hevent
    have hstep : world.AgeStep none last := event_ageStep hevent
    exact haccounted.keeps hagree.keeps (hstep.numbered haccounted.numbered) hleases
      (Nat.le_of_eq (event_undisturbed hevent).ids.symm)
  · cases event with
    | borrow object generation allow =>
        simp only [AppWorld.event] at hevent
        split at hevent
        · cases hevent
          exact haccounted
        case h_2 lease registry hborrow =>
          cases hevent
          obtain ⟨entry, edge, hfind, -, -, hmem, hgeneration, -, -, rfl, rfl⟩ :=
            Registry.borrowImpl_ok hborrow
          exact haccounted.borrow hfind hmem rfl hgeneration rfl rfl
    | release lease =>
        simp only [AppWorld.event] at hevent
        split at hevent
        case isTrue hheld =>
          cases hevent
          exact haccounted.release hheld rfl rfl
        case isFalse => cases hevent
    | _ => exact absurd rfl hquiet

end AppWorld

end BbtFramework.App
