import BbtFramework.App.System

/-!
# How entries age

A step that registers nothing and binds nothing leaves every object the entry it had.
An edge keeps its subject and generation, and one that is sealed stays sealed; an edge
goes only when one of the erasing critical sections takes it.
-/

namespace BbtFramework.App

open BbtFramework.Library

/-- What becomes of an edge. -/
structure Binding.Ages (later earlier : Binding) : Prop where
  subject : later.subjectId = earlier.subjectId
  generation : later.generation = earlier.generation
  retiring : earlier.retiring = true → later.retiring = true
  active : later.active = true → earlier.active = true

/-- The same without a borrow or a release. -/
structure Binding.Kept (later earlier : Binding) : Prop extends
    Binding.Ages later earlier where
  borrows : later.borrows = earlier.borrows

theorem Binding.Ages.refl (edge : Binding) : Binding.Ages edge edge :=
  ⟨rfl, rfl, id, id⟩

/-- A count of borrows does not make another edge. -/
theorem Binding.Ages.withBorrows (edge : Binding) (borrows : Nat) :
    Binding.Ages { edge with borrows := borrows } edge :=
  ⟨rfl, rfl, id, id⟩

theorem Binding.Kept.refl (edge : Binding) : Binding.Kept edge edge :=
  ⟨.refl edge, rfl⟩

theorem Binding.Ages.trans {first second third : Binding} (hfirst : Ages second first)
    (hsecond : Ages third second) : Ages third first :=
  ⟨hsecond.subject.trans hfirst.subject, hsecond.generation.trans hfirst.generation,
    fun hretiring => hsecond.retiring (hfirst.retiring hretiring),
    fun hactive => hfirst.active (hsecond.active hactive)⟩

theorem Binding.Kept.trans {first second third : Binding} (hfirst : Kept second first)
    (hsecond : Kept third second) : Kept third first :=
  ⟨hfirst.toAges.trans hsecond.toAges, hsecond.borrows.trans hfirst.borrows⟩

/-- What remains of a list of edges, in its order; the borrows of an edge that has gone
satisfy `dropped`. -/
inductive Remains (dropped : Nat → Prop) : List Binding → List Binding → Prop where
  | nil : Remains dropped [] []
  | keep {later earlier : Binding} {laters earliers : List Binding}
      (hkept : later.Kept earlier) (hrest : Remains dropped laters earliers) :
      Remains dropped (later :: laters) (earlier :: earliers)
  | drop {earlier : Binding} {laters earliers : List Binding}
      (hdropped : dropped earlier.borrows) (hrest : Remains dropped laters earliers) :
      Remains dropped laters (earlier :: earliers)

namespace Remains

variable {dropped : Nat → Prop} {first second third laters earliers : List Binding}

theorem refl (edges : List Binding) : Remains dropped edges edges := by
  induction edges with
  | nil => exact .nil
  | cons edge rest ih => exact .keep (.refl edge) ih

theorem trans (hfirst : Remains dropped second first)
    (hsecond : Remains dropped third second) : Remains dropped third first := by
  induction hfirst generalizing third with
  | nil => exact hsecond
  | drop hdropped _ ih => exact .drop hdropped (ih hsecond)
  | keep hkept _ ih =>
      cases hsecond with
      | keep hlater hrest => exact .keep (hkept.trans hlater) (ih hrest)
      | drop hdropped hrest => exact .drop (hkept.borrows ▸ hdropped) (ih hrest)

/-- An edge that is there was there before. -/
theorem known (hremains : Remains dropped laters earliers) {later : Binding}
    (hmem : later ∈ laters) : ∃ earlier ∈ earliers, later.Kept earlier := by
  induction hremains with
  | nil => cases hmem
  | drop _ _ ih =>
      obtain ⟨earlier, hearlier, hkept⟩ := ih hmem
      exact ⟨earlier, List.mem_cons_of_mem _ hearlier, hkept⟩
  | keep hkept _ ih =>
      rcases List.mem_cons.mp hmem with rfl | hmem
      · exact ⟨_, List.mem_cons_self, hkept⟩
      · obtain ⟨earlier, hearlier, hkept⟩ := ih hmem
        exact ⟨earlier, List.mem_cons_of_mem _ hearlier, hkept⟩

/-- An edge that may not be dropped is still there. -/
theorem survives (hremains : Remains dropped laters earliers) {earlier : Binding}
    (hmem : earlier ∈ earliers) (hneeded : ¬dropped earlier.borrows) :
    ∃ later ∈ laters, later.Kept earlier := by
  induction hremains with
  | nil => cases hmem
  | drop hdropped _ ih =>
      rcases List.mem_cons.mp hmem with rfl | hmem
      · exact absurd hdropped hneeded
      · exact ih hmem
  | keep hkept _ ih =>
      rcases List.mem_cons.mp hmem with rfl | hmem
      · exact ⟨_, List.mem_cons_self, hkept⟩
      · obtain ⟨later, hlater, hkept⟩ := ih hmem
        exact ⟨later, List.mem_cons_of_mem _ hlater, hkept⟩

theorem generations (hremains : Remains dropped laters earliers) :
    (laters.map Binding.generation).Sublist (earliers.map Binding.generation) := by
  induction hremains with
  | nil => exact .slnil
  | drop _ _ ih => exact ih.cons _
  | keep hkept _ ih =>
      rw [List.map_cons, List.map_cons, hkept.generation]
      exact ih.cons_cons _

/-- Dropping idle edges leaves the number of borrows. -/
theorem sum_borrows (hremains : Remains (fun borrows => borrows = 0) laters earliers) :
    (laters.map Binding.borrows).sum = (earliers.map Binding.borrows).sum := by
  induction hremains with
  | nil => rfl
  | drop hidle _ ih => rw [List.map_cons, List.sum_cons, hidle, Nat.zero_add, ih]
  | keep hkept _ ih =>
      rw [List.map_cons, List.map_cons, List.sum_cons, List.sum_cons, hkept.borrows, ih]

theorem sealEdge (dropped : Nat → Prop) (subject : ObjectId) (edges : List Binding) :
    Remains dropped (Registry.sealEdge subject edges) edges := by
  induction edges with
  | nil => exact .nil
  | cons edge rest ih =>
      rw [Registry.sealEdge]
      split
      · exact .keep ⟨⟨rfl, rfl, fun _ => rfl, nofun⟩, rfl⟩ (.refl rest)
      · exact .keep (.refl edge) ih

theorem filter {test : Binding → Bool} {edges : List Binding}
    (herased : ∀ edge ∈ edges, test edge = false → dropped edge.borrows) :
    Remains dropped (edges.filter test) edges := by
  induction edges with
  | nil => exact .nil
  | cons edge rest ih =>
      have hrest := ih (fun other hmem => herased other (List.mem_cons_of_mem _ hmem))
      rw [List.filter_cons]
      split
      · exact .keep (.refl edge) hrest
      case isFalse htest =>
        exact .drop (herased edge List.mem_cons_self (eq_false_of_ne_true htest)) hrest

theorem eraseP {test : Binding → Bool} {edges : List Binding}
    (herased : ∀ edge ∈ edges, test edge = true → dropped edge.borrows) :
    Remains dropped (edges.eraseP test) edges := by
  induction edges with
  | nil => exact .nil
  | cons edge rest ih =>
      rw [List.eraseP_cons]
      cases htest : test edge with
      | true => exact .drop (herased edge List.mem_cons_self htest) (.refl rest)
      | false =>
          exact .keep (.refl edge)
            (ih (fun other hmem => herased other (List.mem_cons_of_mem _ hmem)))

end Remains

/-- What becomes of an entry. -/
structure RegistryEntry.Ages (later earlier : RegistryEntry) : Prop where
  generation : later.generation = earlier.generation
  typeName : later.typeName = earlier.typeName
  name : later.name = earlier.name
  scope : later.scope = earlier.scope
  owner : later.ownerId = earlier.ownerId
  edges : ∀ edge ∈ later.bindings, ∃ known ∈ earlier.bindings, edge.Ages known
  generations : (later.bindings.map Binding.generation).Sublist
    (earlier.bindings.map Binding.generation)

/-- The same in a critical section of an operation, in which nothing is borrowed. -/
structure RegistryEntry.Keeps (dropped : Nat → Prop) (later earlier : RegistryEntry) :
    Prop where
  generation : later.generation = earlier.generation
  typeName : later.typeName = earlier.typeName
  name : later.name = earlier.name
  scope : later.scope = earlier.scope
  owner : later.ownerId = earlier.ownerId
  borrows : later.componentBorrows = earlier.componentBorrows
  edges : Remains dropped later.bindings earlier.bindings

namespace RegistryEntry

variable {dropped : Nat → Prop} {first second third : RegistryEntry}

theorem Keeps.ages (hkeeps : Keeps dropped second first) : Ages second first where
  generation := hkeeps.generation
  typeName := hkeeps.typeName
  name := hkeeps.name
  scope := hkeeps.scope
  owner := hkeeps.owner
  edges := fun _ hmem =>
    have ⟨known, hknown, hkept⟩ := hkeeps.edges.known hmem
    ⟨known, hknown, hkept.toAges⟩
  generations := hkeeps.edges.generations

theorem Keeps.refl (entry : RegistryEntry) : Keeps dropped entry entry :=
  ⟨rfl, rfl, rfl, rfl, rfl, rfl, .refl _⟩

theorem Keeps.trans (hfirst : Keeps dropped second first)
    (hsecond : Keeps dropped third second) : Keeps dropped third first :=
  ⟨hsecond.generation.trans hfirst.generation, hsecond.typeName.trans hfirst.typeName,
    hsecond.name.trans hfirst.name, hsecond.scope.trans hfirst.scope,
    hsecond.owner.trans hfirst.owner, hsecond.borrows.trans hfirst.borrows,
    hfirst.edges.trans hsecond.edges⟩

/-- A change of the edges alone. -/
theorem Keeps.withBindings {entry : RegistryEntry} {bindings : List Binding}
    (hedges : Remains dropped bindings entry.bindings) :
    Keeps dropped { entry with bindings := bindings } entry :=
  ⟨rfl, rfl, rfl, rfl, rfl, rfl, hedges⟩

theorem Ages.refl (entry : RegistryEntry) : Ages entry entry :=
  have hkeeps : Keeps (fun _ => True) entry entry := .refl entry
  hkeeps.ages

end RegistryEntry

namespace Registry

/-- Every entry that is there afterwards was there before, and `relation` tells what
has become of it. -/
def Relates (relation : RegistryEntry → RegistryEntry → Prop) (before after : Registry) :
    Prop :=
  ∀ id later, after.findEntryLocked id = some later →
    ∃ earlier, before.findEntryLocked id = some earlier ∧ relation later earlier

variable {relation : RegistryEntry → RegistryEntry → Prop}
variable {before middle after : Registry}

theorem Relates.refl (hrefl : ∀ entry, relation entry entry) (registry : Registry) :
    Relates relation registry registry :=
  fun _ later hfind => ⟨later, hfind, hrefl later⟩

theorem Relates.trans
    (htrans : ∀ {first second third}, relation second first → relation third second →
      relation third first)
    (hfirst : Relates relation before middle) (hsecond : Relates relation middle after) :
    Relates relation before after := by
  intro id later hfind
  obtain ⟨between, hbetween, hlater⟩ := hsecond id later hfind
  obtain ⟨earlier, hearlier, hmiddle⟩ := hfirst id between hbetween
  exact ⟨earlier, hearlier, htrans hmiddle hlater⟩

theorem Relates.mono {weaker : RegistryEntry → RegistryEntry → Prop}
    (himp : ∀ later earlier, relation later earlier → weaker later earlier)
    (hrelates : Relates relation before after) : Relates weaker before after := by
  intro id later hfind
  obtain ⟨earlier, hearlier, hrelation⟩ := hrelates id later hfind
  exact ⟨earlier, hearlier, himp later earlier hrelation⟩

theorem relates_modifyAll {change : ObjectId → RegistryEntry → RegistryEntry}
    (hchange : ∀ id entry, before.findEntryLocked id = some entry →
      relation (change id entry) entry) :
    Relates relation before (before.modifyAll change) := by
  intro id later hfind
  rw [findEntryLocked_modifyAll] at hfind
  obtain ⟨earlier, hearlier, rfl⟩ := Option.map_eq_some_iff.mp hfind
  exact ⟨earlier, hearlier, hchange id earlier hearlier⟩

theorem relates_modify (hrefl : ∀ entry, relation entry entry) {id : ObjectId}
    {change : RegistryEntry → RegistryEntry}
    (hchange : ∀ entry, before.findEntryLocked id = some entry →
      relation (change entry) entry) :
    Relates relation before (before.modify id change) := by
  apply relates_modifyAll
  intro other entry hfind
  split
  case isTrue heq => exact hchange entry (heq ▸ hfind)
  case isFalse => exact hrefl entry

theorem relates_remove (hrefl : ∀ entry, relation entry entry) (id : ObjectId) :
    Relates relation before (before.remove id) := by
  intro other later hfind
  rw [findEntryLocked_remove] at hfind
  split at hfind
  · cases hfind
  · exact ⟨later, hfind, hrefl later⟩

/-- What an entry looks like to `Keeps`. -/
def identity (entry : RegistryEntry) :
    Nat × String × String × ComponentScope × Option ObjectId × Nat × List Binding :=
  (entry.generation, entry.typeName, entry.name, entry.scope, entry.ownerId,
    entry.componentBorrows, entry.bindings)

theorem Agree.keeps {dropped : Nat → Prop} (hagree : Agree identity before after) :
    Relates (RegistryEntry.Keeps dropped) before after := by
  intro id later hfind
  obtain ⟨earlier, hearlier, heq⟩ := hagree.find_some hfind
  simp only [identity, Prod.mk.injEq] at heq
  obtain ⟨hgeneration, htype, hname, hscope, howner, hborrows, hedges⟩ := heq
  exact ⟨earlier, hearlier, hgeneration.symm, htype.symm, hname.symm, hscope.symm,
    howner.symm, hborrows.symm, hedges ▸ .refl _⟩

end Registry

/-! ## Commands -/

def Command.grows : Command → Bool
  | .createComponent _ | .createService _ _ | .createActorType _
  | .bindComponent _ _ => true
  | _ => false

def Command.Drops (dropped : Nat → Prop) (world : AppWorld) : Command → Prop
  | .eraseSubjectEdges subject =>
      ∀ id entry, id.kind = .component → world.registry.findEntryLocked id = some entry →
        ∀ edge ∈ entry.bindings, edge.subjectId = subject → edge.retiring = true →
          dropped edge.borrows
  | .eraseSubjectEdgesOn subject components =>
      ∀ id ∈ components, id.kind = .component →
        ∀ entry, world.registry.findEntryLocked id = some entry → ∀ edge ∈ entry.bindings,
          edge.subjectId = subject → edge.retiring = true → dropped edge.borrows
  | .finishUnbind component subject generation _ _ =>
      ∀ entry, world.registry.findEntryLocked component = some entry →
        ∀ edge ∈ entry.bindings, edge.subjectId = subject →
          edge.generation = generation → dropped edge.borrows
  | _ => True

namespace AppWorld

variable {world last : AppWorld} {dropped : Nat → Prop}

theorem keeps_changeSubject (world : AppWorld) (subject : ObjectId)
    (change : ObjectBase → ObjectBase) :
    Registry.Relates (RegistryEntry.Keeps dropped) world.registry
      (world.changeSubject subject change).registry := by
  obtain heq | ⟨heq, -⟩ | ⟨heq, -⟩ := world.changeSubject_cases subject change
  · rw [heq]
    exact .refl .refl _
  · rw [heq]
    exact .refl .refl _
  · rw [heq]
    exact Registry.relates_modify .refl
      (fun entry _ => ⟨rfl, rfl, rfl, rfl, rfl, rfl, .refl entry.bindings⟩)

theorem ages_changeSubject (world : AppWorld) (subject : ObjectId)
    (change : ObjectBase → ObjectBase) :
    Registry.Relates RegistryEntry.Ages world.registry
      (world.changeSubject subject change).registry :=
  have hkeeps : Registry.Relates (RegistryEntry.Keeps (fun _ => True)) world.registry
      (world.changeSubject subject change).registry :=
    keeps_changeSubject world subject change
  hkeeps.mono (fun _ _ hkept => hkept.ages)

theorem nextIdSeq_changeSubject (world : AppWorld) (subject : ObjectId)
    (change : ObjectBase → ObjectBase) :
    (world.changeSubject subject change).registry.nextIdSeq = world.registry.nextIdSeq := by
  obtain heq | ⟨heq, -⟩ | ⟨heq, -⟩ := world.changeSubject_cases subject change
  · rw [heq]
  · rw [heq]
  · rw [heq]
    rfl

theorem nextGeneration_changeSubject (world : AppWorld) (subject : ObjectId)
    (change : ObjectBase → ObjectBase) :
    (world.changeSubject subject change).registry.nextGeneration =
      world.registry.nextGeneration := by
  obtain heq | ⟨heq, -⟩ | ⟨heq, -⟩ := world.changeSubject_cases subject change
  · rw [heq]
  · rw [heq]
  · rw [heq]
    rfl

theorem keeps_modifyComponents
    {change : ObjectId → RegistryEntry → RegistryEntry}
    (hchange : ∀ id entry, id.kind = .component →
      world.registry.findEntryLocked id = some entry →
      RegistryEntry.Keeps dropped (change id entry) entry) :
    Registry.Relates (RegistryEntry.Keeps dropped) world.registry
      (world.modifyComponents change).registry := by
  apply Registry.relates_modifyAll
  intro id entry hfind
  split
  case isTrue hkind => exact hchange id entry hkind hfind
  case isFalse => exact .refl entry

theorem keeps_eraseSubject {subject : ObjectId} {entry : RegistryEntry}
    (hdropped : ∀ edge ∈ entry.bindings, edge.subjectId = subject →
      edge.retiring = true → dropped edge.borrows) :
    RegistryEntry.Keeps dropped (Registry.eraseSubjectBindingsLocked entry subject)
      entry := by
  apply RegistryEntry.Keeps.withBindings
  apply Remains.filter
  intro edge hmem htest
  simp only [decide_eq_false_iff_not, not_not] at htest
  exact hdropped edge hmem htest.1 htest.2

variable [Infra]

/-- A command that makes no entry and no edge leaves every entry what it was, but for
the edges it erases and seals. -/
theorem apply_keeps {command : Command} {choice : Choice} {answer : command.Answer}
    (hgrows : command.grows = false) (hdrops : command.Drops dropped world)
    (happly : world.apply command choice = some (answer, last)) :
    Registry.Relates (RegistryEntry.Keeps dropped) world.registry last.registry := by
  have hagree : command.Keeps Registry.identity →
      Registry.Relates (RegistryEntry.Keeps dropped) world.registry last.registry :=
    fun hkeeps => ((apply_framed happly).agree hkeeps).keeps
  cases command with
  | createComponent key => cases hgrows
  | createService name allowed => cases hgrows
  | createActorType type => cases hgrows
  | bindComponent subject key => cases hgrows
  | finishDestroy id =>
      cases happly
      exact Registry.relates_remove .refl id
  | beginStopService id =>
      replace happly := Option.some.inj happly
      obtain heq | ⟨entry, hfind, -, heq⟩ := world.beginStopService_cases id
      · cases heq.symm.trans happly
        exact .refl .refl _
      · cases heq.symm.trans happly
        have hbegun : Registry.Relates (RegistryEntry.Keeps dropped) world.registry
            (world.store id { entry with opInProgress := true, destroyPhase := "stop"
                                         state := .stopping }).registry := by
          apply Registry.relates_modify .refl
          intro old hold
          obtain rfl := Option.some.inj (hfind.symm.trans hold)
          exact ⟨rfl, rfl, rfl, rfl, rfl, rfl, .refl _⟩
        refine hbegun.trans .trans (keeps_modifyComponents ?_)
        exact fun _ entry _ _ => .withBindings (.sealEdge _ id entry.bindings)
  | sealSubjectEdges subject =>
      cases happly
      apply Registry.relates_modifyAll
      intro id entry _
      split
      · exact .withBindings (.sealEdge _ subject entry.bindings)
      · split
        · exact ⟨rfl, rfl, rfl, rfl, rfl, rfl, .refl _⟩
        · exact .refl entry
  | eraseSubjectEdges subject =>
      cases happly
      apply keeps_modifyComponents
      intro id entry hkind hfind
      exact keeps_eraseSubject (hdrops id entry hkind hfind)
  | eraseSubjectEdgesOn subject components =>
      cases happly
      apply keeps_modifyComponents
      intro id entry hkind hfind
      split
      case isTrue hmem => exact keeps_eraseSubject (hdrops id hmem hkind entry hfind)
      case isFalse => exact .refl entry
  | beginUnbind subject key =>
      replace happly := Option.some.inj happly
      obtain ⟨error, heq⟩ | ⟨id, component, -, hfind, hcases⟩ :=
        world.beginUnbind_cases subject key
      · cases heq.symm.trans happly
        exact .refl .refl _
      · obtain ⟨edge, -, heq⟩ | ⟨generation, -, heq⟩ := hcases
        · cases heq.symm.trans happly
          apply Registry.relates_modify .refl
          intro old hold
          obtain rfl := Option.some.inj (hfind.symm.trans hold)
          exact .withBindings (.sealEdge _ subject component.bindings)
        · cases heq.symm.trans happly
          exact .refl .refl _
  | finishUnbind component subject generation type name =>
      cases happly
      have herased : Registry.Relates (RegistryEntry.Keeps dropped) world.registry
          (world.registry.modify component (fun entry =>
            Registry.eraseBindingLocked entry subject generation)) := by
        apply Registry.relates_modify .refl
        intro entry hfind
        apply RegistryEntry.Keeps.withBindings
        apply Remains.eraseP
        intro edge hmem htest
        simp only [decide_eq_true_eq] at htest
        exact hdrops entry hfind edge hmem htest.1 htest.2.1
      exact herased.trans .trans (keeps_changeSubject { world with
        registry := world.registry.modify component (fun entry =>
          Registry.eraseBindingLocked entry subject generation) } subject
        (fun base => base.unbindComponentEntry type name))
  | _ => exact hagree (by simp [Command.Keeps, Registry.identity])

omit [Infra] in
theorem drops_any (command : Command) (world : AppWorld) :
    command.Drops (fun _ => True) world := by
  cases command <;> simp [Command.Drops]

theorem apply_ages {command : Command} {choice : Choice} {answer : command.Answer}
    (hgrows : command.grows = false)
    (happly : world.apply command choice = some (answer, last)) :
    Registry.Relates RegistryEntry.Ages world.registry last.registry :=
  (apply_keeps hgrows (drops_any command world) happly).mono
    (fun _ _ hkeeps => hkeeps.ages)

omit [Infra] in
theorem ages_modifyEdge {subject : ObjectId} {generation : Nat}
    {change : Binding → Binding} (hchange : ∀ edge, (change edge).Ages edge)
    {edges : List Binding} {later : Binding}
    (hmem : later ∈ Registry.modifyEdge subject generation change edges) :
    ∃ known ∈ edges, later.Ages known := by
  induction edges with
  | nil => cases hmem
  | cons head rest ih =>
      rw [Registry.modifyEdge] at hmem
      split at hmem
      · rcases List.mem_cons.mp hmem with rfl | hmem
        · exact ⟨head, List.mem_cons_self, hchange head⟩
        · exact ⟨later, List.mem_cons_of_mem _ hmem, .refl later⟩
      · rcases List.mem_cons.mp hmem with rfl | hmem
        · exact ⟨later, List.mem_cons_self, .refl later⟩
        · obtain ⟨known, hknown, hages⟩ := ih hmem
          exact ⟨known, List.mem_cons_of_mem _ hknown, hages⟩

omit [Infra] in
/-- A change of one edge is not seen through a field it leaves alone. -/
theorem map_modifyEdge {α : Type} {field : Binding → α} {change : Binding → Binding}
    {subject : ObjectId} {generation : Nat}
    (hfield : ∀ edge, field (change edge) = field edge) (edges : List Binding) :
    (Registry.modifyEdge subject generation change edges).map field = edges.map field := by
  induction edges with
  | nil => rfl
  | cons head rest ih =>
      rw [Registry.modifyEdge]
      split
      · rw [List.map_cons, List.map_cons, hfield head]
      · rw [List.map_cons, List.map_cons, ih]

omit [Infra] in
theorem generations_modifyEdge {subject : ObjectId} {generation : Nat}
    {change : Binding → Binding} (hchange : ∀ edge, (change edge).Ages edge)
    (edges : List Binding) :
    (Registry.modifyEdge subject generation change edges).map Binding.generation =
      edges.map Binding.generation :=
  map_modifyEdge (fun edge => (hchange edge).generation) edges

omit [Infra] in
theorem ages_borrows {subject : ObjectId} {generation count : Nat}
    {change : Binding → Binding} (hchange : ∀ edge, (change edge).Ages edge)
    (entry : RegistryEntry) :
    RegistryEntry.Ages { entry with
      componentBorrows := count
      bindings := Registry.modifyEdge subject generation change entry.bindings } entry :=
  ⟨rfl, rfl, rfl, rfl, rfl, fun _ hmem => ages_modifyEdge hchange hmem,
    (generations_modifyEdge hchange entry.bindings) ▸ .refl _⟩

/-- An event leaves every entry what it was, but for the borrows. -/
theorem event_ages {event : Event} (hevent : world.event event = some last) :
    Registry.Relates RegistryEntry.Ages world.registry last.registry := by
  cases event with
  | noteHook task =>
      simp only [AppWorld.event] at hevent
      split at hevent
      · cases hevent
        exact Registry.relates_modify .refl
          (fun entry _ => ⟨rfl, rfl, rfl, rfl, rfl, (RegistryEntry.Ages.refl entry).edges,
            .refl _⟩)
      · cases hevent
  | notifyHook task =>
      simp only [AppWorld.event] at hevent
      split at hevent
      · cases hevent
        dsimp only [setPhase]
        split
        · exact .refl .refl _
        · exact .refl .refl _
      · cases hevent
  | borrow object generation allow =>
      simp only [AppWorld.event] at hevent
      split at hevent
      · cases hevent
        exact .refl .refl _
      case h_2 lease registry hborrow =>
        cases hevent
        obtain ⟨entry, edge, -, -, -, -, -, -, -, -, rfl⟩ := Registry.borrowImpl_ok hborrow
        exact Registry.relates_modify .refl
          (fun entry _ => ages_borrows (fun edge => .withBorrows edge _) entry)
  | release lease =>
      simp only [AppWorld.event] at hevent
      split at hevent
      · cases hevent
        exact Registry.relates_modify .refl
          (fun entry _ => ages_borrows (fun edge => .withBorrows edge _) entry)
      · cases hevent
  | _ =>
      simp only [AppWorld.event] at hevent
      split at hevent
      · cases hevent
        exact .refl .refl _
      · cases hevent

inductive AgeStep (world : AppWorld) (asked : Option Action) (last : AppWorld) :
    Prop where
  | ages (hids : world.registry.nextIdSeq ≤ last.registry.nextIdSeq)
      (hgenerations : world.registry.nextGeneration ≤ last.registry.nextGeneration)
      (hages : Registry.Relates RegistryEntry.Ages world.registry last.registry)
  | created (kind : ObjectKind) (hcreated : world.Created kind last)
  | bound (subject : ObjectHandle) (key : ComponentKey) (id : ObjectId)
      (component : RegistryEntry) (edge : Binding) (change : ObjectBase → ObjectBase)
      (hasked : asked = some (.command (.bindComponent subject key)))
      (hchecks : world.bindChecks subject key = .ok (id, component, edge))
      (hlast : last = (world.withEdge id subject.id).changeSubject subject.id change)

theorem AgeStep.same (world : AppWorld) (asked : Option Action) :
    world.AgeStep asked world :=
  .ages (Nat.le_refl _) (Nat.le_refl _) (.refl .refl _)

/-- A command that makes an entry or an edge makes it, or is refused. -/
theorem apply_grows {command : Command} {choice : Choice} {answer : command.Answer}
    (hgrows : command.grows = true)
    (happly : world.apply command choice = some (answer, last)) :
    last = world ∨ (∃ kind, world.Created kind last) ∨
      ∃ subject key id component edge change, command = .bindComponent subject key ∧
        world.bindChecks subject key = .ok (id, component, edge) ∧
        last = (world.withEdge id subject.id).changeSubject subject.id change := by
  cases command with
  | createComponent key =>
      replace happly := Option.some.inj happly
      obtain ⟨error, heq⟩ | ⟨made, heq, hcreated⟩ := world.createComponent_cases key
      · cases heq.symm.trans happly
        exact Or.inl rfl
      · cases heq.symm.trans happly
        exact Or.inr (Or.inl ⟨_, hcreated⟩)
  | createService name allowed =>
      replace happly := Option.some.inj happly
      obtain ⟨error, heq⟩ | ⟨made, heq, hcreated⟩ := world.createService_cases name allowed
      · cases heq.symm.trans happly
        exact Or.inl rfl
      · cases heq.symm.trans happly
        exact Or.inr (Or.inl ⟨_, hcreated⟩)
  | createActorType type =>
      replace happly := Option.some.inj happly
      obtain ⟨error, heq⟩ | ⟨made, heq, hcreated⟩ := world.createActorType_cases type
      · cases heq.symm.trans happly
        exact Or.inl rfl
      · cases heq.symm.trans happly
        exact Or.inr (Or.inl ⟨_, hcreated⟩)
  | bindComponent subject key =>
      replace happly := Option.some.inj happly
      obtain ⟨error, heq⟩ | ⟨id, component, edge, hchecks, change, heq⟩ :=
        world.bindComponent_cases subject key
      · cases heq.symm.trans happly
        exact Or.inl rfl
      · cases heq.symm.trans happly
        exact Or.inr (Or.inr ⟨_, _, _, _, _, _, rfl, hchecks, rfl⟩)
  | _ => cases hgrows

theorem apply_stays {command : Command} {choice : Choice} {answer : command.Answer}
    {id : ObjectId} {entry : RegistryEntry}
    (happly : world.apply command choice = some (answer, last))
    (hfind : world.registry.findEntryLocked id = some entry) :
    (∃ later, last.registry.findEntryLocked id = some later ∧
      later.generation = entry.generation) ∨ command = .finishDestroy id := by
  have hkeep : command.Keeps RegistryEntry.generation →
      ∃ later, last.registry.findEntryLocked id = some later ∧
        later.generation = entry.generation :=
    fun hkeeps => ((apply_framed happly).agree hkeeps).find_some' hfind
  by_cases hgrows : command.grows = false
  · cases command with
    | finishDestroy other =>
        cases happly
        by_cases heq : id = other
        · exact Or.inr (congrArg Command.finishDestroy heq.symm)
        · refine Or.inl ⟨entry, ?_, rfl⟩
          change (world.registry.remove other).findEntryLocked id = some entry
          rw [Registry.findEntryLocked_remove, if_neg heq]
          exact hfind
    | createComponent key => cases hgrows
    | createService name allowed => cases hgrows
    | createActorType type => cases hgrows
    | _ => exact Or.inl (hkeep (by simp [Command.Keeps]))
  · obtain rfl | ⟨kind, hcreated⟩ | ⟨subject, key, component, target, edge, change, rfl, -, -⟩ :=
      apply_grows (eq_true_of_ne_false hgrows) happly
    · exact Or.inl ⟨entry, hfind, rfl⟩
    · obtain ⟨typeName, name, scope, ownerId, object, rfl⟩ := hcreated
      refine Or.inl ⟨entry, ?_, rfl⟩
      rw [Registry.findEntryLocked_append, if_neg]
      · exact hfind
      · rintro rfl
        rw [Registry.findEntryLocked_next] at hfind
        cases hfind
    · exact Or.inl (hkeep (by simp [Command.Keeps]))

theorem event_stays {event : Event} (hevent : world.event event = some last) {id : ObjectId}
    (hpresent : (world.registry.findEntryLocked id).isSome = true) :
    (last.registry.findEntryLocked id).isSome = true := by
  obtain ⟨entry, hfind⟩ := Option.isSome_iff_exists.mp hpresent
  have hagree : Registry.Agree RegistryEntry.generation world.registry last.registry :=
    (event_undisturbed hevent).agree (fun _ _ _ _ => rfl)
  obtain ⟨later, hlater, -⟩ := hagree.find_some' hfind
  exact Option.isSome_of_eq_some hlater

theorem apply_ageStep {command : Command} {choice : Choice} {answer : command.Answer}
    (happly : world.apply command choice = some (answer, last)) :
    world.AgeStep (some (.command command)) last := by
  by_cases hgrows : command.grows = false
  · exact .ages (apply_framed happly).ids (apply_framed happly).generations
      (apply_ages hgrows happly)
  · obtain rfl | ⟨kind, hcreated⟩ | ⟨subject, key, id, component, edge, change, rfl, hchecks,
      hlast⟩ := apply_grows (eq_true_of_ne_false hgrows) happly
    · exact .same _ _
    · exact .created kind hcreated
    · exact .bound subject key id component edge change rfl hchecks hlast

theorem event_ageStep {event : Event} {asked : Option Action}
    (hevent : world.event event = some last) : world.AgeStep asked last :=
  .ages (Nat.le_of_eq (event_undisturbed hevent).ids.symm)
    (Nat.le_of_eq (event_undisturbed hevent).generations.symm) (event_ages hevent)

theorem next_ageStep {View : Type} {view : View}
    {discipline : Discipline Action Action.Answer View} {pool next : AppPool View}
    {label : AppStep} (hnext : (appSystem view discipline).next pool label = some next) :
    pool.shared.AgeStep (pool.asked label) next.shared := by
  cases label with
  | spawn entry =>
      cases hnext
      exact .same _ _
  | step thread choice =>
      obtain ⟨-, act, rest, answer, last, hthread, hperform, rfl⟩ :=
        System.next_step hnext
      have hasked : pool.asked (.step thread choice : AppStep) = some act :=
        Pool.asked_call hthread
      rw [hasked]
      cases act with
      | query query =>
          obtain ⟨-, rfl⟩ := perform_query hperform
          exact .same _ _
      | command command => exact apply_ageStep (perform_command hperform)
  | env event =>
      obtain ⟨last, hreact, rfl⟩ := Option.map_eq_some_iff.mp hnext
      exact event_ageStep (react_event hreact)

end AppWorld

end BbtFramework.App
