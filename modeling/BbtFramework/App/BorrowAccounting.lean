import BbtFramework.App.Drained

/-!
# Borrow accounting

A teardown and an unbind erase the edges they have sealed and seen drained, so no edge
goes while it is borrowed and the counts of every component are those of its leases.
-/

namespace BbtFramework.App

open BbtFramework.Library

namespace Registry

variable {subject : ObjectId} {edges : List Binding}

theorem retiring_of_mem_sealEdge (halone : Alone edges)
    (hnodup : (edges.map Binding.generation).Nodup) {edge : Binding}
    (hmem : edge ∈ sealEdge subject edges) (hsubject : edge.subjectId = subject) :
    edge.retiring = true := by
  induction edges with
  | nil => cases hmem
  | cons head rest ih =>
      obtain ⟨hhead, hrest⟩ := List.nodup_cons.mp hnodup
      rw [sealEdge] at hmem
      split at hmem
      case isTrue hopen =>
        rcases List.mem_cons.mp hmem with rfl | hmem
        · rfl
        · by_contra hretiring
          have heq := halone head List.mem_cons_self edge (List.mem_cons_of_mem _ hmem)
            (hopen.1.trans hsubject.symm) (by simpa using hopen.2) (by simpa using hretiring)
          exact hhead (List.mem_map.mpr ⟨edge, hmem, congrArg Binding.generation heq.symm⟩)
      case isFalse hsealed =>
        rcases List.mem_cons.mp hmem with rfl | hmem
        · by_contra hretiring
          exact hsealed ⟨hsubject, hretiring⟩
        · exact ih (fun first hfirst second hsecond => halone first
            (List.mem_cons_of_mem _ hfirst) second (List.mem_cons_of_mem _ hsecond))
            hrest hmem

theorem openEdge_eq_some (halone : Alone edges) {edge : Binding} (hmem : edge ∈ edges)
    (hsubject : edge.subjectId = subject) (hopen : edge.retiring = false) :
    openEdge subject edges = some edge := by
  cases hfound : openEdge subject edges with
  | none =>
      have hnone := List.find?_eq_none.mp hfound edge hmem
      simp [hsubject, hopen] at hnone
  | some other =>
      have hother := List.find?_some hfound
      simp only [decide_eq_true_eq, Bool.not_eq_true] at hother
      rw [halone other (List.mem_of_find?_eq_some hfound) edge hmem
        (hother.1.trans hsubject.symm) hother.2 hopen]

theorem Numbered.drained {registry : Registry} {component : ObjectId}
    {entry : RegistryEntry} {edge : Binding} {generation : Nat}
    (hnumbered : registry.Numbered)
    (hdrained : registry.bindingDrained component subject generation = true)
    (hfind : registry.findEntryLocked component = some entry) (hmem : edge ∈ entry.bindings)
    (hsubject : edge.subjectId = subject) (hgeneration : edge.generation = generation) :
    edge.borrows = 0 := by
  unfold bindingDrained at hdrained
  rw [hfind] at hdrained
  dsimp only at hdrained
  split at hdrained
  case h_1 hnone =>
    have hedge := List.find?_eq_none.mp hnone edge hmem
    simp [hsubject, hgeneration] at hedge
  case h_2 other hfound =>
    have hother := List.find?_some hfound
    simp only [decide_eq_true_eq] at hother
    obtain rfl := hnumbered.edge_eq hfind (List.mem_of_find?_eq_some hfound) hmem
      (hother.2.trans hgeneration.symm)
    simpa using hdrained

end Registry

namespace AppWorld

variable {world last : AppWorld} {subject : ObjectId}

def Seals (world : AppWorld) (subject : ObjectId) (last : AppWorld) : Prop :=
  ∀ id later, id.kind = .component → last.registry.findEntryLocked id = some later →
    ∃ earlier, world.registry.findEntryLocked id = some earlier ∧
      later.bindings = Registry.sealEdge subject earlier.bindings

theorem Accounted.sealed (haccounted : world.Accounted)
    (hseals : world.Seals subject last) :
    last.registry.EdgesOf subject (fun _ edge => edge.retiring = true) := by
  intro id later hkind hfind edge hmem hsubject
  obtain ⟨earlier, hearlier, hedges⟩ := hseals id later hkind hfind
  rw [hedges] at hmem
  exact Registry.retiring_of_mem_sealEdge (haccounted.balanced id earlier hearlier).alone
    (haccounted.numbered.nodup id earlier hearlier) hmem hsubject

theorem mem_retiringEdges {id : ObjectId} {entry : RegistryEntry} {edge : Binding}
    (hkind : id.kind = .component) (hfind : world.registry.findEntryLocked id = some entry)
    (hmem : edge ∈ entry.bindings) (hsubject : edge.subjectId = subject)
    (hretiring : edge.retiring = true) :
    (id, edge.generation) ∈ world.retiringEdges subject := by
  refine List.mem_flatMap.mpr ⟨id, Registry.mem_listIdsByKind.mpr ⟨hkind, entry, hfind⟩, ?_⟩
  rw [hfind]
  exact List.mem_map.mpr
    ⟨edge, List.mem_filter.mpr ⟨hmem, by simp [hsubject, hretiring]⟩, rfl⟩

theorem Accounted.mem_edgesToDrain (haccounted : world.Accounted) {id : ObjectId}
    {entry : RegistryEntry} {edge : Binding} (hkind : id.kind = .component)
    (hfind : world.registry.findEntryLocked id = some entry) (hmem : edge ∈ entry.bindings)
    (hsubject : edge.subjectId = subject) :
    (id, edge.generation) ∈ world.edgesToDrain subject := by
  refine List.mem_flatMap.mpr ⟨id, Registry.mem_listIdsByKind.mpr ⟨hkind, entry, hfind⟩, ?_⟩
  rw [hfind]
  refine List.mem_map.mpr ⟨edge, List.mem_append.mpr ?_, rfl⟩
  cases hretiring : edge.retiring with
  | true => exact Or.inr (List.mem_filter.mpr ⟨hmem, by simp [hsubject, hretiring]⟩)
  | false =>
      refine Or.inl ?_
      rw [Registry.openEdge_eq_some (haccounted.balanced id entry hfind).alone hmem hsubject
        hretiring]
      exact List.mem_singleton.mpr rfl

theorem seals_beginStopService {id : ObjectId}
    (hbegin : world.beginStopService id = (true, last)) : world.Seals id last := by
  obtain heq | ⟨entry, hfind, -, heq⟩ := world.beginStopService_cases id
  · cases heq.symm.trans hbegin
  · cases heq.symm.trans hbegin
    intro target later hkind hlater
    have hlater : ((world.registry.modify id _).modifyAll _).findEntryLocked target =
      some later := hlater
    rw [Registry.findEntryLocked_modifyAll, Registry.findEntryLocked_modify] at hlater
    obtain ⟨middle, hmiddle, rfl⟩ := Option.map_eq_some_iff.mp hlater
    rw [if_pos hkind]
    split at hmiddle
    case isTrue hsame =>
      obtain ⟨old, hold, rfl⟩ := Option.map_eq_some_iff.mp hmiddle
      obtain rfl := Option.some.inj (hfind.symm.trans hold)
      exact ⟨entry, hsame ▸ hfind, rfl⟩
    case isFalse => exact ⟨middle, hmiddle, rfl⟩

theorem seals_sealSubjectEdges (world : AppWorld) (subject : ObjectId) :
    world.Seals subject (world.sealSubjectEdges subject).2 := by
  intro id later hkind hlater
  have hlater : (world.registry.modifyAll _).findEntryLocked id = some later := hlater
  rw [Registry.findEntryLocked_modifyAll] at hlater
  obtain ⟨earlier, hearlier, rfl⟩ := Option.map_eq_some_iff.mp hlater
  refine ⟨earlier, hearlier, ?_⟩
  rw [if_pos hkind]

/-- A critical section marks an object that no operation was working on. -/
structure TakesUp (world : AppWorld) (id : ObjectId) (last : AppWorld) : Prop where
  free : ∃ entry, world.registry.findEntryLocked id = some entry ∧
    entry.opInProgress = false
  marked : ∃ entry, last.registry.findEntryLocked id = some entry ∧
    entry.opInProgress = true

namespace TakesUp

variable {id : ObjectId}

theorem of_store {entry begun : RegistryEntry}
    (hfind : world.registry.findEntryLocked id = some entry)
    (hfree : entry.opInProgress = false) (hbegun : begun.opInProgress = true) :
    world.TakesUp id (world.store id begun) := by
  refine ⟨⟨entry, hfind, hfree⟩, begun, ?_, hbegun⟩
  change (world.registry.modify id (fun _ => begun)).findEntryLocked id = some begun
  rw [Registry.findEntryLocked_modify, if_pos rfl, hfind]
  rfl

theorem of_takesDown {kind : ObjectKind} {phase : String}
    (hresult : world.TakesDown kind phase (.ok id, last)) : world.TakesUp id last := by
  obtain ⟨error, ⟨⟩⟩ | ⟨found, entry, -, hfind, hfree, -, heq⟩ := hresult
  cases heq
  exact .of_store hfind hfree rfl

theorem of_beginStopComponent (hbegin : world.beginStopComponent id = (true, last)) :
    world.TakesUp id last := by
  obtain heq | ⟨entry, hfind, hfree, heq⟩ := world.beginStopComponent_cases id
  · cases heq.symm.trans hbegin
  · cases heq.symm.trans hbegin
    exact .of_store hfind hfree rfl

theorem of_beginStopService (hbegin : world.beginStopService id = (true, last)) :
    world.TakesUp id last := by
  obtain heq | ⟨entry, hfind, hfree, heq⟩ := world.beginStopService_cases id
  · cases heq.symm.trans hbegin
  · cases heq.symm.trans hbegin
    obtain ⟨-, begun, hbegun, hmarked⟩ : world.TakesUp id
        (world.store id { entry with opInProgress := true, destroyPhase := "stop"
                                     state := .stopping }) :=
      of_store hfind hfree rfl
    refine ⟨⟨entry, hfind, hfree⟩, ?_⟩
    have hagree : Registry.Agree RegistryEntry.opInProgress
        (world.store id { entry with opInProgress := true, destroyPhase := "stop"
                                     state := .stopping }).registry
        ((world.store id { entry with opInProgress := true, destroyPhase := "stop"
                                      state := .stopping }).modifyComponents
          (fun _ component => { component with
            bindings := Registry.sealEdge id component.bindings })).registry := by
      apply Registry.agree_modifyAll
      intro other component _
      split
      · rfl
      · rfl
    obtain ⟨later, hlater, hsame⟩ := hagree.find_some' hbegun
    exact ⟨later, hlater, hsame.trans hmarked⟩

theorem informed (htakes : world.TakesUp id last) {kind : OperationKind} {edges : EdgePhase}
    (hsealed : edges ≠ .untouched →
      last.registry.EdgesOf id (fun _ edge => edge.retiring = true))
    (hlisted : ∀ all pending, edges ≠ .listed all pending) :
    Operation.Informed last { Operation.begin id kind with edges := edges } := by
  obtain ⟨entry, hfind, hmarked⟩ := htakes.marked
  refine ⟨Registry.number_lt_of_find hfind, ?_, hsealed, ?_⟩
  · intro later hlater
    obtain rfl := Option.some.inj (hfind.symm.trans hlater)
    exact hmarked
  · intro all pending hlist
    exact absurd hlist (hlisted all pending)

theorem informed_begin (htakes : world.TakesUp id last) {kind : OperationKind} :
    (Operation.begin id kind).Informed last :=
  htakes.informed (fun huntouched => absurd rfl huntouched)
    (fun _ _ hlisted => by cases hlisted)

theorem informed_sealed (htakes : world.TakesUp id last) {kind : OperationKind}
    (hsealed : last.registry.EdgesOf id (fun _ edge => edge.retiring = true)) :
    Operation.Informed last { Operation.begin id kind with edges := .sealed } :=
  htakes.informed (fun _ => hsealed) (fun _ _ hlisted => by cases hlisted)

end TakesUp

variable [Infra]

theorem Accounted.beginUnbind (haccounted : world.Accounted) {key : ComponentKey}
    {edge : EdgeName} (hbegin : world.beginUnbind subject key = (.ok edge, last)) :
    Unbinding.Informed last ⟨edge.1, subject, edge.2, false⟩ := by
  obtain ⟨error, heq⟩ | ⟨id, component, -, hfind, hcases⟩ :=
    world.beginUnbind_cases subject key
  · cases heq.symm.trans hbegin
  · have hnodup := haccounted.numbered.nodup id component hfind
    obtain ⟨found, hopen, heq⟩ | ⟨generation, hretiring, heq⟩ := hcases
    · cases heq.symm.trans hbegin
      refine ⟨haccounted.numbered.edges_lt id component hfind found
        (List.mem_of_find?_eq_some hopen), ?_⟩
      intro entry hentry other hother hsubject _
      have hentry : (world.registry.modify id _).findEntryLocked id = some entry := hentry
      rw [Registry.findEntryLocked_modify, if_pos rfl, hfind] at hentry
      cases hentry
      exact ⟨Registry.retiring_of_mem_sealEdge (haccounted.balanced id component hfind).alone
        hnodup hother hsubject, nofun⟩
    · cases heq.symm.trans hbegin
      obtain ⟨found, hfound, rfl⟩ := Option.map_eq_some_iff.mp hretiring
      have hmem := List.mem_of_find?_eq_some hfound
      refine ⟨haccounted.numbered.edges_lt id component hfind found hmem, ?_⟩
      intro entry hentry other hother hsubject hgeneration
      obtain rfl := Option.some.inj (hfind.symm.trans hentry)
      obtain rfl := haccounted.numbered.edge_eq hfind hother hmem hgeneration
      have hsealed := List.find?_some hfound
      simp only [decide_eq_true_eq] at hsealed
      exact ⟨hsealed.2, nofun⟩

end AppWorld

/-! ## What the threads know -/

structure Drained (world : AppWorld) (views : Nat → Role) : Prop where
  accounted : world.Accounted
  operations : ∀ thread op, (views thread).operation = some op → op.marks = true →
    op.Informed world
  alone : ∀ thread other op op', (views thread).operation = some op → op.marks = true →
    (views other).operation = some op' → op'.marks = true → op.object = op'.object →
    thread = other
  unbindings : ∀ thread unbinding, (views thread).unbinding = some unbinding →
    unbinding.Informed world

/-- What a role of `thread` must know to fit in. -/
structure Fits (world : AppWorld) (views : Nat → Role) (thread : Nat) (role : Role) :
    Prop where
  operation : ∀ op, role.operation = some op → op.marks = true → op.Informed world
  alone : ∀ op, role.operation = some op → op.marks = true → ∀ other, other ≠ thread →
    ∀ op', (views other).operation = some op' → op'.marks = true →
      op.object ≠ op'.object
  unbinding : ∀ unbinding, role.unbinding = some unbinding → unbinding.Informed world

namespace Drained

variable {world last : AppWorld} {views : Nat → Role} {thread : Nat} {role : Role}
variable {released : Option ObjectId}

theorem step (hdrained : Drained world views) (haccounted : last.Accounted)
    (hsettling : world.Settling released last)
    (hreleased : ∀ other, other ≠ thread → ∀ op, (views other).operation = some op →
      op.marks = true → released ≠ some op.object)
    (hfits : Fits last views thread role) :
    Drained last (Function.update views thread role) := by
  refine ⟨haccounted, ?_, ?_, ?_⟩
  · intro other op hop hmarks
    by_cases hsame : other = thread
    · rw [hsame, Function.update_self] at hop
      exact hfits.operation op hop hmarks
    · rw [Function.update_of_ne hsame] at hop
      exact (hdrained.operations other op hop hmarks).step hsettling
        (hreleased other hsame op hop hmarks)
  · intro first second op op' hop hmarks hop' hmarks' hobject
    by_cases hfirst : first = thread
    · rw [hfirst, Function.update_self] at hop
      by_cases hsecond : second = thread
      · rw [hfirst, hsecond]
      · rw [Function.update_of_ne hsecond] at hop'
        exact absurd hobject
          (hfits.alone op hop hmarks second hsecond op' hop' hmarks')
    · rw [Function.update_of_ne hfirst] at hop
      by_cases hsecond : second = thread
      · rw [hsecond, Function.update_self] at hop'
        exact absurd hobject.symm
          (hfits.alone op' hop' hmarks' first hfirst op hop hmarks)
      · rw [Function.update_of_ne hsecond] at hop'
        exact hdrained.alone first second op op' hop hmarks hop' hmarks' hobject
  · intro other unbinding hunbinding
    by_cases hsame : other = thread
    · rw [hsame, Function.update_self] at hunbinding
      exact hfits.unbinding unbinding hunbinding
    · rw [Function.update_of_ne hsame] at hunbinding
      exact (hdrained.unbindings other unbinding hunbinding).step hsettling

/-- A role that learns nothing fits. -/
theorem fits_resumes (hdrained : Drained world views)
    (hsettling : world.Settling none last) (hresumes : role.Resumes (views thread)) :
    Fits last views thread role where
  operation := by
    intro op hop hmarks
    obtain ⟨known, hknown, hsame⟩ := hresumes.operation op hop hmarks
    have hinformed := (hdrained.operations thread known hknown (hsame.2.1 hmarks)).resumes
      hsame
    exact hinformed.step hsettling (Option.some_ne_none _).symm
  alone := by
    intro op hop hmarks other hne op' hop' hmarks' hobject
    obtain ⟨known, hknown, hsame⟩ := hresumes.operation op hop hmarks
    exact hne (hdrained.alone thread other known op' hknown (hsame.2.1 hmarks) hop' hmarks'
      (hsame.1.symm.trans hobject)).symm
  unbinding := fun unbinding hunbinding =>
    (hdrained.unbindings thread unbinding (hresumes.unbinding unbinding hunbinding)).step
      hsettling

/-- So does a role whose operation is over. -/
theorem fits_over (hdrained : Drained world views) (hsettling : world.Settling released last) :
    Fits last views thread { views thread with operation := none } := by
  constructor
  · intro op hop
    cases hop
  · intro op hop
    cases hop
  · intro unbinding hunbinding
    exact (hdrained.unbindings thread unbinding hunbinding).step hsettling

theorem fits_learned (hdrained : Drained world views)
    (hsettling : world.Settling none last) {op : Operation}
    (hop : (views thread).operation = some op) {update : Operation → Operation}
    (hobject : (update op).object = op.object)
    (hmarks : (update op).marks = op.marks)
    (hlearned : op.marks = true → (update op).Informed last) :
    Fits last views thread ((views thread).change update) := by
  have honly : ∀ later, ((views thread).change update).operation = some later →
      later = update op := by
    intro later hlater
    rw [Role.change, hop] at hlater
    exact (Option.some.inj hlater).symm
  constructor
  · intro later hlater hlatermarks
    obtain rfl := honly later hlater
    exact hlearned (hmarks ▸ hlatermarks)
  · intro later hlater hlatermarks other hne op' hop' hmarks' hsame
    obtain rfl := honly later hlater
    exact hne (hdrained.alone thread other op op' hop (hmarks ▸ hlatermarks) hop' hmarks'
      (hobject.symm.trans hsame)).symm
  · intro unbinding hunbinding
    exact (hdrained.unbindings thread unbinding hunbinding).step hsettling

theorem fits_takesUp (hdrained : Drained world views)
    (hsettling : world.Settling none last) {id : ObjectId}
    (htakes : world.TakesUp id last) {op : Operation} (hobject : op.object = id)
    (hinformed : op.Informed last) :
    Fits last views thread { views thread with operation := some op } := by
  constructor
  · rintro later ⟨⟩ _
    exact hinformed
  · rintro later ⟨⟩ _ other _ op' hop' hmarks' hsame
    obtain ⟨entry, hfind, hfree⟩ := htakes.free
    have hbusy := (hdrained.operations other op' hop' hmarks').busy entry
      (hsame.symm.trans hobject ▸ hfind)
    rw [hfree] at hbusy
    cases hbusy
  · intro unbinding hunbinding
    exact (hdrained.unbindings thread unbinding hunbinding).step hsettling

theorem fits_drainEdge (hdrained : Drained world views)
    {component subject : ObjectId} {generation : Nat}
    (hallowed : ∀ op, (views thread).operation = some op →
      op.edges = .untouched ∨ op.object = subject)
    (hseen : world.registry.bindingDrained component subject generation = true) :
    Fits world views thread ((views thread).drainEdge component subject generation) := by
  have hnumbered := hdrained.accounted.numbered
  constructor
  · intro later hlater hmarks
    obtain ⟨op, hop, rfl⟩ := Option.map_eq_some_iff.mp hlater
    have hinformed := hdrained.operations thread op hop hmarks
    refine ⟨hinformed.known, hinformed.busy, ?_, ?_⟩
    · intro hsealed
      apply hinformed.sealed
      intro huntouched
      simp [huntouched] at hsealed
    · intro all pending hlisted id entry hkind hfind edge hmem hsubject
      cases hedges : op.edges with
      | listed every left =>
          simp only [hedges, EdgePhase.listed.injEq] at hlisted
          obtain ⟨rfl, rfl⟩ := hlisted
          obtain ⟨hall, hidle⟩ := hinformed.listed every left hedges id entry hkind hfind edge
            hmem hsubject
          refine ⟨hall, ?_⟩
          intro hpending
          by_cases hleft : (id, edge.generation) ∈ left
          · have hsame : (id, edge.generation) = (component, generation) := by
              by_contra hne
              exact hpending ((List.mem_erase_of_ne hne).mpr hleft)
            obtain ⟨rfl, rfl⟩ := Prod.mk.inj hsame
            obtain huntouched | hobject := hallowed op hop
            · rw [hedges] at huntouched
              cases huntouched
            · exact hnumbered.drained hseen hfind hmem (hsubject.trans hobject) rfl
          · exact hidle hleft
      | _ => simp [hedges] at hlisted
  · intro later hlater hmarks other hne op' hop' hmarks' hobject
    obtain ⟨op, hop, rfl⟩ := Option.map_eq_some_iff.mp hlater
    exact hne (hdrained.alone thread other op op' hop hmarks hop' hmarks' hobject).symm
  · intro unbinding hunbinding
    obtain ⟨earlier, hearlier, rfl⟩ := Option.map_eq_some_iff.mp hunbinding
    have hinformed := hdrained.unbindings thread earlier hearlier
    split
    case isFalse => exact hinformed
    case isTrue hsame =>
      obtain ⟨hcomponent, hsubject, hgeneration⟩ := hsame
      refine ⟨hinformed.known, ?_⟩
      intro entry hfind edge hmem hof hwith
      refine ⟨(hinformed.sealed entry hfind edge hmem hof hwith).1, fun _ => ?_⟩
      dsimp only at hfind hof hwith
      rw [hcomponent] at hfind
      exact hnumbered.drained hseen hfind hmem (hof.trans hsubject) (hwith.trans hgeneration)

/-- No edge is erased while it is borrowed. -/
theorem drops (hdrained : Drained world views) {command : Command}
    (hallowed : Role.allowsCommand command (views thread)) :
    command.Drops (fun borrows => borrows = 0) world := by
  cases command with
  | eraseSubjectEdges subject =>
      obtain ⟨op, hop, rfl, hmarks, all, hlisted⟩ := hallowed
      intro id entry hkind hfind edge hmem hsubject _
      exact ((hdrained.operations thread op hop hmarks).listed all [] hlisted id entry hkind
        hfind edge hmem hsubject).2 List.not_mem_nil
  | eraseSubjectEdgesOn subject components =>
      obtain ⟨op, hop, rfl, hmarks, all, hlisted, -⟩ := hallowed
      intro id _ hkind entry hfind edge hmem hsubject _
      exact ((hdrained.operations thread op hop hmarks).listed all [] hlisted id entry hkind
        hfind edge hmem hsubject).2 List.not_mem_nil
  | finishUnbind component subject generation type name =>
      have hinformed := hdrained.unbindings thread _ hallowed
      intro entry hfind edge hmem hsubject hgeneration
      exact (hinformed.sealed entry hfind edge hmem hsubject hgeneration).2 rfl
  | _ => trivial

variable [Infra]

theorem query (hdrained : Drained world views) {query : Query} {choice : Choice}
    {answer : query.Answer} (hallowed : Role.allowsQuery query (views thread))
    (hanswer : world.answer query choice = some answer) :
    Fits world views thread (Role.afterQuery query answer (views thread)) := by
  have hself : world.Settling none world := .refl world
  have hsame : Fits world views thread (views thread) :=
    hdrained.fits_resumes hself (.refl _)
  cases query with
  | bindingDrained component subject generation =>
      cases hanswer
      unfold Role.afterQuery
      dsimp only
      split
      case isTrue hseen => exact hdrained.fits_drainEdge hallowed hseen
      case isFalse => exact hsame
  | awaitBinding component subject generation =>
      have hwaited : AppWorld.awaitDrained
        (world.registry.bindingDrained component subject generation) choice = some answer :=
          hanswer
      unfold Role.afterQuery
      dsimp only
      split
      case h_1 =>
        cases hseen : world.registry.bindingDrained component subject generation with
        | true => exact hdrained.fits_drainEdge hallowed hseen
        | false =>
            rw [hseen] at hwaited
            cases choice with
            | wait status =>
                simp only [AppWorld.awaitDrained] at hwaited
                split at hwaited
                · cases hwaited
                · cases hwaited
            | _ => cases hwaited
      case h_2 => exact hsame
  | retiringEdges subject =>
      cases hanswer
      obtain ⟨op, hop, rfl, hsealed⟩ := hallowed
      refine hdrained.fits_learned hself hop rfl rfl ?_
      intro hmarks
      have hinformed := hdrained.operations thread op hop hmarks
      have hretiring := hinformed.sealed (by simp [hsealed])
      refine ⟨hinformed.known, hinformed.busy, fun _ => hretiring, ?_⟩
      rintro all pending ⟨⟩ id entry hkind hfind edge hmem hsubject
      have hlisted := AppWorld.mem_retiringEdges hkind hfind hmem hsubject
        (hretiring id entry hkind hfind edge hmem hsubject)
      exact ⟨hlisted, fun hpending => absurd hlisted hpending⟩
  | _ => exact hdrained.fits_resumes hself (Role.afterQuery_resumes answer hallowed rfl)

theorem command (hdrained : Drained world views) {command : Command} {choice : Choice}
    {answer : command.Answer} (hallowed : Role.allowsCommand command (views thread))
    (happly : world.apply command choice = some (answer, last)) :
    Drained last (Function.update views thread
      (Role.afterCommand command answer (views thread))) := by
  have haccounted := AppWorld.apply_accounted (hdrained.drops hallowed) happly
    hdrained.accounted
  have hsettling := AppWorld.apply_settling happly
  have hlearn : world.Settling none last →
      ∀ role, Fits last views thread role →
        Drained last (Function.update views thread role) :=
    fun hsettling role hfits => hdrained.step haccounted hsettling
      (fun _ _ _ _ _ => (Option.some_ne_none _).symm) hfits
  have hsame : world.Settling none last →
      Drained last (Function.update views thread (views thread)) :=
    fun hsettling => hlearn hsettling _ (hdrained.fits_resumes hsettling (.refl _))
  have htaken : ∀ {id : ObjectId} {op : Operation}, world.Settling none last →
      world.TakesUp id last → op.object = id → op.Informed last →
      Drained last (Function.update views thread
        { views thread with operation := some op }) :=
    fun hsettling htakes hobject hinformed =>
      hlearn hsettling _ (hdrained.fits_takesUp hsettling htakes hobject hinformed)
  cases command with
  | abortDestroy id phase incomplete =>
      obtain ⟨op, hop, rfl, hmarks, -⟩ := hallowed.1
      refine hdrained.step haccounted hsettling ?_ (hdrained.fits_over hsettling)
      intro other hne op' hop' hmarks' hreleased
      exact hne (hdrained.alone thread other op op' hop hmarks hop' hmarks'
        (Option.some.inj hreleased)).symm
  | beginStopComponent id =>
      change Bool at answer
      cases answer with
      | false => exact hsame hsettling
      | true =>
          have htakes := AppWorld.TakesUp.of_beginStopComponent (Option.some.inj happly)
          exact htaken hsettling htakes rfl htakes.informed_begin
  | beginStopService id =>
      change Bool at answer
      cases answer with
      | false => exact hsame hsettling
      | true =>
          have hbegin := Option.some.inj happly
          have htakes := AppWorld.TakesUp.of_beginStopService hbegin
          exact htaken hsettling htakes rfl (htakes.informed_sealed
            (hdrained.accounted.sealed (AppWorld.seals_beginStopService hbegin)))
  | beginUninstallComponent key =>
      have hresult := world.beginUninstallComponent_takesDown key
      rw [Option.some.inj happly] at hresult
      change Except Error ObjectId at answer
      cases answer with
      | error error => exact hsame hsettling
      | ok id =>
          have htakes := AppWorld.TakesUp.of_takesDown hresult
          exact htaken hsettling htakes rfl htakes.informed_begin
  | beginUninstallService name =>
      have hresult := world.beginUninstallService_takesDown name
      rw [Option.some.inj happly] at hresult
      change Except Error ObjectId at answer
      cases answer with
      | error error => exact hsame hsettling
      | ok id =>
          have htakes := AppWorld.TakesUp.of_takesDown hresult
          exact htaken hsettling htakes rfl htakes.informed_begin
  | beginUninstallActorType type =>
      have hresult := world.beginUninstallActorType_takesDown type
      rw [Option.some.inj happly] at hresult
      change Except Error ObjectId at answer
      cases answer with
      | error error => exact hsame hsettling
      | ok id =>
          have htakes := AppWorld.TakesUp.of_takesDown hresult
          exact htaken hsettling htakes rfl htakes.informed_begin
  | sealSubjectEdges subject =>
      cases happly
      obtain ⟨op, hop, rfl, hmarks⟩ := hallowed
      refine hlearn hsettling _ (hdrained.fits_learned hsettling hop rfl rfl ?_)
      intro _
      have hinformed := (hdrained.operations thread op hop hmarks).step hsettling
        (Option.some_ne_none _).symm
      have hseals := world.seals_sealSubjectEdges op.object
      refine ⟨hinformed.known, hinformed.busy, fun _ => hdrained.accounted.sealed hseals, ?_⟩
      rintro all pending ⟨⟩ id entry hkind hfind edge hmem hsubject
      obtain ⟨earlier, hearlier, hedges⟩ := hseals id entry hkind hfind
      rw [hedges] at hmem
      obtain ⟨known, hknown, hkept⟩ :=
        (Remains.sealEdge (fun _ => True) op.object earlier.bindings).known hmem
      have hlisted := hdrained.accounted.mem_edgesToDrain hkind hearlier hknown
        (hkept.subject.symm.trans hsubject)
      rw [← hkept.generation] at hlisted
      exact ⟨hlisted, fun hpending => absurd hlisted hpending⟩
  | beginUnbind subject key =>
      change Except Error EdgeName at answer
      cases answer with
      | error error => exact hsame hsettling
      | ok edge =>
          have hresumed := hdrained.fits_resumes hsettling (.refl (views thread))
          refine hlearn hsettling _ ⟨hresumed.operation, hresumed.alone, ?_⟩
          rintro unbinding ⟨⟩
          exact hdrained.accounted.beginUnbind (Option.some.inj happly)
  | _ => exact hlearn hsettling _ (hdrained.fits_resumes hsettling
      (Role.afterCommand_resumes answer hallowed rfl))

end Drained

/-! ## Over runs -/

section

variable [Infra]

/-- The calls with what each of them knows of its object and of edges. -/
def knowingSystem :
    System Action Action.Answer Outcome AppWorld Role Entry Choice Event :=
  plainSystem.under .fresh appDiscipline

theorem knowingSystem_disciplined :
    knowingSystem.Disciplined (fun _ role => role.operation = none) where
  main := main_keeps
  idle := rfl
  answers := fun _ _ _ _ _ => AppWorld.perform_possible

/-- The same calls under the discipline with more needs. -/
def carefulSystem :
    System Action Action.Answer Outcome AppWorld Role Entry Choice Event :=
  plainSystem.under .fresh carefulDiscipline

theorem carefulSystem_disciplined :
    carefulSystem.Disciplined (fun _ role => role.operation = none) where
  main := main_heeds
  idle := rfl
  answers := fun _ _ _ _ _ => AppWorld.perform_possible

theorem drained_of_reachable {pool : AppPool Role}
    {guard : AppPool Role → AppStep → Prop}
    (hreach : knowingSystem.machine.ReachableWhere guard pool) :
    Drained pool.shared pool.views := by
  refine knowingSystem_disciplined.invariant (motive := Drained) ?_ ?_ ?_ hreach
  · intro world hstart
    refine ⟨AppWorld.accounted_start hstart, ?_, ?_, ?_⟩
    · intro thread op hop
      cases hop
    · intro thread other op op' hop
      cases hop
    · intro thread unbinding hunbinding
      cases hunbinding
  · intro pool thread choice act answer last hacts hdrained
    cases act with
    | query query =>
        obtain ⟨hanswer, rfl⟩ := AppWorld.perform_query hacts.performed
        exact hdrained.step hdrained.accounted (.refl _)
          (fun _ _ _ _ _ => (Option.some_ne_none _).symm)
          (hdrained.query hacts.allowed hanswer)
    | command command =>
        exact hdrained.command hacts.allowed (AppWorld.perform_command hacts.performed)
  · intro pool event last _ _ hreact hdrained
    have hevent := AppWorld.react_event hreact
    have hsettling := AppWorld.event_settling hdrained.accounted.numbered hevent
    refine ⟨AppWorld.event_accounted hevent hdrained.accounted, ?_, hdrained.alone, ?_⟩
    · intro thread op hop hmarks
      exact (hdrained.operations thread op hop hmarks).step hsettling
        (Option.some_ne_none _).symm
    · intro thread unbinding hunbinding
      exact (hdrained.unbindings thread unbinding hunbinding).step hsettling

/-- Generations at two moments name the same object or edge. -/
structure Registry.Shares (before after : Registry) : Prop where
  entries : ∀ id other entry entry', before.findEntryLocked id = some entry →
    after.findEntryLocked other = some entry' →
    entry.generation = entry'.generation → id = other
  edges : ∀ id other entry entry', before.findEntryLocked id = some entry →
    after.findEntryLocked other = some entry' →
    ∀ edge ∈ entry.bindings, ∀ edge' ∈ entry'.bindings,
      edge.generation = edge'.generation → id = other ∧ edge.subjectId = edge'.subjectId
  apart : ∀ id other entry entry', before.findEntryLocked id = some entry →
    after.findEntryLocked other = some entry' →
    (∀ edge ∈ entry.bindings, edge.generation ≠ entry'.generation) ∧
      ∀ edge ∈ entry'.bindings, edge.generation ≠ entry.generation

omit [Infra] in
theorem Registry.Inherits.shares {before after : Registry}
    (hinherits : Inherits before after) (hnumbered : before.Numbered) :
    before.Shares after := by
  have hold : ∀ {other entry'}, after.findEntryLocked other = some entry' →
      entry'.generation < before.nextGeneration →
      ∃ earlier, before.findEntryLocked other = some earlier ∧
        entry'.generation = earlier.generation := by
    intro other entry' hfind hlt
    obtain ⟨earlier, hearlier, hsame, -⟩ | ⟨-, hnew, -⟩ :=
      hinherits.entries other entry' hfind
    · exact ⟨earlier, hearlier, hsame⟩
    · exact absurd hlt (Nat.not_lt.mpr hnew)
  constructor
  · intro id other entry entry' hfind hfind' heq
    have hlt := hnumbered.entries_lt id entry hfind
    rw [heq] at hlt
    obtain ⟨earlier, hearlier, hsame⟩ := hold hfind' hlt
    exact hnumbered.entries id other entry earlier hfind hearlier (heq.trans hsame)
  · intro id other entry entry' hfind hfind' edge hmem edge' hmem' heq
    have hlt := hnumbered.edges_lt id entry hfind edge hmem
    rw [heq] at hlt
    obtain ⟨earlier, hearlier, known, hknown, hages⟩ := hinherits.edge hfind' hmem' hlt
    have hgeneration := heq.trans hages.generation
    obtain rfl := hnumbered.edges id other entry earlier hfind hearlier edge hmem known
      hknown hgeneration
    obtain rfl := Option.some.inj (hfind.symm.trans hearlier)
    rw [hnumbered.edge_eq hfind hmem hknown hgeneration]
    exact ⟨rfl, hages.subject.symm⟩
  · intro id other entry entry' hfind hfind'
    constructor
    · intro edge hmem heq
      have hlt := hnumbered.edges_lt id entry hfind edge hmem
      rw [heq] at hlt
      obtain ⟨earlier, hearlier, hsame⟩ := hold hfind' hlt
      exact hnumbered.apart id other entry earlier hfind hearlier edge hmem (heq.trans hsame)
    · intro edge hmem heq
      have hlt := hnumbered.entries_lt id entry hfind
      rw [← heq] at hlt
      obtain ⟨earlier, hearlier, known, hknown, hages⟩ := hinherits.edge hfind' hmem hlt
      exact hnumbered.apart other id earlier entry hearlier hfind known hknown
        (hages.generation.symm.trans heq)

/-- An edge that is borrowed is still there, unless its component is gone. -/
def Registry.Retains (before after : Registry) : Prop :=
  ∀ id earlier later, before.findEntryLocked id = some earlier →
    after.findEntryLocked id = some later → ∀ edge ∈ earlier.bindings, 0 < edge.borrows →
      ∃ kept ∈ later.bindings, kept.Ages edge

namespace Registry

variable {before after : Registry}

omit [Infra] in
theorem Retains.refl (registry : Registry) : registry.Retains registry := by
  intro id earlier later hearlier hlater edge hmem _
  obtain rfl := Option.some.inj (hearlier.symm.trans hlater)
  exact ⟨edge, hmem, .refl edge⟩

omit [Infra] in
theorem Relates.retains
    (hkeeps : Relates (RegistryEntry.Keeps (fun borrows => borrows = 0)) before after) :
    before.Retains after := by
  intro id earlier later hearlier hlater edge hmem hborrowed
  obtain ⟨known, hknown, hkept⟩ := hkeeps id later hlater
  obtain rfl := Option.some.inj (hearlier.symm.trans hknown)
  obtain ⟨kept, hkept, hsame⟩ := hkept.edges.survives hmem (Nat.ne_of_gt hborrowed)
  exact ⟨kept, hkept, hsame.toAges⟩

omit [Infra] in
theorem retains_borrows {id subject : ObjectId} {generation : Nat} (count : Nat → Nat)
    {change : Binding → Binding} (hchange : ∀ edge, (change edge).Ages edge) :
    before.Retains (before.modify id (fun entry => { entry with
      componentBorrows := count entry.componentBorrows
      bindings := modifyEdge subject generation change entry.bindings })) := by
  intro other earlier later hearlier hlater edge hmem hborrowed
  rw [findEntryLocked_modify] at hlater
  split at hlater
  case isTrue heq =>
    obtain ⟨known, hknown, rfl⟩ := Option.map_eq_some_iff.mp hlater
    rw [heq] at hearlier
    obtain rfl := Option.some.inj (hearlier.symm.trans hknown)
    exact exists_modifyEdge hchange hmem
  case isFalse => exact Retains.refl before other earlier later hearlier hlater edge hmem hborrowed

end Registry

theorem Drained.command_retains {world last : AppWorld} {views : Nat → Role} {thread : Nat}
    (hdrained : Drained world views) {command : Command} {choice : Choice}
    {answer : command.Answer} (hallowed : Role.allowsCommand command (views thread))
    (happly : world.apply command choice = some (answer, last)) :
    world.registry.Retains last.registry := by
  by_cases hgrows : command.grows = false
  · exact (AppWorld.apply_keeps hgrows (hdrained.drops hallowed) happly).retains
  · obtain rfl | ⟨kind, hcreated⟩ | ⟨subject, key, id, component, edge, change, -, -, rfl⟩ :=
      AppWorld.apply_grows (eq_true_of_ne_false hgrows) happly
    · exact .refl _
    · intro id earlier later hearlier hlater edge hmem hborrowed
      obtain hold | ⟨rfl, -⟩ := hcreated.find hlater
      · exact Registry.Retains.refl _ id earlier later hearlier hold edge hmem hborrowed
      · rw [Registry.findEntryLocked_next] at hearlier
        cases hearlier
    · have htable := (AppWorld.keeps_changeSubject (world.withEdge id subject.id) subject.id
        change).retains
      intro other earlier later hearlier hlater known hmem hborrowed
      have hfind : (world.withEdge id subject.id).registry.findEntryLocked other =
          if other = id then
            some { earlier with
              bindings := earlier.bindings ++ [world.newEdge subject.id] }
          else some earlier := by
        rw [AppWorld.withEdge, Registry.findEntryLocked_modify]
        split
        case isTrue heq =>
          subst heq
          exact congrArg (Option.map _) hearlier
        case isFalse => exact hearlier
      split at hfind
      · exact htable other _ later hfind hlater known (List.mem_append_left _ hmem) hborrowed
      · exact htable other _ later hfind hlater known hmem hborrowed

theorem AppWorld.event_retains {world last : AppWorld} {event : Event}
    (hevent : world.event event = some last) : world.registry.Retains last.registry := by
  by_cases hquiet : event.quiet = true
  · exact (AppWorld.event_quiet hquiet hevent).2.keeps.retains
  · cases event with
    | borrow object generation allow =>
        simp only [AppWorld.event] at hevent
        split at hevent
        · cases hevent
          exact .refl _
        case h_2 lease registry hborrow =>
          cases hevent
          obtain ⟨entry, edge, -, -, -, -, -, -, -, -, rfl⟩ := Registry.borrowImpl_ok hborrow
          exact Registry.retains_borrows (fun borrows => borrows + 1)
            (fun edge => .withBorrows edge _)
    | release lease =>
        simp only [AppWorld.event] at hevent
        split at hevent
        · cases hevent
          exact Registry.retains_borrows (fun borrows => borrows - 1)
            (fun edge => .withBorrows edge _)
        · cases hevent
    | _ => exact absurd rfl hquiet

theorem next_retains {pool next : AppPool Role} {label : AppStep}
    (hreach : knowingSystem.machine.Reachable pool)
    (hnext : knowingSystem.next pool label = some next) :
    pool.shared.registry.Retains next.shared.registry := by
  cases label with
  | spawn entry =>
      cases hnext
      exact .refl _
  | step thread choice =>
      have hfollows := knowingSystem_disciplined.follows hreach thread
      obtain ⟨-, act, rest, answer, last, hthread, hperform, rfl⟩ := System.next_step hnext
      rw [hthread] at hfollows
      cases act with
      | query query =>
          obtain ⟨-, rfl⟩ := AppWorld.perform_query hperform
          exact .refl _
      | command command =>
          exact (drained_of_reachable hreach).command_retains hfollows.1
            (AppWorld.perform_command hperform)
  | env event =>
      obtain ⟨last, hreact, rfl⟩ := Option.map_eq_some_iff.mp hnext
      exact AppWorld.event_retains (AppWorld.react_event hreact)

variable {pool : AppPool Unit}

theorem balanced_of_reachable (hreach : plainSystem.machine.Reachable pool) :
    pool.shared.Accounted := by
  obtain ⟨views, hviews⟩ := System.reachable_under Role.fresh appDiscipline hreach
  have hknowing : knowingSystem.machine.Reachable (System.viewed pool views) :=
    hviews.reachable
  exact (drained_of_reachable hknowing).accounted

/-- No step takes an edge that is borrowed from a component that stays. -/
theorem retains_of_reachable {next : AppPool Unit} {label : AppStep}
    (hreach : plainSystem.machine.Reachable pool)
    (hnext : plainSystem.next pool label = some next) :
    pool.shared.registry.Retains next.shared.registry := by
  obtain ⟨views, hviews⟩ := System.reachable_under Role.fresh appDiscipline hreach
  obtain ⟨after, hafter⟩ := System.next_under Role.fresh appDiscipline views hnext
  have hknowing : knowingSystem.machine.Reachable (System.viewed pool views) :=
    hviews.reachable
  exact next_retains hknowing hafter

/-- In every state the count of a component is the sum of those of its edges and the
number of its leases, a subject has at most one open edge on it, a step leaves every edge
that is borrowed while its component is there, and no generation is ever shared. -/
theorem borrows_accounted (hreach : plainSystem.machine.Reachable pool) :
    (∀ id entry, pool.shared.registry.findEntryLocked id = some entry →
      entry.componentBorrows = (entry.bindings.map Binding.borrows).sum ∧
        entry.componentBorrows = pool.shared.leasesOn id ∧
        (∀ edge ∈ entry.bindings, edge.borrows = pool.shared.leasesThrough id edge) ∧
        Alone entry.bindings) ∧
      (∀ label next, plainSystem.machine.next pool label = some next →
        pool.shared.registry.Retains next.shared.registry) ∧
      pool.shared.registry.Numbered ∧
      ∀ labels later, plainSystem.machine.Run (fun _ _ => True) pool labels later →
        pool.shared.registry.Shares later.shared.registry := by
  have haccounted := balanced_of_reachable hreach
  refine ⟨?_, ?_, haccounted.numbered, ?_⟩
  · intro id entry hfind
    obtain ⟨htotal, hsum, hthrough, -, halone⟩ := haccounted.balanced id entry hfind
    exact ⟨hsum, htotal, hthrough, halone⟩
  · exact fun label next hnext => retains_of_reachable hreach hnext
  · intro labels later hrun
    exact (inherits_of_run hrun).shares haccounted.numbered

end

/-- A component is bound to another one and borrowed through the new edge. -/
theorem borrows_accounted_borrow :
    letI := permissiveInfra
    ∃ pool, plainSystem.machine.Reachable pool ∧
      (pool.shared.registry.findEntryLocked ⟨.component, 1⟩).any (fun entry =>
        entry.componentBorrows = 1) = true ∧
      ∀ id entry, pool.shared.registry.findEntryLocked id = some entry →
        entry.componentBorrows = pool.shared.leasesOn id := by
  let _ := permissiveInfra
  have hboot : plainSystem.machine.Reachable
      (plainSystem.boot (AppWorld.fresh (.ok ()) 10 10)) :=
    .start ⟨_, start_fresh 10 10 (by decide), rfl⟩
  obtain ⟨pool, hreach, htest⟩ := hboot.exec_any (fun _ _ => true) (fun _ _ _ => trivial)
    ([.spawn (.coInstallComponent "A" "a" ⟨.app, none⟩),
      .spawn (.coInstallComponent "B" "b" ⟨.app, none⟩),
      .spawn (.coBindComponent "A" ⟨true, ⟨.component, 2⟩, 3⟩ "a" ⟨.app, none⟩)] ++
      List.replicate 8 (smoothStep 0) ++ List.replicate 8 (smoothStep 1) ++
      List.replicate 2 (smoothStep 2) ++ [.env (.borrow ⟨true, ⟨.component, 1⟩, 2⟩ 4 true)])
    (fun pool => (pool.shared.registry.findEntryLocked ⟨.component, 1⟩).any (fun entry =>
      entry.componentBorrows = 1)) (by decide)
  exact ⟨pool, hreach, htest,
    fun id entry hfind => ((borrows_accounted hreach).1 id entry hfind).2.1⟩

end BbtFramework.App
