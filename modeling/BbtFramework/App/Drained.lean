import BbtFramework.App.Accounts

/-!
# Drained edges

A teardown seals the edges of its subject, waits until each of them is drained and
erases them, in critical sections of their own.  What it has seen drained stays so: a
sealed edge is not borrowed, and a subject that is torn down gets no new edge.  An
unbind knows the same of its one edge.
-/

namespace BbtFramework.App

open BbtFramework.Library

/-- The object an action lets go. -/
def Command.released : Command → Option ObjectId
  | .abortDestroy id _ _ => some id
  | _ => none

/-- A later edge goes back to an earlier one, and a sealed edge was not borrowed. -/
def Binding.Settles (later earlier : Binding) : Prop :=
  later.Ages earlier ∧ (earlier.retiring = true → later.borrows ≤ earlier.borrows)

/-- An operation that is in progress is not over. -/
def RegistryEntry.StaysBusy (later earlier : RegistryEntry) : Prop :=
  earlier.opInProgress = true → later.opInProgress = true

/-- Sealed edges stay drained, marks of operations stay, and new edges belong to
subjects without one. -/
structure AppWorld.Settling (released : Option ObjectId) (world last : AppWorld) :
    Prop where
  ids : world.registry.nextIdSeq ≤ last.registry.nextIdSeq
  generations : world.registry.nextGeneration ≤ last.registry.nextGeneration
  busy : ∀ id later, last.registry.findEntryLocked id = some later →
    id.number < world.registry.nextIdSeq → released ≠ some id →
    ∃ earlier, world.registry.findEntryLocked id = some earlier ∧ later.StaysBusy earlier
  edges : ∀ id later, last.registry.findEntryLocked id = some later →
    ∀ edge ∈ later.bindings,
      (∃ earlier, world.registry.findEntryLocked id = some earlier ∧
        ∃ known ∈ earlier.bindings, edge.Settles known) ∨
      (world.registry.nextGeneration ≤ edge.generation ∧
        ∃ subject, world.registry.findEntryLocked edge.subjectId = some subject ∧
          subject.opInProgress = false)

namespace AppWorld

variable {world last : AppWorld} {released : Option ObjectId}

theorem Settling.refl (world : AppWorld) : world.Settling released world where
  ids := Nat.le_refl _
  generations := Nat.le_refl _
  busy := fun _ later hfind _ _ => ⟨later, hfind, id⟩
  edges := fun _ later hfind edge hmem =>
    Or.inl ⟨later, hfind, edge, hmem, .refl edge, fun _ => Nat.le_refl _⟩

/-- An object that was just made has no edges. -/
theorem Settling.created {kind : ObjectKind} (hcreated : world.Created kind last) :
    world.Settling released last := by
  obtain ⟨typeName, name, scope, ownerId, object, rfl⟩ := hcreated
  refine ⟨Nat.le_succ _, Nat.le_succ _, ?_, ?_⟩
  · intro id later hfind hlt _
    rw [Registry.findEntryLocked_append] at hfind
    split at hfind
    case isTrue heq =>
      rw [heq] at hlt
      exact absurd hlt (Nat.lt_irrefl _)
    case isFalse => exact ⟨later, hfind, fun hbusy => hbusy⟩
  · intro id later hfind edge hmem
    rw [Registry.findEntryLocked_append] at hfind
    split at hfind
    case isTrue =>
      cases hfind
      cases hmem
    case isFalse =>
      exact Or.inl ⟨later, hfind, edge, hmem, .refl edge, fun _ => Nat.le_refl _⟩

/-- A critical section without a borrow. -/
theorem Settling.keeps
    (hids : world.registry.nextIdSeq ≤ last.registry.nextIdSeq)
    (hgenerations : world.registry.nextGeneration ≤ last.registry.nextGeneration)
    (hkeeps : Registry.Relates (RegistryEntry.Keeps (fun _ => True)) world.registry
      last.registry)
    (hbusy : ∀ id later, last.registry.findEntryLocked id = some later →
      released ≠ some id → ∃ earlier, world.registry.findEntryLocked id = some earlier ∧
        later.StaysBusy earlier) :
    world.Settling released last where
  ids := hids
  generations := hgenerations
  busy := fun id later hfind _ hreleased => hbusy id later hfind hreleased
  edges := by
    intro id later hfind edge hmem
    obtain ⟨earlier, hearlier, hentry⟩ := hkeeps id later hfind
    obtain ⟨known, hknown, hkept⟩ := hentry.edges.known hmem
    exact Or.inl ⟨earlier, hearlier, known, hknown, hkept.toAges,
      fun _ => Nat.le_of_eq hkept.borrows⟩

theorem agree_changeSubject {α : Type} {field : RegistryEntry → α} {subject : ObjectId}
    {change : ObjectBase → ObjectBase}
    (hfield : ∀ entry object, field { entry with object := object } = field entry) :
    Registry.Agree field world.registry (world.changeSubject subject change).registry := by
  obtain heq | ⟨heq, -⟩ | ⟨heq, -⟩ := world.changeSubject_cases subject change
  · rw [heq]
    exact .refl _
  · rw [heq]
    exact .refl _
  · rw [heq]
    exact Registry.agree_modify (fun entry _ => hfield entry _)

/-- A bind adds one edge, whose subject is not being torn down. -/
theorem Settling.bound {id subject : ObjectId} {entry : RegistryEntry}
    (hsubject : world.registry.findEntryLocked subject = some entry)
    (hfree : entry.opInProgress = false) (change : ObjectBase → ObjectBase) :
    world.Settling released
      ((world.withEdge id subject).changeSubject subject change) := by
  have hagree : Registry.Agree RegistryEntry.opInProgress world.registry
      (world.withEdge id subject).registry :=
    (Registry.agree_bump world.registry).trans (Registry.agree_modify (fun _ _ => rfl))
  have htable : Registry.Agree RegistryEntry.opInProgress (world.withEdge id subject).registry
      ((world.withEdge id subject).changeSubject subject change).registry :=
    agree_changeSubject (fun _ _ => rfl)
  refine ⟨?_, ?_, ?_, ?_⟩
  · rw [nextIdSeq_changeSubject]
    exact Nat.le_refl _
  · rw [nextGeneration_changeSubject]
    exact Nat.le_succ _
  · intro target later hfind _ _
    obtain ⟨earlier, hearlier, hsame⟩ :=
      (hagree.trans htable).find_some hfind
    exact ⟨earlier, hearlier, fun hmarked => hsame ▸ hmarked⟩
  · intro target later hfind edge hmem
    have htables : Registry.Relates (RegistryEntry.Keeps (fun _ => True))
        (world.withEdge id subject).registry
        ((world.withEdge id subject).changeSubject subject change).registry :=
      keeps_changeSubject _ _ _
    obtain ⟨middle, hmiddle, hkeeps⟩ := htables target later hfind
    obtain ⟨between, hbetween, hkept⟩ := hkeeps.edges.known hmem
    rw [withEdge, Registry.findEntryLocked_modify] at hmiddle
    split at hmiddle
    case isTrue heq =>
      obtain ⟨earlier, hearlier, rfl⟩ := Option.map_eq_some_iff.mp hmiddle
      rcases List.mem_append.mp hbetween with hknown | hknown
      · exact Or.inl ⟨earlier, heq ▸ hearlier, between, hknown, hkept.toAges,
          fun _ => Nat.le_of_eq hkept.borrows⟩
      · obtain rfl := List.mem_singleton.mp hknown
        refine Or.inr ⟨Nat.le_of_eq hkept.generation.symm, entry, ?_, hfree⟩
        rw [hkept.subject]
        exact hsubject
    case isFalse =>
      exact Or.inl ⟨middle, hmiddle, between, hbetween, hkept.toAges,
        fun _ => Nat.le_of_eq hkept.borrows⟩

variable [Infra]

omit [Infra] in
theorem busy_takesDown {kind : ObjectKind} {phase : String}
    {result : Except Error ObjectId × AppWorld}
    (hresult : world.TakesDown kind phase result) :
    Registry.Relates RegistryEntry.StaysBusy world.registry result.2.registry := by
  obtain ⟨error, rfl⟩ | ⟨id, entry, -, -, -, -, rfl⟩ := hresult
  · exact .refl (fun _ hbusy => hbusy) _
  · exact Registry.relates_modify (fun _ hbusy => hbusy) (fun _ _ _ => rfl)

theorem apply_busy {command : Command} {choice : Choice} {answer : command.Answer}
    (hgrows : command.grows = false)
    (happly : world.apply command choice = some (answer, last)) :
    ∀ id later, last.registry.findEntryLocked id = some later →
      command.released ≠ some id →
      ∃ earlier, world.registry.findEntryLocked id = some earlier ∧
        later.StaysBusy earlier := by
  have hrelates : Registry.Relates RegistryEntry.StaysBusy world.registry last.registry →
      ∀ id later, last.registry.findEntryLocked id = some later →
        command.released ≠ some id →
        ∃ earlier, world.registry.findEntryLocked id = some earlier ∧
          later.StaysBusy earlier :=
    fun hrelates id later hfind _ => hrelates id later hfind
  have hrefl : ∀ entry : RegistryEntry, entry.StaysBusy entry := fun _ hbusy => hbusy
  have hagree : command.Keeps RegistryEntry.opInProgress →
      Registry.Relates RegistryEntry.StaysBusy world.registry last.registry := by
    intro hkeeps id later hfind
    obtain ⟨earlier, hearlier, hsame⟩ := ((apply_framed happly).agree hkeeps).find_some hfind
    exact ⟨earlier, hearlier, fun hbusy => hsame ▸ hbusy⟩
  cases command with
  | createComponent key => cases hgrows
  | createService name allowed => cases hgrows
  | createActorType type => cases hgrows
  | bindComponent subject key => cases hgrows
  | finishDestroy id =>
      cases happly
      exact hrelates (Registry.relates_remove hrefl id)
  | abortDestroy id phase incomplete =>
      cases happly
      intro other later hfind hreleased
      have hfind : (world.registry.modify id _).findEntryLocked other = some later := hfind
      rw [Registry.findEntryLocked_modify] at hfind
      split at hfind
      case isTrue heq => exact absurd (congrArg some heq.symm) hreleased
      case isFalse => exact ⟨later, hfind, hrefl later⟩
  | beginStopComponent id =>
      replace happly := Option.some.inj happly
      obtain heq | ⟨entry, hfind, -, heq⟩ := world.beginStopComponent_cases id
      · cases heq.symm.trans happly
        exact hrelates (.refl hrefl _)
      · cases heq.symm.trans happly
        exact hrelates (Registry.relates_modify hrefl (fun _ _ _ => rfl))
  | beginStopService id =>
      replace happly := Option.some.inj happly
      obtain heq | ⟨entry, hfind, -, heq⟩ := world.beginStopService_cases id
      · cases heq.symm.trans happly
        exact hrelates (.refl hrefl _)
      · cases heq.symm.trans happly
        have hbegun : Registry.Relates RegistryEntry.StaysBusy world.registry
            (world.store id { entry with opInProgress := true, destroyPhase := "stop"
                                         state := .stopping }).registry :=
          Registry.relates_modify hrefl (fun _ _ _ => rfl)
        refine hrelates (hbegun.trans (fun hfirst hsecond hbusy => hsecond (hfirst hbusy))
          (Registry.relates_modifyAll ?_))
        intro other component _ hbusy
        split
        · exact hbusy
        · exact hbusy
  | beginUninstallComponent key =>
      have hresult := busy_takesDown (world.beginUninstallComponent_takesDown key)
      rw [Option.some.inj happly] at hresult
      exact hrelates hresult
  | beginUninstallService name =>
      have hresult := busy_takesDown (world.beginUninstallService_takesDown name)
      rw [Option.some.inj happly] at hresult
      exact hrelates hresult
  | beginUninstallActorType type =>
      have hresult := busy_takesDown (world.beginUninstallActorType_takesDown type)
      rw [Option.some.inj happly] at hresult
      exact hrelates hresult
  | _ => exact hrelates (hagree (by simp [Command.Keeps]))

theorem apply_settling {command : Command} {choice : Choice} {answer : command.Answer}
    (happly : world.apply command choice = some (answer, last)) :
    world.Settling command.released last := by
  by_cases hgrows : command.grows = false
  · have hframed := apply_framed happly
    exact .keeps hframed.ids hframed.generations
      (apply_keeps hgrows (drops_any command world) happly) (apply_busy hgrows happly)
  · obtain rfl | ⟨kind, hcreated⟩ | ⟨subject, key, id, component, edge, change, -, hchecks,
      rfl⟩ := apply_grows (eq_true_of_ne_false hgrows) happly
    · exact .refl _
    · exact .created hcreated
    · obtain ⟨-, -, -, -, ⟨entry, hsubject, hfree⟩, -⟩ := bindChecks_ok hchecks
      exact .bound hsubject hfree change

omit [Infra] in
/-- A borrow goes through an open edge, and a release takes borrows away. -/
theorem Settling.borrows {id subject : ObjectId} {generation : Nat}
    {change : Binding → Binding} (count : Nat → Nat)
    (hnumbered : world.registry.Numbered)
    (hchange : ∀ entry, world.registry.findEntryLocked id = some entry →
      ∀ edge ∈ entry.bindings, edge.generation = generation → (change edge).Settles edge)
    (hlast : last.registry = world.registry.modify id (fun entry => { entry with
      componentBorrows := count entry.componentBorrows
      bindings := Registry.modifyEdge subject generation change entry.bindings })) :
    world.Settling released last := by
  have hagree : Registry.Agree RegistryEntry.opInProgress world.registry last.registry := by
    rw [hlast]
    exact Registry.agree_modify (fun _ _ => rfl)
  refine ⟨?_, ?_, ?_, ?_⟩
  · rw [hlast]
    exact Nat.le_refl _
  · rw [hlast]
    exact Nat.le_refl _
  · intro other later hlater _ _
    obtain ⟨earlier, hearlier, hsame⟩ := hagree.find_some hlater
    exact ⟨earlier, hearlier, fun hbusy => hsame ▸ hbusy⟩
  · intro other later hlater edge hmem
    rw [hlast, Registry.findEntryLocked_modify] at hlater
    split at hlater
    case isFalse =>
      exact Or.inl ⟨later, hlater, edge, hmem, .refl edge, fun _ => Nat.le_refl _⟩
    case isTrue heq =>
      obtain ⟨earlier, hearlier, rfl⟩ := Option.map_eq_some_iff.mp hlater
      refine Or.inl ⟨earlier, heq ▸ hearlier, ?_⟩
      obtain ⟨hold, -⟩ | ⟨known, hknown, -, hgeneration, rfl⟩ :=
        Registry.mem_modifyEdge (hnumbered.nodup id earlier hearlier) hmem
      · exact ⟨edge, hold, .refl edge, fun _ => Nat.le_refl _⟩
      · exact ⟨known, hknown, hchange earlier hearlier known hknown hgeneration⟩

theorem event_settling {event : Event} (hnumbered : world.registry.Numbered)
    (hevent : world.event event = some last) : world.Settling none last := by
  by_cases hquiet : event.quiet = true
  · obtain ⟨-, hagree⟩ := event_quiet hquiet hevent
    have hundisturbed := event_undisturbed hevent
    refine .keeps (Nat.le_of_eq hundisturbed.ids.symm)
      (Nat.le_of_eq hundisturbed.generations.symm) hagree.keeps ?_
    intro id later hfind _
    have hmarks : Registry.Agree RegistryEntry.opInProgress world.registry last.registry :=
      hundisturbed.agree (fun _ _ _ _ => rfl)
    obtain ⟨earlier, hearlier, hsame⟩ := hmarks.find_some hfind
    exact ⟨earlier, hearlier, fun hbusy => hsame ▸ hbusy⟩
  · cases event with
    | borrow object generation allow =>
        simp only [AppWorld.event] at hevent
        split at hevent
        · cases hevent
          exact .refl _
        case h_2 lease registry hborrow =>
          cases hevent
          obtain ⟨entry, edge, hfind, -, -, hmem, hgeneration, -, hopen, rfl, rfl⟩ :=
            Registry.borrowImpl_ok hborrow
          refine .borrows (fun borrows => borrows + 1) hnumbered ?_ rfl
          intro found hfound other hother hsame
          obtain rfl := Option.some.inj (hfind.symm.trans hfound)
          obtain rfl := hnumbered.edge_eq hfind hother hmem (hsame.trans hgeneration.symm)
          refine ⟨.withBorrows other _, ?_⟩
          intro hretiring
          rw [hopen] at hretiring
          cases hretiring
    | release lease =>
        simp only [AppWorld.event] at hevent
        split at hevent
        case isFalse => cases hevent
        case isTrue =>
          cases hevent
          refine .borrows (fun borrows => borrows - 1) hnumbered ?_ rfl
          intro _ _ other _ _
          exact ⟨.withBorrows other _, fun _ => Nat.sub_le _ _⟩
    | _ => exact absurd rfl hquiet

end AppWorld

/-! ## What an operation knows of the edges of its subject -/

def Registry.EdgesOf (registry : Registry) (subject : ObjectId)
    (holds : ObjectId → Binding → Prop) : Prop :=
  ∀ id entry, id.kind = .component → registry.findEntryLocked id = some entry →
    ∀ edge ∈ entry.bindings, edge.subjectId = subject → holds id edge

/-- A teardown that has sealed the edges of its object has them sealed, one that has
listed them has all of them on its list, and those it has seen drained are drained. -/
structure Operation.Informed (world : AppWorld) (op : Operation) : Prop where
  known : op.object.number < world.registry.nextIdSeq
  busy : ∀ entry, world.registry.findEntryLocked op.object = some entry →
    entry.opInProgress = true
  sealed : op.edges ≠ .untouched →
    world.registry.EdgesOf op.object (fun _ edge => edge.retiring = true)
  listed : ∀ all pending, op.edges = .listed all pending →
    world.registry.EdgesOf op.object (fun id edge => (id, edge.generation) ∈ all ∧
      ((id, edge.generation) ∉ pending → edge.borrows = 0))

structure Unbinding.Informed (world : AppWorld) (unbinding : Unbinding) : Prop where
  known : unbinding.generation < world.registry.nextGeneration
  sealed : ∀ entry, world.registry.findEntryLocked unbinding.component = some entry →
    ∀ edge ∈ entry.bindings, edge.subjectId = unbinding.subject →
      edge.generation = unbinding.generation → edge.retiring = true ∧
        (unbinding.drained = true → edge.borrows = 0)

/-- An operation that has learned nothing more of its edges; it has erased them if it had
seen all of them drained. -/
structure Operation.Continues (later earlier : Operation) : Prop where
  object : later.object = earlier.object
  marks : later.marks = true → earlier.marks = true
  edges : later.edges = earlier.edges ∨
    (later.edges = .cleared ∧ ∃ all, earlier.edges = .listed all [])

def Operation.Resumes (later earlier : Operation) : Prop :=
  later.object = earlier.object ∧ (later.marks = true → earlier.marks = true) ∧
    (later.edges = earlier.edges ∨
      (later.edges = .cleared ∧ earlier.edges ≠ .untouched))

theorem Operation.Continues.resumes {later earlier : Operation}
    (hcontinues : later.Continues earlier) : later.Resumes earlier := by
  refine ⟨hcontinues.object, hcontinues.marks, hcontinues.edges.imp_right ?_⟩
  rintro ⟨hcleared, all, hlisted⟩
  refine ⟨hcleared, ?_⟩
  rw [hlisted]
  intro hphase
  cases hphase

section

variable {world last : AppWorld} {released : Option ObjectId} {op later : Operation}

theorem Operation.Informed.resumes (hinformed : op.Informed world)
    (hresumes : later.Resumes op) : later.Informed world := by
  obtain ⟨hobject, -, hedges⟩ := hresumes
  constructor
  · rw [hobject]
    exact hinformed.known
  · rw [hobject]
    exact hinformed.busy
  · intro hsealed
    rw [hobject]
    apply hinformed.sealed
    obtain hsame | ⟨-, huntouched⟩ := hedges
    · rwa [← hsame]
    · exact huntouched
  · intro all pending hlisted
    rw [hobject]
    obtain hsame | ⟨hcleared, -⟩ := hedges
    · exact hinformed.listed all pending (hsame.symm.trans hlisted)
    · rw [hcleared] at hlisted
      cases hlisted

theorem Operation.Informed.settles (hinformed : op.Informed world)
    (hsettling : world.Settling released last) {id : ObjectId} {entry : RegistryEntry}
    (hfind : last.registry.findEntryLocked id = some entry) {edge : Binding}
    (hmem : edge ∈ entry.bindings) (hsubject : edge.subjectId = op.object) :
    ∃ earlier, world.registry.findEntryLocked id = some earlier ∧
      ∃ known ∈ earlier.bindings, known.subjectId = op.object ∧ edge.Settles known := by
  obtain ⟨earlier, hearlier, known, hknown, hsettles⟩ | ⟨-, subject, hfound, hfree⟩ :=
    hsettling.edges id entry hfind edge hmem
  · exact ⟨earlier, hearlier, known, hknown, hsettles.1.subject.symm.trans hsubject, hsettles⟩
  · rw [hsubject] at hfound
    rw [hinformed.busy subject hfound] at hfree
    cases hfree

theorem Operation.Informed.step (hinformed : op.Informed world)
    (hsettling : world.Settling released last) (hreleased : released ≠ some op.object) :
    op.Informed last := by
  constructor
  · exact Nat.lt_of_lt_of_le hinformed.known hsettling.ids
  · intro entry hfind
    obtain ⟨earlier, hearlier, hbusy⟩ :=
      hsettling.busy op.object entry hfind hinformed.known hreleased
    exact hbusy (hinformed.busy earlier hearlier)
  · intro hsealed id entry hkind hfind edge hmem hsubject
    obtain ⟨earlier, hearlier, known, hknown, hsame, hsettles⟩ :=
      hinformed.settles hsettling hfind hmem hsubject
    exact hsettles.1.retiring (hinformed.sealed hsealed id earlier hkind hearlier known
      hknown hsame)
  · intro all pending hlisted id entry hkind hfind edge hmem hsubject
    obtain ⟨earlier, hearlier, known, hknown, hsame, hsettles⟩ :=
      hinformed.settles hsettling hfind hmem hsubject
    have hsealed : op.edges ≠ .untouched := by
      rw [hlisted]
      intro hphase
      cases hphase
    have hretiring := hinformed.sealed hsealed id earlier hkind hearlier known hknown hsame
    obtain ⟨hall, hdrained⟩ :=
      hinformed.listed all pending hlisted id earlier hkind hearlier known hknown hsame
    rw [hsettles.1.generation]
    refine ⟨hall, ?_⟩
    intro hpending
    have hle := hsettles.2 hretiring
    rw [hdrained hpending] at hle
    exact Nat.le_zero.mp hle

theorem Unbinding.Informed.step {unbinding : Unbinding}
    (hinformed : unbinding.Informed world) (hsettling : world.Settling released last) :
    unbinding.Informed last := by
  refine ⟨Nat.lt_of_lt_of_le hinformed.known hsettling.generations, ?_⟩
  intro entry hfind edge hmem hsubject hgeneration
  obtain ⟨earlier, hearlier, known, hknown, hages, hborrows⟩ | ⟨hnew, -⟩ :=
    hsettling.edges unbinding.component entry hfind edge hmem
  · obtain ⟨hretiring, hdrained⟩ := hinformed.sealed earlier hearlier known hknown
      (hages.subject.symm.trans hsubject) (hages.generation.symm.trans hgeneration)
    refine ⟨hages.retiring hretiring, ?_⟩
    intro hdone
    have hle := hborrows hretiring
    rw [hdrained hdone] at hle
    exact Nat.le_zero.mp hle
  · rw [hgeneration] at hnew
    exact absurd hinformed.known (Nat.not_lt.mpr hnew)

end

/-- The actions that take up an object or tell something about its edges. -/
def Action.learns : Action → Bool
  | .query (.bindingDrained _ _ _) | .query (.awaitBinding _ _ _)
  | .query (.retiringEdges _) => true
  | .command (.beginStopService _) | .command (.beginStopComponent _)
  | .command (.beginUninstallComponent _) | .command (.beginUninstallService _)
  | .command (.beginUninstallActorType _) | .command (.sealSubjectEdges _)
  | .command (.beginUnbind _ _) => true
  | _ => false

namespace Role

structure Resumes (later earlier : Role) : Prop where
  operation : ∀ op, later.operation = some op → op.marks = true →
    ∃ known, earlier.operation = some known ∧ op.Resumes known
  unbinding : ∀ unbinding, later.unbinding = some unbinding →
    earlier.unbinding = some unbinding

/-- The role knows no more of edges than before, but that those it had seen drained are
erased. -/
structure Continues (later earlier : Role) : Prop where
  operation : ∀ op, later.operation = some op → op.marks = true →
    ∃ known, earlier.operation = some known ∧ op.Continues known
  unbinding : ∀ unbinding, later.unbinding = some unbinding →
    earlier.unbinding = some unbinding

variable {role : Role}

theorem Continues.resumes {later : Role} (hcontinues : later.Continues role) :
    later.Resumes role where
  operation := fun op hop hmarks =>
    have ⟨known, hknown, hsame⟩ := hcontinues.operation op hop hmarks
    ⟨known, hknown, hsame.resumes⟩
  unbinding := hcontinues.unbinding

theorem Continues.refl (role : Role) : role.Continues role :=
  ⟨fun op hop _ => ⟨op, hop, rfl, id, Or.inl rfl⟩, fun _ hunbinding => hunbinding⟩

theorem Resumes.refl (role : Role) : role.Resumes role :=
  (Continues.refl role).resumes

/-- An operation that does not mark its object, or none at all. -/
theorem Continues.unmarked {lifecycle : Bool} {operation : Option Operation}
    (hmarks : ∀ op, operation = some op → op.marks = false) :
    Continues ⟨lifecycle, operation, role.unbinding⟩ role := by
  refine ⟨?_, fun _ hunbinding => hunbinding⟩
  intro op hop hmarked
  rw [hmarks op hop] at hmarked
  cases hmarked

theorem Continues.idle {lifecycle : Bool} :
    Continues ⟨lifecycle, none, role.unbinding⟩ role :=
  .unmarked (fun _ hnone => by cases hnone)

theorem Continues.change {update : Operation → Operation}
    (hupdate : ∀ op, role.operation = some op → (update op).Continues op) :
    (role.change update).Continues role := by
  refine ⟨?_, fun _ hunbinding => hunbinding⟩
  intro op hop _
  obtain ⟨known, hknown, rfl⟩ := Option.map_eq_some_iff.mp hop
  exact ⟨known, hknown, hupdate known hknown⟩

theorem afterQuery_continues {query : Query} (answer : query.Answer)
    (hallowed : allowsQuery query role)
    (hlearns : (Action.query query).learns = false) :
    (afterQuery query answer role).Continues role := by
  cases query with
  | loadState =>
      unfold afterQuery
      dsimp only
      split
      · split
        · exact .idle
        · exact .refl role
      · exact .refl role
  | findActor id =>
      refine .unmarked ?_
      rintro op ⟨⟩
      simp [Operation.marks, Operation.begin, hallowed.2.2]
  | enterHook id hook =>
      unfold afterQuery
      dsimp only
      split
      · exact .change (fun op _ => ⟨rfl, fun hmarks => hmarks, Or.inl rfl⟩)
      · exact .refl role
  | leaveHook => exact .change (fun op _ => ⟨rfl, fun hmarks => hmarks, Or.inl rfl⟩)
  | borrowsDrained id =>
      unfold afterQuery
      dsimp only
      split
      · exact .change (fun op _ => ⟨rfl, fun hmarks => hmarks, Or.inl rfl⟩)
      · exact .refl role
  | awaitBorrows id =>
      unfold afterQuery
      dsimp only
      split
      · exact .change (fun op _ => ⟨rfl, fun hmarks => hmarks, Or.inl rfl⟩)
      · exact .refl role
  | hookInFlight id =>
      unfold afterQuery
      dsimp only
      split
      · exact .refl role
      · exact .change (fun op _ => ⟨rfl, fun hmarks => hmarks, Or.inl rfl⟩)
  | bindingDrained component subject generation => cases hlearns
  | awaitBinding component subject generation => cases hlearns
  | retiringEdges subject => cases hlearns
  | _ => exact .refl role

theorem afterCommand_continues {command : Command} (answer : command.Answer)
    (hallowed : allowsCommand command role)
    (hlearns : (Action.command command).learns = false) :
    (afterCommand command answer role).Continues role := by
  have hchange : ∀ update : Operation → Operation,
      (∀ op, (update op).object = op.object ∧ (update op).kind = op.kind ∧
        (update op).edges = op.edges) → (role.change update).Continues role := by
    intro update hupdate
    refine .change (fun op _ => ?_)
    obtain ⟨hobject, hkind, hedges⟩ := hupdate op
    refine ⟨hobject, ?_, Or.inl hedges⟩
    rw [Operation.marks, Operation.marks, hobject, hkind]
    exact id
  cases command with
  | exchangeLifecycle =>
      unfold afterCommand
      dsimp only
      split
      · exact .refl role
      · exact ⟨(Continues.refl role).operation, (Continues.refl role).unbinding⟩
  | releaseLifecycle =>
      unfold afterCommand
      exact ⟨(Continues.refl role).operation, (Continues.refl role).unbinding⟩
  | createComponent key =>
      unfold afterCommand
      dsimp only
      split
      · refine .unmarked ?_
        rintro op ⟨⟩
        rfl
      · exact .refl role
  | createService name allowed =>
      unfold afterCommand
      dsimp only
      split
      · refine .unmarked ?_
        rintro op ⟨⟩
        rfl
      · exact .refl role
  | setState id state =>
      unfold afterCommand
      dsimp only
      split
      · split
        · refine .unmarked ?_
          rintro op ⟨⟩
          rfl
        · exact .refl role
      · split
        · exact .idle
        · exact .refl role
  | checkSettled id hook =>
      unfold afterCommand
      dsimp only
      split
      · refine .unmarked ?_
        rintro op ⟨⟩
        split
        · rfl
        · rfl
      case h_2 op hop =>
        refine ⟨?_, fun _ hunbinding => hunbinding⟩
        rintro later ⟨⟩ hmarks
        exact ⟨op, hop, rfl, fun hmarks => hmarks, Or.inl rfl⟩
  | awaitSettled id =>
      unfold afterCommand
      dsimp only
      split
      · exact hchange _ (fun _ => ⟨rfl, rfl, rfl⟩)
      · exact .refl role
  | takeHook id hook =>
      unfold afterCommand
      dsimp only
      split
      · exact hchange _ (fun _ => ⟨rfl, rfl, rfl⟩)
      · exact .refl role
  | eraseSubjectEdges subject =>
      obtain ⟨known, hknown, -, -, all, hlisted⟩ := hallowed
      refine .change (fun op hop => ⟨rfl, fun hmarks => hmarks, Or.inr ⟨rfl, all, ?_⟩⟩)
      obtain rfl := Option.some.inj (hknown.symm.trans hop)
      exact hlisted
  | eraseSubjectEdgesOn subject components =>
      obtain ⟨known, hknown, -, -, all, hlisted, -⟩ := hallowed
      refine .change (fun op hop => ⟨rfl, fun hmarks => hmarks, Or.inr ⟨rfl, all, ?_⟩⟩)
      obtain rfl := Option.some.inj (hknown.symm.trans hop)
      exact hlisted
  | finishDestroy id =>
      unfold afterCommand
      exact .idle
  | abortDestroy id phase incomplete =>
      unfold afterCommand
      exact .idle
  | finishUnbind component subject generation type name =>
      unfold afterCommand
      refine ⟨(Continues.refl role).operation, ?_⟩
      intro unbinding hunbinding
      cases hunbinding
  | beginStopService id => cases hlearns
  | beginStopComponent id => cases hlearns
  | beginUninstallComponent key => cases hlearns
  | beginUninstallService name => cases hlearns
  | beginUninstallActorType type => cases hlearns
  | sealSubjectEdges subject => cases hlearns
  | beginUnbind subject key => cases hlearns
  | _ => exact .refl role

theorem afterQuery_resumes {query : Query} (answer : query.Answer)
    (hallowed : allowsQuery query role)
    (hlearns : (Action.query query).learns = false) :
    (afterQuery query answer role).Resumes role :=
  (afterQuery_continues answer hallowed hlearns).resumes

theorem afterCommand_resumes {command : Command} (answer : command.Answer)
    (hallowed : allowsCommand command role)
    (hlearns : (Action.command command).learns = false) :
    (afterCommand command answer role).Resumes role :=
  (afterCommand_continues answer hallowed hlearns).resumes

end Role

end BbtFramework.App
