import BbtFramework.App.BorrowAccounting
import BbtFramework.App.ProgressConduct

/-!
# The owners of scoped components

A component in the scope of a service or an actor is found through its owner.  Owners
and components are destroyed by operations of their own; a component outlives its owner
only while an operation is about to destroy it, as long as every operation keeps to that.
-/

namespace BbtFramework.App

open BbtFramework.Library

def Stage.pending : Stage → List ObjectId
  | .stopping pending _ => pending
  | _ => []

/-- The thread is tearing the object down or has it on the list of its stop. -/
def attends (view : Role × Progress) (id : ObjectId) : Bool :=
  view.1.operation.any (fun op => op.kind.closes ∧ op.object = id) ||
    view.2.stage.pending.contains id

/-- What an action does with owners and the components in their scopes. -/
inductive OwnerMove where
  | create (key : ComponentKey)
  | destroy (id : ObjectId)
  | letGo (id : ObjectId)
  | skip (id : ObjectId)

def Action.ownerMove : Action → Option OwnerMove
  | .command (.createComponent key) => some (.create key)
  | .command (.finishDestroy id) => some (.destroy id)
  | .command (.abortDestroy id _ _) => some (.letGo id)
  | .command (.beginStopComponent id) => some (.skip id)
  | _ => none

/-- The owner that a placement names is registered; the application needs no entry. -/
def Registry.hasOwner (registry : Registry) (scope : ComponentScope)
    (ownerId : Option ObjectId) : Bool :=
  scope = .app ∨ (ownerId.bind registry.findEntryLocked).isSome = true

def Registry.scopedTo (registry : Registry) (owner : ObjectId) : List ObjectId :=
  registry.listWhere .component (fun entry =>
    entry.scope ≠ .app ∧ entry.ownerId = some owner)

def Registry.owned (registry : Registry) (id : ObjectId) : Bool :=
  (registry.findEntryLocked id).all (fun entry =>
    registry.hasOwner entry.scope entry.ownerId)

theorem attends_operation {view : Role × Progress} {op : Operation} {id : ObjectId}
    (hop : view.1.operation = some op) (hcloses : op.kind.closes = true)
    (hobject : op.object = id) : attends view id = true := by
  simp [attends, hop, hcloses, hobject]

theorem attends_pending {view : Role × Progress} {id : ObjectId}
    (hmem : id ∈ view.2.stage.pending) : attends view id = true := by
  simp [attends, hmem]

theorem attends_cases {view : Role × Progress} {id : ObjectId}
    (hattends : attends view id = true) :
    (∃ op, view.1.operation = some op ∧ op.kind.closes = true ∧ op.object = id) ∨
      id ∈ view.2.stage.pending := by
  simpa [attends, Option.any_eq_true] using hattends

/-- A teardown goes on until its object is destroyed or let go. -/
theorem Role.closing_after {role : Role} {op : Operation} {act : Action}
    (answer : act.Answer) (hallowed : Role.allows act role)
    (hop : role.operation = some op) (hcloses : op.kind.closes = true) :
    (∃ later, (Role.after act answer role).operation = some later ∧
      later.kind.closes = true ∧ later.object = op.object) ∨
      act = .command (.finishDestroy op.object) ∨
      ∃ phase incomplete, act = .command (.abortDestroy op.object phase incomplete) := by
  have hkeep : ∀ last : Role, last.operation = role.operation →
      ∃ later, last.operation = some later ∧ later.kind.closes = true ∧
        later.object = op.object :=
    fun _ hlast => ⟨op, hlast.trans hop, hcloses, rfl⟩
  have hchange : ∀ update : Operation → Operation, (update op).kind = op.kind →
      (update op).object = op.object →
      ∃ later, (role.change update).operation = some later ∧ later.kind.closes = true ∧
        later.object = op.object := by
    intro update hkind hobject
    refine ⟨update op, ?_, hkind ▸ hcloses, hobject⟩
    rw [Role.change, hop]
    rfl
  have hnone : role.operation ≠ none := by
    rw [hop]
    exact Option.some_ne_none op
  cases act with
  | query query =>
      refine Or.inl ?_
      unfold Role.after
      cases query with
      | loadState =>
          unfold Role.afterQuery
          dsimp only
          rw [hop]
          dsimp only
          split
          case isTrue hinstall =>
            rw [hinstall.1] at hcloses
            cases hcloses
          case isFalse => exact hkeep role rfl
      | findActor id => exact absurd hallowed.1 hnone
      | enterHook id hook =>
          unfold Role.afterQuery
          dsimp only
          split
          · exact hchange _ rfl rfl
          · exact hkeep role rfl
      | leaveHook => exact hchange _ rfl rfl
      | borrowsDrained id =>
          unfold Role.afterQuery
          dsimp only
          split
          · exact hchange _ rfl rfl
          · exact hkeep role rfl
      | awaitBorrows id =>
          unfold Role.afterQuery
          dsimp only
          split
          · exact hchange _ rfl rfl
          · exact hkeep role rfl
      | bindingDrained component subject generation =>
          unfold Role.afterQuery
          dsimp only
          split
          · exact hchange _ rfl rfl
          · exact hkeep role rfl
      | awaitBinding component subject generation =>
          unfold Role.afterQuery
          dsimp only
          split
          · exact hchange _ rfl rfl
          · exact hkeep role rfl
      | hookInFlight id =>
          unfold Role.afterQuery
          dsimp only
          split
          · exact hkeep role rfl
          · exact hchange _ rfl rfl
      | retiringEdges subject => exact hchange _ rfl rfl
      | _ => exact hkeep role rfl
  | command command =>
      unfold Role.after
      cases command with
      | finishDestroy id =>
          obtain ⟨⟨known, hknown, rfl, -⟩, -⟩ := hallowed
          obtain rfl := Option.some.inj (hop.symm.trans hknown)
          exact Or.inr (Or.inl rfl)
      | abortDestroy id phase incomplete =>
          obtain ⟨⟨known, hknown, rfl, -⟩, -⟩ := hallowed
          obtain rfl := Option.some.inj (hop.symm.trans hknown)
          exact Or.inr (Or.inr ⟨phase, incomplete, rfl⟩)
      | exchangeLifecycle =>
          obtain rfl : role = .fresh := hallowed
          cases hop
      | releaseLifecycle => exact absurd hallowed.1 hnone
      | createComponent key => exact absurd hallowed hnone
      | createService name allowed => exact absurd hallowed hnone
      | setState id state =>
          simp only [Role.allows, Role.allowsCommand, hop] at hallowed
          rw [hallowed.2.1] at hcloses
          cases hcloses
      | checkSettled id hook =>
          refine Or.inl ?_
          unfold Role.afterCommand
          dsimp only
          rw [hop]
          exact ⟨_, rfl, hcloses, rfl⟩
      | awaitSettled id =>
          refine Or.inl ?_
          unfold Role.afterCommand
          dsimp only
          split
          · exact hchange _ rfl rfl
          · exact hkeep role rfl
      | takeHook id hook =>
          refine Or.inl ?_
          unfold Role.afterCommand
          dsimp only
          split
          · exact hchange _ rfl rfl
          · exact hkeep role rfl
      | beginStopService id => exact absurd hallowed.1 hnone
      | beginStopComponent id => exact absurd hallowed.1 hnone
      | beginUninstallComponent key => exact absurd hallowed hnone
      | beginUninstallService name => exact absurd hallowed hnone
      | beginUninstallActorType type => exact absurd hallowed hnone
      | sealSubjectEdges subject => exact Or.inl (hchange _ rfl rfl)
      | eraseSubjectEdges subject => exact Or.inl (hchange _ rfl rfl)
      | eraseSubjectEdgesOn subject components => exact Or.inl (hchange _ rfl rfl)
      | beginUnbind subject key =>
          refine Or.inl ?_
          unfold Role.afterCommand
          dsimp only
          split
          · exact hkeep _ rfl
          · exact hkeep role rfl
      | finishUnbind component subject generation type name => exact Or.inl (hkeep _ rfl)
      | _ => exact Or.inl (hkeep role rfl)

/-- An object on the list of a stop stays there until its turn comes. -/
theorem pending_after {view : Role × Progress} {id : ObjectId} {act : Action}
    (answer : act.Answer) (hrole : Role.allows act view.1)
    (hallowed : Progress.allows act view.2) (hkind : id.kind = .component)
    (hmem : id ∈ view.2.stage.pending) :
    id ∈ (Progress.after act answer view.2).stage.pending ∨
      act = .command (.beginStopComponent id) := by
  obtain ⟨role, lifecycle, stage, log, failed⟩ := view
  cases stage with
  | stopping pending clean =>
      change id ∈ pending at hmem
      cases act with
      | query query =>
          refine Or.inl ?_
          cases query with
          | startLists => cases hallowed
          | listServices state =>
              obtain ⟨-, hstage⟩ | ⟨-, hstage⟩ := hallowed
              · cases hstage
              · cases hstage
          | stopLists => cases hallowed.1
          | _ => exact hmem
      | command command =>
          cases command with
          | exchangeLifecycle => cases hallowed.2
          | releaseLifecycle =>
              obtain ⟨-, state, hstage⟩ := hallowed
              cases hstage
          | createComponent key => cases hallowed.2
          | createService name allowed => cases hallowed.2
          | storeState state =>
              obtain ⟨-, hstores⟩ := hallowed
              cases state with
              | created => cases hstores
              | starting =>
                  obtain hstage | hstage := hstores
                  · cases hstage
                  · cases hstage
              | running =>
                  obtain hstage | hstage | ⟨hstage, -⟩ := hstores
                  · cases hstage
                  · cases hstage
                  · cases hstage
              | paused => cases hstores
              | stopping =>
                  obtain ⟨state, -, hstage⟩ := hstores
                  cases hstage
              | stopIncomplete =>
                  obtain ⟨clean, hstage⟩ := hstores
                  cases hstage
                  cases hmem
              | stopped =>
                  cases hstores
                  cases hmem
          | setState other state => cases hallowed
          | takeHook other hook =>
              refine Or.inl ?_
              unfold Progress.after Progress.afterCommand
              dsimp only
              split
              · split
                · exact hmem
                · exact hmem
              · exact hmem
          | beginStopService other =>
              obtain ⟨-, rest, later, hstage⟩ := hallowed
              cases hstage
              obtain rfl | hrest := List.mem_cons.mp hmem
              · cases hkind.symm.trans hrole.2.2
              · exact Or.inl hrest
          | beginStopComponent other =>
              obtain ⟨-, rest, later, hstage⟩ := hallowed
              cases hstage
              obtain rfl | hrest := List.mem_cons.mp hmem
              · exact Or.inr rfl
              · exact Or.inl hrest
          | finishDestroy other =>
              refine Or.inl ?_
              unfold Progress.after Progress.afterCommand
              dsimp only
              split
              case isTrue hactor =>
                have hhead := hallowed hactor pending clean rfl
                cases pending with
                | nil => cases hmem
                | cons first rest =>
                    obtain rfl := Option.some.inj hhead
                    obtain rfl | hrest := List.mem_cons.mp hmem
                    · cases hkind.symm.trans hactor
                    · exact hrest
              case isFalse => exact hmem
          | _ => exact Or.inl hmem
  | _ => cases hmem

/-- The discipline of both ghosts. -/
def scopeDiscipline : Discipline Action Action.Answer (Role × Progress) :=
  appDiscipline.prod progressDiscipline

/-- A component a thread attends to is attended to after its step, unless the step destroys
it, lets it go or comes to its turn in vain. -/
theorem attends_after {view : Role × Progress} {id : ObjectId} (act : Action)
    (answer : act.Answer) (hallowed : scopeDiscipline.allows act view)
    (hkind : id.kind = .component) (hattends : attends view id = true) :
    attends (scopeDiscipline.after act answer view) id = true ∨
      act = .command (.finishDestroy id) ∨
      (∃ phase incomplete, act = .command (.abortDestroy id phase incomplete)) ∨
      act = .command (.beginStopComponent id) := by
  obtain ⟨op, hop, hcloses, rfl⟩ | hmem := attends_cases hattends
  · obtain ⟨later, hlater, hstill, hobject⟩ | hdestroys | hlets :=
      Role.closing_after answer hallowed.1 hop hcloses
    · exact Or.inl (attends_operation hlater hstill hobject)
    · exact Or.inr (Or.inl hdestroys)
    · exact Or.inr (Or.inr (Or.inl hlets))
  · obtain hlater | hturn := pending_after answer hallowed.1 hallowed.2 hkind hmem
    · exact Or.inl (attends_pending hlater)
    · exact Or.inr (Or.inr (Or.inr hturn))

namespace AppWorld

variable [Infra] {world last : AppWorld}

theorem apply_placement {command : Command} {choice : Choice} {answer : command.Answer}
    {id : ObjectId} {later : RegistryEntry}
    (happly : world.apply command choice = some (answer, last))
    (hfind : last.registry.findEntryLocked id = some later) :
    (∃ earlier, world.registry.findEntryLocked id = some earlier ∧
      later.scope = earlier.scope ∧ later.ownerId = earlier.ownerId) ∨
      later.scope = .app ∨
      ∃ key, command = .createComponent key ∧ later.scope = key.scope ∧
        later.ownerId = key.ownerId := by
  have hsame : world.registry.findEntryLocked id = some later →
      ∃ earlier, world.registry.findEntryLocked id = some earlier ∧
        later.scope = earlier.scope ∧ later.ownerId = earlier.ownerId :=
    fun hbefore => ⟨later, hbefore, rfl, rfl⟩
  have hkeep : command.Keeps (fun entry => (entry.scope, entry.ownerId)) →
      ∃ earlier, world.registry.findEntryLocked id = some earlier ∧
        later.scope = earlier.scope ∧ later.ownerId = earlier.ownerId := by
    intro hkeeps
    obtain ⟨earlier, hearlier, hfields⟩ :=
      ((apply_framed happly).agree hkeeps).find_some hfind
    obtain ⟨hscope, howner⟩ := Prod.mk.inj hfields
    exact ⟨earlier, hearlier, hscope.symm, howner.symm⟩
  have hcreate : ∀ {kind : ObjectKind} {typeName name : String} {scope : ComponentScope}
      {ownerId : Option ObjectId} {state : ObjectState} {object : Option ObjectBase}
      {made : Registry}, made.findEntryLocked id = some later →
      made = world.registry.append kind
        (.created typeName name scope ownerId state object) →
      (∃ earlier, world.registry.findEntryLocked id = some earlier ∧
        later.scope = earlier.scope ∧ later.ownerId = earlier.ownerId) ∨
        later.scope = scope ∧ later.ownerId = ownerId := by
    rintro kind typeName name scope ownerId state object made hmade rfl
    rw [Registry.findEntryLocked_append] at hmade
    split at hmade
    · cases hmade
      exact Or.inr ⟨rfl, rfl⟩
    · exact Or.inl (hsame hmade)
  cases command with
  | createComponent key =>
      replace happly := Option.some.inj happly
      unfold createComponent at happly
      split at happly
      · cases happly
        exact Or.inl (hsame hfind)
      · obtain ⟨error, hmake⟩ | hmake := world.registry.createEntryLocked_cases
          .component key.type key.name key.scope key.ownerId .installing (some ⟨[], []⟩)
        · rw [hmake] at happly
          cases happly
          exact Or.inl (hsame hfind)
        · rw [hmake] at happly
          cases happly
          obtain hbefore | hmade := hcreate hfind rfl
          · exact Or.inl hbefore
          · exact Or.inr (Or.inr ⟨key, rfl, hmade⟩)
  | createService name allowed =>
      replace happly := Option.some.inj happly
      unfold createService at happly
      split at happly
      · cases happly
        exact Or.inl (hsame hfind)
      · obtain ⟨error, hmake⟩ | hmake := world.registry.createEntryLocked_cases
          .service name name .app none .installing (some ⟨allowed, []⟩)
        · rw [hmake] at happly
          cases happly
          exact Or.inl (hsame hfind)
        · rw [hmake] at happly
          cases happly
          obtain hbefore | hmade := hcreate hfind rfl
          · exact Or.inl hbefore
          · exact Or.inr (Or.inl hmade.1)
  | createActorType type =>
      replace happly := Option.some.inj happly
      unfold createActorType at happly
      split at happly
      · cases happly
        exact Or.inl (hsame hfind)
      · obtain ⟨error, hmake⟩ | hmake := world.registry.createEntryLocked_cases
          .actor type "" .app none .installed none
        · rw [hmake] at happly
          cases happly
          exact Or.inl (hsame hfind)
        · rw [hmake] at happly
          cases happly
          obtain hbefore | hmade := hcreate hfind rfl
          · exact Or.inl hbefore
          · exact Or.inr (Or.inl hmade.1)
  | finishDestroy other =>
      cases happly
      change (world.registry.remove other).findEntryLocked id = some later at hfind
      rw [Registry.findEntryLocked_remove] at hfind
      split at hfind
      · cases hfind
      · exact Or.inl (hsame hfind)
  | _ => exact Or.inl (hkeep (by simp [Command.Keeps]))

end AppWorld

/-! ## Over runs -/

section

variable [Infra]

/-- The calls with what each of them has begun and has before it. -/
def scopeSystem :
    System Action Action.Answer Outcome AppWorld (Role × Progress) Entry Choice Event :=
  appSystem (.fresh, .fresh) scopeDiscipline

/-- How a call returns: with no operation, and at rest. -/
def Settled (outcome : Outcome) (last : Role × Progress) : Prop :=
  last.1.operation = none ∧ Returned outcome last.2

theorem scopeSystem_disciplined : scopeSystem.Disciplined Settled where
  main := fun entry => (main_keeps entry).prod (main_advances entry)
  idle := ⟨rfl, rfl, rfl, fun _ => rfl⟩
  answers := fun _ _ _ _ _ hperform =>
    ⟨AppWorld.perform_possible hperform, AppWorld.perform_possible hperform⟩

abbrev ScopePool := AppPool (Role × Progress)

/-- A started thread attends to the object, one that may be set apart excepted. -/
def AttendedTo (pool : ScopePool) (id : ObjectId) (apart : Option Nat) : Prop :=
  ∃ thread < pool.count, some thread ≠ apart ∧ attends (pool.views thread) id = true

/-- What a move has to respect: a component is made while its owner is there, an owner goes
only when each component in its scope is attended to, and an operation that gives up a
component leaves it with its owner or with another operation. -/
def OwnerMove.Respects (pool : ScopePool) (label : AppStep) : OwnerMove → Prop
  | .create key => pool.shared.registry.hasOwner key.scope key.ownerId = true
  | .destroy owner =>
      ∀ id ∈ pool.shared.registry.scopedTo owner, id ≠ owner → AttendedTo pool id none
  | .letGo id =>
      pool.shared.registry.owned id = true ∨ AttendedTo pool id label.actor
  | .skip id =>
      (pool.shared.beginStopComponent id).1 = false →
        pool.shared.registry.owned id = true ∨ AttendedTo pool id label.actor

/-- No move of the run lets a scoped component outlive its owner. -/
def OwnersOutlive (pool : ScopePool) (label : AppStep) : Prop :=
  ∀ move ∈ (pool.asked label).bind Action.ownerMove, move.Respects pool label

instance (pool : ScopePool) (id : ObjectId) (apart : Option Nat) :
    Decidable (AttendedTo pool id apart) :=
  inferInstanceAs (Decidable (∃ thread < pool.count, _ ∧ _))

instance (pool : ScopePool) (label : AppStep) :
    (move : OwnerMove) → Decidable (move.Respects pool label)
  | .create _ => inferInstanceAs (Decidable (_ = true))
  | .destroy _ => inferInstanceAs (Decidable (∀ id ∈ _, id ≠ _ → AttendedTo pool id none))
  | .letGo _ => inferInstanceAs (Decidable (_ = true ∨ AttendedTo pool _ _))
  | .skip _ => inferInstanceAs (Decidable (_ = false → _ = true ∨ AttendedTo pool _ _))

instance (pool : ScopePool) (label : AppStep) : Decidable (OwnersOutlive pool label) :=
  inferInstanceAs (Decidable (∀ move ∈ _, OwnerMove.Respects pool label move))

/-- Every component has its owner, or an operation is about to destroy it. -/
def Kept (world : AppWorld) (views : Nat → Role × Progress) : Prop :=
  ∀ id entry, id.kind = .component → world.registry.findEntryLocked id = some entry →
    world.registry.hasOwner entry.scope entry.ownerId = true ∨
      ∃ thread, attends (views thread) id = true

variable {pool : ScopePool}

omit [Infra] in
theorem AttendedTo.of_guard {id : ObjectId} {apart : Option Nat}
    (hattended : AttendedTo pool id apart) :
    ∃ thread, some thread ≠ apart ∧ attends (pool.views thread) id = true := by
  obtain ⟨thread, -, hother, hattends⟩ := hattended
  exact ⟨thread, hother, hattends⟩

/-- An owner stays unless it is destroyed. -/
theorem AppWorld.apply_hasOwner {world last : AppWorld} {command : Command} {choice : Choice}
    {answer : command.Answer} {scope : ComponentScope} {ownerId : Option ObjectId}
    (happly : world.apply command choice = some (answer, last))
    (howner : world.registry.hasOwner scope ownerId = true) :
    last.registry.hasOwner scope ownerId = true ∨
      scope ≠ .app ∧ ∃ owner, ownerId = some owner ∧ command = .finishDestroy owner := by
  by_cases hscope : scope = .app
  · exact Or.inl (decide_eq_true (Or.inl hscope))
  · obtain happ | hsome := of_decide_eq_true howner
    · exact absurd happ hscope
    · obtain ⟨entry, hentry⟩ := Option.isSome_iff_exists.mp hsome
      obtain ⟨owner, rfl, hfind⟩ := Option.bind_eq_some_iff.mp hentry
      obtain ⟨later, hlater, -⟩ | hdestroys := apply_stays happly hfind
      · refine Or.inl (decide_eq_true (Or.inr ?_))
        exact Option.isSome_iff_exists.mpr ⟨later, hlater⟩
      · exact Or.inr ⟨hscope, owner, rfl, hdestroys⟩

theorem Kept.command {thread : Nat} {choice : Choice} {command : Command}
    {answer : command.Answer} {last : AppWorld}
    (hkept : Kept pool.shared pool.views)
    (hrespects : ∀ move ∈ (Action.command command).ownerMove,
      move.Respects pool (.step thread choice))
    (hallowed : scopeDiscipline.allows (.command command) (pool.views thread))
    (happly : pool.shared.apply command choice = some (answer, last)) :
    Kept last (Function.update pool.views thread
      (scopeDiscipline.after (.command command) answer (pool.views thread))) := by
  intro id entry hkind hfind
  -- An operation other than the one that acts is not disturbed.
  have hothers : ∀ other, some other ≠ some thread →
      attends (pool.views other) id = true → ∃ other, attends (Function.update pool.views
        thread (scopeDiscipline.after (.command command) answer (pool.views thread)) other)
          id = true := by
    intro other hother hattends
    refine ⟨other, ?_⟩
    rw [Function.update_of_ne (fun heq => hother (congrArg some heq))]
    exact hattends
  have hself : attends (scopeDiscipline.after (.command command) answer
      (pool.views thread)) id = true → ∃ other, attends (Function.update pool.views
        thread (scopeDiscipline.after (.command command) answer (pool.views thread)) other)
          id = true := by
    intro hattends
    refine ⟨thread, ?_⟩
    rw [Function.update_self]
    exact hattends
  have hremoved : command ≠ .finishDestroy id := by
    rintro rfl
    cases happly
    change (pool.shared.registry.remove id).findEntryLocked id = some entry at hfind
    rw [Registry.findEntryLocked_remove, if_pos rfl] at hfind
    cases hfind
  -- An owner that goes leaves a component that is attended to.
  have howned : pool.shared.registry.hasOwner entry.scope entry.ownerId = true →
      (∀ owner, command = .finishDestroy owner → entry.scope ≠ .app →
        entry.ownerId = some owner → AttendedTo pool id none) →
      last.registry.hasOwner entry.scope entry.ownerId = true ∨
        ∃ other, attends (Function.update pool.views thread (scopeDiscipline.after
          (.command command) answer (pool.views thread)) other) id = true := by
    intro howner hgoes
    obtain hstays | ⟨hscope, owner, howner, rfl⟩ := AppWorld.apply_hasOwner happly howner
    · exact Or.inl hstays
    · obtain ⟨other, -, hattends⟩ := (hgoes owner rfl hscope howner).of_guard
      by_cases hother : other = thread
      · rw [hother] at hattends
        obtain hlater | hdestroys | ⟨phase, incomplete, hlets⟩ | hturn :=
          attends_after (.command (.finishDestroy owner)) answer hallowed hkind hattends
        · exact Or.inr (hself hlater)
        · cases hdestroys
          exact absurd rfl hremoved
        · cases hlets
        · cases hturn
      · exact Or.inr (hothers other (fun heq => hother (Option.some.inj heq)) hattends)
  obtain ⟨earlier, hearlier, hscope, howner⟩ | happ | ⟨key, rfl, hscope, howner⟩ :=
    AppWorld.apply_placement happly hfind
  · have hgoes : ∀ owner, command = .finishDestroy owner → entry.scope ≠ .app →
        entry.ownerId = some owner → AttendedTo pool id none := by
      rintro owner rfl hnot hnamed
      refine hrespects (.destroy owner) rfl id ?_ ?_
      · exact Registry.mem_listWhere.mpr ⟨hkind, earlier, hearlier,
          decide_eq_true ⟨hscope ▸ hnot, howner ▸ hnamed⟩⟩
      · rintro rfl
        exact hremoved rfl
    obtain hbefore | ⟨other, hattends⟩ := hkept id earlier hkind hearlier
    · exact howned (by rw [hscope, howner]; exact hbefore) hgoes
    · by_cases hother : other = thread
      · rw [hother] at hattends
        have hleft : pool.shared.registry.owned id = true ∨
            AttendedTo pool id (some thread) →
            last.registry.hasOwner entry.scope entry.ownerId = true ∨
              ∃ other, attends (Function.update pool.views thread (scopeDiscipline.after
                (.command command) answer (pool.views thread)) other) id = true := by
          rintro (hbefore | hattended)
          · rw [Registry.owned, hearlier, Option.all_some] at hbefore
            exact howned (by rw [hscope, howner]; exact hbefore) hgoes
          · obtain ⟨other, hother, hattends⟩ := hattended.of_guard
            exact Or.inr (hothers other hother hattends)
        obtain hlater | hdestroys | ⟨phase, incomplete, hlets⟩ | hturn :=
          attends_after (.command command) answer hallowed hkind hattends
        · exact Or.inr (hself hlater)
        · cases hdestroys
          exact absurd rfl hremoved
        · cases hlets
          exact hleft (hrespects (.letGo id) rfl)
        · cases hturn
          have hanswer := congrArg Prod.fst (Option.some.inj happly)
          change Bool at answer
          cases answer with
          | true => exact Or.inr (hself (attends_operation rfl rfl rfl))
          | false => exact hleft (hrespects (.skip id) rfl hanswer)
      · exact Or.inr (hothers other (fun heq => hother (Option.some.inj heq)) hattends)
  · exact Or.inl (decide_eq_true (Or.inl happ))
  · refine howned ?_ (fun owner hdestroys => by cases hdestroys)
    rw [hscope, howner]
    exact hrespects (.create key) rfl

theorem AppWorld.event_hasOwner {world last : AppWorld} {event : Event}
    (hevent : world.event event = some last) (scope : ComponentScope)
    (ownerId : Option ObjectId) :
    last.registry.hasOwner scope ownerId = world.registry.hasOwner scope ownerId := by
  have hagree : Registry.Agree (fun _ => ()) world.registry last.registry :=
    (event_undisturbed hevent).agree (fun _ _ _ _ => rfl)
  have hsome : (ownerId.bind last.registry.findEntryLocked).isSome =
      (ownerId.bind world.registry.findEntryLocked).isSome := by
    cases ownerId with
    | none => rfl
    | some owner =>
        have hmap := congrArg Option.isSome (hagree owner)
        rw [Option.isSome_map, Option.isSome_map] at hmap
        exact hmap
  rw [Registry.hasOwner, Registry.hasOwner, hsome]

theorem kept_of_reachable (hreach : scopeSystem.machine.ReachableWhere OwnersOutlive pool) :
    Kept pool.shared pool.views := by
  refine scopeSystem_disciplined.invariant (motive := Kept) ?_ ?_ ?_ hreach
  · rintro world ⟨options, maxObjects, maxBindings, -, rfl⟩ id entry hkind hfind
    change (AppWorld.freshRegistry maxObjects maxBindings).findEntryLocked id = some entry at hfind
    rw [AppWorld.freshRegistry, Registry.findEntryLocked_append] at hfind
    split at hfind
    case isTrue heq =>
      rw [heq] at hkind
      cases hkind
    case isFalse => cases hfind
  · intro pool thread choice act answer last hacts hkept
    cases act with
    | query query =>
        obtain ⟨-, rfl⟩ := AppWorld.perform_query hacts.performed
        intro id entry hkind hfind
        refine (hkept id entry hkind hfind).imp_right ?_
        rintro ⟨other, hattends⟩
        refine ⟨other, ?_⟩
        by_cases hother : other = thread
        · subst hother
          rw [Function.update_self]
          obtain hlater | hdestroys | ⟨phase, incomplete, hlets⟩ | hturn :=
            attends_after (.query query) answer hacts.allowed hkind hattends
          · exact hlater
          · cases hdestroys
          · cases hlets
          · cases hturn
        · rw [Function.update_of_ne hother]
          exact hattends
    | command command =>
        obtain ⟨rest, hthread⟩ := hacts.asked
        refine hkept.command ?_ hacts.allowed (AppWorld.perform_command hacts.performed)
        intro move hmove
        apply hacts.guarded
        rw [Pool.asked_call hthread]
        exact hmove
  · intro pool event last _ _ hreact hkept id entry hkind hfind
    have hevent := AppWorld.react_event hreact
    have hagree : Registry.Agree (fun entry => (entry.scope, entry.ownerId))
        pool.shared.registry last.registry :=
      (AppWorld.event_undisturbed hevent).agree (fun _ _ _ _ => rfl)
    obtain ⟨earlier, hearlier, hfields⟩ := hagree.find_some hfind
    obtain ⟨hscope, howner⟩ := Prod.mk.inj hfields
    rw [AppWorld.event_hasOwner hevent, ← hscope, ← howner]
    exact hkept id earlier hkind hearlier

/-- Every call that was made has returned. -/
def AllReturned (pool : ScopePool) : Prop :=
  ∀ thread < pool.count, (pool.threads thread).returned.isSome = true

omit [Infra] in
/-- A thread without an operation and at rest attends to nothing. -/
theorem not_attends_of_settled {outcome : Outcome} {view : Role × Progress}
    (hsettled : Settled outcome view) (id : ObjectId) : attends view id = false := by
  obtain ⟨hoperation, -, hstage, -⟩ := hsettled
  simp [attends, hoperation, hstage, Stage.pending]

/-- When no operation is in progress and the moves of the run respected the owners, the
owner of every component in the scope of a service or an actor is registered. -/
theorem scoped_owned (hreach : scopeSystem.machine.ReachableWhere OwnersOutlive pool)
    (hquiet : AllReturned pool) {id : ObjectId} {entry : RegistryEntry}
    (hkind : id.kind = .component)
    (hfind : pool.shared.registry.findEntryLocked id = some entry)
    (hscoped : entry.scope ≠ .app) :
    ∃ owner found, entry.ownerId = some owner ∧
      pool.shared.registry.findEntryLocked owner = some found := by
  obtain howner | ⟨thread, hattends⟩ := kept_of_reachable hreach id entry hkind hfind
  · obtain happ | hsome := of_decide_eq_true howner
    · exact absurd happ hscoped
    · obtain ⟨found, hfound⟩ := Option.isSome_iff_exists.mp hsome
      obtain ⟨owner, howner, hfound⟩ := Option.bind_eq_some_iff.mp hfound
      exact ⟨owner, found, howner, hfound⟩
  · exfalso
    by_cases hlt : thread < pool.count
    · obtain ⟨outcome, hreturned⟩ := Option.isSome_iff_exists.mp (hquiet thread hlt)
      have hsettled := scopeSystem_disciplined.returned hreach hreturned
      rw [not_attends_of_settled hsettled] at hattends
      cases hattends
    · rw [System.views_of_ge hreach thread (Nat.le_of_not_lt hlt)] at hattends
      cases hattends

end

def scopedPair : List AppStep :=
  [.spawn (.coInstallService (.ok ()) "S" [] []),
    .spawn (.coInstallComponent "A" "a" ⟨.service, some ⟨true, ⟨.service, 1⟩, 2⟩⟩)] ++
    List.replicate 8 (smoothStep 0) ++ List.replicate 8 (smoothStep 1)

instance (pool : ScopePool) : Decidable (AllReturned pool) :=
  inferInstanceAs (Decidable (∀ thread < _, _ = _))

/-- The component has its owner once both are installed. -/
theorem scoped_owned_installed :
    letI := permissiveInfra
    ∃ pool, scopeSystem.machine.ReachableWhere OwnersOutlive pool ∧ AllReturned pool ∧
      ∃ entry, pool.shared.registry.findEntryLocked ⟨.component, 2⟩ = some entry ∧
        entry.scope = .service ∧ ∃ owner found, entry.ownerId = some owner ∧
          pool.shared.registry.findEntryLocked owner = some found := by
  let _ := permissiveInfra
  have hboot : scopeSystem.machine.ReachableWhere OwnersOutlive
      (scopeSystem.boot (AppWorld.fresh (.ok ()) 10 10)) :=
    .start ⟨_, start_fresh 10 10 (by decide), rfl⟩
  obtain ⟨pool, hreach, htest⟩ := hboot.exec_any
    (fun pool label => decide (OwnersOutlive pool label)) (fun _ _ => of_decide_eq_true)
    scopedPair
    (fun pool => AllReturned pool ∧
      (pool.shared.registry.findEntryLocked ⟨.component, 2⟩).any
        (fun entry => entry.scope = .service) = true) (by decide)
  obtain ⟨hquiet, hentry⟩ := of_decide_eq_true htest
  obtain ⟨entry, hfind, hscope⟩ := (Option.any_eq_true _ _).mp hentry
  replace hscope := of_decide_eq_true hscope
  exact ⟨pool, hreach, hquiet, entry, hfind, hscope,
    scoped_owned hreach hquiet rfl hfind (by simp [hscope])⟩

/-- The service is uninstalled, and the component in its scope stays. -/
theorem not_scoped_owned :
    letI := permissiveInfra
    ¬∀ pool id entry, scopeSystem.machine.Reachable pool → AllReturned pool →
      id.kind = .component → pool.shared.registry.findEntryLocked id = some entry →
      entry.scope ≠ .app → ∃ owner found, entry.ownerId = some owner ∧
        pool.shared.registry.findEntryLocked owner = some found := by
  let _ := permissiveInfra
  intro hclaim
  have hboot : scopeSystem.machine.Reachable
      (scopeSystem.boot (AppWorld.fresh (.ok ()) 10 10)) :=
    .start ⟨_, start_fresh 10 10 (by decide), rfl⟩
  obtain ⟨pool, hreach, htest⟩ := hboot.exec_any (fun _ _ => true) (fun _ _ _ => trivial)
    (scopedPair ++ [.spawn (.coUninstallService "S")] ++ List.replicate 5 (smoothStep 2) ++
      hookSteps 2 0 ++ List.replicate 4 (smoothStep 2))
    (fun pool => AllReturned pool ∧
      (pool.shared.registry.findEntryLocked ⟨.component, 2⟩).any (fun entry =>
        entry.scope = .service ∧ entry.ownerId = some ⟨.service, 1⟩) = true ∧
      pool.shared.registry.findEntryLocked ⟨.service, 1⟩ = none)
    (by decide)
  obtain ⟨hquiet, hentry, hgone⟩ := of_decide_eq_true htest
  obtain ⟨entry, hfind, hplaced⟩ := (Option.any_eq_true _ _).mp hentry
  obtain ⟨hscope, howner⟩ := of_decide_eq_true hplaced
  obtain ⟨owner, found, hnamed, hfound⟩ :=
    hclaim pool _ entry hreach hquiet rfl hfind (by simp [hscope])
  cases howner.symm.trans hnamed
  cases hgone.symm.trans hfound

end BbtFramework.App
