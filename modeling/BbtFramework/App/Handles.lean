import BbtFramework.App.Admission
import BbtFramework.App.Generations
import BbtFramework.App.StateAgreement
import BbtFramework.App.Subjects

/-!
# Handles

What a handle shows of its object, and what the `Find` functions return.  A handle the
registry has made names one object for as long as that is registered, and nothing
afterwards: ids and generations are not used again, so the check for a stale generation
never refuses such a handle.
-/

namespace BbtFramework.App

open BbtFramework.Library

/-- The snapshot `Info` returns; the last error and the time are not in the entries here. -/
structure ObjectInfo where
  id : ObjectId
  generation : Nat
  kind : ObjectKind
  typeName : String
  name : String
  scope : ComponentScope
  ownerId : Option ObjectId
  state : ObjectState
  deriving DecidableEq, Repr

inductive AddressKind where
  | service
  | actor
  deriving DecidableEq, Repr

structure AppObjectAddress where
  kind : AddressKind
  type : String
  key : String
  app : String
  deriving DecidableEq, Repr

/-- `AppObjectAddress::Service` and `AppObjectAddress::Actor`. -/
def AppObjectAddress.service (name app : String) : AppObjectAddress :=
  ⟨.service, name, "", app⟩

def AppObjectAddress.actor (type key app : String) : AppObjectAddress :=
  ⟨.actor, type, key, app⟩

section

variable [Infra]

def AppObjectAddress.validate (address : AppObjectAddress) : Except Error Unit :=
  match address.kind with
  | .service =>
      if address.type = "" then
        .error (makeError .invalidArgument "AppObjectAddress: service name empty")
      else .ok ()
  | .actor =>
      if address.type = "" ∨ address.key = "" then
        .error (makeError .invalidArgument "AppObjectAddress: actor type/key empty")
      else .ok ()

end

namespace Registry

variable (registry : Registry)

def handleValid (handle : ObjectHandle) : Bool :=
  (registry.findEntryLocked handle.id).any (fun entry =>
    entry.generation = handle.generation ∧ entry.state ≠ .destroyed ∧
      entry.state ≠ .invalidated)

def objectInfo (id : ObjectId) (entry : RegistryEntry) : ObjectInfo where
  id := id
  generation := entry.generation
  kind := id.kind
  typeName := entry.typeName
  name := entry.name
  scope := entry.scope
  ownerId := entry.ownerId
  state := entry.state

section

variable [Infra]

/-- The lookup `Info` and `MailBoxOf` begin with; the text is the prefix of a failure. -/
def resolve (operation : String) (handle : ObjectHandle) : Except Error RegistryEntry :=
  match registry.findEntryLocked handle.id with
  | none => .error (makeError .notFound (operation ++ ": object destroyed"))
  | some entry =>
      if entry.generation ≠ handle.generation then
        .error (makeError .invalidArgument (operation ++ ": generation stale"))
      else .ok entry

def info (handle : ObjectHandle) : Except Error ObjectInfo :=
  (registry.resolve "ObjectHandle" handle).map (objectInfo handle.id)

def addressOf (id : ObjectId) (entry : RegistryEntry) : Except Error AppObjectAddress :=
  match id.kind with
  | .service => .ok (.service entry.typeName "")
  | .actor => .ok (.actor entry.typeName entry.name "")
  | _ =>
      .error (makeError .invalidArgument
        "GetMailBox: only Service and Actor objects have addresses")

def mailBoxOf (handle : ObjectHandle) : Except Error AppObjectAddress :=
  (registry.resolve "GetMailBox" handle).bind (addressOf handle.id)

end

end Registry

namespace ObjectHandle

variable (handle : ObjectHandle)

/-- `none` is a registry that is gone. -/
def isValid : Option Registry → Bool
  | none => false
  | some registry => registry.handleValid handle

section

variable [Infra]

def info : Option Registry → Except Error ObjectInfo
  | none => .error (makeError .closed "ObjectHandle: registry closed")
  | some registry => registry.info handle

def getMailBox : Option Registry → Except Error AppObjectAddress
  | none => .error (makeError .closed "ObjectHandle: registry closed")
  | some registry => registry.mailBoxOf handle

end

end ObjectHandle

namespace AppWorld

variable [Infra] (world : AppWorld)

def handleFor (missing : String) (found : Option ObjectId) : Except Error ObjectHandle :=
  match found.bind (fun id => (world.registry.findEntryLocked id).map (Registry.makeHandle id)) with
  | none => .error (makeError .notFound missing)
  | some handle => .ok handle

def findService (service : String) : Except Error ObjectHandle :=
  world.handleFor "FindService: not found"
    (world.registry.findByTypeNameLocked .service service)

def findActor (type key : String) : Except Error ObjectHandle :=
  world.handleFor "FindActor: not found" (world.registry.findActorLocked type key)

def findComponentImpl (type name : String) (placement : ComponentOptions) :
    Except Error ObjectHandle :=
  match world.validateOwner placement with
  | .error error => .error error
  | .ok ownerId =>
      world.handleFor "FindComponent: not found"
        (world.registry.findComponentLocked placement.scope ownerId type name)

end AppWorld

/-! ## An object keeps what it is -/

/-- What an entry is all its life. -/
structure RegistryEntry.SameObject (later earlier : RegistryEntry) : Prop where
  generation : later.generation = earlier.generation
  typeName : later.typeName = earlier.typeName
  name : later.name = earlier.name
  scope : later.scope = earlier.scope
  owner : later.ownerId = earlier.ownerId

namespace RegistryEntry

variable {first second third : RegistryEntry}

theorem SameObject.refl (entry : RegistryEntry) : SameObject entry entry :=
  ⟨rfl, rfl, rfl, rfl, rfl⟩

theorem SameObject.trans (hfirst : SameObject second first)
    (hsecond : SameObject third second) : SameObject third first :=
  ⟨hsecond.generation.trans hfirst.generation, hsecond.typeName.trans hfirst.typeName,
    hsecond.name.trans hfirst.name, hsecond.scope.trans hfirst.scope,
    hsecond.owner.trans hfirst.owner⟩

theorem Ages.sameObject (hages : second.Ages first) : SameObject second first :=
  ⟨hages.generation, hages.typeName, hages.name, hages.scope, hages.owner⟩

theorem SameObject.withBindings {entry : RegistryEntry} {bindings : List Binding}
    (hsame : SameObject entry first) : SameObject { entry with bindings := bindings } first :=
  ⟨hsame.generation, hsame.typeName, hsame.name, hsame.scope, hsame.owner⟩

end RegistryEntry

namespace Registry

variable {first second third : Registry}

/-- An id that has been given out names the object it named before, or none. -/
structure Names (before after : Registry) : Prop where
  ids : before.nextIdSeq ≤ after.nextIdSeq
  objects : ∀ id later, id.number < before.nextIdSeq → after.findEntryLocked id = some later →
    ∃ earlier, before.findEntryLocked id = some earlier ∧ later.SameObject earlier

theorem Names.refl (registry : Registry) : Names registry registry :=
  ⟨Nat.le_refl _, fun _ later _ hfind => ⟨later, hfind, .refl later⟩⟩

theorem Names.trans (hfirst : Names first second) (hsecond : Names second third) :
    Names first third := by
  refine ⟨Nat.le_trans hfirst.ids hsecond.ids, ?_⟩
  intro id later hold hfind
  obtain ⟨middle, hmiddle, hlater⟩ :=
    hsecond.objects id later (Nat.lt_of_lt_of_le hold hfirst.ids) hfind
  obtain ⟨earlier, hearlier, hsame⟩ := hfirst.objects id middle hold hmiddle
  exact ⟨earlier, hearlier, hsame.trans hlater⟩

theorem Names.gone (hnames : Names first second) {id : ObjectId}
    (hold : id.number < first.nextIdSeq) (hgone : first.findEntryLocked id = none) :
    second.findEntryLocked id = none := by
  cases hfind : second.findEntryLocked id with
  | none => rfl
  | some later =>
      obtain ⟨earlier, hearlier, -⟩ := hnames.objects id later hold hfind
      rw [hgone] at hearlier
      cases hearlier

end Registry

section

variable [Infra] {world last : AppWorld}

theorem AppWorld.AgeStep.names {asked : Option Action} (hstep : world.AgeStep asked last) :
    Registry.Names world.registry last.registry := by
  cases hstep with
  | ages hids _ hages =>
      refine ⟨hids, fun id later _ hfind => ?_⟩
      obtain ⟨earlier, hearlier, hage⟩ := hages id later hfind
      exact ⟨earlier, hearlier, hage.sameObject⟩
  | created kind hcreated =>
      obtain ⟨typeName, name, scope, ownerId, object, rfl⟩ := hcreated
      refine ⟨Nat.le_succ _, fun id later hold hfind => ?_⟩
      rw [Registry.findEntryLocked_append] at hfind
      split at hfind
      case isTrue heq =>
        rw [heq] at hold
        exact absurd hold (Nat.lt_irrefl _)
      case isFalse => exact ⟨later, hfind, .refl later⟩
  | bound subject key id component edge change _ _ hlast =>
      subst hlast
      refine ⟨?_, fun target later _ hfind => ?_⟩
      · rw [AppWorld.nextIdSeq_changeSubject]
        exact Nat.le_refl _
      · obtain ⟨earlier, hearlier, hages⟩ := AppWorld.find_bound hfind
        refine ⟨earlier, hearlier, RegistryEntry.SameObject.trans ?_ hages.sameObject⟩
        split
        · exact (RegistryEntry.SameObject.refl earlier).withBindings
        · exact .refl earlier

variable {View : Type} {view : View} {discipline : Discipline Action Action.Answer View}
variable {guard : AppPool View → AppStep → Prop} {first pool : AppPool View}
variable {labels : List AppStep}

theorem names_of_run
    (hrun : (appSystem view discipline).machine.Run guard first labels pool) :
    Registry.Names first.shared.registry pool.shared.registry := by
  induction hrun with
  | refl => exact .refl _
  | tail _ _ hnext ih => exact ih.trans (AppWorld.next_ageStep hnext).names

end

/-- The states of an entry between two critical sections. -/
def ObjectState.registered : ObjectState → Bool
  | .created | .stopped | .destroyed | .invalidated | .unknown => false
  | _ => true

def Registry.Live (registry : Registry) : Prop :=
  ∀ id entry, registry.findEntryLocked id = some entry → entry.state.registered = true

namespace Registry

variable {before after : Registry}

theorem Live.sinks (hlive : before.Live) (hsinks : Sinks before after) : after.Live := by
  intro id later hfind
  obtain ⟨earlier, hearlier, hstate | hdown⟩ := hsinks id later hfind
  · rw [hstate]
    exact hlive id earlier hearlier
  · cases hstate : later.state with
    | created | stopped | destroyed | invalidated | unknown =>
        rw [hstate] at hdown
        cases hdown
    | _ => rfl

theorem Live.append (hlive : before.Live) (kind : ObjectKind) {made : Nat → RegistryEntry}
    (hmade : ∀ generation, (made generation).state.registered = true) :
    (before.append kind made).Live := by
  intro id entry hfind
  rw [findEntryLocked_append] at hfind
  split at hfind
  · cases hfind
    exact hmade _
  · exact hlive id entry hfind

theorem Live.setState (hlive : before.Live) (id : ObjectId) {state : ObjectState}
    (hstate : state.registered = true) : (before.setStateLocked id state).Live := by
  intro other entry hfind
  rw [setStateLocked, findEntryLocked_modify] at hfind
  split at hfind
  · obtain ⟨earlier, -, rfl⟩ := Option.map_eq_some_iff.mp hfind
    exact hstate
  · exact hlive other entry hfind

end Registry

theorem Progress.writes_registered {id : ObjectId} {state : ObjectState} {stage : Stage}
    (hwrites : Progress.writes id state stage) : state.registered = true := by
  cases stage with
  | installing other => rcases hwrites.2 with rfl | rfl <;> rfl
  | launching other => rcases hwrites.2 with rfl | rfl | rfl <;> rfl
  | starting remaining => rcases hwrites.2 with rfl | rfl | rfl <;> rfl
  | pausing remaining => rcases hwrites.2.2 with rfl | rfl <;> rfl
  | resuming remaining => rcases hwrites.2 with rfl | rfl <;> rfl
  | _ => exact hwrites.elim

section

variable [Infra] {world last : AppWorld}

omit [Infra] in
theorem AppWorld.live_created {kind : ObjectKind} (hlive : world.registry.Live)
    (hcreated : world.Created kind last) : last.registry.Live := by
  obtain ⟨typeName, name, scope, ownerId, object, rfl⟩ := hcreated
  apply hlive.append
  intro generation
  cases kind <;> rfl

theorem AppWorld.live_apply {command : Command} {choice : Choice} {answer : command.Answer}
    {progress : Progress} (hallowed : Progress.allowsCommand command progress)
    (happly : world.apply command choice = some (answer, last))
    (hlive : world.registry.Live) : last.registry.Live := by
  by_cases hraises : command.raises = false
  · exact hlive.sinks (apply_sinks hraises hallowed happly)
  · cases command with
    | setState id state =>
        cases happly
        exact hlive.setState id (Progress.writes_registered hallowed)
    | createComponent key =>
        replace happly := Option.some.inj happly
        rcases world.createComponent_cases key with ⟨error, heq⟩ | ⟨made, heq, hcreated⟩
        · cases heq.symm.trans happly
          exact hlive
        · cases heq.symm.trans happly
          exact live_created hlive hcreated
    | createService name allowed =>
        replace happly := Option.some.inj happly
        rcases world.createService_cases name allowed with ⟨error, heq⟩ | ⟨made, heq, hcreated⟩
        · cases heq.symm.trans happly
          exact hlive
        · cases heq.symm.trans happly
          exact live_created hlive hcreated
    | createActorType type =>
        replace happly := Option.some.inj happly
        rcases world.createActorType_cases type with ⟨error, heq⟩ | ⟨made, heq, hcreated⟩
        · cases heq.symm.trans happly
          exact hlive
        · cases heq.symm.trans happly
          exact live_created hlive hcreated
    | _ => exact absurd rfl hraises

theorem live_of_staged {guard : StagedPool → AppStep → Prop} {pool : StagedPool}
    (hreach : stagedSystem.machine.ReachableWhere guard pool) :
    pool.shared.registry.Live := by
  refine stagedSystem_disciplined.invariant
    (motive := fun world _ => world.registry.Live) ?_ ?_ ?_ hreach
  · intro world hstart id entry hfind
    obtain ⟨options, maxObjects, maxBindings, -, rfl⟩ := hstart
    simp only [AppWorld.fresh, AppWorld.freshRegistry, Registry.findEntryLocked_append] at hfind
    split at hfind
    · cases hfind
      rfl
    · cases hfind
  · intro pool thread choice act answer last hacts hlive
    cases act with
    | query query =>
        obtain ⟨-, rfl⟩ := AppWorld.perform_query hacts.performed
        exact hlive
    | command command =>
        exact AppWorld.live_apply hacts.allowed (AppWorld.perform_command hacts.performed) hlive
  · intro pool event last _ _ hreact hlive
    have hagree : Registry.Agree RegistryEntry.state pool.shared.registry last.registry :=
      (AppWorld.event_undisturbed (AppWorld.react_event hreact)).agree (fun _ _ _ _ => rfl)
    exact hlive.sinks hagree.sinks

variable {View : Type} {view : View} {discipline : Discipline Action Action.Answer View}
variable {guard : AppPool View → AppStep → Prop} {pool : AppPool View}

theorem live_of_reachable
    (hreach : (appSystem view discipline).machine.ReachableWhere guard pool) :
    pool.shared.registry.Live := by
  obtain ⟨views, hstaged⟩ := System.reachable_under Progress.fresh progressDiscipline hreach
  exact live_of_staged hstaged

end

/-! ## Handles over runs -/

namespace Registry

variable [Infra] {registry : Registry} {handle : ObjectHandle} {entry : RegistryEntry}

theorem resolve_ok {operation : String}
    (hfind : registry.findEntryLocked handle.id = some entry)
    (hgeneration : entry.generation = handle.generation) :
    registry.resolve operation handle = .ok entry := by
  rw [resolve, hfind]
  exact if_neg (not_not.mpr hgeneration)

theorem resolve_none {operation : String}
    (hgone : registry.findEntryLocked handle.id = none) :
    registry.resolve operation handle =
      .error (makeError .notFound (operation ++ ": object destroyed")) := by
  rw [resolve, hgone]

structure ShowsNothing (registry : Registry) (handle : ObjectHandle) : Prop where
  invalid : handle.isValid (some registry) = false
  info : handle.info (some registry) =
    .error (makeError .notFound "ObjectHandle: object destroyed")
  mailBox : handle.getMailBox (some registry) =
    .error (makeError .notFound "GetMailBox: object destroyed")

theorem ShowsNothing.of_gone (hgone : registry.findEntryLocked handle.id = none) :
    registry.ShowsNothing handle where
  invalid := by rw [ObjectHandle.isValid, handleValid, hgone]; rfl
  info := by rw [ObjectHandle.info, Registry.info, resolve_none hgone]; rfl
  mailBox := by rw [ObjectHandle.getMailBox, mailBoxOf, resolve_none hgone]; rfl

structure ShowsObject (registry : Registry) (id : ObjectId) (entry : RegistryEntry) : Prop where
  valid : (makeHandle id entry).isValid (some registry) = true
  info : ∃ state, (makeHandle id entry).info (some registry) =
    .ok { objectInfo id entry with state := state }
  mailBox : (makeHandle id entry).getMailBox (some registry) = addressOf id entry

theorem addressOf_same {later earlier : RegistryEntry} (id : ObjectId)
    (hsame : later.SameObject earlier) : addressOf id later = addressOf id earlier := by
  rw [addressOf, addressOf, hsame.typeName, hsame.name]

theorem ShowsObject.of_found {id : ObjectId} {later : RegistryEntry}
    (hlive : registry.Live) (hfind : registry.findEntryLocked id = some later)
    (hsame : later.SameObject entry) : registry.ShowsObject id entry where
  valid := by
    have hstate := hlive id later hfind
    rw [ObjectHandle.isValid, handleValid, makeHandle, hfind]
    refine decide_eq_true ⟨hsame.generation, ?_, ?_⟩
    · intro heq
      rw [heq] at hstate
      cases hstate
    · intro heq
      rw [heq] at hstate
      cases hstate
  info := by
    refine ⟨later.state, ?_⟩
    rw [ObjectHandle.info, Registry.info, resolve_ok hfind hsame.generation]
    change Except.ok (objectInfo id later) = _
    rw [objectInfo, objectInfo, hsame.generation, hsame.typeName, hsame.name, hsame.scope,
      hsame.owner]
  mailBox := by
    rw [ObjectHandle.getMailBox, mailBoxOf, resolve_ok hfind hsame.generation]
    exact addressOf_same id hsame

end Registry

section

variable [Infra] {View : Type} {view : View}
variable {discipline : Discipline Action Action.Answer View}
variable {guard : AppPool View → AppStep → Prop} {first pool : AppPool View}
variable {labels : List AppStep} {id : ObjectId} {entry : RegistryEntry}

/-- A handle shows one object, unchanged but for its state, until that is destroyed; from
then on it is invalid and shows that the object was destroyed, never that the handle is
stale or another object. -/
theorem handle_shows_one_object
    (hreach : (appSystem view discipline).machine.ReachableWhere guard first)
    (hfind : first.shared.registry.findEntryLocked id = some entry)
    (hrun : (appSystem view discipline).machine.Run guard first labels pool) :
    pool.shared.registry.ShowsObject id entry ∨
      ∀ rest later, (appSystem view discipline).machine.Run guard pool rest later →
        later.shared.registry.ShowsNothing (Registry.makeHandle id entry) := by
  have hnames := names_of_run hrun
  have hold := Registry.number_lt_of_find hfind
  cases hlast : pool.shared.registry.findEntryLocked id with
  | some last =>
      obtain ⟨earlier, hearlier, hsame⟩ := hnames.objects id last hold hlast
      obtain rfl := Option.some.inj (hfind.symm.trans hearlier)
      exact Or.inl (.of_found (live_of_reachable (hreach.run hrun)) hlast hsame)
  | none =>
      refine Or.inr (fun rest later hrest => .of_gone ?_)
      exact (names_of_run hrest).gone (Nat.lt_of_lt_of_le hold hnames.ids) hlast

theorem handleFor_shows {missing : String} {found : Option ObjectId} {handle : ObjectHandle}
    (hreach : (appSystem view discipline).machine.ReachableWhere guard pool)
    (hok : pool.shared.handleFor missing found = .ok handle) :
    ∃ id entry, found = some id ∧ pool.shared.registry.findEntryLocked id = some entry ∧
      handle = Registry.makeHandle id entry ∧ pool.shared.registry.ShowsObject id entry := by
  cases hfound : found with
  | none =>
      rw [hfound] at hok
      cases hok
  | some id =>
      cases hfind : pool.shared.registry.findEntryLocked id with
      | none =>
          rw [hfound, AppWorld.handleFor, Option.bind_some, hfind] at hok
          cases hok
      | some entry =>
          rw [hfound, AppWorld.handleFor, Option.bind_some, hfind] at hok
          exact ⟨id, entry, rfl, hfind, (Except.ok.inj hok).symm,
            .of_found (live_of_reachable hreach) hfind (.refl entry)⟩

/-- `FindService` returns a service of the name asked for, with its address. -/
theorem findService_shows {service : String} {handle : ObjectHandle}
    (hreach : (appSystem view discipline).machine.ReachableWhere guard pool)
    (hok : pool.shared.findService service = .ok handle) :
    (∃ info, handle.info (some pool.shared.registry) = .ok info ∧
      info.kind = .service ∧ info.typeName = service) ∧
    handle.getMailBox (some pool.shared.registry) = .ok (.service service "") := by
  obtain ⟨id, entry, hfound, hfind, rfl, hshows⟩ := handleFor_shows hreach hok
  obtain ⟨hkind, other, hother, htest⟩ :=
    Registry.mem_listWhere.mp (List.mem_of_head? hfound)
  obtain rfl := Option.some.inj (hfind.symm.trans hother)
  have htype : entry.typeName = service := of_decide_eq_true htest
  obtain ⟨state, hinfo⟩ := hshows.info
  refine ⟨⟨_, hinfo, hkind, htype⟩, ?_⟩
  rw [hshows.mailBox, Registry.addressOf, hkind, htype]

theorem findComponentImpl_shows {type name : String} {placement : ComponentOptions}
    {handle : ObjectHandle}
    (hreach : (appSystem view discipline).machine.ReachableWhere guard pool)
    (hok : pool.shared.findComponentImpl type name placement = .ok handle) :
    (∃ info, handle.info (some pool.shared.registry) = .ok info ∧ info.kind = .component ∧
      info.typeName = type ∧ info.name = name ∧ info.scope = placement.scope) ∧
    handle.getMailBox (some pool.shared.registry) = .error (makeError .invalidArgument
      "GetMailBox: only Service and Actor objects have addresses") := by
  unfold AppWorld.findComponentImpl at hok
  split at hok
  · cases hok
  · obtain ⟨id, entry, hfound, hfind, rfl, hshows⟩ := handleFor_shows hreach hok
    obtain ⟨hkind, -⟩ := Registry.findComponentLocked_some hfound
    obtain ⟨htype, hname⟩ := Registry.findComponentLocked_key hfound hfind
    obtain ⟨hscope, -⟩ := Registry.findComponentLocked_placed hfound hfind
    obtain ⟨state, hinfo⟩ := hshows.info
    refine ⟨⟨_, hinfo, hkind, htype, hname, hscope⟩, ?_⟩
    rw [hshows.mailBox, Registry.addressOf, hkind]

end

/-- The handle of a component before and after the component is uninstalled. -/
theorem handle_shows_one_object_uninstalled :
    letI := permissiveInfra
    ∃ first pool labels entry, plainSystem.machine.Reachable first ∧
      first.shared.registry.findEntryLocked ⟨.component, 1⟩ = some entry ∧
      plainSystem.machine.Run (fun _ _ => True) first labels pool ∧
      ∀ rest later, plainSystem.machine.Run (fun _ _ => True) pool rest later →
        later.shared.registry.ShowsNothing (Registry.makeHandle ⟨.component, 1⟩ entry) := by
  let _ := permissiveInfra
  have hboot : plainSystem.machine.Reachable
      (plainSystem.boot (AppWorld.fresh (.ok ()) 10 10)) :=
    .start ⟨_, start_fresh 10 10 (by decide), rfl⟩
  obtain ⟨first, pool, hreach, hrun, htest⟩ := hboot.exec_both (fun _ _ => true)
    (fun _ _ _ => trivial)
    (.spawn (.coInstallComponent "A" "a" ⟨.app, none⟩) :: List.replicate 8 (smoothStep 0))
    (.spawn (.coUninstallComponent "A" "a" ⟨.app, none⟩) :: List.replicate 5 (smoothStep 1) ++
      hookSteps 1 0 ++ List.replicate 4 (smoothStep 1))
    (fun first pool => (first.shared.registry.findEntryLocked ⟨.component, 1⟩).isSome ∧
      (pool.shared.registry.findEntryLocked ⟨.component, 1⟩).isNone) (by decide)
  obtain ⟨hsome, hnone⟩ := of_decide_eq_true htest
  obtain ⟨entry, hfind⟩ := Option.isSome_iff_exists.mp hsome
  refine ⟨first, pool, _, entry, hreach, hfind, hrun, ?_⟩
  rcases handle_shows_one_object hreach hfind hrun with hshows | hnothing
  · have hgone : pool.shared.registry.ShowsNothing (Registry.makeHandle ⟨.component, 1⟩ entry) :=
      .of_gone (Option.isNone_iff_eq_none.mp hnone)
    have hvalid := hshows.valid
    rw [hgone.invalid] at hvalid
    cases hvalid
  · exact hnothing

/-! ## Actors -/

def Registry.OnlyActorTypes (registry : Registry) : Prop :=
  ∀ id entry, id.kind = .actor → registry.findEntryLocked id = some entry → entry.name = ""

section

variable [Infra]

omit [Infra] in
theorem Registry.Admits.onlyActorTypes {before after : Registry}
    (hadmits : before.Admits after) (honly : before.OnlyActorTypes) :
    after.OnlyActorTypes := by
  cases hadmits with
  | ages _ hages =>
      intro id later hkind hfind
      obtain ⟨earlier, hearlier, hage⟩ := hages id later hfind
      rw [hage.name]
      exact honly id earlier hkind hearlier
  | created kind made _ _ hname _ hafter =>
      subst hafter
      intro id entry hkind hfind
      rw [findEntryLocked_append] at hfind
      split at hfind
      case isTrue heq =>
        cases hfind
        subst heq
        exact hname hkind _
      case isFalse => exact honly id entry hkind hfind
  | bound component edge _ _ hages =>
      intro id later hkind hfind
      obtain ⟨middle, hmiddle, hage⟩ := hages id later hfind
      rw [hage.name]
      rw [findEntryLocked_modify] at hmiddle
      split at hmiddle
      case isTrue heq =>
        obtain ⟨earlier, hearlier, rfl⟩ := Option.map_eq_some_iff.mp hmiddle
        exact honly id earlier hkind (heq ▸ hearlier)
      case isFalse => exact honly id middle hkind hmiddle

variable {View : Type} {view : View} {discipline : Discipline Action Action.Answer View}
variable {guard : AppPool View → AppStep → Prop} {pool : AppPool View}

theorem onlyActorTypes_of_reachable
    (hreach : (appSystem view discipline).machine.ReachableWhere guard pool) :
    pool.shared.registry.OnlyActorTypes := by
  refine hreach.induct (motive := fun pool => pool.shared.registry.OnlyActorTypes) ?_ ?_
  · rintro pool ⟨world, hstart, rfl⟩ id entry hkind hfind
    rw [AppWorld.find_start hstart hfind] at hkind
    cases hkind
  · intro pool label next _ ih _ hnext
    exact (AppWorld.next_admits hnext).onlyActorTypes ih

/-- No run registers an actor instance: `FindActor` finds none under a key, and the address a
handle of an actor gives is one that `Validate` refuses. -/
theorem no_actor_instances
    (hreach : (appSystem view discipline).machine.ReachableWhere guard pool) :
    (∀ type key, key ≠ "" → pool.shared.findActor type key =
        .error (makeError .notFound "FindActor: not found")) ∧
      ∀ handle address, handle.id.kind = .actor →
        pool.shared.registry.mailBoxOf handle = .ok address →
          address.validate =
            .error (makeError .invalidArgument "AppObjectAddress: actor type/key empty") := by
  have honly := onlyActorTypes_of_reachable hreach
  constructor
  · intro type key hkey
    have hnone : pool.shared.registry.findActorLocked type key = none := by
      cases hfound : pool.shared.registry.findActorLocked type key with
      | none => rfl
      | some id =>
          obtain ⟨hkind, entry, hfind, htest⟩ :=
            Registry.mem_listWhere.mp (List.mem_of_head? hfound)
          have hname := (of_decide_eq_true htest).2
          rw [honly id entry hkind hfind] at hname
          exact absurd hname.symm hkey
    rw [AppWorld.findActor, hnone]
    rfl
  · intro handle address hkind hmailBox
    rw [Registry.mailBoxOf] at hmailBox
    cases hresolve : pool.shared.registry.resolve "GetMailBox" handle with
    | error error =>
        rw [hresolve] at hmailBox
        cases hmailBox
    | ok entry =>
        rw [hresolve] at hmailBox
        have haddress : Registry.addressOf handle.id entry = .ok address := hmailBox
        have hfind : pool.shared.registry.findEntryLocked handle.id = some entry := by
          unfold Registry.resolve at hresolve
          split at hresolve
          · cases hresolve
          case h_2 found hfound =>
            split at hresolve
            · cases hresolve
            · cases hresolve
              exact hfound
        rw [Registry.addressOf, hkind, honly handle.id entry hkind hfind] at haddress
        cases haddress
        exact if_pos (Or.inr rfl)

end

/-- The type an installation registers, through its handle. -/
theorem no_actor_instances_installed :
    letI := permissiveInfra
    ∃ pool, plainSystem.machine.Reachable pool ∧
      pool.shared.findActor "T" "" = .ok ⟨true, ⟨.actor, 1⟩, 2⟩ ∧
      pool.shared.findActor "T" "k" =
        .error (makeError .notFound "FindActor: not found") ∧
      (AppObjectAddress.actor "T" "" "").validate =
        .error (makeError .invalidArgument "AppObjectAddress: actor type/key empty") := by
  let _ := permissiveInfra
  have hboot : plainSystem.machine.Reachable
      (plainSystem.boot (AppWorld.fresh (.ok ()) 10 10)) :=
    .start ⟨_, start_fresh 10 10 (by decide), rfl⟩
  obtain ⟨pool, hreach, htest⟩ := hboot.exec_any (fun _ _ => true) (fun _ _ _ => trivial)
    [.spawn (.coInstallActor (.ok ()) "T"), smoothStep 0, smoothStep 0]
    (fun pool => pool.shared.findActor "T" "" = .ok ⟨true, ⟨.actor, 1⟩, 2⟩ ∧
      pool.shared.registry.mailBoxOf ⟨true, ⟨.actor, 1⟩, 2⟩ = .ok (.actor "T" "" ""))
    (by decide)
  obtain ⟨hfound, hmailBox⟩ := of_decide_eq_true htest
  obtain ⟨hnone, hinvalid⟩ := no_actor_instances hreach
  exact ⟨pool, hreach, hfound, hnone "T" "k" (by decide), hinvalid _ _ rfl hmailBox⟩

end BbtFramework.App
