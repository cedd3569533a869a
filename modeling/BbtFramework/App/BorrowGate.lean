import BbtFramework.App.OperationStems
import BbtFramework.App.BorrowAccounting

/-!
# Components that are torn down

A teardown waits for the borrows of its component before it counts `OnStop`.  What keeps new
borrows away meanwhile is the gate that an uninstall closes, and for `CoStop` the state of the
component alone.  An installation of the component that is still under way writes that state;
as long as it does not make a component borrowable whose teardown has begun with its gate
open, no borrow succeeds from the beginning of the teardown on, and none is left when `OnStop`
is counted.
-/

namespace BbtFramework.App

open BbtFramework.Library

def ObjectState.borrowable : ObjectState → Bool
  | .running | .installed => true
  | _ => false

def RegistryEntry.Shut (entry : RegistryEntry) : Prop :=
  entry.gateClosed = true ∨ entry.state.borrowable = false

theorem RegistryEntry.not_shut {entry : RegistryEntry} (hgate : entry.gateClosed = false)
    (hstate : entry.state = .running ∨ entry.state = .installed) : ¬entry.Shut := by
  rintro (hclosed | hshut)
  · rw [hgate] at hclosed
    cases hclosed
  · obtain hrunning | hinstalled := hstate
    · rw [hrunning] at hshut
      cases hshut
    · rw [hinstalled] at hshut
      cases hshut

def Action.admits : Action → Option ObjectId
  | .command (.setState id state) => if state.borrowable then some id else none
  | _ => none

/-- A teardown that has begun stays so, a closed gate stays closed, a teardown that begins
shuts its object, and nothing but a state that the step writes makes it borrowable. -/
structure RegistryEntry.Fades (admitted : Prop) (later earlier : RegistryEntry) : Prop where
  phase : earlier.destroyPhase ≠ "" → later.destroyPhase ≠ ""
  gate : earlier.gateClosed = true → later.gateClosed = true
  begun : earlier.destroyPhase = "" → later.destroyPhase ≠ "" → later.Shut
  state : later.state.borrowable = true → earlier.state.borrowable = true ∨ admitted

/-- The components after a step are those before it, or new. -/
structure AppWorld.Fading (world : AppWorld) (asked : Option Action) (last : AppWorld) :
    Prop where
  ids : world.registry.nextIdSeq ≤ last.registry.nextIdSeq
  entries : ∀ id later, id.kind = .component →
    last.registry.findEntryLocked id = some later →
    (∃ earlier, world.registry.findEntryLocked id = some earlier ∧
      later.Fades (asked.bind Action.admits = some id) earlier) ∨
    (world.registry.nextIdSeq ≤ id.number ∧ later.destroyPhase = "")

theorem RegistryEntry.Fades.refl (admitted : Prop) (entry : RegistryEntry) :
    entry.Fades admitted entry :=
  ⟨id, id, fun hnone hsome => absurd hnone hsome, Or.inl⟩

namespace AppWorld

variable {world last : AppWorld} {asked : Option Action}

/-- Every component after the step was there before. -/
theorem Fading.of_relates (hids : world.registry.nextIdSeq ≤ last.registry.nextIdSeq)
    (hrelates : ∀ id later, id.kind = .component →
      last.registry.findEntryLocked id = some later →
      ∃ earlier, world.registry.findEntryLocked id = some earlier ∧
        later.Fades (asked.bind Action.admits = some id) earlier) :
    world.Fading asked last :=
  ⟨hids, fun id later hkind hfind => Or.inl (hrelates id later hkind hfind)⟩

theorem Fading.of_agree (hids : world.registry.nextIdSeq ≤ last.registry.nextIdSeq)
    (hagree : Registry.Agree
      (fun entry => (entry.destroyPhase, entry.gateClosed, entry.state))
      world.registry last.registry) : world.Fading asked last := by
  refine .of_relates hids ?_
  intro id later _ hfind
  obtain ⟨earlier, hearlier, hsame⟩ := hagree.find_some hfind
  simp only [Prod.mk.injEq] at hsame
  obtain ⟨hphase, hgate, hstate⟩ := hsame
  refine ⟨earlier, hearlier, ?_, ?_, ?_, ?_⟩
  · rw [hphase]
    exact fun hsome => hsome
  · rw [hgate]
    exact fun hclosed => hclosed
  · rw [hphase]
    exact fun hnone hsome => absurd hnone hsome
  · rw [hstate]
    exact Or.inl

theorem Fading.modify {id : ObjectId} {change : RegistryEntry → RegistryEntry}
    (hregistry : last.registry = world.registry.modify id change)
    (hchange : ∀ entry, id.kind = .component →
      world.registry.findEntryLocked id = some entry →
      (change entry).Fades (asked.bind Action.admits = some id) entry) :
    world.Fading asked last := by
  refine .of_relates (hregistry ▸ Nat.le_refl _) ?_
  intro other later hkind hfind
  rw [hregistry, Registry.findEntryLocked_modify] at hfind
  split at hfind
  case isTrue hsame =>
    obtain ⟨earlier, hearlier, rfl⟩ := Option.map_eq_some_iff.mp hfind
    subst hsame
    exact ⟨earlier, hearlier, hchange earlier hkind hearlier⟩
  case isFalse => exact ⟨later, hfind, .refl _ later⟩

theorem Fading.trans {middle : AppWorld} (hfirst : world.Fading asked middle)
    (hsecond : Registry.Agree
      (fun entry => (entry.destroyPhase, entry.gateClosed, entry.state))
      middle.registry last.registry)
    (hids : middle.registry.nextIdSeq ≤ last.registry.nextIdSeq) :
    world.Fading asked last := by
  refine ⟨Nat.le_trans hfirst.ids hids, ?_⟩
  intro id later hkind hfind
  obtain ⟨between, hbetween, hsame⟩ := hsecond.find_some hfind
  simp only [Prod.mk.injEq] at hsame
  obtain ⟨hphase, hgate, hstate⟩ := hsame
  obtain ⟨earlier, hearlier, hfades⟩ | ⟨hnew, hnone⟩ :=
    hfirst.entries id between hkind hbetween
  · refine Or.inl ⟨earlier, hearlier, ?_, ?_, ?_, ?_⟩
    · rw [← hphase]
      exact hfades.phase
    · rw [← hgate]
      exact hfades.gate
    · unfold RegistryEntry.Shut
      rw [← hphase, ← hgate, ← hstate]
      exact hfades.begun
    · rw [← hstate]
      exact hfades.state
  · exact Or.inr ⟨hnew, hphase ▸ hnone⟩

theorem Fading.takesDown [Infra] {kind : ObjectKind} {phase : String}
    {result : Except Error ObjectId × AppWorld} (hphase : kind = .component → phase ≠ "")
    (hresult : world.TakesDown kind phase result) : world.Fading asked result.2 := by
  obtain ⟨error, rfl⟩ | ⟨id, entry, hkind, hfind, -, -, rfl⟩ := hresult
  · exact .of_agree (Nat.le_refl _) (.refl _)
  · refine .modify rfl ?_
    intro earlier hcomponent _
    refine ⟨fun _ => hphase (hkind ▸ hcomponent), fun _ => rfl, fun _ _ => Or.inl rfl, ?_⟩
    intro hborrowable
    cases hborrowable

variable [Infra]

theorem apply_fading {command : Command} {choice : Choice} {answer : command.Answer}
    {role : Role} (hallowed : Role.allowsCommand command role)
    (happly : world.apply command choice = some (answer, last)) :
    world.Fading (some (.command command)) last := by
  have hids := (apply_framed happly).ids
  have hagree : command.Keeps
      (fun entry => (entry.destroyPhase, entry.gateClosed, entry.state)) →
      world.Fading (some (.command command)) last :=
    fun hkeeps => .of_agree hids ((apply_framed happly).agree hkeeps)
  by_cases hgrows : command.grows = true
  · obtain rfl | ⟨kind, hcreated⟩ | ⟨subject, key, id, component, edge, change, rfl, -, -⟩ :=
      apply_grows hgrows happly
    · exact .of_agree (Nat.le_refl _) (.refl _)
    · obtain ⟨typeName, name, scope, ownerId, object, rfl⟩ := hcreated
      refine ⟨hids, ?_⟩
      intro id later _ hfind
      rw [Registry.findEntryLocked_append] at hfind
      split at hfind
      case isTrue hnew =>
        cases hfind
        exact Or.inr ⟨Nat.le_of_eq (congrArg ObjectId.number hnew).symm, rfl⟩
      case isFalse => exact Or.inl ⟨later, hfind, .refl _ later⟩
    · exact hagree (by simp [Command.Keeps])
  have hstops : ∀ {id : ObjectId} {entry : RegistryEntry},
      world.registry.findEntryLocked id = some entry →
      world.Fading (some (.command command)) (world.store id { entry with
        opInProgress := true, destroyPhase := "stop", state := .stopping }) := by
    intro id entry hfind
    refine .modify rfl ?_
    intro known _ hknown
    obtain rfl := Option.some.inj (hfind.symm.trans hknown)
    refine ⟨fun _ => by simp, fun hclosed => hclosed, fun _ _ => Or.inr rfl, ?_⟩
    intro hborrowable
    cases hborrowable
  cases command with
  | createComponent key => exact absurd rfl hgrows
  | createService name allowed => exact absurd rfl hgrows
  | createActorType type => exact absurd rfl hgrows
  | finishDestroy id =>
      cases happly
      refine .of_relates hids ?_
      intro other later _ hfind
      change (world.registry.remove id).findEntryLocked other = some later at hfind
      rw [Registry.findEntryLocked_remove] at hfind
      split at hfind
      · cases hfind
      · exact ⟨later, hfind, .refl _ later⟩
  | setState id state =>
      cases happly
      refine .modify rfl ?_
      intro entry _ _
      refine ⟨fun hsome => hsome, fun hclosed => hclosed,
        fun hnone hsome => absurd hnone hsome, ?_⟩
      intro hborrowable
      exact Or.inr (if_pos hborrowable)
  | abortDestroy id phase incomplete =>
      cases happly
      obtain ⟨-, hphase, hincomplete⟩ := hallowed
      have hshut : incomplete.borrowable = false := by
        obtain rfl | rfl := hincomplete
        · rfl
        · rfl
      refine .modify rfl ?_
      intro entry _ _
      refine ⟨fun _ => hphase, fun hclosed => hclosed, fun _ _ => Or.inr hshut, ?_⟩
      intro hborrowable
      rw [hshut] at hborrowable
      cases hborrowable
  | beginStopComponent id =>
      replace happly := Option.some.inj happly
      obtain heq | ⟨entry, hfind, -, heq⟩ := world.beginStopComponent_cases id
      · cases heq.symm.trans happly
        exact .of_agree (Nat.le_refl _) (.refl _)
      · cases heq.symm.trans happly
        exact hstops hfind
  | beginStopService id =>
      replace happly := Option.some.inj happly
      obtain heq | ⟨entry, hfind, -, heq⟩ := world.beginStopService_cases id
      · cases heq.symm.trans happly
        exact .of_agree (Nat.le_refl _) (.refl _)
      · cases heq.symm.trans happly
        refine (hstops hfind).trans (Registry.agree_modifyAll ?_) (Nat.le_refl _)
        intro other component _
        split
        · rfl
        · rfl
  | beginUninstallComponent key =>
      have hresult : world.Fading (some (.command (.beginUninstallComponent key)))
          (world.beginUninstallComponent key).2 :=
        .takesDown (fun _ => by decide) (world.beginUninstallComponent_takesDown key)
      rw [Option.some.inj happly] at hresult
      exact hresult
  | beginUninstallService name =>
      have hresult : world.Fading (some (.command (.beginUninstallService name)))
          (world.beginUninstallService name).2 :=
        .takesDown (fun _ => by decide) (world.beginUninstallService_takesDown name)
      rw [Option.some.inj happly] at hresult
      exact hresult
  | beginUninstallActorType type =>
      have hresult : world.Fading (some (.command (.beginUninstallActorType type)))
          (world.beginUninstallActorType type).2 :=
        .takesDown (fun hkind => by cases hkind) (world.beginUninstallActorType_takesDown type)
      rw [Option.some.inj happly] at hresult
      exact hresult
  | _ => exact hagree (by simp [Command.Keeps])

theorem event_fading {event : Event} (hevent : world.event event = some last) :
    world.Fading none last :=
  .of_agree (Nat.le_of_eq (event_undisturbed hevent).ids.symm)
    ((event_undisturbed hevent).agree (fun _ _ _ _ => rfl))

theorem event_leasesOn {event : Event} (hevent : world.event event = some last)
    (id : ObjectId) : last.leasesOn id ≤ world.leasesOn id ∨
      ∃ entry, world.registry.findEntryLocked id = some entry ∧ ¬entry.Shut := by
  have hsame : last.leases = world.leases → last.leasesOn id ≤ world.leasesOn id := by
    intro hleases
    rw [leasesOn, leasesOn, hleases]
  cases event with
  | borrow object generation allow =>
      simp only [AppWorld.event] at hevent
      split at hevent
      · cases hevent
        exact Or.inl (Nat.le_refl _)
      case h_2 lease registry hborrow =>
        cases hevent
        obtain ⟨entry, edge, hfind, hgate, hstate, -, -, -, -, rfl, rfl⟩ :=
          Registry.borrowImpl_ok hborrow
        by_cases hobject : object.id = id
        · exact Or.inr ⟨entry, hobject ▸ hfind, RegistryEntry.not_shut hgate hstate⟩
        · refine Or.inl ?_
          rw [leasesOn, List.countP_cons, if_neg (by simpa using hobject)]
          exact Nat.le_refl _
  | release lease =>
      simp only [AppWorld.event] at hevent
      split at hevent
      · cases hevent
        exact Or.inl (List.Sublist.countP_le List.erase_sublist)
      · cases hevent
  | notifyHook task =>
      simp only [AppWorld.event] at hevent
      split at hevent
      case h_1 object hook notify result hfind =>
        cases hevent
        cases notify
        · exact Or.inl (hsame rfl)
        · exact Or.inl (hsame rfl)
      · cases hevent
  | _ =>
      simp only [AppWorld.event] at hevent
      split at hevent
      · cases hevent
        exact Or.inl (hsame rfl)
      · cases hevent

end AppWorld

/-- A teardown of the object has begun; the object may be destroyed by now. -/
structure AppWorld.TornDown (world : AppWorld) (id : ObjectId) : Prop where
  known : id.number < world.registry.nextIdSeq
  phase : ∀ entry, world.registry.findEntryLocked id = some entry → entry.destroyPhase ≠ ""

/-- No component whose teardown has begun can be borrowed. -/
def AppWorld.TornDownShut (world : AppWorld) : Prop :=
  ∀ (id : ObjectId) entry, id.kind = .component →
    world.registry.findEntryLocked id = some entry → entry.destroyPhase ≠ "" → entry.Shut

namespace AppWorld

variable {world last : AppWorld} {asked : Option Action} {id : ObjectId}

theorem TornDown.of_entry {entry : RegistryEntry}
    (hfind : world.registry.findEntryLocked id = some entry)
    (hphase : entry.destroyPhase ≠ "") : world.TornDown id := by
  refine ⟨Registry.number_lt_of_find hfind, ?_⟩
  intro known hknown
  obtain rfl := Option.some.inj (hfind.symm.trans hknown)
  exact hphase

theorem TornDown.step (htorn : world.TornDown id) (hkind : id.kind = .component)
    (hfading : world.Fading asked last) : last.TornDown id := by
  refine ⟨Nat.lt_of_lt_of_le htorn.known hfading.ids, ?_⟩
  intro later hfind
  obtain ⟨earlier, hearlier, hfades⟩ | ⟨hnew, -⟩ := hfading.entries id later hkind hfind
  · exact hfades.phase (htorn.phase earlier hearlier)
  · exact absurd htorn.known (Nat.not_lt.mpr hnew)

theorem TornDownShut.step (hshut : world.TornDownShut) (hfading : world.Fading asked last)
    (hheld : ∀ id, asked.bind Action.admits = some id → id.kind = .component →
      ∀ entry, world.registry.findEntryLocked id = some entry → entry.destroyPhase ≠ "" →
        entry.gateClosed = true) : last.TornDownShut := by
  intro id later hkind hfind hphase
  obtain ⟨earlier, hearlier, hfades⟩ | ⟨-, hnone⟩ := hfading.entries id later hkind hfind
  · by_cases hbefore : earlier.destroyPhase = ""
    · exact hfades.begun hbefore hphase
    · by_cases hborrowable : later.state.borrowable = false
      · exact Or.inr hborrowable
      · refine Or.inl (hfades.gate ?_)
        obtain hopen | hadmitted := hfades.state (eq_true_of_ne_false hborrowable)
        · obtain hgate | hclosed := hshut id earlier hkind hearlier hbefore
          · exact hgate
          · rw [hopen] at hclosed
            cases hclosed
        · exact hheld id hadmitted hkind earlier hearlier hbefore
  · exact absurd hnone hphase

variable [Infra]

theorem TornDown.refuses (htorn : world.TornDown id) (hkind : id.kind = .component)
    (hshut : world.TornDownShut) {object : ObjectHandle} (hobject : object.id = id)
    (generation : Nat) (allow : Bool) :
    ∃ error, world.registry.borrowImpl object generation allow = .error error := by
  cases hborrow : world.registry.borrowImpl object generation allow with
  | error error => exact ⟨error, rfl⟩
  | ok result =>
      exfalso
      obtain ⟨entry, edge, hfind, hgate, hstate, -⟩ := Registry.borrowImpl_ok hborrow
      rw [hobject] at hfind
      exact RegistryEntry.not_shut hgate hstate
        (hshut id entry hkind hfind (htorn.phase entry hfind))

theorem TornDown.leasesOn {event : Event} (htorn : world.TornDown id)
    (hkind : id.kind = .component) (hshut : world.TornDownShut)
    (hevent : world.event event = some last) : last.leasesOn id ≤ world.leasesOn id := by
  obtain hle | ⟨entry, hfind, hopen⟩ := event_leasesOn hevent id
  · exact hle
  · exact absurd (hshut id entry hkind hfind (htorn.phase entry hfind)) hopen

end AppWorld

section

variable [Infra]

def Action.tearsDown (world : AppWorld) : Action → Option ObjectId
  | .command (.beginStopComponent id) =>
      if (world.beginStopComponent id).1 then some id else none
  | .command (.beginUninstallComponent key) =>
      (world.beginUninstallComponent key).1.toOption
  | _ => none

namespace AppWorld

variable {world last : AppWorld} {choice : Choice} {act : Action} {answer : act.Answer}

/-- The phase of the component says so afterwards. -/
theorem begun_of_tearsDown {id : ObjectId}
    (hperform : world.perform act choice = some (answer, last))
    (htears : act.tearsDown world = some id) :
    ∃ entry, last.registry.findEntryLocked id = some entry ∧ entry.destroyPhase ≠ "" := by
  have hmodified : ∀ {change : RegistryEntry → RegistryEntry} {entry : RegistryEntry},
      last.registry = world.registry.modify id change →
      world.registry.findEntryLocked id = some entry → (change entry).destroyPhase ≠ "" →
      ∃ entry, last.registry.findEntryLocked id = some entry ∧ entry.destroyPhase ≠ "" := by
    intro change entry hregistry hfind hphase
    refine ⟨change entry, ?_, hphase⟩
    rw [hregistry, Registry.findEntryLocked_modify, if_pos rfl, hfind]
    rfl
  cases act with
  | query query => cases htears
  | command command =>
      have happly := perform_command hperform
      cases command with
      | beginStopComponent component =>
          replace happly := Option.some.inj happly
          simp only [Action.tearsDown] at htears
          obtain heq | ⟨entry, hfind, -, heq⟩ := world.beginStopComponent_cases component
          · rw [heq] at htears
            cases htears
          · rw [heq] at htears
            cases htears
            cases heq.symm.trans happly
            exact hmodified rfl hfind (by simp)
      | beginUninstallComponent key =>
          replace happly := Option.some.inj happly
          simp only [Action.tearsDown] at htears
          obtain ⟨error, heq⟩ | ⟨component, entry, -, hfind, -, -, heq⟩ :=
            world.beginUninstallComponent_takesDown key
          · rw [heq] at htears
            cases htears
          · rw [heq] at htears
            cases htears
            cases heq.symm.trans happly
            exact hmodified rfl hfind (by simp)
      | _ => cases htears

theorem tearsDown_of_takesUp {role : Role} {op : Operation} (hallowed : Role.allows act role)
    (hperform : world.perform act choice = some (answer, last))
    (htakes : act.takesUp world role = some op) (hcloses : op.kind.closes = true)
    (hkind : op.object.kind = .component) : act.tearsDown world = some op.object := by
  have hpossible := perform_possible hperform
  cases act with
  | query query =>
      cases query with
      | findActor id =>
          cases htakes
          cases hkind.symm.trans hallowed.2.2
      | _ => cases htakes
  | command command =>
      have happly := perform_command hperform
      cases command with
      | createComponent key =>
          obtain ⟨id, -, rfl⟩ := Option.map_eq_some_iff.mp htakes
          cases hcloses
      | createService name allowed =>
          obtain ⟨service, -, rfl⟩ := Option.map_eq_some_iff.mp htakes
          cases hcloses
      | setState id state =>
          simp only [Action.takesUp] at htakes
          split at htakes
          · cases htakes
            cases hcloses
          · cases htakes
      | checkSettled id hook =>
          simp only [Action.takesUp] at htakes
          split at htakes
          · cases htakes
            split at hcloses
            · cases hcloses
            · cases hcloses
          · cases htakes
      | beginStopService id =>
          simp only [Action.takesUp] at htakes
          split at htakes
          · cases htakes
            cases hkind.symm.trans hallowed.2.2
          · cases htakes
      | beginStopComponent id =>
          simp only [Action.takesUp] at htakes
          simp only [Action.tearsDown]
          split at htakes
          case isTrue hbegun =>
            cases htakes
            exact if_pos hbegun
          · cases htakes
      | beginUninstallComponent key =>
          obtain ⟨id, hid, rfl⟩ := Option.map_eq_some_iff.mp htakes
          exact hid
      | beginUninstallService name =>
          simp only [Action.takesUp, Option.some.inj happly] at htakes
          obtain ⟨id, hid, rfl⟩ := Option.map_eq_some_iff.mp htakes
          change Except Error ObjectId at answer
          cases answer with
          | error error => cases hid
          | ok made =>
              cases hid
              cases hkind.symm.trans (hpossible _ rfl)
      | beginUninstallActorType type =>
          simp only [Action.takesUp, Option.some.inj happly] at htakes
          obtain ⟨id, hid, rfl⟩ := Option.map_eq_some_iff.mp htakes
          change Except Error ObjectId at answer
          cases answer with
          | error error => cases hid
          | ok made =>
              cases hid
              cases hkind.symm.trans (hpossible _ rfl)
      | _ => cases htakes

end AppWorld

end

/-! ## Over runs -/

/-- A teardown has begun on its component, which is there, and once it has seen the component
drained there is no lease on it. -/
structure Operation.Shutting (world : AppWorld) (op : Operation) : Prop where
  torn : world.TornDown op.object
  present : (world.registry.findEntryLocked op.object).isSome = true
  drained : op.drained = true → world.leasesOn op.object = 0

/-- No component whose teardown has begun can be borrowed, the teardowns know of their
components what is true, and no lease is left where `OnStop` was counted. -/
structure BorrowsEnd (world : AppWorld) (views : Nat → Role) : Prop where
  shut : world.TornDownShut
  operations : ∀ thread op, (views thread).operation = some op → op.kind.closes = true →
    op.object.kind = .component → op.Shutting world
  stopped : ∀ task ∈ world.tasks, task.hook = .onStop → task.object.kind = .component →
    world.TornDown task.object ∧ world.leasesOn task.object = 0

section

variable [Infra]

/-- The state of no component is made borrowable whose teardown has begun with its gate
open. -/
def StatesHeld {View : Type} (pool : AppPool View) (label : AppStep) : Prop :=
  ∀ id ∈ (pool.asked label).bind Action.admits, id.kind = .component →
    ∀ entry ∈ pool.shared.registry.findEntryLocked id, entry.destroyPhase ≠ "" →
      entry.gateClosed = true

instance {View : Type} (pool : AppPool View) (label : AppStep) :
    Decidable (StatesHeld pool label) :=
  inferInstanceAs (Decidable (∀ id ∈ _, _ → ∀ entry ∈ _, _ → _ = true))

namespace Operation.Shutting

variable {world last : AppWorld} {asked : Option Action} {op later : Operation}

omit [Infra] in
theorem step (hshutting : op.Shutting world) (hkind : op.object.kind = .component)
    (hfading : world.Fading asked last)
    (hpresent : (last.registry.findEntryLocked op.object).isSome = true)
    (hleases : last.leasesOn op.object ≤ world.leasesOn op.object) : op.Shutting last where
  torn := hshutting.torn.step hkind hfading
  present := hpresent
  drained := by
    intro hdrained
    exact Nat.le_zero.mp (hshutting.drained hdrained ▸ hleases)

omit [Infra] in
theorem goes (hshutting : op.Shutting last) (haccounted : world.Accounted)
    (hgoes : later.Goes world last op) : later.Shutting last := by
  refine ⟨hgoes.object ▸ hshutting.torn, hgoes.object ▸ hshutting.present, ?_⟩
  intro hlater
  rw [hgoes.object]
  obtain hdrained | ⟨rfl, hborrows⟩ := hgoes.drained hlater
  · exact hshutting.drained hdrained
  · obtain ⟨entry, hfind⟩ := Option.isSome_iff_exists.mp hshutting.present
    rw [← (haccounted.balanced op.object entry hfind).total]
    simpa [Registry.borrowsDrained, hfind] using hborrows

end Operation.Shutting

namespace AppWorld

variable {world last : AppWorld} {views : Nat → Role} {thread : Nat} {choice : Choice}
variable {act : Action} {answer : act.Answer}

theorem perform_fading (hallowed : Role.allows act (views thread))
    (hperform : world.perform act choice = some (answer, last)) :
    world.Fading (some act) last := by
  cases act with
  | query query =>
      obtain ⟨-, rfl⟩ := perform_query hperform
      exact .of_agree (Nat.le_refl _) (.refl _)
  | command command => exact apply_fading hallowed (perform_command hperform)

theorem perform_leases (hperform : world.perform act choice = some (answer, last)) :
    last.leases = world.leases := by
  cases act with
  | query query =>
      obtain ⟨-, rfl⟩ := perform_query hperform
      rfl
  | command command => exact (apply_framed (perform_command hperform)).leases

/-- The component of a teardown is destroyed by that teardown alone. -/
theorem perform_present (hdrained : Drained world views)
    (hallowed : Role.allows act (views thread))
    (hperform : world.perform act choice = some (answer, last)) {other : Nat} {op : Operation}
    (hop : (views other).operation = some op) (hcloses : op.kind.closes = true)
    (hkind : op.object.kind = .component)
    (hpresent : (world.registry.findEntryLocked op.object).isSome = true) :
    (last.registry.findEntryLocked op.object).isSome = true ∨
      (other = thread ∧ (Role.after act answer (views thread)).operation = none) := by
  have hmarks : ∀ {op : Operation}, op.kind.closes = true → op.object.kind = .component →
      op.marks = true := by
    intro op hcloses hkind
    exact Operation.marks_of_closes hcloses (by rw [hkind]; decide)
  obtain ⟨entry, hfind⟩ := Option.isSome_iff_exists.mp hpresent
  cases act with
  | query query =>
      obtain ⟨-, rfl⟩ := perform_query hperform
      exact Or.inl hpresent
  | command command =>
      obtain ⟨later, hlater, -⟩ | rfl := apply_stays (perform_command hperform) hfind
      · exact Or.inl (Option.isSome_of_eq_some hlater)
      · refine Or.inr ⟨?_, rfl⟩
        obtain ⟨⟨own, hown, hobject, hownCloses, -⟩, -⟩ := hallowed
        exact hdrained.alone other thread op own hop (hmarks hcloses hkind) hown
          (hmarks hownCloses (hobject ▸ hkind)) hobject.symm

end AppWorld

section

variable {pool : AppPool Role} {guard : AppPool Role → AppStep → Prop}

theorem borrowsEnd_of_reachable
    (hreach : knowingSystem.machine.ReachableWhere StatesHeld pool) :
    BorrowsEnd pool.shared pool.views := by
  refine knowingSystem_disciplined.invariant (motive := BorrowsEnd) ?_ ?_ ?_ hreach
  · rintro world ⟨options, maxObjects, maxBindings, -, rfl⟩
    refine ⟨?_, ?_, fun _ hmem => absurd hmem List.not_mem_nil⟩
    · intro id entry hkind hfind hphase
      change (AppWorld.freshRegistry maxObjects maxBindings).findEntryLocked id = some entry
        at hfind
      rw [AppWorld.freshRegistry, Registry.findEntryLocked_append] at hfind
      split at hfind
      · cases hfind
        exact absurd rfl hphase
      · cases hfind
    · intro thread op hop
      cases hop
  · intro pool thread choice act answer last hacts hend
    have hdrained := drained_of_reachable hacts.reach
    have hfading := AppWorld.perform_fading hacts.allowed hacts.performed
    have hleases : ∀ id, last.leasesOn id = pool.shared.leasesOn id := by
      intro id
      rw [AppWorld.leasesOn, AppWorld.perform_leases hacts.performed]
      rfl
    obtain ⟨rest, hthread⟩ := hacts.asked
    have hasked : pool.asked (.step thread choice : AppStep) = some act :=
      Pool.asked_call hthread
    have hstays : ∀ {other : Nat} {op : Operation}, (pool.views other).operation = some op →
        op.kind.closes = true → op.object.kind = .component →
        (other = thread → (Role.after act answer (pool.views thread)).operation ≠ none) →
        op.Shutting last := by
      intro other op hop hcloses hkind hworks
      have hshutting := hend.operations other op hop hcloses hkind
      refine hshutting.step hkind hfading ?_ (Nat.le_of_eq (hleases _))
      obtain hpresent | ⟨hsame, hnone⟩ := AppWorld.perform_present hdrained hacts.allowed
        hacts.performed hop hcloses hkind hshutting.present
      · exact hpresent
      · exact absurd hnone (hworks hsame)
    refine ⟨hend.shut.step hfading ?_, ?_, ?_⟩
    · rw [← hasked]
      exact hacts.guarded
    · intro other later hlater hcloses hkind
      by_cases hsame : other = thread
      · rw [hsame, Function.update_self] at hlater
        obtain ⟨op, hop, hgoes⟩ | ⟨op, htakes, hobject, hsort, hnever⟩ :=
          (Role.stems hacts.allowed hacts.performed hlater).traced
        · refine (hstays hop (hgoes.kind ▸ hcloses) (hgoes.object ▸ hkind) ?_).goes
            hdrained.accounted hgoes
          exact fun _ hnone => Option.some_ne_none _ (hlater.symm.trans hnone)
        · have htears := AppWorld.tearsDown_of_takesUp hacts.allowed hacts.performed htakes
            (hsort ▸ hcloses) (hobject ▸ hkind)
          obtain ⟨entry, hfind, hphase⟩ := AppWorld.begun_of_tearsDown hacts.performed htears
          rw [← hobject] at hfind
          refine ⟨.of_entry hfind hphase, Option.isSome_of_eq_some hfind, ?_⟩
          intro hsaw
          rw [hnever] at hsaw
          cases hsaw
      · rw [Function.update_of_ne hsame] at hlater
        exact hstays hlater hcloses hkind (fun heq => absurd heq hsame)
    · intro task hmem hhook hkind
      obtain ⟨earlier, hearlier, hobject, hsame⟩ | htaken :=
        (AppWorld.perform_taskStep hacts.performed).mem hmem
      · obtain ⟨htorn, hnone⟩ := hend.stopped earlier hearlier (hsame.trans hhook)
          (hobject ▸ hkind)
        rw [hobject] at htorn hnone
        exact ⟨htorn.step hkind hfading, (hleases _).trans hnone⟩
      · obtain rfl := Option.some.inj htaken
        obtain ⟨op, hop, hobject, -, -, hstop⟩ := hacts.allowed
        obtain ⟨hcloses, hdrains⟩ := hstop hhook
        have hshutting := hend.operations thread op hop hcloses (hobject ▸ hkind)
        rw [← hobject]
        exact ⟨hshutting.torn.step (hobject ▸ hkind) hfading,
          (hleases _).trans (hshutting.drained (hdrains hkind))⟩
  · intro pool event last hreach _ hreact hend
    have hevent := AppWorld.react_event hreact
    have hfading := AppWorld.event_fading hevent
    have hhooks : TaskStep none pool.shared last := AppWorld.event_taskStep hevent
    refine ⟨hend.shut.step hfading ?_, ?_, ?_⟩
    · intro id hadmits
      cases hadmits
    · intro thread op hop hcloses hkind
      have hshutting := hend.operations thread op hop hcloses hkind
      exact hshutting.step hkind hfading (AppWorld.event_stays hevent hshutting.present)
        (hshutting.torn.leasesOn hkind hend.shut hevent)
    · intro task hmem hhook hkind
      obtain ⟨earlier, hearlier, hobject, hsame⟩ | htaken :=
        hhooks.mem hmem
      · obtain ⟨htorn, hnone⟩ := hend.stopped earlier hearlier (hsame.trans hhook)
          (hobject ▸ hkind)
        rw [hobject] at htorn hnone
        exact ⟨htorn.step hkind hfading,
          Nat.le_zero.mp (hnone ▸ htorn.leasesOn hkind hend.shut hevent)⟩
      · cases htaken

end

/-! ## Borrows and teardowns -/

theorem next_fading {pool next : AppPool Role} {label : AppStep}
    (hreach : knowingSystem.machine.Reachable pool)
    (hnext : knowingSystem.next pool label = some next) :
    pool.shared.Fading (pool.asked label) next.shared := by
  cases label with
  | spawn entry =>
      cases hnext
      exact .of_agree (Nat.le_refl _) (.refl _)
  | step thread choice =>
      have hfollows := knowingSystem_disciplined.follows hreach thread
      obtain ⟨-, act, rest, answer, last, hthread, hperform, rfl⟩ := System.next_step hnext
      rw [hthread] at hfollows
      have hasked : pool.asked (.step thread choice : AppStep) = some act :=
        Pool.asked_call hthread
      rw [hasked]
      exact AppWorld.perform_fading hfollows.1 hperform
  | env event =>
      obtain ⟨last, hreact, rfl⟩ := Option.map_eq_some_iff.mp hnext
      exact AppWorld.event_fading (AppWorld.react_event hreact)

omit [Infra] in
/-- No lease is left on a component whose `OnStop` has been counted. -/
def AppWorld.StopsUnborrowed (world : AppWorld) : Prop :=
  ∀ task ∈ world.tasks, task.hook = .onStop → task.object.kind = .component →
    ∀ lease ∈ world.leases, lease.componentId ≠ task.object

def Registry.Refuses (registry : Registry) (id : ObjectId) : Prop :=
  ∀ (object : ObjectHandle) (generation : Nat) (allow : Bool), object.id = id →
    ∃ error, registry.borrowImpl object generation allow = .error error

/-- No lease is left where `OnStop` was counted, and no borrow on a component succeeds in a
run that goes on from the beginning of its teardown. -/
def NoBorrowOutlives (guard : AppPool Unit → AppStep → Prop) (pool : AppPool Unit) : Prop :=
  pool.shared.StopsUnborrowed ∧
    ∀ label next id, id.kind = .component → guard pool label →
      plainSystem.machine.next pool label = some next →
      (pool.asked label).bind (Action.tearsDown pool.shared) = some id →
      ∀ labels later, plainSystem.machine.Run guard next labels later →
        later.shared.registry.Refuses id

section

variable {pool next : AppPool Unit} {label : AppStep} {id : ObjectId}

theorem borrowsEnd_of_plain (hreach : plainSystem.machine.ReachableWhere StatesHeld pool) :
    ∃ views, BorrowsEnd pool.shared views := by
  obtain ⟨views, hviews⟩ := System.reachable_under Role.fresh appDiscipline hreach
  have hknowing : knowingSystem.machine.ReachableWhere StatesHeld (System.viewed pool views) :=
    hviews.mono (fun _ _ hheld => hheld.elim (fun _ hstep => hstep))
  exact ⟨views, borrowsEnd_of_reachable hknowing⟩

/-- A teardown that has begun stays so. -/
theorem tornDown_next (hreach : plainSystem.machine.Reachable pool)
    (hnext : plainSystem.machine.next pool label = some next) (hkind : id.kind = .component)
    (htorn : pool.shared.TornDown id) : next.shared.TornDown id := by
  obtain ⟨views, hviews⟩ := System.reachable_under Role.fresh appDiscipline hreach
  obtain ⟨after, hafter⟩ := System.next_under Role.fresh appDiscipline views hnext
  have hknowing : knowingSystem.machine.Reachable (System.viewed pool views) :=
    hviews.reachable
  have hfading := next_fading hknowing hafter
  exact AppWorld.TornDown.step htorn hkind hfading

theorem tornDown_run {guard : AppPool Unit → AppStep → Prop} {labels : List AppStep}
    {later : AppPool Unit} (hreach : plainSystem.machine.ReachableWhere guard pool)
    (hrun : plainSystem.machine.Run guard pool labels later) (hkind : id.kind = .component)
    (htorn : pool.shared.TornDown id) : later.shared.TornDown id := by
  induction hrun with
  | refl => exact htorn
  | tail hbefore _ hnext ih =>
      exact tornDown_next (hreach.run hbefore).reachable hnext hkind ih

theorem tornDown_of_begins (hnext : plainSystem.machine.next pool label = some next)
    (htears : (pool.asked label).bind (Action.tearsDown pool.shared) = some id) :
    next.shared.TornDown id := by
  cases label with
  | spawn entry => cases htears
  | env event => cases htears
  | step thread choice =>
      obtain ⟨-, act, rest, answer, last, hthread, hperform, rfl⟩ := System.next_step hnext
      rw [Pool.asked_call hthread, Option.bind_some] at htears
      obtain ⟨entry, hfind, hphase⟩ := AppWorld.begun_of_tearsDown hperform htears
      exact .of_entry hfind hphase

/-- In a run that makes no component borrowable whose teardown has begun with its gate open,
no borrow outlives its component. -/
theorem no_borrow_outlives (hreach : plainSystem.machine.ReachableWhere StatesHeld pool) :
    NoBorrowOutlives StatesHeld pool := by
  constructor
  · obtain ⟨views, hend⟩ := borrowsEnd_of_plain hreach
    intro task hmem hhook hkind lease hlease hcomponent
    obtain ⟨-, hnone⟩ := hend.stopped task hmem hhook hkind
    rw [AppWorld.leasesOn, List.countP_eq_zero] at hnone
    exact hnone lease hlease (decide_eq_true hcomponent)
  · intro label next id hkind hguard hnext htears labels later hrun object generation allow
      hobject
    have hbegun := hreach.step hguard hnext
    obtain ⟨views, hend⟩ := borrowsEnd_of_plain (hbegun.run hrun)
    exact (tornDown_run hbegun hrun hkind (tornDown_of_begins hnext htears)).refuses hkind
      hend.shut hobject generation allow

end

end

/-- The second of two components has bound and borrowed the first one; a stop has torn it
down and comes to the first one. -/
def borrowedSteps : List AppStep :=
  [.spawn (.coInstallComponent "A" "a" ⟨.app, none⟩),
    .spawn (.coInstallComponent "B" "b" ⟨.app, none⟩)] ++
    List.replicate 8 (smoothStep 0) ++ List.replicate 8 (smoothStep 1) ++
    [.spawn (.coBindComponent "A" ⟨true, ⟨.component, 2⟩, 3⟩ "a" ⟨.app, none⟩),
      smoothStep 2, smoothStep 2, .env (.borrow ⟨true, ⟨.component, 1⟩, 2⟩ 4 true),
      .spawn .coStop] ++
    List.replicate 8 (smoothStep 3) ++ hookSteps 3 0 ++ List.replicate 4 (smoothStep 3)

/-- The teardown of the first one waits until the lease is given back, and goes on to
`OnStop`. -/
def onStopSteps : List AppStep :=
  [smoothStep 3, smoothStep 3, .env (.release ⟨⟨.component, 1⟩, ⟨.component, 2⟩, 4⟩),
    .step 3 .proceed, smoothStep 3, smoothStep 3, .step 3 (.submission .accepted),
    .env (.beginHook 1)]

/-- The teardown begins while the component is borrowed; when its hook is executed the lease
has been given back, and no borrow succeeds. -/
theorem no_borrow_outlives_stopped :
    letI := permissiveInfra
    ∃ pool labels later, plainSystem.machine.ReachableWhere StatesHeld pool ∧
      pool.shared.leases = [⟨⟨.component, 1⟩, ⟨.component, 2⟩, 4⟩] ∧
      plainSystem.machine.Run StatesHeld pool labels later ∧
      later.shared.tasks.getLast? = some ⟨⟨.component, 1⟩, .onStop, .executing⟩ ∧
      later.shared.StopsUnborrowed ∧ later.shared.registry.Refuses ⟨.component, 1⟩ := by
  let _ := permissiveInfra
  have hboot : plainSystem.machine.ReachableWhere StatesHeld
      (plainSystem.boot (AppWorld.fresh (.ok ()) 10 10)) :=
    .start ⟨_, start_fresh 10 10 (by decide), rfl⟩
  obtain ⟨pool, later, hreach, hrun, htest⟩ := hboot.exec_both
    (fun pool label => decide (StatesHeld pool label)) (fun _ _ => of_decide_eq_true)
    borrowedSteps onStopSteps
    (fun pool later => decide
      ((pool.asked (smoothStep 3)).bind (Action.tearsDown pool.shared) =
          some ⟨.component, 1⟩ ∧
        pool.shared.leases = [⟨⟨.component, 1⟩, ⟨.component, 2⟩, 4⟩] ∧
        later.shared.tasks.getLast? = some ⟨⟨.component, 1⟩, .onStop, .executing⟩))
    (by decide)
  obtain ⟨htears, hleases, htasks⟩ := of_decide_eq_true htest
  obtain ⟨next, hguard, hnext, hrest⟩ := hrun.uncons
  exact ⟨pool, _, later, hreach, hleases, hrun, htasks,
    (no_borrow_outlives (hreach.run hrun)).1,
    (no_borrow_outlives hreach).2 _ next _ rfl hguard hnext htears _ later hrest⟩

/-- The component `A` is installed but for its state when a stop begins its teardown, and a
service that has bound it borrows it once that state is written. -/
def reopenedSteps : List AppStep :=
  [.spawn (.coInstallComponent "A" "a" ⟨.app, none⟩)] ++ List.replicate 5 (smoothStep 0) ++
    [.spawn .coStop] ++ List.replicate 4 (smoothStep 1) ++
    [.spawn (.coInstallService (.ok ()) "S" ["A"] [⟨"A", "a"⟩])] ++
    List.replicate 8 (smoothStep 2) ++ List.replicate 3 (smoothStep 1) ++
    List.replicate 3 (smoothStep 0) ++
    [.env (.borrow ⟨true, ⟨.component, 1⟩, 2⟩ 4 false), smoothStep 1,
      .step 1 (.submission .accepted), .env (.beginHook 0)]

/-- `OnStop` of a component is being executed while a service borrows it. -/
theorem borrow_outlives :
    letI := permissiveInfra
    ¬∀ pool, plainSystem.machine.Reachable pool → NoBorrowOutlives (fun _ _ => True) pool := by
  let _ := permissiveInfra
  intro houtlives
  have hboot : plainSystem.machine.Reachable
      (plainSystem.boot (AppWorld.fresh (.ok ()) 10 10)) :=
    .start ⟨_, start_fresh 10 10 (by decide), rfl⟩
  obtain ⟨pool, hreach, htest⟩ := hboot.exec_any (fun _ _ => true) (fun _ _ _ => trivial)
    reopenedSteps
    (fun pool => pool.shared.tasks = [⟨⟨.component, 1⟩, .onStop, .executing⟩] ∧
      pool.shared.leases = [⟨⟨.component, 1⟩, ⟨.service, 2⟩, 4⟩])
    (by decide)
  obtain ⟨htasks, hleases⟩ := of_decide_eq_true htest
  refine (houtlives pool hreach).1 ⟨⟨.component, 1⟩, .onStop, .executing⟩ ?_ rfl rfl
    ⟨⟨.component, 1⟩, ⟨.service, 2⟩, 4⟩ ?_ rfl
  · rw [htasks]
    exact List.mem_singleton.mpr rfl
  · rw [hleases]
    exact List.mem_singleton.mpr rfl

end BbtFramework.App
