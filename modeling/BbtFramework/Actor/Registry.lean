import BbtFramework.Inbound.Dispatch
import BbtFramework.Library.Table

/-!
# The actor registry

Services are registered with a factory and a limit; `GetOrCreate` looks up the
instance of a service and an actor key, or asks the factory for one.  Each call
is one critical section, so that an interleaving of calls is a sequence of them.
-/

namespace BbtFramework.Actor

open BbtFramework.Library

/-- What a factory does when it is called; an instance is its address. -/
inductive FactoryResult where
  | made (actor : Nat)
  | null
  | threw
  deriving DecidableEq, Repr

structure ServiceEntry where
  maxActors : Nat
  liveActors : Nat
  deriving DecidableEq, Repr

/-- The two maps of the registry, and the actor keys bound to the instances. -/
structure ActorRegistry where
  services : Table String ServiceEntry
  actors : Table (String × String) Nat
  actorKeys : Table Nat String

section

variable [Infra]

/-- `hasFactory` says whether the callable passed in is set. -/
def registerFactory (registry : ActorRegistry) (serviceName : String) (hasFactory : Bool)
    (maxActors : Nat) : Except Error Unit × ActorRegistry :=
  if serviceName = "" then
    (.error (makeError .invalidArgument "ActorRegistry: empty service_name"), registry)
  else if !hasFactory then
    (.error (makeError .invalidArgument "ActorRegistry: empty factory"), registry)
  else if maxActors = 0 then
    (.error (makeError .invalidArgument "ActorRegistry: max_actors must be > 0"), registry)
  else if serviceName ∈ registry.services then
    (.error (makeError .invalidArgument
      ("ActorRegistry: duplicate service '" ++ serviceName ++ "'")), registry)
  else
    (.ok (), { registry with services := registry.services.insert serviceName ⟨maxActors, 0⟩ })

def notRegisteredError (serviceName : String) : Error :=
  makeError .notFound ("ActorRegistry: service '" ++ serviceName ++ "' not registered")

def maxActorsError (serviceName : String) : Error :=
  makeError .overloaded
    ("ActorRegistry: service '" ++ serviceName ++ "' reached max_actors limit")

def factoryThrewError (actorKey : String) : Error :=
  makeError .internalError
    ("ActorRegistry: factory threw while activating actor '" ++ actorKey ++ "'")

def factoryNullError (actorKey : String) : Error :=
  makeError .internalError
    ("ActorRegistry: factory returned null for actor '" ++ actorKey ++ "'")

/-- The registration of a new instance, after its key was bound. -/
def activate (registry : ActorRegistry) (id : String × String) (entry : ServiceEntry)
    (made : Nat) : ActorRegistry where
  services := registry.services.insert id.1 { entry with liveActors := entry.liveActors + 1 }
  actors := registry.actors.insert id made
  actorKeys := registry.actorKeys.insert made id.2

/-- The factory's answer counts only when the factory is called. -/
def getOrCreate (registry : ActorRegistry) (serviceName actorKey : String)
    (factory : FactoryResult) : Except Error Nat × ActorRegistry :=
  if actorKey = "" then
    (.error (makeError .invalidArgument "ActorRegistry: empty actor_key"), registry)
  else
    match registry.actors.lookup (serviceName, actorKey) with
    | some found => (.ok found, registry)
    | none =>
        match registry.services.lookup serviceName with
        | none => (.error (notRegisteredError serviceName), registry)
        | some entry =>
            if entry.maxActors ≤ entry.liveActors then
              (.error (maxActorsError serviceName), registry)
            else
              match factory with
              | .threw => (.error (factoryThrewError actorKey), registry)
              | .null => (.error (factoryNullError actorKey), registry)
              | .made made => (.ok made, activate registry (serviceName, actorKey) entry made)

def actorCount (registry : ActorRegistry) (serviceName : String) : Nat :=
  match registry.services.lookup serviceName with
  | none => 0
  | some entry => entry.liveActors

/-- A call for an instance fails and changes nothing, finds the instance that is there, or
activates a new one. -/
inductive Answered (registry : ActorRegistry) (id : String × String) (factory : FactoryResult) :
    Except Error Nat × ActorRegistry → Prop where
  | refused (reason : Error) : Answered registry id factory (.error reason, registry)
  | found (actor : Nat) (hkey : id.2 ≠ "")
      (hlookup : registry.actors.lookup id = some actor) :
      Answered registry id factory (.ok actor, registry)
  | activated (entry : ServiceEntry) (made : Nat) (hkey : id.2 ≠ "")
      (hlookup : registry.actors.lookup id = none)
      (hentry : registry.services.lookup id.1 = some entry)
      (hroom : entry.liveActors < entry.maxActors) (hmade : factory = .made made) :
      Answered registry id factory (.ok made, activate registry id entry made)

theorem getOrCreate_answered (registry : ActorRegistry) (serviceName actorKey : String)
    (factory : FactoryResult) :
    Answered registry (serviceName, actorKey) factory
      (getOrCreate registry serviceName actorKey factory) := by
  unfold getOrCreate
  split
  case isTrue => exact .refused _
  case isFalse hkey =>
    split
    case h_1 found hlookup => exact .found found hkey hlookup
    case h_2 hlookup =>
      split
      case h_1 => exact .refused _
      case h_2 entry hentry =>
        split
        case isTrue => exact .refused _
        case isFalse hroom =>
          cases factory with
          | threw => exact .refused _
          | null => exact .refused _
          | made made => exact .activated entry made hkey hlookup hentry (by omega) rfl

theorem registerFactory_cases (registry : ActorRegistry) (serviceName : String)
    (hasFactory : Bool) (maxActors : Nat) :
    (∃ reason, registerFactory registry serviceName hasFactory maxActors =
      (.error reason, registry)) ∨
    (serviceName ∉ registry.services ∧
      registerFactory registry serviceName hasFactory maxActors =
        (.ok (), { registry with
          services := registry.services.insert serviceName ⟨maxActors, 0⟩ })) := by
  unfold registerFactory
  split
  · exact .inl ⟨_, rfl⟩
  · split
    · exact .inl ⟨_, rfl⟩
    · split
      · exact .inl ⟨_, rfl⟩
      · split
        case isTrue => exact .inl ⟨_, rfl⟩
        case isFalse hfresh => exact .inr ⟨hfresh, rfl⟩

/-- The registry, the activations that have succeeded and the answers given, oldest first. -/
structure ActivationWorld where
  registry : ActorRegistry
  activations : List ((String × String) × Nat)
  answers : List ((String × String) × Nat)

inductive RegistryCall where
  | registerFactory (serviceName : String) (hasFactory : Bool) (maxActors : Nat)
  | getOrCreate (serviceName actorKey : String) (factory : FactoryResult)

/-- An activation sets the entry of its service and key in the map. -/
def newActivations (id : String × String) (before after : ActorRegistry) :
    List ((String × String) × Nat) :=
  if after.actors.lookup id = before.actors.lookup id then []
  else
    match after.actors.lookup id with
    | some actor => [(id, actor)]
    | none => []

def registryMachine : Machine ActivationWorld RegistryCall where
  init world := world = ⟨⟨∅, ∅, ∅⟩, [], []⟩
  next world
    | .registerFactory serviceName hasFactory maxActors =>
        some { world with
          registry := (registerFactory world.registry serviceName hasFactory maxActors).2 }
    | .getOrCreate serviceName actorKey factory =>
        let (answer, registry) := getOrCreate world.registry serviceName actorKey factory
        some
          { registry := registry
            activations := world.activations ++
              newActivations (serviceName, actorKey) world.registry registry
            answers := world.answers ++
              (match answer with
              | .ok made => [((serviceName, actorKey), made)]
              | .error _ => []) }

def entriesOf (registry : ActorRegistry) (serviceName : String) : Nat :=
  registry.actors.keys.countP fun id => id.1 == serviceName

/-- The last activation that got this instance from its factory. -/
def lastActivation (activations : List ((String × String) × Nat)) (actor : Nat) :
    Option ((String × String) × Nat) :=
  (activations.filter fun row => row.2 == actor).getLast?

/-- Map, counters and bound keys say what the activations so far say. -/
structure Sound (world : ActivationWorld) : Prop where
  recorded : ∀ id actor, world.registry.actors.lookup id = some actor ↔
    (id, actor) ∈ world.activations
  once : (world.activations.map Prod.fst).Nodup
  answered : ∀ row ∈ world.answers, row ∈ world.activations
  bound : ∀ actor, world.registry.actorKeys.lookup actor =
    (lastActivation world.activations actor).map fun row => row.1.2
  counted : ∀ serviceName entry, world.registry.services.lookup serviceName = some entry →
    entry.liveActors = entriesOf world.registry serviceName ∧
      entry.liveActors ≤ entry.maxActors
  registered : ∀ id ∈ world.registry.actors, id.1 ∈ world.registry.services

omit [Infra] in
theorem lastActivation_append (activations : List ((String × String) × Nat))
    (id : String × String) (made actor : Nat) :
    lastActivation (activations ++ [(id, made)]) actor =
      if made = actor then some (id, made) else lastActivation activations actor := by
  unfold lastActivation
  rw [List.filter_append]
  by_cases hmade : made = actor
  · simp [hmade]
  · simp [hmade]

omit [Infra] in
/-- A service that was never registered has no actors. -/
theorem Sound.no_entries {world : ActivationWorld} (hsound : Sound world)
    {serviceName : String} (hfresh : serviceName ∉ world.registry.services) :
    entriesOf world.registry serviceName = 0 := by
  refine List.countP_eq_zero.mpr fun id hid heq => hfresh ?_
  rw [← beq_iff_eq.mp heq]
  exact hsound.registered id (AList.mem_keys.mpr hid)

omit [Infra] in
theorem Sound.register {world : ActivationWorld} (hsound : Sound world)
    {serviceName : String} (maxActors : Nat)
    (hfresh : serviceName ∉ world.registry.services) :
    Sound { world with registry := { world.registry with
      services := world.registry.services.insert serviceName ⟨maxActors, 0⟩ } } := by
  refine { hsound with counted := ?_, registered := ?_ }
  · intro other entry hentry
    dsimp only at hentry
    rw [Table.lookup_insert_eq] at hentry
    split at hentry
    case isTrue heq =>
      cases hentry
      exact ⟨heq ▸ (hsound.no_entries hfresh).symm, Nat.zero_le _⟩
    case isFalse => exact hsound.counted other entry hentry
  · intro id hid
    exact (AList.mem_insert _).mpr (.inr (hsound.registered id hid))

omit [Infra] in
theorem entriesOf_activate {registry : ActorRegistry} {id : String × String}
    {entry : ServiceEntry} (made : Nat) (hfresh : registry.actors.lookup id = none)
    (serviceName : String) :
    entriesOf (activate registry id entry made) serviceName =
      entriesOf registry serviceName + if id.1 = serviceName then 1 else 0 := by
  have hkeys : (activate registry id entry made).actors.keys = id :: registry.actors.keys := by
    exact Table.keys_insert_of_notMem made (AList.lookup_eq_none.mp hfresh)
  unfold entriesOf
  rw [hkeys, List.countP_cons]
  simp only [beq_iff_eq]

omit [Infra] in
theorem Sound.activate {world : ActivationWorld} (hsound : Sound world)
    {id : String × String} {entry : ServiceEntry} {made : Nat}
    (hfresh : world.registry.actors.lookup id = none)
    (hentry : world.registry.services.lookup id.1 = some entry)
    (hroom : entry.liveActors < entry.maxActors) :
    Sound
      { registry := Actor.activate world.registry id entry made
        activations := world.activations ++ [(id, made)]
        answers := world.answers ++ [(id, made)] } where
  recorded other actor := by
    change (world.registry.actors.insert id made).lookup other = some actor ↔ _
    rw [Table.lookup_insert_eq, List.mem_append, List.mem_singleton]
    split
    case isTrue heq =>
      have hnone : (other, actor) ∉ world.activations := by
        rw [heq, ← hsound.recorded id actor, hfresh]
        exact nofun
      constructor
      · rintro hmade
        cases hmade
        exact .inr (by rw [heq])
      · rintro (hold | hnew)
        · exact absurd hold hnone
        · cases hnew
          rfl
    case isFalse hne =>
      rw [hsound.recorded other actor]
      exact ⟨.inl, fun h => h.resolve_right fun heq => hne (Prod.mk.inj heq).1⟩
  once := by
    rw [List.map_append, List.map_singleton, ← List.concat_eq_append]
    refine List.Nodup.concat (fun hmem => ?_) hsound.once
    obtain ⟨⟨other, actor⟩, hrow, rfl⟩ := List.mem_map.mp hmem
    rw [← hsound.recorded, hfresh] at hrow
    cases hrow
  answered row hrow := by
    rcases List.mem_append.mp hrow with hold | hnew
    · exact List.mem_append_left _ (hsound.answered row hold)
    · exact List.mem_append_right _ hnew
  bound actor := by
    change (world.registry.actorKeys.insert made id.2).lookup actor = _
    rw [Table.lookup_insert_eq, lastActivation_append]
    by_cases hactor : actor = made
    · rw [if_pos hactor, if_pos hactor.symm]
      rfl
    · rw [if_neg hactor, if_neg (Ne.symm hactor)]
      exact hsound.bound actor
  counted other found hfound := by
    change (world.registry.services.insert id.1 _).lookup other = some found at hfound
    rw [entriesOf_activate made hfresh]
    rw [Table.lookup_insert_eq] at hfound
    split at hfound
    case isTrue heq =>
      cases hfound
      rw [if_pos heq.symm, heq, ← (hsound.counted id.1 entry hentry).1]
      exact ⟨rfl, hroom⟩
    case isFalse hne =>
      rw [if_neg (Ne.symm hne)]
      exact hsound.counted other found hfound
  registered other hother := by
    change other ∈ world.registry.actors.insert id made at hother
    change other.1 ∈ world.registry.services.insert id.1 _
    rw [AList.mem_insert] at hother ⊢
    rcases hother with rfl | hold
    · exact .inl rfl
    · exact .inr (hsound.registered other hold)

omit [Infra] in
theorem newActivations_same (id : String × String) (registry : ActorRegistry) :
    newActivations id registry registry = [] :=
  if_pos rfl

omit [Infra] in
theorem newActivations_activate {registry : ActorRegistry} {id : String × String}
    (entry : ServiceEntry) (made : Nat) (hfresh : registry.actors.lookup id = none) :
    newActivations id registry (activate registry id entry made) = [(id, made)] := by
  have hset : (activate registry id entry made).actors.lookup id = some made :=
    AList.lookup_insert registry.actors
  rw [newActivations, hset, hfresh, if_neg (Option.some_ne_none made)]

theorem reachable_sound {world : ActivationWorld} (hreach : registryMachine.Reachable world) :
    Sound world := by
  refine Machine.ReachableWhere.induct ?_ ?_ hreach
  · rintro world rfl
    refine
      { recorded := fun id actor => ?_, once := List.nodup_nil, answered := ?_
        bound := fun _ => rfl, counted := ?_, registered := ?_ }
    · exact ⟨nofun, nofun⟩
    · exact nofun
    · exact nofun
    · exact fun _ hmem => absurd hmem (AList.notMem_empty _)
  · intro world label next _ hsound _ hnext
    cases label with
    | registerFactory serviceName hasFactory maxActors =>
        cases hnext
        rcases registerFactory_cases world.registry serviceName hasFactory maxActors with
          ⟨reason, hrefused⟩ | ⟨hfresh, hadded⟩
        · rw [hrefused]
          exact hsound
        · rw [hadded]
          exact hsound.register maxActors hfresh
    | getOrCreate serviceName actorKey factory =>
        simp only [registryMachine] at hnext
        have hanswered := getOrCreate_answered world.registry serviceName actorKey factory
        generalize getOrCreate world.registry serviceName actorKey factory = outcome
          at hnext hanswered
        cases hnext
        cases hanswered with
        | refused reason =>
            dsimp only
            rw [newActivations_same, List.append_nil, List.append_nil]
            exact hsound
        | found actor _ hlookup =>
            dsimp only
            rw [newActivations_same, List.append_nil]
            refine { hsound with answered := fun row hrow => ?_ }
            rcases List.mem_append.mp hrow with hold | hnew
            · exact hsound.answered row hold
            · rw [List.mem_singleton.mp hnew]
              exact (hsound.recorded _ _).mp hlookup
        | activated entry made _ hfresh hentry hroom =>
            dsimp only
            rw [newActivations_activate entry made hfresh]
            exact hsound.activate hfresh hentry hroom

/-- `ActorCount` counts the instances, of a service that was never registered too. -/
theorem actorCount_eq {world : ActivationWorld} (hreach : registryMachine.Reachable world)
    (serviceName : String) :
    actorCount world.registry serviceName = entriesOf world.registry serviceName := by
  have hsound := reachable_sound hreach
  unfold actorCount
  cases hservice : world.registry.services.lookup serviceName with
  | none => exact (hsound.no_entries (AList.lookup_eq_none.mp hservice)).symm
  | some entry => exact (hsound.counted serviceName entry hservice).1

/-! ## Activation -/

omit [Infra] in
theorem mem_lastActivation {activations : List ((String × String) × Nat)} {actor : Nat}
    {row : (String × String) × Nat} (hlast : lastActivation activations actor = some row) :
    row ∈ activations ∧ row.2 = actor := by
  obtain ⟨hmem, hactor⟩ := List.mem_filter.mp (List.mem_of_getLast? hlast)
  exact ⟨hmem, beq_iff_eq.mp hactor⟩

omit [Infra] in
/-- An instance is bound to the key of the last activation that got it. -/
theorem Sound.key {world : ActivationWorld} (hsound : Sound world) {id : String × String}
    {actor : Nat} (hlookup : world.registry.actors.lookup id = some actor) :
    ∃ last, lastActivation world.activations actor = some last ∧
      world.registry.actorKeys.lookup actor = some last.1.2 := by
  have hbound := hsound.bound actor
  cases hlast : lastActivation world.activations actor with
  | some last =>
      rw [hlast] at hbound
      exact ⟨last, rfl, hbound⟩
  | none =>
      have hnil := List.getLast?_eq_none_iff.mp hlast
      have hrow := (hsound.recorded id actor).mp hlookup
      exact absurd (beq_self_eq_true actor) (List.filter_eq_nil_iff.mp hnil _ hrow)

omit [Infra] in
theorem Sound.own_key {world : ActivationWorld} (hsound : Sound world) {id : String × String}
    {actor : Nat} (hlookup : world.registry.actors.lookup id = some actor)
    (hown : ∀ other, (other, actor) ∈ world.activations → other = id) :
    world.registry.actorKeys.lookup actor = some id.2 := by
  obtain ⟨⟨other, _⟩, hlast, hkey⟩ := hsound.key hlookup
  obtain ⟨hmem, rfl⟩ := mem_lastActivation hlast
  rw [hkey, hown other hmem]

/-- With room left, a call whose factory makes an instance succeeds, whatever failed before. -/
theorem getOrCreate_made {registry : ActorRegistry} {serviceName actorKey : String}
    {entry : ServiceEntry} (made : Nat) (hkey : actorKey ≠ "")
    (hfresh : registry.actors.lookup (serviceName, actorKey) = none)
    (hentry : registry.services.lookup serviceName = some entry)
    (hroom : entry.liveActors < entry.maxActors) :
    (getOrCreate registry serviceName actorKey (.made made)).1 = .ok made := by
  have hfits : ¬entry.maxActors ≤ entry.liveActors := Nat.not_le.mpr hroom
  simp only [getOrCreate, if_neg hkey, hfresh, hentry, if_neg hfits]

theorem getOrCreate_failed {registry : ActorRegistry} {serviceName actorKey : String}
    {factory : FactoryResult} {reason : Error}
    (hfailed : (getOrCreate registry serviceName actorKey factory).1 = .error reason) :
    (getOrCreate registry serviceName actorKey factory).2 = registry := by
  have hanswered := getOrCreate_answered registry serviceName actorKey factory
  generalize getOrCreate registry serviceName actorKey factory = outcome at hfailed hanswered
  cases hanswered with
  | refused => rfl
  | found => cases hfailed
  | activated => cases hfailed

theorem registerFactory_failed {registry : ActorRegistry} {serviceName : String}
    {hasFactory : Bool} {maxActors : Nat} {reason : Error}
    (hfailed : (registerFactory registry serviceName hasFactory maxActors).1 = .error reason) :
    (registerFactory registry serviceName hasFactory maxActors).2 = registry := by
  rcases registerFactory_cases registry serviceName hasFactory maxActors with
    ⟨_, hrefused⟩ | ⟨_, hadded⟩
  · rw [hrefused]
  · rw [hadded] at hfailed
    cases hfailed

/-- Every pair is activated at most once and answered with one instance; an instance keeps the
key of its pair unless a factory hands it out again; counters and limits hold; a failure
changes nothing. -/
theorem activated_at_most_once {world : ActivationWorld}
    (hreach : registryMachine.Reachable world) :
    (world.activations.map Prod.fst).Nodup ∧
    (∀ id actor, (id, actor) ∈ world.answers →
      world.registry.actors.lookup id = some actor) ∧
    (∀ id actor, world.registry.actors.lookup id = some actor →
      (∃ last, lastActivation world.activations actor = some last ∧
        world.registry.actorKeys.lookup actor = some last.1.2) ∧
      ((∀ other, (other, actor) ∈ world.activations → other = id) →
        world.registry.actorKeys.lookup actor = some id.2)) ∧
    (∀ serviceName entry, world.registry.services.lookup serviceName = some entry →
      entry.liveActors = entriesOf world.registry serviceName ∧
        entry.liveActors ≤ entry.maxActors) ∧
    (∀ serviceName hasFactory maxActors reason,
      (registerFactory world.registry serviceName hasFactory maxActors).1 = .error reason →
      (registerFactory world.registry serviceName hasFactory maxActors).2 = world.registry) ∧
    (∀ serviceName actorKey factory reason,
      (getOrCreate world.registry serviceName actorKey factory).1 = .error reason →
      (getOrCreate world.registry serviceName actorKey factory).2 = world.registry) ∧
    (∀ serviceName actorKey entry made, actorKey ≠ "" →
      world.registry.actors.lookup (serviceName, actorKey) = none →
      world.registry.services.lookup serviceName = some entry →
      entry.liveActors < entry.maxActors →
      (getOrCreate world.registry serviceName actorKey (.made made)).1 = .ok made) := by
  have hsound := reachable_sound hreach
  refine ⟨hsound.once, fun id actor hanswer => ?_, fun id actor hlookup => ?_, hsound.counted,
    fun _ _ _ _ => registerFactory_failed, fun _ _ _ _ => getOrCreate_failed,
    fun _ _ _ made => getOrCreate_made made⟩
  · exact (hsound.recorded id actor).mpr (hsound.answered _ hanswer)
  · exact ⟨hsound.key hlookup, hsound.own_key hlookup⟩

end

def sampleCalls : List RegistryCall :=
  [.registerFactory "svc" true 2, .getOrCreate "svc" "k1" .threw,
    .getOrCreate "svc" "k1" (.made 7)]

/-- After a factory that threw, a retry activates the actor. -/
theorem activated_at_most_once_retried :
    letI := permissiveInfra
    ∃ world, registryMachine.Reachable world ∧ world.answers = [(("svc", "k1"), 7)] ∧
      world.registry.actorKeys.lookup 7 = some "k1" := by
  let _ := permissiveInfra
  have hstart : registryMachine.Reachable ⟨⟨∅, ∅, ∅⟩, [], []⟩ := .start rfl
  obtain ⟨world, hreach, htest⟩ := hstart.exec_any (fun _ _ => true) (fun _ _ _ => trivial)
    sampleCalls
    (fun world => decide (world.answers = [(("svc", "k1"), 7)] ∧
      world.activations = [(("svc", "k1"), 7)])) (by decide)
  obtain ⟨hanswers, hactivations⟩ := of_decide_eq_true htest
  obtain ⟨-, hsame, hbound, -⟩ := activated_at_most_once hreach
  have hlookup := hsame ("svc", "k1") 7 (by rw [hanswers]; exact List.mem_singleton_self _)
  refine ⟨world, hreach, hanswers, (hbound _ _ hlookup).2 fun other hother => ?_⟩
  rw [hactivations] at hother
  exact (Prod.mk.inj (List.mem_singleton.mp hother)).1

/-- A factory that hands out one instance twice takes the key of the first actor away. -/
theorem key_taken_away :
    letI := permissiveInfra
    ∃ world, registryMachine.Reachable world ∧ (("svc", "k1"), 7) ∈ world.answers ∧
      world.registry.actors.lookup ("svc", "k1") = some 7 ∧
      world.registry.actorKeys.lookup 7 = some "k2" := by
  let _ := permissiveInfra
  have hstart : registryMachine.Reachable ⟨⟨∅, ∅, ∅⟩, [], []⟩ := .start rfl
  obtain ⟨world, hreach, htest⟩ := hstart.exec_any (fun _ _ => true) (fun _ _ _ => trivial)
    (sampleCalls ++ [.getOrCreate "svc" "k2" (.made 7)])
    (fun world => decide ((("svc", "k1"), 7) ∈ world.answers ∧
      world.registry.actors.lookup ("svc", "k1") = some 7 ∧
      world.registry.actorKeys.lookup 7 = some "k2")) (by decide)
  exact ⟨world, hreach, of_decide_eq_true htest⟩

section

variable [Infra]

/-! ## What a dispatch sees of the registry -/

/-- The limit of one service and the keys of its actors. -/
def ofService (registry : ActorRegistry) (serviceName : String) : Inbound.ActorRegistry where
  maxActors := (registry.services.lookup serviceName).map ServiceEntry.maxActors
  actors := ((Table.order registry.actors).filter fun id => id.1 == serviceName).map Prod.snd

def FactoryResult.outcome : FactoryResult → Inbound.FactoryOutcome
  | .made _ => .made
  | .null => .null
  | .threw => .threw

omit [Infra] in
theorem mem_ofService {registry : ActorRegistry} {serviceName actorKey : String} :
    actorKey ∈ (ofService registry serviceName).actors ↔
      (serviceName, actorKey) ∈ registry.actors := by
  simp only [ofService, List.mem_map, List.mem_filter, Table.mem_order, beq_iff_eq]
  constructor
  · rintro ⟨⟨name, key⟩, ⟨hmem, rfl⟩, rfl⟩
    exact hmem
  · intro hmem
    exact ⟨_, ⟨hmem, rfl⟩, rfl⟩

omit [Infra] in
theorem length_ofService (registry : ActorRegistry) (serviceName : String) :
    (ofService registry serviceName).actors.length = entriesOf registry serviceName := by
  rw [ofService, List.length_map, Table.order, List.filter_reverse, List.length_reverse,
    entriesOf, List.countP_eq_length_filter]

omit [Infra] in
theorem ofService_activate {registry : ActorRegistry} {serviceName actorKey : String}
    {entry : ServiceEntry} (made : Nat)
    (hfresh : registry.actors.lookup (serviceName, actorKey) = none) :
    ofService (activate registry (serviceName, actorKey) entry made) serviceName =
      ⟨some entry.maxActors, (ofService registry serviceName).actors ++ [actorKey]⟩ := by
  have hkeys : (activate registry (serviceName, actorKey) entry made).actors.keys =
      (serviceName, actorKey) :: registry.actors.keys := by
    exact Table.keys_insert_of_notMem made (AList.lookup_eq_none.mp hfresh)
  have hlimit : (activate registry (serviceName, actorKey) entry made).services.lookup
      serviceName = some { entry with liveActors := entry.liveActors + 1 } :=
    AList.lookup_insert registry.services
  unfold ofService Table.order
  rw [hkeys, hlimit, List.reverse_cons, List.filter_append]
  simp

/-- A dispatch that works with its service's share of the registry sees what the registry
does. -/
theorem getOrCreate_ofService {world : ActivationWorld}
    (hreach : registryMachine.Reachable world) (serviceName actorKey : String)
    (factory : FactoryResult) :
    (ofService world.registry serviceName).getOrCreate serviceName actorKey factory.outcome =
      ((getOrCreate world.registry serviceName actorKey factory).1.map fun _ => (),
        ofService (getOrCreate world.registry serviceName actorKey factory).2 serviceName) := by
  have hcounted := (reachable_sound hreach).counted serviceName
  generalize world.registry = registry at hcounted ⊢
  unfold getOrCreate Inbound.ActorRegistry.getOrCreate
  by_cases hkey : actorKey = ""
  · rw [if_pos hkey, if_pos hkey]
    rfl
  · rw [if_neg hkey, if_neg hkey]
    cases hlookup : registry.actors.lookup (serviceName, actorKey) with
    | some actor =>
        rw [if_pos (mem_ofService.mpr (Table.mem_of_lookup hlookup))]
        rfl
    | none =>
        rw [if_neg (mt mem_ofService.mp (AList.lookup_eq_none.mp hlookup))]
        cases hentry : registry.services.lookup serviceName with
        | none =>
            have hlimit : (ofService registry serviceName).maxActors = none := by
              rw [ofService, hentry]
              rfl
            rw [hlimit]
            rfl
        | some entry =>
            have hlimit : (ofService registry serviceName).maxActors = some entry.maxActors := by
              rw [ofService, hentry]
              rfl
            rw [hlimit, length_ofService, ← (hcounted entry hentry).1]
            dsimp only
            by_cases hfull : entry.maxActors ≤ entry.liveActors
            · rw [if_pos hfull, if_pos hfull]
              rfl
            · rw [if_neg hfull, if_neg hfull]
              cases factory with
              | threw => rfl
              | null => rfl
              | made made =>
                  dsimp only
                  rw [ofService_activate made hlookup]
                  rfl

end

end BbtFramework.Actor
