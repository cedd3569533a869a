import BbtFramework.Actor.Registry
import BbtFramework.Host.Lifecycle
import BbtFramework.Inbound.FaithfulReplay
import Mathlib.Data.List.Sort

/-!
# Services

Services and grants are registered until `run` begins; `_BindServices` then makes what
`Dispatch` needs of each of them and publishes it at once.  Its turns make the ingress of a
service in place and move its method table out.
-/

namespace BbtFramework.Host

open BbtFramework.Library
open BbtFramework.Ordered
open BbtFramework.Inbound (RpcMethod findMethod)

inductive ExecutionPolicy where
  | concurrent
  | actorSerial
  deriving DecidableEq, Repr

structure ServiceOptions where
  execution : ExecutionPolicy
  maxInflight : Nat
  mailboxCapacity : Nat
  maxActors : Nat
  orderedIngress : Bool
  maxOrderedStreams : Nat
  maxCachedResults : Nat
  maxCachedResultBytes : Nat
  deriving DecidableEq, Repr

def ServiceOptions.ingressConfig (options : ServiceOptions) (service : String) :
    OrderedIngressConfig where
  service := service
  maxOrderedStreams := options.maxOrderedStreams
  maxCachedResults := options.maxCachedResults
  maxCachedResultBytes := options.maxCachedResultBytes

section

variable [Infra]

def failField (field why : String) : Except Error Unit :=
  .error (makeError .invalidArgument ("ServiceOptions." ++ field ++ ": " ++ why))

/-- The checks that depend on the execution policy. -/
def validateExecution (options : ServiceOptions) : Except Error Unit :=
  match options.execution with
  | .actorSerial =>
      if options.mailboxCapacity = 0 then
        failField "mailbox_capacity" "ActorSerial requires mailbox_capacity > 0"
      else if options.maxActors = 0 then
        failField "max_actors" "ActorSerial requires max_actors > 0"
      else .ok ()
  | .concurrent =>
      if options.mailboxCapacity ≠ 0 then
        failField "mailbox_capacity" "Concurrent requires mailbox_capacity == 0"
      else if options.maxActors ≠ 0 then
        failField "max_actors" "Concurrent requires max_actors == 0"
      else if options.orderedIngress then
        failField "ordered_ingress" "ordered_ingress is only allowed for ActorSerial"
      else .ok ()

/-- The checks of the three ordered limits. -/
def validateOrdered (options : ServiceOptions) : Except Error Unit :=
  if options.orderedIngress then
    if options.maxOrderedStreams = 0 then
      failField "max_ordered_streams" "ordered_ingress requires > 0"
    else if options.maxCachedResults = 0 then
      failField "max_cached_results" "ordered_ingress requires > 0"
    else if options.maxCachedResultBytes = 0 then
      failField "max_cached_result_bytes" "ordered_ingress requires > 0"
    else .ok ()
  else if options.maxOrderedStreams ≠ 0 then
    failField "max_ordered_streams" "must be 0 when ordered_ingress is disabled"
  else if options.maxCachedResults ≠ 0 then
    failField "max_cached_results" "must be 0 when ordered_ingress is disabled"
  else if options.maxCachedResultBytes ≠ 0 then
    failField "max_cached_result_bytes" "must be 0 when ordered_ingress is disabled"
  else .ok ()

def validateServiceOptions (options : ServiceOptions) : Except Error Unit :=
  if options.maxInflight = 0 then failField "max_inflight" "must be > 0"
  else
    match validateExecution options with
    | .error error => .error error
    | .ok () => validateOrdered options

end

/-- The methods of a service type, each under a name of its own. -/
structure RpcMethodTable where
  methods : List RpcMethod
  named : ∀ method ∈ methods, method.name ≠ ""
  distinct : (methods.map RpcMethod.name).Nodup

namespace RpcMethodTable

def empty : RpcMethodTable :=
  ⟨[], fun _ hmem => absurd hmem List.not_mem_nil, List.nodup_nil⟩

def find (table : RpcMethodTable) (name : String) : Option RpcMethod :=
  findMethod table.methods name

theorem notMem_of_find_none {table : RpcMethodTable} {name : String}
    (hnone : ¬(table.find name).isSome = true) : name ∉ table.methods.map RpcMethod.name := by
  intro hmem
  obtain ⟨method, hmethod, hname⟩ := List.mem_map.mp hmem
  apply hnone
  rw [find, findMethod, List.find?_isSome]
  exact ⟨method, hmethod, beq_iff_eq.mpr hname⟩

/-- `Add`; the text is that of the exception. -/
def add (table : RpcMethodTable) (method : RpcMethod) : Except String RpcMethodTable :=
  if hname : method.name = "" then .error "method table: empty method name"
  else if hfound : (table.find method.name).isSome then
    .error ("method table: duplicate method '" ++ method.name ++ "'")
  else
    .ok
      { methods := table.methods ++ [method]
        named := by
          intro other hmem
          rcases List.mem_append.mp hmem with hmem | hmem
          · exact table.named other hmem
          · rw [List.mem_singleton.mp hmem]
            exact hname
        distinct := by
          rw [List.map_append, List.map_singleton]
          exact List.nodup_append.mpr ⟨table.distinct, List.nodup_singleton _,
            fun name hmem other hother heq => notMem_of_find_none hfound
              (List.mem_singleton.mp hother ▸ heq ▸ hmem)⟩ }

end RpcMethodTable

def buildMethodTable (declared : List RpcMethod) : Except String RpcMethodTable :=
  declared.foldlM RpcMethodTable.add .empty

section

variable [Infra]

def validateActorKeying (table : RpcMethodTable) (execution : ExecutionPolicy) :
    Except Error Unit :=
  if execution ≠ .actorSerial then .ok ()
  else
    match table.methods.find? (fun method => !method.actorKeyed) with
    | none => .ok ()
    | some method =>
        .error (makeError .invalidArgument
          ("ActorSerial method '" ++ method.name ++
            "' has no key extractor; declare via fw::ActorMethod"))

end

/-! ## Registration -/

/-- What `add_service` takes from a service type. -/
structure ServiceType where
  declared : List RpcMethod
  coServiceName : String

structure ServiceEntry where
  options : ServiceOptions
  table : RpcMethodTable
  orderedIngress : Option OrderedIngress

def ServiceEntry.withIngress (service : ServiceEntry) (ingress : OrderedIngress) :
    ServiceEntry :=
  { service with orderedIngress := some ingress }

def ServiceEntry.movedOut (service : ServiceEntry) (ingress : Option OrderedIngress) :
    ServiceEntry :=
  { service with table := .empty, orderedIngress := ingress }

/-- A row of the dispatch table; an instance is its address, `registry` tells whether the
pointer to the actor registry is set. -/
structure DispatchEntry where
  options : ServiceOptions
  table : RpcMethodTable
  inst : Option Nat
  registry : Bool
  orderedIngress : Option OrderedIngress

/-- What `Dispatch` hands an accepted request to: the instance, or the actors of the
registry behind the ingress; both pointers may be null. -/
inductive DispatchTarget where
  | inst (inst : Nat)
  | instanceUnbound
  | ingressUnbound
  | actor (ingress : Option OrderedIngress)
  | nullRegistry

/-- Dispatching goes by the method; whether the registry is set is not asked. -/
def DispatchEntry.target (entry : DispatchEntry) (method : RpcMethod) : DispatchTarget :=
  if method.actorKeyed then
    if entry.options.orderedIngress then
      match entry.orderedIngress with
      | none => .ingressUnbound
      | some ingress => if entry.registry then .actor (some ingress) else .nullRegistry
    else if entry.registry then .actor none else .nullRegistry
  else
    match entry.inst with
    | none => .instanceUnbound
    | some inst => .inst inst

abbrev Dispatcher := Table String DispatchEntry

/-- The fields a request is checked against. -/
def DispatchEntry.inbound (entry : DispatchEntry) : Inbound.ServiceEntry where
  options :=
    { maxInflight := entry.options.maxInflight
      mailboxCapacity := entry.options.mailboxCapacity
      orderedIngress := entry.options.orderedIngress }
  table := entry.table.methods
  ingressBound := entry.orderedIngress.isSome

def Dispatcher.inbound (dispatcher : Dispatcher) : Table String Inbound.ServiceEntry where
  entries := dispatcher.entries.map (.map id (fun _ entry => entry.inbound))
  nodupKeys := dispatcher.nodupKeys.map₂ (fun _ entry => entry.inbound)

theorem Dispatcher.lookup_inbound (dispatcher : Dispatcher) (name : String) :
    dispatcher.inbound.lookup name = (dispatcher.lookup name).map DispatchEntry.inbound :=
  List.dlookup_map₂ name

/-- The part of `AppRuntimeState` that `Publish` fills in and `Release` gives up. -/
structure PublishedState where
  dispatcher : Option Dispatcher
  tables : Table String RpcMethodTable
  instances : Table String Nat
  registry : Option Actor.ActorRegistry

def PublishedState.released : PublishedState :=
  ⟨none, ∅, ∅, none⟩

/-- How far `run` has come; it binds once, and whatever ends it releases. -/
inductive RunStage where
  | before
  | closed
  | bound
  | released
  deriving DecidableEq, Repr

/-- `registered` are the services as `add_service` and `grant_ordered_stream` have left them,
`held` the dispatchers of calls in progress, `granted` the grants that were passed to an
ingress. -/
structure AssemblyWorld where
  registrationOpen : Bool
  services : Table String ServiceEntry
  registered : Table String ServiceEntry
  state : PublishedState
  stage : RunStage
  held : List Dispatcher
  granted : List OrderedGrant

def AssemblyWorld.fresh : AssemblyWorld :=
  ⟨true, ∅, ∅, .released, .before, [], []⟩

namespace AssemblyWorld

variable [Infra] (world : AssemblyWorld)

def insertService (name : String) (entry : ServiceEntry) : AssemblyWorld :=
  { world with
    services := world.services.insert name entry
    registered := world.registered.insert name entry }

/-- The critical section of `add_service`. -/
def register (name : String) (entry : ServiceEntry) : Except Error Unit × AssemblyWorld :=
  if ¬world.registrationOpen then
    (.error (makeError .closed "add_service: registration closed (run already started)"), world)
  else if name ∈ world.services then
    (.error (makeError .invalidArgument ("add_service: duplicate service '" ++ name ++ "'")),
      world)
  else (.ok (), world.insertService name entry)

/-- `add_service<T>`. -/
def addService (options : ServiceOptions) (type : ServiceType) :
    Except Error Unit × AssemblyWorld :=
  match validateServiceOptions options with
  | .error error => (.error error, world)
  | .ok () =>
      match buildMethodTable type.declared with
      | .error what => (.error (makeError .invalidArgument ("add_service: " ++ what)), world)
      | .ok table =>
          match validateActorKeying table options.execution with
          | .error error => (.error error, world)
          | .ok () =>
              if type.coServiceName = "" then
                (.error (makeError .invalidArgument "add_service: empty service name"), world)
              else world.register type.coServiceName ⟨options, table, none⟩

def ingressOf (name : String) (service : ServiceEntry) : Except Error OrderedIngress :=
  match service.orderedIngress with
  | some ingress => .ok ingress
  | none => OrderedIngress.create (service.options.ingressConfig name)

/-- `grant_ordered_stream`. -/
def grantOrderedStream (grant : OrderedGrant) : Except Error Unit × AssemblyWorld :=
  if ¬world.registrationOpen then
    (.error (makeError .closed
      "grant_ordered_stream: registration closed (run already started)"), world)
  else
    match world.services.lookup grant.service with
    | none =>
        (.error (makeError .notFound
          ("grant_ordered_stream: service '" ++ grant.service ++ "' is not registered")), world)
    | some service =>
        if ¬service.options.orderedIngress then
          (.error (makeError .invalidArgument
            ("grant_ordered_stream: service '" ++ grant.service ++
              "' does not enable ordered_ingress")), world)
        else
          match ingressOf grant.service service with
          | .error error => (.error error, world)
          | .ok ingress =>
              let answered := ingress.grantStream grant
              (answered.1,
                { world.insertService grant.service (service.withIngress answered.2) with
                  granted := world.granted ++ [grant] })

end AssemblyWorld

/-- What `_BindServices` has gathered. -/
structure Gathered where
  dispatch : Dispatcher
  tables : Table String RpcMethodTable
  instances : Table String Nat
  registry : Actor.ActorRegistry

namespace Gathered

def empty : Gathered :=
  ⟨∅, ∅, ∅, ⟨∅, ∅, ∅⟩⟩

/-- The rows of a service. -/
def serve (gathered : Gathered) (name : String) (entry : DispatchEntry) : Gathered :=
  { gathered with
    dispatch := gathered.dispatch.insert name entry
    tables := gathered.tables.insert name entry.table }

end Gathered

section

variable [Infra]

/-- What a factory that ends in an exception makes of the binding. -/
def bindThrew (name what : String) : Error :=
  makeError .internalError ("CoApp bind '" ++ name ++ "': " ++ what)

/-- What the turn of a service gathers; `made` is how the factory of a concurrent service
ends. -/
def gatherService (name : String) (service : ServiceEntry) (ingress : Option OrderedIngress)
    (made : CallEnd Nat) (gathered : Gathered) : CallEnd (Except Error Gathered) :=
  match service.options.execution with
  | .concurrent =>
      match made with
      | .threw what => .returned (.error (bindThrew name what))
      | .threwOther => .threwOther
      | .returned inst =>
          .returned (.ok ({ gathered with
            instances := gathered.instances.insert name inst }.serve name
              ⟨service.options, service.table, some inst, false, ingress⟩))
  | .actorSerial =>
      let registered :=
        Actor.registerFactory gathered.registry name true service.options.maxActors
      match registered.1 with
      | .error error => .returned (.error error)
      | .ok () =>
          .returned (.ok ({ gathered with registry := registered.2 }.serve name
            ⟨service.options, service.table, none, true, ingress⟩))

/-- One turn of the loop, and what it leaves of the service: the ingress is made in place, and
the table is moved out before the factory is called. -/
def bindService (name : String) (service : ServiceEntry) (made : CallEnd Nat)
    (gathered : Gathered) : CallEnd (Except Error Gathered) × ServiceEntry :=
  match (if service.options.orderedIngress then
      (AssemblyWorld.ingressOf name service).map some else .ok service.orderedIngress) with
  | .error error => (.returned (.error error), service)
  | .ok ingress =>
      (gatherService name service ingress made gathered, service.movedOut ingress)

def bindLoop (make : String → CallEnd Nat) :
    List (String × ServiceEntry) → Table String ServiceEntry → Gathered →
      CallEnd (Except Error Gathered) × Table String ServiceEntry
  | [], services, gathered => (.returned (.ok gathered), services)
  | row :: rest, services, gathered =>
      let turn := bindService row.1 row.2 (make row.1) gathered
      let left := services.insert row.1 turn.2
      match turn.1 with
      | .returned (.ok more) => bindLoop make rest left more
      | .returned (.error error) => (.returned (.error error), left)
      | .threw what => (.threw what, left)
      | .threwOther => (.threwOther, left)

end

/-- `Publish`. -/
def publish (gathered : Gathered) : PublishedState where
  dispatcher := some gathered.dispatch
  tables := gathered.tables
  instances := gathered.instances
  registry := some gathered.registry

namespace AssemblyWorld

variable (world : AssemblyWorld)

def orderedServices : List (String × ServiceEntry) :=
  (world.services.keys.insertionSort (fun first second => first ≤ second)).filterMap (fun name =>
    (world.services.lookup name).map (fun service => (name, service)))

variable [Infra]

/-- `_BindServices`; the turns that were made stay, however it ends. -/
def bindServices (make : String → CallEnd Nat) :
    CallEnd (Except Error Unit) × AssemblyWorld :=
  let bound := bindLoop make world.orderedServices world.services .empty
  let left := { world with services := bound.2 }
  match bound.1 with
  | .returned (.ok gathered) => (.returned (.ok ()), { left with state := publish gathered })
  | .returned (.error error) => (.returned (.error error), left)
  | .threw what => (.threw what, left)
  | .threwOther => (.threwOther, left)

/-- The pointer `AppRuntimeState::Dispatch` takes under the mutex. -/
def takeDispatcher : Except Error Dispatcher :=
  match world.state.dispatcher with
  | none =>
      .error (makeError .runtimeUnavailable
        "dispatch runtime not published or already released")
  | some dispatcher => .ok dispatcher

def findService (name : String) : Except Error Nat :=
  match world.services.lookup name with
  | none =>
      .error (makeError .notFound ("find_service: unregistered service '" ++ name ++ "'"))
  | some service =>
      if service.options.execution = .actorSerial then
        .error (makeError .invalidArgument
          ("find_service: actor-keyed service '" ++ name ++ "'; use actor_registry()"))
      else
        match world.state.instances.lookup name with
        | none =>
            .error (makeError .runtimeUnavailable
              ("find_service: service '" ++ name ++ "' not bound (run not in progress)"))
        | some inst => .ok inst

end AssemblyWorld

/-- The calls on the application and the steps of `run`, each one critical section. -/
inductive AssemblyStep where
  | addService (options : ServiceOptions) (type : ServiceType)
  | grant (grant : OrderedGrant)
  | begin
  | bind (make : String → CallEnd Nat)
  | release
  | dispatch
  | leave (call : Nat)

namespace AssemblyWorld

variable [Infra]

def next (world : AssemblyWorld) : AssemblyStep → Option AssemblyWorld
  | .addService options type => some (world.addService options type).2
  | .grant grant => some (world.grantOrderedStream grant).2
  | .begin =>
      if world.stage = .before then
        some { world with registrationOpen := false, stage := .closed }
      else none
  | .bind make =>
      if world.stage = .closed then
        some { (world.bindServices make).2 with stage := .bound }
      else none
  | .release =>
      if world.stage = .before then none
      else some { world with stage := .released, state := .released }
  | .dispatch =>
      match world.takeDispatcher with
      | .error _ => some world
      | .ok dispatcher => some { world with held := world.held ++ [dispatcher] }
  | .leave call => some { world with held := world.held.eraseIdx call }

end AssemblyWorld

def assemblyMachine [Infra] : Machine AssemblyWorld AssemblyStep where
  init := fun world => world = .fresh
  next := AssemblyWorld.next

end BbtFramework.Host
