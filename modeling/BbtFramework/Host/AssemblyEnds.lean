import BbtFramework.Host.Assembly

/-!
# Requests and the ends of an assembly

A request that passes the checks finds what it is dispatched with, but for a keyed method of
a concurrent service.  Registration is over when `run` begins, publication with the release,
and binding fails only when a factory throws.
-/

namespace BbtFramework.Host

open BbtFramework.Library
open BbtFramework.Ordered
open BbtFramework.Inbound (RpcMethod findMethod)

section

variable [Infra]

/-- A row that serves its service gives a request the actors of an `ActorSerial` service or
the instance of a concurrent one; a keyed method of a concurrent service gets a registry
that is null. -/
theorem DispatchEntry.Serves.target {granted : List OrderedGrant} {name : String}
    {service : ServiceEntry} {entry : DispatchEntry} {method : RpcMethod}
    (hserves : entry.Serves granted name service)
    (hregistered : service.Registered granted name)
    (hmem : method ∈ service.table.methods) :
    (service.options.execution = .actorSerial →
      entry.target method = .actor (if service.options.orderedIngress then
        some (ingressAfter service.options name granted) else none)) ∧
    (service.options.execution = .concurrent → method.actorKeyed = false →
      ∃ inst, entry.inst = some inst ∧ entry.target method = .inst inst) ∧
    (service.options.execution = .concurrent → method.actorKeyed = true →
      entry.target method = .nullRegistry) := by
  unfold DispatchEntry.target
  rw [hserves.options, hserves.ingress]
  refine ⟨fun hserial => ?_, fun hconcurrent hkeyed => ?_, fun hconcurrent hkeyed => ?_⟩
  · rw [hregistered.keyed hserial method hmem, hserves.registry.mpr hserial]
    cases service.options.orderedIngress with
    | _ => rfl
  · obtain ⟨inst, hinst⟩ := Option.isSome_iff_exists.mp (hserves.inst.mpr hconcurrent)
    rw [hkeyed, hinst]
    exact ⟨inst, rfl, rfl⟩
  · have hnull : entry.registry = false := by
      rw [Bool.eq_false_iff]
      intro hset
      have hserial := hserves.registry.mp hset
      rw [hconcurrent] at hserial
      cases hserial
    obtain ⟨-, -, hunordered⟩ := hregistered.valid.concurrent hconcurrent
    rw [hkeyed, hnull, hunordered]
    rfl

namespace AssemblyWorld

variable {world last : AssemblyWorld}

/-- A request that passes the checks is for a service and a method that were registered, and
finds bound what it is dispatched to, in every state of every run; but the registry of a
keyed method of a concurrent service is null. -/
theorem accepted_request_target (hreach : assemblyMachine.Reachable world)
    {dispatcher : Dispatcher}
    (hof : world.state.dispatcher = some dispatcher ∨ dispatcher ∈ world.held)
    {request : Rpc.RpcEnvelope} {accepted : Inbound.Accepted}
    (hcheck : Inbound.checkRequest dispatcher.inbound request = .ok accepted) :
    ∃ service entry, world.registered.lookup request.service = some service ∧
      dispatcher.lookup request.service = some entry ∧
      service.table.find request.method = some accepted.method ∧
      (service.options.execution = .actorSerial →
        entry.target accepted.method = .actor (if service.options.orderedIngress then
          some (ingressAfter service.options request.service world.granted) else none)) ∧
      (service.options.execution = .concurrent → accepted.method.actorKeyed = false →
        ∃ inst, entry.inst = some inst ∧ entry.target accepted.method = .inst inst) ∧
      (service.options.execution = .concurrent → accepted.method.actorKeyed = true →
        entry.target accepted.method = .nullRegistry) := by
  have hserves := (sound_of_reachable hreach).serves hof
  obtain ⟨checked, hchecked, hmethod⟩ := Inbound.checkRequest_method hcheck
  rw [dispatcher.lookup_inbound, Option.map_eq_some_iff] at hchecked
  obtain ⟨entry, hentry, rfl⟩ := hchecked
  obtain ⟨service, hservice⟩ := Table.exists_lookup_of_mem
    ((hserves.names request.service).mp (Table.mem_of_lookup hentry))
  obtain ⟨hregistered, hrow⟩ := hserves.entries _ service entry hservice hentry
  have hfind : service.table.find request.method = some accepted.method := by
    rw [← hrow.table]
    exact hmethod
  exact ⟨service, entry, hservice, hentry, hfind,
    hrow.target hregistered (List.mem_of_find?_eq_some hfind)⟩

omit [Infra] in
/-- A request for the keyed method of the concurrent service is accepted, and finds no
registry. -/
theorem accepted_request_target_null :
    letI := permissiveInfra
    ∃ world dispatcher entry accepted, assemblyMachine.Reachable world ∧
      world.state.dispatcher = some dispatcher ∧ dispatcher.lookup "echo" = some entry ∧
      Inbound.checkRequest dispatcher.inbound ⟨"echo", "to", "", "", [], "1", []⟩ =
        .ok accepted ∧ entry.target accepted.method = .nullRegistry := by
  let _ := permissiveInfra
  have hstart : assemblyMachine.Reachable .fresh := .start rfl
  obtain ⟨world, hreach, htest⟩ := hstart.exec_any (fun _ _ => true) (fun _ _ _ => trivial)
    (sampleAssembly ++ [.bind (fun _ => .returned 7)])
    (fun world => (world.registered.lookup "echo").any (fun service =>
        service.options.execution = .concurrent) ∧
      world.state.dispatcher.any (fun dispatcher =>
        (Inbound.checkRequest dispatcher.inbound ⟨"echo", "to", "", "", [], "1", []⟩).toOption.any
          (fun accepted => accepted.method.actorKeyed))) (by decide)
  obtain ⟨hservice, hrequest⟩ := of_decide_eq_true htest
  obtain ⟨service, hlookup, hexecution⟩ := (Option.any_eq_true _ _).mp hservice
  obtain ⟨dispatcher, hdispatcher, haccepts⟩ := (Option.any_eq_true _ _).mp hrequest
  obtain ⟨accepted, haccepted, hkeyed⟩ := (Option.any_eq_true _ _).mp haccepts
  have hcheck := ok_of_toOption haccepted
  obtain ⟨found, entry, hfound, hentry, -, -, -, hnull⟩ :=
    accepted_request_target hreach (Or.inl hdispatcher) hcheck
  cases hlookup.symm.trans hfound
  exact ⟨world, dispatcher, entry, accepted, hreach, hdispatcher, hentry, hcheck,
    hnull (of_decide_eq_true hexecution) hkeyed⟩

theorem Assembles.closed (hstep : world.Assembles last)
    (hclosed : world.registrationOpen = false) : last.registrationOpen = false ∧
      last.registered = world.registered ∧ last.granted = world.granted ∧
      Left world.services last.services := by
  cases hstep with
  | kept => exact ⟨hclosed, rfl, rfl, .refl _⟩
  | registered name entry hopen =>
      rw [hclosed] at hopen
      cases hopen
  | granted grant service ingress hopen =>
      rw [hclosed] at hopen
      cases hopen
  | begun => exact ⟨rfl, rfl, rfl, .refl _⟩
  | bound make =>
      obtain ⟨hleft, hframe⟩ := world.bindServices_frame make
      rw [hframe]
      exact ⟨hclosed, rfl, rfl, hleft⟩
  | released => exact ⟨hclosed, rfl, rfl, .refl _⟩
  | dispatched => exact ⟨hclosed, rfl, rfl, .refl _⟩
  | left => exact ⟨hclosed, rfl, rfl, .refl _⟩

/-- Only the binding writes to them. -/
theorem services_of_next {step : AssemblyStep} (hnext : world.next step = some last)
    (hclosed : world.registrationOpen = false) (hother : ∀ make, step ≠ .bind make) :
    last.services = world.services := by
  cases step with
  | addService options type =>
      obtain ⟨error, hrefused⟩ := (world.addService_assembles options type).2 hclosed
      rw [next, hrefused] at hnext
      cases hnext
      rfl
  | grant grant =>
      obtain ⟨error, hrefused⟩ := (world.grantOrderedStream_assembles grant).2 hclosed
      rw [next, hrefused] at hnext
      cases hnext
      rfl
  | begin =>
      rw [next, Option.ite_none_right_eq_some] at hnext
      obtain ⟨-, hlast⟩ := hnext
      cases hlast
      rfl
  | bind make => exact absurd rfl (hother make)
  | release =>
      rw [next, Option.ite_none_left_eq_some] at hnext
      obtain ⟨-, hlast⟩ := hnext
      cases hlast
      rfl
  | dispatch =>
      rw [next] at hnext
      split at hnext
      · cases hnext
        rfl
      · cases hnext
        rfl
  | leave call =>
      cases hnext
      rfl

/-- After `run` has begun the grants, and the services as they were registered, are those it
began with, and `add_service` and `grant_ordered_stream` only ever answer with an error.  The
services themselves keep their names, their options, their ingress once it is made, and their
table until the binding moves it out; nothing else writes to them. -/
theorem registration_over (hclosed : world.registrationOpen = false)
    {steps : List AssemblyStep}
    (hrun : assemblyMachine.Run (fun _ _ => True) world steps last) :
    last.registered = world.registered ∧ last.granted = world.granted ∧
      Left world.services last.services ∧
      ((∀ make, .bind make ∉ steps) → last.services = world.services) ∧
      (∀ options type, ∃ error, last.addService options type = (.error error, last)) ∧
      ∀ grant, ∃ error, last.grantOrderedStream grant = (.error error, last) := by
  have hkept : last.registrationOpen = false ∧ last.registered = world.registered ∧
      last.granted = world.granted ∧ Left world.services last.services ∧
      ((∀ make, .bind make ∉ steps) → last.services = world.services) := by
    induction hrun with
    | refl => exact ⟨hclosed, rfl, rfl, .refl _, fun _ => rfl⟩
    | tail _ _ hnext ih =>
        obtain ⟨hmiddle, hregistered, hgranted, hleft, hsame⟩ := ih
        obtain ⟨hlast, hnextRegistered, hnextGranted, hnextLeft⟩ :=
          (next_assembles hnext).closed hmiddle
        refine ⟨hlast, hnextRegistered.trans hregistered, hnextGranted.trans hgranted,
          hleft.trans hnextLeft, fun hnone => ?_⟩
        have hother := services_of_next hnext hmiddle (fun make heq =>
          hnone make (List.mem_append_right _ (List.mem_singleton.mpr heq.symm)))
        exact hother.trans (hsame (fun make hmem => hnone make (List.mem_append_left _ hmem)))
  obtain ⟨hlast, hregistered, hgranted, hleft, hsame⟩ := hkept
  exact ⟨hregistered, hgranted, hleft, hsame,
    fun options type => (last.addService_assembles options type).2 hlast,
    fun grant => (last.grantOrderedStream_assembles grant).2 hlast⟩

omit [Infra] in
/-- The binding has moved out the table of a service that was registered with a method. -/
theorem registration_over_late :
    letI := permissiveInfra
    ∃ world last : AssemblyWorld, assemblyMachine.Reachable world ∧ world.granted.length = 1 ∧
      (world.services.lookup "room").any (fun service => service.table.methods.length = 1) ∧
      (last.services.lookup "room").any (fun service => service.table.methods.length = 0) ∧
      Left world.services last.services ∧ last.granted = world.granted ∧
      ∀ grant, ∃ error, last.grantOrderedStream grant = (.error error, last) := by
  let _ := permissiveInfra
  have hstart : assemblyMachine.Reachable .fresh := .start rfl
  obtain ⟨world, last, hreach, hrun, htest⟩ := hstart.exec_both (fun _ _ => true)
    (fun _ _ _ => trivial) sampleAssembly
    [.grant ⟨"room", "key", "producer", "p2", "r1", "peer"⟩, .bind (fun _ => .returned 7)]
    (fun world last => world.registrationOpen = false ∧ world.granted.length = 1 ∧
      (world.services.lookup "room").any (fun service => service.table.methods.length = 1) ∧
      (last.services.lookup "room").any (fun service => service.table.methods.length = 0))
    (by decide)
  obtain ⟨hclosed, hgranted, hbefore, hafter⟩ := of_decide_eq_true htest
  obtain ⟨-, hsame, hleft, -, -, hrefused⟩ := registration_over hclosed hrun
  exact ⟨world, last, hreach, hgranted, hbefore, hafter, hleft, hsame, hrefused⟩

/-- After a release no step binds again, and the calls in progress only get fewer. -/
theorem Assembles.released_for_good (hsound : world.Sound) (hstep : world.Assembles last)
    (hreleased : world.stage = .released) : last.stage = .released ∧
      last.held.Sublist world.held := by
  cases hstep with
  | kept => exact ⟨hreleased, .refl _⟩
  | registered => exact ⟨hreleased, .refl _⟩
  | granted => exact ⟨hreleased, .refl _⟩
  | begun hstage =>
      rw [hreleased] at hstage
      cases hstage
  | bound make hstage =>
      rw [hreleased] at hstage
      cases hstage
  | released => exact ⟨rfl, .refl _⟩
  | dispatched dispatcher hdispatcher =>
      have hbound := (hsound.published dispatcher hdispatcher).1
      rw [hreleased] at hbound
      cases hbound
  | left call => exact ⟨hreleased, List.eraseIdx_sublist _ _⟩

/-- After the release nothing is ever published again: every dispatch is refused, no service
is found, and the only dispatchers left are those of the calls still in progress. -/
theorem released_refuses (hreach : assemblyMachine.Reachable world)
    (hreleased : world.stage = .released) {steps : List AssemblyStep}
    (hrun : assemblyMachine.Run (fun _ _ => True) world steps last) :
    last.takeDispatcher = .error (makeError .runtimeUnavailable
        "dispatch runtime not published or already released") ∧
      (∀ name inst, last.findService name ≠ .ok inst) ∧
      last.held.Sublist world.held := by
  have hkept : last.stage = .released ∧ last.held.Sublist world.held := by
    induction hrun with
    | refl => exact ⟨hreleased, .refl _⟩
    | tail hbefore _ hnext ih =>
        obtain ⟨hmiddle, hheld⟩ := ih
        have hsound := sound_of_reachable (hreach.run hbefore)
        obtain ⟨hlast, hfewer⟩ := (next_assembles hnext).released_for_good hsound hmiddle
        exact ⟨hlast, hfewer.trans hheld⟩
  obtain ⟨hlast, hheld⟩ := hkept
  have hsound := sound_of_reachable (hreach.run hrun)
  have hnone : last.state.dispatcher = none := by
    cases hdispatcher : last.state.dispatcher with
    | none => rfl
    | some dispatcher =>
        have hbound := (hsound.published dispatcher hdispatcher).1
        rw [hlast] at hbound
        cases hbound
  refine ⟨?_, ?_, hheld⟩
  · rw [takeDispatcher, hnone]
  · intro name inst hfind
    unfold findService at hfind
    rw [hsound.idle hnone, AList.lookup_empty] at hfind
    split at hfind
    · cases hfind
    · split at hfind
      · cases hfind
      · cases hfind

omit [Infra] in
theorem released_refuses_late :
    letI := permissiveInfra
    ∃ world last : AssemblyWorld, assemblyMachine.Reachable world ∧ world.held.length = 1 ∧
      last.takeDispatcher.isOk = false ∧ last.held.Sublist world.held := by
  let _ := permissiveInfra
  have hstart : assemblyMachine.Reachable .fresh := .start rfl
  obtain ⟨world, last, hreach, hrun, htest⟩ := hstart.exec_both (fun _ _ => true)
    (fun _ _ _ => trivial)
    (sampleAssembly ++ [.bind (fun _ => .returned 7), .dispatch, .release])
    [.dispatch, .release]
    (fun world _ => world.stage = .released ∧ world.held.length = 1) (by decide)
  obtain ⟨hreleased, hheld⟩ := of_decide_eq_true htest
  obtain ⟨hrefused, -, hfewer⟩ := released_refuses hreach hreleased hrun
  refine ⟨world, last, hreach, hheld, ?_, hfewer⟩
  rw [hrefused]
  rfl

/-- The factory of a concurrent service ends in an exception. -/
def Throws (world : AssemblyWorld) (make : String → CallEnd Nat) (name : String) : Prop :=
  ∃ service, world.services.lookup name = some service ∧
    service.options.execution = .concurrent ∧ ∀ inst, make name ≠ .returned inst

omit [Infra] in
theorem bindFails_of_throws {make : String → CallEnd Nat} {name : String}
    (hthrows : world.Throws make name) : ∃ service,
      (name, service) ∈ world.orderedServices ∧ bindFails make (name, service) = true := by
  obtain ⟨service, hlookup, hconcurrent, hends⟩ := hthrows
  refine ⟨service, mem_orderedServices.mpr hlookup, ?_⟩
  rw [bindFails, hconcurrent]
  cases hend : make name with
  | returned inst => exact absurd hend (hends inst)
  | threw => rfl
  | threwOther => rfl

omit [Infra] in
theorem throws_of_bindFails {make : String → CallEnd Nat} {row : String × ServiceEntry}
    (hmem : row ∈ world.orderedServices) (hfails : bindFails make row = true) :
    world.Throws make row.1 := by
  refine ⟨row.2, mem_orderedServices.mp hmem, ?_⟩
  rw [bindFails] at hfails
  cases hexecution : row.2.options.execution with
  | actorSerial =>
      rw [hexecution] at hfails
      cases hfails
  | concurrent =>
      refine ⟨rfl, fun inst hend => ?_⟩
      rw [hexecution, hend] at hfails
      cases hfails

/-- Whatever was registered before, binding succeeds and publishes a dispatcher that serves
every service when no factory throws; else it ends at the first service in the order of the
names whose factory does, with that exception, and publishes nothing. -/
theorem binding_ends (hreach : assemblyMachine.Reachable world) (make : String → CallEnd Nat) :
    ((∀ name, ¬world.Throws make name) → ∃ dispatcher,
      (world.bindServices make).1 = .returned (.ok ()) ∧
        (world.bindServices make).2.state.dispatcher = some dispatcher ∧
        dispatcher.Serves world.services world.granted) ∧
    ∀ name, world.Throws make name → (∀ other, other < name → ¬world.Throws make other) →
      (world.bindServices make).2.state = world.state ∧
        ((∃ what, make name = .threw what ∧
          (world.bindServices make).1 = .returned (.error (bindThrew name what))) ∨
          (make name = .threwOther ∧ (world.bindServices make).1 = .threwOther)) := by
  have hsound := sound_of_reachable hreach
  rcases bindServices_cases hsound make with
    ⟨hnone, gathered, hend, hstate, hall⟩ | ⟨row, hfirst, hstate, hends⟩
  · constructor
    · intro _
      refine ⟨gathered.dispatch, hend, ?_, (serves_gathered hsound hall).1⟩
      rw [hstate]
      rfl
    · intro name hthrows
      obtain ⟨service, hmem, hfails⟩ := bindFails_of_throws hthrows
      exact absurd hfails (List.find?_eq_none.mp hnone _ hmem)
  · have hrow := throws_of_bindFails (List.mem_of_find?_eq_some hfirst)
      (List.find?_some hfirst)
    constructor
    · intro hreturn
      exact absurd hrow (hreturn row.1)
    · intro name hthrows hleast
      obtain ⟨service, hmem, hfails⟩ := bindFails_of_throws hthrows
      have hle := le_of_find_orderedServices hfirst hmem hfails
      have hge : name ≤ row.1 := String.not_lt.mp (fun hlt => hleast row.1 hlt hrow)
      cases String.le_antisymm hle hge
      exact ⟨hstate, hends⟩

omit [Infra] in
theorem binding_ends_thrown :
    letI := permissiveInfra
    ∃ world, assemblyMachine.Reachable world ∧
      (world.bindServices (fun _ => .threw "no port")).1 =
        .returned (.error (bindThrew "echo" "no port")) := by
  let _ := permissiveInfra
  have hstart : assemblyMachine.Reachable .fresh := .start rfl
  obtain ⟨world, hreach, htest⟩ := hstart.exec_any (fun _ _ => true) (fun _ _ _ => trivial)
    sampleAssembly
    (fun world => (world.services.lookup "echo").any (fun service =>
        service.options.execution = .concurrent) ∧
      ∀ name ∈ world.services.keys, ¬name < "echo") (by decide)
  obtain ⟨hservice, hleast⟩ := of_decide_eq_true htest
  obtain ⟨service, hlookup, hexecution⟩ := (Option.any_eq_true _ _).mp hservice
  have hthrows : world.Throws (fun _ => .threw "no port") "echo" :=
    ⟨service, hlookup, of_decide_eq_true hexecution, fun _ hend => by cases hend⟩
  obtain ⟨-, hends⟩ := (binding_ends hreach (fun _ => .threw "no port")).2 "echo" hthrows
    (fun name hless hthrows => by
      obtain ⟨other, hother, -⟩ := hthrows
      exact hleast name (AList.mem_keys.mp (Table.mem_of_lookup hother)) hless)
  rcases hends with ⟨what, hwhat, hend⟩ | ⟨hother, -⟩
  · cases hwhat
    exact ⟨world, hreach, hend⟩
  · cases hother

end AssemblyWorld

end

end BbtFramework.Host
