import BbtFramework.Host.Binding

/-!
# The assembly of services

What is published is sound for every order of the calls before: no service or grant is lost,
and every dispatcher, published or in the hands of a call, serves what was registered.
-/

namespace BbtFramework.Host

open BbtFramework.Library
open BbtFramework.Ordered
open BbtFramework.Inbound (RpcMethod findMethod)

namespace AssemblyWorld

variable {world last : AssemblyWorld}

theorem mem_orderedServices {row : String × ServiceEntry} :
    row ∈ world.orderedServices ↔ world.services.lookup row.1 = some row.2 := by
  rw [orderedServices, List.mem_filterMap]
  constructor
  · rintro ⟨name, -, hrow⟩
    obtain ⟨service, hlookup, rfl⟩ := Option.map_eq_some_iff.mp hrow
    exact hlookup
  · intro hlookup
    refine ⟨row.1, ?_, ?_⟩
    · rw [List.mem_insertionSort, ← AList.mem_keys]
      exact Table.mem_of_lookup hlookup
    · rw [hlookup]
      rfl

/-- The rows carry the names they are sorted by. -/
theorem orderedServices_sublist (world : AssemblyWorld) :
    (world.orderedServices.map Prod.fst).Sublist
      (world.services.keys.insertionSort (fun first second => first ≤ second)) := by
  unfold orderedServices
  induction world.services.keys.insertionSort (fun first second => first ≤ second) with
  | nil => exact .slnil
  | cons name rest ih =>
      rw [List.filterMap_cons]
      cases world.services.lookup name with
      | none => exact ih.cons _
      | some service => exact ih.cons_cons _

theorem nodup_orderedServices (world : AssemblyWorld) :
    (world.orderedServices.map Prod.fst).Nodup :=
  world.orderedServices_sublist.nodup
    ((List.perm_insertionSort _ _).nodup_iff.mpr world.services.keys_nodup)

/-- The first row of a kind has the least name. -/
theorem le_of_find_orderedServices {test : String × ServiceEntry → Bool}
    {row other : String × ServiceEntry} (hfirst : world.orderedServices.find? test = some row)
    (hmem : other ∈ world.orderedServices) (htest : test other = true) : row.1 ≤ other.1 := by
  have hsorted := (List.pairwise_insertionSort (fun first second : String => first ≤ second)
    world.services.keys).sublist world.orderedServices_sublist
  rw [List.pairwise_map] at hsorted
  obtain ⟨-, before, after, hrows, hnone⟩ := List.find?_eq_some_iff_append.mp hfirst
  rw [hrows] at hsorted hmem
  rcases List.mem_append.mp hmem with hbefore | hrest
  · have hnot := hnone other hbefore
    rw [htest] at hnot
    cases hnot
  · rcases List.mem_cons.mp hrest with rfl | hafter
    · exact String.le_refl other.1
    · exact (List.pairwise_cons.mp (List.pairwise_append.mp hsorted).2.1).1 other hafter

end AssemblyWorld

section

variable [Infra]

/-- The dispatcher has a row for every service, and for nothing else. -/
structure Dispatcher.Serves (dispatcher : Dispatcher) (services : Table String ServiceEntry)
    (granted : List OrderedGrant) : Prop where
  names : ∀ name, name ∈ dispatcher ↔ name ∈ services
  entries : ∀ name service entry, services.lookup name = some service →
    dispatcher.lookup name = some entry →
    service.Registered granted name ∧ entry.Serves granted name service

namespace AssemblyWorld

structure Assembled (world : AssemblyWorld) : Prop where
  services : ∀ name service, world.registered.lookup name = some service →
    service.Registered world.granted name
  logged : ∀ grant ∈ world.granted, grant.service ∈ world.registered

/-- What holds in every state. -/
structure Sound (world : AssemblyWorld) : Prop where
  assembled : world.Assembled
  left : Left world.registered world.services
  unmoved : world.stage = .before ∨ world.stage = .closed → world.services = world.registered
  window : world.registrationOpen = true ↔ world.stage = .before
  published : ∀ dispatcher, world.state.dispatcher = some dispatcher →
    world.stage = .bound ∧ dispatcher.Serves world.registered world.granted ∧
      ∀ name entry, dispatcher.lookup name = some entry →
        world.state.instances.lookup name = entry.inst
  idle : world.state.dispatcher = none → world.state.instances = ∅
  held : ∀ dispatcher ∈ world.held, world.stage ≠ .before ∧
    dispatcher.Serves world.registered world.granted

variable {world last : AssemblyWorld}

/-- The services that are there are known, moved out or not. -/
theorem Sound.services (hsound : world.Sound) {row : String × ServiceEntry}
    (hmem : row ∈ world.orderedServices) : row.2.Registered world.granted row.1 := by
  obtain ⟨service, hlookup, hleaves⟩ := hsound.left.earlier_of_later (mem_orderedServices.mp hmem)
  exact hleaves.registered (hsound.assembled.services _ _ hlookup)

omit [Infra] in
theorem lacks_empty (name : String) : Gathered.empty.Lacks name :=
  ⟨AList.notMem_empty name, AList.lookup_empty name⟩

/-- Binding leaves the services and writes what it publishes. -/
theorem bindServices_frame (world : AssemblyWorld) (make : String → CallEnd Nat) :
    Left world.services (world.bindServices make).2.services ∧
      (world.bindServices make).2 = { world with
        services := (world.bindServices make).2.services
        state := (world.bindServices make).2.state } := by
  have hleft : Left world.services
      (bindLoop make world.orderedServices world.services .empty).2 :=
    bindLoop_left (fun _ hmem => mem_orderedServices.mp hmem) world.nodup_orderedServices
  unfold bindServices
  dsimp only
  split <;> exact ⟨hleft, rfl⟩

/-- Binding succeeds, and the dispatch table serves every service, unless the factory of a
concurrent service throws; then nothing is published. -/
theorem bindServices_cases (hsound : world.Sound) (make : String → CallEnd Nat) :
    (world.orderedServices.find? (bindFails make) = none ∧
      ∃ gathered, (world.bindServices make).1 = .returned (.ok ()) ∧
        (world.bindServices make).2.state = publish gathered ∧
        GathersAll world.granted world.orderedServices .empty gathered) ∨
      ∃ row, world.orderedServices.find? (bindFails make) = some row ∧
        (world.bindServices make).2.state = world.state ∧
        ((∃ what, make row.1 = .threw what ∧ (world.bindServices make).1 =
            .returned (.error (bindThrew row.1 what))) ∨
          (make row.1 = .threwOther ∧ (world.bindServices make).1 = .threwOther)) := by
  have hregistered : ∀ row ∈ world.orderedServices, row.2.Registered world.granted row.1 :=
    fun row hmem => hsound.services hmem
  have hnames := world.nodup_orderedServices
  have hlacks : ∀ row ∈ world.orderedServices, Gathered.empty.Lacks row.1 :=
    fun row _ => lacks_empty row.1
  cases hfirst : world.orderedServices.find? (bindFails make) with
  | none =>
      rw [List.find?_eq_none] at hfirst
      have hgathers : ∃ last,
          (bindLoop make world.orderedServices world.services .empty).1 = .returned (.ok last) ∧
            GathersAll world.granted world.orderedServices .empty last :=
        bindLoop_gathers hregistered hnames hlacks
          (fun row hmem => Bool.not_eq_true _ ▸ hfirst row hmem)
      obtain ⟨gathered, hloop, hall⟩ := hgathers
      refine Or.inl ⟨rfl, gathered, ?_, ?_, hall⟩
      · rw [bindServices, hloop]
      · rw [bindServices, hloop]
  | some row =>
      have hloop : (bindLoop make world.orderedServices world.services .empty).1 =
          failedEnd row (make row.1) :=
        bindLoop_fails hregistered hnames hlacks hfirst
      have hfails := List.find?_some hfirst
      refine Or.inr ⟨row, rfl, ?_⟩
      cases hend : make row.1 with
      | returned inst =>
          rw [bindFails, hend] at hfails
          cases hexecution : row.2.options.execution with
          | concurrent =>
              rw [hexecution] at hfails
              cases hfails
          | actorSerial =>
              rw [hexecution] at hfails
              cases hfails
      | threw what =>
          rw [hend, failedEnd] at hloop
          rw [bindServices, hloop]
          exact ⟨rfl, Or.inl ⟨what, rfl, rfl⟩⟩
      | threwOther =>
          rw [hend, failedEnd] at hloop
          · rw [bindServices, hloop]
            exact ⟨rfl, Or.inr ⟨rfl, rfl⟩⟩
          · intro what heq
            cases heq

/-- What is published after a binding that has succeeded. -/
theorem serves_gathered (hsound : world.Sound) {gathered : Gathered}
    (hall : GathersAll world.granted world.orderedServices .empty gathered) :
    gathered.dispatch.Serves world.services world.granted ∧
      ∀ name entry, gathered.dispatch.lookup name = some entry →
        gathered.instances.lookup name = entry.inst := by
  have hmem : ∀ name, name ∈ world.orderedServices.map Prod.fst ↔ name ∈ world.services := by
    intro name
    rw [List.mem_map]
    constructor
    · rintro ⟨row, hrow, rfl⟩
      exact Table.mem_of_lookup (mem_orderedServices.mp hrow)
    · intro hname
      obtain ⟨service, hlookup⟩ := Table.exists_lookup_of_mem hname
      exact ⟨(name, service), mem_orderedServices.mpr hlookup, rfl⟩
  have hnames : ∀ name, name ∈ gathered.dispatch ↔ name ∈ world.services := by
    intro name
    constructor
    · intro hname
      obtain ⟨entry, hlookup⟩ := Table.exists_lookup_of_mem hname
      by_contra hnot
      rw [(hall.others name (fun hrow => hnot ((hmem name).mp hrow))).1] at hlookup
      cases hlookup
    · intro hname
      obtain ⟨service, hlookup⟩ := Table.exists_lookup_of_mem hname
      obtain ⟨entry, hentry, -⟩ :=
        hall.serves (name, service) (mem_orderedServices.mpr hlookup)
      exact Table.mem_of_lookup hentry
  refine ⟨⟨hnames, ?_⟩, ?_⟩
  · intro name service entry hservice hentry
    obtain ⟨served, hserved, hserves, -⟩ :=
      hall.serves (name, service) (mem_orderedServices.mpr hservice)
    cases hentry.symm.trans hserved
    have hrow : (name, service) ∈ world.orderedServices := mem_orderedServices.mpr hservice
    exact ⟨hsound.services hrow, hserves⟩
  · intro name entry hentry
    obtain ⟨service, hservice⟩ :=
      Table.exists_lookup_of_mem ((hnames name).mp (Table.mem_of_lookup hentry))
    obtain ⟨served, hserved, -, hinst⟩ :=
      hall.serves (name, service) (mem_orderedServices.mpr hservice)
    cases hentry.symm.trans hserved
    exact hinst

/-- What a step does: only the first two write to the services, and only before `run`. -/
inductive Assembles (world : AssemblyWorld) : AssemblyWorld → Prop where
  | kept : Assembles world world
  | registered (name : String) (entry : ServiceEntry) :
      world.registrationOpen = true →
      name ∉ world.services →
      name ≠ "" →
      entry.options.Valid →
      (entry.options.execution = .actorSerial →
        ∀ method ∈ entry.table.methods, method.actorKeyed = true) →
      entry.orderedIngress = none →
      Assembles world (world.insertService name entry)
  | granted (grant : OrderedGrant) (service : ServiceEntry) (ingress : OrderedIngress) :
      world.registrationOpen = true →
      world.services.lookup grant.service = some service →
      service.options.orderedIngress = true →
      ingressOf grant.service service = .ok ingress →
      Assembles world
        { world.insertService grant.service
            (service.withIngress (ingress.grantStream grant).2) with
          granted := world.granted ++ [grant] }
  | begun : world.stage = .before →
      Assembles world { world with registrationOpen := false, stage := .closed }
  | bound (make : String → CallEnd Nat) : world.stage = .closed →
      Assembles world { (world.bindServices make).2 with stage := .bound }
  | released : world.stage ≠ .before →
      Assembles world { world with stage := .released, state := .released }
  | dispatched (dispatcher : Dispatcher) : world.state.dispatcher = some dispatcher →
      Assembles world { world with held := world.held ++ [dispatcher] }
  | left (call : Nat) : Assembles world { world with held := world.held.eraseIdx call }

/-- What `add_service` answers, and what it does when it answers ok. -/
theorem addService_assembles (world : AssemblyWorld) (options : ServiceOptions)
    (type : ServiceType) :
    world.Assembles (world.addService options type).2 ∧
      (world.registrationOpen = false → ∃ error,
        world.addService options type = (.error error, world)) := by
  unfold addService
  cases hoptions : validateServiceOptions options with
  | error error => exact ⟨.kept, fun _ => ⟨error, rfl⟩⟩
  | ok _ =>
      cases htable : buildMethodTable type.declared with
      | error what => exact ⟨.kept, fun _ => ⟨_, rfl⟩⟩
      | ok table =>
          dsimp only
          cases hkeying : validateActorKeying table options.execution with
          | error error => exact ⟨.kept, fun _ => ⟨error, rfl⟩⟩
          | ok _ =>
              dsimp only
              by_cases hname : type.coServiceName = ""
              · rw [if_pos hname]
                exact ⟨.kept, fun _ => ⟨_, rfl⟩⟩
              rw [if_neg hname, register]
              by_cases hopen : world.registrationOpen = true
              · rw [if_neg (not_not.mpr hopen)]
                refine ⟨?_, fun hclosed => absurd (hopen.symm.trans hclosed) Bool.noConfusion⟩
                by_cases hmem : type.coServiceName ∈ world.services
                · rw [if_pos hmem]
                  exact .kept
                · rw [if_neg hmem]
                  exact .registered _ _ hopen hmem hname (validateServiceOptions_ok.mp hoptions)
                    (validateActorKeying_ok.mp hkeying) rfl
              · rw [if_pos hopen]
                exact ⟨.kept, fun _ => ⟨_, rfl⟩⟩

theorem grantOrderedStream_assembles (world : AssemblyWorld) (grant : OrderedGrant) :
    world.Assembles (world.grantOrderedStream grant).2 ∧
      (world.registrationOpen = false → ∃ error,
        world.grantOrderedStream grant = (.error error, world)) := by
  unfold grantOrderedStream
  by_cases hopen : world.registrationOpen = true
  · rw [if_neg (not_not.mpr hopen)]
    refine ⟨?_, fun hclosed => absurd (hopen.symm.trans hclosed) Bool.noConfusion⟩
    cases hlookup : world.services.lookup grant.service with
    | none => exact .kept
    | some service =>
        dsimp only
        by_cases hordered : service.options.orderedIngress = true
        · rw [if_neg (not_not.mpr hordered)]
          cases hingress : ingressOf grant.service service with
          | error error => exact .kept
          | ok ingress => exact .granted grant service ingress hopen hlookup hordered hingress
        · rw [if_pos hordered]
          exact .kept
  · rw [if_pos hopen]
    exact ⟨.kept, fun _ => ⟨_, rfl⟩⟩

theorem next_assembles {step : AssemblyStep} (hnext : world.next step = some last) :
    world.Assembles last := by
  cases step with
  | addService options type =>
      cases hnext
      exact (world.addService_assembles options type).1
  | grant grant =>
      cases hnext
      exact (world.grantOrderedStream_assembles grant).1
  | begin =>
      rw [next, Option.ite_none_right_eq_some] at hnext
      obtain ⟨hstage, hlast⟩ := hnext
      cases hlast
      exact .begun hstage
  | bind make =>
      rw [next, Option.ite_none_right_eq_some] at hnext
      obtain ⟨hstage, hlast⟩ := hnext
      cases hlast
      exact .bound make hstage
  | release =>
      rw [next, Option.ite_none_left_eq_some] at hnext
      obtain ⟨hstage, hlast⟩ := hnext
      cases hlast
      exact .released hstage
  | dispatch =>
      rw [next, takeDispatcher] at hnext
      cases hdispatcher : world.state.dispatcher with
      | none =>
          rw [hdispatcher] at hnext
          cases hnext
          exact .kept
      | some dispatcher =>
          rw [hdispatcher] at hnext
          cases hnext
          exact .dispatched dispatcher hdispatcher
  | leave call =>
      cases hnext
      exact .left call

theorem Sound.fresh : fresh.Sound where
  assembled :=
    { services := by
        intro name service hlookup
        cases hlookup
      logged := by
        intro grant hmem
        cases hmem }
  left := .refl ∅
  unmoved := fun _ => rfl
  window := ⟨fun _ => rfl, fun _ => rfl⟩
  published := by
    intro dispatcher heq
    cases heq
  idle := fun _ => rfl
  held := by
    intro dispatcher hmem
    cases hmem

/-- Before `run` nothing is published or held. -/
theorem Sound.unpublished (hsound : world.Sound) (hopen : world.registrationOpen = true) :
    world.state.dispatcher = none ∧ world.held = [] := by
  have hstage := hsound.window.mp hopen
  constructor
  · cases hdispatcher : world.state.dispatcher with
    | none => rfl
    | some dispatcher =>
        have hbound := (hsound.published dispatcher hdispatcher).1
        rw [hstage] at hbound
        cases hbound
  · rw [List.eq_nil_iff_forall_not_mem]
    intro dispatcher hmem
    exact (hsound.held dispatcher hmem).1 hstage

theorem Sound.rewrite (hsound : world.Sound) (hopen : world.registrationOpen = true)
    {services registered : Table String ServiceEntry} {granted : List OrderedGrant}
    (hsame : services = registered)
    (hassembled : { world with
      services := services, registered := registered, granted := granted }.Assembled) :
    { world with services := services, registered := registered, granted := granted }.Sound where
  assembled := hassembled
  left := by
    rw [hsame]
    exact .refl registered
  unmoved := fun _ => hsame
  window := hsound.window
  published := by
    intro dispatcher hdispatcher
    cases (hsound.unpublished hopen).1.symm.trans hdispatcher
  idle := hsound.idle
  held := by
    intro dispatcher hmem
    rw [show world.held = [] from (hsound.unpublished hopen).2] at hmem
    cases hmem

/-- A service that is new has no grants yet. -/
theorem Assembled.grantsOf_eq_nil (hassembled : world.Assembled) {name : String}
    (hnew : name ∉ world.registered) : grantsOf name world.granted = [] := by
  rw [grantsOf, List.filter_eq_nil_iff]
  intro grant hgrant hname
  have hmem := hassembled.logged grant hgrant
  rw [of_decide_eq_true hname] at hmem
  exact hnew hmem

theorem Assembled.register (hassembled : world.Assembled) {name : String}
    {entry : ServiceEntry} (hnew : name ∉ world.registered) (hnamed : name ≠ "")
    (hvalid : entry.options.Valid)
    (hkeyed : entry.options.execution = .actorSerial →
      ∀ method ∈ entry.table.methods, method.actorKeyed = true)
    (hingress : entry.orderedIngress = none) : (world.insertService name entry).Assembled where
  services := by
    intro other service hlookup
    by_cases hother : other = name
    · subst hother
      cases (AList.lookup_insert world.registered).symm.trans hlookup
      exact ⟨hnamed, hvalid, hkeyed, Or.inl ⟨hingress, hassembled.grantsOf_eq_nil hnew⟩⟩
    · exact hassembled.services other service
        ((AList.lookup_insert_ne hother).symm.trans hlookup)
  logged := fun grant hgrant =>
    (AList.mem_insert _).mpr (Or.inr (hassembled.logged grant hgrant))

theorem Assembled.grant (hassembled : world.Assembled) {grant : OrderedGrant}
    {service : ServiceEntry} {ingress : OrderedIngress}
    (hlookup : world.registered.lookup grant.service = some service)
    (hordered : service.options.orderedIngress = true)
    (hingress : ingressOf grant.service service = .ok ingress) :
    { world.insertService grant.service
        (service.withIngress (ingress.grantStream grant).2) with
      granted := world.granted ++ [grant] }.Assembled where
  services := by
    intro other entry hentry
    have hregistered := hassembled.services grant.service service hlookup
    rw [hregistered.ingressOf_eq hordered] at hingress
    cases hingress
    by_cases hother : other = grant.service
    · subst hother
      cases (AList.lookup_insert world.registered).symm.trans hentry
      exact hregistered.append rfl hordered
    · have hold := (AList.lookup_insert_ne hother).symm.trans hentry
      exact (hassembled.services other entry hold).append_other (Ne.symm hother)
  logged := by
    intro other hmem
    obtain hmem | hmem := List.mem_append.mp hmem
    · exact (AList.mem_insert _).mpr (Or.inr (hassembled.logged other hmem))
    · rw [List.mem_singleton.mp hmem]
      exact (AList.mem_insert _).mpr (Or.inl rfl)

theorem Sound.bind (hsound : world.Sound) (hclosed : world.stage = .closed)
    (make : String → CallEnd Nat) :
    { (world.bindServices make).2 with stage := .bound }.Sound := by
  obtain ⟨hleft, hframe⟩ := world.bindServices_frame make
  have hwindow : ¬world.registrationOpen = true := by
    intro hopen
    rw [hsound.window.mp hopen] at hclosed
    cases hclosed
  have hnone : world.state.dispatcher = none := by
    cases hdispatcher : world.state.dispatcher with
    | none => rfl
    | some dispatcher =>
        have hbound := (hsound.published dispatcher hdispatcher).1
        rw [hclosed] at hbound
        cases hbound
  rw [hframe]
  refine ⟨⟨hsound.assembled.services, hsound.assembled.logged⟩, hsound.left.trans hleft, ?_,
    ⟨fun hopen => absurd hopen hwindow, fun heq => RunStage.noConfusion heq⟩, ?_, ?_,
    fun dispatcher hmem => ⟨RunStage.noConfusion, (hsound.held dispatcher hmem).2⟩⟩
  · rintro (heq | heq)
    · cases heq
    · cases heq
  · intro dispatcher hdispatcher
    obtain ⟨-, gathered, -, hstate, hall⟩ | ⟨row, -, hstate, -⟩ :=
      bindServices_cases hsound make
    · rw [hstate] at hdispatcher ⊢
      cases hdispatcher
      rw [← hsound.unmoved (Or.inr hclosed)]
      exact ⟨rfl, serves_gathered hsound hall⟩
    · rw [hstate, hnone] at hdispatcher
      cases hdispatcher
  · intro hunpublished
    obtain ⟨-, gathered, -, hstate, -⟩ | ⟨row, -, hstate, -⟩ :=
      bindServices_cases hsound make
    · rw [hstate] at hunpublished
      cases hunpublished
    · rw [hstate]
      exact hsound.idle hnone

theorem Sound.step (hsound : world.Sound) (hstep : world.Assembles last) : last.Sound := by
  have hopened : world.registrationOpen = true → world.services = world.registered :=
    fun hopen => hsound.unmoved (Or.inl (hsound.window.mp hopen))
  cases hstep with
  | kept => exact hsound
  | registered name entry hopen hnew hnamed hvalid hkeyed hingress =>
      have hsame := hopened hopen
      rw [hsame] at hnew
      exact hsound.rewrite hopen (congrArg (AList.insert name entry) hsame)
        (hsound.assembled.register hnew hnamed hvalid hkeyed hingress)
  | granted grant service ingress hopen hlookup hordered hingress =>
      have hsame := hopened hopen
      rw [hsame] at hlookup
      exact hsound.rewrite hopen (congrArg (AList.insert grant.service _) hsame)
        (hsound.assembled.grant hlookup hordered hingress)
  | begun hstage =>
      have hopen := hsound.window.mpr hstage
      refine ⟨⟨hsound.assembled.services, hsound.assembled.logged⟩, hsound.left,
        fun _ => hopened hopen, ?_, ?_, hsound.idle, ?_⟩
      · exact ⟨fun heq => absurd heq Bool.false_ne_true, fun heq => RunStage.noConfusion heq⟩
      · intro dispatcher hdispatcher
        cases (hsound.unpublished hopen).1.symm.trans hdispatcher
      · intro dispatcher hmem
        rw [show world.held = [] from (hsound.unpublished hopen).2] at hmem
        cases hmem
  | bound make hstage => exact hsound.bind hstage make
  | released hstage =>
      refine ⟨⟨hsound.assembled.services, hsound.assembled.logged⟩, hsound.left, ?_, ?_, ?_,
        fun _ => rfl, ?_⟩
      · rintro (heq | heq)
        · cases heq
        · cases heq
      · exact ⟨fun hopen => absurd (hsound.window.mp hopen) hstage,
          fun heq => RunStage.noConfusion heq⟩
      · intro dispatcher hdispatcher
        cases hdispatcher
      · intro dispatcher hmem
        exact ⟨RunStage.noConfusion, (hsound.held dispatcher hmem).2⟩
  | dispatched dispatcher hdispatcher =>
      refine ⟨⟨hsound.assembled.services, hsound.assembled.logged⟩, hsound.left,
        hsound.unmoved, hsound.window, hsound.published, hsound.idle, ?_⟩
      intro other hmem
      rcases List.mem_append.mp hmem with hmem | hmem
      · exact hsound.held other hmem
      · cases List.mem_singleton.mp hmem
        obtain ⟨hbound, hserves, -⟩ := hsound.published dispatcher hdispatcher
        exact ⟨fun heq => RunStage.noConfusion (hbound.symm.trans heq), hserves⟩
  | left call =>
      exact ⟨⟨hsound.assembled.services, hsound.assembled.logged⟩, hsound.left,
        hsound.unmoved, hsound.window, hsound.published, hsound.idle,
        fun dispatcher hmem => hsound.held dispatcher (List.mem_of_mem_eraseIdx hmem)⟩

theorem sound_of_reachable (hreach : assemblyMachine.Reachable world) : world.Sound := by
  refine hreach.induct ?_ ?_
  · rintro state rfl
    exact .fresh
  · intro state step next _ hsound _ hnext
    exact hsound.step (next_assembles hnext)

theorem Sound.serves (hsound : world.Sound) {dispatcher : Dispatcher}
    (hof : world.state.dispatcher = some dispatcher ∨ dispatcher ∈ world.held) :
    dispatcher.Serves world.registered world.granted := by
  rcases hof with hpublished | hheld
  · exact (hsound.published dispatcher hpublished).2.1
  · exact (hsound.held dispatcher hheld).2

/-! ## What is dispatched with -/

/-- Every dispatcher, published or in the hands of a call, has a row for each registered
service and for nothing else, made of what was registered; the ingress of a row has taken
all grants of its service, in their order. -/
theorem dispatcher_serves (hreach : assemblyMachine.Reachable world) {dispatcher : Dispatcher}
    (hof : world.state.dispatcher = some dispatcher ∨ dispatcher ∈ world.held) :
    dispatcher.Serves world.registered world.granted :=
  (sound_of_reachable hreach).serves hof

omit [Infra] in
theorem ok_of_toOption {Answer : Type} {answer : Except Error Answer} {value : Answer}
    (hsome : answer.toOption = some value) : answer = .ok value := by
  cases answer with
  | error error => cases hsome
  | ok found =>
      cases hsome
      rfl

def sampleAssembly : List AssemblyStep :=
  let method := fun (name : String) (keyed : Bool) =>
    (⟨name, "", "", keyed, fun _ => .ok "key"⟩ : RpcMethod)
  [.addService ⟨.concurrent, 1, 0, 0, false, 0, 0, 0⟩ ⟨[method "say" false, method "to" true],
      "echo"⟩,
    .addService ⟨.actorSerial, 1, 4, 2, true, 1, 1, 10⟩ ⟨[method "join" true], "room"⟩,
    .grant ⟨"room", "key", "producer", "p1", "r1", "peer"⟩, .begin]

omit [Infra] in
/-- The dispatcher of a call that is still in progress after the release. -/
theorem dispatcher_serves_released :
    letI := permissiveInfra
    ∃ world dispatcher, assemblyMachine.Reachable world ∧ world.stage = .released ∧
      world.granted.length = 1 ∧ "room" ∈ world.registered ∧ dispatcher ∈ world.held ∧
      dispatcher.Serves world.registered world.granted := by
  let _ := permissiveInfra
  have hstart : assemblyMachine.Reachable .fresh := .start rfl
  obtain ⟨world, hreach, htest⟩ := hstart.exec_any (fun _ _ => true) (fun _ _ _ => trivial)
    (sampleAssembly ++ [.bind (fun _ => .returned 7), .dispatch, .release])
    (fun world => world.stage = .released ∧ world.granted.length = 1 ∧
      "room" ∈ world.registered ∧ world.held.length = 1) (by decide)
  obtain ⟨hstage, hgranted, hroom, hheld⟩ := of_decide_eq_true htest
  obtain ⟨dispatcher, hheld⟩ := List.length_eq_one_iff.mp hheld
  have hmem : dispatcher ∈ world.held := by
    rw [hheld]
    exact List.mem_singleton_self dispatcher
  exact ⟨world, dispatcher, hreach, hstage, hgranted, hroom, hmem,
    dispatcher_serves hreach (Or.inr hmem)⟩

/-- `find_service` finds exactly what requests are dispatched to. -/
theorem find_service_dispatched (hreach : assemblyMachine.Reachable world) {name : String}
    {inst : Nat} : world.findService name = .ok inst ↔
      ∃ dispatcher entry, world.state.dispatcher = some dispatcher ∧
        dispatcher.lookup name = some entry ∧ entry.inst = some inst := by
  have hsound := sound_of_reachable hreach
  constructor
  · intro hfind
    unfold findService at hfind
    cases hservice : world.services.lookup name with
    | none =>
        rw [hservice] at hfind
        cases hfind
    | some service =>
        rw [hservice] at hfind
        dsimp only at hfind
        split at hfind
        · cases hfind
        · cases hinst : world.state.instances.lookup name with
          | none =>
              rw [hinst] at hfind
              cases hfind
          | some found =>
              rw [hinst] at hfind
              cases hfind
              cases hdispatcher : world.state.dispatcher with
              | none =>
                  rw [hsound.idle hdispatcher, AList.lookup_empty] at hinst
                  cases hinst
              | some dispatcher =>
                  obtain ⟨-, hserves, hsame⟩ := hsound.published dispatcher hdispatcher
                  obtain ⟨registered, hregistered, -⟩ := hsound.left.earlier_of_later hservice
                  obtain ⟨entry, hentry⟩ := Table.exists_lookup_of_mem
                    ((hserves.names name).mpr (Table.mem_of_lookup hregistered))
                  exact ⟨dispatcher, entry, rfl, hentry, (hsame name entry hentry).symm.trans hinst⟩
  · rintro ⟨dispatcher, entry, hdispatcher, hentry, hinst⟩
    obtain ⟨-, hserves, hsame⟩ := hsound.published dispatcher hdispatcher
    obtain ⟨service, hservice⟩ := Table.exists_lookup_of_mem
      ((hserves.names name).mp (Table.mem_of_lookup hentry))
    obtain ⟨-, hrow⟩ := hserves.entries name service entry hservice hentry
    have hconcurrent : service.options.execution = .concurrent :=
      hrow.inst.mp (Option.isSome_iff_exists.mpr ⟨inst, hinst⟩)
    obtain ⟨left, hleft, hleaves⟩ := hsound.left.later_of_earlier hservice
    have hother : ¬left.options.execution = .actorSerial := by
      rw [hleaves.options, hconcurrent]
      exact ExecutionPolicy.noConfusion
    rw [findService, hleft]
    dsimp only
    rw [if_neg hother, hsame name entry hentry, hinst]

omit [Infra] in
theorem find_service_dispatched_bound :
    letI := permissiveInfra
    ∃ world dispatcher entry, assemblyMachine.Reachable world ∧
      world.state.dispatcher = some dispatcher ∧ dispatcher.lookup "echo" = some entry ∧
      entry.inst = some 7 := by
  let _ := permissiveInfra
  have hstart : assemblyMachine.Reachable .fresh := .start rfl
  obtain ⟨world, hreach, htest⟩ := hstart.exec_any (fun _ _ => true) (fun _ _ _ => trivial)
    (sampleAssembly ++ [.bind (fun _ => .returned 7)])
    (fun world => (world.findService "echo").toOption = some 7) (by decide)
  obtain ⟨dispatcher, entry, hfound⟩ :=
    (find_service_dispatched hreach).mp (ok_of_toOption (of_decide_eq_true htest))
  exact ⟨world, dispatcher, entry, hreach, hfound⟩

end AssemblyWorld

end

end BbtFramework.Host
