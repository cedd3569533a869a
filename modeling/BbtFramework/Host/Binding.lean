import BbtFramework.Host.Services

/-!
# What binding gathers and leaves

A service that was registered has passed the checks of `add_service`.  One turn of the loop
gathers the rows of its service and leaves its options and its ingress; so does the loop.
-/

namespace BbtFramework.Host

open BbtFramework.Library
open BbtFramework.Ordered
open BbtFramework.Inbound (RpcMethod findMethod)

/-- What `ValidateServiceOptions` accepts. -/
structure ServiceOptions.Valid (options : ServiceOptions) : Prop where
  inflight : 0 < options.maxInflight
  serial : options.execution = .actorSerial →
    0 < options.mailboxCapacity ∧ 0 < options.maxActors
  concurrent : options.execution = .concurrent →
    options.mailboxCapacity = 0 ∧ options.maxActors = 0 ∧ options.orderedIngress = false
  ordered : options.orderedIngress = true → 0 < options.maxOrderedStreams ∧
    0 < options.maxCachedResults ∧ 0 < options.maxCachedResultBytes
  unordered : options.orderedIngress = false → options.maxOrderedStreams = 0 ∧
    options.maxCachedResults = 0 ∧ options.maxCachedResultBytes = 0

section

variable [Infra]

theorem check_ok {condition : Prop} [Decidable condition] {field why : String}
    {rest : Except Error Unit} :
    (if condition then failField field why else rest) = .ok () ↔
      ¬condition ∧ rest = .ok () := by
  split
  case isTrue hcondition =>
    constructor
    · intro hok
      cases hok
    · rintro ⟨hnot, -⟩
      exact absurd hcondition hnot
  case isFalse hcondition => exact ⟨fun hok => ⟨hcondition, hok⟩, fun hok => hok.2⟩

theorem validateExecution_ok {options : ServiceOptions} :
    validateExecution options = .ok () ↔
      (options.execution = .actorSerial →
        0 < options.mailboxCapacity ∧ 0 < options.maxActors) ∧
      (options.execution = .concurrent → options.mailboxCapacity = 0 ∧
        options.maxActors = 0 ∧ options.orderedIngress = false) := by
  unfold validateExecution
  cases options.execution with
  | actorSerial =>
      simp only [check_ok, and_true, reduceCtorEq, false_imp_iff, true_imp_iff]
      omega
  | concurrent =>
      simp only [check_ok, and_true, reduceCtorEq, false_imp_iff, true_imp_iff, true_and,
        Bool.not_eq_true, not_not]

theorem validateOrdered_ok {options : ServiceOptions} :
    validateOrdered options = .ok () ↔
      (options.orderedIngress = true → 0 < options.maxOrderedStreams ∧
        0 < options.maxCachedResults ∧ 0 < options.maxCachedResultBytes) ∧
      (options.orderedIngress = false → options.maxOrderedStreams = 0 ∧
        options.maxCachedResults = 0 ∧ options.maxCachedResultBytes = 0) := by
  unfold validateOrdered
  cases options.orderedIngress with
  | true =>
      simp only [if_true, check_ok, and_true, reduceCtorEq, false_imp_iff, true_imp_iff]
      omega
  | false =>
      simp only [Bool.false_eq_true, if_false, check_ok, and_true, false_imp_iff,
        true_imp_iff, true_and, not_not]

/-- The checks accept exactly the options that are valid. -/
theorem validateServiceOptions_ok {options : ServiceOptions} :
    validateServiceOptions options = .ok () ↔ options.Valid := by
  unfold validateServiceOptions
  split
  case isTrue hzero =>
    constructor
    · intro hok
      cases hok
    · intro hvalid
      exact absurd hzero (Nat.pos_iff_ne_zero.mp hvalid.inflight)
  case isFalse hpositive =>
    cases hexecution : validateExecution options with
    | error error =>
        constructor
        · intro hok
          cases hok
        · intro hvalid
          have hok := validateExecution_ok.mpr ⟨hvalid.serial, hvalid.concurrent⟩
          rw [hexecution] at hok
          cases hok
    | ok _ =>
        obtain ⟨hserial, hconcurrent⟩ := validateExecution_ok.mp hexecution
        constructor
        · intro hok
          obtain ⟨hordered, hunordered⟩ := validateOrdered_ok.mp hok
          exact ⟨Nat.pos_of_ne_zero hpositive, hserial, hconcurrent, hordered, hunordered⟩
        · intro hvalid
          exact validateOrdered_ok.mpr ⟨hvalid.ordered, hvalid.unordered⟩

theorem validateActorKeying_ok {table : RpcMethodTable} {execution : ExecutionPolicy} :
    validateActorKeying table execution = .ok () ↔
      (execution = .actorSerial → ∀ method ∈ table.methods, method.actorKeyed = true) := by
  unfold validateActorKeying
  split
  case isTrue hother =>
    exact ⟨fun _ heq => absurd heq hother, fun _ => rfl⟩
  case isFalse hserial =>
    rw [not_not] at hserial
    split
    case h_1 hnone =>
      rw [List.find?_eq_none] at hnone
      refine ⟨fun _ _ method hmem => ?_, fun _ => rfl⟩
      simpa using hnone method hmem
    case h_2 method hfound =>
      constructor
      · intro hok
        cases hok
      · intro hkeyed
        have htest := List.find?_some hfound
        rw [hkeyed hserial method (List.mem_of_find?_eq_some hfound)] at htest
        cases htest

end

section

variable [Infra]

def grantsOf (name : String) (grants : List OrderedGrant) : List OrderedGrant :=
  grants.filter (fun grant => grant.service = name)

omit [Infra] in
theorem grantsOf_append {name : String} {grants : List OrderedGrant} {grant : OrderedGrant} :
    grantsOf name (grants ++ [grant]) =
      if grant.service = name then grantsOf name grants ++ [grant] else grantsOf name grants := by
  rw [grantsOf, List.filter_append, List.filter_singleton]
  split
  case isTrue hname =>
    rw [decide_eq_true hname]
    rfl
  case isFalse hname =>
    rw [decide_eq_false hname]
    exact List.append_nil _

def ingressAfter (options : ServiceOptions) (name : String) (grants : List OrderedGrant) :
    OrderedIngress :=
  (grantsOf name grants).foldl (fun ingress grant => (ingress.grantStream grant).2)
    { config := options.ingressConfig name }

theorem ingressAfter_append {options : ServiceOptions} {name : String}
    {grants : List OrderedGrant} {grant : OrderedGrant} (hname : grant.service = name) :
    ingressAfter options name (grants ++ [grant]) =
      ((ingressAfter options name grants).grantStream grant).2 := by
  rw [ingressAfter, grantsOf_append, if_pos hname, List.foldl_append]
  rfl

structure ServiceEntry.Registered (granted : List OrderedGrant) (name : String)
    (service : ServiceEntry) : Prop where
  named : name ≠ ""
  valid : service.options.Valid
  keyed : service.options.execution = .actorSerial →
    ∀ method ∈ service.table.methods, method.actorKeyed = true
  ingress : (service.orderedIngress = none ∧ grantsOf name granted = []) ∨
    (service.options.orderedIngress = true ∧
      service.orderedIngress = some (ingressAfter service.options name granted))

namespace ServiceEntry.Registered

variable {granted : List OrderedGrant} {name : String} {service : ServiceEntry}

theorem create_ok (hregistered : service.Registered granted name)
    (hordered : service.options.orderedIngress = true) :
    OrderedIngress.create (service.options.ingressConfig name) =
      .ok { config := service.options.ingressConfig name } := by
  obtain ⟨hstreams, hresults, hbytes⟩ := hregistered.valid.ordered hordered
  have hpositive : ¬(service.options.maxOrderedStreams = 0 ∨
      service.options.maxCachedResults = 0 ∨ service.options.maxCachedResultBytes = 0) := by
    omega
  exact (if_neg hregistered.named).trans (if_neg hpositive)

/-- The ingress found or made is the one the grants went into. -/
theorem ingressOf_eq (hregistered : service.Registered granted name)
    (hordered : service.options.orderedIngress = true) :
    AssemblyWorld.ingressOf name service = .ok (ingressAfter service.options name granted) := by
  rw [AssemblyWorld.ingressOf]
  obtain ⟨hnew, hnone⟩ | ⟨-, hmade⟩ := hregistered.ingress
  · rw [hnew, ingressAfter, hnone]
    exact hregistered.create_ok hordered
  · rw [hmade]

/-- An ingress that is not needed is not there. -/
theorem unordered (hregistered : service.Registered granted name)
    (hunordered : service.options.orderedIngress = false) : service.orderedIngress = none := by
  obtain ⟨hnone, -⟩ | ⟨hordered, -⟩ := hregistered.ingress
  · exact hnone
  · rw [hunordered] at hordered
    cases hordered

theorem append_other {grant : OrderedGrant} (hregistered : service.Registered granted name)
    (hname : grant.service ≠ name) : service.Registered (granted ++ [grant]) name where
  named := hregistered.named
  valid := hregistered.valid
  keyed := hregistered.keyed
  ingress := by
    rw [ingressAfter, grantsOf_append, if_neg hname]
    exact hregistered.ingress

theorem append {grant : OrderedGrant} (hregistered : service.Registered granted name)
    (hname : grant.service = name) (hordered : service.options.orderedIngress = true) :
    (service.withIngress ((ingressAfter service.options name granted).grantStream
      grant).2).Registered (granted ++ [grant]) name where
  named := hregistered.named
  valid := hregistered.valid
  keyed := hregistered.keyed
  ingress := by
    refine Or.inr ⟨hordered, ?_⟩
    rw [ServiceEntry.withIngress, ingressAfter_append hname]

end ServiceEntry.Registered

/-- What later states leave of a service: its options, its table unless it was moved out, and
its ingress, or the one that was made when there was none. -/
structure ServiceEntry.Leaves (name : String) (service left : ServiceEntry) : Prop where
  options : left.options = service.options
  table : left.table = service.table ∨ left.table = .empty
  ingress : left.orderedIngress = service.orderedIngress ∨
    (service.options.orderedIngress = true ∧ ∃ made,
      AssemblyWorld.ingressOf name service = .ok made ∧ left.orderedIngress = some made)

namespace ServiceEntry.Leaves

variable {name : String} {service middle left : ServiceEntry}

theorem refl (name : String) (service : ServiceEntry) : service.Leaves name service :=
  ⟨rfl, Or.inl rfl, Or.inl rfl⟩

theorem trans (hfirst : service.Leaves name middle) (hsecond : middle.Leaves name left) :
    service.Leaves name left where
  options := hsecond.options.trans hfirst.options
  table := by
    obtain hsame | hmoved := hsecond.table
    · rw [hsame]
      exact hfirst.table
    · exact Or.inr hmoved
  ingress := by
    obtain hsame | ⟨hordered, made, hmade, hleft⟩ := hsecond.ingress
    · rw [hsame]
      exact hfirst.ingress
    · rw [hfirst.options] at hordered
      refine Or.inr ⟨hordered, ?_⟩
      rw [AssemblyWorld.ingressOf, hfirst.options] at hmade
      obtain hkept | ⟨-, earlier, hearlier, hmiddle⟩ := hfirst.ingress
      · rw [hkept] at hmade
        exact ⟨made, hmade, hleft⟩
      · rw [hmiddle] at hmade
        cases hmade
        exact ⟨_, hearlier, hleft⟩

/-- What is known of a service is known of what is left of it. -/
theorem registered {granted : List OrderedGrant} (hleaves : service.Leaves name left)
    (hregistered : service.Registered granted name) : left.Registered granted name where
  named := hregistered.named
  valid := by
    rw [hleaves.options]
    exact hregistered.valid
  keyed := by
    intro hserial method hmem
    rw [hleaves.options] at hserial
    obtain hsame | hmoved := hleaves.table
    · rw [hsame] at hmem
      exact hregistered.keyed hserial method hmem
    · rw [hmoved] at hmem
      exact absurd hmem List.not_mem_nil
  ingress := by
    rw [hleaves.options]
    obtain hsame | ⟨hordered, made, hmade, hleft⟩ := hleaves.ingress
    · rw [hsame]
      exact hregistered.ingress
    · rw [hregistered.ingressOf_eq hordered] at hmade
      cases hmade
      exact Or.inr ⟨hordered, hleft⟩

end ServiceEntry.Leaves

def Left (earlier later : Table String ServiceEntry) : Prop :=
  ∀ name, Option.Rel (ServiceEntry.Leaves name) (earlier.lookup name) (later.lookup name)

namespace Left

variable {earlier middle later : Table String ServiceEntry} {name : String}

theorem refl (services : Table String ServiceEntry) : Left services services := by
  intro name
  cases services.lookup name with
  | none => exact .none
  | some service => exact .some (.refl name service)

theorem trans (hfirst : Left earlier middle) (hsecond : Left middle later) :
    Left earlier later := by
  intro name
  have hbefore := hfirst name
  have hafter := hsecond name
  generalize earlier.lookup name = first at hbefore ⊢
  generalize middle.lookup name = second at hbefore hafter
  generalize later.lookup name = third at hafter ⊢
  cases hbefore with
  | none => exact hafter
  | some hleaves =>
      cases hafter with
      | some hmore => exact .some (hleaves.trans hmore)

theorem earlier_of_later (hleft : Left earlier later) {left : ServiceEntry}
    (hlater : later.lookup name = some left) :
    ∃ service, earlier.lookup name = some service ∧ service.Leaves name left := by
  have hrel := hleft name
  rw [hlater] at hrel
  generalize earlier.lookup name = first at hrel ⊢
  cases hrel with
  | some hleaves => exact ⟨_, rfl, hleaves⟩

theorem later_of_earlier (hleft : Left earlier later) {service : ServiceEntry}
    (hearlier : earlier.lookup name = some service) :
    ∃ left, later.lookup name = some left ∧ service.Leaves name left := by
  have hrel := hleft name
  rw [hearlier] at hrel
  generalize later.lookup name = last at hrel ⊢
  cases hrel with
  | some hleaves => exact ⟨_, rfl, hleaves⟩

theorem insert {services : Table String ServiceEntry} {service left : ServiceEntry}
    (hlookup : services.lookup name = some service) (hleaves : service.Leaves name left) :
    Left services (services.insert name left) := by
  intro other
  by_cases hother : other = name
  · subst hother
    rw [hlookup, AList.lookup_insert]
    exact .some hleaves
  · rw [AList.lookup_insert_ne hother]
    exact refl services other

end Left

/-! ## What the loop gathers -/

structure DispatchEntry.Serves (granted : List OrderedGrant) (name : String)
    (service : ServiceEntry) (entry : DispatchEntry) : Prop where
  options : entry.options = service.options
  table : entry.table = service.table
  inst : entry.inst.isSome = true ↔ service.options.execution = .concurrent
  registry : entry.registry = true ↔ service.options.execution = .actorSerial
  ingress : entry.orderedIngress =
    if service.options.orderedIngress then some (ingressAfter service.options name granted)
    else none

variable {granted : List OrderedGrant} {make : String → CallEnd Nat}

/-- The pointer `_BindServices` puts into the row. -/
theorem ingress_gathered {name : String} {service : ServiceEntry}
    (hregistered : service.Registered granted name) :
    (if service.options.orderedIngress then
      (AssemblyWorld.ingressOf name service).map some else .ok service.orderedIngress) =
      .ok (if service.options.orderedIngress then
        some (ingressAfter service.options name granted) else none) := by
  cases hordered : service.options.orderedIngress with
  | true =>
      rw [if_pos rfl, if_pos rfl, hregistered.ingressOf_eq hordered]
      rfl
  | false =>
      rw [if_neg Bool.false_ne_true, if_neg Bool.false_ne_true, hregistered.unordered hordered]

/-- The factory of a concurrent service ends in an exception. -/
def bindFails (make : String → CallEnd Nat) (row : String × ServiceEntry) : Bool :=
  match row.2.options.execution, make row.1 with
  | .actorSerial, _ => false
  | .concurrent, .returned _ => false
  | .concurrent, _ => true

structure Turned (granted : List OrderedGrant) (row : String × ServiceEntry)
    (gathered more : Gathered) : Prop where
  entry : ∃ entry, entry.Serves granted row.1 row.2 ∧
    more.dispatch = gathered.dispatch.insert row.1 entry ∧
    more.instances.lookup row.1 = entry.inst
  others : ∀ name, name ≠ row.1 → more.instances.lookup name = gathered.instances.lookup name ∧
    (name ∉ gathered.registry.services → name ∉ more.registry.services)

/-- No turn has gathered anything under the name. -/
def Gathered.Lacks (gathered : Gathered) (name : String) : Prop :=
  name ∉ gathered.registry.services ∧ gathered.instances.lookup name = none

theorem Turned.lacks {row : String × ServiceEntry} {gathered more : Gathered} {name : String}
    (hturned : Turned granted row gathered more) (hne : name ≠ row.1)
    (hlacks : gathered.Lacks name) : more.Lacks name :=
  have ⟨hinst, hregistry⟩ := hturned.others name hne
  ⟨hregistry hlacks.1, hinst.trans hlacks.2⟩

/-- A turn gathers the rows of its service, unless the factory throws. -/
theorem bindService_turned {row : String × ServiceEntry} {gathered : Gathered}
    (hregistered : row.2.Registered granted row.1) (hlacks : gathered.Lacks row.1)
    (hmade : bindFails make row = false) :
    ∃ more, (bindService row.1 row.2 (make row.1) gathered).1 = .returned (.ok more) ∧
      Turned granted row gathered more := by
  unfold bindService
  rw [ingress_gathered hregistered]
  unfold gatherService
  unfold bindFails at hmade
  cases hexecution : row.2.options.execution with
  | concurrent =>
      rw [hexecution] at hmade
      cases hend : make row.1 with
      | returned inst =>
          refine ⟨_, rfl, ⟨_, ⟨rfl, rfl, ?_, ?_, rfl⟩, rfl, AList.lookup_insert _⟩,
            fun name hne => ⟨AList.lookup_insert_ne hne, fun hnot => hnot⟩⟩
          · rw [hexecution]
            exact ⟨fun _ => rfl, fun _ => rfl⟩
          · rw [hexecution]
            exact ⟨fun hset => absurd hset Bool.false_ne_true,
              fun heq => ExecutionPolicy.noConfusion heq⟩
      | threw what =>
          rw [hend] at hmade
          cases hmade
      | threwOther =>
          rw [hend] at hmade
          cases hmade
  | actorSerial =>
      have hactors := (hregistered.valid.serial hexecution).2
      have hok : Actor.registerFactory gathered.registry row.1 true row.2.options.maxActors =
          (.ok (), { gathered.registry with services :=
            gathered.registry.services.insert row.1 ⟨row.2.options.maxActors, 0⟩ }) :=
        (if_neg hregistered.named).trans ((if_neg Bool.false_ne_true).trans
          ((if_neg (Nat.pos_iff_ne_zero.mp hactors)).trans (if_neg hlacks.1)))
      dsimp only
      rw [hok]
      refine ⟨_, rfl, ⟨_, ⟨rfl, rfl, ?_, ?_, rfl⟩, rfl, hlacks.2⟩, ?_⟩
      · rw [hexecution]
        exact ⟨fun hset => absurd hset Bool.false_ne_true,
          fun heq => ExecutionPolicy.noConfusion heq⟩
      · rw [hexecution]
        exact ⟨fun _ => rfl, fun _ => rfl⟩
      · intro name hne
        refine ⟨rfl, fun hnot hmem => ?_⟩
        rcases (AList.mem_insert _).mp hmem with heq | hmem
        · exact hne heq
        · exact hnot hmem

/-- How the binding ends at a service whose factory throws. -/
def failedEnd (row : String × ServiceEntry) :
    CallEnd Nat → CallEnd (Except Error Gathered)
  | .threw what => .returned (.error (bindThrew row.1 what))
  | _ => .threwOther

theorem bindService_fails {row : String × ServiceEntry} {gathered : Gathered}
    (hregistered : row.2.Registered granted row.1) (hfails : bindFails make row = true) :
    (bindService row.1 row.2 (make row.1) gathered).1 = failedEnd row (make row.1) := by
  unfold bindService
  rw [ingress_gathered hregistered]
  unfold gatherService
  unfold bindFails at hfails
  cases hexecution : row.2.options.execution with
  | actorSerial =>
      rw [hexecution] at hfails
      cases hfails
  | concurrent =>
      rw [hexecution] at hfails
      cases hend : make row.1 with
      | returned inst =>
          rw [hend] at hfails
          cases hfails
      | threw what => rfl
      | threwOther => rfl

structure GathersAll (granted : List OrderedGrant) (rows : List (String × ServiceEntry))
    (gathered last : Gathered) : Prop where
  serves : ∀ row ∈ rows, ∃ entry, last.dispatch.lookup row.1 = some entry ∧
    entry.Serves granted row.1 row.2 ∧ last.instances.lookup row.1 = entry.inst
  others : ∀ name, name ∉ rows.map Prod.fst →
    last.dispatch.lookup name = gathered.dispatch.lookup name ∧
      last.instances.lookup name = gathered.instances.lookup name

theorem bindLoop_gathers {rows : List (String × ServiceEntry)}
    {services : Table String ServiceEntry} {gathered : Gathered}
    (hregistered : ∀ row ∈ rows, row.2.Registered granted row.1)
    (hnames : (rows.map Prod.fst).Nodup)
    (hlacks : ∀ row ∈ rows, gathered.Lacks row.1)
    (hmade : ∀ row ∈ rows, bindFails make row = false) :
    ∃ last, (bindLoop make rows services gathered).1 = .returned (.ok last) ∧
      GathersAll granted rows gathered last := by
  induction rows generalizing services gathered with
  | nil =>
      refine ⟨gathered, rfl, ⟨?_, fun _ _ => ⟨rfl, rfl⟩⟩⟩
      intro row hmem
      cases hmem
  | cons row rest ih =>
      obtain ⟨hnew, hrest⟩ := List.nodup_cons.mp hnames
      obtain ⟨more, hturn, hturned⟩ := bindService_turned
        (hregistered row List.mem_cons_self) (hlacks row List.mem_cons_self)
        (hmade row List.mem_cons_self)
      have hapart : ∀ other ∈ rest, other.1 ≠ row.1 :=
        fun other hmem heq => hnew (List.mem_map.mpr ⟨other, hmem, heq⟩)
      obtain ⟨last, hloop, hall⟩ := ih
        (fun other hmem => hregistered other (List.mem_cons_of_mem _ hmem)) hrest
        (fun other hmem => hturned.lacks (hapart other hmem)
          (hlacks other (List.mem_cons_of_mem _ hmem)))
        (fun other hmem => hmade other (List.mem_cons_of_mem _ hmem))
      obtain ⟨entry, hserves, hdispatch, hinst⟩ := hturned.entry
      refine ⟨last, ?_, ?_, ?_⟩
      · rw [bindLoop, hturn]
        exact hloop
      · intro other hmem
        rcases List.mem_cons.mp hmem with rfl | hmem
        · obtain ⟨hsame, hsameInst⟩ := hall.others other.1 hnew
          refine ⟨entry, ?_, hserves, hsameInst.trans hinst⟩
          rw [hsame, hdispatch]
          exact AList.lookup_insert _
        · exact hall.serves other hmem
      · intro name hname
        rw [List.map_cons, List.mem_cons, not_or] at hname
        obtain ⟨hsame, hsameInst⟩ := hall.others name hname.2
        refine ⟨?_, hsameInst.trans (hturned.others name hname.1).1⟩
        rw [hsame, hdispatch]
        exact AList.lookup_insert_ne hname.1

/-- The loop stops at the first service whose factory throws. -/
theorem bindLoop_fails {rows : List (String × ServiceEntry)}
    {services : Table String ServiceEntry} {gathered : Gathered}
    {row : String × ServiceEntry}
    (hregistered : ∀ row ∈ rows, row.2.Registered granted row.1)
    (hnames : (rows.map Prod.fst).Nodup)
    (hlacks : ∀ row ∈ rows, gathered.Lacks row.1)
    (hfirst : rows.find? (bindFails make) = some row) :
    (bindLoop make rows services gathered).1 = failedEnd row (make row.1) := by
  induction rows generalizing services gathered with
  | nil => cases hfirst
  | cons head rest ih =>
      cases hfails : bindFails make head with
      | true =>
          rw [List.find?_cons, hfails] at hfirst
          cases hfirst
          rw [bindLoop, bindService_fails (hregistered row List.mem_cons_self) hfails]
          cases make row.1 with
          | _ => rfl
      | false =>
          rw [List.find?_cons, hfails] at hfirst
          obtain ⟨hnew, hrest⟩ := List.nodup_cons.mp hnames
          obtain ⟨more, hturn, hturned⟩ := bindService_turned
            (hregistered head List.mem_cons_self) (hlacks head List.mem_cons_self) hfails
          rw [bindLoop, hturn]
          exact ih (fun other hmem => hregistered other (List.mem_cons_of_mem _ hmem)) hrest
            (fun other hmem => hturned.lacks
              (fun heq => hnew (List.mem_map.mpr ⟨other, hmem, heq⟩))
              (hlacks other (List.mem_cons_of_mem _ hmem))) hfirst

theorem bindService_leaves (name : String) (service : ServiceEntry) (made : CallEnd Nat)
    (gathered : Gathered) : service.Leaves name (bindService name service made gathered).2 := by
  unfold bindService
  cases hordered : service.options.orderedIngress with
  | false => exact ⟨rfl, Or.inr rfl, Or.inl rfl⟩
  | true =>
      rw [if_pos rfl]
      cases hingress : AssemblyWorld.ingressOf name service with
      | error error => exact .refl name service
      | ok ingress => exact ⟨rfl, Or.inr rfl, Or.inr ⟨hordered, ingress, hingress, rfl⟩⟩

/-- However the loop ends, it leaves all services. -/
theorem bindLoop_left {rows : List (String × ServiceEntry)}
    {services : Table String ServiceEntry} {gathered : Gathered}
    (hrows : ∀ row ∈ rows, services.lookup row.1 = some row.2)
    (hnames : (rows.map Prod.fst).Nodup) :
    Left services (bindLoop make rows services gathered).2 := by
  induction rows generalizing services gathered with
  | nil => exact .refl services
  | cons row rest ih =>
      obtain ⟨hnew, hrest⟩ := List.nodup_cons.mp hnames
      have hturn : Left services
          (services.insert row.1 (bindService row.1 row.2 (make row.1) gathered).2) :=
        .insert (hrows row List.mem_cons_self) (bindService_leaves _ _ _ _)
      unfold bindLoop
      dsimp only
      cases (bindService row.1 row.2 (make row.1) gathered).1 with
      | returned result =>
          cases result with
          | error error => exact hturn
          | ok more =>
              refine hturn.trans (ih ?_ hrest)
              intro other hmem
              have hapart : other.1 ≠ row.1 :=
                fun heq => hnew (List.mem_map.mpr ⟨other, hmem, heq⟩)
              exact (AList.lookup_insert_ne hapart).trans
                (hrows other (List.mem_cons_of_mem _ hmem))
      | threw what => exact hturn
      | threwOther => exact hturn

end

end BbtFramework.Host
