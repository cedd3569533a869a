import BbtFramework.Library.Machine
import BbtFramework.Library.RoundRobin
import BbtFramework.Rpc.RuntimeSend

/-!
# Dynamic routes over a history of calls

Discovery publishes whole views with `Replace` and withdraws them with `MarkUnavailable`;
the data plane resolves.  The history records what each call did, and a world is accounted
for when its table is what the history says.
-/

namespace BbtFramework.Rpc

open BbtFramework.Library

namespace DynamicRouteTable

/-- `push_back`, unless the endpoint has been seen. -/
def pushUnseen (unique : List RpcAddress) (endpoint : RpcAddress) : List RpcAddress :=
  if endpoint ∈ unique then unique else unique ++ [endpoint]

/-- The endpoints without repetitions, each where it came first. -/
def distinct (endpoints : List RpcAddress) : List RpcAddress :=
  endpoints.foldl pushUnseen []

/-- What `m_entries[service]` finds when it has to make the entry. -/
def createdEntry : DynamicRoute where
  snapshot := ⟨0, 0, []⟩
  next := 0
  unavailable := false

section

variable [Infra]

def emptyNameError : Error :=
  makeError .invalidArgument "DynamicRouteTable::Replace: empty service name"

def emptyEndpointError (service : String) : Error :=
  makeError .invalidArgument ("DynamicRouteTable::Replace: service '" ++ service ++
    "' has endpoint with empty transport/endpoint")

/-- Publish a view; `now` is the reading of the clock taken before the lock. -/
def replace (table : DynamicRouteTable) (now : Deadline) (service : String)
    (revision : UInt64) (endpoints : List RpcAddress) :
    Except Error Unit × DynamicRouteTable :=
  if service = "" then (.error emptyNameError, table)
  else if endpoints.any (fun endpoint =>
      endpoint.transport = "" || endpoint.endpoint = "") then
    (.error (emptyEndpointError service), table)
  else
    let fresh : DynamicRouteSnapshot := ⟨revision, now, distinct endpoints⟩
    let entry := (table.entries.lookup service).getD createdEntry
    -- the same endpoints keep the rotation, whatever the revision
    let next := if entry.snapshot.endpoints = fresh.endpoints then entry.next else 0
    (.ok (), { table with entries := table.entries.insert service ⟨fresh, next, false⟩ })

end

/-- Withdraw a view; a service that was never published stays unknown. -/
def markUnavailable (table : DynamicRouteTable) (service : String) : DynamicRouteTable :=
  match table.entries.lookup service with
  | none => table
  | some entry =>
      { table with
        entries := table.entries.insert service
          { entry with
            snapshot := { entry.snapshot with endpoints := [] }
            unavailable := true } }

def view (table : DynamicRouteTable) (service : String) : List RpcAddress :=
  ((table.entries.lookup service).getD createdEntry).snapshot.endpoints

/-- The cursor that goes round them. -/
def cursor (table : DynamicRouteTable) (service : String) : Nat :=
  ((table.entries.lookup service).getD createdEntry).next.toNat

theorem mem_pushUnseen {unique : List RpcAddress} {endpoint address : RpcAddress} :
    address ∈ pushUnseen unique endpoint ↔ address ∈ unique ∨ address = endpoint := by
  unfold pushUnseen
  split
  case isTrue hseen =>
    constructor
    · exact Or.inl
    · rintro (hin | rfl)
      · exact hin
      · exact hseen
  case isFalse => rw [List.mem_append, List.mem_singleton]

theorem nodup_pushUnseen {unique : List RpcAddress} (hunique : unique.Nodup)
    (endpoint : RpcAddress) : (pushUnseen unique endpoint).Nodup := by
  unfold pushUnseen
  split
  case isTrue => exact hunique
  case isFalse hunseen =>
    rw [← List.concat_eq_append]
    exact hunique.concat hunseen

theorem nodup_distinct (endpoints : List RpcAddress) : (distinct endpoints).Nodup := by
  have hfold : ∀ unique : List RpcAddress, unique.Nodup →
      (endpoints.foldl pushUnseen unique).Nodup := by
    induction endpoints with
    | nil => exact fun _ hunique => hunique
    | cons endpoint rest ih =>
        exact fun _ hunique => ih _ (nodup_pushUnseen hunique endpoint)
  exact hfold [] List.nodup_nil

@[simp]
theorem mem_distinct {endpoints : List RpcAddress} {address : RpcAddress} :
    address ∈ distinct endpoints ↔ address ∈ endpoints := by
  have hfold : ∀ unique : List RpcAddress,
      address ∈ endpoints.foldl pushUnseen unique ↔
        address ∈ unique ∨ address ∈ endpoints := by
    induction endpoints with
    | nil => simp
    | cons endpoint rest ih =>
        intro unique
        rw [List.foldl_cons, ih, mem_pushUnseen, List.mem_cons, or_assoc]
  have hall := hfold []
  rwa [List.mem_nil_iff, false_or] at hall

theorem view_of_lookup {table : DynamicRouteTable} {service : String} {entry : DynamicRoute}
    (hentry : table.entries.lookup service = some entry) :
    table.view service = entry.snapshot.endpoints := by
  unfold view
  rw [hentry, Option.getD_some]

theorem cursor_of_lookup {table : DynamicRouteTable} {service : String} {entry : DynamicRoute}
    (hentry : table.entries.lookup service = some entry) :
    table.cursor service = entry.next.toNat := by
  unfold cursor
  rw [hentry, Option.getD_some]

def publishedEntry (table : DynamicRouteTable) (now : Deadline) (service : String)
    (revision : UInt64) (endpoints : List RpcAddress) : DynamicRoute where
  snapshot := ⟨revision, now, distinct endpoints⟩
  next :=
    if table.view service = distinct endpoints then
      ((table.entries.lookup service).getD createdEntry).next
    else 0
  unavailable := false

theorem lookup_markUnavailable (table : DynamicRouteTable) (service other : String) :
    (table.markUnavailable service).entries.lookup other =
      if other = service then
        (table.entries.lookup service).map (fun entry =>
          { entry with
            snapshot := { entry.snapshot with endpoints := [] }
            unavailable := true })
      else table.entries.lookup other := by
  unfold markUnavailable
  cases hentry : table.entries.lookup service with
  | none =>
      by_cases heq : other = service
      · rw [if_pos heq, heq, hentry, Option.map_none]
      · rw [if_neg heq]
  | some entry => exact Table.lookup_insert_eq table.entries service other _

theorem cursor_markUnavailable (table : DynamicRouteTable) (service other : String) :
    (table.markUnavailable service).cursor other = table.cursor other := by
  unfold cursor
  rw [lookup_markUnavailable]
  split
  case isTrue heq =>
    rw [heq]
    cases table.entries.lookup service with
    | none => rfl
    | some entry => rfl
  case isFalse => rfl

section

variable [Infra]

/-- A publication is refused without a trace, or it writes one entry. -/
theorem replace_cases (table : DynamicRouteTable) (now : Deadline) (service : String)
    (revision : UInt64) (endpoints : List RpcAddress) :
    (∃ reason, table.replace now service revision endpoints = (.error reason, table)) ∨
      table.replace now service revision endpoints =
        (.ok (), { table with
          entries := table.entries.insert service
            (table.publishedEntry now service revision endpoints) }) := by
  unfold replace
  split
  · exact Or.inl ⟨_, rfl⟩
  · split
    · exact Or.inl ⟨_, rfl⟩
    · exact Or.inr rfl

/-- A resolution is refused without a trace, or it gives the endpoint under the cursor of an
available, fresh view and moves the cursor on. -/
theorem resolve_cases (table : DynamicRouteTable) (now : Deadline) (service : String) :
    (∃ reason, table.resolve now service = (.error reason, table)) ∨
      ∃ entry address, table.entries.lookup service = some entry ∧
        entry.unavailable = false ∧
        now - entry.snapshot.observedAt ≤ table.staleLimit * 1000000 ∧
        entry.snapshot.endpoints[entry.next.toNat % entry.snapshot.endpoints.length]? =
          some address ∧
        table.resolve now service =
          (.ok address, { table with
            entries := table.entries.insert service
              { entry with next := entry.next + 1 } }) := by
  unfold resolve
  cases hentry : table.entries.lookup service with
  | none => exact Or.inl ⟨_, rfl⟩
  | some entry =>
      simp only
      split
      case isTrue => exact Or.inl ⟨_, rfl⟩
      case isFalse havailable =>
        cases hendpoints : entry.snapshot.endpoints with
        | nil => exact Or.inl ⟨_, rfl⟩
        | cons first rest =>
            simp only
            split
            case isTrue => exact Or.inl ⟨_, rfl⟩
            case isFalse hfresh =>
              have hindex : entry.next.toNat % (first :: rest).length <
                  (first :: rest).length := Nat.mod_lt _ (Nat.succ_pos _)
              refine Or.inr ⟨entry, _, rfl, ?_, ?_, ?_, rfl⟩
              · simpa using havailable
              · exact not_lt.mp hfresh
              · rw [hendpoints, List.getD_eq_getElem?_getD, List.getElem?_eq_getElem hindex]
                rfl

end

end DynamicRouteTable

/-! ## Histories -/

inductive RouteCall where
  | replace (service : String) (revision : UInt64) (endpoints : List RpcAddress)
  | markUnavailable (service : String)
  | resolve (service : String)
  deriving DecidableEq, Repr

/-- What a call did. -/
inductive RouteEvent where
  | published (service : String) (endpoints : List RpcAddress) (observedAt : Deadline)
  | refused (service : String)
  | marked (service : String)
  | given (service : String) (address : RpcAddress)
  | notGiven (service : String)
  deriving DecidableEq, Repr

/-- The calls that end what an earlier publication of the service said. -/
def RouteEvent.Overrides (service : String) : RouteEvent → Prop
  | .published other _ _ => other = service
  | .marked other => other = service
  | .refused _ => False
  | .given _ _ => False
  | .notGiven _ => False

/-- The address of a successful resolution of the service. -/
def RouteEvent.answer (service : String) : RouteEvent → Option RpcAddress
  | .given other address => if other = service then some address else none
  | .published _ _ _ => none
  | .refused _ => none
  | .marked _ => none
  | .notGiven _ => none

/-- The table with its history, the last call first. -/
structure RouteWorld where
  table : DynamicRouteTable
  history : List RouteEvent

namespace RouteWorld

/-- The addresses the resolutions of a service gave. -/
def answers (world : RouteWorld) (service : String) : List RpcAddress :=
  world.history.filterMap (RouteEvent.answer service)

/-- The last successful publication of the service, withdrawn by no later call. -/
def LastPublished (world : RouteWorld) (service : String) (endpoints : List RpcAddress)
    (observedAt : Deadline) : Prop :=
  ∃ later earlier,
    world.history = later ++ .published service endpoints observedAt :: earlier ∧
      ∀ event ∈ later, ¬ event.Overrides service

def EverPublished (world : RouteWorld) (service : String) : Prop :=
  ∃ endpoints observedAt, RouteEvent.published service endpoints observedAt ∈ world.history

section

variable [Infra]

/-- One call at one reading of the clock. -/
def perform (world : RouteWorld) (now : Deadline) : RouteCall → RouteWorld
  | .replace service revision endpoints =>
      match world.table.replace now service revision endpoints with
      | (.error _, table) => ⟨table, .refused service :: world.history⟩
      | (.ok _, table) => ⟨table, .published service endpoints now :: world.history⟩
  | .markUnavailable service =>
      ⟨world.table.markUnavailable service, .marked service :: world.history⟩
  | .resolve service =>
      match world.table.resolve now service with
      | (.error _, table) => ⟨table, .notGiven service :: world.history⟩
      | (.ok address, table) => ⟨table, .given service address :: world.history⟩

theorem perform_cases (world : RouteWorld) (now : Deadline) (call : RouteCall) :
    (∃ event, (∃ service, event = .refused service ∨ event = .notGiven service) ∧
        world.perform now call = ⟨world.table, event :: world.history⟩) ∨
      (∃ service revision endpoints, world.perform now call =
        ⟨{ world.table with
            entries := world.table.entries.insert service
              (world.table.publishedEntry now service revision endpoints) },
          .published service endpoints now :: world.history⟩) ∨
      (∃ service, world.perform now call =
        ⟨world.table.markUnavailable service, .marked service :: world.history⟩) ∨
      ∃ service entry address, world.table.entries.lookup service = some entry ∧
        entry.snapshot.endpoints[entry.next.toNat % entry.snapshot.endpoints.length]? =
          some address ∧
        world.perform now call =
          ⟨{ world.table with
              entries := world.table.entries.insert service
                { entry with next := entry.next + 1 } },
            .given service address :: world.history⟩ := by
  cases call with
  | replace service revision endpoints =>
      rcases world.table.replace_cases now service revision endpoints with
        ⟨reason, hrefused⟩ | hdone
      · refine Or.inl ⟨_, ⟨service, Or.inl rfl⟩, ?_⟩
        simp only [perform, hrefused]
      · refine Or.inr (Or.inl ⟨service, revision, endpoints, ?_⟩)
        simp only [perform, hdone]
  | markUnavailable service => exact Or.inr (Or.inr (Or.inl ⟨service, rfl⟩))
  | resolve service =>
      rcases world.table.resolve_cases now service with
        ⟨reason, hrefused⟩ | ⟨entry, address, hentry, -, -, hindex, hdone⟩
      · refine Or.inl ⟨_, ⟨service, Or.inr rfl⟩, ?_⟩
        simp only [perform, hrefused]
      · refine Or.inr (Or.inr (Or.inr ⟨service, entry, address, hentry, hindex, ?_⟩))
        simp only [perform, hdone]

end

theorem LastPublished.cons {world : RouteWorld} {service : String}
    {endpoints : List RpcAddress} {observedAt : Deadline} {event : RouteEvent}
    (hlast : world.LastPublished service endpoints observedAt)
    (hevent : ¬ event.Overrides service) (table : DynamicRouteTable) :
    (RouteWorld.mk table (event :: world.history)).LastPublished service endpoints
      observedAt := by
  obtain ⟨later, earlier, hhistory, hlater⟩ := hlast
  refine ⟨event :: later, earlier, ?_, ?_⟩
  · rw [hhistory, List.cons_append]
  · intro other hother
    rcases List.mem_cons.mp hother with rfl | hother
    · exact hevent
    · exact hlater other hother

theorem EverPublished.of_cons {world : RouteWorld} {service : String} {event : RouteEvent}
    {table : DynamicRouteTable}
    (hever : (RouteWorld.mk table (event :: world.history)).EverPublished service)
    (hevent : ∀ endpoints observedAt, event ≠ .published service endpoints observedAt) :
    world.EverPublished service := by
  obtain ⟨endpoints, observedAt, hmem⟩ := hever
  rcases List.mem_cons.mp hmem with heq | hmem
  · exact absurd heq.symm (hevent endpoints observedAt)
  · exact ⟨endpoints, observedAt, hmem⟩

/-- What the table holds of a service is accounted for by the history. -/
structure Faithful (world : RouteWorld) (service : String) : Prop where
  known : world.EverPublished service → world.table.hasService service = true
  distinctView : (world.table.view service).Nodup
  current : ∀ entry, world.table.entries.lookup service = some entry →
    entry.unavailable = false →
    ∃ endpoints, world.LastPublished service endpoints entry.snapshot.observedAt ∧
      entry.snapshot.endpoints = DynamicRouteTable.distinct endpoints

/-- A call that does not touch the entry of the service, nor override it. -/
theorem Faithful.of_lookup {world : RouteWorld} {service : String}
    (hfaithful : world.Faithful service) {table : DynamicRouteTable} {event : RouteEvent}
    (hevent : ¬ event.Overrides service)
    (hsame : table.entries.lookup service = world.table.entries.lookup service) :
    (RouteWorld.mk table (event :: world.history)).Faithful service := by
  constructor
  · intro hever
    have hknown := hfaithful.known (hever.of_cons (fun _ _ heq => hevent (heq ▸ rfl)))
    unfold DynamicRouteTable.hasService at hknown ⊢
    rwa [hsame]
  · have hdistinct := hfaithful.distinctView
    unfold DynamicRouteTable.view at hdistinct ⊢
    rwa [hsame]
  · intro entry hentry havailable
    rw [hsame] at hentry
    obtain ⟨endpoints, hlast, hendpoints⟩ := hfaithful.current entry hentry havailable
    exact ⟨endpoints, hlast.cons hevent table, hendpoints⟩

theorem Faithful.published (world : RouteWorld) (now : Deadline) (service : String)
    (revision : UInt64) (endpoints : List RpcAddress) :
    (RouteWorld.mk { world.table with
        entries := world.table.entries.insert service
          (world.table.publishedEntry now service revision endpoints) }
      (.published service endpoints now :: world.history)).Faithful service := by
  have hentry : (world.table.entries.insert service
      (world.table.publishedEntry now service revision endpoints)).lookup service =
      some (world.table.publishedEntry now service revision endpoints) :=
    AList.lookup_insert _
  constructor
  · intro _
    exact AList.lookup_isSome.mpr (AList.mem_insert _ |>.mpr (Or.inl rfl))
  · rw [DynamicRouteTable.view_of_lookup hentry]
    exact DynamicRouteTable.nodup_distinct endpoints
  · intro entry hlookup _
    rw [hentry] at hlookup
    cases hlookup
    refine ⟨endpoints, ⟨[], world.history, rfl, ?_⟩, rfl⟩
    intro event hevent
    exact absurd hevent List.not_mem_nil

theorem Faithful.marked {world : RouteWorld} {service : String}
    (hfaithful : world.Faithful service) :
    (RouteWorld.mk (world.table.markUnavailable service)
      (.marked service :: world.history)).Faithful service := by
  have hentry := world.table.lookup_markUnavailable service service
  rw [if_pos rfl] at hentry
  constructor
  · intro hever
    have hknown := hfaithful.known (hever.of_cons (fun _ _ heq => by cases heq))
    unfold DynamicRouteTable.hasService at hknown ⊢
    rwa [hentry, Option.isSome_map]
  · unfold DynamicRouteTable.view
    rw [hentry]
    cases world.table.entries.lookup service with
    | none => exact List.nodup_nil
    | some entry => exact List.nodup_nil
  · intro entry hlookup havailable
    rw [hentry] at hlookup
    obtain ⟨before, -, rfl⟩ := Option.map_eq_some_iff.mp hlookup
    cases havailable

theorem Faithful.given {world : RouteWorld} {service : String} {entry : DynamicRoute}
    (hfaithful : world.Faithful service)
    (hentry : world.table.entries.lookup service = some entry) (address : RpcAddress) :
    (RouteWorld.mk { world.table with
        entries := world.table.entries.insert service { entry with next := entry.next + 1 } }
      (.given service address :: world.history)).Faithful service := by
  have hlookup : (world.table.entries.insert service
      { entry with next := entry.next + 1 }).lookup service =
      some { entry with next := entry.next + 1 } := AList.lookup_insert _
  constructor
  · intro _
    exact AList.lookup_isSome.mpr (AList.mem_insert _ |>.mpr (Or.inl rfl))
  · rw [DynamicRouteTable.view_of_lookup hlookup]
    rw [← DynamicRouteTable.view_of_lookup hentry]
    exact hfaithful.distinctView
  · intro after hafter havailable
    rw [hlookup] at hafter
    cases hafter
    obtain ⟨endpoints, hlast, hendpoints⟩ := hfaithful.current entry hentry havailable
    exact ⟨endpoints, hlast.cons id _, hendpoints⟩

/-- Every call keeps the account. -/
theorem Faithful.perform [Infra] {world : RouteWorld} {service : String}
    (hfaithful : world.Faithful service) (now : Deadline) (call : RouteCall) :
    (world.perform now call).Faithful service := by
  rcases world.perform_cases now call with
    ⟨event, ⟨other, rfl | rfl⟩, hdone⟩ | ⟨other, revision, endpoints, hdone⟩ | ⟨other, hdone⟩ |
      ⟨other, entry, address, hentry, -, hdone⟩
  · rw [hdone]
    exact hfaithful.of_lookup id rfl
  · rw [hdone]
    exact hfaithful.of_lookup id rfl
  · rw [hdone]
    by_cases heq : other = service
    · subst heq
      exact .published world now other revision endpoints
    · exact hfaithful.of_lookup heq (AList.lookup_insert_ne (Ne.symm heq))
  · rw [hdone]
    by_cases heq : other = service
    · subst heq
      exact hfaithful.marked
    · refine hfaithful.of_lookup heq ?_
      rw [DynamicRouteTable.lookup_markUnavailable, if_neg (Ne.symm heq)]
  · rw [hdone]
    by_cases heq : other = service
    · subst heq
      exact hfaithful.given hentry address
    · exact hfaithful.of_lookup id (AList.lookup_insert_ne (Ne.symm heq))

end RouteWorld

/-- Every sequence of calls on a table that starts empty.  The readings of the clock are
the environment's choice; what follows needs no order of them. -/
def routeMachine [Infra] : Machine RouteWorld (Deadline × RouteCall) where
  init := fun world => world.table.entries = ∅ ∧ world.history = []
  next := fun world label => some (world.perform label.1 label.2)

section

variable [Infra]

theorem faithful_of_reachable {world : RouteWorld} (hreach : routeMachine.Reachable world)
    (service : String) : world.Faithful service := by
  refine hreach.induct (motive := fun world => world.Faithful service) ?_ ?_
  · rintro first ⟨hentries, hhistory⟩
    constructor
    · rintro ⟨endpoints, observedAt, hmem⟩
      rw [hhistory] at hmem
      exact absurd hmem List.not_mem_nil
    · unfold DynamicRouteTable.view
      rw [hentries]
      exact List.nodup_nil
    · intro entry hlookup
      rw [hentries] at hlookup
      cases hlookup
  · intro before label after _ ih _ hnext
    cases hnext
    exact ih.perform label.1 label.2

end

/-! ## Rotation -/

def KeepsView [Infra] (service : String) (world : RouteWorld)
    (label : Deadline × RouteCall) : Prop :=
  (world.perform label.1 label.2).table.view service = world.table.view service

instance [Infra] (service : String) (world : RouteWorld) (label : Deadline × RouteCall) :
    Decidable (KeepsView service world label) :=
  inferInstanceAs (Decidable (_ = _))

namespace RouteWorld

theorem turn_cases [Infra] {world : RouteWorld} {service : String} {now : Deadline}
    {call : RouteCall} (hkeeps : KeepsView service world (now, call)) :
    ((world.perform now call).answers service = world.answers service ∧
        (world.perform now call).table.cursor service = world.table.cursor service) ∨
      ∃ address, (world.table.view service)[world.table.cursor service %
          (world.table.view service).length]? = some address ∧
        (world.perform now call).answers service = address :: world.answers service ∧
        (world.perform now call).table.cursor service =
          (world.table.cursor service + 1) % 2 ^ 64 := by
  unfold KeepsView at hkeeps
  rcases world.perform_cases now call with
    ⟨event, ⟨other, rfl | rfl⟩, hdone⟩ | ⟨other, revision, endpoints, hdone⟩ | ⟨other, hdone⟩ |
      ⟨other, entry, address, hentry, hindex, hdone⟩
  · rw [hdone]
    exact Or.inl ⟨rfl, rfl⟩
  · rw [hdone]
    exact Or.inl ⟨rfl, rfl⟩
  · refine Or.inl ⟨by rw [hdone]; rfl, ?_⟩
    rw [hdone] at hkeeps ⊢
    by_cases heq : other = service
    · subst heq
      -- the same endpoints: the publication keeps the cursor
      have hview : DynamicRouteTable.distinct endpoints = world.table.view other := by
        rwa [DynamicRouteTable.view_of_lookup (AList.lookup_insert _)] at hkeeps
      rw [DynamicRouteTable.cursor_of_lookup (AList.lookup_insert _)]
      unfold DynamicRouteTable.publishedEntry
      rw [if_pos hview.symm]
      rfl
    · unfold DynamicRouteTable.cursor
      rw [AList.lookup_insert_ne (Ne.symm heq)]
  · refine Or.inl ⟨by rw [hdone]; rfl, ?_⟩
    rw [hdone]
    exact world.table.cursor_markUnavailable other service
  · rw [hdone]
    by_cases heq : other = service
    · subst heq
      refine Or.inr ⟨address, ?_, ?_, ?_⟩
      · rw [DynamicRouteTable.view_of_lookup hentry, DynamicRouteTable.cursor_of_lookup hentry]
        exact hindex
      · unfold answers
        rw [List.filterMap_cons_some]
        exact if_pos rfl
      · rw [DynamicRouteTable.cursor_of_lookup (AList.lookup_insert _),
          DynamicRouteTable.cursor_of_lookup hentry]
        exact UInt64.toNat_add entry.next 1
    · refine Or.inl ⟨?_, ?_⟩
      · unfold answers
        rw [List.filterMap_cons_none]
        exact if_neg heq
      · unfold DynamicRouteTable.cursor
        rw [AList.lookup_insert_ne (Ne.symm heq)]

structure Turned (world last : RouteWorld) (service : String) (count : Nat) : Prop where
  view : last.table.view service = world.table.view service
  cursor : last.table.cursor service = (world.table.cursor service + count) % 2 ^ 64
  length : (last.answers service).length = (world.answers service).length + count
  answers : world.table.cursor service + count ≤ 2 ^ 64 →
    last.answers service =
      (turns (world.table.view service) (world.table.cursor service) count).reverse ++
        world.answers service

theorem Turned.refl (world : RouteWorld) (service : String) :
    world.Turned world service 0 := by
  constructor
  · rfl
  · exact (Nat.mod_eq_of_lt (UInt64.toNat_lt _)).symm
  · rfl
  · intro _
    rfl

theorem Turned.step [Infra] {world middle : RouteWorld} {service : String} {count : Nat}
    (hturned : world.Turned middle service count) {now : Deadline} {call : RouteCall}
    (hkeeps : KeepsView service middle (now, call)) :
    ∃ more, world.Turned (middle.perform now call) service more := by
  rcases turn_cases hkeeps with ⟨hanswers, hcursor⟩ | ⟨address, hindex, hanswers, hcursor⟩
  · refine ⟨count, hkeeps.trans hturned.view, hcursor.trans hturned.cursor, ?_, ?_⟩
    · rw [hanswers, hturned.length]
    · intro hbound
      rw [hanswers, hturned.answers hbound]
  · refine ⟨count + 1, hkeeps.trans hturned.view, ?_, ?_, ?_⟩
    · rw [hcursor, hturned.cursor, Nat.mod_add_mod, Nat.add_assoc]
    · rw [hanswers, List.length_cons, hturned.length, Nat.add_assoc]
    · intro hbound
      have hinside : (world.table.cursor service + count) % 2 ^ 64 =
          world.table.cursor service + count := Nat.mod_eq_of_lt (by omega)
      rw [hturned.view, hturned.cursor, hinside] at hindex
      rw [hanswers, hturned.answers (by omega), turns_succ, hindex, Option.toList_some,
        List.reverse_append, List.reverse_singleton]
      rfl

theorem turned_of_run [Infra] {world last : RouteWorld} {service : String}
    {labels : List (Deadline × RouteCall)}
    (hrun : routeMachine.Run (KeepsView service) world labels last) :
    ∃ count, world.Turned last service count := by
  induction hrun with
  | refl => exact ⟨0, .refl world service⟩
  | tail _ hkeeps hnext ih =>
      obtain ⟨count, hturned⟩ := ih
      cases hnext
      exact hturned.step hkeeps

/-- Whole laps give every endpoint of the view once more each. -/
theorem count_answers_of_laps [Infra] {world last : RouteWorld} {service : String}
    {labels : List (Deadline × RouteCall)}
    (hrun : routeMachine.Run (KeepsView service) world labels last)
    (hnodup : (world.table.view service).Nodup) {laps : Nat}
    (hlength : (last.answers service).length =
      (world.answers service).length + laps * (world.table.view service).length)
    (hbound : world.table.cursor service + laps * (world.table.view service).length ≤ 2 ^ 64)
    {endpoint : RpcAddress} (hmem : endpoint ∈ world.table.view service) :
    (last.answers service).count endpoint =
      (world.answers service).count endpoint + laps := by
  obtain ⟨count, hturned⟩ := turned_of_run hrun
  have hcount : count = laps * (world.table.view service).length :=
    Nat.add_left_cancel (hturned.length.symm.trans hlength)
  subst hcount
  rw [hturned.answers hbound, List.count_append, List.count_reverse,
    count_turns_of_nodup hnodup hmem, Nat.add_comm]

end RouteWorld

section

variable [Infra]

theorem findRoute_of_published {world : RouteWorld} (hreach : routeMachine.Reachable world)
    {service : String} (hever : world.EverPublished service) {runtime : AppRuntimeState}
    (hdynamic : runtime.dynamicRoutes = some world.table) (now : Deadline) :
    runtime.findRoute now service =
      ((world.table.resolve now service).1,
        { runtime with dynamicRoutes := some (world.table.resolve now service).2 }) := by
  have hknown := (faithful_of_reachable hreach service).known hever
  unfold AppRuntimeState.findRoute
  simp only [hdynamic, hknown, if_true]

theorem address_of_resolve {world : RouteWorld} (hreach : routeMachine.Reachable world)
    {service : String} {now : Deadline} {address : RpcAddress}
    (hgiven : (world.table.resolve now service).1 = .ok address) :
    ∃ endpoints observedAt, world.LastPublished service endpoints observedAt ∧
      address ∈ endpoints ∧ now - observedAt ≤ world.table.staleLimit * 1000000 := by
  rcases world.table.resolve_cases now service with
    ⟨reason, hrefused⟩ | ⟨entry, found, hentry, havailable, hfresh, hindex, hdone⟩
  · rw [hrefused] at hgiven
    cases hgiven
  · rw [hdone] at hgiven
    cases hgiven
    obtain ⟨endpoints, hlast, hendpoints⟩ :=
      (faithful_of_reachable hreach service).current entry hentry havailable
    refine ⟨endpoints, _, hlast, ?_, hfresh⟩
    rw [← DynamicRouteTable.mem_distinct, ← hendpoints]
    exact List.mem_of_getElem? hindex

/-- After any calls at any readings of the clock: an address comes from the last
publication, whole laps of a view that stays are fair, a refused publication leaves no
trace, and a published service never goes back to its static address. -/
theorem dynamic_routes_authoritative_and_fair {world : RouteWorld}
    (hreach : routeMachine.Reachable world) (service : String) :
    (∀ now address, (world.table.resolve now service).1 = .ok address →
        ∃ endpoints observedAt, world.LastPublished service endpoints observedAt ∧
          address ∈ endpoints ∧ now - observedAt ≤ world.table.staleLimit * 1000000) ∧
      (world.table.view service).Nodup ∧
      (∀ labels last, routeMachine.Run (KeepsView service) world labels last →
        ∀ laps, (last.answers service).length =
            (world.answers service).length + laps * (world.table.view service).length →
          world.table.cursor service + laps * (world.table.view service).length ≤ 2 ^ 64 →
          ∀ endpoint ∈ world.table.view service,
            (last.answers service).count endpoint =
              (world.answers service).count endpoint + laps) ∧
      (∀ now revision endpoints reason,
        (world.table.replace now service revision endpoints).1 = .error reason →
          (world.table.replace now service revision endpoints).2 = world.table) ∧
      (world.EverPublished service → ∀ (runtime : AppRuntimeState) now,
        runtime.dynamicRoutes = some world.table →
          runtime.findRoute now service =
            ((world.table.resolve now service).1,
              { runtime with
                dynamicRoutes := some (world.table.resolve now service).2 })) := by
  have hnodup := (faithful_of_reachable hreach service).distinctView
  refine ⟨fun _ _ hgiven => address_of_resolve hreach hgiven, hnodup, ?_, ?_, ?_⟩
  · intro labels last hrun laps hlength hbound endpoint hmem
    exact RouteWorld.count_answers_of_laps hrun hnodup hlength hbound hmem
  · intro now revision endpoints reason hrefused
    rcases world.table.replace_cases now service revision endpoints with
      ⟨other, hsame⟩ | hdone
    · rw [hsame]
    · rw [hdone] at hrefused
      cases hrefused
  · intro hever runtime now hdynamic
    exact findRoute_of_published hreach hever hdynamic now

/-- A table that starts empty. -/
theorem reachable_empty (staleLimit : Int) :
    routeMachine.Reachable ⟨⟨staleLimit, ∅⟩, []⟩ :=
  .start ⟨rfl, rfl⟩

end

/-- Two endpoints, published twice with different revisions around a refused publication:
one lap gives each of them once, and the static address is out of use. -/
theorem dynamic_routes_authoritative_and_fair_lap :
    letI := permissiveInfra
    let first : RpcAddress := ⟨"http", "a"⟩
    let second : RpcAddress := ⟨"http", "b"⟩
    ∃ world last labels, routeMachine.Reachable world ∧
      routeMachine.Run (KeepsView "catalog") world labels last ∧
      (last.answers "catalog").count first = (world.answers "catalog").count first + 1 ∧
      (last.answers "catalog").count second = (world.answers "catalog").count second + 1 ∧
      (world.table.resolve 9 "catalog").1 = .ok first ∧
      (∃ endpoints observedAt, world.LastPublished "catalog" endpoints observedAt ∧
        first ∈ endpoints ∧ 9 - observedAt ≤ world.table.staleLimit * 1000000) ∧
      ((⟨AList.singleton "catalog" ⟨"http", "c"⟩, some world.table, none, none, none⟩ :
        AppRuntimeState).findRoute 9 "catalog").1 = .ok first := by
  let _ := permissiveInfra
  intro first second
  obtain ⟨world, last, hreach, hrun, htest⟩ :=
    (reachable_empty 5000).exec_then (fun _ _ => true) (fun _ _ _ => trivial)
      (fun world label => decide (KeepsView "catalog" world label))
      (fun _ _ => of_decide_eq_true)
      [(0, .replace "catalog" 7 [first, second, first])]
      [(1, .resolve "catalog"), (2, .replace "" 8 [first]),
        (3, .replace "catalog" 8 [first, second]), (4, .resolve "catalog")]
      (fun world last => decide (world.table.view "catalog" = [first, second] ∧
        world.table.cursor "catalog" = 0 ∧
        RouteEvent.published "catalog" [first, second, first] 0 ∈ world.history ∧
        (world.table.resolve 9 "catalog").1 = .ok first ∧
        (last.answers "catalog").length = (world.answers "catalog").length + 1 * 2))
      (by decide)
  obtain ⟨hview, hcursor, hpublished, hresolve, hlength⟩ := of_decide_eq_true htest
  obtain ⟨hauthority, -, hfair, -, hstatic⟩ :=
    dynamic_routes_authoritative_and_fair hreach "catalog"
  have hlap : ∀ endpoint ∈ [first, second], (last.answers "catalog").count endpoint =
      (world.answers "catalog").count endpoint + 1 := by
    rw [← hview]
    refine hfair _ last hrun 1 ?_ ?_
    · rw [hview]
      exact hlength
    · rw [hview, hcursor]
      decide
  refine ⟨world, last, _, hreach, hrun, hlap first (by simp), hlap second (by simp),
    hresolve, hauthority 9 first hresolve, ?_⟩
  rw [hstatic ⟨_, _, hpublished⟩ _ 9 rfl]
  exact hresolve

end BbtFramework.Rpc
