import BbtFramework.Library.Program
import BbtFramework.Ordered.Session

/-!
# The registry of sending sessions

`Open` scans the registry under its mutex, promoting the weak reference of each
entry on the way, and the destructor of a session takes the same mutex.  Threads
open sessions and drop references to them in any order, one action at a time.
-/

namespace BbtFramework.Ordered

open BbtFramework.Library

/-- A session is known by its number, in the order of construction. -/
abbrev SessionId := Nat

/-- An occupied grant with the weak reference to its session. -/
structure RegistryEntry where
  grant : OrderedGrant
  session : SessionId
  deriving DecidableEq, Repr

/-- The registry with its mutex, and the sessions with their strong references;
`held` counts the references that clients have. -/
structure SessionTable where
  locked : Bool
  registry : List RegistryEntry
  sessions : List OrderedSession
  strong : SessionId → Nat
  held : SessionId → Nat

namespace SessionTable

def fresh : SessionTable where
  locked := false
  registry := []
  sessions := []
  strong := fun _ => 0
  held := fun _ => 0

def retain (table : SessionTable) (session : SessionId) : SessionTable :=
  { table with
    strong := Function.update table.strong session (table.strong session + 1) }

def letGo (table : SessionTable) (session : SessionId) : SessionTable :=
  { table with
    strong := Function.update table.strong session (table.strong session - 1) }

/-- `new OrderedSession(grant, first_sequence)`, owned once. -/
def construct (table : SessionTable) (grant : OrderedGrant) (first : UInt64) :
    SessionTable :=
  let session := table.sessions.length
  { table with
    sessions := table.sessions ++ [{ OrderedSession.openSession grant
      (UInt64.ofNat session + 1) with nextSequence := first }]
    strong := Function.update table.strong session 1 }

section

variable (table : SessionTable) (grant : OrderedGrant) (first : UInt64)

theorem session_construct_self : ∃ made,
    (table.construct grant first).sessions[table.sessions.length]? = some made ∧
      made.grant = grant :=
  ⟨_, List.getElem?_concat_length, rfl⟩

variable {session : SessionId}

theorem session_construct_of_lt (hlt : session < table.sessions.length) :
    (table.construct grant first).sessions[session]? = table.sessions[session]? :=
  List.getElem?_append_left hlt

theorem strong_construct_of_ne (hne : session ≠ table.sessions.length) :
    (table.construct grant first).strong session = table.strong session :=
  Function.update_of_ne hne _ _

end

end SessionTable

inductive SessionAct where
  | lock
  | unlock
  | entries
  | promote (entry : RegistryEntry)
  | expired (entry : RegistryEntry)
  | erase (entry : RegistryEntry)
  | construct (grant : OrderedGrant) (first : UInt64)
  | pushBack (entry : RegistryEntry)
  | copy (session : SessionId)
  | release (session : SessionId)
  | destroy (session : SessionId)
  | handOver (session : SessionId)
  | dropHeld (session : SessionId)
  deriving DecidableEq, Repr

/-- Dropping a reference tells whether it was the last one. -/
@[reducible]
def SessionAct.Answer : SessionAct → Type
  | .entries => List RegistryEntry
  | .construct _ _ => SessionId
  | .promote _ | .expired _ | .release _ | .dropHeld _ => Bool
  | _ => Unit

/-- A thread waits at a taken mutex.  Only an owner copies or drops a reference,
and only an expired weak reference is not promoted. -/
def SessionTable.perform (table : SessionTable) :
    (act : SessionAct) → Option (act.Answer × SessionTable)
  | .lock => if table.locked then none else some ((), { table with locked := true })
  | .unlock => some ((), { table with locked := false })
  | .entries => some (table.registry, table)
  | .promote entry =>
      if 0 < table.strong entry.session then some (true, table.retain entry.session)
      else some (false, table)
  | .expired entry => some (decide (table.strong entry.session = 0), table)
  | .erase entry => some ((), { table with registry := table.registry.erase entry })
  | .construct grant first =>
      some (table.sessions.length, table.construct grant first)
  | .pushBack entry => some ((), { table with registry := table.registry ++ [entry] })
  | .copy session =>
      if 0 < table.strong session then some ((), table.retain session) else none
  | .release session =>
      if 0 < table.strong session then
        some (decide (table.strong session = 1), table.letGo session)
      else none
  | .destroy _ => some ((), table)
  | .handOver session =>
      some ((), { table with
        held := Function.update table.held session (table.held session + 1) })
  | .dropHeld session =>
      if 0 < table.held session ∧ 0 < table.strong session then
        some (decide (table.strong session = 1), { table.letGo session with
          held := Function.update table.held session (table.held session - 1) })
      else none

abbrev SessionOp :=
  Program SessionAct SessionAct.Answer

def performs (act : SessionAct) : SessionOp act.Answer :=
  Program.ask act

/-- The loop of the destructor over the entries not looked at yet. -/
def sweep : List RegistryEntry → SessionOp Unit
  | [] => return ()
  | entry :: rest => do
      let expired : Bool ← performs (.expired entry)
      if expired then performs (.erase entry)
      sweep rest

/-- `~OrderedSession`. -/
def destructor (session : SessionId) : SessionOp Unit := do
  performs (.destroy session)
  performs .lock
  let registry : List RegistryEntry ← performs .entries
  sweep registry
  performs .unlock

/-- The end of a temporary owner. -/
def dropTemporary (session : SessionId) : SessionOp Unit := do
  let last : Bool ← performs (.release session)
  if last then destructor session else return ()

/-- What an entry point returns. -/
inductive OpenResult where
  | opened (grant : OrderedGrant) (result : Except Error SessionId)
  | invalid (error : Error)
  | dropped
  deriving DecidableEq

section

variable [Infra]

def streamRejectedError : Error :=
  orderedDomainError OrderedDomainCode.streamRejected
    "ordered stream grant conflicts with a live session"

/-- The loop of `OpenImpl` over the entries not looked at yet, and what follows
it; a promoted entry is a temporary owner until its turn of the loop ends. -/
def scan (grant : OrderedGrant) (first : UInt64) :
    List RegistryEntry → SessionOp OpenResult
  | [] => do
      let session : SessionId ← performs (.construct grant first)
      performs (.pushBack ⟨grant, session⟩)
      performs .unlock
      performs (.handOver session)
      return .opened grant (.ok session)
  | entry :: rest => do
      let live : Bool ← performs (.promote entry)
      if live then
        if sameOrderedStreamId entry.grant grant then
          if entry.grant = grant then
            performs (.copy entry.session)
            dropTemporary entry.session
            performs .unlock
            performs (.handOver entry.session)
            return .opened grant (.ok entry.session)
          else
            dropTemporary entry.session
            performs .unlock
            return .opened grant (.error streamRejectedError)
        else
          dropTemporary entry.session
          scan grant first rest
      else
        performs (.erase entry)
        scan grant first rest

def openImpl (grant : OrderedGrant) (first : UInt64) : SessionOp OpenResult := do
  performs .lock
  let registry : List RegistryEntry ← performs .entries
  scan grant first registry

/-- `Open`. -/
def openSession (grant : OrderedGrant) : SessionOp OpenResult :=
  openImpl grant 1

def openForTest (grant : OrderedGrant) (first : UInt64) : SessionOp OpenResult :=
  if first = 0 then
    return .invalid
      (makeError .invalidArgument "ordered first_sequence must be >= 1")
  else openImpl grant first

end

/-- A client drops a reference it holds. -/
def dropReference (session : SessionId) : SessionOp OpenResult := do
  let last : Bool ← performs (.dropHeld session)
  if last then
    destructor session
    return .dropped
  else return .dropped

inductive SessionEntry where
  | open (grant : OrderedGrant)
  | openForTest (grant : OrderedGrant) (first : UInt64)
  | drop (session : SessionId)
  deriving DecidableEq, Repr

/-- A client copies a reference it holds, or promotes the weak reference of a
stamp. -/
inductive SessionEvent where
  | share (session : SessionId)
  deriving DecidableEq, Repr

/-- What a thread knows: whether it has the mutex, the registry it has read, which
sessions it has seen expired, the session it has built and not yet registered,
the entries it has promoted and built so far, and whether it has given up a last
reference under the mutex. -/
structure SessionView where
  holding : Bool
  registry : Option (List RegistryEntry)
  expired : List SessionId
  unregistered : Option RegistryEntry
  found : List RegistryEntry
  built : List RegistryEntry
  lastUnderLock : Bool

def SessionView.fresh : SessionView where
  holding := false
  registry := none
  expired := []
  unregistered := none
  found := []
  built := []
  lastUnderLock := false

def SessionView.after (view : SessionView) :
    (act : SessionAct) → act.Answer → SessionView
  | .lock, _ => { view with holding := true, registry := none }
  | .unlock, _ => { view with holding := false }
  | .entries, (registry : List RegistryEntry) => { view with registry := some registry }
  | .promote entry, (live : Bool) =>
      if live then { view with found := entry :: view.found }
      else { view with expired := entry.session :: view.expired }
  | .expired entry, (expired : Bool) =>
      if expired then { view with expired := entry.session :: view.expired } else view
  | .erase entry, _ =>
      { view with registry := view.registry.map (fun entries => entries.erase entry) }
  | .construct grant _, (session : SessionId) =>
      { view with
        unregistered := some ⟨grant, session⟩
        built := ⟨grant, session⟩ :: view.built }
  | .pushBack entry, _ =>
      { view with
        unregistered := none
        registry := view.registry.map (fun entries => entries ++ [entry]) }
  | .release _, (last : Bool) =>
      { view with lastUnderLock := view.lastUnderLock || (last && view.holding) }
  | .copy _, _ | .destroy _, _ | .handOver _, _ | .dropHeld _, _ => view

/-- What a thread knows of an entry it looks at. -/
def SessionView.Knows (view : SessionView) (entry : RegistryEntry) : Prop :=
  view.holding = true ∧ ∃ entries, view.registry = some entries ∧ entry ∈ entries

def SessionView.allows (view : SessionView) : SessionAct → Prop
  | .unlock => view.holding = true ∧ view.unregistered = none
  | .entries => view.holding = true
  | .promote entry | .expired entry => view.Knows entry
  | .erase entry => view.holding = true ∧ entry.session ∈ view.expired
  | .construct grant _ =>
      view.holding = true ∧ view.unregistered = none ∧ ∃ entries,
        view.registry = some entries ∧
          ∀ entry ∈ entries, sameOrderedStreamId entry.grant grant = false
  | .pushBack entry => view.holding = true ∧ view.unregistered = some entry
  | .lock | .destroy _ => view.holding = false
  | _ => True

/-- A thread that has given up a last reference under the mutex waits for itself,
and nothing is asked of it any more. -/
def sessionDiscipline : Discipline SessionAct SessionAct.Answer SessionView where
  allows := fun act view => view.lastUnderLock = true ∨ view.allows act
  possible := fun _ _ => True
  after := fun act answer view => view.after act answer

def sessionSystem [Infra] : System SessionAct SessionAct.Answer OpenResult
    SessionTable SessionView SessionEntry Unit SessionEvent where
  start := fun table => table = .fresh
  idle := .dropped
  main
    | .open grant => openSession grant
    | .openForTest grant first => openForTest grant first
    | .drop session => dropReference session
  perform := fun act _ table => table.perform act
  env
    | .share session, table =>
        if 0 < table.strong session then
          some { table.retain session with
            held := Function.update table.held session (table.held session + 1) }
        else none
  fresh := .fresh
  discipline := sessionDiscipline

end BbtFramework.Ordered
