import BbtFramework.Library.Holders
import BbtFramework.Library.Machine
import BbtFramework.Observe.TokenLifetime

/-!
# State changes and their events

`SetStateLocked` changes an entry and copies the active observers of it in one critical
section.  The events go out afterwards, without the lock: any number of threads dispatch
at once, and observers come and go in between.
-/

namespace BbtFramework.Observe

open BbtFramework.App
open BbtFramework.Library

structure ObjectError where
  code : ErrorCode
  phase : String
  message : String
  deriving DecidableEq, Repr

/-- What a callback is told, without the time; `actor` names an actor by its type and key,
which is the address of its mailbox too. -/
structure StateEvent where
  id : ObjectId
  generation : Nat
  state : ObjectState
  revision : Nat
  error : Option ObjectError
  actor : Option (String × String)
  deriving DecidableEq, Repr

/-- What a state change reads and writes of an entry. -/
structure ObservedEntry where
  typeName : String
  name : String
  generation : Nat
  state : ObjectState
  lastError : Option ObjectError
  revision : Nat
  deriving DecidableEq, Repr

namespace ObservedEntry

def change (entry : ObservedEntry) (state : ObjectState) (error : Option ObjectError) :
    ObservedEntry :=
  { entry with
    state := state
    lastError := error.or entry.lastError
    revision := entry.revision + 1 }

def event (entry : ObservedEntry) (id : ObjectId) : StateEvent where
  id := id
  generation := entry.generation
  state := entry.state
  revision := entry.revision
  error := entry.lastError
  actor := if id.kind = .actor then some (entry.typeName, entry.name) else none

end ObservedEntry

/-- An event with the token of the record it was copied for. -/
structure Intent where
  token : TokenId
  event : StateEvent
  deriving DecidableEq, Repr

structure StateChange where
  event : StateEvent
  audience : List TokenId
  deriving DecidableEq, Repr

def StateChange.intents (change : StateChange) : List Intent :=
  change.audience.map fun token => ⟨token, change.event⟩

/-- What was registered under a token, and how many state changes there were before. -/
structure Registration where
  targetId : ObjectId
  targetGeneration : Nat
  since : Nat
  deriving DecidableEq, Repr

inductive ObserverPc where
  | dispatch (intents : List Intent)
  | callback (intent : Intent) (rest : List Intent)
  | threw (intent : Intent) (rest : List Intent)
  | release (intent : Intent) (rest : List Intent)
  | awaitGone (token : TokenId)
  | erase (token : TokenId)
  | eraseIdle
  | awaitDrained
  | eraseInactive
  | returned
  deriving DecidableEq, Repr

def ObserverPc.pending : ObserverPc → List Intent
  | .dispatch intents => intents
  | .callback _ rest | .threw _ rest | .release _ rest => rest
  | _ => []

/-- The registry as far as observers go, the threads, and what has happened so far: the
state changes, the registrations, the callbacks called and the events skipped. -/
structure DeliveryWorld where
  entries : ObjectId → Option ObservedEntry
  nextIdSeq : Nat
  nextGeneration : Nat
  observers : Observers
  threads : List ObserverPc
  changes : List StateChange
  registrations : TokenId → Option Registration
  calls : List Intent
  skipped : List Intent

namespace DeliveryWorld

def fresh (maxObservers maxObjects : Nat) : DeliveryWorld where
  entries := fun _ => none
  nextIdSeq := 0
  nextGeneration := 1
  observers := .fresh maxObservers maxObjects
  threads := []
  changes := []
  registrations := fun _ => none
  calls := []
  skipped := []

def create (world : DeliveryWorld) (kind : ObjectKind) (typeName name : String) :
    DeliveryWorld :=
  { world with
    entries := Function.update world.entries ⟨kind, world.nextIdSeq⟩
      (some ⟨typeName, name, world.nextGeneration, .created, none, 0⟩)
    nextIdSeq := world.nextIdSeq + 1
    nextGeneration := world.nextGeneration + 1 }

def audience (observers : Observers) (id : ObjectId) (generation : Nat) : List TokenId :=
  (List.range observers.nextObserverId).filter fun token =>
    (observers.records token).any fun record =>
      record.active && record.targetId == id && record.targetGeneration == generation

/-- An entry is changed and stays (`kept`) or goes; a thread is left with the events. -/
def publish (world : DeliveryWorld) (id : ObjectId) (changed : ObservedEntry)
    (kept : Option ObservedEntry) : DeliveryWorld :=
  let change : StateChange :=
    ⟨changed.event id, audience world.observers id changed.generation⟩
  { world with
    entries := Function.update world.entries id kept
    threads := world.threads ++ [.dispatch change.intents]
    changes := world.changes ++ [change] }

/-- `SetStateAndDispatch` up to the dispatch. -/
def setState (world : DeliveryWorld) (id : ObjectId) (state : ObjectState)
    (error : Option ObjectError) : DeliveryWorld :=
  match world.entries id with
  | none => world
  | some entry => world.publish id (entry.change state error) (some (entry.change state error))

/-- `FinishDestroyLocked`. -/
def finishDestroy (world : DeliveryWorld) (id : ObjectId) : DeliveryWorld :=
  match world.entries id with
  | none => world
  | some entry => world.publish id (entry.change .destroyed none) none

def registered (world : DeliveryWorld) (handle : ObjectHandle) : Bool :=
  (world.entries handle.id).any fun entry => entry.generation == handle.generation

/-- The registration `Observe` ends with, under the next token. -/
def enlist (world : DeliveryWorld) (target : ObjectHandle) (observers : Observers) :
    DeliveryWorld :=
  { world with
    observers := observers
    registrations := Function.update world.registrations world.observers.nextObserverId
      (some ⟨target.id, target.generation, world.changes.length⟩) }

section

variable [Infra]

/-- `Observe`; `hasCallback` says whether the callable passed in is set. -/
def observe (world : DeliveryWorld) (hasCallback : Bool) (observer target : ObjectHandle) :
    Except Error TokenId × DeliveryWorld :=
  if !hasCallback then
    (.error (makeError .invalidArgument "Observe: null callback"), world)
  else if !observer.owned || !target.owned then
    (.error (makeError .invalidArgument "Observe: handle belongs to another registry"), world)
  else
    match world.observers.observe observer.id target.id target.generation with
    | none => (.error (makeError .overloaded "Observe: observer limit reached"), world)
    | some observers =>
        if !world.registered observer then
          (.error (makeError .notFound "Observe: observer not found or generation stale"), world)
        else if !world.registered target then
          (.error (makeError .notFound "Observe: target not found or generation stale"), world)
        else
          (.ok world.observers.nextObserverId, world.enlist target observers)

end

def goto (world : DeliveryWorld) (thread : Nat) (pc : ObserverPc) : DeliveryWorld :=
  { world with threads := world.threads.set thread pc }

/-- An action on the observers that needs no answer. -/
def perform (world : DeliveryWorld) (act : ObserverAct) : Option DeliveryWorld :=
  (world.observers.perform act (.finish false)).map fun outcome =>
    { world with observers := outcome.2 }

/-- One round of `DispatchEvents` begins: the lease, or the event is skipped. -/
def lease (world : DeliveryWorld) (thread : Nat) (intent : Intent) (rest : List Intent) :
    DeliveryWorld :=
  match world.observers.acquire intent.token with
  | (true, observers) =>
      { world.goto thread (.callback intent rest) with
        observers := observers
        calls := world.calls ++ [intent] }
  | (false, _) =>
      { world.goto thread (.dispatch rest) with skipped := world.skipped ++ [intent] }

def observerFailure (event : StateEvent) : LifecycleFailure :=
  ⟨event.id, event.generation, "observe", "dispatch", "observer callback threw"⟩

/-- The next critical section of a thread, or the end of its callback. -/
def advance (world : DeliveryWorld) (thread : Nat) (threw : Bool) : Option DeliveryWorld :=
  match world.threads[thread]? with
  | some (.dispatch (intent :: rest)) => some (world.lease thread intent rest)
  | some (.dispatch []) => some (world.goto thread .returned)
  | some (.callback intent rest) =>
      some (world.goto thread (if threw then .threw intent rest else .release intent rest))
  | some (.threw intent rest) =>
      (world.goto thread (.release intent rest)).perform
        (.recordFailure (observerFailure intent.event))
  | some (.release intent rest) =>
      (world.goto thread (.dispatch rest)).perform (.release intent.token)
  | some (.awaitGone token) => (world.goto thread (.erase token)).perform (.awaitGone token)
  | some (.erase token) => (world.goto thread .returned).perform (.erase token)
  | some .eraseIdle => (world.goto thread .awaitDrained).perform .eraseIdle
  | some .awaitDrained => (world.goto thread .eraseInactive).perform .awaitDrained
  | some .eraseInactive => (world.goto thread .returned).perform .eraseInactive
  | some .returned | none => none

/-- `RevokeObserver` up to its wait. -/
def revoke (world : DeliveryWorld) (token : TokenId) : Option DeliveryWorld :=
  if (world.observers.records token).isSome then
    ({ world with threads := world.threads ++ [ObserverPc.awaitGone token] }).perform
      (.markInactive token)
  else some world

end DeliveryWorld

inductive DeliveryStep where
  | create (kind : ObjectKind) (typeName name : String)
  | setState (id : ObjectId) (state : ObjectState) (error : Option ObjectError)
  | finishDestroy (id : ObjectId)
  | observe (hasCallback : Bool) (observer target : ObjectHandle)
  | revoke (token : TokenId)
  | revokeOf (observerId : ObjectId)
  | drain
  | advance (thread : Nat) (threw : Bool)
  deriving DecidableEq, Repr

/-- Any interleaving of state changes, registrations, revocations and dispatches. -/
def deliveryMachine [Infra] : Machine DeliveryWorld DeliveryStep where
  init world := ∃ maxObservers maxObjects, world = .fresh maxObservers maxObjects
  next world
    | .create kind typeName name => some (world.create kind typeName name)
    | .setState id state error => some (world.setState id state error)
    | .finishDestroy id => some (world.finishDestroy id)
    | .observe hasCallback observer target =>
        some (world.observe hasCallback observer target).2
    | .revoke token => world.revoke token
    | .revokeOf observerId => world.perform (.markOf observerId)
    | .drain => some { world with threads := world.threads ++ [.eraseIdle] }
    | .advance thread threw => world.advance thread threw

/-! ## What a step does -/

section

variable [Infra] {world after : DeliveryWorld}

def DeliveryWorld.history (world : DeliveryWorld) (id : ObjectId) : List StateEvent :=
  (world.changes.map StateChange.event).filter fun event => event.id == id

/-- Nothing but observers and threads has changed; `act` is what became of the observers,
and the threads hold the same events as before. -/
structure Performs (world : DeliveryWorld) (act : ObserverAct) (after : DeliveryWorld) :
    Prop where
  observers : ∃ answer, world.observers.perform act (.finish false) =
    some (answer, after.observers)
  entries : after.entries = world.entries
  nextIdSeq : after.nextIdSeq = world.nextIdSeq
  changes : after.changes = world.changes
  registrations : after.registrations = world.registrations
  calls : after.calls = world.calls
  skipped : after.skipped = world.skipped
  pending : (held ObserverPc.pending after.threads).Perm (held ObserverPc.pending world.threads)

/-- All that a step can do. -/
inductive DeliveryCase (world : DeliveryWorld) : DeliveryWorld → Prop where
  | same : DeliveryCase world world
  | created (kind : ObjectKind) (typeName name : String) :
      DeliveryCase world (world.create kind typeName name)
  | published {id : ObjectId} {entry changed : ObservedEntry} {kept : Option ObservedEntry}
      (hentry : world.entries id = some entry)
      (hgeneration : changed.generation = entry.generation)
      (hrevision : changed.revision = entry.revision + 1)
      (hkept : kept = some changed ∨ kept = none ∧ changed.state = .destroyed) :
      DeliveryCase world (world.publish id changed kept)
  | observed {observer target : ObjectHandle} {observers : Observers}
      (hobserve : world.observers.observe observer.id target.id target.generation =
        some observers) :
      DeliveryCase world (world.enlist target observers)
  | performed {after : DeliveryWorld} (act : ObserverAct) (hperforms : Performs world act after) :
      DeliveryCase world after
  | leased {thread : Nat} {intent : Intent} {rest : List Intent}
      (hthread : world.threads[thread]? = some (.dispatch (intent :: rest))) :
      DeliveryCase world (world.lease thread intent rest)

omit [Infra] in
theorem performs_of_perform {act : ObserverAct} {threads : List ObserverPc}
    (hperform : ({ world with threads := threads } : DeliveryWorld).perform act = some after)
    (hpending : (held ObserverPc.pending threads).Perm (held ObserverPc.pending world.threads)) :
    Performs world act after := by
  obtain ⟨⟨answer, observers⟩, houtcome, rfl⟩ := Option.map_eq_some_iff.mp hperform
  exact ⟨⟨answer, houtcome⟩, rfl, rfl, rfl, rfl, rfl, rfl, hpending⟩

omit [Infra] in
/-- A thread moves on with the events it holds. -/
theorem performs_goto {act : ObserverAct} {thread : Nat} {before pc : ObserverPc}
    (hthread : world.threads[thread]? = some before)
    (hperform : (world.goto thread pc).perform act = some after)
    (hpending : pc.pending = before.pending) : Performs world act after :=
  performs_of_perform hperform (held_same hthread hpending)

omit [Infra] in
theorem advance_case {thread : Nat} {threw : Bool}
    (hnext : world.advance thread threw = some after) : DeliveryCase world after := by
  unfold DeliveryWorld.advance at hnext
  split at hnext
  case h_1 intent rest hthread =>
    cases hnext
    exact .leased hthread
  case h_2 hthread => exact .performed (.proceed 0) (performs_goto hthread hnext rfl)
  case h_3 intent rest hthread =>
    refine .performed (.proceed 0) (performs_goto hthread hnext ?_)
    cases threw with
    | true => rfl
    | false => rfl
  case h_11 | h_12 => cases hnext
  all_goals
    rename_i hthread
    exact .performed _ (performs_goto hthread hnext rfl)

theorem observe_case (hasCallback : Bool) (observer target : ObjectHandle) :
    DeliveryCase world (world.observe hasCallback observer target).2 := by
  unfold DeliveryWorld.observe
  split
  · exact .same
  · split
    · exact .same
    · split
      case h_1 => exact .same
      case h_2 observers hobserve =>
        split
        · exact .same
        · split
          · exact .same
          · exact .observed hobserve

/-- The inversion of a step. -/
theorem delivery_case {label : DeliveryStep}
    (hnext : deliveryMachine.next world label = some after) : DeliveryCase world after := by
  cases label with
  | create kind typeName name =>
      cases hnext
      exact .created kind typeName name
  | setState id state error =>
      cases hnext
      rw [DeliveryWorld.setState]
      split
      case h_1 => exact .same
      case h_2 entry hentry => exact .published hentry rfl rfl (Or.inl rfl)
  | finishDestroy id =>
      cases hnext
      rw [DeliveryWorld.finishDestroy]
      split
      case h_1 => exact .same
      case h_2 entry hentry => exact .published hentry rfl rfl (Or.inr ⟨rfl, rfl⟩)
  | observe hasCallback observer target =>
      cases hnext
      exact observe_case hasCallback observer target
  | revoke token =>
      change world.revoke token = some after at hnext
      rw [DeliveryWorld.revoke] at hnext
      split at hnext
      case isTrue =>
        refine .performed _ (performs_of_perform hnext ?_)
        rw [held_concat_empty rfl]
      case isFalse =>
        cases hnext
        exact .same
  | revokeOf observerId =>
      have hperform : ({ world with threads := world.threads } : DeliveryWorld).perform
          (.markOf observerId) = some after := hnext
      exact .performed _ (performs_of_perform hperform (List.Perm.refl _))
  | drain =>
      cases hnext
      refine .performed (.proceed 0) ⟨⟨_, rfl⟩, rfl, rfl, rfl, rfl, rfl, rfl, ?_⟩
      rw [held_concat_empty rfl]
  | advance thread threw => exact advance_case hnext

omit [Infra] in
/-- In a history that rises the last event has the highest revision. -/
theorem le_last_of_rising {events : List StateEvent} {last event : StateEvent}
    (hrising : events.Pairwise fun earlier later => earlier.revision < later.revision)
    (hlast : last ∈ events.getLast?) (hevent : event ∈ events) :
    event = last ∨ event.revision < last.revision := by
  obtain ⟨before, rfl⟩ := List.getLast?_eq_some_iff.mp hlast
  rcases List.mem_append.mp hevent with hbefore | hsame
  · exact Or.inr ((List.pairwise_append.mp hrising).2.2 event hbefore last
      List.mem_cons_self)
  · exact Or.inl (List.mem_singleton.mp hsame)

def DeliveryWorld.Shows (world : DeliveryWorld) (id : ObjectId) (event : StateEvent) : Prop :=
  match world.entries id with
  | some entry => event = entry.event id
  | none => event.state = .destroyed

/-- The history of every object rises to its entry as it is, under one generation. -/
structure History (world : DeliveryWorld) : Prop where
  fresh : ∀ id, world.nextIdSeq ≤ id.number →
    world.entries id = none ∧ world.history id = []
  rising : ∀ id, (world.history id).Pairwise
    fun earlier later => earlier.revision < later.revision
  latest : ∀ id, ∀ event ∈ (world.history id).getLast?, world.Shows id event
  generation : ∀ id, ∃ generation,
    (∀ event ∈ world.history id, event.generation = generation) ∧
      ∀ entry ∈ world.entries id, entry.generation = generation

omit [Infra] in
theorem History.keep (hhistory : History world) (hentries : after.entries = world.entries)
    (hnext : after.nextIdSeq = world.nextIdSeq) (hchanges : after.changes = world.changes) :
    History after := by
  have hsame : after.history = world.history := by
    funext id
    rw [DeliveryWorld.history, hchanges, DeliveryWorld.history]
  refine ⟨?_, ?_, ?_, ?_⟩
  · rw [hsame, hentries, hnext]
    exact hhistory.fresh
  · rw [hsame]
    exact hhistory.rising
  · simp only [DeliveryWorld.Shows, hentries, hsame]
    exact hhistory.latest
  · rw [hsame, hentries]
    exact hhistory.generation

omit [Infra] in
theorem History.create (hhistory : History world) (kind : ObjectKind)
    (typeName name : String) : History (world.create kind typeName name) := by
  have hid := hhistory.fresh ⟨kind, world.nextIdSeq⟩ (Nat.le_refl _)
  refine ⟨?_, hhistory.rising, ?_, ?_⟩
  · intro id hle
    have hold := hhistory.fresh id (Nat.le_of_succ_le hle)
    refine ⟨?_, hold.2⟩
    have hne : id ≠ ⟨kind, world.nextIdSeq⟩ := by
      rintro rfl
      exact Nat.not_succ_le_self _ hle
    simpa [DeliveryWorld.create, hne] using hold.1
  · intro id event hevent
    by_cases heq : id = ⟨kind, world.nextIdSeq⟩
    · subst heq
      change event ∈ (world.history _).getLast? at hevent
      rw [hid.2] at hevent
      cases hevent
    · have hold := hhistory.latest id event hevent
      simpa [DeliveryWorld.Shows, DeliveryWorld.create, heq] using hold
  · intro id
    by_cases heq : id = ⟨kind, world.nextIdSeq⟩
    · subst heq
      refine ⟨world.nextGeneration, ?_, ?_⟩
      · intro event hevent
        change event ∈ world.history _ at hevent
        rw [hid.2] at hevent
        cases hevent
      · intro entry hentry
        simp only [DeliveryWorld.create, Function.update_self, Option.mem_def,
          Option.some.injEq] at hentry
        rw [← hentry]
    · obtain ⟨generation, hevents, hentry⟩ := hhistory.generation id
      refine ⟨generation, hevents, ?_⟩
      simpa [DeliveryWorld.create, heq] using hentry

omit [Infra] in
theorem entries_publish (id other : ObjectId) (changed : ObservedEntry)
    (kept : Option ObservedEntry) :
    (world.publish id changed kept).entries other =
      if other = id then kept else world.entries other := by
  simp [DeliveryWorld.publish, Function.update_apply]

omit [Infra] in
theorem history_publish (id other : ObjectId) (changed : ObservedEntry)
    (kept : Option ObservedEntry) :
    (world.publish id changed kept).history other =
      world.history other ++ if other = id then [changed.event id] else [] := by
  simp only [DeliveryWorld.history, DeliveryWorld.publish, List.map_append,
    List.filter_append, List.map_cons, List.map_nil]
  congr 1
  by_cases heq : other = id
  · subst heq
    simp [ObservedEntry.event]
  · have hne : (id == other) = false := beq_eq_false_iff_ne.mpr (Ne.symm heq)
    simp [ObservedEntry.event, hne, heq]

omit [Infra] in
theorem History.publish (hhistory : History world) {id : ObjectId}
    {entry changed : ObservedEntry} {kept : Option ObservedEntry}
    (hentry : world.entries id = some entry)
    (hgeneration : changed.generation = entry.generation)
    (hrevision : changed.revision = entry.revision + 1)
    (hkept : kept = some changed ∨ kept = none ∧ changed.state = .destroyed) :
    History (world.publish id changed kept) := by
  have hbelow : ∀ event ∈ world.history id, event.revision < changed.revision := by
    intro event hevent
    have hne : world.history id ≠ [] := List.ne_nil_of_mem hevent
    have hlast := List.getLast?_eq_some_getLast hne
    have hshows := hhistory.latest id _ hlast
    rw [DeliveryWorld.Shows, hentry] at hshows
    have hrevisions : ((world.history id).getLast hne).revision = entry.revision := by
      rw [hshows]
      rfl
    rcases le_last_of_rising (hhistory.rising id) hlast hevent with heq | hlt
    · rw [heq, hrevisions, hrevision]
      exact Nat.lt_succ_self _
    · rw [hrevision, ← hrevisions]
      exact Nat.lt_succ_of_lt hlt
  refine ⟨?_, ?_, ?_, ?_⟩
  · intro other hle
    obtain ⟨hnone, hempty⟩ := hhistory.fresh other hle
    have hne : other ≠ id := by
      rintro rfl
      cases hnone.symm.trans hentry
    refine ⟨?_, ?_⟩
    · rw [entries_publish, if_neg hne, hnone]
    · rw [history_publish, if_neg hne, hempty]
      rfl
  · intro other
    rw [history_publish]
    by_cases heq : other = id
    · subst heq
      rw [if_pos rfl, List.pairwise_append]
      refine ⟨hhistory.rising other, List.pairwise_singleton _ _, ?_⟩
      intro event hevent last hlast
      obtain rfl := List.mem_singleton.mp hlast
      exact hbelow event hevent
    · rw [if_neg heq, List.append_nil]
      exact hhistory.rising other
  · intro other event hevent
    rw [history_publish] at hevent
    by_cases heq : other = id
    · subst heq
      rw [if_pos rfl, List.getLast?_append_of_ne_nil _ (by simp), List.getLast?_singleton]
        at hevent
      obtain rfl := Option.mem_some_iff.mp hevent
      rw [DeliveryWorld.Shows, entries_publish, if_pos rfl]
      rcases hkept with rfl | ⟨rfl, hstate⟩
      · rfl
      · exact hstate
    · rw [if_neg heq, List.append_nil] at hevent
      rw [DeliveryWorld.Shows, entries_publish, if_neg heq]
      exact hhistory.latest other event hevent
  · intro other
    obtain ⟨generation, hevents, hentries⟩ := hhistory.generation other
    by_cases heq : other = id
    · subst heq
      have hsame : changed.generation = generation := hgeneration.trans (hentries entry hentry)
      refine ⟨generation, ?_, ?_⟩
      · intro event hevent
        rw [history_publish, if_pos rfl] at hevent
        rcases List.mem_append.mp hevent with hold | hnew
        · exact hevents event hold
        · obtain rfl := List.mem_singleton.mp hnew
          exact hsame
      · intro left hleft
        rw [entries_publish, if_pos rfl] at hleft
        rcases hkept with rfl | ⟨rfl, -⟩
        · obtain rfl := Option.mem_some_iff.mp hleft
          exact hsame
        · cases hleft
    · refine ⟨generation, ?_, ?_⟩
      · rw [history_publish, if_neg heq, List.append_nil]
        exact hevents
      · rw [entries_publish, if_neg heq]
        exact hentries

omit [Infra] in
theorem History.step (hhistory : History world) (hcase : DeliveryCase world after) :
    History after := by
  cases hcase with
  | same => exact hhistory
  | created kind typeName name => exact hhistory.create kind typeName name
  | published hentry hgeneration hrevision hkept =>
      exact hhistory.publish hentry hgeneration hrevision hkept
  | observed => exact hhistory.keep rfl rfl rfl
  | performed act hperforms =>
      exact hhistory.keep hperforms.entries hperforms.nextIdSeq hperforms.changes
  | @leased thread intent rest hthread =>
      unfold DeliveryWorld.lease
      split
      · exact hhistory.keep rfl rfl rfl
      · exact hhistory.keep rfl rfl rfl

end

end BbtFramework.Observe
