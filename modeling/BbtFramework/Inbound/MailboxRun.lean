import BbtFramework.Inbound.Mailbox
import BbtFramework.Library.Machine

/-!
# The drain coroutines of a mailbox

Callers enqueue and close, and each registered coroutine drains on its own.  The
draining flag keeps the coroutines apart; with one of them at a time the mailbox runs
what it accepted, in that order, and a step of it is a step of the serial mailbox.
-/

namespace BbtFramework.Inbound

open BbtFramework.Library

/-- Where a drain coroutine stands: before its critical section, inside of a task, or at
its end. -/
inductive DrainState where
  | ready
  | running (task : Nat)
  | finished
  deriving DecidableEq, Repr

/-- The task of a call of `TryEnqueue` is the number of the call.  `accepted` holds the
calls that returned ok and `started` the tasks that were run, each in its order. -/
structure MailboxWorld where
  mailbox : ActorMailbox Nat
  drains : List DrainState
  calls : Nat
  accepted : List Nat
  started : List Nat

inductive MailboxStep where
  | enqueue (given : Bool) (registration : Registration)
  | close
  | drain (index : Nat)
  | endTask (index : Nat) (threw : Bool)
  deriving DecidableEq, Repr

/-- The critical section of `_Drain`. -/
def ActorMailbox.drainSection (mailbox : ActorMailbox Nat) :
    Option Nat × ActorMailbox Nat :=
  match mailbox.queue with
  | [] => (none, { mailbox with draining := false })
  | task :: rest => (some task, { mailbox with queue := rest, running := some task })

theorem ActorMailbox.drainSection_nil {mailbox : ActorMailbox Nat}
    (hqueue : mailbox.queue = []) :
    mailbox.drainSection = (none, { mailbox with draining := false }) := by
  unfold drainSection
  rw [hqueue]

theorem ActorMailbox.drainSection_cons {mailbox : ActorMailbox Nat} {task : Nat}
    {rest : List Nat} (hqueue : mailbox.queue = task :: rest) :
    mailbox.drainSection =
      (some task, { mailbox with queue := rest, running := some task }) := by
  unfold drainSection
  rw [hqueue]

namespace MailboxWorld

def fresh (capacity : Nat) : MailboxWorld where
  mailbox := .create capacity
  drains := []
  calls := 0
  accepted := []
  started := []

section

variable [Infra]

/-- `TryEnqueue` of a function object that may be empty. -/
def offer (world : MailboxWorld) (given : Bool) (registration : Registration) :
    Option (Except Error Unit) × ActorMailbox Nat :=
  if ¬given then
    (some (.error (makeError .invalidArgument "ActorMailbox::TryEnqueue: empty task")),
      world.mailbox)
  else world.mailbox.tryEnqueue world.calls registration

/-- One critical section, or the end of a task; what a task throws goes no further. -/
def next (world : MailboxWorld) : MailboxStep → Option MailboxWorld
  | .enqueue given registration =>
      let offered := world.offer given registration
      some { world with
        mailbox := offered.2
        calls := world.calls + 1
        accepted := if offered.1 = some (.ok ()) then world.accepted ++ [world.calls]
          else world.accepted
        drains := if world.mailbox.draining = false ∧ offered.2.draining = true then
          world.drains ++ [.ready] else world.drains }
  | .close => some { world with mailbox := world.mailbox.close }
  | .drain index =>
      if world.drains[index]? = some .ready then
        match world.mailbox.drainSection with
        | (none, mailbox) => some { world with
            mailbox := mailbox
            drains := world.drains.set index .finished }
        | (some task, mailbox) => some { world with
            mailbox := mailbox
            drains := world.drains.set index (.running task)
            started := world.started ++ [task] }
      else none
  | .endTask index _ =>
      match world.drains[index]? with
      | some (.running _) => some { world with
          mailbox := { world.mailbox with running := none }
          drains := world.drains.set index .ready }
      | _ => none

end

/-- The coroutine is registered or active. -/
def live (world : MailboxWorld) (index : Nat) : Bool :=
  (world.drains[index]?).any (fun drain => drain ≠ .finished)

end MailboxWorld

section

variable [Infra]

def mailboxMachine : Machine MailboxWorld MailboxStep where
  init := fun world => ∃ capacity, world = .fresh capacity
  next := MailboxWorld.next

/-- The scheduler does not throw at a call that has to register a drain. -/
def RegistersQuietly (world : MailboxWorld) : MailboxStep → Prop
  | .enqueue given registration => given = true → registration = .threw →
      world.mailbox.closed = true ∨ world.mailbox.capacity ≤ world.mailbox.queue.length ∨
        world.mailbox.draining = true
  | _ => True

instance (world : MailboxWorld) :
    (label : MailboxStep) → Decidable (RegistersQuietly world label)
  | .enqueue _ _ => inferInstanceAs (Decidable (_ = true → _ = Registration.threw →
      _ = true ∨ _ ≤ _ ∨ _ = true))
  | .close => inferInstanceAs (Decidable True)
  | .drain _ => inferInstanceAs (Decidable True)
  | .endTask _ _ => inferInstanceAs (Decidable True)

namespace MailboxWorld

variable {world last : MailboxWorld}

/-- An offer is refused and leaves the mailbox alone, or the task is queued: under an active
drain, with a new one, or by a call that threw. -/
theorem offer_cases (world : MailboxWorld) (given : Bool) (registration : Registration) :
    (∃ error, world.offer given registration = (some (.error error), world.mailbox)) ∨
      (world.mailbox.queue.length < world.mailbox.capacity ∧
        ((world.mailbox.draining = true ∧ world.offer given registration =
            (some (.ok ()), { world.mailbox with
              queue := world.mailbox.queue ++ [world.calls] })) ∨
          (world.mailbox.draining = false ∧ world.offer given registration =
            (some (.ok ()), { world.mailbox with
              queue := world.mailbox.queue ++ [world.calls]
              draining := true })))) ∨
      (given = true ∧ registration = .threw ∧ world.mailbox.closed = false ∧
        world.mailbox.queue.length < world.mailbox.capacity ∧
        world.mailbox.draining = false) := by
  unfold offer
  split
  · exact Or.inl ⟨_, rfl⟩
  case isFalse hgiven =>
    unfold ActorMailbox.tryEnqueue
    split
    · exact Or.inl ⟨_, rfl⟩
    case isFalse hclosed =>
      split
      · exact Or.inl ⟨_, rfl⟩
      case isFalse hroom =>
        replace hroom := Nat.lt_of_not_le hroom
        dsimp only
        split
        case isTrue hdraining => exact Or.inr (Or.inl ⟨hroom, Or.inl ⟨hdraining, rfl⟩⟩)
        case isFalse hidle =>
          replace hidle := eq_false_of_ne_true hidle
          cases registration with
          | done => exact Or.inr (Or.inl ⟨hroom, Or.inr ⟨hidle, rfl⟩⟩)
          | refused => exact Or.inl ⟨_, rfl⟩
          | threw => exact Or.inr (Or.inr ⟨not_not.mp hgiven, rfl,
              eq_false_of_ne_true hclosed, hroom, hidle⟩)

theorem offer_guarded {given : Bool} {registration : Registration}
    (hquiet : RegistersQuietly world (.enqueue given registration)) :
    (∃ error, world.offer given registration = (some (.error error), world.mailbox)) ∨
      (world.mailbox.queue.length < world.mailbox.capacity ∧
        ((world.mailbox.draining = true ∧ world.offer given registration =
            (some (.ok ()), { world.mailbox with
              queue := world.mailbox.queue ++ [world.calls] })) ∨
          (world.mailbox.draining = false ∧ world.offer given registration =
            (some (.ok ()), { world.mailbox with
              queue := world.mailbox.queue ++ [world.calls]
              draining := true })))) := by
  obtain hrefused | hqueued | ⟨hgiven, hthrew, hclosed, hroom, hidle⟩ :=
    world.offer_cases given registration
  · exact Or.inl hrefused
  · exact Or.inr hqueued
  · obtain hbad | hbad | hbad := hquiet hgiven hthrew
    · cases hclosed.symm.trans hbad
    · exact absurd hbad (Nat.not_le.mpr hroom)
    · cases hidle.symm.trans hbad

/-! ## The invariant -/

omit [Infra] in
theorem live_iff {index : Nat} : world.live index = true ↔
    world.drains[index]? = some .ready ∨
      ∃ task, world.drains[index]? = some (.running task) := by
  unfold live
  cases hdrain : world.drains[index]? with
  | none => simp
  | some drain =>
      cases drain with
      | ready => simp
      | running task => simp
      | finished => simp

omit [Infra] in
theorem length_of_live {index : Nat} (hlive : world.live index = true) :
    index < world.drains.length := by
  obtain hready | ⟨task, hrunning⟩ := live_iff.mp hlive
  · exact (List.getElem?_eq_some_iff.mp hready).1
  · exact (List.getElem?_eq_some_iff.mp hrunning).1

/-- One drain while the flag is set and none otherwise; what was accepted has been started
or waits, in this order. -/
structure Serial (world : MailboxWorld) : Prop where
  one : ∀ index other : Nat, world.live index = true → world.live other = true → index = other
  active : world.mailbox.draining = true ↔ ∃ index, world.live index = true
  inside : ∀ task, world.mailbox.running = some task ↔
    ∃ index : Nat, world.drains[index]? = some (.running task)
  busy : world.mailbox.queue ≠ [] → world.mailbox.draining = true
  line : world.accepted = world.started ++ world.mailbox.queue
  issued : ∀ task ∈ world.accepted, task < world.calls
  nodup : world.accepted.Nodup
  room : world.mailbox.queue.length ≤ world.mailbox.capacity

def behind (world : MailboxWorld) (drains : List DrainState) : MailboxWorld where
  mailbox := { world.mailbox with
    queue := world.mailbox.queue ++ [world.calls]
    draining := true }
  drains := drains
  calls := world.calls + 1
  accepted := world.accepted ++ [world.calls]
  started := world.started

theorem next_refused {given : Bool} {registration : Registration} {error : Error}
    (hoffer : world.offer given registration = (some (.error error), world.mailbox)) :
    world.next (.enqueue given registration) =
      some { world with calls := world.calls + 1 } := by
  simp [next, hoffer]

theorem next_queued {given : Bool} {registration : Registration}
    (hdraining : world.mailbox.draining = true)
    (hoffer : world.offer given registration = (some (.ok ()), { world.mailbox with
      queue := world.mailbox.queue ++ [world.calls] })) :
    world.next (.enqueue given registration) = some (world.behind world.drains) := by
  simp [next, hoffer, behind, hdraining]

theorem next_registered {given : Bool} {registration : Registration}
    (hidle : world.mailbox.draining = false)
    (hoffer : world.offer given registration = (some (.ok ()), { world.mailbox with
      queue := world.mailbox.queue ++ [world.calls]
      draining := true })) :
    world.next (.enqueue given registration) =
      some (world.behind (world.drains ++ [.ready])) := by
  simp [next, hoffer, behind, hidle]

namespace Serial

omit [Infra] in
theorem fresh (capacity : Nat) : (MailboxWorld.fresh capacity).Serial where
  one := by
    intro index other hlive
    cases hlive
  active := by
    constructor
    · intro hdraining
      cases hdraining
    · rintro ⟨index, hlive⟩
      cases hlive
  inside := by
    intro task
    constructor
    · intro hrunning
      cases hrunning
    · rintro ⟨index, hinside⟩
      cases hinside
  busy := fun hqueue => absurd rfl hqueue
  line := rfl
  issued := fun _ hmem => (List.not_mem_nil hmem).elim
  nodup := List.nodup_nil
  room := Nat.zero_le _

omit [Infra] in
/-- The drain that stands before its section is the only one, and no task runs. -/
theorem of_ready (hserial : world.Serial) {index : Nat}
    (hready : world.drains[index]? = some .ready) :
    world.live index = true ∧ world.mailbox.draining = true ∧
      world.mailbox.running = none := by
  have hlive := live_iff.mpr (Or.inl hready)
  refine ⟨hlive, hserial.active.mpr ⟨index, hlive⟩, ?_⟩
  cases hrunning : world.mailbox.running with
  | none => rfl
  | some task =>
      obtain ⟨other, hother⟩ := (hserial.inside task).mp hrunning
      cases hserial.one index other hlive (live_iff.mpr (Or.inr ⟨task, hother⟩))
      cases hready.symm.trans hother

omit [Infra] in
theorem of_running (hserial : world.Serial) {index task : Nat}
    (hrunning : world.drains[index]? = some (.running task)) :
    world.live index = true ∧ world.mailbox.draining = true ∧
      world.mailbox.running = some task := by
  have hlive := live_iff.mpr (Or.inr ⟨task, hrunning⟩)
  exact ⟨hlive, hserial.active.mpr ⟨index, hlive⟩, (hserial.inside task).mpr ⟨index, hrunning⟩⟩

omit [Infra] in
theorem moved (hserial : world.Serial) {index : Nat} (hlive : world.live index = true)
    (last : MailboxWorld) {state : DrainState}
    (hdrains : last.drains = world.drains.set index state) :
    (∀ other, last.live other = true ↔ other = index ∧ state ≠ .finished) ∧
      ∀ task, (∃ other : Nat, last.drains[other]? = some (.running task)) ↔
        state = .running task := by
  have hself : last.drains[index]? = some state := by
    rw [hdrains, List.getElem?_set_self (length_of_live hlive)]
  have hdead : ∀ other, other ≠ index → last.live other ≠ true := by
    intro other hne hbad
    unfold live at hbad
    rw [hdrains, List.getElem?_set_ne (Ne.symm hne)] at hbad
    exact hne (hserial.one other index hbad hlive)
  constructor
  · intro other
    by_cases heq : other = index
    · unfold live
      rw [heq, hself]
      simp
    · exact ⟨fun hbad => absurd hbad (hdead other heq), fun hboth => absurd hboth.1 heq⟩
  · intro task
    constructor
    · rintro ⟨other, hrunning⟩
      by_cases heq : other = index
      · rw [heq, hself] at hrunning
        exact Option.some.inj hrunning
      · exact absurd (live_iff.mpr (Or.inr ⟨task, hrunning⟩)) (hdead other heq)
    · intro hstate
      exact ⟨index, hstate ▸ hself⟩

omit [Infra] in
/-- A call that was refused, or a close, leaves the queue and the drains alone. -/
theorem of_same (hserial : world.Serial) (hqueue : last.mailbox.queue = world.mailbox.queue)
    (hdraining : last.mailbox.draining = world.mailbox.draining)
    (hrunning : last.mailbox.running = world.mailbox.running)
    (hcapacity : last.mailbox.capacity = world.mailbox.capacity)
    (hdrains : last.drains = world.drains) (haccepted : last.accepted = world.accepted)
    (hstarted : last.started = world.started) (hcalls : world.calls ≤ last.calls) :
    last.Serial := by
  have hlive : ∀ index, last.live index = world.live index := fun index => by
    rw [live, live, hdrains]
  constructor
  · intro index other hindex hother
    exact hserial.one index other (hlive index ▸ hindex) (hlive other ▸ hother)
  · rw [hdraining]
    simp only [hlive]
    exact hserial.active
  · intro task
    rw [hrunning, hdrains]
    exact hserial.inside task
  · rw [hqueue, hdraining]
    exact hserial.busy
  · rw [haccepted, hstarted, hqueue]
    exact hserial.line
  · intro task hmem
    exact Nat.lt_of_lt_of_le (hserial.issued task (haccepted ▸ hmem)) hcalls
  · rw [haccepted]
    exact hserial.nodup
  · rw [hqueue, hcapacity]
    exact hserial.room

omit [Infra] in
/-- A task that joins the end of the line. -/
theorem joined (hserial : world.Serial)
    (hroom : world.mailbox.queue.length < world.mailbox.capacity)
    (drains : List DrainState) :
    (world.behind drains).accepted =
        (world.behind drains).started ++ (world.behind drains).mailbox.queue ∧
      (∀ task ∈ (world.behind drains).accepted, task < (world.behind drains).calls) ∧
      (world.behind drains).accepted.Nodup ∧
      (world.behind drains).mailbox.queue.length ≤ (world.behind drains).mailbox.capacity := by
  dsimp only [behind]
  refine ⟨?_, ?_, ?_, ?_⟩
  · rw [hserial.line, List.append_assoc]
  · intro task hmem
    obtain hold | hnew := List.mem_append.mp hmem
    · exact Nat.lt_succ_of_lt (hserial.issued task hold)
    · rw [List.mem_singleton.mp hnew]
      exact Nat.lt_succ_self _
  · refine List.nodup_append.mpr ⟨hserial.nodup, by simp, ?_⟩
    intro task hmem other hother heq
    rw [List.mem_singleton.mp hother] at heq
    exact Nat.ne_of_lt (hserial.issued task hmem) heq
  · rw [List.length_append]
    exact hroom

omit [Infra] in
/-- A task behind the active drain. -/
theorem queued (hserial : world.Serial)
    (hroom : world.mailbox.queue.length < world.mailbox.capacity)
    (hdraining : world.mailbox.draining = true) : (world.behind world.drains).Serial := by
  obtain ⟨hline, hissued, hnodup, hlength⟩ := hserial.joined hroom world.drains
  constructor
  · exact hserial.one
  · constructor
    · intro _
      exact hserial.active.mp hdraining
    · intro _
      rfl
  · exact hserial.inside
  · intro _
    rfl
  · exact hline
  · exact hissued
  · exact hnodup
  · exact hlength

omit [Infra] in
/-- A task with a new drain. -/
theorem registered (hserial : world.Serial)
    (hroom : world.mailbox.queue.length < world.mailbox.capacity)
    (hidle : world.mailbox.draining = false) :
    (world.behind (world.drains ++ [.ready])).Serial := by
  obtain ⟨hline, hissued, hnodup, hlength⟩ :=
    hserial.joined hroom (world.drains ++ [.ready])
  have hdead : ∀ index, world.live index ≠ true := by
    intro index hlive
    cases hidle.symm.trans (hserial.active.mpr ⟨index, hlive⟩)
  have hlive : ∀ index, (world.behind (world.drains ++ [.ready])).live index = true ↔
      index = world.drains.length := by
    intro index
    unfold live behind
    rcases Nat.lt_trichotomy index world.drains.length with hlt | heq | hgt
    · rw [List.getElem?_append_left hlt]
      exact ⟨fun hbad => absurd hbad (hdead index), fun heq => absurd heq (Nat.ne_of_lt hlt)⟩
    · rw [heq, List.getElem?_concat_length]
      exact ⟨fun _ => rfl, fun _ => rfl⟩
    · have hbeyond : (world.drains ++ [DrainState.ready]).length ≤ index := by
        rw [List.length_append]
        exact hgt
      rw [List.getElem?_eq_none hbeyond]
      constructor
      · intro hbad
        cases hbad
      · intro heq
        exact absurd heq (Nat.ne_of_gt hgt)
  constructor
  · intro index other hindex hother
    rw [(hlive index).mp hindex, (hlive other).mp hother]
  · constructor
    · intro _
      exact ⟨_, (hlive _).mpr rfl⟩
    · intro _
      rfl
  · intro task
    constructor
    · intro hrunning
      obtain ⟨index, hinside⟩ := (hserial.inside task).mp hrunning
      exact absurd (live_iff.mpr (Or.inr ⟨task, hinside⟩)) (hdead index)
    · rintro ⟨index, hinside⟩
      cases (hlive index).mp (live_iff.mpr (Or.inr ⟨task, hinside⟩))
      cases hinside.symm.trans List.getElem?_concat_length
  · intro _
    rfl
  · exact hline
  · exact hissued
  · exact hnodup
  · exact hlength

theorem enqueue (hserial : world.Serial) {given : Bool} {registration : Registration}
    (hquiet : RegistersQuietly world (.enqueue given registration))
    (hnext : world.next (.enqueue given registration) = some last) : last.Serial := by
  obtain ⟨error, hoffer⟩ | ⟨hroom, ⟨hdraining, hoffer⟩ | ⟨hidle, hoffer⟩⟩ :=
    offer_guarded hquiet
  · rw [next_refused hoffer] at hnext
    cases hnext
    exact hserial.of_same rfl rfl rfl rfl rfl rfl rfl (Nat.le_succ _)
  · rw [next_queued hdraining hoffer] at hnext
    cases hnext
    exact hserial.queued hroom hdraining
  · rw [next_registered hidle hoffer] at hnext
    cases hnext
    exact hserial.registered hroom hidle

omit [Infra] in
theorem close (hserial : world.Serial) :
    ({ world with mailbox := world.mailbox.close } : MailboxWorld).Serial :=
  hserial.of_same rfl rfl rfl rfl rfl rfl rfl (Nat.le_refl _)

omit [Infra] in
/-- The drain finds nothing and ends. -/
theorem drained (hserial : world.Serial) {index : Nat}
    (hready : world.drains[index]? = some .ready) (hqueue : world.mailbox.queue = []) :
    ({ world with
      mailbox := { world.mailbox with draining := false }
      drains := world.drains.set index .finished } : MailboxWorld).Serial := by
  obtain ⟨hlive, -, hidle⟩ := hserial.of_ready hready
  obtain ⟨hafter, hinside⟩ := hserial.moved hlive { world with
    mailbox := { world.mailbox with draining := false }
    drains := world.drains.set index .finished } rfl
  constructor
  · intro other another hother
    exact absurd rfl ((hafter other).mp hother).2
  · constructor
    · intro hdraining
      cases hdraining
    · rintro ⟨other, hother⟩
      exact absurd rfl ((hafter other).mp hother).2
  · intro task
    rw [hinside task]
    constructor
    · intro hrunning
      cases hidle.symm.trans hrunning
    · intro hstate
      cases hstate
  · intro hnonempty
    exact absurd hqueue hnonempty
  · exact hserial.line
  · exact hserial.issued
  · exact hserial.nodup
  · exact hserial.room

omit [Infra] in
theorem taken (hserial : world.Serial) {index task : Nat} {rest : List Nat}
    (hready : world.drains[index]? = some .ready)
    (hqueue : world.mailbox.queue = task :: rest) :
    ({ world with
      mailbox := { world.mailbox with queue := rest, running := some task }
      drains := world.drains.set index (.running task)
      started := world.started ++ [task] } : MailboxWorld).Serial := by
  obtain ⟨hlive, hdraining, -⟩ := hserial.of_ready hready
  obtain ⟨hafter, hinside⟩ := hserial.moved hlive { world with
    mailbox := { world.mailbox with queue := rest, running := some task }
    drains := world.drains.set index (.running task)
    started := world.started ++ [task] } rfl
  constructor
  · intro other another hother hanother
    rw [((hafter other).mp hother).1, ((hafter another).mp hanother).1]
  · constructor
    · intro _
      exact ⟨index, (hafter index).mpr ⟨rfl, by simp⟩⟩
    · intro _
      exact hdraining
  · intro other
    rw [hinside other]
    constructor
    · intro hrunning
      exact congrArg DrainState.running (Option.some.inj hrunning)
    · intro hstate
      exact congrArg some (DrainState.running.inj hstate)
  · intro _
    exact hdraining
  · dsimp only
    rw [hserial.line, hqueue, List.append_assoc, List.singleton_append]
  · exact hserial.issued
  · exact hserial.nodup
  · have hroom := hserial.room
    rw [hqueue] at hroom
    exact Nat.le_of_succ_le hroom

omit [Infra] in
/-- The task ends and its drain comes back for the next one. -/
theorem ended (hserial : world.Serial) {index task : Nat}
    (hrunning : world.drains[index]? = some (.running task)) :
    ({ world with
      mailbox := { world.mailbox with running := none }
      drains := world.drains.set index .ready } : MailboxWorld).Serial := by
  obtain ⟨hlive, hdraining, -⟩ := hserial.of_running hrunning
  obtain ⟨hafter, hinside⟩ := hserial.moved hlive { world with
    mailbox := { world.mailbox with running := none }
    drains := world.drains.set index .ready } rfl
  constructor
  · intro other another hother hanother
    rw [((hafter other).mp hother).1, ((hafter another).mp hanother).1]
  · constructor
    · intro _
      exact ⟨index, (hafter index).mpr ⟨rfl, by simp⟩⟩
    · intro _
      exact hdraining
  · intro other
    rw [hinside other]
    constructor
    · intro hnone
      cases hnone
    · intro hstate
      cases hstate
  · intro _
    exact hdraining
  · exact hserial.line
  · exact hserial.issued
  · exact hserial.nodup
  · exact hserial.room

end Serial

/-! ## What a drain does -/

/-- A drain step ends the coroutine of an idle mailbox, or starts the first task. -/
theorem drain_cases {index : Nat} (hnext : world.next (.drain index) = some last) :
    world.drains[index]? = some .ready ∧
      ((world.mailbox.queue = [] ∧ last = { world with
          mailbox := { world.mailbox with draining := false }
          drains := world.drains.set index .finished }) ∨
        ∃ task rest, world.mailbox.queue = task :: rest ∧ last = { world with
          mailbox := { world.mailbox with queue := rest, running := some task }
          drains := world.drains.set index (.running task)
          started := world.started ++ [task] }) := by
  simp only [next] at hnext
  split at hnext
  case isTrue hready =>
    refine ⟨hready, ?_⟩
    cases hqueue : world.mailbox.queue with
    | nil =>
        rw [ActorMailbox.drainSection_nil hqueue] at hnext
        exact Or.inl ⟨rfl, (Option.some.inj hnext).symm⟩
    | cons task rest =>
        rw [ActorMailbox.drainSection_cons hqueue] at hnext
        exact Or.inr ⟨task, rest, rfl, (Option.some.inj hnext).symm⟩
  case isFalse => cases hnext

theorem endTask_cases {index : Nat} {threw : Bool}
    (hnext : world.next (.endTask index threw) = some last) :
    ∃ task, world.drains[index]? = some (.running task) ∧ last = { world with
      mailbox := { world.mailbox with running := none }
      drains := world.drains.set index .ready } := by
  simp only [next] at hnext
  split at hnext
  · next task hrunning => exact ⟨task, hrunning, (Option.some.inj hnext).symm⟩
  · cases hnext

/-- A guarded step keeps the invariant. -/
theorem Serial.next (hserial : world.Serial) {label : MailboxStep}
    (hquiet : RegistersQuietly world label) (hnext : world.next label = some last) :
    last.Serial := by
  cases label with
  | enqueue given registration => exact hserial.enqueue hquiet hnext
  | close =>
      cases hnext
      exact hserial.close
  | drain index =>
      obtain ⟨hready, ⟨hqueue, rfl⟩ | ⟨task, rest, hqueue, rfl⟩⟩ := drain_cases hnext
      · exact hserial.drained hready hqueue
      · exact hserial.taken hready hqueue
  | endTask index threw =>
      obtain ⟨task, hrunning, rfl⟩ := endTask_cases hnext
      exact hserial.ended hrunning

end MailboxWorld

theorem serial_of_reachable {world : MailboxWorld}
    (hreach : mailboxMachine.ReachableWhere RegistersQuietly world) : world.Serial := by
  refine hreach.induct ?_ ?_
  · rintro state ⟨capacity, rfl⟩
    exact .fresh capacity
  · intro state label last _ ih hquiet hnext
    exact ih.next hquiet hnext

def MailboxStep.drains : MailboxStep → Bool
  | .drain _ => true
  | _ => false

namespace MailboxWorld

variable {world last : MailboxWorld}

theorem next_accepted {label : MailboxStep} (hnext : world.next label = some last) :
    world.accepted <+: last.accepted := by
  cases label with
  | enqueue given registration =>
      cases hnext
      dsimp only
      split
      · exact List.prefix_append _ _
      · exact List.prefix_refl _
  | close =>
      cases hnext
      exact List.prefix_refl _
  | drain index =>
      obtain ⟨-, ⟨-, rfl⟩ | ⟨task, rest, -, rfl⟩⟩ := drain_cases hnext
      · exact List.prefix_refl _
      · exact List.prefix_refl _
  | endTask index threw =>
      obtain ⟨task, -, rfl⟩ := endTask_cases hnext
      exact List.prefix_refl _

theorem Serial.next_started (hserial : world.Serial) {label : MailboxStep}
    (hnext : world.next label = some last) :
    world.started.length ≤ last.started.length ∧
      (label.drains = true → last.started.length = world.started.length + 1 ∨
        last.started.length = last.accepted.length) := by
  cases label with
  | enqueue given registration =>
      cases hnext
      exact ⟨Nat.le_refl _, fun hdrains => by cases hdrains⟩
  | close =>
      cases hnext
      exact ⟨Nat.le_refl _, fun hdrains => by cases hdrains⟩
  | drain index =>
      obtain ⟨-, ⟨hqueue, rfl⟩ | ⟨task, rest, hqueue, rfl⟩⟩ := drain_cases hnext
      · refine ⟨Nat.le_refl _, fun _ => Or.inr ?_⟩
        dsimp only
        rw [hserial.line, hqueue, List.append_nil]
      · dsimp only
        rw [List.length_append]
        exact ⟨Nat.le_add_right _ _, fun _ => Or.inl rfl⟩
  | endTask index threw =>
      obtain ⟨task, -, rfl⟩ := endTask_cases hnext
      exact ⟨Nat.le_refl _, fun hdrains => by cases hdrains⟩

theorem run_started (hreach : mailboxMachine.ReachableWhere RegistersQuietly world)
    {labels : List MailboxStep}
    (hrun : mailboxMachine.Run RegistersQuietly world labels last) :
    world.accepted <+: last.accepted ∧
      min world.accepted.length (world.started.length + labels.countP MailboxStep.drains) ≤
        last.started.length := by
  induction hrun with
  | refl => exact ⟨List.prefix_refl _, Nat.min_le_right _ _⟩
  | @tail labels middle last label hbefore hquiet hnext ih =>
      obtain ⟨haccepted, hstarted⟩ := ih
      have hserial := serial_of_reachable (hreach.run hbefore)
      obtain ⟨hgrows, hdrain⟩ := hserial.next_started hnext
      have hafter := haccepted.trans (next_accepted hnext)
      refine ⟨hafter, ?_⟩
      rw [List.countP_append, List.countP_singleton]
      cases hlabel : label.drains with
      | false => exact Nat.le_trans hstarted hgrows
      | true =>
          obtain hone | hall := hdrain hlabel
          · rw [hone]
            simp only [if_true]
            omega
          · rw [hall]
            exact Nat.le_trans (Nat.min_le_left _ _) hafter.length_le

theorem run_starts (hreach : mailboxMachine.ReachableWhere RegistersQuietly world)
    {labels : List MailboxStep}
    (hrun : mailboxMachine.Run RegistersQuietly world labels last)
    (hdrains : world.mailbox.queue.length ≤ labels.countP MailboxStep.drains) :
    world.accepted <+: last.started := by
  obtain ⟨haccepted, hstarted⟩ := run_started hreach hrun
  have hlength : world.accepted.length =
      world.started.length + world.mailbox.queue.length := by
    rw [(serial_of_reachable hreach).line, List.length_append]
  have hbefore : last.started <+: last.accepted := by
    rw [(serial_of_reachable (hreach.run hrun)).line]
    exact List.prefix_append _ _
  exact List.prefix_of_prefix_length_le haccepted hbefore (by omega)

theorem can_move {index : Nat} (hlive : world.live index = true) :
    (∃ last, world.next (.drain index) = some last) ∨
      ∀ threw, ∃ last, world.next (.endTask index threw) = some last := by
  obtain hready | ⟨task, hrunning⟩ := live_iff.mp hlive
  · refine Or.inl ?_
    simp only [next, if_pos hready]
    split
    · exact ⟨_, rfl⟩
    · exact ⟨_, rfl⟩
  · refine Or.inr fun threw => ?_
    simp only [next, hrunning]
    exact ⟨_, rfl⟩

omit [Infra] in
/-- Apart from the coroutines, a drain step is one of the serial mailbox. -/
theorem Serial.takeNext (hserial : world.Serial) {index : Nat}
    (hready : world.drains[index]? = some .ready) :
    world.mailbox.takeNext = some world.mailbox.drainSection := by
  obtain ⟨-, hdraining, hidle⟩ := hserial.of_ready hready
  unfold ActorMailbox.takeNext ActorMailbox.drainSection
  rw [if_pos ⟨hdraining, by rw [hidle]; rfl⟩]
  cases world.mailbox.queue with
  | nil => rfl
  | cons task rest => rfl

omit [Infra] in
theorem Serial.endTask (hserial : world.Serial) {index task : Nat}
    (hrunning : world.drains[index]? = some (.running task)) :
    world.mailbox.endTask = some (task, { world.mailbox with running := none }) := by
  obtain ⟨-, -, hinside⟩ := hserial.of_running hrunning
  unfold ActorMailbox.endTask
  rw [hinside]

end MailboxWorld

/-- With a scheduler that does not throw, what was accepted is started once and in order,
under one drain that a waiting task always has. -/
theorem mailbox_serial {world : MailboxWorld}
    (hreach : mailboxMachine.ReachableWhere RegistersQuietly world) :
    (world.accepted = world.started ++ world.mailbox.queue ∧ world.accepted.Nodup) ∧
      (∀ index other, world.live index = true → world.live other = true → index = other) ∧
      (world.mailbox.queue ≠ [] → ∃ index, world.live index = true ∧
        ((∃ last, world.next (.drain index) = some last) ∨
          ∀ threw, ∃ last, world.next (.endTask index threw) = some last)) ∧
      world.mailbox.queue.length ≤ world.mailbox.capacity ∧
      ∀ labels last, mailboxMachine.Run RegistersQuietly world labels last →
        world.mailbox.queue.length ≤ labels.countP MailboxStep.drains →
        world.accepted <+: last.started := by
  have hserial := serial_of_reachable hreach
  refine ⟨⟨hserial.line, hserial.nodup⟩, hserial.one, ?_, hserial.room, ?_⟩
  · intro hwaiting
    obtain ⟨index, hlive⟩ := hserial.active.mp (hserial.busy hwaiting)
    exact ⟨index, hlive, MailboxWorld.can_move hlive⟩
  · intro labels last hrun hdrains
    exact MailboxWorld.run_starts hreach hrun hdrains

end

/-- Two tasks wait behind a third one that throws, and two drain steps start them. -/
theorem mailbox_serial_three :
    letI := permissiveInfra
    ∃ world last labels, mailboxMachine.ReachableWhere RegistersQuietly world ∧
      world.accepted = [0, 2, 3] ∧ world.mailbox.queue = [2, 3] ∧
      mailboxMachine.Run RegistersQuietly world labels last ∧
      [0, 2, 3] <+: last.started := by
  let _ := permissiveInfra
  have hboot : mailboxMachine.ReachableWhere RegistersQuietly (.fresh 2) :=
    .start ⟨2, rfl⟩
  obtain ⟨world, last, hreach, hrun, htest⟩ := hboot.exec_both
    (fun world label => decide (RegistersQuietly world label)) (fun _ _ => of_decide_eq_true)
    [.enqueue true .done, .enqueue false .done, .drain 0, .enqueue true .threw,
      .enqueue true .threw, .enqueue true .done, .enqueue true .threw, .close]
    [.endTask 0 true, .drain 0, .endTask 0 false, .drain 0]
    (fun world _ => world.accepted = [0, 2, 3] ∧ world.mailbox.queue = [2, 3]) (by decide)
  obtain ⟨haccepted, hqueue⟩ := of_decide_eq_true htest
  refine ⟨world, last, _, hreach, haccepted, hqueue, hrun, ?_⟩
  rw [← haccepted]
  obtain ⟨-, -, -, -, hstarts⟩ := mailbox_serial hreach
  exact hstarts _ last hrun (by rw [hqueue]; decide)

/-- The registration of the first call throws; its task waits without a drain, and the
drain of the second call starts it. -/
theorem not_mailbox_serial :
    letI := permissiveInfra
    (¬∀ world, mailboxMachine.Reachable world → world.mailbox.queue ≠ [] →
      ∃ index, world.live index = true) ∧
    ¬∀ world, mailboxMachine.Reachable world →
      ∀ task ∈ world.started, task ∈ world.accepted := by
  let _ := permissiveInfra
  have hboot : mailboxMachine.Reachable (.fresh 2) := .start ⟨2, rfl⟩
  constructor
  · intro hclaim
    obtain ⟨world, hreach, htest⟩ := hboot.exec_any (fun _ _ => true) (fun _ _ _ => trivial)
      [.enqueue true .threw]
      (fun world => world.mailbox.queue = [0] ∧ world.drains = []) (by decide)
    obtain ⟨hqueue, hdrains⟩ := of_decide_eq_true htest
    obtain ⟨index, hlive⟩ := hclaim world hreach (by rw [hqueue]; decide)
    rw [MailboxWorld.live, hdrains] at hlive
    cases hlive
  · intro hclaim
    obtain ⟨world, hreach, htest⟩ := hboot.exec_any (fun _ _ => true) (fun _ _ _ => trivial)
      [.enqueue true .threw, .enqueue true .done, .drain 0]
      (fun world => world.started = [0] ∧ world.accepted = [1]) (by decide)
    obtain ⟨hstarted, haccepted⟩ := of_decide_eq_true htest
    have hmem := hclaim world hreach 0 (by rw [hstarted]; decide)
    rw [haccepted] at hmem
    cases List.mem_singleton.mp hmem

end BbtFramework.Inbound
