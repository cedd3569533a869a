import BbtFramework.Error

/-!
# The mailbox of one actor

`ActorMailbox` is a bounded queue with one drain coroutine.  The coroutine runs
a task inside its own loop, so the next task is taken only after the previous
one has ended.  A mailbox starts its tasks in the order it accepted them.
-/

namespace BbtFramework.Inbound

/-- What the scheduler does with a coroutine it is asked to register. -/
inductive Registration where
  | done
  | refused
  | threw
  deriving DecidableEq, Repr

/-- `running` is the task the drain coroutine is inside of; it has left the
queue and does not count for the capacity. -/
structure ActorMailbox (Task : Type) where
  capacity : Nat
  queue : List Task := []
  draining : Bool := false
  closed : Bool := false
  running : Option Task := none

namespace ActorMailbox

variable {Task : Type}

def create (capacity : Nat) : ActorMailbox Task := { capacity := capacity }

section

variable [Infra]

/-- Accept a task or refuse it.  The first task of an idle mailbox registers
the drain coroutine.  An exception of the scheduler leaves through the caller,
which is the result `none`, and the task stays in the queue. -/
def tryEnqueue (mailbox : ActorMailbox Task) (task : Task)
    (registration : Registration) :
    Option (Except Error Unit) × ActorMailbox Task :=
  if mailbox.closed then
    (some (.error (makeError .closed "ActorMailbox is closed")), mailbox)
  else if mailbox.capacity ≤ mailbox.queue.length then
    (some (.error (makeError .overloaded
      "ActorMailbox waiting queue full (mailbox_capacity)")), mailbox)
  else
    let pushed := { mailbox with queue := mailbox.queue ++ [task] }
    if mailbox.draining then (some (.ok ()), pushed)
    else
      match registration with
      | .done => (some (.ok ()), { pushed with draining := true })
      | .refused =>
          (some (.error (makeError .runtimeUnavailable
            "ActorMailbox: coroutine scheduler unavailable")), mailbox)
      | .threw => (none, pushed)

end

/-- One round of the drain loop up to the task: the task taken, or the end of
the coroutine. -/
def takeNext (mailbox : ActorMailbox Task) :
    Option (Option Task × ActorMailbox Task) :=
  if mailbox.draining = true ∧ mailbox.running.isNone = true then
    match mailbox.queue with
    | [] => some (none, { mailbox with draining := false })
    | task :: rest =>
        some (some task, { mailbox with queue := rest, running := some task })
  else none

/-- The running task returns or throws. -/
def endTask (mailbox : ActorMailbox Task) : Option (Task × ActorMailbox Task) :=
  match mailbox.running with
  | none => none
  | some task => some (task, { mailbox with running := none })

/-- Stop accepting; what was accepted is still drained. -/
def close (mailbox : ActorMailbox Task) : ActorMailbox Task :=
  { mailbox with closed := true }

theorem tryEnqueue_cases [Infra] (mailbox : ActorMailbox Task) (task : Task)
    (registration : Registration) :
    (∃ error, mailbox.tryEnqueue task registration =
      (some (.error error), mailbox)) ∨
    (((mailbox.tryEnqueue task registration).1 = some (.ok ()) ∨
        (mailbox.tryEnqueue task registration).1 = none) ∧
      (mailbox.tryEnqueue task registration).2.queue =
        mailbox.queue ++ [task]) := by
  unfold tryEnqueue
  split
  · exact .inl ⟨_, rfl⟩
  · split
    · exact .inl ⟨_, rfl⟩
    · split
      · exact .inr ⟨.inl rfl, rfl⟩
      · cases registration with
        | done => exact .inr ⟨.inl rfl, rfl⟩
        | refused => exact .inl ⟨_, rfl⟩
        | threw => exact .inr ⟨.inr rfl, rfl⟩

theorem takeNext_cases {mailbox after : ActorMailbox Task} {taken : Option Task}
    (htake : mailbox.takeNext = some (taken, after)) :
    (taken = none ∧ mailbox.queue = [] ∧ after.queue = []) ∨
    (∃ task, taken = some task ∧ mailbox.queue = task :: after.queue) := by
  unfold takeNext at htake
  split at htake
  · split at htake
    · next hqueue =>
        obtain ⟨rfl, rfl⟩ := Prod.mk.inj (Option.some.inj htake)
        exact .inl ⟨rfl, hqueue, hqueue⟩
    · next task rest hqueue =>
        obtain ⟨rfl, rfl⟩ := Prod.mk.inj (Option.some.inj htake)
        exact .inr ⟨task, rfl, hqueue⟩
  · cases htake

theorem endTask_queue {mailbox after : ActorMailbox Task} {task : Task}
    (hend : mailbox.endTask = some (task, after)) :
    after.queue = mailbox.queue := by
  unfold endTask at hend
  split at hend
  · cases hend
  · obtain ⟨-, rfl⟩ := Prod.mk.inj (Option.some.inj hend)
    rfl

end ActorMailbox

end BbtFramework.Inbound
