import BbtFramework.Library.Waiter
import Mathlib.Logic.Function.Basic

/-!
# A shared list of waiters

A thread that waits for a condition registers its waiter and, in one critical section, puts
it into a shared list and looks at the condition once more.  Who makes a condition true swaps
the shared list with a list of its own in the same critical section, and notifies what it has
taken outside it, one waiter after the other, and then the condition variable on which
threads outside coroutines are blocked.  A list that was swapped in before goes back into the
shared one, so names of waiters notified long ago stay around.
-/

namespace BbtFramework.Library

abbrev WaiterName := Nat × Nat

/-- Where a wait stands.  A wait that was not completed is left with its status. -/
inductive SleepPc (Status : Type) where
  | awake
  | looking
  | registering
  | callback
  | notifySelf
  | suspended
  | leaving (failure : Option Status)
  | failed (status : Status)
  | blocked
  deriving DecidableEq

def SleepPc.registered {Status : Type} : SleepPc Status → Bool
  | .callback => true
  | .notifySelf => true
  | .suspended => true
  | .awake => false
  | .looking => false
  | .registering => false
  | .leaving _ => false
  | .failed _ => false
  | .blocked => false

/-- A thread, where its wait stands and how many it has begun. -/
structure Sleeper (Status : Type) where
  pc : SleepPc Status
  turn : Nat

/-- A list of its own, those of it that are still to be notified, and whether the condition
variable is. -/
structure Courier where
  held : List WaiterName
  pending : List WaiterName
  broadcasting : Bool

/-- Nothing is left to notify. -/
def Courier.Done (courier : Courier) : Prop :=
  courier.pending = [] ∧ courier.broadcasting = false

instance (courier : Courier) : Decidable courier.Done :=
  inferInstanceAs (Decidable (_ ∧ _))

structure WaitList (Key Status : Type) where
  shared : List WaiterName
  waiters : WaiterName → Waiter
  sleepers : Nat → Sleeper Status
  couriers : Key → Courier

/-- What a waiting thread does next; in the end of a wait only `retry` differs between those
who give up and those who look again. -/
inductive SleepStep (Status : Type) where
  | look (blocking : Bool)
  | register (keep : Bool)
  | callback
  | notifySelf
  | wake
  | giveUp (status : Status)
  | leave
  | retry
  deriving DecidableEq

namespace WaitList

variable {Key Status : Type}

def empty : WaitList Key Status where
  shared := []
  waiters := fun _ => .create
  sleepers := fun _ => ⟨.awake, 0⟩
  couriers := fun _ => ⟨[], [], false⟩

variable (list : WaitList Key Status)

def pc (thread : Nat) : SleepPc Status :=
  (list.sleepers thread).pc

def name (thread : Nat) : WaiterName :=
  (thread, (list.sleepers thread).turn)

def waiter (thread : Nat) : Waiter :=
  list.waiters (list.name thread)

def move (thread : Nat) (pc : SleepPc Status) : WaitList Key Status :=
  { list with
    sleepers := Function.update list.sleepers thread
      ⟨pc, (list.sleepers thread).turn⟩ }

def enter (thread : Nat) (pc : SleepPc Status) : WaitList Key Status :=
  { list with
    waiters := Function.update list.waiters
      (thread, (list.sleepers thread).turn + 1) .create
    sleepers := Function.update list.sleepers thread
      ⟨pc, (list.sleepers thread).turn + 1⟩ }

def setWaiter (name : WaiterName) (waiter : Waiter) : WaitList Key Status :=
  { list with waiters := Function.update list.waiters name waiter }

section

variable [DecidableEq Status]

/-- A step of a waiting thread, whose condition is `ready` now. -/
def act (thread : Nat) (ready : Bool) : SleepStep Status → Option (WaitList Key Status)
  | .look blocking =>
      if list.pc thread = .looking ∧ ready = false then
        some (list.move thread (if blocking then .blocked else .registering))
      else none
  | .register keep =>
      if list.pc thread = .registering then
        some ((list.setWaiter (list.name thread)
          ((list.waiter thread).register keep)).move thread .callback)
      else none
  | .callback =>
      if list.pc thread = .callback then
        some { list.move thread (if ready then .notifySelf else .suspended) with
          shared := list.shared ++ [list.name thread] }
      else none
  | .notifySelf =>
      if list.pc thread = .notifySelf then
        some ((list.setWaiter (list.name thread)
          ((list.waiter thread).notify true)).move thread .suspended)
      else none
  | .wake =>
      if list.pc thread = .suspended ∧ (list.waiter thread).signalled = true then
        some ((list.setWaiter (list.name thread) (list.waiter thread).release).move thread
          (.leaving none))
      else none
  -- the deadline, the cancellation or the runtime ends the wait, before or after it began
  | .giveUp status =>
      if list.pc thread = .registering ∨ list.pc thread = .suspended then
        some ((list.setWaiter (list.name thread) (list.waiter thread).release).move thread
          (.leaving (some status)))
      else none
  | .leave =>
      match list.pc thread with
      | .leaving failure =>
          some { list.move thread (failure.elim .looking .failed) with
            shared := list.shared.filter (fun name => name ≠ list.name thread) }
      | _ => none
  | .retry =>
      match list.pc thread with
      | .failed _ | .blocked => some (list.move thread .looking)
      | _ => none

end

section

variable [DecidableEq Key]

/-- The critical section of a notifier; `reuse` tells whether its list is the one of an
earlier swap or a new one. -/
def swap (key : Key) (reuse : Bool) : WaitList Key Status :=
  { list with
    shared := if reuse then (list.couriers key).held else []
    couriers := Function.update list.couriers key ⟨list.shared, list.shared, true⟩ }

def notify (key : Key) (keep : Bool) : Option (WaitList Key Status) :=
  match (list.couriers key).pending with
  | [] => none
  | name :: rest =>
      some { list.setWaiter name ((list.waiters name).notify keep) with
        couriers := Function.update list.couriers key
          { list.couriers key with pending := rest } }

/-- `notify_all` on the condition variable, after the waiters. -/
def notifyAll [DecidableEq Status] (key : Key) : Option (WaitList Key Status) :=
  if (list.couriers key).pending = [] ∧ (list.couriers key).broadcasting = true then
    some { list with
      sleepers := fun thread =>
        if list.pc thread = .blocked then ⟨.looking, (list.sleepers thread).turn⟩
        else list.sleepers thread
      couriers := Function.update list.couriers key
        { list.couriers key with broadcasting := false } }
  else none

end

/-- The thread sleeps, and no notification that was kept will wake it. -/
def Asleep (thread : Nat) : Prop :=
  list.pc thread = .blocked ∨
    (list.pc thread = .suspended ∧ (list.waiter thread).signalled = false)

instance [DecidableEq Status] (thread : Nat) : Decidable (list.Asleep thread) :=
  inferInstanceAs (Decidable (_ ∨ _))

/-- No notification is pending. -/
def Quiet : Prop :=
  ∀ key, (list.couriers key).Done

/-- A suspended thread that was not notified is on the list of somebody who will notify it,
or on the shared list while its condition is false; a blocked one waits for `notify_all` or
has a false condition. -/
structure Sound (ready : Nat → Prop) : Prop where
  registered : ∀ thread, (list.pc thread).registered = true →
    (list.waiter thread).registered = true
  suspended : ∀ thread, list.pc thread = .suspended →
    (list.waiter thread).signalled = false →
    (∃ key, list.name thread ∈ (list.couriers key).pending) ∨
      (list.name thread ∈ list.shared ∧ ¬ready thread)
  blocked : ∀ thread, list.pc thread = .blocked →
    (∃ key, (list.couriers key).broadcasting = true) ∨ ¬ready thread

variable {list} {later : WaitList Key Status} {ready after : Nat → Prop} {thread : Nat}

theorem quiet_empty : (empty : WaitList Key Status).Quiet :=
  fun _ => ⟨rfl, rfl⟩

theorem sound_empty (ready : Nat → Prop) :
    (empty : WaitList Key Status).Sound ready := by
  constructor
  case registered => exact fun _ hregistered => absurd hregistered Bool.false_ne_true
  case suspended => exact fun _ hpc => absurd hpc (by simp [empty, pc])
  case blocked => exact fun _ hpc => absurd hpc (by simp [empty, pc])

/-- No wake-up is lost. -/
theorem Sound.not_ready (hsound : list.Sound ready) (hquiet : list.Quiet)
    (hasleep : list.Asleep thread) : ¬ready thread := by
  rcases hasleep with hblocked | ⟨hsuspended, hsignalled⟩
  · rcases hsound.blocked thread hblocked with ⟨key, hkey⟩ | hready
    · rw [(hquiet key).2] at hkey
      cases hkey
    · exact hready
  · rcases hsound.suspended thread hsuspended hsignalled with ⟨key, hkey⟩ | ⟨-, hready⟩
    · rw [(hquiet key).1] at hkey
      cases hkey
    · exact hready

/-- The conditions have changed, but no sleeping thread has a condition that has become
true. -/
theorem Sound.mono (hsound : list.Sound ready)
    (hmono : ∀ thread, list.Asleep thread → after thread → ready thread) :
    list.Sound after := by
  constructor
  · exact hsound.registered
  · intro thread hpc hsignalled
    refine (hsound.suspended thread hpc hsignalled).imp_right ?_
    rintro ⟨hmem, hready⟩
    exact ⟨hmem, fun hafter => hready (hmono thread (Or.inr ⟨hpc, hsignalled⟩) hafter)⟩
  · intro thread hpc
    exact (hsound.blocked thread hpc).imp_right
      (fun hready hafter => hready (hmono thread (Or.inl hpc) hafter))

/-! ## The waiting threads -/

/-- One thread moves with its own waiter: what has to be shown of it alone. -/
theorem Sound.own (hsound : list.Sound ready) (thread : Nat)
    (hcouriers : later.couriers = list.couriers)
    (hsleepers : ∀ other, other ≠ thread → later.sleepers other = list.sleepers other)
    (hwaiters : ∀ name : WaiterName, name.1 ≠ thread →
      later.waiters name = list.waiters name)
    (hshared : ∀ name ∈ list.shared, name.1 ≠ thread → name ∈ later.shared)
    (hregistered : (later.pc thread).registered = true →
      (later.waiter thread).registered = true)
    (hsuspended : later.pc thread = .suspended →
      (later.waiter thread).signalled = false →
      later.name thread ∈ later.shared ∧ ¬ready thread)
    (hblocked : later.pc thread = .blocked → ¬ready thread) : later.Sound ready := by
  have hpc : ∀ other, other ≠ thread → later.pc other = list.pc other :=
    fun other hne => congrArg Sleeper.pc (hsleepers other hne)
  have hname : ∀ other, other ≠ thread → later.name other = list.name other := by
    intro other hne
    rw [name, name, hsleepers other hne]
  have hwaiter : ∀ other, other ≠ thread → later.waiter other = list.waiter other := by
    intro other hne
    rw [waiter, hname other hne]
    exact hwaiters (list.name other) hne
  constructor
  · intro other
    by_cases heq : other = thread
    · subst heq
      exact hregistered
    · rw [hpc other heq, hwaiter other heq]
      exact hsound.registered other
  · intro other
    by_cases heq : other = thread
    · subst heq
      exact fun hpc hsignalled => Or.inr (hsuspended hpc hsignalled)
    · rw [hpc other heq, hwaiter other heq, hname other heq, hcouriers]
      intro hother hsignalled
      exact (hsound.suspended other hother hsignalled).imp_right
        (And.imp_left (fun hmem => hshared _ hmem heq))
  · intro other
    by_cases heq : other = thread
    · subst heq
      exact fun hpc => Or.inr (hblocked hpc)
    · rw [hpc other heq, hcouriers]
      exact hsound.blocked other

@[simp]
theorem pc_move (thread : Nat) (pc : SleepPc Status) : (list.move thread pc).pc thread = pc := by
  simp [move, WaitList.pc]

@[simp]
theorem name_move (thread : Nat) (pc : SleepPc Status) :
    (list.move thread pc).name thread = list.name thread := by
  simp [move, name]

theorem Sound.moveWaiter (hsound : list.Sound ready) (thread : Nat) (waiter : Waiter)
    {pc : SleepPc Status}
    (hregistered : pc.registered = true → waiter.registered = true)
    (hsuspended : pc = .suspended → waiter.signalled = true)
    (hblocked : pc = .blocked → ¬ready thread) :
    ((list.setWaiter (list.name thread) waiter).move thread pc).Sound ready := by
  have hwaiter : ((list.setWaiter (list.name thread) waiter).move thread pc).waiter thread =
      waiter := by
    simp [WaitList.waiter, setWaiter, move, name]
  refine hsound.own thread rfl ?_ ?_ (fun _ hmem _ => hmem) ?_ ?_ ?_
  · intro other hne
    simp [move, setWaiter, hne]
  · intro other hne
    have hother : other ≠ list.name thread := fun heq => hne (congrArg Prod.fst heq)
    simp [move, setWaiter, hother]
  · rw [pc_move, hwaiter]
    exact hregistered
  · rw [pc_move, hwaiter]
    intro hpc hsignalled
    rw [hsuspended hpc] at hsignalled
    cases hsignalled
  · rw [pc_move]
    exact hblocked

theorem Sound.rest (hsound : list.Sound ready) (thread : Nat) {pc : SleepPc Status}
    (hregistered : pc.registered = false) (hblocked : pc = .blocked → ¬ready thread) :
    (list.move thread pc).Sound ready := by
  refine hsound.own thread rfl ?_ (fun _ _ => rfl) (fun _ hmem _ => hmem) ?_ ?_ ?_
  · intro other hne
    simp [move, hne]
  · rw [pc_move, hregistered]
    exact fun hfalse => absurd hfalse Bool.false_ne_true
  · rw [pc_move]
    rintro rfl
    cases hregistered
  · rw [pc_move]
    exact hblocked

theorem Sound.enter (hsound : list.Sound ready) (thread : Nat) {pc : SleepPc Status}
    (hregistered : pc.registered = false) (hblocked : pc ≠ .blocked) :
    (list.enter thread pc).Sound ready := by
  have hpc : (list.enter thread pc).pc thread = pc := by
    simp [WaitList.enter, WaitList.pc]
  refine hsound.own thread rfl ?_ ?_ (fun _ hmem _ => hmem) ?_ ?_ ?_
  · intro other hne
    simp [WaitList.enter, hne]
  · intro name hne
    have hother : name ≠ (thread, (list.sleepers thread).turn + 1) :=
      fun heq => hne (congrArg Prod.fst heq)
    simp [WaitList.enter, hother]
  · rw [hpc, hregistered]
    exact fun hfalse => absurd hfalse Bool.false_ne_true
  · rw [hpc]
    rintro rfl
    cases hregistered
  · rw [hpc]
    exact fun hfalse => absurd hfalse hblocked

theorem pc_move_ne {other : Nat} (pc : SleepPc Status) (hne : other ≠ thread) :
    (list.move thread pc).pc other = list.pc other := by
  simp [move, WaitList.pc, hne]

theorem pc_enter_ne {other : Nat} (pc : SleepPc Status) (hne : other ≠ thread) :
    (list.enter thread pc).pc other = list.pc other := by
  simp [enter, WaitList.pc, hne]

/-- A thread that has moved elsewhere is the only one that may have woken. -/
theorem asleep_of_move_awake {other : Nat} (hasleep : (list.move thread .awake).Asleep other) :
    other ≠ thread ∧ list.Asleep other := by
  have hne : other ≠ thread := by
    rintro rfl
    rcases hasleep with hblocked | ⟨hsuspended, -⟩
    · simp at hblocked
    · simp at hsuspended
  refine ⟨hne, ?_⟩
  rcases hasleep with hblocked | ⟨hsuspended, hsignalled⟩
  · exact Or.inl ((pc_move_ne .awake hne).symm.trans hblocked)
  · refine Or.inr ⟨(pc_move_ne .awake hne).symm.trans hsuspended, ?_⟩
    simpa [waiter, name, move, hne] using hsignalled

/-- A thread that sleeps is in a wait. -/
theorem Asleep.ne_awake (hasleep : list.Asleep thread) : list.pc thread ≠ .awake := by
  rcases hasleep with hblocked | ⟨hsuspended, -⟩
  · rw [hblocked]
    simp
  · rw [hsuspended]
    simp

section

variable [DecidableEq Status]

/-- Only a thread in a wait takes its steps, which neither move another thread nor notify
anybody. -/
theorem act_frame {now : Bool} {step : SleepStep Status}
    (hact : list.act thread now step = some later) :
    list.pc thread ≠ .awake ∧ later.couriers = list.couriers ∧
      ∀ other, other ≠ thread → later.sleepers other = list.sleepers other := by
  cases step with
  | leave =>
      simp only [WaitList.act] at hact
      split at hact
      case h_1 failure hpc =>
        cases hact
        exact ⟨by simp [hpc], rfl, fun other hne => by simp [move, hne]⟩
      case h_2 => cases hact
  | retry =>
      simp only [WaitList.act] at hact
      split at hact
      case h_3 => cases hact
      all_goals
        rename_i hpc
        cases hact
        exact ⟨by simp [hpc], rfl, fun other hne => by simp [move, hne]⟩
  | giveUp status =>
      simp only [WaitList.act, Option.ite_none_right_eq_some, Option.some.injEq] at hact
      obtain ⟨hpc, rfl⟩ := hact
      refine ⟨?_, rfl, fun other hne => by simp [move, setWaiter, hne]⟩
      rcases hpc with hpc | hpc
      · simp [hpc]
      · simp [hpc]
  | _ =>
      simp only [WaitList.act, Option.ite_none_right_eq_some, Option.some.injEq] at hact
      obtain ⟨hpc, rfl⟩ := hact
      exact ⟨by simp [hpc], rfl, fun other hne => by simp [move, setWaiter, hne]⟩

/-- Every step of a waiting thread, if what it sees of its condition is true. -/
theorem Sound.act {now : Bool} {step : SleepStep Status} (hsound : list.Sound ready)
    (hnow : now = false → ¬ready thread)
    (hact : list.act thread now step = some later) : later.Sound ready := by
  cases step with
  | look blocking =>
      simp only [WaitList.act, Option.ite_none_right_eq_some, Option.some.injEq] at hact
      obtain ⟨⟨-, hready⟩, rfl⟩ := hact
      cases blocking with
      | true => exact hsound.rest thread rfl (fun _ => hnow hready)
      | false => exact hsound.rest thread rfl (by simp)
  | register keep =>
      simp only [WaitList.act, Option.ite_none_right_eq_some, Option.some.injEq] at hact
      obtain ⟨-, rfl⟩ := hact
      exact hsound.moveWaiter thread _ (fun _ => Waiter.registered_register _ keep)
        (by simp) (by simp)
  | callback =>
      simp only [WaitList.act, Option.ite_none_right_eq_some, Option.some.injEq] at hact
      obtain ⟨hpc, rfl⟩ := hact
      have hwaiter : (list.waiter thread).registered = true :=
        hsound.registered thread (by rw [hpc]; rfl)
      refine hsound.own thread rfl ?_ (fun _ _ => rfl)
        (fun _ hmem _ => List.mem_append_left _ hmem) ?_ ?_ ?_
      · intro other hne
        simp [move, hne]
      · intro _
        simpa [WaitList.waiter, name, move] using hwaiter
      · intro hsuspended _
        constructor
        · simp [name, move]
        · cases now with
          | false => exact hnow rfl
          | true => simp [WaitList.pc, move] at hsuspended
      · intro hblocked
        cases now with
        | false => exact hnow rfl
        | true => simp [WaitList.pc, move] at hblocked
  | notifySelf =>
      simp only [WaitList.act, Option.ite_none_right_eq_some, Option.some.injEq] at hact
      obtain ⟨hpc, rfl⟩ := hact
      have hwaiter : (list.waiter thread).registered = true :=
        hsound.registered thread (by rw [hpc]; rfl)
      exact hsound.moveWaiter thread _ (fun _ => hwaiter)
        (fun _ => Waiter.signalled_notify hwaiter true) (by simp)
  | wake =>
      simp only [WaitList.act, Option.ite_none_right_eq_some, Option.some.injEq] at hact
      obtain ⟨-, rfl⟩ := hact
      exact hsound.moveWaiter thread _ (by simp [SleepPc.registered]) (by simp) (by simp)
  | giveUp status =>
      simp only [WaitList.act, Option.ite_none_right_eq_some, Option.some.injEq] at hact
      obtain ⟨-, rfl⟩ := hact
      exact hsound.moveWaiter thread _ (by simp [SleepPc.registered]) (by simp) (by simp)
  | leave =>
      simp only [WaitList.act] at hact
      split at hact
      case h_1 failure hpc =>
        cases hact
        have hrest : (failure.elim .looking .failed : SleepPc Status) = .looking ∨
            ∃ status, (failure.elim .looking .failed : SleepPc Status) = .failed status := by
          cases failure with
          | none => exact Or.inl rfl
          | some status => exact Or.inr ⟨status, rfl⟩
        refine hsound.own thread rfl ?_ (fun _ _ => rfl) ?_ ?_ ?_ ?_
        · intro other hne
          simp [move, hne]
        · intro other hmem hne
          refine List.mem_filter.mpr ⟨hmem, decide_eq_true ?_⟩
          exact fun heq => hne (congrArg Prod.fst heq)
        · rcases hrest with hrest | ⟨status, hrest⟩ <;>
            simp [WaitList.pc, move, hrest, SleepPc.registered]
        · rcases hrest with hrest | ⟨status, hrest⟩ <;> simp [WaitList.pc, move, hrest]
        · rcases hrest with hrest | ⟨status, hrest⟩ <;> simp [WaitList.pc, move, hrest]
      case h_2 => cases hact
  | retry =>
      simp only [WaitList.act] at hact
      split at hact
      case h_3 => cases hact
      all_goals
        cases hact
        exact hsound.rest thread rfl (by simp)

end

/-! ## The notifiers -/

section

variable [DecidableEq Key] {key : Key}

/-- Whatever becomes true in the critical section, those who sleep will be notified. -/
theorem Sound.swap (hsound : list.Sound ready) (after : Nat → Prop)
    (hdone : (list.couriers key).pending = []) (reuse : Bool) :
    (list.swap key reuse).Sound after := by
  have hself : (list.swap key reuse).couriers key = ⟨list.shared, list.shared, true⟩ :=
    Function.update_self _ _ _
  constructor
  · exact hsound.registered
  · intro thread hpc hsignalled
    left
    rcases hsound.suspended thread hpc hsignalled with ⟨other, hmem⟩ | ⟨hmem, -⟩
    · have hne : other ≠ key := by
        rintro rfl
        rw [hdone] at hmem
        cases hmem
      refine ⟨other, ?_⟩
      simp only [WaitList.swap, Function.update_of_ne hne]
      exact hmem
    · refine ⟨key, ?_⟩
      rw [hself]
      exact hmem
  · intro thread _
    exact Or.inl ⟨key, congrArg Courier.broadcasting hself⟩

theorem notify_cases {keep : Bool} (hnotify : list.notify key keep = some later) :
    ∃ name rest, (list.couriers key).pending = name :: rest ∧
      later.shared = list.shared ∧ later.sleepers = list.sleepers ∧
      later.waiters = Function.update list.waiters name ((list.waiters name).notify keep) ∧
      later.couriers = Function.update list.couriers key
        { list.couriers key with pending := rest } := by
  simp only [WaitList.notify] at hnotify
  split at hnotify
  case h_1 => cases hnotify
  case h_2 name rest hpending =>
    cases hnotify
    exact ⟨name, rest, hpending, rfl, rfl, rfl, rfl⟩

theorem Quiet.notify_none (hquiet : list.Quiet) (keep : Bool) :
    list.notify key keep = none := by
  rw [WaitList.notify, (hquiet key).1]

theorem Quiet.notifyAll_none [DecidableEq Status] (hquiet : list.Quiet) :
    list.notifyAll key = none := by
  rw [WaitList.notifyAll, (hquiet key).2]
  exact if_neg (fun hpending => absurd hpending.2 Bool.false_ne_true)

theorem Sound.notify {keep : Bool} (hsound : list.Sound ready)
    (hnotify : list.notify key keep = some later) : later.Sound ready := by
  obtain ⟨notified, rest, hpending, hshared, hsleepers, hwaiters, hcouriers⟩ :=
    notify_cases hnotify
  have hpc : ∀ thread, later.pc thread = list.pc thread := by
    intro thread
    rw [pc, pc, hsleepers]
  have hname : ∀ thread, later.name thread = list.name thread := by
    intro thread
    rw [name, name, hsleepers]
  have hself : ∀ thread, list.name thread = notified →
      later.waiter thread = (list.waiter thread).notify keep := by
    rintro thread rfl
    rw [waiter, hname, hwaiters, Function.update_self]
    rfl
  have hother : ∀ thread, list.name thread ≠ notified →
      later.waiter thread = list.waiter thread := by
    intro thread hne
    rw [waiter, hname, hwaiters, Function.update_of_ne hne]
    rfl
  constructor
  · intro thread hregistered
    rw [hpc] at hregistered
    by_cases heq : list.name thread = notified
    · rw [hself thread heq]
      exact hsound.registered thread hregistered
    · rw [hother thread heq]
      exact hsound.registered thread hregistered
  · intro thread hsuspended hsignalled
    rw [hpc] at hsuspended
    have hne : list.name thread ≠ notified := by
      intro heq
      have hregistered := hsound.registered thread (by rw [hsuspended]; rfl)
      rw [hself thread heq, Waiter.signalled_notify hregistered] at hsignalled
      cases hsignalled
    rw [hother thread hne] at hsignalled
    rw [hname, hshared]
    refine (hsound.suspended thread hsuspended hsignalled).imp_left ?_
    rintro ⟨other, hmem⟩
    refine ⟨other, ?_⟩
    rw [hcouriers]
    by_cases heq : other = key
    · subst heq
      rw [hpending] at hmem
      rw [Function.update_self]
      exact (List.mem_cons.mp hmem).resolve_left hne
    · rw [Function.update_of_ne heq]
      exact hmem
  · intro thread hblocked
    rw [hpc] at hblocked
    refine (hsound.blocked thread hblocked).imp_left ?_
    rintro ⟨other, hbroadcasting⟩
    refine ⟨other, ?_⟩
    rw [hcouriers]
    by_cases heq : other = key
    · subst heq
      rw [Function.update_self]
      exact hbroadcasting
    · rw [Function.update_of_ne heq]
      exact hbroadcasting

/-- `notify_all` wakes nobody who is not in a wait, and everybody it wakes looks again. -/
theorem pc_notifyAll [DecidableEq Status] (hnotify : list.notifyAll key = some later)
    (thread : Nat) :
    later.pc thread = if list.pc thread = .blocked then .looking else list.pc thread := by
  simp only [WaitList.notifyAll, Option.ite_none_right_eq_some, Option.some.injEq] at hnotify
  obtain ⟨-, rfl⟩ := hnotify
  exact apply_ite Sleeper.pc _ _ _

theorem Sound.notifyAll [DecidableEq Status] (hsound : list.Sound ready)
    (hnotify : list.notifyAll key = some later) : later.Sound ready := by
  simp only [WaitList.notifyAll, Option.ite_none_right_eq_some, Option.some.injEq] at hnotify
  obtain ⟨⟨hdone, -⟩, hlater⟩ := hnotify
  have hshared : later.shared = list.shared := by rw [← hlater]
  have hwaiters : later.waiters = list.waiters := by rw [← hlater]
  have hcouriers : later.couriers = Function.update list.couriers key
      { list.couriers key with broadcasting := false } := by rw [← hlater]
  have hsleeper : ∀ thread, later.sleepers thread =
      if list.pc thread = .blocked then ⟨.looking, (list.sleepers thread).turn⟩
      else list.sleepers thread := by
    intro thread
    rw [← hlater]
  have hpc : ∀ thread pc, later.pc thread = pc → pc ≠ .looking →
      list.pc thread = pc ∧ later.name thread = list.name thread := by
    intro thread pc hpc hne
    rw [WaitList.pc, hsleeper] at hpc
    rw [name, hsleeper]
    split at hpc
    case isTrue => exact absurd hpc.symm hne
    case isFalse hawake =>
      rw [if_neg hawake]
      exact ⟨hpc, rfl⟩
  have hwaiter : ∀ thread, later.name thread = list.name thread →
      later.waiter thread = list.waiter thread := by
    intro thread hname
    rw [waiter, hname, hwaiters]
    rfl
  constructor
  · intro thread hregistered
    have hne : later.pc thread ≠ .looking := by
      intro hlooking
      rw [hlooking] at hregistered
      cases hregistered
    obtain ⟨hsame, hname⟩ := hpc thread _ rfl hne
    rw [hwaiter thread hname]
    rw [← hsame] at hregistered
    exact hsound.registered thread hregistered
  · intro thread hsuspended hsignalled
    obtain ⟨hsame, hname⟩ := hpc thread _ hsuspended (by simp)
    rw [hwaiter thread hname] at hsignalled
    rw [hname, hshared, hcouriers]
    rcases hsound.suspended thread hsame hsignalled with ⟨other, hmem⟩ | hlisted
    · have hne : other ≠ key := by
        rintro rfl
        rw [hdone] at hmem
        cases hmem
      refine Or.inl ⟨other, ?_⟩
      rw [Function.update_of_ne hne]
      exact hmem
    · exact Or.inr hlisted
  · -- nobody is blocked any more
    intro thread hblocked
    obtain ⟨hsame, -⟩ := hpc thread _ hblocked (by simp)
    rw [WaitList.pc, hsleeper, if_pos hsame] at hblocked
    cases hblocked

end

end WaitList

end BbtFramework.Library
