import BbtFramework.Inbound.Dispatch

/-!
# Admissions in the order of their sequences

The ingress consumes the sequences of a stream in order and the mailbox starts its tasks
in the order it accepted them, but a call holds neither lock between its admission and
its `TryEnqueue`.
-/

namespace BbtFramework.Inbound

open BbtFramework.Library
open BbtFramework.Ordered
open OrderedIngress

def sequenceOn (key : StreamKey) : Option Admission → Option UInt64
  | none => none
  | some ticket => if ticket.streamKey = key then some ticket.sequence else none

/-- A call between its admission for execution and its `TryEnqueue`. -/
def DispatchPc.pendingCall : DispatchPc → Option DispatchCall
  | .activate call => some call
  | .findMailbox call => some call
  | .createWaiter call => some call
  | .enqueue call => some call
  | _ => none

def DispatchPc.pendingTicket (pc : DispatchPc) : Option Admission :=
  pc.pendingCall.bind DispatchCall.ticket

namespace DispatchWorld

def startedOn (world : DispatchWorld) (key : StreamKey) : List UInt64 :=
  world.started.filterMap (fun task => sequenceOn key task.ticket)

def queueOf (world : DispatchWorld) (actorKey : String) : List ActorTask :=
  match world.mailboxes actorKey with
  | none => []
  | some mailbox => mailbox.queue

def queuedOn (world : DispatchWorld) (key : StreamKey) : List UInt64 :=
  (world.queueOf key.actorKey).filterMap (fun task => sequenceOn key task.ticket)

/-- Everything the mailbox has accepted of a stream. -/
def lineOn (world : DispatchWorld) (key : StreamKey) : List UInt64 :=
  world.startedOn key ++ world.queuedOn key

/-- The sequence a call holds on a stream before its `TryEnqueue`. -/
def pendingOn (world : DispatchWorld) (key : StreamKey) (dispatch : Nat) :
    Option UInt64 :=
  sequenceOn key (world.dispatches dispatch).pendingTicket

end DispatchWorld

/-- The tasks of each stream are started in strictly increasing order. -/
def StartsInOrder (world : DispatchWorld) : Prop :=
  ∀ key, (world.startedOn key).Pairwise (· < ·)

/-- Enqueuing `ticket` would overtake the call that holds `other`. -/
def overtakes : Option Admission → Option Admission → Bool
  | some ticket, some other =>
      other.streamKey = ticket.streamKey && other.sequence < ticket.sequence
  | _, _ => false

/-- No call enqueues while another call of the same stream with a lower
sequence still stands before its own `TryEnqueue`. -/
def EnqueuesInTurn (world : DispatchWorld) : DispatchStep → Prop
  | .enqueue dispatch _ => ∀ other < world.count,
      overtakes (world.dispatches dispatch).pendingTicket
        (world.dispatches other).pendingTicket = false
  | _ => True

instance (world : DispatchWorld) :
    (step : DispatchStep) → Decidable (EnqueuesInTurn world step)
  | .enqueue _ _ => inferInstanceAs (Decidable (∀ other < _, _))
  | .call _ _ => inferInstanceAs (Decidable True)
  | .check _ => inferInstanceAs (Decidable True)
  | .read _ _ => inferInstanceAs (Decidable True)
  | .invoke _ _ => inferInstanceAs (Decidable True)
  | .admitting _ => inferInstanceAs (Decidable True)
  | .activate _ _ => inferInstanceAs (Decidable True)
  | .findMailbox _ => inferInstanceAs (Decidable True)
  | .createWaiter _ _ => inferInstanceAs (Decidable True)
  | .failWait _ _ => inferInstanceAs (Decidable True)
  | .resume _ _ => inferInstanceAs (Decidable True)
  | .complete _ => inferInstanceAs (Decidable True)
  | .leave _ => inferInstanceAs (Decidable True)
  | .drain _ => inferInstanceAs (Decidable True)
  | .endTask _ _ => inferInstanceAs (Decidable True)

/-- What the mailbox accepted of a stream is increasing, stays below every
sequence still on its way and below the counter of the ingress. -/
structure InLine (world : DispatchWorld) : Prop where
  consistent : Consistent world.ingress
  fresh : ∀ dispatch, world.count ≤ dispatch →
    world.dispatches dispatch = .idle
  placed : ∀ actorKey, ∀ task ∈ world.queueOf actorKey, ∀ ticket,
    task.ticket = some ticket → ticket.actorKey = actorKey
  keyed : ∀ dispatch call ticket,
    (world.dispatches dispatch).pendingCall = some call →
    call.ticket = some ticket → ticket.actorKey = call.key
  below : ∀ key number,
    (number ∈ world.lineOn key ∨
      ∃ dispatch, world.pendingOn key dispatch = some number) →
    ∀ next, world.ingress.nextAt key = some next → next ≠ 0 → number < next
  distinct : ∀ key first second number,
    world.pendingOn key first = some number →
    world.pendingOn key second = some number → first = second
  ahead : ∀ key dispatch number accepted,
    world.pendingOn key dispatch = some number →
    accepted ∈ world.lineOn key → accepted < number
  sorted : ∀ key, (world.lineOn key).Pairwise (· < ·)

theorem sequenceOn_eq_some {key : StreamKey} {ticket : Option Admission}
    {number : UInt64} :
    sequenceOn key ticket = some number ↔
      ∃ admission, ticket = some admission ∧ admission.streamKey = key ∧
        admission.sequence = number := by
  cases ticket with
  | none => simp [sequenceOn]
  | some admission => simp [sequenceOn]

theorem InLine.lt_count {world : DispatchWorld} (hline : InLine world)
    {dispatch : Nat} (hbusy : world.dispatches dispatch ≠ .idle) :
    dispatch < world.count := by
  by_contra hge
  exact hbusy (hline.fresh dispatch (by omega))

theorem lineOn_congr {before after : DispatchWorld}
    (hstarted : after.started = before.started)
    (hqueues : ∀ actorKey, after.queueOf actorKey = before.queueOf actorKey)
    (key : StreamKey) : after.lineOn key = before.lineOn key := by
  simp only [DispatchWorld.lineOn, DispatchWorld.startedOn,
    DispatchWorld.queuedOn, hstarted, hqueues]

/-- A call that moves on without a new ticket, while the mailboxes and the
counters of the ingress stay as they are. -/
theorem InLine.quiet {before after : DispatchWorld} {dispatch : Nat}
    {pc : DispatchPc} (hline : InLine before)
    (hconsistent : Consistent after.ingress)
    (hnext : ∀ key, after.ingress.nextAt key = before.ingress.nextAt key)
    (hcount : before.count ≤ after.count) (hlive : dispatch < after.count)
    (hdispatches : after.dispatches =
      Function.update before.dispatches dispatch pc)
    (hpending : ∀ call ticket, pc.pendingCall = some call →
      call.ticket = some ticket →
      ∃ old, (before.dispatches dispatch).pendingCall = some old ∧
        old.key = call.key ∧ old.ticket = some ticket)
    (hstarted : after.started = before.started)
    (hqueues : ∀ actorKey, after.queueOf actorKey = before.queueOf actorKey) :
    InLine after := by
  have hlineOn := lineOn_congr hstarted hqueues
  have hpendingOn : ∀ key other number, after.pendingOn key other = some number →
      before.pendingOn key other = some number := by
    intro key other number hnumber
    unfold DispatchWorld.pendingOn at hnumber ⊢
    rw [hdispatches, Function.update_apply] at hnumber
    split at hnumber
    case isFalse => exact hnumber
    case isTrue heq =>
      subst heq
      obtain ⟨ticket, hticket, hrest⟩ := sequenceOn_eq_some.mp hnumber
      obtain ⟨call, hcall, hheld⟩ := Option.bind_eq_some_iff.mp hticket
      obtain ⟨old, hold, -, holdTicket⟩ := hpending call ticket hcall hheld
      refine sequenceOn_eq_some.mpr ⟨ticket, ?_, hrest⟩
      exact Option.bind_eq_some_iff.mpr ⟨old, hold, holdTicket⟩
  constructor
  · exact hconsistent
  · intro other hother
    rw [hdispatches, Function.update_of_ne (by omega)]
    exact hline.fresh other (by omega)
  · intro actorKey task htask
    rw [hqueues] at htask
    exact hline.placed actorKey task htask
  · intro other call ticket hcall hticket
    rw [hdispatches, Function.update_apply] at hcall
    split at hcall
    case isFalse => exact hline.keyed other call ticket hcall hticket
    case isTrue heq =>
      obtain ⟨old, hold, hkey, holdTicket⟩ := hpending call ticket hcall hticket
      rw [← hkey]
      exact hline.keyed dispatch old ticket hold holdTicket
  · intro key number hnumber
    rw [hlineOn] at hnumber
    rw [hnext]
    apply hline.below
    exact hnumber.imp id fun ⟨other, hother⟩ => ⟨other, hpendingOn _ _ _ hother⟩
  · intro key first second number hfirst hsecond
    exact hline.distinct key first second number (hpendingOn _ _ _ hfirst)
      (hpendingOn _ _ _ hsecond)
  · intro key other number accepted hnumber haccepted
    rw [hlineOn] at haccepted
    exact hline.ahead key other number accepted (hpendingOn _ _ _ hnumber)
      haccepted
  · intro key
    rw [hlineOn]
    exact hline.sorted key

theorem lt_succ_self {sequence : UInt64} (hwrap : sequence + 1 ≠ 0) :
    sequence < sequence + 1 := by
  have hbound := sequence.toNat_lt
  have hne : (sequence + 1).toNat ≠ 0 := by
    simpa [← UInt64.toNat_inj] using hwrap
  rw [UInt64.toNat_add] at hne
  rw [UInt64.lt_iff_toNat_lt, UInt64.toNat_add]
  simp only [UInt64.toNat_one] at hne ⊢
  omega

/-- An admission for execution puts the call at the end of its stream. -/
theorem InLine.execute {before after : DispatchWorld} {dispatch : Nat}
    {call : DispatchCall} (hline : InLine before)
    (hat : before.dispatches dispatch = .admitting call)
    (hconsumes : Consumes call.ordered before.ingress after.ingress)
    (hconsistent : Consistent after.ingress)
    (hcount : after.count = before.count)
    (hdispatches : after.dispatches = Function.update before.dispatches dispatch
      (.activate { call with ticket := some (executeAdmission call.ordered) }))
    (hstarted : after.started = before.started)
    (hqueues : ∀ actorKey, after.queueOf actorKey = before.queueOf actorKey) :
    InLine after := by
  have hlineOn := lineOn_congr hstarted hqueues
  have hlive : dispatch < before.count := hline.lt_count (by simp [hat])
  -- The old numbers of the stream stay below the sequence just consumed.
  have hbelow : ∀ number, (number ∈ before.lineOn call.ordered.streamKey ∨
      ∃ other, before.pendingOn call.ordered.streamKey other = some number) →
      number < call.ordered.sequence := by
    intro number hnumber
    exact hline.below _ number hnumber _ hconsumes.expected hconsumes.valid
  have hpendingOn : ∀ key other number,
      after.pendingOn key other = some number →
      (other = dispatch ∧ key = call.ordered.streamKey ∧
        number = call.ordered.sequence) ∨
      (other ≠ dispatch ∧ before.pendingOn key other = some number) := by
    intro key other number hnumber
    unfold DispatchWorld.pendingOn at hnumber ⊢
    rw [hdispatches, Function.update_apply] at hnumber
    split at hnumber
    case isFalse hne => exact .inr ⟨hne, hnumber⟩
    case isTrue heq =>
      obtain ⟨ticket, hticket, hkey, hsequence⟩ :=
        sequenceOn_eq_some.mp hnumber
      obtain rfl : executeAdmission call.ordered = ticket :=
        Option.some.inj hticket
      exact .inl ⟨heq, hkey.symm, hsequence.symm⟩
  constructor
  · exact hconsistent
  · intro other hother
    rw [hdispatches, Function.update_of_ne (by omega)]
    exact hline.fresh other (by omega)
  · intro actorKey task htask
    rw [hqueues] at htask
    exact hline.placed actorKey task htask
  · intro other held ticket hheld hticket
    rw [hdispatches, Function.update_apply] at hheld
    split at hheld
    case isFalse => exact hline.keyed other held ticket hheld hticket
    case isTrue =>
      obtain rfl := Option.some.inj hheld
      obtain rfl : executeAdmission call.ordered = ticket :=
        Option.some.inj hticket
      rfl
  · intro key number hnumber next hnext hvalid
    rw [hlineOn] at hnumber
    rw [hconsumes.next] at hnext
    have hcases : (number ∈ before.lineOn key ∨
        ∃ other, before.pendingOn key other = some number) ∨
        (key = call.ordered.streamKey ∧ number = call.ordered.sequence) := by
      rcases hnumber with hin | ⟨other, hother⟩
      · exact .inl (.inl hin)
      · rcases hpendingOn key other number hother with ⟨-, hnew⟩ | ⟨-, hold⟩
        · exact .inr hnew
        · exact .inl (.inr ⟨other, hold⟩)
    split at hnext
    case isFalse hkey =>
      rcases hcases with hold | ⟨hnew, -⟩
      · exact hline.below key number hold next hnext hvalid
      · exact absurd hnew hkey
    case isTrue hkey =>
      obtain rfl := Option.some.inj hnext
      subst hkey
      rcases hcases with hold | ⟨-, rfl⟩
      · exact UInt64.lt_trans (hbelow number hold) (lt_succ_self hvalid)
      · exact lt_succ_self hvalid
  · intro key first second number hfirst hsecond
    rcases hpendingOn key first number hfirst with ⟨rfl, rfl, rfl⟩ | ⟨hne, hold⟩ <;>
      rcases hpendingOn _ second _ hsecond with ⟨rfl, hkey, hnumber⟩ | ⟨-, hother⟩
    · rfl
    · exact absurd (hbelow _ (.inr ⟨second, hother⟩)) (UInt64.lt_irrefl _)
    · subst hkey
      subst hnumber
      exact absurd (hbelow _ (.inr ⟨first, hold⟩)) (UInt64.lt_irrefl _)
    · exact hline.distinct key first second number hold hother
  · intro key other number accepted hnumber haccepted
    rw [hlineOn] at haccepted
    rcases hpendingOn key other number hnumber with ⟨-, rfl, rfl⟩ | ⟨-, hold⟩
    · exact hbelow accepted (.inl haccepted)
    · exact hline.ahead key other number accepted hold haccepted
  · intro key
    rw [hlineOn]
    exact hline.sorted key

theorem sequenceOn_actorKey {key : StreamKey} {ticket : Option Admission}
    {actorKey : String} {number : UInt64}
    (hsequence : sequenceOn key ticket = some number)
    (hplaced : ∀ admission, ticket = some admission →
      admission.actorKey = actorKey) : key.actorKey = actorKey := by
  obtain ⟨admission, hticket, hkey, -⟩ := sequenceOn_eq_some.mp hsequence
  rw [← hplaced admission hticket, ← hkey]
  rfl

/-- A task joins the end of its stream and its call leaves the way to the
mailbox. -/
theorem InLine.accept {before after : DispatchWorld} {dispatch : Nat}
    {call : DispatchCall} {registration : Registration} {pc : DispatchPc}
    (hline : InLine before) (hat : before.dispatches dispatch = .enqueue call)
    (hguard : EnqueuesInTurn before (.enqueue dispatch registration))
    (hingress : after.ingress = before.ingress)
    (hcount : after.count = before.count)
    (hdispatches : after.dispatches =
      Function.update before.dispatches dispatch pc)
    (hpending : pc.pendingCall = none)
    (hstarted : after.started = before.started)
    (hqueues : ∀ actorKey, after.queueOf actorKey =
      if actorKey = call.key then
        before.queueOf actorKey ++ [⟨dispatch, call.ticket⟩]
      else before.queueOf actorKey) : InLine after := by
  have hlive : dispatch < before.count := hline.lt_count (by simp [hat])
  have hpendingHere : ∀ key,
      before.pendingOn key dispatch = sequenceOn key call.ticket := by
    intro key
    unfold DispatchWorld.pendingOn
    rw [hat]
    rfl
  have hkeyed : ∀ ticket, call.ticket = some ticket →
      ticket.actorKey = call.key := by
    intro ticket hticket
    apply hline.keyed dispatch call ticket _ hticket
    rw [hat]
    rfl
  have hpendingOn : ∀ key other number,
      after.pendingOn key other = some number →
      other ≠ dispatch ∧ before.pendingOn key other = some number := by
    intro key other number hnumber
    unfold DispatchWorld.pendingOn at hnumber ⊢
    rw [hdispatches, Function.update_apply] at hnumber
    split at hnumber
    case isFalse hne => exact ⟨hne, hnumber⟩
    case isTrue =>
      rw [DispatchPc.pendingTicket, hpending] at hnumber
      cases hnumber
  have hlineOn : ∀ key, after.lineOn key =
      before.lineOn key ++ (sequenceOn key call.ticket).toList := by
    intro key
    simp only [DispatchWorld.lineOn, DispatchWorld.startedOn,
      DispatchWorld.queuedOn, hstarted, hqueues]
    split
    case isTrue =>
      cases hticket : sequenceOn key call.ticket <;>
        simp [List.filterMap_append, hticket]
    case isFalse hother =>
      cases hticket : sequenceOn key call.ticket with
      | none => simp
      | some number => exact absurd (sequenceOn_actorKey hticket hkeyed) hother
  have hmem : ∀ key number, number ∈ after.lineOn key →
      number ∈ before.lineOn key ∨
        before.pendingOn key dispatch = some number := by
    intro key number hnumber
    rw [hlineOn, List.mem_append, Option.mem_toList] at hnumber
    rw [hpendingHere]
    exact hnumber
  constructor
  · rw [hingress]
    exact hline.consistent
  · intro other hother
    rw [hdispatches, Function.update_of_ne (by omega)]
    exact hline.fresh other (by omega)
  · intro actorKey task htask
    rw [hqueues] at htask
    split at htask
    case isFalse => exact hline.placed actorKey task htask
    case isTrue heq =>
      rcases List.mem_append.mp htask with hold | hnew
      · exact hline.placed actorKey task hold
      · obtain rfl := List.mem_singleton.mp hnew
        rw [heq]
        exact hkeyed
  · intro other held ticket hheld hticket
    rw [hdispatches, Function.update_apply] at hheld
    split at hheld
    case isFalse => exact hline.keyed other held ticket hheld hticket
    case isTrue =>
      rw [hpending] at hheld
      cases hheld
  · intro key number hnumber
    rw [hingress]
    apply hline.below
    rcases hnumber with hin | ⟨other, hother⟩
    · exact (hmem key number hin).imp id fun hhere => ⟨dispatch, hhere⟩
    · exact .inr ⟨other, (hpendingOn key other number hother).2⟩
  · intro key first second number hfirst hsecond
    exact hline.distinct key first second number (hpendingOn _ _ _ hfirst).2
      (hpendingOn _ _ _ hsecond).2
  · intro key other number accepted hnumber haccepted
    obtain ⟨hne, hold⟩ := hpendingOn key other number hnumber
    rcases hmem key accepted haccepted with hin | hhere
    · exact hline.ahead key other number accepted hold hin
    · -- The enqueued sequence is not above the other one and differs from it.
      have hturn := hguard other (hline.lt_count (by
        intro hidle
        simp [DispatchWorld.pendingOn, hidle, DispatchPc.pendingTicket,
          DispatchPc.pendingCall, sequenceOn] at hold))
      obtain ⟨lower, hlower, hlowerKey, rfl⟩ := sequenceOn_eq_some.mp hold
      obtain ⟨ticket, hticket, hticketKey, rfl⟩ := sequenceOn_eq_some.mp hhere
      rw [hlower, hticket] at hturn
      simp only [overtakes, hlowerKey, hticketKey, decide_true, Bool.true_and,
        decide_eq_false_iff_not, UInt64.not_lt] at hturn
      refine UInt64.lt_of_le_of_ne hturn fun heq => hne ?_
      rw [← heq] at hold
      exact hline.distinct key other dispatch ticket.sequence hold hhere
  · intro key
    rw [hlineOn, List.pairwise_append]
    refine ⟨hline.sorted key, ?_, ?_⟩
    · cases sequenceOn key call.ticket <;> simp
    · intro accepted haccepted number hnumber
      rw [Option.mem_toList, ← hpendingHere] at hnumber
      exact hline.ahead key dispatch number accepted hnumber haccepted

/-- The drain coroutine moves the first waiting task to the started ones. -/
theorem InLine.drain {before after : DispatchWorld} (hline : InLine before)
    (actorKey : String) (taken : Option ActorTask)
    (hingress : after.ingress = before.ingress)
    (hcount : after.count = before.count)
    (hdispatches : after.dispatches = before.dispatches)
    (hstarted : after.started = before.started ++ taken.toList)
    (htaken : before.queueOf actorKey = taken.toList ++ after.queueOf actorKey)
    (hqueues : ∀ other, other ≠ actorKey →
      after.queueOf other = before.queueOf other) : InLine after := by
  have hsubset : ∀ other task, task ∈ after.queueOf other →
      task ∈ before.queueOf other := by
    intro other task htask
    by_cases hother : other = actorKey
    · subst hother
      rw [htaken]
      exact List.mem_append_right _ htask
    · rw [← hqueues other hother]
      exact htask
  have hlineOn : ∀ key, after.lineOn key = before.lineOn key := by
    intro key
    simp only [DispatchWorld.lineOn, DispatchWorld.startedOn,
      DispatchWorld.queuedOn, hstarted, List.filterMap_append,
      List.append_assoc]
    by_cases hkey : key.actorKey = actorKey
    · rw [hkey, htaken, List.filterMap_append]
    · rw [hqueues _ hkey]
      have hforeign : taken.toList.filterMap
          (fun task => sequenceOn key task.ticket) = [] := by
        apply List.filterMap_eq_nil_iff.mpr
        intro task htask
        cases hsequence : sequenceOn key task.ticket with
        | none => rfl
        | some number =>
            refine absurd (sequenceOn_actorKey hsequence ?_) hkey
            apply hline.placed actorKey task
            rw [htaken]
            exact List.mem_append_left _ htask
      rw [hforeign, List.nil_append]
  have hpendingOn : ∀ key other,
      after.pendingOn key other = before.pendingOn key other := by
    intro key other
    simp only [DispatchWorld.pendingOn, hdispatches]
  constructor
  · rw [hingress]
    exact hline.consistent
  · rw [hcount, hdispatches]
    exact hline.fresh
  · intro other task htask
    exact hline.placed other task (hsubset other task htask)
  · rw [hdispatches]
    exact hline.keyed
  · intro key
    simp only [hlineOn, hpendingOn, hingress]
    exact hline.below key
  · intro key
    simp only [hpendingOn]
    exact hline.distinct key
  · intro key
    simp only [hlineOn, hpendingOn]
    exact hline.ahead key
  · intro key
    rw [hlineOn]
    exact hline.sorted key

end BbtFramework.Inbound
