import BbtFramework.Library.Decimal
import BbtFramework.Library.FieldText
import BbtFramework.Library.Machine
import BbtFramework.Ordered.SessionRegistry

/-!
# Numbering tickets

A session numbers its tickets from its first sequence on and names each after
its grant, the number of the session and the sequence.  The grant's parts are
chosen by the caller and may hold slashes, the two numbers hold none, so that
the name tells both.  Binding goes through the tickets in order, and the
watermark counts the tickets bound.
-/

namespace BbtFramework.Ordered

open BbtFramework.Library

/-- The two numbers end the name. -/
theorem makeRequestId_toList (session : OrderedSession) (sequence : UInt64) :
    ∃ grantText : List Char, (session.makeRequestId sequence).toList =
      (grantText ++ '/' :: Nat.toDigits 10 session.instanceId.toNat) ++
        '/' :: Nat.toDigits 10 sequence.toNat := by
  refine ⟨session.grant.producerId.toList ++ '/' :: (session.grant.producerEpoch.toList ++
    '/' :: session.grant.receiverEpoch.toList), ?_⟩
  simp [OrderedSession.makeRequestId, String.toList_append]

/-- Whatever the grants are, a name tells the number of its session and its sequence. -/
theorem makeRequestId_inj {left right : OrderedSession} {first second : UInt64}
    (hname : left.makeRequestId first = right.makeRequestId second) :
    left.instanceId = right.instanceId ∧ first = second := by
  obtain ⟨leftGrant, hleft⟩ := makeRequestId_toList left first
  obtain ⟨rightGrant, hright⟩ := makeRequestId_toList right second
  have htext := congrArg String.toList hname
  rw [hleft, hright] at htext
  have hslash : ∀ number, '/' ∉ Nat.toDigits 10 number := Decimal.notMem_toDigits (by decide)
  obtain ⟨hfront, hsequence⟩ := FieldText.cut_last (hslash _) (hslash _) htext
  obtain ⟨-, hinstance⟩ := FieldText.cut_last (hslash _) (hslash _) hfront
  exact ⟨UInt64.toNat_inj.mp (Decimal.toDigits_injective hinstance),
    UInt64.toNat_inj.mp (Decimal.toDigits_injective hsequence)⟩

namespace OrderedSession

section

variable [Infra]

def issued (session : OrderedSession) : OrderedSession :=
  let sequence := session.nextSequence
  let last := sequence == UInt64.ofNat (2 ^ 64 - 1)
  { session with
    exhausted := last
    nextSequence := if last then sequence else sequence + 1
    heap := session.heap ++ [{ sequence := sequence, requestId := session.makeRequestId sequence }]
    tickets := Table.emplace session.tickets (session.makeRequestId sequence)
      session.heap.length }

theorem prepare_of_open {session : OrderedSession} (hopen : session.exhausted = false) :
    session.prepare = (.ok session.heap.length, session.issued) := by
  unfold prepare
  rw [if_neg (by simp [hopen])]
  rfl

theorem prepare_of_exhausted {session : OrderedSession} (hexhausted : session.exhausted = true) :
    session.prepare = (.error (makeError .internalError
      "ordered sequence space exhausted; refusing to wrap"), session) := by
  unfold prepare
  rw [if_pos hexhausted]

/-- The session after the first send of an unsent ticket. -/
def boundAt (session : OrderedSession) (stamp : OrderedStamp) (ticket : OrderedTicket)
    (content : BoundContent) : OrderedSession :=
  { session with
    heap := session.heap.set stamp { ticket with bound := some content }
    bindWatermark := session.bindWatermark + 1 }

theorem bindForSend_cases (session : OrderedSession) (stamp : OrderedStamp)
    (content : BoundContent) :
    (∃ reason, session.bindForSend stamp content = (.error reason, session)) ∨
    (∃ ticket, session.heap[stamp]? = some ticket ∧ ticket.bound = some content ∧
      session.bindForSend stamp content = (.ok (), session)) ∨
    (∃ ticket, session.heap[stamp]? = some ticket ∧ ticket.bound = none ∧
      ticket.sequence = session.bindWatermark + 1 ∧
      session.bindForSend stamp content =
        (.ok (), session.boundAt stamp ticket content)) := by
  unfold bindForSend
  cases hticket : session.heap[stamp]? with
  | none => exact .inl ⟨_, rfl⟩
  | some ticket =>
      dsimp only
      by_cases hfound : session.tickets.lookup ticket.requestId = some stamp
      case neg => exact .inl ⟨_, if_pos hfound⟩
      rw [if_neg (not_not.mpr hfound)]
      cases hbound : ticket.bound with
      | some bound =>
          have hsent : ticket.isSent = true := by rw [OrderedTicket.isSent, hbound]; rfl
          rw [if_pos hsent]
          by_cases hsame : (ticket.bindOrCheck content).1 = true
          · refine .inr (.inl ⟨ticket, rfl, ?_, if_pos hsame⟩)
            rw [OrderedTicket.bindOrCheck, hbound] at hsame
            rw [hbound, beq_iff_eq.mp hsame]
          · exact .inl ⟨_, if_neg hsame⟩
      | none =>
          have hunsent : ¬ ticket.isSent = true := by
            rw [OrderedTicket.isSent, hbound]
            exact Bool.false_ne_true
          rw [if_neg hunsent]
          by_cases hnext : ticket.sequence = session.bindWatermark + 1
          · refine .inr (.inr ⟨ticket, rfl, hbound, hnext, ?_⟩)
            rw [if_neg (not_not.mpr hnext)]
            simp only [OrderedTicket.bindOrCheck, hbound, boundAt]
          · exact .inl ⟨_, if_pos hnext⟩

/-- Binding keeps the number of the session, its counter and its tickets' places. -/
theorem bindForSend_keeps (session : OrderedSession) (stamp : OrderedStamp)
    (content : BoundContent) :
    (session.bindForSend stamp content).2.instanceId = session.instanceId ∧
      (session.bindForSend stamp content).2.exhausted = session.exhausted ∧
      (session.bindForSend stamp content).2.heap.length = session.heap.length := by
  rcases bindForSend_cases session stamp content with
    ⟨reason, hbind⟩ | ⟨ticket, -, -, hbind⟩ | ⟨ticket, -, -, -, hbind⟩
  · rw [hbind]
    exact ⟨rfl, rfl, rfl⟩
  · rw [hbind]
    exact ⟨rfl, rfl, rfl⟩
  · rw [hbind]
    exact ⟨rfl, rfl, List.length_set⟩

end

/-! ## The invariants of one session -/

/-- The tickets are numbered from `first` on without a gap, the last sequence closes the
session, and every ticket is found under its name. -/
structure TicketsFrom (session : OrderedSession) (first : Nat) : Prop where
  numbered : ∀ stamp ticket, session.heap[stamp]? = some ticket →
    ticket.sequence.toNat = first + stamp
  counting : session.exhausted = false →
    session.nextSequence.toNat = first + session.heap.length
  closed : session.exhausted = true → first + session.heap.length = 2 ^ 64
  named : ∀ ticket ∈ session.heap,
    ticket.requestId = session.makeRequestId ticket.sequence
  found : ∀ stamp ticket, session.heap[stamp]? = some ticket →
    session.tickets.lookup ticket.requestId = some stamp
  listed : ∀ name stamp, session.tickets.lookup name = some stamp →
    ∃ ticket, session.heap[stamp]? = some ticket ∧ ticket.requestId = name

/-- The watermark counts the tickets bound, which are the first ones. -/
structure BoundBelow (session : OrderedSession) : Prop where
  issued : session.bindWatermark.toNat ≤ session.heap.length
  bound : ∀ stamp ticket, session.heap[stamp]? = some ticket →
    (ticket.isSent = true ↔ stamp < session.bindWatermark.toNat)

theorem ticketsFrom_open (grant : OrderedGrant) (instanceId first : UInt64) :
    TicketsFrom { openSession grant instanceId with nextSequence := first } first.toNat where
  numbered := by simp [openSession]
  counting := by simp [openSession]
  closed := by simp [openSession]
  named := by simp [openSession]
  found := by simp [openSession]
  listed := by simp [openSession]

theorem boundBelow_open (grant : OrderedGrant) (instanceId : UInt64) :
    BoundBelow (openSession grant instanceId) where
  issued := Nat.zero_le _
  bound := by simp [openSession]

namespace TicketsFrom

variable {session : OrderedSession} {first : Nat}

theorem stamp_unique (htickets : session.TicketsFrom first) {left right : OrderedStamp}
    {leftTicket rightTicket : OrderedTicket} (hleft : session.heap[left]? = some leftTicket)
    (hright : session.heap[right]? = some rightTicket)
    (hname : leftTicket.requestId = rightTicket.requestId) : left = right := by
  have hfound := htickets.found left leftTicket hleft
  rw [hname, htickets.found right rightTicket hright, Option.some.injEq] at hfound
  exact hfound.symm

/-- The sequence handed out next is larger than all earlier ones, so its name is new. -/
theorem name_fresh (htickets : session.TicketsFrom first) (hopen : session.exhausted = false) :
    session.makeRequestId session.nextSequence ∉ session.tickets := by
  intro hmem
  obtain ⟨stamp, hlookup⟩ := Table.exists_lookup_of_mem hmem
  obtain ⟨ticket, hticket, hname⟩ := htickets.listed _ stamp hlookup
  rw [htickets.named ticket (List.mem_of_getElem? hticket)] at hname
  have hsequence := htickets.numbered stamp ticket hticket
  rw [(makeRequestId_inj hname).2, htickets.counting hopen] at hsequence
  have hlt := (List.getElem?_eq_some_iff.mp hticket).1
  omega

/-- A ticket of the session after the next one was handed out is an old one or the new
one. -/
theorem getElem?_issued {stamp : OrderedStamp} {ticket : OrderedTicket}
    (hticket : session.issued.heap[stamp]? = some ticket) :
    session.heap[stamp]? = some ticket ∨
      (stamp = session.heap.length ∧
        ticket = { sequence := session.nextSequence
                   requestId := session.makeRequestId session.nextSequence }) := by
  rw [OrderedSession.issued, List.getElem?_append] at hticket
  split at hticket
  · exact .inl hticket
  case isFalse hge =>
    rw [List.getElem?_singleton] at hticket
    split at hticket
    case isTrue hzero =>
      cases hticket
      exact .inr ⟨Nat.le_antisymm (Nat.le_of_sub_eq_zero hzero) (Nat.le_of_not_lt hge), rfl⟩
    case isFalse => cases hticket

theorem issued (htickets : session.TicketsFrom first) (hopen : session.exhausted = false) :
    session.issued.TicketsFrom first := by
  have hnext := htickets.counting hopen
  have hlt := session.nextSequence.toNat_lt
  have hfresh := htickets.name_fresh hopen
  have htable : session.issued.tickets =
      session.tickets.insert (session.makeRequestId session.nextSequence)
        session.heap.length :=
    Table.emplace_of_notMem _ hfresh
  have hlength : session.issued.heap.length = session.heap.length + 1 := by
    simp [OrderedSession.issued]
  have htop : (UInt64.ofNat (2 ^ 64 - 1)).toNat = 2 ^ 64 - 1 := rfl
  constructor
  · intro stamp ticket hticket
    rcases getElem?_issued hticket with hold | ⟨rfl, rfl⟩
    · exact htickets.numbered stamp ticket hold
    · exact hnext
  · intro hstill
    have hne : session.nextSequence ≠ UInt64.ofNat (2 ^ 64 - 1) := by
      simpa [OrderedSession.issued] using hstill
    have hbelow : session.nextSequence.toNat ≠ 2 ^ 64 - 1 := by
      intro heq
      exact hne (UInt64.toNat_inj.mp (heq.trans htop.symm))
    have hadd : (session.nextSequence + 1).toNat =
        (session.nextSequence.toNat + 1) % 2 ^ 64 := by
      simp [UInt64.toNat_add]
    have hsame : session.issued.nextSequence = session.nextSequence + 1 := by
      simp only [OrderedSession.issued, beq_iff_eq, if_neg hne]
    rw [hsame, hlength, hadd]
    omega
  · intro hlast
    have heq : session.nextSequence = UInt64.ofNat (2 ^ 64 - 1) := by
      simpa [OrderedSession.issued] using hlast
    rw [hlength]
    rw [heq, htop] at hnext
    omega
  · intro ticket hmem
    obtain ⟨stamp, hticket⟩ := List.mem_iff_getElem?.mp hmem
    rcases getElem?_issued hticket with hold | ⟨rfl, rfl⟩
    · exact htickets.named ticket (List.mem_of_getElem? hold)
    · rfl
  · intro stamp ticket hticket
    rw [htable]
    rcases getElem?_issued hticket with hold | ⟨rfl, rfl⟩
    · rw [AList.lookup_insert_ne]
      · exact htickets.found stamp ticket hold
      · intro hname
        apply hfresh
        rw [← hname]
        exact Table.mem_of_lookup (htickets.found stamp ticket hold)
    · exact AList.lookup_insert _
  · intro name stamp hlookup
    rw [htable, Table.lookup_insert_eq] at hlookup
    split at hlookup
    case isTrue hname =>
      cases hlookup
      refine ⟨_, List.getElem?_concat_length, hname.symm⟩
    case isFalse =>
      obtain ⟨ticket, hticket, hname⟩ := htickets.listed name stamp hlookup
      refine ⟨ticket, ?_, hname⟩
      rw [OrderedSession.issued,
        List.getElem?_append_left (List.getElem?_eq_some_iff.mp hticket).1]
      exact hticket

/-- Binding a ticket changes neither its number nor its name. -/
theorem boundAt (htickets : session.TicketsFrom first) {stamp : OrderedStamp}
    {ticket : OrderedTicket} (hticket : session.heap[stamp]? = some ticket)
    (content : BoundContent) : (session.boundAt stamp ticket content).TicketsFrom first := by
  have hlt := (List.getElem?_eq_some_iff.mp hticket).1
  have hold : ∀ (other : OrderedStamp) (later : OrderedTicket),
      (session.boundAt stamp ticket content).heap[other]? = some later →
      ∃ old : OrderedTicket, session.heap[other]? = some old ∧ later.sequence = old.sequence ∧
        later.requestId = old.requestId := by
    intro other later hlater
    by_cases hsame : stamp = other
    · subst hsame
      simp only [OrderedSession.boundAt, List.getElem?_set_self hlt, Option.some.injEq] at hlater
      subst hlater
      exact ⟨ticket, hticket, rfl, rfl⟩
    · simp only [OrderedSession.boundAt, List.getElem?_set_ne hsame] at hlater
      exact ⟨later, hlater, rfl, rfl⟩
  have hlength : (session.boundAt stamp ticket content).heap.length = session.heap.length :=
    List.length_set
  constructor
  · intro other later hlater
    obtain ⟨old, hget, hsequence, -⟩ := hold other later hlater
    rw [hsequence]
    exact htickets.numbered other old hget
  · rw [hlength]
    exact htickets.counting
  · rw [hlength]
    exact htickets.closed
  · intro later hmem
    obtain ⟨other, hlater⟩ := List.mem_iff_getElem?.mp hmem
    obtain ⟨old, hget, hsequence, hname⟩ := hold other later hlater
    rw [hsequence, hname]
    exact htickets.named old (List.mem_of_getElem? hget)
  · intro other later hlater
    obtain ⟨old, hget, -, hname⟩ := hold other later hlater
    rw [hname]
    exact htickets.found other old hget
  · intro name other hlookup
    obtain ⟨old, hget, hname⟩ := htickets.listed name other hlookup
    by_cases hsame : stamp = other
    · subst hsame
      rw [hticket] at hget
      cases hget
      refine ⟨_, List.getElem?_set_self hlt, hname⟩
    · refine ⟨old, ?_, hname⟩
      simp only [OrderedSession.boundAt, List.getElem?_set_ne hsame]
      exact hget

theorem next_iff (htickets : session.TicketsFrom 1) {stamp : OrderedStamp}
    {ticket : OrderedTicket}
    (hticket : session.heap[stamp]? = some ticket) :
    ticket.sequence = session.bindWatermark + 1 ↔ stamp = session.bindWatermark.toNat := by
  have hnumber := htickets.numbered stamp ticket hticket
  have hsmall := ticket.sequence.toNat_lt
  have hmark := session.bindWatermark.toNat_lt
  have hadd : (session.bindWatermark + 1).toNat =
      (session.bindWatermark.toNat + 1) % 2 ^ 64 := by
    simp [UInt64.toNat_add]
  rw [← UInt64.toNat_inj, hadd, hnumber]
  constructor
  · intro heq
    have hstamp : session.bindWatermark.toNat + 1 < 2 ^ 64 := by
      by_contra htop
      have hzero : (session.bindWatermark.toNat + 1) % 2 ^ 64 = 0 := by omega
      rw [hzero] at heq
      omega
    rw [Nat.mod_eq_of_lt hstamp, Nat.add_comm] at heq
    exact Nat.add_right_cancel heq
  · rintro rfl
    rw [Nat.mod_eq_of_lt (by omega), Nat.add_comm]

variable [Infra]

theorem prepare (htickets : session.TicketsFrom first) : session.prepare.2.TicketsFrom first := by
  cases hclosed : session.exhausted with
  | true =>
      rw [prepare_of_exhausted hclosed]
      exact htickets
  | false =>
      rw [prepare_of_open hclosed]
      exact htickets.issued hclosed

theorem bindForSend (htickets : session.TicketsFrom first) (stamp : OrderedStamp)
    (content : BoundContent) : (session.bindForSend stamp content).2.TicketsFrom first := by
  rcases bindForSend_cases session stamp content with
    ⟨reason, hbind⟩ | ⟨ticket, -, -, hbind⟩ | ⟨ticket, hticket, -, -, hbind⟩
  · rw [hbind]
    exact htickets
  · rw [hbind]
    exact htickets
  · rw [hbind]
    exact htickets.boundAt hticket content

end TicketsFrom

namespace BoundBelow

variable {session : OrderedSession}

theorem afterIssue (hbound : session.BoundBelow) : session.issued.BoundBelow := by
  have hlength : session.issued.heap.length = session.heap.length + 1 := by
    simp [OrderedSession.issued]
  constructor
  · rw [hlength]
    exact Nat.le_succ_of_le hbound.issued
  · intro stamp ticket hticket
    rcases TicketsFrom.getElem?_issued hticket with hold | ⟨rfl, rfl⟩
    · exact hbound.bound stamp ticket hold
    · have hle := hbound.issued
      constructor
      · intro hsent
        cases hsent
      · intro hlt
        exact absurd hle (Nat.not_le_of_lt hlt)

theorem boundAt (htickets : session.TicketsFrom 1) (hbound : session.BoundBelow)
    {stamp : OrderedStamp} {ticket : OrderedTicket}
    (hticket : session.heap[stamp]? = some ticket)
    (hnext : ticket.sequence = session.bindWatermark + 1) (content : BoundContent) :
    (session.boundAt stamp ticket content).BoundBelow := by
  have hstamp := (htickets.next_iff hticket).mp hnext
  have hlt := (List.getElem?_eq_some_iff.mp hticket).1
  have hmark : (session.bindWatermark + 1).toNat = stamp + 1 := by
    rw [← hnext, htickets.numbered stamp ticket hticket, Nat.add_comm]
  constructor
  · change (session.bindWatermark + 1).toNat ≤ (session.heap.set stamp _).length
    rw [hmark, List.length_set]
    exact hlt
  · intro other later hlater
    change later.isSent = true ↔ other < (session.bindWatermark + 1).toNat
    rw [hmark]
    by_cases hsame : stamp = other
    · subst hsame
      simp only [OrderedSession.boundAt, List.getElem?_set_self hlt, Option.some.injEq] at hlater
      subst hlater
      exact ⟨fun _ => Nat.lt_succ_self _, fun _ => rfl⟩
    · simp only [OrderedSession.boundAt, List.getElem?_set_ne hsame] at hlater
      rw [hbound.bound other later hlater, ← hstamp]
      constructor
      · exact Nat.lt_succ_of_lt
      · intro hle
        exact lt_of_le_of_ne (Nat.le_of_lt_succ hle) (fun heq => hsame heq.symm)

variable [Infra]

theorem prepare (hbound : session.BoundBelow) : session.prepare.2.BoundBelow := by
  cases hclosed : session.exhausted with
  | true =>
      rw [prepare_of_exhausted hclosed]
      exact hbound
  | false =>
      rw [prepare_of_open hclosed]
      exact hbound.afterIssue

theorem bindForSend (htickets : session.TicketsFrom 1) (hbound : session.BoundBelow)
    (stamp : OrderedStamp) (content : BoundContent) :
    (session.bindForSend stamp content).2.BoundBelow := by
  rcases bindForSend_cases session stamp content with
    ⟨reason, hbind⟩ | ⟨ticket, -, -, hbind⟩ | ⟨ticket, hticket, -, hnext, hbind⟩
  · rw [hbind]
    exact hbound
  · rw [hbind]
    exact hbound
  · rw [hbind]
    exact hbound.boundAt htickets hticket hnext content

/-- The first unbound ticket binds whatever it is sent with. -/
theorem bind_least (htickets : session.TicketsFrom 1) (hbound : session.BoundBelow)
    {stamp : OrderedStamp} {ticket : OrderedTicket}
    (hticket : session.heap[stamp]? = some ticket) (hunsent : ticket.isSent = false)
    (hleast : ∀ earlier other, session.heap[earlier]? = some other → earlier < stamp →
      other.isSent = true) (content : BoundContent) :
    (session.bindForSend stamp content).1 = .ok () := by
  have hlt := (List.getElem?_eq_some_iff.mp hticket).1
  have hstamp : stamp = session.bindWatermark.toNat := by
    rcases lt_trichotomy stamp session.bindWatermark.toNat with hbelow | hsame | habove
    · rw [(hbound.bound stamp ticket hticket).mpr hbelow] at hunsent
      cases hunsent
    · exact hsame
    · have hmark := List.getElem?_eq_getElem (habove.trans hlt)
      have hsent := hleast _ _ hmark habove
      exact absurd ((hbound.bound _ _ hmark).mp hsent) (lt_irrefl _)
  have hnext := (htickets.next_iff hticket).mpr hstamp
  unfold OrderedSession.bindForSend
  rw [hticket]
  dsimp only
  rw [if_neg (not_not.mpr (htickets.found stamp ticket hticket)),
    if_neg (by rw [hunsent]; exact Bool.false_ne_true), if_neg (not_not.mpr hnext)]

end BoundBelow

end OrderedSession

/-! ## The sessions of a process -/

/-- A stamp names the session that issued it and the ticket there. -/
structure IssuedStamp where
  issuer : SessionId
  stamp : OrderedStamp
  deriving DecidableEq, Repr

/-- The sessions a process has opened so far, and what each `prepare` of a session
answered: the sequence of the ticket, or nothing for an error. -/
structure TicketWorld where
  sessions : List OrderedSession := []
  answers : SessionId → List (Option UInt64) := fun _ => []

/-- `openGrant` is an `Open` that constructs a session; one that finds a live session of its
grant or refuses leaves everything as it is. -/
inductive TicketCall where
  | openGrant (grant : OrderedGrant)
  | prepare (session : SessionId)
  | bind (session : SessionId) (stamp : Option IssuedStamp) (content : BoundContent)
  deriving DecidableEq

namespace TicketWorld

/-- `TicketOf`: the ticket a stamp refers to, of whatever session. -/
def ticketOf (world : TicketWorld) (stamp : Option IssuedStamp) : Option OrderedTicket :=
  stamp.bind fun issued =>
    (world.sessions[issued.issuer]?).bind fun session => session.heap[issued.stamp]?

/-- The session a process constructs next. -/
def openNext (world : TicketWorld) (grant : OrderedGrant) : TicketWorld :=
  { world with
    sessions := world.sessions ++
      [OrderedSession.openSession grant (UInt64.ofNat world.sessions.length + 1)] }

section

variable [Infra]

/-- What a `prepare` hands out, by the sequence of the ticket. -/
def answerOf (prepared : Except Error OrderedStamp × OrderedSession) : Option UInt64 :=
  match prepared with
  | (.ok stamp, session) => (session.heap[stamp]?).map OrderedTicket.sequence
  | (.error _, _) => none

def prepare (world : TicketWorld) (id : SessionId) (session : OrderedSession) : TicketWorld where
  sessions := world.sessions.set id session.prepare.2
  answers := Function.update world.answers id
    (world.answers id ++ [answerOf session.prepare])

def emptyStampError : Error :=
  makeError .invalidArgument "empty ordered stamp"

/-- `BindForSend` of the session with number `id`: the ticket of the stamp has to be the one
this session keeps under the ticket's name. -/
def bindForSend (world : TicketWorld) (id : SessionId) (session : OrderedSession)
    (stamp : Option IssuedStamp) (content : BoundContent) :
    Except Error Unit × TicketWorld :=
  match stamp, world.ticketOf stamp with
  | some issued, some ticket =>
      if (session.tickets.lookup ticket.requestId).map (IssuedStamp.mk id) = some issued then
        let bound := session.bindForSend issued.stamp content
        (bound.1, { world with sessions := world.sessions.set id bound.2 })
      else (.error OrderedSession.notIssuedError, world)
  | _, _ => (.error emptyStampError, world)

end

end TicketWorld

def ticketMachine [Infra] : Machine TicketWorld TicketCall where
  init world := world = {}
  next world
    | .openGrant grant => some (world.openNext grant)
    | .prepare id => (world.sessions[id]?).map (world.prepare id)
    | .bind id stamp content =>
        (world.sessions[id]?).map fun session =>
          (world.bindForSend id session stamp content).2

/-- The sessions of a process are numbered as the registry's table numbers them. -/
theorem openNext_eq_construct (table : SessionTable) (grant : OrderedGrant) :
    (table.construct grant 1).sessions =
      (TicketWorld.openNext { sessions := table.sessions } grant).sessions :=
  rfl

/-- The answer to the prepare with the given index, counted from 0. -/
def answerAt (index : Nat) : Option UInt64 :=
  if index < 2 ^ 64 - 1 then some (UInt64.ofNat (index + 1)) else none

/-- 1, 2, 3, up to `2^64 - 1`, and errors from then on. -/
def firstAnswers (count : Nat) : List (Option UInt64) :=
  (List.range count).map answerAt

theorem firstAnswers_succ (count : Nat) :
    firstAnswers (count + 1) = firstAnswers count ++ [answerAt count] := by
  simp [firstAnswers, List.range_succ]

namespace TicketWorld

/-- How far the prepares of a session got. -/
structure Answered (session : OrderedSession) (answers : List (Option UInt64)) : Prop where
  first : answers = firstAnswers answers.length
  counted : session.exhausted = false → answers.length = session.heap.length
  spent : session.exhausted = true → 2 ^ 64 - 1 ≤ answers.length

/-- The invariant of a process: its sessions have their own numbers, and each session
numbers, binds and answers as it should. -/
structure Sound (world : TicketWorld) : Prop where
  instances : ∀ (id : SessionId) (session : OrderedSession),
    world.sessions[id]? = some session → session.instanceId = UInt64.ofNat id + 1
  tickets : ∀ (id : SessionId) (session : OrderedSession),
    world.sessions[id]? = some session → session.TicketsFrom 1
  bound : ∀ (id : SessionId) (session : OrderedSession),
    world.sessions[id]? = some session → session.BoundBelow
  answered : ∀ (id : SessionId) (session : OrderedSession),
    world.sessions[id]? = some session → Answered session (world.answers id)
  unopened : ∀ id, world.sessions.length ≤ id → world.answers id = []

theorem Sound.initial : Sound {} where
  instances := by simp
  tickets := by simp
  bound := by simp
  answered := by simp
  unopened := by simp

theorem Sound.openNext {world : TicketWorld} (hsound : world.Sound) (grant : OrderedGrant) :
    (world.openNext grant).Sound := by
  have hcases : ∀ id session, (world.openNext grant).sessions[id]? = some session →
      world.sessions[id]? = some session ∨ (id = world.sessions.length ∧
        session = OrderedSession.openSession grant (UInt64.ofNat id + 1)) := by
    intro id session hsession
    rw [TicketWorld.openNext, List.getElem?_append] at hsession
    split at hsession
    · exact .inl hsession
    case isFalse hge =>
      rw [List.getElem?_singleton] at hsession
      split at hsession
      case isTrue hzero =>
        have hid : id = world.sessions.length :=
          Nat.le_antisymm (Nat.le_of_sub_eq_zero hzero) (Nat.le_of_not_lt hge)
        cases hsession
        exact .inr ⟨hid, by rw [hid]⟩
      case isFalse => cases hsession
  constructor
  · intro id session hsession
    rcases hcases id session hsession with hold | ⟨-, rfl⟩
    · exact hsound.instances id session hold
    · rfl
  · intro id session hsession
    rcases hcases id session hsession with hold | ⟨-, rfl⟩
    · exact hsound.tickets id session hold
    · exact OrderedSession.ticketsFrom_open grant _ 1
  · intro id session hsession
    rcases hcases id session hsession with hold | ⟨-, rfl⟩
    · exact hsound.bound id session hold
    · exact OrderedSession.boundBelow_open grant _
  · intro id session hsession
    rcases hcases id session hsession with hold | ⟨rfl, rfl⟩
    · exact hsound.answered id session hold
    · change Answered _ (world.answers _)
      rw [hsound.unopened _ le_rfl]
      exact ⟨rfl, fun _ => rfl, fun hlast => by cases hlast⟩
  · intro id hid
    refine hsound.unopened id (Nat.le_of_succ_le ?_)
    simpa [TicketWorld.openNext] using hid

/-- A session of the process is replaced by what it became. -/
theorem Sound.replace {world : TicketWorld} (hsound : world.Sound) {id : SessionId}
    {session later : OrderedSession} {answers : List (Option UInt64)}
    (hsession : world.sessions[id]? = some session)
    (hinstance : later.instanceId = session.instanceId) (htickets : later.TicketsFrom 1)
    (hbound : later.BoundBelow) (hanswered : Answered later answers) :
    Sound ⟨world.sessions.set id later, Function.update world.answers id answers⟩ := by
  have hlt := (List.getElem?_eq_some_iff.mp hsession).1
  have hcases : ∀ other found, (world.sessions.set id later)[other]? = some found →
      (other = id ∧ found = later) ∨
        (other ≠ id ∧ world.sessions[other]? = some found) := by
    intro other found hfound
    by_cases hsame : id = other
    · subst hsame
      rw [List.getElem?_set_self hlt, Option.some.injEq] at hfound
      exact .inl ⟨rfl, hfound.symm⟩
    · rw [List.getElem?_set_ne hsame] at hfound
      exact .inr ⟨fun heq => hsame heq.symm, hfound⟩
  constructor
  · intro other found hfound
    rcases hcases other found hfound with ⟨rfl, rfl⟩ | ⟨-, hold⟩
    · rw [hinstance]
      exact hsound.instances _ session hsession
    · exact hsound.instances other found hold
  · intro other found hfound
    rcases hcases other found hfound with ⟨rfl, rfl⟩ | ⟨-, hold⟩
    · exact htickets
    · exact hsound.tickets other found hold
  · intro other found hfound
    rcases hcases other found hfound with ⟨rfl, rfl⟩ | ⟨-, hold⟩
    · exact hbound
    · exact hsound.bound other found hold
  · intro other found hfound
    rcases hcases other found hfound with ⟨rfl, rfl⟩ | ⟨hne, hold⟩
    · change Answered _ (Function.update world.answers _ answers _)
      rw [Function.update_self]
      exact hanswered
    · change Answered _ (Function.update world.answers _ answers _)
      rw [Function.update_of_ne hne]
      exact hsound.answered other found hold
  · intro other hother
    rw [List.length_set] at hother
    have hne : other ≠ id := fun heq => absurd hother (Nat.not_le_of_lt (heq ▸ hlt))
    change Function.update world.answers _ answers _ = []
    rw [Function.update_of_ne hne]
    exact hsound.unopened other hother

/-- A stamp that refers to a ticket refers to a session and a place in it. -/
theorem ticketOf_eq_some {world : TicketWorld} {stamp : IssuedStamp} {ticket : OrderedTicket} :
    world.ticketOf (some stamp) = some ticket ↔
      ∃ session, world.sessions[stamp.issuer]? = some session ∧
        session.heap[stamp.stamp]? = some ticket := by
  rw [ticketOf, Option.bind_some, Option.bind_eq_some_iff]

theorem Sound.distinct {world : TicketWorld} (hsound : world.Sound)
    (hfew : world.sessions.length < 2 ^ 64) {left right : IssuedStamp}
    {ticket other : OrderedTicket} (hleft : world.ticketOf (some left) = some ticket)
    (hright : world.ticketOf (some right) = some other)
    (hname : ticket.requestId = other.requestId) : left = right := by
  obtain ⟨issuer, stamp⟩ := left
  obtain ⟨issuer', stamp'⟩ := right
  obtain ⟨session, hsession, hticket⟩ := ticketOf_eq_some.mp hleft
  obtain ⟨session', hsession', hother⟩ := ticketOf_eq_some.mp hright
  have hnames : session.makeRequestId ticket.sequence =
      session'.makeRequestId other.sequence := by
    rw [← (hsound.tickets _ _ hsession).named _ (List.mem_of_getElem? hticket), hname,
      (hsound.tickets _ _ hsession').named _ (List.mem_of_getElem? hother)]
  have hinstance := (makeRequestId_inj hnames).1
  rw [hsound.instances _ _ hsession, hsound.instances _ _ hsession', UInt64.add_left_inj,
    ← UInt64.toNat_inj] at hinstance
  have hlt := (List.getElem?_eq_some_iff.mp hsession).1
  have hlt' := (List.getElem?_eq_some_iff.mp hsession').1
  have hissuer : issuer = issuer' := by
    simp only [UInt64.toNat_ofNat'] at hinstance
    rwa [Nat.mod_eq_of_lt (hlt.trans hfew), Nat.mod_eq_of_lt (hlt'.trans hfew)] at hinstance
  subst hissuer
  rw [hsession] at hsession'
  cases hsession'
  exact congrArg (IssuedStamp.mk issuer)
    ((hsound.tickets _ _ hsession).stamp_unique hticket hother hname)

theorem Sound.bound_iff {world : TicketWorld} (hsound : world.Sound) {id : SessionId}
    {session : OrderedSession} (hsession : world.sessions[id]? = some session) (number : Nat) :
    (1 ≤ number ∧ number ≤ session.bindWatermark.toNat) ↔
      ∃ ticket ∈ session.heap, ticket.sequence.toNat = number ∧ ticket.isSent = true := by
  have htickets := hsound.tickets id session hsession
  have hbound := hsound.bound id session hsession
  constructor
  · rintro ⟨hpos, hle⟩
    have hissued := hbound.issued
    have hget := List.getElem?_eq_getElem (show number - 1 < session.heap.length by omega)
    refine ⟨_, List.mem_of_getElem? hget, ?_, (hbound.bound _ _ hget).mpr (by omega)⟩
    rw [htickets.numbered _ _ hget]
    omega
  · rintro ⟨ticket, hmem, rfl, hsent⟩
    obtain ⟨stamp, hget⟩ := List.mem_iff_getElem?.mp hmem
    have hlt := (hbound.bound stamp ticket hget).mp hsent
    rw [htickets.numbered stamp ticket hget]
    omega

variable [Infra]

theorem Answered.prepare {session : OrderedSession} {answers : List (Option UInt64)}
    (htickets : session.TicketsFrom 1) (hanswered : Answered session answers) :
    Answered session.prepare.2 (answers ++ [answerOf session.prepare]) := by
  cases hclosed : session.exhausted with
  | true =>
      rw [OrderedSession.prepare_of_exhausted hclosed]
      have hspent := hanswered.spent hclosed
      constructor
      · rw [List.length_append, List.length_singleton, firstAnswers_succ, ← hanswered.first,
          answerAt, if_neg (Nat.not_lt_of_le hspent)]
        rfl
      · intro hopen
        rw [hclosed] at hopen
        cases hopen
      · intro _
        rw [List.length_append]
        exact hspent.trans (Nat.le_add_right _ _)
  | false =>
      rw [OrderedSession.prepare_of_open hclosed]
      have hcount := hanswered.counted hclosed
      have hnext := htickets.counting hclosed
      have hlt := session.nextSequence.toNat_lt
      have hanswer : answerOf (.ok session.heap.length, session.issued) =
          some session.nextSequence := by
        simp [answerOf, OrderedSession.issued]
      have hsequence : session.nextSequence = UInt64.ofNat (session.heap.length + 1) := by
        rw [Nat.add_comm, ← hnext, UInt64.ofNat_toNat]
      have hafter := htickets.issued hclosed
      have hlength : session.issued.heap.length = session.heap.length + 1 := by
        simp [OrderedSession.issued]
      rw [hanswer]
      constructor
      · rw [List.length_append, List.length_singleton, firstAnswers_succ, ← hanswered.first,
          answerAt, hcount, if_pos (by omega), hsequence]
      · intro _
        rw [List.length_append, List.length_singleton, hlength, hcount]
      · intro hlast
        have htop := hafter.closed hlast
        rw [List.length_append, List.length_singleton, hcount]
        omega

theorem Sound.prepare {world : TicketWorld} (hsound : world.Sound) {id : SessionId}
    {session : OrderedSession} (hsession : world.sessions[id]? = some session) :
    (world.prepare id session).Sound := by
  have htickets := hsound.tickets id session hsession
  refine hsound.replace hsession ?_ htickets.prepare (hsound.bound id session hsession).prepare
    ((hsound.answered id session hsession).prepare htickets)
  unfold OrderedSession.prepare
  split <;> rfl

theorem bindForSend_process_cases (world : TicketWorld) (id : SessionId)
    (session : OrderedSession) (stamp : Option IssuedStamp) (content : BoundContent) :
    (∃ reason, world.bindForSend id session stamp content = (.error reason, world)) ∨
    ∃ index, stamp = some ⟨id, index⟩ ∧ world.bindForSend id session stamp content =
      ((session.bindForSend index content).1,
        { world with
          sessions := world.sessions.set id (session.bindForSend index content).2 }) := by
  unfold TicketWorld.bindForSend
  cases stamp with
  | none => exact .inl ⟨_, rfl⟩
  | some issued =>
      cases hticket : world.ticketOf (some issued) with
      | none => exact .inl ⟨_, rfl⟩
      | some ticket =>
          dsimp only
          by_cases hfound : (session.tickets.lookup ticket.requestId).map (IssuedStamp.mk id) =
              some issued
          · obtain ⟨index, -, rfl⟩ := Option.map_eq_some_iff.mp hfound
            exact .inr ⟨index, rfl, if_pos hfound⟩
          · exact .inl ⟨_, if_neg hfound⟩

theorem Sound.bindForSend {world : TicketWorld} (hsound : world.Sound) {id : SessionId}
    {session : OrderedSession} (hsession : world.sessions[id]? = some session)
    (stamp : Option IssuedStamp) (content : BoundContent) :
    (world.bindForSend id session stamp content).2.Sound := by
  rcases world.bindForSend_process_cases id session stamp content with
    ⟨reason, hbind⟩ | ⟨index, -, hbind⟩
  · rw [hbind]
    exact hsound
  · rw [hbind]
    have htickets := hsound.tickets id session hsession
    have hbound := hsound.bound id session hsession
    have hanswered := hsound.answered id session hsession
    obtain ⟨hinstance, hexhausted, hlength⟩ := session.bindForSend_keeps index content
    have hreplace := hsound.replace hsession hinstance (htickets.bindForSend index content)
      (hbound.bindForSend htickets index content)
      ⟨hanswered.first, by rw [hexhausted, hlength]; exact hanswered.counted,
        by rw [hexhausted]; exact hanswered.spent⟩
    rw [Function.update_eq_self] at hreplace
    exact hreplace

theorem sound_of_reachable {world : TicketWorld} (hreach : ticketMachine.Reachable world) :
    world.Sound := by
  refine hreach.induct (motive := TicketWorld.Sound) ?_ ?_
  · intro world hinit
    rw [show world = {} from hinit]
    exact Sound.initial
  · intro before call after _ hsound _ hnext
    cases call with
    | openGrant grant =>
        cases hnext
        exact hsound.openNext grant
    | prepare id =>
        obtain ⟨session, hsession, rfl⟩ := Option.map_eq_some_iff.mp hnext
        exact hsound.prepare hsession
    | bind id stamp content =>
        obtain ⟨session, hsession, rfl⟩ := Option.map_eq_some_iff.mp hnext
        exact hsound.bindForSend hsession stamp content

/-- Every session answers its prepares with 1, 2, 3 up to `2^64 - 1` and errors from then
on; the names of the process's tickets are distinct; the tickets bound are those up to the
watermark; a refused binding changes nothing; and the first unbound ticket can be bound. -/
structure NumbersTickets (world : TicketWorld) : Prop where
  consecutive : ∀ id : SessionId,
    world.answers id = firstAnswers (world.answers id).length
  distinct : world.sessions.length < 2 ^ 64 →
    ∀ (left right : IssuedStamp) (ticket other : OrderedTicket),
      world.ticketOf (some left) = some ticket → world.ticketOf (some right) = some other →
      ticket.requestId = other.requestId → left = right
  bound : ∀ (id : SessionId) (session : OrderedSession), world.sessions[id]? = some session →
    ∀ number, (1 ≤ number ∧ number ≤ session.bindWatermark.toNat) ↔
      ∃ ticket ∈ session.heap, ticket.sequence.toNat = number ∧ ticket.isSent = true
  refused : ∀ (id : SessionId) (session : OrderedSession), world.sessions[id]? = some session →
    ∀ stamp content reason, (world.bindForSend id session stamp content).1 = .error reason →
      (world.bindForSend id session stamp content).2 = world
  binds : ∀ (id : SessionId) (session : OrderedSession), world.sessions[id]? = some session →
    ∀ (index : OrderedStamp) (ticket : OrderedTicket), session.heap[index]? = some ticket →
      ticket.isSent = false →
      (∀ (earlier : OrderedStamp) (other : OrderedTicket),
        session.heap[earlier]? = some other → other.sequence < ticket.sequence →
          other.isSent = true) →
      ∀ content, (world.bindForSend id session (some ⟨id, index⟩) content).1 = .ok ()

theorem bindForSend_refused {world : TicketWorld} {id : SessionId} {session : OrderedSession}
    (hsession : world.sessions[id]? = some session) {stamp : Option IssuedStamp}
    {content : BoundContent} {reason : Error}
    (hrefused : (world.bindForSend id session stamp content).1 = .error reason) :
    (world.bindForSend id session stamp content).2 = world := by
  rcases world.bindForSend_process_cases id session stamp content with
    ⟨found, hbind⟩ | ⟨index, -, hbind⟩
  · rw [hbind]
  · rw [hbind] at hrefused ⊢
    rcases OrderedSession.bindForSend_cases session index content with
      ⟨found, hcase⟩ | ⟨ticket, -, -, hcase⟩ | ⟨ticket, -, -, -, hcase⟩
    · rw [hcase]
      have hsame := List.set_getElem_self (List.getElem?_eq_some_iff.mp hsession).1
      rw [(List.getElem?_eq_some_iff.mp hsession).2] at hsame
      simp only [hsame]
    · rw [hcase] at hrefused
      cases hrefused
    · rw [hcase] at hrefused
      cases hrefused

/-- Every run of a process numbers its tickets as promised. -/
theorem numbers_tickets {world : TicketWorld} (hreach : ticketMachine.Reachable world) :
    world.NumbersTickets := by
  have hsound := sound_of_reachable hreach
  constructor
  · intro id
    cases hsession : world.sessions[id]? with
    | some session => exact (hsound.answered id session hsession).first
    | none =>
        rw [hsound.unopened id (List.getElem?_eq_none_iff.mp hsession)]
        rfl
  · intro hfew left right ticket other
    exact hsound.distinct hfew
  · intro id session hsession number
    exact hsound.bound_iff hsession number
  · intro id session hsession stamp content reason
    exact bindForSend_refused hsession
  · intro id session hsession index ticket hticket hunsent hleast content
    have htickets := hsound.tickets id session hsession
    have hfound : world.ticketOf (some ⟨id, index⟩) = some ticket :=
      ticketOf_eq_some.mpr ⟨session, hsession, hticket⟩
    unfold TicketWorld.bindForSend
    rw [hfound]
    dsimp only
    rw [if_pos (by rw [htickets.found index ticket hticket]; rfl)]
    refine (hsound.bound id session hsession).bind_least htickets hticket hunsent ?_ content
    intro earlier other hother hlt
    refine hleast earlier other hother ?_
    rw [UInt64.lt_iff_toNat_lt, htickets.numbered _ _ hother, htickets.numbered _ _ hticket]
    exact Nat.add_lt_add_left hlt 1

end TicketWorld

/-- Two sessions whose grants spell one text between the slashes: the names of their
tickets differ, and the second ticket of the first session waits for the first. -/
theorem numbers_tickets_two :
    letI := permissiveInfra
    ∃ world : TicketWorld, (world.answers 0 = [some 1, some 2] ∧ world.answers 1 = [some 1] ∧
      (world.sessions.flatMap fun session => session.heap.map OrderedTicket.requestId) =
        ["a/b/c/r/1/1", "a/b/c/r/1/2", "a/b/c/r/2/1"] ∧
      world.sessions.map OrderedSession.bindWatermark = [1, 0]) ∧ world.NumbersTickets := by
  let _ := permissiveInfra
  have hboot : ticketMachine.Reachable {} := .start rfl
  obtain ⟨world, hreach, htest⟩ := hboot.exec_any (fun _ _ => true) (fun _ _ _ => trivial)
    [.openGrant ⟨"chat", "room", "a/b", "c", "r", "peer"⟩, .prepare 0,
      .openGrant ⟨"chat", "room", "a", "b/c", "r", "peer"⟩, .prepare 1, .prepare 0,
      .bind 0 (some ⟨0, 1⟩) ⟨"chat", "say", "room", "", "late"⟩,
      .bind 0 (some ⟨1, 0⟩) ⟨"chat", "say", "room", "", "foreign"⟩,
      .bind 0 (some ⟨0, 0⟩) ⟨"chat", "say", "room", "", "first"⟩]
    (fun world => decide (world.answers 0 = [some 1, some 2] ∧ world.answers 1 = [some 1] ∧
      (world.sessions.flatMap fun session => session.heap.map OrderedTicket.requestId) =
        ["a/b/c/r/1/1", "a/b/c/r/1/2", "a/b/c/r/2/1"] ∧
      world.sessions.map OrderedSession.bindWatermark = [1, 0])) (by decide)
  exact ⟨world, of_decide_eq_true htest, TicketWorld.numbers_tickets hreach⟩

end BbtFramework.Ordered
