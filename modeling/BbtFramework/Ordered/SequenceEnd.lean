import BbtFramework.Ordered.IngressAtomicity
import BbtFramework.Ordered.IngressReplay

/-!
# The end of the sequence space

A session issues the sequences 1 to `2^64 - 1` and then closes.  The receiver
keeps the sequence it expects next in the same 64 bits and has no record of an
exhausted stream: once it has executed the last sequence its counter is 0, and
every request of the session, executed or not, runs into a gap.  Until then, and
while the erased fronts last, the counter is past every executed sequence, and a
duplicate is answered as one.
-/

namespace BbtFramework.Ordered

open BbtFramework.Library
open OrderedIngress

/-- `UINT64_MAX`, the last sequence a session issues. -/
def lastSequence : UInt64 := UInt64.ofNat (2 ^ 64 - 1)

section

variable [Infra]

def AnsweredAsExecuted (ingress : OrderedIngress) (request : OrderedIngressRequest) : Prop :=
  (∃ message, (ingress.admitRequest request).1 =
    .error (orderedDomainError OrderedDomainCode.inProgress message)) ∨
  (∃ ticket, (ingress.admitRequest request).1 = .ok ticket ∧ ticket.kind = .replay) ∨
  (∃ message, (ingress.admitRequest request).1 =
    .error (orderedDomainError OrderedDomainCode.resultExpired message))

def ExecutedStayAnswered (world : IngressWorld) : Prop :=
  ∀ key, ∀ issue ∈ world.executions key,
    (∃ next, world.ingress.nextAt key = some next ∧
      issue.request.sequence.toNat < next.toNat) ∧
    AnsweredAsExecuted world.ingress issue.request

end

/-- What the checks before the sequence ask of a request. -/
def Admissible (ingress : OrderedIngress) (request : OrderedIngressRequest) : Prop :=
  request.hasOrderedStamp = true ∧
    ¬(request.producerId = "" ∨ request.producerEpoch = "" ∨ request.receiverEpoch = "") ∧
    ingress.authorized request = true

instance (ingress : OrderedIngress) (request : OrderedIngressRequest) :
    Decidable (Admissible ingress request) :=
  inferInstanceAs (Decidable (_ ∧ _))

def SparesLast (world : IngressWorld) : IngressCall → Prop
  | .admitRequest request =>
      ¬(Admissible world.ingress request ∧ request.sequence = lastSequence ∧
        world.ingress.nextAt request.streamKey = some lastSequence)
  | _ => True

instance (world : IngressWorld) : (call : IngressCall) → Decidable (SparesLast world call)
  | .grant _ => inferInstanceAs (Decidable True)
  | .admitRequest _ => inferInstanceAs (Decidable (¬_))
  | .complete _ _ => inferInstanceAs (Decidable True)

theorem succ_ne_zero {sequence : UInt64} (hlast : sequence ≠ lastSequence) :
    sequence + 1 ≠ 0 := by
  intro hzero
  have hsucc : (sequence + 1).toNat = (sequence.toNat + 1) % 2 ^ 64 := by
    simp [UInt64.toNat_add]
  rw [hzero] at hsucc
  have hlt := sequence.toNat_lt
  refine hlast (UInt64.toNat_inj.mp ?_)
  have htop : lastSequence.toNat = 2 ^ 64 - 1 := rfl
  have hnil : (0 : UInt64).toNat = 0 := rfl
  omega

/-- The executions of a session are the sequences below the counter. -/
theorem Ledger.mem_span {world : IngressWorld} (hledger : Ledger world) {key : StreamKey}
    {next : UInt64} (hnext : world.ingress.nextAt key = some next) {issue : Issued}
    (hissue : issue ∈ world.executions key) :
    1 ≤ issue.request.sequence.toNat ∧ issue.request.sequence.toNat < span next := by
  have hmem := List.mem_map_of_mem
    (f := fun issue : Issued => issue.ticket.sequence.toNat) hissue
  rw [hledger.counted key next hnext, List.mem_range'_1] at hmem
  have hissued := (IngressWorld.mem_executions.mp hissue).1
  have hsequence : issue.ticket.sequence = issue.request.sequence := by
    rw [(hledger.wellFormed issue hissued).1]
    rfl
  rw [hsequence] at hmem
  have hpos := span_pos next
  omega

/-- The checks before the sequence read the grants alone. -/
theorem Admissible.of_grants {before after : OrderedIngress} {request : OrderedIngressRequest}
    (hadmissible : Admissible before request) (hgrants : after.grants = before.grants) :
    Admissible after request := by
  obtain ⟨hstamp, hfields, hauthorized⟩ := hadmissible
  refine ⟨hstamp, hfields, ?_⟩
  unfold authorized at hauthorized ⊢
  rw [hgrants]
  exact hauthorized

theorem Admissible.installed {before after : OrderedIngress} {grant : OrderedGrant}
    {request : OrderedIngressRequest} (hadmissible : Admissible before request)
    (hconsistent : Consistent after) (hinstalls : Installs grant before after)
    (hkey : request.streamKey ≠ grant.streamKey) : Admissible after request := by
  obtain ⟨hstamp, hfields, hauthorized⟩ := hadmissible
  obtain ⟨old, hold, hstream, hrest⟩ := exists_authorizes hauthorized
  have hkept : supersededBy grant old = false := by
    rw [Bool.eq_false_iff]
    intro hsuper
    exact hkey (hstream.symm.trans (supersededBy_iff.mp hsuper).1)
  have hafter : old ∈ after.grants := by
    rw [hinstalls.grants]
    exact List.mem_append_left _ (List.mem_filter.mpr ⟨hold, by rw [hkept]; rfl⟩)
  exact ⟨hstamp, hfields, hconsistent.authorized ⟨hafter, hstream, hrest⟩⟩

section

variable [Infra]

/-- Whatever is not refused outright passed the checks before the sequence. -/
theorem admissible_of_ok {ingress : OrderedIngress} {request : OrderedIngressRequest}
    {ticket : Admission} (hadmitted : (ingress.admitRequest request).1 = .ok ticket) :
    Admissible ingress request := by
  unfold admitRequest at hadmitted
  split at hadmitted
  · cases hadmitted
  case isFalse hstamp =>
    split at hadmitted
    · cases hadmitted
    case isFalse hfields =>
      split at hadmitted
      · cases hadmitted
      case isFalse hauthorized =>
        exact ⟨by simpa using hstamp, hfields, by simpa using hauthorized⟩

theorem admissible_of_consumes {ingress : OrderedIngress} (hconsistent : Consistent ingress)
    {request : OrderedIngressRequest}
    (hconsumes : Consumes request ingress (ingress.admitRequest request).2) :
    Admissible ingress request := by
  cases hadmitted : (ingress.admitRequest request).1 with
  | ok ticket => exact admissible_of_ok hadmitted
  | error reason =>
      have hnext := hconsumes.next request.streamKey
      rw [admitRequest_refused hconsistent hadmitted, hconsumes.expected, if_pos rfl,
        Option.some.injEq] at hnext
      simp at hnext

def StayAdmissible (world : IngressWorld) : Prop :=
  ∀ key, ∀ issue ∈ world.executions key, Admissible world.ingress issue.request

theorem reachable_stayAdmissible {guard : IngressWorld → IngressCall → Prop}
    {world : IngressWorld} (hreach : ingressMachine.ReachableWhere guard world) :
    StayAdmissible world := by
  refine hreach.induct (motive := StayAdmissible) ?_ ?_
  · intro world hinit key issue hissue
    obtain ⟨config, rfl⟩ := init_eq hinit
    simp [IngressWorld.executions] at hissue
  · intro before call after hbefore hstay _ hnext key issue hissue
    have hworld : before.next call = after := Option.some.inj hnext
    have hconsistent := reachable_consistent hbefore
    have hledger := reachable_ledger hbefore
    obtain ⟨heffect, hafter⟩ := next_effect hconsistent call
    rw [hworld] at heffect hafter
    cases heffect with
    | unchanged => exact hstay key issue hissue
    | @installed grant _ hnew hinstalls hlist _ hissued =>
        rw [hledger.executions_installed hissued hlist] at hissue
        split at hissue
        · cases hissue
        case isFalse hkey =>
          refine (hstay key issue hissue).installed hafter hinstalls ?_
          obtain ⟨hmem, hstream, -⟩ := IngressWorld.mem_executions.mp hissue
          rw [(hledger.wellFormed issue hmem).1] at hstream
          exact fun hsame => hkey (hstream.symm.trans hsame)
    | @executed request grant _ hgrant hconsumes hissued hlist =>
        have hsame : after.ingress = (before.ingress.admitRequest request).2 := by
          rw [← hworld, next_admit_ingress]
        rw [IngressWorld.executions_executed hissued hlist] at hissue
        have hcases : issue ∈ before.executions key ∨ issue.request = request := by
          split at hissue
          · rcases List.mem_append.mp hissue with hold | hnew
            · exact .inl hold
            · rw [List.mem_singleton.mp hnew]
              exact .inr rfl
          · exact .inl hissue
        rcases hcases with hold | rfl
        · exact (hstay key issue hold).of_grants hconsumes.grants
        · have hadmissible := admissible_of_consumes hconsistent (hsame ▸ hconsumes)
          exact hadmissible.of_grants hconsumes.grants
    | refused => exact hstay key issue hissue
    | ended hends hissued hlist =>
        rw [IngressWorld.executions_congr hissued hlist] at hissue
        exact (hstay key issue hissue).of_grants hends.grants

/-! ## What a run that spares the last sequence does -/

/-- No counter has wrapped. -/
def NoneWrapped (world : IngressWorld) : Prop :=
  ∀ key, world.ingress.nextAt key ≠ some 0

theorem reachable_noneWrapped {world : IngressWorld}
    (hreach : ingressMachine.ReachableWhere SparesLast world) : NoneWrapped world := by
  refine hreach.induct (motive := NoneWrapped) ?_ ?_
  · intro world hinit key
    obtain ⟨config, rfl⟩ := init_eq hinit
    simp [nextAt, window]
  · intro before call after hbefore hnone hspares hnext key
    have hworld : before.next call = after := Option.some.inj hnext
    have hconsistent := reachable_consistent hbefore
    obtain ⟨heffect, -⟩ := next_effect hconsistent call
    rw [hworld] at heffect
    cases heffect with
    | unchanged => exact hnone key
    | @installed grant _ hnew hinstalls =>
        by_cases hkey : key = grant.streamKey
        · subst hkey
          simp [nextAt, hinstalls.windowNew]
        · have hkept := hinstalls.windowKept key hkey
          rw [nextAt, hkept]
          exact hnone key
    | @executed request grant _ hgrant hconsumes =>
        rw [hconsumes.next]
        split
        · rw [ne_eq, Option.some.injEq]
          apply succ_ne_zero
          intro hlast
          have hsame : after.ingress = (before.ingress.admitRequest request).2 := by
            rw [← hworld, next_admit_ingress]
          exact hspares ⟨admissible_of_consumes hconsistent (hsame ▸ hconsumes), hlast,
            hconsumes.expected.trans (congrArg some hlast)⟩
        · exact hnone key
    | refused => exact hnone key
    | ended hends =>
        rw [hends.next]
        exact hnone key

theorem answered_of_mem {world : IngressWorld} (hledger : Ledger world)
    (hstay : StayAdmissible world) {key : StreamKey} {issue : Issued}
    (hissue : issue ∈ world.executions key) {next : UInt64}
    (hnext : world.ingress.nextAt key = some next) (hwrapped : next ≠ 0) :
    AnsweredAsExecuted world.ingress issue.request := by
  obtain ⟨hpos, hbelow⟩ := hledger.mem_span hnext hissue
  rw [span_eq hwrapped] at hbelow
  obtain ⟨hmem, hstream, -⟩ := IngressWorld.mem_executions.mp hissue
  have hticket := (hledger.wellFormed issue hmem).1
  have hkey : issue.request.streamKey = key := by
    rw [← hstream, hticket]
    rfl
  obtain ⟨hstamp, hfields, hauthorized⟩ := hstay key issue hissue
  obtain ⟨view, hview, hfirst⟩ := Option.map_eq_some_iff.mp hnext
  obtain ⟨state, hlookup, rfl⟩ := Option.map_eq_some_iff.mp hview
  rw [← hkey] at hlookup
  have hadmitted := admitRequest_of_lookup hstamp hfields hauthorized hlookup
  have hstate : state.nextSequence = next := hfirst
  have hzero : issue.request.sequence ≠ 0 := by
    intro hzero
    rw [hzero] at hpos
    exact absurd hpos (by decide)
  have hpast : issue.request.sequence < state.nextSequence := by
    rw [hstate]
    exact UInt64.lt_iff_toNat_lt.mpr hbelow
  rw [if_neg hzero, if_neg (UInt64.not_lt.mpr (UInt64.le_of_lt hpast)), if_pos hpast]
    at hadmitted
  have hwindow := window_of_lookup hlookup
  -- A record of this sequence is the record of this very request.
  have hown : ∀ found ∈ world.executions key,
      found.ticket.sequence = issue.request.sequence → found = issue := by
    intro found hfound hsequence
    refine hledger.sequence_unique hnext hfound hissue (hsequence.trans ?_)
    rw [hticket]
    rfl
  unfold AnsweredAsExecuted
  rw [hadmitted]
  unfold answerConsumed
  cases hflight : state.inFlight.lookup issue.request.sequence with
  | some entry =>
      have hentry : world.ingress.inFlightAt key issue.request.sequence = some entry := by
        rw [← hkey, inFlightAt, hwindow]
        exact hflight
      obtain ⟨found, hfound, hsequence, hid, hdigest⟩ := hledger.flight _ _ _ hentry
      obtain rfl := hown found hfound hsequence
      exact .inl ⟨_, if_pos ⟨hid, hdigest⟩⟩
  | none =>
      cases hcached : world.ingress.cached.lookup
          ⟨issue.request.streamKey, issue.request.sequence⟩ with
      | none => exact .inr (.inr ⟨_, rfl⟩)
      | some kept =>
          rw [hkey] at hcached
          obtain ⟨found, hfound, hsequence, hid, hdigest⟩ := hledger.cached _ _ _ hcached
          obtain rfl := hown found hfound hsequence
          refine .inr (.inl ⟨_, if_neg ?_, rfl⟩)
          rw [not_or, not_not, not_not]
          exact ⟨hid, hdigest⟩

/-- A wrapped counter breaks the promise for the last sequence. -/
theorem not_answered_of_wrapped {world : IngressWorld} {key : StreamKey} {issue : Issued}
    (hissue : issue ∈ world.executions key) (hwrapped : world.ingress.nextAt key = some 0) :
    ¬ ExecutedStayAnswered world := by
  intro hanswered
  obtain ⟨⟨next, hnext, hbelow⟩, -⟩ := hanswered key issue hissue
  rw [hwrapped] at hnext
  cases hnext
  exact absurd hbelow (Nat.not_lt_zero _)

theorem admit_expected {ingress : OrderedIngress} {request : OrderedIngressRequest}
    (hadmissible : Admissible ingress request) (hvalid : request.sequence ≠ 0)
    (hnext : ingress.nextAt request.streamKey = some request.sequence) :
    (ingress.admitRequest request).1 = .ok (executeAdmission request) := by
  obtain ⟨hstamp, hfields, hauthorized⟩ := hadmissible
  obtain ⟨view, hview, hfirst⟩ := Option.map_eq_some_iff.mp hnext
  obtain ⟨state, hlookup, rfl⟩ := Option.map_eq_some_iff.mp hview
  have hstate : state.nextSequence = request.sequence := hfirst
  rw [admitRequest_of_lookup hstamp hfields hauthorized hlookup, hstate, if_neg hvalid,
    if_neg (UInt64.lt_irrefl _), if_neg (UInt64.lt_irrefl _)]

theorem executedStayAnswered_by_value {world : IngressWorld}
    (hreach : ingressMachine.ReachableWhere SparesLast world) : ExecutedStayAnswered world := by
  intro key issue hissue
  have hledger := reachable_ledger hreach
  have hstay := reachable_stayAdmissible hreach
  obtain ⟨hmem, hstream, -⟩ := IngressWorld.mem_executions.mp hissue
  rw [(hledger.wellFormed issue hmem).1] at hstream
  obtain ⟨-, -, hauthorized⟩ := hstay key issue hissue
  obtain ⟨grant, hgrant, hkey, -⟩ := exists_authorizes hauthorized
  obtain ⟨view, hview⟩ := (reachable_consistent hreach).exists_window hgrant
  have hnext : world.ingress.nextAt key = some view.1 := by
    rw [← hstream]
    change Option.map Prod.fst (world.ingress.window issue.request.streamKey) = _
    rw [← hkey, hview]
    rfl
  have hwrapped : view.1 ≠ 0 := by
    intro hzero
    exact reachable_noneWrapped hreach key (hnext.trans (congrArg some hzero))
  refine ⟨⟨view.1, hnext, ?_⟩, answered_of_mem hledger hstay hissue hnext hwrapped⟩
  rw [← span_eq hwrapped]
  exact (hledger.mem_span hnext hissue).2

theorem next_expected {ingress : OrderedIngress} {request : OrderedIngressRequest}
    (hadmissible : Admissible ingress request) (hvalid : request.sequence ≠ 0)
    (hnext : ingress.nextAt request.streamKey = some request.sequence) :
    (ingress.admitRequest request).2.nextAt request.streamKey = some (request.sequence + 1) := by
  obtain ⟨hstamp, hfields, hauthorized⟩ := hadmissible
  obtain ⟨view, hview, hfirst⟩ := Option.map_eq_some_iff.mp hnext
  obtain ⟨state, hlookup, rfl⟩ := Option.map_eq_some_iff.mp hview
  have hstate : state.nextSequence = request.sequence := hfirst
  rw [admitRequest_of_lookup hstamp hfields hauthorized hlookup, hstate, if_neg hvalid,
    if_neg (UInt64.lt_irrefl _), if_neg (UInt64.lt_irrefl _)]
  have hlater : (ingress.consume request state).streams.lookup request.streamKey = some
      { state with
        inFlight := Table.emplace state.inFlight request.sequence
          ⟨request.requestId, request.requestDigest⟩
        nextSequence := state.nextSequence + 1 } := AList.lookup_insert _
  rw [nextAt, window_of_lookup hlater, Option.map_some, hstate]

/-- In every run whose erased fronts last and that admits no stream's last sequence, each
executed request is below its counter and answered as executed for as long as its grant is
installed; the call that admits a stream's last sequence ends that. -/
theorem executed_stay_answered :
    (∀ world, tracedMachine.ReachableWhere (Lasting SparesLast) world →
      ExecutedStayAnswered world.ingressWorld) ∧
    ∀ world call after, tracedMachine.Reachable world →
      ¬ SparesLast world.ingressWorld call.ingressCall →
      tracedMachine.next world call = some after →
      ¬ ExecutedStayAnswered after.ingressWorld := by
  constructor
  · intro world hreach
    exact executedStayAnswered_by_value (reachable_ingressWorld hreach).2
  · intro world call after _ hlast hnext
    cases hnext
    cases call with
    | grant grant => exact absurd trivial hlast
    | complete issue reply stale => exact absurd trivial hlast
    | admitRequest request =>
        obtain ⟨hadmissible, hsequence, hexpected⟩ := not_not.mp hlast
        rw [← hsequence] at hexpected
        have hvalid : request.sequence ≠ 0 := by
          rw [hsequence]
          decide
        have hresult : (world.ingress.admitRequest request).1 = .ok (executeAdmission request) :=
          admit_expected hadmissible hvalid hexpected
        have hissued : (world.next (.admitRequest request)).ingressWorld.issued =
            world.ingressWorld.issued ++ [⟨executeAdmission request, request,
              world.ingressWorld.session request.streamKey⟩] := by
          simp only [TracedWorld.ingressWorld, TracedWorld.next, hresult]
          exact if_pos rfl
        have hmem : ⟨executeAdmission request, request,
              world.ingressWorld.session request.streamKey⟩ ∈
            (world.next (.admitRequest request)).ingressWorld.executions request.streamKey := by
          rw [IngressWorld.executions_executed hissued rfl, if_pos rfl]
          exact List.mem_append_right _ (List.mem_singleton.mpr rfl)
        apply not_answered_of_wrapped hmem
        have hcounter := next_expected hadmissible hvalid hexpected
        rw [hsequence] at hcounter
        exact hcounter

end

/-- A request is executed, completed and replayed, and another one is in progress, after an
eviction whose front lasts. -/
theorem executed_stay_answered_sample :
    letI := permissiveInfra
    ∃ world, tracedMachine.ReachableWhere (Lasting SparesLast) world ∧
      world.cache.traced.removals.length = 2 ∧
      (world.ingressWorld.executions (sampleGrant "r2").streamKey).length = 2 ∧
      ExecutedStayAnswered world.ingressWorld := by
  let _ := permissiveInfra
  have hboot : tracedMachine.ReachableWhere (Lasting SparesLast) (sampleTraced 2) :=
    sampleTraced_reachable (by decide)
  obtain ⟨world, hreach, htest⟩ := hboot.exec_any
    (fun world call => decide (Lasting SparesLast world call)) (fun _ _ => of_decide_eq_true)
    (crossedCalls ⟨(hallRequest 1 "h").streamKey, 1⟩ "b" ++
      [.complete (sampleIssue "r2" 1 "b" 2) (sampleReply "new") (fun _ => sampleKey 1),
        .admitRequest (sampleRequest "r2" 2 "c")])
    (fun world => world.cache.traced.removals.length = 2 ∧
      (world.ingressWorld.executions (sampleGrant "r2").streamKey).length = 2)
    (by decide)
  obtain ⟨hremovals, hexecuted⟩ := of_decide_eq_true htest
  exact ⟨world, hreach, hremovals, hexecuted, executed_stay_answered.1 world hreach⟩

/-- An ingress that has spent the sequences below `next` and remembers none of them. -/
def spentIngress (next : UInt64) : OrderedIngress where
  config := ⟨"chat", 4, 4, 2⟩
  grants := [sampleGrant "r1"]
  streams := (∅ : Table StreamKey StreamState).insert (sampleGrant "r1").streamKey
    { nextSequence := next }

section

variable [Infra]

theorem admit_spent {next : UInt64} (hnext : next ≠ 0) :
    (spentIngress next).admitRequest (sampleRequest "r1" next "spent") =
      (.ok (executeAdmission (sampleRequest "r1" next "spent")),
        (spentIngress next).consume (sampleRequest "r1" next "spent")
          { nextSequence := next }) := by
  have hlookup : (spentIngress next).streams.lookup
      (sampleRequest "r1" next "spent").streamKey = some { nextSequence := next } :=
    AList.lookup_insert _
  rw [admitRequest_of_lookup rfl (by simp [sampleRequest]) rfl hlookup]
  exact (if_neg hnext).trans ((if_neg (UInt64.lt_irrefl next)).trans
    (if_neg (UInt64.lt_irrefl next)))

theorem complete_spent (next : UInt64) :
    ((spentIngress next).consume (sampleRequest "r1" next "spent")
        { nextSequence := next }).complete (sampleIssue "r1" next "spent" 0).ticket
        (sampleReply "big") = (.ok (), spentIngress (next + 1)) := by
  have hstate : ((spentIngress next).consume (sampleRequest "r1" next "spent")
      { nextSequence := next }).streams.lookup
        (sampleIssue "r1" next "spent" 0).ticket.streamKey =
      some { nextSequence := next + 1,
             inFlight := Table.emplace ∅ next ⟨"spent", "digest"⟩ } :=
    AList.lookup_insert _
  have hnew : Table.emplace ∅ next (⟨"spent", "digest"⟩ : InFlight) =
      AList.insert next ⟨"spent", "digest"⟩ ∅ :=
    Table.emplace_of_notMem _ (AList.notMem_empty next)
  have hempty : (Table.emplace ∅ next (⟨"spent", "digest"⟩ : InFlight)).erase next = ∅ := by
    apply AList.ext
    rw [hnew]
    exact List.kerase_cons_eq rfl
  have hflight : (Table.emplace ∅ next (⟨"spent", "digest"⟩ : InFlight)).lookup
      (sampleIssue "r1" next "spent" 0).ticket.sequence = some ⟨"spent", "digest"⟩ := by
    rw [hnew]
    exact AList.lookup_insert _
  have hkind : ¬(sampleIssue "r1" next "spent" 0).ticket.kind ≠ .execute := fun hne => hne rfl
  unfold complete
  rw [if_neg hkind, hstate]
  dsimp only
  rw [hflight]
  dsimp only
  have hlarge : 2 < replyBytes (terminalReply (sampleReply "big")) := by
    rw [terminalReply_eq (Or.inl rfl)]
    decide
  refine congrArg (Prod.mk (Except.ok ())) ((if_pos hlarge).trans ?_)
  change setStream _ _ { nextSequence := next + 1, inFlight := AList.erase next _ } = _
  rw [hempty]
  simp only [setStream, OrderedIngress.consume, spentIngress]
  rw [OrderedIngress.mk.injEq]
  refine ⟨rfl, rfl, ?_, rfl, rfl, rfl⟩
  exact (AList.insert_insert _).trans (AList.insert_insert _)

/-- One sequence is admitted, and completed with a reply too large for the cache. -/
theorem spend {world : TracedWorld} {sequence : UInt64} (hne : sequence ≠ 0)
    (hreach : tracedMachine.ReachableWhere KeepsFronts world)
    (htraced : world.cache.traced = { ingress := spentIngress sequence }) :
    ∃ last, tracedMachine.ReachableWhere KeepsFronts last ∧
      last.cache.traced = { ingress := spentIngress (sequence + 1) } := by
  let request := sampleRequest "r1" sequence "spent"
  let admitted := world.next (.admitRequest request)
  have hbegun : tracedMachine.ReachableWhere KeepsFronts admitted :=
    traced_next hreach (show KeepsFronts world (.admitRequest request) from trivial)
  have hadmitted : admitted.cache.traced =
      { ingress := (spentIngress sequence).consume request { nextSequence := sequence } } := by
    change TracedIngress.mk (world.cache.traced.ingress.admitRequest request).2
      world.cache.traced.removals = _
    rw [htraced, admit_spent hne]
  have hlarge : admitted.cache.traced.ingress.config.maxCachedResultBytes <
      replyBytes (terminalReply (sampleReply "big")) := by
    rw [hadmitted, terminalReply_eq (Or.inl rfl)]
    exact (by decide : 2 < 3)
  let done : TracedCall :=
    .complete (sampleIssue "r1" sequence "spent" 0) (sampleReply "big") fun _ => sampleKey 1
  have hended : tracedMachine.ReachableWhere KeepsFronts (admitted.next done) :=
    traced_next hbegun (keepsFronts_of_large hlarge _)
  refine ⟨admitted.next done, hended, ?_⟩
  rw [TracedWorld.next_cache]
  refine (CacheWorld.next_complete _ _ _ _).trans ?_
  rw [TracedIngress.complete_large hlarge, hadmitted]
  exact congrArg (fun ingress => TracedIngress.mk ingress [])
    (congrArg Prod.snd (complete_spent sequence))

theorem spent_reachable (count : Nat) (hcount : count + 1 < 2 ^ 64) :
    ∃ world, tracedMachine.ReachableWhere KeepsFronts world ∧
      world.cache.traced = { ingress := spentIngress (UInt64.ofNat (count + 1)) } := by
  induction count with
  | zero =>
      have hboot : tracedMachine.ReachableWhere KeepsFronts
          { cache := { traced := { ingress := { config := ⟨"chat", 4, 4, 2⟩ } } } } :=
        .start ⟨⟨"chat", 4, 4, 2⟩, _, rfl, rfl⟩
      let call : TracedCall := .grant (sampleGrant "r1")
      have hlasts : KeepsFronts
          { cache := { traced := { ingress := { config := ⟨"chat", 4, 4, 2⟩ } } } } call := trivial
      exact ⟨_, traced_next hboot hlasts, rfl⟩
  | succ count ih =>
      obtain ⟨world, hreach, htraced⟩ := ih (by omega)
      have hne : UInt64.ofNat (count + 1) ≠ 0 := by
        intro hzero
        have := congrArg UInt64.toNat hzero
        simp at this
        omega
      rw [UInt64.ofNat_add (count + 1) 1]
      exact spend hne hreach htraced

end

/-- The last sequence is executed, and the counter is 0 after it: the same request then
runs into a gap.  An eviction that reads the key of another reply makes a request of the next
session conflict with a request of the revoked one. -/
theorem last_sequence_forgotten :
    letI := permissiveInfra
    (∃ world after, tracedMachine.ReachableWhere KeepsFronts world ∧
      (world.ingress.admitRequest (sampleRequest "r1" lastSequence "spent")).1 =
        .ok (executeAdmission (sampleRequest "r1" lastSequence "spent")) ∧
      tracedMachine.next world (.admitRequest (sampleRequest "r1" lastSequence "spent")) =
        some after ∧
      after.ingress.nextAt (sampleGrant "r1").streamKey = some 0 ∧
      (after.ingress.admitRequest (sampleRequest "r1" lastSequence "spent")).1 =
        .error (gapError 0) ∧
      ¬ ExecutedStayAnswered after.ingressWorld) ∧
    ∃ world issue, tracedMachine.ReachableWhere
        (fun world call => SparesLast world.ingressWorld call.ingressCall) world ∧
      issue ∈ world.ingressWorld.executions (sampleGrant "r2").streamKey ∧
      (world.ingress.admitRequest issue.request).1 = .error sequenceConflictError ∧
      ¬ ExecutedStayAnswered world.ingressWorld := by
  let _ := permissiveInfra
  constructor
  · obtain ⟨world, hreach, htraced⟩ := spent_reachable (2 ^ 64 - 2) (by omega)
    have hingress : world.ingress = spentIngress lastSequence :=
      congrArg TracedIngress.ingress htraced
    have hlast : ¬ SparesLast world.ingressWorld
        (.admitRequest (sampleRequest "r1" lastSequence "spent")) := by
      change ¬¬(Admissible world.ingress _ ∧ _ ∧ world.ingress.nextAt _ = _)
      rw [hingress]
      decide
    refine ⟨world, _, hreach, ?_, rfl, ?_, ?_, executed_stay_answered.2 world
      (.admitRequest (sampleRequest "r1" lastSequence "spent")) _ hreach.reachable hlast rfl⟩
    · rw [hingress]
      decide
    · change (world.ingress.admitRequest _).2.nextAt _ = _
      rw [hingress]
      decide
    · change ((world.ingress.admitRequest _).2.admitRequest _).1 = _
      rw [hingress]
      decide
  · have hboot : tracedMachine.ReachableWhere
        (fun world call => SparesLast world.ingressWorld call.ingressCall) (sampleTraced 2) :=
      sampleTraced_reachable (by decide)
    obtain ⟨world, hreach, htest⟩ := hboot.exec_any
      (fun world call => decide (SparesLast world.ingressWorld call.ingressCall))
      (fun _ _ => of_decide_eq_true)
      (crossedCalls (sampleKey 1) "c" ++
        [.complete (sampleIssue "r2" 1 "c" 2) (sampleReply "new") (fun _ => sampleKey 1)])
      (fun world => sampleIssue "r2" 1 "c" 2 ∈
          world.ingressWorld.executions (sampleGrant "r2").streamKey ∧
        (world.ingress.admitRequest (sampleRequest "r2" 1 "c")).1 =
          .error sequenceConflictError)
      (by decide)
    obtain ⟨hexecuted, hconflict⟩ := of_decide_eq_true htest
    refine ⟨world, _, hreach, hexecuted, hconflict, fun hanswered => ?_⟩
    obtain ⟨-, hanswer⟩ := hanswered _ _ hexecuted
    obtain ⟨message, hprogress⟩ | ⟨ticket, hticket, -⟩ | ⟨message, hexpired⟩ := hanswer
    · have hcode : OrderedDomainCode.sequenceConflict = OrderedDomainCode.inProgress :=
        congrArg Error.domainCode (Except.error.inj (hconflict.symm.trans hprogress))
      exact absurd hcode (by decide)
    · cases hconflict.symm.trans hticket
    · have hcode : OrderedDomainCode.sequenceConflict = OrderedDomainCode.resultExpired :=
        congrArg Error.domainCode (Except.error.inj (hconflict.symm.trans hexpired))
      exact absurd hcode (by decide)

end BbtFramework.Ordered
