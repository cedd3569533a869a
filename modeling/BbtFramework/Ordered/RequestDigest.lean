import BbtFramework.Inbound.Request
import BbtFramework.Library.LengthFramed
import BbtFramework.Ordered.SequenceEnd

/-!
# Requests told by their digests

A digest is the method, the actor key and the payload, each behind its length, so that
different requests have different digests.  The ingress keeps the id and the digest of each
sequence it has consumed, and answers another request of that sequence with a conflict for
as long as it keeps them; while its erased fronts last, what it keeps of a sequence is of the
request executed in the current session.
-/

namespace BbtFramework.Ordered

open BbtFramework.Inbound
open BbtFramework.Library
open BbtFramework.Rpc
open OrderedIngress

/-- The length prefixes of a digest are decimal and end with a colon. -/
theorem toDigits_figures : LengthFramed.Figures (Nat.toDigits 10) ':' where
  injective := Decimal.toDigits_injective
  unmarked := Decimal.notMem_toDigits (by decide)

theorem orderedRequestDigest_toList (method actorKey : String) (payload : Bytes) :
    (orderedRequestDigest method actorKey payload).toList =
      LengthFramed.frames (Nat.toDigits 10) ':' '|'
        [method.toList, actorKey.toList, (bytesToString payload).toList] := by
  simp [orderedRequestDigest, LengthFramed.frames, LengthFramed.frame, Nat.toString_eq_repr,
    Nat.toList_repr, String.length_toList]

/-- What a request asks for: each part is a text of arbitrary bytes. -/
structure RequestContent where
  method : String
  actorKey : String
  payload : Bytes
  deriving DecidableEq, Repr

def RequestContent.digest (content : RequestContent) : String :=
  orderedRequestDigest content.method content.actorKey content.payload

theorem digest_injective : Function.Injective RequestContent.digest := by
  rintro ⟨method, actorKey, payload⟩ ⟨otherMethod, otherKey, otherPayload⟩ hdigest
  have htext := congrArg String.toList hdigest
  simp only [RequestContent.digest, orderedRequestDigest_toList] at htext
  have hparts := LengthFramed.frames_injective toDigits_figures htext
  simp only [List.cons.injEq, and_true] at hparts
  obtain ⟨hmethod, hkey, hpayload⟩ := hparts
  rw [String.toList_injective hmethod, String.toList_injective hkey,
    bytesToString_injective (String.toList_injective hpayload)]

def OrderedIngressRequest.Carries (request : OrderedIngressRequest) (content : RequestContent) :
    Prop :=
  request.method = content.method ∧ request.actorKey = content.actorKey ∧
    request.requestDigest = content.digest

theorem orderedRequest_carries (incoming : IncomingCallContext) (envelope : RpcEnvelope)
    (facts : MetadataFacts) (key : String) :
    (orderedRequest incoming envelope facts key).Carries
      ⟨envelope.method, key, envelope.payload⟩ :=
  ⟨rfl, rfl, rfl⟩

theorem OrderedIngressRequest.Carries.digest_eq_iff {request other : OrderedIngressRequest}
    {content otherContent : RequestContent} (hcontent : request.Carries content)
    (hother : other.Carries otherContent) :
    request.requestDigest = other.requestDigest ↔ content = otherContent := by
  rw [hcontent.2.2, hother.2.2]
  exact digest_injective.eq_iff

namespace OrderedIngress

def recordAt (ingress : OrderedIngress) (key : StreamKey) (sequence : UInt64) :
    Option (String × String) :=
  match ingress.inFlightAt key sequence with
  | some entry => some (entry.requestId, entry.digest)
  | none => (ingress.cachedAt key sequence).map (fun kept => (kept.requestId, kept.digest))

/-- The request passes the checks before the sequence, and its sequence has been consumed and
is remembered. -/
def Compares (ingress : OrderedIngress) (request : OrderedIngressRequest) : Prop :=
  Admissible ingress request ∧
    (ingress.nextAt request.streamKey).any (fun next => request.sequence < next) = true ∧
    (ingress.recordAt request.streamKey request.sequence).isSome = true

instance (ingress : OrderedIngress) (request : OrderedIngressRequest) :
    Decidable (ingress.Compares request) :=
  inferInstanceAs (Decidable (_ ∧ _ ∧ _))

end OrderedIngress

/-- The answer to a repeated request whose first copy has not ended. -/
def IsInProgress (error : Error) : Prop :=
  error.code = .remoteError ∧ error.domainCode = OrderedDomainCode.inProgress

instance (error : Error) : Decidable (IsInProgress error) :=
  inferInstanceAs (Decidable (_ ∧ _))

section

variable [Infra]

theorem not_inProgress_of_ne {code message : String} (hcode : code ≠ OrderedDomainCode.inProgress) :
    ¬IsInProgress (orderedDomainError code message) :=
  fun hprogress => hcode hprogress.2

theorem answerConsumed_cases {ingress : OrderedIngress} {request : OrderedIngressRequest}
    {state : StreamState} (hlookup : ingress.streams.lookup request.streamKey = some state) :
    (∃ record, ingress.recordAt request.streamKey request.sequence = some record ∧
      record ≠ (request.requestId, request.requestDigest) ∧
      ingress.answerConsumed request state = .error sequenceConflictError) ∨
    (ingress.recordAt request.streamKey request.sequence =
        some (request.requestId, request.requestDigest) ∧
      ∀ error, ingress.answerConsumed request state = .error error →
        ¬IsSequenceConflict error) ∨
    (ingress.recordAt request.streamKey request.sequence = none ∧
      ∃ message, ingress.answerConsumed request state =
        .error (orderedDomainError OrderedDomainCode.resultExpired message)) := by
  have hwindow := window_of_lookup hlookup
  have hflightAt : ingress.inFlightAt request.streamKey request.sequence =
      state.inFlight.lookup request.sequence := by
    simp [inFlightAt, hwindow]
  unfold answerConsumed recordAt
  rw [hflightAt]
  cases state.inFlight.lookup request.sequence with
  | some entry =>
      dsimp only
      split
      case isTrue hsame =>
        refine .inr (.inl ⟨by rw [hsame.1, hsame.2], ?_⟩)
        rintro error herror ⟨-, hcode⟩
        rw [← Except.error.inj herror] at hcode
        change OrderedDomainCode.inProgress = OrderedDomainCode.sequenceConflict at hcode
        exact absurd hcode (by decide)
      case isFalse hdiffers =>
        refine .inl ⟨_, rfl, ?_, rfl⟩
        intro hsame
        exact hdiffers (Prod.mk.inj hsame)
  | none =>
      cases hcached : ingress.cachedAt request.streamKey request.sequence with
      | none =>
          rw [show ingress.cached.lookup ⟨request.streamKey, request.sequence⟩ = none
            from hcached]
          exact .inr (.inr ⟨rfl, _, rfl⟩)
      | some kept =>
          rw [show ingress.cached.lookup ⟨request.streamKey, request.sequence⟩ = some kept
            from hcached]
          dsimp only
          split
          case isTrue hdiffers =>
            refine .inl ⟨_, rfl, ?_, rfl⟩
            intro hsame
            obtain ⟨hid, hdigest⟩ := Prod.mk.inj hsame
            exact hdiffers.elim (fun hother => hother hid) (fun hother => hother hdigest)
          case isFalse hsame =>
            rw [not_or, not_not, not_not] at hsame
            refine .inr (.inl ⟨by rw [Option.map_some, hsame.1, hsame.2], ?_⟩)
            intro error herror
            cases herror

omit [Infra] in
/-- The ledger knows whose id and digest are kept. -/
theorem Ledger.recordAt {world : IngressWorld} (hledger : Ledger world) {key : StreamKey} {next : UInt64}
    (hnext : world.ingress.nextAt key = some next) {issue : Issued}
    (hissue : issue ∈ world.executions key) {record : String × String}
    (hrecord : world.ingress.recordAt key issue.ticket.sequence = some record) :
    record = (issue.request.requestId, issue.request.requestDigest) := by
  unfold OrderedIngress.recordAt at hrecord
  split at hrecord
  case h_1 entry hentry =>
    obtain ⟨found, hfound, hsequence, hid, hdigest⟩ := hledger.flight _ _ entry hentry
    obtain rfl := hledger.sequence_unique hnext hfound hissue hsequence
    rw [← Option.some.inj hrecord, hid, hdigest]
  case h_2 =>
    obtain ⟨kept, hkept, rfl⟩ := Option.map_eq_some_iff.mp hrecord
    obtain ⟨found, hfound, hsequence, hid, hdigest⟩ := hledger.cached _ _ kept hkept
    obtain rfl := hledger.sequence_unique hnext hfound hissue hsequence
    rw [hid, hdigest]

theorem refused_of_differs {world : IngressWorld} (hreach : ingressMachine.Reachable world)
    {request : OrderedIngressRequest} {issue : Issued}
    (hissue : issue ∈ world.executions request.streamKey)
    (hsequence : issue.ticket.sequence = request.sequence)
    (hdiffers : issue.request.requestDigest ≠ request.requestDigest) :
    ∃ error, world.ingress.admitRequest request = (.error error, world.ingress) ∧
      ¬IsInProgress error := by
  have hconsistent := reachable_consistent hreach
  have hledger := reachable_ledger hreach
  -- What is kept of the sequence is not the digest of this request.
  have hkept : ∀ {next : UInt64}, world.ingress.nextAt request.streamKey = some next →
      world.ingress.recordAt request.streamKey request.sequence ≠
        some (request.requestId, request.requestDigest) := by
    intro next hnext hrecord
    rw [← hsequence] at hrecord
    exact hdiffers (Prod.mk.inj (hledger.recordAt hnext hissue hrecord)).2.symm
  obtain ⟨error, hrefused⟩ | ⟨replayed, kept, grant, -, -, -, hgrant, hflight, hcached, hid,
    hdigest⟩ | ⟨grant, hgrant, -, hconsumes, -⟩ := admit_cases hconsistent request
  · refine ⟨error, hrefused, ?_⟩
    obtain ⟨code, message, rfl, rfl | rfl⟩ | ⟨next, rfl⟩ |
      ⟨grant, state, -, -, hlookup, hconsumed⟩ :=
        admit_error hconsistent (congrArg Prod.fst hrefused)
    · exact not_inProgress_of_ne (by decide)
    · exact not_inProgress_of_ne (by decide)
    · rintro ⟨hcode, hdomain⟩
      rw [gapError, sequenceGapError_domainCode hcode] at hdomain
      exact absurd hdomain (by decide)
    · obtain ⟨record, -, -, hconflict⟩ | ⟨hsame, -⟩ | ⟨-, message, hexpired⟩ :=
        answerConsumed_cases hlookup
      · rw [Except.error.inj (hconsumed.symm.trans hconflict)]
        exact not_inProgress_of_ne (by decide)
      · have hnext : world.ingress.nextAt request.streamKey = some state.nextSequence := by
          simp [nextAt, window_of_lookup hlookup]
        exact absurd hsame (hkept hnext)
      · rw [Except.error.inj (hconsumed.symm.trans hexpired)]
        exact not_inProgress_of_ne (by decide)
  · obtain ⟨view, hview⟩ := hconsistent.exists_window hgrant.1
    rw [hgrant.2.1] at hview
    have hnext : world.ingress.nextAt request.streamKey = some view.1 := by
      simp [nextAt, hview]
    refine absurd ?_ (hkept hnext)
    rw [OrderedIngress.recordAt, hflight, hcached, Option.map_some, hid, hdigest]
  · -- The sequence expected next has not been executed.
    obtain ⟨hpos, hbelow⟩ := hledger.mem_span hconsumes.expected hissue
    have hissued := (IngressWorld.mem_executions.mp hissue).1
    have hticket : issue.ticket.sequence = issue.request.sequence := by
      rw [(hledger.wellFormed issue hissued).1]
      rfl
    rw [← hticket, hsequence, span_eq hconsumes.valid] at hbelow
    exact absurd hbelow (Nat.lt_irrefl _)

omit [Infra] in
/-- What is kept of a request differs from another request as their ids and contents do. -/
theorem record_ne_iff {request other : OrderedIngressRequest} {first second : RequestContent}
    (hfirst : other.Carries first) (hsecond : request.Carries second) :
    (other.requestId, other.requestDigest) ≠ (request.requestId, request.requestDigest) ↔
      other.requestId ≠ request.requestId ∨ first ≠ second := by
  rw [ne_eq, Prod.mk.injEq, not_and_or, hfirst.digest_eq_iff hsecond]

/-- Where the ingress compares, it answers a conflict exactly to a request that differs from
what it has kept. -/
theorem conflict_iff_record {ingress : OrderedIngress} {request : OrderedIngressRequest}
    {record : String × String} (hcompares : ingress.Compares request)
    (hvalid : request.sequence ≠ 0)
    (hrecord : ingress.recordAt request.streamKey request.sequence = some record) :
    (∃ error, (ingress.admitRequest request).1 = .error error ∧ IsSequenceConflict error) ↔
      record ≠ (request.requestId, request.requestDigest) := by
  obtain ⟨⟨hstamp, hfields, hauthorized⟩, hpast, -⟩ := hcompares
  obtain ⟨next, hnext, hlt⟩ := (Option.any_eq_true _ _).mp hpast
  obtain ⟨view, hview, hfirst⟩ := Option.map_eq_some_iff.mp hnext
  obtain ⟨state, hlookup, rfl⟩ := Option.map_eq_some_iff.mp hview
  have hstate : state.nextSequence = next := hfirst
  have hbelow : request.sequence < state.nextSequence := hstate ▸ of_decide_eq_true hlt
  have hadmitted := admitRequest_of_lookup hstamp hfields hauthorized hlookup
  rw [if_neg hvalid, if_neg (UInt64.not_lt.mpr (UInt64.le_of_lt hbelow)), if_pos hbelow]
    at hadmitted
  rw [hadmitted]
  obtain ⟨other, hother, hne, hconflict⟩ | ⟨hsame, hnever⟩ | ⟨hnone, -⟩ :=
    answerConsumed_cases hlookup
  · obtain rfl := Option.some.inj (hrecord.symm.trans hother)
    exact iff_of_true ⟨_, hconflict, rfl, rfl⟩ hne
  · have hown := Option.some.inj (hrecord.symm.trans hsame)
    refine iff_of_false ?_ (not_not_intro hown)
    rintro ⟨error, herror, hconflict⟩
    exact hnever error herror hconflict
  · rw [hrecord] at hnone
    cases hnone

theorem recordAt_of_executed {world : IngressWorld} (hreach : ingressMachine.Reachable world)
    {request : OrderedIngressRequest} {issue : Issued}
    (hissue : issue ∈ world.executions request.streamKey)
    (hsequence : issue.ticket.sequence = request.sequence)
    (hcompares : world.ingress.Compares request) :
    request.sequence ≠ 0 ∧ world.ingress.recordAt request.streamKey request.sequence =
      some (issue.request.requestId, issue.request.requestDigest) := by
  have hledger := reachable_ledger hreach
  obtain ⟨-, hpast, hremembered⟩ := hcompares
  obtain ⟨next, hnext, -⟩ := (Option.any_eq_true _ _).mp hpast
  obtain ⟨record, hrecord⟩ := Option.isSome_iff_exists.mp hremembered
  constructor
  · intro hzero
    obtain ⟨hpos, -⟩ := hledger.mem_span hnext hissue
    have hissued := (IngressWorld.mem_executions.mp hissue).1
    rw [(hledger.wellFormed issue hissued).1] at hsequence
    rw [show issue.request.sequence = 0 from hsequence.trans hzero] at hpos
    exact absurd hpos (by decide)
  · rw [hrecord]
    rw [← hsequence] at hrecord
    rw [hledger.recordAt hnext hissue hrecord]

/-- Two digests are equal only for the same method, actor key and payload.  The ingress, in
any state, compares a request with what it has kept of its sequence, and answers a conflict
exactly when they differ in their id or content.  And in every run whose erased fronts last a
request whose sequence was executed for another content is refused, not executed, not answered
by the other's reply and not taken for it in progress, and where the ingress compares, it
compares with the request executed. -/
theorem requests_told_apart :
    (∀ method other actorKey otherKey payload otherPayload,
      orderedRequestDigest method actorKey payload =
          orderedRequestDigest other otherKey otherPayload →
        method = other ∧ actorKey = otherKey ∧ payload = otherPayload) ∧
      (∀ (ingress : OrderedIngress) (request other : OrderedIngressRequest)
        (first second : RequestContent), other.Carries first → request.Carries second →
        request.sequence ≠ 0 → ingress.Compares request →
        ingress.recordAt request.streamKey request.sequence =
          some (other.requestId, other.requestDigest) →
        ((∃ error, (ingress.admitRequest request).1 = .error error ∧
            IsSequenceConflict error) ↔
          other.requestId ≠ request.requestId ∨ first ≠ second)) ∧
      ∀ world, tracedMachine.ReachableWhere KeepsFronts world →
        ∀ (request : OrderedIngressRequest) (first second : RequestContent),
        ∀ issue ∈ world.ingressWorld.executions request.streamKey,
          issue.ticket.sequence = request.sequence → issue.request.Carries first →
            request.Carries second →
        (first ≠ second → ∃ error,
          world.ingress.admitRequest request = (.error error, world.ingress) ∧
            ¬IsInProgress error) ∧
        (world.ingress.Compares request →
          ((∃ error, (world.ingress.admitRequest request).1 = .error error ∧
              IsSequenceConflict error) ↔
            issue.request.requestId ≠ request.requestId ∨ first ≠ second)) := by
  refine ⟨?_, ?_, ?_⟩
  · intro method other actorKey otherKey payload otherPayload hdigest
    have hsame : (⟨method, actorKey, payload⟩ : RequestContent) =
        ⟨other, otherKey, otherPayload⟩ := digest_injective hdigest
    cases hsame
    exact ⟨rfl, rfl, rfl⟩
  · intro ingress request other first second hfirst hsecond hvalid hcompares hrecord
    rw [conflict_iff_record hcompares hvalid hrecord, record_ne_iff hfirst hsecond]
  · intro world hlasts request first second issue hissue hsequence hfirst hsecond
    obtain ⟨-, hreach⟩ := reachable_by_value hlasts
    have hdigest := hfirst.digest_eq_iff hsecond
    constructor
    · intro hdiffers
      exact refused_of_differs hreach hissue hsequence (mt hdigest.mp hdiffers)
    · intro hcompares
      obtain ⟨hvalid, hrecord⟩ := recordAt_of_executed hreach hissue hsequence hcompares
      rw [conflict_iff_record hcompares hvalid hrecord, record_ne_iff hfirst hsecond]

end

def firstRequest (content : RequestContent) : OrderedIngressRequest :=
  { sampleRequest "r1" 1 "a" with
    method := content.method
    actorKey := content.actorKey
    requestDigest := content.digest }

/-- The first request of a stream comes again with a shorter payload. -/
theorem requests_told_apart_payload :
    letI := permissiveInfra
    let first : RequestContent := ⟨"say", "room", [104, 105]⟩
    let second : RequestContent := ⟨"say", "room", [104]⟩
    ∃ world, tracedMachine.ReachableWhere KeepsFronts world ∧
      first.digest ≠ second.digest ∧
      (∃ error, world.ingress.admitRequest (firstRequest second) =
        (.error error, world.ingress) ∧ ¬IsInProgress error) ∧
      ∃ error, (world.ingress.admitRequest (firstRequest second)).1 = .error error ∧
        IsSequenceConflict error := by
  let _ := permissiveInfra
  intro first second
  have hboot : tracedMachine.ReachableWhere KeepsFronts (sampleTraced 4) :=
    sampleTraced_reachable (by decide)
  let issue : Issued := ⟨executeAdmission (firstRequest first), firstRequest first, 1⟩
  obtain ⟨world, hreach, htest⟩ := hboot.exec_any
    (fun world call => decide (KeepsFronts world call)) (fun _ _ => of_decide_eq_true)
    [.grant (sampleGrant "r1"), .admitRequest (firstRequest first)]
    (fun world => issue ∈ world.ingressWorld.executions (firstRequest second).streamKey ∧
      world.ingress.Compares (firstRequest second) ∧
      world.ingress.recordAt (firstRequest second).streamKey 1 = some ("a", first.digest))
    (by decide)
  obtain ⟨hissue, hcompares, hrecord⟩ := of_decide_eq_true htest
  obtain ⟨hinjective, hcompared, hruns⟩ := requests_told_apart
  have hdigest : first.digest ≠ second.digest := by
    intro hsame
    obtain ⟨-, -, hpayload⟩ := hinjective "say" "say" "room" "room" [104, 105] [104] hsame
    exact absurd hpayload (by decide)
  obtain ⟨hrefused, -⟩ := hruns world hreach (firstRequest second) first second issue hissue rfl
    ⟨rfl, rfl, rfl⟩ ⟨rfl, rfl, rfl⟩
  have hconflict := hcompared world.ingress (firstRequest second) (firstRequest first) first
    second ⟨rfl, rfl, rfl⟩ ⟨rfl, rfl, rfl⟩ (by decide) hcompares hrecord
  exact ⟨world, hreach, hdigest, hrefused (by decide), hconflict.mpr (.inr (by decide))⟩

end BbtFramework.Ordered
