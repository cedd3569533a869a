import BbtFramework.Ordered.IngressLedger
import BbtFramework.Ordered.TracedRun

/-!
# Whose reply is replayed

A ticket names its stream and its sequence and not the session it was issued
in, so a completion that arrives after a new receiver epoch was granted may end
a request of the new session and leave its own reply there; and an eviction that
reads another key than it erased may leave the reply of a revoked session behind.
As long as neither happens, every replayed reply comes from the completion with
the very ticket issued for the same request.
-/

namespace BbtFramework.Ordered

open BbtFramework.Library
open OrderedIngress

/-- The executions of a session have different sequences. -/
theorem Ledger.sequence_unique {world : IngressWorld} (hledger : Ledger world)
    {key : StreamKey} {next : UInt64} (hnext : world.ingress.nextAt key = some next)
    {left right : Issued} (hleft : left ∈ world.executions key)
    (hright : right ∈ world.executions key)
    (hsame : left.ticket.sequence = right.ticket.sequence) : left = right := by
  have hnodup : ((world.executions key).map
      (fun issue => issue.ticket.sequence.toNat)).Nodup := by
    rw [hledger.counted key next hnext]
    exact List.nodup_range'
  refine List.inj_on_of_nodup_map hnodup hleft hright ?_
  rw [hsame]

/-- Within a session a sequence is issued once. -/
theorem Ledger.execution_unique {world : IngressWorld} (hledger : Ledger world)
    (hconsistent : Consistent world.ingress) {key : StreamKey}
    {sequence : UInt64} {entry : InFlight}
    (hentry : world.ingress.inFlightAt key sequence = some entry)
    {left right : Issued} (hleft : left ∈ world.executions key)
    (hright : right ∈ world.executions key)
    (hleftSequence : left.ticket.sequence = sequence)
    (hrightSequence : right.ticket.sequence = sequence) : left = right := by
  obtain ⟨next, hnext, -⟩ := (hconsistent.flight key sequence entry hentry).1
  exact hledger.sequence_unique hnext hleft hright
    (hleftSequence.trans hrightSequence.symm)

section

variable [Infra]

/-- An error reply the boundary check refuses is normalised before it is kept;
any other reply is kept as it was passed. -/
def BoundaryValid (reply : OrderedTerminalReply) : Prop :=
  reply.isOk = true ∨ validateErrorAtBoundary reply.error = .ok ()

theorem terminalReply_eq {reply : OrderedTerminalReply}
    (hvalid : BoundaryValid reply) : terminalReply reply = reply := by
  unfold terminalReply
  rcases hvalid with hok | herror
  · rw [if_pos hok]
  · split
    · rfl
    · rw [herror]

def ReplaysOwnReply (world : IngressWorld) : Prop :=
  ∀ request ticket, (world.ingress.admitRequest request).1 = .ok ticket →
    ticket.kind = .replay →
    ∃ issue ∈ world.issued, ∃ reply, (issue, reply) ∈ world.completions ∧
      issue.ticket.streamKey = request.streamKey ∧
      issue.session = world.session request.streamKey ∧
      issue.request.receiverEpoch = request.receiverEpoch ∧
      issue.ticket.sequence = request.sequence ∧
      issue.request.requestId = request.requestId ∧
      issue.request.requestDigest = request.requestDigest ∧
      ticket.replay = some (terminalReply reply) ∧
      (BoundaryValid reply → ticket.replay = some reply)

def OwnSession (world : IngressWorld) : IngressCall → Prop
  | .complete issue _ =>
      (world.ingress.inFlightAt issue.ticket.streamKey
        issue.ticket.sequence).isSome →
      issue ∈ world.issued ∧
        issue.session = world.session issue.ticket.streamKey
  | _ => True

instance (world : IngressWorld) :
    (call : IngressCall) → Decidable (OwnSession world call)
  | .grant _ => inferInstanceAs (Decidable True)
  | .admitRequest _ => inferInstanceAs (Decidable True)
  | .complete issue _ => inferInstanceAs (Decidable
      ((world.ingress.inFlightAt issue.ticket.streamKey
        issue.ticket.sequence).isSome →
      issue ∈ world.issued ∧
        issue.session = world.session issue.ticket.streamKey))

def CachesOwnReply (world : IngressWorld) : Prop :=
  ∀ key sequence kept, world.ingress.cachedAt key sequence = some kept →
    ∃ issue ∈ world.executions key, ∃ reply,
      (issue, reply) ∈ world.completions ∧
      issue.ticket.sequence = sequence ∧
      kept.requestId = issue.request.requestId ∧
      kept.digest = issue.request.requestDigest ∧
      kept.reply = terminalReply reply

theorem cachesOwnReply_step {before after : IngressWorld} {call : IngressCall}
    (hconsistent : Consistent before.ingress) (hledger : Ledger before)
    (hcaches : CachesOwnReply before) (hguard : OwnSession before call)
    (heffect : IngressEffect before call after) : CachesOwnReply after := by
  cases heffect with
  | unchanged => exact hcaches
  | installed hnew hinstalls hlist _ hissued hcompletions =>
      intro key sequence kept hkept
      obtain ⟨hkey, hold⟩ := hinstalls.cached hkept
      rw [hledger.executions_installed hissued hlist, if_neg hkey, hcompletions]
      exact hcaches key sequence kept hold
  | executed hgrant hconsumes hissued hlist _ hcompletions =>
      intro key sequence kept hkept
      have hold : before.ingress.cachedAt key sequence = some kept := by
        simpa only [cachedAt, hconsumes.cached] using hkept
      obtain ⟨issue, hissue, rest⟩ := hcaches key sequence kept hold
      rw [hcompletions, IngressWorld.executions_executed hissued hlist]
      refine ⟨issue, ?_, rest⟩
      split
      · exact List.mem_append_left _ hissue
      · exact hissue
  | refused issue reply =>
      intro key sequence kept hkept
      obtain ⟨own, hown, passed, hpassed, rest⟩ :=
        hcaches key sequence kept hkept
      exact ⟨own, hown, passed, List.mem_append_left _ hpassed, rest⟩
  | @ended issue reply entry _ hends hissuedSame hlist _ hcompletions =>
      intro key sequence kept hkept
      rw [hcompletions, IngressWorld.executions_congr hissuedSame hlist]
      rcases hends.cached key sequence kept hkept with hold | ⟨rfl, rfl, rfl⟩
      · obtain ⟨own, hown, passed, hpassed, rest⟩ :=
          hcaches key sequence kept hold
        exact ⟨own, hown, passed, List.mem_append_left _ hpassed, rest⟩
      · -- The guard puts the ticket in the current session, so the request it
        -- ends is the one it was issued for.
        obtain ⟨hissued, hsession⟩ :=
          hguard (by rw [hends.ended]; rfl)
        have hown : issue ∈ before.executions issue.ticket.streamKey :=
          IngressWorld.mem_executions.mpr ⟨hissued, rfl, hsession⟩
        obtain ⟨found, hfound, hsequence, hid, hdigest⟩ :=
          hledger.flight _ _ entry hends.ended
        have hsame : found = issue :=
          hledger.execution_unique hconsistent hends.ended hfound hown
            hsequence rfl
        subst hsame
        exact ⟨found, hown, reply,
          List.mem_append_right _ (List.mem_singleton.mpr rfl), rfl, hid,
          hdigest, rfl⟩

theorem reachable_cachesOwnReply {world : IngressWorld}
    (hreach : ingressMachine.ReachableWhere OwnSession world) :
    CachesOwnReply world := by
  refine reachable_effect_induct ?_ ?_ hreach
  · intro config key sequence kept hkept
    simp [cachedAt] at hkept
  · intro before call after hbefore hcaches hguard heffect _
    exact cachesOwnReply_step (reachable_consistent hbefore)
      (reachable_ledger hbefore) hcaches hguard heffect

theorem replaysOwnReply_by_value {world : IngressWorld}
    (hreach : ingressMachine.ReachableWhere OwnSession world) : ReplaysOwnReply world := by
  have hconsistent := reachable_consistent hreach
  have hledger := reachable_ledger hreach
  intro request ticket hadmitted hkind
  rcases admit_cases hconsistent request with
    ⟨error, hrefused⟩ |
    ⟨replayed, kept, grant, hreplayed, -, hreply, hgrant, -, hkept, hid, hdigest⟩ |
    ⟨grant, -, hexecute, -⟩
  · rw [hrefused] at hadmitted
    cases hadmitted
  · rw [hreplayed] at hadmitted
    cases hadmitted
    obtain ⟨issue, hissue, reply, hpassed, hsequence, hissueId, hissueDigest,
      hsame⟩ := reachable_cachesOwnReply hreach _ _ kept hkept
    obtain ⟨hissued, hkey, hsession⟩ := IngressWorld.mem_executions.mp hissue
    have hepoch := hledger.epoch grant hgrant.1 issue (hgrant.2.1 ▸ hissue)
    refine ⟨issue, hissued, reply, hpassed, hkey, hsession,
      hepoch.trans hgrant.2.2.1, hsequence, hissueId.symm.trans hid,
      hissueDigest.symm.trans hdigest, hreply.trans (by rw [hsame]),
      fun hvalid => ?_⟩
    rw [hreply, hsame, terminalReply_eq hvalid]
  · rw [hexecute] at hadmitted
    cases hadmitted
    cases hkind

/-- In every run whose completions act for their own session and whose erased fronts last, a
replayed reply is the one passed with the ticket of the same request, and a completion with a
ticket of a revoked session changes nothing. -/
theorem replays_own_reply {world : TracedWorld}
    (hreach : tracedMachine.ReachableWhere (Lasting OwnSession) world) :
    ReplaysOwnReply world.ingressWorld ∧
      ∀ issue reply stale, OwnSession world.ingressWorld (.complete issue reply) →
        issue.session ≠ world.ingressWorld.session issue.ticket.streamKey →
        (world.cache.traced.complete issue.ticket reply stale).2 = world.cache.traced := by
  refine ⟨replaysOwnReply_by_value (reachable_ingressWorld hreach).2, ?_⟩
  intro issue reply stale hguard hrevoked
  obtain ⟨error, hrefused, -⟩ | ⟨state, entry, -, hlookup, hentry⟩ :=
    world.cache.traced.complete_cases issue.ticket reply stale
  · rw [hrefused]
  · replace hlookup : world.ingress.streams.lookup issue.ticket.streamKey = some state := hlookup
    have hflight : world.ingress.inFlightAt issue.ticket.streamKey issue.ticket.sequence =
        some entry := by
      rw [inFlightAt, window_of_lookup hlookup]
      exact hentry
    exact absurd (hguard (Option.isSome_of_eq_some hflight)).2 hrevoked

end

/-- A request of the second session is completed and replayed, after an eviction. -/
theorem replays_own_reply_sample :
    letI := permissiveInfra
    let issue := sampleIssue "r2" 1 "b" 2
    ∃ world, tracedMachine.ReachableWhere (Lasting OwnSession) world ∧
      world.cache.traced.removals.length = 2 ∧
      (∃ ticket, (world.ingress.admitRequest issue.request).1 = .ok ticket ∧
        ticket.kind = .replay ∧ ticket.replay = some (sampleReply "new")) ∧
      ReplaysOwnReply world.ingressWorld := by
  let _ := permissiveInfra
  intro issue
  have hboot : tracedMachine.ReachableWhere (Lasting OwnSession) (sampleTraced 2) :=
    sampleTraced_reachable (by decide)
  obtain ⟨world, hreach, htest⟩ := hboot.exec_any
    (fun world call => decide (Lasting OwnSession world call)) (fun _ _ => of_decide_eq_true)
    (crossedCalls ⟨(hallRequest 1 "h").streamKey, 1⟩ "b" ++
      [.complete issue (sampleReply "new") (fun _ => sampleKey 1)])
    (fun world => world.cache.traced.removals.length = 2 ∧
      (world.ingress.admitRequest issue.request).1 =
        .ok ⟨.replay, 1, "room", "producer", "p1", some (sampleReply "new")⟩)
    (by decide)
  obtain ⟨hremovals, hadmitted⟩ := of_decide_eq_true htest
  exact ⟨world, hreach, hremovals, ⟨_, hadmitted, rfl, rfl⟩, (replays_own_reply hreach).1⟩

theorem not_replaysOwnReply [Infra] {world : IngressWorld} {request : OrderedIngressRequest}
    {ticket : Admission} {reply : OrderedTerminalReply}
    (hadmitted : (world.ingress.admitRequest request).1 = .ok ticket)
    (hkind : ticket.kind = .replay) (hreplay : ticket.replay = some reply)
    (hother : ∀ pair ∈ world.completions, pair.1.ticket.streamKey = request.streamKey →
      pair.1.session = world.session request.streamKey → terminalReply pair.2 ≠ reply) :
    ¬ ReplaysOwnReply world := by
  intro hreplays
  obtain ⟨issue, -, passed, hpassed, hkey, hsession, -, -, -, -, hsame, -⟩ :=
    hreplays request ticket hadmitted hkind
  exact hother _ hpassed hkey hsession (Option.some.inj (hsame.symm.trans hreplay))

/-- A ticket of the revoked epoch `r1` ends the request of epoch `r2` that has the same
sequence, and the reply passed with it is replayed for that request.  An eviction that reads
the key of a reply of `r1` has the same effect without such a ticket. -/
theorem stale_reply_replayed :
    letI := permissiveInfra
    (∃ world after stale fronts, tracedMachine.ReachableWhere KeepsFronts world ∧
      stale ∈ world.issued ∧
      stale.session ≠ world.ingressWorld.session stale.ticket.streamKey ∧
      world.ingress.inFlightAt stale.ticket.streamKey 1 = some ⟨"b", "digest"⟩ ∧
      tracedMachine.next world (.complete stale (sampleReply "old") fronts) = some after ∧
      after.ingress.inFlightAt stale.ticket.streamKey 1 = none ∧
      ¬ ReplaysOwnReply after.ingressWorld) ∧
    ∃ world, tracedMachine.ReachableWhere
        (fun world call => OwnSession world.ingressWorld call.ingressCall) world ∧
      ¬ ReplaysOwnReply world.ingressWorld := by
  let _ := permissiveInfra
  constructor
  · have hboot : tracedMachine.ReachableWhere KeepsFronts (sampleTraced 4) :=
      sampleTraced_reachable (by decide)
    let stale := sampleIssue "r1" 1 "a" 1
    let last : TracedCall := .complete stale (sampleReply "old") (fun _ => sampleKey 1)
    obtain ⟨world, hreach, htest⟩ := hboot.exec_any
      (fun world call => decide (KeepsFronts world call)) (fun _ _ => of_decide_eq_true)
      [.grant (sampleGrant "r1"), .admitRequest (sampleRequest "r1" 1 "a"),
        .grant (sampleGrant "r2"), .admitRequest (sampleRequest "r2" 1 "b")]
      (fun world => stale ∈ world.issued ∧
        stale.session ≠ world.ingressWorld.session stale.ticket.streamKey ∧
        world.ingress.inFlightAt stale.ticket.streamKey 1 = some ⟨"b", "digest"⟩ ∧
        (world.next last).ingress.inFlightAt stale.ticket.streamKey 1 = none ∧
        ((world.next last).ingress.admitRequest (sampleRequest "r2" 1 "b")).1 =
          .ok ⟨.replay, 1, "room", "producer", "p1", some (sampleReply "old")⟩ ∧
        ∀ pair ∈ (world.next last).completions,
          pair.1.session ≠ (world.next last).ingressWorld.session stale.ticket.streamKey)
      (by decide)
    obtain ⟨hissued, hsession, hflight, hended, hadmitted, hothers⟩ := of_decide_eq_true htest
    refine ⟨world, _, stale, _, hreach, hissued, hsession, hflight, rfl, hended, ?_⟩
    refine not_replaysOwnReply hadmitted rfl rfl fun pair hpair _ hown => ?_
    exact absurd hown (hothers pair hpair)
  · have hboot : tracedMachine.ReachableWhere
        (fun world call => OwnSession world.ingressWorld call.ingressCall) (sampleTraced 2) :=
      sampleTraced_reachable (by decide)
    obtain ⟨world, hreach, htest⟩ := hboot.exec_any
      (fun world call => decide (OwnSession world.ingressWorld call.ingressCall))
      (fun _ _ => of_decide_eq_true)
      (crossedCalls (sampleKey 1) "b" ++
        [.complete (sampleIssue "r2" 1 "b" 2) (sampleReply "new") (fun _ => sampleKey 1)])
      (fun world => (world.ingress.admitRequest (sampleRequest "r2" 1 "b")).1 =
          .ok ⟨.replay, 1, "room", "producer", "p1", some (sampleReply "old")⟩ ∧
        ∀ pair ∈ world.completions, pair.1.ticket.streamKey = (sampleKey 1).stream →
          pair.1.session = world.ingressWorld.session (sampleKey 1).stream →
            terminalReply pair.2 ≠ sampleReply "old")
      (by decide)
    obtain ⟨hadmitted, hothers⟩ := of_decide_eq_true htest
    exact ⟨world, hreach, not_replaysOwnReply hadmitted rfl rfl hothers⟩

end BbtFramework.Ordered
