import BbtFramework.Ordered.IngressLedger
import BbtFramework.Ordered.TracedRun

/-!
# Sequence phases within a session

Abstractly a sequence of a stream is ahead of the counter, in flight, cached or
expired, and moves only forward: admission puts the next sequence in flight,
completion caches or expires it, eviction expires a cached one.  While the fronts
it erases last, the ingress implements this machine for every stream whose grant
stays installed, and the admissions of the session count 1, 2, 3, and so on.
-/

namespace BbtFramework.Ordered

open BbtFramework.Library
open OrderedIngress

inductive SequencePhase where
  | ahead
  | inFlight
  | cached
  | expired
  deriving DecidableEq, Repr

inductive SequencePhase.Move (key : StreamKey) (sequence : UInt64) :
    IngressCall → SequencePhase → SequencePhase → Prop where
  | stay (call : IngressCall) (phase : SequencePhase) :
      Move key sequence call phase phase
  | admitted {request : OrderedIngressRequest}
      (hkey : request.streamKey = key) (hsequence : request.sequence = sequence) :
      Move key sequence (.admitRequest request) .ahead .inFlight
  | completed {issue : Issued} {reply : OrderedTerminalReply}
      (hkey : issue.ticket.streamKey = key)
      (hsequence : issue.ticket.sequence = sequence) :
      Move key sequence (.complete issue reply) .inFlight .cached
  | dropped {issue : Issued} {reply : OrderedTerminalReply}
      (hkey : issue.ticket.streamKey = key)
      (hsequence : issue.ticket.sequence = sequence) :
      Move key sequence (.complete issue reply) .inFlight .expired
  | evicted (issue : Issued) (reply : OrderedTerminalReply) :
      Move key sequence (.complete issue reply) .cached .expired

namespace OrderedIngress

/-- The phase of a sequence, read off the containers one at a time. -/
def HasPhase (ingress : OrderedIngress) (key : StreamKey) (sequence : UInt64) :
    SequencePhase → Prop
  | .ahead => ¬ ingress.Consumed key sequence
  | .inFlight => ∃ entry, ingress.inFlightAt key sequence = some entry
  | .cached => ∃ kept, ingress.cachedAt key sequence = some kept
  | .expired =>
      ingress.Consumed key sequence ∧
        ingress.inFlightAt key sequence = none ∧
        ingress.cachedAt key sequence = none

theorem Consistent.existsUnique_phase {ingress : OrderedIngress}
    (hconsistent : Consistent ingress) (key : StreamKey) (sequence : UInt64) :
    ∃! phase, ingress.HasPhase key sequence phase := by
  have hflight := hconsistent.flight key sequence
  have hcached := hconsistent.cached key sequence
  by_cases hused : ingress.Consumed key sequence
  · cases hentry : ingress.inFlightAt key sequence with
    | some entry =>
        have hnone := (hflight entry hentry).2
        refine ⟨.inFlight, ⟨entry, hentry⟩, fun phase hphase => ?_⟩
        cases phase with
        | ahead => exact absurd hused hphase
        | inFlight => rfl
        | cached => obtain ⟨kept, hkept⟩ := hphase; rw [hnone] at hkept; cases hkept
        | expired => rw [hphase.2.1] at hentry; cases hentry
    | none =>
        cases hkept : ingress.cachedAt key sequence with
        | some kept =>
            refine ⟨.cached, ⟨kept, hkept⟩, fun phase hphase => ?_⟩
            cases phase with
            | ahead => exact absurd hused hphase
            | inFlight =>
                obtain ⟨entry, hfound⟩ := hphase
                rw [hentry] at hfound
                cases hfound
            | cached => rfl
            | expired => rw [hphase.2.2] at hkept; cases hkept
        | none =>
            refine ⟨.expired, ⟨hused, hentry, hkept⟩, fun phase hphase => ?_⟩
            cases phase with
            | ahead => exact absurd hused hphase
            | inFlight =>
                obtain ⟨entry, hfound⟩ := hphase
                rw [hentry] at hfound
                cases hfound
            | cached =>
                obtain ⟨kept, hfound⟩ := hphase
                rw [hkept] at hfound
                cases hfound
            | expired => rfl
  · refine ⟨.ahead, hused, fun phase hphase => ?_⟩
    cases phase with
    | ahead => rfl
    | inFlight =>
        obtain ⟨entry, hentry⟩ := hphase
        exact absurd (hflight entry hentry).1 hused
    | cached =>
        obtain ⟨kept, hkept⟩ := hphase
        exact absurd (hcached kept hkept) hused
    | expired => exact absurd hphase.1 hused

theorem Consistent.phase_unique {ingress : OrderedIngress}
    (hconsistent : Consistent ingress) {key : StreamKey} {sequence : UInt64}
    {left right : SequencePhase} (hleft : ingress.HasPhase key sequence left)
    (hright : ingress.HasPhase key sequence right) : left = right :=
  (hconsistent.existsUnique_phase key sequence).unique hleft hright

/-- The phase depends on three facts about the sequence only. -/
theorem hasPhase_congr {before after : OrderedIngress} {key : StreamKey}
    {sequence : UInt64}
    (hconsumed : after.Consumed key sequence ↔ before.Consumed key sequence)
    (hflight : after.inFlightAt key sequence = before.inFlightAt key sequence)
    (hcached : after.cachedAt key sequence = before.cachedAt key sequence)
    (phase : SequencePhase) :
    after.HasPhase key sequence phase ↔ before.HasPhase key sequence phase := by
  cases phase <;> simp only [HasPhase, hconsumed, hflight, hcached]

end OrderedIngress

/-- A stream with room for another sequence has consumed as many sequences as
its session has executions. -/
theorem Ledger.next_eq {world : IngressWorld} (hledger : Ledger world)
    {key : StreamKey} {next : UInt64}
    (hnext : world.ingress.nextAt key = some next)
    (hfew : (world.executions key).length < 2 ^ 64 - 1) :
    next.toNat = (world.executions key).length + 1 := by
  have hcount := congrArg List.length (hledger.counted key next hnext)
  rw [List.length_map, List.length_range'] at hcount
  have hpos := span_pos next
  by_cases hzero : next = 0
  · subst hzero
    have hspan : span 0 = 2 ^ 64 := rfl
    omega
  · have hspan := span_eq hzero
    omega

section

variable [Infra]

theorem phase_move {before after : IngressWorld} {call : IngressCall}
    (hbefore : Consistent before.ingress) (hafter : Consistent after.ingress)
    (heffect : IngressEffect before call after) {grant : OrderedGrant}
    (hold : grant ∈ before.ingress.grants) (hkept : grant ∈ after.ingress.grants)
    {sequence : UInt64} {phase next : SequencePhase}
    (hphase : before.ingress.HasPhase grant.streamKey sequence phase)
    (hnext : after.ingress.HasPhase grant.streamKey sequence next) :
    SequencePhase.Move grant.streamKey sequence call phase next := by
  have hstay : (∀ phase, after.ingress.HasPhase grant.streamKey sequence phase ↔
      before.ingress.HasPhase grant.streamKey sequence phase) →
      SequencePhase.Move grant.streamKey sequence call phase next := by
    intro hsame
    rw [hbefore.phase_unique hphase ((hsame next).mp hnext)]
    exact .stay call next
  cases heffect with
  | unchanged => exact hstay fun _ => Iff.rfl
  | refused => exact hstay fun _ => Iff.rfl
  | @installed new _ hnew hinstalls =>
      have hne : grant.streamKey ≠ new.streamKey := by
        intro hkey
        exact hnew (hinstalls.fresh grant hkept hkey ▸ hold)
      refine hstay fun phase => hasPhase_congr ?_ ?_ ?_ phase
      · simp only [Consumed, nextAt, hinstalls.windowKept _ hne]
      · simp only [inFlightAt, hinstalls.windowKept _ hne]
      · exact hinstalls.cachedKept _ sequence hne
  | @executed request found _ hgrant hconsumes =>
      by_cases hsame : grant.streamKey = request.streamKey ∧
          sequence = request.sequence
      · obtain ⟨hkey, rfl⟩ := hsame
        have hahead : before.ingress.HasPhase grant.streamKey request.sequence
            .ahead :=
          hkey ▸ not_consumed_next hconsumes.expected hconsumes.valid
        have hflight : after.ingress.HasPhase grant.streamKey request.sequence
            .inFlight :=
          ⟨_, by rw [hconsumes.inFlight, if_pos ⟨hkey, rfl⟩]⟩
        rw [hbefore.phase_unique hphase hahead,
          hafter.phase_unique hnext hflight]
        exact .admitted hkey.symm rfl
      · refine hstay fun phase => hasPhase_congr ?_ ?_ ?_ phase
        · simp [hconsumes.consumed, hsame]
        · rw [hconsumes.inFlight, if_neg hsame]
        · simp only [cachedAt, hconsumes.cached]
  | @ended issue reply entry _ hends =>
      have hconsumed : ∀ key number,
          after.ingress.Consumed key number ↔ before.ingress.Consumed key number := by
        intro key number
        simp only [Consumed, hends.next]
      by_cases hsame : grant.streamKey = issue.ticket.streamKey ∧
          sequence = issue.ticket.sequence
      · obtain ⟨hkey, rfl⟩ := hsame
        have hflight : before.ingress.HasPhase grant.streamKey
            issue.ticket.sequence .inFlight :=
          ⟨entry, hkey ▸ hends.ended⟩
        rw [hbefore.phase_unique hphase hflight]
        cases next with
        | ahead =>
            refine absurd ?_ hnext
            rw [hconsumed, hkey]
            exact (hbefore.flight _ _ entry hends.ended).1
        | inFlight =>
            obtain ⟨found, hfound⟩ := hnext
            rw [hends.inFlight, if_pos ⟨hkey, rfl⟩] at hfound
            cases hfound
        | cached => exact .completed hkey.symm rfl
        | expired => exact .dropped hkey.symm rfl
      · have hinFlight := hends.inFlight grant.streamKey sequence
        rw [if_neg hsame] at hinFlight
        -- The completion may still evict this sequence.
        cases hkeptAfter : after.ingress.cachedAt grant.streamKey sequence with
        | some kept =>
            have hcached := (hends.cached _ _ kept hkeptAfter).resolve_right
              fun h => hsame ⟨h.1, h.2.1⟩
            refine hstay fun phase => hasPhase_congr (hconsumed _ _) hinFlight ?_ phase
            exact hkeptAfter.trans hcached.symm
        | none =>
            cases hkeptBefore : before.ingress.cachedAt grant.streamKey sequence with
            | none =>
                refine hstay fun phase =>
                  hasPhase_congr (hconsumed _ _) hinFlight ?_ phase
                exact hkeptAfter.trans hkeptBefore.symm
            | some kept =>
                have hnotFlight : before.ingress.inFlightAt grant.streamKey
                    sequence = none := by
                  refine Option.eq_none_iff_forall_ne_some.mpr fun found hfound => ?_
                  rw [(hbefore.flight _ _ found hfound).2] at hkeptBefore
                  cases hkeptBefore
                have hused := (hconsumed grant.streamKey sequence).mpr
                  (hbefore.cached _ _ kept hkeptBefore)
                have hcached : before.ingress.HasPhase grant.streamKey sequence
                    .cached := ⟨kept, hkeptBefore⟩
                have hexpired : after.ingress.HasPhase grant.streamKey sequence
                    .expired := ⟨hused, hinFlight.trans hnotFlight, hkeptAfter⟩
                rw [hbefore.phase_unique hphase hcached,
                  hafter.phase_unique hnext hexpired]
                exact .evicted issue reply

/-- The counter of a stream whose grant stays installed never decreases. -/
theorem next_le_next {before after : IngressWorld} {call : IngressCall}
    (hafter : Ledger after) (heffect : IngressEffect before call after)
    {grant : OrderedGrant} (hold : grant ∈ before.ingress.grants)
    (hkept : grant ∈ after.ingress.grants)
    (hfew : (after.executions grant.streamKey).length < 2 ^ 64 - 1)
    {first second : UInt64}
    (hfirst : before.ingress.nextAt grant.streamKey = some first)
    (hsecond : after.ingress.nextAt grant.streamKey = some second) :
    first ≤ second := by
  have hnat := hafter.next_eq hsecond hfew
  have hsame : after.ingress.nextAt grant.streamKey =
      before.ingress.nextAt grant.streamKey → first ≤ second := by
    intro heq
    rw [heq, hfirst] at hsecond
    cases hsecond
    exact UInt64.le_refl _
  cases heffect with
  | unchanged => exact hsame rfl
  | refused => exact hsame rfl
  | @installed new _ hnew hinstalls =>
      have hne : grant.streamKey ≠ new.streamKey := by
        intro hkey
        exact hnew (hinstalls.fresh grant hkept hkey ▸ hold)
      exact hsame (by simp only [nextAt, hinstalls.windowKept _ hne])
  | @executed request found _ hgrant hconsumes =>
      by_cases hkey : grant.streamKey = request.streamKey
      · have hnew := hconsumes.next grant.streamKey
        rw [if_pos hkey] at hnew
        rw [hkey, hconsumes.expected] at hfirst
        cases hfirst
        rw [hnew] at hsecond
        cases hsecond
        have hadd : (request.sequence + 1).toNat =
            (request.sequence.toNat + 1) % 2 ^ 64 := by
          simp [UInt64.toNat_add]
        have hlt := request.sequence.toNat_lt
        exact UInt64.le_iff_toNat_le.mpr (by omega)
      · have hnew := hconsumes.next grant.streamKey
        rw [if_neg hkey] at hnew
        exact hsame hnew
  | ended hends => exact hsame (hends.next _)

theorem complete_inFlight {ingress : OrderedIngress} {ticket : Admission}
    (reply : OrderedTerminalReply) {entry : InFlight} (hkind : ticket.kind = .execute)
    (hflight : ingress.inFlightAt ticket.streamKey ticket.sequence = some entry) :
    (ingress.complete ticket reply).1 = .ok () := by
  obtain ⟨view, hview, hentry⟩ := Option.bind_eq_some_iff.mp hflight
  obtain ⟨state, hlookup, rfl⟩ := Option.map_eq_some_iff.mp hview
  replace hentry : state.inFlight.lookup ticket.sequence = some entry := hentry
  unfold complete
  rw [if_neg (not_not_intro hkind), hlookup]
  dsimp only
  rw [hentry]

theorem completed_phase {world : IngressWorld} (hconsistent : Consistent world.ingress)
    {issue : Issued} (reply : OrderedTerminalReply) (hkind : issue.ticket.kind = .execute)
    (hphase : world.ingress.HasPhase issue.ticket.streamKey issue.ticket.sequence .inFlight) :
    let after := (world.next (.complete issue reply)).ingress
    after.HasPhase issue.ticket.streamKey issue.ticket.sequence .cached ∨
      after.HasPhase issue.ticket.streamKey issue.ticket.sequence .expired := by
  intro after
  obtain ⟨entry, hentry⟩ := hphase
  have hends : ∃ found, Ends issue.ticket.streamKey issue.ticket.sequence found
      (terminalReply reply) world.ingress after := by
    obtain ⟨error, hrefused⟩ | ⟨found, -, -, hends, -⟩ :=
      complete_cases hconsistent issue.ticket reply
    · have hdone := complete_inFlight reply hkind hentry
      rw [hrefused] at hdone
      cases hdone
    · exact ⟨found, hends⟩
  obtain ⟨found, hends⟩ := hends
  have hconsumed : after.Consumed issue.ticket.streamKey issue.ticket.sequence := by
    obtain ⟨next, hnext, hspan⟩ := (hconsistent.flight _ _ entry hentry).1
    exact ⟨next, (hends.next _).trans hnext, hspan⟩
  have hnone : after.inFlightAt issue.ticket.streamKey issue.ticket.sequence = none := by
    rw [hends.inFlight, if_pos ⟨rfl, rfl⟩]
  cases hkept : after.cachedAt issue.ticket.streamKey issue.ticket.sequence with
  | some kept => exact .inl ⟨kept, hkept⟩
  | none => exact .inr ⟨hconsumed, hnone, hkept⟩

/-- In every run whose erased fronts last, between the installation of a grant and its
revocation the admissions for execution carry the sequences 1, 2, 3, and so on, the counter
stands one past the last of them and never decreases, every sequence is in exactly one phase
and only moves forward, and a completion ends the phase in flight. -/
theorem session_executes_in_order {world : TracedWorld} {grant : OrderedGrant}
    (hreach : tracedMachine.ReachableWhere KeepsFronts world)
    (hgrant : grant ∈ world.ingress.grants)
    (hfew : (world.ingressWorld.executions grant.streamKey).length < 2 ^ 64 - 1) :
    (world.ingressWorld.executions grant.streamKey).map
        (fun issue => issue.ticket.sequence.toNat) =
      List.range' 1 (world.ingressWorld.executions grant.streamKey).length ∧
    (∃ next, world.ingress.nextAt grant.streamKey = some next ∧
      next.toNat = (world.ingressWorld.executions grant.streamKey).length + 1) ∧
    (∀ sequence, ∃! phase,
      world.ingress.HasPhase grant.streamKey sequence phase) ∧
    (∀ sequence, ¬ world.ingress.HasPhase grant.streamKey sequence .ahead ↔
      sequence.toNat ∈ (world.ingressWorld.executions grant.streamKey).map
        (fun issue => issue.ticket.sequence.toNat)) ∧
    (∀ call after, KeepsFronts world call → tracedMachine.next world call = some after →
      grant ∈ after.ingress.grants →
      (after.ingressWorld.executions grant.streamKey).length < 2 ^ 64 - 1 →
      (∀ first second, world.ingress.nextAt grant.streamKey = some first →
        after.ingress.nextAt grant.streamKey = some second → first ≤ second) ∧
      (∀ sequence phase next,
        world.ingress.HasPhase grant.streamKey sequence phase →
        after.ingress.HasPhase grant.streamKey sequence next →
        SequencePhase.Move grant.streamKey sequence call.ingressCall phase next)) ∧
    (∀ issue reply stale after, KeepsFronts world (.complete issue reply stale) →
      tracedMachine.next world (.complete issue reply stale) = some after →
      issue.ticket.kind = .execute → issue.ticket.streamKey = grant.streamKey →
      world.ingress.HasPhase grant.streamKey issue.ticket.sequence .inFlight →
      after.ingress.HasPhase grant.streamKey issue.ticket.sequence .cached ∨
        after.ingress.HasPhase grant.streamKey issue.ticket.sequence .expired) := by
  obtain ⟨hholds, hvalue⟩ := reachable_by_value hreach
  have hconsistent : Consistent world.ingressWorld.ingress := hholds.consistent
  have hledger := reachable_ledger hvalue
  obtain ⟨view, hview⟩ := hconsistent.exists_window hgrant
  have hnext : world.ingress.nextAt grant.streamKey = some view.1 :=
    congrArg (Option.map Prod.fst) hview
  have hnat := hledger.next_eq hnext hfew
  have hspan : span view.1 =
      (world.ingressWorld.executions grant.streamKey).length + 1 := by
    rw [← hnat]
    refine span_eq fun hzero => ?_
    rw [hzero] at hnat
    cases hnat
  have hcounted := hledger.counted _ _ hnext
  rw [hspan, Nat.add_sub_cancel] at hcounted
  refine ⟨hcounted, ⟨view.1, hnext, hnat⟩,
    hconsistent.existsUnique_phase grant.streamKey, fun sequence => ?_, ?_, ?_⟩
  · rw [hcounted, List.mem_range'_1]
    simp only [HasPhase, not_not, Consumed, hnext, Option.some.injEq,
      exists_eq_left', hspan]
    omega
  · intro call after hlasts hcall hkept hfewAfter
    cases hcall
    have hafterWorld := TracedWorld.next_ingressWorld hholds hlasts
    obtain ⟨heffect, hafter⟩ := next_effect hconsistent call.ingressCall
    have hreachAfter := reachable_next hvalue call.ingressCall
    rw [← hafterWorld] at heffect hafter hreachAfter
    refine ⟨fun first second hfirst hsecond => ?_,
      fun sequence phase next hphase hnextPhase => ?_⟩
    · exact next_le_next (reachable_ledger hreachAfter) heffect hgrant hkept
        hfewAfter hfirst hsecond
    · exact phase_move hconsistent hafter heffect hgrant hkept hphase hnextPhase
  · intro issue reply stale after hlasts hcall hkind hkey hphase
    cases hcall
    have hended := completed_phase hconsistent reply hkind (hkey ▸ hphase)
    rw [hkey] at hended
    have hsame : (world.next (.complete issue reply stale)).ingress =
        (world.ingressWorld.next (.complete issue reply)).ingress :=
      congrArg IngressWorld.ingress (TracedWorld.next_ingressWorld hholds hlasts)
    rw [hsame]
    exact hended

end

/-- A cache of two replies loses the oldest one, whose front still reads as its key. -/
theorem session_executes_in_order_sample :
    letI := permissiveInfra
    let grant := sampleGrant "r2"
    ∃ world, tracedMachine.ReachableWhere KeepsFronts world ∧ grant ∈ world.ingress.grants ∧
      world.cache.traced.removals.length = 2 ∧
      (world.ingressWorld.executions grant.streamKey).map
        (fun issue => issue.ticket.sequence.toNat) = [1] ∧
      ∀ sequence, ∃! phase, world.ingress.HasPhase grant.streamKey sequence phase := by
  let _ := permissiveInfra
  intro grant
  have hboot : tracedMachine.ReachableWhere KeepsFronts (sampleTraced 2) :=
    sampleTraced_reachable (by decide)
  obtain ⟨world, hreach, htest⟩ := hboot.exec_any
    (fun world call => decide (KeepsFronts world call)) (fun _ _ => of_decide_eq_true)
    (crossedCalls ⟨(hallRequest 1 "h").streamKey, 1⟩ "b")
    (fun world => grant ∈ world.ingress.grants ∧ world.cache.traced.removals.length = 2 ∧
      (world.ingressWorld.executions grant.streamKey).map
        (fun issue => issue.ticket.sequence.toNat) = [1])
    (by decide)
  obtain ⟨hgrant, hremovals, hexecuted⟩ := of_decide_eq_true htest
  have hone := congrArg List.length hexecuted
  rw [List.length_map] at hone
  have horder := session_executes_in_order hreach hgrant (by rw [hone]; decide)
  exact ⟨world, hreach, hgrant, hremovals, hexecuted, horder.2.2.1⟩

/-- The eviction of a reply of `hall` reads the key of a reply of `room`.  The revocation of
`room` then leaves that reply in the cache, and the first sequence of its next session is in
flight and cached at once. -/
theorem session_executes_out_of_phase :
    letI := permissiveInfra
    let grant := sampleGrant "r2"
    ∃ world, tracedMachine.Reachable world ∧ grant ∈ world.ingress.grants ∧
      (world.ingressWorld.executions grant.streamKey).length = 1 ∧
      ¬ world.ingress.HasPhase grant.streamKey 1 .ahead ∧
      ¬ ∃! phase, world.ingress.HasPhase grant.streamKey 1 phase := by
  let _ := permissiveInfra
  intro grant
  have hboot : tracedMachine.Reachable (sampleTraced 2) := sampleTraced_reachable (by decide)
  obtain ⟨world, hreach, htest⟩ := hboot.exec_any (fun _ _ => true) (fun _ _ _ => trivial)
    (crossedCalls (sampleKey 1) "b")
    (fun world => grant ∈ world.ingress.grants ∧
      (world.ingressWorld.executions grant.streamKey).length = 1 ∧
      world.ingress.nextAt grant.streamKey = some 2 ∧
      (world.ingress.inFlightAt grant.streamKey 1).isSome = true ∧
      (world.ingress.cachedAt grant.streamKey 1).isSome = true)
    (by decide)
  obtain ⟨hgrant, hone, hnext, hflight, hkept⟩ := of_decide_eq_true htest
  have hflying : world.ingress.HasPhase grant.streamKey 1 .inFlight :=
    Option.isSome_iff_exists.mp hflight
  have hcached : world.ingress.HasPhase grant.streamKey 1 .cached :=
    Option.isSome_iff_exists.mp hkept
  refine ⟨world, hreach, hgrant, hone, ?_, fun honce => ?_⟩
  · exact not_not_intro ⟨2, hnext, by decide, by decide⟩
  · cases honce.unique hflying hcached

end BbtFramework.Ordered
