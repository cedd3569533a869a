import BbtFramework.Ordered.IngressRun

/-!
# The ledger of a run

What the ingress remembers agrees with the history of the run: within a session
the admissions for execution count up from 1 to the counter, and every request
in flight or cached is one of them.
-/

namespace BbtFramework.Ordered

open BbtFramework.Library
open OrderedIngress

namespace IngressWorld

theorem session_append (world : IngressWorld) (grant : OrderedGrant)
    (key : StreamKey) {after : IngressWorld}
    (hinstalls : after.installs = world.installs ++ [grant]) :
    after.session key =
      world.session key + if grant.streamKey = key then 1 else 0 := by
  simp only [session, hinstalls, List.filter_append, List.length_append]
  by_cases hkey : grant.streamKey = key <;> simp [hkey]

theorem executions_congr {world after : IngressWorld}
    (hissued : after.issued = world.issued)
    (hinstalls : after.installs = world.installs) (key : StreamKey) :
    after.executions key = world.executions key := by
  have hsession : after.session key = world.session key := by
    simp only [session, hinstalls]
  simp only [executions, hsession, hissued]

theorem mem_executions {world : IngressWorld} {key : StreamKey} {issue : Issued} :
    issue ∈ world.executions key ↔ issue ∈ world.issued ∧
      issue.ticket.streamKey = key ∧ issue.session = world.session key := by
  simp [executions]

theorem executions_executed {world after : IngressWorld}
    {request : OrderedIngressRequest}
    (hissued : after.issued = world.issued ++
      [⟨executeAdmission request, request, world.session request.streamKey⟩])
    (hinstalls : after.installs = world.installs) (key : StreamKey) :
    after.executions key =
      if key = request.streamKey then
        world.executions key ++
          [⟨executeAdmission request, request, world.session request.streamKey⟩]
      else world.executions key := by
  have hsession : after.session key = world.session key := by
    simp only [session, hinstalls]
  have hticket : (executeAdmission request).streamKey = request.streamKey := rfl
  simp only [executions, hsession, hissued, List.filter_append]
  by_cases hkey : key = request.streamKey
  · subst hkey
    simp [hticket]
  · simp [hkey, hticket, Ne.symm hkey]

end IngressWorld

/-- The history agrees with the ingress. -/
structure Ledger (world : IngressWorld) : Prop where
  wellFormed : ∀ issue ∈ world.issued,
    issue.ticket = executeAdmission issue.request ∧
      issue.session ≤ world.session issue.ticket.streamKey
  counted : ∀ key next, world.ingress.nextAt key = some next →
    (world.executions key).map (fun issue => issue.ticket.sequence.toNat) =
      List.range' 1 (span next - 1)
  epoch : ∀ grant ∈ world.ingress.grants,
    ∀ issue ∈ world.executions grant.streamKey,
      issue.request.receiverEpoch = grant.receiverEpoch
  flight : ∀ key sequence entry,
    world.ingress.inFlightAt key sequence = some entry →
      ∃ issue ∈ world.executions key, issue.ticket.sequence = sequence ∧
        entry.requestId = issue.request.requestId ∧
        entry.digest = issue.request.requestDigest
  cached : ∀ key sequence kept,
    world.ingress.cachedAt key sequence = some kept →
      ∃ issue ∈ world.executions key, issue.ticket.sequence = sequence ∧
        kept.requestId = issue.request.requestId ∧
        kept.digest = issue.request.requestDigest

theorem Ledger.initial (config : OrderedIngressConfig) :
    Ledger { ingress := { config := config } } := by
  refine ⟨by simp, ?_, by simp, ?_, ?_⟩
  · intro key next hnext
    simp [nextAt, window] at hnext
  · intro key sequence entry hentry
    simp [inFlightAt, window] at hentry
  · intro key sequence kept hkept
    simp [cachedAt] at hkept

/-- A new session of a stream starts with no executions. -/
theorem Ledger.executions_installed {world after : IngressWorld}
    (hledger : Ledger world) {grant : OrderedGrant}
    (hissued : after.issued = world.issued)
    (hinstalls : after.installs = world.installs ++ [grant]) (key : StreamKey) :
    after.executions key =
      if key = grant.streamKey then [] else world.executions key := by
  have hsession := world.session_append grant key hinstalls
  split
  case isTrue hkey =>
    rw [if_pos hkey.symm] at hsession
    rw [List.eq_nil_iff_forall_not_mem]
    intro issue hmem
    obtain ⟨hold, hstream, hnumber⟩ := IngressWorld.mem_executions.mp hmem
    rw [hissued] at hold
    have hle := (hledger.wellFormed issue hold).2
    rw [hstream] at hle
    omega
  case isFalse hkey =>
    rw [if_neg (fun h => hkey h.symm), Nat.add_zero] at hsession
    simp only [IngressWorld.executions, hissued, hsession]

theorem Ledger.installed {before after : IngressWorld} (hledger : Ledger before)
    {grant : OrderedGrant} (hissued : after.issued = before.issued)
    (hinstallList : after.installs = before.installs ++ [grant])
    (hinstalls : Installs grant before.ingress after.ingress) : Ledger after := by
  have hexecutions := hledger.executions_installed hissued hinstallList
  refine ⟨?_, ?_, ?_, ?_, ?_⟩
  · intro issue hissue
    rw [hissued] at hissue
    obtain ⟨hticket, hle⟩ := hledger.wellFormed issue hissue
    rw [before.session_append grant _ hinstallList]
    exact ⟨hticket, hle.trans (Nat.le_add_right _ _)⟩
  · intro key next hnext
    rw [hexecutions]
    split
    case isTrue hkey =>
      subst hkey
      simp only [nextAt, hinstalls.windowNew, Option.map_some,
        Option.some.injEq] at hnext
      subst hnext
      rfl
    case isFalse hkey =>
      refine hledger.counted key next ?_
      simpa only [nextAt, hinstalls.windowKept key hkey] using hnext
  · intro old hold issue hissue
    rw [hexecutions] at hissue
    split at hissue
    · cases hissue
    case isFalse hkey =>
      refine hledger.epoch old ?_ issue hissue
      rw [hinstalls.grants] at hold
      rcases List.mem_append.mp hold with hmem | hmem
      · exact (List.mem_filter.mp hmem).1
      · exact absurd (by rw [List.mem_singleton.mp hmem]) hkey
  · intro key sequence entry hentry
    rw [hexecutions]
    split
    case isTrue hkey =>
      subst hkey
      simp [inFlightAt, hinstalls.windowNew] at hentry
    case isFalse hkey =>
      refine hledger.flight key sequence entry ?_
      simpa only [inFlightAt, hinstalls.windowKept key hkey] using hentry
  · intro key sequence kept hkept
    obtain ⟨hkey, hold⟩ := hinstalls.cached hkept
    rw [hexecutions, if_neg hkey]
    exact hledger.cached key sequence kept hold

theorem Ledger.executed {before after : IngressWorld} (hledger : Ledger before)
    {request : OrderedIngressRequest} {grant : OrderedGrant}
    (hconsistent : Consistent before.ingress)
    (hgrant : before.ingress.Authorizes request grant)
    (hconsumes : Consumes request before.ingress after.ingress)
    (hissued : after.issued = before.issued ++
      [⟨executeAdmission request, request, before.session request.streamKey⟩])
    (hinstalls : after.installs = before.installs) : Ledger after := by
  have hexecutions := IngressWorld.executions_executed hissued hinstalls
  have hsession : ∀ key, after.session key = before.session key := by
    intro key
    simp only [IngressWorld.session, hinstalls]
  have hkeeps : ∀ key issue, issue ∈ before.executions key →
      issue ∈ after.executions key := by
    intro key issue hissue
    rw [hexecutions]
    split
    · exact List.mem_append_left _ hissue
    · exact hissue
  refine ⟨?_, ?_, ?_, ?_, ?_⟩
  · intro issue hissue
    rw [hsession]
    rw [hissued] at hissue
    rcases List.mem_append.mp hissue with hmem | hmem
    · exact hledger.wellFormed issue hmem
    · rw [List.mem_singleton.mp hmem]
      exact ⟨rfl, le_rfl⟩
  · intro key next hnext
    rw [hconsumes.next] at hnext
    rw [hexecutions]
    by_cases hkey : key = request.streamKey
    · subst hkey
      rw [if_pos rfl, Option.some.injEq] at hnext
      subst hnext
      have hcount := hledger.counted _ _ hconsumes.expected
      have hspan := span_eq hconsumes.valid
      have hpos := span_pos request.sequence
      rw [if_pos rfl, List.map_append, hcount, span_succ hconsumes.valid]
      obtain ⟨count, hlast⟩ : ∃ count, span request.sequence = count + 1 :=
        ⟨span request.sequence - 1, by omega⟩
      have hsequence : request.sequence.toNat = count + 1 := hspan ▸ hlast
      simp only [hlast, Nat.add_sub_cancel, List.range'_concat, List.map_cons,
        List.map_nil, executeAdmission, hsequence, Nat.one_mul, Nat.add_comm 1]
    · rw [if_neg hkey] at hnext ⊢
      exact hledger.counted key next hnext
  · intro old hold issue hissue
    rw [hconsumes.grants] at hold
    rw [hexecutions] at hissue
    split at hissue
    case isTrue hkey =>
      rcases List.mem_append.mp hissue with hmem | hmem
      · exact hledger.epoch old hold issue hmem
      · rw [List.mem_singleton.mp hmem]
        have hsame : old = grant :=
          hconsistent.grant_unique hold hgrant.1 (hkey.trans hgrant.2.1.symm)
        rw [hsame]
        exact hgrant.2.2.1.symm
    case isFalse => exact hledger.epoch old hold issue hissue
  · intro key sequence entry hentry
    rw [hconsumes.inFlight] at hentry
    split at hentry
    case isTrue hnew =>
      obtain ⟨rfl, rfl⟩ := hnew
      cases hentry
      refine ⟨⟨executeAdmission request, request,
        before.session request.streamKey⟩, ?_, rfl, rfl, rfl⟩
      rw [hexecutions, if_pos rfl]
      exact List.mem_append_right _ (List.mem_singleton.mpr rfl)
    case isFalse =>
      obtain ⟨issue, hissue, hrest⟩ := hledger.flight key sequence entry hentry
      exact ⟨issue, hkeeps key issue hissue, hrest⟩
  · intro key sequence kept hkept
    rw [cachedAt, hconsumes.cached] at hkept
    obtain ⟨issue, hissue, hrest⟩ := hledger.cached key sequence kept hkept
    exact ⟨issue, hkeeps key issue hissue, hrest⟩

theorem Ledger.ended {before after : IngressWorld} (hledger : Ledger before)
    {key : StreamKey} {sequence : UInt64} {entry : InFlight}
    {reply : OrderedTerminalReply}
    (hends : Ends key sequence entry reply before.ingress after.ingress)
    (hissued : after.issued = before.issued)
    (hinstalls : after.installs = before.installs) : Ledger after := by
  have hexecutions := IngressWorld.executions_congr hissued hinstalls
  refine ⟨?_, ?_, ?_, ?_, ?_⟩
  · intro issue hissue
    rw [hissued] at hissue
    simpa only [IngressWorld.session, hinstalls] using
      hledger.wellFormed issue hissue
  · intro other next hnext
    rw [hexecutions]
    exact hledger.counted other next (by rw [← hends.next]; exact hnext)
  · intro grant hgrant issue hissue
    rw [hexecutions] at hissue
    rw [hends.grants] at hgrant
    exact hledger.epoch grant hgrant issue hissue
  · intro other number found hfound
    rw [hexecutions]
    rw [hends.inFlight] at hfound
    split at hfound
    · cases hfound
    · exact hledger.flight other number found hfound
  · intro other number kept hkept
    rw [hexecutions]
    rcases hends.cached other number kept hkept with hold | ⟨rfl, rfl, rfl⟩
    · exact hledger.cached other number kept hold
    · exact hledger.flight _ _ entry hends.ended

section

variable [Infra]

theorem reachable_ledger {guard : IngressWorld → IngressCall → Prop}
    {world : IngressWorld}
    (hreach : ingressMachine.ReachableWhere guard world) : Ledger world := by
  refine reachable_effect_induct Ledger.initial ?_ hreach
  intro before call after hbefore hledger _ heffect _
  have hconsistent := reachable_consistent hbefore
  cases heffect with
  | unchanged => exact hledger
  | installed hnew hinstalls hlist _ hissued =>
      exact hledger.installed hissued hlist hinstalls
  | executed hgrant hconsumes hissued hlist =>
      exact hledger.executed hconsistent hgrant hconsumes hissued hlist
  | refused =>
      exact ⟨hledger.wellFormed, hledger.counted, hledger.epoch, hledger.flight,
        hledger.cached⟩
  | ended hends hissued hlist => exact hledger.ended hends hissued hlist

end

end BbtFramework.Ordered
