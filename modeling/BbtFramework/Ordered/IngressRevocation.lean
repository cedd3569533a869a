import BbtFramework.Ordered.IngressLedger

/-!
# Revoked sessions

Revocation removes a grant and leaves no trace of it, so a grant that names a
revoked receiver epoch once more is installed like a new one, and its stream
starts again at sequence 1.  As long as no grant call does that, a revoked
epoch is never served again and every sequence of a full stream identity is
admitted for execution at most once.
-/

namespace BbtFramework.Ordered

open BbtFramework.Library
open OrderedIngress

/-- The full stream identity of an admission, without the service, which is the
same for the whole ingress, and its sequence. -/
def Issued.identity (issue : Issued) : StreamKey × String × UInt64 :=
  (issue.request.streamKey, issue.request.receiverEpoch, issue.request.sequence)

/-- Each sequence of a full stream identity is admitted at most once. -/
def AdmitsOnce (world : IngressWorld) : Prop :=
  (world.issued.map Issued.identity).Nodup

/-- A grant call does not name a stream identity revoked earlier. -/
def FreshEpoch (world : IngressWorld) : IngressCall → Prop
  | .grant grant => ∀ old ∈ world.revoked, sameOrderedStreamId old grant = false
  | _ => True

instance (world : IngressWorld) :
    (call : IngressCall) → Decidable (FreshEpoch world call)
  | .grant grant => inferInstanceAs (Decidable
      (∀ old ∈ world.revoked, sameOrderedStreamId old grant = false))
  | .admitRequest _ => inferInstanceAs (Decidable True)
  | .complete _ _ => inferInstanceAs (Decidable True)

/-- No request of a revoked epoch is executed or answered from the cache. -/
def RevokedStayRejected [Infra] (world : IngressWorld) : Prop :=
  ∀ old ∈ world.revoked, ∀ request : OrderedIngressRequest,
    request.streamKey = old.streamKey →
    request.receiverEpoch = old.receiverEpoch →
    ∀ ticket, (world.ingress.admitRequest request).1 ≠ .ok ticket

/-- No installed grant was revoked before, and every admission belongs to the
current session of an installed grant or to a revoked one. -/
structure RevokedApart (world : IngressWorld) : Prop where
  service : ∀ old ∈ world.revoked, old.service = world.ingress.config.service
  apart : ∀ old ∈ world.revoked, ∀ grant ∈ world.ingress.grants,
    old.streamKey = grant.streamKey → old.receiverEpoch ≠ grant.receiverEpoch
  placed : ∀ issue ∈ world.issued,
    (∃ grant ∈ world.ingress.grants,
      issue.request.streamKey = grant.streamKey ∧
      issue.request.receiverEpoch = grant.receiverEpoch ∧
      issue.session = world.session grant.streamKey) ∨
    (∃ old ∈ world.revoked, issue.request.streamKey = old.streamKey ∧
      issue.request.receiverEpoch = old.receiverEpoch)
  once : AdmitsOnce world

theorem RevokedApart.installed {before after : IngressWorld}
    (hapart : RevokedApart before) (hconsistent : Consistent before.ingress)
    (hafter : Consistent after.ingress) {grant : OrderedGrant}
    (hnew : grant ∉ before.ingress.grants)
    (hfresh : ∀ old ∈ before.revoked, sameOrderedStreamId old grant = false)
    (hinstalls : Installs grant before.ingress after.ingress)
    (hlist : after.installs = before.installs ++ [grant])
    (hrevoked : after.revoked = before.revoked ++
      before.ingress.grants.filter (fun old => old ∉ after.ingress.grants))
    (hissued : after.issued = before.issued) : RevokedApart after := by
  have hmem : ∀ old, old ∈ after.ingress.grants ↔
      (old ∈ before.ingress.grants ∧ supersededBy grant old = false) ∨
        old = grant := by
    intro old
    simp [hinstalls.grants]
  have hgone : ∀ old, old ∈ after.revoked ↔ old ∈ before.revoked ∨
      (old ∈ before.ingress.grants ∧ old ∉ after.ingress.grants) := by
    intro old
    simp [hrevoked]
  have hnewService : grant.service = before.ingress.config.service := by
    rw [← hinstalls.config]
    exact hafter.service grant ((hmem grant).mpr (Or.inr rfl))
  refine ⟨?_, ?_, ?_, ?_⟩
  · intro old hold
    rw [hinstalls.config]
    rcases (hgone old).mp hold with hbefore | ⟨hbefore, -⟩
    · exact hapart.service old hbefore
    · exact hconsistent.service old hbefore
  · intro old hold current hcurrent hkey hepoch
    rcases (hgone old).mp hold with hbefore | ⟨hbefore, hlost⟩ <;>
      rcases (hmem current).mp hcurrent with ⟨hkept, -⟩ | rfl
    · exact hapart.apart old hbefore current hkept hkey hepoch
    · have hsame := hfresh old hbefore
      rw [sameOrderedStreamId_iff.mpr ⟨(hapart.service old hbefore).trans
        hnewService.symm, hkey, hepoch⟩] at hsame
      cases hsame
    · exact hlost (hconsistent.grant_unique hbefore hkept hkey ▸ hcurrent)
    · refine hlost ((hmem old).mpr (Or.inl ⟨hbefore, ?_⟩))
      rw [Bool.eq_false_iff]
      exact fun hsuper => (supersededBy_iff.mp hsuper).2 hepoch
  · intro issue hissue
    rw [hissued] at hissue
    rcases hapart.placed issue hissue with
      ⟨current, hcurrent, hkey, hepoch, hsession⟩ | ⟨old, hold, hrest⟩
    · by_cases hkept : current ∈ after.ingress.grants
      · have hne : grant.streamKey ≠ current.streamKey := by
          intro hsame
          exact hnew (hinstalls.fresh current hkept hsame.symm ▸ hcurrent)
        refine .inl ⟨current, hkept, hkey, hepoch, ?_⟩
        rw [before.session_append grant _ hlist, if_neg hne, hsession]
        rfl
      · exact .inr ⟨current, (hgone current).mpr (Or.inr ⟨hcurrent, hkept⟩),
          hkey, hepoch⟩
    · exact .inr ⟨old, (hgone old).mpr (Or.inl hold), hrest⟩
  · rw [AdmitsOnce, hissued]
    exact hapart.once

theorem RevokedApart.executed {before after : IngressWorld}
    (hapart : RevokedApart before) (hledger : Ledger before)
    {request : OrderedIngressRequest} {grant : OrderedGrant}
    (hgrant : before.ingress.Authorizes request grant)
    (hconsumes : Consumes request before.ingress after.ingress)
    (hissued : after.issued = before.issued ++
      [⟨executeAdmission request, request, before.session request.streamKey⟩])
    (hlist : after.installs = before.installs)
    (hrevoked : after.revoked = before.revoked) : RevokedApart after := by
  have hsession : ∀ key, after.session key = before.session key := by
    intro key
    simp only [IngressWorld.session, hlist]
  refine ⟨?_, ?_, ?_, ?_⟩
  · rw [hrevoked, hconsumes.config]
    exact hapart.service
  · rw [hrevoked, hconsumes.grants]
    exact hapart.apart
  · intro issue hissue
    simp only [hsession, hconsumes.grants, hrevoked]
    rw [hissued] at hissue
    rcases List.mem_append.mp hissue with hold | hnew
    · exact hapart.placed issue hold
    · obtain rfl := List.mem_singleton.mp hnew
      exact .inl ⟨grant, hgrant.1, hgrant.2.1.symm, hgrant.2.2.1.symm,
        by rw [hgrant.2.1]⟩
  · rw [AdmitsOnce, hissued, List.map_append, List.nodup_append]
    refine ⟨hapart.once, List.nodup_singleton _, ?_⟩
    intro identity hidentity other hother heq
    obtain ⟨issue, hissue, rfl⟩ := List.mem_map.mp hidentity
    rw [List.map_singleton, List.mem_singleton] at hother
    rw [hother] at heq
    obtain ⟨hkey, hepoch, hsequence⟩ :
        issue.request.streamKey = request.streamKey ∧
        issue.request.receiverEpoch = request.receiverEpoch ∧
        issue.request.sequence = request.sequence := by
      simpa [Issued.identity] using heq
    have hticket := (hledger.wellFormed issue hissue).1
    rcases hapart.placed issue hissue with
      ⟨current, -, hcurrentKey, -, hcurrent⟩ | ⟨old, hold, holdKey, holdEpoch⟩
    · -- Same session: its admissions stop short of the counter.
      have hstream : issue.ticket.streamKey = request.streamKey := by
        rw [hticket]
        exact hkey
      have hexecution : issue ∈ before.executions request.streamKey := by
        refine IngressWorld.mem_executions.mpr ⟨hissue, hstream, ?_⟩
        rw [hcurrent, ← hcurrentKey, hkey]
      have hcounted := hledger.counted _ _ hconsumes.expected
      have hin := List.mem_map_of_mem
        (f := fun issue : Issued => issue.ticket.sequence.toNat) hexecution
      rw [hcounted, List.mem_range'_1, hticket, span_eq hconsumes.valid] at hin
      simp only [executeAdmission, hsequence] at hin
      omega
    · refine hapart.apart old hold grant hgrant.1 ?_ ?_
      · rw [← holdKey, hkey, hgrant.2.1]
      · rw [← holdEpoch, hepoch, hgrant.2.2.1]

section

variable [Infra]

theorem reachable_revokedApart {world : IngressWorld}
    (hreach : ingressMachine.ReachableWhere FreshEpoch world) :
    RevokedApart world := by
  refine reachable_effect_induct ?_ ?_ hreach
  · intro config
    exact ⟨by simp, by simp, by simp, List.nodup_nil⟩
  · intro before call after hbefore hapart hguard heffect hafter
    cases heffect with
    | unchanged => exact hapart
    | installed hnew hinstalls hlist hrevoked hissued =>
        exact hapart.installed (reachable_consistent hbefore) hafter hnew hguard
          hinstalls hlist hrevoked hissued
    | executed hgrant hconsumes hissued hlist hrevoked =>
        exact hapart.executed (reachable_ledger hbefore) hgrant hconsumes hissued
          hlist hrevoked
    | refused => exact ⟨hapart.service, hapart.apart, hapart.placed, hapart.once⟩
    | ended hends hissued hlist hrevoked =>
        refine ⟨?_, ?_, ?_, ?_⟩
        · rw [hrevoked, hends.config]
          exact hapart.service
        · rw [hrevoked, hends.grants]
          exact hapart.apart
        · simpa only [hissued, hends.grants, hrevoked, IngressWorld.session, hlist]
            using hapart.placed
        · rw [AdmitsOnce, hissued]
          exact hapart.once

/-- In every run whose grant calls name no revoked identity, revoked epochs are
never served again and each sequence is admitted for execution once. -/
theorem revoked_stay_rejected {world : IngressWorld}
    (hreach : ingressMachine.ReachableWhere FreshEpoch world) :
    RevokedStayRejected world ∧ AdmitsOnce world := by
  have hapart := reachable_revokedApart hreach
  refine ⟨fun old hold request hkey hepoch ticket hadmitted => ?_, hapart.once⟩
  have hserved : ∃ grant, world.ingress.Authorizes request grant := by
    rcases admit_cases (reachable_consistent hreach) request with
      ⟨error, hrefused⟩ | ⟨_, _, grant, -, -, -, hgrant, -⟩ | ⟨grant, hgrant, -⟩
    · rw [hrefused] at hadmitted
      cases hadmitted
    · exact ⟨grant, hgrant⟩
    · exact ⟨grant, hgrant⟩
  obtain ⟨grant, hmem, hgrantKey, hgrantEpoch, -⟩ := hserved
  refine hapart.apart old hold grant hmem ?_ ?_
  · rw [← hkey, hgrantKey]
  · rw [← hepoch, hgrantEpoch]

end

/-- After a switch from `r1` to `r2` a request of `r1` is refused. -/
theorem revoked_stay_rejected_sample :
    letI := permissiveInfra
    let world := sampleWorld.after
      [.grant (sampleGrant "r1"), .admitRequest (sampleRequest "r1" 1 "a"),
        .grant (sampleGrant "r2"), .admitRequest (sampleRequest "r2" 1 "b")]
    sampleGrant "r1" ∈ world.revoked ∧ RevokedStayRejected world ∧
      AdmitsOnce world := by
  let _ := permissiveInfra
  intro world
  have hreach : ingressMachine.ReachableWhere FreshEpoch world :=
    reachable_after (fun _ _ => of_decide_eq_true) sample_init _ (by decide)
  exact ⟨by decide, revoked_stay_rejected hreach⟩

/-- Granting `r1` again after `r2` executes sequence 1 of `r1` a second time. -/
theorem regranted_epoch_executes_again :
    letI := permissiveInfra
    let world := sampleWorld.after
      [.grant (sampleGrant "r1"), .admitRequest (sampleRequest "r1" 1 "a"),
        .grant (sampleGrant "r2"), .grant (sampleGrant "r1")]
    ingressMachine.Reachable world ∧ sampleGrant "r1" ∈ world.revoked ∧
      (world.ingress.admitRequest (sampleRequest "r1" 1 "a")).1 =
        .ok (executeAdmission (sampleRequest "r1" 1 "a")) ∧
      ¬ RevokedStayRejected world ∧
      ¬ AdmitsOnce (world.next (.admitRequest (sampleRequest "r1" 1 "a"))) := by
  let _ := permissiveInfra
  intro world
  have hadmitted : (world.ingress.admitRequest (sampleRequest "r1" 1 "a")).1 =
      .ok (executeAdmission (sampleRequest "r1" 1 "a")) := by decide
  have hold : sampleGrant "r1" ∈ world.revoked := by decide
  refine ⟨sample_reachable _, hold, hadmitted, fun hrejected => ?_, ?_⟩
  · exact hrejected _ hold _ rfl rfl _ hadmitted
  · unfold AdmitsOnce
    decide

end BbtFramework.Ordered
