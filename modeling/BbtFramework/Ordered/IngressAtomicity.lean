import BbtFramework.Ordered.IngressRun

/-!
# Refused calls leave no trace

`GrantStream` revokes the grants it supersedes before it looks at the capacity,
and `Admit` reaches into the stream map before its last rejections.  Neither
shows: a superseded grant leaves the room its successor needs, and an authorized
request belongs to a granted stream, whose state exists already.
-/

namespace BbtFramework.Ordered

open BbtFramework.Library

namespace OrderedIngress

section

variable [Infra]

theorem orderedDomainError_not_overloaded (domainCode message : String) :
    (orderedDomainError domainCode message).code ≠ .overloaded :=
  ErrorCode.noConfusion

/-- A grant refused for capacity supersedes no installed grant. -/
theorem grantStream_overloaded {ingress : OrderedIngress}
    (hconsistent : Consistent ingress) {grant : OrderedGrant} {error : Error}
    (hrefused : (ingress.grantStream grant).1 = .error error)
    (hcode : error.code = .overloaded) :
    ∀ old ∈ ingress.grants, supersededBy grant old = false := by
  have hinvalid : ∀ message, makeError .invalidArgument message ≠ error := by
    rintro message rfl
    cases hcode
  unfold grantStream at hrefused
  split at hrefused
  · exact absurd (Except.error.inj hrefused) (hinvalid _)
  split at hrefused
  · exact absurd (Except.error.inj hrefused) (hinvalid _)
  cases hfind : ingress.grants.find? (fun entry => sameOrderedStreamId entry grant) with
  | some entry =>
      simp only [hfind] at hrefused
      split at hrefused
      · cases hrefused
      · rw [← Except.error.inj hrefused] at hcode
        exact absurd hcode (orderedDomainError_not_overloaded _ _)
  | none =>
      simp only [hfind] at hrefused
      split at hrefused
      case isFalse => cases hrefused
      case isTrue hfull =>
        intro old hold
        rw [Bool.eq_false_iff]
        intro hsuper
        -- The revoked grant made the room the test did not find.
        have hlt := revokeSuperseded_length_lt hold hsuper
        have hbounded := hconsistent.bounded
        have hconfig : (ingress.revokeSuperseded grant).config = ingress.config :=
          (revokeSuperseded_drops hconsistent.agrees grant).config
        rw [hconfig] at hfull
        omega

theorem grantStream_refused {ingress : OrderedIngress}
    (hconsistent : Consistent ingress) {grant : OrderedGrant} {error : Error}
    (hrefused : (ingress.grantStream grant).1 = .error error) :
    (ingress.grantStream grant).2 = ingress := by
  rcases grantStream_cases hconsistent grant with ⟨hsame, -⟩ | ⟨hok, -⟩
  · exact hsame
  · rw [hok] at hrefused
    cases hrefused

theorem admitRequest_refused {ingress : OrderedIngress}
    (hconsistent : Consistent ingress) {request : OrderedIngressRequest} {error : Error}
    (hrefused : (ingress.admitRequest request).1 = .error error) :
    (ingress.admitRequest request).2 = ingress := by
  rcases admit_cases hconsistent request with
    ⟨reason, hadmitted⟩ | ⟨ticket, entry, grant, hadmitted, -⟩ | ⟨grant, -, hok, -⟩
  · rw [hadmitted]
  · rw [hadmitted]
  · rw [hok] at hrefused
    cases hrefused

theorem complete_refused {ingress : OrderedIngress}
    (hconsistent : Consistent ingress) {ticket : Admission}
    {reply : OrderedTerminalReply} {error : Error}
    (hrefused : (ingress.complete ticket reply).1 = .error error) :
    (ingress.complete ticket reply).2 = ingress := by
  rcases complete_cases hconsistent ticket reply with
    ⟨reason, hcomplete⟩ | ⟨entry, -, hok, -⟩
  · rw [hcomplete]
  · rw [hok] at hrefused
    cases hrefused

end

end OrderedIngress

open OrderedIngress

/-- In every reachable state a `GrantStream`, `Admit` or `Complete` that returns an error
leaves grants, streams, cache, order and byte count as they were; a grant refused for
capacity has no installed grant to replace. -/
theorem refused_calls_leave_no_trace [Infra] {world : IngressWorld}
    (hreach : ingressMachine.Reachable world) :
    (∀ grant error, (world.ingress.grantStream grant).1 = .error error →
      (world.ingress.grantStream grant).2 = world.ingress ∧
        (error.code = .overloaded →
          ∀ old ∈ world.ingress.grants, supersededBy grant old = false)) ∧
    (∀ request error, (world.ingress.admitRequest request).1 = .error error →
      (world.ingress.admitRequest request).2 = world.ingress) ∧
    ∀ ticket reply error, (world.ingress.complete ticket reply).1 = .error error →
      (world.ingress.complete ticket reply).2 = world.ingress := by
  have hconsistent := reachable_consistent hreach
  refine ⟨fun grant error hrefused => ?_, fun request error => ?_, fun ticket reply error => ?_⟩
  · exact ⟨grantStream_refused hconsistent hrefused,
      grantStream_overloaded hconsistent hrefused⟩
  · exact admitRequest_refused hconsistent
  · exact complete_refused hconsistent

/-- An ingress for one stream refuses a second stream for capacity, a future sequence and
a completion of a request that is not in flight. -/
theorem refused_calls_leave_no_trace_full :
    letI := permissiveInfra
    let world : IngressWorld := IngressWorld.after
      { ingress := { config := ⟨"chat", 1, 4, 100⟩ } }
      [.grant (sampleGrant "r1"), .admitRequest (sampleRequest "r1" 1 "a")]
    let other : OrderedGrant := { sampleGrant "r1" with actorKey := "hall" }
    (∃ error, (world.ingress.grantStream other).1 = .error error ∧
      error.code = .overloaded ∧ (world.ingress.grantStream other).2 = world.ingress) ∧
    (world.ingress.admitRequest (sampleRequest "r1" 5 "b")).2 = world.ingress ∧
    (world.ingress.complete (sampleIssue "r1" 7 "c" 1).ticket (sampleReply "late")).2 =
      world.ingress := by
  let _ := permissiveInfra
  intro world other
  have hreach : ingressMachine.Reachable world :=
    reachable_append (.start ⟨⟨"chat", 1, 4, 100⟩, _, rfl, rfl⟩) _
  obtain ⟨hgrant, hadmit, hcomplete⟩ := refused_calls_leave_no_trace hreach
  refine ⟨⟨makeError .overloaded "ordered ingress: max_ordered_streams reached", ?_, rfl, ?_⟩,
    ?_, ?_⟩
  · decide
  · exact (hgrant other
      (makeError .overloaded "ordered ingress: max_ordered_streams reached") (by decide)).1
  · exact hadmit (sampleRequest "r1" 5 "b") (gapError 2) (by decide)
  · exact hcomplete (sampleIssue "r1" 7 "c" 1).ticket (sampleReply "late")
      (makeError .invalidArgument
        "ordered ingress: admission is not in flight (already completed or not issued by this ingress)")
      (by decide)

end BbtFramework.Ordered
