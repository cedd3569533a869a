import BbtFramework.Ordered.CacheRepresentation

/-!
# Runs with the references of the cache

The runs of `ingressMachine` hand `_RemoveCached` its keys by value.  Here a run keeps the
same history, and its evictions read the erased fronts through the references of the source.
While the fronts last every call does what it does by value, so that what holds over the runs
of `ingressMachine` holds over these.
-/

namespace BbtFramework.Ordered

open BbtFramework.Library
open OrderedIngress

/-- The cache, with the history of `IngressWorld`. -/
structure TracedWorld where
  cache : CacheWorld
  installs : List OrderedGrant := []
  revoked : List OrderedGrant := []
  issued : List Issued := []
  completions : List (Issued × OrderedTerminalReply) := []

inductive TracedCall where
  | grant (grant : OrderedGrant)
  | admitRequest (request : OrderedIngressRequest)
  | complete (issue : Issued) (reply : OrderedTerminalReply) (stale : Nat → CachedKey)

def TracedCall.cacheCall : TracedCall → CacheCall
  | .grant new => .grant new
  | .admitRequest request => .admitRequest request
  | .complete issue reply stale => .complete issue.ticket reply stale

def TracedCall.ingressCall : TracedCall → IngressCall
  | .grant new => .grant new
  | .admitRequest request => .admitRequest request
  | .complete issue reply _ => .complete issue reply

namespace TracedWorld

def ingress (world : TracedWorld) : OrderedIngress :=
  world.cache.traced.ingress

/-- The world as the runs by value have it. -/
def ingressWorld (world : TracedWorld) : IngressWorld where
  ingress := world.ingress
  installs := world.installs
  revoked := world.revoked
  issued := world.issued
  completions := world.completions

section

variable [Infra]

def next (world : TracedWorld) (call : TracedCall) : TracedWorld :=
  let cache := world.cache.next call.cacheCall
  match call with
  | .grant grant =>
      { world with
        cache := cache
        installs :=
          if grant ∈ cache.traced.ingress.grants ∧ grant ∉ world.ingress.grants then
            world.installs ++ [grant]
          else world.installs
        revoked := world.revoked ++
          world.ingress.grants.filter (fun old => old ∉ cache.traced.ingress.grants) }
  | .admitRequest request =>
      { world with
        cache := cache
        issued :=
          match (world.ingress.admitRequest request).1 with
          | .ok ticket =>
              if ticket.kind = .execute then
                world.issued ++
                  [⟨ticket, request, world.ingressWorld.session request.streamKey⟩]
              else world.issued
          | .error _ => world.issued }
  | .complete issue reply _ =>
      { world with
        cache := cache
        completions := world.completions ++ [(issue, reply)] }

end

end TracedWorld

section

variable [Infra]

def tracedMachine : Machine TracedWorld TracedCall where
  init world := ∃ config ingress,
    OrderedIngress.create config = .ok ingress ∧
      world = { cache := { traced := { ingress := ingress } } }
  next world call := some (world.next call)

/-- The fronts the call erases still read as their keys. -/
def KeepsFronts (world : TracedWorld) (call : TracedCall) : Prop :=
  FrontsLast world.cache call.cacheCall

instance (world : TracedWorld) (call : TracedCall) : Decidable (KeepsFronts world call) :=
  inferInstanceAs (Decidable (FrontsLast _ _))

/-- And the call meets a condition of the runs by value. -/
def Lasting (guard : IngressWorld → IngressCall → Prop) (world : TracedWorld)
    (call : TracedCall) : Prop :=
  KeepsFronts world call ∧ guard world.ingressWorld call.ingressCall

instance (guard : IngressWorld → IngressCall → Prop)
    [∀ world call, Decidable (guard world call)] (world : TracedWorld) (call : TracedCall) :
    Decidable (Lasting guard world call) :=
  inferInstanceAs (Decidable (_ ∧ _))

theorem TracedWorld.next_cache (world : TracedWorld) (call : TracedCall) :
    (world.next call).cache = world.cache.next call.cacheCall := by
  cases call with
  | grant grant => rfl
  | admitRequest request => rfl
  | complete issue reply stale => rfl

theorem CacheWorld.next_complete (world : CacheWorld) (admission : Admission)
    (reply : OrderedTerminalReply) (stale : Nat → CachedKey) :
    (world.next (.complete admission reply stale)).traced =
      (world.traced.complete admission reply stale).2 := by
  simp only [CacheWorld.next]
  split
  · next hrefused => rw [hrefused]
  · next hended => rw [hended]

theorem TracedWorld.next_ingressWorld {world : TracedWorld} (hholds : world.cache.Holds)
    {call : TracedCall} (hlasts : KeepsFronts world call) :
    (world.next call).ingressWorld = world.ingressWorld.next call.ingressCall := by
  cases call with
  | grant grant =>
      obtain ⟨-, hvalue⟩ := hholds.tracked.grantStream hholds.consistent grant
      have hsame : (world.cache.next (.grant grant)).traced.ingress =
          (world.ingress.grantStream grant).2 := hvalue
      simp only [TracedWorld.ingressWorld, TracedWorld.next, TracedCall.cacheCall,
        TracedWorld.ingress, hsame]
      rfl
  | admitRequest request =>
      have hsame : (world.cache.next (.admitRequest request)).traced.ingress =
          (world.ingress.admitRequest request).2 := rfl
      simp only [TracedWorld.ingressWorld, TracedWorld.next, TracedCall.cacheCall,
        TracedCall.ingressCall, TracedWorld.ingress, IngressWorld.next, IngressWorld.afterAdmit,
        hsame]
      obtain ⟨answer, after⟩ := world.cache.traced.ingress.admitRequest request
      cases answer with
      | ok ticket => rfl
      | error reason => rfl
  | complete issue reply stale =>
      obtain ⟨-, hvalue⟩ := hholds.complete_value hlasts
      rw [← CacheWorld.next_complete] at hvalue
      exact congrArg
        (fun ingress => IngressWorld.mk ingress world.installs world.revoked _ _) hvalue

theorem reachable_cache {guard : CacheWorld → CacheCall → Prop} {world : TracedWorld}
    (hreach : tracedMachine.ReachableWhere
      (fun world call => guard world.cache call.cacheCall) world) :
    cacheMachine.ReachableWhere guard world.cache := by
  have hsim : tracedMachine.Simulates cacheMachine
      (fun world call => guard world.cache call.cacheCall) guard (fun _ => True)
      TracedWorld.cache TracedCall.cacheCall := by
    rintro before call after - hguard hnext
    cases hnext
    exact ⟨trivial, hguard, congrArg some (before.next_cache call).symm⟩
  refine (hsim.reachable ?_ hreach).2
  rintro start ⟨config, ingress, hcreate, rfl⟩
  exact ⟨trivial, .start ⟨config, ingress, hcreate, rfl⟩⟩

/-- Every run whose fronts last is a run by value. -/
theorem reachable_ingressWorld {guard : IngressWorld → IngressCall → Prop} {world : TracedWorld}
    (hreach : tracedMachine.ReachableWhere (Lasting guard) world) :
    world.cache.Holds ∧ ingressMachine.ReachableWhere guard world.ingressWorld := by
  have hsim : tracedMachine.Simulates ingressMachine (Lasting guard) guard
      (fun world => world.cache.Holds) TracedWorld.ingressWorld TracedCall.ingressCall := by
    intro before call after hholds hlasting hnext
    cases hnext
    refine ⟨?_, hlasting.2, congrArg some (TracedWorld.next_ingressWorld hholds hlasting.1).symm⟩
    change (before.next call).cache.Holds
    rw [TracedWorld.next_cache]
    exact hholds.next hlasting.1
  refine hsim.reachable ?_ hreach
  rintro start ⟨config, ingress, hcreate, rfl⟩
  refine ⟨?_, .start ⟨config, ingress, hcreate, rfl⟩⟩
  exact holds_of_reachable (.start ⟨config, ingress, hcreate, rfl⟩)

theorem reachable_by_value {world : TracedWorld}
    (hreach : tracedMachine.ReachableWhere KeepsFronts world) :
    world.cache.Holds ∧ ingressMachine.Reachable world.ingressWorld :=
  reachable_ingressWorld (hreach.mono fun _ _ hkeeps => ⟨hkeeps, trivial⟩)

theorem traced_next {guard : TracedWorld → TracedCall → Prop} {world : TracedWorld}
    (hreach : tracedMachine.ReachableWhere guard world) {call : TracedCall}
    (hguard : guard world call) : tracedMachine.ReachableWhere guard (world.next call) :=
  hreach.step hguard rfl

theorem exists_history {world : CacheWorld}
    (hreach : cacheMachine.ReachableWhere FrontsLast world) :
    ∃ history, ingressMachine.Reachable history ∧ history.ingress = world.traced.ingress := by
  refine (hreach.induct (motive := fun world => world.Holds ∧ ∃ history,
    ingressMachine.Reachable history ∧ history.ingress = world.traced.ingress) ?_ ?_).2
  · rintro start ⟨config, ingress, hcreate, rfl⟩
    refine ⟨holds_of_reachable (.start ⟨config, ingress, hcreate, rfl⟩), _,
      .start ⟨config, ingress, hcreate, rfl⟩, rfl⟩
  · rintro before call after - ⟨hholds, history, hhistory, hsame⟩ hlasts hnext
    cases hnext
    refine ⟨hholds.next hlasts, ?_⟩
    cases call with
    | grant grant =>
        obtain ⟨-, hvalue⟩ := hholds.tracked.grantStream hholds.consistent grant
        refine ⟨_, reachable_next hhistory (.grant grant), ?_⟩
        change (history.ingress.grantStream grant).2 = _
        rw [hsame]
        exact hvalue.symm
    | admitRequest request =>
        refine ⟨_, reachable_next hhistory (.admitRequest request), ?_⟩
        rw [next_admit_ingress, hsame]
        rfl
    | complete admission reply stale =>
        obtain ⟨-, hvalue⟩ := hholds.complete_value hlasts
        refine ⟨_, reachable_next hhistory
          (.complete ⟨admission, sampleRequest "" 0 "", 0⟩ reply), ?_⟩
        change (history.ingress.complete admission reply).2 = _
        rw [hsame, CacheWorld.next_complete]
        exact hvalue.symm

theorem TracedIngress.complete_large {traced : TracedIngress} {admission : Admission}
    {reply : OrderedTerminalReply}
    (hlarge : traced.ingress.config.maxCachedResultBytes < replyBytes (terminalReply reply))
    (stale : Nat → CachedKey) :
    (traced.complete admission reply stale).2 =
      { traced with ingress := (traced.ingress.complete admission reply).2 } := by
  obtain ⟨error, htraced, hvalue⟩ | ⟨state, entry, hkind, hlookup, hentry⟩ :=
    traced.complete_cases admission reply stale
  · rw [htraced, hvalue]
  · obtain ⟨htraced, hvalue⟩ := traced.complete_of_inFlight hkind hlookup hentry reply stale
    rw [htraced, hvalue]
    exact (if_pos hlarge).trans (congrArg
      (fun ingress => { traced with ingress := ingress }) (if_pos hlarge).symm)

theorem keepsFronts_of_large {world : TracedWorld} {issue : Issued}
    {reply : OrderedTerminalReply}
    (hlarge : world.ingress.config.maxCachedResultBytes < replyBytes (terminalReply reply))
    (stale : Nat → CachedKey) : KeepsFronts world (.complete issue reply stale) := by
  have hstores : world.ingress.stores issue.ticket (terminalReply reply) = false := by
    unfold stores
    rw [decide_eq_false (Nat.not_le.mpr hlarge), Bool.and_false]
  change TracedIngress.Lasts stale 0 (world.ingress.pushedOut issue.ticket (terminalReply reply))
  unfold pushedOut
  rw [hstores]
  exact List.forall_mem_nil _

end

def sampleTraced (maxCachedResults : Nat) : TracedWorld :=
  { cache := { traced := { ingress := { config := ⟨"chat", 4, maxCachedResults, 100⟩ } } } }

theorem sampleTraced_reachable [Infra] {guard : TracedWorld → TracedCall → Prop}
    {maxCachedResults : Nat} (hpositive : maxCachedResults ≠ 0) :
    tracedMachine.ReachableWhere guard (sampleTraced maxCachedResults) := by
  refine .start ⟨⟨"chat", 4, maxCachedResults, 100⟩, _, ?_, rfl⟩
  unfold OrderedIngress.create
  have hservice : ¬"chat" = "" := by decide
  have hlimits : ¬(4 = 0 ∨ maxCachedResults = 0 ∨ 100 = 0) := by omega
  exact (if_neg hservice).trans (if_neg hlimits)

def hallRequest (sequence : UInt64) (requestId : String) : OrderedIngressRequest :=
  { sampleRequest "r1" sequence requestId with actorKey := "hall" }

def hallIssue (sequence : UInt64) (requestId : String) : Issued :=
  ⟨executeAdmission (hallRequest sequence requestId), hallRequest sequence requestId, 1⟩

theorem traced_after [Infra] {guard : TracedWorld → TracedCall → Prop}
    (check : TracedWorld → TracedCall → Bool)
    (hcheck : ∀ world call, check world call = true → guard world call) {world : TracedWorld}
    (hreach : tracedMachine.ReachableWhere guard world) (calls : List TracedCall)
    (hpass : (tracedMachine.exec check world calls).isSome = true) :
    tracedMachine.ReachableWhere guard (calls.foldl TracedWorld.next world) := by
  induction calls generalizing world with
  | nil => exact hreach
  | cons call rest ih =>
      simp only [Machine.exec] at hpass
      split at hpass
      case isTrue hok => exact ih (traced_next hreach (hcheck world call hok)) hpass
      case isFalse => cases hpass

/-- The erased front of the one eviction is the first reply of `hall`, and reads as `stale`. -/
def crossedCalls (stale : CachedKey) (requestId : String) : List TracedCall :=
  [.grant { sampleGrant "r1" with actorKey := "hall" }, .grant (sampleGrant "r1"),
    .admitRequest (hallRequest 1 "h"),
    .complete (hallIssue 1 "h") (sampleReply "first") (fun _ => stale),
    .admitRequest (sampleRequest "r1" 1 "b"),
    .complete (sampleIssue "r1" 1 "b" 1) (sampleReply "old") (fun _ => stale),
    .admitRequest (hallRequest 2 "i"),
    .complete (hallIssue 2 "i") (sampleReply "second") (fun _ => stale),
    .grant (sampleGrant "r2"), .admitRequest (sampleRequest "r2" 1 requestId)]

end BbtFramework.Ordered
