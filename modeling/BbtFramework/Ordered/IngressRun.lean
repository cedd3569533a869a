import BbtFramework.Library.Machine
import BbtFramework.Ordered.IngressInvariant

/-!
# Runs of one ingress

A run is any sequence of `GrantStream`, `Admit` and `Complete` calls on one
ingress.  Beside the ingress the run keeps a history the code does not have:
which grants were installed and revoked, which tickets were issued for which
request, and which reply was passed to `Complete` with which ticket.  A session
of a stream is the time between two installations of a grant for it.
-/

namespace BbtFramework.Ordered

open BbtFramework.Library
open OrderedIngress

structure Issued where
  ticket : Admission
  request : OrderedIngressRequest
  session : Nat
  deriving DecidableEq

structure IngressWorld where
  ingress : OrderedIngress
  installs : List OrderedGrant := []
  revoked : List OrderedGrant := []
  issued : List Issued := []
  completions : List (Issued × OrderedTerminalReply) := []

/-- A completion names the admission its ticket came from; the code sees the
ticket alone. -/
inductive IngressCall where
  | grant (grant : OrderedGrant)
  | admitRequest (request : OrderedIngressRequest)
  | complete (issue : Issued) (reply : OrderedTerminalReply)

namespace IngressWorld

def session (world : IngressWorld) (key : StreamKey) : Nat :=
  (world.installs.filter (fun grant => grant.streamKey = key)).length

/-- The admissions for execution since the stream's grant was installed. -/
def executions (world : IngressWorld) (key : StreamKey) : List Issued :=
  world.issued.filter fun issue =>
    issue.ticket.streamKey = key ∧ issue.session = world.session key

section

variable [Infra]

def afterGrant (world : IngressWorld) (grant : OrderedGrant) : IngressWorld :=
  let after := (world.ingress.grantStream grant).2
  { world with
    ingress := after
    installs :=
      if grant ∈ after.grants ∧ grant ∉ world.ingress.grants then
        world.installs ++ [grant]
      else world.installs
    revoked := world.revoked ++
      world.ingress.grants.filter (fun old => old ∉ after.grants) }

def afterAdmit (world : IngressWorld) (request : OrderedIngressRequest) :
    IngressWorld :=
  match world.ingress.admitRequest request with
  | (.ok ticket, after) =>
      { world with
        ingress := after
        issued :=
          if ticket.kind = .execute then
            world.issued ++ [⟨ticket, request, world.session request.streamKey⟩]
          else world.issued }
  | (.error _, after) => { world with ingress := after }

def afterComplete (world : IngressWorld) (issue : Issued)
    (reply : OrderedTerminalReply) : IngressWorld :=
  { world with
    ingress := (world.ingress.complete issue.ticket reply).2
    completions := world.completions ++ [(issue, reply)] }

def next (world : IngressWorld) : IngressCall → IngressWorld
  | .grant grant => world.afterGrant grant
  | .admitRequest request => world.afterAdmit request
  | .complete issue reply => world.afterComplete issue reply

end

end IngressWorld

def ingressMachine [Infra] : Machine IngressWorld IngressCall where
  init world := ∃ config ingress,
    OrderedIngress.create config = .ok ingress ∧ world = { ingress := ingress }
  next world call := some (world.next call)

inductive IngressEffect [Infra] (before : IngressWorld) :
    IngressCall → IngressWorld → Prop where
  | unchanged (call : IngressCall) : IngressEffect before call before
  | installed {grant : OrderedGrant} {after : IngressWorld}
      (hnew : grant ∉ before.ingress.grants)
      (heffect : Installs grant before.ingress after.ingress)
      (hinstalls : after.installs = before.installs ++ [grant])
      (hrevoked : after.revoked = before.revoked ++
        before.ingress.grants.filter (fun old => old ∉ after.ingress.grants))
      (hissued : after.issued = before.issued)
      (hcompletions : after.completions = before.completions) :
      IngressEffect before (.grant grant) after
  | executed {request : OrderedIngressRequest} {grant : OrderedGrant}
      {after : IngressWorld}
      (hgrant : before.ingress.Authorizes request grant)
      (heffect : Consumes request before.ingress after.ingress)
      (hissued : after.issued = before.issued ++
        [⟨executeAdmission request, request, before.session request.streamKey⟩])
      (hinstalls : after.installs = before.installs)
      (hrevoked : after.revoked = before.revoked)
      (hcompletions : after.completions = before.completions) :
      IngressEffect before (.admitRequest request) after
  | refused (issue : Issued) (reply : OrderedTerminalReply) :
      IngressEffect before (.complete issue reply)
        { before with completions := before.completions ++ [(issue, reply)] }
  | ended {issue : Issued} {reply : OrderedTerminalReply} {entry : InFlight}
      {after : IngressWorld}
      (heffect : Ends issue.ticket.streamKey issue.ticket.sequence entry
        (terminalReply reply) before.ingress after.ingress)
      (hissued : after.issued = before.issued)
      (hinstalls : after.installs = before.installs)
      (hrevoked : after.revoked = before.revoked)
      (hcompletions : after.completions = before.completions ++ [(issue, reply)]) :
      IngressEffect before (.complete issue reply) after

section

variable [Infra]

theorem next_admit_execute {world : IngressWorld}
    {request : OrderedIngressRequest}
    (hresult : (world.ingress.admitRequest request).1 = .ok (executeAdmission request)) :
    world.next (.admitRequest request) =
      { world with
        ingress := (world.ingress.admitRequest request).2
        issued := world.issued ++
          [⟨executeAdmission request, request,
            world.session request.streamKey⟩] } := by
  have hadmitted : world.ingress.admitRequest request =
      (.ok (executeAdmission request), (world.ingress.admitRequest request).2) :=
    Prod.ext hresult rfl
  simp only [IngressWorld.next, IngressWorld.afterAdmit]
  rw [hadmitted]
  simp [executeAdmission]

theorem next_admit_ingress (world : IngressWorld) (request : OrderedIngressRequest) :
    (world.next (.admitRequest request)).ingress = (world.ingress.admitRequest request).2 := by
  simp only [IngressWorld.next, IngressWorld.afterAdmit]
  split
  · next hadmitted => rw [hadmitted]
  · next hadmitted => rw [hadmitted]

theorem next_effect {world : IngressWorld}
    (hconsistent : Consistent world.ingress) (call : IngressCall) :
    IngressEffect world call (world.next call) ∧
      Consistent (world.next call).ingress := by
  cases call with
  | grant grant =>
      rcases grantStream_cases hconsistent grant with
        ⟨hsame, -⟩ | ⟨-, hnew, hinstalls, hafter⟩
      · have hnone : world.ingress.grants.filter
            (fun old => old ∉ world.ingress.grants) = [] :=
          List.filter_eq_nil_iff.mpr (by simp)
        have hworld : world.next (.grant grant) = world := by
          simp only [IngressWorld.next, IngressWorld.afterGrant, hsame, hnone,
            and_not_self_iff, if_false, List.append_nil]
        rw [hworld]
        exact ⟨.unchanged _, hconsistent⟩
      · have hmem : grant ∈ (world.ingress.grantStream grant).2.grants := by
          simp [hinstalls.grants]
        refine ⟨.installed hnew hinstalls ?_ rfl rfl rfl, hafter⟩
        exact if_pos ⟨hmem, hnew⟩
  | admitRequest request =>
      rcases admit_cases hconsistent request with
        ⟨error, hadmitted⟩ | ⟨ticket, entry, grant, hadmitted, hkind, -⟩ |
        ⟨grant, hgrant, hresult, hconsumes, hafter⟩
      · have hworld : world.next (.admitRequest request) = world := by
          simp [IngressWorld.next, IngressWorld.afterAdmit, hadmitted]
        rw [hworld]
        exact ⟨.unchanged _, hconsistent⟩
      · have hworld : world.next (.admitRequest request) = world := by
          simp [IngressWorld.next, IngressWorld.afterAdmit, hadmitted, hkind]
        rw [hworld]
        exact ⟨.unchanged _, hconsistent⟩
      · rw [next_admit_execute hresult]
        exact ⟨.executed hgrant hconsumes rfl rfl rfl rfl, hafter⟩
  | complete issue reply =>
      rcases complete_cases hconsistent issue.ticket reply with
        ⟨error, hcomplete⟩ | ⟨entry, -, -, hends, hafter⟩
      · have hworld : world.next (.complete issue reply) =
            { world with completions := world.completions ++ [(issue, reply)] } := by
          simp [IngressWorld.next, IngressWorld.afterComplete, hcomplete]
        rw [hworld]
        exact ⟨.refused issue reply, hconsistent⟩
      · exact ⟨.ended hends rfl rfl rfl rfl, hafter⟩

/-- Created ingresses are empty. -/
theorem init_eq {world : IngressWorld} (hinit : ingressMachine.init world) :
    ∃ config : OrderedIngressConfig,
      world = { ingress := { config := config } } := by
  obtain ⟨config, ingress, hcreate, rfl⟩ := hinit
  refine ⟨config, ?_⟩
  unfold OrderedIngress.create at hcreate
  split at hcreate
  · cases hcreate
  · split at hcreate
    · cases hcreate
    · cases hcreate
      rfl

theorem reachable_consistent {guard : IngressWorld → IngressCall → Prop}
    {world : IngressWorld}
    (hreach : ingressMachine.ReachableWhere guard world) :
    Consistent world.ingress := by
  refine hreach.induct (motive := fun world => Consistent world.ingress) ?_ ?_
  · intro world hinit
    obtain ⟨config, rfl⟩ := init_eq hinit
    exact .initial config
  · intro world call next _ hconsistent _ hnext
    cases hnext
    exact (next_effect hconsistent call).2

/-- The invariant rule for runs of the ingress: an invariant is checked against
the five effects. -/
theorem reachable_effect_induct {guard : IngressWorld → IngressCall → Prop}
    {motive : IngressWorld → Prop}
    (hinit : ∀ config : OrderedIngressConfig,
      motive { ingress := { config := config } })
    (hstep : ∀ before call after, ingressMachine.ReachableWhere guard before →
      motive before → guard before call → IngressEffect before call after →
      Consistent after.ingress → motive after)
    {world : IngressWorld}
    (hreach : ingressMachine.ReachableWhere guard world) : motive world := by
  refine hreach.induct ?_ ?_
  · intro world hworld
    obtain ⟨config, rfl⟩ := init_eq hworld
    exact hinit config
  · intro before call after hbefore hmotive hguard hnext
    cases hnext
    obtain ⟨heffect, hafter⟩ := next_effect (reachable_consistent hbefore) call
    exact hstep before call _ hbefore hmotive hguard heffect hafter

def IngressWorld.after (world : IngressWorld) (calls : List IngressCall) :
    IngressWorld :=
  calls.foldl IngressWorld.next world

theorem reachable_next {world : IngressWorld}
    (hreach : ingressMachine.Reachable world) (call : IngressCall) :
    ingressMachine.Reachable (world.next call) :=
  hreach.step trivial rfl

theorem reachable_append {world : IngressWorld}
    (hreach : ingressMachine.Reachable world) (calls : List IngressCall) :
    ingressMachine.Reachable (world.after calls) := by
  induction calls generalizing world with
  | nil => exact hreach
  | cons call rest ih => exact ih (reachable_next hreach call)

theorem reachable_after {guard : IngressWorld → IngressCall → Prop}
    {check : IngressWorld → IngressCall → Bool}
    (hcheck : ∀ world call, check world call = true → guard world call)
    {world : IngressWorld} (hinit : ingressMachine.init world)
    (calls : List IngressCall)
    (hpass : (ingressMachine.exec check world calls).isSome = true) :
    ingressMachine.ReachableWhere guard (world.after calls) := by
  have hexec : ∀ start,
      (ingressMachine.exec check start calls).isSome = true →
      ingressMachine.exec check start calls = some (start.after calls) := by
    clear hpass
    induction calls with
    | nil => exact fun _ _ => rfl
    | cons call rest ih =>
        intro start hsome
        simp only [Machine.exec] at hsome ⊢
        split at hsome
        case isTrue hok => rw [if_pos hok]; exact ih _ hsome
        case isFalse => cases hsome
  exact (Machine.ReachableWhere.start hinit).exec hcheck (hexec world hpass)

end

def sampleGrant (receiverEpoch : String) : OrderedGrant :=
  ⟨"chat", "room", "producer", "p1", receiverEpoch, "peer"⟩

def sampleRequest (receiverEpoch : String) (sequence : UInt64)
    (requestId : String) : OrderedIngressRequest where
  method := "say"
  actorKey := "room"
  peerPrincipal := "peer"
  hasOrderedStamp := true
  producerId := "producer"
  producerEpoch := "p1"
  receiverEpoch := receiverEpoch
  sequence := sequence
  requestId := requestId
  requestDigest := "digest"

def sampleIssue (receiverEpoch : String) (sequence : UInt64)
    (requestId : String) (session : Nat) : Issued :=
  let request := sampleRequest receiverEpoch sequence requestId
  ⟨executeAdmission request, request, session⟩

def sampleReply (payload : String) : OrderedTerminalReply :=
  ⟨true, payload, ⟨.internalError, "", "", "", []⟩⟩

def sampleWorld : IngressWorld :=
  { ingress := { config := ⟨"chat", 4, 4, 100⟩ } }

theorem sample_init [Infra] : ingressMachine.init sampleWorld :=
  ⟨⟨"chat", 4, 4, 100⟩, _, rfl, rfl⟩

theorem sample_reachable [Infra] (calls : List IngressCall) :
    ingressMachine.Reachable (sampleWorld.after calls) :=
  reachable_append (.start sample_init) calls

end BbtFramework.Ordered
