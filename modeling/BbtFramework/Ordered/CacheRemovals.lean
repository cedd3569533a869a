import BbtFramework.Library.Machine
import BbtFramework.Library.Trim
import BbtFramework.Ordered.IngressRun
import Mathlib.Algebra.BigOperators.Group.List.Basic
import Mathlib.Algebra.Group.Nat.Defs

/-!
# Removals through a reference

`_RemoveCached` takes its key by reference.  Revocation passes keys of its own, eviction
the front of the completion order, which `_RemoveCached` erases before it last reads the
key.  The removals are modelled with their references; where an erased front still reads
as its key they do what they would do with keys of their own.
-/

namespace BbtFramework.Ordered

open BbtFramework.Library
open OrderedIngress

/-- A reference to a key of the caller, or to an element of the completion order, which
reads as `stale` once it is erased. -/
inductive KeyRef where
  | own (key : CachedKey)
  | element (key stale : CachedKey)

def KeyRef.key : KeyRef → CachedKey
  | .own key => key
  | .element key _ => key

/-- What the reference reads as once the completion order has lost the key. -/
def KeyRef.afterErase : KeyRef → CachedKey
  | .own key => key
  | .element _ stale => stale

/-- One call of `_RemoveCached` that found its entry: the key of the entry, the keys read
before and after the erasure, and `size` subtracted from `total`. -/
structure Removal where
  removed : CachedKey
  reads : List CachedKey
  total : Nat
  size : Nat

def Removal.Sound (removal : Removal) : Prop :=
  (∀ read ∈ removal.reads, read = removal.removed) ∧ removal.size ≤ removal.total

structure TracedIngress where
  ingress : OrderedIngress
  removals : List Removal := []

namespace TracedIngress

def removeCached (traced : TracedIngress) (ref : KeyRef) : TracedIngress :=
  match traced.ingress.cached.lookup ref.key with
  | none => traced
  | some entry =>
      { ingress := { traced.ingress with
          cachedBytes := traced.ingress.cachedBytes - entry.bytes
          cached := traced.ingress.cached.erase ref.key
          cachedOrder := traced.ingress.cachedOrder.erase ref.key }.forgetCachedSeq
            ref.afterErase
        removals := traced.removals ++
          [⟨ref.key, [ref.key, ref.afterErase], traced.ingress.cachedBytes, entry.bytes⟩] }

def dropStreamCache (traced : TracedIngress) (key : StreamKey) : TracedIngress :=
  match traced.ingress.streams.lookup key with
  | none => traced
  | some state =>
      state.cachedSeqs.keys.foldl
        (fun traced sequence => traced.removeCached (.own ⟨key, sequence⟩)) traced

/-- The eviction loop; the front erased in round `round` then reads as `stale round`. -/
def evictLoop (stale : Nat → CachedKey) : Nat → Nat → TracedIngress → TracedIngress
  | 0, _, traced => traced
  | rounds + 1, round, traced =>
      match traced.ingress.cachedOrder with
      | [] => traced
      | oldest :: _ =>
          if traced.ingress.overLimits then
            evictLoop stale rounds (round + 1)
              (traced.removeCached (.element oldest (stale round)))
          else traced

def evictToLimits (traced : TracedIngress) (stale : Nat → CachedKey) : TracedIngress :=
  evictLoop stale traced.ingress.cachedOrder.length 0 traced

def revoke (traced : TracedIngress) (old : OrderedGrant) : TracedIngress :=
  let dropped := traced.dropStreamCache old.streamKey
  { dropped with ingress := { dropped.ingress with
      streams := dropped.ingress.streams.erase old.streamKey } }

def revokeSuperseded (traced : TracedIngress) (grant : OrderedGrant) : TracedIngress :=
  let revoked :=
    (traced.ingress.grants.filter (supersededBy grant)).foldl revoke traced
  { revoked with ingress := { revoked.ingress with
      grants := traced.ingress.grants.filter (fun old => !supersededBy grant old) } }

section

variable [Infra]

def grantStream (traced : TracedIngress) (grant : OrderedGrant) :
    Except Error Unit × TracedIngress :=
  if grant.service ≠ traced.ingress.config.service then
    (.error (makeError .invalidArgument
      "ordered ingress: grant service does not match this ingress"), traced)
  else if grant.service = "" ∨ grant.actorKey = "" ∨ grant.producerId = "" ∨
      grant.producerEpoch = "" ∨ grant.receiverEpoch = "" then
    (.error (makeError .invalidArgument
      "ordered ingress: grant has empty field; refusing to install"), traced)
  else
    match traced.ingress.grants.find? (fun entry => sameOrderedStreamId entry grant) with
    | some entry =>
        if entry = grant then (.ok (), traced)
        else
          (.error (orderedDomainError OrderedDomainCode.streamRejected
            "ordered stream grant conflicts with the installed grant"), traced)
    | none =>
        let revoked := traced.revokeSuperseded grant
        if revoked.ingress.config.maxOrderedStreams ≤ revoked.ingress.grants.length then
          (.error (makeError .overloaded
            "ordered ingress: max_ordered_streams reached"), revoked)
        else (.ok (), { revoked with ingress := revoked.ingress.install grant })

end

end TracedIngress

namespace TracedIngress

def store (traced : TracedIngress) (key : CachedKey) (entry : InFlight)
    (reply : OrderedTerminalReply) (stale : Nat → CachedKey) : TracedIngress :=
  if traced.ingress.config.maxCachedResultBytes < replyBytes reply then traced
  else { traced with ingress := traced.ingress.keep key entry reply }.evictToLimits stale

section

variable [Infra]

def complete (traced : TracedIngress) (admission : Admission)
    (reply : OrderedTerminalReply) (stale : Nat → CachedKey) :
    Except Error Unit × TracedIngress :=
  if admission.kind ≠ .execute then
    (.error (makeError .invalidArgument
      "ordered ingress: complete requires an execute admission"), traced)
  else
    match traced.ingress.streams.lookup admission.streamKey with
    | none =>
        (.error (makeError .invalidArgument
          "ordered ingress: admission does not reference a live stream"), traced)
    | some state =>
        match state.inFlight.lookup admission.sequence with
        | none =>
            (.error (makeError .invalidArgument
              "ordered ingress: admission is not in flight (already completed or not issued by this ingress)"),
              traced)
        | some entry =>
            let ended := traced.ingress.setStream admission.streamKey
              { state with inFlight := state.inFlight.erase admission.sequence }
            (.ok (), TracedIngress.store { traced with ingress := ended }
              ⟨admission.streamKey, admission.sequence⟩ entry (terminalReply reply) stale)

end

end TracedIngress

/-- `completedAt` is the number of the completion that ended a key last. -/
structure CacheWorld where
  traced : TracedIngress
  clock : Nat := 0
  completedAt : CachedKey → Nat := fun _ => 0

/-- The choices of a call; `stale` is what the erased fronts read as. -/
inductive CacheCall where
  | grant (grant : OrderedGrant)
  | admitRequest (request : OrderedIngressRequest)
  | complete (admission : Admission) (reply : OrderedTerminalReply)
      (stale : Nat → CachedKey)

section

variable [Infra]

def CacheWorld.next (world : CacheWorld) : CacheCall → CacheWorld
  | .grant grant => { world with traced := (world.traced.grantStream grant).2 }
  | .admitRequest request => { world with traced := { world.traced with
      ingress := (world.traced.ingress.admitRequest request).2 } }
  | .complete admission reply stale =>
      match world.traced.complete admission reply stale with
      | (.error _, after) => { world with traced := after }
      | (.ok (), after) =>
          { traced := after
            clock := world.clock + 1
            completedAt := Function.update world.completedAt
              ⟨admission.streamKey, admission.sequence⟩ world.clock }

def cacheMachine : Machine CacheWorld CacheCall where
  init world := ∃ config ingress,
    OrderedIngress.create config = .ok ingress ∧ world = { traced := { ingress := ingress } }
  next world call := some (world.next call)

end

namespace OrderedIngress

def sizeAt (ingress : OrderedIngress) (key : CachedKey) : Nat :=
  ((ingress.cached.lookup key).map CachedResult.bytes).getD 0

theorem sizeAt_of_lookup {ingress : OrderedIngress} {key : CachedKey} {entry : CachedResult}
    (hlookup : ingress.cached.lookup key = some entry) : ingress.sizeAt key = entry.bytes := by
  rw [sizeAt, hlookup]
  rfl

def fits (ingress : OrderedIngress) (size : CachedKey → Nat) (keys : List CachedKey) : Bool :=
  keys.length ≤ ingress.config.maxCachedResults &&
    (keys.map size).sum ≤ ingress.config.maxCachedResultBytes

theorem fits_iff {ingress : OrderedIngress} {size : CachedKey → Nat}
    {keys : List CachedKey} : ingress.fits size keys = true ↔
      keys.length ≤ ingress.config.maxCachedResults ∧
        (keys.map size).sum ≤ ingress.config.maxCachedResultBytes := by
  rw [fits, Bool.and_eq_true, decide_eq_true_iff, decide_eq_true_iff]

theorem fits_of_config {before after : OrderedIngress} {size : CachedKey → Nat}
    (hconfig : after.config = before.config) : after.fits size = before.fits size := by
  funext keys
  rw [fits, fits, hconfig]

def Sized (ingress : OrderedIngress) (size : CachedKey → Nat) : Prop :=
  (∀ key ∈ ingress.cachedOrder, ingress.sizeAt key = size key) ∧
    ingress.cachedBytes = (ingress.cachedOrder.map size).sum

theorem CacheAgrees.mem_order {ingress : OrderedIngress} (hagrees : CacheAgrees ingress)
    {key : CachedKey} : key ∈ ingress.cachedOrder ↔ key ∈ ingress.cached :=
  hagrees.order.mem_iff.trans AList.mem_keys.symm

theorem CacheAgrees.nodup_order {ingress : OrderedIngress} (hagrees : CacheAgrees ingress) :
    ingress.cachedOrder.Nodup :=
  hagrees.order.nodup_iff.mpr ingress.cached.keys_nodup

/-- The loop condition, in terms of the completion order. -/
theorem Sized.overLimits {ingress : OrderedIngress} {size : CachedKey → Nat}
    (hsized : ingress.Sized size) (hagrees : CacheAgrees ingress) :
    ingress.overLimits = !ingress.fits size ingress.cachedOrder := by
  unfold OrderedIngress.overLimits OrderedIngress.fits
  rw [hsized.2, hagrees.order.length_eq, Bool.not_and, ← decide_not, ← decide_not]
  simp only [Nat.not_le]

theorem removeCached_of_lookup {ingress : OrderedIngress} {key : CachedKey}
    {entry : CachedResult} (hlookup : ingress.cached.lookup key = some entry) :
    ingress.removeCached key = ({ ingress with
      cachedBytes := ingress.cachedBytes - entry.bytes
      cached := ingress.cached.erase key
      cachedOrder := ingress.cachedOrder.erase key } : OrderedIngress).forgetCachedSeq key := by
  unfold removeCached
  rw [hlookup]

@[simp]
theorem forgetCachedSeq_cachedBytes (ingress : OrderedIngress) (key : CachedKey) :
    (ingress.forgetCachedSeq key).cachedBytes = ingress.cachedBytes := by
  unfold forgetCachedSeq
  split <;> rfl

theorem Sized.size_le {ingress : OrderedIngress} {size : CachedKey → Nat}
    (hsized : ingress.Sized size) (hagrees : CacheAgrees ingress) {key : CachedKey}
    {entry : CachedResult} (hlookup : ingress.cached.lookup key = some entry) :
    entry.bytes = size key ∧
      size key + ((ingress.cachedOrder.erase key).map size).sum = ingress.cachedBytes := by
  have hmem := hagrees.mem_order.mpr (Table.mem_of_lookup hlookup)
  constructor
  · rw [← hsized.1 key hmem, sizeAt_of_lookup hlookup]
  · rw [hsized.2]
    exact List.sum_map_erase size hmem

theorem Sized.removeCached {ingress : OrderedIngress} {size : CachedKey → Nat}
    (hsized : ingress.Sized size) (hagrees : CacheAgrees ingress) (key : CachedKey) :
    (ingress.removeCached key).Sized size := by
  cases hlookup : ingress.cached.lookup key with
  | none =>
      unfold OrderedIngress.removeCached
      rw [hlookup]
      exact hsized
  | some entry =>
      obtain ⟨hbytes, hsum⟩ := hsized.size_le hagrees hlookup
      have horder : (ingress.removeCached key).cachedOrder = ingress.cachedOrder.erase key := by
        rw [removeCached_of_lookup hlookup, forgetCachedSeq_cachedOrder]
      rw [OrderedIngress.Sized, horder]
      constructor
      · intro other hother
        obtain ⟨hne, hmem⟩ := (hagrees.nodup_order.mem_erase_iff).mp hother
        rw [sizeAt, removeCached_lookup hne]
        exact hsized.1 other hmem
      · rw [removeCached_of_lookup hlookup, forgetCachedSeq_cachedBytes]
        dsimp only
        rw [hbytes, ← hsum, Nat.add_sub_cancel_left]

theorem removeCached_cachedOrder {ingress : OrderedIngress} (hagrees : CacheAgrees ingress)
    (key : CachedKey) :
    (ingress.removeCached key).cachedOrder = ingress.cachedOrder.erase key := by
  cases hlookup : ingress.cached.lookup key with
  | none =>
      have hnot : key ∉ ingress.cachedOrder := fun hmem =>
        AList.lookup_eq_none.mp hlookup (hagrees.mem_order.mp hmem)
      unfold removeCached
      rw [hlookup, List.erase_of_not_mem hnot]
  | some entry => rw [removeCached_of_lookup hlookup, forgetCachedSeq_cachedOrder]

/-- The ingress without the request of `admission` in flight. -/
def takeOut (ingress : OrderedIngress) (admission : Admission) (state : StreamState) :
    OrderedIngress :=
  ingress.setStream admission.streamKey
    { state with inFlight := state.inFlight.erase admission.sequence }

/-- The cache lost some entries and the completion order lost their keys. -/
structure Leaner (before after : OrderedIngress) : Prop where
  config : after.config = before.config
  order : List.Sublist after.cachedOrder before.cachedOrder
  bytes : after.cachedBytes ≤ before.cachedBytes
  cached : ∀ key entry, after.cached.lookup key = some entry →
    before.cached.lookup key = some entry

theorem Leaner.refl (ingress : OrderedIngress) : Leaner ingress ingress :=
  ⟨rfl, List.Sublist.refl _, Nat.le_refl _, fun _ _ hlookup => hlookup⟩

theorem Leaner.trans {first middle last : OrderedIngress} (hleft : Leaner first middle)
    (hright : Leaner middle last) : Leaner first last where
  config := hright.config.trans hleft.config
  order := hright.order.trans hleft.order
  bytes := Nat.le_trans hright.bytes hleft.bytes
  cached key entry hlookup := hleft.cached key entry (hright.cached key entry hlookup)

theorem removeCached_leaner (ingress : OrderedIngress) (key : CachedKey) :
    Leaner ingress (ingress.removeCached key) := by
  have hshrinks := removeCached_shrinks ingress key
  refine ⟨hshrinks.config, ?_, ?_, hshrinks.cached⟩
  · unfold removeCached
    split
    · exact List.Sublist.refl _
    · rw [forgetCachedSeq_cachedOrder]
      exact List.erase_sublist
  · unfold removeCached
    split
    · exact Nat.le_refl _
    · rw [forgetCachedSeq_cachedBytes]
      exact Nat.sub_le _ _

theorem foldl_leaner {Element : Type} {step : OrderedIngress → Element → OrderedIngress}
    (hstep : ∀ ingress element, Leaner ingress (step ingress element))
    (elements : List Element) (ingress : OrderedIngress) :
    Leaner ingress (elements.foldl step ingress) := by
  induction elements generalizing ingress with
  | nil => exact .refl ingress
  | cons element rest ih => exact (hstep ingress element).trans (ih _)

theorem dropStreamCache_leaner (ingress : OrderedIngress) (key : StreamKey) :
    Leaner ingress (ingress.dropStreamCache key) := by
  unfold dropStreamCache
  split
  · exact .refl ingress
  · exact foldl_leaner (fun ingress sequence => removeCached_leaner ingress ⟨key, sequence⟩) _ _

theorem revoke_leaner (ingress : OrderedIngress) (old : OrderedGrant) :
    Leaner ingress (ingress.revoke old) := by
  obtain ⟨hconfig, horder, hbytes, hcached⟩ :=
    dropStreamCache_leaner ingress old.streamKey
  exact ⟨hconfig, horder, hbytes, hcached⟩

theorem revokeSuperseded_leaner (ingress : OrderedIngress) (grant : OrderedGrant) :
    Leaner ingress (ingress.revokeSuperseded grant) := by
  obtain ⟨hconfig, horder, hbytes, hcached⟩ :=
    foldl_leaner revoke_leaner (ingress.grants.filter (supersededBy grant)) ingress
  exact ⟨hconfig, horder, hbytes, hcached⟩

theorem grantStream_leaner [Infra] (ingress : OrderedIngress) (grant : OrderedGrant) :
    Leaner ingress (ingress.grantStream grant).2 := by
  have hrevoked := revokeSuperseded_leaner ingress grant
  unfold grantStream
  split
  · exact .refl ingress
  · split
    · exact .refl ingress
    · split
      · split
        · exact .refl ingress
        · exact .refl ingress
      · dsimp only
        split
        · exact hrevoked
        · exact ⟨hrevoked.config, hrevoked.order, hrevoked.bytes, hrevoked.cached⟩

end OrderedIngress

namespace TracedIngress

/-- The containers agree, the counter is their sum, and every removal so far was sound. -/
structure Tracked (traced : TracedIngress) (size : CachedKey → Nat) : Prop where
  agrees : CacheAgrees traced.ingress
  sized : traced.ingress.Sized size
  sound : ∀ removal ∈ traced.removals, removal.Sound

theorem removeCached_ingress (traced : TracedIngress) (ref : KeyRef)
    (hlasts : ref.afterErase = ref.key) :
    (traced.removeCached ref).ingress = traced.ingress.removeCached ref.key := by
  unfold removeCached OrderedIngress.removeCached
  rw [hlasts]
  cases traced.ingress.cached.lookup ref.key with
  | none => rfl
  | some entry => rfl

theorem removals_of_lookup (traced : TracedIngress) (ref : KeyRef) {entry : CachedResult}
    (hlookup : traced.ingress.cached.lookup ref.key = some entry) :
    (traced.removeCached ref).removals = traced.removals ++
      [⟨ref.key, [ref.key, ref.afterErase], traced.ingress.cachedBytes, entry.bytes⟩] := by
  unfold removeCached
  rw [hlookup]

theorem Tracked.removeCached {traced : TracedIngress} {size : CachedKey → Nat}
    (htracked : traced.Tracked size) (ref : KeyRef) (hlasts : ref.afterErase = ref.key) :
    (traced.removeCached ref).Tracked size := by
  constructor
  · rw [removeCached_ingress traced ref hlasts]
    exact htracked.agrees.removeCached ref.key
  · rw [removeCached_ingress traced ref hlasts]
    exact htracked.sized.removeCached htracked.agrees ref.key
  · unfold TracedIngress.removeCached
    split
    · exact htracked.sound
    · next entry hlookup =>
        intro removal hmem
        obtain hold | hnew := List.mem_append.mp hmem
        · exact htracked.sound removal hold
        · rw [List.mem_singleton.mp hnew]
          obtain ⟨hbytes, hsum⟩ := htracked.sized.size_le htracked.agrees hlookup
          constructor
          · intro read hread
            rw [hlasts] at hread
            simpa using hread
          · dsimp only
            rw [hbytes, ← hsum]
            exact Nat.le_add_right _ _

/-- The removals of one call come after the earlier ones. -/
theorem removeCached_removals (traced : TracedIngress) (ref : KeyRef) :
    traced.removals <+: (traced.removeCached ref).removals := by
  unfold removeCached
  split
  · exact List.prefix_refl _
  · exact List.prefix_append _ _

/-! ## Eviction -/

theorem evictLoop_removals (stale : Nat → CachedKey) (rounds round : Nat)
    (traced : TracedIngress) :
    traced.removals <+: (evictLoop stale rounds round traced).removals := by
  induction rounds generalizing round traced with
  | zero => exact List.prefix_refl _
  | succ rounds ih =>
      unfold evictLoop
      split
      · exact List.prefix_refl _
      · split
        · exact (removeCached_removals _ _).trans (ih _ _)
        · exact List.prefix_refl _

/-- The erased fronts still read as their keys. -/
def Lasts (stale : Nat → CachedKey) (round : Nat) (keys : List CachedKey) : Prop :=
  ∀ pair ∈ keys.zipIdx round, stale pair.2 = pair.1

instance (stale : Nat → CachedKey) (round : Nat) (keys : List CachedKey) :
    Decidable (Lasts stale round keys) :=
  inferInstanceAs (Decidable (∀ pair ∈ keys.zipIdx round, _))

theorem lasts_cons {stale : Nat → CachedKey} {round : Nat} {key : CachedKey}
    {keys : List CachedKey} : Lasts stale round (key :: keys) ↔
      stale round = key ∧ Lasts stale (round + 1) keys := by
  unfold Lasts
  rw [List.zipIdx_cons, List.forall_mem_cons]

/-- One round whose front still reads as its key. -/
theorem Tracked.evictFront {traced : TracedIngress} {size : CachedKey → Nat}
    (htracked : traced.Tracked size) {oldest stale : CachedKey} {rest : List CachedKey}
    (horder : traced.ingress.cachedOrder = oldest :: rest) (hlasts : stale = oldest) :
    (traced.removeCached (.element oldest stale)).Tracked size ∧
      (traced.removeCached (.element oldest stale)).ingress =
        traced.ingress.removeCached oldest ∧
      (traced.removeCached (.element oldest stale)).ingress.cachedOrder = rest ∧
      (traced.removeCached (.element oldest stale)).ingress.fits size =
        traced.ingress.fits size := by
  have hingress := removeCached_ingress traced (.element oldest stale) hlasts
  refine ⟨htracked.removeCached _ hlasts, hingress, ?_, ?_⟩
  · rw [hingress, removeCached_cachedOrder htracked.agrees]
    change traced.ingress.cachedOrder.erase oldest = rest
    rw [horder, List.erase_cons_head]
  · exact fits_of_config ((congrArg config hingress).trans
      (removeCached_shrinks traced.ingress oldest).config)

/-- While the fronts last, the loop evicts as the one by value does, and keeps the longest
part of the completion order that fits. -/
theorem Tracked.evictLoop {traced : TracedIngress} {size : CachedKey → Nat}
    (htracked : traced.Tracked size) {stale : Nat → CachedKey} {rounds round : Nat}
    (hrounds : traced.ingress.cachedOrder.length ≤ rounds)
    (hlasts : Lasts stale round
      (dropped (traced.ingress.fits size) traced.ingress.cachedOrder)) :
    (evictLoop stale rounds round traced).Tracked size ∧
      (evictLoop stale rounds round traced).ingress =
        OrderedIngress.evictLoop rounds traced.ingress ∧
      (evictLoop stale rounds round traced).ingress.cachedOrder =
        trim (traced.ingress.fits size) traced.ingress.cachedOrder := by
  induction rounds generalizing round traced with
  | zero =>
      have hnil := List.length_eq_zero_iff.mp (Nat.le_zero.mp hrounds)
      refine ⟨htracked, rfl, ?_⟩
      change traced.ingress.cachedOrder = _
      rw [hnil]
      rfl
  | succ rounds ih =>
      have hover := htracked.sized.overLimits htracked.agrees
      unfold TracedIngress.evictLoop OrderedIngress.evictLoop
      cases horder : traced.ingress.cachedOrder with
      | nil => exact ⟨htracked, rfl, horder⟩
      | cons oldest rest =>
          rw [horder] at hover hlasts hrounds
          rw [hover]
          cases hfits : traced.ingress.fits size (oldest :: rest) with
          | true =>
              rw [trim_of_fits hfits]
              exact ⟨htracked, rfl, horder⟩
          | false =>
              rw [dropped_cons hfits, lasts_cons] at hlasts
              rw [trim_cons hfits]
              obtain ⟨hnext, hingress, hrest, hsame⟩ :=
                htracked.evictFront horder hlasts.1
              rw [← hrest, ← hsame] at hlasts
              have hafter := ih hnext (hrest ▸ Nat.le_of_succ_le_succ hrounds) hlasts.2
              rw [hrest, hsame, hingress] at hafter
              exact hafter

/-- The loop ends by its own condition, whatever number of rounds it may take. -/
theorem Tracked.evictLoop_rounds {traced : TracedIngress} {size : CachedKey → Nat}
    (htracked : traced.Tracked size) {stale : Nat → CachedKey} {rounds round : Nat}
    (hrounds : traced.ingress.cachedOrder.length ≤ rounds)
    (hlasts : Lasts stale round
      (dropped (traced.ingress.fits size) traced.ingress.cachedOrder)) (more : Nat) :
    TracedIngress.evictLoop stale (rounds + more) round traced =
      TracedIngress.evictLoop stale rounds round traced := by
  induction rounds generalizing round traced with
  | zero =>
      have hnil := List.length_eq_zero_iff.mp (Nat.le_zero.mp hrounds)
      rw [Nat.zero_add]
      cases more with
      | zero => rfl
      | succ more =>
          unfold TracedIngress.evictLoop
          rw [hnil]
  | succ rounds ih =>
      have hover := htracked.sized.overLimits htracked.agrees
      rw [Nat.succ_add]
      unfold TracedIngress.evictLoop
      cases horder : traced.ingress.cachedOrder with
      | nil => rfl
      | cons oldest rest =>
          rw [horder] at hover hlasts hrounds
          rw [hover]
          cases hfits : traced.ingress.fits size (oldest :: rest) with
          | true => rfl
          | false =>
              rw [dropped_cons hfits, lasts_cons] at hlasts
              obtain ⟨hnext, -, hrest, hsame⟩ := htracked.evictFront horder hlasts.1
              rw [← hrest, ← hsame] at hlasts
              exact ih hnext (hrest ▸ Nat.le_of_succ_le_succ hrounds) hlasts.2

/-- The removal of the front logs what the reference read. -/
theorem Tracked.read_of_sound {traced : TracedIngress} {size : CachedKey → Nat}
    (htracked : traced.Tracked size) {oldest stale : CachedKey} {rest : List CachedKey}
    (horder : traced.ingress.cachedOrder = oldest :: rest)
    (hsound : ∀ removal ∈ (traced.removeCached (.element oldest stale)).removals,
      removal.Sound) : stale = oldest := by
  have hmem : oldest ∈ traced.ingress.cached := by
    rw [← htracked.agrees.mem_order, horder]
    exact List.mem_cons_self
  obtain ⟨entry, hlookup⟩ := Table.exists_lookup_of_mem hmem
  have hlog : (traced.removeCached (.element oldest stale)).removals = traced.removals ++
      [⟨oldest, [oldest, stale], traced.ingress.cachedBytes, entry.bytes⟩] :=
    removals_of_lookup traced (.element oldest stale) hlookup
  obtain ⟨hreads, -⟩ := hsound _ (hlog ▸ List.mem_append_right _ List.mem_cons_self)
  exact hreads stale (List.mem_cons_of_mem _ List.mem_cons_self)

theorem Tracked.lasts {traced : TracedIngress} {size : CachedKey → Nat}
    (htracked : traced.Tracked size) {stale : Nat → CachedKey} {rounds round : Nat}
    (hrounds : traced.ingress.cachedOrder.length ≤ rounds)
    (hsound : ∀ removal ∈ (TracedIngress.evictLoop stale rounds round traced).removals,
      removal.Sound) :
    Lasts stale round (dropped (traced.ingress.fits size) traced.ingress.cachedOrder) := by
  induction rounds generalizing round traced with
  | zero =>
      rw [List.length_eq_zero_iff.mp (Nat.le_zero.mp hrounds)]
      exact List.forall_mem_nil _
  | succ rounds ih =>
      have hover := htracked.sized.overLimits htracked.agrees
      unfold TracedIngress.evictLoop at hsound
      cases horder : traced.ingress.cachedOrder with
      | nil => exact List.forall_mem_nil _
      | cons oldest rest =>
          rw [horder] at hover hrounds hsound
          cases hfits : traced.ingress.fits size (oldest :: rest) with
          | true =>
              rw [dropped_of_fits hfits]
              exact List.forall_mem_nil _
          | false =>
              rw [hfits] at hover
              replace hover : traced.ingress.overLimits = true := hover
              simp only [hover, if_true] at hsound
              have hlast := htracked.read_of_sound horder fun removal hmem =>
                hsound removal ((evictLoop_removals _ _ _ _).subset hmem)
              obtain ⟨hnext, -, hrest, hsame⟩ := htracked.evictFront horder hlast
              have hlater := ih hnext (hrest ▸ Nat.le_of_succ_le_succ hrounds) hsound
              rw [hrest, hsame] at hlater
              rw [dropped_cons hfits, lasts_cons]
              exact ⟨hlast, hlater⟩

theorem Tracked.of_same {before after : TracedIngress} {size : CachedKey → Nat}
    (htracked : before.Tracked size) (hagrees : CacheAgrees after.ingress)
    (hcached : after.ingress.cached = before.ingress.cached)
    (horder : after.ingress.cachedOrder = before.ingress.cachedOrder)
    (hbytes : after.ingress.cachedBytes = before.ingress.cachedBytes)
    (hremovals : after.removals = before.removals) : after.Tracked size := by
  refine ⟨hagrees, ?_, hremovals ▸ htracked.sound⟩
  unfold OrderedIngress.Sized OrderedIngress.sizeAt
  rw [hcached, horder, hbytes]
  exact htracked.sized

theorem Tracked.removeAll {traced : TracedIngress} {size : CachedKey → Nat}
    (htracked : traced.Tracked size) (key : StreamKey) (sequences : List UInt64) :
    (sequences.foldl (fun traced sequence => traced.removeCached (.own ⟨key, sequence⟩))
        traced).Tracked size ∧
      (sequences.foldl (fun traced sequence => traced.removeCached (.own ⟨key, sequence⟩))
        traced).ingress = OrderedIngress.removeAll key sequences traced.ingress := by
  induction sequences generalizing traced with
  | nil => exact ⟨htracked, rfl⟩
  | cons sequence rest ih =>
      obtain ⟨hafter, hingress⟩ := ih (htracked.removeCached (.own ⟨key, sequence⟩) rfl)
      rw [removeCached_ingress traced (.own ⟨key, sequence⟩) rfl] at hingress
      exact ⟨hafter, hingress⟩

theorem Tracked.dropStreamCache {traced : TracedIngress} {size : CachedKey → Nat}
    (htracked : traced.Tracked size) (key : StreamKey) :
    (traced.dropStreamCache key).Tracked size ∧
      (traced.dropStreamCache key).ingress = traced.ingress.dropStreamCache key := by
  unfold TracedIngress.dropStreamCache
  cases hlookup : traced.ingress.streams.lookup key with
  | none =>
      refine ⟨htracked, ?_⟩
      unfold OrderedIngress.dropStreamCache
      rw [hlookup]
  | some state =>
      rw [dropStreamCache_of_lookup hlookup]
      exact htracked.removeAll key state.cachedSeqs.keys

theorem Tracked.revoke {traced : TracedIngress} {size : CachedKey → Nat}
    (htracked : traced.Tracked size) (old : OrderedGrant) :
    (traced.revoke old).Tracked size ∧
      (traced.revoke old).ingress = traced.ingress.revoke old := by
  obtain ⟨hdropped, hingress⟩ := htracked.dropStreamCache old.streamKey
  have hrevoked : (traced.revoke old).ingress = traced.ingress.revoke old := by
    unfold TracedIngress.revoke OrderedIngress.revoke
    dsimp only
    rw [hingress]
  refine ⟨hdropped.of_same ?_ rfl rfl rfl rfl, hrevoked⟩
  rw [hrevoked]
  exact (revoke_drops htracked.agrees old).agrees

theorem Tracked.foldl_revoke {traced : TracedIngress} {size : CachedKey → Nat}
    (htracked : traced.Tracked size) (olds : List OrderedGrant) :
    (olds.foldl TracedIngress.revoke traced).Tracked size ∧
      (olds.foldl TracedIngress.revoke traced).ingress =
        olds.foldl OrderedIngress.revoke traced.ingress := by
  induction olds generalizing traced with
  | nil => exact ⟨htracked, rfl⟩
  | cons old rest ih =>
      obtain ⟨hrevoked, hingress⟩ := htracked.revoke old
      obtain ⟨hafter, hall⟩ := ih hrevoked
      rw [hingress] at hall
      exact ⟨hafter, hall⟩

theorem Tracked.revokeSuperseded {traced : TracedIngress} {size : CachedKey → Nat}
    (htracked : traced.Tracked size) (grant : OrderedGrant) :
    (traced.revokeSuperseded grant).Tracked size ∧
      (traced.revokeSuperseded grant).ingress = traced.ingress.revokeSuperseded grant := by
  obtain ⟨hfold, hingress⟩ :=
    htracked.foldl_revoke (traced.ingress.grants.filter (supersededBy grant))
  have hrevoked : (traced.revokeSuperseded grant).ingress =
      traced.ingress.revokeSuperseded grant := by
    unfold TracedIngress.revokeSuperseded OrderedIngress.revokeSuperseded
    dsimp only
    rw [hingress]
  refine ⟨hfold.of_same ?_ rfl rfl rfl rfl, hrevoked⟩
  rw [hrevoked]
  exact (revokeSuperseded_drops htracked.agrees grant).agrees

section

variable [Infra]

/-- `GrantStream` answers as the one by value does, and its removals are sound. -/
theorem Tracked.grantStream {traced : TracedIngress} {size : CachedKey → Nat}
    (htracked : traced.Tracked size) (hconsistent : Consistent traced.ingress)
    (grant : OrderedGrant) :
    (traced.grantStream grant).2.Tracked size ∧
      (traced.grantStream grant).2.ingress = (traced.ingress.grantStream grant).2 := by
  obtain ⟨hrevoked, hingress⟩ := htracked.revokeSuperseded grant
  unfold TracedIngress.grantStream OrderedIngress.grantStream
  split
  · exact ⟨htracked, rfl⟩
  case isFalse hservice =>
    split
    · exact ⟨htracked, rfl⟩
    · cases hfind : traced.ingress.grants.find?
          (fun entry => sameOrderedStreamId entry grant) with
      | some entry =>
          dsimp only
          split
          · exact ⟨htracked, rfl⟩
          · exact ⟨htracked, rfl⟩
      | none =>
          dsimp only
          rw [hingress]
          split
          · exact ⟨hrevoked, hingress⟩
          · refine ⟨hrevoked.of_same ?_ ?_ ?_ ?_ rfl, rfl⟩
            · exact hingress ▸ hrevoked.agrees.install (hingress ▸
                revokeSuperseded_window_none hconsistent (not_not.mp hservice) hfind)
            · rw [hingress]
              rfl
            · rw [hingress]
              rfl
            · rw [hingress]
              rfl

end

/-- A stored reply takes its place in the sums. -/
theorem Tracked.keep {traced : TracedIngress} {size : CachedKey → Nat}
    (htracked : traced.Tracked size) {key : CachedKey} (entry : InFlight)
    (reply : OrderedTerminalReply) {state : StreamState}
    (hlookup : traced.ingress.streams.lookup key.stream = some state)
    (hnotMem : key ∉ traced.ingress.cached) :
    Tracked { traced with ingress := traced.ingress.keep key entry reply }
      (Function.update size key (replyBytes reply)) := by
  refine ⟨htracked.agrees.keep entry reply hlookup hnotMem, ⟨?_, ?_⟩, htracked.sound⟩
  · intro other hother
    dsimp only [sizeAt]
    rw [keep_cached entry reply hnotMem, Table.lookup_insert_eq]
    by_cases heq : other = key
    · rw [if_pos heq, heq, Function.update_self]
      rfl
    · obtain hold | hnew := List.mem_append.mp hother
      · rw [if_neg heq, Function.update_of_ne heq]
        exact htracked.sized.1 other hold
      · exact absurd (List.mem_singleton.mp hnew) heq
  · have hold : traced.ingress.cachedOrder.map (Function.update size key (replyBytes reply)) =
        traced.ingress.cachedOrder.map size := by
      refine List.map_congr_left fun other hother => Function.update_of_ne ?_ _ _
      rintro rfl
      exact hnotMem (htracked.agrees.mem_order.mp hother)
    change traced.ingress.cachedBytes + replyBytes reply =
      ((traced.ingress.cachedOrder ++ [key]).map _).sum
    rw [List.map_append, List.sum_append, hold, ← htracked.sized.2, List.map_singleton,
      List.sum_singleton, Function.update_self]

/-- Storing evicts as the one by value does, exactly while the fronts last. -/
theorem Tracked.store {traced : TracedIngress} {size : CachedKey → Nat}
    (htracked : traced.Tracked size) {key : CachedKey} (entry : InFlight)
    (reply : OrderedTerminalReply) {state : StreamState}
    (hlookup : traced.ingress.streams.lookup key.stream = some state)
    (hnotMem : key ∉ traced.ingress.cached) (stale : Nat → CachedKey)
    (hfits : ¬traced.ingress.config.maxCachedResultBytes < replyBytes reply)
    (hlasts : Lasts stale 0 (dropped
      (traced.ingress.fits (Function.update size key (replyBytes reply)))
      (traced.ingress.cachedOrder ++ [key]))) :
    (traced.store key entry reply stale).Tracked
        (Function.update size key (replyBytes reply)) ∧
      (traced.store key entry reply stale).ingress = traced.ingress.store key entry reply ∧
      (traced.store key entry reply stale).ingress.cachedOrder =
        trim (traced.ingress.fits (Function.update size key (replyBytes reply)))
          (traced.ingress.cachedOrder ++ [key]) := by
  rw [store_of_le hfits]
  unfold TracedIngress.store
  rw [if_neg hfits]
  exact (htracked.keep entry reply hlookup hnotMem).evictLoop (Nat.le_refl _) hlasts

section

variable [Infra]

theorem complete_of_inFlight (traced : TracedIngress) {admission : Admission}
    {state : StreamState} {entry : InFlight} (hkind : admission.kind = .execute)
    (hlookup : traced.ingress.streams.lookup admission.streamKey = some state)
    (hentry : state.inFlight.lookup admission.sequence = some entry)
    (reply : OrderedTerminalReply) (stale : Nat → CachedKey) :
    traced.complete admission reply stale = (.ok (), TracedIngress.store
        { traced with ingress := traced.ingress.takeOut admission state }
        ⟨admission.streamKey, admission.sequence⟩ entry (terminalReply reply) stale) ∧
      traced.ingress.complete admission reply = (.ok (),
        (traced.ingress.takeOut admission state).store
          ⟨admission.streamKey, admission.sequence⟩ entry (terminalReply reply)) := by
  unfold TracedIngress.complete OrderedIngress.complete
  rw [if_neg (not_not_intro hkind), if_neg (not_not_intro hkind), hlookup]
  dsimp only
  rw [hentry]
  exact ⟨rfl, rfl⟩

/-- Any other completion is refused, as it is by value. -/
theorem complete_cases (traced : TracedIngress) (admission : Admission)
    (reply : OrderedTerminalReply) (stale : Nat → CachedKey) :
    (∃ error, traced.complete admission reply stale = (.error error, traced) ∧
      traced.ingress.complete admission reply = (.error error, traced.ingress)) ∨
    (∃ state entry, admission.kind = .execute ∧
      traced.ingress.streams.lookup admission.streamKey = some state ∧
      state.inFlight.lookup admission.sequence = some entry) := by
  by_cases hkind : admission.kind = .execute
  case neg => exact Or.inl ⟨_, if_pos hkind, if_pos hkind⟩
  cases hlookup : traced.ingress.streams.lookup admission.streamKey with
  | none =>
      refine Or.inl ?_
      unfold TracedIngress.complete OrderedIngress.complete
      rw [if_neg (not_not_intro hkind), if_neg (not_not_intro hkind), hlookup]
      exact ⟨_, rfl, rfl⟩
  | some state =>
      cases hentry : state.inFlight.lookup admission.sequence with
      | none =>
          refine Or.inl ?_
          unfold TracedIngress.complete OrderedIngress.complete
          rw [if_neg (not_not_intro hkind), if_neg (not_not_intro hkind), hlookup]
          dsimp only
          rw [hentry]
          exact ⟨_, rfl, rfl⟩
      | some entry => exact Or.inr ⟨state, entry, hkind, rfl, hentry⟩

end

end TracedIngress

end BbtFramework.Ordered
