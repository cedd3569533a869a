import BbtFramework.Ordered.Ingress
import Mathlib.Tactic.Tauto

/-!
# The cache containers of the ingress agree

The ingress spreads one fact over several containers: a cached sequence stands
in the cache, in the completion order and in its stream's own record.  This
file states their agreement and what removal, eviction and revocation do to the
windows of the streams and to the cache.
-/

namespace BbtFramework.Ordered

open BbtFramework.Library

namespace OrderedIngress

/-- What admission reads of a stream: its counter and its requests in flight. -/
def window (ingress : OrderedIngress) (key : StreamKey) :
    Option (UInt64 × Table UInt64 InFlight) :=
  (ingress.streams.lookup key).map fun state => (state.nextSequence, state.inFlight)

def nextAt (ingress : OrderedIngress) (key : StreamKey) : Option UInt64 :=
  (ingress.window key).map Prod.fst

def inFlightAt (ingress : OrderedIngress) (key : StreamKey) (sequence : UInt64) :
    Option InFlight :=
  (ingress.window key).bind fun view => view.2.lookup sequence

def cachedAt (ingress : OrderedIngress) (key : StreamKey) (sequence : UInt64) :
    Option CachedResult :=
  ingress.cached.lookup ⟨key, sequence⟩

def recordsCached (ingress : OrderedIngress) (key : CachedKey) : Prop :=
  ∃ state, ingress.streams.lookup key.stream = some state ∧
    key.sequence ∈ state.cachedSeqs

/-- One past the last sequence consumed.  The counter itself wraps to 0 once
every sequence is consumed. -/
def span (next : UInt64) : Nat :=
  if next = 0 then 2 ^ 64 else next.toNat

def Consumed (ingress : OrderedIngress) (key : StreamKey) (sequence : UInt64) :
    Prop :=
  ∃ next, ingress.nextAt key = some next ∧
    1 ≤ sequence.toNat ∧ sequence.toNat < span next

theorem span_succ {next : UInt64} (hnext : next ≠ 0) :
    span (next + 1) = span next + 1 := by
  have hpos : next.toNat ≠ 0 := fun h => hnext (UInt64.toNat_inj.mp h)
  have hlt := next.toNat_lt
  have hadd : (next + 1).toNat = (next.toNat + 1) % 2 ^ 64 := by
    simp [UInt64.toNat_add]
  unfold span
  rw [if_neg hnext]
  split
  case isTrue hzero =>
    rw [hzero] at hadd
    have : (0 : UInt64).toNat = 0 := rfl
    omega
  case isFalse hne =>
    have : (next + 1).toNat ≠ 0 := fun h => hne (UInt64.toNat_inj.mp h)
    omega

theorem span_pos (next : UInt64) : 1 ≤ span next := by
  unfold span
  split
  · exact Nat.one_le_two_pow
  · rename_i hne
    have : next.toNat ≠ 0 := fun h => hne (UInt64.toNat_inj.mp h)
    omega

theorem span_eq {next : UInt64} (hnext : next ≠ 0) : span next = next.toNat :=
  if_neg hnext

@[simp]
theorem window_setStream (ingress : OrderedIngress) (key other : StreamKey)
    (state : StreamState) :
    (ingress.setStream key state).window other =
      if other = key then some (state.nextSequence, state.inFlight)
      else ingress.window other := by
  simp only [window, setStream, Table.lookup_insert_eq]
  split <;> rfl

theorem window_of_lookup {ingress : OrderedIngress} {key : StreamKey}
    {state : StreamState} (hlookup : ingress.streams.lookup key = some state) :
    ingress.window key = some (state.nextSequence, state.inFlight) := by
  simp [window, hlookup]

theorem streamState_of_lookup {ingress : OrderedIngress} {key : StreamKey}
    {state : StreamState} (hlookup : ingress.streams.lookup key = some state) :
    ingress.streamState key = state := by
  simp [streamState, hlookup]

theorem touchStream_of_lookup {ingress : OrderedIngress} {key : StreamKey}
    {state : StreamState} (hlookup : ingress.streams.lookup key = some state) :
    ingress.touchStream key = ingress := by
  simp only [touchStream]
  rw [Table.emplace_of_mem _ (Table.mem_of_lookup hlookup)]

@[simp]
theorem window_forgetCachedSeq (ingress : OrderedIngress) (key : CachedKey)
    (other : StreamKey) :
    (ingress.forgetCachedSeq key).window other = ingress.window other := by
  unfold forgetCachedSeq
  cases hlookup : ingress.streams.lookup key.stream with
  | none => rfl
  | some state =>
      simp only [window_setStream]
      split
      case isTrue heq =>
        rw [heq, window_of_lookup hlookup]
      case isFalse => rfl

/-- Removing a cached reply shrinks the cache and touches nothing admission
reads of the streams. -/
structure Shrinks (before after : OrderedIngress) : Prop where
  config : after.config = before.config
  grants : after.grants = before.grants
  window : ∀ key, after.window key = before.window key
  cached : ∀ key entry, after.cached.lookup key = some entry →
    before.cached.lookup key = some entry

theorem Shrinks.refl (ingress : OrderedIngress) : Shrinks ingress ingress :=
  ⟨rfl, rfl, fun _ => rfl, fun _ _ h => h⟩

theorem Shrinks.trans {first middle last : OrderedIngress}
    (hleft : Shrinks first middle) (hright : Shrinks middle last) :
    Shrinks first last where
  config := hright.config.trans hleft.config
  grants := hright.grants.trans hleft.grants
  window key := (hright.window key).trans (hleft.window key)
  cached key entry h := hleft.cached key entry (hright.cached key entry h)

@[simp]
theorem forgetCachedSeq_cached (ingress : OrderedIngress) (key : CachedKey) :
    (ingress.forgetCachedSeq key).cached = ingress.cached := by
  unfold forgetCachedSeq
  split <;> rfl

@[simp]
theorem forgetCachedSeq_cachedOrder (ingress : OrderedIngress) (key : CachedKey) :
    (ingress.forgetCachedSeq key).cachedOrder = ingress.cachedOrder := by
  unfold forgetCachedSeq
  split <;> rfl

@[simp]
theorem forgetCachedSeq_grants (ingress : OrderedIngress) (key : CachedKey) :
    (ingress.forgetCachedSeq key).grants = ingress.grants := by
  unfold forgetCachedSeq
  split <;> rfl

@[simp]
theorem forgetCachedSeq_config (ingress : OrderedIngress) (key : CachedKey) :
    (ingress.forgetCachedSeq key).config = ingress.config := by
  unfold forgetCachedSeq
  split <;> rfl

theorem recordsCached_forgetCachedSeq (ingress : OrderedIngress)
    (key other : CachedKey) :
    (ingress.forgetCachedSeq key).recordsCached other ↔
      other ≠ key ∧ ingress.recordsCached other := by
  unfold forgetCachedSeq
  cases hlookup : ingress.streams.lookup key.stream with
  | none =>
      refine ⟨fun hrec => ⟨?_, hrec⟩, fun h => h.2⟩
      rintro rfl
      obtain ⟨state, hstate, -⟩ := hrec
      rw [hlookup] at hstate
      cases hstate
  | some state =>
      obtain ⟨stream, sequence⟩ := other
      simp only [recordsCached, setStream, Table.lookup_insert_eq]
      by_cases hstream : stream = key.stream
      · subst hstream
        simp only [if_true, Option.some.injEq, exists_eq_left', hlookup,
          AList.mem_erase]
        constructor
        · rintro ⟨hne, hmem⟩
          exact ⟨fun h => hne (h ▸ rfl), hmem⟩
        · rintro ⟨hne, hmem⟩
          refine ⟨fun h => hne ?_, hmem⟩
          rw [h]
      · simp only [hstream, if_false]
        exact ⟨fun h => ⟨fun heq => hstream (heq ▸ rfl), h⟩, fun h => h.2⟩

theorem removeCached_shrinks (ingress : OrderedIngress) (key : CachedKey) :
    Shrinks ingress (ingress.removeCached key) := by
  unfold removeCached
  cases hlookup : ingress.cached.lookup key with
  | none => exact .refl ingress
  | some entry =>
      refine ⟨by simp, by simp, fun other => ?_, fun other kept hkept => ?_⟩
      · rw [window_forgetCachedSeq]
        rfl
      · rw [forgetCachedSeq_cached, Table.lookup_erase_eq] at hkept
        split at hkept
        · cases hkept
        · exact hkept

theorem removeCached_lookup {ingress : OrderedIngress} {key other : CachedKey}
    (hne : other ≠ key) :
    (ingress.removeCached key).cached.lookup other =
      ingress.cached.lookup other := by
  unfold removeCached
  cases hlookup : ingress.cached.lookup key with
  | none => rfl
  | some entry =>
      simp only [forgetCachedSeq_cached]
      exact AList.lookup_erase_ne hne

/-- The completion order lists the cached keys once each, and the streams
record exactly the cached keys. -/
structure CacheAgrees (ingress : OrderedIngress) : Prop where
  order : ingress.cachedOrder.Perm ingress.cached.keys
  records : ∀ key, key ∈ ingress.cached ↔ ingress.recordsCached key

theorem mem_removeCached {ingress : OrderedIngress} {key : CachedKey}
    (other : CachedKey) :
    other ∈ (ingress.removeCached key).cached ↔
      other ≠ key ∧ other ∈ ingress.cached := by
  unfold removeCached
  cases hlookup : ingress.cached.lookup key with
  | none =>
      refine ⟨fun hmem => ⟨?_, hmem⟩, fun h => h.2⟩
      rintro rfl
      exact AList.lookup_eq_none.mp hlookup hmem
  | some entry => simp [AList.mem_erase]

theorem CacheAgrees.removeCached {ingress : OrderedIngress}
    (hagrees : CacheAgrees ingress) (key : CachedKey) :
    CacheAgrees (ingress.removeCached key) := by
  refine ⟨?_, fun other => ?_⟩
  · unfold OrderedIngress.removeCached
    split
    · exact hagrees.order
    · simp only [forgetCachedSeq_cachedOrder, forgetCachedSeq_cached,
        AList.keys_erase]
      exact hagrees.order.erase key
  · rw [mem_removeCached, hagrees.records]
    unfold OrderedIngress.removeCached
    cases hlookup : ingress.cached.lookup key with
    | none =>
        refine ⟨fun h => h.2, fun hrec => ⟨?_, hrec⟩⟩
        rintro rfl
        exact AList.lookup_eq_none.mp hlookup ((hagrees.records other).mpr hrec)
    | some entry =>
        rw [recordsCached_forgetCachedSeq]
        rfl

/-! ## Eviction and revocation -/

theorem evictLoop_shrinks (rounds : Nat) (ingress : OrderedIngress) :
    Shrinks ingress (evictLoop rounds ingress) := by
  induction rounds generalizing ingress with
  | zero => exact .refl ingress
  | succ rounds ih =>
      unfold evictLoop
      split
      · exact .refl ingress
      · split
        · exact (removeCached_shrinks ingress _).trans (ih _)
        · exact .refl ingress

theorem CacheAgrees.evictLoop {ingress : OrderedIngress}
    (hagrees : CacheAgrees ingress) (rounds : Nat) :
    CacheAgrees (evictLoop rounds ingress) := by
  induction rounds generalizing ingress with
  | zero => exact hagrees
  | succ rounds ih =>
      unfold OrderedIngress.evictLoop
      split
      · exact hagrees
      · split
        · exact ih (hagrees.removeCached _)
        · exact hagrees

def removeAll (key : StreamKey) (sequences : List UInt64)
    (ingress : OrderedIngress) : OrderedIngress :=
  sequences.foldl (fun ingress sequence => ingress.removeCached ⟨key, sequence⟩)
    ingress

theorem removeAll_shrinks (key : StreamKey) (sequences : List UInt64)
    (ingress : OrderedIngress) :
    Shrinks ingress (removeAll key sequences ingress) := by
  induction sequences generalizing ingress with
  | nil => exact .refl ingress
  | cons sequence rest ih =>
      exact (removeCached_shrinks ingress ⟨key, sequence⟩).trans (ih _)

theorem CacheAgrees.removeAll {ingress : OrderedIngress}
    (hagrees : CacheAgrees ingress) (key : StreamKey) (sequences : List UInt64) :
    CacheAgrees (removeAll key sequences ingress) := by
  induction sequences generalizing ingress with
  | nil => exact hagrees
  | cons sequence rest ih => exact ih (hagrees.removeCached ⟨key, sequence⟩)

theorem mem_removeAll {key : StreamKey} {sequences : List UInt64}
    {ingress : OrderedIngress} (other : CachedKey) :
    other ∈ (removeAll key sequences ingress).cached ↔
      ¬ (other.stream = key ∧ other.sequence ∈ sequences) ∧
        other ∈ ingress.cached := by
  induction sequences generalizing ingress with
  | nil => simp [removeAll]
  | cons sequence rest ih =>
      change other ∈ (OrderedIngress.removeAll key rest _).cached ↔ _
      rw [ih, mem_removeCached, List.mem_cons]
      have hkey : other = ⟨key, sequence⟩ ↔
          other.stream = key ∧ other.sequence = sequence := by
        cases other
        simp
      rw [ne_eq, hkey]
      tauto

/-- The replies of the other streams stay as they were. -/
theorem removeAll_lookup {key : StreamKey} {sequences : List UInt64}
    {ingress : OrderedIngress} {other : CachedKey} (hne : other.stream ≠ key) :
    (removeAll key sequences ingress).cached.lookup other =
      ingress.cached.lookup other := by
  induction sequences generalizing ingress with
  | nil => rfl
  | cons sequence rest ih =>
      have hother : other ≠ ⟨key, sequence⟩ := fun h => hne (h ▸ rfl)
      exact ih.trans (removeCached_lookup hother)

theorem dropStreamCache_of_lookup {ingress : OrderedIngress} {key : StreamKey}
    {state : StreamState} (hlookup : ingress.streams.lookup key = some state) :
    ingress.dropStreamCache key = removeAll key state.cachedSeqs.keys ingress := by
  simp [dropStreamCache, hlookup, removeAll]

theorem dropStreamCache_shrinks (ingress : OrderedIngress) (key : StreamKey) :
    Shrinks ingress (ingress.dropStreamCache key) := by
  cases hlookup : ingress.streams.lookup key with
  | none =>
      have hsame : ingress.dropStreamCache key = ingress := by
        simp [dropStreamCache, hlookup]
      rw [hsame]
      exact .refl ingress
  | some state =>
      rw [dropStreamCache_of_lookup hlookup]
      exact removeAll_shrinks key _ ingress

theorem mem_dropStreamCache {ingress : OrderedIngress}
    (hagrees : CacheAgrees ingress) (key : StreamKey) (other : CachedKey) :
    other ∈ (ingress.dropStreamCache key).cached ↔
      other.stream ≠ key ∧ other ∈ ingress.cached := by
  have hrecord := hagrees.records other
  cases hlookup : ingress.streams.lookup key with
  | none =>
      simp only [dropStreamCache, hlookup]
      refine ⟨fun hmem => ⟨?_, hmem⟩, fun h => h.2⟩
      rintro rfl
      obtain ⟨state, hstate, -⟩ := hrecord.mp hmem
      rw [hlookup] at hstate
      cases hstate
  | some state =>
      rw [dropStreamCache_of_lookup hlookup, mem_removeAll]
      refine ⟨fun ⟨hnot, hmem⟩ => ⟨?_, hmem⟩, fun ⟨hne, hmem⟩ => ⟨?_, hmem⟩⟩
      · rintro rfl
        obtain ⟨found, hfound, hseq⟩ := hrecord.mp hmem
        rw [hlookup] at hfound
        cases hfound
        exact hnot ⟨rfl, AList.mem_keys.mp hseq⟩
      · exact fun h => hne h.1

theorem dropStreamCache_lookup {ingress : OrderedIngress} {key : StreamKey}
    {other : CachedKey} (hne : other.stream ≠ key) :
    (ingress.dropStreamCache key).cached.lookup other =
      ingress.cached.lookup other := by
  cases hlookup : ingress.streams.lookup key with
  | none => simp [dropStreamCache, hlookup]
  | some state =>
      rw [dropStreamCache_of_lookup hlookup]
      exact removeAll_lookup hne

theorem CacheAgrees.dropStreamCache {ingress : OrderedIngress}
    (hagrees : CacheAgrees ingress) (key : StreamKey) :
    CacheAgrees (ingress.dropStreamCache key) := by
  cases hlookup : ingress.streams.lookup key with
  | none =>
      have hsame : ingress.dropStreamCache key = ingress := by
        simp [OrderedIngress.dropStreamCache, hlookup]
      rw [hsame]
      exact hagrees
  | some state =>
      rw [dropStreamCache_of_lookup hlookup]
      exact hagrees.removeAll key _

/-- What is left of an ingress from which the streams `gone` were revoked. -/
structure Drops (gone : StreamKey → Prop) (before after : OrderedIngress) :
    Prop where
  config : after.config = before.config
  grants : after.grants = before.grants
  windowGone : ∀ key, gone key → after.window key = none
  windowKept : ∀ key, ¬ gone key → after.window key = before.window key
  cachedGone : ∀ key, gone key.stream → after.cached.lookup key = none
  cachedKept : ∀ key, ¬ gone key.stream →
    after.cached.lookup key = before.cached.lookup key
  agrees : CacheAgrees after

theorem revoke_drops {ingress : OrderedIngress} (hagrees : CacheAgrees ingress)
    (old : OrderedGrant) :
    Drops (fun key => key = old.streamKey) ingress (ingress.revoke old) := by
  have hshrinks := dropStreamCache_shrinks ingress old.streamKey
  have hkept := hagrees.dropStreamCache old.streamKey
  refine ⟨hshrinks.config, hshrinks.grants, ?_, ?_, ?_, ?_, ?_⟩
  · rintro key rfl
    simp [window, revoke]
  · intro key hne
    rw [← hshrinks.window key]
    simp [window, revoke, hne]
  · intro key hkey
    refine AList.lookup_eq_none.mpr fun hmem => ?_
    exact ((mem_dropStreamCache hagrees old.streamKey key).mp hmem).1 hkey
  · intro key hne
    exact dropStreamCache_lookup hne
  · refine ⟨hkept.order, fun key => ?_⟩
    change key ∈ (ingress.dropStreamCache old.streamKey).cached ↔ _
    constructor
    · intro hmem
      have hne := ((mem_dropStreamCache hagrees old.streamKey key).mp hmem).1
      obtain ⟨state, hstate, hseq⟩ := (hkept.records key).mp hmem
      refine ⟨state, ?_, hseq⟩
      simp [revoke, hne, hstate]
    · rintro ⟨state, hstate, hseq⟩
      simp only [revoke, Table.lookup_erase_eq] at hstate
      split at hstate
      · cases hstate
      · exact (hkept.records key).mpr ⟨state, hstate, hseq⟩

theorem Drops.congr {gone other : StreamKey → Prop}
    {before after : OrderedIngress} (hdrops : Drops gone before after)
    (hiff : ∀ key, gone key ↔ other key) : Drops other before after := by
  have heq : gone = other := funext fun key => propext (hiff key)
  exact heq ▸ hdrops

theorem Drops.trans {goneFirst goneSecond : StreamKey → Prop}
    {first middle last : OrderedIngress}
    (hleft : Drops goneFirst first middle)
    (hright : Drops goneSecond middle last) :
    Drops (fun key => goneFirst key ∨ goneSecond key) first last where
  config := hright.config.trans hleft.config
  grants := hright.grants.trans hleft.grants
  windowGone key hgone := by
    by_cases hsecond : goneSecond key
    · exact hright.windowGone key hsecond
    · rw [hright.windowKept key hsecond]
      exact hleft.windowGone key (hgone.resolve_right hsecond)
  windowKept key hnot := by
    rw [not_or] at hnot
    rw [hright.windowKept key hnot.2, hleft.windowKept key hnot.1]
  cachedGone key hgone := by
    by_cases hsecond : goneSecond key.stream
    · exact hright.cachedGone key hsecond
    · rw [hright.cachedKept key hsecond]
      exact hleft.cachedGone key (hgone.resolve_right hsecond)
  cachedKept key hnot := by
    rw [not_or] at hnot
    rw [hright.cachedKept key hnot.2, hleft.cachedKept key hnot.1]
  agrees := hright.agrees

theorem foldl_revoke_drops {ingress : OrderedIngress}
    (hagrees : CacheAgrees ingress) (olds : List OrderedGrant) :
    Drops (fun key => ∃ old ∈ olds, key = old.streamKey) ingress
      (olds.foldl revoke ingress) := by
  induction olds generalizing ingress with
  | nil =>
      have hnone : ∀ key, ¬ ∃ old ∈ ([] : List OrderedGrant),
          key = old.streamKey := by simp
      exact ⟨rfl, rfl, fun key hgone => absurd hgone (hnone key),
        fun _ _ => rfl, fun key hgone => absurd hgone (hnone key.stream),
        fun _ _ => rfl, hagrees⟩
  | cons old rest ih =>
      have hfirst := revoke_drops hagrees old
      refine (hfirst.trans (ih hfirst.agrees)).congr fun key => ?_
      simp

theorem supersededBy_iff {grant old : OrderedGrant} :
    supersededBy grant old = true ↔
      old.streamKey = grant.streamKey ∧
        old.receiverEpoch ≠ grant.receiverEpoch := by
  simp only [supersededBy, sameProducerStream, OrderedGrant.streamKey,
    Bool.and_eq_true, beq_iff_eq, bne_iff_ne, StreamKey.mk.injEq]
  tauto

theorem revokeSuperseded_drops {ingress : OrderedIngress}
    (hagrees : CacheAgrees ingress) (grant : OrderedGrant) :
    Drops
      (fun key => key = grant.streamKey ∧
        ∃ old ∈ ingress.grants, supersededBy grant old = true)
      { ingress with
        grants := ingress.grants.filter (fun old => !supersededBy grant old) }
      (ingress.revokeSuperseded grant) := by
  have hfold := foldl_revoke_drops hagrees
    (ingress.grants.filter (supersededBy grant))
  have hgone : ∀ key,
      (∃ old ∈ ingress.grants.filter (supersededBy grant),
        key = old.streamKey) ↔
      (key = grant.streamKey ∧
        ∃ old ∈ ingress.grants, supersededBy grant old = true) := by
    intro key
    simp only [List.mem_filter]
    constructor
    · rintro ⟨old, ⟨hmem, hold⟩, rfl⟩
      exact ⟨(supersededBy_iff.mp hold).1, old, hmem, hold⟩
    · rintro ⟨rfl, old, hmem, hold⟩
      exact ⟨old, ⟨hmem, hold⟩, (supersededBy_iff.mp hold).1.symm⟩
  have hdrops := hfold.congr hgone
  exact ⟨hdrops.config, rfl, hdrops.windowGone, hdrops.windowKept,
    hdrops.cachedGone, hdrops.cachedKept,
    ⟨hdrops.agrees.order, hdrops.agrees.records⟩⟩

end OrderedIngress

end BbtFramework.Ordered
