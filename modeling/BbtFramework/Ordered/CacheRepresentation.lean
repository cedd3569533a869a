import BbtFramework.Ordered.CacheRemovals

/-!
# How the cache of the ingress is represented

The containers of the ingress represent one cache as long as an erased front of the
completion order still reads as its key.
-/

namespace BbtFramework.Ordered

open BbtFramework.Library
open OrderedIngress

namespace OrderedIngress

/-- A completion that ends a request in flight with a reply of this size caches it. -/
def stores (ingress : OrderedIngress) (admission : Admission)
    (reply : OrderedTerminalReply) : Bool :=
  decide (admission.kind = .execute) &&
    (ingress.inFlightAt admission.streamKey admission.sequence).isSome &&
      decide (replyBytes reply ≤ ingress.config.maxCachedResultBytes)

/-- The sizes with the reply of `key` in the cache. -/
def sizeWith (ingress : OrderedIngress) (key : CachedKey) (reply : OrderedTerminalReply) :
    CachedKey → Nat :=
  Function.update ingress.sizeAt key (replyBytes reply)

/-- The keys a completion pushes out, oldest first. -/
def pushedOut (ingress : OrderedIngress) (admission : Admission)
    (reply : OrderedTerminalReply) : List CachedKey :=
  if ingress.stores admission reply then
    dropped (ingress.fits (ingress.sizeWith ⟨admission.streamKey, admission.sequence⟩ reply))
      (ingress.cachedOrder ++ [⟨admission.streamKey, admission.sequence⟩])
  else []

end OrderedIngress

section

variable [Infra]

/-- Nothing is evicted, or the erased fronts still read as their keys. -/
def FrontsLast (world : CacheWorld) : CacheCall → Prop
  | .complete admission reply stale => TracedIngress.Lasts stale 0
      (world.traced.ingress.pushedOut admission (terminalReply reply))
  | _ => True

instance (world : CacheWorld) : (call : CacheCall) → Decidable (FrontsLast world call)
  | .grant _ => inferInstanceAs (Decidable True)
  | .admitRequest _ => inferInstanceAs (Decidable True)
  | .complete _ _ _ => inferInstanceAs (Decidable (TracedIngress.Lasts _ _ _))

end

namespace OrderedIngress

theorem Sized.fits {ingress : OrderedIngress} {size : CachedKey → Nat}
    (hsized : ingress.Sized size) :
    ingress.fits ingress.sizeAt ingress.cachedOrder = ingress.fits size ingress.cachedOrder := by
  unfold OrderedIngress.fits
  rw [List.map_congr_left hsized.1]

theorem admitRequest_cache [Infra] (ingress : OrderedIngress)
    (request : OrderedIngressRequest) :
    (ingress.admitRequest request).2.config = ingress.config ∧
      (ingress.admitRequest request).2.cached = ingress.cached ∧
      (ingress.admitRequest request).2.cachedOrder = ingress.cachedOrder ∧
      (ingress.admitRequest request).2.cachedBytes = ingress.cachedBytes := by
  unfold admitRequest
  split
  · exact ⟨rfl, rfl, rfl, rfl⟩
  · split
    · exact ⟨rfl, rfl, rfl, rfl⟩
    · split
      · exact ⟨rfl, rfl, rfl, rfl⟩
      · dsimp only
        split
        · exact ⟨rfl, rfl, rfl, rfl⟩
        · split
          · exact ⟨rfl, rfl, rfl, rfl⟩
          · split
            · exact ⟨rfl, rfl, rfl, rfl⟩
            · exact ⟨rfl, rfl, rfl, rfl⟩

end OrderedIngress

theorem TracedIngress.Tracked.canonical {traced : TracedIngress} {size : CachedKey → Nat}
    (htracked : traced.Tracked size) : traced.Tracked traced.ingress.sizeAt := by
  refine ⟨htracked.agrees, ⟨fun _ _ => rfl, ?_⟩, htracked.sound⟩
  rw [List.map_congr_left htracked.sized.1]
  exact htracked.sized.2

namespace CacheWorld

structure Holds (world : CacheWorld) : Prop where
  consistent : Consistent world.traced.ingress
  tracked : world.traced.Tracked world.traced.ingress.sizeAt
  measured : ∀ key entry, world.traced.ingress.cached.lookup key = some entry →
    entry.bytes = replyBytes entry.reply
  room : world.traced.ingress.fits world.traced.ingress.sizeAt
    world.traced.ingress.cachedOrder = true
  positive : 0 < world.traced.ingress.config.maxCachedResults
  completion : world.traced.ingress.cachedOrder.Pairwise
    (fun older newer => world.completedAt older < world.completedAt newer)
  past : ∀ key ∈ world.traced.ingress.cachedOrder, world.completedAt key < world.clock

namespace Holds

/-- A call that stores nothing leaves the history alone. -/
theorem of_leaner {world : CacheWorld} (hholds : world.Holds) {after : TracedIngress}
    {size : CachedKey → Nat} (hconsistent : Consistent after.ingress)
    (htracked : after.Tracked size) (hleaner : Leaner world.traced.ingress after.ingress) :
    ({ world with traced := after } : CacheWorld).Holds := by
  have hcanonical := htracked.canonical
  obtain ⟨hcount, hbytes⟩ := fits_iff.mp hholds.room
  rw [← hholds.tracked.sized.2] at hbytes
  refine ⟨hconsistent, hcanonical, ?_, ?_, ?_, ?_, ?_⟩
  · intro key entry hlookup
    exact hholds.measured key entry (hleaner.cached key entry hlookup)
  · refine fits_iff.mpr ⟨?_, ?_⟩
    · rw [hleaner.config]
      exact Nat.le_trans hleaner.order.length_le hcount
    · rw [hleaner.config, ← hcanonical.sized.2]
      exact Nat.le_trans hleaner.bytes hbytes
  · rw [hleaner.config]
    exact hholds.positive
  · exact hholds.completion.sublist hleaner.order
  · intro key hmem
    exact hholds.past key (hleaner.order.subset hmem)

/-- A completion of a key outside of the cache. -/
theorem ticked {world : CacheWorld} (hholds : world.Holds) {key : CachedKey}
    (hnot : key ∉ world.traced.ingress.cachedOrder) :
    ({ world with
      clock := world.clock + 1
      completedAt := Function.update world.completedAt key world.clock } : CacheWorld).Holds := by
  have hold : ∀ other ∈ world.traced.ingress.cachedOrder,
      Function.update world.completedAt key world.clock other = world.completedAt other := by
    intro other hother
    refine Function.update_of_ne ?_ _ _
    rintro rfl
    exact hnot hother
  refine ⟨hholds.consistent, hholds.tracked, hholds.measured, hholds.room, hholds.positive,
    ?_, ?_⟩
  · refine hholds.completion.imp_of_mem fun {older newer} holder hnewer hlt => ?_
    dsimp only at holder hnewer ⊢
    rw [hold older holder, hold newer hnewer]
    exact hlt
  · intro other hother
    dsimp only
    rw [hold other hother]
    exact Nat.lt_succ_of_lt (hholds.past other hother)

/-- The world after a completion that stored its reply. -/
theorem evicted {world : CacheWorld} (hholds : world.Holds) {after : TracedIngress}
    {key : CachedKey} {entry : InFlight} {reply : OrderedTerminalReply}
    (hconsistent : Consistent after.ingress)
    (htracked : after.Tracked (world.traced.ingress.sizeWith key reply))
    (hends : Ends key.stream key.sequence entry reply world.traced.ingress after.ingress)
    (hnot : key ∉ world.traced.ingress.cachedOrder)
    (horder : after.ingress.cachedOrder = trim (world.traced.ingress.fits
      (world.traced.ingress.sizeWith key reply)) (world.traced.ingress.cachedOrder ++ [key])) :
    ({ traced := after
       clock := world.clock + 1
       completedAt := Function.update world.completedAt key world.clock } : CacheWorld).Holds := by
  have hsuffix : after.ingress.cachedOrder <:+ world.traced.ingress.cachedOrder ++ [key] := by
    rw [horder]
    exact trim_suffix _ _
  refine ⟨hconsistent, htracked.canonical, ?_, ?_, ?_, ?_, ?_⟩
  · intro other kept hkept
    obtain hold | ⟨-, -, hnew⟩ := hends.cached other.stream other.sequence kept hkept
    · exact hholds.measured other kept hold
    · rw [hnew]
      rfl
  · rw [htracked.sized.fits, fits_of_config hends.config, horder]
    refine trim_fits (fits_iff.mpr ⟨Nat.zero_le _, Nat.zero_le _⟩)
  · rw [hends.config]
    exact hholds.positive
  · refine List.Pairwise.sublist hsuffix.sublist (List.pairwise_append.mpr ⟨?_, ?_, ?_⟩)
    · exact (hholds.ticked hnot).completion
    · exact List.pairwise_singleton _ _
    · intro older holder newer hnewer
      rw [List.mem_singleton.mp hnewer]
      dsimp only
      rw [Function.update_self, Function.update_of_ne (ne_of_mem_of_not_mem holder hnot)]
      exact hholds.past older holder
  · intro other hother
    obtain hold | hnew := List.mem_append.mp (hsuffix.subset hother)
    · exact (hholds.ticked hnot).past other hold
    · rw [List.mem_singleton.mp hnew]
      dsimp only
      rw [Function.update_self]
      exact Nat.lt_succ_self _

section

variable [Infra] {world : CacheWorld}

theorem grant (hholds : world.Holds) (grant : OrderedGrant) :
    (world.next (.grant grant)).Holds := by
  obtain ⟨htracked, hingress⟩ := hholds.tracked.grantStream hholds.consistent grant
  refine hholds.of_leaner ?_ htracked ?_
  · rw [hingress]
    obtain ⟨hsame, -⟩ | ⟨-, -, -, hafter⟩ := grantStream_cases hholds.consistent grant
    · rw [hsame]
      exact hholds.consistent
    · exact hafter
  · rw [hingress]
    exact grantStream_leaner _ grant

theorem admitRequest (hholds : world.Holds) (request : OrderedIngressRequest) :
    (world.next (.admitRequest request)).Holds := by
  obtain ⟨hconfig, hcached, horder, hbytes⟩ :=
    admitRequest_cache world.traced.ingress request
  have hconsistent : Consistent (world.traced.ingress.admitRequest request).2 := by
    obtain ⟨error, hsame⟩ | ⟨ticket, entry, grant, hsame, -⟩ | ⟨grant, -, -, -, hafter⟩ :=
      admit_cases hholds.consistent request
    · rw [hsame]
      exact hholds.consistent
    · rw [hsame]
      exact hholds.consistent
    · exact hafter
  refine hholds.of_leaner hconsistent
    (hholds.tracked.of_same hconsistent.agrees hcached horder hbytes rfl) ?_
  refine ⟨hconfig, ?_, Nat.le_of_eq hbytes, ?_⟩
  · rw [horder]
  · intro key entry hlookup
    rwa [hcached] at hlookup

omit [Infra] in
/-- What a completion that is not refused meets. -/
theorem inFlight (hholds : world.Holds) {admission : Admission} {state : StreamState}
    {entry : InFlight}
    (hlookup : world.traced.ingress.streams.lookup admission.streamKey = some state)
    (hentry : state.inFlight.lookup admission.sequence = some entry) :
    (⟨admission.streamKey, admission.sequence⟩ : CachedKey) ∉ world.traced.ingress.cached ∧
      world.traced.ingress.inFlightAt admission.streamKey admission.sequence = some entry ∧
      ({ world.traced with ingress := world.traced.ingress.takeOut admission state } :
        TracedIngress).Tracked world.traced.ingress.sizeAt := by
  have hflight : world.traced.ingress.inFlightAt admission.streamKey admission.sequence =
      some entry := by
    rw [inFlightAt, window_of_lookup hlookup]
    exact hentry
  refine ⟨?_, hflight, ?_⟩
  · exact AList.lookup_eq_none.mp (hholds.consistent.flight _ _ entry hflight).2
  · exact hholds.tracked.of_same (hholds.consistent.agrees.setStream hlookup rfl)
      rfl rfl rfl rfl

theorem stored (hholds : world.Holds) {admission : Admission} {reply : OrderedTerminalReply}
    {stale : Nat → CachedKey} (hlasts : FrontsLast world (.complete admission reply stale))
    {state : StreamState} {entry : InFlight} (hkind : admission.kind = .execute)
    (hlookup : world.traced.ingress.streams.lookup admission.streamKey = some state)
    (hentry : state.inFlight.lookup admission.sequence = some entry)
    (hfits : ¬world.traced.ingress.config.maxCachedResultBytes <
      replyBytes (terminalReply reply)) :
    ∃ after, TracedIngress.store
        { world.traced with ingress := world.traced.ingress.takeOut admission state }
        ⟨admission.streamKey, admission.sequence⟩ entry (terminalReply reply) stale = after ∧
      after.Tracked (world.traced.ingress.sizeWith
        ⟨admission.streamKey, admission.sequence⟩ (terminalReply reply)) ∧
      after.ingress = (world.traced.ingress.takeOut admission state).store
        ⟨admission.streamKey, admission.sequence⟩ entry (terminalReply reply) ∧
      after.ingress.cachedOrder = trim (world.traced.ingress.fits
          (world.traced.ingress.sizeWith
            ⟨admission.streamKey, admission.sequence⟩ (terminalReply reply)))
        (world.traced.ingress.cachedOrder ++ [⟨admission.streamKey, admission.sequence⟩]) := by
  obtain ⟨hnotMem, hflight, htaken⟩ := hholds.inFlight hlookup hentry
  have hstores : world.traced.ingress.stores admission (terminalReply reply) = true := by
    rw [stores, hkind, hflight, decide_eq_true (Nat.not_lt.mp hfits)]
    rfl
  have hpushed : TracedIngress.Lasts stale 0
      (world.traced.ingress.pushedOut admission (terminalReply reply)) := hlasts
  rw [pushedOut, if_pos hstores] at hpushed
  exact ⟨_, rfl, htaken.store entry (terminalReply reply) (AList.lookup_insert _) hnotMem stale
    hfits hpushed⟩

theorem complete_value (hholds : world.Holds) {admission : Admission}
    {reply : OrderedTerminalReply} {stale : Nat → CachedKey}
    (hlasts : FrontsLast world (.complete admission reply stale)) :
    (world.traced.complete admission reply stale).1 =
        (world.traced.ingress.complete admission reply).1 ∧
      (world.traced.complete admission reply stale).2.ingress =
        (world.traced.ingress.complete admission reply).2 := by
  obtain ⟨error, htraced, hvalue⟩ | ⟨state, entry, hkind, hlookup, hentry⟩ :=
    world.traced.complete_cases admission reply stale
  · rw [htraced, hvalue]
    exact ⟨rfl, rfl⟩
  · obtain ⟨htraced, hvalue⟩ :=
      world.traced.complete_of_inFlight hkind hlookup hentry reply stale
    rw [htraced, hvalue]
    refine ⟨rfl, ?_⟩
    by_cases hlarge : world.traced.ingress.config.maxCachedResultBytes <
        replyBytes (terminalReply reply)
    · exact (congrArg TracedIngress.ingress (if_pos hlarge)).trans (if_pos hlarge).symm
    · obtain ⟨after, hafter, -, hsame, -⟩ :=
        hholds.stored hlasts hkind hlookup hentry hlarge
      rw [← hafter] at hsame
      exact hsame

theorem complete (hholds : world.Holds) {admission : Admission}
    {reply : OrderedTerminalReply} {stale : Nat → CachedKey}
    (hlasts : FrontsLast world (.complete admission reply stale)) :
    (world.next (.complete admission reply stale)).Holds := by
  obtain ⟨error, htraced, -⟩ | ⟨state, entry, hkind, hlookup, hentry⟩ :=
    world.traced.complete_cases admission reply stale
  · simp only [CacheWorld.next, htraced]
    exact hholds
  · obtain ⟨htraced, hingress⟩ :=
      world.traced.complete_of_inFlight hkind hlookup hentry reply stale
    obtain ⟨hnotMem, hflight, htaken⟩ := hholds.inFlight hlookup hentry
    have hnot := fun hmem => hnotMem (hholds.consistent.agrees.mem_order.mp hmem)
    obtain ⟨error, hrefused⟩ | ⟨found, -, -, hends, hconsistent⟩ :=
      OrderedIngress.complete_cases hholds.consistent admission reply
    · rw [hingress] at hrefused
      cases hrefused
    · simp only [CacheWorld.next, htraced]
      rw [hingress] at hends hconsistent
      dsimp only at hends hconsistent
      by_cases hlarge : world.traced.ingress.config.maxCachedResultBytes <
          replyBytes (terminalReply reply)
      · have hsame : TracedIngress.store
            { world.traced with ingress := world.traced.ingress.takeOut admission state }
            ⟨admission.streamKey, admission.sequence⟩ entry (terminalReply reply) stale = _ :=
          if_pos hlarge
        have hdropped : (world.traced.ingress.takeOut admission state).store
            ⟨admission.streamKey, admission.sequence⟩ entry (terminalReply reply) = _ :=
          if_pos hlarge
        rw [hsame]
        rw [hdropped] at hconsistent
        exact (hholds.of_leaner hconsistent htaken ⟨rfl, List.Sublist.refl _, Nat.le_refl _,
          fun _ _ hlookup => hlookup⟩).ticked hnot
      · obtain ⟨after, hafter, htracked, hvalue, horder⟩ :=
          hholds.stored hlasts hkind hlookup hentry hlarge
        rw [hafter]
        rw [← hvalue] at hends hconsistent
        exact hholds.evicted hconsistent htracked hends hnot horder

theorem next (hholds : world.Holds) {call : CacheCall} (hlasts : FrontsLast world call) :
    (world.next call).Holds := by
  cases call with
  | grant grant => exact hholds.grant grant
  | admitRequest request => exact hholds.admitRequest request
  | complete admission reply stale => exact hholds.complete hlasts

end

end Holds

end CacheWorld

theorem holds_of_reachable [Infra] {world : CacheWorld}
    (hreach : cacheMachine.ReachableWhere FrontsLast world) : world.Holds := by
  refine hreach.induct ?_ ?_
  · rintro state ⟨config, ingress, hcreate, rfl⟩
    unfold OrderedIngress.create at hcreate
    split at hcreate
    · cases hcreate
    · split at hcreate
      · cases hcreate
      case isFalse hlimits =>
        cases hcreate
        have hconsistent := Consistent.initial config
        refine ⟨hconsistent, ⟨hconsistent.agrees, ⟨fun _ _ => rfl, rfl⟩,
          List.forall_mem_nil _⟩, ?_, ?_, ?_, List.Pairwise.nil, List.forall_mem_nil _⟩
        · intro key entry hlookup
          cases hlookup
        · exact fits_iff.mpr ⟨Nat.zero_le _, Nat.zero_le _⟩
        · exact Nat.pos_of_ne_zero fun hzero => hlimits (Or.inr (Or.inl hzero))
  · intro state call last _ ih hlasts hnext
    cases hnext
    exact ih.next hlasts

/-! ## The representation -/

theorem sum_sizeAt (ingress : OrderedIngress) :
    (ingress.cached.keys.map ingress.sizeAt).sum =
      (ingress.cached.entries.map (fun row => row.2.bytes)).sum := by
  have hkeys : ingress.cached.keys = ingress.cached.entries.map Sigma.fst := rfl
  rw [hkeys, List.map_map]
  refine congrArg List.sum (List.map_congr_left fun row hrow => ?_)
  exact sizeAt_of_lookup (List.mem_dlookup ingress.cached.nodupKeys hrow)

/-- What the containers of the ingress say of each other after a call. -/
structure CacheWorld.Represented (world : CacheWorld) : Prop where
  unique : (world.traced.ingress.grants.map OrderedGrant.streamKey).Nodup
  granted : ∀ key, key ∈ world.traced.ingress.streams ↔
    ∃ grant ∈ world.traced.ingress.grants, grant.streamKey = key
  bounded : world.traced.ingress.streams.keys.length ≤
    world.traced.ingress.config.maxOrderedStreams
  order : world.traced.ingress.cachedOrder.Perm world.traced.ingress.cached.keys
  nodup : world.traced.ingress.cachedOrder.Nodup
  completion : world.traced.ingress.cachedOrder.Pairwise
    (fun older newer => world.completedAt older < world.completedAt newer)
  bytes : world.traced.ingress.cachedBytes =
    (world.traced.ingress.cached.entries.map (fun row => row.2.bytes)).sum
  sizes : ∀ key entry, world.traced.ingress.cached.lookup key = some entry →
    entry.bytes = replyBytes entry.reply
  count : world.traced.ingress.cached.keys.length ≤
    world.traced.ingress.config.maxCachedResults
  limit : world.traced.ingress.cachedBytes ≤
    world.traced.ingress.config.maxCachedResultBytes
  records : ∀ key state, world.traced.ingress.streams.lookup key = some state →
    ∀ sequence, sequence ∈ state.cachedSeqs ↔
      (⟨key, sequence⟩ : CachedKey) ∈ world.traced.ingress.cached
  apart : ∀ key state, world.traced.ingress.streams.lookup key = some state →
    ∀ sequence ∈ state.cachedSeqs, sequence ∉ state.inFlight
  removals : ∀ removal ∈ world.traced.removals, removal.Sound

structure EvictsOldest (before : OrderedIngress) (key : CachedKey)
    (reply : OrderedTerminalReply) (after : TracedIngress) (stale : Nat → CachedKey) :
    Prop where
  oldest : after.ingress.cachedOrder <:+ before.cachedOrder ++ [key]
  newest : key ∈ after.ingress.cachedOrder
  least : ∀ kept, kept <:+ before.cachedOrder ++ [key] →
    before.fits (before.sizeWith key reply) kept = true → kept <:+ after.ingress.cachedOrder
  ends : ∃ kept : TracedIngress, kept.ingress.cachedOrder = before.cachedOrder ++ [key] ∧
    ∀ more, TracedIngress.evictLoop stale
      (kept.ingress.cachedOrder.length + more) 0 kept = after

namespace CacheWorld.Holds

variable {world : CacheWorld}

theorem represented (hholds : world.Holds) : world.Represented := by
  have hagrees := hholds.consistent.agrees
  obtain ⟨hcount, hbytes⟩ := fits_iff.mp hholds.room
  have hstreams : ∀ key, key ∈ world.traced.ingress.streams ↔
      ∃ grant ∈ world.traced.ingress.grants, grant.streamKey = key := by
    intro key
    rw [hholds.consistent.live, window, Option.isSome_map, AList.lookup_isSome]
  have hrecords : ∀ key state, world.traced.ingress.streams.lookup key = some state →
      ∀ sequence, sequence ∈ state.cachedSeqs ↔
        (⟨key, sequence⟩ : CachedKey) ∈ world.traced.ingress.cached := by
    intro key state hlookup sequence
    rw [hagrees.records]
    constructor
    · intro hmem
      exact ⟨state, hlookup, hmem⟩
    · rintro ⟨found, hfound, hmem⟩
      cases hlookup.symm.trans hfound
      exact hmem
  constructor
  · exact hholds.consistent.distinct
  · exact hstreams
  · refine Nat.le_trans ?_ hholds.consistent.bounded
    rw [← List.length_map OrderedGrant.streamKey]
    refine world.traced.ingress.streams.keys_nodup.length_le_of_subset ?_
    intro key hkey
    exact List.mem_map.mpr ((hstreams key).mp (AList.mem_keys.mpr hkey))
  · exact hagrees.order
  · exact hagrees.nodup_order
  · exact hholds.completion
  · rw [hholds.tracked.sized.2, (hagrees.order.map _).sum_eq, sum_sizeAt]
  · exact hholds.measured
  · rw [← hagrees.order.length_eq]
    exact hcount
  · rw [hholds.tracked.sized.2]
    exact hbytes
  · exact hrecords
  · intro key state hlookup sequence hmem hflight
    obtain ⟨entry, hentry⟩ := Table.exists_lookup_of_mem hflight
    have hnone := (hholds.consistent.flight key sequence entry (by
      rw [inFlightAt, window_of_lookup hlookup]
      exact hentry)).2
    exact AList.lookup_eq_none.mp hnone ((hrecords key state hlookup sequence).mp hmem)
  · exact hholds.tracked.sound

section

variable [Infra]

theorem exists_kept (hholds : world.Holds) {admission : Admission}
    {reply : OrderedTerminalReply}
    (hstores : world.traced.ingress.stores admission (terminalReply reply) = true) :
    ∃ kept : TracedIngress, kept.ingress.cachedOrder =
        world.traced.ingress.cachedOrder ++ [⟨admission.streamKey, admission.sequence⟩] ∧
      kept.ingress.config = world.traced.ingress.config ∧
      kept.Tracked (world.traced.ingress.sizeWith
        ⟨admission.streamKey, admission.sequence⟩ (terminalReply reply)) ∧
      ∀ stale, (world.next (.complete admission reply stale)).traced =
        kept.evictToLimits stale := by
  rw [stores, Bool.and_eq_true, Bool.and_eq_true, decide_eq_true_iff, decide_eq_true_iff]
    at hstores
  obtain ⟨⟨hkind, hsome⟩, hfits⟩ := hstores
  obtain ⟨entry, hflight⟩ := Option.isSome_iff_exists.mp hsome
  obtain ⟨view, hview, hentry⟩ := Option.bind_eq_some_iff.mp hflight
  obtain ⟨state, hlookup, rfl⟩ := Option.map_eq_some_iff.mp hview
  obtain ⟨hnotMem, -, htaken⟩ := hholds.inFlight hlookup hentry
  refine ⟨_, ?_, ?_, htaken.keep entry (terminalReply reply) (AList.lookup_insert _) hnotMem, ?_⟩
  · rfl
  · rfl
  · intro stale
    obtain ⟨htraced, -⟩ :=
      world.traced.complete_of_inFlight hkind hlookup hentry reply stale
    simp only [CacheWorld.next, htraced]
    exact if_neg (Nat.not_lt.mpr hfits)

/-- A step is sound exactly when its erased fronts last. -/
theorem sound_iff (hholds : world.Holds) (call : CacheCall) :
    (∀ removal ∈ (world.next call).traced.removals, removal.Sound) ↔ FrontsLast world call := by
  constructor
  · intro hsound
    cases call with
    | grant grant => trivial
    | admitRequest request => trivial
    | complete admission reply stale =>
        change TracedIngress.Lasts stale 0
          (world.traced.ingress.pushedOut admission (terminalReply reply))
        unfold pushedOut
        split
        case isFalse => exact List.forall_mem_nil _
        case isTrue hstores =>
          obtain ⟨kept, horder, hconfig, htracked, hnext⟩ := hholds.exists_kept hstores
          rw [hnext] at hsound
          have hlasts := htracked.lasts (Nat.le_refl _) hsound
          rw [horder, fits_of_config hconfig] at hlasts
          exact hlasts
  · intro hlasts
    cases call with
    | grant grant => exact (hholds.grant grant).tracked.sound
    | admitRequest request => exact (hholds.admitRequest request).tracked.sound
    | complete admission reply stale => exact (hholds.complete hlasts).tracked.sound

theorem evictsOldest (hholds : world.Holds) {admission : Admission}
    {reply : OrderedTerminalReply} {stale : Nat → CachedKey}
    (hlasts : FrontsLast world (.complete admission reply stale))
    (hstores : world.traced.ingress.stores admission (terminalReply reply) = true) :
    EvictsOldest world.traced.ingress ⟨admission.streamKey, admission.sequence⟩
      (terminalReply reply) (world.next (.complete admission reply stale)).traced stale := by
  obtain ⟨kept, horder, hconfig, htracked, hnext⟩ := hholds.exists_kept hstores
  replace hlasts : TracedIngress.Lasts stale 0
      (world.traced.ingress.pushedOut admission (terminalReply reply)) := hlasts
  rw [pushedOut, if_pos hstores, ← horder, ← fits_of_config hconfig] at hlasts
  obtain ⟨-, -, hevicted⟩ := htracked.evictLoop (Nat.le_refl _) hlasts
  have hafter : (world.next (.complete admission reply stale)).traced.ingress.cachedOrder =
      trim (world.traced.ingress.fits (world.traced.ingress.sizeWith
        ⟨admission.streamKey, admission.sequence⟩ (terminalReply reply)))
        (world.traced.ingress.cachedOrder ++ [⟨admission.streamKey, admission.sequence⟩]) := by
    rw [hnext, ← horder, ← fits_of_config hconfig]
    exact hevicted
  refine ⟨?_, ?_, ?_, kept, horder, ?_⟩
  · rw [hafter]
    exact trim_suffix _ _
  · rw [hafter]
    refine (trim_longest (List.suffix_append _ _) ?_).mem List.mem_cons_self
    rw [stores, Bool.and_eq_true, decide_eq_true_iff] at hstores
    refine fits_iff.mpr ⟨hholds.positive, ?_⟩
    rw [List.map_singleton, List.sum_singleton, sizeWith, Function.update_self]
    exact hstores.2
  · intro other hother hfits
    rw [hafter]
    exact trim_longest hother hfits
  · intro more
    rw [hnext]
    exact htracked.evictLoop_rounds (Nat.le_refl _) hlasts more

end

end CacheWorld.Holds

/-- While the erased fronts last, the containers represent one cache after every call.  A
call keeps its removals sound exactly when they last, and evicts the oldest completions. -/
theorem cache_represented [Infra] {world : CacheWorld}
    (hreach : cacheMachine.ReachableWhere FrontsLast world) :
    world.Represented ∧
      (∀ call, (∀ removal ∈ (world.next call).traced.removals, removal.Sound) ↔
        FrontsLast world call) ∧
      ∀ admission reply stale, FrontsLast world (.complete admission reply stale) →
        world.traced.ingress.stores admission (terminalReply reply) = true →
        EvictsOldest world.traced.ingress ⟨admission.streamKey, admission.sequence⟩
          (terminalReply reply) (world.next (.complete admission reply stale)).traced
          stale := by
  have hholds := holds_of_reachable hreach
  refine ⟨hholds.represented, hholds.sound_iff, ?_⟩
  intro admission reply stale hlasts hstores
  exact hholds.evictsOldest hlasts hstores

def evictingCalls (stale : CachedKey) : List CacheCall :=
  [.grant (sampleGrant "r1"), .admitRequest (sampleRequest "r1" 1 "a"),
    .complete (executeAdmission (sampleRequest "r1" 1 "a")) (sampleReply "first")
      (fun _ => stale),
    .admitRequest (sampleRequest "r1" 2 "b"),
    .complete (executeAdmission (sampleRequest "r1" 2 "b")) (sampleReply "second")
      (fun _ => stale)]

def sampleKey (sequence : UInt64) : CachedKey :=
  ⟨(sampleGrant "r1").streamKey, sequence⟩

theorem cache_represented_evicts :
    letI := permissiveInfra
    ∃ world, cacheMachine.ReachableWhere FrontsLast world ∧
      world.traced.ingress.cachedOrder = [sampleKey 2] ∧
      world.traced.removals.map Removal.removed = [sampleKey 1] ∧ world.Represented := by
  let _ := permissiveInfra
  have hboot : cacheMachine.ReachableWhere FrontsLast
      { traced := { ingress := { config := ⟨"chat", 4, 1, 100⟩ } } } :=
    .start ⟨⟨"chat", 4, 1, 100⟩, _, rfl, rfl⟩
  obtain ⟨world, hreach, htest⟩ := hboot.exec_any
    (fun world call => decide (FrontsLast world call)) (fun _ _ => of_decide_eq_true)
    (evictingCalls (sampleKey 1))
    (fun world => world.traced.ingress.cachedOrder = [sampleKey 2] ∧
      world.traced.removals.map Removal.removed = [sampleKey 1]) (by decide)
  obtain ⟨horder, hremovals⟩ := of_decide_eq_true htest
  exact ⟨world, hreach, horder, hremovals, (cache_represented hreach).1⟩

def overwrittenKey : CachedKey :=
  ⟨⟨"", "producer", "p1"⟩, 1⟩

/-- The storage of the erased front is overwritten before its last read: the read is of
another key, and the stream keeps the record of a sequence the cache has lost. -/
theorem not_cache_represented :
    letI := permissiveInfra
    (¬∀ world, cacheMachine.Reachable world →
      ∀ removal ∈ world.traced.removals, ∀ read ∈ removal.reads, read = removal.removed) ∧
    ¬∀ world, cacheMachine.Reachable world → ∀ key sequence,
      world.traced.ingress.recordsCached ⟨key, sequence⟩ →
        (⟨key, sequence⟩ : CachedKey) ∈ world.traced.ingress.cached := by
  let _ := permissiveInfra
  have hboot : cacheMachine.Reachable
      { traced := { ingress := { config := ⟨"chat", 4, 1, 100⟩ } } } :=
    .start ⟨⟨"chat", 4, 1, 100⟩, _, rfl, rfl⟩
  obtain ⟨world, hreach, htest⟩ := hboot.exec_any (fun _ _ => true) (fun _ _ _ => trivial)
    (evictingCalls overwrittenKey)
    (fun world => world.traced.removals.map Removal.reads = [[sampleKey 1, overwrittenKey]] ∧
      world.traced.removals.map Removal.removed = [sampleKey 1] ∧
      (world.traced.ingress.streams.lookup (sampleKey 1).stream).any
        (fun state => decide (1 ∈ state.cachedSeqs)) = true ∧
      sampleKey 1 ∉ world.traced.ingress.cached) (by decide)
  obtain ⟨hreads, hremoved, hrecord, hlost⟩ := of_decide_eq_true htest
  constructor
  · intro hclaim
    obtain ⟨removal, hone⟩ := List.length_eq_one_iff.mp
      ((List.length_map Removal.reads).symm.trans (congrArg List.length hreads))
    rw [hone] at hreads hremoved
    have hkey : removal.removed = sampleKey 1 := (List.cons.inj hremoved).1
    have hread := hclaim world hreach removal (by rw [hone]; exact List.mem_cons_self)
      overwrittenKey (by rw [(List.cons.inj hreads).1]; decide)
    rw [hkey] at hread
    exact absurd hread (by decide)
  · intro hclaim
    obtain ⟨state, hlookup, hmem⟩ := (Option.any_eq_true _ _).mp hrecord
    exact hlost (hclaim world hreach (sampleKey 1).stream 1
      ⟨state, hlookup, of_decide_eq_true hmem⟩)

end BbtFramework.Ordered
