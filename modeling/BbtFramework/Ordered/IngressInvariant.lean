import BbtFramework.Ordered.IngressCache

/-!
# The invariant of the ingress

One grant for each stream, a window for exactly the granted streams, and every
remembered request in one place.  Each method gets one lemma that says all it
can do, in terms of the windows and the cache, and that it keeps the invariant.
-/

namespace BbtFramework.Ordered

open BbtFramework.Library

namespace OrderedIngress

/-- The state invariant: one grant for each stream, a window for exactly the
granted streams, and every remembered request in one place, for a sequence
already consumed. -/
structure Consistent (ingress : OrderedIngress) : Prop where
  agrees : CacheAgrees ingress
  bounded : ingress.grants.length ≤ ingress.config.maxOrderedStreams
  service : ∀ grant ∈ ingress.grants, grant.service = ingress.config.service
  distinct : (ingress.grants.map OrderedGrant.streamKey).Nodup
  live : ∀ key, (∃ grant ∈ ingress.grants, grant.streamKey = key) ↔
    (ingress.window key).isSome
  flight : ∀ key sequence entry, ingress.inFlightAt key sequence = some entry →
    ingress.Consumed key sequence ∧ ingress.cachedAt key sequence = none
  cached : ∀ key sequence entry, ingress.cachedAt key sequence = some entry →
    ingress.Consumed key sequence

theorem Consistent.initial (config : OrderedIngressConfig) :
    Consistent { config := config } where
  agrees := by
    refine ⟨List.Perm.refl _, fun key => ?_⟩
    simp [recordsCached]
  bounded := Nat.zero_le _
  service := by simp
  distinct := List.nodup_nil
  live := by simp [window]
  flight := by simp [inFlightAt, window]
  cached := by simp [cachedAt]

theorem Consistent.exists_window {ingress : OrderedIngress}
    (hconsistent : Consistent ingress) {grant : OrderedGrant}
    (hgrant : grant ∈ ingress.grants) :
    ∃ view, ingress.window grant.streamKey = some view :=
  Option.isSome_iff_exists.mp ((hconsistent.live _).mp ⟨grant, hgrant, rfl⟩)

theorem Consistent.grant_unique {ingress : OrderedIngress}
    (hconsistent : Consistent ingress) {left right : OrderedGrant}
    (hleft : left ∈ ingress.grants) (hright : right ∈ ingress.grants)
    (hkey : left.streamKey = right.streamKey) : left = right :=
  List.inj_on_of_nodup_map hconsistent.distinct hleft hright hkey

/-- The effect of installing a grant: the stream starts at sequence 1 with
nothing in flight and nothing cached. -/
structure Installs (grant : OrderedGrant) (before after : OrderedIngress) :
    Prop where
  config : after.config = before.config
  grants : after.grants =
    before.grants.filter (fun old => !supersededBy grant old) ++ [grant]
  fresh : ∀ old ∈ after.grants, old.streamKey = grant.streamKey → old = grant
  windowNew : after.window grant.streamKey = some (1, ∅)
  windowKept : ∀ key, key ≠ grant.streamKey →
    after.window key = before.window key
  cachedNew : ∀ sequence, after.cachedAt grant.streamKey sequence = none
  cachedKept : ∀ key sequence, key ≠ grant.streamKey →
    after.cachedAt key sequence = before.cachedAt key sequence

theorem Installs.cached {grant : OrderedGrant} {before after : OrderedIngress}
    (hinstalls : Installs grant before after) {key : StreamKey}
    {sequence : UInt64} {entry : CachedResult}
    (hentry : after.cachedAt key sequence = some entry) :
    key ≠ grant.streamKey ∧ before.cachedAt key sequence = some entry := by
  by_cases hkey : key = grant.streamKey
  · rw [hkey, hinstalls.cachedNew] at hentry
    cases hentry
  · exact ⟨hkey, hinstalls.cachedKept key sequence hkey ▸ hentry⟩

theorem Drops.recordsCached_none {gone : StreamKey → Prop}
    {before after : OrderedIngress} (hdrops : Drops gone before after)
    {key : StreamKey} (hnone : after.window key = none) (sequence : UInt64) :
    ⟨key, sequence⟩ ∉ after.cached := by
  intro hmem
  obtain ⟨state, hstate, -⟩ := (hdrops.agrees.records _).mp hmem
  rw [window_of_lookup hstate] at hnone
  cases hnone

theorem superseded_of_find_none {ingress : OrderedIngress}
    (hconsistent : Consistent ingress) {grant : OrderedGrant}
    (hservice : grant.service = ingress.config.service)
    (hfind : ingress.grants.find?
      (fun entry => sameOrderedStreamId entry grant) = none)
    {old : OrderedGrant} (hold : old ∈ ingress.grants)
    (hkey : old.streamKey = grant.streamKey) :
    supersededBy grant old = true := by
  have hnot := List.find?_eq_none.mp hfind old hold
  refine supersededBy_iff.mpr ⟨hkey, fun hepoch => hnot ?_⟩
  exact sameOrderedStreamId_iff.mpr
    ⟨(hconsistent.service old hold).trans hservice.symm, hkey, hepoch⟩

theorem revokeSuperseded_window_none {ingress : OrderedIngress}
    (hconsistent : Consistent ingress) {grant : OrderedGrant}
    (hservice : grant.service = ingress.config.service)
    (hfind : ingress.grants.find?
      (fun entry => sameOrderedStreamId entry grant) = none) :
    (ingress.revokeSuperseded grant).window grant.streamKey = none := by
  have hdrops := revokeSuperseded_drops hconsistent.agrees grant
  by_cases hany : ∃ old ∈ ingress.grants, supersededBy grant old = true
  · exact hdrops.windowGone _ ⟨rfl, hany⟩
  · rw [hdrops.windowKept _ (fun h => hany h.2)]
    refine Option.isNone_iff_eq_none.mp ?_
    rw [← Option.not_isSome, Bool.not_eq_true']
    refine Bool.eq_false_iff.mpr fun hsome => hany ?_
    obtain ⟨old, hold, hkey⟩ := (hconsistent.live grant.streamKey).mpr hsome
    exact ⟨old, hold, superseded_of_find_none hconsistent hservice hfind hold hkey⟩

theorem installs_install {ingress : OrderedIngress}
    (hconsistent : Consistent ingress) {grant : OrderedGrant}
    (hservice : grant.service = ingress.config.service)
    (hfind : ingress.grants.find?
      (fun entry => sameOrderedStreamId entry grant) = none) :
    Installs grant ingress ((ingress.revokeSuperseded grant).install grant) := by
  have hdrops := revokeSuperseded_drops hconsistent.agrees grant
  have hnone := revokeSuperseded_window_none hconsistent hservice hfind
  have hlookup : (ingress.revokeSuperseded grant).streams.lookup
      grant.streamKey = none := by
    simpa [window] using hnone
  have hnotMem : grant.streamKey ∉ (ingress.revokeSuperseded grant).streams :=
    AList.lookup_eq_none.mp hlookup
  have hwindow : ∀ key, ((ingress.revokeSuperseded grant).install grant).window key =
      if key = grant.streamKey then some (1, ∅)
      else (ingress.revokeSuperseded grant).window key := by
    intro key
    simp only [install, window_setStream]
    split
    · simp [streamState, touchStream, Table.emplace_of_notMem _ hnotMem]
    · rename_i hne
      simp only [window, touchStream, Table.lookup_emplace_ne hne]
  refine ⟨hdrops.config, ?_, ?_, ?_, ?_, ?_, ?_⟩
  · rfl
  · intro old hold hkey
    rcases List.mem_append.mp hold with hmem | hmem
    · obtain ⟨hmem, hnot⟩ := List.mem_filter.mp hmem
      have := superseded_of_find_none hconsistent hservice hfind hmem hkey
      simp [this] at hnot
    · exact List.mem_singleton.mp hmem
  · rw [hwindow, if_pos rfl]
  · intro key hne
    rw [hwindow, if_neg hne]
    exact hdrops.windowKept key fun h => hne h.1
  · intro sequence
    exact AList.lookup_eq_none.mpr (hdrops.recordsCached_none hnone sequence)
  · intro key sequence hne
    exact hdrops.cachedKept ⟨key, sequence⟩ fun h => hne h.1

theorem CacheAgrees.install {ingress : OrderedIngress}
    (hagrees : CacheAgrees ingress) {grant : OrderedGrant}
    (hnone : ingress.window grant.streamKey = none) :
    CacheAgrees (ingress.install grant) := by
  have hlookup : ingress.streams.lookup grant.streamKey = none := by
    simpa [window] using hnone
  have hnotMem : grant.streamKey ∉ ingress.streams :=
    AList.lookup_eq_none.mp hlookup
  refine ⟨hagrees.order, fun key => ?_⟩
  change key ∈ ingress.cached ↔ _
  rw [hagrees.records]
  obtain ⟨stream, sequence⟩ := key
  simp only [recordsCached, OrderedIngress.install, setStream, touchStream,
    Table.lookup_insert_eq]
  by_cases hkey : stream = grant.streamKey
  · subst hkey
    simp [hlookup, streamState, Table.emplace_of_notMem _ hnotMem]
  · simp only [hkey, if_false, Table.lookup_emplace_ne hkey]

theorem Consistent.install {ingress : OrderedIngress}
    (hconsistent : Consistent ingress) {grant : OrderedGrant}
    (hservice : grant.service = ingress.config.service)
    (hfind : ingress.grants.find?
      (fun entry => sameOrderedStreamId entry grant) = none)
    (hroom : (ingress.revokeSuperseded grant).grants.length <
      ingress.config.maxOrderedStreams) :
    Consistent ((ingress.revokeSuperseded grant).install grant) := by
  have hinstalls := installs_install hconsistent hservice hfind
  have hnone := revokeSuperseded_window_none hconsistent hservice hfind
  have hrevoked := (revokeSuperseded_drops hconsistent.agrees grant).agrees
  set after := (ingress.revokeSuperseded grant).install grant with hafter
  have hmem : ∀ old, old ∈ after.grants ↔
      (old ∈ ingress.grants ∧ supersededBy grant old = false) ∨ old = grant := by
    intro old
    simp [hinstalls.grants]
  have hkeyNe : ∀ old ∈ ingress.grants, supersededBy grant old = false →
      old.streamKey ≠ grant.streamKey := by
    intro old hold hnot hkey
    rw [superseded_of_find_none hconsistent hservice hfind hold hkey] at hnot
    cases hnot
  have hnext : ∀ key, key ≠ grant.streamKey →
      after.nextAt key = ingress.nextAt key := by
    intro key hne
    simp only [nextAt, hinstalls.windowKept key hne]
  have hconsumed : ∀ key sequence, key ≠ grant.streamKey →
      (after.Consumed key sequence ↔ ingress.Consumed key sequence) := by
    intro key sequence hne
    simp only [Consumed, hnext key hne]
  refine ⟨hrevoked.install hnone, ?_, ?_, ?_, ?_, ?_, ?_⟩
  · have hlength : after.grants.length =
        (ingress.revokeSuperseded grant).grants.length + 1 := by
      simp [hafter, OrderedIngress.install, setStream, touchStream]
    rw [hlength, hinstalls.config]
    exact hroom
  · intro old hold
    rw [hinstalls.config]
    rcases (hmem old).mp hold with ⟨hold, -⟩ | rfl
    · exact hconsistent.service old hold
    · exact hservice
  · rw [hinstalls.grants, List.map_append, List.nodup_append]
    refine ⟨hconsistent.distinct.sublist (List.filter_sublist.map _),
      List.nodup_singleton _, ?_⟩
    intro key hleft other hright
    obtain ⟨old, hold, rfl⟩ := List.mem_map.mp hleft
    obtain ⟨hold, hnot⟩ := List.mem_filter.mp hold
    obtain rfl := List.mem_singleton.mp hright
    exact hkeyNe old hold (by simpa using hnot)
  · intro key
    by_cases hkey : key = grant.streamKey
    · subst hkey
      simp only [hinstalls.windowNew, Option.isSome_some, iff_true]
      exact ⟨grant, (hmem grant).mpr (Or.inr rfl), rfl⟩
    · rw [hinstalls.windowKept key hkey, ← hconsistent.live key]
      constructor
      · rintro ⟨old, hold, rfl⟩
        rcases (hmem old).mp hold with ⟨hold, -⟩ | rfl
        · exact ⟨old, hold, rfl⟩
        · exact absurd rfl hkey
      · rintro ⟨old, hold, rfl⟩
        refine ⟨old, (hmem old).mpr (Or.inl ⟨hold, ?_⟩), rfl⟩
        rw [Bool.eq_false_iff]
        exact fun hsuper => hkey (supersededBy_iff.mp hsuper).1
  · intro key sequence entry hentry
    by_cases hkey : key = grant.streamKey
    · subst hkey
      simp [inFlightAt, hinstalls.windowNew] at hentry
    · have hold : ingress.inFlightAt key sequence = some entry := by
        simpa only [inFlightAt, hinstalls.windowKept key hkey] using hentry
      obtain ⟨hused, hnotCached⟩ := hconsistent.flight key sequence entry hold
      refine ⟨(hconsumed key sequence hkey).mpr hused, ?_⟩
      refine Option.eq_none_iff_forall_ne_some.mpr fun kept hkept => ?_
      rw [(hinstalls.cached hkept).2] at hnotCached
      cases hnotCached
  · intro key sequence entry hentry
    obtain ⟨hne, hold⟩ := hinstalls.cached hentry
    exact (hconsumed key sequence hne).mpr
      (hconsistent.cached key sequence entry hold)

theorem revokeSuperseded_eq_self {ingress : OrderedIngress}
    {grant : OrderedGrant}
    (hnone : ∀ old ∈ ingress.grants, supersededBy grant old = false) :
    ingress.revokeSuperseded grant = ingress := by
  have hgone : ingress.grants.filter (supersededBy grant) = [] := by
    rw [List.filter_eq_nil_iff]
    intro old hold
    rw [hnone old hold]
    exact Bool.false_ne_true
  have hkept : ingress.grants.filter (fun old => !supersededBy grant old) =
      ingress.grants := by
    rw [List.filter_eq_self]
    intro old hold
    rw [hnone old hold]
    rfl
  simp only [revokeSuperseded, hgone, hkept, List.foldl_nil]

/-- A revoked grant leaves room for the new one. -/
theorem revokeSuperseded_length_lt {ingress : OrderedIngress}
    {grant old : OrderedGrant} (hold : old ∈ ingress.grants)
    (hsuper : supersededBy grant old = true) :
    (ingress.revokeSuperseded grant).grants.length < ingress.grants.length := by
  refine List.length_filter_lt_length_iff_exists.mpr ⟨old, hold, ?_⟩
  simp [hsuper]

section

variable [Infra]

theorem grantStream_cases {ingress : OrderedIngress}
    (hconsistent : Consistent ingress) (grant : OrderedGrant) :
    ((ingress.grantStream grant).2 = ingress ∧
      ((ingress.grantStream grant).1 = .ok () → grant ∈ ingress.grants)) ∨
    ((ingress.grantStream grant).1 = .ok () ∧ grant ∉ ingress.grants ∧
      Installs grant ingress (ingress.grantStream grant).2 ∧
      Consistent (ingress.grantStream grant).2) := by
  by_cases hservice : grant.service = ingress.config.service
  case neg => exact .inl (by simp [grantStream, hservice])
  by_cases hempty : grant.service = "" ∨ grant.actorKey = "" ∨
      grant.producerId = "" ∨ grant.producerEpoch = "" ∨
      grant.receiverEpoch = ""
  case pos =>
    refine .inl ?_
    unfold grantStream
    rw [if_neg (not_not_intro hservice), if_pos hempty]
    exact ⟨rfl, fun h => nomatch h⟩
  unfold grantStream
  rw [if_neg (not_not_intro hservice), if_neg hempty]
  cases hfind : ingress.grants.find?
      (fun entry => sameOrderedStreamId entry grant) with
  | some entry =>
      left
      have hmem := List.mem_of_find?_eq_some hfind
      by_cases heq : entry = grant
      · subst heq
        simpa using hmem
      · simp [heq]
  | none =>
      have hnotMem : grant ∉ ingress.grants := by
        intro hmem
        refine List.find?_eq_none.mp hfind grant hmem ?_
        exact sameOrderedStreamId_iff.mpr ⟨rfl, rfl, rfl⟩
      have hconfig : (ingress.revokeSuperseded grant).config = ingress.config :=
        (revokeSuperseded_drops hconsistent.agrees grant).config
      dsimp only
      by_cases hfull : (ingress.revokeSuperseded grant).config.maxOrderedStreams ≤
          (ingress.revokeSuperseded grant).grants.length
      · left
        rw [if_pos hfull]
        refine ⟨revokeSuperseded_eq_self fun old hold => ?_, fun h => nomatch h⟩
        rw [Bool.eq_false_iff]
        intro hsuper
        have hlt := revokeSuperseded_length_lt hold hsuper
        have hbounded := hconsistent.bounded
        rw [hconfig] at hfull
        omega
      · right
        rw [if_neg hfull]
        refine ⟨rfl, hnotMem, installs_install hconsistent hservice hfind, ?_⟩
        rw [hconfig, not_le] at hfull
        exact hconsistent.install hservice hfind hfull

end

/-! ## Admission -/

def Authorizes (ingress : OrderedIngress) (request : OrderedIngressRequest)
    (grant : OrderedGrant) : Prop :=
  grant ∈ ingress.grants ∧ grant.streamKey = request.streamKey ∧
    grant.receiverEpoch = request.receiverEpoch ∧
    grant.peerPrincipal = request.peerPrincipal

theorem exists_authorizes {ingress : OrderedIngress}
    {request : OrderedIngressRequest}
    (hauthorized : ingress.authorized request = true) :
    ∃ grant, ingress.Authorizes request grant := by
  unfold authorized at hauthorized
  cases hfind : ingress.grants.find?
      (fun grant => grant.streamKey == request.streamKey) with
  | none => simp [hfind] at hauthorized
  | some grant =>
      simp only [hfind, Bool.and_eq_true, beq_iff_eq] at hauthorized
      have hkey := List.find?_some hfind
      exact ⟨grant, List.mem_of_find?_eq_some hfind, beq_iff_eq.mp hkey,
        hauthorized.1, hauthorized.2⟩

theorem Consistent.authorized {ingress : OrderedIngress}
    (hconsistent : Consistent ingress) {request : OrderedIngressRequest}
    {grant : OrderedGrant} (hgrant : ingress.Authorizes request grant) :
    ingress.authorized request = true := by
  obtain ⟨hmem, hkey, hepoch, hpeer⟩ := hgrant
  unfold OrderedIngress.authorized
  cases hfind : ingress.grants.find?
      (fun grant => grant.streamKey == request.streamKey) with
  | none =>
      have := List.find?_eq_none.mp hfind grant hmem
      simp [hkey] at this
  | some found =>
      have hsame := List.find?_some hfind
      have hfound : found = grant :=
        hconsistent.grant_unique (List.mem_of_find?_eq_some hfind) hmem
          ((beq_iff_eq.mp hsame).trans hkey.symm)
      simp [hfound, hepoch, hpeer]

/-- The effect of admitting a request for execution: the counter passes its
sequence, which is now in flight. -/
structure Consumes (request : OrderedIngressRequest)
    (before after : OrderedIngress) : Prop where
  config : after.config = before.config
  grants : after.grants = before.grants
  cached : after.cached = before.cached
  expected : before.nextAt request.streamKey = some request.sequence
  valid : request.sequence ≠ 0
  next : ∀ key, after.nextAt key =
    if key = request.streamKey then some (request.sequence + 1)
    else before.nextAt key
  inFlight : ∀ key sequence, after.inFlightAt key sequence =
    if key = request.streamKey ∧ sequence = request.sequence then
      some ⟨request.requestId, request.requestDigest⟩
    else before.inFlightAt key sequence

theorem not_consumed_next {ingress : OrderedIngress} {key : StreamKey}
    {next : UInt64} (hnext : ingress.nextAt key = some next) (hne : next ≠ 0) :
    ¬ ingress.Consumed key next := by
  rintro ⟨found, hfound, -, hlt⟩
  rw [hnext] at hfound
  cases hfound
  rw [span_eq hne] at hlt
  exact lt_irrefl _ hlt

theorem Consumes.consumed {request : OrderedIngressRequest}
    {before after : OrderedIngress} (hconsumes : Consumes request before after)
    {key : StreamKey} {sequence : UInt64} :
    after.Consumed key sequence ↔
      before.Consumed key sequence ∨
        (key = request.streamKey ∧ sequence = request.sequence) := by
  by_cases hkey : key = request.streamKey
  · subst hkey
    have hne := hconsumes.valid
    have hspan := span_succ hne
    have hsame : sequence = request.sequence ↔
        sequence.toNat = span request.sequence := by
      rw [span_eq hne, UInt64.toNat_inj]
    have hpos : 1 ≤ span request.sequence := span_pos _
    simp only [Consumed, hconsumes.next, if_true, hconsumes.expected,
      Option.some.injEq, exists_eq_left', true_and, hsame, hspan]
    omega
  · simp [Consumed, hconsumes.next, hkey]

theorem consumes_consume {ingress : OrderedIngress}
    (hconsistent : Consistent ingress) {request : OrderedIngressRequest}
    {state : StreamState}
    (hlookup : ingress.streams.lookup request.streamKey = some state)
    (hnext : state.nextSequence = request.sequence)
    (hvalid : request.sequence ≠ 0) :
    Consumes request ingress (ingress.consume request state) := by
  have hwindow := window_of_lookup hlookup
  have hexpected : ingress.nextAt request.streamKey = some request.sequence := by
    simp [nextAt, hwindow, hnext]
  have hnotMem : request.sequence ∉ state.inFlight := by
    intro hmem
    obtain ⟨entry, hentry⟩ := Table.exists_lookup_of_mem hmem
    have hflight : ingress.inFlightAt request.streamKey request.sequence =
        some entry := by
      simp [inFlightAt, hwindow, hentry]
    exact not_consumed_next hexpected hvalid
      (hconsistent.flight _ _ _ hflight).1
  refine ⟨rfl, rfl, rfl, hexpected, hvalid, fun key => ?_, fun key sequence => ?_⟩
  · simp only [nextAt, consume, window_setStream]
    split
    · simp [hnext]
    · rfl
  · simp only [inFlightAt, consume, window_setStream]
    by_cases hkey : key = request.streamKey
    · subst hkey
      simp only [if_true, true_and, Option.bind_some, hwindow,
        Table.emplace_of_notMem _ hnotMem, Table.lookup_insert_eq]
    · simp [hkey]

theorem Consistent.consume {ingress : OrderedIngress}
    (hconsistent : Consistent ingress) {request : OrderedIngressRequest}
    {state : StreamState}
    (hlookup : ingress.streams.lookup request.streamKey = some state)
    (hnext : state.nextSequence = request.sequence)
    (hvalid : request.sequence ≠ 0) :
    Consistent (ingress.consume request state) := by
  have hconsumes := consumes_consume hconsistent hlookup hnext hvalid
  have hnotUsed := not_consumed_next hconsumes.expected hvalid
  refine ⟨⟨hconsistent.agrees.order, fun key => ?_⟩, hconsistent.bounded,
    hconsistent.service, hconsistent.distinct, fun key => ?_, ?_, ?_⟩
  · change key ∈ ingress.cached ↔ _
    rw [hconsistent.agrees.records]
    obtain ⟨stream, sequence⟩ := key
    simp only [recordsCached, OrderedIngress.consume, setStream,
      Table.lookup_insert_eq]
    by_cases hkey : stream = request.streamKey
    · subst hkey
      simp [hlookup]
    · simp [hkey]
  · rw [show (ingress.consume request state).grants = ingress.grants from rfl,
      hconsistent.live key]
    simp only [OrderedIngress.consume, window_setStream]
    split
    case isTrue hkey =>
      subst hkey
      simp [window_of_lookup hlookup]
    case isFalse => rfl
  · intro key sequence entry hentry
    rw [hconsumes.inFlight] at hentry
    split at hentry
    case isTrue hsame =>
      refine ⟨hconsumes.consumed.mpr (Or.inr hsame), ?_⟩
      obtain ⟨rfl, rfl⟩ := hsame
      refine Option.eq_none_iff_forall_ne_some.mpr fun kept hkept => ?_
      exact hnotUsed (hconsistent.cached _ _ kept hkept)
    case isFalse =>
      obtain ⟨hused, hnotCached⟩ := hconsistent.flight key sequence entry hentry
      exact ⟨hconsumes.consumed.mpr (Or.inl hused), hnotCached⟩
  · intro key sequence entry hentry
    exact hconsumes.consumed.mpr
      (Or.inl (hconsistent.cached key sequence entry hentry))

section

variable [Infra]

theorem admitRequest_of_lookup {ingress : OrderedIngress}
    {request : OrderedIngressRequest} {state : StreamState}
    (hstamp : request.hasOrderedStamp = true)
    (hfields : ¬(request.producerId = "" ∨ request.producerEpoch = "" ∨
      request.receiverEpoch = ""))
    (hauthorized : ingress.authorized request = true)
    (hlookup : ingress.streams.lookup request.streamKey = some state) :
    ingress.admitRequest request =
      if request.sequence = 0 then (.error (gapError state.nextSequence), ingress)
      else if state.nextSequence < request.sequence then
        (.error (gapError state.nextSequence), ingress)
      else if request.sequence < state.nextSequence then
        (ingress.answerConsumed request state, ingress)
      else (.ok (executeAdmission request), ingress.consume request state) := by
  unfold admitRequest
  rw [if_neg (by simp [hstamp]), if_neg hfields, if_neg (by simp [hauthorized])]
  simp only [touchStream_of_lookup hlookup, streamState_of_lookup hlookup]

theorem admit_cases {ingress : OrderedIngress} (hconsistent : Consistent ingress)
    (request : OrderedIngressRequest) :
    (∃ error, ingress.admitRequest request = (.error error, ingress)) ∨
    (∃ admission entry grant,
      ingress.admitRequest request = (.ok admission, ingress) ∧
      admission.kind = .replay ∧ admission.replay = some entry.reply ∧
      ingress.Authorizes request grant ∧
      ingress.inFlightAt request.streamKey request.sequence = none ∧
      ingress.cachedAt request.streamKey request.sequence = some entry ∧
      entry.requestId = request.requestId ∧
      entry.digest = request.requestDigest) ∨
    (∃ grant, ingress.Authorizes request grant ∧
      (ingress.admitRequest request).1 = .ok (executeAdmission request) ∧
      Consumes request ingress (ingress.admitRequest request).2 ∧
      Consistent (ingress.admitRequest request).2) := by
  by_cases hstamp : request.hasOrderedStamp = true
  case neg =>
    exact .inl ⟨_, if_pos (by simp [hstamp])⟩
  by_cases hempty : request.producerId = "" ∨ request.producerEpoch = "" ∨
      request.receiverEpoch = ""
  case pos =>
    exact .inl ⟨_, (if_neg (by simp [hstamp])).trans (if_pos hempty)⟩
  cases hauthorized : ingress.authorized request with
  | false =>
      exact .inl ⟨_, (if_neg (by simp [hstamp])).trans
        ((if_neg hempty).trans (if_pos (by simp [hauthorized])))⟩
  | true =>
      obtain ⟨grant, hgrant⟩ := exists_authorizes hauthorized
      obtain ⟨view, hview⟩ := hconsistent.exists_window hgrant.1
      rw [hgrant.2.1] at hview
      obtain ⟨state, hlookup, hstate⟩ := Option.map_eq_some_iff.mp hview
      have hadmitted := admitRequest_of_lookup hstamp hempty hauthorized hlookup
      by_cases hzero : request.sequence = 0
      · exact .inl ⟨_, by rw [hadmitted, if_pos hzero]⟩
      by_cases hfuture : state.nextSequence < request.sequence
      · exact .inl ⟨_, by rw [hadmitted, if_neg hzero, if_pos hfuture]⟩
      by_cases hpast : request.sequence < state.nextSequence
      · rw [if_neg hzero, if_neg hfuture, if_pos hpast] at hadmitted
        rw [hadmitted]
        unfold answerConsumed
        have hwindow := window_of_lookup hlookup
        cases hflight : state.inFlight.lookup request.sequence with
        | some entry =>
            dsimp only
            split
            · exact .inl ⟨_, rfl⟩
            · exact .inl ⟨_, rfl⟩
        | none =>
            cases hcached : ingress.cached.lookup
                ⟨request.streamKey, request.sequence⟩ with
            | none => exact .inl ⟨_, rfl⟩
            | some entry =>
                dsimp only
                split
                case isTrue => exact .inl ⟨_, rfl⟩
                case isFalse hsame =>
                  rw [not_or, not_not, not_not] at hsame
                  refine .inr (.inl ⟨_, entry, grant, rfl, rfl, rfl, hgrant, ?_,
                    hcached, hsame.1, hsame.2⟩)
                  simp [inFlightAt, hwindow, hflight]
      · rw [if_neg hzero, if_neg hfuture, if_neg hpast] at hadmitted
        have hnext : state.nextSequence = request.sequence :=
          UInt64.le_antisymm (UInt64.not_lt.mp hpast) (UInt64.not_lt.mp hfuture)
        refine .inr (.inr ⟨grant, hgrant, ?_⟩)
        rw [hadmitted]
        exact ⟨rfl, consumes_consume hconsistent hlookup hnext hzero,
          hconsistent.consume hlookup hnext hzero⟩

/-- A refusal comes from a check before the sequence, names a gap, or answers a sequence
already consumed. -/
theorem admit_error {ingress : OrderedIngress} (hconsistent : Consistent ingress)
    {request : OrderedIngressRequest} {error : Error}
    (hadmitted : (ingress.admitRequest request).1 = .error error) :
    (∃ code message, error = orderedDomainError code message ∧
      (code = OrderedDomainCode.orderedStampRequired ∨
        code = OrderedDomainCode.streamRejected)) ∨
      (∃ next, error = gapError next) ∨
      ∃ grant state, ingress.Authorizes request grant ∧ request.hasOrderedStamp = true ∧
        ingress.streams.lookup request.streamKey = some state ∧
        ingress.answerConsumed request state = .error error := by
  unfold admitRequest at hadmitted
  split at hadmitted
  · exact .inl ⟨_, _, (Except.error.inj hadmitted).symm, .inl rfl⟩
  case isFalse hstamp =>
    split at hadmitted
    · exact .inl ⟨_, _, (Except.error.inj hadmitted).symm, .inr rfl⟩
    · split at hadmitted
      · exact .inl ⟨_, _, (Except.error.inj hadmitted).symm, .inr rfl⟩
      case isFalse hauthorized =>
        obtain ⟨grant, hgrant⟩ := exists_authorizes (by simpa using hauthorized)
        obtain ⟨view, hview⟩ := hconsistent.exists_window hgrant.1
        rw [hgrant.2.1] at hview
        obtain ⟨state, hlookup, -⟩ := Option.map_eq_some_iff.mp hview
        simp only [touchStream_of_lookup hlookup,
          streamState_of_lookup hlookup] at hadmitted
        split at hadmitted
        · exact .inr (.inl ⟨_, (Except.error.inj hadmitted).symm⟩)
        · split at hadmitted
          · exact .inr (.inl ⟨_, (Except.error.inj hadmitted).symm⟩)
          · split at hadmitted
            · exact .inr (.inr ⟨grant, state, hgrant, by simpa using hstamp, hlookup,
                hadmitted⟩)
            · cases hadmitted

theorem admit_conflict {ingress : OrderedIngress} (hconsistent : Consistent ingress)
    {request : OrderedIngressRequest} {error : Error}
    (hadmitted : (ingress.admitRequest request).1 = .error error)
    (hconflict : IsSequenceConflict error) :
    ∃ grant, ingress.Authorizes request grant ∧
      request.hasOrderedStamp = true ∧
      ((∃ entry, ingress.inFlightAt request.streamKey request.sequence =
          some entry ∧
        ¬ (entry.requestId = request.requestId ∧
          entry.digest = request.requestDigest)) ∨
      (∃ kept, ingress.cachedAt request.streamKey request.sequence = some kept ∧
        ¬ (kept.requestId = request.requestId ∧
          kept.digest = request.requestDigest))) := by
  have hother : ∀ {code message : String},
      code ≠ OrderedDomainCode.sequenceConflict →
      orderedDomainError code message ≠ error := by
    rintro code message hcode rfl
    exact hcode hconflict.2
  obtain ⟨code, message, rfl, rfl | rfl⟩ | ⟨next, rfl⟩ |
    ⟨grant, state, hgrant, hstamp, hlookup, hconsumed⟩ := admit_error hconsistent hadmitted
  · exact absurd rfl (hother (by decide))
  · exact absurd rfl (hother (by decide))
  · exact absurd hconflict (sequenceGapError_not_conflict _ _)
  · refine ⟨grant, hgrant, hstamp, ?_⟩
    have hwindow := window_of_lookup hlookup
    unfold answerConsumed at hconsumed
    cases hflight : state.inFlight.lookup request.sequence with
    | some entry =>
        simp only [hflight] at hconsumed
        split at hconsumed
        · exact absurd (Except.error.inj hconsumed) (hother (by decide))
        case isFalse hdiffers =>
          exact .inl ⟨entry, by simp [inFlightAt, hwindow, hflight], hdiffers⟩
    | none =>
        simp only [hflight] at hconsumed
        cases hcached : ingress.cached.lookup ⟨request.streamKey, request.sequence⟩ with
        | none =>
            simp only [hcached] at hconsumed
            exact absurd (Except.error.inj hconsumed) (hother (by decide))
        | some kept =>
            simp only [hcached] at hconsumed
            split at hconsumed
            case isTrue hdiffers => exact .inr ⟨kept, hcached, by tauto⟩
            · cases hconsumed

end

/-! ## Completion -/

def keptResult (key : StreamKey) (sequence : UInt64) (entry : InFlight)
    (reply : OrderedTerminalReply) : CachedResult :=
  ⟨key, sequence, entry.requestId, entry.digest, reply, replyBytes reply⟩

/-- The effect of ending one request in flight: nothing else leaves the
windows, and the cache gains at most its reply. -/
structure Ends (key : StreamKey) (sequence : UInt64) (entry : InFlight)
    (reply : OrderedTerminalReply) (before after : OrderedIngress) : Prop where
  config : after.config = before.config
  grants : after.grants = before.grants
  ended : before.inFlightAt key sequence = some entry
  live : ∀ other, (after.window other).isSome = (before.window other).isSome
  next : ∀ other, after.nextAt other = before.nextAt other
  inFlight : ∀ other number, after.inFlightAt other number =
    if other = key ∧ number = sequence then none
    else before.inFlightAt other number
  cached : ∀ other number kept, after.cachedAt other number = some kept →
    before.cachedAt other number = some kept ∨
      (other = key ∧ number = sequence ∧ kept = keptResult key sequence entry reply)

theorem Ends.shrinks {key : StreamKey} {sequence : UInt64} {entry : InFlight}
    {reply : OrderedTerminalReply} {before middle after : OrderedIngress}
    (hends : Ends key sequence entry reply before middle)
    (hshrinks : Shrinks middle after) :
    Ends key sequence entry reply before after where
  config := hshrinks.config.trans hends.config
  grants := hshrinks.grants.trans hends.grants
  ended := hends.ended
  live other := by rw [hshrinks.window]; exact hends.live other
  next other := by
    rw [← hends.next, nextAt, nextAt, hshrinks.window]
  inFlight other number := by
    rw [← hends.inFlight, inFlightAt, inFlightAt, hshrinks.window]
  cached other number kept hkept :=
    hends.cached other number kept (hshrinks.cached _ _ hkept)

theorem Ends.consistent {key : StreamKey} {sequence : UInt64} {entry : InFlight}
    {reply : OrderedTerminalReply} {before after : OrderedIngress}
    (hends : Ends key sequence entry reply before after)
    (hconsistent : Consistent before) (hagrees : CacheAgrees after) :
    Consistent after := by
  have hconsumed : ∀ other number,
      after.Consumed other number ↔ before.Consumed other number := by
    intro other number
    simp only [Consumed, hends.next]
  refine ⟨hagrees, ?_, ?_, ?_, ?_, ?_, ?_⟩
  · rw [hends.grants, hends.config]
    exact hconsistent.bounded
  · rw [hends.grants, hends.config]
    exact hconsistent.service
  · rw [hends.grants]
    exact hconsistent.distinct
  · intro other
    rw [hends.grants, hends.live]
    exact hconsistent.live other
  · intro other number found hfound
    rw [hends.inFlight] at hfound
    split at hfound
    · cases hfound
    case isFalse hother =>
      obtain ⟨hused, hnotCached⟩ := hconsistent.flight other number found hfound
      refine ⟨(hconsumed other number).mpr hused, ?_⟩
      refine Option.eq_none_iff_forall_ne_some.mpr fun kept hkept => ?_
      rcases hends.cached other number kept hkept with hold | ⟨rfl, rfl, -⟩
      · rw [hnotCached] at hold
        cases hold
      · exact hother ⟨rfl, rfl⟩
  · intro other number kept hkept
    rw [hconsumed]
    rcases hends.cached other number kept hkept with hold | ⟨rfl, rfl, -⟩
    · exact hconsistent.cached other number kept hold
    · exact (hconsistent.flight _ _ entry hends.ended).1

/-- Taking the request out of flight, before anything is cached. -/
theorem ends_setStream {ingress : OrderedIngress} {key : StreamKey}
    {sequence : UInt64} {state : StreamState} {entry : InFlight}
    (reply : OrderedTerminalReply)
    (hlookup : ingress.streams.lookup key = some state)
    (hentry : state.inFlight.lookup sequence = some entry) :
    Ends key sequence entry reply ingress
      (ingress.setStream key
        { state with inFlight := state.inFlight.erase sequence }) := by
  have hwindow := window_of_lookup hlookup
  refine ⟨rfl, rfl, ?_, fun other => ?_, fun other => ?_, fun other number => ?_,
    fun other number kept hkept => Or.inl hkept⟩
  · simp [inFlightAt, hwindow, hentry]
  · rw [window_setStream]
    split
    case isTrue heq => rw [heq, hwindow]; rfl
    case isFalse => rfl
  · rw [nextAt, nextAt, window_setStream]
    split
    case isTrue heq => rw [heq, hwindow]; rfl
    case isFalse => rfl
  · simp only [inFlightAt, window_setStream]
    by_cases hkey : other = key
    · subst hkey
      simp only [if_true, true_and, Option.bind_some, hwindow,
        Table.lookup_erase_eq]
    · simp [hkey]

theorem CacheAgrees.setStream {ingress : OrderedIngress}
    (hagrees : CacheAgrees ingress) {key : StreamKey} {state next : StreamState}
    (hlookup : ingress.streams.lookup key = some state)
    (hsame : next.cachedSeqs = state.cachedSeqs) :
    CacheAgrees (ingress.setStream key next) := by
  refine ⟨hagrees.order, fun other => ?_⟩
  change other ∈ ingress.cached ↔ _
  rw [hagrees.records]
  obtain ⟨stream, sequence⟩ := other
  simp only [recordsCached, OrderedIngress.setStream, Table.lookup_insert_eq]
  by_cases hkey : stream = key
  · subst hkey
    simp [hlookup, hsame]
  · simp [hkey]

/-- `store` before anything is evicted. -/
def keep (ingress : OrderedIngress) (key : CachedKey) (entry : InFlight)
    (reply : OrderedTerminalReply) : OrderedIngress :=
  let state := ingress.streamState key.stream
  { ingress with
    cached := Table.emplace ingress.cached key
      ⟨key.stream, key.sequence, entry.requestId, entry.digest, reply, replyBytes reply⟩
    cachedOrder := ingress.cachedOrder ++ [key]
    cachedBytes := ingress.cachedBytes + replyBytes reply
    streams := ingress.streams.insert key.stream
      { state with cachedSeqs := Table.emplace state.cachedSeqs key.sequence () } }

theorem store_of_le {ingress : OrderedIngress} {key : CachedKey} {entry : InFlight}
    {reply : OrderedTerminalReply}
    (hfits : ¬ingress.config.maxCachedResultBytes < replyBytes reply) :
    ingress.store key entry reply = (ingress.keep key entry reply).evictToLimits :=
  if_neg hfits

theorem keep_cached {ingress : OrderedIngress} {key : CachedKey} (entry : InFlight)
    (reply : OrderedTerminalReply) (hnotMem : key ∉ ingress.cached) :
    (ingress.keep key entry reply).cached = ingress.cached.insert key
      (keptResult key.stream key.sequence entry reply) :=
  Table.emplace_of_notMem _ hnotMem

theorem CacheAgrees.keep {ingress : OrderedIngress} (hagrees : CacheAgrees ingress)
    {key : CachedKey} (entry : InFlight) (reply : OrderedTerminalReply)
    {state : StreamState} (hlookup : ingress.streams.lookup key.stream = some state)
    (hnotMem : key ∉ ingress.cached) : CacheAgrees (ingress.keep key entry reply) := by
  constructor
  · have hkeys : key ∉ ingress.cached.keys :=
      fun hmem => hnotMem (AList.mem_keys.mpr hmem)
    rw [keep_cached entry reply hnotMem, AList.keys_insert, List.erase_of_not_mem hkeys]
    exact (List.perm_append_singleton _ _).trans (hagrees.order.cons _)
  · obtain ⟨stream, sequence⟩ := key
    rintro ⟨other, number⟩
    have hold := hagrees.records ⟨other, number⟩
    rw [keep_cached entry reply hnotMem]
    simp only [OrderedIngress.keep, recordsCached, AList.mem_insert,
      Table.lookup_insert_eq, CachedKey.mk.injEq] at hold hlookup ⊢
    rw [streamState_of_lookup hlookup]
    by_cases hkey : other = stream
    · subst hkey
      rw [hold]
      simp [hlookup]
    · simp [hkey, hold]

/-- A reply too large to keep is dropped; any other is cached, and then the
oldest replies are evicted. -/
theorem store_ends {ended before : OrderedIngress} {key : StreamKey}
    {sequence : UInt64} {entry : InFlight} {reply : OrderedTerminalReply}
    {state : StreamState} (hagrees : CacheAgrees ended)
    (hends : Ends key sequence entry reply before ended)
    (hlookup : ended.streams.lookup key = some state)
    (hnotMem : ⟨key, sequence⟩ ∉ ended.cached) :
    Ends key sequence entry reply before
        (ended.store ⟨key, sequence⟩ entry reply) ∧
      CacheAgrees (ended.store ⟨key, sequence⟩ entry reply) := by
  by_cases hlarge : ended.config.maxCachedResultBytes < replyBytes reply
  · rw [store, if_pos hlarge]
    exact ⟨hends, hagrees⟩
  · rw [store_of_le hlarge]
    have hwindow : ∀ other, (ended.keep ⟨key, sequence⟩ entry reply).window other =
        ended.window other := by
      intro other
      simp only [keep, window, Table.lookup_insert_eq, streamState_of_lookup hlookup]
      split
      case isTrue heq => subst heq; simp [hlookup]
      case isFalse => rfl
    have hkept : Ends key sequence entry reply before
        (ended.keep ⟨key, sequence⟩ entry reply) := by
      refine ⟨hends.config, hends.grants, hends.ended, fun other => ?_,
        fun other => ?_, fun other number => ?_, fun other number kept hkept => ?_⟩
      · rw [hwindow, hends.live]
      · rw [← hends.next, nextAt, nextAt, hwindow]
      · rw [← hends.inFlight, inFlightAt, inFlightAt, hwindow]
      · rw [cachedAt, keep_cached entry reply hnotMem, Table.lookup_insert_eq] at hkept
        split at hkept
        case isTrue heq =>
          cases heq
          exact Or.inr ⟨rfl, rfl, (Option.some.inj hkept).symm⟩
        case isFalse => exact hends.cached other number kept hkept
    exact ⟨hkept.shrinks (evictLoop_shrinks _ _),
      (hagrees.keep entry reply hlookup hnotMem).evictLoop _⟩

section

variable [Infra]

/-- Completion refuses a ticket that is not in flight, and ends the request in
flight under the ticket's stream and sequence otherwise. -/
theorem complete_cases {ingress : OrderedIngress}
    (hconsistent : Consistent ingress) (ticket : Admission)
    (reply : OrderedTerminalReply) :
    (∃ error, ingress.complete ticket reply = (.error error, ingress)) ∨
    (∃ entry, ticket.kind = .execute ∧
      (ingress.complete ticket reply).1 = .ok () ∧
      Ends ticket.streamKey ticket.sequence entry (terminalReply reply) ingress
        (ingress.complete ticket reply).2 ∧
      Consistent (ingress.complete ticket reply).2) := by
  by_cases hkind : ticket.kind = .execute
  case neg => exact .inl ⟨_, if_pos hkind⟩
  cases hlookup : ingress.streams.lookup ticket.streamKey with
  | none => exact .inl ⟨_, by simp [complete, hkind, hlookup]; rfl⟩
  | some state =>
      cases hentry : state.inFlight.lookup ticket.sequence with
      | none => exact .inl ⟨_, by simp [complete, hkind, hlookup, hentry]; rfl⟩
      | some entry =>
          right
          have hends := ends_setStream (terminalReply reply) hlookup hentry
          have hagrees : CacheAgrees (ingress.setStream ticket.streamKey
              { state with inFlight := state.inFlight.erase ticket.sequence }) :=
            hconsistent.agrees.setStream hlookup rfl
          have hnotMem : (⟨ticket.streamKey, ticket.sequence⟩ : CachedKey) ∉
              ingress.cached :=
            AList.lookup_eq_none.mp
              (hconsistent.flight _ _ entry hends.ended).2
          have hstore := store_ends hagrees hends
            (AList.lookup_insert _) hnotMem
          have hcomplete : ingress.complete ticket reply =
              (.ok (), (ingress.setStream ticket.streamKey
                { state with
                  inFlight := state.inFlight.erase ticket.sequence }).store
                    ⟨ticket.streamKey, ticket.sequence⟩ entry
                    (terminalReply reply)) := by
            simp [complete, hkind, hlookup, hentry]
          rw [hcomplete]
          exact ⟨entry, hkind, rfl, hstore.1,
            hstore.1.consistent hconsistent hstore.2⟩

end

end OrderedIngress

end BbtFramework.Ordered
