import BbtFramework.Ordered.EndToEnd
import BbtFramework.Rpc.Resend

/-!
# Metadata at both ends

The sender writes the route fields of a call and, behind them, the fields of its
stamp; the receiver sorts the metadata by key and counts the route fields again.
Both ends bound the fields with code of their own.
-/

namespace BbtFramework.Inbound

open BbtFramework.Ordered BbtFramework.Rpc

def stampFacts (session : OrderedSession) (options : CallOptions) : MetadataFacts :=
  match options.ordered with
  | none => {}
  | some stamp =>
      { producerId := session.grant.producerId
        producerEpoch := session.grant.producerEpoch
        receiverEpoch := session.grant.receiverEpoch
        sequence := stampSequence session stamp
        hasSequenceField := true }

/-- The fields of the stamp as the sender writes them. -/
def stampMetadata (session : OrderedSession) (options : CallOptions) :
    List (String × String) :=
  match options.ordered with
  | none => []
  | some stamp => orderedMetadata session.grant (stampSequence session stamp)

/-- The texts of a grant that travel with a stamp are there. -/
structure Named (grant : OrderedGrant) : Prop where
  producerId : grant.producerId ≠ ""
  producerEpoch : grant.producerEpoch ≠ ""
  receiverEpoch : grant.receiverEpoch ≠ ""

section

variable [Infra]

def routeField (field : String × String) : String × String :=
  (routePrefix ++ field.1, field.2)

omit [Infra] in
theorem drop_routePrefix (name : String) :
    String.ofList ((routePrefix ++ name).toList.drop 6) = name := by
  simp [String.toList_append, routePrefix]

/-- What the sender lets through, the receiver takes: both count the same fields. -/
theorem readField_routeField {facts : MetadataFacts} {key value : String}
    (hbounds : ¬(key = "" ∨ 64 < key.length ∨ 256 < value.length ∨
      16 ≤ facts.custom.length)) :
    readField facts (routeField (key, value)) =
      .ok { facts with custom := facts.custom ++ [(key, value)] } := by
  simp only [not_or] at hbounds
  obtain ⟨hkey, hlong, hvalue, hroom⟩ := hbounds
  have hin : ¬(key = "" ∨ maxRouteKeyBytes < key.length ∨
      maxRouteValueBytes < value.length) := by
    rintro (h | h | h)
    · exact hkey h
    · exact hlong h
    · exact hvalue h
  have hcount : ¬maxRouteFieldCount ≤ facts.custom.length := hroom
  simp only [readField, routeField, isRouteKey_append, if_true, readRouteField,
    drop_routePrefix, if_neg hin, if_neg hcount]

theorem readMetadata_routeFields {metadata fields result : List (String × String)}
    {facts : MetadataFacts} (hroute : routeMetadata metadata fields = .ok result)
    (hcount : metadata.length = facts.custom.length) :
    (fields.map routeField).foldlM readField facts =
      .ok { facts with custom := facts.custom ++ fields } := by
  induction fields generalizing metadata facts with
  | nil =>
      rw [List.append_nil]
      rfl
  | cons field rest ih =>
      obtain ⟨key, value⟩ := field
      simp only [routeMetadata] at hroute
      split at hroute
      case isTrue => cases hroute
      case isFalse hbounds =>
        rw [hcount] at hbounds
        rw [List.map_cons, List.foldlM_cons, readField_routeField hbounds]
        have hnext : (metadata ++ [(routePrefix ++ key, value)]).length =
            { facts with custom := facts.custom ++ [(key, value)] }.custom.length := by
          simp only [List.length_append, hcount, List.length_singleton]
        have hrest := ih hroute hnext
        rw [List.append_assoc, List.singleton_append] at hrest
        exact hrest

theorem readMetadata_stamp {grant : OrderedGrant} (hnamed : Named grant) (sequence : UInt64)
    (custom : List (String × String)) :
    (orderedMetadata grant sequence).foldlM readField { custom := custom } =
      .ok
        { custom := custom
          producerId := grant.producerId
          producerEpoch := grant.producerEpoch
          receiverEpoch := grant.receiverEpoch
          sequence := sequence
          hasSequenceField := true } := by
  simp only [orderedMetadata, List.foldlM_cons, List.foldlM_nil]
  rw [readField_text_of_ne (by simp) hnamed.producerId]
  change (readField _ _ >>= _) = _
  rw [readField_text_of_ne (by simp) hnamed.producerEpoch]
  change (readField _ _ >>= _) = _
  rw [readField_text_of_ne (by simp) hnamed.receiverEpoch]
  change (readField _ _ >>= _) = _
  rw [readField_sequence_eq]
  rfl

theorem metadata_of_assembled {environment : SendEnvironment} {arguments : SendArguments}
    {sender : Sender} {envelope : RpcEnvelope}
    (hassembled : assembleEnvelope environment arguments sender = .ok envelope) :
    ∃ route, routeMetadata [] arguments.custom.values = .ok route ∧
      envelope.metadata = arguments.custom.values.map routeField ++
        stampMetadata sender.session arguments.options := by
  unfold assembleEnvelope at hassembled
  split at hassembled
  case h_1 => cases hassembled
  case h_2 route hroute =>
    have hfields := routeMetadata_eq hroute
    rw [List.nil_append] at hfields
    split at hassembled
    case h_1 => cases hassembled
    case h_2 metadata hmetadata =>
      cases hassembled
      refine ⟨route, hroute, ?_⟩
      rcases sendMetadata_ok hmetadata with ⟨hnone, rfl⟩ | ⟨stamp, hstamp, rfl⟩
      · rw [stampMetadata, hnone, List.append_nil]
        exact hfields
      · rw [stampMetadata, hstamp, hfields]
        rfl

omit [Infra] in
theorem filter_metadata (fields : List (String × String)) (session : OrderedSession)
    (options : CallOptions) :
    (fields.map routeField ++ stampMetadata session options).filter
        (fun field => !isRouteKey field.1) =
      stampMetadata session options := by
  have hfields : (fields.map routeField).filter (fun field => !isRouteKey field.1) = [] := by
    rw [List.filter_eq_nil_iff]
    intro field hfield
    obtain ⟨source, -, rfl⟩ := List.mem_map.mp hfield
    rw [routeField, isRouteKey_append]
    decide
  rw [List.filter_append, hfields, List.nil_append, List.filter_eq_self]
  unfold stampMetadata
  split
  · simp
  case h_2 stamp _ =>
    intro field hfield
    have hkeys := List.filter_eq_nil_iff.mp
      (orderedMetadata_not_route session.grant (stampSequence session stamp)) field hfield
    rw [Bool.not_eq_true']
    exact eq_false_of_ne_true hkeys

theorem facts_of_read {fields : List (String × String)} {session : OrderedSession}
    {options : CallOptions} {facts : MetadataFacts}
    (hread : readMetadata (fields.map routeField ++ stampMetadata session options) =
      .ok facts) :
    facts = { stampFacts session options with custom := facts.custom } := by
  have hkeys : ∀ field ∈ fields.map routeField, isRouteKey field.1 = true := by
    intro field hfield
    obtain ⟨source, -, rfl⟩ := List.mem_map.mp hfield
    exact isRouteKey_append source.1
  unfold stampMetadata at hread
  unfold stampFacts
  cases hordered : options.ordered with
  | none =>
      rw [hordered, List.append_nil] at hread
      obtain ⟨custom, rfl⟩ := readMetadata_route hkeys hread
      rfl
  | some stamp =>
      rw [hordered] at hread
      obtain ⟨custom, rfl⟩ := readMetadata_ordered hkeys hread
      rfl

/-- Every envelope that leaves the sender is read as it was written; a receiver never learns
more about the stream of a call than its stamp says. -/
theorem metadata_agrees {environment : SendEnvironment} {arguments : SendArguments}
    {sender : Sender} {envelope : RpcEnvelope}
    (hassembled : assembleEnvelope environment arguments sender = .ok envelope) :
    ((arguments.options.ordered.isSome = true → Named sender.session.grant) →
      readMetadata envelope.metadata =
        .ok { stampFacts sender.session arguments.options with
          custom := arguments.custom.values }) ∧
    (∀ facts, readMetadata envelope.metadata = .ok facts →
      facts = { stampFacts sender.session arguments.options with custom := facts.custom }) ∧
    envelope.metadata.filter (fun field => !isRouteKey field.1) =
      stampMetadata sender.session arguments.options := by
  obtain ⟨route, hroute, hmetadata⟩ := metadata_of_assembled hassembled
  rw [hmetadata]
  refine ⟨fun hnamed => ?_, fun facts hread => facts_of_read hread, filter_metadata _ _ _⟩
  have hfields : (arguments.custom.values.map routeField).foldlM readField {} =
      .ok { custom := [] ++ arguments.custom.values } := readMetadata_routeFields hroute rfl
  rw [List.nil_append] at hfields
  rw [readMetadata, List.foldlM_append, hfields]
  change (stampMetadata _ _).foldlM readField _ = _
  unfold stampMetadata stampFacts
  cases hordered : arguments.options.ordered with
  | none => rfl
  | some stamp => exact readMetadata_stamp (hnamed (by rw [hordered]; rfl)) _ _

end

/-- Two route fields, one of them named like a field of a stamp, travel with the stamp. -/
theorem metadata_agrees_routed :
    letI := permissiveInfra
    let arguments := routedCall [("a", "1"), ("fw.sequence", "9")]
    ∃ envelope, assembleEnvelope silentPeer arguments oneTicket = .ok envelope ∧
      readMetadata envelope.metadata =
        .ok { stampFacts oneTicket.session arguments.options with
          custom := arguments.custom.values } := by
  let _ := permissiveInfra
  refine ⟨_, rfl, (metadata_agrees rfl).1 fun _ => ?_⟩
  exact { producerId := by decide, producerEpoch := by decide, receiverEpoch := by decide }

end BbtFramework.Inbound
