import Aqua.Model.Decoder

/-! # Laws of the field readers

Every reader of the codec is lawful: it moves forward inside the buffer, decides on nothing
behind the position it returns, and stops. The property loops inherit this from their items,
because an item consumes at least its identifier.
-/

namespace Aqua

open Wire Wire.Reader

theorem lift_lawful {α : Type} {x : Result α} (halts : x ≠ .diverge) : Lawful (lift x) := by
  cases x with
  | ok a => exact .pure a
  | err e => exact .fail e
  | panic => exact .panic
  | diverge => exact (halts rfl).elim

theorem decodeU16Bytes_eq : decodeU16Bytes = u16 := u16Slice_eq_u16 _

theorem decodeUtf8String_lawful : Lawful decodeUtf8String := by
  refine Lawful.bind (decodeU16Bytes_eq ▸ .u16) fun _ => (Lawful.sliceOr _ _).bind fun _ => ?_
  split
  · exact .pure _
  · exact .fail _

theorem stringField_lawful {α : Type} (wrap : String → α) : Lawful (stringField wrap) :=
  decodeUtf8String_lawful.map

theorem UserProperty.tryFrom_lawful : Lawful UserProperty.tryFrom :=
  decodeUtf8String_lawful.bind fun _ => decodeUtf8String_lawful.bind fun _ => .pure _

theorem binary_lawful : Lawful binary := Lawful.u16.bind fun _ => .slice _

theorem binaryField_lawful {α : Type} (wrap : Bytes → α) : Lawful (binaryField wrap) :=
  binary_lawful.map

theorem ProtocolName.tryFrom_lawful : Lawful ProtocolName.tryFrom := by
  refine binary_lawful.bind fun _ => ?_
  split
  · exact .pure _
  · exact .fail _

theorem ProtocolName.tryFrom_progresses : Progresses ProtocolName.tryFrom := by
  refine (u16_progresses.bind fun _ => Lawful.slice _).bind fun _ => ?_
  split
  · exact .pure _
  · exact .fail _

theorem PacketId.tryFrom_lawful : Lawful PacketId.tryFrom := Lawful.u16.map

theorem KeepAlive.tryFrom_lawful : Lawful KeepAlive.tryFrom := Lawful.u16.map

theorem nonzeroU16Field_lawful {α : Type} (wrap : UInt16 → α) : Lawful (nonzeroU16Field wrap) :=
  Lawful.u16.bind fun _ => .ite (.fail _) (.pure _)

theorem u32Field_lawful {α : Type} (wrap : UInt32 → α) : Lawful (u32Field wrap) :=
  (Lawful.u32Slice _).map

theorem MaximumPacketSize.tryFrom_lawful : Lawful MaximumPacketSize.tryFrom :=
  (Lawful.u32Slice _).bind fun _ => .ite (.fail _) (.pure _)

theorem flagField_lawful {α : Type} (zero one : α) : Lawful (flagField zero one) :=
  Lawful.index.bind fun _ => .ite (.pure _) (.ite (.pure _) (.fail _))

theorem ProtocolVersion.tryFrom_lawful : Lawful ProtocolVersion.tryFrom := Lawful.index.map

theorem QoS.ofByte_halts (value : UInt8) : QoS.ofByte value ≠ .diverge :=
  Outcome.ite_halts (Outcome.ok_ne_diverge _) <| Outcome.ite_halts (Outcome.ok_ne_diverge _) <|
    Outcome.ite_halts (Outcome.ok_ne_diverge _) (Outcome.err_ne_diverge _)

theorem RetainHandling.ofByte_halts (value : UInt8) : RetainHandling.ofByte value ≠ .diverge :=
  Outcome.ite_halts (Outcome.ok_ne_diverge _) <| Outcome.ite_halts (Outcome.ok_ne_diverge _) <|
    Outcome.ite_halts (Outcome.ok_ne_diverge _) (Outcome.err_ne_diverge _)

theorem SubscribeOption.tryFrom_lawful : Lawful SubscribeOption.tryFrom :=
  Lawful.index.bind fun _ => (lift_lawful (QoS.ofByte_halts _)).bind fun _ =>
    (lift_lawful (RetainHandling.ofByte_halts _)).bind fun _ => .pure _

theorem SubscribeOption.tryFrom_progresses : Progresses SubscribeOption.tryFrom :=
  index_progresses.bind fun _ => (lift_lawful (QoS.ofByte_halts _)).bind fun _ =>
    (lift_lawful (RetainHandling.ofByte_halts _)).bind fun _ => .pure _

theorem ConnectFlags.tryFrom_lawful : Lawful ConnectFlags.tryFrom :=
  Lawful.index.bind fun _ => .ite (.fail _)
    ((lift_lawful (QoS.ofByte_halts _)).bind fun _ => .pure _)

theorem PubrelReasonCode.tryFrom_lawful : Lawful PubrelReasonCode.tryFrom :=
  (Lawful.indexOr _).bind fun _ => .ite (.pure _) (.ite (.pure _) (.fail _))

theorem DisconnectReasonCode.convert_lawful : Lawful DisconnectReasonCode.convert := by
  refine (Lawful.indexOr _).bind fun _ => ?_
  split
  · exact .pure _
  · exact .fail _

theorem decodeDigits_lawful (left inc acc : ℕ) : Lawful (decodeDigits left inc acc) := by
  induction left generalizing inc acc with
  | zero => exact .pure acc
  | succ left ih =>
    exact (Lawful.indexOr _).bind fun _ => .ite (.pure _) (.ite (.fail _) (ih _ _))

theorem decodeVariableLength_lawful : Lawful decodeVariableLength := decodeDigits_lawful 4 0 0

theorem SubscriptionIdentifier.tryFrom_lawful : Lawful SubscriptionIdentifier.tryFrom :=
  decodeVariableLength_lawful.map

theorem Build.sub_halts (build : Build) (x y : ℕ) : build.sub x y ≠ .diverge :=
  Outcome.ite_halts (Outcome.ok_ne_diverge _)
    (Outcome.ite_halts Outcome.panic_ne_diverge (Outcome.ok_ne_diverge _))

section Properties

variable {σ : Type} {property : σ → UInt8 → FieldReader σ}

/-- One round of a property loop: the identifier and its value. -/
def propertyItem (property : σ → UInt8 → FieldReader σ) (set : σ) : FieldReader σ := do
  let id ← index
  property set id

theorem propertyIteration_advances (lawful : ∀ set id, Lawful (property set id)) (endPos : ℕ) :
    Advances (blockIteration .invalidFormat (propertyItem property) endPos) :=
  blockIteration_advances (fun set => Lawful.index.bind fun id => lawful set id)
    (fun set => index_progresses.bind fun id => lawful set id) endPos

theorem propertyLoop_eq (property : σ → UInt8 → FieldReader σ) (endPos : ℕ) : propertyLoop property endPos =
    Reader.loop (blockIteration .invalidFormat (propertyItem property) endPos) := rfl

theorem propertyLoop_lawful (lawful : ∀ set id, Lawful (property set id)) (endPos : ℕ) (set : σ) :
    Lawful (propertyLoop property endPos set) := by
  rw [propertyLoop_eq]
  exact (propertyIteration_advances lawful endPos).loop set

theorem propertyBlock_lawful (lawful : ∀ set id, Lawful (property set id)) (set : σ) :
    Lawful (propertyBlock property set) :=
  decodeVariableLength_lawful.bind fun _ => Lawful.position.bind fun _ =>
    propertyLoop_lawful lawful _ _

end Properties

/-- A property that is read and then stored. -/
theorem stored_lawful {α σ : Type} {r : FieldReader α} {store : α → σ} (lawful : Lawful r) :
    Lawful (r >>= fun result => pure (store result)) := lawful.bind fun _ => .pure _

/-- A property that may occur once. -/
theorem single_lawful {α σ : Type} {c : Prop} [Decidable c] {r : FieldReader α} {store : α → σ}
    (lawful : Lawful r) :
    Lawful (if c then fail .invalidFormat else r >>= fun result => pure (store result)) :=
  .ite (.fail _) (stored_lawful lawful)

theorem PublishProperties.readProperty_lawful (pub : PublishProperties) (id : UInt8) :
    Lawful (pub.readProperty id) := by
  unfold PublishProperties.readProperty
  refine .ite (stored_lawful (flagField_lawful _ _)) ?_
  refine .ite (stored_lawful (u32Field_lawful _)) ?_
  refine .ite (single_lawful (nonzeroU16Field_lawful _)) ?_
  refine .ite (single_lawful (stringField_lawful _)) ?_
  refine .ite (single_lawful (binaryField_lawful _)) ?_
  refine .ite (stored_lawful UserProperty.tryFrom_lawful) ?_
  refine .ite (stored_lawful SubscriptionIdentifier.tryFrom_lawful) ?_
  exact .ite (single_lawful (stringField_lawful _)) (.fail _)

theorem SubscribeProperties.readProperty_lawful (sub : SubscribeProperties) (id : UInt8) :
    Lawful (sub.readProperty id) :=
  .ite (stored_lawful UserProperty.tryFrom_lawful)
    (.ite (stored_lawful SubscriptionIdentifier.tryFrom_lawful) (.fail _))

theorem UnsubscribeProperties.readProperty_lawful (unsub : Option UnsubscribeProperties)
    (id : UInt8) : Lawful (UnsubscribeProperties.readProperty unsub id) :=
  .ite (stored_lawful UserProperty.tryFrom_lawful) (.fail _)

theorem ConnectProperties.readValue_lawful (properties : ConnectProperties) (id : UInt8) :
    Lawful (properties.readValue id) := by
  unfold ConnectProperties.readValue
  refine .ite (single_lawful (u32Field_lawful _)) ?_
  refine .ite (single_lawful (nonzeroU16Field_lawful _)) ?_
  refine .ite (single_lawful MaximumPacketSize.tryFrom_lawful) ?_
  refine .ite (single_lawful (nonzeroU16Field_lawful _)) ?_
  refine .ite (single_lawful (flagField_lawful _ _)) ?_
  refine .ite (single_lawful (flagField_lawful _ _)) ?_
  refine .ite (stored_lawful UserProperty.tryFrom_lawful) ?_
  refine .ite (single_lawful (stringField_lawful _)) ?_
  exact .ite (single_lawful (binaryField_lawful _)) (.fail _)

theorem ConnectProperties.readProperty_lawful (properties : ConnectProperties) (id : UInt8) :
    Lawful (properties.readProperty id) :=
  (readValue_lawful properties id).bind fun _ => .ite (.fail _) (.pure _)

theorem WillProperties.readProperty_lawful (will : WillProperties) (id : UInt8) :
    Lawful (will.readProperty id) := by
  unfold WillProperties.readProperty
  refine .ite (single_lawful (u32Field_lawful _)) ?_
  refine .ite (single_lawful (flagField_lawful _ _)) ?_
  refine .ite (single_lawful (u32Field_lawful _)) ?_
  refine .ite (single_lawful (stringField_lawful _)) ?_
  refine .ite (single_lawful (stringField_lawful _)) ?_
  refine .ite (single_lawful (binaryField_lawful _)) ?_
  exact .ite (stored_lawful UserProperty.tryFrom_lawful) (.fail _)

theorem DisconnectProperties.readProperty_lawful (pro : DisconnectProperties) (id : UInt8) :
    Lawful (pro.readProperty id) := by
  unfold DisconnectProperties.readProperty
  refine .ite (single_lawful (u32Field_lawful _)) ?_
  refine .ite (stored_lawful UserProperty.tryFrom_lawful) ?_
  refine .ite (single_lawful (stringField_lawful _)) ?_
  exact .ite (stored_lawful (stringField_lawful _)) (.fail _)

theorem PubrelProperties.readProperty_lawful (pro : Option PubrelProperties) (id : UInt8) :
    Lawful (PubrelProperties.readProperty pro id) :=
  .ite (stored_lawful UserProperty.tryFrom_lawful)
    (.ite (stored_lawful decodeUtf8String_lawful) (.fail _))

theorem Publish.readPacketId_lawful (qos : QoS) (packetId : Option PacketId) :
    Lawful (Publish.readPacketId qos packetId) := by
  refine .ite (.require (stored_lawful PacketId.tryFrom_lawful) ?_) (.pure _)
  intro buf pos a next read
  obtain ⟨id, mid, head, rest⟩ := bind_eq_ok_iff.mp read
  obtain ⟨value, head, _⟩ := map_eq_ok_iff.mp head
  cases rest
  have := u16_end head
  omega

theorem Publish.readProperties_lawful (version : ProtocolVersion)
    (properties : Option PublishProperties) : Lawful (Publish.readProperties version properties) :=
  .ite (stored_lawful (propertyBlock_lawful PublishProperties.readProperty_lawful _)) (.pure _)

theorem Subscribe.readProperties_lawful (version : ProtocolVersion)
    (properties : SubscribeProperties) : Lawful (Subscribe.readProperties version properties) :=
  .ite (propertyBlock_lawful SubscribeProperties.readProperty_lawful _) (.pure _)

theorem Unsubscribe.readProperties_lawful (version : ProtocolVersion)
    (properties : Option UnsubscribeProperties) :
    Lawful (Unsubscribe.readProperties version properties) :=
  .ite (propertyBlock_lawful UnsubscribeProperties.readProperty_lawful _) (.pure _)

theorem Disconnect.readProperties_lawful (version : ProtocolVersion)
    (properties : Option DisconnectProperties) :
    Lawful (Disconnect.readProperties version properties) :=
  .ite (stored_lawful (propertyBlock_lawful DisconnectProperties.readProperty_lawful _)) (.pure _)

theorem Pubrel.readProperties_lawful (version : ProtocolVersion)
    (properties : Option PubrelProperties) : Lawful (Pubrel.readProperties version properties) :=
  .ite (propertyBlock_lawful PubrelProperties.readProperty_lawful _) (.pure _)

section Headers

variable (build : Build) (remainingLength : ℕ) (protocolVersion : Option ProtocolVersion)

theorem Publish.decodeVariableHeader_lawful (self : Publish) :
    Lawful (self.decodeVariableHeader build remainingLength protocolVersion) :=
  Lawful.position.bind fun _ => (stringField_lawful _).bind fun _ =>
    (Publish.readPacketId_lawful _ _).bind fun _ => (Lawful.unwrap _).bind fun _ =>
      (Publish.readProperties_lawful _ _).bind fun _ => Lawful.position.bind fun _ =>
        (lift_lawful (build.sub_halts _ _)).bind fun _ => .pure _

theorem Subscribe.decodeVariableHeader_lawful (self : Subscribe) :
    Lawful (self.decodeVariableHeader build remainingLength protocolVersion) := by
  cases protocolVersion with
  | none => exact .fail _
  | some version =>
    exact Lawful.position.bind fun _ => PacketId.tryFrom_lawful.bind fun _ =>
      (Subscribe.readProperties_lawful _ _).bind fun _ => Lawful.position.bind fun _ =>
        (lift_lawful (build.sub_halts _ _)).bind fun _ => .pure _

theorem Unsubscribe.decodeVariableHeader_lawful (self : Unsubscribe) :
    Lawful (self.decodeVariableHeader build remainingLength protocolVersion) :=
  Lawful.position.bind fun _ => PacketId.tryFrom_lawful.bind fun _ =>
    (Lawful.unwrap _).bind fun _ => (Unsubscribe.readProperties_lawful _ _).bind fun _ =>
      Lawful.position.bind fun _ => (lift_lawful (build.sub_halts _ _)).bind fun _ => .pure _

theorem Connect.decodeVariableHeader_lawful (self : Connect) :
    Lawful self.decodeVariableHeader :=
  ProtocolName.tryFrom_lawful.bind fun _ => ProtocolVersion.tryFrom_lawful.bind fun _ =>
    ConnectFlags.tryFrom_lawful.bind fun _ => KeepAlive.tryFrom_lawful.bind fun _ =>
      .ite (.pure _) (stored_lawful
        (propertyBlock_lawful ConnectProperties.readProperty_lawful _))

/-- The variable header of a CONNECT is never empty. -/
theorem Connect.decodeVariableHeader_progresses (self : Connect) :
    Progresses self.decodeVariableHeader :=
  ProtocolName.tryFrom_progresses.bind fun _ => ProtocolVersion.tryFrom_lawful.bind fun _ =>
    ConnectFlags.tryFrom_lawful.bind fun _ => KeepAlive.tryFrom_lawful.bind fun _ =>
      .ite (.pure _) (stored_lawful
        (propertyBlock_lawful ConnectProperties.readProperty_lawful _))

theorem Disconnect.decodeVariableHeader_lawful (self : Disconnect) :
    Lawful (self.decodeVariableHeader remainingLength protocolVersion) :=
  .ite (.pure _) (DisconnectReasonCode.convert_lawful.bind fun _ => (Lawful.unwrap _).bind fun _ =>
    stored_lawful (Disconnect.readProperties_lawful _ _))

theorem Pubrel.decodeVariableHeader_lawful (self : Pubrel) :
    Lawful (self.decodeVariableHeader remainingLength protocolVersion) :=
  PacketId.tryFrom_lawful.bind fun _ => .ite (.pure _)
    (PubrelReasonCode.tryFrom_lawful.bind fun _ => (Lawful.unwrap _).bind fun _ =>
      stored_lawful (Pubrel.readProperties_lawful _ _))

theorem ackVariableHeader_lawful (packet : PacketId → ProtocolVersion → ControlPacket) :
    Lawful (ackVariableHeader protocolVersion packet) := stored_lawful PacketId.tryFrom_lawful

theorem ControlPacket.decodeVariableHeader_lawful (self : ControlPacket) :
    Lawful (self.decodeVariableHeader build remainingLength protocolVersion) := by
  cases self with
  | connect p => exact p.decodeVariableHeader_lawful.map
  | publish p => exact (p.decodeVariableHeader_lawful build _ _).map
  | subscribe p => exact (p.decodeVariableHeader_lawful build _ _).map
  | unsubscribe p => exact (p.decodeVariableHeader_lawful build _ _).map
  | disconnect p => exact (p.decodeVariableHeader_lawful _ _).map
  | pubrel p => exact (p.decodeVariableHeader_lawful _ _).map
  | pingreq p => exact .pure _
  | puback p =>
    exact ackVariableHeader_lawful _ fun packetId protocolVersion =>
      .puback { p with packetId, protocolVersion }
  | pubrec p =>
    exact ackVariableHeader_lawful _ fun packetId protocolVersion =>
      .pubrec { p with packetId, protocolVersion }
  | pubcomp p =>
    exact ackVariableHeader_lawful _ fun packetId protocolVersion =>
      .pubcomp { p with packetId, protocolVersion }
  | connack _ => exact .fail _
  | undefined => exact .fail _
  | noOperation => exact .fail _
  | disconnectCpOperation => exact .fail _
  | suback _ => exact .fail _
  | pingresp _ => exact .fail _
  | unsuback _ => exact .fail _

end Headers

theorem decodeLowerFixedHeader_halts (first : UInt8) : decodeLowerFixedHeader first ≠ .diverge := by
  rw [decodeLowerFixedHeader, ne_eq, Outcome.bind_eq_diverge_iff]
  rintro (stuck | ⟨_, _, stuck⟩)
  · exact QoS.ofByte_halts _ stuck
  · cases stuck

theorem packetOfFirstByte_halts (first : UInt8) : packetOfFirstByte first ≠ .diverge := by
  have plain (packet : ControlPacket) : (.ok packet : Result ControlPacket) ≠ .diverge :=
    Outcome.ok_ne_diverge _
  have invalid : (.err .invalidFormat : Result ControlPacket) ≠ .diverge := Outcome.err_ne_diverge _
  have flags (packet : ControlPacket) (expected : UInt8) :
      (if first ≠ expected then .err .invalidFormat else .ok packet : Result ControlPacket) ≠
        .diverge := Outcome.ite_halts invalid (plain packet)
  refine Outcome.ite_halts (plain _) <| Outcome.ite_halts (plain _) <| Outcome.ite_halts ?publish <|
    Outcome.ite_halts (plain _) <| Outcome.ite_halts (plain _) <| Outcome.ite_halts (flags _ _) <|
    Outcome.ite_halts (plain _) <| Outcome.ite_halts (flags _ _) <| Outcome.ite_halts (flags _ _) invalid
  rw [ne_eq, Outcome.bind_eq_diverge_iff]
  rintro (stuck | ⟨_, _, stuck⟩)
  · exact decodeLowerFixedHeader_halts _ stuck
  · cases stuck

theorem decodeFixedHeader_lawful : Lawful decodeFixedHeader :=
  Lawful.index.bind fun _ => (lift_lawful (packetOfFirstByte_halts _)).bind fun _ =>
    decodeVariableLength_lawful.bind fun _ => .pure _

/-- One iteration of the loop over the filters of a SUBSCRIBE. -/
def Subscribe.filterIteration (payloadLength : ℕ) (filters : List (TopicFilter × SubscribeOption)) :
    FieldReader (List (TopicFilter × SubscribeOption) ⊕ List (TopicFilter × SubscribeOption)) := do
  let f ← TopicFilter.tryFrom
  let op ← SubscribeOption.tryFrom
  let nextPos ← position
  if payloadLength = nextPos then pure (.inr (filters ++ [(f, op)]))
  else if payloadLength < nextPos then fail .unexpected
  else pure (.inl (filters ++ [(f, op)]))

theorem Subscribe.filterIteration_advances (payloadLength : ℕ) :
    Advances (Subscribe.filterIteration payloadLength) where
  lawful filters := (stringField_lawful _).bind fun _ => SubscribeOption.tryFrom_lawful.bind fun _ =>
    Lawful.position.bind fun _ => .ite (.pure _) (.ite (.fail _) (.pure _))
  advances := by
    intro filters buf pos next_filters next step
    obtain ⟨f, mid, filter, rest⟩ := bind_eq_ok_iff.mp step
    obtain ⟨moved, inside⟩ := (SubscribeOption.tryFrom_progresses.bind fun _ =>
      Lawful.position.bind fun _ => .ite (.pure _) (.ite (.fail _) (.pure _))) rest
    have := (stringField_lawful _).forward filter
    omega

theorem Subscribe.readFilters_lawful (payloadLength : ℕ)
    (filters : List (TopicFilter × SubscribeOption)) :
    Lawful (Subscribe.readFilters payloadLength filters) :=
  (Subscribe.filterIteration_advances payloadLength).loop filters

theorem stringField_progresses {α : Type} (wrap : String → α) : Progresses (stringField wrap) := by
  refine Progresses.map (Progresses.bind ?_ fun _ => (Lawful.sliceOr _ _).bind fun _ => ?_)
  · rw [decodeU16Bytes_eq]
    exact u16_progresses
  · split
    · exact .pure _
    · exact .fail _

theorem Unsubscribe.readFilter_lawful (filters : List TopicFilter) :
    Lawful (Unsubscribe.readFilter filters) := stored_lawful (stringField_lawful _)

theorem Unsubscribe.readFilter_progresses (filters : List TopicFilter) :
    Progresses (Unsubscribe.readFilter filters) :=
  (stringField_progresses _).bind fun _ => .pure _

theorem Connect.readWill_lawful (self : Connect) : Lawful self.readWill :=
  .ite ((propertyBlock_lawful WillProperties.readProperty_lawful _).bind fun _ =>
    (stringField_lawful _).bind fun _ => stored_lawful (binaryField_lawful _)) (.pure _)

theorem Connect.readUserName_lawful (self : Connect) : Lawful self.readUserName :=
  .ite (stored_lawful (stringField_lawful _)) (.pure _)

theorem Connect.readPassword_lawful (self : Connect) : Lawful self.readPassword :=
  .ite (stored_lawful (binaryField_lawful _)) (.pure _)

theorem Connect.readPayload_lawful (self : Connect) : Lawful self.readPayload :=
  (stringField_lawful _).bind fun _ => (readWill_lawful _).bind fun _ =>
    (readUserName_lawful _).bind fun _ => readPassword_lawful _

/-- The payload of a CONNECT is never empty. -/
theorem Connect.readPayload_progresses (self : Connect) : Progresses self.readPayload :=
  (stringField_progresses _).bind fun _ => (readWill_lawful _).bind fun _ =>
    (readUserName_lawful _).bind fun _ => readPassword_lawful _

end Aqua
