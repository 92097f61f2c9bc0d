import Aqua.Model.Encoder
import Aqua.Proofs.FieldRoundTrip
import Aqua.Proofs.Payload

/-! # PUBLISH read back

The variable header of an encoded PUBLISH is read back as the packet it was written from. A missing
property set comes back as an empty one and an empty list as a missing one; `normal` is the form
in which the two sides agree.
-/

namespace Aqua

open Wire Wire.Reader

theorem foldl_pushProperty {α : Type} (list : List α) (start : Option (List α)) :
    list.foldl pushProperty start = if list = [] then start else some (start.getD [] ++ list) := by
  induction list generalizing start with
  | nil => rfl
  | cons a rest ih =>
    rw [List.foldl_cons, ih, if_neg (List.cons_ne_nil a rest)]
    cases rest <;> simp [pushProperty]

/-- An empty list of properties is the same on the wire as none. -/
def repeated {α : Type} : Option (List α) → Option (List α)
  | some [] => none
  | list => list

theorem foldl_pushProperty_none {α : Type} (list : List α) :
    list.foldl pushProperty none = repeated (some list) := by
  rw [foldl_pushProperty]
  cases list <;> rfl

/-- The property set that is read back. -/
def PublishProperties.normal (properties : Option PublishProperties) : PublishProperties :=
  let set := properties.getD {}
  { set with
    userProperties := repeated set.userProperties
    subscriptionIdentifier := repeated set.subscriptionIdentifier }

/-- What fits on the wire: strings and binary data of at most 65535 bytes, a topic alias other than
zero, and subscription identifiers of four digits. -/
structure PublishProperties.Encodable (set : PublishProperties) : Prop where
  topicAlias : ∀ alias_ ∈ set.topicAlias, alias_.value ≠ 0
  responseTopic : ∀ topic ∈ set.responseTopic, (stringBytes topic.value).length < 2 ^ 16
  correlationData : ∀ data ∈ set.correlationData, data.value.length < 2 ^ 16
  userProperties : ∀ list ∈ set.userProperties, ∀ property ∈ list,
    (stringBytes property.key).length < 2 ^ 16 ∧ (stringBytes property.value).length < 2 ^ 16
  subscriptionIdentifier : ∀ list ∈ set.subscriptionIdentifier, ∀ id ∈ list, id.value < 2 ^ 28
  contentType : ∀ type ∈ set.contentType, (stringBytes type.value).length < 2 ^ 16

/-- One round of the PUBLISH property loop. -/
abbrev publishItem : PublishProperties → FieldReader PublishProperties :=
  propertyItem PublishProperties.readProperty

namespace PublishProperties

variable {set : PublishProperties}

private theorem readPayloadFormat (set : PublishProperties) (value : PayloadFormatIndicator) :
    Reads (set.readProperty 0x01) [value.toByte]
      { set with payloadFormatIndicator := some value } :=
  (PayloadFormatIndicator.tryFrom_reads value).bind_nil (Reads.pure _)

private theorem readMessageExpiry (set : PublishProperties) (value : MessageExpiryInterval) :
    Reads (set.readProperty 0x02) (be32Bytes value.value)
      { set with messageExpiryInterval := some value } :=
  (u32Field_reads MessageExpiryInterval.mk value.value).bind_nil (Reads.pure _)

private theorem readTopicAlias (fresh : set.topicAlias = none) {value : TopicAlias}
    (nonzero : value.value ≠ 0) :
    Reads (set.readProperty 0x23) (be16Bytes value.value) { set with topicAlias := some value } := by
  have absent : set.readProperty 0x23 = TopicAlias.tryFrom >>= fun result =>
      pure { set with topicAlias := some result } := if_neg (not_not.mpr fresh)
  rw [absent]
  exact (nonzeroU16Field_reads TopicAlias.mk nonzero).bind_nil (Reads.pure _)

private theorem readResponseTopic (fresh : set.responseTopic = none) {value : ResponseTopic}
    (small : (stringBytes value.value).length < 2 ^ 16) :
    Reads (set.readProperty 0x08) (putTruncated (stringBytes value.value))
      { set with responseTopic := some value } := by
  have absent : set.readProperty 0x08 = ResponseTopic.tryFrom >>= fun result =>
      pure { set with responseTopic := some result } := if_neg (not_not.mpr fresh)
  rw [absent]
  exact (stringField_reads ResponseTopic.mk small).bind_nil (Reads.pure _)

private theorem readCorrelationData (fresh : set.correlationData = none) {value : CorrelationData}
    (small : value.value.length < 2 ^ 16) :
    Reads (set.readProperty 0x09) (putTruncated value.value)
      { set with correlationData := some value } := by
  have absent : set.readProperty 0x09 = CorrelationData.tryFrom >>= fun result =>
      pure { set with correlationData := some result } := if_neg (not_not.mpr fresh)
  rw [absent]
  exact (binaryField_reads CorrelationData.mk small).bind_nil (Reads.pure _)

private theorem readContentType (fresh : set.contentType = none) {value : ContentType}
    (small : (stringBytes value.value).length < 2 ^ 16) :
    Reads (set.readProperty 0x03) (putTruncated (stringBytes value.value))
      { set with contentType := some value } := by
  have absent : set.readProperty 0x03 = ContentType.tryFrom >>= fun result =>
      pure { set with contentType := some result } := if_neg (not_not.mpr fresh)
  rw [absent]
  exact (stringField_reads ContentType.mk small).bind_nil (Reads.pure _)

private theorem readUserProperty (set : PublishProperties) {value : UserProperty}
    (small : (stringBytes value.key).length < 2 ^ 16 ∧ (stringBytes value.value).length < 2 ^ 16) :
    Reads (set.readProperty 0x26)
      (putTruncated (stringBytes value.key) ++ putTruncated (stringBytes value.value))
      { set with userProperties := pushProperty set.userProperties value } :=
  (UserProperty.tryFrom_reads small.1 small.2).bind_nil (Reads.pure _)

private theorem readSubscriptionIdentifier (set : PublishProperties) {value : SubscriptionIdentifier}
    (small : value.value < 2 ^ 28) :
    Reads (set.readProperty 0x0b) (encodeVariableBytes value.value)
      { set with subscriptionIdentifier := pushProperty set.subscriptionIdentifier value } :=
  (SubscriptionIdentifier.tryFrom_reads small).bind_nil (Reads.pure _)

/-- A repeated property. -/
private theorem pushed_items {α : Type} {value : Option (List α)} {bytes : α → Bytes}
    (store : Option (List α) → PublishProperties)
    (part : ∀ pushed, ∀ list ∈ value, ∀ a ∈ list,
      Reads (publishItem (store pushed)) (bytes a) (store (pushProperty pushed a)) ∧ bytes a ≠ []) :
    Items publishItem (store none) (optionBytes value fun list => list.flatMap bytes)
      (store (repeated value)) := by
  cases value with
  | none => exact .nil _
  | some list =>
    rw [← foldl_pushProperty_none]
    exact Items.list store (fun pushed a member => part pushed list rfl a member) none

/-- The properties are written in the order of the fields, each into what was read so far. -/
theorem buildBytes_items (fits : set.Encodable) :
    ∃ bytes, set.buildBytes = .ok bytes ∧ Items publishItem {} bytes (normal (some set)) := by
  have format := optionalProperty_items readProperty (fun v => { payloadFormatIndicator := v })
    (fun a (_ : a ∈ set.payloadFormatIndicator) => readPayloadFormat _ a)
  have expiry := optionalProperty_items readProperty (fun v => {
      payloadFormatIndicator := set.payloadFormatIndicator
      messageExpiryInterval := v })
    (fun a (_ : a ∈ set.messageExpiryInterval) => readMessageExpiry _ a)
  have alias_ := optionalProperty_items readProperty (fun v => {
      payloadFormatIndicator := set.payloadFormatIndicator
      messageExpiryInterval := set.messageExpiryInterval
      topicAlias := v })
    (fun a present => readTopicAlias rfl (fits.topicAlias a present))
  have response := optionalProperty_items readProperty (fun v => {
      payloadFormatIndicator := set.payloadFormatIndicator
      messageExpiryInterval := set.messageExpiryInterval
      topicAlias := set.topicAlias
      responseTopic := v })
    (fun a present => readResponseTopic rfl (fits.responseTopic a present))
  have correlation := optionalProperty_items readProperty (fun v => {
      payloadFormatIndicator := set.payloadFormatIndicator
      messageExpiryInterval := set.messageExpiryInterval
      topicAlias := set.topicAlias
      responseTopic := set.responseTopic
      correlationData := v })
    (fun a present => readCorrelationData rfl (fits.correlationData a present))
  have user := pushed_items (fun v => {
      payloadFormatIndicator := set.payloadFormatIndicator
      messageExpiryInterval := set.messageExpiryInterval
      topicAlias := set.topicAlias
      responseTopic := set.responseTopic
      correlationData := set.correlationData
      userProperties := v })
    (fun _ list present a member => propertyItem_reads
      (readUserProperty _ (fits.userProperties list present a member)))
  have identifiers := pushed_items (fun v => {
      payloadFormatIndicator := set.payloadFormatIndicator
      messageExpiryInterval := set.messageExpiryInterval
      topicAlias := set.topicAlias
      responseTopic := set.responseTopic
      correlationData := set.correlationData
      userProperties := repeated set.userProperties
      subscriptionIdentifier := v })
    (fun _ list present a member => propertyItem_reads
      (readSubscriptionIdentifier _ (fits.subscriptionIdentifier list present a member)))
  have content := optionalProperty_items readProperty (fun v => { normal (some set) with contentType := v })
    (fun a present => readContentType rfl (fits.contentType a present))
  exact ⟨_, rfl, ((((((format.append expiry).append alias_).append response).append
    correlation).append user).append identifiers).append content⟩

end PublishProperties

/-- The parts of the variable header in their order, and what they leave for the payload. -/
theorem Publish.decodeVariableHeader_reads (build : Build) (self : Publish)
    {version : ProtocolVersion} {topicName : TopicName} {packetId : Option PacketId}
    {properties : Option PublishProperties} {topicBytes idBytes propertyBytes : Bytes}
    {remainingLength : ℕ} (topic : Reads TopicName.tryFrom topicBytes topicName)
    (id : Reads (Publish.readPacketId self.qos self.packetId) idBytes packetId)
    (props : Reads (Publish.readProperties version self.pubProperties) propertyBytes properties)
    (inside : (topicBytes ++ idBytes ++ propertyBytes).length ≤ remainingLength) :
    Reads (self.decodeVariableHeader build remainingLength (some version))
      (topicBytes ++ idBytes ++ propertyBytes)
      { self with
        topicName, packetId, pubProperties := properties
        payloadLength := remainingLength - (topicBytes ++ idBytes ++ propertyBytes).length } := by
  intro before after
  have first := topic before (idBytes ++ (propertyBytes ++ after))
  have second := id (before ++ topicBytes) (propertyBytes ++ after)
  have third := props (before ++ topicBytes ++ idBytes) after
  simp only [List.append_assoc, List.length_append, Nat.add_assoc] at first second third inside ⊢
  refine bind_eq_ok_iff.mpr ⟨_, _, rfl, bind_eq_ok_iff.mpr ⟨_, _, first, bind_eq_ok_iff.mpr ⟨_, _,
    second, bind_eq_ok_iff.mpr ⟨version, _, rfl, bind_eq_ok_iff.mpr ⟨_, _, third,
      bind_eq_ok_iff.mpr ⟨_, _, rfl, bind_eq_ok_iff.mpr ⟨_, _, lift_eq_ok_iff.mpr
        ⟨Build.sub_eq_ok_iff.mpr (.inl ⟨?_, rfl⟩), rfl⟩, ?_⟩⟩⟩⟩⟩⟩⟩
  · omega
  · simp only [pure_apply, Nat.add_sub_cancel_left]

/-- A payload of the announced length is taken from the front of the buffer. -/
theorem Publish.decodePayload_append {self : Publish} {payload : Bytes}
    (length : self.payloadLength = payload.length) (s : Bytes) :
    self.decodePayload (payload ++ s) = .ok ({ self with payloadData := payload }, s) := by
  have enough : ¬ (payload ++ s).length < self.payloadLength := by
    rw [length, List.length_append]
    omega
  rw [Publish.decodePayload, if_neg enough, length, List.take_left, List.drop_left]

/-- The values the encoder is given, as a client may send them. -/
structure Publish.Encodable (p : Publish) : Prop where
  topicName : (stringBytes p.topicName.value).length < 2 ^ 16
  packetId : p.packetId = none ↔ p.qos = .qos0
  payloadLength : p.payloadLength = p.payloadData.length
  pubProperties : ∀ set ∈ p.pubProperties, set.Encodable
  remainingLength : ∀ properties, p.encodeProperties = .ok properties →
    2 + (stringBytes p.topicName.value).length + (if p.qos = .qos0 then 0 else 2) +
      properties.length + p.payloadLength < 2 ^ 28

namespace Publish

variable {p : Publish}

theorem encodePacketId_reads (present : p.packetId = none ↔ p.qos = .qos0) :
    ∃ bytes, p.encodePacketId = .ok bytes ∧ bytes.length = (if p.qos = .qos0 then 0 else 2) ∧
      Reads (Publish.readPacketId p.qos none) bytes p.packetId := by
  by_cases zero : p.qos = .qos0
  · refine ⟨[], if_neg (not_not.mpr zero), by rw [if_pos zero]; rfl, ?_⟩
    rw [present.mpr zero, zero]
    exact Reads.pure none
  · obtain ⟨id, known⟩ := Option.ne_none_iff_exists'.mp (mt present.mp zero)
    have one_or_two : p.qos = .qos1 ∨ p.qos = .qos2 := by
      cases qos : p.qos with
      | qos0 => exact (zero qos).elim
      | qos1 => exact .inl rfl
      | qos2 => exact .inr rfl
    refine ⟨be16Bytes id.value, ?_, by rw [if_neg zero]; rfl, ?_⟩
    · simp only [encodePacketId, if_pos zero, known, Outcome.unwrap_some, Outcome.ok_bind,
        Outcome.pure_eq]
    · rw [Publish.readPacketId, if_pos one_or_two, known]
      apply Reads.require (by simp)
      exact (PacketId.tryFrom_reads id).bind_nil (Reads.pure _)

/-- The properties a decoder of the same version reads back. -/
def decodedProperties (p : Publish) : Option PublishProperties :=
  if p.protocolVersion.value = 5 then some (PublishProperties.normal p.pubProperties) else none

theorem encodeProperties_reads (fits : ∀ set ∈ p.pubProperties, set.Encodable)
    (small : ∀ bytes, p.encodeProperties = .ok bytes → bytes.length < 2 ^ 28)
    (version : p.protocolVersion.value = 3 ∨ p.protocolVersion.value = 4 ∨
      p.protocolVersion.value = 5) :
    ∃ bytes, p.encodeProperties = .ok bytes ∧
      Reads (Publish.readProperties p.protocolVersion none) bytes p.decodedProperties := by
  by_cases five : p.protocolVersion.value = 5
  · have same : p.protocolVersion = ⟨0x05⟩ := by
      cases known : p.protocolVersion
      rw [known] at five
      rw [← five]
    obtain ⟨content, encoded, items⟩ : ∃ content,
        p.encodeProperties = .ok (encodeVariableBytes content.length ++ content) ∧
          Items publishItem {} content (PublishProperties.normal p.pubProperties) := by
      cases known : p.pubProperties with
      | none => exact ⟨[], by simp only [encodeProperties, if_pos same, known]; rfl, .nil _⟩
      | some set =>
        obtain ⟨content, written, items⟩ := PublishProperties.buildBytes_items (fits set known)
        exact ⟨content, by simp only [encodeProperties, if_pos same, known, written]; rfl, items⟩
    have bound := small _ encoded
    rw [List.length_append] at bound
    refine ⟨_, encoded, ?_⟩
    rw [decodedProperties, if_pos five, Publish.readProperties, if_pos (five ▸ UInt8.le_refl 5)]
    exact (propertyBlock_reads (by omega) items).bind_nil (Reads.pure _)
  · have other : p.protocolVersion ≠ ⟨0x05⟩ := fun same => five (by rw [same])
    have below : ¬ p.protocolVersion.value ≥ 0x05 := by
      rcases version with known | known | known
      · rw [known]; decide
      · rw [known]; decide
      · exact (five known).elim
    refine ⟨[], if_neg other, ?_⟩
    rw [decodedProperties, if_neg five, Publish.readProperties, if_neg below]
    exact Reads.pure none

/-- The first byte is read back as type, DUP, QoS and RETAIN. -/
theorem packetOfFirstByte_firstByte (p : Publish) :
    packetOfFirstByte p.firstByte =
      .ok (.publish { qos := p.qos, dup := p.dup, retain := p.retain }) := by
  have flags (dup : Dup) (qos : QoS) (retain : Retain) :
      packetOfFirstByte (firstByte { dup, qos, retain }) = .ok (.publish { qos, dup, retain }) := by
    obtain ⟨dup⟩ := dup
    obtain ⟨retain⟩ := retain
    cases dup <;> cases qos <;> cases retain <;> decide
  exact flags p.dup p.qos p.retain

/-- What is written once the identifier and the properties are. -/
theorem encodeHeader_eq {ids properties : Bytes} (writtenId : p.encodePacketId = .ok ids)
    (written : p.encodeProperties = .ok properties) :
    p.encodeHeader = .ok (p.firstByte :: encodeVariableBytes
      ((putTruncated (stringBytes p.topicName.value) ++ ids ++ properties).length + p.payloadLength) ++
        (putTruncated (stringBytes p.topicName.value) ++ ids ++ properties)) := by
  simp only [encodeHeader, written, writtenId, Outcome.ok_bind, Outcome.pure_eq]

theorem encodeAll_eq {ids properties : Bytes} (writtenId : p.encodePacketId = .ok ids)
    (written : p.encodeProperties = .ok properties) :
    Encoder.encodeAll (.publish p) =
      .ok (p.firstByte :: (encodeVariableBytes
        ((putTruncated (stringBytes p.topicName.value) ++ ids ++ properties).length + p.payloadLength) ++
          (putTruncated (stringBytes p.topicName.value) ++ ids ++ properties ++ p.payloadData))) := by
  simp only [Encoder.encodeAll, ControlPacket.encodeHeader, encodeHeader_eq writtenId written, Outcome.ok_bind,
    ControlPacket.encodePayloadChunk, encodePayloadChunk, Outcome.pure_eq, Option.getD_some,
    List.cons_append, List.append_assoc]

/-- What a decoder emits for an encoded PUBLISH. -/
def decoded (p : Publish) : Publish :=
  { p with pubProperties := p.decodedProperties, protocolVersion := {} }

/-- An encodable PUBLISH is written as a frame whose body is read back. -/
theorem encodeAll_frame (fits : p.Encodable)
    (version : p.protocolVersion.value = 3 ∨ p.protocolVersion.value = 4 ∨
      p.protocolVersion.value = 5) :
    ∃ (frame : Frame) (header : Bytes), Encoder.encodeAll (.publish p) = .ok frame.bytes ∧
      packetOfFirstByte frame.first =
        .ok (.publish { qos := p.qos, dup := p.dup, retain := p.retain }) ∧
      frame.body = header ++ p.payloadData ∧
      ∀ build, Reads (decodeVariableHeader build { qos := p.qos, dup := p.dup, retain := p.retain }
        frame.body.length (some p.protocolVersion)) header { p.decoded with payloadData := [] } := by
  obtain ⟨ids, writtenId, idLength, id⟩ := encodePacketId_reads fits.packetId
  obtain ⟨properties, written, props⟩ := encodeProperties_reads fits.pubProperties
    (fun bytes encoded => by have := fits.remainingLength bytes encoded; omega) version
  have topic : Reads TopicName.tryFrom (putTruncated (stringBytes p.topicName.value)) p.topicName :=
    stringField_reads TopicName.mk fits.topicName
  have total := fits.remainingLength properties written
  have payload := fits.payloadLength
  generalize length : putTruncated (stringBytes p.topicName.value) ++ ids ++ properties = header
  have size : (header ++ p.payloadData).length = header.length + p.payloadLength := by
    rw [List.length_append, payload]
  have small : (header ++ p.payloadData).length < 2 ^ 28 := by
    rw [size, ← length]
    simp only [putTruncated, List.length_append, be16Bytes_length, idLength]
    omega
  refine ⟨.around p.firstByte small, header, ?_, packetOfFirstByte_firstByte p, rfl, ?_⟩
  · rw [encodeAll_eq writtenId written, length, ← size]
    rfl
  · intro build
    have inside : header.length ≤ (header ++ p.payloadData).length := by omega
    rw [← length] at inside
    have read := decodeVariableHeader_reads build { qos := p.qos, dup := p.dup, retain := p.retain }
      topic id props inside
    rw [length, size, Nat.add_sub_cancel_left] at read
    rw [Frame.around_body, size]
    exact read

end Publish

end Aqua
