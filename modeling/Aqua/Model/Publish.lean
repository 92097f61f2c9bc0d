import Aqua.Model.Field

/-! # PUBLISH

Decoding does not wait for the payload: the variable header is read first and stores how many
bytes of the frame are left for the payload.
-/

namespace Aqua

open Wire Wire.Reader

/-- `self.get_or_insert_with(Vec::new).push(item)`. -/
def pushProperty {α : Type} (list : Option (List α)) (item : α) : Option (List α) :=
  some (list.getD [] ++ [item])

/-- One iteration of the property loop, behind the identifier. -/
def PublishProperties.readProperty (pub : PublishProperties) (id : UInt8) :
    FieldReader PublishProperties :=
  if id = propertyPayloadFormatIndicatorId then do
    let result ← PayloadFormatIndicator.tryFrom
    pure { pub with payloadFormatIndicator := some result }
  else if id = propertyMessageExpiryIntervalId then do
    let result ← MessageExpiryInterval.tryFrom
    pure { pub with messageExpiryInterval := some result }
  else if id = propertyTopicAliasId then
    if pub.topicAlias ≠ none then fail .invalidFormat
    else do
      let result ← TopicAlias.tryFrom
      pure { pub with topicAlias := some result }
  else if id = propertyResponseTopicId then
    if pub.responseTopic ≠ none then fail .invalidFormat
    else do
      let result ← ResponseTopic.tryFrom
      pure { pub with responseTopic := some result }
  else if id = propertyCorrelationDataId then
    if pub.correlationData ≠ none then fail .invalidFormat
    else do
      let result ← CorrelationData.tryFrom
      pure { pub with correlationData := some result }
  else if id = propertyUserPropertyId then do
    let userProperty ← UserProperty.tryFrom
    pure { pub with userProperties := pushProperty pub.userProperties userProperty }
  else if id = propertySubscriptionIdentifierId then do
    let result ← SubscriptionIdentifier.tryFrom
    pure { pub with subscriptionIdentifier := pushProperty pub.subscriptionIdentifier result }
  else if id = propertyContentTypeId then
    if pub.contentType ≠ none then fail .invalidFormat
    else do
      let result ← ContentType.tryFrom
      pure { pub with contentType := some result }
  else fail .invalidFormat

/-- The packet identifier of a PUBLISH, absent for QoS 0. -/
def Publish.readPacketId (qos : QoS) (packetId : Option PacketId) : FieldReader (Option PacketId) :=
  if qos = .qos1 ∨ qos = .qos2 then do
    require .insufficientBytes 1
    let result ← PacketId.tryFrom
    pure (some result)
  else pure packetId

/-- The properties of a PUBLISH, present from version 5 on. -/
def Publish.readProperties (version : ProtocolVersion) (properties : Option PublishProperties) :
    FieldReader (Option PublishProperties) :=
  if version.value ≥ 0x05 then do
    let pubProperties ← propertyBlock PublishProperties.readProperty {}
    pure (some pubProperties)
  else pure properties

def Publish.decodeVariableHeader (build : Build) (self : Publish) (remainingLength : ℕ)
    (protocolVersion : Option ProtocolVersion) : FieldReader Publish := do
  let startPos ← position
  let topicName ← TopicName.tryFrom
  let packetId ← Publish.readPacketId self.qos self.packetId
  let version ← Reader.unwrap protocolVersion
  let pubProperties ← Publish.readProperties version self.pubProperties
  let nextPos ← position
  let payloadLength ← lift (build.sub remainingLength (nextPos - startPos))
  pure { self with topicName, packetId, pubProperties, payloadLength }

def Publish.decodePayload (self : Publish) (buf : Bytes) : Result (Publish × Bytes) :=
  if buf.length < self.payloadLength then .err .insufficientBytes
  else .ok ({ self with payloadData := buf.take self.payloadLength }, buf.drop self.payloadLength)

/-- A property with a fixed layout, or nothing. -/
def optionBytes {α : Type} (value : Option α) (bytes : α → Bytes) : Bytes :=
  (value.map bytes).getD []

def PublishProperties.buildBytes (self : PublishProperties) : Result Bytes :=
  .ok <|
    optionBytes self.payloadFormatIndicator (fun c => [0x01, c.toByte]) ++
    optionBytes self.messageExpiryInterval (fun c => 0x02 :: be32Bytes c.value) ++
    optionBytes self.topicAlias (fun c => 0x23 :: be16Bytes c.value) ++
    optionBytes self.responseTopic (fun c => 0x08 :: putTruncated (stringBytes c.value)) ++
    optionBytes self.correlationData (fun c => 0x09 :: putTruncated c.value) ++
    optionBytes self.userProperties (fun c => c.flatMap fun property =>
      0x26 :: (putTruncated (stringBytes property.key) ++ putTruncated (stringBytes property.value))) ++
    optionBytes self.subscriptionIdentifier (fun c => c.flatMap fun id =>
      0x0b :: encodeVariableBytes id.value) ++
    optionBytes self.contentType (fun c => 0x03 :: putTruncated (stringBytes c.value))

/-- The first byte: packet type, DUP, QoS and RETAIN. -/
def Publish.firstByte (self : Publish) : UInt8 :=
  let dup : UInt8 := if self.dup.value then 0b00001000 else 0b00000000
  let qos : UInt8 := match self.qos with
    | .qos0 => 0b00000000
    | .qos1 => 0b00000010
    | .qos2 => 0b00000100
  let retain : UInt8 := if self.retain.value then 0b00000001 else 0b00000000
  0b00110000 ||| dup ||| qos ||| retain

/-- The property length and the properties, written for version 5 only. -/
def Publish.encodeProperties (self : Publish) : Result Bytes :=
  if self.protocolVersion = ⟨0x05⟩ then do
    let propBytes ← match self.pubProperties with
      | some p => p.buildBytes
      | none => .ok []
    pure (encodeVariableBytes propBytes.length ++ propBytes)
  else .ok []

/-- The packet identifier, which must be there unless the QoS is 0. -/
def Publish.encodePacketId (self : Publish) : Result Bytes :=
  if self.qos ≠ .qos0 then do
    let id ← Outcome.unwrap self.packetId
    pure (be16Bytes id.value)
  else .ok []

def Publish.encodeHeader (self : Publish) : Result Bytes := do
  let properties ← self.encodeProperties
  let packetId ← self.encodePacketId
  let variableHeader := putTruncated (stringBytes self.topicName.value) ++ packetId ++ properties
  pure (self.firstByte :: encodeVariableBytes (variableHeader.length + self.payloadLength) ++
    variableHeader)

def Publish.encodePayloadChunk (self : Publish) : Result (Option Bytes) :=
  .ok (some self.payloadData)

end Aqua
