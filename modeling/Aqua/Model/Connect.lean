import Aqua.Model.Publish

/-! # CONNECT and DISCONNECT

CONNECT is decoded on the premise that all of it is in the buffer: neither its variable header nor
its payload looks at the remaining length of the frame. A DISCONNECT without a body is a normal
disconnection.
-/

namespace Aqua

open Wire Wire.Reader

/-- The value of one CONNECT property. -/
def ConnectProperties.readValue (properties : ConnectProperties) (id : UInt8) :
    FieldReader ConnectProperties :=
  if id = propertySessionExpiryInterval then
    if properties.sessionExpiryInterval.isSome then fail .invalidFormat
    else do
      let result ← SessionExpiryInterval.tryFrom
      pure { properties with sessionExpiryInterval := some result }
  else if id = propertyRecieveMaximum then
    if properties.receiveMaximum.isSome then fail .invalidFormat
    else do
      let result ← ReceiveMaximum.tryFrom
      pure { properties with receiveMaximum := some result }
  else if id = propertyMaximumPacketSize then
    if properties.maximumPacketSize.isSome then fail .invalidFormat
    else do
      let result ← MaximumPacketSize.tryFrom
      pure { properties with maximumPacketSize := some result }
  else if id = propertyTopicAliasMaximum then
    if properties.topicAliasMaximum.isSome then fail .invalidFormat
    else do
      let result ← TopicAliasMaximum.tryFrom
      pure { properties with topicAliasMaximum := some result }
  else if id = propertyRequestResponseInformation then
    if properties.requestResponseInformation.isSome then fail .invalidFormat
    else do
      let result ← RequestResponseInformation.tryFrom
      pure { properties with requestResponseInformation := some result }
  else if id = propertyRequestProblemInformation then
    if properties.requestProblemInformation.isSome then fail .invalidFormat
    else do
      let result ← RequestProblemInformation.tryFrom
      pure { properties with requestProblemInformation := some result }
  else if id = propertyUserPropertyId then do
    let userProperty ← UserProperty.tryFrom
    pure { properties with userProperties := pushProperty properties.userProperties userProperty }
  else if id = propertyAuthenticationMethod then
    if properties.authenticationMethod.isSome then fail .invalidFormat
    else do
      let result ← AuthenticationMethod.tryFrom
      pure { properties with authenticationMethod := some result }
  else if id = propertyAuthenticationData then
    if properties.authenticationData.isSome then fail .invalidFormat
    else do
      let result ← AuthenticationData.tryFrom
      pure { properties with authenticationData := some result }
  else fail .invalidFormat

/-- One iteration of the property loop, behind the identifier: after every property,
authentication data without a method is an error. -/
def ConnectProperties.readProperty (properties : ConnectProperties) (id : UInt8) :
    FieldReader ConnectProperties := do
  let properties ← properties.readValue id
  if properties.authenticationData ≠ none ∧ properties.authenticationMethod = none then
    fail .invalidFormat
  else pure properties

def Connect.decodeVariableHeader (self : Connect) : FieldReader Connect := do
  let protocolName ← ProtocolName.tryFrom
  let protocolVer ← ProtocolVersion.tryFrom
  let connectFlags ← ConnectFlags.tryFrom
  let keepalive ← KeepAlive.tryFrom
  let self := { self with protocolName, protocolVer, connectFlags, keepalive }
  if protocolVer.value ≠ 0b00000101 then pure self
  else do
    let properties ← propertyBlock ConnectProperties.readProperty self.properties
    pure { self with properties }

/-- One iteration of the will property loop, behind the identifier. -/
def WillProperties.readProperty (will : WillProperties) (id : UInt8) : FieldReader WillProperties :=
  if id = propertyWillDelayInterval then
    if will.willDelayInterval.isSome then fail .invalidFormat
    else do
      let ret ← WillDelayInterval.tryFrom
      pure { will with willDelayInterval := some ret }
  else if id = propertyPayloadFormatIndicatorId then
    if will.payloadFormatIndicator.isSome then fail .invalidFormat
    else do
      let ret ← PayloadFormatIndicator.tryFrom
      pure { will with payloadFormatIndicator := some ret }
  else if id = propertyMessageExpiryIntervalId then
    if will.messageExpiryInterval.isSome then fail .invalidFormat
    else do
      let ret ← MessageExpiryInterval.tryFrom
      pure { will with messageExpiryInterval := some ret }
  else if id = propertyContentTypeId then
    if will.contentType.isSome then fail .invalidFormat
    else do
      let ret ← ContentType.tryFrom
      pure { will with contentType := some ret }
  else if id = propertyResponseTopicId then
    if will.responseTopic.isSome then fail .invalidFormat
    else do
      let ret ← ResponseTopic.tryFrom
      pure { will with responseTopic := some ret }
  else if id = propertyCorrelationDataId then
    if will.correlationData ≠ none then fail .invalidFormat
    else do
      let result ← CorrelationData.tryFrom
      pure { will with correlationData := some result }
  else if id = propertyUserPropertyId then do
    let userProperty ← UserProperty.tryFrom
    pure { will with userProperties := pushProperty will.userProperties userProperty }
  else fail .invalidFormat

/-- The will of a CONNECT, read when its flag is set. -/
def Connect.readWill (self : Connect) : FieldReader Connect :=
  if self.connectFlags.willFlag then do
    let willProperties ← propertyBlock WillProperties.readProperty self.willProperties
    let topic ← TopicName.tryFrom
    let payload ← WillPayload.tryFrom
    pure { self with willProperties, willTopic := some topic, willPayload := some payload }
  else pure self

def Connect.readUserName (self : Connect) : FieldReader Connect :=
  if self.connectFlags.userNameFlag then do
    let ret ← UserName.tryFrom
    pure { self with username := some ret }
  else pure self

def Connect.readPassword (self : Connect) : FieldReader Connect :=
  if self.connectFlags.passwordFlag then do
    let ret ← Password.tryFrom
    pure { self with password := some ret }
  else pure self

/-- The fields of the payload in their order. -/
def Connect.readPayload (self : Connect) : FieldReader Connect := do
  let clientId ← ClientId.tryFrom
  let self ← Connect.readWill { self with clientId }
  let self ← self.readUserName
  self.readPassword

def Connect.decodePayload (self : Connect) (buf : Bytes) : Result (Connect × Bytes) := do
  let (self, nextPos) ← self.readPayload buf 0
  let rest ← advance buf nextPos
  pure (self, rest)

def DisconnectProperties.readProperty (pro : DisconnectProperties) (id : UInt8) :
    FieldReader DisconnectProperties :=
  if id = propertySessionExpiryInterval then
    if pro.sessionExpiryInterval.isSome then fail .invalidFormat
    else do
      let result ← SessionExpiryInterval.tryFrom
      pure { pro with sessionExpiryInterval := some result }
  else if id = propertyUserPropertyId then do
    let userProperty ← UserProperty.tryFrom
    pure { pro with userProperties := pushProperty pro.userProperties userProperty }
  else if id = propertyReasonStringId then
    if pro.reasonString.isSome then fail .invalidFormat
    else do
      let result ← ReasonString.tryFrom
      pure { pro with reasonString := some result }
  else if id = propertyServerReference then do
    let result ← ServerReference.tryFrom
    pure { pro with serverReference := some result }
  else fail .invalidFormat

/-- The properties of a DISCONNECT, present from version 5 on. -/
def Disconnect.readProperties (version : ProtocolVersion)
    (properties : Option DisconnectProperties) : FieldReader (Option DisconnectProperties) :=
  if version.value ≥ 0x05 then do
    let disconnectPro ← propertyBlock DisconnectProperties.readProperty {}
    pure (some disconnectPro)
  else pure properties

def Disconnect.decodeVariableHeader (self : Disconnect) (remainingLength : ℕ)
    (protocolVersion : Option ProtocolVersion) : FieldReader Disconnect :=
  if remainingLength = 0 then pure { self with reasonCode := .normalDisconnection }
  else do
    let reasonCode ← DisconnectReasonCode.convert
    let version ← Reader.unwrap protocolVersion
    let disconnectProperties ← Disconnect.readProperties version self.disconnectProperties
    pure { self with reasonCode, disconnectProperties }

end Aqua
