import Aqua.Wire.Reader

/-! # MQTT control packets

The data types of the codec: error values, the newtypes of single fields, the property sets, the
packets, and the sum `ControlPacket`. Field defaults are those of the derived `Default`
instances, so `{}` is the packet a decoder starts from. Strings are UTF-8 by construction, as in
the source; binary data and payloads are lists of bytes.
-/

namespace Aqua

open Wire

abbrev Bytes := List UInt8

/-- The errors of the codec. -/
inductive MqttError where
  | insufficientBytes
  | invalidFormat
  | notImplemented
  | unexpected
  | invalidRemainingLength
  | protocolViolation
deriving DecidableEq

/-- A call of the codec. A Rust panic ends the connection's task. -/
abbrev Result := Outcome MqttError

/-- `fn try_from(buf, start_pos) -> Result<(Self, usize), MqttError>`. -/
abbrev FieldReader := Reader MqttError

structure ProtocolVersion where
  value : UInt8 := 0
deriving DecidableEq

inductive QoS where
  | qos0
  | qos1
  | qos2
deriving DecidableEq

structure PacketId where
  value : UInt16 := 0
deriving DecidableEq

structure TopicName where
  value : String := ""
deriving DecidableEq

structure TopicFilter where
  value : String := ""
deriving DecidableEq

structure Retain where
  value : Bool := false
deriving DecidableEq

structure Dup where
  value : Bool := false
deriving DecidableEq

inductive PayloadFormatIndicator where
  | unspecifiedBytes
  | utf8
deriving DecidableEq

/-- `self as u8`. -/
def PayloadFormatIndicator.toByte : PayloadFormatIndicator → UInt8
  | .unspecifiedBytes => 0
  | .utf8 => 1

structure MessageExpiryInterval where
  value : UInt32
deriving DecidableEq

structure TopicAlias where
  value : UInt16
deriving DecidableEq

structure ResponseTopic where
  value : String
deriving DecidableEq

structure CorrelationData where
  value : Bytes
deriving DecidableEq

structure UserProperty where
  key : String
  value : String
deriving DecidableEq

/-- A `usize` read from a variable-length integer. -/
structure SubscriptionIdentifier where
  value : ℕ
deriving DecidableEq

structure ContentType where
  value : String
deriving DecidableEq

structure ReasonString where
  value : String
deriving DecidableEq

structure ServerReference where
  value : String
deriving DecidableEq

structure ProtocolName where
  value : String := ""
deriving DecidableEq

structure KeepAlive where
  value : UInt16 := 0
deriving DecidableEq

structure SessionExpiryInterval where
  value : UInt32
deriving DecidableEq

structure ReceiveMaximum where
  value : UInt16
deriving DecidableEq

structure MaximumPacketSize where
  value : UInt32
deriving DecidableEq

structure TopicAliasMaximum where
  value : UInt16
deriving DecidableEq

structure RequestResponseInformation where
  value : Bool
deriving DecidableEq

structure RequestProblemInformation where
  value : Bool
deriving DecidableEq

structure AuthenticationMethod where
  value : String
deriving DecidableEq

structure AuthenticationData where
  value : Bytes
deriving DecidableEq

structure WillDelayInterval where
  value : UInt32
deriving DecidableEq

structure WillPayload where
  value : Bytes
deriving DecidableEq

structure UserName where
  value : String
deriving DecidableEq

structure Password where
  value : Bytes
deriving DecidableEq

structure ClientId where
  value : String := ""
deriving DecidableEq

structure ConnectFlags where
  userNameFlag : Bool := false
  passwordFlag : Bool := false
  willRetain : Bool := false
  willQos : QoS := .qos0
  willFlag : Bool := false
  cleanStart : Bool := false
deriving DecidableEq

inductive RetainHandling where
  | receiveAll
  | ignoreRetainedInitial
  | ignoreRetainedAlways
deriving DecidableEq

structure RetainAsPublished where
  value : Bool := false
deriving DecidableEq

structure NoLocal where
  value : Bool := false
deriving DecidableEq

structure SubscribeOption where
  retainHandling : RetainHandling := .receiveAll
  retainAsPublished : RetainAsPublished := {}
  noLocal : NoLocal := {}
  qos : QoS := .qos0
deriving DecidableEq

inductive ConnackReason where
  | success
  | unspecifiedError
  | malformedPacket
  | protocolError
  | implementationSpecificError
  | unsupportedProtocolVersion
  | clientIdentifierNotValid
  | badUserNameOrPassword
  | notAuthorized
  | serverUnavailable
  | serverBusy
  | banned
  | badAuthenticationMethod
  | keepAliveTimeout
  | sessionTakenOver
  | topicFilterInvalid
  | topicNameInvalid
  | packetTooLarge
  | quotaExceeded
  | payloadFormatInvalid
  | retainNotSupported
  | qosNotSupported
  | useAnotherServer
  | serverMoved
  | connectionRateExceeded
deriving DecidableEq

def ConnackReason.toByte : ConnackReason → UInt8
  | .success => 0x00
  | .unspecifiedError => 0x80
  | .malformedPacket => 0x81
  | .protocolError => 0x82
  | .implementationSpecificError => 0x83
  | .unsupportedProtocolVersion => 0x84
  | .clientIdentifierNotValid => 0x85
  | .badUserNameOrPassword => 0x86
  | .notAuthorized => 0x87
  | .serverUnavailable => 0x88
  | .serverBusy => 0x89
  | .banned => 0x8A
  | .badAuthenticationMethod => 0x8C
  | .keepAliveTimeout => 0x8D
  | .sessionTakenOver => 0x8E
  | .topicFilterInvalid => 0x8F
  | .topicNameInvalid => 0x90
  | .packetTooLarge => 0x95
  | .quotaExceeded => 0x97
  | .payloadFormatInvalid => 0x99
  | .retainNotSupported => 0x9A
  | .qosNotSupported => 0x9B
  | .useAnotherServer => 0x9C
  | .serverMoved => 0x9D
  | .connectionRateExceeded => 0x9F

inductive PubackReasonCode where
  | success
  | noMatchingSubscribers
  | unspecifiedError
  | implementationSpecificError
  | notAuthorized
  | topicNameInvalid
  | packetIdentifierInUse
  | quotaExceeded
  | payloadFormatInvalid
deriving DecidableEq

def PubackReasonCode.toByte : PubackReasonCode → UInt8
  | .success => 0x00
  | .noMatchingSubscribers => 0x10
  | .unspecifiedError => 0x80
  | .implementationSpecificError => 0x83
  | .notAuthorized => 0x87
  | .topicNameInvalid => 0x90
  | .packetIdentifierInUse => 0x91
  | .quotaExceeded => 0x97
  | .payloadFormatInvalid => 0x99

inductive PubrecReasonCode where
  | success
  | noMatchingSubscribers
  | unspecifiedError
  | implementationSpecificError
  | notAuthorized
  | topicNameInvalid
  | packetIdentifierInUse
  | quotaExceeded
  | payloadFormatInvalid
deriving DecidableEq

def PubrecReasonCode.toByte : PubrecReasonCode → UInt8
  | .success => 0x00
  | .noMatchingSubscribers => 0x10
  | .unspecifiedError => 0x80
  | .implementationSpecificError => 0x83
  | .notAuthorized => 0x87
  | .topicNameInvalid => 0x90
  | .packetIdentifierInUse => 0x91
  | .quotaExceeded => 0x97
  | .payloadFormatInvalid => 0x99

inductive PubrelReasonCode where
  | success
  | packetIdentifierNotFound
deriving DecidableEq

def PubrelReasonCode.toByte : PubrelReasonCode → UInt8
  | .success => 0x00
  | .packetIdentifierNotFound => 0x92

inductive PubcompReasonCode where
  | success
  | packetIdentifierNotFound
deriving DecidableEq

def PubcompReasonCode.toByte : PubcompReasonCode → UInt8
  | .success => 0x00
  | .packetIdentifierNotFound => 0x92

inductive UnsubackReasonCode where
  | success
  | noSubscriptionExisted
  | unspecifiedError
  | implementationSpecificError
  | notAuthorized
  | topicFilterInvalid
  | packetIdentifierInUse
deriving DecidableEq

def UnsubackReasonCode.toByte : UnsubackReasonCode → UInt8
  | .success => 0x00
  | .noSubscriptionExisted => 0x11
  | .unspecifiedError => 0x80
  | .implementationSpecificError => 0x83
  | .notAuthorized => 0x87
  | .topicFilterInvalid => 0x8f
  | .packetIdentifierInUse => 0x91

inductive SubackReasonCode where
  | grantedQos0
  | grantedQos1
  | grantedQos2
  | unspecifiedError
  | implementationSpecificError
  | notAuthorized
  | topicFilterInvalid
  | packetIdentifierInUse
  | quotaExceeded
  | sharedSubscriptionsNotSupported
  | subscriptionIdentifiersNotSupported
  | wildcardSubscriptionsNotSupported
deriving DecidableEq

def SubackReasonCode.toByte : SubackReasonCode → UInt8
  | .grantedQos0 => 0x00
  | .grantedQos1 => 0x01
  | .grantedQos2 => 0x02
  | .unspecifiedError => 0x80
  | .implementationSpecificError => 0x83
  | .notAuthorized => 0x87
  | .topicFilterInvalid => 0x8f
  | .packetIdentifierInUse => 0x91
  | .quotaExceeded => 0x97
  | .sharedSubscriptionsNotSupported => 0x9e
  | .subscriptionIdentifiersNotSupported => 0xa1
  | .wildcardSubscriptionsNotSupported => 0xa2

inductive DisconnectReasonCode where
  | normalDisconnection
  | disconnectWithWillMessage
  | unspecifiedError
  | malformedPacket
  | protocolError
  | implementationSpecificError
  | notAuthorized
  | serverBusy
  | serverShuttingDown
  | keepAliveTimeout
  | sessionTakenOver
  | topicFilterInvalid
  | topicNameInvalid
  | recieveMaximumExceeded
  | topicAliasInvalid
  | packetTooLarge
  | messageRateTooHigh
  | quotaExceeded
  | administrativeAction
  | payloadFormatInvalid
  | retainNotSupport
  | qosNotSupported
  | useAnotherServer
  | serverMoved
  | sharedSubscriptionsNotSupported
  | connectionRateExceeded
  | maximumConnectTime
  | subsctiptionIdentifiersNotSupported
  | wildcardSubscriptionsNotSupported
deriving DecidableEq

/-- The derived `TryFrom<u8>`: the code with this discriminant. -/
def DisconnectReasonCode.ofByte? (byte : UInt8) : Option DisconnectReasonCode :=
  match byte.toNat with
  | 0x00 => some .normalDisconnection
  | 0x04 => some .disconnectWithWillMessage
  | 0x80 => some .unspecifiedError
  | 0x81 => some .malformedPacket
  | 0x82 => some .protocolError
  | 0x83 => some .implementationSpecificError
  | 0x87 => some .notAuthorized
  | 0x89 => some .serverBusy
  | 0x8b => some .serverShuttingDown
  | 0x8d => some .keepAliveTimeout
  | 0x8e => some .sessionTakenOver
  | 0x8f => some .topicFilterInvalid
  | 0x90 => some .topicNameInvalid
  | 0x93 => some .recieveMaximumExceeded
  | 0x94 => some .topicAliasInvalid
  | 0x95 => some .packetTooLarge
  | 0x96 => some .messageRateTooHigh
  | 0x97 => some .quotaExceeded
  | 0x98 => some .administrativeAction
  | 0x99 => some .payloadFormatInvalid
  | 0x9a => some .retainNotSupport
  | 0x9b => some .qosNotSupported
  | 0x9c => some .useAnotherServer
  | 0x9d => some .serverMoved
  | 0x9e => some .sharedSubscriptionsNotSupported
  | 0x9f => some .connectionRateExceeded
  | 0xa0 => some .maximumConnectTime
  | 0xa1 => some .subsctiptionIdentifiersNotSupported
  | 0xa2 => some .wildcardSubscriptionsNotSupported
  | _ => none

structure ConnectProperties where
  sessionExpiryInterval : Option SessionExpiryInterval := none
  receiveMaximum : Option ReceiveMaximum := none
  maximumPacketSize : Option MaximumPacketSize := none
  topicAliasMaximum : Option TopicAliasMaximum := none
  requestResponseInformation : Option RequestResponseInformation := none
  requestProblemInformation : Option RequestProblemInformation := none
  userProperties : Option (List UserProperty) := none
  authenticationMethod : Option AuthenticationMethod := none
  authenticationData : Option AuthenticationData := none
deriving DecidableEq

structure WillProperties where
  willDelayInterval : Option WillDelayInterval := none
  payloadFormatIndicator : Option PayloadFormatIndicator := none
  messageExpiryInterval : Option MessageExpiryInterval := none
  contentType : Option ContentType := none
  responseTopic : Option ResponseTopic := none
  correlationData : Option CorrelationData := none
  userProperties : Option (List UserProperty) := none
  subscriptionIdentifier : Option SubscriptionIdentifier := none
deriving DecidableEq

structure PublishProperties where
  payloadFormatIndicator : Option PayloadFormatIndicator := none
  messageExpiryInterval : Option MessageExpiryInterval := none
  topicAlias : Option TopicAlias := none
  responseTopic : Option ResponseTopic := none
  correlationData : Option CorrelationData := none
  userProperties : Option (List UserProperty) := none
  subscriptionIdentifier : Option (List SubscriptionIdentifier) := none
  contentType : Option ContentType := none
deriving DecidableEq

structure SubscribeProperties where
  subscriptionIdentifier : Option SubscriptionIdentifier := none
  userProperties : Option (List UserProperty) := none
deriving DecidableEq

structure UnsubscribeProperties where
  userProperties : List UserProperty := []
deriving DecidableEq

structure DisconnectProperties where
  sessionExpiryInterval : Option SessionExpiryInterval := none
  reasonString : Option ReasonString := none
  userProperties : Option (List UserProperty) := none
  serverReference : Option ServerReference := none
deriving DecidableEq

structure ConnackProperties where
  sessionExpiryInterval : Option UInt32 := none
  receiveMaximum : Option UInt16 := none
  maximumQos : Option UInt8 := none
  retainAvailable : Option Bool := none
  maximumPacketSize : Option UInt32 := none
  assignedClientIdentifier : Option String := none
  topicAliasMaximum : Option UInt16 := none
  reasonString : Option String := none
  userProperties : List (String × String) := []
  wildcardSubscriptionAvailable : Option UInt8 := none
  subscriptionIdentifiersAvailable : Option UInt8 := none
  sharedSubscriptionAvailable : Option UInt8 := none
  serverKeepAlive : Option UInt16 := none
  responseInformation : Option String := none
  serverReference : Option String := none
  authenticationMethod : Option String := none
  authenticationData : Option Bytes := none
deriving DecidableEq

structure PubackProperties where
  reasonString : Option ReasonString := none
  userProperties : List UserProperty := []
deriving DecidableEq

structure PubrecProperties where
  reasonString : Option ReasonString := none
  userProperties : Option (List UserProperty) := none
deriving DecidableEq

structure PubrelProperties where
  reasonString : Option ReasonString := none
  userProperties : List UserProperty := []
deriving DecidableEq

structure PubcompProperties where
  reasonString : Option ReasonString := none
  userProperties : List UserProperty := []
deriving DecidableEq

structure SubackProperties where
  reasonString : Option ReasonString := none
  userProperties : Option (List UserProperty) := none
deriving DecidableEq

structure UnsubackProperties where
  reasonString : Option ReasonString := none
  userProperties : Option (List UserProperty) := none
deriving DecidableEq

structure Connect where
  protocolName : ProtocolName := {}
  protocolVer : ProtocolVersion := {}
  connectFlags : ConnectFlags := {}
  keepalive : KeepAlive := {}
  properties : ConnectProperties := {}
  clientId : ClientId := {}
  username : Option UserName := none
  password : Option Password := none
  willProperties : WillProperties := {}
  willTopic : Option TopicName := none
  willPayload : Option WillPayload := none
deriving DecidableEq

structure Connack where
  sessionPresent : Bool := false
  connectReason : ConnackReason := .success
  connackProperties : Option ConnackProperties := none
  version : ProtocolVersion := {}
deriving DecidableEq

structure Publish where
  dup : Dup := {}
  qos : QoS := .qos0
  retain : Retain := {}
  topicName : TopicName := {}
  pubProperties : Option PublishProperties := none
  packetId : Option PacketId := none
  payloadLength : ℕ := 0
  payloadData : Bytes := []
  protocolVersion : ProtocolVersion := {}
deriving DecidableEq

structure Subscribe where
  packetId : PacketId := {}
  subProperties : SubscribeProperties := {}
  topicFilters : List (TopicFilter × SubscribeOption) := []
  payloadLength : ℕ := 0
deriving DecidableEq

structure Suback where
  packetId : PacketId := {}
  subackProperties : Option SubackProperties := none
  reasonCodes : List SubackReasonCode := []
  protocolVersion : ProtocolVersion := {}
deriving DecidableEq

structure Unsubscribe where
  topicFilters : List TopicFilter := []
  unsubscribeProperties : Option UnsubscribeProperties := none
  protocolVersion : ProtocolVersion := {}
  payloadLength : ℕ := 0
  packetId : PacketId := {}
deriving DecidableEq

structure Unsuback where
  packetId : PacketId := {}
  unsubackProperties : Option UnsubackProperties := none
  reasonCodes : List UnsubackReasonCode := []
  protocolVersion : ProtocolVersion := {}
deriving DecidableEq

structure Puback where
  packetId : PacketId := {}
  reasonCode : Option PubackReasonCode := none
  pubackProperties : Option PubackProperties := none
  protocolVersion : ProtocolVersion := {}
deriving DecidableEq

structure Pubrec where
  packetId : PacketId := {}
  reasonCode : Option PubrecReasonCode := none
  pubrecProperties : Option PubrecProperties := none
  protocolVersion : ProtocolVersion := {}
deriving DecidableEq

structure Pubrel where
  packetId : PacketId := {}
  pubrelProperties : Option PubrelProperties := none
  reasonCode : Option PubrelReasonCode := none
  protocolVersion : ProtocolVersion := {}
deriving DecidableEq

structure Pubcomp where
  packetId : PacketId := {}
  pubcompReason : Option PubcompReasonCode := none
  protocolVersion : ProtocolVersion := {}
  pubcompProperties : Option PubcompProperties := none
deriving DecidableEq

structure Disconnect where
  reasonCode : DisconnectReasonCode := .normalDisconnection
  disconnectProperties : Option DisconnectProperties := none
deriving DecidableEq

structure Pingreq where
deriving DecidableEq

structure Pingresp where
deriving DecidableEq

/-- Every packet of the codec, with the two markers the services use for "nothing to send". -/
inductive ControlPacket where
  | connect (p : Connect)
  | disconnect (p : Disconnect)
  | connack (p : Connack)
  | publish (p : Publish)
  | undefined
  | noOperation
  | disconnectCpOperation
  | subscribe (p : Subscribe)
  | suback (p : Suback)
  | pingreq (p : Pingreq)
  | pingresp (p : Pingresp)
  | unsubscribe (p : Unsubscribe)
  | unsuback (p : Unsuback)
  | puback (p : Puback)
  | pubrec (p : Pubrec)
  | pubrel (p : Pubrel)
  | pubcomp (p : Pubcomp)
deriving DecidableEq

instance : Inhabited ControlPacket := ⟨.undefined⟩

end Aqua
