import Aqua.Model.Decoder

/-! # PUBREL and DISCONNECT of version 5

Both end in a reason code and a property block, and both may leave out the block or the two. Laid out here
as the protocol prescribes, with what a decoder has to say about them.
-/

namespace Aqua

open Wire

/-- The properties the two packets may carry. -/
inductive ClosingProperty where
  | sessionExpiryInterval (value : SessionExpiryInterval)
  | reasonString (value : ReasonString)
  | userProperty (value : UserProperty)
  | serverReference (value : ServerReference)
deriving DecidableEq

/-- What a list of them says. -/
structure Closing where
  sessionExpiryInterval : Option SessionExpiryInterval := none
  reasonString : Option ReasonString := none
  userProperties : List UserProperty := []
  serverReference : Option ServerReference := none
deriving DecidableEq

namespace ClosingProperty

def id : ClosingProperty → UInt8
  | sessionExpiryInterval _ => 0x11
  | reasonString _ => 0x1f
  | userProperty _ => 0x26
  | serverReference _ => 0x1c

def value : ClosingProperty → Bytes
  | sessionExpiryInterval value => be32Bytes value.value
  | reasonString value => putTruncated (stringBytes value.value)
  | userProperty value =>
      putTruncated (stringBytes value.key) ++ putTruncated (stringBytes value.value)
  | serverReference value => putTruncated (stringBytes value.value)

def wire (property : ClosingProperty) : Bytes := property.id :: property.value

/-- Strings fit behind their lengths. -/
def Fits : ClosingProperty → Prop
  | sessionExpiryInterval _ => True
  | reasonString value => (stringBytes value.value).length < 2 ^ 16
  | userProperty value =>
      (stringBytes value.key).length < 2 ^ 16 ∧ (stringBytes value.value).length < 2 ^ 16
  | serverReference value => (stringBytes value.value).length < 2 ^ 16

/-- Only user properties may be repeated. -/
def Compatible (a b : ClosingProperty) : Prop := a.id = b.id → a.id = 0x26

end ClosingProperty

/-- A property sets its field; user properties are kept in their order. -/
def Closing.store (self : Closing) : ClosingProperty → Closing
  | .sessionExpiryInterval value => { self with sessionExpiryInterval := some value }
  | .reasonString value => { self with reasonString := some value }
  | .userProperty value => { self with userProperties := self.userProperties ++ [value] }
  | .serverReference value => { self with serverReference := some value }

/-- What stands behind the packet identifier of a PUBREL, and all of a DISCONNECT. -/
inductive Tail (R : Type) where
  | omitted
  | reason (code : R)
  | full (code : R) (properties : List ClosingProperty)
deriving DecidableEq

namespace Tail

variable {R : Type}

/-- A missing reason code stands for the default. -/
def code (default : R) : Tail R → R
  | omitted => default
  | reason code | full code _ => code

def properties : Tail R → List ClosingProperty
  | omitted | reason _ => []
  | full _ properties => properties

def block (tail : Tail R) : Bytes := tail.properties.flatMap ClosingProperty.wire

def wire (byte : R → UInt8) (tail : Tail R) : Bytes :=
  match tail with
  | omitted => []
  | reason code => [byte code]
  | full code _ => byte code :: (encodeVariableBytes tail.block.length ++ tail.block)

def IsReason : Tail R → Prop
  | reason _ => True
  | _ => False

end Tail

def DisconnectReasonCode.byte : DisconnectReasonCode → UInt8
  | .normalDisconnection => 0x00
  | .disconnectWithWillMessage => 0x04
  | .unspecifiedError => 0x80
  | .malformedPacket => 0x81
  | .protocolError => 0x82
  | .implementationSpecificError => 0x83
  | .notAuthorized => 0x87
  | .serverBusy => 0x89
  | .serverShuttingDown => 0x8b
  | .keepAliveTimeout => 0x8d
  | .sessionTakenOver => 0x8e
  | .topicFilterInvalid => 0x8f
  | .topicNameInvalid => 0x90
  | .recieveMaximumExceeded => 0x93
  | .topicAliasInvalid => 0x94
  | .packetTooLarge => 0x95
  | .messageRateTooHigh => 0x96
  | .quotaExceeded => 0x97
  | .administrativeAction => 0x98
  | .payloadFormatInvalid => 0x99
  | .retainNotSupport => 0x9a
  | .qosNotSupported => 0x9b
  | .useAnotherServer => 0x9c
  | .serverMoved => 0x9d
  | .sharedSubscriptionsNotSupported => 0x9e
  | .connectionRateExceeded => 0x9f
  | .maximumConnectTime => 0xa0
  | .subsctiptionIdentifiersNotSupported => 0xa1
  | .wildcardSubscriptionsNotSupported => 0xa2

inductive ClosingPacket where
  | pubrel (id : PacketId) (tail : Tail PubrelReasonCode)
  | disconnect (tail : Tail DisconnectReasonCode)
deriving DecidableEq

namespace ClosingPacket

def firstByte : ClosingPacket → UInt8
  | pubrel _ _ => 0x62
  | disconnect _ => 0xe0

def body : ClosingPacket → Bytes
  | pubrel id tail => be16Bytes id.value ++ tail.wire PubrelReasonCode.toByte
  | disconnect tail => tail.wire DisconnectReasonCode.byte

def properties : ClosingPacket → List ClosingProperty
  | pubrel _ tail => tail.properties
  | disconnect tail => tail.properties

/-- The properties the packet may carry, each of them at most once unless it is a user property. -/
structure Legal (q : ClosingPacket) : Prop where
  body : q.body.length < 2 ^ 28
  fits : ∀ property ∈ q.properties, property.Fits
  once : q.properties.Pairwise ClosingProperty.Compatible
  known : ∀ id tail, q = .pubrel id tail →
    ∀ property ∈ tail.properties, property.id = 0x1f ∨ property.id = 0x26

/-- There is a reason code and no property block. -/
def IsReason : ClosingPacket → Prop
  | pubrel _ tail => tail.IsReason
  | disconnect tail => tail.IsReason

end ClosingPacket

/-- What the properties of a decoded PUBREL say. -/
def PubrelProperties.closing (set : Option PubrelProperties) : Closing where
  reasonString := (set.getD {}).reasonString
  userProperties := (set.getD {}).userProperties

/-- What the properties of a decoded DISCONNECT say. -/
def DisconnectProperties.closing (set : Option DisconnectProperties) : Closing where
  sessionExpiryInterval := (set.getD {}).sessionExpiryInterval
  reasonString := (set.getD {}).reasonString
  userProperties := ((set.getD {}).userProperties).getD []
  serverReference := (set.getD {}).serverReference

/-- The decoded packet has the identifier, the reason and the properties of the frame. -/
def ClosingPacket.Tells (q : ClosingPacket) (packet : ControlPacket) : Prop :=
  match q, packet with
  | .pubrel id tail, .pubrel p =>
      p.packetId = id ∧ p.reasonCode.getD .success = tail.code .success ∧
        PubrelProperties.closing p.pubrelProperties = tail.properties.foldl Closing.store {}
  | .disconnect tail, .disconnect p =>
      p.reasonCode = tail.code .normalDisconnection ∧
        DisconnectProperties.closing p.disconnectProperties = tail.properties.foldl Closing.store {}
  | _, _ => False

end Aqua
