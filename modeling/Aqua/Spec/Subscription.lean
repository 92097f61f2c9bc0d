import Aqua.Spec.Client

/-! # Lists of topic filters

SUBSCRIBE and UNSUBSCRIBE as a client of version 3.1.1 or 5 sends them, laid out as the protocol prescribes, and
the packets the broker has to see. The subscription identifier may stand at any place among the user properties.
-/

namespace Aqua

open Wire

def RetainHandling.bits : RetainHandling → UInt8
  | .receiveAll => 0
  | .ignoreRetainedInitial => 1
  | .ignoreRetainedAlways => 2

/-- The byte behind a topic filter. -/
def SubscribeOption.bits (self : SubscribeOption) : UInt8 :=
  let noLocalBit : UInt8 := if self.noLocal.value then 0x04 else 0x00
  let retainAsPublishedBit : UInt8 := if self.retainAsPublished.value then 0x08 else 0x00
  self.qos.bits ||| noLocalBit ||| retainAsPublishedBit ||| self.retainHandling.bits <<< 4

def TopicFilter.bytes (self : TopicFilter) : Bytes := putTruncated (stringBytes self.value)

/-- A topic filter and its options. -/
def subscriptionBytes (filter : TopicFilter × SubscribeOption) : Bytes := filter.1.bytes ++ [filter.2.bits]

def UserProperty.bytes (self : UserProperty) : Bytes :=
  0x26 :: (putTruncated (stringBytes self.key) ++ putTruncated (stringBytes self.value))

/-- Both strings have at most 65535 bytes. -/
def UserProperty.Short (self : UserProperty) : Prop :=
  (stringBytes self.key).length < 2 ^ 16 ∧ (stringBytes self.value).length < 2 ^ 16

instance (self : UserProperty) : Decidable self.Short := inferInstanceAs (Decidable (_ ∧ _))

/-- The property block, which is there from version 5 on. -/
def blockBytes (version : ProtocolVersion) (properties : Bytes) : Bytes :=
  if version.value ≥ 5 then encodeVariableBytes properties.length ++ properties else []

/-- Version 3.1.1 without properties, or version 5. -/
def Spoken (version : ProtocolVersion) (properties : Bytes) : Prop :=
  version = ⟨4⟩ ∧ properties = [] ∨ version = ⟨5⟩

/-- A list of user properties, of which an empty one is not stored. -/
def storedProperties (list : List UserProperty) : Option (List UserProperty) :=
  if list = [] then none else some list

structure SentSubscribe where
  version : ProtocolVersion
  packetId : PacketId
  earlier : List UserProperty := []
  subscriptionIdentifier : Option SubscriptionIdentifier := none
  later : List UserProperty := []
  filters : List (TopicFilter × SubscribeOption)

namespace SentSubscribe

def properties (q : SentSubscribe) : Bytes :=
  q.earlier.flatMap UserProperty.bytes ++
    (optionBytes q.subscriptionIdentifier (fun id => 0x0b :: encodeVariableBytes id.value) ++
      q.later.flatMap UserProperty.bytes)

/-- Variable header and payload. -/
def body (q : SentSubscribe) : Bytes :=
  be16Bytes q.packetId.value ++ blockBytes q.version q.properties ++ q.filters.flatMap subscriptionBytes

def wire (q : SentSubscribe) : Bytes := 0x82 :: encodeVariableBytes q.body.length ++ q.body

/-- Short strings, an identifier of four digits, at least one filter, and a body whose length can be announced. -/
structure WellFormed (q : SentSubscribe) : Prop where
  version : Spoken q.version q.properties
  user : ∀ property ∈ q.earlier ++ q.later, property.Short
  subscriptionIdentifier : ∀ id ∈ q.subscriptionIdentifier, id.value < 2 ^ 28
  filters : q.filters ≠ []
  short : ∀ filter ∈ q.filters, (stringBytes filter.1.value).length < 2 ^ 16
  body : q.body.length < 2 ^ 28

/-- The packet the broker has to see. -/
def decoded (q : SentSubscribe) : Subscribe where
  packetId := q.packetId
  subProperties := {
    subscriptionIdentifier := q.subscriptionIdentifier
    userProperties := storedProperties (q.earlier ++ q.later) }
  topicFilters := q.filters
  payloadLength := (q.filters.flatMap subscriptionBytes).length

end SentSubscribe

structure SentUnsubscribe where
  version : ProtocolVersion
  packetId : PacketId
  userProperties : List UserProperty := []
  filters : List TopicFilter

namespace SentUnsubscribe

def properties (q : SentUnsubscribe) : Bytes := q.userProperties.flatMap UserProperty.bytes

/-- Variable header and payload. -/
def body (q : SentUnsubscribe) : Bytes :=
  be16Bytes q.packetId.value ++ blockBytes q.version q.properties ++ q.filters.flatMap TopicFilter.bytes

def wire (q : SentUnsubscribe) : Bytes := 0xa2 :: encodeVariableBytes q.body.length ++ q.body

/-- Short strings, at least one filter, and a body whose length can be announced. -/
structure WellFormed (q : SentUnsubscribe) : Prop where
  version : Spoken q.version q.properties
  user : ∀ property ∈ q.userProperties, property.Short
  filters : q.filters ≠ []
  short : ∀ filter ∈ q.filters, (stringBytes filter.value).length < 2 ^ 16
  body : q.body.length < 2 ^ 28

/-- The packet the broker has to see. -/
def decoded (q : SentUnsubscribe) : Unsubscribe where
  topicFilters := q.filters
  unsubscribeProperties := (storedProperties q.userProperties).map UnsubscribeProperties.mk
  payloadLength := (q.filters.flatMap TopicFilter.bytes).length
  packetId := q.packetId

end SentUnsubscribe

end Aqua
