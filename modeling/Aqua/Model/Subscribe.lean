import Aqua.Model.Publish

/-! # SUBSCRIBE and UNSUBSCRIBE

Both read a list of topic filters that fills the rest of the frame. The two loops test the end
at different places: SUBSCRIBE after each filter, UNSUBSCRIBE before it.
-/

namespace Aqua

open Wire Wire.Reader

def SubscribeProperties.readProperty (sub : SubscribeProperties) (id : UInt8) :
    FieldReader SubscribeProperties :=
  if id = propertyUserPropertyId then do
    let userProperty ← UserProperty.tryFrom
    pure { sub with userProperties := pushProperty sub.userProperties userProperty }
  else if id = propertySubscriptionIdentifierId then do
    let result ← SubscriptionIdentifier.tryFrom
    pure { sub with subscriptionIdentifier := some result }
  else fail .invalidFormat

/-- The properties of a SUBSCRIBE, present from version 5 on. -/
def Subscribe.readProperties (version : ProtocolVersion) (properties : SubscribeProperties) :
    FieldReader SubscribeProperties :=
  if version.value ≥ 5 then propertyBlock SubscribeProperties.readProperty properties
  else pure properties

def Subscribe.decodeVariableHeader (build : Build) (self : Subscribe) (remainingLength : ℕ)
    (protocolVersion : Option ProtocolVersion) : FieldReader Subscribe :=
  match protocolVersion with
  | none => fail .unexpected
  | some version => do
      let startPos ← position
      let packetId ← PacketId.tryFrom
      let subProperties ← Subscribe.readProperties version self.subProperties
      let nextPos ← position
      let payloadLength ← lift (build.sub remainingLength (nextPos - startPos))
      pure { self with packetId, subProperties, payloadLength }

/-- The filters of a SUBSCRIBE with their options. -/
def Subscribe.readFilters (payloadLength : ℕ) :
    List (TopicFilter × SubscribeOption) → FieldReader (List (TopicFilter × SubscribeOption)) :=
  Reader.loop fun filters => do
    let f ← TopicFilter.tryFrom
    let op ← SubscribeOption.tryFrom
    let nextPos ← position
    if payloadLength = nextPos then pure (.inr (filters ++ [(f, op)]))
    else if payloadLength < nextPos then fail .unexpected
    else pure (.inl (filters ++ [(f, op)]))

def Subscribe.decodePayload (self : Subscribe) (buf : Bytes) : Result (Subscribe × Bytes) :=
  if self.payloadLength = 0 then .err .unexpected
  else do
    let (topicFilters, nextPos) ← Subscribe.readFilters self.payloadLength self.topicFilters buf 0
    let rest ← advance buf nextPos
    pure ({ self with topicFilters }, rest)

def UnsubscribeProperties.readProperty (unsub : Option UnsubscribeProperties) (id : UInt8) :
    FieldReader (Option UnsubscribeProperties) :=
  if id = propertyUserPropertyId then do
    let userProperty ← UserProperty.tryFrom
    pure (some ⟨(unsub.getD {}).userProperties ++ [userProperty]⟩)
  else fail .invalidFormat

/-- The properties of an UNSUBSCRIBE, present from version 5 on. -/
def Unsubscribe.readProperties (version : ProtocolVersion)
    (properties : Option UnsubscribeProperties) : FieldReader (Option UnsubscribeProperties) :=
  if version.value ≥ 0x05 then propertyBlock UnsubscribeProperties.readProperty properties
  else pure properties

def Unsubscribe.decodeVariableHeader (build : Build) (self : Unsubscribe) (remainingLength : ℕ)
    (protocolVersion : Option ProtocolVersion) : FieldReader Unsubscribe := do
  let startPos ← position
  let packetId ← PacketId.tryFrom
  let version ← Reader.unwrap protocolVersion
  let unsubscribeProperties ← Unsubscribe.readProperties version self.unsubscribeProperties
  let nextPos ← position
  let payloadLength ← lift (build.sub remainingLength (nextPos - startPos))
  pure { self with packetId, unsubscribeProperties, payloadLength }

/-- One filter of an UNSUBSCRIBE. -/
def Unsubscribe.readFilter (filters : List TopicFilter) : FieldReader (List TopicFilter) := do
  let res ← TopicFilter.tryFrom
  pure (filters ++ [res])

def Unsubscribe.decodePayload (self : Unsubscribe) (buf : Bytes) : Result (Unsubscribe × Bytes) := do
  let (topicFilters, nextPos) ←
    block .invalidFormat Unsubscribe.readFilter self.payloadLength self.topicFilters buf 0
  let rest ← advance buf nextPos
  pure ({ self with topicFilters }, rest)

end Aqua
