import Aqua.Model.Field

/-! # Reading the properties of a CONNACK

The broker only writes CONNACKs. A client reads the property block from left to right: an identifier, and
the value laid out as the decoders of the broker expect such values.
-/

namespace Aqua

open Wire Wire.Reader

namespace ConnackProperties

/-- A property that may occur once. -/
def once {α : Type} (current : Option α) (value : FieldReader α) (store : α → ConnackProperties) :
    FieldReader ConnackProperties :=
  if current.isSome then fail .invalidFormat else store <$> value

/-- The value behind an identifier. -/
def readProperty (set : ConnackProperties) (id : UInt8) : FieldReader ConnackProperties :=
  if id = 0x11 then
    once set.sessionExpiryInterval decodeU32Bytes fun c => { set with sessionExpiryInterval := some c }
  else if id = 0x21 then once set.receiveMaximum u16 fun c => { set with receiveMaximum := some c }
  else if id = 0x24 then once set.maximumQos index fun c => { set with maximumQos := some c }
  else if id = 0x25 then
    once set.retainAvailable (flagField false true) fun c => { set with retainAvailable := some c }
  else if id = 0x27 then
    once set.maximumPacketSize decodeU32Bytes fun c => { set with maximumPacketSize := some c }
  else if id = 0x12 then
    once set.assignedClientIdentifier decodeUtf8String fun c =>
      { set with assignedClientIdentifier := some c }
  else if id = 0x22 then
    once set.topicAliasMaximum u16 fun c => { set with topicAliasMaximum := some c }
  else if id = 0x1f then
    once set.reasonString decodeUtf8String fun c => { set with reasonString := some c }
  else if id = 0x26 then do
    let property ← UserProperty.tryFrom
    pure { set with userProperties := set.userProperties ++ [(property.key, property.value)] }
  else if id = 0x28 then
    once set.wildcardSubscriptionAvailable index fun c =>
      { set with wildcardSubscriptionAvailable := some c }
  else if id = 0x29 then
    once set.subscriptionIdentifiersAvailable index fun c =>
      { set with subscriptionIdentifiersAvailable := some c }
  else if id = 0x2a then
    once set.sharedSubscriptionAvailable index fun c =>
      { set with sharedSubscriptionAvailable := some c }
  else if id = 0x13 then once set.serverKeepAlive u16 fun c => { set with serverKeepAlive := some c }
  else if id = 0x1a then
    once set.responseInformation decodeUtf8String fun c => { set with responseInformation := some c }
  else if id = 0x1c then
    once set.serverReference decodeUtf8String fun c => { set with serverReference := some c }
  else if id = 0x15 then
    once set.authenticationMethod decodeUtf8String fun c => { set with authenticationMethod := some c }
  else if id = 0x16 then
    once set.authenticationData binary fun c => { set with authenticationData := some c }
  else fail .invalidFormat

/-- The block, read from its beginning, holds exactly these properties and ends where it ends. -/
def ReadsBack (p : ConnackProperties) (block : Bytes) : Prop :=
  propertyLoop readProperty block.length {} block 0 = .ok (p, block.length)

end ConnackProperties

end Aqua
