import Aqua.Model.Publish

/-! # PUBACK, PUBREC, PUBREL and PUBCOMP

Only PUBREL has a decoder of its own; the other three are read in `ControlPacket`. All four are
encoded: packet identifier, then from version 5 on a reason code and a property block, both of
which may be omitted.
-/

namespace Aqua

open Wire Wire.Reader

/-- One iteration of the PUBREL property loop, behind the identifier. -/
def PubrelProperties.readProperty (pro : Option PubrelProperties) (id : UInt8) :
    FieldReader (Option PubrelProperties) :=
  if id = propertyUserPropertyId then do
    let userProperty ← UserProperty.tryFrom
    let set := pro.getD {}
    pure (some { set with userProperties := set.userProperties ++ [userProperty] })
  else if id = propertyReasonStringId then do
    let reasonString ← decodeUtf8String
    pure (some { pro.getD {} with reasonString := some ⟨reasonString⟩ })
  else fail .invalidFormat

/-- The properties of a PUBREL, present from version 5 on. -/
def Pubrel.readProperties (version : ProtocolVersion) (properties : Option PubrelProperties) :
    FieldReader (Option PubrelProperties) :=
  if version.value ≥ 0x05 then propertyBlock PubrelProperties.readProperty properties
  else pure properties

def Pubrel.decodeVariableHeader (self : Pubrel) (remainingLength : ℕ)
    (protocolVersion : Option ProtocolVersion) : FieldReader Pubrel := do
  let packetId ← PacketId.tryFrom
  if remainingLength = 2 then pure { self with packetId }
  else do
    let reasonCode ← PubrelReasonCode.tryFrom
    let version ← Reader.unwrap protocolVersion
    let pubrelProperties ← Pubrel.readProperties version self.pubrelProperties
    pure { self with packetId, reasonCode := some reasonCode, pubrelProperties }

def PubackProperties.buildBytes (self : PubackProperties) : Result Bytes :=
  putReasonAndUser self.reasonString self.userProperties

def PubrecProperties.buildBytes (self : PubrecProperties) : Result Bytes :=
  putReasonAndUser self.reasonString (self.userProperties.getD [])

def PubrelProperties.encode (self : PubrelProperties) : Result Bytes :=
  putReasonAndUser self.reasonString self.userProperties

def PubcompProperties.encode (self : PubcompProperties) : Result Bytes :=
  putReasonAndUser self.reasonString self.userProperties

/-- What an encoder computes before it writes anything. -/
structure AckPlan where
  pro : Bytes := []
  encodedPropertyLength : Bytes := []
  remainingLength : ℕ := 2

/-- The plan for a reason code followed by a property block. -/
def AckPlan.full (properties : Result Bytes) : Result AckPlan := do
  let pro ← properties
  let encodedPropertyLength := encodeVariableBytes pro.length
  pure {
    pro
    encodedPropertyLength
    remainingLength := 2 + 1 + encodedPropertyLength.length + pro.length }

/-- The reason code, the property length and the properties, written if there is a reason code. -/
def AckPlan.tail (plan : AckPlan) (reasonCode : Option UInt8) : Bytes :=
  match reasonCode with
  | some reason => reason :: (plan.encodedPropertyLength ++ plan.pro)
  | none => []

/-- The encoders of PUBACK and PUBREC: the plan and the body both ask whether there is a reason
code. -/
def encodeByReason (first : UInt8) (version : ProtocolVersion) (packetId : PacketId)
    (reasonCode : Option UInt8) (properties : Result Bytes) : Result Bytes := do
  let plan ←
    if version.value ≥ 5 then
      if reasonCode.isSome then AckPlan.full properties else .ok {}
    else .ok {}
  let body := if version.value ≥ 5 then plan.tail reasonCode else []
  pure (first :: encodeVariableBytes plan.remainingLength ++ (be16Bytes packetId.value ++ body))

/-- The encoders of PUBREL and PUBCOMP: the plan asks whether the reason code and the properties
are omitted, the body also whether there is a reason code. -/
def encodeByOmit (first : UInt8) (version : ProtocolVersion) (packetId : PacketId)
    (reasonCode : Option UInt8) (omitted : Bool) (properties : Result Bytes) : Result Bytes := do
  let plan ← if version.value ≥ 5 ∧ ¬ omitted then AckPlan.full properties else .ok {}
  let body := if version.value ≥ 5 ∧ ¬ omitted then plan.tail reasonCode else []
  pure (first :: encodeVariableBytes plan.remainingLength ++ (be16Bytes packetId.value ++ body))

def Puback.encodeHeader (self : Puback) : Result Bytes :=
  encodeByReason 0b01000000 self.protocolVersion self.packetId
    (self.reasonCode.map PubackReasonCode.toByte) (self.pubackProperties.getD {}).buildBytes

def Pubrec.encodeHeader (self : Pubrec) : Result Bytes :=
  encodeByReason 0b01010000 self.protocolVersion self.packetId
    (self.reasonCode.map PubrecReasonCode.toByte) (self.pubrecProperties.getD {}).buildBytes

def Pubrel.encodeHeader (self : Pubrel) : Result Bytes :=
  encodeByOmit 0b01100010 self.protocolVersion self.packetId
    (self.reasonCode.map PubrelReasonCode.toByte)
    (self.reasonCode = none ∧ self.pubrelProperties = none) (self.pubrelProperties.getD {}).encode

def Pubcomp.encodeHeader (self : Pubcomp) : Result Bytes :=
  encodeByOmit 0b01110000 self.protocolVersion self.packetId
    (self.pubcompReason.map PubcompReasonCode.toByte)
    (self.pubcompReason = none ∧ self.pubcompProperties = none)
    (self.pubcompProperties.getD {}).encode

def Puback.encodePayloadChunk (_self : Puback) : Result (Option Bytes) := .ok none
def Pubrec.encodePayloadChunk (_self : Pubrec) : Result (Option Bytes) := .ok none
def Pubrel.encodePayloadChunk (_self : Pubrel) : Result (Option Bytes) := .ok none
def Pubcomp.encodePayloadChunk (_self : Pubcomp) : Result (Option Bytes) := .ok none

end Aqua
