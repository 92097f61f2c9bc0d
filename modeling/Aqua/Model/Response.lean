import Aqua.Model.Publish

/-! # Packets the broker only sends

CONNACK, SUBACK, UNSUBACK and PINGRESP are encoded and never decoded.
-/

namespace Aqua

open Wire

/-- The user properties of a CONNACK. -/
def ConnackProperties.putUser : List (String × String) → Result Bytes
  | [] => .ok []
  | property :: rest => do
      let key ← putChecked (stringBytes property.1)
      let value ← putChecked (stringBytes property.2)
      let tail ← ConnackProperties.putUser rest
      pure (0x26 :: (key ++ value) ++ tail)

/-- A string behind its identifier and its checked length. -/
def putCheckedString (id : UInt8) (s : String) : Result Bytes := do
  let bytes ← putChecked (stringBytes s)
  pure (id :: bytes)

def ConnackProperties.buildBytes (self : ConnackProperties) : Result Bytes := do
  let first :=
    optionBytes self.sessionExpiryInterval (fun c => 0x11 :: be32Bytes c) ++
    optionBytes self.receiveMaximum (fun c => 0x21 :: be16Bytes c) ++
    optionBytes self.maximumQos (fun c => [0x24, c]) ++
    optionBytes self.retainAvailable (fun c => [0x25, if c then 1 else 0]) ++
    optionBytes self.maximumPacketSize (fun c => 0x27 :: be32Bytes c) ++
    -- these two strings are written without their length
    optionBytes self.assignedClientIdentifier (fun c => 0x12 :: stringBytes c) ++
    optionBytes self.topicAliasMaximum (fun c => 0x22 :: be16Bytes c) ++
    optionBytes self.reasonString (fun c => 0x1f :: stringBytes c)
  let user ← ConnackProperties.putUser self.userProperties
  let fixed :=
    optionBytes self.wildcardSubscriptionAvailable (fun c => [0x28, c]) ++
    optionBytes self.subscriptionIdentifiersAvailable (fun c => [0x29, c]) ++
    optionBytes self.sharedSubscriptionAvailable (fun c => [0x2a, c]) ++
    optionBytes self.serverKeepAlive (fun c => 0x13 :: be16Bytes c)
  let response ← putOption self.responseInformation (putCheckedString 0x1a)
  let reference ← putOption self.serverReference (putCheckedString 0x1c)
  let method ← putOption self.authenticationMethod (putCheckedString 0x15)
  let data := optionBytes self.authenticationData (fun c => 0x16 :: c)
  pure (first ++ user ++ fixed ++ response ++ reference ++ method ++ data)

def Connack.encodeHeader (self : Connack) : Result Bytes := do
  let propBytes ←
    if self.version = ⟨0x05⟩ then
      match self.connackProperties with
      | some properties => properties.buildBytes
      | none => .ok []
    else .ok []
  -- one byte is reserved for the property length, whatever its width
  let remainingLength := 2 + if self.version = ⟨0x05⟩ then 1 + propBytes.length else 0
  let properties :=
    if self.version = ⟨0x05⟩ then encodeVariableBytes propBytes.length ++ propBytes else []
  pure (0b00100000 :: encodeVariableBytes remainingLength ++
    ((if self.sessionPresent then 0x01 else 0x00) :: self.connectReason.toByte :: properties))

def Connack.encodePayloadChunk (_self : Connack) : Result (Option Bytes) := .ok none

def Pingresp.encodeHeader (_self : Pingresp) : Result Bytes := .ok [0b11010000, 0x00]

def Pingresp.encodePayloadChunk (_self : Pingresp) : Result (Option Bytes) := .ok none

/-- The headers of SUBACK and UNSUBACK; the reason codes behind them are the payload. -/
def encodeWithCodes (first : UInt8) (version : ProtocolVersion) (packetId : PacketId)
    (codes : ℕ) (properties : Result Bytes) : Result Bytes := do
  let (encodedPropertyLength, pro, remainingLength) ←
    if version.value ≥ 5 then do
      let pro ← properties
      let encodedPropertyLength := encodeVariableBytes pro.length
      pure (encodedPropertyLength, pro, encodedPropertyLength.length + pro.length + codes + 2)
    else pure ([], [], codes + 2)
  let block := if version.value ≥ 5 then encodedPropertyLength ++ pro else []
  pure (first :: encodeVariableBytes remainingLength ++ (be16Bytes packetId.value ++ block))

def SubackProperties.buildBytes (self : SubackProperties) : Result Bytes :=
  putReasonAndUser self.reasonString (self.userProperties.getD [])

def UnsubackProperties.buildBytes (self : UnsubackProperties) : Result Bytes :=
  putReasonAndUser self.reasonString (self.userProperties.getD [])

def Suback.encodeHeader (self : Suback) : Result Bytes :=
  encodeWithCodes 0b10010000 self.protocolVersion self.packetId self.reasonCodes.length
    (self.subackProperties.getD {}).buildBytes

def Suback.encodePayloadChunk (self : Suback) : Result (Option Bytes) :=
  .ok (some (self.reasonCodes.map SubackReasonCode.toByte))

def Unsuback.encodeHeader (self : Unsuback) : Result Bytes :=
  encodeWithCodes 0b10110000 self.protocolVersion self.packetId self.reasonCodes.length
    (self.unsubackProperties.getD {}).buildBytes

def Unsuback.encodePayloadChunk (self : Unsuback) : Result (Option Bytes) :=
  .ok (some (self.reasonCodes.map UnsubackReasonCode.toByte))

end Aqua
