import Aqua.Model.Decoder
import Aqua.Wire.Format

/-! # The grammar of the packets a broker receives

Fields, property sets, variable headers and payloads as formats. `Cut` marks the fields whose presence
nothing checks: lengths of strings and binary data, packet identifiers, fixed-width values, and the
content of binary data. The property sets are given as tables; what a set may still contain depends
on the identifiers seen so far.
-/

namespace Aqua

open Wire

namespace Grammar

open Wire.Format

def string : Format Unit := do
  let length ← u16
  let content ← bytesChecked length.toNat
  guard (fromUtf8 content ≠ none)

def stringPair : Format Unit := do
  string
  string

def binary : Format Bytes := do
  let length ← u16
  bytes length.toNat

def protocolName : Format Unit := do
  let content ← binary
  guard (fromUtf8 content ≠ none)

def nonzero16 : Format Unit := do
  let value ← u16
  guard (value ≠ 0)

def nonzero32 : Format Unit := do
  let value ← u32
  guard (value ≠ 0)

def flag : Format Unit := do
  let value ← byte
  guard (value = 0 ∨ value = 1)

/-- A variable-length integer, every digit of which is checked. -/
def variableLength : Format ℕ where
  Spans buf pos n next := decodeVariableLength buf pos = .ok (n, next)
  Cut _ _ := False

/-- Two bits that stand for a QoS or a retain handling. -/
def TwoBits (value : UInt8) : Prop := value = 0 ∨ value = 1 ∨ value = 2

def subscribeOption : Format Unit := do
  let options ← byte
  guard (TwoBits (options &&& 0b00000011))
  guard (TwoBits (options >>> 4))

def connectFlags : Format UInt8 := do
  let flags ← byte
  guard (flags &&& 0b00000001 = 0)
  guard (TwoBits ((flags &&& 0b00011000) >>> 3))
  pure flags

def pubrelReason : Format Unit := do
  let code ← byteChecked
  guard (code = 0x00 ∨ code = 0x92)

def disconnectReason : Format Unit := do
  let code ← byteChecked
  guard (DisconnectReasonCode.ofByte? code ≠ none)

/-- The identifier of a PUBLISH: only its first byte is checked. -/
def publishIdentifier : Format Unit := atLeast 1 (ignore u16)

/-- What is left of the remaining length, on `usize`. -/
def left (build : Build) (remainingLength used : ℕ) : Format ℕ where
  Spans _ pos length next := next = pos ∧ (used ≤ remainingLength ∧ length = remainingLength - used ∨
    remainingLength < used ∧ build.overflowChecks = false ∧
      length = remainingLength + usizeModulus - used)
  Cut _ _ := remainingLength < used ∧ build.overflowChecks = true

/-- The value of a property, and whether the property may occur only once. -/
structure PropertyRule where
  once : Bool
  value : Format Unit

abbrev PropertyTable := UInt8 → Option PropertyRule

/-- A property `id` behind the properties `seen`. -/
def PropertyRule.format (rule : PropertyRule) (id : UInt8) (seen : List UInt8) :
    Format (List UInt8) where
  Spans buf pos seen' next := (rule.once = true → id ∉ seen) ∧ rule.value.Spans buf pos () next ∧
    seen' = id :: seen
  Cut buf pos := (rule.once = true → id ∉ seen) ∧ rule.value.Cut buf pos

/-- A property with a rule; there is none without. -/
def property (rule : Option PropertyRule) (id : UInt8) (seen : List UInt8) : Format (List UInt8) :=
  match rule with
  | some rule => rule.format id seen
  | none => fail

/-- A property length and as many bytes of properties, which keep the set legal. -/
def PropertyTable.block (table : PropertyTable) (legal : List UInt8 → Prop) : Format Unit := do
  let length ← variableLength
  let start ← position
  ignore (Format.block (fun seen => do
    let id ← byte
    (property (table id) id seen).such legal) (start + length) [])

/-- No condition on the set as a whole. -/
def anySet (_seen : List UInt8) : Prop := True

def publishTable : PropertyTable := fun id =>
  if id = propertyPayloadFormatIndicatorId then some ⟨false, flag⟩
  else if id = propertyMessageExpiryIntervalId then some ⟨false, ignore u32⟩
  else if id = propertyTopicAliasId then some ⟨true, nonzero16⟩
  else if id = propertyResponseTopicId then some ⟨true, string⟩
  else if id = propertyCorrelationDataId then some ⟨true, ignore binary⟩
  else if id = propertyUserPropertyId then some ⟨false, stringPair⟩
  else if id = propertySubscriptionIdentifierId then some ⟨false, ignore variableLength⟩
  else if id = propertyContentTypeId then some ⟨true, string⟩
  else none

def subscribeTable : PropertyTable := fun id =>
  if id = propertyUserPropertyId then some ⟨false, stringPair⟩
  else if id = propertySubscriptionIdentifierId then some ⟨false, ignore variableLength⟩
  else none

def unsubscribeTable : PropertyTable := fun id =>
  if id = propertyUserPropertyId then some ⟨false, stringPair⟩ else none

def connectTable : PropertyTable := fun id =>
  if id = propertySessionExpiryInterval then some ⟨true, ignore u32⟩
  else if id = propertyRecieveMaximum then some ⟨true, nonzero16⟩
  else if id = propertyMaximumPacketSize then some ⟨true, nonzero32⟩
  else if id = propertyTopicAliasMaximum then some ⟨true, nonzero16⟩
  else if id = propertyRequestResponseInformation then some ⟨true, flag⟩
  else if id = propertyRequestProblemInformation then some ⟨true, flag⟩
  else if id = propertyUserPropertyId then some ⟨false, stringPair⟩
  else if id = propertyAuthenticationMethod then some ⟨true, string⟩
  else if id = propertyAuthenticationData then some ⟨true, ignore binary⟩
  else none

/-- Authentication data stand behind a method. -/
def authenticated (seen : List UInt8) : Prop :=
  propertyAuthenticationData ∈ seen → propertyAuthenticationMethod ∈ seen

def willTable : PropertyTable := fun id =>
  if id = propertyWillDelayInterval then some ⟨true, ignore u32⟩
  else if id = propertyPayloadFormatIndicatorId then some ⟨true, flag⟩
  else if id = propertyMessageExpiryIntervalId then some ⟨true, ignore u32⟩
  else if id = propertyContentTypeId then some ⟨true, string⟩
  else if id = propertyResponseTopicId then some ⟨true, string⟩
  else if id = propertyCorrelationDataId then some ⟨true, ignore binary⟩
  else if id = propertyUserPropertyId then some ⟨false, stringPair⟩
  else none

def disconnectTable : PropertyTable := fun id =>
  if id = propertySessionExpiryInterval then some ⟨true, ignore u32⟩
  else if id = propertyUserPropertyId then some ⟨false, stringPair⟩
  else if id = propertyReasonStringId then some ⟨true, string⟩
  else if id = propertyServerReference then some ⟨false, string⟩
  else none

def pubrelTable : PropertyTable := fun id =>
  if id = propertyUserPropertyId then some ⟨false, stringPair⟩
  else if id = propertyReasonStringId then some ⟨false, string⟩
  else none

/-- The properties of the packets that have them from version 5 on. -/
def versioned (version : ProtocolVersion) (table : PropertyTable) : Format Unit :=
  (table.block anySet).part (5 ≤ version.value)

/-- Client identifier, will, user name and password. -/
def connectPayload (flags : UInt8) : Format Unit := do
  string
  part (do
    willTable.block anySet
    string
    ignore binary) (flags &&& 0b00000100 ≠ 0)
  part string (flags &&& 0b10000000 ≠ 0)
  part (ignore binary) (flags &&& 0b01000000 ≠ 0)

def subscribeFilter : Format Unit := do
  string
  subscribeOption

/-- The filters of a SUBSCRIBE; there is at least one. -/
def subscribePayload (length : ℕ) : Format Unit := do
  guard (length ≠ 0)
  subscribeFilter
  Format.block (fun _ => subscribeFilter) length ()

def unsubscribePayload (length : ℕ) : Format Unit := Format.block (fun _ => string) length ()

/-- A packet without a payload. -/
def noPayload : Format Unit := pure ()

/-- The variable header of a packet; its value is the format of the payload. -/
def header (build : Build) (version : ProtocolVersion) (packet : ControlPacket)
    (remainingLength : ℕ) : Format (Format Unit) :=
  match packet with
  | .connect _ => do
      protocolName
      let level ← byte
      let flags ← connectFlags
      ignore u16
      part (connectTable.block authenticated) (level = 5)
      pure (connectPayload flags)
  | .publish p => do
      let start ← position
      string
      part publishIdentifier (p.qos = .qos1 ∨ p.qos = .qos2)
      versioned version publishTable
      let next ← position
      let length ← left build remainingLength (next - start)
      pure (ignore (bytesChecked length))
  | .subscribe _ => do
      let start ← position
      ignore u16
      versioned version subscribeTable
      let next ← position
      let length ← left build remainingLength (next - start)
      pure (subscribePayload length)
  | .unsubscribe _ => do
      let start ← position
      ignore u16
      versioned version unsubscribeTable
      let next ← position
      let length ← left build remainingLength (next - start)
      pure (unsubscribePayload length)
  | .pubrel _ => do
      ignore u16
      part (do
        pubrelReason
        versioned version pubrelTable) (remainingLength ≠ 2)
      pure noPayload
  | .disconnect _ => do
      part (do
        disconnectReason
        versioned version disconnectTable) (remainingLength ≠ 0)
      pure noPayload
  | .puback _ | .pubrec _ | .pubcomp _ => do
      ignore u16
      pure noPayload
  | .pingreq _ => pure noPayload
  | _ => fail

end Grammar

end Aqua
