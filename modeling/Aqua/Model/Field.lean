import Aqua.Wire.BigEndian
import Aqua.Model.Packet

/-! # Field codecs

The readers and writers of single fields: strings, binary data, fixed-width integers and
variable-length integers. Each `try_from` of the source is a reader under the same name; those
that differ only in the constructor they apply share one definition.
-/

namespace Aqua

open Wire Wire.Reader

/-- How a build treats an arithmetic overflow: with checks (the debug profile) it panics,
without them (the release profile) it wraps. -/
structure Build where
  overflowChecks : Bool

/-- One more than the largest `usize` of a 64-bit target. -/
def usizeModulus : ℕ := 2 ^ 64

/-- `x - y` on `usize`. -/
def Build.sub (build : Build) (x y : ℕ) : Result ℕ :=
  if y ≤ x then .ok (x - y)
  else if build.overflowChecks then .panic
  else .ok (x + usizeModulus - y)

/-- `Buf::advance`, which panics when fewer bytes are there. -/
def advance (buf : Bytes) (count : ℕ) : Result Bytes :=
  if count ≤ buf.length then .ok (buf.drop count) else .panic

/-- `String::as_bytes`. -/
def stringBytes (s : String) : Bytes := s.toByteArray.data.toList

/-- `std::str::from_utf8`. -/
def fromUtf8 (bytes : Bytes) : Option String := String.fromUTF8? ⟨bytes.toArray⟩

def decodeU16Bytes : FieldReader UInt16 := u16Slice .invalidFormat

def decodeU32Bytes : FieldReader UInt32 := u32Slice .invalidFormat

/-- A string behind its two-byte length. The length itself is sliced without a check. -/
def decodeUtf8String : FieldReader String := do
  let length ← decodeU16Bytes
  let bytes ← sliceOr .insufficientBytes length.toNat
  match fromUtf8 bytes with
  | some s => pure s
  | none => fail .invalidFormat

/-- The readers that wrap one string. -/
def stringField {α : Type} (wrap : String → α) : FieldReader α := wrap <$> decodeUtf8String

def TopicName.tryFrom : FieldReader TopicName := stringField TopicName.mk
def TopicFilter.tryFrom : FieldReader TopicFilter := stringField TopicFilter.mk
def ResponseTopic.tryFrom : FieldReader ResponseTopic := stringField ResponseTopic.mk
def ContentType.tryFrom : FieldReader ContentType := stringField ContentType.mk
def ReasonString.tryFrom : FieldReader ReasonString := stringField ReasonString.mk
def ServerReference.tryFrom : FieldReader ServerReference := stringField ServerReference.mk
def AuthenticationMethod.tryFrom : FieldReader AuthenticationMethod :=
  stringField AuthenticationMethod.mk
def UserName.tryFrom : FieldReader UserName := stringField UserName.mk
def ClientId.tryFrom : FieldReader ClientId := stringField ClientId.mk

def UserProperty.tryFrom : FieldReader UserProperty := do
  let key ← decodeUtf8String
  let value ← decodeUtf8String
  pure ⟨key, value⟩

/-- Bytes behind their two-byte length; neither the length nor the content is checked. -/
def binary : FieldReader Bytes := do
  let length ← u16
  slice length.toNat

/-- The readers that wrap binary data. -/
def binaryField {α : Type} (wrap : Bytes → α) : FieldReader α := wrap <$> binary

def CorrelationData.tryFrom : FieldReader CorrelationData := binaryField CorrelationData.mk
def AuthenticationData.tryFrom : FieldReader AuthenticationData := binaryField AuthenticationData.mk
def WillPayload.tryFrom : FieldReader WillPayload := binaryField WillPayload.mk
def Password.tryFrom : FieldReader Password := binaryField Password.mk

/-- Unlike `decodeUtf8String`, the content is sliced without a check. -/
def ProtocolName.tryFrom : FieldReader ProtocolName := do
  let bytes ← binary
  match fromUtf8 bytes with
  | some s => pure ⟨s⟩
  | none => fail .invalidFormat

def PacketId.tryFrom : FieldReader PacketId := PacketId.mk <$> u16

def KeepAlive.tryFrom : FieldReader KeepAlive := KeepAlive.mk <$> u16

/-- The two-byte fields that must not be zero. -/
def nonzeroU16Field {α : Type} (wrap : UInt16 → α) : FieldReader α := do
  let i ← u16
  if i = 0 then fail .invalidFormat else pure (wrap i)

def TopicAlias.tryFrom : FieldReader TopicAlias := nonzeroU16Field TopicAlias.mk
def ReceiveMaximum.tryFrom : FieldReader ReceiveMaximum := nonzeroU16Field ReceiveMaximum.mk
def TopicAliasMaximum.tryFrom : FieldReader TopicAliasMaximum := nonzeroU16Field TopicAliasMaximum.mk

/-- The four-byte fields. -/
def u32Field {α : Type} (wrap : UInt32 → α) : FieldReader α := wrap <$> decodeU32Bytes

def MessageExpiryInterval.tryFrom : FieldReader MessageExpiryInterval :=
  u32Field MessageExpiryInterval.mk
def SessionExpiryInterval.tryFrom : FieldReader SessionExpiryInterval :=
  u32Field SessionExpiryInterval.mk
def WillDelayInterval.tryFrom : FieldReader WillDelayInterval := u32Field WillDelayInterval.mk

def MaximumPacketSize.tryFrom : FieldReader MaximumPacketSize := do
  let i ← decodeU32Bytes
  if i = 0 then fail .invalidFormat else pure ⟨i⟩

/-- The one-byte fields with two legal values. -/
def flagField {α : Type} (zero one : α) : FieldReader α := do
  let byte ← index
  if byte = 0x00 then pure zero
  else if byte = 0x01 then pure one
  else fail .invalidFormat

def PayloadFormatIndicator.tryFrom : FieldReader PayloadFormatIndicator :=
  flagField .unspecifiedBytes .utf8
def RequestResponseInformation.tryFrom : FieldReader RequestResponseInformation :=
  flagField ⟨false⟩ ⟨true⟩
def RequestProblemInformation.tryFrom : FieldReader RequestProblemInformation :=
  flagField ⟨false⟩ ⟨true⟩

def ProtocolVersion.tryFrom : FieldReader ProtocolVersion := ProtocolVersion.mk <$> index

/-- `impl TryFrom<u8> for QoS`. -/
def QoS.ofByte (value : UInt8) : Result QoS :=
  if value = 0 then .ok .qos0
  else if value = 1 then .ok .qos1
  else if value = 2 then .ok .qos2
  else .err .invalidFormat

/-- `impl TryFrom<u8> for RetainHandling`. -/
def RetainHandling.ofByte (value : UInt8) : Result RetainHandling :=
  if value = 0 then .ok .receiveAll
  else if value = 1 then .ok .ignoreRetainedInitial
  else if value = 2 then .ok .ignoreRetainedAlways
  else .err .invalidFormat

/-- A step of a reader that does not look at the buffer. -/
def lift {α : Type} (x : Result α) : FieldReader α := fun _ pos => x >>= fun a => .ok (a, pos)

def SubscribeOption.tryFrom : FieldReader SubscribeOption := do
  let b ← index
  let qos ← lift (QoS.ofByte (b &&& 0b00000011))
  let nl : NoLocal := ⟨b &&& 0b00000100 ≠ 0⟩
  let rap : RetainAsPublished := ⟨b &&& 0b00001000 ≠ 0⟩
  let rh ← lift (RetainHandling.ofByte (b >>> 4))
  pure { retainHandling := rh, retainAsPublished := rap, noLocal := nl, qos }

def ConnectFlags.tryFrom : FieldReader ConnectFlags := do
  let b ← index
  -- the reserved flag must be zero
  if b &&& 0b00000001 ≠ 0 then fail .invalidFormat
  else do
    let willQos ← lift (QoS.ofByte ((b &&& 0b00011000) >>> 3))
    pure {
      userNameFlag := b &&& 0b10000000 ≠ 0
      passwordFlag := b &&& 0b01000000 ≠ 0
      willRetain := b &&& 0b00100000 ≠ 0
      willQos
      willFlag := b &&& 0b00000100 ≠ 0
      cleanStart := b &&& 0b00000010 ≠ 0 }

/-- The reason code of a PUBREL. -/
def PubrelReasonCode.tryFrom : FieldReader PubrelReasonCode := do
  let byte ← indexOr .invalidFormat
  if byte = 0x00 then pure .success
  else if byte = 0x92 then pure .packetIdentifierNotFound
  else fail .invalidFormat

def DisconnectReasonCode.convert : FieldReader DisconnectReasonCode := do
  let byte ← indexOr .invalidFormat
  match DisconnectReasonCode.ofByte? byte with
  | some code => pure code
  | none => fail .invalidFormat

/-- The loop over the at most four digits of a variable-length integer: `left` digits may still
follow, `inc` have been read with the value `acc`. -/
def decodeDigits : (left inc acc : ℕ) → FieldReader ℕ
  | 0, _, acc => pure acc
  | left + 1, inc, acc => do
      let byte ← indexOr .insufficientBytes
      let acc := acc + (byte &&& 0b01111111).toNat <<< (inc * 7)
      if byte &&& 0b10000000 = 0 then pure acc
      else if inc + 1 ≥ 4 then fail .invalidRemainingLength
      else decodeDigits left (inc + 1) acc

def decodeVariableLength : FieldReader ℕ := decodeDigits 4 0 0

/-- The loop of `encode_variable_bytes`, with `left` more digits allowed. -/
def encodeDigits : (left length : ℕ) → Bytes
  | 0, _ => []
  | left + 1, length =>
      let digit := UInt8.ofNat (length % 128)
      if length / 128 > 0 then (digit ||| 0x80) :: encodeDigits left (length / 128)
      else [digit]

def encodeVariableBytes (length : ℕ) : Bytes := encodeDigits 4 length

def SubscriptionIdentifier.tryFrom : FieldReader SubscriptionIdentifier :=
  SubscriptionIdentifier.mk <$> decodeVariableLength

def propertyPayloadFormatIndicatorId : UInt8 := 0x01
def propertyMessageExpiryIntervalId : UInt8 := 0x02
def propertyTopicAliasId : UInt8 := 0x23
def propertyResponseTopicId : UInt8 := 0x08
def propertyCorrelationDataId : UInt8 := 0x09
def propertyUserPropertyId : UInt8 := 0x26
def propertySubscriptionIdentifierId : UInt8 := 0x0b
def propertyContentTypeId : UInt8 := 0x03
def propertySessionExpiryInterval : UInt8 := 0x11
def propertyRecieveMaximum : UInt8 := 0x21
def propertyMaximumPacketSize : UInt8 := 0x27
def propertyTopicAliasMaximum : UInt8 := 0x22
def propertyRequestResponseInformation : UInt8 := 0x19
def propertyRequestProblemInformation : UInt8 := 0x17
def propertyAuthenticationMethod : UInt8 := 0x15
def propertyAuthenticationData : UInt8 := 0x16
def propertyWillDelayInterval : UInt8 := 0x18
def propertyReasonStringId : UInt8 := 0x1f
def propertyServerReference : UInt8 := 0x1c

/-- The property loops of the source, one for each packet: `property set id` reads the value of
the property `id` into the set, and the loop ends at the position announced in front of it. -/
def propertyLoop {σ : Type} (property : σ → UInt8 → FieldReader σ) (endPos : ℕ) (set : σ) :
    FieldReader σ :=
  block .invalidFormat (fun set => do
    let id ← index
    property set id) endPos set

/-- A property length and the loop over the properties it announces. -/
def propertyBlock {σ : Type} (property : σ → UInt8 → FieldReader σ) (set : σ) : FieldReader σ := do
  let propertyLength ← decodeVariableLength
  let nextPos ← position
  propertyLoop property (nextPos + propertyLength) set

/-- `len.try_into::<u16>()`, then the length and the bytes. -/
def putChecked (bytes : Bytes) : Result Bytes :=
  if bytes.length < 2 ^ 16 then .ok (be16Bytes (UInt16.ofNat bytes.length) ++ bytes)
  else .err .invalidFormat

/-- `put_u16(len as u16)`, which keeps the low sixteen bits of the length, then the bytes. -/
def putTruncated (bytes : Bytes) : Bytes := be16Bytes (UInt16.ofNat bytes.length) ++ bytes

/-- An optional property: nothing, or its identifier and its value. -/
def putOption {α : Type} (value : Option α) (put : α → Result Bytes) : Result Bytes :=
  match value with
  | some a => put a
  | none => .ok []

/-- The property 0x1f with a checked length. -/
def putReasonString (reason : ReasonString) : Result Bytes := do
  let bytes ← putChecked (stringBytes reason.value)
  pure (0x1f :: bytes)

/-- The property 0x26 with checked lengths. -/
def putUserProperty (property : UserProperty) : Result Bytes := do
  let key ← putChecked (stringBytes property.key)
  let value ← putChecked (stringBytes property.value)
  pure (0x26 :: (key ++ value))

def putUserProperties : List UserProperty → Result Bytes
  | [] => .ok []
  | property :: rest => do
      let head ← putUserProperty property
      let tail ← putUserProperties rest
      pure (head ++ tail)

/-- The property blocks that hold a reason string and user properties only. -/
def putReasonAndUser (reason : Option ReasonString) (user : List UserProperty) : Result Bytes := do
  let first ← putOption reason putReasonString
  let rest ← putUserProperties user
  pure (first ++ rest)

end Aqua
