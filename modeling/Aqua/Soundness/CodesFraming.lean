import Aqua.Model.Encoder
import Aqua.Proofs.ReasonAndUser

/-! # The frames of SUBACK and UNSUBACK

The header announces as many bytes as it writes itself and as there are reason codes, and the payload is the
codes. The two functions meet in a frame: identifier, from version 5 on the property block, and one byte for
each reason code.
-/

namespace Aqua

open Wire Wire.Reader

/-- A packet with a list of reason codes. -/
inductive CodesPacket where
  | suback (p : Suback)
  | unsuback (p : Unsuback)

namespace CodesPacket

variable {q : CodesPacket}

def packet : CodesPacket → ControlPacket
  | suback p => .suback p
  | unsuback p => .unsuback p

/-- The type of the packet. -/
def firstByte : CodesPacket → UInt8
  | suback _ => 0x90
  | unsuback _ => 0xb0

def version : CodesPacket → ProtocolVersion
  | suback p => p.protocolVersion
  | unsuback p => p.protocolVersion

def packetId : CodesPacket → PacketId
  | suback p => p.packetId
  | unsuback p => p.packetId

/-- One byte for each reason code. -/
def codes : CodesPacket → Bytes
  | suback p => p.reasonCodes.map SubackReasonCode.toByte
  | unsuback p => p.reasonCodes.map UnsubackReasonCode.toByte

/-- The reason string and the user properties, none if there is no property set. Both packets have the
properties of a PUBREL, and no decoder but that of PUBREL reads these. -/
def properties : CodesPacket → PubrelProperties
  | suback p =>
    let set := p.subackProperties.getD {}
    { reasonString := set.reasonString, userProperties := set.userProperties.getD [] }
  | unsuback p =>
    let set := p.unsubackProperties.getD {}
    { reasonString := set.reasonString, userProperties := set.userProperties.getD [] }

/-- What a reader finds: the type, a field that is read as a length, and as many bytes. These are the
identifier, in version 5 or higher a field that is read as a length and as many bytes of properties that are
read back, and the reason codes. -/
def Framed (q : CodesPacket) (bytes : Bytes) : Prop :=
  ∃ lengthField block, bytes = q.firstByte :: (lengthField ++ (be16Bytes q.packetId.value ++ (block ++ q.codes))) ∧
    Reads decodeVariableLength lengthField (be16Bytes q.packetId.value ++ (block ++ q.codes)).length ∧
    (q.version.value < 5 → block = []) ∧
    (q.version.value ≥ 5 → ∃ propertyLength written next, block = propertyLength ++ written ∧
      Reads decodeVariableLength propertyLength written.length ∧
      Reads (propertyBlock PubrelProperties.readProperty none) block next ∧ next.getD {} = q.properties)

/-- The size of what follows the fixed header. -/
def contentSize (q : CodesPacket) : ℕ :=
  2 + (if q.version.value ≥ 5 then (encodeVariableBytes q.properties.size).length + q.properties.size else 0) +
    q.codes.length

/-- Short strings, and a content whose length can be announced. -/
structure Encodable (q : CodesPacket) : Prop where
  properties : q.properties.Fits
  contentSize : q.contentSize < 2 ^ 28

/-- The property block that is written. -/
def block (q : CodesPacket) : Bytes :=
  if q.version.value ≥ 5 then encodeVariableBytes q.properties.written.length ++ q.properties.written else []

/-- What follows the fixed header. -/
def content (q : CodesPacket) : Bytes := be16Bytes q.packetId.value ++ (q.block ++ q.codes)

private theorem content_length (q : CodesPacket) : q.content.length = q.contentSize := by
  unfold content contentSize block
  split
  · simp only [List.length_append, be16Bytes_length, PubrelProperties.written_length]
    omega
  · simp only [List.length_append, be16Bytes_length, List.length_nil]
    omega

/-- The header announces the reason codes behind it. -/
theorem encodeWithCodes_eq (fits : q.properties.Fits) {count : ℕ} (all : q.codes.length = count) :
    encodeWithCodes q.firstByte q.version q.packetId count
        (putReasonAndUser q.properties.reasonString q.properties.userProperties) =
      .ok (q.firstByte :: encodeVariableBytes q.content.length ++ (be16Bytes q.packetId.value ++ q.block)) := by
  rw [content_length, ← all, encodeWithCodes, PubrelProperties.putReasonAndUser_eq fits, contentSize, block]
  by_cases five : q.version.value ≥ 5
  · have sum (digits size codes : ℕ) : digits + size + codes + 2 = 2 + (digits + size) + codes := by omega
    simp only [if_pos five, Outcome.ok_bind, Outcome.pure_eq, PubrelProperties.written_length, sum]
  · simp only [if_neg five, Outcome.ok_bind, Outcome.pure_eq, List.append_nil, Nat.add_comm 2]

private theorem encodeHeader_eq (fits : q.properties.Fits) :
    q.packet.encodeHeader =
      .ok (q.firstByte :: encodeVariableBytes q.content.length ++ (be16Bytes q.packetId.value ++ q.block)) := by
  cases q with
  | suback p => exact encodeWithCodes_eq fits (List.length_map _)
  | unsuback p => exact encodeWithCodes_eq fits (List.length_map _)

private theorem encodePayloadChunk_eq (q : CodesPacket) : q.packet.encodePayloadChunk = .ok (some q.codes) := by
  cases q <;> rfl

theorem encodeAll_eq (fits : q.properties.Fits) :
    Encoder.encodeAll q.packet = .ok (q.firstByte :: (encodeVariableBytes q.content.length ++ q.content)) := by
  rw [Encoder.encodeAll, encodeHeader_eq fits, encodePayloadChunk_eq]
  simp only [Outcome.ok_bind, Outcome.pure_eq, Option.getD_some, content, List.cons_append, List.append_assoc]

private theorem block_below (below : q.version.value < 5) : q.block = [] :=
  if_neg (UInt8.not_le.mpr below)

/-- The property block is delimited by its length and is read back. -/
theorem block_from_five (fits : q.Encodable) (five : q.version.value ≥ 5) :
    ∃ propertyLength written next, q.block = propertyLength ++ written ∧
      Reads decodeVariableLength propertyLength written.length ∧
      Reads (propertyBlock PubrelProperties.readProperty none) q.block next ∧ next.getD {} = q.properties := by
  have small := fits.contentSize
  rw [contentSize, if_pos five] at small
  have written : q.block = _ := if_pos five
  obtain ⟨next, read, same⟩ := PubrelProperties.block_reads_back fits.properties (by omega)
  rw [written]
  refine ⟨_, _, next, rfl, encodeVariableBytes_reads ?_, read, same⟩
  rw [PubrelProperties.written_length]
  omega

end CodesPacket

/-- Every SUBACK and UNSUBACK whose strings and whose content can be announced is encoded as a frame. -/
theorem codes_framed {q : CodesPacket} (fits : q.Encodable) :
    ∃ bytes, Encoder.encodeAll q.packet = .ok bytes ∧ q.Framed bytes := by
  have small : q.content.length < 2 ^ 28 := by
    rw [q.content_length]
    exact fits.contentSize
  exact ⟨_, CodesPacket.encodeAll_eq fits.properties, _, q.block, rfl, encodeVariableBytes_reads small,
    CodesPacket.block_below, CodesPacket.block_from_five fits⟩

/-- One filter is granted, the other refused, for a reason. -/
def grantedAndRefused : CodesPacket := .suback {
  packetId := ⟨7⟩
  subackProperties := some { reasonString := some ⟨"no"⟩, userProperties := some [⟨"k", "v"⟩] }
  reasonCodes := [.grantedQos1, .notAuthorized]
  protocolVersion := ⟨5⟩ }

private theorem grantedAndRefused_encodable : grantedAndRefused.Encodable where
  properties := PubrelProperties.explained_fits
  contentSize := by decide

theorem codes_framed_grantedAndRefused :
    ∃ bytes, Encoder.encodeAll grantedAndRefused.packet = .ok bytes ∧ grantedAndRefused.Framed bytes :=
  codes_framed grantedAndRefused_encodable

end Aqua
