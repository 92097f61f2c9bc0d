import Aqua.Proofs.ConnackBlock
import Aqua.Proofs.FieldWidth
import Aqua.Proofs.Workers
import Aqua.Soundness.Delimiting
import Aqua.Soundness.RoundTrip

/-! # The length of a forwarded message

The copy a subscriber gets may be longer than the message that came in: a packet identifier is added when QoS 0
is raised. The largest message that comes in has no room for it, and the encoder then writes a length field
that no decoder reads.
-/

namespace Aqua

open Wire Wire.Reader

/-- The size of a property set. -/
def PublishProperties.size (self : PublishProperties) : ℕ :=
  optionSize self.payloadFormatIndicator (fun _ => 2) +
  optionSize self.messageExpiryInterval (fun _ => 5) +
  optionSize self.topicAlias (fun _ => 3) +
  optionSize self.responseTopic (fun c => stringWidth c.value + 1) +
  optionSize self.correlationData (fun c => binaryWidth c.value + 1) +
  optionSize self.userProperties (fun c =>
    (c.map fun property => stringWidth property.key + stringWidth property.value + 1).sum) +
  optionSize self.subscriptionIdentifier (fun c =>
    (c.map fun id => (encodeVariableBytes id.value).length + 1).sum) +
  optionSize self.contentType (fun c => stringWidth c.value + 1)

/-- The size of the property block, which is there in version 5 only. -/
def Publish.blockWidth (self : Publish) : ℕ :=
  if self.protocolVersion = ⟨0x05⟩ then
    let size := optionSize self.pubProperties (·.size)
    (encodeVariableBytes size).length + size
  else 0

/-- The size of a message with this QoS: topic, identifier, property block and payload. -/
def Publish.widthAt (self : Publish) (qos : QoS) : ℕ :=
  stringWidth self.topicName.value + (if qos = .qos0 then 0 else 2) + self.blockWidth + self.payloadLength

private theorem PublishProperties.buildBytes_length (self : PublishProperties) :
    ∃ bytes, self.buildBytes = .ok bytes ∧ bytes.length = self.size := by
  refine ⟨_, rfl, ?_⟩
  simp only [size, stringWidth, binaryWidth, List.length_append, optionBytes_length, List.length_flatMap,
    List.length_cons, List.length_nil, be16Bytes_length, be32Bytes_length, putTruncated_length,
    Nat.zero_add, Nat.reduceAdd, Nat.add_comm 2, Nat.add_assoc]

theorem Publish.encodeProperties_length (self : Publish) :
    ∃ properties, self.encodeProperties = .ok properties ∧ properties.length = self.blockWidth := by
  unfold encodeProperties blockWidth
  split
  · cases known : self.pubProperties with
    | none => exact ⟨_, rfl, by simp only [List.length_append]; rfl⟩
    | some set =>
      obtain ⟨bytes, built, length⟩ := set.buildBytes_length
      refine ⟨encodeVariableBytes bytes.length ++ bytes, by simp only [built]; rfl, ?_⟩
      rw [List.length_append, length]
      rfl
  · exact ⟨[], rfl, rfl⟩

/-- An error, or a frame with a length field that is read as the number of bytes behind it. -/
def Readable (encoded : Result Bytes) : Prop :=
  (∃ e, encoded = .err e) ∨ ∃ bytes, encoded = .ok bytes ∧ SelfDelimiting bytes

private theorem readable_ok_iff {bytes : Bytes} : Readable (.ok bytes) ↔ SelfDelimiting bytes := by
  constructor
  · rintro (⟨e, wrong⟩ | ⟨_, same, delimiting⟩)
    · cases wrong
    · cases same
      exact delimiting
  · exact fun delimiting => .inr ⟨bytes, rfl, delimiting⟩

namespace Broker

/-- The copy is written behind the length of what it contains. -/
theorem deliveryMsg_encodeAll {pubpacket : Publish}
    (payload : pubpacket.payloadData.length = pubpacket.payloadLength) (option : SubscribeOption)
    (draw : Fin 1001) :
    ∃ first body, Encoder.encodeAll (.publish (deliveryMsg pubpacket option draw)) =
      .ok (first :: encodeVariableBytes (pubpacket.widthAt option.qos) ++ body) ∧
        body.length = pubpacket.widthAt option.qos := by
  have identified : (deliveryMsg pubpacket option draw).packetId = none ↔ option.qos = .qos0 :=
    deliveryMsg_packetId_none_iff
  obtain ⟨ids, writtenId, idWidth, _⟩ := Publish.encodePacketId_reads identified
  have idLength : ids.length = if option.qos = .qos0 then 0 else 2 := idWidth
  obtain ⟨properties, written, width⟩ := (deliveryMsg pubpacket option draw).encodeProperties_length
  have block : properties.length = pubpacket.blockWidth := width
  have total : (putTruncated (stringBytes pubpacket.topicName.value) ++ ids ++ properties).length +
      pubpacket.payloadLength = pubpacket.widthAt option.qos := by
    simp only [Publish.widthAt, stringWidth, List.length_append, putTruncated_length, idLength, block]
    omega
  refine ⟨(deliveryMsg pubpacket option draw).firstByte,
    putTruncated (stringBytes pubpacket.topicName.value) ++ ids ++ properties ++ pubpacket.payloadData, ?_, ?_⟩
  · rw [← total]
    exact Publish.encodeAll_eq writtenId written
  · rw [← total, ← payload]
    exact List.length_append

/-- The copy of an emitted message is readable exactly if what it contains fits in the length field. -/
theorem delivery_readable_iff {p : Publish} (emitted : p.Emitted) (version : ProtocolVersion)
    (option : SubscribeOption) (draw : Fin 1001) :
    Readable (Encoder.encodeAll
      (.publish (deliveryMsg { p with protocolVersion := version } option draw))) ↔
    ({ p with protocolVersion := version } : Publish).widthAt option.qos < 2 ^ 28 := by
  have payload : ({ p with protocolVersion := version } : Publish).payloadData.length = p.payloadLength :=
    emitted.sound.payload
  obtain ⟨first, body, encoded, length⟩ := deliveryMsg_encodeAll payload option draw
  rw [encoded, readable_ok_iff, selfDelimiting_iff]
  exact and_iff_left length

end Broker

/-- What repeated polls emit is emitted by one poll of a reachable decoder. -/
theorem Decoder.Reachable.emits_once {build : Build} {d next : Decoder} {packet : ControlPacket} {calls : ℕ}
    (reachable : d.Reachable build) (emitted : d.pollUpTo build calls = .ok (some packet, next)) :
    ∃ last : Decoder, last.Reachable build ∧ last.pollDecode build = .ok (some packet, next) := by
  induction calls generalizing d with
  | zero => cases emitted
  | succ calls ih =>
    obtain ⟨⟨ready, after⟩, polled, rest⟩ := Outcome.bind_eq_ok_iff.mp emitted
    cases ready with
    | some packet' =>
      cases rest
      exact ⟨d, reachable, polled⟩
    | none => exact ih (reachable.poll polled) rest

/-- Every message that fits on the wire is emitted by some decoder. -/
theorem Publish.Encodable.emitted {p : Publish} (fits : p.Encodable) (version : p.protocolVersion.value = 3 ∨
    p.protocolVersion.value = 4 ∨ p.protocolVersion.value = 5) : p.decoded.Emitted := by
  obtain ⟨frame, header, _, first, body, read⟩ := Publish.encodeAll_frame fits version
  have polled := publish_frame_emitted ⟨true⟩ (Decoder.new.setProtocolVersion (some p.protocolVersion)) rfl first
    body (read ⟨true⟩) fits.payloadLength rfl []
  have fed : ((Decoder.new.setProtocolVersion (some p.protocolVersion)).feed (frame.bytes ++ [])).Reachable
      ⟨true⟩ := (Decoder.Reachable.new.setProtocolVersion _).feed _
  obtain ⟨last, reachable, emits⟩ := fed.emits_once polled
  exact ⟨⟨true⟩, last, _, reachable, emits⟩

/-- A message of version 3.1.1 with QoS 0 and an empty topic. -/
def anonymous (payload : Bytes) : Publish where
  payloadLength := payload.length
  payloadData := payload
  protocolVersion := ⟨4⟩

theorem anonymous_emitted {payload : Bytes} (small : payload.length + 2 < 2 ^ 28) :
    (anonymous payload).decoded.Emitted := by
  have fits : (anonymous payload).Encodable := by
    refine ⟨Nat.two_pow_pos 16, iff_of_true rfl rfl, rfl, nofun, ?_⟩
    intro properties written
    cases written
    have total : 2 + 0 + 0 + 0 + payload.length < 2 ^ 28 := by omega
    exact total
  exact fits.emitted (.inr (.inl rfl))

theorem Broker.delivery_readable_iff_anonymous :
    Readable (Encoder.encodeAll (.publish (Broker.deliveryMsg
      { (anonymous [0x58]).decoded with protocolVersion := ⟨4⟩ } { qos := .qos1 } 7))) ↔
    ({ (anonymous [0x58]).decoded with protocolVersion := ⟨4⟩ } : Publish).widthAt .qos1 < 2 ^ 28 :=
  Broker.delivery_readable_iff (anonymous_emitted (by decide)) ⟨4⟩ { qos := .qos1 } 7

/-- The largest message with QoS 0 has no room for an identifier. -/
theorem largest_message_unreadable : ¬ ∀ (p : Publish) (version : ProtocolVersion) (option : SubscribeOption)
    (draw : Fin 1001), p.Emitted →
    Readable (Encoder.encodeAll
      (.publish (Broker.deliveryMsg { p with protocolVersion := version } option draw))) := by
  intro claim
  obtain ⟨payload, length⟩ : ∃ payload : Bytes, payload.length = 2 ^ 28 - 3 :=
    ⟨List.replicate _ 0x00, List.length_replicate⟩
  have small : payload.length + 2 < 2 ^ 28 := by omega
  have readable := claim _ ⟨4⟩ { qos := .qos1 } 7 (anonymous_emitted small)
  have announced : ({ (anonymous payload).decoded with protocolVersion := ⟨4⟩ } : Publish).payloadData.length =
    payload.length := rfl
  obtain ⟨first, body, encoded, _⟩ := Broker.deliveryMsg_encodeAll announced { qos := .qos1 } 7
  rw [encoded, readable_ok_iff, selfDelimiting_iff] at readable
  have fits : 2 + 0 + 2 + 0 + payload.length < 2 ^ 28 := readable.left
  omega

end Aqua
