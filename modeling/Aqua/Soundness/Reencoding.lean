import Aqua.Proofs.EmittedPublish
import Aqua.Proofs.FieldSpells
import Aqua.Proofs.MinimalLength
import Aqua.Proofs.PublishRoundTrip

/-! # Encoding what was decoded

A PUBLISH frame of version 3.1.1 with the shortest length field is what the encoder writes for the packet the
decoder made of it. Nothing the decoder accepts is lost in the packet.
-/

namespace Aqua

open Wire Wire.Reader

/-- No shorter field announces the body. -/
def Frame.Minimal (frame : Frame) : Prop :=
  ∀ field, decodeVariableLength field 0 = .ok (frame.body.length, field.length) →
    frame.lengthField.length ≤ field.length

/-- The shortest length field is the encoder's. -/
theorem Frame.Minimal.lengthField_eq {frame : Frame} (minimal : frame.Minimal) :
    frame.lengthField = encodeVariableBytes frame.body.length := by
  obtain ⟨small, same | longer⟩ := lengthField_cases frame.announced
  · exact same
  · have short := minimal _ (encodeVariableBytes_announces small)
    exact absurd longer (Nat.not_lt.mpr short)

namespace Publish

variable {build : Build} {buf : Bytes} {pos next size remainingLength : ℕ}

/-- Type, DUP, QoS and RETAIN are written back as the byte they were read from. -/
theorem firstByte_of_packet {first : UInt8} {p : Publish} (kind : packetOfFirstByte first = .ok (.publish p)) :
    p.firstByte = first := by
  have all : ∀ d : Fin 256, ∀ dup retain : Bool, ∀ qos ∈ [QoS.qos0, .qos1, .qos2],
      packetOfFirstByte (UInt8.ofNat d) = .ok (.publish { qos, dup := ⟨dup⟩, retain := ⟨retain⟩ }) →
        firstByte { qos, dup := ⟨dup⟩, retain := ⟨retain⟩ } = UInt8.ofNat d := by decide +kernel
  cases packetOfFirstByte_fresh kind with
  | publish dup qos retain =>
    have listed : qos ∈ [QoS.qos0, .qos1, .qos2] := by cases qos <;> decide
    exact forall_byte (P := fun first => ∀ dup retain : Bool, ∀ qos ∈ [QoS.qos0, .qos1, .qos2],
      packetOfFirstByte first = .ok (.publish { qos, dup := ⟨dup⟩, retain := ⟨retain⟩ }) →
        firstByte { qos, dup := ⟨dup⟩, retain := ⟨retain⟩ } = first) all first dup.value retain.value qos listed kind

/-- The identifier that was read is written as the bytes it was read from. -/
theorem readPacketId_written {qos : QoS} {packetId read : Option PacketId}
    (reads : Publish.readPacketId qos packetId buf pos = .ok (read, next)) (inside : pos ≤ buf.length) :
    ∃ ids, Stands buf pos ids next ∧
      ∀ p : Publish, p.qos = qos → p.packetId = read → p.encodePacketId = .ok ids := by
  unfold Publish.readPacketId at reads
  split at reads
  · next has =>
    obtain ⟨_, mid, enough, reads⟩ := bind_eq_ok_iff.mp reads
    obtain ⟨id, after, inner, same⟩ := bind_eq_ok_iff.mp reads
    cases same
    obtain rfl : mid = pos := by
      unfold require at enough
      split at enough
      · cases enough
      · cases enough
        rfl
    obtain ⟨value, number, rfl⟩ := map_eq_ok_iff.mp inner
    obtain ⟨_, rfl, stands⟩ := Spells.u16.sound number inside
    refine ⟨_, stands, fun p level known => ?_⟩
    have acknowledged : p.qos ≠ .qos0 := by
      rintro zero
      rw [level.symm.trans zero] at has
      simp at has
    simp only [encodePacketId, if_pos acknowledged, known, Outcome.unwrap_some, Outcome.ok_bind,
      Outcome.pure_eq]
  · next hasNone =>
    cases reads
    refine ⟨[], .nil inside, fun p level _ => if_neg (not_not.mpr ?_)⟩
    rw [level]
    cases qos with
    | qos0 => rfl
    | qos1 => simp at hasNone
    | qos2 => simp at hasNone

/-- Below version 5 the variable header is the topic and the identifier. -/
theorem decodeVariableHeader_written {self headed : Publish} {version : ProtocolVersion}
    (below : ¬ version.value ≥ 5) (header : self.decodeVariableHeader build remainingLength (some version) buf 0 =
      .ok (headed, size)) :
    ∃ ids, Stands buf 0 (putTruncated (stringBytes headed.topicName.value) ++ ids) size ∧
      headed.encodePacketId = .ok ids ∧ build.sub remainingLength size = .ok headed.payloadLength ∧
      headed.firstByte = self.firstByte ∧ headed.payloadData = self.payloadData := by
  obtain ⟨_, _, _, topic, id, known, props, announced, whole⟩ := Publish.decodeVariableHeader_fields header
  cases known
  rw [Publish.readProperties, if_neg below] at props
  obtain ⟨_, rfl⟩ := Prod.mk.inj (Outcome.ok.inj props)
  obtain ⟨_, ⟨name, same, _, rfl⟩, front⟩ := (stringField_spells _).sound topic (Nat.zero_le _)
  obtain ⟨ids, behind, written⟩ := readPacketId_written id front.within
  rw [← same]
  exact ⟨ids, front.append behind, written headed (by rw [whole]) rfl, announced, by rw [whole]; rfl, by rw [whole]⟩

/-- A message that has the parts of the body is written as the frame. -/
theorem encodeAll_body {frame : Frame} {p : Publish} {ids : Bytes} (minimal : frame.Minimal)
    (first : p.firstByte = frame.first)
    (stands : Stands frame.body 0 (putTruncated (stringBytes p.topicName.value) ++ ids) size)
    (writtenId : p.encodePacketId = .ok ids) (properties : p.encodeProperties = .ok [])
    (length : p.payloadLength = frame.body.length - size) (data : p.payloadData = frame.body.drop size) :
    Encoder.encodeAll (.publish p) = .ok frame.bytes := by
  have whole := stands.start
  have wide := stands.length
  have within := stands.within
  have total : (putTruncated (stringBytes p.topicName.value) ++ ids).length + p.payloadLength =
      frame.body.length := by omega
  rw [encodeAll_eq writtenId properties, List.append_nil, total, first, data, ← whole, ← minimal.lengthField_eq]
  rfl

/-- Re-encoding a PUBLISH of version 3.1.1 gives the frame it was decoded from, if that has the shortest length
field. -/
theorem reencoded (build : Build) (d : Decoder) (done : d.state = .done) {version : ProtocolVersion}
    (known : d.protocolVersion = some version) (older : version.value = 3 ∨ version.value = 4)
    (frame : Frame) (minimal : frame.Minimal) {p : Publish} {next : Decoder}
    (emits : (d.holding frame.bytes).Emits build (.publish p) next) (other : ProtocolVersion)
    (notFive : other.value ≠ 5) :
    Encoder.encodeAll (.publish { p with protocolVersion := other }) = .ok frame.bytes := by
  have below : ¬ version.value ≥ 5 := by
    rcases older with three | four
    · rw [three]; decide
    · rw [four]; decide
  rw [← List.append_nil frame.bytes] at emits
  obtain ⟨start, kind, outcome⟩ := (Decoder.emits_frame_iff done frame []).mp emits
  obtain ⟨_, headed, size, header, ready⟩ := Decoder.bodyOutcome_eq_some_iff.mp outcome
  simp only [Decoder.afterFixedHeader, List.append_nil, known] at header ready
  have fresh := packetOfFirstByte_fresh kind
  have properties : ({ p with protocolVersion := other } : Publish).encodeProperties = .ok [] :=
    if_neg fun five => notFive (congrArg ProtocolVersion.value five)
  rcases ready with ⟨whole, rfl, rfl⟩ | ⟨partly, some_payload, rest, payload, rfl⟩
  · obtain ⟨self, rfl, _, noPayload, inner⟩ := fresh.of_publish header
    obtain ⟨ids, stands, writtenId, announced, first, data⟩ := decodeVariableHeader_written below inner
    refine encodeAll_body minimal (first.trans (firstByte_of_packet kind)) stands writtenId properties ?_ ?_
    · exact Build.sub_of_le announced stands.within
    · rw [whole, List.drop_length]
      exact data.trans noPayload
  · obtain ⟨headed, rfl, _, _, _⟩ := ControlPacket.decodePayload_publish payload
    obtain ⟨self, rfl, _, _, inner⟩ := fresh.of_publish header
    obtain ⟨ids, stands, writtenId, announced, first, _⟩ := decodeVariableHeader_written below inner
    have length := Build.sub_of_le announced stands.within
    obtain ⟨_, taken, same⟩ := rewrap_eq_ok_iff.mp payload
    cases same
    unfold Publish.decodePayload at taken
    split at taken
    · cases taken
    cases taken
    refine encodeAll_body minimal (first.trans (firstByte_of_packet kind)) stands writtenId properties length ?_
    rw [length, ← List.length_drop, List.take_length]

private theorem againFrame_announced : decodeVariableLength [0x06] 0 = .ok (6, 1) := rfl

/-- A retained PUBLISH that is delivered again, with one byte of payload. -/
def againFrame : Frame where
  first := 0x3b
  lengthField := [0x06]
  body := [0x00, 0x01, 0x61, 0x00, 0x07, 0x58]
  announced := againFrame_announced

def again : Publish where
  dup := ⟨true⟩
  qos := .qos1
  retain := ⟨true⟩
  topicName := ⟨"a"⟩
  packetId := some ⟨7⟩
  payloadLength := 1
  payloadData := [0x58]

private theorem againFrame_minimal : againFrame.Minimal := by
  intro field announced
  exact (decodeVariableLength_progresses announced).1

private theorem againFrame_emits : Decoder.Emits ⟨true⟩ ((Decoder.new.setProtocolVersion (some ⟨4⟩)).holding
    againFrame.bytes) (.publish again) (((Decoder.new.setProtocolVersion (some ⟨4⟩)).afterFixedHeader
      (.publish { dup := ⟨true⟩, qos := .qos1, retain := ⟨true⟩ }) 6 []).afterPacket 5 []) :=
  ⟨3, by decide⟩

theorem reencoded_again : Encoder.encodeAll (.publish { again with protocolVersion := ⟨4⟩ }) =
    .ok againFrame.bytes :=
  reencoded ⟨true⟩ (Decoder.new.setProtocolVersion (some ⟨4⟩)) rfl rfl (.inr rfl) againFrame againFrame_minimal
    againFrame_emits ⟨4⟩ (by decide)

end Publish

end Aqua
