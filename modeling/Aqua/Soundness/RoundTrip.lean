import Aqua.Proofs.PublishRoundTrip

/-! # PUBLISH through encoder and decoder

What `encode_all` writes for a PUBLISH, a decoder of the same protocol version emits again within three
polls, and it leaves what stands behind the packet.
-/

namespace Aqua

open Wire Wire.Reader

/-- A frame whose header is read back and whose payload is the rest is emitted in three polls. -/
theorem publish_frame_emitted (build : Build) (d : Decoder) (done : d.state = .done) {frame : Frame}
    {start headed : Publish} {header payload : Bytes}
    (first : packetOfFirstByte frame.first = .ok (.publish start))
    (body : frame.body = header ++ payload)
    (read : Reads (start.decodeVariableHeader build frame.body.length d.protocolVersion) header headed)
    (length : headed.payloadLength = payload.length) (blank : headed.payloadData = []) (s : Bytes) :
    (d.holding (frame.bytes ++ s)).pollUpTo build 3 =
      .ok (some (.publish { headed with payloadData := payload }),
        (d.afterFixedHeader (.publish start) frame.body.length []).afterPacket header.length s) := by
  have whole := read.start (payload ++ s)
  have moved := (Publish.decodeVariableHeader_announces whole).1
  apply Decoder.frame_emitted done first body read.map
  · rw [body]
    exact List.ne_nil_of_length_pos (by simp only [List.length_append]; omega)
  · cases payload with
    | nil => exact .inl ⟨rfl, by rw [← blank]⟩
    | cons byte rest =>
      refine .inr ⟨List.cons_ne_nil _ _, ?_⟩
      simp only [ControlPacket.decodePayload, Publish.decodePayload_append length, rewrap,
        Outcome.ok_bind]

private theorem normal_normal (properties : Option PublishProperties) :
    PublishProperties.normal (some (PublishProperties.normal properties)) =
      PublishProperties.normal properties := by
  have idempotent {α : Type} (list : Option (List α)) : repeated (repeated list) = repeated list := by
    rcases list with _ | _ | _ <;> rfl
  simp only [PublishProperties.normal, Option.getD_some, idempotent]

/-- A PUBLISH that fits on the wire is encoded, and a fresh decoder of the same version that holds
the encoding and any bytes behind it emits the same PUBLISH within three polls and keeps those
bytes. -/
theorem publish_round_trip (build : Build) (p : Publish) (fits : p.Encodable)
    (version : p.protocolVersion.value = 3 ∨ p.protocolVersion.value = 4 ∨
      p.protocolVersion.value = 5) (s : Bytes) :
    ∃ bytes, Encoder.encodeAll (.publish p) = .ok bytes ∧
      ∃ (out : Publish) (next : Decoder),
        ((Decoder.new.setProtocolVersion (some p.protocolVersion)).feed (bytes ++ s)).pollUpTo build 3 =
          .ok (some (.publish out), next) ∧
        (out.dup = p.dup ∧ out.qos = p.qos ∧ out.retain = p.retain) ∧
        out.topicName = p.topicName ∧ out.packetId = p.packetId ∧
        out.payloadLength = p.payloadLength ∧ out.payloadData = p.payloadData ∧
        (p.protocolVersion.value = 5 →
          PublishProperties.normal out.pubProperties = PublishProperties.normal p.pubProperties) ∧
        next.buf = s := by
  obtain ⟨frame, header, encoded, first, body, read⟩ := Publish.encodeAll_frame fits version
  have emitted := publish_frame_emitted build
    (Decoder.new.setProtocolVersion (some p.protocolVersion)) rfl first body (read build)
    fits.payloadLength rfl s
  refine ⟨frame.bytes, encoded, p.decoded, _, emitted, ⟨rfl, rfl, rfl⟩, rfl, rfl, rfl, rfl, ?_, rfl⟩
  intro five
  simp only [Publish.decoded, Publish.decodedProperties, if_pos five, normal_normal]

/-- A PUBLISH of version 5 with two kinds of properties. -/
def aliasedPublish : Publish where
  qos := .qos1
  topicName := ⟨"a"⟩
  pubProperties := some { topicAlias := some ⟨1⟩, userProperties := some [⟨"k", "v"⟩] }
  packetId := some ⟨7⟩
  payloadLength := 2
  payloadData := [0x68, 0x69]
  protocolVersion := ⟨5⟩

private theorem aliasedPublish_encodable : aliasedPublish.Encodable where
  topicName := by decide
  packetId := by decide
  payloadLength := rfl
  pubProperties := by
    rintro set ⟨⟩
    refine ⟨?_, nofun, nofun, ?_, nofun, nofun⟩
    · rintro alias_ ⟨⟩
      decide
    · rintro list ⟨⟩ property member
      rw [List.mem_singleton.mp member]
      decide
  remainingLength properties written := by
    have same : aliasedPublish.encodeProperties =
      .ok [0x0a, 0x23, 0x00, 0x01, 0x26, 0x00, 0x01, 0x6b, 0x00, 0x01, 0x76] := by decide
    cases same.symm.trans written
    decide

theorem publish_round_trip_aliased :
    ∃ bytes, Encoder.encodeAll (.publish aliasedPublish) = .ok bytes ∧
      ∃ (out : Publish) (next : Decoder),
        ((Decoder.new.setProtocolVersion (some ⟨5⟩)).feed (bytes ++ [0xc0])).pollUpTo ⟨true⟩ 3 =
          .ok (some (.publish out), next) ∧ out.packetId = some ⟨7⟩ ∧ next.buf = [0xc0] := by
  obtain ⟨bytes, encoded, out, next, emitted, _, _, id, _, _, _, left⟩ :=
    publish_round_trip ⟨true⟩ aliasedPublish aliasedPublish_encodable (by decide) [0xc0]
  exact ⟨bytes, encoded, out, next, emitted, id, left⟩

end Aqua
