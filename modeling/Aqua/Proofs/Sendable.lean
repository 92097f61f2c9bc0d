import Aqua.Proofs.PoolRuns
import Aqua.Proofs.Writers
import Aqua.Soundness.CodesFraming
import Aqua.Soundness.HandlerAssumptions
import Aqua.Wire.Delimited

/-! # Packets that are sent as frames

What the services answer with carries no properties of its own, and a message carries those it was published
with. So every packet that is sent is encoded, whatever its version: a first byte, the length of the rest, and
the rest. Frames tell their own sizes.
-/

namespace Aqua

open Wire Wire.Reader Runtime

/-- A packet that is encoded as a first byte, the length of the rest, and the rest. -/
def ControlPacket.Sendable (self : ControlPacket) : Prop :=
  ∃ first body, Encoder.encodeAll self = .ok (first :: (encodeVariableBytes body.length ++ body))

/-- A packet without a payload. -/
theorem ControlPacket.sendable_of_header {self : ControlPacket} {first : UInt8}
    (payload : self.encodePayloadChunk = .ok none)
    (header : ∃ body, self.encodeHeader = .ok (first :: (encodeVariableBytes body.length ++ body))) :
    self.Sendable := by
  obtain ⟨body, written⟩ := header
  refine ⟨first, body, ?_⟩
  simp only [Encoder.encodeAll, written, payload, Outcome.ok_bind, Outcome.pure_eq, Option.getD_none,
    List.append_nil]

theorem Encodings.of_sendable (packets : List ControlPacket) (sendable : ∀ packet ∈ packets, packet.Sendable) :
    ∃ codes, Encodings packets codes := by
  induction packets with
  | nil => exact ⟨[], .nil⟩
  | cons packet packets ih =>
    rw [List.forall_mem_cons] at sendable
    obtain ⟨first, body, encoded⟩ := sendable.1
    obtain ⟨codes, others⟩ := ih sendable.2
    exact ⟨_, .cons encoded others⟩

/-- The size of a packet, as the field behind its first byte tells it. -/
def frameSize? (bytes : Bytes) : Option ℕ :=
  match decodeVariableLength bytes 1 with
  | .ok (remaining, next) => some (next + remaining)
  | _ => none

theorem frameSize?_eq_some_iff {bytes : Bytes} {size : ℕ} : frameSize? bytes = some size ↔
    ∃ remaining next, decodeVariableLength bytes 1 = .ok (remaining, next) ∧ size = next + remaining := by
  unfold frameSize?
  split
  · next remaining next read =>
    constructor
    · intro told
      cases told
      exact ⟨remaining, next, read, rfl⟩
    · rintro ⟨remaining', next', same, rfl⟩
      cases read.symm.trans same
      rfl
  · next other =>
    refine iff_of_false (fun wrong => by cases wrong) ?_
    rintro ⟨remaining, next, read, _⟩
    exact other remaining next read

/-- What is sent of a packet tells its size, unless that is too large for the length field. -/
theorem frame_delimited (first : UInt8) {body : Bytes} (small : body.length < 2 ^ 28) :
    Delimited frameSize? (first :: (encodeVariableBytes body.length ++ body)) where
  ne_nil := List.cons_ne_nil _ _
  whole := by
    intro rest
    have read := encodeVariableBytes_reads small [first] (body ++ rest)
    rw [frameSize?_eq_some_iff]
    refine ⟨body.length, 1 + (encodeVariableBytes body.length).length, ?_, ?_⟩
    · rw [List.cons_append, List.append_assoc]
      exact read
    · simp only [List.length_cons, List.length_append]
      omega
  part := by
    rintro part ⟨rest, whole⟩ size told
    obtain ⟨remaining, next, read, rfl⟩ := frameSize?_eq_some_iff.mp told
    have inside := (decodeVariableLength_progresses read).2
    have again : decodeVariableLength (part ++ rest) 1 = .ok (remaining, next) := by
      apply decodeVariableLength_lawful.stable read
      rw [List.take_append_of_le_length inside]
    have field := encodeVariableBytes_reads small [first] body
    rw [whole] at again
    cases again.symm.trans field
    simp only [List.length_cons, List.length_append, List.length_nil]
    omega

theorem frameSize?_nil : frameSize? [] = none := rfl

/-- What follows the length field of an encoded packet is not too large for the field. -/
def FitsLengthField (code : Bytes) : Prop :=
  ∀ first body, code = first :: (encodeVariableBytes body.length ++ body) → body.length < 2 ^ 28

theorem fitsLengthField_of_length {code : Bytes} (short : code.length < 2 ^ 28) : FitsLengthField code := by
  rintro first body rfl
  simp only [List.length_cons, List.length_append] at short
  omega

theorem Publish.Sound.sendable {p : Publish} (sound : p.Sound) : (ControlPacket.publish p).Sendable := by
  obtain ⟨ids, writtenId, _, _⟩ := Publish.encodePacketId_reads sound.packetId
  obtain ⟨properties, written, _⟩ := p.encodeProperties_length
  have total : ((putTruncated (stringBytes p.topicName.value) ++ ids ++ properties) ++ p.payloadData).length =
      (putTruncated (stringBytes p.topicName.value) ++ ids ++ properties).length + p.payloadLength := by
    rw [List.length_append, sound.payload]
  refine ⟨p.firstByte, putTruncated (stringBytes p.topicName.value) ++ ids ++ properties ++ p.payloadData, ?_⟩
  rw [Publish.encodeAll_eq writtenId written, total]

theorem Pingresp.sendable (p : Pingresp) : (ControlPacket.pingresp p).Sendable := ⟨0b11010000, [], rfl⟩

/-- A CONNACK without properties; from version 5 on it has an empty property block. -/
theorem Connack.sendable {p : Connack} (bare : p.connackProperties = none) :
    (ControlPacket.connack p).Sendable := by
  have none_written : encodeVariableBytes 0 = [0x00] := by decide
  by_cases five : p.version = ⟨0x05⟩
  · refine ⟨0b00100000, [if p.sessionPresent then 0x01 else 0x00, p.connectReason.toByte, 0x00], ?_⟩
    simp only [Encoder.encodeAll, ControlPacket.encodeHeader, Connack.encodeHeader, bare, if_pos five,
      ControlPacket.encodePayloadChunk, Connack.encodePayloadChunk, Outcome.ok_bind, Outcome.pure_eq,
      Option.getD_none, List.append_nil, List.length_nil, none_written]
    rfl
  · refine ⟨0b00100000, [if p.sessionPresent then 0x01 else 0x00, p.connectReason.toByte], ?_⟩
    simp only [Encoder.encodeAll, ControlPacket.encodeHeader, Connack.encodeHeader, if_neg five,
      ControlPacket.encodePayloadChunk, Connack.encodePayloadChunk, Outcome.ok_bind, Outcome.pure_eq,
      Option.getD_none, List.append_nil]
    rfl

theorem CodesPacket.sendable {q : CodesPacket} (fits : q.properties.Fits) : q.packet.Sendable :=
  ⟨_, _, CodesPacket.encodeAll_eq fits⟩

theorem PubrelProperties.fits_empty : PubrelProperties.Fits {} :=
  ⟨fun _ wrong => absurd wrong (Option.not_mem_none _), List.forall_mem_nil _⟩

/-- A SUBACK without properties. -/
theorem Suback.sendable {p : Suback} (bare : p.subackProperties = none) : (ControlPacket.suback p).Sendable := by
  refine CodesPacket.sendable (q := .suback p) ?_
  simp only [CodesPacket.properties, bare]
  exact PubrelProperties.fits_empty

/-- An UNSUBACK without properties. -/
theorem Unsuback.sendable {p : Unsuback} (bare : p.unsubackProperties = none) :
    (ControlPacket.unsuback p).Sendable := by
  refine CodesPacket.sendable (q := .unsuback p) ?_
  simp only [CodesPacket.properties, bare]
  exact PubrelProperties.fits_empty

section Acknowledgements

variable {first : UInt8} {version : ProtocolVersion} {packetId : PacketId} {reasonCode : Option UInt8}
  {properties : Result Bytes}

/-- The plan for a reason code and no properties. -/
theorem AckPlan.full_nil : AckPlan.full (.ok []) = .ok ⟨[], [0x00], 4⟩ := by
  have none_written : encodeVariableBytes 0 = [0x00] := by decide
  simp only [AckPlan.full, Outcome.ok_bind, Outcome.pure_eq, List.length_nil, none_written, List.length_singleton]

/-- PUBACK and PUBREC without properties. -/
theorem encodeByReason_bare (empty : properties = .ok []) : ∃ body,
    encodeByReason first version packetId reasonCode properties =
      .ok (first :: (encodeVariableBytes body.length ++ body)) := by
  by_cases five : version.value ≥ 5
  · cases reasonCode with
    | none => exact ⟨be16Bytes packetId.value, by simp only [encodeByReason, if_pos five]; rfl⟩
    | some reason =>
      refine ⟨be16Bytes packetId.value ++ [reason, 0x00], ?_⟩
      simp only [encodeByReason, if_pos five, Option.isSome_some, if_true, empty, AckPlan.full_nil]
      rfl
  · refine ⟨be16Bytes packetId.value, ?_⟩
    simp only [encodeByReason, if_neg five]
    rfl

/-- PUBREL and PUBCOMP without properties, where a missing reason code is omitted. -/
theorem encodeByOmit_bare {omitted : Bool} (empty : properties = .ok [])
    (missing : reasonCode = none → omitted = true) : ∃ body,
    encodeByOmit first version packetId reasonCode omitted properties =
      .ok (first :: (encodeVariableBytes body.length ++ body)) := by
  by_cases full : version.value ≥ 5 ∧ ¬ omitted
  · cases reasonCode with
    | none => exact absurd (missing rfl) full.2
    | some reason =>
      refine ⟨be16Bytes packetId.value ++ [reason, 0x00], ?_⟩
      simp only [encodeByOmit, if_pos full, empty, AckPlan.full_nil]
      rfl
  · refine ⟨be16Bytes packetId.value, ?_⟩
    simp only [encodeByOmit, if_neg full]
    rfl

end Acknowledgements

theorem Puback.sendable {p : Puback} (bare : p.pubackProperties = none) : (ControlPacket.puback p).Sendable :=
  ControlPacket.sendable_of_header rfl (encodeByReason_bare (by rw [bare]; rfl))

theorem Pubrec.sendable {p : Pubrec} (bare : p.pubrecProperties = none) : (ControlPacket.pubrec p).Sendable :=
  ControlPacket.sendable_of_header rfl (encodeByReason_bare (by rw [bare]; rfl))

theorem Pubrel.sendable {p : Pubrel} (bare : p.pubrelProperties = none) : (ControlPacket.pubrel p).Sendable := by
  refine ControlPacket.sendable_of_header rfl (encodeByOmit_bare (by rw [bare]; rfl) fun none => ?_)
  rw [decide_eq_true_iff]
  exact ⟨Option.map_eq_none_iff.mp none, bare⟩

theorem Pubcomp.sendable {p : Pubcomp} (bare : p.pubcompProperties = none) : (ControlPacket.pubcomp p).Sendable := by
  refine ControlPacket.sendable_of_header rfl (encodeByOmit_bare (by rw [bare]; rfl) fun none => ?_)
  rw [decide_eq_true_iff]
  exact ⟨Option.map_eq_none_iff.mp none, bare⟩

/-- A single packet is written unless it is none. -/
theorem written_new {packet : ControlPacket} {Q : ControlPacket → Prop}
    (own : packet ≠ .noOperation → (∀ p, packet ≠ .disconnect p) → Q packet) :
    ∀ other ∈ written (Response.new packet).packets, Q other := by
  intro other member
  obtain rfl := List.mem_singleton.mp (mem_of_mem_written member)
  refine own ?_ ?_
  · rintro rfl
    cases member
  · rintro p rfl
    cases member

/-- Every packet of an answer is sendable if the messages kept are. -/
theorem Broker.handle_sendable {self : Broker} {mqttId : String} {packet : ControlPacket} {res : Response}
    (keeps : self.Keeps Publish.Sound) (answers : (self.handle mqttId packet).1 = .ok res) :
    ∀ other ∈ written res.packets, other.Sendable := by
  cases packet with
  | connect p => cases answers
  | pingreq p =>
    cases answers
    exact written_new fun _ _ => Pingresp.sendable _
  | subscribe p =>
    have answered := keeps.answer answers
    simp only [handle, onSubscribe] at answers
    split at answers
    · cases answers
      intro other member
      rcases List.mem_cons.mp (mem_of_mem_written member) with rfl | among
      · exact Suback.sendable rfl
      · obtain ⟨message, kept, rfl⟩ := List.mem_map.mp among
        exact (answered message (List.mem_cons_of_mem _ among)).sendable
    · cases answers
  | publish p =>
    simp only [handle, onPublish] at answers
    split at answers
    · cases answers
    · cases answers
    · cases answers
      exact written_new fun _ _ => Pubrec.sendable rfl
    · split at answers
      · cases answers
        exact written_new fun _ _ => Puback.sendable rfl
      · cases answers
        exact written_new fun other _ => absurd rfl other
  | pubrel p =>
    cases answers
    exact written_new fun _ _ => Pubcomp.sendable rfl
  | pubrec p =>
    cases answers
    exact written_new fun _ _ => Pubrel.sendable rfl
  | _ =>
    cases answers
    exact written_new fun other _ => absurd rfl other

/-- Every packet a channel of a reachable pool has accepted is sendable. -/
theorem Pool.Reachable.sendable {build : Build} {self : Pool} (reachable : self.Reachable build) :
    self.Holds Publish.Sound (fun _ msg => msg.Sound) fun _ packet => packet.Sendable := by
  apply reachable.holds
  intro pool reachable holds
  refine ⟨?_, ?_, fun _ _ _ sound _ => sound.sendable, ?_, ?_⟩
  · intro clientId p _ phase _
    exact ((reachable.sound.server.clients clientId).received p phase).withVersion _
  · intro task draws sound send member
    exact sound.copies (Broker.mem_sendsOf member).1
  · intro clientId req res _ _ accepts
    refine Connack.sendable ?_
    cases req with
    | connect p =>
      simp only [Broker.onConnect] at accepts
      split at accepts
      · cases accepts
        rfl
      · cases accepts
    | _ => cases accepts
  · intro clientId req res _ _ answers
    exact Broker.handle_sendable holds.messages answers

end Aqua
