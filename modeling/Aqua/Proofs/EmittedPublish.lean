import Aqua.Proofs.Layout
import Aqua.Proofs.PacketGrammar
import Aqua.Soundness.Progress

/-! # The PUBLISH packets a decoder emits

The handlers of the broker look at `payload_length` and rely on the packet identifier. A decoder emits
only messages whose payload has that length, and that have an identifier unless their QoS is 0.
-/

namespace Aqua

open Wire Wire.Reader

/-- What the handlers assume of a message. -/
structure Publish.Sound (p : Publish) : Prop where
  payload : p.payloadData.length = p.payloadLength
  packetId : p.packetId = none ↔ p.qos = .qos0

theorem Publish.Sound.payloadLength_ne_zero {p : Publish} (sound : p.Sound) :
    p.payloadLength ≠ 0 ↔ p.payloadData ≠ [] := by
  rw [← sound.payload, ne_eq, List.length_eq_zero_iff]

variable {build : Build}

theorem Publish.readPacketId_isSome {qos : QoS} {packetId read : Option PacketId} {buf : Bytes}
    {pos next : ℕ} (reads : Publish.readPacketId qos packetId buf pos = .ok (read, next))
    (unset : packetId = none) : read = none ↔ qos = .qos0 := by
  unfold Publish.readPacketId at reads
  split at reads
  · next has =>
    obtain ⟨_, _, _, reads⟩ := bind_eq_ok_iff.mp reads
    obtain ⟨id, _, _, same⟩ := bind_eq_ok_iff.mp reads
    cases same
    apply iff_of_false (by simp)
    rintro rfl
    simp at has
  · next hasNone =>
    cases reads
    apply iff_of_true unset
    cases qos with
    | qos0 => rfl
    | qos1 => simp at hasNone
    | qos2 => simp at hasNone

/-- The variable header keeps what the first byte said and has read no payload yet. -/
theorem Publish.decodeVariableHeader_sound {self headed : Publish} {remainingLength size : ℕ}
    {protocolVersion : Option ProtocolVersion} {buf : Bytes}
    (header : self.decodeVariableHeader build remainingLength protocolVersion buf 0 =
      .ok (headed, size)) (unset : self.packetId = none) :
    (headed.packetId = none ↔ headed.qos = .qos0) ∧ headed.payloadData = self.payloadData := by
  obtain ⟨_, _, _, _, id, _, _, _, whole⟩ := Publish.decodeVariableHeader_fields header
  rw [whole]
  exact ⟨Publish.readPacketId_isSome id unset, rfl⟩

/-- Both packets are of one type, and of one that is decoded. -/
inductive ControlPacket.SameType : ControlPacket → ControlPacket → Prop
  | connect (p q : Connect) : SameType (.connect p) (.connect q)
  | publish (p q : Publish) : SameType (.publish p) (.publish q)
  | puback (p q : Puback) : SameType (.puback p) (.puback q)
  | pubrec (p q : Pubrec) : SameType (.pubrec p) (.pubrec q)
  | pubrel (p q : Pubrel) : SameType (.pubrel p) (.pubrel q)
  | pubcomp (p q : Pubcomp) : SameType (.pubcomp p) (.pubcomp q)
  | subscribe (p q : Subscribe) : SameType (.subscribe p) (.subscribe q)
  | unsubscribe (p q : Unsubscribe) : SameType (.unsubscribe p) (.unsubscribe q)
  | pingreq (p q : Pingreq) : SameType (.pingreq p) (.pingreq q)
  | disconnect (p q : Disconnect) : SameType (.disconnect p) (.disconnect q)

/-- The variable header does not change the type. -/
theorem ControlPacket.decodeVariableHeader_sameType {start packet : ControlPacket} {remainingLength pos next : ℕ}
    {protocolVersion : Option ProtocolVersion} {buf : Bytes}
    (header : start.decodeVariableHeader build remainingLength protocolVersion buf pos = .ok (packet, next)) :
    start.SameType packet := by
  cases start with
  | connect p => obtain ⟨q, _, rfl⟩ := map_eq_ok_iff.mp header; exact .connect p q
  | publish p => obtain ⟨q, _, rfl⟩ := map_eq_ok_iff.mp header; exact .publish p q
  | subscribe p => obtain ⟨q, _, rfl⟩ := map_eq_ok_iff.mp header; exact .subscribe p q
  | unsubscribe p => obtain ⟨q, _, rfl⟩ := map_eq_ok_iff.mp header; exact .unsubscribe p q
  | disconnect p => obtain ⟨q, _, rfl⟩ := map_eq_ok_iff.mp header; exact .disconnect p q
  | pubrel p => obtain ⟨q, _, rfl⟩ := map_eq_ok_iff.mp header; exact .pubrel p q
  | puback p => obtain ⟨_, _, _, same⟩ := bind_eq_ok_iff.mp header; cases same; exact .puback p _
  | pubrec p => obtain ⟨_, _, _, same⟩ := bind_eq_ok_iff.mp header; cases same; exact .pubrec p _
  | pubcomp p => obtain ⟨_, _, _, same⟩ := bind_eq_ok_iff.mp header; cases same; exact .pubcomp p _
  | pingreq p => cases header; exact .pingreq p p
  | _ => cases header

/-- Nor does the payload. -/
theorem ControlPacket.decodePayload_sameType {headed packet : ControlPacket} {buf rest : Bytes}
    (payload : headed.decodePayload buf = .ok (packet, rest)) : headed.SameType packet := by
  cases headed with
  | connect p => obtain ⟨q, _, rfl⟩ := rewrap_eq_ok_iff.mp payload; exact .connect p q
  | publish p => obtain ⟨q, _, rfl⟩ := rewrap_eq_ok_iff.mp payload; exact .publish p q
  | subscribe p => obtain ⟨q, _, rfl⟩ := rewrap_eq_ok_iff.mp payload; exact .subscribe p q
  | unsubscribe p => obtain ⟨q, _, rfl⟩ := rewrap_eq_ok_iff.mp payload; exact .unsubscribe p q
  | disconnect p => cases payload; exact .disconnect p p
  | pubrel p => cases payload; exact .pubrel p p
  | puback p => cases payload; exact .puback p p
  | pubrec p => cases payload; exact .pubrec p p
  | pubcomp p => cases payload; exact .pubcomp p p
  | pingreq p => cases payload; exact .pingreq p p
  | _ => cases payload

/-- A PUBLISH comes from the first byte of a PUBLISH. -/
theorem ControlPacket.Fresh.of_publish {start : ControlPacket} {headed : Publish} {remainingLength size : ℕ}
    {protocolVersion : Option ProtocolVersion} {buf : Bytes} (fresh : start.Fresh)
    (header : start.decodeVariableHeader build remainingLength protocolVersion buf 0 =
      .ok (.publish headed, size)) :
    ∃ self : Publish, start = .publish self ∧ self.packetId = none ∧ self.payloadData = [] ∧
      self.decodeVariableHeader build remainingLength protocolVersion buf 0 = .ok (headed, size) := by
  cases ControlPacket.decodeVariableHeader_sameType header
  cases fresh
  obtain ⟨p, inner, same⟩ := map_eq_ok_iff.mp header
  cases same
  exact ⟨_, rfl, rfl, rfl, inner⟩

/-- It has read neither an identifier nor a payload before. -/
theorem ControlPacket.decodeVariableHeader_publish {start : ControlPacket} {headed : Publish}
    {remainingLength size : ℕ} {protocolVersion : Option ProtocolVersion} {buf : Bytes}
    (fresh : start.Fresh) (header : start.decodeVariableHeader build remainingLength protocolVersion buf 0 =
      .ok (.publish headed, size)) :
    build.sub remainingLength size = .ok headed.payloadLength ∧
      (headed.packetId = none ↔ headed.qos = .qos0) ∧ headed.payloadData = [] := by
  obtain ⟨self, _, noId, noPayload, inner⟩ := fresh.of_publish header
  obtain ⟨packetId, payload⟩ := Publish.decodeVariableHeader_sound inner noId
  have ⟨_, announced⟩ := Publish.decodeVariableHeader_announces inner
  exact ⟨announced, packetId, payload.trans noPayload⟩

/-- The payload adds the bytes the variable header announced. -/
theorem ControlPacket.decodePayload_publish {headed : ControlPacket} {p : Publish} {buf rest : Bytes}
    (payload : headed.decodePayload buf = .ok (.publish p, rest)) :
    ∃ headed', headed = .publish headed' ∧ p.packetId = headed'.packetId ∧ p.qos = headed'.qos ∧
      p.payloadData.length = p.payloadLength := by
  cases ControlPacket.decodePayload_sameType payload with
  | publish q _ =>
    obtain ⟨_, inner, same⟩ := rewrap_eq_ok_iff.mp payload
    cases same
    unfold Publish.decodePayload at inner
    split at inner
    · cases inner
    · next enough =>
      cases inner
      exact ⟨q, rfl, rfl, rfl, List.length_take_of_le (by omega)⟩

namespace Decoder

/-- The packet a decoder is at, by its state. -/
def Prepares (d : Decoder) : Prop :=
  match d.state with
  | .done => True
  | .fixedHeaderDecoded => d.tmpPacket.Fresh
  | .variableHeaderDecoded => ∀ p, d.tmpPacket = .publish p → (p.packetId = none ↔ p.qos = .qos0)

variable {d next : Decoder} {ready : Option ControlPacket}

theorem Reachable.prepares (reachable : Reachable build d) : d.Prepares := by
  induction reachable with
  | new => exact trivial
  | setProtocolVersion version _ ih => exact ih
  | feed bytes _ ih => exact ih
  | poll _ polled ih =>
    cases pollDecode_eq_ok_iff.mp polled with
    | empty => exact ih
    | short => exact ih
    | fixedHeader done long header =>
      obtain ⟨_, _, kind, _⟩ := decodeFixedHeader_eq_ok_iff.mp header
      exact packetOfFirstByte_fresh kind
    | whole => exact trivial
    | partly state nonempty header =>
      unfold Prepares at ih
      rw [state] at ih
      rintro p rfl
      exact (ControlPacket.decodeVariableHeader_publish ih header).2.1
    | payload => exact trivial

/-- What a reachable decoder emits. -/
theorem Reachable.sound (reachable : Reachable build d) {p : Publish}
    (emits : d.pollDecode build = .ok (some (.publish p), next)) : p.Sound := by
  have prepares := reachable.prepares
  have counts := reachable.counts
  unfold Prepares at prepares
  unfold Counts at counts
  cases pollDecode_eq_ok_iff.mp emits with
  | whole state nonempty header ends =>
    rw [state] at prepares counts
    obtain ⟨announced, packetId, unread⟩ := ControlPacket.decodeVariableHeader_publish prepares header
    refine ⟨?_, packetId⟩
    dsimp only at counts
    have length := Build.sub_of_le announced (by omega)
    rw [unread, length, List.length_nil]
    omega
  | payload state nonempty payload =>
    rw [state] at prepares
    obtain ⟨headed, is, packetId, qos, length⟩ := ControlPacket.decodePayload_publish payload
    exact ⟨length, by rw [packetId, qos]; exact prepares headed is⟩

end Decoder

/-- A message some decoder emits, in some run. -/
def Publish.Emitted (p : Publish) : Prop :=
  ∃ (build : Build) (d next : Decoder), d.Reachable build ∧
    d.pollDecode build = .ok (some (.publish p), next)

theorem Publish.Emitted.sound {p : Publish} (emitted : p.Emitted) : p.Sound := by
  obtain ⟨build, d, next, reachable, emits⟩ := emitted
  exact reachable.sound emits

end Aqua
