import Aqua.Proofs.FieldSpells
import Aqua.Proofs.PoolVersions
import Aqua.Proofs.Sendable
import Aqua.Soundness.Provenance
import Aqua.Soundness.RoundTrip

/-! # What a subscriber reads

The topic of a message that was decoded fits in the field it came from, and every message is sent in version 4.
So a decoder of that version reads back whatever the broker sends of a message, unless it has grown too large
for a length field; and what it reads was sent by some client.
-/

namespace Aqua

open Wire Wire.Reader Runtime

/-- The topic fits in the field of a topic. -/
def Publish.Short (p : Publish) : Prop := (stringBytes p.topicName.value).length < 2 ^ 16

/-- A message that can be sent and read back, unless it is too large. -/
def Publish.Legible (p : Publish) : Prop := p.Sound ∧ p.Short

private theorem Publish.decodeVariableHeader_short {build : Build} {self headed : Publish} {remainingLength size : ℕ}
    {protocolVersion : Option ProtocolVersion} {buf : Bytes}
    (header : self.decodeVariableHeader build remainingLength protocolVersion buf 0 = .ok (headed, size)) :
    headed.Short := by
  obtain ⟨_, _, _, topic, _⟩ := Publish.decodeVariableHeader_fields header
  obtain ⟨_, ⟨s, same, short, _⟩, _⟩ := (stringField_spells TopicName.mk).sound topic (Nat.zero_le _)
  rw [Publish.Short, ← same]
  exact short

private theorem ControlPacket.decodeVariableHeader_short {build : Build} {start : ControlPacket} {headed : Publish}
    {remainingLength size : ℕ} {protocolVersion : Option ProtocolVersion} {buf : Bytes}
    (header : start.decodeVariableHeader build remainingLength protocolVersion buf 0 = .ok (.publish headed, size)) :
    headed.Short := by
  cases ControlPacket.decodeVariableHeader_sameType header with
  | publish p _ =>
    obtain ⟨_, inner, same⟩ := map_eq_ok_iff.mp header
    cases same
    exact Publish.decodeVariableHeader_short inner

/-- The payload leaves the topic alone. -/
theorem ControlPacket.decodePayload_short {headed : ControlPacket} {p : Publish} {buf rest : Bytes}
    (payload : headed.decodePayload buf = .ok (.publish p, rest)) (short : ∀ q, headed = .publish q → q.Short) :
    p.Short := by
  cases ControlPacket.decodePayload_sameType payload with
  | publish q _ =>
    obtain ⟨_, inner, same⟩ := rewrap_eq_ok_iff.mp payload
    cases same
    unfold Publish.decodePayload at inner
    split at inner
    · cases inner
    · cases inner
      exact short q rfl

namespace Decoder

variable {build : Build} {d next : Decoder} {ready : Option ControlPacket}

/-- The message whose payload a decoder waits for. -/
def Topical (d : Decoder) : Prop := d.state = .variableHeaderDecoded → ∀ p, d.tmpPacket = .publish p → p.Short

private theorem Polled.topical (polled : Polled build d ready next) (topical : d.Topical) :
    next.Topical ∧ ∀ p, ready = some (.publish p) → p.Short := by
  cases polled with
  | empty => exact ⟨topical, fun p wrong => by cases wrong⟩
  | short => exact ⟨topical, fun p wrong => by cases wrong⟩
  | fixedHeader => exact ⟨fun wrong => (by cases wrong), fun p wrong => by cases wrong⟩
  | whole state nonempty header =>
    refine ⟨fun wrong => (by cases wrong), ?_⟩
    rintro p same
    cases same
    exact ControlPacket.decodeVariableHeader_short header
  | partly state nonempty header =>
    refine ⟨?_, fun p wrong => by cases wrong⟩
    rintro _ p rfl
    exact ControlPacket.decodeVariableHeader_short header
  | payload state nonempty payload =>
    refine ⟨fun wrong => (by cases wrong), ?_⟩
    rintro p same
    cases same
    exact ControlPacket.decodePayload_short payload (topical state)

private theorem Reachable.topical (reachable : Reachable build d) : d.Topical := by
  induction reachable with
  | new => exact fun wrong => by cases wrong
  | setProtocolVersion version _ ih => exact ih
  | feed bytes _ ih => exact ih
  | poll _ polled ih => exact ((pollDecode_eq_ok_iff.mp polled).topical ih).1

end Decoder

namespace Pool

variable {build : Build} {self next : Pool} {event : Event} {clientId : Uuid}

/-- A message that is about to be handled has a short topic. -/
theorem Reachable.short (reachable : self.Reachable build) {p : Publish}
    (phase : (self.server.clients clientId).session.connection.state = .processingService (.publish p)) :
    p.Short := by
  obtain ⟨events, run⟩ := reachable
  induction run with
  | nil => cases phase
  | @snoc events event before next earlier step ih =>
    have reachable : before.Reachable build := ⟨events, earlier⟩
    have client := step.client clientId
    generalize next.server.clients clientId = client' at client phase
    cases client with
    | stays => exact ih phase
    | accepted fresh => cases phase
    | @polled input broker mqttId live goesOn read ready polls given =>
      simp only [Session.poll, goesOn] at phase
      have polls := (before.server.clients clientId).session.connection.polls build Server.services
        (broker.channels clientId) input
      generalize (before.server.clients clientId).session.connection.poll build Server.services
        (broker.channels clientId) input = polled at polls phase
      cases polls with
      | waits state decodes => exact ih (state.symm.trans phase)
      | fails idle ready state decodes => cases state.symm.trans phase
      | connects state next decodes version => cases next.symm.trans phase
      | refuses state other next decodes => cases next.symm.trans phase
      | reads state next decodes =>
        cases next.symm.trans phase
        have decoder := (reachable.sound.server.clients clientId).decoder
        cases decodes with
        | polled polled =>
          exact ((Decoder.pollDecode_eq_ok_iff.mp polled).topical (decoder.feed _).topical).2 p rfl
      | writes state wrote ends => rcases ends with ⟨_, rfl, _⟩ | ⟨_, rfl, _⟩ <;> cases phase
      | _ => cases phase

/-- Every message on its way is sound, and has a short topic. -/
theorem Reachable.legible (reachable : self.Reachable build) :
    self.Holds Publish.Legible (fun _ msg => msg.Legible) fun _ packet =>
      ∀ msg, packet = .publish msg → msg.Legible := by
  apply reachable.holds
  intro pool reachable holds
  refine ⟨?_, ?_, ?_, ?_, ?_⟩
  · intro clientId p _ phase _
    have sound := (reachable.sound.server.clients clientId).received p phase
    have short : p.Short := reachable.short phase
    exact ⟨sound.withVersion _, short⟩
  · intro task draws legible send member
    have copies := (Broker.mem_sendsOf member).1
    refine ⟨legible.1.copies copies, ?_⟩
    rw [copies.eq]
    exact legible.2
  · intro subId msg clientId legible _ other same
    cases same
    exact legible
  · intro clientId req res _ _ _ msg wrong
    cases wrong
  · intro clientId req res _ _ answers packet member msg same
    subst same
    exact holds.messages.answer answers msg (mem_of_mem_written member)

end Pool

/-- What a reader of version 4 gets of a message: everything but the properties. -/
def Publish.plain (p : Publish) : Publish := { p with pubProperties := none, protocolVersion := {} }

/-- A message of version 4 that is not too large is read back from its encoding, whatever stands behind it. -/
theorem Publish.Legible.read_back {p : Publish} (legible : p.Legible) (four : p.protocolVersion = level4)
    {code : Bytes} (encoded : Encoder.encodeAll (.publish p) = .ok code) (small : FitsLengthField code)
    (build : Build) {d : Decoder} (done : d.state = .done) (version : d.protocolVersion = some level4) (rest : Bytes) :
    ∃ next, (d.holding (code ++ rest)).pollUpTo build 3 = .ok (some (.publish p.plain), next) ∧
      next.buf = rest ∧ next.state = .done ∧ next.protocolVersion = some level4 := by
  obtain ⟨sound, short⟩ := legible
  -- in version 4 the properties are not written
  have unwritten : ∀ q : Publish, q.protocolVersion = level4 → q.encodeProperties = .ok [] := by
    intro q version
    rw [Publish.encodeProperties, version, if_neg (by decide)]
  let bare : Publish := { p with pubProperties := none }
  obtain ⟨ids, writtenId, idLength, _⟩ := Publish.encodePacketId_reads sound.packetId
  have same : Encoder.encodeAll (.publish bare) = .ok code := by
    rw [← encoded, Publish.encodeAll_eq writtenId (unwritten p four)]
    exact Publish.encodeAll_eq writtenId (unwritten bare four)
  have size := Publish.encodeAll_eq writtenId (unwritten p four)
  have fits : bare.Encodable := by
    refine ⟨short, sound.packetId, sound.payload.symm, (fun set wrong => by cases wrong), ?_⟩
    intro properties written
    cases (unwritten bare four).symm.trans written
    cases encoded.symm.trans size
    change 2 + (stringBytes p.topicName.value).length + (if p.qos = .qos0 then 0 else 2) + 0 + p.payloadLength < 2 ^ 28
    rw [← sound.payload, ← List.length_append] at small
    have rest := small _ _ rfl
    simp only [List.length_append, List.length_nil, putTruncated_length, idLength, sound.payload] at rest
    omega
  obtain ⟨frame, header, written, first, body, read⟩ := Publish.encodeAll_frame fits (.inr (.inl (by rw [four]; rfl)))
  cases same.symm.trans written
  have reads := read build
  rw [show some bare.protocolVersion = d.protocolVersion from (congrArg some four).trans version.symm] at reads
  have emitted := publish_frame_emitted build d done first body reads fits.payloadLength rfl rest
  have plain : bare.decoded = p.plain := by
    have old : ¬ bare.protocolVersion.value = 5 := by
      rw [show bare.protocolVersion = level4 from four]
      decide
    simp only [Publish.decoded, Publish.decodedProperties, if_neg old]
    rfl
  rw [← plain]
  exact ⟨_, emitted, rfl, rfl, version⟩

/-- In every reachable pool, every message a channel has accepted can be encoded, and was published by some client
with this topic, payload, DUP and RETAIN. A decoder of version 4 that waits for a packet reads it back from its
encoding, whatever stands behind it, unless what follows the length field is too large for it. -/
theorem relayed_messages {build : Build} {pool : Pool} (reachable : pool.Reachable build) (clientId : Uuid)
    (msg : Publish) (accepted : .publish msg ∈ (pool.server.broker.channels clientId).accepted) :
    ∃ code, Encoder.encodeAll (.publish msg) = .ok code ∧
      (∃ origin p, (pool.server.clients origin).Received (.publish p) ∧ msg.topicName = p.topicName ∧
        msg.payloadData = p.payloadData ∧ msg.dup = p.dup ∧ msg.retain = p.retain) ∧
      (FitsLengthField code → ∀ (reader : Build) (d : Decoder) (rest : Bytes), d.state = .done →
        d.protocolVersion = some level4 →
          ∃ next, (d.holding (code ++ rest)).pollUpTo reader 3 = .ok (some (.publish msg.plain), next) ∧
            next.buf = rest ∧ next.state = .done ∧ next.protocolVersion = some level4) := by
  obtain ⟨first, body, encoded⟩ := reachable.sendable.channels clientId _ accepted
  refine ⟨_, encoded, ?_, fun small reader d rest done version => ?_⟩
  · rcases reachable.accounted.channels clientId _ accepted msg rfl with
      ⟨name, _, message, option, packetId, ⟨origin, p, received, _, same⟩, _, rfl⟩ |
      ⟨⟨origin, p, received, _, same⟩, _⟩
    · exact ⟨origin, p, received, by rw [same], by rw [same], by rw [same], by rw [same]⟩
    · exact ⟨origin, p, received, by rw [same], by rw [same], by rw [same], by rw [same]⟩
  · have legible := reachable.legible.channels clientId _ accepted msg rfl
    have four : msg.protocolVersion = level4 := reachable.joined.1.channels clientId _ accepted _ rfl
    exact legible.read_back four encoded small reader done version rest

/-- The message that was sent back, in front of a PINGRESP. -/
theorem relayed_messages_echo : ∃ code next, Encoder.encodeAll (.publish echo) = .ok code ∧
    ((Decoder.new.setProtocolVersion (some level4)).holding (code ++ [0xd0, 0x00])).pollUpTo ⟨false⟩ 3 =
      .ok (some (.publish echo.plain), next) ∧ next.buf = [0xd0, 0x00] := by
  obtain ⟨code, encoded, _, reads⟩ := relayed_messages
    (Pool.echoing_reachable.step (.work 0 Pool.leastDraws)) ⟨0⟩ echo echo_accepted
  have known : Encoder.encodeAll (.publish echo) = .ok [0x32, 0x06, 0x00, 0x01, 0x74, 0x00, 0x00, 0x68] := by decide
  cases encoded.symm.trans known
  have fits : FitsLengthField [0x32, 0x06, 0x00, 0x01, 0x74, 0x00, 0x00, 0x68] :=
    fitsLengthField_of_length (by decide)
  obtain ⟨next, emitted, left, _⟩ := reads fits ⟨false⟩ (Decoder.new.setProtocolVersion (some level4))
    [0xd0, 0x00] rfl rfl
  exact ⟨_, next, encoded, emitted, left⟩

end Aqua
