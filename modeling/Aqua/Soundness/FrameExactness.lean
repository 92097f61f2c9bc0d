import Aqua.Proofs.Layout

/-! # Frames and the bytes behind them

Which packets are confined to their own frame. PUBLISH, SUBSCRIBE and UNSUBSCRIBE always are: the
payload length is what the variable header leaves of the remaining length. A CONNECT is exactly
when its own length fields end where the frame ends, and a PUBACK, PUBREC or PUBCOMP exactly when
it is a packet identifier and nothing else.
-/

namespace Aqua

open Wire Wire.Reader

namespace Decoder

variable {build : Build} {d next : Decoder} {packet : ControlPacket} {frame : Frame} {after : Bytes}

/-- The stages of an emission from a whole frame. -/
theorem emits_frame_stages (done : d.state = .done) :
    (d.holding (frame.bytes ++ after)).Emits build packet next ↔
      ∃ start headed size, packetOfFirstByte frame.first = .ok start ∧ frame.body ++ after ≠ [] ∧
        start.decodeVariableHeader build frame.body.length d.protocolVersion (frame.body ++ after) 0 =
          .ok (headed, size) ∧
        (size = frame.body.length ∧ packet = headed ∧
            next = (d.afterFixedHeader start size []).afterPacket size
              ((frame.body ++ after).drop size) ∨
          size ≠ frame.body.length ∧ (frame.body ++ after).drop size ≠ [] ∧
            ∃ rest, headed.decodePayload ((frame.body ++ after).drop size) = .ok (packet, rest) ∧
              next = (d.afterFixedHeader start frame.body.length []).afterPacket size rest) := by
  rw [emits_frame_iff done]
  simp only [bodyOutcome_eq_some_iff]
  constructor
  · rintro ⟨start, kind, nonempty, headed, size, header, ends⟩
    refine ⟨start, headed, size, kind, nonempty, header, ends.imp ?_ id⟩
    rintro ⟨whole, same, left⟩
    obtain rfl : size = frame.body.length := whole
    exact ⟨rfl, same, left⟩
  · rintro ⟨start, headed, size, kind, nonempty, header, ends⟩
    refine ⟨start, kind, nonempty, headed, size, header, ends.imp ?_ id⟩
    rintro ⟨rfl, same, left⟩
    exact ⟨rfl, same, left⟩

end Decoder

/-- Inside the frame the bytes behind it make no difference. -/
private theorem body_agree (frame : Frame) (s₁ s₂ : Bytes) {count : ℕ}
    (inside : count ≤ frame.body.length) :
    (frame.body ++ s₂).take count = (frame.body ++ s₁).take count := by
  rw [List.take_append_of_le_length inside, List.take_append_of_le_length inside]

private theorem drop_body_agree (frame : Frame) (s₁ s₂ : Bytes) {size count : ℕ}
    (inside : size + count ≤ frame.body.length) :
    ((frame.body ++ s₂).drop size).take count = ((frame.body ++ s₁).drop size).take count := by
  have cut (l : Bytes) : (l.drop size).take count = (l.take (size + count)).drop size := by
    rw [List.drop_take, Nat.add_sub_cancel_left]
  rw [cut, cut, body_agree frame s₁ s₂ inside]

private theorem packetOfFirstByte_announcing {first : UInt8} {start : ControlPacket}
    (kind : first >>> 4 = 0b0011 ∨ first >>> 4 = 0b1000 ∨ first >>> 4 = 0b1010)
    (header : packetOfFirstByte first = .ok start) : start.payloadLength? ≠ none := by
  unfold packetOfFirstByte at header
  rcases kind with kind | kind | kind <;> simp only [kind] at header
  · obtain ⟨⟨dup, qos, retain⟩, _, header⟩ := Outcome.bind_eq_ok_iff.mp header
    cases header
    exact Option.some_ne_none _
  all_goals
    change (if first ≠ _ then Outcome.err MqttError.invalidFormat else .ok _) = _ at header
    split at header
    · cases header
    · cases header
      exact Option.some_ne_none _

section Announcing

variable {build : Build} {start headed packet : ControlPacket} {size : ℕ}
  {protocolVersion : Option ProtocolVersion} {frame : Frame} {s₁ rest : Bytes}

/-- A payload length that wrapped around would need more bytes than a buffer can hold. -/
theorem payloadLength_not_wrapped {length : ℕ}
    (addressable : (frame.bytes ++ s₁).length < usizeModulus)
    (within : size ≤ (frame.body ++ s₁).length) (announced : headed.payloadLength? = some length)
    (left : build.sub frame.body.length size = .ok length)
    (payload : headed.decodePayload ((frame.body ++ s₁).drop size) = .ok (packet, rest)) :
    size + length = frame.body.length := by
  have enough := (ControlPacket.decodePayload_takes_announced announced payload).2.within
  simp only [Frame.bytes, List.length_cons, List.length_append] at addressable
  rw [List.length_drop] at enough
  rw [List.length_append] at enough within
  rcases Build.sub_eq_ok_iff.mp left with ⟨le, same⟩ | ⟨_, _, wrapped⟩ <;> omega

end Announcing

/-- A PUBLISH, SUBSCRIBE or UNSUBSCRIBE that is emitted consumed exactly its frame, is emitted
from the same frame in front of any other bytes, and had a variable header inside the frame. -/
theorem announcing_frames_exact (build : Build) (d : Decoder) (done : d.state = .done)
    (frame : Frame)
    (kind : frame.first >>> 4 = 0b0011 ∨ frame.first >>> 4 = 0b1000 ∨ frame.first >>> 4 = 0b1010)
    (s₁ s₂ : Bytes) (addressable : (frame.bytes ++ s₁).length < usizeModulus)
    {packet : ControlPacket} {next : Decoder}
    (emits : (d.holding (frame.bytes ++ s₁)).Emits build packet next) :
    next.buf = s₁ ∧
      (d.holding (frame.bytes ++ s₂)).Emits build packet (next.holding s₂) ∧
      ∀ start headed size, packetOfFirstByte frame.first = .ok start →
        start.decodeVariableHeader build frame.body.length d.protocolVersion (frame.body ++ s₁) 0 =
          .ok (headed, size) → size ≤ frame.body.length := by
  obtain ⟨start, headed, size, first, nonempty, header, stages⟩ :=
    (Decoder.emits_frame_stages done).mp emits
  obtain ⟨moved, length, announced, left⟩ :=
    ControlPacket.decodeVariableHeader_announces (packetOfFirstByte_announcing kind first) header
  have within := (start.decodeVariableHeader_lawful build _ _).within header (Nat.zero_le _)
  have inside : size ≤ frame.body.length := by
    rcases stages with ⟨whole, _, _⟩ | ⟨_, _, _, payload, _⟩
    · exact whole.le
    · have := payloadLength_not_wrapped addressable within announced left payload
      omega
  have unique : ∀ start' headed' size', packetOfFirstByte frame.first = .ok start' →
      start'.decodeVariableHeader build frame.body.length d.protocolVersion (frame.body ++ s₁) 0 =
        .ok (headed', size') → size' ≤ frame.body.length := by
    intro start' headed' size' first' header'
    cases first.symm.trans first'
    cases header.symm.trans header'
    exact inside
  have header₂ := (start.decodeVariableHeader_lawful build _ _).stable header
    (body_agree frame s₁ s₂ inside)
  have nonempty₂ : frame.body ++ s₂ ≠ [] := List.ne_nil_of_length_pos (by
    rw [List.length_append]
    omega)
  rcases stages with ⟨whole, rfl, rfl⟩ | ⟨partly, more, rest, payload, rfl⟩
  · refine ⟨by simp only [Decoder.afterPacket, whole, List.drop_left], ?_, unique⟩
    refine (Decoder.emits_frame_stages done).mpr
      ⟨start, packet, size, first, nonempty₂, header₂, .inl ⟨whole, rfl, ?_⟩⟩
    simp only [whole, List.drop_left]
    rfl
  · have total := payloadLength_not_wrapped addressable within announced left payload
    obtain ⟨rfl, takes⟩ := ControlPacket.decodePayload_takes_announced announced payload
    refine ⟨by simp only [Decoder.afterPacket, List.drop_drop, total, List.drop_left], ?_, unique⟩
    have payload₂ := takes.decodes (drop_body_agree frame s₁ s₂ total.le)
    rw [List.drop_drop, total, List.drop_left] at payload₂
    refine (Decoder.emits_frame_stages done).mpr
      ⟨start, headed, size, first, nonempty₂, header₂, .inr ⟨partly, ?_, s₂, payload₂, rfl⟩⟩
    exact List.ne_nil_of_length_pos (by
      rw [List.length_drop, List.length_append]
      omega)

/-- A PUBLISH of "hi" to the topic "a". -/
def samplePublish : Frame where
  first := 0b00110000
  lengthField := [5]
  body := [0x00, 0x01, 0x61, 0x68, 0x69]
  announced := rfl

/-- In front of the byte 0xff and in front of nothing, the sample is emitted from its own bytes. -/
theorem announcing_frames_exact_sample :
    ∃ (packet : ControlPacket) (next : Decoder), next.buf = [0xff] ∧
      ((Decoder.new.setProtocolVersion (some ⟨4⟩)).holding samplePublish.bytes).Emits ⟨false⟩ packet
        (next.holding []) := by
  have emits : ((Decoder.new.setProtocolVersion (some ⟨4⟩)).holding
      (samplePublish.bytes ++ [0xff])).Emits ⟨false⟩
      (.publish { topicName := ⟨"a"⟩, payloadLength := 2, payloadData := [0x68, 0x69] })
      { Decoder.new with
        protocolVersion := some ⟨4⟩, remainingLength := 5, remainLengthCounter := 3, buf := [0xff] } :=
    ⟨3, rfl⟩
  have confined := announcing_frames_exact ⟨false⟩ _ rfl samplePublish (by decide) [0xff] [] (by decide)
    emits
  exact ⟨_, _, confined.1, confined.2.1⟩

private theorem packetOfFirstByte_connect {first : UInt8} (kind : first >>> 4 = 0b0001) :
    packetOfFirstByte first = .ok (.connect {}) := by
  simp only [packetOfFirstByte, kind, if_true]

/-- Where a CONNECT ends that was decoded without error. -/
theorem Connect.ends_iff {self headed p : Connect} {buf : Bytes} {size more n : ℕ}
    (header : self.decodeVariableHeader buf 0 = .ok (headed, size))
    (payload : headed.readPayload (buf.drop size) 0 = .ok (p, more)) :
    n ∈ Layout.connectEnds buf ↔ n = size ∨ n = size + more := by
  obtain ⟨byte, header', flags⟩ := Connect.decodeVariableHeader_follows self header
  obtain ⟨_, payload', _⟩ := Connect.readPayload_spans flags payload
  simp only [Layout.connectEnds, header', payload', List.mem_cons, List.not_mem_nil, or_false]

private theorem Connect.header_mem_ends {self headed : Connect} {buf : Bytes} {size : ℕ}
    (header : self.decodeVariableHeader buf 0 = .ok (headed, size)) :
    size ∈ Layout.connectEnds buf := by
  obtain ⟨byte, header', _⟩ := Connect.decodeVariableHeader_follows self header
  simp only [Layout.connectEnds, header']
  split <;> simp

/-- A CONNECT that is emitted leaves exactly the bytes behind its frame, and is emitted from the
same frame in front of any other bytes, if and only if its variable header or its payload ends,
by its own length fields, where the frame ends. -/
theorem connect_confined_iff (build : Build) (d : Decoder) (done : d.state = .done) (frame : Frame)
    (kind : frame.first >>> 4 = 0b0001) (s₁ : Bytes) {packet : ControlPacket} {next : Decoder}
    (emits : (d.holding (frame.bytes ++ s₁)).Emits build packet next) :
    (next.buf = s₁ ∧ ∀ s₂, ∃ next₂, (d.holding (frame.bytes ++ s₂)).Emits build packet next₂ ∧
      next₂.buf = s₂) ↔
      frame.body.length ∈ Layout.connectEnds (frame.body ++ s₁) := by
  obtain ⟨start, headed, size, first, nonempty, header, stages⟩ :=
    (Decoder.emits_frame_stages done).mp emits
  cases first.symm.trans (packetOfFirstByte_connect kind)
  obtain ⟨c, connectHeader, rfl⟩ := map_eq_ok_iff.mp header
  have moved := (Connect.decodeVariableHeader_progresses _ connectHeader).1
  have headerOn (inside : size ≤ frame.body.length) (s₂ : Bytes) :=
    (ControlPacket.decodeVariableHeader_lawful build _ _ _).stable header (body_agree frame s₁ s₂ inside)
  have nonemptyOn (inside : size ≤ frame.body.length) (s₂ : Bytes) : frame.body ++ s₂ ≠ [] :=
    List.ne_nil_of_length_pos (by rw [List.length_append]; omega)
  rcases stages with ⟨whole, rfl, rfl⟩ | ⟨partly, more, rest, payload, rfl⟩
  · refine iff_of_true ⟨?_, fun s₂ => ?_⟩ (whole ▸ Connect.header_mem_ends connectHeader)
    · simp only [Decoder.afterPacket, whole, List.drop_left]
    · refine ⟨_, (Decoder.emits_frame_stages done).mpr ⟨_, _, size, first, nonemptyOn whole.le s₂,
        headerOn whole.le s₂, .inl ⟨whole, rfl, rfl⟩⟩, ?_⟩
      simp only [Decoder.afterPacket, whole, List.drop_left]
  · obtain ⟨⟨p, left⟩, decoded, same⟩ := Outcome.bind_eq_ok_iff.mp payload
    cases same
    obtain ⟨count, fields, rfl⟩ := Connect.decodePayload_eq_ok_iff.mp decoded
    have takes : Takes (fun buf => rewrap .connect (c.decodePayload buf)) count _ (.connect p) :=
      (Connect.decodePayload_takes fields).rewrap
    have count_pos := (Connect.readPayload_progresses _ fields).1
    have within := takes.within
    rw [Connect.ends_iff connectHeader fields]
    simp only [Decoder.afterPacket, List.drop_drop, List.length_drop, List.length_append] at within ⊢
    constructor
    · rintro ⟨left, _⟩
      have lengths := congrArg List.length left
      rw [List.length_drop, List.length_append] at lengths
      omega
    · rintro (whole | total)
      · exact (partly whole.symm).elim
      refine ⟨by rw [← total, List.drop_left], fun s₂ => ?_⟩
      have payload₂ := takes.decodes (drop_body_agree frame s₁ s₂ total.ge)
      rw [List.drop_drop, ← total, List.drop_left] at payload₂
      refine ⟨_, (Decoder.emits_frame_stages done).mpr ⟨_, _, size, first, nonemptyOn (by omega) s₂,
        headerOn (by omega) s₂, .inr ⟨partly, ?_, s₂, payload₂, rfl⟩⟩, rfl⟩
      exact List.ne_nil_of_length_pos (by
        rw [List.length_drop, List.length_append]
        omega)

/-- A CONNECT with the client identifier "a". -/
def sampleConnect : Frame where
  first := 0b00010000
  lengthField := [13]
  body := [0x00, 0x04, 0x4d, 0x51, 0x54, 0x54, 0x04, 0x02, 0x00, 0x3c, 0x00, 0x01, 0x61]
  announced := rfl

/-- What both samples decode to. -/
def sampleConnectPacket : ControlPacket := .connect {
  protocolName := ⟨"MQTT"⟩
  protocolVer := ⟨4⟩
  connectFlags := { cleanStart := true }
  keepalive := ⟨60⟩
  clientId := ⟨"a"⟩ }

theorem connect_confined_iff_sample :
    ∃ next₂, (Decoder.new.holding (sampleConnect.bytes ++ [0x00])).Emits ⟨false⟩
      sampleConnectPacket next₂ ∧ next₂.buf = [0x00] := by
  have emits : (Decoder.new.holding (sampleConnect.bytes ++ [0xff])).Emits ⟨false⟩ sampleConnectPacket
      { Decoder.new with remainingLength := 13, remainLengthCounter := 10, buf := [0xff] } := ⟨3, rfl⟩
  have confined := connect_confined_iff ⟨false⟩ Decoder.new rfl sampleConnect rfl [0xff] emits
  exact (confined.mpr (by decide)).2 [0x00]

/-- The sample with one more byte inside the frame. -/
def paddedConnect : Frame where
  first := 0b00010000
  lengthField := [14]
  body := sampleConnect.body ++ [0xe0]
  announced := rfl

/-- The additional byte is left over and starts the next packet. -/
theorem paddedConnect_leaves_byte :
    ¬ ∀ s₁ packet next, (Decoder.new.holding (paddedConnect.bytes ++ s₁)).Emits ⟨true⟩ packet next →
      next.buf = s₁ := by
  intro confined
  have emits : (Decoder.new.holding (paddedConnect.bytes ++ [])).Emits ⟨true⟩ sampleConnectPacket
      { Decoder.new with remainingLength := 14, remainLengthCounter := 10, buf := [0xe0] } := ⟨3, rfl⟩
  exact absurd (confined [] _ _ emits) (by decide)

/-- The reason code an acknowledgement carries. -/
def ControlPacket.ackReason? : ControlPacket → Option UInt8
  | .puback p => p.reasonCode.map PubackReasonCode.toByte
  | .pubrec p => p.reasonCode.map PubrecReasonCode.toByte
  | .pubcomp p => p.pubcompReason.map PubcompReasonCode.toByte
  | _ => none

/-- The packets whose variable header is the packet identifier alone. -/
inductive Acknowledges : ControlPacket → (PacketId → ProtocolVersion → ControlPacket) → Prop
  | puback : Acknowledges (.puback {}) fun packetId protocolVersion =>
      .puback { packetId, protocolVersion }
  | pubrec : Acknowledges (.pubrec {}) fun packetId protocolVersion =>
      .pubrec { packetId, protocolVersion }
  | pubcomp : Acknowledges (.pubcomp {}) fun packetId protocolVersion =>
      .pubcomp { packetId, protocolVersion }

namespace Acknowledges

variable {start : ControlPacket} {packet : PacketId → ProtocolVersion → ControlPacket}

private theorem of_first {first : UInt8}
    (kind : first >>> 4 = 0b0100 ∨ first >>> 4 = 0b0101 ∨ first >>> 4 = 0b0111) :
    ∃ start packet, packetOfFirstByte first = .ok start ∧ Acknowledges start packet := by
  rcases kind with kind | kind | kind <;> simp only [packetOfFirstByte, kind]
  · exact ⟨_, _, rfl, .puback⟩
  · exact ⟨_, _, rfl, .pubrec⟩
  · exact ⟨_, _, rfl, .pubcomp⟩

private theorem header (acks : Acknowledges start packet) (build : Build) (n : ℕ)
    (protocolVersion : Option ProtocolVersion) :
    start.decodeVariableHeader build n protocolVersion = ackVariableHeader protocolVersion packet := by
  cases acks <;> rfl

private theorem payload (acks : Acknowledges start packet) (packetId : PacketId) (version : ProtocolVersion)
    (buf : Bytes) : (packet packetId version).decodePayload buf = .ok (packet packetId version, buf) := by
  cases acks <;> rfl

private theorem no_reason (acks : Acknowledges start packet) (packetId : PacketId)
    (version : ProtocolVersion) : (packet packetId version).ackReason? = none := by
  cases acks <;> rfl

end Acknowledges

private theorem ackVariableHeader_long (protocolVersion : Option ProtocolVersion)
    (packet : PacketId → ProtocolVersion → ControlPacket) {buf : Bytes} (long : 2 ≤ buf.length) :
    ∃ packetId, ackVariableHeader protocolVersion packet buf 0 =
      .ok (packet packetId (protocolVersion.getD {}), 2) := by
  have high : buf[0]? = some buf[0] := List.getElem?_eq_getElem (by omega)
  have low : buf[1]? = some buf[1] := List.getElem?_eq_getElem (by omega)
  have id : (u16 : FieldReader UInt16) buf 0 = .ok (be16 buf[0] buf[1], 2) :=
    u16_eq_ok_iff.mpr ⟨_, _, high, low, rfl, rfl⟩
  exact ⟨⟨be16 buf[0] buf[1]⟩,
    bind_eq_ok_iff.mpr ⟨_, 2, map_eq_ok_iff.mpr ⟨_, id, rfl⟩, rfl⟩⟩

/-- Two bytes of the body are consumed, and the packet carries no reason code. -/
theorem ack_emits (build : Build) {d : Decoder} (done : d.state = .done) (frame : Frame)
    (kind : frame.first >>> 4 = 0b0100 ∨ frame.first >>> 4 = 0b0101 ∨ frame.first >>> 4 = 0b0111)
    (long : 2 ≤ frame.body.length) (s : Bytes) :
    ∃ packet next, (d.holding (frame.bytes ++ s)).Emits build packet next ∧
      packet.ackReason? = none ∧ next.buf = frame.body.drop 2 ++ s := by
  obtain ⟨start, wrap, first, acks⟩ := Acknowledges.of_first kind
  have longer : 2 ≤ (frame.body ++ s).length := by rw [List.length_append]; omega
  have left : (frame.body ++ s).drop 2 = frame.body.drop 2 ++ s :=
    List.drop_append_of_le_length long
  obtain ⟨packetId, header⟩ := ackVariableHeader_long d.protocolVersion wrap longer
  rw [← acks.header build frame.body.length] at header
  have nonempty : frame.body ++ s ≠ [] := List.ne_nil_of_length_pos (by omega)
  by_cases whole : 2 = frame.body.length
  · exact ⟨_, _, (Decoder.emits_frame_stages done).mpr
      ⟨start, _, 2, first, nonempty, header, .inl ⟨whole, rfl, rfl⟩⟩, acks.no_reason _ _, left⟩
  · refine ⟨_, _, (Decoder.emits_frame_stages done).mpr ⟨start, _, 2, first, nonempty, header,
      .inr ⟨whole, ?_, _, acks.payload _ _ _, rfl⟩⟩, acks.no_reason _ _, left⟩
    exact List.ne_nil_of_length_pos (by rw [List.length_drop, List.length_append]; omega)

/-- An acknowledgement leaves exactly the bytes behind its frame, and carries the reason code of
the frame, if and only if its body is the packet identifier alone; the version is not looked at. -/
theorem ack_in_step_iff (build : Build) (d : Decoder) (done : d.state = .done) (frame : Frame)
    (kind : frame.first >>> 4 = 0b0100 ∨ frame.first >>> 4 = 0b0101 ∨ frame.first >>> 4 = 0b0111)
    (long : 2 ≤ frame.body.length) (s : Bytes) :
    (∀ packet next, (d.holding (frame.bytes ++ s)).Emits build packet next →
      next.buf = s ∧ ∀ reason, frame.body[2]? = some reason → packet.ackReason? = some reason) ↔
      frame.body.length = 2 := by
  obtain ⟨packet, next, emits, _, left⟩ := ack_emits build done frame kind long s
  constructor
  · intro in_step
    have lengths := congrArg List.length (left.symm.trans (in_step packet next emits).1)
    rw [List.length_append, List.length_drop] at lengths
    omega
  · intro short packet' next' emits'
    obtain ⟨rfl, rfl⟩ := emits.unique emits'
    refine ⟨by rw [left, List.drop_eq_nil_of_le short.le, List.nil_append], fun reason present => ?_⟩
    rw [List.getElem?_eq_none (by omega)] at present
    cases present

/-- A PUBACK of version 5 with the reason code "no matching subscribers". -/
def samplePuback : Frame where
  first := 0b01000000
  lengthField := [3]
  body := [0x00, 0x01, 0x10]
  announced := rfl

theorem ack_in_step_iff_sample :
    ¬ ∀ packet next, ((Decoder.new.setProtocolVersion (some ⟨5⟩)).holding
      (samplePuback.bytes ++ [])).Emits ⟨true⟩ packet next →
        next.buf = [] ∧ ∀ reason, samplePuback.body[2]? = some reason →
          packet.ackReason? = some reason :=
  mt (ack_in_step_iff ⟨true⟩ _ rfl samplePuback (by decide) (by decide) []).mp (by decide)

/-- The reason code of the sample is left in the buffer and starts the next packet. -/
theorem samplePuback_leaves_reason :
    ¬ ∀ s packet next, ((Decoder.new.setProtocolVersion (some ⟨5⟩)).holding
      (samplePuback.bytes ++ s)).Emits ⟨true⟩ packet next → next.buf = s := by
  intro in_step
  have emits : ((Decoder.new.setProtocolVersion (some ⟨5⟩)).holding (samplePuback.bytes ++ [])).Emits
      ⟨true⟩ (.puback { packetId := ⟨1⟩, protocolVersion := ⟨5⟩ })
      { Decoder.new with
        protocolVersion := some ⟨5⟩, remainingLength := 3, remainLengthCounter := 2, buf := [0x10] } :=
    ⟨3, rfl⟩
  exact absurd (in_step [] _ _ emits) (by decide)

end Aqua
