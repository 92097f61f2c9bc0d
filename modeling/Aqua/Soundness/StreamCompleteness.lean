import Aqua.Proofs.FilterRoundTrip
import Aqua.Proofs.Poll
import Aqua.Proofs.PublishRoundTrip

/-! # Streams of a 3.1.1 client

Every packet a client of version 3.1.1 sends is emitted as it was sent, with one exception: the table
over first bytes has no row for PINGREQ, so a stream that contains one ends in an error.
-/

namespace Aqua

open Wire Wire.Reader

namespace Decoder

variable {build : Build} {d next final : Decoder} {packet : ControlPacket} {outs : List ControlPacket}

/-- What a decoder emits first. -/
theorem drains_emitted_iff {calls : ℕ} (emitted : d.pollUpTo build calls = .ok (some packet, next)) :
    Drains (pollDecode build) d outs final ↔
      ∃ rest, outs = packet :: rest ∧ Drains (pollDecode build) next rest final := by
  induction calls generalizing d with
  | zero => cases emitted
  | succ calls ih =>
    obtain ⟨⟨ready, after⟩, poll, emitted⟩ := Outcome.bind_eq_ok_iff.mp emitted
    cases ready with
    | some first =>
      cases emitted
      exact Drains.ready_iff poll
    | none => exact (Drains.pending_iff poll).trans (ih emitted)

end Decoder

namespace ClientPacket

variable {q : ClientPacket}

/-- How the decoder takes a packet apart: the packet its first byte starts, the variable header, and
the payload, if there is one. -/
structure Decodes (build : Build) (q : ClientPacket) (start headed : ControlPacket)
    (header payload : Bytes) : Prop where
  first : packetOfFirstByte q.firstByte = .ok start
  body : q.body = header ++ payload
  read : Reads (start.decodeVariableHeader build q.body.length (some ⟨4⟩)) header headed
  rest : ∀ s, payload = [] ∧ q.decoded = headed ∨
    payload ≠ [] ∧ headed.decodePayload (payload ++ s) = .ok (q.decoded, s)

private theorem packetOfFirstByte_publishByte (dup : Dup) (qos : QoS) (retain : Retain) :
    packetOfFirstByte (publishByte dup qos retain) = .ok (.publish { qos, dup, retain }) := by
  obtain ⟨dup⟩ := dup
  obtain ⟨retain⟩ := retain
  cases dup <;> cases qos <;> cases retain <;> decide

private theorem puback_byte : packetOfFirstByte 0x40 = .ok (.puback {}) := by decide
private theorem pubrec_byte : packetOfFirstByte 0x50 = .ok (.pubrec {}) := by decide
private theorem pubrel_byte : packetOfFirstByte 0x62 = .ok (.pubrel {}) := by decide
private theorem pubcomp_byte : packetOfFirstByte 0x70 = .ok (.pubcomp {}) := by decide
private theorem pingreq_byte : packetOfFirstByte 0xc0 = .err .invalidFormat := by decide
private theorem disconnect_byte : packetOfFirstByte 0xe0 = .ok (.disconnect {}) := by decide

private theorem identifier_reads (delivery : Delivery) :
    Reads (Publish.readPacketId delivery.qos none) (identifier delivery) delivery.packetId := by
  cases delivery with
  | atMostOnce => exact Reads.pure none
  | atLeastOnce id =>
    apply Reads.require (show 1 ≤ (be16Bytes id.value).length by simp)
    exact (PacketId.tryFrom_reads id).bind_nil (Reads.pure _)
  | exactlyOnce id =>
    apply Reads.require (show 1 ≤ (be16Bytes id.value).length by simp)
    exact (PacketId.tryFrom_reads id).bind_nil (Reads.pure _)

private theorem publish_decodes (build : Build) (dup : Dup) (delivery : Delivery) (retain : Retain)
    {topic : TopicName} (payload : Bytes) (small : (stringBytes topic.value).length < 2 ^ 16) :
    ∃ start headed header payload',
      Decodes build (.publish dup delivery retain topic payload) start headed header payload' := by
  have name : Reads TopicName.tryFrom (putTruncated (stringBytes topic.value)) topic :=
    stringField_reads TopicName.mk small
  have properties : Reads (Publish.readProperties ⟨4⟩ none) [] none := Reads.pure none
  generalize length : putTruncated (stringBytes topic.value) ++ identifier delivery ++ [] = header
  have split : body (.publish dup delivery retain topic payload) = header ++ payload := by
    rw [← length, List.append_nil]
    rfl
  have inside : (putTruncated (stringBytes topic.value) ++ identifier delivery ++ []).length ≤
      (body (.publish dup delivery retain topic payload)).length := by
    rw [length, split, List.length_append]
    exact Nat.le_add_right _ _
  have left : (body (.publish dup delivery retain topic payload)).length - header.length =
      payload.length := by
    rw [split, List.length_append, Nat.add_sub_cancel_left]
  have read := Publish.decodeVariableHeader_reads build { qos := delivery.qos, dup, retain } name
    (identifier_reads delivery) properties inside
  rw [length, left] at read
  refine ⟨.publish _, .publish _, header, payload, packetOfFirstByte_publishByte _ _ _, split,
    read.map, fun s => ?_⟩
  cases payload with
  | nil => exact .inl ⟨rfl, rfl⟩
  | cons byte rest =>
    refine .inr ⟨List.cons_ne_nil _ _, ?_⟩
    simp only [ControlPacket.decodePayload, Publish.decodePayload_append, rewrap, Outcome.ok_bind]
    rfl

/-- A packet that is nothing but its identifier. -/
private theorem identifier_decodes {build : Build} (start : ControlPacket) (id : PacketId)
    (first : packetOfFirstByte q.firstByte = .ok start) (body : q.body = be16Bytes id.value)
    (read : Reads (start.decodeVariableHeader build 2 (some ⟨4⟩)) (be16Bytes id.value) q.decoded) :
    ∃ start headed header payload, Decodes build q start headed header payload := by
  refine ⟨start, q.decoded, be16Bytes id.value, [], first, ?_, ?_, fun _ => .inl ⟨rfl, rfl⟩⟩
  · rw [body, List.append_nil]
  · rw [body]
    exact read

private theorem ackVariableHeader_reads (version : Option ProtocolVersion)
    (packet : PacketId → ProtocolVersion → ControlPacket) (id : PacketId) :
    Reads (ackVariableHeader version packet) (be16Bytes id.value) (packet id (version.getD {})) :=
  (PacketId.tryFrom_reads id).bind_nil (Reads.pure _)

private theorem subscribe_decodes (build : Build) (id : PacketId) {filters : List (TopicFilter × QoS)}
    (some_filter : filters ≠ [])
    (small : ∀ filter ∈ filters, (stringBytes filter.1.value).length < 2 ^ 16) :
    ∃ start headed header payload, Decodes build (.subscribe id filters) start headed header payload := by
  have properties : Reads (Subscribe.readProperties ⟨4⟩ {}) [] {} := Reads.pure _
  have length : (body (.subscribe id filters)).length = 2 + (filters.flatMap subscription).length := by
    rw [body, List.length_append, be16Bytes_length]
  have inside : 2 + ([] : Bytes).length ≤ (body (.subscribe id filters)).length := by
    rw [length, List.length_nil]
    omega
  have left : (body (.subscribe id filters)).length - (2 + ([] : Bytes).length) =
      (filters.flatMap subscription).length := by
    rw [length, List.length_nil]
    omega
  have read := Subscribe.decodeVariableHeader_reads build {} id properties inside
  rw [List.append_nil, left] at read
  have options : filters.map (fun filter => (filter.1, ({ qos := filter.2 } : SubscribeOption))) ≠ [] :=
    fun empty => some_filter (List.map_eq_nil_iff.mp empty)
  have short : ∀ filter ∈ filters.map (fun filter => (filter.1, ({ qos := filter.2 } : SubscribeOption))),
      (stringBytes filter.1.value).length < 2 ^ 16 := List.forall_mem_map.mpr small
  refine ⟨.subscribe _, .subscribe _, be16Bytes id.value, filters.flatMap subscription,
    subscribe_byte, rfl, read.map, fun s => .inr ⟨?_, ?_⟩⟩
  · rw [subscription_eq]
    exact List.ne_nil_of_length_pos (subscriptions_length_pos options)
  · rw [subscription_eq]
    have taken := Subscribe.decodePayload_append { packetId := id, payloadLength := _ } rfl options short
      rfl s
    simp only [ControlPacket.decodePayload, taken, rewrap, Outcome.ok_bind, decoded, subscription_eq]

private theorem unsubscribe_decodes (build : Build) (id : PacketId) {filters : List TopicFilter}
    (some_filter : filters ≠ [])
    (small : ∀ filter ∈ filters, (stringBytes filter.value).length < 2 ^ 16) :
    ∃ start headed header payload,
      Decodes build (.unsubscribe id filters) start headed header payload := by
  have properties : Reads (Unsubscribe.readProperties ⟨4⟩ none) [] none := Reads.pure none
  generalize names : (filters.flatMap fun filter => putTruncated (stringBytes filter.value)) = payload
  have split : body (.unsubscribe id filters) = be16Bytes id.value ++ payload := by
    rw [← names]
    rfl
  have length : (body (.unsubscribe id filters)).length = 2 + payload.length := by
    rw [split, List.length_append, be16Bytes_length]
  have inside : 2 + ([] : Bytes).length ≤ (body (.unsubscribe id filters)).length := by
    rw [length, List.length_nil]
    omega
  have left : (body (.unsubscribe id filters)).length - (2 + ([] : Bytes).length) =
      payload.length := by
    rw [length, List.length_nil]
    omega
  have read := Unsubscribe.decodeVariableHeader_reads build {} id properties inside
  rw [List.append_nil, left] at read
  refine ⟨.unsubscribe _, .unsubscribe _, be16Bytes id.value, payload, unsubscribe_byte, split,
    read.map, fun s => .inr ⟨?_, ?_⟩⟩
  · obtain ⟨filter, rest, rfl⟩ := List.exists_cons_of_ne_nil some_filter
    rw [← names, List.flatMap_cons]
    exact List.append_ne_nil_of_left_ne_nil (List.cons_ne_nil _ _) _
  · subst names
    have taken := Unsubscribe.decodePayload_append { packetId := id, payloadLength := _ } rfl small
      rfl s
    simp only [ControlPacket.decodePayload, taken, rewrap, Outcome.ok_bind]
    rfl

/-- Every well-formed packet other than a PINGREQ is taken apart. -/
theorem WellFormed.decodes (build : Build) (wellFormed : q.WellFormed) (answered : q ≠ .pingreq) :
    ∃ start headed header payload, Decodes build q start headed header payload := by
  obtain ⟨_, wellFormed⟩ := wellFormed
  cases q with
  | publish dup delivery retain topic payload =>
    exact publish_decodes build dup delivery retain payload wellFormed
  | puback id =>
    exact identifier_decodes (.puback {}) id puback_byte rfl (ackVariableHeader_reads _
      (fun packetId protocolVersion => .puback { packetId, protocolVersion }) id)
  | pubrec id =>
    exact identifier_decodes (.pubrec {}) id pubrec_byte rfl (ackVariableHeader_reads _
      (fun packetId protocolVersion => .pubrec { packetId, protocolVersion }) id)
  | pubrel id =>
    have read : Reads (Pubrel.decodeVariableHeader {} 2 (some ⟨4⟩)) (be16Bytes id.value)
      { packetId := id } := (PacketId.tryFrom_reads id).bind_nil (Reads.pure _)
    exact identifier_decodes (.pubrel {}) id pubrel_byte rfl read.map
  | pubcomp id =>
    exact identifier_decodes (.pubcomp {}) id pubcomp_byte rfl (ackVariableHeader_reads _
      (fun packetId protocolVersion => .pubcomp { packetId, protocolVersion }) id)
  | subscribe id filters => exact subscribe_decodes build id wellFormed.1 wellFormed.2
  | unsubscribe id filters => exact unsubscribe_decodes build id wellFormed.1 wellFormed.2
  | pingreq => exact (answered rfl).elim
  | disconnect =>
    refine ⟨.disconnect {}, .disconnect {}, [], [], disconnect_byte, rfl, ?_,
      fun _ => .inl ⟨rfl, rfl⟩⟩
    exact (Reads.pure _).map

/-- The wire encoding is a frame. -/
def WellFormed.frame (wellFormed : q.WellFormed) : Frame where
  first := q.firstByte
  lengthField := encodeVariableBytes q.body.length
  body := q.body
  announced := encodeVariableBytes_announces wellFormed.1

/-- A packet in front of the buffer is emitted, and what stands behind it is left. -/
theorem WellFormed.emitted (build : Build) (wellFormed : q.WellFormed) (answered : q ≠ .pingreq)
    {d : Decoder} (done : d.state = .done) (version : d.protocolVersion = some ⟨4⟩) {s : Bytes}
    (nonempty : q.body ++ s ≠ []) :
    ∃ next : Decoder, (d.holding (q.wire ++ s)).pollUpTo build 3 = .ok (some q.decoded, next) ∧
      next.state = .done ∧ next.protocolVersion = some ⟨4⟩ ∧ next.buf = s := by
  obtain ⟨start, headed, header, payload, decodes⟩ := wellFormed.decodes build answered
  have read := decodes.read
  rw [← version] at read
  have emitted : (d.holding (wellFormed.frame.bytes ++ s)).pollUpTo build 3 = _ :=
    Decoder.frame_emitted done decodes.first decodes.body read nonempty (decodes.rest s)
  exact ⟨_, emitted, rfl, version, rfl⟩

/-- No poll gets past a PINGREQ. -/
theorem pingreq_stuck (build : Build) {d final : Decoder} (done : d.state = .done) (s : Bytes)
    (outs : List ControlPacket) :
    ¬ Drains (Decoder.pollDecode build) (d.holding (wire .pingreq ++ s)) outs final := by
  have wellFormed : WellFormed .pingreq := ⟨by decide, trivial⟩
  have fails : (d.holding (wire .pingreq ++ s)).pollDecode build = .err .invalidFormat := by
    have poll : (d.holding (wellFormed.frame.bytes ++ s)).pollDecode build = _ :=
      Decoder.pollDecode_frame done wellFormed.frame s
    rw [show packetOfFirstByte wellFormed.frame.first = _ from pingreq_byte] at poll
    exact poll
  intro drains
  cases drains with
  | idle stalled => cases fails.symm.trans stalled
  | pending step _ => cases fails.symm.trans step
  | ready step _ => cases fails.symm.trans step

end ClientPacket

section Streams

variable {build : Build} {packets : List ClientPacket}

/-- A packet of the stream is emitted because it has a body or a packet stands behind it. -/
private theorem body_or_behind {q : ClientPacket} {rest : List ClientPacket}
    (ending : ∀ last ∈ (q :: rest).getLast?, last.body ≠ []) :
    q.body ++ rest.flatMap ClientPacket.wire ≠ [] := by
  cases rest with
  | nil =>
    rw [List.flatMap_nil, List.append_nil]
    exact ending q rfl
  | cons q' rest =>
    exact List.append_ne_nil_of_right_ne_nil _ (List.cons_ne_nil _ _)

private theorem ending_tail {q : ClientPacket} {rest : List ClientPacket}
    (ending : ∀ last ∈ (q :: rest).getLast?, last.body ≠ []) :
    ∀ last ∈ rest.getLast?, last.body ≠ [] := by
  cases rest with
  | nil => exact fun _ none => nomatch none
  | cons q' rest => exact ending

/-- From a decoder between two frames, by induction over the packets still to come. -/
theorem drains_packets_iff {d : Decoder} (done : d.state = .done)
    (version : d.protocolVersion = some ⟨4⟩) (wellFormed : ∀ q ∈ packets, q.WellFormed)
    (ending : ∀ q ∈ packets.getLast?, q.body ≠ []) :
    (∃ final : Decoder, Drains (Decoder.pollDecode build)
        (d.holding (packets.flatMap ClientPacket.wire)) (packets.map ClientPacket.decoded) final ∧
          final.state = .done ∧ final.buf = []) ↔ ClientPacket.pingreq ∉ packets := by
  induction packets generalizing d with
  | nil =>
    refine iff_of_true ⟨_, .idle (Decoder.pollDecode_empty rfl), done, rfl⟩ List.not_mem_nil
  | cons q rest ih =>
    rw [List.flatMap_cons, List.map_cons]
    by_cases answered : q = .pingreq
    · subst answered
      refine iff_of_false ?_ (not_not.mpr List.mem_cons_self)
      rintro ⟨final, drains, _⟩
      exact ClientPacket.pingreq_stuck build done _ _ drains
    · obtain ⟨next, emitted, nextDone, nextVersion, left⟩ :=
        (wellFormed q List.mem_cons_self).emitted build answered done version
          (body_or_behind ending)
      have holds : next.holding (rest.flatMap ClientPacket.wire) = next := by
        rw [← left]
        rfl
      have behind := ih nextDone nextVersion (fun q member => wellFormed q (List.mem_cons_of_mem _ member))
        (ending_tail ending)
      rw [holds] at behind
      have head : ClientPacket.pingreq ∉ q :: rest ↔ ClientPacket.pingreq ∉ rest := by
        rw [List.mem_cons, not_or]
        exact and_iff_right (Ne.symm answered)
      rw [head, ← behind]
      apply exists_congr
      intro final
      apply and_congr_left
      intro _
      rw [Decoder.drains_emitted_iff emitted]
      constructor
      · rintro ⟨_, same, drains⟩
        cases same
        exact drains
      · exact fun drains => ⟨_, rfl, drains⟩

end Streams

/-- Which streams of a 3.1.1 client are decoded packet by packet: those without a PINGREQ. -/
theorem client_stream_iff (build : Build) (packets : List ClientPacket)
    (wellFormed : ∀ q ∈ packets, q.WellFormed) (ending : ∀ q ∈ packets.getLast?, q.body ≠ []) :
    (∃ final : Decoder, Drains (Decoder.pollDecode build)
        ((Decoder.new.setProtocolVersion (some ⟨4⟩)).feed (packets.flatMap ClientPacket.wire))
        (packets.map ClientPacket.decoded) final ∧ final.state = .done ∧ final.buf = []) ↔
      ClientPacket.pingreq ∉ packets :=
  drains_packets_iff (d := Decoder.new.setProtocolVersion (some ⟨4⟩)) rfl rfl wellFormed ending

/-- A SUBSCRIBE and a QoS 1 PUBLISH. -/
def publishingClient : List ClientPacket :=
  [.subscribe ⟨1⟩ [(⟨"a"⟩, .qos1)], .disconnect, .publish ⟨false⟩ (.atLeastOnce ⟨2⟩) ⟨false⟩ ⟨"a"⟩ [0x68]]

private theorem publishingClient_wellFormed : ∀ q ∈ publishingClient, q.WellFormed := by
  have all : ∀ q ∈ publishingClient, q.body.length < 2 ^ 28 := by decide
  intro q member
  refine ⟨all q member, ?_⟩
  simp only [publishingClient, List.mem_cons, List.not_mem_nil, or_false] at member
  rcases member with rfl | rfl | rfl
  · exact ⟨List.cons_ne_nil _ _, by decide⟩
  · exact trivial
  · exact (by decide : (stringBytes "a").length < 2 ^ 16)

theorem client_stream_iff_publishing :
    ∃ final : Decoder, Drains (Decoder.pollDecode ⟨true⟩)
        ((Decoder.new.setProtocolVersion (some ⟨4⟩)).feed
          (publishingClient.flatMap ClientPacket.wire))
        (publishingClient.map ClientPacket.decoded) final ∧ final.state = .done ∧ final.buf = [] :=
  (client_stream_iff ⟨true⟩ publishingClient publishingClient_wellFormed (by decide)).mpr (by decide)

/-- A client that keeps the connection alive before it acknowledges. -/
def pingingClient : List ClientPacket := [.pingreq, .puback ⟨1⟩]

/-- The PINGREQ of that client is an error. -/
theorem pingingClient_not_decoded :
    ¬ ∀ packets : List ClientPacket, (∀ q ∈ packets, q.WellFormed) →
      (∀ q ∈ packets.getLast?, q.body ≠ []) →
      ∃ final : Decoder, Drains (Decoder.pollDecode ⟨true⟩)
        ((Decoder.new.setProtocolVersion (some ⟨4⟩)).feed (packets.flatMap ClientPacket.wire))
        (packets.map ClientPacket.decoded) final ∧ final.state = .done ∧ final.buf = [] := by
  intro complete
  have wellFormed : ∀ q ∈ pingingClient, q.WellFormed := by
    intro q member
    simp only [pingingClient, List.mem_cons, List.not_mem_nil, or_false] at member
    rcases member with rfl | rfl
    · exact ⟨by decide, trivial⟩
    · exact ⟨by decide, trivial⟩
  obtain ⟨final, drains, _⟩ := complete pingingClient wellFormed (by decide)
  exact ClientPacket.pingreq_stuck ⟨true⟩ (d := Decoder.new.setProtocolVersion (some ⟨4⟩)) rfl
    (ClientPacket.wire (.puback ⟨1⟩)) _ drains

end Aqua
