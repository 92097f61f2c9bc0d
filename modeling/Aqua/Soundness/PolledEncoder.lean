import Aqua.Model.Encoder

/-! # The encoder that is polled

`poll_encode` is called for each packet until it returns nothing. The encoder starts at a header, and no
transition leads back there, so it writes one packet at most. A packet with a payload chunk is never finished:
each poll writes the chunk again.
-/

namespace Aqua

open Wire

variable {packet : ControlPacket} {packets : List ControlPacket} {buffer header out written : Bytes}
  {self last : Encoder} {calls : ℕ}

/-- The packets that are written without a payload. -/
def ControlPacket.EndsWithHeader : ControlPacket → Prop
  | .connack _ | .pingresp _ | .puback _ | .pubrec _ | .pubrel _ | .pubcomp _ => True
  | _ => False

/-- What is written behind a first byte is not empty. -/
private theorem planned_ne_nil {α : Type} {plan : Result α} {write : α → Bytes} (first : UInt8)
    (encoded : (plan >>= fun a => .ok (first :: write a)) = .ok header) : header ≠ [] := by
  obtain ⟨_, _, same⟩ := Outcome.bind_eq_ok_iff.mp encoded
  cases same
  exact List.cons_ne_nil _ _

private theorem byReason_ne_nil {first : UInt8} {version : ProtocolVersion} {packetId : PacketId}
    {reason : Option UInt8} {properties : Result Bytes}
    (encoded : encodeByReason first version packetId reason properties = .ok header) : header ≠ [] := by
  unfold encodeByReason at encoded
  dsimp only at encoded
  split at encoded
  · split at encoded
    · exact planned_ne_nil first encoded
    · exact planned_ne_nil first encoded
  · exact planned_ne_nil first encoded

private theorem byOmit_ne_nil {first : UInt8} {version : ProtocolVersion} {packetId : PacketId}
    {reason : Option UInt8} {omitted : Bool} {properties : Result Bytes}
    (encoded : encodeByOmit first version packetId reason omitted properties = .ok header) : header ≠ [] := by
  unfold encodeByOmit at encoded
  dsimp only at encoded
  split at encoded
  · exact planned_ne_nil first encoded
  · exact planned_ne_nil first encoded

private theorem withCodes_ne_nil {first : UInt8} {version : ProtocolVersion} {packetId : PacketId} {codes : ℕ}
    {properties : Result Bytes}
    (encoded : encodeWithCodes first version packetId codes properties = .ok header) : header ≠ [] := by
  unfold encodeWithCodes at encoded
  dsimp only at encoded
  split at encoded
  · exact planned_ne_nil first encoded
  · exact planned_ne_nil first encoded

/-- Every packet that is encoded has a first byte. -/
theorem ControlPacket.encodeHeader_ne_nil (encoded : packet.encodeHeader = .ok header) : header ≠ [] := by
  cases packet with
  | connack p =>
    change p.encodeHeader = .ok header at encoded
    unfold Connack.encodeHeader at encoded
    dsimp only at encoded
    split at encoded
    · split at encoded
      · exact planned_ne_nil _ encoded
      · exact planned_ne_nil _ encoded
    · exact planned_ne_nil _ encoded
  | pingresp p =>
    cases encoded
    exact List.cons_ne_nil _ _
  | publish p =>
    obtain ⟨_, _, rest⟩ := Outcome.bind_eq_ok_iff.mp encoded
    exact planned_ne_nil p.firstByte rest
  | puback p => exact byReason_ne_nil encoded
  | pubrec p => exact byReason_ne_nil encoded
  | pubrel p => exact byOmit_ne_nil encoded
  | pubcomp p => exact byOmit_ne_nil encoded
  | suback p => exact withCodes_ne_nil encoded
  | unsuback p => exact withCodes_ne_nil encoded
  | _ => cases encoded

/-- A packet that is encoded has no chunk if it ends with its header, and a chunk otherwise. -/
theorem ControlPacket.encodePayloadChunk_cases (encoded : packet.encodeHeader = .ok header) :
    packet.EndsWithHeader ∧ packet.encodePayloadChunk = .ok none ∨
      ¬ packet.EndsWithHeader ∧ ∃ chunk, packet.encodePayloadChunk = .ok (some chunk) := by
  cases packet with
  | connack _ | pingresp _ | puback _ | pubrec _ | pubrel _ | pubcomp _ => exact .inl ⟨trivial, rfl⟩
  | publish _ | suback _ | unsuback _ => exact .inr ⟨id, _, rfl⟩
  | _ => cases encoded

namespace Encoder

/-- What `encode_all` appends for a list of packets. -/
def encodeEach : List ControlPacket → Result Bytes
  | [] => .ok []
  | packet :: rest => do
      let first ← encodeAll packet
      let more ← encodeEach rest
      pure (first ++ more)

private theorem encodeEach_ne_nil (encoded : encodeEach (packet :: packets) = .ok out) : out ≠ [] := by
  obtain ⟨first, one, rest⟩ := Outcome.bind_eq_ok_iff.mp encoded
  obtain ⟨header, head, rest'⟩ := Outcome.bind_eq_ok_iff.mp one
  obtain ⟨more, _, same⟩ := Outcome.bind_eq_ok_iff.mp rest
  obtain ⟨_, _, same'⟩ := Outcome.bind_eq_ok_iff.mp rest'
  cases same
  cases same'
  simp [ControlPacket.encodeHeader_ne_nil head]

/-- Poll for one packet until the encoder returns nothing, at most `calls` times. -/
def pollPacket (packet : ControlPacket) : ℕ → Encoder → Bytes → Result (Option (Encoder × Bytes))
  | 0, _, _ => .ok none
  | calls + 1, self, buffer => do
      let (ready, next, written) ← self.pollEncode packet buffer
      match ready with
      | some () => pollPacket packet calls next written
      | none => pure (some (next, written))

/-- The same for one packet after the other. -/
def pollPackets (calls : ℕ) : List ControlPacket → Encoder → Bytes → Result (Option (Encoder × Bytes))
  | [], self, buffer => .ok (some (self, buffer))
  | packet :: rest, self, buffer => do
      match ← pollPacket packet calls self buffer with
      | some (next, written) => pollPackets calls rest next written
      | none => pure none

/-- A chunk is written again and again. -/
theorem pollPacket_chunk {chunk : Bytes} (payload : packet.encodePayloadChunk = .ok (some chunk))
    (state : self.state = .payload) (calls : ℕ) : pollPacket packet calls self buffer = .ok none := by
  induction calls generalizing buffer with
  | zero => rfl
  | succ calls ih =>
    rw [pollPacket, pollEncode, state]
    simp only [payload, Outcome.ok_bind, Outcome.pure_eq]
    exact ih

/-- An encoder that is done writes nothing more. -/
theorem pollPackets_done (state : self.state = .done)
    (polled : pollPackets calls packets self buffer = .ok (some (last, written))) : written = buffer := by
  induction packets generalizing self buffer with
  | nil =>
    cases polled
    rfl
  | cons packet rest ih =>
    cases calls with
    | zero => cases polled
    | succ calls =>
      have idle : pollPacket packet (calls + 1) self buffer = .ok (some (self, buffer)) := by
        rw [pollPacket, pollEncode, state]
        rfl
      rw [pollPackets, idle] at polled
      exact ih state polled

/-- What a fresh encoder does with its first packet. -/
theorem pollPacket_new (head : packet.encodeHeader = .ok header) (calls : ℕ) :
    pollPacket packet (calls + 1) new buffer =
      pollPacket packet calls { state := .payload } (buffer ++ header) := by
  rw [pollPacket, pollEncode]
  simp only [new, head, Outcome.ok_bind, Outcome.pure_eq]

/-- A packet without a chunk is finished by the second poll. -/
theorem pollPacket_new_finishes (head : packet.encodeHeader = .ok header)
    (payload : packet.encodePayloadChunk = .ok none) (calls : ℕ) :
    pollPacket packet (calls + 2) new buffer = .ok (some ({ state := .done }, buffer ++ header)) := by
  rw [pollPacket_new head, pollPacket, pollEncode]
  simp only [payload, Outcome.ok_bind, Outcome.pure_eq]

/-- Polling leaves what `encode_all` appends only for no packet, or for one that ends with its header. -/
theorem polled_iff (buffer : Bytes) (encoded : encodeEach packets = .ok out) :
    (∃ calls last, pollPackets calls packets new buffer = .ok (some (last, buffer ++ out))) ↔
      packets = [] ∨ ∃ packet : ControlPacket, packets = [packet] ∧ packet.EndsWithHeader := by
  cases packets with
  | nil =>
    cases encoded
    refine iff_of_true ⟨0, new, ?_⟩ (.inl rfl)
    rw [pollPackets, List.append_nil]
  | cons packet rest =>
    obtain ⟨first, one, tail⟩ := Outcome.bind_eq_ok_iff.mp encoded
    obtain ⟨more, others, same⟩ := Outcome.bind_eq_ok_iff.mp tail
    obtain ⟨header, head, chunk⟩ := Outcome.bind_eq_ok_iff.mp one
    cases same
    rcases packet.encodePayloadChunk_cases head with ⟨ends, payload⟩ | ⟨continues, _, payload⟩
    · obtain rfl : first = header := by
        rw [payload] at chunk
        cases chunk
        exact List.append_nil header
      constructor
      · rintro ⟨calls, last, polled⟩
        cases rest with
        | nil => exact .inr ⟨packet, rfl, ends⟩
        | cons packet' rest =>
          -- what the packets behind the first one add is missing
          have lost : buffer ++ (first ++ more) = buffer ++ first := by
            match calls with
            | 0 => cases polled
            | 1 =>
              rw [pollPackets, pollPacket_new head] at polled
              cases polled
            | calls + 2 =>
              rw [pollPackets, pollPacket_new_finishes head payload] at polled
              exact pollPackets_done rfl polled
          rw [List.append_cancel_left_eq, List.append_right_eq_self] at lost
          exact absurd lost (encodeEach_ne_nil others)
      · rintro (wrong | ⟨_, only, _⟩)
        · cases wrong
        · cases only
          cases others
          refine ⟨2, { state := .done }, ?_⟩
          rw [pollPackets, pollPacket_new_finishes head payload, List.append_nil]
          rfl
    · refine iff_of_false ?_ ?_
      · rintro ⟨calls, last, polled⟩
        have stuck : pollPacket packet calls new buffer = .ok none := by
          cases calls with
          | zero => rfl
          | succ calls => exact (pollPacket_new head calls).trans (pollPacket_chunk payload rfl calls)
        rw [pollPackets, stuck] at polled
        cases polled
      · rintro (wrong | ⟨_, only, ends⟩)
        · cases wrong
        · cases only
          exact continues ends

theorem polled_iff_pingresp :
    (∃ calls last, pollPackets calls [.pingresp {}] new [] = .ok (some (last, [] ++ [0xd0, 0x00]))) ↔
      [ControlPacket.pingresp {}] = [] ∨
        ∃ packet : ControlPacket, [ControlPacket.pingresp {}] = [packet] ∧ packet.EndsWithHeader :=
  polled_iff [] rfl

/-- Of two packets the second is lost. -/
theorem second_packet_lost : ¬ ∀ (packets : List ControlPacket) (buffer out : Bytes),
    encodeEach packets = .ok out →
    ∃ calls last, pollPackets calls packets new buffer = .ok (some (last, buffer ++ out)) := by
  intro claim
  obtain ⟨calls, last, polled⟩ := claim [.pingresp {}, .pingresp {}] [] [0xd0, 0x00, 0xd0, 0x00] rfl
  match calls with
  | 0 => cases polled
  | 1 => cases polled
  | calls + 2 => cases polled

end Encoder

end Aqua
