import Aqua.Model.Encoder
import Aqua.Proofs.VariableLength

/-! # Acknowledgements on the wire

The encoders of PUBACK, PUBREC, PUBREL and PUBCOMP compute the remaining length first and write the
body afterwards. For PUBACK and PUBREC both steps ask the same question. For PUBREL and PUBCOMP
the remaining length also counts properties that stand without a reason code, and the body
leaves those out.
-/

namespace Aqua

open Wire Wire.Reader

/-- One type byte, a remaining-length field, and exactly the bytes that it announces. -/
def SelfDelimiting (bytes : Bytes) : Prop :=
  ∃ n next, decodeVariableLength bytes 1 = .ok (n, next) ∧ bytes.length = next + n

/-- A first byte, an encoded length and a body delimit themselves when the length is that of the
body and fits in the field. -/
theorem selfDelimiting_iff (first : UInt8) (length : ℕ) (body : Bytes) :
    SelfDelimiting (first :: encodeVariableBytes length ++ body) ↔
      length < 2 ^ 28 ∧ body.length = length := by
  have field := decodeVariableLength_encodeVariableBytes [first] body length
  simp only [List.singleton_append, List.length_singleton] at field
  simp only [SelfDelimiting, List.cons_append, field, List.length_cons, List.length_append]
  by_cases small : length < 2 ^ 28
  · simp only [small, if_true, true_and]
    constructor
    · rintro ⟨n, next, same, total⟩
      cases same
      omega
    · rintro rfl
      exact ⟨_, _, rfl, by omega⟩
  · simp only [small, if_false, false_and, iff_false]
    rintro ⟨n, next, same, _⟩
    cases same

/-- A short output whose body is as long as announced delimits itself. -/
private theorem selfDelimiting_of_length {first : UInt8} {length : ℕ} {body : Bytes}
    (same : body.length = length)
    (short : (first :: encodeVariableBytes length ++ body).length < 2 ^ 28) :
    SelfDelimiting (first :: encodeVariableBytes length ++ body) := by
  refine (selfDelimiting_iff _ _ _).mpr ⟨?_, same⟩
  simp only [List.cons_append, List.length_cons, List.length_append] at short
  omega

/-- The packet identifier alone. -/
private theorem selfDelimiting_short (first : UInt8) (packetId : PacketId) :
    SelfDelimiting (first :: encodeVariableBytes 2 ++ (be16Bytes packetId.value ++ [])) :=
  (selfDelimiting_iff _ _ _).mpr ⟨by decide, rfl⟩

/-- A plan with a reason code and its body have the same length. -/
private theorem full_tail_length {properties : Result Bytes} {plan : AckPlan}
    (planned : AckPlan.full properties = .ok plan) (packetId : PacketId) (reason : UInt8) :
    (be16Bytes packetId.value ++ plan.tail (some reason)).length = plan.remainingLength := by
  obtain ⟨pro, _, planned⟩ := Outcome.bind_eq_ok_iff.mp planned
  cases planned
  simp only [AckPlan.tail, List.length_append, List.length_cons, be16Bytes_length]
  omega

private theorem full_remainingLength {properties : Result Bytes} {plan : AckPlan}
    (planned : AckPlan.full properties = .ok plan) : 2 < plan.remainingLength := by
  obtain ⟨pro, _, planned⟩ := Outcome.bind_eq_ok_iff.mp planned
  cases planned
  dsimp only
  omega

section Encoders

variable {first : UInt8} {version : ProtocolVersion} {packetId : PacketId}
  {reasonCode : Option UInt8} {omitted : Bool} {properties : Result Bytes} {bytes : Bytes}

/-- PUBACK and PUBREC: the plan and the body ask the same question. -/
theorem encodeByReason_selfDelimiting
    (encoded : encodeByReason first version packetId reasonCode properties = .ok bytes)
    (short : bytes.length < 2 ^ 28) : SelfDelimiting bytes := by
  simp only [encodeByReason] at encoded
  by_cases five : version.value ≥ 5
  · simp only [if_pos five] at encoded
    cases reasonCode with
    | none =>
      cases encoded
      exact selfDelimiting_short _ _
    | some reason =>
      obtain ⟨plan, planned, encoded⟩ := Outcome.bind_eq_ok_iff.mp encoded
      cases encoded
      exact selfDelimiting_of_length (full_tail_length planned packetId reason) short
  · simp only [if_neg five] at encoded
    cases encoded
    exact selfDelimiting_short _ _

/-- PUBREL and PUBCOMP: the body also asks whether there is a reason code. -/
theorem encodeByOmit_selfDelimiting_iff
    (encoded : encodeByOmit first version packetId reasonCode omitted properties = .ok bytes)
    (short : bytes.length < 2 ^ 28) :
    SelfDelimiting bytes ↔ ¬ (5 ≤ version.value ∧ ¬ omitted ∧ reasonCode = none) := by
  simp only [encodeByOmit] at encoded
  by_cases long : version.value ≥ 5 ∧ ¬ omitted
  · simp only [if_pos long] at encoded
    obtain ⟨plan, planned, encoded⟩ := Outcome.bind_eq_ok_iff.mp encoded
    cases encoded
    cases reasonCode with
    | none =>
      have := full_remainingLength planned
      refine iff_of_false ?_ fun fine => fine ⟨long.1, long.2, rfl⟩
      rw [selfDelimiting_iff]
      rintro ⟨_, same⟩
      simp only [AckPlan.tail, List.append_nil, be16Bytes_length] at same
      omega
    | some reason =>
      exact iff_of_true (selfDelimiting_of_length (full_tail_length planned packetId reason) short)
        (by rintro ⟨_, _, ⟨⟩⟩)
  · simp only [if_neg long] at encoded
    cases encoded
    exact iff_of_true (selfDelimiting_short _ _) fun ⟨five, kept, _⟩ => long ⟨five, kept⟩

end Encoders

/-- The acknowledgements, as the encoder is given them. -/
def ControlPacket.IsAck : ControlPacket → Prop
  | .puback _ | .pubrec _ | .pubrel _ | .pubcomp _ => True
  | _ => False

/-- Properties without a reason code, in a version that has both. -/
def ControlPacket.PropertiesAlone : ControlPacket → Prop
  | .pubrel p =>
      5 ≤ p.protocolVersion.value ∧ p.reasonCode = none ∧ p.pubrelProperties ≠ none
  | .pubcomp p =>
      5 ≤ p.protocolVersion.value ∧ p.pubcompReason = none ∧ p.pubcompProperties ≠ none
  | _ => False

private theorem encodeAll_header {packet : ControlPacket} {bytes : Bytes}
    (payload : packet.encodePayloadChunk = .ok none) (encoded : Encoder.encodeAll packet = .ok bytes) :
    packet.encodeHeader = .ok bytes := by
  obtain ⟨header, written, encoded⟩ := Outcome.bind_eq_ok_iff.mp encoded
  simp only [payload, Outcome.ok_bind, Outcome.pure_eq, Option.getD_none, List.append_nil] at encoded
  cases encoded
  exact written

private theorem kept_without_reason {α β : Type} [DecidableEq α] [DecidableEq β] (f : α → UInt8)
    (reason : Option α) (properties : Option β) :
    (¬ decide (reason = none ∧ properties = none) = true ∧ reason.map f = none) ↔
      reason = none ∧ properties ≠ none := by
  cases reason <;> simp

/-- An acknowledgement that is encoded delimits itself, except for a PUBREL or PUBCOMP of version 5
that has properties and no reason code: its length counts bytes that are not written. -/
theorem acknowledgement_selfDelimiting_iff (packet : ControlPacket) (ack : packet.IsAck)
    (bytes : Bytes) (encoded : Encoder.encodeAll packet = .ok bytes) (short : bytes.length < 2 ^ 28) :
    SelfDelimiting bytes ↔ ¬ packet.PropertiesAlone := by
  cases packet with
  | puback p =>
    exact iff_of_true (encodeByReason_selfDelimiting (encodeAll_header rfl encoded) short) not_false
  | pubrec p =>
    exact iff_of_true (encodeByReason_selfDelimiting (encodeAll_header rfl encoded) short) not_false
  | pubrel p =>
    rw [encodeByOmit_selfDelimiting_iff (encodeAll_header rfl encoded) short, kept_without_reason]
    rfl
  | pubcomp p =>
    rw [encodeByOmit_selfDelimiting_iff (encodeAll_header rfl encoded) short, kept_without_reason]
    rfl
  | _ => exact ack.elim

/-- A PUBREL with a user property and no reason code. -/
def barePubrel : ControlPacket := .pubrel {
  packetId := ⟨1⟩
  pubrelProperties := some { userProperties := [⟨"a", "b"⟩] }
  protocolVersion := ⟨5⟩ }

theorem acknowledgement_selfDelimiting_iff_barePubrel :
    ¬ SelfDelimiting [0b01100010, 0x0b, 0x00, 0x01] :=
  mt (acknowledgement_selfDelimiting_iff barePubrel trivial _ (by decide) (by decide)).mp
    (not_not.mpr ⟨by decide, rfl, nofun⟩)

/-- Its encoding announces eleven bytes and has two. -/
theorem barePubrel_not_selfDelimiting :
    ¬ ∀ bytes, Encoder.encodeAll barePubrel = .ok bytes → bytes.length < 2 ^ 28 →
      SelfDelimiting bytes := by
  intro delimits
  obtain ⟨n, next, field, total⟩ := delimits [0b01100010, 0x0b, 0x00, 0x01] (by decide) (by decide)
  cases (show decodeVariableLength [0b01100010, 0x0b, 0x00, 0x01] 1 = .ok (11, 2) from rfl).symm.trans
    field
  exact absurd total (by decide)

end Aqua
