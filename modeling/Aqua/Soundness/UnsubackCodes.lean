import Aqua.Model.Encoder
import Aqua.Model.MainService
import Aqua.Proofs.VariableLength

/-! # UNSUBACK without reason codes

Below version 5 an UNSUBACK is its packet identifier. The main server gives every UNSUBACK one reason code for
each filter and the version 4, and the encoder counts and writes the codes in every version. So the frame is bare
exactly if there is no filter.
-/

namespace Aqua

open Wire

/-- The UNSUBACK of version 3.1.1: type, length and packet identifier. -/
def bareUnsuback (packetId : PacketId) : Bytes := 0xb0 :: 0x02 :: be16Bytes packetId.value

private theorem encodeVariableBytes_length_pos (length : ℕ) : 0 < (encodeVariableBytes length).length := by
  rw [encodeVariableBytes, encodeDigits]
  split
  · exact Nat.succ_pos _
  · exact Nat.succ_pos _

/-- The codes are counted and written although the properties are left out. -/
theorem Unsuback.encodeAll_below_five {p : Unsuback} (below : p.protocolVersion.value < 5) :
    Encoder.encodeAll (.unsuback p) = .ok (0xb0 :: (encodeVariableBytes (p.reasonCodes.length + 2) ++
      (be16Bytes p.packetId.value ++ p.reasonCodes.map UnsubackReasonCode.toByte))) := by
  have old : ¬ p.protocolVersion.value ≥ 5 := UInt8.not_le.mpr below
  simp only [Encoder.encodeAll, ControlPacket.encodeHeader, encodeHeader, encodeWithCodes, if_neg old,
    ControlPacket.encodePayloadChunk, encodePayloadChunk, Outcome.ok_bind, Outcome.pure_eq, Option.getD_some,
    List.append_nil, List.cons_append, List.append_assoc]

private theorem Unsuback.bare_iff {p : Unsuback} (below : p.protocolVersion.value < 5) :
    Encoder.encodeAll (.unsuback p) = .ok (bareUnsuback p.packetId) ↔ p.reasonCodes = [] := by
  rw [encodeAll_below_five below, Outcome.ok.injEq]
  constructor
  · intro same
    have sizes := congrArg List.length same
    have field := encodeVariableBytes_length_pos (p.reasonCodes.length + 2)
    simp only [bareUnsuback, List.length_cons, List.length_append, List.length_map, be16Bytes_length] at sizes
    exact List.length_eq_zero_iff.mp (by omega)
  · intro none
    rw [none, List.map_nil, List.append_nil]
    rfl

/-- The main server answers with one bare UNSUBACK. -/
def AnsweredBare (p : Unsubscribe) : Prop :=
  ∃ packet, (MainService.handle (.unsubscribe p)).packets = [packet] ∧
    Encoder.encodeAll packet = .ok (bareUnsuback p.packetId)

/-- The answer to an UNSUBSCRIBE is bare if and only if that has no filters, and an UNSUBACK below version 5 if and
only if it has no reason codes. -/
theorem unsuback_bare_iff (p : Unsubscribe) (answer : Unsuback) (below : answer.protocolVersion.value < 5) :
    (AnsweredBare p ↔ p.topicFilters = []) ∧
      (Encoder.encodeAll (.unsuback answer) = .ok (bareUnsuback answer.packetId) ↔ answer.reasonCodes = []) := by
  refine ⟨?_, Unsuback.bare_iff below⟩
  have old : MainService.answerVersion.value < 5 := by decide
  simp only [AnsweredBare, MainService.handle, Response.new, List.singleton_inj, exists_eq_left']
  exact (Unsuback.bare_iff old).trans ((List.replicate_eq_nil_iff _).trans List.length_eq_zero_iff)

/-- Two UNSUBACKs of version 3.1.1. -/
theorem unsuback_bare_iff_16 :
    AnsweredBare { packetId := ⟨16⟩ } ∧
      Encoder.encodeAll (.unsuback { packetId := ⟨16⟩, protocolVersion := ⟨4⟩ }) = .ok [0xb0, 0x02, 0x00, 0x10] :=
  ⟨(unsuback_bare_iff { packetId := ⟨16⟩ } { protocolVersion := ⟨4⟩ } (by decide)).1.mpr rfl,
    (unsuback_bare_iff {} { packetId := ⟨16⟩, protocolVersion := ⟨4⟩ } (by decide)).2.mpr rfl⟩

/-- An UNSUBSCRIBE of version 3.1.1 with the filter `t`. -/
def unsubscribing : Bytes := [0xa2, 0x05, 0x00, 0x07, 0x00, 0x01, 0x74]

/-- Its answer announces and contains a reason code. -/
theorem unsubscribing_not_bare :
    ¬ ∀ (bytes : Bytes) (p : Unsubscribe) (next : Decoder),
      ((Decoder.new.setProtocolVersion (some ⟨4⟩)).feed bytes).pollUpTo ⟨true⟩ 3 =
        .ok (some (.unsubscribe p), next) → AnsweredBare p := by
  intro claim
  obtain ⟨packet, answer, bare⟩ := claim unsubscribing _ _ rfl
  cases answer
  exact absurd bare (by decide)

end Aqua
