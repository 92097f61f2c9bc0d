import Aqua.Proofs.VariableLength

/-! # Complete frames

A `Frame` is a first byte, a remaining-length field and as many body bytes as the field says. A
decoder in state `Done` that holds a whole frame needs at most three polls, and what they do is
`frameOutcome`: the three stages in sequence, on the body and whatever stands behind it.
-/

namespace Aqua

open Wire Wire.Reader

/-- A first byte, a remaining-length field, and exactly as many bytes as it announces. -/
structure Frame where
  first : UInt8
  lengthField : Bytes
  body : Bytes
  announced : decodeVariableLength lengthField 0 = .ok (body.length, lengthField.length)

namespace Frame

def bytes (frame : Frame) : Bytes := frame.first :: (frame.lengthField ++ frame.body)

theorem lengthField_pos (frame : Frame) : 0 < frame.lengthField.length :=
  (decodeVariableLength_progresses frame.announced).1

theorem two_le_length (frame : Frame) : 2 ≤ frame.bytes.length := by
  have := frame.lengthField_pos
  simp only [bytes, List.length_cons, List.length_append]
  omega

/-- The frame that is written around a body. -/
def around (first : UInt8) {body : Bytes} (small : body.length < 2 ^ 28) : Frame where
  first := first
  lengthField := encodeVariableBytes body.length
  body := body
  announced := encodeVariableBytes_announces small

@[simp] theorem around_body (first : UInt8) {body : Bytes} (small : body.length < 2 ^ 28) :
    (around first small).body = body := rfl

/-- The fixed header of a frame is read up to the body. -/
theorem decodeFixedHeader_bytes (frame : Frame) (after : Bytes) :
    decodeFixedHeader (frame.bytes ++ after) 0 =
      packetOfFirstByte frame.first >>= fun packet =>
        .ok ((packet, frame.body.length), 1 + frame.lengthField.length) := by
  have length := decodeVariableLength_reads frame.announced [frame.first] (frame.body ++ after)
  simp only [bytes, decodeFixedHeader, bind_apply, List.cons_append, List.append_assoc]
  change (Outcome.ok (frame.first, 1) >>= _) = _
  simp only [Outcome.ok_bind, lift]
  cases packetOfFirstByte frame.first with
  | ok packet =>
    simp only [Outcome.ok_bind]
    change (decodeVariableLength ([frame.first] ++ (frame.lengthField ++ (frame.body ++ after))) 1 >>= _) = _
    rw [show decodeVariableLength ([frame.first] ++ (frame.lengthField ++ (frame.body ++ after))) 1 =
      .ok (frame.body.length, 1 + frame.lengthField.length) from length]
    rfl
  | err e => rfl
  | panic => rfl
  | diverge => rfl

theorem drop_fixedHeader (frame : Frame) (after : Bytes) :
    (frame.bytes ++ after).drop (1 + frame.lengthField.length) = frame.body ++ after := by
  simp only [bytes, List.cons_append, List.append_assoc, Nat.add_comm 1, List.drop_succ_cons,
    List.drop_left]

end Frame

theorem advance_of_le {buf : Bytes} {count : ℕ} (le : count ≤ buf.length) :
    advance buf count = .ok (buf.drop count) := if_pos le

theorem advance_eq_ok_iff {buf rest : Bytes} {count : ℕ} :
    advance buf count = .ok rest ↔ count ≤ buf.length ∧ rest = buf.drop count := by
  unfold advance
  split <;> simp [*, eq_comm]

namespace Decoder

variable {build : Build} {d next : Decoder} {packet : ControlPacket}

@[simp] theorem holding_buf (d : Decoder) (buf : Bytes) : (d.holding buf).buf = buf := rfl
@[simp] theorem holding_state (d : Decoder) (buf : Bytes) : (d.holding buf).state = d.state := rfl
@[simp] theorem holding_protocolVersion (d : Decoder) (buf : Bytes) :
    (d.holding buf).protocolVersion = d.protocolVersion := rfl

/-- More polls change nothing once the decoder has emitted a packet, failed or aborted. -/
theorem pollUpTo_settled {few many : ℕ} (le : few ≤ many)
    (settled : ∀ next, d.pollUpTo build few ≠ .ok (none, next)) :
    d.pollUpTo build many = d.pollUpTo build few := by
  induction few generalizing d many with
  | zero => exact (settled d rfl).elim
  | succ few ih =>
    obtain ⟨many, rfl⟩ : ∃ k, many = k + 1 := ⟨many - 1, by omega⟩
    simp only [pollUpTo] at settled ⊢
    generalize d.pollDecode build = poll at settled ⊢
    rcases poll with ⟨⟨_ | packet, after⟩⟩ | _ | _ | _
    · exact ih (by omega) settled
    all_goals rfl

/-- More polls do not change what was emitted. -/
theorem pollUpTo_mono {few many : ℕ} (le : few ≤ many)
    (emitted : d.pollUpTo build few = .ok (some packet, next)) :
    d.pollUpTo build many = .ok (some packet, next) := by
  rw [← emitted]
  refine pollUpTo_settled le fun next' pending => ?_
  cases emitted.symm.trans pending

/-- A decoder emits at most one packet before further bytes arrive or it is polled anew. -/
theorem Emits.unique {packet' : ControlPacket} {next' : Decoder} (left : d.Emits build packet next)
    (right : d.Emits build packet' next') : packet = packet' ∧ next = next' := by
  obtain ⟨few, left⟩ := left
  obtain ⟨many, right⟩ := right
  have both := (pollUpTo_mono (le_max_left few many) left).symm.trans
    (pollUpTo_mono (le_max_right few many) right)
  cases both
  exact ⟨rfl, rfl⟩

/-- A decoder that does not move under a poll does not move under many. -/
theorem pollUpTo_idle (idle : d.pollDecode build = .ok (none, d)) (calls : ℕ) :
    d.pollUpTo build calls = .ok (none, d) := by
  induction calls with
  | zero => rfl
  | succ calls ih => simp only [pollUpTo, idle, Outcome.ok_bind, ih]

theorem pollDecode_empty (empty : d.buf = []) : d.pollDecode build = .ok (none, d) := if_pos empty

/-- The decoder after a fixed header. -/
def afterFixedHeader (d : Decoder) (packet : ControlPacket) (remainingLength : ℕ) (buf : Bytes) :
    Decoder :=
  { d with
    tmpPacket := packet, remainingLength, buf, state := .fixedHeaderDecoded, remainLengthCounter := 0 }

/-- The decoder after a variable header that does not end the frame. -/
def afterVariableHeader (d : Decoder) (packet : ControlPacket) (counter : ℕ) (buf : Bytes) :
    Decoder :=
  { d with
    tmpPacket := packet, remainLengthCounter := counter, buf, state := .variableHeaderDecoded }

/-- The decoder after it emitted a packet. -/
def afterPacket (d : Decoder) (counter : ℕ) (buf : Bytes) : Decoder :=
  { d with tmpPacket := .undefined, remainLengthCounter := counter, buf, state := .done }

/-- What the polls of a decoder behind a fixed header do to its buffer. -/
def bodyOutcome (build : Build) (headed : Decoder) : Result (Option ControlPacket × Decoder) :=
  if headed.buf = [] then .ok (none, headed)
  else do
    let (packet, size) ← headed.tmpPacket.decodeVariableHeader build headed.remainingLength
      headed.protocolVersion headed.buf 0
    let buf := headed.buf.drop size
    if size = headed.remainingLength then .ok (some packet, headed.afterPacket size buf)
    else if buf = [] then .ok (none, headed.afterVariableHeader packet size buf)
    else do
      let (packet, rest) ← packet.decodePayload buf
      .ok (some packet, headed.afterPacket size rest)

/-- What the polls of a decoder in state `Done` do to a complete frame and the bytes behind it. -/
def frameOutcome (build : Build) (d : Decoder) (frame : Frame) (after : Bytes) :
    Result (Option ControlPacket × Decoder) := do
  let packet ← packetOfFirstByte frame.first
  bodyOutcome build (d.afterFixedHeader packet frame.body.length (frame.body ++ after))

theorem pollDecode_frame (done : d.state = .done) (frame : Frame) (after : Bytes) :
    (d.holding (frame.bytes ++ after)).pollDecode build =
      packetOfFirstByte frame.first >>= fun packet =>
        .ok (none, d.afterFixedHeader packet frame.body.length (frame.body ++ after)) := by
  have long := frame.two_le_length
  have size : 2 ≤ (frame.bytes ++ after).length := by rw [List.length_append]; omega
  have nonempty : frame.bytes ++ after ≠ [] := List.ne_nil_of_length_pos (by omega)
  have within : 1 + frame.lengthField.length ≤ (frame.bytes ++ after).length := by
    simp only [Frame.bytes, List.length_cons, List.length_append]
    omega
  have long : ¬ (d.holding (frame.bytes ++ after)).buf.length < 2 := by
    rw [holding_buf]
    omega
  rw [pollDecode, if_neg (show (d.holding (frame.bytes ++ after)).buf ≠ [] from nonempty),
    holding_state, done]
  simp only [pollFixedHeader]
  rw [if_neg long, holding_buf, frame.decodeFixedHeader_bytes]
  cases packetOfFirstByte frame.first with
  | ok packet =>
    simp only [Outcome.ok_bind]
    rw [advance_of_le within, frame.drop_fixedHeader]
    rfl
  | err e => rfl
  | panic => rfl
  | diverge => rfl

/-- The poll of the variable header, as an equation between outcomes. -/
theorem pollDecode_fixedHeaderDecoded (state : d.state = .fixedHeaderDecoded)
    (fresh : d.remainLengthCounter = 0) (nonempty : d.buf ≠ []) :
    d.pollDecode build =
      d.tmpPacket.decodeVariableHeader build d.remainingLength d.protocolVersion d.buf 0 >>= fun read =>
        .ok (if read.2 = d.remainingLength then
          (some read.1, d.afterPacket read.2 (d.buf.drop read.2))
        else (none, d.afterVariableHeader read.1 read.2 (d.buf.drop read.2))) := by
  simp only [pollDecode, if_neg nonempty, state, pollVariableHeader, fresh, Nat.zero_add]
  cases headed : d.tmpPacket.decodeVariableHeader build d.remainingLength d.protocolVersion d.buf 0 with
  | ok read =>
    have inside := (d.tmpPacket.decodeVariableHeader_lawful build _ _).within headed (Nat.zero_le _)
    simp only [Outcome.ok_bind, advance_of_le inside]
    split <;> rfl
  | err e => rfl
  | panic => rfl
  | diverge => rfl

theorem pollDecode_variableHeaderDecoded (state : d.state = .variableHeaderDecoded)
    (nonempty : d.buf ≠ []) :
    d.pollDecode build = d.tmpPacket.decodePayload d.buf >>= fun decoded =>
      .ok (some decoded.1, d.afterPacket d.remainLengthCounter decoded.2) := by
  simp only [pollDecode, if_neg nonempty, state, pollPayload]
  rfl

/-- Behind a fixed header two polls suffice; further polls add nothing. -/
theorem pollUpTo_body (state : d.state = .fixedHeaderDecoded) (fresh : d.remainLengthCounter = 0)
    (calls : ℕ) : d.pollUpTo build (calls + 2) = bodyOutcome build d := by
  rw [bodyOutcome]
  by_cases empty : d.buf = []
  · rw [if_pos empty]
    exact pollUpTo_idle (pollDecode_empty empty) _
  rw [if_neg empty, pollUpTo, pollDecode_fixedHeaderDecoded state fresh empty]
  cases d.tmpPacket.decodeVariableHeader build d.remainingLength d.protocolVersion d.buf 0 with
  | ok read =>
    simp only [Outcome.ok_bind]
    by_cases whole : read.2 = d.remainingLength
    · simp only [if_pos whole]
      rfl
    by_cases exhausted : d.buf.drop read.2 = []
    · simp only [if_neg whole, if_pos exhausted]
      exact pollUpTo_idle (pollDecode_empty exhausted) _
    · simp only [if_neg whole, if_neg exhausted]
      rw [pollUpTo, pollDecode_variableHeaderDecoded rfl exhausted]
      simp only [afterVariableHeader]
      cases read.1.decodePayload (d.buf.drop read.2) <;> rfl
  | err e => rfl
  | panic => rfl
  | diverge => rfl

/-- A whole frame takes at most three polls; further polls add nothing. -/
theorem pollUpTo_frame (done : d.state = .done) (frame : Frame) (after : Bytes) (calls : ℕ) :
    (d.holding (frame.bytes ++ after)).pollUpTo build (calls + 3) =
      frameOutcome build d frame after := by
  rw [pollUpTo, pollDecode_frame done, frameOutcome]
  cases packetOfFirstByte frame.first with
  | ok packet => exact pollUpTo_body rfl rfl calls
  | err e => rfl
  | panic => rfl
  | diverge => rfl

/-- The stages of an emission behind a fixed header: the variable header and, unless that used
up the remaining length, the payload. -/
theorem bodyOutcome_eq_some_iff : bodyOutcome build d = .ok (some packet, next) ↔
    d.buf ≠ [] ∧ ∃ headed size, d.tmpPacket.decodeVariableHeader build d.remainingLength
        d.protocolVersion d.buf 0 = .ok (headed, size) ∧
      (size = d.remainingLength ∧ packet = headed ∧ next = d.afterPacket size (d.buf.drop size) ∨
        size ≠ d.remainingLength ∧ d.buf.drop size ≠ [] ∧
          ∃ rest, headed.decodePayload (d.buf.drop size) = .ok (packet, rest) ∧
            next = d.afterPacket size rest) := by
  constructor
  · intro outcome
    rw [bodyOutcome] at outcome
    split at outcome
    · cases outcome
    next nonempty =>
    obtain ⟨⟨headed, size⟩, header, outcome⟩ := Outcome.bind_eq_ok_iff.mp outcome
    refine ⟨nonempty, headed, size, header, ?_⟩
    simp only at outcome
    split at outcome
    · next whole =>
      cases outcome
      exact .inl ⟨whole, rfl, rfl⟩
    next partly =>
    split at outcome
    · cases outcome
    next more =>
    obtain ⟨⟨decoded, rest⟩, payload, outcome⟩ := Outcome.bind_eq_ok_iff.mp outcome
    cases outcome
    exact .inr ⟨partly, more, rest, payload, rfl⟩
  · rintro ⟨nonempty, headed, size, header, whole | partly⟩
    · obtain ⟨whole, rfl, rfl⟩ := whole
      simp only [bodyOutcome, if_neg nonempty, header, Outcome.ok_bind, if_pos whole]
    · obtain ⟨partly, more, rest, payload, rfl⟩ := partly
      simp only [bodyOutcome, if_neg nonempty, header, Outcome.ok_bind, if_neg partly, if_neg more,
        payload]

/-- What a whole frame emits. -/
theorem emits_frame_iff (done : d.state = .done) (frame : Frame) (after : Bytes) :
    (d.holding (frame.bytes ++ after)).Emits build packet next ↔
      ∃ start, packetOfFirstByte frame.first = .ok start ∧ bodyOutcome build
        (d.afterFixedHeader start frame.body.length (frame.body ++ after)) =
          .ok (some packet, next) := by
  rw [← Outcome.bind_eq_ok_iff]
  constructor
  · rintro ⟨calls, emitted⟩
    exact (pollUpTo_frame done frame after calls).symm.trans (pollUpTo_mono (by omega) emitted)
  · intro outcome
    exact ⟨3, (pollUpTo_frame done frame after 0).trans outcome⟩

/-- A frame whose header is read back, and whose payload, if there is any, is decoded, is emitted
in three polls. -/
theorem frame_emitted (done : d.state = .done) {frame : Frame} {start headed : ControlPacket}
    {header payload s : Bytes} (first : packetOfFirstByte frame.first = .ok start)
    (body : frame.body = header ++ payload)
    (read : Reads (start.decodeVariableHeader build frame.body.length d.protocolVersion) header headed)
    (nonempty : frame.body ++ s ≠ [])
    (decoded : payload = [] ∧ packet = headed ∨
      payload ≠ [] ∧ headed.decodePayload (payload ++ s) = .ok (packet, s)) :
    (d.holding (frame.bytes ++ s)).pollUpTo build 3 = .ok (some packet,
      (d.afterFixedHeader start frame.body.length []).afterPacket header.length s) := by
  rw [pollUpTo_frame done frame s 0, frameOutcome, first, Outcome.ok_bind, bodyOutcome_eq_some_iff]
  have whole := read.start (payload ++ s)
  rw [← List.append_assoc, ← body] at whole
  have left : (frame.body ++ s).drop header.length = payload ++ s := by
    rw [body, List.append_assoc, List.drop_left]
  refine ⟨nonempty, headed, header.length, whole, ?_⟩
  simp only [afterFixedHeader, left]
  rcases decoded with ⟨rfl, rfl⟩ | ⟨some_payload, decoded⟩
  · exact .inl ⟨by rw [body, List.append_nil], rfl, rfl⟩
  · have := List.length_pos_iff.mpr some_payload
    refine .inr ⟨?_, List.append_ne_nil_of_left_ne_nil some_payload s, s, decoded, rfl⟩
    rw [body, List.length_append]
    omega

end Decoder

end Aqua
