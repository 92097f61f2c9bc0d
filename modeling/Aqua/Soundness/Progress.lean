import Aqua.Proofs.Poll

/-! # Progress of the streaming decoder

When the bytes of a frame have all arrived a poll moves the decoder, with one exception: the
test for an empty buffer comes before the state is looked at, so a decoder whose buffer was emptied
by the fixed header, or by a variable header that ran past the frame, waits for bytes it does not
need.
-/

namespace Aqua

open Wire Wire.Reader

namespace Decoder

/-- The states a decoder passes through: bytes arrive, the version is set, polls return. -/
inductive Reachable (build : Build) : Decoder → Prop
  | new : Reachable build new
  | setProtocolVersion {d : Decoder} (version : Option ProtocolVersion)
      (reachable : Reachable build d) : Reachable build (d.setProtocolVersion version)
  | feed {d : Decoder} (bytes : Bytes) (reachable : Reachable build d) :
      Reachable build (d.feed bytes)
  | poll {d next : Decoder} {ready : Option ControlPacket} (reachable : Reachable build d)
      (polled : d.pollDecode build = .ok (ready, next)) : Reachable build next

/-- The counter starts anew with each frame, and differs from the remaining length as long as
the payload is waited for. -/
def Counts (d : Decoder) : Prop :=
  match d.state with
  | .done => True
  | .fixedHeaderDecoded => d.remainLengthCounter = 0
  | .variableHeaderDecoded => d.remainLengthCounter ≠ d.remainingLength

variable {build : Build} {d next : Decoder}

theorem Reachable.counts (reachable : Reachable build d) : d.Counts := by
  induction reachable with
  | new => exact trivial
  | setProtocolVersion version _ ih => exact ih
  | feed bytes _ ih => exact ih
  | poll _ polled ih =>
    cases pollDecode_eq_ok_iff.mp polled with
    | empty => exact ih
    | short => exact ih
    | fixedHeader => exact (rfl : (0 : ℕ) = 0)
    | whole => exact trivial
    | partly _ _ _ open_ => exact open_
    | payload => exact trivial

/-- All bytes of the frame being decoded have been received. -/
def Received (d : Decoder) : Prop :=
  match d.state with
  | .done => ∃ (frame : Frame) (after : Bytes) (packet : ControlPacket),
      d.buf = frame.bytes ++ after ∧ packetOfFirstByte frame.first = .ok packet
  | .fixedHeaderDecoded => d.remainingLength ≤ d.buf.length
  | .variableHeaderDecoded => d.remainingLength ≤ d.remainLengthCounter + d.buf.length

/-- The buffer is empty behind a fixed header that announces nothing, or behind a variable header
longer than announced. -/
def Exhausted (d : Decoder) : Prop :=
  d.buf = [] ∧ (d.state = .fixedHeaderDecoded ∧ d.remainingLength = 0 ∨
    d.state = .variableHeaderDecoded ∧ d.remainingLength < d.remainLengthCounter)

private theorem received_stalled_iff (reachable : Reachable build d) (received : d.Received) :
    d.Stalled build ↔ d.Exhausted := by
  have counts := reachable.counts
  rw [stalled_iff, Exhausted]
  unfold Counts at counts
  unfold Received at received
  split at received
  · next done =>
    obtain ⟨frame, after, packet, held, _⟩ := received
    have long := frame.two_le_length
    refine iff_of_false ?_ ?_
    · rintro (empty | ⟨_, short⟩)
      · rw [empty] at held
        have := congrArg List.length held
        simp only [List.length_nil, List.length_append] at this
        omega
      · rw [held, List.length_append] at short
        omega
    · rintro ⟨_, ⟨headed, _⟩ | ⟨headed, _⟩⟩
      all_goals exact nomatch headed.symm.trans done
  · next headed =>
    constructor
    · rintro (empty | ⟨done, _⟩)
      · rw [empty, List.length_nil] at received
        exact ⟨empty, .inl ⟨headed, by omega⟩⟩
      · exact nomatch headed.symm.trans done
    · exact fun ⟨empty, _⟩ => .inl empty
  · next headed =>
    rw [headed] at counts
    constructor
    · rintro (empty | ⟨done, _⟩)
      · rw [empty, List.length_nil] at received
        exact ⟨empty, .inr ⟨headed, by dsimp only at counts; omega⟩⟩
      · exact nomatch headed.symm.trans done
    · exact fun ⟨empty, _⟩ => .inl empty

end Decoder

/-- The frame is decoded into `packet` from its own bytes. -/
def Frame.Accepted (build : Build) (protocolVersion : Option ProtocolVersion) (frame : Frame)
    (packet : ControlPacket) : Prop :=
  ∃ start headed size, packetOfFirstByte frame.first = .ok start ∧
    start.decodeVariableHeader build frame.body.length protocolVersion frame.body 0 =
      .ok (headed, size) ∧
    (size = frame.body.length ∧ packet = headed ∨
      size ≠ frame.body.length ∧
        ∃ rest, headed.decodePayload (frame.body.drop size) = .ok (packet, rest))

private theorem Frame.Accepted.emitted_iff {build : Build} {d : Decoder} {frame : Frame} {s : Bytes}
    {packet : ControlPacket} (accepted : frame.Accepted build d.protocolVersion packet)
    (done : d.state = .done) :
    (∃ next, (d.holding (frame.bytes ++ s)).pollUpTo build 3 = .ok (some packet, next)) ↔
      ¬ (frame.body = [] ∧ s = []) := by
  obtain ⟨start, headed, size, first, header, stages⟩ := accepted
  simp only [Decoder.pollUpTo_frame done frame s 0, Decoder.frameOutcome, first, Outcome.ok_bind,
    Decoder.bodyOutcome_eq_some_iff]
  constructor
  · rintro ⟨next, nonempty, _⟩ ⟨body, behind⟩
    exact nonempty (by simp only [Decoder.afterFixedHeader, body, behind, List.append_nil])
  · intro some_byte
    have nonempty : frame.body ++ s ≠ [] := fun empty => some_byte (List.append_eq_nil_iff.mp empty)
    have within := (start.decodeVariableHeader_lawful build _ _).within header (Nat.zero_le _)
    have agree : (frame.body ++ s).take size = frame.body.take size :=
      List.take_append_of_le_length within
    have header' := (start.decodeVariableHeader_lawful build _ _).stable header agree
    rcases stages with ⟨whole, rfl⟩ | ⟨partly, rest, payload⟩
    · exact ⟨_, nonempty, packet, size, header', .inl ⟨whole, rfl, rfl⟩⟩
    · obtain ⟨count, _, takes⟩ := ControlPacket.decodePayload_takes payload
      have left : (frame.body ++ s).drop size = frame.body.drop size ++ s :=
        List.drop_append_of_le_length within
      have payload' := takes.decodes (show ((frame.body ++ s).drop size).take count = _ by
        rw [left, List.take_append_of_le_length takes.within])
      refine ⟨_, nonempty, headed, size, header', .inr ⟨partly, ?_, _, payload', rfl⟩⟩
      exact List.ne_nil_of_length_pos (by
        simp only [Decoder.afterFixedHeader, List.length_drop, List.length_append]
        omega)

/-- No reachable decoder that has received all of its frame stalls, except one whose buffer was
emptied in front of an empty body or by an over-long variable header; and three polls emit an
accepted frame unless it has no body and nothing stands behind it. -/
theorem no_stall_iff (build : Build) :
    (∀ d : Decoder, d.Reachable build → d.Received → (¬ d.Stalled build ↔ ¬ d.Exhausted)) ∧
      ∀ (d : Decoder) (frame : Frame) (s : Bytes) (packet : ControlPacket), d.state = .done →
        frame.Accepted build d.protocolVersion packet →
          ((∃ next, (d.holding (frame.bytes ++ s)).pollUpTo build 3 = .ok (some packet, next)) ↔
            ¬ (frame.body = [] ∧ s = [])) :=
  ⟨fun _ reachable received => not_congr (Decoder.received_stalled_iff reachable received),
    fun _ _ _ _ done accepted => accepted.emitted_iff done⟩

/-- A DISCONNECT without a body. -/
def emptyDisconnect : Frame where
  first := 0b11100000
  lengthField := [0]
  body := []
  announced := rfl

/-- The decoder behind the fixed header of that DISCONNECT. -/
def afterEmptyDisconnect : Decoder := {
  state := .fixedHeaderDecoded
  tmpPacket := .disconnect {}
  protocolVersion := some ⟨5⟩ }

private theorem afterEmptyDisconnect_reachable (build : Build) : afterEmptyDisconnect.Reachable build := by
  have fed : ((Decoder.new.setProtocolVersion (some ⟨5⟩)).feed emptyDisconnect.bytes).Reachable build :=
    .feed _ (.setProtocolVersion _ .new)
  exact .poll fed (show _ = Outcome.ok (none, afterEmptyDisconnect) from rfl)

theorem no_stall_iff_emptyDisconnect :
    afterEmptyDisconnect.Stalled ⟨true⟩ ∧
      ∃ next, ((Decoder.new.setProtocolVersion (some ⟨5⟩)).holding
        (emptyDisconnect.bytes ++ [0xc0])).pollUpTo ⟨true⟩ 3 = .ok (some (.disconnect {}), next) := by
  constructor
  · by_contra moving
    exact ((no_stall_iff ⟨true⟩).1 _ (afterEmptyDisconnect_reachable _) (Nat.zero_le _)).mp moving
      ⟨rfl, .inl ⟨rfl, rfl⟩⟩
  · exact ((no_stall_iff ⟨true⟩).2 (Decoder.new.setProtocolVersion (some ⟨5⟩)) emptyDisconnect [0xc0]
      (.disconnect {}) rfl ⟨.disconnect {}, .disconnect {}, 0, rfl, rfl, .inl ⟨rfl, rfl⟩⟩).mpr
      (fun ⟨_, behind⟩ => nomatch behind)

/-- The frame is complete, and the decoder waits for ever. -/
theorem emptyDisconnect_stalls :
    ¬ ∀ d : Decoder, d.Reachable ⟨true⟩ → d.Received → ¬ d.Stalled ⟨true⟩ :=
  fun moves => moves afterEmptyDisconnect (afterEmptyDisconnect_reachable _) (Nat.zero_le _)
    (Decoder.pollDecode_empty rfl)

end Aqua
