import Aqua.Proofs.Layout
import Aqua.Proofs.Poll

/-! # Streams that arrive in chunks

No stage of the decoder waits for bytes: a stage that is entered with some of its bytes reads all of
them or fails. A stream that is decoded when it arrives at once is therefore decoded in chunks exactly
when every chunk ends between two stages, or directly behind the first byte of a frame.
-/

namespace Aqua

open Wire Wire.Reader

/-- The places where a stream may be cut: in front of a frame and behind its first byte, its fixed
header, its variable header and its payload. -/
inductive SafeCut (protocolVersion : Option ProtocolVersion) : Bytes → ℕ → Prop
  | start (buf : Bytes) : SafeCut protocolVersion buf 0
  | firstByte (buf : Bytes) : SafeCut protocolVersion buf 1
  | fixedHeader {buf : Bytes} {parts : Layout.Parts}
      (front : Layout.frame protocolVersion buf = some parts) :
      SafeCut protocolVersion buf parts.fixedHeader
  | variableHeader {buf : Bytes} {parts : Layout.Parts}
      (front : Layout.frame protocolVersion buf = some parts) :
      SafeCut protocolVersion buf (parts.fixedHeader + parts.variableHeader)
  | behind {buf : Bytes} {parts : Layout.Parts} {cut : ℕ}
      (front : Layout.frame protocolVersion buf = some parts)
      (safe : SafeCut protocolVersion (buf.drop parts.size) cut) :
      SafeCut protocolVersion buf (parts.size + cut)

private theorem safeCut_iff {protocolVersion : Option ProtocolVersion} {buf : Bytes} {parts : Layout.Parts}
    (front : Layout.frame protocolVersion buf = some parts) {cut : ℕ} :
    SafeCut protocolVersion buf cut ↔ cut < 2 ∨ parts.fixedHeader ≤ cut ∧
      (cut - parts.fixedHeader = 0 ∨ parts.variableHeader ≤ cut - parts.fixedHeader ∧
        (cut - parts.fixedHeader - parts.variableHeader = 0 ∨
          parts.payload ≤ cut - parts.fixedHeader - parts.variableHeader ∧
            SafeCut protocolVersion (buf.drop parts.size)
              (cut - parts.fixedHeader - parts.variableHeader - parts.payload))) := by
  constructor
  · intro safe
    cases safe with
    | start => exact .inl (by decide)
    | firstByte => exact .inl (by decide)
    | fixedHeader front' =>
      cases front.symm.trans front'
      exact .inr ⟨le_rfl, .inl (Nat.sub_self _)⟩
    | variableHeader front' =>
      cases front.symm.trans front'
      exact .inr ⟨by omega, .inr ⟨by omega, .inl (by omega)⟩⟩
    | @behind _ _ cut front' safe =>
      cases front.symm.trans front'
      have left : parts.size + cut - parts.fixedHeader - parts.variableHeader - parts.payload = cut := by
        simp only [Layout.Parts.size]
        omega
      simp only [Layout.Parts.size] at left ⊢
      refine .inr ⟨by omega, .inr ⟨by omega, .inr ⟨by omega, ?_⟩⟩⟩
      rw [left]
      exact safe
  · rintro (small | ⟨le, zero | ⟨le', zero | ⟨le'', safe⟩⟩⟩)
    · rcases (show cut = 0 ∨ cut = 1 by omega) with rfl | rfl
      · exact .start buf
      · exact .firstByte buf
    · obtain rfl : cut = parts.fixedHeader := by omega
      exact .fixedHeader front
    · obtain rfl : cut = parts.fixedHeader + parts.variableHeader := by omega
      exact .variableHeader front
    · have whole := SafeCut.behind front safe
      have total : parts.size +
          (cut - parts.fixedHeader - parts.variableHeader - parts.payload) = cut := by
        simp only [Layout.Parts.size]
        omega
      rw [total] at whole
      exact whole

namespace Decoder

variable {build : Build} {d next final : Decoder} {packets : List ControlPacket} {cut : ℕ}

/-- A run that ends between two frames with nothing left moves every decoder that has something
left to do. -/
theorem drains_step (drains : Drains (pollDecode build) d packets final)
    (done : final.state = .done) (empty : final.buf = []) (busy : d.buf ≠ [] ∨ d.state ≠ .done) :
    ∃ ready next rest, d.pollDecode build = .ok (ready, next) ∧ ¬ d.Stalled build ∧
      Drains (pollDecode build) next rest final := by
  have moves : ¬ d.Stalled build := by
    intro stalled
    obtain ⟨_, rfl⟩ := drains.of_idle stalled
    rcases busy with some_byte | open_
    · exact some_byte empty
    · exact open_ done
  cases drains with
  | idle stalled => exact (moves stalled).elim
  | pending step rest => exact ⟨_, _, _, step, moves, rest⟩
  | ready step rest => exact ⟨_, _, _, step, moves, rest⟩

/-- The first `cut` bytes of the buffer are decoded without a failure. -/
def PrefixRests (build : Build) (d : Decoder) (cut : ℕ) : Prop :=
  ∃ outs last, Drains (pollDecode build) (d.holding (d.buf.take cut)) outs last

/-- Between two frames a decoder waits in front of the first two bytes. -/
theorem prefixRests_done {ready : Option ControlPacket} {count : ℕ}
    (polled : d.pollDecode build = .ok (ready, next)) (moves : ¬ d.Stalled build)
    (within : count ≤ d.buf.length) (left : next.buf = d.buf.drop count) (state : d.state = .done) :
    d.PrefixRests build cut ↔ cut < 2 ∨ count ≤ cut ∧ next.PrefixRests build (cut - count) := by
  obtain ⟨nonempty, long⟩ := not_stalled_iff.mp moves
  have := long state
  rw [PrefixRests, drains_take_iff polled moves within left, stalled_iff, holding_buf, holding_state,
    List.take_eq_nil_iff, List.length_take]
  refine or_congr ?_ Iff.rfl
  simp only [nonempty, state, true_and, or_false]
  omega

/-- Inside a frame it waits for one byte. -/
theorem prefixRests_open {ready : Option ControlPacket} {count : ℕ}
    (polled : d.pollDecode build = .ok (ready, next)) (moves : ¬ d.Stalled build)
    (within : count ≤ d.buf.length) (left : next.buf = d.buf.drop count) (state : d.state ≠ .done) :
    d.PrefixRests build cut ↔ cut = 0 ∨ count ≤ cut ∧ next.PrefixRests build (cut - count) := by
  have nonempty := (not_stalled_iff.mp moves).1
  rw [PrefixRests, drains_take_iff polled moves within left, stalled_iff, holding_buf, holding_state,
    List.take_eq_nil_iff]
  refine or_congr ?_ Iff.rfl
  simp only [nonempty, state, false_and, or_false]

section Stages

variable (drains : Drains (pollDecode build) d packets final) (done : final.state = .done)
  (empty : final.buf = [])

include drains done empty

private theorem fixedHeader_stage (state : d.state = .done) (nonempty : d.buf ≠ []) :
    ∃ start remainingLength size rest,
      decodeFixedHeader d.buf 0 = .ok ((start, remainingLength), size) ∧ size ≤ d.buf.length ∧
      Drains (pollDecode build) (d.afterFixedHeader start remainingLength (d.buf.drop size)) rest
        final ∧
      ∀ cut, d.PrefixRests build cut ↔ cut < 2 ∨ size ≤ cut ∧
        (d.afterFixedHeader start remainingLength (d.buf.drop size)).PrefixRests build (cut - size) := by
  obtain ⟨ready, next, rest, polled, moves, drains⟩ := drains_step drains done empty (.inl nonempty)
  cases pollDecode_eq_ok_iff.mp polled with
  | empty none => exact (nonempty none).elim
  | short => exact (moves polled).elim
  | whole headed => cases state.symm.trans headed
  | partly headed => cases state.symm.trans headed
  | payload headed => cases state.symm.trans headed
  | fixedHeader _ _ header =>
    have within := decodeFixedHeader_lawful.within header (Nat.zero_le _)
    exact ⟨_, _, _, rest, header, within, drains,
      fun _ => prefixRests_done polled moves within rfl state⟩

private theorem variableHeader_stage (state : d.state = .fixedHeaderDecoded)
    (fresh : d.remainLengthCounter = 0) :
    ∃ headed size next rest, d.tmpPacket.decodeVariableHeader build d.remainingLength
        d.protocolVersion d.buf 0 = .ok (headed, size) ∧ size ≤ d.buf.length ∧
      Drains (pollDecode build) next rest final ∧
      (∀ cut, d.PrefixRests build cut ↔
        cut = 0 ∨ size ≤ cut ∧ next.PrefixRests build (cut - size)) ∧
      (size = d.remainingLength ∧ next = d.afterPacket size (d.buf.drop size) ∨
        size ≠ d.remainingLength ∧ next = d.afterVariableHeader headed size (d.buf.drop size)) := by
  have open_ : d.state ≠ .done := by
    rw [state]
    exact DecoderState.noConfusion
  obtain ⟨ready, next, rest, polled, moves, drains⟩ := drains_step drains done empty (.inr open_)
  cases pollDecode_eq_ok_iff.mp polled with
  | empty none => exact (moves polled).elim
  | short => exact (moves polled).elim
  | fixedHeader closed => cases state.symm.trans closed
  | payload headed => cases state.symm.trans headed
  | whole _ _ header ends =>
    have within := (d.tmpPacket.decodeVariableHeader_lawful build _ _).within header (Nat.zero_le _)
    rw [fresh, Nat.zero_add] at ends polled drains
    exact ⟨_, _, _, rest, header, within, drains,
      fun _ => prefixRests_open polled moves within rfl open_, .inl ⟨ends, rfl⟩⟩
  | partly _ _ header ends =>
    have within := (d.tmpPacket.decodeVariableHeader_lawful build _ _).within header (Nat.zero_le _)
    rw [fresh, Nat.zero_add] at ends polled drains
    exact ⟨_, _, _, rest, header, within, drains,
      fun _ => prefixRests_open polled moves within rfl open_, .inr ⟨ends, rfl⟩⟩

private theorem payload_stage (state : d.state = .variableHeaderDecoded) :
    ∃ packet left rest, d.tmpPacket.decodePayload d.buf = .ok (packet, left) ∧
      Drains (pollDecode build) (d.afterPacket d.remainLengthCounter left) rest final ∧
      ∀ count ≤ d.buf.length, left = d.buf.drop count → ∀ cut, d.PrefixRests build cut ↔
        cut = 0 ∨ count ≤ cut ∧
          (d.afterPacket d.remainLengthCounter left).PrefixRests build (cut - count) := by
  have open_ : d.state ≠ .done := by
    rw [state]
    exact DecoderState.noConfusion
  obtain ⟨ready, next, rest, polled, moves, drains⟩ := drains_step drains done empty (.inr open_)
  cases pollDecode_eq_ok_iff.mp polled with
  | empty none => exact (moves polled).elim
  | short => exact (moves polled).elim
  | fixedHeader closed => cases state.symm.trans closed
  | whole headed => cases state.symm.trans headed
  | partly headed => cases state.symm.trans headed
  | payload _ _ payload =>
    exact ⟨_, _, rest, payload, drains,
      fun _ within left _ => prefixRests_open polled moves within left open_⟩

end Stages

/-- A fixed header has a first byte and a length of at least one digit. -/
theorem two_le_fixedHeader {buf : Bytes} {start : ControlPacket} {remainingLength size : ℕ}
    (read : decodeFixedHeader buf 0 = .ok ((start, remainingLength), size)) : 2 ≤ size := by
  obtain ⟨first, _, _, announced⟩ := decodeFixedHeader_eq_ok_iff.mp read
  exact (decodeVariableLength_progresses announced).1

/-- The prefixes of a decoded stream that come to rest are those cut at a safe place, by induction
over the bytes left. -/
theorem prefixRests_iff (state : d.state = .done) (addressable : d.buf.length < usizeModulus)
    (drains : Drains (pollDecode build) d packets final) (done : final.state = .done)
    (empty : final.buf = []) (inside : cut ≤ d.buf.length) :
    d.PrefixRests build cut ↔ SafeCut d.protocolVersion d.buf cut := by
  induction bytes : d.buf.length using Nat.strong_induction_on generalizing d packets cut with
  | _ bytes ih =>
  subst bytes
  by_cases nothing : d.buf = []
  · obtain rfl : cut = 0 := by
      rw [nothing, List.length_nil] at inside
      omega
    exact iff_of_true ⟨[], _, .idle (pollDecode_empty rfl)⟩ (.start _)
  -- the frames behind this one
  have behind {e : Decoder} {rest : List ControlPacket} {count : ℕ}
      (drains : Drains (pollDecode build) e rest final) (state : e.state = .done)
      (version : e.protocolVersion = d.protocolVersion) (left : e.buf = d.buf.drop count)
      (more : 2 ≤ count) :
      e.PrefixRests build (cut - count) ↔
        SafeCut d.protocolVersion (d.buf.drop count) (cut - count) := by
    have some_byte := List.length_pos_iff.mpr nothing
    have fewer : e.buf.length = d.buf.length - count := by rw [left, List.length_drop]
    rw [← version, ← left]
    exact ih e.buf.length (by omega) state (by omega) drains (by omega) rfl
  obtain ⟨start, remainingLength, fixed, _, fixedRead, within, drains, first⟩ :=
    fixedHeader_stage drains done empty state nothing
  have two := two_le_fixedHeader fixedRead
  obtain ⟨headed, size, next, _, header, within', drains, second, ends⟩ :=
    variableHeader_stage drains done empty rfl rfl
  simp only [afterFixedHeader] at header within' ends
  rw [first, second]
  rcases ends with ⟨whole, rfl⟩ | ⟨partly, rfl⟩
  · have rest := behind drains rfl rfl List.drop_drop (by omega)
    rw [safeCut_iff (Layout.frame_eq_some fixedRead header (if_pos whole))]
    refine or_congr Iff.rfl (and_congr_right fun _ => or_congr Iff.rfl (and_congr_right fun _ => ?_))
    rw [Nat.sub_sub, rest]
    -- behind the variable header is in front of the next frame
    constructor
    · exact fun safe => .inr ⟨Nat.zero_le _, safe⟩
    · rintro (zero | ⟨_, safe⟩)
      · rw [zero]
        exact .start _
      · exact safe
  · obtain ⟨packet, left, _, payload, drains, third⟩ := payload_stage drains done empty rfl
    have fewer : (d.buf.drop fixed).length ≤ d.buf.length := by
      rw [List.length_drop]
      omega
    obtain ⟨count, layout, within'', rfl⟩ :=
      ControlPacket.decodePayload_layout header partly (by omega) payload
    have rest := behind drains rfl rfl (show _ = d.buf.drop (fixed + size + count) by
      rw [← List.drop_drop, ← List.drop_drop]
      rfl) (by omega)
    rw [safeCut_iff (Layout.frame_eq_some fixedRead header layout), third count within'' rfl]
    refine or_congr Iff.rfl (and_congr_right fun _ => or_congr Iff.rfl (and_congr_right fun _ =>
      or_congr Iff.rfl (and_congr_right fun _ => ?_)))
    rw [show cut - fixed - size - count = cut - (fixed + size + count) by omega, rest]
    rfl

end Decoder

/-- A stream that a fresh decoder decodes when it arrives at once, ending between two frames with
nothing left, is decoded into the same packets when it arrives in chunks, if and only if it is cut
at safe places only. -/
theorem chunked_stream_iff (build : Build) (version : ProtocolVersion) (stream : Bytes)
    (addressable : stream.length < usizeModulus) {packets : List ControlPacket} {final : Decoder}
    (whole : Drains (Decoder.pollDecode build)
      ((Decoder.new.setProtocolVersion (some version)).feed stream) packets final)
    (done : final.state = .done) (empty : final.buf = []) (chunks : List Bytes)
    (same : chunks.flatten = stream) :
    (∃ last, Feeds (Decoder.pollDecode build) Decoder.feed
        (Decoder.new.setProtocolVersion (some version)) chunks packets last) ↔
      ∀ k, 0 < k → k < chunks.length →
        SafeCut (some version) stream (chunks.take k).flatten.length := by
  subst same
  by_cases none : chunks = []
  · subst none
    refine iff_of_true ?_ fun k _ lt => absurd lt (Nat.not_lt_zero k)
    obtain ⟨rfl, _⟩ := whole.of_idle (Decoder.pollDecode_empty rfl)
    exact ⟨_, .nil _⟩
  rw [(Decoder.incremental build).feeds_iff none whole]
  refine forall_congr' fun k => imp_congr_right fun _ => imp_congr_right fun _ => ?_
  have cut : chunks.flatten.take (chunks.take k).flatten.length = (chunks.take k).flatten := by
    have split := congrArg List.flatten (List.take_append_drop k chunks)
    rw [List.flatten_append] at split
    rw [← split, List.take_left]
  have inside : (chunks.take k).flatten.length ≤ chunks.flatten.length := by
    rw [← cut, List.length_take]
    exact Nat.min_le_right _ _
  have rests := Decoder.prefixRests_iff rfl addressable whole done empty inside
  have held : ((Decoder.new.setProtocolVersion (some version)).feed chunks.flatten).buf =
    chunks.flatten := rfl
  rw [Decoder.PrefixRests, held, cut] at rests
  exact rests

/-- A QoS 0 PUBLISH of version 4 with the topic "a" and the payload "hi". -/
def smallPublish : Bytes := [0x30, 0x05, 0x00, 0x01, 0x61, 0x68, 0x69]

/-- The decoder that has read it. -/
def afterSmallPublish : Decoder := {
  protocolVersion := some ⟨4⟩
  remainingLength := 5
  remainLengthCounter := 3 }

private theorem smallPublish_drains : Drains (Decoder.pollDecode ⟨true⟩)
    ((Decoder.new.setProtocolVersion (some ⟨4⟩)).feed smallPublish)
    [.publish { topicName := ⟨"a"⟩, payloadLength := 2, payloadData := [0x68, 0x69] }]
    afterSmallPublish :=
  .pending rfl (.pending rfl (.ready rfl (.idle rfl)))

/-- Cut behind the first byte and behind the variable header. -/
theorem chunked_stream_iff_smallPublish : ∃ last, Feeds (Decoder.pollDecode ⟨true⟩) Decoder.feed
    (Decoder.new.setProtocolVersion (some ⟨4⟩)) [[0x30], [0x05, 0x00, 0x01, 0x61], [0x68, 0x69]]
    [.publish { topicName := ⟨"a"⟩, payloadLength := 2, payloadData := [0x68, 0x69] }] last := by
  refine (chunked_stream_iff ⟨true⟩ ⟨4⟩ smallPublish (by decide) smallPublish_drains rfl rfl _ rfl).mpr ?_
  intro k pos lt
  rw [List.length_cons, List.length_cons, List.length_cons, List.length_nil] at lt
  rcases (show k = 1 ∨ k = 2 by omega) with rfl | rfl
  · exact .firstByte _
  · exact .variableHeader (show Layout.frame (some ⟨4⟩) smallPublish = some ⟨2, 3, 2⟩ from rfl)

/-- Cut inside the topic length, the first chunk aborts the thread. -/
theorem smallPublish_cut_panics :
    ¬ ∀ (stream : Bytes) (packets : List ControlPacket) (final : Decoder),
      Drains (Decoder.pollDecode ⟨true⟩)
        ((Decoder.new.setProtocolVersion (some ⟨4⟩)).feed stream) packets final →
      final.state = .done → final.buf = [] →
      ∀ chunks : List Bytes, (∀ chunk ∈ chunks, chunk ≠ []) → chunks.flatten = stream →
        ∃ last, Feeds (Decoder.pollDecode ⟨true⟩) Decoder.feed
          (Decoder.new.setProtocolVersion (some ⟨4⟩)) chunks packets last := by
  intro invariant
  obtain ⟨last, fed⟩ := invariant smallPublish _ _ smallPublish_drains rfl rfl
    [[0x30, 0x05, 0x00], [0x01, 0x61, 0x68, 0x69]] (by decide) rfl
  obtain ⟨outs, rested, drains⟩ := (Decoder.incremental ⟨true⟩).prefix_of_feeds fed
    (show 0 < 1 by decide) (by decide)
  let headed : Decoder := {
    state := .fixedHeaderDecoded
    tmpPacket := .publish {}
    protocolVersion := some ⟨4⟩
    remainingLength := 5
    buf := [0x00] }
  have step : (Decoder.feed (Decoder.new.setProtocolVersion (some ⟨4⟩)) [0x30, 0x05, 0x00]).pollDecode
    ⟨true⟩ = .ok (none, headed) := rfl
  have aborts : headed.pollDecode ⟨true⟩ = .panic := rfl
  obtain ⟨ready, next, polled⟩ := ((Drains.pending_iff step).mp drains).polls
  cases aborts.symm.trans polled

end Aqua
