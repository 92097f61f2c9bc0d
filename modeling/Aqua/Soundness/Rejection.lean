import Aqua.Proofs.PacketGrammar
import Aqua.Soundness.Progress

/-! # Malformed frames

A complete frame that does not decode is rejected with an error, and no poll aborts, unless one of two
things happens: the received bytes end inside a field that is read unchecked, or a header or payload
that is well formed reaches past the end of its frame. The grammar says which bytes these are.
-/

namespace Aqua

open Wire Wire.Reader

/-- The received bytes end inside an unchecked field, or the packet reaches past its frame: with a
payload behind it, with a payload cut in the same way, or with nothing left to decode it from. -/
def Frame.Overreads (build : Build) (version : ProtocolVersion) (frame : Frame) (s : Bytes) : Prop :=
  ∃ start, packetOfFirstByte frame.first = .ok start ∧
    let received := frame.body ++ s
    let header := Grammar.header build version start frame.body.length
    header.Cut received 0 ∨ ∃ payload size, header.Spans received 0 payload size ∧
      size ≠ frame.body.length ∧
        (received.drop size = [] ∨ payload.Cut (received.drop size) 0 ∨
          ∃ count, payload.Spans (received.drop size) 0 () count ∧ frame.body.length < size + count)

section Frames

variable {build : Build} {version : ProtocolVersion} {frame : Frame} {s : Bytes}
  {start : ControlPacket}

/-- Overreading, said of the decoders. -/
theorem Frame.overreads_iff (kind : packetOfFirstByte frame.first = .ok start) :
    frame.Overreads build version s ↔
      start.decodeVariableHeader build frame.body.length (some version) (frame.body ++ s) 0 = .panic ∨
        ∃ headed size, start.decodeVariableHeader build frame.body.length (some version)
            (frame.body ++ s) 0 = .ok (headed, size) ∧ size ≠ frame.body.length ∧
          ((frame.body ++ s).drop size = [] ∨
            headed.decodePayload ((frame.body ++ s).drop size) = .panic ∨
            ∃ count packet, count ≤ ((frame.body ++ s).drop size).length ∧
              headed.decodePayload ((frame.body ++ s).drop size) =
                .ok (packet, ((frame.body ++ s).drop size).drop count) ∧
              frame.body.length < size + count) := by
  have describes := ControlPacket.decodeVariableHeader_describes build version frame.body.length
    (packetOfFirstByte_fresh kind)
  constructor
  · rintro ⟨start', kind', cut | ⟨payload, size, spans, partly, ends⟩⟩
    · cases kind.symm.trans kind'
      exact .inl (describes.cut.mpr cut)
    · cases kind.symm.trans kind'
      obtain ⟨headed, header, meets⟩ := describes.complete spans
      refine .inr ⟨headed, size, header, partly, ends.imp id (Or.imp meets.cut.mpr ?_)⟩
      rintro ⟨count, reached, beyond⟩
      obtain ⟨within, packet, decoded⟩ := meets.spans_iff.mp reached
      exact ⟨count, packet, within, decoded, beyond⟩
  · rintro (stuck | ⟨headed, size, header, partly, ends⟩)
    · exact ⟨start, kind, .inl (describes.cut.mp stuck)⟩
    · obtain ⟨payload, spans, meets⟩ := describes.sound header
      refine ⟨start, kind, .inr ⟨payload, size, spans, partly, ends.imp id (Or.imp meets.cut.mp ?_)⟩⟩
      rintro ⟨count, packet, within, decoded, beyond⟩
      exact ⟨count, meets.spans_iff.mpr ⟨within, packet, decoded⟩, beyond⟩

/-- A frame is accepted from its own bytes exactly when, with the bytes behind it, its header and
payload end inside it. -/
theorem Frame.accepted_iff (kind : packetOfFirstByte frame.first = .ok start) :
    (∃ packet, frame.Accepted build (some version) packet) ↔
      ∃ headed size, start.decodeVariableHeader build frame.body.length (some version)
          (frame.body ++ s) 0 = .ok (headed, size) ∧
        (size = frame.body.length ∨ size < frame.body.length ∧ ∃ count packet,
          size + count ≤ frame.body.length ∧ headed.decodePayload ((frame.body ++ s).drop size) =
            .ok (packet, ((frame.body ++ s).drop size).drop count)) := by
  have lawful := start.decodeVariableHeader_lawful build frame.body.length (some version)
  have same {size : ℕ} (inside : size ≤ frame.body.length) :
      (frame.body ++ s).take size = frame.body.take size := List.take_append_of_le_length inside
  have left {size : ℕ} (inside : size ≤ frame.body.length) :
      (frame.body ++ s).drop size = frame.body.drop size ++ s := List.drop_append_of_le_length inside
  constructor
  · rintro ⟨packet, start', headed, size, kind', header, ends⟩
    cases kind.symm.trans kind'
    have inside := lawful.within header (Nat.zero_le _)
    refine ⟨headed, size, lawful.stable header (same inside), ends.imp And.left ?_⟩
    rintro ⟨partly, rest, payload⟩
    obtain ⟨count, _, takes⟩ := ControlPacket.decodePayload_takes payload
    have within := takes.within
    rw [List.length_drop] at within
    refine ⟨by omega, count, packet, by omega, takes.decodes ?_⟩
    rw [left inside, List.take_append_of_le_length takes.within]
  · rintro ⟨headed, size, header, ends⟩
    have inside : size ≤ frame.body.length := by
      rcases ends with rfl | ⟨before, _⟩ <;> omega
    have header' := lawful.stable header (same inside).symm
    rcases ends with whole | ⟨before, count, packet, enough, payload⟩
    · exact ⟨headed, start, headed, size, kind, header', .inl ⟨whole, rfl⟩⟩
    · obtain ⟨count', removed, takes⟩ := ControlPacket.decodePayload_takes payload
      have lengths := congrArg List.length removed
      have within := takes.within
      simp only [List.length_drop, List.length_append] at lengths within
      obtain rfl : count = count' := by omega
      refine ⟨packet, start, headed, size, kind, header', .inr ⟨by omega, _, takes.decodes ?_⟩⟩
      rw [left inside, List.take_append_of_le_length (by rw [List.length_drop]; omega)]

/-- With nothing received a DISCONNECT is complete, and any other packet is cut. -/
private theorem handled_empty (fresh : start.Fresh) :
    start = .disconnect {} ∧ start.decodeVariableHeader build 0 (some version) [] 0 = .ok (start, 0) ∨
      start.decodeVariableHeader build 0 (some version) [] 0 = .panic := by
  by_cases empty : start = .disconnect {}
  · subst empty
    exact .inl ⟨rfl, rfl⟩
  · exact .inr ((ControlPacket.decodeVariableHeader_describes build version 0 fresh).cut.mpr
      (fresh.header_cut build version 0 empty))

end Frames

/-- An outcome that is no abort, and an error unless the frame is acceptable. -/
def Handled (acceptable : Prop) (outcome : Result (Option ControlPacket × Decoder)) : Prop :=
  outcome ≠ .panic ∧ (¬ acceptable → ∃ e, outcome = .err e)

namespace Handled

variable {acceptable : Prop}

private theorem panic_iff : Handled acceptable .panic ↔ False := iff_false_intro fun handled => handled.1 rfl

private theorem err_iff (e : MqttError) : Handled acceptable (.err e) ↔ True := by
  refine iff_true_intro ⟨?_, fun _ => ⟨e, rfl⟩⟩
  intro wrong
  cases wrong

private theorem ok_iff (value : Option ControlPacket × Decoder) :
    Handled acceptable (.ok value) ↔ acceptable := by
  constructor
  · intro handled
    by_contra rejected
    obtain ⟨e, wrong⟩ := handled.2 rejected
    cases wrong
  · intro accepted
    refine ⟨?_, fun rejected => (rejected accepted).elim⟩
    intro wrong
    cases wrong

end Handled

namespace Decoder

variable {build : Build} {version : ProtocolVersion} {d : Decoder} {frame : Frame} {s : Bytes}
  {start : ControlPacket}

/-- What polling a whole frame ends in, unless it waits for more bytes. -/
theorem polls_eq_iff (done : d.state = .done) {outcome : Result (Option ControlPacket × Decoder)}
    (settled : ∀ next, outcome ≠ .ok (none, next)) :
    (∃ calls, (d.holding (frame.bytes ++ s)).pollUpTo build calls = outcome) ↔
      frameOutcome build d frame s = outcome := by
  constructor
  · rintro ⟨calls, rfl⟩
    exact (pollUpTo_frame done frame s calls).symm.trans (pollUpTo_settled (by omega) settled)
  · intro same
    exact ⟨3, (pollUpTo_frame done frame s 0).trans same⟩

/-- A payload behind a header that does not end the frame. -/
private theorem payload_handled_iff {headed : ControlPacket} {size n : ℕ} {received : Bytes}
    (long : n ≤ received.length) (partly : size ≠ n)
    (halts : headed.decodePayload (received.drop size) ≠ .diverge)
    (waiting : Decoder) (emitted : Bytes → Decoder) :
    Handled (size < n ∧ ∃ count packet, size + count ≤ n ∧
        headed.decodePayload (received.drop size) = .ok (packet, (received.drop size).drop count))
      (if received.drop size = [] then .ok (none, waiting)
      else headed.decodePayload (received.drop size) >>= fun decoded =>
        .ok (some decoded.1, emitted decoded.2)) ↔
      ¬ (received.drop size = [] ∨ headed.decodePayload (received.drop size) = .panic ∨
        ∃ count packet, count ≤ (received.drop size).length ∧ headed.decodePayload (received.drop size) =
          .ok (packet, (received.drop size).drop count) ∧ n < size + count) := by
  by_cases exhausted : received.drop size = []
  · rw [if_pos exhausted, Handled.ok_iff]
    have := List.drop_eq_nil_iff.mp exhausted
    refine iff_of_false ?_ fun reads => reads (.inl exhausted)
    rintro ⟨before, _⟩
    omega
  rw [if_neg exhausted, or_iff_right exhausted]
  cases decoded : headed.decodePayload (received.drop size) with
  | panic => exact Handled.panic_iff.trans (iff_of_false id fun reads => reads (.inl rfl))
  | diverge => exact (halts decoded).elim
  | err e =>
    refine (Handled.err_iff e).trans (iff_of_true trivial ?_)
    rintro (wrong | ⟨_, _, _, wrong, _⟩) <;> cases wrong
  | ok pair =>
    obtain ⟨packet, rest⟩ := pair
    rw [Outcome.ok_bind, Handled.ok_iff]
    obtain ⟨count, rfl, takes⟩ := ControlPacket.decodePayload_takes decoded
    have within := takes.within
    have unique {other : ℕ} {packet' : ControlPacket} (le : other ≤ (received.drop size).length)
        (same : (.ok (packet, (received.drop size).drop count) : Result _) =
          .ok (packet', (received.drop size).drop other)) : other = count := by
      have lengths := congrArg List.length (congrArg Prod.snd (Outcome.ok.inj same))
      simp only [List.length_drop] at lengths within le
      omega
    rw [List.length_drop] at within
    constructor
    · rintro ⟨before, count', packet', inside, same⟩ (wrong | ⟨other, _, le, same', beyond⟩)
      · cases wrong
      · have := unique le same'
        have := unique (by rw [List.length_drop]; omega) same
        omega
    · intro confined
      have inside : size + count ≤ n := by
        by_contra outside
        exact confined (.inr ⟨count, packet, takes.within, rfl, by omega⟩)
      exact ⟨by omega, count, packet, inside, rfl⟩

/-- The outcome of a frame whose first byte is known. -/
private theorem body_handled_iff (known : d.protocolVersion = some version)
    (kind : packetOfFirstByte frame.first = .ok start) :
    Handled (∃ packet, frame.Accepted build (some version) packet) (frameOutcome build d frame s) ↔
      ¬ frame.Overreads build version s := by
  have fresh := packetOfFirstByte_fresh kind
  have describes := ControlPacket.decodeVariableHeader_describes build version frame.body.length fresh
  rw [Frame.overreads_iff kind, @Frame.accepted_iff _ _ _ s _ kind, frameOutcome, kind, Outcome.ok_bind,
    bodyOutcome]
  simp only [afterFixedHeader, known]
  by_cases empty : frame.body ++ s = []
  · obtain ⟨body, rfl⟩ := List.append_eq_nil_iff.mp empty
    simp only [body, List.append_nil, List.length_nil, if_pos]
    rw [Handled.ok_iff]
    rcases @handled_empty build version _ fresh with ⟨_, header⟩ | header
    · rw [header]
      refine iff_of_true ⟨start, 0, rfl, .inl rfl⟩ ?_
      rintro (wrong | ⟨headed, size, same, partly, _⟩)
      · cases wrong
      · cases same
        exact partly rfl
    · rw [header]
      refine iff_of_false ?_ (fun reads => reads (.inl rfl))
      rintro ⟨_, _, wrong, _⟩
      cases wrong
  rw [if_neg empty]
  cases header : start.decodeVariableHeader build frame.body.length (some version) (frame.body ++ s) 0 with
  | panic => exact Handled.panic_iff.trans (iff_of_false id (fun reads => reads (.inl rfl)))
  | diverge => exact ((start.decodeVariableHeader_lawful build _ _).halts _ _ header).elim
  | err e =>
    refine (Handled.err_iff e).trans (iff_of_true trivial ?_)
    rintro (wrong | ⟨_, _, wrong, _⟩) <;> cases wrong
  | ok read =>
    obtain ⟨headed, size⟩ := read
    simp only [Outcome.ok_bind]
    by_cases whole : size = frame.body.length
    · rw [if_pos whole, Handled.ok_iff]
      refine iff_of_true ⟨headed, size, rfl, .inl whole⟩ ?_
      rintro (wrong | ⟨_, _, same, partly, _⟩)
      · cases wrong
      · cases same
        exact partly whole
    · rw [if_neg whole]
      obtain ⟨payload, _, meets⟩ := describes.sound header
      have long : frame.body.length ≤ (frame.body ++ s).length := by
        rw [List.length_append]
        omega
      have only {holds : ControlPacket → ℕ → Prop} : (∃ headed' size',
          (.ok (headed, size) : Result (ControlPacket × ℕ)) = .ok (headed', size') ∧
            holds headed' size') ↔ holds headed size := by
        constructor
        · rintro ⟨_, _, same, rest⟩
          cases same
          exact rest
        · exact fun rest => ⟨headed, size, rfl, rest⟩
      have aborts : ¬ (.ok (headed, size) : Result (ControlPacket × ℕ)) = .panic :=
        fun wrong => by cases wrong
      rw [only, only, or_iff_right whole, or_iff_right aborts, and_iff_right whole]
      exact payload_handled_iff long whole (meets.halts _) _ _

end Decoder

/-- Polling a whole frame never aborts, and rejects every frame that its own bytes do not decode, if
and only if nothing is read beyond the received bytes or the frame: for every first byte, every body,
every remaining-length field and whatever stands behind the frame. -/
theorem malformed_frame_iff (build : Build) (version : ProtocolVersion) (d : Decoder)
    (done : d.state = .done) (known : d.protocolVersion = some version) (frame : Frame) (s : Bytes) :
    ((∀ calls, (d.holding (frame.bytes ++ s)).pollUpTo build calls ≠ .panic) ∧
      ((¬ ∃ packet, frame.Accepted build (some version) packet) →
        ∃ calls e, (d.holding (frame.bytes ++ s)).pollUpTo build calls = .err e)) ↔
      ¬ frame.Overreads build version s := by
  have aborts := @Decoder.polls_eq_iff build d frame s done .panic (fun _ wrong => by cases wrong)
  have fails (e : MqttError) :=
    @Decoder.polls_eq_iff build d frame s done (.err e) (fun _ wrong => by cases wrong)
  rw [← not_exists, aborts, exists_comm]
  simp only [fails]
  rcases packetOfFirstByte_outcome frame.first with ⟨e, refused⟩ | ⟨start, kind, _⟩
  · rw [Decoder.frameOutcome, refused, Outcome.err_bind]
    refine (Handled.err_iff e).trans (iff_of_true trivial ?_)
    rintro ⟨start, wrong, _⟩
    cases refused.symm.trans wrong
  · exact Decoder.body_handled_iff known kind

/-- A SUBSCRIBE that ends inside its packet identifier. -/
def cutSubscribe : Frame where
  first := 0b10000010
  lengthField := [1]
  body := [0x00]
  announced := rfl

theorem malformed_frame_iff_cutSubscribe :
    ¬ ((∀ calls, ((Decoder.new.setProtocolVersion (some ⟨4⟩)).holding
          (cutSubscribe.bytes ++ [])).pollUpTo ⟨true⟩ calls ≠ .panic) ∧
        ((¬ ∃ packet, cutSubscribe.Accepted ⟨true⟩ (some ⟨4⟩) packet) →
          ∃ calls e, ((Decoder.new.setProtocolVersion (some ⟨4⟩)).holding
            (cutSubscribe.bytes ++ [])).pollUpTo ⟨true⟩ calls = .err e)) := by
  have short : (cutSubscribe.body ++ []).length < 0 + 2 := by decide
  have overreads : cutSubscribe.Overreads ⟨true⟩ ⟨4⟩ [] :=
    ⟨.subscribe {}, by decide, .inl (.inr ⟨0, 0, ⟨rfl, rfl⟩, .inl short⟩)⟩
  exact mt (malformed_frame_iff ⟨true⟩ ⟨4⟩ _ rfl rfl cutSubscribe []).mp (not_not.mpr overreads)

/-- The packet identifier of the sample is indexed out of range. -/
theorem cutSubscribe_panics :
    ¬ ∀ calls, ((Decoder.new.setProtocolVersion (some ⟨4⟩)).holding
      (cutSubscribe.bytes ++ [])).pollUpTo ⟨true⟩ calls ≠ .panic := by
  intro safe
  exact safe 3 (by decide)

end Aqua
