import Aqua.Proofs.Layout
import Aqua.Proofs.Poll
import Mathlib.Logic.Relation

/-! # The bytes of one packet

What a decoder has taken from its buffer since the last packet is all that its state depends on, besides the version.
A decoder without a past that finds these bytes, and others behind them, gets to the same state; and it emits the
same packet when that is due.
-/

namespace Aqua

open Wire Wire.Reader

namespace Decoder

variable {build : Build} {d next : Decoder} {part : Bytes} {packet : ControlPacket}

/-- A decoder without a past. -/
def fresh (protocolVersion : Option ProtocolVersion) (buf : Bytes) : Decoder := { protocolVersion, buf }

/-- Polls that are pending. -/
def Pends (build : Build) : Decoder → Decoder → Prop :=
  Relation.ReflTransGen fun d next => d.pollDecode build = .ok (none, next)

theorem Pends.emits {headed : Decoder} (pends : Pends build d headed)
    (polled : headed.pollDecode build = .ok (some packet, next)) : d.Emits build packet next := by
  induction pends using Relation.ReflTransGen.head_induction_on with
  | refl =>
    refine ⟨1, ?_⟩
    simp only [pollUpTo, polled, Outcome.ok_bind]
    rfl
  | head first _ ih =>
    obtain ⟨calls, emitted⟩ := ih
    refine ⟨calls + 1, ?_⟩
    simp only [pollUpTo, first, Outcome.ok_bind]
    exact emitted

/-- The bytes `part` are those taken from the buffer since the last packet. -/
def Underway (build : Build) (part : Bytes) (d : Decoder) : Prop :=
  d.state = .done ∧ part = [] ∨
    d.state ≠ .done ∧ ∀ s, s ≠ [] → Pends build (fresh d.protocolVersion (part ++ s)) (d.holding s)

/-- A decoder without a past reads the packet from these bytes alone, whatever stands behind them. At least one byte
has to: a poll that finds an empty buffer does nothing. -/
def Alone (build : Build) (protocolVersion : Option ProtocolVersion) (segment : Bytes)
    (packet : ControlPacket) : Prop :=
  ∀ s, s ≠ [] → ∃ next, (fresh protocolVersion (segment ++ s)).Emits build packet next ∧ next.state = .done ∧
    next.buf = s

theorem Underway.feed (underway : d.Underway build part) (bytes : Bytes) : (d.feed bytes).Underway build part :=
  underway

/-- A fixed header does not depend on what was read before. -/
theorem fixedHeader_again {ready : Option ControlPacket} (done : d.state = .done)
    (polled : d.pollDecode build = .ok (ready, next)) (moves : ¬ d.Stalled build) :
    ∃ taken, d.buf = taken ++ next.buf ∧
      ∀ s, (fresh d.protocolVersion (taken ++ s)).pollDecode build = .ok (ready, next.holding s) := by
  cases pollDecode_eq_ok_iff.mp polled with
  | empty empty => exact absurd (pollDecode_empty empty) moves
  | short => exact absurd polled moves
  | @fixedHeader packet remainingLength size _ long header =>
    have within := decodeFixedHeader_lawful.within header (Nat.zero_le _)
    refine ⟨d.buf.take size, (List.take_append_drop size d.buf).symm, fun s => ?_⟩
    have length : (d.buf.take size).length = size := List.length_take_of_le within
    have agree : (d.buf.take size ++ s).take size = d.buf.take size := by rw [List.take_left' length]
    have rest : (d.buf.take size ++ s).drop size = s := by rw [List.drop_left' length]
    obtain ⟨_, _, _, announced⟩ := decodeFixedHeader_eq_ok_iff.mp header
    have two := (decodeVariableLength_progresses announced).1
    have again : Polled build (fresh d.protocolVersion (d.buf.take size ++ s)) none _ :=
      .fixedHeader rfl (by simp only [fresh, List.length_append]; omega)
        (decodeFixedHeader_lawful.stable header agree)
    simp only [fresh, rest] at again
    exact pollDecode_eq_ok_iff.mpr again
  | whole state => cases done.symm.trans state
  | partly state => cases done.symm.trans state
  | payload state => cases done.symm.trans state

/-- The bytes a poll takes, with others behind them, make a decoder without a past get to where the poll starts, and
the poll do the same. -/
theorem Underway.again {ready : Option ControlPacket} (underway : d.Underway build part)
    (polled : d.pollDecode build = .ok (ready, next)) (moves : ¬ d.Stalled build) :
    ∃ taken, d.buf = taken ++ next.buf ∧ ∀ s, s ≠ [] → ∃ before,
      Pends build (fresh d.protocolVersion (part ++ taken ++ s)) before ∧
        before.pollDecode build = .ok (ready, next.holding s) := by
  obtain ⟨done, rfl⟩ | ⟨headed, pends⟩ := underway
  · obtain ⟨taken, split, again⟩ := fixedHeader_again done polled moves
    exact ⟨taken, split, fun s _ => ⟨_, .refl, again s⟩⟩
  · obtain ⟨count, within, left, takes⟩ := pollDecode_takes polled moves
    have length : (d.buf.take count).length = count := List.length_take_of_le within
    refine ⟨d.buf.take count, by rw [left, List.take_append_drop], fun s some_byte => ?_⟩
    have nonempty : d.buf.take count ++ s ≠ [] := List.append_ne_nil_of_right_ne_nil _ some_byte
    refine ⟨d.holding (d.buf.take count ++ s), ?_, ?_⟩
    · rw [List.append_assoc]
      exact pends _ nonempty
    · have enough : ¬ (d.holding (d.buf.take count ++ s)).Stalled build :=
        not_stalled_iff.mpr ⟨nonempty, fun done => absurd done headed⟩
      have again := takes (by rw [List.take_left' length]) enough
      rwa [List.drop_left' length] at again

/-- A pending poll goes on with the same packet. -/
theorem Underway.pending (underway : d.Underway build part) (polled : d.pollDecode build = .ok (none, next)) :
    ∃ taken, d.buf = taken ++ next.buf ∧ next.Underway build (part ++ taken) := by
  by_cases stalled : d.Stalled build
  · cases polled.symm.trans stalled
    exact ⟨[], rfl, (List.append_nil part).symm ▸ underway⟩
  · obtain ⟨taken, split, again⟩ := underway.again polled stalled
    refine ⟨taken, split, .inr ⟨?_, fun s some_byte => ?_⟩⟩
    · cases pollDecode_eq_ok_iff.mp polled with
      | empty empty => exact absurd (pollDecode_empty empty) stalled
      | short => exact absurd polled stalled
      | fixedHeader => exact fun wrong => by cases wrong
      | partly => exact fun wrong => by cases wrong
    · obtain ⟨before, pends, last⟩ := again s some_byte
      rw [(pollDecode_eq_ok_iff.mp polled).protocolVersion]
      exact pends.tail last

/-- A packet is what its own bytes say, and the next one starts behind them. -/
theorem Underway.ready (underway : d.Underway build part) (polled : d.pollDecode build = .ok (some packet, next)) :
    ∃ taken, d.buf = taken ++ next.buf ∧ Alone build d.protocolVersion (part ++ taken) packet ∧
      next.state = .done := by
  have moves : ¬ d.Stalled build := fun stalled => by cases polled.symm.trans stalled
  obtain ⟨taken, split, again⟩ := underway.again polled moves
  have done : next.state = .done := by
    cases pollDecode_eq_ok_iff.mp polled with
    | whole => rfl
    | payload => rfl
  refine ⟨taken, split, fun s some_byte => ?_, done⟩
  obtain ⟨before, pends, last⟩ := again s some_byte
  exact ⟨next.holding s, Pends.emits pends last, done, rfl⟩

end Decoder

end Aqua
