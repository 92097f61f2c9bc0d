import Aqua.Proofs.Payload
import Aqua.Wire.Streaming

/-! # What a poll can do

`Polled` lists the ways in which one poll returns, with everything each of them says about the
decoder; `pollDecode_eq_ok_iff` is the inversion of `pollDecode`. Invariants and stalls are case
analyses over it.
-/

namespace Aqua

open Wire Wire.Reader

namespace Decoder

/-- One poll of `d` that returns `ready` and leaves the decoder `next`. -/
inductive Polled (build : Build) (d : Decoder) : Option ControlPacket → Decoder → Prop
  | empty (empty : d.buf = []) : Polled build d none d
  | short (done : d.state = .done) (nonempty : d.buf ≠ []) (short : d.buf.length < 2) :
      Polled build d none d
  | fixedHeader {packet : ControlPacket} {remainingLength size : ℕ} (done : d.state = .done)
      (long : 2 ≤ d.buf.length)
      (header : decodeFixedHeader d.buf 0 = .ok ((packet, remainingLength), size)) :
      Polled build d none (d.afterFixedHeader packet remainingLength (d.buf.drop size))
  | whole {packet : ControlPacket} {size : ℕ} (state : d.state = .fixedHeaderDecoded)
      (nonempty : d.buf ≠ [])
      (header : d.tmpPacket.decodeVariableHeader build d.remainingLength d.protocolVersion d.buf 0 =
        .ok (packet, size)) (ends : d.remainLengthCounter + size = d.remainingLength) :
      Polled build d (some packet) (d.afterPacket (d.remainLengthCounter + size) (d.buf.drop size))
  | partly {packet : ControlPacket} {size : ℕ} (state : d.state = .fixedHeaderDecoded)
      (nonempty : d.buf ≠ [])
      (header : d.tmpPacket.decodeVariableHeader build d.remainingLength d.protocolVersion d.buf 0 =
        .ok (packet, size)) (open_ : d.remainLengthCounter + size ≠ d.remainingLength) :
      Polled build d none
        (d.afterVariableHeader packet (d.remainLengthCounter + size) (d.buf.drop size))
  | payload {packet : ControlPacket} {rest : Bytes} (state : d.state = .variableHeaderDecoded)
      (nonempty : d.buf ≠ []) (payload : d.tmpPacket.decodePayload d.buf = .ok (packet, rest)) :
      Polled build d (some packet) (d.afterPacket d.remainLengthCounter rest)

variable {build : Build} {d next : Decoder} {ready : Option ControlPacket}

private theorem pollDecode_eq (nonempty : d.buf ≠ []) : d.pollDecode build = match d.state with
    | .done => d.pollFixedHeader
    | .fixedHeaderDecoded => d.pollVariableHeader build
    | .variableHeaderDecoded => d.pollPayload := if_neg nonempty

private theorem Polled.of_fixedHeader (done : d.state = .done) (nonempty : d.buf ≠ [])
    (polled : d.pollFixedHeader = .ok (ready, next)) : Polled build d ready next := by
  unfold pollFixedHeader at polled
  split at polled
  · next short =>
    cases polled
    exact .short done nonempty short
  · next long =>
    obtain ⟨⟨⟨packet, remainingLength⟩, size⟩, header, polled⟩ := Outcome.bind_eq_ok_iff.mp polled
    obtain ⟨rest, removed, polled⟩ := Outcome.bind_eq_ok_iff.mp polled
    cases polled
    obtain ⟨_, rfl⟩ := advance_eq_ok_iff.mp removed
    exact .fixedHeader done (by omega) header

private theorem Polled.of_variableHeader (state : d.state = .fixedHeaderDecoded)
    (nonempty : d.buf ≠ []) (polled : d.pollVariableHeader build = .ok (ready, next)) :
    Polled build d ready next := by
  obtain ⟨⟨packet, size⟩, header, polled⟩ := Outcome.bind_eq_ok_iff.mp polled
  obtain ⟨rest, removed, polled⟩ := Outcome.bind_eq_ok_iff.mp polled
  obtain ⟨_, rfl⟩ := advance_eq_ok_iff.mp removed
  dsimp only at polled
  split at polled
  · next ends =>
    cases polled
    exact .whole state nonempty header ends
  · next open_ =>
    cases polled
    exact .partly state nonempty header open_

theorem pollDecode_eq_ok_iff : d.pollDecode build = .ok (ready, next) ↔ Polled build d ready next := by
  constructor
  · intro polled
    by_cases empty : d.buf = []
    · rw [pollDecode_empty empty] at polled
      cases polled
      exact .empty empty
    rw [pollDecode_eq empty] at polled
    cases state : d.state with
    | done =>
      rw [state] at polled
      exact .of_fixedHeader state empty polled
    | fixedHeaderDecoded =>
      rw [state] at polled
      exact .of_variableHeader state empty polled
    | variableHeaderDecoded =>
      rw [state] at polled
      obtain ⟨⟨packet, rest⟩, payload, polled⟩ := Outcome.bind_eq_ok_iff.mp polled
      cases polled
      exact .payload state empty payload
  · intro polled
    cases polled with
    | empty empty => exact pollDecode_empty empty
    | short done nonempty short =>
      rw [pollDecode_eq nonempty, done]
      exact if_pos short
    | fixedHeader done long header =>
      have within := decodeFixedHeader_lawful.within header (Nat.zero_le _)
      rw [pollDecode_eq (List.ne_nil_of_length_pos (by omega)), done]
      simp only [pollFixedHeader, if_neg (Nat.not_lt.mpr long), header, Outcome.ok_bind,
        advance_of_le within]
      rfl
    | whole state nonempty header ends =>
      have within := (d.tmpPacket.decodeVariableHeader_lawful build _ _).within header (Nat.zero_le _)
      rw [pollDecode_eq nonempty, state]
      simp only [pollVariableHeader, header, Outcome.ok_bind, advance_of_le within, if_pos ends]
      rfl
    | partly state nonempty header open_ =>
      have within := (d.tmpPacket.decodeVariableHeader_lawful build _ _).within header (Nat.zero_le _)
      rw [pollDecode_eq nonempty, state]
      simp only [pollVariableHeader, header, Outcome.ok_bind, advance_of_le within, if_neg open_]
      rfl
    | payload state nonempty payload =>
      rw [pollDecode_eq nonempty, state]
      simp only [pollPayload, payload, Outcome.ok_bind]
      rfl

theorem Polled.protocolVersion (polled : Polled build d ready next) :
    next.protocolVersion = d.protocolVersion := by
  cases polled <;> rfl

/-- `Poll::Pending` with the decoder unchanged. -/
def Stalled (build : Build) (d : Decoder) : Prop := d.pollDecode build = .ok (none, d)

/-- A poll leaves the decoder alone only without a byte, or without a second byte of a header. -/
theorem stalled_iff : d.Stalled build ↔ d.buf = [] ∨ d.state = .done ∧ d.buf.length < 2 := by
  constructor
  · intro stalled
    -- every poll that gets past the two waits changes the state
    have same {ready : Option ControlPacket} {next : Decoder} (polled : Polled build d ready next)
        (pending : ready = none) (unchanged : d.state = next.state) :
        d.buf = [] ∨ d.state = .done ∧ d.buf.length < 2 := by
      cases polled with
      | empty empty => exact .inl empty
      | short done _ short => exact .inr ⟨done, short⟩
      | fixedHeader done => exact nomatch done.symm.trans unchanged
      | whole => cases pending
      | partly state => exact nomatch state.symm.trans unchanged
      | payload => cases pending
    exact same (pollDecode_eq_ok_iff.mp stalled) rfl rfl
  · rintro (empty | ⟨done, short⟩)
    · exact pollDecode_empty empty
    · by_cases empty : d.buf = []
      · exact pollDecode_empty empty
      · exact pollDecode_eq_ok_iff.mpr (.short done empty short)

theorem not_stalled_iff : ¬ d.Stalled build ↔ d.buf ≠ [] ∧ (d.state = .done → 2 ≤ d.buf.length) := by
  rw [stalled_iff, not_or, not_and]
  refine and_congr_right fun _ => imp_congr_right fun _ => ?_
  rw [Nat.not_lt]

/-- A poll that moves the decoder looks at nothing behind what it removes from the buffer: with any
other bytes there it does the same, unless too few are left to look at all. -/
theorem pollDecode_takes (polled : d.pollDecode build = .ok (ready, next))
    (moves : ¬ d.Stalled build) :
    ∃ count ≤ d.buf.length, next.buf = d.buf.drop count ∧
      ∀ {buf : Bytes}, buf.take count = d.buf.take count → ¬ (d.holding buf).Stalled build →
        (d.holding buf).pollDecode build = .ok (ready, next.holding (buf.drop count)) := by
  cases pollDecode_eq_ok_iff.mp polled with
  | empty empty => exact (moves (pollDecode_empty empty)).elim
  | short => exact (moves polled).elim
  | fixedHeader done long header =>
    refine ⟨_, decodeFixedHeader_lawful.within header (Nat.zero_le _), rfl, fun agree enough => ?_⟩
    have header' := decodeFixedHeader_lawful.stable header agree
    have long' := (not_stalled_iff.mp enough).2 done
    exact pollDecode_eq_ok_iff.mpr (.fixedHeader done long' header')
  | whole state nonempty header ends =>
    have lawful := d.tmpPacket.decodeVariableHeader_lawful build d.remainingLength d.protocolVersion
    refine ⟨_, lawful.within header (Nat.zero_le _), rfl, fun agree enough => ?_⟩
    have header' := lawful.stable header agree
    exact pollDecode_eq_ok_iff.mpr (.whole state (not_stalled_iff.mp enough).1 header' ends)
  | partly state nonempty header open_ =>
    have lawful := d.tmpPacket.decodeVariableHeader_lawful build d.remainingLength d.protocolVersion
    refine ⟨_, lawful.within header (Nat.zero_le _), rfl, fun agree enough => ?_⟩
    have header' := lawful.stable header agree
    exact pollDecode_eq_ok_iff.mpr (.partly state (not_stalled_iff.mp enough).1 header' open_)
  | payload state nonempty payload =>
    obtain ⟨count, rfl, takes⟩ := ControlPacket.decodePayload_takes payload
    refine ⟨count, takes.within, rfl, fun agree enough => ?_⟩
    have payload' := takes.decodes agree
    exact pollDecode_eq_ok_iff.mpr (.payload state (not_stalled_iff.mp enough).1 payload')

/-- Two accounts of what a poll removes agree. -/
theorem removed_unique {buf : Bytes} {count count' : ℕ} (within : count ≤ buf.length)
    (within' : count' ≤ buf.length) (same : buf.drop count = buf.drop count') : count = count' := by
  have lengths := congrArg List.length same
  simp only [List.length_drop] at lengths
  omega

section Prefixes

variable {count : ℕ} {buf : Bytes} (polled : d.pollDecode build = .ok (ready, next))
  (moves : ¬ d.Stalled build) (within : count ≤ d.buf.length) (left : next.buf = d.buf.drop count)
  (shorter : buf <+: d.buf) (enough : ¬ (d.holding buf).Stalled build)

include polled moves within left shorter enough

/-- A poll does the same with the first bytes of a buffer, if it finds there what it removes. -/
theorem pollDecode_prefix (inside : count ≤ buf.length) :
    (d.holding buf).pollDecode build = .ok (ready, next.holding (buf.drop count)) := by
  obtain ⟨count', within', left', takes⟩ := pollDecode_takes polled moves
  obtain rfl := removed_unique within within' (left.symm.trans left')
  obtain ⟨missing, bytes⟩ := shorter
  refine takes ?_ enough
  rw [← bytes, List.take_append_of_le_length inside]

/-- If it does not, it fails. -/
theorem pollDecode_prefix_cut (cut : buf.length < count) {ready' : Option ControlPacket}
    {next' : Decoder} : (d.holding buf).pollDecode build ≠ .ok (ready', next') := by
  intro polled'
  obtain ⟨count', within', left', takes⟩ := pollDecode_takes polled' enough
  obtain ⟨missing, bytes⟩ := shorter
  simp only [holding_buf] at within' takes
  have again : d.pollDecode build = .ok (ready', next'.holding (d.buf.drop count')) := by
    refine takes ?_ moves
    rw [← bytes, List.take_append_of_le_length within']
  cases polled.symm.trans again
  have longer : count' ≤ d.buf.length := by
    rw [← bytes, List.length_append]
    omega
  have := removed_unique within longer left.symm
  omega

end Prefixes

/-- A poll that moves the decoder is unaffected by bytes that arrive later. -/
theorem incremental (build : Build) : Incremental (pollDecode build) feed where
  append d x y := by simp only [feed, List.append_assoc]
  later {d next ready} polled := by
    by_cases stalled : d.Stalled build
    · exact .inl stalled
    refine .inr fun x => ?_
    obtain ⟨count, within, left, takes⟩ := pollDecode_takes polled stalled
    have enough : ¬ (d.holding (d.buf ++ x)).Stalled build := by
      obtain ⟨nonempty, long⟩ := not_stalled_iff.mp stalled
      refine not_stalled_iff.mpr ⟨List.append_ne_nil_of_left_ne_nil nonempty x, fun done => ?_⟩
      have := long done
      simp only [holding_buf, List.length_append]
      omega
    have polled' := takes (List.take_append_of_le_length within) enough
    rw [List.drop_append_of_le_length within, ← left] at polled'
    exact polled'

/-- Which prefixes of the buffer come to rest, by the poll that the whole buffer starts with: those
too short for that poll to look at, and those that contain what it removes and rest behind it. -/
theorem drains_take_iff {count cut : ℕ} (polled : d.pollDecode build = .ok (ready, next))
    (moves : ¬ d.Stalled build) (within : count ≤ d.buf.length) (left : next.buf = d.buf.drop count) :
    (∃ outs final, Drains (pollDecode build) (d.holding (d.buf.take cut)) outs final) ↔
      (d.holding (d.buf.take cut)).Stalled build ∨
        count ≤ cut ∧ ∃ outs final,
          Drains (pollDecode build) (next.holding (next.buf.take (cut - count))) outs final := by
  by_cases stalled : (d.holding (d.buf.take cut)).Stalled build
  · exact iff_of_true ⟨[], _, .idle stalled⟩ (.inl stalled)
  rw [or_iff_right stalled]
  have shorter : d.buf.take cut <+: d.buf := List.take_prefix cut d.buf
  by_cases inside : count ≤ cut
  · rw [and_iff_right inside]
    have polled' := pollDecode_prefix polled moves within left shorter stalled
      (by rw [List.length_take]; omega)
    rw [List.drop_take, ← left] at polled'
    cases ready with
    | none => simp only [Drains.pending_iff polled']
    | some item =>
      simp only [Drains.ready_iff polled']
      constructor
      · rintro ⟨_, final, rest, _, drains⟩
        exact ⟨rest, final, drains⟩
      · rintro ⟨rest, final, drains⟩
        exact ⟨_, final, rest, rfl, drains⟩
  · refine iff_of_false ?_ fun ⟨le, _⟩ => inside le
    rintro ⟨outs, final, drains⟩
    obtain ⟨ready', next', polled'⟩ := drains.polls
    exact pollDecode_prefix_cut polled moves within left shorter stalled
      (by rw [List.length_take]; omega) polled'

end Decoder

end Aqua
