import Aqua.Model.Network
import Aqua.Proofs.Workers

/-! # Runs of writers

What a step of a writer keeps of the packets it has received and the bytes it has written, and how a run of
the network looks to one connection: as a run of its channel and its writer, and to everybody else: as a run
of the pool in which the writers take packets or are gone.
-/

namespace Aqua

open Wire Runtime

/-- The packets and their encodings, one for each. -/
abbrev Encodings (packets : List ControlPacket) (codes : List Bytes) : Prop :=
  List.Forall₂ (fun packet code => Encoder.encodeAll packet = .ok code) packets codes

theorem Encodings.snoc {packets : List ControlPacket} {codes : List Bytes} {packet : ControlPacket} {code : Bytes}
    (encodings : Encodings packets codes) (encoded : Encoder.encodeAll packet = .ok code) :
    Encodings (packets ++ [packet]) (codes ++ [code]) :=
  List.rel_append encodings (.cons encoded .nil)

theorem Encodings.split {packets : List ControlPacket} {first later : List Bytes}
    (encodings : Encodings packets (first ++ later)) :
    ∃ before behind, packets = before ++ behind ∧ Encodings before first ∧ Encodings behind later :=
  ⟨_, _, (List.take_append_drop first.length packets).symm, List.forall₂_take_append _ _ _ encodings,
    List.forall₂_drop_append _ _ _ encodings⟩

/-- The packet that an encoding belongs to. -/
theorem Encodings.of_mem {packets : List ControlPacket} {codes : List Bytes} (encodings : Encodings packets codes)
    {code : Bytes} (member : code ∈ codes) : ∃ packet ∈ packets, Encoder.encodeAll packet = .ok code := by
  obtain ⟨first, later, rfl⟩ := List.append_of_mem member
  obtain ⟨before, behind, rfl, _, rest⟩ := encodings.split
  obtain ⟨packet, more, encoded, _, rfl⟩ := List.forall₂_cons_right_iff.mp rest
  exact ⟨packet, List.mem_append_right _ (List.mem_cons_self ..), encoded⟩

namespace Line

variable {self next : Line} {event : Event}

/-- Where the packets the writer has received went: the bytes written and the bytes to write are the encodings
of the packets that were encoded. A packet that is not encoded is the last one. -/
structure Faithful (line : Line) : Prop where
  encoded : ∃ packets codes, Encodings packets codes ∧
    codes.flatten = line.writer.written ++ line.writer.writeBuffer ∧
    (line.channel.received = packets ∨ ∃ packet, line.channel.received = packets ++ [packet] ∧
      line.writer.ended ≠ none ∧ line.writer.ended ≠ some .shutdown ∧
        ∀ code, Encoder.encodeAll packet ≠ .ok code)
  closed : line.channel.closed = true ↔ line.writer.ended ≠ none
  shutdown : line.writer.ended = some .shutdown → line.writer.writeBuffer = [] ∧ line.channel.queue = []

theorem Faithful.new : Line.new.Faithful where
  encoded := ⟨[], [], .nil, rfl, .inl rfl⟩
  closed := iff_of_false Bool.false_ne_true fun ended => ended rfl
  shutdown := fun wrong => by cases wrong

/-- A send changes what is queued, and nothing if the receiver is gone. -/
theorem Faithful.offer (faithful : self.Faithful) (packet : ControlPacket) : (self.offer packet).Faithful := by
  obtain ⟨same, closed, kept⟩ : (self.channel.offer packet).received = self.channel.received ∧
      (self.channel.offer packet).closed = self.channel.closed ∧
      (self.channel.closed = true → self.channel.offer packet = self.channel) := by
    refine ⟨?_, ?_, fun gone => Channel.offer_of_room_eq_zero (Channel.room_of_closed gone)⟩
    all_goals
      unfold Channel.offer Channel.trySend
      split
      · rfl
      · split <;> rfl
  refine ⟨?_, (Eq.congr_left closed).trans faithful.closed, fun ended => ?_⟩
  · have encoded := faithful.encoded
    rw [← same] at encoded
    exact encoded
  · have gone := faithful.closed.mpr (ended ▸ Option.some_ne_none _)
    have before := faithful.shutdown ended
    refine ⟨before.1, ?_⟩
    change (self.channel.offer packet).queue = []
    rw [kept gone]
    exact before.2

/-- A writer that was not over before drops its receiver when it is. -/
theorem withWriter_closed (self : Line) (writer : Writer) (there : self.channel.closed = false) :
    (self.withWriter writer).channel.closed = true ↔ writer.ended ≠ none := by
  unfold withWriter
  dsimp only
  split
  · next going => simp only [there, going, Bool.false_eq_true, ne_eq, not_true]
  · next ended => exact iff_of_true rfl ended

theorem Faithful.there (faithful : self.Faithful) (going : self.writer.ended = none) :
    self.channel.closed = false := by
  rw [← Bool.not_eq_true, faithful.closed, not_not]
  exact going

theorem withWriter_received (self : Line) (writer : Writer) :
    (self.withWriter writer).channel.received = self.channel.received := by
  unfold withWriter
  dsimp only
  split <;> rfl

theorem withWriter_queue (self : Line) (writer : Writer) :
    (self.withWriter writer).channel.queue = self.channel.queue := by
  unfold withWriter
  dsimp only
  split <;> rfl

/-- While the writer goes on, every packet it has received was encoded. -/
theorem Faithful.going (faithful : self.Faithful) (going : self.writer.ended = none) :
    ∃ codes, Encodings self.channel.received codes ∧
      codes.flatten = self.writer.written ++ self.writer.writeBuffer := by
  obtain ⟨packets, codes, encodings, bytes, same | ⟨_, _, ended, _⟩⟩ := faithful.encoded
  · exact ⟨codes, same ▸ encodings, bytes⟩
  · exact absurd going ended

theorem receive_eq {packet : ControlPacket} {rest : List ControlPacket}
    (queued : self.channel.queue = packet :: rest) :
    self.receive = { self with channel := self.channel.take }.withWriter (self.writer.encode packet) := by
  rw [receive, queued]

theorem take_received {packet : ControlPacket} {rest : List ControlPacket}
    (queued : self.channel.queue = packet :: rest) :
    self.channel.take.received = self.channel.received ++ [packet] := by
  simp only [Channel.take, queued, List.take_succ_cons, List.take_zero]

theorem Faithful.receive (faithful : self.Faithful) (waits : self.writer.Waits) : self.receive.Faithful := by
  cases queued : self.channel.queue with
  | nil =>
    rw [Line.receive, queued]
    exact faithful
  | cons packet rest =>
    obtain ⟨codes, encodings, bytes⟩ := faithful.going waits.1
    rw [receive_eq queued]
    refine ⟨?_, withWriter_closed _ _ (faithful.there waits.1), ?_⟩
    · rw [withWriter_received, take_received queued]
      simp only [withWriter, Writer.encode]
      cases code : Encoder.encodeAll packet with
      | ok written =>
        refine ⟨_, _, encodings.snoc code, ?_, .inl rfl⟩
        rw [List.flatten_append, bytes, List.flatten_singleton, List.append_assoc]
      | _ =>
        refine ⟨_, _, encodings, bytes, .inr ⟨packet, rfl, Option.some_ne_none _, ?_, fun _ wrong => ?_⟩⟩
        · intro wrong
          cases wrong
        · cases code.symm.trans wrong
    · intro ended
      exfalso
      simp only [withWriter, Writer.encode] at ended
      split at ended
      · rw [waits.1] at ended
        cases ended
      · cases ended
      · cases ended
      · cases ended

/-- What the socket takes moves from the buffer to the bytes written. -/
theorem Faithful.write (faithful : self.Faithful) (writes : self.writer.Writes) (result : SocketWrite) :
    (self.write result).Faithful := by
  obtain ⟨codes, encodings, bytes⟩ := faithful.going writes.1
  refine ⟨⟨_, codes, encodings, ?_, .inl (withWriter_received _ _)⟩,
    withWriter_closed _ _ (faithful.there writes.1), ?_⟩
  · simp only [Line.write, withWriter]
    cases result with
    | wrote count =>
      cases count with
      | zero => exact bytes
      | succ count =>
        simp only [Writer.write, List.append_assoc, List.take_append_drop]
        exact bytes
    | failed => exact bytes
  · intro ended
    exfalso
    simp only [Line.write, withWriter] at ended
    cases result with
    | wrote count =>
      cases count with
      | zero => cases ended
      | succ count =>
        simp only [Writer.write] at ended
        rw [writes.1] at ended
        cases ended
    | failed => cases ended

theorem Faithful.shutdownStep (faithful : self.Faithful) (waits : self.writer.Waits)
    (empty : self.channel.queue = []) : self.shutdown.Faithful := by
  obtain ⟨codes, encodings, bytes⟩ := faithful.going waits.1
  refine ⟨⟨_, codes, encodings, bytes, .inl (withWriter_received _ _)⟩,
    withWriter_closed _ _ (faithful.there waits.1), fun _ => ?_⟩
  exact ⟨waits.2, (withWriter_queue _ _).trans empty⟩

theorem Faithful.step (faithful : self.Faithful) (step : self.Step event next) : next.Faithful := by
  cases step with
  | offer packet => exact faithful.offer packet
  | receive waits queued => exact faithful.receive waits
  | write writes result => exact faithful.write writes result
  | shutdown waits empty => exact faithful.shutdownStep waits empty

theorem faithful_of_runs {events : List Event} (run : Runs Step .new events self) : self.Faithful :=
  run.invariant (fun _ _ _ faithful step => faithful.step step) .new

end Line

end Aqua
