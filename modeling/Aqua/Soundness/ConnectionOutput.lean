import Aqua.Proofs.Network
import Aqua.Proofs.Sendable

/-! # What is written to a socket

Every packet a channel accepts can be encoded, so a writer stops only where its socket fails. What it has
written are the encodings of the accepted packets, in their order and cut off somewhere; a reader that knows
only how a packet tells its size takes them apart. A writer whose socket goes on taking bytes comes to the
end of its queue.
-/

namespace Aqua

open Wire Wire.Reader Runtime Network

/-- A socket has taken nothing, or has failed. -/
def WriterEnd.BySocket : WriterEnd → Prop
  | .closedDuringWrite => True
  | .writeError => True
  | _ => False

/-- The writer goes on, or its socket has stopped it. -/
def Writer.Served (self : Writer) : Prop := ∀ ending, self.ended = some ending → ending.BySocket

private theorem Writer.Served.write {self : Writer} (writes : self.Writes) (result : SocketWrite) :
    (self.write result).Served := by
  intro ending ended
  cases result with
  | wrote count =>
    cases count with
    | zero =>
      cases ended
      exact trivial
    | succ count => cases writes.1.symm.trans ended
  | failed =>
    cases ended
    exact trivial

/-- A packet that can be encoded does not stop the writer. -/
private theorem Writer.encode_of_sendable {self : Writer} {packet : ControlPacket} (sendable : packet.Sendable) :
    (self.encode packet).ended = self.ended := by
  obtain ⟨first, body, encoded⟩ := sendable
  rw [encode, encoded]

namespace Network

variable {build : Build} {self next : Network} {event : Event}

private theorem Reachable.sendable (reachable : self.Reachable build) (clientId : Uuid) :
    ∀ packet ∈ (self.line clientId).channel.accepted, packet.Sendable :=
  reachable.pool.sendable.channels clientId

private theorem Reachable.faithful (reachable : self.Reachable build) (clientId : Uuid) :
    (self.line clientId).Faithful := by
  obtain ⟨events, run⟩ := reachable.line clientId
  exact Line.faithful_of_runs run

/-- Nothing stops a writer but its socket. -/
theorem Step.served (step : self.Step build event next) (reachable : self.Reachable build)
    (served : ∀ clientId, (self.writers clientId).Served) (clientId : Uuid) :
    (next.writers clientId).Served := by
  have moved : ∀ {own : Uuid} {line : Line}, line.writer.Served →
      ((self.withLine own line).writers clientId).Served := by
    intro own line ends
    unfold withLine
    dsimp only
    rw [Function.update_apply]
    split
    · exact ends
    · exact served clientId
  cases step with
  | @pool event pool other step =>
    unfold spawnWriter
    split
    · dsimp only
      rw [Function.update_apply]
      split
      · exact fun ending wrong => by cases wrong
      · exact served clientId
    · exact served clientId
  | @receive own live waits queued =>
    apply moved
    cases first : (self.line own).channel.queue with
    | nil => exact absurd first queued
    | cons packet rest =>
      have sendable := reachable.sendable own packet
        (List.mem_append_right _ (first ▸ List.mem_cons_self ..))
      rw [Line.receive_eq first]
      intro ending ended
      have before := (Writer.encode_of_sendable sendable).symm.trans ended
      exact served own ending before
  | write live writes result => exact moved (.write writes result)
  | @shutdown own live waits empty senderless =>
    -- the sender of an accepted connection stays registered
    have sender := (reachable.pool.sound.server.clients own).sender live
    exact absurd rfl (senderless.2 own ⟨own⟩ sender)

private theorem Reachable.served (reachable : self.Reachable build) (clientId : Uuid) :
    (self.writers clientId).Served := by
  obtain ⟨events, run⟩ := reachable
  induction run generalizing clientId with
  | nil => exact fun ending wrong => by cases wrong
  | snoc earlier step ih => exact step.served ⟨_, earlier⟩ ih clientId

/-- Every packet received was encoded, and what was encoded is written or waits to be written. -/
theorem Reachable.output (reachable : self.Reachable build) (clientId : Uuid) :
    ∃ codes, Encodings (self.line clientId).channel.received codes ∧
      codes.flatten = (self.writers clientId).written ++ (self.writers clientId).writeBuffer := by
  obtain ⟨packets, codes, encodings, bytes, same | ⟨packet, more, _, _, refused⟩⟩ :=
    (reachable.faithful clientId).encoded
  · exact ⟨codes, same ▸ encodings, bytes⟩
  · exfalso
    have last : packet ∈ (self.line clientId).channel.accepted := by
      rw [Channel.accepted, more]
      exact List.mem_append_left _ (List.mem_append_right _ (List.mem_singleton_self _))
    obtain ⟨first, body, encoded⟩ := reachable.sendable clientId packet last
    exact refused _ encoded

end Network

/-- In every reachable network, the bytes a connection has written or is about to write are the encodings of
the packets its writer has received, which are all that was accepted but what is queued. The writer is over
exactly if the channel is closed, and only because the socket has failed or taken nothing. -/
theorem connection_output {build : Build} {network : Network} (reachable : network.Reachable build)
    (clientId : Uuid) :
    (∃ received codes, (network.line clientId).channel.accepted =
        received ++ (network.line clientId).channel.queue ∧ Encodings received codes ∧
      codes.flatten = (network.writers clientId).written ++ (network.writers clientId).writeBuffer) ∧
    ((network.line clientId).channel.closed = true ↔ (network.writers clientId).ended ≠ none) ∧
    ((network.writers clientId).ended = none ∨ (network.writers clientId).ended = some .closedDuringWrite ∨
      (network.writers clientId).ended = some .writeError) := by
  refine ⟨?_, (reachable.faithful clientId).closed, ?_⟩
  · obtain ⟨codes, encodings, bytes⟩ := reachable.output clientId
    exact ⟨_, codes, rfl, encodings, bytes⟩
  · have served := reachable.served clientId
    cases ended : (network.writers clientId).ended with
    | none => exact .inl rfl
    | some ending =>
      have socket := served ending ended
      cases ending with
      | closedDuringWrite => exact .inr (.inl rfl)
      | writeError => exact .inr (.inr rfl)
      | _ => cases socket

theorem connection_output_talking : ∃ received codes, (talking.line ⟨0⟩).channel.accepted =
      received ++ (talking.line ⟨0⟩).channel.queue ∧ Encodings received codes ∧
    codes.flatten = (talking.writers ⟨0⟩).written ++ (talking.writers ⟨0⟩).writeBuffer :=
  (connection_output talking_reachable ⟨0⟩).1

/-- In every reachable network whose packets are not too large for their length fields, a reader of what a
connection has written finds the encodings of accepted packets, from the first one on and one behind the
other, and of the next one what is written of it. -/
theorem connection_frames {build : Build} {network : Network} (reachable : network.Reachable build)
    (clientId : Uuid) (small : ∀ packet ∈ (network.line clientId).channel.accepted,
      ∀ code, Encoder.encodeAll packet = .ok code → FitsLengthField code) :
    ∃ packets codes left, units frameSize? (network.writers clientId).written = (codes, left) ∧
      packets <+: (network.line clientId).channel.accepted ∧ Encodings packets codes ∧
      (left = [] ∨ ∃ packet code, packets ++ [packet] <+: (network.line clientId).channel.accepted ∧
        Encoder.encodeAll packet = .ok code ∧ left <+: code ∧ left ≠ code) := by
  obtain ⟨codes, encodings, bytes⟩ := reachable.output clientId
  have received : (network.line clientId).channel.received <+: (network.line clientId).channel.accepted :=
    List.prefix_append _ _
  have delimited : ∀ code ∈ codes, Delimited frameSize? code := by
    intro code member
    obtain ⟨packet, among, encoded⟩ := encodings.of_mem member
    have accepted := received.subset among
    obtain ⟨first, body, frame⟩ := reachable.sendable clientId packet accepted
    cases encoded.symm.trans frame
    exact frame_delimited first (small packet accepted _ encoded first body rfl)
  obtain ⟨whole, left, found, complete, _, breaks⟩ :=
    units_prefix delimited frameSize?_nil (bytes ▸ List.prefix_append _ _)
  obtain ⟨later, rfl⟩ := complete
  obtain ⟨packets, behind, same, encoded, rest⟩ := encodings.split
  rw [same] at received
  refine ⟨packets, whole, left, found, (List.prefix_append _ _).trans received, encoded, breaks.imp_right ?_⟩
  rintro ⟨code, more, next, part, proper⟩
  rw [List.append_cancel_left next] at rest
  obtain ⟨packet, others, last, _, rfl⟩ := List.forall₂_cons_right_iff.mp rest
  refine ⟨packet, code, List.IsPrefix.trans ?_ received, last, part, proper⟩
  exact ⟨others, List.append_cons packets packet others ▸ rfl⟩

theorem connection_frames_talking :
    ∃ packets codes left, units frameSize? [0x20, 0x02, 0x00, 0x00, 0x90, 0x03, 0x00] = (codes, left) ∧
      packets <+: (talking.line ⟨0⟩).channel.accepted ∧ Encodings packets codes ∧
      (left = [] ∨ ∃ packet code, packets ++ [packet] <+: (talking.line ⟨0⟩).channel.accepted ∧
        Encoder.encodeAll packet = .ok code ∧ left <+: code ∧ left ≠ code) := by
  refine connection_frames talking_reachable ⟨0⟩ ?_
  rw [talking_accepted, List.forall_mem_cons, List.forall_mem_singleton]
  constructor
  · rintro code ⟨⟩
    exact fitsLengthField_of_length (by decide)
  · rintro code ⟨⟩
    exact fitsLengthField_of_length (by decide)

/-- The writer receives a packet, or its socket takes at least one byte. -/
def Line.Event.Advances : Line.Event → Prop
  | .receive => True
  | .write (.wrote (_ + 1)) => True
  | _ => False

/-- Steps of a writer whose socket goes on taking bytes. -/
abbrev Line.Advance : Line → Line.Event → Line → Prop := Guarded Line.Step fun _ event => event.Advances

namespace Line

variable {self next : Line} {event : Event}

/-- What is left to do: bytes to write, packets to receive, and the bytes of these. -/
def load (self : Line) (codes : List Bytes) : ℕ :=
  self.writer.writeBuffer.length + self.channel.queue.length + codes.flatten.length

/-- The writer goes on, `codes` are the encodings of the queue, and what the channel has accepted and what
will have been written are `packets` and `output`. -/
structure Pending (packets : List ControlPacket) (output : Bytes) (codes : List Bytes) (line : Line) : Prop where
  going : line.writer.ended = none
  accepted : line.channel.accepted = packets
  encodings : Encodings line.channel.queue codes
  output : line.writer.written ++ line.writer.writeBuffer ++ codes.flatten = output

/-- A step keeps what will have been written, and leaves less to do. -/
theorem Pending.advance {packets : List ControlPacket} {output : Bytes} {codes : List Bytes}
    (pending : self.Pending packets output codes) (step : self.Advance event next) :
    ∃ codes', next.Pending packets output codes' ∧ next.load codes' + 1 ≤ self.load codes := by
  obtain ⟨going, accepted, encodings, written⟩ := pending
  obtain ⟨step, advances⟩ := step
  cases step with
  | offer packet => cases advances
  | shutdown waits empty => cases advances
  | receive waits queued =>
    cases first : self.channel.queue with
    | nil => exact absurd first queued
    | cons packet rest =>
      rw [first] at encodings
      obtain ⟨code, codes, encoded, others, rfl⟩ := List.forall₂_cons_left_iff.mp encodings
      have received : self.receive = ⟨self.channel.take, { self.writer with writeBuffer := code }⟩ := by
        simp only [receive_eq first, withWriter, Writer.encode, encoded, waits.1, waits.2, if_true,
          List.nil_append]
      have left : self.channel.take.queue = rest := by
        change self.channel.queue.drop 1 = rest
        rw [first]
        rfl
      rw [received]
      refine ⟨codes, ⟨going, (Channel.accepted_take _).trans accepted, left ▸ others, ?_⟩, ?_⟩
      · rw [waits.2, List.append_nil] at written
        rw [← written, List.flatten_cons, List.append_assoc]
      · simp only [load, left, first, waits.2, List.length_cons, List.flatten_cons, List.length_append,
          List.length_nil]
        omega
  | write writes result =>
    obtain ⟨count, rfl⟩ : ∃ count, result = .wrote (count + 1) := by
      cases result with
      | failed => cases advances
      | wrote count =>
        cases count with
        | zero => cases advances
        | succ count => exact ⟨count, rfl⟩
    have filled := List.length_pos_iff.mpr writes.2
    have wrote : self.write (.wrote (count + 1)) = ⟨self.channel, self.writer.write (.wrote (count + 1))⟩ := by
      rw [write, withWriter, if_pos]
      exact going
    rw [wrote]
    refine ⟨codes, ⟨going, accepted, encodings, ?_⟩, ?_⟩
    · rw [← written]
      simp only [Writer.write, List.append_assoc]
      rw [← List.append_assoc (List.take _ _), List.take_append_drop]
    · simp only [load, Writer.write, List.length_drop]
      omega

/-- A run has no more steps than there was to do. -/
theorem Pending.run {packets : List ControlPacket} {output : Bytes} {codes : List Bytes}
    (pending : self.Pending packets output codes) {events : List Event} (run : Runs Advance self events next) :
    ∃ codes', next.Pending packets output codes' ∧ events.length + next.load codes' ≤ self.load codes := by
  induction run with
  | nil => exact ⟨codes, pending, by rw [List.length_nil, Nat.zero_add]⟩
  | snoc _ step ih =>
    obtain ⟨middle, pending, before⟩ := ih
    obtain ⟨codes', pending, less⟩ := pending.advance step
    refine ⟨codes', pending, ?_⟩
    rw [List.length_append, List.length_singleton]
    omega

/-- Where no step is possible any more, nothing is left. -/
theorem Pending.drained {packets : List ControlPacket} {output : Bytes} {codes : List Bytes}
    (pending : self.Pending packets output codes) (stuck : ∀ event next, ¬ self.Advance event next) :
    self.channel.received = packets ∧ self.channel.queue = [] ∧ self.writer.writeBuffer = [] ∧
      self.writer.written = output := by
  have idle : self.writer.writeBuffer = [] := by
    by_contra filled
    exact stuck _ _ ⟨.write ⟨pending.going, filled⟩ (.wrote 1), trivial⟩
  have empty : self.channel.queue = [] := by
    by_contra queued
    exact stuck _ _ ⟨.receive ⟨pending.going, idle⟩ queued, trivial⟩
  have accepted := pending.accepted
  have encodings := pending.encodings
  rw [Channel.accepted, empty, List.append_nil] at accepted
  rw [empty] at encodings
  cases encodings
  refine ⟨accepted, empty, idle, ?_⟩
  rw [← pending.output, idle, List.flatten_nil, List.append_nil, List.append_nil]

end Line

/-- In every reachable network, a writer that goes on and whose socket goes on taking bytes comes to an end
within as many steps as there are bytes and packets left; then every accepted packet has been written. -/
theorem connection_drains {build : Build} {network : Network} (reachable : network.Reachable build)
    (clientId : Uuid) (going : (network.writers clientId).ended = none) :
    ∃ codes waiting, Encodings (network.line clientId).channel.accepted codes ∧
      Encodings (network.line clientId).channel.queue waiting ∧
      ∀ events final, Runs Line.Advance (network.line clientId) events final →
        events.length ≤ (network.writers clientId).writeBuffer.length +
          (network.line clientId).channel.queue.length + waiting.flatten.length ∧
        ((∀ event next, ¬ final.Advance event next) →
          final.channel.received = (network.line clientId).channel.accepted ∧ final.channel.queue = [] ∧
          final.writer.writeBuffer = [] ∧ final.writer.written = codes.flatten) := by
  obtain ⟨before, received, bytes⟩ := reachable.output clientId
  obtain ⟨waiting, queued⟩ := Encodings.of_sendable (network.line clientId).channel.queue fun packet member =>
    reachable.sendable clientId packet (List.mem_append_right _ member)
  have pending : (network.line clientId).Pending (network.line clientId).channel.accepted
      (before ++ waiting).flatten waiting :=
    ⟨going, rfl, queued, by rw [List.flatten_append, bytes]; rfl⟩
  refine ⟨_, waiting, List.rel_append received queued, queued, fun events final run => ?_⟩
  obtain ⟨codes, pending, within⟩ := pending.run run
  refine ⟨?_, pending.drained⟩
  exact Nat.le_trans (Nat.le_add_right _ _) within

/-- A writer behind the CONNACK, about to receive a SUBACK. -/
theorem connection_drains_silent :
    ∃ codes waiting, Encodings (silent.line ⟨0⟩).channel.accepted codes ∧
      Encodings (silent.line ⟨0⟩).channel.queue waiting ∧
      ∀ events final, Runs Line.Advance (silent.line ⟨0⟩) events final →
        events.length ≤ (silent.writers ⟨0⟩).writeBuffer.length +
          (silent.line ⟨0⟩).channel.queue.length + waiting.flatten.length ∧
        ((∀ event next, ¬ final.Advance event next) →
          final.channel.received = (silent.line ⟨0⟩).channel.accepted ∧ final.channel.queue = [] ∧
          final.writer.writeBuffer = [] ∧ final.writer.written = codes.flatten) :=
  connection_drains silent_reachable ⟨0⟩ rfl

end Aqua
