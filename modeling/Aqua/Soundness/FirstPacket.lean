import Aqua.Proofs.Awaiting
import Aqua.Proofs.PacketGrammar

/-! # A first packet that is not a CONNECT

Such a packet is refused once it is decoded, but it is decoded without a protocol version. PUBLISH and
UNSUBSCRIBE, and PUBREL and DISCONNECT with a body, abort where they ask for the version; SUBSCRIBE is an
error there; the acknowledgements do not ask. What the connection does is settled by the bytes the
stages of the decoder find, which depend on how the stream is cut into reads.
-/

namespace Aqua

open Wire Wire.Reader

namespace Grammar

open Wire.Format

/-- Where a packet asks for a version that is not known. -/
def unknown : Format Unit := ⟨fun _ _ _ _ => False, fun _ _ => True⟩

/-- The variable header of a packet in front of a CONNECT. -/
def firstHeader (packet : ControlPacket) (remainingLength : ℕ) : Format Unit :=
  match packet with
  | .publish p => do
      string
      part publishIdentifier (p.qos = .qos1 ∨ p.qos = .qos2)
      unknown
  | .unsubscribe _ => do
      ignore u16
      unknown
  | .pubrel _ => do
      ignore u16
      part (do
        pubrelReason
        unknown) (remainingLength ≠ 2)
  | .disconnect _ =>
      part (do
        disconnectReason
        unknown) (remainingLength ≠ 0)
  | .puback _ | .pubrec _ | .pubcomp _ => ignore u16
  | _ => Format.fail

end Grammar

/-- A packet without a payload that is not a CONNECT. -/
structure ControlPacket.Bare (packet : ControlPacket) : Prop where
  other : ∀ connect, packet ≠ .connect connect
  passes : ∀ buf, packet.decodePayload buf = .ok (packet, buf)

private theorem unknown_describes {α β : Type} {F : β → FieldReader α} {same : α → Unit → Prop} :
    Describes (Reader.unwrap none >>= F) Grammar.unknown same where
  sound read := by cases read
  complete spans := spans.elim
  cut := iff_of_true rfl trivial

section FirstHeaders

variable (build : Build) (remainingLength : ℕ)

private theorem Publish.firstHeader_describes (self : Publish) :
    Describes (self.decodeVariableHeader build remainingLength none)
      (Grammar.firstHeader (.publish self) remainingLength)
      fun headed _ => (ControlPacket.publish headed).Bare := by
  refine .position_bind fun start => ?_
  refine (stringField_meets _).bind fun topicName _ _ => ?_
  exact (Publish.readPacketId_meets _ _).bind fun packetId _ _ => unknown_describes

private theorem Unsubscribe.firstHeader_describes (self : Unsubscribe) :
    Describes (self.decodeVariableHeader build remainingLength none)
      (Grammar.firstHeader (.unsubscribe self) remainingLength)
      fun headed _ => (ControlPacket.unsubscribe headed).Bare := by
  refine .position_bind fun start => ?_
  exact PacketId.tryFrom_meets.bind fun packetId _ _ => unknown_describes

private theorem Pubrel.firstHeader_describes (self : Pubrel) :
    Describes (self.decodeVariableHeader remainingLength none)
      (Grammar.firstHeader (.pubrel self) remainingLength)
      fun headed _ => (ControlPacket.pubrel headed).Bare := by
  refine PacketId.tryFrom_meets.bind fun packetId _ _ => ?_
  rw [← ite_not]
  refine .part Iff.rfl (fun _ => ?_) (fun _ => .pure ⟨(by rintro _ ⟨⟩), fun _ => rfl⟩)
  exact PubrelReasonCode.tryFrom_meets.bind fun reasonCode _ _ => unknown_describes

private theorem Disconnect.firstHeader_describes (self : Disconnect) :
    Describes (self.decodeVariableHeader remainingLength none)
      (Grammar.firstHeader (.disconnect self) remainingLength)
      fun headed _ => (ControlPacket.disconnect headed).Bare := by
  unfold Disconnect.decodeVariableHeader
  rw [← ite_not]
  refine .part Iff.rfl (fun _ => ?_) (fun _ => .pure ⟨(by rintro _ ⟨⟩), fun _ => rfl⟩)
  exact DisconnectReasonCode.convert_meets.bind fun reasonCode _ _ => unknown_describes

private theorem ackVariableHeader_bare (packet : PacketId → ProtocolVersion → ControlPacket)
    (bare : ∀ packetId version, (packet packetId version).Bare) :
    Describes (ackVariableHeader none packet) Format.u16.ignore fun headed _ => headed.Bare :=
  PacketId.tryFrom_meets.bind_pure fun _ _ _ => bare _ _

/-- The variable header of a first packet that is not a CONNECT. -/
theorem ControlPacket.firstHeader_describes {start : ControlPacket} (fresh : start.Fresh)
    (other : start ≠ .connect {}) : Describes (start.decodeVariableHeader build remainingLength none)
      (Grammar.firstHeader start remainingLength) fun headed _ => headed.Bare := by
  cases fresh with
  | connect => exact absurd rfl other
  | disconnect => exact (Disconnect.firstHeader_describes _ _).map fun _ _ => id
  | publish dup qos retain => exact (Publish.firstHeader_describes _ _ _).map fun _ _ => id
  | puback =>
    exact ackVariableHeader_bare (fun packetId protocolVersion => .puback { packetId, protocolVersion })
      fun _ _ => ⟨(by rintro _ ⟨⟩), fun _ => rfl⟩
  | pubrec =>
    exact ackVariableHeader_bare (fun packetId protocolVersion => .pubrec { packetId, protocolVersion })
      fun _ _ => ⟨(by rintro _ ⟨⟩), fun _ => rfl⟩
  | pubrel => exact (Pubrel.firstHeader_describes _ _).map fun _ _ => id
  | pubcomp =>
    exact ackVariableHeader_bare (fun packetId protocolVersion => .pubcomp { packetId, protocolVersion })
      fun _ _ => ⟨(by rintro _ ⟨⟩), fun _ => rfl⟩
  | subscribe => exact .map (.fail _) fun _ _ => id
  | unsubscribe => exact (Unsubscribe.firstHeader_describes _ _ _).map fun _ _ => id

end FirstHeaders

variable {F CF ε : Type} {build : Build} {services : Services F CF}

/-- The last poll returned an error; no service was called and nothing was offered to the channel. -/
def Session.Refused (session : Session ε F CF) : Prop :=
  (∃ error, session.result = .err error) ∧
    ∀ action ∈ session.trace, ∃ packet, action = .received packet

/-- The polls along these reads refuse the first packet, by the reads or by the decoder. -/
def Decoder.Refuses (build : Build) : Decoder → List SocketRead → Prop
  | _, [] => False
  | d, read :: rest =>
      match Connection.arrived read with
      | none => True
      | some bytes =>
          match (d.feed bytes).pollDecode build with
          | .ok (none, next) => next.Refuses build rest
          | .ok (some packet, _) => ∀ connect, packet ≠ .connect connect
          | .err _ => True
          | .panic => False
          | .diverge => False

/-- A session whose last poll failed, and which has at most received packets, is refused. -/
private theorem Session.refused_of_error {session : Session ε F CF} {error : ConnectionError ε}
    (failed : session.result = .err error)
    (received : ∀ action ∈ session.trace, ∃ packet, action = .received packet)
    (polls : List (OutboundChannel × PollInput ε)) : (session.run build services polls).Refused := by
  have ended : session.result ≠ .ok none := by
    rw [failed]
    rintro ⟨⟩
  rw [run_of_ended ended]
  exact ⟨⟨error, failed⟩, received⟩

private theorem Session.not_refused_of_abort {session : Session ε F CF}
    (aborted : session.result = .panic ∨ session.result = .diverge)
    (polls : List (OutboundChannel × PollInput ε)) : ¬ (session.run build services polls).Refused := by
  have ended : session.result ≠ .ok none := by
    rcases aborted with aborted | aborted <;> rw [aborted] <;> rintro ⟨⟩
  rw [run_of_ended ended]
  rintro ⟨⟨error, failed⟩, _⟩
  rcases aborted with aborted | aborted <;> cases aborted.symm.trans failed

/-- The polls of a connection that waits for its CONNECT. -/
theorem Session.run_refused_iff (connection : Connection F CF) (phase : connection.state = .preConnection)
    (polls : List (OutboundChannel × PollInput ε)) :
    (({ connection } : Session ε F CF).run build services polls).Refused ↔
      connection.decoder.Refuses build (polls.map (·.2.read)) := by
  induction polls generalizing connection with
  | nil =>
    refine iff_of_false ?_ id
    rintro ⟨⟨error, wrong⟩, _⟩
    cases wrong
  | cons found polls ih =>
    obtain ⟨clientId, state, decoder, version⟩ := connection
    cases phase
    rw [run_cons, List.map_cons, Decoder.Refuses]
    simp only [poll, Connection.poll]
    let waiting : Connection F CF := ⟨clientId, .preConnection, decoder, version⟩
    cases arrives : Connection.arrived found.2.read with
    | none =>
      obtain ⟨error, ended⟩ := waiting.readPacket_ends (ε := ε) build arrives
      simp only [waiting] at ended
      simp only [ended, iff_true]
      exact refused_of_error rfl (fun _ member => absurd member List.not_mem_nil) polls
    | some bytes =>
      have reads : (waiting.readPacket build found.2.read :
        Outcome (ConnectionError ε) (Option ControlPacket) × _) = _ := waiting.readPacket_eq arrives
      simp only [waiting] at reads
      simp only [reads]
      cases polled : (decoder.feed bytes).pollDecode build with
      | ok decoded =>
        obtain ⟨_ | packet, next⟩ := decoded
        · exact ih ⟨clientId, .preConnection, next, version⟩ rfl
        · cases packet with
          | connect first =>
            refine iff_of_false (fun refused => ?_) fun other => other first rfl
            obtain ⟨packet, wrong⟩ := refused.2 (.connectCalled (.connect first))
              ((run_trace _ polls).subset (by simp))
            cases wrong
          | _ =>
            refine iff_of_true ?_ fun connect wrong => by cases wrong
            refine refused_of_error rfl (fun action member => ?_) polls
            exact ⟨_, List.mem_singleton.mp member⟩
      | err e =>
        simp only [iff_true]
        exact refused_of_error rfl (fun _ member => absurd member List.not_mem_nil) polls
      | panic => exact iff_of_false (not_refused_of_abort (.inl rfl) polls) id
      | diverge => exact iff_of_false (not_refused_of_abort (.inr rfl) polls) id

namespace Decoder

/-- The polls along these reads refuse the first packet, or polls behind them do. -/
def EndsRefusing (build : Build) (d : Decoder) (reads : List SocketRead) : Prop :=
  ∃ count, d.Refuses build (reads ++ List.replicate count .pending)

/-- What the first poll makes of the decoder, with the reads behind it. -/
def RefusesAt (build : Build) (d : Decoder) (left : List SocketRead) : Prop :=
  match d.pollDecode build with
  | .ok (none, next) => next.EndsRefusing build left
  | .ok (some packet, _) => ∀ connect, packet ≠ .connect connect
  | .err _ => True
  | .panic => False
  | .diverge => False

private theorem endsRefusing_cons {d : Decoder} {read : SocketRead} {bytes : Bytes} {rest : List SocketRead}
    (arrives : Connection.arrived read = some bytes) :
    d.EndsRefusing build (read :: rest) ↔ (d.feed bytes).RefusesAt build rest := by
  unfold EndsRefusing RefusesAt
  simp only [List.cons_append, Refuses, arrives]
  cases (d.feed bytes).pollDecode build with
  | ok decoded =>
    obtain ⟨_ | packet, next⟩ := decoded
    · exact Iff.rfl
    · simp
  | err e => simp
  | panic => simp
  | diverge => simp

private theorem endsRefusing_nil {d : Decoder} :
    d.EndsRefusing build [] ↔ d.EndsRefusing build [.pending] := by
  constructor
  · rintro ⟨_ | count, refuses⟩
    · exact absurd refuses id
    · exact ⟨count, refuses⟩
  · rintro ⟨count, refuses⟩
    exact ⟨count + 1, refuses⟩

private theorem endsRefusing_driven :
    Connection.Driven build (EndsRefusing build) True (RefusesAt build) where
  ends ends := iff_of_true ⟨0, by simp [Refuses, ends]⟩ trivial
  reads := endsRefusing_cons
  stalls stalled := by
    rw [RefusesAt, show pollDecode build _ = _ from stalled]
  idle {d} stalled := by
    rintro ⟨count, refuses⟩
    induction count with
    | zero => exact refuses
    | succ count ih =>
      have same : d.feed [] = d := by simp only [feed, List.append_nil]
      simp only [List.nil_append, List.replicate_succ, Refuses, Connection.arrived, same,
        show pollDecode build d = _ from stalled] at refuses
      exact ih refuses
  last {d} _ := by
    have same : d.feed [] = d := by simp only [feed, List.append_nil]
    rw [endsRefusing_nil, endsRefusing_cons rfl, same]

/-- A packet without a payload is emitted, and refused, with the next byte. -/
theorem refusesAt_variableHeaderDecoded {d : Decoder} (state : d.state = .variableHeaderDecoded)
    (bare : d.tmpPacket.Bare) (nonempty : d.buf ≠ []) (left : List SocketRead) :
    d.RefusesAt build left := by
  rw [RefusesAt, pollDecode_variableHeaderDecoded state nonempty, bare.passes]
  exact bare.other

private theorem endsRefusing_variableHeaderDecoded {d : Decoder} (state : d.state = .variableHeaderDecoded)
    (bare : d.tmpPacket.Bare) (reads : List SocketRead) :
    d.EndsRefusing build reads ↔ Connection.Awaits True 1 (fun _ _ => True) d.buf reads := by
  have one : d.enough = 1 := by rw [enough, state, if_neg DecoderState.noConfusion]
  rw [endsRefusing_driven.iff_awaits, one]
  refine Connection.Awaits.congr fun buf left _ long => iff_true_intro ?_
  exact refusesAt_variableHeaderDecoded (d := d.holding buf) state bare
    (List.ne_nil_of_length_pos long) left

end Decoder

/-- The bytes `buf` behind a fixed header are refused: they do not end inside a field that is read
unchecked, nothing asks for the version, and if the header does not end the frame, a byte stands or
arrives behind it. -/
def Grammar.HeaderRefused (packet : ControlPacket) (remainingLength : ℕ) (buf : Bytes)
    (left : List SocketRead) : Prop :=
  let header := firstHeader packet remainingLength
  ¬ header.Cut buf 0 ∧ ∀ size, header.Spans buf 0 () size → size ≠ remainingLength →
    Connection.Awaits True 1 (fun _ _ => True) (buf.drop size) left

namespace Decoder

private theorem refusesAt_fixedHeaderDecoded {d : Decoder} (state : d.state = .fixedHeaderDecoded)
    (fresh : d.remainLengthCounter = 0) (unknown : d.protocolVersion = none)
    (kind : d.tmpPacket.Fresh) (other : d.tmpPacket ≠ .connect {}) (nonempty : d.buf ≠ [])
    (left : List SocketRead) : d.RefusesAt build left ↔
      Grammar.HeaderRefused d.tmpPacket d.remainingLength d.buf left := by
  have describes := ControlPacket.firstHeader_describes build d.remainingLength kind other
  rw [RefusesAt, pollDecode_fixedHeaderDecoded state fresh nonempty, unknown, Grammar.HeaderRefused]
  cases header : d.tmpPacket.decodeVariableHeader build d.remainingLength none d.buf 0 with
  | ok read =>
    obtain ⟨headed, size⟩ := read
    obtain ⟨_, spans, bare⟩ := describes.sound header
    have uncut : ¬ (Grammar.firstHeader d.tmpPacket d.remainingLength).Cut d.buf 0 := fun cut => by
      cases header.symm.trans (describes.cut.mpr cut)
    rw [and_iff_right uncut]
    simp only [Outcome.ok_bind]
    by_cases whole : size = d.remainingLength
    · rw [if_pos whole]
      refine iff_of_true bare.other fun size' spans' partly => ?_
      obtain ⟨_, header', _⟩ := describes.complete spans'
      cases header.symm.trans header'
      exact absurd whole partly
    · rw [if_neg whole]
      have later : (d.afterVariableHeader headed size (d.buf.drop size)).EndsRefusing build left ↔ _ :=
        endsRefusing_variableHeaderDecoded rfl bare left
      refine later.trans ⟨fun arrives size' spans' _ => ?_, fun all => all size spans whole⟩
      obtain ⟨_, header', _⟩ := describes.complete spans'
      cases header.symm.trans header'
      exact arrives
  | err e =>
    refine iff_of_true trivial ⟨fun cut => ?_, fun size spans => ?_⟩
    · cases header.symm.trans (describes.cut.mpr cut)
    · obtain ⟨_, header', _⟩ := describes.complete spans
      cases header.symm.trans header'
  | panic => exact iff_of_false id fun refused => refused.1 (describes.cut.mp header)
  | diverge =>
    exact absurd header ((d.tmpPacket.decodeVariableHeader_lawful build _ _).halts _ _)

private theorem endsRefusing_fixedHeaderDecoded {d : Decoder} (state : d.state = .fixedHeaderDecoded)
    (fresh : d.remainLengthCounter = 0) (unknown : d.protocolVersion = none)
    (kind : d.tmpPacket.Fresh) (other : d.tmpPacket ≠ .connect {}) (reads : List SocketRead) :
    d.EndsRefusing build reads ↔
      Connection.Awaits True 1 (Grammar.HeaderRefused d.tmpPacket d.remainingLength) d.buf reads := by
  have one : d.enough = 1 := by rw [enough, state, if_neg DecoderState.noConfusion]
  rw [endsRefusing_driven.iff_awaits, one]
  refine Connection.Awaits.congr fun buf left _ long => ?_
  exact refusesAt_fixedHeaderDecoded (d := d.holding buf) state fresh unknown kind other
    (List.ne_nil_of_length_pos long) left

end Decoder

/-- A frame of another type than CONNECT starts another packet. -/
private theorem packetOfFirstByte_ne_connect {first : UInt8} {start : ControlPacket} (other : first >>> 4 ≠ 1)
    (kind : packetOfFirstByte first = .ok start) : start ≠ .connect {} := by
  rintro rfl
  have branch {c : Prop} [Decidable c] {x y : Result ControlPacket} (yes : x ≠ .ok (.connect {}))
      (no : y ≠ .ok (.connect {})) : (if c then x else y) ≠ .ok (.connect {}) := by
    split
    · exact yes
    · exact no
  have invalid : (.err .invalidFormat : Result ControlPacket) ≠ .ok (.connect {}) := by rintro ⟨⟩
  have starts {packet : ControlPacket} (different : packet ≠ .connect {}) :
      (.ok packet : Result ControlPacket) ≠ .ok (.connect {}) := fun same =>
    different (Outcome.ok.inj same)
  refine absurd kind (?_ : packetOfFirstByte first ≠ .ok (.connect {}))
  rw [packetOfFirstByte, if_neg other]
  refine branch (starts nofun) <| branch ?publish <| branch (starts nofun) <|
    branch (starts nofun) <| branch (branch invalid (starts nofun)) <| branch (starts nofun) <|
    branch (branch invalid (starts nofun)) <| branch (branch invalid (starts nofun)) invalid
  intro wrong
  obtain ⟨_, _, wrong⟩ := Outcome.bind_eq_ok_iff.mp wrong
  cases wrong

section FixedHeaders

variable {frame : Frame} {buf after : Bytes}

private theorem decodeFixedHeader_cons (first : UInt8) (rest : Bytes) :
    decodeFixedHeader (first :: rest) 0 = packetOfFirstByte first >>= fun packet =>
      decodeVariableLength (first :: rest) 1 >>= fun read => .ok ((packet, read.1), read.2) := by
  simp only [decodeFixedHeader, bind_apply]
  change (Outcome.ok (first, 1) >>= _) = _
  simp only [Outcome.ok_bind, lift]
  cases packetOfFirstByte first <;> rfl

/-- The fixed header of a frame is read as soon as it is in the buffer. -/
private theorem Frame.decodeFixedHeader_whole (shorter : buf <+: frame.bytes ++ after)
    (inside : 1 + frame.lengthField.length ≤ buf.length) {start : ControlPacket}
    (kind : packetOfFirstByte frame.first = .ok start) :
    decodeFixedHeader buf 0 = .ok ((start, frame.body.length), 1 + frame.lengthField.length) := by
  have whole := frame.decodeFixedHeader_bytes after
  rw [kind, Outcome.ok_bind] at whole
  apply decodeFixedHeader_lawful.stable whole
  obtain ⟨rest, bytes⟩ := shorter
  rw [← bytes, List.take_append_of_le_length inside]

/-- With fewer bytes, or with a first byte that starts no packet, it is an error. -/
private theorem Frame.decodeFixedHeader_err (shorter : buf <+: frame.bytes ++ after) (nonempty : buf ≠ [])
    (bad : (∀ start, packetOfFirstByte frame.first ≠ .ok start) ∨
      buf.length < 1 + frame.lengthField.length) :
    ∃ e, decodeFixedHeader buf 0 = .err e := by
  obtain ⟨first, rest, rfl⟩ := List.exists_cons_of_ne_nil nonempty
  obtain ⟨rfl, _⟩ := List.cons_prefix_cons.mp shorter
  rw [decodeFixedHeader_cons]
  rcases packetOfFirstByte_outcome frame.first with ⟨e, refused⟩ | ⟨start, kind, _⟩
  · exact ⟨e, by rw [refused]; rfl⟩
  rw [kind, Outcome.ok_bind]
  cases length : decodeVariableLength (frame.first :: rest) 1 with
  | ok read =>
    have cut := bad.resolve_left fun none => none start kind
    have header : decodeFixedHeader (frame.first :: rest) 0 = .ok ((start, read.1), read.2) := by
      rw [decodeFixedHeader_cons, kind, Outcome.ok_bind, length]
      rfl
    have within := decodeFixedHeader_lawful.within header (Nat.zero_le _)
    obtain ⟨missing, bytes⟩ := shorter
    have whole := frame.decodeFixedHeader_bytes after
    rw [kind, Outcome.ok_bind, ← bytes, decodeFixedHeader_lawful.stable header
      (List.take_append_of_le_length within)] at whole
    have size := congrArg Prod.snd (Outcome.ok.inj whole)
    dsimp only at size within
    omega
  | err e => exact ⟨e, rfl⟩
  | panic => exact (decodeVariableLength_describes.cut.mp length).elim
  | diverge => exact absurd length (decodeVariableLength_lawful.halts _ _)

end FixedHeaders

namespace Decoder

private theorem refusesAt_done {d : Decoder} {frame : Frame} {after : Bytes} (done : d.state = .done)
    (unknown : d.protocolVersion = none) (other : frame.first >>> 4 ≠ 1)
    (shorter : d.buf <+: frame.bytes ++ after) (long : 2 ≤ d.buf.length) (left : List SocketRead) :
    d.RefusesAt build left ↔ ∀ start, packetOfFirstByte frame.first = .ok start →
      1 + frame.lengthField.length ≤ d.buf.length →
        Connection.Awaits True 1 (Grammar.HeaderRefused start frame.body.length)
          (d.buf.drop (1 + frame.lengthField.length)) left := by
  have nonempty : d.buf ≠ [] := List.ne_nil_of_length_pos (by omega)
  -- an error of the fixed header is one of the poll
  have refused (bad : (∀ start, packetOfFirstByte frame.first ≠ .ok start) ∨
      d.buf.length < 1 + frame.lengthField.length) : d.RefusesAt build left := by
    obtain ⟨e, header⟩ := Frame.decodeFixedHeader_err shorter nonempty bad
    rw [RefusesAt, pollDecode, if_neg nonempty, done]
    simp only [pollFixedHeader, if_neg (Nat.not_lt.mpr long), header]
    trivial
  rcases packetOfFirstByte_outcome frame.first with ⟨e, invalid⟩ | ⟨start, kind, fresh⟩
  · have none (start : ControlPacket) : packetOfFirstByte frame.first ≠ .ok start := fun wrong => by
      cases invalid.symm.trans wrong
    exact iff_of_true (refused (.inl none)) fun start kind => absurd kind (none start)
  by_cases inside : 1 + frame.lengthField.length ≤ d.buf.length
  · have header := Frame.decodeFixedHeader_whole shorter inside kind
    have polled : d.pollDecode build = _ := pollDecode_eq_ok_iff.mpr (.fixedHeader done long header)
    rw [RefusesAt, polled]
    let headed := d.afterFixedHeader start frame.body.length
      (d.buf.drop (1 + frame.lengthField.length))
    have refuses : headed.EndsRefusing build left ↔ _ :=
      endsRefusing_fixedHeaderDecoded (d := headed) rfl rfl unknown fresh
        (packetOfFirstByte_ne_connect other kind) left
    refine refuses.trans ⟨fun awaits start' kind' _ => ?_, fun all => all start kind inside⟩
    cases kind.symm.trans kind'
    exact awaits
  · exact iff_of_true (refused (.inr (by omega))) fun _ _ wrong => absurd wrong inside

end Decoder

/-- The connection refuses the frame, along these reads: the decoder does not find its type, finds its
remaining length cut, or refuses what it finds behind the fixed header; or the peer is gone first. -/
def Frame.RefusedFirst (frame : Frame) (reads : List SocketRead) : Prop :=
  Connection.Awaits True 2 (fun buf left => ∀ start, packetOfFirstByte frame.first = .ok start →
    1 + frame.lengthField.length ≤ buf.length →
      Connection.Awaits True 1 (Grammar.HeaderRefused start frame.body.length)
        (buf.drop (1 + frame.lengthField.length)) left) [] reads

/-- A poll that finds nothing new. -/
def PollInput.idle (channel : OutboundChannel) : OutboundChannel × PollInput ε := (channel, {})

/-- For every frame of another type than CONNECT and every way in which a stream that starts with it is
read by a fresh connection: repeated polls end with an error, without an abort, a call of a service or a
packet for the channel, exactly if the condition holds. -/
theorem first_packet_refused_iff (build : Build) (services : Services F CF) (clientId : Uuid)
    (frame : Frame) (other : frame.first >>> 4 ≠ 1) (polls : List (OutboundChannel × PollInput ε))
    (stream : frame.bytes <+: Connection.received (polls.map (·.2.read))) (channel : OutboundChannel) :
    (∃ count, ((Session.new clientId).run build services
        (polls ++ List.replicate count (PollInput.idle channel))).Refused) ↔
      frame.RefusedFirst (polls.map (·.2.read)) := by
  have runs (count : ℕ) : ((Session.new clientId : Session ε F CF).run build services
      (polls ++ List.replicate count (PollInput.idle channel))).Refused ↔
        Decoder.new.Refuses build (polls.map (·.2.read) ++ List.replicate count .pending) := by
    have run : ((Session.new clientId : Session ε F CF).run build services
        (polls ++ List.replicate count (PollInput.idle channel))).Refused ↔ _ :=
      Session.run_refused_iff (Connection.new clientId) rfl _
    rw [List.map_append, List.map_replicate] at run
    exact run
  simp only [runs]
  have awaits : Decoder.new.EndsRefusing build (polls.map (·.2.read)) ↔ _ :=
    Decoder.endsRefusing_driven.iff_awaits Decoder.new (polls.map (·.2.read))
  refine awaits.trans (Connection.Awaits.congr fun buf left later long => ?_)
  obtain ⟨after, bytes⟩ := stream
  have shorter : buf <+: frame.bytes ++ after := by
    rw [bytes]
    exact ⟨_, later.stream⟩
  exact Decoder.refusesAt_done (d := Decoder.new.holding buf) rfl rfl other shorter long left

/-- A SUBSCRIBE of a client that has not connected. -/
def earlySubscribe : Frame where
  first := 0b10000010
  lengthField := [6]
  body := [0, 1, 0, 1, 116, 0]
  announced := rfl

/-- Services that do nothing. -/
def noServices : Services Unit Unit := ⟨fun _ => (), fun _ => ()⟩

theorem first_packet_refused_iff_subscribe :
    ∃ count, ((Session.new ⟨0⟩ : Session Unit Unit Unit).run ⟨true⟩ noServices
      ([(.new, { read := .ready earlySubscribe.bytes })] ++
        List.replicate count (PollInput.idle .new))).Refused := by
  refine (first_packet_refused_iff ⟨true⟩ noServices ⟨0⟩ earlySubscribe (by decide)
    [(.new, { read := .ready earlySubscribe.bytes })] ⟨[], rfl⟩ .new).mpr ?_
  rintro start ⟨⟩ _
  exact ⟨by decide, id, fun _ => False.elim⟩

/-- A PUBLISH of a client that has not connected. -/
def earlyPublish : Frame where
  first := 0b00110000
  lengthField := [4]
  body := [0, 1, 116, 33]
  announced := rfl

/-- The poll behind the one that receives it aborts, where the decoder asks for the version. -/
theorem earlyPublish_not_refused :
    ((Session.new ⟨0⟩ : Session Unit Unit Unit).run ⟨true⟩ noServices
      [(.new, { read := .ready earlyPublish.bytes }), PollInput.idle .new]).result = .panic ∧
    ¬ ∃ count, ((Session.new ⟨0⟩ : Session Unit Unit Unit).run ⟨true⟩ noServices
      ([(.new, { read := .ready earlyPublish.bytes })] ++
        List.replicate count (PollInput.idle .new))).Refused := by
  refine ⟨rfl, ?_⟩
  rintro ⟨_ | count, refused⟩
  · obtain ⟨⟨error, failed⟩, _⟩ := refused
    cases failed
  · rw [List.replicate_succ, List.singleton_append, Session.run_cons, Session.run_cons] at refused
    exact Session.not_refused_of_abort (.inl rfl) _ refused

end Aqua
