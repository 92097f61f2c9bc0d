import Aqua.Proofs.Segments
import Aqua.Soundness.ConnectionPhases
import Aqua.Soundness.Wakeups

/-! # What a connection hears

The bytes that arrive at a socket are cut into segments, one for each packet the connection receives, with nothing
left out between them. Each packet is what its own segment says, in the version of the CONNECT: neither the other
packets nor the way in which the bytes arrive have any part in it.
-/

namespace Aqua

open Wire Runtime

/-- The segments of the packets: the first is read without a version, the others with that of the CONNECT. -/
inductive Heard (build : Build) : List Bytes → List ControlPacket → Prop
  | nothing : Heard build [] []
  | first {segment : Bytes} {packet : ControlPacket} (alone : Decoder.Alone build none segment packet) :
      Heard build [segment] [packet]
  | later {segments : List Bytes} {segment : Bytes} {first : Connect} {packets : List ControlPacket}
      {packet : ControlPacket} (heard : Heard build segments (.connect first :: packets))
      (alone : Decoder.Alone build (some first.protocolVer) segment packet) :
      Heard build (segments ++ [segment]) (.connect first :: (packets ++ [packet]))

def Action.received? : Action → Option ControlPacket
  | .received packet => some packet
  | _ => none

/-- The packets a connection has received. -/
def Session.received {ε F CF : Type} (session : Session ε F CF) : List ControlPacket :=
  session.trace.filterMap Action.received?

def SocketRead.bytes : SocketRead → Bytes
  | .ready bytes => bytes
  | .failed => []
  | .pending => []

namespace Connection

variable {F CF ε : Type} {build : Build} {services : Services F CF}

/-- The bytes a poll takes from the socket. -/
def hears (self : Connection F CF) (read : SocketRead) : Bytes :=
  match self.state with
  | .preConnection => read.bytes
  | .readingPacket => read.bytes
  | _ => []

/-- What a read makes of a decoder: it is polled with the bytes there, or the connection is at its end. -/
inductive Hears (build : Build) (decoder : Decoder) (bytes : Bytes) : Option ControlPacket → Decoder → Prop
  | unread : Hears build decoder bytes none (decoder.feed bytes)
  | polled {ready : Option ControlPacket} {next : Decoder}
      (polled : (decoder.feed bytes).pollDecode build = .ok (ready, next)) : Hears build decoder bytes ready next

def packet? : Outcome (ConnectionError ε) (Option ControlPacket) → Option ControlPacket
  | .ok ready => ready
  | _ => none

private theorem readPacket_hears {self next : Connection F CF} {read : SocketRead}
    {outcome : Outcome (ConnectionError ε) (Option ControlPacket)}
    (reads : self.readPacket build read = (outcome, next)) :
    Hears build self.decoder read.bytes (packet? outcome) next.decoder := by
  cases arrives : arrived read with
  | none =>
    obtain ⟨error, ended⟩ := readPacket_ends (ε := ε) build self arrives
    cases reads.symm.trans ended
    have nothing : read.bytes = [] := by
      cases read with
      | ready bytes => cases bytes <;> first | rfl | cases arrives
      | failed => rfl
      | pending => rfl
    have same : self.decoder.feed read.bytes = self.decoder := by
      simp only [nothing, Decoder.feed, List.append_nil]
    have hears : Hears build self.decoder read.bytes none (self.decoder.feed read.bytes) := .unread
    rwa [same] at hears
  | some bytes =>
    have same : read.bytes = bytes := by
      cases read with
      | ready received => cases received <;> cases arrives; rfl
      | failed => cases arrives
      | pending => cases arrives; rfl
    rw [same]
    rw [readPacket_eq self arrives] at reads
    cases polled : (self.decoder.feed bytes).pollDecode build with
    | ok value => rw [polled] at reads; cases reads; exact .polled polled
    | err e => rw [polled] at reads; cases reads; exact .unread
    | panic => rw [polled] at reads; cases reads; exact .unread
    | diverge => rw [polled] at reads; cases reads; exact .unread

/-- What is heard lengthens the current packet, or ends it. -/
theorem Hears.underway {decoder next : Decoder} {bytes part : Bytes} {ready : Option ControlPacket}
    (hears : Hears build decoder bytes ready next) (underway : decoder.Underway build part) :
    next.protocolVersion = decoder.protocolVersion ∧
    ((ready = none ∧ ∃ part', part ++ decoder.buf ++ bytes = part' ++ next.buf ∧ next.Underway build part') ∨
      ∃ packet segment, ready = some packet ∧ part ++ decoder.buf ++ bytes = segment ++ next.buf ∧
        Decoder.Alone build decoder.protocolVersion segment packet ∧ next.state = .done) := by
  have fed := underway.feed bytes
  cases hears with
  | unread => exact ⟨rfl, .inl ⟨rfl, part, List.append_assoc .., fed⟩⟩
  | polled polled =>
    refine ⟨(Decoder.pollDecode_eq_ok_iff.mp polled).protocolVersion, ?_⟩
    cases ready with
    | none =>
      obtain ⟨taken, split, further⟩ := fed.pending polled
      have split : decoder.buf ++ bytes = taken ++ next.buf := split
      exact .inl ⟨rfl, part ++ taken, by rw [List.append_assoc, List.append_assoc, split], further⟩
    | some packet =>
      obtain ⟨taken, split, alone, further⟩ := fed.ready polled
      have split : decoder.buf ++ bytes = taken ++ next.buf := split
      exact .inr ⟨packet, part ++ taken, rfl, by rw [List.append_assoc, List.append_assoc, split], alone, further⟩

/-- A poll that does not read receives nothing. -/
private theorem poll_deaf {self : Connection F CF} (deaf : ¬ self.Reads) (build : Build) (services : Services F CF)
    (channel : OutboundChannel) (input : PollInput ε) :
    let polled := self.poll build services channel input
    polled.connection.decoder = self.decoder ∧ polled.actions.filterMap Action.received? = [] ∧
      (polled.result = .ok none → polled.connection.state ≠ .preConnection) := by
  unfold Connection.poll
  cases phase : self.state with
  | preConnection => exact absurd (.inl phase) deaf
  | readingPacket => exact absurd (.inr phase) deaf
  | processingConnect fut =>
    dsimp only
    split <;> exact ⟨rfl, rfl, by simp⟩
  | processingService fut =>
    dsimp only
    split <;> exact ⟨rfl, rfl, by simp⟩
  | responseConnect res =>
    dsimp only
    split <;> exact ⟨rfl, rfl, by simp⟩
  | writingPacket res =>
    obtain ⟨offers, rest, actions, -⟩ := writePackets_offers input.others res.packets 0 channel
    have offered : (writePackets input.others 0 res.packets channel).2.2.filterMap Action.received? = [] := by
      rw [actions, Offers.actions, List.filterMap_map]
      exact List.filterMap_eq_nil_iff.mpr fun offer _ => rfl
    dsimp only
    split
    all_goals
      next wrote =>
      rw [wrote] at offered
      exact ⟨rfl, offered, by simp⟩

end Connection

/-- The version in which the next packet is read: none in front of the CONNECT, and then its version. -/
def Session.Versioned {ε F CF : Type} (session : Session ε F CF) : Prop :=
  (session.connection.state = .preConnection ∧ session.received = [] ∧
      session.connection.decoder.protocolVersion = none) ∨
    session.connection.state ≠ .preConnection ∧ ∃ first later, session.received = .connect first :: later ∧
      session.connection.decoder.protocolVersion = some first.protocolVer

/-- The bytes taken from the socket are the segments of the packets received, those of the current packet, and those
in the buffer. -/
structure Session.Listens {ε F CF : Type} (build : Build) (session : Session ε F CF) (bytes : Bytes) : Prop where
  cut : ∃ segments part, bytes = segments.flatten ++ part ++ session.connection.decoder.buf ∧
    Heard build segments session.received ∧ session.connection.decoder.Underway build part
  version : session.result = .ok none → session.Versioned

namespace Session

variable {ε F CF : Type} {build : Build} {services : Services F CF} {session next : Session ε F CF} {bytes : Bytes}

private theorem Listens.new (clientId : Uuid) : (Session.new clientId : Session ε F CF).Listens build [] where
  cut := ⟨[], [], rfl, .nothing, .inl ⟨rfl, rfl⟩⟩
  version _ := .inl ⟨rfl, rfl, rfl⟩

/-- A poll without a packet. -/
private theorem Listens.goes_on {more : Bytes} (listens : session.Listens build bytes)
    (received : next.received = session.received)
    (hears : Connection.Hears build session.connection.decoder more none next.connection.decoder)
    (version : next.result = .ok none → next.Versioned) : next.Listens build (bytes ++ more) := by
  obtain ⟨⟨segments, part, rfl, heard, underway⟩, -⟩ := listens
  obtain ⟨-, ⟨-, part', split, further⟩ | ⟨packet, segment, wrong, -⟩⟩ := hears.underway underway
  · refine ⟨⟨segments, part', ?_, received ▸ heard, further⟩, version⟩
    rw [List.append_assoc, List.append_assoc, ← List.append_assoc part, split, List.append_assoc]
  · cases wrong

/-- A poll with a packet. -/
theorem Listens.receives {more : Bytes} {packet : ControlPacket} {decoder : Decoder}
    (listens : session.Listens build bytes) (versioned : session.Versioned)
    (received : next.received = session.received ++ [packet])
    (hears : Connection.Hears build session.connection.decoder more (some packet) decoder)
    (same : next.connection.decoder.buf = decoder.buf ∧ next.connection.decoder.state = decoder.state)
    (version : next.result = .ok none → next.Versioned) : next.Listens build (bytes ++ more) := by
  obtain ⟨⟨segments, part, rfl, heard, underway⟩, -⟩ := listens
  obtain ⟨-, ⟨wrong, -⟩ | ⟨_, segment, same_packet, split, alone, done⟩⟩ := hears.underway underway
  · cases wrong
  · cases same_packet
    refine ⟨⟨segments ++ [segment], [], ?_, ?_, .inl ⟨same.2.trans done, rfl⟩⟩, version⟩
    · rw [List.append_nil, List.flatten_concat, same.1, List.append_assoc, List.append_assoc, ← List.append_assoc part,
        split, List.append_assoc]
    · rw [received]
      obtain ⟨-, none_received, none_set⟩ | ⟨-, first, later, some_received, set⟩ := versioned
      · rw [none_received] at heard ⊢
        rw [none_set] at alone
        cases heard
        exact .first alone
      · rw [some_received] at heard ⊢
        rw [set] at alone
        exact heard.later alone

private theorem poll_eq (goesOn : session.result = .ok none) (build : Build) (services : Services F CF)
    (channel : OutboundChannel) (input : PollInput ε) :
    let polled := session.connection.poll build services channel input
    session.poll build services (channel, input) =
      ⟨polled.connection, session.trace ++ polled.actions, polled.result⟩ := by
  unfold Session.poll
  rw [goesOn]

private theorem received_append (connection : Connection F CF) (trace actions : List Action)
    (result : Outcome (ConnectionError ε) (Option Unit)) :
    (⟨connection, trace ++ actions, result⟩ : Session ε F CF).received =
      trace.filterMap Action.received? ++ actions.filterMap Action.received? := List.filterMap_append

private theorem received_nothing (connection : Connection F CF) (result : Outcome (ConnectionError ε) (Option Unit)) :
    received ⟨connection, session.trace ++ [], result⟩ = session.received :=
  congrArg (List.filterMap Action.received?) (List.append_nil session.trace)

private theorem Listens.poll_first (listens : session.Listens build bytes) (goesOn : session.result = .ok none)
    (phase : session.connection.state = .preConnection) (services : Services F CF) (channel : OutboundChannel)
    (input : PollInput ε) :
    (session.poll build services (channel, input)).Listens build (bytes ++ input.read.bytes) := by
  have versioned := listens.version goesOn
  have start : session.received = [] ∧ session.connection.decoder.protocolVersion = none := by
    obtain ⟨-, start⟩ | ⟨later, -⟩ := versioned
    · exact start
    · exact absurd phase later
  rw [poll_eq goesOn]
  unfold Connection.poll
  rw [phase]
  dsimp only
  split
  · next first connection read =>
    refine listens.receives versioned (received_append ..) (Connection.readPacket_hears read) ⟨rfl, rfl⟩ fun _ => ?_
    refine .inr ⟨fun wrong => (by cases wrong), first, [], ?_, rfl⟩
    rw [received_append]
    exact congrArg (· ++ [ControlPacket.connect first]) start.1
  · next packet connection other read =>
    exact listens.receives versioned (received_append ..) (Connection.readPacket_hears read) ⟨rfl, rfl⟩
      fun wrong => by cases wrong
  · next connection read =>
    refine listens.goes_on (received_nothing ..) (Connection.readPacket_hears read) fun _ => .inl ⟨rfl, ?_, ?_⟩
    · exact (received_nothing ..).trans start.1
    · exact (Connection.readPacket_ready read).protocolVersion.trans start.2
  · next e connection read =>
    exact listens.goes_on (received_nothing ..) (Connection.readPacket_hears read) fun wrong => by cases wrong
  · next connection read =>
    exact listens.goes_on (received_nothing ..) (Connection.readPacket_hears read) fun wrong => by cases wrong
  · next connection read =>
    exact listens.goes_on (received_nothing ..) (Connection.readPacket_hears read) fun wrong => by cases wrong

private theorem Listens.poll_later (listens : session.Listens build bytes) (goesOn : session.result = .ok none)
    (phase : session.connection.state = .readingPacket) (services : Services F CF) (channel : OutboundChannel)
    (input : PollInput ε) :
    (session.poll build services (channel, input)).Listens build (bytes ++ input.read.bytes) := by
  have versioned := listens.version goesOn
  obtain ⟨first, later, some_received, set⟩ : ∃ first later, session.received = .connect first :: later ∧
      session.connection.decoder.protocolVersion = some first.protocolVer := by
    obtain ⟨wrong, -⟩ | ⟨-, version⟩ := versioned
    · cases phase.symm.trans wrong
    · exact version
  rw [poll_eq goesOn]
  unfold Connection.poll
  rw [phase]
  dsimp only
  split
  · next request connection read =>
    refine listens.receives versioned (received_append ..) (Connection.readPacket_hears read) ⟨rfl, rfl⟩ fun _ => ?_
    refine .inr ⟨fun wrong => (by cases wrong), first, later ++ [request], ?_, ?_⟩
    · rw [received_append]
      exact congrArg (· ++ [request]) some_received
    · exact (Connection.readPacket_ready read).protocolVersion.trans set
  · next connection read =>
    refine listens.goes_on (received_nothing ..) (Connection.readPacket_hears read) fun _ => ?_
    refine .inr ⟨fun wrong => (by cases wrong), first, later, ?_, ?_⟩
    · exact (received_nothing ..).trans some_received
    · exact (Connection.readPacket_ready read).protocolVersion.trans set
  · next e connection read =>
    exact listens.goes_on (received_nothing ..) (Connection.readPacket_hears read) fun wrong => by cases wrong
  · next connection read =>
    exact listens.goes_on (received_nothing ..) (Connection.readPacket_hears read) fun wrong => by cases wrong
  · next connection read =>
    exact listens.goes_on (received_nothing ..) (Connection.readPacket_hears read) fun wrong => by cases wrong

/-- Every poll hears the bytes it takes from the socket. -/
theorem Listens.poll (listens : session.Listens build bytes) (goesOn : session.result = .ok none)
    (services : Services F CF) (channel : OutboundChannel) (input : PollInput ε) :
    (session.poll build services (channel, input)).Listens build (bytes ++ session.connection.hears input.read) := by
  by_cases reads : session.connection.Reads
  · obtain phase | phase := reads
    · rw [Connection.hears, phase]
      exact listens.poll_first goesOn phase services channel input
    · rw [Connection.hears, phase]
      exact listens.poll_later goesOn phase services channel input
  · obtain ⟨decoder, deaf, state⟩ := Connection.poll_deaf reads build services channel input
    have silence : session.connection.hears input.read = [] := by
      unfold Connection.hears
      split
      · next phase => exact absurd (.inl phase) reads
      · next phase => exact absurd (.inr phase) reads
      · rfl
    obtain ⟨wrong, -⟩ | ⟨-, first, later, some_received, set⟩ := listens.version goesOn
    · exact absurd (.inl wrong) reads
    have same : (session.poll build services (channel, input)).received = session.received := by
      rw [poll_eq goesOn, received_append, deaf, List.append_nil, received]
    have kept : (session.poll build services (channel, input)).connection.decoder = session.connection.decoder := by
      rw [poll_eq goesOn, decoder]
    refine listens.goes_on same ?_ fun pending => .inr ⟨?_, first, later, same.trans some_received, ?_⟩
    · have hears : Connection.Hears build session.connection.decoder [] none
          (session.connection.decoder.feed []) := .unread
      rw [silence, kept]
      simpa only [Decoder.feed, List.append_nil] using hears
    · rw [poll_eq goesOn] at pending ⊢
      exact state pending
    · rw [kept, set]

end Session

namespace Spawned

variable {ε F CF : Type} {build : Build} {services : Services F CF} {self next : Spawned ε F CF} {event : Event ε}

/-- The bytes that arrive with an event. -/
def Event.bytes : Event ε → Bytes
  | .arrive bytes => bytes
  | _ => []

/-- The bytes that have arrived were heard, or are in the socket. -/
def Listens (build : Build) (self : Spawned ε F CF) (bytes : Bytes) : Prop :=
  ∃ heard, bytes = heard ++ self.socket.arrived ∧ self.session.Listens build heard

/-- What a poll hears is no longer in the socket. -/
private theorem hears_poll (build : Build) (services : Services F CF) (self : Spawned ε F CF)
    (channel : OutboundChannel) (more : ℕ) (others : ℕ → List ChannelOp) : self.socket.arrived =
      self.session.connection.hears (self.input more others).read ++
        (self.poll build services channel more others).socket.arrived := by
  have read : self.socket.arrived = (self.socket.read more).1.bytes ++ (self.socket.read more).2.arrived := by
    obtain ⟨arrived, ended⟩ := self.socket
    cases arrived with
    | cons first rest => exact congrArg (first :: ·) (List.take_append_drop more rest).symm
    | nil =>
      cases ended with
      | none => rfl
      | some how => cases how <;> rfl
  unfold poll Connection.hears
  cases phase : self.session.connection.state with
  | preConnection =>
    simp only [phase]
    exact read
  | readingPacket =>
    simp only [phase]
    exact read
  | _ => simp only [phase, List.nil_append]

private theorem Step.listens {bytes : Bytes} (step : Step build services self event next)
    (listens : self.Listens build bytes) :
    next.Listens build (bytes ++ event.bytes) := by
  obtain ⟨heard, rfl, listens⟩ := listens
  cases step with
  | arrive some_byte going => exact ⟨heard, List.append_assoc .., listens⟩
  | poll goesOn channel more others =>
    refine ⟨_, ?_, listens.poll goesOn services channel (self.input more others)⟩
    change heard ++ self.socket.arrived ++ [] = _
    rw [List.append_nil, List.append_assoc]
    exact congrArg (heard ++ ·) (self.hears_poll build services channel more others)
  | _ => exact ⟨heard, List.append_nil _, listens⟩

/-- The rule for runs. -/
theorem listens {clientId : Uuid} {events : List (Event ε)}
    (run : Runs (Step build services) (new clientId) events self) :
    self.Listens build (events.flatMap Event.bytes) := by
  induction run with
  | nil => exact ⟨[], rfl, .new clientId⟩
  | snoc _ step ih =>
    rw [List.flatMap_append, List.flatMap_singleton]
    exact step.listens ih

end Spawned

/-- In every run of the task of a connection the bytes that have arrived are the segments of the packets received,
those of the current packet, and those in the buffer and the socket. Every packet is what its own segment says, and
the decoder is where the bytes of the current packet alone lead it; both with at least one byte behind, as a poll
that finds an empty buffer does nothing. -/
theorem heard_bytes {ε F CF : Type} {build : Build} {services : Services F CF} {clientId : Uuid}
    {events : List (Spawned.Event ε)} {task : Spawned ε F CF}
    (run : Runs (Spawned.Step build services) (.new clientId) events task) :
    ∃ segments part, events.flatMap Spawned.Event.bytes =
        segments.flatten ++ part ++ task.session.connection.decoder.buf ++ task.socket.arrived ∧
      Heard build segments task.session.received ∧ task.session.connection.decoder.Underway build part := by
  obtain ⟨heard, bytes, ⟨segments, part, rfl, packets, underway⟩, -⟩ := Spawned.listens run
  exact ⟨segments, part, bytes, packets, underway⟩

namespace Spawned

/-- A CONNECT of version 4, and the first byte of the next packet. -/
def greeting : Bytes := [0x10, 0x0D, 0x00, 0x04, 0x4D, 0x51, 0x54, 0x54, 0x04, 0x02, 0x00, 0x3C, 0x00, 0x01, 0x61, 0xC0]

/-- The CONNECT has been received. -/
def greeted : Spawned MqttError ControlPacket ControlPacket :=
  ({ new ⟨0⟩ with socket := { arrived := greeting } } : Spawned _ _ _).pollNow.pollNow.pollNow

private theorem greeted_runs : Runs (Step ⟨false⟩ Server.services) (new ⟨0⟩) [.arrive greeting,
    .poll {} 16 fun _ => [], .poll {} 16 fun _ => [], .poll {} 16 fun _ => []] greeted :=
  (((Runs.nil.snoc (.arrive (by decide) rfl)).snoc (.poll rfl {} 16 fun _ => [])).snoc
    (.poll rfl {} 16 fun _ => [])).snoc (.poll rfl {} 16 fun _ => [])

example : greeted.session.received.length = 1 := rfl

end Spawned

theorem heard_bytes_greeted : ∃ segments part, Spawned.greeting = segments.flatten ++ part ++
      Spawned.greeted.session.connection.decoder.buf ++ Spawned.greeted.socket.arrived ∧
    Heard ⟨false⟩ segments Spawned.greeted.session.received ∧
      Spawned.greeted.session.connection.decoder.Underway ⟨false⟩ part :=
  heard_bytes Spawned.greeted_runs

end Aqua
