import Aqua.Model.Connection
import Aqua.Proofs.Poll

/-! # What a poll of a connection does

A read either ends the connection or lets the decoder run once on what has arrived; it changes nothing
but the decoder. `Polls` lists the ways in which one poll of a connection returns, with its actions and
the state it leaves.
-/

namespace Aqua

open Wire Runtime

namespace Connection

variable {F CF ε : Type} {build : Build}

/-- The bytes a read adds to the buffer, unless it ends the connection. -/
def arrived : SocketRead → Option Bytes
  | .ready [] => none
  | .ready bytes => some bytes
  | .failed => none
  | .pending => some []

/-- A read that does not end the connection lets the decoder run. -/
theorem readPacket_eq (self : Connection F CF) {read : SocketRead} {bytes : Bytes}
    (arrives : arrived read = some bytes) :
    (self.readPacket build read : Outcome (ConnectionError ε) (Option ControlPacket) × _) =
      match (self.decoder.feed bytes).pollDecode build with
      | .ok (ready, decoder) => (.ok ready, { self with decoder })
      | .err e => (.err (.mqtt e), { self with decoder := self.decoder.feed bytes })
      | .panic => (.panic, { self with decoder := self.decoder.feed bytes })
      | .diverge => (.diverge, { self with decoder := self.decoder.feed bytes }) := by
  cases read with
  | ready received =>
    cases received with
    | nil => cases arrives
    | cons first rest =>
      cases arrives
      rfl
  | failed => cases arrives
  | pending =>
    cases arrives
    have same : self.decoder.feed [] = self.decoder := by
      simp only [Decoder.feed, List.append_nil]
    rw [same]
    rfl

/-- The end of the file and a failed read end the connection at once. -/
theorem readPacket_ends (build : Build) (self : Connection F CF) {read : SocketRead} (ends : arrived read = none) :
    ∃ error, (self.readPacket build read : Outcome (ConnectionError ε) (Option ControlPacket) × _) =
      (.err error, self) := by
  cases read with
  | ready received =>
    cases received with
    | nil => exact ⟨_, rfl⟩
    | cons first rest => cases ends
  | failed => exact ⟨_, rfl⟩
  | pending => cases ends

theorem readPacket_connection (build : Build) (self : Connection F CF) (read : SocketRead) :
    ∃ decoder, (self.readPacket build read :
      Outcome (ConnectionError ε) (Option ControlPacket) × _).2 = { self with decoder } := by
  cases arrives : arrived read with
  | none =>
    obtain ⟨error, ended⟩ := readPacket_ends build self arrives
    exact ⟨self.decoder, by rw [ended]⟩
  | some bytes =>
    rw [readPacket_eq self arrives]
    cases (self.decoder.feed bytes).pollDecode build with
    | ok value => exact ⟨value.2, rfl⟩
    | err e => exact ⟨_, rfl⟩
    | panic => exact ⟨_, rfl⟩
    | diverge => exact ⟨_, rfl⟩

theorem readPacket_state {self next : Connection F CF} {read : SocketRead}
    {outcome : Outcome (ConnectionError ε) (Option ControlPacket)}
    (reads : self.readPacket build read = (outcome, next)) : next.state = self.state := by
  obtain ⟨decoder, after⟩ := readPacket_connection (ε := ε) build self read
  have same := congrArg Connection.state after
  rwa [reads] at same

/-- What reading does to a decoder: bytes arrive, and it may be polled behind them. -/
inductive Decodes (build : Build) (decoder : Decoder) : Option ControlPacket → Decoder → Prop
  | fed (bytes : Bytes) : Decodes build decoder none (decoder.feed bytes)
  | polled {bytes : Bytes} {ready : Option ControlPacket} {next : Decoder}
      (polled : (decoder.feed bytes).pollDecode build = .ok (ready, next)) :
      Decodes build decoder ready next

theorem Decodes.refl (build : Build) (decoder : Decoder) : Decodes build decoder none decoder := by
  have same : decoder.feed [] = decoder := by
    simp only [Decoder.feed, List.append_nil]
  have fed : Decodes build decoder none (decoder.feed []) := .fed []
  rwa [same] at fed

theorem Decodes.protocolVersion {decoder next : Decoder} {ready : Option ControlPacket}
    (decodes : Decodes build decoder ready next) : next.protocolVersion = decoder.protocolVersion := by
  cases decodes with
  | fed bytes => rfl
  | polled polled => exact (Decoder.pollDecode_eq_ok_iff.mp polled).protocolVersion

theorem readPacket_ready {self next : Connection F CF} {read : SocketRead} {ready : Option ControlPacket}
    (reads : (self.readPacket build read : Outcome (ConnectionError ε) _ × _) = (.ok ready, next)) :
    Decodes build self.decoder ready next.decoder := by
  cases arrives : arrived read with
  | none =>
    obtain ⟨error, ended⟩ := readPacket_ends (ε := ε) build self arrives
    cases reads.symm.trans ended
  | some bytes =>
    rw [readPacket_eq self arrives] at reads
    cases polled : (self.decoder.feed bytes).pollDecode build with
    | ok value =>
      rw [polled] at reads
      cases reads
      exact .polled polled
    | err e => rw [polled] at reads; cases reads
    | panic => rw [polled] at reads; cases reads
    | diverge => rw [polled] at reads; cases reads

theorem readPacket_failed {self next : Connection F CF} {read : SocketRead}
    {outcome : Outcome (ConnectionError ε) (Option ControlPacket)}
    (reads : self.readPacket build read = (outcome, next)) (failed : ∀ ready, outcome ≠ .ok ready) :
    Decodes build self.decoder none next.decoder := by
  cases arrives : arrived read with
  | none =>
    obtain ⟨error, ended⟩ := readPacket_ends (ε := ε) build self arrives
    cases reads.symm.trans ended
    exact .refl build self.decoder
  | some bytes =>
    rw [readPacket_eq self arrives] at reads
    cases polled : (self.decoder.feed bytes).pollDecode build with
    | ok value =>
      rw [polled] at reads
      cases reads
      exact absurd rfl (failed _)
    | err e => rw [polled] at reads; cases reads; exact .fed bytes
    | panic => rw [polled] at reads; cases reads; exact .fed bytes
    | diverge => rw [polled] at reads; cases reads; exact .fed bytes

/-- A poll of the connection `self` that finds `channel` and `input`. -/
inductive Polls (build : Build) (services : Services F CF) (self : Connection F CF) (channel : OutboundChannel)
    (input : PollInput ε) : Polled ε F CF → Prop
  | waits {connection : Connection F CF} (state : connection.state = self.state)
      (decodes : Decodes build self.decoder none connection.decoder) :
      Polls build services self channel input ⟨.ok none, connection, channel, []⟩
  | fails {connection : Connection F CF} {result : Outcome (ConnectionError ε) (Option Unit)}
      (idle : ∀ res, self.state ≠ .writingPacket res) (ready : result ≠ .ok none)
      (state : connection.state = .preConnection)
      (decodes : Decodes build self.decoder none connection.decoder) :
      Polls build services self channel input ⟨result, connection, channel, []⟩
  | connects {connection : Connection F CF} {first : Connect} {decoder : Decoder}
      (state : self.state = .preConnection)
      (next : connection.state = .processingConnect (services.connect (.connect first)))
      (decodes : Decodes build self.decoder (some (.connect first)) decoder)
      (version : connection.decoder = decoder.setProtocolVersion (some first.protocolVer)) :
      Polls build services self channel input ⟨.ok none, connection, channel,
        [.received (.connect first), .connectCalled (.connect first)]⟩
  | refuses {connection : Connection F CF} {packet : ControlPacket}
      (state : self.state = .preConnection) (other : ∀ first, packet ≠ .connect first)
      (next : connection.state = .preConnection)
      (decodes : Decodes build self.decoder (some packet) connection.decoder) :
      Polls build services self channel input
        ⟨.err (.mqtt .unexpected), connection, channel, [.received packet]⟩
  | accepts {fut : CF} {res : ConnackResponse} (state : self.state = .processingConnect fut)
      (resolved : input.connect = .ok (some res)) :
      Polls build services self channel input
        ⟨.ok none, { self with state := .responseConnect res }, channel, [.connectResolved res]⟩
  | announces {res : ConnackResponse} {final : OutboundChannel} (state : self.state = .responseConnect res)
      (sent : ∀ packet ∈ final.accepted,
        packet ∈ channel.accepted ∨ packet = .connack res.toConnack) :
      Polls build services self channel input ⟨.ok none, { self with state := .readingPacket }, final,
        [.offered (.connack res.toConnack) channel]⟩
  | closed {res : ConnackResponse} (state : self.state = .responseConnect res)
      (gone : channel.closed = true) :
      Polls build services self channel input ⟨.err (.text "Channel closed"),
        { self with state := .preConnection }, channel, [.offered (.connack res.toConnack) channel]⟩
  | reads {connection : Connection F CF} {request : ControlPacket} (state : self.state = .readingPacket)
      (next : connection.state = .processingService (services.call request))
      (decodes : Decodes build self.decoder (some request) connection.decoder) :
      Polls build services self channel input
        ⟨.ok none, connection, channel, [.received request, .called request]⟩
  | answers {fut : F} {res : Response} (state : self.state = .processingService fut)
      (resolved : input.service = .ok (some res)) :
      Polls build services self channel input
        ⟨.ok none, { self with state := .writingPacket res }, channel, [.resolved res]⟩
  | writes {res : Response} {written : Written} {final : OutboundChannel} {actions : List Action}
      {next : ConnectionState F CF} {result : Outcome (ConnectionError ε) (Option Unit)}
      (state : self.state = .writingPacket res)
      (wrote : writePackets input.others 0 res.packets channel = (written, final, actions))
      (ends : written = .done ∧ next = .readingPacket ∧ result = .ok none ∨
        written ≠ .done ∧ next = .preConnection ∧ result ≠ .ok none) :
      Polls build services self channel input ⟨result, { self with state := next }, final, actions⟩

variable {services : Services F CF}

/-- A read that fails, or whose bytes are refused, ends the poll. -/
theorem Polls.of_failed {self next : Connection F CF} {channel : OutboundChannel} {input : PollInput ε}
    {outcome : Outcome (ConnectionError ε) (Option ControlPacket)}
    {result : Outcome (ConnectionError ε) (Option Unit)}
    (idle : ∀ res, self.state ≠ .writingPacket res)
    (read : Connection.readPacket build { self with state := .preConnection } input.read =
      (outcome, next))
    (failed : ∀ ready, outcome ≠ .ok ready) (ends : result ≠ .ok none) :
    Polls build services self channel input ⟨result, next, channel, []⟩ := by
  have decodes := readPacket_failed read failed
  exact .fails idle ends (readPacket_state read) decodes

theorem poll_preConnection (self : Connection F CF) (channel : OutboundChannel) (input : PollInput ε)
    (phase : self.state = .preConnection) :
    Polls build services self channel input (self.poll build services channel input) := by
  unfold poll
  rw [phase]
  dsimp only
  split
  · next first next read =>
    have decodes := readPacket_ready read
    exact .connects phase rfl decodes rfl
  · next packet next other read =>
    have decodes := readPacket_ready read
    exact .refuses phase other (readPacket_state read) decodes
  · next next read =>
    have decodes := readPacket_ready read
    exact .waits phase.symm decodes
  · next e next read =>
    exact .of_failed (by simp [phase]) read (by rintro ready ⟨⟩) (by rintro ⟨⟩)
  · next next read =>
    exact .of_failed (by simp [phase]) read (by rintro ready ⟨⟩) (by rintro ⟨⟩)
  · next next read =>
    exact .of_failed (by simp [phase]) read (by rintro ready ⟨⟩) (by rintro ⟨⟩)

theorem poll_readingPacket (self : Connection F CF) (channel : OutboundChannel) (input : PollInput ε)
    (phase : self.state = .readingPacket) :
    Polls build services self channel input (self.poll build services channel input) := by
  unfold poll
  rw [phase]
  dsimp only
  split
  · next request next read =>
    have decodes := readPacket_ready read
    exact .reads phase rfl decodes
  · next next read =>
    have decodes := readPacket_ready read
    exact .waits phase.symm decodes
  · next e next read =>
    exact .of_failed (by simp [phase]) read (by rintro ready ⟨⟩) (by rintro ⟨⟩)
  · next next read =>
    exact .of_failed (by simp [phase]) read (by rintro ready ⟨⟩) (by rintro ⟨⟩)
  · next next read =>
    exact .of_failed (by simp [phase]) read (by rintro ready ⟨⟩) (by rintro ⟨⟩)

/-- Every poll is one of them. -/
theorem polls (build : Build) (services : Services F CF) (self : Connection F CF)
    (channel : OutboundChannel) (input : PollInput ε) :
    Polls build services self channel input (self.poll build services channel input) := by
  cases phase : self.state with
  | preConnection => exact self.poll_preConnection channel input phase
  | readingPacket => exact self.poll_readingPacket channel input phase
  | processingConnect fut =>
    unfold poll
    rw [phase]
    dsimp only
    split
    · next res resolved => exact .accepts phase resolved
    · exact .waits phase.symm (.refl _ _)
    · exact .fails (by simp [phase]) (fun wrong => by cases wrong) rfl (.refl _ _)
    · exact .fails (by simp [phase]) (fun wrong => by cases wrong) rfl (.refl _ _)
    · exact .fails (by simp [phase]) (fun wrong => by cases wrong) rfl (.refl _ _)
  | responseConnect res =>
    unfold poll
    rw [phase]
    dsimp only
    split
    · next next sent =>
      refine .announces phase fun packet member => ?_
      rwa [Channel.accepted_trySend sent, List.mem_append, List.mem_singleton] at member
    · exact .announces phase fun packet member => .inl member
    · next sent => exact .closed phase (Channel.closed_of_trySend sent)
  | processingService fut =>
    unfold poll
    rw [phase]
    dsimp only
    split
    · next res resolved => exact .answers phase resolved
    · exact .waits phase.symm (.refl _ _)
    · exact .fails (by simp [phase]) (fun wrong => by cases wrong) rfl (.refl _ _)
    · exact .fails (by simp [phase]) (fun wrong => by cases wrong) rfl (.refl _ _)
    · exact .fails (by simp [phase]) (fun wrong => by cases wrong) rfl (.refl _ _)
  | writingPacket res =>
    unfold poll
    rw [phase]
    dsimp only
    split
    · next wrote => exact .writes phase wrote (.inl ⟨rfl, rfl, rfl⟩)
    · next wrote =>
      exact .writes phase wrote (.inr ⟨(by rintro ⟨⟩), rfl, (by rintro ⟨⟩)⟩)
    · next wrote =>
      exact .writes phase wrote (.inr ⟨(by rintro ⟨⟩), rfl, (by rintro ⟨⟩)⟩)

end Connection

namespace Session

variable {F CF ε : Type} {build : Build} {services : Services F CF}

theorem run_of_ended {session : Session ε F CF} (ended : session.result ≠ .ok none)
    (polls : List (OutboundChannel × PollInput ε)) : session.run build services polls = session := by
  induction polls with
  | nil => rfl
  | cons found polls ih =>
    have same : session.poll build services found = session := by
      unfold poll
      split
      · next pending => exact absurd pending ended
      · rfl
    rw [run, List.foldl_cons, same]
    exact ih

theorem run_cons (session : Session ε F CF) (found : OutboundChannel × PollInput ε)
    (polls : List (OutboundChannel × PollInput ε)) : session.run build services (found :: polls) =
      (session.poll build services found).run build services polls := rfl

/-- What a session has done stays done. -/
theorem run_trace (session : Session ε F CF) (polls : List (OutboundChannel × PollInput ε)) :
    session.trace <+: (session.run build services polls).trace := by
  induction polls generalizing session with
  | nil => exact List.prefix_refl _
  | cons found polls ih =>
    refine List.IsPrefix.trans ?_ (ih (session.poll build services found))
    unfold poll
    split
    · exact List.prefix_append _ _
    · exact List.prefix_refl _

end Session

end Aqua
