import Aqua.Proofs.Enqueued
import Aqua.Proofs.PacketGrammar

/-! # How a poll ends a connection

A poll that is not pending has met the end of the file, an error of the socket, bytes the decoder refuses or
panics on, a first packet other than CONNECT, a future that fails, a closed channel, or a DISCONNECT to be
written. The decoder never runs for ever.
-/

namespace Aqua

open Wire Wire.Reader Runtime

theorem rewrap_halts {α : Type} {packet : α → ControlPacket} {decoded : Result (α × Bytes)}
    (halts : decoded ≠ .diverge) : rewrap packet decoded ≠ .diverge := by
  rw [rewrap, ne_eq, Outcome.bind_eq_diverge_iff]
  rintro (stuck | ⟨_, _, wrong⟩)
  · exact halts stuck
  · cases wrong

theorem advance_ne_diverge (buf : Bytes) (count : ℕ) : advance buf count ≠ .diverge := by
  unfold advance
  split <;> exact fun wrong => by cases wrong

theorem Connect.decodePayload_halts (self : Connect) (buf : Bytes) : self.decodePayload buf ≠ .diverge := by
  rw [Connect.decodePayload, ne_eq, Outcome.bind_eq_diverge_iff]
  rintro (stuck | ⟨_, _, later⟩)
  · exact self.readPayload_lawful.halts _ _ stuck
  · rcases Outcome.bind_eq_diverge_iff.mp later with stuck | ⟨_, _, wrong⟩
    · exact advance_ne_diverge _ _ stuck
    · cases wrong

theorem ControlPacket.decodePayload_halts (self : ControlPacket) (buf : Bytes) :
    self.decodePayload buf ≠ .diverge := by
  cases self with
  | connect p => exact rewrap_halts (p.decodePayload_halts buf)
  | publish p => exact p.payloadMeets.halts buf
  | subscribe p => exact p.payloadMeets.halts buf
  | unsubscribe p => exact p.payloadMeets.halts buf
  | _ => exact fun wrong => by cases wrong

theorem Decoder.pollDecode_halts (build : Build) (self : Decoder) : self.pollDecode build ≠ .diverge := by
  unfold pollDecode
  split
  · exact fun wrong => by cases wrong
  split
  · unfold pollFixedHeader
    split
    · exact fun wrong => by cases wrong
    · rw [ne_eq, Outcome.bind_eq_diverge_iff]
      rintro (stuck | ⟨_, _, later⟩)
      · exact decodeFixedHeader_lawful.halts _ _ stuck
      · rcases Outcome.bind_eq_diverge_iff.mp later with stuck | ⟨_, _, wrong⟩
        · exact advance_ne_diverge _ _ stuck
        · cases wrong
  · rw [pollVariableHeader, ne_eq, Outcome.bind_eq_diverge_iff]
    rintro (stuck | ⟨_, _, later⟩)
    · exact (self.tmpPacket.decodeVariableHeader_lawful build _ _).halts _ _ stuck
    · rcases Outcome.bind_eq_diverge_iff.mp later with stuck | ⟨_, _, wrong⟩
      · exact advance_ne_diverge _ _ stuck
      · dsimp only at wrong
        split at wrong <;> cases wrong
  · rw [pollPayload, ne_eq, Outcome.bind_eq_diverge_iff]
    rintro (stuck | ⟨_, _, wrong⟩)
    · exact self.tmpPacket.decodePayload_halts _ stuck
    · cases wrong

namespace Connection

variable {F CF ε : Type} {build : Build} {services : Services F CF}

/-- A loop over a response that ends with a closed channel has just offered a packet to it. -/
theorem writePackets_closed (others : ℕ → List ChannelOp) (packets : List ControlPacket) (place : ℕ)
    (channel : OutboundChannel) (closed : (writePackets others place packets channel).1 = .closed) :
    ∃ packet found, .offered packet found ∈ (writePackets others place packets channel).2.2 ∧
      found.closed = true := by
  induction place, packets, channel using writePackets.induct others with
  | case1 place channel => cases closed
  | case2 place p rest channel => cases closed
  | case3 place rest channel ih => exact ih closed
  | case4 place packet rest channel not_disconnect not_noop found next sent ends final actions writes ih =>
    rw [writePackets.eq_4 _ _ _ _ _ not_disconnect not_noop, sent] at closed ⊢
    dsimp only at closed ⊢
    rw [writes] at closed ih ⊢
    obtain ⟨later, at_, member, gone⟩ := ih closed
    exact ⟨later, at_, List.mem_cons_of_mem _ member, gone⟩
  | case5 place packet rest channel not_disconnect not_noop found message full ends final actions writes ih =>
    rw [writePackets.eq_4 _ _ _ _ _ not_disconnect not_noop, full] at closed ⊢
    dsimp only [found] at closed ⊢
    rw [writes] at closed ih ⊢
    obtain ⟨later, at_, member, gone⟩ := ih closed
    exact ⟨later, at_, List.mem_cons_of_mem _ member, gone⟩
  | case6 place packet rest channel not_disconnect not_noop found message refused =>
    rw [writePackets.eq_4 _ _ _ _ _ not_disconnect not_noop, refused]
    exact ⟨packet, found, List.mem_singleton_self _, Channel.closed_of_trySend refused⟩

/-- Only a DISCONNECT ends the loop as a DISCONNECT does. -/
theorem writePackets_disconnect (others : ℕ → List ChannelOp) (packets : List ControlPacket) (place : ℕ)
    (channel : OutboundChannel) (ends : (writePackets others place packets channel).1 = .disconnect) :
    ∃ p, .disconnect p ∈ packets := by
  induction place, packets, channel using writePackets.induct others with
  | case1 place channel => cases ends
  | case2 place p rest channel => exact ⟨p, List.mem_cons_self ..⟩
  | case3 place rest channel ih =>
    obtain ⟨p, member⟩ := ih ends
    exact ⟨p, List.mem_cons_of_mem _ member⟩
  | case4 place packet rest channel not_disconnect not_noop found next sent outcome final actions writes ih =>
    rw [writePackets.eq_4 _ _ _ _ _ not_disconnect not_noop, sent] at ends
    dsimp only at ends
    rw [writes] at ends ih
    obtain ⟨p, member⟩ := ih ends
    exact ⟨p, List.mem_cons_of_mem _ member⟩
  | case5 place packet rest channel not_disconnect not_noop found message full outcome final actions writes ih =>
    rw [writePackets.eq_4 _ _ _ _ _ not_disconnect not_noop, full] at ends
    dsimp only [found] at ends
    rw [writes] at ends ih
    obtain ⟨p, member⟩ := ih ends
    exact ⟨p, List.mem_cons_of_mem _ member⟩
  | case6 place packet rest channel not_disconnect not_noop found message refused =>
    rw [writePackets.eq_4 _ _ _ _ _ not_disconnect not_noop, refused] at ends
    cases ends

/-- What a read ends a connection with, and the decoder it leaves there: what has arrived is in its buffer. -/
inductive ReadEnd (build : Build) (decoder : Decoder) :
    SocketRead → Outcome (ConnectionError ε) (Option Unit) → Decoder → Prop
  | eof : ReadEnd build decoder (.ready []) (.err (.text "Connection closed because poll_Read_buf is zero")) decoder
  | io : ReadEnd build decoder .failed (.err .io) decoder
  | refused {read : SocketRead} {bytes : Bytes} {e : MqttError} (arrives : arrived read = some bytes)
      (refuses : (decoder.feed bytes).pollDecode build = .err e) :
      ReadEnd build decoder read (.err (.mqtt e)) (decoder.feed bytes)
  | aborted {read : SocketRead} {bytes : Bytes} (arrives : arrived read = some bytes)
      (aborts : (decoder.feed bytes).pollDecode build = .panic) :
      ReadEnd build decoder read .panic (decoder.feed bytes)

/-- How a poll ends a connection: with this result, with this decoder, and behind these actions. -/
inductive Ends (build : Build) (self : Connection F CF) (channel : OutboundChannel) (input : PollInput ε) :
    Outcome (ConnectionError ε) (Option Unit) → Decoder → List Action → Prop
  | reading {result : Outcome (ConnectionError ε) (Option Unit)} {left : Decoder}
      (reads : self.state = .preConnection ∨ self.state = .readingPacket)
      (ends : ReadEnd build self.decoder input.read result left) : Ends build self channel input result left []
  | unexpected {packet : ControlPacket} {left : Decoder} (state : self.state = .preConnection)
      (other : ∀ first, packet ≠ .connect first) :
      Ends build self channel input (.err (.mqtt .unexpected)) left [.received packet]
  | refused {fut : CF} {e : ConnackError} {left : Decoder} (state : self.state = .processingConnect fut)
      (refuses : input.connect = .err e) : Ends build self channel input (.err (.connect e)) left []
  | connectAborted {fut : CF} {result : Outcome (ConnectionError ε) (Option Unit)} {left : Decoder}
      (state : self.state = .processingConnect fut) (aborts : input.connect = .panic ∨ input.connect = .diverge) :
      Ends build self channel input result left []
  | failed {fut : F} {e : ε} {left : Decoder} (state : self.state = .processingService fut)
      (fails : input.service = .err e) : Ends build self channel input (.err (.service e)) left []
  | serviceAborted {fut : F} {result : Outcome (ConnectionError ε) (Option Unit)} {left : Decoder}
      (state : self.state = .processingService fut) (aborts : input.service = .panic ∨ input.service = .diverge) :
      Ends build self channel input result left []
  | closed {packet : ControlPacket} {found : OutboundChannel} {left : Decoder} {actions : List Action}
      (offers : .offered packet found ∈ actions) (gone : found.closed = true) :
      Ends build self channel input (.err (.text "Channel closed")) left actions
  | disconnects {res : Response} {p : Disconnect} {left : Decoder} {actions : List Action}
      (state : self.state = .writingPacket res) (member : .disconnect p ∈ res.packets) :
      Ends build self channel input (.ok (some ())) left actions

/-- A read that gives an error or panics; it does not run for ever. -/
theorem readPacket_readEnd {self next : Connection F CF} {read : SocketRead}
    {outcome : Outcome (ConnectionError ε) (Option ControlPacket)}
    (reads : self.readPacket build read = (outcome, next)) :
    (∃ ready, outcome = .ok ready) ∨
      (∃ e, outcome = .err e ∧ ReadEnd build self.decoder read (.err e) next.decoder) ∨
      (outcome = .panic ∧ ReadEnd (ε := ε) build self.decoder read .panic next.decoder) := by
  cases arrives : arrived read with
  | none =>
    cases read with
    | pending => cases arrives
    | failed =>
      cases reads
      exact .inr (.inl ⟨_, rfl, .io⟩)
    | ready bytes =>
      cases bytes with
      | cons first rest => cases arrives
      | nil =>
        cases reads
        exact .inr (.inl ⟨_, rfl, .eof⟩)
  | some bytes =>
    rw [readPacket_eq self arrives] at reads
    cases polled : (self.decoder.feed bytes).pollDecode build with
    | ok value =>
      rw [polled] at reads
      cases reads
      exact .inl ⟨_, rfl⟩
    | err e =>
      rw [polled] at reads
      cases reads
      exact .inr (.inl ⟨_, rfl, .refused arrives polled⟩)
    | panic =>
      rw [polled] at reads
      cases reads
      exact .inr (.inr ⟨rfl, .aborted arrives polled⟩)
    | diverge => exact absurd polled (Decoder.pollDecode_halts build _)

/-- A poll is pending, or it ends the connection in one of these ways. -/
theorem poll_ends (build : Build) (services : Services F CF) (self : Connection F CF) (channel : OutboundChannel)
    (input : PollInput ε) : (self.poll build services channel input).result = .ok none ∨
      Ends build self channel input (self.poll build services channel input).result
        (self.poll build services channel input).connection.decoder
        (self.poll build services channel input).actions := by
  cases phase : self.state with
  | preConnection =>
    unfold poll
    rw [phase]
    dsimp only
    split
    · exact .inl rfl
    · next packet next other read => exact .inr (.unexpected phase other)
    · exact .inl rfl
    · next e next read =>
      obtain ⟨_, wrong⟩ | ⟨_, same, ends⟩ | ⟨wrong, _⟩ := readPacket_readEnd read
      · cases wrong
      · cases same
        exact .inr (.reading (.inl phase) ends)
      · cases wrong
    · next next read =>
      obtain ⟨_, wrong⟩ | ⟨_, wrong, _⟩ | ⟨_, ends⟩ := readPacket_readEnd read
      · cases wrong
      · cases wrong
      · exact .inr (.reading (.inl phase) ends)
    · next next read =>
      obtain ⟨_, wrong⟩ | ⟨_, wrong, _⟩ | ⟨wrong, _⟩ := readPacket_readEnd read <;> cases wrong
  | readingPacket =>
    unfold poll
    rw [phase]
    dsimp only
    split
    · exact .inl rfl
    · exact .inl rfl
    · next e next read =>
      obtain ⟨_, wrong⟩ | ⟨_, same, ends⟩ | ⟨wrong, _⟩ := readPacket_readEnd read
      · cases wrong
      · cases same
        exact .inr (.reading (.inr phase) ends)
      · cases wrong
    · next next read =>
      obtain ⟨_, wrong⟩ | ⟨_, wrong, _⟩ | ⟨_, ends⟩ := readPacket_readEnd read
      · cases wrong
      · cases wrong
      · exact .inr (.reading (.inr phase) ends)
    · next next read =>
      obtain ⟨_, wrong⟩ | ⟨_, wrong, _⟩ | ⟨wrong, _⟩ := readPacket_readEnd read <;> cases wrong
  | processingConnect fut =>
    unfold poll
    rw [phase]
    dsimp only
    split
    · exact .inl rfl
    · exact .inl rfl
    · next e refuses => exact .inr (.refused phase refuses)
    · next aborts => exact .inr (.connectAborted phase (.inl aborts))
    · next aborts => exact .inr (.connectAborted phase (.inr aborts))
  | responseConnect res =>
    unfold poll
    rw [phase]
    dsimp only
    split
    · exact .inl rfl
    · exact .inl rfl
    · next refused => exact .inr (.closed (List.mem_singleton_self _) (Channel.closed_of_trySend refused))
  | processingService fut =>
    unfold poll
    rw [phase]
    dsimp only
    split
    · exact .inl rfl
    · exact .inl rfl
    · next e fails => exact .inr (.failed phase fails)
    · next aborts => exact .inr (.serviceAborted phase (.inl aborts))
    · next aborts => exact .inr (.serviceAborted phase (.inr aborts))
  | writingPacket res =>
    unfold poll
    rw [phase]
    dsimp only
    have closed := writePackets_closed input.others res.packets 0 channel
    have disconnect := writePackets_disconnect input.others res.packets 0 channel
    split
    · exact .inl rfl
    · next wrote =>
      rw [wrote] at disconnect
      obtain ⟨p, member⟩ := disconnect rfl
      exact .inr (.disconnects phase member)
    · next wrote =>
      rw [wrote] at closed
      obtain ⟨packet, found, offers, gone⟩ := closed rfl
      exact .inr (.closed offers gone)

end Connection

end Aqua
