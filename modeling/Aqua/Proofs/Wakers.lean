import Aqua.Model.Wakers
import Aqua.Proofs.ConnectionPoll
import Aqua.Proofs.Layout

/-! # What a poll leaves to do

A poll of a connection ends it, leaves it waiting with the waker at what it waits for, or wakes the task. A poll
that wakes the task has used up some of what there is to do, unless a single byte of a fixed header is there:
then it has changed nothing.
-/

namespace Aqua

open Wire Runtime

namespace Decoder

variable {build : Build} {d next : Decoder} {ready : Option ControlPacket}

/-- The polls up to the end of the packet, and those that deal with it. -/
def stage : DecoderState → ℕ
  | .done => 0
  | .variableHeaderDecoded => 3
  | .fixedHeaderDecoded => 4

/-- A bound on the polls that a decoder can get something done in: a packet takes two bytes at least. -/
def potential (d : Decoder) : ℕ := 3 * d.buf.length + stage d.state

/-- A single byte, of the fixed header of the next packet. -/
def Single (d : Decoder) : Prop := d.state = .done ∧ d.buf.length = 1

theorem potential_feed (d : Decoder) (bytes : Bytes) :
    (d.feed bytes).potential = d.potential + 3 * bytes.length := by
  rw [potential, potential, feed, List.length_append]
  dsimp only
  omega

theorem wakes_pending (nonempty : d.buf ≠ []) (polled : d.pollDecode build = .ok (none, next)) :
    d.wakes build = true := by
  unfold wakes
  rw [if_neg nonempty]
  simp only [polled]

theorem wakes_of_empty (empty : d.buf = []) : d.wakes build = false := if_pos empty

/-- A packet pays for the two polls that answer it. -/
theorem potential_ready {packet : ControlPacket} (polled : d.pollDecode build = .ok (some packet, next)) :
    next.potential + 3 ≤ d.potential := by
  have moves : ¬ d.Stalled build := fun stalled => by cases polled.symm.trans stalled
  obtain ⟨count, within, left, -⟩ := pollDecode_takes polled moves
  have length := congrArg List.length left
  rw [List.length_drop] at length
  have stages : stage next.state + 3 ≤ stage d.state := by
    cases pollDecode_eq_ok_iff.mp polled with
    | whole state =>
      rw [state]
      exact Nat.le_succ 3
    | payload state =>
      rw [state]
      exact Nat.le_refl 3
  rw [potential, potential]
  omega

/-- A pending poll gets something done, or it waits for bytes. -/
theorem potential_pending (polled : d.pollDecode build = .ok (none, next)) :
    next = d ∧ (d.buf = [] ∨ d.Single) ∨ d.buf ≠ [] ∧ next.potential + 1 ≤ d.potential := by
  by_cases stalled : d.Stalled build
  · have same : next = d := by cases polled.symm.trans stalled; rfl
    refine .inl ⟨same, ?_⟩
    by_cases empty : d.buf = []
    · exact .inl empty
    · obtain gone | ⟨done, short⟩ := stalled_iff.mp stalled
      · exact absurd gone empty
      · have := List.length_pos_of_ne_nil empty
        exact .inr ⟨done, by omega⟩
  · obtain ⟨count, within, left, -⟩ := pollDecode_takes polled stalled
    have length := congrArg List.length left
    rw [List.length_drop] at length
    refine .inr ⟨(not_stalled_iff.mp stalled).1, ?_⟩
    cases pollDecode_eq_ok_iff.mp polled with
    | empty empty => exact absurd (pollDecode_empty empty) stalled
    | short done nonempty short => exact absurd polled stalled
    | @fixedHeader packet remainingLength size done long header =>
      obtain ⟨_, _, _, announced⟩ := decodeFixedHeader_eq_ok_iff.mp header
      have two := (decodeVariableLength_progresses announced).1
      have dropped : (d.afterFixedHeader packet remainingLength (d.buf.drop size)).buf.length =
          d.buf.length - size := List.length_drop ..
      have after : stage (d.afterFixedHeader packet remainingLength (d.buf.drop size)).state = 4 := rfl
      rw [potential, potential, done]
      have before : stage .done = 0 := rfl
      omega
    | @partly packet size state nonempty header open_ =>
      have after : stage (d.afterVariableHeader packet (d.remainLengthCounter + size)
        (d.buf.drop size)).state = 3 := rfl
      have before : stage .fixedHeaderDecoded = 4 := rfl
      rw [potential, potential, state]
      omega

end Decoder

def SocketRead.count : SocketRead → ℕ
  | .ready bytes => bytes.length
  | .failed => 0
  | .pending => 0

namespace Connection

variable {F CF ε : Type} {build : Build} {services : Services F CF}

/-- The polls up to the next read. -/
def phase : ConnectionState F CF → ℕ
  | .preConnection => 0
  | .readingPacket => 0
  | .responseConnect _ => 1
  | .writingPacket _ => 1
  | .processingConnect _ => 2
  | .processingService _ => 2

def potential (self : Connection F CF) : ℕ := self.decoder.potential + phase self.state

/-- The bytes that a poll takes from the socket. -/
def taken (self : Connection F CF) (read : SocketRead) : ℕ :=
  match self.state with
  | .preConnection => read.count
  | .readingPacket => read.count
  | _ => 0

theorem Reads.taken {self : Connection F CF} (reads : self.Reads) (read : SocketRead) :
    self.taken read = read.count := by
  obtain phase | phase := reads <;> rw [Connection.taken, phase]

/-- What a connection waits for when its poll has not woken the task. -/
inductive Waits (self : Connection F CF) (input : PollInput ε) : Wakers → Prop
  | socket (reads : self.Reads) (empty : self.decoder.buf = []) (pending : input.read = .pending) :
      Waits self input { socket := true }
  | connect {fut : CF} (state : self.state = .processingConnect fut) (pending : input.connect = .ok none) :
      Waits self input { future := true }
  | service {fut : F} (state : self.state = .processingService fut) (pending : input.service = .ok none) :
      Waits self input { future := true }

/-- A poll, with what it does with the waker. -/
inductive Wakes (self : Connection F CF) (input : PollInput ε) : Polled ε F CF → Wakers → Prop
  | ends {polled : Polled ε F CF} {wakers : Wakers} (ended : polled.result ≠ .ok none) :
      Wakes self input polled wakers
  | waits {channel : OutboundChannel} {wakers : Wakers} (waits : self.Waits input wakers) :
      Wakes self input ⟨.ok none, self, channel, []⟩ wakers
  | spins {channel : OutboundChannel} (reads : self.Reads) (single : self.decoder.Single)
      (pending : input.read = .pending) :
      Wakes self input ⟨.ok none, self, channel, []⟩ { used := true, socket := true }
  | works {polled : Polled ε F CF} {wakers : Wakers} (used : wakers.used = true)
      (less : polled.connection.potential + 1 ≤ self.potential + 4 * self.taken input.read) :
      Wakes self input polled wakers

/-- Where a read does not end the connection, the waker is left as the decoder leaves it, or also with the socket. -/
theorem readPacketWakers_eq (build : Build) (self : Connection F CF) {read : SocketRead} {bytes : Bytes}
    (arrives : arrived read = some bytes) :
    bytes.length = read.count ∧ (self.readPacketWakers build read).used = (self.decoder.feed bytes).wakes build ∧
      (bytes = [] → read = .pending ∧ (self.readPacketWakers build read).socket = true) := by
  cases read with
  | ready received =>
    cases received with
    | nil => cases arrives
    | cons first rest =>
      cases arrives
      exact ⟨rfl, rfl, fun wrong => by cases wrong⟩
  | failed => cases arrives
  | pending =>
    cases arrives
    have same : self.decoder.feed [] = self.decoder := by
      simp only [Decoder.feed, List.append_nil]
    exact ⟨rfl, congrArg (Decoder.wakes build) same.symm, fun _ => ⟨rfl, rfl⟩⟩

/-- A read without a packet gets something done, or the connection waits for bytes. -/
theorem readPacket_pending {self next : Connection F CF} {read : SocketRead}
    (reads : (self.readPacket build read : Outcome (ConnectionError ε) _ × _) = (.ok none, next)) :
    next = self ∧ read = .pending ∧ self.decoder.buf = [] ∧
        self.readPacketWakers build read = { socket := true } ∨
      next = self ∧ read = .pending ∧ self.decoder.Single ∧
        self.readPacketWakers build read = { used := true, socket := true } ∨
      (self.readPacketWakers build read).used = true ∧ next.state = self.state ∧
        next.decoder.potential + 1 ≤ self.decoder.potential + 4 * read.count := by
  cases arrives : arrived read with
  | none =>
    obtain ⟨error, ended⟩ := readPacket_ends (ε := ε) build self arrives
    cases reads.symm.trans ended
  | some bytes =>
    obtain ⟨count, used, nothing⟩ := self.readPacketWakers_eq build arrives
    rw [readPacket_eq self arrives] at reads
    cases polled : (self.decoder.feed bytes).pollDecode build with
    | ok value =>
      obtain ⟨ready, decoder⟩ := value
      rw [polled] at reads
      cases reads
      rw [← count]
      obtain ⟨rfl, idle⟩ | ⟨nonempty, less⟩ := Decoder.potential_pending polled
      · by_cases none_arrived : bytes = []
        · subst none_arrived
          obtain ⟨rfl, _⟩ := nothing rfl
          have same : self.decoder.feed [] = self.decoder := by
            simp only [Decoder.feed, List.append_nil]
          rw [same] at idle polled ⊢
          obtain empty | single := idle
          · refine .inl ⟨rfl, rfl, empty, ?_⟩
            rw [readPacketWakers, Decoder.wakes_of_empty empty]
          · refine .inr (.inl ⟨rfl, rfl, single, ?_⟩)
            have nonempty : self.decoder.buf ≠ [] := List.ne_nil_of_length_pos (by have := single.2; omega)
            rw [readPacketWakers, Decoder.wakes_pending nonempty polled]
        · -- the first byte of the next packet
          have nonempty : (self.decoder.feed bytes).buf ≠ [] := by
            simp only [Decoder.feed, ne_eq, List.append_eq_nil_iff, none_arrived, and_false, not_false_eq_true]
          have some_byte := List.length_pos_of_ne_nil none_arrived
          refine .inr (.inr ⟨used.trans (Decoder.wakes_pending nonempty polled), rfl, ?_⟩)
          rw [Decoder.potential_feed]
          omega
      · refine .inr (.inr ⟨used.trans (Decoder.wakes_pending nonempty polled), rfl, ?_⟩)
        rw [Decoder.potential_feed] at less
        dsimp only
        omega
    | err e => rw [polled] at reads; cases reads
    | panic => rw [polled] at reads; cases reads
    | diverge => rw [polled] at reads; cases reads

/-- A packet pays for the two polls that answer it. -/
theorem readPacket_packet {self next : Connection F CF} {read : SocketRead} {packet : ControlPacket}
    (reads : (self.readPacket build read : Outcome (ConnectionError ε) _ × _) = (.ok (some packet), next)) :
    next.decoder.potential + 3 ≤ self.decoder.potential + 4 * read.count := by
  cases arrives : arrived read with
  | none =>
    obtain ⟨error, ended⟩ := readPacket_ends (ε := ε) build self arrives
    cases reads.symm.trans ended
  | some bytes =>
    have count := (self.readPacketWakers_eq build arrives).1
    rw [readPacket_eq self arrives] at reads
    cases polled : (self.decoder.feed bytes).pollDecode build with
    | ok value =>
      obtain ⟨ready, decoder⟩ := value
      rw [polled] at reads
      cases reads
      have less := Decoder.potential_ready polled
      rw [Decoder.potential_feed] at less
      dsimp only
      omega
    | err e => rw [polled] at reads; cases reads
    | panic => rw [polled] at reads; cases reads
    | diverge => rw [polled] at reads; cases reads

/-- A poll that reads and gets no packet. -/
theorem Reads.wakes {self next : Connection F CF} {channel : OutboundChannel} {input : PollInput ε}
    (reads : self.Reads)
    (read : (self.readPacket build input.read : Outcome (ConnectionError ε) _ × _) = (.ok none, next)) :
    self.Wakes input ⟨.ok none, next, channel, []⟩ (self.readPacketWakers build input.read) := by
  obtain ⟨rfl, pending, empty, wakers⟩ | ⟨rfl, pending, single, wakers⟩ | ⟨used, state, less⟩ := readPacket_pending read
  · exact wakers ▸ .waits (.socket reads empty pending)
  · exact wakers ▸ .spins reads single pending
  · refine .works used ?_
    rw [reads.taken, potential, potential, state]
    dsimp only
    omega

/-- A poll that goes on to a state nearer to the next read. -/
theorem Wakes.moves {self : Connection F CF} {state : ConnectionState F CF} {channel : OutboundChannel}
    {input : PollInput ε} {actions : List Action} {wakers : Wakers} (used : wakers.used = true)
    (nearer : phase state + 1 ≤ phase self.state) :
    self.Wakes input ⟨.ok none, { self with state }, channel, actions⟩ wakers := by
  refine .works used ?_
  rw [potential, potential]
  dsimp only
  omega

theorem with_state {self : Connection F CF} {state : ConnectionState F CF} (same : self.state = state) :
    { self with state } = self := by rw [← same]

/-- A read does not look at the state. -/
theorem readPacket_with_state (build : Build) (self : Connection F CF) (state : ConnectionState F CF)
    (read : SocketRead) : readPacket (ε := ε) build { self with state } read =
      ((self.readPacket (ε := ε) build read).1, { (self.readPacket (ε := ε) build read).2 with state }) := by
  cases arrives : arrived read with
  | none =>
    cases read with
    | ready received =>
      cases received with
      | nil => rfl
      | cons first rest => cases arrives
    | failed => rfl
    | pending => cases arrives
  | some bytes =>
    rw [readPacket_eq self arrives, readPacket_eq { self with state } arrives]
    dsimp only
    cases (self.decoder.feed bytes).pollDecode build <;> rfl

/-- A request pays for its answer. -/
theorem Wakes.packet {self next connection : Connection F CF} {channel : OutboundChannel} {input : PollInput ε}
    {packet : ControlPacket} {actions : List Action} {wakers : Wakers} (used : wakers.used = true)
    (reads : self.Reads)
    (read : (self.readPacket build input.read : Outcome (ConnectionError ε) _ × _) = (.ok (some packet), next))
    (after : connection.potential = next.decoder.potential + 2) :
    self.Wakes input ⟨.ok none, connection, channel, actions⟩ wakers := by
  have less := readPacket_packet read
  have before : self.decoder.potential ≤ self.potential := Nat.le_add_right _ _
  refine .works used ?_
  rw [reads.taken, after]
  omega

/-- Every poll is one of them. -/
theorem poll_wakes (build : Build) (services : Services F CF) (self : Connection F CF) (channel : OutboundChannel)
    (input : PollInput ε) :
    self.Wakes input (self.poll build services channel input) (self.pollWakers build channel input) := by
  unfold poll pollWakers
  cases phase : self.state with
  | preConnection =>
    dsimp only
    rw [with_state phase]
    split
    · next first next read => exact .packet (by simp only [read]) (.inl phase) read rfl
    · next packet next other read => exact .ends fun wrong => by cases wrong
    · next next read =>
      rw [with_state ((readPacket_state read).trans phase)]
      simp only [read]
      exact Reads.wakes (.inl phase) read
    · next e next read => exact .ends fun wrong => by cases wrong
    · next next read => exact .ends fun wrong => by cases wrong
    · next next read => exact .ends fun wrong => by cases wrong
  | processingConnect fut =>
    dsimp only
    split
    · next res resolved => exact .moves (by rw [resolved]; rfl) (by rw [phase]; exact Nat.le_refl 2)
    · next pending =>
      rw [with_state phase, pending]
      exact .waits (.connect phase pending)
    · next e failed => exact .ends fun wrong => by cases wrong
    · next failed => exact .ends fun wrong => by cases wrong
    · next failed => exact .ends fun wrong => by cases wrong
  | responseConnect res =>
    dsimp only
    cases channel.trySend (.connack res.toConnack) with
    | ok next => exact .moves rfl (by rw [phase]; exact Nat.le_refl 1)
    | error refused =>
      cases refused with
      | full message => exact .moves rfl (by rw [phase]; exact Nat.le_refl 1)
      | closed message => exact .ends fun wrong => by cases wrong
  | readingPacket =>
    dsimp only
    rw [readPacket_with_state]
    split
    · next request next read =>
      obtain ⟨outcome, rfl⟩ := Prod.mk.inj read
      rw [outcome]
      exact .packet rfl (.inr phase) (Prod.ext outcome rfl) rfl
    · next next read =>
      obtain ⟨outcome, rfl⟩ := Prod.mk.inj read
      have read : self.readPacket build input.read = (.ok none, (self.readPacket (ε := ε) build input.read).2) :=
        Prod.ext outcome rfl
      dsimp only
      rw [outcome, with_state ((readPacket_state read).trans phase)]
      exact Reads.wakes (.inr phase) read
    · next e next read => exact .ends fun wrong => by cases wrong
    · next next read => exact .ends fun wrong => by cases wrong
    · next next read => exact .ends fun wrong => by cases wrong
  | processingService fut =>
    dsimp only
    split
    · next res resolved => exact .moves (by rw [resolved]; rfl) (by rw [phase]; exact Nat.le_refl 2)
    · next pending =>
      rw [with_state phase, pending]
      exact .waits (.service phase pending)
    · next e failed => exact .ends fun wrong => by cases wrong
    · next failed => exact .ends fun wrong => by cases wrong
    · next failed => exact .ends fun wrong => by cases wrong
  | writingPacket res =>
    dsimp only
    cases writePackets input.others 0 res.packets channel with
    | mk written rest =>
      cases written with
      | done => exact .moves rfl (by rw [phase]; exact Nat.le_refl 1)
      | disconnect => exact .ends fun wrong => by cases wrong
      | closed => exact .ends fun wrong => by cases wrong

end Connection

end Aqua
