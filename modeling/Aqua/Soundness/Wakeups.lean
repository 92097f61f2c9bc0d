import Aqua.Proofs.Wakers
import Aqua.Model.Server

/-! # No wake-up is lost

The other results let a connection be polled at any time. The runtime polls its task only when it was woken. Between
two wake-ups the task waits for something that has not happened yet, so these polls are all it needs: it gets into
the same states. And it is not woken for ever without need, but for one case: behind the first byte of a packet
it wakes itself until the second one arrives.
-/

namespace Aqua

open Wire Runtime

private theorem Socket.read_eq_pending_iff {self : Socket} {more : ℕ} :
    (self.read more).1 = .pending ↔ self = {} := by
  constructor
  · intro pending
    obtain ⟨arrived, ended⟩ := self
    cases arrived with
    | cons first rest => cases pending
    | nil =>
      cases ended with
      | none => rfl
      | some how => cases how <;> cases pending
  · rintro rfl
    rfl

/-- What is read is no longer there. -/
private theorem Socket.count_read (self : Socket) (more : ℕ) :
    (self.read more).1.count + (self.read more).2.arrived.length = self.arrived.length := by
  obtain ⟨arrived, ended⟩ := self
  cases arrived with
  | cons first rest =>
    simp only [read, SocketRead.count, List.length_cons, List.length_take, List.length_drop]
    omega
  | nil =>
    cases ended with
    | none => rfl
    | some how => cases how <;> rfl

namespace Connection

variable {F CF ε : Type} {build : Build} {services : Services F CF}

/-- Where no byte comes and the decoder cannot go on with those it has, a poll changes nothing. -/
private theorem Reads.poll_stalled {self : Connection F CF} {input : PollInput ε} (reads : self.Reads)
    (stalled : self.decoder.Stalled build) (pending : input.read = .pending) (services : Services F CF)
    (channel : OutboundChannel) : self.poll build services channel input = ⟨.ok none, self, channel, []⟩ ∧
      self.pollWakers build channel input = { used := self.decoder.wakes build, socket := true } := by
  have decoded : self.decoder.pollDecode build = .ok (none, self.decoder) := stalled
  have read (state : ConnectionState F CF) :
      readPacket (ε := ε) build { self with state } .pending = (.ok none, { self with state }) := by
    simp only [readPacket, decoded]
  unfold Connection.poll pollWakers
  obtain phase | phase := reads
  all_goals
    rw [phase, pending]
    simp only [read, with_state phase, readPacketWakers, and_self]

/-- A connection that waits is left as it is by a poll. -/
theorem Waits.poll {self : Connection F CF} {input : PollInput ε} {wakers : Wakers} (waits : self.Waits input wakers)
    (build : Build) (services : Services F CF) (channel : OutboundChannel) :
    self.poll build services channel input = ⟨.ok none, self, channel, []⟩ ∧
      self.pollWakers build channel input = wakers := by
  cases waits with
  | socket reads empty pending =>
    have stalled : self.decoder.Stalled build := Decoder.pollDecode_empty empty
    have polled := reads.poll_stalled stalled pending services channel
    rwa [Decoder.wakes_of_empty empty] at polled
  | connect state pending =>
    unfold Connection.poll pollWakers
    rw [state, pending]
    dsimp only
    rw [with_state state]
    exact ⟨rfl, rfl⟩
  | service state pending =>
    unfold Connection.poll pollWakers
    rw [state, pending]
    dsimp only
    rw [with_state state]
    exact ⟨rfl, rfl⟩

private theorem Reads.idle {self : Connection F CF} (reads : self.Reads) :
    (∀ fut, self.state ≠ .processingConnect fut) ∧ ∀ fut, self.state ≠ .processingService fut := by
  obtain phase | phase := reads <;> simp [phase]

/-- A read that fails ends the connection. -/
private theorem Reads.ends {self : Connection F CF} {channel : OutboundChannel} {input : PollInput ε}
    (reads : self.Reads) (ends : arrived input.read = none) :
    (self.poll build services channel input).result ≠ .ok none := by
  unfold Connection.poll
  obtain phase | phase := reads
  all_goals
    obtain ⟨error, read⟩ := readPacket_ends (ε := ε) build { self with state := .preConnection } ends
    rw [phase]
    dsimp only
    rw [read]
    exact fun wrong => by cases wrong

/-- A poll that is pending and has not woken the task waits for something. -/
private theorem poll_unused {self : Connection F CF} {channel : OutboundChannel} {input : PollInput ε}
    (unused : (self.pollWakers build channel input).used = false)
    (pending : (self.poll build services channel input).result = .ok none) :
    self.Waits input (self.pollWakers build channel input) ∧
      (self.poll build services channel input).connection = self := by
  have wakes := self.poll_wakes build services channel input
  generalize self.poll build services channel input = polled at wakes pending ⊢
  generalize self.pollWakers build channel input = wakers at wakes unused ⊢
  cases wakes with
  | ends ended => exact absurd pending ended
  | waits waits => exact ⟨waits, rfl⟩
  | spins reads single waiting => cases unused
  | works used less => cases used.symm.trans unused

end Connection

namespace Spawned

variable {ε F CF : Type} {build : Build} {services : Services F CF} {self next : Spawned ε F CF} {event : Event ε}

/-- What a poll of the task finds. -/
def input (self : Spawned ε F CF) (more : ℕ) (others : ℕ → List ChannelOp) : PollInput ε :=
  { read := (self.socket.read more).1, connect := self.connect, service := self.service, others }

/-- What the task waits for, with its waker there. -/
inductive Waits (self : Spawned ε F CF) : Prop
  | socket (reads : self.session.connection.Reads) (empty : self.session.connection.decoder.buf = [])
      (quiet : self.socket = {}) (kept : self.atSocket = true)
  | connect {fut : CF} (state : self.session.connection.state = .processingConnect fut)
      (pending : self.connect = .ok none) (kept : self.atFuture = true)
  | service {fut : F} (state : self.session.connection.state = .processingService fut)
      (pending : self.service = .ok none) (kept : self.atFuture = true)

/-- A task that is neither scheduled nor over waits for something. -/
def Rests (self : Spawned ε F CF) : Prop :=
  self.scheduled = false → self.session.result = .ok none → self.Waits

private theorem poll_session (goesOn : self.session.result = .ok none) (build : Build) (services : Services F CF)
    (channel : OutboundChannel) (more : ℕ) (others : ℕ → List ChannelOp) :
    let polled := self.session.connection.poll build services channel (self.input more others)
    (self.poll build services channel more others).session =
      { connection := polled.connection, trace := self.session.trace ++ polled.actions, result := polled.result } := by
  change self.session.poll build services _ = _
  unfold Session.poll
  rw [goesOn]
  rfl

private theorem rests_poll (goesOn : self.session.result = .ok none) (build : Build) (services : Services F CF)
    (channel : OutboundChannel) (more : ℕ) (others : ℕ → List ChannelOp) :
    (self.poll build services channel more others).Rests := by
  intro asleep pending
  have session := poll_session goesOn build services channel more others
  rw [session] at pending
  have unused : (self.session.connection.pollWakers build channel (self.input more others)).used = false := asleep
  obtain ⟨waits, same⟩ := Connection.poll_unused unused pending
  have kept : (self.poll build services channel more others).atSocket =
      (self.atSocket || (self.session.connection.pollWakers build channel (self.input more others)).socket) ∧
    (self.poll build services channel more others).atFuture =
      (self.atFuture || (self.session.connection.pollWakers build channel (self.input more others)).future) :=
  ⟨rfl, rfl⟩
  have same := (congrArg Session.connection session).trans same
  generalize self.session.connection.pollWakers build channel (self.input more others) = wakers at waits kept
  cases waits with
  | socket reads empty waiting =>
    have quiet := Socket.read_eq_pending_iff.mp waiting
    refine .socket (same ▸ reads) (same ▸ empty) ?_ (kept.1.trans (Bool.or_true _))
    unfold poll
    obtain phase | phase := reads <;> simp only [phase, quiet] <;> rfl
  | connect state waiting =>
    refine .connect (same ▸ state) ?_ (kept.2.trans (Bool.or_true _))
    unfold poll
    simp only [state]
  | service state waiting =>
    refine .service (same ▸ state) ?_ (kept.2.trans (Bool.or_true _))
    unfold poll
    simp only [state]

/-- Something has happened that a task might wait for. -/
theorem Rests.of_scheduled (scheduled : self.scheduled = true) : self.Rests :=
  fun asleep => by cases scheduled.symm.trans asleep

private theorem Step.rests (step : Step build services self event next) (rests : self.Rests) : next.Rests := by
  cases step with
  | arrive some_byte going =>
    intro asleep pending
    obtain ⟨asleep, unkept⟩ := Bool.or_eq_false_iff.mp asleep
    cases rests asleep pending with
    | socket reads empty quiet kept => cases unkept.symm.trans kept
    | connect state waiting kept => exact .connect state waiting kept
    | service state waiting kept => exact .service state waiting kept
  | ends how going =>
    intro asleep pending
    obtain ⟨asleep, unkept⟩ := Bool.or_eq_false_iff.mp asleep
    cases rests asleep pending with
    | socket reads empty quiet kept => cases unkept.symm.trans kept
    | connect state waiting kept => exact .connect state waiting kept
    | service state waiting kept => exact .service state waiting kept
  | connected called waiting outcome =>
    intro asleep pending
    obtain ⟨asleep, unkept⟩ := Bool.or_eq_false_iff.mp asleep
    cases rests asleep pending with
    | socket reads empty quiet kept => exact absurd called (by obtain phase | phase := reads <;> simp [phase])
    | connect state waiting kept => cases unkept.symm.trans kept
    | service state waiting kept => cases unkept.symm.trans kept
  | served called waiting outcome =>
    intro asleep pending
    obtain ⟨asleep, unkept⟩ := Bool.or_eq_false_iff.mp asleep
    cases rests asleep pending with
    | socket reads empty quiet kept => exact absurd called (by obtain phase | phase := reads <;> simp [phase])
    | connect state waiting kept => cases unkept.symm.trans kept
    | service state waiting kept => cases unkept.symm.trans kept
  | wake => exact .of_scheduled rfl
  | poll goesOn channel more others => exact rests_poll goesOn build services channel more others

/-- A task that waits is left as it is by a poll. -/
theorem Waits.poll (waits : self.Waits) (asleep : self.scheduled = false) (goesOn : self.session.result = .ok none)
    (build : Build) (services : Services F CF) (channel : OutboundChannel) (more : ℕ) (others : ℕ → List ChannelOp) :
    self.poll build services channel more others = self := by
  obtain ⟨session, scheduled, atSocket, atFuture, socket, connect, service⟩ := self
  obtain rfl : scheduled = false := asleep
  obtain ⟨connection, trace, result⟩ := session
  obtain rfl : result = .ok none := goesOn
  unfold Spawned.poll Session.poll
  cases waits with
  | socket reads empty quiet kept =>
    obtain rfl : socket = {} := quiet
    obtain rfl : atSocket = true := kept
    have found : Socket.read {} more = (.pending, {}) := rfl
    have waits : connection.Waits ({ read := .pending, connect, service, others } : PollInput ε) _ :=
      .socket reads empty rfl
    obtain ⟨polled, wakers⟩ := waits.poll build services channel
    simp only [found, polled, wakers, List.append_nil, Bool.or_false]
    have phase : connection.state = .preConnection ∨ connection.state = .readingPacket := reads
    obtain phase | phase := phase <;> simp only [phase] <;> rfl
  | connect state pending kept =>
    obtain rfl : connect = .ok none := pending
    obtain rfl : atFuture = true := kept
    have waits : connection.Waits ({ read := (socket.read more).1, service, others } : PollInput ε) _ :=
      .connect state rfl
    obtain ⟨polled, wakers⟩ := waits.poll build services channel
    have phase : connection.state = _ := state
    simp only [polled, wakers, List.append_nil, Bool.or_false, phase]
    rfl
  | service state pending kept =>
    obtain rfl : service = .ok none := pending
    obtain rfl : atFuture = true := kept
    have waits : connection.Waits ({ read := (socket.read more).1, connect, others } : PollInput ε) _ :=
      .service state rfl
    obtain ⟨polled, wakers⟩ := waits.poll build services channel
    have phase : connection.state = _ := state
    simp only [polled, wakers, List.append_nil, Bool.or_false, phase]
    rfl

/-- Without a wake-up a poll changes nothing. -/
private theorem Step.idle (step : Step build services self event next) (rests : self.Rests)
    (unwoken : ¬ self.Woken event) : next = self := by
  cases step with
  | poll goesOn channel more others =>
    have asleep : self.scheduled = false := Bool.not_eq_true _ ▸ unwoken
    exact (rests asleep goesOn).poll asleep goesOn build services channel more others
  | _ => exact absurd trivial unwoken

/-- A run with polls at any time is a run with the polls that follow a wake-up. -/
theorem driven {events : List (Event ε)} (rests : self.Rests) (run : Runs (Step build services) self events next) :
    ∃ kept : List (Event ε), kept.Sublist events ∧ Runs (Driven build services) self kept next :=
  run.guarded (fun _ _ _ rests step => step.rests rests) (fun _ _ _ rests step => step.idle rests) rests

/-- Nothing has happened that a poll has not taken note of. -/
structure Clean (task : Spawned ε F CF) : Prop where
  socket : task.socket = {}
  connect : task.connect = .ok none
  service : task.service = .ok none

/-- A run of the task up to a poll that finds `read` in the socket. -/
structure Offers (build : Build) (services : Services F CF) (task : Spawned ε F CF) (read : SocketRead)
    (events : List (Event ε)) (before : Spawned ε F CF) (more : ℕ) : Prop where
  run : Runs (Step build services) task events before
  needed : .wake ∉ events
  session : before.session = task.session
  connect : before.connect = task.connect
  service : before.service = task.service
  found : (before.socket.read more).1 = read
  rest : Connection.arrived read ≠ none → (before.socket.read more).2 = {}

/-- Whatever a socket gives can have happened to it. -/
private theorem Clean.offers (clean : self.Clean) (build : Build) (services : Services F CF) (read : SocketRead) :
    ∃ events before more, self.Offers build services read events before more := by
  have going : self.socket.ended = none := by rw [clean.socket]
  cases read with
  | pending =>
    exact ⟨[], self, 0, .nil, List.not_mem_nil, rfl, rfl, rfl, by rw [clean.socket]; rfl,
      fun _ => by rw [clean.socket]; rfl⟩
  | failed =>
    have run := Runs.nil.snoc (@Step.ends _ _ _ build services self .failed going)
    exact ⟨_, _, 0, run, by simp, rfl, rfl, rfl, by simp only [wakeSocket, clean.socket]; rfl,
      fun wrong => absurd rfl wrong⟩
  | ready bytes =>
    cases bytes with
    | nil =>
      have run := Runs.nil.snoc (@Step.ends _ _ _ build services self .closed going)
      exact ⟨_, _, 0, run, by simp, rfl, rfl, rfl, by simp only [wakeSocket, clean.socket]; rfl,
        fun wrong => absurd rfl wrong⟩
    | cons first rest =>
      have some_byte := List.cons_ne_nil first rest
      have run := Runs.nil.snoc (@Step.arrive _ _ _ build services self _ some_byte going)
      refine ⟨_, _, rest.length, run, by simp, rfl, rfl, rfl, ?_, fun _ => ?_⟩
      · simp only [wakeSocket, clean.socket, List.nil_append, Socket.read, List.take_length]
      · simp only [wakeSocket, clean.socket, List.nil_append, Socket.read, List.drop_length]

variable {channel : OutboundChannel} {input : PollInput ε}

/-- A bound on the polls in which the task gets something done with what is there. -/
def work (self : Spawned ε F CF) : ℕ :=
  match self.session.result with
  | .ok none =>
      4 * self.socket.arrived.length + self.session.connection.potential + self.scheduled.toNat
  | _ => 0

/-- The task wakes itself with nothing to do: there is one byte of a fixed header, and no other has arrived. -/
structure Spins (task : Spawned ε F CF) : Prop where
  scheduled : task.scheduled = true
  goesOn : task.session.result = .ok none
  reads : task.session.connection.Reads
  single : task.session.connection.decoder.Single
  quiet : task.socket = {}

def Event.IsPoll : Event ε → Prop
  | .poll _ _ _ => True
  | _ => False

/-- The bytes a poll takes are no longer in the socket. -/
private theorem poll_socket (build : Build) (services : Services F CF) (self : Spawned ε F CF)
    (channel : OutboundChannel) (more : ℕ) (others : ℕ → List ChannelOp) :
    self.session.connection.taken (self.input more others).read +
      (self.poll build services channel more others).socket.arrived.length = self.socket.arrived.length := by
  have count := self.socket.count_read more
  unfold poll Connection.taken
  cases phase : self.session.connection.state with
  | preConnection =>
    simp only [phase]
    exact count
  | readingPacket =>
    simp only [phase]
    exact count
  | _ => simp only [phase, Nat.zero_add]

/-- A task that spins goes on doing so, with the connection left as it is. -/
theorem Spins.poll (spins : self.Spins) (build : Build) (services : Services F CF) (channel : OutboundChannel)
    (more : ℕ) (others : ℕ → List ChannelOp) : (self.poll build services channel more others).Spins ∧
      (self.poll build services channel more others).session = self.session := by
  obtain ⟨woken, goesOn, reads, single, quiet⟩ := spins
  have stalled : self.session.connection.decoder.Stalled build :=
    Decoder.stalled_iff.mpr (.inr ⟨single.1, by have := single.2; omega⟩)
  have pending : (self.input more others).read = .pending := Socket.read_eq_pending_iff.mpr quiet
  obtain ⟨polled, wakers⟩ := reads.poll_stalled stalled pending services channel
  have nonempty : self.session.connection.decoder.buf ≠ [] := List.ne_nil_of_length_pos (by have := single.2; omega)
  have same : (self.poll build services channel more others).session = self.session := by
    rw [poll_session goesOn build services channel more others, polled, List.append_nil, ← goesOn]
  refine ⟨⟨?_, same ▸ goesOn, same ▸ reads, same ▸ single, ?_⟩, same⟩
  · exact (congrArg Wakers.used wakers).trans (Decoder.wakes_pending nonempty stalled)
  · unfold Spawned.poll
    obtain phase | phase := reads <;> simp only [phase, quiet] <;> rfl

/-- A poll behind a wake-up gets something done, or the task spins. -/
theorem work_poll (woken : self.scheduled = true) (goesOn : self.session.result = .ok none)
    (build : Build) (services : Services F CF) (channel : OutboundChannel) (more : ℕ)
    (others : ℕ → List ChannelOp) :
    (self.poll build services channel more others).work + 1 ≤ self.work ∨ self.Spins := by
  have left := self.poll_socket build services channel more others
  have before : self.work = 4 * self.socket.arrived.length + self.session.connection.potential + 1 := by
    rw [work, goesOn, woken]
    rfl
  have scheduled : (self.poll build services channel more others).scheduled =
      (self.session.connection.pollWakers build channel (self.input more others)).used := rfl
  have session := poll_session goesOn build services channel more others
  generalize polled : self.poll build services channel more others = next at *
  have wakes := self.session.connection.poll_wakes build services channel (self.input more others)
  generalize self.session.connection.poll build services channel (self.input more others) = returned at wakes session
  generalize self.session.connection.pollWakers build channel (self.input more others) = wakers at wakes scheduled
  dsimp only at session
  by_cases pending : returned.result = .ok none
  · have after : next.work =
        4 * next.socket.arrived.length + returned.connection.potential + wakers.used.toNat := by
      rw [work, session, scheduled, pending]
    cases wakes with
    | ends ended => exact absurd pending ended
    | waits waits =>
      left
      have unused : wakers.used = false := by cases waits <;> rfl
      rw [after, unused, Bool.toNat_false, before]
      dsimp only
      omega
    | spins reads single waiting =>
      right
      exact ⟨woken, goesOn, reads, single, Socket.read_eq_pending_iff.mp waiting⟩
    | works used less =>
      left
      rw [after, used, Bool.toNat_true, before]
      omega
  · -- the future has returned
    left
    have none_left : next.work = 0 := by
      rw [work, session]
      split
      · next goes_on => exact absurd goes_on pending
      · rfl
    omega

/-- The rule for runs of polls. -/
theorem polls_work {events : List (Event ε)} (run : Runs (Driven build services) self events next)
    (alone : ∀ event ∈ events, event.IsPoll) :
    events.length + next.work ≤ self.work ∨ next.Spins := by
  induction run with
  | nil => exact .inl (Nat.zero_add _).le
  | @snoc events event before next _ step ih =>
    have earlier := ih fun event member => alone event (List.mem_append_left _ member)
    have last := alone event (List.mem_append_right _ (List.mem_singleton_self event))
    obtain ⟨step, woken⟩ := step
    rw [List.length_append, List.length_singleton]
    cases step with
    | poll goesOn channel more others =>
      obtain bound | spins := earlier
      · obtain less | spins := work_poll woken goesOn build services channel more others
        · exact .inl (by omega)
        · exact .inr (spins.poll build services channel more others).1
      · exact .inr (spins.poll build services channel more others).1
    | _ => exact absurd last id

end Spawned

/-- A task that is neither scheduled nor over waits for something that has not happened: for bytes, with nothing left
in the decoder or the socket, or for the result of a future. Its waker is there, and a poll would change nothing. -/
theorem sleeping_task {ε F CF : Type} {build : Build} {services : Services F CF} {clientId : Uuid}
    {events : List (Spawned.Event ε)} {task : Spawned ε F CF}
    (run : Runs (Spawned.Step build services) (.new clientId) events task) (asleep : task.scheduled = false)
    (goesOn : task.session.result = .ok none) :
    task.Waits ∧ ∀ channel more others, task.poll build services channel more others = task := by
  have rests := run.invariant (fun _ _ _ rests step => Spawned.Step.rests step rests) (.of_scheduled rfl)
  have waits := rests asleep goesOn
  exact ⟨waits, fun channel more others => waits.poll asleep goesOn build services channel more others⟩

/-- A new connection to which nothing was sent, behind its first poll. -/
def Spawned.silent : Spawned MqttError ControlPacket ControlPacket :=
  (Spawned.new ⟨0⟩).poll ⟨false⟩ Server.services {} 0 fun _ => []

theorem sleeping_task_silent : Spawned.silent.Waits ∧ ∀ channel more others,
    Spawned.silent.poll ⟨false⟩ Server.services channel more others = Spawned.silent :=
  sleeping_task (Runs.nil.snoc (.poll rfl {} 0 fun _ => [])) rfl rfl

/-- Polls alone come to an end with the work that is there, unless the task spins; and then they change nothing, for
ever. -/
theorem polls_settle {ε F CF : Type} (build : Build) (services : Services F CF) (task : Spawned ε F CF) :
    (∀ events final, Runs (Spawned.Driven build services) task events final → (∀ event ∈ events, event.IsPoll) →
      events.length ≤ task.work ∨ final.Spins) ∧
    (task.Spins → ∀ channel more others, (task.poll build services channel more others).Spins ∧
      (task.poll build services channel more others).session = task.session) := by
  constructor
  · intro events final run alone
    obtain bound | spins := Spawned.polls_work run alone
    · exact .inl (by omega)
    · exact .inr spins
  · intro spins channel more others
    exact spins.poll build services channel more others

namespace Spawned

def pollNow (self : Spawned MqttError ControlPacket ControlPacket) : Spawned MqttError ControlPacket ControlPacket :=
  self.poll ⟨false⟩ Server.services {} 16 fun _ => []

private theorem pollNow_driven {self : Spawned MqttError ControlPacket ControlPacket}
    (goesOn : self.session.result = .ok none) (woken : self.scheduled = true) :
    Driven ⟨false⟩ Server.services self (.poll {} 16 fun _ => []) self.pollNow :=
  ⟨.poll goesOn {} 16 fun _ => [], woken⟩

/-- A CONNECT has arrived. -/
def connecting : Spawned MqttError ControlPacket ControlPacket :=
  { new ⟨0⟩ with socket := { arrived :=
    [0x10, 0x0D, 0x00, 0x04, 0x4D, 0x51, 0x54, 0x54, 0x04, 0x02, 0x00, 0x3C, 0x00, 0x01, 0x61] } }

/-- It is decoded in three polls, and the fourth waits for the connect service. -/
private theorem connecting_polled : Runs (Driven ⟨false⟩ Server.services) connecting
    [.poll {} 16 fun _ => [], .poll {} 16 fun _ => [], .poll {} 16 fun _ => [], .poll {} 16 fun _ => []]
    connecting.pollNow.pollNow.pollNow.pollNow :=
  (((Runs.nil.snoc (pollNow_driven rfl rfl)).snoc (pollNow_driven rfl rfl)).snoc (pollNow_driven rfl rfl)).snoc
    (pollNow_driven rfl rfl)

/-- The first byte of a CONNECT has arrived, and was read. -/
def begun : Spawned MqttError ControlPacket ControlPacket :=
  ({ new ⟨0⟩ with socket := { arrived := [0x10] } } : Spawned _ _ _).pollNow

end Spawned

/-- One task settles; the other one spins from its first poll on. -/
theorem polls_settle_begun :
    (4 ≤ Spawned.connecting.work ∨ Spawned.connecting.pollNow.pollNow.pollNow.pollNow.Spins) ∧
      ∀ channel more others,
        (Spawned.begun.poll ⟨false⟩ Server.services channel more others).Spins ∧
        (Spawned.begun.poll ⟨false⟩ Server.services channel more others).session = Spawned.begun.session := by
  constructor
  · refine (polls_settle ⟨false⟩ Server.services Spawned.connecting).1 _ _ Spawned.connecting_polled ?_
    simp [Spawned.Event.IsPoll]
  · exact (polls_settle ⟨false⟩ Server.services Spawned.begun).2 ⟨rfl, rfl, .inl rfl, ⟨rfl, rfl⟩, rfl⟩

end Aqua
