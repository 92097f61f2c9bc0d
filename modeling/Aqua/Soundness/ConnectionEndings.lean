import Aqua.Proofs.Clients
import Aqua.Proofs.Endings
import Aqua.Proofs.PoolVersions

/-! # How the connections of the broker end

The services assert what the decoder and the connect service have seen to: a message of QoS 1 or 2 has its
identifier, and a version is stored for the client. So no handler panics, and a connection is over for one of
five reasons, which are told by what it has done. None of them is a request to end it.
-/

namespace Aqua

open Wire Runtime

namespace Broker

variable {self : Broker} {mqttId : String} {packet : ControlPacket}

/-- A service fails on a second CONNECT, or on a message of QoS 1 without an identifier. -/
private theorem handle_err {e : MqttError} (fails : (self.handle mqttId packet).1 = .err e) :
    (∃ p, packet = .connect p ∧ e = .protocolViolation) ∨
      ∃ p, packet = .publish p ∧ p.qos = .qos1 ∧ p.packetId = none := by
  cases packet with
  | connect p =>
    cases fails
    exact .inl ⟨p, rfl, rfl⟩
  | publish p =>
    simp only [handle, onPublish] at fails
    split at fails
    · cases fails
    · next none qos1 => exact .inr ⟨p, rfl, qos1, none⟩
    · cases fails
    · split at fails <;> cases fails
  | subscribe p =>
    simp only [handle, onSubscribe] at fails
    split at fails <;> cases fails
  | _ => cases fails

/-- A service panics on a message of QoS 2 without an identifier, or on a SUBSCRIBE of a client for which no
version is stored. -/
private theorem handle_panic (panics : (self.handle mqttId packet).1 = .panic) :
    (∃ p, packet = .publish p ∧ p.qos = .qos2 ∧ p.packetId = none) ∨
      self.session.getProtocolVersion mqttId = none := by
  cases packet with
  | publish p =>
    simp only [handle, onPublish] at panics
    split at panics
    · next none qos2 => exact .inl ⟨p, rfl, qos2, none⟩
    · cases panics
    · cases panics
    · split at panics <;> cases panics
  | subscribe p =>
    simp only [handle, onSubscribe] at panics
    split at panics
    · cases panics
    · next none => exact .inr none
  | _ => cases panics

private theorem handle_halts (self : Broker) (mqttId : String) (packet : ControlPacket) :
    (self.handle mqttId packet).1 ≠ .diverge := by
  intro stuck
  cases packet with
  | publish p =>
    simp only [handle, onPublish] at stuck
    split at stuck
    · cases stuck
    · cases stuck
    · cases stuck
    · split at stuck <;> cases stuck
  | subscribe p =>
    simp only [handle, onSubscribe] at stuck
    split at stuck <;> cases stuck
  | _ => cases stuck

private theorem onConnect_error {clientId : Uuid} {first : Connect} {e : ConnackError}
    (refuses : (self.onConnect clientId mqttId (.connect first)).1 = .error e) :
    acceptsLevel first.protocolName.value first.protocolVer.value = false ∧ e = ⟨.protocolError⟩ := by
  simp only [onConnect] at refuses
  split at refuses
  · cases refuses
  · next level =>
    cases refuses
    exact ⟨Bool.eq_false_iff.mpr level, rfl⟩

/-- No answer has a DISCONNECT. -/
private theorem handle_stays {res : Response} (answers : (self.handle mqttId packet).1 = .ok res) (p : Disconnect) :
    .disconnect p ∉ res.packets := by
  have single : ∀ {other : ControlPacket}, .ok (Response.new other) = (.ok res : Result Response) →
      other ≠ .disconnect p → .disconnect p ∉ res.packets := by
    intro other same not_disconnect member
    cases same
    exact not_disconnect (List.mem_singleton.mp member).symm
  cases packet with
  | connect q => cases answers
  | publish q =>
    simp only [handle, onPublish] at answers
    split at answers
    · cases answers
    · cases answers
    · exact single answers fun wrong => by cases wrong
    · split at answers <;> exact single answers fun wrong => by cases wrong
  | subscribe q =>
    simp only [handle, onSubscribe] at answers
    split at answers
    · cases answers
      simp
    · cases answers
  | _ => exact single answers fun wrong => by cases wrong

end Broker

namespace Server

variable {self : Server} {client : Client} {clientId : Uuid} {read : SocketRead} {ready : Bool}

/-- A future of the connect service gives what its handler returned. -/
private theorem resolve_connect_cases (self : Server) (client : Client) (clientId : Uuid)
    (read : SocketRead) (ready : Bool) :
    (∃ res, (self.resolve client clientId read ready).1.connect = .ok res) ∨
      ∃ req e, client.session.connection.state = .processingConnect req ∧
        (self.resolve client clientId read ready).1.connect = .err e ∧
        (self.broker.onConnect clientId client.mqttId req).1 = .error e := by
  unfold resolve
  split
  · next req phase =>
    split
    · exact .inl ⟨_, rfl⟩
    · next e broker mqttId refuses => exact .inr ⟨req, e, phase, rfl, congrArg Prod.fst refuses⟩
  · exact .inl ⟨_, rfl⟩
  · exact .inl ⟨_, rfl⟩

private theorem resolve_read (self : Server) (client : Client) (clientId : Uuid) (read : SocketRead) (ready : Bool) :
    (self.resolve client clientId read ready).1.read = read := by
  unfold resolve
  split
  · split <;> rfl
  · rfl
  · rfl

/-- So does a future of the service. -/
private theorem resolve_service_cases (self : Server) (client : Client) (clientId : Uuid)
    (read : SocketRead) (ready : Bool) :
    (self.resolve client clientId read ready).1.service = .ok none ∨
      ∃ req, client.session.connection.state = .processingService req ∧
        (self.resolve client clientId read ready).1.service = some <$> (self.broker.handle client.mqttId req).1 := by
  unfold resolve
  split
  · split <;> exact .inl rfl
  · next req phase => exact .inr ⟨req, phase, rfl⟩
  · exact .inl rfl

end Server

/-- The last poll of the connection finds this in the socket. -/
def Pool.LastRead (events : List Pool.Event) (clientId : Uuid) (read : SocketRead) : Prop :=
  ∃ before ready after, events = before ++ .server (.poll clientId read ready) :: after ∧
    ∀ read ready, .server (.poll clientId read ready) ∉ after

/-- How a connection is over, told by everything it has done and by its last poll. -/
inductive Client.Over (build : Build) (events : List Pool.Event) (clientId : Uuid) (client : Client) : Prop
  /-- Waiting for a packet, it met the end of the file, an error of the socket, or bytes that its decoder
  refuses or panics on. -/
  | reading {decoder : Decoder} {read : SocketRead}
      (idle : client.session.trace = [] ∨ ∃ script : Script, client.session.trace = script.actions)
      (reachable : decoder.Reachable build) (last : Pool.LastRead events clientId read)
      (ends : Connection.ReadEnd build decoder read client.session.result client.session.connection.decoder) :
      Over build events clientId client
  /-- Its first packet was no CONNECT. -/
  | unexpected {packet : ControlPacket} (other : ∀ first, packet ≠ .connect first)
      (only : client.session.trace = [.received packet])
      (result : client.session.result = .err (.mqtt .unexpected)) : Over build events clientId client
  /-- Its CONNECT had a name or a level that is not accepted. -/
  | refused {first : Connect} (level : Broker.acceptsLevel first.protocolName.value first.protocolVer.value = false)
      (only : client.session.trace = [.received (.connect first), .connectCalled (.connect first)])
      (result : client.session.result = .err (.connect ⟨.protocolError⟩)) : Over build events clientId client
  /-- It sent a second CONNECT. -/
  | again {script : Script} {p : Connect}
      (last : client.session.trace = script.actions ++ [.received (.connect p), .called (.connect p)])
      (result : client.session.result = .err (.service .protocolViolation)) : Over build events clientId client
  /-- It offered a packet to a channel whose writer is gone. -/
  | closed {packet : ControlPacket} {found : OutboundChannel}
      (offered : .offered packet found ∈ client.session.trace) (gone : found.closed = true)
      (result : client.session.result = .err (.text "Channel closed")) : Over build events clientId client

/-- Steps in which it is not polled do not change how a connection is over. -/
theorem Client.Over.mono {build : Build} {events : List Pool.Event} {event : Pool.Event} {clientId : Uuid}
    {client : Client} (ended : client.Over build events clientId)
    (silent : ∀ read ready, event ≠ .server (.poll clientId read ready)) :
    client.Over build (events ++ [event]) clientId := by
  cases ended with
  | reading idle reachable last ends =>
    obtain ⟨before, ready, after, rfl, none⟩ := last
    refine .reading idle reachable ⟨before, ready, after ++ [event], ?_, fun read ready => ?_⟩ ends
    · rw [List.append_assoc, List.cons_append]
    · rw [List.mem_append, List.mem_singleton, not_or]
      exact ⟨none read ready, (silent read ready).symm⟩
  | unexpected other only result => exact .unexpected other only result
  | refused level only result => exact .refused level only result
  | again last result => exact .again last result
  | closed offered gone result => exact .closed offered gone result

/-- A connection that goes on is not about to write a DISCONNECT, and one that does not is over. -/
structure Client.Accountable (build : Build) (events : List Pool.Event) (clientId : Uuid) (client : Client) :
    Prop where
  stays : ∀ p, .disconnect p ∉ client.session.connection.state.outgoing
  ended : client.session.result ≠ .ok none → client.Over build events clientId

namespace Pool

variable {build : Build} {self next : Pool} {event : Event} {events : List Event} {clientId : Uuid}

/-- No handler panics, and none fails but on a second CONNECT. -/
theorem Reachable.handles (reachable : self.Reachable build) {req : ControlPacket}
    (goesOn : (self.server.clients clientId).session.result = .ok none)
    (phase : (self.server.clients clientId).session.connection.state = .processingService req) :
    (∃ res, (self.server.broker.handle (self.server.clients clientId).mqttId req).1 = .ok res) ∨
      (self.server.broker.handle (self.server.clients clientId).mqttId req).1 = .err .protocolViolation ∧
        ∃ p, req = .connect p := by
  have received := (reachable.sound.server.clients clientId).received
  have missing : ∀ p, req = .publish p → p.packetId = none → p.qos = .qos0 := by
    rintro p rfl none
    exact (received p phase).packetId.mp none
  cases answered : (self.server.broker.handle (self.server.clients clientId).mqttId req).1 with
  | ok res => exact .inl ⟨res, rfl⟩
  | err e =>
    obtain ⟨p, rfl, rfl⟩ | ⟨p, same, qos1, none⟩ := Broker.handle_err answered
    · exact .inr ⟨rfl, p, rfl⟩
    · cases qos1.symm.trans (missing p same none)
  | panic =>
    obtain ⟨p, same, qos2, none⟩ | none := Broker.handle_panic answered
    · cases qos2.symm.trans (missing p same none)
    · cases none.symm.trans (reachable.versioned goesOn phase)
  | diverge => exact absurd answered (Broker.handle_halts _ _ _)

/-- A poll that ends a connection leaves it over. -/
theorem Reachable.tells (reachable : self.Reachable build)
    (goesOn : (self.server.clients clientId).session.result = .ok none)
    (stays : ∀ p, .disconnect p ∉ (self.server.clients clientId).session.connection.state.outgoing)
    {read : SocketRead} {ready : Bool} {input : PollInput MqttError} {broker : Broker} {mqttId : String}
    (given : self.server.resolve (self.server.clients clientId) clientId read ready = (input, broker, mqttId))
    {channel : OutboundChannel} {result : Outcome (ConnectionError MqttError) (Option Unit)} {left : Decoder}
    {actions : List Action}
    (ends : (self.server.clients clientId).session.connection.Ends build channel input result left actions)
    {client : Client} (trace : client.session.trace = (self.server.clients clientId).session.trace ++ actions)
    (same : client.session.result = result) (kept : client.session.connection.decoder = left) :
    client.Over build (events ++ [.server (.poll clientId read ready)]) clientId := by
  have reached := (reachable.known clientId).inPhase.2 goesOn
  have found := self.server.resolve_read (self.server.clients clientId) clientId read ready
  have connect := self.server.resolve_connect_cases (self.server.clients clientId) clientId read ready
  have service := self.server.resolve_service_cases (self.server.clients clientId) clientId read ready
  rw [given] at found connect service
  dsimp only at found connect service
  cases ends with
  | reading reads ends =>
    rw [List.append_nil] at trace
    subst same kept
    refine .reading ?_ (reachable.sound.server.clients clientId).decoder ?_ (found ▸ ends)
    · rw [trace]
      rcases reads with state | state <;> rw [state] at reached
      · exact .inl reached
      · exact .inr reached
    · exact ⟨events, ready, [], rfl, fun _ _ => List.not_mem_nil⟩
  | unexpected state other =>
    rw [state] at reached
    exact .unexpected other (trace.trans (congrArg (· ++ _) reached)) same
  | refused state refuses =>
    obtain ⟨res, wrong⟩ | ⟨req, e, phase, failed, handled⟩ := connect
    · cases refuses.symm.trans wrong
    · cases refuses.symm.trans failed
      rw [phase] at reached
      obtain ⟨first, rfl, before⟩ := reached
      obtain ⟨level, rfl⟩ := Broker.onConnect_error handled
      exact .refused level (by rw [trace, before]; rfl) same
  | connectAborted state aborts =>
    obtain ⟨res, wrong⟩ | ⟨req, e, _, wrong, _⟩ := connect <;>
      rcases aborts with aborts | aborts <;> cases aborts.symm.trans wrong
  | failed state fails =>
    obtain wrong | ⟨req, phase, answered⟩ := service
    · cases fails.symm.trans wrong
    · rw [phase] at reached
      obtain ⟨script, request, own, before⟩ := reached
      obtain rfl : req = request := own
      obtain ⟨res, handled⟩ | ⟨handled, p, rfl⟩ := reachable.handles goesOn phase <;> rw [handled] at answered
      · cases fails.symm.trans answered
      · cases fails.symm.trans answered
        rw [List.append_nil] at trace
        exact .again (trace.trans before) same
  | serviceAborted state aborts =>
    obtain wrong | ⟨req, phase, answered⟩ := service
    · rcases aborts with aborts | aborts <;> cases aborts.symm.trans wrong
    · obtain ⟨res, handled⟩ | ⟨handled, _⟩ := reachable.handles goesOn phase <;> rw [handled] at answered <;>
        rcases aborts with aborts | aborts <;> cases aborts.symm.trans answered
  | closed offers gone => exact .closed (trace ▸ List.mem_append_right _ offers) gone same
  | @disconnects res p left actions state member =>
    refine absurd ?_ (stays p)
    rw [state]
    exact member

/-- Only a connection that goes on is polled. -/
theorem Step.goesOn {read : SocketRead} {ready : Bool}
    (step : self.Step build (.server (.poll clientId read ready)) next) :
    (self.server.clients clientId).session.result = .ok none := by
  cases step with
  | server noTask step =>
    cases step with
    | poll live goesOn read ready => exact goesOn

private theorem Step.accountable (step : self.Step build event next) (reachable : self.Reachable build)
    (accountable : (self.server.clients clientId).Accountable build events clientId) :
    (next.server.clients clientId).Accountable build (events ++ [event]) clientId := by
  have client := step.client clientId
  generalize next.server.clients clientId = behind at client
  cases client with
  | stays =>
    refine ⟨accountable.stays, fun ended => (accountable.ended ended).mono ?_⟩
    rintro read ready rfl
    exact ended step.goesOn
  | accepted fresh => exact ⟨fun p => List.not_mem_nil, fun ended => absurd rfl ended⟩
  | @polled input broker mqttId live goesOn read ready polls given =>
    have service := @Server.resolve_service self.server (self.server.clients clientId) clientId read ready
    rw [given] at service
    refine ⟨fun p member => ?_, fun ended => ?_⟩
    · simp only [Session.poll, goesOn] at member
      have polls := (self.server.clients clientId).session.connection.polls build Server.services
        (broker.channels clientId) input
      rcases polls.outgoing member with before | ⟨res, _, wrong⟩ | ⟨res, answers, among⟩
      · exact accountable.stays p before
      · cases wrong
      · obtain ⟨req, _, handled⟩ := service answers
        exact Broker.handle_stays handled p among
    · subst polls
      simp only [Session.poll, goesOn] at ended ⊢
      obtain pending | ends := (self.server.clients clientId).session.connection.poll_ends build Server.services
        (broker.channels clientId) input
      · exact absurd pending ended
      · exact reachable.tells goesOn accountable.stays given ends rfl rfl rfl

private theorem accountable (run : Runs (Step build) .new events self) (clientId : Uuid) :
    (self.server.clients clientId).Accountable build events clientId := by
  induction run with
  | nil => exact ⟨fun p => List.not_mem_nil, fun ended => absurd rfl ended⟩
  | snoc earlier step ih => exact step.accountable ⟨_, earlier⟩ ih

/-- A client `a` that sends its CONNECT twice. -/
def twiceBytes : Bytes :=
  [0x10, 0x0d, 0x00, 0x04, 0x4d, 0x51, 0x54, 0x54, 0x04, 0x02, 0x00, 0x3c, 0x00, 0x01, 0x61,
    0x10, 0x0d, 0x00, 0x04, 0x4d, 0x51, 0x54, 0x54, 0x04, 0x02, 0x00, 0x3c, 0x00, 0x01, 0x61]

def twice : Pool :=
  let accepted := Pool.new.enter (Pool.new.server.accept ⟨0⟩)
  (Pool.resume ⟨false⟩ ⟨0⟩)^[8]
    (accepted.enter (accepted.server.poll ⟨false⟩ ⟨0⟩ (.ready twiceBytes) true))

private theorem twice_reachable : twice.Reachable ⟨false⟩ := by
  have accepted : (Pool.new.enter (Pool.new.server.accept ⟨0⟩)).Reachable ⟨false⟩ :=
    (Reachable.new _).accept rfl
  refine (accepted.poll rfl rfl (.ready twiceBytes) true).resume 8 fun k lt => ?_
  interval_cases k <;> exact ⟨rfl, rfl⟩

end Pool

/-- In every run of the pool, a connection that does not go on is over for one of five reasons, each with what the
connection has done until then and, where a read ended it, with what its last poll has read. In particular it never
returns without an error and never runs for ever, and it panics only where its decoder does. -/
theorem connection_endings {build : Build} {events : List Pool.Event} {pool : Pool}
    (run : Runs (Pool.Step build) .new events pool) (clientId : Uuid)
    (ended : (pool.server.clients clientId).session.result ≠ .ok none) :
    (pool.server.clients clientId).Over build events clientId :=
  (Pool.accountable run clientId).ended ended

theorem connection_endings_twice : ∃ events, (Pool.twice.server.clients ⟨0⟩).Over ⟨false⟩ events ⟨0⟩ := by
  obtain ⟨events, run⟩ := Pool.twice_reachable
  exact ⟨events, connection_endings run ⟨0⟩ (by intro wrong; cases wrong)⟩

end Aqua
